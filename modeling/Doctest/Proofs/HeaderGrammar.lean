import Doctest.Proofs.Result
import Doctest.Directive
import Mathlib.Data.List.TakeWhile

/-!
# The grammar of a directive's first line

The scanner is compared with a description of the header that has no loop and no map in it.

* `Written`: which headers are well formed, and what they declare.
* `scanFrom_blank`, `scanFrom_label`, `scanFrom_flag`, `scanFrom_value`: what the scanner does with
  each item that the grammar has.
* `written_of_scanFrom`, `scanFrom_of_written`: the scanner finds what a well-formed header declares,
  and succeeds on no other. No key is repeated because a map has its keys once.
* `Directive.HasHeader`: the header in the text of a comment that is a directive.
* `Header.scan_ok_iff`: both together, and what becomes of a directive whose header is refused.
-/

namespace Doctest

open Text (isBlank isAllBlank trimStart delimited? Unescapes delimited?_eq_some_iff afterWord?
  afterWord?_eq_some_iff splitFirst? splitFirst?_eq_some_iff splitFirst?_eq_none_iff
  dropReturns dropReturns_append takeWhile_append_stop dropWhile_append_stop)

namespace BodyLabel

theorem ofName?_eq_some {name : String} {label : BodyLabel} (h : ofName? name = some label) :
    name = label.name := by
  have hname := List.find?_some h
  exact (beq_iff_eq.mp hname).symm

end BodyLabel

namespace Header

/-! ## Well-formed headers -/

/-- A key: one or more letters, digits, underscores and hyphens. -/
def IsKey (key : List Char) : Prop := key ≠ [] ∧ ∀ c ∈ key, isKeyChar c

instance (key : List Char) : Decidable (IsKey key) :=
  decidable_of_iff (key ≠ [] ∧ key.all isKeyChar) (by simp [IsKey])

/-- The text ends here or goes on with a blank. -/
def BlankNext (cs : List Char) : Prop := ∀ c ∈ cs.head?, isBlank c

theorem blankNext_iff {cs : List Char} : BlankNext cs ↔ ¬ cs.head?.any (!isBlank ·) := by
  cases cs <;> simp [BlankNext]

theorem BlankNext.append {front rest : List Char} (hfront : BlankNext front)
    (hrest : BlankNext rest) : BlankNext (front ++ rest) := by
  cases front with
  | nil => exact hrest
  | cons c front => exact hfront

/-- What a header declares: its attributes, in the order in which they stand in it, and its label.
Blanks separate the items, and the label is the last one. -/
inductive Written : List Char → List (String × Option String) → Option BodyLabel → Prop
  | blank {trail : List Char} (htrail : isAllBlank trail) : Written trail [] none
  | label {gap trail : List Char} (hgap : isAllBlank gap) (label : BodyLabel)
      (htrail : isAllBlank trail) : Written (gap ++ label.name.toList ++ ':' :: trail) [] (some label)
  | flag {gap key rest : List Char} {entries : List (String × Option String)}
      {label : Option BodyLabel} (hgap : isAllBlank gap) (hkey : IsKey key)
      (hnext : BlankNext rest) (hrest : Written rest entries label) :
      Written (gap ++ key ++ rest) ((String.ofList key, none) :: entries) label
  | value {gap key raw value rest : List Char} {entries : List (String × Option String)}
      {label : Option BodyLabel} (hgap : isAllBlank gap) (hkey : IsKey key)
      (hvalue : Unescapes '"' raw value) (hnext : BlankNext rest)
      (hrest : Written rest entries label) :
      Written (gap ++ key ++ '=' :: '"' :: (raw ++ '"' :: rest))
        ((String.ofList key, some (String.ofList value)) :: entries) label

/-! ## One item -/

theorem not_isBlank_of_isKeyChar {c : Char} (h : isKeyChar c) : isBlank c = false := by
  have hcode : 65 ≤ c.toNat ∧ c.toNat ≤ 90 ∨ 97 ≤ c.toNat ∧ c.toNat ≤ 122 ∨
      48 ≤ c.toNat ∧ c.toNat ≤ 57 ∨ c.toNat = 95 ∨ c.toNat = 45 := by
    unfold isKeyChar Char.isAlphanum Char.isAlpha Char.isUpper Char.isLower Char.isDigit at h
    simp only [Bool.or_eq_true, Bool.and_eq_true, decide_eq_true_eq, beq_iff_eq, ge_iff_le,
      UInt32.le_iff_toNat_le] at h
    rcases h with (((h | h) | h) | rfl) | rfl
    · exact .inl h
    · exact .inr (.inl h)
    · exact .inr (.inr (.inl h))
    · decide
    · decide
  unfold isBlank
  simp only [Bool.or_eq_false_iff, Bool.and_eq_false_iff, decide_eq_false_iff_not,
    beq_eq_false_iff_ne]
  omega

theorem not_isKeyChar_of_isBlank {c : Char} (h : isBlank c) : isKeyChar c = false := by
  cases hc : isKeyChar c with
  | false => rfl
  | true => exact absurd h (by simp [not_isBlank_of_isKeyChar hc])

theorem trimStart_eq_nil {cs : List Char} : trimStart cs = [] ↔ isAllBlank cs := by
  unfold trimStart isAllBlank
  rw [List.dropWhile_eq_nil_iff, List.all_eq_true]

/-- A key is read up to its end. -/
theorem scan_key {gap key : List Char} (hgap : isAllBlank gap) (hkey : IsKey key)
    (rest : List Char) (hrest : ∀ c ∈ rest.head?, isKeyChar c = false) :
    ∃ c ks, key = c :: ks ∧ isKeyChar c ∧ trimStart (gap ++ key ++ rest) = c :: (ks ++ rest) ∧
      (ks ++ rest).takeWhile isKeyChar = ks ∧ (ks ++ rest).dropWhile isKeyChar = rest := by
  obtain ⟨hne, hchars⟩ := hkey
  obtain ⟨c, ks, rfl⟩ := List.exists_cons_of_ne_nil hne
  obtain ⟨hc, hks⟩ := List.forall_mem_cons.mp hchars
  refine ⟨c, ks, rfl, hc, ?_, takeWhile_append_stop hks hrest, dropWhile_append_stop hks hrest⟩
  rw [List.append_assoc]
  refine dropWhile_append_stop (List.all_eq_true.mp hgap) ?_
  rintro _ ⟨⟩
  exact not_isBlank_of_isKeyChar hc

section Steps

variable {found : Attributes} {gap key rest : List Char}

theorem scanFrom_blank {cs : List Char} (h : isAllBlank cs) :
    scanFrom found cs = .ok ⟨found, none⟩ := by
  rw [scanFrom]
  split
  · rfl
  · next heq => cases (trimStart_eq_nil.mpr h).symm.trans heq

theorem scanFrom_flag (hgap : isAllBlank gap) (hkey : IsKey key) (hnext : BlankNext rest) :
    scanFrom found (gap ++ key ++ rest) =
      add found (String.ofList key) none (key ++ rest) >>= fun found' => scanFrom found' rest := by
  obtain ⟨c, ks, rfl, hc, htrim, htake, hdrop⟩ :=
    scan_key hgap hkey rest fun d hd => not_isKeyChar_of_isBlank (hnext d hd)
  rw [scanFrom]
  split
  · next heq => cases htrim.symm.trans heq
  · next heq =>
    cases htrim.symm.trans heq
    simp only [hc, htake, Bool.not_true, Bool.false_eq_true, if_false]
    split
    · next hrest =>
      cases hdrop.symm.trans hrest
      simp only [scanFrom_blank (show isAllBlank [] from rfl)]
      rfl
    · next d more hrest =>
      cases hdrop.symm.trans hrest
      have hd : isBlank d := hnext d rfl
      have hcolon : d ≠ ':' := by
        rintro rfl
        cases hd
      have hequals : d ≠ '=' := by
        rintro rfl
        cases hd
      simp only [hcolon, hequals, hd, Bool.not_true, Bool.false_eq_true, if_false]
      rfl

theorem scanFrom_value {raw value : List Char} (hgap : isAllBlank gap) (hkey : IsKey key)
    (hvalue : Unescapes '"' raw value) (hnext : BlankNext rest) :
    scanFrom found (gap ++ key ++ '=' :: '"' :: (raw ++ '"' :: rest)) =
      add found (String.ofList key) (some (String.ofList value))
          (key ++ '=' :: '"' :: (raw ++ '"' :: rest)) >>=
        fun found' => scanFrom found' rest := by
  have hread : delimited? '"' (raw ++ '"' :: rest) = some (value, rest) :=
    (delimited?_eq_some_iff (by decide)).mpr ⟨raw, hvalue, rfl⟩
  obtain ⟨c, ks, rfl, hc, htrim, htake, hdrop⟩ :=
    scan_key hgap hkey ('=' :: '"' :: (raw ++ '"' :: rest)) (by rintro _ ⟨⟩; rfl)
  rw [scanFrom]
  split
  · next heq => cases htrim.symm.trans heq
  · next heq =>
    cases htrim.symm.trans heq
    simp only [hc, htake, Bool.not_true, Bool.false_eq_true, if_false]
    split
    · next hrest => cases hdrop.symm.trans hrest
    · next d more hrest =>
      cases hdrop.symm.trans hrest
      simp only [Char.reduceEq, if_false, if_true, ne_eq, not_true_eq_false]
      split
      · next hval => cases hread.symm.trans hval
      · next hval =>
        cases hread.symm.trans hval
        rw [if_neg (blankNext_iff.mp hnext)]
        rfl

theorem scanFrom_label (hgap : isAllBlank gap) (label : BodyLabel) {trail : List Char}
    (htrail : isAllBlank trail) :
    scanFrom found (gap ++ label.name.toList ++ ':' :: trail) = .ok ⟨found, some label⟩ := by
  have hkey : IsKey label.name.toList := by
    cases label <;> decide
  obtain ⟨c, ks, hname, hc, htrim, htake, hdrop⟩ :=
    scan_key hgap hkey (':' :: trail) (by rintro _ ⟨⟩; rfl)
  have hlabel : BodyLabel.ofName? (String.ofList (c :: ks)) = some label := by
    rw [← hname, String.ofList_toList, BodyLabel.ofName?_name]
  rw [scanFrom]
  split
  · next heq => cases htrim.symm.trans heq
  · next heq =>
    cases htrim.symm.trans heq
    simp only [hc, htake, Bool.not_true, Bool.false_eq_true, if_false]
    split
    · next hrest => cases hdrop.symm.trans hrest
    · next d more hrest =>
      cases hdrop.symm.trans hrest
      simp only [if_true, hlabel, trimStart_eq_nil.mpr htrail]
      rfl

end Steps

/-! ## Whole headers -/

theorem add_eq_ok {found found' : Attributes} {key : String} {value : Option String}
    {start : List Char} :
    add found key value start = .ok found' ↔
      found.contains key = false ∧ found' = found.insert key value := by
  unfold add
  cases found.contains key <;> simp [eq_comm]

/-- A key at the front of what is scanned. -/
theorem exists_key {cs rest : List Char} {c : Char} (htrim : trimStart cs = c :: rest)
    (hc : isKeyChar c) :
    IsKey (c :: rest.takeWhile isKeyChar) ∧ ∃ gap, isAllBlank gap ∧
      cs = gap ++ (c :: rest.takeWhile isKeyChar) ++ rest.dropWhile isKeyChar := by
  refine ⟨⟨List.cons_ne_nil _ _, List.forall_mem_cons.mpr ⟨hc, ?_⟩⟩,
    cs.takeWhile isBlank, List.all_takeWhile, ?_⟩
  · exact List.all_eq_true.mp List.all_takeWhile
  · rw [List.append_assoc, List.cons_append, List.takeWhile_append_dropWhile, ← htrim]
    exact List.takeWhile_append_dropWhile.symm

/-- What is read and what was there together make up what is found. -/
theorem perm_of_add {found found' : Attributes} {key : String} {value : Option String}
    {start : List Char} (h : add found key value start = .ok found')
    (entries : List (String × Option String)) :
    (entries ++ found'.entries).Perm ((key, value) :: entries ++ found.entries) := by
  obtain ⟨hnew, rfl⟩ := add_eq_ok.mp h
  exact ((Keyed.perm_insert hnew value).append_left entries).trans List.perm_middle

/-- What is accepted is well formed, and nothing in it is passed over. -/
theorem written_of_scanFrom {found : Attributes} {cs : List Char} {content : Content}
    (h : scanFrom found cs = .ok content) :
    ∃ entries, Written cs entries content.bodyLabel ∧
      content.attributes.entries.Perm (entries ++ found.entries) := by
  fun_induction scanFrom found cs with
  | case1 found cs htrim =>
    -- nothing but blanks
    cases h
    exact ⟨[], .blank (trimStart_eq_nil.mp htrim), .rfl⟩
  | case3 found cs c rest htrim hc key hrest =>
    -- a key at the end
    obtain ⟨found', hadd, h⟩ := bind_eq_ok.mp h
    cases h
    obtain ⟨hkey, gap, hgap, hcs⟩ := exists_key htrim (by simpa using hc)
    rw [hcs, hrest]
    exact ⟨_, .flag hgap hkey (by simp [BlankNext]) (.blank rfl), perm_of_add hadd []⟩
  | case5 found cs c rest htrim hc key more label hlabel hlast hrest =>
    -- a label
    cases h
    obtain ⟨-, gap, hgap, hcs⟩ := exists_key htrim (by simpa using hc)
    have hname : c :: rest.takeWhile isKeyChar = label.name.toList := by
      rw [← BodyLabel.ofName?_eq_some hlabel]
      exact (String.toList_ofList ..).symm
    rw [hcs, hname, hrest]
    exact ⟨[], .label hgap label (trimStart_eq_nil.mp (List.isEmpty_iff.mp hlast)), .rfl⟩
  | case11 found cs c rest htrim hc key q quoted hquote value after hval hnext _ _ _ hrest ih =>
    -- a key with a value
    obtain ⟨found', hadd, h⟩ := bind_eq_ok.mp h
    obtain ⟨entries, hwritten, hperm⟩ := ih found' h
    obtain ⟨hkey, gap, hgap, hcs⟩ := exists_key htrim (by simpa using hc)
    obtain ⟨raw, hraw, rfl⟩ := (delimited?_eq_some_iff (by decide)).mp hval
    obtain rfl : q = '"' := not_not.mp hquote
    rw [hcs, hrest]
    exact ⟨_, .value hgap hkey hraw (blankNext_iff.mpr hnext) hwritten,
      hperm.trans (perm_of_add hadd entries)⟩
  | case13 found cs c rest htrim hc key d more hrest _ _ hd _ ih =>
    -- a key in front of a blank
    obtain ⟨found', hadd, h⟩ := bind_eq_ok.mp h
    obtain ⟨entries, hwritten, hperm⟩ := ih found' h
    obtain ⟨hkey, gap, hgap, hcs⟩ := exists_key htrim (by simpa using hc)
    rw [hcs, hrest]
    refine ⟨_, .flag hgap hkey ?_ hwritten, hperm.trans (perm_of_add hadd entries)⟩
    rintro _ ⟨⟩
    simpa using hd
  -- the scanner refuses all the rest
  | _ => cases h

/-- A key that is not repeated is added. -/
theorem add_of_perm {found m : Attributes} {key : String} {value : Option String}
    {entries : List (String × Option String)}
    (h : m.entries.Perm ((key, value) :: entries ++ found.entries)) (start : List Char) :
    ∃ found', add found key value start = .ok found' ∧
      m.entries.Perm (entries ++ found'.entries) := by
  have hnodup : ((((key, value) :: entries) ++ found.entries).map Prod.fst).Nodup :=
    (h.map Prod.fst).nodup_iff.mp m.nodup_keys
  have hnew : found.contains key = false := by
    rw [List.cons_append, List.map_cons, List.map_append] at hnodup
    refine Keyed.contains_eq_false_iff.mpr fun e he hkey => ?_
    exact (List.nodup_cons.mp hnodup).1
      (List.mem_append_right _ (List.mem_map.mpr ⟨e, he, hkey⟩))
  have hadd : add found key value start = .ok (found.insert key value) := add_eq_ok.mpr ⟨hnew, rfl⟩
  exact ⟨_, hadd, h.trans (perm_of_add hadd entries).symm⟩

/-- What is well formed is accepted. -/
theorem scanFrom_of_written {found m : Attributes} {cs : List Char} {label : Option BodyLabel}
    {entries : List (String × Option String)} (h : Written cs entries label)
    (hperm : m.entries.Perm (entries ++ found.entries)) : scanFrom found cs = .ok ⟨m, label⟩ := by
  induction h generalizing found with
  | blank htrail => rw [scanFrom_blank htrail, Keyed.eq_of_perm hperm]
  | label hgap label htrail => rw [scanFrom_label hgap label htrail, Keyed.eq_of_perm hperm]
  | @flag gap key rest entries label hgap hkey hnext _ ih =>
    obtain ⟨found', hadd, hperm⟩ := add_of_perm hperm (key ++ rest)
    rw [scanFrom_flag hgap hkey hnext, hadd]
    exact ih hperm
  | @value gap key raw value rest entries label hgap hkey hvalue hnext _ ih =>
    obtain ⟨found', hadd, hperm⟩ := add_of_perm hperm (key ++ '=' :: '"' :: (raw ++ '"' :: rest))
    rw [scanFrom_value hgap hkey hvalue hnext, hadd]
    exact ih hperm

/-- The scanner accepts what is well formed and nothing else. A map that has all the entries is there
only if no key is repeated. -/
theorem scan_eq_ok_iff {line : Nat} {header : List Char} {content : Content} :
    scan line header = .ok content ↔
      ∃ entries, Written header entries content.bodyLabel ∧
        content.attributes.entries.Perm entries := by
  have hscan : scan line header = .ok content ↔ scanFrom .empty header = .ok content := by
    unfold scan
    cases scanFrom .empty header <;> simp
  have hempty : (Keyed.empty : Attributes).entries = [] := rfl
  rw [hscan]
  constructor
  · intro h
    obtain ⟨entries, hwritten, hperm⟩ := written_of_scanFrom h
    rw [hempty, List.append_nil] at hperm
    exact ⟨entries, hwritten, hperm⟩
  · rintro ⟨entries, hwritten, hperm⟩
    refine scanFrom_of_written hwritten ?_
    rwa [hempty, List.append_nil]

end Header

/-! ## Comments with a header -/

namespace Directive

open Header (BlankNext)

/-- The text of a directive that has this header. Carriage returns in front of the newline are not
part of it. -/
inductive HasHeader : List Char → List Char → Prop
  | alone {gap header : List Char} (hgap : isAllBlank gap) (hnext : BlankNext header)
      (hline : '\n' ∉ header) : HasHeader (gap ++ keyword ++ header) header
  | above {gap header returns : List Char} (hgap : isAllBlank gap) (hnext : BlankNext header)
      (hline : '\n' ∉ header) (hlast : header.getLast? ≠ some '\r')
      (hreturns : ∀ c ∈ returns, c = '\r') (remainder : List Char) :
      HasHeader (gap ++ keyword ++ (header ++ returns ++ '\n' :: remainder)) header

section Parse

variable {gap header returns : List Char}

theorem afterWord?_keyword (hgap : isAllBlank gap) (rest : List Char) :
    afterWord? keyword (trimStart (String.ofList (gap ++ keyword ++ rest)).toList) = some rest := by
  rw [afterWord?_eq_some_iff, String.toList_ofList, List.append_assoc]
  exact dropWhile_append_stop (List.all_eq_true.mp hgap) (by rintro _ ⟨⟩; rfl)

theorem parse_alone (line : Nat) (hgap : isAllBlank gap) (hnext : BlankNext header)
    (hline : '\n' ∉ header) :
    parse line (String.ofList (gap ++ keyword ++ header)) =
      Header.scan line header >>= fun content =>
        .ok (some ⟨line, content.attributes, content.bodyLabel, []⟩) := by
  unfold parse
  rw [afterWord?_keyword hgap]
  dsimp only
  rw [if_neg (Header.blankNext_iff.mp hnext), splitFirst?_eq_none_iff.mpr hline]

theorem parse_above (line : Nat) (hgap : isAllBlank gap) (hnext : BlankNext header)
    (hline : '\n' ∉ header) (hlast : header.getLast? ≠ some '\r')
    (hreturns : ∀ c ∈ returns, c = '\r') (remainder : List Char) :
    parse line (String.ofList (gap ++ keyword ++ (header ++ returns ++ '\n' :: remainder))) =
      Header.scan line header >>= fun content =>
        match content.bodyLabel with
        | some label =>
          .ok (some ⟨line, content.attributes, some label,
            (bodyLines remainder).map String.ofList⟩)
        | none =>
          if isAllBlank remainder then .ok (some ⟨line, content.attributes, none, []⟩)
          else .error (.atLine line (DirectiveCause.textWithoutBodyLabel)) := by
  have hbehind : BlankNext (header ++ returns ++ '\n' :: remainder) := by
    refine (hnext.append fun c hc => ?_).append (by rintro _ ⟨⟩; rfl)
    rw [hreturns c (List.mem_of_head? hc)]
    rfl
  have hsplit : splitFirst? '\n' (header ++ returns ++ '\n' :: remainder) =
      some (header ++ returns, remainder) := by
    refine splitFirst?_eq_some_iff.mpr ⟨fun h => ?_, rfl⟩
    rcases List.mem_append.mp h with h | h
    · exact hline h
    · cases hreturns _ h
  unfold parse
  rw [afterWord?_keyword hgap]
  dsimp only
  rw [if_neg (Header.blankNext_iff.mp hbehind), hsplit]
  exact congrArg (Header.scan line · >>= _) (dropReturns_append hreturns hlast)

end Parse

/-- A header that cannot be read is the fault of its directive. -/
theorem parse_eq_error {cs header : List Char} {line : Nat} {fault : Fault} (h : HasHeader cs header)
    (hscan : Header.scan line header = .error fault) :
    parse line (String.ofList cs) = .error fault := by
  cases h with
  | alone hgap hnext hline =>
    rw [parse_alone line hgap hnext hline, hscan]
    rfl
  | above hgap hnext hline hlast hreturns remainder =>
    rw [parse_above line hgap hnext hline hlast hreturns remainder, hscan]
    rfl

end Directive

/-- **What a header can be.** A header is accepted if and only if it is made of attributes with
blanks between them and perhaps a body label behind them, and no key occurs twice. What is found are
its attributes, each with its value, and its label. Any other header is refused, and with it every
directive that has it. -/
theorem Header.scan_ok_iff (line : Nat) (header : List Char) :
    (∀ content, scan line header = .ok content ↔
      ∃ entries, Written header entries content.bodyLabel ∧ (entries.map Prod.fst).Nodup ∧
        content.attributes.entries.Perm entries) ∧
    ((∀ entries label, Written header entries label → ¬ (entries.map Prod.fst).Nodup) →
      ∃ fault, scan line header = .error fault ∧
        ∀ cs, Directive.HasHeader cs header →
          Directive.parse line (String.ofList cs) = .error fault) := by
  have hiff : ∀ content, scan line header = .ok content ↔
      ∃ entries, Written header entries content.bodyLabel ∧ (entries.map Prod.fst).Nodup ∧
        content.attributes.entries.Perm entries := by
    intro content
    rw [scan_eq_ok_iff]
    constructor
    · rintro ⟨entries, hwritten, hperm⟩
      have hnodup : (entries.map Prod.fst).Nodup :=
        (hperm.map Prod.fst).nodup_iff.mp content.attributes.nodup_keys
      exact ⟨entries, hwritten, hnodup, hperm⟩
    · rintro ⟨entries, hwritten, -, hperm⟩
      exact ⟨entries, hwritten, hperm⟩
  refine ⟨hiff, fun hnone => ?_⟩
  cases hscan : scan line header with
  | ok content =>
    obtain ⟨entries, hwritten, hnodup, -⟩ := (hiff content).mp hscan
    exact absurd hnodup (hnone entries _ hwritten)
  | error fault => exact ⟨fault, rfl, fun cs hcs => Directive.parse_eq_error hcs hscan⟩

/-- What stands behind a value has to be separated from it, and an escaped quote does not end one. -/
example :
    (Header.scan 1 "re=\"a\"b body:".toList).toOption.isNone ∧
      ((Header.scan 1 "re=\"a\\\" b\" body:".toList).toOption.map (·.attributes)) =
        some (.ofList [("re", some "a\" b")]) := by
  decide +kernel

end Doctest
