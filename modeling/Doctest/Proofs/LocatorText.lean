import Doctest.Insertion
import Doctest.Proofs.Result

/-!
# Locators are read as they are written

Lists of locators have commas and dots between them, and so may the fragments. What is written is read
back nevertheless: a number ends at the first character that is no digit, a fragment at the first quote
without a backslash.

* `Locator.Writable`: the locators that can be read at all. A number is not zero and fits 64 bits.
* `Locator.read_text_append`, `LineRange.read_text_append`: one locator or range, whatever is read
  behind it.
* `LineSet.parse_of_writable`, `InsertionPoint.parseList_of_writable`: whole lists.
* `LineSet.writable_of_parse`, `InsertionPoint.writable_of_parseList`: nothing else is ever read.
* `Locator.read_back`: all of this together.
-/

namespace Doctest

open Text (isBlank isDigit trimStart trimStart_cons afterWord? afterWord?_eq_some_iff signed?
  fits_of_signed? signed?_toString toList_toString isDigit_of_mem_toDigits takeWhile_append_stop dropWhile_append_stop
  delimited?_escaped escaped)

theorem not_isBlank_of_isDigit {c : Char} (h : isDigit c) : isBlank c = false := by
  have hcode : 48 ≤ c.toNat ∧ c.toNat ≤ 57 := by
    unfold isDigit at h
    simp only [Bool.and_eq_true, decide_eq_true_eq] at h
    exact h
  unfold isBlank
  simp only [Bool.or_eq_false_iff, Bool.and_eq_false_iff, decide_eq_false_iff_not,
    beq_eq_false_iff_ne]
  omega

/-- A locator that can be read from a text. -/
def Locator.Writable : Locator → Prop
  | .number n => n ≠ 0 ∧ Text.Fits 64 n
  | .fragment _ => True

theorem Locator.Writable.ne_zero {locator : Locator} (h : locator.Writable) :
    locator ≠ .number 0 := by
  rintro rfl
  exact h.1 rfl

instance : (locator : Locator) → Decidable locator.Writable
  | .number _ => inferInstanceAs (Decidable (_ ∧ _))
  | .fragment _ => inferInstanceAs (Decidable True)

def LineRange.locators : LineRange → List Locator
  | .single locator => [locator]
  | .span first last => [first, last]

/-! ## One locator -/

namespace Locator

variable {cs rest : List Char} {locator : Locator}

theorem read_blank {c : Char} (hc : isBlank c) (cs : List Char) : read (c :: cs) = read cs := by
  have htrim : trimStart (c :: cs) = trimStart cs := List.dropWhile_cons_of_pos hc
  unfold read
  rw [htrim]

/-- Behind its sign a number goes as far as its digits. -/
theorem readNumber_append {sign start digits : List Char} {n : Int} (hne : digits ≠ [])
    (hdigits : ∀ d ∈ digits, isDigit d) (hrest : ∀ c ∈ rest.head?, isDigit c = false)
    (hvalue : signed? 64 (sign ++ digits) = some n) (hn : n ≠ 0) :
    readNumber sign start (digits ++ rest) = .ok (.number n, rest) := by
  unfold readNumber
  dsimp only
  rw [takeWhile_append_stop hdigits hrest, dropWhile_append_stop hdigits hrest,
    if_neg (by simpa using hne), hvalue]
  exact if_neg hn

theorem read_fragment (t rest : List Char) :
    read ('\'' :: (escaped '\'' t ++ '\'' :: rest)) = .ok (.fragment (String.ofList t), rest) := by
  have htrim : trimStart ('\'' :: (escaped '\'' t ++ '\'' :: rest)) =
      '\'' :: (escaped '\'' t ++ '\'' :: rest) := rfl
  unfold read
  rw [htrim]
  dsimp only
  rw [if_pos rfl, delimited?_escaped (by decide)]

theorem read_minus (cs : List Char) : read ('-' :: cs) = readNumber ['-'] ('-' :: cs) cs := rfl

theorem read_digit {d : Char} (hd : isDigit d) (cs : List Char) :
    read (d :: cs) = readNumber [] (d :: cs) (d :: cs) := by
  have htrim : trimStart (d :: cs) = d :: cs := trimStart_cons (not_isBlank_of_isDigit hd) cs
  have hquote : d ≠ '\'' := by
    rintro rfl
    exact absurd hd (by decide)
  have hminus : d ≠ '-' := by
    rintro rfl
    exact absurd hd (by decide)
  unfold read
  rw [htrim]
  dsimp only
  rw [if_neg hquote, if_neg hminus, if_pos hd]

/-- A written locator is read, and what follows it is left. -/
theorem read_text_append (h : locator.Writable) (hrest : ∀ c ∈ rest.head?, isDigit c = false) :
    read (locator.text.toList ++ rest) = .ok (locator, rest) := by
  cases locator with
  | fragment t =>
    have hread := read_fragment t.toList rest
    rw [String.ofList_toList] at hread
    rw [← hread]
    simp [text, Text.delimit]
  | number n =>
    obtain ⟨hn, hfits⟩ := h
    have hvalue : signed? 64 (toString n).toList = some n := signed?_toString hfits
    have htext : (number n).text.toList = _ := toList_toString n
    rw [toList_toString] at hvalue
    rw [htext]
    by_cases hnegative : n < 0
    · rw [if_pos hnegative] at hvalue ⊢
      exact (read_minus _).trans
        (readNumber_append Nat.toDigits_ne_nil isDigit_of_mem_toDigits hrest hvalue hn)
    · rw [if_neg hnegative, List.nil_append] at hvalue ⊢
      have hdigits := isDigit_of_mem_toDigits (n := n.natAbs)
      obtain ⟨d, ds, hds⟩ :=
        List.exists_cons_of_ne_nil (Nat.toDigits_ne_nil (n := n.natAbs) (b := 10))
      rw [hds] at hvalue hdigits ⊢
      rw [List.cons_append, read_digit (hdigits d List.mem_cons_self), ← List.cons_append]
      exact readNumber_append (List.cons_ne_nil _ _) hdigits hrest hvalue hn

theorem writable_of_readNumber {sign start : List Char}
    (h : readNumber sign start cs = .ok (locator, rest)) : locator.Writable := by
  unfold readNumber at h
  dsimp only at h
  split at h
  · cases h
  · split at h
    · cases h
    · next n hvalue =>
      split at h
      · cases h
      · next hn =>
        cases h
        exact ⟨hn, fits_of_signed? hvalue⟩

theorem writable_of_read (h : read cs = .ok (locator, rest)) : locator.Writable := by
  unfold read at h
  split at h
  · cases h
  · split at h
    · split at h
      · cases h
      · cases h
        exact trivial
    · split at h
      · exact writable_of_readNumber h
      · split at h
        · exact writable_of_readNumber h
        · cases h

end Locator

/-! ## One range -/

namespace LineRange

variable {cs rest : List Char} {range : LineRange}

theorem read_blank {c : Char} (hc : isBlank c) (cs : List Char) : read (c :: cs) = read cs := by
  unfold read
  rw [Locator.read_blank hc]

/-- A written range is read, if it is the last one or a comma follows. -/
theorem read_text_append (h : ∀ l ∈ range.locators, l.Writable)
    (hrest : ∀ c ∈ rest.head?, c = ',') :
    read (range.text.toList ++ rest) = .ok (range, rest) := by
  have hdigit : ∀ c ∈ rest.head?, isDigit c = false := by
    intro c hc
    rw [hrest c hc]
    rfl
  cases range with
  | single locator =>
    have hdots : afterWord? ['.', '.'] (trimStart rest) = none := by
      cases rest with
      | nil => rfl
      | cons c rest =>
        obtain rfl := hrest c rfl
        rfl
    have hread := Locator.read_text_append (h locator List.mem_cons_self) hdigit
    unfold read
    dsimp only [text]
    rw [hread]
    dsimp only
    rw [hdots]
  | span first last =>
    obtain ⟨hfirst, hlast⟩ := List.forall_mem_cons.mp h
    have hdots : ∀ c ∈ ('.' :: '.' :: (last.text.toList ++ rest)).head?, isDigit c = false := by
      rintro _ ⟨⟩
      rfl
    have hread := Locator.read_text_append hfirst hdots
    have hread' := Locator.read_text_append (hlast last List.mem_cons_self) hdigit
    have htext : (span first last).text.toList ++ rest =
        first.text.toList ++ '.' :: '.' :: (last.text.toList ++ rest) := by
      simp [text]
    have hafter : afterWord? ['.', '.'] (trimStart ('.' :: '.' :: (last.text.toList ++ rest))) =
        some (last.text.toList ++ rest) := afterWord?_eq_some_iff.mpr rfl
    unfold read
    rw [htext, hread]
    dsimp only
    rw [hafter]
    dsimp only
    rw [hread']

theorem writable_of_read (h : read cs = .ok (range, rest)) : ∀ l ∈ range.locators, l.Writable := by
  unfold read at h
  split at h
  · cases h
  · next first mid hread =>
    have hfirst := Locator.writable_of_read hread
    split at h
    · cases h
      exact List.forall_mem_singleton.mpr hfirst
    · split at h
      · cases h
      · next last tail hread' =>
        have hlast := Locator.writable_of_read hread'
        cases h
        exact List.forall_mem_cons.mpr ⟨hfirst, List.forall_mem_singleton.mpr hlast⟩

end LineRange

/-! ## Lists of ranges -/

theorem toList_commas {α : Type} (text : α → String) (x y : α) (more : List α) :
    (", ".intercalate ((x :: y :: more).map text)).toList =
      (text x).toList ++ ',' :: ' ' :: (", ".intercalate ((y :: more).map text)).toList := by
  rw [List.map_cons, List.map_cons, String.intercalate_cons_cons, String.toList_append,
    String.toList_append, List.append_assoc]
  rfl

namespace LineSet

variable {cs rest : List Char} {range : LineRange} {set : LineSet}

/-- What is read behind the first range. -/
theorem readItems_of_read (hread : LineRange.read cs = .ok (range, rest)) :
    readItems cs = match trimStart rest with
      | [] => .ok [range]
      | c :: more =>
        if c = ',' then readItems more >>= fun ranges => .ok (range :: ranges)
        else .error ⟨.expectedCommaOrRange, c :: more⟩ := by
  rw [readItems.eq_def]
  split
  · next h =>
    rw [hread] at h
    cases h
  · next h =>
    rw [hread] at h
    cases h
    split
    · next hrest => rw [hrest]
    · next hrest =>
      -- The bound on the rest of the text mentions it, so nothing is rewritten under it.
      dsimp only
      rw [hrest]

/-- A written set is read, also behind a blank, since the first range is read as if none were there. -/
theorem readItems_text (hne : set ≠ []) (h : ∀ l ∈ set.flatMap LineRange.locators, l.Writable)
    (hcs : LineRange.read cs = LineRange.read set.text.toList) : readItems cs = .ok set := by
  induction set generalizing cs with
  | nil => exact absurd rfl hne
  | cons range set ih =>
    rw [List.flatMap_cons, List.forall_mem_append] at h
    obtain ⟨hrange, hset⟩ := h
    cases set with
    | nil =>
      have hread : LineRange.read (range.text.toList ++ []) = .ok (range, []) :=
        LineRange.read_text_append hrange (by rintro _ ⟨⟩)
      rw [List.append_nil] at hread
      have htext : text [range] = range.text := String.intercalate_singleton
      rw [htext, hread] at hcs
      exact readItems_of_read hcs
    | cons range' set =>
      let others := ',' :: ' ' :: (text (range' :: set)).toList
      have htext : (text (range :: range' :: set)).toList = range.text.toList ++ others :=
        toList_commas _ _ _ _
      have hread : LineRange.read (range.text.toList ++ others) = .ok (range, others) := by
        refine LineRange.read_text_append hrange ?_
        rintro _ ⟨⟩
        rfl
      rw [htext, hread] at hcs
      have hmore : readItems (' ' :: (text (range' :: set)).toList) = .ok (range' :: set) :=
        ih (List.cons_ne_nil _ _) hset (LineRange.read_blank rfl _)
      have hitems : readItems cs = readItems (' ' :: (text (range' :: set)).toList) >>=
          fun ranges => .ok (range :: ranges) := readItems_of_read hcs
      rw [hitems, hmore]
      rfl

theorem trimStart_ne_nil_of_readItems (h : readItems cs = .ok set) : trimStart cs ≠ [] := by
  intro hblank
  have hread : LineRange.read cs = .error ⟨.expectedLocator, []⟩ := by
    unfold LineRange.read Locator.read
    rw [hblank]
  rw [readItems.eq_def] at h
  split at h
  · cases h
  · next hok =>
    rw [hread] at hok
    cases hok

theorem parse_of_writable (key : String) (h : ∀ l ∈ set.flatMap LineRange.locators, l.Writable) :
    parse key set.text = .ok set := by
  by_cases hne : set = []
  · subst hne
    rfl
  · have hitems := readItems_text hne h rfl
    have hblank := trimStart_ne_nil_of_readItems hitems
    unfold parse
    dsimp only
    rw [if_neg (by simpa using hblank), hitems]

theorem writable_of_readItems (h : readItems cs = .ok set) :
    ∀ l ∈ set.flatMap LineRange.locators, l.Writable := by
  fun_induction readItems cs generalizing set with
  | case1 => cases h
  | case2 cs range rest hread hrest =>
    cases h
    simpa using LineRange.writable_of_read hread
  | case3 cs range rest hread more hrest hlt ih =>
    obtain ⟨ranges, hranges, h⟩ := bind_eq_ok.mp h
    cases h
    rw [List.flatMap_cons]
    exact List.forall_mem_append.mpr ⟨LineRange.writable_of_read hread, ih hranges⟩
  | case4 => cases h

theorem writable_of_parse {key written : String} (h : parse key written = .ok set) :
    ∀ l ∈ set.flatMap LineRange.locators, l.Writable := by
  unfold parse at h
  dsimp only at h
  split at h
  · cases h
    simp
  · split at h
    · next hitems =>
      cases h
      exact writable_of_readItems hitems
    · cases h

end LineSet

/-! ## Lists of insertion points -/

namespace InsertionPoint

variable {cs afterSide rest : List Char} {side : Side} {locator : Locator}
  {points : List InsertionPoint}

/-- The written form of several points. -/
def listText (points : List InsertionPoint) : String := ", ".intercalate (points.map text)

theorem readSide?_text (point : InsertionPoint) (rest : List Char) :
    readSide? (point.text.toList ++ rest) = some (point.side, point.locator.text.toList ++ rest) := by
  obtain ⟨side, locator⟩ := point
  unfold readSide? text
  rw [String.toList_append, List.append_assoc]
  cases side with
  | before =>
    have hbefore : afterWord? "before:".toList ("before:".toList ++ (locator.text.toList ++ rest)) =
        some (locator.text.toList ++ rest) := afterWord?_eq_some_iff.mpr rfl
    dsimp only
    rw [hbefore]
  | after =>
    have hbefore : afterWord? "before:".toList ("after:".toList ++ (locator.text.toList ++ rest)) =
        none := rfl
    have hafter : afterWord? "after:".toList ("after:".toList ++ (locator.text.toList ++ rest)) =
        some (locator.text.toList ++ rest) := afterWord?_eq_some_iff.mpr rfl
    dsimp only
    rw [hbefore, hafter]
    rfl

/-- What is read behind the first point. -/
theorem readItems_of_read (hside : readSide? (trimStart cs) = some (side, afterSide))
    (hread : Locator.read afterSide = .ok (locator, rest)) :
    readItems cs = match trimStart rest with
      | [] => .ok [⟨side, locator⟩]
      | c :: more =>
        if c = ',' then readItems more >>= fun points => .ok (⟨side, locator⟩ :: points)
        else .error ⟨.expectedComma, c :: more⟩ := by
  rw [readItems.eq_def]
  split
  · next h =>
    rw [hside] at h
    cases h
  · next h =>
    rw [hside] at h
    cases h
    split
    · next h =>
      rw [hread] at h
      cases h
    · next h =>
      rw [hread] at h
      cases h
      split
      · next hrest => rw [hrest]
      · next hrest =>
        dsimp only
        rw [hrest]

/-- Written points do not start with a blank. -/
theorem trimStart_listText (hne : points ≠ []) :
    trimStart (listText points).toList = (listText points).toList := by
  have hstart : ∀ (point : InsertionPoint) (rest : List Char),
      trimStart (point.text.toList ++ rest) = point.text.toList ++ rest := by
    rintro ⟨side, locator⟩ rest
    unfold text
    rw [String.toList_append, List.append_assoc]
    cases side with
    | before =>
      have hword : "before:".toList = 'b' :: "efore:".toList := rfl
      dsimp only
      rw [hword]
      exact trimStart_cons rfl _
    | after =>
      have hword : "after:".toList = 'a' :: "fter:".toList := rfl
      dsimp only
      rw [hword]
      exact trimStart_cons rfl _
  obtain ⟨point, points, rfl⟩ := List.exists_cons_of_ne_nil hne
  cases points with
  | nil =>
    have htext := hstart point []
    rw [List.append_nil] at htext
    exact htext
  | cons point' points =>
    unfold listText
    rw [toList_commas]
    exact hstart point _

/-- Written points are read, also behind a blank. -/
theorem readItems_listText (hne : points ≠ []) (h : ∀ p ∈ points, p.locator.Writable)
    (hcs : trimStart cs = (listText points).toList) : readItems cs = .ok points := by
  induction points generalizing cs with
  | nil => exact absurd rfl hne
  | cons point points ih =>
    obtain ⟨hpoint, hpoints⟩ := List.forall_mem_cons.mp h
    cases points with
    | nil =>
      have htext : listText [point] = point.text := String.intercalate_singleton
      have hside := readSide?_text point []
      have hread : Locator.read (point.locator.text.toList ++ []) = .ok (point.locator, []) :=
        Locator.read_text_append hpoint (by rintro _ ⟨⟩)
      rw [List.append_nil, ← htext, ← hcs] at hside
      exact readItems_of_read hside hread
    | cons point' points =>
      let others := ',' :: ' ' :: (listText (point' :: points)).toList
      have htext : (listText (point :: point' :: points)).toList = point.text.toList ++ others :=
        toList_commas _ _ _ _
      have hside := readSide?_text point others
      have hread : Locator.read (point.locator.text.toList ++ others) =
          .ok (point.locator, others) := by
        refine Locator.read_text_append hpoint ?_
        rintro _ ⟨⟩
        rfl
      rw [← htext, ← hcs] at hside
      have hmore : readItems (' ' :: (listText (point' :: points)).toList) = .ok (point' :: points) :=
        ih (List.cons_ne_nil _ _) hpoints (trimStart_listText (List.cons_ne_nil _ _))
      have hitems : readItems cs = readItems (' ' :: (listText (point' :: points)).toList) >>=
          fun others => .ok (point :: others) := readItems_of_read hside hread
      rw [hitems, hmore]
      rfl

theorem parseList_of_writable (key : String) (hne : points ≠ [])
    (h : ∀ p ∈ points, p.locator.Writable) : parseList key (listText points) = .ok points := by
  have hitems := readItems_listText hne h (trimStart_listText hne)
  unfold parseList
  rw [hitems]

theorem writable_of_readItems (h : readItems cs = .ok points) :
    ∀ p ∈ points, p.locator.Writable := by
  fun_induction readItems cs generalizing points with
  | case1 => cases h
  | case2 => cases h
  | case3 cs side afterSide hside locator rest hread hrest =>
    cases h
    simpa using Locator.writable_of_read hread
  | case4 cs side afterSide hside locator rest hread more hrest hlt ih =>
    obtain ⟨others, hothers, h⟩ := bind_eq_ok.mp h
    cases h
    exact List.forall_mem_cons.mpr ⟨Locator.writable_of_read hread, ih hothers⟩
  | case5 => cases h

theorem ne_nil_of_readItems (h : readItems cs = .ok points) : points ≠ [] := by
  rintro rfl
  rw [readItems.eq_def] at h
  split at h
  · cases h
  · split at h
    · cases h
    · split at h
      · cases h
      · split at h
        · obtain ⟨others, -, h⟩ := bind_eq_ok.mp h
          cases h
        · cases h

theorem writable_of_parseList {key written : String} (h : parseList key written = .ok points) :
    points ≠ [] ∧ ∀ p ∈ points, p.locator.Writable := by
  unfold parseList at h
  split at h
  · next hitems =>
    cases h
    exact ⟨ne_nil_of_readItems hitems, writable_of_readItems hitems⟩
  · cases h

end InsertionPoint

/-! ## Reading back -/

/-- A fragment has a backslash in front of every backslash, and then one in front of every mark. -/
theorem Text.escaped_eq_replaceChar {mark : Char} (hmark : mark ≠ '\\') (cs : List Char) :
    escaped mark cs = replaceChar mark ['\\', mark] (replaceChar '\\' ['\\', '\\'] cs) := by
  induction cs with
  | nil => rfl
  | cons c cs ih =>
    unfold replaceChar at ih ⊢
    rw [escaped, List.flatMap_cons, List.flatMap_append, ← ih]
    by_cases hc : c = '\\'
    · simp [hc, hmark.symm]
    · by_cases hm : c = mark
      · simp [hm, hmark]
      · simp [hc, hm]

namespace Locator

/-- **Locators are read as they are written.** Every set of lines is read back from its written form, also
the empty one, and so is every list of insertion points but the empty one, if its numbers are not zero
and fit 64 bits. Fragments may hold quotes, backslashes, commas and dots. Nothing else is ever read, so
what is read from any text is printed as a text that is read as the same. -/
theorem read_back (key : String) :
    (∀ set : LineSet, (∀ l ∈ set.flatMap LineRange.locators, l.Writable) →
      LineSet.parse key set.text = .ok set) ∧
    (∀ points : List InsertionPoint, points ≠ [] → (∀ p ∈ points, p.locator.Writable) →
      InsertionPoint.parseList key (InsertionPoint.listText points) = .ok points) ∧
    (∀ key' written set, LineSet.parse key' written = .ok set →
      LineSet.parse key set.text = .ok set) ∧
    (∀ key' written points, InsertionPoint.parseList key' written = .ok points →
      InsertionPoint.parseList key (InsertionPoint.listText points) = .ok points) ∧
    ∀ t : String, (fragment t).text.toList = '\'' :: Text.replaceChar '\'' ['\\', '\'']
      (Text.replaceChar '\\' ['\\', '\\'] t.toList) ++ ['\''] := by
  refine ⟨fun set => LineSet.parse_of_writable key,
    fun points => InsertionPoint.parseList_of_writable key, fun key' written set h => ?_,
    fun key' written points h => ?_, fun t => ?_⟩
  · exact LineSet.parse_of_writable key (LineSet.writable_of_parse h)
  · obtain ⟨hne, hwritable⟩ := InsertionPoint.writable_of_parseList h
    exact InsertionPoint.parseList_of_writable key hne hwritable
  · rw [← Text.escaped_eq_replaceChar (by decide)]
    exact String.toList_ofList

/-- The least number, and fragments with everything in them that also stands between locators. -/
def punctuated : LineSet :=
  [.span (.number (-9223372036854775808)) (.fragment "it's 1..2, \\"), .single (.fragment "")]

theorem read_back_punctuated :
    punctuated.text = "-9223372036854775808..'it\\'s 1..2, \\\\', ''" ∧
      LineSet.parse "ignoreLines" punctuated.text = .ok punctuated ∧
      InsertionPoint.parseList "at" "before:'it\\'s', after:-1" =
        .ok [⟨.before, .fragment "it's"⟩, ⟨.after, .number (-1)⟩] := by
  have hpoints : InsertionPoint.listText
      [⟨.before, .fragment "it's"⟩, ⟨.after, .number (-1)⟩] = "before:'it\\'s', after:-1" := by
    decide +kernel
  refine ⟨by decide +kernel, (read_back _).1 punctuated (by decide), ?_⟩
  rw [← hpoints]
  exact (read_back _).2.1 _ (List.cons_ne_nil _ _) (by decide)

end Locator

end Doctest
