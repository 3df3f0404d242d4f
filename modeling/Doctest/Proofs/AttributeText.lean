import Doctest.Proofs.EntityForms
import Doctest.Proofs.LocatorText

/-!
# The small formats are read as they are written

A reader of these formats cuts its text at the first separator and trims the parts. So separators may
stand in the last part, and one value can have many texts. Which values there are is said here without
any text.

* `ReadsBack`: a reader yields the readable values and no others, each of them from its written form.
* `SequenceNumber.Readable`, `ExitStatus.Readable`, `StreamContent.Readable`, `External.Readable`: the
  values that have a text. IDs and file names are trimmed and not empty.
* `parse_of_readable`, `parseList_of_readable`: what is written is read.
* `readable_of_parse`, `readable_of_parseList`: nothing else is ever read.
* `attributes_read_back`: all of this together.
-/

namespace Doctest

open Text (isBlank isDigit trim Trimmed trim_of_trimmed trimmed_trim trim_cons_blank trimmed_of_forall
  mem_of_mem_trim splitFirst? splitFirst?_eq_some_iff splitAll
  splitAll_of_not_mem splitAll_append_cons not_mem_of_mem_splitAll natural?_toDigits lt_of_natural?
  isDigit_of_mem_toDigits toList_toString signed?_toString fits_of_signed?)

/-- The reader yields the readable values and no others, each of them from its written form. -/
def ReadsBack {α : Type} (parse : String → Except Fault α) (text : α → String)
    (Readable : α → Prop) : Prop :=
  (∀ a, (∃ t, parse t = .ok a) ↔ Readable a) ∧ ∀ a, Readable a → parse (text a) = .ok a

theorem readsBack_of {α : Type} {parse : String → Except Fault α} {text : α → String}
    {Readable : α → Prop} (hparse : ∀ t a, parse t = .ok a → Readable a)
    (htext : ∀ a, Readable a → parse (text a) = .ok a) : ReadsBack parse text Readable := by
  refine ⟨fun a => ⟨?_, fun h => ⟨text a, htext a h⟩⟩, htext⟩
  intro ⟨t, ht⟩
  exact hparse t a ht

/-- An ID or a file name as the readers leave it. -/
def IsName (t : String) : Prop := t ≠ "" ∧ Trimmed t.toList

theorem isName_ofList_trim {cs : List Char} (h : (trim cs).isEmpty = false) :
    IsName (String.ofList (trim cs)) := by
  constructor
  · intro hempty
    have hnil : trim cs = [] := by
      rw [← String.toList_ofList (l := trim cs), hempty]
      rfl
    rw [hnil] at h
    cases h
  · rw [String.toList_ofList]
    exact trimmed_trim cs

theorem IsName.toList_ne_nil {t : String} (h : IsName t) : t.toList ≠ [] :=
  fun hnil => h.1 (String.toList_eq_nil_iff.mp hnil)

theorem trimmed_toDigits (n : Nat) : Trimmed (Nat.toDigits 10 n) :=
  trimmed_of_forall fun _ hc => not_isBlank_of_isDigit (isDigit_of_mem_toDigits _ hc)

/-! ## Positions in a sequence -/

namespace SequenceNumber

variable {n : SequenceNumber}

/-- Positions count from one, and the total fits 64 bits. -/
def Readable (n : SequenceNumber) : Prop :=
  1 ≤ n.position ∧ n.position ≤ n.total ∧ n.total < Nat.pow 2 64

theorem toList_text (n : SequenceNumber) :
    n.text.toList = Nat.toDigits 10 n.position ++ '/' :: Nat.toDigits 10 n.total := by
  have htext : n.text = toString n.position ++ "/" ++ toString n.total := rfl
  simp [htext]

theorem parse_of_readable (h : n.Readable) : parse n.text = .ok n := by
  obtain ⟨position, total⟩ := n
  obtain ⟨hfirst, hlast, hfits⟩ := h
  dsimp only at hfirst hlast hfits
  have hslash : '/' ∉ Nat.toDigits 10 position := fun hmem =>
    absurd (isDigit_of_mem_toDigits _ hmem) (by decide)
  have htrimmed : Trimmed (Nat.toDigits 10 position ++ '/' :: Nat.toDigits 10 total) :=
    (trimmed_toDigits position).append_cons (by decide) (trimmed_toDigits total)
  have hsplit : splitFirst? '/' (trim (text ⟨position, total⟩).toList) =
      some (Nat.toDigits 10 position, Nat.toDigits 10 total) := by
    rw [toList_text, trim_of_trimmed htrimmed]
    exact splitFirst?_eq_some_iff.mpr ⟨hslash, rfl⟩
  have hposition : Text.natural? (trim (Nat.toDigits 10 position)) = some position := by
    rw [trim_of_trimmed (trimmed_toDigits position)]
    exact natural?_toDigits (Nat.lt_of_le_of_lt hlast hfits)
  have htotal : Text.natural? (trim (Nat.toDigits 10 total)) = some total := by
    rw [trim_of_trimmed (trimmed_toDigits total)]
    exact natural?_toDigits hfits
  have hbounds : ¬ (position = 0 || decide (position > total)) = true := by
    simp only [Bool.or_eq_true, decide_eq_true_eq]
    omega
  unfold parse
  simp only [hsplit, hposition, htotal, Option.bind_eq_bind, Option.bind_some]
  exact if_neg hbounds

theorem readable_of_parse {t : String} (h : parse t = .ok n) : n.Readable := by
  obtain ⟨hfirst, hlast⟩ := bounds_of_parse h
  refine ⟨hfirst, hlast, ?_⟩
  unfold parse at h
  dsimp only at h
  split at h
  · cases h
  · next position total hnumbers =>
    obtain ⟨⟨before, after⟩, -, hnumbers⟩ := Option.bind_eq_some_iff.mp hnumbers
    obtain ⟨position', -, hnumbers⟩ := Option.bind_eq_some_iff.mp hnumbers
    obtain ⟨total', htotal, hnumbers⟩ := Option.bind_eq_some_iff.mp hnumbers
    cases hnumbers
    split at h
    · cases h
    · cases h
      exact lt_of_natural? htotal

end SequenceNumber

/-! ## Expected exit statuses -/

namespace ExitStatus

variable {status : ExitStatus}

/-- A code is a signed number of 32 bits. -/
def Readable : ExitStatus → Prop
  | .code n => Text.Fits 32 n
  | .nonzero => True

/-- A written number has no letters, so it is not the word `nonzero`. -/
theorem trimmed_toString (n : Int) :
    Trimmed (toString n).toList ∧ (toString n).toList ≠ "nonzero".toList := by
  have hchars : ∀ c ∈ (toString n).toList, c = '-' ∨ isDigit c := by
    intro c hc
    rw [toList_toString, List.mem_append] at hc
    rcases hc with hsign | hdigit
    · split at hsign
      · exact .inl (List.mem_singleton.mp hsign)
      · cases hsign
    · exact .inr (isDigit_of_mem_toDigits c hdigit)
  constructor
  · refine trimmed_of_forall fun c hc => ?_
    rcases hchars c hc with rfl | hdigit
    · decide
    · exact not_isBlank_of_isDigit hdigit
  · intro hword
    rw [hword] at hchars
    exact absurd (hchars 'z' (by decide)) (by decide)

theorem parse_of_readable (h : status.Readable) : parse status.text = .ok status := by
  cases status with
  | nonzero => rfl
  | code n =>
    obtain ⟨htrimmed, hword⟩ := trimmed_toString n
    unfold parse
    dsimp only [text]
    rw [trim_of_trimmed htrimmed, if_neg hword, signed?_toString h]

theorem readable_of_parse {t : String} (h : parse t = .ok status) : status.Readable := by
  unfold parse at h
  dsimp only at h
  split at h
  · cases h
    exact trivial
  · split at h
    · next n hn =>
      cases h
      exact fits_of_signed? hn
    · cases h

end ExitStatus

/-! ## Expected output -/

namespace StreamContent

variable {content : StreamContent}

/-- The IDs are trimmed and not empty. The first `=` ends the ID of the line mod, and without such an
ID nothing may look like its start. -/
def Readable (content : StreamContent) : Prop :=
  IsName content.snippetId ∧
    match content.lineModId with
    | none => content.snippetId.toList.head? ≠ some '|'
    | some id => IsName id ∧ '=' ∉ id.toList

theorem parse_of_readable (key : String) (h : content.Readable) :
    parse key content.text = .ok content := by
  obtain ⟨lineModId, snippetId⟩ := content
  obtain ⟨hsnippet, hlineMod⟩ := h
  have hsome := hsnippet.toList_ne_nil
  cases lineModId with
  | none =>
    dsimp only at hlineMod hsnippet
    unfold parse
    dsimp only [text]
    rw [trim_of_trimmed hsnippet.2]
    split
    · next rest hbar =>
      rw [hbar] at hlineMod
      exact absurd rfl hlineMod
    · simp [hsome]
  | some id =>
    obtain ⟨hid, hequals⟩ := hlineMod
    dsimp only at hsnippet
    have htext : (text ⟨some id, snippetId⟩).toList =
        '|' :: (id.toList ++ '=' :: snippetId.toList) := by
      have htext : text ⟨some id, snippetId⟩ = "|" ++ id ++ "=" ++ snippetId := rfl
      simp [htext]
    have htrimmed : Trimmed ('|' :: (id.toList ++ '=' :: snippetId.toList)) :=
      Text.trimmed_nil.append_cons (by decide) (hid.2.append_cons (by decide) hsnippet.2)
    have hsplit : splitFirst? '=' (id.toList ++ '=' :: snippetId.toList) =
        some (id.toList, snippetId.toList) := splitFirst?_eq_some_iff.mpr ⟨hequals, rfl⟩
    unfold parse
    dsimp only
    rw [htext, trim_of_trimmed htrimmed]
    split
    · next rest hbar =>
      obtain rfl := (List.cons.inj hbar).2
      rw [hsplit]
      dsimp only
      rw [trim_of_trimmed hid.2, trim_of_trimmed hsnippet.2]
      simp [hsome, hid.toList_ne_nil]
    · next hbar => exact absurd rfl (hbar _)

theorem readable_of_parse {key t : String} (h : parse key t = .ok content) : content.Readable := by
  unfold parse at h
  dsimp only at h
  split at h
  · next rest hbar =>
    split at h
    · next before after hsplit =>
      split at h
      · cases h
      · next hempty =>
        cases h
        simp only [Bool.or_eq_true, not_or, Bool.not_eq_true, Option.any_some] at hempty
        refine ⟨isName_ofList_trim hempty.1, isName_ofList_trim hempty.2, fun hmem => ?_⟩
        rw [String.toList_ofList] at hmem
        exact (splitFirst?_eq_some_iff.mp hsplit).1 (mem_of_mem_trim hmem)
    · cases h
  · next hbar =>
    split at h
    · cases h
    · next hempty =>
      cases h
      simp only [Bool.or_eq_true, not_or, Bool.not_eq_true] at hempty
      refine ⟨isName_ofList_trim hempty.1, ?_⟩
      dsimp only [Option.map_none]
      rw [String.toList_ofList]
      intro hhead
      obtain ⟨rest, hrest⟩ := List.head?_eq_some_iff.mp hhead
      exact hbar rest hrest

end StreamContent

/-! ## External files -/

namespace External

variable {localLines : Bool} {external : External} {externals : List External}

/-- The first `>` ends the snippet's ID, and every `,` ends an item. -/
def Readable (localLines : Bool) (external : External) : Prop :=
  external.localLines = localLines ∧ IsName external.fileName ∧ ',' ∉ external.fileName.toList ∧
    ∀ id, external.id = some id → IsName id ∧ ',' ∉ id.toList ∧ '>' ∉ id.toList

/-- The written form of several external files. -/
def listText (externals : List External) : String := ", ".intercalate (externals.map text)

theorem toList_text (external : External) :
    external.text.toList = (external.id.getD "").toList ++ '>' :: external.fileName.toList := by
  simp [text]

theorem Readable.idText (h : external.Readable localLines) :
    Trimmed (external.id.getD "").toList ∧ ',' ∉ (external.id.getD "").toList ∧
      '>' ∉ (external.id.getD "").toList := by
  cases hid : external.id with
  | none => exact ⟨Text.trimmed_nil, List.not_mem_nil, List.not_mem_nil⟩
  | some id =>
    obtain ⟨hname, hcomma, hangle⟩ := h.2.2.2 id hid
    exact ⟨hname.2, hcomma, hangle⟩

/-- A written item is trimmed, not empty and has no comma, so it stays in one piece. -/
theorem Readable.trimmed_text (h : external.Readable localLines) :
    Trimmed external.text.toList ∧ ',' ∉ external.text.toList := by
  obtain ⟨htrimmed, hcomma, -⟩ := h.idText
  rw [toList_text]
  refine ⟨htrimmed.append_cons (by decide) h.2.1.2, ?_⟩
  rw [List.mem_append, List.mem_cons, not_or, not_or]
  exact ⟨hcomma, by decide, h.2.2.1⟩

theorem parseItem_text (key : String) (h : external.Readable localLines) :
    parseItem key localLines external.text.toList = .ok external := by
  obtain ⟨htrimmed, -, hangle⟩ := h.idText
  obtain ⟨id, fileName, localLines'⟩ := external
  obtain ⟨hlocal, hfile, -, hid⟩ := h
  dsimp only at hlocal hfile hid htrimmed hangle
  have hsplit : splitFirst? '>' (text ⟨id, fileName, localLines'⟩).toList =
      some ((id.getD "").toList, fileName.toList) := by
    rw [toList_text]
    exact splitFirst?_eq_some_iff.mpr ⟨hangle, rfl⟩
  unfold parseItem
  rw [hsplit]
  dsimp only
  rw [trim_of_trimmed htrimmed, trim_of_trimmed hfile.2,
    if_neg (by simpa using hfile.toList_ne_nil), hlocal]
  cases id with
  | none => simp
  | some id => simp [(hid id rfl).1.toList_ne_nil]

theorem readable_of_parseItem {key : String} {item : List Char} (hcomma : ',' ∉ item)
    (h : parseItem key localLines item = .ok external) : external.Readable localLines := by
  unfold parseItem at h
  split at h
  · cases h
  · next before after hsplit =>
    obtain ⟨hangle, rfl⟩ := splitFirst?_eq_some_iff.mp hsplit
    rw [List.mem_append, List.mem_cons, not_or, not_or] at hcomma
    dsimp only at h
    split at h
    · cases h
    · next hfile =>
      cases h
      refine ⟨rfl, isName_ofList_trim (Bool.eq_false_iff.mpr hfile), ?_, fun id hid => ?_⟩
      · rw [String.toList_ofList]
        exact fun hmem => hcomma.2.2 (mem_of_mem_trim hmem)
      · dsimp only at hid
        split at hid
        · cases hid
        · next hsome =>
          cases hid
          refine ⟨isName_ofList_trim (Bool.eq_false_iff.mpr hsome), ?_, ?_⟩
          · rw [String.toList_ofList]
            exact fun hmem => hcomma.1 (mem_of_mem_trim hmem)
          · rw [String.toList_ofList]
            exact fun hmem => hangle (mem_of_mem_trim hmem)

/-- A blank behind a comma is trimmed away with its item. -/
theorem map_trim_splitAll_cons {sep c : Char} (hsep : c ≠ sep) (hc : isBlank c) (cs : List Char) :
    (splitAll sep (c :: cs)).map trim = (splitAll sep cs).map trim := by
  rw [splitAll, if_neg hsep]
  split
  · next hnil => exact absurd hnil (Text.splitAll_ne_nil sep cs)
  · next part parts hparts =>
    rw [hparts, List.map_cons, List.map_cons, trim_cons_blank hc]

theorem map_trim_splitAll_listText (h : ∀ e ∈ externals, Readable localLines e)
    (hne : externals ≠ []) :
    (splitAll ',' (listText externals).toList).map trim = externals.map (·.text.toList) := by
  induction externals with
  | nil => exact absurd rfl hne
  | cons external externals ih =>
    obtain ⟨hexternal, hexternals⟩ := List.forall_mem_cons.mp h
    obtain ⟨htrimmed, hcomma⟩ := hexternal.trimmed_text
    cases externals with
    | nil =>
      have htext : listText [external] = external.text := String.intercalate_singleton
      rw [htext, splitAll_of_not_mem hcomma, List.map_singleton, trim_of_trimmed htrimmed]
      rfl
    | cons next more =>
      have htext : (listText (external :: next :: more)).toList = _ :=
        toList_commas text external next more
      rw [htext, splitAll_append_cons hcomma, List.map_cons, trim_of_trimmed htrimmed,
        map_trim_splitAll_cons (by decide) (by decide)]
      exact congrArg _ (ih hexternals (List.cons_ne_nil _ _))

theorem items_listText (h : ∀ e ∈ externals, Readable localLines e) :
    items (listText externals) = externals.map (·.text.toList) := by
  by_cases hne : externals = []
  · subst hne
    rfl
  · unfold items
    rw [map_trim_splitAll_listText h hne, List.filter_eq_self]
    intro item hitem
    obtain ⟨external, -, rfl⟩ := List.mem_map.mp hitem
    rw [toList_text]
    simp

theorem parseList_of_readable (key : String) (h : ∀ e ∈ externals, Readable localLines e) :
    parseList key (listText externals) localLines = .ok externals := by
  unfold parseList
  rw [items_listText h]
  have hitems : (externals.map (·.text.toList)).mapM (parseItem key localLines) =
      externals.mapM fun external => (pure external : Except Fault External) :=
    mapM_map_eq fun external hexternal => parseItem_text key (h external hexternal)
  rw [hitems, List.mapM_pure, List.map_id']
  rfl

theorem not_mem_of_mem_items {t : String} {item : List Char} (h : item ∈ items t) : ',' ∉ item := by
  obtain ⟨part, hpart, rfl⟩ := List.mem_map.mp (List.mem_filter.mp h).1
  exact fun hmem => not_mem_of_mem_splitAll hpart (mem_of_mem_trim hmem)

theorem readable_of_parseList {key t : String} (h : parseList key t localLines = .ok externals) :
    ∀ e ∈ externals, Readable localLines e := by
  have : Inhabited External := ⟨⟨none, "", localLines⟩⟩
  obtain ⟨read, hread, rfl⟩ := mapM_eq_ok.mp h
  intro external hexternal
  obtain ⟨item, hitem, rfl⟩ := List.mem_map.mp hexternal
  exact readable_of_parseItem (not_mem_of_mem_items hitem) (hread item hitem)

end External

/-- **Each of the four formats reads back what it writes, and reads nothing else.** -/
theorem attributes_read_back :
    ReadsBack SequenceNumber.parse SequenceNumber.text SequenceNumber.Readable ∧
      ReadsBack ExitStatus.parse ExitStatus.text ExitStatus.Readable ∧
      (∀ key, ReadsBack (StreamContent.parse key) StreamContent.text StreamContent.Readable) ∧
      ∀ key localLines, ReadsBack (External.parseList key · localLines) External.listText
        fun externals => ∀ e ∈ externals, External.Readable localLines e :=
  ⟨readsBack_of (fun _ _ => SequenceNumber.readable_of_parse) fun _ =>
      SequenceNumber.parse_of_readable,
    readsBack_of (fun _ _ => ExitStatus.readable_of_parse) fun _ => ExitStatus.parse_of_readable,
    fun key => readsBack_of (fun _ _ => StreamContent.readable_of_parse) fun _ =>
      StreamContent.parse_of_readable key,
    fun key _ => readsBack_of (fun _ _ => External.readable_of_parseList) fun _ =>
      External.parseList_of_readable key⟩

/-- The first `>` of an item counts, and nothing else but commas ends it. -/
example : External.parseList "external" "a=b|c>x>y>z.txt, >=|>.txt" false =
    .ok [⟨some "a=b|c", "x>y>z.txt", false⟩, ⟨none, "=|>.txt", false⟩] := by
  decide +kernel

end Doctest
