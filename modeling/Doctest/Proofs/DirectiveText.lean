import Doctest.Proofs.HeaderGrammar

/-!
# Directives as text

A directive can be written in many ways: its attributes in any order, with any blanks between them.
`Directive.Layout` is one of them, and `Directive.parse_text` says that reading its text gives back
the directive.
-/

namespace Doctest

open Text (isBlank isAllBlank escaped delimit unescapes_escaped mem_escaped lineList_lines)
open Header (IsKey BlankNext Written isKeyChar)

namespace Directive

/-! ## Layouts -/

/-- Blanks without a newline. -/
def IsIndent (cs : List Char) : Prop := ∀ c ∈ cs, isBlank c ∧ c ≠ '\n'

instance (cs : List Char) : Decidable (IsIndent cs) :=
  decidable_of_iff (cs.all fun c => isBlank c && c != '\n') (by simp [IsIndent])

/-- The blanks in front of an item. -/
structure Gap where
  text : List Char
  nonempty : text ≠ []
  isIndent : IsIndent text

/-- An attribute as it is written. -/
structure Item where
  gap : Gap
  key : String
  value : Option String
  isKey : IsKey key.toList
  onLine : ∀ v ∈ value, '\n' ∉ v.toList

/-- What the attribute declares. -/
def Item.entry (a : Item) : String × Option String := (a.key, a.value)

def Item.text (a : Item) : List Char :=
  a.gap.text ++ a.key.toList ++ match a.value with
    | none => []
    | some value => '=' :: delimit '"' value.toList

/-- A directive as it is written, up to the mark that closes the comment. -/
structure Layout where
  items : List Item
  label : Option (Gap × BodyLabel)
  body : Lines
  indent : List Char
  isIndent : IsIndent indent
  onLine : ∀ l ∈ body, '\n' ∉ l.toList ∧ l.toList.getLast? ≠ some '\r'
  labelled : label = none → body = []

namespace Layout

def labelText : Option (Gap × BodyLabel) → List Char
  | none => []
  | some (gap, label) => gap.text ++ label.text.toList

def header (d : Layout) : List Char := d.items.flatMap Item.text ++ labelText d.label

/-- What follows the first line. -/
def remainder (d : Layout) : List Char :=
  d.body.flatMap (fun l => l.toList ++ ['\n']) ++ d.indent

def text (d : Layout) : List Char := keyword ++ d.header ++ '\n' :: d.remainder

end Layout

/-! ## The first line -/

theorem IsIndent.allBlank {cs : List Char} (h : IsIndent cs) : isAllBlank cs :=
  List.all_eq_true.mpr fun c hc => (h c hc).1

theorem IsIndent.newline_not_mem {cs : List Char} (h : IsIndent cs) : '\n' ∉ cs :=
  fun hmem => (h _ hmem).2 rfl

theorem Gap.blankNext (gap : Gap) (cs : List Char) : BlankNext (gap.text ++ cs) := by
  obtain ⟨text, hne, hindent⟩ := gap
  obtain ⟨c, rest, rfl⟩ := List.exists_cons_of_ne_nil hne
  rintro _ ⟨⟩
  exact (hindent c List.mem_cons_self).1

namespace Layout

theorem blankNext (items : List Item) (label : Option (Gap × BodyLabel)) :
    BlankNext (items.flatMap Item.text ++ labelText label) := by
  cases items with
  | cons a items =>
    rw [List.flatMap_cons, Item.text, List.append_assoc, List.append_assoc, List.append_assoc]
    exact a.gap.blankNext _
  | nil =>
    cases label with
    | none => rintro _ ⟨⟩
    | some l => exact l.1.blankNext _

/-- The first line declares the attributes in the order in which they are written. -/
theorem written_header (d : Layout) :
    Written d.header (d.items.map Item.entry) (d.label.map Prod.snd) := by
  unfold header
  generalize d.items = items
  induction items with
  | nil =>
    cases d.label with
    | none => exact .blank rfl
    | some l =>
      obtain ⟨gap, label⟩ := l
      have h : Written (gap.text ++ label.name.toList ++ [':']) [] (some label) :=
        .label gap.isIndent.allBlank label rfl
      rwa [List.append_assoc, ← String.toList_singleton, ← String.toList_append] at h
  | cons a items ih =>
    have hnext := blankNext items d.label
    rw [List.flatMap_cons, List.append_assoc, List.map_cons, Item.text, Item.entry]
    cases a.value with
    | none =>
      have h := Written.flag a.gap.isIndent.allBlank a.isKey hnext ih
      rw [String.ofList_toList] at h
      rwa [List.append_nil]
    | some value =>
      have h := Written.value a.gap.isIndent.allBlank a.isKey (unescapes_escaped '"' value.toList) hnext ih
      rw [String.ofList_toList, String.ofList_toList] at h
      simpa [delimit] using h

end Layout

theorem Item.newline_not_mem (a : Item) : '\n' ∉ a.text := by
  have hkey : '\n' ∉ a.key.toList := fun h => by cases a.isKey.2 _ h
  have hgap := a.gap.isIndent.newline_not_mem
  unfold Item.text
  cases hvalue : a.value with
  | none => simp [hgap, hkey]
  | some value =>
    have hescaped : '\n' ∉ escaped '"' value.toList := fun h =>
      (mem_escaped h).elim (by decide) (a.onLine value hvalue)
    simp [hgap, hkey, delimit, hescaped]

theorem Item.getLast?_text (a : Item) : a.text.getLast? ≠ some '\r' := by
  unfold Item.text
  cases a.value with
  | none =>
    intro h
    rw [List.append_nil, List.getLast?_append, Option.or_eq_some_iff] at h
    rcases h with h | ⟨h, -⟩
    · cases a.isKey.2 _ (List.mem_of_getLast? h)
    · exact a.isKey.1 (List.getLast?_eq_none_iff.mp h)
  | some value =>
    have hquote : a.gap.text ++ a.key.toList ++ '=' :: delimit '"' value.toList =
        a.gap.text ++ a.key.toList ++ '=' :: '"' :: escaped '"' value.toList ++ ['"'] := by
      simp [delimit]
    rw [hquote, List.getLast?_concat]
    decide

namespace Layout

theorem newline_not_mem_labelText (label : Option (Gap × BodyLabel)) : '\n' ∉ labelText label := by
  cases label with
  | none => exact List.not_mem_nil
  | some l =>
    obtain ⟨gap, label⟩ := l
    intro h
    rcases List.mem_append.mp h with h | h
    · exact gap.isIndent.newline_not_mem h
    · revert h
      cases label <;> decide

theorem getLast?_labelText (label : Option (Gap × BodyLabel)) :
    (labelText label).getLast? ≠ some '\r' := by
  cases label with
  | none => simp [labelText]
  | some l => simp [labelText, BodyLabel.text]

theorem newline_not_mem_header (d : Layout) : '\n' ∉ d.header := by
  intro h
  rcases List.mem_append.mp h with h | h
  · obtain ⟨a, -, ha⟩ := List.mem_flatMap.mp h
    exact a.newline_not_mem ha
  · exact newline_not_mem_labelText d.label h

theorem getLast?_header (d : Layout) : d.header.getLast? ≠ some '\r' := by
  intro h
  rw [header, List.getLast?_append, Option.or_eq_some_iff] at h
  rcases h with h | ⟨-, h⟩
  · exact getLast?_labelText d.label h
  · rw [List.getLast?_flatMap] at h
    obtain ⟨a, -, ha⟩ := List.exists_of_findSome?_eq_some h
    exact a.getLast?_text ha

end Layout

/-! ## The body -/

/-- The indentation of the closing marker is not a line of the body. -/
theorem bodyLines_lines {ls : List (List Char)} {indent : List Char}
    (hls : ∀ l ∈ ls, '\n' ∉ l ∧ l.getLast? ≠ some '\r') (hindent : IsIndent indent) :
    bodyLines (ls.flatMap (· ++ ['\n']) ++ indent) = ls := by
  unfold bodyLines
  rw [lineList_lines hls hindent.newline_not_mem]
  cases indent with
  | nil =>
    rcases List.eq_nil_or_concat ls with rfl | ⟨ls, l, rfl⟩
    · rfl
    · simp
  | cons c indent =>
    have hblank := hindent.allBlank
    have hlast : (c :: indent).getLast? ≠ some '\n' := fun h =>
      hindent.newline_not_mem (List.mem_of_getLast? h)
    rw [if_neg (List.cons_ne_nil c indent), List.getLast?_append]
    simp [hlast, hblank]

theorem Layout.bodyLines_remainder (d : Layout) :
    (bodyLines d.remainder).map String.ofList = d.body := by
  have hls : ∀ l ∈ d.body.map String.toList, '\n' ∉ l ∧ l.getLast? ≠ some '\r' := by
    intro l hl
    obtain ⟨s, hs, rfl⟩ := List.mem_map.mp hl
    exact d.onLine s hs
  have h := bodyLines_lines hls d.isIndent
  rw [List.flatMap_map] at h
  unfold Layout.remainder
  rw [h, List.map_map]
  exact (List.map_congr_left fun l _ => String.ofList_toList).trans (List.map_id' d.body)

/-- **Reading undoes writing.** -/
theorem parse_text (line : Nat) (d : Layout) (m : Attributes)
    (hattributes : (d.items.map Item.entry).Perm m.entries) :
    parse line (String.ofList d.text) = .ok (some ⟨line, m, d.label.map Prod.snd, d.body⟩) := by
  have hscan : Header.scan line d.header = .ok ⟨m, d.label.map Prod.snd⟩ :=
    Header.scan_eq_ok_iff.mpr ⟨_, d.written_header, hattributes.symm⟩
  have hgap : isAllBlank [] := rfl
  have hnext : BlankNext d.header := Layout.blankNext d.items d.label
  have hreturns : ∀ c ∈ ([] : List Char), c = '\r' := by simp
  have hparse := parse_above line hgap hnext d.newline_not_mem_header d.getLast?_header hreturns
    d.remainder
  rw [List.append_nil, List.nil_append, ← List.append_assoc, hscan] at hparse
  refine hparse.trans ?_
  cases hlabel : d.label with
  | some l =>
    rw [← d.bodyLines_remainder]
    rfl
  | none =>
    have hbody : d.body = [] := d.labelled hlabel
    have hblank : isAllBlank d.remainder := by
      rw [Layout.remainder, hbody]
      exact d.isIndent.allBlank
    rw [hbody]
    exact if_pos hblank

/-- Attributes out of order, a value that ends in a backslash behind a quote, and a blank line in
front of an indented closing marker. -/
def quotedLayout : Layout where
  items := [⟨⟨[' ', '\t'], by decide, by decide⟩, "re", some "body: a=\"\\d\"\\", by decide, by decide⟩,
    ⟨⟨[' '], by decide, by decide⟩, "id_1", none, by decide, by decide⟩]
  label := some (⟨[' ', ' '], by decide, by decide⟩, .body)
  body := ["- x", ""]
  indent := [' ', ' ']
  isIndent := by decide
  onLine := by decide
  labelled := by decide

theorem parse_quotedLayout :
    let text := "markcheck \tre=\"body: a=\\\"\\\\d\\\"\\\\\" id_1  body:\n- x\n\n  "
    let attributes : Attributes := .ofList [("id_1", none), ("re", some "body: a=\"\\d\"\\")]
    String.ofList quotedLayout.text = text ∧
      (quotedLayout.items.map Item.entry).Perm attributes.entries ∧
      parse 7 text = .ok (some ⟨7, attributes, some .body, ["- x", ""]⟩) := by
  intro text attributes
  have htext : String.ofList quotedLayout.text = text := by decide
  have hperm : (quotedLayout.items.map Item.entry).Perm attributes.entries := by decide
  have hparse := parse_text 7 quotedLayout attributes hperm
  rw [htext] at hparse
  exact ⟨htext, hperm, hparse⟩

end Directive

end Doctest
