import Mathlib.Data.List.Basic

/-!
# The strings of a line

A line consists of strings and of the characters between them. A string starts at a quote between
strings and ends at the quote that closes it, or with the line if no quote does. Between double quotes a
backslash guards the character behind it; between single quotes the quote may stand twice.

* `IsCut`: how a line is cut into strings and the characters between them.
* `existsUnique_cut`: every line is cut in exactly one way.
* `StringAt`: where the strings of a line stand.
-/

namespace Doctest.LineComment

def IsQuote (c : Char) : Prop := c = '"' ∨ c = '\''

/-- Text of a string that its quote does not end: between double quotes a backslash guards the character
behind it, between single quotes the quote may stand twice. -/
inductive Inner : (quote : Char) → List Char → Prop
  | nil {q : Char} : Inner q []
  | guarded (c : Char) {cs : List Char} (h : Inner '"' cs) : Inner '"' ('\\' :: c :: cs)
  | doubled {cs : List Char} (h : Inner '\'' cs) : Inner '\'' ('\'' :: '\'' :: cs)
  | plain {q c : Char} {cs : List Char} (hquote : c ≠ q) (hslash : q = '"' → c ≠ '\\')
      (h : Inner q cs) : Inner q (c :: cs)

/-- A quote between these texts closes the string. -/
def Closes (q : Char) (inner rest : List Char) : Prop :=
  Inner q inner ∧ (q = '\'' → rest.head? ≠ some '\'')

inductive Part
  /-- A character between strings. -/
  | plain (c : Char)
  | string (quote : Char) (inner : List Char) (closed : Bool)

def Part.text : Part → List Char
  | .plain c => [c]
  | .string q inner closed => q :: inner ++ if closed then [q] else []

def textOf (parts : List Part) : List Char := parts.flatMap Part.text

/-- The parts are those of a line: no quote is left between strings, a string ends where it is closed, and
one that is not closed has no quote that closes it. -/
inductive IsCut : List Part → Prop
  | nil : IsCut []
  | plain {c : Char} {parts : List Part} (hc : ¬ IsQuote c) (h : IsCut parts) :
      IsCut (.plain c :: parts)
  | closed {q : Char} {inner : List Char} {parts : List Part} (hq : IsQuote q)
      (hcloses : Closes q inner (textOf parts)) (h : IsCut parts) :
      IsCut (.string q inner true :: parts)
  | unclosed {q : Char} {inner : List Char} (hq : IsQuote q)
      (hopen : ∀ front rest, inner = front ++ q :: rest → ¬ Closes q front rest) :
      IsCut [.string q inner false]

/-- A string of the line stands from `i` to `j`. -/
def StringAt (line : List Char) (closed : Bool) (i j : Nat) : Prop :=
  ∃ front q inner back, IsCut (front ++ .string q inner closed :: back) ∧
    textOf (front ++ .string q inner closed :: back) = line ∧ (textOf front).length = i ∧
    j = i + (Part.string q inner closed).text.length

section Cut

variable {q : Char} {a b r s : List Char} {parts front back : List Part}

theorem textOf_append (front back : List Part) :
    textOf (front ++ back) = textOf front ++ textOf back := List.flatMap_append

@[simp] theorem textOf_nil : textOf [] = [] := rfl

@[simp] theorem textOf_plain (c : Char) (parts : List Part) :
    textOf (.plain c :: parts) = c :: textOf parts := rfl

@[simp] theorem textOf_closed (q : Char) (inner : List Char) (parts : List Part) :
    textOf (.string q inner true :: parts) = q :: (inner ++ q :: textOf parts) := by
  simp [textOf, Part.text]

@[simp] theorem textOf_unclosed (q : Char) (inner : List Char) (parts : List Part) :
    textOf (.string q inner false :: parts) = q :: (inner ++ textOf parts) := by
  simp [textOf, Part.text]

theorem IsQuote.ne_slash (h : IsQuote q) : q ≠ '/' := by
  rcases h with rfl | rfl <;> decide

/-- A string is closed in one place only. -/
theorem Inner.eq_of_closed (ha : Inner q a) (hb : Inner q b) (hr : q = '\'' → r.head? ≠ some '\'')
    (hs : q = '\'' → s.head? ≠ some '\'') (heq : a ++ q :: r = b ++ q :: s) : a = b := by
  induction ha generalizing b with
  | nil =>
    cases hb with
    | nil => rfl
    | guarded c hb => simp at heq
    | doubled hb =>
      have hrest := (List.cons.inj heq).2
      exact absurd (congrArg List.head? hrest) (hr rfl)
    | plain hquote _ _ => exact absurd (List.cons.inj heq).1.symm hquote
  | guarded c ha ih =>
    cases hb with
    | nil => simp at heq
    | guarded d hb =>
      obtain ⟨rfl, htail⟩ := List.cons.inj (List.cons.inj heq).2
      rw [ih hb hr hs htail]
    | plain _ hslash _ => exact absurd (List.cons.inj heq).1.symm (hslash rfl)
  | doubled ha ih =>
    cases hb with
    | nil =>
      have hrest := (List.cons.inj heq).2
      exact absurd (congrArg List.head? hrest.symm) (hs rfl)
    | doubled hb =>
      have htail := (List.cons.inj (List.cons.inj heq).2).2
      rw [ih hb hr hs htail]
    | plain hquote _ _ => exact absurd (List.cons.inj heq).1.symm hquote
  | plain hquote hslash ha ih =>
    cases hb with
    | nil => exact absurd (List.cons.inj heq).1 hquote
    | guarded d hb => exact absurd (List.cons.inj heq).1 (hslash rfl)
    | doubled hb => exact absurd (List.cons.inj heq).1 hquote
    | plain _ _ hb =>
      obtain ⟨rfl, htail⟩ := List.cons.inj heq
      rw [ih hb hr hs htail]

theorem Closes.unique (ha : Closes q a r) (hb : Closes q b s) (heq : a ++ q :: r = b ++ q :: s) :
    a = b ∧ r = s := by
  obtain rfl := ha.1.eq_of_closed hb.1 ha.2 hb.2 heq
  exact ⟨rfl, (List.cons.inj (List.append_cancel_left heq)).2⟩

theorem exists_cut (line : List Char) : ∃ parts, IsCut parts ∧ textOf parts = line := by
  induction hlength : line.length using Nat.strongRecOn generalizing line with
  | ind n ih =>
    subst hlength
    cases line with
    | nil => exact ⟨[], .nil, rfl⟩
    | cons c line =>
      by_cases hc : IsQuote c
      · by_cases hclosed : ∃ inner rest, line = inner ++ c :: rest ∧ Closes c inner rest
        · obtain ⟨inner, rest, rfl, hcloses⟩ := hclosed
          have hshorter : rest.length < (c :: (inner ++ c :: rest)).length := by
            simp only [List.length_cons, List.length_append]
            omega
          obtain ⟨parts, hcut, rfl⟩ := ih _ hshorter rest rfl
          exact ⟨.string c inner true :: parts, .closed hc hcloses hcut, textOf_closed c inner parts⟩
        · refine ⟨[.string c line false], .unclosed hc fun front rest hline hcloses => ?_, by simp⟩
          exact hclosed ⟨front, rest, hline, hcloses⟩
      · obtain ⟨parts, hcut, rfl⟩ := ih _ (Nat.lt_succ_self _) line rfl
        exact ⟨.plain c :: parts, .plain hc hcut, textOf_plain c parts⟩

theorem IsCut.unique {parts' : List Part} (h : IsCut parts) (h' : IsCut parts')
    (heq : textOf parts = textOf parts') : parts = parts' := by
  induction h generalizing parts' with
  | nil =>
    cases h' with
    | nil => rfl
    | plain _ _ => simp at heq
    | closed _ _ _ => simp at heq
    | unclosed _ _ => simp at heq
  | plain hc h ih =>
    cases h' with
    | nil => simp at heq
    | plain _ h' =>
      obtain ⟨rfl, htail⟩ := List.cons.inj heq
      rw [ih h' htail]
    | closed hq _ _ => exact absurd ((List.cons.inj heq).1 ▸ hq) hc
    | unclosed hq _ => exact absurd ((List.cons.inj heq).1 ▸ hq) hc
  | closed hq hcloses h ih =>
    rw [textOf_closed] at heq
    cases h' with
    | nil => simp at heq
    | plain hc _ => exact absurd ((List.cons.inj heq).1 ▸ hq) hc
    | closed _ hcloses' h' =>
      rw [textOf_closed] at heq
      obtain ⟨rfl, htail⟩ := List.cons.inj heq
      obtain ⟨rfl, hrest⟩ := hcloses.unique hcloses' htail
      rw [ih h' hrest]
    | unclosed _ hopen =>
      rw [textOf_unclosed, textOf_nil, List.append_nil] at heq
      obtain ⟨rfl, htail⟩ := List.cons.inj heq
      exact absurd hcloses (hopen _ _ htail.symm)
  | unclosed hq hopen =>
    rw [textOf_unclosed, textOf_nil, List.append_nil] at heq
    cases h' with
    | nil => simp at heq
    | plain hc _ => exact absurd ((List.cons.inj heq).1 ▸ hq) hc
    | closed _ hcloses' _ =>
      rw [textOf_closed] at heq
      obtain ⟨rfl, htail⟩ := List.cons.inj heq
      exact absurd hcloses' (hopen _ _ htail)
    | unclosed _ _ =>
      rw [textOf_unclosed, textOf_nil, List.append_nil] at heq
      obtain ⟨rfl, rfl⟩ := List.cons.inj heq
      rfl

/-- **Strings are well defined.** Every line is cut in exactly one way. -/
theorem existsUnique_cut (line : List Char) : ∃! parts, IsCut parts ∧ textOf parts = line := by
  obtain ⟨parts, hcut, htext⟩ := exists_cut line
  exact ⟨parts, ⟨hcut, htext⟩, fun parts' h => h.1.unique hcut (h.2.trans htext.symm)⟩

theorem IsCut.of_append (h : IsCut (front ++ back)) : IsCut back := by
  induction front with
  | nil => exact h
  | cons p front ih =>
    rw [List.cons_append] at h
    generalize hrest : front ++ back = rest at h ih
    cases h with
    | plain _ h => exact ih h
    | closed _ _ h => exact ih h
    | unclosed _ _ => exact ih .nil

/-- The part that holds the character behind `xs`. -/
theorem exists_part {c : Char} {xs rest : List Char} (heq : textOf parts = xs ++ c :: rest) :
    ∃ front p back before after, parts = front ++ p :: back ∧ xs = textOf front ++ before ∧
      p.text = before ++ c :: after := by
  induction parts generalizing xs with
  | nil => simp at heq
  | cons p parts ih =>
    rcases List.append_eq_append_iff.mp (heq : p.text ++ textOf parts = xs ++ c :: rest) with
      ⟨xs', rfl, hrest⟩ | ⟨after, hp, hrest⟩
    · obtain ⟨front, p', back, before, after, rfl, rfl, hp'⟩ := ih hrest
      exact ⟨p :: front, p', back, before, after, rfl, by simp [textOf], hp'⟩
    · cases after with
      | nil =>
        have hparts : textOf parts = [] ++ c :: rest := hrest.symm
        obtain ⟨front, p', back, before, after, rfl, hxs, hp'⟩ := ih hparts
        exact ⟨p :: front, p', back, before, after, rfl, by simpa [textOf, hp] using hxs, hp'⟩
      | cons d after =>
        obtain ⟨rfl, -⟩ := List.cons.inj hrest
        exact ⟨[], p, parts, xs, after, rfl, rfl, hp⟩

end Cut

end Doctest.LineComment
