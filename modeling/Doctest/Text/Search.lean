/-!
# Finding and replacing fixed text
-/

namespace Doctest.Text

/-- The text after `word`, if it starts with `word`. -/
def afterWord? (word : List Char) (cs : List Char) : Option (List Char) :=
  if word.isPrefixOf cs then some (cs.drop word.length) else none

theorem afterWord?_eq_some_iff {word cs rest : List Char} :
    afterWord? word cs = some rest ↔ cs = word ++ rest := by
  unfold afterWord?
  split
  · next h =>
    obtain ⟨after, rfl⟩ := List.isPrefixOf_iff_prefix.mp h
    simp
  · next h =>
    constructor
    · rintro ⟨⟩
    · rintro rfl
      exact absurd (List.isPrefixOf_iff_prefix.mpr (List.prefix_append word rest)) h

section Stop

variable {α : Type} {p : α → Bool} {front rest : List α}

/-- A run ends in front of the first entry that does not belong to it. -/
theorem takeWhile_append_stop (hfront : ∀ a ∈ front, p a) (hrest : ∀ a ∈ rest.head?, p a = false) :
    (front ++ rest).takeWhile p = front := by
  rw [List.takeWhile_append_of_pos hfront]
  cases rest with
  | nil => exact List.append_nil _
  | cons a as =>
    have ha := hrest a rfl
    rw [List.takeWhile_cons_of_neg (by simp [ha]), List.append_nil]

theorem dropWhile_append_stop (hfront : ∀ a ∈ front, p a) (hrest : ∀ a ∈ rest.head?, p a = false) :
    (front ++ rest).dropWhile p = rest := by
  rw [List.dropWhile_append_of_pos hfront]
  cases rest with
  | nil => rfl
  | cons a as =>
    have ha := hrest a rfl
    exact List.dropWhile_cons_of_neg (by simp [ha])

/-- A run at the end starts behind the last entry that does not belong to it. -/
theorem dropEnd_append_stop (hfront : ∀ a ∈ front.getLast?, p a = false) (hrest : ∀ a ∈ rest, p a) :
    ((front ++ rest).reverse.dropWhile p).reverse = front := by
  have hrest' : ∀ a ∈ rest.reverse, p a := fun a ha => hrest a (List.mem_reverse.mp ha)
  have hfront' : ∀ a ∈ front.reverse.head?, p a = false := by
    rw [List.head?_reverse]
    exact hfront
  rw [List.reverse_append, dropWhile_append_stop hrest' hfront', List.reverse_reverse]

theorem exists_dropEnd_append (p : α → Bool) (l : List α) :
    ∃ rest, (∀ a ∈ rest, p a) ∧ l = (l.reverse.dropWhile p).reverse ++ rest ∧
      ∀ a ∈ (l.reverse.dropWhile p).reverse.getLast?, p a = false := by
  refine ⟨(l.reverse.takeWhile p).reverse, fun a ha => ?_, ?_, fun a ha => ?_⟩
  · exact List.all_eq_true.mp List.all_takeWhile a (List.mem_reverse.mp ha)
  · rw [← List.reverse_append, List.takeWhile_append_dropWhile, List.reverse_reverse]
  · rw [List.getLast?_reverse] at ha
    have hhead := List.head?_dropWhile_not p l.reverse
    rw [ha] at hhead
    exact hhead

end Stop

/-- The parts before and after the first `sep`. -/
def splitFirst? (sep : Char) : List Char → Option (List Char × List Char)
  | [] => none
  | c :: cs =>
    if c = sep then some ([], cs)
    else (splitFirst? sep cs).map fun (before, after) => (c :: before, after)

theorem splitFirst?_eq_some_iff {sep : Char} {cs before after : List Char} :
    splitFirst? sep cs = some (before, after) ↔ sep ∉ before ∧ cs = before ++ sep :: after := by
  fun_induction splitFirst? sep cs generalizing before with
  | case1 => simp
  | case2 cs =>
    constructor
    · rintro ⟨⟩
      simp
    · rintro ⟨hsep, heq⟩
      cases before with
      | nil =>
        cases heq
        rfl
      | cons c before =>
        cases heq
        exact absurd List.mem_cons_self hsep
  | case3 c cs hc ih =>
    rw [Option.map_eq_some_iff]
    constructor
    · rintro ⟨⟨before, after⟩, h, ⟨⟩⟩
      obtain ⟨hsep, rfl⟩ := ih.mp h
      exact ⟨by simp [hsep, Ne.symm hc], rfl⟩
    · rintro ⟨hsep, heq⟩
      cases before with
      | nil =>
        cases heq
        exact absurd rfl hc
      | cons d before =>
        obtain ⟨rfl, rfl⟩ := List.cons.inj heq
        exact ⟨(before, after), ih.mpr ⟨fun h => hsep (List.mem_cons_of_mem _ h), rfl⟩, rfl⟩

theorem splitFirst?_eq_none_iff {sep : Char} {cs : List Char} :
    splitFirst? sep cs = none ↔ sep ∉ cs := by
  fun_induction splitFirst? sep cs with
  | case1 => simp
  | case2 cs => simp
  | case3 c cs hc ih => simp [ih, Ne.symm hc]

/-- The parts between the occurrences of `sep`. Always at least one part. -/
def splitAll (sep : Char) : List Char → List (List Char)
  | [] => [[]]
  | c :: cs =>
    if c = sep then [] :: splitAll sep cs
    else
      match splitAll sep cs with
      | [] => [[c]]
      | p :: ps => (c :: p) :: ps

section SplitAll

variable {sep : Char} {part rest : List Char}

theorem splitAll_of_not_mem (h : sep ∉ part) : splitAll sep part = [part] := by
  induction part with
  | nil => rfl
  | cons c part ih =>
    rw [List.mem_cons, not_or] at h
    rw [splitAll, if_neg (Ne.symm h.1), ih h.2]

theorem splitAll_append_cons (h : sep ∉ part) (rest : List Char) :
    splitAll sep (part ++ sep :: rest) = part :: splitAll sep rest := by
  induction part with
  | nil => exact if_pos rfl
  | cons c part ih =>
    rw [List.mem_cons, not_or] at h
    rw [List.cons_append, splitAll, if_neg (Ne.symm h.1), ih h.2]

theorem splitAll_ne_nil (sep : Char) (cs : List Char) : splitAll sep cs ≠ [] := by
  cases cs with
  | nil => exact List.cons_ne_nil _ _
  | cons c cs =>
    rw [splitAll]
    split
    · exact List.cons_ne_nil _ _
    · split <;> exact List.cons_ne_nil _ _

theorem not_mem_of_mem_splitAll {cs : List Char} (h : part ∈ splitAll sep cs) : sep ∉ part := by
  fun_induction splitAll sep cs generalizing part with
  | case1 =>
    obtain rfl := List.mem_singleton.mp h
    exact List.not_mem_nil
  | case2 cs ih =>
    cases h with
    | head => exact List.not_mem_nil
    | tail _ h => exact ih h
  | case3 c cs hc hnil => exact absurd hnil (splitAll_ne_nil _ _)
  | case4 c cs hc p ps hparts ih =>
    rw [hparts] at ih
    cases h with
    | head =>
      rw [List.mem_cons, not_or]
      exact ⟨Ne.symm hc, ih List.mem_cons_self⟩
    | tail _ h => exact ih (List.mem_cons_of_mem _ h)

end SplitAll

/-- The parts before and after the first occurrence of the word `sep`. -/
def splitFirstWord? (sep : List Char) : List Char → Option (List Char × List Char)
  | [] => if sep.isEmpty then some ([], []) else none
  | c :: cs =>
    if sep.isPrefixOf (c :: cs) then some ([], (c :: cs).drop sep.length)
    else (splitFirstWord? sep cs).map fun (before, after) => (c :: before, after)

/-- The number of characters in front of the first occurrence of `word`. -/
def find? (word : List Char) (cs : List Char) : Option Nat :=
  (splitFirstWord? word cs).map fun parts => parts.1.length

theorem find?_cons (word : List Char) (c : Char) (cs : List Char) :
    find? word (c :: cs) =
      if word <+: c :: cs then some 0 else (find? word cs).map (· + 1) := by
  unfold find?
  rw [splitFirstWord?]
  by_cases h : word <+: c :: cs
  · simp [h]
  · simp only [List.isPrefixOf_iff_prefix, h, if_false, Option.map_map]
    rfl

/-- The first occurrence is found. -/
theorem find?_eq_some_iff {word cs : List Char} {n : Nat} :
    find? word cs = some n ↔ word <+: cs.drop n ∧ ∀ m < n, ¬ word <+: cs.drop m := by
  induction cs generalizing n with
  | nil =>
    simp only [find?, splitFirstWord?, List.drop_nil, List.prefix_nil]
    cases word with
    | nil =>
      simp only [List.isEmpty_nil, if_true, Option.map_some, List.length_nil, Option.some.injEq,
        true_and]
      constructor
      · rintro rfl m hm
        exact absurd hm (Nat.not_lt_zero m)
      · intro h
        cases n with
        | zero => rfl
        | succ n => exact absurd trivial (h 0 n.succ_pos)
    | cons w word => simp
  | cons c cs ih =>
    rw [find?_cons]
    by_cases h : word <+: c :: cs
    · rw [if_pos h]
      constructor
      · rintro ⟨⟩
        exact ⟨h, fun m hm => absurd hm (Nat.not_lt_zero m)⟩
      · rintro ⟨-, hfirst⟩
        cases n with
        | zero => rfl
        | succ n => exact absurd h (hfirst 0 n.succ_pos)
    · rw [if_neg h, Option.map_eq_some_iff]
      constructor
      · rintro ⟨m, hm, rfl⟩
        obtain ⟨hword, hfirst⟩ := ih.mp hm
        refine ⟨hword, fun k hk => ?_⟩
        cases k with
        | zero => exact h
        | succ k => exact hfirst k (Nat.lt_of_succ_lt_succ hk)
      · rintro ⟨hword, hfirst⟩
        cases n with
        | zero => exact absurd hword h
        | succ n =>
          exact ⟨n, ih.mpr ⟨hword, fun k hk => hfirst (k + 1) (Nat.succ_lt_succ hk)⟩, rfl⟩

theorem find?_eq_none_iff {word cs : List Char} :
    find? word cs = none ↔ ∀ n, ¬ word <+: cs.drop n := by
  constructor
  · intro h n
    -- A first occurrence would be found.
    induction n using Nat.strongRecOn with
    | _ n ih =>
      intro hword
      cases h.symm.trans (find?_eq_some_iff.mpr ⟨hword, ih⟩)
  · intro h
    cases hfind : find? word cs with
    | none => rfl
    | some n => exact absurd (find?_eq_some_iff.mp hfind).1 (h n)

/-- Whether `word` occurs in the text. -/
def contains (word : List Char) : List Char → Bool
  | [] => word.isEmpty
  | c :: cs => word.isPrefixOf (c :: cs) || contains word cs

theorem contains_iff {word cs : List Char} : contains word cs = true ↔ word <:+: cs := by
  induction cs with
  | nil => simp [contains]
  | cons c cs ih =>
    rw [contains, Bool.or_eq_true, List.isPrefixOf_iff_prefix, ih, List.infix_cons_iff]

/-- Every occurrence of `word` replaced, from left to right; `skip` characters of an occurrence are
still to be passed over. -/
def replaceFrom (word new : List Char) : Nat → List Char → List Char
  | _, [] => []
  | skip + 1, _ :: cs => replaceFrom word new skip cs
  | 0, c :: cs =>
    if word.isPrefixOf (c :: cs) then new ++ replaceFrom word new (word.length - 1) cs
    else c :: replaceFrom word new 0 cs

/-- Every occurrence of the non-empty `word` replaced by `new`, from left to right. -/
def replace (word new : List Char) (cs : List Char) : List Char :=
  if word.isEmpty then cs else replaceFrom word new 0 cs

/-- The second text is the first one with `new` in place of every occurrence of `word`, from left to
right. -/
inductive Replaced (word new : List Char) : List Char → List Char → Prop
  | nil : Replaced word new [] []
  | here {rest result : List Char} (h : Replaced word new rest result) :
      Replaced word new (word ++ rest) (new ++ result)
  | next {c : Char} {cs result : List Char} (hword : ¬ word <+: c :: cs)
      (h : Replaced word new cs result) : Replaced word new (c :: cs) (c :: result)

theorem replaced_replaceFrom {word : List Char} (hword : word ≠ []) (new : List Char) (skip : Nat)
    (cs : List Char) : Replaced word new (cs.drop skip) (replaceFrom word new skip cs) := by
  induction cs generalizing skip with
  | nil =>
    rw [List.drop_nil, replaceFrom]
    exact .nil
  | cons c cs ih =>
    cases skip with
    | succ skip => exact ih skip
    | zero =>
      rw [List.drop_zero, replaceFrom]
      split
      · next hprefix =>
        obtain ⟨rest, hrest⟩ := List.isPrefixOf_iff_prefix.mp hprefix
        obtain ⟨d, ds, rfl⟩ := List.exists_cons_of_ne_nil hword
        obtain ⟨rfl, rfl⟩ := List.cons.inj hrest
        have htail := ih ds.length
        rw [List.append_eq, List.drop_left] at htail
        exact .here htail
      · next hprefix => exact .next (mt List.isPrefixOf_iff_prefix.mpr hprefix) (ih 0)

theorem replaced_replace {word : List Char} (hword : word ≠ []) (new cs : List Char) :
    Replaced word new cs (replace word new cs) := by
  unfold replace
  rw [if_neg (by simpa using hword)]
  exact replaced_replaceFrom hword new 0 cs

/-- `new` in place of every character `old`. -/
def replaceChar (old : Char) (new : List Char) (cs : List Char) : List Char :=
  cs.flatMap fun c => if c = old then new else [c]

end Doctest.Text
