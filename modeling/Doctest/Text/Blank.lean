import Doctest.Text.Search

/-!
# Blank characters

Blank means the Unicode property `White_Space`. Text is trimmed and cut into words at blanks.
`trim` keeps a contiguous part of the text that neither starts nor ends with a blank: what is left is
`Trimmed`, and by `trim_of_trimmed` nothing is cut off such a text.
-/

namespace Doctest.Text

/-- The Unicode property `White_Space`: tab to carriage return, space, next line, the no-break
spaces, the spaces of the general punctuation block, the line and paragraph separators and the
ideographic space. -/
def isBlank (c : Char) : Bool :=
  let n := c.toNat
  (9 ≤ n && n ≤ 13) || n == 0x20 || n == 0x85 || n == 0xA0 || n == 0x1680 ||
    (0x2000 ≤ n && n ≤ 0x200A) || n == 0x2028 || n == 0x2029 || n == 0x202F ||
    n == 0x205F || n == 0x3000

/-- The text without its leading blanks. -/
def trimStart (cs : List Char) : List Char := cs.dropWhile isBlank

theorem trimStart_cons {c : Char} (hc : isBlank c = false) (cs : List Char) :
    trimStart (c :: cs) = c :: cs :=
  List.dropWhile_cons_of_neg (by simp [hc])

/-- The text without its trailing blanks. -/
def trimEnd (cs : List Char) : List Char := (cs.reverse.dropWhile isBlank).reverse

/-- The text without the blanks at both ends. -/
def trim (cs : List Char) : List Char := trimEnd (trimStart cs)

/-- Whether the text has no character but blanks. -/
def isAllBlank (cs : List Char) : Bool := cs.all isBlank

/-- The maximal runs of characters that are not blank, in order. -/
def words : List Char → List (List Char)
  | [] => []
  | c :: cs =>
    if isBlank c then words cs
    else
      match cs with
      | [] => [[c]]
      | d :: _ =>
        if isBlank d then [c] :: words cs
        else
          match words cs with
          | [] => [[c]]
          | w :: ws => (c :: w) :: ws

/-! ## Trimmed text -/

section Trimmed

variable {c : Char} {cs before after : List Char}

/-- The text neither starts nor ends with a blank. -/
def Trimmed (cs : List Char) : Prop :=
  (∀ c ∈ cs.head?, isBlank c = false) ∧ ∀ c ∈ cs.getLast?, isBlank c = false

theorem trimmed_nil : Trimmed [] := ⟨nofun, nofun⟩

/-- What is joined by a character that is no blank stays trimmed. -/
theorem Trimmed.append_cons (hbefore : Trimmed before) (hc : isBlank c = false)
    (hafter : Trimmed after) : Trimmed (before ++ c :: after) := by
  constructor
  · intro d hd
    cases before with
    | nil =>
      cases hd
      exact hc
    | cons d before =>
      cases hd
      exact hbefore.1 d rfl
  · intro d hd
    rw [List.getLast?_append, List.getLast?_cons] at hd
    cases hlast : after.getLast? with
    | none =>
      rw [hlast] at hd
      cases hd
      exact hc
    | some last =>
      rw [hlast] at hd
      cases hd
      exact hafter.2 last hlast

theorem trimmed_of_forall (h : ∀ c ∈ cs, isBlank c = false) : Trimmed cs :=
  ⟨fun c hc => h c (List.mem_of_head? hc), fun c hc => h c (List.mem_of_getLast? hc)⟩

theorem trim_of_trimmed (h : Trimmed cs) : trim cs = cs := by
  have hnone : ∀ c ∈ ([] : List Char), isBlank c := fun _ hc => absurd hc List.not_mem_nil
  have hstart : trimStart cs = cs := dropWhile_append_stop hnone h.1
  have hend : trimEnd (cs ++ []) = cs := dropEnd_append_stop h.2 hnone
  rw [List.append_nil] at hend
  rw [trim, hstart, hend]

theorem trim_cons_blank (hc : isBlank c) (cs : List Char) : trim (c :: cs) = trim cs := by
  have hstart : trimStart (c :: cs) = trimStart cs := List.dropWhile_cons_of_pos hc
  rw [trim, hstart, trim]

/-- Trimming takes off the blanks at both ends and nothing else. -/
theorem trim_eq_iff {word : List Char} (hword : word ≠ []) (htrimmed : Trimmed word) :
    trim cs = word ↔ ∃ before after, (∀ c ∈ before, isBlank c) ∧ (∀ c ∈ after, isBlank c) ∧
      cs = before ++ word ++ after := by
  constructor
  · intro h
    obtain ⟨after, hafter, hcs, -⟩ := exists_dropEnd_append isBlank (trimStart cs)
    refine ⟨cs.takeWhile isBlank, after, List.all_eq_true.mp List.all_takeWhile, hafter, ?_⟩
    have hend : trimStart cs = word ++ after := by
      rw [← h]
      exact hcs
    rw [List.append_assoc, ← hend]
    exact List.takeWhile_append_dropWhile.symm
  · rintro ⟨before, after, hbefore, hafter, rfl⟩
    have hhead : ∀ c ∈ (word ++ after).head?, isBlank c = false := by
      obtain ⟨d, ds, rfl⟩ := List.exists_cons_of_ne_nil hword
      exact htrimmed.1
    have hstart : trimStart (before ++ word ++ after) = word ++ after := by
      rw [List.append_assoc]
      exact dropWhile_append_stop hbefore hhead
    rw [trim, hstart]
    exact dropEnd_append_stop htrimmed.2 hafter

theorem trimmed_trim (cs : List Char) : Trimmed (trim cs) := by
  obtain ⟨blanks, -, hcs, hlast⟩ := exists_dropEnd_append isBlank (trimStart cs)
  refine ⟨fun c hc => ?_, hlast⟩
  have hstart : (cs.dropWhile isBlank).head? = some c := by
    change (trimStart cs).head? = some c
    rw [hcs, List.head?_append]
    exact Option.or_eq_some_iff.mpr (.inl hc)
  have hhead := List.head?_dropWhile_not isBlank cs
  rw [hstart] at hhead
  exact hhead

theorem mem_of_mem_trim (h : c ∈ trim cs) : c ∈ cs := by
  obtain ⟨blanks, -, hcs, -⟩ := exists_dropEnd_append isBlank (trimStart cs)
  have hstart : c ∈ trimStart cs := by
    rw [hcs]
    exact List.mem_append_left _ h
  exact (List.dropWhile_sublist _).mem hstart

end Trimmed

end Doctest.Text
