import Doctest.Comparison
import Mathlib.Data.List.Infix

/-!
# The order of lists of lines

Only what is searched for loses the empty lines at its end, not the list in which it is searched. That
makes no difference, because a block that does not end with an empty line cannot reach into them.

* `Core`: what is left of a list without the empty lines at its end.
* `containsLines_iff`: one list contains another if its core contains the other's core.
* `searchWindows?_eq`: comparing the list's blocks with what is searched for gives the same answer, and
  blocks of no lines are never asked for.
* `containment_order`: containment orders lists of lines, up to empty lines at their ends.
-/

namespace Doctest

/-! ## Lists without empty lines at their ends -/

/-- What is left of a list without the empty lines at its end. -/
structure Core (ls core : Lines) : Prop where
  eq_append : ∃ n, ls = core ++ List.replicate n ""
  last_ne : core.getLast? ≠ some ""

theorem core_dropEmptyEnd (ls : Lines) : Core ls (dropEmptyEnd ls) :=
  ⟨exists_eq_dropEmptyEnd_append ls, getLast?_dropEmptyEnd ls⟩

/-- A list has one core. -/
theorem Core.eq_dropEmptyEnd {ls core : Lines} (h : Core ls core) : core = dropEmptyEnd ls := by
  obtain ⟨n, rfl⟩ := h.eq_append
  refine (Text.dropEnd_append_stop (fun l hl => decide_eq_false ?_) (by simp)).symm
  rintro rfl
  exact h.last_ne hl

theorem sameLines_iff_core {a b core : Lines} (h : Core a core) : sameLines a b ↔ Core b core := by
  rw [sameLines_iff_dropEmptyEnd, ← h.eq_dropEmptyEnd]
  constructor
  · rintro rfl
    exact core_dropEmptyEnd b
  · intro hb
    exact hb.eq_dropEmptyEnd

theorem sameLines_equivalence : Equivalence fun a b : Lines => sameLines a b where
  refl a := sameLines_iff_dropEmptyEnd.mpr rfl
  symm h := sameLines_iff_dropEmptyEnd.mpr (sameLines_iff_dropEmptyEnd.mp h).symm
  trans h h' := by
    rw [sameLines_iff_dropEmptyEnd] at h h' ⊢
    exact h.trans h'

/-- The same lines are a common core with any number of empty lines behind it. -/
theorem sameLines_iff_replicate {a b : Lines} : sameLines a b ↔
    ∃ core m n, a = core ++ List.replicate m "" ∧ b = core ++ List.replicate n "" := by
  constructor
  · intro h
    obtain ⟨m, hm⟩ := (core_dropEmptyEnd a).eq_append
    obtain ⟨n, hn⟩ := ((sameLines_iff_core (core_dropEmptyEnd a)).mp h).eq_append
    exact ⟨_, m, n, hm, hn⟩
  · rintro ⟨core, m, n, rfl, rfl⟩
    rw [sameLines_iff_dropEmptyEnd, dropEmptyEnd_append, dropEmptyEnd_append]

/-! ## Blocks -/

/-- A block with another last line does not reach into the empty lines at the end. -/
theorem infix_append_replicate {core : Lines} (h : core.getLast? ≠ some "") (ls : Lines) (n : Nat) :
    core <:+: ls ++ List.replicate n "" ↔ core <:+: ls := by
  induction n with
  | zero => rw [List.replicate_zero, List.append_nil]
  | succ n ih =>
    rw [List.replicate_succ', ← List.append_assoc, List.infix_concat_iff, ih]
    refine or_iff_right_of_imp fun hsuffix => ?_
    rcases List.suffix_concat_iff.mp hsuffix with rfl | ⟨front, rfl, -⟩
    · exact List.nil_infix
    · simp at h

/-- **Containment of cores.** -/
theorem containsLines_iff {a b : Lines} :
    containsLines a b ↔ dropEmptyEnd b <:+: dropEmptyEnd a := by
  obtain ⟨n, ha⟩ := exists_eq_dropEmptyEnd_append a
  unfold containsLines
  rw [hasBlock_iff, ← infix_append_replicate (getLast?_dropEmptyEnd b) (dropEmptyEnd a) n, ← ha]

/-! ## The search block by block -/

/-- All blocks of `width` lines, from left to right. Blocks of no lines cannot be asked for. -/
def windows? (width : Nat) (ls : Lines) : Option (List Lines) :=
  if width = 0 then none
  else some ((List.range (ls.length + 1 - width)).map fun i => (ls.drop i).take width)

/-- The search that compares one block after the other with what is searched for. -/
def searchWindows? (ls block : Lines) : Option Bool :=
  if dropEmptyEnd block = [] then some true
  else (windows? (dropEmptyEnd block).length ls).map (·.any (· = dropEmptyEnd block))

theorem mem_windows_iff {ls block : Lines} :
    block ∈ (List.range (ls.length + 1 - block.length)).map
        (fun i => (ls.drop i).take block.length) ↔ block <:+: ls := by
  rw [List.mem_map]
  constructor
  · rintro ⟨i, -, hblock⟩
    rw [← hblock]
    exact (List.take_prefix _ _).isInfix.trans (List.drop_suffix i ls).isInfix
  · rintro ⟨front, back, rfl⟩
    refine ⟨front.length, List.mem_range.mpr ?_, ?_⟩
    · simp only [List.length_append]
      omega
    · rw [List.append_assoc, List.drop_left, List.take_left]

theorem searchWindows?_eq (ls block : Lines) :
    searchWindows? ls block = some (containsLines ls block) := by
  have hcontains : containsLines ls block ↔ dropEmptyEnd block <:+: ls := hasBlock_iff
  unfold searchWindows?
  split
  · next hempty =>
    have hyes : containsLines ls block := hcontains.mpr (hempty ▸ List.nil_infix)
    rw [hyes]
  · next hne =>
    have hwidth : (dropEmptyEnd block).length ≠ 0 := fun h => hne (List.length_eq_zero_iff.mp h)
    unfold windows?
    rw [if_neg hwidth, Option.map_some, Option.some_inj, Bool.eq_iff_iff, hcontains,
      ← mem_windows_iff, List.any_eq_true]
    simp only [decide_eq_true_eq, exists_eq_right]

/-! ## The order -/

/-- **One order behind both comparisons.** A list contains another one if the core of the other one is a
block of it. That is reflexive and transitive, and lists that contain each other are those with the same
lines, which differ in nothing but the number of empty lines at their ends. So neither comparison tells
such lists apart. The search block by block always has an answer, and this one. -/
theorem containment_order :
    (∀ a b core, Core b core → (containsLines a b ↔ core <:+: a)) ∧
    (∀ b, ∃! core, Core b core) ∧
    (∀ a, containsLines a a) ∧
    (∀ a b c, containsLines a b → containsLines b c → containsLines a c) ∧
    (∀ a b, containsLines a b ∧ containsLines b a ↔ sameLines a b) ∧
    (Equivalence fun a b : Lines => sameLines a b) ∧
    (∀ a b, sameLines a b ↔
      ∃ core m n, a = core ++ List.replicate m "" ∧ b = core ++ List.replicate n "") ∧
    (∀ a a' b b', sameLines a a' → sameLines b b' → containsLines a b = containsLines a' b') ∧
    ∀ a b, searchWindows? a b = some (containsLines a b) := by
  refine ⟨fun a b core hcore => ?_, fun b => ?_, fun a => ?_, fun a b c hab hbc => ?_, fun a b => ?_,
    sameLines_equivalence, fun a b => sameLines_iff_replicate, fun a a' b b' ha hb => ?_,
    searchWindows?_eq⟩
  · rw [hcore.eq_dropEmptyEnd]
    exact hasBlock_iff
  · exact ⟨_, core_dropEmptyEnd b, fun core hcore => hcore.eq_dropEmptyEnd⟩
  · exact containsLines_iff.mpr (List.infix_refl _)
  · rw [containsLines_iff] at hab hbc ⊢
    exact hbc.trans hab
  · rw [containsLines_iff, containsLines_iff, sameLines_iff_dropEmptyEnd]
    constructor
    · rintro ⟨hba, hab⟩
      exact hab.eq_of_length_le hba.length_le
    · intro heq
      rw [heq]
      exact ⟨List.infix_refl _, List.infix_refl _⟩
  · rw [sameLines_iff_dropEmptyEnd] at ha hb
    rw [Bool.eq_iff_iff, containsLines_iff, containsLines_iff, ha, hb]

/-- The list in which is searched ends with fewer empty lines than what is searched for. -/
theorem containment_order_blankEnds :
    containsLines ["a", "", "b", ""] ["", "b", "", ""] ∧ containsLines ["", "b", "", ""] ["b"] ∧
      containsLines ["a", "", "b", ""] ["b"] ∧ ¬ containsLines ["b"] ["", "b"] := by
  have hfirst : containsLines ["a", "", "b", ""] ["", "b", "", ""] := by decide
  have hsecond : containsLines ["", "b", "", ""] ["b"] := by decide
  exact ⟨hfirst, hsecond, containment_order.2.2.2.1 _ _ _ hfirst hsecond, by decide⟩

end Doctest
