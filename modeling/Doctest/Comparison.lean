import Doctest.Text.Line

/-!
# Comparing lists of lines

Empty lines at the end of a list do not matter. Two lists are the same if they are equal without them;
a list contains another one if the other one, without them, is a block of it.
-/

namespace Doctest

/-- The lines without the empty ones at the end. -/
def dropEmptyEnd (ls : Lines) : Lines := (ls.reverse.dropWhile (· = "")).reverse

/-- Whether two lists hold the same lines. -/
def sameLines (a b : Lines) : Bool := dropEmptyEnd a = dropEmptyEnd b

theorem dropEmptyEnd_append (ls : Lines) (n : Nat) :
    dropEmptyEnd (ls ++ List.replicate n "") = dropEmptyEnd ls := by
  unfold dropEmptyEnd
  rw [List.reverse_append, List.reverse_replicate, List.dropWhile_append_of_pos (by simp)]

theorem exists_eq_dropEmptyEnd_append (ls : Lines) :
    ∃ n, ls = dropEmptyEnd ls ++ List.replicate n "" := by
  obtain ⟨rest, hrest, hls, -⟩ := Text.exists_dropEnd_append (· = "") ls
  have hempty : rest = List.replicate rest.length "" :=
    List.eq_replicate_of_mem fun l hl => of_decide_eq_true (hrest l hl)
  exact ⟨rest.length, hempty ▸ hls⟩

theorem getLast?_dropEmptyEnd (ls : Lines) : (dropEmptyEnd ls).getLast? ≠ some "" := by
  obtain ⟨-, -, -, hlast⟩ := Text.exists_dropEnd_append (· = "") ls
  exact fun h => of_decide_eq_false (hlast _ h) rfl

theorem sameLines_iff_dropEmptyEnd {a b : Lines} :
    sameLines a b ↔ dropEmptyEnd a = dropEmptyEnd b := decide_eq_true_iff

/-- Two lists hold the same lines if they are equal but for empty lines at their ends. -/
theorem sameLines_iff {a b : Lines} :
    sameLines a b ↔ ∃ m n, a ++ List.replicate m "" = b ++ List.replicate n "" := by
  rw [sameLines_iff_dropEmptyEnd]
  constructor
  · intro h
    obtain ⟨m, hm⟩ := exists_eq_dropEmptyEnd_append a
    obtain ⟨n, hn⟩ := exists_eq_dropEmptyEnd_append b
    refine ⟨n, m, ?_⟩
    rw [hm, hn, h, List.append_assoc, List.append_assoc, List.replicate_append_replicate,
      List.replicate_append_replicate, Nat.add_comm]
  · rintro ⟨m, n, h⟩
    rw [← dropEmptyEnd_append a m, h, dropEmptyEnd_append]

/-- Whether the lines occur one after the other. -/
def hasBlock (block : Lines) : Lines → Bool
  | [] => block.isEmpty
  | l :: ls => block.isPrefixOf (l :: ls) || hasBlock block ls

theorem hasBlock_iff {block ls : Lines} : hasBlock block ls ↔ block <:+: ls := by
  induction ls with
  | nil => simp [hasBlock]
  | cons l ls ih =>
    rw [hasBlock, Bool.or_eq_true, List.isPrefixOf_iff_prefix, ih, List.infix_cons_iff]

/-- Whether the first list contains the second one. -/
def containsLines (ls block : Lines) : Bool := hasBlock (dropEmptyEnd block) ls

end Doctest
