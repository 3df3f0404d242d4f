/-!
# Walks that visit nothing twice

A walk that only enters what it has not entered before ends, since the number of names left falls
with each step. `unvisited` is that number.
-/

namespace Doctest

/-- How many of all names a walk has not entered. -/
def unvisited (all seen : List String) : Nat := all.countP fun k => !seen.contains k

theorem unvisited_append_le (all seen : List String) (k : String) :
    unvisited all (seen ++ [k]) ≤ unvisited all seen :=
  List.countP_mono_left fun x _ h => by
    simp only [Bool.not_eq_true', List.contains_eq_mem, decide_eq_false_iff_not] at h ⊢
    exact fun hx => h (List.mem_append_left _ hx)

theorem unvisited_append_lt {all seen : List String} {k : String} (hmem : k ∈ all)
    (hnew : k ∉ seen) : unvisited all (seen ++ [k]) < unvisited all seen := by
  induction all with
  | nil => simp at hmem
  | cons a rest ih =>
    have hle := unvisited_append_le rest seen k
    simp only [unvisited, List.countP_cons] at hle ih ⊢
    by_cases h : a = k
    · subst h
      simp [hnew] at hle ⊢
      omega
    · have hrest : k ∈ rest := (List.mem_cons.1 hmem).resolve_left fun h' => h h'.symm
      have := ih hrest
      by_cases h1 : a ∈ seen
      · simp [h1] at this ⊢
        omega
      · simp [h1, h] at this ⊢
        omega

end Doctest
