import Doctest.Document.Comment
import Doctest.Markdown.Line
import Mathlib.Data.List.Basic
import Mathlib.Data.Nat.Basic
import Mathlib.Order.Basic
import Mathlib.Tactic.ByContra

/-!
# Which comments are found

Stretches of HTML are scanned one after the other, and what the scans share is the place where the
last comment ended. Here the comments that they find are compared with those that a reader sees who
knows the whole text: an opening mark in some stretch starts a comment unless it stands inside an
earlier one.

* `Comment.Outer`: the starts of these comments, by recursion on the place alone.
* `scanFrom_eq`: one scan gives what `Scans` lists, the opening marks in a stretch from a place on,
  each behind the end of the comment in front of it.
* `Scanned.concat`: one more stretch. Those in front of it need not be disjoint from it, they only
  must not start behind it.
-/

namespace Doctest

open Markdown (Range)

namespace Comment

/-! ## Comments in a text -/

/-- The number of characters between the marks of a comment that starts at `s`, if it ends. -/
def length? (source : List Char) (s : Nat) : Option Nat :=
  Text.find? closing (source.drop (s + opening.length))

/-- A comment that starts at `s` has its closing mark. -/
def IsClosed (source : List Char) (s : Nat) : Prop := (length? source s).isSome

instance (source : List Char) (s : Nat) : Decidable (IsClosed source s) :=
  inferInstanceAs (Decidable ((length? source s).isSome = true))

/-- What is behind the opening mark at `s`, up to the closing mark. -/
def textAt (source : List Char) (s : Nat) : List Char :=
  let behind := source.drop (s + opening.length)
  behind.take ((length? source s).getD behind.length)

/-- Where a comment that starts at `s` stops: behind its closing mark, or at the end of the text. -/
def stopAt (source : List Char) (s : Nat) : Nat :=
  match length? source s with
  | some n => s + opening.length + n + closing.length
  | none => source.length

/-- An opening mark stands at `s`, all of it inside the stretch. -/
structure Opens (source : List Char) (r : Range) (s : Nat) : Prop where
  first : r.start ≤ s
  last : s + opening.length ≤ r.stop
  mark : opening <+: source.drop s

/-- A comment starts at `s`: an opening mark stands there in one of the stretches, and no comment that
starts in front of it reaches so far. -/
def Outer (source : List Char) (stretches : List Range) (s : Nat) : Prop :=
  (∃ r ∈ stretches, Opens source r s) ∧
    ∀ s' (_ : s' < s), Outer source stretches s' → stopAt source s' ≤ s
termination_by s

variable {source : List Char} {r : Range} {stretches : List Range} {s : Nat}

theorem outer_iff : Outer source stretches s ↔ (∃ r ∈ stretches, Opens source r s) ∧
    ∀ s' < s, Outer source stretches s' → stopAt source s' ≤ s := by
  rw [Outer]

theorem length_opening : opening.length = 4 := by decide

theorem Opens.add_le_length (h : Opens source r s) : s + opening.length ≤ source.length := by
  have hmark := h.mark.length_le
  rw [List.length_drop, length_opening] at *
  omega

theorem Opens.lt_stopAt (h : Opens source r s) : s < stopAt source s := by
  have hlength := h.add_le_length
  rw [length_opening] at hlength
  unfold stopAt
  split
  · rw [length_opening]
    omega
  · omega

theorem stopAt_of_not_closed (h : ¬ IsClosed source s) : stopAt source s = source.length := by
  unfold IsClosed at h
  unfold stopAt
  rw [Option.not_isSome_iff_eq_none.mp h]

/-! ## One scan -/

/-- The opening marks in a stretch from `offset` on, each behind the end of the comment in front of
it. -/
inductive Scans (source : List Char) (r : Range) : Nat → List Nat → Prop
  | done {offset : Nat} (h : ∀ s, offset ≤ s → ¬ Opens source r s) : Scans source r offset []
  | next {offset s : Nat} {starts : List Nat} (hle : offset ≤ s) (hs : Opens source r s)
      (hfirst : ∀ s', offset ≤ s' → s' < s → ¬ Opens source r s')
      (rest : Scans source r (stopAt source s) starts) : Scans source r offset (s :: starts)

/-- What a scan finds that finds comments with these starts. -/
def foundAt (source : List Char) (consumed : Nat) (starts : List Nat) : Found where
  comments := (starts.filter fun s => IsClosed source s).map fun s => ⟨s, textAt source s⟩
  unterminated := starts.find? fun s => ¬ IsClosed source s
  consumed := (starts.getLast?.map (stopAt source)).getD consumed

/-- An opening mark in what is left of the stretch, as the search sees it. -/
theorem opens_iff {offset n : Nat} (hoffset : r.start ≤ offset) :
    Opens source r (offset + n) ↔
      opening <+: ((source.drop offset).take (min r.stop source.length - offset)).drop n := by
  rw [List.drop_take, List.drop_drop, List.prefix_take_iff]
  constructor
  · intro h
    have hlength := h.add_le_length
    have hlast := h.last
    exact ⟨h.mark, by omega⟩
  · rintro ⟨hmark, hlength⟩
    rw [length_opening] at hlength
    exact ⟨by omega, by rw [length_opening]; omega, hmark⟩

/-- The first opening mark that the search sees is the first one in what is left of the stretch. -/
theorem first_opens {offset before : Nat} (hoffset : r.start ≤ offset)
    (h : Text.find? opening ((source.drop offset).take (min r.stop source.length - offset)) =
      some before) :
    Opens source r (offset + before) ∧
      ∀ s', offset ≤ s' → s' < offset + before → ¬ Opens source r s' := by
  obtain ⟨hmark, hfirst⟩ := Text.find?_eq_some_iff.mp h
  refine ⟨(opens_iff hoffset).mpr hmark, fun s' hle hlt hopens => ?_⟩
  obtain ⟨n, rfl⟩ := Nat.exists_eq_add_of_le hle
  exact hfirst n (by omega) ((opens_iff hoffset).mp hopens)

/-- **One scan.** -/
theorem scanFrom_eq (source : List Char) (consumed offset : Nat) (hoffset : r.start ≤ offset) :
    ∃ starts, Scans source r offset starts ∧
      scanFrom source consumed (min r.stop source.length) offset =
        foundAt source consumed starts := by
  fun_induction scanFrom source consumed (min r.stop source.length) offset with
  | case1 consumed offset hlt hnone =>
    refine ⟨[], .done fun s hs hopens => ?_, rfl⟩
    obtain ⟨n, rfl⟩ := Nat.exists_eq_add_of_le hs
    exact Text.find?_eq_none_iff.mp hnone n ((opens_iff hoffset).mp hopens)
  | case2 consumed offset hlt before hbefore textStart rest hnone =>
    obtain ⟨hopens, hfirst⟩ := first_opens hoffset hbefore
    have hlength : length? source (offset + before) = none := hnone
    have hclosed : ¬ IsClosed source (offset + before) := by simp [IsClosed, hlength]
    have hstop := stopAt_of_not_closed hclosed
    refine ⟨[offset + before], .next (Nat.le_add_right _ _) hopens hfirst ?_, ?_⟩
    · rw [hstop]
      refine .done fun s hs hopens => ?_
      have hle := hopens.add_le_length
      rw [length_opening] at hle
      omega
    · simp [foundAt, hclosed, hstop]
  | case3 consumed offset hlt before hbefore textStart rest length hlength next _ found ih =>
    obtain ⟨hopens, hfirst⟩ := first_opens hoffset hbefore
    have hlength : length? source (offset + before) = some length := hlength
    have hclosed : IsClosed source (offset + before) := by simp [IsClosed, hlength]
    have hstop : stopAt source (offset + before) = next := by
      unfold stopAt
      rw [hlength]
    obtain ⟨starts, hscans, hfound⟩ := ih (by omega)
    refine ⟨(offset + before) :: starts,
      .next (Nat.le_add_right _ _) hopens hfirst (hstop ▸ hscans), ?_⟩
    have htext : textAt source (offset + before) = rest.take length := by
      unfold textAt
      rw [hlength]
      rfl
    have hfound : found = foundAt source next starts := hfound
    rw [hfound]
    cases starts with
    | nil => simp [foundAt, hclosed, hstop, htext]
    | cons s starts => simp [foundAt, hclosed, htext, List.getLast?_cons]
  | case4 consumed offset hge =>
    refine ⟨[], .done fun s hs hopens => ?_, rfl⟩
    have hlast := hopens.last
    have hlength := hopens.add_le_length
    rw [length_opening] at hlast hlength
    omega

theorem Scans.opens {offset : Nat} {starts : List Nat} (h : Scans source r offset starts) :
    ∀ s ∈ starts, offset ≤ s ∧ Opens source r s := by
  induction h with
  | done _ => simp
  | @next offset s starts hle hs _ _ ih =>
    refine List.forall_mem_cons.mpr ⟨⟨hle, hs⟩, fun s' hs' => ?_⟩
    obtain ⟨hle', hopens⟩ := ih s' hs'
    exact ⟨hle.trans (hs.lt_stopAt.le.trans hle'), hopens⟩

theorem Scans.ascending {offset : Nat} {starts : List Nat} (h : Scans source r offset starts) :
    starts.Pairwise fun s s' => stopAt source s ≤ s' := by
  induction h with
  | done _ => exact .nil
  | next _ _ _ rest ih => exact List.pairwise_cons.mpr ⟨fun s' hs' => (rest.opens s' hs').1, ih⟩

/-- Where no other stretch opens a comment, a scan lists the comments of the text. -/
theorem Scans.outer_iff {offset : Nat} {starts : List Nat} (h : Scans source r offset starts)
    (hbefore : ∀ s < offset, Outer source stretches s → stopAt source s ≤ offset)
    (hopens : ∀ s, offset ≤ s → ((∃ r' ∈ stretches, Opens source r' s) ↔ Opens source r s))
    (hoffset : offset ≤ s) : Outer source stretches s ↔ s ∈ starts := by
  induction h generalizing s with
  | done hnone =>
    simp only [List.not_mem_nil, iff_false]
    intro houter
    exact hnone s hoffset ((hopens s hoffset).mp (Comment.outer_iff.mp houter).1)
  | @next offset first starts hle hfirst hnone rest ih =>
    have hskipped : ∀ s', offset ≤ s' → s' < first → ¬ Outer source stretches s' := by
      intro s' hs' hlt houter
      exact hnone s' hs' hlt ((hopens s' hs').mp (Comment.outer_iff.mp houter).1)
    have houterFirst : Outer source stretches first := by
      refine Comment.outer_iff.mpr ⟨(hopens first hle).mpr hfirst, fun s' hlt houter => ?_⟩
      by_cases hs' : offset ≤ s'
      · exact absurd houter (hskipped s' hs' hlt)
      · exact (hbefore s' (Nat.lt_of_not_le hs') houter).trans hle
    have hinside : ∀ s', first < s' → s' < stopAt source first → ¬ Outer source stretches s' := by
      intro s' hlt hstop houter
      have hreach := (Comment.outer_iff.mp houter).2 first hlt houterFirst
      omega
    have hlater : ∀ s' ∈ starts, stopAt source first ≤ s' := fun s' hs' => (rest.opens s' hs').1
    have hlt := hfirst.lt_stopAt
    by_cases hbehind : stopAt source first ≤ s
    · have hne : s ≠ first := by omega
      rw [List.mem_cons, or_iff_right hne]
      refine ih ?_ (fun s' hs' => hopens s' (by omega)) hbehind
      intro s' hs' houter
      by_cases hs'' : s' < offset
      · have := hbefore s' hs'' houter
        omega
      · rcases Nat.lt_trichotomy s' first with h | rfl | h
        · exact absurd houter (hskipped s' (Nat.le_of_not_lt hs'') h)
        · exact le_rfl
        · exact absurd houter (hinside s' h hs')
    · have hnot : s ∉ starts := fun hmem => hbehind (hlater s hmem)
      rw [List.mem_cons, or_iff_left hnot]
      constructor
      · intro houter
        rcases Nat.lt_trichotomy s first with h | h | h
        · exact absurd houter (hskipped s hoffset h)
        · exact h
        · exact absurd houter (hinside s h (Nat.lt_of_not_le hbehind))
      · rintro rfl
        exact houterFirst

/-! ## One scan after the other -/

/-- The starts of all comments in the stretches are known, and where the last one ended. -/
structure Scanned (source : List Char) (stretches : List Range) (starts : List Nat)
    (consumed : Nat) : Prop where
  mem : ∀ s, s ∈ starts ↔ Outer source stretches s
  ascending : starts.Pairwise fun s s' => stopAt source s ≤ s'
  consumed : consumed = (starts.getLast?.map (stopAt source)).getD 0

namespace Scanned

variable {starts : List Nat} {consumed : Nat}

theorem nil (source : List Char) : Scanned source [] [] 0 where
  mem s := by
    rw [outer_iff]
    simp
  ascending := .nil
  consumed := rfl

theorem lt_stopAt (h : Scanned source stretches starts consumed) (hs : s ∈ starts) :
    s < stopAt source s := by
  obtain ⟨⟨r, -, hopens⟩, -⟩ := outer_iff.mp ((h.mem s).mp hs)
  exact hopens.lt_stopAt

theorem stopAt_le (h : Scanned source stretches starts consumed) (hs : s ∈ starts) :
    stopAt source s ≤ consumed := by
  rw [h.consumed]
  have hascending := h.ascending
  rcases List.eq_nil_or_concat starts with rfl | ⟨front, last, rfl⟩
  · cases hs
  · rw [List.concat_eq_append] at hs hascending ⊢
    rw [List.getLast?_concat, Option.map_some, Option.getD_some]
    rcases List.mem_append.mp hs with hfront | hlast
    · have hle := (List.pairwise_append.mp hascending).2.2 s hfront last (by simp)
      have hlt := h.lt_stopAt (s := last) (by simp)
      omega
    · obtain rfl := List.mem_singleton.mp hlast
      exact le_rfl

/-- The last comment is the one that everything is behind of. -/
theorem exists_stopAt_eq (h : Scanned source stretches starts consumed) (hpos : 0 < consumed) :
    ∃ s ∈ starts, stopAt source s = consumed := by
  rw [h.consumed] at hpos ⊢
  cases hlast : starts.getLast? with
  | none => simp [hlast] at hpos
  | some s => exact ⟨s, List.mem_of_getLast? hlast, rfl⟩

/-- No opening mark is left behind the last comment: it would start another one. -/
theorem lt_consumed (h : Scanned source stretches starts consumed)
    (hs : ∃ r ∈ stretches, Opens source r s) : s < consumed := by
  by_contra hge
  have houter : Outer source stretches s := by
    refine outer_iff.mpr ⟨hs, fun s' _ houter => ?_⟩
    have := h.stopAt_le ((h.mem s').mpr houter)
    omega
  have hmem := (h.mem s).mpr houter
  have hstop := h.stopAt_le hmem
  have hlt := h.lt_stopAt hmem
  omega

/-- In front of the next stretch, and of the end of the last comment, that stretch changes nothing:
an opening mark of its own there is inside the last comment. -/
theorem outer_concat_iff (h : Scanned source stretches starts consumed)
    (horder : ∀ r' ∈ stretches, r'.start ≤ r.start) (hs : s < max r.start consumed) :
    Outer source (stretches ++ [r]) s ↔ Outer source stretches s := by
  induction s using Nat.strongRecOn with
  | _ s ih =>
    have hsame : (∀ s' < s, Outer source (stretches ++ [r]) s' → stopAt source s' ≤ s) ↔
        ∀ s' < s, Outer source stretches s' → stopAt source s' ≤ s := by
      refine forall_congr' fun s' => forall_congr' fun hlt => ?_
      rw [ih s' hlt (by omega)]
    rw [outer_iff, outer_iff, hsame]
    refine and_congr_left fun hreach => ?_
    constructor
    · rintro ⟨r', hr', hopens⟩
      rcases List.mem_append.mp hr' with hr' | hr'
      · exact ⟨r', hr', hopens⟩
      · obtain rfl := List.mem_singleton.mp hr'
        have hfirst := hopens.first
        obtain ⟨last, hlast, hstop⟩ := h.exists_stopAt_eq (by omega)
        have houter := (h.mem last).mp hlast
        have hle : s ≤ last := by
          by_contra hlt
          have := hreach last (Nat.lt_of_not_le hlt) houter
          omega
        obtain ⟨⟨r₀, hr₀, hopens₀⟩, -⟩ := outer_iff.mp houter
        have hstart := horder r₀ hr₀
        have hend := hopens₀.last
        exact ⟨r₀, hr₀, hstart.trans hfirst, by omega, hopens.mark⟩
    · rintro ⟨r', hr', hopens⟩
      exact ⟨r', List.mem_append_left _ hr', hopens⟩

/-- **One more stretch.** -/
theorem concat (h : Scanned source stretches starts consumed)
    (horder : ∀ r' ∈ stretches, r'.start ≤ r.start) {more : List Nat}
    (hscans : Scans source r (max r.start consumed) more) :
    Scanned source (stretches ++ [r]) (starts ++ more)
      ((more.getLast?.map (stopAt source)).getD consumed) := by
  have hbelow (s : Nat) (hs : s < max r.start consumed) :
      Outer source (stretches ++ [r]) s ↔ s ∈ starts :=
    (h.outer_concat_iff horder hs).trans (h.mem s).symm
  have habove (s : Nat) (hs : max r.start consumed ≤ s) :
      Outer source (stretches ++ [r]) s ↔ s ∈ more := by
    refine hscans.outer_iff (fun s' hs' houter => ?_) (fun s' hs' => ?_) hs
    · exact (h.stopAt_le ((hbelow s' hs').mp houter)).trans (le_max_right _ _)
    · constructor
      · rintro ⟨r', hr', hopens⟩
        rcases List.mem_append.mp hr' with hr' | hr'
        · have := h.lt_consumed ⟨r', hr', hopens⟩
          omega
        · obtain rfl := List.mem_singleton.mp hr'
          exact hopens
      · exact fun hopens => ⟨r, by simp, hopens⟩
  have hstarts (s : Nat) (hs : s ∈ starts) : s < max r.start consumed :=
    ((h.lt_stopAt hs).trans_le (h.stopAt_le hs)).trans_le (le_max_right _ _)
  have hmore (s : Nat) (hs : s ∈ more) : max r.start consumed ≤ s := (hscans.opens s hs).1
  refine ⟨fun s => ?_, ?_, ?_⟩
  · rw [List.mem_append]
    rcases Nat.lt_or_ge s (max r.start consumed) with hs | hs
    · rw [hbelow s hs]
      exact or_iff_left fun hmem => absurd (hmore s hmem) (Nat.not_le_of_lt hs)
    · rw [habove s hs]
      exact or_iff_right fun hmem => absurd (hstarts s hmem) (Nat.not_lt_of_le hs)
  · refine List.pairwise_append.mpr ⟨h.ascending, hscans.ascending, fun s hs s' hs' => ?_⟩
    exact (h.stopAt_le hs).trans ((le_max_right _ _).trans (hmore s' hs'))
  · rw [List.getLast?_append]
    cases more.getLast? with
    | none => exact h.consumed
    | some last => rfl

/-- A comment that does not end is the only one of its kind. -/
theorem filter_of_not_closed (h : Scanned source stretches starts consumed) (hs : s ∈ starts)
    (hopen : ¬ IsClosed source s) {p : Nat → Bool} (hp : ∀ s', p s' → ¬ IsClosed source s')
    (hps : p s) : starts.filter p = [s] := by
  obtain ⟨front, behind, rfl⟩ := List.append_of_mem hs
  obtain ⟨-, hbehind, hfront⟩ := List.pairwise_append.mp h.ascending
  have hend (s' : Nat) (hs' : s' ∈ front ++ s :: behind) : s' < source.length := by
    obtain ⟨⟨r, -, hopens⟩, -⟩ := outer_iff.mp ((h.mem s').mp hs')
    have := hopens.add_le_length
    rw [length_opening] at this
    omega
  have hstop := stopAt_of_not_closed hopen
  have hfirst : front.filter p = [] := by
    refine List.filter_eq_nil_iff.mpr fun s' hs' hp' => ?_
    have hle := hfront s' hs' s List.mem_cons_self
    rw [stopAt_of_not_closed (hp s' hp')] at hle
    exact absurd (hend s hs) (Nat.not_lt_of_le hle)
  have hlast : behind.filter p = [] := by
    refine List.filter_eq_nil_iff.mpr fun s' hs' _ => ?_
    have hle := (List.pairwise_cons.mp hbehind).1 s' hs'
    rw [hstop] at hle
    exact absurd (hend s' (by simp [hs'])) (Nat.not_lt_of_le hle)
  rw [List.filter_append, List.filter_cons_of_pos hps, hfirst, hlast]
  rfl

end Scanned

/-- Behind a comment that does not end a scan finds nothing. -/
theorem Scans.toList_unterminated {offset : Nat} {starts : List Nat}
    (h : Scans source r offset starts) (p : Nat → Bool) :
    ((starts.find? fun s => ¬ IsClosed source s).filter p).toList =
      starts.filter fun s => ¬ IsClosed source s ∧ p s := by
  induction h with
  | done _ => rfl
  | @next offset s starts _ _ _ rest ih =>
    by_cases hclosed : IsClosed source s
    · simpa [hclosed] using ih
    · have hnone : starts = [] := by
        refine List.eq_nil_iff_forall_not_mem.mpr fun s' hs' => ?_
        obtain ⟨hle, hopens⟩ := rest.opens s' hs'
        have hlength := hopens.add_le_length
        rw [stopAt_of_not_closed hclosed] at hle
        rw [length_opening] at hlength
        omega
      subst hnone
      cases hp : p s <;> simp [hclosed, hp]

end Comment

end Doctest
