import Doctest.Proofs.LocatorText
import Mathlib.Data.List.Sort

/-!
# The lines that locators name

* `Locator.Names`: the line that a locator names, said without a search and without a subtraction.
* `Locator.resolve_eq_ok`, `LineRange.resolve_eq_ok`, `LineSet.resolve_eq_ok`: what is resolved is what
  is named, and anything else is a fault.
* `LineSet.resolve_congr`: the order of ranges does not matter, nor how often one is given.
* `Locator.resolve_read`: all of this for locators that have been read.
-/

namespace Doctest

/-! ## Ascending lists -/

theorem mem_eraseReps {x : Nat} {xs : List Nat} : x ∈ xs.eraseReps ↔ x ∈ xs := by
  have hloop : ∀ (xs : List Nat) (a : Nat) (acc : List Nat),
      x ∈ List.eraseRepsBy.loop (· == ·) a xs acc ↔ x ∈ acc ∨ x ∈ a :: xs := by
    intro xs
    induction xs with
    | nil =>
      intro a acc
      simp [List.eraseRepsBy.loop, or_comm]
    | cons b xs ih =>
      intro a acc
      rw [List.eraseRepsBy.loop]
      split
      · next heq =>
        obtain rfl := beq_iff_eq.mp heq
        simp [ih]
      · rw [ih]
        simp only [List.mem_cons]
        grind
  cases xs with
  | nil => exact Iff.rfl
  | cons a xs => exact (hloop xs a []).trans (by simp)

/-- Without repetitions an ascending list ascends strictly. -/
theorem pairwise_eraseReps {xs : List Nat} (h : xs.Pairwise (· ≤ ·)) :
    xs.eraseReps.Pairwise (· < ·) := by
  -- What has been kept so far is in descending order and below the present entry.
  have hloop : ∀ (xs : List Nat) (a : Nat) (acc : List Nat), (a :: xs).Pairwise (· ≤ ·) →
      (a :: acc).Pairwise (· > ·) →
      (List.eraseRepsBy.loop (· == ·) a xs acc).Pairwise (· < ·) := by
    intro xs
    induction xs with
    | nil =>
      intro a acc _ hacc
      exact List.pairwise_reverse.mpr hacc
    | cons b xs ih =>
      intro a acc hxs hacc
      rw [List.eraseRepsBy.loop]
      split
      · next heq =>
        obtain rfl := beq_iff_eq.mp heq
        exact ih a acc hxs.tail hacc
      · next hne =>
        have hle : a ≤ b := List.rel_of_pairwise_cons hxs List.mem_cons_self
        have hlt : a < b := Nat.lt_of_le_of_ne hle (by simpa using hne)
        refine ih b (a :: acc) hxs.tail (List.pairwise_cons.mpr ⟨fun x hx => ?_, hacc⟩)
        rcases List.mem_cons.mp hx with rfl | hx
        · exact hlt
        · exact Nat.lt_trans (List.rel_of_pairwise_cons hacc hx) hlt
  cases xs with
  | nil => exact .nil
  | cons a xs => exact hloop xs a [] h (List.pairwise_singleton _ _)

/-! ## One locator -/

namespace Locator

/-- The line that a locator names, by its number. -/
inductive Names (lines : Lines) : Locator → Nat → Prop
  | fromStart {k : Nat} (hlow : 1 ≤ k) (hhigh : k ≤ lines.length) : Names lines (.number k) k
  /-- Counted from the last line, which is `-1`. -/
  | fromEnd {j k : Nat} (hlow : 1 ≤ k) (hhigh : k ≤ lines.length) (hsum : j + k = lines.length + 1) :
      Names lines (.number (-k)) j
  /-- Lines in front of the first one that contains the fragment do not contain it. -/
  | first {t line : String} {front back : Lines} (hlines : lines = front ++ line :: back)
      (hline : t.toList <:+: line.toList) (hfront : ∀ l ∈ front, ¬ t.toList <:+: l.toList) :
      Names lines (.fragment t) (front.length + 1)

variable {lines : Lines} {locator : Locator} {k : Nat}

theorem Names.bounds (h : locator.Names lines k) : 1 ≤ k ∧ k ≤ lines.length := by
  cases h with
  | fromStart hlow hhigh => exact ⟨hlow, hhigh⟩
  | fromEnd hlow hhigh hsum => omega
  | first hlines hline hfront =>
    rw [hlines, List.length_append, List.length_cons]
    omega

/-- A number finds a line if it counts no further than there are lines. -/
theorem resolve_number_eq_ok {n : Int} (hn : n ≠ 0) :
    (number n).resolve lines = .ok k ↔ (number n).Names lines k := by
  constructor
  · intro h
    unfold resolve at h
    dsimp only at h
    split at h
    · next hpositive =>
      split at h
      · next hle =>
        cases h
        obtain ⟨m, rfl⟩ : ∃ m : Nat, n = m := ⟨n.toNat, by omega⟩
        exact .fromStart (by omega) (by omega)
      · cases h
    · next hnegative =>
      obtain ⟨m, rfl⟩ : ∃ m : Nat, n = -m := ⟨n.natAbs, by omega⟩
      rw [Int.natAbs_neg, Int.natAbs_natCast] at h
      split at h
      · next hle =>
        cases h
        exact .fromEnd (by omega) hle (by omega)
      · cases h
  · intro h
    unfold resolve
    dsimp only
    cases h with
    | fromStart hlow hhigh =>
      rw [if_pos (by omega), if_pos (by omega), Int.toNat_natCast]
    | fromEnd hlow hhigh hsum =>
      rw [if_neg (by omega), Int.natAbs_neg, Int.natAbs_natCast, if_pos hhigh]
      congr 1
      omega

theorem resolve_fragment_eq_ok {t : String} :
    (fragment t).resolve lines = .ok k ↔ (fragment t).Names lines k := by
  let found (line : String) : Bool := Text.contains t.toList line.toList
  constructor
  · intro h
    unfold resolve at h
    dsimp only at h
    split at h
    · next i hfind =>
      cases h
      obtain ⟨hi, hline, hfront⟩ := List.findIdx?_eq_some_iff_getElem.mp hfind
      have hlines : lines = lines.take i ++ lines[i] :: lines.drop (i + 1) := by
        rw [List.getElem_cons_drop, List.take_append_drop]
      have hlength : (lines.take i).length = i := List.length_take_of_le (Nat.le_of_lt hi)
      have hnames : (fragment t).Names lines ((lines.take i).length + 1) := by
        refine .first hlines (Text.contains_iff.mp hline) fun l hl hcontains => ?_
        obtain ⟨j, hj, rfl⟩ := List.mem_take_iff_getElem.mp hl
        exact hfront j (by omega) (Text.contains_iff.mpr hcontains)
      rwa [hlength] at hnames
    · cases h
  · intro h
    cases h with
    | @first _ line front back hlines hline hfront =>
      have hnone : front.findIdx? found = none :=
        List.findIdx?_eq_none_iff.mpr fun l hl =>
          Bool.eq_false_iff.mpr fun hl' => hfront l hl (Text.contains_iff.mp hl')
      have hfind : lines.findIdx? found = some front.length := by
        rw [hlines, List.findIdx?_append, hnone, List.findIdx?_cons,
          if_pos (Text.contains_iff.mpr hline)]
        simp
      unfold resolve
      dsimp only
      rw [hfind]

/-- A locator finds the line that it names, and no other is found. -/
theorem resolve_eq_ok (h : locator ≠ .number 0) :
    locator.resolve lines = .ok k ↔ locator.Names lines k := by
  cases locator with
  | number n => exact resolve_number_eq_ok fun hn => h (congrArg number hn)
  | fragment t => exact resolve_fragment_eq_ok

end Locator

/-! ## Ranges and sets -/

/-- A range names all lines from one to another. -/
inductive LineRange.Spans (lines : Lines) : LineRange → Nat → Nat → Prop
  | single {locator : Locator} {k : Nat} (h : locator.Names lines k) :
      Spans lines (.single locator) k k
  | span {first last : Locator} {a b : Nat} (hfirst : first.Names lines a)
      (hlast : last.Names lines b) (hle : a ≤ b) : Spans lines (.span first last) a b

theorem LineRange.Spans.bounds {lines : Lines} {range : LineRange} {a b : Nat}
    (h : range.Spans lines a b) : 1 ≤ a ∧ a ≤ b ∧ b ≤ lines.length := by
  cases h with
  | single h => exact ⟨h.bounds.1, Nat.le_refl _, h.bounds.2⟩
  | span hfirst hlast hle => exact ⟨hfirst.bounds.1, hle, hlast.bounds.2⟩

theorem LineRange.resolve_eq_ok {lines : Lines} {range : LineRange} {numbers : List Nat}
    (h : ∀ l ∈ range.locators, l ≠ .number 0) :
    range.resolve lines = .ok numbers ↔
      ∃ a b, range.Spans lines a b ∧ numbers = List.range' a (b + 1 - a) := by
  cases range with
  | single locator =>
    have hlocator : ∀ {k}, locator.resolve lines = .ok k ↔ locator.Names lines k :=
      Locator.resolve_eq_ok (h locator List.mem_cons_self)
    constructor
    · intro hresolve
      obtain ⟨k, hk, hnumbers⟩ := bind_eq_ok.mp hresolve
      cases hnumbers
      refine ⟨k, k, .single (hlocator.mp hk), ?_⟩
      rw [Nat.add_sub_cancel_left]
      rfl
    · rintro ⟨_, _, ⟨hk⟩, rfl⟩
      refine bind_eq_ok.mpr ⟨_, hlocator.mpr hk, ?_⟩
      rw [Nat.add_sub_cancel_left]
      rfl
  | span first last =>
    obtain ⟨hfirst, hlast⟩ := List.forall_mem_cons.mp h
    have hfirst' : ∀ {k}, first.resolve lines = .ok k ↔ first.Names lines k :=
      Locator.resolve_eq_ok hfirst
    have hlast' : ∀ {k}, last.resolve lines = .ok k ↔ last.Names lines k :=
      Locator.resolve_eq_ok (hlast last List.mem_cons_self)
    constructor
    · intro hresolve
      obtain ⟨a, ha, hresolve⟩ := bind_eq_ok.mp hresolve
      obtain ⟨b, hb, hresolve⟩ := bind_eq_ok.mp hresolve
      split at hresolve
      · cases hresolve
      · next hle =>
        cases hresolve
        exact ⟨a, b, .span (hfirst'.mp ha) (hlast'.mp hb) (Nat.le_of_not_lt hle), rfl⟩
    · rintro ⟨a, b, hspans, rfl⟩
      cases hspans with
      | span ha hb hle =>
        refine bind_eq_ok.mpr ⟨a, hfirst'.mpr ha, bind_eq_ok.mpr ⟨b, hlast'.mpr hb, ?_⟩⟩
        rw [if_neg (Nat.not_lt_of_le hle)]
        rfl

namespace LineSet

variable {lines : Lines} {set : LineSet} {numbers : List Nat}

/-- The line belongs to one of the ranges. -/
def Names (lines : Lines) (set : LineSet) (n : Nat) : Prop :=
  ∃ range ∈ set, ∃ a b, range.Spans lines a b ∧ a ≤ n ∧ n ≤ b

theorem Names.bounds {n : Nat} (h : set.Names lines n) : 1 ≤ n ∧ n ≤ lines.length := by
  obtain ⟨range, -, a, b, hspans, ha, hb⟩ := h
  obtain ⟨hlow, -, hhigh⟩ := hspans.bounds
  exact ⟨Nat.le_trans hlow ha, Nat.le_trans hb hhigh⟩

theorem resolve_of_mem (h : ∀ l ∈ set.flatMap LineRange.locators, l ≠ .number 0) {range : LineRange}
    (hmem : range ∈ set) : range.resolve lines = .ok numbers ↔
      ∃ a b, range.Spans lines a b ∧ numbers = List.range' a (b + 1 - a) :=
  LineRange.resolve_eq_ok fun l hl => h l (List.mem_flatMap.mpr ⟨range, hmem, hl⟩)

/-- The numbers that are found are the lines that the ranges name, in ascending order. -/
theorem named_of_resolve (h : ∀ l ∈ set.flatMap LineRange.locators, l ≠ .number 0)
    (hresolve : set.resolve lines = .ok numbers) :
    (∀ range ∈ set, ∃ a b, range.Spans lines a b) ∧
      numbers.Pairwise (· < ·) ∧ ∀ n, n ∈ numbers ↔ set.Names lines n := by
  obtain ⟨found, hfound, hnumbers⟩ := bind_eq_ok.mp hresolve
  obtain ⟨g, hg, rfl⟩ := mapM_eq_ok.mp hfound
  cases hnumbers
  refine ⟨fun range hmem => ?_, pairwise_eraseReps ?_, fun n => ?_⟩
  · obtain ⟨a, b, hspans, -⟩ := (resolve_of_mem h hmem).mp (hg range hmem)
    exact ⟨a, b, hspans⟩
  · exact List.pairwise_mergeSort' (· ≤ ·) _
  · rw [mem_eraseReps, List.mem_mergeSort, List.mem_flatten]
    constructor
    · rintro ⟨_, hfound, hn⟩
      obtain ⟨range, hmem, rfl⟩ := List.mem_map.mp hfound
      obtain ⟨a, b, hspans, heq⟩ := (resolve_of_mem h hmem).mp (hg range hmem)
      rw [heq, List.mem_range'_1] at hn
      exact ⟨range, hmem, a, b, hspans, hn.1, by omega⟩
    · rintro ⟨range, hmem, a, b, hspans, ha, hb⟩
      have hsame := (resolve_of_mem h hmem).mpr ⟨a, b, hspans, rfl⟩
      rw [hg range hmem] at hsame
      refine ⟨g range, List.mem_map_of_mem hmem, ?_⟩
      rw [Except.ok.inj hsame, List.mem_range'_1]
      omega

theorem exists_resolve (h : ∀ l ∈ set.flatMap LineRange.locators, l ≠ .number 0)
    (hspans : ∀ range ∈ set, ∃ a b, range.Spans lines a b) :
    ∃ numbers, set.resolve lines = .ok numbers := by
  have hrange : ∀ range ∈ set,
      range.resolve lines = .ok ((range.resolve lines).toOption.getD []) := by
    intro range hmem
    obtain ⟨a, b, hspans⟩ := hspans range hmem
    rw [(resolve_of_mem h hmem).mpr ⟨a, b, hspans, rfl⟩]
    rfl
  exact ⟨_, bind_eq_ok.mpr ⟨_, mapM_eq_ok.mpr ⟨_, hrange, rfl⟩, rfl⟩⟩

/-- A set is resolved if all its ranges are, and then to the lines that they name. -/
theorem resolve_eq_ok (h : ∀ l ∈ set.flatMap LineRange.locators, l ≠ .number 0) :
    set.resolve lines = .ok numbers ↔
      (∀ range ∈ set, ∃ a b, range.Spans lines a b) ∧
        numbers.Pairwise (· < ·) ∧ ∀ n, n ∈ numbers ↔ set.Names lines n := by
  constructor
  · exact named_of_resolve h
  · rintro ⟨hspans, hsorted, hmem⟩
    obtain ⟨found, hfound⟩ := exists_resolve h hspans
    obtain ⟨-, hsorted', hmem'⟩ := named_of_resolve h hfound
    rw [hfound, hsorted'.eq_of_mem_iff hsorted fun n => (hmem' n).trans (hmem n).symm]

/-- Only the ranges of a set count, neither their order nor how often one is given. -/
theorem resolve_congr {set' : LineSet} (h : ∀ l ∈ set.flatMap LineRange.locators, l ≠ .number 0)
    (hmem : ∀ range, range ∈ set' ↔ range ∈ set) :
    set'.resolve lines = .ok numbers ↔ set.resolve lines = .ok numbers := by
  have h' : ∀ l ∈ set'.flatMap LineRange.locators, l ≠ .number 0 := by
    intro l hl
    obtain ⟨range, hrange, hl⟩ := List.mem_flatMap.mp hl
    exact h l (List.mem_flatMap.mpr ⟨range, (hmem range).mp hrange, hl⟩)
  have hnames : ∀ n, set'.Names lines n ↔ set.Names lines n := fun n =>
    exists_congr fun range => and_congr_left fun _ => hmem range
  rw [resolve_eq_ok h', resolve_eq_ok h]
  simp only [hmem, hnames]

end LineSet

/-- **Locators resolve to the lines that they name.** A number or fragment that has been read resolves
if and only if it names a line, and to this line alone. A range resolves if and only if it names a
first line and a last one behind or at it, a set if and only if all its ranges do. What is found are
exactly the lines that the ranges name, in ascending order, all of them lines that exist. Which ranges
a set has is all that counts. -/
theorem Locator.resolve_read (lines : Lines) :
    (∀ key written set, LineSet.parse key written = .ok set →
      (∀ l ∈ set.flatMap LineRange.locators, ∀ k, l.resolve lines = .ok k ↔ l.Names lines k) ∧
      (∀ range ∈ set, ∀ numbers, range.resolve lines = .ok numbers ↔
        ∃ a b, range.Spans lines a b ∧ numbers = List.range' a (b + 1 - a)) ∧
      ((∃ numbers, set.resolve lines = .ok numbers) ↔
        ∀ range ∈ set, ∃ numbers, range.resolve lines = .ok numbers) ∧
      (∀ numbers, set.resolve lines = .ok numbers → numbers.Pairwise (· < ·) ∧
        ∀ n, (n ∈ numbers ↔ set.Names lines n) ∧ (n ∈ numbers → 1 ≤ n ∧ n ≤ lines.length)) ∧
      ∀ set' : LineSet, (∀ range, range ∈ set' ↔ range ∈ set) → ∀ numbers,
        set'.resolve lines = .ok numbers ↔ set.resolve lines = .ok numbers) ∧
    ∀ key written points, InsertionPoint.parseList key written = .ok points → ∀ p ∈ points, ∀ k,
      (p.locator.resolve lines = .ok k ↔ p.locator.Names lines k) ∧
      (p.locator.resolve lines = .ok k → 1 ≤ k ∧ k ≤ lines.length) := by
  constructor
  · intro key written set hparse
    have hzero : ∀ l ∈ set.flatMap LineRange.locators, l ≠ .number 0 := fun l hl =>
      (LineSet.writable_of_parse hparse l hl).ne_zero
    refine ⟨fun l hl _ => resolve_eq_ok (hzero l hl),
      fun range hmem _ => LineSet.resolve_of_mem hzero hmem, ⟨?_, fun hall => ?_⟩,
      fun numbers hnumbers => ?_, fun set' hmem _ => LineSet.resolve_congr hzero hmem⟩
    · rintro ⟨numbers, hnumbers⟩ range hmem
      obtain ⟨a, b, hspans⟩ := ((LineSet.resolve_eq_ok hzero).mp hnumbers).1 range hmem
      exact ⟨_, (LineSet.resolve_of_mem hzero hmem).mpr ⟨a, b, hspans, rfl⟩⟩
    · refine LineSet.exists_resolve hzero fun range hmem => ?_
      obtain ⟨numbers, hnumbers⟩ := hall range hmem
      obtain ⟨a, b, hspans, -⟩ := (LineSet.resolve_of_mem hzero hmem).mp hnumbers
      exact ⟨a, b, hspans⟩
    · obtain ⟨-, hsorted, hnames⟩ := (LineSet.resolve_eq_ok hzero).mp hnumbers
      exact ⟨hsorted, fun n => ⟨hnames n, fun hn => ((hnames n).mp hn).bounds⟩⟩
  · intro key written points hparse p hp k
    have hresolve : p.locator.resolve lines = .ok k ↔ p.locator.Names lines k :=
      resolve_eq_ok ((InsertionPoint.writable_of_parseList hparse).2 p hp).ne_zero
    exact ⟨hresolve, fun h => (hresolve.mp h).bounds⟩

/-- A line that is given twice, and a range from the end to a fragment. -/
def mixedEnds : LineSet :=
  [.single (.number 1), .single (.number 1), .span (.number (-3)) (.fragment "c")]

theorem Locator.resolve_read_mixedEnds :
    LineSet.parse "ignoreLines" "1, 1, -3..'c'" = .ok mixedEnds ∧
      mixedEnds.resolve ["ab", "b", "bc", "cd"] = .ok [1, 2, 3] ∧
      LineSet.resolve mixedEnds.reverse ["ab", "b", "bc", "cd"] = .ok [1, 2, 3] := by
  have hparse : LineSet.parse "ignoreLines" "1, 1, -3..'c'" = .ok mixedEnds :=
    toOption_eq_some.mp (by decide +kernel)
  have hresolve : mixedEnds.resolve ["ab", "b", "bc", "cd"] = .ok [1, 2, 3] := by
    have hsorted : [[1], [1], [2, 3]].flatten.mergeSort = [1, 1, 2, 3] :=
      List.mergeSort_of_pairwise (by decide)
    refine bind_eq_ok.mpr ⟨[[1], [1], [2, 3]], toOption_eq_some.mp (by decide), ?_⟩
    rw [hsorted]
    rfl
  obtain ⟨-, -, -, -, hcongr⟩ := (resolve_read ["ab", "b", "bc", "cd"]).1 _ _ _ hparse
  exact ⟨hparse, hresolve, (hcongr mixedEnds.reverse (fun _ => List.mem_reverse) _).mpr hresolve⟩

end Doctest
