import Doctest.Proofs.SubstitutionText

/-!
# Matches that follow each other

With the flag `y` a substitution searches for its matches in a loop of its own, which stops at the first
gap. Here the matches that it finds are compared with those that a substitution without the flag
replaces.

* `Regex.noted_findFrom?`: a match notes no place in front of the one from where it is searched, and
  none behind the end of the text.
* `Adjacent`, `LongestRun`: leading matches that are not empty and leave no gap, as many as there are.
* `longestRun_adjacentMatches`: the loop finds them, and never because its fuel is spent.
* `apply_sticky`: what a substitution with the flag makes of a line.
-/

namespace Doctest

/-! ## Where matches are -/

namespace Regex

variable {low high place fuel remaining start : Nat} {slots : Slots} {re : Regex}
  {program : Array Instruction} {text : Array Char} {stack threads : List Thread}

/-- All places that are noted lie between two places. -/
def Noted (low high : Nat) (slots : Slots) : Prop :=
  ∀ i p : Nat, slots[i]? = some (some p) → low ≤ p ∧ p ≤ high

theorem Noted.mono {high' : Nat} (h : Noted low high slots) (hle : high ≤ high') :
    Noted low high' slots :=
  fun i p hp => ⟨(h i p hp).1, (h i p hp).2.trans hle⟩

theorem noted_replicate (low high n : Nat) : Noted low high (Array.replicate n none) := by
  intro i p hp
  rw [Array.getElem?_replicate] at hp
  split at hp <;> cases hp

theorem Noted.set (h : Noted low place slots) (hlow : low ≤ place) (slot : Nat) :
    Noted low place (slots.setIfInBounds slot (some place)) := by
  intro i p hp
  rw [Array.getElem?_setIfInBounds] at hp
  split at hp
  · split at hp
    · cases hp
      exact ⟨hlow, Nat.le_refl _⟩
    · cases hp
  · exact h i p hp

/-- Following threads notes no place but the present one. -/
theorem noted_follow (hlow : low ≤ place) (visited : Array Bool)
    (h : ∀ t ∈ stack, Noted low place t.slots) :
    ∀ t ∈ follow program text place fuel stack visited, Noted low place t.slots := by
  induction fuel generalizing stack visited with
  | zero =>
    rw [follow]
    simp
  | succ fuel ih =>
    cases stack with
    | nil =>
      rw [follow]
      · simp
      · simp
    | cons t stack =>
      obtain ⟨ht, hstack⟩ := List.forall_mem_cons.mp h
      rw [follow]
      split
      · exact ih _ hstack
      · split
        · exact ih _ hstack
        · exact List.forall_mem_cons.mpr ⟨ht, ih _ hstack⟩
        · exact List.forall_mem_cons.mpr ⟨ht, ih _ hstack⟩
        · split
          · exact ih _ (List.forall_mem_cons.mpr ⟨ht, hstack⟩)
          · exact ih _ hstack
        · exact ih _ (List.forall_mem_cons.mpr ⟨ht.set hlow _, hstack⟩)
        · exact ih _ (List.forall_mem_cons.mpr ⟨ht, hstack⟩)
        · exact ih _ (List.forall_mem_cons.mpr ⟨ht, List.forall_mem_cons.mpr ⟨ht, hstack⟩⟩)

theorem noted_advance (program : Array Instruction) (c? : Option Char) {found : Option Slots}
    (h : ∀ t ∈ threads, Noted low high t.slots) (hfound : ∀ slots ∈ found, Noted low high slots) :
    (∀ t ∈ (advance program c? found threads).1, Noted low high t.slots) ∧
      ∀ slots ∈ (advance program c? found threads).2, Noted low high slots := by
  induction threads with
  | nil =>
    rw [advance]
    exact ⟨by simp, hfound⟩
  | cons t threads ih =>
    obtain ⟨ht, hthreads⟩ := List.forall_mem_cons.mp h
    obtain ⟨hmoved, hlater⟩ := ih hthreads
    unfold advance
    split
    · exact ⟨by simp, by simpa using ht⟩
    · dsimp only
      split
      · exact ⟨List.forall_mem_cons.mpr ⟨ht, hmoved⟩, hlater⟩
      · exact ⟨hmoved, hlater⟩
    · exact ⟨hmoved, hlater⟩

/-- A round moves the threads over one character. -/
theorem noted_round {visited : Array Bool} {moved : List Thread} {found found' : Option Slots}
    (hlow : low ≤ place) (h : ∀ t ∈ stack, Noted low place t.slots)
    (hfound : ∀ slots ∈ found, Noted low place slots)
    (hround : advance program text[place]? found (follow program text place fuel stack visited) =
      (moved, found')) :
    (∀ t ∈ moved, Noted low place t.slots) ∧ ∀ slots ∈ found', Noted low place slots := by
  have hfollow : ∀ t ∈ follow program text place fuel stack visited, Noted low place t.slots :=
    noted_follow hlow visited h
  have hadvance := noted_advance program text[place]? hfollow hfound
  rwa [hround] at hadvance

theorem noted_run {found : Option Slots} (hlow : low ≤ place)
    (h : ∀ t ∈ threads, Noted low place t.slots) (hfound : ∀ slots ∈ found, Noted low place slots) :
    ∀ slots ∈ run re text remaining place threads found, Noted low (place + remaining) slots := by
  have hstack : ∀ {place : Nat} {threads : List Thread} {found : Option Slots},
      (∀ t ∈ threads, Noted low place t.slots) →
      ∀ t ∈ if found.isNone then threads ++ [⟨0, Array.replicate (2 * re.groups + 2) none⟩] else threads,
        Noted low place t.slots := by
    intro place threads found h
    split
    · exact List.forall_mem_append.mpr
        ⟨h, List.forall_mem_singleton.mpr (noted_replicate low place _)⟩
    · exact h
  fun_induction run re text remaining place threads found with
  | case1 remaining place threads found =>
    exact fun slots hslots => (hfound slots hslots).mono (Nat.le_add_right _ _)
  | case2 place threads found _ _ _ _ _ moved found' hround =>
    exact (noted_round hlow (hstack h) hfound hround).2
  | case3 place threads found _ _ _ _ _ moved found' hround remaining ih =>
    obtain ⟨hmoved, hlater⟩ := noted_round hlow (hstack h) hfound hround
    have hnext := ih (Nat.le_succ_of_le hlow) (fun t ht => (hmoved t ht).mono (Nat.le_succ _))
      fun slots hslots => (hlater slots hslots).mono (Nat.le_succ _)
    rwa [Nat.add_right_comm] at hnext

/-- A match is found in the part of the text that is searched. -/
theorem noted_findFrom? (h : re.findFrom? text start = some slots) : Noted start text.size slots := by
  unfold findFrom? at h
  split at h
  · next hstart =>
    have hnoted := noted_run (Nat.le_refl start) (by simp) (by simp) slots h
    rwa [Nat.add_sub_cancel' hstart] at hnoted
  · cases h

/-- Where a group of a match is. -/
theorem span?_bounds {group a b : Nat} (h : re.findFrom? text start = some slots)
    (hspan : span? slots group = some (a, b)) :
    start ≤ a ∧ a ≤ text.size ∧ start ≤ b ∧ b ≤ text.size := by
  have hnoted := noted_findFrom? h
  unfold span? at hspan
  split at hspan
  · next ha hb =>
    cases hspan
    obtain ⟨ha₁, ha₂⟩ := hnoted _ _ ha
    obtain ⟨hb₁, hb₂⟩ := hnoted _ _ hb
    exact ⟨ha₁, ha₂, hb₁, hb₂⟩
  · cases hspan

end Regex

/-! ## Leading matches without a gap -/

namespace Substitution

open Regex (Slots span? span?_bounds)

variable {start stop : Nat} {all run : List Slots} {text : Array Char} {s : Substitution}

/-- Matches that are not empty and of which each one starts where the one before it ends. The first one
starts at `start`, and the last one ends at `stop`. -/
inductive Adjacent : (start : Nat) → List Slots → (stop : Nat) → Prop
  | nil (start : Nat) : Adjacent start [] start
  | cons {start next stop : Nat} {slots : Slots} {more : List Slots}
      (hspan : span? slots 0 = some (start, next)) (hlt : start < next)
      (h : Adjacent next more stop) : Adjacent start (slots :: more) stop

/-- The first matches of all, as long as they leave no gap. -/
structure LongestRun (start : Nat) (all run : List Slots) (stop : Nat) : Prop where
  first : run <+: all
  adjacent : Adjacent start run stop
  longest : ∀ run' stop', run' <+: all → Adjacent start run' stop' → run' <+: run

theorem Adjacent.stop_unique {stop' : Nat} (h : Adjacent start run stop)
    (h' : Adjacent start run stop') : stop = stop' := by
  induction h with
  | nil =>
    cases h'
    rfl
  | cons hspan _ _ ih =>
    cases h' with
    | cons hspan' _ h' =>
      rw [hspan] at hspan'
      cases hspan'
      exact ih h'

theorem LongestRun.unique {run' : List Slots} {stop' : Nat} (h : LongestRun start all run stop)
    (h' : LongestRun start all run' stop') : run = run' ∧ stop = stop' := by
  have heq : run = run' :=
    (h'.longest run stop h.first h.adjacent).eq_of_length_le
      (h.longest run' stop' h'.first h'.adjacent).length_le
  subst heq
  exact ⟨rfl, h.adjacent.stop_unique h'.adjacent⟩

/-- The run ends at once if the first match is empty or leaves a gap. -/
theorem longestRun_nil
    (h : ∀ slots more next, all = slots :: more → span? slots 0 = some (start, next) → next ≤ start) :
    LongestRun start all [] start := by
  refine ⟨List.nil_prefix, .nil start, fun run' stop' hfirst hadjacent => ?_⟩
  cases hadjacent with
  | nil => exact List.nil_prefix
  | cons hspan hlt _ =>
    obtain ⟨more, hall⟩ := hfirst
    exact absurd (h _ _ _ hall.symm hspan) (Nat.not_le_of_lt hlt)

theorem LongestRun.cons {slots : Slots} {next : Nat} (hspan : span? slots 0 = some (start, next))
    (hlt : start < next) (h : LongestRun next all run stop) :
    LongestRun start (slots :: all) (slots :: run) stop := by
  refine ⟨(List.prefix_cons_inj slots).mpr h.first, .cons hspan hlt h.adjacent,
    fun run' stop' hfirst hadjacent => ?_⟩
  cases hadjacent with
  | nil => exact List.nil_prefix
  | cons hspan' _ hadjacent =>
    obtain ⟨rfl, hmore⟩ := List.cons_prefix_cons.mp hfirst
    rw [hspan] at hspan'
    cases hspan'
    exact (List.prefix_cons_inj _).mpr (h.longest _ _ hmore hadjacent)

/-- What the search for all matches finds first. It passes over an empty match right behind the last
one, and what it finds instead leaves a gap. -/
theorem matchesFrom_cons {re : Regex} {a b : Nat} {slots : Slots} (fuel : Nat) (last : Option Nat)
    (hfind : re.findFrom? text start = some slots) (hspan : span? slots 0 = some (a, b)) :
    re.matchesFrom text (fuel + 1) start last = slots :: re.matchesFrom text fuel b (some b) ∨
      a = b ∧ ∀ slots' more next, re.matchesFrom text (fuel + 1) start last = slots' :: more →
        span? slots' 0 ≠ some (start, next) := by
  rw [Regex.matchesFrom, hfind]
  simp only [hspan]
  split
  · next hpassed =>
    simp only [Bool.and_eq_true, decide_eq_true_eq] at hpassed
    refine .inr ⟨hpassed.1, fun slots' more next hall hnext => ?_⟩
    split at hall
    · cases hall
    · next hfind' =>
      split at hall
      · cases hall
      · cases hall
        have hbounds := span?_bounds hfind' hnext
        omega
  · exact .inl rfl

/-- The loop finds the leading matches without a gap, and it needs no more fuel than there are
characters. -/
theorem longestRun_adjacentMatches {fuel fuel' : Nat} (last : Option Nat)
    (hstart : start ≤ text.size) (hfuel : text.size < start + fuel)
    (hfuel' : text.size < start + fuel') :
    ∃ stop, LongestRun start (s.regex.matchesFrom text fuel start last)
      (s.adjacentMatches text fuel' start) stop := by
  induction fuel generalizing fuel' start last with
  | zero => omega
  | succ fuel ih =>
    obtain ⟨fuel', rfl⟩ : ∃ n, fuel' = n + 1 := ⟨fuel' - 1, by omega⟩
    cases hfind : s.regex.findFrom? text start with
    | none =>
      rw [Regex.matchesFrom, adjacentMatches, hfind]
      exact ⟨start, longestRun_nil (by rintro _ _ _ ⟨⟩)⟩
    | some slots =>
      cases hspan : span? slots 0 with
      | none =>
        rw [Regex.matchesFrom, adjacentMatches, hfind]
        simp only [hspan]
        exact ⟨start, longestRun_nil (by rintro _ _ _ ⟨⟩)⟩
      | some place =>
        obtain ⟨a, b⟩ := place
        have hbounds := span?_bounds hfind hspan
        have hloop : s.adjacentMatches text (fuel' + 1) start =
            if a ≠ start || b = start then [] else slots :: s.adjacentMatches text fuel' b := by
          rw [adjacentMatches, hfind]
          simp only [hspan]
        by_cases hnext : a = start ∧ start < b
        · obtain ⟨rfl, hlt⟩ := hnext
          have hcons := (matchesFrom_cons fuel last hfind hspan).resolve_right fun h => hlt.ne h.1
          obtain ⟨stop, hrun⟩ : ∃ stop, LongestRun b (s.regex.matchesFrom text fuel b (some b))
              (s.adjacentMatches text fuel' b) stop :=
            ih (some b) hbounds.2.2.2 (by omega) (by omega)
          rw [hloop, if_neg (by simpa using hlt.ne'), hcons]
          exact ⟨stop, hrun.cons hspan hlt⟩
        · rw [hloop, if_pos (by simp; omega)]
          refine ⟨start, longestRun_nil fun slots' more next hall hspan' => ?_⟩
          rcases matchesFrom_cons fuel last hfind hspan with hcons | ⟨-, hgap⟩
          · rw [hcons] at hall
            cases hall
            rw [hspan] at hspan'
            cases hspan'
            omega
          · exact absurd hspan' (hgap slots' more next hall)

/-! ## What is replaced -/

theorem toList_extract_size (text : Array Char) (start : Nat) :
    (text.extract start text.size).toList = text.toList.drop start := by
  rw [Array.toList_extract, List.extract_eq_take_drop]
  exact List.take_of_length_le (by simp)

/-- Between matches without a gap nothing is kept. -/
theorem splice_adjacent (h : Adjacent start run stop) :
    s.splice text start run = run.flatMap (s.expansion text) ++ text.toList.drop stop := by
  induction h with
  | nil start => exact toList_extract_size text start
  | @cons start _ _ _ _ hspan _ _ ih =>
    have hgap : (text.extract start start).toList = [] := by simp
    rw [splice, hspan]
    dsimp only
    rw [ih, hgap, List.nil_append, List.flatMap_cons, List.append_assoc]

/-- The same substitution without the flag `y`: it replaces every match. -/
def everywhere (s : Substitution) : Substitution := { s with flags := s.flags.filter (· ≠ 'y') }

theorem parse_everywhere {key text : String} (h : parse key text = .ok s) :
    parse key s.everywhere.text = .ok s.everywhere := by
  obtain ⟨-, hsource, hreplacement, hflags, hregex⟩ := parse_eq_ok_iff.mp h
  have hcaseless : s.everywhere.flags.contains 'i' = s.flags.contains 'i' := by
    rw [Bool.eq_iff_iff]
    simp [everywhere]
  refine parse_eq_ok_iff.mpr ⟨rfl, hsource, hreplacement, fun c hc => ?_, ?_⟩
  · exact hflags c (List.mem_filter.mp hc).1
  · rw [hcaseless]
    exact hregex

theorem splice_everywhere (s : Substitution) (text : Array Char) (start : Nat) (found : List Slots) :
    s.everywhere.splice text start found = s.splice text start found := by
  induction found generalizing start with
  | nil => rfl
  | cons slots more ih =>
    rw [splice, splice]
    cases span? slots 0 with
    | none => rfl
    | some place =>
      dsimp only
      rw [ih]
      rfl

theorem apply_everywhere (s : Substitution) (line : String) :
    s.everywhere.apply line = String.ofList
      (s.everywhere.splice line.toList.toArray 0 (s.regex.allMatches line.toList.toArray)) := by
  have hflag : s.everywhere.flags.contains 'y' = false := by simp [everywhere]
  unfold apply
  simp only [hflag]
  rfl

theorem apply_of_mem_flags (h : 'y' ∈ s.flags) (line : String) :
    s.apply line = String.ofList (s.splice line.toList.toArray 0
      (s.adjacentMatches line.toList.toArray (line.toList.toArray.size + 1) 0)) := by
  have hflag : s.flags.contains 'y' = true := List.contains_iff_mem.mpr h
  unfold apply
  simp only [hflag]
  rfl

/-- **With the flag `y` the first matches are replaced, up to a gap.** On every line there is a longest
run of matches from its start that are not empty and leave no gap. Of the matches that a substitution
replaces without the flag it replaces these alone, so what they cover becomes their replacements and the
rest of the line stays. No fuel beyond the length of the line changes what is found. -/
theorem apply_sticky (s : Substitution) (hsticky : 'y' ∈ s.flags) (line : String) :
    let text := line.toList.toArray
    let all := s.regex.allMatches text
    (∀ key written, parse key written = .ok s → parse key s.everywhere.text = .ok s.everywhere) ∧
    s.everywhere.apply line = String.ofList (s.everywhere.splice text 0 all) ∧
    (∃ run stop, LongestRun 0 all run stop) ∧
    ∀ run stop, LongestRun 0 all run stop →
      s.apply line = String.ofList (s.everywhere.splice text 0 run) ∧
      (s.apply line).toList = run.flatMap (s.expansion text) ++ line.toList.drop stop ∧
      (run = [] → s.apply line = line) ∧
      ∀ fuel, text.size < fuel → s.adjacentMatches text fuel 0 = run ∧
        LongestRun 0 (s.regex.matchesFrom text fuel 0 none) run stop := by
  intro text all
  have hlongest : ∀ {fuel fuel'}, text.size < fuel → text.size < fuel' → ∃ stop, LongestRun 0
      (s.regex.matchesFrom text fuel 0 none) (s.adjacentMatches text fuel' 0) stop :=
    fun hfuel hfuel' => longestRun_adjacentMatches none (Nat.zero_le _) (by omega) (by omega)
  have hall : text.size < 2 * text.size + 2 := by omega
  obtain ⟨stop, hrun⟩ := hlongest hall (Nat.lt_succ_self _)
  refine ⟨fun _ _ => parse_everywhere, apply_everywhere s line, ⟨_, stop, hrun⟩,
    fun run stop' hrun' => ?_⟩
  obtain ⟨rfl, rfl⟩ := hrun'.unique hrun
  have happly := apply_of_mem_flags hsticky line
  have htext : (s.apply line).toList = _ := (congrArg String.toList happly).trans
    (String.toList_ofList.trans (splice_adjacent hrun.adjacent))
  refine ⟨?_, htext, fun hnone => ?_, fun fuel hfuel => ?_⟩
  · rw [splice_everywhere]
    exact happly
  · have hempty := hrun.adjacent
    rw [hnone] at hempty
    cases hempty
    refine String.toList_injective (htext.trans ?_)
    rw [hnone]
    rfl
  · obtain ⟨_, hloop⟩ := hlongest hall hfuel
    obtain ⟨stop, hsearch⟩ := hlongest hfuel (Nat.lt_succ_self _)
    have hstop := hsearch.adjacent.stop_unique hrun.adjacent
    exact ⟨(hloop.unique hrun).1, hstop ▸ hsearch⟩

/-- Two letters at the start of the line, and two more behind a gap. -/
theorem apply_sticky_behindGap : ∃ s, parse "searchAndReplace" "/[ab]/<$&>/gy" = .ok s ∧
    'y' ∈ s.flags ∧ s.everywhere.apply "abcab" = "<a><b>c<a><b>" ∧ s.apply "abcab" = "<a><b>cab" ∧
    ∃ run stop, LongestRun 0 (s.regex.allMatches "abcab".toList.toArray) run stop ∧
      "<a><b>cab".toList =
        run.flatMap (s.expansion "abcab".toList.toArray) ++ "abcab".toList.drop stop := by
  have hparse : ((parse "searchAndReplace" "/[ab]/<$&>/gy").toOption.map fun s =>
      (s.flags, s.everywhere.apply "abcab", s.apply "abcab")) =
        some (['g', 'y'], "<a><b>c<a><b>", "<a><b>cab") := by decide +kernel
  obtain ⟨s, hs, hlines⟩ := Option.map_eq_some_iff.mp hparse
  obtain ⟨hflags, hlines⟩ := Prod.mk.inj hlines
  obtain ⟨heverywhere, happly⟩ := Prod.mk.inj hlines
  have hsticky : 'y' ∈ s.flags := hflags ▸ List.mem_of_elem_eq_true rfl
  obtain ⟨-, -, ⟨run, stop, hrun⟩, hreplaced⟩ := apply_sticky s hsticky "abcab"
  refine ⟨s, toOption_eq_some.mp hs, hsticky, heverywhere, happly, run, stop, hrun, ?_⟩
  exact (congrArg String.toList happly).symm.trans (hreplaced run stop hrun).2.1

end Substitution

end Doctest
