import Doctest.Document.Entity

/-!
# Parts of sequences

The parts of a sequence are numbered, and they have to stand together. Here that is said without a
machine, and what a machine knows about the numbers so far is compared with it.

* `Runs`: numbers that fall into consecutive runs, each of them nothing or a whole sequence.
* `Runs.next_iff`, `Runs.complete_iff`: what has to come behind part of a sequence and behind all
  of it.
* `leadsTo_next?`: the sequence that is open, or the fault that is given, says all that can be
  said about the numbers so far.
-/

namespace Doctest

/-! ## Runs of numbers -/

/-- The positions `first`, `first + 1`, and so on among `total`. -/
def numbered (first count total : Nat) : List (Option SequenceNumber) :=
  (List.range' first count).map fun position => some ⟨position, total⟩

/-- The numbers fall into consecutive runs: nothing, or all positions of a sequence. -/
inductive Runs : List (Option SequenceNumber) → Prop
  | nil : Runs []
  | single {ns : List (Option SequenceNumber)} (h : Runs ns) : Runs (none :: ns)
  | sequence {ns : List (Option SequenceNumber)} (total : Nat) (htotal : 0 < total) (h : Runs ns) :
      Runs (numbered 1 total total ++ ns)

theorem numbered_succ (first count total : Nat) :
    numbered first (count + 1) total =
      some ⟨first, total⟩ :: numbered (first + 1) count total := rfl

theorem numbered_concat (count total : Nat) :
    numbered 1 (count + 1) total = numbered 1 count total ++ [some ⟨count + 1, total⟩] := by
  unfold numbered
  rw [List.range'_concat, List.map_append, Nat.one_mul, Nat.add_comm 1 count]
  rfl

theorem numbered_append (first count count' total : Nat) :
    numbered first count total ++ numbered (first + count) count' total =
      numbered first (count + count') total := by
  unfold numbered
  rw [← List.map_append, List.range'_append_1]

namespace Runs

variable {ns : List (Option SequenceNumber)} {number : SequenceNumber} {count total : Nat}

/-- Numbers that begin with a position begin with a whole sequence. -/
theorem eq_sequence (h : Runs (some number :: ns)) :
    ∃ rest, some number :: ns = numbered 1 number.total number.total ++ rest ∧
      0 < number.total ∧ Runs rest := by
  generalize hns : some number :: ns = all at h
  cases h with
  | nil => cases hns
  | single h => cases hns
  | @sequence rest total htotal h =>
    obtain ⟨count, rfl⟩ : ∃ count, total = count + 1 := ⟨total - 1, by omega⟩
    rw [numbered_succ, List.cons_append] at hns
    obtain ⟨hnumber, hrest⟩ := List.cons.inj hns
    cases hnumber
    exact ⟨rest, rfl, htotal, h⟩

theorem position_eq_one (h : Runs (some number :: ns)) : number.position = 1 := by
  obtain ⟨rest, heq, htotal, -⟩ := h.eq_sequence
  obtain ⟨count, hcount⟩ : ∃ count, number.total = count + 1 := ⟨number.total - 1, by omega⟩
  rw [hcount, numbered_succ, List.cons_append] at heq
  obtain ⟨hnumber, -⟩ := List.cons.inj heq
  cases hnumber
  rfl

theorem single_iff : Runs (none :: ns) ↔ Runs ns := by
  refine ⟨fun h => ?_, .single⟩
  generalize hns : none :: ns = all at h
  cases h with
  | nil => cases hns
  | single h =>
    cases hns
    exact h
  | sequence total htotal h =>
    obtain ⟨count, rfl⟩ : ∃ count, total = count + 1 := ⟨total - 1, by omega⟩
    cases hns

/-- Part of a sequence is completed by the rest of it. -/
theorem numbered_iff (hcount : 0 < count) :
    Runs (numbered 1 count total ++ ns) ↔
      count ≤ total ∧
        ∃ rest, ns = numbered (1 + count) (total - count) total ++ rest ∧ Runs rest := by
  constructor
  · intro h
    obtain ⟨k, rfl⟩ : ∃ k, count = k + 1 := ⟨count - 1, by omega⟩
    obtain ⟨rest, heq, htotal, hrest⟩ := eq_sequence h
    have heq : numbered 1 (k + 1) total ++ ns = numbered 1 total total ++ rest := heq
    have htotal : 0 < total := htotal
    have hle : k + 1 ≤ total := by
      refine Nat.not_lt.mp fun hlt => ?_
      -- What goes beyond the total would have to begin a run of its own.
      obtain ⟨j, hj⟩ : ∃ j, k + 1 = total + (j + 1) := ⟨k - total, by omega⟩
      rw [hj, ← numbered_append, List.append_assoc] at heq
      have hbeyond : numbered (1 + total) (j + 1) total ++ ns = rest := List.append_cancel_left heq
      rw [← hbeyond] at hrest
      have hposition : 1 + total = 1 := position_eq_one hrest
      omega
    refine ⟨hle, rest, ?_, hrest⟩
    have hsplit := numbered_append 1 (k + 1) (total - (k + 1)) total
    rw [Nat.add_sub_cancel' hle] at hsplit
    rw [← hsplit, List.append_assoc] at heq
    exact List.append_cancel_left heq
  · rintro ⟨hle, rest, rfl, h⟩
    rw [← List.append_assoc, numbered_append, Nat.add_sub_cancel' hle]
    exact .sequence total (by omega) h

/-- A sequence that is complete says nothing about what follows. -/
theorem complete_iff (htotal : 0 < total) : Runs (numbered 1 total total ++ ns) ↔ Runs ns := by
  rw [numbered_iff htotal, Nat.sub_self]
  constructor
  · rintro ⟨-, rest, rfl, h⟩
    exact h
  · intro h
    exact ⟨Nat.le_refl _, ns, rfl, h⟩

/-- A sequence that is not complete goes on with its next position. -/
theorem next_iff (hcount : 0 < count) (hne : count ≠ total) {n : Option SequenceNumber} :
    Runs (numbered 1 count total ++ n :: ns) ↔
      n = some ⟨count + 1, total⟩ ∧ Runs (numbered 1 (count + 1) total ++ ns) := by
  have hconcat : numbered 1 (count + 1) total ++ ns =
      numbered 1 count total ++ some ⟨count + 1, total⟩ :: ns := by
    rw [numbered_concat, List.append_assoc]
    rfl
  rw [hconcat]
  constructor
  · intro h
    obtain ⟨hle, rest, heq, -⟩ := (numbered_iff hcount).mp h
    obtain ⟨j, hj⟩ : ∃ j, total - count = j + 1 := ⟨total - count - 1, by omega⟩
    rw [hj, numbered_succ, List.cons_append, Nat.add_comm 1 count] at heq
    obtain ⟨rfl, -⟩ := List.cons.inj heq
    exact ⟨rfl, h⟩
  · rintro ⟨rfl, h⟩
    exact h

/-- A sequence that is not complete cannot be the end. -/
theorem not_open (hcount : 0 < count) (hne : count ≠ total) : ¬Runs (numbered 1 count total) := by
  intro h
  rw [← List.append_nil (numbered 1 count total)] at h
  obtain ⟨hle, rest, heq, -⟩ := (numbered_iff hcount).mp h
  obtain ⟨j, hj⟩ : ∃ j, total - count = j + 1 := ⟨total - count - 1, by omega⟩
  rw [hj, numbered_succ] at heq
  cases heq

end Runs

/-! ## Sequences that are open -/

section OpenSequence

/-- The numbers of the open sequence. -/
def openNumbers (sequence : Option OpenSequence) : List (Option SequenceNumber) :=
  sequence.elim [] fun s => numbered 1 s.size s.total

/-- A sequence that is open is not complete. -/
def Incomplete (sequence : Option OpenSequence) : Prop :=
  ∀ s, sequence = some s → s.size ≠ s.total

theorem incomplete_none : Incomplete none := by
  intro s h
  cases h

theorem OpenSequence.size_pos (s : OpenSequence) : 0 < s.size := Nat.succ_pos _

/-- The sequence that a snippet or a part of one belongs to, or the fault that it belongs to none.
-/
def next? (sequence : Option OpenSequence) (e : Element) : Option (Except Fault OpenSequence) :=
  match sequence with
  | some s => some (s.add e)
  | none => e.properties.sequence.map (OpenSequence.start e)

/-- What is known of the numbers so far when they lead to a sequence that is open, or to none, or
to a fault. -/
def LeadsTo (numbers : List (Option SequenceNumber)) : Option (Except Fault OpenSequence) → Prop
  | none => ∀ ns, Runs (numbers ++ ns) ↔ Runs ns
  | some (.ok s) => ∀ ns, Runs (numbers ++ ns) ↔ Runs (numbered 1 s.size s.total ++ ns)
  | some (.error _) => ∀ ns, ¬Runs (numbers ++ ns)

theorem leadsTo_start (e : Element) (number : SequenceNumber) :
    LeadsTo [some number] (some (OpenSequence.start e number)) := by
  obtain ⟨position, total⟩ := number
  unfold OpenSequence.start
  split
  · next hposition =>
    cases hposition
    exact fun ns => Iff.rfl
  · next hposition => exact fun ns hruns => hposition (Runs.position_eq_one hruns)

theorem leadsTo_add {s : OpenSequence} (hs : s.size ≠ s.total) (e : Element) :
    LeadsTo (numbered 1 s.size s.total ++ [e.properties.sequence]) (some (s.add e)) := by
  have hiff : ∀ ns, Runs (numbered 1 s.size s.total ++ [e.properties.sequence] ++ ns) ↔
      e.properties.sequence = some ⟨s.size + 1, s.total⟩ ∧
        Runs (numbered 1 (s.size + 1) s.total ++ ns) := by
    intro ns
    rw [List.append_assoc]
    exact Runs.next_iff s.size_pos hs
  -- `add` asks for the same next number as `hiff`.
  unfold OpenSequence.add
  dsimp only
  split
  · next number hnumber =>
    rw [hnumber] at hiff ⊢
    split
    · next hnext =>
      intro ns
      have hsize : OpenSequence.size { s with rest := s.rest ++ [e] } = s.size + 1 := by
        simp [OpenSequence.size]
      rw [hsize, hiff, hnext]
      exact ⟨fun h => h.2, fun h => ⟨rfl, h⟩⟩
    · next hnext => exact fun ns h => hnext (Option.some.inj ((hiff ns).mp h).1)
  · next hnumber =>
    intro ns h
    rw [hnumber] at hiff h
    cases ((hiff ns).mp h).1

theorem leadsTo_next? {sequence : Option OpenSequence} (h : Incomplete sequence) (e : Element) :
    LeadsTo (openNumbers sequence ++ [e.properties.sequence]) (next? sequence e) := by
  cases sequence with
  | some s => exact leadsTo_add (h s rfl) e
  | none =>
    unfold next?
    cases e.properties.sequence with
    | none => exact fun ns => Runs.single_iff
    | some number => exact leadsTo_start e number

end OpenSequence

end Doctest
