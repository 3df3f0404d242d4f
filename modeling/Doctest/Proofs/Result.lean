import Doctest.Fault

/-!
# Results and their faults

Most functions of the library give a result or an error. This file has the rules by which such
functions are taken apart: what it means that a sequence of two steps, or one step for each entry of
a list, succeeds or fails, and which faults and results a function can give (`Faults`, `Gives`).
-/

namespace Doctest

/-! ## Success and failure of composed steps -/

section Steps

variable {ε α β : Type}

theorem bind_eq_ok {x : Except ε α} {f : α → Except ε β} {b : β} :
    x >>= f = .ok b ↔ ∃ a, x = .ok a ∧ f a = .ok b := by
  cases x <;> simp [bind, Except.bind]

theorem bind_eq_error {x : Except ε α} {f : α → Except ε β} {e : ε} :
    x >>= f = .error e ↔ x = .error e ∨ ∃ a, x = .ok a ∧ f a = .error e := by
  cases x <;> simp [bind, Except.bind]

theorem unit_bind_eq_ok {x : Except ε Unit} {f : Unit → Except ε β} {b : β} :
    x >>= f = .ok b ↔ x = .ok () ∧ f () = .ok b := by
  cases x <;> simp [bind, Except.bind]

theorem unless_eq_ok {c : Prop} [Decidable c] {e : ε} :
    (if c then pure () else throw e : Except ε Unit) = .ok () ↔ c := by
  by_cases hc : c
  · simp [hc, pure, Except.pure]
  · simp [hc, throw, throwThe, MonadExceptOf.throw]

theorem map_eq_ok {f : α → β} {x : Except ε α} {b : β} :
    x.map f = .ok b ↔ ∃ a, x = .ok a ∧ f a = b := by
  cases x <;> simp [Except.map]

theorem toOption_eq_some {x : Except ε α} {a : α} : x.toOption = some a ↔ x = .ok a := by
  cases x <;> simp [Except.toOption]

theorem mapError_eq_ok {ε' : Type} {g : ε → ε'} {x : Except ε α} {a : α} :
    x.mapError g = .ok a ↔ x = .ok a := by
  cases x with
  | ok b =>
    constructor
    · rintro ⟨⟩
      rfl
    · rintro ⟨⟩
      rfl
  | error e =>
    constructor
    · rintro ⟨⟩
    · rintro ⟨⟩

theorem atLine_eq_ok {line : Nat} {x : Except Fault α} {a : α} :
    Except.atLine line x = .ok a ↔ x = .ok a := by
  cases x <;> simp [Except.atLine]

/-- One step for each entry succeeds if and only if all of them do; the results stand in the order
of the entries. -/
theorem mapM_eq_ok [Inhabited β] {f : α → Except ε β} {xs : List α} {ys : List β} :
    xs.mapM f = .ok ys ↔ ∃ g : α → β, (∀ x ∈ xs, f x = .ok (g x)) ∧ ys = xs.map g := by
  constructor
  · intro h
    refine ⟨fun x => (f x).toOption.getD default, ?_⟩
    induction xs generalizing ys with
    | nil =>
      cases h
      simp
    | cons x xs ih =>
      rw [List.mapM_cons] at h
      obtain ⟨y, hy, h⟩ := bind_eq_ok.mp h
      obtain ⟨rest, hrest, h⟩ := bind_eq_ok.mp h
      cases h
      obtain ⟨hall, rfl⟩ := ih hrest
      have hg : (f x).toOption.getD default = y := by rw [hy]; rfl
      refine ⟨List.forall_mem_cons.mpr ⟨hy.trans (congrArg Except.ok hg.symm), hall⟩, ?_⟩
      rw [List.map_cons, hg]
  · rintro ⟨g, hall, rfl⟩
    induction xs with
    | nil => rfl
    | cons x xs ih =>
      obtain ⟨hx, hxs⟩ := List.forall_mem_cons.mp hall
      rw [List.mapM_cons, hx, List.map_cons]
      exact bind_eq_ok.mpr ⟨_, rfl, bind_eq_ok.mpr ⟨_, ih hxs, rfl⟩⟩

/-- Steps for other entries that do the same come to the same. -/
theorem mapM_map_eq {γ : Type} {f : β → Except ε γ} {g : α → Except ε γ} {h : α → β} {xs : List α}
    (hfg : ∀ x ∈ xs, f (h x) = g x) : (xs.map h).mapM f = xs.mapM g := by
  induction xs with
  | nil => rfl
  | cons x xs ih =>
    obtain ⟨hx, hxs⟩ := List.forall_mem_cons.mp hfg
    rw [List.map_cons, List.mapM_cons, List.mapM_cons, hx, ih hxs]

/-- A failure comes from one of the entries. -/
theorem mapM_eq_error {f : α → Except ε β} {xs : List α} {e : ε} (h : xs.mapM f = .error e) :
    ∃ x ∈ xs, f x = .error e := by
  induction xs with
  | nil => cases h
  | cons x xs ih =>
    rw [List.mapM_cons] at h
    rcases bind_eq_error.mp h with h | ⟨y, -, h⟩
    · exact ⟨x, List.mem_cons_self, h⟩
    · rcases bind_eq_error.mp h with h | ⟨ys, -, h⟩
      · obtain ⟨x', hx', h⟩ := ih h
        exact ⟨x', List.mem_cons_of_mem _ hx', h⟩
      · cases h

end Steps

/-! ## Which faults a function can give -/

/-- Every fault of `x` satisfies `P`. -/
def Faults {α : Type} (x : Except Fault α) (P : Fault → Prop) : Prop := ∀ f, x = .error f → P f

section Faults

variable {α β : Type} {P Q : Fault → Prop}

theorem faults_ok (a : α) : Faults (.ok a) P := fun _ h => by cases h

theorem faults_error {f : Fault} (h : P f) : Faults (.error f : Except Fault α) P := by
  intro g hg
  cases hg
  exact h

theorem faults_mono {x : Except Fault α} (h : Faults x P) (hPQ : ∀ f, P f → Q f) : Faults x Q :=
  fun f hf => hPQ f (h f hf)

theorem faults_bind {x : Except Fault α} {g : α → Except Fault β} (hx : Faults x P)
    (hg : ∀ a, x = .ok a → Faults (g a) P) : Faults (x >>= g) P := by
  intro f h
  rcases bind_eq_error.mp h with h | ⟨a, ha, h⟩
  · exact hx f h
  · exact hg a ha f h

theorem faults_map {x : Except Fault α} {g : α → β} (hx : Faults x P) : Faults (x.map g) P := by
  intro f h
  cases x with
  | error e =>
    cases h
    exact hx _ rfl
  | ok a => cases h

theorem faults_mapM {g : α → Except Fault β} {xs : List α} (h : ∀ x ∈ xs, Faults (g x) P) :
    Faults (xs.mapM g) P := by
  intro f hf
  obtain ⟨x, hx, hf⟩ := mapM_eq_error hf
  exact h x hx f hf

theorem faults_filterMapM {g : α → Except Fault (Option β)} {xs : List α}
    (h : ∀ x ∈ xs, Faults (g x) P) : Faults (xs.filterMapM g) P := by
  induction xs with
  | nil => exact faults_ok _
  | cons x xs ih =>
    obtain ⟨hx, hxs⟩ := List.forall_mem_cons.mp h
    rw [List.filterMapM_cons]
    refine faults_bind hx fun y? _ => ?_
    cases y? with
    | none => exact ih hxs
    | some y => exact faults_bind (ih hxs) fun ys _ => faults_ok _

/-- A fault without a place is put on the line. -/
theorem faults_atLine {x : Except Fault α} {line : Nat}
    (h : Faults x fun f => f.place = none ∧ P { f with place := some (.line line) }) :
    Faults (Except.atLine line x) P := by
  intro f hf
  cases x with
  | ok a => cases hf
  | error e =>
    cases hf
    obtain ⟨hplace, hP⟩ := h e rfl
    unfold Fault.orAtLine
    rw [hplace]
    exact hP

/-- A fault without a place is put on the line, whatever it is about. -/
theorem faults_atLine_of_unplaced {x : Except Fault α} {line : Nat}
    (h : Faults x fun f => f.place = none) :
    Faults (Except.atLine line x) fun f => f.place = some (.line line) :=
  faults_atLine (faults_mono h fun _ hplace => ⟨hplace, rfl⟩)

end Faults

/-! ## Results and faults at once -/

/-- Every fault of `x` satisfies `P` and every result `Q`. -/
def Gives {α : Type} (x : Except Fault α) (P : Fault → Prop) (Q : α → Prop) : Prop :=
  Faults x P ∧ ∀ a, x = .ok a → Q a

section Gives

variable {α β : Type} {P : Fault → Prop} {Q : α → Prop} {R : β → Prop}

theorem gives_ok {a : α} (h : Q a) : Gives (.ok a) P Q := by
  refine ⟨faults_ok a, ?_⟩
  rintro _ ⟨⟩
  exact h

theorem gives_error {f : Fault} (h : P f) : Gives (.error f) P Q :=
  ⟨faults_error h, fun _ ha => by cases ha⟩

theorem gives_bind {x : Except Fault α} {g : α → Except Fault β} (hx : Gives x P Q)
    (hg : ∀ a, Q a → Gives (g a) P R) : Gives (x >>= g) P R := by
  obtain ⟨hfault, hok⟩ := hx
  refine ⟨faults_bind hfault fun a ha => (hg a (hok a ha)).1, fun b hb => ?_⟩
  obtain ⟨a, ha, hb⟩ := bind_eq_ok.mp hb
  exact (hg a (hok a ha)).2 b hb

/-- The results of the first step do not matter. -/
theorem gives_before {x : Except Fault α} {g : α → Except Fault β} (hx : Faults x P)
    (hg : ∀ a, Gives (g a) P R) : Gives (x >>= g) P R :=
  gives_bind (Q := fun _ => True) ⟨hx, fun _ _ => trivial⟩ fun a _ => hg a

theorem gives_map {x : Except Fault α} {g : α → β} (hx : Gives x P fun a => R (g a)) :
    Gives (x.map g) P R := by
  obtain ⟨hfault, hok⟩ := hx
  refine ⟨faults_map hfault, fun b hb => ?_⟩
  cases x with
  | error f => cases hb
  | ok a =>
    cases hb
    exact hok a rfl

end Gives

end Doctest
