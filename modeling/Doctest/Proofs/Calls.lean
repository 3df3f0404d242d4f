import Doctest.Proofs.Verdict

/-!
# Calls and how they end

What an action asks of its host, and how its result goes together with the answers.

* `Host.after`: the state of a host that has answered calls.
* `Makes`: the calls that an action makes and the result that it comes to, whatever the host answers,
  with one rule for each way of composing actions.
* `Ends`: a failed write is the last call and aborts the run, and nothing else does.
-/

namespace Doctest

/-! ## Hosts and their answers -/

namespace Host

variable {σ : Type} {host : Host σ} {st : σ} {calls calls' : List Call}

/-- The state of a host that has answered calls. -/
def after (host : Host σ) (st : σ) (calls : List Call) : σ :=
  calls.foldl (fun st call => (host.answer call st).2) st

theorem after_append (calls calls' : List Call) :
    host.after st (calls ++ calls') = host.after (host.after st calls) calls' :=
  List.foldl_append

/-- Behind the calls `before` the host fails to write a file. -/
def FailsToWrite (host : Host σ) (st : σ) (before : List Call) (file : String) (lines : Lines)
    (reason : String) : Prop :=
  (host.answer (.write file lines) (host.after st before)).1 = .error reason

theorem failsToWrite_append {before : List Call} {file : String} {lines : Lines} {reason : String} :
    host.FailsToWrite st (calls ++ before) file lines reason ↔
      host.FailsToWrite (host.after st calls) before file lines reason := by
  unfold FailsToWrite
  rw [after_append]

/-- The host does not fail to write any file. -/
def WritesEach (host : Host σ) (st : σ) (calls : List Call) : Prop :=
  ∀ before file lines rest reason, calls = before ++ .write file lines :: rest →
    ¬ host.FailsToWrite st before file lines reason

/-- The last call is a write that fails. -/
def LastFails (host : Host σ) (st : σ) (calls : List Call) : Prop :=
  ∃ before file lines reason, calls = before ++ [.write file lines] ∧
    host.FailsToWrite st before file lines reason

theorem writesEach_nil : host.WritesEach st [] := by
  rintro (_ | _) _ _ _ _ ⟨⟩

theorem writesEach_single {call : Call}
    (h : ∀ file lines, call = .write file lines → (host.answer (.write file lines) st).1 = .ok ()) :
    host.WritesEach st [call] := by
  intro before file lines rest reason hsplit
  cases before with
  | nil =>
    obtain ⟨rfl, -⟩ := List.cons.inj hsplit
    intro hfails
    cases (h file lines rfl).symm.trans hfails
  | cons _ before => cases before <;> cases hsplit

theorem WritesEach.append (h : host.WritesEach st calls)
    (h' : host.WritesEach (host.after st calls) calls') : host.WritesEach st (calls ++ calls') := by
  intro before file lines rest reason hsplit
  obtain ⟨c, rfl, hc⟩ | ⟨c, rfl, hc⟩ := List.append_eq_append_iff.mp hsplit
  · exact fun hfails => h' c file lines rest reason hc (failsToWrite_append.mp hfails)
  · cases c with
    | nil =>
      intro hfails
      refine h' [] file lines rest reason hc.symm ?_
      rwa [List.append_nil]
    | cons call c =>
      obtain ⟨rfl, -⟩ := List.cons.inj hc
      exact h before file lines c reason rfl

theorem writesEach_run (commands : List (List String)) :
    host.WritesEach st (commands.map .run) := by
  intro before file lines rest reason hsplit
  have hmem : Call.write file lines ∈ commands.map Call.run := hsplit ▸ by simp
  obtain ⟨_, -, h⟩ := List.mem_map.mp hmem
  cases h

theorem LastFails.append (h : host.LastFails (host.after st calls) calls') :
    host.LastFails st (calls ++ calls') := by
  obtain ⟨before, file, lines, reason, rfl, hfails⟩ := h
  exact ⟨calls ++ before, file, lines, reason, (List.append_assoc ..).symm,
    failsToWrite_append.mpr hfails⟩

end Host

/-- The abort of the run by a file that cannot be written for the snippet on a line. -/
def Abort.unwritten (line : Nat) (file reason : String) : Abort :=
  ⟨s!"snippet at line {line}", s!"can't write `{file}`: {reason}"⟩

/-- How what is done for the snippet on a line ends: a failed write is the last call and aborts the
run, and nothing else aborts it. -/
inductive Ends {σ α : Type} (host : Host σ) (line : Nat) (st : σ) :
    List Call → Except Stop α → Prop
  | goesOn {calls : List Call} {r : Except Stop α} (h : host.WritesEach st calls) (hr : GoesOn r) :
      Ends host line st calls r
  | aborted {before : List Call} {file : String} {lines : Lines} {reason : String}
      (h : host.WritesEach st before) (hfails : host.FailsToWrite st before file lines reason) :
      Ends host line st (before ++ [.write file lines])
        (.error (.abort (.unwritten line file reason)))

namespace Ends

variable {σ α β : Type} {host : Host σ} {line : Nat} {st : σ} {calls calls' : List Call}

theorem nil {r : Except Stop α} (h : GoesOn r) : Ends host line st [] r :=
  .goesOn Host.writesEach_nil h

theorem writesEach {a : α} (h : Ends host line st calls (.ok a)) : host.WritesEach st calls := by
  cases h with
  | goesOn h _ => exact h

theorem lastFails {a : Abort} (h : Ends host line st calls (.error (.abort a) : Except Stop α)) :
    host.LastFails st calls := by
  cases h with
  | goesOn _ hr => exact absurd rfl (hr a)
  | aborted _ hfails => exact ⟨_, _, _, _, rfl, hfails⟩

/-- What ends the first step early ends both. -/
theorem stop {stop : Stop} (h : Ends host line st calls (.error stop : Except Stop α)) :
    Ends host line st calls (.error stop : Except Stop β) := by
  cases h with
  | goesOn h hr => exact .goesOn h (goesOn_error hr)
  | aborted h hfails => exact .aborted h hfails

theorem append {a : α} {r : Except Stop β} (h : Ends host line st calls (.ok a))
    (h' : Ends host line (host.after st calls) calls' r) : Ends host line st (calls ++ calls') r := by
  cases h' with
  | goesOn h' hr => exact .goesOn (h.writesEach.append h') hr
  | @aborted before file lines reason h' hfails =>
    rw [← List.append_assoc]
    exact .aborted (h.writesEach.append h') (Host.failsToWrite_append.mpr hfails)

end Ends

/-! ## Actions and their calls -/

/-- Whatever the host answers: `x` makes calls and comes to a result that go together by `P`. The
host answers these calls and nothing else. -/
def Makes {σ α : Type} (host : Host σ) (x : StateM (World σ) α) (P : σ → List Call → α → Prop) :
    Prop :=
  ∀ w : World σ, ∃ calls, (x w).2 = ⟨host.after w.state calls, w.calls ++ calls⟩ ∧
    P w.state calls (x w).1

section Rules

variable {σ α β : Type} {host : Host σ}

theorem makes_pure {P : σ → List Call → α → Prop} {a : α} (h : ∀ st, P st [] a) :
    Makes host (pure a) P := by
  intro w
  refine ⟨[], ?_, h w.state⟩
  rw [List.append_nil]
  rfl

theorem makes_mono {x : StateM (World σ) α} {P Q : σ → List Call → α → Prop} (hx : Makes host x P)
    (h : ∀ st calls a, P st calls a → Q st calls a) : Makes host x Q := by
  intro w
  obtain ⟨calls, hcalls, hP⟩ := hx w
  exact ⟨calls, hcalls, h _ _ _ hP⟩

theorem makes_map {x : StateM (World σ) α} {g : α → β} {P : σ → List Call → β → Prop}
    (hx : Makes host x fun st calls a => P st calls (g a)) : Makes host (g <$> x) P := by
  intro w
  exact hx w

theorem makes_ask (call : Call) :
    Makes host (host.ask call) fun st calls a => calls = [call] ∧ a = (host.answer call st).1 := by
  intro w
  exact ⟨[call], rfl, rfl, rfl⟩

/-- Two steps of an action. The calls of the second one stand behind those of the first one. -/
theorem makes_bind {x : Action σ α} {f : α → Action σ β} {P : σ → List Call → Except Stop α → Prop}
    {R : α → σ → List Call → Except Stop β → Prop} {Q : σ → List Call → Except Stop β → Prop}
    (hx : Makes host x.run P) (hf : ∀ a, Makes host (f a).run (R a))
    (hok : ∀ st calls a calls' r, P st calls (.ok a) → R a (host.after st calls) calls' r →
      Q st (calls ++ calls') r)
    (hstop : ∀ st calls stop, P st calls (.error stop) → Q st calls (.error stop)) :
    Makes host (x >>= f).run Q := by
  intro w
  obtain ⟨calls, hcalls, hP⟩ := hx w
  rw [show (x >>= f).run w = _ from Action.run_bind]
  cases hrun : x.run w with
  | mk result v =>
    rw [hrun] at hcalls hP
    dsimp only at hcalls hP
    cases result with
    | error stop => exact ⟨calls, hcalls, hstop _ _ _ hP⟩
    | ok a =>
      subst hcalls
      obtain ⟨calls', hcalls', hR⟩ := hf a ⟨host.after w.state calls, w.calls ++ calls⟩
      refine ⟨calls ++ calls', ?_, hok _ _ _ _ _ hP hR⟩
      rw [Host.after_append, ← List.append_assoc]
      exact hcalls'

/-- A result that may be a fault, and what follows. -/
theorem makes_ofFault (result : Except Fault α) {f : α → Action σ β}
    {Q : σ → List Call → Except Stop β → Prop}
    (hok : ∀ a, result = .ok a → Makes host (f a).run Q)
    (hfault : ∀ fault, result = .error fault → ∀ st, Q st [] (.error (.fault fault))) :
    Makes host (Action.ofFault result >>= f).run Q := by
  cases result with
  | ok a => exact hok a rfl
  | error fault => exact makes_pure (hfault fault rfl)

end Rules

namespace Scope

variable {σ : Type} {host : Host σ}

theorem writeFile_run (line : Nat) (file : String) (lines : Lines) (w : World σ) :
    (writeFile host line file lines).run w =
      ((host.answer (.write file lines) w.state).1.mapError
          fun reason => .abort (.unwritten line file reason),
        ⟨(host.answer (.write file lines) w.state).2, w.calls ++ [.write file lines]⟩) := by
  have hask : (Action.ask host (.write file lines)).run w =
      (.ok (host.answer (.write file lines) w.state).1,
        ⟨(host.answer (.write file lines) w.state).2, w.calls ++ [.write file lines]⟩) := rfl
  unfold writeFile
  rw [Action.run_bind, hask]
  cases (host.answer (.write file lines) w.state).1 <;> rfl

theorem makes_writeFile (line : Nat) (file : String) (lines : Lines) :
    Makes host (writeFile host line file lines).run fun st calls r =>
      calls = [.write file lines] ∧ (r ≠ .ok () → host.LastFails st calls) ∧
        Ends host line st calls r := by
  intro w
  rw [writeFile_run]
  refine ⟨_, rfl, rfl, ?_⟩
  cases hanswer : (host.answer (.write file lines) w.state).1 with
  | ok _ =>
    refine ⟨fun h => absurd rfl h, .goesOn (Host.writesEach_single ?_) (goesOn_ok ())⟩
    rintro _ _ ⟨⟩
    exact hanswer
  | error reason =>
    have hends : Ends host line w.state ([] ++ [.write file lines])
        (.error (.abort (.unwritten line file reason)) : Except Stop Unit) :=
      .aborted Host.writesEach_nil hanswer
    exact ⟨fun _ => hends.lastFails, hends⟩

end Scope

end Doctest
