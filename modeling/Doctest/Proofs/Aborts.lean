import Doctest.Proofs.Requests

/-!
# When a run is aborted

A run is aborted by a file that cannot be written, and by nothing else.

* `EndsVisit`: how a visit goes together with the answers to its calls.
* `Document.RunsTo.writesEach`: in front of an entity that the run gets to no write has failed.
* `run_aborted_iff`: a run is aborted if and only if a write fails. That write is its last call, and
  no entity is visited behind the snippet that it was made for. Any other run gets to its end.
-/

namespace Doctest

variable {σ : Type} {host : Host σ}

/-- How a visit ends: a failed write is the last call and aborts the run, and nothing else does. -/
inductive EndsVisit (host : Host σ) (hostState : σ) :
    Entity → List Call → Except Abort RunState → Prop
  | goesOn {e : Entity} {calls : List Call} {st : RunState} (h : host.WritesEach hostState calls) :
      EndsVisit host hostState e calls (.ok st)
  | aborted {s : Snippet} {before : List Call} {file : String} {lines : Lines} {reason : String}
      (h : host.WritesEach hostState before)
      (hfails : host.FailsToWrite hostState before file lines reason) :
      EndsVisit host hostState (.snippet s) (before ++ [.write file lines])
        (.error (.unwritten s.line file reason))

/-- A fault or a failure of a snippet is logged, and the run goes on. -/
theorem Ends.visit {s : Snippet} {hostState : σ} {calls : List Call} {r : Except Stop Outcome}
    (h : Ends host s.line hostState calls r) (st : RunState) :
    EndsVisit host hostState (.snippet s) calls (st.conclude s.line r) := by
  cases h with
  | goesOn h hr =>
    obtain ⟨st', hconclude, -⟩ := RunState.conclude_goesOn .empty st s.line hr
    rw [hconclude]
    exact .goesOn h
  | aborted h hfails => exact .aborted h hfails

/-- **One visit.** Only a failed write aborts it. -/
theorem makes_visit_ends (d : Document) (st : RunState) (e : Entity) :
    Makes host (st.visit d host e) fun hostState calls r => EndsVisit host hostState e calls r := by
  cases e with
  | heading h => exact makes_pure fun _ => .goesOn Host.writesEach_nil
  | lineMod m => exact makes_pure fun _ => .goesOn Host.writesEach_nil
  | config line p =>
    refine makes_map (makes_mono (makes_patch st line p) ?_)
    rintro hostState _ _ rfl
    refine .goesOn ?_
    cases p.directory with
    | none => exact Host.writesEach_nil
    | some directory => exact Host.writesEach_single (by rintro _ _ ⟨⟩)
  | snippet s =>
    simp only [RunState.visit]
    split
    · exact makes_map (makes_mono (Scope.makes_handle s) fun _ _ _ h => h.2.visit st)
    · exact makes_pure fun _ => .goesOn Host.writesEach_nil

section Run

variable {d : Document} {config : Config} {w₀ w : World σ} {i : Nat} {st : RunState}

/-- In front of an entity that the run gets to no write has failed. -/
theorem Document.RunsTo.writesEach (h : d.RunsTo host config w₀ i st w) :
    ∃ calls, w = ⟨host.after w₀.state calls, w₀.calls ++ calls⟩ ∧
      host.WritesEach w₀.state calls := by
  induction h with
  | start => exact ⟨[], by rw [List.append_nil]; rfl, Host.writesEach_nil⟩
  | @visit i st st' w w' e _ _ hvisit ih =>
    obtain ⟨calls, rfl, hwrites⟩ := ih
    obtain ⟨calls', hworld, hends⟩ := makes_visit_ends d st e _
    rw [hvisit] at hworld hends
    dsimp only at hworld hends
    cases hends with
    | goesOn h =>
      refine ⟨calls ++ calls', ?_, hwrites.append h⟩
      rw [hworld, Host.after_append, List.append_assoc]

/-- If no write but the last call can fail, a failed write is the last call. -/
theorem Host.WritesEach.eq_of_fails {st : σ} {calls before after : List Call} {call : Call}
    {file : String} {lines : Lines} {reason : String} (h : host.WritesEach st calls)
    (hsplit : calls ++ [call] = before ++ .write file lines :: after)
    (hfails : host.FailsToWrite st before file lines reason) :
    after = [] ∧ before = calls ∧ call = .write file lines := by
  rcases List.eq_nil_or_concat after with rfl | ⟨after, last, rfl⟩
  · obtain ⟨rfl, hlast⟩ := List.append_inj' hsplit rfl
    exact ⟨rfl, rfl, (List.cons.inj hlast).1⟩
  · rw [List.concat_eq_append, ← List.cons_append, ← List.append_assoc] at hsplit
    exact absurd hfails (h before file lines after reason (List.append_inj' hsplit rfl).1)

/-- The snippet whose file is not written aborts the run. -/
theorem Document.aborted_of_run {a : Abort} (h : d.run host config w₀ = (.error a, w)) :
    ∃ calls file lines reason i s st v,
      w = ⟨host.after w₀.state (calls ++ [.write file lines]),
        w₀.calls ++ (calls ++ [.write file lines])⟩ ∧
      host.WritesEach w₀.state calls ∧ host.FailsToWrite w₀.state calls file lines reason ∧
      a = .unwritten s.line file reason ∧ d.RunsTo host config w₀ i st v ∧
      d.entities[i]? = some (.snippet s) ∧ st.visit d host (.snippet s) v = (.error a, w) := by
  obtain ⟨i, st, v, e, hruns, he, hvisit⟩ := runsTo_of_aborted h
  obtain ⟨calls, rfl, hwrites⟩ := hruns.writesEach
  obtain ⟨calls', hworld, hends⟩ := makes_visit_ends d st e
    ⟨host.after w₀.state calls, w₀.calls ++ calls⟩
  rw [hvisit] at hworld hends
  dsimp only at hworld hends
  cases hends with
  | @aborted s before file lines reason hbefore hfails =>
    refine ⟨calls ++ before, file, lines, reason, i, s, st, _, ?_, hwrites.append hbefore,
      Host.failsToWrite_append.mpr hfails, rfl, hruns, he, hvisit⟩
    rw [hworld, ← Host.after_append, List.append_assoc, List.append_assoc]

/-- **When a run is aborted.** A run is aborted if and only if it asks the host to write a file and
the host fails to. That write is the last call of the run. The abort names its file and the line of the
snippet that was visited, and no later entity is visited. A run that is not aborted, whatever else goes
wrong, gets to its end and adds the warnings about unused IDs there. -/
theorem run_aborted_iff (d : Document) (host : Host σ) (config : Config) (st₀ : σ) :
    let run := d.run host config ⟨st₀, []⟩
    run.2.state = host.after st₀ run.2.calls ∧
    ((∃ a, run.1 = .error a) ↔ ∃ before file lines after reason,
      run.2.calls = before ++ .write file lines :: after ∧
        host.FailsToWrite st₀ before file lines reason) ∧
    (∀ before file lines after reason, run.2.calls = before ++ .write file lines :: after →
      host.FailsToWrite st₀ before file lines reason →
        after = [] ∧ ∃ i s st w, d.RunsTo host config ⟨st₀, []⟩ i st w ∧
          d.entities[i]? = some (.snippet s) ∧
          run.1 = .error (.unwritten s.line file reason) ∧
          st.visit d host (.snippet s) w = (.error (.unwritten s.line file reason), run.2) ∧
          ∀ j st' w', d.RunsTo host config ⟨st₀, []⟩ j st' w' → j ≤ i) ∧
    ((∀ a, run.1 ≠ .error a) → ∃ st,
      d.RunsTo host config ⟨st₀, []⟩ d.entities.length st run.2 ∧
        run.1 = .ok (st.report.recordAll (d.unusedIds.map .warning))) := by
  intro run
  cases hrun : d.run host config ⟨st₀, []⟩ with
  | mk result v =>
    have hresult : run = (result, v) := hrun
    rw [hresult]
    cases result with
    | ok report =>
      obtain ⟨st, hruns, rfl⟩ := Document.runsTo_of_run hrun
      obtain ⟨calls, rfl, hwrites⟩ := hruns.writesEach
      refine ⟨rfl, ⟨?_, ?_⟩, ?_, fun _ => ⟨st, hruns, rfl⟩⟩
      · rintro ⟨a, ⟨⟩⟩
      · rintro ⟨before, file, lines, after, reason, hsplit, hfails⟩
        exact absurd hfails (hwrites before file lines after reason hsplit)
      · intro before file lines after reason hsplit hfails
        exact absurd hfails (hwrites before file lines after reason hsplit)
    | error a =>
      obtain ⟨calls, file, lines, reason, i, s, st, w, rfl, hwrites, hfails, rfl, hruns, he, hvisit⟩ :=
        Document.aborted_of_run hrun
      dsimp only [List.nil_append] at hvisit hwrites hfails ⊢
      refine ⟨rfl, ⟨fun _ => ⟨calls, file, lines, [], reason, rfl, hfails⟩, fun _ => ⟨_, rfl⟩⟩, ?_,
        fun h => absurd rfl (h _)⟩
      intro before file' lines' after reason' hsplit hfails'
      obtain ⟨rfl, rfl, hcall⟩ := hwrites.eq_of_fails hsplit hfails'
      cases hcall
      obtain rfl : reason = reason' := Except.error.inj (hfails.symm.trans hfails')
      exact ⟨rfl, i, s, st, w, hruns, he, rfl, hvisit, fun _ _ _ => hruns.le_of_aborted he hvisit⟩

/-- The second snippet is not visited. -/
example :
    let d : Document := .ofEntities
      [.snippet (.single ⟨.bare 3 "sh", ["true"]⟩), .snippet (.single ⟨.bare 7 "sh", ["false"]⟩)]
    let script : Script := ⟨[], [], [("main.sh", "disk full")], []⟩
    let run := d.run Script.host .builtin ⟨script, []⟩
    run.1.toOption.isNone ∧ run.2.calls = [.write "main.sh" ["true"]] := by
  decide +kernel

end Run

end Doctest
