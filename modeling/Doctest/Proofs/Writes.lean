import Doctest.Run

/-!
# What a run writes

A run goes on after faults, failures and bad answers. Here that is made precise for the files that
it writes: they are planned by the document and the configuration alone.

* `Writes`: what an action writes when the host never fails to write a file, whatever else it
  answers.
* `Document.writes`: the files that a run is to write, found without a host.
* `Document.writes_run`: a run writes them, in this order.
* `run_writes_eq`: two hosts that never fail to write a file are asked to write the same.
-/

namespace Doctest

/-- A file and the lines that are written to it. -/
abbrev FileWrite : Type := String × Lines

/-- The file that a call writes. -/
def Call.write? : Call → Option FileWrite
  | .write file lines => some (file, lines)
  | .useDirectory _ | .read _ | .run _ => none

/-- The files that are written by calls, in order. -/
def writes (calls : List Call) : List FileWrite := calls.filterMap Call.write?

/-! ## Hosts that write every file -/

namespace Host

variable {σ : Type} {host : Host σ} {st st' : σ}

/-- The states that a host gets into while it answers calls. -/
inductive Reaches (host : Host σ) (st : σ) : σ → Prop
  | self : host.Reaches st st
  | answer {st' : σ} (h : host.Reaches st st') (call : Call) :
      host.Reaches st (host.answer call st').2

/-- From this state on the host never fails to write a file. -/
def AlwaysWrites (host : Host σ) (st : σ) : Prop :=
  ∀ st', host.Reaches st st' → ∀ file lines, (host.answer (.write file lines) st').1 = .ok ()

theorem Reaches.trans {st'' : σ} (h : host.Reaches st st') (h' : host.Reaches st' st'') :
    host.Reaches st st'' := by
  induction h' with
  | self => exact h
  | answer _ call ih => exact .answer ih call

theorem AlwaysWrites.answer (h : host.AlwaysWrites st) (call : Call) :
    host.AlwaysWrites (host.answer call st).2 := by
  intro st' hreach
  exact h st' ((Reaches.answer .self call).trans hreach)

end Host

/-! ## Actions and what they write -/

/-- Whatever the host answers otherwise: if it writes every file, then `x` writes `ws`, and its
result satisfies `Q`. -/
def Writes {σ α : Type} (host : Host σ) (x : StateM (World σ) α) (ws : List FileWrite)
    (Q : α → Prop) : Prop :=
  ∀ w : World σ, host.AlwaysWrites w.state →
    host.AlwaysWrites (x w).2.state ∧ writes (x w).2.calls = writes w.calls ++ ws ∧ Q (x w).1

section Rules

variable {σ α β : Type} {host : Host σ} {ws ws' : List FileWrite}

theorem writes_pure {Q : α → Prop} {a : α} (h : Q a) : Writes host (pure a) [] Q := by
  intro w hw
  exact ⟨hw, (List.append_nil _).symm, h⟩

theorem writes_mono {x : StateM (World σ) α} {P Q : α → Prop} (hx : Writes host x ws P)
    (h : ∀ a, P a → Q a) : Writes host x ws Q := by
  intro w hw
  obtain ⟨hstate, hcalls, hP⟩ := hx w hw
  exact ⟨hstate, hcalls, h _ hP⟩

theorem writes_bind {x : StateM (World σ) α} {f : α → StateM (World σ) β} {P : α → Prop}
    {Q : β → Prop} (hx : Writes host x ws P) (hf : ∀ a, P a → Writes host (f a) ws' Q) :
    Writes host (x >>= f) (ws ++ ws') Q := by
  intro w hw
  obtain ⟨hstate, hcalls, hP⟩ := hx w hw
  obtain ⟨hstate', hcalls', hQ⟩ := hf _ hP (x w).2 hstate
  refine ⟨hstate', ?_, hQ⟩
  rw [← List.append_assoc, ← hcalls]
  exact hcalls'

/-- The second step writes nothing. -/
theorem writes_bind_pure {x : StateM (World σ) α} {f : α → StateM (World σ) β} {P : α → Prop}
    {Q : β → Prop} (hx : Writes host x ws P) (hf : ∀ a, P a → Writes host (f a) [] Q) :
    Writes host (x >>= f) ws Q := by
  rw [← List.append_nil ws]
  exact writes_bind hx hf

theorem writes_map {x : StateM (World σ) α} {g : α → β} {Q : β → Prop}
    (hx : Writes host x ws fun a => Q (g a)) : Writes host (g <$> x) ws Q := by
  intro w hw
  exact hx w hw

theorem writes_ask_write (file : String) (lines : Lines) :
    Writes host (host.ask (.write file lines)) [(file, lines)] (· = .ok ()) := by
  intro w hw
  exact ⟨hw.answer _, List.filterMap_append, hw w.state .self file lines⟩

theorem writes_ask {call : Call} (h : call.write? = none) :
    Writes host (host.ask call) [] fun _ => True := by
  intro w hw
  refine ⟨hw.answer _, ?_, trivial⟩
  show writes (w.calls ++ [call]) = _
  unfold writes
  rw [List.filterMap_append, List.filterMap_cons_none h]
  rfl

/-- Two steps of an action: if the first one may end it early, the second one writes nothing. -/
theorem writes_action_bind {x : Action σ α} {f : α → Action σ β} {P : Except Stop α → Prop}
    {Q : Except Stop β → Prop} (hx : Writes host x.run ws P)
    (hok : ∀ a, P (.ok a) → Writes host (f a).run ws' Q)
    (hstop : ∀ stop, P (.error stop) → ws' = [] ∧ Q (.error stop)) :
    Writes host (x >>= f).run (ws ++ ws') Q := by
  rw [ExceptT.run_bind]
  refine writes_bind hx fun r hr => ?_
  cases r with
  | ok a => exact hok a hr
  | error stop =>
    obtain ⟨rfl, hQ⟩ := hstop stop hr
    exact writes_pure hQ

/-- The second step writes nothing. -/
theorem writes_before {x : Action σ α} {f : α → Action σ β} {P : Except Stop α → Prop}
    {Q : Except Stop β → Prop} (hx : Writes host x.run ws P)
    (hok : ∀ a, P (.ok a) → Writes host (f a).run [] Q)
    (hstop : ∀ stop, P (.error stop) → Q (.error stop)) :
    Writes host (x >>= f).run ws Q := by
  rw [← List.append_nil ws]
  exact writes_action_bind hx hok fun stop h => ⟨rfl, hstop stop h⟩

theorem writes_action_ask {call : Call} {P : call.Answer → Prop}
    (h : Writes host (host.ask call) ws P) :
    Writes host (Action.ask host call).run ws fun r => ∃ a, r = .ok a ∧ P a :=
  writes_map (writes_mono h fun a ha => ⟨a, rfl, ha⟩)

end Rules

/-! ## What is planned -/

/-- The results up to the first fault. -/
def untilFault {α : Type} : List (Except Fault α) → List α
  | .ok a :: rest => a :: untilFault rest
  | .error _ :: _ | [] => []

namespace Scope

/-- The lines, if they can be put together, with the file that they are for. -/
def job (file : String) (lines : Except Fault Lines) : Except Fault FileWrite := lines.map (file, ·)

/-- What is written for a snippet that is run: its own file and then those beside it, up to the
first one whose lines cannot be put together. -/
def runWrites (scope : Scope) (s : Snippet) (d : CommandDef) : List FileWrite :=
  match s.fileName d with
  | some file => untilFault (job file (scope.outerLines s) ::
      s.properties.externals.map fun x => job x.fileName (scope.externalLines s.line x))
  | none => []

/-- What is written for a snippet that asks for files. -/
def askedWrites (scope : Scope) (s : Snippet) : List FileWrite :=
  untilFault ((s.properties.writeLocal.toList.map fun file => job file (scope.innerLines s)) ++
    s.properties.write.toList.map fun file => job file (scope.outerLines s))

/-- What is written for a snippet by its language. -/
def languageWrites (scope : Scope) (s : Snippet) : List FileWrite :=
  match scope.language? s.properties with
  | .ok (some (.command d)) =>
    match s.properties.writeLocal.toList ++ s.properties.write.toList with
    | [] => scope.runWrites s d
    | _ :: _ => scope.askedWrites s
  | .ok (some .neverRun) => scope.askedWrites s
  | .ok (some .skip) | .ok none | .error _ => []

/-- What is written for a snippet that is handled. -/
def snippetWrites (scope : Scope) (s : Snippet) : List FileWrite :=
  match s.properties.sameAs, s.properties.containedInFile with
  | none, none => scope.languageWrites s
  | _, _ => []

/-- What is written for an entity that is visited. -/
def entityWrites (scope : Scope) : Entity → List FileWrite
  | .snippet s => if s.isRun scope.document.hasOnly then scope.snippetWrites s else []
  | .config .. | .heading _ | .lineMod _ => []

/-- The scope behind an entity. -/
def after (scope : Scope) : Entity → Scope
  | .config _ patch => { scope with config := scope.config.apply patch }
  | .lineMod m =>
    if m.lang?.isSome then { scope with lineMods := scope.lineMods ++ [m] } else scope
  | .heading _ | .snippet _ => scope

/-- What is written while entities are visited. -/
def writesAlong (scope : Scope) : List Entity → List FileWrite
  | [] => []
  | e :: rest => scope.entityWrites e ++ (scope.after e).writesAlong rest

end Scope

/-- What a run of the document writes. -/
def Document.writes (d : Document) (config : Config) : List FileWrite :=
  Scope.writesAlong ⟨d, config, []⟩ d.entities

/-! ## What is written -/

/-- The run is not aborted by this result. -/
def GoesOn {α : Type} (r : Except Stop α) : Prop := ∀ a, r ≠ .error (.abort a)

section GoesOn

variable {α β : Type}

theorem goesOn_ok (a : α) : GoesOn (.ok a) := fun _ h => by cases h

theorem goesOn_failure (f : Failure) : GoesOn (.error (.failure f) : Except Stop α) :=
  fun _ h => by cases h

theorem goesOn_fault (f : Fault) : GoesOn (.error (.fault f) : Except Stop α) :=
  fun _ h => by cases h

/-- What ends two actions early decides alone whether the run goes on. -/
theorem goesOn_error {stop : Stop} (h : GoesOn (.error stop : Except Stop α)) :
    GoesOn (.error stop : Except Stop β) := by
  rintro a ⟨⟩
  exact h a rfl

theorem goesOn_mapError (r : Except Fault α) : GoesOn (r.mapError .fault) := by
  cases r with
  | ok a => exact goesOn_ok a
  | error f => exact goesOn_fault f

theorem goesOn_unless {c : Prop} [Decidable c] (f : Failure) :
    GoesOn (if c then pure () else throw (.failure f) : Except Stop Unit) := by
  split
  · exact goesOn_ok ()
  · exact goesOn_failure f

theorem goesOn_bind {x : Except Stop α} {f : α → Except Stop β} (hx : GoesOn x)
    (hf : ∀ a, GoesOn (f a)) : GoesOn (x >>= f) := by
  cases x with
  | ok a => exact hf a
  | error stop => exact goesOn_error hx

end GoesOn

/-- A result that may be a fault, and what follows. A fault leaves the rest unwritten. -/
theorem writes_ofFault {σ α β : Type} {host : Host σ} {ws : List FileWrite}
    (result : Except Fault α) {f : α → Action σ β}
    (hok : ∀ a, result = .ok a → Writes host (f a).run ws GoesOn)
    (hfault : ∀ fault, result = .error fault → ws = []) :
    Writes host (Action.ofFault result >>= f).run ws GoesOn := by
  cases result with
  | ok a => exact hok a rfl
  | error fault =>
    rw [hfault fault rfl]
    exact writes_pure (goesOn_fault fault)

namespace Scope

variable {σ : Type} {host : Host σ} {scope : Scope}

theorem writes_writeFile (line : Nat) (file : String) (lines : Lines) :
    Writes host (writeFile host line file lines).run [(file, lines)] (· = .ok ()) := by
  refine writes_before (writes_action_ask (writes_ask_write file lines)) ?_ ?_
  · rintro _ ⟨_, h, rfl⟩
    cases h
    exact writes_pure rfl
  · rintro stop ⟨_, h, -⟩
    cases h

theorem writes_runCommand (line : Nat) (argv : List String) :
    Writes host (runCommand host line argv).run [] GoesOn := by
  refine writes_before (writes_action_ask (writes_ask rfl)) ?_ ?_
  · intro answer _
    cases answer with
    | ok r => exact writes_pure (goesOn_ok r)
    | error reason => exact writes_pure (goesOn_failure _)
  · rintro stop ⟨_, h, -⟩
    cases h

theorem goesOn_checkStream (line : Nat) (key : String) (content : StreamContent)
    (captured : String) : GoesOn (scope.checkStream line key content captured) := by
  refine goesOn_bind (goesOn_mapError _) fun other => ?_
  refine goesOn_bind (goesOn_mapError _) fun expected => ?_
  dsimp only
  split
  · exact goesOn_unless _
  · refine goesOn_bind (goesOn_mapError _) fun m => ?_
    exact goesOn_bind (goesOn_mapError _) fun actual => goesOn_unless _

theorem goesOn_checkExit (p : Properties) (r : CommandResult) : GoesOn (checkExit p r) := by
  unfold checkExit
  split
  · exact goesOn_failure _
  · dsimp only
    split
    · exact goesOn_failure _
    · split
      · exact goesOn_ok _
      · exact goesOn_failure _

theorem goesOn_checkStream? (line : Nat) (key : String) (content : Option StreamContent)
    (captured : String) : GoesOn (scope.checkStream? line key content captured) := by
  cases content with
  | some content => exact goesOn_checkStream line key content captured
  | none => exact goesOn_ok _

theorem goesOn_checkLast (p : Properties) (r : CommandResult) : GoesOn (scope.checkLast p r) := by
  refine goesOn_bind (goesOn_checkExit p r) fun _ => ?_
  exact goesOn_bind (goesOn_checkStream? _ _ _ _) fun _ => goesOn_checkStream? _ _ _ _

theorem goesOn_checkSuccess (line : Nat) (r : CommandResult) : GoesOn (checkSuccess line r) := by
  unfold checkSuccess
  split
  · exact goesOn_ok _
  · exact goesOn_failure _

theorem writes_ofExcept {α : Type} (r : Except Stop α) :
    Writes host (MonadExcept.ofExcept r : Action σ α).run [] (· = r) := by
  cases r with
  | ok a => exact writes_pure rfl
  | error stop => exact writes_pure rfl

/-- Commands write nothing through the host, and however they end, the run goes on. -/
theorem writes_runAll (line : Nat) {check : CommandResult → Except Stop Unit}
    (hcheck : ∀ r, GoesOn (check r)) (commands : List (List String)) :
    Writes host (runAll host line check commands).run [] GoesOn := by
  fun_induction runAll host line check commands with
  | case1 => exact writes_pure (goesOn_ok ())
  | case2 argv =>
    refine writes_before (writes_runCommand line argv) (fun r _ => ?_) fun _ => goesOn_error
    refine writes_mono (writes_ofExcept (check r)) ?_
    rintro _ rfl
    exact hcheck r
  | case3 argv rest _ ih =>
    refine writes_before (writes_runCommand line argv) (fun r _ => ?_) fun _ => goesOn_error
    refine writes_before (writes_ofExcept (checkSuccess line r)) (fun _ _ => ih) ?_
    intro stop h
    exact goesOn_error (h ▸ goesOn_checkSuccess line r)

/-- One file is written if its lines can be put together, and then the rest follows. -/
theorem writes_job {α : Type} {line : Nat} {file : String} {lines : Except Fault Lines}
    {jobs : List (Except Fault FileWrite)} {k : Action σ α}
    (hk : Writes host k.run (untilFault jobs) GoesOn) :
    Writes host (do
      let lines ← Action.ofFault lines
      writeFile host line file lines
      k).run (untilFault (job file lines :: jobs)) GoesOn := by
  refine writes_ofFault lines ?_ ?_
  · rintro lines rfl
    show Writes host _ ([(file, lines)] ++ untilFault jobs) _
    refine writes_action_bind (writes_writeFile line file lines) (fun _ _ => hk) ?_
    intro stop h
    cases h
  · rintro fault rfl
    rfl

theorem writes_jobs {α : Type} (line : Nat) (file : α → String) (lines : α → Except Fault Lines)
    (xs : List α) :
    Writes host (xs.forM fun x => do
      let lines ← Action.ofFault (lines x)
      writeFile host line (file x) lines : Action σ Unit).run
      (untilFault (xs.map fun x => job (file x) (lines x))) GoesOn := by
  induction xs with
  | nil => exact writes_pure (goesOn_ok ())
  | cons x xs ih =>
    rw [List.forM, bind_assoc]
    exact writes_job ih

theorem writes_runSnippet (s : Snippet) (d : CommandDef) :
    Writes host (scope.runSnippet host s d).run (scope.runWrites s d) GoesOn := by
  unfold runSnippet runWrites
  cases s.fileName d with
  | none => exact writes_pure (goesOn_fault _)
  | some file =>
    refine writes_job ?_
    refine writes_before (writes_jobs _ _ _ _) (fun _ _ => ?_) fun _ => goesOn_error
    split
    · exact writes_pure (goesOn_ok _)
    · refine writes_before (writes_runAll _ (goesOn_checkLast _) _) (fun _ _ => ?_) ?_
      · exact writes_pure (goesOn_ok _)
      · exact fun _ => goesOn_error

theorem writes_compareSnippet (s : Snippet) (id : String) :
    Writes host (scope.compareSnippet s id : Action σ Outcome).run [] GoesOn := by
  unfold compareSnippet
  refine writes_ofFault _ (fun other _ => ?_) fun _ _ => rfl
  refine writes_ofFault _ (fun expected _ => ?_) fun _ _ => rfl
  refine writes_ofFault _ (fun actual _ => ?_) fun _ _ => rfl
  split
  · exact writes_pure (goesOn_ok _)
  · exact writes_pure (goesOn_failure _)

theorem writes_findSnippet (s : Snippet) (path : String) :
    Writes host (scope.findSnippet host s path).run [] GoesOn := by
  unfold findSnippet
  refine writes_before (writes_action_ask (writes_ask rfl)) (fun answer _ => ?_) ?_
  · cases answer with
    | error reason => exact writes_pure (goesOn_fault _)
    | ok content =>
      refine writes_ofFault _ (fun own _ => ?_) fun _ _ => rfl
      split
      · exact writes_pure (goesOn_ok _)
      · exact writes_pure (goesOn_failure _)
  · rintro stop ⟨_, h, -⟩
    cases h

/-- The last file that a snippet asks for. -/
theorem writes_asked {line : Nat} {lines : Except Fault Lines} (file? : Option String) :
    Writes host (match file? with
      | some file => do
        let lines ← Action.ofFault lines
        writeFile host line file lines
      | none => pure () : Action σ Unit).run
      (untilFault (file?.toList.map fun file => job file lines)) GoesOn := by
  cases file? with
  | none => exact writes_pure (goesOn_ok ())
  | some file =>
    have h : Writes host (do
        let lines ← Action.ofFault lines
        writeFile host line file lines
        pure ()).run (untilFault [job file lines]) GoesOn :=
      writes_job (writes_pure (goesOn_ok ()))
    rw [bind_congr fun lines => bind_pure_unit] at h
    exact h

theorem writes_writeSnippet (s : Snippet) :
    Writes host (scope.writeSnippet host s).run (scope.askedWrites s) GoesOn := by
  unfold writeSnippet askedWrites
  dsimp only
  cases s.properties.writeLocal with
  | none => exact writes_asked s.properties.write
  | some file => exact writes_job (writes_asked s.properties.write)

theorem askedWrites_eq_nil {s : Snippet}
    (h : s.properties.writeLocal.toList ++ s.properties.write.toList = []) :
    scope.askedWrites s = [] := by
  obtain ⟨hlocal, hwrite⟩ := List.append_eq_nil_iff.mp h
  unfold askedWrites
  rw [hlocal, hwrite]
  rfl

theorem writes_handleByLanguage (s : Snippet) :
    Writes host (scope.handleByLanguage host s).run (scope.languageWrites s) GoesOn := by
  have hasked : ∀ outcome : Outcome, Writes host (do
      scope.writeSnippet host s
      return outcome : Action σ Outcome).run (scope.askedWrites s) GoesOn := by
    intro outcome
    refine writes_before (writes_writeSnippet s) (fun _ _ => ?_) fun _ => goesOn_error
    exact writes_pure (goesOn_ok outcome)
  unfold handleByLanguage languageWrites
  refine writes_ofFault _ (fun d? hd => ?_) fun fault h => by rw [h]
  rw [hd]
  cases d? with
  | none => exact writes_pure (goesOn_fault _)
  | some d =>
    cases d with
    | skip => exact writes_pure (goesOn_ok _)
    | neverRun =>
      cases hfiles : s.properties.writeLocal.toList ++ s.properties.write.toList with
      | nil =>
        rw [askedWrites_eq_nil hfiles]
        exact writes_ofFault _ (fun _ _ => writes_pure (goesOn_ok _)) fun _ _ => rfl
      | cons file files => exact hasked _
    | command d =>
      dsimp only
      cases s.properties.writeLocal.toList ++ s.properties.write.toList with
      | nil => exact writes_runSnippet s d
      | cons file files => exact hasked _

theorem writes_handle (s : Snippet) :
    Writes host (scope.handle host s).run (scope.snippetWrites s) GoesOn := by
  unfold handle snippetWrites
  cases s.properties.sameAs with
  | some id => exact writes_compareSnippet s id
  | none =>
    cases s.properties.containedInFile with
    | some path => exact writes_findSnippet s path
    | none => exact writes_handleByLanguage s

end Scope

namespace RunState

variable {σ : Type} {host : Host σ}

/-- What the snippets that follow are put together in. -/
def scope (d : Document) (st : RunState) : Scope := ⟨d, st.config, st.lineMods⟩

theorem scope_log (d : Document) (st : RunState) (e : Event) :
    (st.log e).scope d = st.scope d := rfl

/-- Unless the run is aborted, it goes on in the same scope. -/
theorem conclude_goesOn (d : Document) (st : RunState) (line : Nat) {r : Except Stop Outcome}
    (h : GoesOn r) : ∃ st', st.conclude line r = .ok st' ∧ st'.scope d = st.scope d := by
  unfold conclude
  split
  · exact ⟨st, rfl, rfl⟩
  · exact ⟨_, rfl, scope_log d st _⟩
  · exact ⟨_, rfl, scope_log d st _⟩
  · exact ⟨_, rfl, scope_log d st _⟩
  · next a => exact absurd rfl (h a)

theorem writes_patch (d : Document) (st : RunState) (line : Nat) (p : ConfigPatch) :
    Writes host (st.patch host line p) []
      fun st' => st'.scope d = (st.scope d).after (.config line p) := by
  unfold patch
  cases p.directory with
  | none => exact writes_pure rfl
  | some directory =>
    refine writes_bind_pure (writes_ask rfl) fun answer _ => ?_
    cases answer with
    | ok _ => exact writes_pure rfl
    | error reason => exact writes_pure rfl

/-- **One step of a run.** It writes what is planned for the entity, and it leads to the scope
that is planned behind it. -/
theorem writes_visit (d : Document) (st : RunState) (e : Entity) :
    Writes host (st.visit d host e) ((st.scope d).entityWrites e)
      fun r => ∃ st', r = .ok st' ∧ st'.scope d = (st.scope d).after e := by
  cases e with
  | heading h => exact writes_pure ⟨_, rfl, rfl⟩
  | config line p =>
    exact writes_map (writes_mono (writes_patch d st line p) fun st' h => ⟨st', rfl, h⟩)
  | lineMod m =>
    refine writes_pure ⟨_, rfl, ?_⟩
    simp only [Scope.after]
    split <;> rfl
  | snippet s =>
    simp only [visit, Scope.entityWrites]
    have hdocument : (st.scope d).document = d := rfl
    rw [hdocument]
    split
    · refine writes_map (writes_mono (Scope.writes_handle s) fun r h => ?_)
      exact conclude_goesOn d st s.line h
    · exact writes_pure ⟨st, rfl, rfl⟩

theorem writes_visitAll (d : Document) (st : RunState) (es : List Entity) :
    Writes host (visitAll d host st es) ((st.scope d).writesAlong es)
      fun r => ∃ st', r = .ok st' := by
  induction es generalizing st with
  | nil => exact writes_pure ⟨st, rfl⟩
  | cons e es ih =>
    refine writes_bind (writes_visit d st e) ?_
    -- The first entity never ends the run, so the others are visited in the scope behind it.
    rintro _ ⟨st', rfl, hscope⟩
    rw [← hscope]
    exact ih st'

end RunState

/-- **What a run writes.** The files that are planned, in this order, whatever the host answers. -/
theorem Document.writes_run {σ : Type} {host : Host σ} (d : Document) (config : Config) :
    Writes host (d.run host config) (d.writes config) fun r => ∃ report, r = .ok report := by
  refine writes_bind_pure (RunState.writes_visitAll d (.start d config) d.entities) ?_
  rintro _ ⟨st, rfl⟩
  exact writes_pure ⟨_, rfl⟩

/-- **What is written does not depend on the outside world.** Two hosts that never fail to write a
file are asked to write the same files with the same lines in the same order, however they answer
other calls. -/
theorem run_writes_eq {σ τ : Type} (d : Document) (config : Config) (host : Host σ) (host' : Host τ)
    (st : σ) (st' : τ) (h : host.AlwaysWrites st) (h' : host'.AlwaysWrites st') :
    writes (d.run host config ⟨st, []⟩).2.calls =
      writes (d.run host' config ⟨st', []⟩).2.calls := by
  obtain ⟨-, hcalls, -⟩ := d.writes_run config ⟨st, []⟩ h
  obtain ⟨-, hcalls', -⟩ := d.writes_run config ⟨st', []⟩ h'
  rw [hcalls, hcalls']

theorem Script.alwaysWrites {s : Script} (h : s.failWrites = []) : Script.host.AlwaysWrites s := by
  intro s' hreach
  have hfail : s'.failWrites = [] := by
    induction hreach with
    | self => exact h
    | @answer s' _ call ih =>
      cases call with
      | useDirectory directory => exact ih
      | write file lines => exact ih
      | read path =>
        simp only [Script.host, Script.answer]
        split <;> exact ih
      | run argv =>
        simp only [Script.host, Script.answer]
        split <;> exact ih
  intro file lines
  simp [Script.host, Script.answer, Script.refusal, hfail]

/-- A directory, a snippet that is looked up in a file, and one that is run. -/
def outsideExample : List Entity :=
  [.config 1 ⟨some "elsewhere", none⟩,
    .snippet (.single ⟨{ Properties.bare 4 "txt" with containedInFile := some "file" }, ["line"]⟩),
    .snippet (.single ⟨.bare 9 "sh", ["true"]⟩)]

theorem run_writes_eq_refusing :
    let refusing : Script := ⟨[], [.error "no shell"], [], [("elsewhere", "no directory")]⟩
    let obliging : Script := ⟨[("file", "line")], [], [], []⟩
    let run (s : Script) := (Document.ofEntities outsideExample).run Script.host .builtin ⟨s, []⟩
    Script.host.AlwaysWrites refusing ∧ Script.host.AlwaysWrites obliging ∧
      writes (run refusing).2.calls = writes (run obliging).2.calls := by
  intro refusing obliging run
  have hrefusing : Script.host.AlwaysWrites refusing := Script.alwaysWrites rfl
  have hobliging : Script.host.AlwaysWrites obliging := Script.alwaysWrites rfl
  exact ⟨hrefusing, hobliging,
    run_writes_eq _ .builtin Script.host Script.host refusing obliging hrefusing hobliging⟩

end Doctest
