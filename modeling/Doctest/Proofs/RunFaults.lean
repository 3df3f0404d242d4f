import Doctest.Proofs.FaultPlaces
import Doctest.Proofs.Includes
import Doctest.Proofs.Log

/-!
# Where the faults of a run stand

Lines are put together and snippets are run long after the document was read. Their faults have lines
of the document as places all the same.

* `linesAlong_faults`, `outerLines_faults`: what goes wrong when a snippet is put together stands on
  a line of some snippet of the document, not always its own, since it may include others.
* `ActionFaults`: a property of all faults by which an action may end, whatever the host answers.
* `handle_faults`, `faults_of_runsTo`: the same for a snippet that is handled, and for everything
  that is logged up to any entity that a run gets to.
* `fault_places`: all of it for the text of a document.
-/

namespace Doctest

/-! ## Putting together -/

/-- Only what is included can go wrong in an arrangement. -/
theorem Element.arrange_faults {P : Fault → Prop} {f : String → Except Fault Lines}
    {ids : List String} (h : ∀ id ∈ ids, id ≠ thisMark → Faults (f id) P) (body : Option Lines) :
    Faults (arrange f body ids) P := by
  intro fault hfault
  obtain ⟨id, hid, hne, hfault⟩ := arrange_eq_error hfault
  exact h id hid hne fault hfault

theorem OnLine.on {P : Nat → Prop} {line : Nat} {f : Fault} (h : OnLine line f) (hP : P line) :
    f.On P := ⟨line, h.1, hP⟩

namespace Scope

variable {scope : Scope} {s : Snippet}

/-- What an ID stands for is a snippet of the document. -/
def Indexed (scope : Scope) : Prop :=
  ∀ id s, scope.document.snippet? id = some s → s ∈ scope.document.snippets

theorem indexed_ofEntities (es : List Entity) (config : Config) (lineMods : List LineMod) :
    Indexed ⟨.ofEntities es, config, lineMods⟩ :=
  fun _ _ h => (Document.snippet?_spec h).1

/-- The faults of the walk stand on lines of the snippets that it meets. -/
theorem linesAlong_faults (hindex : scope.Indexed) (path : List String)
    (hs : s ∈ scope.document.snippets) :
    Faults (scope.linesAlong path s) (·.On scope.document.PartLine) := by
  induction path, s using Scope.linesAlong.induct scope with
  | case1 path s ih =>
    rw [linesAlong_eq]
    refine faults_bind (faults_mapM fun e he => ?_) fun _ _ => faults_ok _
    have hline : scope.document.PartLine e.properties.line := ⟨s, hs, e, he, rfl⟩
    refine faults_bind (faults_mono (scope.bodyLines_faults e) fun f hf => hf.on hline)
      fun body _ => ?_
    refine Element.arrange_faults (fun id _ _ => ?_) (some body)
    unfold includeLines
    split
    · exact faults_error ⟨_, rfl, hline⟩
    · next hpath =>
      refine faults_bind (faults_mono (scope.snippet_faults _ _ id) fun f hf => hf.on hline)
        fun t ht => ?_
      exact ih e id hpath t ht (hindex id t (snippet_eq_ok.mp ht))

theorem innerLines_faults (hindex : scope.Indexed) (hs : s ∈ scope.document.snippets) :
    Faults (scope.innerLines s) (·.On scope.document.PartLine) :=
  linesAlong_faults hindex _ hs

theorem configLineMod_faults (scope : Scope) (p : Properties) :
    Faults (scope.configLineMod p) (OnLine p.line) := by
  refine faults_bind (scope.language?_faults p) fun lang _ => ?_
  split
  · exact faults_ok _
  · exact faults_ok _

theorem outerLineMods_faults (scope : Scope) (p : Properties) :
    Faults (scope.outerLineMods p) (OnLine p.line) := by
  have hconfig := scope.configLineMod_faults p
  have hlineMod (id : String) (ofLanguage : List LineMod) :
      Faults (do
        let own ← (scope.lineMod p.line "applyToOuter" id).map ([·])
        return ofLanguage ++ own) (OnLine p.line) :=
    faults_bind (faults_map (scope.lineMod_faults p.line "applyToOuter" id)) fun _ _ => faults_ok _
  unfold outerLineMods
  cases p.runLocalLines with
  | true =>
    cases p.applyToOuter with
    | none => exact faults_ok _
    | some id => exact hlineMod id []
  | false =>
    cases p.applyToOuter with
    | none => exact faults_bind hconfig fun _ _ => faults_ok _
    | some id => exact faults_bind hconfig fun _ _ => hlineMod id _

theorem outerLines_faults (hindex : scope.Indexed) (hs : s ∈ scope.document.snippets) :
    Faults (scope.outerLines s) (·.On scope.document.PartLine) := by
  have hline : scope.document.PartLine s.properties.line := Document.partLine_of_mem hs
  refine faults_bind (faults_mono (scope.outerLineMods_faults _) fun f hf => hf.on hline)
    fun _ _ => ?_
  exact faults_bind (innerLines_faults hindex hs) fun _ _ => faults_ok _

end Scope

/-! ## Faults of actions -/

/-- A fault by which this ends satisfies `P`. -/
def StopFaults {α : Type} (r : Except Stop α) (P : Fault → Prop) : Prop :=
  ∀ f, r = .error (.fault f) → P f

/-- Whatever the host answers: a fault by which the action ends satisfies `P`. -/
def ActionFaults {σ α : Type} (x : Action σ α) (P : Fault → Prop) : Prop :=
  ∀ w, StopFaults (x.run w).1 P

section Rules

variable {σ α β : Type} {P : Fault → Prop}

theorem stopFaults_ok (a : α) : StopFaults (.ok a) P := fun _ h => by cases h

theorem stopFaults_failure (f : Failure) : StopFaults (.error (.failure f) : Except Stop α) P :=
  fun _ h => by cases h

theorem stopFaults_bind {x : Except Stop α} {g : α → Except Stop β} (hx : StopFaults x P)
    (hg : ∀ a, x = .ok a → StopFaults (g a) P) : StopFaults (x >>= g) P := by
  intro f h
  rcases bind_eq_error.mp h with h | ⟨a, ha, h⟩
  · exact hx f h
  · exact hg a ha f h

theorem stopFaults_mapError {x : Except Fault α} (hx : Faults x P) :
    StopFaults (x.mapError .fault) P := by
  intro f h
  cases x with
  | ok a => cases h
  | error fault =>
    cases h
    exact hx _ rfl

theorem actionFaults_pure (a : α) : ActionFaults (pure a : Action σ α) P :=
  fun _ => stopFaults_ok a

theorem actionFaults_throw_fault {f : Fault} (h : P f) :
    ActionFaults (throw (.fault f) : Action σ α) P := by
  rintro w _ ⟨⟩
  exact h

theorem actionFaults_throw_abort (a : Abort) : ActionFaults (throw (.abort a) : Action σ α) P := by
  rintro w _ ⟨⟩

theorem actionFaults_fail (f : Failure) : ActionFaults (Action.fail f : Action σ α) P :=
  fun _ => stopFaults_failure f

theorem actionFaults_bind {x : Action σ α} {g : α → Action σ β} (hx : ActionFaults x P)
    (hg : ∀ a, ActionFaults (g a) P) : ActionFaults (x >>= g) P := by
  intro w f h
  rw [Action.run_bind] at h
  have hfirst := hx w
  cases hrun : x.run w with
  | mk result v =>
    rw [hrun] at h hfirst
    cases result with
    | ok a => exact hg a v f h
    | error stop =>
      cases h
      exact hfirst f rfl

theorem actionFaults_ask (host : Host σ) (call : Call) : ActionFaults (Action.ask host call) P :=
  fun _ => stopFaults_ok _

/-- A result that may be a fault, and what follows. -/
theorem actionFaults_ofFault {x : Except Fault α} {g : α → Action σ β} (hx : Faults x P)
    (hg : ∀ a, x = .ok a → ActionFaults (g a) P) : ActionFaults (Action.ofFault x >>= g) P := by
  cases x with
  | ok a => exact hg a rfl
  | error fault => exact actionFaults_throw_fault (hx _ rfl)

theorem actionFaults_ofExcept {x : Except Stop α} (hx : StopFaults x P) :
    ActionFaults (MonadExcept.ofExcept x : Action σ α) P := by
  intro w
  cases x with
  | ok a => exact stopFaults_ok a
  | error stop => exact hx

theorem actionFaults_forM {xs : List α} {g : α → Action σ Unit}
    (h : ∀ x ∈ xs, ActionFaults (g x) P) : ActionFaults (xs.forM g) P := by
  induction xs with
  | nil => exact actionFaults_pure ()
  | cons x xs ih =>
    obtain ⟨hx, hxs⟩ := List.forall_mem_cons.mp h
    exact actionFaults_bind hx fun _ => ih hxs

end Rules

/-! ## Snippets -/

namespace Scope

variable {σ : Type} {host : Host σ} {scope : Scope}

theorem writeFile_faults {P : Fault → Prop} (line : Nat) (file : String) (lines : Lines) :
    ActionFaults (writeFile host line file lines) P := by
  refine actionFaults_bind (actionFaults_ask host _) fun answer => ?_
  split
  · exact actionFaults_pure ()
  · exact actionFaults_throw_abort _

theorem runCommand_faults {P : Fault → Prop} (line : Nat) (argv : List String) :
    ActionFaults (runCommand host line argv) P := by
  refine actionFaults_bind (actionFaults_ask host _) fun answer => ?_
  split
  · exact actionFaults_pure _
  · exact actionFaults_fail _

theorem checkSuccess_faults {P : Fault → Prop} (line : Nat) (r : CommandResult) :
    StopFaults (checkSuccess line r) P := by
  unfold checkSuccess
  split
  · exact stopFaults_ok ()
  · exact stopFaults_failure _

theorem checkExit_faults {P : Fault → Prop} (p : Properties) (r : CommandResult) :
    StopFaults (checkExit p r) P := by
  unfold checkExit
  dsimp only
  split
  · exact stopFaults_failure _
  · split
    · exact stopFaults_failure _
    · split
      · exact stopFaults_ok ()
      · exact stopFaults_failure _

theorem runAll_faults {P : Fault → Prop} (line : Nat) {check : CommandResult → Except Stop Unit}
    (hcheck : ∀ r, StopFaults (check r) P) (commands : List (List String)) :
    ActionFaults (runAll host line check commands) P := by
  induction commands with
  | nil => exact actionFaults_pure ()
  | cons argv rest ih =>
    cases rest with
    | nil =>
      exact actionFaults_bind (runCommand_faults line argv) fun r =>
        actionFaults_ofExcept (hcheck r)
    | cons next rest =>
      refine actionFaults_bind (runCommand_faults line argv) fun r => ?_
      exact actionFaults_bind (actionFaults_ofExcept (checkSuccess_faults line r)) fun _ => ih

section Document

variable {s : Snippet} {line : Nat}

/-- What is referred to is a snippet of the document, or the fault stands where it is referred to. -/
theorem checkStream_faults (hindex : scope.Indexed) (hline : scope.document.PartLine line)
    (key : String) (content : StreamContent) (captured : String) :
    StopFaults (scope.checkStream line key content captured)
      (·.On scope.document.PartLine) := by
  have honline {f : Fault} (hf : OnLine line f) : f.On scope.document.PartLine := hf.on hline
  refine stopFaults_bind (stopFaults_mapError
    (faults_mono (scope.snippet_faults line key _) fun _ => honline)) fun other hother => ?_
  have hmem := hindex _ _ (snippet_eq_ok.mp (mapError_eq_ok.mp hother))
  refine stopFaults_bind (stopFaults_mapError (innerLines_faults hindex hmem)) fun expected _ => ?_
  have hcompare (actual : Lines) (f : Failure) : StopFaults
      (if sameLines expected actual then pure () else throw (.failure f))
      (·.On scope.document.PartLine) := by
    split
    · exact stopFaults_ok ()
    · exact stopFaults_failure f
  dsimp only
  split
  · exact hcompare _ _
  · next id _ =>
    refine stopFaults_bind (stopFaults_mapError
      (faults_mono (scope.lineMod_faults line key id) fun _ => honline)) fun m _ => ?_
    exact stopFaults_bind (stopFaults_mapError
      (faults_mono (edit_faults m line _) fun _ => honline)) fun actual _ => hcompare actual _

theorem checkLast_faults (hindex : scope.Indexed) {p : Properties}
    (hline : scope.document.PartLine p.line) (r : CommandResult) :
    StopFaults (scope.checkLast p r) (·.On scope.document.PartLine) := by
  have hstream (key : String) (content : Option StreamContent) (captured : String) :
      StopFaults (scope.checkStream? p.line key content captured)
        (·.On scope.document.PartLine) := by
    unfold checkStream?
    split
    · exact checkStream_faults hindex hline key _ captured
    · exact stopFaults_ok ()
  refine stopFaults_bind (checkExit_faults p r) fun _ _ => ?_
  exact stopFaults_bind (hstream _ _ _) fun _ _ => hstream _ _ _

theorem externalLines_faults (hindex : scope.Indexed) (hline : scope.document.PartLine line)
    (external : External) :
    Faults (scope.externalLines line external) (·.On scope.document.PartLine) := by
  unfold externalLines
  split
  · exact faults_ok _
  · refine faults_bind (faults_mono (scope.snippet_faults _ _ _) fun f hf => hf.on hline)
      fun other hother => ?_
    have hmem := hindex _ _ (snippet_eq_ok.mp hother)
    split
    · exact innerLines_faults hindex hmem
    · exact outerLines_faults hindex hmem

theorem runSnippet_faults (hindex : scope.Indexed) (hs : s ∈ scope.document.snippets)
    (d : CommandDef) :
    ActionFaults (scope.runSnippet host s d) (·.On scope.document.PartLine) := by
  have hline : scope.document.PartLine s.properties.line := Document.partLine_of_mem hs
  unfold runSnippet
  dsimp only
  split
  · exact actionFaults_throw_fault ⟨_, rfl, hline⟩
  · refine actionFaults_ofFault (outerLines_faults hindex hs) fun lines _ => ?_
    refine actionFaults_bind (writeFile_faults _ _ _) fun _ => ?_
    refine actionFaults_bind (actionFaults_forM fun external _ => ?_) fun _ => ?_
    · exact actionFaults_ofFault (externalLines_faults hindex hline external) fun _ _ =>
        writeFile_faults _ _ _
    · split
      · exact actionFaults_pure _
      · exact actionFaults_bind (runAll_faults _ (checkLast_faults hindex hline) _) fun _ =>
          actionFaults_pure _

theorem compareSnippet_faults (hindex : scope.Indexed) (hs : s ∈ scope.document.snippets)
    (id : String) :
    ActionFaults (scope.compareSnippet s id : Action σ Outcome)
      (·.On scope.document.PartLine) := by
  have hline : scope.document.PartLine s.line := Document.partLine_of_mem hs
  refine actionFaults_ofFault (faults_mono (scope.snippet_faults _ _ id) fun f hf => hf.on hline)
    fun other hother => ?_
  have hmem := hindex _ _ (snippet_eq_ok.mp hother)
  refine actionFaults_ofFault (innerLines_faults hindex hmem) fun expected _ => ?_
  refine actionFaults_ofFault (innerLines_faults hindex hs) fun actual _ => ?_
  split
  · exact actionFaults_pure _
  · exact actionFaults_fail _

theorem findSnippet_faults (hindex : scope.Indexed) (hs : s ∈ scope.document.snippets)
    (path : String) :
    ActionFaults (scope.findSnippet host s path) (·.On scope.document.PartLine) := by
  refine actionFaults_bind (actionFaults_ask host _) fun answer => ?_
  split
  · exact actionFaults_throw_fault ⟨_, rfl, Document.partLine_of_mem hs⟩
  · refine actionFaults_ofFault (innerLines_faults hindex hs) fun own _ => ?_
    split
    · exact actionFaults_pure _
    · exact actionFaults_fail _

theorem writeSnippet_faults (hindex : scope.Indexed) (hs : s ∈ scope.document.snippets) :
    ActionFaults (scope.writeSnippet host s) (·.On scope.document.PartLine) := by
  have houter (file : String) : ActionFaults (do
      let lines ← Action.ofFault (scope.outerLines s)
      writeFile host s.properties.line file lines) (·.On scope.document.PartLine) :=
    actionFaults_ofFault (outerLines_faults hindex hs) fun _ _ => writeFile_faults _ _ _
  unfold writeSnippet
  dsimp only
  split
  · refine actionFaults_ofFault (innerLines_faults hindex hs) fun lines _ => ?_
    refine actionFaults_bind (writeFile_faults _ _ _) fun _ => ?_
    split
    · exact houter _
    · exact actionFaults_pure ()
  · split
    · exact houter _
    · exact actionFaults_pure ()

theorem handleByLanguage_faults (hindex : scope.Indexed) (hs : s ∈ scope.document.snippets) :
    ActionFaults (scope.handleByLanguage host s) (·.On scope.document.PartLine) := by
  have hline : scope.document.PartLine s.properties.line := Document.partLine_of_mem hs
  refine actionFaults_ofFault (faults_mono (scope.language?_faults _) fun f hf => hf.on hline)
    fun lang _ => ?_
  split
  · exact actionFaults_throw_fault ⟨_, rfl, hline⟩
  · exact actionFaults_pure _
  · split
    · split
      · exact runSnippet_faults hindex hs _
      · exact actionFaults_ofFault (outerLines_faults hindex hs) fun _ _ => actionFaults_pure _
    · exact actionFaults_bind (writeSnippet_faults hindex hs) fun _ => actionFaults_pure _

/-- **The faults of a snippet that is handled.** -/
theorem handle_faults (hindex : scope.Indexed) (hs : s ∈ scope.document.snippets) :
    ActionFaults (scope.handle host s) (·.On scope.document.PartLine) := by
  unfold handle
  split
  · exact compareSnippet_faults hindex hs _
  · exact findSnippet_faults hindex hs _
  · exact handleByLanguage_faults hindex hs

end Document

end Scope

/-! ## Runs -/

namespace Document

variable {σ : Type} {d : Document} {host : Host σ} {st : RunState} {w : World σ}

/-- A fault whose place is known keeps it. -/
theorem orAtLine_of_on {P : Nat → Prop} {f : Fault} (h : f.On P) (line : Nat) :
    f.orAtLine line = f := by
  obtain ⟨n, hplace, -⟩ := h
  unfold Fault.orAtLine
  rw [hplace]

/-- The faults that an entity adds to the log stand on lines of snippets and of patches. -/
theorem faults_of_adds (hindex : Scope.Indexed (st.scope d)) {heading : Option Heading}
    {e : Entity} {block : List Event} (he : e ∈ d.entities) (h : Adds d host st w heading e block)
    {f : Fault} (hf : .fault f ∈ block) : f.On fun n => d.PartLine n ∨ d.PatchLine n := by
  cases h with
  | heading _ | lineMod _ | accepted _ | notRun _ | idle _ _ => cases hf
  | rejected _ _ =>
    cases List.mem_singleton.mp hf
    exact ⟨_, rfl, .inr ⟨_, he⟩⟩
  | @outcome s event _ h =>
    rcases List.mem_append.mp hf with hf | hf
    · obtain ⟨_, -, hheading⟩ := List.mem_map.mp hf
      cases hheading
    · obtain rfl := List.mem_singleton.mp hf
      unfold Event.ofResult? at h
      split at h <;> cases h
      next hresult _ =>
        have hon := Scope.handle_faults hindex (mem_snippets.mpr he) w _ hresult
        rw [orAtLine_of_on hon]
        exact hon.mono fun n hn => .inl hn

/-- **The faults of a run.** At every entity that the run of a document gets to, the faults that have
been logged are those of the index and faults on lines of snippets and of patches. -/
theorem faults_of_runsTo {es : List Entity} {config : Config} {w₀ : World σ} {i : Nat}
    (h : (ofEntities es).RunsTo host config w₀ i st w) {f : Fault}
    (hf : .fault f ∈ st.report.events) :
    f ∈ (ofEntities es).indexFaults ∨
      f.On fun n => (ofEntities es).PartLine n ∨ (ofEntities es).PatchLine n := by
  obtain ⟨history, hentities, hevents, -, hhistory⟩ := h.log
  rw [hevents] at hf
  rcases List.mem_append.mp hf with hf | hf
  · obtain ⟨g, hg, hsame⟩ := List.mem_map.mp hf
    cases hsame
    exact .inl hg
  · obtain ⟨⟨e, block⟩, hmem, hblock⟩ := List.mem_flatMap.mp hf
    obtain ⟨before, after, hsplit⟩ := List.append_of_mem hmem
    obtain ⟨st', v, hruns, hadds⟩ := hhistory before e block after hsplit
    have he : e ∈ (ofEntities es).entities := by
      refine List.mem_of_mem_take (i := i) ?_
      rw [← hentities]
      exact List.mem_map_of_mem hmem
    exact .inr (faults_of_adds (Scope.indexed_ofEntities es _ _) he hadds hblock)

/-- A line that a fault in the log can stand on. Line mods are not run, so only the index finds faults
on their lines. -/
def FaultLine (d : Document) (f : Fault) (n : Nat) : Prop :=
  d.PartLine n ∨ d.PatchLine n ∨ f ∈ d.indexFaults ∧ d.LineModLine n

/-- The same with the place spelled out, for a document that was read from a text. -/
theorem faultLine_of_runsTo {source : String} {config : Config} {w₀ : World σ} {i : Nat}
    (hparse : parse source = .ok d) (h : d.RunsTo host config w₀ i st w) {f : Fault}
    (hf : .fault f ∈ st.report.events) :
    ∃ n, f.place = some (.line n) ∧ Source.HasLine source.toList n ∧ d.FaultLine f n := by
  obtain ⟨-, es, -, -, rfl⟩ := tokens_of_parse hparse
  rcases faults_of_runsTo h hf with hindex | ⟨n, hplace, hpart | hpatch⟩
  · obtain ⟨n, hplace, hpart | hlineMod⟩ := indexFaults_on es f hindex
    · exact ⟨n, hplace, hasLine_of_partLine hparse hpart, .inl hpart⟩
    · exact ⟨n, hplace, hasLine_of_lineModLine hparse hlineMod, .inr (.inr ⟨hindex, hlineMod⟩)⟩
  · exact ⟨n, hplace, hasLine_of_partLine hparse hpart, .inl hpart⟩
  · exact ⟨n, hplace, hasLine_of_patchLine hparse hpatch, .inr (.inl hpatch)⟩

end Document

/-- **Every fault stands on a line.** A text that cannot be read has its faults on its own lines. The
faults of a document that was read stand on lines of the text where something is declared, whatever
configuration it is run with and whatever the host does: those of the index, those of lines that are
put together, and those that are logged up to any entity that the run gets to, whether the run is
aborted behind it or not. None of them is without a place, and none has another place. -/
theorem fault_places (source : String) :
    (∀ faults, Document.parse source = .error faults → ∀ f ∈ faults,
      ∃ n, f.place = some (.line n) ∧ Source.HasLine source.toList n) ∧
    ∀ d, Document.parse source = .ok d →
      (∀ f ∈ d.indexFaults, ∃ n, f.place = some (.line n) ∧ Source.HasLine source.toList n ∧
        (d.PartLine n ∨ d.LineModLine n)) ∧
      (∀ (config : Config) (lineMods : List LineMod), ∀ s ∈ d.snippets, ∀ f,
        Scope.innerLines ⟨d, config, lineMods⟩ s = .error f ∨
            Scope.outerLines ⟨d, config, lineMods⟩ s = .error f →
          ∃ n, f.place = some (.line n) ∧ Source.HasLine source.toList n ∧ d.PartLine n) ∧
      ∀ {σ : Type} (host : Host σ) (config : Config) (w₀ : World σ),
        (∀ i st w, d.RunsTo host config w₀ i st w → ∀ f, .fault f ∈ st.report.events →
          ∃ n, f.place = some (.line n) ∧ Source.HasLine source.toList n ∧ d.FaultLine f n) ∧
        ∀ report w, d.run host config w₀ = (.ok report, w) → ∀ f, .fault f ∈ report.events →
          ∃ n, f.place = some (.line n) ∧ Source.HasLine source.toList n ∧ d.FaultLine f n := by
  refine ⟨fun faults h => Document.faults_of_parse h, fun d hparse => ?_⟩
  have hpartLine {f : Fault} (hf : f.On d.PartLine) :
      ∃ n, f.place = some (.line n) ∧ Source.HasLine source.toList n ∧ d.PartLine n := by
    obtain ⟨n, hplace, hn⟩ := hf
    exact ⟨n, hplace, Document.hasLine_of_partLine hparse hn, hn⟩
  refine ⟨fun f hf => ?_, fun config lineMods s hs f hf => ?_, fun host config w₀ => ⟨?_, ?_⟩⟩
  · obtain ⟨-, es, -, -, rfl⟩ := Document.tokens_of_parse hparse
    obtain ⟨n, hplace, hn⟩ := Document.indexFaults_on es f hf
    exact ⟨n, hplace, hn.elim (Document.hasLine_of_partLine hparse)
      (Document.hasLine_of_lineModLine hparse), hn⟩
  · have hindex : Scope.Indexed ⟨d, config, lineMods⟩ := by
      obtain ⟨-, es, -, -, rfl⟩ := Document.tokens_of_parse hparse
      exact Scope.indexed_ofEntities es config lineMods
    rcases hf with hf | hf
    · exact hpartLine (Scope.innerLines_faults hindex hs f hf)
    · exact hpartLine (Scope.outerLines_faults hindex hs f hf)
  · exact fun i st w h f hf => Document.faultLine_of_runsTo hparse h hf
  · intro report w h f hf
    obtain ⟨st, hruns, rfl⟩ := Document.runsTo_of_run h
    rw [Report.events_recordAll] at hf
    rcases List.mem_append.mp hf with hf | hf
    · exact Document.faultLine_of_runsTo hparse hruns hf
    · obtain ⟨_, -, hwarning⟩ := List.mem_map.mp hf
      cases hwarning

/-- A directive without an end on the third line. -/
def withoutEnd : String := "text\n\n<!--markcheck id="

/-- An ID that is declared twice, and behind that a language that is not known. -/
def declaredTwice : String :=
  "<!--markcheck id=\"a\"-->\n```sh\ntrue\n```\n<!--markcheck id=\"a\"-->\n```sh\n```\n```zz\n```\n"

theorem fault_places_declaredTwice :
    (∃ faults, Document.parse withoutEnd = .error faults ∧
      ∃ f ∈ faults, ∃ n, f.place = some (.line n) ∧ 1 ≤ n ∧ n ≤ 3) ∧
    ∃ d report w, Document.parse declaredTwice = .ok d ∧
      d.run Script.host .builtin ⟨⟨[], [], [], []⟩, []⟩ = (.ok report, w) ∧
      (∃ f ∈ d.indexFaults, ∃ n, f.place = some (.line n) ∧ d.FaultLine f n) ∧
      ∃ f n, .fault f ∈ report.events ∧ f ∉ d.indexFaults ∧ f.place = some (.line n) ∧
        1 ≤ n ∧ n ≤ 10 ∧ (d.PartLine n ∨ d.PatchLine n) := by
  constructor
  · have hfaults : (match Document.parse withoutEnd with
        | .error faults => faults
        | .ok _ => []) ≠ [] := by
      decide +kernel
    cases hparse : Document.parse withoutEnd with
    | ok d =>
      rw [hparse] at hfaults
      exact absurd rfl hfaults
    | error faults =>
      rw [hparse] at hfaults
      obtain ⟨f, hf⟩ := List.exists_mem_of_ne_nil faults hfaults
      obtain ⟨n, hplace, hfirst, hlast⟩ := (fault_places withoutEnd).1 faults hparse f hf
      have hcount : withoutEnd.toList.count '\n' = 2 := by decide
      exact ⟨faults, rfl, f, hf, n, hplace, hfirst, hlast.trans_eq (congrArg (· + 1) hcount)⟩
  · let unknown : Fault := .atLine 8 (RunCause.unknownLanguage "zz")
    have hrun : (Document.parse declaredTwice).toOption.bind (fun d =>
        (d.run Script.host .builtin ⟨⟨[], [], [], []⟩, []⟩).1.toOption.map fun report =>
          (d.indexFaults ≠ [] && !d.indexFaults.contains unknown &&
            report.events.contains (.fault unknown))) = some true := by
      decide +kernel
    cases hparse : Document.parse declaredTwice with
    | error faults =>
      rw [hparse] at hrun
      cases hrun
    | ok d =>
      obtain ⟨report, hreport, hrun⟩ : ∃ report,
          (d.run Script.host .builtin ⟨⟨[], [], [], []⟩, []⟩).1 = .ok report ∧
            (d.indexFaults ≠ [] && !d.indexFaults.contains unknown &&
              report.events.contains (.fault unknown)) = true := by
        rw [hparse] at hrun
        cases hresult : (d.run Script.host .builtin ⟨⟨[], [], [], []⟩, []⟩).1 with
        | error a => simp [Except.toOption, hresult] at hrun
        | ok report => exact ⟨report, rfl, by simpa [Except.toOption, hresult] using hrun⟩
      simp only [Bool.and_eq_true, decide_eq_true_eq, Bool.not_eq_true', List.contains_eq_mem,
        decide_eq_false_iff_not] at hrun
      obtain ⟨⟨hindex, hother⟩, hmem⟩ := hrun
      obtain ⟨hindexPlace, -, hrunPlace⟩ := (fault_places declaredTwice).2 d hparse
      obtain ⟨f, hf⟩ := List.exists_mem_of_ne_nil _ hindex
      obtain ⟨m, hm, -, hmline⟩ := hindexPlace f hf
      obtain ⟨n, hn, ⟨hfirst, hlast⟩, hnline⟩ :=
        (hrunPlace Script.host .builtin _).2 report _ (Prod.ext hreport rfl) unknown hmem
      have hcount : declaredTwice.toList.count '\n' = 9 := by decide
      refine ⟨d, report, _, rfl, Prod.ext hreport rfl, ⟨f, hf, m, hm, ?_⟩, unknown, n, hmem, hother,
        hn, hfirst, hlast.trans_eq (congrArg (· + 1) hcount), ?_⟩
      · exact hmline.elim .inl fun h => .inr (.inr ⟨hf, h⟩)
      · rcases hnline with h | h | ⟨h, -⟩
        · exact .inl h
        · exact .inr h
        · exact absurd h hother

end Doctest
