import Doctest.Proofs.Calls
import Doctest.Proofs.Index
import Mathlib.Data.List.Forall2

/-!
# What is asked for an entity

Each entity has its own calls. They are said here by rules that only look at what the document, the
configuration and the line mods in force say about it.

* `WritesFiles`, `Interrupted`: files are written in their order, all of them or up to one that cannot be.
* `FillsCommand`: what becomes of the words in a command that stand for files.
* `AsksFor`: the calls that are made for an entity.
* `makes_visit`: one visit makes such calls.
* `run_calls`: the calls of a run are those for the entities that it visits, in their order.
-/

namespace Doctest

/-! ## Files -/

/-- A file and what it is to hold. -/
structure PlannedFile where
  name : String
  Holds : Lines → Prop

/-- The calls write these files, in their order. -/
def WritesFiles (files : List PlannedFile) (calls : List Call) : Prop :=
  List.Forall₂ (fun file call => ∃ lines, file.Holds lines ∧ call = .write file.name lines) files calls

/-- The calls write the files up to one. -/
inductive Interrupted {σ : Type} (host : Host σ) (st : σ) (files : List PlannedFile) :
    List Call → Prop
  /-- The next file has no lines that could be written. -/
  | unfilled {done rest : List PlannedFile} {next : PlannedFile} {calls : List Call}
      (hfiles : files = done ++ next :: rest) (h : WritesFiles done calls)
      (hnext : ∀ lines, ¬ next.Holds lines) : Interrupted host st files calls
  /-- The last of them cannot be written. -/
  | failed {done rest : List PlannedFile} {calls : List Call}
      (hfiles : files = done ++ rest) (h : WritesFiles done calls)
      (hfails : host.LastFails st calls) : Interrupted host st files calls

namespace Scope

/-- A file beside the main one. It is empty or holds the lines of the snippet that it names. -/
def besideFile (scope : Scope) (x : External) : PlannedFile where
  name := x.fileName
  Holds lines := match x.id with
    | none => lines = []
    | some id => ∃ s, scope.document.snippet? id = some s ∧
        (if x.localLines then scope.innerLines s else scope.outerLines s) = .ok lines

/-- The files of a snippet that is run. -/
def runFiles (scope : Scope) (s : Snippet) (main : String) : List PlannedFile :=
  ⟨main, fun lines => scope.outerLines s = .ok lines⟩ ::
    s.properties.externals.map scope.besideFile

/-- The files that a snippet asks for. -/
def askedFiles (scope : Scope) (s : Snippet) : List PlannedFile :=
  (s.properties.writeLocal.toList.map fun file => ⟨file, fun lines => scope.innerLines s = .ok lines⟩) ++
    s.properties.write.toList.map fun file => ⟨file, fun lines => scope.outerLines s = .ok lines⟩

end Scope

/-! ## Commands -/

/-- What an argument in a template stands for. -/
def FillsArgument (main : String) (files : List String) (arg : String) (args : List String) : Prop :=
  if arg = "$ALL_FILE_NAMES" then args = files
  else ∃ text, Text.Replaced "$FILE_NAME".toList main.toList arg.toList text ∧
    args = [String.ofList text]

/-- What a template stands for, with the main file and all files of a snippet. -/
def FillsCommand (main : String) (files template argv : List String) : Prop :=
  ∃ parts, List.Forall₂ (FillsArgument main files) template parts ∧ argv = parts.flatten

/-! ## Entities -/

/-- The snippet is not run: it is passed over anyway, or another one is the only one to run. -/
def Snippet.IsPassedOver (entities : List Entity) (s : Snippet) : Prop :=
  s.mode = .skip ∨ s.mode = .normal ∧ ∃ only, Entity.snippet only ∈ entities ∧ only.mode = .only

/-- The calls that are made for a snippet by its language. -/
inductive AsksByLanguage {σ : Type} (host : Host σ) (scope : Scope) (st : σ) (s : Snippet) :
    List Call → Prop
  /-- The language is not known, or its definition cannot be found. -/
  | undefined (h : ∀ def?, scope.config.lang? s.lang ≠ .ok (some def?)) :
      AsksByLanguage host scope st s []
  | skip (h : scope.config.lang? s.lang = .ok (some .skip)) : AsksByLanguage host scope st s []
  | neverRun (h : scope.config.lang? s.lang = .ok (some .neverRun))
      (hasked : scope.askedFiles s = []) : AsksByLanguage host scope st s []
  | asked {lang : LangDef} {calls : List Call} (h : scope.config.lang? s.lang = .ok (some lang))
      (hlang : lang ≠ .skip) (hasked : scope.askedFiles s ≠ [])
      (hcalls : WritesFiles (scope.askedFiles s) calls ∨
        Interrupted host st (scope.askedFiles s) calls) : AsksByLanguage host scope st s calls
  /-- Nothing says what the main file is called. -/
  | unnamed {d : CommandDef} (h : scope.config.lang? s.lang = .ok (some (.command d)))
      (hasked : scope.askedFiles s = []) (hmain : s.fileName d = none) :
      AsksByLanguage host scope st s []
  | interrupted {d : CommandDef} {main : String} {calls : List Call}
      (h : scope.config.lang? s.lang = .ok (some (.command d)))
      (hasked : scope.askedFiles s = []) (hmain : s.fileName d = some main)
      (hcalls : Interrupted host st (scope.runFiles s main) calls) :
      AsksByLanguage host scope st s calls
  /-- All files are written before the first command is run. -/
  | run {d : CommandDef} {main : String} {written : List Call} {templates started : List (List String)}
      (h : scope.config.lang? s.lang = .ok (some (.command d)))
      (hasked : scope.askedFiles s = []) (hmain : s.fileName d = some main)
      (hwritten : WritesFiles (scope.runFiles s main) written) (heach : host.WritesEach st written)
      (htemplates : templates <+: d.commands.getD [])
      (hsome : d.commands.getD [] ≠ [] → templates ≠ [])
      (hstarted : List.Forall₂ (FillsCommand main ((scope.runFiles s main).map (·.name)))
        templates started) :
      AsksByLanguage host scope st s (written ++ started.map .run)

/-- The calls that are made for a snippet that is run. -/
inductive AsksForSnippet {σ : Type} (host : Host σ) (scope : Scope) (st : σ) (s : Snippet) :
    List Call → Prop
  | compared {id : String} (h : s.properties.sameAs = some id) : AsksForSnippet host scope st s []
  | lookedUp {path : String} (hsame : s.properties.sameAs = none)
      (h : s.properties.containedInFile = some path) : AsksForSnippet host scope st s [.read path]
  | byLanguage {calls : List Call} (hsame : s.properties.sameAs = none)
      (hfile : s.properties.containedInFile = none) (h : AsksByLanguage host scope st s calls) :
      AsksForSnippet host scope st s calls

/-- The calls that are made for an entity of a document when the host is in the state `st`. -/
inductive AsksFor {σ : Type} (host : Host σ) (scope : Scope) (st : σ) : Entity → List Call → Prop
  | heading (h : Heading) : AsksFor host scope st (.heading h) []
  | lineMod (m : LineMod) : AsksFor host scope st (.lineMod m) []
  | config (line : Nat) (p : ConfigPatch) :
      AsksFor host scope st (.config line p) (p.directory.toList.map .useDirectory)
  | passedOver {s : Snippet} (h : s.IsPassedOver scope.document.entities) :
      AsksFor host scope st (.snippet s) []
  | snippet {s : Snippet} {calls : List Call} (hrun : ¬ s.IsPassedOver scope.document.entities)
      (h : AsksForSnippet host scope st s calls) : AsksFor host scope st (.snippet s) calls

/-! ## Writing files -/

/-- How the writing of files goes together with its calls. -/
structure WritesOrEnds {σ : Type} (host : Host σ) (line : Nat) (files : List PlannedFile) (st : σ)
    (calls : List Call) (r : Except Stop Unit) : Prop where
  ends : Ends host line st calls r
  writes : r = .ok () → WritesFiles files calls
  interrupted : r ≠ .ok () → Interrupted host st files calls

section Files

variable {σ : Type} {host : Host σ} {line : Nat} {files files' : List PlannedFile} {st : σ}
  {calls calls' : List Call}

theorem WritesFiles.append (h : WritesFiles files calls) (h' : WritesFiles files' calls') :
    WritesFiles (files ++ files') (calls ++ calls') := List.rel_append h h'

theorem Interrupted.append_right (h : Interrupted host st files calls) (files' : List PlannedFile) :
    Interrupted host st (files ++ files') calls := by
  cases h with
  | @unfilled done rest next _ hfiles h hnext =>
    exact .unfilled (by rw [hfiles, List.append_assoc]; rfl) h hnext
  | @failed done rest _ hfiles h hfails =>
    exact .failed (by rw [hfiles, List.append_assoc]) h hfails

theorem Interrupted.append_left (h : WritesFiles files calls)
    (h' : Interrupted host (host.after st calls) files' calls') :
    Interrupted host st (files ++ files') (calls ++ calls') := by
  cases h' with
  | unfilled hfiles h' hnext =>
    exact .unfilled (by rw [hfiles, ← List.append_assoc]) (h.append h') hnext
  | failed hfiles h' hfails =>
    exact .failed (by rw [hfiles, ← List.append_assoc]) (h.append h') hfails.append

theorem makes_noFiles : Makes host (pure () : Action σ Unit).run (WritesOrEnds host line []) :=
  makes_pure fun _ => ⟨.nil (goesOn_ok ()), fun _ => .nil, fun h => absurd rfl h⟩

/-- Files in two steps. -/
theorem makes_moreFiles {x y : Action σ Unit} (hx : Makes host x.run (WritesOrEnds host line files))
    (hy : Makes host y.run (WritesOrEnds host line files')) :
    Makes host (x >>= fun _ => y).run (WritesOrEnds host line (files ++ files')) := by
  refine makes_bind hx (fun _ => hy) ?_ ?_
  · rintro st calls _ calls' r h h'
    have hwrites := h.writes rfl
    exact ⟨h.ends.append h'.ends, fun hr => hwrites.append (h'.writes hr),
      fun hr => .append_left hwrites (h'.interrupted hr)⟩
  · intro st calls stop h
    exact ⟨h.ends.stop, (by cases ·), fun _ => (h.interrupted (by simp)).append_right files'⟩

/-- One file is written if its lines can be put together. -/
theorem makes_file {lines : Except Fault Lines} (file : PlannedFile)
    (hfile : ∀ ls, lines = .ok ls ↔ file.Holds ls) :
    Makes host (do
      let lines ← Action.ofFault lines
      Scope.writeFile host line file.name lines).run (WritesOrEnds host line [file]) := by
  refine makes_ofFault lines ?_ ?_
  · rintro ls hlines
    refine makes_mono (Scope.makes_writeFile line file.name ls) ?_
    rintro st _ r ⟨rfl, hfails, hends⟩
    have hwrites : WritesFiles [file] [.write file.name ls] :=
      .cons ⟨ls, (hfile ls).mp hlines, rfl⟩ .nil
    exact ⟨hends, fun _ => hwrites, fun hr => .failed (List.append_nil _).symm hwrites (hfails hr)⟩
  · rintro fault hlines st
    have hsplit : [file] = [] ++ file :: [] := rfl
    refine ⟨.nil (goesOn_fault fault), (by cases ·), fun _ => .unfilled hsplit .nil ?_⟩
    intro ls hholds
    cases hlines.symm.trans ((hfile ls).mpr hholds)

/-- One file for each entry of a list. -/
theorem makes_forM {α : Type} (lines : α → Except Fault Lines) (file : α → PlannedFile)
    (hfile : ∀ x ls, lines x = .ok ls ↔ (file x).Holds ls) (xs : List α) :
    Makes host (xs.forM fun x => do
      let lines ← Action.ofFault (lines x)
      Scope.writeFile host line (file x).name lines : Action σ Unit).run
      (WritesOrEnds host line (xs.map file)) := by
  induction xs with
  | nil => exact makes_noFiles
  | cons x xs ih => exact makes_moreFiles (makes_file (file x) (hfile x)) ih

end Files

/-! ## Running commands -/

theorem fillsArgument (main : String) (files : List String) (arg : String) :
    FillsArgument main files arg (if arg = Config.allFileNamesWord then files
      else [String.ofList (Text.replace Config.fileNameWord.toList main.toList arg.toList)]) := by
  unfold FillsArgument Config.allFileNamesWord
  split
  · rfl
  · exact ⟨_, Text.replaced_replace (by decide) _ _, rfl⟩

/-- Commands are filled in one by one. -/
theorem fillsCommand_of_prefix {main : String} {files : List String}
    {templates started : List (List String)} (h : started <+: fillCommands templates main files) :
    ∃ templates', templates' <+: templates ∧
      List.Forall₂ (FillsCommand main files) templates' started := by
  obtain ⟨templates', hprefix, rfl⟩ := List.prefix_map_iff.mp h
  refine ⟨templates', hprefix, List.forall₂_map_right_iff.mpr (List.forall₂_same.mpr ?_)⟩
  intro template _
  refine ⟨_, ?_, List.flatMap_def⟩
  exact List.forall₂_map_right_iff.mpr (List.forall₂_same.mpr fun arg _ => fillsArgument main files arg)

namespace Scope

variable {σ : Type} {host : Host σ} {scope : Scope}

theorem RunsAll.started {line : Nat} {check : CommandResult → Except Stop Unit}
    {commands : List (List String)} {w v : World σ} {r : Except Stop Unit}
    (h : RunsAll host line check commands w r v) :
    ∃ started, started <+: commands ∧ started ≠ [] ∧
      v = ⟨host.after w.state (started.map .run), w.calls ++ started.map .run⟩ := by
  induction h with
  | @notStarted argv rest w _ _ =>
    exact ⟨[argv], ⟨rest, rfl⟩, by simp, rfl⟩
  | @last argv w _ _ => exact ⟨[argv], List.prefix_rfl, by simp, rfl⟩
  | @failed argv next rest w _ _ _ => exact ⟨[argv], ⟨next :: rest, rfl⟩, by simp, rfl⟩
  | @next argv next rest w _ _ _ _ _ _ ih =>
    obtain ⟨started, hprefix, -, rfl⟩ := ih
    refine ⟨argv :: started, List.cons_prefix_cons.mpr ⟨rfl, hprefix⟩, by simp, ?_⟩
    simp [afterCommand, Host.after]

theorem makes_runAll {line : Nat} {check : CommandResult → Except Stop Unit}
    (hcheck : ∀ r, GoesOn (check r)) {commands : List (List String)} (hne : commands ≠ []) :
    Makes host (runAll host line check commands).run fun _ calls r =>
      GoesOn r ∧ ∃ started, started <+: commands ∧ started ≠ [] ∧ calls = started.map .run := by
  intro w
  have hruns := runsAll_runAll host line check hne w
  obtain ⟨started, hprefix, hstarted, hworld⟩ := hruns.started
  exact ⟨_, hworld, hruns.goesOn hcheck, started, hprefix, hstarted, rfl⟩

/-! ## Snippets -/

theorem externalLines_eq_ok {line : Nat} {x : External} {lines : Lines} :
    scope.externalLines line x = .ok lines ↔ (scope.besideFile x).Holds lines := by
  unfold externalLines besideFile
  cases x.id with
  | none => simp [eq_comm]
  | some id =>
    simp only [bind_eq_ok, snippet_eq_ok]

theorem makes_writeFiles (s : Snippet) (main : String) :
    Makes host (scope.writeFiles host s main).run
      (WritesOrEnds host s.line (scope.runFiles s main)) := by
  unfold writeFiles
  rw [← bind_assoc]
  let file : PlannedFile := ⟨main, fun lines => scope.outerLines s = .ok lines⟩
  have hmain : Makes host _ (WritesOrEnds host s.line [file]) := makes_file file fun _ => Iff.rfl
  exact makes_moreFiles hmain (makes_forM _ scope.besideFile (fun _ _ => externalLines_eq_ok) _)

theorem names_runFiles (s : Snippet) (main : String) :
    (scope.runFiles s main).map (·.name) = s.allFileNames main := by
  simp [runFiles, besideFile, Snippet.allFileNames, Function.comp_def]

theorem makes_runSnippet {s : Snippet} {d : CommandDef}
    (h : scope.config.lang? s.lang = .ok (some (.command d))) (hasked : scope.askedFiles s = []) :
    Makes host (scope.runSnippet host s d).run fun st calls r =>
      AsksByLanguage host scope st s calls ∧ Ends host s.line st calls r := by
  cases hmain : s.fileName d with
  | none =>
    unfold runSnippet
    rw [hmain]
    exact makes_pure fun st => ⟨.unnamed h hasked hmain, .nil (goesOn_fault _)⟩
  | some main =>
    rw [runSnippet_eq hmain]
    refine makes_bind (makes_writeFiles s main) (R := fun _ _ calls r => GoesOn r ∧
      ∃ started, started <+: fillCommands (d.commands.getD []) main (s.allFileNames main) ∧
        (d.commands.getD [] ≠ [] → started ≠ []) ∧ calls = started.map .run) ?_ ?_ ?_
    · intro _
      cases hcommands : fillCommands (d.commands.getD []) main (s.allFileNames main) with
      | nil =>
        refine makes_pure fun st => ⟨goesOn_ok _, [], List.nil_prefix, fun hne => ?_, rfl⟩
        exact absurd (List.map_eq_nil_iff.mp hcommands) hne
      | cons first rest =>
        refine makes_bind (R := fun _ _ calls r => calls = [] ∧ GoesOn r)
          (makes_runAll (goesOn_checkLast _) (List.cons_ne_nil first rest)) ?_ ?_ ?_
        · exact fun _ => makes_pure fun _ => ⟨rfl, goesOn_ok _⟩
        · rintro st _ _ _ r ⟨-, started, hprefix, hstarted, rfl⟩ ⟨rfl, hr⟩
          exact ⟨hr, started, hprefix, fun _ => hstarted, List.append_nil _⟩
        · rintro st _ stop ⟨hr, started, hprefix, hstarted, rfl⟩
          exact ⟨goesOn_error hr, started, hprefix, fun _ => hstarted, rfl⟩
    · rintro st written _ _ r hfiles ⟨hr, started, hprefix, hstarted, rfl⟩
      rw [← names_runFiles] at hprefix
      obtain ⟨templates, htemplates, hfills⟩ := fillsCommand_of_prefix hprefix
      refine ⟨.run h hasked hmain (hfiles.writes rfl) hfiles.ends.writesEach htemplates ?_ hfills,
        hfiles.ends.append (.goesOn (Host.writesEach_run started) hr)⟩
      rintro hne rfl
      cases hfills
      exact hstarted hne rfl
    · intro st calls stop hfiles
      exact ⟨.interrupted h hasked hmain (hfiles.interrupted (by simp)), hfiles.ends.stop⟩

theorem makes_compareSnippet (s : Snippet) (id : String) :
    Makes host (scope.compareSnippet s id : Action σ Outcome).run fun _ calls r =>
      calls = [] ∧ GoesOn r := by
  unfold compareSnippet
  refine makes_ofFault _ (fun other _ => ?_) fun fault _ _ => ⟨rfl, goesOn_fault fault⟩
  refine makes_ofFault _ (fun expected _ => ?_) fun fault _ _ => ⟨rfl, goesOn_fault fault⟩
  refine makes_ofFault _ (fun actual _ => ?_) fun fault _ _ => ⟨rfl, goesOn_fault fault⟩
  split
  · exact makes_pure fun _ => ⟨rfl, goesOn_ok _⟩
  · exact makes_pure fun _ => ⟨rfl, goesOn_failure _⟩

theorem makes_findSnippet (s : Snippet) (path : String) :
    Makes host (scope.findSnippet host s path).run fun _ calls r =>
      calls = [.read path] ∧ GoesOn r := by
  unfold findSnippet
  refine makes_bind (P := fun _ calls r => calls = [.read path] ∧ GoesOn r)
    (R := fun _ _ calls r => calls = [] ∧ GoesOn r) ?_ ?_ ?_ ?_
  · refine makes_map (makes_mono (makes_ask _) ?_)
    rintro st _ answer ⟨rfl, -⟩
    exact ⟨rfl, goesOn_ok answer⟩
  · intro answer
    cases answer with
    | error reason => exact makes_pure fun _ => ⟨rfl, goesOn_fault _⟩
    | ok content =>
      refine makes_ofFault _ (fun own _ => ?_) fun fault _ _ => ⟨rfl, goesOn_fault fault⟩
      split
      · exact makes_pure fun _ => ⟨rfl, goesOn_ok _⟩
      · exact makes_pure fun _ => ⟨rfl, goesOn_failure _⟩
  · rintro st _ _ _ r ⟨rfl, -⟩ ⟨rfl, hr⟩
    exact ⟨List.append_nil _, hr⟩
  · rintro st _ stop ⟨rfl, hr⟩
    exact ⟨rfl, goesOn_error hr⟩

/-- A file that a snippet may ask for. -/
theorem makes_asked {line : Nat} (lines : Except Fault Lines) (file? : Option String) :
    Makes host (match file? with
      | some file => do
        let lines ← Action.ofFault lines
        writeFile host line file lines
      | none => pure () : Action σ Unit).run
      (WritesOrEnds host line (file?.toList.map fun file => ⟨file, fun ls => lines = .ok ls⟩)) := by
  cases file? with
  | none => exact makes_noFiles
  | some file => exact makes_file ⟨file, _⟩ fun _ => Iff.rfl

theorem makes_writeSnippet (s : Snippet) :
    Makes host (scope.writeSnippet host s).run (WritesOrEnds host s.line (scope.askedFiles s)) := by
  have hasked : Makes host _ (WritesOrEnds host s.line _) :=
    makes_moreFiles (makes_asked (scope.innerLines s) s.properties.writeLocal)
      (makes_asked (scope.outerLines s) s.properties.write)
  unfold writeSnippet askedFiles
  dsimp only
  cases hlocal : s.properties.writeLocal with
  | none =>
    rw [hlocal] at hasked
    exact hasked
  | some file =>
    rw [hlocal] at hasked
    dsimp only at hasked
    rw [bind_assoc] at hasked
    exact hasked

theorem askedFiles_eq_nil {s : Snippet} :
    scope.askedFiles s = [] ↔ s.properties.writeLocal.toList ++ s.properties.write.toList = [] := by
  simp [askedFiles]

theorem makes_handleByLanguage (s : Snippet) :
    Makes host (scope.handleByLanguage host s).run fun st calls r =>
      AsksByLanguage host scope st s calls ∧ Ends host s.line st calls r := by
  unfold handleByLanguage
  dsimp only
  refine makes_ofFault _ (fun lang? hlang? => ?_) fun fault hfault st => ?_
  · have hlang : scope.config.lang? s.lang = .ok lang? := atLine_eq_ok.mp hlang?
    have hfiles {lang : LangDef} {outcome : Outcome} (h : lang? = some lang) (hskip : lang ≠ .skip)
        (hasked : scope.askedFiles s ≠ []) :
        Makes host (do
          scope.writeSnippet host s
          return outcome : Action σ Outcome).run fun st calls r =>
            AsksByLanguage host scope st s calls ∧ Ends host s.line st calls r := by
      rw [h] at hlang
      refine makes_bind (R := fun _ _ calls r => calls = [] ∧ GoesOn r) (makes_writeSnippet s)
        (fun _ => makes_pure fun _ => ⟨rfl, goesOn_ok outcome⟩) ?_ ?_
      · rintro st calls _ _ r hwritten ⟨rfl, hr⟩
        rw [List.append_nil]
        exact ⟨.asked hlang hskip hasked (.inl (hwritten.writes rfl)),
          .goesOn hwritten.ends.writesEach hr⟩
      · intro st calls stop hwritten
        exact ⟨.asked hlang hskip hasked (.inr (hwritten.interrupted (by simp))), hwritten.ends.stop⟩
    cases lang? with
    | none =>
      refine makes_pure fun st => ⟨.undefined fun def? h => ?_, .nil (goesOn_fault _)⟩
      cases hlang.symm.trans h
    | some lang =>
      cases lang with
      | skip => exact makes_pure fun st => ⟨.skip hlang, .nil (goesOn_ok _)⟩
      | neverRun =>
        cases hasked : s.properties.writeLocal.toList ++ s.properties.write.toList with
        | nil =>
          have hcalls (st : σ) : AsksByLanguage host scope st s [] :=
            .neverRun hlang (askedFiles_eq_nil.mpr hasked)
          exact makes_ofFault _ (fun _ _ => makes_pure fun st => ⟨hcalls st, .nil (goesOn_ok _)⟩)
            fun fault _ st => ⟨hcalls st, .nil (goesOn_fault fault)⟩
        | cons file files =>
          exact hfiles rfl (by simp) (by simp [askedFiles_eq_nil, hasked])
      | command d =>
        cases hasked : s.properties.writeLocal.toList ++ s.properties.write.toList with
        | nil => exact makes_runSnippet hlang (askedFiles_eq_nil.mpr hasked)
        | cons file files => exact hfiles rfl (by simp) (by simp [askedFiles_eq_nil, hasked])
  · refine ⟨.undefined fun def? h => ?_, .nil (goesOn_fault fault)⟩
    cases hfault.symm.trans (atLine_eq_ok.mpr h)

theorem makes_handle (s : Snippet) :
    Makes host (scope.handle host s).run fun st calls r =>
      AsksForSnippet host scope st s calls ∧ Ends host s.line st calls r := by
  unfold handle
  cases hsame : s.properties.sameAs with
  | some id =>
    refine makes_mono (makes_compareSnippet s id) ?_
    rintro st _ r ⟨rfl, hr⟩
    exact ⟨.compared hsame, .nil hr⟩
  | none =>
    cases hfile : s.properties.containedInFile with
    | some path =>
      refine makes_mono (makes_findSnippet s path) ?_
      rintro st _ r ⟨rfl, hr⟩
      refine ⟨.lookedUp hsame hfile, .goesOn (Host.writesEach_single ?_) hr⟩
      rintro _ _ ⟨⟩
    | none =>
      refine makes_mono (makes_handleByLanguage s) ?_
      rintro st calls r ⟨hcalls, hends⟩
      exact ⟨.byLanguage hsame hfile hcalls, hends⟩

end Scope

/-! ## Entities of a run -/

section Visits

variable {σ : Type} {host : Host σ}

theorem makes_patch (st : RunState) (line : Nat) (p : ConfigPatch) :
    Makes host (st.patch host line p) fun _ calls _ =>
      calls = p.directory.toList.map .useDirectory := by
  unfold RunState.patch
  cases p.directory with
  | none => exact makes_pure fun _ => rfl
  | some directory =>
    intro w
    refine ⟨[.useDirectory directory], ?_, rfl⟩
    dsimp only
    rw [bind_apply (host.ask_apply _ w)]
    cases (host.answer (.useDirectory directory) w.state).1 with
    | ok _ => rfl
    | error reason => rfl

theorem isRun_iff {entities : List Entity} (s : Snippet) :
    s.isRun (Document.ofEntities entities).hasOnly ↔ ¬ s.IsPassedOver entities := by
  have honly : (Document.ofEntities entities).hasOnly ↔
      ∃ only, Entity.snippet only ∈ entities ∧ only.mode = .only := by
    rw [Document.hasOnly_ofEntities, List.any_eq_true]
    simp only [Document.mem_snippets, Document.entities_ofEntities, decide_eq_true_iff]
  unfold Snippet.isRun Snippet.IsPassedOver
  rw [← honly]
  cases s.mode <;> simp [RunningMode.isRun]

/-- **One visit.** An entity makes its own calls. -/
theorem makes_visit (entities : List Entity) (st : RunState) (e : Entity) :
    let d := Document.ofEntities entities
    Makes host (st.visit d host e) fun hostState calls _ =>
      AsksFor host (st.scope d) hostState e calls := by
  intro d
  have hentities : (st.scope d).document.entities = entities := Document.entities_ofEntities entities
  cases e with
  | heading h => exact makes_pure fun _ => .heading h
  | lineMod m => exact makes_pure fun _ => .lineMod m
  | config line p =>
    refine makes_map (makes_mono (makes_patch st line p) ?_)
    rintro _ _ _ rfl
    exact .config line p
  | snippet s =>
    simp only [RunState.visit]
    split
    · next hrun =>
      rw [isRun_iff, ← hentities] at hrun
      exact makes_map (makes_mono (Scope.makes_handle s) fun _ _ _ h => .snippet hrun h.1)
    · next hrun =>
      rw [isRun_iff, not_not, ← hentities] at hrun
      exact makes_pure fun _ => .passedOver hrun

/-- What is asked for the entities that a run visits, each behind what was asked for those in front
of it. -/
def IsRecord (d : Document) (host : Host σ) (config : Config) (w₀ : World σ)
    (visits : List (Entity × List Call)) : Prop :=
  ∀ before e calls after, visits = before ++ (e, calls) :: after →
    ∃ st w, d.RunsTo host config w₀ before.length st w ∧
      w.calls = w₀.calls ++ before.flatMap Prod.snd ∧
      (st.visit d host e w).2.calls = w.calls ++ calls ∧
      AsksFor host (st.scope d) w.state e calls

variable {entities : List Entity} {config : Config} {w₀ w : World σ} {i : Nat} {st : RunState}

/-- One more entity is visited. -/
theorem IsRecord.visit {visits : List (Entity × List Call)} {e : Entity}
    (h : IsRecord (.ofEntities entities) host config w₀ visits)
    (hruns : (Document.ofEntities entities).RunsTo host config w₀ visits.length st w)
    (hcalls : w.calls = w₀.calls ++ visits.flatMap Prod.snd) :
    ∃ calls, IsRecord (.ofEntities entities) host config w₀ (visits ++ [(e, calls)]) ∧
      (st.visit (.ofEntities entities) host e w).2.calls =
        w₀.calls ++ (visits ++ [(e, calls)]).flatMap Prod.snd := by
  obtain ⟨calls, hworld, hasks⟩ := @makes_visit σ host entities st e w
  have hvisit : (st.visit (.ofEntities entities) host e w).2.calls = w.calls ++ calls := by
    rw [hworld]
  refine ⟨calls, forall_split_concat.mpr ⟨h, st, w, hruns, hcalls, hvisit, hasks⟩, ?_⟩
  rw [hvisit, hcalls, List.flatMap_append, List.append_assoc]
  simp

theorem Document.RunsTo.record (h : (ofEntities entities).RunsTo host config w₀ i st w) :
    ∃ visits : List (Entity × List Call), visits.map Prod.fst = entities.take i ∧
      visits.length = i ∧ w.calls = w₀.calls ++ visits.flatMap Prod.snd ∧
      IsRecord (.ofEntities entities) host config w₀ visits := by
  induction h with
  | start => exact ⟨[], rfl, rfl, (List.append_nil _).symm, forall_split_nil⟩
  | @visit i st st' w w' e h he hvisit ih =>
    obtain ⟨visits, hentities, rfl, hcalls, hrecord⟩ := ih
    obtain ⟨calls, hrecord', hcalls'⟩ := hrecord.visit (e := e) h hcalls
    rw [hvisit] at hcalls'
    refine ⟨_, ?_, List.length_append, hcalls', hrecord'⟩
    rw [entities_ofEntities] at he
    rw [List.map_append, hentities, List.take_add_one, he]
    rfl

/-- **What a run asks.** The calls of a run are those for the entities that it visits, one after the
other in document order: none for headings and line mods, the directory of a patch, and for a snippet
what its attributes and its language ask for, with the configuration and the line mods in force there.
Every entity that the run gets to is among them. -/
theorem run_calls (entities : List Entity) (host : Host σ) (config : Config) (w₀ : World σ) :
    ∃ visits : List (Entity × List Call), visits.map Prod.fst <+: entities ∧
      ((Document.ofEntities entities).run host config w₀).2.calls =
        w₀.calls ++ visits.flatMap Prod.snd ∧
      (∀ before e calls after, visits = before ++ (e, calls) :: after →
        ∃ st w, (Document.ofEntities entities).RunsTo host config w₀ before.length st w ∧
          w.calls = w₀.calls ++ before.flatMap Prod.snd ∧
          (st.visit (.ofEntities entities) host e w).2.calls = w.calls ++ calls ∧
          AsksFor host (st.scope (.ofEntities entities)) w.state e calls) ∧
      ∀ i st w, (Document.ofEntities entities).RunsTo host config w₀ i st w → i < entities.length →
        i < visits.length := by
  cases hrun : (Document.ofEntities entities).run host config w₀ with
  | mk result v =>
    cases result with
    | ok report =>
      obtain ⟨st, hruns, -⟩ := Document.runsTo_of_run hrun
      obtain ⟨visits, hentities, hlength, hcalls, hrecord⟩ := hruns.record
      rw [Document.entities_ofEntities] at hlength
      refine ⟨visits, ?_, hcalls, hrecord, fun _ _ _ _ hi => hlength ▸ hi⟩
      rw [hentities]
      exact List.take_prefix _ _
    | error a =>
      -- The entity that aborts the run is visited too, but not behind a state that the run gets to.
      obtain ⟨i, st, w, e, hruns, he, hvisit⟩ := Document.runsTo_of_aborted hrun
      obtain ⟨visits, hentities, rfl, hcalls, hrecord⟩ := hruns.record
      obtain ⟨calls, hrecord', hcalls'⟩ := hrecord.visit (e := e) hruns hcalls
      rw [hvisit] at hcalls'
      refine ⟨_, ?_, hcalls', hrecord', fun j _ _ hj _ => ?_⟩
      · rw [Document.entities_ofEntities] at he
        have hnext : (visits ++ [(e, calls)]).map Prod.fst = entities.take (visits.length + 1) := by
          rw [List.map_append, hentities, List.take_add_one, he]
          rfl
        rw [hnext]
        exact List.take_prefix _ _
      · rw [List.length_append]
        exact Nat.lt_succ_of_le (hruns.le_of_aborted he hvisit hj)

end Visits

end Doctest
