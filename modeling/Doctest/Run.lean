import Doctest.Assembly
import Doctest.Comparison
import Doctest.Run.Host
import Doctest.Run.Report

/-!
# Running a document

A run visits the entities of a document in order. Patches and line mods for languages count from their
place on. A snippet is compared, looked up in a file, written or run, whatever its directive asks for.
A fault or a failure is logged, and the run goes on; it is aborted only if a file cannot be written.
-/

namespace Doctest

/-- Why a run was aborted. -/
structure Abort where
  /-- What was being done. -/
  context : String
  message : String
  deriving DecidableEq, Repr

def Abort.text (a : Abort) : String := s!"internal error ({a.context}): {a.message}"

/-- What ends the handling of a snippet early. -/
inductive Stop
  | fault (f : Fault)
  | failure (f : Failure)
  | abort (a : Abort)
  deriving DecidableEq, Repr

/-- What the handling of a snippet came to. -/
inductive Outcome
  /-- There was nothing to do. -/
  | idle
  | done (summary : String)
  deriving DecidableEq, Repr

/-- Something that makes calls and may end early. -/
abbrev Action (σ : Type) (α : Type) : Type := ExceptT Stop (StateM (World σ)) α

namespace Action

variable {σ α : Type}

/-- A result that may be a fault. -/
def ofFault (result : Except Fault α) : Action σ α :=
  match result with
  | .ok a => pure a
  | .error fault => throw (.fault fault)

/-- Ends with a failure. -/
def fail (f : Failure) : Action σ α := throw (.failure f)

/-- Makes a call. -/
def ask (host : Host σ) (call : Call) : Action σ call.Answer := ExceptT.lift (host.ask call)

end Action

namespace Scope

variable {σ : Type}

open Doctest.Action

/-! ## Calls -/

/-- Writes a file for the snippet on a line. A file that cannot be written aborts the run. -/
def writeFile (host : Host σ) (line : Nat) (file : String) (lines : Lines) : Action σ Unit := do
  match ← ask host (.write file lines) with
  | .ok () => pure ()
  | .error reason =>
    throw (.abort ⟨s!"snippet at line {line}", s!"can't write `{file}`: {reason}"⟩)

/-- Runs a command for the snippet on a line. A command that cannot be started is a failure. -/
def runCommand (host : Host σ) (line : Nat) (argv : List String) : Action σ CommandResult := do
  match ← ask host (.run argv) with
  | .ok result => pure result
  | .error reason =>
    let command := " ".intercalate argv
    fail (.of line s!"Could not run `{command}`: {reason}")

/-! ## What commands put out -/

/-- Compares what a command put out with the snippet that the attribute `key` names. -/
def checkStream (scope : Scope) (line : Nat) (key : String) (content : StreamContent)
    (captured : String) : Except Stop Unit := do
  let lift {α : Type} (result : Except Fault α) : Except Stop α := result.mapError .fault
  let other ← lift (scope.snippet line key content.snippetId)
  let expected ← lift (scope.innerLines other)
  let actual ← match content.lineModId with
    | none => pure (Text.lines captured)
    | some id => do
      let m ← lift (scope.lineMod line key id)
      lift (Except.atLine line (m.edit (Text.lines captured)))
  if sameLines expected actual then pure ()
  else
    throw (.failure { Failure.of line s!"Output of `{key}` differs from snippet `{content.snippetId}`"
      with difference := some (expected, actual) })

/-- A failure that shows what a command put out. -/
def failureOf (line : Nat) (message : String) (r : CommandResult) : Failure :=
  { Failure.of line message with output := some (r.stdout, r.stderr) }

/-- Checks how a command ended that has to succeed. -/
def checkSuccess (line : Nat) (r : CommandResult) : Except Stop Unit :=
  if r.succeeded then .ok ()
  else .error (.failure (failureOf line s!"Command failed: {r.ending}" r))

/-- Checks the exit status of the last command. -/
def checkExit (p : Properties) (r : CommandResult) : Except Stop Unit :=
  let refuse (message : String) : Except Stop Unit :=
    .error (.failure (failureOf p.line message r))
  if r.signal.isSome then refuse s!"Command failed: {r.ending}"
  else
    let expected := p.exitStatus.getD (.code 0)
    match r.exitStatus with
    | none => refuse "Command ended without an exit status"
    | some code =>
      if expected.accepts code then .ok ()
      else refuse s!"Expected exit status {expected.text}, got {code}"

/-- Checks one stream of the last command, if the snippet says what it has to hold. -/
def checkStream? (scope : Scope) (line : Nat) (key : String) (content : Option StreamContent)
    (captured : String) : Except Stop Unit :=
  match content with
  | some content => scope.checkStream line key content captured
  | none => .ok ()

/-- Checks the last command: its exit status first, then what it put out. -/
def checkLast (scope : Scope) (p : Properties) (r : CommandResult) : Except Stop Unit := do
  checkExit p r
  scope.checkStream? p.line "stdout" p.stdout r.stdout
  scope.checkStream? p.line "stderr" p.stderr r.stderr

/-- Runs commands one after the other: all but the last have to succeed, the last one is checked. -/
def runAll (host : Host σ) (line : Nat) (checkLast : CommandResult → Except Stop Unit) :
    List (List String) → Action σ Unit
  | [] => pure ()
  | [argv] => do
    let r ← runCommand host line argv
    MonadExcept.ofExcept (checkLast r)
  | argv :: rest => do
    let r ← runCommand host line argv
    let _ ← MonadExcept.ofExcept (checkSuccess line r)
    runAll host line checkLast rest

/-! ## Snippets -/

/-- The lines of a file beside the main one. -/
def externalLines (scope : Scope) (line : Nat) (external : External) : Except Fault Lines :=
  match external.id with
  | none => .ok []
  | some id => do
    let other ← scope.snippet line "external" id
    if external.localLines then scope.innerLines other else scope.outerLines other

/-- Writes the files of a snippet and runs the commands of its language. -/
def runSnippet (scope : Scope) (host : Host σ) (s : Snippet) (d : CommandDef) :
    Action σ Outcome := do
  let p := s.properties
  match s.fileName d with
  | none => throw (.fault (.atLine p.line (RunCause.noFileName p.lang)))
  | some file =>
    let lines ← ofFault (scope.outerLines s)
    writeFile host p.line file lines
    p.externals.forM fun external => do
      let lines ← ofFault (scope.externalLines p.line external)
      writeFile host p.line external.fileName lines
    match fillCommands (d.commands.getD []) file (s.allFileNames file) with
    | [] => return .done s!"wrote {file}"
    | commands =>
      runAll host p.line (scope.checkLast p) commands
      return .done s!"ran {file}"

/-- Compares a snippet with another one. -/
def compareSnippet (scope : Scope) (s : Snippet) (id : String) : Action σ Outcome := do
  let line := s.line
  let other ← ofFault (scope.snippet line "sameAsId" id)
  let expected ← ofFault (scope.innerLines other)
  let actual ← ofFault (scope.innerLines s)
  if sameLines expected actual then return .done s!"same as `{id}`"
  else
    fail { Failure.of line s!"Content is not the same as snippet `{id}`" with
      difference := some (expected, actual) }

/-- Looks a snippet up in a file. -/
def findSnippet (scope : Scope) (host : Host σ) (s : Snippet) (path : String) :
    Action σ Outcome := do
  let line := s.line
  match ← ask host (.read path) with
  | .error reason => throw (.fault (.atLine line (RunCause.unreadableFile path reason)))
  | .ok content =>
    let lines := Text.lines content
    let own ← ofFault (scope.innerLines s)
    if containsLines lines own then return .done s!"contained in `{path}`"
    else
      fail { Failure.of line s!"Content is not contained in file `{path}`" with
        difference := some (own, lines) }

/-- Writes the files that the snippet asks for: its inner lines first, then its outer lines. -/
def writeSnippet (scope : Scope) (host : Host σ) (s : Snippet) : Action σ Unit := do
  let p := s.properties
  match p.writeLocal with
  | some file =>
    let lines ← ofFault (scope.innerLines s)
    writeFile host p.line file lines
  | none => pure ()
  match p.write with
  | some file =>
    let lines ← ofFault (scope.outerLines s)
    writeFile host p.line file lines
  | none => pure ()

/-- Handles a snippet by its language. -/
def handleByLanguage (scope : Scope) (host : Host σ) (s : Snippet) : Action σ Outcome := do
  let p := s.properties
  match ← ofFault (scope.language? p) with
  | none => throw (.fault (.atLine p.line (RunCause.unknownLanguage p.lang)))
  | some .skip => return .idle
  | some d =>
    match p.writeLocal.toList ++ p.write.toList with
    | [] =>
      match d with
      | .command d => scope.runSnippet host s d
      | _ =>
        -- Put together only to check what it refers to.
        let _ ← ofFault (scope.outerLines s)
        return .idle
    | files =>
      scope.writeSnippet host s
      let names := ", ".intercalate files
      return .done s!"wrote {names}"

/-- Handles a snippet that is to be run. -/
def handle (scope : Scope) (host : Host σ) (s : Snippet) : Action σ Outcome :=
  match s.properties.sameAs, s.properties.containedInFile with
  | some id, _ => scope.compareSnippet s id
  | none, some path => scope.findSnippet host s path
  | none, none => scope.handleByLanguage host s

end Scope

/-! ## IDs that nothing refers to -/

namespace Document

/-- The snippets that the attributes of an element refer to. -/
def snippetReferences (p : Properties) : List String :=
  p.includes.filter (· ≠ Element.thisMark) ++ p.sameAs.toList ++ p.externals.filterMap (·.id) ++
    (p.stdout.toList ++ p.stderr.toList).map (·.snippetId)

/-- The line mods that the attributes of an element refer to. -/
def lineModReferences (p : Properties) : List String :=
  p.applyToBody.toList ++ p.applyToOuter.toList ++
    (p.stdout.toList ++ p.stderr.toList).filterMap (·.lineModId)

/-- What is said about all elements of all snippets. -/
def allProperties (d : Document) : List Properties :=
  d.snippets.flatMap fun s => s.elements.map (·.properties)

/-- A warning for each ID that nothing refers to, by line. -/
def unusedIds (d : Document) : List Warning :=
  let usedSnippets := d.allProperties.flatMap snippetReferences
  let usedLineMods := d.allProperties.flatMap lineModReferences
  let snippets := (d.snippetsById.entries.filter fun (id, _) => !usedSnippets.contains id).map
    fun (id, s) => Warning.mk s.line s!"Unused snippet ID `{id}`"
  let lineMods := (d.lineModsById.entries.filter fun (id, _) => !usedLineMods.contains id).map
    fun (id, m) => Warning.mk m.line s!"Unused `lineModId` `{id}`"
  (snippets ++ lineMods).mergeSort fun a b => a.line ≤ b.line

end Document

/-! ## Documents -/

/-- How far a run has got: the configuration and the line mods for languages in force, the last
heading that has not been logged, and the report. -/
structure RunState where
  config : Config
  lineMods : List LineMod
  heading : Option Heading
  report : Report

namespace RunState

/-- The state in front of the first entity. -/
def start (d : Document) (config : Config) : RunState :=
  ⟨config, [], none, Report.ofFaults d.indexFaults⟩

/-- Logs an event about a snippet, under its heading. -/
def log (st : RunState) (e : Event) : RunState :=
  let report := match st.heading with
    | some h => st.report.record (.heading h)
    | none => st.report
  { st with heading := none, report := report.record e }

/-- Logs what the handling of a snippet on a line came to. -/
def conclude (st : RunState) (line : Nat) (result : Except Stop Outcome) : Except Abort RunState :=
  match result with
  | .ok .idle => .ok st
  | .ok (.done summary) => .ok (st.log (.success line summary))
  | .error (.fault f) => .ok (st.log (.fault (f.orAtLine line)))
  | .error (.failure f) => .ok (st.log (.failure f))
  | .error (.abort a) => .error a

variable {σ : Type}

/-- Applies a patch that stands on a line. -/
def patch (st : RunState) (host : Host σ) (line : Nat) (p : ConfigPatch) :
    StateM (World σ) RunState := do
  let st := { st with config := st.config.apply p }
  match p.directory with
  | none => return st
  | some directory =>
    match ← host.ask (.useDirectory directory) with
    | .ok () => return st
    | .error reason =>
      let fault := Fault.atLine line (RunCause.unusableDirectory directory reason)
      return { st with report := st.report.record (.fault fault) }

/-- Visits an entity of the document. -/
def visit (d : Document) (host : Host σ) (st : RunState) (e : Entity) :
    StateM (World σ) (Except Abort RunState) :=
  match e with
  | .heading h => pure (.ok { st with heading := some h })
  | .config line p => Except.ok <$> st.patch host line p
  | .lineMod m =>
    pure (.ok (if m.lang?.isSome then { st with lineMods := st.lineMods ++ [m] } else st))
  | .snippet s =>
    if s.isRun d.hasOnly then
      st.conclude s.line <$> (Scope.handle ⟨d, st.config, st.lineMods⟩ host s).run
    else pure (.ok st)

/-- Visits entities up to the first that aborts the run. -/
def visitAll (d : Document) (host : Host σ) (st : RunState) :
    List Entity → StateM (World σ) (Except Abort RunState)
  | [] => pure (.ok st)
  | e :: rest => do
    match ← st.visit d host e with
    | .ok st => visitAll d host st rest
    | .error a => pure (.error a)

end RunState

namespace Document

variable {σ : Type}

/-- Runs a document, starting with a configuration. -/
def run (d : Document) (host : Host σ) (config : Config) :
    StateM (World σ) (Except Abort Report) := do
  match ← RunState.visitAll d host (.start d config) d.entities with
  | .ok st => pure (.ok (st.report.recordAll (d.unusedIds.map .warning)))
  | .error a => pure (.error a)

end Document

end Doctest
