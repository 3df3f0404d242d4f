import Doctest.Config
import Doctest.LineMod
import Doctest.Snippet.Format

/-!
# Snippets

A snippet is a piece of code in a document together with what its directive says about it. A
sequence is a snippet in several parts; what is said about the whole stands at its first part.
-/

namespace Doctest

/-- When a snippet is run. -/
inductive RunningMode
  | normal | skip | only | always
  deriving DecidableEq, Repr

namespace RunningMode

def name : RunningMode → String
  | .normal => "normal"
  | .skip => "skip"
  | .only => "only"
  | .always => "alwaysRun"

/-- Whether a snippet is run, in a document where some snippet may be the only one to run. -/
def isRun : RunningMode → (hasOnly : Bool) → Bool
  | .normal, hasOnly => !hasOnly
  | .only, _ | .always, _ => true
  | .skip, _ => false

end RunningMode

/-- What a directive says about a snippet. -/
structure Properties where
  line : Nat
  lang : String
  id : Option String
  sequence : Option SequenceNumber
  mode : RunningMode
  /-- The snippets whose lines come in front; `$THIS` marks the place of the own ones. -/
  includes : List String
  applyToBody : Option String
  applyToOuter : Option String
  runLocalLines : Bool
  runFileName : Option String
  lineMod : Option LineMod
  sameAs : Option String
  containedInFile : Option String
  write : Option String
  writeLocal : Option String
  externals : List External
  exitStatus : Option ExitStatus
  stdout : Option StreamContent
  stderr : Option StreamContent

namespace Properties

/-- What holds for a code block without a directive. -/
def bare (line : Nat) (lang : String) : Properties where
  line
  lang
  id := none
  sequence := none
  mode := .normal
  includes := []
  applyToBody := none
  applyToOuter := none
  runLocalLines := false
  runFileName := none
  lineMod := none
  sameAs := none
  containedInFile := none
  write := none
  writeLocal := none
  externals := []
  exitStatus := none
  stdout := none
  stderr := none

/-- The running modes that a directive can ask for, with their attributes. -/
def modes : List (String × RunningMode) :=
  [("skip", .skip), ("only", .only), ("alwaysRun", .always)]

/-- The running mode: the one that is asked for; otherwise a snippet with an ID is not run. -/
def readMode (d : Directive) (id : Option String) : Except Fault RunningMode := do
  let set ← modes.filterMapM fun (key, mode) => do
    return if ← d.flag key then some (key, mode) else none
  match set with
  | [] => .ok (if id.isSome then .skip else .normal)
  | [(_, mode)] => .ok mode
  | several => .error (d.fault (DeclarationCause.runningModes (several.map (·.1))))

/-- The parts of a directive that make up a line mod of the snippet itself. -/
def lineModSources (d : Directive) : List String :=
  ["ignoreLines", "searchAndReplace", "at"].filter (d.has ·) ++
    match d.bodyLabel with
    | some label =>
      if [.before, .after, .around, .insert].contains label then [label.text] else []
    | none => []

/-- The line mod of the snippet itself. It leaves no room for another one for the body. -/
def readLineMod (d : Directive) (applyToBody : Option String) : Except Fault (Option LineMod) :=
  match lineModSources d with
  | [] => .ok none
  | sources =>
    if applyToBody.isSome then .error (d.fault (DeclarationCause.applyToBodyWith sources))
    else (LineMod.ofDirective d .internal).map some

/-- What the directive says about a snippet of a language. -/
def ofDirective (d : Directive) (lang : String) : Except Fault Properties := do
  let id ← d.value? "id"
  let mode ← readMode d id
  let sequence ← d.read? "sequence" SequenceNumber.parse
  let includes ← d.value? "include"
  let externals ← d.read? "external" fun t => External.parseList "external" t false
  let localExternals ← d.read? "externalLocal" fun t => External.parseList "externalLocal" t true
  let exitStatus ← d.read? "exitStatus" ExitStatus.parse
  let stdout ← d.read? "stdout" (StreamContent.parse "stdout")
  let stderr ← d.read? "stderr" (StreamContent.parse "stderr")
  let applyToBody ← d.value? "applyToBody"
  let lineMod ← readLineMod d applyToBody
  let applyToOuter ← d.value? "applyToOuter"
  let runLocalLines ← d.flag "runLocalLines"
  let runFileName ← d.value? "runFileName"
  let sameAs ← d.value? "sameAsId"
  let containedInFile ← d.value? "containedInFile"
  let write ← d.value? "write"
  let writeLocal ← d.value? "writeLocal"
  return {
    line := d.line
    lang
    id
    sequence
    mode
    includes := (includes.elim [] External.items).map String.ofList
    applyToBody
    applyToOuter
    runLocalLines
    runFileName
    lineMod
    sameAs
    containedInFile
    write
    writeLocal
    externals := externals.getD [] ++ localExternals.getD []
    exitStatus
    stdout
    stderr }

end Properties

/-- A piece of code with what is said about it. -/
structure Element where
  properties : Properties
  body : Lines

/-- A snippet of one part, or a complete sequence of parts. -/
inductive Snippet
  | single (element : Element)
  | sequence (first : Element) (rest : List Element)

namespace Snippet

def first : Snippet → Element
  | .single element => element
  | .sequence first _ => first

/-- The parts in order. -/
def elements : Snippet → List Element
  | .single element => [element]
  | .sequence first rest => first :: rest

/-- What is said about the whole. -/
def properties (s : Snippet) : Properties := s.first.properties

def line (s : Snippet) : Nat := s.properties.line
def id (s : Snippet) : Option String := s.properties.id
def lang (s : Snippet) : String := s.properties.lang
def mode (s : Snippet) : RunningMode := s.properties.mode
def isRun (s : Snippet) (hasOnly : Bool) : Bool := s.mode.isRun hasOnly

/-- The file that the snippet is written to. -/
def fileName (s : Snippet) (d : CommandDef) : Option String :=
  s.properties.runFileName.or d.fileName

/-- The main file and those beside it. -/
def allFileNames (s : Snippet) (main : String) : List String :=
  main :: s.properties.externals.map (·.fileName)

end Snippet

end Doctest
