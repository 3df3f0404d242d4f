import Doctest.Console.Arguments
import Doctest.Console.StatusLine
import Doctest.Document
import Doctest.Files.Workspace
import Doctest.Run

/-!
# The command line

The documents named on the command line are checked one after the other. Each leaves its status lines
and diagnostics behind, and the tree as its snippets left it. What is wrong with a document, its data
directory or its configuration is part of its report; only a run that is aborted ends everything. The
exit status is zero if no report has a failure or a fault and no run was aborted.
-/

namespace Doctest

/-- A document that was checked. -/
structure Checked where
  name : Path
  /-- Empty if the document could not be read. -/
  source : String
  report : Report

/-- What is left when a document has been checked, or its run was aborted. -/
structure Visit where
  files : Files
  /-- The files and commands that were shown during the run. -/
  shown : String
  result : Except Abort Checked

/-- What the command line is started with. -/
structure Session where
  files : Files
  /-- The current directory. -/
  directory : Location

namespace Session

/-- What is needed for a run, or the faults that prevent it. -/
def prepare (s : Session) (driver : Driver) (a : Arguments) (document : Path) (source : String) :
    Except (List Fault) (Document × Config × driver.State) := do
  let dataDirectory ←
    match a.dataDirectory.or (DataDirectory.find? s.files s.directory document) with
    | some path => pure path
    | none => throw [.described document FileCause.noDataDirectory]
  let config ← (DataDirectory.config s.files s.directory dataDirectory).mapError ([·])
  let d ← Document.parse source
  let state := driver.start {
    files := s.files
    directory := s.directory
    documentDirectory := (Path.parent? document).getD "."
    outputDirectory := Path.join dataDirectory DataDirectory.outputName
    verbose := a.verbose
    shown := [] }
  match config.directory with
  | none => return (d, config, state)
  | some directory =>
    match driver.host.answer (.useDirectory directory) state with
    | (.ok (), state) => return (d, config, state)
    | (.error reason, _) =>
      throw [.described document (RunCause.unusableDirectory directory reason)]

/-- Checks a document. -/
def visit (s : Session) (driver : Driver) (a : Arguments) (document : Path) : Visit :=
  let refused (source : String) (faults : List Fault) : Visit :=
    ⟨s.files, "", .ok ⟨document, source, .ofFaults faults⟩⟩
  match s.files.read s.directory document with
  | .error e => refused "" [.described document (FileCause.unreadable e.text)]
  | .ok source =>
    match s.prepare driver a document source with
    | .error faults => refused source faults
    | .ok (d, config, state) =>
      let (result, world) := d.run driver.host config ⟨state, []⟩
      let workspace := driver.workspace world.state
      ⟨workspace.files, String.join workspace.shown.reverse,
        result.map (⟨document, source, ·⟩)⟩

end Session

namespace Console

/-- What a command line leaves behind. -/
structure Result where
  exitStatus : Nat
  output : String
  error : String
  files : Files

/-- The lines, each with a newline behind it. -/
def textOf (ls : Lines) : String := String.join (ls.map (· ++ "\n"))

/-- What has been printed. -/
structure Printed where
  output : String
  error : String

def Printed.append (p : Printed) (output error : String) : Printed :=
  ⟨p.output ++ output, p.error ++ error⟩

/-- How far the checks have got: what they printed, the tree, the counts of all reports, and whether
a run was aborted. -/
structure Progress where
  printed : Printed
  files : Files
  total : Counts
  aborted : Bool

/-- Checks one more document, unless a run was aborted before. -/
def Progress.check (driver : Driver) (a : Arguments) (style : Style) (directory : Location)
    (p : Progress) (document : Path) : Progress :=
  if p.aborted then p
  else
    let header := style.bold s!"===== {document} =====" ++ "\n"
    let visit := Session.visit ⟨p.files, directory⟩ driver a document
    match visit.result with
    | .error abort =>
      { p with
        printed := p.printed.append (header ++ visit.shown) s!"error: {abort.text}\n"
        files := visit.files
        aborted := true }
    | .ok c =>
      { p with
        printed := p.printed.append (header ++ visit.shown ++ textOf (c.report.statusLines style))
          (textOf (c.report.diagnosticLines c.name c.source))
        files := visit.files
        total := p.total + c.report.counts }

/-- Checks documents in order. With more than one of them the sum of the counts comes last. -/
def check (driver : Driver) (s : Session) (a : Arguments) : Result :=
  let style := if a.noColor then Style.plain else .coloured
  let p := a.documents.foldl (Progress.check driver a style s.directory)
    ⟨⟨"", ""⟩, s.files, .zero, false⟩
  if p.aborted then ⟨1, p.printed.output, p.printed.error, p.files⟩
  else
    let sum := if 1 < a.documents.length then textOf [p.total.statusLine style "Total"] else ""
    ⟨if p.total.hasFailures then 1 else 0, p.printed.output ++ sum, p.printed.error, p.files⟩

def programName : String := "markcheck"

def versionText : String := s!"{programName} 0.1.0\n"

def helpText : String := textOf [
  "Test the code examples in Markdown files",
  "",
  s!"Usage: {programName} [OPTIONS] [FILES]...",
  "",
  "Arguments:",
  "  [FILES]...  Markdown files to check, processed in order",
  "",
  "Options:",
  "      --no-color        Disable colored output",
  "  -v, --verbose         Print every written file and every command",
  "      --data-dir <DIR>  Use this directory instead of the nearest `markcheck-data/`",
  "      --print-config    Print the built-in configuration and exit",
  "  -h, --help            Print help",
  "  -V, --version         Print version"]

/-- Answers a command line, with the runs going through a driver. -/
def runWith (driver : Driver) (s : Session) (words : List String) : Result :=
  match Request.ofWords words with
  | .help => ⟨0, helpText, "", s.files⟩
  | .version => ⟨0, versionText, "", s.files⟩
  | .printConfig => ⟨0, Config.builtin.toPatch.toYaml, "", s.files⟩
  | .invalid => ⟨2, "", "", s.files⟩
  | .check a => check driver s a

/-- Answers a command line on the tree. -/
def run (s : Session) (words : List String) : Result := runWith Workspace.driver s words

end Console

end Doctest
