import Doctest.Files.DataDirectory
import Doctest.Shell

/-!
# Workspaces

A workspace answers the calls of a run on a file tree. Snippets are written to the output directory
and run there; what they are looked up in is found from the directory of the document. On request the
workspace shows every file that it writes and every command that it runs. A `Driver` may do otherwise.
-/

namespace Doctest

structure Workspace where
  files : Files
  /-- Where relative paths start. -/
  directory : Location
  documentDirectory : Path
  outputDirectory : Path
  /-- Whether files and commands are shown. -/
  verbose : Bool
  /-- What has been shown, the last text first. -/
  shown : List String

namespace Workspace

def tell (w : Workspace) (text : String) : Workspace :=
  if w.verbose then { w with shown := text :: w.shown } else w

/-- Takes over what came of a change of the tree. -/
def commit (w : Workspace) (result : Except FileError Files) : Except String Unit × Workspace :=
  match result with
  | .ok files => (.ok (), { w with files })
  | .error e => (.error e.text, w)

/-- Uses a directory, seen from the document's. It has to exist. -/
def useDirectory (w : Workspace) (directory : Path) : Except String Unit × Workspace :=
  let path := Path.join w.documentDirectory directory
  if w.files.isDirectory w.directory path then
    (.ok (), { w with outputDirectory := Path.join path DataDirectory.outputName })
  else (.error s!"{path} is not a directory", w)

/-- Writes a file below the output directory, with the directories above it. -/
def write (w : Workspace) (file : Path) (lines : Lines) : Except String Unit × Workspace :=
  let path := Path.join w.outputDirectory file
  match w.files.makeDirectories w.directory ((Path.parent? path).getD "") with
  | .error e => (.error e.text, w)
  | .ok files =>
    let content := Text.content lines
    let w := { w with files }.tell s!"--- {path} ---\n{content}"
    w.commit (w.files.write w.directory path content)

/-- Reads a file, seen from the document's directory. -/
def read (w : Workspace) (path : Path) : Except String String :=
  (w.files.read w.directory (Path.join w.documentDirectory path)).mapError (·.text)

/-- Runs a command in the output directory. -/
def run (w : Workspace) (argv : List String) : Except String CommandResult × Workspace :=
  if argv.isEmpty then (.error "empty command", w)
  else
    let command := " ".intercalate argv
    let w := w.tell s!"$ {command}\n"
    let started := do
      let files ← w.files.makeDirectories w.directory w.outputDirectory
      let place ← files.locate w.directory w.outputDirectory
      return (files, Shell.run files place argv)
    match started with
    | .error e => (.error e.text, w)
    | .ok (files, .error e) => (.error e.text, { w with files })
    | .ok (_, .ok (files, result)) => (.ok result, { w with files })

/-- Answers a call. -/
def answer : (call : Call) → Workspace → call.Answer × Workspace
  | .useDirectory directory, w => w.useDirectory directory
  | .write file lines, w => w.write file lines
  | .read path, w => (w.read path, w)
  | .run argv, w => w.run argv

/-- The host that works on a tree. -/
def host : Host Workspace := ⟨answer⟩

end Workspace

/-- What the runs of a command line go through: a host, which may have a state of its own. -/
structure Driver where
  State : Type
  host : Host State
  /-- The state that a run starts with. -/
  start : Workspace → State
  /-- What a run leaves behind. -/
  workspace : State → Workspace

/-- The driver that works on the tree itself. -/
def Workspace.driver : Driver where
  State := Workspace
  host := host
  start w := w
  workspace w := w

end Doctest
