import Doctest.Run.Host
import Doctest.Shell.Command
import Doctest.Shell.Utility

/-!
# The shell

Commands of snippets are run on a file tree. A program is a utility or a shell that runs a script;
there are no others. A script may set variables, change its directory, write to files, and end
itself with an exit status or a signal. Scripts that start each other are followed to a fixed depth.
-/

namespace Doctest.Shell

/-- How a script ended. -/
inductive Ending
  | exited (status : Nat)
  | killed (signal : Nat)
  deriving DecidableEq, Repr

/-- A script while it is run. -/
structure State where
  files : Files
  directory : Location
  /-- The name that the script was called by. -/
  name : String
  arguments : List String
  /-- The values of variables, the last assignment first. -/
  assigned : List (String × String)
  /-- The exit status of the last command. -/
  status : Nat
  /-- Set as soon as no further command is run. -/
  ending : Option Ending
  output : String
  error : String

/-- Where a stream goes. -/
inductive Destination
  | output
  | error
  | nowhere
  | file (l : Location)
  deriving DecidableEq, Repr

/-- The streams of a command: where the numbered ones go, and what can be read. -/
structure Streams where
  destinations : List (Nat × Destination)
  input : String

namespace Streams

def start (input : String) : Streams := ⟨[(1, .output), (2, .error)], input⟩

def get (s : Streams) (stream : Nat) : Destination :=
  (s.destinations.lookup stream).getD .nowhere

def send (s : Streams) (stream : Nat) (d : Destination) : Streams :=
  { s with destinations := (stream, d) :: s.destinations }

end Streams

namespace State

/-! ## Output -/

/-- Puts text out. -/
def put (s : State) (d : Destination) (text : String) : State :=
  match d with
  | .output => { s with output := s.output ++ text }
  | .error => { s with error := s.error ++ text }
  | .nowhere => s
  | .file l =>
    match s.files.node? l with
    | some (.file content) => { s with files := s.files.put l (.file (content ++ text)) }
    | _ => s

/-- Puts out what a utility did, and takes over its exit status. -/
def take (s : State) (streams : Streams) (r : Result) : State :=
  let s := r.chunks.foldl (fun s chunk =>
    match chunk with
    | .output text => s.put (streams.get 1) text
    | .error text => s.put (streams.get 2) text) s
  { s with status := r.status }

/-- What stands in front of a complaint about a line. -/
def who (s : State) (line : Nat) : String := s!"{s.name}: line {line}: "

/-- Tells what is wrong and sets the exit status. -/
def complain (s : State) (streams : Streams) (line status : Nat) (message : String) : State :=
  s.take streams (.refused status (s.who line ++ message))

def exit (s : State) (status : Nat) : State :=
  { s with status := status % 256, ending := some (.exited (status % 256)) }

/-! ## Words -/

/-- The number by which a script knows itself. -/
def processNumber : String := "4242"

/-- The value of a variable. A name with `:-` behind it has a text for when it is not set. -/
def value (s : State) (name : String) : String :=
  match name with
  | "?" => toString s.status
  | "$" => processNumber
  | "#" => toString s.arguments.length
  | "@" | "*" => " ".intercalate s.arguments
  | "0" => s.name
  | "PWD" => s.directory.path
  | _ =>
    match Text.digits? name.toList with
    | some n => (s.arguments[n - 1]?).getD ""
    | none =>
      match Text.splitFirstWord? [':', '-'] name.toList with
      | some (name, other) =>
        let set := (s.assigned.lookup (String.ofList name)).getD ""
        if set.isEmpty then String.ofList other else set
      | none => (s.assigned.lookup name).getD ""

/-- The fields of a word so far, and the open one. -/
abbrev Fields := List (List Char) × Option (List Char)

/-- Adds one part to the fields. A value without quotes is cut at blanks. -/
def addPart (s : State) (fields : Fields) (part : Part) : Fields :=
  let (closed, current) := fields
  match part with
  | .text _ cs => (closed, some (current.getD [] ++ cs))
  | .variable true name => (closed, some (current.getD [] ++ (s.value name).toList))
  | .variable false name =>
    (s.value name).toList.foldl (fun (closed, current) c =>
      if Text.isBlank c then (closed ++ current.toList, none)
      else (closed, some (current.getD [] ++ [c]))) (closed, current)

/-- The fields that a word stands for. -/
def expand (s : State) (w : Word) : List String :=
  let (closed, current) := w.foldl s.addPart ([], none)
  (closed ++ current.toList).map String.ofList

/-- The text that a word stands for when it is not cut. -/
def expandWhole (s : State) (w : Word) : String :=
  String.join (w.map fun
    | .text _ cs => String.ofList cs
    | .variable _ name => s.value name)

/-- The variable that a word sets, with the parts of its value. -/
def assignment? (w : Word) : Option (String × Word) :=
  match w with
  | .text false cs :: rest =>
    match Text.splitFirst? '=' cs with
    | some (c :: name, value) =>
      if Cutter.isNameStart c && name.all Cutter.isNameChar then
        some (String.ofList (c :: name), .text false value :: rest)
      else none
    | _ => none
  | _ => none

def assign (s : State) (name : String) (w : Word) : State :=
  { s with assigned := (name, s.expandWhole w) :: s.assigned }

/-! ## Redirections -/

/-- Opens a file for writing. Unless it is appended to it loses its content. -/
def openFile (s : State) (path : Path) (append : Bool) : Except FileError (State × Destination) :=
  match path with
  | "/dev/null" => .ok (s, .nowhere)
  | "/dev/stdout" => .ok (s, .output)
  | "/dev/stderr" => .ok (s, .error)
  | _ => do
    let content := match s.files.read s.directory path with
      | .ok content => if append then content else ""
      | .error _ => ""
    let files ← s.files.write s.directory path content
    let l ← files.locate s.directory path
    return ({ s with files }, .file l)

/-- Carries out a redirection, or says what is wrong. -/
def redirect (s : State) (streams : Streams) (r : Redirect) :
    Except String (State × Streams) :=
  let target := s.expandWhole r.target
  let refuse (e : FileError) : Except String (State × Streams) :=
    let reason := plainReason e
    .error s!"{target}: {reason}"
  let toFile (append all : Bool) : Except String (State × Streams) :=
    match s.openFile target append with
    | .error e => refuse e
    | .ok (s, d) =>
      let streams := streams.send r.stream d
      .ok (s, if all then streams.send 2 d else streams)
  match r.kind with
  | .output => toFile false false
  | .append => toFile true false
  | .outputAll => toFile false true
  | .appendAll => toFile true true
  | .duplicate =>
    match Text.digits? target.toList with
    | some other => .ok (s, streams.send r.stream (streams.get other))
    | none => if target = "-" then .ok (s, streams.send r.stream .nowhere) else toFile false true
  | .input =>
    if target = "/dev/null" then .ok (s, { streams with input := "" })
    else
      match s.files.read s.directory target with
      | .ok content => .ok (s, { streams with input := content })
      | .error e => refuse e

/-- Carries out redirections from left to right, up to the first that fails. -/
def redirectAll (s : State) (streams : Streams) :
    List Redirect → Except (State × String) (State × Streams)
  | [] => .ok (s, streams)
  | r :: rest =>
    match s.redirect streams r with
    | .error message => .error (s, message)
    | .ok (s, streams) => redirectAll s streams rest

/-! ## Commands of the shell itself -/

/-- The number of a signal. -/
def signal? (name : String) : Option Nat :=
  match Text.digits? name.toList with
  | some n => some n
  | none =>
    let short := if name.startsWith "SIG" then (name.drop 3).toString else name
    [("HUP", 1), ("INT", 2), ("QUIT", 3), ("ABRT", 6), ("KILL", 9), ("USR1", 10), ("SEGV", 11),
      ("USR2", 12), ("PIPE", 13), ("ALRM", 14), ("TERM", 15)].lookup short

/-- Sends a signal. Only the script itself can be reached. -/
def kill (s : State) (streams : Streams) (line : Nat) (arguments : List String) : State :=
  let (name, targets) := match arguments with
    | "-s" :: name :: targets => (name, targets)
    | word :: targets =>
      if word.startsWith "-" then ((word.drop 1).toString, targets) else ("TERM", arguments)
    | [] => ("TERM", [])
  match signal? name, targets with
  | none, _ => s.complain streams line 1 s!"kill: {name}: invalid signal specification"
  | some _, [] => s.complain streams line 2 "kill: usage: kill [-s sigspec | -n signum | -sigspec] pid"
  | some signal, target :: _ =>
    if target ≠ processNumber then
      s.complain streams line 1 s!"kill: ({target}) - No such process"
    else if signal = 0 then { s with status := 0 }
    else { s with ending := some (.killed signal) }

def changeDirectory (s : State) (streams : Streams) (line : Nat) (path : Path) : State :=
  match s.files.look s.directory path, s.files.locate s.directory path with
  | .ok .directory, .ok l => { s with directory := l, status := 0 }
  | .ok _, _ => s.complain streams line 1 s!"cd: {path}: Not a directory"
  | .error e, _ =>
    let reason := plainReason e
    s.complain streams line 1 s!"cd: {path}: {reason}"

/-- Runs one of the commands that change the script's own state. -/
def builtin? (s : State) (streams : Streams) (line : Nat) (arguments : List String) :
    String → Option State
  | ":" => some { s with status := 0 }
  | "exit" =>
    some (match arguments with
      | [] => s.exit s.status
      | word :: _ =>
        match Text.signed? 64 (Text.trim word.toList) with
        | some i =>
          if arguments.length = 1 then s.exit (i % 256).toNat
          else s.complain streams line 1 "exit: too many arguments"
        | none =>
          (s.complain streams line 2 s!"exit: {word}: numeric argument required").exit 2)
  | "kill" => some (s.kill streams line arguments)
  | "cd" => some (s.changeDirectory streams line (arguments.head?.getD "/"))
  | "export" =>
    some (arguments.foldl (fun s word =>
      match assignment? [.text false word.toList] with
      | some (name, w) => s.assign name w
      | none => s) { s with status := 0 })
  | _ => none

end State

/-! ## Programs -/

/-- How a program ended and what it left. -/
structure Finished where
  files : Files
  ending : Ending
  output : String
  error : String

/-- How a program is started, or why it cannot be. -/
abbrev Starter := Surroundings → List String → Except FileError Finished

/-- Why a program that is not known by name cannot be started. A file is found but is no program. -/
def startError (s : Surroundings) (program : String) : FileError :=
  if program.toList.contains '/' then
    match s.files.look s.directory program with
    | .ok _ => .denied
    | .error e => e
  else .notFound

namespace State

/-- Runs a program from within a script. -/
def runProgram (start : Starter) (s : State) (streams : Streams) (line : Nat)
    (program : String) (arguments : List String) : State :=
  match start ⟨s.files, s.directory, streams.input⟩ (program :: arguments) with
  | .ok r =>
    let status := match r.ending with
      | .exited status => status
      | .killed signal => 128 + signal
    { s with files := r.files }.take streams ⟨[.output r.output, .error r.error], status⟩
  | .error .denied => s.complain streams line 126 s!"{program}: Permission denied"
  | .error e =>
    if program.toList.contains '/' then
      let reason := plainReason e
      s.complain streams line 127 s!"{program}: {reason}"
    else s.complain streams line 127 s!"{program}: command not found"

/-- Runs a command that reads `input`. -/
def runCommand (start : Starter) (s : State) (input : String) (c : Command) : State :=
  let assignments := (c.words.takeWhile fun w => (assignment? w).isSome).filterMap assignment?
  let words := (c.words.dropWhile fun w => (assignment? w).isSome).flatMap s.expand
  match s.redirectAll (.start input) c.redirects with
  | .error (s, message) => s.complain (.start input) c.line 1 message
  | .ok (s, streams) =>
    match words with
    | [] => assignments.foldl (fun s (name, w) => s.assign name w) { s with status := 0 }
    | name :: arguments =>
      match s.builtin? streams c.line arguments name with
      | some s => s
      | none =>
        match utility? (s.who c.line) ⟨s.files, s.directory, streams.input⟩ arguments name with
        | some r => s.take streams r
        | none => s.runProgram start streams c.line name arguments

/-- The script after a command that ran in a copy of it: files and output stay, all else is as it
was before, unless the script was killed. -/
def rejoin (s copy : State) : State :=
  { s with
    files := copy.files
    status := copy.status
    output := copy.output
    error := copy.error
    ending := match copy.ending with
      | some (.killed signal) => some (.killed signal)
      | _ => s.ending }

/-- Runs the commands of a row, each in a copy of the script that reads what the one before it put
out. -/
def runRow (start : Starter) (s : State) (input : String) : List Command → State
  | [] => s
  | [c] => s.rejoin (s.runCommand start input c)
  | c :: rest =>
    let copy := { s with output := "" }.runCommand start input c
    let joined := s.rejoin { copy with output := s.output }
    if joined.ending.isSome then joined else runRow start joined copy.output rest

def runPipeline (start : Starter) (input : String) (s : State) (p : Pipeline) : State :=
  let s := match p.commands with
    | [c] => s.runCommand start input c
    | commands => s.runRow start input commands
  if p.negated && s.ending.isNone then { s with status := if s.status = 0 then 1 else 0 } else s

/-- Whether a pipeline is to be run after what has been run so far. -/
def admits (s : State) (j : Joint) : Bool :=
  s.ending.isNone &&
    match j with
    | .always => true
    | .ifSucceeded => s.status = 0
    | .ifFailed => s.status ≠ 0

/-- Runs a line of a script with the given text. A line that cannot be read ends the script. -/
def runLine (start : Starter) (script input : String) (s : State) (line : ScriptLine) : State :=
  if s.ending.isSome then s
  else
    match line with
    | .run pipelines =>
      pipelines.foldl (fun s (joint, p) =>
        if s.admits joint then s.runPipeline start input p else s) s
    | .unexpected n token =>
      let text := ((Text.lines script)[n - 1]?).getD ""
      let s := s.complain (.start "") n 2 s!"syntax error near unexpected token \x60{token}'"
      (s.complain (.start "") n 2 s!"\x60{text}'").exit 2
    | .unclosed n quote =>
      (s.complain (.start "") n 2
        s!"unexpected EOF while looking for matching \x60{quote}'").exit 2
    | .incomplete n => (s.complain (.start "") n 2 "syntax error: unexpected end of file").exit 2

end State

/-- Runs a script under a name, with arguments. -/
def runScript (start : Starter) (s : Surroundings) (name script : String)
    (arguments : List String) : Finished :=
  let state : State := ⟨s.files, s.directory, name, arguments, [], 0, none, "", ""⟩
  let state := (scriptLines script).foldl (State.runLine start script s.input) state
  ⟨state.files, state.ending.getD (.exited state.status), state.output, state.error⟩

/-- Runs a shell with the given arguments: a script in a file, a script as an argument, or one that
is read from the input. -/
def runShell (start : Starter) (shell : String) (s : Surroundings) :
    List String → Finished
  | "-c" :: script :: rest => runScript start s (rest.head?.getD shell) script (rest.drop 1)
  | [] => runScript start { s with input := "" } shell s.input []
  | path :: arguments =>
    match s.files.read s.directory path with
    | .ok script => runScript start s path script arguments
    | .error e =>
      let reason := plainReason e
      ⟨s.files, .exited (if e = .isDirectory then 126 else 127), "",
        s!"{shell}: {path}: {reason}\n"⟩

/-- Starts a program by its name. `depth` bounds how deep shells may start each other. -/
def startProgram : (depth : Nat) → Starter
  | _, _, [] => .error .notFound
  | depth, s, program :: arguments =>
    if program = "bash" || program = "sh" then
      match depth with
      | 0 => .error .notFound
      | depth + 1 => .ok (runShell (startProgram depth) program s arguments)
    else
      match utility? "" s arguments program with
      | some r =>
        let pick (f : Chunk → String) : String := String.join (r.chunks.map f)
        .ok ⟨s.files, .exited r.status,
          pick fun
            | .output text => text
            | .error _ => "",
          pick fun
            | .output _ => ""
            | .error text => text⟩
      | none => .error (startError s program)

/-- How deep shells may start each other. -/
def maxDepth : Nat := 100

/-- Runs a command in a directory, without input. -/
def run (files : Files) (directory : Location) (argv : List String) :
    Except FileError (Files × CommandResult) := do
  let r ← startProgram maxDepth ⟨files, directory, ""⟩ argv
  return (r.files, match r.ending with
    | .exited status => ⟨some status, none, r.output, r.error⟩
    | .killed signal => ⟨none, some signal, r.output, r.error⟩)

end Doctest.Shell
