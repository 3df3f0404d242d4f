import Doctest.Text.Line

/-!
# The host of a run

A run touches the outside world by calls alone: it writes and reads files and runs commands. A host
answers calls and may change its own state with each of them. The calls of a run are logged in order,
so that statements about what a run does are statements about its log.
-/

namespace Doctest

/-- What a command left behind when it ended. -/
structure CommandResult where
  exitStatus : Option Int
  signal : Option Int
  stdout : String
  stderr : String
  deriving DecidableEq, Repr

namespace CommandResult

def succeeded (r : CommandResult) : Bool := r.signal.isNone && r.exitStatus = some 0

/-- How the command ended. -/
def ending (r : CommandResult) : String :=
  match r.signal, r.exitStatus with
  | some signal, _ => s!"terminated by signal {signal}"
  | none, some code => s!"exit status {code}"
  | none, none => "no exit status"

end CommandResult

/-- A request to the outside world. -/
inductive Call
  /-- Use a directory for what is written from now on. -/
  | useDirectory (directory : String)
  | write (file : String) (lines : Lines)
  /-- Read a file that lies beside the document. -/
  | read (path : String)
  | run (argv : List String)
  deriving DecidableEq, Repr

/-- What a call is answered with; an error is the reason in words. -/
@[reducible] def Call.Answer : Call → Type
  | .useDirectory _ | .write .. => Except String Unit
  | .read _ => Except String String
  | .run _ => Except String CommandResult

/-- Something that answers calls. -/
structure Host (σ : Type) where
  answer : (call : Call) → σ → call.Answer × σ

/-- The state of a host and the calls made so far. -/
structure World (σ : Type) where
  state : σ
  calls : List Call

namespace Host

variable {σ : Type}

/-- Makes a call and logs it. -/
def ask (host : Host σ) (call : Call) : StateM (World σ) call.Answer := fun w =>
  let (answer, state) := host.answer call w.state
  (answer, ⟨state, w.calls ++ [call]⟩)

end Host

/-- A host that answers from a list prepared in advance. -/
structure Script where
  /-- The files that can be read. -/
  readable : List (String × String)
  /-- The answers to commands, in order. Without one a command ends with exit status zero. -/
  responses : List (Except String CommandResult)
  /-- The files that cannot be written, with the reasons. -/
  failWrites : List (String × String)
  /-- The directories that cannot be used, with the reasons. -/
  failDirectories : List (String × String)

namespace Script

/-- The reason under a key, as a failure. -/
def refusal (reasons : List (String × String)) (key : String) : Except String Unit :=
  match reasons.lookup key with
  | some reason => .error reason
  | none => .ok ()

/-- Answers a call; a command uses up its answer. -/
def answer : (call : Call) → Script → call.Answer × Script
  | .useDirectory directory, s => (refusal s.failDirectories directory, s)
  | .write file _, s => (refusal s.failWrites file, s)
  | .read path, s =>
    match s.readable.lookup path with
    | some content => (.ok content, s)
    | none => (.error "no such file", s)
  | .run _, s =>
    match s.responses with
    | [] => (.ok ⟨some 0, none, "", ""⟩, s)
    | r :: rest => (r, { s with responses := rest })

/-- The host that follows its script. -/
def host : Host Script := ⟨answer⟩

end Script

end Doctest
