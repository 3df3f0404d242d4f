import Doctest.Shell.Token

/-!
# Commands of a script

A line of a script holds pipelines. A pipeline is a row of commands, each of which reads what the one
before it puts out; how it is joined to the pipeline before it decides whether it is run at all. A
line that cannot be read is kept as such, so that the lines before it can be run.
-/

namespace Doctest.Shell

/-- Where a stream is sent or taken from. -/
inductive RedirectKind
  | input
  | output
  | append
  /-- To where another stream goes. -/
  | duplicate
  /-- Both output streams to one file. -/
  | outputAll
  | appendAll
  deriving DecidableEq, Repr

structure Redirect where
  stream : Nat
  kind : RedirectKind
  target : Word
  deriving DecidableEq, Repr

/-- The redirection that an operator stands for. -/
def Redirect.ofOperator? (stream : Option Nat) (operator : String) : Option (Word → Redirect) :=
  match operator with
  | "<" => some (⟨stream.getD 0, .input, ·⟩)
  | "<&" => some (⟨stream.getD 0, .duplicate, ·⟩)
  | ">" | ">|" => some (⟨stream.getD 1, .output, ·⟩)
  | ">>" => some (⟨stream.getD 1, .append, ·⟩)
  | ">&" => some (⟨stream.getD 1, .duplicate, ·⟩)
  | "&>" => some (⟨1, .outputAll, ·⟩)
  | "&>>" => some (⟨1, .appendAll, ·⟩)
  | _ => none

structure Command where
  line : Nat
  words : List Word
  redirects : List Redirect
  deriving DecidableEq, Repr

namespace Command

def empty : Command := ⟨0, [], []⟩

def isEmpty (c : Command) : Bool := c.words.isEmpty && c.redirects.isEmpty

def addWord (c : Command) (line : Nat) (w : Word) : Command :=
  { c with line := if c.isEmpty then line else c.line, words := c.words ++ [w] }

def addRedirect (c : Command) (line : Nat) (r : Redirect) : Command :=
  { c with line := if c.isEmpty then line else c.line, redirects := c.redirects ++ [r] }

end Command

structure Pipeline where
  /-- Whether success and failure are swapped. -/
  negated : Bool
  commands : List Command
  deriving DecidableEq, Repr

/-- When a pipeline is run, by how the one before it ended. -/
inductive Joint
  | always
  | ifSucceeded
  | ifFailed
  deriving DecidableEq, Repr

/-- A line of a script. -/
inductive ScriptLine
  | run (pipelines : List (Joint × Pipeline))
  /-- Something unexpected stands on the line with this number. -/
  | unexpected (line : Nat) (token : String)
  | unclosed (line : Nat) (quote : Char)
  /-- The script ends in front of this line, where a command is missing. -/
  | incomplete (line : Nat)
  deriving DecidableEq, Repr

/-- What has been read of a script: complete lines, from the last one on, and the open line. -/
structure CommandReader where
  lines : List ScriptLine
  pipelines : List (Joint × Pipeline)
  joint : Joint
  negated : Bool
  /-- The complete commands of the open pipeline. -/
  stages : List Command
  command : Command
  /-- A redirection without its target. -/
  redirect : Option (Word → Redirect)

namespace CommandReader

def start : CommandReader := ⟨[], [], .always, false, [], .empty, none⟩

/-- Ends the open line; it is refused if `failure` is given. -/
def endLine (r : CommandReader) (failure : Option ScriptLine) : CommandReader :=
  let line := match failure with
    | some failure => [failure]
    | none => if r.pipelines.isEmpty then [] else [.run r.pipelines]
  { start with lines := line ++ r.lines }

/-- Ends the open pipeline, if it has a last command. -/
def endPipeline? (r : CommandReader) (next : Joint) : Option CommandReader :=
  if r.command.isEmpty || r.redirect.isSome then none
  else
    let pipeline : Pipeline := ⟨r.negated, r.stages ++ [r.command]⟩
    some { start with
      lines := r.lines, pipelines := r.pipelines ++ [(r.joint, pipeline)], joint := next }

/-- Whether the line goes on after a line end: an operator waits for a command. -/
def isWaiting (r : CommandReader) : Bool :=
  r.command.isEmpty && (!r.stages.isEmpty || r.joint ≠ .always)

/-- Reads a token; one that is not expected gives nothing. -/
def accept? (r : CommandReader) (t : Token) : Option CommandReader :=
  match t.kind with
  | .word w =>
    match r.redirect with
    | some redirect =>
      some { r with command := r.command.addRedirect t.line (redirect w), redirect := none }
    | none =>
      if w = [.text false ['!']] && r.command.isEmpty && r.stages.isEmpty then
        some { r with negated := !r.negated }
      else some { r with command := r.command.addWord t.line w }
  | .redirect stream operator =>
    if r.redirect.isSome then none
    else (Redirect.ofOperator? stream operator).map fun make => { r with redirect := some make }
  | .operator "|" =>
    if r.command.isEmpty || r.redirect.isSome then none
    else some { r with stages := r.stages ++ [r.command], command := .empty }
  | .operator "&&" => r.endPipeline? .ifSucceeded
  | .operator "||" => r.endPipeline? .ifFailed
  | .operator ";" | .operator "&" => r.endPipeline? .always
  | .operator _ => none
  | .lineEnd =>
    if r.redirect.isSome then none
    else if r.isWaiting then some r
    else if r.command.isEmpty then some (r.endLine none)
    else (r.endPipeline? .always).map (·.endLine none)
  | .unclosed quote => some (r.endLine (some (.unclosed t.line quote)))

/-- How a token is named. -/
def tokenName (t : Token) : String :=
  match t.kind with
  | .operator text | .redirect _ text => text
  | .word _ | .lineEnd | .unclosed _ => "newline"

def read (r : CommandReader) (t : Token) : CommandReader :=
  match r.accept? t with
  | some r => r
  | none => r.endLine (some (.unexpected t.line (tokenName t)))

end CommandReader

/-- The lines of a script. -/
def scriptLines (script : String) : List ScriptLine :=
  let tokens := tokens script
  let r := tokens.foldl CommandReader.read .start
  let r := if r.isWaiting then r.endLine (some (.incomplete (tokens.getLast?.elim 1 (·.line)))) else r
  r.lines.reverse

end Doctest.Shell
