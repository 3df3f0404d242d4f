import Doctest.Fault.Cause
import Doctest.Source

/-!
# Faults

A fault is a cause together with the place where it was found, if that is known, and notes. Parts
that read attribute values do not know the line of their directive: `Fault.orAtLine` adds it where
no place is set.
-/

namespace Doctest

/-- Where a fault was found. -/
inductive Place
  /-- A line of the document, counted from one. -/
  | line (number : Nat)
  /-- Anything else, such as the configuration file. -/
  | described (text : String)
  deriving DecidableEq, Repr

def Place.text : Place → String
  | .line number => s!"line {number}"
  | .described text => text

/-- Something wrong in a document or its configuration. -/
structure Fault where
  cause : Cause
  place : Option Place
  notes : List String
  deriving DecidableEq, Repr

namespace Fault

/-- A fault whose place is not known yet. -/
def of (cause : Cause) : Fault := ⟨cause, none, []⟩

/-- A fault on a line of the document. -/
def atLine (line : Nat) (cause : Cause) : Fault := ⟨cause, some (.line line), []⟩

/-- A fault outside the document. -/
def described (text : String) (cause : Cause) : Fault := ⟨cause, some (.described text), []⟩

def withNote (fault : Fault) (note : String) : Fault :=
  { fault with notes := fault.notes ++ [note] }

/-- Puts the fault on a line unless its place is known. -/
def orAtLine (fault : Fault) (line : Nat) : Fault :=
  match fault.place with
  | none => { fault with place := some (.line line) }
  | some _ => fault

def line? (fault : Fault) : Option Nat :=
  match fault.place with
  | some (.line number) => some number
  | _ => none

def message (fault : Fault) : String := fault.cause.message

/-- The message with the place behind it. -/
def text (fault : Fault) : String :=
  match fault.place with
  | some place => s!"{fault.message} ({place.text})"
  | none => fault.message

/-- A note that shows `input` behind a label, with a caret below the character number `column`. -/
def caretNote (label : String) (input : List Char) (column : Nat) : String :=
  let indent := String.ofList (List.replicate (label.length + 2 + column) ' ')
  s!"{label}: {String.ofList input}\n{indent}^"

end Fault

/-- The value, or its fault put on a line. -/
def Except.atLine {α : Type} (line : Nat) : Except Fault α → Except Fault α
  | .ok a => .ok a
  | .error fault => .error (fault.orAtLine line)

/-- A fault as it is shown under a source: the lines that it marks and its notes. -/
structure Diagnostic where
  isWarning : Bool
  message : String
  labels : List Span
  notes : List String
  deriving DecidableEq, Repr

/-- A fault on a line marks that line; a fault elsewhere says in its first note where it is. -/
def Fault.diagnostic (fault : Fault) (source : List Char) : Diagnostic where
  isWarning := false
  message := fault.message
  labels := match fault.place with
    | some (.line number) => [Source.lineSpan source number]
    | _ => []
  notes := (match fault.place with
    | some (.described text) => [s!"in {text}"]
    | _ => []) ++ fault.notes

end Doctest
