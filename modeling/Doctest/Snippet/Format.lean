import Doctest.Fault
import Doctest.Text.Blank
import Doctest.Text.Integer
import Doctest.Text.Search

/-!
# The small formats of a snippet's attributes

Positions in a sequence, expected exit statuses, expected output and external files. Each has a
reader, which refuses everything else with the offending text, and a written form.
-/

namespace Doctest

open Text (trim splitFirst? splitAll)

/-- The position of a snippet in a sequence of `total` parts. -/
structure SequenceNumber where
  position : Nat
  total : Nat
  deriving DecidableEq, Repr

namespace SequenceNumber

/-- The written form. -/
def text (n : SequenceNumber) : String := s!"{n.position}/{n.total}"

/-- Reads `position/total`. Positions count from one. -/
def parse (text : String) : Except Fault SequenceNumber :=
  let numbers? : Option (Nat × Nat) := do
    let (position, total) ← splitFirst? '/' (trim text.toList)
    let position ← Text.natural? (trim position)
    let total ← Text.natural? (trim total)
    some (position, total)
  match numbers? with
  | none => .error (.of (DeclarationCause.sequenceFormat text))
  | some (position, total) =>
    if position = 0 || position > total then
      .error (.of (DeclarationCause.sequencePosition position total))
    else .ok ⟨position, total⟩

end SequenceNumber

/-- The exit status that the last command has to end with. -/
inductive ExitStatus
  | code (n : Int)
  | nonzero
  deriving DecidableEq, Repr

namespace ExitStatus

/-- The written form. -/
def text : ExitStatus → String
  | .code n => toString n
  | .nonzero => "nonzero"

/-- Whether a command that ended with this code did what was expected. -/
def accepts : ExitStatus → Int → Bool
  | .code expected, n => n = expected
  | .nonzero, n => n ≠ 0

/-- Reads a code or the word `nonzero`. -/
def parse (text : String) : Except Fault ExitStatus :=
  let trimmed := trim text.toList
  if trimmed = "nonzero".toList then .ok .nonzero
  else
    match Text.signed? 32 trimmed with
    | some n => .ok (.code n)
    | none => .error (.of (DeclarationCause.exitStatusFormat (String.ofList trimmed)))

end ExitStatus

/-- What a stream of output has to hold: the lines of a snippet. A line mod may edit the output
before the two are compared. -/
structure StreamContent where
  lineModId : Option String
  snippetId : String
  deriving DecidableEq, Repr

namespace StreamContent

/-- The written form. -/
def text (content : StreamContent) : String :=
  match content.lineModId with
  | none => content.snippetId
  | some id => s!"|{id}={content.snippetId}"

/-- Reads the value of the attribute `key`: a snippet's ID, or `|lineModId=snippetId`. -/
def parse (key text : String) : Except Fault StreamContent :=
  let trimmed := trim text.toList
  let shown := String.ofList trimmed
  let close (lineModId : Option (List Char)) (snippetId : List Char) :
      Except Fault StreamContent :=
    if snippetId.isEmpty || lineModId.any List.isEmpty then
      .error (.of (DeclarationCause.streamEmptyId key shown))
    else .ok ⟨lineModId.map String.ofList, String.ofList snippetId⟩
  match trimmed with
  | '|' :: rest =>
    match splitFirst? '=' rest with
    | some (lineModId, snippetId) => close (some (trim lineModId)) (trim snippetId)
    | none => .error (.of (DeclarationCause.streamFormat key shown))
  | _ => close none trimmed

end StreamContent

/-- A file that is written beside a snippet's main file. -/
structure External where
  /-- The snippet whose lines the file holds; without one the file is empty. -/
  id : Option String
  fileName : String
  /-- Whether the file holds the snippet's inner lines alone. -/
  localLines : Bool
  deriving DecidableEq, Repr

namespace External

/-- The written form. -/
def text (external : External) : String := external.id.getD "" ++ ">" ++ external.fileName

/-- Reads one item that is not blank. -/
def parseItem (key : String) (localLines : Bool) (item : List Char) : Except Fault External :=
  match splitFirst? '>' item with
  | none => .error (.of (DeclarationCause.externalFormat (String.ofList item) key))
  | some (id, fileName) =>
    let id := trim id
    let fileName := trim fileName
    if fileName.isEmpty then
      .error (.of (DeclarationCause.externalWithoutFile (String.ofList item) key))
    else
      .ok ⟨if id.isEmpty then none else some (String.ofList id), String.ofList fileName, localLines⟩

/-- The items between commas, without blanks around them; those that are blank are left out. -/
def items (text : String) : List (List Char) :=
  ((splitAll ',' text.toList).map trim).filter (!·.isEmpty)

/-- Reads the value of the attribute `key`: items `id>fileName` or `>fileName` between commas. -/
def parseList (key text : String) (localLines : Bool) : Except Fault (List External) :=
  (items text).mapM (parseItem key localLines)

end External

end Doctest
