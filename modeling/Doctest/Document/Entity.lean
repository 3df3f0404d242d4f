import Doctest.Declaration
import Doctest.Document.Token

/-!
# Entities

The entities of a document are what it declares, in document order, with the headings above its
snippets. `Entity.ofTokens` finds them or gives all faults. A snippet directive waits for the next
code block; the parts of a sequence have to follow each other without another snippet in between.
-/

namespace Doctest

/-- The last heading above a snippet. -/
structure Heading where
  line : Nat
  content : String
  deriving DecidableEq, Repr

inductive Entity
  | config (line : Nat) (patch : ConfigPatch)
  | heading (h : Heading)
  | lineMod (m : LineMod)
  | snippet (s : Snippet)

def Entity.line : Entity → Nat
  | .config line _ => line
  | .heading h => h.line
  | .lineMod m => m.line
  | .snippet s => s.line

/-- A sequence whose last parts are still to come. -/
structure OpenSequence where
  first : Element
  rest : List Element
  total : Nat

namespace OpenSequence

def size (s : OpenSequence) : Nat := s.rest.length + 1

def elements (s : OpenSequence) : List Element := s.first :: s.rest

/-- Begins a sequence with its first part. -/
def start (e : Element) (number : SequenceNumber) : Except Fault OpenSequence :=
  if number.position = 1 then .ok ⟨e, [], number.total⟩
  else .error (.atLine e.properties.line (DocumentCause.noOpenSequence number.text))

/-- Adds the next part, which has to have the next number. -/
def add (s : OpenSequence) (e : Element) : Except Fault OpenSequence :=
  let expected : SequenceNumber := ⟨s.size + 1, s.total⟩
  let refuse (cause : DocumentCause) : Except Fault OpenSequence :=
    .error ((Fault.atLine e.properties.line cause).withNote
      s!"sequence started at line {s.first.properties.line}")
  match e.properties.sequence with
  | some number =>
    if number = expected then .ok { s with rest := s.rest ++ [e] }
    else refuse (.sequenceNumber expected.text number.text)
  | none => refuse (.sequenceNumberMissing expected.text)

/-- The fault of a sequence that the document leaves open. -/
def incomplete (s : OpenSequence) : Fault :=
  let places := ", ".intercalate (s.elements.map fun e => toString e.properties.line)
  (Fault.atLine s.first.properties.line (DocumentCause.sequenceIncomplete s.size s.total)).withNote
    s!"elements at lines {places}"

end OpenSequence

namespace Entity

/-- What has been found so far, and what is still open. -/
structure Progress where
  entities : List Entity
  waiting : Option OpenSnippet
  sequence : Option OpenSequence
  heading : Option Heading
  faults : List Fault

namespace Progress

/-- Nothing has been found. -/
def start : Progress := ⟨[], none, none, none, []⟩

def withFault (p : Progress) (fault : Fault) : Progress := { p with faults := p.faults ++ [fault] }

def withEntity (p : Progress) (e : Entity) : Progress := { p with entities := p.entities ++ [e] }

/-- Puts the last heading, if it is new, before what follows. -/
def flushHeading (p : Progress) : Progress :=
  match p.heading with
  | some h => { p.withEntity (.heading h) with heading := none }
  | none => p

/-- The directive that waits does so in vain. -/
def dropWaiting (p : Progress) : Progress :=
  match p.waiting with
  | some s =>
    { p.withFault (.atLine s.properties.line DocumentCause.noCodeBlock) with waiting := none }
  | none => p

/-- Ends the sequence if it is complete. -/
def withSequence (p : Progress) (s : OpenSequence) : Progress :=
  if s.size = s.total then p.withEntity (.snippet (.sequence s.first s.rest))
  else { p with sequence := some s }

/-- A snippet, or a part of one. A part that does not belong to its sequence ends the sequence. -/
def withElement (p : Progress) (e : Element) : Progress :=
  let p := p.flushHeading
  let next? : Option (Except Fault OpenSequence) :=
    match p.sequence with
    | some s => some (s.add e)
    | none => e.properties.sequence.map (OpenSequence.start e)
  let p := { p with sequence := none }
  match next? with
  | none => p.withEntity (.snippet (.single e))
  | some (.ok s) => p.withSequence s
  | some (.error fault) => p.withFault fault

def withDeclaration (p : Progress) : Declaration → Progress
  | .config line patch => p.withEntity (.config line patch)
  | .lineMod m => p.withEntity (.lineMod m)
  | .opened s => { p with waiting := some s }
  | .closed e => p.withElement e

/-- The next token. -/
def step (p : Progress) : Token → Progress
  | .comment line text =>
    match Directive.parse line text with
    | .error fault => p.withFault fault
    | .ok none => p
    | .ok (some d) =>
      let p := p.dropWaiting
      match Declaration.ofDirective d with
      | .error fault => p.withFault fault
      | .ok declaration => p.withDeclaration declaration
  | .codeBlock line lang lines =>
    match p.waiting with
    | some s => { p with waiting := none }.withElement (s.close lang lines)
    | none => p.withElement ⟨.bare line lang, lines⟩
  | .heading line content => { p with heading := some ⟨line, content⟩ }

/-- The end of the document. -/
def finish (p : Progress) : Except (List Fault) (List Entity) :=
  let p := p.dropWaiting
  let faults := p.faults ++ (p.sequence.map OpenSequence.incomplete).toList
  if faults.isEmpty then .ok p.entities else .error faults

end Progress

/-- The entities that the tokens declare. -/
def ofTokens (tokens : List Token) : Except (List Fault) (List Entity) :=
  (tokens.foldl Progress.step .start).finish

end Entity

end Doctest
