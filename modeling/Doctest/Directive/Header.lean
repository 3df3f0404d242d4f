import Doctest.Fault
import Doctest.Keyed
import Doctest.Text.Blank
import Doctest.Text.Delimited

/-!
# The first line of a directive

After the directive's word follow items with blanks between them: attributes, written `key` or
`key="value"`, and at the end perhaps a body label such as `body:`. Inside a value only the double
quote and the backslash can be escaped; any other backslash stands for itself. No key may occur
twice. `Header.scan` reads the whole line or says what is wrong where.
-/

namespace Doctest

open Text (isBlank trimStart delimited? length_delimited?)

/-- The label that ends the first line of a directive and starts its body. -/
inductive BodyLabel
  | config | body | before | after | around | insert
  deriving DecidableEq, Repr

namespace BodyLabel

def name : BodyLabel → String
  | .config => "config"
  | .body => "body"
  | .before => "before"
  | .after => "after"
  | .around => "around"
  | .insert => "insert"

def all : List BodyLabel := [.config, .body, .before, .after, .around, .insert]

def ofName? (name : String) : Option BodyLabel := all.find? (·.name == name)

/-- The label as written, with its colon. -/
def text (label : BodyLabel) : String := label.name ++ ":"

theorem ofName?_name (label : BodyLabel) : ofName? label.name = some label := by
  cases label <;> decide

end BodyLabel

/-- The attributes of a directive. Those without a value map to `none`. -/
abbrev Attributes := Keyed (Option String)

namespace Header

/-- What is wrong with a header, and the part of it from where it is wrong. -/
structure Refusal where
  cause : DirectiveCause
  rest : List Char

/-- What a header declares. -/
structure Content where
  attributes : Attributes
  bodyLabel : Option BodyLabel

/-- Letters, digits, the underscore and the hyphen make up a key. -/
def isKeyChar (c : Char) : Bool := c.isAlphanum || c == '_' || c == '-'

/-- Adds an attribute whose key starts at `start`. -/
def add (found : Attributes) (key : String) (value : Option String) (start : List Char) :
    Except Refusal Attributes :=
  if found.contains key then .error ⟨.duplicateAttribute key, start⟩
  else .ok (found.insert key value)

theorem length_dropWhile_le {α : Type} (p : α → Bool) (l : List α) :
    (l.dropWhile p).length ≤ l.length := (List.dropWhile_suffix p).length_le

theorem length_afterKey_le {cs rest : List Char} {c : Char} (h : trimStart cs = c :: rest) :
    (rest.dropWhile isKeyChar).length < cs.length := by
  have h1 := length_dropWhile_le isBlank cs
  have h2 := length_dropWhile_le isKeyChar rest
  rw [← trimStart, h] at h1
  simp only [List.length_cons] at h1
  omega

/-- Reads the items from `cs` on; `found` holds the attributes in front of them. -/
def scanFrom (found : Attributes) (cs : List Char) : Except Refusal Content :=
  match h : trimStart cs with
  | [] => .ok ⟨found, none⟩
  | c :: rest =>
    if !isKeyChar c then .error ⟨.unexpectedCharacter c, c :: rest⟩
    else
      let key := String.ofList (c :: rest.takeWhile isKeyChar)
      match hrest : rest.dropWhile isKeyChar with
      | [] => do
        let found ← add found key none (c :: rest)
        .ok ⟨found, none⟩
      | d :: more =>
        if d = ':' then
          match BodyLabel.ofName? key with
          | none => .error ⟨.unknownBodyLabel key, c :: rest⟩
          | some label =>
            if (trimStart more).isEmpty then .ok ⟨found, some label⟩
            else .error ⟨.bodyLabelNotLast, trimStart more⟩
        else if d = '=' then
          match more with
          | [] => .error ⟨.unquotedValue key, []⟩
          | q :: quoted =>
            if q ≠ '"' then .error ⟨.unquotedValue key, q :: quoted⟩
            else
              match hval : delimited? '"' quoted with
              | none => .error ⟨.unterminatedValue, q :: quoted⟩
              | some (value, after) =>
                have : after.length < cs.length := by
                  have h1 := length_afterKey_le h
                  have h2 := length_delimited? hval
                  simp only [hrest, List.length_cons] at h1
                  omega
                if after.head?.any (!isBlank ·) then .error ⟨.valueNotSeparated key, after⟩
                else do
                  let found ← add found key (some (String.ofList value)) (c :: rest)
                  scanFrom found after
        else if !isBlank d then .error ⟨.strayCharacter d key, d :: more⟩
        else
          have : (d :: more).length < cs.length := hrest ▸ length_afterKey_le h
          do
            let found ← add found key none (c :: rest)
            scanFrom found (d :: more)
termination_by cs.length

/-- Reads a header. A fault names the line of the directive and points at the place in a note. -/
def scan (line : Nat) (header : List Char) : Except Fault Content :=
  match scanFrom .empty header with
  | .ok content => .ok content
  | .error ⟨cause, rest⟩ =>
    .error ((Fault.atLine line cause).withNote
      (Fault.caretNote "directive" header (header.length - rest.length)))

end Header

end Doctest
