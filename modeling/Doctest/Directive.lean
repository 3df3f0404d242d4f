import Doctest.Directive.Header
import Doctest.Text.Search

/-!
# Directives

A comment whose text starts with the word `markcheck` is a directive. Its first line holds
attributes and perhaps a body label; with a label, the lines below it are its body. A body can be
cut into groups at separator lines.
-/

namespace Doctest

open Text (isBlank trim trimStart afterWord? splitFirst? dropReturns isAllBlank)

/-- What one directive comment says. -/
structure Directive where
  line : Nat
  attributes : Attributes
  bodyLabel : Option BodyLabel
  body : Lines
  deriving DecidableEq

namespace Directive

/-- The word that makes a comment a directive. -/
def keyword : List Char := "markcheck".toList

/-- The line that separates groups in a body. -/
def separator : List Char := "•••".toList

/-- The lines of a body. An indented closing marker leaves a blank rest behind the last line end,
which is not part of the body. -/
def bodyLines (text : List Char) : List (List Char) :=
  let ls := Text.lineList text
  if text.getLast? ≠ some '\n' && ls.getLast?.any isAllBlank then ls.dropLast else ls

/-- Reads the text of a comment; `none` if it is an ordinary comment. -/
def parse (line : Nat) (text : String) : Except Fault (Option Directive) :=
  match afterWord? keyword (trimStart text.toList) with
  | none => .ok none
  | some rest =>
    if rest.head?.any (!isBlank ·) then .ok none
    else
      match splitFirst? '\n' rest with
      | none => do
        let content ← Header.scan line rest
        .ok (some ⟨line, content.attributes, content.bodyLabel, []⟩)
      | some (header, remainder) => do
        let content ← Header.scan line (dropReturns header)
        match content.bodyLabel with
        | some label =>
          .ok (some ⟨line, content.attributes, some label,
            (bodyLines remainder).map String.ofList⟩)
        | none =>
          if isAllBlank remainder then .ok (some ⟨line, content.attributes, none, []⟩)
          else .error (.atLine line (DirectiveCause.textWithoutBodyLabel))

/-- A fault on the directive's line. -/
def fault (d : Directive) (cause : Cause) : Fault := .atLine d.line cause

/-- Whether an attribute is present, with or without a value. -/
def has (d : Directive) (key : String) : Bool := d.attributes.contains key

/-- The value of an attribute that needs one. -/
def value? (d : Directive) (key : String) : Except Fault (Option String) :=
  match d.attributes.get? key with
  | none => .ok none
  | some (some value) => .ok (some value)
  | some none => .error (d.fault (DirectiveCause.missingValue key))

/-- Whether an attribute is present that must not have a value. -/
def flag (d : Directive) (key : String) : Except Fault Bool :=
  match d.attributes.get? key with
  | none => .ok false
  | some none => .ok true
  | some (some _) => .error (d.fault (DirectiveCause.unwantedValue key))

/-- Refuses all attributes but the allowed ones. -/
def checkAttributes (d : Directive) (kind : String) (allowed : List String) : Except Fault Unit :=
  match d.attributes.keys.filter (!allowed.contains ·) with
  | [] => .ok ()
  | refused => .error (d.fault (DirectiveCause.attributesNotAllowed kind refused))

/-- Whether a line separates groups; blanks around the separator do not matter. -/
def isSeparator (line : String) : Bool := trim line.toList == separator

/-- The groups between the separator lines. Always at least one group. -/
def groupsOf : Lines → List Lines
  | [] => [[]]
  | l :: ls =>
    if isSeparator l then [] :: groupsOf ls
    else
      match groupsOf ls with
      | [] => [[l]]
      | g :: gs => (l :: g) :: gs

/-- The groups of the directive's body. -/
def groups (d : Directive) : List Lines := groupsOf d.body

end Directive

end Doctest
