import Doctest.Markdown.Entity
import Doctest.Unicode.CaseFold

/-!
# Parts of links

Labels, destinations and titles, as they stand behind a piece of linked text and in the definitions
of labels. A definition is at the start of a paragraph. Readers give what follows the part.
-/

namespace Doctest.Markdown.Link

open Text (afterWord?)

/-- A label in the form in which labels are compared: blanks collapsed and trimmed, case folded. -/
abbrev Label := List Nat

/-- The label with this text. -/
def normalize (cs : List Char) : Label :=
  let words := ((cs.map fun c => if isSpace c then ' ' else c).splitBy
    fun a b => (a = ' ') = (b = ' ')).filter fun w => w.head? ≠ some ' '
  ([' '].intercalate words).map fun c => Unicode.fold c.toNat

/-- The text of a label up to its closing bracket. `count` characters have been read. -/
def labelFrom (count : Nat) : List Char → Option (List Char × List Char)
  | [] => none
  | c :: cs =>
    if count ≥ 1000 || c = '[' then none
    else if c = ']' then some ([], cs)
    else if c = '\\' then
      match cs with
      | [] => none
      | d :: ds => (labelFrom (count + 2) ds).map fun (t, r) => (c :: d :: t, r)
    else (labelFrom (count + 1) cs).map fun (t, r) => (c :: t, r)

/-- A label behind its opening bracket. Blank labels do not count. -/
def label? (cs : List Char) : Option (Label × List Char) := do
  let (text, rest) ← labelFrom 0 cs
  if text.all isSpace then none else some (normalize text, rest)

/-- A destination in angle brackets, behind the first one. -/
def pointed? : List Char → Option (List Char)
  | [] => none
  | c :: cs =>
    if c = '>' then some cs
    else if c = '\n' || c = '\r' || c = '<' then none
    else if c = '\\' then
      match cs with
      | [] => none
      | d :: ds => if isAsciiPunctuation d then pointed? ds else pointed? (d :: ds)
    else pointed? cs
termination_by cs => cs.length

/-- A destination without brackets. Parentheses in it are balanced, at most `limit` inside each
other. -/
def bare? (limit nested : Nat) : List Char → Option (List Char)
  | [] => if nested = 0 then some [] else none
  | c :: cs =>
    if c.toNat ≤ 0x20 then if nested = 0 then some (c :: cs) else none
    else if c = '(' then if limit < nested then none else bare? limit (nested + 1) cs
    else if c = ')' then if nested = 0 then some (c :: cs) else bare? limit (nested - 1) cs
    else if c = '\\' then
      match cs with
      | [] => if nested = 0 then some [] else none
      | d :: ds =>
        if isAsciiPunctuation d then bare? limit nested ds else bare? limit nested (d :: ds)
    else bare? limit nested cs
termination_by cs => cs.length

/-- A destination. -/
def destination? (limit : Nat) (cs : List Char) : Option (List Char) :=
  match cs with
  | '<' :: rest => pointed? rest
  | _ => bare? limit 0 cs

/-- A title up to its closing mark. -/
def titleFrom (opening closing : Char) : List Char → Option (List Char)
  | [] => none
  | c :: cs =>
    if c = closing then some cs
    else if c = opening then none
    else if c = '\\' then
      match cs with
      | [] => none
      | d :: ds =>
        if isAsciiPunctuation d then titleFrom opening closing ds
        else titleFrom opening closing (d :: ds)
    else titleFrom opening closing cs
termination_by cs => cs.length

/-- A title between quotes or parentheses. -/
def title? (cs : List Char) : Option (List Char) :=
  match cs with
  | [] => none
  | c :: rest =>
    if c = '(' then titleFrom '(' ')' rest
    else if c = '"' || c = '\'' then titleFrom c c rest
    else none

/-- What stands in parentheses behind a piece of linked text. -/
def target? (cs : List Char) : Option (List Char) := do
  let rest ← afterWord? ['('] cs
  let rest ← destination? 32 (rest.dropWhile isSpace)
  let rest := rest.dropWhile isSpace
  let rest := ((title? rest).getD rest).dropWhile isSpace
  afterWord? [')'] rest

/-! ## Definitions -/

/-- The rest of a line, if it is blank. -/
def lineEnd? (cs : List Char) : Option (List Char) :=
  match dropInlineSpace cs with
  | [] => some []
  | c :: rest => if c = '\n' then some (c :: rest) else none

/-- The definition of a label at the start of a paragraph: the label and the rest of the paragraph
from the end of the definition's last line. -/
def definition? (paragraph : List Char) : Option (Label × List Char) := do
  let cs ← afterWord? ['['] paragraph
  let (label, cs) ← label? cs
  let cs ← afterWord? [':'] cs
  let cs := cs.dropWhile isSpace
  if cs.isEmpty then none
  let afterDestination ← destination? 1 cs
  if afterDestination.length = cs.length then none
  let untitled := (lineEnd? afterDestination).map (label, ·)
  let beforeTitle := afterDestination.dropWhile isSpace
  if beforeTitle.length = afterDestination.length && !beforeTitle.isEmpty then none
  match (title? beforeTitle).bind lineEnd? with
  | some rest => some (label, rest)
  | none => untitled

end Doctest.Markdown.Link
