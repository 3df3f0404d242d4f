import Doctest.Regex.Search
import Doctest.Shell.Escape
import Doctest.Text.Line

/-!
# Editing a stream

A stream editor takes a text line by line and applies its commands to each line. A command may be
limited to a line by its number, to the last line, or to lines that match a pattern. Patterns are
written in the basic form, where groups, counts and choices need a backslash, or in the extended
one; they are brought into the form of the pattern reader first.
-/

namespace Doctest.Shell

open Text (isDigit)

/-- How patterns are written. -/
inductive PatternForm
  | basic
  | extended
  deriving DecidableEq, Repr

/-- The signs that have a meaning without a backslash in one form and with it in the other. -/
def isPatternSign (c : Char) : Bool := "+?|()\x7b\x7d".toList.contains c

/-- Where a character of a pattern stands. -/
inductive PatternPlace
  | start
  | middle
  | escaped
  /-- Behind the bracket that opens a set, with or without a sign that negates it. -/
  | setStart (mayNegate : Bool)
  | set
  deriving DecidableEq, Repr

/-- What a character of a pattern is for the pattern reader, and where the next one stands. In the
basic form the pattern signs change sides; a star at the start stands for itself. -/
def readerSign (form : PatternForm) (place : PatternPlace) (c : Char) (next : Option Char) :
    List Char × PatternPlace :=
  let inSet : List Char × PatternPlace :=
    if c = ']' then ([c], .middle)
    else if c = '\\' || (c = '[' && next ≠ some ':') then (['\\', c], .set)
    else ([c], .set)
  match place with
  | .set => inSet
  | .setStart mayNegate =>
    if c = ']' then (['\\', c], .set)
    else if c = '^' && mayNegate then ([c], .setStart false)
    else inSet
  | .escaped =>
    if isPatternSign c && form = .basic then ([c], if c = '(' || c = '|' then .start else .middle)
    else (['\\', c], .middle)
  | .start | .middle =>
    if c = '\\' then ([], .escaped)
    else if c = '[' then ([c], .setStart true)
    else if isPatternSign c && form = .basic then (['\\', c], .middle)
    else if c = '*' && place = .start then (['\\', c], .middle)
    else ([c], .middle)

/-- Brings a pattern into the form of the pattern reader. -/
def readerPattern (form : PatternForm) : PatternPlace → List Char → List Char
  | .escaped, [] => ['\\']
  | _, [] => []
  | place, c :: cs =>
    let (signs, next) := readerSign form place c cs.head?
    signs ++ readerPattern form next cs

/-- The lines that a command is for. -/
inductive Address
  | all
  | number (line : Nat)
  | last
  | pattern (regex : Regex)

/-- Replaces matches in a line. -/
structure Replacement where
  regex : Regex
  template : List Char
  /-- The number of the first match that is replaced. -/
  first : Nat
  /-- Whether the later ones are replaced too. -/
  global : Bool
  /-- Whether a line with a match is put out once more. -/
  shows : Bool

inductive EditAction
  | replace (r : Replacement)
  | delete
  | print
  | quit

structure EditCommand where
  address : Address
  action : EditAction

/-- Reads up to a mark that no backslash escapes. An escaped mark is a plain one. -/
def readToMark? (mark : Char) : List Char → Option (List Char × List Char)
  | [] => none
  | c :: cs =>
    if c = mark then some ([], cs)
    else if c = '\\' then
      match cs with
      | [] => none
      | d :: ds =>
        (readToMark? mark ds).map fun (text, rest) =>
          (if d = mark then d :: text else c :: d :: text, rest)
    else (readToMark? mark cs).map fun (text, rest) => (c :: text, rest)

/-- The pattern in one of the forms. -/
def patternOf? (form : PatternForm) (caseless : Bool) (cs : List Char) : Option Regex :=
  Regex.compile? caseless (readerPattern form .start cs)

/-- Reads a replacement after its letter. -/
def readReplacement? (form : PatternForm) (cs : List Char) : Option (Replacement × List Char) :=
  match cs with
  | [] => none
  | mark :: cs => do
    let (source, cs) ← readToMark? mark cs
    let (template, cs) ← readToMark? mark cs
    let isFlag (c : Char) : Bool := "gpiI".toList.contains c || isDigit c
    let flags := cs.takeWhile isFlag
    let regex ← patternOf? form (flags.contains 'i' || flags.contains 'I') source
    let first := Text.digitsValue (flags.filter isDigit)
    return (⟨regex, template, max first 1, flags.contains 'g', flags.contains 'p'⟩,
      cs.dropWhile isFlag)

/-- Reads an address. -/
def readAddress? (form : PatternForm) (cs : List Char) : Option (Address × List Char) :=
  match cs with
  | '$' :: rest => some (.last, rest)
  | '/' :: rest => do
    let (source, rest) ← readToMark? '/' rest
    let regex ← patternOf? form false source
    return (.pattern regex, rest)
  | _ =>
    let digits := cs.takeWhile isDigit
    if digits.isEmpty then some (.all, cs)
    else some (.number (Text.digitsValue digits), cs.dropWhile isDigit)

/-- Reads commands with semicolons or line ends between them. Each takes a character at least, so
`fuel` is enough if it is the length of the text. -/
def readEdits? (form : PatternForm) : (fuel : Nat) → List Char → Option (List EditCommand)
  | 0, cs => if cs.isEmpty then some [] else none
  | fuel + 1, cs =>
    let isGap (c : Char) : Bool := c = ' ' || c = ';' || c = '\n'
    match cs.dropWhile isGap with
    | [] => some []
    | cs => do
      let (address, cs) ← readAddress? form cs
      let (action, rest) ← match cs.dropWhile (· = ' ') with
        | 's' :: rest => (readReplacement? form rest).map fun (r, rest) => (.replace r, rest)
        | 'd' :: rest => some (EditAction.delete, rest)
        | 'p' :: rest => some (EditAction.print, rest)
        | 'q' :: rest => some (EditAction.quit, rest)
        | _ => none
      let more ← readEdits? form fuel rest
      return ⟨address, action⟩ :: more

namespace Replacement

/-- What a match is replaced with: an ampersand is the match, a backslash with a digit a group. -/
def expansion (group : Nat → List Char) : List Char → List Char
  | [] => []
  | '\\' :: c :: cs =>
    if isDigit c then group (c.toNat - '0'.toNat) ++ expansion group cs
    else if c = 'n' then '\n' :: expansion group cs
    else c :: expansion group cs
  | c :: cs => if c = '&' then group 0 ++ expansion group cs else c :: expansion group cs

/-- The line from `start` on, with the given matches replaced. -/
def splice (r : Replacement) (line : Array Char) : (start : Nat) → List Regex.Slots → List Char
  | start, [] => (line.extract start line.size).toList
  | start, slots :: more =>
    match Regex.span? slots 0 with
    | none => (line.extract start line.size).toList
    | some (a, b) =>
      let group (n : Nat) : List Char := (Regex.groupText? line slots n).getD []
      (line.extract start a).toList ++ expansion group r.template ++ splice r line b more

/-- The line with matches replaced; `none` if there is none to replace. -/
def edited? (r : Replacement) (line : List Char) : Option (List Char) :=
  let cs := line.toArray
  let found := (r.regex.allMatches cs).drop (r.first - 1)
  let used := if r.global then found else found.take 1
  if used.isEmpty then none else some (r.splice cs 0 used)

end Replacement

def Address.covers (a : Address) (number : Nat) (isLast : Bool) (line : List Char) : Bool :=
  match a with
  | .all => true
  | .number n => n = number
  | .last => isLast
  | .pattern regex => (regex.findFrom? line.toArray 0).isSome

/-- A line while the commands are applied to it. -/
structure EditedLine where
  line : List Char
  /-- The lines that were put out by commands. -/
  shown : List (List Char)
  deleted : Bool
  quits : Bool

/-- Applies a command to a line. -/
def EditCommand.apply (number : Nat) (isLast : Bool) (e : EditedLine) (c : EditCommand) :
    EditedLine :=
  if e.deleted || e.quits || !c.address.covers number isLast e.line then e
  else
    match c.action with
    | .delete => { e with deleted := true }
    | .quit => { e with quits := true }
    | .print => { e with shown := e.shown ++ [e.line] }
    | .replace r =>
      match r.edited? e.line with
      | none => e
      | some line => { e with line, shown := if r.shows then e.shown ++ [line] else e.shown }

/-- The lines that come out of a text; `quiet` holds back those that no command puts out. -/
def editLines (commands : List EditCommand) (quiet : Bool) :
    (number : Nat) → List (List Char) → List (List Char)
  | _, [] => []
  | number, line :: rest =>
    let e := commands.foldl (EditCommand.apply number rest.isEmpty) ⟨line, [], false, false⟩
    let out := e.shown ++ if e.deleted || quiet then [] else [e.line]
    if e.quits then out else out ++ editLines commands quiet (number + 1) rest

/-- The text with commands applied. A missing newline at its end stays missing. -/
def editText (commands : List EditCommand) (quiet : Bool) (text : String) : String :=
  let pieces := Text.pieces text.toList
  let ended := pieces.getLast? = some []
  let edited := editLines commands quiet 1 (if ended then pieces.dropLast else pieces)
  let joined := "\n".intercalate (edited.map String.ofList)
  if edited.isEmpty then "" else if ended then joined ++ "\n" else joined

end Doctest.Shell
