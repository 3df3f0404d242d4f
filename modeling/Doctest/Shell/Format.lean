import Doctest.Shell.Escape

/-!
# Formats

A format is text with fields for arguments. It is used again as long as arguments are left; a field
without an argument is filled with nothing, or with zero if it takes a number.
-/

namespace Doctest.Shell

open Text (isDigit)

/-- How an argument is written in its place. -/
structure Field where
  flags : List Char
  width : Nat
  precision : Option Nat
  /-- The letter that says what is written. -/
  conversion : Char
  deriving DecidableEq, Repr

inductive FormatItem
  | text (c : Char)
  | field (f : Field)
  /-- Ends the output. -/
  | stop
  deriving DecidableEq, Repr

/-- Reads a field after its percent sign. -/
def readField? (cs : List Char) : Option (Field × List Char) :=
  let isFlag (c : Char) : Bool := "-+ #0".toList.contains c
  let flags := cs.takeWhile isFlag
  let cs := cs.dropWhile isFlag
  let width := Text.digitsValue (cs.takeWhile isDigit)
  let cs := cs.dropWhile isDigit
  let (precision, cs) := match cs with
    | '.' :: rest => (some (Text.digitsValue (rest.takeWhile isDigit)), rest.dropWhile isDigit)
    | _ => (none, cs)
  match cs with
  | [] => none
  | conversion :: rest => some (⟨flags, width, precision, conversion⟩, rest)

/-- The items of a format. Each of them takes at least one character, so `fuel` is enough if it is
the length of the format. -/
def formatItems : (fuel : Nat) → List Char → List FormatItem
  | 0, _ => []
  | _, [] => []
  | fuel + 1, c :: cs =>
    if c = '%' then
      match cs with
      | '%' :: rest => .text '%' :: formatItems fuel rest
      | _ =>
        match readField? cs with
        | some (f, rest) => .field f :: formatItems fuel rest
        | none => (c :: cs).map .text
    else if c = '\\' then
      match cs with
      | 'c' :: _ => [.stop]
      | '"' :: rest => .text '"' :: formatItems fuel rest
      | _ =>
        match readEscape? .bare cs with
        | some (x, count) => .text x :: formatItems fuel (cs.drop count)
        | none => .text '\\' :: formatItems fuel cs
    else .text c :: formatItems fuel cs

/-- The number that an argument starts with, and whether it is all of the argument. Digits after a
zero are octal; a quote in front stands for the code of the character behind it. -/
def argumentNumber (cs : List Char) : Int × Bool :=
  let ofDigits (sign : Int) (digits : List Char) : Int × Bool :=
    let used := digits.takeWhile isDigit
    let value := match used with
      | '0' :: octal => octalValue (octal.takeWhile isOctalDigit)
      | _ => Text.digitsValue used
    (sign * (value : Int), used.length = digits.length && !used.isEmpty)
  match cs with
  | '\'' :: c :: _ | '"' :: c :: _ => (c.toNat, true)
  | '0' :: 'x' :: hex => (((Text.hexNumber? hex).getD 0 : Nat), (Text.hexNumber? hex).isSome)
  | '-' :: digits => ofDigits (-1) digits
  | '+' :: digits => ofDigits 1 digits
  | digits => ofDigits 1 digits

namespace Field

/-- The text, filled up to the width of the field. -/
def pad (f : Field) (cs : List Char) : List Char :=
  let fill := List.replicate (f.width - cs.length) ' '
  if f.flags.contains '-' then cs ++ fill else fill ++ cs

/-- The text, cut to the precision of the field. -/
def cut (f : Field) (cs : List Char) : List Char :=
  match f.precision with
  | some most => cs.take most
  | none => cs

/-- A number with its sign and the zeros that the field asks for. -/
def number (f : Field) (value : Int) : List Char :=
  let digits := match f.conversion with
    | 'x' => Nat.toDigits 16 value.natAbs
    | 'X' => (Nat.toDigits 16 value.natAbs).map Char.toUpper
    | 'o' => Nat.toDigits 8 value.natAbs
    | _ => Nat.toDigits 10 value.natAbs
  let sign := if value < 0 then ['-'] else if f.flags.contains '+' then ['+'] else []
  let least := match f.precision with
    | some least => least
    | none =>
      if f.flags.contains '0' && !f.flags.contains '-' then f.width - sign.length else 1
  f.pad (sign ++ List.replicate (least - digits.length) '0' ++ digits)

end Field

/-- What formatting has come to. -/
structure Formatted where
  text : List Char
  /-- What is wrong with arguments or fields. -/
  complaints : List String
  /-- The arguments that are left. -/
  arguments : List String
  stopped : Bool

namespace Formatted

/-- The text with what a field makes of the next argument. -/
def fill (s : Formatted) (f : Field) : Formatted :=
  let argument := s.arguments.head?
  let s := { s with arguments := s.arguments.drop 1 }
  let cs := (argument.getD "").toList
  if f.conversion = 's' then { s with text := s.text ++ f.pad (f.cut cs) }
  else if f.conversion = 'c' then { s with text := s.text ++ f.pad (cs.take 1) }
  else if f.conversion = 'b' then
    let (cs, ended) := unescape .leadingZero cs
    { s with text := s.text ++ f.pad (f.cut cs), stopped := ended }
  else if "diuxXo".toList.contains f.conversion then
    let (value, whole) := if argument.isSome then argumentNumber cs else (0, true)
    let shown := String.ofList cs
    let complaints := if whole then [] else [s!"{shown}: invalid number"]
    { s with text := s.text ++ f.number value, complaints := s.complaints ++ complaints }
  else
    { s with
      stopped := true
      complaints := s.complaints ++ [s!"\x60{f.conversion}': invalid format character"] }

def step (s : Formatted) (item : FormatItem) : Formatted :=
  if s.stopped then s
  else
    match item with
    | .text c => { s with text := s.text ++ [c] }
    | .field f => s.fill f
    | .stop => { s with stopped := true }

end Formatted

/-- Uses a format until no arguments are left, at most `fuel` times; a format without fields is used
once. -/
def formatFrom (items : List FormatItem) : (fuel : Nat) → Formatted → Formatted
  | 0, s => s
  | fuel + 1, s =>
    let next := items.foldl Formatted.step s
    if next.stopped || next.arguments.isEmpty ||
        next.arguments.length = s.arguments.length then next
    else formatFrom items fuel next

/-- The text of a format with its arguments, and what is wrong with them. -/
def format (template : String) (arguments : List String) : Formatted :=
  let cs := template.toList
  formatFrom (formatItems cs.length cs) (arguments.length + 1) ⟨[], [], arguments, false⟩

end Doctest.Shell
