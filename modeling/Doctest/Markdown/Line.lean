/-!
# Lines of a Markdown text

A line ends with a newline, a carriage return or both. Inside code and markup blocks a lone carriage
return does not end a line. A `Cursor` is a place in a line that knows its column, since a tab reaches
up to the next multiple of four.
-/

namespace Doctest.Markdown

/-- A stretch of a text, in characters. -/
structure Range where
  start : Nat
  stop : Nat
  deriving DecidableEq, Repr

/-- How a line ends. -/
inductive Ending
  | none | newline | carriageReturn | both
  deriving DecidableEq, Repr

namespace Ending

def length : Ending → Nat
  | .none => 0
  | .newline | .carriageReturn => 1
  | .both => 2

/-- The end of a line as it counts in code. -/
def inCode : Ending → List Char
  | .newline | .both => ['\n']
  | .carriageReturn => ['\r']
  | .none => []

end Ending

/-- A line of a text without its end. `start` counts characters. -/
structure Line where
  start : Nat
  text : List Char
  ending : Ending
  deriving DecidableEq, Repr

namespace Line

/-- Where the line ends, its end included. -/
def stop (l : Line) : Nat := l.start + l.text.length + l.ending.length

/-- The lines from `start` on; `passed` are the characters of the first line so far, last one
first. -/
def splitFrom (start : Nat) (passed : List Char) : List Char → List Line
  | [] => if passed.isEmpty then [] else [⟨start, passed.reverse, .none⟩]
  | '\n' :: cs =>
    ⟨start, passed.reverse, .newline⟩ :: splitFrom (start + passed.length + 1) [] cs
  | '\r' :: '\n' :: cs =>
    ⟨start, passed.reverse, .both⟩ :: splitFrom (start + passed.length + 2) [] cs
  | '\r' :: cs =>
    ⟨start, passed.reverse, .carriageReturn⟩ :: splitFrom (start + passed.length + 1) [] cs
  | c :: cs => splitFrom start (c :: passed) cs

/-- The lines of a text. -/
def split (source : List Char) : List Line := splitFrom 0 [] source

/-- The line with what follows it up to the next newline, and the lines behind that. -/
def throughNewline (l : Line) : List Line → Line × List Line
  | [] => (l, [])
  | next :: rest =>
    if l.ending = .carriageReturn then
      throughNewline ⟨l.start, l.text ++ '\r' :: next.text, next.ending⟩ rest
    else (l, next :: rest)

end Line

/-- Blanks inside a line: tab, vertical tab, form feed and space. -/
def isInlineSpace (c : Char) : Bool := c = ' ' || c = '\t' || c = '\x0b' || c = '\x0c'

/-- Blanks and line ends. -/
def isSpace (c : Char) : Bool := isInlineSpace c || c = '\n' || c = '\r'

def dropInlineSpace (cs : List Char) : List Char := cs.dropWhile isInlineSpace

/-- Whether a line or the rest of one holds nothing but blanks. -/
def isBlankLine (cs : List Char) : Bool := cs.all isInlineSpace

/-- The ASCII characters that can be escaped. -/
def isAsciiPunctuation (c : Char) : Bool :=
  let n := c.toNat
  (33 ≤ n && n ≤ 47) || (58 ≤ n && n ≤ 64) || (91 ≤ n && n ≤ 96) || (123 ≤ n && n ≤ 126)

/-- The number of times `c` stands at the start. -/
def runLength (c : Char) (cs : List Char) : Nat := (cs.takeWhile (· = c)).length

/-- A place in a line. `pending` columns of a tab in front of it are still to be used. -/
structure Cursor where
  rest : List Char
  index : Nat
  column : Nat
  pending : Nat
  deriving Repr

namespace Cursor

def ofLine (l : Line) : Cursor := ⟨l.text, l.start, 0, 0⟩

/-- Passes up to `n` columns of spaces and tabs. The first component is how many were missing. -/
def passFrom (n index column : Nat) : List Char → Nat × Cursor
  | [] => (n, ⟨[], index, column, 0⟩)
  | c :: cs =>
    if n = 0 then (0, ⟨c :: cs, index, column, 0⟩)
    else if c = ' ' then passFrom (n - 1) (index + 1) (column + 1) cs
    else if c = '\t' then
      let width := 4 - column % 4
      if width ≤ n then passFrom (n - width) (index + 1) (column + width) cs
      else (0, ⟨cs, index + 1, column + width, width - n⟩)
    else (n, ⟨c :: cs, index, column, 0⟩)

/-- Passes up to `n` columns. The first component is how many were missing. -/
def pass (n : Nat) (c : Cursor) : Nat × Cursor :=
  if n ≤ c.pending then (0, { c with pending := c.pending - n })
  else passFrom (n - c.pending) c.index c.column c.rest

/-- Passes `n` columns if there are as many. -/
def pass? (n : Nat) (c : Cursor) : Option Cursor :=
  match c.pass n with
  | (0, next) => some next
  | _ => none

/-- Passes all spaces and tabs. -/
def passAll (c : Cursor) : Cursor :=
  let rest := c.rest.dropWhile fun d => d = ' ' || d = '\t'
  ⟨rest, c.index + (c.rest.length - rest.length), c.column, 0⟩

/-- Passes `n` characters that are as wide as one column. -/
def skip (n : Nat) (c : Cursor) : Cursor := ⟨c.rest.drop n, c.index + n, c.column + n, 0⟩

def atEnd (c : Cursor) : Bool := c.rest.isEmpty

end Cursor

end Doctest.Markdown
