import Doctest.Text.Line

/-!
# Places in a source text

Offsets count bytes of the UTF-8 form, lines count from one. A line starts at the beginning of the
source or behind a newline; its span leaves out the newline at its end. The line of an offset is looked
up among the line starts, which are in order, and the end of a line is found by reading on from its
start.
-/

namespace Doctest

/-- A stretch of a source text, in bytes. -/
structure Span where
  start : Nat
  stop : Nat
  deriving DecidableEq, Repr, Inhabited

/-- Where a value stands in the part of an ordered table between two places, or else where it would have
to stand. -/
def binarySearch (table : Array Nat) (value low high : Nat) (h : high ≤ table.size) : Except Nat Nat :=
  if hlow : low < high then
    let middle := low + (high - low) / 2
    have hmiddle : middle < high := by omega
    if table[middle] = value then .ok middle
    else if table[middle] < value then binarySearch table value (middle + 1) high h
    else binarySearch table value low middle (by omega)
  else .error low
termination_by high - low

namespace Source

/-- The number of bytes of a text. -/
def byteLength (cs : List Char) : Nat := cs.foldr (fun c n => c.utf8Size + n) 0

/-- The offsets behind the newlines of a text that starts at the given one. -/
def startsFrom (offset : Nat) : List Char → List Nat
  | [] => []
  | c :: cs =>
    let next := offset + c.utf8Size
    if c = '\n' then next :: startsFrom next cs else startsFrom next cs

/-- The offsets where lines start. -/
def lineStarts (source : List Char) : Array Nat := (0 :: startsFrom 0 source).toArray

/-- The text from an offset on. -/
def dropBytes (offset : Nat) : List Char → List Char
  | [] => []
  | c :: cs => if offset = 0 then c :: cs else dropBytes (offset - c.utf8Size) cs

/-- The number of the line that holds the byte offset. Between two line starts it is the place where the
offset would have to stand. -/
def lineNumber (source : List Char) (offset : Nat) : Nat :=
  match binarySearch (lineStarts source) offset 0 (lineStarts source).size (Nat.le_refl _) with
  | .ok place => place + 1
  | .error place => place

/-- The span of a line. Line zero is the first one; past the last line the span is empty and at the
end of the source. -/
def lineSpan (source : List Char) (line : Nat) : Span :=
  match (lineStarts source)[line - 1]? with
  | none => ⟨byteLength source, byteLength source⟩
  | some start =>
    match Text.splitFirst? '\n' (dropBytes start source) with
    | some (text, _) => ⟨start, start + byteLength text⟩
    | none => ⟨start, byteLength source⟩

/-- The number of the line that holds the character at `index`. -/
def lineOfIndex (source : List Char) (index : Nat) : Nat :=
  1 + (source.take index).count '\n'

end Source

end Doctest
