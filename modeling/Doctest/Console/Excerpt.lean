import Doctest.Fault
import Doctest.Unicode.Width

/-!
# Excerpts

A diagnostic is shown with the line that it marks: the line's number, its text and a row of carets
below. Carets stand under whole columns, so a wide character gets two of them and a tab as many as it
fills. Notes come last, each indented as far as the line numbers go.
-/

namespace Doctest

namespace Excerpt

/-- A tab ends at the next column that is a multiple of this. -/
def tabStop : Nat := 4

/-- The characters with the columns that each of them takes, from a column on. -/
def columnsFrom : (column : Nat) → List Char → List (Char × Nat)
  | _, [] => []
  | column, c :: cs =>
    let width := if c = '\t' then tabStop - column % tabStop else Unicode.width c
    (c, width) :: columnsFrom (column + width) cs

/-- The text as it is shown: a tab is as many spaces as it has columns. -/
def shown (cs : List Char) : List Char :=
  (columnsFrom 0 cs).flatMap fun (c, width) =>
    if c = '\t' then List.replicate width ' ' else [c]

/-- The number of columns of a text. -/
def width (cs : List Char) : Nat := (columnsFrom 0 cs).foldr (fun c n => c.2 + n) 0

/-- The text without the characters at its end that are not shown there. -/
def dropLineEnd (cs : List Char) : List Char :=
  (cs.reverse.dropWhile fun c => c = '\n' || c = '\r' || c = '\x00').reverse

/-- The number of carets below a line: one for each column, one more for what was dropped from its
end, and one for an empty line. -/
def caretCount (line : List Char) : Nat :=
  let kept := dropLineEnd line
  width kept + if kept.length < line.length || line.isEmpty then 1 else 0

/-- The lines that show a line of a source with carets below it, behind a margin as wide as the
number of the line. -/
def lines (name : String) (source : List Char) (margin : String) (span : Span) : Lines :=
  let number := Source.lineNumber source span.start
  let text := ((Text.pieces source)[number - 1]?).getD []
  let shownText := String.ofList (shown (dropLineEnd text))
  let carets := String.ofList (List.replicate (caretCount text) '^')
  [s!"{margin} ┌─ {name}:{number}:1", s!"{margin} │", s!"{number} │ {shownText}",
    s!"{margin} │ {carets}"]

/-- The lines of a note: an equals sign in front of the first one, and the others below it. -/
def noteLines (margin note : String) : Lines :=
  match Text.lines note with
  | [] => []
  | first :: rest => s!"{margin} = {first}" :: rest.map fun line => s!"{margin}   {line}"

end Excerpt

/-- The lines in which a diagnostic about a document is shown, with an empty one at the end. -/
def Diagnostic.lines (d : Diagnostic) (name : String) (source : List Char) : Lines :=
  let severity := if d.isWarning then "warning" else "error"
  let numbers := d.labels.map fun span => (toString (Source.lineNumber source span.start)).length
  let margin := String.ofList (List.replicate (numbers.foldl max 0) ' ')
  let excerpt := d.labels.flatMap (Excerpt.lines name source margin)
  let gap := if d.labels.isEmpty || d.notes.isEmpty then [] else [s!"{margin} │"]
  [s!"{severity}: {d.message}"] ++ excerpt ++ gap ++ d.notes.flatMap (Excerpt.noteLines margin) ++
    [""]

end Doctest
