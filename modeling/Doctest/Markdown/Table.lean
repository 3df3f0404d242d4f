import Doctest.Markdown.Container

/-!
# Tables

A table is a line of cells, a line of hyphens below it that has as many columns, and lines of cells
below that. Bars with a backslash in front do not separate cells.
-/

namespace Doctest.Markdown.Table

/-- The number of bars in a line that are not escaped. -/
def countBars : List Char → Nat
  | [] => 0
  | c :: cs =>
    if c = '\\' then
      match cs with
      | [] => 0
      | d :: ds => if isAsciiPunctuation d then countBars ds else countBars (d :: ds)
    else if c = '|' then countBars cs + 1
    else countBars cs
termination_by cs => cs.length

/-- Whether the last bar that is not escaped ends the line but for blanks. -/
def endsWithBar (cs : List Char) : Bool :=
  let trimmed := cs.reverse.dropWhile isInlineSpace
  trimmed.head? = some '|' && countBars (trimmed.drop 1).reverse < countBars cs

/-- The number of columns of the first line. Bars at its ends separate nothing. -/
def columns (cs : List Char) : Nat :=
  let bars := countBars cs
  let inner := if (dropInlineSpace cs).head? = some '|' then bars - 1 else bars
  if endsWithBar cs then inner else inner + 1

/-- The number of columns of the line of hyphens. `column` says whether the column has begun, `hyphen`
whether it has a hyphen, `n` counts the columns in front. -/
def ruleFrom (column hyphen : Bool) (n : Nat) : List Char → Option Nat
  | [] => some (if column then n + 1 else n)
  | c :: cs =>
    if c = ' ' then ruleFrom column hyphen n cs
    else if c = ':' then ruleFrom true hyphen n cs
    else if c = '-' then ruleFrom true true n cs
    else if c = '|' then if hyphen then ruleFrom false false (n + 1) cs else none
    else none

/-- The number of columns of a line of hyphens between bars. -/
def rule? (cs : List Char) : Option Nat :=
  if cs.contains '|' && cs.contains '-' then
    ruleFrom false false 0 ((Text.afterWord? ['|'] cs).getD cs)
  else none

/-- The text up to the next bar without a backslash in front. -/
def cellLength (escaped : Bool) : List Char → Nat
  | [] => 0
  | c :: cs => if c = '|' && !escaped then 0 else cellLength (c = '\\') cs + 1

/-- The cells of a line with the places where they start. -/
def cells : (fuel start : Nat) → List Char → List (Nat × List Char)
  | 0, _, _ => []
  | fuel + 1, start, cs =>
    let body := (Text.afterWord? ['|'] cs).getD cs
    let text := dropInlineSpace body
    let start := start + (cs.length - text.length)
    if text.isEmpty then []
    else
      let n := cellLength false text
      (start, text.take n) :: cells fuel (start + n) (text.drop n)

end Doctest.Markdown.Table
