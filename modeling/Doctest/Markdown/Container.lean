import Doctest.Markdown.Html

/-!
# Containers and the starts of blocks

Quotes and list items hold blocks. Each line inside a container repeats its mark or its indentation.
`Container.pass` finds how many of the open containers a line belongs to; `Container.openAll` opens the
new ones. The other functions tell which block a line starts.
-/

namespace Doctest.Markdown

/-- A block that holds others. -/
inductive Container
  | quote
  /-- A list item whose content is indented by a number of columns. -/
  | item (indent : Nat)
  deriving DecidableEq, Repr

/-- Whether the text is a line of three or more equal marks, a thematic break. -/
def isBreakLine (cs : List Char) : Bool :=
  match cs with
  | [] => false
  | c :: _ => (c = '*' || c = '-' || c = '_') && 3 ≤ cs.count c &&
    cs.all fun d => d = c || d = ' ' || d = '\t'

/-- The level of a heading that starts here. -/
def headingLevel? (cs : List Char) : Option Nat :=
  let n := runLength '#' cs
  if 1 ≤ n && n ≤ 6 && (cs.drop n).head?.all isSpace then some n else none

/-- The mark and length of a fence that opens code here. -/
def fence? (cs : List Char) : Option (Char × Nat) :=
  match cs with
  | [] => none
  | c :: _ =>
    let n := runLength c cs
    if c = '~' && 3 ≤ n then some (c, n)
    else if c = '\x60' && 3 ≤ n && !(cs.drop n).contains '\x60' then some (c, n)
    else none

/-- Whether the text closes code opened with `n` marks. -/
def closesFence (c : Char) (n : Nat) (cs : List Char) : Bool :=
  let found := runLength c cs
  n ≤ found && (cs.drop found).all (· = ' ')

/-- Whether the text underlines a heading. -/
def isUnderline (cs : List Char) : Bool :=
  match cs with
  | [] => false
  | c :: _ => (c = '=' || c = '-') && isBlankLine (cs.drop (runLength c cs))

/-- The mark of a list item: its length, and its number if it has one. -/
def listMark? (cs : List Char) : Option (Nat × Option Nat) :=
  match cs with
  | [] => none
  | c :: _ =>
    if c = '-' || c = '+' || c = '*' then some (1, none)
    else
      let digits := cs.takeWhile Char.isDigit
      let delimiter := (cs.drop digits.length).head?
      if 1 ≤ digits.length && digits.length ≤ 9 && (delimiter = some '.' || delimiter = some ')') then
        some (digits.length + 1, (String.ofList digits).toNat?)
      else none

namespace Container

/-- Passes the mark of a quote with its indentation and one blank behind it. -/
def quoteMark? (c : Cursor) : Option Cursor :=
  let (_, next) := c.pass 3
  if next.pending = 0 && next.rest.head? = some '>' then some ((next.skip 1).pass 1).2 else none

/-- Passes what a line of the container starts with. -/
def passOne (container : Container) (c : Cursor) : Option Cursor :=
  match container with
  | .quote => quoteMark? c
  | .item indent =>
    let (missing, next) := c.pass indent
    if missing = 0 || next.atEnd then some next else none

/-- Passes what the line has of the open containers; gives how many it belongs to. -/
def pass : List Container → Cursor → Nat × Cursor
  | [], c => (0, c)
  | container :: more, c =>
    match passOne container c with
    | none => (0, c)
    | some next =>
      let (n, last) := pass more next
      (n + 1, last)

/-- Opens a list item. The first component of the result is the indentation of its content. -/
def itemMark? (indent : Nat) (c : Cursor) : Option (Nat × Cursor) := do
  let (length, number) ← listMark? c.rest
  if number.isNone && isBreakLine c.rest then none
  let afterMark := c.skip length
  let next ← if afterMark.atEnd then some afterMark else afterMark.pass? 1
  let indent := indent + length + 1
  if isBlankLine next.rest then some (indent, next)
  else
    let (missing, content) := next.pass 4
    if missing = 0 then some (indent, next) else some (indent + (4 - missing), content)

/-- Opens the containers that start on the line. The last component of the result says whether the
line ends with the mark of an item. -/
def openAll : (fuel : Nat) → List Container → Cursor → List Container × Cursor × Bool
  | 0, opened, c => (opened, c, false)
  | fuel + 1, opened, c =>
    let (missing, next) := c.pass 4
    if missing = 0 then (opened, c, false)
    else
      match itemMark? (4 - missing) next with
      | some (indent, next) =>
        if isBlankLine next.rest then (opened ++ [.item indent], next, true)
        else openAll fuel (opened ++ [.item indent]) next
      | none =>
        match quoteMark? next with
        | some next => openAll fuel (opened ++ [.quote]) next
        | none => (opened, c, false)

end Container

/-- Whether a line may end a paragraph by starting something else. `inside` says whether the line
belongs to all containers of the paragraph, `nextBlank` whether the line below is blank. -/
def interrupts (inside inTable nextBlank : Bool) (cs : List Char) : Bool :=
  cs.isEmpty || isBreakLine cs || (headingLevel? cs).isSome || (fence? cs).isSome ||
    cs.head? = some '>' ||
    (match listMark? cs with
    | none => false
    | some (length, number) =>
      let rest := cs.drop length
      (rest.isEmpty || rest.head? = some ' ' || rest.head? = some '\t') &&
        (!inside || inTable ||
          ((number.isNone || number = some 1) && !(isBlankLine rest && nextBlank)))) ||
    match cs with
    | '<' :: rest => (Html.rawEnd? rest).isSome || Html.startsBlock rest
    | _ => false

end Doctest.Markdown
