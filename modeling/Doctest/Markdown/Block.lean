import Doctest.Markdown.Inline
import Doctest.Markdown.Table

/-!
# Blocks

What a Markdown text consists of, without its containers: HTML, code between fences, headings and
running text, in the order of the text. `Block.read` goes through the text line by line; a block takes
its own lines and leaves the others. Running text is read when all labels of links are known.
-/

namespace Doctest.Markdown

/-- A part of a Markdown text. -/
inductive Block
  /-- HTML that makes up lines of its own. -/
  | html (r : Range)
  /-- Code between fences: where it starts, the text behind the fence and the code. -/
  | code (start : Nat) (info text : List Char)
  | heading (start : Nat) (content : List Inline)
  /-- A paragraph or a cell of a table. -/
  | running (content : List Inline)
  deriving DecidableEq, Repr

/-- A block whose running text is still to be read. -/
inductive RawBlock
  | html (r : Range)
  | code (start : Nat) (info text : List Char)
  | heading (start : Nat) (content : List Segment)
  | running (content : List Segment)
  /-- The definition of a label. -/
  | definition (label : Link.Label)

namespace RawBlock

/-! ## Paragraphs -/

/-- Whether the next line is blank or there is none. -/
def nextIsBlank (rest : List Line) : Bool := rest.head?.all (isBlankLine ·.text)

/-- The number of columns of the table that a line of text starts, given the lines below. -/
def tableColumns? (cs : List Container) (text : List Char) (below : List Line) : Option Nat :=
  match below with
  | [] => none
  | l :: _ =>
    let (n, c) := Container.pass cs (.ofLine l)
    let (missing, c) := c.pass 4
    if n < cs.length || missing = 0 || Table.countBars text = 0 then none
    else
      (Table.rule? c.rest).bind fun columns =>
        if columns = Table.columns text then some columns else none

/-- What follows the first line of a paragraph: its other lines, whether the last of them is
underlined, and the lines behind it. -/
def continuation (cs : List Container) : List Line → List Segment × Bool × List Line
  | [] => ([], false, [])
  | l :: rest =>
    let (n, c) := Container.pass cs (.ofLine l)
    let inside := n = cs.length
    let (missing, shallow) := c.pass 4
    let text := shallow.rest
    if missing ≠ 0 && inside && isUnderline text then ([], true, rest)
    else if missing ≠ 0 && (interrupts inside false (nextIsBlank rest) text ||
        (text.head? = some '|' && (tableColumns? cs text rest).isSome)) then
      ([], false, l :: rest)
    else
      let content := shallow.passAll
      if content.atEnd then ([], false, l :: rest)
      else
        let (more, underlined, left) := continuation cs rest
        (⟨content.index, content.rest⟩ :: more, underlined, left)

/-- The cells of a row, at most `columns` of them. -/
def row (columns start : Nat) (text : List Char) : List RawBlock :=
  ((Table.cells (text.length + 1) start text).take columns).map fun (start, cell) =>
    .running [⟨start, cell⟩]

/-- The rows of a table below its line of hyphens, and the lines behind it. -/
def rows (cs : List Container) (columns : Nat) : List Line → List RawBlock × List Line
  | [] => ([], [])
  | l :: rest =>
    let (n, c) := Container.pass cs (.ofLine l)
    let c := c.passAll
    if n < cs.length || interrupts true true (nextIsBlank rest) c.rest then ([], l :: rest)
    else
      let (more, left) := rows cs columns rest
      (row columns c.index c.rest ++ more, left)

/-- A paragraph, an underlined heading, a table or the definition of a label. -/
def paragraph (cs : List Container) (first : Segment) (below : List Line) :
    List RawBlock × List Line :=
  let (more, underlined, left) := continuation cs below
  match Link.definition? (Segment.join (first :: more)) with
  | some (label, rest) =>
    -- The lines of the definition are those whose ends are not left.
    ([.definition label], below.drop (more.length - rest.count '\n'))
  | none =>
    match tableColumns? cs first.text below with
    | some columns =>
      let (body, left) := rows cs columns (below.drop 1)
      (row columns first.start first.text ++ body, left)
    | none =>
      if underlined then ([.heading first.start (first :: more)], left)
      else ([.running (first :: more)], left)

/-! ## Other blocks -/

/-- The text of a heading without the marks at its end. -/
def headingText (text : List Char) : List Char :=
  let trimmed := (text.reverse.dropWhile (· = ' ')).reverse
  let front := (trimmed.reverse.dropWhile (· = '#')).reverse
  if front.isEmpty then []
  else if front.getLast? = some ' ' then (front.reverse.dropWhile (· = ' ')).reverse
  else trimmed

/-- The lines of code between fences, and the lines behind it. -/
def codeLines (cs : List Container) (mark : Char) (length indent : Nat) :
    (fuel : Nat) → List Line → List Char × List Line
  | _, [] => ([], [])
  | 0, rest => ([], rest)
  | fuel + 1, l :: rest =>
    let (n, c) := Container.pass cs (.ofLine l)
    if n < cs.length then ([], l :: rest)
    else
      let (_, c) := c.pass indent
      let (missing, shallow) := c.pass (4 - indent)
      if missing ≠ 0 && closesFence mark length shallow.rest then ([], rest)
      else
        let (l, rest) := l.throughNewline rest
        let text := List.replicate c.pending ' ' ++ l.text.drop (c.index - l.start) ++ l.ending.inCode
        let (more, left) := codeLines cs mark length indent fuel rest
        (text ++ more, left)

/-- Where a block of HTML that ends with a line that holds `closing` stops, given the part of its
current line that belongs to it, and the lines behind it. -/
def rawHtml (cs : List Container) (closing : List Char) :
    (fuel : Nat) → (text : List Char) → Line → List Line → Nat × List Line
  | 0, _, l, rest => (l.stop, rest)
  | fuel + 1, text, l, rest =>
    let (whole, rest) := l.throughNewline rest
    let text := text ++ whole.text.drop l.text.length
    match rest with
    | [] => (whole.stop, [])
    | next :: more =>
      let (n, c) := Container.pass cs (.ofLine next)
      if n < cs.length || Text.contains closing text then (whole.stop, next :: more)
      else rawHtml cs closing fuel c.rest next more

/-- Where a block of HTML that ends in front of a blank line stops, and the lines behind it. -/
def flowHtml (cs : List Container) : (fuel : Nat) → Line → List Line → Nat × List Line
  | 0, l, rest => (l.stop, rest)
  | fuel + 1, l, rest =>
    let (whole, rest) := l.throughNewline rest
    match rest with
    | [] => (whole.stop, [])
    | next :: more =>
      let (n, c) := Container.pass cs (.ofLine next)
      if n < cs.length || isBlankLine c.rest then (whole.stop, next :: more)
      else flowHtml cs fuel next more

/-- The block that a line starts that is not blank and not indented code, and the lines behind it.
`indent` columns stand in front of it. -/
def leaf (cs : List Container) (indent : Nat) (c : Cursor) (l : Line) (below : List Line) :
    List RawBlock × List Line :=
  let html? : Option (Nat × List Line) :=
    match c.rest with
    | '<' :: rest =>
      match Html.rawEnd? rest with
      | some closing => some (rawHtml cs closing (below.length + 1) c.rest l below)
      | none =>
        if Html.startsBlock rest || Html.isTagLine rest then
          some (flowHtml cs (below.length + 1) l below)
        else none
    | _ => none
  match html? with
  | some (stop, rest) => ([.html ⟨c.index, stop⟩], rest)
  | none =>
    if isBreakLine c.rest then ([], below)
    else
      match headingLevel? c.rest, fence? c.rest with
      | some level, _ =>
        let text := dropInlineSpace (c.rest.drop level)
        let start := c.index + (c.rest.length - text.length)
        ([.heading c.index [⟨start, headingText text⟩]], below)
      | none, some (mark, length) =>
        let (whole, below) := l.throughNewline below
        let info := dropInlineSpace (whole.text.drop (c.index - l.start + length))
        let info := (info.reverse.dropWhile isSpace).reverse
        let (text, rest) := codeLines cs mark length indent (below.length + 1) below
        ([.code c.index (unescape info) text], rest)
      | none, none => paragraph cs ⟨c.index, c.rest⟩ below

/-- The blocks of lines inside open containers. `fresh` says that the innermost container is an item
whose mark ended the line in front. -/
def readFrom : (fuel : Nat) → List Container → (fresh : Bool) → List Line → List RawBlock
  | 0, _, _, _ => []
  | _, _, _, [] => []
  | fuel + 1, cs, fresh, l :: below =>
    let (n, c) := Container.pass cs (.ofLine l)
    let passed := cs.take n
    let (cs, c, isFresh) := Container.openAll (c.rest.length + 1) passed c
    if isFresh then readFrom fuel cs true below
    else if isBlankLine c.rest then
      -- An item starts with at most one blank line.
      match cs.getLast?, fresh with
      | some (.item _), true => readFrom fuel cs.dropLast false below
      | _, _ => readFrom fuel cs fresh below
    else
      let (missing, c) := c.pass 4
      if missing = 0 then readFrom fuel cs false below
      else
        let (blocks, rest) := leaf cs (4 - missing) c l below
        blocks ++ readFrom fuel cs false rest

/-- The labels that are defined. -/
def labels (blocks : List RawBlock) : List Link.Label :=
  blocks.filterMap fun
    | .definition label => some label
    | _ => none

/-- Reads the running text of a block. -/
def read? (known : List Link.Label) : RawBlock → Option Block
  | .html r => some (.html r)
  | .code start info text => some (.code start info text)
  | .heading start content => some (.heading start (Inline.read known content))
  | .running content => some (.running (Inline.read known content))
  | .definition _ => none

end RawBlock

/-- The blocks of a Markdown text. -/
def Block.read (source : List Char) : List Block :=
  let lines := Line.split source
  let blocks := RawBlock.readFrom lines.length [] false lines
  blocks.filterMap (RawBlock.read? (RawBlock.labels blocks))

end Doctest.Markdown
