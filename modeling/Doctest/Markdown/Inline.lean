import Doctest.Markdown.Html
import Doctest.Markdown.Link
import Doctest.Text.Blank
import Doctest.Unicode.Category

/-!
# Running text

The content of a paragraph, a heading or a table cell: text, code, line breaks and HTML. Emphasis and
links leave their text; their marks and targets are gone.

The content is read once from left to right. Code, HTML, addresses and the targets of links are taken
where they start, so what they hold is nothing else. Marks of emphasis and opening brackets stay as
they are until the part that they belong to is complete: `Piece.settle` pairs the marks of such a
part.
-/

namespace Doctest.Markdown

open Text (isBlank)

/-- A part of running text. -/
inductive Inline
  | text (t : List Char)
  | code (t : List Char)
  /-- A line end in the source. -/
  | softBreak
  /-- A line end that is kept. -/
  | hardBreak
  /-- HTML, as the place where it stands in the source. -/
  | html (r : Range)
  deriving DecidableEq, Repr

/-- A line of running text and the place where it starts. -/
structure Segment where
  start : Nat
  text : List Char
  deriving Repr

/-- A character of running text and its place in the source. -/
abbrev Placed := Char × Nat

/-- The characters of segments with a newline between each two of them. -/
def placed : List Segment → List Placed
  | [] => []
  | [s] => s.text.zipIdx s.start
  | s :: t :: more =>
    s.text.zipIdx s.start ++ ('\n', s.start + s.text.length) :: placed (t :: more)

/-- The characters alone. -/
def Segment.join (segments : List Segment) : List Char :=
  ['\n'].intercalate (segments.map Segment.text)

/-- Running text that is not settled yet. -/
inductive Piece
  | done (i : Inline)
  /-- What is left of `length` equal marks in a row. -/
  | marks (c : Char) (length count : Nat) (opens closes : Bool)
  /-- An opening bracket, and what follows it. A bracket inside a link cannot open one. -/
  | bracket (isImage active : Bool) (label : List Char)
  deriving Repr

namespace Piece

/-! ## Emphasis -/

/-- Whether marks that open can be paired with marks that close. Tildes pair with as many tildes.
Where marks could both open and close, lengths that add up to a multiple of three do not pair
unless both are one. -/
def pairs (length : Nat) (both : Bool) (openLength : Nat) (openBoth tilde : Bool) : Bool :=
  (!tilde || length = openLength) &&
    ((!both && !openBoth) || (length + openLength) % 3 ≠ 0 || length % 3 = 0)

/-- The last marks in front that can be paired: what stands behind them (last first), their length,
how many are left, whether they close too, and what stands in front of them (last first). -/
def findOpening (c : Char) (length : Nat) (both : Bool) :
    List Piece → Option (List Piece × Nat × Nat × Bool × List Piece)
  | [] => none
  | .marks d l n opens closes :: before =>
    if d = c && opens && pairs length both l closes (c = '~') then some ([], l, n, closes, before)
    else (findOpening c length both before).map fun (between, found) =>
      (.marks d l n opens closes :: between, found)
  | p :: before =>
    (findOpening c length both before).map fun (between, found) => (p :: between, found)

/-- Marks and brackets that found no partner are text. -/
def plain : Piece → Inline
  | .done i => i
  | .marks c _ n _ _ => .text (List.replicate n c)
  | .bracket isImage _ _ => .text (if isImage then ['!', '['] else ['['])

/-- Pairs `count` closing marks with marks in front (last first). Gives how many are left. -/
def close (c : Char) (length : Nat) (both : Bool) :
    (fuel count : Nat) → List Piece → Nat × List Piece
  | 0, count, before => (count, before)
  | fuel + 1, count, before =>
    if count = 0 then (0, before)
    else
      match findOpening c length both before with
      | none => (count, before)
      | some (between, openLength, openCount, openBoth, front) =>
        let n := min count openCount
        let opening := if openCount = n then []
          else [.marks c openLength (openCount - n) true openBoth]
        close c length both fuel (count - n)
          (between.map (fun p => .done p.plain) ++ opening ++ front)

/-- Adds a piece behind others (last first), pairing marks. -/
def push (before : List Piece) : Piece → List Piece
  | .marks c length count opens closes =>
    let (left, before) := if closes then close c length (opens && closes) count count before
      else (count, before)
    if left = 0 then before
    else if opens then .marks c length left opens closes :: before
    else .done (.text (List.replicate left c)) :: before
  | p => p :: before

/-- Settles a complete part of the text. -/
def settle (pieces : List Piece) : List Inline := ((pieces.foldl push []).map plain).reverse

/-! ## Marks -/

/-- Whether marks can open emphasis, given the characters beside them. -/
def canOpen (c : Char) (length : Nat) (before after : Option Char) : Bool :=
  match after with
  | none => false
  | some a =>
    !isBlank a &&
      match before with
      | none => true
      | some b =>
        (c = '*' && !Unicode.isPunctuation a) || (c = '~' && 1 < length) ||
          isBlank b || Unicode.isPunctuation b

/-- Whether marks can close emphasis, given the characters beside them. -/
def canClose (c : Char) (length : Nat) (before after : Option Char) : Bool :=
  match before with
  | none => false
  | some b =>
    !isBlank b &&
      match after with
      | none => true
      | some a =>
        ((c = '*' || (c = '~' && 1 < length)) && !Unicode.isPunctuation b) ||
          isBlank a || Unicode.isPunctuation a

end Piece

/-! ## Reading -/

/-- The length of the code up to the next run of exactly `n` backticks. -/
def codeLength? (n : Nat) : (run passed : Nat) → List Char → Option Nat
  | run, passed, [] => if run = n then some (passed - n) else none
  | run, passed, c :: cs =>
    if c = '\x60' then codeLength? n (run + 1) (passed + 1) cs
    else if run = n then some (passed - n)
    else codeLength? n 0 (passed + 1) cs

/-- Code as it is shown: line ends are blanks, and one blank at both ends is left out unless there is
nothing else. -/
def codeText (cs : List Char) : List Char :=
  let cs := cs.map fun c => if c = '\n' then ' ' else c
  if cs.head? = some ' ' && cs.getLast? = some ' ' && cs.any (· ≠ ' ') then
    (cs.drop 1).dropLast
  else cs

/-- How far the text has been read: what is left, the character in front of it, and the pieces found
(last first). Text that has just been read is kept apart (last character first). -/
structure Reading where
  rest : List Placed
  before : Option Char
  found : List Piece
  text : List Char

namespace Reading

/-- Ends the text that has just been read. -/
def flush (r : Reading) : Reading :=
  if r.text.isEmpty then r
  else { r with found := .done (.text r.text.reverse) :: r.found, text := [] }

/-- Takes characters as text. -/
def literal (r : Reading) (cs : List Char) (rest : List Placed) : Reading :=
  { r with rest, before := cs.getLast?.or r.before, text := cs.reverse ++ r.text }

/-- Takes `n` characters as a piece. -/
def take (r : Reading) (n : Nat) (p : Piece) : Reading :=
  { r.flush with
    rest := r.rest.drop n
    before := ((r.rest[n - 1]?).map (·.1)).or r.before
    found := p :: r.flush.found }

/-- The pieces behind the last opening bracket (last first), the bracket, and those in front. -/
def splitAtBracket : List Piece → Option (List Piece × (Bool × Bool × List Char) × List Piece)
  | [] => none
  | .bracket isImage active label :: before => some ([], (isImage, active, label), before)
  | p :: before => (splitAtBracket before).map fun (between, found) => (p :: between, found)

/-- Brackets in front of a link cannot open another one around it. -/
def deactivate : Piece → Piece
  | .bracket false _ label => .bracket false false label
  | p => p

/-- What follows a link whose text ends in front of `after`: a target in parentheses, a known label
in brackets, or nothing if the text itself is a known label. -/
def linkEnd? (known : List Link.Label) (text after : List Char) : Option (List Char) :=
  match Link.target? after with
  | some rest => some rest
  | none =>
    let own? : Option Link.Label := (Link.label? text).bind fun (label, rest) =>
      if rest.length = after.length then some label else none
    let other? : Option (Link.Label × List Char) :=
      match after with
      | '[' :: more => Link.label? more
      | _ => none
    match Text.afterWord? ['[', ']'] after, other? with
    | some rest, _ => own?.bind fun label => if known.contains label then some rest else none
    | none, some (label, rest) => if known.contains label then some rest else none
    | none, none => own?.bind fun label => if known.contains label then some after else none

/-- A closing bracket: the end of a link or an image, or text. -/
def closeBracket (known : List Link.Label) (r : Reading) : Reading :=
  let r := r.flush
  let asText (found : List Piece) : Reading := { r with found }.literal [']'] (r.rest.drop 1)
  match splitAtBracket r.found with
  | none => asText r.found
  | some (between, (isImage, active, label), front) =>
    let opening : Piece := .done (Piece.bracket isImage active label).plain
    let after := (r.rest.drop 1).map (·.1)
    match if active then linkEnd? known label after else none with
    | none => asText (between ++ opening :: front)
    | some left =>
      let front := if isImage then front else front.map deactivate
      let n := r.rest.length - left.length
      { r with
        rest := r.rest.drop n
        before := ((r.rest[n - 1]?).map (·.1)).or r.before
        found := (Piece.settle between.reverse).reverse.map .done ++ front }

/-- A backslash: it escapes punctuation and keeps a line end. -/
def escape (r : Reading) : Reading :=
  match r.rest.drop 1 with
  | (d, _) :: rest =>
    if d = '\n' then r.take 2 (.done .hardBreak)
    else if isAsciiPunctuation d then { r.flush with rest, before := some d, text := [d] }
    else r.literal ['\\'] (r.rest.drop 1)
  | [] => r.literal ['\\'] []

/-- A line end. Two blanks or more in front of it keep it. -/
def lineBreak (r : Reading) : Reading :=
  let blanks := (r.text.takeWhile isInlineSpace).length
  if 2 ≤ blanks then { r with text := r.text.drop blanks }.take 1 (.done .hardBreak)
  else r.take 1 (.done .softBreak)

/-- A run of backticks: the start of code, or text. -/
def code (r : Reading) (cs : List Char) : Reading :=
  let n := runLength '\x60' cs
  let body := cs.drop n
  match codeLength? n 0 0 body with
  | some length => r.take (n + length + n) (.done (.code (codeText (body.take length))))
  | none => r.literal (cs.take n) (r.rest.drop n)

/-- An angle bracket: the start of an address or of HTML, or text. -/
def angle (r : Reading) (place : Nat) (cs : List Char) : Reading :=
  match Html.address? cs with
  | some (address, after) => r.take (1 + cs.length - after.length) (.done (.text address))
  | none =>
    match Html.inline? cs with
    | none => r.literal ['<'] (r.rest.drop 1)
    | some after =>
      let n := 1 + cs.length - after.length
      let last := ((r.rest[n - 1]?).map (·.2)).getD place
      r.take n (.done (.html ⟨place, last + 1⟩))

/-- Marks of emphasis, or text. -/
def emphasis (r : Reading) (c : Char) (cs : List Char) : Reading :=
  let n := runLength c cs
  let after := (cs.drop n).head?
  let opens := Piece.canOpen c n r.before after
  let closes := Piece.canClose c n r.before after
  if (opens || closes) && (c ≠ '~' || n ≤ 2) then r.take n (.marks c n n opens closes)
  else r.literal (cs.take n) (r.rest.drop n)

/-- Characters that may start something else than text. -/
def isMark (c : Char) : Bool := "\\\n\x60<*_~![]&".toList.contains c

/-- Takes the next part of the text. -/
def step (known : List Link.Label) (r : Reading) : Reading :=
  match r.rest with
  | [] => r
  | (c, place) :: more =>
    if !isMark c then r.literal [c] more
    else if c = '\\' then r.escape
    else if c = '\n' then r.lineBreak
    else if c = ']' then closeBracket known r
    else
      let cs := more.map (·.1)
      if c = '\x60' then r.code (c :: cs)
      else if c = '<' then r.angle place cs
      else if c = '*' || c = '_' || c = '~' then r.emphasis c (c :: cs)
      else if c = '!' && cs.head? = some '[' then r.take 2 (.bracket true true (cs.drop 1))
      else if c = '[' then r.take 1 (.bracket false true cs)
      else if c = '&' then
        match reference? cs with
        | some (value, rest) =>
          { r with
            rest := more.drop (cs.length - rest.length)
            before := some ';'
            text := value.reverse ++ r.text }
        | none => r.literal [c] more
      else r.literal [c] more

/-- Reads on to the end. -/
def run (known : List Link.Label) : (fuel : Nat) → Reading → Reading
  | 0, r => r
  | fuel + 1, r => if r.rest.isEmpty then r else run known fuel (r.step known)

end Reading

/-- The parts of running text, given the labels that the document defines. -/
def Inline.read (known : List Link.Label) (segments : List Segment) : List Inline :=
  let cs := placed segments
  let r := (Reading.run known cs.length ⟨cs, none, [], []⟩).flush
  Piece.settle r.found.reverse

end Doctest.Markdown
