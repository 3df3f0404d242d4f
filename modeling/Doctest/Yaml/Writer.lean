import Doctest.Text.Line
import Doctest.Yaml.Scalar

/-!
# Writing YAML

Nodes are written in block style, one entry or item a line, two columns further in for each mapping
inside a mapping. A scalar is plain where that keeps its text and its being text; otherwise it is
quoted, and text of several lines is a literal block where it can be one.
-/

namespace Doctest.Yaml

/-- A tree of texts to be written. -/
inductive Tree
  | text (s : String)
  | list (items : List Tree)
  | record (entries : List (String × Tree))
  deriving Inhabited

namespace Writer

/-- How a scalar is written. -/
inductive Style
  | plain | single | double | literal
  deriving DecidableEq, Repr

/-- Characters that are written as they are. -/
def isPrintable (c : Char) : Bool :=
  let n := c.toNat
  n == 0x0A || (0x20 ≤ n && n ≤ 0x7E) || (0xA0 ≤ n && n ≤ 0xD7FF) ||
    (0xE000 ≤ n && n ≤ 0xFFFD && n != 0xFEFF)

/-- What decides about the style of a text. -/
structure Traits where
  plainAllowed : Bool
  singleAllowed : Bool
  blockAllowed : Bool
  multiline : Bool

/-- Whether some character has a meaning at its place in a block. `before` says whether white space
precedes the rest. -/
def hasIndicator : (first before : Bool) → List Char → Bool
  | _, _, [] => false
  | first, before, c :: cs =>
    (if first then
      "#,[]\x7b\x7d&*!|>'\"%@\x60".toList.contains c ||
        ("?:-".toList.contains c && Scan.blankNext cs)
    else (c == ':' && Scan.blankNext cs) || (c == '#' && before)) ||
      hasIndicator false (Scan.isBlank c || Scan.isBreak c) cs

/-- Whether a character with the property `p` is followed by one with the property `q`. -/
def hasPair (p q : Char → Bool) : List Char → Bool
  | c :: d :: cs => (p c && q d) || hasPair p q (d :: cs)
  | _ => false

/-- The traits of a text. -/
def traits (cs : List Char) : Traits :=
  if cs.isEmpty then ⟨true, true, false, false⟩
  else
    let edge (p : Char → Bool) : Bool := cs.head?.any p || cs.getLast?.any p
    let isSpace (c : Char) : Bool := c == ' '
    let breaks := cs.any Scan.isBreak
    let breakSpace := hasPair Scan.isBreak isSpace cs
    let spaceBreak := hasPair isSpace Scan.isBreak cs
    let special := !cs.all isPrintable
    let marked := hasIndicator true true cs || ['-', '-', '-'].isPrefixOf cs ||
      ['.', '.', '.'].isPrefixOf cs
    ⟨!edge isSpace && !edge Scan.isBreak && !breakSpace && !spaceBreak && !special && !breaks &&
      !marked,
    !breakSpace && !spaceBreak && !special,
    !cs.getLast?.any isSpace && !spaceBreak && !special,
    breaks⟩

/-- Words that other readers take for a truth value. -/
def truthWords : List String := [
  "y", "Y", "yes", "Yes", "YES", "n", "N", "no", "No", "NO", "true", "True", "TRUE", "false",
  "False", "FALSE", "on", "On", "ON", "off", "Off", "OFF"]

/-- The style of a text; `asKey` if it stands in front of a colon. -/
def style (asKey : Bool) (text : String) : Style :=
  let cs := text.toList
  let t := traits cs
  let wanted : Style :=
    if truthWords.contains text then .single
    else if cs.contains '\n' then .literal
    else if Kind.isZeroPadded cs then .single
    else if Kind.ofPlain cs == .text then .plain
    else .single
  let s := if asKey && t.multiline then .double else wanted
  let s := if s == .plain && (!t.plainAllowed || (cs.isEmpty && asKey)) then .single else s
  let s := if s == .single && (!t.singleAllowed || (asKey && t.multiline)) then .double else s
  if s == .literal && (!t.blockAllowed || asKey) then .double else s

/-- Upper-case hexadecimal digits, at least `width` of them. -/
def hexUpper (width n : Nat) : List Char :=
  let ds := (Nat.toDigits 16 n).map Char.toUpper
  List.replicate (width - ds.length) '0' ++ ds

/-- A character between double quotes. -/
def escapeDouble (c : Char) : List Char :=
  if isPrintable c && !Scan.isBreak c && c != '"' && c != '\\' then [c]
  else
    match c with
    | '\x00' => ['\\', '0']
    | '\x07' => ['\\', 'a']
    | '\x08' => ['\\', 'b']
    | '\t' => ['\\', 't']
    | '\n' => ['\\', 'n']
    | '\x0b' => ['\\', 'v']
    | '\x0c' => ['\\', 'f']
    | '\r' => ['\\', 'r']
    | '\x1b' => ['\\', 'e']
    | '"' => ['\\', '"']
    | '\\' => ['\\', '\\']
    | '\u0085' => ['\\', 'N']
    | '\u00a0' => ['\\', '_']
    | '\u2028' => ['\\', 'L']
    | '\u2029' => ['\\', 'P']
    | _ =>
      let n := c.toNat
      if n ≤ 0xFF then ['\\', 'x'] ++ hexUpper 2 n
      else if n ≤ 0xFFFF then ['\\', 'u'] ++ hexUpper 4 n
      else ['\\', 'U'] ++ hexUpper 8 n

def spaces (n : Nat) : List Char := List.replicate n ' '

/-- The text between single quotes. A quote is written twice, and so is a newline where no line break
stands in front of it. -/
def singleBody (indent : Nat) : (breaks : Bool) → List Char → List Char
  | breaks, [] => if breaks then spaces indent else []
  | breaks, c :: cs =>
    if Scan.isBreak c then
      (if !breaks && c == '\n' then ['\n'] else []) ++
        Scan.keptBreak c :: singleBody indent true cs
    else
      (if breaks then spaces indent else []) ++ (if c == '\'' then ['\'', '\''] else [c]) ++
        singleBody indent false cs

/-- The hints behind the mark of a literal block. -/
def literalHints (cs : List Char) : List Char :=
  (if cs.head?.any fun c => c == ' ' || Scan.isBreak c then ['2'] else []) ++
    match cs.reverse with
    | [] => ['-']
    | c :: rest =>
      if !Scan.isBreak c then ['-']
      else
        match rest with
        | [] => ['+']
        | d :: _ => if Scan.isBreak d then ['+'] else []

/-- The lines of a literal block; empty lines are not indented. -/
def literalBody (indent : Nat) : (breaks : Bool) → List Char → List Char
  | _, [] => []
  | breaks, c :: cs =>
    if Scan.isBreak c then Scan.keptBreak c :: literalBody indent true cs
    else (if breaks then spaces indent else []) ++ c :: literalBody indent false cs

/-- A scalar; `indent` is the column of the lines below the first one. -/
def scalar (indent : Nat) (asKey : Bool) (text : String) : List Char :=
  let cs := text.toList
  match style asKey text with
  | .plain => cs
  | .single => '\'' :: singleBody indent false cs ++ ['\'']
  | .double => '"' :: cs.flatMap escapeDouble ++ ['"']
  | .literal =>
    let body := '\n' :: literalBody indent true cs
    '|' :: literalHints cs ++ (if cs.getLast? == some '\n' then body.dropLast else body)

/-- Whether a text can stand in front of its colon on one line. -/
def isSimpleKey (key : String) : Bool :=
  key.utf8ByteSize ≤ 128 && !key.toList.any Scan.isBreak

mutual

/-- A tree behind its key or the mark of its item, with the line end. `column` is where the lines
of an inner mapping start, `listColumn` those of an inner list. -/
def tree (column listColumn : Nat) (inline : Bool) : Tree → List Char
  | .text s => ' ' :: scalar column false s ++ ['\n']
  | .list [] => " []\n".toList
  | .record [] => " \x7b\x7d\n".toList
  | .list (item :: rest) =>
    (if inline then [' '] else '\n' :: spaces listColumn) ++
      '-' :: tree (listColumn + 2) (listColumn + 2) true item ++ items listColumn rest
  | .record (entry :: rest) =>
    (if inline then [' '] else '\n' :: spaces column) ++ entryText column entry ++
      entries column rest

/-- Further items of a list. -/
def items (column : Nat) : List Tree → List Char
  | [] => []
  | item :: rest =>
    spaces column ++ '-' :: tree (column + 2) (column + 2) true item ++ items column rest

/-- An entry of a mapping without its indentation. -/
def entryText (column : Nat) : String × Tree → List Char
  | (key, value) =>
    (if isSimpleKey key then scalar column true key ++ [':']
    else '?' :: ' ' :: scalar (column + 2) false key ++ '\n' :: spaces column ++ [':']) ++
      tree (column + 2) column false value

/-- Further entries of a mapping. -/
def entries (column : Nat) : List (String × Tree) → List Char
  | [] => []
  | entry :: rest => spaces column ++ entryText column entry ++ entries column rest

end

/-- The text of a mapping. -/
def document (all : List (String × Tree)) : String :=
  if all.isEmpty then "\x7b\x7d\n" else String.ofList (entries 0 all)

end Writer

end Doctest.Yaml
