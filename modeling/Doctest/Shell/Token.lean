import Doctest.Text.Integer

/-!
# Words and operators of a script

A script is cut into words, operators and line ends. Quotes and backslashes take their special
meaning from characters; a dollar with a name stands for the value of a variable, within double
quotes too. The cutter reads one character at a time, and what it has read so far is its state.
-/

namespace Doctest.Shell

open Text (isDigit)

/-- A part of a word. -/
inductive Part
  | text (quoted : Bool) (cs : List Char)
  /-- The value of a variable. Without quotes it is cut at blanks. -/
  | variable (quoted : Bool) (name : String)
  deriving DecidableEq, Repr

abbrev Word := List Part

inductive TokenKind
  | word (w : Word)
  | operator (text : String)
  /-- Sends a stream elsewhere, or takes it from there. -/
  | redirect (stream : Option Nat) (operator : String)
  | lineEnd
  /-- The script ends within quotes. -/
  | unclosed (quote : Char)
  deriving DecidableEq, Repr

structure Token where
  line : Nat
  kind : TokenKind
  deriving DecidableEq, Repr

/-- What the next character is part of. -/
inductive Mode
  | plain
  | single (line : Nat)
  | double (line : Nat)
  /-- A backslash is in front. -/
  | escaped (quotes : Option Nat)
  /-- A dollar is in front. Inside of quotes, `quotes` is the line where they were opened. -/
  | dollar (quotes : Option Nat)
  | variable (quotes : Option Nat) (name : List Char)
  | braces (quotes : Option Nat) (name : List Char)
  | comment
  deriving DecidableEq, Repr

/-- What has been read. Lists start with what was read last. -/
structure Cutter where
  mode : Mode
  line : Nat
  /-- The parts of the open word. -/
  word : Option (List Part)
  /-- The open operator and the stream in front of it. -/
  operator : Option (Option Nat × String)
  tokens : List Token

namespace Cutter

def start : Cutter := ⟨.plain, 1, none, none, []⟩

def emit (c : Cutter) (kind : TokenKind) : Cutter :=
  { c with tokens := ⟨c.line, kind⟩ :: c.tokens }

/-- The word with one more part. Text of one kind is put together. -/
def push (c : Cutter) (part : Part) : Cutter :=
  let word := match c.word.getD [], part with
    | .text q cs :: rest, .text q' cs' =>
      if q = q' then .text q (cs ++ cs') :: rest else .text q' cs' :: .text q cs :: rest
    | parts, part => part :: parts
  { c with word := some word }

def closeWord (c : Cutter) : Cutter :=
  match c.word with
  | some parts => { c with word := none }.emit (.word parts.reverse)
  | none => c

/-- Whether the operator is about a stream. -/
def isRedirect (operator : String) : Bool :=
  operator.toList.any fun c => c = '<' || c = '>'

def closeOperator (c : Cutter) : Cutter :=
  match c.operator with
  | some (stream, text) =>
    { c with operator := none }.emit
      (if isRedirect text then .redirect stream text else .operator text)
  | none => c

def operators : List String :=
  [";", "&", "|", "&&", "||", ";;", "(", ")", "<", ">", ">>", ">&", "<&", "&>", "&>>", ">|"]

/-- Starts an operator. An open word of digits alone in front of `<` or `>` is a stream. -/
def openOperator (c : Cutter) (first : Char) : Cutter :=
  let stream := match c.word with
    | some [.text false cs] =>
      if first = '<' || first = '>' then Text.digits? cs else none
    | _ => none
  match stream with
  | some n => { c with word := none, operator := some (some n, first.toString) }
  | none => { c.closeWord with operator := some (none, first.toString) }

def endLine (c : Cutter) : Cutter :=
  let c := c.closeWord.emit .lineEnd
  { c with line := c.line + 1, mode := .plain }

/-- Reads a character outside of quotes. -/
def readPlain (c : Cutter) (x : Char) : Cutter :=
  let extended := c.operator.map fun (stream, text) => (stream, text.push x)
  match extended with
  | some (stream, text) =>
    if operators.contains text then { c with operator := some (stream, text) }
    else readFresh c.closeOperator x
  | none => readFresh c x
where
  /-- Reads a character that no operator is open for. -/
  readFresh (c : Cutter) (x : Char) : Cutter :=
    if x = '\n' then c.endLine
    else if x = ' ' || x = '\t' then c.closeWord
    else if operators.contains x.toString then c.openOperator x
    else if x = '\'' then { c.push (.text true []) with mode := .single c.line }
    else if x = '"' then { c.push (.text true []) with mode := .double c.line }
    else if x = '\\' then { c with mode := .escaped none }
    else if x = '$' then { c with mode := .dollar none }
    else if x = '#' && c.word.isNone then { c with mode := .comment }
    else c.push (.text false [x])

/-- The mode inside of double quotes, or outside. -/
def modeOf (quotes : Option Nat) : Mode :=
  match quotes with
  | some line => .double line
  | none => .plain

/-- Text inside of double quotes, or outside. -/
def pushText (c : Cutter) (quotes : Option Nat) (cs : List Char) : Cutter :=
  c.push (.text quotes.isSome cs)

/-- Reads a character within double quotes that were opened on a line. -/
def readDouble (c : Cutter) (line : Nat) (x : Char) : Cutter :=
  if x = '"' then { c with mode := .plain }
  else if x = '\\' then { c with mode := .escaped (some line) }
  else if x = '$' then { c with mode := .dollar (some line) }
  else
    let c := c.push (.text true [x])
    if x = '\n' then { c with line := c.line + 1 } else c

/-- Reads a character where no special mode is on. -/
def readOrdinary (c : Cutter) (quotes : Option Nat) (x : Char) : Cutter :=
  let c := { c with mode := modeOf quotes }
  match quotes with
  | some line => c.readDouble line x
  | none => c.readPlain x

def isNameStart (x : Char) : Bool := x.isAlpha || x = '_'
def isNameChar (x : Char) : Bool := isNameStart x || isDigit x

/-- The variables whose names are a single sign. -/
def isSpecialName (x : Char) : Bool := isDigit x || "?$!#@*-".toList.contains x

/-- A backslash within double quotes keeps its meaning in front of these only. -/
def isEscapable (x : Char) : Bool := "$\"\\\x60".toList.contains x

/-- The variable that has been read to its end. -/
def closeVariable (c : Cutter) (quotes : Option Nat) (name : List Char) : Cutter :=
  { c.push (.variable quotes.isSome (String.ofList name)) with mode := modeOf quotes }

/-- Reads a character. -/
def read (c : Cutter) (x : Char) : Cutter :=
  match c.mode with
  | .plain => c.readPlain x
  | .comment => if x = '\n' then c.endLine else c
  | .single _ =>
    if x = '\'' then { c with mode := .plain }
    else
      let c := c.push (.text true [x])
      if x = '\n' then { c with line := c.line + 1 } else c
  | .double line => c.readDouble line x
  | .escaped quotes =>
    if x = '\n' then { c with mode := modeOf quotes, line := c.line + 1 }
    else
      let kept := if quotes.isSome && !isEscapable x then ['\\', x] else [x]
      { c.push (.text true kept) with mode := modeOf quotes }
  | .dollar quotes =>
    if x = '\x7b' then { c with mode := .braces quotes [] }
    else if isNameStart x then { c with mode := .variable quotes [x] }
    else if isSpecialName x then c.closeVariable quotes [x]
    else (c.pushText quotes ['$']).readOrdinary quotes x
  | .variable quotes name =>
    if isNameChar x then { c with mode := .variable quotes (name ++ [x]) }
    else (c.closeVariable quotes name).readOrdinary quotes x
  | .braces quotes name =>
    if x = '\x7d' then c.closeVariable quotes name
    else { c with mode := .braces quotes (name ++ [x]) }

/-- The tokens, when everything has been read. -/
def finish (c : Cutter) : List Token :=
  let c := match c.mode with
    | .plain | .comment => c.closeOperator.closeWord
    | .single line => { c with line }.emit (.unclosed '\'')
    | .double line | .braces (some line) _ => { c with line }.emit (.unclosed '"')
    | .braces none _ => c.emit (.unclosed '\x7d')
    | .escaped quotes => (c.pushText quotes ['\\']).closeWord
    | .dollar (some line) | .variable (some line) _ => { c with line }.emit (.unclosed '"')
    | .dollar none => (c.pushText none ['$']).closeWord
    | .variable none name => (c.closeVariable none name).closeWord
  (c.emit .lineEnd).tokens.reverse

end Cutter

/-- The tokens of a script. The last one is the end of its last line. -/
def tokens (script : String) : List Token := (script.toList.foldl Cutter.read Cutter.start).finish

end Doctest.Shell
