import Doctest.Regex.Pattern
import Doctest.Text.Integer
import Doctest.Text.Search

/-!
# Reading patterns

The notation of patterns: literal characters, `.`, classes in brackets with set operations, escapes,
groups, alternatives, greedy and lazy repetition, anchors, and flags for the rest of a group or for
a group of their own. There is no look-around and there are no references to groups.

A reader that gives `none` refuses the pattern. The main readers go through the text once, with the
open groups or brackets on a stack, and take at least one character in each step, so the length of
the text bounds the number of steps.
-/

namespace Doctest.Regex

open Text (isBlank isDigit hexChar?)

/-- What is in force at a place of a pattern. -/
structure Flags where
  caseless : Bool
  multiLine : Bool
  dotAll : Bool
  swapGreed : Bool
  unicode : Bool
  returns : Bool
  verbose : Bool
  deriving Inhabited

/-- The flags that a pattern starts with. -/
def Flags.initial (caseless : Bool) : Flags := ⟨caseless, false, false, false, true, false, false⟩

/-- Sets or clears the flag with this letter. -/
def Flags.put? (flags : Flags) (letter : Char) (on : Bool) : Option Flags :=
  match letter with
  | 'i' => some { flags with caseless := on }
  | 'm' => some { flags with multiLine := on }
  | 's' => some { flags with dotAll := on }
  | 'U' => some { flags with swapGreed := on }
  | 'u' => some { flags with unicode := on }
  | 'R' => some { flags with returns := on }
  | 'x' => some { flags with verbose := on }
  | _ => none

/-- Without regard to case, if the flags say so. -/
def Flags.fold (flags : Flags) (set : CharSet) : CharSet :=
  if flags.caseless then (if flags.unicode then .folded set else .asciiFolded set) else set

/-- The set, or what is outside of it. Case is disregarded first, so that a character is outside if
none of its cases is in the set. -/
def Flags.select (flags : Flags) (negated : Bool) (set : CharSet) : CharSet :=
  if negated then .compl (flags.fold set) else flags.fold set

/-- What follows the blanks and comments that a verbose pattern may contain. -/
def skipVerbose (flags : Flags) (cs : List Char) : List Char :=
  if flags.verbose then go false cs else cs
where
  go (inComment : Bool) : List Char → List Char
    | [] => []
    | c :: cs =>
      if inComment then go (c != '\n') cs
      else if isBlank c then go false cs
      else if c = '#' then go true cs
      else c :: cs

/-- The smallest unit of a pattern. -/
inductive Atom
  | literal (c : Char)
  | set (s : CharSet)
  | anchor (a : Anchor)

/-- The set of `d`, `s` or `w`. -/
def classSet (flags : Flags) (letter : Char) : CharSet :=
  let name := if letter = 'd' then "digit" else if letter = 's' then "space" else "word"
  if flags.unicode then
    (if letter = 'd' then .digit else if letter = 's' then .blank else .word)
  else (CharSet.ascii? name).getD .none

/-- Reads a code of `count` digits or one in braces. -/
def readHex? (count : Nat) (cs : List Char) : Option (Char × List Char) :=
  match cs with
  | '{' :: rest => do
    let (digits, after) ← Text.splitFirst? '}' rest
    some (← hexChar? digits, after)
  | _ => do
    if cs.length < count then none
    some (← hexChar? (cs.take count), cs.drop count)

/-- Characters that a backslash takes their meaning from. -/
def isMeta (c : Char) : Bool := "\\.+*?()|[]\x7b\x7d^$#&-~".toList.contains c

/-- The words in braces that make `\b` one-sided. -/
def boundary? (ascii : Bool) (name : List Char) : Option Anchor :=
  match String.ofList name with
  | "start" => some (.wordStart ascii)
  | "end" => some (.wordEnd ascii)
  | "start-half" => some (.wordStartHalf ascii)
  | "end-half" => some (.wordEndHalf ascii)
  | _ => none

/-- Reads what follows a backslash. -/
def readEscape? (flags : Flags) (cs : List Char) : Option (Atom × List Char) :=
  let ascii := !flags.unicode
  match cs with
  | [] => none
  | c :: rest =>
    if isDigit c then none
    else if c = 'x' then do
      let (d, after) ← readHex? 2 rest
      -- Two digits mean a byte there, which is no character of its own beyond ASCII.
      if ascii && 0x80 ≤ d.toNat && rest.head? ≠ some '\x7b' then none
      some (.literal d, after)
    else if c = 'u' then (readHex? 4 rest).map fun (d, r) => (.literal d, r)
    else if c = 'U' then (readHex? 8 rest).map fun (d, r) => (.literal d, r)
    else if c = 'p' || c = 'P' then
      if ascii then none
      else
        let named : Option (CharSet × List Char) :=
          match rest with
          | '{' :: more => do
            let (name, after) ← Text.splitFirst? '}' more
            some (← CharSet.property? name, after)
          | d :: after => do some (← CharSet.property? [d], after)
          | [] => none
        named.map fun (set, after) => (.set (flags.select (c == 'P') set), after)
    else if c = 'd' || c = 's' || c = 'w' then some (.set (classSet flags c), rest)
    else if c = 'D' || c = 'S' || c = 'W' then
      if ascii then none else some (.set (.compl (classSet flags c.toLower)), rest)
    else if isMeta c then some (.literal c, rest)
    else
      match c with
      | 'a' => some (.literal '\x07', rest)
      | 'f' => some (.literal '\x0c', rest)
      | 't' => some (.literal '\t', rest)
      | 'n' => some (.literal '\n', rest)
      | 'r' => some (.literal '\r', rest)
      | 'v' => some (.literal '\x0b', rest)
      | 'A' => some (.anchor .textStart, rest)
      | 'z' => some (.anchor .textEnd, rest)
      | 'B' => some (.anchor (.noWordBoundary ascii), rest)
      | '<' => some (.anchor (.wordStart ascii), rest)
      | '>' => some (.anchor (.wordEnd ascii), rest)
      | 'b' =>
        match rest with
        | '{' :: d :: more =>
          if d.isAlpha || d = '-' then
            let name := (d :: more).takeWhile fun e => e.isAlpha || e = '-'
            match (d :: more).drop name.length with
            | '}' :: after => (boundary? ascii name).map fun a => (.anchor a, after)
            | _ => none
          else some (.anchor (.wordBoundary ascii), rest)
        | _ => some (.anchor (.wordBoundary ascii), rest)
      | _ =>
        if c.toNat < 128 && !c.isAlphanum then some (.literal c, rest) else none

/-- An operation between two parts of a bracketed class. -/
inductive SetOperation
  | inter | diff | symmDiff

/-- A bracket that is still open: the operation that waits for its right side, and the union of the
items read since. -/
structure OpenSet where
  negated : Bool
  pending : Option (SetOperation × CharSet)
  items : CharSet
  isEmpty : Bool

/-- The value of the parts read so far. -/
def OpenSet.value (flags : Flags) (s : OpenSet) : CharSet :=
  match s.pending with
  | none => s.items
  | some (op, left) =>
    let a := flags.fold left
    let b := flags.fold s.items
    match op with
    | .inter => .inter a b
    | .diff => .diff a b
    | .symmDiff => .symmDiff a b

def OpenSet.add (s : OpenSet) (item : CharSet) : OpenSet :=
  { s with items := if s.isEmpty then item else .union s.items item, isEmpty := false }

/-- Whether a set holds more than ASCII characters, for sets that hold all characters of the block
behind ASCII or none. -/
def isBeyondAscii (set : CharSet) : Bool := set.mem '\x80'

/-- The set of a closed bracket. Without Unicode it may only hold ASCII characters. -/
def OpenSet.close? (flags : Flags) (s : OpenSet) : Option CharSet :=
  let set := flags.select s.negated (s.value flags)
  if !flags.unicode && isBeyondAscii set then none else some set

/-- Opens a bracket: a caret negates, and hyphens or one closing bracket right after that stand for
themselves. -/
def openSet? (flags : Flags) (cs : List Char) : Option (OpenSet × List Char) := do
  let cs := skipVerbose flags cs
  let (negated, cs) := match cs with
    | '^' :: rest => (true, skipVerbose flags rest)
    | _ => (false, cs)
  let hyphens := cs.takeWhile (· = '-')
  let cs := skipVerbose flags (cs.drop hyphens.length)
  let start : OpenSet := ⟨negated, none, .none, true⟩
  let start := hyphens.foldl (fun s _ => s.add (.single '-')) start
  match cs with
  | [] => none
  | ']' :: rest =>
    if hyphens.isEmpty then some (start.add (.single ']'), rest) else some (start, cs)
  | _ => some (start, cs)

/-- Reads a class such as `[:alpha:]` behind its first bracket. -/
def readNamedSet? (flags : Flags) (cs : List Char) : Option (CharSet × List Char) :=
  match cs with
  | ':' :: rest => do
    let (negated, rest) := match rest with
      | '^' :: more => (true, more)
      | _ => (false, rest)
    let (name, after) ← Text.splitFirst? ':' rest
    let set ← CharSet.ascii? (String.ofList name)
    match after with
    | ']' :: after => some (flags.select negated set, after)
    | _ => none
  | _ => none

/-- Reads one character or escape of a bracketed class. -/
def readSetItem? (flags : Flags) (cs : List Char) : Option (Atom × List Char) := do
  let (item, rest) ← match cs with
    | [] => none
    | '\\' :: rest => readEscape? flags rest
    | c :: rest => some (Atom.literal c, rest)
  match item with
  | .literal c => if flags.unicode || c.toNat < 128 then some (item, rest) else none
  | _ => some (item, rest)

/-- Reads an item or a range of a bracketed class. -/
def readSetRange? (flags : Flags) (cs : List Char) : Option (CharSet × List Char) := do
  let (first, rest) ← readSetItem? flags cs
  let rest := skipVerbose flags rest
  let alone : Option CharSet := match first with
    | .literal c => some (.single c)
    | .set s => some s
    | .anchor _ => none
  match rest with
  | [] => none
  | '-' :: more =>
    let more := skipVerbose flags more
    if more.head? = some ']' || more.head? = some '-' then some (← alone, rest)
    else
      let (last, after) ← readSetItem? flags more
      match first, last with
      | .literal a, .literal b => if a ≤ b then some (.range a b, after) else none
      | _, _ => none
  | _ => some (← alone, rest)

/-- Reads a bracketed class to its end. `outer` holds the open brackets around `s`; the number of
brackets open at once is limited. -/
def readSet? (flags : Flags) : (fuel : Nat) → (s : OpenSet) → (outer : List OpenSet) →
    List Char → Option (CharSet × List Char)
  | 0, _, _, _ => none
  | fuel + 1, s, outer, cs =>
    match skipVerbose flags cs with
    | [] => none
    | '[' :: rest =>
      match readNamedSet? flags rest with
      | some (set, after) => readSet? flags fuel (s.add set) outer after
      | none => do
        let (inner, after) ← openSet? flags rest
        if 240 < outer.length then none
        readSet? flags fuel inner (s :: outer) after
    | ']' :: rest => do
      let set ← s.close? flags
      match outer with
      | [] => some (set, rest)
      | t :: outer => readSet? flags fuel (t.add set) outer rest
    | '&' :: '&' :: rest =>
      readSet? flags fuel ⟨s.negated, some (.inter, s.value flags), .none, true⟩ outer rest
    | '-' :: '-' :: rest =>
      readSet? flags fuel ⟨s.negated, some (.diff, s.value flags), .none, true⟩ outer rest
    | '~' :: '~' :: rest =>
      readSet? flags fuel ⟨s.negated, some (.symmDiff, s.value flags), .none, true⟩ outer rest
    | c :: rest => do
      let (item, after) ← readSetRange? flags (c :: rest)
      readSet? flags fuel (s.add item) outer after

/-- Reads the number of a counted repetition, with blanks around it. -/
def readCount? (cs : List Char) : Option (Option Nat × List Char) :=
  let cs := cs.dropWhile isBlank
  let digits := cs.takeWhile isDigit
  let rest := (cs.drop digits.length).dropWhile isBlank
  match Text.digits? digits with
  | none => some (none, rest)
  | some n => if n < Nat.pow 2 32 then some (some n, rest) else none

/-- Reads a counted repetition behind its brace: the least number and how many more, if limited. -/
def readCounts? (cs : List Char) : Option ((Nat × Option Nat) × List Char) := do
  let (least, rest) ← readCount? cs
  match rest with
  | '}' :: after => some ((← least, some 0), after)
  | ',' :: rest =>
    let least ← least
    match rest.dropWhile isBlank with
    | '}' :: after => some ((least, none), after)
    | rest =>
      let (most, rest) ← readCount? rest
      let most ← most
      match rest with
      | '}' :: after => if least ≤ most then some ((least, some (most - least)), after) else none
      | _ => none
  | _ => none

/-- Reads flags up to a colon or a closing bracket: the flags in force from there on, whether any
were named, and the closing character. -/
def readFlags? (flags : Flags) : (seen : List Char) → List Char →
    Option (Flags × Bool × Char × List Char)
  | _, [] => none
  | seen, c :: rest =>
    if c = ':' || c = ')' then
      if seen.head? = some '-' then none else some (flags, !seen.isEmpty, c, rest)
    else if seen.contains c then none
    else if c = '-' then readFlags? flags (c :: seen) rest
    else do
      let flags ← flags.put? c (!seen.contains '-')
      readFlags? flags (c :: seen) rest

def isNameStart (c : Char) : Bool :=
  c == '_' || ((Unicode.isWordChar c) && !Unicode.isDecimalNumber c)

def isNameChar (c : Char) : Bool :=
  c == '_' || c == '.' || c == '[' || c == ']' || Unicode.isWordChar c

/-- A part of a sequence with the depth of its tree; a change of flags cannot be repeated. -/
structure Piece where
  pattern : Pattern
  depth : Nat
  isFlags : Bool

/-- A group that is still open: how to close it, and what was read of it. -/
structure OpenGroup where
  flagsOutside : Flags
  capture : Option Nat
  alternatives : List Piece
  pieces : List Piece

/-- The sequence that was read last, as one part. -/
def sequencePiece (pieces : List Piece) : Piece :=
  match pieces with
  | [] => ⟨.empty, 0, false⟩
  | [p] => p
  | ps => ⟨.catAll (ps.reverse.map (·.pattern)), 1 + ps.foldl (fun n p => max n p.depth) 0, false⟩

/-- All alternatives of a group, as one part. -/
def OpenGroup.piece (g : OpenGroup) : Piece :=
  match g.alternatives with
  | [] => sequencePiece g.pieces
  | ps =>
    let all := sequencePiece g.pieces :: ps
    ⟨.altAll (all.reverse.map (·.pattern)), 1 + all.foldl (fun n p => max n p.depth) 0, false⟩

def OpenGroup.push (g : OpenGroup) (pattern : Pattern) (depth : Nat) : OpenGroup :=
  { g with pieces := ⟨pattern, depth, false⟩ :: g.pieces }

/-- Where the reader of a pattern stands: the flags in force, the innermost open group, the groups
around it, the names of groups and their number. -/
structure ReaderState where
  flags : Flags
  current : OpenGroup
  outer : List OpenGroup
  names : List String
  groups : Nat

namespace ReaderState

def push (s : ReaderState) (pattern : Pattern) (depth : Nat) : ReaderState :=
  { s with current := s.current.push pattern depth }

/-- Opens a group whose content has these flags. -/
def enter (s : ReaderState) (capture : Option Nat) (flags : Flags) : ReaderState :=
  { s with flags, current := ⟨s.flags, capture, [], []⟩, outer := s.current :: s.outer }

/-- Opens the group behind its bracket, or takes over flags for the rest of the open one. -/
def openGroup? (s : ReaderState) (cs : List Char) : Option (ReaderState × List Char) :=
  match cs with
  | '?' :: '=' :: _ | '?' :: '!' :: _ | '?' :: '<' :: '=' :: _ | '?' :: '<' :: '!' :: _ => none
  | '?' :: 'P' :: '<' :: rest | '?' :: '<' :: rest => do
    let (name, after) ← Text.splitFirst? '>' rest
    let first ← name.head?
    let text := String.ofList name
    if !isNameStart first || !name.tail.all isNameChar || s.names.contains text then none
    let s := { s with names := text :: s.names, groups := s.groups + 1 }
    some (s.enter (some s.groups) s.flags, after)
  | '?' :: rest => do
    let (flags, anyNamed, stop, after) ← readFlags? s.flags [] rest
    if stop = ':' then some (s.enter none flags, after)
    else if !anyNamed then none
    else
      let current := { s.current with pieces := ⟨.empty, 0, true⟩ :: s.current.pieces }
      some ({ s with flags, current }, after)
  | _ =>
    let s := { s with groups := s.groups + 1 }
    some (s.enter (some s.groups) s.flags, cs)

/-- Closes the innermost group. -/
def closeGroup? (s : ReaderState) : Option ReaderState :=
  match s.outer with
  | [] => none
  | parent :: outer =>
    let piece := s.current.piece
    let pattern := match s.current.capture with
      | some index => .group index piece.pattern
      | none => piece.pattern
    some { s with
      flags := s.current.flagsOutside
      current := parent.push pattern (piece.depth + 1)
      outer }

/-- Repeats the part that was read last. A question mark behind the repetition makes it lazy. -/
def repeat? (s : ReaderState) (least : Nat) (more : Option Nat) (rest : List Char) :
    Option (ReaderState × List Char) :=
  match s.current.pieces with
  | [] => none
  | piece :: pieces =>
    if piece.isFlags then none
    else
      let (lazy, rest) := match skipVerbose s.flags rest with
        | '?' :: after => (true, after)
        | rest => (false, rest)
      let greedy := lazy == s.flags.swapGreed
      let pattern := match more with
        | none => .atLeast least greedy piece.pattern
        | some more => .between least more greedy piece.pattern
      let current := { s.current with pieces := ⟨pattern, piece.depth + 1, false⟩ :: pieces }
      some ({ s with current }, rest)

/-- Adds an atom to the sequence. -/
def pushAtom (s : ReaderState) : Atom → ReaderState
  | .literal c => s.push (.char (s.flags.fold (.single c))) 0
  | .set set => s.push (.char set) 0
  | .anchor a => s.push (.anchor a) 0

/-- The start or the end of the text or of a line, as the flags say. -/
def edge (s : ReaderState) (text line returnLine : Anchor) : ReaderState :=
  s.push (.anchor (if !s.flags.multiLine then text
    else if s.flags.returns then returnLine else line)) 0

/-- The set of the dot: all characters or all that do not end a line. -/
def dotSet (flags : Flags) : CharSet :=
  if flags.dotAll then .any
  else if flags.returns then .compl (.unions [.single '\n', .single '\r'])
  else .compl (.single '\n')

/-- Reads the pattern to its end. -/
def read? : (fuel : Nat) → ReaderState → List Char → Option ReaderState
  | 0, _, _ => none
  | fuel + 1, s, cs =>
    match skipVerbose s.flags cs with
    | [] => if s.outer.isEmpty then some s else none
    | '(' :: rest => do
      let (s, rest) ← s.openGroup? rest
      read? fuel s rest
    | ')' :: rest => do read? fuel (← s.closeGroup?) rest
    | '|' :: rest =>
      let g := s.current
      let g := { g with alternatives := sequencePiece g.pieces :: g.alternatives, pieces := [] }
      read? fuel { s with current := g } rest
    | '[' :: rest => do
      let (start, rest) ← openSet? s.flags rest
      let (set, rest) ← readSet? s.flags (rest.length + 1) start [] rest
      read? fuel (s.push (.char set) 1) rest
    | '?' :: rest => do
      let (s, rest) ← s.repeat? 0 (some 1) rest
      read? fuel s rest
    | '*' :: rest => do
      let (s, rest) ← s.repeat? 0 none rest
      read? fuel s rest
    | '+' :: rest => do
      let (s, rest) ← s.repeat? 1 none rest
      read? fuel s rest
    | '{' :: rest => do
      let ((least, more), rest) ← readCounts? rest
      let (s, rest) ← s.repeat? least more rest
      read? fuel s rest
    | '\\' :: rest => do
      let (atom, rest) ← readEscape? s.flags rest
      read? fuel (s.pushAtom atom) rest
    | '.' :: rest =>
      if s.flags.unicode then read? fuel (s.push (.char (dotSet s.flags)) 0) rest else none
    | '^' :: rest => read? fuel (s.edge .textStart .lineStart .returnLineStart) rest
    | '$' :: rest => read? fuel (s.edge .textEnd .lineEnd .returnLineEnd) rest
    | c :: rest => read? fuel (s.pushAtom (.literal c)) rest

end ReaderState

/-- The greatest depth of a pattern's tree. -/
def maxDepth : Nat := 250

/-- The greatest weight of a pattern. -/
def maxWeight : Nat := 300000

/-- A pattern that was read, with the names of its groups and their number. -/
structure Parsed where
  pattern : Pattern
  groups : Nat

/-- Reads a pattern. -/
def parse? (caseless : Bool) (cs : List Char) : Option Parsed := do
  let flags := Flags.initial caseless
  let s ← ReaderState.read? (cs.length + 1) ⟨flags, ⟨flags, none, [], []⟩, [], [], 0⟩ cs
  let piece := s.current.piece
  if maxDepth < piece.depth || maxWeight < piece.pattern.weight then none
  some ⟨piece.pattern, s.groups⟩

end Doctest.Regex
