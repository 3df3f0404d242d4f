import Doctest.Text.Integer
import Doctest.Text.Search

/-!
# Tokens of a YAML text

Cuts a YAML text into tokens, with the tokens that indentation stands for made explicit. A plain
mapping key has no mark in front of it: where a token may turn out to be a key its position is
remembered, and the key token is put there when the colon is found.

`Token.scan` goes as far as the text allows. If the text breaks a rule at some place, the tokens
that were settled before that place are the result, and the result is marked as broken.
-/

namespace Doctest.Yaml

inductive Token
  | documentStart
  | documentEnd
  | blockSequenceStart
  | blockMappingStart
  | blockEnd
  | flowSequenceStart
  | flowSequenceEnd
  | flowMappingStart
  | flowMappingEnd
  | blockEntry
  | flowEntry
  | key
  | value
  | directive
  | alias (name : String)
  | anchor (name : String)
  | tag (text : String)
  | scalar (plain : Bool) (text : String)
  | streamEnd
  deriving DecidableEq, Repr, Inhabited

/-- The tokens of a text, and whether the text breaks a rule behind them. -/
structure TokenStream where
  tokens : List Token
  broken : Bool
  deriving Repr

namespace Scan

/-- Line ends. -/
def isBreak (c : Char) : Bool :=
  c == '\n' || c == '\r' || c == '\u0085' || c == '\u2028' || c == '\u2029'

def isBlank (c : Char) : Bool := c == ' ' || c == '\t'

/-- Whether a blank, a line end or the end of the text comes next. -/
def blankNext : List Char → Bool
  | [] => true
  | c :: _ => isBlank c || isBreak c

/-- Whether a line end or the end of the text comes next. -/
def breakNext : List Char → Bool
  | [] => true
  | c :: _ => isBreak c

/-- Characters that may stand in a YAML text. -/
def isAllowed (c : Char) : Bool :=
  let n := c.toNat
  n == 0x09 || n == 0x0A || n == 0x0D || (0x20 ≤ n && n ≤ 0x7E) || n == 0x85 ||
    (0xA0 ≤ n && n ≤ 0xD7FF) || (0xE000 ≤ n && n ≤ 0xFFFD) || 0x10000 ≤ n

/-- A token that may turn out to be a key: where it starts, and whether a colon has to follow. -/
structure PossibleKey where
  required : Bool
  tokenNumber : Nat
  index : Nat
  line : Nat
  column : Nat

/-- Where a scan stands. `keys` holds what may be a key on each level of brackets, the innermost
first; `indents` the columns of the open blocks, with `indent` the innermost. -/
structure State where
  rest : List Char
  index : Nat
  line : Nat
  column : Nat
  level : Nat
  indent : Int
  indents : List Int
  keyAllowed : Bool
  keys : List (Option PossibleKey)
  tokens : Array Token

def State.initial (text : List Char) : State := ⟨text, 0, 0, 0, 0, -1, [], true, [none], #[]⟩

namespace State

/-- Passes over one character of the line. -/
def skip (s : State) : State :=
  { s with rest := s.rest.tail, index := s.index + 1, column := s.column + 1 }

/-- Passes over `n` characters of the line. -/
def skipMany (s : State) (n : Nat) : State :=
  { s with rest := s.rest.drop n, index := s.index + n, column := s.column + n }

/-- Passes over a line end. -/
def skipLine (s : State) : State :=
  match s.rest with
  | '\r' :: '\n' :: rest =>
    { s with rest, index := s.index + 2, line := s.line + 1, column := 0 }
  | _ :: rest => { s with rest, index := s.index + 1, line := s.line + 1, column := 0 }
  | [] => s

def push (s : State) (t : Token) : State := { s with tokens := s.tokens.push t }

/-- Gives up what may be a key on the innermost level. -/
def dropKey? (s : State) : Option State :=
  match s.keys with
  | some k :: keys => if k.required then none else some { s with keys := none :: keys }
  | _ => some s

/-- Remembers that the next token may be a key. -/
def saveKey? (s : State) : Option State :=
  if s.keyAllowed then
    s.dropKey?.map fun s =>
      let required := s.level == 0 && s.indent == (s.column : Int)
      { s with keys := some ⟨required, s.tokens.size, s.index, s.line, s.column⟩ :: s.keys.tail }
  else some s

/-- A key has to be on one line and shorter than 1024 characters. -/
def dropStaleKeys? (s : State) : Option State := do
  let keys ← s.keys.mapM fun k? =>
    match k? with
    | none => some none
    | some k =>
      if k.line < s.line || k.index + 1024 < s.index then
        (if k.required then none else some none)
      else some (some k)
  some { s with keys }

/-- Opens a block at a column further in, with its token at the place `number`. -/
def rollIndent (s : State) (column : Nat) (number : Nat) (t : Token) : State :=
  if s.level == 0 && s.indent < (column : Int) then
    { s with
      indents := s.indent :: s.indents
      indent := column
      tokens := s.tokens.insertIdxIfInBounds number t }
  else s

/-- Closes the blocks further in than a column. -/
def unrollIndent (s : State) (column : Int) : State :=
  if s.level == 0 then go s s.indents else s
where
  go (s : State) : List Int → State
    | [] => s
    | outer :: indents =>
      if column < s.indent then go { s.push .blockEnd with indent := outer, indents } indents
      else s

/-- Passes over blanks, comments, line ends and the byte order marks that start lines, up to the next
token. -/
def skipToToken : (fuel : Nat) → State → State
  | 0, s => s
  | fuel + 1, s =>
    match s.rest with
    | [] => s
    | c :: rest =>
      if c == ' ' || (c == '\t' && (0 < s.level || !s.keyAllowed)) ||
          (c == '\ufeff' && s.column == 0) then skipToToken fuel s.skip
      else if c == '#' then
        let comment := (c :: rest).takeWhile (!isBreak ·)
        skipToToken fuel (s.skipMany comment.length)
      else if isBreak c then
        let s := s.skipLine
        skipToToken fuel (if s.level == 0 then { s with keyAllowed := true } else s)
      else s

end State

/-- White space between the parts of a scalar: blanks on one line, or line ends. -/
structure Gap where
  blanks : List Char
  /-- The first line end, if one was passed. -/
  firstBreak : List Char
  moreBreaks : List Char
  hasBreak : Bool

def Gap.empty : Gap := ⟨[], [], [], false⟩

/-- The line end as it is kept in a scalar. -/
def keptBreak (c : Char) : Char := if c == '\u2028' || c == '\u2029' then c else '\n'

/-- What a gap stands for: one line end becomes a space, further ones are kept. -/
def Gap.text (g : Gap) : List Char :=
  if g.hasBreak then
    (if g.firstBreak == ['\n'] then (if g.moreBreaks.isEmpty then [' '] else g.moreBreaks)
      else g.firstBreak ++ g.moreBreaks)
  else g.blanks

/-- Reads blanks and line ends. A tab in front of the column `limit` of a later line is refused. -/
def readGap? (limit : Option Int) : (fuel : Nat) → State → Gap → Option (State × Gap)
  | 0, _, _ => none
  | fuel + 1, s, g =>
    match s.rest with
    | [] => some (s, g)
    | c :: _ =>
      if isBlank c then
        if c == '\t' && g.hasBreak && limit.any fun l => (s.column : Int) < l then none
        else if g.hasBreak then readGap? limit fuel s.skip g
        else readGap? limit fuel s.skip { g with blanks := g.blanks ++ [c] }
      else if isBreak c then
        if g.hasBreak then
          readGap? limit fuel s.skipLine { g with moreBreaks := g.moreBreaks ++ [keptBreak c] }
        else
          readGap? limit fuel s.skipLine
            { g with blanks := [], firstBreak := [keptBreak c], hasBreak := true }
      else some (s, g)

/-- Whether a line starts with a document marker. -/
def atDocumentMark (s : State) : Bool :=
  s.column == 0 && (['-', '-', '-'].isPrefixOf s.rest || ['.', '.', '.'].isPrefixOf s.rest) &&
    blankNext (s.rest.drop 3)

def isFlowMark (c : Char) : Bool := c == ',' || c == '[' || c == ']' || c == '{' || c == '}'

/-- Reads the characters of a plain scalar up to white space or an indicator that ends it. -/
def readPlainRun? : (fuel : Nat) → State → (acc : List Char) → Option (State × List Char)
  | 0, _, _ => none
  | fuel + 1, s, acc =>
    match s.rest with
    | [] => some (s, acc)
    | c :: rest =>
      if isBlank c || isBreak c then some (s, acc)
      else if 0 < s.level && c == ':' && rest.head?.any (fun d => isFlowMark d || d == '?') then
        none
      else if (c == ':' && blankNext rest) || (0 < s.level && isFlowMark c) then some (s, acc)
      else readPlainRun? fuel s.skip (acc ++ [c])

/-- Reads a plain scalar. `gap` is the white space behind the text `acc` read so far. -/
def readPlain? : (fuel : Nat) → State → (acc : List Char) → Gap → Option (State × List Char × Bool)
  | 0, _, _, _ => none
  | fuel + 1, s, acc, gap =>
    if atDocumentMark s || s.rest.head? == some '#' then some (s, acc, gap.hasBreak)
    else do
      let (s', run) ← readPlainRun? (s.rest.length + 1) s []
      let acc' := if run.isEmpty then acc else acc ++ gap.text ++ run
      let gap := if run.isEmpty then gap else .empty
      if !(s'.rest.head?.any fun c => isBlank c || isBreak c) then
        some (s', acc', gap.hasBreak)
      else
        let (s'', gap) ← readGap? (some (s.indent + 1)) (s'.rest.length + 1) s' gap
        if s''.level == 0 && (s''.column : Int) < s''.indent + 1 then
          some (s'', acc', gap.hasBreak)
        else readPlain? fuel s'' acc' gap

/-- The character that a one-letter escape stands for. -/
def escape? (c : Char) : Option Char :=
  match c with
  | '0' => some '\x00'
  | 'a' => some '\x07'
  | 'b' => some '\x08'
  | 't' | '\t' => some '\t'
  | 'n' => some '\n'
  | 'v' => some '\x0b'
  | 'f' => some '\x0c'
  | 'r' => some '\r'
  | 'e' => some '\x1b'
  | ' ' => some ' '
  | '"' => some '"'
  | '/' => some '/'
  | '\\' => some '\\'
  | 'N' => some '\u0085'
  | '_' => some '\u00a0'
  | 'L' => some '\u2028'
  | 'P' => some '\u2029'
  | _ => none

/-- The number of digits of an escape that gives a code. -/
def escapeDigits? (c : Char) : Option Nat :=
  match c with
  | 'x' => some 2
  | 'u' => some 4
  | 'U' => some 8
  | _ => none

/-- Reads the characters of a quoted scalar up to white space or the closing quote. The last
component says whether an escaped line end stopped the run. -/
def readQuotedRun? (single : Bool) : (fuel : Nat) → State → (acc : List Char) →
    Option (State × List Char × Bool)
  | 0, _, _ => none
  | fuel + 1, s, acc =>
    match s.rest with
    | [] => some (s, acc, false)
    | c :: rest =>
      if isBlank c || isBreak c then some (s, acc, false)
      else if single then
        if c == '\'' then
          if rest.head? == some '\'' then readQuotedRun? single fuel (s.skipMany 2) (acc ++ ['\''])
          else some (s, acc, false)
        else readQuotedRun? single fuel s.skip (acc ++ [c])
      else if c == '"' then some (s, acc, false)
      else if c == '\\' then
        match rest with
        | [] => none
        | d :: more =>
          if isBreak d then some (s.skip.skipLine, acc, true)
          else
            match escapeDigits? d with
            | some n =>
              if more.length < n then none
              else do
                let e ← Text.hexChar? (more.take n)
                readQuotedRun? single fuel (s.skipMany (2 + n)) (acc ++ [e])
            | none => do
              let e ← escape? d
              readQuotedRun? single fuel (s.skipMany 2) (acc ++ [e])
      else readQuotedRun? single fuel s.skip (acc ++ [c])

/-- Reads a quoted scalar behind its opening quote, up to and with the closing one. -/
def readQuoted? (single : Bool) : (fuel : Nat) → State → (acc : List Char) →
    Option (State × List Char)
  | 0, _, _ => none
  | fuel + 1, s, acc =>
    if atDocumentMark s || s.rest.isEmpty then none
    else do
      let (s, run, escapedBreak) ← readQuotedRun? single (s.rest.length + 1) s []
      let acc := acc ++ run
      if s.rest.head? == some (if single then '\'' else '"') then some (s.skip, acc)
      else
        let (s, gap) ← readGap? none (s.rest.length + 1) s
          { Gap.empty with hasBreak := escapedBreak }
        readQuoted? single fuel s (acc ++ gap.text)

/-- Reads the indentation and the empty lines in front of a line of a block scalar; `indent` zero
means that it is not known yet. The last component is the greatest column seen. -/
def readBlockBreaks? (indent : Nat) : (fuel : Nat) → State → (breaks : List Char) →
    (deepest : Nat) → Option (State × List Char × Nat)
  | 0, _, _, _ => none
  | fuel + 1, s, breaks, deepest =>
    let spaces := (s.rest.takeWhile (· == ' ')).length
    let n := if indent == 0 then spaces else min spaces (indent - s.column)
    let s := s.skipMany n
    let deepest := max deepest s.column
    if (indent == 0 || s.column < indent) && s.rest.head? == some '\t' then none
    else
      match s.rest with
      | c :: _ =>
        if isBreak c then readBlockBreaks? indent fuel s.skipLine (breaks ++ [keptBreak c]) deepest
        else some (s, breaks, deepest)
      | [] => some (s, breaks, deepest)

/-- Reads the lines of a block scalar. `first` is the line end of the line before, `breaks` the
empty lines after it, `blank` says whether that line started with a blank. -/
def readBlockLines? (literal : Bool) (indent : Nat) : (fuel : Nat) → State →
    (acc first breaks : List Char) → (blank : Bool) →
    Option (State × List Char × List Char × List Char)
  | 0, _, _, _, _, _ => none
  | fuel + 1, s, acc, first, breaks, blank =>
    if s.column != indent || s.rest.isEmpty then some (s, acc, first, breaks)
    else do
      let blankHere := s.rest.head?.any isBlank
      let joined :=
        if !literal && first.head? == some '\n' && !blank && !blankHere then
          (if breaks.isEmpty then [' '] else [])
        else first
      let line := s.rest.takeWhile (!isBreak ·)
      let s := s.skipMany line.length
      let next := (s.rest.head?.map fun c => [keptBreak c]).getD []
      let s := s.skipLine
      let (s, more, _) ← readBlockBreaks? indent (s.rest.length + 1) s [] 0
      readBlockLines? literal indent fuel s (acc ++ joined ++ breaks ++ line) next more blankHere

/-- Reads a block scalar behind its indicator. -/
def readBlock? (literal : Bool) (s : State) : Option (State × List Char) := do
  let chomp? (c : Char) : Option Int :=
    if c == '+' then some 1 else if c == '-' then some (-1) else none
  let digit? (c : Char) : Option Nat :=
    if '1' ≤ c && c ≤ '9' then some (c.toNat - '0'.toNat) else none
  let (s, chomping, increment) ←
    match s.rest with
    | c :: rest =>
      match chomp? c with
      | some k =>
        match rest.head?.bind digit? with
        | some n => some (s.skipMany 2, k, n)
        | none => if rest.head? == some '0' then none else some (s.skip, k, 0)
      | none =>
        match digit? c with
        | some n =>
          match rest.head?.bind chomp? with
          | some k => some (s.skipMany 2, k, n)
          | none => some (s.skip, 0, n)
        | none => if c == '0' then none else some (s, 0, 0)
    | [] => some (s, 0, 0)
  let s := s.skipMany (s.rest.takeWhile isBlank).length
  let s := if s.rest.head? == some '#' then
    s.skipMany (s.rest.takeWhile (!isBreak ·)).length else s
  if !breakNext s.rest then none
  let s := s.skipLine
  let known := if increment == 0 then 0
    else if 0 ≤ s.indent then s.indent.toNat + increment else increment
  let (s, breaks, deepest) ← readBlockBreaks? known (s.rest.length + 1) s [] 0
  let indent := if known == 0 then max (max deepest (s.indent + 1).toNat) 1 else known
  let (s, text, first, breaks) ←
    readBlockLines? literal indent (s.rest.length + 1) s [] [] breaks false
  let text := if chomping == -1 then text else text ++ first
  some (s, if chomping == 1 then text ++ breaks else text)

def isNameChar (c : Char) : Bool := c.isAlphanum || c == '_' || c == '-'

/-- Reads the name of an anchor or an alias behind its indicator. -/
def readName? (s : State) : Option (State × String) :=
  let name := s.rest.takeWhile isNameChar
  let s := s.skipMany name.length
  if name.isEmpty then none
  else if blankNext s.rest || s.rest.head?.any fun c => "?:,]\x7d%@\x60".toList.contains c then
    some (s, String.ofList name)
  else none

/-- Reads a tag. -/
def readTag? (s : State) : Option (State × String) :=
  let text := s.rest.takeWhile fun c =>
    !isBlank c && !isBreak c && !(0 < s.level && isFlowMark c)
  let s := s.skipMany text.length
  if blankNext s.rest || (0 < s.level && s.rest.head? == some ',') then
    some (s, String.ofList text)
  else none

/-- Whether the line is a directive that can be followed: a version of YAML that is known, or any
shorthand for tags. -/
def isDirective (line : List Char) : Bool :=
  let name := (line.drop 1).takeWhile isNameChar
  let rest := line.drop (name.length + 1)
  if !blankNext rest then false
  else if name == "YAML".toList then
    let value := rest.dropWhile isBlank
    let rest := (value.drop 3).dropWhile isBlank
    (value.take 3 == "1.1".toList || value.take 3 == "1.2".toList) &&
      (rest.isEmpty || rest.head? == some '#')
  else name == "TAG".toList

/-- Marks the next token as a value: what may be a key in front of it is one. -/
def fetchValue? (s : State) : Option State :=
  match s.keys with
  | some k :: keys =>
    let s := { s with tokens := s.tokens.insertIdxIfInBounds k.tokenNumber .key }
    let s := s.rollIndent k.column k.tokenNumber .blockMappingStart
    some ({ s with keys := none :: keys, keyAllowed := false }.push .value).skip
  | _ =>
    if s.level == 0 then
      if !s.keyAllowed then none
      else
        let s := s.rollIndent s.column s.tokens.size .blockMappingStart
        some ({ s with keyAllowed := true }.push .value).skip
    else some ({ s with keyAllowed := false }.push .value).skip

/-- Characters that no plain scalar starts with. -/
def isIndicator (c : Char) : Bool := "-?:,[]\x7b\x7d#&*!|>'\"%@\x60".toList.contains c

/-- Opens a bracket. -/
def openFlow? (s : State) (t : Token) : Option State :=
  s.saveKey?.map fun s =>
    ({ s with level := s.level + 1, keys := none :: s.keys, keyAllowed := true }.push t).skip

/-- Closes a bracket. -/
def closeFlow? (s : State) (t : Token) : Option State :=
  s.dropKey?.map fun s =>
    let keys := if s.level == 0 then s.keys else s.keys.tail
    ({ s with level := s.level - 1, keys, keyAllowed := false }.push t).skip

/-- Takes one token off the text; the last component says whether it was the last one. -/
def fetch? (s : State) : Option (State × Bool) := do
  let s := s.skipToToken (2 * s.rest.length + 1)
  let s ← s.dropStaleKeys?
  let s := s.unrollIndent s.column
  match s.rest with
  | [] =>
    let s := s.unrollIndent (-1)
    let s ← s.dropKey?
    some (s.push .streamEnd, true)
  | c :: rest =>
    let more (s? : Option State) : Option (State × Bool) := s?.map fun s => (s, false)
    let endOfBlocks? : Option State := do
      let s := s.unrollIndent (-1)
      let s ← s.dropKey?
      some { s with keyAllowed := false }
    if s.column == 0 && c == '%' then more do
      let s ← endOfBlocks?
      let line := s.rest.takeWhile (!isBreak ·)
      if isDirective line then some ((s.skipMany line.length).push .directive) else none
    else if atDocumentMark s then more do
      let s ← endOfBlocks?
      some ((s.push (if c == '-' then .documentStart else .documentEnd)).skipMany 3)
    else if c == '[' then more (openFlow? s .flowSequenceStart)
    else if c == '{' then more (openFlow? s .flowMappingStart)
    else if c == ']' then more (closeFlow? s .flowSequenceEnd)
    else if c == '}' then more (closeFlow? s .flowMappingEnd)
    else if c == ',' then more do
      let s ← s.dropKey?
      some ({ s with keyAllowed := true }.push .flowEntry).skip
    else if c == '-' && blankNext rest then more do
      if s.level == 0 && !s.keyAllowed then none
      let s := s.rollIndent s.column s.tokens.size .blockSequenceStart
      let s ← s.dropKey?
      some ({ s with keyAllowed := true }.push .blockEntry).skip
    else if c == '?' && (0 < s.level || blankNext rest) then more do
      if s.level == 0 && !s.keyAllowed then none
      let s := s.rollIndent s.column s.tokens.size .blockMappingStart
      let s ← s.dropKey?
      some ({ s with keyAllowed := s.level == 0 }.push .key).skip
    else if c == ':' && (0 < s.level || blankNext rest) then more (fetchValue? s)
    else if c == '*' then more do
      let s ← s.saveKey?
      let (s, name) ← readName? s.skip
      some ({ s with keyAllowed := false }.push (.alias name))
    else if c == '&' then more do
      let s ← s.saveKey?
      let (s, name) ← readName? s.skip
      some ({ s with keyAllowed := false }.push (.anchor name))
    else if c == '!' then more do
      let s ← s.saveKey?
      let (s, text) ← readTag? s
      some ({ s with keyAllowed := false }.push (.tag text))
    else if (c == '|' || c == '>') && s.level == 0 then more do
      let s ← s.dropKey?
      let (s, text) ← readBlock? (c == '|') s.skip
      some ({ s with keyAllowed := true }.push (.scalar false (String.ofList text)))
    else if c == '\'' || c == '"' then more do
      let s ← s.saveKey?
      let (s, text) ← readQuoted? (c == '\'') (s.rest.length + 1) s.skip []
      some ({ s with keyAllowed := false }.push (.scalar false (String.ofList text)))
    else if (!isBlank c && !isIndicator c) || (c == '-' && !rest.head?.any isBlank) ||
        (s.level == 0 && (c == '?' || c == ':') && !blankNext rest) then more do
      let s ← s.saveKey?
      let (s, text, hasBreak) ← readPlain? (s.rest.length + 1) { s with keyAllowed := false } [] .empty
      let s := if hasBreak then { s with keyAllowed := true } else s
      some (s.push (.scalar true (String.ofList text)))
    else none

/-- Takes tokens off the text to its end. If a rule is broken, a token that may still turn out to be
a key is not settled. -/
def run : (fuel : Nat) → State → TokenStream
  | 0, s => ⟨s.tokens.toList, true⟩
  | fuel + 1, s =>
    match fetch? s with
    | some (s, true) => ⟨s.tokens.toList, false⟩
    | some (s, false) => run fuel s
    | none =>
      let settled := s.keys.foldl (fun n k? => (k?.map fun k => min n k.tokenNumber).getD n)
        s.tokens.size
      ⟨s.tokens.toList.take settled, true⟩

end Scan

/-- The tokens of a text. -/
def Token.scan (text : List Char) : TokenStream :=
  let text := if text.head? == some '\ufeff' then text.tail else text
  if text.all Scan.isAllowed then Scan.run (text.length + 2) (.initial text) else ⟨[], true⟩

end Doctest.Yaml
