import Doctest.Text.Integer

/-!
# Escapes

A backslash starts an escape in the format of `printf` and, on request, in the words of `echo`. The
two differ in how octal digits are written.
-/

namespace Doctest.Shell

/-- The character that a single letter after a backslash stands for. -/
def letterEscape? : Char → Option Char
  | 'a' => some '\x07'
  | 'b' => some '\x08'
  | 'e' | 'E' => some '\x1b'
  | 'f' => some '\x0c'
  | 'n' => some '\n'
  | 'r' => some '\r'
  | 't' => some '\t'
  | 'v' => some '\x0b'
  | '\\' => some '\\'
  | _ => none

/-- Whether the octal digits of an escape have to start with a zero of their own. -/
inductive OctalStyle
  | leadingZero
  | bare
  deriving DecidableEq, Repr

def isOctalDigit (c : Char) : Bool := '0' ≤ c && c ≤ '7'

/-- The character of a byte. Bytes that are no characters by themselves are shown by a sign. -/
def byteChar (n : Nat) : Char := if n % 256 < 128 then Char.ofNat (n % 256) else '\ufffd'

def octalValue (digits : List Char) : Nat :=
  digits.foldl (fun n c => 8 * n + (c.toNat - '0'.toNat)) 0

/-- What an escape stands for, given what follows the backslash, and the number of characters that
it takes. -/
def readEscape? (style : OctalStyle) (cs : List Char) : Option (Char × Nat) :=
  let hex (most : Nat) (rest : List Char) (make : Nat → Char) : Option (Char × Nat) :=
    let digits := (rest.take most).takeWhile fun c => (Text.hexValue? c).isSome
    (Text.hexNumber? digits).map fun n => (make n, 1 + digits.length)
  match cs with
  | [] => none
  | 'x' :: rest => hex 2 rest byteChar
  | 'u' :: rest => hex 4 rest Char.ofNat
  | 'U' :: rest => hex 8 rest Char.ofNat
  | c :: rest =>
    if style = .leadingZero && c = '0' then
      let digits := (rest.take 3).takeWhile isOctalDigit
      some (byteChar (octalValue digits), 1 + digits.length)
    else if style = .bare && isOctalDigit c then
      let digits := (cs.take 3).takeWhile isOctalDigit
      some (byteChar (octalValue digits), digits.length)
    else (letterEscape? c).map fun x => (x, 1)

/-- The text with its escapes replaced; `skip` characters are still to be passed over. The escape
`\c` ends everything: the second part says whether it occurred. -/
def unescapeFrom (style : OctalStyle) : (skip : Nat) → List Char → List Char × Bool
  | _, [] => ([], false)
  | skip + 1, _ :: cs => unescapeFrom style skip cs
  | 0, c :: cs =>
    if c = '\\' then
      if cs.head? = some 'c' then ([], true)
      else
        match readEscape? style cs with
        | some (x, count) =>
          let (rest, ended) := unescapeFrom style count cs
          (x :: rest, ended)
        | none =>
          let (rest, ended) := unescapeFrom style 0 cs
          (c :: rest, ended)
    else
      let (rest, ended) := unescapeFrom style 0 cs
      (c :: rest, ended)

def unescape (style : OctalStyle) (cs : List Char) : List Char × Bool := unescapeFrom style 0 cs

end Doctest.Shell
