import Doctest.Unicode.CategoryTable

/-!
# General categories

Every code point has one of thirty general categories. `categoryOf` looks it up in the decoded
table; the character classes that the library needs are unions of categories with a few code
points added by name.
-/

namespace Doctest.Unicode

/-- The general categories, by their two-letter names. -/
inductive Category
  | lu | ll | lt | lm | lo
  | mn | mc | me
  | nd | nl | no
  | pc | pd | ps | pe | pi | pf | po
  | sm | sc | sk | so
  | zs | zl | zp
  | cc | cf | cs | co | cn
  deriving DecidableEq, Repr, Inhabited

/-- The category with this two-letter name. -/
def Category.ofLetters? : Char → Char → Option Category
  | 'L', 'u' => some .lu | 'L', 'l' => some .ll | 'L', 't' => some .lt | 'L', 'm' => some .lm
  | 'L', 'o' => some .lo | 'M', 'n' => some .mn | 'M', 'c' => some .mc | 'M', 'e' => some .me
  | 'N', 'd' => some .nd | 'N', 'l' => some .nl | 'N', 'o' => some .no | 'P', 'c' => some .pc
  | 'P', 'd' => some .pd | 'P', 's' => some .ps | 'P', 'e' => some .pe | 'P', 'i' => some .pi
  | 'P', 'f' => some .pf | 'P', 'o' => some .po | 'S', 'm' => some .sm | 'S', 'c' => some .sc
  | 'S', 'k' => some .sk | 'S', 'o' => some .so | 'Z', 's' => some .zs | 'Z', 'l' => some .zl
  | 'Z', 'p' => some .zp | 'C', 'c' => some .cc | 'C', 'f' => some .cf | 'C', 's' => some .cs
  | 'C', 'o' => some .co | 'C', 'n' => some .cn | _, _ => none

/-- The first letter of the category's name: the group that it belongs to. -/
def Category.group : Category → Char
  | .lu | .ll | .lt | .lm | .lo => 'L'
  | .mn | .mc | .me => 'M'
  | .nd | .nl | .no => 'N'
  | .pc | .pd | .ps | .pe | .pi | .pf | .po => 'P'
  | .sm | .sc | .sk | .so => 'S'
  | .zs | .zl | .zp => 'Z'
  | .cc | .cf | .cs | .co | .cn => 'C'

/-- Code points from `first` up to the next run's start share a category. -/
structure CategoryRun where
  first : Nat
  category : Category
  deriving Inhabited

/-- Reads runs from text: `count` holds the digits read so far, `first` the next code point. -/
def decodeRuns : (first count : Nat) → List Char → List CategoryRun
  | first, count, c :: d :: cs =>
    if '0' ≤ c && c ≤ '9' then
      decodeRuns first (10 * count + (c.toNat - '0'.toNat)) (d :: cs)
    else
      match Category.ofLetters? c d with
      | some k => ⟨first, k⟩ :: decodeRuns (first + max count 1) 0 cs
      | none => []
  | _, _, _ => []

/-- The runs over all code points. -/
def runTable : Array CategoryRun :=
  (decodeRuns 0 0 (categoryRuns.flatMap String.toList)).toArray

/-- The last run that starts at or before `n`, looked for between `lo` and `hi`. -/
def findRun (n : Nat) : (fuel lo hi : Nat) → Category
  | 0, lo, _ => (runTable[lo]?.map (·.category)).getD .cn
  | fuel + 1, lo, hi =>
    if lo + 1 < hi then
      let mid := (lo + hi) / 2
      match runTable[mid]? with
      | some r => if r.first ≤ n then findRun n fuel mid hi else findRun n fuel lo mid
      | none => findRun n fuel lo mid
    else (runTable[lo]?.map (·.category)).getD .cn

/-- The general category of a character. -/
def categoryOf (c : Char) : Category := findRun c.toNat runTable.size 0 runTable.size

/-- Punctuation and symbols. -/
def isPunctuation (c : Char) : Bool :=
  let g := (categoryOf c).group
  g == 'P' || g == 'S'

/-- Decimal digits of any script. -/
def isDecimalNumber (c : Char) : Bool := categoryOf c == .nd

/-- Letters that are symbols by category: the circled and squared Latin ones. -/
def isLetterSymbol (c : Char) : Bool :=
  let n := c.toNat
  (0x24B6 ≤ n && n ≤ 0x24E9) || (0x1F130 ≤ n && n ≤ 0x1F149) || (0x1F150 ≤ n && n ≤ 0x1F169) ||
    (0x1F170 ≤ n && n ≤ 0x1F189)

/-- Word characters: alphabetic characters, marks, decimal digits, connector punctuation and the
two joiners. -/
def isWordChar (c : Char) : Bool :=
  let k := categoryOf c
  k.group == 'L' || k.group == 'M' || k == .nl || k == .nd || k == .pc || isLetterSymbol c ||
    c.toNat == 0x200C || c.toNat == 0x200D

/-- Spacing marks and other characters that extend a grapheme although they are not nonspacing. -/
def otherExtenders : List (Nat × Nat) := [
  (0x09BE, 0x09BE), (0x09D7, 0x09D7), (0x0B3E, 0x0B3E), (0x0B57, 0x0B57), (0x0BBE, 0x0BBE),
  (0x0BD7, 0x0BD7), (0x0CC0, 0x0CC0), (0x0CC2, 0x0CC2), (0x0CC7, 0x0CC8), (0x0CCA, 0x0CCB),
  (0x0CD5, 0x0CD6), (0x0D3E, 0x0D3E), (0x0D57, 0x0D57), (0x0DCF, 0x0DCF), (0x0DDF, 0x0DDF),
  (0x1715, 0x1715), (0x1734, 0x1734), (0x1B35, 0x1B35), (0x1B3B, 0x1B3B), (0x1B3D, 0x1B3D),
  (0x1B43, 0x1B44), (0x1BAA, 0x1BAA), (0x1BF2, 0x1BF3), (0x200C, 0x200C), (0x302E, 0x302F),
  (0xA953, 0xA953), (0xA9C0, 0xA9C0), (0xFF9E, 0xFF9F), (0x111C0, 0x111C0), (0x11235, 0x11235),
  (0x1133E, 0x1133E), (0x1134D, 0x1134D), (0x11357, 0x11357), (0x114B0, 0x114B0),
  (0x114BD, 0x114BD), (0x115AF, 0x115AF), (0x116B6, 0x116B6), (0x11930, 0x11930),
  (0x1193D, 0x1193D), (0x11F41, 0x11F41), (0x1D165, 0x1D166), (0x1D16D, 0x1D172),
  (0xE0020, 0xE007F)]

/-- Characters that join the grapheme in front of them. -/
def isGraphemeExtender (c : Char) : Bool :=
  let k := categoryOf c
  k == .mn || k == .me || otherExtenders.any fun (a, b) => a ≤ c.toNat && c.toNat ≤ b

/-- Characters that leave a mark when printed, and the space. -/
def isPrintable (c : Char) : Bool :=
  c == ' ' ||
    match categoryOf c with
    | .cc | .cf | .cs | .co | .cn | .zl | .zp | .zs => false
    | _ => true

end Doctest.Unicode
