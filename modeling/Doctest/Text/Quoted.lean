import Doctest.Unicode.Category

/-!
# Quoted text

Messages show a piece of a document between quotes. The quote itself, the backslash and the
characters that would not be seen are escaped; characters that would join the one in front of them
count as not seen.
-/

namespace Doctest.Text

/-- The lower-case hexadecimal digits of a number. -/
def hex (n : Nat) : List Char := Nat.toDigits 16 n

/-- The written form of one character between two quotes of the kind `quote`. -/
def escapeChar (quote c : Char) : List Char :=
  if c = '\x00' then ['\\', '0']
  else if c = '\t' then ['\\', 't']
  else if c = '\r' then ['\\', 'r']
  else if c = '\n' then ['\\', 'n']
  else if c = quote || c = '\\' then ['\\', c]
  else if Unicode.isGraphemeExtender c || !Unicode.isPrintable c then
    ['\\', 'u', '\x7b'] ++ hex c.toNat ++ ['\x7d']
  else [c]

/-- Text in double quotes. -/
def quoteText (text : String) : String :=
  String.ofList ('"' :: text.toList.flatMap (escapeChar '"') ++ ['"'])

/-- A character in single quotes. -/
def quoteChar (c : Char) : String := String.ofList ('\'' :: escapeChar '\'' c ++ ['\''])

end Doctest.Text
