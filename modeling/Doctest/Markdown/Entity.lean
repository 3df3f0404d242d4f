import Doctest.Markdown.EntityTable
import Doctest.Markdown.Line
import Doctest.Text.Integer
import Doctest.Text.Search

/-!
# Character references and escapes

`&name;` and `&#number;` stand for characters. A backslash in front of ASCII punctuation makes it
plain text.
-/

namespace Doctest.Markdown

open Text (splitAll hexNumber?)

/-- The characters written as hexadecimal numbers with plus signs between them. -/
def readCodes (codes : List Char) : List Char :=
  (splitAll '+' codes).filterMap Text.hexChar?

/-- The characters of a name in a list of names with their characters. -/
def lookupEntity (name : List Char) : List (List Char) → Option (List Char)
  | n :: codes :: rest => if n = name then some (readCodes codes) else lookupEntity name rest
  | _ => none

/-- The characters that a name stands for. -/
def entity? (name : List Char) : Option (List Char) :=
  entityLines.findSome? fun l => lookupEntity name (splitAll ' ' l.toList)

/-- The character with a number; zero stands for the replacement character. -/
def numbered? (n : Nat) : Option Char := Text.charOfCode? (if n = 0 then 0xFFFD else n)

/-- The characters of a reference behind its ampersand, and what follows it. -/
def reference? (cs : List Char) : Option (List Char × List Char) :=
  match cs with
  | '#' :: x :: more =>
    let isHex := x = 'x' || x = 'X'
    let digits := if isHex then (more.takeWhile fun c => (Text.hexValue? c).isSome).take 6
      else ((x :: more).takeWhile Text.isDigit).take 7
    let rest := (if isHex then more else x :: more).drop digits.length
    let n? := if isHex then hexNumber? digits else Text.digits? digits
    match rest, n?.bind numbered? with
    | ';' :: rest, some c => some ([c], rest)
    | _, _ => none
  | _ =>
    match cs.dropWhile Char.isAlphanum with
    | ';' :: rest => (entity? (cs.takeWhile Char.isAlphanum)).map (·, rest)
    | _ => none

theorem length_reference?_le {cs value rest : List Char} (h : reference? cs = some (value, rest)) :
    rest.length ≤ cs.length := by
  simp only [reference?] at h
  split at h
  · next x more =>
    split at h
    · next hrest _ =>
      simp only [Option.some.injEq, Prod.mk.injEq] at h
      obtain ⟨-, rfl⟩ := h
      have := congrArg List.length hrest
      simp only [List.length_drop, List.length_cons] at this ⊢
      split at this <;> simp at this <;> omega
    · cases h
  · split at h
    · next hrest =>
      simp only [Option.map_eq_some_iff, Prod.mk.injEq] at h
      obtain ⟨_, _, _, rfl⟩ := h
      have := (List.dropWhile_suffix Char.isAlphanum (l := cs)).length_le
      rw [hrest] at this
      simp at this
      omega
    · cases h

/-- Text with its references and escapes resolved. Carriage returns are left out. -/
def unescape : List Char → List Char
  | [] => []
  | c :: cs =>
    if c = '\\' then
      match cs with
      | [] => ['\\']
      | d :: ds =>
        if isAsciiPunctuation d then d :: unescape ds else '\\' :: unescape (d :: ds)
    else if c = '&' then
      match h : reference? cs with
      | some (value, rest) =>
        have := length_reference?_le h
        value ++ unescape rest
      | none => '&' :: unescape cs
    else if c = '\r' then unescape cs
    else c :: unescape cs
termination_by cs => cs.length

end Doctest.Markdown
