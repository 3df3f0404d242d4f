import Doctest.Fault
import Doctest.Text.Blank
import Doctest.Text.Delimited
import Doctest.Text.Integer
import Doctest.Text.Search

/-!
# Locators

A locator names one line of a list of lines: by its number, counted from one or from the end, or by
a fragment of its text. `Locator.resolve` finds the line. A locator is written as a signed number or
as a fragment in single quotes; `Locator.text` is the written form.
-/

namespace Doctest

open Text (trimStart isDigit signed? delimited? delimit)

/-- One line, by its number or by text that it contains. -/
inductive Locator
  /-- Counted from one; a negative number counts from the last line. -/
  | number (n : Int)
  /-- The first line that contains the fragment. -/
  | fragment (text : String)
  deriving DecidableEq, Repr

namespace Locator

/-- The written form. -/
def text : Locator → String
  | .number n => toString n
  | .fragment t => String.ofList (delimit '\'' t.toList)

/-- The number of the line, counted from one. -/
def resolve (locator : Locator) (lines : Lines) : Except Fault Nat :=
  match locator with
  | .number n =>
    if 0 < n then
      if n ≤ lines.length then .ok n.toNat
      else .error (.of (LocatorCause.noSuchLine locator.text lines.length))
    else if n.natAbs ≤ lines.length then .ok (lines.length - n.natAbs + 1)
    else .error (.of (LocatorCause.noSuchLine locator.text lines.length))
  | .fragment t =>
    match lines.findIdx? fun l => Text.contains t.toList l.toList with
    | some i => .ok (i + 1)
    | none => .error (.of (LocatorCause.fragmentNotFound locator.text))

/-- What is wrong with a written locator or a list of them, and the part from where it is wrong. -/
structure Refusal where
  cause : LocatorCause
  rest : List Char

/-- The fault of an attribute whose value is refused: a note points at the place. -/
def Refusal.fault (refusal : Refusal) (key : String) (input : List Char) : Fault :=
  (Fault.of refusal.cause).withNote
    (Fault.caretNote key input (input.length - refusal.rest.length))

/-- Reads a written number behind its sign: its digits, then what follows them. -/
def readNumber (sign : List Char) (start cs : List Char) :
    Except Refusal (Locator × List Char) :=
  let digits := cs.takeWhile isDigit
  let rest := cs.dropWhile isDigit
  if digits.isEmpty then .error ⟨.missingDigits, rest⟩
  else
    match signed? 64 (sign ++ digits) with
    | none => .error ⟨.numberTooLarge, start⟩
    | some n => if n = 0 then .error ⟨.numberZero, start⟩ else .ok (.number n, rest)

/-- Reads a locator that blanks may precede, and gives what follows it. -/
def read (cs : List Char) : Except Refusal (Locator × List Char) :=
  match trimStart cs with
  | [] => .error ⟨.expectedLocator, []⟩
  | c :: rest =>
    if c = '\'' then
      match delimited? '\'' rest with
      | none => .error ⟨.unterminatedFragment, c :: rest⟩
      | some (t, after) => .ok (.fragment (String.ofList t), after)
    else if c = '-' then readNumber ['-'] (c :: rest) rest
    else if isDigit c then readNumber [] (c :: rest) (c :: rest)
    else .error ⟨.expectedLocator, c :: rest⟩

theorem length_trimStart_le (cs : List Char) : (trimStart cs).length ≤ cs.length :=
  (List.dropWhile_suffix _).length_le

theorem length_readNumber {sign start cs rest : List Char} {locator : Locator}
    (h : readNumber sign start cs = .ok (locator, rest)) : rest.length ≤ cs.length := by
  have hle : (cs.dropWhile isDigit).length ≤ cs.length := (List.dropWhile_suffix _).length_le
  simp only [readNumber] at h
  split at h
  · cases h
  · split at h
    · cases h
    · split at h
      · cases h
      · cases h
        exact hle

theorem length_read {cs rest : List Char} {locator : Locator}
    (h : read cs = .ok (locator, rest)) : rest.length ≤ cs.length := by
  have hle := length_trimStart_le cs
  simp only [read] at h
  split at h
  · cases h
  · next c tail heq =>
    rw [heq, List.length_cons] at hle
    split at h
    · split at h
      · cases h
      · next hd =>
        cases h
        have := Text.length_delimited? hd
        omega
    · split at h
      · have := length_readNumber h
        omega
      · split at h
        · have := length_readNumber h
          simp only [List.length_cons] at this
          omega
        · cases h

end Locator

end Doctest
