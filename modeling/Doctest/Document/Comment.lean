import Doctest.Text.Search

/-!
# Comments in a source

A comment starts with `<!--` and ends with the first `-->` behind that. Only comments that start in
a given stretch of the source are found, but they may end behind it, so stretches that are looked at
one after the other share `consumed`, the place where the last comment ended.
-/

namespace Doctest

/-- A comment: where it starts and what is between its marks. -/
structure Comment where
  start : Nat
  text : List Char
  deriving DecidableEq, Repr

namespace Comment

def opening : List Char := "<!--".toList
def closing : List Char := "-->".toList

/-- What a scan has found. -/
structure Found where
  comments : List Comment
  /-- The start of a comment that does not end. -/
  unterminated : Option Nat
  consumed : Nat
  deriving DecidableEq, Repr

/-- Finds the comments that start between `offset` and `stop`. -/
def scanFrom (source : List Char) (consumed stop offset : Nat) : Found :=
  if h : offset < stop then
    match Text.find? opening ((source.drop offset).take (stop - offset)) with
    | none => ⟨[], none, consumed⟩
    | some before =>
      let textStart := offset + before + opening.length
      let rest := source.drop textStart
      match Text.find? closing rest with
      | none => ⟨[], some (offset + before), source.length⟩
      | some length =>
        let next := textStart + length + closing.length
        have : stop - next < stop - offset := by
          have : opening.length = 4 := by decide
          omega
        let found := scanFrom source next stop next
        { found with comments := ⟨offset + before, rest.take length⟩ :: found.comments }
  else ⟨[], none, consumed⟩
termination_by stop - offset

/-- Finds the comments that start between `start` and `stop` and behind what was consumed. -/
def scan (source : List Char) (consumed start stop : Nat) : Found :=
  scanFrom source consumed (min stop source.length) (max start consumed)

end Comment

end Doctest
