import Doctest.Locator

/-!
# Sets of lines

A set of lines is written as a list of locators and of ranges `first..last`, with commas between
them. `LineSet.resolve` gives the numbers of the lines in ascending order; a locator that names no
line, or a range whose ends are in the wrong order, is a fault.
-/

namespace Doctest

open Text (trimStart afterWord?)

/-- One line or all lines between two, both included. -/
inductive LineRange
  | single (locator : Locator)
  | span (first last : Locator)
  deriving DecidableEq, Repr

namespace LineRange

/-- The written form. -/
def text : LineRange → String
  | .single locator => locator.text
  | .span first last => first.text ++ ".." ++ last.text

/-- The numbers of the lines, in ascending order. -/
def resolve (range : LineRange) (lines : Lines) : Except Fault (List Nat) :=
  match range with
  | .single locator => do
    let n ← locator.resolve lines
    return [n]
  | .span first last => do
    let a ← first.resolve lines
    let b ← last.resolve lines
    if b < a then throw (.of (LocatorCause.reversedRange range.text a b))
    return List.range' a (b + 1 - a)

/-- Reads a locator or a range, and gives what follows it. -/
def read (cs : List Char) : Except Locator.Refusal (LineRange × List Char) :=
  match Locator.read cs with
  | .error refusal => .error refusal
  | .ok (first, rest) =>
    match afterWord? ['.', '.'] (trimStart rest) with
    | none => .ok (.single first, rest)
    | some more =>
      match Locator.read more with
      | .error refusal => .error refusal
      | .ok (last, rest) => .ok (.span first last, rest)

theorem length_afterWord?_le {word cs rest : List Char} (h : afterWord? word cs = some rest) :
    rest.length ≤ cs.length := by
  simp only [afterWord?] at h
  split at h
  · cases h
    simp
  · cases h

theorem length_read {cs rest : List Char} {range : LineRange}
    (h : read cs = .ok (range, rest)) : rest.length ≤ cs.length := by
  simp only [read] at h
  split at h
  · cases h
  · next first mid hfirst =>
    have h1 := Locator.length_read hfirst
    have h2 := Locator.length_trimStart_le mid
    split at h
    · cases h
      exact h1
    · next more hmore =>
      have h3 := length_afterWord?_le hmore
      split at h
      · cases h
      · next last tail hlast =>
        cases h
        have := Locator.length_read hlast
        omega

end LineRange

/-- A list of lines and line ranges. -/
abbrev LineSet := List LineRange

namespace LineSet

/-- The written form. -/
def text (set : LineSet) : String := ", ".intercalate (set.map LineRange.text)

/-- The numbers of the lines in ascending order, each once. -/
def resolve (set : LineSet) (lines : Lines) : Except Fault (List Nat) := do
  let numbers ← set.mapM (·.resolve lines)
  return (numbers.flatten.mergeSort).eraseReps

theorem length_behind_range {cs rest more : List Char} {range : LineRange} {c : Char}
    (hread : LineRange.read cs = .ok (range, rest)) (hrest : trimStart rest = c :: more) :
    more.length < cs.length := by
  have h1 := LineRange.length_read hread
  have h2 := Locator.length_trimStart_le rest
  rw [hrest, List.length_cons] at h2
  omega

/-- Reads one range or more up to the end of the text. -/
def readItems (cs : List Char) : Except Locator.Refusal LineSet :=
  match hread : LineRange.read cs with
  | .error refusal => .error refusal
  | .ok (range, rest) =>
    match hrest : trimStart rest with
    | [] => .ok [range]
    | c :: more =>
      have : more.length < cs.length := length_behind_range hread hrest
      if c = ',' then do
        let ranges ← readItems more
        .ok (range :: ranges)
      else .error ⟨.expectedCommaOrRange, c :: more⟩
termination_by cs.length

/-- Reads the value of the attribute `key`. Blank text is the empty set. -/
def parse (key : String) (text : String) : Except Fault LineSet :=
  let input := text.toList
  if (trimStart input).isEmpty then .ok []
  else
    match readItems input with
    | .ok set => .ok set
    | .error refusal => .error (refusal.fault key input)

end LineSet

end Doctest
