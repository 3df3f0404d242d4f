import Doctest.LineSet

/-!
# Insertions

A list of conditions such as `before:1, after:'x'` says where groups of lines are inserted, one
group for each condition. All locators count in the lines as given, so inserted lines never shift
them.
-/

namespace Doctest

open Text (trimStart afterWord?)

/-- Which side of a line. -/
inductive Side
  | before | after
  deriving DecidableEq, Repr

/-- Before or after a line. -/
structure InsertionPoint where
  side : Side
  locator : Locator
  deriving DecidableEq, Repr

namespace InsertionPoint

/-- The written form. -/
def text (point : InsertionPoint) : String :=
  (match point.side with
    | .before => "before:"
    | .after => "after:") ++ point.locator.text

/-- Reads the side with its colon. -/
def readSide? (cs : List Char) : Option (Side × List Char) :=
  match afterWord? "before:".toList cs with
  | some rest => some (.before, rest)
  | none => (afterWord? "after:".toList cs).map fun rest => (.after, rest)

theorem length_readSide?_le {cs rest : List Char} {side : Side}
    (h : readSide? cs = some (side, rest)) : rest.length ≤ cs.length := by
  simp only [readSide?] at h
  split at h
  · next h' =>
    cases h
    exact LineRange.length_afterWord?_le h'
  · obtain ⟨r, h', e⟩ := Option.map_eq_some_iff.1 h
    cases e
    exact LineRange.length_afterWord?_le h'

/-- Reads one point or more up to the end of the text. -/
def readItems (cs : List Char) : Except Locator.Refusal (List InsertionPoint) :=
  match hside : readSide? (trimStart cs) with
  | none => .error ⟨.expectedCondition, trimStart cs⟩
  | some (side, afterSide) =>
    match hread : Locator.read afterSide with
    | .error refusal => .error refusal
    | .ok (locator, rest) =>
      match hrest : trimStart rest with
      | [] => .ok [⟨side, locator⟩]
      | c :: more =>
        have : more.length < cs.length := by
          have h0 := Locator.length_trimStart_le cs
          have h1 := length_readSide?_le hside
          have h2 := Locator.length_read hread
          have h3 := Locator.length_trimStart_le rest
          rw [hrest, List.length_cons] at h3
          omega
        if c = ',' then do
          let points ← readItems more
          .ok (⟨side, locator⟩ :: points)
        else .error ⟨.expectedComma, c :: more⟩
termination_by cs.length

/-- Reads the value of the attribute `key`. -/
def parseList (key : String) (text : String) : Except Fault (List InsertionPoint) :=
  match readItems text.toList with
  | .ok points => .ok points
  | .error refusal => .error (refusal.fault key text.toList)

end InsertionPoint

/-- A group of lines and the point where it is inserted. -/
structure Insertion where
  point : InsertionPoint
  group : Lines
  deriving DecidableEq, Repr

namespace Insertion

/-- Pairs points with groups in order. Their numbers have to agree. -/
def pair (points : List InsertionPoint) (groups : List Lines) : Except Fault (List Insertion) :=
  if points.length = groups.length then .ok (List.zipWith Insertion.mk points groups)
  else .error (.of (LocatorCause.groupCount points.length groups.length))

/-- The groups for one side of the line with this number, in order. -/
def groupsAt (resolved : List (Insertion × Nat)) (side : Side) (number : Nat) : Lines :=
  (resolved.filter fun (i, n) => i.point.side = side && n = number).flatMap (·.1.group)

/-- The lines with the groups at their places. -/
def apply (insertions : List Insertion) (lines : Lines) : Except Fault Lines := do
  let resolved ← insertions.mapM fun i => do
    let n ← i.point.locator.resolve lines
    return (i, n)
  return lines.zipIdx.flatMap fun (l, i) =>
    groupsAt resolved .before (i + 1) ++ l :: groupsAt resolved .after (i + 1)

end Insertion

end Doctest
