/-!
# Differences of two lists

A difference is a list of edits. The elements that are kept or removed make up the old list, in order,
those that are kept or added make up the new one. It is found by division: equal elements at both
ends are kept, and what is left is cut in two where a shortest way from the old to the new list
crosses its middle. Ways are grown from both ends at once. The diagonal of a place is the number of
old elements passed minus that of new ones, and of all ways with the same number of edits only the
farthest on each diagonal is remembered.
-/

namespace Doctest

/-- A block of elements that is treated alike. -/
inductive Edit (α : Type)
  | keep (block : List α)
  | remove (block : List α)
  | add (block : List α)
  deriving DecidableEq, Repr

namespace Edit

variable {α : Type}

def block : Edit α → List α
  | .keep b | .remove b | .add b => b

/-- The part of the old list. -/
def old : Edit α → List α
  | .keep b | .remove b => b
  | .add _ => []

/-- The part of the new list. -/
def new : Edit α → List α
  | .keep b | .add b => b
  | .remove _ => []

end Edit

namespace Difference

variable {α : Type} [DecidableEq α]

/-- The elements with which both lists start. -/
def commonStart : List α → List α → List α
  | a :: as, b :: bs => if a = b then a :: commonStart as bs else []
  | _, _ => []

/-- How many old elements the farthest way has passed, for each diagonal from `-reach` on. -/
structure Frontier where
  reach : Nat
  passed : Array Nat

namespace Frontier

def initial (reach : Nat) : Frontier := ⟨reach, Array.replicate (2 * reach + 1) 0⟩

def get (f : Frontier) (diagonal : Int) : Nat := f.passed.getD (diagonal + f.reach).toNat 0

def set (f : Frontier) (diagonal : Int) (count : Nat) : Frontier :=
  { f with passed := f.passed.setIfInBounds (diagonal + f.reach).toNat count }

/-- Where the best way with `edits` edits comes to a diagonal: by a removal from the diagonal below
or by an addition from the one above, whichever has passed more; an addition on a tie. -/
def enter (f : Frontier) (edits : Nat) (diagonal : Int) : Nat :=
  if diagonal = -edits || (diagonal ≠ edits && f.get (diagonal - 1) < f.get (diagonal + 1)) then
    f.get (diagonal + 1)
  else f.get (diagonal - 1) + 1

end Frontier

/-- The diagonals that ways with `edits` edits can end on, from above. -/
def diagonals (edits : Nat) : List Int :=
  (List.range (edits + 1)).map fun (i : Nat) => (edits : Int) - 2 * i

/-- Where a way that has entered a diagonal stands after the equal elements that follow. -/
def slide (old new : List α) (diagonal : Int) (passed : Nat) : Nat :=
  passed + (commonStart (old.drop passed) (new.drop (passed - diagonal).toNat)).length

/-- Where two ways meet: the numbers of old and new elements before the place. -/
abbrev Meeting := Nat × Nat

/-- Grows the ways from the front by one edit. If the difference of the lengths is odd they may meet
ways from the back. -/
def growFront (old new : List α) (edits : Nat) (front back : Frontier) :
    Except Meeting Frontier :=
  let delta : Int := (old.length : Int) - new.length
  (diagonals edits).foldlM (fun front k =>
    let entered := front.enter edits k
    let passed := slide old new k entered
    let front := front.set k passed
    if delta % 2 ≠ 0 && (k - delta).natAbs + 1 ≤ edits &&
        old.length ≤ passed + back.get (delta - k) then
      .error (entered, (entered - k).toNat)
    else .ok front) front

/-- Grows the ways from the back by one edit, on the reversed lists. If the difference of the lengths
is even they may meet ways from the front. -/
def growBack (old new : List α) (edits : Nat) (front back : Frontier) : Except Meeting Frontier :=
  let delta : Int := (old.length : Int) - new.length
  (diagonals edits).foldlM (fun back k =>
    let passed := slide old.reverse new.reverse k (back.enter edits k)
    let back := back.set k passed
    if delta % 2 = 0 && (k - delta).natAbs ≤ edits &&
        old.length ≤ passed + front.get (delta - k) then
      .error (old.length - passed, new.length - (passed - k).toNat)
    else .ok back) back

/-- Looks for a meeting with `edits` edits from each end, then with more, for some rounds. -/
def meetingFrom (old new : List α) :
    (rounds edits : Nat) → (front back : Frontier) → Option Meeting
  | 0, _, _, _ => none
  | rounds + 1, edits, front, back =>
    match growFront old new edits front back with
    | .error place => some place
    | .ok front =>
      match growBack old new edits front back with
      | .error place => some place
      | .ok back => meetingFrom old new rounds (edits + 1) front back

/-- A place in the middle of a shortest way. -/
def meeting? (old new : List α) : Option Meeting :=
  let rounds := (old.length + new.length + 1) / 2 + 1
  meetingFrom old new rounds 0 (.initial (rounds + 1)) (.initial (rounds + 1))

/-- An edit, or nothing if it has no elements. -/
def unlessEmpty (edit : List α → Edit α) (block : List α) : List (Edit α) :=
  if block.isEmpty then [] else [edit block]

/-- The edits that lead from the old to the new list. Each division leaves less to do on both sides;
with no fuel left everything is replaced. -/
def divide : (fuel : Nat) → (old new : List α) → List (Edit α)
  | 0, old, new => unlessEmpty .remove old ++ unlessEmpty .add new
  | fuel + 1, old, new =>
    let start := commonStart old new
    let old := old.drop start.length
    let new := new.drop start.length
    let stop := (commonStart old.reverse new.reverse).reverse
    let old := old.take (old.length - stop.length)
    let new := new.take (new.length - stop.length)
    let middle :=
      if old.isEmpty || new.isEmpty then unlessEmpty .remove old ++ unlessEmpty .add new
      else
        match meeting? old new with
        | none => [.remove old, .add new]
        | some (i, j) =>
          divide fuel (old.take i) (new.take j) ++ divide fuel (old.drop i) (new.drop j)
    unlessEmpty .keep start ++ middle ++ unlessEmpty .keep stop

end Difference

end Doctest
