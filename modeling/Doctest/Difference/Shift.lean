import Doctest.Difference

/-!
# Shifting edits

The same difference can be told in several ways: where the lines next to an added block repeat its
ends, the block may as well stand further up or down. Every block that is removed or added is moved
up as far as it goes and then down as far as it goes, past other such blocks too, and joined with
those of its kind that it meets. Neither list changes by that.
-/

namespace Doctest

namespace Edit

variable {α : Type}

/-- The number of elements. -/
def size (e : Edit α) : Nat := e.block.length

end Edit

namespace Difference

variable {α : Type} [DecidableEq α]

/-- An edit with the edits before it, the nearest first, and those behind it. -/
structure Spot (α : Type) where
  before : List (Edit α)
  edit : Edit α
  behind : List (Edit α)

/-- A bound for the steps past a list of edits. -/
def stepsPast (edits : List (Edit α)) : Nat := edits.foldr (fun e n => e.size + 1 + n) 0

/-- Puts a kept block in front of the edits, as part of the kept block there if there is one. -/
def keepFirst (block : List α) : List (Edit α) → List (Edit α)
  | .keep b :: rest => .keep (block ++ b) :: rest
  | rest => .keep block :: rest

/-- Puts a kept block behind the edits, which are given from the nearest on. -/
def keepLast (block : List α) : List (Edit α) → List (Edit α)
  | .keep b :: rest => .keep (b ++ block) :: rest
  | rest => .keep block :: rest

/-- The elements with which both lists end. -/
def commonEnd (a b : List α) : List α := (commonStart a.reverse b.reverse).reverse

/-- Moves the edit up. A block with no elements on the way is dropped. -/
def shiftUp : (fuel : Nat) → Spot α → Spot α
  | 0, s => s
  | fuel + 1, s =>
    match s.before with
    | [] => s
    | other :: before =>
      match s.edit, other with
      | .add block, .keep kept =>
        let shared := commonEnd kept block
        let count := shared.length
        if shared.isEmpty then
          if kept.isEmpty then shiftUp fuel { s with before } else s
        else
          let kept := kept.take (kept.length - count)
          shiftUp fuel {
            before := unlessEmpty .keep kept ++ before
            edit := .add (shared ++ block.take (block.length - count))
            behind := keepFirst shared s.behind }
      | .remove _, .keep kept => if kept.isEmpty then shiftUp fuel { s with before } else s
      | .add a, .add b => shiftUp fuel { s with before, edit := .add (b ++ a) }
      | .remove a, .remove b => shiftUp fuel { s with before, edit := .remove (b ++ a) }
      | _, _ => shiftUp fuel { s with before, behind := other :: s.behind }

/-- Moves the edit down. -/
def shiftDown : (fuel : Nat) → Spot α → Spot α
  | 0, s => s
  | fuel + 1, s =>
    match s.behind with
    | [] => s
    | other :: behind =>
      match s.edit, other with
      | .add block, .keep kept =>
        let shared := commonStart kept block
        let count := shared.length
        if shared.isEmpty then
          if kept.isEmpty then shiftDown fuel { s with behind } else s
        else
          shiftDown fuel {
            before := keepLast shared s.before
            edit := .add (block.drop count ++ shared)
            behind := unlessEmpty .keep (kept.drop count) ++ behind }
      | .remove _, .keep kept => if kept.isEmpty then shiftDown fuel { s with behind } else s
      | .add a, .add b => shiftDown fuel { s with behind, edit := .add (a ++ b) }
      | .remove a, .remove b => shiftDown fuel { s with behind, edit := .remove (a ++ b) }
      | _, _ => shiftDown fuel { s with before := other :: s.before, behind }

/-- Moves the edit up and down if it is of the right kind. -/
def settle (moves : Edit α → Bool) (s : Spot α) : Spot α :=
  if moves s.edit then
    let s := shiftUp (stepsPast s.before) s
    shiftDown (stepsPast s.behind) s
  else s

/-- Moves the edits of a kind one after the other. -/
def settleFrom (moves : Edit α → Bool) :
    (fuel : Nat) → (before behind : List (Edit α)) → List (Edit α)
  | _, before, [] => before.reverse
  | 0, before, behind => before.reverse ++ behind
  | fuel + 1, before, edit :: behind =>
    let s := settle moves ⟨before, edit, behind⟩
    settleFrom moves fuel (s.edit :: s.before) s.behind

def settleAll (moves : Edit α → Bool) (edits : List (Edit α)) : List (Edit α) :=
  settleFrom moves (2 * stepsPast edits) [] edits

def isRemoval : Edit α → Bool
  | .remove _ => true
  | _ => false

def isAddition : Edit α → Bool
  | .add _ => true
  | _ => false

/-- The difference of two lists: removals are moved first, then additions. -/
def between (old new : List α) : List (Edit α) :=
  settleAll isAddition (settleAll isRemoval (divide (old.length + new.length + 1) old new))

/-! ## Lines of a difference -/

/-- What happens to an element. -/
inductive Change
  | same
  | removed
  | added
  deriving DecidableEq, Repr

/-- The elements with what happens to them. Between two kept blocks all removals come first;
`removed` and `added` wait for the next kept block. -/
def changesFrom : (removed added : List α) → List (Edit α) → List (Change × α)
  | removed, added, [] => removed.map (.removed, ·) ++ added.map (.added, ·)
  | removed, added, .remove b :: rest => changesFrom (removed ++ b) added rest
  | removed, added, .add b :: rest => changesFrom removed (added ++ b) rest
  | removed, added, .keep b :: rest =>
    removed.map (.removed, ·) ++ added.map (.added, ·) ++ b.map (.same, ·) ++
      changesFrom [] [] rest

def changes (old new : List α) : List (Change × α) := changesFrom [] [] (between old new)

end Difference

end Doctest
