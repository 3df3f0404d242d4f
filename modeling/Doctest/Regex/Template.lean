import Doctest.Text.Integer
import Doctest.Text.Search

/-!
# Templates

What a match is replaced with. In a template `$$` is a dollar, and `$name` or `${name}` the text of
a group, by its number or its name; a group that took no part stands for nothing.
-/

namespace Doctest.Regex.Template

/-- The characters of a name that stands without braces. -/
def isNameChar (c : Char) : Bool := c.isAlphanum || c == '_'

/-- Reads the name of a group behind a dollar. -/
def readName? (cs : List Char) : Option (List Char × List Char) :=
  match cs with
  | '{' :: rest => Text.splitFirst? '}' rest
  | _ =>
    let name := cs.takeWhile isNameChar
    if name.isEmpty then none else some (name, cs.drop name.length)

/-- The text that a name stands for. -/
def lookUp (group : Nat → Option (List Char)) (named : String → Option Nat) (name : List Char) :
    List Char :=
  match Text.natural? name with
  | some n => (group n).getD []
  | none => ((named (String.ofList name)).bind group).getD []

theorem length_splitFirst? {sep : Char} {cs a b : List Char}
    (h : Text.splitFirst? sep cs = some (a, b)) : b.length < cs.length := by
  fun_induction Text.splitFirst? sep cs generalizing a b <;>
    grind [Option.map_eq_some_iff]

theorem length_readName? {cs name rest : List Char} (h : readName? cs = some (name, rest)) :
    rest.length ≤ cs.length := by
  simp only [readName?] at h
  split at h
  · have := length_splitFirst? h
    simp only [List.length_cons]
    omega
  · split at h
    · cases h
    · cases h
      simp

/-- The template with the groups of a match filled in. -/
def expand (group : Nat → Option (List Char)) (named : String → Option Nat) :
    List Char → List Char
  | [] => []
  | c :: cs =>
    if c ≠ '$' then c :: expand group named cs
    else
      match cs with
      | [] => ['$']
      | d :: ds =>
        if d = '$' then '$' :: expand group named ds
        else
          match h : readName? (d :: ds) with
          | none => '$' :: expand group named (d :: ds)
          | some (name, rest) =>
            have : rest.length ≤ ds.length + 1 := length_readName? h
            lookUp group named name ++ expand group named rest
termination_by cs => cs.length

end Doctest.Regex.Template
