import Doctest.Regex.Program
import Doctest.Regex.Reader

/-!
# Searching

A search keeps a list of threads, the preferred ones first, and moves all of them over the text one
character at a time. Of two threads at the same instruction only the preferred one is kept. The
match of the most preferred thread that accepts is the result: the leftmost one, and among those
that start there the one that the pattern prefers.
-/

namespace Doctest

/-- A pattern ready for searching. -/
structure Regex where
  program : Array Regex.Instruction
  groups : Nat
  deriving Inhabited

namespace Regex

/-- The noted places of a match: two for each group, group zero being the match. -/
abbrev Slots := Array (Option Nat)

/-- Reads a pattern for searching. -/
def compile? (caseless : Bool) (source : List Char) : Option Regex :=
  (parse? caseless source).map fun parsed => ⟨parsed.pattern.program, parsed.groups⟩

/-- Whether there is a word character at a place. -/
def wordAt (ascii : Bool) (c? : Option Char) : Bool :=
  match c? with
  | some c => if ascii then c.isAlphanum || c == '_' else Unicode.isWordChar c
  | none => false

/-- Whether the condition holds between the character before a place and the one behind it. -/
def Anchor.holds (a : Anchor) (before behind : Option Char) : Bool :=
  match a with
  | .textStart => before.isNone
  | .textEnd => behind.isNone
  | .lineStart => before.isNone || before == some '\n'
  | .lineEnd => behind.isNone || behind == some '\n'
  | .returnLineStart =>
    before.isNone || before == some '\n' || (before == some '\r' && behind != some '\n')
  | .returnLineEnd =>
    behind.isNone || behind == some '\r' || (behind == some '\n' && before != some '\r')
  | .wordBoundary ascii => wordAt ascii before != wordAt ascii behind
  | .noWordBoundary ascii => wordAt ascii before == wordAt ascii behind
  | .wordStart ascii => !wordAt ascii before && wordAt ascii behind
  | .wordEnd ascii => wordAt ascii before && !wordAt ascii behind
  | .wordStartHalf ascii => !wordAt ascii before
  | .wordEndHalf ascii => !wordAt ascii behind

/-- A place in the program with the places noted on the way there. -/
structure Thread where
  pc : Nat
  slots : Slots

/-- The character in front of a place. -/
def charBefore (text : Array Char) (place : Nat) : Option Char :=
  if place = 0 then none else text[place - 1]?

/-- Follows the threads on the stack to instructions that wait for a character or accept. Each
instruction is visited once, so twice their number bounds the steps. -/
def follow (program : Array Instruction) (text : Array Char) (place : Nat) :
    (fuel : Nat) → (stack : List Thread) → (visited : Array Bool) → List Thread
  | 0, _, _ => []
  | _, [], _ => []
  | fuel + 1, t :: stack, visited =>
    if (visited[t.pc]?).getD true then follow program text place fuel stack visited
    else
      let visited := visited.setIfInBounds t.pc true
      match program[t.pc]? with
      | none => follow program text place fuel stack visited
      | some (.char _) | some .accept => t :: follow program text place fuel stack visited
      | some (.anchor a) =>
        if a.holds (charBefore text place) text[place]? then
          follow program text place fuel (⟨t.pc + 1, t.slots⟩ :: stack) visited
        else follow program text place fuel stack visited
      | some (.mark slot) =>
        follow program text place fuel
          (⟨t.pc + 1, t.slots.setIfInBounds slot (some place)⟩ :: stack) visited
      | some (.jump target) => follow program text place fuel (⟨target, t.slots⟩ :: stack) visited
      | some (.split a b) =>
        follow program text place fuel (⟨a, t.slots⟩ :: ⟨b, t.slots⟩ :: stack) visited

/-- Moves the threads over a character. A thread that accepts replaces the match found so far and
ends those after it. -/
def advance (program : Array Instruction) (c? : Option Char) (found : Option Slots) :
    List Thread → List Thread × Option Slots
  | [] => ([], found)
  | t :: threads =>
    match program[t.pc]?, c? with
    | some .accept, _ => ([], some t.slots)
    | some (.char set), some c =>
      let (moved, found) := advance program c? found threads
      if set.mem c then (⟨t.pc + 1, t.slots⟩ :: moved, found) else (moved, found)
    | _, _ => advance program c? found threads

/-- Runs the threads from `place` on; as long as nothing is found a new one starts at each place. -/
def run (re : Regex) (text : Array Char) :
    (remaining place : Nat) → List Thread → Option Slots → Option Slots
  | remaining, place, threads, found =>
    let start : Thread := ⟨0, Array.replicate (2 * re.groups + 2) none⟩
    let stack := if found.isNone then threads ++ [start] else threads
    if stack.isEmpty then found
    else
      let fuel := stack.length + 2 * re.program.size + 1
      let threads := follow re.program text place fuel stack
        (Array.replicate re.program.size false)
      let (threads, found) := advance re.program text[place]? found threads
      match remaining with
      | 0 => found
      | remaining + 1 => run re text remaining (place + 1) threads found

/-- The first match that starts at `start` or later. -/
def findFrom? (re : Regex) (text : Array Char) (start : Nat) : Option Slots :=
  if start ≤ text.size then re.run text (text.size - start) start [] none else none

/-- Where a group of a match starts and ends. -/
def span? (slots : Slots) (group : Nat) : Option (Nat × Nat) :=
  match slots[2 * group]?, slots[2 * group + 1]? with
  | some (some a), some (some b) => some (a, b)
  | _, _ => none

/-- All matches from `start` on that do not overlap. An empty match directly behind the match that
ended at `last` is passed over. -/
def matchesFrom (re : Regex) (text : Array Char) :
    (fuel start : Nat) → (last : Option Nat) → List Slots
  | 0, _, _ => []
  | fuel + 1, start, last =>
    match re.findFrom? text start with
    | none => []
    | some slots =>
      match span? slots 0 with
      | none => []
      | some (a, b) =>
        if a = b && some b = last then
          match re.findFrom? text (start + 1) with
          | none => []
          | some slots =>
            match span? slots 0 with
            | none => []
            | some (_, b) => slots :: matchesFrom re text fuel b (some b)
        else slots :: matchesFrom re text fuel b (some b)

/-- All matches in a text that do not overlap, from left to right. -/
def allMatches (re : Regex) (text : Array Char) : List Slots :=
  re.matchesFrom text (2 * text.size + 2) 0 none

/-- The text of a group of a match; nothing if the group took no part. -/
def groupText? (text : Array Char) (slots : Slots) (group : Nat) : Option (List Char) :=
  (span? slots group).map fun (a, b) => (text.extract a b).toList

end Regex

end Doctest
