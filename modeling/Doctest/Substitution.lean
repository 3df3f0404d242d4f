import Doctest.Locator
import Doctest.Regex.Search
import Doctest.Regex.Template

/-!
# Substitutions

A substitution is written `/search/replace/flags`. Every match in a line is replaced; the flag `i`
ignores case, and `y` stops at the first place where no match starts right where the one before it
ended. In the replacement `$&` is the match and `$` with digits a group; any other dollar stands for
itself, a double one for a single one.
-/

namespace Doctest

open Text (isDigit)

/-- A substitution as written, and its pattern ready for searching. -/
structure Substitution where
  source : List Char
  replacement : List Char
  flags : List Char
  regex : Regex
  deriving Inhabited

namespace Substitution

/-- A slash with a backslash in front, everywhere. -/
def escapeSlashes (cs : List Char) : List Char := Text.replaceChar '/' ['\\', '/'] cs

/-- The written form. -/
def text (s : Substitution) : String :=
  String.ofList
    ('/' :: escapeSlashes s.source ++ '/' :: escapeSlashes s.replacement ++ '/' :: s.flags)

/-- Reads up to the next slash that no backslash escapes, and gives what follows it. An escaped
slash is a slash; any other escape keeps its backslash. -/
def segment? : List Char → Option (List Char × List Char)
  | [] => none
  | c :: cs =>
    if c = '/' then some ([], cs)
    else if c = '\\' then
      match cs with
      | [] => none
      | d :: ds =>
        if d = '/' then (segment? ds).map fun (s, r) => ('/' :: s, r)
        else (segment? ds).map fun (s, r) => ('\\' :: d :: s, r)
    else (segment? cs).map fun (s, r) => (c :: s, r)

/-- The template for a written replacement. -/
def template : List Char → List Char
  | [] => []
  | c :: cs =>
    if c ≠ '$' then c :: template cs
    else
      match cs with
      | [] => ['$', '$']
      | d :: ds =>
        if d = '&' then ['$', '\x7b', '0', '\x7d'] ++ template ds
        else if d = '$' then ['$', '$'] ++ template ds
        else if isDigit d then
          have : (ds.dropWhile isDigit).length ≤ ds.length := (List.dropWhile_suffix _).length_le
          ['$', '\x7b', d] ++ ds.takeWhile isDigit ++ '\x7d' :: template (ds.dropWhile isDigit)
        else ['$', '$'] ++ template (d :: ds)
termination_by cs => cs.length
decreasing_by
  all_goals simp only [List.length_cons]
  all_goals omega

def isFlag (c : Char) : Bool := c = 'g' || c = 'i' || c = 'y'

/-- Reads the value of the attribute `key`. -/
def parse (key : String) (text : String) : Except Fault Substitution :=
  let input := text.toList
  let refuse (cause : LocatorCause) (rest : List Char) : Except Fault Substitution :=
    .error (Locator.Refusal.fault ⟨cause, rest⟩ key input)
  match input with
  | '/' :: rest =>
    match segment? rest with
    | none => refuse .missingSlash rest
    | some (source, rest) =>
      match segment? rest with
      | none => refuse .missingSlash rest
      | some (replacement, flags) =>
        match flags.dropWhile isFlag with
        | c :: more => refuse (.unsupportedFlag c) (c :: more)
        | [] =>
          match Regex.compile? (flags.contains 'i') source with
          | some regex => .ok ⟨source, replacement, flags, regex⟩
          | none => .error (.of (LocatorCause.invalidPattern key))
  | _ => refuse .expectedSubstitution input

/-- What a match is replaced with. -/
def expansion (s : Substitution) (line : Array Char) (slots : Regex.Slots) : List Char :=
  Regex.Template.expand (Regex.groupText? line slots) (fun _ => none)
    (template s.replacement)

/-- The line from `start` on with the given matches replaced. -/
def splice (s : Substitution) (line : Array Char) : (start : Nat) → List Regex.Slots → List Char
  | start, [] => (line.extract start line.size).toList
  | start, slots :: more =>
    match Regex.span? slots 0 with
    | none => (line.extract start line.size).toList
    | some (a, b) =>
      (line.extract start a).toList ++ s.expansion line slots ++ splice s line b more

/-- Matches that are not empty and follow each other from `start` on without a gap. -/
def adjacentMatches (s : Substitution) (line : Array Char) :
    (fuel start : Nat) → List Regex.Slots
  | 0, _ => []
  | fuel + 1, start =>
    match s.regex.findFrom? line start with
    | none => []
    | some slots =>
      match Regex.span? slots 0 with
      | none => []
      | some (a, b) =>
        if a ≠ start || b = start then [] else slots :: adjacentMatches s line fuel b

/-- The line with all matches replaced. -/
def apply (s : Substitution) (line : String) : String :=
  let cs := line.toList.toArray
  let found :=
    if s.flags.contains 'y' then s.adjacentMatches cs (cs.size + 1) 0 else s.regex.allMatches cs
  String.ofList (s.splice cs 0 found)

end Substitution

end Doctest
