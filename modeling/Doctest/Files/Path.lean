import Doctest.Text.Search

/-!
# Paths

A path is a text of names with slashes between them. A slash in front makes it absolute. Paths are
kept as they were written: joining, cutting off the last name and listing the directories above work
on the text alone, and only a file tree can say what `..` leads to.
-/

namespace Doctest

/-- A path as it is written. -/
abbrev Path := String

namespace Path

def isAbsolute (p : Path) : Bool := p.toList.head? = some '/'

/-- The path `p` seen from `base`. An absolute path stays as it is. -/
def join (base p : Path) : Path :=
  if p.isAbsolute then p
  else if base.isEmpty || base.toList.getLast? = some '/' then base ++ p
  else base ++ "/" ++ p

/-- The names of the path, with an empty one for every slash in front, at the end, or next to
another one. -/
def names (p : Path) : List String := (Text.splitAll '/' p.toList).map String.ofList

/-- Drops slashes and `.` from the end of a path that is written backwards. The first slash of an
absolute path and a `.` in front of everything stay. -/
def dropIdle : List Char → List Char
  | '/' :: [] => ['/']
  | '/' :: rest => dropIdle rest
  | '.' :: '/' :: rest => dropIdle ('/' :: rest)
  | cs => cs
termination_by cs => cs.length

/-- The path without its last name, and without slashes and `.` next to it. -/
def parent? (p : Path) : Option Path :=
  match dropIdle p.toList.reverse with
  | [] => none
  | ['/'] => none
  | cs => some (String.ofList (dropIdle (cs.dropWhile (· ≠ '/'))).reverse)

/-- At most `count` paths: `p`, its parent, the parent of that and so on. -/
def chain : (count : Nat) → (p : Path) → List Path
  | 0, _ => []
  | count + 1, p => p :: ((parent? p).map (chain count)).getD []

/-- The path and all paths above it, the nearest first. Every step up makes a path shorter. -/
def ancestors (p : Path) : List Path := chain (p.length + 1) p

/-- The path seen from the root, when `directory` is the absolute path of the current directory.
Doubled slashes and `.` are dropped; `..` is kept. -/
def absolute (directory p : Path) : Path :=
  let names := (names p).filter fun name => name ≠ "" && name ≠ "."
  let start := if isAbsolute p then "/" else directory
  let path := names.foldl join start
  if p.toList.getLast? = some '/' then join path "" else path

end Path

end Doctest
