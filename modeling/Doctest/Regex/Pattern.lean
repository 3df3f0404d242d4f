import Doctest.Regex.CharSet

/-!
# Patterns

The tree of a regular expression. Flags such as `i` are settled while a pattern is read, so a tree
needs none: a character that matches without regard to case is a folded set.
-/

namespace Doctest.Regex

/-- A condition on a place in a text. `ascii` word boundaries know ASCII word characters only. -/
inductive Anchor
  | textStart
  | textEnd
  | lineStart
  | lineEnd
  /-- As `lineStart`, where a carriage return with or without a newline ends a line too. -/
  | returnLineStart
  | returnLineEnd
  | wordBoundary (ascii : Bool)
  | noWordBoundary (ascii : Bool)
  | wordStart (ascii : Bool)
  | wordEnd (ascii : Bool)
  | wordStartHalf (ascii : Bool)
  | wordEndHalf (ascii : Bool)
  deriving Inhabited

/-- A regular expression. -/
inductive Pattern
  | empty
  | char (set : CharSet)
  | anchor (a : Anchor)
  | cat (p q : Pattern)
  | alt (p q : Pattern)
  | group (index : Nat) (p : Pattern)
  /-- At least `least` times; greedy repetitions prefer more. -/
  | atLeast (least : Nat) (greedy : Bool) (p : Pattern)
  /-- From `least` to `least + more` times. -/
  | between (least more : Nat) (greedy : Bool) (p : Pattern)
  deriving Inhabited

namespace Pattern

/-- Whether a match of the pattern always takes a character. -/
def consumes : Pattern → Bool
  | .empty => false
  | .char _ => true
  | .anchor _ => false
  | .cat p q => p.consumes || q.consumes
  | .alt p q => p.consumes && q.consumes
  | .group _ p => p.consumes
  | .atLeast least _ p => 0 < least && p.consumes
  | .between least _ _ p => 0 < least && p.consumes

/-- About how many steps a program for the pattern takes. -/
def weight : Pattern → Nat
  | .empty => 1
  | .char set => set.weight
  | .anchor _ => 1
  | .cat p q => p.weight + q.weight
  | .alt p q => p.weight + q.weight + 1
  | .group _ p => p.weight + 2
  | .atLeast least _ p => (max least 1) * p.weight + 2
  | .between least more _ p => (least + more) * (p.weight + 1) + 1

/-- The patterns one after the other. -/
def catAll : List Pattern → Pattern
  | [] => .empty
  | [p] => p
  | p :: ps => .cat p (catAll ps)

/-- The patterns as alternatives, the first one preferred. -/
def altAll : List Pattern → Pattern
  | [] => .empty
  | [p] => p
  | p :: ps => .alt p (altAll ps)

end Pattern

end Doctest.Regex
