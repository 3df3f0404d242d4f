import Doctest.Regex.Pattern

/-!
# Programs for patterns

A pattern becomes a list of instructions. Each instruction is followed by the next one unless it
says otherwise; where a program splits, the first way is preferred. A repetition of something that
may match nothing is laid out so that the preference for a further round is kept.
-/

namespace Doctest.Regex

/-- One instruction. Targets are positions in the program. -/
inductive Instruction
  | char (set : CharSet)
  | anchor (a : Anchor)
  /-- Notes the place in the text under this number. -/
  | mark (slot : Nat)
  | jump (target : Nat)
  | split (preferred other : Nat)
  | accept
  deriving Inhabited

/-- A split into two ways of which the first is preferred if `greedy`. -/
def splitBy (greedy : Bool) (a b : Nat) : Instruction := if greedy then .split a b else .split b a

/-- The code of `emit` placed `count` times from `base` on. -/
def repeatCode (emit : Nat → List Instruction) : (count base : Nat) → List Instruction
  | 0, _ => []
  | count + 1, base =>
    let code := emit base
    code ++ repeatCode emit count (base + code.length)

/-- The number of instructions of `count` optional rounds of `length` instructions each. -/
def optionalLength (length count : Nat) : Nat := count * (length + 1)

/-- Up to `count` rounds, each entered only after the one before; all leave to the end. -/
def optionalCode (greedy : Bool) (emit : Nat → List Instruction) (stop : Nat) :
    (count base : Nat) → List Instruction
  | 0, _ => []
  | count + 1, base =>
    let code := emit (base + 1)
    splitBy greedy (base + 1) stop :: code ++
      optionalCode greedy emit stop count (base + 1 + code.length)

/-- The instructions of a pattern when the first one stands at `base`. -/
def Pattern.code : Pattern → (base : Nat) → List Instruction
  | .empty, _ => []
  | .char set, _ => [.char set]
  | .anchor a, _ => [.anchor a]
  | .cat p q, base =>
    let first := p.code base
    first ++ q.code (base + first.length)
  | .alt p q, base =>
    let first := p.code (base + 1)
    let other := base + 1 + first.length + 1
    let second := q.code other
    .split (base + 1) other :: first ++ .jump (other + second.length) :: second
  | .group index p, base =>
    .mark (2 * index) :: p.code (base + 1) ++ [.mark (2 * index + 1)]
  | .atLeast 0 greedy p, base =>
    let body := p.code (base + 1)
    if p.consumes then
      let stop := base + 1 + body.length + 1
      splitBy greedy (base + 1) stop :: body ++ [.jump base]
    else
      let stop := base + 1 + body.length + 1
      splitBy greedy (base + 1) stop :: body ++ [splitBy greedy (base + 1) stop]
  | .atLeast (least + 1) greedy p, base =>
    let start := repeatCode p.code least base
    let last := base + start.length
    let body := p.code last
    start ++ body ++ [splitBy greedy last (last + body.length + 1)]
  | .between least more greedy p, base =>
    let start := repeatCode p.code least base
    let rest := base + start.length
    let stop := rest + optionalLength (p.code 0).length more
    start ++ optionalCode greedy p.code stop more rest

/-- The whole program: the places of the match are noted under the numbers zero and one. -/
def Pattern.program (p : Pattern) : Array Instruction :=
  (Instruction.mark 0 :: p.code 1 ++ [Instruction.mark 1, Instruction.accept]).toArray

end Doctest.Regex
