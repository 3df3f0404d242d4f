import Doctest.Decimal.Double
import Doctest.Text.Integer
import Doctest.Text.Quoted
import Doctest.Yaml.Node

/-!
# What a plain scalar stands for

A plain scalar may stand for nothing, a truth value or a number. Readers that want text take every
scalar as written; the kind matters where something else than a scalar was wanted, and for the
writer, which has to keep text from being taken for something else.
-/

namespace Doctest.Yaml

open Text (isDigit)

/-- What a scalar stands for. Numbers that are not whole keep the text they are shown with. -/
inductive Kind
  | null
  | boolean (b : Bool)
  | integer (n : Int)
  | float (shown : String)
  | text
  deriving DecidableEq, Repr

namespace Kind

def isNull (cs : List Char) : Bool :=
  ["null", "Null", "NULL", "~"].contains (String.ofList cs)

/-- Digits after a leading zero are text, not a number. -/
def isZeroPadded (cs : List Char) : Bool :=
  let ds := match cs with
    | '-' :: ds => ds
    | '+' :: ds => ds
    | ds => ds
  match ds with
  | '0' :: d :: more => (d :: more).all isDigit
  | _ => false

/-- The value of digits in a base. -/
def inBase? (base : Nat) (cs : List Char) : Option Nat :=
  if cs.isEmpty then none
  else cs.foldlM (fun n c => do
    let d ← Text.hexValue? c
    if d < base then some (base * n + d) else none) 0

/-- A number without sign, with a mark in front if it is not decimal. -/
def unsigned? (cs : List Char) : Option Nat :=
  match cs with
  | '0' :: 'x' :: ds => inBase? 16 ds
  | '0' :: 'o' :: ds => inBase? 8 ds
  | '0' :: 'b' :: ds => inBase? 2 ds
  | ds => if isZeroPadded ds then none else inBase? 10 ds

/-- A whole number that fits in 128 bits. -/
def integer? (cs : List Char) : Option Int :=
  match cs with
  | '-' :: ds => (unsigned? ds).bind fun n => if n ≤ Nat.pow 2 127 then some (-(n : Int)) else none
  | '+' :: ds => (unsigned? ds).bind fun n => if n < Nat.pow 2 128 then some (n : Int) else none
  | ds => (unsigned? ds).bind fun n => if n < Nat.pow 2 128 then some (n : Int) else none

/-- The exponent of a decimal number; none is zero. -/
def exponent? (cs : List Char) : Option Int :=
  match cs with
  | [] => some 0
  | c :: ds =>
    if c = 'e' || c = 'E' then
      match ds with
      | '-' :: ds => (Text.digits? ds).map fun n => -(n : Int)
      | '+' :: ds => (Text.digits? ds).map fun n => (n : Int)
      | ds => (Text.digits? ds).map fun n => (n : Int)
    else none

/-- A decimal number without sign. -/
def decimal? (cs : List Char) : Option Decimal := do
  let whole := cs.takeWhile isDigit
  let rest := cs.dropWhile isDigit
  let (places, rest) := match rest with
    | '.' :: more => (more.takeWhile isDigit, more.dropWhile isDigit)
    | _ => ([], rest)
  if whole.isEmpty && places.isEmpty then none
  let e ← exponent? rest
  some ⟨Text.digitsValue (whole ++ places), e - places.length⟩

/-- How a number that is not whole is shown. -/
def float? (cs : List Char) : Option String :=
  let text := String.ofList cs
  if [".inf", ".Inf", ".INF", "+.inf", "+.Inf", "+.INF"].contains text then some "inf"
  else if ["-.inf", "-.Inf", "-.INF"].contains text then some "-inf"
  else if [".nan", ".NaN", ".NAN"].contains text then some "NaN"
  else
    let (sign, ds) := match cs with
      | '-' :: ds => ("-", ds)
      | '+' :: ds => ("", ds)
      | ds => ("", ds)
    do
      let d ← decimal? ds
      let v ← d.toDouble?
      some (sign ++ v.shortest.positional)

/-- What a plain scalar stands for. -/
def ofPlain (cs : List Char) : Kind :=
  if cs.isEmpty || isNull cs then .null
  else if ["true", "True", "TRUE"].contains (String.ofList cs) then .boolean true
  else if ["false", "False", "FALSE"].contains (String.ofList cs) then .boolean false
  else
    match integer? cs with
    | some n => .integer n
    | none =>
      if isZeroPadded cs then .text
      else
        match float? cs with
        | some shown => .float shown
        | none => .text

/-- How a scalar of this kind is named in messages. -/
def describe (text : String) : Kind → String
  | .null => "unit value"
  | .boolean b => if b then "boolean `true`" else "boolean `false`"
  | .integer n =>
    if n < -(Nat.pow 2 63) then s!"integer `{n}` as i128"
    else if n < Nat.pow 2 64 then s!"integer `{n}`"
    else s!"integer `{n}` as u128"
  | .float shown => s!"floating point `{shown}`"
  | .text => "string " ++ Text.quoteText text

end Kind

/-- How a node is named in messages. -/
def Node.describe : Node → String
  | .scalar plain text => (if plain then Kind.ofPlain text.toList else .text).describe text
  | .sequence _ => "sequence"
  | .mapping _ => "map"
  | .cut => ""

/-- Whether the node is a plain scalar for nothing. -/
def Node.isNull : Node → Bool
  | .scalar plain text => plain && (text.isEmpty || Kind.isNull text.toList)
  | _ => false

/-- Whether the node is a scalar that is not there. -/
def Node.isNothing : Node → Bool
  | .scalar plain text => plain && text.isEmpty
  | _ => false

end Doctest.Yaml
