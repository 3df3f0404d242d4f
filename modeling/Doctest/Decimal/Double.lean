/-!
# Numbers with 53 binary digits

A decimal number is rounded to the nearest number `m * 2 ^ q` with `m < 2 ^ 53`, and written again
with the fewest digits that round to the same number. All of it is exact arithmetic on natural
numbers.
-/

namespace Doctest

/-- The number `digits * 10 ^ exponent`. -/
structure Decimal where
  digits : Nat
  exponent : Int
  deriving DecidableEq, Repr

/-- The number `mantissa * 2 ^ exponent`. -/
structure Double where
  mantissa : Nat
  exponent : Int
  deriving DecidableEq, Repr

/-- `b ^ e` as a fraction. -/
def Decimal.powerFraction (b : Nat) (e : Int) : Nat × Nat :=
  if 0 ≤ e then (b.pow e.toNat, 1) else (1, b.pow (-e).toNat)

/-- The quotient rounded to the nearest natural number, a tie to the even one. -/
def Decimal.roundDiv (a b : Nat) : Nat :=
  let q := a / b
  let r := a % b
  if 2 * r < b then q else if b < 2 * r then q + 1 else if q % 2 = 0 then q else q + 1

/-- The nearest double; `none` if there is no finite one. -/
def Decimal.toDouble? (d : Decimal) : Option Double :=
  if d.digits = 0 then some ⟨0, 0⟩
  else
    let size := (d.digits.log2 : Int) + d.exponent * 4
    if 4400 < size then none
    else if d.exponent < -1500 - (d.digits.log2 : Int) then some ⟨0, 0⟩
    else
      let (p, s) := powerFraction 10 d.exponent
      let a := d.digits * p
      let scale (q : Int) : Nat × Nat :=
        let (x, y) := powerFraction 2 q
        (a * y, s * x)
      let q₀ : Int := max ((a.log2 : Int) - (s.log2 : Int) - 53) (-1074)
      let (n, m) := scale q₀
      let q := if Nat.pow 2 53 ≤ n / m then q₀ + 1 else q₀
      let (n, m) := scale q
      let k := roundDiv n m
      let r : Double := if k = Nat.pow 2 53 then ⟨Nat.pow 2 52, q + 1⟩ else ⟨k, q⟩
      if 971 < r.exponent then none else some r

/-- The greatest `k` with `10 ^ k ≤ a / b`, looked for downwards from an upper bound. -/
def Decimal.log10 (a b : Nat) : (fuel : Nat) → (k : Int) → Int
  | 0, k => k
  | fuel + 1, k =>
    let (x, y) := powerFraction 10 k
    if x * b ≤ a * y then k else log10 a b fuel (k - 1)

/-- The shortest decimal number that rounds to the double, among those of at least `17 - fuel`
digits; the nearer one of two. -/
def Decimal.shortestFrom (v : Double) (a b : Nat) (top : Int) : (fuel : Nat) → Decimal
  | 0 => ⟨0, 0⟩
  | fuel + 1 =>
    let e := top - (16 - fuel : Nat)
    let (x, y) := powerFraction 10 e
    let lo := (a * y) / (b * x)
    let rest := (a * y) % (b * x)
    let below : Decimal := ⟨lo, e⟩
    let above : Decimal := ⟨lo + 1, e⟩
    let belowFits := below.toDouble? == some v
    let aboveFits := above.toDouble? == some v
    if belowFits && (!aboveFits || 2 * rest ≤ b * x) then below
    else if aboveFits then above
    else shortestFrom v a b top fuel

/-- The decimal number with the fewest digits that rounds to the double. Its last digits may be zeros
where it is a power of ten. -/
def Double.shortest (v : Double) : Decimal :=
  if v.mantissa = 0 then ⟨0, 0⟩
  else
    let (x, y) := Decimal.powerFraction 2 v.exponent
    let a := v.mantissa * x
    let size : Int := (a.log2 : Int) - (y.log2 : Int)
    -- Three binary digits are less than one decimal digit, and four are more.
    let bound := (if 0 ≤ size then size / 3 else size / 4) + 2
    Decimal.shortestFrom v a y (Decimal.log10 a y 700 bound) 17

/-- Positional notation with at least one digit on each side of the point and no needless zero at the
end. -/
def Decimal.positional (d : Decimal) : String :=
  let digits := Nat.toDigits 10 d.digits
  if 0 ≤ d.exponent then
    String.ofList (digits ++ List.replicate (if d.digits = 0 then 0 else d.exponent.toNat) '0') ++ ".0"
  else
    let places := (-d.exponent).toNat
    let digits := List.replicate (places + 1 - digits.length) '0' ++ digits
    let whole := digits.length - places
    let fraction := ((digits.drop whole).reverse.dropWhile (· = '0')).reverse
    String.ofList (digits.take whole ++ '.' :: if fraction.isEmpty then ['0'] else fraction)

end Doctest
