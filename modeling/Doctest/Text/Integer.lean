/-!
# Integers in decimal

An integer is written with ASCII digits and an optional sign in front. Readers take the range that
the number has to fit; a number outside it is refused like any other text. By `signed?_toString` a
number is read from its written form.
-/

namespace Doctest.Text

/-- Whether the character is one of the ten ASCII digits. -/
def isDigit (c : Char) : Bool := '0' ≤ c && c ≤ '9'

/-- The value of a text of digits. -/
def digitsValue (cs : List Char) : Nat :=
  cs.foldl (fun n c => 10 * n + (c.toNat - '0'.toNat)) 0

/-- The value of a non-empty text of digits alone. -/
def digits? (cs : List Char) : Option Nat :=
  if cs.isEmpty || !cs.all isDigit then none else some (digitsValue cs)

/-- A number from 0 to `2 ^ 64 - 1`; a plus sign may stand in front. -/
def natural? (cs : List Char) : Option Nat := do
  let n ← match cs with
    | '+' :: ds => digits? ds
    | ds => digits? ds
  if n < Nat.pow 2 64 then some n else none

/-- A signed number of `bits` bits in two's complement; a plus sign may stand in front. -/
def signed? (bits : Nat) (cs : List Char) : Option Int := do
  let i : Int ← match cs with
    | '-' :: ds => (digits? ds).map fun n => -(n : Int)
    | '+' :: ds => (digits? ds).map fun n => (n : Int)
    | ds => (digits? ds).map fun n => (n : Int)
  let bound : Int := Nat.pow 2 (bits - 1)
  if -bound ≤ i && i < bound then some i else none

/-- The value of a hexadecimal digit. -/
def hexValue? (c : Char) : Option Nat :=
  if '0' ≤ c && c ≤ '9' then some (c.toNat - '0'.toNat)
  else if 'a' ≤ c && c ≤ 'f' then some (c.toNat - 'a'.toNat + 10)
  else if 'A' ≤ c && c ≤ 'F' then some (c.toNat - 'A'.toNat + 10)
  else none

/-- The value of a non-empty text of hexadecimal digits. -/
def hexNumber? (digits : List Char) : Option Nat :=
  if digits.isEmpty then none
  else digits.foldlM (fun n c => (hexValue? c).map (16 * n + ·)) 0

/-- The character with this code. -/
def charOfCode? (n : Nat) : Option Char :=
  if h : n.isValidChar then some (Char.ofNatAux n h) else none

/-- The character with this code in hexadecimal. -/
def hexChar? (digits : List Char) : Option Char := (hexNumber? digits).bind charOfCode?

/-! ## Digits -/

section Digits

variable {ds : List Char}

theorem digitsValue_eq (ds : List Char) : digitsValue ds = Nat.ofDigitChars 10 ds 0 := rfl

theorem digits?_of_digits (hne : ds ≠ []) (hds : ∀ d ∈ ds, isDigit d) :
    digits? ds = some (digitsValue ds) := by
  have hall : ds.all isDigit = true := List.all_eq_true.mpr hds
  simp [digits?, hne, hall]

theorem ne_sign_of_digits {d : Char} (hds : ∀ c ∈ d :: ds, isDigit c) : d ≠ '-' ∧ d ≠ '+' := by
  have hd := hds d List.mem_cons_self
  constructor
  · rintro rfl
    exact absurd hd (by decide)
  · rintro rfl
    exact absurd hd (by decide)

/-- Digits have no sign, so only their value counts. -/
theorem natural?_of_digits (hne : ds ≠ []) (hds : ∀ d ∈ ds, isDigit d) :
    natural? ds = if digitsValue ds < Nat.pow 2 64 then some (digitsValue ds) else none := by
  have hvalue := digits?_of_digits hne hds
  obtain ⟨d, ds, rfl⟩ := List.exists_cons_of_ne_nil hne
  have hplus := (ne_sign_of_digits hds).2
  unfold natural?
  split
  · next heq => exact absurd (List.cons.inj heq).1 hplus
  · rw [hvalue]
    rfl

theorem lt_of_natural? {cs : List Char} {n : Nat} (h : natural? cs = some n) :
    n < Nat.pow 2 64 := by
  have hrange : ∀ x : Option Nat,
      (x.bind fun n => if n < Nat.pow 2 64 then some n else none) = some n → n < Nat.pow 2 64 := by
    intro x hx
    obtain ⟨m, -, hm⟩ := Option.bind_eq_some_iff.mp hx
    split at hm
    · next hlt =>
      cases hm
      exact hlt
    · cases hm
  unfold natural? at h
  split at h <;> exact hrange _ h

end Digits

/-! ## Written numbers -/

theorem isDigit_of_mem_toDigits {n : Nat} : ∀ c ∈ Nat.toDigits 10 n, isDigit c :=
  fun _ hc => Nat.isDigit_of_mem_toDigits (by decide) (by decide) hc

theorem digits?_toDigits (n : Nat) : digits? (Nat.toDigits 10 n) = some n := by
  rw [digits?_of_digits Nat.toDigits_ne_nil isDigit_of_mem_toDigits, digitsValue_eq,
    Nat.ofDigitChars_ten_toDigits]

theorem natural?_toDigits {n : Nat} (h : n < Nat.pow 2 64) :
    natural? (Nat.toDigits 10 n) = some n := by
  have hvalue : digitsValue (Nat.toDigits 10 n) = n := Nat.ofDigitChars_ten_toDigits
  rw [natural?_of_digits Nat.toDigits_ne_nil isDigit_of_mem_toDigits, hvalue, if_pos h]

/-- A number is written as its digits, behind a minus sign if it is negative. -/
theorem toList_toString (n : Int) :
    (toString n).toList = (if n < 0 then ['-'] else []) ++ Nat.toDigits 10 n.natAbs := by
  rw [Int.toString_eq_repr, Int.repr_eq_if]
  split
  · next hn =>
    have habs : n.toNat = n.natAbs := by omega
    rw [if_neg (by omega), habs, Nat.toList_repr]
    rfl
  · next hn =>
    have habs : (-n).toNat = n.natAbs := by omega
    rw [if_pos (by omega), String.toList_append, habs, Nat.toList_repr]
    rfl

/-- A number of `bits` bits in two's complement. -/
def Fits (bits : Nat) (n : Int) : Prop :=
  -(Nat.pow 2 (bits - 1) : Int) ≤ n ∧ n < (Nat.pow 2 (bits - 1) : Int)

instance (bits : Nat) (n : Int) : Decidable (Fits bits n) := inferInstanceAs (Decidable (_ ∧ _))

section Signed

variable {bits : Nat} {ds : List Char} {m : Nat} {n : Int}

theorem signed?_minus (hds : digits? ds = some m) (h : Fits bits (-(m : Int))) :
    signed? bits ('-' :: ds) = some (-(m : Int)) := by
  simpa [signed?, hds, Fits] using h

theorem signed?_digits (hne : ds ≠ []) (hall : ∀ d ∈ ds, isDigit d) (hds : digits? ds = some m)
    (h : Fits bits (m : Int)) : signed? bits ds = some (m : Int) := by
  obtain ⟨d, ds, rfl⟩ := List.exists_cons_of_ne_nil hne
  obtain ⟨hminus, hplus⟩ := ne_sign_of_digits hall
  dsimp only [signed?]
  split
  · next heq => exact absurd (List.cons.inj heq).1 hminus
  · next heq => exact absurd (List.cons.inj heq).1 hplus
  · simpa [hds, Fits] using h

theorem fits_of_signed? {cs : List Char} (h : signed? bits cs = some n) : Fits bits n := by
  have hrange : ∀ x : Option Int, (x.bind fun i =>
      if -(Nat.pow 2 (bits - 1) : Int) ≤ i && i < (Nat.pow 2 (bits - 1) : Int) then some i
      else none) = some n → Fits bits n := by
    intro x hx
    obtain ⟨i, -, hi⟩ := Option.bind_eq_some_iff.mp hx
    split at hi
    · next hbounds =>
      cases hi
      simpa [Fits] using hbounds
    · cases hi
  unfold signed? at h
  split at h <;> exact hrange _ h

/-- A number in the range is read from its written form. -/
theorem signed?_toString (h : Fits bits n) : signed? bits (toString n).toList = some n := by
  rw [toList_toString]
  by_cases hn : n < 0
  · have habs : -(n.natAbs : Int) = n := by omega
    have hread := signed?_minus (digits?_toDigits n.natAbs) (habs.symm ▸ h)
    rw [if_pos hn, List.singleton_append, hread, habs]
  · have habs : (n.natAbs : Int) = n := by omega
    have hread := signed?_digits Nat.toDigits_ne_nil isDigit_of_mem_toDigits
      (digits?_toDigits n.natAbs) (habs.symm ▸ h)
    rw [if_neg hn, List.nil_append, hread, habs]

end Signed

end Doctest.Text
