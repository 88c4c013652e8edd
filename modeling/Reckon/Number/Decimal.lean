/-!
Decimals: a whole coefficient times a power of ten, and its digits written out with a point. Main
statement: a whole coefficient without an exponent is written digit for digit
(`positional_eq_digits`).
-/

namespace Reckon.Number

/-- The number `coefficient * 10 ^ exponent`. -/
structure Decimal where
  coefficient : Nat
  exponent : Int
  deriving DecidableEq, Repr

namespace Decimal

def digits (d : Decimal) : List Char := Nat.toDigits 10 d.coefficient

/-- The exponent of the leading digit. -/
def magnitude (d : Decimal) : Int := d.digits.length - 1 + d.exponent

/-- The digits without an exponent: zeros fill the places up to the point on either side of it. -/
def positional (d : Decimal) : List Char :=
  if 0 ≤ d.exponent then d.digits ++ List.replicate d.exponent.toNat '0'
  else
    let places := (-d.exponent).toNat
    let padded := List.replicate (places + 1 - d.digits.length) '0' ++ d.digits
    let split := padded.length - places
    padded.take split ++ '.' :: padded.drop split

theorem positional_eq_digits (c : Nat) : positional ⟨c, 0⟩ = Nat.toDigits 10 c := by
  simp [positional, digits]

end Decimal
end Reckon.Number
