/-!
What a double holds: its exact value as a mantissa times a power of two, read off its bits.
-/

namespace Reckon.Number

/-- The content of a double. -/
inductive Binary where
  | nan
  | infinite (negative : Bool)
  /-- The number `mantissa * 2 ^ exponent`, or its opposite. -/
  | finite (negative : Bool) (mantissa : Nat) (exponent : Int)
  deriving DecidableEq, Repr

namespace Binary

/-- Reads sign, exponent field and fraction; a field of zero holds the numbers without a leading
one. -/
def ofBits (bits : Nat) : Binary :=
  let negative := bits / Nat.pow 2 63 % 2 == 1
  let field : Nat := bits / Nat.pow 2 52 % Nat.pow 2 11
  let fraction := bits % Nat.pow 2 52
  if field = 2047 then (if fraction = 0 then .infinite negative else .nan)
  else if field = 0 then .finite negative fraction (-1074)
  else .finite negative (Nat.pow 2 52 + fraction) ((field : Int) - 1075)

def ofFloat (x : Float) : Binary := ofBits x.toBits.toNat

/-- The absolute value when it is a whole number. -/
def whole? (mantissa : Nat) (exponent : Int) : Option Nat :=
  let up := Nat.pow 2 exponent.toNat
  let down := Nat.pow 2 (-exponent).toNat
  if mantissa * up % down = 0 then some (mantissa * up / down) else none

end Binary
end Reckon.Number
