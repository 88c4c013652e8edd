import Reckon.Number.Binary
import Reckon.Number.Decimal

/-!
The shortest decimal of a double: of the decimals that round to it, one on the coarsest grid of
powers of ten, and there the nearest. All steps are exact in the naturals.
-/

namespace Reckon.Number

/-- A positive double between the ends of the interval of reals that round to it, all three as
numerators over one denominator. The ends belong to it when the mantissa is even. -/
structure Span where
  low : Nat
  mid : Nat
  high : Nat
  denominator : Nat
  closed : Bool
  deriving Repr

namespace Span

/-- The span of `mantissa * 2 ^ exponent`. The gap below the least mantissa of a binade is half the
gap above it. -/
def of (mantissa : Nat) (exponent : Int) : Span :=
  let unit := Nat.pow 2 (exponent - 2).toNat
  let below := if mantissa = Nat.pow 2 52 ∧ -1074 < exponent then 1 else 2
  { low := (4 * mantissa - below) * unit
    mid := 4 * mantissa * unit
    high := (4 * mantissa + 2) * unit
    denominator := Nat.pow 2 (2 - exponent).toNat
    closed := mantissa % 2 == 0 }

/-- The coefficient of the last point of the grid `10 ^ k` that is not above the double. -/
def floor (s : Span) (k : Int) : Nat :=
  s.mid * Nat.pow 10 (-k).toNat / (Nat.pow 10 k.toNat * s.denominator)

/-- Whether a decimal rounds to the double. -/
def holds (s : Span) (d : Decimal) : Bool :=
  let point := d.coefficient * Nat.pow 10 d.exponent.toNat * s.denominator
  let scale := Nat.pow 10 (-d.exponent).toNat
  if s.closed then decide (s.low * scale ≤ point ∧ point ≤ s.high * scale)
  else decide (s.low * scale < point ∧ point < s.high * scale)

/-- The nearer of the two grid points around the double; a tie goes to the even coefficient. -/
def nearer (s : Span) (k : Int) : Decimal :=
  let below := s.floor k
  let twice := 2 * s.mid * Nat.pow 10 (-k).toNat
  let sum := (2 * below + 1) * Nat.pow 10 k.toNat * s.denominator
  if twice < sum ∨ (twice = sum ∧ below % 2 = 0) then ⟨below, k⟩ else ⟨below + 1, k⟩

/-- The point of the grid `10 ^ k` that rounds to the double, if there is one. -/
def onGrid? (s : Span) (k : Int) : Option Decimal :=
  let below : Decimal := ⟨s.floor k, k⟩
  let above : Decimal := ⟨s.floor k + 1, k⟩
  match s.holds below, s.holds above with
  | true, true => some (s.nearer k)
  | true, false => some below
  | false, true => some above
  | false, false => none

/-- The first hit on the grids from `10 ^ k` downwards; the double's neighbour on the last grid when
there is none. -/
def search (s : Span) : Nat → Int → Decimal
  | 0, k => ⟨s.floor k, k⟩
  | steps + 1, k => (s.onGrid? k).getD (s.search steps (k - 1))

/-- The shortest decimal. The search starts above the double, and 345 grids below zero are finer
than any gap. -/
def shortest (s : Span) : Decimal :=
  let start := (Nat.toDigits 10 (s.high / s.denominator)).length
  s.search (start + 345) start

end Span

/-- The shortest decimal that rounds to the double `mantissa * 2 ^ exponent`. -/
def shortest (mantissa : Nat) (exponent : Int) : Decimal :=
  if mantissa = 0 then ⟨0, 0⟩ else (Span.of mantissa exponent).shortest

end Reckon.Number
