import Reckon.Number.Shortest

/-!
How a double is laid out as text: its shortest digits, positional between two exponents and with an
exponent of its own outside them.
-/

namespace Reckon.Number

/-- The decisions of a number format. -/
structure Layout where
  /-- The least exponent of a leading digit that is written positionally. -/
  least : Int
  /-- The greatest one. -/
  greatest : Int
  /-- The least count of digits in a written exponent. -/
  exponentDigits : Nat
  infinity : String
  nan : String

/-- Results are positional from `0.0001` to below `10 ^ 16`, with a digit after the point; elsewhere
the exponent has a sign and two digits or more. -/
def result : Layout := ⟨-4, 15, 2, "inf", "nan"⟩

/-- Log lines spell out what is not finite. -/
def logged : Layout := { result with infinity := "Infinity", nan := "NaN" }

namespace Layout

/-- The digits with a point after the first, if more follow. -/
def significand : List Char → List Char
  | [] => []
  | [d] => [d]
  | d :: ds => d :: '.' :: ds

/-- An exponent with its sign, filled with zeros to the layout's width. -/
def exponent (l : Layout) (e : Int) : List Char :=
  let ds := Nat.toDigits 10 e.natAbs
  'e' :: (if e < 0 then '-' else '+') :: (List.replicate (l.exponentDigits - ds.length) '0' ++ ds)

/-- A decimal that is not negative. -/
def decimal (l : Layout) (d : Decimal) : List Char :=
  if l.least ≤ d.magnitude ∧ d.magnitude ≤ l.greatest then
    d.positional ++ (if 0 ≤ d.exponent then ['.', '0'] else [])
  else significand d.digits ++ l.exponent d.magnitude

def sign (negative : Bool) : List Char := if negative then ['-'] else []

def write (l : Layout) (x : Float) : String :=
  match Binary.ofFloat x with
  | .nan => l.nan
  | .infinite negative => String.ofList (sign negative ++ l.infinity.toList)
  | .finite negative m q => String.ofList (sign negative ++ l.decimal (shortest m q))

end Layout

/-- A computed number as text. -/
def text (x : Float) : String := result.write x

example : text 19 = "19.0" := by decide +kernel
example : text 0.1 = "0.1" := by decide +kernel
example : text 0.0001 = "0.0001" := by decide +kernel
example : text 0.00001 = "1e-05" := by decide +kernel
example : text 1e16 = "1e+16" := by decide +kernel
example : text 1234567890123456 = "1234567890123456.0" := by decide +kernel
example : text 1.5e300 = "1.5e+300" := by decide +kernel
example : text (-0.0) = "-0.0" := by decide +kernel
example : text 5e-324 = "5e-324" := by decide +kernel
example : text 1125899906842624.25 = "1125899906842624.2" := by decide +kernel

end Reckon.Number
