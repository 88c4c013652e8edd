/-!
Numerals: ASCII digits with at most one point and an optional sign, and the double they denote. Main
statement: the digits of a numeral determine its coefficient one by one (`digitsValue_append`).
-/

namespace Reckon.Number

/-- The value of a digit character. -/
def digitValue (c : Char) : Nat := c.toNat - '0'.toNat

/-- The number that a run of digits writes. -/
def digitsValue (cs : List Char) : Nat := cs.foldl (fun n c => 10 * n + digitValue c) 0

theorem foldl_digits (cs : List Char) (n : Nat) :
    cs.foldl (fun n c => 10 * n + digitValue c) n = n * Nat.pow 10 cs.length + digitsValue cs := by
  induction cs generalizing n with
  | nil => simp [digitsValue]
  | cons c cs ih =>
    simp only [List.foldl_cons, List.length_cons, digitsValue]
    rw [ih, ih (10 * 0 + digitValue c)]
    show _ = n * (Nat.pow 10 cs.length * 10) + _
    simp only [Nat.mul_zero, Nat.zero_add, Nat.add_mul, Nat.add_assoc]
    congr 1
    rw [Nat.mul_comm 10 n, Nat.mul_assoc, Nat.mul_comm 10]

theorem digitsValue_append (as bs : List Char) :
    digitsValue (as ++ bs) = digitsValue as * Nat.pow 10 bs.length + digitsValue bs := by
  rw [digitsValue, List.foldl_append, foldl_digits]
  rfl

/-- The number `coefficient / 10 ^ places`, or its opposite. -/
structure Numeral where
  negative : Bool
  coefficient : Nat
  places : Nat
  deriving DecidableEq, Repr

namespace Numeral

/-- Takes an optional sign off: whether it was a minus, and the rest. -/
def splitSign : List Char → Bool × List Char
  | '-' :: cs => (true, cs)
  | '+' :: cs => (false, cs)
  | cs => (false, cs)

/-- Digits, then possibly a point and more digits; one digit at least. The coefficient and the
number of places after the point. -/
def readDigits? (cs : List Char) : Option (Nat × Nat) :=
  let before := cs.takeWhile Char.isDigit
  match cs.dropWhile Char.isDigit with
  | [] => if before.isEmpty then none else some (digitsValue before, 0)
  | '.' :: after =>
    if after.all Char.isDigit && !(before.isEmpty && after.isEmpty) then
      some (digitsValue (before ++ after), after.length)
    else none
  | _ => none

/-- Reads a whole text as a numeral. -/
def read? (cs : List Char) : Option Numeral :=
  let (negative, rest) := splitSign cs
  (readDigits? rest).map fun (coefficient, places) => ⟨negative, coefficient, places⟩

/-- The double nearest to the numeral, with its sign. -/
def value (n : Numeral) : Float :=
  let x := Float.ofScientific n.coefficient true n.places
  if n.negative then -x else x

end Numeral
end Reckon.Number
