import Reckon.Number.Numeral
import Reckon.Text.Digit

/-!
Reading a double from free text: surrounding blanks, digits of any script with single underscores
between them, an exponent, and the names of infinity and of no number.
-/

namespace Reckon.Number

/-- Every digit as the ASCII digit of the same value. -/
def asciiDigits (cs : List Char) : List Char :=
  cs.map fun c => (Text.digitValue? c).elim c fun d => Char.ofNat (48 + d)

/-- Takes underscores out; each must stand between two digits. -/
def dropUnderscores? : List Char → Option (List Char)
  | [] => some []
  | '_' :: _ => none
  | c :: '_' :: d :: cs =>
    if c.isDigit && d.isDigit then (dropUnderscores? (d :: cs)).map (c :: ·) else none
  | c :: cs => (dropUnderscores? cs).map (c :: ·)

/-- The whole number after an exponent mark. -/
def readExponent? (cs : List Char) : Option Int :=
  let (negative, ds) := Numeral.splitSign cs
  if ds.isEmpty || !ds.all Char.isDigit then none
  else some (if negative then -(digitsValue ds : Int) else digitsValue ds)

/-- The double nearest to `coefficient * 10 ^ exponent`. A leading digit more than 400 places from
the point is out of a double's range on its own, whatever follows it. -/
def scaled (coefficient : Nat) (exponent : Int) : Float :=
  let magnitude := (Nat.toDigits 10 coefficient).length + exponent
  if coefficient = 0 ∨ magnitude < -400 then 0
  else if 400 < magnitude then 1 / 0
  else Float.ofScientific coefficient (exponent < 0) exponent.natAbs

/-- A number without sign: a numeral with an optional exponent, or a name. -/
def readUnsigned? (cs : List Char) : Option Float :=
  let isMark := fun c => c == 'e' || c == 'E'
  match String.ofList (cs.map Char.toLower) with
  | "inf" | "infinity" => some (1 / 0)
  | "nan" => some (0 / 0)
  | _ => do
    let (coefficient, places) ← Numeral.readDigits? (cs.takeWhile (!isMark ·))
    match cs.dropWhile (!isMark ·) with
    | [] => some (scaled coefficient (-places))
    | _ :: rest => (readExponent? rest).map fun e => scaled coefficient (e - places)

/-- Reads a double; `none` when the text is no number. -/
def read? (s : String) : Option Float := do
  let cs ← dropUnderscores? (asciiDigits (Text.trim Text.isBlank s.toList))
  let (negative, rest) := Numeral.splitSign cs
  (readUnsigned? rest).map fun x => if negative then -x else x

end Reckon.Number
