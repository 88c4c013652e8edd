import Reckon.Text.Unprintable

/-!
Quoted text, as it stands in messages: between single quotes, or between double quotes when the text
holds a single quote and no double one, with escapes for what cannot be printed.
-/

namespace Reckon.Text

/-- The hexadecimal digit of `d < 16`, a small letter from ten on. -/
def hexDigit (d : Nat) : Char := Char.ofNat (if d < 10 then 48 + d else 87 + d)

/-- The last `width` hexadecimal digits of `n`, the most significant first. -/
def hexDigits : Nat → Nat → List Char
  | 0, _ => []
  | width + 1, n => hexDigits width (n / 16) ++ [hexDigit (n % 16)]

/-- A character that cannot be printed, by its code point. -/
def escapeCode (n : Nat) : List Char :=
  if n < 0x100 then '\\' :: 'x' :: hexDigits 2 n
  else if n < 0x10000 then '\\' :: 'u' :: hexDigits 4 n
  else '\\' :: 'U' :: hexDigits 8 n

/-- One character inside quotes `q`. -/
def quoteChar (q c : Char) : List Char :=
  if c = q ∨ c = '\\' then ['\\', c]
  else if c = '\n' then ['\\', 'n']
  else if c = '\r' then ['\\', 'r']
  else if c = '\t' then ['\\', 't']
  else if isPrintable c then [c]
  else escapeCode c.toNat

/-- The text between quotes, escaped so that it can be read back. -/
def quoted (s : String) : String :=
  let cs := s.toList
  let q := if cs.contains '\x27' && !cs.contains '"' then '"' else '\x27'
  String.ofList (q :: (cs.flatMap (quoteChar q) ++ [q]))

end Reckon.Text
