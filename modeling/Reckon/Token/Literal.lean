import Reckon.Failure
import Reckon.Number.Numeral

/-!
Literals: the value of a run of characters that is no function name.
-/

namespace Reckon

/-- Whether a run begins like a name. -/
def beginsName : List Char → Bool
  | c :: _ => c.isAlpha || c == '_'
  | [] => false

/-- The failure of a run that is no literal: it may be meant as a function. -/
def notLiteral (raw : String) (pos : Option Int) : Failure :=
  if beginsName raw.toList then .unknownFunction raw pos
  else .malformedOperand raw pos

/-- The value of a literal. A numeral too large for a double is malformed. -/
def literal (raw : String) (pos : Option Int) : Except Failure Float :=
  match Number.Numeral.read? raw.toList with
  | some n => if n.value.isFinite then .ok n.value else .error (.malformedOperand raw pos)
  | none => .error (notLiteral raw pos)

end Reckon
