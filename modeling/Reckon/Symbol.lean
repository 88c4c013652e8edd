/-!
The signs of an expression: four operators and two brackets, each written as one character.
-/

namespace Reckon

inductive Operator where
  | add
  | sub
  | mul
  | div
  deriving DecidableEq, Repr

/-- What one character of an expression can stand for on its own. -/
inductive Symbol where
  | operator (op : Operator)
  | opening
  | closing
  deriving DecidableEq, Repr

namespace Operator

def char : Operator → Char
  | add => '+'
  | sub => '-'
  | mul => '*'
  | div => '/'

/-- The key of an operator in a context. -/
def text (op : Operator) : String := String.singleton op.char

end Operator

namespace Symbol

def char : Symbol → Char
  | operator op => op.char
  | opening => '('
  | closing => ')'

def text (s : Symbol) : String := String.singleton s.char

def isBracket : Symbol → Bool
  | operator _ => false
  | _ => true

def ofChar? : Char → Option Symbol
  | '+' => some (operator .add)
  | '-' => some (operator .sub)
  | '*' => some (operator .mul)
  | '/' => some (operator .div)
  | '(' => some opening
  | ')' => some closing
  | _ => none

/-- The symbol that a whole text writes. -/
def ofText? (s : String) : Option Symbol :=
  match s.toList with
  | [c] => ofChar? c
  | _ => none

theorem ofChar?_char (s : Symbol) : ofChar? s.char = some s := by
  cases s with
  | operator op => cases op <;> rfl
  | opening => rfl
  | closing => rfl

theorem eq_char_of_ofChar? {c : Char} {s : Symbol} (h : ofChar? c = some s) : c = s.char := by
  unfold ofChar? at h
  split at h <;> simp_all [char, Operator.char] <;> subst h <;> rfl

end Symbol
end Reckon
