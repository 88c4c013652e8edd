import Reckon.Failure

/-!
The functions that compute: how many arguments each takes, where it is defined and when its value is
out of range.
-/

namespace Reckon

/-- An implementation that a context can bind to a name. -/
inductive Builtin where
  | sin
  | cos
  | tan
  | sqrt
  | ln
  | pow
  | abs
  deriving DecidableEq, Repr

namespace Builtin

def name : Builtin → String
  | sin => "sin"
  | cos => "cos"
  | tan => "tan"
  | sqrt => "sqrt"
  | ln => "ln"
  | pow => "pow"
  | abs => "abs"

def all : List Builtin := [sin, cos, tan, sqrt, ln, pow, abs]

theorem mem_all (b : Builtin) : b ∈ all := by cases b <;> decide

/-- The number of arguments that a standard context asks for. -/
def arity : Builtin → Int
  | pow => 2
  | _ => 1

def ofName? (name : String) : Option Builtin := all.find? fun b => b.name == name

theorem ofName?_name (b : Builtin) : ofName? b.name = some b := by cases b <;> decide

theorem name_of_ofName? {s : String} {b : Builtin} (h : ofName? s = some b) : b.name = s := by
  have found := List.find?_some h
  exact beq_iff_eq.mp found

/-- What keeps a function from giving a value. -/
inductive Mishap where
  | argumentCount
  | outsideDomain
  | outOfRange
  | zeroDivision
  deriving DecidableEq, Repr

/-- A value that no function gives inside its domain. -/
def defined (x : Float) : Except Mishap Float := if x.isNaN then .error .outsideDomain else .ok x

/-- The square root; a negative argument is outside its domain, a negative zero is not. -/
def root (x : Float) : Except Mishap Float :=
  if x < 0 then .error .outsideDomain else defined x.sqrt

/-- The natural logarithm of a positive number. -/
def logarithm (x : Float) : Except Mishap Float :=
  if x ≤ 0 then .error .outsideDomain else defined x.log

/-- A power. It is infinite where zero is divided by, which is outside the domain, or where the
value is out of range. -/
def power (x y : Float) : Except Mishap Float :=
  let z := x.pow y
  if z.isNaN then .error .outsideDomain
  else if z.isInf then .error (if x == 0 then .outsideDomain else .outOfRange)
  else .ok z

/-- The logarithm of `x` to the base `b`. -/
def logarithmTo (b x : Float) : Except Mishap Float := do
  let numerator ← logarithm x
  let denominator ← logarithm b
  if denominator == 0 then .error .zeroDivision else .ok (numerator / denominator)

/-- Applies a function to its arguments. Only the logarithm takes a second one if given: its
base. -/
def apply : Builtin → List Float → Except Mishap Float
  | sin, [x] => defined x.sin
  | cos, [x] => defined x.cos
  | tan, [x] => defined x.tan
  | sqrt, [x] => root x
  | ln, [x] => logarithm x
  | ln, [x, b] => logarithmTo b x
  | pow, [x, y] => power x y
  | abs, [x] => .ok x.abs
  | _, _ => .error .argumentCount

/-- The problem that a mishap is for the function called `name`. -/
def Mishap.problem (name : String) (args : List Float) : Mishap → Problem
  | argumentCount => .fault .argumentCount
  | outsideDomain => .failure (.refused name args .outsideDomain)
  | outOfRange => .failure (.refused name args .outOfRange)
  | zeroDivision => .fault .zeroDivision

end Builtin
end Reckon
