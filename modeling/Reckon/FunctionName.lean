/-!
The names of functions that an expression may use, in any mixture of capital and small letters.
-/

namespace Reckon

/-- A function of expressions. The last five are reserved: they are read but compute nothing of
their own. -/
inductive FunctionName where
  | sin
  | cos
  | tan
  | sqrt
  | ln
  | pow
  | abs
  | area
  | perimeter
  | x
  | y
  | z
  deriving DecidableEq, Repr

namespace FunctionName

/-- The name in small letters, which is also its key in a context. -/
def text : FunctionName → String
  | sin => "sin"
  | cos => "cos"
  | tan => "tan"
  | sqrt => "sqrt"
  | ln => "ln"
  | pow => "pow"
  | abs => "abs"
  | area => "area"
  | perimeter => "perimeter"
  | x => "x"
  | y => "y"
  | z => "z"

def all : List FunctionName :=
  [sin, cos, tan, sqrt, ln, pow, abs, area, perimeter, x, y, z]

theorem mem_all (f : FunctionName) : f ∈ all := by cases f <;> decide

/-- Finds a name whatever the case of its ASCII letters. No other character has one of the letters
of these names as its small form. -/
def lookup? (s : String) : Option FunctionName :=
  let small := s.toList.map Char.toLower
  all.find? fun f => f.text.toList == small

theorem lookup?_text (f : FunctionName) : lookup? f.text = some f := by cases f <;> decide

theorem text_of_lookup? {s : String} {f : FunctionName} (h : lookup? s = some f) :
    s.toList.map Char.toLower = f.text.toList := by
  have found := List.find?_some h
  exact (beq_iff_eq.mp found).symm

end FunctionName
end Reckon
