import Reckon.FunctionName
import Reckon.Number.Layout
import Reckon.Symbol

/-!
Tokens: what an expression reads as. A call holds the tokens of its arguments, brackets included.
-/

namespace Reckon

inductive Token where
  | operand (value : Float) (pos : Int)
  | symbol (symbol : Symbol) (pos : Int)
  | call (function : FunctionName) (args : List Token) (pos : Int)
  deriving Inhabited

namespace Token

/-- Where the token's text begins. -/
def pos : Token → Int
  | operand _ pos => pos
  | symbol _ pos => pos
  | call _ _ pos => pos

/-- The sign that the token is, if it is one. -/
def symbol? : Token → Option Symbol
  | symbol s _ => some s
  | _ => none

mutual

/-- Equality up to positions; values are compared as doubles. -/
def same : Token → Token → Bool
  | operand x _, operand y _ => x == y
  | symbol s _, symbol t _ => s == t
  | call f as _, call g bs _ => f == g && sameAll as bs
  | _, _ => false

def sameAll : List Token → List Token → Bool
  | [], [] => true
  | a :: as, b :: bs => same a b && sameAll as bs
  | _, _ => false

end

mutual

/-- The token as a term. -/
def describe : Token → String
  | operand x _ => "Operand(" ++ Number.text x ++ ")"
  | symbol s _ => "Operator('" ++ s.text ++ "')"
  | call f args _ =>
    "Function('" ++ f.text ++ "', [" ++ ", ".intercalate (describeEach args) ++ "])"

def describeEach : List Token → List String
  | [] => []
  | t :: ts => describe t :: describeEach ts

end

/-- A token sequence as a term. -/
def describeAll (ts : List Token) : String := "[" ++ ", ".intercalate (describeEach ts) ++ "]"

end Token
end Reckon
