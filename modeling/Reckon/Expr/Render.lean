import Reckon.Context
import Reckon.Expr

/-!
Writing a tree as infix text. Operands are written without exponents, and a child is bracketed where
the precedences alone would read otherwise.
-/

namespace Reckon

namespace Number

/-- An absolute value without exponent: a whole number digit for digit, any other by its shortest
decimal. -/
def plainDigits (mantissa : Nat) (exponent : Int) : List Char :=
  match Binary.whole? mantissa exponent with
  | some n => Nat.toDigits 10 n
  | none => (shortest mantissa exponent).positional

/-- An operand's text. A zero has no sign. -/
def plain (x : Float) : String :=
  match Binary.ofFloat x with
  | .nan => "NaN"
  | .infinite negative => String.ofList (Layout.sign negative ++ "Infinity".toList)
  | .finite negative m q => String.ofList (Layout.sign (negative && m != 0) ++ plainDigits m q)

example : plain 7.0 = "7" := by decide +kernel
example : plain (-0.0) = "0" := by decide +kernel
example : plain (-2.5) = "-2.5" := by decide +kernel
example : plain 1e23 = "99999999999999991611392" := by decide +kernel
example : plain 1e-7 = "0.0000001" := by decide +kernel

end Number

namespace Context

/-- The precedence of a node for bracketing: that of its symbol, or zero for a leaf or a call. -/
def bindingOf (ctx : Context) : Expr → Data
  | .node s _ _ => ctx.precedence s.text
  | _ => .int 0

/-- Whether a child is bracketed: its precedence is above zero, and stands to its parent's in a way
that `asks` for it. -/
def brackets? (asks : Relation → Bool) (child parent : Data) : Option Bool :=
  (child.relation? (.int 0)).bind fun r =>
    if r == .greater then (child.relation? parent).map asks else some false

/-- Whether a left child is bracketed: when it binds looser than its parent. -/
def bracketsLeft? : Data → Data → Option Bool := brackets? (· == .less)

/-- Whether a right child is bracketed: when it binds no tighter than its parent. -/
def bracketsRight? : Data → Data → Option Bool := brackets? fun r => r == .less || r == .equal

end Context

/-- A text, in brackets if they are asked for. -/
def bracketed (asked : Option Bool) (s : String) : String :=
  if asked = some true then "(" ++ s ++ ")" else s

namespace Expr

mutual

/-- The tree as infix text, without brackets where none can be decided on. -/
def written (ctx : Context) : Expr → String
  | operand x => Number.plain x
  | node s l r =>
    let parent := ctx.precedence s.text
    bracketed (Context.bracketsLeft? (ctx.bindingOf l) parent) (l.written ctx) ++ " " ++ s.text ++
      " " ++ bracketed (Context.bracketsRight? (ctx.bindingOf r) parent) (r.written ctx)
  | call f args => f.text ++ "(" ++ ", ".intercalate (writtenEach ctx args) ++ ")"

def writtenEach (ctx : Context) : List Expr → List String
  | [] => []
  | e :: es => e.written ctx :: writtenEach ctx es

end

mutual

/-- Whether the context's precedences decide on every bracket. -/
def decided (ctx : Context) : Expr → Bool
  | operand _ => true
  | node s l r =>
    let parent := ctx.precedence s.text
    (Context.bracketsLeft? (ctx.bindingOf l) parent).isSome &&
      (Context.bracketsRight? (ctx.bindingOf r) parent).isSome && l.decided ctx && r.decided ctx
  | call _ args => decidedAll ctx args

def decidedAll (ctx : Context) : List Expr → Bool
  | [] => true
  | e :: es => e.decided ctx && decidedAll ctx es

end

/-- The tree as infix text. Precedences without an order are a fault where a bracket hangs on
them. -/
def render (ctx : Context) (e : Expr) : Except Fault String :=
  if e.decided ctx then .ok (e.written ctx) else .error .wrongType

end Expr
end Reckon
