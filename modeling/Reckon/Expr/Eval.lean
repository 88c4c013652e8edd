import Reckon.Context
import Reckon.Expr

/-!
Evaluating a tree in doubles, from left to right. Every value that passes from one node to another
is finite, and the first node that has none decides the outcome.
-/

namespace Reckon

/-- A value that is finite, or the refusal to give one for these arguments. -/
def inRange (name : String) (args : List Float) (x : Float) : Except Problem Float :=
  if x.isFinite then .ok x else fail (.refused name args .outOfRange)

/-- The quotient: a divisor inside the zero band is a failure, a zero outside it a fault. -/
def quotient (epsilon x y : Float) : Except Problem Float :=
  if y.abs < epsilon then fail (.divisionByZero y)
  else if y == 0 then .error (.fault .zeroDivision)
  else .ok (x / y)

/-- The value of an operator at two values, before its range is checked. -/
def Operator.value (op : Operator) (epsilon x y : Float) : Except Problem Float :=
  match op with
  | add => .ok (x + y)
  | sub => .ok (x - y)
  | mul => .ok (x * y)
  | div => quotient epsilon x y

/-- The value of a node's symbol at two values. -/
def Symbol.value (s : Symbol) (epsilon x y : Float) : Except Problem Float :=
  match s with
  | operator op => do inRange op.text [x, y] (← op.value epsilon x y)
  | _ => .error (.fault (.notEvaluable s))

/-- The value of a builtin under the name of the function it is bound to. -/
def Builtin.value (b : Builtin) (name : String) (args : List Float) : Except Problem Float :=
  match b.apply args with
  | .ok x => inRange name args x
  | .error mishap => .error (mishap.problem name args)

/-- The builtin that a call of `f` applies to `given` arguments. -/
def Context.builtin (ctx : Context) (f : FunctionName) (given : Nat) : Except Failure Builtin :=
  match (ctx.entry? f).bind FunctionEntry.builtin with
  | none => .error (.unsupported f.text .notImplemented none)
  | some b =>
    match ctx.wrongCount? f given with
    | some lack => .error (.unsupported f.text lack none)
    | none => .ok b

namespace Expr

mutual

/-- The value of a tree. A function is looked up before its arguments are evaluated. -/
def eval (ctx : Context) : Expr → Except Problem Float
  | operand x =>
    if x.isFinite then .ok x else fail (.refused "operand" [x] .notFinite)
  | node s l r => do
    let x ← l.eval ctx
    let y ← r.eval ctx
    s.value ctx.epsilon x y
  | call f args =>
    match ctx.builtin f args.length with
    | .error failure => fail failure
    | .ok b => do b.value f.text (← evalAll ctx args)

/-- The values of trees, up to the first that has none. -/
def evalAll (ctx : Context) : List Expr → Except Problem (List Float)
  | [] => .ok []
  | e :: es => do
    let x ← e.eval ctx
    let xs ← evalAll ctx es
    .ok (x :: xs)

end

end Expr
end Reckon
