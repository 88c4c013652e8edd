import Reckon.Context
import Reckon.Expr
import Reckon.Token
import Reckon.Token.Arguments

/-!
Building trees from tokens. Operators and opening brackets wait on one stack, finished trees on
another; an operator takes its two trees when one that binds no tighter arrives, when its bracket
closes, or at the end. The calls of a sequence are built before the sequence, and their problems
surface in reading order. Precedences without an order among them are a fault where two have to be
compared.
-/

namespace Reckon

/-- What a token brings to the sequence it stands in: a tree, or the problem of building one, or a
sign. -/
inductive Piece where
  | tree (built : Except Problem Expr)
  | symbol (s : Symbol) (pos : Int)

def Piece.symbol? : Piece → Option Symbol
  | symbol s _ => some s
  | tree _ => none

/-- What waits for its right side: an operator, or an opening bracket. -/
inductive Waiting where
  | operator (op : Operator) (pos : Int)
  | bracket (pos : Int)
  deriving DecidableEq, Repr

/-- The two stacks, each with its latest element first. -/
structure Stacks where
  waiting : List Waiting
  trees : List Expr

namespace Stacks

def empty : Stacks := ⟨[], []⟩

/-- Joins the two latest trees by an operator. -/
def join (op : Operator) (pos : Int) : List Expr → Except Problem (List Expr)
  | right :: left :: rest => .ok (Expr.binary op left right :: rest)
  | _ => fail (.missingOperand op.text pos)

/-- Joins by the waiting operators that are reduced before `incoming` is pushed. -/
def reduce (ctx : Context) (incoming : Operator) :
    List Waiting → List Expr → Except Problem Stacks
  | .operator op pos :: ws, ts =>
    match ctx.reduces op incoming with
    | some true => do reduce ctx incoming ws (← join op pos ts)
    | some false => .ok ⟨.operator op pos :: ws, ts⟩
    | none => .error (.fault .wrongType)
  | ws, ts => .ok ⟨ws, ts⟩

/-- Joins by all operators back to the latest opening bracket, and drops the bracket. -/
def close (pos : Int) : List Waiting → List Expr → Except Problem Stacks
  | [], _ => fail (.unmatchedClose pos)
  | .bracket _ :: ws, ts => .ok ⟨ws, ts⟩
  | .operator op p :: ws, ts => do close pos ws (← join op p ts)

/-- Takes one piece. -/
def push (ctx : Context) (s : Stacks) : Piece → Except Problem Stacks
  | .tree built => built.map fun t => { s with trees := t :: s.trees }
  | .symbol .opening pos => .ok { s with waiting := .bracket pos :: s.waiting }
  | .symbol .closing pos => close pos s.waiting s.trees
  | .symbol (.operator op) pos => do
    let s ← reduce ctx op s.waiting s.trees
    .ok { s with waiting := .operator op pos :: s.waiting }

/-- Takes the pieces in reading order. -/
def pushAll (ctx : Context) : Stacks → List Piece → Except Problem Stacks
  | s, [] => .ok s
  | s, p :: ps => do pushAll ctx (← s.push ctx p) ps

/-- Joins by all that waits; one tree must be left. -/
def finish : List Waiting → List Expr → Except Problem Expr
  | .bracket pos :: _, _ => fail (.malformed (.neverClosed pos))
  | .operator op pos :: ws, ts => do finish ws (← join op pos ts)
  | [], [t] => .ok t
  | [], [] => fail (.malformed .empty)
  | [], ts => fail (.malformed (.severalTrees ts.length))

end Stacks

namespace Context

/-- The tree of a sequence of pieces. -/
def reduceAll (ctx : Context) (pieces : List Piece) : Except Problem Expr := do
  let s ← Stacks.pushAll ctx .empty pieces
  Stacks.finish s.waiting s.trees

/-- The tree of each sequence, up to the first that fails. -/
def reduceEach (ctx : Context) : List (List Piece) → Except Problem (List Expr)
  | [] => .ok []
  | g :: gs => do
    let t ← ctx.reduceAll g
    let ts ← ctx.reduceEach gs
    .ok (t :: ts)

/-- The tree of a call with these argument pieces. Its arguments are built, then counted. -/
def buildCall (ctx : Context) (f : FunctionName) (pos : Int) (args : List Piece) :
    Except Problem Expr :=
  match Arguments.split? Piece.symbol? args with
  | none => fail (.malformed (.notEnclosed f.text pos))
  | some groups => do
    let trees ← ctx.reduceEach groups
    match ctx.wrongCount? f trees.length with
    | some lack => fail (.unsupported f.text lack (some pos))
    | none => .ok (.call f trees)

mutual

/-- The piece of a token. -/
def piece (ctx : Context) : Token → Piece
  | .operand x _ => .tree (.ok (.operand x))
  | .symbol s pos => .symbol s pos
  | .call f args pos => .tree (ctx.buildCall f pos (ctx.pieces args))

def pieces (ctx : Context) : List Token → List Piece
  | [] => []
  | t :: ts => ctx.piece t :: ctx.pieces ts

end

/-- The tree of a token sequence. -/
def build (ctx : Context) (tokens : List Token) : Except Problem Expr :=
  ctx.reduceAll (ctx.pieces tokens)

end Context
end Reckon
