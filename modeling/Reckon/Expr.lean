import Reckon.Failure

/-!
Expression trees. Only the builder's nodes have operators for symbols; a tree made by hand can hold
a bracket, which evaluation refuses.
-/

namespace Reckon

inductive Expr where
  | operand (value : Float)
  | node (symbol : Symbol) (left right : Expr)
  | call (function : FunctionName) (args : List Expr)
  deriving Inhabited

namespace Expr

/-- Joins two trees by an operator. -/
def binary (op : Operator) (left right : Expr) : Expr := .node (.operator op) left right

/-- Joins two trees by a symbol; a bracket cannot. -/
def join (s : Symbol) (left right : Expr) : Except Fault Expr :=
  match s with
  | .operator op => .ok (binary op left right)
  | _ => .error (.notBinary s)

mutual

/-- The number of nodes. -/
def size : Expr → Nat
  | operand _ => 1
  | node _ l r => 1 + (l.size + r.size)
  | call _ args => 1 + sizeAll args

def sizeAll : List Expr → Nat
  | [] => 0
  | e :: es => e.size + sizeAll es

end

mutual

/-- The number of nodes on the longest path down. -/
def depth : Expr → Nat
  | operand _ => 1
  | node _ l r => 1 + max l.depth r.depth
  | call _ args => 1 + depthAll args

/-- The greatest depth. -/
def depthAll : List Expr → Nat
  | [] => 0
  | e :: es => max e.depth (depthAll es)

end

mutual

/-- Equality of trees; values are compared as doubles. -/
def same : Expr → Expr → Bool
  | operand x, operand y => x == y
  | node s l r, node s' l' r' => s == s' && same l l' && same r r'
  | call f as, call g bs => f == g && sameAll as bs
  | _, _ => false

def sameAll : List Expr → List Expr → Bool
  | [], [] => true
  | a :: as, b :: bs => same a b && sameAll as bs
  | _, _ => false

end

mutual

/-- The tree as a term. -/
def describe : Expr → String
  | operand x => "OperandNode(" ++ Number.text x ++ ")"
  | node s l r =>
    "OperatorNode(" ++ l.describe ++ ", '" ++ s.text ++ "', " ++ r.describe ++ ")"
  | call f args =>
    "FunctionNode('" ++ f.text ++ "', [" ++ ", ".intercalate (describeEach args) ++ "])"

def describeEach : List Expr → List String
  | [] => []
  | e :: es => e.describe :: describeEach es

end

end Expr
end Reckon
