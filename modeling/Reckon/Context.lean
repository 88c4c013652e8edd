import Reckon.Builtin
import Reckon.Data.Order
import Reckon.Text.Case

/-!
Contexts: the operators, functions, separators, zero band and flags under which an expression is
read, evaluated and written. A context file may put any value where a precedence or an arity
belongs; whole numbers are what they are meant to be. Main statement: two operators whose
precedences are whole numbers are compared by them (`reduces_int`).
-/

namespace Reckon

inductive Associativity where
  | left
  | right
  deriving DecidableEq, Repr

/-- How tightly an operator binds, and which way a chain of equals leans. -/
structure OperatorRule where
  precedence : Data
  associativity : Associativity

/-- A function known to a context. With a null arity it takes any number of arguments; without a
builtin it computes nothing. -/
structure FunctionEntry where
  arity : Data
  builtin : Option Builtin

/-- A rule with the key it is entered under and the symbol it names. -/
structure OperatorEntry where
  key : Data
  symbol : Data
  rule : OperatorRule

structure Context where
  name : Data
  /-- Rules by operator sign. -/
  operators : Table OperatorRule
  /-- Rules under keys that are no text, so that no expression can name them. -/
  strays : List OperatorEntry
  /-- Entries by name in small letters. -/
  functions : Table FunctionEntry
  /-- The characters that end a run and stand for nothing. -/
  separators : Data
  /-- Divisors of smaller magnitude count as zero. -/
  epsilon : Float
  flags : Table Data
  /-- Flags under keys that are no text, so that no name finds them. -/
  strayFlags : List (Data × Data)

/-- What is shown of a context's tables, each in the order of its keys. -/
structure Listing where
  operators : List OperatorEntry
  functions : Table FunctionEntry
  flags : Table Data

namespace Associativity

def name : Associativity → String
  | left => "left"
  | right => "right"

def ofName? : String → Option Associativity
  | "left" => some left
  | "right" => some right
  | _ => none

end Associativity

namespace FunctionEntry

/-- Whether a call may have this many arguments. -/
def takes (entry : FunctionEntry) (given : Nat) : Bool :=
  entry.arity.same .null || entry.arity.same (.int given)

theorem takes_int {entry : FunctionEntry} {n : Int} (h : entry.arity = .int n) (given : Nat) :
    entry.takes given = decide (n = given) := by
  simp only [takes, h, Data.same_int]
  simp [Data.same, Data.sameAmount, Data.amount?]

end FunctionEntry

namespace Context

/-- The flag that lets a call stand among the arguments of another. -/
def nestingFlag : String := "nested_functions"

/-- Two levels of left-leaning operators, every builtin under its own name, and the reserved names
without implementation. -/
def standard : Context where
  name := .text "Standard"
  operators := [
    ("+", ⟨.int 1, .left⟩), ("-", ⟨.int 1, .left⟩), ("*", ⟨.int 2, .left⟩),
    ("/", ⟨.int 2, .left⟩)]
  strays := []
  functions :=
    Builtin.all.map (fun b => (b.name, ⟨.int b.arity, some b⟩)) ++
      ["area", "perimeter", "x", "y", "z"].map (·, ⟨.null, none⟩)
  separators := .text " \t\r\n,"
  epsilon := 2.220446049250313e-16
  flags := [(nestingFlag, .bool true)]
  strayFlags := []

/-- The precedence of an operator sign; that of an unknown one is zero. -/
def precedence (ctx : Context) (sign : String) : Data :=
  (ctx.operators.value? sign).elim (.int 0) OperatorRule.precedence

/-- The associativity of an operator sign; an unknown one leans left. -/
def associativity (ctx : Context) (sign : String) : Associativity :=
  (ctx.operators.value? sign).elim .left OperatorRule.associativity

/-- Whether an operator that waits for its right operand takes it before `incoming` does: it binds
tighter, or as tight when `incoming` leans left. Precedences without an order decide nothing. -/
def reduces (ctx : Context) (waiting incoming : Operator) : Option Bool :=
  ((ctx.precedence waiting.text).relation? (ctx.precedence incoming.text)).map fun r =>
    match ctx.associativity incoming.text with
    | .right => r == .greater
    | .left => r == .greater || r == .equal

theorem reduces_int {ctx : Context} {waiting incoming : Operator} {p q : Int}
    (hp : ctx.precedence waiting.text = .int p) (hq : ctx.precedence incoming.text = .int q) :
    ctx.reduces waiting incoming =
      some (match ctx.associativity incoming.text with
        | .right => decide (q < p)
        | .left => decide (q ≤ p)) := by
  simp only [reduces, hp, hq, Data.relation?_int, Option.map_some, Relation.ofInts]
  have key : p < q ∨ p = q ∨ q < p := by omega
  rcases key with h | h | h
  · have h₁ : ¬ q < p := by omega
    have h₂ : ¬ q ≤ p := by omega
    cases ctx.associativity incoming.text <;> simp [h, h₁, h₂]
  · subst h
    cases ctx.associativity incoming.text <;> simp
  · have h₁ : ¬ p < q := by omega
    have h₂ : p ≠ q := by omega
    cases ctx.associativity incoming.text <;> simp [h, h₁, h₂, Int.le_of_lt h]

/-- Whether one entry does not come after another. -/
def entryBefore (a b : OperatorEntry) : Bool :=
  match a.key.relation? b.key with
  | some .less | some .equal => true
  | _ => false

/-- All rules in the order of their keys. Keys that have no order among them cannot be listed. -/
def rules (ctx : Context) : Except Fault (List OperatorEntry) :=
  let named := ctx.operators.sorted.map fun (sign, rule) => ⟨.text sign, .text sign, rule⟩
  if ctx.strays.isEmpty then .ok named
  else if named.isEmpty && (ctx.strays.length == 1 || ctx.strays.all (·.key.amount?.isSome)) then
    .ok (ctx.strays.mergeSort entryBefore)
  else .error .wrongType

/-- The listing of a context. Flags always have texts among their keys, and no other key has an
order among texts. -/
def listing (ctx : Context) : Except Fault Listing := do
  let operators ← ctx.rules
  if ctx.strayFlags.isEmpty then .ok ⟨operators, ctx.functions.sorted, ctx.flags.sorted⟩
  else .error .wrongType

/-- The entry of a function name in any case. -/
def function? (ctx : Context) (name : String) : Option FunctionEntry :=
  ctx.functions.value? (Text.small name)

/-- The entry of a name that an expression used; it is in small letters already. -/
def entry? (ctx : Context) (f : FunctionName) : Option FunctionEntry :=
  ctx.functions.value? f.text

def flag? (ctx : Context) (name : String) : Option Data := ctx.flags.value? name

/-- Whether a call may stand among the arguments of another: unless the flag says no. -/
def nests (ctx : Context) : Bool := (ctx.flag? nestingFlag).elim true Data.truthy

def setFlag (ctx : Context) (name : String) (value : Data) : Context :=
  { ctx with flags := ctx.flags.put name value }

/-- What is wrong with the count of arguments in a call of `f`, if anything is. -/
def wrongCount? (ctx : Context) (f : FunctionName) (given : Nat) : Option Lack :=
  (ctx.entry? f).bind fun entry =>
    if entry.takes given then none else some (.argumentCount entry.arity given)

end Context
end Reckon
