import Reckon.Token

/-!
Nesting: the tokens read so far, with the calls that are still open. A function name opens a call
at once; the call keeps its arguments only if a bracket follows, and ends with that bracket's match.
-/

namespace Reckon

/-- A call that has not ended. -/
structure OpenCall where
  function : FunctionName
  pos : Int
  /-- The brackets open inside it; none before its first. -/
  depth : Nat
  /-- Its argument tokens, the latest first. -/
  args : List Token

/-- The open calls, the innermost first, and the tokens outside them, the latest first. -/
structure Nest where
  calls : List OpenCall
  tokens : List Token

namespace OpenCall

def token (c : OpenCall) : Token := .call c.function c.args.reverse c.pos

end OpenCall

namespace Nest

def empty : Nest := ⟨[], []⟩

/-- Appends a token to the innermost call, or to the tokens outside. -/
def append (t : Token) : Nest → Nest
  | ⟨[], ts⟩ => ⟨[], t :: ts⟩
  | ⟨c :: cs, ts⟩ => ⟨{ c with args := t :: c.args } :: cs, ts⟩

/-- Ends a name that no opening bracket follows: it is a call without arguments. -/
def settle : Nest → Nest
  | ⟨c :: cs, ts⟩ => if c.depth = 0 then append c.token ⟨cs, ts⟩ else ⟨c :: cs, ts⟩
  | n => n

/-- Opens a bracket: the innermost call's first, or one more inside it. -/
def opening (pos : Int) : Nest → Nest
  | ⟨c :: cs, ts⟩ =>
    ⟨{ c with depth := c.depth + 1, args := .symbol .opening pos :: c.args } :: cs, ts⟩
  | n => n.append (.symbol .opening pos)

/-- Takes one bracket off the innermost call, and ends the call with its last. -/
def lower : Nest → Nest
  | ⟨c :: cs, ts⟩ =>
    if c.depth = 1 then append c.token ⟨cs, ts⟩ else ⟨{ c with depth := c.depth - 1 } :: cs, ts⟩
  | n => n

/-- A sign at `pos`. -/
def symbol (s : Symbol) (pos : Int) (n : Nest) : Nest :=
  match s with
  | .opening => n.opening pos
  | .closing => (n.settle.append (.symbol .closing pos)).lower
  | .operator op => n.settle.append (.symbol (.operator op) pos)

/-- A number at `pos`. -/
def operand (value : Float) (pos : Int) (n : Nest) : Nest := n.settle.append (.operand value pos)

/-- A function name at `pos`. -/
def call (f : FunctionName) (pos : Int) (n : Nest) : Nest :=
  let settled := n.settle
  { settled with calls := ⟨f, pos, 0, []⟩ :: settled.calls }

/-- Ends the calls from the innermost out, each as the last argument of the next. -/
def endCalls (last : List Token) : List OpenCall → List Token
  | [] => last
  | c :: cs => endCalls [{ c with args := last ++ c.args : OpenCall }.token] cs

/-- All tokens in reading order; calls still open end here. -/
def finish (n : Nest) : List Token := (endCalls [] n.calls ++ n.tokens).reverse

end Nest
end Reckon
