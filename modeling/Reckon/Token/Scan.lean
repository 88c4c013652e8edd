import Reckon.Token.Literal
import Reckon.Token.Nest

/-!
Scanning: one pass over the characters of an expression. Characters that are neither separators nor
signs gather into a run, which is a function name or a literal once a separator or sign ends it.
-/

namespace Reckon

/-- How a text is cut: which characters separate, and whether calls may nest. -/
structure Lexis where
  separates : Char → Bool
  nests : Bool

/-- The state of a scan: the tokens so far and the unfinished run, its latest character first. -/
structure Scan where
  nest : Nest
  run : List Char
  start : Nat

namespace Scan

def initial : Scan := ⟨.empty, [], 0⟩

/-- Reads a whole run that begins at `pos`. Where calls may not nest, a name inside an open call is
malformed. -/
def word (nests : Bool) (raw : String) (pos : Nat) (n : Nest) : Except Failure Nest :=
  match FunctionName.lookup? raw with
  | none => (literal raw (some (pos : Int))).map fun value => n.operand value pos
  | some f =>
    if !nests && !n.calls.isEmpty then .error (.malformedOperand raw (some (pos : Int)))
    else .ok (n.call f pos)

/-- Ends the run, if one is open. -/
def flush (nests : Bool) (s : Scan) : Except Failure Scan :=
  if s.run.isEmpty then .ok s
  else
    (word nests (String.ofList s.run.reverse) s.start s.nest).map fun n =>
      { s with nest := n, run := [] }

/-- Takes the character at `pos`. A separator is one even if it is a sign too. -/
def feed (lexis : Lexis) (s : Scan) (pos : Nat) (c : Char) : Except Failure Scan :=
  if lexis.separates c then s.flush lexis.nests
  else
    match Symbol.ofChar? c with
    | some sign => (s.flush lexis.nests).map fun s => { s with nest := s.nest.symbol sign pos }
    | none => .ok { s with run := c :: s.run, start := if s.run.isEmpty then pos else s.start }

/-- Takes the characters from `pos` on, and ends the scan. -/
def consume (lexis : Lexis) : Nat → List Char → Scan → Except Failure (List Token)
  | _, [], s => (s.flush lexis.nests).map fun s => s.nest.finish
  | pos, c :: cs, s => do consume lexis (pos + 1) cs (← s.feed lexis pos c)

end Scan

/-- The tokens of an expression. -/
def Lexis.scan (lexis : Lexis) (cs : List Char) : Except Failure (List Token) :=
  Scan.consume lexis 0 cs .initial

end Reckon
