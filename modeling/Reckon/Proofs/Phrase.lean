import Reckon.Proofs.Numeral
import Reckon.Proofs.Reading

/-!
Phrases: the textbook grammar of expressions, a sum of terms, a term of factors, a factor a literal,
a sum in brackets or a call, and the textbook meaning of it. Each tier is folded from left to
right, whatever a phrase is made of is evaluated before the phrase, and the first operation that has
no finite value decides the outcome.
-/

namespace Reckon

/-- The tiers of the grammar: sums are made of terms, and terms of factors. -/
inductive Tier where
  | sum
  | term
  | factor
  deriving DecidableEq, Repr

/-- The tier of the phrases that an operator stands between. -/
def Operator.joins : Operator → Tier
  | .add | .sub => .term
  | .mul | .div => .factor

/-- Digits with at most one point among them, whose value is finite. -/
structure Literal where
  whole : List Char
  /-- The digits after the point, if there is one. -/
  fraction : Option (List Char)
  digits : ∀ c ∈ whole ++ fraction.getD [], c.isDigit = true
  nonempty : whole ++ fraction.getD [] ≠ []
  finite : (Float.ofScientific (Number.digitsValue (whole ++ fraction.getD [])) true
    (fraction.getD []).length).isFinite = true

namespace Literal

def chars (l : Literal) : List Char := Number.Numeral.written l.whole l.fraction

/-- The double nearest to what the digits write. -/
def value (l : Literal) : Float :=
  Float.ofScientific (Number.digitsValue (l.whole ++ l.fraction.getD [])) true
    (l.fraction.getD []).length

end Literal

/-- The name of a builtin in any mixture of capital and small letters. -/
structure Name where
  builtin : Builtin
  chars : List Char
  spelled : chars.map Char.toLower = builtin.name.toList

/-- How many arguments the builtin of a name takes. -/
def Name.arity (n : Name) : Nat := n.builtin.arity.toNat

mutual

/-- The phrases of a tier. -/
inductive Phrase : Tier → Type where
  | literal (l : Literal) : Phrase .factor
  | bracketed (e : Phrase .sum) : Phrase .factor
  | call (name : Name) (args : Phrases name.arity) : Phrase .factor
  | term (first : Phrase .factor) (rest : Links .factor) : Phrase .term
  | sum (first : Phrase .term) (rest : Links .term) : Phrase .sum

/-- What follows the first phrase of a chain: operators of the chain's tier, each with a phrase
after it. -/
inductive Links : Tier → Type where
  | done {l : Tier} : Links l
  | more {l : Tier} (op : Operator) (joins : op.joins = l) (next : Phrase l) (rest : Links l) :
    Links l

/-- A number of sums. -/
inductive Phrases : Nat → Type where
  | none : Phrases 0
  | more {n : Nat} (first : Phrase .sum) (rest : Phrases n) : Phrases (n + 1)

end

/-! ## The text -/

mutual

/-- The lexemes of a phrase. -/
def Phrase.marks : {l : Tier} → Phrase l → List Mark
  | _, .literal l => [.run l.chars]
  | _, .bracketed e => .sign .opening :: (e.marks ++ [.sign .closing])
  | _, .call name args => .run name.chars :: .sign .opening :: (args.marks ++ [.sign .closing])
  | _, .term first rest => first.marks ++ rest.marks
  | _, .sum first rest => first.marks ++ rest.marks

def Links.marks : {l : Tier} → Links l → List Mark
  | _, .done => []
  | _, .more op _ next rest => .sign (.operator op) :: (next.marks ++ rest.marks)

def Phrases.marks : {n : Nat} → Phrases n → List Mark
  | _, .none => []
  | _, .more first rest => first.marks ++ rest.marks

end

/-! ## The meaning -/

/-- A result, if it is finite. -/
def finiteOr (f : Failure) (x : Float) : Except Failure Float :=
  if x.isFinite then .ok x else .error f

/-- The value of an operator at two values. Divisors inside the zero band of the standard context
are refused. -/
def Operator.reckon (op : Operator) (x y : Float) : Except Failure Float :=
  let outOfRange : Failure := .refused op.text [x, y] .outOfRange
  match op with
  | .add => finiteOr outOfRange (x + y)
  | .sub => finiteOr outOfRange (x - y)
  | .mul => finiteOr outOfRange (x * y)
  | .div =>
    if y.abs < Context.standard.epsilon then .error (.divisionByZero y)
    else finiteOr outOfRange (x / y)

/-- The value of a builtin at its arguments: what it gives, if it gives a finite number inside its
domain. -/
def Builtin.reckon (b : Builtin) (args : List Float) : Except Failure Float :=
  match b.apply args with
  | .ok x => finiteOr (.refused b.name args .outOfRange) x
  | .error .outOfRange => .error (.refused b.name args .outOfRange)
  | .error _ => .error (.refused b.name args .outsideDomain)

mutual

/-- The value of a phrase. -/
def Phrase.value : {l : Tier} → Phrase l → Except Failure Float
  | _, .literal l => .ok l.value
  | _, .bracketed e => e.value
  | _, .call name args => do name.builtin.reckon (← args.values)
  | _, .term first rest => do rest.fold (← first.value)
  | _, .sum first rest => do rest.fold (← first.value)

/-- Goes on from the value of what comes before, from left to right. -/
def Links.fold : {l : Tier} → Links l → Float → Except Failure Float
  | _, .done, x => .ok x
  | _, .more op _ next rest, x => do
    let y ← next.value
    let z ← op.reckon x y
    rest.fold z

def Phrases.values : {n : Nat} → Phrases n → Except Failure (List Float)
  | _, .none => .ok []
  | _, .more first rest => do
    let x ← first.value
    let xs ← rest.values
    .ok (x :: xs)

end

/-! ## The grouping -/

/-- The name that an expression uses for a builtin. -/
def Builtin.function : Builtin → FunctionName
  | sin => .sin
  | cos => .cos
  | tan => .tan
  | sqrt => .sqrt
  | ln => .ln
  | pow => .pow
  | abs => .abs

mutual

/-- The phrase as an infix expression. -/
def Phrase.grouped : {l : Tier} → Phrase l → Infix
  | _, .literal l => .operand l.value 0
  | _, .bracketed e => .bracketed 0 e.grouped 0
  | _, .call name args => .call name.builtin.function
    (.symbol .opening 0 :: (args.grouped.flatMap Infix.tokens ++ [.symbol .closing 0])) 0
  | _, .term first rest => rest.grouped first.grouped
  | _, .sum first rest => rest.grouped first.grouped

/-- What comes before joined with each phrase in turn. -/
def Links.grouped : {l : Tier} → Links l → Infix → Infix
  | _, .done, e => e
  | _, .more op _ next rest, e => rest.grouped (.binary op 0 e next.grouped)

def Phrases.grouped : {n : Nat} → Phrases n → List Infix
  | _, .none => []
  | _, .more first rest => first.grouped :: rest.grouped

end

end Reckon
