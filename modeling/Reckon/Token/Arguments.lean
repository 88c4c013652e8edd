import Reckon.Symbol

/-!
Splitting a call's argument tokens. They are enclosed in one bracket pair; inside it, an argument
ends where something that ends an operand is directly followed by something that starts one. The
functions work on sequences of anything that may be a sign.
-/

namespace Reckon.Arguments

variable {α : Type} (symbol? : α → Option Symbol)

/-- The bracket depth after an element. -/
def after (depth : Int) (x : α) : Int :=
  match symbol? x with
  | some .opening => depth + 1
  | some .closing => depth - 1
  | _ => depth

/-- Whether an operand can end with this element. -/
def endsOperand (x : α) : Bool :=
  match symbol? x with
  | none | some .closing => true
  | _ => false

/-- Whether an operand can start with this element. -/
def startsOperand (x : α) : Bool :=
  match symbol? x with
  | none | some .opening => true
  | _ => false

/-- Whether the depth first returns to zero at the last element. -/
def closesAtEnd (depth : Int) : List α → Bool
  | [] => false
  | x :: xs =>
    let depth := after symbol? depth x
    if depth = 0 then xs.isEmpty else closesAtEnd depth xs

/-- Whether the elements are one bracket pair with its contents. -/
def enclosed : List α → Bool
  | [] => false
  | x :: xs => symbol? x == some .opening && closesAtEnd symbol? 0 (x :: xs)

/-- What follows `previous` in its group at `depth`, and the groups after it. -/
def groupsAfter (previous : α) (depth : Int) : List α → List α × List (List α)
  | [] => ([], [])
  | x :: xs =>
    let (group, groups) := groupsAfter x (after symbol? depth x) xs
    if depth = 0 ∧ endsOperand symbol? previous ∧ startsOperand symbol? x then
      ([], (x :: group) :: groups)
    else (x :: group, groups)

/-- The groups of a sequence, one for each argument. -/
def groups : List α → List (List α)
  | [] => []
  | x :: xs =>
    let (group, rest) := groupsAfter symbol? x (after symbol? 0 x) xs
    (x :: group) :: rest

/-- The arguments of a call: none for no tokens at all, the groups inside the bracket pair, or
`none` when there is no such pair. -/
def split? (xs : List α) : Option (List (List α)) :=
  if xs.isEmpty then some []
  else if enclosed symbol? xs then some (groups symbol? xs.tail.dropLast)
  else none

end Reckon.Arguments
