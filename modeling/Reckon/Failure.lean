import Reckon.Data
import Reckon.FunctionName
import Reckon.Symbol

/-!
What can go wrong. A `Failure` is about the expression and belongs to the stages that report it; a
`Fault` is about the values the library was handed. Wording, text, position and details of a failure
are each one function of its cause.
-/

namespace Reckon

/-- The three stages of reckoning an expression. -/
inductive Stage where
  | tokenize
  | build
  | evaluate
  deriving DecidableEq, Repr

/-- Why a token sequence does not reduce to one tree. -/
inductive Flaw where
  | empty
  | severalTrees (count : Nat)
  | neverClosed (pos : Int)
  | notEnclosed (function : String) (pos : Int)

/-- Why a value is refused. -/
inductive Refusal where
  | notFinite
  | outsideDomain
  | outOfRange

/-- Why a function cannot be applied. -/
inductive Lack where
  | notImplemented
  /-- The expected count is what a context holds, so it can be any value. -/
  | argumentCount (expected : Data) (given : Nat)

/-- A failure of an expression. -/
inductive Failure where
  | malformedOperand (text : String) (pos : Option Int)
  | unknownFunction (text : String) (pos : Option Int)
  | unmatchedClose (pos : Int)
  | missingOperand (operator : String) (pos : Int)
  | malformed (flaw : Flaw)
  | divisionByZero (divisor : Float)
  | refused (function : String) (args : List Float) (why : Refusal)
  | unsupported (function : String) (lack : Lack) (pos : Option Int)

/-- The kinds of failure. -/
inductive Kind where
  | general
  | tokenize
  | malformedOperand
  | unknownFunction
  | build
  | unmatchedClose
  | missingOperand
  | malformed
  | evaluate
  | divisionByZero
  | refused
  | unsupported
  deriving DecidableEq, Repr

namespace Kind

def name : Kind → String
  | general => "ExpressionError"
  | tokenize => "TokenizeError"
  | malformedOperand => "MalformedOperand"
  | unknownFunction => "UnknownFunction"
  | build => "BuildError"
  | unmatchedClose => "UnmatchedCloseParen"
  | missingOperand => "InsufficientOperands"
  | malformed => "MalformedExpression"
  | evaluate => "EvalError"
  | divisionByZero => "DivisionByZero"
  | refused => "DomainError"
  | unsupported => "UnsupportedFunction"

/-- The stages that report a kind of failure. An unsupported function is found by two. -/
def stages : Kind → List Stage
  | general => []
  | tokenize | malformedOperand | unknownFunction => [.tokenize]
  | build | unmatchedClose | missingOperand | malformed => [.build]
  | evaluate | divisionByZero | refused => [.evaluate]
  | unsupported => [.build, .evaluate]

end Kind

def Refusal.reason : Refusal → String
  | notFinite => "not a finite number"
  | outsideDomain => "math domain error"
  | outOfRange => "result out of range"

def Lack.reason : Lack → String
  | notImplemented => "not implemented"
  | argumentCount expected given =>
    "expected " ++ expected.plain ++ s!" argument(s), got {given}"

def Flaw.message : Flaw → String
  | empty => "Empty expression"
  | severalTrees count => s!"Expression reduces to {count} trees instead of one"
  | neverClosed _ => "Opening parenthesis is never closed"
  | notEnclosed function _ => "Arguments of '" ++ function ++ "' are not enclosed in parentheses"

namespace Failure

def kind : Failure → Kind
  | malformedOperand .. => .malformedOperand
  | unknownFunction .. => .unknownFunction
  | unmatchedClose _ => .unmatchedClose
  | missingOperand .. => .missingOperand
  | malformed _ => .malformed
  | divisionByZero _ => .divisionByZero
  | refused .. => .refused
  | unsupported .. => .unsupported

/-- The wording of a refusal of these arguments. -/
def refusedWording (function : String) (args : List Data) (reason : String) : String :=
  function ++ Data.tuple args ++ ": " ++ reason

/-- The wording for a function that cannot be applied. -/
def unsupportedWording (function reason : String) : String :=
  "Unsupported function '" ++ function ++ "': " ++ reason

/-- What failed, without the position. -/
def plainMessage : Failure → String
  | malformedOperand text _ => "The operand '" ++ text ++ "' has an invalid format"
  | unknownFunction text _ => "Unknown function '" ++ text ++ "'"
  | unmatchedClose _ => "Closing parenthesis has no matching opening parenthesis"
  | missingOperand operator _ => "Operator '" ++ operator ++ "' is missing an operand"
  | malformed flaw => flaw.message
  | divisionByZero _ => "Division by zero"
  | refused function args why => refusedWording function (args.map .float) why.reason
  | unsupported function lack _ => unsupportedWording function lack.reason

/-- The text that the failure is about. -/
def text : Failure → Option String
  | malformedOperand text _ => some text
  | unknownFunction text _ => some text
  | unmatchedClose _ => some ")"
  | missingOperand operator _ => some operator
  | malformed .empty => none
  | malformed (.severalTrees _) => none
  | malformed (.neverClosed _) => some "("
  | malformed (.notEnclosed function _) => some function
  | divisionByZero divisor => some (Number.text divisor)
  | refused function _ _ => some function
  | unsupported function _ _ => some function

/-- Where the text stands in the expression. -/
def pos : Failure → Option Int
  | malformedOperand _ pos => pos
  | unknownFunction _ pos => pos
  | unmatchedClose pos => some pos
  | missingOperand _ pos => some pos
  | malformed .empty => none
  | malformed (.severalTrees _) => none
  | malformed (.neverClosed pos) => some pos
  | malformed (.notEnclosed _ pos) => some pos
  | divisionByZero _ => none
  | refused .. => none
  | unsupported _ _ pos => pos

def details : Failure → Data
  | malformed (.severalTrees count) => .record [("trees", .int count)]
  | divisionByZero divisor => .record [("divisor", .float divisor)]
  | refused function args _ =>
    .record [("function", .text function), ("args", .list (args.map .float))]
  | unsupported function _ _ => .record [("function", .text function)]
  | _ => .record []

/-- The whole message: what failed and, when known, where. -/
def message (f : Failure) : String :=
  match f.pos with
  | none => f.plainMessage
  | some p => f.plainMessage ++ s!" at position {p}"

def inStage (f : Failure) (s : Stage) : Bool := f.kind.stages.contains s

end Failure

/-- A family of names that a text must belong to. -/
inductive Family where
  | operator
  | function
  | associativity
  deriving DecidableEq, Repr

def Family.name : Family → String
  | operator => "OperatorKind"
  | function => "FunctionKind"
  | associativity => "Associativity"

/-- What can be too small for a number. -/
inductive Bound where
  | double
  | whole
  | clock
  | year

def Bound.message : Bound → String
  | double => "int too large to convert to float"
  | whole => "cannot convert float infinity to integer"
  | clock => "timestamp out of range for platform time_t"
  | year => "signed integer is greater than maximum"

/-- What is wrong with the values the library was handed. -/
inductive Fault where
  /-- A bracket cannot join two trees. -/
  | notBinary (s : Symbol)
  /-- A bracket cannot be evaluated. -/
  | notEvaluable (s : Symbol)
  | notInFamily (value : Data) (family : Family)
  | notANumber (text : String)
  | tooLarge (bound : Bound)
  /-- A whole number is needed of what is no number. -/
  | notWhole
  /-- A point in time lies in no year of the calendar. -/
  | beyondCalendar
  /-- An entry of a table that is no pair of key and value. -/
  | notAPair (index length : Nat)
  | missingKey (key : String)
  | zeroDivision
  /-- A function was handed a number of arguments that it does not take. -/
  | argumentCount
  /-- A level was named that there is none of. -/
  | unknownLevel (name : String)
  /-- A value that holds no texts stands where separators are looked up. -/
  | noSeparators
  /-- A value of the wrong type stands where another is needed. -/
  | wrongType
  /-- A record or a text is needed for what is asked of the value. -/
  | wrongShape
  | noFile
  | isDirectory
  /-- A file stands where a path goes on. -/
  | notDirectory
  | nameTooLong
  | emptyVariable
  /-- The name of a variable holds the sign that ends names. -/
  | illegalVariable
  /-- A path or variable holds the character that ends one. -/
  | nulInside
  /-- A template ends inside a mark. -/
  | incompleteMark
  | invalidSettings
  /-- Whatever else stops a host, by its name. -/
  | ofHost (name : String)

/-- The wording of a fault, for those that have one. -/
def Fault.message? : Fault → Option String
  | notBinary s => some ("'" ++ s.text ++ "' is not a binary operator")
  | notEvaluable s => some ("Unsupported operator '" ++ s.text ++ "'")
  | notInFamily value family => some (value.spelled ++ " is not a valid " ++ family.name)
  | notANumber text => some ("could not convert string to float: " ++ Text.quoted text)
  | tooLarge bound => some bound.message
  | notWhole => some "cannot convert float NaN to integer"
  | notAPair index length =>
    some s!"dictionary update sequence element #{index} has length {length}; 2 is required"
  | missingKey key => some (Text.quoted key)
  | zeroDivision => some "float division by zero"
  | nulInside => some "embedded null byte"
  | illegalVariable => some "illegal environment variable name"
  | incompleteMark => some "incomplete format"
  | unknownLevel name => some ("Unknown level: " ++ Text.quoted name)
  | _ => none

/-- Everything that can stop the library. -/
inductive Problem where
  | failure (f : Failure)
  | fault (f : Fault)

/-- Stops with a failure. -/
def fail {α : Type} (f : Failure) : Except Problem α := .error (.failure f)

end Reckon
