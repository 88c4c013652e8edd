import Reckon.Expr.Build
import Reckon.Expr.Eval
import Reckon.Expr.Render
import Reckon.Log
import Reckon.Token.Scan

/-!
Reckoning an expression: its tokens, its tree and its value under one context, and the records that
the three stages leave. Main statement: logging changes no outcome (`outcome_computing`).
-/

namespace Reckon

/-- An outcome and the records left on the way to it, the first record first. -/
structure Logged (α : Type) where
  outcome : Except Problem α
  records : List Record

namespace Logged

variable {α β : Type}

/-- Goes on from a value, and leaves the records of both. -/
def bind (x : Logged α) (f : α → Logged β) : Logged β :=
  match x.outcome with
  | .ok a => ⟨(f a).outcome, x.records ++ (f a).records⟩
  | .error p => ⟨.error p, x.records⟩

/-- A stage that leaves one record of what it made, and none when it fails. -/
def stage (outcome : Except Problem α) (record : α → Record) : Logged α :=
  match outcome with
  | .ok a => ⟨.ok a, [record a]⟩
  | .error p => ⟨.error p, []⟩

theorem outcome_bind (x : Logged α) (f : α → Logged β) :
    (x.bind f).outcome = x.outcome.bind fun a => (f a).outcome := by
  cases h : x.outcome <;> simp [bind, h, Except.bind]

theorem outcome_stage (outcome : Except Problem α) (record : α → Record) :
    (stage outcome record).outcome = outcome := by cases outcome <;> rfl

end Logged

/-- The record of a token sequence read from `text`. -/
def Record.tokenized (text : String) (tokens : List Token) : Record where
  logger := "mathtree.parser.tokenizer"
  level := .debug
  message := "Tokenized expression"
  extra := [("stage", .text "tokenize"), ("expression", .text text), ("tokens", .int tokens.length)]

/-- The record of a finished tree. -/
def Record.built (tree : Expr) : Record where
  logger := "mathtree.parser.builder"
  level := .debug
  message := "Built expression tree"
  extra := [("stage", .text "build"), ("nodes", .int tree.size), ("depth", .int tree.depth)]

/-- The record of a value. -/
def Record.computed (text : String) (value : Float) : Record where
  logger := "mathtree.pipeline"
  level := .debug
  message := "Computed expression"
  extra := [("stage", .text "pipeline"), ("expression", .text text), ("result", .float value)]

/-- The record of a failure. -/
def Record.failed (text : String) (f : Failure) : Record where
  logger := "mathtree.pipeline"
  level := .info
  message := "Expression failed"
  extra := [("stage", .text "pipeline"), ("expression", .text text), ("error", .text f.kind.name),
    ("pos", .ofInt? f.pos)]

namespace Context

/-- How the context cuts a text. -/
def lexis (ctx : Context) (holds : String → Bool) : Lexis :=
  ⟨fun c => holds (String.singleton c), ctx.nests⟩

/-- The tokens of a text. Separators that hold no texts are a fault as soon as there is a character
to look up. -/
def tokenize (ctx : Context) (text : String) : Except Problem (List Token) :=
  match ctx.separators.holds? with
  | some holds => ((ctx.lexis holds).scan text.toList).mapError .failure
  | none => if text.isEmpty then .ok [] else .error (.fault .noSeparators)

/-- The tree of a text. -/
def parse (ctx : Context) (text : String) : Except Problem Expr := do
  let tokens ← ctx.tokenize text
  ctx.build tokens

/-- The value of a text. -/
def compute (ctx : Context) (text : String) : Except Problem Float := do
  let tree ← ctx.parse text
  tree.eval ctx

/-- Tokenizing, with its record. -/
def tokenizing (ctx : Context) (text : String) : Logged (List Token) :=
  .stage (ctx.tokenize text) (.tokenized text)

/-- Building, with its record. -/
def building (ctx : Context) (tokens : List Token) : Logged Expr :=
  .stage (ctx.build tokens) .built

/-- The last record of a computation. A fault leaves none. -/
def lastRecord (text : String) : Except Problem Float → List Record
  | .ok value => [.computed text value]
  | .error (.failure f) => [.failed text f]
  | .error (.fault _) => []

/-- Computing, with the records of every stage reached and the last one. -/
def computing (ctx : Context) (text : String) : Logged Float :=
  let run := (ctx.tokenizing text).bind fun tokens =>
    (ctx.building tokens).bind fun tree => ⟨tree.eval ctx, []⟩
  { run with records := run.records ++ lastRecord text run.outcome }

theorem outcome_computing (ctx : Context) (text : String) :
    (ctx.computing text).outcome = ctx.compute text := by
  simp only [computing, Logged.outcome_bind, tokenizing, building, Logged.outcome_stage]
  unfold compute parse
  cases ctx.tokenize text <;> rfl

end Context

/-! ## The stages on their own -/

section Stages
variable (given : Option Context)

/-- The tokens of a text; without a context, under the standard one. -/
def tokenize (text : String) : Except Problem (List Token) := (given.getD .standard).tokenize text

/-- The tree of a token sequence; without a context, under the standard one. -/
def buildTree (tokens : List Token) : Except Problem Expr := (given.getD .standard).build tokens

/-- The value of a tree; without a context, under the standard one. -/
def evaluate (tree : Expr) : Except Problem Float := tree.eval (given.getD .standard)

end Stages
end Reckon
