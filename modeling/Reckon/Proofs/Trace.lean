import Reckon.Calculator
import Reckon.Log.Logger
import Reckon.Proofs.Outcome

/-!
The log of a computation. Each stage reports through a logger that has the stage for its permanent
field, and the loggers drop what is below their level as the computation goes on. Main statement:
what is left is the trace of the outcomes of the stages, without what is below the level, and the
outcome is the same at every level (`reporting_traced`).
-/

namespace Reckon

/-! ## Loggers of the stages -/

namespace Logger

def tokenizing : Logger := ⟨"mathtree.parser.tokenizer", [("stage", .text "tokenize")]⟩
def building : Logger := ⟨"mathtree.parser.builder", [("stage", .text "build")]⟩
def computing : Logger := ⟨"mathtree.pipeline", [("stage", .text "pipeline")]⟩

def stages : List Logger := [tokenizing, building, computing]

/-- The record of a message with some fields: the logger's own come first. -/
def record (l : Logger) (level : Level) (message : String) (fields : Table Data) : Record :=
  ⟨l.shownName, level, message, Table.putAll (Table.putAll [] l.fields) fields⟩

/-- A message given through the logger while records below `threshold` are dropped. -/
def say (l : Logger) (threshold level : Level) (message : String) (fields : Table Data) :
    Logged Unit :=
  match l.log threshold (.int level) ⟨message, []⟩ (.record fields) with
  | .ok records => ⟨.ok (), records⟩
  | .error f => ⟨.error (.fault f), []⟩

theorem admits?_int (threshold level : Level) :
    admits? threshold (.int level) = some (Level.passes threshold level) := by
  have least (a b : Int) : (decide (a < b) || decide (b = a)) = decide (a ≤ b) := by
    rw [← Bool.decide_or]
    exact decide_eq_decide.mpr (by omega)
  simp only [admits?, Data.relation?_int, Relation.ofInts_greater, Relation.ofInts_equal, least,
    Level.passes]

/-- A message without arguments is logged without a fault: its record is left if it passes. -/
theorem say_eq (l : Logger) (threshold level : Level) (message : String) (fields : Table Data) :
    l.say threshold level message fields =
      ⟨.ok (), keep threshold [l.record level message fields]⟩ := by
  unfold say log
  rw [admits?_int]
  cases passes : Level.passes threshold level with
  | false => simp [keep, record, passes]
  | true => simp [keep, record, passes, merge, Level.ofData, Message.text]

end Logger

/-! ## Reports -/

/-- What there is to tell of an outcome. -/
def told {α : Type} (outcome : Except Problem α) (value : α → Record)
    (failure : Failure → List Record) : List Record :=
  match outcome with
  | .ok a => [value a]
  | .error (.failure f) => failure f
  | .error (.fault _) => []

namespace Logged
variable {α β : Type}

/-- A step that reports nothing. -/
def silent (outcome : Except Problem α) : Logged α := ⟨outcome, []⟩

/-- Goes on from a failure, and leaves the records of both. -/
def handle (x : Logged α) (f : Failure → Logged α) : Logged α :=
  match x.outcome with
  | .error (.failure e) => ⟨(f e).outcome, x.records ++ (f e).records⟩
  | _ => x

theorem bind_ok (records : List Record) (a : α) (f : α → Logged β) :
    bind ⟨.ok a, records⟩ f = ⟨(f a).outcome, records ++ (f a).records⟩ := rfl

theorem bind_error (records : List Record) (p : Problem) (f : α → Logged β) :
    bind ⟨.error p, records⟩ f = ⟨.error p, records⟩ := rfl

/-- A step that gives its message as soon as it has succeeded. -/
def reported (outcome : Except Problem α) (say : α → Logged Unit) : Logged α :=
  (silent outcome).bind fun a => (say a).bind fun _ => silent (.ok a)

theorem reported_eq (threshold : Level) (outcome : Except Problem α) (l : Logger) (level : Level)
    (message : String) (fields : α → Table Data) :
    (reported outcome fun a => l.say threshold level message (fields a)) =
      ⟨outcome, keep threshold
        (told outcome (fun a => l.record level message (fields a)) fun _ => [])⟩ := by
  simp only [Logger.say_eq]
  cases outcome with
  | ok a => simp [reported, silent, told, bind_ok]
  | error p => cases p <;> rfl

end Logged

/-! ## Computing -/

namespace Context
open Logged

/-- What the end of a computation tells: its value or its failure. -/
def ending (text : String) (outcome : Except Problem Float) : List Record :=
  told outcome
    (fun x => Logger.computing.record .debug "Computed expression"
      [("expression", .text text), ("result", .float x)])
    (fun f => [Logger.computing.record .info "Expression failed"
      [("expression", .text text), ("error", .text f.kind.name), ("pos", .ofInt? f.pos)]])

/-- What there is to tell of a computation: its tokens and its tree, if there are any, and last its
value or its failure. -/
def trace (ctx : Context) (text : String) : List Record :=
  told (ctx.tokenize text)
    (fun tokens => Logger.tokenizing.record .debug "Tokenized expression"
      [("expression", .text text), ("tokens", .int tokens.length)]) (fun _ => []) ++
  told (ctx.parse text)
    (fun tree => Logger.building.record .debug "Built expression tree"
      [("nodes", .int tree.size), ("depth", .int tree.depth)]) (fun _ => []) ++
  ending text (ctx.compute text)

/-- Gives the last message of a run: its value, or the failure that it then passes on. -/
def finishing (threshold : Level) (text : String) (run : Logged Float) : Logged Float :=
  let handled := run.handle fun f =>
    (Logger.computing.say threshold .info "Expression failed"
      [("expression", .text text), ("error", .text f.kind.name), ("pos", .ofInt? f.pos)]).bind
        fun _ => silent (fail f)
  handled.bind fun x =>
    (Logger.computing.say threshold .debug "Computed expression"
      [("expression", .text text), ("result", .float x)]).bind fun _ => silent (.ok x)

/-- The value of a text, where each stage and the computation give their messages through their own
loggers and records below `threshold` are dropped. -/
def reporting (ctx : Context) (threshold : Level) (text : String) : Logged Float :=
  finishing threshold text <|
    (reported (ctx.tokenize text) fun tokens =>
      Logger.tokenizing.say threshold .debug "Tokenized expression"
        [("expression", .text text), ("tokens", .int tokens.length)]).bind fun tokens =>
    (reported (ctx.build tokens) fun tree =>
      Logger.building.say threshold .debug "Built expression tree"
        [("nodes", .int tree.size), ("depth", .int tree.depth)]).bind fun tree =>
    silent (tree.eval ctx)

theorem finishing_eq (threshold : Level) (text : String) (run : Logged Float) :
    finishing threshold text run =
      ⟨run.outcome, run.records ++ keep threshold (ending text run.outcome)⟩ := by
  obtain ⟨outcome, records⟩ := run
  simp only [finishing, Logger.say_eq]
  match outcome with
  | .ok x => simp [handle, ending, told, silent, bind_ok]
  | .error (.failure f) => simp [handle, ending, told, silent, fail, bind_ok, bind_error]
  | .error (.fault _) => simp [handle, ending, told, keep, bind_error]

theorem reporting_eq (ctx : Context) (threshold : Level) (text : String) :
    ctx.reporting threshold text = ⟨ctx.compute text, keep threshold (ctx.trace text)⟩ := by
  unfold reporting trace compute parse
  simp only [reported_eq, finishing_eq, keep, List.filter_append]
  cases ctx.tokenize text with
  | error p => cases p <;> simp [told, Logged.bind_error]
  | ok tokens =>
    cases h : ctx.build tokens with
    | error p => cases p <;> simp [h, told, Logged.bind_ok, Logged.bind_error]
    | ok tree => simp [h, silent, Logged.bind_ok]

theorem records_computing (ctx : Context) (text : String) :
    (ctx.computing text).records = ctx.trace text := by
  unfold computing tokenizing building trace compute parse
  cases ctx.tokenize text with
  | error p => cases p <;> rfl
  | ok tokens =>
    simp only [stage, Logged.bind_ok, ok_bind]
    cases ctx.build tokens with
    | error p => cases p <;> rfl
    | ok tree =>
      simp only [Logged.bind_ok, ok_bind]
      cases tree.eval ctx with
      | error p => cases p <;> rfl
      | ok x => rfl

/-! ## Records of a trace -/

/-- A record names one of the stages and carries the field of its logger, and the text unless it is
about the tree. -/
structure Attested (text : String) (r : Record) : Prop where
  positive : 0 < r.level
  stage : ∃ l ∈ Logger.stages, r.logger = l.name ∧ r.extra.value? "stage" = l.fields.value? "stage"
  expression : r.logger ≠ Logger.building.name → r.extra.value? "expression" = some (.text text)

theorem mem_told {α : Type} {outcome : Except Problem α} {value : α → Record}
    {failure : Failure → List Record} {r : Record} (h : r ∈ told outcome value failure) :
    (∃ a, r = value a) ∨ ∃ f, r ∈ failure f := by
  match outcome with
  | .ok a => exact .inl ⟨a, List.mem_singleton.mp h⟩
  | .error (.failure f) => exact .inr ⟨f, h⟩
  | .error (.fault _) => cases h

theorem attested_of_mem_trace {ctx : Context} {text : String} {r : Record}
    (h : r ∈ ctx.trace text) : Attested text r := by
  have debug : 0 < Level.debug := by decide
  have info : 0 < Level.info := by decide
  rcases List.mem_append.mp h with h | h
  · rcases List.mem_append.mp h with h | h
    · obtain ⟨tokens, rfl⟩ | ⟨f, hf⟩ := mem_told h
      · exact ⟨debug, ⟨.tokenizing, by simp [Logger.stages], rfl, rfl⟩, fun _ => rfl⟩
      · cases hf
    · obtain ⟨tree, rfl⟩ | ⟨f, hf⟩ := mem_told h
      · exact ⟨debug, ⟨.building, by simp [Logger.stages], rfl, rfl⟩, fun other =>
          absurd rfl other⟩
      · cases hf
  · obtain ⟨x, rfl⟩ | ⟨f, hf⟩ := mem_told h
    · exact ⟨debug, ⟨.computing, by simp [Logger.stages], rfl, rfl⟩, fun _ => rfl⟩
    · obtain rfl := List.mem_singleton.mp hf
      exact ⟨info, ⟨.computing, by simp [Logger.stages], rfl, rfl⟩, fun _ => rfl⟩

/-- The records have levels above zero, so that a threshold drops what is below it and no more. -/
theorem keep_trace (ctx : Context) (threshold : Level) (text : String) :
    keep threshold (ctx.trace text) = (ctx.trace text).filter fun r => threshold ≤ r.level := by
  refine List.filter_congr fun r hr => ?_
  simp [Level.passes, (attested_of_mem_trace hr).positive]

/-- Under a level of its own, whatever the level above it, the logger of the library leaves of a
computation the part of the trace that is at least of that level. Every record of the trace is
attested, and the outcome is the one without a log. -/
theorem reporting_traced (ctx : Context) (own above : Level) (text : String) (positive : 0 < own) :
    ctx.reporting (Level.effective own above) text =
      ⟨ctx.compute text, (ctx.trace text).filter fun r => own ≤ r.level⟩ ∧
    (ctx.computing text).outcome = ctx.compute text ∧
    keep (Level.effective own above) (ctx.computing text).records =
      ((ctx.trace text).filter fun r => own ≤ r.level) ∧
    ∀ r ∈ ctx.trace text, Attested text r := by
  have set : Level.effective own above = own := if_neg (Int.ne_of_lt positive).symm
  rw [set, reporting_eq, records_computing, keep_trace]
  exact ⟨rfl, outcome_computing ctx text, rfl, fun r hr => attested_of_mem_trace hr⟩

/-- Of `1 / 2` the three records are left at the level of debugging, and none at that of
information; of `1 / 0` the failure is left at both. -/
theorem reporting_traced_quotients :
    let left (own : Level) (text : String) :=
      (standard.reporting (Level.effective own Level.warning) text).records.map fun r =>
        (r.logger, r.level, r.extra.map fun field => (field.1, field.2.plain))
    let tokenized (text : String) := ("mathtree.parser.tokenizer", Level.debug,
      [("stage", "tokenize"), ("expression", text), ("tokens", "3")])
    let built := ("mathtree.parser.builder", Level.debug,
      [("stage", "build"), ("nodes", "3"), ("depth", "2")])
    let computed := ("mathtree.pipeline", Level.debug,
      [("stage", "pipeline"), ("expression", "1 / 2"), ("result", "0.5")])
    let failed := ("mathtree.pipeline", Level.info,
      [("stage", "pipeline"), ("expression", "1 / 0"), ("error", "DivisionByZero"),
        ("pos", "None")])
    0 < Level.debug ∧ 0 < Level.info ∧
      left Level.debug "1 / 2" = [tokenized "1 / 2", built, computed] ∧
      left Level.info "1 / 2" = [] ∧
      left Level.debug "1 / 0" = [tokenized "1 / 0", built, failed] ∧
      left Level.info "1 / 0" = [failed] := by
  have debug : 0 < Level.debug := by decide
  have info : 0 < Level.info := by decide
  have traced (own : Level) (positive : 0 < own) (text : String) :=
    (reporting_traced standard own Level.warning text positive).1
  simp only [traced Level.debug debug, traced Level.info info]
  refine ⟨debug, info, ?_, ?_, ?_, ?_⟩
  all_goals decide +kernel

end Context

end Reckon
