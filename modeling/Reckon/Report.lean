import Reckon.Failure

/-!
Reports: a failure as it is shown, and reports made from named fields of any type in a caller's own
words. Main statement: a failure's report has the failure's message (`message_ofFailure`).
-/

namespace Reckon

structure Report where
  kind : Kind
  /-- What failed, without the position. -/
  plainMessage : Data
  text : Data
  pos : Data
  details : Data

namespace Report

def ofFailure (f : Failure) : Report where
  kind := f.kind
  plainMessage := .text f.plainMessage
  text := .ofText? f.text
  pos := .ofInt? f.pos
  details := f.details

/-- The whole message: what failed and, when known, where. -/
def message (r : Report) : String :=
  match r.pos with
  | .null => r.plainMessage.plain
  | pos => r.plainMessage.plain ++ " at position " ++ pos.plain

theorem message_ofFailure (f : Failure) : (ofFailure f).message = f.message := by
  cases h : f.pos with
  | none => simp [message, ofFailure, Failure.message, h, Data.ofInt?, Data.plain]
  | some p =>
    simp [message, ofFailure, Failure.message, h, Data.ofInt?, Data.plain, Data.spelled,
      String.append_assoc]
    rfl

/-- Whether the named fields are all of `needed`, and none beyond `optional`. -/
def fits (given : Table Data) (needed optional : List String) : Bool :=
  needed.all given.has && given.all fun kv => (needed ++ optional).contains kv.1

/-- The fields that a kind of report needs, and those it can have besides. -/
def signature : Kind → List String × List String
  | .malformedOperand | .unknownFunction => (["text"], ["pos"])
  | .unmatchedClose => ([], ["pos"])
  | .missingOperand => (["operator"], ["pos"])
  | .divisionByZero => (["divisor"], [])
  | .refused => (["function", "args"], ["reason"])
  | .unsupported => (["function", "reason"], ["pos"])
  | .general | .tokenize | .build | .malformed | .evaluate =>
    (["message"], ["text", "pos", "details"])

/-- The report of a kind with named fields, which must fit its signature. Fields are put into the
wording of the kind's failures. -/
def make (kind : Kind) (given : Table Data) : Except Fault Report := do
  let (needed, optional) := signature kind
  let part (key : String) : Data := (given.value? key).getD .null
  let pos := part "pos"
  let text := part "text"
  let function := part "function"
  if !fits given needed optional then .error .wrongType
  else
    match kind with
    | .malformedOperand =>
      .ok ⟨kind, .text (Failure.malformedOperand text.plain none).plainMessage, text, pos,
        .record []⟩
    | .unknownFunction =>
      .ok ⟨kind, .text (Failure.unknownFunction text.plain none).plainMessage, text, pos,
        .record []⟩
    | .unmatchedClose =>
      .ok ⟨kind, .text (Failure.unmatchedClose 0).plainMessage, .text ")", pos, .record []⟩
    | .missingOperand =>
      let operator := part "operator"
      .ok ⟨kind, .text (Failure.missingOperand operator.plain 0).plainMessage, operator, pos,
        .record []⟩
    | .divisionByZero =>
      let divisor := part "divisor"
      .ok ⟨kind, .text "Division by zero", .text divisor.spelled, .null,
        .record [("divisor", divisor)]⟩
    | .refused =>
      match (part "args").elements? with
      | none => .error .wrongType
      | some args =>
        let reason := (given.value? "reason").elim Refusal.outsideDomain.reason Data.plain
        .ok ⟨kind, .text (Failure.refusedWording function.plain args reason), function, .null,
          .record [("function", function), ("args", .list args)]⟩
    | .unsupported =>
      .ok ⟨kind, .text (Failure.unsupportedWording function.plain (part "reason").plain), function,
        pos, .record [("function", function)]⟩
    | .general | .tokenize | .build | .malformed | .evaluate =>
      let details := part "details"
      .ok ⟨kind, part "message", text, pos, if details.truthy then details else .record []⟩

end Report

namespace Kind

def all : List Kind :=
  [general, tokenize, malformedOperand, unknownFunction, build, unmatchedClose, missingOperand,
    malformed, evaluate, divisionByZero, refused, unsupported]

/-- The kind of a name. The general kind has a second one. -/
def ofName? (name : String) : Option Kind :=
  if name = "PipelineError" then some general else all.find? fun k => k.name == name

theorem ofName?_name (k : Kind) : ofName? k.name = some k := by cases k <;> decide

end Kind

end Reckon
