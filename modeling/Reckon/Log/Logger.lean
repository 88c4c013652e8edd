import Reckon.Log
import Reckon.Log.Message

/-!
Loggers with fields of their own: each record made through one carries the logger's fields, then
the fields given with the record.
-/

namespace Reckon

structure Logger where
  name : String
  fields : Table Data

namespace Logger

/-- A logger under `name` with these fields. A field cannot be called as the name is. -/
def make (name : String) (fields : Table Data) : Except Fault Logger :=
  if fields.has "name" then .error .wrongType else .ok ⟨name, fields⟩

/-- The logger's fields under those given, which must be a record. -/
def merge (l : Logger) (given : Data) : Except Fault (Table Data) :=
  match given with
  | .record fields => .ok (Table.putAll (Table.putAll [] l.fields) fields)
  | _ => .error .wrongType

/-- The options of a record with the merged fields moved to where handlers look for them. -/
def process (l : Logger) (options : Table Data) : Except Fault (Table Data) := do
  let given := (options.value? "extra_data").getD (.record [])
  let rest := options.remove "extra_data"
  let merged ← l.merge given
  match (rest.value? "extra").getD (.record []) with
  | .record extra =>
    .ok (rest.put "extra" (.record (Table.put "extra_data" (.record merged) extra)))
  | _ => .error .wrongType

/-- The name that handlers see; the logger without a name is the root. -/
def shownName (l : Logger) : String := if l.name.isEmpty then "root" else l.name

/-- Whether a value that stands for a level passes a threshold, if it is a number. -/
def admits? (threshold : Level) (level : Data) : Option Bool :=
  match level.relation? (.int 0), level.relation? (.int threshold) with
  | some above, some r => some (above == .greater && (r == .greater || r == .equal))
  | _, _ => none

/-- The records of a message given through the logger while records below `threshold` are dropped.
One that passes must have a whole number for its level, and fields that merge; a message that cannot
be filled leaves nothing. -/
def log (l : Logger) (threshold : Level) (level : Data) (m : Message) (given : Data) :
    Except Fault (List Record) :=
  match admits? threshold level with
  | none => .error .wrongType
  | some false => .ok []
  | some true => do
    let extra ← l.merge given
    let level ← match level with
      | .float _ => .error .wrongType
      | d => Level.ofData d
    match m.text with
    | .ok message => .ok [⟨l.shownName, level, message, extra⟩]
    | .error _ => .ok []

end Logger
end Reckon
