import Reckon.Context
import Reckon.Number.Reading

/-!
Reading a context from data, field by field over the standard context. A field that is absent keeps
its standard value; the first field that cannot be read, in the order name, operators, functions,
separators, epsilon, flags, is the fault.
-/

namespace Reckon

namespace Data

/-- The fields of a value that is asked for one by name. -/
def asRecord : Data → Except Fault (Table Data)
  | record fields => .ok fields
  | _ => .error .wrongType

/-- A field that must be there. -/
def field (fields : Table Data) (key : String) : Except Fault Data :=
  match fields.value? key with
  | some d => .ok d
  | none => .error (.missingKey key)

/-- The elements of a value that is listed. -/
def elements (d : Data) : Except Fault (List Data) :=
  match d.elements? with
  | some ds => .ok ds
  | none => .error .wrongType

/-- A double read from data: a number, a truth value as one or zero, or the text of a number. -/
def double : Data → Except Fault Float
  | float x => .ok x
  | bool b => .ok (if b then 1 else 0)
  | int i =>
    let x := Float.ofInt i
    if x.isFinite then .ok x else .error (.tooLarge .double)
  | text s =>
    match Number.read? s with
    | some x => .ok x
    | none => .error (.notANumber s)
  | _ => .error .wrongType

/-- The pair of key and value at `index` of a listed table. -/
def pair (index : Nat) (d : Data) : Except Fault (Data × Data) := do
  match ← d.elements with
  | [key, value] => if key.isKey then .ok (key, value) else .error .wrongType
  | ds => .error (.notAPair index ds.length)

/-- The pairs of a listed table from `index` on. -/
def pairs : Nat → List Data → Except Fault (List (Data × Data))
  | _, [] => .ok []
  | index, d :: ds => do
    let first ← d.pair index
    let rest ← pairs (index + 1) ds
    .ok (first :: rest)

/-- The entries of a record, or of a list of pairs. -/
def entries : Data → Except Fault (List (Data × Data))
  | record fields => .ok (fields.map fun kv => (text kv.1, kv.2))
  | d => do pairs 0 (← d.elements)

/-- The entries under texts. -/
def named : List (Data × Data) → Table Data
  | [] => []
  | (text s, d) :: es => (s, d) :: named es
  | _ :: es => named es

/-- The entries under other keys. -/
def unnamed (es : List (Data × Data)) : List (Data × Data) :=
  es.filter fun
    | (text _, _) => false
    | _ => true

/-- The text that a key of any type becomes in JSON. -/
def keyText : Data → String
  | null => "null"
  | bool b => if b then "true" else "false"
  | d => d.plain

/-- The entries with the texts of their keys. -/
def fields (d : Data) : Except Fault (Table Data) :=
  d.entries.map fun es => es.map fun kv => (kv.1.keyText, kv.2)

end Data

namespace Associativity

def ofData (d : Data) : Except Fault Associativity :=
  match d with
  | .text s =>
    match ofName? s with
    | some a => .ok a
    | none => .error (.notInFamily d .associativity)
  | _ => .error (.notInFamily d .associativity)

end Associativity

namespace Context

/-- One listed operator: its symbol, which is its key, and its rule. It leans left unless it says
otherwise. -/
def operatorOfData (d : Data) : Except Fault OperatorEntry := do
  let fields ← d.asRecord
  let symbol ← Data.field fields "symbol"
  let precedence ← Data.field fields "precedence"
  let associativity ←
    Associativity.ofData ((Table.value? "associativity" fields).getD (.text "left"))
  if symbol.isKey then .ok ⟨symbol, symbol, ⟨precedence, associativity⟩⟩ else .error .wrongType

/-- The rules under texts; of two under one text the later counts. -/
def namedRules : List OperatorEntry → Table OperatorRule → Table OperatorRule
  | [], t => t
  | ⟨.text sign, _, rule⟩ :: es, t => namedRules es (t.put sign rule)
  | _ :: es, t => namedRules es t

/-- Enters a rule under a key that is no text; an equal key stays as it was first given. -/
def putStray (new : OperatorEntry) : List OperatorEntry → List OperatorEntry
  | [] => [new]
  | e :: es => if e.key.same new.key then { new with key := e.key } :: es else e :: putStray new es

/-- The rules under other keys. -/
def strayRules : List OperatorEntry → List OperatorEntry → List OperatorEntry
  | [], t => t
  | ⟨.text _, _, _⟩ :: es, t => strayRules es t
  | e :: es, t => strayRules es (putStray e t)

/-- One listed function: a name alone, or a record with a name and possibly an arity. The name in
small letters picks the builtin, and the builtin's arity stands in for a missing one. -/
def functionOfData (d : Data) : Except Fault (String × FunctionEntry) := do
  let fields ← match d with
    | .text s => .ok [("name", .text s)]
    | d => d.asRecord
  match ← Data.field fields "name" with
  | .text s =>
    let name := Text.small s
    let builtin := Builtin.ofName? name
    let arity := (Table.value? "arity" fields).getD (.ofInt? (builtin.map Builtin.arity))
    .ok (name, ⟨arity, builtin⟩)
  | _ => .error .wrongShape

/-- The listed entries, each read in turn. -/
def listOf {α : Type} (read : Data → Except Fault α) (d : Data) : Except Fault (List α) := do
  (← d.elements).mapM read

/-- Reads a field with `read` if it is there, and keeps `standard` if not. -/
def fieldOr {α : Type} (fields : Table Data) (key : String) (read : Data → Except Fault α)
    (standard : α) : Except Fault α :=
  match fields.value? key with
  | some d => read d
  | none => .ok standard

/-- The context that a record describes. -/
def ofFields (fields : Table Data) : Except Fault Context := do
  let name := (fields.value? "name").getD standard.name
  let (operators, strays) ← fieldOr fields "operators"
    (fun d => (listOf operatorOfData d).map fun es => (namedRules es [], strayRules es []))
    (standard.operators, [])
  let functions ← fieldOr fields "functions"
    (fun d => (listOf functionOfData d).map (Table.putAll [])) standard.functions
  let separators := (fields.value? "separators").getD standard.separators
  let epsilon ← fieldOr fields "epsilon" Data.double standard.epsilon
  let flags ← fieldOr fields "flags" Data.entries []
  .ok { name, operators, strays, functions, separators, epsilon,
        flags := standard.flags.putAll (Data.named flags)
        strayFlags := Data.unnamed flags }

/-- The context that a value describes: the standard one when the value is empty or false. -/
def ofData (d : Data) : Except Fault Context :=
  if d.truthy then
    match d with
    | .record fields => ofFields fields
    | _ => .error .wrongShape
  else .ok standard

end Context
end Reckon
