import Reckon.Context.Load

/-!
Settings: how the library logs and which context it starts from. A host reads them from variables
and from what is on disk, and gets the data of a context file; the library asks for no more than
that both depend on these alone.
-/

namespace Reckon

structure Settings where
  logLevel : String
  logFormat : String
  logFile : Option String
  contextFile : Option String
  nestedFunctions : Bool
  deriving DecidableEq, Repr

/-- Variables by name. -/
abbrev Environment := Table String

namespace Environment

/-- Sets a variable, or unsets it. A name is not empty and holds no equality sign. -/
def setVariable (env : Environment) (name : String) :
    Option String → Except Fault Environment
  | none => .ok (env.remove name)
  | some value =>
    if name.contains '\x00' || value.contains '\x00' then .error .nulInside
    else if name.contains '=' then .error .illegalVariable
    else if name.isEmpty then .error .emptyVariable
    else .ok (env.put name value)

/-- The environment with these variables. -/
def ofList (entries : Table String) : Except Fault Environment :=
  entries.foldlM (fun env kv => setVariable env kv.1 (some kv.2)) []

end Environment

/-- What is asked of the outside. Disks may be anything that holds files. -/
structure Host (Disk : Type) where
  /-- The settings that variables and a disk give. -/
  settings : Environment → Disk → Except Fault Settings
  /-- The data of the file at a path. -/
  data : Disk → String → Except Fault Data

namespace Context
variable {Disk : Type} (h : Host Disk) (disk : Disk)

/-- The context of a file. -/
def ofFile (path : String) : Except Fault Context := do
  ofData (← h.data disk path)

/-- The context that settings describe: that of their file, or the standard one, with their word on
nesting. -/
def ofSettings (s : Settings) : Except Fault Context := do
  let ctx ← match s.contextFile with
    | none => .ok standard
    | some path => if path.isEmpty then .ok standard else ofFile h disk path
  .ok (ctx.setFlag nestingFlag (.bool s.nestedFunctions))

end Context
end Reckon
