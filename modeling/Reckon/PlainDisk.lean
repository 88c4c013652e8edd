import Reckon.Files
import Reckon.Settings
import Reckon.Text.Digit

/-!
A plain host. Its disks hold the entries of a dotenv file, as names and values without quotes,
comments or references to each other, and files with their data. A setting is taken from the first
source that names it: initial values, the environment, the entries, or the standard value.
-/

namespace Reckon

namespace Settings

/-- The name of a setting outside the program. -/
def outerName (name : String) : String := "MATHTREE_" ++ name

/-- The value given for a setting. The environment's is taken as it stands, the last entry's without
blanks around it. -/
def given? (env : Environment) (entries : Table String) (initial : Table Data) (name : String) :
    Option Data :=
  match initial.value? name with
  | some d => some d
  | none =>
    match env.value? (outerName name) with
    | some v => some (.text v)
    | none =>
      (Table.last? (outerName name) entries).map fun v =>
        .text (String.ofList (Text.trim Text.isSpace v.toList))

/-- A setting that must be a text. -/
def readText (given : Option Data) (standard : String) : Except Fault String :=
  match given with
  | none => .ok standard
  | some (.text s) => .ok s
  | some _ => .error .invalidSettings

/-- A setting that is a text or null. -/
def readOptional (given : Option Data) : Except Fault (Option String) :=
  match given with
  | none | some .null => .ok none
  | some (.text s) => .ok (some s)
  | some _ => .error .invalidSettings

/-- A truth value by name, in any case. -/
def switchOfName? (s : String) : Option Bool :=
  let small := s.map Char.toLower
  if ["0", "off", "f", "false", "n", "no"].contains small then some false
  else if ["1", "on", "t", "true", "y", "yes"].contains small then some true
  else none

/-- A truth value: itself, a name, or the number zero or one. -/
def switch? : Data → Option Bool
  | .bool b => some b
  | .text s => switchOfName? s
  | .int i => if i = 0 then some false else if i = 1 then some true else none
  | .float x => if x == 0 then some false else if x == 1 then some true else none
  | _ => none

def readSwitch (given : Option Data) (standard : Bool) : Except Fault Bool :=
  match given with
  | none => .ok standard
  | some d =>
    match switch? d with
    | some b => .ok b
    | none => .error .invalidSettings

/-- The settings that the sources give. -/
def read (env : Environment) (entries : Table String) (initial : Table Data) :
    Except Fault Settings := do
  let given := given? env entries initial
  let logLevel ← readText (given "LOG_LEVEL") "INFO"
  let logFormat ← readText (given "LOG_FORMAT") "text"
  let logFile ← readOptional (given "LOG_FILE")
  let contextFile ← readOptional (given "CONTEXT_FILE")
  let nestedFunctions ← readSwitch (given "NESTED_FUNCTIONS") true
  .ok { logLevel, logFormat, logFile, contextFile, nestedFunctions }

/-- A variable for nesting alone leaves everything else at its standard value. -/
theorem read_nested (value : String) : read [("MATHTREE_NESTED_FUNCTIONS", value)] [] [] =
    (readSwitch (some (.text value)) true).map fun nestedFunctions =>
      ⟨"INFO", "text", none, none, nestedFunctions⟩ := rfl

end Settings

structure PlainDisk where
  entries : Table String
  files : Files

namespace Host

def plain : Host PlainDisk where
  settings env disk := Settings.read env disk.entries []
  data disk path := disk.files.read path

@[simp] theorem settings_plain (env : Environment) (disk : PlainDisk) :
    plain.settings env disk = Settings.read env disk.entries [] := rfl

@[simp] theorem data_plain (disk : PlainDisk) (path : String) :
    plain.data disk path = disk.files.read path := rfl

end Host
end Reckon
