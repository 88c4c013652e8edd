import Reckon.Data.Order
import Reckon.Failure

/-!
Log records: what the stages report about their work, and the levels that records are kept by.
-/

namespace Reckon

/-- How urgent a record is. -/
abbrev Level := Int

namespace Level

def debug : Level := 10
def info : Level := 20
def warning : Level := 30
def error : Level := 40
def critical : Level := 50

/-- The names that levels are written under. -/
def known : List (Level × String) :=
  [(0, "NOTSET"), (debug, "DEBUG"), (info, "INFO"), (warning, "WARNING"), (error, "ERROR"),
    (critical, "CRITICAL")]

def known? (l : Level) : Option String := known.lookup l

/-- The name under which a level is written. -/
def name (l : Level) : String := (known? l).getD s!"Level {l}"

/-- The level of a name in capitals. Two of them have a second name. -/
def ofCapitals? : String → Option Level
  | "NOTSET" => some 0
  | "DEBUG" => some debug
  | "INFO" => some info
  | "WARNING" | "WARN" => some warning
  | "ERROR" => some error
  | "CRITICAL" | "FATAL" => some critical
  | _ => none

/-- The capitals of a character, as far as level names go: the characters beyond ASCII whose
capitals lie in it are three letters and the ligatures. -/
def capitals (c : Char) : List Char :=
  match c.toNat with
  | 0xDF => ['S', 'S']
  | 0x131 => ['I']
  | 0x17F => ['S']
  | 0xFB00 => ['F', 'F']
  | 0xFB01 => ['F', 'I']
  | 0xFB02 => ['F', 'L']
  | 0xFB03 => ['F', 'F', 'I']
  | 0xFB04 => ['F', 'F', 'L']
  | 0xFB05 => ['S', 'T']
  | 0xFB06 => ['S', 'T']
  | _ => [c.toUpper]

/-- How a value that stands for a level is written: a known level by its name, and the other way
round. -/
def title : Data → Data
  | .text s => ((ofCapitals? s).map Data.int).getD (.text ("Level " ++ s))
  | d => .text ((d.whole?.bind known?).getD ("Level " ++ d.plain))

/-- The level that a value sets: a whole number or the name of a level in capitals. -/
def ofData : Data → Except Fault Level
  | .int l => .ok l
  | .bool b => .ok (if b then 1 else 0)
  | .text s =>
    match ofCapitals? s with
    | some l => .ok l
    | none => .error (.unknownLevel s)
  | _ => .error .wrongType

/-- The level of a name in any case; an unknown name means information. Two names of other things
are refused. -/
def ofName (s : String) : Except Fault Level :=
  match String.ofList (s.toList.flatMap capitals) with
  | "BASIC_FORMAT" => .error (.unknownLevel "%(levelname)s:%(name)s:%(message)s")
  | "_STYLES" => .error .wrongType
  | name => .ok ((ofCapitals? name).getD info)

/-- The level of a logger: its own, or the level above it while its own is unset. -/
def effective (own above : Level) : Level := if own = 0 then above else own

/-- Whether a record of level `l` passes a logger or handler set to `threshold`. Levels up to zero
never do. -/
def passes (threshold l : Level) : Bool := 0 < l && threshold ≤ l

end Level

/-- One report of a stage. -/
structure Record where
  logger : String
  level : Level
  message : String
  extra : Table Data

/-- The records that a logger set to `threshold` lets through. -/
def keep (threshold : Level) (records : List Record) : List Record :=
  records.filter fun r => Level.passes threshold r.level

end Reckon
