import Reckon.Data.Json
import Reckon.Log
import Reckon.Report

/-!
Log lines: a record written for people on one line, or as one JSON record. The point in time is
handed in as text.
-/

namespace Reckon

/-- All that a line tells. -/
structure Entry where
  logger : String
  /-- The level as it is written. -/
  level : Data
  message : String
  /-- The fields that say where the record was made. -/
  site : Table Data
  failure : Option Report
  extra : Table Data

/-- A failure named in full, with its message if it has one. -/
def Report.line (r : Report) : String :=
  let name := "mathtree.core.errors." ++ r.kind.name
  if r.message.isEmpty then name else name ++ ": " ++ r.message

namespace Entry

/-- The line for people: time, logger, level and message, and a failure on the next line. -/
def textLine (time : String) (e : Entry) : String :=
  let line := time ++ " - " ++ e.logger ++ " - " ++ e.level.plain ++ " - " ++ e.message
  match e.failure with
  | none => line
  | some r => (if line.endsWith "\n" then line else line ++ "\n") ++ r.line

/-- The fields of the JSON record. Extra fields come last, but replace a field of the same name
where it stands. -/
def fields (time : String) (e : Entry) : Table Data :=
  let own : Table Data :=
    [("timestamp", .text time), ("level", e.level), ("logger", .text e.logger),
      ("message", .text e.message)]
  let failed : Table Data := e.failure.elim [] fun f => [("exception", .text f.line)]
  Table.putAll (own ++ e.site ++ failed) e.extra

def jsonLine (time : String) (e : Entry) : String := (Data.record (e.fields time)).json

end Entry

/-- The two ways to write a line. -/
inductive LineFormat where
  | text
  | json
  deriving DecidableEq, Repr

namespace LineFormat

/-- Only the exact name chooses JSON. -/
def ofName (s : String) : LineFormat := if s = "json" then json else text

def line (format : LineFormat) (time : String) (e : Entry) : String :=
  match format with
  | text => e.textLine time
  | json => e.jsonLine time

end LineFormat
end Reckon
