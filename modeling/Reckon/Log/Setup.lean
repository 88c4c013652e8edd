import Reckon.Log.Line
import Reckon.Settings
import Reckon.Text.Lines
import Reckon.Text.Path

/-!
Setting logging up: settings become a level, a line format and the handlers that lines go to.
-/

namespace Reckon

/-- Where lines go. -/
inductive Handler where
  | stream
  /-- A file by the components of its path; `none` lies outside the directory. -/
  | file (place : Option (List String))
  deriving DecidableEq, Repr

/-- Logging as it is set up. Every handler has the root's level. -/
structure Logging where
  level : Level
  format : LineFormat
  handlers : List Handler

namespace Logging

/-- The handler of a log file, if the settings name one. -/
def fileHandler (path : Option String) : Except Fault (List Handler) :=
  match path with
  | none => .ok []
  | some path =>
    if path.isEmpty then .ok []
    else if path.contains '\x00' then .error .nulInside
    else if Text.isTooLong path then .error .nameTooLong
    else if Text.endsAtDirectory path then .error .isDirectory
    else .ok [.file (Text.components? path)]

def ofSettings (s : Settings) : Except Fault Logging := do
  let level ← Level.ofName s.logLevel
  let files ← fileHandler s.logFile
  .ok ⟨level, .ofName s.logFormat, .stream :: files⟩

/-- What a record adds to the text of every handler: nothing when its level does not pass. -/
def written (l : Logging) (time : String) (site : Table Data) (r : Record) : String :=
  if Level.passes l.level r.level then
    let entry : Entry := ⟨r.logger, .text r.level.name, r.message, site, none, r.extra⟩
    l.format.line time entry ++ "\n"
  else ""

end Logging

/-- The lines of a handler's text. In a file a carriage return ends a line as well. -/
def Handler.lines (h : Handler) (s : String) : List String :=
  match h with
  | .stream => Text.lines s
  | .file _ => Text.lines (String.ofList (Text.feeds s.toList))

end Reckon
