import BitmapText.Files
import BitmapText.Log

/-!
# Log files

A file to which records are appended, each as a line. It is made by the first record that is let
through. Records that cannot be written are lost.

## Main definitions

* `Log.Record.line`: a record as a line.
* `Log.transcript`: the lines of what is let through.
* `LogFile`: a file and what is let through to it.
* `LogFile.append`: append records.
-/

namespace BitmapText

namespace Log

/-- A record as a line of a log file. -/
def Record.line (r : Record) : String :=
  r.level.label ++ " " ++ r.target ++ ": " ++ r.message ++ "\n"

/-- What a log file behind `filter` holds after `records`. -/
def transcript (filter : Filter) (records : List Record) : String :=
  String.join ((records.filter fun r => filter.admits r.level).map Record.line)

end Log

/-- A file for records. -/
structure LogFile where
  path : Path
  filter : Log.Filter
deriving Repr, DecidableEq

/-- Append those of the records that are let through. -/
def LogFile.append {m : Type → Type} [Monad m] [Files m] (file : LogFile)
    (records : Array Log.Record) : m Unit := do
  let lines := Log.transcript file.filter records.toList
  if lines = "" then return
  discard (Files.append file.path lines.toUTF8.data)

end BitmapText
