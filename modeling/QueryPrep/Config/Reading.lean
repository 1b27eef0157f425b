import QueryPrep.Config.Settings
import QueryPrep.Toml.Document

/-!
# Settings files

A settings file is a TOML document. It has a table for each group of settings; a group may also be
an array of its settings in order. What is missing keeps its standard value, unknown keys are
ignored, and a single value of the wrong kind makes the whole file unusable. A point in time in the
place of a group counts as a table without any setting.
-/

namespace QueryPrep

open QueryPrep.Toml (Value Table)

/-! ### Values of settings -/

namespace Settings

/-- A number below a limit. -/
def readNumber (limit : Nat) : Value → Option Nat
  | .integer n => if 0 ≤ n ∧ n < limit then some n.toNat else none
  | _ => none

def readText : Value → Option String
  | .string s => some s
  | _ => none

/-- A log format by its name, as a string or as the only key of a table with an empty value. -/
def readFormat : Value → Option LogFormat
  | .string s => LogFormat.ofName? s
  | .table [(name, .table [] _)] _ | .table [(name, .array [] _)] _ => LogFormat.ofName? name
  | _ => none

/-! ### Groups of settings -/

/-- The values of a group's settings, those of an array by their place. In an array the settings
that have no standard value must be there, so it must have at least `least` items. -/
def group (names : List String) (least : Nat) : Value → Option (List (Option Value))
  | .table entries _ => some (names.map (Table.find? entries ·))
  | .moment _ => some (names.map fun _ => none)
  | .array items _ =>
    if items.length < least then none
    else some ((items.map some).take names.length ++
      List.replicate (names.length - items.length) none)
  | _ => none

/-- A setting, or its standard value. -/
def orStandard {α : Type} (read : Value → Option α) (standard : α) : Option Value → Option α
  | none => some standard
  | some v => read v

def readSplit (v : Value) : Option Nat := do
  let [cap] ← group ["max_chunk_count"] 0 v | none
  orStandard (readNumber UInt64.size) defaultCap cap

def readService (v : Value) : Option ServiceSettings := do
  let [host, port, timeout] ← group ["host", "port", "request_timeout_secs"] 0 v | none
  return {
    host := ← orStandard readText ServiceSettings.standard.host host
    port := ← orStandard (readNumber UInt16.size) ServiceSettings.standard.port port
    timeout := ← orStandard (readNumber UInt64.size) ServiceSettings.standard.timeout timeout }

def readLogging (v : Value) : Option LogSettings := do
  let [level, format, file] ← group ["level", "format", "file"] 3 v | none
  return {
    level := ← orStandard readText LogSettings.standard.level level
    format := ← orStandard readFormat LogSettings.standard.format format
    file := ← orStandard (some <$> readText ·) LogSettings.standard.file file }

/-- The settings of a document. -/
def ofTable (t : Table) : Option Settings := do
  return {
    cap := ← orStandard readSplit defaultCap (t.find? "split")
    service := ← orStandard readService .standard (t.find? "api")
    logging := ← orStandard readLogging .standard (t.find? "logging") }

/-- Reads the text of a settings file. -/
def parse (text : String) : Option Settings := do
  ofTable (← Toml.parse text)

end Settings

end QueryPrep
