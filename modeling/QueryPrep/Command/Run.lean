import QueryPrep.Command.Line
import QueryPrep.Config.Search
import QueryPrep.Log.Filter
import QueryPrep.Split.Reading
import QueryPrep.Split.Table

/-!
# Runs

A run is a function from the words of a command line and what it can see of the world to what it
prints, the files it leaves behind and the events it logs. It is done in three stages, none of which
looks into a later one:

* the settings are found (`settingsOf`);
* logging is set up from them (`Logging.setUp`), which can fail without any harm;
* the command is carried out (`carryOut`), which knows of all settings only the cap.

A command prints its whole result or nothing.
-/

namespace QueryPrep

/-- What a run can see. -/
structure World where
  files : FileTree
  environment : Environment
  /-- The user's directory for settings. -/
  settingsHome : Option String
  input : ByteArray
  clock : Clock

/-! ### Carrying out commands -/

/-- Why a command fails. -/
inductive CommandError where
  | settings (e : SettingsError)
  | time (e : TimeError)
  | reversed (start stop : Int)
  | unreadableFile (path : String)
  | unreadableInput
  /-- The input is no array of rows. -/
  | noRows
  | unwritable (path : String)
deriving DecidableEq, Repr

namespace CommandError

def message : CommandError → String
  | settings e => e.message
  | time e => e.message
  | reversed start stop =>
    "Range start " ++ Decimal.render start ++ " is after end " ++ Decimal.render stop
  | unreadableFile path => "Failed to read " ++ path
  | unreadableInput => "Failed to read stdin"
  | noRows => "Expected a JSON array of filter rows"
  | unwritable path => "Failed to write " ++ path

def ofOrder : OrderError → CommandError
  | .time e => time e
  | .reversed start stop => reversed start stop

end CommandError

/-- What a command comes to. -/
structure Answer where
  /-- The range could not be split. -/
  refused : Bool
  output : String
  complaint : String
  events : List LogEvent
  files : FileTree

namespace Command

/-- The answer to a split: the chunks, or the refusal, which names the cap. -/
def answerSplit (format : OutputFormat) (cap : Nat) (files : FileTree)
    (events : Refusal → List LogEvent) : Except Refusal (List Chunk) → Answer
  | .ok chunks => {
      refused := false
      output := match format with
        | .json => (Chunk.listToValue chunks).render ++ "\n"
        | .table => ChunkTable.render chunks
      complaint := ""
      events := []
      files }
  | .error r => {
      refused := true
      output := match format with
        | .json => "null\n"
        | .table => ""
      complaint := "Cannot split range: chunk size is below the step, the range is empty, " ++
        "or more than " ++ Decimal.render cap ++ " chunks would be needed\n"
      events := events r
      files }

/-- The values of a text that is one JSON array. -/
def readRows (text : String) : Except CommandError (List Json.Value) :=
  let reader (n : Json.Node) : Except Json.Fault (List Json.Value) :=
    match n.keep Json.Node.maxLevels with
    | some (.array values) => .ok values
    | _ => .error .mismatch
  (Json.Document.read reader text).mapError fun _ => .noRows

/-- The text that rows are read from. -/
def source (w : World) : Option String → Except CommandError String
  | some path => (w.files.readText path).mapError fun _ => .unreadableFile path
  | none =>
    match String.fromUTF8? w.input with
    | some text => .ok text
    | none => .error .unreadableInput

/-- Carries out a command. -/
def carryOut (w : World) (cap : Nat) (format : OutputFormat) : Command → Except CommandError Answer
  | split order => do
    let q ← (order.resolve w.clock).mapError .ofOrder
    return answerSplit format cap w.files (LogEvent.ofMetricRefusal q cap) (q.chunks cap)
  | splitLogs order => do
    let q ← (order.resolve w.clock).mapError .ofOrder
    return answerSplit format cap w.files (LogEvent.ofLogRefusal q cap) (q.chunks cap)
  | compile file => do
    let values ← readRows (← source w file)
    let query := Query.compile (FilterRow.ofValues values)
    return {
      refused := false
      output := match format with
        | .json => (Json.Value.object [("query", .string query)]).render ++ "\n"
        | .table => query ++ "\n"
      complaint := ""
      events := LogEvent.ofCompiling values
      files := w.files }
  | sample none =>
    return {
      refused := false
      output := Settings.sample
      complaint := ""
      events := []
      files := w.files }
  | sample (some path) =>
    match w.files.write path Settings.sample.toUTF8 with
    | .error _ => .error (.unwritable path)
    | .ok files => return {
        refused := false
        output := "Config written to " ++ path ++ "\n"
        complaint := ""
        events := []
        files }

end Command

/-! ### Logging -/

/-- Where log events go. -/
inductive LogSink where
  | errorOutput
  | file (loc : Location)
deriving DecidableEq, Repr

/-- Why logging cannot be set up. -/
inductive LoggingError where
  | filter (e : LogFilterError)
  | file (path : String) (e : FileError)
deriving DecidableEq, Repr

namespace LoggingError

def message : LoggingError → String
  | filter e => "Invalid log filter: " ++ e.message
  | file path e => "Failed to open log file " ++ path ++ ": " ++ e.message

end LoggingError

/-- How a run logs. -/
structure Logging where
  filter : LogFilter
  sink : LogSink
  format : LogFormat

namespace Logging

/-- Sets up logging; the log file is added if it is not there. -/
def setUp (s : LogSettings) (wanted : Option String) (files : FileTree) :
    Except LoggingError (Logging × FileTree) := do
  let filter ← (LogFilter.choose wanted s.level).mapError .filter
  match s.file with
  | none => return (⟨filter, .errorOutput, s.format⟩, files)
  | some path => do
    let (loc, files) ← (files.openForAppending path).mapError (.file path)
    return (⟨filter, .file loc, s.format⟩, files)

end Logging

/-! ### Runs -/

/-- What a run leaves behind. -/
structure Outcome where
  status : Nat
  output : String
  errorOutput : String
  files : FileTree
  /-- How events are logged, if logging could be set up, and the events that the filter let
  through. -/
  logging : Option Logging
  events : List LogEvent

namespace Outcome

/-- The outcome of a line that is not formed as it should be. -/
def usage (files : FileTree) : Outcome where
  status := 2
  output := ""
  errorOutput := "error: unexpected arguments\n\n" ++
    "Usage: querysplit [OPTIONS] <split|split-logs|traceql|config>\n"
  files
  logging := none
  events := []

/-- The outcome of asking for the version. -/
def ofVersion (files : FileTree) : Outcome where
  status := 0
  output := "querysplit " ++ version ++ "\n"
  errorOutput := ""
  files
  logging := none
  events := []

/-- The outcome of a failure, behind what was complained of before. -/
def failure (files : FileTree) (logging : Option Logging) (complaint : String) (e : CommandError) :
    Outcome where
  status := 1
  output := ""
  errorOutput := complaint ++ "Error: " ++ e.message ++ "\n"
  files
  logging
  events := []

/-- The outcome of a command, behind what was complained of before. -/
def ofAnswer (a : Answer) (logging : Option Logging) (complaint : String) : Outcome where
  status := if a.refused then 2 else 0
  output := a.output
  errorOutput := complaint ++ a.complaint
  files := a.files
  logging
  events := logging.elim [] fun l => a.events.filter fun e => l.filter.Admits e

/-- The outcome with its events written to where they go, `time` being when they happened. On the
error output they stand in front of what the command complains of. -/
def tell (o : Outcome) (time : String) : Outcome :=
  match o.logging with
  | none => o
  | some l =>
    let text := String.join (o.events.map fun e => e.line time l.format)
    match l.sink with
    | .errorOutput => { o with errorOutput := text ++ o.errorOutput }
    | .file loc => { o with files := o.files.append loc text.toUTF8 }

end Outcome

namespace Invocation

/-- The settings of a run. -/
def settingsOf (i : Invocation) (w : World) : Except SettingsError Settings :=
  match i.settings with
  | some path => Settings.loadWith w.files w.environment path
  | none => .ok (Settings.search w.files w.environment w.settingsHome)

/-- Runs a command. -/
def run (i : Invocation) (w : World) : Outcome :=
  match i.settingsOf w with
  | .error e => .failure w.files none "" (.settings e)
  | .ok s =>
    let (logging, files, complaint) :=
      match Logging.setUp s.logging (w.environment LogFilter.variableName) w.files with
      | .ok (l, files) => (some l, files, "")
      | .error e => (none, w.files, "Failed to initialise logging: " ++ e.message ++ "\n")
    match i.command.carryOut { w with files } s.cap i.format with
    | .ok a => .ofAnswer a logging complaint
    | .error e => .failure files logging complaint e

end Invocation

namespace CommandLine

/-- Runs the command that some words ask for. -/
def run (words : List String) (w : World) : Outcome :=
  match read words with
  | none => .usage w.files
  | some .version => .ofVersion w.files
  | some (.invoke i) => i.run w

end CommandLine

end QueryPrep
