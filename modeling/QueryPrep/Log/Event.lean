import QueryPrep.Config.Settings
import QueryPrep.Filter.Reading
import QueryPrep.Split.Layout

/-!
# Log events

What a run has to tell beside its result: why a range was refused, which rows were skipped and what
a query was compiled from. An event has a level, the part of the program it comes from as its
target, and fields.
-/

namespace QueryPrep

/-- How grave an event is, or how much of the events a filter lets through. -/
inductive LogLevel where
  /-- Nothing; no event has this level. -/
  | off
  | error
  | warn
  | info
  | debug
  | trace
deriving DecidableEq, Repr

namespace LogLevel

/-- The levels from the least to the most talkative one. -/
def all : List LogLevel :=
  [off, error, warn, info, debug, trace]

/-- The number of a level. -/
def rank (l : LogLevel) : Nat :=
  all.idxOf l

def name : LogLevel → String
  | off => "off"
  | error => "error"
  | warn => "warn"
  | info => "info"
  | debug => "debug"
  | trace => "trace"

/-- The level with a name, in any mixture of capital and small letters, or with a number. -/
def ofName? (s : String) : Option LogLevel :=
  ((Decimal.readUnsigned? s.toList).bind fun n => all[n]?) <|>
    all.find? (·.name = s.toLower) <|>
    if s = "" then some error else none

end LogLevel

structure LogEvent where
  level : LogLevel
  target : String
  message : String
  fields : List (String × Json.Value)

namespace LogEvent

/-- The members of the event as an object. -/
def members (e : LogEvent) : List (String × Json.Value) := [
  ("level", .string e.level.name.toUpper),
  ("fields", .object (("message", .string e.message) :: e.fields)),
  ("target", .string e.target)]

/-- The event as a log line, `time` being when it happened. -/
def line (e : LogEvent) (time : String) : LogFormat → String
  | .json =>
    (Json.Value.object (("timestamp", .string time) :: e.members)).render ++ "\n"
  | .pretty =>
    let fields := e.fields.map fun (k, v) => " " ++ k ++ "=" ++ v.render
    time ++ " " ++ e.level.name.toUpper ++ " " ++ e.target ++ ": " ++ e.message ++
      String.join fields ++ "\n"

/-! ### Splitting -/

/-- What is told of a metric query range that cannot be split. -/
def ofMetricRefusal (q : MetricSplit) (cap : Nat) : Refusal → List LogEvent
  | .spanBelowStep => [{
      level := .debug
      target := "querysplit::split::chunker"
      message := "chunk size is smaller than step"
      fields := [("step", .int q.step), ("max_chunk_ms", .int q.maxSpan)] }]
  | .tooMany => [{
      level := .debug
      target := "querysplit::split::chunker"
      message := "too many chunks requested"
      fields := [("start", .int q.start), ("end", .int q.stop), ("step", .int q.step),
        ("max_chunk_ms", .int q.maxSpan), ("max_chunk_count", .int cap)] }]
  | _ => []

/-- What is told of a log query range that cannot be split. -/
def ofLogRefusal (q : LogSplit) (cap : Nat) : Refusal → List LogEvent
  | .tooMany => [{
      level := .debug
      target := "querysplit::split::chunker"
      message := "too many log chunks requested"
      fields := [("start", .int q.start), ("end", .int q.stop), ("chunk_ms", .int q.span),
        ("max_chunk_count", .int cap)] }]
  | _ => []

/-! ### Compiling -/

/-- What is told of a value that is no row, at its place in the list. -/
def ofSkippedRow (index : Nat) : LogEvent where
  level := .debug
  target := "querysplit::traceql::filter"
  message := "skipping malformed filter row"
  fields := [("index", .int index), ("error", .string "not a filter row")]

/-- What is told of rows that were compiled. -/
def ofQuery (rows : List FilterRow) : LogEvent where
  level := .trace
  target := "querysplit::traceql::compiler"
  message := "compiled trace filters"
  fields := [("filters", .int rows.length), ("clauses", .int (Query.clauses rows).length)]

/-- What is told when values are read as rows and compiled. -/
def ofCompiling (values : List Json.Value) : List LogEvent :=
  (values.zipIdx.filterMap fun (v, i) =>
    if (FilterRow.ofValue? v).isNone then some (ofSkippedRow i) else none) ++
  [ofQuery (FilterRow.ofValues values)]

end LogEvent

end QueryPrep
