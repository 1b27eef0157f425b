import QueryPrep.Split.Layout
import QueryPrep.Time.Timestamp

/-!
# Orders

What somebody asks to be split: two instants and spans of time, each as a number of milliseconds or
as a text. An order is resolved against the clock, in a fixed sequence (the start, the end, whether
they are in order, then the spans), and the first thing that cannot be resolved is reported. The
instants are a `TimeRange` only if they are in order.

The command line and the service both take orders, so they agree on every split.
-/

namespace QueryPrep

/-- An instant or a span of time as it was given. -/
inductive Quantity where
  | millis (n : Int)
  | text (s : String)
deriving DecidableEq, Repr

namespace Quantity

/-- The instant, in epoch milliseconds. -/
def instant (now : Int) : Quantity → Except TimeError Int
  | millis n => .ok n
  | text s => Timestamp.parse s now

/-- The span in milliseconds. -/
def span : Quantity → Except TimeError Int
  | millis n => .ok n
  | text s => (fun n : Nat => (n : Int)) <$> Duration.parse s

end Quantity

/-- Two instants, in epoch milliseconds, with the start not after the stop. -/
structure TimeRange where
  start : Int
  stop : Int
  start_le_stop : start ≤ stop
deriving DecidableEq, Repr

namespace TimeRange

/-- The range between two instants, if they are in order. -/
def ofBounds? (start stop : Int) : Option TimeRange :=
  if h : start ≤ stop then some ⟨start, stop, h⟩ else none

end TimeRange

/-- What the clock shows when the start of a range is resolved, and when its end is. -/
structure Clock where
  atStart : Int
  atStop : Int

/-- Why an order cannot be resolved. -/
inductive OrderError where
  | time (e : TimeError)
  /-- The start is after the end. -/
  | reversed (start stop : Int)
deriving DecidableEq, Repr

/-- A range as it was given. -/
structure RangeOrder where
  start : Quantity
  stop : Quantity
deriving DecidableEq, Repr

namespace RangeOrder

def resolve (o : RangeOrder) (clock : Clock) : Except OrderError TimeRange := do
  let start ← (o.start.instant clock.atStart).mapError .time
  let stop ← (o.stop.instant clock.atStop).mapError .time
  match TimeRange.ofBounds? start stop with
  | some r => return r
  | none => .error (.reversed start stop)

end RangeOrder

/-- An order to split a metric query range. -/
structure MetricOrder where
  range : RangeOrder
  step : Quantity
  maxSpan : Quantity
deriving DecidableEq, Repr

namespace MetricOrder

def resolve (o : MetricOrder) (clock : Clock) : Except OrderError MetricSplit := do
  let range ← o.range.resolve clock
  let step ← o.step.span.mapError .time
  let maxSpan ← o.maxSpan.span.mapError .time
  return ⟨range.start, range.stop, step, maxSpan⟩

end MetricOrder

/-- An order to split a log query range. -/
structure LogOrder where
  range : RangeOrder
  span : Quantity
deriving DecidableEq, Repr

namespace LogOrder

def resolve (o : LogOrder) (clock : Clock) : Except OrderError LogSplit := do
  let range ← o.range.resolve clock
  let span ← o.span.span.mapError .time
  return ⟨range.start, range.stop, span⟩

end LogOrder

end QueryPrep
