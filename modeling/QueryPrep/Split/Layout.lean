import QueryPrep.Millis
import QueryPrep.Text.Numeral

/-!
# Laying chunks back from the end of a range

A `Chunk` is one piece of a split range, with both of its bounds. A range is cut from its end
backwards, so that only the earliest chunk can be short. A metric query is evaluated on the
multiples of its step: its chunks have their bounds on that grid, both inclusive, and each starts
one step after the one before it has ended. A log query has no grid: its chunks share their bounds.

Both layouts are one walk, `layBack`. It goes from the last instant towards the first and lays a
chunk at every stop, until the next chunk would end before `least`; the chunk that would reach below
`first` is cut off there. The walk has room for as many chunks as the cap allows and gives up when
it needs more. It never computes how many chunks there will be.

Numbers are exact, and the range of milliseconds is minded where a bound may leave it. The start
aligned down, the end aligned up and the stride are refused; the start of a chunk is held at the
limit; and a metric walk is over where the chunk before would have to end below the range.
-/

namespace QueryPrep

/-- One piece of a split range: the first and the last instant it covers, in epoch milliseconds. -/
structure Chunk where
  first : Int
  last : Int
deriving DecidableEq, Repr

namespace Chunk

/-- How far a chunk reaches, in milliseconds. -/
def span (c : Chunk) : Int :=
  c.last - c.first

/-- The text of a chunk: its two bounds in brackets. -/
def render (c : Chunk) : String :=
  "[" ++ Decimal.render c.first ++ ", " ++ Decimal.render c.last ++ "]"

end Chunk

/-! ### The grid of a step -/

namespace Grid

/-- The greatest multiple of the step that is not after an instant. -/
def alignDown (step t : Int) : Int :=
  t - t % step

/-- The least multiple of the step that is not before an instant. -/
def alignUp (step t : Int) : Int :=
  if t % step = 0 then t else t + (step - t % step)

/-- The greatest multiple of the step that is not longer than a span. -/
def fit (step span : Int) : Int :=
  span / step * step

end Grid

/-! ### The walk -/

/-- What a walk goes by: where the earliest chunk is cut off, the least instant a chunk may end at,
how far a full chunk reaches, and where the chunk before another one ends, if that is an instant. -/
structure Stretch where
  first : Int
  least : Int
  span : Int
  before : Chunk → Option Int

namespace Stretch

/-- The chunk that ends at an instant. -/
def chunkAt (s : Stretch) (last : Int) : Chunk :=
  ⟨max (Millis.clamp (last - s.span)) s.first, last⟩

/-- Lays chunks from `last` backwards in front of those laid already, at most `room` of them. -/
def layBack (s : Stretch) : (room : Nat) → (last : Int) → (later : List Chunk) →
    Option (List Chunk)
  | room, last, later =>
    if last < s.least then some later
    else match room with
      | 0 => none
      | room + 1 =>
        match s.before (s.chunkAt last) with
        | none => some (s.chunkAt last :: later)
        | some next => layBack s room next (s.chunkAt last :: later)

end Stretch

/-! ### Requests and refusals -/

/-- Why a range cannot be split. -/
inductive Refusal where
  /-- A step or a chunk span that is not positive, or a range whose start is after its end. -/
  | malformed
  /-- The chunks would be shorter than the step. -/
  | spanBelowStep
  /-- The aligned range or the stride leaves the range of milliseconds. -/
  | outOfRange
  /-- There is nothing between the two ends. -/
  | empty
  /-- More chunks would be needed than the cap allows. -/
  | tooMany
deriving DecidableEq, Repr

/-- A metric query range, its step and the largest span of a chunk. -/
structure MetricSplit where
  start : Int
  stop : Int
  step : Int
  maxSpan : Int
deriving DecidableEq, Repr

namespace MetricSplit

/-- The start of the range aligned outwards to the grid. -/
def first (q : MetricSplit) : Int :=
  Grid.alignDown q.step q.start

/-- The end of the aligned range. -/
def last (q : MetricSplit) : Int :=
  Grid.alignUp q.step q.stop

/-- How far apart the ends of two neighbours are: a full chunk and one step. -/
def stride (q : MetricSplit) : Int :=
  Grid.fit q.step q.maxSpan + q.step

/-- The aligned range as a stretch. -/
def stretch (q : MetricSplit) : Stretch where
  first := q.first
  least := q.first
  span := Grid.fit q.step q.maxSpan
  before c := Millis.checked? (c.last - q.stride)

/-- Splits a metric query range into at most `cap` chunks on the grid of its step. -/
def chunks (q : MetricSplit) (cap : Nat) : Except Refusal (List Chunk) :=
  if q.step ≤ 0 ∨ q.stop < q.start then .error .malformed
  else if q.maxSpan < q.step then .error .spanBelowStep
  else if ¬ (Millis.Fits q.first ∧ Millis.Fits q.last) then .error .outOfRange
  else if q.last ≤ q.first then .error .empty
  else if ¬ Millis.Fits q.stride then .error .outOfRange
  else (q.stretch.layBack cap q.last []).elim (.error .tooMany) .ok

end MetricSplit

/-- A log query range and the span of its chunks. -/
structure LogSplit where
  start : Int
  stop : Int
  span : Int
deriving DecidableEq, Repr

namespace LogSplit

/-- The range as a stretch whose chunks share their bounds and are never empty. -/
def stretch (q : LogSplit) : Stretch where
  first := q.start
  least := q.start + 1
  span := q.span
  before c := some c.first

/-- Splits a log query range into at most `cap` chunks of the given span. -/
def chunks (q : LogSplit) (cap : Nat) : Except Refusal (List Chunk) :=
  if q.span ≤ 0 then .error .malformed
  else if q.stop ≤ q.start then .error .empty
  else (q.stretch.layBack cap q.stop []).elim (.error .tooMany) .ok

end LogSplit

/-- The cap on the number of chunks when nothing else is said. -/
def defaultCap : Nat := 50

/-! ### First facts -/

namespace Stretch

theorem layBack_of_lt (s : Stretch) {last : Int} (h : last < s.least) (room : Nat)
    (later : List Chunk) : s.layBack room last later = some later := by
  cases room <;> simp [layBack, h]

theorem layBack_zero (s : Stretch) {last : Int} (h : s.least ≤ last) (later : List Chunk) :
    s.layBack 0 last later = none := by
  simp [layBack, Int.not_lt.2 h]

theorem layBack_succ_of_none (s : Stretch) {last : Int} (h : s.least ≤ last)
    (hb : s.before (s.chunkAt last) = none) (room : Nat) (later : List Chunk) :
    s.layBack (room + 1) last later = some (s.chunkAt last :: later) := by
  rw [layBack, if_neg (Int.not_lt.2 h)]
  simp only [hb]

theorem layBack_succ_of_some (s : Stretch) {last next : Int} (h : s.least ≤ last)
    (hb : s.before (s.chunkAt last) = some next) (room : Nat) (later : List Chunk) :
    s.layBack (room + 1) last later = s.layBack room next (s.chunkAt last :: later) := by
  rw [layBack, if_neg (Int.not_lt.2 h)]
  simp only [hb]

end Stretch

end QueryPrep
