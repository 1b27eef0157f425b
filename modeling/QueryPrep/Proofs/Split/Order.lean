import QueryPrep.Proofs.Json.Record
import QueryPrep.Proofs.Time.Bounds
import QueryPrep.Split.Reading

/-!
# What is wrong with an order

An order is resolved step by step, and the first step that fails decides what is reported: its start
cannot be read, or its end, or the start is the later one, or one of its spans cannot be read, in
this sequence. `OrderFault` states the sequence for orders with any number of spans, and orders of
both kinds follow it (`MetricOrder.resolve_eq_error_iff`, `LogOrder.resolve_eq_error_iff`). What it
says is wrong is one thing at most (`OrderFault.unique`).

Instants that are given as numbers are in range when they have been read from JSON, and so are those
of texts; hence both ends of a log split are (`LogOrder.fits_of_read`, `LogOrder.fits_of_resolve`).
-/

namespace QueryPrep

open QueryPrep.Json

/-! ### Ranges -/

namespace RangeOrder

/-- The first thing that is wrong with a range. -/
inductive Fault (o : RangeOrder) (clock : Clock) : OrderError → Prop where
  | start {e : TimeError} (h : o.start.instant clock.atStart = .error e) : Fault o clock (.time e)
  | stop {a : Int} {e : TimeError} (ha : o.start.instant clock.atStart = .ok a)
      (h : o.stop.instant clock.atStop = .error e) : Fault o clock (.time e)
  | reversed {a b : Int} (ha : o.start.instant clock.atStart = .ok a)
      (hb : o.stop.instant clock.atStop = .ok b) (h : b < a) : Fault o clock (.reversed a b)

variable {o : RangeOrder} {clock : Clock} {e : OrderError} {a b : Int} {range : TimeRange}

/-- A range whose ends are both read. -/
theorem resolve_eq_ite (ha : o.start.instant clock.atStart = .ok a)
    (hb : o.stop.instant clock.atStop = .ok b) :
    o.resolve clock = if h : a ≤ b then .ok ⟨a, b, h⟩ else .error (.reversed a b) := by
  simp only [resolve, ha, hb, Except.mapError, bind, Except.bind, TimeRange.ofBounds?]
  split_ifs <;> rfl

theorem resolve_eq_ok_iff : o.resolve clock = .ok range ↔
    o.start.instant clock.atStart = .ok range.start ∧
      o.stop.instant clock.atStop = .ok range.stop := by
  constructor
  · intro h
    rcases ha : o.start.instant clock.atStart with e | a
    · simp [resolve, ha, Except.mapError, bind, Except.bind] at h
    · rcases hb : o.stop.instant clock.atStop with e | b
      · simp [resolve, ha, hb, Except.mapError, bind, Except.bind] at h
      · rw [resolve_eq_ite ha hb] at h
        split_ifs at h
        obtain rfl := Except.ok.inj h
        exact ⟨rfl, rfl⟩
  · rintro ⟨ha, hb⟩
    rw [resolve_eq_ite ha hb, dif_pos range.start_le_stop]

theorem resolve_eq_error_iff : o.resolve clock = .error e ↔ o.Fault clock e := by
  constructor
  · intro h
    rcases ha : o.start.instant clock.atStart with e' | a
    · obtain rfl : OrderError.time e' = e := by
        simpa [resolve, ha, Except.mapError, bind, Except.bind] using h
      exact .start ha
    · rcases hb : o.stop.instant clock.atStop with e' | b
      · obtain rfl : OrderError.time e' = e := by
          simpa [resolve, ha, hb, Except.mapError, bind, Except.bind] using h
        exact .stop ha hb
      · rw [resolve_eq_ite ha hb] at h
        split_ifs at h with hle
        obtain rfl := Except.error.inj h
        exact .reversed ha hb (Int.not_le.mp hle)
  · rintro (ha | ⟨ha, hb⟩ | ⟨ha, hb, hlt⟩)
    · simp [resolve, ha, Except.mapError, bind, Except.bind]
    · simp [resolve, ha, hb, Except.mapError, bind, Except.bind]
    · rw [resolve_eq_ite ha hb, dif_neg (Int.not_le.mpr hlt)]

theorem fault_reversed_iff : o.Fault clock (.reversed a b) ↔
    o.start.instant clock.atStart = .ok a ∧ o.stop.instant clock.atStop = .ok b ∧ b < a := by
  constructor
  · intro h
    cases h with
    | reversed ha hb hlt => exact ⟨ha, hb, hlt⟩
  · rintro ⟨ha, hb, hlt⟩
    exact .reversed ha hb hlt

end RangeOrder

/-! ### Whole orders -/

/-- The first of some spans that cannot be read, and why. -/
inductive FirstUnreadable : List Quantity → TimeError → Prop where
  | head {q : Quantity} {qs : List Quantity} {e : TimeError} (h : q.span = .error e) :
      FirstUnreadable (q :: qs) e
  | tail {q : Quantity} {qs : List Quantity} {n : Int} {e : TimeError} (hq : q.span = .ok n)
      (h : FirstUnreadable qs e) : FirstUnreadable (q :: qs) e

theorem FirstUnreadable.unique {qs : List Quantity} {e e' : TimeError} (h : FirstUnreadable qs e)
    (h' : FirstUnreadable qs e') : e = e' := by
  induction h with
  | head h =>
      cases h' with
      | head h' => exact Except.error.inj (h.symm.trans h')
      | tail hq => cases h.symm.trans hq
  | tail hq _ ih =>
      cases h' with
      | head h' => cases h'.symm.trans hq
      | tail _ h' => exact ih h'

/-- The first thing that is wrong with an order of a range and some spans. -/
inductive OrderFault (range : RangeOrder) (spans : List Quantity) (clock : Clock) :
    OrderError → Prop where
  | range {e : OrderError} (h : range.Fault clock e) : OrderFault range spans clock e
  | span {r : TimeRange} {e : TimeError} (hr : range.resolve clock = .ok r)
      (h : FirstUnreadable spans e) : OrderFault range spans clock (.time e)

theorem OrderFault.unique {range : RangeOrder} {spans : List Quantity} {clock : Clock}
    {e e' : OrderError} (h : OrderFault range spans clock e)
    (h' : OrderFault range spans clock e') : e = e' := by
  -- spans are not looked at unless the range has been resolved
  have hfirst : ∀ {e r}, range.Fault clock e → range.resolve clock ≠ .ok r := by
    intro e r he hr
    cases hr.symm.trans (RangeOrder.resolve_eq_error_iff.mpr he)
  cases h with
  | range h =>
      cases h' with
      | range h' =>
          rw [← RangeOrder.resolve_eq_error_iff] at h h'
          exact Except.error.inj (h.symm.trans h')
      | span hr _ => exact absurd hr (hfirst h)
  | span hr h =>
      cases h' with
      | range h' => exact absurd hr (hfirst h')
      | span _ h' => rw [h.unique h']

/-- Only a range can be reversed. -/
theorem orderFault_reversed_iff {range : RangeOrder} {spans : List Quantity} {clock : Clock}
    {a b : Int} :
    OrderFault range spans clock (.reversed a b) ↔ range.Fault clock (.reversed a b) := by
  constructor
  · intro h
    cases h with
    | range h => exact h
  · exact .range

theorem MetricOrder.resolve_eq_error_iff {order : MetricOrder} {clock : Clock} {e : OrderError} :
    order.resolve clock = .error e ↔
      OrderFault order.range [order.step, order.maxSpan] clock e := by
  constructor
  · intro h
    rcases hr : order.range.resolve clock with e' | r
    · obtain rfl : e' = e := by simpa [resolve, hr, bind, Except.bind] using h
      exact .range (RangeOrder.resolve_eq_error_iff.mp hr)
    · rcases hstep : order.step.span with e' | n
      · obtain rfl : OrderError.time e' = e := by
          simpa [resolve, hr, hstep, Except.mapError, bind, Except.bind] using h
        exact .span hr (.head hstep)
      · rcases hspan : order.maxSpan.span with e' | m
        · obtain rfl : OrderError.time e' = e := by
            simpa [resolve, hr, hstep, hspan, Except.mapError, bind, Except.bind] using h
          exact .span hr (.tail hstep (.head hspan))
        · simp [resolve, hr, hstep, hspan, Except.mapError, bind, Except.bind, pure,
            Except.pure] at h
  · rintro (h | ⟨hr, hstep | ⟨hstep, hspan | ⟨-, ⟨⟩⟩⟩⟩)
    · simp [resolve, RangeOrder.resolve_eq_error_iff.mpr h, bind, Except.bind]
    · simp [resolve, hr, hstep, Except.mapError, bind, Except.bind]
    · simp [resolve, hr, hstep, hspan, Except.mapError, bind, Except.bind]

theorem LogOrder.resolve_eq_error_iff {order : LogOrder} {clock : Clock} {e : OrderError} :
    order.resolve clock = .error e ↔ OrderFault order.range [order.span] clock e := by
  constructor
  · intro h
    rcases hr : order.range.resolve clock with e' | r
    · obtain rfl : e' = e := by simpa [resolve, hr, bind, Except.bind] using h
      exact .range (RangeOrder.resolve_eq_error_iff.mp hr)
    · rcases hspan : order.span.span with e' | n
      · obtain rfl : OrderError.time e' = e := by
          simpa [resolve, hr, hspan, Except.mapError, bind, Except.bind] using h
        exact .span hr (.head hspan)
      · simp [resolve, hr, hspan, Except.mapError, bind, Except.bind, pure, Except.pure] at h
  · rintro (h | ⟨hr, hspan | ⟨-, ⟨⟩⟩⟩)
    · simp [resolve, RangeOrder.resolve_eq_error_iff.mpr h, bind, Except.bind]
    · simp [resolve, hr, hspan, Except.mapError, bind, Except.bind]

/-! ### Numbers in range -/

namespace Quantity

/-- The quantity is a text, or a number in the range of milliseconds. -/
def Fits : Quantity → Prop
  | millis n => Millis.Fits n
  | text _ => True

variable {q : Quantity} {n : Node} {now i : Int}

theorem fits_of_ofNode (h : ofNode n = .ok q) : q.Fits := by
  unfold ofNode at h
  split at h
  · cases h
  · split_ifs at h with hfits
    obtain rfl := Except.ok.inj h
    exact hfits
  · obtain rfl := Except.ok.inj h
    trivial
  · cases h

theorem Fits.instant (hq : q.Fits) (hnow : Millis.Fits now) (h : q.instant now = .ok i) :
    Millis.Fits i := by
  cases q with
  | millis n =>
      obtain rfl := Except.ok.inj h
      exact hq
  | text s => exact Timestamp.parse_fits hnow h

end Quantity

namespace RangeOrder

/-- Both ends are texts or in the range of milliseconds. -/
def Fits (o : RangeOrder) : Prop :=
  o.start.Fits ∧ o.stop.Fits

/-- A range that is resolved is in the range of milliseconds. -/
theorem Fits.resolve {o : RangeOrder} {clock : Clock} {range : TimeRange} (ho : o.Fits)
    (hstart : Millis.Fits clock.atStart) (hstop : Millis.Fits clock.atStop)
    (h : o.resolve clock = .ok range) : Millis.Fits range.start ∧ Millis.Fits range.stop := by
  obtain ⟨ha, hb⟩ := resolve_eq_ok_iff.mp h
  exact ⟨ho.1.instant hstart ha, ho.2.instant hstop hb⟩

end RangeOrder

namespace OrderDraft

/-- The ends that have been read are texts or in the range of milliseconds. -/
def Fits (d : OrderDraft) : Prop :=
  (∀ q ∈ d.start, q.Fits) ∧ ∀ q ∈ d.stop, q.Fits

theorem fits_empty : empty.Fits :=
  ⟨by rintro q ⟨⟩, by rintro q ⟨⟩⟩

theorem Fits.read_field {name : String} {f : RecordField OrderDraft} {n : Node} {d d' : OrderDraft}
    (hf : f ∈ [startField, stopField, stepField, spanField name]) (h : f.read n d = .ok d')
    (hd : d.Fits) : d'.Fits := by
  simp only [List.mem_cons, List.not_mem_nil, or_false] at hf
  rcases hf with rfl | rfl | rfl | rfl <;> obtain ⟨q, hq, h⟩ := bind_eq_ok_iff.mp h <;>
    obtain rfl := Except.ok.inj h
  · refine ⟨fun p hp => ?_, hd.2⟩
    obtain rfl := Option.some.inj hp
    exact Quantity.fits_of_ofNode hq
  · refine ⟨hd.1, fun p hp => ?_⟩
    obtain rfl := Option.some.inj hp
    exact Quantity.fits_of_ofNode hq
  · exact hd
  · exact hd

end OrderDraft

open OrderDraft

variable {n : Node}

namespace LogOrder

variable {order : LogOrder}

/-- The fields of a log order are among those of metric orders, but for the name of the span. -/
theorem mem_fields_of_mem_shape {f : RecordField OrderDraft} (hf : f ∈ shape.fields) :
    f ∈ [startField, stopField, stepField, spanField "chunk"] := by
  simp only [shape, List.mem_cons, List.not_mem_nil, or_false] at hf ⊢
  tauto

theorem fits_of_read (h : shape.read n = .ok order) : order.range.Fits := by
  obtain ⟨d, hd, hfinish⟩ := Shape.exists_of_read fits_empty
    (fun f hf n d d' => Fits.read_field (mem_fields_of_mem_shape hf)) h
  simp only [shape, bind, pure, Option.bind_eq_some_iff, Option.some.injEq] at hfinish
  obtain ⟨a, ha, b, hb, -, -, rfl⟩ := hfinish
  exact ⟨hd.1 a ha, hd.2 b hb⟩

theorem fits_of_resolve {clock : Clock} {q : LogSplit} (horder : order.range.Fits)
    (hstart : Millis.Fits clock.atStart) (hstop : Millis.Fits clock.atStop)
    (h : order.resolve clock = .ok q) : Millis.Fits q.start ∧ Millis.Fits q.stop := by
  obtain ⟨range, hrange, h⟩ := bind_eq_ok_iff.mp h
  obtain ⟨span, -, h⟩ := bind_eq_ok_iff.mp h
  obtain rfl := Except.ok.inj h
  exact horder.resolve hstart hstop hrange

end LogOrder

end QueryPrep
