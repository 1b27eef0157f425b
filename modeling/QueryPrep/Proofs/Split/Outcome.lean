import QueryPrep.Proofs.Json.Writing
import QueryPrep.Proofs.Split.Log
import QueryPrep.Proofs.Split.Metric
import QueryPrep.Proofs.Split.Order

/-!
# What an order comes to

Under a clock and a cap an order comes to one outcome: something is wrong with the order, or it is
resolved to a range that is split or refused. An order of texts is refused for the order of its ends
exactly if both are read as instants and the start is the later one (`RangeOrder.isReversed_iff`,
`MetricOrder.outcome_eq_reversed_iff`).

The chunks of an outcome have bounds of 64 bits, because an instant that is read is in range and
chunks do not reach beyond the range that is split. So what is printed of them is read as these
chunks again (`Chunk.ofText?_render_iff`).
-/

namespace QueryPrep

open QueryPrep.Json

/-! ### Chunks in JSON -/

namespace Chunk

/-- Both bounds are in the range of milliseconds. -/
def Fits (c : Chunk) : Prop :=
  Millis.Fits c.first ∧ Millis.Fits c.last

instance (c : Chunk) : Decidable c.Fits :=
  inferInstanceAs (Decidable (_ ∧ _))

variable {cs ds : List Chunk}

theorem isPlain_int {n : Int} (h : Millis.Fits n) : (Value.int n).isPlain = true := by
  obtain ⟨hleast, hgreatest⟩ := h
  unfold Millis.least at hleast
  unfold Millis.greatest at hgreatest
  simp only [Value.int, Value.isPlain, Bool.and_eq_true, decide_eq_true_eq]
  omega

theorem isPlain_toValue {c : Chunk} (h : c.Fits) : c.toValue.isPlain = true := by
  rw [toValue, Value.isPlain, Value.itemsArePlain_iff]
  intro v hv
  rcases List.mem_pair.mp hv with rfl | rfl
  · exact isPlain_int h.1
  · exact isPlain_int h.2

theorem isPlain_listToValue (h : ∀ c ∈ cs, c.Fits) : (listToValue cs).isPlain = true := by
  rw [listToValue, Value.isPlain, Value.itemsArePlain_iff]
  intro v hv
  obtain ⟨c, hc, rfl⟩ := List.mem_map.mp hv
  exact isPlain_toValue (h c hc)

theorem depth_listToValue_le (cs : List Chunk) : (listToValue cs).depth ≤ 2 := by
  have hitems : Value.itemsDepth (cs.map toValue) ≤ 1 := by
    apply Value.itemsDepth_le
    intro v hv
    obtain ⟨c, -, rfl⟩ := List.mem_map.mp hv
    exact Nat.le_refl 1
  rw [listToValue, Value.depth]
  omega

theorem listToValue_inj : listToValue cs = listToValue ds ↔ cs = ds := by
  have hinj : Function.Injective toValue := by
    rintro ⟨a, b⟩ ⟨c, d⟩ h
    simpa [toValue, Value.int] using h
  rw [listToValue, listToValue, Value.array.injEq, (List.map_injective_iff.mpr hinj).eq_iff]

/-- What is printed of chunks is read as these chunks and no others. -/
theorem ofText?_render_iff (h : ∀ c ∈ cs, c.Fits) :
    Value.ofText? ((listToValue cs).render ++ "\n") = some (listToValue ds) ↔ ds = cs := by
  have hblanks : Token.IsBlank ['\n'] := Token.isBlank_singleton (.inr (.inl rfl))
  have htext : (listToValue cs).IsText ((listToValue cs).render ++ "\n").toList := by
    rw [String.toList_append]
    exact (Value.isText_render (isPlain_listToValue h)).append_blank hblanks
  have hdepth := Nat.le_trans (depth_listToValue_le cs) (show 2 ≤ Node.maxLevels by decide)
  rw [htext.ofText? hdepth, Option.some.injEq, listToValue_inj, eq_comm]

end Chunk

/-! ### Chunks are in range -/

theorem MetricSplit.fits_of_chunks {q : MetricSplit} {cap : Nat} {cs : List Chunk}
    (h : q.chunks cap = .ok cs) : ∀ c ∈ cs, c.Fits := by
  obtain ⟨hq, -, rfl⟩ := chunks_eq_ok_iff.mp h
  intro c hc
  obtain ⟨hfirst, hlast, -⟩ := hq.bounds_of_mem hc
  have hle := hq.first_le_last hc
  have hfrom : q.first ≤ c.first := by
    obtain ⟨-, -, heq⟩ := hq.bounds_of_mem hc
    omega
  exact ⟨hq.fits_first.between hq.fits_last hfrom (by omega),
    hq.fits_first.between hq.fits_last hfirst hlast⟩

theorem LogSplit.fits_of_chunks {q : LogSplit} {cap : Nat} {cs : List Chunk}
    (hstart : Millis.Fits q.start) (hstop : Millis.Fits q.stop) (h : q.chunks cap = .ok cs) :
    ∀ c ∈ cs, c.Fits := by
  obtain ⟨hq, -, rfl⟩ := (chunks_eq_ok_iff hstart hstop).mp h
  intro c hc
  obtain ⟨hlast, hlast', hfirst⟩ := hq.bounds_of_mem hc
  have hpos := hq.span_pos
  exact ⟨hstart.between hstop (by omega) (by omega), hstart.between hstop (by omega) hlast'⟩

/-! ### Orders in texts -/

namespace RangeOrder

/-- The two texts are read as instants, and the first of them is the later one. -/
def IsReversed (start stop : String) (clock : Clock) : Prop :=
  ∃ a b, Timestamp.parse start clock.atStart = .ok a ∧ Timestamp.parse stop clock.atStop = .ok b ∧
    b < a

/-- A range is refused for the order of its ends exactly if it is reversed. -/
theorem isReversed_iff {start stop : String} {clock : Clock} : IsReversed start stop clock ↔
    ∃ a b, (RangeOrder.mk (.text start) (.text stop)).resolve clock = .error (.reversed a b) := by
  simp only [resolve_eq_error_iff, fault_reversed_iff]
  exact Iff.rfl

end RangeOrder

/-- What a split comes to: what is wrong with the order, or the chunks unless the range cannot be
split. -/
abbrev SplitOutcome := Except OrderError (Except Refusal (List Chunk))

namespace MetricOrder

/-- The order that four texts make. -/
def ofTexts (start stop step span : String) : MetricOrder :=
  ⟨⟨.text start, .text stop⟩, .text step, .text span⟩

variable {order : MetricOrder} {clock : Clock} {cap : Nat}

def outcome (order : MetricOrder) (clock : Clock) (cap : Nat) : SplitOutcome :=
  (order.resolve clock).map (·.chunks cap)

theorem fits_of_outcome {cs : List Chunk} (h : order.outcome clock cap = .ok (.ok cs)) :
    ∀ c ∈ cs, c.Fits := by
  rcases hq : order.resolve clock with e | q
  · simp [outcome, hq, Except.map] at h
  · rw [outcome, hq] at h
    exact MetricSplit.fits_of_chunks (Except.ok.inj h)

/-- Only the range can be reversed. -/
theorem outcome_eq_reversed_iff {a b : Int} : order.outcome clock cap = .error (.reversed a b) ↔
    order.range.resolve clock = .error (.reversed a b) := by
  rw [outcome, map_eq_error_iff, resolve_eq_error_iff, RangeOrder.resolve_eq_error_iff,
    orderFault_reversed_iff]

end MetricOrder

namespace LogOrder

/-- The order that three texts make. -/
def ofTexts (start stop span : String) : LogOrder :=
  ⟨⟨.text start, .text stop⟩, .text span⟩

variable {order : LogOrder} {clock : Clock} {cap : Nat}

def outcome (order : LogOrder) (clock : Clock) (cap : Nat) : SplitOutcome :=
  (order.resolve clock).map (·.chunks cap)

theorem fits_of_outcome {start stop : String} (hrange : order.range = ⟨.text start, .text stop⟩)
    (hstart : Millis.Fits clock.atStart) (hstop : Millis.Fits clock.atStop) {cs : List Chunk}
    (h : order.outcome clock cap = .ok (.ok cs)) : ∀ c ∈ cs, c.Fits := by
  have horder : order.range.Fits := by
    rw [hrange]
    exact ⟨trivial, trivial⟩
  rcases hq : order.resolve clock with e | q
  · simp [outcome, hq, Except.map] at h
  · rw [outcome, hq] at h
    obtain ⟨hfrom, hto⟩ := fits_of_resolve horder hstart hstop hq
    exact LogSplit.fits_of_chunks hfrom hto (Except.ok.inj h)

theorem outcome_eq_reversed_iff {a b : Int} : order.outcome clock cap = .error (.reversed a b) ↔
    order.range.resolve clock = .error (.reversed a b) := by
  rw [outcome, map_eq_error_iff, resolve_eq_error_iff, RangeOrder.resolve_eq_error_iff,
    orderFault_reversed_iff]

end LogOrder

end QueryPrep
