import QueryPrep.Proofs.Split.Log
import QueryPrep.Proofs.Split.Metric

/-!
# Requests that ask for less

Who is refused asks again, for a shorter range, in longer chunks or under a higher cap. This file
says that asking for less is never what makes a request fail, and never takes more chunks
(`chunks_of_eases`). On a grid there are two exceptions, and no others: a range that is a single
point of the grid, which has nothing between its two ends, and chunks so long that a stride leaves
the range of milliseconds.

For a metric range the number of chunks needs no arithmetic, although the stride changes with the
span: the chunks of the first request cover all grid points of the second one, and no cover is
smaller than a split.
-/

namespace QueryPrep

/-! ### Metric ranges -/

namespace MetricSplit

/-- `r.Eases q`: the request `r` is for a part of the range of `q`, on the same grid, in chunks that
may be longer. -/
structure Eases (r q : MetricSplit) : Prop where
  step_eq : r.step = q.step
  start_le : q.start ≤ r.start
  start_le_stop : r.start ≤ r.stop
  stop_le : r.stop ≤ q.stop
  maxSpan_le : q.maxSpan ≤ r.maxSpan

variable {q r : MetricSplit}

/-- Aligning leaves nothing between the two ends only if they are one point of the grid. -/
theorem first_lt_last_iff (hstep : 0 < r.step) (hle : r.start ≤ r.stop) :
    r.first < r.last ↔ ¬ (r.start = r.stop ∧ r.step ∣ r.start) := by
  obtain ⟨⟨hdvd, hfirst⟩, -⟩ := Grid.isGreatest_alignDown hstep r.start
  obtain ⟨⟨-, hlast⟩, -⟩ := Grid.isLeast_alignUp hstep r.stop
  change r.first ≤ r.start at hfirst
  change r.stop ≤ r.last at hlast
  constructor
  · rintro hlt ⟨heq, hpoint⟩
    have hfirst_eq : r.first = r.start := Grid.alignDown_of_dvd hpoint
    have hlast_eq : r.last = r.stop := Grid.alignUp_of_dvd (heq ▸ hpoint)
    omega
  · intro hpoint
    by_contra hge
    have hfirst_eq : r.first = r.start := by omega
    exact hpoint ⟨by omega, hfirst_eq ▸ hdvd⟩

theorem Eases.first_le (h : r.Eases q) (hstep : 0 < q.step) : q.first ≤ r.first := by
  unfold first
  rw [h.step_eq]
  exact Grid.alignDown_mono hstep h.start_le

theorem Eases.last_le (h : r.Eases q) (hstep : 0 < q.step) : r.last ≤ q.last := by
  unfold last
  rw [h.step_eq]
  exact Grid.alignUp_mono hstep h.stop_le

/-- The only two ways in which a request that asks for less can fail. -/
theorem Eases.feasible_iff (h : r.Eases q) (hq : q.Feasible) :
    r.Feasible ↔ ¬ (r.start = r.stop ∧ r.step ∣ r.start) ∧ r.stride ≤ Millis.greatest := by
  have hstep : 0 < r.step := h.step_eq ▸ hq.step_pos
  have hspan : r.step ≤ r.maxSpan :=
    h.step_eq ▸ Int.le_trans hq.step_le_maxSpan h.maxSpan_le
  rw [MetricSplit.feasible_iff, ← first_lt_last_iff hstep h.start_le_stop]
  constructor
  · rintro ⟨-, -, -, -, -, hlt, hstride⟩
    exact ⟨hlt, hstride⟩
  · rintro ⟨hlt, hstride⟩
    exact ⟨hstep, h.start_le_stop, hspan, Int.le_trans hq.fits_first.1 (h.first_le hq.step_pos),
      Int.le_trans (h.last_le hq.step_pos) hq.fits_last.2, hlt, hstride⟩

/-- What covers a grid covers a part of it. -/
theorem IsCover.of_eases {family : List Chunk} (hcover : q.IsCover family) (h : r.Eases q)
    (hstep : 0 < q.step) : r.IsCover family where
  span_le c hc := Int.le_trans (hcover.span_le c hc) h.maxSpan_le
  holds t ht hlo hhi := hcover.holds t (h.step_eq ▸ ht) (Int.le_trans (h.first_le hstep) hlo)
    (Int.le_trans hhi (h.last_le hstep))

theorem Eases.length_layout_le (h : r.Eases q) (hq : q.Feasible) (hr : r.Feasible) :
    r.layout.length ≤ q.layout.length :=
  hr.length_le_of_isCover (hq.isCover_layout.of_eases h hq.step_pos)

theorem exists_error_of_not_feasible (hr : ¬ r.Feasible) (cap : Nat) :
    ∃ e, r.chunks cap = .error e := by
  rcases h : r.chunks cap with e | ds
  · exact ⟨e, rfl⟩
  · exact absurd (feasible_of_chunks_eq_ok h) hr

end MetricSplit

/-! ### Log ranges -/

namespace LogSplit

/-- `r.Eases q`: the request `r` is for a part of the range of `q`, in chunks that may be longer. -/
structure Eases (r q : LogSplit) : Prop where
  start_le : q.start ≤ r.start
  start_lt_stop : r.start < r.stop
  stop_le : r.stop ≤ q.stop
  span_le : q.span ≤ r.span

variable {q r : LogSplit}

theorem Eases.feasible (h : r.Eases q) (hq : q.Feasible) : r.Feasible where
  span_pos := Int.lt_of_lt_of_le hq.span_pos h.span_le
  start_lt_stop := h.start_lt_stop
  fits_start := hq.fits_start.between hq.fits_stop h.start_le
    (Int.le_trans (Int.le_of_lt h.start_lt_stop) h.stop_le)
  fits_stop := hq.fits_start.between hq.fits_stop
    (Int.le_trans h.start_le (Int.le_of_lt h.start_lt_stop)) h.stop_le

/-- As many of the longer chunks reach as far, over a range that is no longer. -/
theorem Eases.length_layout_le (h : r.Eases q) (hq : q.Feasible) :
    r.layout.length ≤ q.layout.length := by
  have hr := h.feasible hq
  have hreach : q.stop - q.start ≤ q.layout.length * q.span :=
    (Grid.ceilDiv_le_iff hq.span_pos).mp (Int.le_of_eq hq.cast_length.symm)
  have hmul : q.layout.length * q.span ≤ q.layout.length * r.span :=
    Int.mul_le_mul_of_nonneg_left h.span_le (Int.natCast_nonneg _)
  have hstart := h.start_le
  have hstop := h.stop_le
  have hceil : Grid.ceilDiv (r.stop - r.start) r.span ≤ q.layout.length :=
    (Grid.ceilDiv_le_iff hr.span_pos).mpr (by omega)
  rw [← hr.cast_length] at hceil
  exact Int.ofNat_le.mp hceil

end LogSplit

/-! ### Both kinds -/

/-- **Asking for less is not refused and takes no more chunks**, except on a grid for a single point
of it or with a stride beyond the range of milliseconds, and then it is refused. -/
theorem chunks_of_eases :
    (∀ (q r : MetricSplit) (cap cap' : Nat) (cs : List Chunk), r.Eases q → cap ≤ cap' →
      q.chunks cap = .ok cs →
      if (r.start = r.stop ∧ r.step ∣ r.start) ∨
          Millis.greatest < r.maxSpan / r.step * r.step + r.step then
        ∃ e, r.chunks cap' = .error e
      else ∃ ds, r.chunks cap' = .ok ds ∧ ds.length ≤ cs.length) ∧
    (∀ (q r : LogSplit) (cap cap' : Nat) (cs : List Chunk), Millis.Fits q.start →
      Millis.Fits q.stop → r.Eases q → cap ≤ cap' → q.chunks cap = .ok cs →
      ∃ ds, r.chunks cap' = .ok ds ∧ ds.length ≤ cs.length) := by
  constructor
  · intro q r cap cap' cs h hle hcs
    obtain ⟨hq, hcap, rfl⟩ := MetricSplit.chunks_eq_ok_iff.mp hcs
    have hiff := h.feasible_iff hq
    rw [show r.maxSpan / r.step * r.step + r.step = r.stride from rfl]
    split_ifs with hexception
    · refine MetricSplit.exists_error_of_not_feasible (fun hr => ?_) cap'
      obtain ⟨hpoint, hstride⟩ := hiff.mp hr
      exact hexception.elim hpoint (Int.not_lt.mpr hstride)
    · obtain ⟨hpoint, hstride⟩ := not_or.mp hexception
      have hr := hiff.mpr ⟨hpoint, Int.not_lt.mp hstride⟩
      have hlength := h.length_layout_le hq hr
      exact ⟨r.layout, MetricSplit.chunks_eq_ok_iff.mpr ⟨hr, by omega, rfl⟩, hlength⟩
  · intro q r cap cap' cs hstart hstop h hle hcs
    obtain ⟨hq, hcap, rfl⟩ := (LogSplit.chunks_eq_ok_iff hstart hstop).mp hcs
    have hr := h.feasible hq
    have hlength := h.length_layout_le hq
    exact ⟨r.layout,
      (LogSplit.chunks_eq_ok_iff hr.fits_start hr.fits_stop).mpr ⟨hr, by omega, rfl⟩, hlength⟩

/-- A part of a range in longer chunks, and the two exceptions: a single point of the grid, and
chunks as long as can be. -/
theorem chunks_of_eases_exceptions :
    (MetricSplit.mk 10003 45000 10000 30000).Eases (MetricSplit.mk 0 60000 10000 25000) ∧
    (MetricSplit.mk 20000 20000 10000 25000).Eases (MetricSplit.mk 0 60000 10000 25000) ∧
    (MetricSplit.mk 0 60000 10000 Millis.greatest).Eases (MetricSplit.mk 0 60000 10000 25000) ∧
    (LogSplit.mk 2000 9000 5000).Eases (LogSplit.mk 1000 10000 4000) ∧
    Millis.Fits 1000 ∧ Millis.Fits 10000 ∧ 3 ≤ 4 ∧
    (MetricSplit.mk 0 60000 10000 25000).chunks 3 =
      .ok [⟨0, 0⟩, ⟨10000, 30000⟩, ⟨40000, 60000⟩] ∧
    (LogSplit.mk 1000 10000 4000).chunks 3 = .ok [⟨1000, 2000⟩, ⟨2000, 6000⟩, ⟨6000, 10000⟩] ∧
    (∃ ds, (MetricSplit.mk 10003 45000 10000 30000).chunks 4 = .ok ds ∧ ds.length ≤ 3) ∧
    (∃ e, (MetricSplit.mk 20000 20000 10000 25000).chunks 4 = .error e) ∧
    (∃ e, (MetricSplit.mk 0 60000 10000 Millis.greatest).chunks 4 = .error e) ∧
    (∃ ds, (LogSplit.mk 2000 9000 5000).chunks 4 = .ok ds ∧ ds.length ≤ 3) := by
  have hpart : (MetricSplit.mk 10003 45000 10000 30000).Eases
      (MetricSplit.mk 0 60000 10000 25000) :=
    ⟨rfl, by decide, by decide, by decide, by decide⟩
  have hpoint : (MetricSplit.mk 20000 20000 10000 25000).Eases
      (MetricSplit.mk 0 60000 10000 25000) :=
    ⟨rfl, by decide, by decide, by decide, by decide⟩
  have hlong : (MetricSplit.mk 0 60000 10000 Millis.greatest).Eases
      (MetricSplit.mk 0 60000 10000 25000) :=
    ⟨rfl, by decide, by decide, by decide, by decide⟩
  have hlog : (LogSplit.mk 2000 9000 5000).Eases (LogSplit.mk 1000 10000 4000) :=
    ⟨by decide, by decide, by decide, by decide⟩
  have hstart : Millis.Fits 1000 := by decide
  have hstop : Millis.Fits 10000 := by decide
  have hcap : 3 ≤ 4 := by decide
  have hchunks : (MetricSplit.mk 0 60000 10000 25000).chunks 3 =
    .ok [⟨0, 0⟩, ⟨10000, 30000⟩, ⟨40000, 60000⟩] := rfl
  have hlog_chunks : (LogSplit.mk 1000 10000 4000).chunks 3 =
    .ok [⟨1000, 2000⟩, ⟨2000, 6000⟩, ⟨6000, 10000⟩] := rfl
  refine ⟨hpart, hpoint, hlong, hlog, hstart, hstop, hcap, hchunks, hlog_chunks, ?_, ?_, ?_, ?_⟩
  · exact (if_neg (by decide)).mp (chunks_of_eases.1 _ _ 3 4 _ hpart hcap hchunks)
  · exact (if_pos (by decide)).mp (chunks_of_eases.1 _ _ 3 4 _ hpoint hcap hchunks)
  · exact (if_pos (by decide)).mp (chunks_of_eases.1 _ _ 3 4 _ hlong hcap hchunks)
  · exact chunks_of_eases.2 _ _ 3 4 _ hstart hstop hlog hcap hlog_chunks

end QueryPrep
