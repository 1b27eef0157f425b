import QueryPrep.Proofs.Split.Metric

/-!
# A metric split and its grid

A metric range is asked for on the grid of its step, so nothing counts but the two grid points that
it is aligned to and the whole steps that fit into a chunk. Where on the time line these points lie
does not count either: a range that is moved by whole steps is split in the same way, as long as it
stays within the range of milliseconds. The limits of that range are dealt with at several places of
the walk, and this says that none of them shows in the chunks.

Both halves compare two requests whose aligned bounds are `d` apart (`Follows.chunks_eq_map`); the
first half is the case of no distance at all. The refusals are compared one by one, and the chunks
through their layouts, which stop at the same ends counted from the last one (`run_shift`).

Main result: `MetricSplit.chunks_on_grid`.
-/

namespace QueryPrep

/-- The same chunk, so much later. -/
def Chunk.shift (d : Int) (c : Chunk) : Chunk :=
  ⟨c.first + d, c.last + d⟩

theorem Chunk.shift_zero : Chunk.shift 0 = id := by
  funext c
  simp [shift]

/-! ### Moving the grid onto itself -/

namespace Grid

variable {step d : Int}

theorem alignDown_add (h : step ∣ d) (t : Int) : alignDown step (t + d) = alignDown step t + d := by
  obtain ⟨k, rfl⟩ := h
  unfold alignDown
  rw [Int.add_mul_emod_self_left]
  omega

theorem alignUp_add (h : step ∣ d) (t : Int) : alignUp step (t + d) = alignUp step t + d := by
  obtain ⟨k, rfl⟩ := h
  unfold alignUp
  rw [Int.add_mul_emod_self_left]
  split_ifs
  · rfl
  · omega

theorem fit_fit (hstep : 0 < step) (span : Int) : fit step (fit step span) = fit step span := by
  unfold fit
  rw [Int.mul_ediv_cancel _ (Int.ne_of_gt hstep)]

/-- A span is shorter than the step if no whole step fits into it. -/
theorem fit_lt_iff (hstep : 0 < step) (span : Int) : fit step span < step ↔ span < step := by
  constructor
  · intro h
    by_contra hge
    exact absurd (le_fit hstep (Int.not_lt.mp hge)) (Int.not_le.mpr h)
  · exact Int.lt_of_le_of_lt (fit_le hstep span)

end Grid

/-! ### Two walks at a distance -/

namespace Stretch

variable {s t : Stretch} {stride last d : Int}

/-- If the chunks at all ends are the same but for the distance, the runs are. -/
theorem run_shift {n : Nat}
    (h : ∀ k < n, t.chunkAt (last + d - k * stride) = (s.chunkAt (last - k * stride)).shift d) :
    t.run stride (last + d) n = (s.run stride last n).map (Chunk.shift d) := by
  induction n with
  | zero => rfl
  | succ n ih =>
      rw [run, run, List.map_cons, h n (Nat.lt_succ_self n),
        ih fun k hk => h k (Nat.lt_succ_of_lt hk)]

/-- Away from the limits a chunk keeps its distance to the start of the stretch. -/
theorem chunkAt_shift (hs : s.Paced stride) (ht : t.Paced stride) (hspan : t.span = s.span)
    (hfirst : t.first = s.first + d) (hlast : last ≤ Millis.greatest)
    (hlast' : last + d ≤ Millis.greatest) :
    t.chunkAt (last + d) = (s.chunkAt last).shift d := by
  have heq : (t.chunkAt (last + d)).first = (s.chunkAt last).first + d := by
    rw [ht.chunkAt_first hlast', hs.chunkAt_first hlast]
    omega
  exact congrArg (fun first => Chunk.mk first (last + d)) heq

theorem layout_shift (hs : s.Paced stride) (ht : t.Paced stride) (hspan : t.span = s.span)
    (hfirst : t.first = s.first + d) (hleast : t.least = s.least + d)
    (hlast : last ≤ Millis.greatest) (hlast' : last + d ≤ Millis.greatest) :
    t.layout stride (last + d) = (s.layout stride last).map (Chunk.shift d) := by
  have hcount : t.count stride (last + d) = s.count stride last := by
    unfold count
    rw [hleast, Int.add_sub_add_right]
  rw [layout, layout, hcount]
  refine run_shift fun k _ => ?_
  have hnonneg := hs.mul_nonneg k
  rw [show last + d - k * stride = last - k * stride + d by omega]
  exact chunkAt_shift hs ht hspan hfirst (by omega) (by omega)

end Stretch

/-! ### Two requests at a distance -/

namespace MetricSplit

/-- The request for the same range, so much later. -/
def shift (q : MetricSplit) (d : Int) : MetricSplit :=
  { q with start := q.start + d, stop := q.stop + d }

/-- `r.Follows q d`: the request `r` is aligned to bounds that are `d` later than those of `q`, with
the same step and as many whole steps in a chunk. -/
structure Follows (r q : MetricSplit) (d : Int) : Prop where
  step_eq : r.step = q.step
  first_eq : r.first = q.first + d
  last_eq : r.last = q.last + d
  maxSpan_lt : r.maxSpan < q.step ↔ q.maxSpan < q.step
  fit_eq : q.step ≤ q.maxSpan → Grid.fit q.step r.maxSpan = Grid.fit q.step q.maxSpan

variable {q r : MetricSplit} {d : Int} {cap : Nat}

namespace Follows

theorem stride_eq (h : r.Follows q d) (hspan : q.step ≤ q.maxSpan) : r.stride = q.stride := by
  rw [stride, stride, h.step_eq, h.fit_eq hspan]

theorem feasible (h : r.Follows q d) (hq : q.Feasible) (hle : r.start ≤ r.stop)
    (hfits : Millis.Fits r.first ∧ Millis.Fits r.last) : r.Feasible where
  step_pos := h.step_eq ▸ hq.step_pos
  start_le_stop := hle
  step_le_maxSpan := by
    have hspan := hq.step_le_maxSpan
    have hiff := h.maxSpan_lt
    rw [h.step_eq]
    omega
  fits_first := hfits.1
  fits_last := hfits.2
  first_lt_last := by
    have hlt := hq.first_lt_last
    rw [h.first_eq, h.last_eq]
    omega
  fits_stride := by
    rw [h.stride_eq hq.step_le_maxSpan]
    exact hq.fits_stride

theorem layout_eq (h : r.Follows q d) (hq : q.Feasible) (hr : r.Feasible) :
    r.layout = q.layout.map (Chunk.shift d) := by
  have hstride := h.stride_eq hq.step_le_maxSpan
  have hspan : r.stretch.span = q.stretch.span := by
    show Grid.fit r.step r.maxSpan = Grid.fit q.step q.maxSpan
    rw [h.step_eq, h.fit_eq hq.step_le_maxSpan]
  have hpaced := hr.paced
  have hlast := hr.fits_last.2
  rw [hstride] at hpaced
  rw [h.last_eq] at hlast
  rw [layout, layout, hstride, h.last_eq]
  exact Stretch.layout_shift hq.paced hpaced hspan h.first_eq h.first_eq hq.fits_last.2 hlast

end Follows

/-- The refusals that an aligned range can still meet, one after the other. -/
theorem chunks_eq (hstep : 0 < q.step) (hle : q.start ≤ q.stop)
    (hfits : Millis.Fits q.first ∧ Millis.Fits q.last) (cap : Nat) :
    q.chunks cap =
      if q.maxSpan < q.step then .error .spanBelowStep
      else if q.last ≤ q.first then .error .empty
      else if Millis.Fits q.stride then
        if q.layout.length ≤ cap then .ok q.layout else .error .tooMany
      else .error .outOfRange := by
  by_cases hspan : q.maxSpan < q.step
  · rw [chunks, if_neg (by omega), if_pos hspan, if_pos hspan]
  rw [if_neg hspan]
  by_cases hlt : q.last ≤ q.first
  · rw [chunks, if_neg (by omega), if_neg hspan, if_neg (not_not_intro hfits), if_pos hlt,
      if_pos hlt]
  rw [if_neg hlt]
  by_cases hstride : Millis.Fits q.stride
  · rw [if_pos hstride, chunks_eq_of_feasible ⟨hstep, hle, Int.not_lt.mp hspan, hfits.1, hfits.2,
      Int.not_le.mp hlt, hstride⟩]
  · rw [chunks, if_neg (by omega), if_neg hspan, if_neg (not_not_intro hfits), if_neg hlt,
      if_pos hstride, if_neg hstride]

/-- **Requests at a distance are answered at that distance**, refusals included. -/
theorem Follows.chunks_eq_map (h : r.Follows q d) (hstep : 0 < q.step) (hq : q.start ≤ q.stop)
    (hr : r.start ≤ r.stop) (hfits : Millis.Fits q.first ∧ Millis.Fits q.last)
    (hfits' : Millis.Fits r.first ∧ Millis.Fits r.last) (cap : Nat) :
    r.chunks cap = (q.chunks cap).map (List.map (Chunk.shift d)) := by
  rw [chunks_eq (h.step_eq ▸ hstep) hr hfits', chunks_eq hstep hq hfits, h.step_eq]
  by_cases hspan : q.maxSpan < q.step
  · rw [if_pos (h.maxSpan_lt.mpr hspan), if_pos hspan]
    rfl
  rw [if_neg fun hlt => hspan (h.maxSpan_lt.mp hlt), if_neg hspan, h.first_eq, h.last_eq,
    h.stride_eq (Int.not_lt.mp hspan)]
  by_cases hlt : q.last ≤ q.first
  · rw [if_pos (by omega), if_pos hlt]
    rfl
  rw [if_neg (by omega), if_neg hlt]
  by_cases hstride : Millis.Fits q.stride
  · have hfeasible : q.Feasible := ⟨hstep, hq, Int.not_lt.mp hspan, hfits.1, hfits.2,
      Int.not_le.mp hlt, hstride⟩
    rw [if_pos hstride, if_pos hstride, h.layout_eq hfeasible (h.feasible hfeasible hr hfits'),
      List.length_map]
    split_ifs <;> rfl
  · rw [if_neg hstride, if_neg hstride]
    rfl

/-! ### The two cases -/

/-- Rounding towards zero and rounding down leave the same whole steps, if there are any at all. -/
theorem tdiv_mul_eq_fit {span : Int} (hspan : 0 ≤ span) (step : Int) :
    span.tdiv step * step = Grid.fit step span := by
  rw [Int.tdiv_eq_ediv_of_nonneg hspan, Grid.fit]

/-- A request is aligned to the same bounds as the request for these bounds. -/
theorem follows_aligned (hstep : 0 < q.step) {span : Int}
    (hspan : span = Grid.fit q.step q.maxSpan ∨ span = q.maxSpan.tdiv q.step * q.step) :
    MetricSplit.Follows ⟨q.first, q.last, q.step, span⟩ q 0 := by
  have hwhole : (span < q.step ↔ q.maxSpan < q.step) ∧
      (q.step ≤ q.maxSpan → Grid.fit q.step span = Grid.fit q.step q.maxSpan) := by
    rcases Int.lt_or_le q.maxSpan 0 with hneg | hnonneg
    · -- whichever way it is rounded, what is left is not positive
      have hle : span ≤ 0 := by
        rcases hspan with rfl | rfl
        · exact Int.le_trans (Grid.fit_le hstep _) (Int.le_of_lt hneg)
        · have hquot := Int.tdiv_nonneg (a := -q.maxSpan) (by omega) (Int.le_of_lt hstep)
          rw [Int.neg_tdiv] at hquot
          exact Int.mul_nonpos_of_nonpos_of_nonneg (by omega) (Int.le_of_lt hstep)
      constructor <;> omega
    · rw [tdiv_mul_eq_fit hnonneg, or_self] at hspan
      rw [hspan]
      exact ⟨Grid.fit_lt_iff hstep _, fun _ => Grid.fit_fit hstep _⟩
  refine ⟨rfl, ?_, ?_, hwhole.1, hwhole.2⟩
  · rw [Int.add_zero]
    exact Grid.alignDown_of_dvd (Grid.dvd_alignDown q.step q.start)
  · rw [Int.add_zero]
    exact Grid.alignUp_of_dvd (Grid.dvd_alignUp hstep q.stop)

theorem chunks_aligned (hstep : 0 < q.step) (hle : q.start ≤ q.stop)
    (hfits : Millis.Fits q.first ∧ Millis.Fits q.last) {span : Int}
    (hspan : span = Grid.fit q.step q.maxSpan ∨ span = q.maxSpan.tdiv q.step * q.step) (cap : Nat) :
    q.chunks cap = MetricSplit.chunks ⟨q.first, q.last, q.step, span⟩ cap := by
  have hfollows := follows_aligned hstep hspan
  have hbounds : q.first ≤ q.last :=
    Int.le_trans (Grid.isGreatest_alignDown hstep q.start).1.2
      (Int.le_trans hle (Grid.isLeast_alignUp hstep q.stop).1.2)
  have hmap := hfollows.chunks_eq_map hstep hle hbounds hfits (by
    rw [hfollows.first_eq, hfollows.last_eq, Int.add_zero, Int.add_zero]
    exact hfits) cap
  rw [Chunk.shift_zero, List.map_id_fun, Except.map_id] at hmap
  exact hmap.symm

theorem follows_shift (hd : q.step ∣ d) : (q.shift d).Follows q d where
  step_eq := rfl
  first_eq := Grid.alignDown_add hd q.start
  last_eq := Grid.alignUp_add hd q.stop
  maxSpan_lt := Iff.rfl
  fit_eq _ := rfl

theorem chunks_shift (hstep : 0 < q.step) (hle : q.start ≤ q.stop)
    (hfits : Millis.Fits q.first ∧ Millis.Fits q.last) (hd : q.step ∣ d)
    (hfits' : Millis.Fits (q.first + d) ∧ Millis.Fits (q.last + d)) (cap : Nat) :
    (q.shift d).chunks cap = (q.chunks cap).map (List.map (Chunk.shift d)) := by
  have hfollows := follows_shift hd
  refine hfollows.chunks_eq_map hstep hle (Int.add_le_add_right hle d) hfits ?_ cap
  rw [hfollows.first_eq, hfollows.last_eq]
  exact hfits'

/-- **A metric split depends on its grid alone and moves with it.** The request for the aligned
range, with a span that is rounded to whole steps, is answered in the same way; and so is the same
request, any number of steps earlier or later, as long as the aligned range stays within the range
of milliseconds, with all its chunks as much earlier or later. -/
theorem chunks_on_grid (hstep : 0 < q.step) (hle : q.start ≤ q.stop)
    (hfirst : Millis.Fits (q.start / q.step * q.step))
    (hlast : Millis.Fits (Grid.ceilDiv q.stop q.step * q.step)) (cap : Nat) :
    (∀ span, (span = q.maxSpan / q.step * q.step ∨ span = q.maxSpan.tdiv q.step * q.step) →
      q.chunks cap = MetricSplit.chunks ⟨q.start / q.step * q.step,
        Grid.ceilDiv q.stop q.step * q.step, q.step, span⟩ cap) ∧
    ∀ k : Int, Millis.Fits (q.start / q.step * q.step + k * q.step) →
      Millis.Fits (Grid.ceilDiv q.stop q.step * q.step + k * q.step) →
      MetricSplit.chunks ⟨q.start + k * q.step, q.stop + k * q.step, q.step, q.maxSpan⟩ cap =
        (q.chunks cap).map (List.map (Chunk.shift (k * q.step))) := by
  rw [← Grid.alignDown_eq q.step q.start] at hfirst ⊢
  rw [← Grid.alignUp_eq hstep] at hlast ⊢
  have hfits : Millis.Fits q.first ∧ Millis.Fits q.last := ⟨hfirst, hlast⟩
  constructor
  · intro span hspan
    exact chunks_aligned hstep hle hfits hspan cap
  · intro k hfirst' hlast'
    exact chunks_shift hstep hle hfits (Int.dvd_mul_left k q.step) ⟨hfirst', hlast'⟩ cap

/-- Across the sign change and down to the lower limit, where the walk has no instant to go on
from. -/
theorem chunks_on_grid_least :
    ∃ (q : MetricSplit) (k : Int), q = ⟨-15, 35, 10, 27⟩ ∧ k = -922337203685477578 ∧
      0 < q.step ∧ q.start ≤ q.stop ∧ Millis.Fits (q.start / q.step * q.step) ∧
      Millis.Fits (Grid.ceilDiv q.stop q.step * q.step) ∧
      Millis.Fits (q.start / q.step * q.step + k * q.step) ∧
      Millis.Fits (Grid.ceilDiv q.stop q.step * q.step + k * q.step) ∧
      q.chunks 3 = .ok [⟨-20, -20⟩, ⟨-10, 10⟩, ⟨20, 40⟩] ∧
      q.chunks 3 = (MetricSplit.mk (-20) 40 10 20).chunks 3 ∧
      (MetricSplit.mk (-9223372036854775795) (-9223372036854775745) 10 27).chunks 3 =
        .ok [⟨-9223372036854775800, -9223372036854775800⟩,
          ⟨-9223372036854775790, -9223372036854775770⟩,
          ⟨-9223372036854775760, -9223372036854775740⟩] := by
  have hchunks : (MetricSplit.mk (-15) 35 10 27).chunks 3 =
    .ok [⟨-20, -20⟩, ⟨-10, 10⟩, ⟨20, 40⟩] := rfl
  obtain ⟨haligned, hshift⟩ :=
    chunks_on_grid (q := ⟨-15, 35, 10, 27⟩) (by decide) (by decide) (by decide) (by decide) 3
  have hmoved := hshift (-922337203685477578) (by decide) (by decide)
  rw [hchunks] at hmoved
  exact ⟨_, _, rfl, rfl, by decide, by decide, by decide, by decide, by decide, by decide, hchunks,
    haligned 20 (.inl rfl), hmoved⟩

end MetricSplit

end QueryPrep
