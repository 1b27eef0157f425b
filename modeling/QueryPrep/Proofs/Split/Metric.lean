import QueryPrep.Proofs.Split.Grid
import QueryPrep.Proofs.Split.Walk

/-!
# How a metric range is split

What `MetricSplit.chunks` answers, for every request and every cap. A request is `Feasible` when
none of the refusals but the last one applies; the chunks of a feasible request are its `layout`,
and the cap alone decides whether they are given (`chunks_eq_ok_iff`). All that follows is about the
layout.

Main results:

* `chunks_partition`: the chunks cut the grid from the aligned start to the aligned end, with one
  step between two neighbours and nothing but full chunks after the first;
* `exists_chunks_iff`: which requests are split, in the arithmetic of the request alone, and into
  how many chunks;
* `chunks_minimal`: no other chunks of at most the same span cover the same grid points with fewer,
  so that a range is refused for its cap only if every cover is beyond that cap.
-/

namespace QueryPrep

/-- What chunks of at most `maxSpan` are that cut the multiples of a step from `lo` to `hi` without
a hole or an overlap, all of them full but the first. -/
structure GridPartition (step maxSpan lo hi : Int) (cs : List Chunk) : Prop where
  ne_nil : cs ≠ []
  head_first : cs.head?.map Chunk.first = some lo
  getLast_last : cs.getLast?.map Chunk.last = some hi
  on_grid : ∀ c ∈ cs, step ∣ c.first ∧ step ∣ c.last
  first_le_last : ∀ c ∈ cs, c.first ≤ c.last
  one_step_apart : cs.IsChain fun c d => d.first = c.last + step
  span_tail : ∀ c ∈ cs.tail, c.span = maxSpan / step * step
  span_head : ∀ c ∈ cs.head?, 0 ≤ c.span ∧ c.span ≤ maxSpan / step * step
  holds_once : ∀ t, step ∣ t →
    (cs.countP fun c => decide (c.Holds t)) = if lo ≤ t ∧ t ≤ hi then 1 else 0
  span_le : ∀ c ∈ cs, c.span ≤ maxSpan

namespace MetricSplit

/-! ### Feasible requests -/

/-- A request that is refused for nothing but its cap. -/
structure Feasible (q : MetricSplit) : Prop where
  step_pos : 0 < q.step
  start_le_stop : q.start ≤ q.stop
  step_le_maxSpan : q.step ≤ q.maxSpan
  fits_first : Millis.Fits q.first
  fits_last : Millis.Fits q.last
  first_lt_last : q.first < q.last
  fits_stride : Millis.Fits q.stride

/-- The chunks of a request. -/
def layout (q : MetricSplit) : List Chunk :=
  q.stretch.layout q.stride q.last

variable {q : MetricSplit} {cap : Nat} {cs : List Chunk}

/-- A step back from a late enough end stays in range; from any other end it leads too far. -/
theorem Feasible.paced (hq : q.Feasible) : q.stretch.Paced q.stride := by
  have hstep := hq.step_pos
  have hfit := Grid.le_fit hstep hq.step_le_maxSpan
  have hspan : q.stretch.span = Grid.fit q.step q.maxSpan := rfl
  have hstride : q.stride = Grid.fit q.step q.maxSpan + q.step := rfl
  have hleast := hq.fits_first.1
  refine ⟨hleast, Int.le_refl _, by omega, by omega, by omega, ?_, ?_⟩
  · intro last hlast hle
    -- only the lower limit could be in the way, and the start is not below it
    have hnext : Millis.Fits (last - q.stride) := ⟨Int.le_trans hleast hle, by omega⟩
    exact Millis.checked?_eq_some_iff.mpr ⟨rfl, hnext⟩
  · intro last next hlast hlt hb
    obtain ⟨rfl, -⟩ := Millis.checked?_eq_some_iff.mp hb
    exact hlt

theorem feasible_of_chunks_eq_ok (h : q.chunks cap = .ok cs) : q.Feasible := by
  unfold chunks at h
  split_ifs at h with h1 h2 h3 h4 h5
  exact ⟨by omega, by omega, by omega, by tauto, by tauto, by omega, by tauto⟩

theorem chunks_eq_of_feasible (hq : q.Feasible) (cap : Nat) :
    q.chunks cap = if q.layout.length ≤ cap then .ok q.layout else .error .tooMany := by
  obtain ⟨hstep, hle, hspan, hfirst, hlast, hlt, hstride⟩ := id hq
  unfold chunks
  rw [if_neg (by omega), if_neg (by omega), if_neg (not_not_intro ⟨hfirst, hlast⟩),
    if_neg (by omega), if_neg (not_not_intro hstride),
    Stretch.layBack_nil_eq hq.paced cap hlast.2, ← layout]
  split_ifs <;> rfl

/-- **What a metric split answers.** -/
theorem chunks_eq_ok_iff :
    q.chunks cap = .ok cs ↔ q.Feasible ∧ q.layout.length ≤ cap ∧ cs = q.layout := by
  constructor
  · intro h
    have hq := feasible_of_chunks_eq_ok h
    rw [chunks_eq_of_feasible hq] at h
    split_ifs at h with hcap
    exact ⟨hq, hcap, (Except.ok.inj h).symm⟩
  · rintro ⟨hq, hcap, rfl⟩
    rw [chunks_eq_of_feasible hq, if_pos hcap]

/-! ### The chunks on the grid -/

theorem dvd_stride (q : MetricSplit) : q.step ∣ q.stride :=
  Int.dvd_add (Grid.dvd_fit q.step q.maxSpan) (Int.dvd_refl q.step)

theorem Feasible.dvd_end (hq : q.Feasible) (k : Nat) : q.step ∣ q.last - k * q.stride :=
  Int.dvd_sub (Grid.dvd_alignUp hq.step_pos q.stop) (Int.dvd_mul_of_dvd_right q.dvd_stride)

theorem Feasible.linked_layout (hq : q.Feasible) : Linked q.step q.first q.layout q.last := by
  have hstride : q.stride = q.stretch.span + q.step := rfl
  have hlinked := Stretch.linked_layout hq.paced hq.fits_last.2 (Int.le_of_lt hq.first_lt_last) (by
    intro k hlt
    -- between an end that is too early and the start there is no room for a step
    have hdvd : q.step ∣ q.last - k * q.stride - q.stride := Int.dvd_sub (hq.dvd_end k) q.dvd_stride
    have hnext := add_le_of_dvd_of_lt hdvd (Grid.dvd_alignDown q.step q.start) hlt
    show q.last - k * q.stride - q.stretch.span ≤ Grid.alignDown q.step q.start
    omega)
  rw [show q.stride - q.stretch.span = q.step by omega] at hlinked
  exact hlinked

theorem Feasible.bounds_of_mem (hq : q.Feasible) {c : Chunk} (hc : c ∈ q.layout) :
    q.first ≤ c.last ∧ c.last ≤ q.last ∧
      c.first = max (c.last - Grid.fit q.step q.maxSpan) q.first :=
  Stretch.bounds_of_mem_layout hq.paced hq.fits_last.2 (Int.le_of_lt hq.first_lt_last) hc

theorem Feasible.on_grid (hq : q.Feasible) {c : Chunk} (hc : c ∈ q.layout) :
    q.step ∣ c.first ∧ q.step ∣ c.last := by
  obtain ⟨-, -, hfirst⟩ := hq.bounds_of_mem hc
  have hdvd : q.step ∣ c.last := by
    obtain ⟨k, -, rfl⟩ := Stretch.mem_run.mp hc
    exact hq.dvd_end k
  refine ⟨?_, hdvd⟩
  rcases Int.le_total (c.last - Grid.fit q.step q.maxSpan) q.first with h | h
  · rw [hfirst, Int.max_eq_right h]
    exact Grid.dvd_alignDown q.step q.start
  · rw [hfirst, Int.max_eq_left h]
    exact Int.dvd_sub hdvd (Grid.dvd_fit q.step q.maxSpan)

theorem Feasible.first_le_last (hq : q.Feasible) {c : Chunk} (hc : c ∈ q.layout) :
    c.first ≤ c.last := by
  obtain ⟨hle, -, hfirst⟩ := hq.bounds_of_mem hc
  have hstep := hq.step_pos
  have hfit := Grid.le_fit hstep hq.step_le_maxSpan
  omega

/-- The layout of a feasible request partitions its grid. -/
theorem Feasible.gridPartition (hq : q.Feasible) :
    GridPartition q.step q.maxSpan q.first q.last q.layout := by
  have hlt := Int.le_of_lt hq.first_lt_last
  have hspan : ∀ c ∈ q.layout, c.span ≤ q.maxSpan / q.step * q.step :=
    fun c => Stretch.span_le_of_mem_layout hq.paced hq.fits_last.2 hlt
  have hne : q.layout ≠ [] := Stretch.layout_ne_nil hq.paced hlt
  obtain ⟨hhead, hlast, hchain⟩ := (linked_iff hne).mp hq.linked_layout
  refine ⟨hne, hhead, hlast, fun c => hq.on_grid, fun c => hq.first_le_last, hchain, ?_, ?_, ?_, ?_⟩
  · intro c hc
    exact Stretch.span_eq_of_mem_tail_layout hq.paced hq.fits_last.2 hlt hc
  · intro c hc
    have hmem : c ∈ q.layout := List.mem_of_mem_head? hc
    exact ⟨Int.sub_nonneg_of_le (hq.first_le_last hmem), hspan c hmem⟩
  · intro t ht
    exact hq.linked_layout.countP_holds hq.step_pos (fun c => hq.first_le_last)
      (fun c hc => (hq.on_grid hc).2) ht
  · intro c hc
    exact Int.le_trans (hspan c hc) (Grid.fit_le hq.step_pos q.maxSpan)

/-- **A metric split is an exact partition of the grid of its step**, from the greatest multiple of
the step that is not after the start to the least one that is not before the end. -/
theorem chunks_partition (h : q.chunks cap = .ok cs) :
    IsGreatest {t | q.step ∣ t ∧ t ≤ q.start} q.first ∧
      IsLeast {t | q.step ∣ t ∧ q.stop ≤ t} q.last ∧
      GridPartition q.step q.maxSpan q.first q.last cs := by
  obtain ⟨hq, -, rfl⟩ := chunks_eq_ok_iff.mp h
  exact ⟨Grid.isGreatest_alignDown hq.step_pos q.start, Grid.isLeast_alignUp hq.step_pos q.stop,
    hq.gridPartition⟩

/-- At the lower limit, where the earliest chunk is a single instant and the walk is over because
there is no instant to go on from. -/
theorem chunks_partition_least :
    (MetricSplit.mk Millis.least (Millis.least + 6) 2 4).chunks 2 =
        .ok [⟨Millis.least, Millis.least⟩, ⟨Millis.least + 2, Millis.least + 6⟩] ∧
      IsGreatest {t | 2 ∣ t ∧ t ≤ Millis.least} Millis.least ∧
      IsLeast {t | 2 ∣ t ∧ Millis.least + 6 ≤ t} (Millis.least + 6) ∧
      GridPartition 2 4 Millis.least (Millis.least + 6)
        [⟨Millis.least, Millis.least⟩, ⟨Millis.least + 2, Millis.least + 6⟩] :=
  have h : (MetricSplit.mk Millis.least (Millis.least + 6) 2 4).chunks 2 =
      .ok [⟨Millis.least, Millis.least⟩, ⟨Millis.least + 2, Millis.least + 6⟩] := rfl
  ⟨h, chunks_partition h⟩

/-! ### How many chunks there are -/

/-- Only one limit of each bound can be in the way. -/
theorem feasible_iff :
    q.Feasible ↔ 0 < q.step ∧ q.start ≤ q.stop ∧ q.step ≤ q.maxSpan ∧ Millis.least ≤ q.first ∧
      q.last ≤ Millis.greatest ∧ q.first < q.last ∧ q.stride ≤ Millis.greatest := by
  constructor
  · rintro ⟨hstep, hle, hspan, hfirst, hlast, hlt, hstride⟩
    exact ⟨hstep, hle, hspan, hfirst.1, hlast.2, hlt, hstride.2⟩
  · rintro ⟨hstep, hle, hspan, hfirst, hlast, hlt, hstride⟩
    have hfit := Grid.le_fit hstep hspan
    have hstride_eq : q.stride = Grid.fit q.step q.maxSpan + q.step := rfl
    have hstride_pos : Millis.least ≤ q.stride := Int.le_trans Millis.fits_zero.1 (by omega)
    exact ⟨hstep, hle, hspan, ⟨hfirst, by omega⟩, ⟨by omega, hlast⟩, hlt, hstride_pos, hstride⟩

theorem Feasible.cast_length (hq : q.Feasible) :
    (q.layout.length : Int) = (q.last - q.first) / q.stride + 1 :=
  Stretch.cast_length_layout hq.paced (Int.le_of_lt hq.first_lt_last)

/-- **Which metric ranges are split, and into how many chunks.** The quotients are exact and rounded
down, but for the one that aligns the end. -/
theorem exists_chunks_iff (q : MetricSplit) (cap : Nat) :
    ((∃ cs, q.chunks cap = .ok cs) ↔
      0 < q.step ∧ q.start ≤ q.stop ∧ q.step ≤ q.maxSpan ∧
      Millis.least ≤ q.start / q.step * q.step ∧
      Grid.ceilDiv q.stop q.step * q.step ≤ Millis.greatest ∧
      q.start / q.step * q.step < Grid.ceilDiv q.stop q.step * q.step ∧
      q.maxSpan / q.step * q.step + q.step ≤ Millis.greatest ∧
      (Grid.ceilDiv q.stop q.step * q.step - q.start / q.step * q.step) /
        (q.maxSpan / q.step * q.step + q.step) + 1 ≤ cap) ∧
    ∀ cs, q.chunks cap = .ok cs →
      (cs.length : Int) = (Grid.ceilDiv q.stop q.step * q.step - q.start / q.step * q.step) /
        (q.maxSpan / q.step * q.step + q.step) + 1 := by
  have hfirst : q.first = q.start / q.step * q.step := Grid.alignDown_eq q.step q.start
  have hlast : 0 < q.step → q.last = Grid.ceilDiv q.stop q.step * q.step :=
    fun hstep => Grid.alignUp_eq hstep q.stop
  have hstride : q.stride = q.maxSpan / q.step * q.step + q.step := rfl
  rw [← hfirst, ← hstride]
  constructor
  · -- the quotient is the length of the layout, so the last condition is the cap
    constructor
    · rintro ⟨cs, h⟩
      obtain ⟨hq, hcap, -⟩ := chunks_eq_ok_iff.mp h
      have hlength := hq.cast_length
      obtain ⟨hstep, hle, hspan, hlo, hhi, hlt, hmax⟩ := feasible_iff.mp hq
      rw [← hlast hstep]
      exact ⟨hstep, hle, hspan, hlo, hhi, hlt, hmax, by omega⟩
    · rintro ⟨hstep, hle, hspan, hlo, hhi, hlt, hmax, hcap⟩
      rw [← hlast hstep] at hhi hlt hcap
      have hq : q.Feasible := feasible_iff.mpr ⟨hstep, hle, hspan, hlo, hhi, hlt, hmax⟩
      have hlength := hq.cast_length
      exact ⟨q.layout, chunks_eq_ok_iff.mpr ⟨hq, by omega, rfl⟩⟩
  · intro cs h
    obtain ⟨hq, -, rfl⟩ := chunks_eq_ok_iff.mp h
    rw [hq.cast_length, hlast hq.step_pos]

/-! ### No cover is smaller -/

/-- A family of chunks, in any order and overlapping as they like, that reach no further than the
request allows and hold every grid point of its range. -/
structure IsCover (q : MetricSplit) (family : List Chunk) : Prop where
  span_le : ∀ c ∈ family, c.span ≤ q.maxSpan
  holds : ∀ t, q.step ∣ t → q.first ≤ t → t ≤ q.last → ∃ c ∈ family, c.Holds t

theorem Feasible.isCover_layout (hq : q.Feasible) : q.IsCover q.layout := by
  refine ⟨hq.gridPartition.span_le, ?_⟩
  intro t ht hlo hhi
  have honce := hq.gridPartition.holds_once t ht
  rw [if_pos ⟨hlo, hhi⟩] at honce
  obtain ⟨c, hc, hct⟩ := List.countP_pos_iff.mp (honce ▸ Nat.one_pos)
  exact ⟨c, hc, of_decide_eq_true hct⟩

/-- The ends of the chunks are grid points no two of which fit into one chunk. -/
theorem Feasible.length_le_of_isCover (hq : q.Feasible) {family : List Chunk}
    (hcover : q.IsCover family) : q.layout.length ≤ family.length := by
  have hmax : q.maxSpan < q.stride := Grid.lt_fit_add hq.step_pos q.maxSpan
  have hapart : (q.layout.map Chunk.last).Pairwise fun s t => q.maxSpan < t - s :=
    List.pairwise_map.mpr
      ((Stretch.pairwise_run hq.paced _).imp fun h => Int.lt_of_lt_of_le hmax h)
  have hheld : ∀ t ∈ q.layout.map Chunk.last, ∃ c ∈ family, c.Holds t := by
    intro t ht
    obtain ⟨c, hc, rfl⟩ := List.mem_map.mp ht
    obtain ⟨hlo, hhi, -⟩ := hq.bounds_of_mem hc
    exact hcover.holds c.last (hq.on_grid hc).2 hlo hhi
  have hlength := length_le_of_apart hapart hcover.span_le hheld
  rw [List.length_map] at hlength
  exact hlength

/-- **A metric split is minimal**, and a refusal for the cap is never premature: no family of chunks
covers the grid points with fewer, and none with at most `cap` when the answer for `cap` is a
refusal. -/
theorem chunks_minimal (hstep : 0 < q.step) (hspan : q.step ≤ q.maxSpan) (hle : q.start ≤ q.stop)
    (hlo : Millis.least ≤ q.first) (hlt : q.first < q.last) (hhi : q.last ≤ Millis.greatest)
    (hstride : q.maxSpan / q.step * q.step + q.step ≤ Millis.greatest) :
    ∃ cs, (∀ cap, cs.length ≤ cap → q.chunks cap = .ok cs) ∧ q.IsCover cs ∧
      (∀ family, q.IsCover family → cs.length ≤ family.length) ∧
      ∀ cap e, q.chunks cap = .error e → ∀ family, q.IsCover family → cap < family.length := by
  have hq : q.Feasible := feasible_iff.mpr ⟨hstep, hle, hspan, hlo, hhi, hlt, hstride⟩
  refine ⟨q.layout, ?_, hq.isCover_layout, fun family => hq.length_le_of_isCover, ?_⟩
  · intro cap hcap
    exact chunks_eq_ok_iff.mpr ⟨hq, hcap, rfl⟩
  · intro cap e h family hcover
    have hlength := hq.length_le_of_isCover hcover
    rw [chunks_eq_of_feasible hq] at h
    split_ifs at h with hcap
    omega

/-- The aligned range may be longer than the range of milliseconds can count. -/
theorem chunks_minimal_wide :
    ∃ q : MetricSplit, q = ⟨Millis.least, Millis.greatest, 1, Millis.greatest - 1⟩ ∧
      0 < q.step ∧ q.step ≤ q.maxSpan ∧ q.start ≤ q.stop ∧
      Millis.least ≤ q.first ∧ q.first < q.last ∧ q.last ≤ Millis.greatest ∧
      q.maxSpan / q.step * q.step + q.step ≤ Millis.greatest ∧
      Millis.greatest < q.last - q.first ∧
      ∃ cs, (∀ cap, cs.length ≤ cap → q.chunks cap = .ok cs) ∧ q.IsCover cs ∧
        (∀ family, q.IsCover family → cs.length ≤ family.length) ∧
        ∀ cap e, q.chunks cap = .error e → ∀ family, q.IsCover family → cap < family.length := by
  refine ⟨_, rfl, ?_⟩
  have hlo : Millis.least ≤
      (MetricSplit.mk Millis.least Millis.greatest 1 (Millis.greatest - 1)).first := by decide
  refine ⟨by decide, by decide, by decide, hlo, by decide, by decide, by decide, by decide, ?_⟩
  exact chunks_minimal (by decide) (by decide) (by decide) hlo (by decide) (by decide) (by decide)

end MetricSplit

end QueryPrep
