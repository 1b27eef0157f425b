import QueryPrep.Proofs.Split.Log
import QueryPrep.Proofs.Split.Metric
import QueryPrep.Proofs.Split.Part

/-!
# Splits that are taken up again

A query that was split is asked chunk by chunk, and may be left in the middle. Nothing is lost by
splitting what is left of it once more, or any part of it that goes from the start of one chunk to
the end of another: the answer is that part of the first split (`chunks_extract`). It is also safe
to ask for more: a range that starts further back is split into the same chunks but for the earliest
one, with more before that (`chunks_extendsBack`).

Both are laws of a layout, from `Part`. What is left to say here is that the second request is one
for the same stretch, begun elsewhere, and that it is not refused.
-/

namespace QueryPrep

/-! ### Metric ranges -/

namespace MetricSplit

variable {q : MetricSplit} {cap : Nat} {i j : Nat}

/-! Where the chunks of a layout start and end -/

theorem Feasible.first_le_first_of_mem (hq : q.Feasible) {c : Chunk} (hc : c ∈ q.layout) :
    q.first ≤ c.first := by
  rw [(hq.bounds_of_mem hc).2.2]
  exact Int.le_max_right _ _

theorem Feasible.getElem_first_le_last (hq : q.Feasible) (hij : i ≤ j)
    (hj : j < q.layout.length) : q.layout[i].first ≤ q.layout[j].last :=
  Int.le_trans (hq.first_le_last (List.getElem_mem _)) (Stretch.getElem_last_le hq.paced hij hj)

/-- The chunks after the earliest one are full. -/
theorem Feasible.span_getElem_succ (hq : q.Feasible) {k : Nat} (hk : k + 1 < q.layout.length) :
    q.layout[k + 1].span = Grid.fit q.step q.maxSpan := by
  have htail : k < q.layout.tail.length := by
    rw [List.length_tail]
    omega
  refine hq.gridPartition.span_tail _ ?_
  rw [← List.getElem_tail htail]
  exact List.getElem_mem htail

/-- Only the earliest chunk can be a single instant. -/
theorem Feasible.eq_zero_of_first_eq_last (hq : q.Feasible) (hij : i ≤ j)
    (hj : j < q.layout.length) (heq : q.layout[i].first = q.layout[j].last) : i = 0 ∧ j = 0 := by
  rcases Nat.eq_or_lt_of_le hij with rfl | hlt
  · rcases i with - | k
    · exact ⟨rfl, rfl⟩
    · have hspan : q.layout[k + 1].last - q.layout[k + 1].first = Grid.fit q.step q.maxSpan :=
        hq.span_getElem_succ hj
      have hstep := hq.step_pos
      have hfit := Grid.le_fit hstep hq.step_le_maxSpan
      omega
  · have hle := hq.first_le_last (List.getElem_mem (Nat.lt_trans hlt hj))
    have hlast := Stretch.getElem_last_lt hq.paced hlt hj
    exact absurd heq (Int.ne_of_lt (Int.lt_of_le_of_lt hle hlast))

/-! Another range on the same grid -/

/-- The same request for another range. -/
def between (q : MetricSplit) (start stop : Int) : MetricSplit :=
  { q with start := start, stop := stop }

theorem stretch_between (q : MetricSplit) (start stop : Int) :
    (q.between start stop).stretch = q.stretch.since (q.between start stop).first := by
  have hleast : q.stretch.least - q.stretch.first = 0 := Int.sub_self q.first
  unfold Stretch.since
  rw [hleast, Int.add_zero]
  rfl

theorem layout_between (q : MetricSplit) (start stop : Int) :
    (q.between start stop).layout =
      (q.stretch.since (q.between start stop).first).layout q.stride
        (q.between start stop).last := by
  rw [← stretch_between]
  rfl

section OnGrid

variable {lo hi : Int} (hlo : q.step ∣ lo) (hhi : q.step ∣ hi)

include hlo in
theorem first_between (hi : Int) : (q.between lo hi).first = lo :=
  Grid.alignDown_of_dvd hlo

include hhi in
theorem last_between (lo : Int) : (q.between lo hi).last = hi :=
  Grid.alignUp_of_dvd hhi

include hlo hhi

/-- What is asked for between two points of the grid is not refused for anything but the cap. -/
theorem Feasible.between (hq : q.Feasible) (hfirst : q.first ≤ lo) (hlast : hi ≤ q.last)
    (hlt : lo < hi) : (q.between lo hi).Feasible := by
  rw [feasible_iff, first_between hlo, last_between hhi]
  exact ⟨hq.step_pos, Int.le_of_lt hlt, hq.step_le_maxSpan, Int.le_trans hq.fits_first.1 hfirst,
    Int.le_trans hlast hq.fits_last.2, hlt, hq.fits_stride.2⟩

/-- A single point of the grid leaves nothing to split. -/
theorem Feasible.chunks_between_of_eq (hq : q.Feasible) (hfirst : q.first ≤ lo)
    (hlast : hi ≤ q.last) (heq : lo = hi) (cap : Nat) :
    (q.between lo hi).chunks cap = .error .empty := by
  have hstep := hq.step_pos
  have hspan := hq.step_le_maxSpan
  have hfits : Millis.Fits lo ∧ Millis.Fits hi :=
    ⟨hq.fits_first.between hq.fits_last hfirst (by omega),
      hq.fits_first.between hq.fits_last (by omega) hlast⟩
  unfold chunks
  rw [first_between hlo, last_between hhi]
  show (if q.step ≤ 0 ∨ hi < lo then _ else if q.maxSpan < q.step then _ else _) = _
  rw [if_neg (by omega), if_neg (by omega), if_neg (not_not_intro hfits), if_pos (by omega)]

end OnGrid

/-- The layout of a part of a layout is that part. -/
theorem Feasible.layout_between_layout (hq : q.Feasible) (hij : i ≤ j) (hj : j < q.layout.length) :
    (q.between q.layout[i].first q.layout[j].last).layout = q.layout.extract i (j + 1) := by
  have hfit := Grid.le_fit hq.step_pos hq.step_le_maxSpan
  have hspan : q.stretch.span = Grid.fit q.step q.maxSpan := rfl
  have hstride : q.stride = Grid.fit q.step q.maxSpan + q.step := rfl
  have hleast : q.stretch.least = q.stretch.first := rfl
  have hstep := hq.step_pos
  have hlo := (hq.on_grid (List.getElem_mem (Nat.lt_of_le_of_lt hij hj))).1
  have hhi := (hq.on_grid (List.getElem_mem hj)).2
  rw [layout_between, first_between hlo, last_between hhi]
  exact Stretch.layout_extract hq.paced hq.fits_last.2 (Int.le_of_lt hq.first_lt_last) (by omega)
    (by omega) hij hj

/-- What a request answers for a part of the layout of another one. -/
theorem Feasible.chunks_between_layout (hq : q.Feasible) (hcap : q.layout.length ≤ cap)
    (hij : i ≤ j) (hj : j < q.layout.length) :
    (q.between q.layout[i].first q.layout[j].last).chunks cap =
      if q.layout[i].first = q.layout[j].last then .error .empty
      else .ok (q.layout.extract i (j + 1)) := by
  have hi : q.layout[i] ∈ q.layout := List.getElem_mem _
  have hj' : q.layout[j] ∈ q.layout := List.getElem_mem hj
  have hlo := (hq.on_grid hi).1
  have hhi := (hq.on_grid hj').2
  have hfirst := hq.first_le_first_of_mem hi
  have hlast := (hq.bounds_of_mem hj').2.1
  split_ifs with heq
  · exact hq.chunks_between_of_eq hlo hhi hfirst hlast heq cap
  · have hle := hq.getElem_first_le_last hij hj
    have hpart := hq.layout_between_layout hij hj
    refine chunks_eq_ok_iff.mpr ⟨hq.between hlo hhi hfirst hlast (by omega), ?_, hpart.symm⟩
    rw [hpart, List.extract_eq_take_drop, List.length_take]
    omega

/-- A range that starts further back is split into the same chunks and more. -/
theorem Feasible.layout_extendsBack (hq : q.Feasible) {start : Int}
    (hr : (q.between start q.stop).Feasible) (hle : start ≤ q.start) :
    ExtendsBack (q.between start q.stop).layout q.layout := by
  have hstretch : q.stretch = (q.between start q.stop).stretch.since q.first :=
    stretch_between (q.between start q.stop) q.start q.stop
  have hlayout : q.layout =
      ((q.between start q.stop).stretch.since q.first).layout q.stride q.last :=
    layout_between (q.between start q.stop) q.start q.stop
  rw [hlayout]
  exact Stretch.layout_extendsBack hr.paced (hstretch ▸ hq.paced)
    (Grid.alignDown_mono hq.step_pos hle) hq.fits_last.2 (hstretch ▸ Int.le_of_lt hq.first_lt_last)

end MetricSplit

/-! ### Log ranges -/

namespace LogSplit

/-- The same request for another range. -/
def between (q : LogSplit) (start stop : Int) : LogSplit :=
  { q with start := start, stop := stop }

variable {q : LogSplit} {cap : Nat} {i j : Nat}

theorem stretch_between (q : LogSplit) (start stop : Int) :
    (q.between start stop).stretch = q.stretch.since start := by
  have hleast : q.stretch.least - q.stretch.first = 1 := by
    show q.start + 1 - q.start = 1
    omega
  unfold Stretch.since
  rw [hleast]
  rfl

theorem layout_between (q : LogSplit) (start stop : Int) :
    (q.between start stop).layout = (q.stretch.since start).layout q.span stop := by
  rw [← stretch_between]
  rfl

theorem Feasible.between (hq : q.Feasible) {lo hi : Int} (hlo : q.start ≤ lo) (hhi : hi ≤ q.stop)
    (hlt : lo < hi) : (q.between lo hi).Feasible where
  span_pos := hq.span_pos
  start_lt_stop := hlt
  fits_start := hq.fits_start.between hq.fits_stop hlo (Int.le_trans (Int.le_of_lt hlt) hhi)
  fits_stop := hq.fits_start.between hq.fits_stop (Int.le_trans hlo (Int.le_of_lt hlt)) hhi

theorem Feasible.layout_between_layout (hq : q.Feasible) (hij : i ≤ j) (hj : j < q.layout.length) :
    (q.between q.layout[i].first q.layout[j].last).layout = q.layout.extract i (j + 1) := by
  have hpos := hq.span_pos
  have hspan : q.stretch.span = q.span := rfl
  have hfirst : q.stretch.first = q.start := rfl
  have hleast : q.stretch.least = q.start + 1 := rfl
  rw [layout_between]
  exact Stretch.layout_extract hq.paced hq.fits_stop.2 hq.start_lt_stop (by omega) (by omega) hij hj

theorem Feasible.getElem_first_lt_last (hq : q.Feasible) (hij : i ≤ j)
    (hj : j < q.layout.length) : q.layout[i].first < q.layout[j].last := by
  have hspan := hq.span_pos_of_mem (List.getElem_mem (Nat.lt_of_le_of_lt hij hj))
  exact Int.lt_of_lt_of_le (Int.lt_of_sub_pos hspan) (Stretch.getElem_last_le hq.paced hij hj)

/-- What a request answers for a part of the layout of another one. -/
theorem Feasible.chunks_between_layout (hq : q.Feasible) (hcap : q.layout.length ≤ cap)
    (hij : i ≤ j) (hj : j < q.layout.length) :
    (q.between q.layout[i].first q.layout[j].last).chunks cap =
      .ok (q.layout.extract i (j + 1)) := by
  have hfirst : q.start ≤ q.layout[i].first := by
    rw [(hq.bounds_of_mem (List.getElem_mem (Nat.lt_of_le_of_lt hij hj))).2.2]
    exact Int.le_max_right _ _
  have hlast := (hq.bounds_of_mem (List.getElem_mem hj)).2.1
  have hr := hq.between hfirst hlast (hq.getElem_first_lt_last hij hj)
  have hpart := hq.layout_between_layout hij hj
  refine (chunks_eq_ok_iff hr.fits_start hr.fits_stop).mpr ⟨hr, ?_, hpart.symm⟩
  rw [hpart, List.extract_eq_take_drop, List.length_take]
  omega

/-- A range that starts further back is split into the same chunks and more. -/
theorem Feasible.layout_extendsBack (hq : q.Feasible) {start : Int}
    (hr : (q.between start q.stop).Feasible) (hle : start ≤ q.start) :
    ExtendsBack (q.between start q.stop).layout q.layout := by
  have hstretch : q.stretch = (q.between start q.stop).stretch.since q.start :=
    stretch_between (q.between start q.stop) q.start q.stop
  have hlayout : q.layout = ((q.between start q.stop).stretch.since q.start).layout q.span q.stop :=
    layout_between (q.between start q.stop) q.start q.stop
  rw [hlayout]
  exact Stretch.layout_extendsBack hr.paced (hstretch ▸ hq.paced) hle hq.fits_stop.2
    (hstretch ▸ hq.start_lt_stop)

end LogSplit

/-! ### Both kinds -/

/-- **A split can be taken up again at any of its chunks**: the range from the start of one chunk to
the end of another is split into just the chunks between them, under the same cap. The one range
that cannot be split again is that of an earliest chunk which is a single instant. -/
theorem chunks_extract :
    (∀ (q : MetricSplit) (cap : Nat) (cs : List Chunk), q.chunks cap = .ok cs →
      ∀ (i j : Nat) (hij : i ≤ j) (hj : j < cs.length),
        (q.between cs[i].first cs[j].last).chunks cap =
          (if cs[i].first = cs[j].last then .error .empty else .ok (cs.extract i (j + 1))) ∧
        (cs[i].first = cs[j].last → i = 0 ∧ j = 0)) ∧
    (∀ (q : LogSplit) (cap : Nat) (cs : List Chunk), Millis.Fits q.start → Millis.Fits q.stop →
      q.chunks cap = .ok cs → ∀ (i j : Nat) (hij : i ≤ j) (hj : j < cs.length),
        (q.between cs[i].first cs[j].last).chunks cap = .ok (cs.extract i (j + 1))) := by
  constructor
  · intro q cap cs h i j hij hj
    obtain ⟨hq, hcap, rfl⟩ := MetricSplit.chunks_eq_ok_iff.mp h
    exact ⟨hq.chunks_between_layout hcap hij hj, hq.eq_zero_of_first_eq_last hij hj⟩
  · intro q cap cs hstart hstop h i j hij hj
    obtain ⟨hq, hcap, rfl⟩ := (LogSplit.chunks_eq_ok_iff hstart hstop).mp h
    exact hq.chunks_between_layout hcap hij hj

/-- A part with the single instant at the start, that instant alone, and the last two of three log
chunks. -/
theorem chunks_extract_instant :
    (MetricSplit.mk 0 60000 10000 25000).chunks 3 =
      .ok [⟨0, 0⟩, ⟨10000, 30000⟩, ⟨40000, 60000⟩] ∧
    (MetricSplit.mk 0 30000 10000 25000).chunks 3 = .ok [⟨0, 0⟩, ⟨10000, 30000⟩] ∧
    (MetricSplit.mk 0 0 10000 25000).chunks 3 = .error .empty ∧
    Millis.Fits 1000 ∧ Millis.Fits 10000 ∧
    (LogSplit.mk 1000 10000 4000).chunks 3 = .ok [⟨1000, 2000⟩, ⟨2000, 6000⟩, ⟨6000, 10000⟩] ∧
    (LogSplit.mk 2000 10000 4000).chunks 3 = .ok [⟨2000, 6000⟩, ⟨6000, 10000⟩] := by
  have hmetric : (MetricSplit.mk 0 60000 10000 25000).chunks 3 =
    .ok [⟨0, 0⟩, ⟨10000, 30000⟩, ⟨40000, 60000⟩] := rfl
  have hstart : Millis.Fits 1000 := by decide
  have hstop : Millis.Fits 10000 := by decide
  have hlog : (LogSplit.mk 1000 10000 4000).chunks 3 =
    .ok [⟨1000, 2000⟩, ⟨2000, 6000⟩, ⟨6000, 10000⟩] := rfl
  exact ⟨hmetric, (chunks_extract.1 _ 3 _ hmetric 0 1 (by decide) (by decide)).1,
    (chunks_extract.1 _ 3 _ hmetric 0 0 (by decide) (by decide)).1, hstart, hstop, hlog,
    chunks_extract.2 _ 3 _ hstart hstop hlog 1 2 (by decide) (by decide)⟩

/-- **A split is anchored at the end of its range**: moving the start back keeps every chunk but the
earliest one, which ends where it did and starts no later, under the same cap. -/
theorem chunks_extendsBack :
    (∀ (q : MetricSplit) (start : Int) (cap : Nat) (cs ds : List Chunk), start ≤ q.start →
      q.chunks cap = .ok cs → (q.between start q.stop).chunks cap = .ok ds →
      ExtendsBack ds cs) ∧
    (∀ (q : LogSplit) (start : Int) (cap : Nat) (cs ds : List Chunk), Millis.Fits start →
      Millis.Fits q.start → Millis.Fits q.stop → start ≤ q.start → q.chunks cap = .ok cs →
      (q.between start q.stop).chunks cap = .ok ds → ExtendsBack ds cs) := by
  constructor
  · intro q start cap cs ds hle hcs hds
    obtain ⟨hq, -, rfl⟩ := MetricSplit.chunks_eq_ok_iff.mp hcs
    obtain ⟨hr, -, rfl⟩ := MetricSplit.chunks_eq_ok_iff.mp hds
    exact hq.layout_extendsBack hr hle
  · intro q start cap cs ds hfits hstart hstop hle hcs hds
    obtain ⟨hq, -, rfl⟩ := (LogSplit.chunks_eq_ok_iff hstart hstop).mp hcs
    obtain ⟨hr, -, rfl⟩ :=
      (LogSplit.chunks_eq_ok_iff (q := q.between start q.stop) hfits hstop).mp hds
    exact hq.layout_extendsBack hr hle

/-- At the lower limit, where the longer of two walks is over for want of an instant to go on from
and the other one because it has got to its start. -/
theorem chunks_extendsBack_least :
    Millis.least ≤ Millis.least + 3 ∧
    (MetricSplit.mk (Millis.least + 3) (Millis.least + 6) 2 4).chunks 2 =
      .ok [⟨Millis.least + 2, Millis.least + 6⟩] ∧
    (MetricSplit.mk Millis.least (Millis.least + 6) 2 4).chunks 2 =
      .ok [⟨Millis.least, Millis.least⟩, ⟨Millis.least + 2, Millis.least + 6⟩] ∧
    ExtendsBack [⟨Millis.least, Millis.least⟩, ⟨Millis.least + 2, Millis.least + 6⟩]
      [⟨Millis.least + 2, Millis.least + 6⟩] ∧
    Millis.Fits Millis.least ∧ Millis.Fits (Millis.least + 3) ∧ Millis.Fits (Millis.least + 6) ∧
    (LogSplit.mk (Millis.least + 3) (Millis.least + 6) 4).chunks 2 =
      .ok [⟨Millis.least + 3, Millis.least + 6⟩] ∧
    (LogSplit.mk Millis.least (Millis.least + 6) 4).chunks 2 =
      .ok [⟨Millis.least, Millis.least + 2⟩, ⟨Millis.least + 2, Millis.least + 6⟩] ∧
    ExtendsBack [⟨Millis.least, Millis.least + 2⟩, ⟨Millis.least + 2, Millis.least + 6⟩]
      [⟨Millis.least + 3, Millis.least + 6⟩] := by
  have hle : Millis.least ≤ Millis.least + 3 := by decide
  have hleast : Millis.Fits Millis.least := by decide
  have hstart : Millis.Fits (Millis.least + 3) := by decide
  have hstop : Millis.Fits (Millis.least + 6) := by decide
  have hmetric : (MetricSplit.mk (Millis.least + 3) (Millis.least + 6) 2 4).chunks 2 =
    .ok [⟨Millis.least + 2, Millis.least + 6⟩] := rfl
  have hmetric' : (MetricSplit.mk Millis.least (Millis.least + 6) 2 4).chunks 2 =
    .ok [⟨Millis.least, Millis.least⟩, ⟨Millis.least + 2, Millis.least + 6⟩] := rfl
  have hlog : (LogSplit.mk (Millis.least + 3) (Millis.least + 6) 4).chunks 2 =
    .ok [⟨Millis.least + 3, Millis.least + 6⟩] := rfl
  have hlog' : (LogSplit.mk Millis.least (Millis.least + 6) 4).chunks 2 =
    .ok [⟨Millis.least, Millis.least + 2⟩, ⟨Millis.least + 2, Millis.least + 6⟩] := rfl
  exact ⟨hle, hmetric, hmetric', chunks_extendsBack.1 _ _ 2 _ _ hle hmetric hmetric', hleast,
    hstart, hstop, hlog, hlog',
    chunks_extendsBack.2 _ _ 2 _ _ hleast hstart hstop hle hlog hlog'⟩

end QueryPrep
