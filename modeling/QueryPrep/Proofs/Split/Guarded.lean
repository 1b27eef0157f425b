import QueryPrep.Proofs.Split.Log
import QueryPrep.Proofs.Split.Metric

/-!
# Arithmetic without a check

A split is computed in exact numbers, and the limits of the range of milliseconds are minded where a
bound may leave it. Everywhere else nothing is checked: the number of steps that fit into a span and
the span that they make, what is left over when an end is aligned, what is missing to the next point
of the grid, and how long a chunk is. This file computes the same with a guard on each of these
operations, so that a division by nothing or a result out of range ends in a `Trap`. It also grants
each walk only so many turns, and running out of them is a trap as well.

Main result: no request within the range of milliseconds ever meets a trap, and one turn more than
the cap is always enough (`guardedChunks_eq_ok`). The operations are safe because the refusals
before them leave a positive step that is no longer than the span. The walk has one invariant, that
the chunks it has laid and the room it has left make up the cap (`guardedWalk_eq`).
-/

namespace QueryPrep

/-- What goes wrong in arithmetic that nobody checks, or with a walk that goes on for too long. -/
inductive Trap where
  /-- There is nothing to divide by. -/
  | noDivisor
  /-- The result leaves the range of milliseconds. -/
  | outOfRange
  /-- The walk is not over after the turns that it was granted. -/
  | outOfTurns
deriving DecidableEq, Repr

/-! ### Guarded operations -/

namespace Millis

/-- A result, unless it is out of range. -/
def guarded (n : Int) : Except Trap Int :=
  if Fits n then .ok n else .error .outOfRange

/-- A quotient, rounded towards zero. -/
def guardedQuot (a b : Int) : Except Trap Int :=
  if b = 0 then .error .noDivisor else guarded (a.tdiv b)

/-- A remainder that is not negative. There is one wherever there is a quotient. -/
def guardedRem (a b : Int) : Except Trap Int := do
  let _ ← guardedQuot a b
  guarded (a % b)

theorem guarded_of_fits {n : Int} (h : Fits n) : guarded n = .ok n :=
  if_pos h

variable {a b : Int}

/-- Dividing by a positive number brings a number nearer to zero. -/
theorem fits_tdiv (hb : 0 < b) (ha : Fits a) : Fits (a.tdiv b) := by
  have habs := Int.natAbs_tdiv_le_natAbs a b
  obtain ⟨hlo, hhi⟩ := ha
  rcases Int.le_total 0 a with hpos | hneg
  · have hsign := Int.tdiv_nonneg hpos (Int.le_of_lt hb)
    exact ⟨Int.le_trans fits_zero.1 hsign, by omega⟩
  · have hsign := Int.tdiv_nonneg (Int.neg_nonneg_of_nonpos hneg) (Int.le_of_lt hb)
    rw [Int.neg_tdiv] at hsign
    exact ⟨by omega, Int.le_trans (by omega) fits_zero.2⟩

theorem guardedQuot_of_pos (hb : 0 < b) (ha : Fits a) : guardedQuot a b = .ok (a.tdiv b) := by
  rw [guardedQuot, if_neg (by omega), guarded_of_fits (fits_tdiv hb ha)]

theorem guardedRem_of_pos (hb : 0 < b) (hfits : Fits b) (ha : Fits a) :
    guardedRem a b = .ok (a % b) := by
  have hnonneg := Int.emod_nonneg a (show b ≠ 0 by omega)
  have hlt := Int.emod_lt_of_pos a hb
  unfold guardedRem
  rw [guardedQuot_of_pos hb ha]
  exact guarded_of_fits (fits_zero.between hfits hnonneg (Int.le_of_lt hlt))

end Millis

namespace Grid

/-- Aligning up, with what is missing to the next point of the grid computed on the way. -/
def guardedAlignUp (step t : Int) : Except Trap (Option Int) := do
  let rest ← Millis.guardedRem t step
  if rest = 0 then .ok (some t)
  else do
    let missing ← Millis.guarded (step - rest)
    .ok (Millis.checked? (t + missing))

theorem guardedAlignUp_eq {step t : Int} (hstep : 0 < step) (hfits : Millis.Fits step)
    (ht : Millis.Fits t) : guardedAlignUp step t = .ok (Millis.checked? (alignUp step t)) := by
  have hnonneg := Int.emod_nonneg t (show step ≠ 0 by omega)
  have hlt := Int.emod_lt_of_pos t hstep
  have hmissing : Millis.Fits (step - t % step) :=
    Millis.fits_zero.between hfits (by omega) (by omega)
  unfold guardedAlignUp alignUp
  rw [Millis.guardedRem_of_pos hstep hfits ht]
  show (if t % step = 0 then _ else _) = _
  split_ifs with hpoint
  · rw [Millis.checked?_eq_some_iff.mpr ⟨rfl, ht⟩]
  · rw [Millis.guarded_of_fits hmissing]
    rfl

end Grid

/-- How far a chunk reaches. -/
def Chunk.guardedSpan (c : Chunk) : Except Trap Int :=
  Millis.guarded (c.last - c.first)

theorem Chunk.guardedSpan_eq {c : Chunk} {limit : Int} (hnonneg : 0 ≤ c.span)
    (hle : c.span ≤ limit) (hlimit : Millis.Fits limit) : c.guardedSpan = .ok c.span :=
  Millis.guarded_of_fits (Millis.fits_zero.between hlimit hnonneg hle)

/-! ### Guarded walks -/

namespace Stretch

/-- The walk turn by turn: lays a chunk, gives up if there are more now than the cap allows, and
goes on from where the chunk before would end, if there is such an instant. -/
def guardedWalk (s : Stretch) (cap : Nat) : (turns : Nat) → (last : Int) → (later : List Chunk) →
    Except Trap (Option (List Chunk))
  | turns, last, later =>
    if last < s.least then .ok (some later)
    else match turns with
      | 0 => .error .outOfTurns
      | turns + 1 =>
        if cap < (s.chunkAt last :: later).length then .ok none
        else match s.before (s.chunkAt last) with
          | none => .ok (some (s.chunkAt last :: later))
          | some next => guardedWalk s cap turns next (s.chunkAt last :: later)

/-- **One turn more than there is room for is enough**, and the walk gets where it gets without
counting: the chunks that it has laid and the room that is left make up the cap. -/
theorem guardedWalk_eq (s : Stretch) {cap room : Nat} {later : List Chunk}
    (h : later.length + room = cap) (last : Int) :
    s.guardedWalk cap (room + 1) last later = .ok (s.layBack room last later) := by
  induction room generalizing last later with
  | zero =>
      rcases Int.lt_or_le last s.least with hlt | hle
      · rw [guardedWalk, if_pos hlt, layBack_of_lt s hlt]
      · rw [guardedWalk, if_neg (Int.not_lt.mpr hle), layBack_zero s hle]
        exact if_pos (by rw [List.length_cons]; omega)
  | succ room ih =>
      rcases Int.lt_or_le last s.least with hlt | hle
      · rw [guardedWalk, if_pos hlt, layBack_of_lt s hlt]
      · have hlength : ¬ cap < (s.chunkAt last :: later).length := by
          rw [List.length_cons]
          omega
        rw [guardedWalk, if_neg (Int.not_lt.mpr hle)]
        simp only [if_neg hlength]
        rcases hb : s.before (s.chunkAt last) with - | next
        · rw [layBack_succ_of_none s hle hb]
        · rw [layBack_succ_of_some s hle hb]
          exact ih (by rw [List.length_cons]; omega) next

end Stretch

/-! ### Guarded splits -/

namespace MetricSplit

/-- A request whose numbers are all in range. -/
structure InRange (q : MetricSplit) : Prop where
  fits_start : Millis.Fits q.start
  fits_stop : Millis.Fits q.stop
  fits_step : Millis.Fits q.step
  fits_maxSpan : Millis.Fits q.maxSpan

/-- The split of a metric range, one operation at a time. -/
def guardedChunks (q : MetricSplit) (cap turns : Nat) :
    Except Trap (Except Refusal (List Chunk)) :=
  if q.step ≤ 0 ∨ q.stop < q.start then .ok (.error .malformed)
  else if q.maxSpan < q.step then .ok (.error .spanBelowStep)
  else do
    let steps ← Millis.guardedQuot q.maxSpan q.step
    let span ← Millis.guarded (steps * q.step)
    let rest ← Millis.guardedRem q.start q.step
    match Millis.checked? (q.start - rest) with
    | none => .ok (.error .outOfRange)
    | some first => do
      match ← Grid.guardedAlignUp q.step q.stop with
      | none => .ok (.error .outOfRange)
      | some last =>
        if last ≤ first then .ok (.error .empty)
        else match Millis.checked? (span + q.step) with
          | none => .ok (.error .outOfRange)
          | some stride => do
            let s : Stretch :=
              { first := first, least := first, span := span,
                before := fun c => Millis.checked? (c.last - stride) }
            let laid ← s.guardedWalk cap turns last []
            .ok (laid.elim (.error .tooMany) .ok)

variable {q : MetricSplit}

/-- The operations before the walk, where the first two refusals do not apply. -/
theorem guarded_before_walk (hq : q.InRange) (hstep : 0 < q.step) (hspan : q.step ≤ q.maxSpan) :
    Millis.guardedQuot q.maxSpan q.step = .ok (q.maxSpan / q.step) ∧
      Millis.guarded (q.maxSpan / q.step * q.step) = .ok (Grid.fit q.step q.maxSpan) ∧
      Millis.guardedRem q.start q.step = .ok (q.start % q.step) ∧
      Grid.guardedAlignUp q.step q.stop = .ok (Millis.checked? q.last) := by
  have hfit := Grid.le_fit hstep hspan
  have hfit_le := Grid.fit_le hstep q.maxSpan
  have hfits : Millis.Fits (Grid.fit q.step q.maxSpan) :=
    Millis.fits_zero.between hq.fits_maxSpan (by omega) hfit_le
  refine ⟨?_, Millis.guarded_of_fits hfits, ?_, ?_⟩
  · rw [Millis.guardedQuot_of_pos hstep hq.fits_maxSpan, Int.tdiv_eq_ediv_of_nonneg (by omega)]
  · exact Millis.guardedRem_of_pos hstep hq.fits_step hq.fits_start
  · exact Grid.guardedAlignUp_eq hstep hq.fits_step hq.fits_stop

/-- Refusal by refusal, in the order in which they are met. -/
theorem guardedChunks_eq (hq : q.InRange) (cap : Nat) :
    q.guardedChunks cap (cap + 1) = .ok (q.chunks cap) := by
  unfold guardedChunks chunks
  by_cases hmalformed : q.step ≤ 0 ∨ q.stop < q.start
  · rw [if_pos hmalformed, if_pos hmalformed]
  rw [if_neg hmalformed, if_neg hmalformed]
  by_cases hshort : q.maxSpan < q.step
  · rw [if_pos hshort, if_pos hshort]
  rw [if_neg hshort, if_neg hshort]
  obtain ⟨hquot, hspan, hrest, hlast⟩ := guarded_before_walk hq (by omega) (by omega)
  have hfirst : q.start - q.start % q.step = q.first := rfl
  have hstride : Grid.fit q.step q.maxSpan + q.step = q.stride := rfl
  simp only [hquot, hspan, hrest, hlast, hfirst, hstride, bind, Except.bind]
  -- the two ends are refused together there and one after the other here
  by_cases hout : ¬ (Millis.Fits q.first ∧ Millis.Fits q.last)
  · rw [if_pos hout]
    by_cases hlo : Millis.Fits q.first
    · rw [Millis.checked?_of_fits hlo, Millis.checked?_of_not_fits fun hhi => hout ⟨hlo, hhi⟩]
    · rw [Millis.checked?_of_not_fits hlo]
  obtain ⟨hlo, hhi⟩ := not_not.mp hout
  rw [if_neg hout, Millis.checked?_of_fits hlo, Millis.checked?_of_fits hhi]
  by_cases hempty : q.last ≤ q.first
  · simp only [if_pos hempty]
  by_cases hbeyond : ¬ Millis.Fits q.stride
  · simp only [if_neg hempty, Millis.checked?_of_not_fits hbeyond, if_pos hbeyond]
  have hwalk : q.stretch.guardedWalk cap (cap + 1) q.last [] =
      .ok (q.stretch.layBack cap q.last []) := q.stretch.guardedWalk_eq (Nat.zero_add cap) q.last
  have hstretch : Stretch.mk q.first q.first (Grid.fit q.step q.maxSpan)
      (fun c => Millis.checked? (c.last - q.stride)) = q.stretch := rfl
  simp only [if_neg hempty, Millis.checked?_of_fits (not_not.mp hbeyond), if_neg hbeyond, hstretch,
    hwalk]

theorem guardedSpan_of_mem (hq : q.InRange) {cap : Nat} {cs : List Chunk}
    (h : q.chunks cap = .ok cs) {c : Chunk} (hc : c ∈ cs) :
    c.guardedSpan = .ok c.span ∧ 0 ≤ c.span := by
  obtain ⟨hfeasible, -, rfl⟩ := chunks_eq_ok_iff.mp h
  have hnonneg : 0 ≤ c.span := Int.sub_nonneg_of_le (hfeasible.first_le_last hc)
  exact ⟨Chunk.guardedSpan_eq hnonneg (hfeasible.gridPartition.span_le c hc) hq.fits_maxSpan,
    hnonneg⟩

end MetricSplit

namespace LogSplit

/-- A request whose numbers are all in range. -/
structure InRange (q : LogSplit) : Prop where
  fits_start : Millis.Fits q.start
  fits_stop : Millis.Fits q.stop
  fits_span : Millis.Fits q.span

/-- The split of a log range. All of its arithmetic is in the walk. -/
def guardedChunks (q : LogSplit) (cap turns : Nat) : Except Trap (Except Refusal (List Chunk)) :=
  if q.span ≤ 0 then .ok (.error .malformed)
  else if q.stop ≤ q.start then .ok (.error .empty)
  else do
    let laid ← q.stretch.guardedWalk cap turns q.stop []
    .ok (laid.elim (.error .tooMany) .ok)

variable {q : LogSplit}

theorem guardedChunks_eq (q : LogSplit) (cap : Nat) :
    q.guardedChunks cap (cap + 1) = .ok (q.chunks cap) := by
  have hwalk : q.stretch.guardedWalk cap (cap + 1) q.stop [] =
      .ok (q.stretch.layBack cap q.stop []) := q.stretch.guardedWalk_eq (Nat.zero_add cap) q.stop
  unfold guardedChunks chunks
  rw [hwalk]
  split_ifs <;> rfl

theorem guardedSpan_of_mem (hq : q.InRange) {cap : Nat} {cs : List Chunk}
    (h : q.chunks cap = .ok cs) {c : Chunk} (hc : c ∈ cs) :
    c.guardedSpan = .ok c.span ∧ 0 ≤ c.span := by
  obtain ⟨hfeasible, -, rfl⟩ := (chunks_eq_ok_iff hq.fits_start hq.fits_stop).mp h
  have hpos := hfeasible.span_pos_of_mem hc
  have hle : c.span ≤ q.span :=
    Stretch.span_le_of_mem_layout hfeasible.paced hq.fits_stop.2 hfeasible.start_lt_stop hc
  exact ⟨Chunk.guardedSpan_eq (Int.le_of_lt hpos) hle hq.fits_span, Int.le_of_lt hpos⟩

end LogSplit

/-! ### Both kinds -/

/-- **No request in range meets a trap**: whatever the cap, every operation that nobody checks has
something to divide by and a result in range, each walk is over after at most one turn more than the
cap, and the length of every chunk is in range and not negative. -/
theorem guardedChunks_eq_ok :
    (∀ (q : MetricSplit) (cap : Nat), q.InRange →
      q.guardedChunks cap (cap + 1) = .ok (q.chunks cap) ∧
      ∀ cs, q.chunks cap = .ok cs → ∀ c ∈ cs, c.guardedSpan = .ok c.span ∧ 0 ≤ c.span) ∧
    (∀ (q : LogSplit) (cap : Nat), q.InRange →
      q.guardedChunks cap (cap + 1) = .ok (q.chunks cap) ∧
      ∀ cs, q.chunks cap = .ok cs → ∀ c ∈ cs, c.guardedSpan = .ok c.span ∧ 0 ≤ c.span) := by
  constructor
  · intro q cap hq
    exact ⟨MetricSplit.guardedChunks_eq hq cap,
      fun cs h c hc => MetricSplit.guardedSpan_of_mem hq h hc⟩
  · intro q cap hq
    exact ⟨LogSplit.guardedChunks_eq q cap, fun cs h c hc => LogSplit.guardedSpan_of_mem hq h hc⟩

/-- The widest ranges there are, wider than the range of milliseconds can count. -/
theorem guardedChunks_eq_ok_widest :
    (MetricSplit.mk Millis.least Millis.greatest 1 (Millis.greatest - 1)).InRange ∧
    (MetricSplit.mk Millis.least Millis.greatest 1 (Millis.greatest - 1)).guardedChunks 3 4 =
      .ok (.ok [⟨Millis.least, Millis.least + 1⟩, ⟨Millis.least + 2, 0⟩, ⟨1, Millis.greatest⟩]) ∧
    (Chunk.mk 1 Millis.greatest).guardedSpan = .ok (Millis.greatest - 1) ∧
    (LogSplit.mk Millis.least Millis.greatest Millis.greatest).InRange ∧
    (LogSplit.mk Millis.least Millis.greatest Millis.greatest).guardedChunks 3 4 =
      .ok (.ok [⟨Millis.least, Millis.least + 1⟩, ⟨Millis.least + 1, 0⟩, ⟨0, Millis.greatest⟩]) ∧
    (Chunk.mk 0 Millis.greatest).guardedSpan = .ok Millis.greatest := by
  have hmetric : (MetricSplit.mk Millis.least Millis.greatest 1 (Millis.greatest - 1)).InRange :=
    ⟨by decide, by decide, by decide, by decide⟩
  have hlog : (LogSplit.mk Millis.least Millis.greatest Millis.greatest).InRange :=
    ⟨by decide, by decide, by decide⟩
  obtain ⟨hmetric_run, hmetric_span⟩ := guardedChunks_eq_ok.1 _ 3 hmetric
  obtain ⟨hlog_run, hlog_span⟩ := guardedChunks_eq_ok.2 _ 3 hlog
  exact ⟨hmetric, hmetric_run, (hmetric_span _ rfl ⟨1, Millis.greatest⟩ (by decide)).1,
    hlog, hlog_run, (hlog_span _ rfl ⟨0, Millis.greatest⟩ (by decide)).1⟩

end QueryPrep
