import QueryPrep.Proofs.Split.Grid
import QueryPrep.Proofs.Split.Walk

/-!
# How a log range is split

What `LogSplit.chunks` answers, for every request between two instants and every cap. There is no
grid here: the walk goes on from the start of the chunk that it has just laid, and is over when that
is the start of the range. `chunks_contiguous` says which requests are split, that the chunks lead
from the start to the end with shared bounds and nothing but full chunks after the first, and that
no other way to do so takes fewer.
-/

namespace QueryPrep

/-- Chunks that lead from `lo` to `hi` and share their bounds. -/
structure Contiguous (lo hi : Int) (cs : List Chunk) : Prop where
  head_first : cs.head?.map Chunk.first = some lo
  getLast_last : cs.getLast?.map Chunk.last = some hi
  share_bounds : cs.IsChain fun c d => d.first = c.last

theorem contiguous_iff_linked {lo hi : Int} {cs : List Chunk} :
    Contiguous lo hi cs ↔ cs ≠ [] ∧ Linked 0 lo cs hi := by
  constructor
  · rintro ⟨hhead, hlast, hchain⟩
    have hne : cs ≠ [] := by
      rintro rfl
      simp at hhead
    exact ⟨hne, (linked_iff hne).mpr ⟨hhead, hlast, by simpa using hchain⟩⟩
  · rintro ⟨hne, hlinked⟩
    obtain ⟨hhead, hlast, hchain⟩ := (linked_iff hne).mp hlinked
    exact ⟨hhead, hlast, by simpa using hchain⟩

namespace LogSplit

/-- The chunks of a request. -/
def layout (q : LogSplit) : List Chunk :=
  q.stretch.layout q.span q.stop

/-- A request between two instants that is refused for nothing but its cap. -/
structure Feasible (q : LogSplit) : Prop where
  span_pos : 0 < q.span
  start_lt_stop : q.start < q.stop
  fits_start : Millis.Fits q.start
  fits_stop : Millis.Fits q.stop

variable {q : LogSplit} {cap : Nat} {cs : List Chunk}

/-- The start of a chunk is one span back, unless that would be beyond the start of the range. -/
theorem Feasible.paced (hq : q.Feasible) : q.stretch.Paced q.span := by
  have hpos := hq.span_pos
  have hstart := hq.fits_start.1
  have hfirst : ∀ {last : Int}, last ≤ Millis.greatest →
      (q.stretch.chunkAt last).first = max (last - q.span) q.start :=
    fun hlast => Stretch.chunkAt_first hstart (Int.le_of_lt hpos) hlast
  refine ⟨hstart, Int.le_of_lt (Int.lt_succ q.start), Int.le_of_lt hpos, Int.le_refl _, hpos,
    ?_, ?_⟩
  · intro last hlast hle
    have hle' : q.start + 1 ≤ last - q.span := hle
    show some (q.stretch.chunkAt last).first = some (last - q.span)
    rw [hfirst hlast, Int.max_eq_left (by omega)]
  · intro last next hlast hlt hb
    have hlt' : last - q.span < q.start + 1 := hlt
    obtain rfl : (q.stretch.chunkAt last).first = next := Option.some.inj hb
    -- the chunk is cut off, and from the start of the range the walk goes no further
    rw [hfirst hlast, Int.max_eq_right (by omega)]
    exact Int.lt_succ q.start

theorem chunks_eq_of_feasible (hq : q.Feasible) (cap : Nat) :
    q.chunks cap = if q.layout.length ≤ cap then .ok q.layout else .error .tooMany := by
  have hpos := hq.span_pos
  have hlt := hq.start_lt_stop
  unfold chunks
  rw [if_neg (by omega), if_neg (by omega), Stretch.layBack_nil_eq hq.paced cap hq.fits_stop.2,
    ← layout]
  split_ifs <;> rfl

/-- **What a log split answers.** -/
theorem chunks_eq_ok_iff (hstart : Millis.Fits q.start) (hstop : Millis.Fits q.stop) :
    q.chunks cap = .ok cs ↔ q.Feasible ∧ q.layout.length ≤ cap ∧ cs = q.layout := by
  constructor
  · intro h
    have hq : q.Feasible := by
      unfold chunks at h
      split_ifs at h with h1 h2
      exact ⟨by omega, by omega, hstart, hstop⟩
    rw [chunks_eq_of_feasible hq] at h
    split_ifs at h with hcap
    exact ⟨hq, hcap, (Except.ok.inj h).symm⟩
  · rintro ⟨hq, hcap, rfl⟩
    rw [chunks_eq_of_feasible hq, if_pos hcap]

/-! ### The chunks -/

theorem Feasible.cast_length (hq : q.Feasible) :
    (q.layout.length : Int) = Grid.ceilDiv (q.stop - q.start) q.span := by
  have hlength : (q.layout.length : Int) = (q.stop - (q.start + 1)) / q.span + 1 :=
    Stretch.cast_length_layout hq.paced hq.start_lt_stop
  rw [hlength, Grid.ceilDiv_eq hq.span_pos, Int.sub_sub]

theorem Feasible.contiguous_layout (hq : q.Feasible) : Contiguous q.start q.stop q.layout := by
  have hlinked := Stretch.linked_layout hq.paced hq.fits_stop.2 hq.start_lt_stop
    fun k hlt => Int.lt_add_one_iff.mp hlt
  rw [show q.span - q.stretch.span = 0 from Int.sub_self q.span] at hlinked
  exact contiguous_iff_linked.mpr ⟨Stretch.layout_ne_nil hq.paced hq.start_lt_stop, hlinked⟩

theorem Feasible.bounds_of_mem (hq : q.Feasible) {c : Chunk} (hc : c ∈ q.layout) :
    q.start + 1 ≤ c.last ∧ c.last ≤ q.stop ∧ c.first = max (c.last - q.span) q.start :=
  Stretch.bounds_of_mem_layout hq.paced hq.fits_stop.2 hq.start_lt_stop hc

theorem Feasible.span_pos_of_mem (hq : q.Feasible) {c : Chunk} (hc : c ∈ q.layout) :
    0 < c.span := by
  have hpos := hq.span_pos
  have hbounds := hq.bounds_of_mem hc
  unfold Chunk.span
  omega

/-- However a range is cut into chunks that share their bounds, it takes as many. -/
theorem Feasible.length_le_of_contiguous (hq : q.Feasible) {ds : List Chunk}
    (hds : Contiguous q.start q.stop ds) (hspan : ∀ c ∈ ds, c.span ≤ q.span) :
    q.layout.length ≤ ds.length := by
  -- as many spans as there are chunks must reach over the range
  have hreach := (contiguous_iff_linked.mp hds).2.reach_le hspan
  rw [Int.add_zero, Int.add_zero] at hreach
  have hceil := (Grid.ceilDiv_le_iff hq.span_pos).mpr hreach
  rw [← hq.cast_length] at hceil
  omega

/-- **A log split is contiguous, exact in its lengths and as short as can be.** -/
theorem chunks_contiguous (hstart : Millis.Fits q.start) (hstop : Millis.Fits q.stop) (cap : Nat) :
    ((∃ cs, q.chunks cap = .ok cs) ↔
      0 < q.span ∧ q.start < q.stop ∧ Grid.ceilDiv (q.stop - q.start) q.span ≤ cap) ∧
    ∀ cs, q.chunks cap = .ok cs →
      (cs.length : Int) = Grid.ceilDiv (q.stop - q.start) q.span ∧
      Contiguous q.start q.stop cs ∧ (∀ c ∈ cs, 0 < c.span) ∧
      (∀ c ∈ cs.tail, c.span = q.span) ∧ (∀ c ∈ cs.head?, c.span ≤ q.span) ∧
      ∀ ds, Contiguous q.start q.stop ds → (∀ c ∈ ds, c.span ≤ q.span) →
        cs.length ≤ ds.length := by
  constructor
  · constructor
    · rintro ⟨cs, h⟩
      obtain ⟨hq, hcap, -⟩ := (chunks_eq_ok_iff hstart hstop).mp h
      have hlength := hq.cast_length
      exact ⟨hq.span_pos, hq.start_lt_stop, by omega⟩
    · rintro ⟨hpos, hlt, hcap⟩
      have hq : q.Feasible := ⟨hpos, hlt, hstart, hstop⟩
      have hlength := hq.cast_length
      exact ⟨q.layout, (chunks_eq_ok_iff hstart hstop).mpr ⟨hq, by omega, rfl⟩⟩
  · intro cs h
    obtain ⟨hq, -, rfl⟩ := (chunks_eq_ok_iff hstart hstop).mp h
    refine ⟨hq.cast_length, hq.contiguous_layout, fun c => hq.span_pos_of_mem, ?_, ?_, ?_⟩
    · intro c hc
      exact Stretch.span_eq_of_mem_tail_layout hq.paced hstop.2 hq.start_lt_stop hc
    · intro c hc
      exact Stretch.span_le_of_mem_layout hq.paced hstop.2 hq.start_lt_stop
        (List.mem_of_mem_head? hc)
    · intro ds hds hspan
      exact hq.length_le_of_contiguous hds hspan

/-- The longest range there is, in the longest chunks: two are full, and one millisecond is left. -/
theorem chunks_contiguous_widest :
    Millis.Fits Millis.least ∧ Millis.Fits Millis.greatest ∧
    ((∃ cs, (LogSplit.mk Millis.least Millis.greatest Millis.greatest).chunks 3 = .ok cs) ↔
      0 < Millis.greatest ∧ Millis.least < Millis.greatest ∧
        Grid.ceilDiv (Millis.greatest - Millis.least) Millis.greatest ≤ (3 : Nat)) ∧
    ∀ cs, (LogSplit.mk Millis.least Millis.greatest Millis.greatest).chunks 3 = .ok cs →
      (cs.length : Int) = Grid.ceilDiv (Millis.greatest - Millis.least) Millis.greatest ∧
      Contiguous Millis.least Millis.greatest cs ∧ (∀ c ∈ cs, 0 < c.span) ∧
      (∀ c ∈ cs.tail, c.span = Millis.greatest) ∧ (∀ c ∈ cs.head?, c.span ≤ Millis.greatest) ∧
      ∀ ds, Contiguous Millis.least Millis.greatest ds → (∀ c ∈ ds, c.span ≤ Millis.greatest) →
        cs.length ≤ ds.length :=
  have hleast : Millis.Fits Millis.least := by decide
  have hgreatest : Millis.Fits Millis.greatest := by decide
  ⟨hleast, hgreatest, chunks_contiguous (q := ⟨Millis.least, Millis.greatest, Millis.greatest⟩)
    hleast hgreatest 3⟩

end LogSplit

end QueryPrep
