import QueryPrep.Proofs.Split.Linked
import QueryPrep.Split.Layout

/-!
# Where a walk lays its chunks

The walk `layBack` counts nothing: it goes on until an end is too early, or until there is no
instant to go on from. This file says where it gets to. A walk is `Paced` by a stride when each step
it takes is one stride back and each step it does not take would have been too far. The chunks of a
paced walk are then known at once: their ends are the instants `last - k * stride` that are not
before the least end. That is its `layout`, and the walk gives up exactly when the layout is longer
than it has room for (`layBack_nil_eq`).

A paced walk never leaves the range of milliseconds unless it is over anyway, so the limits do not
show in its chunks: `Paced.chunkAt_first` is the start of a chunk in exact numbers. The last section
collects what the two kinds of split need to know of a layout.
-/

namespace QueryPrep.Stretch

/-- In a stretch within the range of milliseconds the limits cut nothing off. -/
theorem chunkAt_first {s : Stretch} (hfirst : Millis.least ≤ s.first) (hspan : 0 ≤ s.span)
    {last : Int} (hlast : last ≤ Millis.greatest) :
    (s.chunkAt last).first = max (last - s.span) s.first :=
  Millis.max_clamp (by omega) hfirst

/-- A walk is paced by a stride: each step that leads to a late enough end is one stride back, and
no step leads from an end that is one stride too early for that to one that is late enough. -/
structure Paced (s : Stretch) (stride : Int) : Prop where
  least_le_first : Millis.least ≤ s.first
  first_le_least : s.first ≤ s.least
  span_nonneg : 0 ≤ s.span
  span_le_stride : s.span ≤ stride
  stride_pos : 0 < stride
  before_of_le : ∀ {last}, last ≤ Millis.greatest → s.least ≤ last - stride →
    s.before (s.chunkAt last) = some (last - stride)
  before_of_lt : ∀ {last next}, last ≤ Millis.greatest → last - stride < s.least →
    s.before (s.chunkAt last) = some next → next < s.least

/-- The `n` chunks that end at `last` and at the instants one stride apart before it. -/
def run (s : Stretch) (stride last : Int) : Nat → List Chunk
  | 0 => []
  | n + 1 => s.chunkAt (last - n * stride) :: s.run stride last n

/-- How many instants one stride apart lie between the least end and `last`. -/
def count (s : Stretch) (stride last : Int) : Nat :=
  ((last - s.least) / stride + 1).toNat

/-- The chunks of all ends that are not before the least one. -/
def layout (s : Stretch) (stride last : Int) : List Chunk :=
  s.run stride last (s.count stride last)

variable {s : Stretch} {stride last : Int}

theorem Paced.chunkAt_first (hs : s.Paced stride) (hlast : last ≤ Millis.greatest) :
    (s.chunkAt last).first = max (last - s.span) s.first :=
  Stretch.chunkAt_first hs.least_le_first hs.span_nonneg hlast

theorem Paced.mul_nonneg (hs : s.Paced stride) (k : Nat) : 0 ≤ k * stride :=
  Int.mul_nonneg (by omega) (Int.le_of_lt hs.stride_pos)

/-- The end that is one step further back lies a whole stride before it. -/
theorem Paced.mul_add_le (hs : s.Paced stride) {k n : Nat} (hk : k < n) :
    k * stride + stride ≤ n * stride := by
  have hmul : (k + 1 : Int) * stride ≤ n * stride :=
    Int.mul_le_mul_of_nonneg_right (by omega) (Int.le_of_lt hs.stride_pos)
  rwa [Int.add_mul, Int.one_mul] at hmul

/-! ### Counting the ends -/

theorem Paced.quotient_nonneg (hs : s.Paced stride) (h : s.least ≤ last) :
    0 ≤ (last - s.least) / stride :=
  Int.ediv_nonneg (by omega) (Int.le_of_lt hs.stride_pos)

theorem count_of_lt (hs : s.Paced stride) (h : last < s.least) : s.count stride last = 0 := by
  have hneg : (last - s.least) / stride < 0 := Int.ediv_neg_of_neg_of_pos (by omega) hs.stride_pos
  unfold count
  omega

theorem cast_count (hs : s.Paced stride) (h : s.least ≤ last) :
    (s.count stride last : Int) = (last - s.least) / stride + 1 := by
  have hnonneg := hs.quotient_nonneg h
  unfold count
  omega

/-- One step back, one end fewer. -/
theorem count_eq_succ (hs : s.Paced stride) (h : s.least ≤ last) :
    s.count stride last = s.count stride (last - stride) + 1 := by
  have hpos := hs.stride_pos
  have hnonneg := hs.quotient_nonneg h
  have hquot : (last - stride - s.least) / stride = (last - s.least) / stride - 1 := by
    rw [show last - stride - s.least = (last - s.least) + (-1) * stride by omega,
      Int.add_mul_ediv_right _ _ (by omega)]
    omega
  unfold count
  omega

/-- The count stops at the last instant that is not before the least end. -/
theorem exists_count_eq (hs : s.Paced stride) (h : s.least ≤ last) :
    ∃ n : Nat, s.count stride last = n + 1 ∧ s.least ≤ last - n * stride ∧
      last - n * stride - stride < s.least := by
  have hpos := hs.stride_pos
  obtain ⟨n, hn⟩ := Int.eq_ofNat_of_zero_le (hs.quotient_nonneg h)
  have hcast := cast_count hs h
  have hlo := Int.ediv_mul_le (last - s.least) (show stride ≠ 0 by omega)
  have hhi := Int.lt_ediv_add_one_mul_self (last - s.least) hpos
  -- `n` strides fit between the least end and `last`, and one more does not
  rw [hn] at hcast hlo hhi
  rw [Int.add_mul, Int.one_mul] at hhi
  exact ⟨n, by omega, by omega, by omega⟩

/-- How many ends there are is told by the earliest of them. -/
theorem count_eq_of_bounds (hpos : 0 < stride) {n : Nat} (hle : s.least ≤ last - n * stride)
    (hlt : last - n * stride - stride < s.least) : s.count stride last = n + 1 := by
  have hquot : (last - s.least) / stride = n := by
    refine Int.le_antisymm (Int.le_of_lt_add_one ?_) ?_
    · rw [Int.ediv_lt_iff_lt_mul hpos, Int.add_mul, Int.one_mul]
      omega
    · rw [Int.le_ediv_iff_mul_le hpos]
      omega
  unfold count
  omega

/-! ### The chunks of a run -/

@[simp] theorem length_run (n : Nat) : (s.run stride last n).length = n := by
  induction n with
  | zero => rfl
  | succ n ih => rw [run, List.length_cons, ih]

theorem mem_run {n : Nat} {c : Chunk} :
    c ∈ s.run stride last n ↔ ∃ k < n, c = s.chunkAt (last - k * stride) := by
  induction n with
  | zero => simp [run]
  | succ n ih =>
      rw [run, List.mem_cons, ih]
      constructor
      · rintro (rfl | ⟨k, hk, rfl⟩)
        · exact ⟨n, by omega, rfl⟩
        · exact ⟨k, by omega, rfl⟩
      · rintro ⟨k, hk, rfl⟩
        rcases Nat.lt_succ_iff_lt_or_eq.mp hk with h | rfl
        · exact Or.inr ⟨k, h, rfl⟩
        · exact Or.inl rfl

/-- A run is cut in two at any of its chunks. -/
theorem run_add (m n : Nat) :
    s.run stride last (m + n) = s.run stride (last - n * stride) m ++ s.run stride last n := by
  induction m with
  | zero => rw [Nat.zero_add, run, List.nil_append]
  | succ m ih =>
      have hend : last - (m + n : Nat) * stride = last - n * stride - m * stride := by
        rw [Int.natCast_add, Int.add_mul]
        omega
      rw [Nat.succ_add, run, ih, hend, run, List.cons_append]

/-- A run can be laid from its latest chunk, as the walk does it. -/
theorem run_append (n : Nat) :
    s.run stride (last - stride) n ++ [s.chunkAt last] = s.run stride last (n + 1) := by
  rw [run_add n 1]
  simp [run]

theorem pairwise_run (hs : s.Paced stride) (n : Nat) :
    (s.run stride last n).Pairwise fun c d => stride ≤ d.last - c.last := by
  induction n with
  | zero => exact List.Pairwise.nil
  | succ n ih =>
      refine List.Pairwise.cons ?_ ih
      intro d hd
      obtain ⟨k, hk, rfl⟩ := mem_run.mp hd
      have hmul := hs.mul_add_le hk
      show stride ≤ (last - k * stride) - (last - n * stride)
      omega

/-- Full chunks, laid one stride apart, are linked by what the stride is longer than the span. -/
theorem linked_run (hs : s.Paced stride) (hlast : last ≤ Millis.greatest) {n : Nat}
    (h : s.first ≤ last - n * stride) :
    Linked (stride - s.span) (last - n * stride + (stride - s.span)) (s.run stride last n)
      last := by
  induction n with
  | zero => simp [run, Linked]
  | succ n ih =>
      have hpos := hs.stride_pos
      have hle := hs.span_le_stride
      have hnonneg := hs.mul_nonneg n
      rw [Int.natCast_succ, Int.add_mul, Int.one_mul] at h ⊢
      refine ⟨?_, ih (by omega)⟩
      -- there is room for a whole span, so nothing is cut off
      rw [hs.chunkAt_first (by omega), Int.max_eq_left (by omega)]
      omega

/-! ### The walk in one formula -/

/-- **The walk lays the chunks of all late enough ends, or gives up for want of room.** -/
theorem layBack_eq (hs : s.Paced stride) (room : Nat) (hlast : last ≤ Millis.greatest)
    (later : List Chunk) :
    s.layBack room last later =
      if s.count stride last ≤ room then some (s.layout stride last ++ later) else none := by
  unfold layout
  -- on the room, as the walk recurses; where it stands and what it has laid change on the way
  induction room generalizing last later with
  | zero =>
      rcases Int.lt_or_le last s.least with h | h
      · rw [layBack_of_lt s h, count_of_lt hs h, if_pos (Nat.le_refl 0)]
        rfl
      · have hcount := count_eq_succ hs h
        rw [layBack_zero s h, if_neg (by omega)]
  | succ room ih =>
      rcases Int.lt_or_le last s.least with h | h
      · rw [layBack_of_lt s h, count_of_lt hs h, if_pos (Nat.zero_le _)]
        rfl
      have hpos := hs.stride_pos
      have hcount := count_eq_succ hs h
      rcases Int.lt_or_le (last - stride) s.least with hnext | hnext
      · -- the chunk at `last` is the earliest one, whichever way the walk notices
        rw [count_of_lt hs hnext] at hcount
        have hrun : s.run stride last 1 = [s.chunkAt last] := by simp [run]
        rw [hcount, if_pos (by omega), hrun, List.singleton_append]
        rcases hb : s.before (s.chunkAt last) with - | next
        · exact layBack_succ_of_none s h hb room later
        · rw [layBack_succ_of_some s h hb, layBack_of_lt s (hs.before_of_lt hlast hnext hb)]
      · rw [layBack_succ_of_some s h (hs.before_of_le hlast hnext), ih (by omega), hcount]
        simp only [Nat.add_le_add_iff_right, ← run_append, List.append_assoc, List.singleton_append]

theorem layBack_nil_eq (hs : s.Paced stride) (room : Nat) (hlast : last ≤ Millis.greatest) :
    s.layBack room last [] =
      if (s.layout stride last).length ≤ room then some (s.layout stride last) else none := by
  rw [layBack_eq hs room hlast, List.append_nil, layout, length_run]

/-! ### What is in a layout -/

theorem cast_length_layout (hs : s.Paced stride) (h : s.least ≤ last) :
    ((s.layout stride last).length : Int) = (last - s.least) / stride + 1 := by
  rw [layout, length_run, cast_count hs h]

/-- The earliest chunk of a layout, and the full ones after it. -/
theorem exists_layout_eq (hs : s.Paced stride) (h : s.least ≤ last) :
    ∃ n : Nat, s.layout stride last = s.chunkAt (last - n * stride) :: s.run stride last n ∧
      s.least ≤ last - n * stride ∧ last - n * stride - stride < s.least := by
  obtain ⟨n, hcount, hle, hlt⟩ := exists_count_eq hs h
  refine ⟨n, ?_, hle, hlt⟩
  rw [layout, hcount, run]

theorem layout_ne_nil (hs : s.Paced stride) (h : s.least ≤ last) : s.layout stride last ≠ [] := by
  obtain ⟨n, hlayout, -, -⟩ := exists_layout_eq hs h
  rw [hlayout]
  exact List.cons_ne_nil _ _

/-- **A layout is linked from the start of the stretch to its end**, if the only end that has none
before it is no further than a span from the start. -/
theorem linked_layout (hs : s.Paced stride) (hlast : last ≤ Millis.greatest) (h : s.least ≤ last)
    (hreach : ∀ k : Nat, last - k * stride - stride < s.least →
      last - k * stride - s.span ≤ s.first) :
    Linked (stride - s.span) s.first (s.layout stride last) last := by
  obtain ⟨n, hlayout, hle, hlt⟩ := exists_layout_eq hs h
  have hnonneg := hs.mul_nonneg n
  rw [hlayout]
  refine ⟨?_, linked_run hs hlast (Int.le_trans hs.first_le_least hle)⟩
  rw [hs.chunkAt_first (by omega), Int.max_eq_right (hreach n hlt)]

/-- A chunk of a layout ends between the least end and `last`, and starts one span before that or
at the start of the stretch. -/
theorem bounds_of_mem_layout (hs : s.Paced stride) (hlast : last ≤ Millis.greatest)
    (h : s.least ≤ last) {c : Chunk} (hc : c ∈ s.layout stride last) :
    s.least ≤ c.last ∧ c.last ≤ last ∧ c.first = max (c.last - s.span) s.first := by
  obtain ⟨n, hcount, hle, -⟩ := exists_count_eq hs h
  obtain ⟨k, hk, rfl⟩ := mem_run.mp hc
  have hpos := hs.stride_pos
  have hnonneg := hs.mul_nonneg k
  have hmul : k * stride ≤ n * stride := Int.mul_le_mul_of_nonneg_right (by omega) (by omega)
  refine ⟨?_, ?_, hs.chunkAt_first (by omega)⟩
  · show s.least ≤ last - k * stride
    omega
  · show last - k * stride ≤ last
    omega

theorem span_le_of_mem_layout (hs : s.Paced stride) (hlast : last ≤ Millis.greatest)
    (h : s.least ≤ last) {c : Chunk} (hc : c ∈ s.layout stride last) : c.span ≤ s.span := by
  obtain ⟨-, -, hfirst⟩ := bounds_of_mem_layout hs hlast h hc
  unfold Chunk.span
  omega

/-- The chunks after the earliest one are full. -/
theorem span_eq_of_mem_tail_layout (hs : s.Paced stride) (hlast : last ≤ Millis.greatest)
    (h : s.least ≤ last) {c : Chunk} (hc : c ∈ (s.layout stride last).tail) :
    c.span = s.span := by
  obtain ⟨-, -, hfirst⟩ := bounds_of_mem_layout hs hlast h (List.mem_of_mem_tail hc)
  obtain ⟨n, hlayout, hle, -⟩ := exists_layout_eq hs h
  -- a chunk of the tail ends a stride or more after the earliest end
  rw [hlayout, List.tail_cons] at hc
  obtain ⟨k, hk, rfl⟩ := mem_run.mp hc
  have hmul := hs.mul_add_le hk
  have hstride := hs.span_le_stride
  have hleast := hs.first_le_least
  change _ = max (last - k * stride - s.span) s.first at hfirst
  show (last - k * stride) - _ = s.span
  omega

end QueryPrep.Stretch
