import QueryPrep.Proofs.Split.Walk

/-!
# Walks over a part of a stretch

Two walks that go by the same span and stride and end at the same instant stop at the same ends, for
as long as both go on: where a stretch begins shows in nothing but how far its walk gets and where
its earliest chunk is cut off. `s.since lo` is the stretch `s` begun at `lo` instead, and this file
compares the layouts of the two.

Main results: the layout of `s` is that of `s.since lo` with more in front of it and an earliest
chunk that may reach further back (`layout_extendsBack`); and between the start of one chunk of a
layout and the end of another one nothing is laid but the chunks that the layout has there
(`layout_extract`).
-/

namespace QueryPrep

/-- The chunks `ds` go further back than `cs`: they end with all chunks of `cs` but the first one,
and the chunk before those ends where that first one does and starts no later. -/
structure ExtendsBack (ds cs : List Chunk) : Prop where
  length_le : cs.length ≤ ds.length
  exists_before : ∃ earlier d c, ds = earlier ++ d :: cs.tail ∧ cs.head? = some c ∧
    d.last = c.last ∧ d.first ≤ c.first

theorem extendsBack_append_cons {c d : Chunk} (hlast : d.last = c.last) (hfirst : d.first ≤ c.first)
    (earlier later : List Chunk) : ExtendsBack (earlier ++ d :: later) (c :: later) where
  length_le := by
    rw [List.length_append, List.length_cons, List.length_cons]
    omega
  exists_before := ⟨earlier, d, c, rfl, rfl, hlast, hfirst⟩

namespace Stretch

/-- The same stretch, begun at another instant. -/
def since (s : Stretch) (lo : Int) : Stretch :=
  { s with first := lo, least := lo + (s.least - s.first) }

variable {s t : Stretch} {stride last lo : Int}

/-! ### Pieces of a layout -/

/-- A chunk of a layout, found by how many come after it. -/
theorem getElem_layout {k r : Nat} (hk : k < (s.layout stride last).length)
    (hr : s.count stride last = k + (r + 1)) :
    (s.layout stride last)[k] = s.chunkAt (last - r * stride) := by
  have hget : (s.layout stride last)[k]? = some (s.chunkAt (last - r * stride)) := by
    rw [layout, hr, run_add, List.getElem?_append_right (by simp), length_run, Nat.sub_self, run,
      List.getElem?_cons_zero]
  exact Option.some.inj ((List.getElem?_eq_getElem hk).symm.trans hget)

/-- A part of a layout, found by how many chunks come before and after it. -/
theorem extract_layout {i n r : Nat} (hr : s.count stride last = i + (n + r)) :
    (s.layout stride last).extract i (i + n) = s.run stride (last - r * stride) n := by
  rw [layout, hr, run_add, run_add, List.extract_eq_take_drop, Nat.add_sub_cancel_left,
    List.drop_left' (length_run i), List.take_left' (length_run n)]

theorem getElem_last_lt (hs : s.Paced stride) {i j : Nat} (hij : i < j)
    (hj : j < (s.layout stride last).length) :
    (s.layout stride last)[i].last < (s.layout stride last)[j].last := by
  have hpairwise : (s.layout stride last).Pairwise fun c d => stride ≤ d.last - c.last :=
    pairwise_run hs _
  have hapart := List.pairwise_iff_getElem.mp hpairwise i j (Nat.lt_trans hij hj) hj hij
  have hpos := hs.stride_pos
  omega

theorem getElem_last_le (hs : s.Paced stride) {i j : Nat} (hij : i ≤ j)
    (hj : j < (s.layout stride last).length) :
    (s.layout stride last)[i].last ≤ (s.layout stride last)[j].last := by
  rcases Nat.eq_or_lt_of_le hij with rfl | hlt
  · exact Int.le_refl _
  · exact Int.le_of_lt (getElem_last_lt hs hlt hj)

/-- Two walks that lay the same chunk at each of their ends run alike. -/
theorem run_congr {n : Nat}
    (h : ∀ k < n, s.chunkAt (last - k * stride) = t.chunkAt (last - k * stride)) :
    s.run stride last n = t.run stride last n := by
  induction n with
  | zero => rfl
  | succ n ih =>
      rw [run, run, h n (Nat.lt_succ_self n), ih fun k hk => h k (Nat.lt_succ_of_lt hk)]

/-! ### Another beginning -/

theorem chunkAt_since_first (hs : s.Paced stride) (hlo : s.first ≤ lo)
    (hlast : last ≤ Millis.greatest) :
    ((s.since lo).chunkAt last).first = max (last - s.span) lo :=
  Stretch.chunkAt_first (s := s.since lo) (Int.le_trans hs.least_le_first hlo) hs.span_nonneg hlast

/-- A chunk that does not start before the later beginning is laid there as well. -/
theorem chunkAt_since (hs : s.Paced stride) (hlo : s.first ≤ lo) (hlast : last ≤ Millis.greatest)
    (h : lo ≤ max (last - s.span) s.first) : (s.since lo).chunkAt last = s.chunkAt last := by
  have heq : ((s.since lo).chunkAt last).first = (s.chunkAt last).first := by
    rw [chunkAt_since_first hs hlo hlast, hs.chunkAt_first hlast]
    omega
  exact congrArg (fun first => Chunk.mk first last) heq

/-- **A layout is anchored at its end**: a beginning further back changes no chunk but the earliest
one and those before it. -/
theorem layout_extendsBack (hs : s.Paced stride) (ht : (s.since lo).Paced stride)
    (hlo : s.first ≤ lo) (hlast : last ≤ Millis.greatest) (h : (s.since lo).least ≤ last) :
    ExtendsBack (s.layout stride last) ((s.since lo).layout stride last) := by
  have hleast : (s.since lo).least = lo + (s.least - s.first) := rfl
  have hshort := hs.first_le_least
  have hstride := hs.span_le_stride
  obtain ⟨n, hlayout, hle, -⟩ := exists_layout_eq ht h
  obtain ⟨m, hcount, -, hm⟩ := exists_count_eq hs (show s.least ≤ last by omega)
  -- the walk from the earlier beginning gets as far back as the other one
  have hnm : n ≤ m := by
    by_contra hgt
    have hmul := hs.mul_add_le (Nat.lt_of_not_le hgt)
    omega
  obtain ⟨d, rfl⟩ := Nat.exists_eq_add_of_le' hnm
  -- after the earliest chunk of the other one both lay full chunks
  have hlater : (s.since lo).run stride last n = s.run stride last n := by
    refine run_congr fun k hk => ?_
    have hmul := hs.mul_add_le hk
    have hnonneg := hs.mul_nonneg k
    exact chunkAt_since hs hlo (by omega) (by omega)
  have hnonneg := hs.mul_nonneg n
  have hend : last - n * stride ≤ Millis.greatest := by omega
  have hfirst : (s.chunkAt (last - n * stride)).first ≤
      ((s.since lo).chunkAt (last - n * stride)).first := by
    rw [hs.chunkAt_first hend, chunkAt_since_first hs hlo hend]
    omega
  have hlast_eq : (s.chunkAt (last - n * stride)).last =
      ((s.since lo).chunkAt (last - n * stride)).last := rfl
  rw [hlayout, hlater, layout, hcount, Nat.add_assoc, run_add, run]
  exact extendsBack_append_cons hlast_eq hfirst _ _

/-- **Between the start of one chunk of a layout and the end of another one there is nothing but
that part of the layout**, if a full chunk is no shorter than the least one and the earliest chunk
never leaves room for one more. -/
theorem layout_extract (hs : s.Paced stride) (hlast : last ≤ Millis.greatest) (h : s.least ≤ last)
    (hshort : s.least - s.first ≤ s.span) (hgap : s.first + s.span < s.least + stride) {i j : Nat}
    (hij : i ≤ j) (hj : j < (s.layout stride last).length) :
    (s.since (s.layout stride last)[i].first).layout stride (s.layout stride last)[j].last =
      (s.layout stride last).extract i (j + 1) := by
  -- `k` chunks after the first of the two comes the second, and `r` more come after that
  obtain ⟨k, rfl⟩ := Nat.exists_eq_add_of_le hij
  have hlength : (s.layout stride last).length = s.count stride last := length_run _
  obtain ⟨r, hr⟩ : ∃ r, s.count stride last = i + (k + 1 + r) :=
    ⟨s.count stride last - (i + (k + 1)), by omega⟩
  have hi : i < (s.layout stride last).length := Nat.lt_of_le_of_lt hij hj
  have hat_i : (s.layout stride last)[i] = s.chunkAt (last - (k + r : Nat) * stride) :=
    getElem_layout hi (by omega)
  have hat_j : (s.layout stride last)[i + k] = s.chunkAt (last - r * stride) :=
    getElem_layout hj (by omega)
  have hbounds := bounds_of_mem_layout hs hlast h (List.getElem_mem hi)
  rw [Nat.add_assoc, extract_layout hr, hat_j]
  rw [hat_i] at hbounds ⊢
  -- the part goes from the start `lo` of a chunk to an end that is `k` strides after the chunk's
  generalize hlo : (s.chunkAt (last - (k + r : Nat) * stride)).first = lo at hbounds ⊢
  have hend : last - r * stride - k * stride = last - (k + r : Nat) * stride := by
    rw [Int.natCast_add, Int.add_mul]
    omega
  obtain ⟨hle, hge, hfirst⟩ : s.least ≤ last - r * stride - k * stride ∧
      last - r * stride - k * stride ≤ last ∧
      lo = max (last - r * stride - k * stride - s.span) s.first := by
    rw [hend]
    exact hbounds
  have hleast : (s.since lo).least = lo + (s.least - s.first) := rfl
  have hcount : (s.since lo).count stride (last - r * stride) = k + 1 :=
    count_eq_of_bounds hs.stride_pos (by omega) (by omega)
  show (s.since lo).run stride (last - r * stride) ((s.since lo).count stride (last - r * stride)) =
    s.run stride (last - r * stride) (k + 1)
  rw [hcount]
  refine run_congr fun m hm => ?_
  have hmul : (m : Int) * stride ≤ k * stride :=
    Int.mul_le_mul_of_nonneg_right (by omega) (Int.le_of_lt hs.stride_pos)
  have hm := hs.mul_nonneg m
  have hr := hs.mul_nonneg r
  exact chunkAt_since hs (by omega) (by omega) (by omega)

end Stretch

end QueryPrep
