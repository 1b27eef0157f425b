import Mathlib.Data.List.Basic
import Mathlib.Data.List.Perm.Subperm
import QueryPrep.Split.Layout

/-!
# Chunks that follow each other

A split is right when its chunks follow each other without a hole and without an overlap. This file
says so for any list of chunks, whoever laid it: `Linked gap lo cs hi` holds when the chunks `cs`
lead from `lo` to `hi` and each of them starts `gap` after the end of the one before it. On the grid
of a step the gap is one step; where chunks share their bounds it is nothing.

Main results: linked chunks hold every multiple of the gap once (`Linked.countP_holds`); a chain
gets no further than its length and its longest chunk allow (`Linked.reach_le`); and chunks that are
too short to hold two of some points are at least as many as the points (`length_le_of_apart`). The
last two bound from below how many chunks any other way to split a range needs.
-/

namespace QueryPrep

/-- An instant lies in a chunk, both bounds included. -/
def Chunk.Holds (c : Chunk) (t : Int) : Prop :=
  c.first ≤ t ∧ t ≤ c.last

instance (c : Chunk) (t : Int) : Decidable (c.Holds t) :=
  inferInstanceAs (Decidable (_ ∧ _))

/-- `Linked gap lo cs hi`: the first of the chunks starts at `lo`, each later one starts `gap` after
the end of the one before it, and the last one ends at `hi`. -/
def Linked (gap : Int) : Int → List Chunk → Int → Prop
  | lo, [], hi => lo = hi + gap
  | lo, c :: cs, hi => c.first = lo ∧ Linked gap (c.last + gap) cs hi

variable {gap lo hi : Int} {cs : List Chunk}

/-! ### Linked, in the words of lists -/

theorem linked_singleton {c : Chunk} :
    Linked gap lo [c] hi ↔ c.first = lo ∧ c.last = hi := by
  simp only [Linked]
  omega

/-- The first start, the last end and the neighbours say all there is to say. -/
theorem linked_iff (hne : cs ≠ []) :
    Linked gap lo cs hi ↔ cs.head?.map Chunk.first = some lo ∧
      cs.getLast?.map Chunk.last = some hi ∧ cs.IsChain fun c d => d.first = c.last + gap := by
  induction cs generalizing lo with
  | nil => exact absurd rfl hne
  | cons c cs ih =>
      rcases cs with - | ⟨d, cs⟩
      · rw [linked_singleton]
        simp
      · rw [Linked, ih (List.cons_ne_nil d cs), List.isChain_cons_cons, List.getLast?_cons_cons]
        simp only [List.head?_cons, Option.map_some, Option.some.injEq]
        tauto

/-! ### What linked chunks hold -/

theorem Linked.le (h : Linked gap lo cs hi) (hgap : 0 ≤ gap)
    (hord : ∀ c ∈ cs, c.first ≤ c.last) : lo ≤ hi + gap := by
  induction cs generalizing lo with
  | nil => exact Int.le_of_eq h
  | cons c cs ih =>
      obtain ⟨hfirst, hrest⟩ := h
      have hc := hord c List.mem_cons_self
      have hle := ih hrest fun d hd => hord d (List.mem_cons_of_mem c hd)
      omega

/-- A multiple of the gap that is after an end is at the next start or after it. -/
theorem add_le_of_dvd_of_lt {a t : Int} (ha : gap ∣ a) (ht : gap ∣ t) (hlt : a < t) :
    a + gap ≤ t := by
  have h := Int.le_of_dvd (by omega) (Int.dvd_sub ht ha)
  omega

/-- **Linked chunks hold each multiple of the gap once**: one that lies between the two ends lies in
exactly one chunk, and no other lies in any. -/
theorem Linked.countP_holds (h : Linked gap lo cs hi) (hgap : 0 < gap)
    (hord : ∀ c ∈ cs, c.first ≤ c.last) (hdvd : ∀ c ∈ cs, gap ∣ c.last) {t : Int} (ht : gap ∣ t) :
    (cs.countP fun c => decide (c.Holds t)) = if lo ≤ t ∧ t ≤ hi then 1 else 0 := by
  induction cs generalizing lo with
  | nil =>
      have hlo : lo = hi + gap := h
      rw [List.countP_nil, if_neg (by omega)]
  | cons c cs ih =>
      obtain ⟨hfirst, hrest⟩ := h
      have hc := hord c List.mem_cons_self
      have hord' : ∀ d ∈ cs, d.first ≤ d.last := fun d hd => hord d (List.mem_cons_of_mem c hd)
      have hle := hrest.le (Int.le_of_lt hgap) hord'
      rw [List.countP_cons, ih hrest hord' fun d hd => hdvd d (List.mem_cons_of_mem c hd)]
      simp only [decide_eq_true_eq, Chunk.Holds, hfirst]
      by_cases hlast : t ≤ c.last
      · rw [if_neg (by omega)]
        split_ifs <;> omega
      · -- the gap has no multiple between this chunk and the next
        have hnext := add_le_of_dvd_of_lt (hdvd c List.mem_cons_self) ht (by omega)
        split_ifs <;> omega

/-! ### How many chunks it takes -/

/-- A chain of chunks gets no further than its length allows. -/
theorem Linked.reach_le (h : Linked gap lo cs hi) {reach : Int}
    (hspan : ∀ c ∈ cs, c.span ≤ reach) : hi + gap - lo ≤ cs.length * (reach + gap) := by
  induction cs generalizing lo with
  | nil =>
      have hlo : lo = hi + gap := h
      simp [hlo]
  | cons c cs ih =>
      obtain ⟨hfirst, hrest⟩ := h
      have hc : c.last - c.first ≤ reach := hspan c List.mem_cons_self
      have hle := ih hrest fun d hd => hspan d (List.mem_cons_of_mem c hd)
      have hlen : (((c :: cs).length : Int)) * (reach + gap)
          = cs.length * (reach + gap) + (reach + gap) := by
        rw [List.length_cons, Int.natCast_succ, Int.add_mul, Int.one_mul]
      omega

/-- **Points that are far apart need a chunk each**: no chunk that reaches at most `reach` holds two
points that are further apart than that. -/
theorem length_le_of_apart {reach : Int} {points : List Int} {family : List Chunk}
    (hapart : points.Pairwise fun s t => reach < t - s) (hspan : ∀ c ∈ family, c.span ≤ reach)
    (hheld : ∀ t ∈ points, ∃ c ∈ family, c.Holds t) : points.length ≤ family.length := by
  -- no two points share the chunk that is chosen for them
  have hchoice : ∀ t : Int, ∃ c : Chunk, t ∈ points → c ∈ family ∧ c.Holds t := by
    intro t
    by_cases ht : t ∈ points
    · obtain ⟨c, hc, hct⟩ := hheld t ht
      exact ⟨c, fun _ => ⟨hc, hct⟩⟩
    · exact ⟨⟨0, 0⟩, fun h => absurd h ht⟩
  choose holder hholder using hchoice
  have hnodup : (points.map holder).Nodup := by
    refine List.pairwise_map.mpr (hapart.imp_of_mem ?_)
    intro s t hs ht hst heq
    obtain ⟨hmem, hs1, hs2⟩ := hholder s hs
    obtain ⟨-, ht1, ht2⟩ := hholder t ht
    have hreach : (holder s).last - (holder s).first ≤ reach := hspan _ hmem
    rw [← heq] at ht2
    omega
  have hsubset : points.map holder ⊆ family := by
    intro c hc
    obtain ⟨t, ht, rfl⟩ := List.mem_map.mp hc
    exact (hholder t ht).1
  simpa using (List.subperm_of_subset hnodup hsubset).length_le

end QueryPrep
