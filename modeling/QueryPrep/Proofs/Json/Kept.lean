import QueryPrep.Proofs.Json.Record

/-!
# Records from values that were kept

A value that was kept is read as a document of its own, in which every key is there once, with what
its last member held. So a value holds for a field of a record what stands in the last member with
its name, or in its place if it is an array (`Value.IsHeldAs`), and of this the field has been made
in a record that was read (`Shape.exists_of_read_held`).
-/

namespace QueryPrep.Json

namespace Value

/-! ### Values as documents -/

theorem toNodes_eq_map (vs : List Value) : toNodes vs = vs.map toNode := by
  induction vs with
  | nil => rfl
  | cons v vs ih => exact congrArg (v.toNode :: ·) ih

theorem toMembers_eq_map (ms : List (String × Value)) :
    toMembers ms = ms.map fun m => (some m.1, m.2.toNode) := by
  induction ms with
  | nil => rfl
  | cons m ms ih => exact congrArg ((some m.1, m.2.toNode) :: ·) ih

section

variable {κ α : Type} [DecidableEq κ] {ms before behind : List (κ × α)} {k : κ} {a : α}

theorem lastMembers_cons_of_not_mem (h : k ∉ ms.map Prod.fst) :
    lastMembers ((k, a) :: ms) = (k, a) :: lastMembers ms := by
  have hany : ¬ ms.any (·.1 = k) = true := by
    intro hany
    obtain ⟨m, hm, hk⟩ := List.any_eq_true.mp hany
    exact h (List.mem_map.mpr ⟨m, hm, of_decide_eq_true hk⟩)
  rw [lastMembers, if_neg hany]

/-- Without two members of one key all are kept. -/
theorem lastMembers_of_nodup (h : (ms.map Prod.fst).Nodup) : lastMembers ms = ms := by
  induction ms with
  | nil => rfl
  | cons m ms ih =>
      rw [List.map_cons, List.nodup_cons] at h
      rw [lastMembers_cons_of_not_mem h.1, ih h.2]

theorem mem_lastMembers (h : k ∉ behind.map Prod.fst) :
    (k, a) ∈ lastMembers (before ++ (k, a) :: behind) := by
  induction before with
  | nil =>
      rw [List.nil_append, lastMembers_cons_of_not_mem h]
      exact List.mem_cons_self
  | cons m before ih =>
      rw [List.cons_append, lastMembers]
      split_ifs
      · exact ih
      · exact List.mem_cons_of_mem _ ih

end

/-- What a value holds for the field of a name and an index: what is in the last member with this
name, or in the place with this index. -/
inductive IsHeldAs (name : String) (i : Nat) (w : Value) : Value → Prop where
  | member {before behind : List (String × Value)} (h : name ∉ behind.map Prod.fst) :
      IsHeldAs name i w (.object (before ++ (name, w) :: behind))
  | item {items : List Value} (h : items[i]? = some w) : IsHeldAs name i w (.array items)

end Value

namespace Shape

variable {σ α : Type} {P : σ → Prop} {shape : Shape σ α} {f : RecordField σ} {i : Nat}
  {v w : Value} {a : α}

/-- The member with the name of a field is read by this field. -/
theorem readMember_eq_ite {fields : List (RecordField σ)} (hnames : (fields.map (·.name)).Nodup)
    (hf : f ∈ fields) (n : Node) (d : σ) : readMember fields (some f.name) n d =
      if f.isFilled d then .error .mismatch else f.read n d := by
  rcases hfind : fields.find? (·.name = f.name) with - | g
  · have hother := List.find?_eq_none.mp hfind f hf
    simp at hother
  · have hg : g ∈ fields := List.mem_of_find?_eq_some hfind
    have hname : g.name = f.name := by simpa using List.find?_some hfind
    obtain rfl := List.inj_on_of_nodup_map hnames hg hf hname
    simp only [readMember, hfind]

theorem name_ne_of_mem_drop {fields : List (RecordField σ)} (hnames : (fields.map (·.name)).Nodup)
    (hf : fields[i]? = some f) {g : RecordField σ} (hg : g ∈ fields.drop (i + 1)) :
    g.name ≠ f.name := by
  obtain ⟨hi, rfl⟩ := List.getElem?_eq_some_iff.mp hf
  have hdrop := ((List.drop_sublist i fields).map (·.name)).nodup hnames
  rw [List.drop_eq_getElem_cons hi, List.map_cons, List.nodup_cons] at hdrop
  intro hname
  exact hdrop.1 (hname ▸ List.mem_map_of_mem hg)

/-- **What a field makes of what is held for it is found in the record**, if no other field undoes
it. A field that is filled is not read again. -/
theorem exists_of_read_held (hnames : (shape.fields.map (·.name)).Nodup)
    (hf : shape.fields[i]? = some f) (hfilled : ∀ d, P d → f.isFilled d = true)
    (hkeep : ∀ g ∈ shape.fields, g.name ≠ f.name → ∀ n d d', g.read n d = .ok d' → P d → P d')
    (hset : ∀ d d', f.read w.toNode d = .ok d' → P d') (hw : w.IsHeldAs f.name i v)
    (h : shape.read v.toNode = .ok a) : ∃ d, P d ∧ shape.finish d = some a := by
  have hmem : f ∈ shape.fields := List.mem_of_getElem? hf
  cases hw with
  | @member before behind hlast =>
      change shape.read (.object (Value.lastMembers (Value.toMembers _)) true) = _ at h
      rw [Value.toMembers_eq_map] at h
      obtain ⟨-, d, hread, hfinish⟩ := read_object_eq_ok_iff.mp h
      have hheld : (some f.name, w.toNode) ∈ Value.lastMembers
          ((before ++ (f.name, w) :: behind).map fun m => (some m.1, m.2.toNode)) := by
        rw [List.map_append, List.map_cons]
        refine Value.mem_lastMembers fun hname => hlast ?_
        simpa using hname
      refine ⟨d, of_readMembers_mem ?_ ?_ hheld hread, hfinish⟩
      · intro g hg n d d' hfree hread hd
        by_cases hname : g.name = f.name
        · -- the field itself: it is filled by now, so a second member would have been refused
          obtain rfl := List.inj_on_of_nodup_map hnames hg hmem hname
          rw [hfilled d hd] at hfree
          cases hfree
        · exact hkeep g hg hname n d d' hread hd
      · intro d d' hread
        rw [readMember_eq_ite hnames hmem] at hread
        split_ifs at hread
        exact hset d d' hread
  | item hi =>
      change shape.read (.array (Value.toNodes _) true) = _ at h
      rw [Value.toNodes_eq_map] at h
      obtain ⟨-, d, hread, hfinish⟩ := read_array_eq_ok_iff.mp h
      have hheld := congrArg (Option.map Value.toNode) hi
      rw [← List.getElem?_map] at hheld
      refine ⟨d, of_readItems_getElem? hf hheld ?_ hset hread, hfinish⟩
      intro g hg n d d' hread hd
      have hname := name_ne_of_mem_drop hnames hf hg
      exact hkeep g (List.mem_of_mem_drop hg) hname n d d' hread hd

end Shape

end QueryPrep.Json
