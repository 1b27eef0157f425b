import QueryPrep.Proofs.Json.Kept

/-!
# What is held for the fields of a record

A value that was kept holds at most one value for each field of a record: what stands in the last
member with the name of the field, or in its place in an array (`Value.held?`). Fields are apart if
it makes no difference which of two is read first (`Shape.Apart`). A record of such fields may be
read in the order of its fields, each from what is held for it (`Shape.fill?`), in whatever order
the members stand and whatever other members there are. If each field writes to a place of its own,
a draft is filled exactly if each place holds what its field has made
(`Shape.Place.fill?_heldFor_eq_some_iff`).

Main result: a value is read as a record exactly if it is an object, or an array with no more items
than there are fields, and every field can be read from what is held for it
(`Shape.read_toNode_eq_ok_iff`).
-/

namespace QueryPrep.Json

namespace Value

/-! ### Members that count -/

section

variable {κ α : Type} [DecidableEq κ] {ms : List (κ × α)} {k : κ}

theorem any_key_iff : ms.any (·.1 = k) = true ↔ k ∈ ms.map Prod.fst := by
  simp [List.any_eq_true, List.mem_map]

theorem lookup_eq_none_of_not_mem (h : k ∉ ms.map Prod.fst) : ms.lookup k = none := by
  rw [List.lookup_eq_none_iff]
  intro m hm
  exact bne_iff_ne.mpr fun hk => h (hk ▸ List.mem_map_of_mem hm)

theorem fst_mem_of_mem_lastMembers (h : k ∈ (lastMembers ms).map Prod.fst) :
    k ∈ ms.map Prod.fst := by
  induction ms with
  | nil => exact h
  | cons m ms ih =>
      rw [lastMembers] at h
      split_ifs at h
      · exact List.mem_cons_of_mem _ (ih h)
      · rcases List.mem_cons.mp h with rfl | h
        · exact List.mem_cons_self
        · exact List.mem_cons_of_mem _ (ih h)

/-- No key is left twice. -/
theorem nodup_lastMembers (ms : List (κ × α)) : ((lastMembers ms).map Prod.fst).Nodup := by
  induction ms with
  | nil => exact List.nodup_nil
  | cons m ms ih =>
      rw [lastMembers]
      split_ifs with hlater
      · exact ih
      · rw [any_key_iff] at hlater
        exact List.nodup_cons.mpr ⟨fun hmem => hlater (fst_mem_of_mem_lastMembers hmem), ih⟩

/-- Under each key the last member is left. -/
theorem lookup_lastMembers (ms : List (κ × α)) (k : κ) :
    (lastMembers ms).lookup k = ms.reverse.lookup k := by
  induction ms with
  | nil => rfl
  | cons m ms ih =>
      obtain ⟨key, a⟩ := m
      rw [List.reverse_cons, List.lookup_append, lastMembers]
      split_ifs with hlater
      · rw [ih]
        rcases hfound : ms.reverse.lookup k with - | b
        · -- the first member has another key than `k`, as its own key comes again
          have hother : k ≠ key := by
            rintro rfl
            obtain ⟨m, hm, rfl⟩ := List.mem_map.mp (any_key_iff.mp hlater)
            have hne := List.lookup_eq_none_iff.mp hfound m (List.mem_reverse.mpr hm)
            simp at hne
          simp [List.lookup_cons, beq_false_of_ne hother]
        · rfl
      · rw [List.lookup_cons, ih]
        rcases hkey : k == key with - | -
        · simp [List.lookup_cons, hkey]
        · obtain rfl := beq_iff_eq.mp hkey
          rw [any_key_iff, ← List.mem_reverse, ← List.map_reverse] at hlater
          simp [lookup_eq_none_of_not_mem hlater]

theorem lastMembers_map {κ' α' : Type} [DecidableEq κ'] {key : κ → κ'} {f : α → α'}
    (hkey : Function.Injective key) (ms : List (κ × α)) :
    lastMembers (ms.map fun m => (key m.1, f m.2)) =
      (lastMembers ms).map fun m => (key m.1, f m.2) := by
  induction ms with
  | nil => rfl
  | cons m ms ih =>
      have hany : (ms.map fun m => (key m.1, f m.2)).any (·.1 = key m.1) = ms.any (·.1 = m.1) := by
        simp [List.any_map, Function.comp_def, hkey.eq_iff]
      rw [List.map_cons, lastMembers, lastMembers, hany, ih]
      split_ifs <;> rfl

end

/-! ### What is held -/

/-- What a value holds for the field with a name and a place. -/
def held? (name : String) (i : Nat) : Value → Option Value
  | object ms => ms.reverse.lookup name
  | array items => items[i]?
  | _ => none

/-- Objects, and arrays with no more than so many items. -/
def IsRecord (fields : Nat) : Value → Prop
  | object _ => True
  | array items => items.length ≤ fields
  | _ => False

/-- The fields of a record, each with what is held for it. -/
def heldFor {σ : Type} (v : Value) (fields : List (RecordField σ)) :
    List (RecordField σ × Option Value) :=
  fields.mapIdx fun i f => (f, v.held? f.name i)

theorem heldFor_object {σ : Type} (ms : List (String × Value)) (fields : List (RecordField σ)) :
    (object ms).heldFor fields = fields.map fun f => (f, (lastMembers ms).lookup f.name) := by
  simp only [heldFor, held?, lookup_lastMembers]
  exact List.ext_getElem? fun i => by simp

theorem toNode_object (ms : List (String × Value)) :
    (object ms).toNode = .object (toMembers (lastMembers ms)) true := by
  rw [toNode, toMembers_eq_map, toMembers_eq_map, lastMembers_map fun _ _ => Option.some.inj]

theorem isComplete_toNode (v : Value) : v.toNode.isComplete = true := by
  rcases v with - | - | (- | -) | - | - | - <;> rfl

end Value

namespace Shape

variable {σ α : Type} {fields : List (RecordField σ)} {d : σ}

/-! ### Reading the fields in order -/

/-- Reads for each field what is held for it. What is missing leaves the draft as it is. -/
def fill? : List (RecordField σ × Option Value) → σ → Option σ
  | [], d => some d
  | (_, none) :: held, d => fill? held d
  | (f, some v) :: held, d => (f.read v.toNode d).toOption.bind (fill? held)

/-- Two fields that have nothing to do with each other. -/
structure Apart (f g : RecordField σ) : Prop where
  free : ∀ n d d', f.read n d = .ok d' → g.isFilled d' = g.isFilled d
  free' : ∀ n d d', g.read n d = .ok d' → f.isFilled d' = f.isFilled d
  comm : ∀ m n d, ((f.read m d).toOption.bind fun d => (g.read n d).toOption) =
    (g.read n d).toOption.bind fun d => (f.read m d).toOption

instance : Std.Symm (Apart (σ := σ)) :=
  ⟨fun _ _ h => ⟨h.free', h.free, fun m n d => (h.comm n m d).symm⟩⟩

theorem fill?_of_missing {held : List (RecordField σ × Option Value)}
    (h : ∀ p ∈ held, p.2 = none) (d : σ) : fill? held d = some d := by
  induction held with
  | nil => rfl
  | cons p held ih =>
      obtain ⟨f, value⟩ := p
      obtain ⟨rfl, hheld⟩ := List.forall_mem_cons.mp h
      exact ih hheld

/-- A field may be read before those in front of it. -/
theorem fill?_pull {before behind : List (RecordField σ × Option Value)} {f : RecordField σ}
    (h : ∀ p ∈ before, Apart p.1 f) (v : Value) (d : σ) :
    fill? (before ++ (f, some v) :: behind) d =
      (f.read v.toNode d).toOption.bind (fill? (before ++ (f, none) :: behind)) := by
  induction before generalizing d with
  | nil => rfl
  | cons p before ih =>
      obtain ⟨hfirst, hbefore⟩ := List.forall_mem_cons.mp h
      obtain ⟨g, - | w⟩ := p
      · exact ih hbefore d
      · have hcomm := congrArg (Option.bind · (fill? (before ++ (f, none) :: behind)))
          (hfirst.comm w.toNode v.toNode d)
        simp only [Option.bind_assoc] at hcomm
        have hlater := funext (ih hbefore)
        simp only [List.cons_append, fill?, hlater, hcomm]

/-! ### Places -/

/-- A field makes nothing of nothing, and of a value what it reads from it. -/
inductive Made {β : Type} (make : Node → Except Fault β) : Option Value → Option β → Prop where
  | missing : Made make none none
  | read {v : Value} {b : β} (h : make v.toNode = .ok b) : Made make (some v) (some b)

/-- What is made of a value is one thing. -/
theorem Made.unique {β : Type} {make : Node → Except Fault β} {held : Option Value}
    {x y : Option β} (hx : Made make held x) (hy : Made make held y) : x = y := by
  cases hx with
  | missing =>
      cases hy with
      | missing => rfl
  | read hb =>
      cases hy with
      | read hc => exact congrArg some (Except.ok.inj (hb.symm.trans hc))

/-- A place in a draft, and what a field writes to it. -/
structure Place (σ : Type) where
  name : String
  {Content : Type}
  make : Node → Except Fault Content
  get : σ → Option Content
  set : Content → σ → σ
  get_set : ∀ b d, get (set b d) = some b

namespace Place

variable {p q : Place σ} {places : List (Place σ)}

/-- The field that writes to a place, which is free as long as nothing is there. -/
def field (p : Place σ) : RecordField σ :=
  ⟨p.name, fun d => (p.get d).isSome, fun n d => do return p.set (← p.make n) d⟩

/-- What is written to one of two places is not found at the other one, and either may be written
first. -/
structure Apart (p q : Place σ) : Prop where
  get_set : ∀ b d, q.get (p.set b d) = q.get d
  get_set' : ∀ c d, p.get (q.set c d) = p.get d
  comm : ∀ b c d, q.set c (p.set b d) = p.set b (q.set c d)

theorem Apart.symm (h : p.Apart q) : q.Apart p :=
  ⟨h.get_set', h.get_set, fun c b d => (h.comm b c d).symm⟩

theorem field_read_eq_ok_iff {n : Node} {d' : σ} :
    p.field.read n d = .ok d' ↔ ∃ b, p.make n = .ok b ∧ d' = p.set b d := by
  rw [field, bind_eq_ok_iff]
  simp only [pure, Except.pure, Except.ok.injEq, eq_comm]

theorem Apart.field (h : p.Apart q) : Shape.Apart p.field q.field where
  free n d d' hread := by
    obtain ⟨b, -, rfl⟩ := field_read_eq_ok_iff.mp hread
    exact congrArg Option.isSome (h.get_set b d)
  free' n d d' hread := by
    obtain ⟨c, -, rfl⟩ := field_read_eq_ok_iff.mp hread
    exact congrArg Option.isSome (h.get_set' c d)
  comm m n d := by
    simp only [Place.field, toOption_bind]
    rcases p.make m with - | b <;> rcases q.make n with - | c <;> try rfl
    exact congrArg some (h.comm b c d)

theorem pairwise_apart_field (h : places.Pairwise Apart) :
    (places.map field).Pairwise Shape.Apart :=
  List.pairwise_map.mpr (h.imp Apart.field)

/-- Each place with what a value holds for its field. -/
def heldFor (v : Value) (places : List (Place σ)) : List (Place σ × Option Value) :=
  places.mapIdx fun i p => (p, v.held? p.name i)

/-- The fields of some places, each with what is held for it. -/
def fieldsOf (hs : List (Place σ × Option Value)) : List (RecordField σ × Option Value) :=
  hs.map fun h => (h.1.field, h.2)

variable {hs : List (Place σ × Option Value)} {d' : σ}

/-- **One step**: a field writes what it makes of its value, and nothing if it has none. -/
theorem fill?_cons_eq_some_iff {o : Option Value} :
    fill? (fieldsOf ((p, o) :: hs)) d = some d' ↔
      o = none ∧ fill? (fieldsOf hs) d = some d' ∨ ∃ v b, o = some v ∧
        p.make v.toNode = .ok b ∧ fill? (fieldsOf hs) (p.set b d) = some d' := by
  rw [fieldsOf, List.map_cons, ← fieldsOf]
  cases o with
  | none => simp [fill?]
  | some v =>
      simp only [fill?, Option.bind_eq_some_iff, toOption_eq_some_iff, field_read_eq_ok_iff]
      simp

/-- What is apart from all places is left as it is. -/
theorem get_of_fill? (h : fill? (fieldsOf hs) d = some d') (hq : ∀ h ∈ hs, h.1.Apart q) :
    q.get d' = q.get d := by
  induction hs generalizing d with
  | nil => rw [Option.some.inj h]
  | cons x hs ih =>
      obtain ⟨p, o⟩ := x
      obtain ⟨hp, hlater⟩ := List.forall_mem_cons.mp hq
      rcases fill?_cons_eq_some_iff.mp h with ⟨rfl, hfill⟩ | ⟨v, b, rfl, -, hfill⟩
      · exact ih hfill hlater
      · rw [ih hfill hlater, hp.get_set]

/-- In the end each place holds what its field has made. -/
theorem made_of_fill? (hapart : hs.Pairwise fun h h' => h.1.Apart h'.1)
    (hfree : ∀ h ∈ hs, h.1.get d = none) (h : fill? (fieldsOf hs) d = some d') :
    ∀ h ∈ hs, Made h.1.make h.2 (h.1.get d') := by
  induction hs generalizing d with
  | nil => exact List.forall_mem_nil _
  | cons x hs ih =>
      obtain ⟨p, o⟩ := x
      obtain ⟨hp, hpairs⟩ := List.pairwise_cons.mp hapart
      obtain ⟨hnone, hlater⟩ := List.forall_mem_cons.mp hfree
      -- the fields behind it do not touch the place of the first one
      have hkept : ∀ {e}, fill? (fieldsOf hs) e = some d' → p.get d' = p.get e := fun hfill =>
        get_of_fill? hfill fun y hy => (hp y hy).symm
      rw [List.forall_mem_cons]
      rcases fill?_cons_eq_some_iff.mp h with ⟨rfl, hfill⟩ | ⟨v, b, rfl, hb, hfill⟩
      · refine ⟨?_, ih hpairs hlater hfill⟩
        rw [hkept hfill, hnone]
        exact .missing
      · refine ⟨?_, ih hpairs (fun y hy => ?_) hfill⟩
        · rw [hkept hfill, p.get_set]
          exact .read hb
        · rw [(hp y hy).get_set, hlater y hy]

/-- Nothing else is needed than that each field makes something of its value. -/
theorem exists_fill? (h : ∀ h ∈ hs, ∃ x, Made h.1.make h.2 x) (d : σ) :
    ∃ d', fill? (fieldsOf hs) d = some d' := by
  induction hs generalizing d with
  | nil => exact ⟨d, rfl⟩
  | cons x hs ih =>
      obtain ⟨p, o⟩ := x
      obtain ⟨⟨_, hmade⟩, hs⟩ := List.forall_mem_cons.mp h
      cases hmade with
      | missing =>
          obtain ⟨d', hfill⟩ := ih hs d
          exact ⟨d', fill?_cons_eq_some_iff.mpr (.inl ⟨rfl, hfill⟩)⟩
      | @read v b hb =>
          obtain ⟨d', hfill⟩ := ih hs (p.set b d)
          exact ⟨d', fill?_cons_eq_some_iff.mpr (.inr ⟨v, b, rfl, hb, hfill⟩)⟩

theorem heldFor_map_field (v : Value) (places : List (Place σ)) :
    v.heldFor (places.map field) = fieldsOf (heldFor v places) := by
  rw [Value.heldFor, fieldsOf, heldFor]
  exact List.ext_getElem? fun i => by simp [field, Function.comp_def]

theorem map_fst_heldFor (v : Value) (places : List (Place σ)) :
    (heldFor v places).map Prod.fst = places :=
  List.ext_getElem? fun i => by simp [heldFor, Function.comp_def]

/-- **A draft is filled if each place holds what its field makes of what is held for it.** The
places start free, and a draft is no more than what is found at them. -/
theorem fill?_heldFor_eq_some_iff {v : Value} (hapart : places.Pairwise Apart)
    (hfree : ∀ p ∈ places, p.get d = none)
    (hext : ∀ e, (∀ p ∈ places, p.get e = p.get d') → e = d') :
    fill? (v.heldFor (places.map field)) d = some d' ↔
      ∀ h ∈ heldFor v places, Made h.1.make h.2 (h.1.get d') := by
  have hpairs : (heldFor v places).Pairwise fun h h' => h.1.Apart h'.1 := by
    rw [← List.pairwise_map, map_fst_heldFor]
    exact hapart
  have hnone : ∀ h ∈ heldFor v places, h.1.get d = none := by
    intro h hh
    exact hfree h.1 (map_fst_heldFor v places ▸ List.mem_map_of_mem hh)
  rw [heldFor_map_field]
  constructor
  · exact made_of_fill? hpairs hnone
  · intro h
    obtain ⟨e, hfill⟩ := exists_fill? (fun x hx => ⟨_, h x hx⟩) d
    have hmade := made_of_fill? hpairs hnone hfill
    rw [hfill, hext e fun p hp => ?_]
    obtain ⟨x, hx, rfl⟩ := List.mem_map.mp ((map_fst_heldFor v places).symm ▸ hp)
    exact (hmade x hx).unique (h x hx)

end Place

/-! ### Objects -/

section

variable {ms : List (String × Value)}

theorem name_ne_of_nodup {before behind : List (RecordField σ)} {f : RecordField σ}
    (h : ((before ++ f :: behind).map (·.name)).Nodup) :
    ∀ g ∈ before ++ behind, g.name ≠ f.name := by
  rw [List.map_append, List.map_cons, List.nodup_middle, ← List.map_append,
    List.nodup_cons] at h
  exact fun g hg hname => h.1 (hname ▸ List.mem_map_of_mem hg)

/-- A member is nothing to the fields that have another name. -/
theorem map_lookup_cons {k : String} (h : ∀ f ∈ fields, f.name ≠ k) (v : Value) :
    (fields.map fun f => (f, ((k, v) :: ms).lookup f.name)) =
      fields.map fun f => (f, ms.lookup f.name) := by
  refine List.map_congr_left fun f hf => ?_
  rw [List.lookup_cons, beq_false_of_ne (h f hf)]

/-- **Members are read as if they stood in the order of the fields.** -/
theorem readMembers_toMembers (hnames : (fields.map (·.name)).Nodup)
    (hapart : fields.Pairwise Apart) (hkeys : (ms.map Prod.fst).Nodup)
    (hfree : ∀ f ∈ fields, f.name ∈ ms.map Prod.fst → f.isFilled d = false) :
    (readMembers fields (Value.toMembers ms) d).toOption =
      fill? (fields.map fun f => (f, ms.lookup f.name)) d := by
  induction ms generalizing d with
  | nil =>
      refine (fill?_of_missing ?_ d).symm
      simp
  | cons m ms ih =>
      obtain ⟨k, v⟩ := m
      obtain ⟨hk, hkeys'⟩ := List.nodup_cons.mp hkeys
      rw [Value.toMembers, readMembers, toOption_bind]
      by_cases hfield : ∃ f ∈ fields, f.name = k
      · obtain ⟨f, hf, rfl⟩ := hfield
        have hread : readMember fields (some f.name) v.toNode d = f.read v.toNode d := by
          rw [readMember_eq_ite hnames hf, hfree f hf List.mem_cons_self,
            if_neg Bool.false_ne_true]
        have happart : ∀ g ∈ fields, g.name ≠ f.name → Apart g f := fun g hg hne =>
          hapart.forall hg hf fun heq => hne (congrArg _ heq)
        obtain ⟨before, behind, rfl⟩ := List.append_of_mem hf
        obtain ⟨hothers, hothers'⟩ := List.forall_mem_append.mp (name_ne_of_nodup hnames)
        -- no later member is read by this field
        have hmissing : ms.lookup f.name = none := Value.lookup_eq_none_of_not_mem hk
        rw [hread, List.map_append, List.map_cons, map_lookup_cons hothers,
          map_lookup_cons hothers', List.lookup_cons_self, fill?_pull]
        · rcases hd : f.read v.toNode d with e | d'
          · rfl
          · have hlater := ih (d := d') hkeys' ?_
            · rw [List.map_append, List.map_cons, hmissing] at hlater
              exact hlater
            · intro g hg hmem
              have hne : g.name ≠ f.name := fun hname => hk (hname ▸ hmem)
              rw [(happart g hg hne).free' _ _ _ hd]
              exact hfree g hg (List.mem_cons_of_mem _ hmem)
        · intro p hp
          obtain ⟨g, hg, rfl⟩ := List.mem_map.mp hp
          exact happart g (List.mem_append_left _ hg) (hothers g hg)
      · have hother : ∀ f ∈ fields, f.name ≠ k := fun f hf hname => hfield ⟨f, hf, hname⟩
        have hread : readMember fields (some k) v.toNode d = .ok d := by
          have hfind : fields.find? (·.name = k) = none := by
            simpa [List.find?_eq_none] using hother
          simp [readMember, hfind, Value.isComplete_toNode]
        rw [hread, map_lookup_cons hother]
        exact ih hkeys' fun f hf hmem => hfree f hf (List.mem_cons_of_mem _ hmem)

end

/-! ### Arrays -/

/-- Items are read in the order of the fields anyway. -/
theorem readItems_toNodes (items : List Value) :
    (readItems fields (Value.toNodes items) d).toOption =
      (fill? (fields.mapIdx fun i f => (f, items[i]?)) d).map
        fun d => (d, decide (fields.length < items.length)) := by
  induction fields generalizing items d with
  | nil => cases items <;> rfl
  | cons f fields ih =>
      cases items with
      | nil =>
          have hmissing : ∀ p ∈ (f :: fields).mapIdx fun i f => (f, ([] : List Value)[i]?),
              p.2 = none := by
            intro p hp
            obtain ⟨i, -, rfl⟩ := List.mem_mapIdx.mp hp
            rfl
          rw [fill?_of_missing hmissing]
          rfl
      | cons v items =>
          simp only [Value.toNodes, readItems, toOption_bind, ih, List.mapIdx_cons,
            List.getElem?_cons_zero, List.getElem?_cons_succ, fill?, Option.map_bind,
            List.length_cons, Nat.add_lt_add_iff_right]
          rfl

/-! ### Records -/

theorem toOption_finishDraft (shape : Shape σ α) (d : σ) :
    (shape.finishDraft d).toOption = shape.finish d := by
  rw [finishDraft]
  rcases shape.finish d with - | a <;> rfl

/-- **A value is read as a record if it has the form of one and each field can be read from what is
held for it**, one after the other. -/
theorem read_toNode_eq_ok_iff {shape : Shape σ α} {v : Value} {a : α}
    (hnames : (shape.fields.map (·.name)).Nodup) (hapart : shape.fields.Pairwise Apart)
    (hempty : ∀ f ∈ shape.fields, f.isFilled shape.empty = false) :
    shape.read v.toNode = .ok a ↔ v.IsRecord shape.fields.length ∧
      ∃ d, fill? (v.heldFor shape.fields) shape.empty = some d ∧ shape.finish d = some a := by
  rw [← toOption_eq_some_iff]
  cases v with
  | object ms =>
      have hread := readMembers_toMembers hnames hapart (Value.nodup_lastMembers ms)
        fun f hf _ => hempty f hf
      rw [Value.toNode_object, read, toOption_bind, hread, Value.heldFor_object]
      simp only [Option.bind_eq_some_iff, if_true, toOption_finishDraft, Value.IsRecord,
        true_and]
  | array items =>
      have hfinish : ∀ p : σ × Bool, (shape.finishDraft p.1 >>= fun a : α =>
          if p.2 = true then .error .malformed else .ok a).toOption =
            if p.2 = true then none else shape.finish p.1 := by
        rintro ⟨d, b⟩
        rw [toOption_bind, toOption_finishDraft]
        cases b <;> cases shape.finish d <;> rfl
      rw [Value.toNode, read, toOption_bind, readItems_toNodes]
      simp only [Bool.not_true, Bool.false_and, Bool.false_eq_true, if_false, Bool.or_false,
        hfinish, Option.bind_map, Function.comp_def, decide_eq_true_eq, Option.bind_eq_some_iff]
      rw [Value.IsRecord, ← Nat.not_lt]
      split_ifs with hlength
      · simp [hlength]
      · simp [hlength, Value.heldFor, Value.held?]
  | null | bool | string => simp [Value.toNode, read, Value.IsRecord, Except.toOption]
  | number x => cases x <;> simp [Value.toNode, read, Value.IsRecord, Except.toOption]

end Shape

end QueryPrep.Json
