import Mathlib.Data.List.Nodup
import QueryPrep.Proofs.Json.Tree

/-!
# Records from objects and arrays

The members of an object may come in any order. If each field of a record has a place of its own in
the draft (`Shape.Independent`) and no key is there twice, reading succeeds as soon as every field
can make something of its value, and in the end each place holds what its field made of the member
with its name (`Shape.read_object`). Members with other names are passed over.

Of a record that was read, from an object or from an array, this much is known: what holds of the
empty draft and is kept by every field holds of its draft (`Shape.exists_of_read`), and what a field
brings about holds of it as well if the other fields keep it (`Shape.of_readMembers_mem`,
`Shape.of_readItems_getElem?`).
-/

namespace QueryPrep.Json

theorem Node.isComplete_of_meaning? {n : Node} {v : Value} (h : n.meaning? = some v) :
    n.isComplete = true := by
  cases n with
  | array items closed =>
      cases closed with
      | true => rfl
      | false => simp [meaning?] at h
  | object members closed =>
      cases closed with
      | true => rfl
      | false => simp [meaning?] at h
  | broken => simp [meaning?] at h
  | _ => rfl

namespace Shape

variable {σ α β : Type} {fields : List (RecordField σ)} {place : String → σ → Option β}
  {convert : Value → Option β} {members : List (String × Value)}

/-- Each field fills its own place in the draft with what it makes of a value, and leaves the places
of the others alone. -/
structure Independent (fields : List (RecordField σ)) (place : String → σ → Option β)
    (convert : Value → Option β) : Prop where
  isFilled : ∀ f ∈ fields, ∀ d, f.isFilled d = (place f.name d).isSome
  read : ∀ f ∈ fields, ∀ n v b d, Node.meaning? n = some v → convert v = some b →
    ∃ d', f.read n d = .ok d' ∧ place f.name d' = some b ∧
      ∀ g ∈ fields, g.name ≠ f.name → place g.name d' = place g.name d

theorem Independent.of_subset {fewer : List (RecordField σ)}
    (h : Independent fields place convert) (hsubset : ∀ f ∈ fewer, f ∈ fields) :
    Independent fewer place convert := by
  refine ⟨fun f hf => h.isFilled f (hsubset f hf), fun f hf n v b d hn hb => ?_⟩
  obtain ⟨d', hread, hplace, hothers⟩ := h.read f (hsubset f hf) n v b d hn hb
  exact ⟨d', hread, hplace, fun g hg => hothers g (hsubset g hg)⟩

/-- The places after some members: each is filled from the member with its name or left alone. -/
def IsFilledFrom (fields : List (RecordField σ)) (place : String → σ → Option β)
    (convert : Value → Option β) (members : List (String × Value)) (d d' : σ) : Prop :=
  ∀ f ∈ fields, (∀ v, (f.name, v) ∈ members → place f.name d' = convert v) ∧
    (f.name ∉ members.map Prod.fst → place f.name d' = place f.name d)

/-- One member: its field is filled, if there is one with its name. -/
theorem readMember_eq_ok (hfields : Independent fields place convert) {key : String} {n : Node}
    {v : Value} {d : σ} (hn : n.meaning? = some v)
    (hconvert : ∀ f ∈ fields, f.name = key → (convert v).isSome = true)
    (hempty : ∀ f ∈ fields, f.name = key → place f.name d = none) :
    ∃ d', readMember fields (some key) n d = .ok d' ∧
      IsFilledFrom fields place convert [(key, v)] d d' := by
  rcases hfind : fields.find? (·.name = key) with - | f
  · have hother : ∀ f ∈ fields, f.name ≠ key := by simpa using List.find?_eq_none.mp hfind
    refine ⟨d, ?_, fun f hf => ⟨?_, fun _ => rfl⟩⟩
    · simp [readMember, hfind, Node.isComplete_of_meaning? hn]
    · intro w hw
      exact absurd (congrArg Prod.fst (List.mem_singleton.mp hw)) (hother f hf)
  · have hf : f ∈ fields := List.mem_of_find?_eq_some hfind
    have hname : f.name = key := by simpa using List.find?_some hfind
    obtain ⟨b, hb⟩ := Option.isSome_iff_exists.mp (hconvert f hf hname)
    have hfree : f.isFilled d = false := by
      rw [hfields.isFilled f hf, hempty f hf hname]
      rfl
    obtain ⟨d', hread, hplace, hothers⟩ := hfields.read f hf n v b d hn hb
    refine ⟨d', ?_, fun g hg => ⟨?_, ?_⟩⟩
    · simp [readMember, hfind, hfree, hread]
    · intro w hw
      obtain ⟨hgname, rfl⟩ := Prod.mk.inj (List.mem_singleton.mp hw)
      rw [hgname, ← hname, hplace, hb]
    · intro hg'
      refine hothers g hg fun hgname => hg' ?_
      simp [hgname, hname]

/-- Members of an object, each key at most once. -/
theorem readMembers_eq_ok (hfields : Independent fields place convert)
    {ms : List (Option String × Node)} {d : σ} (hms : Node.memberMeanings? ms = some members)
    (hnodup : (members.map Prod.fst).Nodup)
    (hconvert : ∀ f ∈ fields, ∀ v, (f.name, v) ∈ members → (convert v).isSome = true)
    (hempty : ∀ f ∈ fields, f.name ∈ members.map Prod.fst → place f.name d = none) :
    ∃ d', readMembers fields ms d = .ok d' ∧
      IsFilledFrom fields place convert members d d' := by
  induction ms generalizing members d with
  | nil =>
      obtain rfl := Option.some.inj hms
      exact ⟨d, rfl, fun f _ => ⟨fun v hv => absurd hv List.not_mem_nil, fun _ => rfl⟩⟩
  | cons m ms ih =>
      obtain ⟨k, n⟩ := m
      obtain ⟨key, v, rest, rfl, hn, hrest, rfl⟩ := Node.memberMeanings?_cons_eq_some_iff.mp hms
      rw [List.map_cons, List.nodup_cons] at hnodup
      obtain ⟨hkey, hnodup⟩ := hnodup
      obtain ⟨d₁, hread₁, hfilled₁⟩ := readMember_eq_ok hfields hn
        (fun f hf hname => hconvert f hf v (hname ▸ List.mem_cons_self))
        (fun f hf hname => hempty f hf (hname ▸ List.mem_cons_self))
      have hempty₁ : ∀ f ∈ fields, f.name ∈ rest.map Prod.fst → place f.name d₁ = none := by
        intro f hf hmem
        have hne : f.name ≠ key := fun hname => hkey (hname ▸ hmem)
        rw [(hfilled₁ f hf).2 (by simpa using hne)]
        exact hempty f hf (List.mem_cons_of_mem _ hmem)
      obtain ⟨d', hread', hfilled'⟩ := ih hrest hnodup
        (fun f hf w hw => hconvert f hf w (List.mem_cons_of_mem _ hw)) hempty₁
      refine ⟨d', ?_, fun f hf => ⟨?_, ?_⟩⟩
      · rw [readMembers, hread₁]
        exact hread'
      · intro w hw
        rcases List.mem_cons.mp hw with hw | hw
        · -- the first member: no later one has its key
          obtain ⟨hname, rfl⟩ := Prod.mk.inj hw
          rw [(hfilled' f hf).2 (hname ▸ hkey)]
          exact (hfilled₁ f hf).1 _ (hname ▸ List.mem_singleton_self _)
        · exact (hfilled' f hf).1 w hw
      · intro hmem
        rw [List.map_cons, List.mem_cons, not_or] at hmem
        rw [(hfilled' f hf).2 hmem.2]
        exact (hfilled₁ f hf).2 (by simpa using hmem.1)

/-- **A record is read from the members of an object, in whatever order they come.** -/
theorem read_object {shape : Shape σ α} (hfields : Independent shape.fields place convert)
    {n : Node} (hn : n.meaning? = some (.object members)) (hnodup : (members.map Prod.fst).Nodup)
    (hconvert : ∀ f ∈ shape.fields, ∀ v, (f.name, v) ∈ members → (convert v).isSome = true)
    (hempty : ∀ f ∈ shape.fields, place f.name shape.empty = none) :
    ∃ d, shape.read n = shape.finishDraft d ∧
      ∀ f ∈ shape.fields, ∀ v, (f.name, v) ∈ members → place f.name d = convert v := by
  obtain ⟨ms, rfl, hms⟩ := Node.meaning?_eq_object_iff.mp hn
  obtain ⟨d, hread, hfilled⟩ := readMembers_eq_ok hfields hms hnodup hconvert
    fun f hf _ => hempty f hf
  refine ⟨d, ?_, fun f hf => (hfilled f hf).1⟩
  rw [read, hread]
  rfl

/-! ### Records that were read -/

section

variable {P : σ → Prop} {ms : List (Option String × Node)} {ns : List Node} {d d' : σ} {b : Bool}
  {shape : Shape σ α} {a : α} {n : Node}

/-- One member is either skipped or read by a field that was not filled before. -/
theorem readMember_cases {key : Option String} (h : readMember fields key n d = .ok d') :
    d' = d ∨ ∃ f ∈ fields, f.isFilled d = false ∧ f.read n d = .ok d' := by
  cases key with
  | none => cases h
  | some k =>
      rw [readMember] at h
      rcases hfind : fields.find? (·.name = k) with - | f
      · simp only [hfind] at h
        split_ifs at h
        exact .inl (Except.ok.inj h).symm
      · simp only [hfind] at h
        split_ifs at h with hfilled
        exact .inr ⟨f, List.mem_of_find?_eq_some hfind, Bool.eq_false_iff.mpr hfilled, h⟩

theorem readMembers_cons_eq_ok {m : Option String × Node}
    (h : readMembers fields (m :: ms) d = .ok d') :
    ∃ d₁, readMember fields m.1 m.2 d = .ok d₁ ∧ readMembers fields ms d₁ = .ok d' :=
  bind_eq_ok_iff.mp h

theorem readMembers_append (before behind : List (Option String × Node)) (d : σ) :
    readMembers fields (before ++ behind) d =
      readMembers fields before d >>= readMembers fields behind := by
  induction before generalizing d with
  | nil => rfl
  | cons m before ih =>
      rw [List.cons_append, readMembers, readMembers, bind_assoc]
      simp only [ih]

theorem readItems_cons_eq_ok {f : RecordField σ} {fs : List (RecordField σ)}
    (h : readItems (f :: fs) (n :: ns) d = .ok (d', b)) :
    ∃ d₁, f.read n d = .ok d₁ ∧ readItems fs ns d₁ = .ok (d', b) :=
  bind_eq_ok_iff.mp h

/-- What every field keeps is kept by members. -/
theorem of_readMembers
    (hkeep : ∀ f ∈ fields, ∀ n d d', f.isFilled d = false → f.read n d = .ok d' → P d → P d')
    (h : readMembers fields ms d = .ok d') (hd : P d) : P d' := by
  induction ms generalizing d with
  | nil =>
      obtain rfl := Except.ok.inj h
      exact hd
  | cons m ms ih =>
      obtain ⟨d₁, hm, hms⟩ := readMembers_cons_eq_ok h
      apply ih hms
      obtain rfl | ⟨f, hf, hfree, hread⟩ := readMember_cases hm
      · exact hd
      · exact hkeep f hf _ _ _ hfree hread hd

/-- What one member brings about and every field keeps holds in the end. -/
theorem of_readMembers_mem {key : Option String}
    (hkeep : ∀ f ∈ fields, ∀ n d d', f.isFilled d = false → f.read n d = .ok d' → P d → P d')
    (hset : ∀ d d', readMember fields key n d = .ok d' → P d') (hmem : (key, n) ∈ ms)
    (h : readMembers fields ms d = .ok d') : P d' := by
  induction ms generalizing d with
  | nil => cases hmem
  | cons m ms ih =>
      obtain ⟨d₁, hm, hms⟩ := readMembers_cons_eq_ok h
      rcases List.mem_cons.mp hmem with rfl | hmem
      · -- from this member on the property is there to be kept
        exact of_readMembers hkeep hms (hset _ _ hm)
      · exact ih hmem hms

/-- What every field keeps is kept by items. -/
theorem of_readItems (hkeep : ∀ f ∈ fields, ∀ n d d', f.read n d = .ok d' → P d → P d')
    (h : readItems fields ns d = .ok (d', b)) (hd : P d) : P d' := by
  induction ns generalizing fields d with
  | nil =>
      obtain rfl : d = d' := by
        cases fields <;> exact (Prod.mk.inj (Except.ok.inj h)).1
      exact hd
  | cons n ns ih =>
      cases fields with
      | nil =>
          obtain ⟨rfl, -⟩ := Prod.mk.inj (Except.ok.inj h)
          exact hd
      | cons f fs =>
          obtain ⟨d₁, hread, hns⟩ := readItems_cons_eq_ok h
          apply ih (fun g hg => hkeep g (List.mem_cons_of_mem _ hg)) hns
          exact hkeep f List.mem_cons_self _ _ _ hread hd

/-- What one item brings about and the fields of later ones keep holds in the end. -/
theorem of_readItems_getElem? {i : Nat} {f : RecordField σ} (hf : fields[i]? = some f)
    (hn : ns[i]? = some n)
    (hkeep : ∀ g ∈ fields.drop (i + 1), ∀ n d d', g.read n d = .ok d' → P d → P d')
    (hset : ∀ d d', f.read n d = .ok d' → P d') (h : readItems fields ns d = .ok (d', b)) :
    P d' := by
  induction i generalizing fields ns d with
  | zero =>
      cases fields with
      | nil => cases hf
      | cons g fs =>
          cases ns with
          | nil => cases hn
          | cons m ns =>
              obtain rfl := Option.some.inj hf
              obtain rfl := Option.some.inj hn
              obtain ⟨d₁, hread, hns⟩ := readItems_cons_eq_ok h
              exact of_readItems hkeep hns (hset _ _ hread)
  | succ i ih =>
      cases fields with
      | nil => cases hf
      | cons g fs =>
          cases ns with
          | nil => cases hn
          | cons m ns =>
              obtain ⟨d₁, -, hns⟩ := readItems_cons_eq_ok h
              exact ih hf hn hkeep hns

theorem finishDraft_eq_ok_iff : shape.finishDraft d = .ok a ↔ shape.finish d = some a := by
  rw [finishDraft]
  rcases shape.finish d with - | a' <;> simp

/-- An object is read if it has an end and its members fill a draft of a record. -/
theorem read_object_eq_ok_iff {closed : Bool} : shape.read (.object ms closed) = .ok a ↔
    closed = true ∧
      ∃ d, readMembers shape.fields ms shape.empty = .ok d ∧ shape.finish d = some a := by
  rw [read, bind_eq_ok_iff]
  cases closed with
  | false => simp
  | true => simp only [if_true, finishDraft_eq_ok_iff, true_and]

/-- An array is read if it has an end and its items fill a draft of a record, with none left. -/
theorem read_array_eq_ok_iff {closed : Bool} : shape.read (.array ns closed) = .ok a ↔
    closed = true ∧
      ∃ d, readItems shape.fields ns shape.empty = .ok (d, false) ∧ shape.finish d = some a := by
  rw [read, bind_eq_ok_iff]
  cases closed with
  | false =>
      simp only [Bool.not_false, Bool.or_true, if_true, false_and, iff_false, not_exists, not_and,
        Prod.forall, reduceCtorEq]
      intro d b _ h
      split_ifs at h
      obtain ⟨_, -, h⟩ := bind_eq_ok_iff.mp h
      cases h
  | true =>
      simp only [Bool.not_true, Bool.false_and, Bool.or_false, if_false, true_and, Prod.exists,
        bind_eq_ok_iff, finishDraft_eq_ok_iff, reduceCtorEq]
      constructor
      · rintro ⟨d, b, hread, a', hfinish, h⟩
        split_ifs at h with hb
        · obtain rfl := Except.ok.inj h
          exact ⟨d, by simpa [hb] using hread, hfinish⟩
      · rintro ⟨d, hread, hfinish⟩
        exact ⟨d, false, hread, a, hfinish, rfl⟩

/-- **What holds of the empty draft and is kept by every field holds of the draft of a record.** -/
theorem exists_of_read (hempty : P shape.empty)
    (hkeep : ∀ f ∈ shape.fields, ∀ n d d', f.read n d = .ok d' → P d → P d')
    (h : shape.read n = .ok a) : ∃ d, P d ∧ shape.finish d = some a := by
  cases n with
  | object ms closed =>
      obtain ⟨-, d, hread, hfinish⟩ := read_object_eq_ok_iff.mp h
      exact ⟨d, of_readMembers (fun f hf n d d' _ => hkeep f hf n d d') hread hempty, hfinish⟩
  | array items closed =>
      obtain ⟨-, d, hread, hfinish⟩ := read_array_eq_ok_iff.mp h
      exact ⟨d, of_readItems hkeep hread hempty, hfinish⟩
  | _ => cases h

end

end Shape

end QueryPrep.Json
