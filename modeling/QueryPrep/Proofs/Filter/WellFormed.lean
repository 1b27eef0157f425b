import Mathlib.Data.List.Forall2
import QueryPrep.Filter.Reading
import QueryPrep.Proofs.Filter.Complete
import QueryPrep.Proofs.Json.Held

/-!
# Which values are rows

A value describes a row if it holds an id for it, which is a text, and for each of the other fields
nothing or something of the form of the field (`FilterRow.Describes`). Texts may be null. Kinds,
types and scopes are names, given as a text or as the only key of an object (`Value.IsName`); a kind
may not be null. A name that is not known is a kind and a type all the same, but no scope.

Main result: the rows of a list are what its well-formed values describe, in their order, and a
value that describes no row takes no part in it (`FilterRow.forall₂_describes_ofValues`).
-/

namespace QueryPrep

namespace Json

/-- A value that gives a name: a text, or an object that has no other key and holds null for it. -/
inductive Value.IsName (name : String) : Value → Prop where
  | text : IsName name (.string name)
  | key {before : List (String × Value)} (h : ∀ m ∈ before, m.1 = name) :
      IsName name (.object (before ++ [(name, .null)]))

variable {v : Value}

theorem Node.text_toNode_eq_ok_iff {s : String} : v.toNode.text = .ok s ↔ v = .string s := by
  rcases v with - | - | (- | -) | - | - | - <;> simp [Value.toNode, text]

theorem Value.lastMembers_ne_nil {κ α : Type} [DecidableEq κ] (m : κ × α) (ms : List (κ × α)) :
    lastMembers (m :: ms) ≠ [] := by
  induction ms generalizing m with
  | nil => simp [lastMembers]
  | cons n ms ih =>
      rw [lastMembers]
      split_ifs
      · exact ih n
      · exact List.cons_ne_nil _ _

/-- One member is left exactly if all of them have its key and it is the last one. -/
theorem Value.lastMembers_eq_singleton_iff {κ α : Type} [DecidableEq κ] {ms : List (κ × α)} {k : κ}
    {a : α} : lastMembers ms = [(k, a)] ↔
      ∃ before, ms = before ++ [(k, a)] ∧ ∀ m ∈ before, m.1 = k := by
  constructor
  · intro h
    induction ms with
    | nil => cases h
    | cons m ms ih =>
        rw [lastMembers] at h
        split_ifs at h with hlater
        · obtain ⟨before, rfl, hbefore⟩ := ih h
          refine ⟨m :: before, rfl, List.forall_mem_cons.mpr ⟨?_, hbefore⟩⟩
          simp only [any_key_iff, List.map_append, List.mem_append, List.map_cons, List.map_nil,
            List.mem_singleton] at hlater
          rcases hlater with hmem | hk
          · obtain ⟨n, hn, hkey⟩ := List.mem_map.mp hmem
            exact hkey ▸ hbefore n hn
          · exact hk
        · obtain ⟨hm, hnil⟩ := List.cons.inj h
          obtain rfl : m = (k, a) := hm
          rcases ms with - | ⟨n, ms⟩
          · exact ⟨[], rfl, List.forall_mem_nil _⟩
          · exact absurd hnil (lastMembers_ne_nil n ms)
  · rintro ⟨before, rfl, hbefore⟩
    induction before with
    | nil => rfl
    | cons m before ih =>
        obtain ⟨hm, hbefore⟩ := List.forall_mem_cons.mp hbefore
        rw [List.cons_append, lastMembers, if_pos, ih hbefore]
        rw [any_key_iff, hm]
        simp

theorem Value.isName_object_iff {ms : List (String × Value)} {name : String} :
    (object ms).IsName name ↔ lastMembers ms = [(name, null)] := by
  rw [lastMembers_eq_singleton_iff]
  constructor
  · intro h
    cases h with
    | key hbefore => exact ⟨_, rfl, hbefore⟩
  · rintro ⟨before, rfl, h⟩
    exact .key h

theorem Node.choice_toMembers_eq_ok_iff {α : Type} {ofName : String → Option α} {a : α}
    {ms : List (String × Value)} : choice ofName (.object (Value.toMembers ms) true) = .ok a ↔
      ∃ name, ms = [(name, .null)] ∧ ofName name = some a := by
  rcases ms with - | ⟨⟨k, w⟩, ms⟩
  · simp [Value.toMembers, choice]
  · simp only [Value.toMembers, List.cons.injEq, Prod.mk.injEq]
    rcases hname : ofName k with - | b
    · have hread : choice ofName (.object ((some k, w.toNode) :: Value.toMembers ms) true) =
          .error .mismatch := by
        simp [choice, hname]
      rw [hread]
      constructor
      · rintro ⟨⟩
      · rintro ⟨_, ⟨⟨rfl, -⟩, -⟩, hb⟩
        simp [hname] at hb
    · cases w with
      | null => cases ms <;> simp [Value.toNode, Value.toMembers, choice, hname]
      | number x => cases x <;> simp [Value.toNode, choice, hname]
      | bool | string | array | object => simp [Value.toNode, choice, hname]

theorem Node.choice_toNode_eq_ok_iff {α : Type} {ofName : String → Option α} {a : α} :
    choice ofName v.toNode = .ok a ↔ ∃ name, v.IsName name ∧ ofName name = some a := by
  have hother : (∀ s, v ≠ .string s) → (∀ ms, v ≠ .object ms) → ∀ name, ¬ v.IsName name := by
    rintro htext hobject name (- | h)
    · exact htext _ rfl
    · exact hobject _ rfl
  cases v with
  | string s =>
      have hname : ∀ name, (Value.string s).IsName name ↔ name = s := fun name =>
        ⟨fun h => by cases h; rfl, fun h => h ▸ .text⟩
      rcases hs : ofName s with - | b <;> simp [Value.toNode, choice, hname, hs]
  | object ms =>
      rw [Value.toNode_object, choice_toMembers_eq_ok_iff]
      simp only [Value.isName_object_iff]
  | number x =>
      cases x <;> simp [Value.toNode, choice, hother]
  | null | bool | array => simp [Value.toNode, choice, hother]

/-- What may be missing or null, which is nothing, or else has the form that is wanted. -/
inductive Value.May {α : Type} (Form : α → Value → Prop) : Option Value → Option α → Prop where
  | missing : May Form none none
  | null : May Form (some null) none
  | present {v : Value} {a : α} (h : Form a v) : May Form (some v) (some a)

/-- A field that may be null. -/
theorem Value.exists_made_orNull_iff {α : Type} {read : Node → Except Fault α}
    {Form : α → Value → Prop} (hread : ∀ v a, read (toNode v) = .ok a ↔ Form a v)
    (hnull : ∀ a, ¬ Form a null) {held : Option Value} {x : Option α} :
    (∃ y, Shape.Made (Node.orNull read) held y ∧ y.join = x) ↔ May Form held x := by
  have hvalue : ∀ {v : Value} {y : Option α}, Node.orNull read v.toNode = .ok y ↔
      v = null ∧ y = none ∨ ∃ a, Form a v ∧ y = some a := by
    intro v y
    by_cases hv : v = null
    · subst hv
      simp [toNode, Node.orNull, hnull, eq_comm]
    · have hmap : Node.orNull read v.toNode = some <$> read v.toNode := by
        rcases v with - | - | (- | -) | - | - | - <;> first | rfl | exact absurd rfl hv
      rw [hmap]
      simp only [hv, false_and, false_or, ← hread]
      rcases read v.toNode with e | a <;> simp [eq_comm]
  constructor
  · rintro ⟨_, - | h, rfl⟩
    · exact .missing
    · rcases hvalue.mp h with ⟨rfl, rfl⟩ | ⟨a, ha, rfl⟩
      · exact .null
      · exact .present ha
  · rintro (- | - | h)
    · exact ⟨none, .missing, rfl⟩
    · exact ⟨some none, .read (hvalue.mpr (.inl ⟨rfl, rfl⟩)), rfl⟩
    · exact ⟨some (some _), .read (hvalue.mpr (.inr ⟨_, h, rfl⟩)), rfl⟩

end Json

/-! ### Names -/

/-- A kind is static unless it is said to be another one. -/
inductive RowKind.Says : Option Json.Value → RowKind → Prop where
  | missing : Says none static
  | static {v : Json.Value} (h : v.IsName "static") : Says (some v) static
  | dynamic {v : Json.Value} {name : String} (h : v.IsName name) (hname : name ≠ "static") :
      Says (some v) dynamic

/-- The type of values that a name stands for; a name that is not known stands for another type. -/
def ValueType.IsNamed (t : ValueType) (name : String) : Prop :=
  name = t.name ∨ t = other ∧ ∀ u : ValueType, name ≠ u.name

theorem ValueType.ofName_of_unknown {name : String} (h : ∀ u : ValueType, name ≠ u.name) :
    ofName name = other := by
  refine ofName_of_not_mem fun hmem => ?_
  have hnames : name ∈ [string, integer, float, duration, boolean, keyword].map ValueType.name :=
    hmem
  obtain ⟨u, -, hu⟩ := List.mem_map.mp hnames
  exact h u hu.symm

theorem ValueType.ofName_eq_iff {name : String} {t : ValueType} :
    ofName name = t ↔ t.IsNamed name := by
  constructor
  · rintro rfl
    by_cases hknown : ∃ u : ValueType, name = u.name
    · obtain ⟨u, rfl⟩ := hknown
      exact .inl (congrArg _ (ofName_name u)).symm
    · rw [not_exists] at hknown
      exact .inr ⟨ofName_of_unknown hknown, hknown⟩
  · rintro (rfl | ⟨rfl, hunknown⟩)
    · exact ofName_name t
    · exact ofName_of_unknown hunknown

theorem TagScope.ofName?_eq_some_iff {name : String} {s : TagScope} :
    ofName? name = some s ↔ name = s.name := by
  constructor
  · intro h
    exact (of_decide_eq_true (List.find?_some h :)).symm
  · rintro rfl
    exact ofName?_name s

namespace FilterRow

open QueryPrep.Json

/-- `Describes v row`: the value is an object, or an array that has at most an item for each field
of a row, and the row is what it holds for them. Without an id it describes no row. -/
structure Describes (v : Value) (row : FilterRow) : Prop where
  form : v.IsRecord 7
  id : v.held? "id" 0 = some (.string row.id)
  kind : RowKind.Says (v.held? "type" 1) row.kind
  tag : Value.May (fun s w => w = .string s) (v.held? "tag" 2) row.tag
  operator : Value.May (fun s w => w = .string s) (v.held? "operator" 3) row.operator
  value : Value.May (fun s w => w = .string s) (v.held? "value" 4) row.value
  valueType : Value.May (fun t w => ∃ name, w.IsName name ∧ t.IsNamed name)
    (v.held? "valueType" 5) row.valueType
  scope : Value.May (fun s w => w.IsName s.name) (v.held? "scope" 6) row.scope

variable {v : Value} {row : FilterRow}

/-! ### Reading -/

/-- Where the fields of a row are written. -/
def Draft.places : List (Shape.Place Draft) := [
  ⟨"id", Node.text, (·.id), fun s d => { d with id := some s }, fun _ _ => rfl⟩,
  ⟨"type", readKind, (·.kind), fun k d => { d with kind := some k }, fun _ _ => rfl⟩,
  ⟨"tag", Node.orNull Node.text, (·.tag), fun s d => { d with tag := some s }, fun _ _ => rfl⟩,
  ⟨"operator", Node.orNull Node.text, (·.operator), fun s d => { d with operator := some s },
    fun _ _ => rfl⟩,
  ⟨"value", Node.orNull Node.text, (·.value), fun s d => { d with value := some s },
    fun _ _ => rfl⟩,
  ⟨"valueType", Node.orNull readValueType, (·.valueType),
    fun t d => { d with valueType := some t }, fun _ _ => rfl⟩,
  ⟨"scope", Node.orNull readScope, (·.scope), fun s d => { d with scope := some s },
    fun _ _ => rfl⟩]

theorem fields_eq_map_places : shape.fields = Draft.places.map Shape.Place.field :=
  rfl

theorem pairwise_apart_places : Draft.places.Pairwise Shape.Place.Apart := by
  simp only [Draft.places, List.pairwise_cons, List.forall_mem_cons, List.not_mem_nil,
    false_imp_iff, implies_true, List.Pairwise.nil, and_true]
  and_intros <;> exact ⟨fun _ _ => rfl, fun _ _ => rfl, fun _ _ _ => rfl⟩

theorem pairwise_apart_fields : shape.fields.Pairwise Shape.Apart :=
  Shape.Place.pairwise_apart_field pairwise_apart_places

/-- A draft is what is found at its places. -/
theorem Draft.ext_places {d e : Draft} (h : ∀ p ∈ places, p.get e = p.get d) : e = d := by
  simp only [places, List.forall_mem_cons, List.not_mem_nil, false_imp_iff, implies_true,
    and_true] at h
  cases d
  cases e
  rw [Draft.mk.injEq]
  exact h

/-- A draft that is made of what a value holds. -/
theorem fill?_eq_some_iff {d : Draft} : Shape.fill? (v.heldFor shape.fields) .empty = some d ↔
    Shape.Made Node.text (v.held? "id" 0) d.id ∧ Shape.Made readKind (v.held? "type" 1) d.kind ∧
      Shape.Made (Node.orNull Node.text) (v.held? "tag" 2) d.tag ∧
      Shape.Made (Node.orNull Node.text) (v.held? "operator" 3) d.operator ∧
      Shape.Made (Node.orNull Node.text) (v.held? "value" 4) d.value ∧
      Shape.Made (Node.orNull readValueType) (v.held? "valueType" 5) d.valueType ∧
      Shape.Made (Node.orNull readScope) (v.held? "scope" 6) d.scope := by
  have hfree : ∀ p ∈ Draft.places, p.get .empty = none := by
    simp [Draft.places, Draft.empty]
  rw [fields_eq_map_places, Shape.Place.fill?_heldFor_eq_some_iff pairwise_apart_places hfree
    fun _ => Draft.ext_places]
  simp only [Draft.places, Shape.Place.heldFor, List.mapIdx_cons, List.mapIdx_nil,
    List.forall_mem_cons, List.not_mem_nil, false_imp_iff, implies_true, and_true]

theorem finish_eq_some_iff {d : Draft} : d.finish = some row ↔ d.id = some row.id ∧
    d.kind.getD .standard = row.kind ∧ d.tag.join = row.tag ∧ d.operator.join = row.operator ∧
      d.value.join = row.value ∧ d.valueType.join = row.valueType ∧ d.scope.join = row.scope := by
  obtain ⟨id, kind, tag, operator, value, valueType, scope⟩ := row
  simp [Draft.finish]

theorem exists_made_kind_iff {held : Option Value} {kind : RowKind} :
    (∃ x, Shape.Made readKind held x ∧ x.getD .standard = kind) ↔ RowKind.Says held kind := by
  have hread : ∀ {w : Value} {k : RowKind},
      readKind w.toNode = .ok k ↔ ∃ name, w.IsName name ∧ RowKind.ofName name = k := by
    simp [readKind, Node.choice_toNode_eq_ok_iff]
  constructor
  · rintro ⟨_, - | h, rfl⟩
    · exact .missing
    · obtain ⟨name, hname, rfl⟩ := hread.mp h
      by_cases hstatic : name = "static"
      · subst hstatic
        exact .static hname
      · rw [Option.getD_some, RowKind.ofName, if_neg hstatic]
        exact .dynamic hname hstatic
  · rintro (- | h | ⟨h, hname⟩)
    · exact ⟨none, .missing, rfl⟩
    · exact ⟨some .static, .read (hread.mpr ⟨_, h, rfl⟩), rfl⟩
    · exact ⟨some .dynamic, .read (hread.mpr ⟨_, h, if_neg hname⟩), rfl⟩

theorem made_id_iff {held : Option Value} {id : String} :
    Shape.Made Node.text held (some id) ↔ held = some (.string id) := by
  constructor
  · rintro (- | h)
    rw [Node.text_toNode_eq_ok_iff.mp h]
  · rintro rfl
    exact .read (Node.text_toNode_eq_ok_iff.mpr rfl)

theorem exists_made_text_iff {held : Option Value} {x : Option String} :
    (∃ y, Shape.Made (Node.orNull Node.text) held y ∧ y.join = x) ↔
      Value.May (fun s w => w = .string s) held x :=
  Value.exists_made_orNull_iff (fun _ _ => Node.text_toNode_eq_ok_iff) (by simp)

theorem exists_made_valueType_iff {held : Option Value} {x : Option ValueType} :
    (∃ y, Shape.Made (Node.orNull readValueType) held y ∧ y.join = x) ↔
      Value.May (fun t w => ∃ name, w.IsName name ∧ t.IsNamed name) held x := by
  apply Value.exists_made_orNull_iff
  · simp [readValueType, Node.choice_toNode_eq_ok_iff, ValueType.ofName_eq_iff]
  · rintro t ⟨_, ⟨⟩, -⟩

theorem exists_made_scope_iff {held : Option Value} {x : Option TagScope} :
    (∃ y, Shape.Made (Node.orNull readScope) held y ∧ y.join = x) ↔
      Value.May (fun s w => w.IsName s.name) held x := by
  apply Value.exists_made_orNull_iff
  · simp [readScope, Node.choice_toNode_eq_ok_iff, TagScope.ofName?_eq_some_iff]
  · rintro s ⟨⟩

/-- **A value is read as the row that it describes.** -/
theorem ofValue?_eq_some_iff : ofValue? v = some row ↔ Describes v row := by
  have hread : ofValue? v = some row ↔ v.IsRecord 7 ∧ ∃ d,
      Shape.fill? (v.heldFor shape.fields) .empty = some d ∧ d.finish = some row := by
    rw [ofValue?, toOption_eq_some_iff]
    exact Shape.read_toNode_eq_ok_iff (by decide) pairwise_apart_fields
      (by simp [shape, Draft.empty])
  rw [hread]
  simp only [fill?_eq_some_iff, finish_eq_some_iff]
  constructor
  · rintro ⟨hform, d, ⟨hid, hkind, htag, hoperator, hvalue, hvalueType, hscope'⟩,
      hid', hkind', htag', hoperator', hvalue', hvalueType', hscope''⟩
    exact {
      form := hform
      id := made_id_iff.mp (hid' ▸ hid)
      kind := exists_made_kind_iff.mp ⟨_, hkind, hkind'⟩
      tag := exists_made_text_iff.mp ⟨_, htag, htag'⟩
      operator := exists_made_text_iff.mp ⟨_, hoperator, hoperator'⟩
      value := exists_made_text_iff.mp ⟨_, hvalue, hvalue'⟩
      valueType := exists_made_valueType_iff.mp ⟨_, hvalueType, hvalueType'⟩
      scope := exists_made_scope_iff.mp ⟨_, hscope', hscope''⟩ }
  · intro h
    obtain ⟨kind, hkind, hkind'⟩ := exists_made_kind_iff.mpr h.kind
    obtain ⟨tag, htag, htag'⟩ := exists_made_text_iff.mpr h.tag
    obtain ⟨operator, hoperator, hoperator'⟩ := exists_made_text_iff.mpr h.operator
    obtain ⟨value, hvalue, hvalue'⟩ := exists_made_text_iff.mpr h.value
    obtain ⟨valueType, hvalueType, hvalueType'⟩ := exists_made_valueType_iff.mpr h.valueType
    obtain ⟨scope, hscope, hscope'⟩ := exists_made_scope_iff.mpr h.scope
    exact ⟨h.form, ⟨some row.id, kind, tag, operator, value, valueType, scope⟩,
      ⟨made_id_iff.mpr h.id, hkind, htag, hoperator, hvalue, hvalueType, hscope⟩,
      rfl, hkind', htag', hoperator', hvalue', hvalueType', hscope'⟩

/-! ### Lists -/

/-- The value describes a row. -/
def IsRow (v : Value) : Prop :=
  ∃ row, Describes v row

theorem isSome_ofValue?_iff : (ofValue? v).isSome = true ↔ IsRow v := by
  simp only [Option.isSome_iff_exists, ofValue?_eq_some_iff, IsRow]

instance (v : Value) : Decidable (IsRow v) :=
  decidable_of_iff _ isSome_ofValue?_iff

/-- What a value describes is one row. -/
theorem Describes.unique {row' : FilterRow} (h : Describes v row) (h' : Describes v row') :
    row = row' :=
  Option.some.inj ((ofValue?_eq_some_iff.mpr h).symm.trans (ofValue?_eq_some_iff.mpr h'))

theorem ofValue?_eq_none (h : ¬ IsRow v) : ofValue? v = none := by
  rwa [← isSome_ofValue?_iff, Option.not_isSome_iff_eq_none] at h

/-- Of the values that describe a row there is the row, and there are no other rows. -/
theorem forall₂_describes_ofValues (vs : List Value) :
    List.Forall₂ Describes (vs.filter (IsRow ·)) (ofValues vs) := by
  induction vs with
  | nil => exact .nil
  | cons v vs ih =>
      by_cases h : IsRow v
      · have hkept : (v :: vs).filter (IsRow ·) = v :: vs.filter (IsRow ·) :=
          List.filter_cons_of_pos (decide_eq_true h)
        obtain ⟨row, hrow⟩ := h
        rw [hkept, ofValues, List.filterMap_cons_some (ofValue?_eq_some_iff.mpr hrow)]
        exact .cons hrow ih
      · rw [List.filter_cons_of_neg (by simpa using h), ofValues,
          List.filterMap_cons_none (ofValue?_eq_none h)]
        exact ih

/-- What is no row takes no part. -/
theorem ofValues_append_cons_of_not_isRow {bad : Value} (h : ¬ IsRow bad)
    (before behind : List Value) :
    ofValues (before ++ bad :: behind) = ofValues before ++ ofValues behind := by
  rw [ofValues, List.filterMap_append, List.filterMap_cons_none (ofValue?_eq_none h)]
  rfl

/-- Values of a type that is not known stand in the query as they are. -/
theorem written_of_other (h : row.valueType = some .other) (value : String) :
    row.written value = value := by
  rw [written_eq, if_neg]
  simp [IsTextual, h]

/-- **Exactly the well-formed values of a list are kept**, in order, each as the one row that it
describes. A value that is no row may be put anywhere, taken away or exchanged for another one:
neither the rows of the other values change nor the query. -/
theorem ofValues_keeps_rows {before behind : List Value} {bad bad' : Value} (hbad : ¬ IsRow bad)
    (hbad' : ¬ IsRow bad') :
    (∀ vs, List.Forall₂ Describes (vs.filter (IsRow ·)) (ofValues vs)) ∧
      (∀ v row row', Describes v row → Describes v row' → row = row') ∧
      (∀ v row, Describes v row → row.valueType = some .other →
        ∀ value, row.written value = value) ∧
      (∀ vs ∈ [before ++ behind, before ++ bad :: behind, before ++ bad' :: behind],
        ofValues vs = ofValues before ++ ofValues behind ∧
          Query.compile (ofValues vs) = Query.compile (ofValues before ++ ofValues behind)) := by
  refine ⟨forall₂_describes_ofValues, fun _ _ _ => Describes.unique,
    fun _ _ _ => written_of_other, ?_⟩
  have hrows : ∀ vs ∈ [before ++ behind, before ++ bad :: behind, before ++ bad' :: behind],
      ofValues vs = ofValues before ++ ofValues behind := by
    simp only [List.forall_mem_cons, ofValues_append_cons_of_not_isRow hbad,
      ofValues_append_cons_of_not_isRow hbad', List.not_mem_nil, false_imp_iff, implies_true,
      and_true]
    exact List.filterMap_append
  exact fun vs hvs => ⟨hrows vs hvs, congrArg _ (hrows vs hvs)⟩

/-- A kind that is not known, as the only key of an object, and a row as an array, with a null and a
type that is not known; between them a scope that is not known, or no value at all. -/
theorem ofValues_keeps_rows_mixed :
    let before : List Value := [.object [("id", .string "a"), ("type", .object [("pinned", .null)]),
      ("colour", .bool true)]]
    let behind : List Value := [.array [.string "b", .string "static", .string "n", .null,
      .string "3", .string "uint"]]
    let bad : Value := .object [("id", .string "c"), ("scope", .string "event")]
    let bad' : Value := .array []
    let rows : List FilterRow := [.new "a" .dynamic, ((FilterRow.new "b" .static).withTag "n"
      |>.withValue "3" |>.withValueType .other)]
    ¬ IsRow bad ∧ ¬ IsRow bad' ∧ ofValues before ++ ofValues behind = rows ∧
      ofValues (before ++ bad :: behind) = rows ∧ ofValues (before ++ bad' :: behind) = rows ∧
      List.Forall₂ Describes ((before ++ bad :: behind).filter (IsRow ·)) rows := by
  intro before behind bad bad' rows
  have hbad : ¬ IsRow bad := by decide +kernel
  have hbad' : ¬ IsRow bad' := by decide +kernel
  have hrows : ofValues before ++ ofValues behind = rows := by decide +kernel
  obtain ⟨hkept, -, -, hlists⟩ := @ofValues_keeps_rows before behind bad bad' hbad hbad'
  simp only [List.forall_mem_cons, hrows] at hlists
  refine ⟨hbad, hbad', hrows, hlists.2.1.1, hlists.2.2.1.1, ?_⟩
  have hall := hkept (before ++ bad :: behind)
  rwa [hlists.2.1.1] at hall

end FilterRow

end QueryPrep
