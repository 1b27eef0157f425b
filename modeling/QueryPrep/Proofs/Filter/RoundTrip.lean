import QueryPrep.Filter.Reading
import QueryPrep.Proofs.Json.Kept
import QueryPrep.Proofs.Json.Writing

/-!
# Rows survive being written

A row is written as an object of texts, one for each field that is there, and what is written is
read as this row again, be it from the text itself or from the value of the text
(`FilterRow.parse_render`, `FilterRow.ofValue?_toValue`). Writing and reading do not mirror each
other: a field that is absent is not written, and a kind or a type of values with a name that is not
known is read as dynamic or as other (`FilterRow.kind_of_held`, `FilterRow.valueType_of_held`). So a
value may be written back as another one, but the row that has been read from it stays.

Main result: `FilterRow.survives_writing`.
-/

namespace QueryPrep

/-! ### Objects of texts -/

namespace Json

/-- An object whose members are texts. -/
def Value.ofTexts (ts : List (String × String)) : Value :=
  .object (ts.map fun t => (t.1, .string t.2))

/-- The members of an object of texts, as they are read. -/
def Node.textMembers (ts : List (String × String)) : List (Option String × Node) :=
  ts.map fun t => (some t.1, .string (some t.2))

variable {ts us : List (String × String)}

theorem Value.isPlain_ofTexts (ts : List (String × String)) : (ofTexts ts).isPlain = true := by
  induction ts with
  | nil => rfl
  | cons t ts ih => exact ih

theorem Value.depth_ofTexts (ts : List (String × String)) : (ofTexts ts).depth = 1 := by
  induction ts with
  | nil => rfl
  | cons t ts ih =>
      rw [ofTexts, depth] at ih ⊢
      exact (congrArg (1 + ·) (Nat.zero_max _)).trans ih

theorem Node.eq_textMembers {ms : List (Option String × Node)}
    (h : memberMeanings? ms = some (ts.map fun t => (t.1, .string t.2))) : ms = textMembers ts := by
  induction ts generalizing ms with
  | nil =>
      cases ms with
      | nil => rfl
      | cons m ms =>
          obtain ⟨_, _, _, _, _, _, hcons⟩ := memberMeanings?_cons_eq_some_iff.mp h
          cases hcons
  | cons t ts ih =>
      cases ms with
      | nil => cases h
      | cons m ms =>
          obtain ⟨k, n⟩ := m
          obtain ⟨key, v, rest, rfl, hn, hrest, hcons⟩ := memberMeanings?_cons_eq_some_iff.mp h
          obtain ⟨hmember, rfl⟩ := List.cons.inj hcons
          obtain ⟨rfl, rfl⟩ := Prod.mk.inj hmember
          rw [ih hrest, meaning?_eq_string_iff.mp hn]
          rfl

/-- The only tree of an object of texts. -/
theorem Node.eq_of_meaning?_ofTexts {n : Node} (h : n.meaning? = some (Value.ofTexts ts)) :
    n = .object (textMembers ts) true := by
  obtain ⟨ms, rfl, hms⟩ := meaning?_eq_object_iff.mp h
  rw [eq_textMembers hms]

theorem Value.toNode_ofTexts (h : (ts.map Prod.fst).Nodup) :
    (ofTexts ts).toNode = .object (Node.textMembers ts) true := by
  have hmembers : toMembers (ts.map fun t => (t.1, .string t.2)) = Node.textMembers ts := by
    rw [toMembers_eq_map, List.map_map]
    rfl
  have hkeys : ((Node.textMembers ts).map Prod.fst).Nodup := by
    have hmap : (Node.textMembers ts).map Prod.fst = (ts.map Prod.fst).map some := by
      simp [Node.textMembers, Function.comp_def]
    rw [hmap]
    exact h.map fun _ _ => Option.some.inj
  change Node.object (lastMembers (toMembers _)) true = _
  rw [hmembers, lastMembers_of_nodup hkeys]

/-- A value that gives a name: as a text, or as the only key of an object. -/
inductive Value.Names (name : String) : Value → Prop where
  | text : Names name (.string name)
  | key : Names name (.object [(name, .null)])

theorem Node.choice_of_names {α : Type} {ofName : String → Option α} {w : Value} {name : String}
    {a : α} (hw : w.Names name) (ha : ofName name = some a) : choice ofName w.toNode = .ok a := by
  cases hw with
  | text => simp [Value.toNode, choice, ha]
  | key =>
      change choice ofName (.object [(some name, .null)] true) = .ok a
      simp [choice, ha]

theorem Node.orNull_of_names {α : Type} {w : Value} {name : String} (hw : w.Names name)
    (read : Node → Except Fault α) : orNull read w.toNode = some <$> read w.toNode := by
  cases hw <;> rfl

end Json

namespace FilterRow

open QueryPrep.Json

/-- The texts of a row: the name of each field that is there, with its content. -/
def texts (row : FilterRow) : List (String × String) :=
  [("id", row.id), ("type", row.kind.name)] ++ (row.tag.toList.map fun s => ("tag", s)) ++
    (row.operator.toList.map fun s => ("operator", s)) ++
    (row.value.toList.map fun s => ("value", s)) ++
    (row.valueType.toList.map fun t => ("valueType", t.name)) ++
    (row.scope.toList.map fun s => ("scope", s.name))

theorem toValue_eq (row : FilterRow) : row.toValue = .ofTexts row.texts := by
  simp [toValue, texts, Value.ofTexts, Function.comp_def]

/-- No field is written twice. -/
theorem nodup_texts (row : FilterRow) : (row.texts.map Prod.fst).Nodup := by
  have hfield : ∀ {β : Type} (o : Option β) (name : String) (text : β → String),
      ((o.toList.map fun b => (name, text b)).map Prod.fst).Sublist [name] := by
    intro β o name text
    cases o with
    | none => exact List.nil_sublist _
    | some b => exact List.Sublist.refl _
  have hnames : (row.texts.map Prod.fst).Sublist
      ((((["id", "type"] ++ ["tag"]) ++ ["operator"]) ++ ["value"] ++ ["valueType"]) ++
        ["scope"]) := by
    simp only [texts, List.map_append]
    refine .append (.append (.append (.append (.append (.refl _) ?_) ?_) ?_) ?_) ?_
    · exact hfield row.tag "tag" fun s => s
    · exact hfield row.operator "operator" fun s => s
    · exact hfield row.value "value" fun s => s
    · exact hfield row.valueType "valueType" ValueType.name
    · exact hfield row.scope "scope" TagScope.name
  exact hnames.nodup (by decide)

/-! ### Reading what was written -/

/-- The draft that a row is finished from. -/
def Draft.ofRow (row : FilterRow) : Draft where
  id := some row.id
  kind := some row.kind
  tag := row.tag.map some
  operator := row.operator.map some
  value := row.value.map some
  valueType := row.valueType.map some
  scope := row.scope.map some

theorem Draft.finish_ofRow (row : FilterRow) : (ofRow row).finish = some row := by
  have hjoin : ∀ {β : Type} (o : Option β), (o.map some).join = o := by
    intro β o
    cases o <;> rfl
  simp [finish, ofRow, hjoin]

theorem readMembers_textMembers_append {ts us : List (String × String)} {d d₁ d₂ : Draft}
    (h : Shape.readMembers shape.fields (Node.textMembers ts) d = .ok d₁)
    (h' : Shape.readMembers shape.fields (Node.textMembers us) d₁ = .ok d₂) :
    Shape.readMembers shape.fields (Node.textMembers (ts ++ us)) d = .ok d₂ := by
  rw [Node.textMembers, List.map_append, Shape.readMembers_append]
  exact bind_eq_ok_iff.mpr ⟨d₁, h, h'⟩

theorem readMembers_new (id : String) (kind : RowKind) : Shape.readMembers shape.fields
    (Node.textMembers [("id", id), ("type", kind.name)]) .empty = .ok (.ofRow (.new id kind)) := by
  cases kind <;> rfl

/-- A field that may be absent. -/
theorem readMembers_optional {β : Type} (o : Option β) (text : β → String × String)
    (row : Option β → FilterRow) (h : ∀ b, Shape.readMember shape.fields (some (text b).1)
      (.string (some (text b).2)) (.ofRow (row none)) = .ok (.ofRow (row (some b)))) :
    Shape.readMembers shape.fields (Node.textMembers (o.toList.map text)) (.ofRow (row none)) =
      .ok (.ofRow (row o)) := by
  cases o with
  | none => rfl
  | some b => exact congrArg (· >>= _) (h b)

/-- **An object of the texts of a row is read as this row.** -/
theorem read_texts (row : FilterRow) :
    shape.read (.object (Node.textMembers row.texts) true) = .ok row := by
  -- the row as far as it has been read
  let r₀ : FilterRow := .new row.id row.kind
  let r₁ : FilterRow := { r₀ with tag := row.tag }
  let r₂ : FilterRow := { r₁ with operator := row.operator }
  let r₃ : FilterRow := { r₂ with value := row.value }
  let r₄ : FilterRow := { r₃ with valueType := row.valueType }
  have hnew := readMembers_new row.id row.kind
  have htag := readMembers_optional row.tag (fun s => ("tag", s))
    (fun o => { r₀ with tag := o }) fun _ => rfl
  have hoperator := readMembers_optional row.operator (fun s => ("operator", s))
    (fun o => { r₁ with operator := o }) fun _ => rfl
  have hvalue := readMembers_optional row.value (fun s => ("value", s))
    (fun o => { r₂ with value := o }) fun _ => rfl
  have htype := readMembers_optional row.valueType (fun t => ("valueType", t.name))
    (fun o => { r₃ with valueType := o }) fun t => by cases t <;> rfl
  have hscope := readMembers_optional row.scope (fun s => ("scope", s.name))
    (fun o => { r₄ with scope := o }) fun s => by cases s <;> rfl
  have hread : Shape.readMembers shape.fields (Node.textMembers row.texts) .empty =
      .ok (.ofRow row) :=
    readMembers_textMembers_append (readMembers_textMembers_append
      (readMembers_textMembers_append (readMembers_textMembers_append
        (readMembers_textMembers_append hnew htag) hoperator) hvalue) htype) hscope
  change (Shape.readMembers shape.fields (Node.textMembers row.texts) .empty >>= _) = _
  rw [hread]
  change shape.finishDraft (.ofRow row) = _
  rw [Shape.finishDraft, show shape.finish (.ofRow row) = some row from Draft.finish_ofRow row]

section

variable (row : FilterRow)

theorem isText_render : row.toValue.IsText row.toValue.render.toList := by
  apply Value.isText_render
  rw [toValue_eq]
  exact Value.isPlain_ofTexts _

/-- **The text of a row is read as this row.** -/
theorem parse_render : parse row.toValue.render = .ok row := by
  obtain ⟨n, hn, hdocument⟩ := row.isText_render.document
  rw [toValue_eq] at hn
  obtain rfl := Node.eq_of_meaning?_ofTexts hn
  rw [parse, Document.read, hdocument]
  simp [read_texts, bind, Except.bind]

/-- **The value of a row is read as this row.** -/
theorem ofValue?_toValue : ofValue? row.toValue = some row := by
  rw [ofValue?, toValue_eq, Value.toNode_ofTexts row.nodup_texts, read_texts]
  rfl

theorem ofText?_render : Value.ofText? row.toValue.render = some row.toValue := by
  apply row.isText_render.ofText?
  rw [toValue_eq, Value.depth_ofTexts]
  decide

end

/-- **The rows of a list are read from its text**, in the same order. -/
theorem exists_ofValues_eq (rows : List FilterRow) : ∃ vs,
    Value.ofText? (Value.array (rows.map toValue)).render = some (.array vs) ∧
      ofValues vs = rows := by
  refine ⟨rows.map toValue, ?_, ?_⟩
  · have hplain : (Value.array (rows.map toValue)).isPlain = true := by
      rw [Value.isPlain, Value.itemsArePlain_iff]
      intro v hv
      obtain ⟨row, -, rfl⟩ := List.mem_map.mp hv
      rw [toValue_eq]
      exact Value.isPlain_ofTexts _
    have hdepth : Value.itemsDepth (rows.map toValue) ≤ 1 := by
      apply Value.itemsDepth_le
      intro v hv
      obtain ⟨row, -, rfl⟩ := List.mem_map.mp hv
      rw [toValue_eq, Value.depth_ofTexts]
    apply (Value.isText_render hplain).ofText?
    rw [Value.depth, Node.maxLevels]
    omega
  · rw [ofValues, List.filterMap_map]
    exact (List.filterMap_congr fun row _ => row.ofValue?_toValue).trans List.filterMap_some

/-! ### Names that are not known -/

/-- A field changes nothing in a draft but its own part. -/
theorem keeps_of_read {g : RecordField Draft} (hg : g ∈ shape.fields) {n : Node} {d d' : Draft}
    (h : g.read n d = .ok d') : (g.name ≠ "type" → d'.kind = d.kind) ∧
      (g.name ≠ "valueType" → d'.valueType = d.valueType) := by
  simp only [shape, List.mem_cons, List.not_mem_nil, or_false] at hg
  rcases hg with rfl | rfl | rfl | rfl | rfl | rfl | rfl <;>
    obtain ⟨x, -, hx⟩ := bind_eq_ok_iff.mp h <;> obtain rfl := Except.ok.inj hx <;> simp

variable {v w : Value} {row : FilterRow} {name : String}

theorem read_of_ofValue? (h : ofValue? v = some row) : shape.read v.toNode = .ok row := by
  rw [ofValue?] at h
  rcases hread : shape.read v.toNode with f | row'
  · rw [hread] at h
    cases h
  · rw [hread] at h
    exact congrArg _ (Option.some.inj h)

/-- The kind of a row is the one that its name stands for. -/
theorem kind_of_held (h : ofValue? v = some row) (hw : w.IsHeldAs "type" 1 v)
    (hname : w.Names name) : row.kind = .ofName name := by
  have hchoice : readKind w.toNode = .ok (.ofName name) := Node.choice_of_names hname rfl
  obtain ⟨d, hd, hfinish⟩ := Shape.exists_of_read_held
    (P := fun d => d.kind = some (.ofName name)) (i := 1) (by decide) rfl
    (fun d hd => by simp [hd])
    (fun g hg hne n d d' hread hd => ((keeps_of_read hg hread).1 hne).trans hd)
    (fun d d' hread => by
      obtain rfl : { d with kind := some (.ofName name) } = d' := by
        simpa [hchoice, bind, Except.bind, pure, Except.pure] using hread
      rfl) hw (read_of_ofValue? h)
  obtain ⟨id, -, rfl⟩ := Option.map_eq_some_iff.mp hfinish
  exact congrArg (·.getD RowKind.standard) hd

/-- The type of values of a row is the one that its name stands for. -/
theorem valueType_of_held (h : ofValue? v = some row) (hw : w.IsHeldAs "valueType" 5 v)
    (hname : w.Names name) : row.valueType = some (.ofName name) := by
  have hchoice : w.toNode.orNull readValueType = .ok (some (.ofName name)) := by
    have hread : readValueType w.toNode = .ok (.ofName name) := Node.choice_of_names hname rfl
    rw [Node.orNull_of_names hname, hread]
    rfl
  obtain ⟨d, hd, hfinish⟩ := Shape.exists_of_read_held
    (P := fun d => d.valueType = some (some (.ofName name))) (i := 5) (by decide) rfl
    (fun d hd => by simp [hd])
    (fun g hg hne n d d' hread hd => ((keeps_of_read hg hread).2 hne).trans hd)
    (fun d d' hread => by
      obtain rfl : { d with valueType := some (some (.ofName name)) } = d' := by
        simpa [hchoice, bind, Except.bind, pure, Except.pure] using hread
      rfl) hw (read_of_ofValue? h)
  obtain ⟨id, -, rfl⟩ := Option.map_eq_some_iff.mp hfinish
  exact congrArg Option.join hd

/-! ### Writing and reading again -/

/-- **Rows survive being written**: a row is read again from its text, directly or through the value
of the text, alone or in a list. So a row that has been read from a value is the same when it is
written and read again, and so is its clause, although a kind or a type with a name that is not
known has become the dynamic kind or the other type. -/
theorem survives_writing :
    (∀ row : FilterRow, parse row.toValue.render = .ok row ∧
      (Value.ofText? row.toValue.render).bind ofValue? = some row) ∧
    (∀ rows : List FilterRow, ∃ vs,
      Value.ofText? (Value.array (rows.map toValue)).render = some (.array vs) ∧
        ofValues vs = rows) ∧
    ∀ (v : Value) (row : FilterRow), ofValue? v = some row →
      (Value.ofText? row.toValue.render).bind ofValue? = some row ∧
      ((Value.ofText? row.toValue.render).bind ofValue?).map render? = some row.render? ∧
      (∀ (w : Value) (name : String), w.IsHeldAs "type" 1 v → w.Names name → name ≠ "static" →
        row.kind = .dynamic) ∧
      ∀ (w : Value) (name : String), w.IsHeldAs "valueType" 5 v → w.Names name →
        name ∉ ["string", "integer", "float", "duration", "boolean", "keyword"] →
        row.valueType = some .other := by
  have hagain : ∀ row : FilterRow, (Value.ofText? row.toValue.render).bind ofValue? = some row := by
    intro row
    rw [row.ofText?_render]
    exact row.ofValue?_toValue
  refine ⟨fun row => ⟨row.parse_render, hagain row⟩, exists_ofValues_eq, fun v row h => ?_⟩
  refine ⟨hagain row, ?_, fun w name hw hname hne => ?_, fun w name hw hname hne => ?_⟩
  · rw [hagain row]
    rfl
  · rw [kind_of_held h hw hname]
    exact if_neg hne
  · rw [valueType_of_held h hw hname, ValueType.ofName_of_not_mem hne]

/-- A row in the form of an array, with a kind and a type that are not known and an operator that is
empty, but not absent. -/
theorem survives_writing_unknown :
    let v : Value := .array [.string "", .string "pinned", .null, .string "", .string "\"\x01\\",
      .object [("uint", .null)]]
    let row : FilterRow := ⟨"", .dynamic, none, some "", some "\"\x01\\", some .other, none⟩
    ofValue? v = some row ∧ (Value.ofText? row.toValue.render).bind ofValue? = some row ∧
      row.kind = .dynamic ∧ row.valueType = some .other := by
  intro v row
  have hrow : ofValue? v = some row := by decide +kernel
  obtain ⟨hagain, -, hkind, htype⟩ := survives_writing.2.2 v row hrow
  exact ⟨hrow, hagain, hkind _ "pinned" (.item rfl) .text (by decide),
    htype _ "uint" (.item rfl) .key (by decide)⟩

end FilterRow

end QueryPrep
