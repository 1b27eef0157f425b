import Mathlib.Data.List.FinRange
import Mathlib.Data.List.Induction
import Mathlib.Data.List.Sort
import Mathlib.Logic.Equiv.Fin.Rotate
import QueryPrep.Proofs.Filter.Complete

/-!
# Rows that are edited

An editor makes a new row and then edits it, one field at a time, in any order and as often as it
likes, and at any moment the row may be asked for its clause. What is known of a row from its
history is `FilterRow.Holds`: it has the id and the kind it was made with, and for each field what
the last edit of this field said, or nothing (`last?`). One edit keeps this (`Holds.edit`), so every
row that comes about by editing has it (`holds_edited`), and no two rows have it of one history
(`Holds.unique`).

A history is only looked at field by field (`last?_filter`). So the order of edits matters within a
field and nowhere else (`filter_reorder`).

Main result: the last edit of each field counts, from it alone one can tell when the row is
complete, and only an edit of tag, operator or value makes a row complete or takes that away
(`FilterRow.edited_holds_last`).
-/

namespace QueryPrep.FilterRow

/-! ### Fields and edits -/

/-- The fields of a row that can be edited. -/
inductive Field where
  | tag
  | operator
  | value
  | valueType
  | scope
deriving DecidableEq, Repr

/-- What a field holds when it is there. -/
abbrev Field.Content : Field → Type
  | tag | operator | value => String
  | valueType => ValueType
  | scope => TagScope

/-- What a row has in a field. -/
def get (row : FilterRow) : (f : Field) → Option f.Content
  | .tag => row.tag
  | .operator => row.operator
  | .value => row.value
  | .valueType => row.valueType
  | .scope => row.scope

/-- An edit puts something new into one field. -/
inductive Edit where
  | tag (tag : String)
  | operator (operator : String)
  | value (value : String)
  | valueType (valueType : ValueType)
  | scope (scope : TagScope)
deriving DecidableEq, Repr

namespace Edit

/-- The field that is edited. -/
def field : Edit → Field
  | tag _ => .tag
  | operator _ => .operator
  | value _ => .value
  | valueType _ => .valueType
  | scope _ => .scope

/-- What the edit says of a field, if it is the one that is edited. -/
def about? : (f : Field) → Edit → Option f.Content
  | .tag, tag s => some s
  | .operator, operator s => some s
  | .value, value s => some s
  | .valueType, valueType t => some t
  | .scope, scope s => some s
  | _, _ => none

/-- The new text, if the edit is one of tag, operator or value. -/
def text? : Edit → Option String
  | tag s | operator s | value s => some s
  | valueType _ | scope _ => none

end Edit

/-- The row after an edit. -/
def edit (row : FilterRow) : Edit → FilterRow
  | .tag s => row.withTag s
  | .operator s => row.withOperator s
  | .value s => row.withValue s
  | .valueType t => row.withValueType t
  | .scope s => row.withScope s

/-- The row after some edits, one after the other. -/
def edited (row : FilterRow) (edits : List Edit) : FilterRow :=
  edits.foldl edit row

/-- What the last edit of a field says, if there is one. -/
def last? (f : Field) (edits : List Edit) : Option f.Content :=
  (edits.filterMap (Edit.about? f)).getLast?

/-- The last edits of tag, operator and value are there, and none of them is empty. -/
def Completes (edits : List Edit) : Prop :=
  ∃ tag operator value : String, (last? .tag edits = some tag ∧ tag ≠ "") ∧
    (last? .operator edits = some operator ∧ operator ≠ "") ∧
    (last? .value edits = some value ∧ value ≠ "")

variable {row row' : FilterRow} {id : String} {kind : RowKind} {edits edits' : List Edit}
  {e : Edit} {f : Field}

/-! ### One edit -/

theorem Edit.field_of_about? {a : f.Content} (h : e.about? f = some a) : e.field = f := by
  cases e <;> cases f <;> cases h <;> rfl

theorem Edit.about?_eq_none (h : e.field ≠ f) : e.about? f = none :=
  Option.eq_none_iff_forall_ne_some.mpr fun _ ha => h (field_of_about? ha)

/-- A field has what the edit says of it, and otherwise what it had. -/
theorem get_edit (row : FilterRow) (e : Edit) (f : Field) :
    (row.edit e).get f = (e.about? f).or (row.get f) := by
  cases e <;> cases f <;> rfl

theorem get_new (id : String) (kind : RowKind) (f : Field) : (new id kind).get f = none := by
  cases f <;> rfl

theorem ext_get (hid : row.id = row'.id) (hkind : row.kind = row'.kind)
    (hget : ∀ f, row.get f = row'.get f) : row = row' := by
  obtain ⟨id, kind, tag, operator, value, valueType, scope⟩ := row
  obtain rfl : id = row'.id := hid
  obtain rfl : kind = row'.kind := hkind
  obtain rfl : tag = row'.tag := hget .tag
  obtain rfl : operator = row'.operator := hget .operator
  obtain rfl : value = row'.value := hget .value
  obtain rfl : valueType = row'.valueType := hget .valueType
  obtain rfl : scope = row'.scope := hget .scope
  rfl

/-- Only a text that is not empty can make a row complete. -/
theorem text?_of_isComplete_edit (h : ¬ row.IsComplete) (hedit : (row.edit e).IsComplete) :
    ∃ s, e.text? = some s ∧ s ≠ "" := by
  obtain ⟨htag, hoperator, hvalue⟩ := hedit
  cases e with
  | tag s => exact htag.imp fun _ hs => hs
  | operator s => exact hoperator.imp fun _ hs => hs
  | value s => exact hvalue.imp fun _ hs => hs
  | valueType t => exact absurd ⟨htag, hoperator, hvalue⟩ h
  | scope s => exact absurd ⟨htag, hoperator, hvalue⟩ h

/-- Only an empty text takes from a row that it is complete. -/
theorem isComplete_edit_iff (h : row.IsComplete) :
    (row.edit e).IsComplete ↔ e.text? ≠ some "" := by
  have hgiven : ∀ s, IsGiven (some s) ↔ some s ≠ some "" := by simp [IsGiven]
  obtain ⟨htag, hoperator, hvalue⟩ := h
  cases e with
  | tag s => exact (and_iff_left ⟨hoperator, hvalue⟩).trans (hgiven s)
  | operator s => exact (and_iff_right htag).trans ((and_iff_left hvalue).trans (hgiven s))
  | value s => exact (and_iff_right htag).trans ((and_iff_right hoperator).trans (hgiven s))
  -- the other two edits have no text, and what makes a row complete is as it was
  | valueType t => exact iff_of_true ⟨htag, hoperator, hvalue⟩ (Option.some_ne_none "").symm
  | scope s => exact iff_of_true ⟨htag, hoperator, hvalue⟩ (Option.some_ne_none "").symm

/-! ### Histories -/

theorem edited_concat (row : FilterRow) (edits : List Edit) (e : Edit) :
    row.edited (edits ++ [e]) = (row.edited edits).edit e :=
  List.foldl_concat ..

theorem last?_concat (f : Field) (edits : List Edit) (e : Edit) :
    last? f (edits ++ [e]) = (e.about? f).or (last? f edits) := by
  rw [last?, List.filterMap_append, List.getLast?_append]
  congr 1
  rcases hsaid : e.about? f with - | a <;> simp [hsaid]

/-- For a field only its own edits count. -/
theorem last?_filter (f : Field) (edits : List Edit) :
    last? f (edits.filter (·.field = f)) = last? f edits := by
  rw [last?, last?, List.filterMap_filter]
  congr 2
  funext e
  split_ifs with hfield
  · rfl
  · exact (Edit.about?_eq_none (of_decide_eq_false (Bool.of_not_eq_true hfield))).symm

/-- `row.Holds id kind edits`: the row has this id and this kind, and in each field what the last
edit of it says. -/
structure Holds (row : FilterRow) (id : String) (kind : RowKind) (edits : List Edit) : Prop where
  id_eq : row.id = id
  kind_eq : row.kind = kind
  get_eq : ∀ f, row.get f = last? f edits

/-- One more edit of a row is one more edit in its history. -/
theorem Holds.edit (h : row.Holds id kind edits) (e : Edit) :
    (row.edit e).Holds id kind (edits ++ [e]) where
  id_eq := by cases e <;> exact h.id_eq
  kind_eq := by cases e <;> exact h.kind_eq
  get_eq f := by rw [get_edit, h.get_eq, last?_concat]

theorem holds_edited (id : String) (kind : RowKind) (edits : List Edit) :
    ((new id kind).edited edits).Holds id kind edits := by
  -- from the end, as it is the latest edit that the row has to answer for
  induction edits using List.reverseRecOn with
  | nil => exact ⟨rfl, rfl, get_new id kind⟩
  | append_singleton edits e ih =>
      rw [edited_concat]
      exact ih.edit e

/-- Histories with the same last edits make the same row. -/
theorem Holds.unique (h : row.Holds id kind edits) (h' : row'.Holds id kind edits')
    (hlast : ∀ f, last? f edits = last? f edits') : row = row' :=
  ext_get (h.id_eq.trans h'.id_eq.symm) (h.kind_eq.trans h'.kind_eq.symm) fun f => by
    rw [h.get_eq, h'.get_eq, hlast]

theorem Holds.isComplete_iff (h : row.Holds id kind edits) :
    row.IsComplete ↔ Completes edits := by
  have htag : row.tag = last? .tag edits := h.get_eq .tag
  have hoperator : row.operator = last? .operator edits := h.get_eq .operator
  have hvalue : row.value = last? .value edits := h.get_eq .value
  rw [IsComplete, htag, hoperator, hvalue]
  constructor
  · rintro ⟨⟨tag, htag⟩, ⟨operator, hoperator⟩, value, hvalue⟩
    exact ⟨tag, operator, value, htag, hoperator, hvalue⟩
  · rintro ⟨tag, operator, value, htag, hoperator, hvalue⟩
    exact ⟨⟨tag, htag⟩, ⟨operator, hoperator⟩, value, hvalue⟩

/-! ### Other orders -/

/-- The edits in another order: at each place stands what stood at the place given for it. -/
def reorder (edits : List Edit) (σ : Equiv.Perm (Fin edits.length)) : List Edit :=
  List.ofFn fun i => edits[σ i]

/-- Of two edits of one field, the one that comes first in the new order came first before. -/
def KeepsOrder (edits : List Edit) (σ : Equiv.Perm (Fin edits.length)) : Prop :=
  ∀ i j, i < j → edits[σ i].field = edits[σ j].field → σ i < σ j

instance (edits : List Edit) (σ : Equiv.Perm (Fin edits.length)) :
    Decidable (KeepsOrder edits σ) :=
  inferInstanceAs (Decidable (∀ _ _, _ → _ → _))

variable {σ : Equiv.Perm (Fin edits.length)}

/-- Places that are moved among others, but not past each other, are met in the same order. -/
theorem filter_map_finRange {n : ℕ} {σ : Equiv.Perm (Fin n)} {p : Fin n → Bool}
    (h : ∀ i j, i < j → p (σ i) = true → p (σ j) = true → σ i < σ j) :
    ((List.finRange n).map σ).filter p = (List.finRange n).filter p := by
  have hmoved : (((List.finRange n).map σ).filter p).Pairwise (· < ·) := by
    rw [List.pairwise_filter, List.pairwise_map]
    exact (List.pairwise_lt_finRange n).imp fun {i j} hij => h i j hij
  have hkept : ((List.finRange n).filter p).Pairwise (· < ·) :=
    (List.pairwise_lt_finRange n).filter p
  -- two increasing lists are the same if they have the same members
  refine hmoved.eq_of_mem_iff hkept fun k => ?_
  have hk : k ∈ (List.finRange n).map σ :=
    List.mem_map.mpr ⟨σ.symm k, List.mem_finRange _, σ.apply_symm_apply k⟩
  simp [List.mem_filter, hk, List.mem_finRange]

/-- The edits of one field are the same ones in the same order. -/
theorem filter_reorder (h : KeepsOrder edits σ) (f : Field) :
    (reorder edits σ).filter (·.field = f) = edits.filter (·.field = f) := by
  have hplaces : ((List.finRange edits.length).map σ).filter (edits[·].field = f) =
      (List.finRange edits.length).filter (edits[·].field = f) := by
    refine filter_map_finRange fun i j hij hi hj => h i j hij ?_
    exact (of_decide_eq_true hi).trans (of_decide_eq_true hj).symm
  have hold : edits = (List.finRange edits.length).map (edits[·]) :=
    (List.map_get_finRange edits).symm
  have hnew : reorder edits σ = ((List.finRange edits.length).map σ).map (edits[·]) := by
    rw [reorder, List.ofFn_eq_map, List.map_map]
    rfl
  calc (reorder edits σ).filter (·.field = f)
      = (((List.finRange edits.length).map σ).filter (edits[·].field = f)).map (edits[·]) := by
        rw [hnew, List.filter_map]
        rfl
    _ = ((List.finRange edits.length).filter (edits[·].field = f)).map (edits[·]) := by
        rw [hplaces]
    _ = edits.filter (·.field = f) := by
        conv_rhs => rw [hold, List.filter_map]
        rfl

theorem last?_reorder (h : KeepsOrder edits σ) (f : Field) :
    last? f (reorder edits σ) = last? f edits := by
  rw [← last?_filter, filter_reorder h, last?_filter]

/-! ### States on the way -/

/-- **The last edit of each field counts.** A row that is made and then edited keeps its id and its
kind, and has in each field what the last edit of this field said; other orders that keep the edits
of each field in theirs make the same row. After any number `n` of the edits, the row is complete,
and is rendered, exactly if the last edits of tag, operator and value so far are there and not
empty. The next edit makes it complete only as a text for one of these three that is not empty, and
takes this away exactly if it is an empty text for one of them. -/
theorem edited_holds_last (id : String) (kind : RowKind) (edits : List Edit) :
    ((new id kind).edited edits).Holds id kind edits ∧
    (∀ σ, KeepsOrder edits σ →
      (new id kind).edited (reorder edits σ) = (new id kind).edited edits) ∧
    ∀ n,
      (((new id kind).edited (edits.take n)).IsComplete ↔ Completes (edits.take n)) ∧
      (((new id kind).edited (edits.take n)).render?.isSome ↔ Completes (edits.take n)) ∧
      ∀ h : n < edits.length,
        (¬ ((new id kind).edited (edits.take n)).IsComplete →
          ((new id kind).edited (edits.take (n + 1))).IsComplete →
          ∃ s, edits[n].text? = some s ∧ s ≠ "") ∧
        (((new id kind).edited (edits.take n)).IsComplete →
          (((new id kind).edited (edits.take (n + 1))).IsComplete ↔
            edits[n].text? ≠ some "")) := by
  refine ⟨holds_edited id kind edits, fun σ hσ => ?_, fun n => ?_⟩
  · exact (holds_edited id kind _).unique (holds_edited id kind _) fun f => last?_reorder hσ f
  · have hcomplete := (holds_edited id kind (edits.take n)).isComplete_iff
    refine ⟨hcomplete, isComplete_iff_isSome_render?.symm.trans hcomplete, fun h => ?_⟩
    rw [← List.take_append_getElem h, edited_concat]
    exact ⟨text?_of_isComplete_edit, isComplete_edit_iff⟩

/-- A row that is complete, then not, then again; and the same row with its scope set last. -/
theorem edited_holds_last_regained :
    let edits : List Edit := [.scope .span, .value "1", .operator "=", .tag "", .tag "a",
      .value "", .valueType .other, .value "2"]
    let row : FilterRow := ⟨"r", .dynamic, some "a", some "=", some "2", some .other, some .span⟩
    (new "r" .dynamic).edited edits = row ∧ row.Holds "r" .dynamic edits ∧
      KeepsOrder edits (finRotate 8) ∧
      (new "r" .dynamic).edited (reorder edits (finRotate 8)) = row ∧
      ¬ Completes (edits.take 4) ∧ Completes (edits.take 5) ∧ ¬ Completes (edits.take 7) ∧
      Completes (edits.take 8) ∧ (∃ s, (Edit.value "2").text? = some s ∧ s ≠ "") ∧
      ¬ (Edit.value "").text? ≠ some "" := by
  intro edits row
  have hrow : (new "r" .dynamic).edited edits = row := by decide
  have horder : KeepsOrder edits (finRotate 8) := by decide
  obtain ⟨hholds, hreorder, hway⟩ := edited_holds_last "r" .dynamic edits
  refine ⟨hrow, hrow ▸ hholds, horder, (hreorder _ horder).trans hrow, ?_, ?_, ?_, ?_, ?_, ?_⟩
  · exact fun h => absurd ((hway 4).1.mpr h) (by decide)
  · exact (hway 5).1.mp (by decide)
  · exact fun h => absurd ((hway 7).1.mpr h) (by decide)
  · exact (hway 8).1.mp (by decide)
  · exact ((hway 7).2.2 (by decide)).1 (by decide) (by decide)
  · exact fun h => absurd ((((hway 5).2.2 (by decide)).2 (by decide)).mpr h) (by decide)

end QueryPrep.FilterRow
