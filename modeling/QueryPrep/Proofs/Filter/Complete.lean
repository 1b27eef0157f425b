import Mathlib.Data.List.Forall2
import QueryPrep.Proofs.Filter.Clause

/-!
# A query is what its complete rows say

Whether a row is complete is decided in two places: by asking for it, and by rendering the row,
which stops at the first field that is missing or empty. The two agree, and what is rendered of a
complete row is fixed by five things: its tag, operator, value and scope, and whether its value is a
text (`FilterRow.render?_eq_some_iff`). All else about a row, and all other rows, leave no trace.

Main result: a query is the clauses of the complete rows in their order, so two lists whose complete
rows say the same are compiled to the same query (`Query.compile_complete`).
-/

namespace QueryPrep

/-- What stands in front of a tag for its scope. -/
def TagScope.lead : Option TagScope → String
  | none | some .intrinsic => ""
  | some .resource => "resource."
  | some .span => "span."
  | some .unscoped => "."

namespace FilterRow

/-- The value of the row is a text, by its type or for want of a type. -/
def IsTextual (row : FilterRow) : Prop :=
  row.valueType = none ∨ row.valueType = some .string

instance (row : FilterRow) : Decidable row.IsTextual :=
  inferInstanceAs (Decidable (_ ∨ _))

/-- `row.Says clause`: tag, operator and value of the row are there and not empty, and the clause is
the tag with its scope, the operator, and the value, in quotes if it is a text. -/
def Says (row : FilterRow) (clause : String) : Prop :=
  ∃ tag operator value, (row.tag = some tag ∧ tag ≠ "") ∧
    (row.operator = some operator ∧ operator ≠ "") ∧ (row.value = some value ∧ value ≠ "") ∧
    clause = TagScope.lead row.scope ++ tag ++ operator ++
      (if row.IsTextual then "\"" ++ value ++ "\"" else value)

/-- The rows say the same, whatever else they are. -/
structure SaysAs (row row' : FilterRow) : Prop where
  tag : row.tag = row'.tag
  operator : row.operator = row'.operator
  value : row.value = row'.value
  scope : row.scope = row'.scope
  textual : row.IsTextual ↔ row'.IsTextual

instance (row row' : FilterRow) : Decidable (row.SaysAs row') :=
  decidable_of_iff (row.tag = row'.tag ∧ row.operator = row'.operator ∧ row.value = row'.value ∧
      row.scope = row'.scope ∧ (row.IsTextual ↔ row'.IsTextual))
    ⟨fun ⟨htag, hoperator, hvalue, hscope, htextual⟩ =>
      ⟨htag, hoperator, hvalue, hscope, htextual⟩,
      fun ⟨htag, hoperator, hvalue, hscope, htextual⟩ =>
        ⟨htag, hoperator, hvalue, hscope, htextual⟩⟩

variable {row row' : FilterRow} {clause : String}

theorem SaysAs.refl (row : FilterRow) : row.SaysAs row :=
  ⟨rfl, rfl, rfl, rfl, Iff.rfl⟩

/-! ### One row -/

theorem qualified_eq (row : FilterRow) (tag : String) :
    row.qualified tag = TagScope.lead row.scope ++ tag := by
  unfold qualified
  rcases row.scope with - | - | - | - | - <;> simp [TagScope.lead, TagScope.qualify]

theorem isBare_eq_false_iff : (row.valueType.getD .standard).isBare = false ↔ row.IsTextual := by
  unfold IsTextual
  rcases row.valueType with - | t
  · simp [ValueType.standard, ValueType.isBare]
  · simp [ValueType.isBare]

theorem written_eq (row : FilterRow) (value : String) :
    row.written value = if row.IsTextual then "\"" ++ value ++ "\"" else value := by
  by_cases h : row.IsTextual
  · rw [written, isBare_eq_false_iff.mpr h, if_neg Bool.false_ne_true, if_pos h]
  · have hbare := Bool.of_not_eq_false fun hfalse => h (isBare_eq_false_iff.mp hfalse)
    rw [written, hbare, if_pos rfl, if_neg h]

/-- **What is rendered of a row.** -/
theorem render?_eq_some_iff : row.render? = some clause ↔ row.Says clause := by
  simp only [Says, ← qualified_eq, ← written_eq, ← given?_eq_some_iff]
  unfold render?
  rcases given? row.tag with - | tag <;> rcases given? row.operator with - | operator <;>
    rcases given? row.value with - | value <;> simp [eq_comm]

/-- The two ways to decide completeness agree. -/
theorem isComplete_iff_isSome_render? : row.IsComplete ↔ row.render?.isSome := by
  rw [Option.isSome_iff_exists]
  simp only [render?_eq_some_iff]
  constructor
  · rintro ⟨⟨tag, htag⟩, ⟨operator, hoperator⟩, value, hvalue⟩
    exact ⟨_, tag, operator, value, htag, hoperator, hvalue, rfl⟩
  · rintro ⟨_, tag, operator, value, htag, hoperator, hvalue, -⟩
    exact ⟨⟨tag, htag⟩, ⟨operator, hoperator⟩, value, hvalue⟩

theorem SaysAs.says_iff (h : row.SaysAs row') : row.Says clause ↔ row'.Says clause := by
  obtain ⟨htag, hoperator, hvalue, hscope, htextual⟩ := h
  simp only [Says, htag, hoperator, hvalue, hscope, htextual]

theorem SaysAs.render?_eq (h : row.SaysAs row') : row.render? = row'.render? := by
  ext clause
  rw [render?_eq_some_iff, render?_eq_some_iff, h.says_iff]

end FilterRow

/-! ### Lists of rows -/

namespace Query

open FilterRow

/-- A row that is not complete has no clause. -/
theorem clauses_filter_isComplete (rows : List FilterRow) :
    clauses (rows.filter (·.IsComplete)) = clauses rows := by
  induction rows with
  | nil => rfl
  | cons row rows ih =>
      unfold clauses at ih ⊢
      by_cases h : row.IsComplete
      · rw [List.filter_cons_of_pos (by simpa using h), List.filterMap_cons, List.filterMap_cons,
          ih]
      · have hnone : row.render? = none := by
          simpa [isComplete_iff_isSome_render?] using h
        rw [List.filter_cons_of_neg (by simpa using h), ih, List.filterMap_cons, hnone]

/-- Each complete row says one clause. -/
theorem forall₂_says_clauses (rows : List FilterRow) (h : ∀ row ∈ rows, row.IsComplete) :
    List.Forall₂ Says rows (clauses rows) := by
  induction rows with
  | nil => exact .nil
  | cons row rows ih =>
      obtain ⟨hrow, hrows⟩ := List.forall_mem_cons.mp h
      obtain ⟨clause, hclause⟩ :=
        Option.isSome_iff_exists.mp (isComplete_iff_isSome_render?.mp hrow)
      rw [clauses, List.filterMap_cons, hclause]
      exact .cons (render?_eq_some_iff.mp hclause) (ih hrows)

theorem clauses_congr {rows rows' : List FilterRow} (h : List.Forall₂ SaysAs rows rows') :
    clauses rows = clauses rows' := by
  induction h with
  | nil => rfl
  | cons hrow _ ih =>
      unfold clauses at ih ⊢
      rw [List.filterMap_cons, List.filterMap_cons, hrow.render?_eq, ih]

/-- The query of a list is that of its complete rows, said in any other words. -/
theorem compile_congr {rows rows' : List FilterRow}
    (h : List.Forall₂ SaysAs (rows.filter (·.IsComplete)) (rows'.filter (·.IsComplete))) :
    compile rows = compile rows' := by
  have hclauses := clauses_congr h
  rw [clauses_filter_isComplete, clauses_filter_isComplete] at hclauses
  rw [compile, compile, hclauses]

/-- **Only complete rows get into a query, and only what they say.** A row is complete exactly if it
is rendered; a query is the clauses of the complete rows, in order; so two lists whose complete rows
say the same have the same query, and a row that is not complete may stand anywhere or be left
out. -/
theorem compile_complete :
    (∀ row : FilterRow, row.IsComplete ↔ row.render?.isSome) ∧
    (∀ rows, ∃ clauses, List.Forall₂ Says (rows.filter (·.IsComplete)) clauses ∧
      compile rows = "\x7b" ++ String.intercalate " && " clauses ++ "\x7d") ∧
    (∀ rows rows',
      List.Forall₂ SaysAs (rows.filter (·.IsComplete)) (rows'.filter (·.IsComplete)) →
      compile rows = compile rows') ∧
    ∀ before row after, ¬ row.IsComplete →
      compile (before ++ row :: after) = compile (before ++ after) := by
  refine ⟨fun _ => isComplete_iff_isSome_render?, fun rows => ?_, fun _ _ => compile_congr,
    fun before row after h => compile_congr ?_⟩
  · refine ⟨clauses rows, ?_, rfl⟩
    rw [← clauses_filter_isComplete]
    refine forall₂_says_clauses _ fun row hrow => ?_
    exact of_decide_eq_true (List.mem_filter.mp hrow).2
  · rw [List.filter_append, List.filter_append, List.filter_cons_of_neg (by simpa using h)]
    exact List.forall₂_same.mpr fun row _ => .refl row

/-- Rows that are not complete at both ends and in between, other names, kinds and types. -/
theorem compile_complete_scattered :
    let rows : List FilterRow := [
      (FilterRow.new "a" .static).withTag "dur" |>.withOperator ">" |>.withValue "1"
        |>.withValueType .integer,
      (FilterRow.new "b" .static).withTag "n" |>.withOperator "=" |>.withValue "x"
        |>.withScope .span]
    let rows' : List FilterRow := [
      (FilterRow.new "z" .dynamic).withTag "dur" |>.withOperator ">" |>.withValue "",
      (FilterRow.new "y" .dynamic).withTag "dur" |>.withOperator ">" |>.withValue "1"
        |>.withValueType .other,
      FilterRow.new "a" .static,
      (FilterRow.new "b" .dynamic).withTag "n" |>.withOperator "=" |>.withValue "x"
        |>.withValueType .string |>.withScope .span,
      (FilterRow.new "c" .static).withOperator "=" |>.withValue "x"]
    List.Forall₂ SaysAs (rows.filter (·.IsComplete)) (rows'.filter (·.IsComplete)) ∧
      compile rows = "\x7bdur>1 && span.n=\"x\"\x7d" ∧ compile rows' = compile rows ∧
      ¬ (FilterRow.new "c" .static).IsComplete ∧
      compile (FilterRow.new "c" .static :: rows) = compile rows := by
  intro rows rows'
  have hsame : List.Forall₂ SaysAs (rows.filter (·.IsComplete)) (rows'.filter (·.IsComplete)) :=
    .cons (by decide) (.cons (by decide) .nil)
  have hopen : ¬ (FilterRow.new "c" .static).IsComplete := by decide
  obtain ⟨-, -, hcongr, hinsert⟩ := compile_complete
  exact ⟨hsame, by decide, (hcongr _ _ hsame).symm, hopen, hinsert [] _ rows hopen⟩

end Query

end QueryPrep
