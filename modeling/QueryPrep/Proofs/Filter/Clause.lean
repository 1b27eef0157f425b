import Mathlib.Data.List.Basic
import QueryPrep.Filter.Row

/-!
# Clauses of a query

A complete row contributes one clause to the query: its tag with the namespace in front, its
operator, and its value, between quotes unless the type of the value is bare. `FilterRow.clause?` is
that clause as data, before it is written; nothing else of a row gets into the query.

Main result: the text of a query is a brace, the clauses of the rows one after the other with
` && ` between them, and a brace (`Query.toList_compile`). All that is said of queries elsewhere is
said of this list of clauses.
-/

namespace QueryPrep

/-- What a complete row contributes to the query. -/
structure Clause where
  /-- The tag, with its namespace. -/
  tag : String
  operator : String
  value : String
  /-- The value stands between quotes. -/
  quoted : Bool
deriving DecidableEq, Repr

namespace Clause

/-- The value as it stands in the query. -/
def valueText (c : Clause) : List Char :=
  if c.quoted then '"' :: c.value.toList ++ ['"'] else c.value.toList

/-- The clause as it stands in the query. -/
def text (c : Clause) : List Char :=
  c.tag.toList ++ c.operator.toList ++ c.valueText

theorem valueText_of_quoted {c : Clause} (h : c.quoted = true) :
    c.valueText = '"' :: c.value.toList ++ ['"'] :=
  if_pos h

theorem valueText_of_bare {c : Clause} (h : c.quoted = false) : c.valueText = c.value.toList :=
  if_neg (by simp [h])

end Clause

namespace FilterRow

/-- The clause of a row, if the row is complete. -/
def clause? (row : FilterRow) : Option Clause :=
  match given? row.tag, given? row.operator, given? row.value with
  | some tag, some operator, some value =>
    some ⟨row.qualified tag, operator, value, !(row.valueType.getD .standard).isBare⟩
  | _, _, _ => none

/-! ### Given fields -/

theorem given?_eq_some_iff {field : Option String} {s : String} :
    given? field = some s ↔ field = some s ∧ s ≠ "" := by
  simp [given?, Option.filter_eq_some_iff]

theorem isGiven_iff {field : Option String} : IsGiven field ↔ (given? field).isSome := by
  simp only [Option.isSome_iff_exists, given?_eq_some_iff, IsGiven]

variable {row : FilterRow} {c : Clause}

/-- Where a clause comes from. -/
theorem clause?_eq_some_iff : row.clause? = some c ↔
    ∃ tag operator value, given? row.tag = some tag ∧ given? row.operator = some operator ∧
      given? row.value = some value ∧
      c = ⟨row.qualified tag, operator, value, !(row.valueType.getD .standard).isBare⟩ := by
  unfold clause?
  rcases given? row.tag with - | tag <;> rcases given? row.operator with - | operator <;>
    rcases given? row.value with - | value <;> simp [eq_comm]

/-- The rows with a clause are the complete ones. -/
theorem isComplete_iff : row.IsComplete ↔ ∃ c, row.clause? = some c := by
  simp only [IsComplete, isGiven_iff, clause?_eq_some_iff, Option.isSome_iff_exists]
  constructor
  · rintro ⟨⟨tag, htag⟩, ⟨operator, hoperator⟩, value, hvalue⟩
    exact ⟨_, tag, operator, value, htag, hoperator, hvalue, rfl⟩
  · rintro ⟨-, tag, operator, value, htag, hoperator, hvalue, -⟩
    exact ⟨⟨tag, htag⟩, ⟨operator, hoperator⟩, value, hvalue⟩

theorem operator_ne_nil (h : row.clause? = some c) : c.operator.toList ≠ [] := by
  obtain ⟨tag, operator, value, -, hoperator, -, rfl⟩ := clause?_eq_some_iff.mp h
  simpa using (given?_eq_some_iff.mp hoperator).2

/-! ### Writing -/

theorem toList_written (row : FilterRow) (tag operator value : String) :
    (row.written value).toList =
      Clause.valueText ⟨tag, operator, value, !(row.valueType.getD .standard).isBare⟩ := by
  unfold written
  rcases (row.valueType.getD .standard).isBare with - | - <;> simp [Clause.valueText]

/-- Rendering a row is writing its clause. -/
theorem render?_eq (row : FilterRow) :
    row.render?.map String.toList = row.clause?.map Clause.text := by
  unfold render? clause?
  rcases given? row.tag with - | tag <;> rcases given? row.operator with - | operator <;>
    rcases given? row.value with - | value <;> try rfl
  simp only [Option.map_some, String.toList_append, Clause.text, Option.some.injEq]
  rw [toList_written row (row.qualified tag) operator]

end FilterRow

namespace Query

/-- The clauses of the complete rows, in order. -/
def clausesOf (rows : List FilterRow) : List Clause :=
  rows.filterMap FilterRow.clause?

/-- Clauses with the sign for "and" between them. -/
def conjunction (cs : List Clause) : List Char :=
  List.intercalate [' ', '&', '&', ' '] (cs.map Clause.text)

theorem conjunction_nil : conjunction [] = [] :=
  rfl

theorem conjunction_singleton (c : Clause) : conjunction [c] = c.text := by
  simp [conjunction, List.intercalate]

theorem conjunction_cons_cons (c d : Clause) (cs : List Clause) :
    conjunction (c :: d :: cs) = c.text ++ ' ' :: '&' :: '&' :: ' ' :: conjunction (d :: cs) := by
  simp [conjunction, List.intercalate]

theorem toList_clauses (rows : List FilterRow) :
    (clauses rows).map String.toList = (clausesOf rows).map Clause.text := by
  simp only [clauses, clausesOf, List.map_filterMap, FilterRow.render?_eq]

/-- **A query is its clauses between braces.** -/
theorem toList_compile (rows : List FilterRow) :
    (compile rows).toList = '\x7b' :: conjunction (clausesOf rows) ++ ['\x7d'] := by
  simp [compile, String.toList_intercalate, toList_clauses, conjunction]

end Query

end QueryPrep
