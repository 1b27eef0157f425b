import QueryPrep.Filter.Row
import QueryPrep.Json.Record

/-!
# Rows in JSON

A row is read from an object with the fields `id`, `type`, `tag`, `operator`, `value`, `valueType`
and `scope`, or from an array of their values in this order. Only the id is required. Names of kinds
and value types that are not known are read as dynamic and as other; a scope must be known.

In a list of rows, a row that cannot be read is skipped, whatever is wrong with it.
-/

namespace QueryPrep.FilterRow

open QueryPrep.Json

/-- A row that is being read. -/
structure Draft where
  id : Option String
  kind : Option RowKind
  tag : Option (Option String)
  operator : Option (Option String)
  value : Option (Option String)
  valueType : Option (Option ValueType)
  scope : Option (Option TagScope)

namespace Draft

def empty : Draft :=
  ⟨none, none, none, none, none, none, none⟩

/-- The row of a draft; what is missing is absent, and the kind is the standard one. -/
def finish (d : Draft) : Option FilterRow :=
  d.id.map fun id =>
    { id
      kind := d.kind.getD .standard
      tag := d.tag.join
      operator := d.operator.join
      value := d.value.join
      valueType := d.valueType.join
      scope := d.scope.join }

end Draft

/-- How a kind is read. -/
def readKind : Node → Except Fault RowKind :=
  Node.choice (some ∘ RowKind.ofName)

/-- How the type of a value is read. -/
def readValueType : Node → Except Fault ValueType :=
  Node.choice (some ∘ ValueType.ofName)

/-- How a scope is read. -/
def readScope : Node → Except Fault TagScope :=
  Node.choice TagScope.ofName?

/-- The fields of a row, in the order in which an array holds them. -/
def shape : Shape Draft FilterRow where
  fields := [
    ⟨"id", (·.id.isSome), fun n d => do return { d with id := some (← n.text) }⟩,
    ⟨"type", (·.kind.isSome), fun n d => do return { d with kind := some (← readKind n) }⟩,
    ⟨"tag", (·.tag.isSome), fun n d => do return { d with tag := some (← n.orNull Node.text) }⟩,
    ⟨"operator", (·.operator.isSome),
      fun n d => do return { d with operator := some (← n.orNull Node.text) }⟩,
    ⟨"value", (·.value.isSome),
      fun n d => do return { d with value := some (← n.orNull Node.text) }⟩,
    ⟨"valueType", (·.valueType.isSome),
      fun n d => do return { d with valueType := some (← n.orNull readValueType) }⟩,
    ⟨"scope", (·.scope.isSome),
      fun n d => do return { d with scope := some (← n.orNull readScope) }⟩]
  empty := Draft.empty
  finish := Draft.finish

/-- Reads the text of one row. -/
def parse (text : String) : Except Fault FilterRow :=
  Document.read shape.read text

/-- The row that a value describes, if it describes one. -/
def ofValue? (v : Value) : Option FilterRow :=
  (shape.read v.toNode).toOption

/-- The rows among some values, in order. -/
def ofValues (vs : List Value) : List FilterRow :=
  vs.filterMap ofValue?

/-- The row as a value; what is absent is left out. -/
def toValue (row : FilterRow) : Value :=
  .object <|
    [("id", .string row.id), ("type", .string row.kind.name)] ++
    (row.tag.toList.map fun s => ("tag", .string s)) ++
    (row.operator.toList.map fun s => ("operator", .string s)) ++
    (row.value.toList.map fun s => ("value", .string s)) ++
    (row.valueType.toList.map fun t => ("valueType", .string t.name)) ++
    (row.scope.toList.map fun s => ("scope", .string s.name))

end QueryPrep.FilterRow
