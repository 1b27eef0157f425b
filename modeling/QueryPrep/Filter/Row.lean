/-!
# Rows of a trace search

A row of a trace search editor is a tag, an operator and a value, with a type for the value and a
scope for the tag. Rows are edited piece by piece, so any of the five may be missing; a row is
complete when its tag, operator and value are all there and not empty, and only a complete row is a
clause of the query.
-/

namespace QueryPrep

/-- Whether a row is fixed by the editor or was added by the user. -/
inductive RowKind where
  | static
  | dynamic
deriving DecidableEq, Repr

namespace RowKind

def name : RowKind → String
  | static => "static"
  | dynamic => "dynamic"

/-- Editors know other kinds too; they all count as dynamic. -/
def ofName (s : String) : RowKind :=
  if s = "static" then static else dynamic

/-- The kind of a row that does not say. -/
def standard : RowKind := static

end RowKind

/-- The type of a value. -/
inductive ValueType where
  | string
  | integer
  | float
  | duration
  | boolean
  | keyword
  /-- Any other type that an editor may know. -/
  | other
deriving DecidableEq, Repr

namespace ValueType

def name : ValueType → String
  | string => "string"
  | integer => "integer"
  | float => "float"
  | duration => "duration"
  | boolean => "boolean"
  | keyword => "keyword"
  | other => "other"

def ofName (s : String) : ValueType :=
  ([string, integer, float, duration, boolean, keyword].find? (·.name = s)).getD other

/-- The type of a value that does not say. -/
def standard : ValueType := string

/-- Values of this type are written without quotes. -/
def isBare (t : ValueType) : Bool :=
  t ≠ string

theorem ofName_name (t : ValueType) : ofName t.name = t := by
  cases t <;> decide

theorem ofName_of_not_mem {s : String}
    (h : s ∉ ["string", "integer", "float", "duration", "boolean", "keyword"]) :
    ofName s = other := by
  have hnone : [string, integer, float, duration, boolean, keyword].find? (·.name = s) = none := by
    rw [List.find?_eq_none]
    intro t ht hname
    refine h (of_decide_eq_true hname ▸ ?_)
    exact List.mem_map_of_mem (f := name) ht
  rw [ofName, hnone]
  rfl

end ValueType

/-- The attribute namespace a tag lives in. -/
inductive TagScope where
  | resource
  | span
  /-- The tag in any namespace. -/
  | unscoped
  /-- A field that every span has, such as its name or its duration. -/
  | intrinsic
deriving DecidableEq, Repr

namespace TagScope

def name : TagScope → String
  | resource => "resource"
  | span => "span"
  | unscoped => "unscoped"
  | intrinsic => "intrinsic"

def ofName? (s : String) : Option TagScope :=
  [resource, span, unscoped, intrinsic].find? (·.name = s)

/-- A tag with the namespace in front of it. -/
def qualify (scope : TagScope) (tag : String) : String :=
  match scope with
  | resource => "resource." ++ tag
  | span => "span." ++ tag
  | unscoped => "." ++ tag
  | intrinsic => tag

theorem ofName?_name (s : TagScope) : ofName? s.name = some s := by
  cases s <;> decide

end TagScope

/-- A row of a trace search. -/
structure FilterRow where
  id : String
  kind : RowKind
  tag : Option String
  operator : Option String
  value : Option String
  valueType : Option ValueType
  scope : Option TagScope
deriving DecidableEq, Repr

namespace FilterRow

/-- An empty row. -/
def new (id : String) (kind : RowKind) : FilterRow :=
  ⟨id, kind, none, none, none, none, none⟩

/-! ### Editing -/

def withTag (row : FilterRow) (tag : String) : FilterRow :=
  { row with tag := some tag }

def withOperator (row : FilterRow) (operator : String) : FilterRow :=
  { row with operator := some operator }

def withValue (row : FilterRow) (value : String) : FilterRow :=
  { row with value := some value }

def withValueType (row : FilterRow) (valueType : ValueType) : FilterRow :=
  { row with valueType := some valueType }

def withScope (row : FilterRow) (scope : TagScope) : FilterRow :=
  { row with scope := some scope }

/-! ### Rendering -/

/-- A field that is there and not empty. -/
def IsGiven (field : Option String) : Prop :=
  ∃ s, field = some s ∧ s ≠ ""

instance (field : Option String) : Decidable (IsGiven field) :=
  match field with
  | none => isFalse (by rintro ⟨s, h, -⟩; cases h)
  | some s =>
    if h : s = "" then isFalse (by rintro ⟨t, ht, hne⟩; cases ht; exact hne h)
    else isTrue ⟨s, rfl, h⟩

/-- A row that is a clause: tag, operator and value are all given. -/
def IsComplete (row : FilterRow) : Prop :=
  IsGiven row.tag ∧ IsGiven row.operator ∧ IsGiven row.value

instance (row : FilterRow) : Decidable row.IsComplete :=
  inferInstanceAs (Decidable (_ ∧ _))

/-- The content of a field, if it is not empty. -/
def given? (field : Option String) : Option String :=
  field.filter (· ≠ "")

/-- The tag of a row with its namespace. -/
def qualified (row : FilterRow) (tag : String) : String :=
  row.scope.elim tag (·.qualify tag)

/-- The value of a row, in quotes unless its type is bare. Nothing inside the quotes is escaped. -/
def written (row : FilterRow) (value : String) : String :=
  if (row.valueType.getD .standard).isBare then value else "\"" ++ value ++ "\""

/-- The clause of a row, if it is complete. -/
def render? (row : FilterRow) : Option String :=
  match given? row.tag, given? row.operator, given? row.value with
  | some tag, some operator, some value =>
    some (row.qualified tag ++ operator ++ row.written value)
  | _, _, _ => none

end FilterRow

/-! ### Queries -/

namespace Query

/-- The clauses of the complete rows, in order. -/
def clauses (rows : List FilterRow) : List String :=
  rows.filterMap FilterRow.render?

/-- The query that asks for all clauses together. -/
def compile (rows : List FilterRow) : String :=
  "\x7b" ++ String.intercalate " && " (clauses rows) ++ "\x7d"

end Query

end QueryPrep
