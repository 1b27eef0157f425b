import QueryPrep.Toml.Number
import QueryPrep.Toml.Text

/-!
# TOML documents

A document is read into its lines, each a header or the definition of a key, and the lines are
carried out one after another on a table that is empty at first.
-/

namespace QueryPrep.Toml

open QueryPrep.Text (Scan)
open QueryPrep.Text.Scan
open QueryPrep.Toml.Text

/-! ### Values -/

/-- A key and its value, of some kind of values. -/
def pair (value : Scan Value) : Scan (Key × Value) := do
  let k ← key
  word ['=']
  spaces
  return (k, ← value)

/-- An array. A comma may follow its last item. -/
def array (value : Scan Value) : Scan Value := do
  word ['[']
  gap
  let (items, _) ← upTo (word [']']) do
    let v ← value
    gap
    match ← ahead with
    | some ']' => return v
    | _ =>
      word [',']
      gap
      return v
  return .array items false

/-- A table in braces, on one line. No comma follows its last pair. -/
def inlineTable (value : Scan Value) : Scan Value := do
  word ['\x7b']
  spaces
  let (pairs, _) ← upTo (word ['\x7d']) do
    let p ← pair value
    spaces
    match ← ahead with
    | some '\x7d' => return p
    | _ =>
      word [',']
      spaces
      must ((← ahead) ≠ some '\x7d')
      return p
  let entries ← StateT.lift (pairs.foldlM (fun t (k, v) => Table.define k.path k.name v t) [])
  return .table entries .inline

/-- A value with at most `levels` arrays and tables around its innermost part. -/
def value (levels : Nat) : Scan Value := do
  match ← ahead with
  | some '"' | some '\'' => Value.string <$> string
  | some '[' =>
    match levels with
    | 0 => failure
    | levels + 1 => array (value levels)
  | some '\x7b' =>
    match levels with
    | 0 => failure
    | levels + 1 => inlineTable (value levels)
  | some 't' => do word "true".toList; return .bool true
  | some 'f' => do word "false".toList; return .bool false
  | _ => Number.value

/-! ### Lines -/

/-- What one line of a document says. -/
inductive Line where
  /-- Nothing. -/
  | blank
  /-- A table of its own begins. -/
  | table (k : Key)
  /-- A further table of a growing list begins. -/
  | item (k : Key)
  | entry (k : Key) (v : Value)

namespace Line

/-- A key between brackets, to the end of the line. -/
def header (opening closing : List Char) : Scan Key := do
  word opening
  let k ← key
  word closing
  lineEnd
  return k

/-- A line that says something, or several blank ones. -/
def scan : Scan Line := do
  spaces
  match ← ahead with
  | none => return blank
  | some '#' | some '\n' | some '\r' => do lineEnd; return blank
  | some '[' => item <$> header ['[', '['] [']', ']'] <|> table <$> header ['['] [']']
  | _ => do
    let (k, v) ← pair (value maxLevels)
    lineEnd
    return entry k v

end Line

/-! ### Documents -/

/-- A table that is being defined, and the path to the table that was opened last. -/
structure Draft where
  root : Table
  opened : List String

namespace Draft

/-- Carries out a line. -/
def follow (d : Draft) : Line → Option Draft
  | .blank => some d
  | .table k => (Table.openTable k.path k.name d.root).map (⟨·, k.path ++ [k.name]⟩)
  | .item k => (Table.openItem k.path k.name d.root).map (⟨·, k.path ++ [k.name]⟩)
  | .entry k v => (Table.defineIn d.opened k.path k.name v d.root).map (⟨·, d.opened⟩)

end Draft

/-- The lines of a document. A byte order mark may stand in front of them. -/
def lines : Scan (List Line) := do
  let _ ← optionally (word ['\ufeff'])
  return (← upTo atEnd Line.scan).1

/-- Reads a document. -/
def parse (text : String) : Option Table := do
  let ls ← whole lines text.toList
  return (← ls.foldlM Draft.follow ⟨[], []⟩).root

end QueryPrep.Toml
