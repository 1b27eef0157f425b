/-!
# Values and tables in TOML

A document is one table. Its lines define entries one after another, and whether a line may still
reach into a table hangs on how that table came to be, its `Origin`: by a header of its own, by the
longer header of a table inside it, by a dotted key, or as a value written in braces. `Table.define`
and the two `open` operations are the three kinds of lines; none of them defines anything twice.
-/

namespace QueryPrep.Toml

/-- How a table came to be. -/
inductive Origin where
  /-- By its own header, or as the document itself. -/
  | header
  /-- In the header of a table inside it. -/
  | implied
  /-- In a dotted key. -/
  | dotted
  /-- As a value in braces. -/
  | inline
deriving DecidableEq, Repr

/-- A value. Numbers with a fraction or an exponent and points in time are kept as they are written,
because no setting is one. -/
inductive Value where
  | string (s : String)
  | integer (n : Int)
  | real (text : String)
  | bool (b : Bool)
  | moment (text : String)
  /-- `growing` tells a list of tables that headers add to from a list that was written as one. -/
  | array (items : List Value) (growing : Bool)
  | table (entries : List (String × Value)) (origin : Origin)
deriving Inhabited, Repr

/-- The entries of a table in the order in which they were defined. -/
abbrev Table := List (String × Value)

namespace Table

/-- The value of a key. -/
def find? (t : Table) (key : String) : Option Value :=
  t.lookup key

/-- Puts a value in the place of another one, or at the end. -/
def put (t : Table) (key : String) (v : Value) : Table :=
  if t.any (·.1 = key) then t.map fun e => if e.1 = key then (key, v) else e
  else t ++ [(key, v)]

/-- How a path leads into tables. -/
inductive Way where
  /-- Through the tables of a header. -/
  | header
  /-- Through the tables of a dotted key. -/
  | dotted
deriving DecidableEq, Repr

/-- The origin of the tables that a path adds where there are none. -/
def Way.origin : Way → Origin
  | header => .implied
  | dotted => .dotted

/-- A header leads through all tables but values in braces, a dotted key only through those that
have no header of their own either. -/
def Way.MayEnter : Way → Origin → Prop
  | _, .inline => False
  | dotted, .header => False
  | _, _ => True

instance (w : Way) (o : Origin) : Decidable (w.MayEnter o) := by
  cases w <;> cases o <;> simp only [Way.MayEnter] <;> infer_instance

/-- Changes the table at the end of a path, adding the tables that are missing on the way. A growing
list of tables stands for its last table. -/
def change (way : Way) (f : Table → Origin → Option Table) :
    List String → Table → Origin → Option Table
  | [], t, o => f t o
  | key :: path, t, _ =>
    match t.find? key with
    | none => (change way f path [] way.origin).map fun inner => t.put key (.table inner way.origin)
    | some (.table inner o) =>
      if way.MayEnter o then (change way f path inner o).map fun inner => t.put key (.table inner o)
      else none
    | some (.array items true) =>
      match items.getLast? with
      | some (.table inner o) =>
        (change way f path inner o).map fun inner =>
          t.put key (.array (items.dropLast ++ [.table inner o]) true)
      | _ => none
    | some _ => none

/-- Adds an entry that must be new. -/
def add (key : String) (v : Value) (t : Table) : Option Table :=
  if t.any (·.1 = key) then none else some (t ++ [(key, v)])

/-- Defines a key, which may be dotted. The table that a dotted key leads to must have been made by
dotted keys. -/
def define (path : List String) (key : String) (v : Value) (t : Table) : Option Table :=
  match path with
  | [] => add key v t
  | path =>
    change .dotted (fun t o => if o = .dotted then add key v t else none) path t .header

/-- Opens the table of a header. It may have been implied before, and nothing else. -/
def openTable (path : List String) (key : String) (t : Table) : Option Table :=
  change .header (fun t _ =>
    match t.find? key with
    | none => some (t.put key (.table [] .header))
    | some (.table inner .implied) => some (t.put key (.table inner .header))
    | some _ => none) path t .header

/-- Opens a further table of a growing list. -/
def openItem (path : List String) (key : String) (t : Table) : Option Table :=
  change .header (fun t _ =>
    match t.find? key with
    | none => some (t.put key (.array [.table [] .header] true))
    | some (.array items true) => some (t.put key (.array (items ++ [.table [] .header]) true))
    | some _ => none) path t .header

/-- Defines a key inside the table that was opened last. -/
def defineIn (opened : List String) (path : List String) (key : String) (v : Value) (t : Table) :
    Option Table :=
  change .header (fun t _ => define path key v t) opened t .header

end Table

end QueryPrep.Toml
