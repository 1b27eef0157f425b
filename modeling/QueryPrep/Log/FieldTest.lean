import QueryPrep.Millis
import QueryPrep.Pattern.Soundness
import QueryPrep.Text.Double

/-!
# Fields in log filters

A rule of a log filter may name a field, and a value that the field must have. A value is read as
the first of these that it can be: a truth value, a whole number of 64 bits, a number of double
precision, a pattern for the text of the value.
-/

namespace QueryPrep

/-- A value that a field may be tested for. -/
inductive FieldValue where
  | bool (b : Bool)
  | real (x : Double)
  | natural (n : Nat)
  /-- A whole number with a minus sign. -/
  | integer (n : Int)
  | pattern (text : List Char)
deriving DecidableEq, Repr

namespace FieldValue

/-- Reads a value. -/
def read (cs : List Char) : Except Pattern.Fault FieldValue :=
  let natural? := (Decimal.readUnsigned? cs).filter (· < UInt64.size)
  let integer? := (Decimal.readInt? cs).bind Millis.checked?
  if cs = "true".toList then .ok (bool true)
  else if cs = "false".toList then .ok (bool false)
  else match natural?, integer?, Double.read? cs with
    | some n, _, _ => .ok (natural n)
    | none, some n, _ => .ok (integer n)
    | none, none, some x => .ok (real x)
    | none, none, none => (fun _ => pattern cs) <$> Pattern.check cs

/-- The text of a value. -/
def write : FieldValue → List Char
  | bool true => "true".toList
  | bool false => "false".toList
  | real x => x.write
  | natural n => Decimal.digits n
  | integer n => Decimal.write n
  | pattern text => text

/-- The place of a value's kind in the order of values. -/
def rank : FieldValue → Nat
  | bool _ => 0
  | real _ => 1
  | natural _ => 2
  | integer _ => 3
  | pattern _ => 4

/-- Values are ordered by their kinds, and among one kind as usual. -/
def compare (a b : FieldValue) : Ordering :=
  (Ord.compare a.rank b.rank).then <|
    match a, b with
    | bool a, bool b => Ord.compare a b
    | real a, real b => a.compare b
    | natural a, natural b => Ord.compare a b
    | integer a, integer b => Ord.compare a b
    | pattern a, pattern b => Ord.compare (String.ofList a) (String.ofList b)
    | _, _ => .eq

end FieldValue

/-- A field that an event must have, with its value if that counts. -/
structure FieldTest where
  name : List Char
  value : Option FieldValue
deriving DecidableEq, Repr

namespace FieldTest

/-- Reads a test: a name, and a value behind an equals sign. A second one ends the value. -/
def read (cs : List Char) : Except Pattern.Fault FieldTest :=
  match cs.splitOn '=' with
  | name :: value :: _ => (fun v => ⟨name, some v⟩) <$> FieldValue.read value
  | _ => .ok ⟨cs, none⟩

/-- The text of a test. -/
def write (t : FieldTest) : List Char :=
  t.name ++ t.value.elim [] fun v => '=' :: v.write

/-- A test with a value is greater than one without. -/
def compare (a b : FieldTest) : Ordering :=
  (Ord.compare a.value.isSome b.value.isSome).then <|
    (Ord.compare (String.ofList a.name) (String.ofList b.name)).then <|
      match a.value, b.value with
      | some v, some w => v.compare w
      | _, _ => .eq

end FieldTest

end QueryPrep
