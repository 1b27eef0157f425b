/-!
# Numerals

Runs of ASCII digits as numbers, with an optional sign where a reader allows one, and the plain
numeral of an integer. Reading is unbounded: the callers say which numbers fit. The escapes of the
other notations have hexadecimal digits, whose letters may be capital or small.

`Decimal.value_append` is the law that lets a numeral be read piece by piece.
-/

namespace QueryPrep.Decimal

/-- The value of one digit; other characters never reach it. -/
def digitValue (c : Char) : Nat :=
  c.toNat - '0'.toNat

/-- The number a run of digits stands for, the empty run being zero. -/
def value (digits : List Char) : Nat :=
  digits.foldl (fun n c => n * 10 + digitValue c) 0

/-- The digits in front of a text, and what follows them. -/
def span (cs : List Char) : List Char × List Char :=
  (cs.takeWhile Char.isDigit, cs.dropWhile Char.isDigit)

/-- A text that is one non-empty run of digits. -/
def readNat? (cs : List Char) : Option Nat :=
  if cs.isEmpty || !cs.all Char.isDigit then none else some (value cs)

/-- A numeral with an optional plus sign, as the settings of the environment are written. -/
def readUnsigned? : List Char → Option Nat
  | '+' :: cs => readNat? cs
  | cs => readNat? cs

/-- A numeral with an optional sign. -/
def readInt? : List Char → Option Int
  | '-' :: cs => (readNat? cs).map fun n => -(n : Int)
  | cs => (readUnsigned? cs).map fun n => (n : Int)

/-- The digits of a number, most significant first, without leading zeros. -/
def digits (n : Nat) : List Char :=
  Nat.toDigits 10 n

/-- A number in at least `width` digits, filled with zeros in front. -/
def padded (width n : Nat) : List Char :=
  List.replicate (width - (digits n).length) '0' ++ digits n

/-- The plain numeral of an integer. -/
def write : Int → List Char
  | .ofNat n => digits n
  | .negSucc n => '-' :: digits (n + 1)

/-- The plain numeral of an integer, as a string. -/
def render (n : Int) : String :=
  String.ofList (write n)

theorem foldl_digits (cs : List Char) (n : Nat) :
    cs.foldl (fun n c => n * 10 + digitValue c) n = n * Nat.pow 10 cs.length + value cs := by
  induction cs generalizing n with
  | nil => simp [value]
  | cons c cs ih =>
    simp only [value, List.foldl_cons, List.length_cons]
    rw [ih, ih (0 * 10 + digitValue c)]
    change _ = n * (Nat.pow 10 cs.length * 10) + _
    generalize Nat.pow 10 cs.length = p
    grind

theorem value_append (a b : List Char) :
    value (a ++ b) = value a * Nat.pow 10 b.length + value b := by
  rw [value, List.foldl_append, foldl_digits]
  rfl

theorem span_append (cs : List Char) : (span cs).1 ++ (span cs).2 = cs :=
  List.takeWhile_append_dropWhile

end QueryPrep.Decimal

namespace QueryPrep.Hexadecimal

/-- The value of a digit. -/
def digitValue? (c : Char) : Option Nat :=
  if c.isDigit then some (c.toNat - '0'.toNat)
  else if 'a' ≤ c.toLower ∧ c.toLower ≤ 'f' then some (c.toLower.toNat - 'a'.toNat + 10)
  else none

def isDigit (c : Char) : Bool :=
  (digitValue? c).isSome

/-- The value of a digit; other characters never reach it. -/
def digitValue (c : Char) : Nat :=
  (digitValue? c).getD 0

/-- The number a run of digits stands for. -/
def value (digits : List Char) : Nat :=
  digits.foldl (fun n c => n * 16 + digitValue c) 0

end QueryPrep.Hexadecimal
