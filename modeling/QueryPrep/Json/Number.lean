import QueryPrep.Text.Numeral

/-!
# Bytes and numbers of JSON texts

The bytes of a request or a file need not be the encoding of a text. `Marks` is what they are read
as: the characters in order, with `none` for a byte that belongs to no character. Characters of
ASCII are never swallowed by a broken one in front of them.

A `Numeral` is a number as it is written. What it means depends on its form: a numeral without
fraction and exponent that fits 64 bits is an integer, with the exception of `-0`; everything else
is a real number and never counts as an integer, whatever its value. A real number must be in the
range of double precision.

The range is that of a reader that collects digits into 64 bits, drops the digits of the fraction
that no longer fit, and multiplies once by a power of ten, rounding both factors first.
-/

namespace QueryPrep.Text

/-- The characters of a text in order; `none` is a byte that belongs to no character. -/
abbrev Marks := List (Option Char)

namespace Marks

/-- A text without broken bytes. -/
def ofString (s : String) : Marks :=
  s.toList.map some

/-- The marks of the bytes from position `i` on, behind those found already, last one first. -/
def decodeFrom (bytes : ByteArray) (i : Nat) (before : Marks) : Marks :=
  if _ : i < bytes.size then
    match bytes.utf8DecodeChar? i with
    | some c => decodeFrom bytes (i + c.utf8Size) (some c :: before)
    | none => decodeFrom bytes (i + 1) (none :: before)
  else before.reverse
termination_by bytes.size - i
decreasing_by
  · have := c.utf8Size_pos
    omega
  · omega

/-- The marks of an encoded text. -/
def decode (bytes : ByteArray) : Marks :=
  decodeFrom bytes 0 []

end Marks

end QueryPrep.Text

namespace QueryPrep.Json

open QueryPrep.Text (Marks)

/-- A number as it is written. -/
structure Numeral where
  negative : Bool
  whole : List Char
  fraction : Option (List Char)
  /-- Whether the exponent is negative, and its digits. -/
  exponent : Option (Bool × List Char)
deriving DecidableEq, Repr

/-- A number that a value may hold. -/
inductive Number where
  | integer (n : Int)
  | real (numeral : Numeral)
deriving DecidableEq, Repr

namespace Numeral

/-! ### Scanning -/

/-- The digits in front of a text, and what follows them. -/
def digits (s : Marks) : List Char × Marks :=
  ((s.takeWhile (·.any Char.isDigit)).filterMap id, s.dropWhile (·.any Char.isDigit))

/-- The fraction in front of a text, if there is one; a point must have digits behind it. -/
def scanFraction : Marks → Option (Option (List Char) × Marks)
  | some '.' :: s =>
    let (ds, s) := digits s
    if ds.isEmpty then none else some (some ds, s)
  | s => some (none, s)

/-- The sign of an exponent, if there is one. -/
def scanSign : Marks → Bool × Marks
  | some '-' :: s => (true, s)
  | some '+' :: s => (false, s)
  | s => (false, s)

/-- The exponent in front of a text, if there is one. -/
def scanExponent : Marks → Option (Option (Bool × List Char) × Marks)
  | some 'e' :: s | some 'E' :: s =>
    let (negative, s) := scanSign s
    let (ds, s) := digits s
    if ds.isEmpty then none else some (some (negative, ds), s)
  | s => some (none, s)

/-- The numeral in front of a text. A whole part does not start with a zero unless it is one. -/
def scan (s : Marks) : Option (Numeral × Marks) := do
  let (negative, s) := match s with
    | some '-' :: s => (true, s)
    | s => (false, s)
  let (whole, s) := digits s
  if whole.isEmpty || (whole.head? == some '0' && whole.length != 1) then none
  let (fraction, s) ← scanFraction s
  let (exponent, s) ← scanExponent s
  return (⟨negative, whole, fraction, exponent⟩, s)

/-! ### Meaning -/

/-- Appends digits to a number as long as it fits 64 bits; the others are left. -/
def absorb (n : Nat) : List Char → Nat × List Char
  | [] => (n, [])
  | c :: cs =>
    let m := n * 10 + Decimal.digitValue c
    if m < UInt64.size then absorb m cs else (n, c :: cs)

/-- A number rounded to 53 significant bits, a half going to the even neighbour. -/
def round53 (n : Nat) : Nat :=
  let shift := n.log2 - 52
  let unit := 1 <<< shift
  let q := n / unit
  let r := n % unit * 2
  (if unit < r ∨ unit = r ∧ q % 2 = 1 then q + 1 else q) * unit

/-- Whether `n * 10 ^ e` leaves the range of double precision. -/
def Overflows (n : Nat) (e : Int) : Prop :=
  n ≠ 0 ∧ (308 < e ∨ (0 ≤ e ∧ (1 <<< 54 - 1) <<< 970 ≤ round53 n * round53 (Nat.pow 10 e.toNat)))

instance (n : Nat) (e : Int) : Decidable (Overflows n e) :=
  inferInstanceAs (Decidable (_ ∧ _))

/-- The value of the written exponent. -/
def shift (x : Numeral) : Int :=
  match x.exponent with
  | none => 0
  | some (negative, ds) => if negative then -(Decimal.value ds : Int) else Decimal.value ds

/-- The number a numeral stands for; none if it is out of range. -/
def number? (x : Numeral) : Option Number :=
  let (n, left) := absorb 0 x.whole
  let asReal :=
    let ds := x.fraction.getD []
    let (n, dropped) := absorb n ds
    if Overflows n (left.length - (ds.length - dropped.length : Int) + x.shift) then none
    else some (.real x)
  if x.fraction.isSome || x.exponent.isSome || !left.isEmpty then asReal
  else if !x.negative then some (.integer n)
  else if 0 < n ∧ n ≤ 1 <<< 63 then some (.integer (-n))
  else asReal

end Numeral

end QueryPrep.Json
