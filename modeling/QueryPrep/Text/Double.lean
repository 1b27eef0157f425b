import QueryPrep.Text.Numeral

/-!
# Numbers of double precision

A finite number is `mantissa * 2 ^ exponent`, with a mantissa of at most 53 bits and an exponent of
at least `leastExponent`. A decimal numeral is read as the nearest of these numbers, a half going to
the even neighbour, and a number is written in the fewest digits that are read back as it.

Everything is computed exactly, on whole numbers and fractions of them.
-/

namespace QueryPrep

inductive Double where
  | finite (negative : Bool) (mantissa : Nat) (exponent : Int)
  | infinite (negative : Bool)
  /-- No number at all. -/
  | nan
deriving DecidableEq, Repr

namespace Double

/-- The exponent of the smallest numbers. -/
def leastExponent : Int := -1074

/-- The exponent of the greatest numbers. -/
def greatestExponent : Int := 971

/-- The mantissa of a number is below this limit, and at least half of it unless the exponent is the
least one. -/
def mantissaLimit : Nat := 1 <<< 53

/-! ### Rounding -/

/-- A quotient, rounded to the nearest whole number, a half to the even one. -/
def roundDiv (num den : Nat) : Nat :=
  let q := num / den
  let r := num % den * 2
  if den < r ∨ den = r ∧ q % 2 = 1 then q + 1 else q

/-- The number with a mantissa that may be at its limit. -/
def ofMantissa (negative : Bool) (m : Nat) (q : Int) : Double :=
  if m = 0 then finite negative 0 leastExponent
  else
    let (m, q) := if m = mantissaLimit then (m / 2, q + 1) else (m, q)
    if greatestExponent < q then infinite negative else finite negative m q

/-- The exponent for a fraction: the quotient by its power of two has 53 bits, if it may have as
many. -/
def exponentFor (num den : Nat) : Int :=
  let q : Int := num.log2 - den.log2 - 52
  let short := (num <<< (-q).toNat) / (den <<< q.toNat) < mantissaLimit / 2
  max (if short then q - 1 else q) leastExponent

/-- The number nearest to a fraction. -/
def nearest (negative : Bool) (num den : Nat) : Double :=
  let q := exponentFor num den
  ofMantissa negative (roundDiv (num <<< (-q).toNat) (den <<< q.toNat)) q

/-- The number nearest to `n * 10 ^ e`. What lies far outside the range is not computed. -/
def ofDecimal (negative : Bool) (n : Nat) (e : Int) : Double :=
  let size := (Decimal.digits n).length + e
  if n = 0 ∨ size < -330 then finite negative 0 leastExponent
  else if 310 < size then infinite negative
  else nearest negative (n * Nat.pow 10 e.toNat) (Nat.pow 10 (-e).toNat)

/-! ### Order -/

/-- Numbers are ordered as their keys; the two zeros have the same one. -/
def key : Double → Int
  | finite negative m q =>
    let n : Int := m <<< (q - leastExponent).toNat
    if negative then -n else n
  | infinite negative => if negative then -(1 <<< 2200) else 1 <<< 2200
  | nan => 1 <<< 2201

def compare (x y : Double) : Ordering :=
  Ord.compare x.key y.key

/-! ### Writing -/

/-- The digits and the exponent of ten of the shortest decimal between the neighbours of a number,
where no shorter one begins at a greater exponent than `p`. The bounds are given in quarters of
`2 ^ q`; they are read back as the number if it is even. Of two decimals the nearer one is taken. -/
def shortestFrom (m : Nat) (q : Int) (low high : Nat) : (fuel : Nat) → (p : Int) → Nat × Int
  | 0, p => (0, p)
  | fuel + 1, p =>
    let times (quarters : Nat) : Nat := quarters * (1 <<< (q - 2).toNat) * Nat.pow 10 (-p).toNat
    let unit := (1 <<< (2 - q).toNat) * Nat.pow 10 p.toNat
    let below := times (4 * m) / unit
    let above := below + 1
    let within (n : Nat) : Bool :=
      if m % 2 = 0 then times low ≤ n * unit && n * unit ≤ times high
      else times low < n * unit && n * unit < times high
    match within below, within above with
    | true, true => (if 2 * times (4 * m) < (below + above) * unit then below else above, p)
    | true, false => (below, p)
    | false, true => (above, p)
    | false, false => shortestFrom m q low high fuel (p - 1)

/-- The shortest decimal that is read back as `m * 2 ^ q`: its digits and its exponent of ten. It
has at most 17 digits, and the first exponent that is tried is at most two too great. -/
def shortest (m : Nat) (q : Int) : Nat × Int :=
  let low := if m = mantissaLimit / 2 ∧ leastExponent < q then 4 * m - 1 else 4 * m - 2
  let size (n : Nat) : Int := (Decimal.digits n).length
  shortestFrom m q low (4 * m + 2) 24
    (size (m <<< q.toNat) - size (1 <<< (-q).toNat) + 1)

/-- The decimal `n * 10 ^ p`, without an exponent. -/
def positional (n : Nat) (p : Int) : List Char :=
  let ds := Decimal.digits n
  if 0 ≤ p then ds ++ List.replicate p.toNat '0'
  else
    let ds := List.replicate ((-p).toNat + 1 - ds.length) '0' ++ ds
    ds.take (ds.length - (-p).toNat) ++ '.' :: ds.drop (ds.length - (-p).toNat)

/-- The text of a number. -/
def write : Double → List Char
  | finite negative m q =>
    let digits := if m = 0 then ['0'] else
      let (n, p) := shortest m q
      positional n p
    (if negative then ['-'] else []) ++ digits
  | infinite negative => (if negative then ['-'] else []) ++ "inf".toList
  | nan => "NaN".toList

/-! ### Reading -/

/-- A sign in front of a text; true is minus. -/
def readSign : List Char → Bool × List Char
  | '-' :: cs => (true, cs)
  | '+' :: cs => (false, cs)
  | cs => (false, cs)

/-- The exponent behind the digits of a numeral, up to the end. -/
def readExponent? : List Char → Option Int
  | [] => some 0
  | c :: cs =>
    if c.toLower = 'e' then
      let (negative, cs) := readSign cs
      (Decimal.readNat? cs).map fun n => if negative then -(n : Int) else n
    else none

/-- Reads a number: digits with a point anywhere among them and an exponent behind them, or a word
in any mixture of capital and small letters. -/
def read? (cs : List Char) : Option Double :=
  let (negative, cs) := readSign cs
  let name := cs.map Char.toLower
  if name = "inf".toList ∨ name = "infinity".toList then some (infinite negative)
  else if name = "nan".toList then some nan
  else
    let (whole, rest) := Decimal.span cs
    let (fraction, rest) := match rest with
      | '.' :: cs => Decimal.span cs
      | cs => ([], cs)
    if whole.isEmpty && fraction.isEmpty then none
    else (readExponent? rest).map fun e =>
      ofDecimal negative (Decimal.value (whole ++ fraction)) (e - fraction.length)

end Double

end QueryPrep
