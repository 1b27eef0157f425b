import QueryPrep.Millis
import QueryPrep.Text.Double
import QueryPrep.Text.Numeral
import QueryPrep.Text.Scan
import QueryPrep.Time.Calendar
import QueryPrep.Toml.Value

/-!
# Numbers and points in time in TOML

Integers in four bases, numbers with a fraction or an exponent, dates and times. Digits may be
grouped with underscores. An integer must be in the range of 64 bits, and a positive number must not
be beyond the range of double precision.
-/

namespace QueryPrep.Toml

open QueryPrep.Text (Scan)
open QueryPrep.Text.Scan

namespace Number

/-! ### Digits -/

/-- Digits of a base, with single underscores between them; the underscores are dropped. -/
def grouped (isDigit : Char → Bool) : Scan (List Char) := do
  let first ← one isDigit
  let more ← many (one isDigit <|> do
    word ['_']
    one isDigit)
  let next ← ahead
  must (next ≠ some '_')
  return first :: more

/-- A sign, if there is one; true is minus. -/
def sign : Scan Bool := do
  match ← optionally (oneOf ['+', '-']) with
  | some '-' => return true
  | _ => return false

/-- Decimal digits without leading zeros. -/
def wholeDigits : Scan (List Char) := do
  let ds ← grouped Char.isDigit
  must (ds.length = 1 ∨ ds.head? ≠ some '0')
  return ds

/-! ### Integers -/

/-- The value of digits in a base of at most sixteen. -/
def valueIn (base : Nat) (digits : List Char) : Nat :=
  digits.foldl (fun n c => n * base + Hexadecimal.digitValue c) 0

/-- An integer in a base other than ten, behind its mark. -/
def based (mark : Char) (base : Nat) (isDigit : Char → Bool) : Scan Int := do
  word ['0', mark]
  let ds ← grouped isDigit
  return valueIn base ds

def hexadecimal : Scan Int :=
  based 'x' 16 Hexadecimal.isDigit

def octal : Scan Int :=
  based 'o' 8 fun c => '0' ≤ c && c ≤ '7'

def binary : Scan Int :=
  based 'b' 2 fun c => c = '0' || c = '1'

def decimal : Scan Int := do
  let negative ← sign
  let n := Decimal.value (← wholeDigits)
  return if negative then -(n : Int) else n

def integer : Scan Int := do
  let n ← hexadecimal <|> octal <|> binary <|> decimal
  must (Millis.Fits n)
  return n

/-! ### Other numbers -/

/-- The digits behind the point. -/
def fraction : Scan (List Char) := do
  word ['.']
  grouped Char.isDigit

def exponent : Scan Int := do
  let _ ← oneOf ['e', 'E']
  let negative ← sign
  let n := Decimal.value (← grouped Char.isDigit)
  return if negative then -(n : Int) else n

/-- A number with a fraction, an exponent or both. -/
def real : Scan Unit := do
  let negative ← sign
  let whole ← wholeDigits
  let fraction ← optionally fraction
  let exponent ← optionally exponent
  must (fraction.isSome ∨ exponent.isSome)
  let behind := fraction.getD []
  must (Double.ofDecimal negative (Decimal.value (whole ++ behind))
    (exponent.getD 0 - behind.length) ≠ .infinite false)

/-- Infinity, or no number at all. -/
def special : Scan Unit := do
  let _ ← sign
  word "inf".toList <|> word "nan".toList

/-! ### Points in time -/

/-- A calendar day. -/
def date : Scan Unit := do
  let year ← number 4 4
  word ['-']
  let month ← number 2 2
  word ['-']
  let day ← number 2 2
  must (Date.mk year month day).Valid

/-- A time of day, which may have a fraction of a second. -/
def time : Scan Unit := do
  let hour ← number 2 2
  word [':']
  let minute ← number 2 2
  word [':']
  let second ← number 2 2
  must (hour ≤ 23 ∧ minute ≤ 59 ∧ second ≤ 60)
  let _ ← optionally do
    word ['.']
    let ds ← run Char.isDigit
    must (ds ≠ [])

/-- The distance from UTC. -/
def zone : Scan Unit := do
  match ← oneOf ['Z', 'z', '+', '-'] with
  | 'Z' | 'z' => return
  | _ =>
    let hour ← number 2 2
    word [':']
    let minute ← number 2 2
    must (hour ≤ 23 ∧ minute ≤ 59)

/-- A day with or without a time, or a time alone. -/
def moment : Scan Unit :=
  (do
    date
    let _ ← optionally do
      let _ ← oneOf ['T', 't', ' ']
      time
      let _ ← optionally zone) <|>
  time

/-! ### All of them -/

/-- The text that a scanner takes. -/
def asWritten (s : Scan Unit) : Scan String := fun cs =>
  (s cs).map fun (_, rest) => (String.ofList (cs.take (cs.length - rest.length)), rest)

/-- A number or a point in time. -/
def value : Scan Value :=
  Value.moment <$> asWritten moment <|>
  Value.real <$> asWritten (real <|> special) <|>
  Value.integer <$> integer

end Number

end QueryPrep.Toml
