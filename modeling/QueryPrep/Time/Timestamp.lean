import QueryPrep.Text.Scan
import QueryPrep.Time.Calendar
import QueryPrep.Time.Duration

/-!
# Timestamps

The text of an instant is one of these, tried in this order, with blanks around it ignored:

* a signed number of milliseconds;
* `now`, or `now` less a duration: whatever starts with `now` is read as this or refused;
* a full internet timestamp: four digits of year, two of everything else, a time zone at the end;
* a date and a time, or a date alone, in UTC. Here fields may be short, blanks may stand in front of
  a number, and a year with a sign may have any number of digits.

The forms are scanners; a form is taken only if it reads all of the text. The instant `now` is an
argument, and only the second form looks at it.

`Timestamp.render` writes an instant as a full timestamp with milliseconds, and an instant beyond
the years of the calendar as its plain number.
-/

namespace QueryPrep

namespace Timestamp

open QueryPrep.Text (Scan)
open QueryPrep.Text.Scan

/-! ### Full internet timestamps -/

/-- The milliseconds of a fraction's digits; digits behind the third are dropped. -/
def fractionMillis (ds : List Char) : Nat :=
  Decimal.value ((ds ++ ['0', '0', '0']).take 3)

/-- A fraction of a second, if there is one. -/
def fraction : Scan Nat := fun cs =>
  match cs with
  | '.' :: cs => (fractionMillis <$> digits 1 cs.length) cs
  | cs => some (0, cs)

/-- A time zone as minutes ahead of UTC: `Z`, or a sign, hours and minutes. -/
def zone : Scan Int := do
  let sign ← oneOf ['Z', 'z', '+', '-', '\u2212']
  if sign ∈ ['Z', 'z'] then return 0
  let hours ← number 2 2
  let _ ← oneOf [':']
  let minutes ← number 2 2
  must (hours ≤ 23 ∧ minutes ≤ 59)
  let offset : Int := hours * 60 + minutes
  return if sign = '+' then offset else -offset

/-- The fields of a time of day are in range. A second 60 is a leap second, in any minute. -/
def InDay (hour minute second : Nat) : Prop :=
  hour ≤ 23 ∧ minute ≤ 59 ∧ second ≤ 60

instance (hour minute second : Nat) : Decidable (InDay hour minute second) :=
  inferInstanceAs (Decidable (_ ∧ _))

/-- A full timestamp as epoch milliseconds. -/
def internet : Scan Int := do
  let year ← number 4 4
  let _ ← oneOf ['-']
  let month ← number 2 2
  let _ ← oneOf ['-']
  let day ← number 2 2
  let _ ← oneOf ['T', 't', ' ']
  let hour ← number 2 2
  let _ ← oneOf [':']
  let minute ← number 2 2
  let _ ← oneOf [':']
  let second ← number 2 2
  let millis ← fraction
  let offset ← zone
  must ((Date.mk year month day).Valid ∧ InDay hour minute second)
  return (Moment.mk ⟨year, month, day⟩ hour minute second millis).epochMillis - offset * 60000

/-! ### Dates and times in UTC -/

/-- The first and the last year of dates. -/
def firstYear : Int := -262143

@[inherit_doc firstYear]
def lastYear : Int := 262142

/-- A year: up to four digits, or a sign and any number of them. -/
def year : Scan Int := fun cs =>
  match cs with
  | '-' :: cs => ((fun n : Nat => -(n : Int)) <$> number 1 cs.length) cs
  | '+' :: cs => ((fun n : Nat => (n : Int)) <$> number 1 cs.length) cs
  | cs => ((fun n : Nat => (n : Int)) <$> number 1 4) cs

/-- A field of one or two digits. -/
def field : Scan Nat := do
  blanks
  number 1 2

/-- A date. -/
def date : Scan Date := do
  blanks
  let year ← year
  let _ ← oneOf ['-']
  let month ← field
  let _ ← oneOf ['-']
  let day ← field
  must ((Date.mk year month day).Valid ∧ firstYear ≤ year ∧ year ≤ lastYear)
  return ⟨year, month, day⟩

/-- A date at midnight. -/
def midnight : Scan Int := do
  let date ← date
  return (Moment.mk date 0 0 0 0).epochMillis

/-- A date and a time. -/
def dateTime : Scan Int := do
  let date ← date
  let _ ← oneOf ['T']
  let hour ← field
  let _ ← oneOf [':']
  let minute ← field
  let _ ← oneOf [':']
  let second ← field
  must (InDay hour minute second)
  return (Moment.mk date hour minute second 0).epochMillis

/-- The instant of a text in one of the calendar forms. -/
def absolute? (cs : List Char) : Option Int :=
  whole internet cs <|> whole dateTime cs <|> whole midnight cs

/-! ### Relative to now -/

/-- What follows `now` in a text that starts with it. -/
def afterNow? : List Char → Option (List Char)
  | 'n' :: 'o' :: 'w' :: cs => some cs
  | _ => none

/-- The duration text in what follows `now`: it stands behind a minus sign, with blanks around the
sign only. -/
def offsetText? (cs : List Char) : Option (List Char) :=
  match Text.trimStart cs with
  | '-' :: cs =>
    let text := Text.trimStart cs
    if text.isEmpty || text.any Text.isBlank then none else some text
  | _ => none

/-- The instant of a text that starts with `now`; `text` is that text and `rest` what follows. -/
def relative (text : String) (rest : List Char) (now : Int) : Except TimeError Int :=
  if rest.isEmpty then .ok now
  else match offsetText? rest with
    | none => .error (.badTimestamp text)
    | some d =>
      match Duration.parse (String.ofList d) with
      | .error e => .error e
      | .ok n => if Millis.least ≤ now - n then .ok (now - n) else .error (.outOfRange text)

/-- Reads a timestamp as epoch milliseconds, `now` being the instant it is read at. -/
def parse (text : String) (now : Int) : Except TimeError Int :=
  let cs := Text.trim text.toList
  match (Decimal.readInt? cs).bind Millis.checked? with
  | some n => .ok n
  | none =>
    match afterNow? cs with
    | some rest => relative (String.ofList cs) rest now
    | none =>
      match absolute? cs with
      | some n => .ok n
      | none => .error (.badTimestamp text)

/-! ### Writing -/

/-- A year in four digits, or with a sign and at least four digits where that is not enough. -/
def writeYear (year : Int) : List Char :=
  if 0 ≤ year ∧ year ≤ 9999 then Decimal.padded 4 year.toNat
  else (if year < 0 then '-' else '+') :: Decimal.padded 4 year.natAbs

/-- An instant as a full timestamp with three digits of milliseconds. -/
def writeMoment (m : Moment) : List Char :=
  writeYear m.date.year ++ '-' :: Decimal.padded 2 m.date.month ++ '-' ::
    Decimal.padded 2 m.date.day ++ 'T' :: Decimal.padded 2 m.hour ++ ':' ::
    Decimal.padded 2 m.minute ++ ':' :: Decimal.padded 2 m.second ++ '.' ::
    Decimal.padded 3 m.millis ++ ['Z']

/-- The text of an instant: a full timestamp, or the plain number outside the years of dates. -/
def render (n : Int) : String :=
  let m := Moment.ofEpochMillis n
  String.ofList <|
    if firstYear ≤ m.date.year ∧ m.date.year ≤ lastYear then writeMoment m else Decimal.write n

end Timestamp

end QueryPrep
