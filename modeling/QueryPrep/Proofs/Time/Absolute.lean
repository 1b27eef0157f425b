import QueryPrep.Proofs.Json.Numeral
import QueryPrep.Proofs.Text.Scan
import QueryPrep.Proofs.Time.Calendar
import QueryPrep.Proofs.Time.Relative

/-!
# Instants in calendar form

A date is written in four digits of year and two of month and day (`dateText`), a time of day in two
digits each of hour, minute and second (`clockText`). There are two scanners for a date and a time:
the one of full timestamps wants a fixed number of digits, the one of dates in UTC also takes fewer.
What is written with all its digits is the same to both of them, so the parts of a date and of a
time are followed once, for whatever scanner reads a part (`ReadsTwoDigits`).

Which form a text has is found by trying: without a time zone a text is no full timestamp, and
without a time it is no date and time. Main result: all forms agree on the instant, which is counted
in days of the calendar (`parse_absolute`).
-/

namespace QueryPrep.Timestamp

open QueryPrep.Json.Numeral (IsDigits)
open QueryPrep.Text (Scan IsPlain isBlank)
open QueryPrep.Text.Scan

/-! ### Dates and times as they are written -/

/-- A date in the form `YYYY-MM-DD`. -/
def dateText (d : Date) : List Char :=
  Decimal.padded 4 d.year.toNat ++ '-' :: (Decimal.padded 2 d.month ++ '-' ::
    Decimal.padded 2 d.day)

/-- A time of day or an offset in hours and minutes, in the form `HH:MM`. -/
def hourText (hour minute : Nat) : List Char :=
  Decimal.padded 2 hour ++ ':' :: Decimal.padded 2 minute

/-- A time of day in the form `HH:MM:SS`. -/
def clockText (hour minute second : Nat) : List Char :=
  hourText hour minute ++ ':' :: Decimal.padded 2 second

/-- A date and a time of day. -/
def dateTimeText (d : Date) (hour minute second : Nat) : List Char :=
  dateText d ++ 'T' :: clockText hour minute second

/-- The years that need no sign. -/
def HasFourDigits (year : Int) : Prop :=
  0 ≤ year ∧ year ≤ 9999

instance (year : Int) : Decidable (HasFourDigits year) :=
  inferInstanceAs (Decidable (_ ∧ _))

variable {α : Type} {d : Date} {hour minute second millis : Nat} {offset v : Int}
  {rest behind ds : List Char}

theorem month_lt (hd : d.Valid) : d.month < 100 := by
  have hle := hd.2.1
  omega

theorem day_lt (hd : d.Valid) : d.day < 100 := by
  have hle := Nat.le_trans hd.2.2.2 (Calendar.monthLength_le _ _)
  omega

/-! ### Parts of a date and of a time -/

/-- The scanner reads numbers that are written in two digits. -/
def ReadsTwoDigits (s : Scan Nat) : Prop :=
  ∀ n < 100, ∀ rest, s (Decimal.padded 2 n ++ rest) = some (n, rest)

theorem readsTwoDigits_number : ReadsTwoDigits (number 2 2) :=
  fun _ h rest => number_padded_append (by decide) (by decide) h rest

/-- What stands in so many digits starts with one of them. -/
theorem exists_padded_eq_cons (width n : Nat) :
    ∃ c cs, Decimal.padded width n = c :: cs ∧ c.isDigit = true := by
  rcases hpadded : Decimal.padded width n with - | ⟨c, cs⟩
  · exact absurd hpadded (Decimal.padded_ne_nil width n)
  · exact ⟨c, cs, rfl, Decimal.isDigit_of_mem_padded (hpadded ▸ List.mem_cons_self)⟩

/-- There are no blanks to be skipped. -/
theorem readsTwoDigits_field : ReadsTwoDigits field := by
  intro n h rest
  obtain ⟨c, cs, hcons, hdigit⟩ := exists_padded_eq_cons 2 n
  rw [field, run_bind (blanks_of_head _), number_padded_append (by decide) (by decide) h]
  rw [hcons]
  rintro _ ⟨⟩
  exact Text.isBlank_of_isDigit hdigit

theorem HasFourDigits.toNat_lt {y : Int} (h : HasFourDigits y) : y.toNat < 10 ^ 4 := by
  obtain ⟨hlo, hhi⟩ := h
  omega

theorem number_year_append {y : Int} (h : HasFourDigits y) (rest : List Char) :
    number 4 4 (Decimal.padded 4 y.toNat ++ rest) = some (y.toNat, rest) :=
  number_padded_append (by decide) (by decide) h.toNat_lt rest

/-- There is no sign in front. -/
theorem year_append {y : Int} (h : HasFourDigits y) (rest : List Char) :
    year (Decimal.padded 4 y.toNat ++ rest) = some (y, rest) := by
  have hnumber := number_padded_append (by decide : 1 ≤ 4) (by decide) h.toNat_lt rest
  obtain ⟨c, cs, hcons, hdigit⟩ := exists_padded_eq_cons 4 y.toNat
  rw [hcons] at hnumber ⊢
  unfold year
  split
  · rename_i heq
    cases heq
    exact absurd hdigit (by decide)
  · rename_i heq
    cases heq
    exact absurd hdigit (by decide)
  · rw [map_eq_pure_bind, run_bind hnumber, Int.toNat_of_nonneg h.1]
    rfl

section

variable {s : Scan Nat} {f : Nat → Nat → Scan α} (hs : ReadsTwoDigits s)
include hs

theorem hour_append (hhour : hour ≤ 23) (hminute : minute ≤ 59) :
    (do let hour ← s
        let _ ← oneOf [':']
        let minute ← s
        f hour minute) (hourText hour minute ++ rest) = f hour minute rest := by
  rw [hourText, List.append_assoc, List.cons_append]
  rw [run_bind (hs _ (by omega) _), run_bind (oneOf_cons (by decide)), run_bind (hs _ (by omega) _)]

theorem clock_append {f : Nat → Nat → Nat → Scan α} (hclock : InDay hour minute second) :
    (do let hour ← s
        let _ ← oneOf [':']
        let minute ← s
        let _ ← oneOf [':']
        let second ← s
        f hour minute second) (clockText hour minute second ++ rest) =
      f hour minute second rest := by
  obtain ⟨hhour, hminute, hsecond⟩ := hclock
  rw [clockText, List.append_assoc, List.cons_append, hour_append hs hhour hminute,
    run_bind (oneOf_cons (by decide)), run_bind (hs _ (by omega) _)]

theorem date_append {β : Type} {y : Scan β} {a : β} {f : β → Nat → Nat → Scan α} (hd : d.Valid)
    (hy : ∀ rest, y (Decimal.padded 4 d.year.toNat ++ rest) = some (a, rest)) :
    (do let year ← y
        let _ ← oneOf ['-']
        let month ← s
        let _ ← oneOf ['-']
        let day ← s
        f year month day) (dateText d ++ rest) = f a d.month d.day rest := by
  rw [dateText, List.append_assoc, List.cons_append, List.append_assoc, List.cons_append]
  rw [run_bind (hy _), run_bind (oneOf_cons (by decide)), run_bind (hs _ (month_lt hd) _),
    run_bind (oneOf_cons (by decide)), run_bind (hs _ (day_lt hd) _)]

end

/-! ### Full timestamps -/

/-- Digits of a fraction, as many as there are. -/
theorem fraction_append (hds : IsDigits ds) (hrest : ∀ c ∈ rest.head?, c.isDigit = false) :
    fraction ('.' :: (ds ++ rest)) = some (fractionMillis ds, rest) := by
  have hpos : 1 ≤ ds.length := List.length_pos_iff.mpr hds.1
  have hle : ds.length ≤ (ds ++ rest).length := by simp
  show (fractionMillis <$> digits 1 (ds ++ rest).length) (ds ++ rest) = _
  rw [map_eq_pure_bind, run_bind (digits_append hds.2 hpos hle (.inr hrest))]
  rfl

theorem fraction_of_head (h : ∀ c ∈ rest.head?, c ≠ '.') : fraction rest = some (0, rest) := by
  unfold fraction
  split
  · exact absurd rfl (h '.' rfl)
  · rfl

theorem zone_offset {sign : Char} (hsign : sign = '+' ∨ sign = '-') (hhour : hour ≤ 23)
    (hminute : minute ≤ 59) (rest : List Char) :
    zone (sign :: (hourText hour minute ++ rest)) =
      some (if sign = '+' then (hour * 60 + minute : Int) else -(hour * 60 + minute), rest) := by
  have hutc : sign ∉ ['Z', 'z'] := by
    rcases hsign with rfl | rfl <;> decide
  have hallowed : sign ∈ ['Z', 'z', '+', '-', '\u2212'] := by
    rcases hsign with rfl | rfl <;> decide
  rw [zone, run_bind (oneOf_cons hallowed), if_neg hutc,
    hour_append readsTwoDigits_number hhour hminute,
    run_bind (run_must ⟨hhour, hminute⟩)]
  rfl

/-- A full timestamp is what its parts are, if a time zone follows. -/
theorem internet_append (hd : d.Valid) (hyear : HasFourDigits d.year)
    (hclock : InDay hour minute second) (hfraction : fraction rest = some (millis, behind)) :
    internet (dateTimeText d hour minute second ++ rest) =
      (zone behind).map fun z =>
        ((Moment.mk d hour minute second millis).epochMillis - z.1 * 60000, z.2) := by
  have hnat : ((d.year.toNat : Nat) : Int) = d.year := Int.toNat_of_nonneg hyear.1
  rw [dateTimeText, List.append_assoc, List.cons_append, internet,
    date_append readsTwoDigits_number hd (number_year_append hyear),
    run_bind (oneOf_cons (by decide)), clock_append readsTwoDigits_number hclock,
    run_bind hfraction]
  rcases hzone : zone behind with - | ⟨offset, left⟩
  · exact fail_bind hzone
  · rw [run_bind hzone, hnat, run_bind (run_must ⟨hd, hclock⟩)]
    rfl

/-- A date alone is no full timestamp. -/
theorem internet_dateText (hd : d.Valid) (hyear : HasFourDigits d.year) :
    internet (dateText d) = none := by
  rw [← List.append_nil (dateText d), internet,
    date_append readsTwoDigits_number hd (number_year_append hyear)]
  -- nothing is left where the letter in front of the time should be
  rfl

/-! ### Dates and times in UTC -/

theorem exists_dateText_eq_cons (d : Date) :
    ∃ c cs, dateText d = c :: cs ∧ c.isDigit = true ∧ '-' ∈ cs := by
  obtain ⟨c, cs, hcons, hdigit⟩ := exists_padded_eq_cons 4 d.year.toNat
  exact ⟨c, _, by rw [dateText, hcons, List.cons_append], hdigit, by simp⟩

theorem date_dateText_append (hd : d.Valid) (hyear : HasFourDigits d.year) :
    date (dateText d ++ rest) = some (d, rest) := by
  have hblanks : blanks (dateText d ++ rest) = some ((), dateText d ++ rest) := by
    obtain ⟨c, cs, hcons, hdigit, -⟩ := exists_dateText_eq_cons d
    refine blanks_of_head ?_
    rw [hcons]
    rintro _ ⟨⟩
    exact Text.isBlank_of_isDigit hdigit
  have hyears : firstYear ≤ d.year ∧ d.year ≤ lastYear := by
    obtain ⟨hlo, hhi⟩ := hyear
    unfold firstYear lastYear
    omega
  rw [date, run_bind hblanks, date_append readsTwoDigits_field hd (year_append hyear),
    run_bind (run_must ⟨hd, hyears⟩)]
  rfl

theorem midnight_dateText (hd : d.Valid) (hyear : HasFourDigits d.year) :
    midnight (dateText d) = some ((Moment.mk d 0 0 0 0).epochMillis, []) := by
  rw [← List.append_nil (dateText d), midnight, run_bind (date_dateText_append hd hyear)]
  rfl

/-- A date alone is no date and time. -/
theorem dateTime_dateText (hd : d.Valid) (hyear : HasFourDigits d.year) :
    dateTime (dateText d) = none := by
  rw [← List.append_nil (dateText d), dateTime, run_bind (date_dateText_append hd hyear)]
  rfl

theorem dateTime_dateTimeText (hd : d.Valid) (hyear : HasFourDigits d.year)
    (hclock : InDay hour minute second) :
    dateTime (dateTimeText d hour minute second) =
      some ((Moment.mk d hour minute second 0).epochMillis, []) := by
  rw [dateTimeText, dateTime, run_bind (date_dateText_append hd hyear),
    run_bind (oneOf_cons (by decide)), ← List.append_nil (clockText hour minute second),
    clock_append readsTwoDigits_field hclock, run_bind (run_must hclock)]
  rfl

/-! ### Texts -/

@[simp]
theorem isPlain_padded (width n : Nat) : IsPlain (Decimal.padded width n) :=
  Text.isPlain_of_isDigit fun _ => Decimal.isDigit_of_mem_padded

theorem isPlain_hourText (hour minute : Nat) : IsPlain (hourText hour minute) := by
  simp [hourText, isBlank]

theorem isPlain_clockText (hour minute second : Nat) : IsPlain (clockText hour minute second) := by
  simp [clockText, isPlain_hourText, isBlank]

theorem isPlain_dateText (d : Date) : IsPlain (dateText d) := by
  simp [dateText, isBlank]

/-- What starts with a date is no number and does not start with `now`. -/
theorem parse_of_absolute? (hrest : IsPlain rest) (h : absolute? (dateText d ++ rest) = some v)
    (now : Int) : parse (String.ofList (dateText d ++ rest)) now = .ok v := by
  have htrim : Text.trim (String.ofList (dateText d ++ rest)).toList = dateText d ++ rest := by
    rw [String.toList_ofList]
    exact (Text.isPlain_append_iff.mpr ⟨isPlain_dateText d, hrest⟩).trim_eq
  obtain ⟨c, cs, hcons, hdigit, hmem⟩ := exists_dateText_eq_cons d
  -- there is no sign in front, and there is something that is no digit
  have hnumber : Decimal.readInt? (dateText d ++ rest) = none := by
    rw [hcons, List.cons_append, Decimal.readInt?_of_head hdigit,
      Decimal.readNat?_of_not_isDigit (by simp [hmem] : '-' ∈ c :: (cs ++ rest)) rfl]
    rfl
  have hnow : afterNow? (dateText d ++ rest) = none := by
    rw [Option.eq_none_iff_forall_ne_some]
    intro behind hbehind
    rw [afterNow?_eq_some_iff, hcons, List.cons_append] at hbehind
    obtain ⟨rfl, -⟩ := List.cons.inj hbehind
    exact absurd hdigit (by decide)
  rw [parse]
  simp only [htrim, hnumber, hnow, h, Option.bind_none]

theorem parse_dateText (hd : d.Valid) (hyear : HasFourDigits d.year) (now : Int) :
    parse (String.ofList (dateText d)) now = .ok (Moment.mk d 0 0 0 0).epochMillis := by
  have habsolute : absolute? (dateText d ++ []) = some (Moment.mk d 0 0 0 0).epochMillis := by
    rw [List.append_nil, absolute?, whole_of_fail (internet_dateText hd hyear),
      whole_of_fail (dateTime_dateText hd hyear), whole_of_run (midnight_dateText hd hyear)]
    rfl
  have hparse := parse_of_absolute? Text.isPlain_nil habsolute now
  rwa [List.append_nil] at hparse

section

variable (hd : d.Valid) (hyear : HasFourDigits d.year) (hclock : InDay hour minute second)
include hd hyear hclock

theorem parse_dateTimeText (now : Int) :
    parse (String.ofList (dateTimeText d hour minute second)) now =
      .ok (Moment.mk d hour minute second 0).epochMillis := by
  have hnone : internet (dateTimeText d hour minute second) = none := by
    -- there is nothing left for the time zone
    have hrun := internet_append hd hyear hclock (fraction_of_head (by simp) : fraction [] = _)
    rw [List.append_nil] at hrun
    exact hrun
  refine parse_of_absolute? (Text.isPlain_cons_iff.mpr ⟨rfl, isPlain_clockText _ _ _⟩) ?_ now
  rw [← dateTimeText, absolute?, whole_of_fail hnone,
    whole_of_run (dateTime_dateTimeText hd hyear hclock)]
  rfl

/-- A full timestamp, with whatever fraction and time zone. -/
theorem parse_internet (hrest : IsPlain rest) (hfraction : fraction rest = some (millis, behind))
    (hzone : zone behind = some (offset, [])) (now : Int) :
    parse (String.ofList (dateTimeText d hour minute second ++ rest)) now =
      .ok ((Moment.mk d hour minute second millis).epochMillis - offset * 60000) := by
  have hrun := internet_append hd hyear hclock hfraction
  rw [hzone, Option.map_some] at hrun
  rw [dateTimeText, List.append_assoc] at hrun ⊢
  refine parse_of_absolute? ?_ ?_ now
  · exact Text.isPlain_cons_iff.mpr
      ⟨rfl, Text.isPlain_append_iff.mpr ⟨isPlain_clockText _ _ _, hrest⟩⟩
  · rw [absolute?, whole_of_run hrun]
    rfl

theorem parse_fraction (hds : IsDigits ds) (now : Int) :
    parse (String.ofList (dateTimeText d hour minute second ++ '.' :: (ds ++ ['Z']))) now =
      .ok (Moment.mk d hour minute second (fractionMillis ds)).epochMillis := by
  have hplain : IsPlain ('.' :: (ds ++ ['Z'])) := by
    simp [Text.isPlain_of_isDigit hds.2, isBlank]
  rw [parse_internet hd hyear hclock hplain (fraction_append hds (by simp)) rfl]
  exact congrArg Except.ok (Int.sub_zero _)

theorem parse_offset (sign : Char) (hsign : sign = '+' ∨ sign = '-') {offsetHour offsetMinute : Nat}
    (hoffset : offsetHour ≤ 23 ∧ offsetMinute ≤ 59) (now : Int) :
    parse (String.ofList (dateTimeText d hour minute second ++
        sign :: hourText offsetHour offsetMinute)) now =
      .ok ((Moment.mk d hour minute second 0).epochMillis -
        (if sign = '+' then (offsetHour * 60 + offsetMinute : Int)
          else -(offsetHour * 60 + offsetMinute)) * 60000) := by
  have hzone := zone_offset hsign hoffset.1 hoffset.2 []
  have hplain : IsPlain (sign :: hourText offsetHour offsetMinute) := by
    rcases hsign with rfl | rfl <;> simp [isPlain_hourText, isBlank]
  have hpoint : ∀ c ∈ (sign :: hourText offsetHour offsetMinute).head?, c ≠ '.' := by
    rcases hsign with rfl | rfl <;> simp
  rw [List.append_nil] at hzone
  exact parse_internet hd hyear hclock hplain (fraction_of_head hpoint) hzone now

end

/-- **All forms of a date and a time mean one instant of the calendar.** Let `days` be how many days
the date is after 1970-01-01. Then the date and the time of day are read as `v`, as they stand or
with `Z` behind them; a fraction adds the milliseconds of its first three digits; a time zone is
taken off if it is ahead of UTC, and added if it is behind. The date alone is its midnight. -/
theorem parse_absolute {offsetHour offsetMinute : Nat} (hd : d.Valid)
    (hyear : HasFourDigits d.year) (hclock : hour ≤ 23 ∧ minute ≤ 59 ∧ second ≤ 59)
    (hds : IsDigits ds) (hoffset : offsetHour ≤ 23 ∧ offsetMinute ≤ 59) (now : Int) :
    ∃ days, Date.IsDaysAfter days Date.epoch d ∧
      let text := dateTimeText d hour minute second
      let v : Int := days * 86400000 + hour * 3600000 + minute * 60000 + second * 1000
      let offset : Int := offsetHour * 3600000 + offsetMinute * 60000
      parse (String.ofList text) now = .ok v ∧
      parse (String.ofList (text ++ ['Z'])) now = .ok v ∧
      parse (String.ofList (text ++ '.' :: (ds ++ ['Z']))) now =
        .ok (v + Decimal.value ((ds ++ ['0', '0', '0']).take 3)) ∧
      parse (String.ofList (text ++ '+' :: hourText offsetHour offsetMinute)) now =
        .ok (v - offset) ∧
      parse (String.ofList (text ++ '-' :: hourText offsetHour offsetMinute)) now =
        .ok (v + offset) ∧
      parse (String.ofList (dateText d)) now =
        parse (String.ofList (dateTimeText d 0 0 0)) now := by
  refine ⟨d.dayNumber, (Date.isDaysAfter_epoch_iff hd).mpr rfl, ?_⟩
  intro text v offset
  have hday : InDay hour minute second := ⟨hclock.1, hclock.2.1, by omega⟩
  have hv (millis : Nat) : (Moment.mk d hour minute second millis).epochMillis = v + millis := by
    simp only [v, Moment.epochMillis]
    omega
  have hplain := parse_dateTimeText hd hyear hday now
  have hutc := parse_internet hd hyear hday (by decide : IsPlain ['Z'])
    (fraction_of_head (by simp)) rfl now
  have hfraction := parse_fraction hd hyear hday hds now
  have hahead := parse_offset hd hyear hday '+' (.inl rfl) hoffset now
  have hbehind := parse_offset hd hyear hday '-' (.inr rfl) hoffset now
  rw [hv] at hplain hutc hfraction hahead hbehind
  refine ⟨hplain.trans (congrArg _ ?_), hutc.trans (congrArg _ ?_), hfraction,
    hahead.trans (congrArg _ ?_), hbehind.trans (congrArg _ ?_), ?_⟩
  · omega
  · omega
  · rw [if_pos rfl]
    omega
  · rw [if_neg (by decide)]
    omega
  · rw [parse_dateText hd hyear, parse_dateTimeText hd hyear (by decide)]

/-- The first day of the year 0, whose midnight is in the year before ahead of UTC, and a fraction
whose fourth digit would round it up. -/
theorem parse_absolute_year_zero :
    parse "0000-01-01T00:00:00" 7 = .ok (-62167219200000) ∧
      parse "0000-01-01T00:00:00Z" 7 = .ok (-62167219200000) ∧
      parse "0000-01-01T00:00:00.9996Z" 7 = .ok (-62167219199001) ∧
      parse "0000-01-01T00:00:00+23:59" 7 = .ok (-62167305540000) ∧
      parse "0000-01-01T00:00:00-23:59" 7 = .ok (-62167132860000) ∧
      parse "0000-01-01" 7 = parse "0000-01-01T00:00:00" 7 := by
  have hd : Date.Valid ⟨0, 1, 1⟩ := by decide
  have hclock : 0 ≤ 23 ∧ 0 ≤ 59 ∧ 0 ≤ 59 := by decide
  have hds : IsDigits ['9', '9', '9', '6'] := by decide
  have hoffset : 23 ≤ 23 ∧ 59 ≤ 59 := by decide
  obtain ⟨days, hdays, hparse⟩ := parse_absolute hd (by decide) hclock hds hoffset 7
  obtain rfl : days = -719528 := ((Date.isDaysAfter_epoch_iff hd).mp hdays).trans (by decide)
  exact hparse

end QueryPrep.Timestamp
