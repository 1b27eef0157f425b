import QueryPrep.Proofs.Time.Absolute

/-!
# Instants that are written and read

An instant is split into a date and a time of day and written as a full timestamp with milliseconds,
or as its plain number where its date is beyond the years of the calendar. What is written in four
digits of year is one of the forms that are read, and a plain number is another
(`Timestamp.parse_render`). Between these lie the years with a sign, which a full timestamp has not.

No two instants are written alike, whichever way they are written (`Timestamp.render_injective`).
Everything behind the year has a fixed width, so the year ends where it does, and only a timestamp
ends with a letter.
-/

namespace QueryPrep

open QueryPrep.Timestamp

/-! ### Instants and their parts -/

/-- The day in which an instant lies: that many whole days after 1970-01-01, and less than a day
into it. -/
def Date.IsDayOf (d : Date) (n : Int) : Prop :=
  d.Valid ∧ ∃ days millis : Int, Date.IsDaysAfter days Date.epoch d ∧
    0 ≤ millis ∧ millis < 86400000 ∧ n = days * 86400000 + millis

namespace Moment

/-- The fields are those of a date and of a time of day. -/
structure InRange (m : Moment) : Prop where
  date : m.date.Valid
  day : InDay m.hour m.minute m.second
  millis : m.millis < 1000

theorem inRange_ofEpochMillis (n : Int) : (ofEpochMillis n).InRange where
  date := Date.valid_ofDayNumber _
  day := by
    show _ / 3600000 ≤ 23 ∧ _ / 60000 % 60 ≤ 59 ∧ _ / 1000 % 60 ≤ 60
    omega
  millis := Nat.mod_lt _ (by decide)

/-- **The parts of an instant add up to it.** -/
theorem epochMillis_ofEpochMillis (n : Int) : (ofEpochMillis n).epochMillis = n := by
  unfold epochMillis ofEpochMillis
  dsimp only
  rw [Date.dayNumber_ofDayNumber]
  omega

theorem ofEpochMillis_injective : Function.Injective ofEpochMillis := by
  intro m n h
  rw [← epochMillis_ofEpochMillis m, h, epochMillis_ofEpochMillis]

/-- An instant lies in one day. -/
theorem isDayOf_iff {d : Date} {n : Int} : d.IsDayOf n ↔ d = (ofEpochMillis n).date := by
  have hdate : (ofEpochMillis n).date = Date.ofDayNumber (n / 86400000) := rfl
  constructor
  · rintro ⟨hd, days, millis, hdays, hzero, hlt, hn⟩
    have hnumber : n / 86400000 = d.dayNumber := by
      rw [← (Date.isDaysAfter_epoch_iff hd).mp hdays]
      omega
    rw [hdate, hnumber, Date.ofDayNumber_dayNumber hd]
  · rintro rfl
    have hvalid := Date.valid_ofDayNumber (n / 86400000)
    refine ⟨hvalid, n / 86400000, n % 86400000, ?_, by omega, by omega, by omega⟩
    exact (Date.isDaysAfter_epoch_iff hvalid).mpr (Date.dayNumber_ofDayNumber _).symm

end Moment

namespace Timestamp

open QueryPrep.Json.Numeral (IsDigits)
open QueryPrep.Text (IsPlain isBlank)

variable {m m' : Moment} {n year year' : Int}

/-! ### Reading what is written -/

theorem writeYear_of_hasFourDigits (h : HasFourDigits year) :
    writeYear year = Decimal.padded 4 year.toNat :=
  if_pos h

theorem writeMoment_of_year (h : HasFourDigits m.date.year) : writeMoment m =
    dateTimeText m.date m.hour m.minute m.second ++
      '.' :: (Decimal.padded 3 m.millis ++ ['Z']) := by
  rw [writeMoment, writeYear_of_hasFourDigits h]
  simp [dateTimeText, dateText, clockText, hourText]

theorem fractionMillis_padded (h : m.millis < 1000) :
    fractionMillis (Decimal.padded 3 m.millis) = m.millis := by
  rw [fractionMillis, List.take_left' (Decimal.length_padded (by decide) h), Decimal.value_padded]

theorem parse_writeMoment (hm : m.InRange) (hyear : HasFourDigits m.date.year) (now : Int) :
    parse (String.ofList (writeMoment m)) now = .ok m.epochMillis := by
  have hdigits : IsDigits (Decimal.padded 3 m.millis) :=
    ⟨Decimal.padded_ne_nil _ _, fun _ => Decimal.isDigit_of_mem_padded⟩
  rw [writeMoment_of_year hyear, parse_fraction hm.date hyear hm.day hdigits,
    fractionMillis_padded hm.millis]

theorem isPlain_write (n : Int) : IsPlain (Decimal.write n) := by
  rcases n with n | n
  · exact Text.isPlain_of_isDigit fun _ => Decimal.isDigit_of_mem_digits
  · exact Text.isPlain_cons_iff.mpr
      ⟨rfl, Text.isPlain_of_isDigit fun _ => Decimal.isDigit_of_mem_digits⟩

theorem parse_write (h : Millis.Fits n) (now : Int) :
    parse (String.ofList (Decimal.write n)) now = .ok n := by
  have htrim : Text.trim (String.ofList (Decimal.write n)).toList = Decimal.write n := by
    rw [String.toList_ofList, (isPlain_write n).trim_eq]
  rw [parse]
  simp only [htrim, Decimal.readInt?_write, Option.bind_some, Millis.checked?_of_fits h]

/-- **What is written of an instant is read as this instant**, if the year of its day has four
digits or is beyond the calendar. -/
theorem parse_render (h : Millis.Fits n) : ∃ d : Date, (∀ e : Date, e.IsDayOf n ↔ e = d) ∧
    (HasFourDigits d.year ∨ d.year < firstYear ∨ lastYear < d.year →
      ∀ now, parse (render n) now = .ok n) := by
  refine ⟨(Moment.ofEpochMillis n).date, fun _ => Moment.isDayOf_iff, fun hyear now => ?_⟩
  rcases hyear with hyear | hyear
  · have hcalendar : firstYear ≤ (Moment.ofEpochMillis n).date.year ∧
        (Moment.ofEpochMillis n).date.year ≤ lastYear := by
      obtain ⟨hlo, hhi⟩ := hyear
      unfold firstYear lastYear
      omega
    have hparse := parse_writeMoment (Moment.inRange_ofEpochMillis n) hyear now
    rw [Moment.epochMillis_ofEpochMillis] at hparse
    rwa [render, if_pos hcalendar]
  · rw [render, if_neg (by omega)]
    exact parse_write h now

/-! ### No two instants are written alike -/

/-- What is written of a moment behind its year. -/
def yearlessText (m : Moment) : List Char :=
  '-' :: (Decimal.padded 2 m.date.month ++ '-' :: (Decimal.padded 2 m.date.day ++
    'T' :: (Decimal.padded 2 m.hour ++ ':' :: (Decimal.padded 2 m.minute ++
      ':' :: (Decimal.padded 2 m.second ++ '.' :: (Decimal.padded 3 m.millis ++ ['Z']))))))

theorem writeMoment_eq_append (m : Moment) :
    writeMoment m = writeYear m.date.year ++ yearlessText m := by
  simp [writeMoment, yearlessText]

theorem length_yearlessText (hm : m.InRange) : (yearlessText m).length = 20 := by
  have htwo {k : Nat} (h : k < 10 ^ 2) := Decimal.length_padded (by decide) h
  obtain ⟨hhour, hminute, hsecond⟩ := hm.day
  simp only [yearlessText, List.length_cons, List.length_append, List.length_nil]
  rw [htwo (month_lt hm.date), htwo (day_lt hm.date), htwo (by omega), htwo (by omega),
    htwo (by omega), Decimal.length_padded (by decide) hm.millis]

theorem writeYear_of_not_hasFourDigits (h : ¬ HasFourDigits year) :
    writeYear year = (if year < 0 then '-' else '+') :: Decimal.padded 4 year.natAbs :=
  if_neg h

/-- A sign is no digit. -/
theorem writeYear_ne (h : HasFourDigits year) (h' : ¬ HasFourDigits year') :
    writeYear year ≠ writeYear year' := by
  obtain ⟨c, cs, hcons, hdigit⟩ := exists_padded_eq_cons 4 year.toNat
  rw [writeYear_of_hasFourDigits h, writeYear_of_not_hasFourDigits h', hcons]
  intro heq
  obtain ⟨rfl, -⟩ := List.cons.inj heq
  split at hdigit <;> exact absurd hdigit (by decide)

theorem writeYear_injective : Function.Injective writeYear := by
  intro year year' h
  by_cases hfour : HasFourDigits year <;> by_cases hfour' : HasFourDigits year'
  · rw [writeYear_of_hasFourDigits hfour, writeYear_of_hasFourDigits hfour',
      Decimal.padded_inj] at h
    rw [← Int.toNat_of_nonneg hfour.1, h, Int.toNat_of_nonneg hfour'.1]
  · exact absurd h (writeYear_ne hfour hfour')
  · exact absurd h.symm (writeYear_ne hfour' hfour)
  · rw [writeYear_of_not_hasFourDigits hfour, writeYear_of_not_hasFourDigits hfour'] at h
    obtain ⟨hsign, habs⟩ := List.cons.inj h
    rw [Decimal.padded_inj] at habs
    by_cases hneg : year < 0 <;> by_cases hneg' : year' < 0
    · omega
    · rw [if_pos hneg, if_neg hneg'] at hsign
      exact absurd hsign (by decide)
    · rw [if_neg hneg, if_pos hneg'] at hsign
      exact absurd hsign (by decide)
    · omega

/-- Every field is found where it stands. -/
theorem writeMoment_inj (hm : m.InRange) (hm' : m'.InRange)
    (h : writeMoment m = writeMoment m') : m = m' := by
  rw [writeMoment_eq_append, writeMoment_eq_append] at h
  -- the years may differ in length, but what stands behind them does not
  obtain ⟨hyear, h⟩ := List.append_inj' h (by rw [length_yearlessText hm, length_yearlessText hm'])
  obtain ⟨hhour, hminute, hsecond⟩ := hm.day
  obtain ⟨hhour', hminute', hsecond'⟩ := hm'.day
  have htwo {a b : Nat} {x y : List Char} (ha : a < 10 ^ 2) (hb : b < 10 ^ 2) :=
    Decimal.padded_append_inj (x := x) (y := y) (by decide : 0 < 2) ha hb
  obtain ⟨hmonth, h⟩ := htwo (month_lt hm.date) (month_lt hm'.date) (List.cons.inj h).2
  obtain ⟨hday, h⟩ := htwo (day_lt hm.date) (day_lt hm'.date) (List.cons.inj h).2
  obtain ⟨hhours, h⟩ := htwo (by omega) (by omega) (List.cons.inj h).2
  obtain ⟨hminutes, h⟩ := htwo (by omega) (by omega) (List.cons.inj h).2
  obtain ⟨hseconds, h⟩ := htwo (by omega) (by omega) (List.cons.inj h).2
  obtain ⟨hmillis, -⟩ :=
    Decimal.padded_append_inj (by decide) hm.millis hm'.millis (List.cons.inj h).2
  obtain ⟨⟨year, month, day⟩, hour, minute, second, millis⟩ := m
  obtain ⟨⟨year', month', day'⟩, hour', minute', second', millis'⟩ := m'
  simp_all only [Moment.mk.injEq, Date.mk.injEq, and_true]
  exact writeYear_injective hyear

/-- A plain number has no letter in it. -/
theorem write_ne_writeMoment (n : Int) (m : Moment) : Decimal.write n ≠ writeMoment m := by
  intro h
  have hmem : 'Z' ∈ Decimal.write n := by
    rw [h, writeMoment]
    simp
  rcases n with n | n
  · exact absurd (Decimal.isDigit_of_mem_digits hmem) (by decide)
  · rcases List.mem_cons.mp hmem with hsign | hmem
    · exact absurd hsign (by decide)
    · exact absurd (Decimal.isDigit_of_mem_digits hmem) (by decide)

/-- **No two instants are written alike.** -/
theorem render_injective : Function.Injective render := by
  intro k n h
  have htext := String.ofList_injective h
  split at htext <;> split at htext
  · exact Moment.ofEpochMillis_injective (writeMoment_inj (Moment.inRange_ofEpochMillis k)
      (Moment.inRange_ofEpochMillis n) htext)
  · exact absurd htext.symm (write_ne_writeMoment _ _)
  · exact absurd htext (write_ne_writeMoment _ _)
  · exact Decimal.write_injective htext

/-! ### One word -/

theorem isPlain_writeYear (year : Int) : IsPlain (writeYear year) := by
  by_cases h : HasFourDigits year
  · rw [writeYear_of_hasFourDigits h]
    exact isPlain_padded _ _
  · rw [writeYear_of_not_hasFourDigits h, Text.isPlain_cons_iff]
    exact ⟨by split <;> rfl, isPlain_padded _ _⟩

/-- What is written of an instant has no blank in it. -/
theorem isPlain_render (n : Int) : IsPlain (render n).toList := by
  rw [render, String.toList_ofList]
  split
  · rw [writeMoment_eq_append, Text.isPlain_append_iff]
    exact ⟨isPlain_writeYear _, by simp [yearlessText, isBlank]⟩
  · exact isPlain_write n

theorem toList_render_ne_nil (n : Int) : (render n).toList ≠ [] := by
  rw [render, String.toList_ofList]
  split
  · simp [writeMoment]
  · cases n
    · exact Decimal.digits_ne_nil _
    · exact List.cons_ne_nil _ _

end Timestamp

end QueryPrep
