import QueryPrep.Proofs.Text.Decimal
import QueryPrep.Proofs.Time.Calendar
import QueryPrep.Time.Timestamp

/-!
# Instants that are read are in range

Whatever a timestamp says, the instant that it is read as is in the range of milliseconds, if now
is (`Timestamp.parse_fits`). A number and a time before now are checked for this; a date and a time
need no check, because the scanners of the calendar forms yield nothing but fields with narrow
bounds, and so no instant that is near the ends of the range.

What a scanner yields is followed through its steps: `Yields` says that every result of a scanner
has a property.
-/

namespace QueryPrep

namespace Text.Scan

variable {α β : Type} {s : Scan α} {P : α → Prop} {Q : β → Prop}

/-- Whatever the scanner takes off any text has the property. -/
def Yields (s : Scan α) (P : α → Prop) : Prop :=
  ∀ cs a rest, s cs = some (a, rest) → P a

theorem Yields.bind {f : α → Scan β} (hs : Yields s P) (hf : ∀ a, P a → Yields (f a) Q) :
    Yields (s >>= f) Q := by
  intro cs b rest h
  obtain ⟨⟨a, mid⟩, ha, hb⟩ := Option.bind_eq_some_iff.mp h
  exact hf a (hs cs a mid ha) mid b rest hb

theorem Yields.pure {a : α} (h : P a) : Yields (Pure.pure a : Scan α) P := by
  rintro cs _ rest ⟨⟩
  exact h

theorem Yields.map {f : α → β} (hs : Yields s P) (hf : ∀ a, P a → Q (f a)) :
    Yields (f <$> s) Q := by
  rw [map_eq_pure_bind]
  exact hs.bind fun a ha => .pure (hf a ha)

/-- Where nothing needs to be known. -/
theorem yields_true (s : Scan α) : Yields s fun _ => True :=
  fun _ _ _ _ => trivial

theorem yields_must (p : Prop) [Decidable p] : Yields (must p) fun _ => p := by
  intro cs a rest h
  by_cases hp : p
  · exact hp
  · rw [must, if_neg hp] at h
    contradiction

theorem Yields.whole (hs : Yields s P) {cs : List Char} {a : α} (h : whole s cs = some a) :
    P a := by
  unfold Scan.whole at h
  split at h
  · rename_i b hb
    exact Option.some.inj h ▸ hs cs b [] hb
  · contradiction

/-! ### Numbers -/

theorem yields_digits (least most : Nat) :
    Yields (digits least most) fun ds => (∀ d ∈ ds, d.isDigit = true) ∧ ds.length ≤ most := by
  intro cs ds rest h
  simp only [digits] at h
  split at h
  · contradiction
  · obtain ⟨rfl, -⟩ := Prod.mk.inj (Option.some.inj h)
    refine ⟨fun d hd => ?_, List.length_take_le _ _⟩
    exact List.all_eq_true.mp List.all_takeWhile d (List.mem_of_mem_take hd)

/-- A number has no more digits than are allowed. -/
theorem yields_number (least most : Nat) : Yields (number least most) fun n => n < 10 ^ most :=
  (yields_digits least most).map fun _ h =>
    Nat.lt_of_lt_of_le (Decimal.value_lt h.1) (Nat.pow_le_pow_right (by decide) h.2)

end Text.Scan

namespace Timestamp

open QueryPrep.Text (Scan)
open QueryPrep.Text.Scan

/-! ### Dates -/

/-- The years of dates, and more. -/
def NearYear (year : Int) : Prop :=
  -300000 ≤ year ∧ year ≤ 300000

/-- No day of such a year is far from the first day of 1970. -/
theorem dayNumber_bounds {d : Date} (hvalid : d.Valid) (hyear : NearYear d.year) :
    -200000000 ≤ d.dayNumber ∧ d.dayNumber ≤ 200000000 := by
  obtain ⟨-, -, hday, hlast⟩ := hvalid
  obtain ⟨hlo, hhi⟩ := hyear
  have hmonths := Calendar.daysBefore_le_sum (d.month - 1) (Calendar.monthLengths d.year)
  have hyear := Calendar.yearLength_le d.year
  have hlength := Calendar.monthLength_le d.year (d.month - 1)
  rw [Calendar.sum_monthLengths] at hmonths
  unfold Date.dayNumber Calendar.daysBeforeYear Calendar.epochDay
  omega

/-- A time of such a day. -/
theorem epochMillis_fits {m : Moment} (hvalid : m.date.Valid) (hyear : NearYear m.date.year)
    (hday : InDay m.hour m.minute m.second) (hmillis : m.millis < 1000) {offset : Int}
    (hoffset : -1440 < offset ∧ offset < 1440) :
    Millis.Fits (m.epochMillis - offset * 60000) := by
  obtain ⟨hlo, hhi⟩ := dayNumber_bounds hvalid hyear
  obtain ⟨hhour, hminute, hsecond⟩ := hday
  unfold Millis.Fits Millis.least Millis.greatest Moment.epochMillis
  omega

/-! ### The calendar forms -/

theorem yields_fraction : Yields fraction fun n => n < 1000 := by
  intro cs n rest h
  unfold fraction at h
  split at h
  · rename_i cs
    have hyields : Yields (fractionMillis <$> digits 1 cs.length) fun n => n < 1000 := by
      refine (yields_digits 1 cs.length).map fun ds hds => ?_
      have hdigits : ∀ d ∈ (ds ++ ['0', '0', '0']).take 3, d.isDigit = true := by
        intro d hd
        rcases List.mem_append.mp (List.mem_of_mem_take hd) with hd | hd
        · exact hds.1 d hd
        · obtain rfl : d = '0' := by simpa using hd
          rfl
      refine Nat.lt_of_lt_of_le (Decimal.value_lt hdigits) ?_
      exact Nat.pow_le_pow_right (by decide) (List.length_take_le _ _)
    exact hyields cs n rest h
  · obtain ⟨rfl, -⟩ := Prod.mk.inj (Option.some.inj h)
    decide

theorem yields_zone : Yields zone fun offset => -1440 < offset ∧ offset < 1440 := by
  unfold zone
  refine (yields_true _).bind fun sign _ => ?_
  split
  · exact .pure (by decide)
  · refine (yields_true _).bind fun hours _ => (yields_true _).bind fun _ _ => ?_
    refine (yields_true _).bind fun minutes _ => (yields_must _).bind fun _ hrange => ?_
    refine .pure ?_
    split <;> omega

theorem yields_internet : Yields internet Millis.Fits := by
  unfold internet
  refine (yields_number 4 4).bind fun year hyear => (yields_true _).bind fun _ _ => ?_
  refine (yields_true _).bind fun month _ => (yields_true _).bind fun _ _ => ?_
  refine (yields_true _).bind fun day _ => (yields_true _).bind fun _ _ => ?_
  refine (yields_true _).bind fun hour _ => (yields_true _).bind fun _ _ => ?_
  refine (yields_true _).bind fun minute _ => (yields_true _).bind fun _ _ => ?_
  refine (yields_true _).bind fun second _ => yields_fraction.bind fun millis hmillis => ?_
  refine yields_zone.bind fun offset hoffset => (yields_must _).bind fun _ hmust => ?_
  -- four digits
  have hnear : NearYear year := by
    unfold NearYear
    omega
  exact .pure (epochMillis_fits hmust.1 hnear hmust.2 hmillis hoffset)

theorem yields_date : Yields date fun d => d.Valid ∧ NearYear d.year := by
  unfold date
  refine (yields_true _).bind fun _ _ => (yields_true _).bind fun year _ => ?_
  refine (yields_true _).bind fun _ _ => (yields_true _).bind fun month _ => ?_
  refine (yields_true _).bind fun _ _ => (yields_true _).bind fun day _ => ?_
  refine (yields_must _).bind fun _ hmust => .pure ⟨hmust.1, ?_⟩
  obtain ⟨-, hfirst, hlast⟩ := hmust
  unfold firstYear at hfirst
  unfold lastYear at hlast
  show -300000 ≤ year ∧ year ≤ 300000
  omega

/-- A moment in UTC. -/
theorem yields_moment {d : Date} {hour minute second : Nat} (hd : d.Valid ∧ NearYear d.year)
    (hday : InDay hour minute second) : Yields
      (Pure.pure (Moment.mk d hour minute second 0).epochMillis : Scan Int) Millis.Fits := by
  have hfits := epochMillis_fits (m := ⟨d, hour, minute, second, 0⟩) hd.1 hd.2 hday
    (show 0 < 1000 by decide) (show -1440 < (0 : Int) ∧ (0 : Int) < 1440 by decide)
  rw [Int.zero_mul, Int.sub_zero] at hfits
  exact .pure hfits

theorem yields_dateTime : Yields dateTime Millis.Fits := by
  unfold dateTime
  refine yields_date.bind fun d hd => (yields_true _).bind fun _ _ => ?_
  refine (yields_true _).bind fun hour _ => (yields_true _).bind fun _ _ => ?_
  refine (yields_true _).bind fun minute _ => (yields_true _).bind fun _ _ => ?_
  refine (yields_true _).bind fun second _ => (yields_must _).bind fun _ hday => ?_
  exact yields_moment hd hday

theorem yields_midnight : Yields midnight Millis.Fits :=
  yields_date.bind fun _ hd => yields_moment hd (by decide)

theorem fits_of_absolute? {cs : List Char} {n : Int} (h : absolute? cs = some n) :
    Millis.Fits n := by
  unfold absolute? at h
  rcases hinternet : whole internet cs with - | m
  · rw [hinternet] at h
    rcases htime : whole dateTime cs with - | m
    · rw [htime] at h
      exact yields_midnight.whole h
    · rw [htime] at h
      exact yields_dateTime.whole (htime.trans h)
  · rw [hinternet] at h
    exact yields_internet.whole (hinternet.trans h)

theorem fits_of_relative {text : String} {rest : List Char} {now n : Int} (hnow : Millis.Fits now)
    (h : relative text rest now = .ok n) : Millis.Fits n := by
  unfold relative at h
  split at h
  · exact Except.ok.inj h ▸ hnow
  · split at h
    · contradiction
    · split at h
      · contradiction
      · split at h
        · rename_i d _ hleast
          obtain rfl := Except.ok.inj h
          have hgreatest := hnow.2
          exact ⟨hleast, by omega⟩
        · contradiction

/-- **What a timestamp is read as is in the range of milliseconds**, if now is. -/
theorem parse_fits {text : String} {now n : Int} (hnow : Millis.Fits now)
    (h : parse text now = .ok n) : Millis.Fits n := by
  unfold parse at h
  dsimp only at h
  split at h
  · -- a plain number is checked
    rename_i m hm
    obtain ⟨i, -, hi⟩ := Option.bind_eq_some_iff.mp hm
    obtain ⟨rfl, hfits⟩ := Millis.checked?_eq_some_iff.mp hi
    exact Except.ok.inj h ▸ hfits
  · split at h
    · exact fits_of_relative hnow h
    · split at h
      · rename_i m hm
        exact Except.ok.inj h ▸ fits_of_absolute? hm
      · contradiction

end Timestamp

end QueryPrep
