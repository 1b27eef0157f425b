import Mathlib.Algebra.Ring.Nat
import Mathlib.Data.List.GetD
import Mathlib.Logic.Function.Iterate
import Mathlib.Tactic.SplitIfs
import QueryPrep.Time.Calendar

/-!
# Counting days

The calendar goes from one day to the next: through the days of a month, from the last of them to
the first of the next month, and from the last of December to the first of January (`Date.next`).
How many days one date is after another is how often one has to go on (`Date.IsDaysAfter`).

The formulas of `Date.dayNumber` and `Date.ofDayNumber` know nothing of this. That they are right is
said in two steps. The number of the next day is one more (`Date.valid_next`), which is where
the lengths of months and years come in; and dates and numbers go back and forth without a loss
(`Date.dayNumber_ofDayNumber`, `Date.ofDayNumber_dayNumber`).

Main result: the number of a date is how many days it is after 1970-01-01, for the dates before that
as well (`Date.isDaysAfter_epoch_iff`).
-/

namespace QueryPrep

namespace Calendar

variable {year year' : Int}

/-! ### Years -/

/-- The days of a year. -/
def yearLength (year : Int) : Nat :=
  if IsLeap year then 366 else 365

theorem yearLength_le (year : Int) : yearLength year ≤ 366 := by
  unfold yearLength
  split <;> decide

theorem sum_monthLengths (year : Int) : (monthLengths year).sum = yearLength year := by
  unfold monthLengths yearLength
  split <;> decide

theorem daysBeforeYear_succ (year : Int) :
    daysBeforeYear (year + 1) = daysBeforeYear year + yearLength year := by
  unfold daysBeforeYear yearLength
  split
  · rename_i h
    obtain ⟨hfour, hcentury⟩ := h
    omega
  · rename_i h
    unfold IsLeap at h
    omega

theorem daysBeforeYear_add_le (h : year < year') :
    daysBeforeYear year + yearLength year ≤ daysBeforeYear year' := by
  rw [← daysBeforeYear_succ]
  unfold daysBeforeYear
  omega

/-- A day belongs to one year. -/
theorem daysBeforeYear_add_inj {day day' : Nat} (hday : day < yearLength year)
    (hday' : day' < yearLength year')
    (h : daysBeforeYear year + day = daysBeforeYear year' + day') :
    year = year' ∧ day = day' := by
  rcases Int.lt_trichotomy year year' with hlt | rfl | hlt
  · have hle := daysBeforeYear_add_le hlt
    omega
  · exact ⟨rfl, by omega⟩
  · have hle := daysBeforeYear_add_le hlt
    omega

section Cycles

variable {q c f y : Int} (hc : 0 ≤ c ∧ c ≤ 3) (hf : 0 ≤ f ∧ f ≤ 24) (hy : 0 ≤ y ∧ y ≤ 3)
include hc hf hy

/-- The years after full cycles of 400, 100 and 4 years. -/
theorem daysBeforeYear_cycles : daysBeforeYear (400 * q + 100 * c + 4 * f + y + 1) =
    146097 * q + 36524 * c + 1461 * f + 365 * y := by
  have hfour : (400 * q + 100 * c + 4 * f + y) / 4 = 100 * q + 25 * c + f := by omega
  have hcentury : (400 * q + 100 * c + 4 * f + y) / 100 = 4 * q + c := by omega
  have hcycle : (400 * q + 100 * c + 4 * f + y) / 400 = q := by omega
  unfold daysBeforeYear
  rw [Int.add_sub_cancel, hfour, hcentury, hcycle]
  omega

theorem isLeap_cycles_iff :
    IsLeap (400 * q + 100 * c + 4 * f + y + 1) ↔ y = 3 ∧ (f = 24 → c = 3) := by
  unfold IsLeap
  omega

end Cycles

/-- The cycles that a number of days is split into. The last century, four years or year of a cycle
may be a day longer than the others, which is why the quotients are held at three. -/
theorem exists_cycles (days : Int) : ∃ q c f y : Int, ∃ rest : Nat,
    (0 ≤ c ∧ c ≤ 3) ∧ (0 ≤ f ∧ f ≤ 24) ∧ (0 ≤ y ∧ y ≤ 3) ∧
      days = 146097 * q + 36524 * c + 1461 * f + 365 * y + rest ∧
      (rest < 365 ∨ rest = 365 ∧ y = 3 ∧ (f = 24 → c = 3)) ∧
      yearAndDay days = (400 * q + 100 * c + 4 * f + y + 1, (rest : Int)) := by
  have hdays := Int.mul_ediv_add_emod days 146097
  obtain ⟨r, hr⟩ : ∃ r, r = days % 146097 := ⟨_, rfl⟩
  obtain ⟨c, hc⟩ : ∃ c, c = min (r / 36524) 3 := ⟨_, rfl⟩
  have hcentury : (0 ≤ c ∧ c ≤ 3) ∧ 0 ≤ r - c * 36524 ∧ r - c * 36524 ≤ 36524 ∧
      (r - c * 36524 = 36524 → c = 3) := by omega
  obtain ⟨s, hs⟩ : ∃ s, s = r - c * 36524 := ⟨_, rfl⟩
  obtain ⟨f, hf⟩ : ∃ f, f = s / 1461 := ⟨_, rfl⟩
  obtain ⟨t, ht⟩ : ∃ t, t = s % 1461 := ⟨_, rfl⟩
  have hfour : (0 ≤ f ∧ f ≤ 24) ∧ 0 ≤ t ∧ t ≤ 1460 ∧ s = 1461 * f + t ∧
      (f = 24 → t = 1460 → c = 3) := by
    clear hc hdays hr
    omega
  obtain ⟨y, hy⟩ : ∃ y, y = min (t / 365) 3 := ⟨_, rfl⟩
  have hyear : (0 ≤ y ∧ y ≤ 3) ∧ 0 ≤ t - y * 365 ∧
      (t - y * 365 < 365 ∨ t - y * 365 = 365 ∧ y = 3 ∧ t = 1460) := by
    clear hc hdays hr hf ht
    omega
  refine ⟨days / 146097, c, f, y, (t - y * 365).toNat, hcentury.1, hfour.1, hyear.1, ?_, ?_, ?_⟩
  · clear hc hf ht hy
    omega
  · clear hc hf ht hy hdays
    omega
  · rw [Int.toNat_of_nonneg hyear.2.1, hy, ht, hf, hs, hc, hr]
    rfl

/-- **A day lies in the year that is found for it.** -/
theorem yearAndDay_spec (days : Int) : ∃ year, ∃ day : Nat, yearAndDay days = (year, (day : Int)) ∧
    day < yearLength year ∧ daysBeforeYear year + day = days := by
  obtain ⟨q, c, f, y, rest, hc, hf, hy, hdays, hrest, heq⟩ := exists_cycles days
  refine ⟨_, rest, heq, ?_, ?_⟩
  · unfold yearLength
    rw [if_congr (isLeap_cycles_iff hc hf hy) rfl rfl]
    split <;> omega
  · rw [daysBeforeYear_cycles hc hf hy, hdays]

theorem yearAndDay_daysBeforeYear_add {day : Nat} (h : day < yearLength year) :
    yearAndDay (daysBeforeYear year + day) = (year, (day : Int)) := by
  obtain ⟨year', day', heq, hlt, hsum⟩ := yearAndDay_spec (daysBeforeYear year + day)
  obtain ⟨rfl, rfl⟩ := daysBeforeYear_add_inj hlt h hsum
  exact heq

/-! ### Months -/

theorem monthLength_le (year : Int) (count : Nat) : (monthLengths year).getD count 0 ≤ 31 := by
  have hall : ∀ len ∈ monthLengths year, len ≤ 31 := by
    unfold monthLengths
    split <;> decide
  rw [List.getD_eq_getElem?_getD]
  rcases hget : (monthLengths year)[count]? with - | len
  · exact Nat.zero_le _
  · exact hall len (List.mem_of_getElem? hget)

/-- One more month has passed when all its days have. -/
theorem daysBefore_succ (count : Nat) (lens : List Nat) :
    daysBefore (count + 1) lens = daysBefore count lens + lens.getD count 0 := by
  induction count generalizing lens with
  | zero => cases lens <;> simp [daysBefore]
  | succ count ih =>
      cases lens with
      | nil => rfl
      | cons len lens => rw [daysBefore, ih, daysBefore, Nat.add_assoc, List.getD_cons_succ]

theorem daysBefore_length (lens : List Nat) : daysBefore lens.length lens = lens.sum := by
  induction lens with
  | nil => rfl
  | cons len lens ih => rw [List.length_cons, daysBefore, ih, List.sum_cons]

theorem daysBefore_le_sum (count : Nat) (lens : List Nat) : daysBefore count lens ≤ lens.sum := by
  induction lens generalizing count with
  | nil => cases count <;> exact Nat.le_refl 0
  | cons len lens ih =>
      cases count with
      | zero => exact Nat.zero_le _
      | succ count => exact Nat.add_le_add_left (ih count) len

/-- A day of a month lies before the end of all months. -/
theorem daysBefore_add_lt {lens : List Nat} {count day : Nat} (h : day < lens.getD count 0) :
    daysBefore count lens + day < lens.sum := by
  have hle := daysBefore_le_sum (count + 1) lens
  rw [daysBefore_succ] at hle
  omega

/-- A day before the end of all months lies in one of them. -/
theorem exists_daysBefore_add {lens : List Nat} {days : Nat} (h : days < lens.sum) :
    ∃ count day, count < lens.length ∧ day < lens.getD count 0 ∧
      days = daysBefore count lens + day := by
  induction lens generalizing days with
  | nil => exact absurd h (Nat.not_lt_zero days)
  | cons len lens ih =>
      rcases Nat.lt_or_ge days len with hlt | hge
      · exact ⟨0, days, Nat.succ_pos _, hlt, (Nat.zero_add days).symm⟩
      · rw [List.sum_cons] at h
        have hrest : days - len < lens.sum := by omega
        obtain ⟨count, day, hcount, hday, heq⟩ := ih hrest
        refine ⟨count + 1, day, Nat.succ_lt_succ hcount, hday, ?_⟩
        rw [daysBefore]
        omega

/-- **A day is found in its month.** -/
theorem monthAndDay_daysBefore_add {lens : List Nat} {count day : Nat}
    (h : day < lens.getD count 0) (month : Nat) :
    monthAndDay month lens (daysBefore count lens + day) = (month + count, day + 1) := by
  induction lens generalizing month count with
  | nil => exact absurd h (Nat.not_lt_zero day)
  | cons len lens ih =>
      rcases count with - | count
      · rw [List.getD_cons_zero] at h
        rw [daysBefore, Nat.zero_add, monthAndDay, if_pos h]
        rfl
      · rw [daysBefore, monthAndDay, if_neg (by omega), Nat.add_assoc, Nat.add_sub_cancel_left,
          ih h, Nat.add_assoc, Nat.add_comm 1]

end Calendar

open Calendar

namespace Date

variable {d e : Date} {n : Int}

/-! ### Numbers and dates -/

/-- The dates of the calendar, by how many months and days have passed. -/
theorem valid_iff : d.Valid ↔ ∃ year count day, d = ⟨year, count + 1, day + 1⟩ ∧ count < 12 ∧
    day < (monthLengths year).getD count 0 := by
  constructor
  · obtain ⟨year, month, day⟩ := d
    rintro ⟨hmonth, hmonth', hday, hday'⟩
    dsimp only at hmonth hmonth' hday hday'
    refine ⟨year, month - 1, day - 1, ?_, by omega, by omega⟩
    rw [Nat.sub_add_cancel hmonth, Nat.sub_add_cancel hday]
  · rintro ⟨year, count, day, rfl, hcount, hday⟩
    exact ⟨Nat.succ_pos _, hcount, Nat.succ_pos _, hday⟩

theorem dayNumber_mk (year : Int) (count day : Nat) :
    (Date.mk year (count + 1) (day + 1)).dayNumber =
      daysBeforeYear year + (daysBefore count (monthLengths year) + day : Nat) - epochDay := by
  unfold dayNumber
  dsimp only
  rw [Nat.add_sub_cancel]
  omega

theorem ofDayNumber_dayNumber (h : d.Valid) : ofDayNumber d.dayNumber = d := by
  obtain ⟨year, count, day, rfl, -, hday⟩ := valid_iff.mp h
  have hlt := daysBefore_add_lt hday
  rw [sum_monthLengths] at hlt
  rw [ofDayNumber, dayNumber_mk, Int.sub_add_cancel, yearAndDay_daysBeforeYear_add hlt]
  simp only [Int.toNat_natCast, monthAndDay_daysBefore_add hday, Nat.add_comm 1]

theorem exists_dayNumber_eq (n : Int) : ∃ d : Date, d.Valid ∧ d.dayNumber = n := by
  obtain ⟨year, days, -, hlt, hdays⟩ := yearAndDay_spec (n + epochDay)
  rw [← sum_monthLengths] at hlt
  obtain ⟨count, day, hcount, hday, rfl⟩ := exists_daysBefore_add hlt
  refine ⟨⟨year, count + 1, day + 1⟩, valid_iff.mpr ⟨year, count, day, rfl, hcount, hday⟩, ?_⟩
  rw [dayNumber_mk]
  omega

theorem valid_ofDayNumber (n : Int) : (ofDayNumber n).Valid := by
  obtain ⟨d, hd, rfl⟩ := exists_dayNumber_eq n
  rwa [ofDayNumber_dayNumber hd]

/-- **Every number is that of a date**, and dates have numbers of their own. -/
theorem dayNumber_ofDayNumber (n : Int) : (ofDayNumber n).dayNumber = n := by
  obtain ⟨d, hd, rfl⟩ := exists_dayNumber_eq n
  rw [ofDayNumber_dayNumber hd]

theorem dayNumber_inj (hd : d.Valid) (he : e.Valid) : d.dayNumber = e.dayNumber ↔ d = e := by
  refine ⟨fun h => ?_, congrArg dayNumber⟩
  rw [← ofDayNumber_dayNumber hd, h, ofDayNumber_dayNumber he]

/-! ### From day to day -/

/-- The date of the next day. -/
def next (d : Date) : Date :=
  if d.day < (monthLengths d.year).getD (d.month - 1) 0 then ⟨d.year, d.month, d.day + 1⟩
  else if d.month < 12 then ⟨d.year, d.month + 1, 1⟩
  else ⟨d.year + 1, 1, 1⟩

theorem next_mk (year : Int) (count day : Nat) : (Date.mk year (count + 1) (day + 1)).next =
    if day + 1 < (monthLengths year).getD count 0 then ⟨year, count + 1, day + 1 + 1⟩
    else if count + 1 < 12 then ⟨year, count + 1 + 1, 0 + 1⟩
    else ⟨year + 1, 0 + 1, 0 + 1⟩ :=
  rfl

/-- No month is without a first day. -/
theorem valid_first (year : Int) {count : Nat} (h : count < 12) :
    (Date.mk year (count + 1) (0 + 1)).Valid := by
  refine valid_iff.mpr ⟨year, count, 0, rfl, h, ?_⟩
  have hpos : ∀ len ∈ monthLengths year, 0 < len := by
    unfold monthLengths
    split <;> decide
  rw [List.getD_eq_getElem _ _ (show count < (monthLengths year).length from h)]
  exact hpos _ (List.getElem_mem _)

/-- **The next day is in the calendar, and its number is one more.** -/
theorem valid_next (h : d.Valid) : d.next.Valid ∧ d.next.dayNumber = d.dayNumber + 1 := by
  obtain ⟨year, count, day, rfl, hcount, hday⟩ := valid_iff.mp h
  rw [next_mk]
  split_ifs with hlt hmonth
  · refine ⟨valid_iff.mpr ⟨year, count, day + 1, rfl, hcount, hlt⟩, ?_⟩
    rw [dayNumber_mk, dayNumber_mk]
    omega
  · -- the whole month has passed
    have hmonths := daysBefore_succ count (monthLengths year)
    refine ⟨valid_first year (by omega), ?_⟩
    rw [dayNumber_mk, dayNumber_mk]
    omega
  · -- the whole year has passed
    have hmonths := daysBefore_succ count (monthLengths year)
    have hyear : daysBefore (11 + 1) (monthLengths year) = yearLength year :=
      (daysBefore_length (monthLengths year)).trans (sum_monthLengths year)
    obtain rfl : count = 11 := by omega
    refine ⟨valid_first _ (by omega), ?_⟩
    rw [dayNumber_mk, dayNumber_mk, daysBeforeYear_succ, daysBefore]
    omega

theorem valid_iterate_next (h : d.Valid) (k : Nat) :
    (next^[k] d).Valid ∧ (next^[k] d).dayNumber = d.dayNumber + k := by
  induction k with
  | zero => exact ⟨h, (Int.add_zero _).symm⟩
  | succ k ih =>
      obtain ⟨hvalid, hnumber⟩ := ih
      obtain ⟨hvalid', hnumber'⟩ := valid_next hvalid
      rw [Function.iterate_succ_apply']
      exact ⟨hvalid', by omega⟩

/-- `e` is `n` days after `d`: that many days have to pass from one to the other, back from `e` to
`d` if the number is negative. -/
def IsDaysAfter (n : Int) (d e : Date) : Prop :=
  ∃ k : Nat, (n = k ∧ next^[k] d = e) ∨ (n = -k ∧ next^[k] e = d)

/-- Whoever counts the days comes to the difference of the numbers. -/
theorem isDaysAfter_iff (hd : d.Valid) (he : e.Valid) :
    IsDaysAfter n d e ↔ e.dayNumber = d.dayNumber + n := by
  constructor
  · rintro ⟨k, ⟨rfl, rfl⟩ | ⟨rfl, rfl⟩⟩
    · exact (valid_iterate_next hd k).2
    · rw [(valid_iterate_next he k).2]
      omega
  · intro h
    rcases Int.le_total 0 n with hpos | hneg
    · obtain ⟨k, rfl⟩ := Int.eq_ofNat_of_zero_le hpos
      obtain ⟨hvalid, hnumber⟩ := valid_iterate_next hd k
      exact ⟨k, .inl ⟨rfl, (dayNumber_inj hvalid he).mp (hnumber.trans h.symm)⟩⟩
    · obtain ⟨k, hk⟩ := Int.eq_ofNat_of_zero_le (show 0 ≤ -n by omega)
      obtain ⟨hvalid, hnumber⟩ := valid_iterate_next he k
      exact ⟨k, .inr ⟨by omega, (dayNumber_inj hvalid hd).mp (by omega)⟩⟩

/-- The day that days are numbered from. -/
def epoch : Date :=
  ⟨1970, 1, 1⟩

theorem valid_epoch : epoch.Valid := by
  decide

theorem dayNumber_epoch : epoch.dayNumber = 0 := by
  decide

/-- **The number of a date is how many days it is after 1970-01-01.** -/
theorem isDaysAfter_epoch_iff (hd : d.Valid) : IsDaysAfter n epoch d ↔ n = d.dayNumber := by
  rw [isDaysAfter_iff valid_epoch hd, dayNumber_epoch, Int.zero_add, eq_comm]

end Date

end QueryPrep
