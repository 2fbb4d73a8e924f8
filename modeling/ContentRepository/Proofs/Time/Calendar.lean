import ContentRepository.Time.Calendar

/-!
# Days and dates

Within its era a day belongs to the last year that starts no later, and within that year to the last
month that does. So a date found for a day exists and leads back to that day.

* **`Time.dayOfDate_dateOfDay`**, **`Time.isValid_dateOfDay`** — every day has a date, which is its.
* **`Time.dayOfDate_lt_of_year_lt`** — a date of an earlier year is an earlier day.

That the formula for the year is right is seen where a year starts; in between it can only grow.
-/

namespace ContentRepository.Time

/-! ## Years of an era -/

/-- The first day of a year of the era, years counted from March. -/
def yearStart (year : Int) : Int := 365 * year + year / 4 - year / 100

/-- The year in which a day of the era lies. -/
def yearOfEra (day : Int) : Int := (day - day / 1460 + day / 36524 - day / 146096) / 365

theorem yearOfEra_mono {a b : Int} (h : a ≤ b) : yearOfEra a ≤ yearOfEra b := by
  have hfours : a / 1460 - b / 1460 ≥ a - b := by omega
  have ha : a / 146096 = a / 36524 / 4 := by omega
  have hb : b / 146096 = b / 36524 / 4 := by omega
  have hcenturies : a / 36524 ≤ b / 36524 := Int.ediv_le_ediv (by decide) h
  rw [yearOfEra, yearOfEra, ha, hb]
  -- of the centuries that are added one in four is taken back, so the sum below the bar still grows
  refine Int.ediv_le_ediv (by decide) ?_
  omega

theorem yearOfEra_yearStart : ∀ year < 400, yearOfEra (yearStart (year : Nat)) = year := by
  decide +kernel

/-- The day before a year starts is in the year before. -/
theorem yearOfEra_yearStart_sub_one :
    ∀ year < 399, yearOfEra (yearStart ((year + 1 : Nat) : Int) - 1) = (year : Nat) := by
  decide +kernel

section Era

variable {day : Int}

theorem yearOfEra_nonneg (hlow : 0 ≤ day) : 0 ≤ yearOfEra day :=
  yearOfEra_mono hlow

theorem yearOfEra_lt (hhigh : day < 146097) : yearOfEra day < 400 := by
  have hle : yearOfEra day ≤ yearOfEra 146096 := yearOfEra_mono (by omega)
  exact Int.lt_of_le_of_lt hle (by decide)

/-- No year starts after its days. -/
theorem yearStart_yearOfEra_le (hlow : 0 ≤ day) (hhigh : day < 146097) :
    yearStart (yearOfEra day) ≤ day := by
  have hnonneg := yearOfEra_nonneg hlow
  have hlt := yearOfEra_lt hhigh
  refine Int.not_lt.1 fun hbefore => ?_
  obtain ⟨year, hyear⟩ : ∃ n : Nat, yearOfEra day = n := ⟨(yearOfEra day).toNat, by omega⟩
  cases year with
  | zero =>
    rw [hyear] at hbefore
    exact absurd hbefore (Int.not_lt.2 hlow)
  | succ year =>
    rw [hyear] at hbefore
    have hprevious := yearOfEra_yearStart_sub_one year (by omega)
    have hle := yearOfEra_mono (b := yearStart ((year + 1 : Nat) : Int) - 1) (a := day) (by omega)
    omega

/-- No year goes on when the next has started. -/
theorem lt_yearStart (hlow : 0 ≤ day) (hyear : yearOfEra day < 399) :
    day < yearStart (yearOfEra day + 1) := by
  have hnonneg := yearOfEra_nonneg hlow
  refine Int.not_le.1 fun hafter => ?_
  obtain ⟨year, heq⟩ : ∃ n : Nat, yearOfEra day + 1 = n := ⟨(yearOfEra day + 1).toNat, by omega⟩
  rw [heq] at hafter
  have hnext := yearOfEra_yearStart year (by omega)
  have hle := yearOfEra_mono hafter
  omega

/-- A year has at most 366 days. -/
theorem dayOfYear_le (hlow : 0 ≤ day) (hhigh : day < 146097) :
    day - yearStart (yearOfEra day) ≤ 365 := by
  have hlt := yearOfEra_lt hhigh
  by_cases hlast : yearOfEra day < 399
  · have hnext := lt_yearStart hlow hlast
    rw [yearStart] at hnext ⊢
    omega
  · have hyear : yearOfEra day = 399 := by omega
    rw [hyear, yearStart]
    omega

/-- Only leap years have a day 366. The year is counted from March, so the leap day is in the
February after it. -/
theorem isLeapYear_of_dayOfYear (hlow : 0 ≤ day) (hhigh : day < 146097)
    (hday : day - yearStart (yearOfEra day) = 365) (era : Int) :
    isLeapYear (era * 400 + yearOfEra day + 1) = true := by
  have hnonneg := yearOfEra_nonneg hlow
  have hlt := yearOfEra_lt hhigh
  have hleap : (yearOfEra day + 1) % 4 = 0 ∧
      ((yearOfEra day + 1) % 100 ≠ 0 ∨ (yearOfEra day + 1) % 400 = 0) := by
    by_cases hlast : yearOfEra day < 399
    · have hnext := lt_yearStart hlow hlast
      rw [yearStart] at hnext hday
      generalize yearOfEra day = year at *
      -- 366 days fit in only if the count of leap days goes up with the next year
      have hfour : (year + 1) / 4 = year / 4 ∨ (year + 1) % 4 = 0 := by omega
      have hhundred : (year + 1) / 100 = year / 100 ∧ (year + 1) % 100 ≠ 0 ∨
          (year + 1) / 100 = year / 100 + 1 := by omega
      omega
    -- the last year of an era
    · omega
  rw [isLeapYear]
  simp only [Bool.and_eq_true, Bool.or_eq_true, beq_iff_eq, bne_iff_ne]
  omega

end Era

/-! ## Months of a year -/

/-- The month in which a day of the year lies, months counted from March. -/
def marchMonth (day : Int) : Int := (5 * day + 2) / 153

theorem daysInMonth_common_le (year : Int) (month : Nat) :
    daysInMonth 1 month ≤ daysInMonth year month := by
  have hcommon : isLeapYear 1 = false := by decide
  rw [daysInMonth, daysInMonth, hcommon]
  split
  · rw [if_neg Bool.false_ne_true]
    split <;> omega
  · exact Nat.le_refl _

/-- Days of the year fall into the months of the calendar; only the last may need a leap year. -/
theorem day_le_daysInMonth {day year : Int} (hlow : 0 ≤ day) (hhigh : day ≤ 365)
    (hleap : day = 365 → isLeapYear year = true) :
    (day - (153 * marchMonth day + 2) / 5 + 1).toNat ≤
      daysInMonth year ((marchMonth day + 2) % 12 + 1).toNat := by
  have hcommon : ∀ day < 365, ((day : Nat) - (153 * marchMonth day + 2) / 5 + 1).toNat ≤
      daysInMonth 1 ((marchMonth day + 2) % 12 + 1).toNat := by decide +kernel
  obtain ⟨day, rfl⟩ := Int.eq_ofNat_of_zero_le hlow
  by_cases hlast : day = 365
  · subst hlast
    show 29 ≤ if isLeapYear year then 29 else 28
    exact Nat.le_of_eq (if_pos (hleap rfl)).symm
  · exact Nat.le_trans (hcommon day (by omega)) (daysInMonth_common_le year _)

/-! ## Days and their dates -/

/-- The date of a day of an era. -/
def dateIn (era day : Int) : Date :=
  let dayOfYear := day - yearStart (yearOfEra day)
  let month := ((marchMonth dayOfYear + 2) % 12 + 1).toNat
  { year := if month ≤ 2 then era * 400 + yearOfEra day + 1 else era * 400 + yearOfEra day
    month
    day := (dayOfYear - (153 * marchMonth dayOfYear + 2) / 5 + 1).toNat }

theorem dateOfDay_eq (day : Int) :
    dateOfDay day = dateIn ((day + epochShift) / daysPerEra) ((day + epochShift) % daysPerEra) :=
  rfl

section DateIn

variable {era day : Int}

/-- The month in the calendar leads back to the month counted from March. -/
theorem month_of_marchMonth {month : Int} (hlow : 0 ≤ month) (hhigh : month < 12) :
    1 ≤ ((month + 2) % 12 + 1).toNat ∧ ((month + 2) % 12 + 1).toNat ≤ 12 ∧
      ((((month + 2) % 12 + 1).toNat + 9) % 12 : Int) = month := by
  omega

theorem marchMonth_bounds {day : Int} (hlow : 0 ≤ day) (hhigh : day ≤ 365) :
    0 ≤ marchMonth day ∧ marchMonth day < 12 ∧ (153 * marchMonth day + 2) / 5 ≤ day := by
  rw [marchMonth]
  omega

theorem isValid_dateIn (hlow : 0 ≤ day) (hhigh : day < 146097) :
    (dateIn era day).isValid = true := by
  have hstart := yearStart_yearOfEra_le hlow hhigh
  have hend := dayOfYear_le hlow hhigh
  obtain ⟨hmonth, hmonth', hfirst⟩ := marchMonth_bounds (by omega) hend
  obtain ⟨hone, htwelve, -⟩ := month_of_marchMonth hmonth hmonth'
  have hleap : day - yearStart (yearOfEra day) = 365 → isLeapYear (dateIn era day).year = true := by
    intro hday
    have hyear : (dateIn era day).year = era * 400 + yearOfEra day + 1 := by
      rw [dateIn, hday]
      rfl
    rw [hyear]
    exact isLeapYear_of_dayOfYear hlow hhigh hday era
  have hlast := day_le_daysInMonth (by omega) hend hleap
  rw [Date.isValid]
  simp only [Bool.and_eq_true, decide_eq_true_eq]
  refine ⟨⟨⟨hone, htwelve⟩, ?_⟩, hlast⟩
  show 1 ≤ (_ : Int).toNat
  omega

theorem dayOfDate_dateIn (hlow : 0 ≤ day) (hhigh : day < 146097) :
    dayOfDate (dateIn era day) = era * daysPerEra + day - epochShift := by
  have hnonneg := yearOfEra_nonneg hlow
  have hlt := yearOfEra_lt hhigh
  have hstart := yearStart_yearOfEra_le hlow hhigh
  have hend := dayOfYear_le hlow hhigh
  obtain ⟨hmonth, hmonth', hfirst⟩ := marchMonth_bounds (by omega) hend
  obtain ⟨hone, htwelve, hback⟩ := month_of_marchMonth hmonth hmonth'
  have hyear : (if (dateIn era day).month ≤ 2 then (dateIn era day).year - 1
      else (dateIn era day).year) = era * 400 + yearOfEra day := by
    simp only [dateIn]
    split <;> omega
  have hmarch : (((dateIn era day).month : Int) + 9) % 12 =
      marchMonth (day - yearStart (yearOfEra day)) := hback
  have hday : ((dateIn era day).day : Int) = day - yearStart (yearOfEra day) -
      (153 * marchMonth (day - yearStart (yearOfEra day)) + 2) / 5 + 1 :=
    Int.toNat_of_nonneg (by omega)
  have hera : (era * 400 + yearOfEra day) / 400 = era := by omega
  have hrest : (era * 400 + yearOfEra day) % 400 = yearOfEra day := by omega
  have hyears : yearStart (yearOfEra day) =
      365 * yearOfEra day + yearOfEra day / 4 - yearOfEra day / 100 := rfl
  -- in the sum of years, months and days each part that was taken off comes back
  rw [dayOfDate]
  simp only [hyear, hera, hrest, hmarch, hday]
  omega

end DateIn

theorem dayOfEra_bounds (day : Int) :
    0 ≤ (day + epochShift) % daysPerEra ∧ (day + epochShift) % daysPerEra < 146097 :=
  ⟨Int.emod_nonneg _ (by decide), Int.emod_lt_of_pos _ (by decide)⟩

/-- **Every day has a date of the calendar.** -/
theorem isValid_dateOfDay (day : Int) : (dateOfDay day).isValid = true := by
  obtain ⟨hlow, hhigh⟩ := dayOfEra_bounds day
  rw [dateOfDay_eq]
  exact isValid_dateIn hlow hhigh

/-- **The date of a day is that of no other day.** -/
theorem dayOfDate_dateOfDay (day : Int) : dayOfDate (dateOfDay day) = day := by
  obtain ⟨hlow, hhigh⟩ := dayOfEra_bounds day
  have hparts := Int.mul_ediv_add_emod (day + epochShift) daysPerEra
  rw [dateOfDay_eq, dayOfDate_dateIn hlow hhigh, Int.mul_comm]
  omega

/-! ## Dates in order -/

/-- The year of a date, years counted from March. -/
def Date.marchYear (date : Date) : Int := if date.month ≤ 2 then date.year - 1 else date.year

/-- The days since the March that the year of a date starts with. -/
def Date.dayOfYear (date : Date) : Int :=
  (153 * (((date.month : Int) + 9) % 12) + 2) / 5 + date.day - 1

/-- The leap days before a year, years counted from March of year 0. -/
def leapDays (year : Int) : Int := year / 4 - year / 100 + year / 400

theorem dayOfDate_eq (date : Date) : dayOfDate date =
    365 * date.marchYear + leapDays date.marchYear + date.dayOfYear - epochShift := by
  show date.marchYear / 400 * 146097 + (date.marchYear % 400 * 365 + date.marchYear % 400 / 4 -
    date.marchYear % 400 / 100 + date.dayOfYear) - epochShift = _
  rw [leapDays]
  generalize date.marchYear = year
  have hyears : year % 400 = year - 400 * (year / 400) := by omega
  have hfours : year % 400 / 4 = year / 4 - 100 * (year / 400) := by omega
  have hcenturies : year % 400 / 100 = year / 100 - 4 * (year / 400) := by omega
  omega

theorem leapDays_mono {a b : Int} (h : a ≤ b) : leapDays a ≤ leapDays b := by
  have hcenturies : a / 4 / 25 = a / 100 ∧ b / 4 / 25 = b / 100 := by omega
  have hfours : a / 4 ≤ b / 4 := Int.ediv_le_ediv (by decide) h
  have heras : a / 400 ≤ b / 400 := Int.ediv_le_ediv (by decide) h
  rw [leapDays, leapDays]
  omega

/-- The numbers that months and days can have. -/
theorem month_day_le {date : Date} (h : date.isValid = true) :
    (1 ≤ date.month ∧ date.month ≤ 12) ∧ 1 ≤ date.day ∧ date.day ≤ 31 ∧
      (date.month = 2 → date.day ≤ 29) := by
  rw [Date.isValid] at h
  simp only [Bool.and_eq_true, decide_eq_true_eq, and_assoc] at h
  obtain ⟨hone, htwelve, hfirst, hlast⟩ := h
  refine ⟨⟨hone, htwelve⟩, hfirst, ?_⟩
  rw [daysInMonth] at hlast
  split at hlast
  · split at hlast <;> omega
  · split at hlast <;> omega

/-- January and February come last in a year that starts with March. -/
theorem dayOfYear_bounds {date : Date} (h : date.isValid = true) :
    (date.month ≤ 2 → 306 ≤ date.dayOfYear ∧ date.dayOfYear ≤ 365) ∧
      (2 < date.month → 0 ≤ date.dayOfYear ∧ date.dayOfYear ≤ 305) := by
  obtain ⟨hmonth, hfirst, hlast, hleap⟩ := month_day_le h
  rw [Date.dayOfYear]
  omega

/-- **A date of an earlier year is an earlier day.** -/
theorem dayOfDate_lt_of_year_lt {a b : Date} (ha : a.isValid = true) (hb : b.isValid = true)
    (hlt : a.year < b.year) : dayOfDate a < dayOfDate b := by
  obtain ⟨hlate, hearly⟩ := dayOfYear_bounds ha
  obtain ⟨hlate', hearly'⟩ := dayOfYear_bounds hb
  have hyear : a.marchYear = if a.month ≤ 2 then a.year - 1 else a.year := rfl
  have hyear' : b.marchYear = if b.month ≤ 2 then b.year - 1 else b.year := rfl
  have hle : a.marchYear ≤ b.marchYear := by
    split at hyear <;> split at hyear' <;> omega
  have hleap := leapDays_mono hle
  rw [dayOfDate_eq, dayOfDate_eq]
  split at hyear <;> split at hyear' <;> omega

end ContentRepository.Time
