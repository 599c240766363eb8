import Mathlib.Data.Int.Defs

/-!
# Dates of Go's `time` package

The statistics queries of `redis.go` count articles by calendar day and by
calendar month, going between Unix seconds and dates with `time.Date`,
`Unix()`, `Year()`, `Month()` and `Day()`.  The `time` package is not in the
sources; it follows the proleptic Gregorian calendar, and this file computes
that calendar with the civil-from-days algorithm, whose 400-year eras begin on
1 March so that the leap day ends the year:

* `daysFromCivil year month day` counts the days from 1970-01-01, for a month
  from 1 to 12 and any day;
* `civilFromDays` is its inverse on the days (`daysFromCivil_civilFromDays`),
  and recovers every first of a month (`civilFromDays_daysFromCivil`).

On them sit the three functions the queries call: `date` is
`time.Date(y, m, d, 0, 0, 0, 0, time.UTC).Unix()`, with Go's normalization of
the month into the year, and `fields offset t` is `Year()`, `Month()` and
`Day()` of the instant `t` in a zone `offset` seconds east of UTC.

A first of a month is named by its month number `12 * year + month - 1`
(`monthNumber`); `monthStart` is its Unix time, which grows with the number
(`monthStart_le_monthStart`), and `fields_monthStart` reads the year and month
back from it.
-/

namespace Srnd.Time

/-- Days of an era before its year `yoe` (years begin on 1 March). -/
def yearDays (yoe : Int) : Int := yoe * 365 + yoe / 4 - yoe / 100

/-- Days of a year before its month `mp` (months counted from March). -/
def monthDays (mp : Int) : Int := (153 * mp + 2) / 5

/-- The year of an era in which its day `doe` falls. -/
def yearOfEra (doe : Int) : Int := (doe - doe / 1460 + doe / 36524 - doe / 146096) / 365

/-- The month (counted from March) in which the day `doy` of a year falls. -/
def monthOfYear (doy : Int) : Int := (5 * doy + 2) / 153

/-- The days from 1970-01-01 to `year-month-day`, for `1 ≤ month ≤ 12`. -/
def daysFromCivil (year month day : Int) : Int :=
  let y := if month ≤ 2 then year - 1 else year
  let mp := if 2 < month then month - 3 else month + 9
  y / 400 * 146097 + yearDays (y % 400) + monthDays mp + day - 1 - 719468

/-- The year, month and day of the day `days` after 1970-01-01. -/
def civilFromDays (days : Int) : Int × Int × Int :=
  let z := days + 719468
  let yoe := yearOfEra (z % 146097)
  let doy := z % 146097 - yearDays yoe
  let mp := monthOfYear doy
  (z / 146097 * 400 + yoe + (if mp < 10 then 0 else 1), if mp < 10 then mp + 3 else mp - 9,
    doy - monthDays mp + 1)

/-- `time.Date(year, month, day, 0, 0, 0, 0, time.UTC).Unix()`: a month out of
range moves into the year, and the day counts from the first of the month. -/
def date (year month day : Int) : Int :=
  daysFromCivil (year + (month - 1) / 12) ((month - 1) % 12 + 1) day * 86400

/-- `t.Year()`, `t.Month()` and `t.Day()` of the instant `t` (Unix seconds) in
a zone `offset` seconds east of UTC. -/
def fields (offset t : Int) : Int × Int × Int := civilFromDays ((t + offset) / 86400)

/-- The month number of `time.Date(year, month, 1, …)`: months since January
of year 0, which the normalization of `date` keeps. -/
def monthNumber (year month : Int) : Int := 12 * year + month - 1

/-- The Unix time of the first of the month numbered `k`. -/
def monthStart (k : Int) : Int := date (k / 12) (k % 12 + 1) 1

/-! ## The calendar -/

theorem yearOfEra_bounds (doe : Int) (h0 : 0 ≤ doe) (h1 : doe < 146097) :
    0 ≤ yearOfEra doe ∧ yearOfEra doe < 400 ∧ 0 ≤ doe - yearDays (yearOfEra doe) ∧
      doe - yearDays (yearOfEra doe) ≤ 365 := by
  unfold yearOfEra yearDays
  rcases (show doe = 146096 ∨ doe < 146096 by omega) with rfl | hlt
  · decide
  · -- the century of `doe` is the century of its year
    generalize hk : doe / 36524 = k
    have hc : (doe - doe / 1460 + k - doe / 146096) / 365 / 100 = k := by omega
    omega

/-- The first day of a month falls in its own year. -/
theorem yearOfEra_yearDays {yoe doy : Int} (h0 : 0 ≤ yoe) (h1 : yoe < 400) (hd0 : 0 ≤ doy)
    (hd1 : doy ≤ 337) : yearOfEra (yearDays yoe + doy) = yoe := by
  unfold yearOfEra yearDays
  generalize hk : yoe / 100 = k
  have hc : (yoe * 365 + yoe / 4 - k + doy) / 36524 = k := by omega
  have hg : (yoe * 365 + yoe / 4 - k + doy) / 146096 = 0 := by omega
  omega

theorem monthOfYear_bounds {doy : Int} (h0 : 0 ≤ doy) (h1 : doy ≤ 365) :
    0 ≤ monthOfYear doy ∧ monthOfYear doy < 12 := by
  unfold monthOfYear
  omega

theorem monthOfYear_monthDays (mp : Int) : monthOfYear (monthDays mp) = mp := by
  unfold monthOfYear monthDays
  omega

/-- `daysFromCivil` of a date given by its year counted from March and its
month counted from March. -/
theorem daysFromCivil_marchYear (y mp day : Int) (h0 : 0 ≤ mp) (h1 : mp < 12) :
    daysFromCivil (y + if mp < 10 then 0 else 1) (if mp < 10 then mp + 3 else mp - 9) day =
      y / 400 * 146097 + yearDays (y % 400) + monthDays mp + day - 1 - 719468 := by
  unfold daysFromCivil
  by_cases hmp : mp < 10
  · simp only [hmp, if_true, Int.add_zero, Int.add_sub_cancel,
      if_neg (show ¬ mp + 3 ≤ 2 by omega), if_pos (show 2 < mp + 3 by omega)]
  · simp only [hmp, if_false, Int.add_sub_cancel, Int.sub_add_cancel,
      if_pos (show mp - 9 ≤ 2 by omega), if_neg (show ¬ 2 < mp - 9 by omega)]

theorem month_civilFromDays (days : Int) :
    1 ≤ (civilFromDays days).2.1 ∧ (civilFromDays days).2.1 ≤ 12 := by
  obtain ⟨-, -, hd0, hd1⟩ := yearOfEra_bounds ((days + 719468) % 146097)
    (Int.emod_nonneg _ (by decide)) (Int.emod_lt_of_pos _ (by decide))
  have := monthOfYear_bounds hd0 hd1
  simp only [civilFromDays]
  split_ifs <;> omega

theorem daysFromCivil_civilFromDays (days : Int) :
    daysFromCivil (civilFromDays days).1 (civilFromDays days).2.1 (civilFromDays days).2.2 =
      days := by
  obtain ⟨hy0, hy1, hd0, hd1⟩ := yearOfEra_bounds ((days + 719468) % 146097)
    (Int.emod_nonneg _ (by decide)) (Int.emod_lt_of_pos _ (by decide))
  obtain ⟨hm0, hm1⟩ := monthOfYear_bounds hd0 hd1
  simp only [civilFromDays]
  rw [daysFromCivil_marchYear _ _ _ hm0 hm1]
  generalize yearOfEra ((days + 719468) % 146097) = yoe at *
  have he : ((days + 719468) / 146097 * 400 + yoe) / 400 = (days + 719468) / 146097 := by omega
  have hy : ((days + 719468) / 146097 * 400 + yoe) % 400 = yoe := by omega
  rw [he, hy]
  omega

theorem civilFromDays_daysFromCivil (year month : Int) (h1 : 1 ≤ month) (h12 : month ≤ 12) :
    civilFromDays (daysFromCivil year month 1) = (year, month, 1) := by
  obtain ⟨mp, hmp0, hmp1, hy, hm⟩ : ∃ mp, 0 ≤ mp ∧ mp < 12 ∧
      year = (if month ≤ 2 then year - 1 else year) + (if mp < 10 then 0 else 1) ∧
      month = if mp < 10 then mp + 3 else mp - 9 :=
    ⟨if 2 < month then month - 3 else month + 9, by split_ifs <;> omega, by split_ifs <;> omega,
      by split_ifs <;> omega, by split_ifs <;> omega⟩
  generalize (if month ≤ 2 then year - 1 else year) = y at hy
  subst hy hm
  rw [daysFromCivil_marchYear _ _ _ hmp0 hmp1]
  have hyd : 0 ≤ yearDays (y % 400) ∧ yearDays (y % 400) ≤ 145731 := by
    unfold yearDays; omega
  have hmd : 0 ≤ monthDays mp ∧ monthDays mp ≤ 337 := by unfold monthDays; omega
  have hz : y / 400 * 146097 + yearDays (y % 400) + monthDays mp + 1 - 1 - 719468 + 719468 =
      y / 400 * 146097 + (yearDays (y % 400) + monthDays mp) := by omega
  have hdiv : (y / 400 * 146097 + (yearDays (y % 400) + monthDays mp)) / 146097 = y / 400 := by
    omega
  have hmod : (y / 400 * 146097 + (yearDays (y % 400) + monthDays mp)) % 146097 =
      yearDays (y % 400) + monthDays mp := by omega
  have hdoy : yearDays (y % 400) + monthDays mp - yearDays (y % 400) = monthDays mp := by omega
  simp only [civilFromDays, hz, hdiv, hmod, hdoy, monthOfYear_monthDays,
    yearOfEra_yearDays (Int.emod_nonneg _ (by decide)) (Int.emod_lt_of_pos _ (by decide))
      hmd.1 hmd.2, Int.sub_self, Int.zero_add, Prod.mk.injEq, and_true]
  omega

/-! ## `time.Date` and the fields of an instant -/

theorem date_of_month {year month : Int} (h1 : 1 ≤ month) (h12 : month ≤ 12) (day : Int) :
    date year month day = daysFromCivil year month day * 86400 := by
  unfold date
  rw [show (month - 1) / 12 = 0 by omega, show (month - 1) % 12 + 1 = month by omega,
    Int.add_zero]

/-- `time.Date` of the fields of an instant in UTC is its midnight. -/
theorem date_fields (t : Int) :
    date (fields 0 t).1 (fields 0 t).2.1 (fields 0 t).2.2 = t / 86400 * 86400 := by
  obtain ⟨h1, h12⟩ := month_civilFromDays ((t + 0) / 86400)
  rw [fields, date_of_month h1 h12, daysFromCivil_civilFromDays, Int.add_zero]

theorem date_monthNumber (year month : Int) :
    date year month 1 = monthStart (monthNumber year month) := by
  unfold monthStart monthNumber date
  congr 2 <;> omega

theorem monthStart_eq (k : Int) : monthStart k = daysFromCivil (k / 12) (k % 12 + 1) 1 * 86400 :=
  date_of_month (by omega) (by omega) 1

/-- `Year()` and `Month()` of the first of a month are those of its number. -/
theorem fields_monthStart (k : Int) : fields 0 (monthStart k) = (k / 12, k % 12 + 1, 1) := by
  rw [fields, monthStart_eq, Int.add_zero, Int.mul_ediv_cancel _ (by decide)]
  exact civilFromDays_daysFromCivil _ _ (by omega) (by omega)

theorem monthStart_lt_succ (k : Int) : monthStart k < monthStart (k + 1) := by
  simp only [monthStart_eq, daysFromCivil, yearDays, monthDays]
  split_ifs <;> omega

theorem monthStart_lt_of_lt {k k' : Int} (h : k < k') : monthStart k < monthStart k' := by
  obtain ⟨n, rfl⟩ : ∃ n : Nat, k' = k + n + 1 := ⟨(k' - k - 1).toNat, by omega⟩
  induction n with
  | zero =>
    rw [show k + ((0 : Nat) : Int) + 1 = k + 1 by omega]
    exact monthStart_lt_succ k
  | succ n ih =>
    rw [show k + ((n + 1 : Nat) : Int) + 1 = k + n + 1 + 1 by omega]
    exact Int.lt_trans (ih (by omega)) (monthStart_lt_succ _)

theorem monthStart_le_monthStart {k k' : Int} : monthStart k ≤ monthStart k' ↔ k ≤ k' := by
  constructor
  · intro h
    by_contra hk
    have := monthStart_lt_of_lt (Int.lt_of_not_ge hk)
    omega
  · intro h
    rcases (show k < k' ∨ k = k' by omega) with h | rfl
    · exact Int.le_of_lt (monthStart_lt_of_lt h)
    · exact Int.le_refl _

end Srnd.Time
