import Mathlib

/-!
# The civil calendar and its days

A day of the Gregorian calendar, extended to all years, is a year, a month and a day of
the month, and also a number: how many days it is from the first of January 1970. The
passage between the two is arithmetic when years begin in March. Then the leap day is
the last of its year, the months from March to January repeat a pattern of 153 days in
five months, and the years repeat after four hundred, an *era* of 146097 days.

`toDays` and `fromDays` are the two passages. They are inverse to each other
(`toDays_fromDays`, `fromDays_toDays`), and the numbers come in the order of the dates
(`toDays_lt`).
-/

namespace Civil

/-! ## The year of an era

A day of an era lies in one of four hundred years. Its year is a quotient by 365 after
the leap days before it are taken away. Leap days come every 1460 days, with the
exceptions after a century and after an era. -/

/-- The first day of a year of an era. -/
def firstDay (yoe : ℕ) : ℕ := 365 * yoe + yoe / 4 - yoe / 100

/-- A day of an era without the leap days before it. -/
def leapless (doe : ℕ) : ℕ := doe - doe / 1460 + doe / 36524 - doe / 146096

/-- The year of an era in which one of its days lies. -/
def yearOfEra (doe : ℕ) : ℕ := leapless doe / 365

theorem leapless_mono : Monotone leapless := by
  refine monotone_nat_of_le_succ fun doe => ?_
  unfold leapless
  omega

theorem yearOfEra_mono : Monotone yearOfEra :=
  fun _ _ h => Nat.div_le_div_right (leapless_mono h)

/-- The formula is right for the first and for the last day of each year. -/
theorem yearOfEra_ends : ∀ yoe < 400, yearOfEra (firstDay yoe) = yoe
    ∧ yearOfEra (firstDay (yoe + 1) - 1) = yoe := by
  decide +kernel

theorem yearOfEra_lt {doe : ℕ} (h : doe < 146097) : yearOfEra doe < 400 := by
  have hlast : yearOfEra 146096 = 399 := by decide +kernel
  have hle := yearOfEra_mono (Nat.le_of_lt_succ h)
  omega

/-- **A day of an era lies in its year**: not before the first day of the year, and
before that of the next one. The last day of the era is the leap day of its last
year. -/
theorem firstDay_yearOfEra {doe : ℕ} (h : doe < 146097) :
    firstDay (yearOfEra doe) ≤ doe
      ∧ (doe < firstDay (yearOfEra doe + 1) ∨ yearOfEra doe = 399) := by
  have hlt := yearOfEra_lt h
  constructor
  · by_contra hbefore
    have hpos : 0 < yearOfEra doe := by
      by_contra hzero
      rw [Nat.eq_zero_of_not_pos hzero] at hbefore
      exact hbefore (Nat.zero_le doe)
    -- then the day is not after the last one of the year before
    have hle : doe ≤ firstDay (yearOfEra doe - 1 + 1) - 1 := by
      rw [Nat.sub_add_cancel hpos]
      omega
    have hyear := (yearOfEra_ends (yearOfEra doe - 1) (by omega)).right
    have hmono := yearOfEra_mono hle
    omega
  · by_cases hfinal : yearOfEra doe = 399
    · exact Or.inr hfinal
    · refine Or.inl ?_
      by_contra hafter
      have hyear := (yearOfEra_ends (yearOfEra doe + 1) (by omega)).left
      have hmono := yearOfEra_mono (Nat.le_of_not_lt hafter)
      omega

/-- A day that lies in a year of an era has that year. -/
theorem yearOfEra_eq {yoe doe : ℕ} (hyoe : yoe < 400) (hfirst : firstDay yoe ≤ doe)
    (hlast : doe < firstDay (yoe + 1) ∨ yoe = 399 ∧ doe < 146097) :
    yearOfEra doe = yoe := by
  have hlow := yearOfEra_mono hfirst
  rw [(yearOfEra_ends yoe hyoe).left] at hlow
  obtain hlast | ⟨rfl, hlast⟩ := hlast
  · have hhigh := yearOfEra_mono (show doe ≤ firstDay (yoe + 1) - 1 by omega)
    rw [(yearOfEra_ends yoe hyoe).right] at hhigh
    exact le_antisymm hhigh hlow
  · have hhigh := yearOfEra_lt hlast
    omega

/-! ## Dates -/

/-- Whether a year has a leap day. -/
def isLeap (y : ℤ) : Bool := y % 4 = 0 && (y % 100 ≠ 0 || y % 400 = 0)

/-- How many days a month has. -/
def daysInMonth (y m : ℤ) : ℤ :=
  if m = 2 then if isLeap y then 29 else 28
  else if m = 4 ∨ m = 6 ∨ m = 9 ∨ m = 11 then 30
  else 31

/-- A year, a month and a day that are a date. -/
structure IsDate (y m d : ℤ) : Prop where
  month : 1 ≤ m ∧ m ≤ 12
  day : 1 ≤ d ∧ d ≤ daysInMonth y m

/-- The year that a month belongs to when years begin in March. -/
def marchYear (y m : ℤ) : ℤ := if m ≤ 2 then y - 1 else y

/-- The months of such a year, from zero. -/
def marchMonth (m : ℤ) : ℤ := if 2 < m then m - 3 else m + 9

/-- The days before a year, and before a month of a year. -/
def yearStart (y : ℤ) : ℤ := 365 * y + y / 4 - y / 100 + y / 400

/-- The days of a year before one of its months. -/
def monthStart (mp : ℤ) : ℤ := (153 * mp + 2) / 5

/-- The number of a date. -/
def toDays (y m d : ℤ) : ℤ :=
  yearStart (marchYear y m) + monthStart (marchMonth m) + d - 1 - 719468

/-- The date with a number. -/
def fromDays (z : ℤ) : ℤ × ℤ × ℤ :=
  let era := (z + 719468) / 146097
  let doe := (z + 719468) % 146097
  let yoe : ℤ := yearOfEra doe.toNat
  let doy := doe - (365 * yoe + yoe / 4 - yoe / 100)
  let mp := (5 * doy + 2) / 153
  let m := if mp < 10 then mp + 3 else mp - 9
  (if m ≤ 2 then yoe + era * 400 + 1 else yoe + era * 400, m, doy - monthStart mp + 1)

/-- The days of an era before one of its years. -/
def eraStart (yoe : ℤ) : ℤ := 365 * yoe + yoe / 4 - yoe / 100

theorem firstDay_cast (yoe : ℕ) : (firstDay yoe : ℤ) = eraStart yoe := by
  unfold firstDay eraStart
  omega

/-- The years before an era, and its own years. -/
theorem yearStart_eq (yoe era : ℤ) (h : 0 ≤ yoe ∧ yoe < 400) :
    yearStart (yoe + era * 400) = era * 146097 + eraStart yoe := by
  unfold yearStart eraStart
  omega

/-- Where a day of an era lies. -/
theorem eraStart_yearOfEra {doe : ℤ} (h : 0 ≤ doe ∧ doe < 146097) :
    ∃ yoe : ℤ, yearOfEra doe.toNat = yoe ∧ (0 ≤ yoe ∧ yoe < 400) ∧ eraStart yoe ≤ doe
      ∧ (doe < eraStart (yoe + 1) ∨ yoe = 399) := by
  have hdoe : doe.toNat < 146097 := by omega
  obtain ⟨hfirst, hlast⟩ := firstDay_yearOfEra hdoe
  have hlt := yearOfEra_lt hdoe
  have hfirst' := firstDay_cast (yearOfEra doe.toNat)
  have hlast' := firstDay_cast (yearOfEra doe.toNat + 1)
  rw [Nat.cast_succ] at hlast'
  exact ⟨yearOfEra doe.toNat, rfl, by omega, by omega, by omega⟩

theorem yearOfEra_toNat_eq {yoe doe : ℤ} (hyoe : 0 ≤ yoe ∧ yoe < 400)
    (hfirst : eraStart yoe ≤ doe)
    (hlast : doe < eraStart (yoe + 1) ∨ yoe = 399 ∧ doe < 146097) :
    (yearOfEra doe.toNat : ℤ) = yoe := by
  lift yoe to ℕ using hyoe.left
  have hfirst' := firstDay_cast yoe
  have hlast' := firstDay_cast (yoe + 1)
  rw [Nat.cast_succ] at hlast'
  exact congrArg Nat.cast (yearOfEra_eq (by omega) (by omega) (by omega))

/-- The number of a date is taken apart as the date was put together. -/
theorem fromDays_of_parts {yoe era doy mp : ℤ} (hyoe : 0 ≤ yoe ∧ yoe < 400)
    (hdoy : 0 ≤ doy) (hlast : eraStart yoe + doy < eraStart (yoe + 1)
      ∨ yoe = 399 ∧ eraStart yoe + doy < 146097)
    (hmp : (5 * doy + 2) / 153 = mp) :
    fromDays (era * 146097 + eraStart yoe + doy - 719468)
      = (if (if mp < 10 then mp + 3 else mp - 9) ≤ 2 then yoe + era * 400 + 1
          else yoe + era * 400,
        if mp < 10 then mp + 3 else mp - 9, doy - monthStart mp + 1) := by
  have hbound : 0 ≤ eraStart yoe + doy ∧ eraStart yoe + doy < 146097 := by
    unfold eraStart at hlast ⊢
    omega
  have hera : (era * 146097 + eraStart yoe + doy - 719468 + 719468) / 146097 = era := by
    omega
  have hdoe : (era * 146097 + eraStart yoe + doy - 719468 + 719468) % 146097
      = eraStart yoe + doy := by
    omega
  have hyear : (yearOfEra (eraStart yoe + doy).toNat : ℤ) = yoe :=
    yearOfEra_toNat_eq hyoe (by omega) hlast
  have hrest : eraStart yoe + doy - (365 * yoe + yoe / 4 - yoe / 100) = doy := by
    unfold eraStart
    omega
  unfold fromDays
  dsimp only
  rw [hera, hdoe, hyear, hrest, hmp]

/-- What the number of a day consists of. -/
theorem exists_parts (z : ℤ) : ∃ yoe era doy, (0 ≤ yoe ∧ yoe < 400) ∧ 0 ≤ doy ∧ doy ≤ 365
    ∧ (eraStart yoe + doy < eraStart (yoe + 1)
      ∨ yoe = 399 ∧ eraStart yoe + doy < 146097)
    ∧ z = era * 146097 + eraStart yoe + doy - 719468 := by
  have hdoe : 0 ≤ (z + 719468) % 146097 ∧ (z + 719468) % 146097 < 146097 := by omega
  obtain ⟨yoe, -, hyoe, hfirst, hlast⟩ := eraStart_yearOfEra hdoe
  refine ⟨yoe, (z + 719468) / 146097, (z + 719468) % 146097 - eraStart yoe, hyoe, ?_, ?_,
    ?_, ?_⟩
  · omega
  · unfold eraStart at hlast hfirst ⊢
    omega
  · omega
  · omega

/-- The months of a year that begins in March. -/
theorem monthStart_div {doy : ℤ} (h : 0 ≤ doy ∧ doy ≤ 365) :
    (0 ≤ (5 * doy + 2) / 153 ∧ (5 * doy + 2) / 153 ≤ 11)
      ∧ monthStart ((5 * doy + 2) / 153) ≤ doy
      ∧ doy < monthStart ((5 * doy + 2) / 153 + 1) := by
  unfold monthStart
  omega

theorem marchMonth_of_lt {mp : ℤ} (h : 0 ≤ mp ∧ mp ≤ 11) :
    marchMonth (if mp < 10 then mp + 3 else mp - 9) = mp := by
  unfold marchMonth
  split_ifs <;> omega

theorem marchYear_eq (mp y : ℤ) :
    marchYear (if (if mp < 10 then mp + 3 else mp - 9) ≤ 2 then y + 1 else y)
      (if mp < 10 then mp + 3 else mp - 9) = y := by
  unfold marchYear
  split_ifs <;> omega

/-- **The number of the date with a number is that number.** -/
theorem toDays_fromDays (z : ℤ) :
    toDays (fromDays z).1 (fromDays z).2.1 (fromDays z).2.2 = z := by
  obtain ⟨yoe, era, doy, hyoe, hdoy, hdoy', hlast, rfl⟩ := exists_parts z
  obtain ⟨hmp, -, -⟩ := monthStart_div ⟨hdoy, hdoy'⟩
  rw [fromDays_of_parts hyoe hdoy hlast rfl]
  unfold toDays
  rw [marchYear_eq, marchMonth_of_lt hmp, yearStart_eq yoe era hyoe]
  dsimp only
  omega

/-- A day of a month is one when the next month has not begun and, for the leap day, when
the year has one. -/
theorem le_daysInMonth_iff {y m d : ℤ} (hm : 1 ≤ m ∧ m ≤ 12) :
    d ≤ daysInMonth y m ↔ monthStart (marchMonth m) + d - 1 < monthStart (marchMonth m + 1)
      ∧ monthStart (marchMonth m) + d - 1 ≤ 365
      ∧ (monthStart (marchMonth m) + d - 1 = 365 → isLeap y = true) := by
  obtain ⟨hm1, hm12⟩ := hm
  interval_cases m
  case «2» =>
    cases hleap : isLeap y with
    | true => simp [daysInMonth, marchMonth, monthStart, hleap]; omega
    | false => simp [daysInMonth, marchMonth, monthStart, hleap]; omega
  all_goals
    simp [daysInMonth, marchMonth, monthStart]
    omega

/-- The leap day is the last of a year that begins in March, and the year that then
begins in January is the one with the leap day. -/
theorem isLeap_iff {yoe era : ℤ} (hyoe : 0 ≤ yoe ∧ yoe < 400) :
    isLeap (yoe + era * 400 + 1) = true ↔ eraStart yoe + 365 < eraStart (yoe + 1)
      ∨ yoe = 399 := by
  unfold isLeap
  rw [Bool.and_eq_true, Bool.or_eq_true, decide_eq_true_eq, decide_eq_true_eq,
    decide_eq_true_eq]
  unfold eraStart
  omega

/-- **What a number stands for is a date.** -/
theorem isDate_fromDays (z : ℤ) :
    IsDate (fromDays z).1 (fromDays z).2.1 (fromDays z).2.2 := by
  obtain ⟨yoe, era, doy, hyoe, hdoy, hdoy', hlast, rfl⟩ := exists_parts z
  obtain ⟨hmp, hlow, hhigh⟩ := monthStart_div ⟨hdoy, hdoy'⟩
  rw [fromDays_of_parts hyoe hdoy hlast rfl]
  generalize (5 * doy + 2) / 153 = mp at hmp hlow hhigh
  have hmonth : 1 ≤ (if mp < 10 then mp + 3 else mp - 9)
      ∧ (if mp < 10 then mp + 3 else mp - 9) ≤ 12 := by
    split_ifs <;> omega
  refine ⟨hmonth, by dsimp only; omega, (le_daysInMonth_iff hmonth).mpr ?_⟩
  dsimp only
  rw [marchMonth_of_lt hmp]
  refine ⟨by omega, by omega, fun hleap => ?_⟩
  have hmp' : mp = 11 := by
    unfold monthStart at hhigh hlow
    omega
  subst hmp'
  refine (isLeap_iff hyoe).mpr ?_
  omega

/-- The parts of the number of a date. -/
theorem toDays_eq (y m d : ℤ) :
    toDays y m d = marchYear y m / 400 * 146097 + eraStart (marchYear y m % 400)
      + (monthStart (marchMonth m) + d - 1) - 719468 := by
  have hyear := yearStart_eq (marchYear y m % 400) (marchYear y m / 400) (by omega)
  rw [show marchYear y m % 400 + marchYear y m / 400 * 400 = marchYear y m by omega] at hyear
  unfold toDays
  omega

theorem IsDate.doy {y m d : ℤ} (h : IsDate y m d) :
    0 ≤ monthStart (marchMonth m) + d - 1
      ∧ (eraStart (marchYear y m % 400) + (monthStart (marchMonth m) + d - 1)
          < eraStart (marchYear y m % 400 + 1)
        ∨ marchYear y m % 400 = 399 ∧ eraStart (marchYear y m % 400)
          + (monthStart (marchMonth m) + d - 1) < 146097) := by
  obtain ⟨hnext, hlast, hleap⟩ := (le_daysInMonth_iff h.month).mp h.day.right
  have hyoe : 0 ≤ marchYear y m % 400 ∧ marchYear y m % 400 < 400 := by omega
  have hstart : 0 ≤ monthStart (marchMonth m) := by
    have hmonth := h.month
    unfold monthStart marchMonth
    split_ifs <;> omega
  have hday := h.day.left
  refine ⟨by omega, ?_⟩
  by_cases hdoy : monthStart (marchMonth m) + d - 1 = 365
  · -- only February has the leap day
    have hfeb : marchYear y m + 1 = y := by
      have hmonth := h.month
      unfold monthStart marchMonth at hdoy hnext
      unfold marchYear
      split_ifs at hdoy hnext ⊢ <;> omega
    have hyear := hleap hdoy
    rw [← hfeb, show marchYear y m + 1 = marchYear y m % 400 + marchYear y m / 400 * 400 + 1
      by omega] at hyear
    rw [hdoy]
    obtain hlong | hfinal := (isLeap_iff hyoe).mp hyear
    · exact Or.inl hlong
    · refine Or.inr ⟨hfinal, ?_⟩
      rw [hfinal]
      decide
  · refine Or.inl ?_
    unfold eraStart
    omega

/-- **A date is the one that its number stands for.** -/
theorem fromDays_toDays {y m d : ℤ} (h : IsDate y m d) :
    fromDays (toDays y m d) = (y, m, d) := by
  obtain ⟨hdoy, hlast⟩ := h.doy
  have hmonth := h.month
  have hmp : (5 * (monthStart (marchMonth m) + d - 1) + 2) / 153 = marchMonth m := by
    have hday := h.day.left
    have hnext := ((le_daysInMonth_iff h.month).mp h.day.right).left
    unfold monthStart at hnext ⊢
    omega
  rw [toDays_eq, fromDays_of_parts (by omega) hdoy hlast hmp]
  have hm : (if marchMonth m < 10 then marchMonth m + 3 else marchMonth m - 9) = m := by
    unfold marchMonth
    split_ifs <;> omega
  have hy : (if m ≤ 2 then marchYear y m % 400 + marchYear y m / 400 * 400 + 1
      else marchYear y m % 400 + marchYear y m / 400 * 400) = y := by
    unfold marchYear
    split_ifs <;> omega
  rw [hm, hy]
  exact congrArg (fun d => (y, m, d)) (by ring)

theorem yearStart_le {y y' : ℤ} (h : y ≤ y') : yearStart y ≤ yearStart y' := by
  unfold yearStart
  omega

/-- A date lies before the next year. -/
theorem IsDate.lt_yearStart {y m d : ℤ} (h : IsDate y m d) :
    yearStart (marchYear y m) + (monthStart (marchMonth m) + d - 1)
      < yearStart (marchYear y m + 1) := by
  have hlast := h.doy.right
  unfold eraStart at hlast
  unfold yearStart
  omega

/-- **Earlier dates have smaller numbers.** -/
theorem toDays_lt {y m d y' m' d' : ℤ} (h : IsDate y m d) (h' : IsDate y' m' d')
    (hlt : y < y' ∨ y = y' ∧ (m < m' ∨ m = m' ∧ d < d')) :
    toDays y m d < toDays y' m' d' := by
  have hmarch : marchYear y m < marchYear y' m' ∨ marchYear y m = marchYear y' m'
      ∧ (marchMonth m < marchMonth m' ∨ marchMonth m = marchMonth m' ∧ d < d') := by
    have hmonth := h.month
    have hmonth' := h'.month
    unfold marchYear marchMonth
    split_ifs <;> omega
  have hyear := h.lt_yearStart
  have hdoy' := h'.doy.left
  unfold toDays
  obtain hbefore | ⟨hsame, hbefore | ⟨hmonth, hday⟩⟩ := hmarch
  · have hle := yearStart_le (show marchYear y m + 1 ≤ marchYear y' m' by omega)
    omega
  · have hnext := ((le_daysInMonth_iff h.month).mp h.day.right).left
    have hle : monthStart (marchMonth m + 1) ≤ monthStart (marchMonth m') := by
      unfold monthStart
      omega
    have hday := h'.day.left
    rw [hsame]
    omega
  · rw [hsame, hmonth]
    omega

/-- **The dates come in the order of their numbers.** -/
theorem fromDays_lt {z z' : ℤ} (h : z < z') :
    (fromDays z).1 < (fromDays z').1 ∨ (fromDays z).1 = (fromDays z').1
      ∧ ((fromDays z).2.1 < (fromDays z').2.1 ∨ (fromDays z).2.1 = (fromDays z').2.1
        ∧ (fromDays z).2.2 < (fromDays z').2.2) := by
  have hz := toDays_fromDays z
  have hz' := toDays_fromDays z'
  have hafter := toDays_lt (isDate_fromDays z') (isDate_fromDays z)
  by_contra hnot
  by_cases hsame : fromDays z = fromDays z'
  · rw [hsame] at hz
    omega
  · have hne : (fromDays z).1 ≠ (fromDays z').1 ∨ (fromDays z).2.1 ≠ (fromDays z').2.1
        ∨ (fromDays z).2.2 ≠ (fromDays z').2.2 := by
      by_contra hall
      push Not at hall
      exact hsame (Prod.ext hall.1 (Prod.ext hall.2.1 hall.2.2))
    have hlt := hafter (by omega)
    omega

end Civil
