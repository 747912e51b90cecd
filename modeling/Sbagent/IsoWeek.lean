import Sbagent.Civil

/-!
# Weeks of a year

A week begins on a Monday and belongs to the year of its Thursday. The first week of a year
is the one with its first Thursday, which is the week of 4 January, and a year has 53 weeks
if it has 53 Thursdays and 52 otherwise.

Days are numbered as dates are: day 0 is 1 January 1970, a Thursday. The week of a year has
at most one Monday (`IsIsoWeek.unique`), every day lies in one week of one year
(`isIsoWeek_of_day`), and the Monday of a week can be counted off from 4 January
(`isIsoWeek_weekMonday`).
-/

namespace Civil

/-- The day of the week, from Monday on. -/
def weekday (z : ℤ) : ℤ := (z + 3) % 7

/-- The Monday on or before a day. -/
def mondayOf (z : ℤ) : ℤ := z - weekday z

/-- The first day of a year. -/
def newYear (y : ℤ) : ℤ := toDays y 1 1

/-- A day is the Monday of a week of a year: the Thursday of the week is in the year, and
has that number among its Thursdays. -/
structure IsIsoWeek (y w z : ℤ) : Prop where
  monday : weekday z = 0
  thursday : newYear y ≤ z + 3 ∧ z + 3 < newYear (y + 1)
  week : (z + 3 - newYear y) / 7 + 1 = w

/-- A year has a week of that number. -/
def HasWeek (y w : ℤ) : Prop := ∃ z, IsIsoWeek y w z

/-- The year that a day's week belongs to. -/
def isoYear (z : ℤ) : ℤ := (fromDays (mondayOf z + 3)).1

/-- The number of a day's week. -/
def isoWeek (z : ℤ) : ℤ := (mondayOf z + 3 - newYear (isoYear z)) / 7 + 1

/-- The day that is as many weeks after the Monday of the week of 4 January. -/
def weekMonday (y w : ℤ) : ℤ := mondayOf (toDays y 1 4) + (w - 1) * 7

theorem mondayOf_bounds (z : ℤ) : mondayOf z ≤ z ∧ z < mondayOf z + 7 := by
  unfold mondayOf weekday
  omega

@[simp] theorem weekday_mondayOf (z : ℤ) : weekday (mondayOf z) = 0 := by
  unfold mondayOf weekday
  omega

/-- A year has 365 or 366 days. -/
theorem newYear_succ (y : ℤ) :
    newYear (y + 1) = newYear y + if isLeap y then 366 else 365 := by
  unfold newYear toDays marchYear yearStart isLeap
  simp only [show (1 : ℤ) ≤ 2 by decide, if_true]
  split_ifs with hleap
  · simp only [Bool.and_eq_true, Bool.or_eq_true, decide_eq_true_eq] at hleap
    omega
  · simp only [Bool.and_eq_true, Bool.or_eq_true, decide_eq_true_eq] at hleap
    omega

theorem newYear_lt (y : ℤ) : newYear y + 365 ≤ newYear (y + 1)
    ∧ newYear (y + 1) ≤ newYear y + 366 := by
  rw [newYear_succ]
  split_ifs <;> omega

theorem newYear_mono {y y' : ℤ} (h : y ≤ y') : newYear y ≤ newYear y' := by
  have hyear := yearStart_le (show y - 1 ≤ y' - 1 by omega)
  unfold newYear toDays marchYear
  simp only [show (1 : ℤ) ≤ 2 by decide, if_true]
  omega

/-- The fourth of January is the fourth day of the year. -/
theorem toDays_jan4 (y : ℤ) : toDays y 1 4 = newYear y + 3 := by
  unfold newYear toDays
  omega

/-- A day lies in the year that its date says. -/
theorem newYear_fromDays (z : ℤ) :
    newYear (fromDays z).1 ≤ z ∧ z < newYear ((fromDays z).1 + 1) := by
  have hdate := isDate_fromDays z
  have hfirst (y : ℤ) : IsDate y 1 1 := ⟨by decide, le_refl 1, by simp [daysInMonth]⟩
  constructor
  · by_contra hnot
    have hlt := fromDays_lt (not_le.mp hnot)
    rw [newYear, fromDays_toDays (hfirst _)] at hlt
    have hmonth := hdate.month
    have hday := hdate.day
    dsimp only at hlt
    omega
  · by_contra hnot
    obtain heq | hlt := eq_or_lt_of_le (not_lt.mp hnot)
    · have hyear := congrArg Prod.fst (fromDays_toDays (hfirst ((fromDays z).1 + 1)))
      rw [show toDays ((fromDays z).1 + 1) 1 1 = z from heq] at hyear
      dsimp only at hyear
      omega
    · have hyear := fromDays_lt hlt
      rw [newYear, fromDays_toDays (hfirst _)] at hyear
      dsimp only at hyear
      omega

section Weeks

variable {y w z : ℤ}

/-- **A week of a year has one Monday.** -/
theorem IsIsoWeek.unique {z' : ℤ} (h : IsIsoWeek y w z) (h' : IsIsoWeek y w z') :
    z = z' := by
  have hmonday := h.monday
  have hmonday' := h'.monday
  have hweek := h.week
  have hweek' := h'.week
  unfold weekday at hmonday hmonday'
  omega

/-- The weeks are numbered from 1 on, and there are 53 at most. -/
theorem IsIsoWeek.bounds (h : IsIsoWeek y w z) : 1 ≤ w ∧ w ≤ 53 := by
  have hweek := h.week
  have hthursday := h.thursday
  have hyear := newYear_lt y
  omega

/-- **The Monday of a week is counted off from 4 January.** -/
theorem isIsoWeek_weekMonday (h : 1 ≤ w) (hlast : weekMonday y w + 3 < newYear (y + 1)) :
    IsIsoWeek y w (weekMonday y w) := by
  unfold weekMonday mondayOf weekday at *
  rw [toDays_jan4] at *
  refine ⟨?_, ?_, ?_⟩
  · unfold weekday
    omega
  · omega
  · omega

theorem IsIsoWeek.eq_weekMonday (h : IsIsoWeek y w z) : z = weekMonday y w := by
  have hmonday := h.monday
  have hthursday := h.thursday
  have hweek := h.week
  unfold weekMonday mondayOf
  unfold weekday at *
  rw [toDays_jan4]
  omega

/-- The week after the last one is the first of the next year. -/
theorem isIsoWeek_next (h : ¬ HasWeek y 53) :
    IsIsoWeek (y + 1) 1 (weekMonday y 53) := by
  have hyear := newYear_lt y
  have hyear' := newYear_lt (y + 1)
  have hlast : ¬ weekMonday y 53 + 3 < newYear (y + 1) := fun hlt =>
    h ⟨_, isIsoWeek_weekMonday (by decide) hlt⟩
  unfold weekMonday mondayOf weekday at *
  rw [toDays_jan4] at *
  refine ⟨?_, ?_, ?_⟩
  · unfold weekday
    omega
  · omega
  · omega

/-- **Every day lies in a week of a year.** -/
theorem isIsoWeek_of_day (z : ℤ) : IsIsoWeek (isoYear z) (isoWeek z) (mondayOf z) where
  monday := weekday_mondayOf z
  thursday := newYear_fromDays (mondayOf z + 3)
  week := rfl

/-- The Monday of a week of a year is not in a later year. -/
theorem IsIsoWeek.year_le (h : IsIsoWeek y w z) :
    y - 1 ≤ (fromDays z).1 ∧ (fromDays z).1 ≤ y := by
  have hthursday := h.thursday
  have hyear := newYear_fromDays z
  have hbefore := newYear_lt (y - 1)
  rw [show y - 1 + 1 = y by omega] at hbefore
  constructor
  · by_contra hnot
    have hle := newYear_mono (show (fromDays z).1 + 1 ≤ y - 1 by omega)
    omega
  · by_contra hnot
    have hle := newYear_mono (show y + 1 ≤ (fromDays z).1 by omega)
    omega

end Weeks

end Civil
