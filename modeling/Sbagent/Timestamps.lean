import Sbagent.Civil
import Sbagent.Slices

/-!
# Timestamps

The ledgers, the archive and the maintenance runs write their times as
`YYYY-MM-DDTHH:MM:SSZ` and read them again, each with conversions of its own between a
date and the number of a day. The conversions are copies of one algorithm and differ in
the integer types that they calculate with. They are written here one by one, with the
results of all operations checked to be values of their types, and shown to be the
passages of the calendar (`Civil.toDays`, `Civil.fromDays`) as long as nothing is too
large.

So what is written reads back, in the copies of the readers, and what is written later
is the greater string, which is how the ledgers are put in order (`calendar_agrees`).
-/

namespace Timestamps

open IntType Decimal Slices

/-! ## From the number of a day to a date -/

/-- The era of a day, and its day of the era. -/
def eraOf (days : ℤ) : Checked (ℤ × ℤ) := do
  i64.check [days + 719468]
  let z := days + 719468
  i64.check [if 0 ≤ z then z else z - 146096]
  let era := (if 0 ≤ z then z else z - 146096).tdiv 146097
  i64.check [era * 146097, z - era * 146097]
  return (era, z - era * 146097)

/-- The date of a day of an era, with the types of the year and of the rest, when the
year that began in March is known. -/
def dateOf (Y T : IntType) (y doe yoe : ℤ) : Checked (ℤ × ℤ × ℤ) := do
  T.check [365 * yoe, 365 * yoe + yoe.tdiv 4, 365 * yoe + yoe.tdiv 4 - yoe.tdiv 100,
    doe - (365 * yoe + yoe.tdiv 4 - yoe.tdiv 100)]
  let doy := doe - (365 * yoe + yoe.tdiv 4 - yoe.tdiv 100)
  T.check [5 * doy, 5 * doy + 2]
  let mp := (5 * doy + 2).tdiv 153
  T.check [153 * mp, 153 * mp + 2, doy - (153 * mp + 2).tdiv 5,
    doy - (153 * mp + 2).tdiv 5 + 1, if mp < 10 then mp + 3 else mp - 9]
  let d := doy - (153 * mp + 2).tdiv 5 + 1
  let m := if mp < 10 then mp + 3 else mp - 9
  Y.check [if m ≤ 2 then y + 1 else y]
  return (if m ≤ 2 then y + 1 else y, m, d)

/-- The date of a day, with the type of what is not negative. -/
def civilParts (T : IntType) (days : ℤ) : Checked (ℤ × ℤ × ℤ) := do
  let (era, rest) ← eraOf days
  let doe := T.cast rest
  T.check [doe - doe.tdiv 1460, doe - doe.tdiv 1460 + doe.tdiv 36524,
    doe - doe.tdiv 1460 + doe.tdiv 36524 - doe.tdiv 146096]
  let yoe := (doe - doe.tdiv 1460 + doe.tdiv 36524 - doe.tdiv 146096).tdiv 365
  i64.check [era * 400, yoe + era * 400]
  dateOf i64 T (yoe + era * 400) doe yoe

/-- A date in the types of most of the copies. -/
def castDate (date : ℤ × ℤ × ℤ) : ℤ × ℤ × ℤ :=
  (i32.cast date.1, u32.cast date.2.1, u32.cast date.2.2)

def Maintain.civilFromDays (days : ℤ) : Checked (ℤ × ℤ × ℤ) :=
  castDate <$> civilParts i64 days

def Autonomy.civilFromDays (z : ℤ) : Checked (ℤ × ℤ × ℤ) := civilParts i64 z

def Archive.civilFromDays (z : ℤ) : Checked (ℤ × ℤ × ℤ) := castDate <$> civilParts u64 z

def Types.civilFromDays (z : ℤ) : Checked (ℤ × ℤ × ℤ) := castDate <$> civilParts u64 z

def History.civilFromDays (serial : ℤ) : Checked (ℤ × ℤ × ℤ) :=
  castDate <$> civilParts u64 serial

/-- This copy calculates with 32 bits from the day of the era on, and saturates where it
takes the leap days away. -/
def AnalyzedRejections.civilFromDays (z : ℤ) : Checked (ℤ × ℤ × ℤ) := do
  let (era, rest) ← eraOf z
  let doe := u32.cast rest
  let yoe := (u32.saturate (u32.saturate (u32.saturate (doe - doe.tdiv 1460)
    + doe.tdiv 36524) - doe.tdiv 146096)).tdiv 365
  i32.check [i32.cast era * 400, i32.cast yoe + i32.cast era * 400]
  dateOf i32 u32 (i32.cast yoe + i32.cast era * 400) doe yoe

/-! ## From a date to the number of a day -/

/-- This copy calculates with 32 bits. -/
def Maintain.daysFromCivil (year month day : ℤ) : Checked ℤ := do
  i32.check [if month ≤ 2 then year - 1 else year]
  let y := if month ≤ 2 then year - 1 else year
  i32.check [if 0 ≤ y then y else y - 399]
  let era := (if 0 ≤ y then y else y - 399).tdiv 400
  i32.check [era * 400, y - era * 400]
  let yoe := y - era * 400
  let m := i32.cast month
  let mp := m + if 2 < m then -3 else 9
  let d := i32.cast day
  i32.check [mp, 153 * mp, 153 * mp + 2, (153 * mp + 2).tdiv 5 + d,
    (153 * mp + 2).tdiv 5 + d - 1]
  let doy := (153 * mp + 2).tdiv 5 + d - 1
  i32.check [yoe * 365, yoe * 365 + yoe.tdiv 4, yoe * 365 + yoe.tdiv 4 - yoe.tdiv 100,
    yoe * 365 + yoe.tdiv 4 - yoe.tdiv 100 + doy]
  let doe := yoe * 365 + yoe.tdiv 4 - yoe.tdiv 100 + doy
  i32.check [era * 146097, era * 146097 + doe, era * 146097 + doe - 719468]
  return era * 146097 + doe - 719468

/-- And this one with 64. -/
def Autonomy.daysFromCivil (year month day : ℤ) : Checked ℤ := do
  i64.check [year - if month ≤ 2 then 1 else 0]
  let y := year - if month ≤ 2 then 1 else 0
  i64.check [if 0 ≤ y then y else y - 399]
  let era := (if 0 ≤ y then y else y - 399).tdiv 400
  i64.check [era * 400, y - era * 400]
  let yoe := y - era * 400
  let mp := month + if 2 < month then -3 else 9
  i64.check [mp, 153 * mp, 153 * mp + 2, (153 * mp + 2).tdiv 5 + day,
    (153 * mp + 2).tdiv 5 + day - 1]
  let doy := (153 * mp + 2).tdiv 5 + day - 1
  i64.check [yoe * 365, yoe * 365 + yoe.tdiv 4, yoe * 365 + yoe.tdiv 4 - yoe.tdiv 100,
    yoe * 365 + yoe.tdiv 4 - yoe.tdiv 100 + doy]
  let doe := yoe * 365 + yoe.tdiv 4 - yoe.tdiv 100 + doy
  i64.check [era * 146097, era * 146097 + doe, era * 146097 + doe - 719468]
  return era * 146097 + doe - 719468

/-- This one has a year that may be negative, and the rest may not. -/
def History.daysFromCivil (year month day : ℤ) : Checked ℤ := do
  i32.check [if month ≤ 2 then year - 1 else year]
  let y := if month ≤ 2 then year - 1 else year
  i64.check [if 0 ≤ y then y else y - 399]
  let era := (if 0 ≤ y then y else y - 399).tdiv 400
  i64.check [era * 400, y - era * 400]
  let yoe := u64.cast (y - era * 400)
  let mp := if 2 < month then month - 3 else month + 9
  u64.check [mp, 153 * mp, 153 * mp + 2, (153 * mp + 2).tdiv 5 + day,
    (153 * mp + 2).tdiv 5 + day - 1]
  let doy := (153 * mp + 2).tdiv 5 + day - 1
  u64.check [yoe * 365, yoe * 365 + yoe.tdiv 4, yoe * 365 + yoe.tdiv 4 - yoe.tdiv 100,
    yoe * 365 + yoe.tdiv 4 - yoe.tdiv 100 + doy]
  let doe := yoe * 365 + yoe.tdiv 4 - yoe.tdiv 100 + doy
  i64.check [era * 146097, era * 146097 + i64.cast doe,
    era * 146097 + i64.cast doe - 719468]
  return era * 146097 + i64.cast doe - 719468

/-! ## Writing a time -/

/-- `YYYY-MM-DD`. -/
def renderDate (date : ℤ × ℤ × ℤ) : List Char :=
  padded 4 date.1 ++ '-' :: (padded 2 date.2.1 ++ '-' :: padded 2 date.2.2)

/-- `YYYY-MM-DDTHH:MM:SSZ`. -/
def render (date : ℤ × ℤ × ℤ) (hour min sec : ℤ) : String :=
  String.ofList (renderDate date ++ 'T' :: (padded 2 hour ++ ':' :: (padded 2 min
    ++ ':' :: (padded 2 sec ++ ['Z']))))

/-- What both the formatters of times of the system do, with the conversion that each
has. -/
def formatWith (civilFromDays : ℤ → Checked (ℤ × ℤ × ℤ)) (secs : ℤ) : Checked String := do
  let days := secs / 86400
  let rem := secs % 86400
  let date ← civilFromDays days
  return render date (rem / 3600) (rem % 3600 / 60) (rem % 60)

/-- The stamp of `maintain`. -/
def Maintain.formatSystemTime (t : ℕ) : Checked String :=
  formatWith Maintain.civilFromDays (i64.cast t)

/-- The stamp of `autonomy`. -/
def Autonomy.formatSystemTime (t : ℕ) : Checked String :=
  formatWith Autonomy.civilFromDays (i64.cast t)

/-- The stamp of the ledger of rejections. -/
def AnalyzedRejections.nowUtcIso8601 (now : ℕ) : Checked String := do
  let (days, timeSecs) := (now / 86400, now % 86400)
  let (hours, rem) := (timeSecs / 3600, timeSecs % 3600)
  let (minutes, seconds) := (rem / 60, rem % 60)
  let date ← AnalyzedRejections.civilFromDays (i64.cast days)
  return render date hours minutes seconds

/-- The stamp of the archive. -/
def Archive.formatUnixSecsIso8601 (secs : ℕ) : Checked String := do
  let days := secs / 86400
  let sOfDay := secs % 86400
  let date ← Archive.civilFromDays (i64.cast days)
  return render date (sOfDay / 3600 : ℕ) (sOfDay % 3600 / 60 : ℕ) (sOfDay % 60 : ℕ)

/-! ## Reading a time -/

/-- The number between two positions of a text. -/
def field (T : IntType) (s : String) (first last : ℕ) : Checked ℤ := do
  let cs ← slice s first last
  match T.parse cs with
  | Except.ok n => return n
  | Except.error e => throw (Stop.failed [e.display])

/-- The seconds from the beginning of 1970 on that a timestamp says. -/
def Maintain.parseIsoishUtc (s : String) : Checked ℕ := do
  if Text.byteLen s < 19 then
    throw (Stop.failed [s!"timestamp `{s}` too short; expected ISO 8601"])
  let year ← field i32 s 0 4
  let month ← field u32 s 5 7
  let day ← field u32 s 8 10
  let hour ← field u64 s 11 13
  let min ← field u64 s 14 16
  let sec ← field u64 s 17 19
  let days ← Maintain.daysFromCivil year month day
  u64.check [hour * 3600, min * 60, hour * 3600 + min * 60, hour * 3600 + min * 60 + sec]
  let total := i64.saturate (i64.saturate (days * 86400)
    + i64.cast (hour * 3600 + min * 60 + sec))
  if total < 0 then
    throw (Stop.failed [s!"timestamp `{s}` predates Unix epoch"])
  return total.toNat

/-- A text without a `Z` at its end. -/
def stripZ (cs : List Char) : List Char :=
  if cs.getLast? = some 'Z' then cs.dropLast else cs

/-- The numbers that the parts of a text between separators are, if there are three. -/
def numbers (separator : Char) (cs : List Char) : Option (ℤ × ℤ × ℤ) :=
  match (cs.splitOn separator).mapM fun part => (i64.parse part).toOption with
  | some [a, b, c] => some (a, b, c)
  | _ => none

/-- A number that must be a value of the type. -/
def checked (T : IntType) (x : ℤ) : Option ℤ := if T.Holds x then some x else none

/-- The seconds of a day and a time, if they are not too many. -/
def Autonomy.total (days : ℤ) (time : ℤ × ℤ × ℤ) : Option ℕ := do
  let secs ← checked i64 (days * 86400)
  let hours ← checked i64 (time.1 * 3600)
  let secs ← checked i64 (secs + hours)
  let minutes ← checked i64 (time.2.1 * 60)
  let secs ← checked i64 (secs + minutes)
  let secs ← checked i64 (secs + time.2.2)
  if secs < 0 then none else some secs.toNat

/-- The seconds from the beginning of 1970 on that a timestamp says, if it is one. -/
def Autonomy.parseIsoishUtc (s : String) : Checked (Option ℕ) :=
  match (stripZ s.toList).splitOn 'T' with
  | [date, time] =>
    match numbers '-' date, numbers ':' ((time.splitOn '.').head?.getD time) with
    | some (year, month, day), some time => do
      let days ← Autonomy.daysFromCivil year month day
      if days < 0 then return none
      return Autonomy.total days time
    | _, _ => return none
  | _ => return none

/-! ## The copies are the passages of the calendar -/

/-- Division as the language has it, of a number that is moved down where it is
negative, is division that rounds down. -/
theorem tdiv_moved {z n : ℤ} (hn : 0 < n) :
    (if 0 ≤ z then z else z - (n - 1)).tdiv n = z / n := by
  split_ifs with hz
  · exact Int.tdiv_eq_ediv_of_nonneg hz
  · have hparts := Int.mul_ediv_add_emod z n
    have hlow := Int.emod_nonneg z hn.ne'
    have hhigh := Int.emod_lt_of_pos z hn
    by_cases hlast : z % n = n - 1
    · rw [show z - (n - 1) = n * (z / n) by omega, Int.mul_tdiv_cancel_left _ hn.ne']
    · have hmoved : z - (n - 1) = (z % n + 1) + n * (z / n - 1) := by
        rw [mul_sub]
        omega
      have hquotient : (z - (n - 1)) / n = z / n - 1 := by
        rw [hmoved, Int.add_mul_ediv_left _ _ hn.ne',
          Int.ediv_eq_zero_of_lt (by omega) (by omega), zero_add]
      have hrest : ¬ n ∣ z - (n - 1) := by
        rw [hmoved, Int.dvd_add_self_mul]
        exact fun h => absurd (Int.le_of_dvd (by omega) h) (by omega)
      rw [Int.tdiv_eq_ediv, hquotient, if_neg (by omega), Int.sign_eq_one_of_pos hn]
      omega

/-- A type that has the days of an era. -/
structure Wide (T : IntType) : Prop where
  least : T.least ≤ 0
  greatest : 2 ^ 31 - 1 ≤ T.greatest

/-- The era of a day, and the day of it, do not overflow. -/
theorem eraOf_ok {days : ℤ} (h : -2 ^ 50 ≤ days ∧ days ≤ 2 ^ 50) :
    eraOf days = Except.ok ((days + 719468) / 146097, (days + 719468) % 146097) := by
  have hera : (if 0 ≤ days + 719468 then days + 719468 else days + 719468 - 146096).tdiv 146097
      = (days + 719468) / 146097 := tdiv_moved (n := 146097) (by decide)
  have hrest : days + 719468 - (days + 719468) / 146097 * 146097
      = (days + 719468) % 146097 := by
    omega
  unfold eraOf
  dsimp only
  rw [hera, hrest, check_bind, check_bind, check_bind]
  · rfl
  all_goals
    simp only [List.Forall, holds_i64_iff]
    omega

/-- The year of an era, calculated as the copies do. -/
theorem tdiv_yearOfEra {doe : ℤ} (h : 0 ≤ doe) :
    (doe - doe.tdiv 1460 + doe.tdiv 36524 - doe.tdiv 146096).tdiv 365
      = (Civil.yearOfEra doe.toNat : ℤ) := by
  have hquotients : 0 ≤ doe - doe / 1460 + doe / 36524 - doe / 146096 := by omega
  rw [Int.tdiv_eq_ediv_of_nonneg h, Int.tdiv_eq_ediv_of_nonneg h,
    Int.tdiv_eq_ediv_of_nonneg h, Int.tdiv_eq_ediv_of_nonneg hquotients]
  unfold Civil.yearOfEra Civil.leapless
  omega

/-- Nothing overflows on the way to the year of an era. -/
theorem leapless_holds {T : IntType} (hT : Wide T) {doe : ℤ} (h : 0 ≤ doe ∧ doe < 146097) :
    T.Holds (doe - doe.tdiv 1460) ∧ T.Holds (doe - doe.tdiv 1460 + doe.tdiv 36524)
      ∧ T.Holds (doe - doe.tdiv 1460 + doe.tdiv 36524 - doe.tdiv 146096) := by
  obtain ⟨hleast, hgreatest⟩ := hT
  unfold Holds
  rw [Int.tdiv_eq_ediv_of_nonneg h.left, Int.tdiv_eq_ediv_of_nonneg h.left,
    Int.tdiv_eq_ediv_of_nonneg h.left]
  omega

theorem dateOf_ok {Y T : IntType} {days : ℤ} (hT : Wide T)
    (hY : ∀ x, (days + 719468) / 146097 * 400 ≤ x →
      x ≤ (days + 719468) / 146097 * 400 + 400 → Y.Holds x) :
    dateOf Y T (Civil.yearOfEra ((days + 719468) % 146097).toNat
        + (days + 719468) / 146097 * 400)
      ((days + 719468) % 146097) (Civil.yearOfEra ((days + 719468) % 146097).toNat)
      = Except.ok (Civil.fromDays days) := by
  obtain ⟨hleast, hgreatest⟩ := hT
  have hdoe : 0 ≤ (days + 719468) % 146097 ∧ (days + 719468) % 146097 < 146097 := by omega
  obtain ⟨yoe, hyear, hyoe, hfirst, hlast⟩ := Civil.eraStart_yearOfEra hdoe
  unfold Civil.fromDays dateOf
  dsimp only
  rw [hyear]
  generalize (days + 719468) / 146097 * 400 = years at *
  generalize (days + 719468) % 146097 = doe at *
  rw [Int.tdiv_eq_ediv_of_nonneg hyoe.left, Int.tdiv_eq_ediv_of_nonneg hyoe.left]
  have hdoy : 0 ≤ doe - (365 * yoe + yoe / 4 - yoe / 100)
      ∧ doe - (365 * yoe + yoe / 4 - yoe / 100) ≤ 365 := by
    unfold Civil.eraStart at hfirst hlast
    omega
  generalize hdoys : doe - (365 * yoe + yoe / 4 - yoe / 100) = doy at *
  rw [Int.tdiv_eq_ediv_of_nonneg (show 0 ≤ 5 * doy + 2 by omega)]
  obtain ⟨hmp, hstart⟩ := Civil.monthStart_div hdoy
  generalize (5 * doy + 2) / 153 = mp at *
  rw [Int.tdiv_eq_ediv_of_nonneg (show 0 ≤ 153 * mp + 2 by omega)]
  unfold Civil.monthStart at hstart ⊢
  rw [check_bind, check_bind, check_bind, check_bind]
  · rfl
  · show Y.Holds _
    split_ifs
    all_goals exact hY _ (by omega) (by omega)
  all_goals
    simp only [List.Forall, Holds]
    omega

/-- **The conversions to dates are those of the calendar**, for days that are not too
far from the epoch. -/
theorem civilParts_ok {T : IntType} (hT : Wide T) {days : ℤ}
    (h : -2 ^ 50 ≤ days ∧ days ≤ 2 ^ 50) :
    civilParts T days = Except.ok (Civil.fromDays days) := by
  have hdoe : 0 ≤ (days + 719468) % 146097 ∧ (days + 719468) % 146097 < 146097 := by omega
  have hcast : T.cast ((days + 719468) % 146097) = (days + 719468) % 146097 := by
    have hleast := hT.least
    have hgreatest := hT.greatest
    exact cast_of_holds ⟨by omega, by omega⟩
  obtain ⟨hyear, hholds, hholds', hholds''⟩ :=
    (⟨Civil.yearOfEra_lt (by omega), leapless_holds hT hdoe⟩ :
      Civil.yearOfEra ((days + 719468) % 146097).toNat < 400 ∧ _)
  unfold civilParts
  rw [eraOf_ok h]
  show (T.check _ >>= _) = _
  rw [hcast, check_bind, check_bind, tdiv_yearOfEra hdoe.left]
  · exact dateOf_ok hT fun x hx hx' => holds_i64_iff.mpr (by omega)
  · rw [tdiv_yearOfEra hdoe.left]
    simp only [List.Forall, holds_i64_iff]
    omega
  · exact ⟨hholds, hholds', hholds''⟩

/-- The date of a day in the ledger of rejections. -/
theorem AnalyzedRejections.civilFromDays_ok {days : ℤ}
    (h : -2 ^ 38 ≤ days ∧ days ≤ 2 ^ 38) :
    AnalyzedRejections.civilFromDays days = Except.ok (Civil.fromDays days) := by
  have hdoe : 0 ≤ (days + 719468) % 146097 ∧ (days + 719468) % 146097 < 146097 := by omega
  have hu32 : Wide u32 := ⟨le_rfl, by decide⟩
  have hcast : u32.cast ((days + 719468) % 146097) = (days + 719468) % 146097 :=
    cast_of_holds (holds_u32_iff.mpr (by omega))
  obtain ⟨hholds, hholds', hholds''⟩ := leapless_holds hu32 hdoe
  have hyear := Civil.yearOfEra_lt (show ((days + 719468) % 146097).toNat < 146097 by omega)
  have hera : i32.cast ((days + 719468) / 146097) = (days + 719468) / 146097 :=
    cast_of_holds (holds_i32_iff.mpr (by omega))
  have hyoe : i32.cast (Civil.yearOfEra ((days + 719468) % 146097).toNat : ℤ)
      = (Civil.yearOfEra ((days + 719468) % 146097).toNat : ℤ) :=
    cast_of_holds (holds_i32_iff.mpr (by omega))
  unfold AnalyzedRejections.civilFromDays
  rw [eraOf_ok (by omega)]
  show (i32.check _ >>= _) = _
  rw [hcast, saturate_of_holds hholds, saturate_of_holds hholds', saturate_of_holds hholds'',
    tdiv_yearOfEra hdoe.left, hera, hyoe, check_bind]
  · exact dateOf_ok hu32 fun x hx hx' => holds_i32_iff.mpr (by omega)
  · simp only [List.Forall, holds_i32_iff]
    omega

/-- The numbers of a date that were read from two and four digits are not too large. -/
structure Small (year month day : ℤ) : Prop where
  year : -2 ^ 20 ≤ year ∧ year ≤ 2 ^ 20
  month : 0 ≤ month ∧ month ≤ 2 ^ 10
  day : 0 ≤ day ∧ day ≤ 2 ^ 10

/-- The year that begins in March, and the days of its months. -/
theorem Small.march {year month day : ℤ} (h : Small year month day) :
    (-2 ^ 21 ≤ Civil.marchYear year month ∧ Civil.marchYear year month ≤ 2 ^ 21)
      ∧ (0 ≤ Civil.marchMonth month ∧ Civil.marchMonth month ≤ 2 ^ 10) := by
  have hyear := h.year
  have hmonth := h.month
  unfold Civil.marchYear Civil.marchMonth
  split_ifs <;> omega

/-- The parts that a number is calculated from. -/
theorem Small.parts {year month day : ℤ} (h : Small year month day) :
    ∃ era yoe doy, (if 0 ≤ Civil.marchYear year month then Civil.marchYear year month
        else Civil.marchYear year month - 399).tdiv 400 = era
      ∧ Civil.marchYear year month - era * 400 = yoe
      ∧ (153 * Civil.marchMonth month + 2).tdiv 5 + day - 1 = doy
      ∧ (0 ≤ yoe ∧ yoe < 400) ∧ (-1 ≤ doy ∧ doy ≤ 2 ^ 16)
      ∧ (-2 ^ 13 ≤ era ∧ era ≤ 2 ^ 13)
      ∧ Civil.toDays year month day = era * 146097
        + (yoe * 365 + yoe.tdiv 4 - yoe.tdiv 100 + doy) - 719468 := by
  obtain ⟨hyear, hmp⟩ := h.march
  have hday := h.day
  have hyoe : 0 ≤ Civil.marchYear year month % 400
      ∧ Civil.marchYear year month % 400 < 400 := by
    omega
  refine ⟨Civil.marchYear year month / 400, Civil.marchYear year month % 400,
    Civil.monthStart (Civil.marchMonth month) + day - 1, tdiv_moved (n := 400) (by decide),
    by omega, ?_, hyoe, ?_, by omega, ?_⟩
  · unfold Civil.monthStart
    rw [Int.tdiv_eq_ediv_of_nonneg (by omega)]
  · unfold Civil.monthStart
    omega
  · rw [Civil.toDays_eq, Int.tdiv_eq_ediv_of_nonneg hyoe.left,
      Int.tdiv_eq_ediv_of_nonneg hyoe.left]
    unfold Civil.eraStart
    ring

/-- The day of a date in `maintain`. -/
theorem Maintain.daysFromCivil_ok {year month day : ℤ} (h : Small year month day) :
    Maintain.daysFromCivil year month day = Except.ok (Civil.toDays year month day) := by
  obtain ⟨hyear, hmp⟩ := h.march
  have hmonth := h.month
  have hday := h.day
  have hm : i32.cast month = month := cast_of_holds (holds_i32_iff.mpr (by omega))
  have hd : i32.cast day = day := cast_of_holds (holds_i32_iff.mpr (by omega))
  have hmarch : month + (if 2 < month then -3 else 9) = Civil.marchMonth month := by
    unfold Civil.marchMonth
    split_ifs <;> omega
  obtain ⟨era, yoe, doy, hera, hyoes, hdoys, hyoe, hdoy, hera', hdays⟩ := h.parts
  have hquotients : 0 ≤ yoe.tdiv 4 ∧ yoe.tdiv 4 ≤ yoe ∧ 0 ≤ yoe.tdiv 100
      ∧ yoe.tdiv 100 ≤ yoe := by
    rw [Int.tdiv_eq_ediv_of_nonneg hyoe.left, Int.tdiv_eq_ediv_of_nonneg hyoe.left]
    omega
  unfold Maintain.daysFromCivil
  dsimp only
  rw [hm, hd, hmarch, show (if month ≤ 2 then year - 1 else year)
    = Civil.marchYear year month from rfl, hera, hyoes, hdoys, check_bind, check_bind,
    check_bind, check_bind, check_bind, check_bind, hdays]
  · rfl
  all_goals
    simp only [List.Forall, holds_i32_iff]
    omega

/-- The day of a date in `autonomy`. -/
theorem Autonomy.daysFromCivil_ok {year month day : ℤ} (h : Small year month day) :
    Autonomy.daysFromCivil year month day = Except.ok (Civil.toDays year month day) := by
  obtain ⟨hyear, hmp⟩ := h.march
  have hday := h.day
  have hmarch : month + (if 2 < month then -3 else 9) = Civil.marchMonth month := by
    unfold Civil.marchMonth
    split_ifs <;> omega
  have hmarch' : year - (if month ≤ 2 then 1 else 0) = Civil.marchYear year month := by
    unfold Civil.marchYear
    split_ifs <;> omega
  obtain ⟨era, yoe, doy, hera, hyoes, hdoys, hyoe, hdoy, hera', hdays⟩ := h.parts
  have hquotients : 0 ≤ yoe.tdiv 4 ∧ yoe.tdiv 4 ≤ yoe ∧ 0 ≤ yoe.tdiv 100
      ∧ yoe.tdiv 100 ≤ yoe := by
    rw [Int.tdiv_eq_ediv_of_nonneg hyoe.left, Int.tdiv_eq_ediv_of_nonneg hyoe.left]
    omega
  unfold Autonomy.daysFromCivil
  dsimp only
  rw [hmarch, hmarch', hera, hyoes, hdoys, check_bind, check_bind, check_bind, check_bind,
    check_bind, check_bind, hdays]
  · rfl
  all_goals
    simp only [List.Forall, holds_i64_iff]
    omega

/-- In this copy the day of the year must not be negative. -/
theorem History.daysFromCivil_ok {year month day : ℤ} (h : Small year month day)
    (hfirst : month ≠ 3 ∨ day ≠ 0) :
    History.daysFromCivil year month day = Except.ok (Civil.toDays year month day) := by
  obtain ⟨hyear, hmp⟩ := h.march
  have hmonth := h.month
  have hday := h.day
  obtain ⟨era, yoe, doy, hera, hyoes, hdoys, hyoe, hdoy, hera', hdays⟩ := h.parts
  have hquotients : 0 ≤ yoe.tdiv 4 ∧ yoe.tdiv 4 ≤ yoe ∧ 0 ≤ yoe.tdiv 100
      ∧ yoe.tdiv 100 ≤ yoe := by
    rw [Int.tdiv_eq_ediv_of_nonneg hyoe.left, Int.tdiv_eq_ediv_of_nonneg hyoe.left]
    omega
  have hdoy' : 0 ≤ doy := by
    rw [Int.tdiv_eq_ediv_of_nonneg (by omega)] at hdoys
    unfold Civil.marchMonth at hdoys hmp
    split_ifs at hdoys hmp <;> omega
  have hyoe' : u64.cast yoe = yoe := cast_of_holds (holds_u64_iff.mpr (by omega))
  have hdoe : i64.cast (yoe * 365 + yoe.tdiv 4 - yoe.tdiv 100 + doy)
      = yoe * 365 + yoe.tdiv 4 - yoe.tdiv 100 + doy :=
    cast_of_holds (holds_i64_iff.mpr (by omega))
  have htdiv : 0 ≤ (153 * Civil.marchMonth month + 2).tdiv 5 := by
    rw [Int.tdiv_eq_ediv_of_nonneg (by omega)]
    omega
  unfold History.daysFromCivil
  dsimp only
  rw [show (if month ≤ 2 then year - 1 else year) = Civil.marchYear year month from rfl,
    show (if 2 < month then month - 3 else month + 9) = Civil.marchMonth month from rfl, hera,
    hyoes, hdoys, hyoe', hdoe, check_bind, check_bind, check_bind, check_bind, check_bind,
    check_bind, hdays]
  · rfl
  all_goals
    simp only [List.Forall, holds_i32_iff, holds_i64_iff, holds_u64_iff]
    omega

/-- Before the first of March there is no day of the year. -/
theorem History.daysFromCivil_panicked {year : ℤ} (h : -2 ^ 20 ≤ year ∧ year ≤ 2 ^ 20) :
    History.daysFromCivil year 3 0 = Except.error Stop.panicked := by
  have hsmall : Small year 3 0 := ⟨h, by decide, by decide⟩
  obtain ⟨era, yoe, doy, hera, hyoes, -, hyoe, -, hera', -⟩ := hsmall.parts
  unfold History.daysFromCivil
  dsimp only
  rw [show (if (3 : ℤ) ≤ 2 then year - 1 else year) = Civil.marchYear year 3 from rfl, hera,
    hyoes, check_bind, check_bind, check_bind]
  · rfl
  all_goals
    obtain ⟨hyear, -⟩ := hsmall.march
    simp only [List.Forall, holds_i32_iff, holds_i64_iff]
    omega

/-- The year of a day that is not too far away is not too large. -/
theorem fromDays_year {days : ℤ} (h : -2 ^ 38 ≤ days ∧ days ≤ 2 ^ 38) :
    -2 ^ 31 ≤ (Civil.fromDays days).1 ∧ (Civil.fromDays days).1 ≤ 2 ^ 31 - 1 := by
  have hyear := Civil.yearOfEra_lt (show ((days + 719468) % 146097).toNat < 146097 by omega)
  unfold Civil.fromDays
  dsimp only
  split_ifs <;> omega

/-- A date is not changed when it is cast. -/
theorem castDate_fromDays {days : ℤ} (h : -2 ^ 38 ≤ days ∧ days ≤ 2 ^ 38) :
    castDate (Civil.fromDays days) = Civil.fromDays days := by
  have hdate := Civil.isDate_fromDays days
  have hmonth := hdate.month
  have hday := hdate.day
  have hlength : Civil.daysInMonth (Civil.fromDays days).1 (Civil.fromDays days).2.1 ≤ 31 := by
    unfold Civil.daysInMonth
    split_ifs <;> decide
  unfold castDate
  rw [cast_of_holds (holds_i32_iff.mpr (fromDays_year h)),
    cast_of_holds (holds_u32_iff.mpr (by omega)), cast_of_holds (holds_u32_iff.mpr (by omega))]

/-- What all copies of the conversion to a date give. -/
theorem civilFromDays_ok {days : ℤ} (h : -2 ^ 38 ≤ days ∧ days ≤ 2 ^ 38) :
    Maintain.civilFromDays days = Except.ok (Civil.fromDays days)
      ∧ Autonomy.civilFromDays days = Except.ok (Civil.fromDays days)
      ∧ AnalyzedRejections.civilFromDays days = Except.ok (Civil.fromDays days)
      ∧ Archive.civilFromDays days = Except.ok (Civil.fromDays days)
      ∧ Types.civilFromDays days = Except.ok (Civil.fromDays days)
      ∧ History.civilFromDays days = Except.ok (Civil.fromDays days) := by
  have hwiden : -2 ^ 50 ≤ days ∧ days ≤ 2 ^ 50 := by omega
  have hi64 := civilParts_ok (T := i64) ⟨by decide, by decide⟩ hwiden
  have hu64 := civilParts_ok (T := u64) ⟨by decide, by decide⟩ hwiden
  have hcast := congrArg (Except.ok (ε := Stop)) (castDate_fromDays h)
  have hwide : castDate <$> civilParts i64 days = Except.ok (Civil.fromDays days) := by
    rw [hi64]
    exact hcast
  have hwide' : castDate <$> civilParts u64 days = Except.ok (Civil.fromDays days) := by
    rw [hu64]
    exact hcast
  exact ⟨hwide, hi64, AnalyzedRejections.civilFromDays_ok h, hwide', hwide', hwide'⟩

/-! ## What is written -/

/-- The first second after the times that are written with four digits for the year. -/
def limit : ℕ := 253402300800

/-- The characters of a date. -/
def dateChars (y m d : ℕ) : List Char := fixed 4 y ++ '-' :: (fixed 2 m ++ '-' :: fixed 2 d)

/-- The characters of a time of day. -/
def timeChars (hour min sec : ℕ) : List Char :=
  fixed 2 hour ++ ':' :: (fixed 2 min ++ ':' :: fixed 2 sec)

/-- The characters of a timestamp. -/
def stamp (y m d hour min sec : ℕ) : List Char :=
  dateChars y m d ++ 'T' :: (timeChars hour min sec ++ ['Z'])

/-- The characters of the timestamp of a time. -/
def stampOf (t : ℕ) : List Char :=
  stamp (Civil.fromDays (t / 86400 : ℕ)).1.toNat (Civil.fromDays (t / 86400 : ℕ)).2.1.toNat
    (Civil.fromDays (t / 86400 : ℕ)).2.2.toNat (t % 86400 / 3600) (t % 86400 % 3600 / 60)
    (t % 86400 % 60)

/-- What is rendered is the stamp. -/
theorem render_eq_stamp {y m d hour min sec : ℕ} (hy : y < 10 ^ 4) (hm : m < 10 ^ 2)
    (hd : d < 10 ^ 2) (hhour : hour < 10 ^ 2) (hmin : min < 10 ^ 2) (hsec : sec < 10 ^ 2) :
    render (y, m, d) hour min sec = String.ofList (stamp y m d hour min sec) := by
  unfold render renderDate stamp dateChars timeChars
  dsimp only
  rw [padded_eq_fixed (by decide) hy, padded_eq_fixed (by decide) hm,
    padded_eq_fixed (by decide) hd, padded_eq_fixed (by decide) hhour,
    padded_eq_fixed (by decide) hmin, padded_eq_fixed (by decide) hsec]
  simp only [List.append_assoc, List.cons_append]

/-- The dates of the times that are written. -/
structure Written (z : ℤ) (y m d : ℕ) : Prop where
  date : Civil.fromDays z = ((y : ℤ), (m : ℤ), (d : ℤ))
  year : 1970 ≤ y ∧ y < 10 ^ 4
  month : 1 ≤ m ∧ m ≤ 12
  day : 1 ≤ d ∧ d ≤ 31

/-- A day before the year 10000 is written with four digits for its year. -/
theorem written_of_lt {z : ℤ} (h : 0 ≤ z ∧ z < 2932897) :
    Written z (Civil.fromDays z).1.toNat (Civil.fromDays z).2.1.toNat
      (Civil.fromDays z).2.2.toNat := by
  have hdate := Civil.isDate_fromDays z
  have hmonth := hdate.month
  have hday := hdate.day
  have hlength : Civil.daysInMonth (Civil.fromDays z).1 (Civil.fromDays z).2.1 ≤ 31 := by
    unfold Civil.daysInMonth
    split_ifs <;> decide
  have hfirst : Civil.fromDays 0 = (1970, 1, 1) := by decide +kernel
  have hlast : Civil.fromDays 2932897 = (10000, 1, 1) := by decide +kernel
  have hbefore := Civil.fromDays_lt h.right
  rw [hlast] at hbefore
  have hyear : 1970 ≤ (Civil.fromDays z).1 := by
    obtain hzero | hpos := eq_or_lt_of_le h.left
    · rw [← hzero, hfirst]
    · have hafter := Civil.fromDays_lt hpos
      rw [hfirst] at hafter
      dsimp only at hafter
      omega
  dsimp only at hbefore
  refine ⟨?_, by omega, by omega, by omega⟩
  rw [Int.toNat_of_nonneg (by omega), Int.toNat_of_nonneg (by omega),
    Int.toNat_of_nonneg (by omega)]

/-- **All formatters write the same timestamp.** -/
theorem format_eq {t : ℕ} (h : t < limit) :
    Maintain.formatSystemTime t = Except.ok (String.ofList (stampOf t))
      ∧ Autonomy.formatSystemTime t = Except.ok (String.ofList (stampOf t))
      ∧ AnalyzedRejections.nowUtcIso8601 t = Except.ok (String.ofList (stampOf t))
      ∧ Archive.formatUnixSecsIso8601 t = Except.ok (String.ofList (stampOf t)) := by
  unfold limit at h
  have hdays : ((t / 86400 : ℕ) : ℤ) = (t : ℤ) / 86400 := by omega
  have hwritten := written_of_lt (z := (t / 86400 : ℕ)) (by omega)
  have hrender : render (Civil.fromDays (t / 86400 : ℕ)) (t % 86400 / 3600)
      (t % 86400 % 3600 / 60) (t % 86400 % 60) = String.ofList (stampOf t) := by
    have hstamp := render_eq_stamp hwritten.year.right
      (lt_of_le_of_lt hwritten.month.right (by decide))
      (lt_of_le_of_lt hwritten.day.right (by decide))
      (show t % 86400 / 3600 < 10 ^ 2 by omega) (show t % 86400 % 3600 / 60 < 10 ^ 2 by omega)
      (show t % 86400 % 60 < 10 ^ 2 by omega)
    rwa [← hwritten.date] at hstamp
  have hbounds : -2 ^ 38 ≤ ((t / 86400 : ℕ) : ℤ) ∧ ((t / 86400 : ℕ) : ℤ) ≤ 2 ^ 38 := by omega
  obtain ⟨hmaintain, hautonomy, hrejections, harchive, -, -⟩ := civilFromDays_ok hbounds
  have hcast : i64.cast t = t := cast_of_holds (holds_i64_iff.mpr (by omega))
  have hcast' : i64.cast (t / 86400 : ℕ) = (t / 86400 : ℕ) :=
    cast_of_holds (holds_i64_iff.mpr (by omega))
  have hwith : ∀ civilFromDays : ℤ → Checked (ℤ × ℤ × ℤ),
      civilFromDays (t / 86400 : ℕ) = Except.ok (Civil.fromDays (t / 86400 : ℕ)) →
      formatWith civilFromDays (i64.cast t) = Except.ok (String.ofList (stampOf t)) := by
    intro civilFromDays hcivil
    unfold formatWith
    dsimp only
    rw [hcast, ← hdays, hcivil]
    exact congrArg Except.ok hrender
  refine ⟨hwith _ hmaintain, hwith _ hautonomy, ?_, ?_⟩
  · unfold AnalyzedRejections.nowUtcIso8601
    dsimp only
    rw [hcast', hrejections]
    have hsec : t % 86400 % 3600 % 60 = t % 86400 % 60 := by omega
    rw [hsec]
    exact congrArg Except.ok hrender
  · unfold Archive.formatUnixSecsIso8601
    dsimp only
    rw [hcast', harchive]
    exact congrArg Except.ok hrender

/-! ## What is written is read -/

/-- A digit is one byte. -/
theorem utf8Size_of_isAsciiDigit {c : Char} (h : Text.isAsciiDigit c = true) :
    c.utf8Size = 1 := by
  unfold Text.isAsciiDigit at h
  rw [Bool.and_eq_true, decide_eq_true_eq, decide_eq_true_eq] at h
  exact Char.utf8Size_eq_one_iff.mpr (UInt32.le_trans (Char.le_def.mp h.right)
    (show '9'.val ≤ 127 by decide))

/-- A date has only digits and dashes. -/
theorem mem_dateChars {y m d : ℕ} {c : Char} (h : c ∈ dateChars y m d) :
    Text.isAsciiDigit c = true ∨ c = '-' := by
  simp only [dateChars, List.mem_append, List.mem_cons] at h
  obtain h | rfl | h | rfl | h := h
  · exact Or.inl (isAsciiDigit_of_mem_fixed h)
  · exact Or.inr rfl
  · exact Or.inl (isAsciiDigit_of_mem_fixed h)
  · exact Or.inr rfl
  · exact Or.inl (isAsciiDigit_of_mem_fixed h)

/-- A time has only digits and colons. -/
theorem mem_timeChars {hour min sec : ℕ} {c : Char} (h : c ∈ timeChars hour min sec) :
    Text.isAsciiDigit c = true ∨ c = ':' := by
  simp only [timeChars, List.mem_append, List.mem_cons] at h
  obtain h | rfl | h | rfl | h := h
  · exact Or.inl (isAsciiDigit_of_mem_fixed h)
  · exact Or.inr rfl
  · exact Or.inl (isAsciiDigit_of_mem_fixed h)
  · exact Or.inr rfl
  · exact Or.inl (isAsciiDigit_of_mem_fixed h)

/-- Every character of a timestamp has one byte. -/
theorem utf8Size_stamp {y m d hour min sec : ℕ} :
    ∀ c ∈ stamp y m d hour min sec, c.utf8Size = 1 := by
  intro c hc
  simp only [stamp, List.mem_append, List.mem_cons] at hc
  obtain hc | rfl | hc | rfl | hc := hc
  · obtain hdigit | rfl := mem_dateChars hc
    · exact utf8Size_of_isAsciiDigit hdigit
    · rfl
  · rfl
  · obtain hdigit | rfl := mem_timeChars hc
    · exact utf8Size_of_isAsciiDigit hdigit
    · rfl
  · rfl
  · cases hc

/-- A field of a timestamp is read as the number that was written there. -/
theorem field_stamp {T : IntType} {y m d hour min sec first last w n : ℕ}
    (hfixed : ((stamp y m d hour min sec).drop first).take (last - first) = fixed w n)
    (hlast : last ≤ 20) (hle : first ≤ last) (hw : 0 < w) (hn : n < 10 ^ w)
    (hleast : T.least ≤ 0) (hgreatest : 10 ^ w ≤ T.greatest) :
    field T (String.ofList (stamp y m d hour min sec)) first last = Except.ok (n : ℤ) := by
  have hlength : (stamp y m d hour min sec).length = 20 := rfl
  unfold field
  rw [slice_of_single utf8Size_stamp (by omega) hle, hfixed]
  show (match T.parse (fixed w n) with
    | Except.ok n => _
    | Except.error e => _) = _
  rw [parse_fixed hw hleast hgreatest hn]
  rfl

/-- The seconds of a day and a time of day. -/
def secondsOf (days : ℤ) (hour min sec : ℕ) : ℤ := days * 86400 + (hour * 3600 + min * 60 + sec)

section Stamp

variable {y m d hour min sec : ℕ}

/-- `maintain` reads a stamp back. -/
theorem Maintain.parse_stamp (hy : y < 10 ^ 4) (hm : m < 10 ^ 2) (hd : d < 10 ^ 2)
    (hhour : hour < 10 ^ 2) (hmin : min < 10 ^ 2) (hsec : sec < 10 ^ 2)
    (hdays : 0 ≤ Civil.toDays y m d ∧ Civil.toDays y m d < 2932897) :
    Maintain.parseIsoishUtc (String.ofList (stamp y m d hour min sec))
      = Except.ok (secondsOf (Civil.toDays y m d) hour min sec).toNat := by
  have hlength : Text.byteLen (String.ofList (stamp y m d hour min sec)) = 20 := by
    rw [byteLen_of_single utf8Size_stamp]
    rfl
  have hsmall : Small y m d := ⟨by omega, by omega, by omega⟩
  have hseconds : i64.cast ((hour : ℤ) * 3600 + min * 60 + sec) = hour * 3600 + min * 60 + sec :=
    cast_of_holds (holds_i64_iff.mpr (by omega))
  have hproduct : i64.saturate (Civil.toDays y m d * 86400) = Civil.toDays y m d * 86400 :=
    saturate_of_holds (holds_i64_iff.mpr (by omega))
  unfold Maintain.parseIsoishUtc
  rw [hlength, if_neg (by decide),
    field_stamp (w := 4) (n := y) rfl (by decide) (by decide) (by decide) hy (by decide)
      (by decide),
    field_stamp (w := 2) (n := m) rfl (by decide) (by decide) (by decide) hm (by decide)
      (by decide),
    field_stamp (w := 2) (n := d) rfl (by decide) (by decide) (by decide) hd (by decide)
      (by decide),
    field_stamp (w := 2) (n := hour) rfl (by decide) (by decide) (by decide) hhour (by decide)
      (by decide),
    field_stamp (w := 2) (n := min) rfl (by decide) (by decide) (by decide) hmin (by decide)
      (by decide),
    field_stamp (w := 2) (n := sec) rfl (by decide) (by decide) (by decide) hsec (by decide)
      (by decide)]
  show (Maintain.daysFromCivil y m d >>= _) = _
  rw [Maintain.daysFromCivil_ok hsmall]
  show (u64.check _ >>= _) = _
  rw [check_bind]
  · dsimp only
    rw [hseconds, hproduct, saturate_of_holds (holds_i64_iff.mpr (by omega)),
      if_neg (by omega)]
    rfl
  · simp only [List.Forall, holds_u64_iff]
    omega

/-- What stands before the `Z`. -/
theorem stripZ_stamp : stripZ (stamp y m d hour min sec)
    = dateChars y m d ++ 'T' :: timeChars hour min sec := by
  have hlast : stamp y m d hour min sec
      = (dateChars y m d ++ 'T' :: timeChars hour min sec) ++ ['Z'] := by
    unfold stamp
    rw [List.append_assoc, List.cons_append]
  unfold stripZ
  rw [hlast, List.getLast?_concat, if_pos rfl, List.dropLast_concat]

/-- No other character is in a date. -/
theorem not_mem_dateChars {c : Char} (hdigit : Text.isAsciiDigit c = false) (hc : c ≠ '-') :
    c ∉ dateChars y m d := by
  intro h
  obtain h | h := mem_dateChars h
  · rw [hdigit] at h
    cases h
  · exact hc h

/-- No other character is in a time. -/
theorem not_mem_timeChars {c : Char} (hdigit : Text.isAsciiDigit c = false) (hc : c ≠ ':') :
    c ∉ timeChars hour min sec := by
  intro h
  obtain h | h := mem_timeChars h
  · rw [hdigit] at h
    cases h
  · exact hc h

/-- No other character is in a number. -/
theorem not_mem_fixed {w n : ℕ} {c : Char} (hdigit : Text.isAsciiDigit c = false) :
    c ∉ fixed w n := by
  intro h
  rw [isAsciiDigit_of_mem_fixed h] at hdigit
  cases hdigit

/-- Three numbers between separators are read as they were written. -/
theorem numbers_fixed {separator : Char} {u v w a b c : ℕ}
    (hseparator : Text.isAsciiDigit separator = false) (hu : 0 < u ∧ u ≤ 4)
    (hv : 0 < v ∧ v ≤ 4) (hw : 0 < w ∧ w ≤ 4) (ha : a < 10 ^ u) (hb : b < 10 ^ v)
    (hc : c < 10 ^ w) :
    numbers separator (fixed u a ++ separator :: (fixed v b ++ separator :: fixed w c))
      = some ((a : ℤ), (b : ℤ), (c : ℤ)) := by
  have hread : ∀ {k n : ℕ}, 0 < k ∧ k ≤ 4 → n < 10 ^ k →
      (i64.parse (fixed k n)).toOption = some (n : ℤ) := by
    intro k n hk hn
    have hpow : (10 : ℤ) ^ k ≤ 10 ^ 4 := pow_le_pow_right₀ (by decide) hk.right
    rw [parse_fixed hk.left (by decide) (hpow.trans (by decide)) hn]
    rfl
  unfold numbers
  rw [List.splitOn_append_cons_self_of_not_mem (not_mem_fixed hseparator),
    List.splitOn_append_cons_self_of_not_mem (not_mem_fixed hseparator),
    List.splitOn_eq_singleton (not_mem_fixed hseparator)]
  simp only [List.mapM_cons, List.mapM_nil, hread hu ha, hread hv hb, hread hw hc]
  rfl

/-- A number that fits passes. -/
theorem checked_of_holds {T : IntType} {x : ℤ} (h : T.Holds x) : checked T x = some x :=
  if_pos h

/-- The seconds of a day and a time fit. -/
theorem Autonomy.total_ok {days : ℤ} (hdays : 0 ≤ days ∧ days < 2932897)
    (hhour : hour < 10 ^ 2) (hmin : min < 10 ^ 2) (hsec : sec < 10 ^ 2) :
    Autonomy.total days (hour, min, sec) = some (secondsOf days hour min sec).toNat := by
  have hholds : ∀ x : ℤ, 0 ≤ x ∧ x < 2 ^ 40 → checked i64 x = some x :=
    fun x hx => checked_of_holds (holds_i64_iff.mpr (by omega))
  unfold Autonomy.total
  dsimp only
  rw [hholds _ (by omega), hholds _ (by omega), hholds _ (by omega)]
  show ((checked i64 (days * 86400 + hour * 3600)).bind fun secs => _) = _
  rw [hholds _ (by omega)]
  show ((checked i64 (days * 86400 + hour * 3600 + min * 60)).bind fun secs => _) = _
  rw [hholds _ (by omega)]
  show ((checked i64 (days * 86400 + hour * 3600 + min * 60 + sec)).bind fun secs => _) = _
  rw [hholds _ (by omega)]
  show (if days * 86400 + hour * 3600 + min * 60 + sec < 0 then none else some _) = _
  rw [if_neg (by omega)]
  unfold secondsOf
  congr 2
  omega

/-- `autonomy` reads a stamp back. -/
theorem Autonomy.parse_stamp (hy : y < 10 ^ 4) (hm : m < 10 ^ 2) (hd : d < 10 ^ 2)
    (hhour : hour < 10 ^ 2) (hmin : min < 10 ^ 2) (hsec : sec < 10 ^ 2)
    (hdays : 0 ≤ Civil.toDays y m d ∧ Civil.toDays y m d < 2932897) :
    Autonomy.parseIsoishUtc (String.ofList (stamp y m d hour min sec))
      = Except.ok (some (secondsOf (Civil.toDays y m d) hour min sec).toNat) := by
  have hsmall : Small y m d := ⟨by omega, by omega, by omega⟩
  have hdate : numbers '-' (dateChars y m d) = some ((y : ℤ), (m : ℤ), (d : ℤ)) :=
    numbers_fixed (by decide) (by decide) (by decide) (by decide) hy hm hd
  have htime : numbers ':' (timeChars hour min sec)
      = some ((hour : ℤ), (min : ℤ), (sec : ℤ)) :=
    numbers_fixed (by decide) (by decide) (by decide) (by decide) hhour hmin hsec
  unfold Autonomy.parseIsoishUtc
  rw [String.toList_ofList, stripZ_stamp,
    List.splitOn_append_cons_self_of_not_mem (not_mem_dateChars (by decide) (by decide)),
    List.splitOn_eq_singleton (not_mem_timeChars (by decide) (by decide))]
  dsimp only
  rw [List.splitOn_eq_singleton (not_mem_timeChars (by decide) (by decide)), hdate]
  show (match some ((y : ℤ), (m : ℤ), (d : ℤ)), numbers ':' (timeChars hour min sec) with
    | some (year, month, day), some time => _
    | _, _ => _) = _
  rw [htime]
  show (Autonomy.daysFromCivil y m d >>= _) = _
  rw [Autonomy.daysFromCivil_ok hsmall]
  show (if Civil.toDays y m d < 0 then _ else _) = _
  rw [if_neg (by omega)]
  exact congrArg Except.ok (Autonomy.total_ok hdays hhour hmin hsec)

end Stamp

/-- **What the formatters write for a time, both readers read as that time.** -/
theorem parse_stampOf {t : ℕ} (h : t < limit) :
    Maintain.parseIsoishUtc (String.ofList (stampOf t)) = Except.ok t
      ∧ Autonomy.parseIsoishUtc (String.ofList (stampOf t)) = Except.ok (some t) := by
  unfold limit at h
  have hwritten := written_of_lt (z := (t / 86400 : ℕ)) (by omega)
  have hnumber := Civil.toDays_fromDays (t / 86400 : ℕ)
  rw [hwritten.date] at hnumber
  dsimp only at hnumber
  have hmonth := lt_of_le_of_lt hwritten.month.right (show 12 < 10 ^ 2 by decide)
  have hday := lt_of_le_of_lt hwritten.day.right (show 31 < 10 ^ 2 by decide)
  have hseconds : (secondsOf (t / 86400 : ℕ) (t % 86400 / 3600) (t % 86400 % 3600 / 60)
      (t % 86400 % 60)).toNat = t := by
    unfold secondsOf
    omega
  have hhour : t % 86400 / 3600 < 10 ^ 2 := by omega
  have hmin : t % 86400 % 3600 / 60 < 10 ^ 2 := by omega
  have hsec : t % 86400 % 60 < 10 ^ 2 := by omega
  have hmaintain := Maintain.parse_stamp hwritten.year.right hmonth hday hhour hmin hsec
    (by rw [hnumber]; omega)
  have hautonomy := Autonomy.parse_stamp hwritten.year.right hmonth hday hhour hmin hsec
    (by rw [hnumber]; omega)
  rw [hnumber, hseconds] at hmaintain hautonomy
  exact ⟨hmaintain, hautonomy⟩

/-! ## Later times are greater strings -/

/-- Three numbers between separators come in the order of the numbers. -/
theorem fixed_triple_lt {separator : Char} {u v w a b c a' b' c' : ℕ} (ha : a' < 10 ^ u)
    (hb : b' < 10 ^ v) (hc : c' < 10 ^ w)
    (h : a < a' ∨ a = a' ∧ (b < b' ∨ b = b' ∧ c < c')) :
    fixed u a ++ separator :: (fixed v b ++ separator :: fixed w c)
      < fixed u a' ++ separator :: (fixed v b' ++ separator :: fixed w c') := by
  obtain ha' | ⟨rfl, hb' | ⟨rfl, hc'⟩⟩ := h
  · exact lt_append_of_lt _ _ (fixed_lt ha' ha) (by rw [length_fixed, length_fixed])
  · refine List.append_left_lt (List.cons_lt_cons_iff.mpr (Or.inr ⟨rfl, ?_⟩))
    exact lt_append_of_lt _ _ (fixed_lt hb' hb) (by rw [length_fixed, length_fixed])
  · refine List.append_left_lt (List.cons_lt_cons_iff.mpr (Or.inr ⟨rfl, ?_⟩))
    exact List.append_left_lt (List.cons_lt_cons_iff.mpr (Or.inr ⟨rfl, fixed_lt hc' hc⟩))

theorem length_dateChars (y m d : ℕ) : (dateChars y m d).length = 10 := by
  simp only [dateChars, List.length_append, List.length_cons, length_fixed]

theorem length_timeChars (hour min sec : ℕ) : (timeChars hour min sec).length = 8 := by
  simp only [timeChars, List.length_append, List.length_cons, length_fixed]

/-- Dates are compared as texts as they are in time. -/
theorem dateChars_lt {y m d y' m' d' : ℕ} (hy : y' < 10 ^ 4) (hm : m' < 10 ^ 2)
    (hd : d' < 10 ^ 2) (h : y < y' ∨ y = y' ∧ (m < m' ∨ m = m' ∧ d < d')) :
    dateChars y m d < dateChars y' m' d' :=
  fixed_triple_lt hy hm hd h

/-- So are times. -/
theorem timeChars_lt {hour min sec hour' min' sec' : ℕ} (hhour : hour' < 10 ^ 2)
    (hmin : min' < 10 ^ 2) (hsec : sec' < 10 ^ 2)
    (h : hour < hour' ∨ hour = hour' ∧ (min < min' ∨ min = min' ∧ sec < sec')) :
    timeChars hour min sec < timeChars hour' min' sec' :=
  fixed_triple_lt hhour hmin hsec h

/-- A later day is written as a greater date. -/
theorem Written.dateChars_lt {z w : ℤ} {y m d y' m' d' : ℕ} (hz : Written z y m d)
    (hw : Written w y' m' d') (h : z < w) : dateChars y m d < dateChars y' m' d' := by
  have hdate := Civil.fromDays_lt h
  rw [hz.date, hw.date] at hdate
  dsimp only at hdate
  have hmonth : m' < 10 ^ 2 := lt_of_le_of_lt hw.month.right (by decide)
  have hday : d' < 10 ^ 2 := lt_of_le_of_lt hw.day.right (by decide)
  exact Timestamps.dateChars_lt hw.year.right hmonth hday (by omega)

/-- A stamp of an earlier date is before one of a later date. -/
theorem stamp_lt_of_date {y m d y' m' d' : ℕ} (hour min sec hour' min' sec' : ℕ)
    (h : dateChars y m d < dateChars y' m' d') :
    stamp y m d hour min sec < stamp y' m' d' hour' min' sec' :=
  lt_append_of_lt _ _ h (by rw [length_dateChars, length_dateChars])

/-- On one date the time decides. -/
theorem stamp_lt_of_time {hour min sec hour' min' sec' : ℕ} (y m d : ℕ)
    (h : timeChars hour min sec < timeChars hour' min' sec') :
    stamp y m d hour min sec < stamp y m d hour' min' sec' := by
  refine List.append_left_lt (List.cons_lt_cons_iff.mpr (Or.inr ⟨rfl, ?_⟩))
  exact lt_append_of_lt _ _ h (by rw [length_timeChars, length_timeChars])

/-- Stamps are compared as texts as they are in time. -/
theorem stampOf_lt {t u : ℕ} (htu : t < u) (h : u < limit) : stampOf t < stampOf u := by
  unfold limit at h
  by_cases hdays : t / 86400 < u / 86400
  · -- on a later day
    have hu := written_of_lt (z := (u / 86400 : ℕ)) (by omega)
    have ht := written_of_lt (z := (t / 86400 : ℕ)) (by omega)
    exact stamp_lt_of_date _ _ _ _ _ _ (ht.dateChars_lt hu (Int.ofNat_lt.mpr hdays))
  · -- later on the same day
    have hday : t / 86400 = u / 86400 := by omega
    have htime : timeChars (t % 86400 / 3600) (t % 86400 % 3600 / 60) (t % 86400 % 60)
        < timeChars (u % 86400 / 3600) (u % 86400 % 3600 / 60) (u % 86400 % 60) :=
      timeChars_lt (by omega) (by omega) (by omega) (by omega)
    unfold stampOf
    rw [hday]
    exact stamp_lt_of_time _ _ _ htime

/-! ## The copies agree -/

/-- The conversions to a date, -/
def civilFromDaysCopies : List (ℤ → Checked (ℤ × ℤ × ℤ)) :=
  [Maintain.civilFromDays, Autonomy.civilFromDays, AnalyzedRejections.civilFromDays,
    Archive.civilFromDays, Types.civilFromDays, History.civilFromDays]

/-- and those to the number of a day. -/
def daysFromCivilCopies : List (ℤ → ℤ → ℤ → Checked ℤ) :=
  [Maintain.daysFromCivil, Autonomy.daysFromCivil, History.daysFromCivil]

/-- All copies have the date of a day. -/
theorem civilFromDaysCopies_ok {days : ℤ} (h : -2 ^ 38 ≤ days ∧ days ≤ 2 ^ 38) :
    ∀ civilFromDays ∈ civilFromDaysCopies,
      civilFromDays days = Except.ok (Civil.fromDays days) := by
  obtain ⟨hmaintain, hautonomy, hrejections, harchive, htypes, hhistory⟩ := civilFromDays_ok h
  simp only [civilFromDaysCopies, List.forall_mem_cons]
  exact ⟨hmaintain, hautonomy, hrejections, harchive, htypes, hhistory,
    List.forall_mem_nil _⟩

/-- All copies have the day of a date. -/
theorem daysFromCivilCopies_ok {y m d : ℤ} (hy : 1970 ≤ y ∧ y ≤ 9999)
    (h : Civil.IsDate y m d) :
    ∀ daysFromCivil ∈ daysFromCivilCopies,
      daysFromCivil y m d = Except.ok (Civil.toDays y m d) := by
  have hmonth := h.month
  have hday := h.day
  have hlength : Civil.daysInMonth y m ≤ 31 := by
    unfold Civil.daysInMonth
    split_ifs <;> decide
  have hsmall : Small y m d := ⟨by omega, by omega, by omega⟩
  simp only [daysFromCivilCopies, List.forall_mem_cons]
  exact ⟨Maintain.daysFromCivil_ok hsmall, Autonomy.daysFromCivil_ok hsmall,
    History.daysFromCivil_ok hsmall (by omega), List.forall_mem_nil _⟩

/-- The days of the years that are written with four digits. -/
theorem toDays_bounds {y m d : ℤ} (hy : 1970 ≤ y ∧ y ≤ 9999) (h : Civil.IsDate y m d) :
    0 ≤ Civil.toDays y m d ∧ Civil.toDays y m d < 2932897 := by
  have hfirst : Civil.toDays 1970 1 1 = 0 := by decide
  have hlast : Civil.toDays 10000 1 1 = 2932897 := by decide
  have hmonth := h.month
  have hday := h.day
  have hbefore := Civil.toDays_lt h (show Civil.IsDate 10000 1 1 from ⟨by decide, by decide⟩)
    (by omega)
  have hafter := Civil.toDays_lt (show Civil.IsDate 1970 1 1 from ⟨by decide, by decide⟩) h
  by_cases heq : y = 1970 ∧ m = 1 ∧ d = 1
  · obtain ⟨rfl, rfl, rfl⟩ := heq
    omega
  · have hlt := hafter (by omega)
    omega

/-- **The copies agree.** Before the year 10000, what the formatters write for a time is
one and the same string, which the readers read as that time, and a later time is a
greater string. The conversions of a day to a date give the same date, and those of a
date to a day give the day back, so they are inverse to each other on the dates of these
years. -/
theorem calendar_agrees :
    (∀ t < limit, ∃ s, Maintain.formatSystemTime t = Except.ok s
      ∧ Autonomy.formatSystemTime t = Except.ok s
      ∧ AnalyzedRejections.nowUtcIso8601 t = Except.ok s
      ∧ Archive.formatUnixSecsIso8601 t = Except.ok s
      ∧ Maintain.parseIsoishUtc s = Except.ok t
      ∧ Autonomy.parseIsoishUtc s = Except.ok (some t))
    ∧ (∀ u < limit, ∀ t < u, ∀ s s', Maintain.formatSystemTime t = Except.ok s →
      Maintain.formatSystemTime u = Except.ok s' → s < s')
    ∧ (∀ days : ℤ, 0 ≤ days → days < 2932897 → ∃ y m d, Civil.IsDate y m d
      ∧ (∀ civilFromDays ∈ civilFromDaysCopies, civilFromDays days = Except.ok (y, m, d))
      ∧ ∀ daysFromCivil ∈ daysFromCivilCopies, daysFromCivil y m d = Except.ok days)
    ∧ ∀ y m d : ℤ, 1970 ≤ y → y ≤ 9999 → Civil.IsDate y m d →
      ∃ days, 0 ≤ days ∧ days < 2932897
      ∧ (∀ daysFromCivil ∈ daysFromCivilCopies, daysFromCivil y m d = Except.ok days)
      ∧ ∀ civilFromDays ∈ civilFromDaysCopies,
        civilFromDays days = Except.ok (y, m, d) := by
  refine ⟨fun t ht => ?_, fun u hu t htu s s' hs hs' => ?_, fun days hlow hhigh => ?_,
    fun y m d hlow hhigh hdate => ?_⟩
  · obtain ⟨hmaintain, hautonomy, hrejections, harchive⟩ := format_eq ht
    obtain ⟨hparse, hparse'⟩ := parse_stampOf ht
    exact ⟨_, hmaintain, hautonomy, hrejections, harchive, hparse, hparse'⟩
  · rw [(format_eq (htu.trans hu)).left] at hs
    rw [(format_eq hu).left] at hs'
    obtain rfl := Except.ok.inj hs
    obtain rfl := Except.ok.inj hs'
    rw [String.lt_iff_toList_lt, String.toList_ofList, String.toList_ofList]
    exact stampOf_lt htu hu
  · have hwritten := written_of_lt ⟨hlow, hhigh⟩
    have hdate := Civil.isDate_fromDays days
    have hyear := hwritten.year
    have hnumber := daysFromCivilCopies_ok (by omega) hdate
    rw [Civil.toDays_fromDays] at hnumber
    exact ⟨_, _, _, hdate, civilFromDaysCopies_ok (by omega), hnumber⟩
  · obtain ⟨hfirst, hlast⟩ := toDays_bounds ⟨hlow, hhigh⟩ hdate
    have hbounds : -2 ^ 38 ≤ Civil.toDays y m d ∧ Civil.toDays y m d ≤ 2 ^ 38 := by omega
    have hcivil := civilFromDaysCopies_ok hbounds
    rw [Civil.fromDays_toDays hdate] at hcivil
    exact ⟨_, hfirst, hlast, daysFromCivilCopies_ok ⟨hlow, hhigh⟩ hdate, hcivil⟩

end Timestamps
