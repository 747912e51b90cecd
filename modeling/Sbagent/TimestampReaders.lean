import Sbagent.Timestamps

/-!
# Timestamps that are read without a panic

The readers of timestamps take texts that people and other tools write. They slice a
text at fixed positions, where a character need not begin, and calculate with the
numbers that they find, which can be too large or, where a number must not be negative,
too small. It is said here for each reader when it panics. The parser of what is given
for the first day to show never does (`not_panics_parseSince`), since it looks at the
bytes before it takes a slice, and the others do for the texts that are not `Readable`.

The seconds of a time are not more than the system's times can hold: both parsers have
them as a 64-bit integer before.
-/

namespace Timestamps

open IntType Decimal Slices

/-! ## The readers of the views of the history -/

/-- The first ten bytes of a text that has as many. -/
def prefixOf (s : String) : Checked (List Char) :=
  if 10 ≤ Text.byteLen s then slice s 0 10 else return s.toList

def History.startedAtDate (startedAt : String) : Checked (List Char) := prefixOf startedAt

def Report.startedAtPrefix (s : String) : Checked (List Char) := prefixOf s

def Maintain.startedAtDate (startedAt : String) : Checked (List Char) := prefixOf startedAt

/-- The day of the week, from Monday on. -/
def weekdayFromSerial (serial : ℤ) : ℤ := (serial % 7 + 3) % 7

/-- The number between two positions of a text, if it is one. -/
def fieldOpt (T : IntType) (s : String) (first last : ℕ) : Checked (Option ℤ) := do
  let cs ← slice s first last
  return (T.parse cs).toOption

def Report.mondayOfIsoWeekContaining (date : String) : Checked (Option String) := do
  if Text.byteLen date < 10 then return none
  match ← fieldOpt i32 date 0 4 with
  | none => return none
  | some y =>
    match ← fieldOpt u32 date 5 7 with
    | none => return none
    | some m =>
      match ← fieldOpt u32 date 8 10 with
      | none => return none
      | some d =>
        let serial ← History.daysFromCivil y m d
        i64.check [serial - weekdayFromSerial serial]
        let monday ← History.civilFromDays (serial - weekdayFromSerial serial)
        return some (String.ofList (renderDate monday))

/-- Whether a byte may be at its place in a date: digits, and dashes between them. -/
def dateByte (b : UInt8) (i : ℕ) : Bool :=
  if i = 4 ∨ i = 7 then b == 45 else decide (48 ≤ b ∧ b ≤ 57)

def isIsoDate (s : String) : Checked Bool := do
  if (asBytes s).length ≠ 10 then return false
  if (asBytes s).zipIdx.all fun p => dateByte p.1 p.2 then
    let month := (← fieldOpt u32 s 5 7).getD 0
    let day := (← fieldOpt u32 s 8 10).getD 0
    return decide ((1 ≤ month ∧ month ≤ 12) ∧ (1 ≤ day ∧ day ≤ 31))
  else return false

def parseIsoWeek (s : String) : Checked (Option (ℤ × ℤ)) := do
  if Text.byteLen s ≠ 8 then return none
  if (asBytes s)[4]? = some 45
      ∧ ((asBytes s)[5]? = some 87 ∨ (asBytes s)[5]? = some 119) then
    match ← fieldOpt i32 s 0 4 with
    | none => return none
    | some year =>
      match ← fieldOpt u32 s 6 8 with
      | none => return none
      | some week => return some (year, week)
  else return none

def isoWeekMonday (year week : ℤ) : Checked String := do
  if year < 1 then
    throw (Stop.failed
      [s!"--since year {year} is before 0001; expected a 4-digit gregorian year"])
  if ¬ (1 ≤ week ∧ week ≤ 53) then
    throw (Stop.failed [s!"--since week {week} out of range; ISO weeks are 01..=53"])
  let jan4Serial ← History.daysFromCivil year 1 4
  let weekday := weekdayFromSerial jan4Serial
  i64.check [jan4Serial - weekday]
  u32.check [week - 1]
  i64.check [(week - 1) * 7, jan4Serial - weekday + (week - 1) * 7]
  let date ← History.civilFromDays (jan4Serial - weekday + (week - 1) * 7)
  return String.ofList (renderDate date)

def parseSince (input : String) : Checked String := do
  match ← parseIsoWeek input with
  | some (y, w) => isoWeekMonday y w
  | none =>
    if ← isIsoDate input then return input
    throw (Stop.failed [s!"`--since {input}` is not a recognized form; expected YYYY-MM-DD "
      ++ "(e.g. 2026-06-01) or YYYY-Www (e.g. 2026-W23)"])

/-! ## Fields that are read one after the other -/

/-- A field of a text is a number. -/
def IsNumber (T : IntType) (s : String) (first last : ℕ) (n : ℤ) : Prop :=
  fieldOpt T s first last = Except.ok (some n)

instance (T : IntType) (s : String) (first last : ℕ) (n : ℤ) :
    Decidable (IsNumber T s first last n) :=
  inferInstanceAs (Decidable (_ = _))

/-- Each field begins and ends where a character does, as long as those before it are
numbers. -/
def Aligned (s : String) : List (IntType × ℕ × ℕ) → Prop
  | [] => True
  | (T, first, last) :: fields => (IsBoundary s first ∧ IsBoundary s last)
      ∧ ∀ n, IsNumber T s first last n → Aligned s fields

section Field

variable {T : IntType} {s : String} {first last : ℕ} {α : Type}

theorem isNumber_iff {cs : List Char} {n : ℤ} (h : slice s first last = Except.ok cs) :
    IsNumber T s first last n ↔ T.parse cs = Except.ok n := by
  unfold IsNumber fieldOpt
  rw [h]
  show (Except.ok (T.parse cs).toOption : Checked (Option ℤ)) = _ ↔ _
  cases T.parse cs with
  | ok m => exact ⟨fun h => by cases h; rfl, fun h => by cases h; rfl⟩
  | error e => exact iff_of_false nofun nofun

theorem not_isNumber {n : ℤ} (h : slice s first last = Except.error Stop.panicked) :
    ¬ IsNumber T s first last n := by
  unfold IsNumber fieldOpt
  rw [h]
  exact nofun

/-- A number that is read from a field is not larger than the field allows. -/
theorem IsNumber.bounds {n : ℤ} (h : IsNumber T s first last n) (hzero : T.Holds 0) :
    T.Holds n ∧ |n| < 10 ^ (last - first) := by
  obtain ⟨cs, hslice⟩ | hslice := slice_cases s first last
  · obtain ⟨hholds, hlt⟩ := parse_bounds ((isNumber_iff hslice).mp h) hzero
    exact ⟨hholds, hlt.trans_le (pow_le_pow_right₀ (by decide) (length_slice hslice))⟩
  · exact absurd h (not_isNumber hslice)

/-- A field panics where its slice does, -/
theorem not_panics_field_bind (hle : first ≤ last) {f : ℤ → Checked α} :
    ¬ Panics (field T s first last >>= f)
      ↔ (IsBoundary s first ∧ IsBoundary s last)
        ∧ ∀ n, IsNumber T s first last n → ¬ Panics (f n) := by
  rw [← not_panics_slice hle]
  obtain ⟨cs, hslice⟩ | hslice := slice_cases s first last
  · simp only [isNumber_iff hslice, hslice, not_panics_ok, not_false_eq_true, true_and]
    cases hparse : T.parse cs with
    | ok m =>
      have hfield : field T s first last = Except.ok m := by
        simp only [field, hslice, bind, Except.bind, hparse]
        rfl
      rw [hfield]
      exact ⟨fun h n hn => Except.ok.inj hn ▸ h, fun h => h m rfl⟩
    | error e =>
      have hfield : field T s first last = Except.error (Stop.failed [e.display]) := by
        simp only [field, hslice, bind, Except.bind, hparse]
        rfl
      rw [hfield]
      exact iff_of_true (not_panics_failed _) nofun
  · unfold field
    rw [hslice]
    exact iff_of_false (not_not_intro rfl) fun h => h.left rfl

/-- so that fields one after the other must be aligned. -/
theorem not_panics_iff_aligned {fields : List (IntType × ℕ × ℕ)} (hle : first ≤ last)
    {f : ℤ → Checked α}
    (hnext : ∀ n, IsNumber T s first last n → (¬ Panics (f n) ↔ Aligned s fields)) :
    ¬ Panics (field T s first last >>= f) ↔ Aligned s ((T, first, last) :: fields) :=
  (not_panics_field_bind hle).trans (and_congr_right fun _ => forall₂_congr hnext)

/-- A field whose errors are dropped panics where its slice does, too. -/
theorem not_panics_fieldOpt_bind (hle : first ≤ last) {f : Option ℤ → Checked α}
    (hnone : ¬ Panics (f none)) {Q : ℤ → Prop}
    (hnext : ∀ n, IsNumber T s first last n → (¬ Panics (f (some n)) ↔ Q n)) :
    ¬ Panics (fieldOpt T s first last >>= f)
      ↔ (IsBoundary s first ∧ IsBoundary s last) ∧ ∀ n, IsNumber T s first last n → Q n := by
  rw [← not_panics_slice hle, ← forall₂_congr hnext]
  obtain ⟨cs, hslice⟩ | hslice := slice_cases s first last
  · simp only [isNumber_iff hslice, hslice, not_panics_ok, not_false_eq_true, true_and]
    unfold fieldOpt
    rw [hslice]
    show ¬ Panics (f (T.parse cs).toOption) ↔ _
    cases T.parse cs with
    | ok m => exact ⟨fun h n hn => Except.ok.inj hn ▸ h, fun h => h m rfl⟩
    | error e => exact iff_of_true hnone nofun
  · unfold fieldOpt
    rw [hslice]
    exact iff_of_false (not_not_intro rfl) fun h => h.left rfl

end Field

/-! ## When a reader panics -/

theorem not_panics_prefixOf {s : String} :
    ¬ Panics (prefixOf s) ↔ (10 ≤ Text.byteLen s → IsBoundary s 10) := by
  unfold prefixOf
  split_ifs with hlength
  · rw [not_panics_slice (Nat.zero_le 10)]
    exact ⟨fun h _ => h.right, fun h => ⟨isBoundary_zero s, h hlength⟩⟩
  · exact iff_of_true (not_panics_ok _) fun h => absurd h hlength

/-- The fields of a timestamp, -/
def stampFields : List (IntType × ℕ × ℕ) :=
  [(i32, 0, 4), (u32, 5, 7), (u32, 8, 10), (u64, 11, 13), (u64, 14, 16), (u64, 17, 19)]

/-- and those of a date. -/
def dateFields : List (IntType × ℕ × ℕ) := [(i32, 0, 4), (u32, 5, 7), (u32, 8, 10)]

/-- The numbers of the fields of a date are small. -/
theorem small_of_isNumber {s : String} {year month day : ℤ} (hy : IsNumber i32 s 0 4 year)
    (hm : IsNumber u32 s 5 7 month) (hd : IsNumber u32 s 8 10 day) :
    Small year month day := by
  obtain ⟨-, hyear⟩ := hy.bounds (by decide)
  obtain ⟨hmonth, hmonth'⟩ := hm.bounds (by decide)
  obtain ⟨hday, hday'⟩ := hd.bounds (by decide)
  rw [holds_u32_iff] at hmonth hday
  rw [abs_lt] at hyear hmonth' hday'
  norm_num at hyear hmonth' hday'
  exact ⟨by omega, by omega, by omega⟩

/-- **The parser of the maintenance runs** panics only where a field is not aligned: its
numbers are too small for an overflow. -/
theorem Maintain.not_panics_parseIsoishUtc {s : String} :
    ¬ Panics (Maintain.parseIsoishUtc s)
      ↔ (19 ≤ Text.byteLen s → Aligned s stampFields) := by
  unfold Maintain.parseIsoishUtc
  by_cases hlength : Text.byteLen s < 19
  · rw [if_pos hlength]
    exact iff_of_true (not_panics_failed _) fun h => absurd hlength (Nat.not_lt_of_le h)
  · rw [if_neg hlength]
    have hle := Nat.le_of_not_lt hlength
    rw [forall_prop_of_true hle]
    refine not_panics_iff_aligned (by decide) fun year hy =>
      not_panics_iff_aligned (by decide) fun month hm =>
      not_panics_iff_aligned (by decide) fun day hd =>
      not_panics_iff_aligned (by decide) fun hour hhour =>
      not_panics_iff_aligned (by decide) fun min hmin =>
      not_panics_iff_aligned (by decide) fun sec hsec => iff_of_true ?_ trivial
    obtain ⟨hhour, hhour'⟩ := hhour.bounds (by decide)
    obtain ⟨hmin, hmin'⟩ := hmin.bounds (by decide)
    obtain ⟨hsec, hsec'⟩ := hsec.bounds (by decide)
    rw [holds_u64_iff] at hhour hmin hsec
    rw [abs_lt] at hhour' hmin' hsec'
    norm_num at hhour' hmin' hsec'
    rw [Maintain.daysFromCivil_ok (small_of_isNumber hy hm hd)]
    show ¬ Panics (u64.check _ >>= _)
    rw [not_panics_check_bind]
    refine ⟨?_, ?_⟩
    · simp only [List.Forall, holds_u64_iff]
      omega
    · dsimp only
      split_ifs
      · exact not_panics_failed _
      · exact not_panics_ok _

/-- The number of a day with small numbers. -/
theorem Small.toDays {year month day : ℤ} (h : Small year month day) :
    -2 ^ 36 ≤ Civil.toDays year month day ∧ Civil.toDays year month day ≤ 2 ^ 36 := by
  obtain ⟨era, yoe, doy, -, -, -, hyoe, hdoy, hera, hdays⟩ := h.parts
  rw [Int.tdiv_eq_ediv_of_nonneg hyoe.left, Int.tdiv_eq_ediv_of_nonneg hyoe.left] at hdays
  omega

theorem weekdayFromSerial_bounds (serial : ℤ) :
    0 ≤ weekdayFromSerial serial ∧ weekdayFromSerial serial < 7 := by
  unfold weekdayFromSerial
  omega

theorem not_panics_civilFromDays {days : ℤ} (h : -2 ^ 38 ≤ days ∧ days ≤ 2 ^ 38) :
    ¬ Panics (History.civilFromDays days) := by
  obtain ⟨-, -, -, -, -, hhistory⟩ := civilFromDays_ok h
  rw [hhistory]
  exact not_panics_ok _

/-- From a date on, the Monday of its week. -/
theorem not_panics_mondayOf {y m d : ℤ} (h : Small y m d) :
    ¬ Panics (do
      let serial ← History.daysFromCivil y m d
      i64.check [serial - weekdayFromSerial serial]
      let monday ← History.civilFromDays (serial - weekdayFromSerial serial)
      return some (String.ofList (renderDate monday))) ↔ ¬ (m = 3 ∧ d = 0) := by
  by_cases hfirst : m = 3 ∧ d = 0
  · obtain ⟨rfl, rfl⟩ := hfirst
    rw [History.daysFromCivil_panicked h.year]
    exact iff_of_false (not_not_intro rfl) (not_not_intro ⟨rfl, rfl⟩)
  · rw [History.daysFromCivil_ok h (by omega)]
    refine iff_of_true ?_ hfirst
    have hdays := h.toDays
    have hweekday := weekdayFromSerial_bounds (Civil.toDays y m d)
    show ¬ Panics (i64.check _ >>= _)
    rw [not_panics_check_bind]
    refine ⟨?_, ?_⟩
    · simp only [List.Forall, holds_i64_iff]
      omega
    · rw [panics_bind]
      rintro (hpanics | ⟨date, -, hpanics⟩)
      · exact not_panics_civilFromDays (by omega) hpanics
      · exact not_panics_ok _ hpanics

/-- **The Monday of a week** is calculated with numbers of which the day must not come
before the first of March. -/
theorem Report.not_panics_mondayOfIsoWeekContaining {date : String} :
    ¬ Panics (Report.mondayOfIsoWeekContaining date)
      ↔ (10 ≤ Text.byteLen date → Aligned date dateFields
        ∧ ∀ year, ¬ (IsNumber i32 date 0 4 year ∧ IsNumber u32 date 5 7 3
          ∧ IsNumber u32 date 8 10 0)) := by
  unfold Report.mondayOfIsoWeekContaining
  by_cases hlength : Text.byteLen date < 10
  · rw [if_pos hlength]
    exact iff_of_true (not_panics_ok _) fun h => absurd hlength (Nat.not_lt_of_le h)
  · rw [if_neg hlength, forall_prop_of_true (Nat.le_of_not_lt hlength)]
    refine Iff.trans (not_panics_fieldOpt_bind (by decide) ?_ fun y hy =>
      not_panics_fieldOpt_bind (by decide) ?_ fun m hm =>
      not_panics_fieldOpt_bind (by decide) ?_ fun d hd =>
      not_panics_mondayOf (small_of_isNumber hy hm hd)) ⟨?_, ?_⟩
    · exact not_panics_ok _
    · exact not_panics_ok _
    · exact not_panics_ok _
    · rintro ⟨hyear, hmonth⟩
      refine ⟨⟨hyear, fun y hy => ⟨(hmonth y hy).left, fun m hm =>
        ⟨((hmonth y hy).right m hm).left, fun _ _ => trivial⟩⟩⟩, ?_⟩
      rintro y ⟨hy, hm, hd⟩
      exact ((hmonth y hy).right 3 hm).right 0 hd ⟨rfl, rfl⟩
    · rintro ⟨⟨hyear, hmonth⟩, hfirst⟩
      refine ⟨hyear, fun y hy => ⟨(hmonth y hy).left, fun m hm =>
        ⟨((hmonth y hy).right m hm).left, fun d hd => ?_⟩⟩⟩
      rintro ⟨rfl, rfl⟩
      exact hfirst y ⟨hy, hm, hd⟩

/-! ## Dates whose numbers are not bounded -/

/-- The days of a year that begins in March before one of its months, when the month need
not be one. -/
def daysBefore (month : ℤ) : ℤ := (153 * Civil.marchMonth month + 2).tdiv 5

/-- The day of the era of a date whose day need not be one. -/
def dayOfEra (year month day : ℤ) : ℤ :=
  Civil.eraStart (Civil.marchYear year month % 400) + daysBefore month + day - 1

/-- The first day of the era of a date. -/
def firstOfEra (year month : ℤ) : ℤ := Civil.marchYear year month / 400 * 146097

/-- The numbers of a date are not so large that one of those that its number is the sum of
is beyond 64 bits. -/
@[mk_iff] structure InRange (year month day : ℤ) : Prop where
  months : -2 ^ 63 ≤ 153 * Civil.marchMonth month ∧ 153 * Civil.marchMonth month + 2 < 2 ^ 63
  days : -2 ^ 63 < daysBefore month + day ∧ daysBefore month + day < 2 ^ 63
  ofEra : dayOfEra year month day < 2 ^ 63
  era : -2 ^ 63 ≤ firstOfEra year month ∧ firstOfEra year month < 2 ^ 63
  number : -2 ^ 63 + 719468 ≤ firstOfEra year month + dayOfEra year month day
    ∧ firstOfEra year month + dayOfEra year month day < 2 ^ 63

/-- **The copy with 64 bits** overflows where a number is beyond these bounds, and
nowhere else. -/
theorem Autonomy.not_panics_daysFromCivil {year month day : ℤ} :
    ¬ Panics (Autonomy.daysFromCivil year month day) ↔ InRange year month day := by
  have hmonth : month + (if 2 < month then -3 else 9) = Civil.marchMonth month := by
    unfold Civil.marchMonth
    split_ifs <;> omega
  have hyear : year - (if month ≤ 2 then 1 else 0) = Civil.marchYear year month := by
    unfold Civil.marchYear
    split_ifs <;> omega
  have hera : (if 0 ≤ Civil.marchYear year month then Civil.marchYear year month
      else Civil.marchYear year month - 399).tdiv 400 = Civil.marchYear year month / 400 :=
    tdiv_moved (n := 400) (by decide)
  have hyoe : Civil.marchYear year month - Civil.marchYear year month / 400 * 400
      = Civil.marchYear year month % 400 := by
    omega
  have hpos := Int.emod_nonneg (Civil.marchYear year month) (show (400 : ℤ) ≠ 0 by decide)
  unfold Autonomy.daysFromCivil
  dsimp only
  rw [hmonth, hyear, hera, hyoe, Int.tdiv_eq_ediv_of_nonneg hpos,
    Int.tdiv_eq_ediv_of_nonneg hpos]
  simp only [not_panics_check_bind, List.Forall, holds_i64_iff]
  rw [inRange_iff]
  unfold dayOfEra firstOfEra daysBefore Civil.eraStart
  generalize (153 * Civil.marchMonth month + 2).tdiv 5 = q
  generalize Civil.marchMonth month = mp
  generalize Civil.marchYear year month = y
  have hok : ¬ Panics (pure (y / 400 * 146097 + (y % 400 * 365 + y % 400 / 4 - y % 400 / 100
      + (q + day - 1)) - 719468) : Checked ℤ) := not_panics_ok _
  simp only [hok, and_true, not_false_eq_true]
  omega

/-- A text has the shape of a timestamp, with the numbers of a date. -/
def IsDated (s : String) (year month day : ℤ) : Prop :=
  ∃ date time, (stripZ s.toList).splitOn 'T' = [date, time]
    ∧ numbers '-' date = some (year, month, day)
    ∧ (numbers ':' ((time.splitOn '.').head?.getD time)).isSome = true

/-- **The parser of the autonomous runs** panics only where the numbers of a date are
beyond their bounds. -/
theorem Autonomy.not_panics_parseIsoishUtc {s : String} :
    ¬ Panics (Autonomy.parseIsoishUtc s)
      ↔ ∀ year month day, IsDated s year month day → InRange year month day := by
  have hrest : ∀ {year month day : ℤ} {time : ℤ × ℤ × ℤ},
      ¬ Panics (do
        let days ← Autonomy.daysFromCivil year month day
        if days < 0 then return none
        return Autonomy.total days time) ↔ InRange year month day := by
    intro year month day time
    rw [← Autonomy.not_panics_daysFromCivil, not_iff_not, panics_bind]
    refine or_iff_left ?_
    rintro ⟨days, -, hpanics⟩
    split_ifs at hpanics <;> exact not_panics_ok _ hpanics
  unfold Autonomy.parseIsoishUtc IsDated
  split
  · rename_i date time hsplit
    split
    · rename_i year month day clock hdate htime
      rw [hrest]
      constructor
      · rintro h y m d ⟨date', time', hsplit', hdate', -⟩
        obtain ⟨rfl, rfl⟩ : date = date' ∧ time = time' := by
          simpa using hsplit.symm.trans hsplit'
        obtain ⟨rfl, rfl, rfl⟩ : year = y ∧ month = m ∧ day = d := by
          simpa using hdate.symm.trans hdate'
        exact h
      · exact fun h => h _ _ _ ⟨date, time, hsplit, hdate, by rw [htime]; rfl⟩
    · rename_i hnot
      refine iff_of_true (not_panics_ok _) ?_
      rintro y m d ⟨date', time', hsplit', hdate', htime'⟩
      obtain ⟨rfl, rfl⟩ : date = date' ∧ time = time' := by
        simpa using hsplit.symm.trans hsplit'
      obtain ⟨clock, hclock⟩ := Option.isSome_iff_exists.mp htime'
      exact absurd hclock (hnot y m d clock hdate')
  · rename_i hnot
    refine iff_of_true (not_panics_ok _) ?_
    rintro y m d ⟨date', time', hsplit', -, -⟩
    exact absurd hsplit' (hnot date' time')

/-! ## What is given for the first day to show -/

theorem not_panics_isoWeekMonday {year week : ℤ} (hyear : year < 10 ^ 4) :
    ¬ Panics (isoWeekMonday year week) := by
  unfold isoWeekMonday
  by_cases hearly : year < 1
  · rw [if_pos hearly]
    exact not_panics_failed _
  by_cases hweek : 1 ≤ week ∧ week ≤ 53
  · rw [if_neg hearly, if_neg (not_not_intro hweek)]
    have hsmall : Small year 1 4 := ⟨by omega, by decide, by decide⟩
    have hdays := hsmall.toDays
    have hweekday := weekdayFromSerial_bounds (Civil.toDays year 1 4)
    rw [History.daysFromCivil_ok hsmall (by decide)]
    show ¬ Panics (i64.check _ >>= _)
    simp only [not_panics_check_bind, List.Forall, holds_i64_iff, holds_u32_iff]
    refine ⟨by omega, by omega, by omega, ?_⟩
    rw [panics_bind]
    rintro (hpanics | ⟨date, -, hpanics⟩)
    · exact not_panics_civilFromDays (by omega) hpanics
    · exact not_panics_ok _ hpanics
  · rw [if_neg hearly, if_pos hweek]
    exact not_panics_failed _

theorem ascii_of_dateByte : ∀ (b : UInt8) (i : ℕ), dateByte b i = true → b &&& 128 = 0 := by
  have hdigit : ∀ b : UInt8, 48 ≤ b ∧ b ≤ 57 → b &&& 128 = 0 := by decide +kernel
  intro b i h
  unfold dateByte at h
  split_ifs at h
  · obtain rfl := eq_of_beq h
    rfl
  · exact hdigit b (of_decide_eq_true h)

theorem exists_fieldOpt {T : IntType} {s : String} {first last : ℕ} (hle : first ≤ last)
    (hfirst : IsBoundary s first) (hlast : IsBoundary s last) :
    ∃ n, fieldOpt T s first last = Except.ok n := by
  obtain ⟨cs, hslice⟩ | hslice := slice_cases s first last
  · unfold fieldOpt
    rw [hslice]
    exact ⟨_, rfl⟩
  · exact absurd hslice ((not_panics_slice hle).mpr ⟨hfirst, hlast⟩)

/-- Where a text has the bytes of a date, each of them is a character. -/
theorem not_panics_isIsoDate (s : String) : ¬ Panics (isIsoDate s) := by
  unfold isIsoDate
  by_cases hlength : (asBytes s).length = 10
  · rw [if_neg (not_not_intro hlength)]
    split_ifs with hall
    · have hboundary : ∀ n < 10, IsBoundary s n ∧ IsBoundary s (n + 1) := by
        intro n hn
        have hlt : n < (asBytes s).length := by omega
        have hbyte := List.all_eq_true.mp hall ((asBytes s)[n], n)
          (List.mk_mem_zipIdx_iff_getElem?.mpr (List.getElem?_eq_getElem hlt))
        exact isBoundary_of_ascii (List.getElem?_eq_getElem hlt) (ascii_of_dateByte _ _ hbyte)
      obtain ⟨month, hmonth⟩ := exists_fieldOpt (T := u32) (show 5 ≤ 7 by decide)
        (hboundary 5 (by decide)).left (hboundary 7 (by decide)).left
      obtain ⟨day, hday⟩ := exists_fieldOpt (T := u32) (show 8 ≤ 10 by decide)
        (hboundary 8 (by decide)).left (hboundary 9 (by decide)).right
      rw [hmonth, hday]
      exact not_panics_ok _
    · exact not_panics_ok _
  · rw [if_pos hlength]
    exact not_panics_ok _

/-- Around the `-W` of a week there are boundaries, and its year has four digits. -/
theorem not_panics_parseIsoWeek (s : String) :
    ¬ Panics (parseIsoWeek s)
      ∧ ∀ year week, parseIsoWeek s = Except.ok (some (year, week)) → year < 10 ^ 4 := by
  unfold parseIsoWeek
  by_cases hlength : Text.byteLen s = 8
  · rw [if_neg (not_not_intro hlength)]
    split_ifs with hbytes
    · have hdash := (isBoundary_of_ascii hbytes.left rfl).left
      have hletter : IsBoundary s 6 := by
        obtain hupper | hlower := hbytes.right
        · exact (isBoundary_of_ascii hupper rfl).right
        · exact (isBoundary_of_ascii hlower rfl).right
      have hend : IsBoundary s 8 := hlength ▸ isBoundary_byteLen s
      obtain ⟨year, hyear⟩ := exists_fieldOpt (T := i32) (Nat.zero_le 4) (isBoundary_zero s) hdash
      obtain ⟨week, hweek⟩ := exists_fieldOpt (T := u32) (show 6 ≤ 8 by decide) hletter hend
      cases year with
      | none =>
        rw [hyear]
        exact ⟨not_panics_ok _, fun _ _ h => by cases h⟩
      | some year =>
        have hlt := (IsNumber.bounds hyear (by decide)).right
        rw [hyear]
        cases week with
        | none =>
          show ¬ Panics (fieldOpt u32 s 6 8 >>= _) ∧ ∀ y w, (fieldOpt u32 s 6 8 >>= _) = _ → _
          rw [hweek]
          exact ⟨not_panics_ok _, fun _ _ h => by cases h⟩
        | some week =>
          show ¬ Panics (fieldOpt u32 s 6 8 >>= _) ∧ ∀ y w, (fieldOpt u32 s 6 8 >>= _) = _ → _
          rw [hweek]
          refine ⟨not_panics_ok _, fun y w h => ?_⟩
          obtain rfl : year = y := (Prod.mk.inj (Option.some.inj (Except.ok.inj h))).left
          exact (le_abs_self year).trans_lt hlt
    · exact ⟨not_panics_ok _, fun _ _ h => by cases h⟩
  · rw [if_pos hlength]
    exact ⟨not_panics_ok _, fun _ _ h => by cases h⟩

/-- **What is given for the first day** is read without a panic. -/
theorem not_panics_parseSince (input : String) : ¬ Panics (parseSince input) := by
  obtain ⟨hweek, hyear⟩ := not_panics_parseIsoWeek input
  unfold parseSince
  rw [panics_bind]
  rintro (hpanics | ⟨week, hread, hpanics⟩)
  · exact hweek hpanics
  · cases week with
    | some week => exact not_panics_isoWeekMonday (hyear _ _ hread) hpanics
    | none =>
      rw [panics_bind] at hpanics
      obtain hpanics | ⟨isDate, -, hpanics⟩ := hpanics
      · exact not_panics_isIsoDate input hpanics
      · split_ifs at hpanics
        · exact not_panics_ok _ hpanics
        · exact not_panics_failed _ hpanics

/-! ## All readers -/

/-- All readers of timestamps return for a text. -/
structure Returns (s : String) : Prop where
  listed : ¬ Panics (History.startedAtDate s)
  reported : ¬ Panics (Report.startedAtPrefix s)
  maintained : ¬ Panics (Maintain.startedAtDate s)
  monday : ¬ Panics (Report.mondayOfIsoWeekContaining s)
  since : ¬ Panics (parseSince s)
  updated : ¬ Panics (Maintain.parseIsoishUtc s)
  observed : ¬ Panics (Autonomy.parseIsoishUtc s)

/-- A text that none of the readers panics on: the positions at which it is sliced are
between characters, and the numbers in it are those of a date that is not too far away. -/
structure Readable (s : String) : Prop where
  prefixOf : 10 ≤ Text.byteLen s → IsBoundary s 10
  date : 10 ≤ Text.byteLen s → Aligned s dateFields
  march : 10 ≤ Text.byteLen s → ∀ year, ¬ (IsNumber i32 s 0 4 year ∧ IsNumber u32 s 5 7 3
    ∧ IsNumber u32 s 8 10 0)
  stamp : 19 ≤ Text.byteLen s → Aligned s stampFields
  range : ∀ year month day, IsDated s year month day → InRange year month day

/-- **The readers return** exactly for the texts that are readable. -/
theorem returns_iff (s : String) : Returns s ↔ Readable s := by
  constructor
  · intro h
    have hmonday := Report.not_panics_mondayOfIsoWeekContaining.mp h.monday
    exact {
      prefixOf := not_panics_prefixOf.mp h.listed
      date := fun hlength => (hmonday hlength).left
      march := fun hlength => (hmonday hlength).right
      stamp := Maintain.not_panics_parseIsoishUtc.mp h.updated
      range := Autonomy.not_panics_parseIsoishUtc.mp h.observed }
  · intro h
    have hprefix := not_panics_prefixOf.mpr h.prefixOf
    exact {
      listed := hprefix
      reported := hprefix
      maintained := hprefix
      monday := Report.not_panics_mondayOfIsoWeekContaining.mpr fun hlength =>
        ⟨h.date hlength, h.march hlength⟩
      since := not_panics_parseSince s
      updated := Maintain.not_panics_parseIsoishUtc.mpr h.stamp
      observed := Autonomy.not_panics_parseIsoishUtc.mpr h.range }

/-- The tenth byte of this text is within its last character. -/
theorem not_returns_of_two_bytes : ¬ ∀ s, Returns s := by
  intro h
  have hlength : 10 ≤ Text.byteLen "2026-06-0é" := by decide
  have hboundary := not_panics_prefixOf.mp (h "2026-06-0é").listed hlength
  exact absurd hboundary (by decide)

/-- A date that begins no week. -/
example : Panics (Report.mondayOfIsoWeekContaining "2026-03-00") := by
  rw [← not_not (a := Panics _), Report.not_panics_mondayOfIsoWeekContaining]
  exact fun h => (h (by decide)).right 2026 (by decide)

end Timestamps
