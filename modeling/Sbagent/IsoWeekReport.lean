import Sbagent.IsoWeek
import Sbagent.Ledger
import Sbagent.TimestampReaders

/-!
# Weeks in the views of the history

The views of the history can be limited to what began on or after a day. The day is given
as a date or as a week, and where it is not given, it is the Monday of the week of the
latest session. So there are two ways to a Monday: from the number of a week, counting off
from 4 January, and from a date, going back to the day before. They lead to the same day
(`mondays_agree`).

The number of a week is not checked against the year. A year that has no week 53 is taken
to have one, and it is the first of the next year (`isoWeekMonday_next`).
-/

namespace Timestamps

open IntType Decimal Slices

/-! ## From a week to its Monday -/

theorem History.daysFromCivil_jan4 {year : ℤ} (h : 1 ≤ year ∧ year < 2 ^ 31) :
    History.daysFromCivil year 1 4 = Except.ok (Civil.toDays year 1 4) := by
  have hera : (year - 1).tdiv 400 = (year - 1) / 400 :=
    Int.tdiv_eq_ediv_of_nonneg (by omega)
  have hyoe : u64.cast (year - 1 - (year - 1) / 400 * 400)
      = (year - 1) % 400 := by
    rw [cast_of_holds (holds_u64_iff.mpr (by omega))]
    omega
  have hyoe' : 0 ≤ (year - 1) % 400 ∧ (year - 1) % 400 < 400 := by omega
  have hdays : Civil.toDays year 1 4 = (year - 1) / 400 * 146097
      + ((year - 1) % 400 * 365 + (year - 1) % 400 / 4 - (year - 1) % 400 / 100 + 309)
      - 719468 := by
    rw [Civil.toDays_eq]
    unfold Civil.eraStart Civil.marchYear Civil.marchMonth Civil.monthStart
    simp only [show (1 : ℤ) ≤ 2 by decide, show ¬ (2 : ℤ) < 1 by decide, if_true, if_false]
    omega
  have hdoe : i64.cast ((year - 1) % 400 * 365 + (year - 1) % 400 / 4
      - (year - 1) % 400 / 100 + 309)
      = (year - 1) % 400 * 365 + (year - 1) % 400 / 4 - (year - 1) % 400 / 100 + 309 :=
    cast_of_holds (holds_i64_iff.mpr (by omega))
  have hmonths : (153 * ((1 : ℤ) + 9) + 2).tdiv 5 = 306 := by decide
  unfold History.daysFromCivil
  simp only [show (1 : ℤ) ≤ 2 by decide, show ¬ (2 : ℤ) < 1 by decide, if_true, if_false,
    if_pos (show 0 ≤ year - 1 by omega), hera, hyoe,
    hmonths, show (306 : ℤ) + 4 - 1 = 309 by decide,
    Int.tdiv_eq_ediv_of_nonneg hyoe'.left, hdoe]
  rw [check_bind, check_bind, check_bind, check_bind, check_bind, check_bind, hdays]
  · rfl
  all_goals
    simp only [List.Forall, holds_i32_iff, holds_i64_iff, holds_u64_iff]
    omega

/-- The days of the years that a number of 32 bits can be. -/
theorem newYear_bounds {y : ℤ} (h : 0 ≤ y ∧ y ≤ 2 ^ 31) :
    -2 ^ 40 ≤ Civil.newYear y ∧ Civil.newYear y ≤ 2 ^ 40 := by
  unfold Civil.newYear Civil.toDays Civil.yearStart Civil.marchYear Civil.marchMonth
    Civil.monthStart
  simp only [show (1 : ℤ) ≤ 2 by decide, show ¬ (2 : ℤ) < 1 by decide, if_true, if_false]
  omega

theorem weekMonday_bounds {y w : ℤ} (hy : 1 ≤ y ∧ y < 2 ^ 31) (hw : 1 ≤ w ∧ w ≤ 53) :
    -2 ^ 41 ≤ Civil.weekMonday y w ∧ Civil.weekMonday y w ≤ 2 ^ 41 := by
  have hyear := newYear_bounds (y := y) (by omega)
  unfold Civil.weekMonday Civil.mondayOf Civil.weekday
  rw [Civil.toDays_jan4]
  omega

/-- The Monday of a week is counted off from 4 January, whether the year has the week or
not. -/
theorem isoWeekMonday_eq {y w : ℤ} (hy : 1 ≤ y ∧ y < 2 ^ 31) (hw : 1 ≤ w ∧ w ≤ 53) :
    isoWeekMonday y w = Except.ok (String.ofList
      (renderDate (castDate (Civil.fromDays (Civil.weekMonday y w))))) := by
  have hbounds := weekMonday_bounds hy hw
  have hyear := newYear_bounds (y := y) (by omega)
  have hmonday : Civil.toDays y 1 4 - weekdayFromSerial (Civil.toDays y 1 4) + (w - 1) * 7
      = Civil.weekMonday y w := by
    unfold Civil.weekMonday Civil.mondayOf Civil.weekday weekdayFromSerial
    omega
  have hweekday := weekdayFromSerial_bounds (Civil.toDays y 1 4)
  have hjan4 := Civil.toDays_jan4 y
  have hdate : History.civilFromDays (Civil.weekMonday y w)
      = Except.ok (castDate (Civil.fromDays (Civil.weekMonday y w))) := by
    unfold History.civilFromDays
    rw [civilParts_ok (T := u64) ⟨by decide, by decide⟩ (by omega)]
    rfl
  unfold isoWeekMonday
  rw [if_neg (by omega), if_neg (not_not_intro hw)]
  show (History.daysFromCivil y 1 4 >>= _) = _
  rw [History.daysFromCivil_jan4 hy]
  show (i64.check _ >>= fun _ => u32.check _ >>= fun _ => i64.check _ >>= _) = _
  rw [hmonday, check_bind, check_bind, check_bind, hdate]
  · rfl
  all_goals
    simp only [List.Forall, holds_i64_iff, holds_u32_iff]
    omega

/-- A day as it is written. -/
def dateText (z : ℤ) : String := String.ofList (renderDate (Civil.fromDays z))

theorem castDate_of_year {z : ℤ} (h : i32.Holds (Civil.fromDays z).1) :
    castDate (Civil.fromDays z) = Civil.fromDays z := by
  have hdate := Civil.isDate_fromDays z
  have hmonth := hdate.month
  have hday := hdate.day
  have hlength : Civil.daysInMonth (Civil.fromDays z).1 (Civil.fromDays z).2.1 ≤ 31 := by
    unfold Civil.daysInMonth
    split_ifs <;> decide
  unfold castDate
  rw [cast_of_holds h, cast_of_holds (holds_u32_iff.mpr (by omega)),
    cast_of_holds (holds_u32_iff.mpr (by omega))]

/-- **What is taken for a week**: a number from 1 to 53, in a year from 1 on. -/
theorem isoWeekMonday_ok_iff {y w : ℤ} (hy : y < 2 ^ 31) :
    (∃ s, isoWeekMonday y w = Except.ok s) ↔ 1 ≤ y ∧ 1 ≤ w ∧ w ≤ 53 := by
  constructor
  · rintro ⟨s, hs⟩
    unfold isoWeekMonday at hs
    have hyear : ¬ y < 1 := fun hlt => by
      rw [if_pos hlt] at hs
      cases hs
    refine ⟨not_lt.mp hyear, ?_⟩
    by_contra hweek
    rw [if_neg hyear, if_pos hweek] at hs
    cases hs
  · rintro ⟨hyear, hweek⟩
    exact ⟨_, isoWeekMonday_eq ⟨hyear, hy⟩ hweek⟩

/-- **A week of a year has its Monday.** -/
theorem isoWeekMonday_of_isIsoWeek {y w z : ℤ} (hy : 1 ≤ y ∧ y < 2 ^ 31)
    (h : Civil.IsIsoWeek y w z) : isoWeekMonday y w = Except.ok (dateText z) := by
  have hyear := h.year_le
  rw [isoWeekMonday_eq hy h.bounds, ← h.eq_weekMonday,
    castDate_of_year (holds_i32_iff.mpr (by omega)), dateText]

/-- **A week 53 that a year does not have is the first of the next.** -/
theorem isoWeekMonday_next {y z : ℤ} (hy : 1 ≤ y ∧ y + 1 < 2 ^ 31)
    (h : ¬ Civil.HasWeek y 53) (hz : Civil.IsIsoWeek (y + 1) 1 z) :
    isoWeekMonday y 53 = Except.ok (dateText z) := by
  have hyear := hz.year_le
  have hnext := Civil.isIsoWeek_next h
  rw [isoWeekMonday_eq (by omega) (by decide), ← hz.unique hnext,
    castDate_of_year (holds_i32_iff.mpr (by omega)), dateText]

/-! ## From a date to the Monday of its week -/

/-- The numbers of a date that is written with four digits for the year. -/
structure FourDigits (z : ℤ) (y m d : ℕ) : Prop where
  date : Civil.fromDays z = ((y : ℤ), (m : ℤ), (d : ℤ))
  year : y < 10 ^ 4
  month : 1 ≤ m ∧ m ≤ 12
  day : 1 ≤ d ∧ d ≤ 31

theorem fourDigits_of_year {z : ℤ} (h : 0 ≤ (Civil.fromDays z).1 ∧ (Civil.fromDays z).1 ≤ 9999) :
    FourDigits z (Civil.fromDays z).1.toNat (Civil.fromDays z).2.1.toNat
      (Civil.fromDays z).2.2.toNat := by
  have hdate := Civil.isDate_fromDays z
  have hmonth := hdate.month
  have hday := hdate.day
  have hlength : Civil.daysInMonth (Civil.fromDays z).1 (Civil.fromDays z).2.1 ≤ 31 := by
    unfold Civil.daysInMonth
    split_ifs <;> decide
  refine ⟨?_, by omega, by omega, by omega⟩
  rw [Int.toNat_of_nonneg (by omega), Int.toNat_of_nonneg (by omega),
    Int.toNat_of_nonneg (by omega)]

section Dates

variable {y m d : ℕ} {z : ℤ}

theorem FourDigits.dateText_eq (h : FourDigits z y m d) :
    dateText z = String.ofList (dateChars y m d) := by
  unfold dateText renderDate dateChars
  rw [h.date]
  dsimp only
  rw [padded_eq_fixed (by decide) h.year,
    padded_eq_fixed (by decide) (lt_of_le_of_lt h.month.right (by decide)),
    padded_eq_fixed (by decide) (lt_of_le_of_lt h.day.right (by decide))]

theorem utf8Size_dateChars : ∀ c ∈ dateChars y m d, c.utf8Size = 1 := by
  intro c hc
  obtain hdigit | rfl := mem_dateChars hc
  · exact utf8Size_of_isAsciiDigit hdigit
  · rfl

/-- A field of a date is read as the number that was written there. -/
theorem fieldOpt_dateChars {T : IntType} {first last w n : ℕ}
    (hfixed : ((dateChars y m d).drop first).take (last - first) = fixed w n)
    (hlast : last ≤ 10) (hle : first ≤ last) (hw : 0 < w) (hn : n < 10 ^ w)
    (hleast : T.least ≤ 0) (hgreatest : 10 ^ w ≤ T.greatest) :
    fieldOpt T (String.ofList (dateChars y m d)) first last = Except.ok (some (n : ℤ)) := by
  unfold fieldOpt
  rw [slice_of_single utf8Size_dateChars (by rwa [length_dateChars]) hle, hfixed]
  show Except.ok (T.parse (fixed w n)).toOption = _
  rw [parse_fixed hw hleast hgreatest hn]
  rfl

/-- **The Monday of a date is the one on or before it.** -/
theorem FourDigits.mondayOf (h : FourDigits z y m d) :
    Report.mondayOfIsoWeekContaining (dateText z)
      = Except.ok (some (dateText (Civil.mondayOf z))) := by
  have hyear := h.year
  have hmonth := h.month
  have hday := h.day
  have hlength : Text.byteLen (String.ofList (dateChars y m d)) = 10 := by
    rw [byteLen_of_single utf8Size_dateChars, length_dateChars]
  have hsmall : Small y m d := ⟨by omega, by omega, by omega⟩
  have hdays : Civil.toDays y m d = z := by
    have hz := Civil.toDays_fromDays z
    rwa [h.date] at hz
  have hbounds := hsmall.toDays
  rw [hdays] at hbounds
  have hmonday : z - weekdayFromSerial z = Civil.mondayOf z := by
    unfold Civil.mondayOf Civil.weekday weekdayFromSerial
    omega
  have hbefore := Civil.mondayOf_bounds z
  obtain ⟨-, -, -, -, -, hcivil⟩ := @civilFromDays_ok (Civil.mondayOf z) (by omega)
  unfold Report.mondayOfIsoWeekContaining
  rw [h.dateText_eq, hlength, if_neg (by decide),
    fieldOpt_dateChars (w := 4) (n := y) rfl (by decide) (by decide) (by decide) hyear
      (by decide) (by decide),
    fieldOpt_dateChars (w := 2) (n := m) rfl (by decide) (by decide) (by decide) (by omega)
      (by decide) (by decide),
    fieldOpt_dateChars (w := 2) (n := d) rfl (by decide) (by decide) (by decide) (by omega)
      (by decide) (by decide)]
  show (History.daysFromCivil y m d >>= _) = _
  rw [History.daysFromCivil_ok hsmall (by omega), hdays]
  show (i64.check _ >>= _) = _
  rw [check_bind]
  · rw [hmonday, hcivil]
    rfl
  · simp only [List.Forall, holds_i64_iff]
    omega

end Dates

/-- The year of a week is not before the first one, if the day is not. -/
theorem isoYear_bounds {z : ℤ} (h : 1 ≤ (Civil.fromDays z).1 ∧ (Civil.fromDays z).1 ≤ 9999) :
    1 ≤ Civil.isoYear z ∧ Civil.isoYear z < 2 ^ 31 := by
  have hyear := Civil.newYear_fromDays z
  have hfirst := Civil.newYear_mono h.left
  have hlast := Civil.newYear_mono (show (Civil.fromDays z).1 + 1 ≤ 10000 by omega)
  -- the first of January of the year 1 is a Monday
  have hone : Civil.newYear 1 = -719162 := by decide +kernel
  have hnext : Civil.newYear 10000 + 365 ≤ Civil.newYear 10001 :=
    (Civil.newYear_lt 10000).left
  have hiso := Civil.newYear_fromDays (Civil.mondayOf z + 3)
  have hmonday : Civil.newYear 1 ≤ Civil.mondayOf z ∧ Civil.mondayOf z ≤ z := by
    rw [hone] at hfirst ⊢
    unfold Civil.mondayOf Civil.weekday
    omega
  unfold Civil.isoYear
  constructor
  · by_contra hnot
    have hle := Civil.newYear_mono
      (show (Civil.fromDays (Civil.mondayOf z + 3)).1 + 1 ≤ 1 by omega)
    omega
  · by_contra hnot
    have hle := Civil.newYear_mono
      (show 10001 ≤ (Civil.fromDays (Civil.mondayOf z + 3)).1 by omega)
    omega

/-- **Both ways lead to the same Monday.** -/
theorem mondays_agree {z : ℤ}
    (h : 1 ≤ (Civil.fromDays z).1 ∧ (Civil.fromDays z).1 ≤ 9999) :
    Report.mondayOfIsoWeekContaining (dateText z)
        = Except.ok (some (dateText (Civil.mondayOf z)))
      ∧ isoWeekMonday (Civil.isoYear z) (Civil.isoWeek z)
        = Except.ok (dateText (Civil.mondayOf z)) :=
  ⟨(fourDigits_of_year (by omega)).mondayOf,
    isoWeekMonday_of_isIsoWeek (isoYear_bounds h) (Civil.isIsoWeek_of_day z)⟩

/-! ## Texts of weeks -/

/-- A text has no sign where a number could have one. -/
def Unsigned (s : String) : Prop := '+' ∉ s.toList ∧ s.toList.head? ≠ some '-'

/-- Four digits, a dash, a `W` of either case, and two digits. -/
def IsWeekText (s : String) (year week : ℤ) : Prop :=
  ∃ y w : ℕ, ∃ c : Char, (year = y ∧ week = w) ∧ (y < 10 ^ 4 ∧ w < 10 ^ 2)
    ∧ (c = 'W' ∨ c = 'w') ∧ s.toList = fixed 4 y ++ '-' :: c :: fixed 2 w

section WeekTexts

variable {T : IntType} {cs ds : List Char} {n : ℤ} {s : String} {first last : ℕ}

theorem digitsFrom_of_append {m : ℤ} (h : T.digitsFrom false m (cs ++ ds) = Except.ok n) :
    ∃ k, T.digitsFrom false m cs = Except.ok k ∧ T.digitsFrom false k ds = Except.ok n := by
  induction cs generalizing m with
  | nil => exact ⟨m, rfl, h⟩
  | cons c cs ih =>
    rw [List.cons_append, digitsFrom_cons] at h
    rw [digitsFrom_cons]
    simp only [Bool.false_eq_true, if_false] at h ⊢
    split_ifs at h ⊢
    exact ih h

/-- **Digits are written as they were read.** -/
theorem eq_fixed_of_digitsFrom (h : T.digitsFrom false 0 cs = Except.ok n) :
    0 ≤ n ∧ n < 10 ^ cs.length ∧ cs = fixed cs.length n.toNat := by
  induction cs using List.reverseRecOn generalizing n with
  | nil =>
    obtain rfl := Except.ok.inj h
    exact ⟨le_refl 0, by norm_num, rfl⟩
  | append_singleton cs c ih =>
    obtain ⟨k, hk, hc⟩ := digitsFrom_of_append h
    obtain ⟨hpos, hlt, hcs⟩ := ih hk
    rw [digitsFrom_cons] at hc
    simp only [Bool.false_eq_true, if_false] at hc
    split_ifs at hc with hdigit hholds
    · obtain rfl : k * 10 + digitValue c = n := Except.ok.inj hc
      obtain ⟨hlow, hhigh⟩ := digitValue_bounds hdigit
      have hvalue : ((k * 10 + digitValue c).toNat % 10).digitChar = c := by
        have hmod : (k * 10 + digitValue c).toNat % 10 = (digitValue c).toNat := by omega
        have hchar : c.toNat = 48 + (digitValue c).toNat := by
          unfold digitValue at hlow ⊢
          omega
        rw [hmod]
        refine Char.toNat_inj.mp ?_
        rw [digitChar_toNat (by omega), hchar]
      have hdiv : (k * 10 + digitValue c).toNat / 10 = k.toNat := by omega
      refine ⟨by omega, ?_, ?_⟩
      · rw [List.length_append, List.length_singleton, pow_succ]
        omega
      · rw [List.length_append, List.length_singleton, fixed, hvalue, hdiv, ← hcs]

/-- Without a sign a number is its digits. -/
theorem digitsFrom_of_parse (hplus : '+' ∉ cs) (hminus : T.least < 0 → cs.head? ≠ some '-')
    (h : T.parse cs = Except.ok n) : T.digitsFrom false 0 cs = Except.ok n := by
  unfold IntType.parse at h
  split at h
  · cases h
  · split_ifs at h with hsign
    exact h
  · exact absurd List.mem_cons_self hplus
  · split_ifs at h with hleast
    · exact absurd rfl (hminus hleast)
    · exact h
  · exact h

/-- Bytes that are taken are those of a beginning of the text. -/
theorem exists_of_takeBytes {k : ℕ} {part : List Char} (h : takeBytes k cs = some part) :
    ∃ rest, cs = part ++ rest ∧ String.utf8Len part = k := by
  fun_induction takeBytes k cs generalizing part with
  | case1 cs =>
    obtain rfl := Option.some.inj h
    exact ⟨cs, rfl, rfl⟩
  | case2 => cases h
  | case3 k c cs hle ih =>
    obtain ⟨part', hpart, rfl⟩ := Option.map_eq_some_iff.mp h
    obtain ⟨rest, rfl, hlen⟩ := ih hpart
    refine ⟨rest, rfl, ?_⟩
    rw [String.utf8Len_cons, hlen]
    omega
  | case4 => cases h

theorem utf8Len_of_single (h : ∀ c ∈ cs, c.utf8Size = 1) : String.utf8Len cs = cs.length := by
  induction cs with
  | nil => rfl
  | cons c cs ih =>
    rw [String.utf8Len_cons, h c List.mem_cons_self,
      ih fun d hd => h d (List.mem_cons_of_mem c hd), List.length_cons]

/-- Bytes that are skipped are those of a beginning of the text, too. -/
theorem dropBytes_append (cs ds : List Char) :
    dropBytes (String.utf8Len cs) (cs ++ ds) = some ds := by
  induction cs with
  | nil =>
    rw [List.nil_append]
    cases ds <;> rfl
  | cons c cs ih =>
    rw [String.utf8Len_cons, Nat.add_comm, List.cons_append,
      dropBytes_add (dropBytes_utf8Size c (cs ++ ds)), ih]

/-- A byte below 128 is a character. -/
theorem eq_of_byte {c d : Char} {b : UInt8} (cs : List Char)
    (h : ((c :: cs).flatMap String.utf8EncodeChar)[0]? = some b) (hb : b &&& 128 = 0)
    (hd : d.utf8Size = 1) (hdb : d.val.toUInt8 = b) : c = d := by
  have hpos : 0 < (String.utf8EncodeChar c).length := by
    rw [String.length_utf8EncodeChar]
    exact c.utf8Size_pos
  rw [List.flatMap_cons, List.getElem?_append_left hpos] at h
  have hc := utf8Size_of_ascii h hb
  rw [String.utf8EncodeChar_eq_singleton hc] at h
  have hbyte : c.val.toUInt8 = d.val.toUInt8 := (Option.some.inj h).trans hdb.symm
  have hc' : c.val.toNat ≤ 127 := UInt32.le_iff_toNat_le.mp (Char.utf8Size_eq_one_iff.mp hc)
  have hd' : d.val.toNat ≤ 127 := UInt32.le_iff_toNat_le.mp (Char.utf8Size_eq_one_iff.mp hd)
  have hmod := congrArg UInt8.toNat hbyte
  rw [UInt32.toNat_toUInt8, UInt32.toNat_toUInt8] at hmod
  exact Char.ext (UInt32.toNat_inj.mp (by omega))

theorem utf8Size_fixed (w k : ℕ) : ∀ c ∈ fixed w k, c.utf8Size = 1 := fun _ hc =>
  utf8Size_of_isAsciiDigit (isAsciiDigit_of_mem_fixed hc)

/-- A text of that form is read as its numbers. -/
theorem parseIsoWeek_of_isWeekText {year week : ℤ} (h : IsWeekText s year week) :
    parseIsoWeek s = Except.ok (some (year, week)) := by
  obtain ⟨y, w, c, ⟨rfl, rfl⟩, ⟨hy, hw⟩, hc, hs⟩ := h
  obtain rfl : s = String.ofList (fixed 4 y ++ '-' :: c :: fixed 2 w) := by
    rw [← hs, String.ofList_toList]
  -- all characters are single bytes, so the slices are where they are expected
  have hsingle : ∀ d ∈ fixed 4 y ++ '-' :: c :: fixed 2 w, d.utf8Size = 1 := by
    intro d hd
    simp only [List.mem_append, List.mem_cons] at hd
    obtain hd | rfl | rfl | hd := hd
    · exact utf8Size_fixed 4 y d hd
    · rfl
    · obtain rfl | rfl := hc <;> rfl
    · exact utf8Size_fixed 2 w d hd
  have hlength : Text.byteLen (String.ofList (fixed 4 y ++ '-' :: c :: fixed 2 w)) = 8 := by
    rw [byteLen_of_single hsingle]
    rfl
  have hbytes : (asBytes (String.ofList (fixed 4 y ++ '-' :: c :: fixed 2 w)))[4]? = some 45
      ∧ ((asBytes (String.ofList (fixed 4 y ++ '-' :: c :: fixed 2 w)))[5]? = some 87
        ∨ (asBytes (String.ofList (fixed 4 y ++ '-' :: c :: fixed 2 w)))[5]? = some 119) := by
    have hdigits : ((fixed 4 y).flatMap String.utf8EncodeChar).length = 4 := by
      have hlen := length_asBytes (String.ofList (fixed 4 y))
      rwa [byteLen_of_single (utf8Size_fixed 4 y), asBytes, String.toList_ofList] at hlen
    unfold asBytes
    rw [String.toList_ofList, List.flatMap_append,
      List.getElem?_append_right (by omega), List.getElem?_append_right (by omega), hdigits]
    refine ⟨rfl, ?_⟩
    obtain rfl | rfl := hc
    · exact Or.inl rfl
    · exact Or.inr rfl
  have hyear : fieldOpt i32 (String.ofList (fixed 4 y ++ '-' :: c :: fixed 2 w)) 0 4
      = Except.ok (some (y : ℤ)) := by
    unfold fieldOpt
    rw [slice_of_single hsingle (Nat.le_add_right 4 4) (by decide)]
    show Except.ok (i32.parse (fixed 4 y)).toOption = _
    rw [parse_fixed (by decide) (by decide) (by decide) hy]
    rfl
  have hweek : fieldOpt u32 (String.ofList (fixed 4 y ++ '-' :: c :: fixed 2 w)) 6 8
      = Except.ok (some (w : ℤ)) := by
    unfold fieldOpt
    rw [slice_of_single hsingle (Nat.le_refl 8) (by decide)]
    show Except.ok (u32.parse (fixed 2 w)).toOption = _
    rw [parse_fixed (by decide) (by decide) (by decide) hw]
    rfl
  unfold parseIsoWeek
  rw [if_neg (not_not_intro hlength), if_pos hbytes, hyear]
  show (fieldOpt u32 _ 6 8 >>= _) = _
  rw [hweek]
  rfl

/-- What a field without a sign holds are digits, as many as it has bytes. -/
theorem fixed_of_fieldOpt {part : List Char} (h : fieldOpt T s first last = Except.ok (some n))
    (hslice : slice s first last = Except.ok part) (hplus : '+' ∉ part)
    (hminus : T.least < 0 → part.head? ≠ some '-') :
    part = fixed (String.utf8Len part) n.toNat ∧ 0 ≤ n ∧ n < 10 ^ String.utf8Len part := by
  have hparse : T.parse part = Except.ok n := (isNumber_iff hslice).mp h
  obtain ⟨hpos, hlt, hpart⟩ := eq_fixed_of_digitsFrom (digitsFrom_of_parse hplus hminus hparse)
  have hsingle : ∀ c ∈ part, c.utf8Size = 1 := by
    rw [hpart]
    exact utf8Size_fixed _ _
  rw [utf8Len_of_single hsingle]
  exact ⟨hpart, hpos, hlt⟩

/-- What is read of a week: its length, its middle, and two numbers. -/
theorem parseIsoWeek_parts {year week : ℤ}
    (h : parseIsoWeek s = Except.ok (some (year, week))) :
    Text.byteLen s = 8 ∧ (asBytes s)[4]? = some 45
      ∧ ((asBytes s)[5]? = some 87 ∨ (asBytes s)[5]? = some 119)
      ∧ fieldOpt i32 s 0 4 = Except.ok (some year)
      ∧ fieldOpt u32 s 6 8 = Except.ok (some week) := by
  unfold parseIsoWeek at h
  by_cases hlength : Text.byteLen s = 8
  · rw [if_neg (not_not_intro hlength)] at h
    split_ifs at h with hbytes
    · obtain ⟨o, hyear, h⟩ := checked_bind_ok_iff.mp h
      cases o with
      | none => cases h
      | some y =>
        obtain ⟨o, hweek, h⟩ := checked_bind_ok_iff.mp h
        cases o with
        | none => cases h
        | some w =>
          obtain ⟨rfl, rfl⟩ := Prod.mk.inj (Option.some.inj (Except.ok.inj h))
          exact ⟨hlength, hbytes.left, hbytes.right, hyear, hweek⟩
    · cases h
  · rw [if_pos hlength] at h
    cases h

theorem takeBytes_of_slice {part : List Char} (h : slice s first last = Except.ok part) :
    ∃ rest, dropBytes first s.toList = some rest
      ∧ takeBytes (last - first) rest = some part := by
  unfold slice at h
  split at h
  case h_1 heq =>
    obtain rfl := Except.ok.inj h
    exact Option.bind_eq_some_iff.mp heq
  case h_2 => cases h

/-- The two bytes in the middle are two characters. -/
theorem middle_of_bytes {ys rest : List Char} (hsplit : s.toList = ys ++ rest)
    (hlen : String.utf8Len ys = 4) (hdash : (asBytes s)[4]? = some 45)
    (hletter : (asBytes s)[5]? = some 87 ∨ (asBytes s)[5]? = some 119) :
    ∃ c ds, rest = '-' :: c :: ds ∧ (c = 'W' ∨ c = 'w') := by
  have hbytes (k : ℕ) : (asBytes s)[4 + k]? = (rest.flatMap String.utf8EncodeChar)[k]? := by
    have hylen : (ys.flatMap String.utf8EncodeChar).length = 4 := by
      have hcount := length_asBytes (String.ofList ys)
      rwa [Text.byteLen, String.utf8ByteSize_ofList, hlen, asBytes, String.toList_ofList]
        at hcount
    unfold asBytes
    rw [hsplit, List.flatMap_append, List.getElem?_append_right (by omega), hylen,
      Nat.add_sub_cancel_left]
  have hdash' := (hbytes 0).symm.trans hdash
  have hletter' {b : UInt8} (hb : (asBytes s)[5]? = some b) := (hbytes 1).symm.trans hb
  cases rest with
  | nil => cases hdash'
  | cons c cs =>
    obtain rfl : c = '-' := eq_of_byte cs hdash' rfl rfl rfl
    cases cs with
    | nil => obtain hupper | hlower := hletter <;> cases hletter' ‹_›
    | cons c ds =>
      refine ⟨c, ds, rfl, ?_⟩
      obtain hupper | hlower := hletter
      · exact Or.inl (eq_of_byte ds (hletter' hupper) rfl rfl rfl)
      · exact Or.inr (eq_of_byte ds (hletter' hlower) rfl rfl rfl)

/-- What is left after them are the last two bytes. -/
theorem end_of_slice {ys ds ws : List Char} {c : Char} (hc : c = 'W' ∨ c = 'w')
    (hsplit : s.toList = ys ++ '-' :: c :: ds) (hlen : String.utf8Len ys = 4)
    (hlength : Text.byteLen s = 8) (hws : slice s 6 8 = Except.ok ws) :
    ws = ds ∧ String.utf8Len ds = 2 := by
  have hsize : c.utf8Size = 1 := by obtain rfl | rfl := hc <;> rfl
  have htotal : String.utf8Len s.toList = 8 := by
    rw [← String.utf8ByteSize_ofList, String.ofList_toList]
    exact hlength
  rw [hsplit, String.utf8Len_append, String.utf8Len_cons, String.utf8Len_cons, hlen, hsize,
    show ('-' : Char).utf8Size = 1 from rfl] at htotal
  have hdrop : dropBytes 6 s.toList = some ds := by
    have happ := dropBytes_append (ys ++ ['-', c]) ds
    rw [String.utf8Len_append, hlen, String.utf8Len_cons, String.utf8Len_cons, hsize] at happ
    rw [hsplit]
    simpa [show ('-' : Char).utf8Size = 1 from rfl] using happ
  obtain ⟨rest, hrest, htake⟩ := takeBytes_of_slice hws
  obtain rfl : ds = rest := Option.some.inj (hdrop.symm.trans hrest)
  obtain ⟨more, hmore, hlen'⟩ := exists_of_takeBytes htake
  have hsum := congrArg String.utf8Len hmore
  rw [String.utf8Len_append, hlen'] at hsum
  cases more with
  | nil => exact ⟨by rw [hmore, List.append_nil], by omega⟩
  | cons d ds =>
    have hpos := d.utf8Size_pos
    rw [String.utf8Len_cons] at hsum
    omega

/-- **What is read of a text without signs is a week text.** -/
theorem isWeekText_of_parseIsoWeek {year week : ℤ} (hs : Unsigned s)
    (h : parseIsoWeek s = Except.ok (some (year, week))) : IsWeekText s year week := by
  obtain ⟨hlength, hdash, hletter, hyear, hweek⟩ := parseIsoWeek_parts h
  obtain ⟨ys, hys⟩ | hpanics := slice_cases s 0 4
  swap
  · exact absurd hyear (not_isNumber hpanics)
  obtain ⟨ws, hws⟩ | hpanics := slice_cases s 6 8
  swap
  · exact absurd hweek (not_isNumber hpanics)
  obtain ⟨rest, hsplit, hlen⟩ : ∃ rest, s.toList = ys ++ rest ∧ String.utf8Len ys = 4 := by
    obtain ⟨all, hall, htake⟩ := takeBytes_of_slice hys
    obtain rfl : s.toList = all := Option.some.inj (by rw [← hall]; cases s.toList <;> rfl)
    exact exists_of_takeBytes htake
  obtain ⟨c, ds, rfl, hc⟩ := middle_of_bytes hsplit hlen hdash hletter
  obtain ⟨rfl, hlen'⟩ := end_of_slice hc hsplit hlen hlength hws
  have hplus := hs.left
  rw [hsplit, List.mem_append, not_or] at hplus
  have hfirst : ys.head? ≠ some '-' := fun hhead =>
    hs.right (by rw [hsplit, List.head?_append, hhead]; rfl)
  obtain ⟨hy, hypos, hylt⟩ := fixed_of_fieldOpt hyear hys hplus.left fun _ => hfirst
  obtain ⟨hw, hwpos, hwlt⟩ := fixed_of_fieldOpt hweek hws
    (fun hmem => hplus.right (List.mem_cons_of_mem _ (List.mem_cons_of_mem _ hmem)))
    fun hleast => absurd hleast (by decide)
  rw [hlen] at hy hylt
  rw [hlen'] at hw hwlt
  refine ⟨year.toNat, week.toNat, c, by omega, by omega, hc, ?_⟩
  rw [hsplit, ← hy, ← hw]

end WeekTexts

/-! ## The sessions of a report -/

/-- The sessions that began on or after a date. -/
def onOrAfter (cutoff : String) : List SessionRecord → Checked (List SessionRecord)
  | [] => return []
  | s :: ss => do
    let started ← Report.startedAtPrefix s.startedAt
    let rest ← onOrAfter cutoff ss
    return if cutoff ≤ String.ofList started then s :: rest else rest

/-- The date from which sessions are shown when none is given. -/
def defaultCutoff (sessions : List SessionRecord) : Checked String := do
  let started ← sessions.mapM fun s => Report.startedAtPrefix s.startedAt
  match (started.map String.ofList).max? with
  | none => return "0000-00-00"
  | some latest => return (← Report.mondayOfIsoWeekContaining latest).getD latest

/-- The day on which each session began stands at the beginning of its timestamp. -/
def Dated (day : SessionRecord → ℤ) (sessions : List SessionRecord) : Prop :=
  ∀ s ∈ sessions, (dateText (day s)).toList <+: s.startedAt.toList
    ∧ 1 ≤ (Civil.fromDays (day s)).1 ∧ (Civil.fromDays (day s)).1 ≤ 9999

section Sessions

variable {day : SessionRecord → ℤ} {sessions : List SessionRecord} {z z' : ℤ}

/-- Dates are compared as texts as they are as days. -/
theorem dateText_le_iff (hz : 0 ≤ (Civil.fromDays z).1 ∧ (Civil.fromDays z).1 ≤ 9999)
    (hz' : 0 ≤ (Civil.fromDays z').1 ∧ (Civil.fromDays z').1 ≤ 9999) :
    dateText z ≤ dateText z' ↔ z ≤ z' := by
  have hlt {x x' : ℤ} (hx : 0 ≤ (Civil.fromDays x).1 ∧ (Civil.fromDays x).1 ≤ 9999)
      (hx' : 0 ≤ (Civil.fromDays x').1 ∧ (Civil.fromDays x').1 ≤ 9999) (h : x < x') :
      dateText x < dateText x' := by
    have h₁ := fourDigits_of_year hx
    have h₂ := fourDigits_of_year hx'
    have hdates := Civil.fromDays_lt h
    rw [h₁.date, h₂.date] at hdates
    dsimp only at hdates
    have hmonth := h₂.month
    have hday := h₂.day
    rw [h₁.dateText_eq, h₂.dateText_eq, String.lt_iff_toList_lt, String.toList_ofList,
      String.toList_ofList]
    exact dateChars_lt h₂.year (by omega) (by omega) (by omega)
  obtain h | rfl | h := lt_trichotomy z z'
  · exact iff_of_true (hlt hz hz' h).le h.le
  · exact iff_of_true le_rfl le_rfl
  · exact iff_of_false (hlt hz' hz h).not_ge h.not_ge

theorem takeBytes_append {cs : List Char} (ds : List Char)
    (h : ∀ c ∈ cs, c.utf8Size = 1) :
    takeBytes cs.length (cs ++ ds) = some cs := by
  induction cs with
  | nil => cases ds <;> rfl
  | cons c cs ih =>
    rw [List.length_cons, List.cons_append, takeBytes, h c List.mem_cons_self,
      if_pos (Nat.le_add_left 1 _), Nat.add_sub_cancel,
      ih fun d hd => h d (List.mem_cons_of_mem c hd)]
    rfl

/-- The date of a timestamp is what it begins with. -/
theorem prefixOf_of_prefix {s : String} (hz : 0 ≤ (Civil.fromDays z).1
    ∧ (Civil.fromDays z).1 ≤ 9999) (h : (dateText z).toList <+: s.toList) :
    prefixOf s = Except.ok (dateText z).toList := by
  have hdate := fourDigits_of_year hz
  obtain ⟨rest, hrest⟩ := h
  rw [hdate.dateText_eq, String.toList_ofList] at hrest ⊢
  have hle : 10 ≤ Text.byteLen s := by
    rw [← String.ofList_toList (s := s), ← hrest, Text.byteLen, String.utf8ByteSize_ofList,
      String.utf8Len_append, utf8Len_of_single utf8Size_dateChars, length_dateChars]
    exact Nat.le_add_right 10 _
  have hsize : ∀ c ∈ dateChars (Civil.fromDays z).1.toNat (Civil.fromDays z).2.1.toNat
      (Civil.fromDays z).2.2.toNat, c.utf8Size = 1 := utf8Size_dateChars
  have htake := takeBytes_append rest hsize
  rw [length_dateChars, hrest] at htake
  unfold prefixOf
  rw [if_pos hle, slice, show dropBytes 0 s.toList = some s.toList by cases s.toList <;> rfl,
    Option.bind_some, htake]

/-- **A report since a day** shows the sessions that began on or after it. -/
theorem onOrAfter_eq (hz : 0 ≤ (Civil.fromDays z).1 ∧ (Civil.fromDays z).1 ≤ 9999)
    (h : Dated day sessions) : onOrAfter (dateText z) sessions
      = Except.ok (sessions.filter fun s => decide (z ≤ day s)) := by
  induction sessions with
  | nil => rfl
  | cons s ss ih =>
    obtain ⟨hdate, hyear⟩ := h s List.mem_cons_self
    have hyear' : 0 ≤ (Civil.fromDays (day s)).1 ∧ (Civil.fromDays (day s)).1 ≤ 9999 := by
      omega
    have hstarted : Report.startedAtPrefix s.startedAt
        = Except.ok (dateText (day s)).toList := prefixOf_of_prefix hyear' hdate
    unfold onOrAfter
    rw [hstarted, ih fun s hs => h s (List.mem_cons_of_mem _ hs)]
    show Except.ok (if dateText z ≤ String.ofList (dateText (day s)).toList then _ else _) = _
    rw [String.ofList_toList, if_congr (dateText_le_iff hz hyear') rfl rfl,
      List.filter_cons]
    simp only [decide_eq_true_eq]

/-- The Monday of a day is not before the first year, if the day is not. -/
theorem mondayOf_year (h : 1 ≤ (Civil.fromDays z).1 ∧ (Civil.fromDays z).1 ≤ 9999) :
    0 ≤ (Civil.fromDays (Civil.mondayOf z)).1 ∧ (Civil.fromDays (Civil.mondayOf z)).1 ≤ 9999 := by
  have hyear := Civil.newYear_fromDays z
  have hmonday := Civil.newYear_fromDays (Civil.mondayOf z)
  have hbounds := Civil.mondayOf_bounds z
  have hbefore := Civil.newYear_lt ((Civil.fromDays z).1 - 1)
  rw [sub_add_cancel] at hbefore
  constructor
  · by_contra hnot
    have hle := Civil.newYear_mono (show (Civil.fromDays (Civil.mondayOf z)).1 + 1
      ≤ (Civil.fromDays z).1 - 1 by omega)
    omega
  · by_contra hnot
    have hle := Civil.newYear_mono (show (Civil.fromDays z).1 + 1
      ≤ (Civil.fromDays (Civil.mondayOf z)).1 by omega)
    omega

theorem startedAt_of_dated (h : Dated day sessions) :
    sessions.mapM (fun s => Report.startedAtPrefix s.startedAt)
      = (Except.ok (sessions.map fun s => (dateText (day s)).toList) : Checked _) := by
  induction sessions with
  | nil => rfl
  | cons s ss ih =>
    obtain ⟨hdate, hyear⟩ := h s List.mem_cons_self
    have hstarted : Report.startedAtPrefix s.startedAt
        = Except.ok (dateText (day s)).toList := prefixOf_of_prefix (by omega) hdate
    rw [List.mapM_cons, hstarted, ih fun s hs => h s (List.mem_cons_of_mem _ hs)]
    rfl

/-- **A report since the default day** begins with the week of a latest session. -/
theorem defaultCutoff_eq (h : Dated day sessions) (hne : sessions ≠ []) :
    ∃ last ∈ sessions, (∀ s ∈ sessions, day s ≤ day last)
      ∧ defaultCutoff sessions = Except.ok (dateText (Civil.mondayOf (day last))) := by
  have htexts : (sessions.map fun s => (dateText (day s)).toList).map String.ofList
      = sessions.map fun s => dateText (day s) := by
    rw [List.map_map]
    exact List.map_congr_left fun s _ => String.ofList_toList
  obtain ⟨latest, hlatest⟩ : ∃ latest, (sessions.map fun s => dateText (day s)).max?
      = some latest := Option.isSome_iff_exists.mp (by
    rw [List.isSome_max?_iff]
    exact mt List.map_eq_nil_iff.mp hne)
  obtain ⟨hmem, hmax⟩ := List.max?_eq_some_iff.mp hlatest
  obtain ⟨last, hlast, rfl⟩ := List.mem_map.mp hmem
  have hyear (s : SessionRecord) (hs : s ∈ sessions) :
      0 ≤ (Civil.fromDays (day s)).1 ∧ (Civil.fromDays (day s)).1 ≤ 9999 := by
    have hdated := (h s hs).right
    omega
  refine ⟨last, hlast, fun s hs => ?_, ?_⟩
  · exact (dateText_le_iff (hyear s hs) (hyear last hlast)).mp
      (hmax _ (List.mem_map_of_mem hs))
  · unfold defaultCutoff
    rw [startedAt_of_dated h]
    show (match ((sessions.map fun s => (dateText (day s)).toList).map String.ofList).max? with
      | none => _
      | some latest => _) = _
    rw [htexts, hlatest]
    show (Report.mondayOfIsoWeekContaining (dateText (day last)) >>= _) = _
    rw [(fourDigits_of_year (hyear last hlast)).mondayOf]
    rfl

/-- **The default report** shows the sessions of the seven days of that week. -/
theorem onOrAfter_defaultCutoff {last : SessionRecord} (h : Dated day sessions)
    (hlast : last ∈ sessions) (hmax : ∀ s ∈ sessions, day s ≤ day last) :
    onOrAfter (dateText (Civil.mondayOf (day last))) sessions
      = Except.ok (sessions.filter fun s => decide (Civil.mondayOf (day last) ≤ day s
          ∧ day s < Civil.mondayOf (day last) + 7)) := by
  have hbounds := Civil.mondayOf_bounds (day last)
  rw [onOrAfter_eq (mondayOf_year (h last hlast).right) h]
  refine congrArg Except.ok (List.filter_congr fun s hs => decide_eq_decide.mpr ?_)
  have hle := hmax s hs
  omega

end Sessions

/-! ## Weeks of a year, of a date, of a text and of a report -/

theorem parseSince_of_isWeekText {s : String} {year week z : ℤ}
    (hs : IsWeekText s year week) (hyear : 1 ≤ year) (h : Civil.IsIsoWeek year week z) :
    parseSince s = Except.ok (dateText z) := by
  obtain ⟨y, w, c, hnumbers, hlt, -⟩ := id hs
  have hmonday := isoWeekMonday_of_isIsoWeek (by omega) h
  unfold parseSince
  rw [parseIsoWeek_of_isWeekText hs]
  exact hmonday

/-- A week of a year has its Monday, a number up to 53 is taken for a week in every year,
and the Monday of a date is that of its week. A text without signs is read as a week if it
is written as one. A report since a week shows the sessions on or after its Monday, and the
report since the default day those of the seven days of the latest week. -/
theorem iso_weeks :
    (∀ y w : ℤ, i32.Holds y → u32.Holds w →
      ((∃ s, isoWeekMonday y w = Except.ok s) ↔ 1 ≤ y ∧ 1 ≤ w ∧ w ≤ 53)
      ∧ ∀ z, 1 ≤ y → (Civil.IsIsoWeek y w z
          ∨ w = 53 ∧ ¬ Civil.HasWeek y 53 ∧ i32.Holds (y + 1) ∧ Civil.IsIsoWeek (y + 1) 1 z) →
        isoWeekMonday y w = Except.ok (dateText z))
    ∧ (∀ y m d : ℤ, Civil.IsDate y m d → 0 ≤ y ∧ y ≤ 9999 →
      ∃ z, Civil.weekday z = 0 ∧ (z ≤ Civil.toDays y m d ∧ Civil.toDays y m d < z + 7)
        ∧ Report.mondayOfIsoWeekContaining (String.ofList (renderDate (y, m, d)))
          = Except.ok (some (dateText z))
        ∧ (1 ≤ y → isoWeekMonday (Civil.isoYear (Civil.toDays y m d))
          (Civil.isoWeek (Civil.toDays y m d)) = Except.ok (dateText z)))
    ∧ (∀ s year week, Unsigned s →
      (parseIsoWeek s = Except.ok (some (year, week)) ↔ IsWeekText s year week))
    ∧ (∀ s year week z day sessions, IsWeekText s year week → 1 ≤ year →
      Civil.IsIsoWeek year week z → Dated day sessions →
      (parseSince s >>= fun cutoff => onOrAfter cutoff sessions)
        = Except.ok (sessions.filter fun s => decide (z ≤ day s)))
    ∧ ∀ day sessions, Dated day sessions → sessions ≠ [] →
      ∃ last ∈ sessions, (∀ s ∈ sessions, day s ≤ day last)
        ∧ (defaultCutoff sessions >>= fun cutoff => onOrAfter cutoff sessions)
          = Except.ok (sessions.filter fun s => decide (Civil.mondayOf (day last) ≤ day s
            ∧ day s < Civil.mondayOf (day last) + 7)) := by
  refine ⟨fun y w hy hw => ⟨?_, fun z hyear h => ?_⟩, fun y m d hdate hyear => ?_,
    fun s year week hs => ?_, fun s year week z day sessions hs hyear h hday => ?_,
    fun day sessions hday hne => ?_⟩
  · rw [holds_i32_iff] at hy
    exact isoWeekMonday_ok_iff (by omega)
  · rw [holds_i32_iff] at hy
    obtain h | ⟨rfl, hnone, hnext, h⟩ := h
    · exact isoWeekMonday_of_isIsoWeek (by omega) h
    · rw [holds_i32_iff] at hnext
      exact isoWeekMonday_next (by omega) hnone h
  · have hz : Civil.fromDays (Civil.toDays y m d) = (y, m, d) := Civil.fromDays_toDays hdate
    have htext : dateText (Civil.toDays y m d) = String.ofList (renderDate (y, m, d)) := by
      rw [dateText, hz]
    refine ⟨Civil.mondayOf (Civil.toDays y m d), Civil.weekday_mondayOf _,
      Civil.mondayOf_bounds _, ?_, fun hone => ?_⟩
    · rw [← htext]
      exact (fourDigits_of_year (by rwa [hz])).mondayOf
    · refine (mondays_agree ?_).right
      rw [hz]
      exact ⟨hone, hyear.right⟩
  · exact ⟨isWeekText_of_parseIsoWeek hs, parseIsoWeek_of_isWeekText⟩
  · -- four digits bound the year, and with it the Monday
    obtain ⟨y, w, c, hnumbers, hlt, -⟩ := id hs
    have hbounds := h.year_le
    rw [parseSince_of_isWeekText hs hyear h]
    exact onOrAfter_eq (by omega) hday
  · obtain ⟨last, hlast, hmax, hcutoff⟩ := defaultCutoff_eq hday hne
    refine ⟨last, hlast, hmax, ?_⟩
    rw [hcutoff]
    exact onOrAfter_defaultCutoff hday hlast hmax

/-- The year 2020 has a week 53. -/
theorem iso_weeks_2020 : isoWeekMonday 2020 53 = Except.ok (dateText 18624)
    ∧ dateText 18624 = "2020-12-28" := by
  refine ⟨(iso_weeks.left 2020 53 (by decide) (by decide)).right 18624 (by decide)
    (Or.inl ⟨by decide, by decide, by decide⟩), by decide +kernel⟩

/-- Week 53 of a year as a text. -/
theorem isWeekText_53 {s : String} {year : ℕ} (hyear : year < 10 ^ 4)
    (hs : s.toList = fixed 4 year ++ '-' :: 'W' :: fixed 2 53) : IsWeekText s year 53 :=
  ⟨year, 53, 'W', ⟨rfl, rfl⟩, ⟨hyear, by decide⟩, Or.inl rfl, hs⟩

/-- The year 2025 has no week 53. -/
theorem not_hasWeek_2025 : ¬ Civil.HasWeek 2025 53 := by
  rintro ⟨z, hz⟩
  have hthursday := hz.thursday
  have hlast : Civil.weekMonday 2025 53 + 3 = Civil.newYear (2025 + 1) := by decide
  rw [hz.eq_weekMonday, hlast] at hthursday
  exact lt_irrefl _ hthursday.right

/-- A session of the day 2021-01-05. -/
def startedInJanuary : SessionRecord where
  id := "20210105-120000"
  artifactBranch := "sessions/20210105-120000"
  artifactSha := "0ad33704c259da4102b5f195617760003ac89c18"
  artifactUrl := none
  startedAt := "2021-01-05T12:00:00Z"
  finishedAt := "2021-01-05T13:00:00Z"
  status := SessionStatus.succeeded
  failurePhase := none
  failureReason := none
  sbagentVersion := "0.1.0"
  sbagentGitSha := none
  range := ⟨none, none, none, none, "mainnet"⟩
  baselineRunIds := []
  phaseDurationsSecs := ∅
  targets := []
  sourceUrl := none
  sourceBranch := none
  sourceSha := none
  sourceFetchedAt := none

/-- A number is taken for a week of the year 2025 that the year does not have, as a number
and as a text, and a report since a week also shows what began after it. -/
theorem not_isoWeekMonday_iff_hasWeek :
    (¬ ∀ y w : ℤ, i32.Holds y → u32.Holds w →
      ((∃ s, isoWeekMonday y w = Except.ok s) ↔ Civil.HasWeek y w))
    ∧ (¬ ∀ s year week, parseIsoWeek s = Except.ok (some (year, week))
      ↔ IsWeekText s year week ∧ Civil.HasWeek year week)
    ∧ ¬ ∀ s year week z day sessions, IsWeekText s year week → Civil.IsIsoWeek year week z →
      Dated day sessions →
      (parseSince s >>= fun cutoff => onOrAfter cutoff sessions)
        = Except.ok (sessions.filter fun s => decide (z ≤ day s ∧ day s < z + 7)) := by
  refine ⟨fun h => ?_, fun h => ?_, fun h => ?_⟩
  · exact not_hasWeek_2025 ((h 2025 53 (by decide) (by decide)).mp
      ((isoWeekMonday_ok_iff (by decide)).mpr (by decide)))
  · have htext : IsWeekText "2025-W53" (2025 : ℕ) 53 := isWeekText_53 (by decide) (by decide)
    exact not_hasWeek_2025 ((h "2025-W53" 2025 53).mp (parseIsoWeek_of_isWeekText htext)).right
  · have htext : IsWeekText "2020-W53" (2020 : ℕ) 53 := isWeekText_53 (by decide) (by decide)
    have hweek : Civil.IsIsoWeek 2020 53 18624 := ⟨by decide, by decide, by decide⟩
    have hdated : Dated (fun _ => 18632) [startedInJanuary] := by
      intro s hs
      obtain rfl := List.mem_singleton.mp hs
      exact ⟨by decide +kernel, by decide, by decide⟩
    have hshown := h "2020-W53" 2020 53 18624 _ _ htext hweek hdated
    rw [parseSince_of_isWeekText htext (by decide) hweek] at hshown
    replace hshown := (onOrAfter_eq (by decide) hdated).symm.trans hshown
    cases hshown

end Timestamps
