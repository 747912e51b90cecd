import Sbagent.Timestamps
import Sbagent.Layout

/-!
# The ids of sessions

A session that is started without an id gets one from the clock, `YYYYMMDD-HHMMSS`.
The id becomes a path segment, and the archive reads the time of the start back from
it: the record of a session says when it started because its id does.

For the years that have four digits, the ids are valid, in the order of their times, and
what is read back is what the formatter of the archive writes for that time (`minted_id`).
In the year 10000 an id has another digit, and nothing is read back from it any more.
-/

open Decimal Fallible IntType

namespace Timestamps

/-! ## Minting an id -/

/-- `YYYYMMDD-HHMMSS`. -/
def renderId (date : ℤ × ℤ × ℤ) (hour min sec : ℕ) : String :=
  String.ofList (Decimal.padded 4 date.1 ++ Decimal.padded 2 date.2.1
    ++ Decimal.padded 2 date.2.2
    ++ '-' :: (Decimal.padded 2 hour ++ Decimal.padded 2 min ++ Decimal.padded 2 sec))

def formatYmdHmsUtc (unixSecs : ℕ) : Checked String := do
  let days := unixSecs / 86400
  let sOfDay := unixSecs % 86400
  let hour := sOfDay / 3600
  let minute := sOfDay % 3600 / 60
  let second := sOfDay % 60
  let date ← Types.civilFromDays (i64.cast days)
  return renderId date hour minute second

/-! ## Reading the time of the start back -/

/-- The characters between two positions. -/
def charsAt (cs : List Char) (first last : ℕ) : List Char :=
  (cs.drop first).take (last - first)

/-- Whether characters are `YYYYMMDD-HHMMSS`, as far as digits go. -/
def isIdPrefix (chars : List Char) : Bool :=
  chars.length == 15 && (charsAt chars 0 8).all Text.isAsciiDigit
    && charsAt chars 8 9 == ['-'] && (charsAt chars 9 15).all Text.isAsciiDigit

/-- The time that an id says, with `T`, `Z` and the separators. -/
def deriveStartedAtFromId (id : String) (now : ℕ) : Checked String :=
  let chars := id.toList.take 15
  if isIdPrefix chars then
    Except.ok (String.ofList (charsAt chars 0 4 ++ '-' :: (charsAt chars 4 6
      ++ '-' :: (charsAt chars 6 8 ++ 'T' :: (charsAt chars 9 11 ++ ':' :: (charsAt chars 11 13
      ++ ':' :: (charsAt chars 13 15 ++ ['Z'])))))))
  else AnalyzedRejections.nowUtcIso8601 now

/-! ## Ids and times -/

/-- The characters of an id. -/
def idChars (y m d hour min sec : ℕ) : List Char :=
  fixed 4 y ++ (fixed 2 m ++ (fixed 2 d
    ++ '-' :: (fixed 2 hour ++ (fixed 2 min ++ fixed 2 sec))))

/-- The characters of the id of a time. -/
def idOf (t : ℕ) : List Char :=
  idChars (Civil.fromDays (t / 86400 : ℕ)).1.toNat (Civil.fromDays (t / 86400 : ℕ)).2.1.toNat
    (Civil.fromDays (t / 86400 : ℕ)).2.2.toNat (t % 86400 / 3600) (t % 86400 % 3600 / 60)
    (t % 86400 % 60)

section Ids

variable {y m d hour min sec : ℕ}

theorem length_idChars : (idChars y m d hour min sec).length = 15 := by
  simp only [idChars, List.length_append, List.length_cons, length_fixed]

/-- The first part. -/
theorem charsAt_left {as bs : List Char} {last : ℕ} (h : as.length = last) :
    charsAt (as ++ bs) 0 last = as := by
  unfold charsAt
  rw [List.drop_zero, Nat.sub_zero]
  exact List.take_left' h

/-- What comes after a part. -/
theorem charsAt_right {as bs : List Char} {n first last : ℕ} (h : as.length = n)
    (hfirst : n ≤ first) :
    charsAt (as ++ bs) first last = charsAt bs (first - n) (last - n) := by
  unfold charsAt
  have hwidth : last - n - (first - n) = last - first := by omega
  rw [hwidth, List.drop_append, List.drop_eq_nil_of_le (h ▸ hfirst), List.nil_append, h]

theorem charsAt_cons {c : Char} {cs : List Char} {first last : ℕ} :
    charsAt (c :: cs) (first + 1) (last + 1) = charsAt cs first last := by
  unfold charsAt
  rw [List.drop_succ_cons, Nat.add_sub_add_right]

/-- The parts of an id are its numbers. -/
structure Parts (cs : List Char) (y m d hour min sec : ℕ) : Prop where
  year : charsAt cs 0 4 = fixed 4 y
  month : charsAt cs 4 6 = fixed 2 m
  day : charsAt cs 6 8 = fixed 2 d
  hour : charsAt cs 9 11 = fixed 2 hour
  min : charsAt cs 11 13 = fixed 2 min
  sec : charsAt cs 13 15 = fixed 2 sec

theorem parts_idChars : Parts (idChars y m d hour min sec) y m d hour min sec := by
  have h4 := length_fixed 4 y
  have h2 := length_fixed 2
  unfold idChars
  constructor
  · exact charsAt_left h4
  · rw [charsAt_right h4 (by decide)]
    exact charsAt_left (h2 m)
  · rw [charsAt_right h4 (by decide), charsAt_right (h2 m) (by decide)]
    exact charsAt_left (h2 d)
  · rw [charsAt_right h4 (by decide), charsAt_right (h2 m) (by decide),
      charsAt_right (h2 d) (by decide)]
    exact charsAt_cons.trans (charsAt_left (h2 hour))
  · rw [charsAt_right h4 (by decide), charsAt_right (h2 m) (by decide),
      charsAt_right (h2 d) (by decide)]
    refine charsAt_cons.trans ?_
    rw [charsAt_right (h2 hour) (by decide)]
    exact charsAt_left (h2 min)
  · rw [charsAt_right h4 (by decide), charsAt_right (h2 m) (by decide),
      charsAt_right (h2 d) (by decide)]
    refine charsAt_cons.trans ?_
    rw [charsAt_right (h2 hour) (by decide), charsAt_right (h2 min) (by decide)]
    exact (congrArg (charsAt · 0 2) (List.append_nil _).symm).trans (charsAt_left (h2 sec))

theorem isIdPrefix_idChars : isIdPrefix (idChars y m d hour min sec) = true := by
  have hdigits : ∀ w n, (fixed w n).all Text.isAsciiDigit = true := fun w n =>
    List.all_eq_true.mpr fun c hc => isAsciiDigit_of_mem_fixed hc
  have hdate : charsAt (idChars y m d hour min sec) 0 8
      = fixed 4 y ++ (fixed 2 m ++ fixed 2 d) := by
    unfold idChars
    rw [← List.append_assoc (fixed 2 m), ← List.append_assoc (fixed 4 y)]
    exact charsAt_left (by simp only [List.length_append, length_fixed])
  have hdash : charsAt (idChars y m d hour min sec) 8 9 = ['-'] := by
    unfold idChars
    rw [charsAt_right (length_fixed 4 y) (by decide), charsAt_right (length_fixed 2 m) (by decide),
      charsAt_right (length_fixed 2 d) (by decide)]
    show charsAt (['-'] ++ _) 0 1 = ['-']
    exact charsAt_left rfl
  have htime : charsAt (idChars y m d hour min sec) 9 15
      = fixed 2 hour ++ (fixed 2 min ++ fixed 2 sec) := by
    unfold idChars
    rw [charsAt_right (length_fixed 4 y) (by decide), charsAt_right (length_fixed 2 m) (by decide),
      charsAt_right (length_fixed 2 d) (by decide)]
    refine charsAt_cons.trans ?_
    exact (congrArg (charsAt · 0 6) (List.append_nil _).symm).trans
      (charsAt_left (by simp only [List.length_append, length_fixed]))
  unfold isIdPrefix
  rw [length_idChars, hdate, hdash, htime]
  simp only [List.all_append, hdigits]
  rfl

end Ids

/-- **What is read back of an id, and of whatever begins with it.** -/
theorem deriveStartedAtFromId_append (t : ℕ) (suffix : String) (now : ℕ) :
    deriveStartedAtFromId (String.ofList (idOf t) ++ suffix) now
      = Except.ok (String.ofList (stampOf t)) := by
  have htake : (String.ofList (idOf t) ++ suffix).toList.take 15 = idOf t := by
    rw [String.toList_append, String.toList_ofList]
    exact List.take_left' length_idChars
  have hparts : Parts (idOf t) _ _ _ _ _ _ := parts_idChars
  unfold deriveStartedAtFromId
  dsimp only
  rw [htake, if_pos (show isIdPrefix (idOf t) = true from isIdPrefix_idChars), hparts.year,
    hparts.month, hparts.day, hparts.hour, hparts.min, hparts.sec]
  unfold stampOf stamp dateChars timeChars
  simp only [List.append_assoc, List.cons_append]

/-- What is minted. -/
theorem formatYmdHmsUtc_eq {t : ℕ} (h : t < limit) :
    formatYmdHmsUtc t = Except.ok (String.ofList (idOf t)) := by
  unfold limit at h
  have hwritten := written_of_lt (z := (t / 86400 : ℕ)) (by omega)
  have hbounds : -2 ^ 38 ≤ ((t / 86400 : ℕ) : ℤ) ∧ ((t / 86400 : ℕ) : ℤ) ≤ 2 ^ 38 := by omega
  obtain ⟨-, -, -, -, htypes, -⟩ := civilFromDays_ok hbounds
  have hcast : i64.cast (t / 86400 : ℕ) = (t / 86400 : ℕ) :=
    cast_of_holds (holds_i64_iff.mpr (by omega))
  have hrender : renderId (Civil.fromDays (t / 86400 : ℕ)) (t % 86400 / 3600)
      (t % 86400 % 3600 / 60) (t % 86400 % 60) = String.ofList (idOf t) := by
    rw [hwritten.date]
    unfold renderId idOf idChars
    dsimp only
    rw [padded_eq_fixed (by decide) hwritten.year.right,
      padded_eq_fixed (by decide) (lt_of_le_of_lt hwritten.month.right (by decide)),
      padded_eq_fixed (by decide) (lt_of_le_of_lt hwritten.day.right (by decide)),
      padded_eq_fixed (by decide) (show t % 86400 / 3600 < 10 ^ 2 by omega),
      padded_eq_fixed (by decide) (show t % 86400 % 3600 / 60 < 10 ^ 2 by omega),
      padded_eq_fixed (by decide) (show t % 86400 % 60 < 10 ^ 2 by omega)]
    simp only [List.append_assoc]
  unfold formatYmdHmsUtc
  dsimp only
  rw [hcast, htypes]
  exact congrArg Except.ok hrender

/-- Every character of an id is a digit or the dash. -/
theorem mem_idOf {t : ℕ} {c : Char} (h : c ∈ idOf t) :
    Text.isAsciiDigit c = true ∨ c = '-' := by
  unfold idOf idChars at h
  simp only [List.mem_append, List.mem_cons] at h
  rcases h with h | h | h | rfl | h | h | h
  · exact Or.inl (isAsciiDigit_of_mem_fixed h)
  · exact Or.inl (isAsciiDigit_of_mem_fixed h)
  · exact Or.inl (isAsciiDigit_of_mem_fixed h)
  · exact Or.inr rfl
  · exact Or.inl (isAsciiDigit_of_mem_fixed h)
  · exact Or.inl (isAsciiDigit_of_mem_fixed h)
  · exact Or.inl (isAsciiDigit_of_mem_fixed h)

/-- The check that minting leaves out would have accepted the id. -/
theorem exists_sessionId (t : ℕ) : ∃ id : SessionId, id.value = String.ofList (idOf t)
    ∧ SessionId.tryFrom id.value = Except.ok id := by
  have hne : ∀ c ∈ idOf t, c ≠ '.' ∧ c ≠ '/' ∧ c ≠ '\\' ∧ c ≠ '\x00' := by
    intro c hc
    rcases mem_idOf hc with hdigit | rfl
    · refine ⟨?_, ?_, ?_, ?_⟩ <;> (rintro rfl; revert hdigit; decide)
    · decide
  have hempty : String.ofList (idOf t) ≠ "" := by
    intro h
    have hlength : (String.ofList (idOf t)).toList.length = "".toList.length := by rw [h]
    rw [String.toList_ofList, show (idOf t).length = 15 from length_idChars] at hlength
    cases hlength
  have hdot : Text.startsWith (String.ofList (idOf t)) "." = false := by
    unfold Text.startsWith
    rw [String.toList_ofList, String.toList_ofList]
    cases hid : idOf t with
    | nil => rfl
    | cons c cs =>
      have hc := (hne c (hid ▸ List.mem_cons_self)).left
      show ('.' == c && _) = false
      rw [beq_eq_false_iff_ne.mpr hc.symm, Bool.false_and]
  have hsep : hasNoSeparator (String.ofList (idOf t)) = true := by
    unfold hasNoSeparator
    rw [String.toList_ofList, List.all_eq_true]
    intro c hc
    obtain ⟨-, hslash, hback, hnul⟩ := hne c hc
    simp only [bne_iff_ne, Bool.and_eq_true]
    exact ⟨⟨hslash, hback⟩, hnul⟩
  refine ⟨⟨_, hempty, hdot, hsep⟩, rfl, ?_⟩
  unfold SessionId.tryFrom
  rw [dif_neg hempty, dif_neg (by rw [hdot]; decide), dif_pos hsep]

/-- A number of fixed width comes before a greater one, whatever follows. -/
theorem fixed_append_lt {w a a' : ℕ} {x x' : List Char} (ha' : a' < 10 ^ w)
    (h : a < a' ∨ a = a' ∧ x < x') : fixed w a ++ x < fixed w a' ++ x' := by
  rcases h with h | ⟨rfl, h⟩
  · exact lt_append_of_lt _ _ (fixed_lt h ha') (by rw [length_fixed, length_fixed])
  · exact List.append_left_lt h

/-- **A later time has a greater id.** -/
theorem idOf_lt {t u : ℕ} (htu : t < u) (h : u < limit) : idOf t < idOf u := by
  unfold limit at h
  have hu := written_of_lt (z := (u / 86400 : ℕ)) (by omega)
  have ht := written_of_lt (z := (t / 86400 : ℕ)) (by omega)
  have hmonth := lt_of_le_of_lt hu.month.right (show 12 < 10 ^ 2 by decide)
  have hday := lt_of_le_of_lt hu.day.right (show 31 < 10 ^ 2 by decide)
  unfold idOf idChars
  by_cases hdays : t / 86400 < u / 86400
  · -- on a later day
    have hdate := Civil.fromDays_lt (Int.ofNat_lt.mpr hdays)
    rw [ht.date, hu.date] at hdate
    dsimp only at hdate
    refine fixed_append_lt hu.year.right ?_
    rcases hdate with hyear | ⟨hyear, hmonth' | ⟨hmonth', hday'⟩⟩
    · exact Or.inl (by omega)
    · exact Or.inr ⟨by omega, fixed_append_lt hmonth (Or.inl (by omega))⟩
    · exact Or.inr ⟨by omega, fixed_append_lt hmonth (Or.inr ⟨by omega,
        fixed_append_lt hday (Or.inl (by omega))⟩)⟩
  · -- later on the same day
    have hsame : t / 86400 = u / 86400 := by omega
    rw [hsame]
    refine List.append_left_lt (List.append_left_lt (List.append_left_lt
      (List.cons_lt_cons_iff.mpr (Or.inr ⟨rfl, fixed_append_lt (by omega) ?_⟩))))
    by_cases hhour : t % 86400 / 3600 < u % 86400 / 3600
    · exact Or.inl hhour
    · refine Or.inr ⟨by omega, fixed_append_lt (by omega) ?_⟩
      by_cases hmin : t % 86400 % 3600 / 60 < u % 86400 % 3600 / 60
      · exact Or.inl hmin
      · exact Or.inr ⟨by omega, fixed_lt (by omega) (by omega)⟩

/-- **Ids are times.** Before the year 10000, the id that is minted at a time is valid, and
what the archive reads back from it, or from anything that begins with it, is
what its formatter writes for that time. Ids come in the order of their times, as directory
names do, so two are equal only if they were minted in the same second. -/
theorem minted_id {t : ℕ} (h : t < limit) : ∃ id : SessionId,
    formatYmdHmsUtc t = Except.ok id.value ∧ SessionId.tryFrom id.value = Except.ok id
      ∧ (∀ suffix now,
        deriveStartedAtFromId (id.value ++ suffix) now = Archive.formatUnixSecsIso8601 t)
      ∧ ∀ u < limit, ∀ id', formatYmdHmsUtc u = Except.ok id' → (id.value < id' ↔ t < u) := by
  obtain ⟨id, hvalue, hvalid⟩ := exists_sessionId t
  refine ⟨id, ?_, hvalid, fun suffix now => ?_, fun u hu id' hid' => ?_⟩
  · rw [formatYmdHmsUtc_eq h, hvalue]
  · rw [hvalue, deriveStartedAtFromId_append, (format_eq h).right.right.right]
  · rw [formatYmdHmsUtc_eq hu] at hid'
    obtain rfl := Except.ok.inj hid'
    rw [hvalue, String.lt_iff_toList_lt, String.toList_ofList, String.toList_ofList]
    refine ⟨fun hlt => ?_, fun htu => idOf_lt htu hu⟩
    by_contra hge
    rcases eq_or_lt_of_le (not_lt.mp hge) with rfl | hut
    · exact lt_irrefl _ hlt
    · exact lt_asymm hlt (idOf_lt hut h)

/-- In May 2026, and a month later. -/
theorem minted_id_2026 : ∃ id later : SessionId,
    (formatYmdHmsUtc 1778284800 = Except.ok id.value ∧ SessionId.tryFrom id.value = Except.ok id)
      ∧ deriveStartedAtFromId (id.value ++ "-again") 1781443795
        = Archive.formatUnixSecsIso8601 1778284800
      ∧ formatYmdHmsUtc 1781443795 = Except.ok later.value ∧ id.value < later.value := by
  obtain ⟨id, hminted, hvalid, hderived, horder⟩ := minted_id (show 1778284800 < limit by decide)
  obtain ⟨later, hlater, -⟩ := minted_id (show 1781443795 < limit by decide)
  refine ⟨id, later, ⟨hminted, hvalid⟩, hderived "-again" 1781443795, hlater, ?_⟩
  exact (horder 1781443795 (by decide) later.value hlater).mpr (by decide)

end Timestamps
