import Mathlib

/-!
# Bytes that are shown as text

Bytes are shown as the characters that they encode. Bytes that encode none are shown as
replacement characters, one for each beginning of a character that does not go on as it
should. A byte at a time is taken, with what has been begun before it. Since a line feed
does not occur within a character, a line is shown as the same text whatever stands before
and behind it (`decode_append_feed`).
-/

namespace Utf8

/-- A character that has been begun: the bits so far, the bytes that may be the next one,
and how many follow that. It is not one that a single byte encodes. -/
structure Begun where
  value : ℕ
  least : ℕ
  greatest : ℕ
  more : ℕ
  trail : 0x80 ≤ least
  wide : 0x80 ≤ (value * 64 + (least - 0x80)) * 64 ^ more

/-- What is shown for bytes that encode no character. -/
def replacement : Char := '\uFFFD'

/-- The first of several bytes of a character. -/
def lead (b : ℕ) : Option Begun :=
  if h : 0xC2 ≤ b ∧ b ≤ 0xDF then
    some ⟨b - 0xC0, 0x80, 0xBF, 0, le_refl _, by omega⟩
  else if b = 0xE0 then some ⟨0, 0xA0, 0xBF, 1, by decide, by decide⟩
  else if h : 0xE1 ≤ b ∧ b ≤ 0xEF then
    some ⟨b - 0xE0, 0x80, if b = 0xED then 0x9F else 0xBF, 1, le_refl _, by omega⟩
  else if b = 0xF0 then some ⟨0, 0x90, 0xBF, 2, by decide, by decide⟩
  else if h : 0xF1 ≤ b ∧ b ≤ 0xF4 then
    some ⟨b - 0xF0, 0x80, if b = 0xF4 then 0x8F else 0xBF, 2, le_refl _, by omega⟩
  else none

/-- A byte that begins something. -/
def start (b : ℕ) : List Char × Option Begun :=
  if b < 0x80 then ([Char.ofNat b], none)
  else
    match lead b with
    | none => ([replacement], none)
    | some p => ([], some p)

theorem Begun.wide_next (p : Begun) {b : ℕ} (hb : p.least ≤ b) (hmore : p.more ≠ 0) :
    0x80 ≤ ((p.value * 64 + (b - 0x80)) * 64 + (0x80 - 0x80)) * 64 ^ (p.more - 1) := by
  have hpow : 64 ^ p.more = 64 * 64 ^ (p.more - 1) := by
    rw [← pow_succ', Nat.sub_add_cancel (Nat.pos_of_ne_zero hmore)]
  calc 0x80 ≤ (p.value * 64 + (p.least - 0x80)) * 64 ^ p.more := p.wide
    _ ≤ (p.value * 64 + (b - 0x80)) * 64 ^ p.more := by
      exact Nat.mul_le_mul_right _ (by omega)
    _ = ((p.value * 64 + (b - 0x80)) * 64 + (0x80 - 0x80)) * 64 ^ (p.more - 1) := by
      rw [hpow, Nat.sub_self, Nat.add_zero, Nat.mul_assoc]

/-- The next byte: what is shown, and what has been begun then. -/
def feed : Option Begun → ℕ → List Char × Option Begun
  | none, b => start b
  | some p, b =>
    if h : p.least ≤ b ∧ b ≤ p.greatest then
      if hmore : p.more = 0 then ([Char.ofNat (p.value * 64 + (b - 0x80))], none)
      else ([], some ⟨p.value * 64 + (b - 0x80), 0x80, 0xBF, p.more - 1, le_refl _,
        p.wide_next h.left hmore⟩)
    else (replacement :: (start b).1, (start b).2)

/-- What is shown for a character that does not go on. -/
def broken : Option Begun → List Char
  | none => []
  | some _ => [replacement]

def decodeFrom (p : Option Begun) : List UInt8 → List Char
  | [] => broken p
  | b :: bs => (feed p b.toNat).1 ++ decodeFrom (feed p b.toNat).2 bs

/-- The text that bytes are shown as. -/
def decode (bs : List UInt8) : List Char := decodeFrom none bs

variable {p : Option Begun} {b : ℕ} {bs : List UInt8}

/-- A byte below the ones of several is a character, and ends what has been begun. -/
theorem feed_of_lt (p : Option Begun) (h : b < 0x80) :
    feed p b = (broken p ++ [Char.ofNat b], none) := by
  have hstart : start b = ([Char.ofNat b], none) := by rw [start, if_pos h]
  cases p with
  | none => exact hstart
  | some p =>
    have htrail := p.trail
    rw [feed, dif_neg (by omega), hstart]
    rfl

/-- **A line feed separates what is before it from what is behind it.** -/
theorem decodeFrom_append_feed (p : Option Begun) (as bs : List UInt8) :
    decodeFrom p (as ++ 10 :: bs) = decodeFrom p as ++ '\n' :: decode bs := by
  induction as generalizing p with
  | nil =>
    show (feed p 10).1 ++ decodeFrom (feed p 10).2 bs = broken p ++ '\n' :: decode bs
    rw [feed_of_lt p (by decide), List.append_assoc]
    rfl
  | cons a as ih => rw [List.cons_append, decodeFrom, decodeFrom, ih, List.append_assoc]

theorem decode_append_feed (as bs : List UInt8) :
    decode (as ++ 10 :: bs) = decode as ++ '\n' :: decode bs :=
  decodeFrom_append_feed none as bs

theorem ofNat_ne_feed {n : ℕ} (h : n ≠ 10) : Char.ofNat n ≠ '\n' := by
  intro heq
  have hnat := congrArg Char.toNat heq
  unfold Char.ofNat at hnat
  split at hnat
  · exact h hnat
  · cases hnat

theorem feed_notMem_start (h : b ≠ 10) : '\n' ∉ (start b).1 := by
  unfold start
  split_ifs with hlt
  · rw [List.mem_singleton]
    exact (ofNat_ne_feed h).symm
  · split
    · decide
    · exact List.not_mem_nil

theorem feed_notMem_feed (p : Option Begun) (h : b ≠ 10) : '\n' ∉ (feed p b).1 := by
  cases p with
  | none => exact feed_notMem_start h
  | some p =>
    rw [feed]
    split_ifs with hb hmore
    · have hwide := p.wide
      rw [hmore, pow_zero, Nat.mul_one] at hwide
      rw [List.mem_singleton]
      exact (ofNat_ne_feed (by omega)).symm
    · exact List.not_mem_nil
    · exact fun hmem => (List.mem_cons.mp hmem).elim (by decide) (feed_notMem_start h)

/-- **A line is shown as one.** -/
theorem feed_notMem_decodeFrom (p : Option Begun) (h : 10 ∉ bs) : '\n' ∉ decodeFrom p bs := by
  induction bs generalizing p with
  | nil =>
    cases p with
    | none => exact List.not_mem_nil
    | some p => exact fun hmem => absurd (List.mem_singleton.mp hmem) (by decide)
  | cons b bs ih =>
    obtain ⟨hb, hbs⟩ := not_or.mp (List.mem_cons.not.mp h)
    have hnat : b.toNat ≠ 10 := fun heq => hb (UInt8.toNat_inj.mp heq).symm
    exact fun hmem => (List.mem_append.mp hmem).elim (feed_notMem_feed p hnat) (ih _ hbs)

theorem feed_notMem_decode (h : 10 ∉ bs) : '\n' ∉ decode bs := feed_notMem_decodeFrom none h

/-! ## What text is encoded as -/

/-- The last bytes of a character, with six bits of its number each. -/
def trailing : ℕ → ℕ → List UInt8
  | 0, _ => []
  | n + 1, v => UInt8.ofNat (v / 64 ^ n % 64 + 0x80) :: trailing n v

/-- A character that has been begun goes on with its last bytes. -/
theorem decodeFrom_trailing {n v : ℕ} (q : Begun) (hmore : q.more = n)
    (hvalue : q.value = v / 64 ^ (n + 1)) (hleast : q.least ≤ v / 64 ^ n % 64 + 0x80)
    (hgreatest : v / 64 ^ n % 64 + 0x80 ≤ q.greatest) :
    decodeFrom (some q) (trailing (n + 1) v ++ bs) = Char.ofNat v :: decode bs := by
  induction n generalizing q with
  | zero =>
    have hbyte : (UInt8.ofNat (v / 64 ^ 0 % 64 + 0x80)).toNat = v % 64 + 0x80 := by
      rw [UInt8.toNat_ofNat', pow_zero, Nat.div_one]
      omega
    rw [pow_zero, Nat.div_one] at hleast hgreatest
    have hnumber : q.value * 64 + (v % 64 + 0x80 - 0x80) = v := by omega
    rw [trailing, List.cons_append, decodeFrom, hbyte, feed, dif_pos ⟨hleast, hgreatest⟩,
      dif_pos hmore, hnumber]
    rfl
  | succ n ih =>
    have hbyte : (UInt8.ofNat (v / 64 ^ (n + 1) % 64 + 0x80)).toNat
        = v / 64 ^ (n + 1) % 64 + 0x80 := by
      rw [UInt8.toNat_ofNat']
      omega
    have hlast : v / 64 ^ n % 64 ≤ 63 := Nat.le_of_lt_succ (Nat.mod_lt _ (by decide))
    have hdiv : v / 64 ^ (n + 1 + 1) = v / 64 ^ (n + 1) / 64 := by
      rw [pow_succ, Nat.div_div_eq_div_mul]
    rw [trailing, List.cons_append, decodeFrom, hbyte, feed, dif_pos ⟨hleast, hgreatest⟩,
      dif_neg (by omega)]
    refine ih _ ?_ ?_ ?_ ?_
    · exact (congrArg (· - 1) hmore).trans (Nat.add_sub_cancel n 1)
    · show q.value * 64 + (v / 64 ^ (n + 1) % 64 + 0x80 - 0x80) = v / 64 ^ (n + 1)
      omega
    · exact Nat.le_add_left _ _
    · show v / 64 ^ n % 64 + 0x80 ≤ 0xBF
      omega

/-- A first byte and the bytes that go on with it. -/
theorem decode_lead_trailing {b n v : ℕ} {q : Begun} (hb : 0x80 ≤ b ∧ b < 0x100)
    (hlead : lead b = some q) (hmore : q.more = n) (hvalue : q.value = v / 64 ^ (n + 1))
    (hleast : q.least ≤ v / 64 ^ n % 64 + 0x80)
    (hgreatest : v / 64 ^ n % 64 + 0x80 ≤ q.greatest) :
    decode (UInt8.ofNat b :: trailing (n + 1) v ++ bs) = Char.ofNat v :: decode bs := by
  have hbyte : (UInt8.ofNat b).toNat = b := by
    rw [UInt8.toNat_ofNat']
    omega
  have hstart : start b = ([], some q) := by
    unfold start
    rw [if_neg (by omega), hlead]
  rw [decode, List.cons_append, decodeFrom, hbyte, feed, hstart]
  exact decodeFrom_trailing q hmore hvalue hleast hgreatest

theorem lead_of_three {b : ℕ} (h : 0xE0 ≤ b ∧ b ≤ 0xEF) :
    ∃ q, lead b = some q ∧ q.more = 1 ∧ q.value = b - 0xE0
      ∧ q.least = (if b = 0xE0 then 0xA0 else 0x80)
      ∧ q.greatest = (if b = 0xED then 0x9F else 0xBF) := by
  unfold lead
  rw [dif_neg (by omega)]
  by_cases hfirst : b = 0xE0
  · rw [if_pos hfirst]
    refine ⟨_, rfl, rfl, by rw [hfirst], (if_pos hfirst).symm, (if_neg ?_).symm⟩
    omega
  · rw [if_neg hfirst, dif_pos (by omega)]
    exact ⟨_, rfl, rfl, rfl, (if_neg hfirst).symm, rfl⟩

theorem lead_of_four {b : ℕ} (h : 0xF0 ≤ b ∧ b ≤ 0xF4) :
    ∃ q, lead b = some q ∧ q.more = 2 ∧ q.value = b - 0xF0
      ∧ q.least = (if b = 0xF0 then 0x90 else 0x80)
      ∧ q.greatest = (if b = 0xF4 then 0x8F else 0xBF) := by
  unfold lead
  rw [dif_neg (by omega), if_neg (by omega), dif_neg (by omega)]
  by_cases hfirst : b = 0xF0
  · rw [if_pos hfirst]
    refine ⟨_, rfl, rfl, by rw [hfirst], (if_pos hfirst).symm, (if_neg ?_).symm⟩
    omega
  · rw [if_neg hfirst, dif_pos (by omega)]
    exact ⟨_, rfl, rfl, rfl, (if_neg hfirst).symm, rfl⟩

/-- The bytes of a character are shown as the character. -/
theorem decode_utf8EncodeChar_append (c : Char) (bs : List UInt8) :
    decode (String.utf8EncodeChar c ++ bs) = c :: decode bs := by
  obtain ⟨v, hv⟩ : ∃ v, v = c.val.toNat := ⟨_, rfl⟩
  have hchar : Char.ofNat v = c := by
    rw [hv]
    exact Char.ofNat_toNat c
  have hvalid : v < 0xD800 ∨ 0xDFFF < v ∧ v < 0x110000 := by
    rw [hv]
    exact c.valid
  unfold String.utf8EncodeChar
  rw [← hv]
  dsimp only
  -- by the number of bytes
  split_ifs with hone htwo hthree
  · have hbyte : (UInt8.ofNat v).toNat = v := by
      rw [UInt8.toNat_ofNat']
      omega
    rw [decode, List.cons_append, decodeFrom, hbyte, feed_of_lt none (by omega), hchar]
    rfl
  · have hlead : 0xC2 ≤ v / 64 % 0x20 + 0xC0 ∧ v / 64 % 0x20 + 0xC0 ≤ 0xDF := by omega
    rw [show [UInt8.ofNat (v % 0x40 + 0x80)] = trailing 1 v by simp [trailing],
      decode_lead_trailing (by omega) (dif_pos hlead) rfl, hchar]
    all_goals
      simp only [pow_zero, Nat.div_one, zero_add, pow_one]
      omega
  · rw [show [UInt8.ofNat (v / 64 % 0x40 + 0x80), UInt8.ofNat (v % 0x40 + 0x80)]
      = trailing 2 v by simp [trailing]]
    obtain ⟨q, hq, hmore, hvalue, hleast, hgreatest⟩ :=
      lead_of_three (b := v / 4096 % 0x10 + 0xE0) (by omega)
    rw [decode_lead_trailing (by omega) hq hmore, hchar]
    · rw [hvalue]
      omega
    · rw [hleast, pow_one]
      split_ifs <;> omega
    · rw [hgreatest, pow_one]
      split_ifs <;> omega
  · rw [show [UInt8.ofNat (v / 4096 % 0x40 + 0x80), UInt8.ofNat (v / 64 % 0x40 + 0x80),
      UInt8.ofNat (v % 0x40 + 0x80)] = trailing 3 v by simp [trailing]]
    obtain ⟨q, hq, hmore, hvalue, hleast, hgreatest⟩ :=
      lead_of_four (b := v / 262144 % 0x08 + 0xF0) (by omega)
    rw [decode_lead_trailing (by omega) hq hmore, hchar]
    · rw [hvalue]
      omega
    · rw [hleast]
      split_ifs <;> omega
    · rw [hgreatest]
      split_ifs <;> omega

/-- **Text is shown as it is.** -/
theorem decode_flatMap (cs : List Char) : decode (cs.flatMap String.utf8EncodeChar) = cs := by
  induction cs with
  | nil => rfl
  | cons c cs ih => rw [List.flatMap_cons, decode_utf8EncodeChar_append, ih]

end Utf8
