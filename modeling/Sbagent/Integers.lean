import Sbagent.Text

/-!
# Integers of a fixed width

An integer type has a least and a greatest value, and an operation whose result is
beyond them does not return: it panics. So an expression comes with the results of its
operations, all of which must be values of the type (`IntType.check`), and then it is
the expression over the integers.

A number is read from text digit by digit, with the overflow noticed on the way
(`IntType.parse`), and is printed with zeros in front (`padded`). What is printed with
a width that it does not exceed reads back (`digitsFrom_fixed`), and comes in the order
of the numbers (`fixed_lt`).
-/

/-- How a computation ends that does not return: it panics, or it fails with
messages. -/
inductive Stop where
  | panicked
  | failed (messages : List String)
  deriving DecidableEq

/-- A computation that may panic or fail. -/
abbrev Checked (α : Type) : Type := Except Stop α

/-- The computation panics. -/
def Panics {α : Type} (x : Checked α) : Prop := x = Except.error Stop.panicked

section Panics

variable {α β : Type}

/-- A result is no panic. -/
theorem not_panics_ok (a : α) : ¬ Panics (Except.ok a : Checked α) := nofun

/-- Neither is an error. -/
theorem not_panics_failed (messages : List String) :
    ¬ Panics (Except.error (Stop.failed messages) : Checked α) := nofun

/-- Steps one after the other panic in the first, or in the second after the first. -/
theorem panics_bind {x : Checked α} {f : α → Checked β} :
    Panics (x >>= f) ↔ Panics x ∨ ∃ a, x = Except.ok a ∧ Panics (f a) := by
  cases x with
  | ok a =>
    show Panics (f a) ↔ _
    constructor
    · exact fun h => Or.inr ⟨a, rfl, h⟩
    · rintro (h | ⟨b, hb, h⟩)
      · exact absurd h (not_panics_ok a)
      · rwa [Except.ok.inj hb]
  | error e =>
    constructor
    · exact fun h => Or.inl (congrArg Except.error (Except.error.inj h))
    · rintro (h | ⟨b, hb, h⟩)
      · exact congrArg Except.error (Except.error.inj h)
      · cases hb

/-- Two computations succeed one after the other. -/
theorem checked_bind_ok_iff {x : Checked α} {f : α → Checked β} {b : β} :
    (x >>= f) = Except.ok b ↔ ∃ a, x = Except.ok a ∧ f a = Except.ok b := by
  cases x with
  | ok a => simp [bind, Except.bind]
  | error e => simp [bind, Except.bind]

end Panics

/-- The values of an integer type. -/
structure IntType where
  least : ℤ
  greatest : ℤ

namespace IntType

/-- Signed, 32 bits. -/
def i32 : IntType := ⟨-2 ^ 31, 2 ^ 31 - 1⟩
def i64 : IntType := ⟨-2 ^ 63, 2 ^ 63 - 1⟩
def u32 : IntType := ⟨0, 2 ^ 32 - 1⟩
def u64 : IntType := ⟨0, 2 ^ 64 - 1⟩

/-- Whether a number is a value of the type. -/
def Holds (T : IntType) (x : ℤ) : Prop := T.least ≤ x ∧ x ≤ T.greatest

instance (T : IntType) (x : ℤ) : Decidable (T.Holds x) :=
  inferInstanceAs (Decidable (_ ∧ _))

theorem holds_i32_iff {x : ℤ} : i32.Holds x ↔ -2 ^ 31 ≤ x ∧ x ≤ 2 ^ 31 - 1 := Iff.rfl

theorem holds_i64_iff {x : ℤ} : i64.Holds x ↔ -2 ^ 63 ≤ x ∧ x ≤ 2 ^ 63 - 1 := Iff.rfl

theorem holds_u32_iff {x : ℤ} : u32.Holds x ↔ 0 ≤ x ∧ x ≤ 2 ^ 32 - 1 := Iff.rfl

theorem holds_u64_iff {x : ℤ} : u64.Holds x ↔ 0 ≤ x ∧ x ≤ 2 ^ 64 - 1 := Iff.rfl

/-- The results of operations, in order, are values of the type. -/
def check (T : IntType) (results : List ℤ) : Checked Unit :=
  if ∀ x ∈ results, T.Holds x then Except.ok () else Except.error Stop.panicked

/-- A number as a value of the type, when it is cast to it. -/
def cast (T : IntType) (x : ℤ) : ℤ := (x - T.least) % (T.greatest - T.least + 1) + T.least

/-- The value of the type that is nearest to a number. -/
def saturate (T : IntType) (x : ℤ) : ℤ := max T.least (min T.greatest x)

/-- A number that fits is cast to itself. -/
theorem cast_of_holds {T : IntType} {x : ℤ} (h : T.Holds x) : T.cast x = x := by
  obtain ⟨hmin, hmax⟩ := h
  unfold cast
  rw [Int.emod_eq_of_lt (by omega) (by omega)]
  omega

/-- And is not cut off. -/
theorem saturate_of_holds {T : IntType} {x : ℤ} (h : T.Holds x) : T.saturate x = x := by
  obtain ⟨hmin, hmax⟩ := h
  unfold saturate
  omega

/-- Results that fit pass. -/
theorem check_of_holds {T : IntType} {results : List ℤ} (h : ∀ x ∈ results, T.Holds x) :
    T.check results = Except.ok () :=
  if_pos h

/-- And what comes after goes on. -/
theorem check_bind {α : Type} {T : IntType} {results : List ℤ} {f : Unit → Checked α}
    (h : results.Forall T.Holds) : (T.check results >>= f) = f () := by
  rw [check_of_holds (List.forall_iff_forall_mem.mp h)]
  rfl

/-- A result that does not fit is a panic. -/
theorem check_of_not {T : IntType} {results : List ℤ} (h : ¬ ∀ x ∈ results, T.Holds x) :
    T.check results = Except.error Stop.panicked :=
  if_neg h

/-- There is a panic exactly when a result does not fit. -/
theorem panics_check {T : IntType} {results : List ℤ} :
    Panics (T.check results) ↔ ¬ results.Forall T.Holds := by
  rw [List.forall_iff_forall_mem]
  by_cases h : ∀ x ∈ results, T.Holds x
  · rw [check_of_holds h]
    exact iff_of_false (not_panics_ok ()) (not_not_intro h)
  · rw [check_of_not h]
    exact iff_of_true rfl h

/-- After operations whose results are checked, only what comes then can panic. -/
theorem not_panics_check_bind {α : Type} {T : IntType} {results : List ℤ}
    {f : Unit → Checked α} :
    ¬ Panics (T.check results >>= f) ↔ results.Forall T.Holds ∧ ¬ Panics (f ()) := by
  rw [panics_bind, panics_check]
  constructor
  · intro h
    have hholds := not_not.mp fun hnot => h (Or.inl hnot)
    exact ⟨hholds, fun hpanics =>
      h (Or.inr ⟨(), check_of_holds (List.forall_iff_forall_mem.mp hholds), hpanics⟩)⟩
  · rintro ⟨hholds, hnot⟩ (hfail | ⟨_, -, hpanics⟩)
    · exact hfail hholds
    · exact hnot hpanics

end IntType

/-! ## Reading a number -/

/-- Why a text is not a number of a type. -/
inductive ParseIntError where
  | empty
  | invalidDigit
  | posOverflow
  | negOverflow
  deriving DecidableEq

/-- The error in a message. -/
def ParseIntError.display : ParseIntError → String
  | empty => "cannot parse integer from empty string"
  | invalidDigit => "invalid digit found in string"
  | posOverflow => "number too large to fit in target type"
  | negOverflow => "number too small to fit in target type"

/-- The value of a digit. -/
def digitValue (c : Char) : ℤ := (c.toNat : ℤ) - 48

namespace IntType

/-- The number that digits are, read after other digits. -/
def digitsFrom (T : IntType) (negative : Bool) : ℤ → List Char → Except ParseIntError ℤ
  | n, [] => Except.ok n
  | n, c :: cs =>
    if Text.isAsciiDigit c then
      let next := if negative then n * 10 - digitValue c else n * 10 + digitValue c
      if T.Holds (n * 10) ∧ T.Holds next then T.digitsFrom negative next cs
      else Except.error (if negative then ParseIntError.negOverflow
        else ParseIntError.posOverflow)
    else Except.error ParseIntError.invalidDigit

/-- The number that a text is, which may begin with a sign. -/
def parse (T : IntType) : List Char → Except ParseIntError ℤ
  | [] => Except.error ParseIntError.empty
  | [c] => if c = '+' ∨ c = '-' then Except.error ParseIntError.invalidDigit
    else T.digitsFrom false 0 [c]
  | '+' :: cs => T.digitsFrom false 0 cs
  | '-' :: cs => if T.least < 0 then T.digitsFrom true 0 cs else T.digitsFrom false 0 ('-' :: cs)
  | cs => T.digitsFrom false 0 cs

/-- A digit is worth 0 to 9. -/
theorem digitValue_bounds {c : Char} (h : Text.isAsciiDigit c = true) :
    0 ≤ digitValue c ∧ digitValue c ≤ 9 := by
  unfold Text.isAsciiDigit at h
  rw [Bool.and_eq_true, decide_eq_true_eq, decide_eq_true_eq] at h
  have hlow : 48 ≤ c.toNat := h.left
  have hhigh : c.toNat ≤ 57 := h.right
  unfold digitValue
  omega

/-- What is read of digits is a value of the type, and no longer than the digits. -/
theorem digitsFrom_bounds {T : IntType} {negative : Bool} {a n : ℤ} {cs : List Char}
    (h : T.digitsFrom negative a cs = Except.ok n) (ha : T.Holds a) :
    T.Holds n ∧ |n| + 1 ≤ (|a| + 1) * 10 ^ cs.length := by
  induction cs generalizing a with
  | nil =>
    obtain rfl : a = n := Except.ok.inj h
    exact ⟨ha, by rw [List.length_nil, pow_zero, mul_one]⟩
  | cons c cs ih =>
    unfold digitsFrom at h
    by_cases hdigit : Text.isAsciiDigit c = true
    · obtain ⟨hlow, hhigh⟩ := digitValue_bounds hdigit
      rw [if_pos hdigit] at h
      dsimp only at h
      by_cases hholds : T.Holds (a * 10)
          ∧ T.Holds (if negative then a * 10 - digitValue c else a * 10 + digitValue c)
      · rw [if_pos hholds] at h
        obtain ⟨hn, hle⟩ := ih h hholds.right
        -- one more digit makes the number at most ten times as large
        have hnext : |if negative then a * 10 - digitValue c else a * 10 + digitValue c| + 1
            ≤ (|a| + 1) * 10 := by
          have habs := abs_cases a
          split_ifs
          · have hnext := abs_cases (a * 10 - digitValue c)
            omega
          · have hnext := abs_cases (a * 10 + digitValue c)
            omega
        have hpow : (0 : ℤ) ≤ 10 ^ cs.length := pow_nonneg (by decide) _
        refine ⟨hn, hle.trans ?_⟩
        calc _ ≤ (|a| + 1) * 10 * 10 ^ cs.length := mul_le_mul_of_nonneg_right hnext hpow
          _ = (|a| + 1) * 10 ^ (c :: cs).length := by
            rw [List.length_cons, pow_succ]
            ring
      · rw [if_neg hholds] at h
        cases h
    · rw [if_neg hdigit] at h
      cases h

/-- **A number that was read** is a value of the type, and has no more digits than the
text has characters. -/
theorem parse_bounds {T : IntType} {cs : List Char} {n : ℤ}
    (h : T.parse cs = Except.ok n) (hzero : T.Holds 0) :
    T.Holds n ∧ |n| < 10 ^ cs.length := by
  have hdigits : ∀ {negative : Bool} {ds : List Char}, ds.length ≤ cs.length →
      T.digitsFrom negative 0 ds = Except.ok n → T.Holds n ∧ |n| < 10 ^ cs.length := by
    intro negative ds hlength hread
    obtain ⟨hholds, hle⟩ := digitsFrom_bounds hread hzero
    have hpow : (10 : ℤ) ^ ds.length ≤ 10 ^ cs.length :=
      pow_le_pow_right₀ (by decide) hlength
    rw [abs_zero, zero_add, one_mul] at hle
    exact ⟨hholds, by omega⟩
  unfold parse at h
  split at h
  · cases h
  · split_ifs at h
    exact hdigits le_rfl h
  · exact hdigits (Nat.le_succ _) h
  · split_ifs at h
    · exact hdigits (Nat.le_succ _) h
    · exact hdigits le_rfl h
  · exact hdigits le_rfl h

end IntType

/-! ## Printing a number -/

namespace Decimal

/-- A number in decimal, with zeros in front up to a width. -/
def padded (w : ℕ) (n : ℤ) : List Char :=
  if n < 0 then '-' :: (Nat.toDigits 10 n.natAbs).leftpad (w - 1) '0'
  else (Nat.toDigits 10 n.toNat).leftpad w '0'

/-- The last digits of a number, as many as the width. -/
def fixed : ℕ → ℕ → List Char
  | 0, _ => []
  | w + 1, n => fixed w (n / 10) ++ [(n % 10).digitChar]

@[simp] theorem length_fixed (w n : ℕ) : (fixed w n).length = w := by
  induction w generalizing n with
  | zero => rfl
  | succ w ih => rw [fixed, List.length_append, ih, List.length_singleton]

/-- Zero is as many zeros. -/
theorem fixed_zero (w : ℕ) : fixed w 0 = List.replicate w '0' := by
  induction w with
  | zero => rfl
  | succ w ih =>
    rw [fixed, Nat.zero_div, ih, List.replicate_succ']
    rfl

/-- Padding leaves the last character where it is. -/
theorem leftpad_concat {w : ℕ} {c : Char} {cs : List Char} (d : Char) :
    (cs ++ [d]).leftpad (w + 1) c = cs.leftpad w c ++ [d] := by
  unfold List.leftpad
  rw [List.length_append, List.length_singleton, Nat.add_sub_add_right, List.append_assoc]

/-- A number that fits a width is its digits, padded. -/
theorem leftpad_toDigits {w n : ℕ} (hw : 0 < w) (hn : n < 10 ^ w) :
    (Nat.toDigits 10 n).leftpad w '0' = fixed w n := by
  induction w generalizing n with
  | zero => exact absurd hw (lt_irrefl 0)
  | succ w ih =>
    by_cases hlt : n < 10
    · rw [Nat.toDigits_of_lt_base hlt, fixed, Nat.div_eq_of_lt hlt, Nat.mod_eq_of_lt hlt,
        fixed_zero]
      rfl
    · have hle : 10 ≤ n := Nat.le_of_not_lt hlt
      have hpos : 0 < w := by
        rcases Nat.eq_zero_or_pos w with rfl | hpos
        · exact absurd hn (by omega)
        · exact hpos
      have hdiv : n / 10 < 10 ^ w := by
        rw [Nat.div_lt_iff_lt_mul (by decide)]
        exact hn
      rw [Nat.toDigits_of_base_le (by decide) hle, leftpad_concat, ih hpos hdiv, fixed]

/-- **A number that does not exceed the width** is printed with as many digits. -/
theorem padded_eq_fixed {w n : ℕ} (hw : 0 < w) (hn : n < 10 ^ w) :
    padded w (n : ℤ) = fixed w n := by
  unfold padded
  rw [if_neg (by omega), Int.toNat_natCast]
  exact leftpad_toDigits hw hn

/-- The code of a digit. -/
theorem digitChar_toNat {d : ℕ} (h : d < 10) : d.digitChar.toNat = 48 + d := by
  interval_cases d <;> rfl

/-- A digit is one. -/
theorem isAsciiDigit_digitChar {d : ℕ} (h : d < 10) :
    Text.isAsciiDigit d.digitChar = true := by
  interval_cases d <;> rfl

/-- A number of fixed width has only digits. -/
theorem isAsciiDigit_of_mem_fixed {w n : ℕ} {c : Char} (h : c ∈ fixed w n) :
    Text.isAsciiDigit c = true := by
  induction w generalizing n with
  | zero => exact absurd h List.not_mem_nil
  | succ w ih =>
    obtain h | h := List.mem_append.mp h
    · exact ih h
    · rw [List.mem_singleton.mp h]
      exact isAsciiDigit_digitChar (Nat.mod_lt n (by decide))

/-- One more digit is read if the number still fits. -/
theorem digitsFrom_cons {T : IntType} {negative : Bool} {n : ℤ} {c : Char} {cs : List Char} :
    T.digitsFrom negative n (c :: cs) = if Text.isAsciiDigit c then
        if T.Holds (n * 10)
            ∧ T.Holds (if negative then n * 10 - digitValue c else n * 10 + digitValue c) then
          T.digitsFrom negative
            (if negative then n * 10 - digitValue c else n * 10 + digitValue c) cs
        else Except.error (if negative then ParseIntError.negOverflow
          else ParseIntError.posOverflow)
      else Except.error ParseIntError.invalidDigit := rfl

/-- Digits are read one after the other. -/
theorem digitsFrom_append {T : IntType} {negative : Bool} {n m : ℤ} {cs ds : List Char}
    (h : T.digitsFrom negative n cs = Except.ok m) :
    T.digitsFrom negative n (cs ++ ds) = T.digitsFrom negative m ds := by
  induction cs generalizing n with
  | nil =>
    obtain rfl : n = m := Except.ok.inj h
    rfl
  | cons c cs ih =>
    rw [digitsFrom_cons] at h
    rw [List.cons_append, digitsFrom_cons]
    split_ifs at h ⊢ with hdigit hsign hholds hholds
    · exact ih h
    · exact ih h

/-- **What is printed with a width reads back.** -/
theorem digitsFrom_fixed {T : IntType} {w n : ℕ} (hmin : T.least ≤ 0) (hmax : 10 ^ w ≤ T.greatest)
    (hn : n < 10 ^ w) : T.digitsFrom false 0 (fixed w n) = Except.ok (n : ℤ) := by
  induction w generalizing n with
  | zero =>
    obtain rfl : n = 0 := by simpa using hn
    rfl
  | succ w ih =>
    have hpow : (10 : ℤ) ^ (w + 1) = 10 ^ w * 10 := pow_succ 10 w
    have hpos : (0 : ℤ) < 10 ^ w := by positivity
    have hn' : n < 10 ^ w * 10 := by rwa [pow_succ] at hn
    have hread := ih (by omega) (show n / 10 < 10 ^ w by omega)
    rw [fixed, digitsFrom_append hread]
    have hvalue : digitValue (n % 10).digitChar = (n % 10 : ℕ) := by
      unfold digitValue
      rw [digitChar_toNat (Nat.mod_lt n (by decide))]
      omega
    have hcast : (n : ℤ) < 10 ^ w * 10 := by exact_mod_cast hn'
    rw [digitsFrom_cons, if_pos (isAsciiDigit_digitChar (Nat.mod_lt n (by decide))),
      if_neg Bool.false_ne_true, hvalue, if_pos (by unfold IntType.Holds; omega)]
    exact congrArg Except.ok (by omega)

/-- A text that begins with a digit has no sign. -/
theorem parse_of_digit {T : IntType} {c : Char} {cs : List Char}
    (h : Text.isAsciiDigit c = true) :
    T.parse (c :: cs) = T.digitsFrom false 0 (c :: cs) := by
  unfold IntType.parse
  split
  case h_1 heq => cases heq
  case h_2 d heq =>
    obtain ⟨rfl, rfl⟩ := List.cons.inj heq
    refine if_neg ?_
    rintro (rfl | rfl)
    · exact absurd h (by decide)
    · exact absurd h (by decide)
  case h_3 heq =>
    obtain ⟨rfl, rfl⟩ := List.cons.inj heq
    exact absurd h (by decide)
  case h_4 heq =>
    obtain ⟨rfl, rfl⟩ := List.cons.inj heq
    exact absurd h (by decide)
  case h_5 => rfl

/-- A number of fixed width is read back. -/
theorem parse_fixed {T : IntType} {w n : ℕ} (hw : 0 < w) (hmin : T.least ≤ 0)
    (hmax : 10 ^ w ≤ T.greatest) (hn : n < 10 ^ w) : T.parse (fixed w n) = Except.ok (n : ℤ) := by
  have hne : fixed w n ≠ [] := by
    intro h
    have hlength := length_fixed w n
    rw [h] at hlength
    exact absurd hlength (Nat.ne_of_lt hw)
  obtain ⟨c, cs, hcs⟩ := List.exists_cons_of_ne_nil hne
  have hread := digitsFrom_fixed hmin hmax hn
  rw [hcs] at hread ⊢
  rw [parse_of_digit (isAsciiDigit_of_mem_fixed (hcs ▸ List.mem_cons_self)), hread]

/-! ## The order of what is printed -/

/-- Of two texts of one length, the order decides whatever follows. -/
theorem lt_append_of_lt {a b : List Char} (x y : List Char) (h : a < b)
    (hlength : a.length = b.length) : a ++ x < b ++ y := by
  induction a generalizing b with
  | nil =>
    obtain rfl : b = [] := List.length_eq_zero_iff.mp hlength.symm
    exact absurd h (lt_irrefl _)
  | cons c a ih =>
    cases b with
    | nil => cases hlength
    | cons d b =>
      rw [List.cons_append, List.cons_append, List.cons_lt_cons_iff]
      obtain hcd | ⟨rfl, hab⟩ := List.cons_lt_cons_iff.mp h
      · exact Or.inl hcd
      · exact Or.inr ⟨rfl, ih hab (Nat.succ.inj hlength)⟩

/-- **Numbers of one width come in their order.** -/
theorem fixed_lt {w a b : ℕ} (hab : a < b) (hb : b < 10 ^ w) : fixed w a < fixed w b := by
  induction w generalizing a b with
  | zero => exact absurd hab (by omega)
  | succ w ih =>
    rw [pow_succ] at hb
    unfold fixed
    by_cases hlt : a / 10 < b / 10
    · exact lt_append_of_lt _ _ (ih hlt (by omega)) (by rw [length_fixed, length_fixed])
    · rw [show a / 10 = b / 10 by omega]
      refine List.append_left_lt (List.cons_lt_cons_iff.mpr (Or.inl ?_))
      have hdigits : a % 10 < b % 10 ∧ b % 10 < 10 := by omega
      obtain ⟨hlow, hhigh⟩ := hdigits
      show (a % 10).digitChar.toNat < (b % 10).digitChar.toNat
      rw [digitChar_toNat (hlow.trans hhigh), digitChar_toNat hhigh]
      omega

end Decimal
