import Sbagent.Text

/-!
# Floating-point numbers as text

A finite number is a whole number times a power of two. It is printed with a fixed number
of digits behind the point, rounded to the nearest such number and to the even one of two
that are as near. Nothing but digits, a point, a sign and the names of what is not finite
occurs in such a text (`mem_fixed`).
-/

namespace F64

/-- The whole number, of a power of two that `exponent` says. -/
def mantissa (x : F64) : ℕ :=
  x.magnitude % 2 ^ 52 + if x.magnitude / 2 ^ 52 = 0 then 0 else 2 ^ 52

/-- The power of two, counted from the least one. -/
def exponent (x : F64) : ℕ := max 1 (x.magnitude / 2 ^ 52)

/-- A quotient, rounded to the nearest whole number and half-way to the even one. -/
def roundHalfEven (n d : ℕ) : ℕ :=
  if 2 * (n % d) < d ∨ 2 * (n % d) = d ∧ n / d % 2 = 0 then n / d else n / d + 1

/-- Digits with zeros in front. -/
def zeroPadded (w n : ℕ) : List Char := (Nat.toDigits 10 n).leftpad w '0'

/-- A number without its sign, with that many digits behind the point. -/
def unsigned (digits : ℕ) (x : F64) : List Char :=
  if x.isNaN then ['N', 'a', 'N']
  else if x.isFinite then
    let scaled := roundHalfEven (x.mantissa * 10 ^ digits * 2 ^ x.exponent) (2 ^ 1075)
    Nat.toDigits 10 (scaled / 10 ^ digits)
      ++ if digits = 0 then [] else '.' :: zeroPadded digits (scaled % 10 ^ digits)
  else ['i', 'n', 'f']

/-- A number with that many digits behind the point. -/
def fixed (digits : ℕ) (x : F64) : List Char :=
  if x.sign && !x.isNaN then '-' :: x.unsigned digits else x.unsigned digits

/-- The same, with a sign in any case. -/
def fixedSigned (digits : ℕ) (x : F64) : List Char :=
  if x.isNaN then x.unsigned digits
  else (if x.sign then '-' else '+') :: x.unsigned digits

/-- The whole number below, as an unsigned integer of 64 bits: what is too small or too
large becomes the least or the greatest one. -/
def toU64 (x : F64) : ℕ :=
  if x.isNaN || x.sign then 0 else min (2 ^ 64 - 1) (x.mantissa * 2 ^ x.exponent / 2 ^ 1075)

/-- A digit, or another character of a number. -/
def isNumeral (c : Char) : Bool := c.isDigit || c ∈ ['.', '-', '+', 'N', 'a', 'i', 'n', 'f']

variable {digits w n : ℕ} {x : F64} {c : Char}

theorem isNumeral_of_mem_toDigits (h : c ∈ Nat.toDigits 10 n) : isNumeral c = true := by
  have hdigit := Nat.isDigit_of_mem_toDigits (by decide) (by decide) h
  unfold isNumeral
  rw [hdigit, Bool.true_or]

theorem isNumeral_of_mem_zeroPadded (h : c ∈ zeroPadded w n) : isNumeral c = true := by
  obtain hzero | hdigit := List.mem_append.mp h
  · rw [List.eq_of_mem_replicate hzero]
    rfl
  · exact isNumeral_of_mem_toDigits hdigit

theorem mem_unsigned (h : c ∈ x.unsigned digits) : isNumeral c = true := by
  unfold unsigned at h
  split at h
  case isTrue =>
    simp only [List.mem_cons, List.not_mem_nil, or_false] at h
    obtain rfl | rfl | rfl := h <;> rfl
  split at h
  case isTrue =>
    obtain hwhole | hpart := List.mem_append.mp h
    · exact isNumeral_of_mem_toDigits hwhole
    · split at hpart
      · cases hpart
      · obtain rfl | hpart := List.mem_cons.mp hpart
        · rfl
        · exact isNumeral_of_mem_zeroPadded hpart
  case isFalse =>
    simp only [List.mem_cons, List.not_mem_nil, or_false] at h
    obtain rfl | rfl | rfl := h <;> rfl

theorem mem_fixed (h : c ∈ x.fixed digits) : isNumeral c = true := by
  unfold fixed at h
  split_ifs at h
  · obtain rfl | h := List.mem_cons.mp h
    · rfl
    · exact mem_unsigned h
  · exact mem_unsigned h

theorem mem_fixedSigned (h : c ∈ x.fixedSigned digits) : isNumeral c = true := by
  unfold fixedSigned at h
  split_ifs at h
  · exact mem_unsigned h
  · obtain rfl | h := List.mem_cons.mp h
    · rfl
    · exact mem_unsigned h
  · obtain rfl | h := List.mem_cons.mp h
    · rfl
    · exact mem_unsigned h

end F64
