import Sbagent.Fallible
import Sbagent.Integers

/-!
# Files with the id of a run

The id of a run stands in a file in decimal, with a line feed behind it. Reading the file
drops white space around the number, and fails if what is left is not a number of 64 bits.
What was written is read back (`readRunIdFile_runIdText`). What a write that was cut off has
left may be read too, as another number.
-/

open Decimal

namespace IntType

variable {T : IntType} {negative : Bool} {n : ℕ}

/-- A number with a sign in front of its digits. -/
def signed (negative : Bool) (n : ℕ) : ℤ := if negative then -(n : ℤ) else n

theorem digitValue_digitChar {d : ℕ} (h : d < 10) : digitValue d.digitChar = d := by
  unfold digitValue
  rw [digitChar_toNat h]
  omega

/-- One more digit. -/
theorem digitsFrom_digitChar {d : ℕ} (hd : d < 10) (hzero : T.Holds 0)
    (h : T.Holds (signed negative (n * 10 + d))) :
    T.digitsFrom negative (signed negative n) [d.digitChar]
      = Except.ok (signed negative (n * 10 + d)) := by
  have hnext : (if negative then signed negative n * 10 - digitValue d.digitChar
      else signed negative n * 10 + digitValue d.digitChar) = signed negative (n * 10 + d) := by
    rw [digitValue_digitChar hd]
    cases negative with
    | false => simp [signed]
    | true =>
      simp only [signed, if_true]
      push_cast
      ring
  have hten : T.Holds (signed negative n * 10) := by
    unfold signed Holds at *
    cases negative with
    | false =>
      simp only [Bool.false_eq_true, if_false] at h ⊢
      omega
    | true =>
      simp only [if_true] at h ⊢
      omega
  rw [digitsFrom_cons, if_pos (isAsciiDigit_digitChar hd), hnext, if_pos ⟨hten, h⟩]
  rfl

/-- **The digits of a number read back**, whatever its sign. -/
theorem digitsFrom_toDigits (hzero : T.Holds 0) (h : T.Holds (signed negative n)) :
    T.digitsFrom negative 0 (Nat.toDigits 10 n) = Except.ok (signed negative n) := by
  have hsigned : signed negative 0 = 0 := by cases negative <;> rfl
  induction n using Nat.strong_induction_on with
  | _ n ih =>
    have hdiv : n / 10 * 10 + n % 10 = n := Nat.div_add_mod' n 10
    have hmod : n % 10 < 10 := Nat.mod_lt n (by decide)
    have hlast := digitsFrom_digitChar (T := T) hmod hzero (hdiv.symm ▸ h)
    rw [hdiv] at hlast
    by_cases hlt : n < 10
    · rw [Nat.toDigits_of_lt_base hlt]
      rw [Nat.div_eq_of_lt hlt, hsigned, Nat.mod_eq_of_lt hlt] at hlast
      exact hlast
    · have hle : 10 ≤ n := Nat.le_of_not_lt hlt
      have hfront : T.Holds (signed negative (n / 10)) := by
        unfold signed Holds at *
        cases negative with
        | false =>
          simp only [Bool.false_eq_true, if_false] at h ⊢
          omega
        | true =>
          simp only [if_true] at h ⊢
          omega
      rw [Nat.toDigits_of_base_le (by decide) hle,
        digitsFrom_append (ih (n / 10) (by omega) hfront), hlast]

/-- **A number that is printed reads back.** -/
theorem parse_padded {n : ℤ} (hzero : T.Holds 0) (h : T.Holds n) :
    T.parse (padded 0 n) = Except.ok n := by
  have hdigits (m : ℕ) : (Nat.toDigits 10 m).leftpad 0 '0' = Nat.toDigits 10 m := by
    simp [List.leftpad]
  unfold Decimal.padded
  by_cases hneg : n < 0
  · have hvalue : signed true n.natAbs = n := by
      simp only [signed, if_true]
      omega
    rw [if_pos hneg, Nat.zero_sub, hdigits]
    obtain ⟨c, cs, hcs⟩ := List.exists_cons_of_ne_nil (Nat.toDigits_ne_nil (n := n.natAbs))
    have hread := digitsFrom_toDigits hzero (hvalue.symm ▸ h)
    rw [hcs, hvalue] at hread
    rw [hcs]
    show (if T.least < 0 then T.digitsFrom true 0 (c :: cs) else _) = _
    rw [if_pos (lt_of_le_of_lt h.left hneg), hread]
  · have hvalue : signed false n.toNat = n := by
      simp only [signed, Bool.false_eq_true, if_false]
      omega
    rw [if_neg hneg, hdigits]
    obtain ⟨c, cs, hcs⟩ := List.exists_cons_of_ne_nil (Nat.toDigits_ne_nil (n := n.toNat))
    have hread := digitsFrom_toDigits hzero (hvalue.symm ▸ h)
    have hdigit : c.isDigit = true :=
      Nat.isDigit_of_mem_toDigits (by decide) le_rfl (hcs ▸ List.mem_cons_self)
    rw [hcs, hvalue] at hread
    rw [hcs, parse_of_digit hdigit, hread]

end IntType

/-! ## Reading and writing the file -/

/-- What is written to the file. -/
def runIdText (id : ℤ) : String := String.ofList (padded 0 id ++ ['\n'])

/-- The id in a file, given what it holds if it is there. -/
def readRunIdFile (path : String) (file : Option String) : Fallible ℤ :=
  match file with
  | none => Fallible.bail s!"reading {path}"
  | some raw =>
    let trimmed := Text.trim raw
    match IntType.i64.parse trimmed.toList with
    | Except.ok id => Except.ok id
    | Except.error e =>
      Except.error [s!"parsing run id from {path}: " ++ Text.debug trimmed, e.display]

theorem isWhiteSpace_of_mem_padded {n : ℤ} {c : Char} (h : c ∈ padded 0 n) :
    Text.isWhiteSpace c = false := by
  have hdigit (m : ℕ) (hc : c ∈ (Nat.toDigits 10 m).leftpad 0 '0') :
      Text.isWhiteSpace c = false := by
    have hc : c ∈ Nat.toDigits 10 m := by simpa [List.leftpad] using hc
    exact Text.isWhiteSpace_of_isDigit (Nat.isDigit_of_mem_toDigits (by decide) le_rfl hc)
  unfold Decimal.padded at h
  split_ifs at h with hneg
  · obtain rfl | hc := List.mem_cons.mp h
    · rfl
    · exact hdigit _ hc
  · exact hdigit _ h

/-- Text without white space loses the line feed behind it, and nothing else. -/
theorem trim_line {cs : List Char} (h : ∀ c ∈ cs, Text.isWhiteSpace c = false) :
    Text.trim (String.ofList (cs ++ ['\n'])) = String.ofList cs := by
  have hany {o : Option Char} (ho : ∀ c ∈ o, c ∈ cs) : o.any Text.isWhiteSpace = false := by
    cases o with
    | none => rfl
    | some c => exact h c (ho c rfl)
  rw [String.ofList_append, Text.trim_append_blank (by decide)]
  refine Text.trim_eq_self ?_ ?_
  · rw [String.toList_ofList]
    exact hany fun c hc => List.mem_of_mem_head? hc
  · rw [String.toList_ofList]
    exact hany fun c hc => List.mem_of_mem_getLast? hc

/-- **An id that was written is read back.** -/
theorem readRunIdFile_runIdText {id : ℤ} (path : String) (h : IntType.i64.Holds id) :
    readRunIdFile path (some (runIdText id)) = Except.ok id := by
  unfold readRunIdFile runIdText
  dsimp only
  rw [trim_line fun c hc => isWhiteSpace_of_mem_padded hc, String.toList_ofList,
    IntType.parse_padded (by decide) h]
