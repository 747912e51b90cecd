import Mathlib.Data.List.Basic
import Mathlib.Tactic.SplitIfs

/-!
# Strings and arrays of strings in TOML

A basic string stands between quotes. A quote and a backslash in it are escaped, and so may
be others; a control character other than a tab cannot stand in it as it is. The strings of
an array stand between brackets, with commas between them and perhaps one behind the last
of them, and white space around each.

Whoever escapes the backslashes and the quotes, and nothing else, is read back if and only if
there is no control character, and never as anything else (`readArray_array`).
-/

namespace Toml

/-- A character that cannot stand in a string as it is. -/
def isControl (c : Char) : Bool :=
  let n := c.toNat
  n ≤ 8 || (10 ≤ n && n ≤ 31) || n == 127

def isSpace (c : Char) : Bool := c = ' ' || c = '\t' || c = '\n' || c = '\r'

/-- What a letter behind a backslash stands for. -/
def unescape : Char → Option Char
  | 'b' => some '\x08'
  | 't' => some '\t'
  | 'n' => some '\n'
  | 'f' => some '\x0c'
  | 'r' => some '\r'
  | '"' => some '"'
  | '\\' => some '\\'
  | _ => none

def hexDigit (c : Char) : Option ℕ :=
  if '0' ≤ c && c ≤ '9' then some (c.toNat - '0'.toNat)
  else if 'a' ≤ c && c ≤ 'f' then some (c.toNat - 'a'.toNat + 10)
  else if 'A' ≤ c && c ≤ 'F' then some (c.toNat - 'A'.toNat + 10)
  else none

/-- The character with a number, if it is one. -/
def unicode (digits : List Char) : Option Char := do
  let values ← digits.mapM hexDigit
  let n := values.foldl (fun n d => 16 * n + d) 0
  if n.isValidChar then some (Char.ofNat n) else none

/-- What is read, with a character in front of it. -/
def withChar (c : Char) (read : Option (List Char × List Char)) :
    Option (List Char × List Char) :=
  read.map fun r => (c :: r.1, r.2)

/-- The characters of a string whose first quote was read, and what is behind it. -/
def readBasic : List Char → Option (List Char × List Char)
  | [] => none
  | c :: rest =>
    if c = '"' then some ([], rest)
    else if c = '\\' then
      match rest with
      | 'u' :: h₁ :: h₂ :: h₃ :: h₄ :: rest =>
        (unicode [h₁, h₂, h₃, h₄]).bind fun d => withChar d (readBasic rest)
      | 'U' :: h₁ :: h₂ :: h₃ :: h₄ :: h₅ :: h₆ :: h₇ :: h₈ :: rest =>
        (unicode [h₁, h₂, h₃, h₄, h₅, h₆, h₇, h₈]).bind fun d => withChar d (readBasic rest)
      | e :: rest => (unescape e).bind fun d => withChar d (readBasic rest)
      | [] => none
    else if isControl c then none
    else withChar c (readBasic rest)

/-- The strings of an array whose bracket was read, and what is behind it. There are no more
than some number of them. -/
def readItems : ℕ → List Char → Option (List (List Char) × List Char)
  | 0, _ => none
  | n + 1, cs =>
    match cs.dropWhile isSpace with
    | ']' :: rest => some ([], rest)
    | '"' :: rest => do
      let item ← readBasic rest
      match item.2.dropWhile isSpace with
      | ',' :: rest => do
        let items ← readItems n rest
        return (item.1 :: items.1, items.2)
      | ']' :: rest => return ([item.1], rest)
      | _ => none
    | _ => none

/-- An array of strings, and nothing else. -/
def readArray (cs : List Char) : Option (List (List Char)) :=
  match cs.dropWhile isSpace with
  | '[' :: rest => do
    let items ← readItems (rest.length + 1) rest
    if items.2.all isSpace then some items.1 else none
  | _ => none

/-! ## Writing an array -/

/-- A character as it stands between quotes. -/
def escape (c : Char) : List Char :=
  if c = '\\' then ['\\', '\\'] else if c = '"' then ['\\', '"'] else [c]

/-- A text in quotes. -/
def quoted (cs : List Char) : List Char := '"' :: (cs.flatMap escape ++ ['"'])

/-- Strings with commas between them. -/
def items : List (List Char) → List Char
  | [] => []
  | [cs] => quoted cs
  | cs :: rest => quoted cs ++ ',' :: items rest

/-- Texts in quotes, between brackets. -/
def array (css : List (List Char)) : List Char := '[' :: (items css ++ [']'])

/-- A string can be written without other escapes. -/
def isPlain (cs : List Char) : Bool := cs.all fun c => !isControl c

section Reading

variable {cs rest : List Char} {css : List (List Char)}

/-- A quote ends a text. -/
theorem readBasic_quote : readBasic ('"' :: rest) = some ([], rest) := by
  rw [readBasic.eq_def]
  exact if_pos rfl

/-- A backslash and a quote are read behind a backslash. -/
theorem readBasic_escaped {c : Char} (h : c = '\\' ∨ c = '"') :
    readBasic ('\\' :: c :: rest) = withChar c (readBasic rest) := by
  rw [readBasic.eq_def]
  obtain rfl | rfl := h
  · rfl
  · rfl

/-- Any other character is itself, unless it is a control character. -/
theorem readBasic_char {c : Char} (hquote : c ≠ '"') (hback : c ≠ '\\') :
    readBasic (c :: rest) = if isControl c then none else withChar c (readBasic rest) := by
  rw [readBasic.eq_def]
  exact (if_neg hquote).trans (if_neg hback)

/-- An escaped text is read back exactly when it is plain. -/
theorem readBasic_flatMap_escape (cs rest : List Char) :
    readBasic (cs.flatMap escape ++ '"' :: rest)
      = if isPlain cs then some (cs, rest) else none := by
  induction cs with
  | nil => exact readBasic_quote
  | cons c cs ih =>
    have hplain : isPlain (c :: cs) = (!isControl c && isPlain cs) := rfl
    rw [List.flatMap_cons, List.append_assoc, hplain]
    by_cases hescaped : c = '\\' ∨ c = '"'
    · have hcontrol : isControl c = false := by
        obtain rfl | rfl := hescaped
        · rfl
        · rfl
      have hescape : escape c = ['\\', c] := by
        obtain rfl | rfl := hescaped
        · rfl
        · rfl
      rw [hescape, hcontrol, List.cons_append, List.cons_append, List.nil_append,
        readBasic_escaped hescaped, ih]
      cases isPlain cs <;> rfl
    · obtain ⟨hback, hquote⟩ := not_or.mp hescaped
      have hescape : escape c = [c] := by
        unfold escape
        rw [if_neg hback, if_neg hquote]
      rw [hescape, List.singleton_append, readBasic_char hquote hback, ih]
      cases isControl c <;> cases isPlain cs <;> rfl

/-- A quote is no space. -/
theorem dropWhile_quoted (cs rest : List Char) :
    (quoted cs ++ rest).dropWhile isSpace = '"' :: (cs.flatMap escape ++ '"' :: rest) := by
  unfold quoted
  rw [List.cons_append, List.append_assoc, List.singleton_append]
  exact List.dropWhile_cons_of_neg (by decide)

/-- An item before a comma. -/
theorem readItems_comma (n : ℕ) (cs rest : List Char) :
    readItems (n + 1) (quoted cs ++ ',' :: rest)
      = if isPlain cs then (readItems n rest).map fun r => (cs :: r.1, r.2) else none := by
  have hspace : (',' :: rest).dropWhile isSpace = ',' :: rest :=
    List.dropWhile_cons_of_neg (by decide)
  rw [readItems.eq_2, dropWhile_quoted]
  simp only [readBasic_flatMap_escape]
  split_ifs
  · simp only [Option.bind_eq_bind, Option.bind_some, hspace]
    cases readItems n rest <;> rfl
  · rfl

/-- The last item. -/
theorem readItems_bracket (n : ℕ) (cs rest : List Char) :
    readItems (n + 1) (quoted cs ++ ']' :: rest)
      = if isPlain cs then some ([cs], rest) else none := by
  have hspace : (']' :: rest).dropWhile isSpace = ']' :: rest :=
    List.dropWhile_cons_of_neg (by decide)
  rw [readItems.eq_2, dropWhile_quoted]
  simp only [readBasic_flatMap_escape]
  split_ifs
  · simp only [Option.bind_eq_bind, Option.bind_some, hspace]
    rfl
  · rfl

/-- The items are read back, if each can be written so. -/
theorem readItems_items (hne : css ≠ []) {n : ℕ} (hn : css.length ≤ n) (rest : List Char) :
    readItems n (items css ++ ']' :: rest)
      = if css.all isPlain then some (css, rest) else none := by
  induction css generalizing n with
  | nil => exact absurd rfl hne
  | cons cs css ih =>
    obtain ⟨n, rfl⟩ : ∃ m, n = m + 1 := ⟨n - 1, by simp only [List.length_cons] at hn; omega⟩
    cases css with
    | nil =>
      show readItems (n + 1) (quoted cs ++ ']' :: rest) = _
      rw [readItems_bracket]
      cases hplain : isPlain cs <;> simp [hplain]
    | cons cs' css =>
      have happend : items (cs :: cs' :: css) ++ ']' :: rest
          = quoted cs ++ ',' :: (items (cs' :: css) ++ ']' :: rest) := by
        rw [items, List.append_assoc, List.cons_append]
        exact List.cons_ne_nil _ _
      have hall : (cs :: cs' :: css).all isPlain
          = (isPlain cs && (cs' :: css).all isPlain) := rfl
      rw [happend, readItems_comma, ih (List.cons_ne_nil _ _) (Nat.le_of_succ_le_succ hn), hall]
      cases isPlain cs <;> cases (cs' :: css).all isPlain <;> rfl

/-- An array is at least as long as it has items. -/
theorem length_le_items (css : List (List Char)) : css.length ≤ (items css).length := by
  induction css with
  | nil => exact Nat.le_refl _
  | cons cs css ih =>
    cases css with
    | nil => simp [items, quoted]
    | cons cs' css =>
      have hlength : (items (cs :: cs' :: css)).length
          = (quoted cs).length + ((items (cs' :: css)).length + 1) := by
        rw [items, List.length_append, List.length_cons]
        exact List.cons_ne_nil _ _
      rw [hlength, List.length_cons]
      omega

/-- **An array is read back if and only if no string has a control character**, and it is never
read as anything else. -/
theorem readArray_array (css : List (List Char)) :
    readArray (array css) = if css.all isPlain then some css else none := by
  unfold readArray array
  rw [List.dropWhile_cons_of_neg (by decide)]
  cases css with
  | nil => rfl
  | cons cs css =>
    have hle : (cs :: css).length ≤ (items (cs :: css) ++ [']']).length + 1 := by
      have hle := length_le_items (cs :: css)
      rw [List.length_append]
      omega
    simp only [readItems_items (List.cons_ne_nil cs css) hle []]
    cases (cs :: css).all isPlain <;> rfl

end Reading

end Toml
