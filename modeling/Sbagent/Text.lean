import Mathlib

/-!
# Text and numbers as the validators read them

Validators ask little of a string: whether it is blank, how many bytes it
has, which characters it is made of. They ask as little of a floating-point
number: whether it is finite, and how it compares with another. Both are
computed here on the representation itself – the characters of a string, the
bits of a number – so that every check stays executable.

A floating-point number is its 64 bits. Comparisons go through an integer
`key` that orders the representations as the numbers they stand for: the
magnitude bits, negated when the sign bit is set. Two zeros then have the
same key, and a NaN, which compares with nothing, is excluded before the keys
are read.
-/

/-! ## Characters and strings -/

namespace Text

/-- The Unicode `White_Space` property, which is what trimming removes. -/
def isWhiteSpace (c : Char) : Bool :=
  let n := c.toNat
  (9 ≤ n && n ≤ 13) || n == 32 || n == 133 || n == 160 || n == 5760
    || (8192 ≤ n && n ≤ 8202) || n == 8232 || n == 8233 || n == 8239
    || n == 8287 || n == 12288

/-- A lower-case ASCII letter. -/
def isAsciiLower (c : Char) : Bool := 'a' ≤ c && c ≤ 'z'

/-- An ASCII digit. -/
def isAsciiDigit (c : Char) : Bool := '0' ≤ c && c ≤ '9'

/-- An ASCII hexadecimal digit of either case. -/
def isAsciiHexDigit (c : Char) : Bool :=
  isAsciiDigit c || ('a' ≤ c && c ≤ 'f') || ('A' ≤ c && c ≤ 'F')

/-- Whether trimming a string leaves nothing. -/
def isBlank (s : String) : Bool := s.toList.all isWhiteSpace

/-- The length of a string in bytes. -/
def byteLen (s : String) : ℕ := s.utf8ByteSize

/-- Whether a string starts with another. -/
def startsWith (s pre : String) : Bool := pre.toList.isPrefixOf s.toList

/-- Whether a string ends with another. -/
def endsWith (s suf : String) : Bool := suf.toList.isSuffixOf s.toList

/-- The hexadecimal digits of a number, most significant first. -/
def hex (n : ℕ) : String := String.ofList (Nat.toDigits 16 n)

/-- A character inside a quoted string, with the escapes that quoting
needs. -/
def debugChar (c : Char) : String :=
  if c = '"' then "\\\""
  else if c = '\\' then "\\\\"
  else if c = '\n' then "\\n"
  else if c = '\r' then "\\r"
  else if c = '\t' then "\\t"
  else if c = Char.ofNat 0 then "\\0"
  else if c.toNat < 32 || (127 ≤ c.toNat && c.toNat < 160) then
    "\\u\x7b" ++ hex c.toNat ++ "\x7d"
  else String.singleton c

/-- A string quoted, as messages quote what they refuse. -/
def debug (s : String) : String :=
  "\"" ++ String.join (s.toList.map debugChar) ++ "\""

/-- An optional flag in a message. -/
def debugOptionBool : Option Bool → String
  | some true => "Some(true)"
  | some false => "Some(false)"
  | none => "None"

/-- What a line ends with is not part of it: its characters so far, newest
first, without a carriage return before the line feed. -/
def endLine : List Char → List Char
  | '\r' :: cs => cs.reverse
  | cs => cs.reverse

/-- The lines of a text, given what has been read of the first one, newest
first. A text that ends in a line feed has no empty line after it. -/
def linesFrom (line : List Char) : List Char → List String
  | [] => if line = [] then [] else [String.ofList line.reverse]
  | c :: cs =>
    if c = '\n' then String.ofList (endLine line) :: linesFrom [] cs
    else linesFrom (c :: line) cs

/-- The lines of a text. -/
def lines (s : String) : List String := linesFrom [] s.toList

/-- A string without the white space at its end. -/
def trimEnd (s : String) : String :=
  String.ofList (s.toList.reverse.dropWhile isWhiteSpace).reverse

/-- A string without the white space around it. -/
def trim (s : String) : String :=
  trimEnd (String.ofList (s.toList.dropWhile isWhiteSpace))

/-- A string with its upper-case ASCII letters made lower-case. -/
def toAsciiLowercase (s : String) : String :=
  String.ofList (s.toList.map Char.toLower)

/-- The words of a text, given what has been read of the first one, newest
first. -/
def wordsFrom (word : List Char) : List Char → List String
  | [] => if word = [] then [] else [String.ofList word.reverse]
  | c :: cs =>
    if isWhiteSpace c = true then
      if word = [] then wordsFrom [] cs
      else String.ofList word.reverse :: wordsFrom [] cs
    else wordsFrom (c :: word) cs

/-- The words of a text: what its white space separates. -/
def splitWhitespace (s : String) : List String := wordsFrom [] s.toList

/-- Whether a string occurs in another. -/
def contains (s sub : String) : Bool := decide (sub.toList <:+: s.toList)

/-- A text without what it begins with. -/
def stripPrefix (l pre : List Char) : Option (List Char) :=
  if pre.isPrefixOf l = true then some (l.drop pre.length) else none

/-- A text without what it ends in. -/
def stripSuffix (l suf : List Char) : Option (List Char) :=
  if suf.isSuffixOf l = true then some (l.take (l.length - suf.length)) else none

theorem isBlank_append (s t : String) :
    isBlank (s ++ t) = (isBlank s && isBlank t) := by
  simp [isBlank, String.toList_append]

theorem startsWith_iff {s pre : String} :
    Text.startsWith s pre = true ↔ ∃ rest, s.toList = pre.toList ++ rest := by
  unfold Text.startsWith
  rw [List.isPrefixOf_iff_prefix]
  exact exists_congr fun rest => eq_comm

theorem endsWith_iff {s suf : String} :
    Text.endsWith s suf = true ↔ ∃ front, s.toList = front ++ suf.toList := by
  unfold Text.endsWith
  rw [List.isSuffixOf_iff_suffix]
  exact exists_congr fun front => eq_comm

section Trim

variable {s t : String} {c : Char}

theorem isWhiteSpace_of_isDigit (h : c.isDigit = true) : isWhiteSpace c = false := by
  unfold Char.isDigit at h
  rw [Bool.and_eq_true, decide_eq_true_eq, decide_eq_true_eq] at h
  have hlow : 48 ≤ c.toNat := h.left
  have hhigh : c.toNat ≤ 57 := h.right
  simp [isWhiteSpace]
  omega

theorem trimEnd_toList (t : String) :
    (trimEnd t).toList = t.toList.rdropWhile isWhiteSpace := by
  unfold trimEnd
  rw [String.toList_ofList]
  rfl

theorem trim_toList (s : String) :
    (trim s).toList = (s.toList.dropWhile isWhiteSpace).rdropWhile isWhiteSpace := by
  unfold trim
  rw [trimEnd_toList, String.toList_ofList]

/-- What is trimmed of a text is white space on both of its sides. -/
theorem exists_trim (s : String) : ∃ front back, isBlank front = true
    ∧ isBlank back = true ∧ s = front ++ trim s ++ back := by
  refine ⟨String.ofList (s.toList.takeWhile isWhiteSpace),
    String.ofList ((s.toList.dropWhile isWhiteSpace).rtakeWhile isWhiteSpace), ?_, ?_, ?_⟩
  · unfold isBlank
    rw [String.toList_ofList]
    exact List.all_takeWhile
  · unfold isBlank
    rw [String.toList_ofList, List.all_eq_true]
    exact fun c hc => List.mem_rtakeWhile_imp hc
  · rw [← String.toList_inj, String.toList_append, String.toList_append, String.toList_ofList,
      String.toList_ofList, trim_toList, List.append_assoc, List.rdropWhile_append_rtakeWhile,
      List.takeWhile_append_dropWhile]

/-- White space in front of a text is not read. -/
theorem trim_append_of_isBlank (h : isBlank s = true) (t : String) :
    trim (s ++ t) = trim t := by
  unfold trim
  rw [String.toList_append, List.dropWhile_append_of_pos (List.all_eq_true.mp h)]

/-- White space at the end of a text is not read either. -/
theorem trim_append_blank (h : isBlank t = true) (s : String) : trim (s ++ t) = trim s := by
  have hback : ∀ l, (l ++ t.toList).rdropWhile isWhiteSpace = l.rdropWhile isWhiteSpace := by
    intro l
    unfold List.rdropWhile
    rw [List.reverse_append, List.dropWhile_append_of_pos]
    exact fun c hc => List.all_eq_true.mp h c (List.mem_reverse.mp hc)
  have hblank : t.toList.dropWhile isWhiteSpace = [] :=
    List.dropWhile_eq_nil_iff.mpr (List.all_eq_true.mp h)
  rw [← String.toList_inj, trim_toList, trim_toList, String.toList_append, List.dropWhile_append]
  split_ifs with hempty
  · rw [hblank, List.isEmpty_iff.mp hempty]
  · exact hback _

theorem trim_trim (s : String) : trim (trim s) = trim s := by
  obtain ⟨front, back, hfront, hback, hs⟩ := exists_trim s
  conv_rhs => rw [hs]
  rw [trim_append_blank hback, trim_append_of_isBlank hfront]

theorem trim_eq_empty_iff : trim s = "" ↔ isBlank s = true := by
  constructor
  · intro h
    obtain ⟨front, back, hfront, hback, hs⟩ := exists_trim s
    rw [hs, h, isBlank_append, isBlank_append, hfront, hback]
    rfl
  · intro h
    have hempty := trim_append_of_isBlank h ""
    rw [String.append_empty] at hempty
    rw [hempty]
    decide

theorem dropWhile_of_first {l : List Char} (h : l.head?.any isWhiteSpace = false) :
    l.dropWhile isWhiteSpace = l := by
  cases l with
  | nil => rfl
  | cons c l => exact List.dropWhile_cons_of_neg (Bool.eq_false_iff.mp h)

/-- A text that begins with no white space loses only what is at its end. -/
theorem trim_eq_trimEnd (h : t.toList.head?.any isWhiteSpace = false) : trim t = trimEnd t := by
  unfold trim
  rw [dropWhile_of_first h, String.ofList_toList]

/-- A text without white space at its ends stays as it is. -/
theorem trim_eq_self (hfirst : t.toList.head?.any isWhiteSpace = false)
    (hlast : t.toList.getLast?.any isWhiteSpace = false) : trim t = t := by
  have hend : t.toList.rdropWhile isWhiteSpace = t.toList := by
    rw [List.rdropWhile_eq_self_iff]
    intro hne
    rw [List.getLast?_eq_some_getLast hne] at hlast
    exact Bool.eq_false_iff.mp hlast
  rw [trim_eq_trimEnd hfirst, ← String.toList_inj, trimEnd_toList, hend]

end Trim

section Lines

variable {l : List Char} {ls : List (List Char)}

theorem linesFrom_of_noFeed (acc : List Char) (h : '\n' ∉ l) (hne : acc ≠ [] ∨ l ≠ []) :
    linesFrom acc l = [String.ofList (acc.reverse ++ l)] := by
  induction l generalizing acc with
  | nil => rw [linesFrom, if_neg (hne.resolve_right (not_not.mpr rfl)), List.append_nil]
  | cons c cs ih =>
    obtain ⟨hc, hcs⟩ := not_or.mp (List.mem_cons.not.mp h)
    rw [linesFrom, if_neg (Ne.symm hc), ih _ hcs (Or.inl (List.cons_ne_nil _ _))]
    simp

theorem linesFrom_feed (acc : List Char) (rest : List Char) (h : '\n' ∉ l) :
    linesFrom acc (l ++ '\n' :: rest)
      = String.ofList (endLine (l.reverse ++ acc)) :: linesFrom [] rest := by
  induction l generalizing acc with
  | nil => rw [List.nil_append, linesFrom, if_pos rfl, List.reverse_nil, List.nil_append]
  | cons c cs ih =>
    obtain ⟨hc, hcs⟩ := not_or.mp (List.mem_cons.not.mp h)
    rw [List.cons_append, linesFrom, if_neg (Ne.symm hc), ih _ hcs]
    simp

theorem length_le_byteLen (l : List Char) : l.length ≤ byteLen (String.ofList l) := by
  unfold byteLen
  rw [String.utf8ByteSize_ofList]
  induction l with
  | nil => exact Nat.zero_le _
  | cons c cs ih =>
    rw [String.utf8Len_cons, List.length_cons]
    exact Nat.add_le_add ih c.utf8Size_pos

/-- **The lines of a text are read as they were joined.** -/
theorem lines_intercalate (hfeed : ∀ l ∈ ls, '\n' ∉ l)
    (hend : ∀ l ∈ ls, ∃ c, l.getLast? = some c ∧ c ≠ '\r') :
    lines (String.ofList (['\n'].intercalate ls)) = ls.map String.ofList := by
  have hnil : ∀ l ∈ ls, l ≠ [] := by
    rintro l hl rfl
    obtain ⟨c, hc, -⟩ := hend _ hl
    cases hc
  unfold lines
  rw [String.toList_ofList]
  induction ls with
  | nil => rfl
  | cons l ls ih =>
    have hl := hfeed l List.mem_cons_self
    cases ls with
    | nil =>
      rw [List.intercalate_singleton,
        linesFrom_of_noFeed [] hl (Or.inr (hnil l List.mem_cons_self))]
      rfl
    | cons l' ls =>
      have hline : String.ofList (endLine (l.reverse ++ [])) = String.ofList l := by
        obtain ⟨c, hc, hreturn⟩ := hend l List.mem_cons_self
        obtain ⟨front, rfl⟩ := List.getLast?_eq_some_iff.mp hc
        rw [List.reverse_append, List.append_nil]
        show String.ofList (endLine (c :: front.reverse)) = _
        unfold endLine
        split
        case h_1 heq => exact absurd (List.cons.inj heq).left hreturn
        case h_2 => rw [List.reverse_cons, List.reverse_reverse]
      rw [List.intercalate_cons_cons, List.append_assoc, List.singleton_append,
        linesFrom_feed [] _ hl, hline, List.map_cons]
      refine congrArg _ (ih ?_ ?_ ?_)
      · exact fun l hl => hfeed l (List.mem_cons_of_mem _ hl)
      · exact fun l hl => hend l (List.mem_cons_of_mem _ hl)
      · exact fun l hl => hnil l (List.mem_cons_of_mem _ hl)

end Lines

end Text

/-! ## Floating-point numbers -/

/-- A floating-point number of double precision, as its bits. -/
structure F64 where
  /-- Sign, exponent and mantissa, from the most significant bit down. -/
  bits : BitVec 64
  deriving DecidableEq

namespace F64

/-- The sign bit. -/
def sign (x : F64) : Bool := x.bits.msb

/-- Everything but the sign bit. -/
def magnitude (x : F64) : ℕ := x.bits.toNat % 2 ^ 63

/-- The magnitude of an infinity: the largest exponent and no mantissa. -/
def infinityMagnitude : ℕ := 2047 * 2 ^ 52

/-- Neither an infinity nor a NaN. -/
def isFinite (x : F64) : Bool := x.magnitude < infinityMagnitude

/-- Not a number. -/
def isNaN (x : F64) : Bool := infinityMagnitude < x.magnitude

/-- An integer that orders the numbers: the magnitude, with the sign. -/
def key (x : F64) : ℤ := if x.sign then -(x.magnitude : ℤ) else x.magnitude

/-- `x < y` as the language compares: never when either is a NaN. -/
def lt (x y : F64) : Bool := !x.isNaN && !y.isNaN && x.key < y.key

/-- `x ≤ y` as the language compares: never when either is a NaN. -/
def le (x y : F64) : Bool := !x.isNaN && !y.isNaN && x.key ≤ y.key

/-- `x == y` as the language compares: the two zeros are equal, and a NaN is
not equal even to itself. -/
def eq (x y : F64) : Bool := !x.isNaN && !y.isNaN && x.key = y.key

/-- Positive zero. -/
def zero : F64 := ⟨0⟩

/-- A whole number below `2 ^ 53`, exactly. -/
def ofNat (n : ℕ) : F64 :=
  if n = 0 then zero
  else ⟨BitVec.ofNat 64 ((1023 + n.log2) * 2 ^ 52
    + (n - 2 ^ n.log2) * 2 ^ (52 - n.log2))⟩

/-- A number in a message. It is shown by its bits: printing the shortest
decimal that reads back is not modelled. -/
def display (x : F64) : String := "0x" ++ Text.hex x.bits.toNat

end F64
