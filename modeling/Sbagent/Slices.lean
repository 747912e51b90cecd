import Sbagent.Integers

/-!
# Slices of a text

Positions in a text count bytes, and a character can have several. A slice between two
positions is a text only when both are where a character begins, or at the end of the
text. Otherwise taking the slice panics, and these are the only ways in which it does
(`slice_panicked_iff`).
-/

namespace Slices

/-- A text without its first bytes, if these are the bytes of whole characters. -/
def dropBytes : ℕ → List Char → Option (List Char)
  | 0, cs => some cs
  | _ + 1, [] => none
  | n + 1, c :: cs => if c.utf8Size ≤ n + 1 then dropBytes (n + 1 - c.utf8Size) cs else none

/-- The first bytes of a text, if they are the bytes of whole characters. -/
def takeBytes : ℕ → List Char → Option (List Char)
  | 0, _ => some []
  | _ + 1, [] => none
  | n + 1, c :: cs =>
    if c.utf8Size ≤ n + 1 then (takeBytes (n + 1 - c.utf8Size) cs).map (c :: ·) else none

/-- A character begins at a position, or the text ends there. -/
def IsBoundary (s : String) (n : ℕ) : Prop := (dropBytes n s.toList).isSome = true

instance (s : String) (n : ℕ) : Decidable (IsBoundary s n) :=
  inferInstanceAs (Decidable (_ = _))

/-- The text between two positions. -/
def slice (s : String) (first last : ℕ) : Checked (List Char) :=
  match (dropBytes first s.toList).bind (takeBytes (last - first)) with
  | some cs => Except.ok cs
  | none => Except.error Stop.panicked

/-- A text can be cut at a byte for both of its parts. -/
theorem isSome_takeBytes (n : ℕ) (cs : List Char) :
    (takeBytes n cs).isSome = (dropBytes n cs).isSome := by
  fun_induction dropBytes n cs with
  | case1 cs => cases cs <;> rfl
  | case2 n => rfl
  | case3 n c cs hle ih =>
    unfold takeBytes
    rw [if_pos hle, Option.isSome_map, ih]
  | case4 n c cs hle =>
    unfold takeBytes
    rw [if_neg hle]

/-- Bytes are dropped together or one after the other. -/
theorem dropBytes_add {m n : ℕ} {cs rest : List Char} (h : dropBytes m cs = some rest) :
    dropBytes (m + n) cs = dropBytes n rest := by
  fun_induction dropBytes m cs with
  | case1 cs =>
    obtain rfl := Option.some.inj h
    rw [Nat.zero_add]
  | case2 m => cases h
  | case3 m c cs hle ih =>
    rw [show m + 1 + n = (m + n) + 1 by omega, dropBytes, if_pos (by omega),
      show m + n + 1 - c.utf8Size = m + 1 - c.utf8Size + n by omega]
    exact ih h
  | case4 m c cs hle => cases h

/-- **A slice panics** exactly when it begins or ends within a character, or after the
end of the text. -/
theorem slice_panicked_iff {s : String} {first last : ℕ} (h : first ≤ last) :
    slice s first last = Except.error Stop.panicked
      ↔ ¬ (IsBoundary s first ∧ IsBoundary s last) := by
  unfold slice IsBoundary
  cases hdrop : dropBytes first s.toList with
  | none =>
    refine iff_of_true rfl fun hboth => ?_
    cases hboth.left
  | some rest =>
    have hlast : dropBytes last s.toList = dropBytes (last - first) rest := by
      rw [← dropBytes_add hdrop, Nat.add_sub_cancel' h]
    rw [hlast, ← isSome_takeBytes, Option.bind_some]
    cases takeBytes (last - first) rest with
    | none => exact iff_of_true rfl fun hboth => Bool.false_ne_true hboth.right
    | some cs => exact iff_of_false nofun fun hnot => hnot ⟨rfl, rfl⟩

/-- A slice does nothing else than panic or give a text. -/
theorem slice_cases (s : String) (first last : ℕ) :
    (∃ cs, slice s first last = Except.ok cs)
      ∨ slice s first last = Except.error Stop.panicked := by
  unfold slice
  cases (dropBytes first s.toList).bind (takeBytes (last - first)) with
  | none => exact Or.inr rfl
  | some cs => exact Or.inl ⟨cs, rfl⟩

/-- A slice is taken exactly between boundaries. -/
theorem not_panics_slice {s : String} {first last : ℕ} (h : first ≤ last) :
    ¬ Panics (slice s first last) ↔ IsBoundary s first ∧ IsBoundary s last :=
  not_iff_comm.mp (slice_panicked_iff h).symm

/-- A part has no more characters than bytes. -/
theorem length_takeBytes {n : ℕ} {cs part : List Char} (h : takeBytes n cs = some part) :
    part.length ≤ n := by
  fun_induction takeBytes n cs generalizing part with
  | case1 cs =>
    obtain rfl := Option.some.inj h
    exact le_rfl
  | case2 n => cases h
  | case3 n c cs hle ih =>
    obtain ⟨rest, hrest, rfl⟩ := Option.map_eq_some_iff.mp h
    have hsize := c.utf8Size_pos
    have hlength := ih hrest
    rw [List.length_cons]
    omega
  | case4 n c cs hle => cases h

/-- A slice has no more characters than bytes. -/
theorem length_slice {s : String} {first last : ℕ} {cs : List Char}
    (h : slice s first last = Except.ok cs) : cs.length ≤ last - first := by
  unfold slice at h
  cases htake : (dropBytes first s.toList).bind (takeBytes (last - first)) with
  | none =>
    rw [htake] at h
    cases h
  | some part =>
    rw [htake] at h
    obtain ⟨rest, -, hpart⟩ := Option.bind_eq_some_iff.mp htake
    obtain rfl := Except.ok.inj h
    exact length_takeBytes hpart

/-! ## Positions that are seen in the bytes -/

/-- The bytes of a text. -/
def asBytes (s : String) : List UInt8 := s.toList.flatMap String.utf8EncodeChar

/-- The bytes of a text are as many as its length says. -/
theorem length_asBytes (s : String) : (asBytes s).length = Text.byteLen s := by
  have hsize : ∀ cs : List Char,
      (cs.flatMap String.utf8EncodeChar).length = String.utf8Len cs := by
    intro cs
    induction cs with
    | nil => rfl
    | cons c cs ih =>
      rw [List.flatMap_cons, List.length_append, ih, String.length_utf8EncodeChar,
        String.utf8Len_cons, Nat.add_comm]
  unfold asBytes Text.byteLen
  rw [hsize, ← String.utf8ByteSize_ofList, String.ofList_toList]

@[simp] theorem isBoundary_zero (s : String) : IsBoundary s 0 := by
  unfold IsBoundary dropBytes
  rfl

/-- A character is cut off with all its bytes. -/
theorem dropBytes_utf8Size (c : Char) (cs : List Char) :
    dropBytes c.utf8Size (c :: cs) = some cs := by
  obtain ⟨n, hn⟩ := Nat.exists_eq_add_of_lt c.utf8Size_pos
  rw [Nat.zero_add] at hn
  rw [hn, dropBytes, if_pos hn.le, hn, Nat.sub_self]
  cases cs <;> rfl

/-- The end of a text is a boundary. -/
theorem isBoundary_byteLen (s : String) : IsBoundary s (Text.byteLen s) := by
  have hend : ∀ cs : List Char, dropBytes (String.utf8Len cs) cs = some [] := by
    intro cs
    induction cs with
    | nil => rfl
    | cons c cs ih =>
      rw [String.utf8Len_cons, Nat.add_comm, dropBytes_add (dropBytes_utf8Size c cs), ih]
  unfold IsBoundary Text.byteLen
  rw [← String.ofList_toList (s := s), String.utf8ByteSize_ofList, String.toList_ofList, hend]
  rfl

/-- A bit that is set stays set. -/
theorem high_bit_or {x y : UInt8} (h : y.toBitVec[7] = true) :
    (x ||| y) &&& 128 ≠ 0 := by
  intro hzero
  have hbit := congrArg (fun z => z.toBitVec.getLsbD 7) hzero
  simp [h] at hbit

/-- A character whose first byte is small has no other bytes. -/
theorem utf8Size_of_ascii {c : Char} {b : UInt8}
    (h : (String.utf8EncodeChar c)[0]? = some b) (hb : b &&& 128 = 0) : c.utf8Size = 1 := by
  have hpos := c.utf8Size_pos
  have hle := c.utf8Size_le_four
  by_contra hone
  obtain h2 | h3 | h4 : c.utf8Size = 2 ∨ c.utf8Size = 3 ∨ c.utf8Size = 4 := by omega
  · rw [String.utf8EncodeChar_eq_cons_cons h2] at h
    exact high_bit_or rfl (Option.some.inj h ▸ hb)
  · rw [String.utf8EncodeChar_eq_cons_cons_cons h3] at h
    exact high_bit_or rfl (Option.some.inj h ▸ hb)
  · rw [String.utf8EncodeChar_eq_cons_cons_cons_cons h4] at h
    exact high_bit_or rfl (Option.some.inj h ▸ hb)

/-- A byte of a character of one byte is at a boundary, and so is the byte after it: no
byte of a longer character is as small. -/
theorem isBoundary_of_ascii {s : String} {n : ℕ} {b : UInt8}
    (h : (asBytes s)[n]? = some b) (hb : b &&& 128 = 0) :
    IsBoundary s n ∧ IsBoundary s (n + 1) := by
  unfold IsBoundary
  unfold asBytes at h
  generalize s.toList = cs at *
  induction cs generalizing n with
  | nil =>
    rw [List.flatMap_nil, List.getElem?_nil] at h
    cases h
  | cons c cs ih =>
    rw [List.flatMap_cons] at h
    by_cases hin : n < c.utf8Size
    · -- the first byte of a character is the only one that can be as small
      have hlt : n < (String.utf8EncodeChar c).length := by
        rwa [String.length_utf8EncodeChar]
      rw [List.getElem?_append_left hlt, List.getElem?_eq_getElem hlt] at h
      obtain rfl := Option.some.inj h
      have hfirst := UInt8.isUTF8FirstByte_getElem_utf8EncodeChar.mp (Or.inl hb)
      subst hfirst
      have hsize := utf8Size_of_ascii (List.getElem?_eq_getElem hlt) hb
      constructor
      · rfl
      · rw [Nat.zero_add, dropBytes, if_pos hsize.le, hsize]
        cases cs <;> rfl
    · have hle : c.utf8Size ≤ n := Nat.le_of_not_lt hin
      obtain ⟨k, rfl⟩ := Nat.exists_eq_add_of_le hle
      rw [List.getElem?_append_right (by rw [String.length_utf8EncodeChar]; exact hle),
        String.length_utf8EncodeChar, Nat.add_sub_cancel_left] at h
      rw [Nat.add_assoc, dropBytes_add (dropBytes_utf8Size c cs),
        dropBytes_add (dropBytes_utf8Size c cs)]
      exact ih h

/-! ## Texts whose characters have one byte -/

/-- Where characters are bytes, bytes are dropped as characters. -/
theorem dropBytes_of_single {n : ℕ} {cs : List Char} (h : ∀ c ∈ cs, c.utf8Size = 1)
    (hn : n ≤ cs.length) : dropBytes n cs = some (cs.drop n) := by
  induction cs generalizing n with
  | nil =>
    obtain rfl := Nat.le_zero.mp hn
    rfl
  | cons c cs ih =>
    cases n with
    | zero => rfl
    | succ n =>
      rw [dropBytes, h c List.mem_cons_self, if_pos (Nat.le_add_left 1 n), Nat.add_sub_cancel]
      exact ih (fun d hd => h d (List.mem_cons_of_mem c hd)) (Nat.le_of_succ_le_succ hn)

/-- And taken as characters. -/
theorem takeBytes_of_single {n : ℕ} {cs : List Char} (h : ∀ c ∈ cs, c.utf8Size = 1)
    (hn : n ≤ cs.length) : takeBytes n cs = some (cs.take n) := by
  induction cs generalizing n with
  | nil =>
    obtain rfl := Nat.le_zero.mp hn
    rfl
  | cons c cs ih =>
    cases n with
    | zero => rfl
    | succ n =>
      rw [takeBytes, h c List.mem_cons_self, if_pos (Nat.le_add_left 1 n), Nat.add_sub_cancel,
        ih (fun d hd => h d (List.mem_cons_of_mem c hd)) (Nat.le_of_succ_le_succ hn)]
      rfl

/-- **A slice of a text whose characters have one byte** takes the characters between
two positions. -/
theorem slice_of_single {cs : List Char} {first last : ℕ} (h : ∀ c ∈ cs, c.utf8Size = 1)
    (hlast : last ≤ cs.length) (hle : first ≤ last) :
    slice (String.ofList cs) first last
      = Except.ok ((cs.drop first).take (last - first)) := by
  have hdrop : ∀ c ∈ cs.drop first, c.utf8Size = 1 :=
    fun c hc => h c (List.mem_of_mem_drop hc)
  unfold slice
  rw [String.toList_ofList, dropBytes_of_single h (hle.trans hlast), Option.bind_some,
    takeBytes_of_single hdrop (by rw [List.length_drop]; omega)]

/-- And counted as characters. -/
theorem byteLen_of_single {cs : List Char} (h : ∀ c ∈ cs, c.utf8Size = 1) :
    Text.byteLen (String.ofList cs) = cs.length := by
  unfold Text.byteLen
  rw [String.utf8ByteSize_ofList]
  induction cs with
  | nil => rfl
  | cons c cs ih =>
    rw [String.utf8Len_cons, h c List.mem_cons_self,
      ih fun d hd => h d (List.mem_cons_of_mem c hd), List.length_cons]

end Slices
