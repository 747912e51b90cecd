import Mathlib

/-!
# Files that are written through handles

A directory leads from names to files. A process that has opened a file writes
to the file and no longer to the name: what another process does to the name in
the meantime – remove it, put another file there – does not lead the handle
anywhere else. Each handle has an offset of its own, so that two processes that
write one file write over each other.

What a file holds is compared with what it is meant to hold, up to an offset
(`Upto`). A write of what is meant, at any offset, keeps that; the writer that
is at the offset itself moves it on.
-/

universe u v

namespace OpenFiles

/-! ## What a file holds -/

section Contents

variable {β : Type v}

/-- A file holds what it is meant to hold as far as an offset, and nothing beyond the end
of that. -/
structure Upto (meant : List β) (p : ℕ) (data : List β) : Prop where
  le : p ≤ meant.length
  length_le : data.length ≤ meant.length
  agree : ∀ o < p, data[o]? = meant[o]?

variable {meant data bs : List β} {off p o : ℕ}

/-- An offset up to which a file holds what is meant is not beyond its end. -/
theorem Upto.lt_length (h : Upto meant p data) (ho : o < p) : o < data.length := by
  have hlt := lt_of_lt_of_le ho h.le
  have hsome := h.agree o ho
  rw [List.getElem?_eq_getElem hlt] at hsome
  exact (List.getElem?_eq_some_iff.mp hsome).choose

/-- An empty file is right as far as it goes. -/
theorem Upto.nil : Upto meant 0 ([] : List β) :=
  ⟨Nat.zero_le _, Nat.zero_le _, fun _ ho => absurd ho (Nat.not_lt_zero _)⟩

/-- A file that holds what is meant up to the end holds that. -/
theorem Upto.eq (h : Upto meant meant.length data) : data = meant := by
  refine List.ext_getElem? fun o => ?_
  rcases lt_or_ge o meant.length with hlt | hge
  · exact h.agree o hlt
  · rw [List.getElem?_eq_none hge, List.getElem?_eq_none (h.length_le.trans hge)]

/-- The part of what is meant that is written in one go. -/
theorem getElem?_piece {n : ℕ} (hoff : off ≤ o) (ho : o < off + ((meant.drop off).take n).length) :
    ((meant.drop off).take n)[o - off]? = meant[o]? := by
  have hlt : o - off < n := by
    rw [List.length_take] at ho
    omega
  rw [List.getElem?_take_of_lt hlt, List.getElem?_drop]
  congr 1
  omega

/-- A piece of what is meant ends before the end of it. -/
theorem length_piece_le (n : ℕ) (hoff : off ≤ meant.length) :
    off + ((meant.drop off).take n).length ≤ meant.length := by
  rw [List.length_take, List.length_drop]
  omega

variable [Zero β]

/-- Write over what a file holds, from an offset on. What lies between its end and
the offset reads as zeros. -/
def overwrite (data : List β) (off : ℕ) (bs : List β) : List β :=
  (data ++ List.replicate (off - data.length) 0).take off ++ bs
    ++ data.drop (off + bs.length)

/-- What precedes the written bytes is as long as their offset. -/
theorem length_overwrite_head (data : List β) (off : ℕ) :
    ((data ++ List.replicate (off - data.length) 0).take off).length = off := by
  rw [List.length_take, List.length_append, List.length_replicate]
  omega

/-- A file does not get shorter when it is written to. -/
theorem length_overwrite :
    (overwrite data off bs).length = max data.length (off + bs.length) := by
  unfold overwrite
  rw [List.length_append, List.length_append, length_overwrite_head, List.length_drop]
  omega

/-- Bytes before the written ones stay. -/
theorem getElem?_overwrite_of_lt (ho : o < off) (hdata : o < data.length) :
    (overwrite data off bs)[o]? = data[o]? := by
  have hhead : o < ((data ++ List.replicate (off - data.length) 0).take off).length := by
    rw [length_overwrite_head]
    exact ho
  unfold overwrite
  rw [List.append_assoc, List.getElem?_append_left hhead, List.getElem?_take_of_lt ho,
    List.getElem?_append_left hdata]

/-- The written bytes are there. -/
theorem getElem?_overwrite_of_mem (hoff : off ≤ o) (ho : o < off + bs.length) :
    (overwrite data off bs)[o]? = bs[o - off]? := by
  have hhead := length_overwrite_head data off
  unfold overwrite
  rw [List.append_assoc, List.getElem?_append_right (by omega), hhead,
    List.getElem?_append_left (by omega)]

/-- Bytes behind the written ones stay. -/
theorem getElem?_overwrite_of_ge (ho : off + bs.length ≤ o) :
    (overwrite data off bs)[o]? = data[o]? := by
  have hhead := length_overwrite_head data off
  unfold overwrite
  rw [List.append_assoc, List.getElem?_append_right (by omega), hhead,
    List.getElem?_append_right (by omega), List.getElem?_drop]
  congr 1
  omega

/-- **Whoever writes what is meant breaks nothing**, wherever it writes. -/
theorem Upto.overwrite (h : Upto meant p data) (hoff : off ≤ meant.length) (n : ℕ) :
    Upto meant p (overwrite data off ((meant.drop off).take n)) where
  le := h.le
  length_le := by
    rw [length_overwrite]
    exact max_le h.length_le (length_piece_le n hoff)
  agree := by
    intro o ho
    rcases lt_or_ge o off with hlt | hge
    · rw [getElem?_overwrite_of_lt hlt (h.lt_length ho)]
      exact h.agree o ho
    · rcases lt_or_ge o (off + ((meant.drop off).take n).length) with hin | hout
      · rw [getElem?_overwrite_of_mem hge hin]
        exact getElem?_piece hge hin
      · rw [getElem?_overwrite_of_ge hout]
        exact h.agree o ho

/-- **Whoever writes at the offset moves it on.** -/
theorem Upto.advance (h : Upto meant off data) (n : ℕ) :
    Upto meant (off + ((meant.drop off).take n).length)
      (OpenFiles.overwrite data off ((meant.drop off).take n)) where
  le := length_piece_le n h.le
  length_le := (h.overwrite h.le n).length_le
  agree := by
    intro o ho
    rcases lt_or_ge o off with hlt | hge
    · exact (h.overwrite h.le n).agree o hlt
    · rw [getElem?_overwrite_of_mem hge ho]
      exact getElem?_piece hge ho

end Contents

/-! ## Directories -/

/-- Names and the files that they lead to. No file has two names, and a new file gets
a number that no file has had. -/
structure Directory (ν : Type u) (β : Type v) where
  file : ν → Option ℕ
  data : ℕ → List β
  next : ℕ
  lt_next : ∀ n i, file n = some i → i < next
  inj : ∀ n m i, file n = some i → file m = some i → n = m

namespace Directory

variable {ν : Type u} {β : Type v} (d : Directory ν β)

/-- What a name leads to, if it leads anywhere. -/
def read (n : ν) : Option (List β) :=
  (d.file n).map d.data

/-- Change what a file holds. -/
def store (i : ℕ) (bs : List β) : Directory ν β where
  file := d.file
  data := Function.update d.data i bs
  next := d.next
  lt_next := d.lt_next
  inj := d.inj

section

variable {d} {n : ν} {i j : ℕ} {bs : List β}

@[simp] theorem file_store : (d.store i bs).file = d.file := rfl

@[simp] theorem data_store_self : (d.store i bs).data i = bs := Function.update_self ..

/-- Other files stay as they are. -/
theorem data_store_of_ne (h : j ≠ i) : (d.store i bs).data j = d.data j :=
  Function.update_of_ne h ..

/-- What is read under a name is the data of the file that it is of. -/
theorem read_eq_some_iff : d.read n = some bs ↔ ∃ i, d.file n = some i ∧ d.data i = bs := by
  unfold read
  exact Option.map_eq_some_iff

/-- Nothing is read under a name of no file. -/
theorem read_eq_none_iff : d.read n = none ↔ d.file n = none := by
  unfold read
  exact Option.map_eq_none_iff

end

variable [DecidableEq ν]

/-- A new file under a name. -/
def link (n : ν) (bs : List β) : Directory ν β where
  file := Function.update d.file n (some d.next)
  data := Function.update d.data d.next bs
  next := d.next + 1
  lt_next := by
    intro m i hm
    by_cases hmn : m = n
    · subst hmn
      rw [Function.update_self] at hm
      rw [← Option.some.inj hm]
      exact Nat.lt_succ_self _
    · rw [Function.update_of_ne hmn] at hm
      exact Nat.lt_succ_of_lt (d.lt_next m i hm)
  inj := by
    have hold : ∀ m i, m ≠ n → Function.update d.file n (some d.next) m = some i →
        i ≠ d.next := by
      intro m i hmn hm
      rw [Function.update_of_ne hmn] at hm
      exact (d.lt_next m i hm).ne
    intro m m' i hm hm'
    by_cases hmn : m = n
    · by_cases hmn' : m' = n
      · rw [hmn, hmn']
      · subst hmn
        rw [Function.update_self] at hm
        exact absurd (Option.some.inj hm).symm (hold m' i hmn' hm')
    · by_cases hmn' : m' = n
      · subst hmn'
        rw [Function.update_self] at hm'
        exact absurd (Option.some.inj hm').symm (hold m i hmn hm)
      · rw [Function.update_of_ne hmn] at hm
        rw [Function.update_of_ne hmn'] at hm'
        exact d.inj m m' i hm hm'

/-- A name leads nowhere any more. -/
def unlink (n : ν) : Directory ν β where
  file := Function.update d.file n none
  data := d.data
  next := d.next
  lt_next := by
    intro m i hm
    by_cases hmn : m = n
    · subst hmn
      rw [Function.update_self] at hm
      cases hm
    · rw [Function.update_of_ne hmn] at hm
      exact d.lt_next m i hm
  inj := by
    have hold : ∀ m i, Function.update d.file n none m = some i → d.file m = some i := by
      intro m i hm
      by_cases hmn : m = n
      · subst hmn
        rw [Function.update_self] at hm
        cases hm
      · rwa [Function.update_of_ne hmn] at hm
    intro m m' i hm hm'
    exact d.inj m m' i (hold m i hm) (hold m' i hm')

variable {d} {n m : ν} {j : ℕ} {bs : List β}

@[simp] theorem file_link_self : (d.link n bs).file n = some d.next := Function.update_self ..

/-- A new name leaves the others. -/
theorem file_link_of_ne (h : m ≠ n) : (d.link n bs).file m = d.file m :=
  Function.update_of_ne h ..

@[simp] theorem data_link_next : (d.link n bs).data d.next = bs := Function.update_self ..

/-- A new file leaves the others. -/
theorem data_link_of_ne (h : j ≠ d.next) : (d.link n bs).data j = d.data j :=
  Function.update_of_ne h ..

@[simp] theorem file_unlink_self : (d.unlink n).file n = none := Function.update_self ..

/-- So does taking a name away. -/
theorem file_unlink_of_ne (h : m ≠ n) : (d.unlink n).file m = d.file m :=
  Function.update_of_ne h ..

end Directory

end OpenFiles
