import Sbagent.Fallible
import Sbagent.Text

/-!
# Files with one record a line

A log of records is often a text file: a record is appended by writing its text
and a line feed, and the records are read back line by line. Blank lines are
passed over, and so is a line that is no record.

A writer that only ever appends does not look at how the file ends. Most files
end in a line feed. But a write may have been cut off, or the file may have been
edited by hand, and then the next record is written onto a line that is there
already. What a file holds therefore falls into two parts: what is `finished`,
up to its last line feed, and what is `unfinished`, behind it. Everything that
is said here about appending is said about the unfinished part
(`records_append_iff`).

A file need not be text. It is a sequence of characters, and of bytes that are
not part of any: where a write ends in the middle of a character, for one.
-/

open Fallible

universe u

/-- What a file holds: characters, and nothing in the place of a byte that is
not part of one. -/
abbrev RawText : Type := List (Option Char)

namespace Jsonl

/-! ## Lines -/

/-- A text as a file holds it. -/
def ofString (s : String) : RawText := s.toList.map some

/-- The text that a file holds, if it is one. -/
def decode (raw : RawText) : Option String :=
  if raw.all Option.isSome = true then some (String.ofList raw.reduceOption) else none

/-- A line as it was read, newest first: a carriage return before the line feed
is not part of it. -/
def endLine : RawText → RawText
  | some '\r' :: cs => cs.reverse
  | cs => cs.reverse

/-- The lines of a file, given what has been read of the first one, newest
first. A file that ends in a line feed has no empty line after it. -/
def linesFrom (line : RawText) : RawText → List RawText
  | [] => if line = [] then [] else [line.reverse]
  | c :: cs =>
    if c = some '\n' then endLine line :: linesFrom [] cs else linesFrom (c :: line) cs

/-- The lines of a file. -/
def lines (raw : RawText) : List RawText := linesFrom [] raw

/-- A file up to its last line feed. -/
def finished (raw : RawText) : RawText := raw.rdropWhile fun c => c ≠ some '\n'

/-- What is behind the last line feed. -/
def unfinished (raw : RawText) : RawText := raw.rtakeWhile fun c => c ≠ some '\n'

/-- A text and a line feed, as they are appended. -/
def line (text : String) : RawText := ofString text ++ [some '\n']

/-- A text that is one line. -/
structure IsLine (text : String) : Prop where
  noFeed : '\n' ∉ text.toList
  noReturn : text.toList.getLast? ≠ some '\r'
  notEmpty : text ≠ ""

/-- A text that is one line, from an opening to a closing brace. -/
structure IsObjectText (text : String) : Prop where
  noFeed : '\n' ∉ text.toList
  first : text.toList.head? = some '\x7b'
  last : text.toList.getLast? = some '\x7d'

namespace IsObjectText

variable {text : String} (h : IsObjectText text)

include h

/-- An object is written on one line. -/
theorem isLine : IsLine text where
  noFeed := h.noFeed
  noReturn := by
    rw [h.last]
    decide
  notEmpty hempty := by
    have hfirst := h.first
    rw [hempty] at hfirst
    cases hfirst

/-- It is not blank. -/
theorem not_isBlank : Text.isBlank text = false := by
  have hfirst := h.first
  unfold Text.isBlank
  cases htext : text.toList with
  | nil =>
    rw [htext] at hfirst
    cases hfirst
  | cons c cs =>
    rw [htext] at hfirst
    obtain rfl := Option.some.inj hfirst
    rfl

/-- It begins with a brace. -/
theorem head_not_isWhiteSpace : text.toList.head?.any Text.isWhiteSpace = false := by
  rw [h.first]
  rfl

/-- It ends with one. -/
theorem last_not_isWhiteSpace : text.toList.getLast?.any Text.isWhiteSpace = false := by
  rw [h.last]
  rfl

end IsObjectText

section Lines

variable {raw a b : RawText} {s text : String}

@[simp] theorem decode_ofString (s : String) : decode (ofString s) = some s := by
  have hall : (ofString s).all Option.isSome = true := by simp [ofString]
  have hred : (ofString s).reduceOption = s.toList := by
    unfold ofString List.reduceOption
    rw [List.filterMap_map]
    exact List.filterMap_some
  rw [decode, if_pos hall, hred, String.ofList_toList]

/-- Two files are decoded one after the other. -/
theorem decode_append : decode (a ++ b)
    = (decode a).bind fun s => (decode b).map fun t => s ++ t := by
  unfold decode
  rw [List.all_append, List.reduceOption_append]
  by_cases ha : a.all Option.isSome = true
  · by_cases hb : b.all Option.isSome = true
    · simp [ha, hb, String.ofList_append]
    · simp [ha, hb]
  · simp [ha]

/-- A file of whole characters is a text. -/
theorem ofString_reduceOption (h : raw.all Option.isSome = true) :
    ofString (String.ofList raw.reduceOption) = raw := by
  unfold ofString
  rw [String.toList_ofList]
  induction raw with
  | nil => rfl
  | cons c cs ih =>
    rw [List.all_cons, Bool.and_eq_true] at h
    obtain ⟨d, rfl⟩ := Option.isSome_iff_exists.mp h.left
    rw [List.reduceOption_cons_of_some, List.map_cons, ih h.right]

/-- A file holds a text when each of its bytes is part of a character. -/
theorem decode_eq_some_iff : decode raw = some s ↔ raw = ofString s := by
  constructor
  · intro h
    unfold decode at h
    split at h
    case isTrue hall =>
      rw [← Option.some.inj h, ofString_reduceOption hall]
    case isFalse => cases h
  · rintro rfl
    exact decode_ofString s

/-- A line of a text ends as the line of the file does. -/
theorem endLine_map_some (acc : List Char) :
    endLine (acc.map some) = ofString (String.ofList (Text.endLine acc)) := by
  unfold ofString
  rw [String.toList_ofList]
  cases acc with
  | nil => rfl
  | cons c cs =>
    by_cases hc : c = '\r'
    · subst hc
      exact List.map_reverse.symm
    · unfold endLine Text.endLine
      split
      case h_1 hcr => simp_all
      case h_2 =>
        split
        case h_1 hcr => simp_all
        case h_2 => exact List.map_reverse.symm

/-- The lines of a file that holds a text are those of the text. -/
theorem lines_ofString (s : String) : lines (ofString s) = (Text.lines s).map ofString := by
  have hfrom : ∀ (cs acc : List Char), linesFrom (acc.map some) (cs.map some)
      = (Text.linesFrom acc cs).map ofString := by
    intro cs
    induction cs with
    | nil =>
      intro acc
      rw [List.map_nil, linesFrom, Text.linesFrom]
      by_cases hacc : acc = []
      · simp [hacc]
      · simp [hacc, ofString]
    | cons c cs ih =>
      intro acc
      rw [List.map_cons, linesFrom, Text.linesFrom]
      by_cases hc : c = '\n'
      · rw [if_pos (congrArg some hc), if_pos hc, List.map_cons, endLine_map_some]
        exact congrArg (List.cons _) (ih [])
      · rw [if_neg fun h => hc (Option.some.inj h), if_neg hc]
        exact ih (c :: acc)
  exact hfrom s.toList []

/-- A file is its finished lines and the rest. -/
theorem finished_append_unfinished (raw : RawText) :
    finished raw ++ unfinished raw = raw :=
  List.rdropWhile_append_rtakeWhile

/-- Without a rest it is its finished lines. -/
theorem finished_of_unfinished_nil (h : unfinished raw = []) : finished raw = raw := by
  conv_rhs => rw [← finished_append_unfinished raw, h, List.append_nil]

/-- Something without a line feed is appended to what is unfinished. -/
theorem finished_append_of_noFeed (h : ∀ c ∈ b, c ≠ some '\n') :
    finished (a ++ b) = finished a := by
  unfold finished
  induction b using List.reverseRecOn with
  | nil => rw [List.append_nil]
  | append_singleton b c ih =>
    have hc : c ≠ some '\n' := h c (by simp)
    rw [← List.append_assoc, List.rdropWhile_concat_pos _ _ _ (by simpa using hc)]
    exact ih fun d hd => h d (List.mem_append_left _ hd)

/-- What has no line feed is added to the rest. -/
theorem unfinished_append_of_noFeed (h : ∀ c ∈ b, c ≠ some '\n') :
    unfinished (a ++ b) = unfinished a ++ b := by
  have hall := finished_append_unfinished (a ++ b)
  rw [finished_append_of_noFeed h] at hall
  have hsame : finished a ++ unfinished (a ++ b) = finished a ++ (unfinished a ++ b) := by
    rw [hall, ← List.append_assoc, finished_append_unfinished]
  exact List.append_cancel_left hsame

/-- The rest has no line feed. -/
theorem ne_of_mem_unfinished {c : Option Char} (h : c ∈ unfinished raw) :
    c ≠ some '\n' := by
  have hc := List.mem_rtakeWhile_imp h
  exact of_decide_eq_true hc

/-- What is finished is nothing, or ends in a line feed. -/
theorem finished_cases (raw : RawText) :
    finished raw = [] ∨ ∃ pre, finished raw = pre ++ [some '\n'] := by
  by_cases hnil : finished raw = []
  · exact Or.inl hnil
  · have hlast := List.rdropWhile_last_not _ raw hnil
    refine Or.inr ⟨(finished raw).dropLast, ?_⟩
    have hfeed : (finished raw).getLast hnil = some '\n' :=
      not_not.mp fun hne => hlast (decide_eq_true hne)
    rw [← hfeed, List.dropLast_append_getLast]

/-- A line feed begins a new line, whatever comes before. -/
theorem linesFrom_append_feed (acc a b : RawText) :
    linesFrom acc (a ++ some '\n' :: b)
      = linesFrom acc (a ++ [some '\n']) ++ linesFrom [] b := by
  induction a generalizing acc with
  | nil => simp [linesFrom]
  | cons c a ih =>
    rw [List.cons_append, List.cons_append, linesFrom, linesFrom]
    split
    · rw [ih, List.cons_append]
    · exact ih (c :: acc)

/-- **The lines of a file are those of its finished part, and then those of what
is behind it.** -/
theorem lines_finished_append (raw b : RawText) :
    lines (finished raw ++ b) = lines (finished raw) ++ lines b := by
  unfold lines
  obtain hnil | ⟨pre, hpre⟩ := finished_cases raw
  · rw [hnil]
    rfl
  · rw [hpre, List.append_assoc]
    exact linesFrom_append_feed [] pre b

/-- Without a line feed there is one line. -/
theorem linesFrom_of_noFeed (acc : RawText) (h : ∀ c ∈ a, c ≠ some '\n') :
    linesFrom acc a = if acc = [] ∧ a = [] then [] else [acc.reverse ++ a] := by
  induction a generalizing acc with
  | nil => simp [linesFrom]
  | cons c a ih =>
    rw [linesFrom, if_neg (h c List.mem_cons_self),
      ih (c :: acc) fun d hd => h d (List.mem_cons_of_mem c hd)]
    simp

/-- A line with its line feed. -/
theorem linesFrom_feed_of_noFeed (acc : RawText) (h : ∀ c ∈ a, c ≠ some '\n') :
    linesFrom acc (a ++ [some '\n']) = [endLine (a.reverse ++ acc)] := by
  induction a generalizing acc with
  | nil => rfl
  | cons c a ih =>
    rw [List.cons_append, linesFrom, if_neg (h c List.mem_cons_self),
      ih (c :: acc) fun d hd => h d (List.mem_cons_of_mem c hd)]
    simp

/-- A line that does not end in a carriage return is as it is. -/
theorem endLine_reverse (h : a.getLast? ≠ some (some '\r')) :
    endLine a.reverse = a := by
  unfold endLine
  split
  case h_1 cs hcs =>
    have hrev := congrArg List.reverse hcs
    rw [List.reverse_reverse, List.reverse_cons] at hrev
    rw [hrev] at h
    simp at h
  case h_2 => exact List.reverse_reverse a

/-- The last line of a file, when it is not finished. -/
theorem lines_eq (raw : RawText) : lines raw
    = lines (finished raw) ++ if unfinished raw = [] then [] else [unfinished raw] := by
  conv_lhs => rw [← finished_append_unfinished raw, lines_finished_append]
  congr 1
  unfold lines
  rw [linesFrom_of_noFeed [] fun c hc => ne_of_mem_unfinished hc]
  simp

/-- A line has no line feed in it. -/
theorem ne_of_mem_ofString {c : Option Char} (h : IsLine text) (hc : c ∈ ofString text) :
    c ≠ some '\n' := by
  obtain ⟨d, hd, rfl⟩ := List.mem_map.mp hc
  rintro hfeed
  exact h.noFeed (Option.some.inj hfeed ▸ hd)

/-- It does not end in a carriage return, whatever comes before. -/
theorem getLast?_append_ofString (h : IsLine text) (a : RawText) :
    (a ++ ofString text).getLast? ≠ some (some '\r') := by
  have hne : ofString text ≠ [] := by
    intro hnil
    have htext : text.toList = [] := List.map_eq_nil_iff.mp hnil
    exact h.notEmpty (String.toList_eq_nil_iff.mp htext)
  rw [List.getLast?_append_of_ne_nil _ hne]
  unfold ofString
  rw [List.getLast?_map]
  intro hlast
  obtain ⟨c, hc, hcr⟩ := Option.map_eq_some_iff.mp hlast
  rw [Option.some.inj hcr] at hc
  exact h.noReturn hc

/-- **A line is appended to what is unfinished.** -/
theorem lines_append_line (h : IsLine text) (raw : RawText) : lines (raw ++ line text)
    = lines (finished raw) ++ [unfinished raw ++ ofString text] := by
  conv_lhs => rw [← finished_append_unfinished raw, List.append_assoc,
    lines_finished_append]
  congr 1
  have hfeed : ∀ c ∈ unfinished raw ++ ofString text, c ≠ some '\n' := by
    intro c hc
    rcases List.mem_append.mp hc with hc | hc
    · exact ne_of_mem_unfinished hc
    · exact ne_of_mem_ofString h hc
  show linesFrom [] (unfinished raw ++ (ofString text ++ [some '\n'])) = _
  rw [← List.append_assoc, linesFrom_feed_of_noFeed [] hfeed, List.append_nil,
    endLine_reverse (getLast?_append_ofString h _)]

/-- A line leaves nothing unfinished. -/
@[simp] theorem unfinished_append_line (raw : RawText) (text : String) :
    unfinished (raw ++ line text) = [] := by
  unfold unfinished line
  rw [← List.append_assoc]
  exact List.rtakeWhile_concat_neg _ _ _ (by simp)

end Lines

/-! ## Records -/

section Records

variable {ρ : Type u} (read : String → Fallible ρ)

/-- The record on a line, if it is one: blank lines are not. -/
def entry (raw : RawText) : Option ρ :=
  (decode raw).bind fun l => if Text.isBlank l = true then none else (read l).toOption

/-- The records of a file, in its order. -/
def records (raw : RawText) : List ρ := (lines raw).filterMap (entry read)

/-- A line is neither blank nor a record. -/
def isJunk (raw : RawText) : Bool :=
  !((decode raw).any Text.isBlank) && (entry read raw).isNone

/-- The lines of a file that are neither blank nor records. -/
def junk (raw : RawText) : List RawText := (lines raw).filter (isJunk read)

/-- A text is what is written of a record: it is one line, and is read as that
record. -/
structure Writes (text : String) (r : ρ) : Prop where
  isLine : IsLine text
  notBlank : Text.isBlank text = false
  reads : read text = Except.ok r

/-- A file in which some lines are written. -/
def render (texts : List String) : RawText := texts.flatMap line

variable {read} {raw : RawText} {text : String} {r : ρ}

@[simp] theorem entry_nil : entry read [] = none := rfl

/-- A line that is written is an entry. -/
theorem Writes.entry_eq (h : Writes read text r) : entry read (ofString text) = some r := by
  rw [entry, decode_ofString, Option.bind_some, if_neg (by simp [h.notBlank]), h.reads]
  rfl

/-- It is no other line. -/
theorem Writes.not_isJunk (h : Writes read text r) :
    isJunk read (ofString text) = false := by
  simp [isJunk, h.entry_eq]

/-- The records of a file are the finished ones, and perhaps one more. -/
theorem records_eq (raw : RawText) : records read raw
    = records read (finished raw) ++ (entry read (unfinished raw)).toList := by
  unfold records
  rw [lines_eq raw, List.filterMap_append]
  congr 1
  by_cases hnil : unfinished raw = []
  · rw [if_pos hnil, hnil]
    rfl
  · rw [if_neg hnil]
    cases hentry : entry read (unfinished raw) <;> simp [hentry]

/-- The records after a line was appended. -/
theorem records_append_line (h : IsLine text) (raw : RawText) :
    records read (raw ++ line text) = records read (finished raw)
      ++ (entry read (unfinished raw ++ ofString text)).toList := by
  unfold records
  rw [lines_append_line h, List.filterMap_append, List.append_cancel_left_eq]
  cases hentry : entry read (unfinished raw ++ ofString text) <;> simp [hentry]

/-- The records after something without a line feed was appended. -/
theorem records_append_of_noFeed {b : RawText} (h : ∀ c ∈ b, c ≠ some '\n')
    (raw : RawText) : records read (raw ++ b)
      = records read (finished raw) ++ (entry read (unfinished raw ++ b)).toList := by
  rw [records_eq, finished_append_of_noFeed h, unfinished_append_of_noFeed h]

/-- **Appending a record adds it to the records that were there exactly when
what is unfinished is no record, and is none of the record's text either.** -/
theorem records_append_iff (h : IsLine text) (raw : RawText) (r : ρ) :
    records read (raw ++ line text) = records read raw ++ [r]
      ↔ entry read (unfinished raw) = none
        ∧ entry read (unfinished raw ++ ofString text) = some r := by
  rw [records_append_line h, records_eq raw, List.append_assoc,
    List.append_cancel_left_eq]
  cases entry read (unfinished raw) with
  | none => cases entry read (unfinished raw ++ ofString text) <;> simp
  | some x => cases entry read (unfinished raw ++ ofString text) <;> simp

/-- A line that is no record stays, whatever is appended, if it is finished. -/
theorem mem_junk_append {l : RawText} (hraw : isJunk read (unfinished raw) = false)
    (hl : l ∈ junk read raw) (b : RawText) : l ∈ junk read (raw ++ b) := by
  have hfin : l ∈ (lines (finished raw)).filter (isJunk read) := by
    unfold junk at hl
    rw [lines_eq raw, List.filter_append, List.mem_append] at hl
    obtain hl | hl := hl
    · exact hl
    · obtain ⟨hmem, hjunk⟩ := List.mem_filter.mp hl
      split at hmem
      · cases hmem
      · rw [List.mem_singleton.mp hmem, hraw] at hjunk
        cases hjunk
  have hlines : lines (raw ++ b) = lines (finished raw) ++ lines (unfinished raw ++ b) := by
    rw [← lines_finished_append, ← List.append_assoc, finished_append_unfinished]
  unfold junk
  rw [hlines, List.filter_append]
  exact List.mem_append_left _ hfin

variable {texts : List String} {rs : List ρ}

/-- What is written ends in a line feed, if anything is. -/
theorem unfinished_render (texts : List String) : unfinished (render texts) = [] := by
  cases texts using List.reverseRecOn with
  | nil => rfl
  | append_singleton texts t => simp [render, List.flatMap_append]

/-- The lines of what is written are the texts. -/
theorem lines_render (h : ∀ t ∈ texts, IsLine t) :
    lines (render texts) = texts.map ofString := by
  induction texts using List.reverseRecOn with
  | nil => rfl
  | append_singleton texts t ih =>
    have htexts : ∀ t ∈ texts, IsLine t := fun t ht => h t (List.mem_append_left _ ht)
    have ht : IsLine t := h t (by simp)
    have hun := unfinished_render texts
    have hsplit : render (texts ++ [t]) = render texts ++ line t := by
      simp [render, List.flatMap_append]
    rw [hsplit, lines_append_line ht, finished_of_unfinished_nil hun, hun, ih htexts]
    simp

/-- Each of them is a line, and none is junk. -/
theorem isLine_of_writes (h : List.Forall₂ (Writes read) texts rs) :
    ∀ t ∈ texts, IsLine t ∧ isJunk read (ofString t) = false := by
  induction h with
  | nil => exact fun _ ht => nomatch ht
  | cons ht _ ih => exact List.forall_mem_cons.mpr ⟨⟨ht.isLine, ht.not_isJunk⟩, ih⟩

/-- **What is written is read.** -/
theorem records_render (h : List.Forall₂ (Writes read) texts rs) :
    records read (render texts) = rs := by
  unfold records
  rw [lines_render fun t ht => (isLine_of_writes h t ht).left, List.filterMap_map]
  induction h with
  | nil => rfl
  | cons ht _ ih => rw [List.filterMap_cons, Function.comp, ht.entry_eq, ih]

/-- What is written has no lines that are no records. -/
theorem junk_render (h : List.Forall₂ (Writes read) texts rs) :
    junk read (render texts) = [] := by
  unfold junk
  rw [lines_render fun t ht => (isLine_of_writes h t ht).left]
  refine List.filter_eq_nil_iff.mpr fun l hl => ?_
  obtain ⟨t, ht, rfl⟩ := List.mem_map.mp hl
  simp [(isLine_of_writes h t ht).right]

end Records

end Jsonl
