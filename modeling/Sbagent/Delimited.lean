import Mathlib.Data.List.DropRight

/-!
# Lists that are written a segment at a time

Something is written as a list that grows at its end, and a separator closes each segment
of it. At any time the list falls into two parts, the closed one up to its last separator
and what has been begun behind it. Only the closed part has segments, and what is written
later does not change them: the segments of a closed list and more are those of the list,
and then those of the rest (`segments_append`).
-/

namespace Delimited

variable {α : Type*} [DecidableEq α] (sep : α)

/-- The list up to its last separator. -/
def closed (l : List α) : List α := l.rdropWhile fun c => c ≠ sep

/-- The segments of a list, given what has been read of the first one, newest first. -/
def segmentsFrom (acc : List α) : List α → List (List α)
  | [] => []
  | c :: cs => if c = sep then acc.reverse :: segmentsFrom [] cs else segmentsFrom (c :: acc) cs

/-- The segments that a separator closes. -/
def segments (l : List α) : List (List α) := segmentsFrom sep [] l

/-- A list with nothing behind its last separator. -/
def Closed (l : List α) : Prop := closed sep l = l

variable {sep} {a b l s : List α}

@[simp] theorem closed_nil : closed sep ([] : List α) = [] := rfl

@[simp] theorem segments_nil : segments sep ([] : List α) = [] := rfl

/-- The finished part is finished. -/
theorem closed_closed (sep : α) (l : List α) : Closed sep (closed sep l) := List.rdropWhile_idempotent _ l

theorem Closed.nil : Closed sep ([] : List α) := rfl

/-- What is behind the last separator has none. -/
theorem exists_rest (sep : α) (l : List α) : ∃ rest, l = closed sep l ++ rest ∧ sep ∉ rest := by
  refine ⟨l.rtakeWhile fun c => c ≠ sep, List.rdropWhile_append_rtakeWhile.symm, fun hmem => ?_⟩
  simpa using List.mem_rtakeWhile_imp hmem

/-- Nothing is finished before the first separator. -/
theorem closed_eq_nil_iff : closed sep l = [] ↔ sep ∉ l := by
  unfold closed
  rw [List.rdropWhile_eq_nil_iff]
  constructor
  · intro h hmem
    simpa using h sep hmem
  · intro h c hc
    refine decide_eq_true fun heq => h ?_
    rwa [← heq]

/-- A closed list is nothing, or ends in a separator. -/
theorem Closed.cases (h : Closed sep l) : l = [] ∨ ∃ front, l = front ++ [sep] := by
  by_cases hnil : l = []
  · exact Or.inl hnil
  · refine Or.inr ⟨l.dropLast, ?_⟩
    have hlast := List.rdropWhile_eq_self_iff.mp h hnil
    have hsep : l.getLast hnil = sep := not_not.mp fun hne => hlast (decide_eq_true hne)
    conv_lhs => rw [← List.dropLast_append_getLast hnil, hsep]

/-- A separator finishes what is there. -/
theorem closed_append_sep (l : List α) : Closed sep (l ++ [sep]) :=
  List.rdropWhile_concat_neg _ _ _ (by simp)

/-- Two finished lists are finished together. -/
theorem Closed.append (ha : Closed sep a) (hb : Closed sep b) : Closed sep (a ++ b) := by
  obtain rfl | ⟨front, rfl⟩ := hb.cases
  · rwa [List.append_nil]
  · rw [← List.append_assoc]
    exact closed_append_sep _

/-- A separator begins a new segment, whatever comes before. -/
theorem segmentsFrom_append_sep (acc a b : List α) :
    segmentsFrom sep acc (a ++ sep :: b)
      = segmentsFrom sep acc (a ++ [sep]) ++ segmentsFrom sep [] b := by
  induction a generalizing acc with
  | nil => simp [segmentsFrom]
  | cons c a ih =>
    rw [List.cons_append, List.cons_append, segmentsFrom, segmentsFrom]
    split
    · rw [ih, List.cons_append]
    · exact ih (c :: acc)

/-- Without a separator no segment is finished. -/
theorem segmentsFrom_of_not_mem (acc : List α) (h : sep ∉ l) : segmentsFrom sep acc l = [] := by
  induction l generalizing acc with
  | nil => rfl
  | cons c cs ih =>
    obtain ⟨hc, hcs⟩ := not_or.mp (List.mem_cons.not.mp h)
    rw [segmentsFrom, if_neg (Ne.symm hc), ih _ hcs]

/-- The same from the start. -/
theorem segments_of_not_mem (h : sep ∉ l) : segments sep l = [] :=
  segmentsFrom_of_not_mem [] h

/-- **What is written behind a closed list adds its own segments.** -/
theorem segments_append (h : Closed sep a) :
    segments sep (a ++ b) = segments sep a ++ segments sep b := by
  obtain rfl | ⟨front, rfl⟩ := h.cases
  · rfl
  · rw [List.append_assoc]
    exact segmentsFrom_append_sep [] front b

/-- What has been begun is no segment. -/
theorem segments_closed (l : List α) : segments sep (closed sep l) = segments sep l := by
  obtain ⟨rest, hrest, hsep⟩ := exists_rest sep l
  conv_rhs => rw [hrest, segments_append (closed_closed _ _), segments_of_not_mem hsep,
    List.append_nil]

/-- No segment has a separator in it, if what was read before has none. -/
theorem sep_notMem_of_mem_segmentsFrom {acc : List α} (hacc : sep ∉ acc)
    (h : s ∈ segmentsFrom sep acc l) : sep ∉ s := by
  induction l generalizing acc with
  | nil => cases h
  | cons c cs ih =>
    rw [segmentsFrom] at h
    split at h
    case isTrue =>
      obtain rfl | h := List.mem_cons.mp h
      · rwa [List.mem_reverse]
      · exact ih (List.not_mem_nil) h
    case isFalse hc =>
      exact ih (fun hmem => (List.mem_cons.mp hmem).elim (fun heq => hc heq.symm) hacc) h

/-- No segment has a separator in it. -/
theorem sep_notMem_of_mem_segments (h : s ∈ segments sep l) : sep ∉ s :=
  sep_notMem_of_mem_segmentsFrom List.not_mem_nil h

/-- A separator behind each segment gives the closed part of the list again. -/
theorem flatMap_segments (l : List α) :
    (segments sep l).flatMap (· ++ [sep]) = closed sep l := by
  have hfrom (acc l : List α) : (segmentsFrom sep acc (l ++ [sep])).flatMap (· ++ [sep])
      = acc.reverse ++ (l ++ [sep]) := by
    induction l generalizing acc with
    | nil => simp [segmentsFrom]
    | cons c cs ih =>
      rw [List.cons_append, segmentsFrom]
      split
      case isTrue hc => rw [List.flatMap_cons, ih, hc, List.append_assoc]; rfl
      case isFalse => rw [ih, List.reverse_cons, List.append_assoc]; rfl
  rw [← segments_closed]
  obtain hnil | ⟨front, hfront⟩ := (closed_closed sep l).cases
  · rw [hnil]
    rfl
  · rw [hfront]
    exact hfrom [] front

end Delimited
