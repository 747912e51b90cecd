import Mathlib

/-!
# What a sequence of entries adds up to, key by key

A tally has one number for each key that came up, the sum of the numbers that came with it.
It can be kept as a map, to which each entry is added when it comes, and whoever keeps it
need not have the entries themselves (`Tally.Of`).

Someone who starts in the middle of the sequence keeps a tally of the rest. It is that of
the whole sequence only if what came before comes to nothing: if nothing but zeros came,
under keys that come up again (`total_append_eq_right_iff`).
-/

universe u v

namespace Tally

variable {κ : Type u} {M : Type v}

/-- The sum of the numbers that came with a key, if it came up. -/
def total [DecidableEq κ] [AddMonoid M] (es : List (κ × M)) (k : κ) : Option M :=
  if k ∈ es.map Prod.fst then some ((es.filter fun e => e.fst = k).map Prod.snd).sum else none

/-- Add a number to that of a key, or set it. -/
def add [Ord κ] [Add M] (m : Std.ExtTreeMap κ M) [Std.TransOrd κ] (k : κ) (d : M) :
    Std.ExtTreeMap κ M :=
  m.alter k fun
    | some x => some (x + d)
    | none => some d

section Total

variable [DecidableEq κ] [AddMonoid M] {es es' : List (κ × M)} {k k' : κ} {d : M}

@[simp] theorem total_nil : total ([] : List (κ × M)) k = none := rfl

/-- There is no total exactly of what is not counted. -/
theorem total_eq_none_iff : total es k = none ↔ k ∉ es.map Prod.fst := by
  unfold total
  by_cases h : k ∈ es.map Prod.fst
  · rw [if_pos h]
    exact iff_of_false (Option.some_ne_none _) (not_not_intro h)
  · rw [if_neg h]
    exact iff_of_true rfl h

/-- The number that a tally has for a key is zero as long as the key has not come up. -/
theorem getD_total :
    (total es k).getD 0 = ((es.filter fun e => e.fst = k).map Prod.snd).sum := by
  unfold total
  split_ifs with h
  · rfl
  · have hnone : (es.filter fun e => e.fst = k) = [] := by
      refine List.filter_eq_nil_iff.mpr fun e he hk => h ?_
      exact of_decide_eq_true hk ▸ List.mem_map_of_mem he
    rw [hnone]
    rfl

/-- What is counted has a total. -/
theorem total_of_mem (h : k ∈ es.map Prod.fst) : total es k = some ((total es k).getD 0) := by
  unfold total
  rw [if_pos h]
  rfl

/-- The totals of two lists are added. -/
theorem getD_total_append :
    (total (es ++ es') k).getD 0 = (total es k).getD 0 + (total es' k).getD 0 := by
  simp only [getD_total]
  rw [List.filter_append, List.map_append, List.sum_append]

/-- A key that comes up last has its number added. The others stay as they are. -/
theorem total_append_singleton :
    total (es ++ [(k, d)]) k'
      = if k' = k then some ((total es k).getD 0 + d) else total es k' := by
  split_ifs with h
  · subst h
    have hmem : k' ∈ (es ++ [(k', d)]).map Prod.fst := by simp
    have hsum : (total (es ++ [(k', d)]) k').getD 0
        = (total es k').getD 0 + (total [(k', d)] k').getD 0 := getD_total_append
    have hone : (total [(k', d)] k').getD 0 = d := by simp [total]
    rw [total_of_mem hmem, hsum, hone]
  · have hkeys : k' ∈ (es ++ [(k, d)]).map Prod.fst ↔ k' ∈ es.map Prod.fst := by simp [h]
    have hfilter : (es ++ [(k, d)]).filter (fun e => e.fst = k')
        = es.filter fun e => e.fst = k' := by
      simp [Ne.symm h]
    unfold total
    rw [if_congr hkeys rfl rfl, hfilter]

end Total

/-! ## A map that is kept -/

section Map

variable [Ord κ] [Std.TransOrd κ] [Std.LawfulEqOrd κ] [DecidableEq κ] [AddMonoid M]
variable {m : Std.ExtTreeMap κ M} {es : List (κ × M)}

/-- **A map is the tally of a sequence.** -/
def Of (m : Std.ExtTreeMap κ M) (es : List (κ × M)) : Prop := ∀ k, m[k]? = total es k

omit [Std.LawfulEqOrd κ] in

/-- An empty table is that of nothing. -/
theorem of_nil : Of (∅ : Std.ExtTreeMap κ M) [] := fun _ => Std.ExtTreeMap.getElem?_empty

/-- **Adding an entry to the tally of a sequence makes it that of the longer one.** -/
theorem Of.add (h : Of m es) (k : κ) (d : M) : Of (add m k d) (es ++ [(k, d)]) := by
  intro k'
  rw [total_append_singleton]
  unfold Tally.add
  rw [Std.ExtTreeMap.getElem?_alter]
  by_cases hk : k' = k
  · subst hk
    rw [if_pos (Std.ReflCmp.compare_self), if_pos rfl, h k']
    cases total es k' with
    | none => exact congrArg some (zero_add d).symm
    | some x => rfl
  · rw [if_neg (mt Std.LawfulEqCmp.eq_of_compare (Ne.symm hk)), if_neg hk, h k']

end Map

/-! ## Starting in the middle -/

section Middle

variable [DecidableEq κ] [AddCommMonoid M] [PartialOrder M] [IsOrderedCancelAddMonoid M]
  [CanonicallyOrderedAdd M]
variable {es es' : List (κ × M)}

/-- **The tally of the rest of a sequence is that of the whole if what came before comes to
nothing.** -/
theorem total_append_eq_right_iff :
    (∀ k, total (es ++ es') k = total es' k)
      ↔ ∀ e ∈ es, e.fst ∈ es'.map Prod.fst ∧ e.snd = 0 := by
  constructor
  · intro h e he
    have hmem : e.fst ∈ (es ++ es').map Prod.fst :=
      List.mem_map_of_mem (List.mem_append_left _ he)
    have hright : e.fst ∈ es'.map Prod.fst := by
      by_contra hnot
      exact total_eq_none_iff.mp ((h e.fst).trans (total_eq_none_iff.mpr hnot)) hmem
    refine ⟨hright, ?_⟩
    have hsum : (total (es ++ es') e.fst).getD 0
        = (total es e.fst).getD 0 + (total es' e.fst).getD 0 := getD_total_append
    rw [h e.fst, right_eq_add, getD_total, List.sum_eq_zero_iff] at hsum
    refine hsum e.snd (List.mem_map_of_mem (List.mem_filter.mpr ⟨he, ?_⟩))
    exact decide_eq_true rfl
  · intro h k
    by_cases hk : k ∈ es'.map Prod.fst
    · have hzero : (total es k).getD 0 = 0 := by
        rw [getD_total]
        refine List.sum_eq_zero fun x hx => ?_
        obtain ⟨e, he, rfl⟩ := List.mem_map.mp hx
        exact (h e (List.mem_of_mem_filter he)).right
      have hsum : (total (es ++ es') k).getD 0
          = (total es k).getD 0 + (total es' k).getD 0 := getD_total_append
      rw [hzero, zero_add] at hsum
      have hmem : k ∈ (es ++ es').map Prod.fst := by
        rw [List.map_append]
        exact List.mem_append_right _ hk
      rw [total_of_mem hmem, total_of_mem hk, hsum]
    · rw [total_eq_none_iff.mpr hk, total_eq_none_iff, List.map_append, List.mem_append]
      rintro (hleft | hright)
      · obtain ⟨e, he, rfl⟩ := List.mem_map.mp hleft
        exact hk (h e he).left
      · exact hk hright

end Middle

end Tally
