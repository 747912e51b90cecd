import Mathlib

/-!
# Canonical lists

A set that is given as a list, in any order and with repetitions, is often brought into
a normal form: each element is normalized or dropped, then the list is sorted, and then
of equal elements only one is kept. The result depends only on the set of the normalized
elements (`canonical_congr`), and is the list itself exactly if the list was sorted and
of normal elements before (`canonical_eq_self_iff`).

Such lists are also joined, with a separator between the elements, and split again.
What is joined and split comes back in pieces (`splitOn_intercalate_eq_flatMap`), since
an element may have the separator in it.
-/

namespace Canonical

section Normalize

variable {α : Type} [LinearOrder α] {norm : α → Option α} {a b l : List α} {x : α}

/-- The normalized elements of a list, sorted, each once. -/
def canonical (norm : α → Option α) (l : List α) : List α :=
  ((l.filterMap norm).insertionSort fun a b => a ≤ b).dedup

theorem mem_canonical : x ∈ canonical norm l ↔ ∃ y ∈ l, norm y = some x := by
  unfold canonical
  rw [List.mem_dedup, List.mem_insertionSort, List.mem_filterMap]

theorem pairwise_canonical (l : List α) : (canonical norm l).Pairwise (· < ·) := by
  have hsorted : (canonical norm l).Pairwise (· ≤ ·) :=
    (List.pairwise_insertionSort (fun a b : α => a ≤ b) _).sublist (List.dedup_sublist _)
  have hnodup : (canonical norm l).Nodup := List.nodup_dedup _
  exact (hsorted.and hnodup).imp fun h => lt_of_le_of_ne h.left h.right

/-- Lists that are sorted without repetitions are equal if their elements are the same. -/
theorem eq_of_mem_iff (ha : a.Pairwise (· < ·)) (hb : b.Pairwise (· < ·))
    (h : ∀ x, x ∈ a ↔ x ∈ b) : a = b := by
  have hperm := (List.perm_ext_iff_of_nodup (ha.imp fun hlt => hlt.ne)
    (hb.imp fun hlt => hlt.ne)).mpr h
  exact hperm.eq_of_pairwise (fun x y _ _ hxy hyx => absurd hxy hyx.asymm) ha hb

/-- **The normal form depends only on what the elements are normalized to.** -/
theorem canonical_congr
    (h : ∀ x, (∃ y ∈ a, norm y = some x) ↔ ∃ y ∈ b, norm y = some x) :
    canonical norm a = canonical norm b := by
  refine eq_of_mem_iff (pairwise_canonical a) (pairwise_canonical b) fun x => ?_
  rw [mem_canonical, mem_canonical, h]

/-- **A list is its normal form** exactly if it is sorted, without repetitions, and its
elements are normal. -/
theorem canonical_eq_self_iff (hidem : ∀ x y, norm x = some y → norm y = some y) :
    canonical norm l = l ↔ l.Pairwise (· < ·) ∧ ∀ x ∈ l, norm x = some x := by
  constructor
  · intro h
    refine ⟨h ▸ pairwise_canonical l, fun x hx => ?_⟩
    rw [← h, mem_canonical] at hx
    obtain ⟨y, -, hy⟩ := hx
    exact hidem y x hy
  · rintro ⟨hsorted, hnormal⟩
    refine eq_of_mem_iff (pairwise_canonical l) hsorted fun x => ?_
    rw [mem_canonical]
    constructor
    · rintro ⟨y, hy, hyx⟩
      rw [hnormal y hy] at hyx
      rwa [← Option.some.inj hyx]
    · exact fun hx => ⟨x, hx, hnormal x hx⟩

end Normalize

/-! ## Joining and splitting -/

section Join

variable {α : Type} [DecidableEq α] {c : α} {ls : List (List α)}

/-- What was joined is split into the pieces of its parts. -/
theorem splitOn_intercalate_eq_flatMap (h : ls ≠ []) :
    ([c].intercalate ls).splitOn c = ls.flatMap fun l => l.splitOn c := by
  induction ls with
  | nil => exact absurd rfl h
  | cons l ls ih =>
    cases ls with
    | nil => rw [List.intercalate_singleton, List.flatMap_singleton]
    | cons l' ls =>
      rw [List.intercalate_cons_cons, List.append_assoc, List.singleton_append,
        List.splitOn_append_cons_self, ih (List.cons_ne_nil l' ls)]
      exact List.flatMap_cons.symm

/-- **Two lists are joined to the same** exactly if the pieces of their parts, laid end to
end, are the same. -/
theorem intercalate_eq_intercalate_iff {ms : List (List α)} (hls : ls ≠ []) (hms : ms ≠ []) :
    [c].intercalate ls = [c].intercalate ms
      ↔ (ls.flatMap fun l => l.splitOn c) = ms.flatMap fun m => m.splitOn c := by
  rw [← splitOn_intercalate_eq_flatMap hls, ← splitOn_intercalate_eq_flatMap hms]
  constructor
  · intro h
    rw [h]
  · intro h
    have hjoin := congrArg (fun ps => [c].intercalate ps) h
    simpa only [List.intercalate_splitOn] using hjoin

theorem splitOn_injective (c : α) : Function.Injective fun l : List α => l.splitOn c := by
  intro l m h
  have hjoin := congrArg (fun ps => [c].intercalate ps) h
  simpa only [List.intercalate_splitOn] using hjoin

/-- There is one piece more than there are separators. -/
theorem length_splitOn (l : List α) : (l.splitOn c).length = l.count c + 1 := by
  induction l with
  | nil => rfl
  | cons x l ih =>
    rw [List.splitOn_cons_eq_if_modifyHead, List.count_cons]
    split_ifs with hx
    · rw [List.length_cons, ih]
    · rw [List.length_modifyHead, ih, Nat.add_zero]

/-- The parts are found in their pieces, if it is known how many each of them has. -/
theorem eq_of_flatMap_splitOn {ms : List (List α)}
    (hpieces : (ls.flatMap fun l => l.splitOn c) = ms.flatMap fun m => m.splitOn c)
    (hcount : ls.map (List.count c) = ms.map (List.count c)) : ls = ms := by
  induction ls generalizing ms with
  | nil => exact (List.map_eq_nil_iff.mp hcount.symm).symm
  | cons l ls ih =>
    cases ms with
    | nil => cases hcount
    | cons m ms =>
      rw [List.map_cons, List.map_cons, List.cons.injEq] at hcount
      rw [List.flatMap_cons, List.flatMap_cons] at hpieces
      have hlen : (l.splitOn c).length = (m.splitOn c).length := by
        rw [length_splitOn, length_splitOn, hcount.left]
      obtain ⟨hhead, htail⟩ := List.append_inj hpieces hlen
      rw [splitOn_injective c hhead, ih htail hcount.right]

/-- A piece has no separator in it. -/
theorem not_mem_of_mem_splitOn {l p : List α} (h : p ∈ l.splitOn c) : c ∉ p := by
  induction l generalizing p with
  | nil =>
    rw [List.splitOn_nil, List.mem_singleton] at h
    exact h ▸ List.not_mem_nil
  | cons x l ih =>
    rw [List.splitOn_cons_eq_if_modifyHead] at h
    split at h
    case isTrue =>
      obtain rfl | h := List.mem_cons.mp h
      · exact List.not_mem_nil
      · exact ih h
    case isFalse hx =>
      -- the character goes to the front of the first piece
      cases hpieces : l.splitOn c with
      | nil => exact absurd hpieces (List.splitOn_ne_nil c l)
      | cons q qs =>
        rw [hpieces, List.modifyHead_cons] at h
        obtain rfl | h := List.mem_cons.mp h
        · rw [List.mem_cons, not_or]
          exact ⟨fun heq => hx (beq_iff_eq.mpr heq.symm),
            ih (hpieces ▸ List.mem_cons_self)⟩
        · exact ih (hpieces ▸ List.mem_cons_of_mem q h)

omit [DecidableEq α] in
/-- What is joined has no elements but those of the parts and of what is between them. -/
theorem not_mem_intercalate {sep : List α} {x : α} (hsep : x ∉ sep) (h : ∀ l ∈ ls, x ∉ l) :
    x ∉ sep.intercalate ls := by
  induction ls with
  | nil => exact List.not_mem_nil
  | cons l ls ih =>
    obtain ⟨hl, hls⟩ := List.forall_mem_cons.mp h
    cases ls with
    | nil =>
      rw [List.intercalate_singleton]
      exact hl
    | cons l' ls =>
      rw [List.intercalate_cons_cons, List.mem_append, List.mem_append]
      rintro ((hmem | hmem) | hmem)
      · exact hl hmem
      · exact hsep hmem
      · exact ih hls hmem

omit [DecidableEq α] in
/-- No parts, and parts of which none is empty, are not joined to the same. -/
theorem eq_nil_of_intercalate (hls : ∀ l ∈ ls, l ≠ []) (h : [c].intercalate ls = []) :
    ls = [] := by
  cases ls with
  | nil => rfl
  | cons l ls =>
    have hl := hls l List.mem_cons_self
    cases ls with
    | nil => exact absurd (List.intercalate_singleton.symm.trans h) hl
    | cons l' ls =>
      rw [List.intercalate_cons_cons, List.append_assoc, List.append_eq_nil_iff] at h
      exact absurd h.left hl

/-- The same when there may be no parts, but none of them is empty. -/
theorem intercalate_congr_iff {ms : List (List α)} (hls : ∀ l ∈ ls, l ≠ [])
    (hms : ∀ m ∈ ms, m ≠ []) : [c].intercalate ls = [c].intercalate ms
      ↔ (ls.flatMap fun l => l.splitOn c) = ms.flatMap fun m => m.splitOn c := by
  -- pieces of no parts are none, and every part has one
  have hpieces : ∀ ks : List (List α), (ks.flatMap fun k => k.splitOn c) = [] → ks = [] := by
    intro ks hks
    cases ks with
    | nil => rfl
    | cons k ks => exact absurd (List.append_eq_nil_iff.mp hks).left (List.splitOn_ne_nil c k)
  by_cases hl : ls = []
  · subst hl
    exact ⟨fun h => by rw [eq_nil_of_intercalate hms h.symm],
      fun h => by rw [hpieces ms h.symm]⟩
  by_cases hm : ms = []
  · subst hm
    exact ⟨fun h => absurd (eq_nil_of_intercalate hls h) hl, fun h => absurd (hpieces ls h) hl⟩
  exact intercalate_eq_intercalate_iff hl hm

/-- **Two lists are joined to the same**, when the parts of the second have no separator
in them, exactly if the second are the pieces of the first. -/
theorem intercalate_eq_iff {ms : List (List α)} (hls : ∀ l ∈ ls, l ≠ [])
    (hms : ∀ m ∈ ms, m ≠ []) (hsep : ∀ m ∈ ms, c ∉ m) :
    [c].intercalate ls = [c].intercalate ms ↔ (ls.flatMap fun l => l.splitOn c) = ms := by
  have hself : (ms.flatMap fun m => m.splitOn c) = ms := by
    rw [List.flatMap_congr fun m hm => List.splitOn_eq_singleton (hsep m hm),
      List.flatMap_singleton']
  rw [intercalate_congr_iff hls hms, hself]

end Join

end Canonical
