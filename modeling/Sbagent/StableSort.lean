import Mathlib.Data.List.Sort

/-!
# Sorting without losing the place

Sorting by a key keeps elements of one key in the order in which they stood. What comes
first after such a sort can be said without sorting: an element is among the first `n`
exactly if fewer than `n` others go before it, where an element goes before another if its
key does, or if it has the same key and stood before it.

An order that compares the places too never leaves two elements alike, and sorting by it
is sorting by the key (`insertionSort_congr`). A list that is sorted by it is determined by
its elements.
-/

namespace StableSort

variable {α : Type} {r s : α → α → Prop} [DecidableRel r] [DecidableRel s] {l : List α}
  {x : α} {n : ℕ}

/-- Inserting asks only how the new element compares with the others. -/
theorem orderedInsert_congr (h : ∀ y ∈ l, r x y ↔ s x y) :
    l.orderedInsert r x = l.orderedInsert s x := by
  induction l with
  | nil => rfl
  | cons y l ih =>
    rw [List.orderedInsert_cons, List.orderedInsert_cons,
      ih fun z hz => h z (List.mem_cons_of_mem y hz),
      if_congr (h y List.mem_cons_self) rfl rfl]

/-- **Sorting asks only how an element compares with those that stand after it.** -/
theorem insertionSort_congr (h : l.Pairwise fun x y => r x y ↔ s x y) :
    l.insertionSort r = l.insertionSort s := by
  induction l with
  | nil => rfl
  | cons x l ih =>
    obtain ⟨hx, hl⟩ := List.pairwise_cons.mp h
    rw [List.insertionSort_cons, List.insertionSort_cons, ih hl]
    exact orderedInsert_congr fun y hy => hx y ((List.mem_insertionSort s).mp hy)

/-- **Among the first.** In a sorted list an element is one of the first `n` exactly if
fewer than `n` go before it. -/
theorem mem_take_iff (hasymm : ∀ x y, r x y → ¬ r y x) (hl : l.Pairwise r) (hx : x ∈ l) :
    x ∈ l.take n ↔ l.countP (fun y => decide (r y x)) < n := by
  induction l generalizing n with
  | nil => cases hx
  | cons y l ih =>
    obtain ⟨hy, hl⟩ := List.pairwise_cons.mp hl
    cases n with
    | zero => simp
    | succ n =>
      rw [List.take_succ_cons, List.mem_cons]
      obtain rfl | hmem := List.mem_cons.mp hx
      · have hnone : l.countP (fun y => decide (r y x)) = 0 :=
          List.countP_eq_zero.mpr fun z hz => by
            rw [decide_eq_true_eq]
            exact hasymm x z (hy z hz)
        have hself : ¬ r x x := fun h => hasymm x x h h
        simp [hnone, hself]
      · have hne : x ≠ y := fun heq => hasymm y x (hy x hmem) (heq ▸ hy x hmem)
        have hcount : (y :: l).countP (fun y => decide (r y x))
            = l.countP (fun y => decide (r y x)) + 1 :=
          List.countP_cons_of_pos (decide_eq_true (hy x hmem))
        rw [hcount, Nat.succ_lt_succ_iff, ← ih hl hmem]
        exact or_iff_right hne

/-- An element that is not one of the first has all of them before it. -/
theorem le_countP_of_not_mem_take {p : α → Bool} (hl : l.Pairwise r) (hx : x ∈ l)
    (hnot : x ∉ l.take n) (hp : ∀ y ∈ l.take n, p y = true) :
    n ≤ l.countP fun y => p y && decide (r y x) := by
  have hdrop : x ∈ l.drop n := by
    rw [← List.take_append_drop n l] at hx
    exact (List.mem_append.mp hx).resolve_left hnot
  have hsplit : (l.take n ++ l.drop n).Pairwise r := by rwa [List.take_append_drop]
  have hbefore := (List.pairwise_append.mp hsplit).right.right
  have hlen : (l.take n).length = n := by
    have hpos := List.length_pos_of_mem hdrop
    rw [List.length_drop] at hpos
    rw [List.length_take]
    omega
  calc n = (l.take n).countP fun y => p y && decide (r y x) := by
        rw [List.countP_eq_length.mpr fun y hy => ?_, hlen]
        rw [hp y hy, Bool.true_and]
        exact decide_eq_true (hbefore y hy x hdrop)
    _ ≤ l.countP fun y => p y && decide (r y x) :=
        (List.take_sublist n l).countP_le

/-- An element that goes before all others is put in front of them. -/
theorem orderedInsert_of_forall (h : ∀ y ∈ l, r x y) : l.orderedInsert r x = x :: l := by
  cases l with
  | nil => rfl
  | cons y l => exact List.orderedInsert_cons_of_le r l (h y List.mem_cons_self)

theorem filter_orderedInsert [IsTrans α r] (p : α → Bool) (hl : l.Pairwise r) :
    (l.orderedInsert r x).filter p
      = if p x then (l.filter p).orderedInsert r x else l.filter p := by
  induction l with
  | nil => rw [List.orderedInsert_nil, List.filter_nil, List.orderedInsert_nil, List.filter_cons,
      List.filter_nil]
  | cons y l ih =>
    obtain ⟨hy, hl⟩ := List.pairwise_cons.mp hl
    rw [List.orderedInsert_cons]
    by_cases hxy : r x y
    · rw [if_pos hxy, List.filter_cons]
      refine if_congr Iff.rfl ?_ rfl
      refine (orderedInsert_of_forall fun z hz => ?_).symm
      obtain rfl | hz := List.mem_cons.mp (List.mem_filter.mp hz).left
      · exact hxy
      · exact IsTrans.trans _ _ _ hxy (hy z hz)
    · rw [if_neg hxy, List.filter_cons, List.filter_cons, ih hl]
      split_ifs with hpy hpx hpx
      · rw [List.orderedInsert_of_not_le r _ hxy]
      · rfl
      · rfl
      · rfl

/-- **Sorting and then selecting is selecting and then sorting.** -/
theorem filter_insertionSort [IsTrans α r] [Std.Total r] (p : α → Bool) (l : List α) :
    (l.insertionSort r).filter p = (l.filter p).insertionSort r := by
  induction l with
  | nil => rfl
  | cons x l ih =>
    rw [List.insertionSort_cons, filter_orderedInsert p (List.pairwise_insertionSort r l), ih,
      List.filter_cons]
    split_ifs
    · rfl
    · rfl

end StableSort
