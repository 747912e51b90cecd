import Mathlib

/-!
# Maps built by going over a list

An ordered map is often built in one pass over a list: each element finds its
key's entry, or makes a fresh one, and updates it. Whatever the update, the
entry a key ends up with depends only on the elements filed under that key, in
their order – `getElem?_accumulate` – and this is the one fact about such maps
that reasoning about them needs.

Two special cases have their own names. Collecting the elements under each key
groups the list (`group`); overwriting keeps the last one (`insertAll`).

Another section is about keys that must not repeat. A validator goes over a
list inserting keys into a set and remembers whether one was there already;
the set and the flag it ends with say exactly which keys the list has and
whether they are distinct. The last is about what filtering does to places in
a list.
-/

universe u v w

open Std (ExtTreeMap)

namespace Keyed

section Accumulate

variable {α : Type u} {κ : Type v} {σ : Type w}
  {cmp : κ → κ → Ordering} [Std.TransCmp cmp] [Std.LawfulEqCmp cmp]

/-- Update the entry of an element's key, or a fresh one. -/
def record (cmp : κ → κ → Ordering) [Std.TransCmp cmp] (key : α → κ)
    (upd : σ → α → σ) (init : σ) (m : ExtTreeMap κ σ cmp) (a : α) :
    ExtTreeMap κ σ cmp :=
  m.alter (key a) fun o => some (upd (o.getD init) a)

/-- Go over a list and update the entry of each element's key. -/
def accumulate (cmp : κ → κ → Ordering) [Std.TransCmp cmp] (key : α → κ)
    (upd : σ → α → σ) (init : σ) (l : List α) : ExtTreeMap κ σ cmp :=
  l.foldl (record cmp key upd init) ∅

/-- The elements filed under a key. -/
def under [DecidableEq κ] (key : α → κ) (k : κ) (l : List α) : List α :=
  l.filter fun a => key a = k

theorem mem_under [DecidableEq κ] {key : α → κ} {k : κ} {l : List α} {a : α} :
    a ∈ under key k l ↔ a ∈ l ∧ key a = k := by
  simp [under]

theorem under_eq_nil_iff [DecidableEq κ] {key : α → κ} {k : κ} {l : List α} :
    under key k l = [] ↔ k ∉ l.map key := by
  simp [under, List.filter_eq_nil_iff]

theorem under_concat [DecidableEq κ] {key : α → κ} {k : κ} {l : List α}
    {a : α} : under key k (l ++ [a])
      = if key a = k then under key k l ++ [a] else under key k l := by
  by_cases h : key a = k <;> simp [under, List.filter_append, h]

omit [Std.LawfulEqCmp cmp] in
theorem accumulate_concat {key : α → κ} {upd : σ → α → σ} {init : σ}
    {l : List α} {a : α} : accumulate cmp key upd init (l ++ [a])
      = record cmp key upd init (accumulate cmp key upd init l) a := by
  simp [accumulate]

/-- **The entry of a key depends only on the elements filed under it**: there
is none when there are no such elements, and otherwise it is the update by
each of them in turn. -/
theorem getElem?_accumulate [DecidableEq κ] {key : α → κ} {upd : σ → α → σ}
    {init : σ} {l : List α} {k : κ} :
    (accumulate cmp key upd init l)[k]?
      = if k ∈ l.map key then some ((under key k l).foldl upd init)
        else none := by
  induction l using List.reverseRecOn with
  | nil => simp [accumulate]
  | append_singleton l a ih =>
    rw [accumulate_concat, record, ExtTreeMap.getElem?_alter, under_concat]
    by_cases hk : key a = k
    · subst hk
      rw [if_pos (Std.ReflCmp.compare_self), ih, if_pos rfl]
      by_cases hmem : key a ∈ l.map key
      · simp only [if_pos hmem]
        simp
      · have hnil : under key (key a) l = [] := under_eq_nil_iff.mpr hmem
        simp only [if_neg hmem]
        simp [hnil]
    · have hcmp : cmp (key a) k ≠ Ordering.eq := fun h =>
        hk (Std.LawfulEqCmp.eq_of_compare h)
      rw [if_neg hcmp, ih, if_neg hk]
      simp [Ne.symm hk]

/-- The keys of the map are the keys of the elements. -/
theorem mem_accumulate [DecidableEq κ] {key : α → κ} {upd : σ → α → σ}
    {init : σ} {l : List α} {k : κ} :
    k ∈ accumulate cmp key upd init l ↔ k ∈ l.map key := by
  rw [← ExtTreeMap.isSome_getElem?_iff_mem, getElem?_accumulate]
  split <;> simp_all

/-- The elements of a list, collected under their keys in order. -/
def group (cmp : κ → κ → Ordering) [Std.TransCmp cmp] (key : α → κ)
    (l : List α) : ExtTreeMap κ (List α) cmp :=
  accumulate cmp key (fun g a => g ++ [a]) [] l

theorem foldl_concat_eq (l g : List α) :
    l.foldl (fun g a => g ++ [a]) g = g ++ l := by
  induction l generalizing g with
  | nil => simp
  | cons a l ih => simp [ih]

/-- **A group is what is filed under its key.** -/
theorem getElem?_group [DecidableEq κ] {key : α → κ} {l : List α} {k : κ} :
    (group cmp key l)[k]?
      = if k ∈ l.map key then some (under key k l) else none := by
  rw [group, getElem?_accumulate, foldl_concat_eq, List.nil_append]

/-- Write every pair of a list into a map, in order. -/
def insertAll (cmp : κ → κ → Ordering) [Std.TransCmp cmp] (l : List (κ × σ)) :
    ExtTreeMap κ σ cmp :=
  l.foldl (fun m p => m.insert p.fst p.snd) ∅

/-- **Under each key stands what was written last.** -/
theorem getElem?_insertAll [DecidableEq κ] {l : List (κ × σ)} {k : κ} :
    (insertAll cmp l)[k]? = ((under Prod.fst k l).getLast?).map Prod.snd := by
  induction l using List.reverseRecOn with
  | nil => simp [insertAll, under]
  | append_singleton l p ih =>
    have hstep : insertAll cmp (l ++ [p])
        = (insertAll cmp l).insert p.fst p.snd := by
      simp [insertAll]
    rw [hstep, ExtTreeMap.getElem?_insert, under_concat]
    by_cases hk : p.fst = k
    · subst hk
      rw [if_pos (Std.ReflCmp.compare_self), if_pos rfl]
      simp
    · have hcmp : cmp p.fst k ≠ Ordering.eq := fun h =>
        hk (Std.LawfulEqCmp.eq_of_compare h)
      rw [if_neg hcmp, if_neg hk, ih]

/-- When keys are written once, what stands under a key is what was written
there. -/
theorem getElem?_insertAll_eq_some_iff [DecidableEq κ] {l : List (κ × σ)}
    (hnd : (l.map Prod.fst).Nodup) {k : κ} {s : σ} :
    (insertAll cmp l)[k]? = some s ↔ (k, s) ∈ l := by
  rw [getElem?_insertAll]
  constructor
  · intro h
    obtain ⟨p, hp, rfl⟩ := Option.map_eq_some_iff.mp h
    have hmem := mem_under.mp (List.mem_of_getLast? hp)
    rw [← hmem.right]
    exact hmem.left
  · intro h
    have hmem : (k, s) ∈ under Prod.fst k l := mem_under.mpr ⟨h, rfl⟩
    have hall : ∀ p ∈ under Prod.fst k l, p = (k, s) := by
      intro p hp
      obtain ⟨hp, hk⟩ := mem_under.mp hp
      exact List.inj_on_of_nodup_map hnd hp h hk
    have hne := List.ne_nil_of_mem hmem
    rw [List.getLast?_eq_some_getLast hne, hall _ (List.getLast_mem hne)]
    rfl

/-! ## Going over a map -/

omit [Std.LawfulEqCmp cmp] in
theorem nodup_fst_toList {m : ExtTreeMap κ σ cmp} :
    (m.toList.map Prod.fst).Nodup := by
  rw [ExtTreeMap.map_fst_toList_eq_keys]
  exact ExtTreeMap.nodup_keys

/-- A sum of indicators counts. -/
theorem sum_map_ite_eq_length_filter {l : List α} {p : α → Prop}
    [DecidablePred p] :
    (l.map fun a => if p a then 1 else 0).sum
      = (l.filter fun a => decide (p a)).length := by
  induction l with
  | nil => rfl
  | cons a l ih =>
    rw [List.map_cons, List.sum_cons, ih]
    by_cases h : p a
    · rw [if_pos h, List.filter_cons_of_pos (by simpa using h),
        List.length_cons, Nat.add_comm]
    · rw [if_neg h, List.filter_cons_of_neg (by simpa using h), Nat.zero_add]

/-- **Going over a map, key by key, finds what occurs once under each of some
keys as often as there are such keys.** -/
theorem count_flatMap_toList {β : Type u} [DecidableEq κ] [BEq β]
    {m : ExtTreeMap κ σ cmp} {f : κ × σ → List β} {b : β} {s : Finset κ}
    (hcount : ∀ p ∈ m.toList, (f p).count b = if p.fst ∈ s then 1 else 0)
    (hs : ∀ k ∈ s, k ∈ m) : (m.toList.flatMap f).count b = s.card := by
  rw [List.count_flatMap]
  have hmap : m.toList.map (List.count b ∘ f)
      = m.toList.map fun p => if p.fst ∈ s then 1 else 0 :=
    List.map_congr_left hcount
  have hnd : ((m.toList.filter fun p => decide (p.fst ∈ s)).map
      Prod.fst).Nodup :=
    nodup_fst_toList.sublist ((List.filter_sublist).map Prod.fst)
  have hset : ((m.toList.filter fun p => decide (p.fst ∈ s)).map
      Prod.fst).toFinset = s := by
    ext k
    simp only [List.mem_toFinset, List.mem_map, List.mem_filter,
      decide_eq_true_eq]
    constructor
    · rintro ⟨p, ⟨_, hp⟩, rfl⟩
      exact hp
    · intro hk
      obtain ⟨v, hv⟩ := Option.isSome_iff_exists.mp
        (ExtTreeMap.isSome_getElem?_iff_mem.mpr (hs k hk))
      exact ⟨(k, v), ⟨ExtTreeMap.mem_toList_iff_getElem?_eq_some.mpr hv, hk⟩, rfl⟩
  rw [hmap, sum_map_ite_eq_length_filter]
  calc (m.toList.filter fun p => decide (p.fst ∈ s)).length
      = ((m.toList.filter fun p => decide (p.fst ∈ s)).map Prod.fst).length :=
        (List.length_map Prod.fst).symm
    _ = ((m.toList.filter fun p => decide (p.fst ∈ s)).map
          Prod.fst).toFinset.card := (List.toFinset_card_of_nodup hnd).symm
    _ = s.card := by rw [hset]

end Accumulate

/-! ## Keys that must not repeat -/

section Distinct

variable {κ : Type v} [DecidableEq κ]

/-- Insert every key of a list into a set, and remember whether one was there
already. -/
def account (start : Finset κ × Bool) (l : List κ) : Finset κ × Bool :=
  l.foldl (fun acc k => (insert k acc.fst, acc.snd || decide (k ∈ acc.fst)))
    start

theorem account_fst {start : Finset κ × Bool} {l : List κ} :
    (account start l).fst = start.fst ∪ l.toFinset := by
  induction l generalizing start with
  | nil => simp [account]
  | cons k l ih =>
    have h := @ih (insert k start.fst,
      start.snd || decide (k ∈ start.fst))
    simp only [account, List.foldl_cons] at h ⊢
    rw [h]
    ext x
    simp

theorem account_snd {start : Finset κ × Bool} {l : List κ} :
    (account start l).snd = false
      ↔ start.snd = false ∧ l.Nodup ∧ ∀ k ∈ l, k ∉ start.fst := by
  induction l generalizing start with
  | nil => simp [account]
  | cons k l ih =>
    have h := @ih (insert k start.fst,
      start.snd || decide (k ∈ start.fst))
    simp only [account, List.foldl_cons] at h ⊢
    rw [h]
    simp only [Bool.or_eq_false_iff, decide_eq_false_iff_not,
      Finset.mem_insert, not_or, List.nodup_cons, List.forall_mem_cons]
    constructor
    · rintro ⟨⟨hs, hk⟩, hnd, hl⟩
      exact ⟨hs, ⟨fun hmem => (hl k hmem).left rfl, hnd⟩, hk,
        fun x hx => (hl x hx).right⟩
    · rintro ⟨hs, ⟨hfresh, hnd⟩, hk, hl⟩
      refine ⟨⟨hs, hk⟩, hnd, fun x hx => ⟨?_, hl x hx⟩⟩
      rintro rfl
      exact hfresh hx

omit [DecidableEq κ] in
/-- A set of attributes is a single expected one, or empty: how a validator
says that all elements agree with `x`. -/
theorem card_ok_iff {s : Finset κ} {x : κ} :
    ¬ (1 < s.card ∨ (s.card = 1 ∧ x ∉ s)) ↔ ∀ y ∈ s, y = x := by
  constructor
  · intro h y hy
    have hle : s.card ≤ 1 := not_lt.mp fun hc => h (Or.inl hc)
    have hone : s.card = 1 := le_antisymm hle (Finset.card_pos.mpr ⟨y, hy⟩)
    have hx : x ∈ s := by_contra fun hx => h (Or.inr ⟨hone, hx⟩)
    exact Finset.card_le_one.mp hle y hy x hx
  · rintro h (hlt | ⟨hone, hx⟩)
    · obtain ⟨a, ha, b, hb, hne⟩ := Finset.one_lt_card.mp hlt
      exact hne ((h a ha).trans (h b hb).symm)
    · obtain ⟨a, rfl⟩ := Finset.card_eq_one.mp hone
      exact hx (by simp [h a (Finset.mem_singleton_self a)])

/-- A list lists a set when every element of the set is in it once, and
nothing else is. -/
def ListsExactly [BEq κ] (l : List κ) (s : Finset κ) : Prop :=
  ∀ k, l.count k = if k ∈ s then 1 else 0

theorem listsExactly_iff [BEq κ] [LawfulBEq κ] {l : List κ} {s : Finset κ} :
    ListsExactly l s ↔ l.Nodup ∧ l.toFinset = s := by
  constructor
  · intro h
    refine ⟨List.nodup_iff_count_le_one.mpr fun k => ?_, ?_⟩
    · rw [h k]
      split <;> simp
    · ext k
      rw [List.mem_toFinset, ← List.count_pos_iff, h k]
      split <;> simp_all
  · rintro ⟨hnd, rfl⟩ k
    simp only [List.mem_toFinset]
    split
    case isTrue h => exact List.count_eq_one_of_mem hnd h
    case isFalse h => exact List.count_eq_zero_of_not_mem h

/-- Listing does not depend on order. -/
theorem ListsExactly.perm [BEq κ] [LawfulBEq κ] {l l' : List κ}
    {s : Finset κ} (h : ListsExactly l s) (hp : l'.Perm l) : ListsExactly l' s := fun k => by
  rw [hp.count_eq]
  exact h k

/-- **Accounting for a list finds what it has to find**: the flag stays down
and the set is the expected one exactly when the list lists that set. -/
theorem account_ok_iff [BEq κ] [LawfulBEq κ] {l : List κ} {s : Finset κ} :
    ¬ ((account (∅, false) l).snd = true ∨ (account (∅, false) l).fst ≠ s)
      ↔ ListsExactly l s := by
  rw [listsExactly_iff, not_or, Bool.not_eq_true, account_snd, not_not,
    account_fst]
  simp

/-- Keys are distinct when each element's differs from those in front. -/
theorem nodup_map_iff_of_append {α : Type u} {κ : Type v} {key : α → κ} {l : List α} :
    (l.map key).Nodup
      ↔ ∀ l₁ x l₂, l = l₁ ++ x :: l₂ → ∀ d ∈ l₁, key d ≠ key x := by
  constructor
  · rintro h l₁ x l₂ rfl d hd heq
    rw [List.map_append, List.map_cons, List.nodup_append] at h
    exact h.right.right (key d) (List.mem_map_of_mem hd) (key x) List.mem_cons_self heq
  · intro h
    induction l using List.reverseRecOn with
    | nil => exact List.nodup_nil
    | append_singleton l x ih =>
      rw [List.map_append, List.map_singleton, List.nodup_append]
      refine ⟨ih ?_, List.nodup_singleton _, ?_⟩
      · rintro l₁ y l₂ rfl
        exact h l₁ y (l₂ ++ [x]) (by rw [List.append_assoc, List.cons_append])
      · intro a ha b hb
        obtain ⟨d, hd, rfl⟩ := List.mem_map.mp ha
        obtain rfl := List.mem_singleton.mp hb
        exact h l x [] rfl d hd

end Distinct

/-! ## Keeping some elements of a list in place -/

/-- **Filtering keeps positions when what is dropped comes last**: what is
kept is a prefix exactly when nothing kept comes after something dropped. -/
theorem filter_isPrefix_iff {α : Type u} {p : α → Bool} {l : List α} :
    l.filter p <+: l ↔ l.Pairwise fun a b => p b = true → p a = true := by
  induction l with
  | nil => simp
  | cons a l ih =>
    rw [List.pairwise_cons]
    cases ha : p a with
    | true =>
      rw [List.filter_cons_of_pos ha, List.cons_prefix_cons, ih]
      simp
    | false =>
      rw [List.filter_cons_of_neg (by simp [ha])]
      constructor
      · intro h
        -- the head of what is kept would have to be the dropped element
        have hnil : l.filter p = [] := by
          cases hf : l.filter p with
          | nil => rfl
          | cons b l' =>
            have hb : p b = true := (List.mem_filter.mp
              (hf ▸ List.mem_cons_self : b ∈ l.filter p)).right
            rw [hf, List.cons_prefix_cons] at h
            rw [h.left, ha] at hb
            exact absurd hb (by simp)
        have hnone := List.filter_eq_nil_iff.mp hnil
        refine ⟨fun b hb hpb => absurd hpb (hnone b hb), ?_⟩
        exact List.pairwise_of_forall_mem_list fun b _ c hc hpc =>
          absurd hpc (hnone c hc)
      · rintro ⟨hnone, -⟩
        have hnil : l.filter p = [] := List.filter_eq_nil_iff.mpr fun b hb hpb =>
          absurd (hnone b hb hpb) (by simp)
        rw [hnil]
        exact List.nil_prefix

/-- When what is dropped comes last, a list is what is kept followed by what
is dropped. -/
theorem filter_append_filter_not {α : Type u} {p : α → Bool} {l : List α}
    (h : l.Pairwise fun a b => p b = true → p a = true) :
    l.filter p ++ l.filter (fun a => !p a) = l := by
  induction l with
  | nil => rfl
  | cons a l ih =>
    obtain ⟨hhead, htail⟩ := List.pairwise_cons.mp h
    cases ha : p a with
    | true => simpa [ha] using ih htail
    | false =>
      have hnone : ∀ b ∈ l, p b = false := fun b hb =>
        Bool.eq_false_iff.mpr fun hpb => by
          rw [hhead b hb hpb] at ha
          exact absurd ha (by simp)
      have hnil : l.filter p = [] :=
        List.filter_eq_nil_iff.mpr fun b hb => by simp [hnone b hb]
      have hall : l.filter (fun b => !p b) = l :=
        List.filter_eq_self.mpr fun b hb => by simp [hnone b hb]
      simp [ha, hnil, hall]

end Keyed
