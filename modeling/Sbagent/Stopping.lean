import Mathlib

/-!
# Computations that stop in the middle

A computation with a state that stops with an error keeps what it has done to the state by
then. What holds after it is computed from the end (`After`): after two parts it is what
holds after the first, if that stops, and otherwise what holds after the second
(`after_bind`).

The state may be a store, of which each step replaces a part or leaves it alone. After some
steps the parts that were replaced have what they were replaced with, and the rest is as it
was. So a property that each part has by itself is kept exactly if what was put in has it
(`forall_replaceAll_iff`).
-/

universe u

namespace Stopping

variable {σ ε α β : Type u}

/-- How a computation ends, and with which state. -/
def After (x : ExceptT ε (StateM σ) α) (s : σ) (Q : Except ε α → σ → Prop) : Prop :=
  Q (x.run.run s).fst (x.run.run s).snd

section After

variable {x : ExceptT ε (StateM σ) α} {f : α → ExceptT ε (StateM σ) β} {s : σ}

@[simp] theorem after_pure {a : α} {Q : Except ε α → σ → Prop} :
    After (pure a) s Q ↔ Q (Except.ok a) s := Iff.rfl

@[simp] theorem after_throw {e : ε} {Q : Except ε α → σ → Prop} :
    After (throw e) s Q ↔ Q (Except.error e) s := Iff.rfl

@[simp] theorem after_get {Q : Except ε σ → σ → Prop} :
    After get s Q ↔ Q (Except.ok s) s := Iff.rfl

/-- **What holds after two parts.** The second begins where the first has ended, if that
has not stopped. -/
theorem after_bind {Q : Except ε β → σ → Prop} :
    After (x >>= f) s Q ↔ After x s fun r s' =>
      match r with
      | Except.ok a => After (f a) s' Q
      | Except.error e => Q (Except.error e) s' := by
  unfold After
  rw [ExceptT.run_bind, StateT.run_bind]
  generalize StateT.run x.run s = p
  obtain ⟨r, s'⟩ := p
  cases r with
  | ok a => exact Iff.rfl
  | error e => exact Iff.rfl

/-- A step that stops or goes on, beside a condition that tells the two apart. -/
theorem elim_iff_ite {δ : Type u} {o : Option δ} {go P Q : Prop} {stop : δ → Prop}
    (hstop : ∀ x, o = some x → (stop x ↔ P)) (hgo : o = none → (go ↔ Q)) :
    o.elim go stop ↔ if o.isSome = true then P else Q := by
  cases o with
  | none => exact hgo rfl
  | some x => exact hstop x rfl

/-- Compute something from the state, which may stop the computation. -/
def reading (g : σ → Except ε α) : ExceptT ε (StateM σ) α := fun s => (g s, s)

/-- After a look at the state. -/
theorem after_reading_bind {g : σ → Except ε α} {Q : Except ε β → σ → Prop} :
    After (reading g >>= f) s Q ↔
      match g s with
      | Except.ok a => After (f a) s Q
      | Except.error e => Q (Except.error e) s := after_bind

end After

/-! ## Stores -/

section Store

variable {ι τ : Type u} [DecidableEq ι] {s : ι → Option τ} {i j : ι} {t : Option τ}

/-- Put something in a part of a store, or leave it alone. -/
def replace (s : ι → Option τ) (i : ι) (t : Option τ) : ι → Option τ :=
  match t with
  | some t => Function.update s i (some t)
  | none => s

/-- Replace several parts of a store, one after the other. -/
def replaceAll (s : ι → Option τ) (ws : List (ι × Option τ)) : ι → Option τ :=
  ws.foldl (fun s w => replace s w.fst w.snd) s

/-- What is written is there, and where nothing is written, what was there before. -/
theorem replace_self : replace s i t i = t.or (s i) := by
  cases t with
  | none => rfl
  | some t => exact Function.update_self i (some t) s

/-- Everything else stays. -/
theorem replace_of_ne (h : j ≠ i) : replace s i t j = s j := by
  cases t with
  | none => rfl
  | some t => exact Function.update_of_ne h (some t) s

/-- One more write. -/
theorem replaceAll_concat {ws : List (ι × Option τ)} :
    replaceAll s (ws ++ [(i, t)]) = replace (replaceAll s ws) i t := List.foldl_append

/-- What is not written stays. -/
theorem replaceAll_of_notMem {ws : List (ι × Option τ)} (h : j ∉ ws.map Prod.fst) :
    replaceAll s ws j = s j := by
  induction ws generalizing s with
  | nil => rfl
  | cons w ws ih =>
    rw [List.map_cons, List.mem_cons, not_or] at h
    exact (ih h.right).trans (replace_of_ne h.left)

/-- Replacing a part keeps what the parts have, if what is put in has it too. -/
theorem forall_replace_iff {P : ι → Option τ → Prop} (h : P i (s i)) :
    (∀ j, P j (replace s i t j)) ↔ (∀ a ∈ t, P i (some a)) ∧ ∀ j, P j (s j) := by
  cases t with
  | none => exact (and_iff_right fun a ha => by cases ha).symm
  | some t =>
    show (∀ j, P j (Function.update s i (some t) j)) ↔ _
    rw [Function.forall_update_iff s P]
    constructor
    · intro hall
      refine ⟨fun a ha => Option.mem_some.mp ha ▸ hall.left, fun j => ?_⟩
      by_cases hj : j = i
      · exact hj ▸ h
      · exact hall.right j hj
    · exact fun hall => ⟨hall.left t rfl, fun j _ => hall.right j⟩

/-- **A property that each part has by itself is kept exactly if what is put in has it.** -/
theorem forall_replaceAll_iff {P : ι → Option τ → Prop} {ws : List (ι × Option τ)}
    (hnodup : (ws.map Prod.fst).Nodup) (h : ∀ i, P i (s i)) :
    (∀ i, P i (replaceAll s ws i)) ↔ ∀ w ∈ ws, ∀ a ∈ w.snd, P w.fst (some a) := by
  induction ws using List.reverseRecOn with
  | nil => exact iff_of_true h fun _ hw => absurd hw List.not_mem_nil
  | append_singleton ws w ih =>
    rw [List.map_append, List.map_singleton, List.nodup_append] at hnodup
    have hlast : P w.fst (replaceAll s ws w.fst) := by
      rw [replaceAll_of_notMem fun hmem =>
        hnodup.right.right _ hmem _ (List.mem_singleton_self _) rfl]
      exact h w.fst
    have hfold : replaceAll s (ws ++ [w]) = replace (replaceAll s ws) w.fst w.snd :=
      List.foldl_append
    rw [hfold, forall_replace_iff hlast, ih hnodup.left, List.forall_mem_append,
      List.forall_mem_singleton, and_comm]

/-- Replace a part of a store, and stop if there is an error. -/
def put (i : ι) (t : Option τ) (error : Option ε) : ExceptT ε (StateM (ι → Option τ)) PUnit :=
  fun s => (match error with
    | some e => Except.error e
    | none => Except.ok PUnit.unit, replace s i t)

/-- What holds after a part was replaced and the rest was done. -/
theorem after_put_bind {error : Option ε} {f : PUnit → ExceptT ε (StateM (ι → Option τ)) α}
    {Q : Except ε α → (ι → Option τ) → Prop} :
    After (put i t error >>= f) s Q
      ↔ error.elim (After (f PUnit.unit) (replace s i t) Q)
        fun e => Q (Except.error e) (replace s i t) := by
  rw [after_bind]
  cases error with
  | none => exact Iff.rfl
  | some e => exact Iff.rfl

end Store

end Stopping
