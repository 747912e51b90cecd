import Sbagent.Runs

/-!
# Parties that share something

Several parties each have a state of their own, and there is one thing that
they share. An action is one party's: it reads and changes what is shared and
what is the party's own, and the others do not notice. All interleavings of
what the parties do are the runs of this system.

What holds of a party between its own actions must survive what the others do
to the shared thing. It does when the shared thing only ever moves along some
relation – a log that only grows – and what is known of a party is stable
along it. Then it is enough to look at one party and its own actions.
-/

universe u v w x

/-- What the parties share, and what each has of its own. -/
structure Parties (κ : Type u) (σ : Type v) (τ : Type w) where
  shared : σ
  own : κ → τ

namespace Parties

variable {κ : Type u} {σ : Type v} {τ : Type w} {α : Type x}

/-- What a single party does, with nobody else there. -/
def alone (act : κ → σ → τ → α → Option (σ × τ)) (k : κ) (s : σ × τ) (a : α) :
    Option (σ × τ) :=
  act k s.fst s.snd a

variable [DecidableEq κ]

/-- One party acts. -/
def step (act : κ → σ → τ → α → Option (σ × τ)) (s : Parties κ σ τ) (e : κ × α) :
    Option (Parties κ σ τ) :=
  (act e.fst s.shared (s.own e.fst) e.snd).map fun s' =>
    ⟨s'.fst, Function.update s.own e.fst s'.snd⟩

variable {act : κ → σ → τ → α → Option (σ × τ)} {s s' : Parties κ σ τ}

theorem step_eq_some_iff {k : κ} {a : α} :
    step act s (k, a) = some s'
      ↔ ∃ sh t, act k s.shared (s.own k) a = some (sh, t)
        ∧ ⟨sh, Function.update s.own k t⟩ = s' := by
  unfold step
  rw [Option.map_eq_some_iff]
  exact Prod.exists

/-- What is known of the shared thing, and of each party. -/
structure Inv (Common : σ → Prop) (Own : σ → τ → Prop) (s : Parties κ σ τ) : Prop where
  common : Common s.shared
  own : ∀ k, Own s.shared (s.own k)

/-- What holds of all but one party holds of all of them when that one's state
is replaced by one that it holds of. -/
theorem forall_update {P : τ → Prop} {own : κ → τ} {k : κ} {t : τ} (ht : P t)
    (hown : ∀ j, P (own j)) (j : κ) : P (Function.update own k t j) := by
  by_cases hjk : j = k
  · subst hjk
    rw [Function.update_self]
    exact ht
  · rw [Function.update_of_ne hjk]
    exact hown j

section Invariant

variable {Common : σ → Prop} {Own : σ → τ → Prop} {le : σ → σ → Prop}
  {ok : κ → σ → τ → α → Prop}

/-- **What is stable under the others, and kept by a party's own actions, is
kept by every step.** -/
theorem step_inv (hstable : ∀ sh sh' t, le sh sh' → Own sh t → Own sh' t)
    (hact : ∀ k sh t a sh' t', Common sh → Own sh t → ok k sh t a →
      act k sh t a = some (sh', t') → le sh sh' ∧ Common sh' ∧ Own sh' t')
    (e : κ × α) (h : Inv Common Own s) (hok : ok e.fst s.shared (s.own e.fst) e.snd)
    (hstep : step act s e = some s') : Inv Common Own s' := by
  obtain ⟨sh, t, hacted, rfl⟩ := step_eq_some_iff.mp hstep
  obtain ⟨hle, hcommon, hown⟩ :=
    hact e.fst s.shared (s.own e.fst) e.snd sh t h.common (h.own e.fst) hok hacted
  exact ⟨hcommon, forall_update hown fun j => hstable s.shared sh (s.own j) hle (h.own j)⟩

/-- What every action moves along a relation, a run moves along it. -/
theorem run_le (hrefl : ∀ sh, le sh sh)
    (htrans : ∀ sh sh' sh'', le sh sh' → le sh' sh'' → le sh sh'')
    (hact : ∀ k sh t a sh' t', act k sh t a = some (sh', t') → le sh sh')
    {es : List (κ × α)} (hrun : Runs.run (step act) s es = some s') :
    le s.shared s'.shared := by
  have hstep : ∀ t e t', le s.shared t.shared → step act t e = some t' →
      le s.shared t'.shared := by
    intro t e t' hle hstep
    obtain ⟨sh, own, hacted, rfl⟩ := step_eq_some_iff.mp hstep
    exact htrans _ _ _ hle (hact e.fst t.shared (t.own e.fst) e.snd sh own hacted)
  exact Runs.run_invariant_of_step hstep (hrefl s.shared) hrun

end Invariant

/-- A party that does nothing stays as it is. -/
theorem own_of_idle {k : κ} {es : List (κ × α)} (hidle : ∀ e ∈ es, e.fst ≠ k)
    (hrun : Runs.run (step act) s es = some s') : s'.own k = s.own k := by
  have hstep : ∀ t e t', t.own k = s.own k → e.fst ≠ k → step act t e = some t' →
      t'.own k = s.own k := by
    intro t e t' ht hne hstep
    obtain ⟨sh, own, -, rfl⟩ := step_eq_some_iff.mp hstep
    exact (Function.update_of_ne hne.symm _ _).trans ht
  exact Runs.run_invariant hstep rfl (Runs.throughout_of_forall_mem hidle) hrun

/-- **A run in which a single party acts** is what that party does alone. -/
theorem run_alone_iff {k : κ} {as : List α} :
    Runs.run (step act) s (as.map fun a => (k, a)) = some s'
      ↔ ∃ sh t, Runs.run (alone act k) (s.shared, s.own k) as = some (sh, t)
        ∧ ⟨sh, Function.update s.own k t⟩ = s' := by
  induction as generalizing s with
  | nil =>
    constructor
    · intro h
      refine ⟨s.shared, s.own k, rfl, ?_⟩
      rw [Function.update_eq_self]
      exact Option.some.inj h
    · rintro ⟨sh, t, h, rfl⟩
      obtain ⟨rfl, rfl⟩ := Prod.mk.inj (Option.some.inj h)
      rw [Function.update_eq_self]
      rfl
  | cons a as ih =>
    rw [List.map_cons, Runs.run_cons_eq_some_iff]
    constructor
    · rintro ⟨s₁, hstep, hrun⟩
      obtain ⟨sh₁, t₁, hacted, rfl⟩ := step_eq_some_iff.mp hstep
      obtain ⟨sh, t, hrest, rfl⟩ := ih.mp hrun
      change Runs.run (alone act k) (sh₁, Function.update s.own k t₁ k) as = _ at hrest
      rw [Function.update_self] at hrest
      refine ⟨sh, t, Runs.run_cons_eq_some_iff.mpr ⟨(sh₁, t₁), hacted, hrest⟩, ?_⟩
      rw [Function.update_idem]
    · rintro ⟨sh, t, hrun, rfl⟩
      obtain ⟨⟨sh₁, t₁⟩, hacted, hrest⟩ := Runs.run_cons_eq_some_iff.mp hrun
      refine ⟨⟨sh₁, Function.update s.own k t₁⟩, step_eq_some_iff.mpr ⟨sh₁, t₁, hacted, rfl⟩,
        ih.mpr ⟨sh, t, ?_, ?_⟩⟩
      · show Runs.run (alone act k) (sh₁, Function.update s.own k t₁ k) as = _
        rw [Function.update_self]
        exact hrest
      · rw [Function.update_idem]

end Parties
