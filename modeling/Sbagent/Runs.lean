import Mathlib

/-!
# Runs of a system that takes one event after another

A system is a partial step function: in some states an event cannot happen,
and otherwise it leads to one next state. What the environment decides – how
an external program ends, whether a write succeeds – is part of the event, so
a sequence of events determines the run.

A property of all runs is rarely one of every step. It may hold only as long
as each event meets a condition in the state it happens in, and then it is
what the events so far have not broken. `run_invariant` is the rule for this:
an invariant that every event meeting the condition keeps holds after every
run whose events all meet it.
-/

universe u v

namespace Runs

variable {σ : Type u} {ε : Type v} (step : σ → ε → Option σ)

/-- The state after a sequence of events, if each of them could happen. -/
def run : σ → List ε → Option σ
  | s, [] => some s
  | s, e :: es => (step s e).bind fun s' => run s' es

/-- Every event of a sequence meets a condition in the state it happens in. -/
def Throughout (ok : σ → ε → Prop) : σ → List ε → Prop
  | _, [] => True
  | s, e :: es => ok s e ∧ ∀ s', step s e = some s' → Throughout ok s' es

variable {step}

theorem run_cons_eq_some_iff {s s' : σ} {e : ε} {es : List ε} :
    run step s (e :: es) = some s'
      ↔ ∃ s₁, step s e = some s₁ ∧ run step s₁ es = some s' := by
  simp only [run, Option.bind_eq_some_iff]

theorem run_append {s s' : σ} {es es' : List ε} :
    run step s (es ++ es') = some s'
      ↔ ∃ s₁, run step s es = some s₁ ∧ run step s₁ es' = some s' := by
  induction es generalizing s with
  | nil => simp [run]
  | cons e es ih =>
    rw [List.cons_append, run_cons_eq_some_iff]
    simp only [ih, run_cons_eq_some_iff]
    constructor
    · rintro ⟨s₁, h₁, s₂, h₂, h₃⟩
      exact ⟨s₂, ⟨s₁, h₁, h₂⟩, h₃⟩
    · rintro ⟨s₂, ⟨s₁, h₁, h₂⟩, h₃⟩
      exact ⟨s₁, h₁, s₂, h₂, h₃⟩

/-- The events of a sequence meet a condition when those of its two parts
do. -/
theorem throughout_append {ok : σ → ε → Prop} {s : σ} {es es' : List ε} :
    Throughout step ok s (es ++ es')
      ↔ Throughout step ok s es
        ∧ ∀ s', run step s es = some s' → Throughout step ok s' es' := by
  induction es generalizing s with
  | nil => simp [Throughout, run]
  | cons e es ih =>
    simp only [List.cons_append, Throughout, ih, run_cons_eq_some_iff]
    constructor
    · intro h
      refine ⟨⟨h.left, fun s₁ h₁ => (h.right s₁ h₁).left⟩, ?_⟩
      intro s' hs'
      obtain ⟨s₁, h₁, hrun⟩ := hs'
      exact (h.right s₁ h₁).right s' hrun
    · intro h
      exact ⟨h.left.left, fun s₁ h₁ =>
        ⟨h.left.right s₁ h₁, fun s' hs' => h.right s' ⟨s₁, h₁, hs'⟩⟩⟩

/-- One event, and the rest of the sequence. -/
theorem throughout_run_cons {ok : σ → ε → Prop} {s s₁ s' : σ} {e : ε} {es : List ε}
    (hok : ok s e) (hstep : step s e = some s₁)
    (hrest : Throughout step ok s₁ es ∧ run step s₁ es = some s') :
    Throughout step ok s (e :: es) ∧ run step s (e :: es) = some s' := by
  refine ⟨⟨hok, fun s₂ h₂ => ?_⟩, run_cons_eq_some_iff.mpr ⟨s₁, hstep, hrest.right⟩⟩
  obtain rfl := Option.some.inj (hstep.symm.trans h₂)
  exact hrest.left

/-- **An invariant that every event meeting a condition keeps holds after
every run whose events meet it.** -/
theorem run_invariant {Inv : σ → Prop} {ok : σ → ε → Prop}
    (hstep : ∀ s e s', Inv s → ok s e → step s e = some s' → Inv s')
    {s s' : σ} {es : List ε} (hinv : Inv s) (hok : Throughout step ok s es)
    (hrun : run step s es = some s') : Inv s' := by
  induction es generalizing s with
  | nil =>
    obtain rfl : s = s' := Option.some.inj hrun
    exact hinv
  | cons e es ih =>
    obtain ⟨s₁, h₁, hrest⟩ := run_cons_eq_some_iff.mp hrun
    exact ih (hstep s e s₁ hinv hok.left h₁) (hok.right s₁ h₁) hrest

/-- A condition on events alone. -/
theorem throughout_of_forall_mem {ok : ε → Prop} {s : σ} {es : List ε}
    (h : ∀ e ∈ es, ok e) : Throughout step (fun _ e => ok e) s es := by
  induction es generalizing s with
  | nil => trivial
  | cons e es ih =>
    exact ⟨h e List.mem_cons_self, fun s' _ => ih fun e' he' => h e' (List.mem_cons_of_mem e he')⟩

/-- No condition at all. -/
theorem throughout_true {s : σ} {es : List ε} : Throughout step (fun _ _ => True) s es :=
  throughout_of_forall_mem fun _ _ => trivial

/-- An invariant that every event keeps holds after every run. -/
theorem run_invariant_of_step {Inv : σ → Prop}
    (hstep : ∀ s e s', Inv s → step s e = some s' → Inv s') {s s' : σ}
    {es : List ε} (hinv : Inv s) (hrun : run step s es = some s') : Inv s' :=
  run_invariant (fun s e s' hi _ => hstep s e s' hi) hinv throughout_true hrun

/-- **An invariant that looks back, under a condition.** What holds at first, and after each
event that meets the condition of the events up to it, holds after every run whose events
meet it, of the events of that run. -/
theorem run_history_of {Inv : List ε → σ → Prop} {ok : σ → ε → Prop} {s₀ s : σ} {es : List ε}
    (hinit : Inv [] s₀)
    (hstep : ∀ es s e s', run step s₀ es = some s → Inv es s → ok s e → step s e = some s' →
      Inv (es ++ [e]) s')
    (hok : Throughout step ok s₀ es) (hrun : run step s₀ es = some s) : Inv es s := by
  induction es using List.reverseRecOn generalizing s with
  | nil =>
    obtain rfl : s₀ = s := Option.some.inj hrun
    exact hinit
  | append_singleton es e ih =>
    obtain ⟨hbefore, hlast⟩ := throughout_append.mp hok
    obtain ⟨s₁, hrun₁, hend⟩ := run_append.mp hrun
    obtain ⟨s₂, he, hnil⟩ := run_cons_eq_some_iff.mp hend
    obtain rfl : s₂ = s := Option.some.inj hnil
    exact hstep es s₁ e s₂ hrun₁ (ih hbefore hrun₁) (hlast s₁ hrun₁).left he

/-- **An invariant that looks back.** What holds at first, and after each event of the
events up to it, holds after every run of the events of that run. -/
theorem run_history {Inv : List ε → σ → Prop} {s₀ s : σ} {es : List ε} (hinit : Inv [] s₀)
    (hstep : ∀ es s e s', run step s₀ es = some s → Inv es s → step s e = some s' →
      Inv (es ++ [e]) s')
    (hrun : run step s₀ es = some s) : Inv es s :=
  run_history_of hinit (fun es s e s' hrun hinv _ => hstep es s e s' hrun hinv)
    throughout_true hrun

/-- **A condition that is exact for each event is exact for a run.** Where every
event can happen, and leaves a property behind exactly when it meets the
condition, the property holds after every event of a sequence exactly when the
sequence meets the condition. -/
theorem throughout_iff_forall_prefix {P : σ → Prop} {ok : σ → ε → Prop}
    (htotal : ∀ s e, ∃ s', step s e = some s')
    (h : ∀ s e s', step s e = some s' → (P s' ↔ ok s e)) {s : σ} {es : List ε} :
    Throughout step ok s es
      ↔ ∀ es₁ s₁, es₁ ≠ [] → es₁ <+: es → run step s es₁ = some s₁ → P s₁ := by
  induction es generalizing s with
  | nil => exact iff_of_true trivial fun es₁ _ hne hpre => absurd (List.prefix_nil.mp hpre) hne
  | cons e es ih =>
    constructor
    · intro hok es₁ s₁ hne hpre hrun
      obtain ⟨e₁, rest, rfl⟩ := List.exists_cons_of_ne_nil hne
      obtain ⟨rfl, hrest⟩ := List.cons_prefix_cons.mp hpre
      obtain ⟨s', hs', hrun⟩ := run_cons_eq_some_iff.mp hrun
      by_cases hnil : rest = []
      · subst hnil
        obtain rfl : s' = s₁ := Option.some.inj hrun
        exact (h s e₁ s' hs').mpr hok.left
      · exact ih.mp (hok.right s' hs') rest s₁ hnil hrest hrun
    · intro hall
      refine ⟨?_, fun s' hs' => ih.mpr fun es₁ s₁ hne hpre hrun => ?_⟩
      · obtain ⟨s', hs'⟩ := htotal s e
        refine (h s e s' hs').mp (hall [e] s' (List.cons_ne_nil e []) ?_ ?_)
        · exact List.cons_prefix_cons.mpr ⟨rfl, List.nil_prefix⟩
        · exact run_cons_eq_some_iff.mpr ⟨s', hs', rfl⟩
      · exact hall (e :: es₁) s₁ (List.cons_ne_nil e es₁)
          (List.cons_prefix_cons.mpr ⟨rfl, hpre⟩)
          (run_cons_eq_some_iff.mpr ⟨s', hs', hrun⟩)

/-- **A condition that is exact for each event of a run with an invariant.** Where an
event that leaves a good state behind is one that meets the condition, as long as the state
before is good, all states of a run are good exactly when its events meet the condition. -/
theorem throughout_iff_of_invariant {Inv P : σ → Prop} {ok : σ → ε → Prop}
    (hstep : ∀ s e s', Inv s → step s e = some s' → Inv s')
    (h : ∀ s e s', Inv s → P s → step s e = some s' → (P s' ↔ ok s e)) {s s' : σ}
    {es : List ε} (hinv : Inv s) (hp : P s) (hrun : run step s es = some s') :
    Throughout step ok s es
      ↔ ∀ es₁ s₁, es₁ <+: es → run step s es₁ = some s₁ → P s₁ := by
  induction es generalizing s with
  | nil =>
    refine iff_of_true trivial fun es₁ s₁ hpre hrun₁ => ?_
    obtain rfl := List.prefix_nil.mp hpre
    obtain rfl : s = s₁ := Option.some.inj hrun₁
    exact hp
  | cons e es ih =>
    obtain ⟨s₂, h₂, hrest⟩ := run_cons_eq_some_iff.mp hrun
    have hinv₂ := hstep s e s₂ hinv h₂
    constructor
    · intro hok es₁ s₁ hpre hrun₁
      cases es₁ with
      | nil =>
        obtain rfl : s = s₁ := Option.some.inj hrun₁
        exact hp
      | cons e₁ rest =>
        obtain ⟨rfl, hpre'⟩ := List.cons_prefix_cons.mp hpre
        obtain ⟨s₃, h₃, hrun'⟩ := run_cons_eq_some_iff.mp hrun₁
        obtain rfl : s₂ = s₃ := Option.some.inj (h₂.symm.trans h₃)
        have hp₂ := (h s e₁ s₂ hinv hp h₂).mpr hok.left
        exact (ih hinv₂ hp₂ hrest).mp (hok.right s₂ h₂) rest s₁ hpre' hrun'
    · intro hall
      have hp₂ : P s₂ := hall [e] s₂ (List.cons_prefix_cons.mpr ⟨rfl, List.nil_prefix⟩)
        (run_cons_eq_some_iff.mpr ⟨s₂, h₂, rfl⟩)
      refine ⟨(h s e s₂ hinv hp h₂).mp hp₂, fun s₃ h₃ => ?_⟩
      obtain rfl : s₂ = s₃ := Option.some.inj (h₂.symm.trans h₃)
      exact (ih hinv₂ hp₂ hrest).mpr fun es₁ s₁ hpre hrun₁ =>
        hall (e :: es₁) s₁ (List.cons_prefix_cons.mpr ⟨rfl, hpre⟩)
          (run_cons_eq_some_iff.mpr ⟨s₂, h₂, hrun₁⟩)

/-- Run a sequence and check each event on the way. -/
def check (step : σ → ε → Option σ) (okb : σ → ε → Bool) : σ → List ε → Bool
  | _, [] => true
  | s, e :: es => okb s e && ((step s e).map fun s' => check step okb s' es).getD true

/-- A sequence whose events pass a check on the way meets what the check
stands for. -/
theorem throughout_of_check {ok : σ → ε → Prop} {okb : σ → ε → Bool}
    (h : ∀ s e, okb s e = true → ok s e) {s : σ} {es : List ε}
    (hcheck : check step okb s es = true) : Throughout step ok s es := by
  induction es generalizing s with
  | nil => trivial
  | cons e es ih =>
    simp only [check, Bool.and_eq_true] at hcheck
    refine ⟨h s e hcheck.left, fun s' hs' => ih ?_⟩
    rw [hs'] at hcheck
    exact hcheck.right

end Runs
