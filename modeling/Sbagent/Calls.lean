import Sbagent.Fallible

/-!
# Sequences of calls that may be interrupted

A command often reaches the outside world through a sequence of calls, each of
which changes something when it succeeds. The sequence may end early in three
ways: a call refuses, because of the state it finds; a call fails, before or
after it had its effect; the process is stopped, again before or after the
call it was making had its effect.

The first is part of the call itself, which is a fallible function on states.
The other two are the environment's to decide, and are given to the sequence
as an interruption: at which call, whether that call took effect, and whether
there is anybody left to be told.
-/

open Fallible

universe u v

namespace Calls

variable {σ : Type} {κ : Type v}

/-- How a sequence of calls is interrupted. -/
structure Interruption (κ : Type v) where
  /-- The call that it ends with. -/
  call : κ
  /-- Whether that call had its effect. -/
  done : Bool
  /-- What the call fails with; nothing when the process is stopped. -/
  error : Option (List String)
  deriving DecidableEq

/-- What a sequence of calls returns, if the process is there to see it. -/
abbrev Outcome : Type := Option (Fallible Unit)

/-- The sequence returned without an error. -/
abbrev returned : Outcome := some (Except.ok ())

/-- What an interrupted sequence returns. -/
def Interruption.outcome (i : Interruption κ) : Outcome :=
  i.error.map Except.error

/-- The state that a call which may or may not have taken effect leaves. -/
def Interruption.after (i : Interruption κ) (effect : σ → Fallible σ) (s : σ) : σ :=
  if i.done = true then (effect s).toOption.getD s else s

/-- Make the calls one after another, up to the first that does not return
without an error. -/
def perform [DecidableEq κ] (i : Option (Interruption κ)) :
    List (κ × (σ → Fallible σ)) → σ → Outcome × σ
  | [], s => (returned, s)
  | c :: cs, s =>
    match i.filter fun i => i.call = c.fst with
    | some i => (i.outcome, i.after c.snd s)
    | none =>
      match c.snd s with
      | Except.ok s' => perform i cs s'
      | Except.error e => (some (Except.error e), s)

/-- What the calls do when none of them is interrupted. -/
def effects : List (κ × (σ → Fallible σ)) → σ → Fallible σ
  | [], s => Except.ok s
  | c :: cs, s => c.snd s >>= effects cs

variable [DecidableEq κ] {i : Option (Interruption κ)}
  {cs ds : List (κ × (σ → Fallible σ))} {s s' : σ}

omit [DecidableEq κ] in
@[simp] theorem outcome_ne_returned {i : Interruption κ} :
    i.outcome = returned ↔ False := by
  unfold Interruption.outcome
  cases i.error <;> simp

/-- **A sequence keeps what each of its calls keeps**, wherever it is
interrupted. -/
theorem perform_invariant {Inv : σ → Prop} (hinv : Inv s)
    (hcs : ∀ c ∈ cs, ∀ s s', Inv s → c.snd s = Except.ok s' → Inv s') :
    Inv (perform i cs s).snd := by
  induction cs generalizing s with
  | nil => exact hinv
  | cons c cs ih =>
    have hc := hcs c List.mem_cons_self s
    have hrest := fun c hc => hcs c (List.mem_cons_of_mem _ hc)
    rw [perform]
    cases i.filter fun i => i.call = c.fst with
    | some i =>
      show Inv (i.after c.snd s)
      unfold Interruption.after
      split
      · cases h : c.snd s with
        | ok s' => exact hc s' hinv h
        | error e => exact hinv
      · exact hinv
    | none =>
      cases h : c.snd s with
      | ok s' => exact ih (hc s' hinv h) hrest
      | error e => exact hinv

/-- **A sequence after another one runs when the first has returned.** -/
theorem perform_append : perform i (cs ++ ds) s
    = if (perform i cs s).fst = returned then perform i ds (perform i cs s).snd
      else perform i cs s := by
  induction cs generalizing s with
  | nil => rfl
  | cons c cs ih =>
    rw [List.cons_append, perform, perform]
    cases i.filter fun i => i.call = c.fst with
    | some i => exact (if_neg fun h => outcome_ne_returned.mp h).symm
    | none =>
      cases h : c.snd s with
      | ok s' => exact ih
      | error e => rfl

/-- A call that nothing interrupts leads on to the rest. -/
theorem perform_none_cons {c : κ × (σ → Fallible σ)} (h : c.snd s = Except.ok s') :
    perform none (c :: cs) s = perform none cs s' := by
  rw [perform, h]
  rfl

/-- **A sequence that returns has made all its calls**: none of them was
interrupted, and each found the state that the one before it left. -/
theorem perform_fst_eq_returned_iff : (perform i cs s).fst = returned
    ↔ (∀ c ∈ cs, ∀ x ∈ i, x.call ≠ c.fst)
      ∧ effects cs s = Except.ok (perform i cs s).snd := by
  induction cs generalizing s with
  | nil => simp [perform, effects]
  | cons c cs ih =>
    rw [perform, effects]
    cases hi : i.filter fun i => i.call = c.fst with
    | some x =>
      obtain ⟨hx, hcall⟩ := Option.filter_eq_some_iff.mp hi
      refine iff_of_false (fun h => outcome_ne_returned.mp h) fun h => ?_
      exact h.left c List.mem_cons_self x hx (of_decide_eq_true hcall)
    | none =>
      have hc : ∀ x ∈ i, x.call ≠ c.fst := fun x hx hcall => by
        have := Option.filter_eq_none_iff.mp hi x hx
        exact this (decide_eq_true hcall)
      cases h : c.snd s with
      | ok s' =>
        show (perform i cs s').fst = returned ↔ _ ∧ effects cs s' = _
        rw [ih, List.forall_mem_cons]
        exact ⟨fun h => ⟨⟨hc, h.left⟩, h.right⟩, fun h => ⟨h.left.right, h.right⟩⟩
      | error e => simp [bind, Except.bind]

/-- A sequence that is not interrupted at any of its calls does what the calls
do. -/
theorem perform_of_forall_ne (h : ∀ c ∈ cs, ∀ x ∈ i, x.call ≠ c.fst)
    (hs : effects cs s = Except.ok s') : perform i cs s = (returned, s') := by
  induction cs generalizing s with
  | nil => rw [Except.ok.inj hs]; rfl
  | cons c cs ih =>
    obtain ⟨s₁, hs₁, hrest⟩ := bind_ok_iff.mp hs
    have hi : (i.filter fun i => i.call = c.fst) = none :=
      Option.filter_eq_none_iff.mpr fun x hx hcall =>
        h c List.mem_cons_self x hx (of_decide_eq_true hcall)
    rw [perform, hi, hs₁]
    exact ih (fun c hc => h c (List.mem_cons_of_mem _ hc)) hrest

/-- A sequence that is interrupted at its first call gets no further. -/
theorem perform_cons_of_call_eq {x : Interruption κ}
    {c : κ × (σ → Fallible σ)} (hcall : x.call = c.fst) :
    perform (some x) (c :: cs) s = (x.outcome, x.after c.snd s) := by
  rw [perform, Option.filter_some, if_pos (decide_eq_true hcall)]

/-- **A sequence has its whole effect unless it is interrupted before the
effect of its last call.** -/
theorem perform_concat_snd {c : κ × (σ → Fallible σ)} {s₁ s₂ : σ}
    (h : ∀ c ∈ cs, ∀ x ∈ i, x.call ≠ c.fst) (hs : effects cs s = Except.ok s₁)
    (hlast : ∀ x ∈ i, x.call = c.fst → x.done = true)
    (hc : c.snd s₁ = Except.ok s₂) : (perform i (cs ++ [c]) s).snd = s₂ := by
  rw [perform_append, perform_of_forall_ne h hs, if_pos rfl]
  cases i with
  | none => simp [perform, hc]
  | some x =>
    by_cases hcall : x.call = c.fst
    · rw [perform_cons_of_call_eq hcall]
      simp [Interruption.after, hlast x rfl hcall, hc, Except.toOption]
    · simp [perform, Option.filter_some, hcall, hc]

end Calls
