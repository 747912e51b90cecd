import Mathlib.Data.Nat.Notation
import Mathlib.Logic.Function.Basic

/-!
# Exclusive locks

Processes that share files take a lock before they touch them. What a process is
doing says which lock it is inside of, if any; who holds a lock is kept beside
it, as the operating system keeps it. The two agree (`Exclusive`): a process
inside a lock is the one that holds it.

That is all that mutual exclusion is, and it is kept by each of the four things
that a process can do about a lock: take it when nobody has it, go on without
touching it, give it back, and be outside of it.
-/

universe u v

namespace Locks

variable {κ : Type u} {φ : Type v}

/-- Who holds each lock. -/
abbrev Holders (κ : Type u) : Type u := κ → Option ℕ

/-- **A process that is inside a lock holds it.** -/
def Exclusive (inside : φ → Option κ) (phase : ℕ → φ) (held : Holders κ) : Prop :=
  ∀ p k, inside (phase p) = some k → held k = some p

variable {inside : φ → Option κ} {phase : ℕ → φ} {held : Holders κ} {p q : ℕ} {k : κ}
  {x : φ}

/-- Two processes are not inside one lock. -/
theorem Exclusive.unique (h : Exclusive inside phase held)
    (hp : inside (phase p) = some k) (hq : inside (phase q) = some k) : p = q :=
  Option.some.inj ((h p k hp).symm.trans (h q k hq))

/-- Nobody is inside a lock that is not held. -/
theorem Exclusive.inside_ne (h : Exclusive inside phase held) (hk : held k = none)
    (q : ℕ) : inside (phase q) ≠ some k := by
  intro hq
  rw [h q k hq] at hk
  cases hk

/-- Another process is outside of the lock that a process is inside of. -/
theorem Exclusive.inside_ne_of_ne (h : Exclusive inside phase held)
    (hp : inside (phase p) = some k) (hne : q ≠ p) : inside (phase q) ≠ some k :=
  fun hq => hne (h.unique hq hp)

/-- A process goes on, and is inside of what it was inside of. -/
theorem Exclusive.stay (h : Exclusive inside phase held)
    (hx : inside x = inside (phase p)) :
    Exclusive inside (Function.update phase p x) held := by
  intro q k hq
  by_cases hqp : q = p
  · subst hqp
    rw [Function.update_self, hx] at hq
    exact h q k hq
  · rw [Function.update_of_ne hqp] at hq
    exact h q k hq

/-- A process is outside of every lock. -/
theorem Exclusive.leave (h : Exclusive inside phase held) (hx : inside x = none) :
    Exclusive inside (Function.update phase p x) held := by
  intro q k hq
  by_cases hqp : q = p
  · subst hqp
    rw [Function.update_self, hx] at hq
    cases hq
  · rw [Function.update_of_ne hqp] at hq
    exact h q k hq

variable [DecidableEq κ]

/-- A process takes a lock that nobody has. -/
theorem Exclusive.acquire (h : Exclusive inside phase held) (hk : held k = none)
    (hx : inside x = some k) :
    Exclusive inside (Function.update phase p x) (Function.update held k (some p)) := by
  intro q k' hq
  by_cases hqp : q = p
  · subst hqp
    rw [Function.update_self, hx] at hq
    rw [← Option.some.inj hq, Function.update_self]
  · rw [Function.update_of_ne hqp] at hq
    have hne : k' ≠ k := by
      rintro rfl
      exact h.inside_ne hk q hq
    rw [Function.update_of_ne hne]
    exact h q k' hq

/-- A process gives back the lock that it is inside of. -/
theorem Exclusive.release (h : Exclusive inside phase held)
    (hp : inside (phase p) = some k) (hx : inside x = none) :
    Exclusive inside (Function.update phase p x) (Function.update held k none) := by
  intro q k' hq
  by_cases hqp : q = p
  · subst hqp
    rw [Function.update_self, hx] at hq
    cases hq
  · rw [Function.update_of_ne hqp] at hq
    have hne : k' ≠ k := by
      rintro rfl
      exact h.inside_ne_of_ne hp hqp hq
    rw [Function.update_of_ne hne]
    exact h q k' hq

/-- What becomes of the locks when a process ends, wherever it is. -/
def drop (held : Holders κ) (lock : Option κ) : Holders κ :=
  match lock with
  | none => held
  | some k => Function.update held k none

/-- A process ends. -/
theorem Exclusive.die (h : Exclusive inside phase held) (hx : inside x = none) :
    Exclusive inside (Function.update phase p x) (drop held (inside (phase p))) := by
  unfold drop
  split
  case h_1 => exact h.leave hx
  case h_2 k hp => exact h.release hp hx

end Locks
