import Sbagent.Locks
import Sbagent.Parties
import Sbagent.Reports

/-!
# The source of a session

A session works on one checkout of the source, and `source.json` records which:
the cache that it was cloned from, and the commit it is on. The first start of
the session makes the checkout and writes the record; every later one takes what
is recorded, whatever its own settings say. Starts of a session may run at the
same time, with settings that lead to different caches, and each of them may fail
or die anywhere.

A start looks for the record twice, before it takes the lock of its cache and
after. Between the second look and the write it removes the checkout and clones
it again. What keeps it from doing this to a checkout that is recorded is the lock
for starts of the same cache, and for the others that they have a checkout of
their own; and of two starts that get as far as the write, the second finds the
record there and fails. So there is one record.

The lock goes with the process that holds it, and the clone does not: it is a command of its
own, and a start that is killed leaves it running. A later start of the same cache finds the
lock free, makes the checkout and records it, and then the old clone fails, and removes the
directory that it was to make (`not_source_write_once_orphaned`). As long as no start
reads the commit of a checkout on which such a clone still runs (`KeepsSource`), the
checkout of the record is never touched again (`source_write_once`).

Looking whether a file is there does not fail, and a file that is linked into place
is there at once and as a whole.
-/

open Fallible

namespace SourceStart

/-! ## Starts -/

/-- What the settings of a start come to. -/
structure Target where
  url : String
  branch : String
  cacheId : String
  deriving DecidableEq

/-- The directory of a checkout. -/
structure Checkout where
  /-- What its HEAD resolves to, if it does. -/
  head : Option String
  deriving DecidableEq

/-- How far a start has come. -/
inductive Phase where
  | idle
  | starting (settings : Fallible Target)
  /-- There was no record. -/
  | waiting (t : Target)
  /-- It has the lock. -/
  | holding (t : Target)
  /-- There still was no record. -/
  | checked (t : Target)
  /-- The cache has the branch as it is upstream. -/
  | cached (t : Target)
  /-- There is no checkout. -/
  | pruned (t : Target)
  | cloned (t : Target)
  | resolved (t : Target) (sha : String)
  deriving DecidableEq

/-- The cache whose lock a start is inside of. -/
def Phase.inside : Phase → Option String
  | idle | starting _ | waiting _ => none
  | holding t | checked t | cached t | pruned t | cloned t | resolved t _ => some t.cacheId

/-- The cache whose checkout a start is making. -/
def Phase.makes : Phase → Option String
  | idle | starting _ | waiting _ | holding _ => none
  | checked t | cached t | pruned t | cloned t | resolved t _ => some t.cacheId

/-- The files of a session, the locks and the starts. -/
structure State where
  /-- The record. -/
  sourceJson : Option SourceJson
  /-- The session's checkouts, by their caches. -/
  checkouts : String → Option Checkout
  /-- How often a checkout was removed or made, or tried to be. -/
  touched : String → ℕ
  held : Locks.Holders String
  phase : ℕ → Phase
  /-- What starts have returned. -/
  returned : List SourceJson
  /-- The checkouts on which a clone runs whose start was killed. -/
  orphans : List String

/-- What can happen next. -/
inductive Event where
  | start (p : ℕ) (settings : Fallible Target)
  | check (p : ℕ)
  | acquire (p : ℕ)
  /-- The second look for the record. -/
  | recheck (p : ℕ)
  | ensureCache (p : ℕ)
  | prune (p : ℕ)
  | clone (p : ℕ) (head : Option String)
  | resolveHead (p : ℕ)
  | write (p : ℕ) (fetchedAt : String)
  /-- The record is written, and the process dies before it returns. -/
  | writeUnnoticed (p : ℕ) (fetchedAt : String)
  /-- Removing the checkout or cloning it ends halfway. -/
  | spoil (p : ℕ) (left : Option Checkout)
  /-- A start fails, or the process dies and runs no command that goes on. -/
  | fail (p : ℕ)
  /-- A start is killed while git clones its checkout, and git goes on. -/
  | kill (p : ℕ)
  /-- What git does then: it goes on with the checkout, or removes what it has made of it. -/
  | orphan (k : String) (left : Option Checkout)
  | orphanEnds (k : String)
  deriving DecidableEq

namespace State

/-- A start goes on. -/
def enter (s : State) (p : ℕ) (x : Phase) : State :=
  { s with phase := Function.update s.phase p x }

/-- A start ends. -/
def leave (s : State) (p : ℕ) : State :=
  { s.enter p Phase.idle with held := Locks.drop s.held (s.phase p).inside }

/-- The directory of a checkout is removed or written. -/
def touch (s : State) (cacheId : String) (c : Option Checkout) : State :=
  { s with
    checkouts := Function.update s.checkouts cacheId c
    touched := Function.update s.touched cacheId (s.touched cacheId + 1) }

/-- A start that finds a record returns it, if it is valid and its checkout is
there. -/
def resume (s : State) (p : ℕ) (src : SourceJson) : State :=
  if src.validateModel.isOk && (s.checkouts src.cacheId).isSome then
    { s.leave p with returned := src :: s.returned }
  else s.leave p

/-- The record is linked into place, unless it is not valid or there is one. -/
def writeSource (s : State) (p : ℕ) (src : SourceJson) (noticed : Bool) : State :=
  if src.validateModel.isOk && s.sourceJson.isNone then
    { s.leave p with
      sourceJson := some src
      returned := if noticed then src :: s.returned else s.returned }
  else s.leave p

/-- A session that has no record, with whatever checkouts. -/
def fresh (checkouts : String → Option Checkout) : State where
  sourceJson := none
  checkouts := checkouts
  touched := fun _ => 0
  held := fun _ => none
  phase := fun _ => Phase.idle
  returned := []
  orphans := []

end State

/-- The record of a start. -/
def Target.record (t : Target) (sha fetchedAt : String) : SourceJson :=
  ⟨t.url, t.branch, sha, fetchedAt, t.cacheId⟩

/-- One event. -/
def step (s : State) : Event → Option State
  | Event.start p settings =>
    match s.phase p with
    | Phase.idle => some (s.enter p (Phase.starting settings))
    | _ => none
  | Event.check p =>
    match s.phase p with
    | Phase.starting settings =>
      match s.sourceJson, settings with
      | some src, _ => some (s.resume p src)
      | none, Except.ok t => some (s.enter p (Phase.waiting t))
      | none, Except.error _ => some (s.leave p)
    | _ => none
  | Event.acquire p =>
    match s.phase p with
    | Phase.waiting t =>
      match s.held t.cacheId with
      | none => some
        { s.enter p (Phase.holding t) with
          held := Function.update s.held t.cacheId (some p) }
      | some _ => none
    | _ => none
  | Event.recheck p =>
    match s.phase p with
    | Phase.holding t =>
      match s.sourceJson with
      | some src => some (s.resume p src)
      | none => some (s.enter p (Phase.checked t))
    | _ => none
  | Event.ensureCache p =>
    match s.phase p with
    | Phase.checked t => some (s.enter p (Phase.cached t))
    | _ => none
  | Event.prune p =>
    match s.phase p with
    | Phase.cached t => some ((s.touch t.cacheId none).enter p (Phase.pruned t))
    | _ => none
  | Event.clone p head =>
    match s.phase p with
    | Phase.pruned t => some ((s.touch t.cacheId (some ⟨head⟩)).enter p (Phase.cloned t))
    | _ => none
  | Event.resolveHead p =>
    match s.phase p with
    | Phase.cloned t =>
      match (s.checkouts t.cacheId).bind Checkout.head with
      | some sha => some (s.enter p (Phase.resolved t sha))
      | none => some (s.leave p)
    | _ => none
  | Event.write p fetchedAt =>
    match s.phase p with
    | Phase.resolved t sha => some (s.writeSource p (t.record sha fetchedAt) true)
    | _ => none
  | Event.writeUnnoticed p fetchedAt =>
    match s.phase p with
    | Phase.resolved t sha => some (s.writeSource p (t.record sha fetchedAt) false)
    | _ => none
  | Event.spoil p left =>
    match s.phase p with
    | Phase.cached t => some ((s.touch t.cacheId left).leave p)
    | Phase.pruned t => some ((s.touch t.cacheId left).leave p)
    | _ => none
  | Event.fail p => some (s.leave p)
  | Event.kill p =>
    match s.phase p with
    | Phase.pruned t => some { s.leave p with orphans := t.cacheId :: s.orphans }
    | _ => none
  | Event.orphan k left => if k ∈ s.orphans then some (s.touch k left) else none
  | Event.orphanEnds k =>
    if k ∈ s.orphans then some { s with orphans := s.orphans.erase k } else none

/-- The checkout whose commit an event reads. -/
def Event.reads (s : State) : Event → Option String
  | resolveHead p =>
    match s.phase p with
    | Phase.cloned t => some t.cacheId
    | _ => none
  | _ => none

/-- The condition on an event: a start only reads the commit of its new checkout while no
clone runs on it that a killed start has left. -/
def KeepsSource (s : State) (e : Event) : Prop := ∀ k ∈ e.reads s, k ∉ s.orphans

instance (s : State) (e : Event) : Decidable (KeepsSource s e) :=
  inferInstanceAs (Decidable (∀ k ∈ e.reads s, k ∉ s.orphans))

/-! ## One record -/

/-- The checkout of a record is there, and on the commit that it records. -/
def State.Holds (s : State) (src : SourceJson) : Prop :=
  ∃ c, s.checkouts src.cacheId = some c ∧ c.head = some src.sha

/-- The record is what it was, and its checkout is what it was and was not touched. -/
def State.Stays (s s' : State) (src : SourceJson) : Prop :=
  s'.sourceJson = some src ∧ s'.checkouts src.cacheId = s.checkouts src.cacheId
    ∧ s'.touched src.cacheId = s.touched src.cacheId

/-- What every event that meets the condition keeps. Nobody makes a checkout that is recorded,
what a start has read of its own checkout is still so, and no clone that a killed start has
left runs on either. -/
structure Inv (s : State) : Prop where
  exclusive : Locks.Exclusive Phase.inside s.phase s.held
  holds : ∀ src, s.sourceJson = some src → s.Holds src
  apart : ∀ src, s.sourceJson = some src → ∀ p, (s.phase p).makes ≠ some src.cacheId
  unattended : ∀ src, s.sourceJson = some src → src.cacheId ∉ s.orphans
  resolved : ∀ p t sha, s.phase p = Phase.resolved t sha →
    (s.checkouts t.cacheId).bind Checkout.head = some sha ∧ t.cacheId ∉ s.orphans
  returned : ∀ r ∈ s.returned, s.sourceJson = some r

/-- An event keeps the invariant, and the record if there is one. -/
structure Keeps (s s' : State) : Prop where
  inv : Inv s'
  stays : ∀ src, s.sourceJson = some src → s.Stays s' src

section Steps

variable {s s' s'' : State} {p : ℕ} {x : Phase} {k : String} {src : SourceJson}

theorem inside_of_makes (h : x.makes = some k) : x.inside = some k := by
  cases x with
  | idle => cases h
  | starting settings => cases h
  | waiting t => cases h
  | holding t => cases h
  | checked t => exact h
  | cached t => exact h
  | pruned t => exact h
  | cloned t => exact h
  | resolved t sha => exact h

theorem holds_iff :
    s.Holds src ↔ (s.checkouts src.cacheId).bind Checkout.head = some src.sha :=
  Option.bind_eq_some_iff.symm

theorem State.Stays.trans (h : s.Stays s' src) (h' : s'.Stays s'' src) : s.Stays s'' src :=
  ⟨h'.left, h'.right.left.trans h.right.left, h'.right.right.trans h.right.right⟩

theorem Keeps.trans (h : Keeps s s') (h' : Keeps s' s'') : Keeps s s'' where
  inv := h'.inv
  stays := fun src hsrc =>
    (h.stays src hsrc).trans (h'.stays src (h.stays src hsrc).left)

/-- A start goes on, and may take or give back a lock. -/
theorem keeps_phase {held : Locks.Holders String} (h : Inv s)
    (hexclusive : Locks.Exclusive Phase.inside (Function.update s.phase p x) held)
    (hmakes : ∀ src, s.sourceJson = some src → x.makes ≠ some src.cacheId)
    (hresolved : ∀ t sha, x = Phase.resolved t sha →
      (s.checkouts t.cacheId).bind Checkout.head = some sha ∧ t.cacheId ∉ s.orphans) :
    Keeps s { s.enter p x with held := held } where
  inv :=
    { exclusive := hexclusive
      holds := h.holds
      apart := fun src hsrc => Parties.forall_update
        (P := fun x : Phase => x.makes ≠ some src.cacheId) (hmakes src hsrc) (h.apart src hsrc)
      unattended := h.unattended
      resolved := Parties.forall_update
        (P := fun x : Phase => ∀ t sha, x = Phase.resolved t sha →
          (s.checkouts t.cacheId).bind Checkout.head = some sha ∧ t.cacheId ∉ s.orphans)
        hresolved h.resolved
      returned := h.returned }
  stays := fun _ hsrc => ⟨hsrc, rfl, rfl⟩

/-- A start goes on, inside of the lock that it was inside of. -/
theorem keeps_enter (h : Inv s) (hinside : x.inside = (s.phase p).inside)
    (hmakes : x.makes = (s.phase p).makes ∨ s.sourceJson = none)
    (hresolved : ∀ t sha, x = Phase.resolved t sha →
      (s.checkouts t.cacheId).bind Checkout.head = some sha ∧ t.cacheId ∉ s.orphans) :
    Keeps s (s.enter p x) := by
  refine keeps_phase h (h.exclusive.stay hinside) (fun src hsrc => ?_) hresolved
  obtain hsame | hnone := hmakes
  · rw [hsame]
    exact h.apart src hsrc p
  · rw [hnone] at hsrc
    cases hsrc

/-- A start ends. -/
theorem keeps_leave (h : Inv s) (p : ℕ) : Keeps s (s.leave p) :=
  keeps_phase h (h.exclusive.die rfl) (fun _ _ => nofun) nofun

/-- A start ends with the record that it has found. -/
theorem keeps_resume (h : Inv s) (hsrc : s.sourceJson = some src) :
    Keeps s (s.resume p src) := by
  have hleave := keeps_leave h p
  unfold State.resume
  split_ifs
  · refine ⟨⟨hleave.inv.exclusive, hleave.inv.holds, hleave.inv.apart, hleave.inv.unattended,
      hleave.inv.resolved, fun r hr => ?_⟩, hleave.stays⟩
    obtain rfl | hr := List.mem_cons.mp hr
    · exact hsrc
    · exact h.returned r hr
  · exact hleave

/-- A checkout is touched that nobody has read, and that is not recorded. -/
theorem keeps_touch (h : Inv s) (hapart : ∀ src, s.sourceJson = some src → src.cacheId ≠ k)
    (hunread : ∀ q t sha, s.phase q = Phase.resolved t sha → t.cacheId ≠ k)
    (c : Option Checkout) : Keeps s (s.touch k c) := by
  have hcheckouts : ∀ id, id ≠ k → (s.touch k c).checkouts id = s.checkouts id :=
    fun _ hne => Function.update_of_ne hne _ _
  have htouched : ∀ id, id ≠ k → (s.touch k c).touched id = s.touched id :=
    fun _ hne => Function.update_of_ne hne _ _
  refine ⟨⟨h.exclusive, fun src hsrc => ?_, h.apart, h.unattended, fun q t sha hq => ?_,
    h.returned⟩,
    fun src hsrc => ⟨hsrc, hcheckouts _ (hapart src hsrc), htouched _ (hapart src hsrc)⟩⟩
  · unfold State.Holds
    rw [hcheckouts _ (hapart src hsrc)]
    exact h.holds src hsrc
  · rw [hcheckouts _ (hunread q t sha hq)]
    exact h.resolved q t sha hq

/-- The checkout that a start makes is not recorded. -/
theorem Inv.cacheId_ne (h : Inv s) (hmakes : (s.phase p).makes = some k)
    (hsrc : s.sourceJson = some src) : src.cacheId ≠ k := by
  intro heq
  refine h.apart src hsrc p ?_
  rw [hmakes, heq]

/-- Another start that has read its checkout is inside of another lock. -/
theorem Inv.resolved_ne (h : Inv s) (hmakes : (s.phase p).makes = some k)
    (hunread : ∀ t sha, s.phase p ≠ Phase.resolved t sha) {q : ℕ} {t : Target} {sha : String}
    (hq : s.phase q = Phase.resolved t sha) : t.cacheId ≠ k := by
  rintro rfl
  obtain rfl := h.exclusive.unique (congrArg Phase.inside hq) (inside_of_makes hmakes)
  exact hunread t sha hq

/-- **A start touches the checkout that it makes**, and no other start has read that
one, or is recorded with it. -/
theorem keeps_make (h : Inv s) (hmakes : (s.phase p).makes = some k)
    (hunread : ∀ t sha, s.phase p ≠ Phase.resolved t sha) (c : Option Checkout) :
    Keeps s (s.touch k c) :=
  keeps_touch h (fun _ hsrc => h.cacheId_ne hmakes hsrc)
    (fun _ _ _ hq => h.resolved_ne hmakes hunread hq) c

/-- A start is killed that makes a checkout, and the clone that it leaves is on no other
one. -/
theorem keeps_kill (h : Inv s) (hmakes : (s.phase p).makes = some k)
    (hunread : ∀ t sha, s.phase p ≠ Phase.resolved t sha) :
    Keeps s { s.leave p with orphans := k :: s.orphans } := by
  have hleave := keeps_leave h p
  refine ⟨⟨hleave.inv.exclusive, hleave.inv.holds, hleave.inv.apart, fun src hsrc => ?_,
    fun q t sha hq => ?_, hleave.inv.returned⟩, hleave.stays⟩
  · exact List.not_mem_cons_of_ne_of_not_mem (h.cacheId_ne hmakes hsrc) (h.unattended src hsrc)
  · obtain ⟨hsha, hnot⟩ := hleave.inv.resolved q t sha hq
    have hqp : q ≠ p := by
      rintro rfl
      rw [show ({ s.leave q with orphans := k :: s.orphans } : State).phase q = Phase.idle from
        Function.update_self ..] at hq
      cases hq
    rw [show ({ s.leave p with orphans := k :: s.orphans } : State).phase q = s.phase q from
      Function.update_of_ne hqp _ _] at hq
    exact ⟨hsha, List.not_mem_cons_of_ne_of_not_mem (h.resolved_ne hmakes hunread hq) hnot⟩

/-- A clone that a killed start has left ends. -/
theorem keeps_orphanEnds (h : Inv s) (k : String) :
    Keeps s { s with orphans := s.orphans.erase k } where
  inv :=
    { exclusive := h.exclusive
      holds := h.holds
      apart := h.apart
      unattended := fun src hsrc hmem => h.unattended src hsrc (List.mem_of_mem_erase hmem)
      resolved := fun p t sha hp =>
        (h.resolved p t sha hp).imp_right fun hnot hmem => hnot (List.mem_of_mem_erase hmem)
      returned := h.returned }
  stays := fun _ hsrc => ⟨hsrc, rfl, rfl⟩

/-- **The record is written while there is none**, by the only start that makes the
checkout that it names. -/
theorem keeps_writeSource {t : Target} {sha fetchedAt : String} {noticed : Bool} (h : Inv s)
    (hp : s.phase p = Phase.resolved t sha) :
    Keeps s (s.writeSource p (t.record sha fetchedAt) noticed) := by
  have hleave := keeps_leave h p
  unfold State.writeSource
  split
  case isTrue hwrites =>
    have hnone : s.sourceJson = none := by
      rw [Bool.and_eq_true] at hwrites
      exact Option.isNone_iff_eq_none.mp hwrites.right
    -- no start has returned yet, as there was no record
    have hreturned : ∀ r ∈ s.returned, r = t.record sha fetchedAt := by
      intro r hr
      rw [h.returned r hr] at hnone
      cases hnone
    refine ⟨⟨hleave.inv.exclusive, ?_, ?_, ?_, hleave.inv.resolved, ?_⟩, fun src hsrc => ?_⟩
    · intro src hsrc
      obtain rfl := Option.some.inj hsrc
      exact holds_iff.mpr (h.resolved p t sha hp).left
    · intro src hsrc q hq
      obtain rfl := Option.some.inj hsrc
      by_cases hqp : q = p
      · subst hqp
        change (Function.update s.phase q Phase.idle q).makes = _ at hq
        rw [Function.update_self] at hq
        cases hq
      · change (Function.update s.phase p Phase.idle q).makes = _ at hq
        rw [Function.update_of_ne hqp] at hq
        have hins : (s.phase p).inside = some t.cacheId := by
          rw [hp]
          rfl
        -- another that makes the checkout would be inside of the same lock
        exact hqp (h.exclusive.unique (inside_of_makes hq) hins)
    · intro src hsrc
      obtain rfl := Option.some.inj hsrc
      exact (h.resolved p t sha hp).right
    · intro r hr
      show some (t.record sha fetchedAt) = some r
      cases noticed with
      | true =>
        obtain rfl | hr := List.mem_cons.mp hr
        · rfl
        · rw [hreturned r hr]
      | false => rw [hreturned r hr]
    · rw [hnone] at hsrc
      cases hsrc
  case isFalse => exact hleave

/-- **Every event that meets the condition keeps the invariant and the record.** -/
theorem keeps_step {e : Event} (h : Inv s) (hok : KeepsSource s e)
    (hstep : step s e = some s') : Keeps s s' := by
  cases e with
  | start p settings =>
    simp only [step] at hstep
    split at hstep
    case h_1 hp =>
      obtain rfl := Option.some.inj hstep
      exact keeps_enter h (by rw [hp]; rfl) (Or.inl (by rw [hp]; rfl)) nofun
    case h_2 => cases hstep
  | check p =>
    simp only [step] at hstep
    split at hstep
    case h_1 settings hp =>
      split at hstep
      case h_1 src settings' hsrc =>
        obtain rfl := Option.some.inj hstep
        exact keeps_resume h hsrc
      case h_2 t hnone =>
        obtain rfl := Option.some.inj hstep
        exact keeps_enter h (by rw [hp]; rfl) (Or.inr hnone) nofun
      case h_3 =>
        obtain rfl := Option.some.inj hstep
        exact keeps_leave h p
    case h_2 => cases hstep
  | acquire p =>
    simp only [step] at hstep
    split at hstep
    case h_1 t hp =>
      split at hstep
      case h_1 hfree =>
        obtain rfl := Option.some.inj hstep
        exact keeps_phase h (h.exclusive.acquire hfree rfl) (fun _ _ => nofun) nofun
      case h_2 => cases hstep
    case h_2 => cases hstep
  | recheck p =>
    simp only [step] at hstep
    split at hstep
    case h_1 t hp =>
      split at hstep
      case h_1 src hsrc =>
        obtain rfl := Option.some.inj hstep
        exact keeps_resume h hsrc
      case h_2 hnone =>
        obtain rfl := Option.some.inj hstep
        exact keeps_enter h (by rw [hp]; rfl) (Or.inr hnone) nofun
    case h_2 => cases hstep
  | ensureCache p =>
    simp only [step] at hstep
    split at hstep
    case h_1 t hp =>
      obtain rfl := Option.some.inj hstep
      exact keeps_enter h (by rw [hp]; rfl) (Or.inl (by rw [hp]; rfl)) nofun
    case h_2 => cases hstep
  | prune p =>
    simp only [step] at hstep
    split at hstep
    case h_1 t hp =>
      obtain rfl := Option.some.inj hstep
      have htouch := keeps_make h (by rw [hp]; rfl) (by rw [hp]; nofun) none
      exact htouch.trans (keeps_enter htouch.inv (congrArg Phase.inside hp).symm
        (Or.inl (congrArg Phase.makes hp).symm) nofun)
    case h_2 => cases hstep
  | clone p head =>
    simp only [step] at hstep
    split at hstep
    case h_1 t hp =>
      obtain rfl := Option.some.inj hstep
      have htouch := keeps_make h (by rw [hp]; rfl) (by rw [hp]; nofun) (some ⟨head⟩)
      exact htouch.trans (keeps_enter htouch.inv (congrArg Phase.inside hp).symm
        (Or.inl (congrArg Phase.makes hp).symm) nofun)
    case h_2 => cases hstep
  | resolveHead p =>
    simp only [step] at hstep
    split at hstep
    case h_1 t hp =>
      split at hstep
      case h_1 sha hsha =>
        obtain rfl := Option.some.inj hstep
        refine keeps_enter h (by rw [hp]; rfl) (Or.inl (by rw [hp]; rfl)) ?_
        intro t' sha' heq
        obtain ⟨rfl, rfl⟩ := Phase.resolved.inj heq
        refine ⟨hsha, hok t.cacheId ?_⟩
        simp only [Event.reads, hp, Option.mem_some]
      case h_2 =>
        obtain rfl := Option.some.inj hstep
        exact keeps_leave h p
    case h_2 => cases hstep
  | write p fetchedAt =>
    simp only [step] at hstep
    split at hstep
    case h_1 t sha hp =>
      obtain rfl := Option.some.inj hstep
      exact keeps_writeSource h hp
    case h_2 => cases hstep
  | writeUnnoticed p fetchedAt =>
    simp only [step] at hstep
    split at hstep
    case h_1 t sha hp =>
      obtain rfl := Option.some.inj hstep
      exact keeps_writeSource h hp
    case h_2 => cases hstep
  | spoil p left =>
    simp only [step] at hstep
    split at hstep
    case h_1 t hp =>
      obtain rfl := Option.some.inj hstep
      have htouch := keeps_make h (by rw [hp]; rfl) (by rw [hp]; nofun) left
      exact htouch.trans (keeps_leave htouch.inv p)
    case h_2 t hp =>
      obtain rfl := Option.some.inj hstep
      have htouch := keeps_make h (by rw [hp]; rfl) (by rw [hp]; nofun) left
      exact htouch.trans (keeps_leave htouch.inv p)
    case h_3 => cases hstep
  | fail p =>
    obtain rfl := Option.some.inj hstep
    exact keeps_leave h p
  | kill p =>
    simp only [step] at hstep
    split at hstep
    case h_1 t hp =>
      obtain rfl := Option.some.inj hstep
      exact keeps_kill h (by rw [hp]; rfl) (by rw [hp]; nofun)
    case h_2 => cases hstep
  | orphan k left =>
    simp only [step] at hstep
    split at hstep
    case isTrue hk =>
      obtain rfl := Option.some.inj hstep
      -- no such clone runs on a checkout that is recorded or that was read
      refine keeps_touch h (fun src hsrc heq => ?_) (fun q t sha hq heq => ?_) left
      · exact h.unattended src hsrc (heq ▸ hk)
      · exact (h.resolved q t sha hq).right (heq ▸ hk)
    case isFalse => cases hstep
  | orphanEnds k =>
    simp only [step] at hstep
    split at hstep
    case isTrue =>
      obtain rfl := Option.some.inj hstep
      exact keeps_orphanEnds h k
    case isFalse => cases hstep

theorem inv_fresh (checkouts : String → Option Checkout) :
    Inv (State.fresh checkouts) where
  exclusive := nofun
  holds := nofun
  apart := nofun
  unattended := nofun
  resolved := nofun
  returned := nofun

/-- What events keep, a run keeps. -/
theorem keeps_run {es : List Event} (h : Inv s) (hok : Runs.Throughout step KeepsSource s es)
    (hrun : Runs.run step s es = some s') : Keeps s s' := by
  have hrefl : Keeps s s := ⟨h, fun _ hsrc => ⟨hsrc, rfl, rfl⟩⟩
  exact Runs.run_invariant
    (fun _ _ _ hkeeps hok hstep => hkeeps.trans (keeps_step hkeeps.inv hok hstep)) hrefl hok hrun

end Steps

/-- **The source of a session is written once.** In every run of starts of a
session, with any settings, which may each fail, die or be killed anywhere, and in which no
start reads the commit of a checkout on which a killed start's clone still runs: once there is a
record, its checkout is there with the recorded commit as its HEAD, and from then on
neither of them changes and nobody removes the checkout or clones it again; and all
starts that return a record return the same one. -/
theorem source_write_once {checkouts : String → Option Checkout} {s s' : State}
    {es es' : List Event}
    (hok : Runs.Throughout step KeepsSource (State.fresh checkouts) (es ++ es'))
    (hrun : Runs.run step (State.fresh checkouts) es = some s)
    (hrun' : Runs.run step s es' = some s') :
    (∀ src, s.sourceJson = some src → s.Holds src ∧ s'.Holds src ∧ s.Stays s' src)
      ∧ ∀ r ∈ s'.returned, ∀ r' ∈ s'.returned, r = r' := by
  obtain ⟨hbefore, hafter⟩ := Runs.throughout_append.mp hok
  have hinv := (keeps_run (inv_fresh checkouts) hbefore hrun).inv
  have hkeeps := keeps_run hinv (hafter s hrun) hrun'
  refine ⟨fun src hsrc => ?_, fun r hr r' hr' => ?_⟩
  · have hstays := hkeeps.stays src hsrc
    exact ⟨hinv.holds src hsrc, hkeeps.inv.holds src hstays.left, hstays⟩
  · exact Option.some.inj
      ((hkeeps.inv.returned r hr).symm.trans (hkeeps.inv.returned r' hr'))

/-- Settings that lead to a cache. -/
def mainIn (cacheId : String) : Target :=
  ⟨"https://example.com/owner/repo.git", "main", cacheId⟩

/-- A commit, -/
def oldSha : String := "0ad33704c259da4102b5f195617760003ac89c18"

/-- and the next one. -/
def newSha : String := "5f195617760003ac89c180ad33704c259da4102b"

/-- The events of a start up to the second look. -/
def upToRecheck (p : ℕ) (cacheId : String) : List Event :=
  [Event.start p (Except.ok (mainIn cacheId)), Event.check p, Event.acquire p,
    Event.recheck p]

/-- The events that make a checkout. -/
def makeCheckout (p : ℕ) (sha : String) : List Event :=
  [Event.ensureCache p, Event.prune p, Event.clone p (some sha), Event.resolveHead p]

/-- The events of a start that is killed while it clones; its clone goes on, and ends. -/
def killed (p : ℕ) (cacheId : String) : List Event :=
  upToRecheck p cacheId ++ [Event.ensureCache p, Event.prune p, Event.kill p,
    Event.orphan cacheId (some ⟨none⟩), Event.orphanEnds cacheId]

/-- A start is killed, and two starts with different caches get as far as the write, the second
one on a newer commit. It fails there, and returns the record of the first when it starts
again. -/
theorem source_write_once_race :
    ∃ s s', Runs.run step (State.fresh fun _ => none)
          (killed 0 "cache-a" ++ upToRecheck 0 "cache-a" ++ upToRecheck 1 "cache-b"
            ++ makeCheckout 0 oldSha ++ [Event.write 0 "2026-06-07T12:00:00Z"]) = some s
      ∧ Runs.run step s
          (makeCheckout 1 newSha ++ [Event.write 1 "2026-06-07T12:00:01Z",
            Event.start 1 (Except.ok (mainIn "cache-b")), Event.check 1]) = some s'
      ∧ s'.returned.length = 2 ∧ s.sourceJson.map SourceJson.sha = some oldSha
      ∧ (∀ src, s.sourceJson = some src → s.Holds src ∧ s'.Holds src ∧ s.Stays s' src)
      ∧ ∀ r ∈ s'.returned, ∀ r' ∈ s'.returned, r = r' := by
  have hfirst : (Runs.run step (State.fresh fun _ => none)
      (killed 0 "cache-a" ++ upToRecheck 0 "cache-a" ++ upToRecheck 1 "cache-b"
        ++ makeCheckout 0 oldSha ++ [Event.write 0 "2026-06-07T12:00:00Z"])).map
        (fun s => s.sourceJson.map SourceJson.sha) = some (some oldSha) := by
    decide +kernel
  have hboth : (Runs.run step (State.fresh fun _ => none)
      (killed 0 "cache-a" ++ upToRecheck 0 "cache-a" ++ upToRecheck 1 "cache-b"
        ++ makeCheckout 0 oldSha ++ [Event.write 0 "2026-06-07T12:00:00Z"]
        ++ (makeCheckout 1 newSha ++ [Event.write 1 "2026-06-07T12:00:01Z",
          Event.start 1 (Except.ok (mainIn "cache-b")), Event.check 1]))).map
        (fun s => s.returned.length) = some 2 := by
    decide +kernel
  have hcheck : Runs.check step (fun s e => decide (KeepsSource s e)) (State.fresh fun _ => none)
      (killed 0 "cache-a" ++ upToRecheck 0 "cache-a" ++ upToRecheck 1 "cache-b"
        ++ makeCheckout 0 oldSha ++ [Event.write 0 "2026-06-07T12:00:00Z"]
        ++ (makeCheckout 1 newSha ++ [Event.write 1 "2026-06-07T12:00:01Z",
          Event.start 1 (Except.ok (mainIn "cache-b")), Event.check 1])) = true := by
    decide +kernel
  obtain ⟨s', hrun, hlength⟩ := Option.map_eq_some_iff.mp hboth
  obtain ⟨s, hs, hs'⟩ := Runs.run_append.mp hrun
  rw [hs] at hfirst
  exact ⟨s, s', hs, hs', hlength, Option.some.inj hfirst, source_write_once
    (Runs.throughout_of_check (fun _ _ => of_decide_eq_true) hcheck) hs hs'⟩

/-- **A killed start takes the checkout of the next one away.** Its clone fails when the next
start has removed what it was making, and removes the directory in turn, which is that of
the record by then. -/
theorem not_source_write_once_orphaned :
    ¬ ∀ (checkouts : String → Option Checkout) (s : State) (es : List Event),
      Runs.run step (State.fresh checkouts) es = some s →
      ∀ src, s.sourceJson = some src → s.Holds src := by
  intro h
  have hlost : (Runs.run step (State.fresh fun _ => none)
      (upToRecheck 0 "cache-a" ++ [Event.ensureCache 0, Event.prune 0, Event.kill 0]
        ++ upToRecheck 1 "cache-a" ++ makeCheckout 1 oldSha
        ++ [Event.write 1 "2026-06-07T12:00:00Z", Event.orphan "cache-a" none])).map
        (fun s => (s.sourceJson.map SourceJson.cacheId, s.checkouts "cache-a"))
      = some (some "cache-a", none) := by
    decide +kernel
  obtain ⟨s, hrun, hobs⟩ := Option.map_eq_some_iff.mp hlost
  obtain ⟨hrecord, hnone⟩ := Prod.mk.inj hobs
  obtain ⟨src, hsrc, hcache⟩ := Option.map_eq_some_iff.mp hrecord
  obtain ⟨c, hc, -⟩ := h _ s _ hrun src hsrc
  rw [hcache, hnone] at hc
  cases hc

end SourceStart
