import Sbagent.SourceStart

/-!
# The caches that sessions share

Sessions clone their checkouts from bare caches that they share. A cache is named by
an id, and nothing keeps two sessions with different upstream repositories from
having one id. Before a start clones, it fetches its branch from its own upstream
into the cache, with a refspec that overwrites what is there, and it holds the lock
of the cache from before it fetches until `source.json` is written.

So a session records what was the tip of its own branch in its own upstream at a
moment at which the start that wrote the record held the lock (`recorded_tip`):
whatever other sessions have put into the cache, whatever a clone that was killed has
left there, and wherever upstream moves meanwhile. The lock says nothing about the commands
that a killed start leaves running: a fetch of another fork that goes on may put the branch of
that one where a later start has just put its own (`not_recorded_tip_stray`). So the condition is
that a start does not fetch into a cache on which such a fetch still runs, and does not
clone into a directory in which such a clone does (`KeepsTip`).

What one session does is `SourceStart`; here many of them run side by side, and what
it leaves open – when a lock is free, and which commit a clone is on – is settled by
the locks and the caches. A fetch that finds a directory which is no repository may
succeed somewhere else, in a repository that the directory lies in.
-/

namespace SourceCaches

open SourceStart (Target Phase)

/-! ## What one start does -/

/-- Who acts, if it is a start that does. -/
def actor : SourceStart.Event → Option ℕ
  | .start p _ | .check p | .acquire p | .recheck p | .ensureCache p | .prune p | .clone p _
  | .resolveHead p | .write p _ | .writeUnnoticed p _ | .spoil p _ | .fail p | .kill p => some p
  | .orphan _ _ | .orphanEnds _ => none

/-- How a start comes to be in a phase in which it has the lock. -/
def Enters (p : ℕ) (s : SourceStart.State) (e : SourceStart.Event) (s' : SourceStart.State) :
    Phase → Prop
  | .idle | .starting _ | .waiting _ => True
  | .holding t => s.phase p = .waiting t ∧ e = .acquire p
  | .checked t => s.phase p = .holding t
  | .cached t => s.phase p = .checked t ∧ e = .ensureCache p
  | .pruned t => s.phase p = .cached t ∧ e = .prune p
  | .cloned t => s.phase p = .pruned t
      ∧ ∃ head, e = .clone p head ∧ s'.checkouts t.cacheId = some ⟨head⟩
  | .resolved t sha => s.phase p = .cloned t ∧ e = .resolveHead p
      ∧ (s.checkouts t.cacheId).bind SourceStart.Checkout.head = some sha

/-- All that an event can do. -/
structure Effects (p : ℕ) (s : SourceStart.State) (e : SourceStart.Event)
    (s' : SourceStart.State) : Prop where
  others : ∀ q, q ≠ p → s'.phase q = s.phase q
  enters : Enters p s e s' (s'.phase p)
  checkouts : ∀ k, (s.phase p).makes ≠ some k → s'.checkouts k = s.checkouts k
  orphans : ∀ k, (s.phase p).makes ≠ some k → k ∉ s.orphans → k ∉ s'.orphans
  record : s'.sourceJson = s.sourceJson
    ∨ ∃ t sha fetchedAt, s.phase p = .resolved t sha
      ∧ s'.sourceJson = some (t.record sha fetchedAt)
      ∧ (e = .write p fetchedAt ∨ e = .writeUnnoticed p fetchedAt)
  held : ∀ k q, s'.held k = some q → s.held k = some q
    ∨ ∃ t, e = .acquire q ∧ s.phase q = .waiting t ∧ t.cacheId = k

section Effects

variable {s s' : SourceStart.State} {e : SourceStart.Event} {p : ℕ} {x : Phase} {k : String}

theorem held_drop {held : Locks.Holders String} {lock : Option String} {q : ℕ}
    (h : Locks.drop held lock k = some q) : held k = some q := by
  unfold Locks.drop at h
  split at h
  case h_1 => exact h
  case h_2 k' =>
    by_cases hk : k = k'
    · subst hk
      rw [Function.update_self] at h
      cases h
    · rwa [Function.update_of_ne hk] at h

/-- A start goes on without touching anything. -/
theorem effects_enter (henters : Enters p s e (s.enter p x) x) :
    Effects p s e (s.enter p x) where
  others := fun q hq => Function.update_of_ne hq ..
  enters := by
    show Enters _ _ _ _ (Function.update s.phase p x p)
    rw [Function.update_self]
    exact henters
  checkouts := fun _ _ => rfl
  orphans := fun _ _ h => h
  record := Or.inl rfl
  held := fun _ _ h => Or.inl h

/-- A start ends, and leaves the files as they are. -/
theorem effects_leave (rs : List SourceJson) :
    Effects p s e { s.leave p with returned := rs } where
  others := fun q hq => Function.update_of_ne hq ..
  enters := by
    show Enters _ _ _ _ (Function.update s.phase p Phase.idle p)
    rw [Function.update_self]
    trivial
  checkouts := fun _ _ => rfl
  orphans := fun _ _ h => h
  record := Or.inl rfl
  held := fun _ _ h => Or.inl (held_drop h)

theorem effects_resume {src : SourceJson} : Effects p s e (s.resume p src) := by
  unfold SourceStart.State.resume
  split
  · exact effects_leave _
  · exact effects_leave (s.leave p).returned

theorem effects_writeSource {t : Target} {sha fetchedAt : String}
    (hp : s.phase p = .resolved t sha)
    (he : e = .write p fetchedAt ∨ e = .writeUnnoticed p fetchedAt) (noticed : Bool) :
    Effects p s e (s.writeSource p (t.record sha fetchedAt) noticed) := by
  unfold SourceStart.State.writeSource
  split
  · have hleave := effects_leave (s := s) (e := e) (p := p) s.returned
    exact ⟨hleave.others, hleave.enters, hleave.checkouts, hleave.orphans,
      Or.inr ⟨t, sha, fetchedAt, hp, rfl, he⟩, hleave.held⟩
  · exact effects_leave (s.leave p).returned

/-- A start removes its checkout, or makes it. -/
theorem effects_touch (hmakes : (s.phase p).makes = some k)
    {c : Option SourceStart.Checkout} (h : Effects p (s.touch k c) e s')
    (hne : ∀ t sha, s'.phase p ≠ .resolved t sha) : Effects p s e s' where
  others := h.others
  enters := by
    have henters := h.enters
    cases hx : s'.phase p with
    | resolved t sha => exact absurd hx (hne t sha)
    | idle | starting | waiting | holding | checked | cached | pruned | cloned =>
      rw [hx] at henters
      exact henters
  checkouts := by
    intro k' hk'
    have hkk' : k' ≠ k := by
      rintro rfl
      exact hk' hmakes
    rw [h.checkouts k' hk']
    exact Function.update_of_ne hkk' ..
  orphans := h.orphans
  record := h.record
  held := h.held

theorem phase_enter_ne {t : Target} {sha : String} (hx : x ≠ .resolved t sha) :
    (s.enter p x).phase p ≠ .resolved t sha := by
  rw [show (s.enter p x).phase p = x from Function.update_self ..]
  exact hx

/-- A start is killed, and leaves a clone behind on the checkout that it makes. -/
theorem effects_kill (hmakes : (s.phase p).makes = some k) :
    Effects p s e { s.leave p with orphans := k :: s.orphans } := by
  have hleave := effects_leave (s := s) (e := e) (p := p) s.returned
  refine ⟨hleave.others, hleave.enters, hleave.checkouts, fun k' hk' hnot => ?_, hleave.record,
    hleave.held⟩
  refine List.not_mem_cons_of_ne_of_not_mem ?_ hnot
  rintro rfl
  exact hk' hmakes

theorem effects_of_step (hactor : actor e = some p) (hstep : SourceStart.step s e = some s') :
    Effects p s e s' := by
  cases e with
  | start q settings =>
    obtain rfl : q = p := Option.some.inj hactor
    simp only [SourceStart.step] at hstep
    split at hstep
    case h_1 hp =>
      obtain rfl := Option.some.inj hstep
      exact effects_enter trivial
    case h_2 => cases hstep
  | check q =>
    obtain rfl : q = p := Option.some.inj hactor
    simp only [SourceStart.step] at hstep
    split at hstep
    case h_1 settings hp =>
      split at hstep
      case h_1 =>
        obtain rfl := Option.some.inj hstep
        exact effects_resume
      case h_2 =>
        obtain rfl := Option.some.inj hstep
        exact effects_enter trivial
      case h_3 =>
        obtain rfl := Option.some.inj hstep
        exact effects_leave _
    case h_2 => cases hstep
  | acquire q =>
    obtain rfl : q = p := Option.some.inj hactor
    simp only [SourceStart.step] at hstep
    split at hstep
    case h_1 t hp =>
      split at hstep
      case h_1 hfree =>
        obtain rfl := Option.some.inj hstep
        have henter := effects_enter (s := s) (e := .acquire q) (p := q) (x := .holding t) ⟨hp, rfl⟩
        -- the only event that takes a lock, so `effects_enter` does not say who holds it
        refine ⟨henter.others, henter.enters, henter.checkouts, henter.orphans, henter.record, ?_⟩
        intro k r hr
        by_cases hk : k = t.cacheId
        · subst hk
          replace hr : Function.update s.held t.cacheId (some q) t.cacheId = some r := hr
          rw [Function.update_self] at hr
          obtain rfl := Option.some.inj hr
          exact Or.inr ⟨t, rfl, hp, rfl⟩
        · replace hr : Function.update s.held t.cacheId (some q) k = some r := hr
          rw [Function.update_of_ne hk] at hr
          exact Or.inl hr
      case h_2 => cases hstep
    case h_2 => cases hstep
  | recheck q =>
    obtain rfl : q = p := Option.some.inj hactor
    simp only [SourceStart.step] at hstep
    split at hstep
    case h_1 t hp =>
      split at hstep
      case h_1 =>
        obtain rfl := Option.some.inj hstep
        exact effects_resume
      case h_2 =>
        obtain rfl := Option.some.inj hstep
        exact effects_enter hp
    case h_2 => cases hstep
  | ensureCache q =>
    obtain rfl : q = p := Option.some.inj hactor
    simp only [SourceStart.step] at hstep
    split at hstep
    case h_1 t hp =>
      obtain rfl := Option.some.inj hstep
      exact effects_enter ⟨hp, rfl⟩
    case h_2 => cases hstep
  | prune q =>
    obtain rfl : q = p := Option.some.inj hactor
    simp only [SourceStart.step] at hstep
    split at hstep
    case h_1 t hp =>
      obtain rfl := Option.some.inj hstep
      exact effects_touch (congrArg Phase.makes hp) (effects_enter ⟨hp, rfl⟩)
        fun _ _ => phase_enter_ne Phase.noConfusion
    case h_2 => cases hstep
  | clone q head =>
    obtain rfl : q = p := Option.some.inj hactor
    simp only [SourceStart.step] at hstep
    split at hstep
    case h_1 t hp =>
      obtain rfl := Option.some.inj hstep
      refine effects_touch (congrArg Phase.makes hp) (effects_enter ⟨hp, head, rfl, ?_⟩)
        fun _ _ => phase_enter_ne Phase.noConfusion
      exact Function.update_self ..
    case h_2 => cases hstep
  | resolveHead q =>
    obtain rfl : q = p := Option.some.inj hactor
    simp only [SourceStart.step] at hstep
    split at hstep
    case h_1 t hp =>
      split at hstep
      case h_1 sha hsha =>
        obtain rfl := Option.some.inj hstep
        exact effects_enter ⟨hp, rfl, hsha⟩
      case h_2 =>
        obtain rfl := Option.some.inj hstep
        exact effects_leave _
    case h_2 => cases hstep
  | write q fetchedAt =>
    obtain rfl : q = p := Option.some.inj hactor
    simp only [SourceStart.step] at hstep
    split at hstep
    case h_1 t sha hp =>
      obtain rfl := Option.some.inj hstep
      exact effects_writeSource hp (Or.inl rfl) true
    case h_2 => cases hstep
  | writeUnnoticed q fetchedAt =>
    obtain rfl : q = p := Option.some.inj hactor
    simp only [SourceStart.step] at hstep
    split at hstep
    case h_1 t sha hp =>
      obtain rfl := Option.some.inj hstep
      exact effects_writeSource hp (Or.inr rfl) false
    case h_2 => cases hstep
  | spoil q left =>
    obtain rfl : q = p := Option.some.inj hactor
    simp only [SourceStart.step] at hstep
    split at hstep
    case h_1 t hp =>
      obtain rfl := Option.some.inj hstep
      exact effects_touch (congrArg Phase.makes hp) (effects_leave _)
        fun _ _ => phase_enter_ne Phase.noConfusion
    case h_2 t hp =>
      obtain rfl := Option.some.inj hstep
      exact effects_touch (congrArg Phase.makes hp) (effects_leave _)
        fun _ _ => phase_enter_ne Phase.noConfusion
    case h_3 => cases hstep
  | fail q =>
    obtain rfl : q = p := Option.some.inj hactor
    obtain rfl := Option.some.inj hstep
    exact effects_leave _
  | kill q =>
    obtain rfl : q = p := Option.some.inj hactor
    simp only [SourceStart.step] at hstep
    split at hstep
    case h_1 t hp =>
      obtain rfl := Option.some.inj hstep
      exact effects_kill (congrArg Phase.makes hp)
    case h_2 => cases hstep
  | orphan => cases hactor
  | orphanEnds => cases hactor

end Effects

/-! ## Sessions side by side -/

/-- The directory of a bare cache. -/
inductive Cache where
  /-- The tips of its branches. -/
  | repo (refs : String → Option String)
  /-- It is no repository. -/
  | broken

/-- Sessions, and what they share. -/
structure World where
  /-- The tips of the branches upstream. -/
  upstream : String → String → Option String
  caches : String → Option Cache
  /-- The session that holds the lock of a cache. -/
  holder : String → Option String
  sessions : String → SourceStart.State
  /-- The remote `origin` of a session's checkout, where there is one. -/
  origin : String → String → Option String
  /-- The caches into which a command runs whose start was killed. -/
  strays : List String

/-- What can happen next. -/
inductive Event where
  /-- A branch moves upstream, comes or goes. -/
  | push (url branch : String) (tip : Option String)
  /-- A start does something that does not depend on what is shared. -/
  | session (i : String) (e : SourceStart.Event)
  | acquire (i : String) (p : ℕ)
  | ensureCache (i : String) (p : ℕ) (elsewhere : Bool)
  /-- Bringing the cache up to date ends halfway. -/
  | cutShort (i : String) (p : ℕ) (left : Option Cache)
  | clone (i : String) (p : ℕ)
  /-- Removing the checkout or cloning it ends halfway. -/
  | spoil (i : String) (p : ℕ) (left : Option SourceStart.Checkout) (origin : Option String)
  /-- The operator removes a cache. -/
  | wipe (cacheId : String)
  /-- A start is killed while git brings its cache up to date, and git goes on. -/
  | killFetch (i : String) (p : ℕ)
  /-- What git does then to the cache. -/
  | stray (cacheId : String) (left : Option Cache)
  | strayEnds (cacheId : String)
  /-- What the clone of a killed start does to the checkout and its remote. -/
  | orphan (i cacheId : String) (left : Option SourceStart.Checkout) (origin : Option String)
  | orphanEnds (i cacheId : String)

/-- Whether an event is one of a start that does not depend on what is shared. -/
def isOwn : SourceStart.Event → Bool
  | .acquire _ | .ensureCache _ | .clone _ _ | .spoil _ _ | .orphan _ _ | .orphanEnds _ => false
  | _ => true

namespace World

/-- A session goes on, and the locks with it. -/
def put (w : World) (i : String) (s : SourceStart.State) : World :=
  { w with
    sessions := Function.update w.sessions i s
    holder := fun k =>
      if (s.held k).isSome then some i else if w.holder k = some i then none else w.holder k }

/-- A branch moves upstream. -/
def setUpstream (w : World) (url branch : String) (tip : Option String) : World :=
  { w with
    upstream := Function.update w.upstream url (Function.update (w.upstream url) branch tip) }

/-- The directory of a cache is written or removed. -/
def setCache (w : World) (cacheId : String) (c : Option Cache) : World :=
  { w with caches := Function.update w.caches cacheId c }

/-- The remote `origin` of a checkout is set. -/
def setOrigin (w : World) (i cacheId : String) (url : Option String) : World :=
  { w with origin := Function.update w.origin i (Function.update (w.origin i) cacheId url) }

/-- A command starts that nobody waits for, or ends. -/
def setStrays (w : World) (ks : List String) : World :=
  { w with strays := ks }

/-- A session does something. -/
def act (w : World) (i : String) (e : SourceStart.Event) : Option World :=
  (SourceStart.step (w.sessions i) e).map (w.put i)

/-- `ensure_cache`. -/
def ensureCache (w : World) (i : String) (p : ℕ) (t : Target) (elsewhere : Bool) :
    Option World :=
  match w.caches t.cacheId, w.upstream t.url t.branch with
  -- `clone --bare` takes all branches, and only then the branch is looked for
  | none, some _ =>
    (w.setCache t.cacheId (some (Cache.repo (w.upstream t.url)))).act i (.ensureCache p)
  | none, none =>
    (w.setCache t.cacheId (some (Cache.repo (w.upstream t.url)))).act i (.fail p)
  | some (Cache.repo refs), some sha =>
    (w.setCache t.cacheId
      (some (Cache.repo (Function.update refs t.branch (some sha))))).act i (.ensureCache p)
  | some (Cache.repo _), none => w.act i (.fail p)
  | some Cache.broken, _ => w.act i (if elsewhere then .ensureCache p else .fail p)

/-- `clone_session_checkout`. -/
def clone (w : World) (i : String) (p : ℕ) (t : Target) : Option World :=
  match w.caches t.cacheId with
  | some (Cache.repo refs) =>
    match refs t.branch with
    | some sha =>
      (w.setOrigin i t.cacheId (some t.url)).act i (.clone p (some sha))
    | none => w.act i (.fail p)
  | _ => w.act i (.fail p)

/-- One event. -/
def step (w : World) : Event → Option World
  | .push url branch tip => some (w.setUpstream url branch tip)
  | .session i e => if isOwn e then w.act i e else none
  | .acquire i p =>
    match (w.sessions i).phase p with
    | .waiting t => if w.holder t.cacheId = none then w.act i (.acquire p) else none
    | _ => none
  | .ensureCache i p elsewhere =>
    match (w.sessions i).phase p with
    | .checked t => w.ensureCache i p t elsewhere
    | _ => none
  | .cutShort i p left =>
    match (w.sessions i).phase p with
    | .checked t => (w.setCache t.cacheId left).act i (.fail p)
    | _ => none
  | .clone i p =>
    match (w.sessions i).phase p with
    | .pruned t => w.clone i p t
    | _ => none
  | .spoil i p left origin =>
    match (w.sessions i).phase p with
    | .cached t | .pruned t =>
      (w.setOrigin i t.cacheId origin).act i (.spoil p left)
    | _ => none
  | .wipe cacheId => if w.holder cacheId = none then some (w.setCache cacheId none) else none
  | .killFetch i p =>
    match (w.sessions i).phase p with
    | .checked t => (w.setStrays (t.cacheId :: w.strays)).act i (.fail p)
    | _ => none
  | .stray k left => if k ∈ w.strays then some (w.setCache k left) else none
  | .strayEnds k => if k ∈ w.strays then some (w.setStrays (w.strays.erase k)) else none
  | .orphan i k left origin => (w.setOrigin i k origin).act i (.orphan k left)
  | .orphanEnds i k => w.act i (.orphanEnds k)

end World

/-- The condition on an event: a start only fetches into a cache on which no command of a
killed start runs, and only clones into a directory in which none does. -/
def KeepsTip (w : World) : Event → Prop
  | .ensureCache i p _ => ∀ k ∈ ((w.sessions i).phase p).inside, k ∉ w.strays
  | .clone i p => ∀ k ∈ ((w.sessions i).phase p).inside, k ∉ (w.sessions i).orphans
  | _ => True

instance (w : World) : DecidablePred (KeepsTip w)
  | .ensureCache i p _ =>
    inferInstanceAs (Decidable (∀ k ∈ ((w.sessions i).phase p).inside, k ∉ w.strays))
  | .clone i p =>
    inferInstanceAs (Decidable (∀ k ∈ ((w.sessions i).phase p).inside, k ∉ (w.sessions i).orphans))
  | .push _ _ _ | .session _ _ | .acquire _ _ | .cutShort _ _ _ | .spoil _ _ _ _ | .wipe _
  | .killFetch _ _ | .stray _ _ | .strayEnds _ | .orphan _ _ _ _ | .orphanEnds _ _ => isTrue trivial

/-- No session has started yet, whatever there is upstream and on disk. -/
def World.fresh (upstream : String → String → Option String) (caches : String → Option Cache)
    (checkouts : String → String → Option SourceStart.Checkout)
    (origin : String → String → Option String) :
    World :=
  ⟨upstream, caches, fun _ => none, fun i => SourceStart.State.fresh (checkouts i), origin, []⟩

/-! ## What was fetched -/

/-- A start fetched its branch when its tip was a commit, and has held the lock of the
cache ever since. -/
def Fetched (w₀ : World) (es : List Event) (i : String) (p : ℕ) (t : Target) (sha : String) :
    Prop :=
  ∃ pre elsewhere mid w₁, es = pre ++ Event.ensureCache i p elsewhere :: mid
    ∧ Runs.run World.step w₀ pre = some w₁ ∧ w₁.upstream t.url t.branch = some sha
    ∧ ∀ mid₁ w₂, mid₁ <+: mid →
      Runs.run World.step w₀ (pre ++ Event.ensureCache i p elsewhere :: mid₁) = some w₂ →
      (w₂.sessions i).held t.cacheId = some p

/-- A record was written by a start that had fetched the recorded commit. -/
def Recorded (w₀ : World) (es : List Event) (i : String) (src : SourceJson) : Prop :=
  ∃ es₁ e post p t fetchedAt, es = es₁ ++ Event.session i e :: post
    ∧ (e = .write p fetchedAt ∨ e = .writeUnnoticed p fetchedAt)
    ∧ Fetched w₀ es₁ i p t src.sha ∧ src = Target.record t src.sha fetchedAt

/-- What every event that meets the condition keeps. -/
structure Inv (w₀ : World) (es : List Event) (w : World) : Prop where
  session : ∀ i, SourceStart.Inv (w.sessions i)
  /-- A lock that a start of a session holds is the session's. -/
  holder : ∀ i k, (w.sessions i).held k ≠ none → w.holder k = some i
  cached : ∀ i p t, (w.sessions i).phase p = .cached t ∨ (w.sessions i).phase p = .pruned t →
    t.cacheId ∉ w.strays ∧ ∀ refs, w.caches t.cacheId = some (Cache.repo refs) →
      ∃ sha, refs t.branch = some sha ∧ Fetched w₀ es i p t sha
  cloned : ∀ i p t, (w.sessions i).phase p = .cloned t →
    t.cacheId ∉ (w.sessions i).orphans ∧ w.origin i t.cacheId = some t.url
      ∧ ∃ sha, (w.sessions i).checkouts t.cacheId = some ⟨some sha⟩ ∧ Fetched w₀ es i p t sha
  resolved : ∀ i p t sha, (w.sessions i).phase p = .resolved t sha →
    w.origin i t.cacheId = some t.url ∧ Fetched w₀ es i p t sha
  recorded : ∀ i src, (w.sessions i).sourceJson = some src →
    w.origin i src.cacheId = some src.url ∧ Recorded w₀ es i src

section Worlds

variable {w₀ w w' w₁ : World} {es : List Event} {E : Event} {i j : String} {p q : ℕ} {t : Target}
  {sha k : String} {s' : SourceStart.State} {e : SourceStart.Event} {src : SourceJson}

theorem act_eq_some_iff : w.act i e = some w'
    ↔ ∃ s', SourceStart.step (w.sessions i) e = some s' ∧ w.put i s' = w' :=
  Option.map_eq_some_iff

theorem sessions_put_self : (w.put i s').sessions i = s' := Function.update_self ..

theorem sessions_put_of_ne (h : j ≠ i) : (w.put i s').sessions j = w.sessions j :=
  Function.update_of_ne h ..

/-- A start that goes on holds its lock. -/
theorem Fetched.snoc (h : Fetched w₀ es i p t sha)
    (hrun : Runs.run World.step w₀ (es ++ [E]) = some w')
    (hheld : (w'.sessions i).held t.cacheId = some p) : Fetched w₀ (es ++ [E]) i p t sha := by
  obtain ⟨pre, elsewhere, mid, w₁, rfl, hpre, htip, hthrough⟩ := h
  refine ⟨pre, elsewhere, mid ++ [E], w₁, ?_, hpre, htip, fun mid₁ w₂ hmid hw₂ => ?_⟩
  · rw [List.append_assoc, List.cons_append]
  · rcases List.prefix_concat_iff.mp hmid with rfl | hmid
    · rw [List.append_assoc, List.cons_append] at hrun
      obtain rfl := Option.some.inj (hrun.symm.trans hw₂)
      exact hheld
    · exact hthrough mid₁ w₂ hmid hw₂

/-- A start has just fetched. -/
theorem fetched_now {elsewhere : Bool} (hrun : Runs.run World.step w₀ es = some w)
    (htip : w.upstream t.url t.branch = some sha)
    (hrun' : Runs.run World.step w₀ (es ++ [Event.ensureCache i p elsewhere]) = some w')
    (hheld : (w'.sessions i).held t.cacheId = some p) :
    Fetched w₀ (es ++ [Event.ensureCache i p elsewhere]) i p t sha := by
  refine ⟨es, elsewhere, [], w, rfl, hrun, htip, fun mid₁ w₂ hmid hw₂ => ?_⟩
  obtain rfl := List.prefix_nil.mp hmid
  obtain rfl := Option.some.inj (hrun'.symm.trans hw₂)
  exact hheld

theorem Recorded.snoc (h : Recorded w₀ es i src) : Recorded w₀ (es ++ [E]) i src := by
  obtain ⟨es₁, e, post, p, t, fetchedAt, rfl, hrest⟩ := h
  refine ⟨es₁, e, post ++ [E], p, t, fetchedAt, ?_, hrest⟩
  rw [List.append_assoc, List.cons_append]

/-- A start that is inside of a lock holds it, and its session does. -/
theorem Inv.inside (h : Inv w₀ es w) (hp : ((w.sessions i).phase p).inside = some k) :
    (w.sessions i).held k = some p ∧ w.holder k = some i := by
  have hheld := (h.session i).exclusive p k hp
  refine ⟨hheld, h.holder i k ?_⟩
  rw [hheld]
  exact Option.some_ne_none p

/-- **Two starts are not inside of one lock**, of whatever sessions. -/
theorem Inv.unique (h : Inv w₀ es w) (hp : ((w.sessions i).phase p).inside = some k)
    (hq : ((w.sessions j).phase q).inside = some k) : i = j ∧ p = q := by
  obtain rfl := Option.some.inj ((h.inside hp).right.symm.trans (h.inside hq).right)
  exact ⟨rfl, (h.session i).exclusive.unique hp hq⟩

/-- An actor that makes a checkout is inside of the lock. -/
theorem inside_of_makes {x : Phase} (h : x.makes = some k) : x.inside = some k :=
  SourceStart.inside_of_makes h

/-- A start that is about to read the commit of its checkout is alone with it. -/
theorem Inv.keepsSource (h : Inv w₀ es w) : SourceStart.KeepsSource (w.sessions i) e := by
  intro k hk
  unfold SourceStart.Event.reads at hk
  split at hk
  case h_1 p =>
    split at hk
    case h_1 t hp =>
      obtain rfl := Option.some.inj hk
      exact (h.cloned i p t hp).left
    case h_2 => cases hk
  case h_2 => cases hk

/-- The session that acts has the locks that its starts hold, and the others keep theirs. -/
theorem holder_put (hothers : ∀ j k, j ≠ i → (w₁.sessions j).held k ≠ none →
      w₁.holder k = some j ∧ s'.held k = none)
    (hk : ((w₁.put i s').sessions j).held k ≠ none) : (w₁.put i s').holder k = some j := by
  show (if (s'.held k).isSome then some i else if w₁.holder k = some i then none
    else w₁.holder k) = some j
  by_cases hj : j = i
  · subst hj
    rw [sessions_put_self] at hk
    rw [if_pos (Option.isSome_iff_ne_none.mpr hk)]
  · rw [sessions_put_of_ne hj] at hk
    obtain ⟨hjk, hnone⟩ := hothers j k hj hk
    rw [hnone, if_neg (by decide), hjk, if_neg fun heq => hj (Option.some.inj heq)]

/-- A start of a session does something, and what is shared changes only as far as it has the
lock. -/
structure Acts (w w₁ : World) (i : String) (p : ℕ) (e : SourceStart.Event)
    (s' : SourceStart.State) : Prop where
  actor : actor e = some p
  step : SourceStart.step (w.sessions i) e = some s'
  sessions : w₁.sessions = w.sessions
  holder : w₁.holder = w.holder
  free : ∀ t, e = .acquire p → (w.sessions i).phase p = .waiting t → w.holder t.cacheId = none
  caches : ∀ k, ((w.sessions i).phase p).inside ≠ some k → w₁.caches k = w.caches k
  origin : ∀ j k, (j = i → ((w.sessions i).phase p).makes ≠ some k) →
    w₁.origin j k = w.origin j k
  strays : ∀ k, ((w.sessions i).phase p).inside ≠ some k → k ∉ w.strays → k ∉ w₁.strays

theorem Acts.effects (ha : Acts w w₁ i p e s') : Effects p (w.sessions i) e s' :=
  effects_of_step ha.actor ha.step

theorem Acts.inv (ha : Acts w w₁ i p e s') (h : Inv w₀ es w) (j : String) :
    SourceStart.Inv ((w₁.put i s').sessions j) := by
  by_cases hj : j = i
  · subst hj
    rw [sessions_put_self]
    exact (SourceStart.keeps_step (h.session j) h.keepsSource ha.step).inv
  · rw [sessions_put_of_ne hj, ha.sessions]
    exact h.session j

/-- Nobody loses a lock to the start that acts. -/
theorem Acts.holder_put (ha : Acts w w₁ i p e s') (h : Inv w₀ es w)
    (hk : ((w₁.put i s').sessions j).held k ≠ none) : (w₁.put i s').holder k = some j := by
  refine SourceCaches.holder_put (fun j k hj hk => ?_) hk
  rw [ha.sessions] at hk
  have hjk := h.holder j k hk
  refine ⟨ha.holder ▸ hjk, ?_⟩
  by_contra hsome
  obtain ⟨q, hq⟩ := Option.ne_none_iff_exists'.mp hsome
  -- what it holds it held before, or the lock was free
  rcases ha.effects.held k q hq with hold | ⟨t, he, hwaiting, rfl⟩
  · have hik := h.holder i k (by rw [hold]; exact Option.some_ne_none q)
    exact hj (Option.some.inj (hjk.symm.trans hik))
  · have hactor := ha.actor
    rw [he] at hactor
    obtain rfl : q = p := Option.some.inj hactor
    cases hjk.symm.trans (ha.free t he hwaiting)

/-- What can be said of the other starts while one acts. -/
structure Acts.Other (w w₁ : World) (i : String) (p : ℕ) (s' : SourceStart.State) (j : String)
    (q : ℕ) : Prop where
  phase : ((w₁.put i s').sessions j).phase q = (w.sessions j).phase q
  /-- If it has a lock, the start that acts has not. -/
  apart : ∀ k, ((w.sessions j).phase q).inside = some k →
    ((w.sessions i).phase p).inside ≠ some k
  held : ∀ k, ((w.sessions j).phase q).inside = some k →
    ((w₁.put i s').sessions j).held k = some q

theorem Acts.other (ha : Acts w w₁ i p e s') (h : Inv w₀ es w) (hjq : ¬ (j = i ∧ q = p)) :
    Acts.Other w w₁ i p s' j q := by
  have hphase : ((w₁.put i s').sessions j).phase q = (w.sessions j).phase q := by
    by_cases hj : j = i
    · subst hj
      rw [sessions_put_self]
      exact ha.effects.others q fun hq => hjq ⟨rfl, hq⟩
    · rw [sessions_put_of_ne hj, ha.sessions]
  exact ⟨hphase, fun k hin hp => hjq (h.unique hin hp),
    fun k hin => (ha.inv h j).exclusive q k (hphase ▸ hin)⟩

/-- The start that acts does not make the checkout of another one. -/
theorem Acts.Other.makes (ho : Acts.Other w w₁ i p s' j q)
    (hin : ((w.sessions j).phase q).inside = some k) : ((w.sessions i).phase p).makes ≠ some k :=
  fun hp => ho.apart k hin (inside_of_makes hp)

/-- A clone of another start is what it was. -/
theorem Acts.cloned_other (ha : Acts w w₁ i p e s') (ho : Acts.Other w w₁ i p s' j q)
    (hin : ((w.sessions j).phase q).inside = some k) :
    (k ∉ (w.sessions j).orphans → k ∉ ((w₁.put i s').sessions j).orphans)
      ∧ ((w₁.put i s').sessions j).checkouts k = (w.sessions j).checkouts k := by
  by_cases hj : j = i
  · subst hj
    rw [sessions_put_self]
    exact ⟨ha.effects.orphans k (ho.makes hin), ha.effects.checkouts k (ho.makes hin)⟩
  · rw [sessions_put_of_ne hj, ha.sessions]
    exact ⟨id, rfl⟩

/-- **A session does something**, and what is shared changes only as far as the start that
acts has the lock. -/
theorem inv_put (h : Inv w₀ es w) (ha : Acts w w₁ i p e s')
    (hrun : Runs.run World.step w₀ (es ++ [E]) = some (w₁.put i s'))
    (hown : isOwn e = true → e ≠ .fail p → w₁ = w ∧ E = Event.session i e)
    (hcached : ∀ t, s'.phase p = .cached t → t.cacheId ∉ w₁.strays ∧ ∀ refs,
      w₁.caches t.cacheId = some (Cache.repo refs) →
      ∃ sha, refs t.branch = some sha ∧ Fetched w₀ (es ++ [E]) i p t sha)
    (hcloned : ∀ t, s'.phase p = .cloned t → t.cacheId ∉ s'.orphans
      ∧ w₁.origin i t.cacheId = some t.url
      ∧ ∃ sha, s'.checkouts t.cacheId = some ⟨some sha⟩
        ∧ Fetched w₀ (es ++ [E]) i p t sha) :
    Inv w₀ (es ++ [E]) (w₁.put i s') := by
  have heff := ha.effects
  -- the start that acts has the lock of what it is doing
  have hheld : ∀ k, (s'.phase p).inside = some k →
      ((w₁.put i s').sessions i).held k = some p := by
    intro k hin
    refine (ha.inv h i).exclusive p k ?_
    rwa [sessions_put_self]
  refine ⟨ha.inv h, fun j k => ha.holder_put h, ?_, ?_, ?_, ?_⟩
  · intro j q t hq
    by_cases hjq : j = i ∧ q = p
    · obtain ⟨rfl, rfl⟩ := hjq
      rw [sessions_put_self] at hq
      rcases hq with hq | hq
      · exact hcached t hq
      · -- it has removed its old checkout, and no cache has changed
        have henters := heff.enters
        rw [hq] at henters
        have hprune := henters.right
        obtain ⟨rfl, -⟩ := hown (by rw [hprune]; rfl) (by rw [hprune]; nofun)
        obtain ⟨hstray, htip⟩ := h.cached j q t (Or.inl henters.left)
        refine ⟨hstray, fun refs hrefs => ?_⟩
        obtain ⟨sha, hsha, hfetched⟩ := htip refs hrefs
        exact ⟨sha, hsha, hfetched.snoc hrun (hheld t.cacheId (by rw [hq]; rfl))⟩
    · have ho := ha.other h hjq
      rw [ho.phase] at hq
      have hin : ((w.sessions j).phase q).inside = some t.cacheId := by
        rcases hq with hq | hq
        · rw [hq]; rfl
        · rw [hq]; rfl
      obtain ⟨hstray, htip⟩ := h.cached j q t hq
      refine ⟨ha.strays t.cacheId (ho.apart t.cacheId hin) hstray, fun refs hrefs => ?_⟩
      replace hrefs : w₁.caches t.cacheId = some (Cache.repo refs) := hrefs
      rw [ha.caches t.cacheId (ho.apart t.cacheId hin)] at hrefs
      obtain ⟨sha, hsha, hfetched⟩ := htip refs hrefs
      exact ⟨sha, hsha, hfetched.snoc hrun (ho.held t.cacheId hin)⟩
  · intro j q t hq
    by_cases hjq : j = i ∧ q = p
    · obtain ⟨rfl, rfl⟩ := hjq
      rw [sessions_put_self] at hq ⊢
      exact hcloned t hq
    · have ho := ha.other h hjq
      rw [ho.phase] at hq
      have hin : ((w.sessions j).phase q).inside = some t.cacheId := congrArg Phase.inside hq
      obtain ⟨hnone, horig, sha, hcheckout, hfetched⟩ := h.cloned j q t hq
      obtain ⟨horphans, hsame⟩ := ha.cloned_other ho hin
      exact ⟨horphans hnone, (ha.origin j t.cacheId fun _ => ho.makes hin).trans horig, sha,
        hsame.trans hcheckout, hfetched.snoc hrun (ho.held t.cacheId hin)⟩
  · intro j q t sha hq
    by_cases hjq : j = i ∧ q = p
    · obtain ⟨rfl, rfl⟩ := hjq
      rw [sessions_put_self] at hq
      have henters := heff.enters
      rw [hq] at henters
      obtain ⟨hcloned', he, hsha⟩ := henters
      obtain ⟨rfl, -⟩ := hown (by rw [he]; rfl) (by rw [he]; nofun)
      -- what it reads is what it has cloned
      obtain ⟨-, horig, sha', hcheckout, hfetched⟩ := h.cloned j q t hcloned'
      rw [hcheckout] at hsha
      obtain rfl := Option.some.inj hsha
      exact ⟨horig, hfetched.snoc hrun (hheld t.cacheId (by rw [hq]; rfl))⟩
    · have ho := ha.other h hjq
      rw [ho.phase] at hq
      have hin : ((w.sessions j).phase q).inside = some t.cacheId := congrArg Phase.inside hq
      obtain ⟨horig, hfetched⟩ := h.resolved j q t sha hq
      exact ⟨(ha.origin j t.cacheId fun _ => ho.makes hin).trans horig,
        hfetched.snoc hrun (ho.held t.cacheId hin)⟩
  · intro j src hsrc
    by_cases hj : j = i
    · subst hj
      rw [sessions_put_self] at hsrc
      rcases heff.record with hrecord | ⟨t, sha, fetchedAt, hresolved, hrecord, he⟩
      · rw [hrecord] at hsrc
        obtain ⟨horig, hrecorded⟩ := h.recorded j src hsrc
        refine ⟨(ha.origin j src.cacheId fun _ => ?_).trans horig, hrecorded.snoc⟩
        exact (h.session j).apart src hsrc p
      · -- it has written the record, of what it has read
        obtain rfl := Option.some.inj (hrecord.symm.trans hsrc)
        have hisOwn : isOwn e = true ∧ e ≠ .fail p := by
          rcases he with he | he
          · rw [he]; exact ⟨rfl, nofun⟩
          · rw [he]; exact ⟨rfl, nofun⟩
        obtain ⟨rfl, rfl⟩ := hown hisOwn.left hisOwn.right
        obtain ⟨horig, hfetched⟩ := h.resolved j p t sha hresolved
        exact ⟨horig, es, e, [], p, t, fetchedAt, rfl, he, hfetched, rfl⟩
    · rw [sessions_put_of_ne hj, ha.sessions] at hsrc
      obtain ⟨horig, hrecorded⟩ := h.recorded j src hsrc
      exact ⟨(ha.origin j src.cacheId fun heq => absurd heq hj).trans horig, hrecorded.snoc⟩

/-- What a command of a killed start can do to its session. -/
structure Quiet (s s' : SourceStart.State) : Prop where
  inv : SourceStart.Inv s'
  phase : s'.phase = s.phase
  record : s'.sourceJson = s.sourceJson
  held : s'.held = s.held
  checkouts : ∀ k, k ∉ s.orphans → s'.checkouts k = s.checkouts k
  orphans : ∀ k, k ∉ s.orphans → k ∉ s'.orphans

theorem quiet_refl {s : SourceStart.State} (h : SourceStart.Inv s) : Quiet s s :=
  ⟨h, rfl, rfl, rfl, fun _ _ => rfl, fun _ hk => hk⟩

theorem quiet_of_step {s : SourceStart.State} (h : SourceStart.Inv s) (hactor : actor e = none)
    (hstep : SourceStart.step s e = some s') : Quiet s s' := by
  have hinv : e.reads s = none → SourceStart.Inv s' := by
    intro hnone
    refine (SourceStart.keeps_step h (fun k hk => ?_) hstep).inv
    rw [hnone] at hk
    cases hk
  cases e with
  | orphan k left =>
    simp only [SourceStart.step] at hstep
    split at hstep
    case isTrue hk =>
      obtain rfl := Option.some.inj hstep
      refine ⟨hinv rfl, rfl, rfl, rfl, fun k' hk' => ?_, fun _ hk' => hk'⟩
      have hne : k' ≠ k := by
        rintro rfl
        exact hk' hk
      exact Function.update_of_ne hne _ _
    case isFalse => cases hstep
  | orphanEnds k =>
    simp only [SourceStart.step] at hstep
    split at hstep
    case isTrue =>
      obtain rfl := Option.some.inj hstep
      exact ⟨hinv rfl, rfl, rfl, rfl, fun _ _ => rfl,
        fun _ hk hmem => hk (List.mem_of_mem_erase hmem)⟩
    case isFalse => cases hstep
  | start | check | acquire | recheck | ensureCache | prune | clone | resolveHead | write
  | writeUnnoticed | spoil | fail | kill => cases hactor

/-- No start does anything. What changes are caches and checkouts on which commands run that
nobody waits for, and caches that go away. -/
structure Undisturbed (w w₁ : World) : Prop where
  session : ∀ i, Quiet (w.sessions i) (w₁.sessions i)
  holder : ∀ i k, (w₁.sessions i).held k ≠ none → w₁.holder k = some i
  origin : ∀ i k, k ∉ (w.sessions i).orphans → w₁.origin i k = w.origin i k
  caches : ∀ k, k ∉ w.strays → w₁.caches k = w.caches k ∨ w₁.caches k = none
  strays : ∀ k, k ∉ w.strays → k ∉ w₁.strays

/-- **What nobody waits for disturbs nobody.** -/
theorem Undisturbed.inv (hw : Undisturbed w w₁) (h : Inv w₀ es w)
    (hrun : Runs.run World.step w₀ (es ++ [E]) = some w₁) : Inv w₀ (es ++ [E]) w₁ := by
  have hheld : ∀ i p k, ((w.sessions i).phase p).inside = some k →
      (w₁.sessions i).held k = some p := by
    intro i p k hin
    rw [← (hw.session i).phase] at hin
    exact (hw.session i).inv.exclusive p k hin
  refine ⟨fun i => (hw.session i).inv, hw.holder, ?_, ?_, ?_, ?_⟩
  · intro i p t hp
    rw [(hw.session i).phase] at hp
    obtain ⟨hstray, htip⟩ := h.cached i p t hp
    refine ⟨hw.strays _ hstray, fun refs hrefs => ?_⟩
    obtain hsame | hnone := hw.caches t.cacheId hstray
    · rw [hsame] at hrefs
      obtain ⟨sha, hsha, hfetched⟩ := htip refs hrefs
      refine ⟨sha, hsha, hfetched.snoc hrun (hheld i p t.cacheId ?_)⟩
      obtain hp | hp := hp
      · exact congrArg Phase.inside hp
      · exact congrArg Phase.inside hp
    · cases hnone.symm.trans hrefs
  · intro i p t hp
    rw [(hw.session i).phase] at hp
    obtain ⟨hnone, horig, sha, hcheckout, hfetched⟩ := h.cloned i p t hp
    exact ⟨(hw.session i).orphans _ hnone, (hw.origin i _ hnone).trans horig, sha,
      ((hw.session i).checkouts _ hnone).trans hcheckout,
      hfetched.snoc hrun (hheld i p t.cacheId (congrArg Phase.inside hp))⟩
  · intro i p t sha hp
    rw [(hw.session i).phase] at hp
    obtain ⟨horig, hfetched⟩ := h.resolved i p t sha hp
    have hnone := ((h.session i).resolved p t sha hp).right
    exact ⟨(hw.origin i _ hnone).trans horig,
      hfetched.snoc hrun (hheld i p t.cacheId (congrArg Phase.inside hp))⟩
  · intro i src hsrc
    rw [(hw.session i).record] at hsrc
    obtain ⟨horig, hrecorded⟩ := h.recorded i src hsrc
    have hnone := (h.session i).unattended src hsrc
    exact ⟨(hw.origin i _ hnone).trans horig, hrecorded.snoc⟩

/-- Nothing changes but upstream, the caches and what runs on them. -/
theorem undisturbed_shared (h : Inv w₀ es w) (hsessions : w₁.sessions = w.sessions)
    (hholder : w₁.holder = w.holder) (horigin : w₁.origin = w.origin)
    (hcaches : ∀ k, k ∉ w.strays → w₁.caches k = w.caches k ∨ w₁.caches k = none)
    (hstrays : ∀ k, k ∉ w.strays → k ∉ w₁.strays) : Undisturbed w w₁ where
  session := fun i => by
    rw [hsessions]
    exact quiet_refl (h.session i)
  holder := by
    rw [hsessions, hholder]
    exact h.holder
  origin := fun i k _ => by rw [horigin]
  caches := hcaches
  strays := hstrays

/-- A clone that nobody waits for goes on, or ends. -/
theorem undisturbed_act (h : Inv w₀ es w) (hactor : actor e = none)
    (hact : w₁.act i e = some w') (hsessions : w₁.sessions = w.sessions)
    (hholder : w₁.holder = w.holder) (hcaches : w₁.caches = w.caches)
    (hstrays : w₁.strays = w.strays)
    (horigin : ∀ j k, k ∉ (w.sessions j).orphans → w₁.origin j k = w.origin j k) :
    Undisturbed w w' := by
  obtain ⟨s', hstep, rfl⟩ := act_eq_some_iff.mp hact
  rw [hsessions] at hstep
  have hquiet := quiet_of_step (h.session i) hactor hstep
  have hother : ∀ j, j ≠ i → (w₁.put i s').sessions j = w.sessions j := by
    intro j hj
    rw [sessions_put_of_ne hj, hsessions]
  refine ⟨fun j => ?_, fun j k hk => ?_, horigin, fun k _ => Or.inl (congrFun hcaches k),
    fun k hk hmem => hk (hstrays ▸ hmem)⟩
  · by_cases hj : j = i
    · subst hj
      rw [sessions_put_self]
      exact hquiet
    · rw [hother j hj]
      exact quiet_refl (h.session j)
  · refine holder_put (fun j k hj hk => ?_) hk
    rw [hsessions] at hk
    have hjk := h.holder j k hk
    refine ⟨hholder ▸ hjk, ?_⟩
    rw [hquiet.held]
    by_contra hsome
    exact hj (Option.some.inj (hjk.symm.trans (h.holder i k hsome)))

theorem exists_actor_of_isOwn (hown : isOwn e = true) : ∃ p, actor e = some p := by
  cases e with
  | orphan => cases hown
  | orphanEnds => cases hown
  | start | check | acquire | recheck | ensureCache | prune | clone | resolveHead | write
  | writeUnnoticed | spoil | fail | kill => exact ⟨_, rfl⟩

/-- A start does something by itself. -/
theorem inv_own (h : Inv w₀ es w) (hown : isOwn e = true)
    (hact : w.act i e = some w')
    (hrun : Runs.run World.step w₀ (es ++ [Event.session i e]) = some w') :
    Inv w₀ (es ++ [Event.session i e]) w' := by
  obtain ⟨s', hstep, rfl⟩ := act_eq_some_iff.mp hact
  obtain ⟨p, hactor⟩ := exists_actor_of_isOwn hown
  have henters := (effects_of_step hactor hstep).enters
  refine inv_put h ⟨hactor, hstep, rfl, rfl, ?_, fun _ _ => rfl, fun _ _ _ => rfl,
    fun _ _ hk => hk⟩ hrun (fun _ _ => ⟨rfl, rfl⟩) ?_ ?_
  · intro t he
    rw [he] at hown
    cases hown
  · intro t hp
    rw [hp] at henters
    rw [henters.right] at hown
    cases hown
  · intro t hp
    rw [hp] at henters
    obtain ⟨head, he, -⟩ := henters.right
    rw [he] at hown
    cases hown

/-- A start takes a lock that no session has. -/
theorem inv_acquire (h : Inv w₀ es w) (hp : (w.sessions i).phase p = .waiting t)
    (hfree : w.holder t.cacheId = none) (hact : w.act i (.acquire p) = some w')
    (hrun : Runs.run World.step w₀ (es ++ [E]) = some w') : Inv w₀ (es ++ [E]) w' := by
  obtain ⟨s', hstep, rfl⟩ := act_eq_some_iff.mp hact
  have henters := (effects_of_step rfl hstep).enters
  refine inv_put h ⟨rfl, hstep, rfl, rfl, ?_, fun _ _ => rfl, fun _ _ _ => rfl,
    fun _ _ hk => hk⟩ hrun nofun ?_ ?_
  · intro t' _ hp'
    obtain rfl := Phase.waiting.inj (hp.symm.trans hp')
    exact hfree
  · intro t' hp'
    rw [hp'] at henters
    cases henters.right
  · intro t' hp'
    rw [hp'] at henters
    cases henters.left.symm.trans hp

/-- A start that has the lock of a cache gives up, and leaves the cache behind as it may be. -/
theorem inv_fail (h : Inv w₀ es w) (hin : ((w.sessions i).phase p).inside = some k)
    (hact : w₁.act i (.fail p) = some w') (hsessions : w₁.sessions = w.sessions)
    (hholder : w₁.holder = w.holder) (horigin : w₁.origin = w.origin)
    (hcaches : ∀ k', k' ≠ k → w₁.caches k' = w.caches k')
    (hstrays : ∀ k', k' ≠ k → k' ∉ w.strays → k' ∉ w₁.strays)
    (hrun : Runs.run World.step w₀ (es ++ [E]) = some w') : Inv w₀ (es ++ [E]) w' := by
  obtain ⟨s', hstep, rfl⟩ := act_eq_some_iff.mp hact
  rw [hsessions] at hstep
  have henters := (effects_of_step rfl hstep).enters
  have hne : ∀ k', ((w.sessions i).phase p).inside ≠ some k' → k' ≠ k := by
    rintro k' hk' rfl
    exact hk' hin
  refine inv_put h ⟨rfl, hstep, hsessions, hholder, nofun, fun k' hk' => hcaches k' (hne k' hk'),
    ?_, fun k' hk' => hstrays k' (hne k' hk')⟩ hrun (fun _ hne => absurd rfl hne) ?_ ?_
  · intro j k _
    rw [horigin]
  · intro t' hp'
    rw [hp'] at henters
    cases henters.right
  · intro t' hp'
    rw [hp'] at henters
    obtain ⟨head, he, -⟩ := henters.right
    cases he

/-- A start that has the lock of a cache brings it up to date. -/
theorem inv_fetch {elsewhere : Bool} (h : Inv w₀ es w)
    (hrun₀ : Runs.run World.step w₀ es = some w) (hp : (w.sessions i).phase p = .checked t)
    (hcaches : ∀ k, k ≠ t.cacheId → w₁.caches k = w.caches k)
    (hsessions : w₁.sessions = w.sessions) (hholder : w₁.holder = w.holder)
    (horigin : w₁.origin = w.origin) (hstrays : w₁.strays = w.strays)
    (hnone : t.cacheId ∉ w.strays)
    (htip : ∀ refs, w₁.caches t.cacheId = some (Cache.repo refs) →
      ∃ sha, refs t.branch = some sha ∧ w.upstream t.url t.branch = some sha)
    (hact : w₁.act i (.ensureCache p) = some w')
    (hrun : Runs.run World.step w₀ (es ++ [Event.ensureCache i p elsewhere]) = some w') :
    Inv w₀ (es ++ [Event.ensureCache i p elsewhere]) w' := by
  obtain ⟨s', hstep, rfl⟩ := act_eq_some_iff.mp hact
  rw [hsessions] at hstep
  have henters := (effects_of_step rfl hstep).enters
  have hinv := (SourceStart.keeps_step (h.session i) h.keepsSource hstep).inv
  refine inv_put h ⟨rfl, hstep, hsessions, hholder, nofun, ?_, ?_, ?_⟩ hrun nofun ?_ ?_
  · intro k hk
    refine hcaches k fun heq => hk ?_
    show ((w.sessions i).phase p).inside = some k
    rw [hp, heq]
    rfl
  · intro j k _
    rw [horigin]
  · intro k _ hk
    rw [hstrays]
    exact hk
  · intro t' hp'
    rw [hp'] at henters
    -- only the start that fetched has become `cached`, and its tip is of this moment
    obtain rfl := Phase.checked.inj (hp.symm.trans henters.left)
    refine ⟨hstrays ▸ hnone, fun refs hrefs => ?_⟩
    obtain ⟨sha, hsha, hup⟩ := htip refs hrefs
    refine ⟨sha, hsha, fetched_now hrun₀ hup hrun ?_⟩
    rw [sessions_put_self]
    refine hinv.exclusive p t.cacheId ?_
    rw [show s'.phase p = .cached t from hp']
    rfl
  · intro t' hp'
    rw [hp'] at henters
    obtain ⟨head, he, -⟩ := henters.right
    cases he

theorem origin_setOrigin {k' : String} {url : Option String} (h : j = i → k' ≠ k) :
    (w.setOrigin i k url).origin j k' = w.origin j k' := by
  show Function.update w.origin i _ j k' = w.origin j k'
  by_cases hj : j = i
  · subst hj
    rw [Function.update_self, Function.update_of_ne (h rfl)]
  · rw [Function.update_of_ne hj]

/-- A start clones its checkout from the cache that it has brought up to date. -/
theorem inv_clone (h : Inv w₀ es w) (hp : (w.sessions i).phase p = .pruned t)
    {refs : String → Option String} (hrefs : w.caches t.cacheId = some (Cache.repo refs))
    (hsha : refs t.branch = some sha) (hnone : t.cacheId ∉ (w.sessions i).orphans)
    (hact : (w.setOrigin i t.cacheId (some t.url)).act i (.clone p (some sha)) = some w')
    (hrun : Runs.run World.step w₀ (es ++ [E]) = some w') : Inv w₀ (es ++ [E]) w' := by
  obtain ⟨s', hstep, rfl⟩ := act_eq_some_iff.mp hact
  have hstep : SourceStart.step (w.sessions i) (.clone p (some sha)) = some s' := hstep
  have henters := (effects_of_step rfl hstep).enters
  have hinv := (SourceStart.keeps_step (h.session i) h.keepsSource hstep).inv
  have hmakes : ((w.sessions i).phase p).makes = some t.cacheId := by
    rw [hp]
    rfl
  refine inv_put h ⟨rfl, hstep, rfl, rfl, nofun, fun _ _ => rfl, ?_, fun _ _ hk => hk⟩ hrun nofun
    ?_ ?_
  · intro j k hjk
    exact origin_setOrigin fun hj heq => hjk hj (heq ▸ hmakes)
  · intro t' hp'
    rw [hp'] at henters
    cases henters.right
  · intro t' hp'
    rw [hp'] at henters
    obtain ⟨hpruned, head, he, hcheckout⟩ := henters
    obtain rfl := Phase.pruned.inj (hp.symm.trans hpruned)
    obtain ⟨-, rfl⟩ := SourceStart.Event.clone.inj he
    obtain ⟨sha', hsha', hfetched⟩ := (h.cached i p t (Or.inr hp)).right refs hrefs
    obtain rfl := Option.some.inj (hsha.symm.trans hsha')
    refine ⟨?_, ?_, sha, hcheckout, hfetched.snoc hrun ?_⟩
    · simp only [SourceStart.step, hp] at hstep
      obtain rfl := Option.some.inj hstep
      exact hnone
    · show Function.update w.origin i _ i t.cacheId = some t.url
      rw [Function.update_self, Function.update_self]
    · rw [sessions_put_self]
      refine hinv.exclusive p t.cacheId ?_
      rw [show s'.phase p = .cloned t from hp']
      rfl

/-- A start leaves a checkout behind that it has not finished. -/
theorem inv_spoil (h : Inv w₀ es w) (hmakes : ((w.sessions i).phase p).makes = some t.cacheId)
    {left : Option SourceStart.Checkout} {origin : Option String}
    (hact : (w.setOrigin i t.cacheId origin).act i (.spoil p left) = some w')
    (hrun : Runs.run World.step w₀ (es ++ [E]) = some w') : Inv w₀ (es ++ [E]) w' := by
  obtain ⟨s', hstep, rfl⟩ := act_eq_some_iff.mp hact
  have hstep : SourceStart.step (w.sessions i) (.spoil p left) = some s' := hstep
  have henters := (effects_of_step rfl hstep).enters
  refine inv_put h ⟨rfl, hstep, rfl, rfl, nofun, fun _ _ => rfl, ?_, fun _ _ hk => hk⟩ hrun nofun
    ?_ ?_
  · intro j k hjk
    exact origin_setOrigin fun hj heq => hjk hj (heq ▸ hmakes)
  · intro t' hp'
    rw [hp'] at henters
    cases henters.right
  · intro t' hp'
    rw [hp'] at henters
    obtain ⟨head, he, -⟩ := henters.right
    cases he

theorem caches_setCache {c : Option Cache} (k' : String) (hk : k' ≠ k) :
    (w.setCache k c).caches k' = w.caches k' :=
  Function.update_of_ne hk ..

theorem caches_setCache_self {c : Option Cache} : (w.setCache k c).caches k = c :=
  Function.update_self ..

/-- `ensure_cache` keeps the invariant, whatever it finds. -/
theorem inv_ensureCache {elsewhere : Bool} (h : Inv w₀ es w)
    (hrun₀ : Runs.run World.step w₀ es = some w) (hp : (w.sessions i).phase p = .checked t)
    (hnone : t.cacheId ∉ w.strays) (hstep : w.ensureCache i p t elsewhere = some w')
    (hrun : Runs.run World.step w₀ (es ++ [Event.ensureCache i p elsewhere]) = some w') :
    Inv w₀ (es ++ [Event.ensureCache i p elsewhere]) w' := by
  have hin : ((w.sessions i).phase p).inside = some t.cacheId := by
    rw [hp]
    rfl
  unfold World.ensureCache at hstep
  split at hstep
  case h_1 sha _ hup =>
    refine inv_fetch h hrun₀ hp caches_setCache rfl rfl rfl rfl hnone (fun refs hrefs => ?_) hstep hrun
    rw [caches_setCache_self] at hrefs
    obtain rfl := Cache.repo.inj (Option.some.inj hrefs)
    exact ⟨sha, hup, hup⟩
  case h_2 => exact inv_fail h hin hstep rfl rfl rfl caches_setCache (fun _ _ hk => hk) hrun
  case h_3 refs sha hrepo hup =>
    refine inv_fetch h hrun₀ hp caches_setCache rfl rfl rfl rfl hnone (fun refs' hrefs => ?_) hstep hrun
    rw [caches_setCache_self] at hrefs
    obtain rfl := Cache.repo.inj (Option.some.inj hrefs)
    exact ⟨sha, Function.update_self .., hup⟩
  case h_4 => exact inv_fail h hin hstep rfl rfl rfl (fun _ _ => rfl) (fun _ _ hk => hk) hrun
  case h_5 hbroken =>
    cases elsewhere with
    | true =>
      refine inv_fetch h hrun₀ hp (fun _ _ => rfl) rfl rfl rfl rfl hnone (fun refs hrefs => ?_) hstep hrun
      cases hbroken.symm.trans hrefs
    | false => exact inv_fail h hin hstep rfl rfl rfl (fun _ _ => rfl) (fun _ _ hk => hk) hrun

theorem mem_orphans_of_act {left : Option SourceStart.Checkout}
    (hact : w.act i (.orphan k left) = some w') : k ∈ (w.sessions i).orphans := by
  obtain ⟨s', hstep, -⟩ := act_eq_some_iff.mp hact
  simp only [SourceStart.step] at hstep
  split at hstep
  · assumption
  · cases hstep

/-- **Every event that meets the condition keeps the invariant.** -/
theorem inv_step (h : Inv w₀ es w) (hok : KeepsTip w E) (hrun₀ : Runs.run World.step w₀ es = some w)
    (hstep : w.step E = some w') : Inv w₀ (es ++ [E]) w' := by
  have hrun : Runs.run World.step w₀ (es ++ [E]) = some w' :=
    Runs.run_append.mpr ⟨w, hrun₀, Runs.run_cons_eq_some_iff.mpr ⟨w', hstep, rfl⟩⟩
  unfold World.step at hstep
  cases E with
  | push url branch tip =>
    obtain rfl := Option.some.inj hstep
    refine Undisturbed.inv ?_ h hrun
    exact undisturbed_shared h rfl rfl rfl (fun _ _ => Or.inl rfl) fun _ hk => hk
  | session i e =>
    simp only at hstep
    split at hstep
    · exact inv_own h ‹_› hstep hrun
    · cases hstep
  | acquire i p =>
    simp only at hstep
    split at hstep
    case h_1 t hp =>
      split at hstep
      · exact inv_acquire h hp ‹_› hstep hrun
      · cases hstep
    case h_2 => cases hstep
  | ensureCache i p elsewhere =>
    simp only at hstep
    split at hstep
    case h_1 t hp =>
      -- the condition of the run: no stray command is in this cache
      have hnone : t.cacheId ∉ w.strays := hok t.cacheId (congrArg Phase.inside hp)
      exact inv_ensureCache h hrun₀ hp hnone hstep hrun
    case h_2 => cases hstep
  | cutShort i p left =>
    simp only at hstep
    split at hstep
    case h_1 t hp =>
      exact inv_fail h (congrArg Phase.inside hp) hstep rfl rfl rfl caches_setCache (fun _ _ hk => hk) hrun
    case h_2 => cases hstep
  | clone i p =>
    simp only at hstep
    split at hstep
    case h_1 t hp =>
      have hin : ((w.sessions i).phase p).inside = some t.cacheId := congrArg Phase.inside hp
      unfold World.clone at hstep
      split at hstep
      case h_1 refs hrefs =>
        split at hstep
        case h_1 sha hsha => exact inv_clone h hp hrefs hsha (hok t.cacheId hin) hstep hrun
        case h_2 => exact inv_fail h hin hstep rfl rfl rfl (fun _ _ => rfl) (fun _ _ hk => hk) hrun
      case h_2 => exact inv_fail h hin hstep rfl rfl rfl (fun _ _ => rfl) (fun _ _ hk => hk) hrun
    case h_2 => cases hstep
  | spoil i p left origin =>
    simp only at hstep
    split at hstep
    case h_1 t hp => exact inv_spoil h (congrArg Phase.makes hp) hstep hrun
    case h_2 t hp => exact inv_spoil h (congrArg Phase.makes hp) hstep hrun
    case h_3 => cases hstep
  | wipe cacheId =>
    simp only at hstep
    split at hstep
    case isTrue hfree =>
      obtain rfl := Option.some.inj hstep
      refine Undisturbed.inv ?_ h hrun
      refine undisturbed_shared h rfl rfl rfl (fun k _ => ?_) fun _ hk => hk
      by_cases hk : k = cacheId
      · subst hk
        exact Or.inr caches_setCache_self
      · exact Or.inl (caches_setCache k hk)
    case isFalse => cases hstep
  | killFetch i p =>
    simp only at hstep
    split at hstep
    case h_1 t hp =>
      exact inv_fail h (congrArg Phase.inside hp) hstep rfl rfl rfl (fun _ _ => rfl)
        (fun _ hne hk => List.not_mem_cons_of_ne_of_not_mem hne hk) hrun
    case h_2 => cases hstep
  | stray k left =>
    simp only at hstep
    split at hstep
    case isTrue hk =>
      obtain rfl := Option.some.inj hstep
      refine Undisturbed.inv ?_ h hrun
      refine undisturbed_shared h rfl rfl rfl (fun k' hk' => Or.inl ?_) fun _ hk => hk
      exact caches_setCache k' fun heq => hk' (heq ▸ hk)
    case isFalse => cases hstep
  | strayEnds k =>
    simp only at hstep
    split at hstep
    case isTrue hk =>
      obtain rfl := Option.some.inj hstep
      refine Undisturbed.inv ?_ h hrun
      exact undisturbed_shared h rfl rfl rfl (fun _ _ => Or.inl rfl)
        fun _ hk hmem => hk (List.mem_of_mem_erase hmem)
    case isFalse => cases hstep
  | orphan i k left origin =>
    have hk := mem_orphans_of_act hstep
    refine Undisturbed.inv ?_ h hrun
    refine undisturbed_act h rfl hstep rfl rfl rfl rfl fun j k' hk' => origin_setOrigin ?_
    rintro rfl rfl
    exact hk' hk
  | orphanEnds i k =>
    exact (undisturbed_act h rfl hstep rfl rfl rfl rfl fun _ _ _ => rfl).inv h hrun

theorem inv_fresh {upstream : String → String → Option String} {caches : String → Option Cache}
    {checkouts : String → String → Option SourceStart.Checkout}
    {origin : String → String → Option String} :
    Inv w₀ [] (World.fresh upstream caches checkouts origin) where
  session := fun i => SourceStart.inv_fresh (checkouts i)
  holder := fun _ _ h => absurd rfl h
  cached := fun _ _ _ h => by
    obtain h | h := h
    · cases h
    · cases h
  cloned := fun _ _ _ h => nomatch h
  resolved := fun _ _ _ _ h => nomatch h
  recorded := fun _ _ h => nomatch h

/-! ## One session among the others -/

/-- What one session does in a world is what a session does. -/
def Same (s s' : SourceStart.State) : Prop :=
  s' = s ∨ ∃ e, SourceStart.step s e = some s'

theorem same_act (h : w₁.act j e = some w') (hsessions : w₁.sessions = w.sessions) :
    Same (w.sessions i) (w'.sessions i) := by
  obtain ⟨s', hstep, rfl⟩ := act_eq_some_iff.mp h
  by_cases hij : i = j
  · subst hij
    rw [sessions_put_self]
    exact Or.inr ⟨e, hsessions ▸ hstep⟩
  · rw [sessions_put_of_ne hij, hsessions]
    exact Or.inl rfl

theorem same_step (hstep : w.step E = some w') : Same (w.sessions i) (w'.sessions i) := by
  unfold World.step at hstep
  cases E with
  | push url branch tip =>
    obtain rfl := Option.some.inj hstep
    exact Or.inl rfl
  | session j e =>
    simp only at hstep
    split at hstep
    · exact same_act hstep rfl
    · cases hstep
  | acquire j p =>
    simp only at hstep
    split at hstep
    · split at hstep
      · exact same_act hstep rfl
      · cases hstep
    · cases hstep
  | ensureCache j p elsewhere =>
    simp only [World.ensureCache] at hstep
    split at hstep
    · split at hstep <;> exact same_act hstep rfl
    · cases hstep
  | cutShort j p left =>
    simp only at hstep
    split at hstep
    · exact same_act hstep rfl
    · cases hstep
  | clone j p =>
    simp only [World.clone] at hstep
    split at hstep
    · split at hstep
      · split at hstep <;> exact same_act hstep rfl
      · exact same_act hstep rfl
    · cases hstep
  | spoil j p left origin =>
    simp only at hstep
    split at hstep
    · exact same_act hstep rfl
    · exact same_act hstep rfl
    · cases hstep
  | wipe cacheId =>
    simp only at hstep
    split at hstep
    · obtain rfl := Option.some.inj hstep
      exact Or.inl rfl
    · cases hstep
  | killFetch j p =>
    simp only at hstep
    split at hstep
    · exact same_act hstep rfl
    · cases hstep
  | stray k left =>
    simp only at hstep
    split at hstep
    · obtain rfl := Option.some.inj hstep
      exact Or.inl rfl
    · cases hstep
  | strayEnds k =>
    simp only at hstep
    split at hstep
    · obtain rfl := Option.some.inj hstep
      exact Or.inl rfl
    · cases hstep
  | orphan j k left origin => exact same_act hstep rfl
  | orphanEnds j k => exact same_act hstep rfl

/-- **Seen from one session, a run of all of them is a run of its own starts.** -/
theorem keeps_session {es' : List Event} (h : Inv w₀ es w)
    (hrun₀ : Runs.run World.step w₀ es = some w) (hok : Runs.Throughout World.step KeepsTip w es')
    (hrun : Runs.run World.step w es' = some w') :
    Inv w₀ (es ++ es') w' ∧ SourceStart.Keeps (w.sessions i) (w'.sessions i) := by
  have hinit : Inv w₀ (es ++ []) w ∧ SourceStart.Keeps (w.sessions i) (w.sessions i) := by
    rw [List.append_nil]
    exact ⟨h, h.session i, fun _ hsrc => ⟨hsrc, rfl, rfl⟩⟩
  have hstep : ∀ done v E v', Runs.run World.step w done = some v →
      Inv w₀ (es ++ done) v ∧ SourceStart.Keeps (w.sessions i) (v.sessions i) →
      KeepsTip v E → v.step E = some v' →
      Inv w₀ (es ++ (done ++ [E])) v' ∧ SourceStart.Keeps (w.sessions i) (v'.sessions i) := by
    intro done v E v' hv ⟨hinv, hkeeps⟩ hok hstep
    have hinv' := inv_step hinv hok (Runs.run_append.mpr ⟨w, hrun₀, hv⟩) hstep
    rw [List.append_assoc] at hinv'
    refine ⟨hinv', ?_⟩
    obtain hsame | ⟨e, he⟩ := same_step (i := i) hstep
    · rw [hsame]
      exact hkeeps
    · exact hkeeps.trans (SourceStart.keeps_step (hinv.session i) hinv.keepsSource he)
  exact Runs.run_history_of hinit hstep hok hrun

end Worlds

/-- **What a session records is what upstream had.** In every run of starts of any sessions, which
may share caches, fail, die or be killed anywhere, while branches move upstream and caches are
removed, and in which no start fetches into a cache or clones into a directory on which a killed
start's command still runs: the commit that a session has recorded was the tip of the recorded
branch at the recorded URL when the start that wrote the record fetched it, and that start held
the lock of the cache from then on until it wrote. Whatever happens afterwards, the record and
its checkout stay, with the recorded commit as HEAD and the recorded URL as `origin`. -/
theorem recorded_tip {upstream : String → String → Option String} {caches : String → Option Cache}
    {checkouts : String → String → Option SourceStart.Checkout}
    {origin : String → String → Option String}
    {w w' : World} {es es' : List Event} {i : String} {src : SourceJson}
    (hok : Runs.Throughout World.step KeepsTip (World.fresh upstream caches checkouts origin)
      (es ++ es'))
    (hrun : Runs.run World.step (World.fresh upstream caches checkouts origin) es = some w)
    (hrun' : Runs.run World.step w es' = some w')
    (hsrc : (w.sessions i).sourceJson = some src) :
    Recorded (World.fresh upstream caches checkouts origin) es i src
      ∧ (w.sessions i).Stays (w'.sessions i) src ∧ (w'.sessions i).Holds src
      ∧ w'.origin i src.cacheId = some src.url := by
  obtain ⟨hbefore, hafter⟩ := Runs.throughout_append.mp hok
  have h := (keeps_session (i := i) inv_fresh rfl hbefore hrun).left
  obtain ⟨h', hkeeps⟩ := keeps_session (i := i) h hrun (hafter w hrun) hrun'
  have hstays := hkeeps.stays src hsrc
  exact ⟨(h.recorded i src hsrc).right, hstays, (h'.session i).holds src hstays.left,
    (h'.recorded i src hstays.left).left⟩

/-- Two forks. -/
def forkOf (owner : String) : Target :=
  ⟨"https://example.com/" ++ owner ++ "/repo.git", "main", "shared"⟩

/-- What a session does from its start to the second look, when nobody is in its way. -/
def begin (i owner : String) : List Event :=
  [Event.session i (.start 0 (Except.ok (forkOf owner))), Event.session i (.check 0),
    Event.acquire i 0, Event.session i (.recheck 0)]

/-- What it does when its cache is up to date. -/
def finish (i : String) : List Event :=
  [Event.session i (.prune 0), Event.clone i 0, Event.session i (.resolveHead 0),
    Event.session i (.write 0 "2026-06-07T12:00:00Z")]

/-- A start is killed while it fetches, and the next one while it clones; what they have left
goes on, and ends. -/
def twiceKilled (i owner : String) : List Event :=
  begin i owner ++ [Event.killFetch i 0, Event.stray "shared" none, Event.strayEnds "shared"]
    ++ begin i owner ++ [Event.ensureCache i 0 false, Event.session i (.prune 0),
      Event.session i (.kill 0), Event.orphan i "shared" (some ⟨none⟩) none,
      Event.orphanEnds i "shared"]

/-- What a session does from its start to the write. -/
def startOf (i owner : String) : List Event :=
  begin i owner ++ [Event.ensureCache i 0 false] ++ finish i

/-- The two forks are each on a commit of their own. -/
def forked : List Event :=
  [Event.push (forkOf "owner").url "main" (some SourceStart.oldSha),
    Event.push (forkOf "fork").url "main" (some SourceStart.newSha)]

/-- There is nothing on disk yet. -/
def nothing : World :=
  World.fresh (fun _ _ => none) (fun _ => none) (fun _ _ => none) fun _ _ => none

/-- Two sessions, one of each fork, share a cache, and two starts were killed before. -/
theorem recorded_tip_shared : ∃ w w' src,
    Runs.run World.step nothing (forked ++ twiceKilled "b" "fork" ++ startOf "b" "fork") = some w
    ∧ Runs.run World.step w (startOf "a" "owner") = some w'
    ∧ (w.sessions "b").sourceJson = some src ∧ src.sha = SourceStart.newSha
    ∧ Recorded nothing (forked ++ twiceKilled "b" "fork" ++ startOf "b" "fork") "b" src
    ∧ (w'.sessions "b").Holds src ∧ w'.origin "b" src.cacheId = some src.url := by
  have hcheck : Runs.check World.step (fun w E => decide (KeepsTip w E)) nothing
      (forked ++ twiceKilled "b" "fork" ++ startOf "b" "fork" ++ startOf "a" "owner") = true := by
    decide +kernel
  have hb : ((Runs.run World.step nothing
      (forked ++ twiceKilled "b" "fork" ++ startOf "b" "fork")).bind
        fun w => (w.sessions "b").sourceJson).map SourceJson.sha = some SourceStart.newSha := by
    decide +kernel
  have ha : (Runs.run World.step nothing
      (forked ++ twiceKilled "b" "fork" ++ startOf "b" "fork" ++ startOf "a" "owner")).isSome
      = true := by
    decide +kernel
  obtain ⟨w', hboth⟩ := Option.isSome_iff_exists.mp ha
  obtain ⟨w, hrun, hrun'⟩ := Runs.run_append.mp hboth
  rw [hrun] at hb
  obtain ⟨src, hsrc, hsha⟩ := Option.map_eq_some_iff.mp hb
  have hok : Runs.Throughout World.step KeepsTip nothing
      (forked ++ twiceKilled "b" "fork" ++ startOf "b" "fork" ++ startOf "a" "owner") :=
    Runs.throughout_of_check (fun _ _ => of_decide_eq_true) hcheck
  obtain ⟨hrecorded, -, hholds, horigin⟩ := recorded_tip hok hrun hrun' hsrc
  exact ⟨w, w', src, hrun, hrun', hsrc, hsha, hrecorded, hholds, horigin⟩

/-- A start of one fork is killed while it fetches, and its fetch goes on when a start of the other
fork has fetched. -/
def mixed : List Event :=
  forked ++ begin "a" "owner" ++ [Event.killFetch "a" 0] ++ begin "b" "fork"
    ++ [Event.ensureCache "b" 0 false,
      Event.stray "shared" (some (Cache.repo fun _ => some SourceStart.oldSha))] ++ finish "b"

/-- **A fetch that nobody waits for puts its own branch in.** The session of the other fork
records a commit that was never the tip of its branch. -/
theorem not_recorded_tip_stray :
    ¬ ∀ (upstream : String → String → Option String) (caches : String → Option Cache)
      (checkouts : String → String → Option SourceStart.Checkout)
      (origin : String → String → Option String) (w : World) (es : List Event) (i : String)
      (src : SourceJson),
      Runs.run World.step (World.fresh upstream caches checkouts origin) es = some w →
      (w.sessions i).sourceJson = some src →
      ∃ pre w₁, pre <+: es
        ∧ Runs.run World.step (World.fresh upstream caches checkouts origin) pre = some w₁
        ∧ w₁.upstream src.url src.branch = some src.sha := by
  intro h
  have hsource : ((Runs.run World.step nothing mixed).bind
      fun w => (w.sessions "b").sourceJson).map (fun src => (src.url, src.branch, src.sha))
      = some ((forkOf "fork").url, "main", SourceStart.oldSha) := by
    decide +kernel
  -- `fork` is on its own commit, or on none, all the time
  have hnever : ∀ pre ∈ mixed.inits, ((Runs.run World.step nothing pre).bind
      fun w => w.upstream (forkOf "fork").url "main") ≠ some SourceStart.oldSha := by
    decide +kernel
  obtain ⟨src, hbind, hsrc⟩ := Option.map_eq_some_iff.mp hsource
  obtain ⟨w, hrun, hjson⟩ := Option.bind_eq_some_iff.mp hbind
  obtain ⟨hurl, hrest⟩ := Prod.mk.inj hsrc
  obtain ⟨hbranch, hsha⟩ := Prod.mk.inj hrest
  obtain ⟨pre, w₁, hpre, hrun₁, htip⟩ := h _ _ _ _ w mixed "b" src hrun hjson
  refine hnever pre ((List.mem_inits _ _).mpr hpre) (Option.bind_eq_some_iff.mpr ⟨w₁, hrun₁, ?_⟩)
  rw [← hurl, ← hbranch, ← hsha]
  exact htip

end SourceCaches
