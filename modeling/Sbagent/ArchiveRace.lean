import Sbagent.ArchiveSync
import Sbagent.Parties

/-!
# Archiving from several clones

Several clones of the operator repository archive their sessions at the same
time, and push to one branch of one remote. Each appends a line at the end of
`sessions.jsonl`, so two clones that have each committed a line the other has
not are apart at the same place of the same file. A rebase of one onto the
other does not get by that: it stops with a conflict, with the marks of the
conflict in the file and the clone off its branch.

This is where every race ends that the push loop is there for. A push that is
rejected because another clone was faster is followed by such a rebase, and the
session whose archiving fails there can not be archived any more: its line is
in the file, between the marks, so that the next attempt takes it for archived.
An attempt that ends after its commit and before its line is on the remote has
the same end. Under the condition that neither happens (`KeepsClones`) every
attempt either leaves its line on the remote, or leaves a clone from which the
next attempt can (`Sound`).

What the ledger has on a clone are the lines of its branch and the lines that
are not committed. Git is taken to merge as it does by default: when one side
has all lines of the other it is taken, and when both have lines of their own
the rebase stops.
-/

namespace ArchiveRace

/-! ## Clones -/

/-- How far an attempt to archive a session has come. -/
inductive Phase where
  | idle
  /-- The session is not in the file, and the worktree is clean. The record is
  built and the branch of the session is archived. -/
  | building (id : String)
  /-- The remote's lines are in the file. -/
  | pulled (id : String)
  | appended (id : String)
  /-- The line is committed, and may be pushed that many times more after this
  one. -/
  | committed (id : String) (retries : ℕ)
  /-- A push was rejected. -/
  | rejected (id : String) (retries : ℕ)
  deriving DecidableEq

/-- The session that is being archived. -/
def Phase.session : Phase → Option String
  | idle => none
  | building id => some id
  | pulled id => some id
  | appended id => some id
  | committed id _ => some id
  | rejected id _ => some id

/-- A push that is not tried again when it fails. -/
def Phase.isLastPush : Phase → Bool
  | committed _ 0 => true
  | _ => false

/-- A clone, as far as its ledger goes. -/
structure LocalClone where
  /-- The lines of the branch. -/
  head : List LedgerLine
  /-- The lines that were not committed. -/
  uncommitted : List LedgerLine
  /-- A rebase onto these lines has stopped with a conflict, and has left the
  clone off its branch. -/
  rebasing : Option (List LedgerLine)
  phase : Phase
  deriving DecidableEq

/-- The lines that two ledgers begin with. -/
def commonLines : List LedgerLine → List LedgerLine → List LedgerLine
  | l :: ls, l' :: ls' => if l = l' then l :: commonLines ls ls' else []
  | _, _ => []

/-- What a rebase that has stopped leaves in the file: the lines of the remote
and the first of the clone's own, with the marks of a conflict. -/
def conflicted (own remote : List LedgerLine) : List LedgerLine :=
  let shared := (commonLines own remote).length
  own.take shared ++ [LedgerLine.malformed "<<<<<<< HEAD"] ++ remote.drop shared
    ++ [LedgerLine.malformed "======="] ++ (own.drop shared).take 1
    ++ [LedgerLine.malformed ">>>>>>>"]

/-- A line that no schema version reads, and that is not blank. -/
def isMalformed : LedgerLine → Bool
  | LedgerLine.blank => false
  | LedgerLine.malformed _ => true
  | LedgerLine.record _ => false

/-- What the attempts of all clones share: the remote, and whether one of them
has just returned, with what. -/
structure Shared (κ : Type) where
  remote : List LedgerLine
  /-- The clone, the session, and whether it was a success. -/
  returned : Option (κ × String × Bool)
  deriving DecidableEq

/-- What an attempt does next. -/
inductive Action where
  /-- An attempt begins, with the check of the file, the branch and the
  worktree. -/
  | start (id : String)
  /-- An attempt fails at one of these checks. -/
  | startFails (id : String)
  /-- The attempt fails. -/
  | fail
  /-- The remote is fetched, and the clone's own commits are rebased onto it. -/
  | pull
  | append (r : SessionRecord)
  /-- The line is written to the file only in part. -/
  | tear (text : String)
  | commit
  /-- A push succeeds. -/
  | push
  /-- A push fails, although it may have been done on the remote. -/
  | pushFails (landed : Bool)
  deriving DecidableEq

namespace LocalClone

/-- The contents of the file. -/
def file (c : LocalClone) : List LedgerLine :=
  match c.rebasing with
  | none => c.head ++ c.uncommitted
  | some remote => conflicted c.head remote

/-- The attempt goes on. -/
def enter (c : LocalClone) (phase : Phase) : LocalClone := { c with phase := phase }

/-- Whether a push of the clone's branch is accepted: the remote has no line
that the branch has not. -/
def CanPush (c : LocalClone) (remote : List LedgerLine) : Prop := remote <+: c.head

instance (c : LocalClone) (remote : List LedgerLine) : Decidable (c.CanPush remote) :=
  inferInstanceAs (Decidable (remote <+: c.head))

end LocalClone

variable {κ : Type}

/-- An attempt returns. -/
def Shared.returning (remote : List LedgerLine) (k : κ) (id : String) (ok : Bool) :
    Shared κ :=
  ⟨remote, some (k, id, ok)⟩

/-- Nothing returns. -/
def Shared.quiet (remote : List LedgerLine) : Shared κ := ⟨remote, none⟩

/-- The beginning of an attempt. It is over at once when the file has the
session, and that is looked at first; then when the clone is not on its branch,
or has lines that are not committed. -/
def begin (k : κ) (remote : List LedgerLine) (c : LocalClone) (id : String) :
    Shared κ × LocalClone :=
  if ledgerContainsId c.file id then (Shared.returning remote k id true, c)
  else if c.rebasing.isSome then (Shared.returning remote k id false, c)
  else if c.uncommitted ≠ [] then (Shared.returning remote k id false, c)
  else (Shared.quiet remote, c.enter (Phase.building id))

/-- Fetch the remote, and rebase the clone's own commits onto it. -/
def pullRebase (k : κ) (remote : List LedgerLine) (c : LocalClone) (id : String)
    (next : Phase) : Shared κ × LocalClone :=
  if remote <+: c.head then (Shared.quiet remote, c.enter next)
  else if c.head <+: remote then
    (Shared.quiet remote, { c.enter next with head := remote })
  else
    (Shared.returning remote k id false,
      { c.enter Phase.idle with rebasing := some remote })

/-- A push has failed: it is tried again after a rebase, as often as there are
retries left. -/
def retry (k : κ) (remote : List LedgerLine) (c : LocalClone) (id : String) :
    ℕ → Shared κ × LocalClone
  | 0 => (Shared.returning remote k id false, c.enter Phase.idle)
  | retries + 1 => (Shared.quiet remote, c.enter (Phase.rejected id retries))

/-- What a clone does, with the remote and by itself. -/
def act (k : κ) (sh : Shared κ) (c : LocalClone) :
    Action → Option (Shared κ × LocalClone)
  | Action.start id =>
    if c.phase = Phase.idle then some (begin k sh.remote c id) else none
  | Action.startFails id =>
    if c.phase = Phase.idle then some (Shared.returning sh.remote k id false, c) else none
  | Action.fail =>
    c.phase.session.map fun id =>
      (Shared.returning sh.remote k id false, c.enter Phase.idle)
  | Action.pull =>
    match c.phase with
    | Phase.building id => some (pullRebase k sh.remote c id (Phase.pulled id))
    | Phase.rejected id retries =>
      some (pullRebase k sh.remote c id (Phase.committed id retries))
    | _ => none
  | Action.append r =>
    if c.phase = Phase.pulled r.id then
      some (Shared.quiet sh.remote,
        { c.enter (Phase.appended r.id) with
          uncommitted := c.uncommitted ++ [LedgerLine.record r] })
    else none
  | Action.tear text =>
    match c.phase with
    | Phase.pulled id =>
      some (Shared.returning sh.remote k id false,
        { c.enter Phase.idle with
          uncommitted := c.uncommitted ++ [LedgerLine.malformed text] })
    | _ => none
  | Action.commit =>
    match c.phase with
    | Phase.appended id =>
      some (Shared.quiet sh.remote,
        { c.enter (Phase.committed id maxRetries) with
          head := c.head ++ c.uncommitted, uncommitted := [] })
    | _ => none
  | Action.push =>
    match c.phase with
    | Phase.committed id _ =>
      if c.CanPush sh.remote then
        some (Shared.returning c.head k id true, c.enter Phase.idle)
      else none
    | _ => none
  | Action.pushFails landed =>
    match c.phase with
    | Phase.committed id retries =>
      if landed then
        if c.CanPush sh.remote then some (retry k c.head c id retries) else none
      else some (retry k sh.remote c id retries)
    | _ => none

/-! ## What is asked of an attempt -/

section Claim

variable [DecidableEq κ]

/-- Clones of one operator repository, and its remote. -/
abbrev World (κ : Type) : Type := Parties κ (Shared κ) LocalClone

/-- What the clone does next, in an attempt that is under way. -/
def Action.goesOn : Action → Bool
  | start _ => false
  | startFails _ => false
  | _ => true

/-- An attempt of the clone to archive the session can succeed from here, and
leave the session on the remote. -/
def CanArchive (s : World κ) (k : κ) (id : String) : Prop :=
  ∃ as s', (∀ a ∈ as, a.goesOn = true)
    ∧ Runs.run (Parties.step act) s ((Action.start id :: as).map fun a => (k, a)) = some s'
    ∧ s'.shared.returned = some (k, id, true)
    ∧ ledgerContainsId s'.shared.remote id = true

/-- A clone that can be used: it is on its branch, with no rebase under way; the
worktree is clean; the ledger can be read; and the session can be archived from
it. -/
structure Usable (s : World κ) (k : κ) (id : String) : Prop where
  onBranch : (s.own k).rebasing = none
  clean : (s.own k).uncommitted = []
  parses : ∀ l ∈ (s.own k).file, isMalformed l = false
  canArchive : CanArchive s k id

/-- An attempt that has just returned has left the session on the remote, or a
clone that can be used. -/
def Sound (s : World κ) : Prop :=
  ∀ k id ok, s.shared.returned = some (k, id, ok) →
    if ok then ledgerContainsId s.shared.remote id = true else Usable s k id

/-- Clones that nothing was done in since they last were the same as the
remote, whose ledger can be read. -/
structure Fresh (s : World κ) : Prop where
  behind : ∀ k, (s.own k).head <+: s.shared.remote
  untouched : ∀ k, (s.own k).uncommitted = [] ∧ (s.own k).rebasing = none
    ∧ (s.own k).phase = Phase.idle
  parses : ∀ l ∈ s.shared.remote, isMalformed l = false
  quiet : s.shared.returned = none

/-- The condition on what a clone does. A line is written whole. The remote is
only pulled when one of the two has all lines of the other. And an attempt that
fails has nothing that is not committed, and no line that is not on the
remote: after its last push, in particular. -/
def KeepsClone (_ : κ) (sh : Shared κ) (c : LocalClone) : Action → Prop
  | Action.tear _ => False
  | Action.pull => sh.remote <+: c.head ∨ c.head <+: sh.remote
  | Action.fail => c.uncommitted = [] ∧ c.head <+: sh.remote
  | Action.pushFails landed =>
    c.phase.isLastPush = true → landed = true ∨ c.head <+: sh.remote
  | _ => True

instance (k : κ) (sh : Shared κ) (c : LocalClone) (a : Action) :
    Decidable (KeepsClone k sh c a) :=
  match a with
  | Action.start _ => isTrue trivial
  | Action.startFails _ => isTrue trivial
  | Action.fail => inferInstanceAs (Decidable (_ ∧ _))
  | Action.pull => inferInstanceAs (Decidable (_ ∨ _))
  | Action.append _ => isTrue trivial
  | Action.tear _ => isFalse id
  | Action.commit => isTrue trivial
  | Action.push => isTrue trivial
  | Action.pushFails _ => inferInstanceAs (Decidable (_ → _))

/-- The condition on an event. -/
def KeepsClones (s : World κ) (e : κ × Action) : Prop :=
  KeepsClone e.fst s.shared (s.own e.fst) e.snd

instance (s : World κ) (e : κ × Action) : Decidable (KeepsClones s e) :=
  inferInstanceAs (Decidable (KeepsClone _ _ _ _))

end Claim

/-! ## What is kept -/

/-- The ledger can be read. -/
def Parses (lines : List LedgerLine) : Prop := ∀ l ∈ lines, isMalformed l = false

/-- What is true of a clone when every event so far has met the condition. Only
between its commit and its push has it a line that is not on the remote. -/
def Kept (remote : List LedgerLine) (c : LocalClone) : Prop :=
  c.rebasing = none ∧
    match c.phase with
    | Phase.appended id =>
      c.head <+: remote ∧ ∃ r : SessionRecord, r.id = id
        ∧ c.uncommitted = [LedgerLine.record r]
    | Phase.committed id _ =>
      c.uncommitted = [] ∧ ledgerContainsId c.head id = true ∧ Parses c.head
    | Phase.rejected id _ =>
      c.uncommitted = [] ∧ ledgerContainsId c.head id = true ∧ Parses c.head
    | _ => c.head <+: remote ∧ c.uncommitted = []

/-- The remote has lost no line. -/
def Grows (sh sh' : Shared κ) : Prop := sh.remote <+: sh'.remote

/-- What an action leads to: the remote has only grown and can be read, the
clone is as it should be, and a success has the session on the remote. -/
structure Outcome (k : κ) (remote : List LedgerLine) (p : Shared κ × LocalClone) :
    Prop where
  grows : remote <+: p.fst.remote
  parses : Parses p.fst.remote
  kept : Kept p.fst.remote p.snd
  returned : ∀ j id ok, p.fst.returned = some (j, id, ok) →
    j = k ∧ p.snd.phase = Phase.idle
      ∧ (ok = true → ledgerContainsId p.fst.remote id = true)

section Steps

variable {remote remote' : List LedgerLine} {c : LocalClone} {k : κ} {id : String}
  {sh : Shared κ} {p : Shared κ × LocalClone}

theorem contains_of_prefix {l l' : List LedgerLine} (hpre : l <+: l')
    (h : ledgerContainsId l id = true) : ledgerContainsId l' id = true := by
  obtain ⟨line, hmem, hline⟩ := List.any_eq_true.mp h
  exact List.any_eq_true.mpr ⟨line, hpre.subset hmem, hline⟩

theorem contains_record (l : List LedgerLine) (r : SessionRecord) :
    ledgerContainsId (l ++ [LedgerLine.record r]) r.id = true := by
  rw [ledgerContainsId, List.any_append, List.any_cons, LedgerLine.names, beq_self_eq_true,
    Bool.true_or, Bool.or_true]

theorem Parses.of_prefix {l l' : List LedgerLine} (h : Parses l') (hpre : l <+: l') :
    Parses l :=
  fun line hline => h line (hpre.subset hline)

theorem Parses.append_record {l : List LedgerLine} (h : Parses l) (r : SessionRecord) :
    Parses (l ++ [LedgerLine.record r]) := by
  intro line hline
  obtain hline | hline := List.mem_append.mp hline
  · exact h line hline
  · rw [List.mem_singleton.mp hline]
    rfl

/-- **What is known of a clone survives what the others push.** -/
theorem Kept.grow (h : Kept remote c) (hgrow : remote <+: remote') : Kept remote' c := by
  refine ⟨h.left, ?_⟩
  have hphase := h.right
  revert hphase
  cases c.phase with
  | idle => exact fun h => ⟨h.left.trans hgrow, h.right⟩
  | building id => exact fun h => ⟨h.left.trans hgrow, h.right⟩
  | pulled id => exact fun h => ⟨h.left.trans hgrow, h.right⟩
  | appended id => exact fun h => ⟨h.left.trans hgrow, h.right⟩
  | committed id retries => exact fun h => h
  | rejected id retries => exact fun h => h

/-- Between attempts a clone has nothing that the remote has not. -/
theorem Kept.settled (h : Kept remote c) (hidle : c.phase = Phase.idle) :
    c.head <+: remote ∧ c.uncommitted = [] := by
  have hphase := h.right
  rw [hidle] at hphase
  exact hphase

theorem Kept.file_eq (h : Kept remote c) (hclean : c.uncommitted = []) :
    c.file = c.head := by
  unfold LocalClone.file
  rw [h.left, hclean]
  exact List.append_nil c.head

theorem outcome_quiet (hparses : Parses remote) (hkept : Kept remote c) :
    Outcome k remote (Shared.quiet remote, c) where
  grows := List.prefix_rfl
  parses := hparses
  kept := hkept
  returned := nofun

theorem outcome_returning {ok : Bool} (hgrows : remote <+: remote')
    (hparses : Parses remote') (hkept : Kept remote' c) (hidle : c.phase = Phase.idle)
    (hok : ok = true → ledgerContainsId remote' id = true) :
    Outcome k remote (Shared.returning remote' k id ok, c) where
  grows := hgrows
  parses := hparses
  kept := hkept
  returned := by
    intro j id' ok' hret
    obtain ⟨rfl, hpair⟩ := Prod.mk.inj (Option.some.inj hret)
    obtain ⟨rfl, rfl⟩ := Prod.mk.inj hpair
    exact ⟨rfl, hidle, hok⟩

/-- An attempt begins. -/
theorem outcome_begin (hparses : Parses remote) (hkept : Kept remote c)
    (hidle : c.phase = Phase.idle) : Outcome k remote (begin k remote c id) := by
  obtain ⟨hhead, hclean⟩ := hkept.settled hidle
  unfold begin
  split_ifs with hknown hrebasing hdirty
  · rw [hkept.file_eq hclean] at hknown
    exact outcome_returning List.prefix_rfl hparses hkept hidle
      fun _ => contains_of_prefix hhead hknown
  · rw [hkept.left] at hrebasing
    cases hrebasing
  · exact absurd hclean hdirty
  · exact outcome_quiet hparses ⟨hkept.left, hhead, hclean⟩

/-- The remote is pulled, when one of the two has all lines of the other. -/
theorem outcome_pullRebase {next : Phase} (hparses : Parses remote)
    (hok : remote <+: c.head ∨ c.head <+: remote) (hkept : Kept remote (c.enter next))
    (hmoved : c.head <+: remote → Kept remote { c.enter next with head := remote }) :
    Outcome k remote (pullRebase k remote c id next) := by
  unfold pullRebase
  split_ifs with hahead hbehind
  · exact outcome_quiet hparses hkept
  · exact outcome_quiet hparses (hmoved hbehind)
  · exact absurd hok (not_or_intro hahead hbehind)

/-- A push has failed. -/
theorem outcome_retry {retries : ℕ} (hgrows : remote <+: remote') (hparses : Parses remote')
    (hkept : Kept remote' c) (hphase : c.phase = Phase.committed id retries)
    (hlast : retries = 0 → c.head <+: remote') :
    Outcome k remote (retry k remote' c id retries) := by
  have hown := hkept.right
  rw [hphase] at hown
  cases retries with
  | zero =>
    exact outcome_returning hgrows hparses ⟨hkept.left, hlast rfl, hown.left⟩ rfl nofun
  | succ retries => exact ⟨hgrows, hparses, ⟨hkept.left, hown⟩, nofun⟩

/-- **Every action that meets the condition keeps what is known of its clone,
and returns what it should.** -/
theorem act_outcome {a : Action} (hparses : Parses sh.remote) (hkept : Kept sh.remote c)
    (hok : KeepsClone k sh c a) (hact : act k sh c a = some p) :
    Outcome k sh.remote p := by
  have hown := hkept.right
  cases a with
  | start id =>
    simp only [act] at hact
    split_ifs at hact with hidle
    obtain rfl := Option.some.inj hact
    exact outcome_begin hparses hkept hidle
  | startFails id =>
    simp only [act] at hact
    split_ifs at hact with hidle
    obtain rfl := Option.some.inj hact
    exact outcome_returning List.prefix_rfl hparses hkept hidle nofun
  | fail =>
    obtain ⟨id, -, rfl⟩ := Option.map_eq_some_iff.mp hact
    -- where an attempt may fail at all, the condition says what it leaves behind
    exact outcome_returning List.prefix_rfl hparses ⟨hkept.left, hok.right, hok.left⟩ rfl
      nofun
  | pull =>
    simp only [act] at hact
    split at hact
    case h_1 id hphase =>
      rw [hphase] at hown
      obtain rfl := Option.some.inj hact
      exact outcome_pullRebase hparses hok ⟨hkept.left, hown⟩
        fun _ => ⟨hkept.left, List.prefix_rfl, hown.right⟩
    case h_2 id retries hphase =>
      rw [hphase] at hown
      obtain rfl := Option.some.inj hact
      exact outcome_pullRebase hparses hok ⟨hkept.left, hown⟩ fun hpre =>
        ⟨hkept.left, hown.left, contains_of_prefix hpre hown.right.left, hparses⟩
    case h_3 => cases hact
  | append r =>
    simp only [act] at hact
    split_ifs at hact with hphase
    rw [hphase] at hown
    obtain rfl := Option.some.inj hact
    -- nothing was uncommitted before, so the record is all there is
    refine outcome_quiet hparses ⟨hkept.left, hown.left, r, rfl, ?_⟩
    show c.uncommitted ++ [LedgerLine.record r] = [LedgerLine.record r]
    rw [hown.right, List.nil_append]
  | tear text => exact hok.elim
  | commit =>
    simp only [act] at hact
    split at hact
    case h_1 id hphase =>
      rw [hphase] at hown
      obtain ⟨hhead, r, rfl, hline⟩ := hown
      obtain rfl := Option.some.inj hact
      rw [hline]
      exact outcome_quiet hparses ⟨hkept.left, rfl, contains_record c.head r,
        (hparses.of_prefix hhead).append_record r⟩
    case h_2 => cases hact
  | push =>
    simp only [act] at hact
    split at hact
    case h_1 id retries hphase =>
      rw [hphase] at hown
      split_ifs at hact with hpush
      obtain rfl := Option.some.inj hact
      exact outcome_returning hpush hown.right.right ⟨hkept.left, List.prefix_rfl, hown.left⟩
        rfl fun _ => hown.right.left
    case h_2 => cases hact
  | pushFails landed =>
    simp only [act] at hact
    split at hact
    case h_1 id retries hphase =>
      rw [hphase] at hown
      -- a push may land without the clone being told so
      split_ifs at hact with hlanded hpush
      · obtain rfl := Option.some.inj hact
        exact outcome_retry hpush hown.right.right (hkept.grow hpush) hphase
          fun _ => List.prefix_rfl
      · obtain rfl := Option.some.inj hact
        refine outcome_retry List.prefix_rfl hparses hkept hphase ?_
        rintro rfl
        have hlast : c.phase.isLastPush = true := by rw [hphase]; rfl
        exact (hok hlast).resolve_left hlanded
    case h_2 => cases hact

/-- No push takes a line from the remote. -/
theorem remote_prefix_act {sh' : Shared κ} {c' : LocalClone} {a : Action}
    (hact : act k sh c a = some (sh', c')) : sh.remote <+: sh'.remote := by
  cases a with
  | start id =>
    simp only [act, begin] at hact
    split_ifs at hact
    all_goals
      obtain ⟨rfl, -⟩ := Prod.mk.inj (Option.some.inj hact)
      exact List.prefix_rfl
  | startFails id =>
    simp only [act] at hact
    split_ifs at hact
    obtain ⟨rfl, -⟩ := Prod.mk.inj (Option.some.inj hact)
    exact List.prefix_rfl
  | fail =>
    obtain ⟨id, -, hret⟩ := Option.map_eq_some_iff.mp hact
    obtain ⟨rfl, -⟩ := Prod.mk.inj hret
    exact List.prefix_rfl
  | pull =>
    -- a pull changes the clone, whichever way it ends
    have hremote : ∀ id next, (pullRebase k sh.remote c id next).fst.remote = sh.remote := by
      intro id next
      unfold pullRebase
      split_ifs
      · rfl
      · rfl
      · rfl
    simp only [act] at hact
    split at hact
    case h_1 id hphase =>
      rw [← hremote id (Phase.pulled id), Option.some.inj hact]
    case h_2 id retries hphase =>
      rw [← hremote id (Phase.committed id retries), Option.some.inj hact]
    case h_3 => cases hact
  | append r =>
    simp only [act] at hact
    split_ifs at hact
    obtain ⟨rfl, -⟩ := Prod.mk.inj (Option.some.inj hact)
    exact List.prefix_rfl
  | tear text =>
    simp only [act] at hact
    split at hact
    · obtain ⟨rfl, -⟩ := Prod.mk.inj (Option.some.inj hact)
      exact List.prefix_rfl
    · cases hact
  | commit =>
    simp only [act] at hact
    split at hact
    · obtain ⟨rfl, -⟩ := Prod.mk.inj (Option.some.inj hact)
      exact List.prefix_rfl
    · cases hact
  | push =>
    simp only [act] at hact
    split at hact
    · split_ifs at hact with hpush
      obtain ⟨rfl, -⟩ := Prod.mk.inj (Option.some.inj hact)
      exact hpush
    · cases hact
  | pushFails landed =>
    have hremote : ∀ remote id retries, (retry k remote c id retries).fst.remote = remote := by
      intro remote id retries
      cases retries with
      | zero => rfl
      | succ retries => rfl
    simp only [act] at hact
    split at hact
    case h_1 id retries hphase =>
      split_ifs at hact with hlanded hpush
      · have hhead := hremote c.head id retries
        rw [Option.some.inj hact] at hhead
        rw [hhead]
        exact hpush
      · rw [← hremote sh.remote id retries, Option.some.inj hact]
    case h_2 => cases hact

/-- A clone that has nothing of its own takes the remote as it is. -/
theorem pullRebase_of_behind {next : Phase} (h : c.head <+: remote) :
    pullRebase k remote c id next
      = (Shared.quiet remote, { c.enter next with head := remote }) := by
  unfold pullRebase
  split_ifs with hahead
  · rw [← h.eq_of_length_le hahead.length_le]
    rfl
  · rfl

/-- **From a clone that is as it should be, an attempt that nothing disturbs
leaves its session on the remote.** -/
theorem run_alone_archives (hkept : Kept sh.remote c) (hidle : c.phase = Phase.idle)
    (id : String) :
    ∃ as sh' c', (∀ a ∈ as, a.goesOn = true)
      ∧ Runs.run (Parties.alone act k) (sh, c) (Action.start id :: as) = some (sh', c')
      ∧ sh'.returned = some (k, id, true) ∧ ledgerContainsId sh'.remote id = true := by
  obtain ⟨hhead, hclean⟩ := hkept.settled hidle
  have hstart : act k sh c (Action.start id) = some (begin k sh.remote c id) := if_pos hidle
  -- a session that is in the ledger already is not archived again
  by_cases hknown : ledgerContainsId c.file id = true
  · have hbegin : begin k sh.remote c id = (Shared.returning sh.remote k id true, c) :=
      if_pos hknown
    rw [hbegin] at hstart
    rw [hkept.file_eq hclean] at hknown
    exact ⟨[], Shared.returning sh.remote k id true, c, List.forall_mem_nil _,
      Runs.run_cons_eq_some_iff.mpr ⟨_, hstart, rfl⟩, rfl, contains_of_prefix hhead hknown⟩
  · obtain ⟨r, rfl⟩ : ∃ r : SessionRecord, r.id = id := ⟨abortedSession id "" "", rfl⟩
    have hbegin : begin k sh.remote c r.id
        = (Shared.quiet sh.remote, c.enter (Phase.building r.id)) := by
      have hrebasing : ¬ c.rebasing.isSome = true := by
        rw [hkept.left]
        exact Bool.false_ne_true
      unfold begin
      rw [if_neg hknown, if_neg hrebasing, if_neg (not_not.mpr hclean)]
    rw [hbegin] at hstart
    have hpull : act k (Shared.quiet sh.remote) (c.enter (Phase.building r.id)) Action.pull
        = some (Shared.quiet sh.remote, ⟨sh.remote, [], none, Phase.pulled r.id⟩) := by
      have hbehind : (c.enter (Phase.building r.id)).head <+: sh.remote := hhead
      show some (pullRebase k sh.remote (c.enter (Phase.building r.id)) r.id
        (Phase.pulled r.id)) = _
      rw [pullRebase_of_behind hbehind, LocalClone.enter, LocalClone.enter, hclean,
        hkept.left]
    have happend : act k (Shared.quiet sh.remote)
          ⟨sh.remote, [], none, Phase.pulled r.id⟩ (Action.append r)
        = some (Shared.quiet sh.remote,
          ⟨sh.remote, [LedgerLine.record r], none, Phase.appended r.id⟩) := if_pos rfl
    have hcommit : act k (Shared.quiet sh.remote)
          ⟨sh.remote, [LedgerLine.record r], none, Phase.appended r.id⟩ Action.commit
        = some (Shared.quiet sh.remote,
          ⟨sh.remote ++ [LedgerLine.record r], [], none,
            Phase.committed r.id maxRetries⟩) := rfl
    have hpush : act k (Shared.quiet sh.remote)
          ⟨sh.remote ++ [LedgerLine.record r], [], none, Phase.committed r.id maxRetries⟩
          Action.push
        = some (Shared.returning (sh.remote ++ [LedgerLine.record r]) k r.id true,
          ⟨sh.remote ++ [LedgerLine.record r], [], none, Phase.idle⟩) :=
      if_pos (List.prefix_append sh.remote [LedgerLine.record r])
    -- no action of this run is one that fails
    have hgoes : ∀ a ∈ [Action.pull, Action.append r, Action.commit, Action.push],
        a.goesOn = true := by
      simp [Action.goesOn]
    have hrun : Runs.run (Parties.alone act k) (sh, c)
          [Action.start r.id, Action.pull, Action.append r, Action.commit, Action.push]
        = some (Shared.returning (sh.remote ++ [LedgerLine.record r]) k r.id true,
          ⟨sh.remote ++ [LedgerLine.record r], [], none, Phase.idle⟩) :=
      Runs.run_cons_eq_some_iff.mpr ⟨_, hstart,
        Runs.run_cons_eq_some_iff.mpr ⟨_, hpull,
          Runs.run_cons_eq_some_iff.mpr ⟨_, happend,
            Runs.run_cons_eq_some_iff.mpr ⟨_, hcommit,
              Runs.run_cons_eq_some_iff.mpr ⟨_, hpush, rfl⟩⟩⟩⟩⟩
    exact ⟨_, _, _, hgoes, hrun, rfl, contains_record sh.remote r⟩

end Steps

section Runs

variable [DecidableEq κ] {s s' : World κ}

/-- What is kept by every event that meets the condition. -/
abbrev Inv (s : World κ) : Prop :=
  Parties.Inv (fun sh : Shared κ => Parses sh.remote) (fun sh c => Kept sh.remote c) s

/-- A clone between two attempts can be used, for any session. -/
theorem usable_of_inv (h : Inv s) {k : κ} (hidle : (s.own k).phase = Phase.idle)
    (id : String) : Usable s k id := by
  have hkept := h.own k
  obtain ⟨hhead, hclean⟩ := hkept.settled hidle
  refine ⟨hkept.left, hclean, ?_, ?_⟩
  · rw [hkept.file_eq hclean]
    exact h.common.of_prefix hhead
  · obtain ⟨as, sh, c, hgoes, hrun, hret, hline⟩ := run_alone_archives (k := k) hkept hidle id
    exact ⟨as, _, hgoes, Parties.run_alone_iff.mpr ⟨sh, c, hrun, rfl⟩, hret, hline⟩

/-- **One event keeps the invariant, when it meets the condition, and an attempt
that returns with it has left what it should.** -/
theorem inv_step {e : κ × Action} (h : Inv s) (hok : KeepsClones s e)
    (hstep : Parties.step act s e = some s') : Inv s' ∧ Sound s' := by
  have hstable : ∀ (sh sh' : Shared κ) c, Grows sh sh' → Kept sh.remote c →
      Kept sh'.remote c := fun _ _ _ hgrow hkept => hkept.grow hgrow
  have hact : ∀ (k : κ) (sh : Shared κ) c a sh' c', Parses sh.remote →
      Kept sh.remote c → KeepsClone k sh c a → act k sh c a = some (sh', c') →
      Grows sh sh' ∧ Parses sh'.remote ∧ Kept sh'.remote c' := by
    intro k sh c a sh' c' hparses hkept hok hact
    have hout := act_outcome hparses hkept hok hact
    exact ⟨hout.grows, hout.parses, hout.kept⟩
  have hinv : Inv s' := Parties.step_inv hstable hact e h hok hstep
  refine ⟨hinv, ?_⟩
  obtain ⟨sh, c, hact, rfl⟩ := Parties.step_eq_some_iff.mp hstep
  have hout := act_outcome h.common (h.own e.fst) hok hact
  intro k id ok hret
  obtain ⟨rfl, hidle, hline⟩ := hout.returned k id ok hret
  cases ok with
  | true => exact hline rfl
  | false =>
    refine usable_of_inv hinv ?_ id
    show (Function.update s.own e.fst c e.fst).phase = Phase.idle
    rw [Function.update_self]
    exact hidle

theorem inv_of_fresh (h : Fresh s) : Inv s ∧ Sound s := by
  refine ⟨⟨h.parses, fun k => ?_⟩, fun k id ok hret => ?_⟩
  · obtain ⟨hclean, hrebasing, hidle⟩ := h.untouched k
    refine ⟨hrebasing, ?_⟩
    rw [hidle]
    exact ⟨h.behind k, hclean⟩
  · rw [h.quiet] at hret
    cases hret

/-- What a run has found on the remote stays there. -/
theorem remote_prefix_of_run {es : List (κ × Action)}
    (hrun : Runs.run (Parties.step act) s es = some s') :
    s.shared.remote <+: s'.shared.remote := by
  have hrefl : ∀ sh : Shared κ, Grows sh sh := fun _ => List.prefix_rfl
  have htrans : ∀ sh sh' sh'' : Shared κ, Grows sh sh' → Grows sh' sh'' → Grows sh sh'' :=
    fun _ _ _ h h' => List.IsPrefix.trans h h'
  exact Parties.run_le hrefl htrans (fun _ _ _ _ _ _ hact => remote_prefix_act hact) hrun

end Runs

/-- Two clones of a repository whose ledger is empty. -/
def twoClones : World Bool :=
  ⟨Shared.quiet [], fun _ => ⟨[], [], none, Phase.idle⟩⟩

theorem fresh_twoClones : Fresh twoClones where
  behind := fun _ => List.prefix_rfl
  untouched := fun _ => ⟨rfl, rfl, rfl⟩
  parses := List.forall_mem_nil _
  quiet := rfl

/-- What a clone does up to its push. -/
def upToPush (k : Bool) (id : String) : List (Bool × Action) :=
  [(k, Action.pull), (k, Action.append (abortedSession id "fam" "fix")),
    (k, Action.commit)]

/-- Two attempts that begin together, and of which one pulls when the other has
pushed. -/
def inTurn : List (Bool × Action) :=
  [(true, Action.start "s1"), (false, Action.start "s2")] ++ upToPush true "s1"
    ++ [(true, Action.push)] ++ upToPush false "s2"

/-- Two attempts that both pull before the other has pushed. -/
def atOnce : List (Bool × Action) :=
  [(true, Action.start "s1"), (false, Action.start "s2")] ++ upToPush true "s1"
    ++ upToPush false "s2" ++ [(true, Action.push)]

end ArchiveRace
