import Sbagent.Dedup
import Sbagent.Runs

/-!
# Archiving a session over and over

Archiving appends one line to `sessions.jsonl`, commits it, and pushes the
commit to the remote that all clones of the operator repository share. Any of
its steps can fail, or the process can die between two of them, and then it is
run again; and between two steps another clone may push.

Whether a session is archived already is decided by the file in the clone,
before the remote is asked. So a line that was appended and never pushed – the
push failed, or the run was a dry one – passes for an archived session, and a
line that another clone pushed meanwhile is not seen. What an attempt that
succeeds leaves on the remote is therefore right only under a condition
(`KeepsArchive`), and that is what a run of attempts needs.

A clone is what matters of it to the ledger: the lines of the last commit it
shares with the remote, the lines it has committed since, and the lines it has
not committed. Git is taken to do what its success says: rebasing puts the
clone's own lines after those of the remote, and a push succeeds only on top
of what the remote holds.
-/

/-! ## Clones -/

/-- A line of `sessions.jsonl`. -/
inductive LedgerLine where
  | blank
  /-- No schema version reads it. -/
  | malformed (text : String)
  | record (r : SessionRecord)
  deriving DecidableEq

/-- A line is a record of a session. -/
def LedgerLine.names (id : String) : LedgerLine → Bool
  | blank => false
  | malformed _ => false
  | record r => r.id == id

/-- Whether the ledger has a record of a session. -/
def ledgerContainsId (ledger : List LedgerLine) (id : String) : Bool :=
  ledger.any fun l => l.names id

/-- A clone of the operator repository, as far as its ledger goes. -/
structure Clone where
  /-- The lines of the last commit that is also the remote's. -/
  base : List LedgerLine
  /-- The lines that were committed since. -/
  ahead : List LedgerLine
  /-- The lines that were not committed. -/
  uncommitted : List LedgerLine
  deriving DecidableEq

namespace Clone

/-- The contents of the file. -/
def ledger (c : Clone) : List LedgerLine := c.base ++ c.ahead ++ c.uncommitted

/-- Append a record. -/
def appendLedger (c : Clone) (r : SessionRecord) : Clone :=
  { c with uncommitted := c.uncommitted ++ [LedgerLine.record r] }

/-- Append what is no record yet, because the write ended too early. -/
def tear (c : Clone) (text : String) : Clone :=
  { c with uncommitted := c.uncommitted ++ [LedgerLine.malformed text] }

/-- Commit the file. -/
def stageAndCommit (c : Clone) : Clone :=
  { c with ahead := c.ahead ++ c.uncommitted, uncommitted := [] }

/-- Fetch the remote, and put the clone's own commits on top of it. -/
def pullRebase (c : Clone) (remote : List LedgerLine) : Clone :=
  { c with base := remote }

/-- The clone once its commits are the remote's. -/
def pushed (c : Clone) : Clone :=
  { c with base := c.base ++ c.ahead, ahead := [] }

end Clone

/-! ## Attempts -/

/-- How far an attempt has come. -/
inductive ArchivePhase where
  | idle
  /-- The session is not in the file, and the worktree is clean. The record is
  built and the branch of the session is archived. -/
  | building (dryRun : Bool)
  /-- The remote's lines are in the file. -/
  | pulled
  | appended (dryRun : Bool)
  /-- The line is committed, and may be pushed that many times more after this
  one. -/
  | committed (dryRun : Bool) (retries : ℕ)
  /-- A push was rejected. -/
  | rejected (retries : ℕ)
  deriving DecidableEq

/-- The state of the clone and of the remote. -/
structure ArchiveState where
  clone : Clone
  remote : List LedgerLine
  phase : ArchivePhase
  /-- The last event was that an attempt that was not a dry run has returned
  success. -/
  returned : Bool
  deriving DecidableEq

/-- What can happen next. -/
inductive ArchiveEvent where
  /-- Another clone pushes. -/
  | peer (lines : List LedgerLine)
  /-- An attempt begins, with the check of the file and the worktree. -/
  | start (dryRun : Bool)
  /-- The attempt fails, or the process dies. -/
  | fail
  /-- The remote is pulled before the line is appended. -/
  | pull
  | append (r : SessionRecord)
  /-- The line is written to the file only in part. -/
  | tear (text : String)
  | commit
  /-- A dry run ends after its commit. -/
  | finish
  /-- A push succeeds. -/
  | push
  /-- A push is done on the remote, and the process dies before it knows. -/
  | pushUnnoticed
  /-- A push is rejected, and may be tried again. -/
  | reject
  /-- The remote is pulled before the push is tried again. -/
  | rebase

/-- How often a push is tried again. -/
def maxRetries : ℕ := 3

namespace ArchiveState

/-- The end of an attempt. -/
def ended (s : ArchiveState) (returned : Bool) : ArchiveState :=
  { s with phase := ArchivePhase.idle, returned := returned }

/-- The attempt goes on. -/
def next (s : ArchiveState) (phase : ArchivePhase) : ArchiveState :=
  { s with phase := phase, returned := false }

/-- The beginning of an attempt on a session: it is over at once if the file
has the session already, or if the worktree is not clean. -/
def begin (s : ArchiveState) (id : String) (dryRun : Bool) : ArchiveState :=
  if ledgerContainsId s.clone.ledger id then s.ended (!dryRun)
  else if s.clone.uncommitted ≠ [] then s.ended false
  else s.next (ArchivePhase.building dryRun)

end ArchiveState

/-- One event of archiving a session. -/
def archiveStep (id : String) (s : ArchiveState) :
    ArchiveEvent → Option ArchiveState
  | ArchiveEvent.peer lines =>
    some { s with remote := s.remote ++ lines, returned := false }
  | ArchiveEvent.start dryRun =>
    if s.phase = ArchivePhase.idle then some (s.begin id dryRun) else none
  | ArchiveEvent.fail =>
    if s.phase ≠ ArchivePhase.idle then some (s.ended false) else none
  | ArchiveEvent.pull =>
    if s.phase = ArchivePhase.building false then
      some { s.next ArchivePhase.pulled with clone := s.clone.pullRebase s.remote }
    else none
  | ArchiveEvent.append r =>
    if r.id = id then
      match s.phase with
      | ArchivePhase.pulled => some
        { s.next (ArchivePhase.appended false) with clone := s.clone.appendLedger r }
      | ArchivePhase.building true => some
        { s.next (ArchivePhase.appended true) with clone := s.clone.appendLedger r }
      | _ => none
    else none
  | ArchiveEvent.tear text =>
    match s.phase with
    | ArchivePhase.pulled => some { s.ended false with clone := s.clone.tear text }
    | ArchivePhase.building true => some
        { s.ended false with clone := s.clone.tear text }
    | _ => none
  | ArchiveEvent.commit =>
    match s.phase with
    | ArchivePhase.appended dryRun => some
      { s.next (ArchivePhase.committed dryRun maxRetries) with
        clone := s.clone.stageAndCommit }
    | _ => none
  | ArchiveEvent.finish =>
    match s.phase with
    | ArchivePhase.committed true _ => some (s.ended false)
    | _ => none
  | ArchiveEvent.push =>
    match s.phase with
    | ArchivePhase.committed false _ =>
      if s.remote = s.clone.base then
        some { s.ended true with
          clone := s.clone.pushed, remote := s.remote ++ s.clone.ahead }
      else none
    | _ => none
  | ArchiveEvent.pushUnnoticed =>
    match s.phase with
    | ArchivePhase.committed false _ =>
      if s.remote = s.clone.base then
        some { s.ended false with
          clone := s.clone.pushed, remote := s.remote ++ s.clone.ahead }
      else none
    | _ => none
  | ArchiveEvent.reject =>
    match s.phase with
    | ArchivePhase.committed false (retries + 1) =>
      some (s.next (ArchivePhase.rejected retries))
    | _ => none
  | ArchiveEvent.rebase =>
    match s.phase with
    | ArchivePhase.rejected retries => some
      { s.next (ArchivePhase.committed false retries) with
        clone := s.clone.pullRebase s.remote }
    | _ => none

/-! ## What success leaves on the remote -/

/-- How many records of a session a ledger has. -/
def recordsOf (id : String) (ledger : List LedgerLine) : ℕ :=
  ledger.countP fun l => l.names id

/-- An attempt that was not a dry run and has returned success leaves exactly
one record of its session on the remote. -/
def ArchivedOnce (id : String) (s : ArchiveState) : Prop :=
  s.returned = true → recordsOf id s.remote = 1

/-- An attempt is under way that is to push its line. -/
def ArchivePhase.isPushing : ArchivePhase → Bool
  | idle => false
  | building dryRun => !dryRun
  | pulled => true
  | appended dryRun => !dryRun
  | committed dryRun _ => !dryRun
  | rejected _ => true

/-- The condition on an event. An attempt that is to push begins with the
session in the clone's file and once on the remote, or in neither; and while
it is under way, no other clone pushes a record of the session. -/
def KeepsArchive (id : String) (s : ArchiveState) : ArchiveEvent → Prop
  | ArchiveEvent.start false =>
    if ledgerContainsId s.clone.ledger id then recordsOf id s.remote = 1
    else s.clone.uncommitted = [] → recordsOf id s.remote = 0
  | ArchiveEvent.peer lines =>
    s.phase.isPushing = true → recordsOf id lines = 0
  | _ => True

instance (id : String) (s : ArchiveState) (e : ArchiveEvent) :
    Decidable (KeepsArchive id s e) :=
  match e with
  | ArchiveEvent.start false => inferInstanceAs (Decidable (ite _ _ _))
  | ArchiveEvent.start true => isTrue trivial
  | ArchiveEvent.peer _ => inferInstanceAs (Decidable (_ → _))
  | ArchiveEvent.fail => isTrue trivial
  | ArchiveEvent.pull => isTrue trivial
  | ArchiveEvent.append _ => isTrue trivial
  | ArchiveEvent.tear _ => isTrue trivial
  | ArchiveEvent.commit => isTrue trivial
  | ArchiveEvent.finish => isTrue trivial
  | ArchiveEvent.push => isTrue trivial
  | ArchiveEvent.pushUnnoticed => isTrue trivial
  | ArchiveEvent.reject => isTrue trivial
  | ArchiveEvent.rebase => isTrue trivial

/-- Where the line of an attempt that is to push it stands: nowhere yet, in
the file, or in a commit, and never on the remote. -/
def LineAt (id : String) (s : ArchiveState) : Prop :=
  match s.phase with
  | ArchivePhase.building false =>
    recordsOf id s.clone.ahead = 0 ∧ s.clone.uncommitted = []
  | ArchivePhase.pulled => recordsOf id s.clone.ahead = 0 ∧ s.clone.uncommitted = []
  | ArchivePhase.appended false =>
    recordsOf id s.clone.ahead = 0 ∧ recordsOf id s.clone.uncommitted = 1
  | ArchivePhase.committed false _ => recordsOf id s.clone.ahead = 1
  | ArchivePhase.rejected _ => recordsOf id s.clone.ahead = 1
  | _ => True

/-- What holds in a run whose events meet the condition. -/
structure ArchiveInv (id : String) (s : ArchiveState) : Prop where
  once : ArchivedOnce id s
  remote : s.phase.isPushing = true → recordsOf id s.remote = 0
  line : LineAt id s

section Steps

variable {id : String} {s s' : ArchiveState}

@[simp] theorem recordsOf_append (l l' : List LedgerLine) :
    recordsOf id (l ++ l') = recordsOf id l + recordsOf id l' :=
  List.countP_append

theorem recordsOf_eq_zero_iff {l : List LedgerLine} :
    recordsOf id l = 0 ↔ ledgerContainsId l id = false := by
  simp [recordsOf, ledgerContainsId, List.countP_eq_zero]

theorem recordsOf_record {r : SessionRecord} (h : r.id = id) :
    recordsOf id [LedgerLine.record r] = 1 := by
  simp [recordsOf, LedgerLine.names, h]

/-- **What an event is possible in, and what it leads to.** -/
theorem archiveStep_cases {e : ArchiveEvent} (h : archiveStep id s e = some s') :
    (∃ lines, e = ArchiveEvent.peer lines
        ∧ s' = { s with remote := s.remote ++ lines, returned := false })
      ∨ (∃ dryRun, e = ArchiveEvent.start dryRun ∧ s' = s.begin id dryRun)
      ∨ (∃ clone, s' = { s.ended false with clone := clone })
      ∨ (s.phase = ArchivePhase.building false
        ∧ s' = { s.next ArchivePhase.pulled with
            clone := s.clone.pullRebase s.remote })
      ∨ (∃ r dryRun, r.id = id
        ∧ (s.phase = ArchivePhase.pulled ∧ dryRun = false
          ∨ s.phase = ArchivePhase.building true ∧ dryRun = true)
        ∧ s' = { s.next (ArchivePhase.appended dryRun) with
            clone := s.clone.appendLedger r })
      ∨ (∃ dryRun, s.phase = ArchivePhase.appended dryRun
        ∧ s' = { s.next (ArchivePhase.committed dryRun maxRetries) with
            clone := s.clone.stageAndCommit })
      ∨ (∃ retries returned, s.phase = ArchivePhase.committed false retries
        ∧ s' = { s.ended returned with
            clone := s.clone.pushed, remote := s.remote ++ s.clone.ahead })
      ∨ (∃ retries, s.phase = ArchivePhase.committed false (retries + 1)
        ∧ s' = s.next (ArchivePhase.rejected retries))
      ∨ ∃ retries, s.phase = ArchivePhase.rejected retries
        ∧ s' = { s.next (ArchivePhase.committed false retries) with
            clone := s.clone.pullRebase s.remote } := by
  cases e with
  | peer lines => exact Or.inl ⟨lines, rfl, (Option.some.inj h).symm⟩
  | start dryRun =>
    simp only [archiveStep] at h
    split_ifs at h with hidle
    exact Or.inr (Or.inl ⟨dryRun, rfl, (Option.some.inj h).symm⟩)
  | fail =>
    simp only [archiveStep] at h
    split_ifs at h with hidle
    exact Or.inr (Or.inr (Or.inl ⟨s.clone, (Option.some.inj h).symm⟩))
  | pull =>
    simp only [archiveStep] at h
    split_ifs at h with hphase
    exact Or.inr (Or.inr (Or.inr (Or.inl ⟨hphase, (Option.some.inj h).symm⟩)))
  | append r =>
    simp only [archiveStep] at h
    split_ifs at h with hid
    refine Or.inr (Or.inr (Or.inr (Or.inr (Or.inl ?_))))
    split at h
    · exact ⟨r, false, hid, Or.inl ⟨by assumption, rfl⟩, (Option.some.inj h).symm⟩
    · exact ⟨r, true, hid, Or.inr ⟨by assumption, rfl⟩, (Option.some.inj h).symm⟩
    · cases h
  | tear text =>
    simp only [archiveStep] at h
    -- an append that is cut short ends the attempt, with part of the line in the clone
    refine Or.inr (Or.inr (Or.inl ⟨s.clone.tear text, ?_⟩))
    split at h
    · exact (Option.some.inj h).symm
    · exact (Option.some.inj h).symm
    · cases h
  | commit =>
    simp only [archiveStep] at h
    refine Or.inr (Or.inr (Or.inr (Or.inr (Or.inr (Or.inl ?_)))))
    split at h
    · exact ⟨_, by assumption, (Option.some.inj h).symm⟩
    · cases h
  | finish =>
    simp only [archiveStep] at h
    refine Or.inr (Or.inr (Or.inl ⟨s.clone, ?_⟩))
    split at h
    · exact (Option.some.inj h).symm
    · cases h
  | push =>
    simp only [archiveStep] at h
    refine Or.inr (Or.inr (Or.inr (Or.inr (Or.inr (Or.inr (Or.inl ?_))))))
    split at h
    · -- the remote only takes what stands on its own tip
      split_ifs at h with hbase
      exact ⟨_, true, by assumption, (Option.some.inj h).symm⟩
    · cases h
  | pushUnnoticed =>
    simp only [archiveStep] at h
    refine Or.inr (Or.inr (Or.inr (Or.inr (Or.inr (Or.inr (Or.inl ?_))))))
    split at h
    · split_ifs at h with hbase
      exact ⟨_, false, by assumption, (Option.some.inj h).symm⟩
    · cases h
  | reject =>
    simp only [archiveStep] at h
    refine Or.inr (Or.inr (Or.inr (Or.inr (Or.inr (Or.inr (Or.inr (Or.inl ?_)))))))
    split at h
    · exact ⟨_, by assumption, (Option.some.inj h).symm⟩
    · cases h
  | rebase =>
    simp only [archiveStep] at h
    refine Or.inr (Or.inr (Or.inr (Or.inr (Or.inr (Or.inr (Or.inr (Or.inr ?_)))))))
    split at h
    · exact ⟨_, by assumption, (Option.some.inj h).symm⟩
    · cases h

@[simp] theorem ArchiveState.begin_remote (dryRun : Bool) :
    (s.begin id dryRun).remote = s.remote := by
  unfold ArchiveState.begin
  split_ifs
  · rfl
  · rfl
  · rfl

/-- **No event takes a line from the remote.** -/
theorem remote_prefix_step {e : ArchiveEvent} (h : archiveStep id s e = some s') :
    s.remote <+: s'.remote := by
  rcases archiveStep_cases h with ⟨lines, -, rfl⟩ | ⟨dryRun, -, rfl⟩ | ⟨clone, rfl⟩
    | ⟨-, rfl⟩ | ⟨r, dryRun, -, -, rfl⟩ | ⟨dryRun, -, rfl⟩ | ⟨retries, returned, -, rfl⟩
    | ⟨retries, -, rfl⟩ | ⟨retries, -, rfl⟩
  · exact List.prefix_append s.remote lines
  · rw [ArchiveState.begin_remote]
  · exact List.prefix_rfl
  · exact List.prefix_rfl
  · exact List.prefix_rfl
  · exact List.prefix_rfl
  · exact List.prefix_append s.remote s.clone.ahead
  · exact List.prefix_rfl
  · exact List.prefix_rfl

/-- What a run has found on the remote stays there. -/
theorem remote_prefix_of_run {es : List ArchiveEvent}
    (h : Runs.run (archiveStep id) s es = some s') : s.remote <+: s'.remote := by
  have hstep : ∀ t e t', s.remote <+: t.remote → archiveStep id t e = some t' →
      s.remote <+: t'.remote :=
    fun t e t' hpre hstep => hpre.trans (remote_prefix_step hstep)
  exact Runs.run_invariant_of_step hstep List.prefix_rfl h

/-- Between attempts nothing is known but what the success of the last one
says. -/
theorem archiveInv_ended (s : ArchiveState) {returned : Bool} (clone : Clone)
    {remote : List LedgerLine} (h : returned = true → recordsOf id remote = 1) :
    ArchiveInv id { s.ended returned with clone := clone, remote := remote } where
  once := h
  remote := nofun
  line := trivial

/-- An attempt that goes on returns nothing yet. -/
theorem archiveInv_next {phase : ArchivePhase} {clone : Clone}
    (hremote : phase.isPushing = true → recordsOf id s.remote = 0)
    (hline : LineAt id { s.next phase with clone := clone }) :
    ArchiveInv id { s.next phase with clone := clone } where
  once := nofun
  remote := hremote
  line := hline

/-- **An attempt that begins has its line nowhere**: the file does not have
the session, so no commit of the clone has it either, and by the condition
the remote does not. -/
theorem archiveInv_begin {dryRun : Bool}
    (hok : KeepsArchive id s (ArchiveEvent.start dryRun)) :
    ArchiveInv id (s.begin id dryRun) := by
  unfold ArchiveState.begin
  cases dryRun with
  | true =>
    split_ifs with hknown hclean
    · exact archiveInv_ended s s.clone nofun
    · exact archiveInv_ended s s.clone nofun
    · exact archiveInv_next nofun trivial
  | false =>
    unfold KeepsArchive at hok
    split_ifs with hknown hclean
    · rw [if_pos hknown] at hok
      exact archiveInv_ended s s.clone fun _ => hok
    · exact archiveInv_ended s s.clone nofun
    · rw [if_neg hknown] at hok
      rw [not_not] at hclean
      have hledger : recordsOf id s.clone.ledger = 0 :=
        recordsOf_eq_zero_iff.mpr (Bool.eq_false_of_not_eq_true hknown)
      unfold Clone.ledger at hledger
      rw [recordsOf_append, recordsOf_append] at hledger
      refine archiveInv_next (fun _ => hok hclean) ?_
      show recordsOf id s.clone.ahead = 0 ∧ s.clone.uncommitted = []
      exact ⟨by omega, hclean⟩

/-- **Every event that meets the condition keeps what is known of the
line.** -/
theorem archiveInv_step {e : ArchiveEvent} (hinv : ArchiveInv id s)
    (hok : KeepsArchive id s e) (h : archiveStep id s e = some s') :
    ArchiveInv id s' := by
  obtain ⟨-, hremote, hline⟩ := hinv
  unfold LineAt at hline
  rcases archiveStep_cases h with ⟨lines, rfl, rfl⟩ | ⟨dryRun, rfl, rfl⟩ | ⟨clone, rfl⟩
    | ⟨hphase, rfl⟩ | ⟨r, dryRun, hid, hphase, rfl⟩ | ⟨dryRun, hphase, rfl⟩
    | ⟨retries, returned, hphase, rfl⟩ | ⟨retries, hphase, rfl⟩ | ⟨retries, hphase, rfl⟩
  · -- another clone pushes, and by the condition no record of the session
    refine ⟨nofun, fun hpushing => ?_, hline⟩
    have hlines : recordsOf id lines = 0 := hok hpushing
    show recordsOf id (s.remote ++ lines) = 0
    rw [recordsOf_append, hremote hpushing, hlines]
  · exact archiveInv_begin hok
  · exact archiveInv_ended s clone nofun
  · rw [hphase] at hremote hline
    exact archiveInv_next (fun _ => hremote rfl) hline
  · rcases hphase with ⟨hphase, rfl⟩ | ⟨hphase, rfl⟩
    · rw [hphase] at hremote hline
      refine archiveInv_next (fun _ => hremote rfl) ⟨hline.left, ?_⟩
      show recordsOf id (s.clone.uncommitted ++ [LedgerLine.record r]) = 1
      rw [hline.right, List.nil_append, recordsOf_record hid]
    · exact archiveInv_next nofun trivial
  · rw [hphase] at hremote hline
    cases dryRun with
    | true => exact archiveInv_next nofun trivial
    | false =>
      refine archiveInv_next (fun _ => hremote rfl) ?_
      show recordsOf id (s.clone.ahead ++ s.clone.uncommitted) = 1
      rw [recordsOf_append, hline.left, hline.right]
  · -- the one record the clone is ahead by is now the remote's
    rw [hphase] at hremote hline
    refine archiveInv_ended s s.clone.pushed fun _ => ?_
    rw [recordsOf_append, hremote rfl, hline]
  · rw [hphase] at hremote hline
    exact archiveInv_next (fun _ => hremote rfl) hline
  · rw [hphase] at hremote hline
    exact archiveInv_next (fun _ => hremote rfl) hline

end Steps

/-- A repository that was just cloned from an empty remote. -/
def newClone : ArchiveState := ⟨⟨[], [], []⟩, [], ArchivePhase.idle, false⟩

/-- The events of an attempt up to its commit. -/
def commitEvents (r : SessionRecord) : List ArchiveEvent :=
  [ArchiveEvent.start false, ArchiveEvent.pull, ArchiveEvent.append r,
    ArchiveEvent.commit]

/-- The events of a dry run. -/
def dryRunEvents (r : SessionRecord) : List ArchiveEvent :=
  [ArchiveEvent.start true, ArchiveEvent.append r, ArchiveEvent.commit,
    ArchiveEvent.finish]
