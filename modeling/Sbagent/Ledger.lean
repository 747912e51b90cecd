import Sbagent.Common

/-!
# The two ledgers

The operator repository keeps two append-only ledgers, one JSON record a
line. `sessions.jsonl` has one record for each archived session, with a row
for each target the session touched; `maintain.jsonl` has one record for each
observation of what became of the pull requests and issues those targets were
published as. Neither is ever edited, so everything the program knows about
its own past is computed from these two lists of records.
-/

open Fallible

/-! ## Session records -/

/-- Terminal status of a session as a whole. -/
inductive SessionStatus where
  | succeeded
  | failed
  | aborted
  deriving DecidableEq

/-- Terminal status of a single target inside a session. -/
inductive TargetStatus where
  | accepted
  | rejected
  | aborted
  | failed
  deriving DecidableEq

/-- A target status in a message. -/
def TargetStatus.debug : TargetStatus → String
  | accepted => "Accepted"
  | rejected => "Rejected"
  | aborted => "Aborted"
  | failed => "Failed"

/-- Stage at which the status of a non-accepted target was settled. -/
inductive TargetStatusStage where
  | optimizer
  | merge
  | bench
  deriving DecidableEq

/-- Range parameters of the benchmark runs of a session. -/
structure SessionRange where
  startAt : Option ℕ
  count : Option ℕ
  warmup : Option ℕ
  filter : Option String
  network : String
  deriving DecidableEq

/-- Benchmark measurements of a target that reached the benchmark. -/
structure TargetBench where
  baselineRunIds : List ℤ
  candidateRunIds : List ℤ
  baselineTotalUs : ℤ
  candidateTotalUs : ℤ
  improvementPct : F64
  passesNoiseFloor : Bool
  deriving DecidableEq

/-- One target row of a session record. -/
structure TargetRecord where
  /-- Target id, which is also the fix signature that history keys by. -/
  id : String
  familyId : String
  bucket : String
  deliveryMode : DeliveryMode
  status : TargetStatus
  statusStage : Option TargetStatusStage
  reasonCode : Option String
  headSha : Option String
  prUrl : Option String
  issueUrl : Option String
  bench : Option TargetBench
  deriving DecidableEq

/-- One line of `sessions.jsonl`. -/
structure SessionRecord where
  id : String
  artifactBranch : String
  artifactSha : String
  artifactUrl : Option String
  startedAt : String
  finishedAt : String
  status : SessionStatus
  failurePhase : Option String
  failureReason : Option String
  sbagentVersion : String
  sbagentGitSha : Option String
  range : SessionRange
  baselineRunIds : List ℤ
  phaseDurationsSecs : Std.ExtTreeMap String F64
  targets : List TargetRecord
  sourceUrl : Option String
  sourceBranch : Option String
  sourceSha : Option String
  sourceFetchedAt : Option String
  deriving DecidableEq

/-- A row names the stage at which it was settled exactly when it was not
accepted. -/
def TargetRecord.validateModel (t : TargetRecord) : Fallible Unit :=
  match t.status, t.statusStage with
  | TargetStatus.accepted, none => Except.ok ()
  | TargetStatus.accepted, some _ =>
    bail s!"target `{t.id}`: status_stage must be None when status=accepted"
  | status, none =>
    bail s!"target `{t.id}`: status_stage required when status={status.debug}"
  | _, some _ => Except.ok ()

theorem TargetRecord.validateModel_ok_iff {t : TargetRecord} {u : Unit} :
    t.validateModel = Except.ok u
      ↔ (t.status = TargetStatus.accepted ↔ t.statusStage = none) := by
  unfold TargetRecord.validateModel
  rcases t.status <;> rcases t.statusStage <;> simp

/-! ## Maintain events -/

/-- Kind of one observation. -/
inductive MaintEventKind where
  | prOpen
  | prMerged
  | prClosedUnmerged
  | prStale
  | prForcePushed
  | prBranchDeleted
  | issueOpen
  | issueClosed
  deriving DecidableEq

namespace MaintEventKind

/-- The kinds after which nothing more happens to the artifact. -/
def isTerminal : MaintEventKind → Bool
  | prMerged | prClosedUnmerged | issueClosed => true
  | prOpen | prStale | prForcePushed | prBranchDeleted | issueOpen => false

/-- The kinds of a pull request. -/
def isPr : MaintEventKind → Bool
  | prOpen | prMerged | prClosedUnmerged | prStale | prForcePushed
  | prBranchDeleted => true
  | issueOpen | issueClosed => false

/-- The kinds of an issue. -/
def isIssue : MaintEventKind → Bool
  | issueOpen | issueClosed => true
  | prOpen | prMerged | prClosedUnmerged | prStale | prForcePushed
  | prBranchDeleted => false

theorem isIssue_eq_not_isPr (k : MaintEventKind) : k.isIssue = !k.isPr := by
  cases k <;> rfl

end MaintEventKind

/-- One line of `maintain.jsonl`. -/
structure MaintEvent where
  kind : MaintEventKind
  observedAt : String
  sessionId : String
  targetId : Option String
  familyId : Option String
  fixSignature : Option String
  prUrl : Option String
  issueUrl : Option String
  priorState : Option String
  newState : String
  headSha : Option String
  deriving DecidableEq

/-- The artifact an event is about: its pull request, or else its issue. -/
def MaintEvent.url (e : MaintEvent) : Option String := e.prUrl.or e.issueUrl

/-- The URL an event carries fits its kind. -/
def MaintEvent.checkUrls (e : MaintEvent) : Fallible Unit :=
  match e.kind.isPr, e.prUrl, e.issueUrl with
  | true, some _, none => Except.ok ()
  | true, _, _ =>
    bail "PR maintenance events require pr_url and no issue_url"
  | false, none, some _ => Except.ok ()
  | false, _, _ =>
    bail "issue maintenance events require issue_url and no pr_url"

/-- One event is well formed. -/
def MaintEvent.validateModel (e : MaintEvent) : Fallible Unit := do
  bailIf (Text.isBlank e.observedAt = true)
    "maintain event has empty observed_at"
  bailIf (Text.isBlank e.sessionId = true)
    "maintain event has empty session_id"
  bailIf (Text.isBlank e.newState = true) "maintain event has empty new_state"
  e.checkUrls
  bailIf (e.kind = MaintEventKind.prForcePushed
      ∧ Text.isBlank (e.headSha.getD "") = true)
    "PrForcePushed events require head_sha"

/-- **A valid event is about exactly one artifact.** -/
theorem MaintEvent.exists_url {e : MaintEvent}
    (h : e.validateModel = Except.ok ()) :
    ∃ url, e.url = some url ∧ ((e.kind.isPr = true ∧ e.prUrl = some url)
      ∨ (e.kind.isIssue = true ∧ e.prUrl = none ∧ e.issueUrl = some url)) := by
  unfold MaintEvent.validateModel at h
  simp only [seq_ok_iff] at h
  have hurls := h.right.right.right.left
  unfold MaintEvent.checkUrls at hurls
  unfold MaintEvent.url
  rw [MaintEventKind.isIssue_eq_not_isPr]
  rcases hk : e.kind.isPr <;> rcases hp : e.prUrl with _ | p <;>
    rcases hi : e.issueUrl with _ | i <;> simp_all
