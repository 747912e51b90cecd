import Sbagent.Reports

/-!
# One optimizer attempt

For each target an agent is run in a clone of the source and leaves a report.
The coordinator, not the agent, commits: when the report says *implemented* it
looks for changes, commits them, records the provenance of the commit, and
checks that the head of the clone has moved. Wherever one of these steps
fails, the report is demoted to an aborted one. A resumed run leaves a target
alone whose files say that all of this has happened already.

The attempt can also end early: the agent may fail or run out of time after
it wrote its report, a companion file may not be writable, the process may die
between any two steps. What the environment does is the `Attempt`; what it
leaves behind is `runOne`. What matters to the later phases is in
`runOne_cases`: where an implemented report can come from, and what stands
next to it.

Deleting a file that belongs to the session is taken to succeed.
-/

open Fallible

/-! ## The state of a target -/

/-- A clone of the source, as far as later phases depend on it. -/
structure Checkout where
  /-- The commit that is checked out. -/
  head : String
  /-- The first parent of that commit. -/
  parent : Option String
  /-- What is changed in the files since the commit, if anything is. -/
  changes : Option String
  deriving DecidableEq

/-- The files are those of the commit. -/
def Checkout.clean (c : Checkout) : Bool := c.changes.isNone

/-- Everything that belongs to one target. The last three fields are not on
disk: they say when the commit in the provenance was made, when the verdict
was written, and which definition of the target the agent was last given. -/
structure TargetState where
  report : FileRead OptimizerReport
  /-- The report that a demotion set aside. -/
  demoted : FileRead OptimizerReport
  implementationMd : Bool
  abortMd : Bool
  provenance : FileRead CoordinatorProvenance
  consensusIssue : Option ℕ
  /-- The benchmark binary, by what it was built from. -/
  binary : Option Checkout
  candidateRunIds : FileRead InvocationRunIds
  baselineRunIds : FileRead InvocationRunIds
  resultsAnalysis : FileRead ResultsAnalysis
  checkout : Option Checkout
  committedAt : ℕ
  verdictAt : ℕ
  producedFor : Option MergedTarget

namespace TargetState

/-- Nothing has happened yet. -/
def fresh : TargetState where
  report := FileRead.notFound
  demoted := FileRead.notFound
  implementationMd := false
  abortMd := false
  provenance := FileRead.notFound
  consensusIssue := none
  binary := none
  candidateRunIds := FileRead.notFound
  baselineRunIds := FileRead.notFound
  resultsAnalysis := FileRead.notFound
  checkout := none
  committedAt := 0
  verdictAt := 0
  producedFor := none

/-- Remove the outputs of an earlier attempt. The run ids of its candidate,
its binary and the verdict on it are not among them. -/
def clearOptimizerArtifacts (d : TargetState) : TargetState :=
  { d with
    report := FileRead.notFound
    demoted := FileRead.notFound
    implementationMd := false
    abortMd := false
    provenance := FileRead.notFound }

end TargetState

/-! ## Resuming -/

/-- The contents of `baseline/bin/manifest.json`: what the archived baseline
binary was built from. -/
structure BaselineBinaryManifest where
  sourceSha : String
  dirty : Bool
  deriving DecidableEq

/-- The source commit is forty hexadecimal digits. -/
def BaselineBinaryManifest.validateModel (m : BaselineBinaryManifest) :
    Fallible Unit :=
  bailIf (Text.byteLen m.sourceSha ≠ 40
      ∨ m.sourceSha.toList.all Text.isAsciiHexDigit = false)
    ("source_sha must be a 40-char hex string, got " ++ Text.debug m.sourceSha)

/-- The source commit of the archived baseline. -/
def readBaselineSourceSha (f : FileRead BaselineBinaryManifest) :
    Fallible String := do
  let path := "baseline/bin/manifest.json"
  let m ← f.readOptional BaselineBinaryManifest.validateModel s!"reading {path}"
    s!"parsing/validating {path}" s!"parsing/validating {path}"
  let m ← ofOption m s!"reading {path}"
  return m.sourceSha

/-- The report in a target's directory, if there is one. -/
def readOptimizerReport (targetId : String) (f : FileRead OptimizerReport) :
    Fallible (Option OptimizerReport) :=
  let path := s!"optimize/{targetId}/optimizer-report.json"
  f.readOptional OptimizerReport.validateModel s!"reading {path}"
    s!"parsing/validating {path}" s!"parsing/validating {path}"

/-- The provenance in a target's directory, if there is one. -/
def readCoordinatorProvenance (targetId : String)
    (f : FileRead CoordinatorProvenance) :
    Fallible (Option CoordinatorProvenance) :=
  let path := s!"optimize/{targetId}/coordinator-provenance.json"
  f.readOptional CoordinatorProvenance.validateModel s!"reading {path}"
    s!"parsing/validating {path}" s!"parsing/validating {path}"

/-- The report is about this target of this session, in this mode. -/
def validateReportContext (r : OptimizerReport) (targetId sessionId : String)
    (mode : DeliveryMode) : Fallible Unit :=
  r.checkContext sessionId targetId mode "claiming"

/-- Whether a provenance, where one was read, belongs to the target and names
the archived baseline as the base of its commit. -/
def provenanceMatches (target : MergedTarget)
    (sessionId baselineSourceSha : String) :
    Fallible (Option CoordinatorProvenance) → Bool
  | Except.ok (some p) =>
    (p.validateContext sessionId target.id target.deliveryMode).isOk
      && p.baseSha == baselineSourceSha
  | Except.ok none => false
  | Except.error _ => false

/-- Whether the files of a target say that it is done: a report that belongs
to it and, next to an implementation, a provenance that does and whose base is
the archived baseline. -/
def resumeTargetIsComplete (d : TargetState) (target : MergedTarget)
    (sessionId baselineSourceSha : String) : Bool :=
  match readOptimizerReport target.id d.report with
  | Except.ok (some report) =>
    (validateReportContext report target.id sessionId target.deliveryMode).isOk
      && (!report.isImplemented || provenanceMatches target sessionId
        baselineSourceSha (readCoordinatorProvenance target.id d.provenance))
  | Except.ok none => false
  | Except.error _ => false

/-- What a run makes of a target. -/
inductive Decision where
  /-- There is nothing to optimize: a marker says so. -/
  | routed
  /-- A resumed run needs the archived baseline, and cannot read it. -/
  | refused (e : List String)
  /-- The files say that the target is done. -/
  | skipped
  /-- The agent is run. -/
  | attempted
  deriving DecidableEq

/-- Decide what a run makes of a target. -/
def decideOne (sessionId : String) (manifest : FileRead BaselineBinaryManifest)
    (target : MergedTarget) (resume : Bool) (d : TargetState) : Decision :=
  if target.deliveryMode = DeliveryMode.consensusIssue then Decision.routed
  else if resume then
    match readBaselineSourceSha manifest with
    | Except.error e => Decision.refused
      (("resume mode requires baseline/bin/manifest.json to resolve; rerun "
        ++ "without --resume or invoke Phase 0a first") :: e)
    | Except.ok sha =>
      if resumeTargetIsComplete d target sessionId sha then Decision.skipped
      else Decision.attempted
  else Decision.attempted

/-! ## The attempt -/

/-- Where an attempt ends before its time, by an error or because the process
dies. -/
inductive Stage where
  /-- Nothing has been touched. -/
  | starting
  /-- The old clone is gone and there is no new one. -/
  | recreating
  /-- The new clone is there. -/
  | cloned
  /-- The outputs of the last attempt are gone. -/
  | preparing
  /-- The agent ran, and did not end well or was not listened to. -/
  | agent
  /-- The report was read, and its companion could not be written. -/
  | companion
  /-- The changes were committed. -/
  | committing
  /-- The provenance was written. -/
  | recorded
  deriving DecidableEq

/-- How far a demotion gets. -/
inductive Demotion where
  /-- It succeeds. -/
  | done
  /-- The new report is there, its companion is not. -/
  | rewritten
  /-- The old report was set aside, and no new one written. -/
  | renamed
  /-- The old report could be neither set aside nor overwritten. -/
  | untouched
  deriving DecidableEq

/-- What the environment does in an attempt. -/
structure Attempt where
  /-- The tip of the base branch, which the clone is created at. -/
  base : Checkout
  /-- What the agent leaves as its report. -/
  report : FileRead OptimizerReport
  /-- What the agent leaves of the clone, commits of its own included. -/
  left : Checkout
  /-- Where the attempt ends early, if it does. -/
  stop : Option Stage
  /-- Whether `git status` works. -/
  statusOk : Bool
  /-- Whether `git add` works. -/
  addOk : Bool
  /-- Whether `git commit` works. -/
  commitOk : Bool
  /-- The commit it makes. -/
  commit : String
  /-- Whether the provenance can be determined and written. -/
  recordOk : Bool
  /-- Whether writing it, where that fails, leaves a part of the file. -/
  recordLeaves : Bool
  /-- How far demoting gets, where it comes to that. -/
  demotion : Demotion
  /-- Whether the head of the new clone could be read. -/
  baseKnown : Bool
  /-- Whether the head can be read in the end. -/
  headKnown : Bool

/-- The clone after the coordinator's commit. -/
def Attempt.committed (a : Attempt) : Checkout :=
  ⟨a.commit, some a.left.head, none⟩

/-- What the coordinator sees of its commit. -/
def Attempt.provenance (a : Attempt) (sessionId : String)
    (target : MergedTarget) : CoordinatorProvenance where
  sessionId := sessionId
  targetId := target.id
  deliveryMode := target.deliveryMode
  baseSha := a.left.head
  headSha := a.commit
  commitMessage := s!"perf: optimize {target.id}"

/-- The report that replaces a demoted one. -/
def demotedReport (sessionId : String) (target : MergedTarget)
    (reason : String) : OptimizerReport :=
  OptimizerReport.aborted {
    sessionId := sessionId
    targetId := target.id
    deliveryMode := target.deliveryMode
    reason := "Coordinator demoted `outcome=implemented` → `outcome=aborted`: "
      ++ reason ++ "\n\nOriginal report preserved at "
      ++ "`optimizer-report.json.demoted`."
    failedGate := some FailedGate.environmentalError
    failingTests := none }

/-- Replace an implemented report by an aborted one. -/
def demoteImplementedToAborted (sessionId : String) (target : MergedTarget)
    (reason : String) (outcome : Demotion) (d : TargetState) :
    Fallible Unit × TargetState :=
  let rewritten :=
    { d with
      report := FileRead.parsed (demotedReport sessionId target reason)
      demoted := d.report
      implementationMd := false }
  match outcome with
  | Demotion.done => (Except.ok (), { rewritten with abortMd := true })
  | Demotion.rewritten =>
    (bail s!"writing demotion abort.md for {target.id}", rewritten)
  | Demotion.renamed =>
    (bail "writing demoted optimizer-report.json",
      { d with report := FileRead.notFound, demoted := d.report })
  | Demotion.untouched => (bail "writing demoted optimizer-report.json", d)

/-- What is left when the commit could not be recorded. The file is only
created once there is something to write into it. -/
def Attempt.unrecorded (a : Attempt) (sessionId : String) (target : MergedTarget)
    (d : TargetState) : TargetState :=
  if a.recordLeaves = true
      ∧ (a.provenance sessionId target).validateModel.isOk = true then
    { d with provenance := FileRead.malformed }
  else d

/-- Record the commit that was just made. -/
def writeCoordinatorProvenance (sessionId : String) (target : MergedTarget)
    (a : Attempt) (now : ℕ) (d : TargetState) : Fallible Unit × TargetState :=
  let p := a.provenance sessionId target
  if a.recordOk = true ∧ p.validateModel.isOk = true then
    (Except.ok (),
      { d with provenance := FileRead.parsed p, committedAt := now })
  else
    demoteImplementedToAborted sessionId target
      "coordinator could not record provenance after commit" a.demotion
      (a.unrecorded sessionId target d)

/-- Commit what the agent left, and record the commit. -/
def commitAndRecord (sessionId : String) (target : MergedTarget) (a : Attempt)
    (now : ℕ) (d : TargetState) : Fallible Unit × TargetState :=
  if a.statusOk = false then
    demoteImplementedToAborted sessionId target "git status --porcelain"
      a.demotion d
  else if a.left.clean = true then
    demoteImplementedToAborted sessionId target
      ("agent reported `outcome=implemented` but the worktree has no changes "
        ++ "(`git status --porcelain` empty); coordinator has nothing to commit")
      a.demotion d
  else if a.addOk = false then
    demoteImplementedToAborted sessionId target "coordinator `git add -A` failed"
      a.demotion d
  else if a.commitOk = false then
    demoteImplementedToAborted sessionId target
      (s!"coordinator `git commit -m \"perf: optimize {target.id}\"` failed; "
        ++ "check operator's git config / signing setup") a.demotion d
  else
    let d := { d with checkout := some a.committed }
    if a.stop = some Stage.committing then (bail "stopped after the commit", d)
    else writeCoordinatorProvenance sessionId target a now d

/-- The coordinator's side of an attempt: read the report, and commit if it
says that there is something to commit. -/
def coordinatorCommitIfKept (sessionId : String) (target : MergedTarget)
    (a : Attempt) (now : ℕ) (d : TargetState) : Fallible Unit × TargetState :=
  match readOptimizerReport target.id d.report with
  | Except.error e => (Except.error e, d)
  | Except.ok none => (Except.ok (), d)
  | Except.ok (some report) =>
    match validateReportContext report target.id sessionId target.deliveryMode with
    | Except.error e => (Except.error e, d)
    | Except.ok () =>
      if a.stop = some Stage.companion then
        (bail s!"writing the companion of the report for {target.id}", d)
      else if report.isImplemented then
        commitAndRecord sessionId target a now { d with implementationMd := true }
      else (Except.ok (), { d with abortMd := true })

/-- The last check: an implementation whose clone has not moved is demoted. -/
def verifyKeptOrDemote (sessionId : String) (target : MergedTarget)
    (a : Attempt) (d : TargetState) : Fallible Unit × TargetState :=
  match readOptimizerReport target.id d.report with
  | Except.error e => (Except.error e, d)
  | Except.ok none => (Except.ok (), d)
  | Except.ok (some report) =>
    match validateReportContext report target.id sessionId target.deliveryMode with
    | Except.error e => (Except.error e, d)
    | Except.ok () =>
      -- a head that cannot be read is no evidence against the report
      if report.isImplemented = true ∧ a.baseKnown = true ∧ a.headKnown = true
          ∧ d.checkout.map (fun c => c.head) = some a.base.head then
        demoteImplementedToAborted sessionId target
          ("agent reported `outcome=implemented` but the worktree's HEAD is "
            ++ s!"still at the base branch tip (`{a.base.head}`); no commits "
            ++ "were made. Most common cause is a `git commit` that failed "
            ++ "silently inside the codex sandbox (signing prompt blocked by "
            ++ "missing socket / YubiKey, or a sandbox write deny on "
            ++ "`.git/...`). Inspect `final-message.md` + `events.jsonl` for the "
            ++ "agent's own diagnostics.") a.demotion d
      else (Except.ok (), d)

/-- The coordinator's side of an attempt, to its end. -/
def coordinate (sessionId : String) (target : MergedTarget) (a : Attempt)
    (now : ℕ) (d : TargetState) : Fallible Unit × TargetState :=
  let r := coordinatorCommitIfKept sessionId target a now d
  match r.fst with
  | Except.error e => (Except.error e, r.snd)
  | Except.ok () =>
    if a.stop = some Stage.recorded then
      (bail "stopped after recording the commit", r.snd)
    else verifyKeptOrDemote sessionId target a r.snd

/-- What the agent finds: a new clone, and nothing of the last attempt. -/
def Attempt.prepared (a : Attempt) (d : TargetState) : TargetState :=
  { d.clearOptimizerArtifacts with
    checkout := some a.base
    consensusIssue := none }

/-- What the agent leaves: its report, and the clone. -/
def Attempt.invoked (a : Attempt) (target : MergedTarget) (d : TargetState) :
    TargetState :=
  { a.prepared d with
    report := a.report
    checkout := some a.left
    producedFor := some target }

/-- Run the agent on a target and see to what it leaves. -/
def attemptOptimizer (sessionId : String) (target : MergedTarget) (a : Attempt)
    (now : ℕ) (d : TargetState) : Fallible Unit × TargetState :=
  match a.stop with
  | some Stage.recreating =>
    (bail s!"recreating the checkout of {target.id}", { d with checkout := none })
  | some Stage.cloned =>
    (bail "stopped after cloning", { d with checkout := some a.base })
  | some Stage.preparing => (bail "preparing the optimizer prompt", a.prepared d)
  | some Stage.agent =>
    (bail s!"invoking codex for optimizer {target.id}", a.invoked target d)
  | _ => coordinate sessionId target a now (a.invoked target d)

/-- The marker of a target that is not optimized. -/
def consensusIssueMarker : String :=
  "# Consensus issue: optimizer skipped\n\ndelivery_mode = consensus_issue\n\n"
    ++ "This target proposes a consensus-breaking change that the analyzer "
    ++ "determined is not\nPoC-implementable (poc_implementable = false). The "
    ++ "optimizer phase is intentionally\nskipped: the analyzer's "
    ++ "consensus_writeup is the shipping artifact.\n\nDownstream phases:\n- "
    ++ "`sbagent session bench` skips this target (bench_eligible=false).\n- "
    ++ "`sbagent publish` routes this target to the issue writer.\n"

/-- What a run does to a target. -/
def runOne (sessionId : String) (manifest : FileRead BaselineBinaryManifest)
    (target : MergedTarget) (resume : Bool) (a : Attempt) (now : ℕ)
    (d : TargetState) : Fallible Unit × TargetState :=
  if a.stop = some Stage.starting then
    (bail s!"creating optimize/{target.id}", d)
  else
    match decideOne sessionId manifest target resume d with
    | Decision.routed =>
      if a.stop = some Stage.preparing then
        (bail "writing consensus-issue.md", d.clearOptimizerArtifacts)
      else (Except.ok (),
        { d.clearOptimizerArtifacts with
          consensusIssue := some (Text.byteLen consensusIssueMarker) })
    | Decision.refused e => (Except.error e, d)
    | Decision.skipped => (Except.ok (), d)
    | Decision.attempted => attemptOptimizer sessionId target a now d

/-! ## Where an implemented report comes from -/

/-- Optimizing a target touches no measurement of it. -/
structure Unmeasured (now : ℕ) (d d' : TargetState) : Prop where
  candidateRunIds : d'.candidateRunIds = d.candidateRunIds
  baselineRunIds : d'.baselineRunIds = d.baselineRunIds
  resultsAnalysis : d'.resultsAnalysis = d.resultsAnalysis
  binary : d'.binary = d.binary
  verdictAt : d'.verdictAt = d.verdictAt
  committedAt : d'.committedAt = d.committedAt ∨ d'.committedAt = now

/-- Seeing to what an agent left makes no implemented report that was not
there. -/
structure Coordinated (now : ℕ) (d d' : TargetState) : Prop extends
    Unmeasured now d d' where
  producedFor : d'.producedFor = d.producedFor
  implemented : ∀ r, d'.report = FileRead.parsed (OptimizerReport.implemented r) →
    d.report = FileRead.parsed (OptimizerReport.implemented r)

/-- A report that the coordinator acts on. -/
def ImplementedReport.Usable (r : ImplementedReport) (sessionId : String)
    (target : MergedTarget) : Prop :=
  r.validateModel = Except.ok () ∧ r.targetId = target.id
    ∧ r.sessionId = sessionId ∧ r.deliveryMode = target.deliveryMode

/-- An attempt that gets as far as running the agent. -/
def Attempt.Invoked (a : Attempt) : Prop :=
  a.stop ≠ some Stage.starting ∧ a.stop ≠ some Stage.recreating
    ∧ a.stop ≠ some Stage.cloned ∧ a.stop ≠ some Stage.preparing

instance (a : Attempt) : Decidable a.Invoked :=
  inferInstanceAs (Decidable (_ ∧ _))

/-- An attempt whose changes can be committed. -/
def Attempt.Commits (a : Attempt) : Prop :=
  a.statusOk = true ∧ a.left.clean = false ∧ a.addOk = true ∧ a.commitOk = true

instance (a : Attempt) : Decidable a.Commits :=
  inferInstanceAs (Decidable (_ ∧ _))

/-- An attempt whose commit can be recorded. -/
def Attempt.Records (a : Attempt) (sessionId : String) (target : MergedTarget) :
    Prop :=
  a.recordOk = true ∧ (a.provenance sessionId target).validateModel.isOk = true

instance (a : Attempt) (sessionId : String) (target : MergedTarget) :
    Decidable (a.Records sessionId target) :=
  inferInstanceAs (Decidable (_ ∧ _))

/-- An attempt that leaves an implemented report with no commit behind it: it
ends between the agent and the record of the commit, or there is nothing to
record and the report cannot be replaced either. -/
def Attempt.Exposed (a : Attempt) (sessionId : String) (target : MergedTarget) :
    Prop :=
  a.stop = some Stage.agent ∨ a.stop = some Stage.companion
    ∨ a.stop = some Stage.committing ∧ a.Commits
    ∨ a.demotion = Demotion.untouched ∧ ¬ (a.Commits ∧ a.Records sessionId target)

instance (a : Attempt) (sessionId : String) (target : MergedTarget) :
    Decidable (a.Exposed sessionId target) :=
  inferInstanceAs (Decidable (_ ∨ _))

/-- Evidence about a target may be gone, and there is none that was not there
before. -/
structure Trimmed (d d' : TargetState) : Prop where
  report : d'.report = d.report ∧ d'.provenance = d.provenance
    ∨ d'.report = FileRead.notFound
  candidateRunIds : d'.candidateRunIds = d.candidateRunIds
    ∨ d'.candidateRunIds = FileRead.notFound
  resultsAnalysis : d'.resultsAnalysis = d.resultsAnalysis
    ∨ d'.resultsAnalysis = FileRead.notFound
  verdictAt : d'.verdictAt = d.verdictAt
  committedAt : d'.committedAt = d.committedAt
  producedFor : d'.producedFor = d.producedFor

/-- What an attempt that ran the agent leaves. An implemented report is the
agent's, and next to it is the provenance of the coordinator's commit, unless
the coordinator cannot use the report or the attempt is exposed. -/
structure Produced (sessionId : String) (target : MergedTarget) (a : Attempt)
    (now : ℕ) (d d' : TargetState) : Prop extends Unmeasured now d d' where
  producedFor : d'.producedFor = some target
  implemented : ∀ r, d'.report = FileRead.parsed (OptimizerReport.implemented r) →
    a.report = FileRead.parsed (OptimizerReport.implemented r)
      ∧ (d'.provenance = FileRead.parsed (a.provenance sessionId target)
          ∧ a.Commits ∧ a.Records sessionId target
        ∨ ¬ r.Usable sessionId target ∨ a.Exposed sessionId target)

section Attempt

variable {sid : String} {t : MergedTarget} {a : Attempt} {now : ℕ}
  {d : TargetState}

theorem Unmeasured.refl (now : ℕ) (d : TargetState) : Unmeasured now d d :=
  ⟨rfl, rfl, rfl, rfl, rfl, Or.inl rfl⟩

theorem Unmeasured.trans {d₁ d₂ : TargetState} (h₁ : Unmeasured now d d₁)
    (h₂ : Unmeasured now d₁ d₂) : Unmeasured now d d₂ where
  candidateRunIds := h₂.candidateRunIds.trans h₁.candidateRunIds
  baselineRunIds := h₂.baselineRunIds.trans h₁.baselineRunIds
  resultsAnalysis := h₂.resultsAnalysis.trans h₁.resultsAnalysis
  binary := h₂.binary.trans h₁.binary
  verdictAt := h₂.verdictAt.trans h₁.verdictAt
  committedAt := h₂.committedAt.elim
    (fun h => h₁.committedAt.imp h.trans h.trans) Or.inr

theorem Coordinated.refl (now : ℕ) (d : TargetState) : Coordinated now d d :=
  ⟨Unmeasured.refl now d, rfl, fun _ h => h⟩

theorem Coordinated.trans {d₁ d₂ : TargetState} (h₁ : Coordinated now d d₁)
    (h₂ : Coordinated now d₁ d₂) : Coordinated now d d₂ :=
  ⟨h₁.toUnmeasured.trans h₂.toUnmeasured, h₂.producedFor.trans h₁.producedFor,
    fun r h => h₁.implemented r (h₂.implemented r h)⟩

/-- A demotion leaves no implemented report, unless it can do nothing at
all. -/
theorem coordinated_demote {reason : String} {o : Demotion} :
    Coordinated now d (demoteImplementedToAborted sid t reason o d).snd := by
  cases o with
  | untouched => exact Coordinated.refl now d
  | done =>
    exact ⟨⟨rfl, rfl, rfl, rfl, rfl, Or.inl rfl⟩, rfl, fun r h => by cases h⟩
  | rewritten =>
    exact ⟨⟨rfl, rfl, rfl, rfl, rfl, Or.inl rfl⟩, rfl, fun r h => by cases h⟩
  | renamed =>
    exact ⟨⟨rfl, rfl, rfl, rfl, rfl, Or.inl rfl⟩, rfl, fun r h => by cases h⟩

/-- A demotion that leaves an implemented report has done nothing. -/
theorem demote_untouched {reason : String} {o : Demotion}
    {r : ImplementedReport}
    (h : (demoteImplementedToAborted sid t reason o d).snd.report
      = FileRead.parsed (OptimizerReport.implemented r)) :
    o = Demotion.untouched
      ∧ (demoteImplementedToAborted sid t reason o d).snd = d := by
  cases o with
  | untouched => exact ⟨rfl, rfl⟩
  | done => cases h
  | rewritten => cases h
  | renamed => cases h

/-- Recording the commit sets the provenance, or demotes. -/
theorem writeCoordinatorProvenance_cases (sid : String) (t : MergedTarget)
    (a : Attempt) (now : ℕ) (d : TargetState) :
    a.Records sid t ∧ (writeCoordinatorProvenance sid t a now d).snd
        = { d with
            provenance := FileRead.parsed (a.provenance sid t)
            committedAt := now }
      ∨ ¬ a.Records sid t ∧ ∃ reason, writeCoordinatorProvenance sid t a now d
          = demoteImplementedToAborted sid t reason a.demotion
            (a.unrecorded sid t d) := by
  by_cases hrec :
      a.recordOk = true ∧ (a.provenance sid t).validateModel.isOk = true
  · refine Or.inl ⟨hrec, ?_⟩
    simp only [writeCoordinatorProvenance, if_pos hrec]
  · refine Or.inr ⟨hrec,
      "coordinator could not record provenance after commit", ?_⟩
    simp only [writeCoordinatorProvenance, if_neg hrec]

/-- Committing demotes, stops short of recording, or records. -/
theorem commitAndRecord_cases (sid : String) (t : MergedTarget) (a : Attempt)
    (now : ℕ) (d : TargetState) :
    (¬ a.Commits ∧ ∃ reason, commitAndRecord sid t a now d
        = demoteImplementedToAborted sid t reason a.demotion d)
      ∨ (a.Commits ∧ a.stop = some Stage.committing
        ∧ commitAndRecord sid t a now d
          = (bail "stopped after the commit", { d with checkout := some a.committed }))
      ∨ a.Commits ∧ commitAndRecord sid t a now d
        = writeCoordinatorProvenance sid t a now
          { d with checkout := some a.committed } := by
  simp only [commitAndRecord]
  split_ifs with hstatus hclean hadd hcommit hstop
  · exact Or.inl ⟨fun h => Bool.false_ne_true (hstatus.symm.trans h.left), _, rfl⟩
  · refine Or.inl ⟨fun h => ?_, _, rfl⟩
    exact Bool.false_ne_true (h.right.left.symm.trans hclean)
  · refine Or.inl ⟨fun h => ?_, _, rfl⟩
    exact Bool.false_ne_true (hadd.symm.trans h.right.right.left)
  · refine Or.inl ⟨fun h => ?_, _, rfl⟩
    exact Bool.false_ne_true (hcommit.symm.trans h.right.right.right)
  · have hcommits : a.Commits := ⟨Bool.eq_true_of_not_eq_false hstatus,
      Bool.eq_false_of_not_eq_true hclean, Bool.eq_true_of_not_eq_false hadd,
      Bool.eq_true_of_not_eq_false hcommit⟩
    exact Or.inr (Or.inl ⟨hcommits, hstop, rfl⟩)
  · have hcommits : a.Commits := ⟨Bool.eq_true_of_not_eq_false hstatus,
      Bool.eq_false_of_not_eq_true hclean, Bool.eq_true_of_not_eq_false hadd,
      Bool.eq_true_of_not_eq_false hcommit⟩
    exact Or.inr (Or.inr ⟨hcommits, rfl⟩)

theorem coordinated_checkout {c : Option Checkout} :
    Coordinated now d { d with checkout := c } :=
  ⟨⟨rfl, rfl, rfl, rfl, rfl, Or.inl rfl⟩, rfl, fun _ h => h⟩

/-- Failing to record leaves the report and what it was measured by. -/
theorem coordinated_unrecorded : Coordinated now d (a.unrecorded sid t d) := by
  unfold Attempt.unrecorded
  split_ifs
  · exact ⟨⟨rfl, rfl, rfl, rfl, rfl, Or.inl rfl⟩, rfl, fun _ h => h⟩
  · exact Coordinated.refl now d

theorem coordinated_writeCoordinatorProvenance :
    Coordinated now d (writeCoordinatorProvenance sid t a now d).snd := by
  obtain ⟨-, h⟩ | ⟨-, reason, h⟩ := writeCoordinatorProvenance_cases sid t a now d
  · rw [h]
    exact ⟨⟨rfl, rfl, rfl, rfl, rfl, Or.inr rfl⟩, rfl, fun _ h => h⟩
  · rw [h]
    exact coordinated_unrecorded.trans coordinated_demote

theorem coordinated_commitAndRecord :
    Coordinated now d (commitAndRecord sid t a now d).snd := by
  obtain ⟨-, reason, h⟩ | ⟨-, -, h⟩ | ⟨-, h⟩ := commitAndRecord_cases sid t a now d
  · rw [h]
    exact coordinated_demote
  · rw [h]
    exact coordinated_checkout
  · rw [h]
    exact coordinated_checkout.trans coordinated_writeCoordinatorProvenance

/-- An implemented report that is left after committing has the provenance of
the commit next to it, or the attempt was exposed. -/
theorem commitAndRecord_implemented {r : ImplementedReport}
    (hr : (commitAndRecord sid t a now d).snd.report
      = FileRead.parsed (OptimizerReport.implemented r)) :
    (commitAndRecord sid t a now d).snd.provenance
        = FileRead.parsed (a.provenance sid t) ∧ a.Commits ∧ a.Records sid t
      ∨ a.Exposed sid t := by
  have hdemoted : ∀ {reason : String} {d₁ : TargetState},
      (demoteImplementedToAborted sid t reason a.demotion d₁).snd.report
        = FileRead.parsed (OptimizerReport.implemented r) →
      ¬ (a.Commits ∧ a.Records sid t) → a.Exposed sid t :=
    fun h hnot => Or.inr (Or.inr (Or.inr ⟨(demote_untouched h).left, hnot⟩))
  obtain ⟨hnot, reason, h⟩ | ⟨hcommits, hstop, -⟩ | ⟨hcommits, h⟩ :=
    commitAndRecord_cases sid t a now d
  · rw [h] at hr
    exact Or.inr (hdemoted hr fun hc => hnot hc.left)
  · exact Or.inr (Or.inr (Or.inr (Or.inl ⟨hstop, hcommits⟩)))
  · rw [h] at hr ⊢
    obtain ⟨hrec, h'⟩ | ⟨hnot, reason, h'⟩ := writeCoordinatorProvenance_cases sid t a
      now { d with checkout := some a.committed }
    · exact Or.inl ⟨by rw [h'], hcommits, hrec⟩
    · rw [h'] at hr
      exact Or.inr (hdemoted hr fun hc => hnot hc.right)

/-- Whether the report can be acted on. -/
theorem report_usable_iff {r : OptimizerReport} {f : FileRead OptimizerReport} :
    (readOptimizerReport t.id f = Except.ok (some r)
        ∧ validateReportContext r t.id sid t.deliveryMode = Except.ok ())
      ↔ f = FileRead.parsed r ∧ r.validateModel = Except.ok ()
        ∧ r.targetId = t.id ∧ r.sessionId = sid
        ∧ r.deliveryMode = t.deliveryMode := by
  rw [validateReportContext, OptimizerReport.checkContext_ok_iff,
    readOptimizerReport, FileRead.readOptional_ok_some_iff, and_assoc]

/-- The coordinator does nothing with a report that it cannot use, writes the
companion of one that it can, and goes on to commit if there is something to
commit. -/
theorem coordinatorCommitIfKept_cases (sid : String) (t : MergedTarget)
    (a : Attempt) (now : ℕ) (d : TargetState) :
    (coordinatorCommitIfKept sid t a now d).snd = d
        ∧ (∀ r, d.report = FileRead.parsed (OptimizerReport.implemented r) →
          ¬ r.Usable sid t ∨ a.Exposed sid t)
      ∨ (∃ r, d.report = FileRead.parsed (OptimizerReport.aborted r))
        ∧ (coordinatorCommitIfKept sid t a now d).snd = { d with abortMd := true }
      ∨ coordinatorCommitIfKept sid t a now d
        = commitAndRecord sid t a now { d with implementationMd := true } := by
  have hno : ∀ r, ¬ r.Usable sid t →
      ¬ (readOptimizerReport t.id d.report
          = Except.ok (some (OptimizerReport.implemented r))
        ∧ validateReportContext (OptimizerReport.implemented r) t.id sid
          t.deliveryMode = Except.ok ()) :=
    fun r hr h => hr (report_usable_iff.mp h).right
  cases hread : readOptimizerReport t.id d.report with
  | error e =>
    refine Or.inl ⟨by simp only [coordinatorCommitIfKept, hread], fun r hr => ?_⟩
    refine Or.inl fun hu => ?_
    have h := (report_usable_iff.mpr ⟨hr, hu⟩).left
    rw [hread] at h
    cases h
  | ok o =>
    cases o with
    | none =>
      refine Or.inl ⟨by simp only [coordinatorCommitIfKept, hread], fun r hr => ?_⟩
      rw [FileRead.readOptional_ok_none_iff.mp hread] at hr
      cases hr
    | some report =>
      obtain ⟨hf, -⟩ := FileRead.readOptional_ok_some_iff.mp hread
      cases hctx : validateReportContext report t.id sid t.deliveryMode with
      | error e =>
        refine Or.inl ⟨by simp only [coordinatorCommitIfKept, hread, hctx],
          fun r hr => Or.inl fun hu => ?_⟩
        obtain rfl : report = OptimizerReport.implemented r :=
          FileRead.parsed.inj (hf.symm.trans hr)
        rw [(report_usable_iff.mpr ⟨hr, hu⟩).right] at hctx
        cases hctx
      | ok u =>
        by_cases hstop : a.stop = some Stage.companion
        · refine Or.inl ⟨by
            simp only [coordinatorCommitIfKept, hread, hctx, if_pos hstop], ?_⟩
          exact fun r _ => Or.inr (Or.inr (Or.inl hstop))
        · cases report with
          | aborted r =>
            refine Or.inr (Or.inl ⟨⟨r, hf⟩, ?_⟩)
            simp [coordinatorCommitIfKept, hread, hctx, hstop,
              OptimizerReport.isImplemented]
          | implemented r =>
            refine Or.inr (Or.inr ?_)
            simp [coordinatorCommitIfKept, hread, hctx, hstop,
              OptimizerReport.isImplemented]

/-- The last check does nothing, or demotes. -/
theorem verifyKeptOrDemote_cases (sid : String) (t : MergedTarget) (a : Attempt)
    (d : TargetState) :
    (verifyKeptOrDemote sid t a d).snd = d
      ∨ ∃ reason, verifyKeptOrDemote sid t a d
        = demoteImplementedToAborted sid t reason a.demotion d := by
  unfold verifyKeptOrDemote
  cases readOptimizerReport t.id d.report with
  | error e => exact Or.inl rfl
  | ok o =>
    cases o with
    | none => exact Or.inl rfl
    | some report =>
      cases hctx : validateReportContext report t.id sid t.deliveryMode with
      | error e =>
        left
        simp only [hctx]
      | ok u =>
        simp only [hctx]
        split_ifs
        · exact Or.inr ⟨_, rfl⟩
        · exact Or.inl rfl

theorem coordinated_coordinatorCommitIfKept :
    Coordinated now d (coordinatorCommitIfKept sid t a now d).snd := by
  obtain ⟨h, -⟩ | ⟨-, h⟩ | h := coordinatorCommitIfKept_cases sid t a now d
  · rw [h]
    exact Coordinated.refl now d
  · rw [h]
    exact ⟨⟨rfl, rfl, rfl, rfl, rfl, Or.inl rfl⟩, rfl, fun _ h => h⟩
  · rw [h]
    have hmd : Coordinated now d { d with implementationMd := true } :=
      ⟨⟨rfl, rfl, rfl, rfl, rfl, Or.inl rfl⟩, rfl, fun _ h => h⟩
    exact hmd.trans coordinated_commitAndRecord

/-- The coordinator's side of an attempt is its commit, and then possibly a
last demotion. -/
theorem coordinate_cases (sid : String) (t : MergedTarget) (a : Attempt)
    (now : ℕ) (d : TargetState) :
    (coordinate sid t a now d).snd = (coordinatorCommitIfKept sid t a now d).snd
      ∨ ∃ reason, (coordinate sid t a now d).snd
        = (demoteImplementedToAborted sid t reason a.demotion
          (coordinatorCommitIfKept sid t a now d).snd).snd := by
  simp only [coordinate]
  cases (coordinatorCommitIfKept sid t a now d).fst with
  | error e => exact Or.inl rfl
  | ok u =>
    by_cases hstop : a.stop = some Stage.recorded
    · left
      simp only [if_pos hstop]
    · simp only [if_neg hstop]
      obtain h | ⟨reason, h⟩ := verifyKeptOrDemote_cases sid t a
        (coordinatorCommitIfKept sid t a now d).snd
      · exact Or.inl h
      · exact Or.inr ⟨reason, by rw [h]⟩

theorem coordinated_coordinate :
    Coordinated now d (coordinate sid t a now d).snd := by
  obtain h | ⟨reason, h⟩ := coordinate_cases sid t a now d
  · rw [h]
    exact coordinated_coordinatorCommitIfKept
  · rw [h]
    exact coordinated_coordinatorCommitIfKept.trans coordinated_demote

/-- An implemented report that is left by the coordinator's commit is one that
it cannot use, has the provenance of the commit next to it, or was left by an
exposed attempt. -/
theorem coordinatorCommitIfKept_implemented {r : ImplementedReport}
    (hr : (coordinatorCommitIfKept sid t a now d).snd.report
      = FileRead.parsed (OptimizerReport.implemented r)) :
    (coordinatorCommitIfKept sid t a now d).snd.provenance
        = FileRead.parsed (a.provenance sid t) ∧ a.Commits ∧ a.Records sid t
      ∨ ¬ r.Usable sid t ∨ a.Exposed sid t := by
  obtain ⟨h, huse⟩ | ⟨⟨r', hab⟩, h⟩ | h := coordinatorCommitIfKept_cases sid t a now d
  · rw [h] at hr
    exact Or.inr (huse r hr)
  · rw [h] at hr
    cases hab.symm.trans hr
  · rw [h] at hr ⊢
    exact (commitAndRecord_implemented hr).imp_right Or.inr

/-- So is one that is left by the whole of the coordinator's side. -/
theorem coordinate_implemented {r : ImplementedReport}
    (hr : (coordinate sid t a now d).snd.report
      = FileRead.parsed (OptimizerReport.implemented r)) :
    (coordinate sid t a now d).snd.provenance
        = FileRead.parsed (a.provenance sid t) ∧ a.Commits ∧ a.Records sid t
      ∨ ¬ r.Usable sid t ∨ a.Exposed sid t := by
  have heq : (coordinate sid t a now d).snd
      = (coordinatorCommitIfKept sid t a now d).snd := by
    obtain hc | ⟨reason, hc⟩ := coordinate_cases sid t a now d
    · exact hc
    · rw [hc] at hr ⊢
      exact (demote_untouched hr).right
  rw [heq] at hr ⊢
  exact coordinatorCommitIfKept_implemented hr

theorem Trimmed.refl (d : TargetState) : Trimmed d d :=
  ⟨Or.inl ⟨rfl, rfl⟩, Or.inl rfl, Or.inl rfl, rfl, rfl, rfl⟩

/-- The clone is no evidence. -/
theorem trimmed_checkout {c : Option Checkout} :
    Trimmed d { d with checkout := c } :=
  ⟨Or.inl ⟨rfl, rfl⟩, Or.inl rfl, Or.inl rfl, rfl, rfl, rfl⟩

/-- An attempt that stops before the agent runs brings nothing that was not
there before. -/
theorem trimmed_attemptOptimizer (hstart : a.stop ≠ some Stage.starting)
    (hnot : ¬ a.Invoked) : Trimmed d (attemptOptimizer sid t a now d).snd := by
  unfold attemptOptimizer
  split
  case h_1 => exact trimmed_checkout
  case h_2 => exact trimmed_checkout
  case h_3 => exact ⟨Or.inr rfl, Or.inl rfl, Or.inl rfl, rfl, rfl, rfl⟩
  case h_4 hstop => exact absurd (by simp [Attempt.Invoked, hstop]) hnot
  case h_5 hrec hclone hprep _ => exact absurd ⟨hstart, hrec, hclone, hprep⟩ hnot

/-- **What an attempt leaves that runs the agent.** -/
theorem produced_attemptOptimizer (hinvoked : a.Invoked) :
    Produced sid t a now d (attemptOptimizer sid t a now d).snd := by
  obtain ⟨-, hrec, hclone, hprep⟩ := hinvoked
  have hleft : Unmeasured now d (a.invoked t d) :=
    ⟨rfl, rfl, rfl, rfl, rfl, Or.inl rfl⟩
  unfold attemptOptimizer
  split
  case h_1 hstop => exact absurd hstop hrec
  case h_2 hstop => exact absurd hstop hclone
  case h_3 hstop => exact absurd hstop hprep
  case h_4 hstop =>
    exact ⟨hleft, rfl, fun r hr => ⟨hr, Or.inr (Or.inr (Or.inl hstop))⟩⟩
  case h_5 =>
    have hcoord : Coordinated now (a.invoked t d)
        (coordinate sid t a now (a.invoked t d)).snd := coordinated_coordinate
    refine ⟨hleft.trans hcoord.toUnmeasured, hcoord.producedFor, fun r hr => ?_⟩
    exact ⟨hcoord.implemented r hr, coordinate_implemented hr⟩

/-- **What a run leaves of a target.** Either nothing has come that was not
there before, or the target is one that an attempt is due for, and the agent
was run. -/
theorem runOne_cases (sid : String) (manifest : FileRead BaselineBinaryManifest)
    (t : MergedTarget) (resume : Bool) (a : Attempt) (now : ℕ)
    (d : TargetState) :
    Trimmed d (runOne sid manifest t resume a now d).snd
      ∨ decideOne sid manifest t resume d = Decision.attempted ∧ a.Invoked
        ∧ Produced sid t a now d (runOne sid manifest t resume a now d).snd := by
  have hcleared : ∀ n, Trimmed d { d.clearOptimizerArtifacts with
      consensusIssue := n } :=
    fun n => ⟨Or.inr rfl, Or.inl rfl, Or.inl rfl, rfl, rfl, rfl⟩
  unfold runOne
  by_cases hstart : a.stop = some Stage.starting
  · rw [if_pos hstart]
    exact Or.inl (Trimmed.refl d)
  · rw [if_neg hstart]
    cases hd : decideOne sid manifest t resume d with
    | routed =>
      left
      by_cases hprep : a.stop = some Stage.preparing
      · simp only [if_pos hprep]
        exact hcleared d.consensusIssue
      · simp only [if_neg hprep]
        exact hcleared _
    | refused e => exact Or.inl (Trimmed.refl d)
    | skipped => exact Or.inl (Trimmed.refl d)
    | attempted =>
      by_cases hinvoked : a.Invoked
      · exact Or.inr ⟨rfl, hinvoked, produced_attemptOptimizer hinvoked⟩
      · exact Or.inl (trimmed_attemptOptimizer hstart hinvoked)

/-- A run leaves the measurement of the baseline alone. -/
theorem runOne_baselineRunIds (sid : String)
    (manifest : FileRead BaselineBinaryManifest) (t : MergedTarget)
    (resume : Bool) (a : Attempt) (now : ℕ) (d : TargetState) :
    (runOne sid manifest t resume a now d).snd.baselineRunIds
      = d.baselineRunIds := by
  unfold runOne
  by_cases hstart : a.stop = some Stage.starting
  · rw [if_pos hstart]
  · rw [if_neg hstart]
    cases hd : decideOne sid manifest t resume d with
    | routed => by_cases hprep : a.stop = some Stage.preparing <;> simp only [hprep] <;> rfl
    | refused e => rfl
    | skipped => rfl
    | attempted =>
      by_cases hinvoked : a.Invoked
      · exact (produced_attemptOptimizer hinvoked).baselineRunIds
      · show (attemptOptimizer sid t a now d).snd.baselineRunIds = _
        unfold attemptOptimizer
        split
        case h_1 => rfl
        case h_2 => rfl
        case h_3 => rfl
        case h_4 hstop => exact absurd (by simp [Attempt.Invoked, hstop]) hinvoked
        case h_5 hrec hclone hprep _ =>
          exact absurd ⟨hstart, hrec, hclone, hprep⟩ hinvoked

end Attempt
