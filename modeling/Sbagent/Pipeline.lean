import Sbagent.Finalize
import Sbagent.Optimizer
import Sbagent.Runs

/-!
# The phases of a session

A session is a directory that one command after another works on. The
baseline binary is archived, the targets are merged, the baseline is
calibrated on each target's replay, the optimizers run, what they committed is
benchmarked, the results are analyzed, and finalizing reads it all. Every
command can be run again at any time, and for most of them there is a command
that clears what they left. Each reads what it needs from the files it finds,
so what a file means depends on the commands before it.

The state `Session` is what the commands leave behind: the files, the clones,
and the database of benchmark runs, which sessions share. An `Event` is what
one command does about one target, together with what the environment
contributes: what an agent leaves, how far a benchmark gets. A command that
works on all targets is a sequence of events, and a command that fails on one
of them is a shorter sequence. Finalizing changes nothing that the others
read, and is not an event but a function of the state.

An agent is taken to write what it was asked for and nothing else, a file is
taken to be written as a whole or not at all, and deleting is taken to
succeed.
-/

open Fallible

/-! ## The state of a session -/

/-- A row of the benchmark database. -/
structure BenchRun where
  /-- What the binary was built from. -/
  builtFrom : Checkout
  invocation : BenchInvocation
  recordedAt : ℕ

/-- The state of a session. -/
structure Session where
  id : String
  targets : FileRead OptimizationTargets
  source : FileRead SourceJson
  manifest : FileRead BaselineBinaryManifest
  /-- The archived binary, by what it was built from. -/
  baselineBinary : Option Checkout
  target : String → TargetState
  runs : ℤ → Option BenchRun
  /-- How many events there have been. -/
  now : ℕ

namespace Session

/-- A session that has just been started. -/
def start (id : String) (source : FileRead SourceJson) : Session where
  id := id
  targets := FileRead.notFound
  source := source
  manifest := FileRead.notFound
  baselineBinary := none
  target := fun _ => TargetState.fresh
  runs := fun _ => none
  now := 1

/-- The files that finalizing reads. -/
def files (s : Session) : SessionFiles where
  id := s.id
  optimizerReport := fun id => (s.target id).report
  consensusIssue := fun id => (s.target id).consensusIssue
  coordinatorProvenance := fun id => (s.target id).provenance
  candidateRunIds := fun id => (s.target id).candidateRunIds
  baselineRunIds := fun id => (s.target id).baselineRunIds
  resultsAnalysis := fun id => (s.target id).resultsAnalysis
  source := s.source

/-- The targets that a command goes through. -/
def mergedTargets (s : Session) : List MergedTarget :=
  match readOptimizationTargets s.targets with
  | Except.ok targets => targets.targets
  | Except.error _ => []

/-- Replace the state of one target. -/
def set (s : Session) (id : String) (d : TargetState) : Session :=
  { s with target := Function.update s.target id d }

end Session

/-! ## Measuring -/

/-- How a series of benchmark runs goes. -/
structure Measurement where
  /-- The ids of the runs that came to an end, in the order of the
  invocations. -/
  runIds : List ℤ
  /-- Whether the ids could be written in the end. -/
  written : Bool

/-- The invocations of a target's replay. -/
def MergedTarget.invocations (t : MergedTarget) : List BenchInvocation :=
  (t.verificationReplay.map fun vr => vr.invocations).getD []

namespace Measurement

/-- The ids are new in the database, and there are not more of them than
invocations. -/
def possible (m : Measurement) (s : Session) (invs : List BenchInvocation) :
    Bool :=
  m.runIds.length ≤ invs.length && decide m.runIds.Nodup
    && m.runIds.all fun id => decide (0 < id) && (s.runs id).isNone

/-- The contents of a run-id file. -/
def entries (m : Measurement) (invs : List BenchInvocation) : InvocationRunIds :=
  ⟨(m.runIds.zip invs).map fun r => ⟨r.snd.id, r.fst⟩⟩

/-- The run-id file after a series: only a series that came to its end writes
it, and writes it if it is valid. -/
def runIdsFile (m : Measurement) (invs : List BenchInvocation)
    (old : FileRead InvocationRunIds) : FileRead InvocationRunIds :=
  if m.runIds.length = invs.length
      ∧ (m.entries invs).validateModel.isOk = true ∧ m.written = true then
    FileRead.parsed (m.entries invs)
  else old

/-- The database after a series. -/
def recorded (m : Measurement) (builtFrom : Checkout)
    (invs : List BenchInvocation) (now : ℕ) (runs : ℤ → Option BenchRun) :
    ℤ → Option BenchRun :=
  fun id =>
    match (m.runIds.zip invs).find? fun r => decide (r.fst = id) with
    | some r => some ⟨builtFrom, r.snd, now⟩
    | none => runs id

end Measurement

/-! ## The commands -/

/-- How far archiving the baseline binary gets. -/
inductive Archival where
  /-- Nothing was archived. -/
  | failed
  /-- The binary was copied, its manifest was not written. -/
  | copied
  | done
  deriving DecidableEq

/-- A delivery mode in a message of the benchmark. -/
def deliveryModeStr : DeliveryMode → String
  | DeliveryMode.normalPr => "normal_pr"
  | DeliveryMode.consensusPocPr => "consensus_poc_pr"
  | DeliveryMode.consensusIssue => "consensus_issue"

/-- Why there is nothing to benchmark about a target, if there is nothing. -/
def staticSkipReason (files : SessionFiles) (target : MergedTarget) :
    Option String :=
  if target.benchEligible = false then
    some s!"not bench_eligible (delivery_mode={deliveryModeStr target.deliveryMode})"
  else if (files.consensusIssue target.id).isSome then
    some "consensus-issue (no optimizer ran)"
  else
    match files.readOptimizerReportForTarget target.id target.deliveryMode with
    | Except.ok (some (OptimizerReport.implemented _)) => none
    | Except.ok (some (OptimizerReport.aborted _)) =>
      some "aborted (optimizer report outcome=aborted)"
    | Except.ok none => some "aborted (no optimizer-report.json on disk)"
    | Except.error e => some s!"aborted (optimizer-report error: {alternate e})"

/-- Whether the results of a target can be analyzed. -/
inductive Eligibility where
  | eligible
  | skip (reason : String)
  deriving DecidableEq

/-- The eligibility of a target whose report was looked for. -/
def reportEligibility (files : SessionFiles) (target : MergedTarget) :
    Option OptimizerReport → Eligibility
  | none => Eligibility.skip "no optimizer-report.json on disk"
  | some (OptimizerReport.aborted _) =>
    Eligibility.skip "optimizer report outcome=aborted"
  | some (OptimizerReport.implemented _) =>
    if files.candidateRunIds target.id = FileRead.notFound then
      Eligibility.skip ("no candidate-run-ids.json at "
        ++ s!"optimize/{target.id}/candidate-run-ids.json")
    else if files.baselineRunIds target.id = FileRead.notFound then
      Eligibility.skip ("no baseline-run-ids.json at "
        ++ s!"verify/{target.id}/baseline-run-ids.json")
    else Eligibility.eligible

/-- Whether the results of a target can be analyzed: there is an
implementation and both measurements. -/
def eligibility (files : SessionFiles) (target : MergedTarget) :
    Fallible Eligibility :=
  if target.deliveryMode ≠ DeliveryMode.normalPr then
    Except.ok (Eligibility.skip
      s!"not bench_eligible (delivery_mode={target.deliveryMode.debug})")
  else do
    let report ← files.readOptimizerReportForTarget target.id target.deliveryMode
    return reportEligibility files target report

namespace TargetState

/-- Clear the optimizer's directory of a target, and its clone. -/
def optimizeCleaned (d : TargetState) : TargetState :=
  { d with
    report := FileRead.notFound
    demoted := FileRead.notFound
    implementationMd := false
    abortMd := false
    provenance := FileRead.notFound
    consensusIssue := none
    binary := none
    candidateRunIds := FileRead.notFound
    checkout := none }

/-- The binary that was built, and the run ids of its measurement. -/
def benched (d : TargetState) (t : MergedTarget) (c : Checkout)
    (m : Measurement) : TargetState :=
  { d with
    binary := some c
    candidateRunIds := m.runIdsFile t.invocations d.candidateRunIds }

/-- Whether the cleanup at the end of a session keeps the clone of a target:
publishing needs it when there is an implementation. -/
def keepsCheckout (d : TargetState) (id : String) : Bool :=
  match readOptimizerReport id d.report with
  | Except.ok (some report) => report.isImplemented
  | Except.ok none => false
  | Except.error _ => false

end TargetState

namespace Session

/-- Archive the baseline binary and write its manifest. -/
def archiveBaseline (s : Session) (base : Checkout) : Archival → Session
  | Archival.failed => s
  | Archival.copied => { s with baselineBinary := some base }
  | Archival.done =>
    { s with
      baselineBinary := some base
      manifest := FileRead.parsed ⟨base.head, !base.clean⟩ }

/-- Measure the baseline on the invocations of a target. -/
def calibrate (s : Session) (t : MergedTarget) (m : Measurement) : Session :=
  if t.deliveryMode = DeliveryMode.normalPr then
    match s.baselineBinary with
    | none => s
    | some c =>
      { s.set t.id { s.target t.id with
            baselineRunIds := m.runIdsFile t.invocations
              (s.target t.id).baselineRunIds } with
        runs := m.recorded c t.invocations s.now s.runs }
  else s

/-- Run the optimizer on a target. -/
def optimize (s : Session) (t : MergedTarget) (resume : Bool) (a : Attempt) :
    Session :=
  s.set t.id (runOne s.id s.manifest t resume a s.now (s.target t.id)).snd

/-- Build the clone of a target and measure the binary. Without a measurement
the build has failed. -/
def bench (s : Session) (t : MergedTarget) (m : Option Measurement) : Session :=
  match staticSkipReason s.files t, (s.target t.id).checkout, m with
  | none, some c, some m =>
    { s.set t.id ((s.target t.id).benched t c m) with
      runs := m.recorded c t.invocations s.now s.runs }
  | _, _, _ => s

/-- Let an agent judge the measurements of a target. It may leave no file at
all. -/
def analyze (s : Session) (t : MergedTarget)
    (left : Option (FileRead ResultsAnalysis)) : Session :=
  match eligibility s.files t, left with
  | Except.ok Eligibility.eligible, some ra =>
    s.set t.id { s.target t.id with resultsAnalysis := ra, verdictAt := s.now }
  | _, _ => s

/-- Let an agent write a pull request. It can change the clone. -/
def publishGenerate (s : Session) (t : MergedTarget) (left : Checkout) : Session :=
  match (s.target t.id).checkout with
  | some _ => s.set t.id { s.target t.id with checkout := some left }
  | none => s

/-- Remove the clones with no implementation in them, as far as that works. -/
def pruneAborted (s : Session) (failed : List String) : Session :=
  { s with
    target := fun id =>
      if (s.target id).keepsCheckout id || decide (id ∈ failed) then s.target id
      else { s.target id with checkout := none } }

/-- Clear the measurements: those of the baseline all, and those of the
candidates whose targets are known. Targets that cannot be read are an
error. -/
def benchClean (s : Session) : Session :=
  if s.targets = FileRead.notFound then
    { s with
      target := fun id => { s.target id with baselineRunIds := FileRead.notFound } }
  else
    match readOptimizationTargets s.targets with
    | Except.error _ => s
    | Except.ok targets =>
      { s with
        target := fun id =>
          { s.target id with
            baselineRunIds := FileRead.notFound
            candidateRunIds :=
              if id ∈ targets.targets.map fun t => t.id then FileRead.notFound
              else (s.target id).candidateRunIds } }

/-- Clear the verdicts. -/
def analyzeClean (s : Session) : Session :=
  { s with
    target := fun id => { s.target id with resultsAnalysis := FileRead.notFound } }

/-- Clear what the optimizers left. -/
def optimizeClean (s : Session) : Session :=
  { s with target := fun id => (s.target id).optimizeCleaned }

/-- Clear the baseline. -/
def baselineClean (s : Session) : Session :=
  { s with manifest := FileRead.notFound, baselineBinary := none }

end Session

/-! ## Steps -/

/-- What can happen to a session. -/
inductive Event where
  /-- The targets are merged, or cleared. -/
  | merge (doc : FileRead OptimizationTargets)
  | archiveBaseline (base : Checkout) (outcome : Archival)
  | calibrate (t : MergedTarget) (m : Measurement)
  | optimize (t : MergedTarget) (resume : Bool) (a : Attempt)
  | bench (t : MergedTarget) (m : Option Measurement)
  | analyze (t : MergedTarget) (left : Option (FileRead ResultsAnalysis))
  | publishGenerate (t : MergedTarget) (left : Checkout)
  | pruneAborted (failed : List String)
  | benchClean
  | analyzeClean
  | optimizeClean
  | baselineClean
  /-- Another session measures something. -/
  | elsewhere (c : Checkout) (invs : List BenchInvocation) (m : Measurement)

/-- Whether an event can happen: a command works on the targets that are
merged, and the database gives every run a new id. -/
def Event.enabled (s : Session) : Event → Bool
  | calibrate t m =>
    decide (t ∈ s.mergedTargets) && m.possible s t.invocations
  | optimize t _ _ => decide (t ∈ s.mergedTargets)
  | bench t m =>
    decide (t ∈ s.mergedTargets) && m.all fun m => m.possible s t.invocations
  | analyze t _ => decide (t ∈ s.mergedTargets)
  | publishGenerate t _ => decide (t ∈ s.mergedTargets)
  | elsewhere _ invs m => m.possible s invs
  | _ => true

/-- What an event makes of the state. -/
def Session.after (s : Session) : Event → Session
  | Event.merge doc => { s with targets := doc }
  | Event.archiveBaseline base outcome => s.archiveBaseline base outcome
  | Event.calibrate t m => s.calibrate t m
  | Event.optimize t resume a => s.optimize t resume a
  | Event.bench t m => s.bench t m
  | Event.analyze t left => s.analyze t left
  | Event.publishGenerate t left => s.publishGenerate t left
  | Event.pruneAborted failed => s.pruneAborted failed
  | Event.benchClean => s.benchClean
  | Event.analyzeClean => s.analyzeClean
  | Event.optimizeClean => s.optimizeClean
  | Event.baselineClean => s.baselineClean
  | Event.elsewhere c invs m => { s with runs := m.recorded c invs s.now s.runs }

/-- One event. -/
def step (s : Session) (e : Event) : Option Session :=
  if e.enabled s then some { s.after e with now := s.now + 1 } else none

theorem step_eq_some_iff {s s' : Session} {e : Event} :
    step s e = some s'
      ↔ e.enabled s = true ∧ s' = { s.after e with now := s.now + 1 } := by
  by_cases h : e.enabled s = true
  · rw [step, if_pos h, Option.some_inj]
    exact ⟨fun hs => ⟨h, hs.symm⟩, fun hs => hs.right.symm⟩
  · rw [step, if_neg h]
    simp [h]

/-! ## What an event leaves alone -/

section Measurement

variable {m : Measurement} {s : Session} {c : Checkout}
  {invs : List BenchInvocation} {now : ℕ}

theorem Measurement.possible_iff : m.possible s invs = true
    ↔ m.runIds.length ≤ invs.length ∧ m.runIds.Nodup
      ∧ ∀ id ∈ m.runIds, 0 < id ∧ s.runs id = none := by
  simp [Measurement.possible, and_assoc]

/-- A row of the database after a series was there before, or is of the
series. -/
theorem Measurement.recorded_cases {runs : ℤ → Option BenchRun} {id : ℤ}
    {run : BenchRun} (h : m.recorded c invs now runs id = some run) :
    runs id = some run
      ∨ id ∈ m.runIds ∧ run.builtFrom = c ∧ run.recordedAt = now := by
  unfold Measurement.recorded at h
  cases hf : (m.runIds.zip invs).find? fun r => decide (r.fst = id) with
  | none =>
    rw [hf] at h
    exact Or.inl h
  | some r =>
    rw [hf] at h
    obtain rfl := Option.some.inj h
    have hr : r.fst = id := by simpa using List.find?_some hf
    have hmem := (List.of_mem_zip (List.mem_of_find?_eq_some hf)).left
    exact Or.inr ⟨hr ▸ hmem, rfl, rfl⟩

/-- The rows that were there stay. -/
theorem Measurement.recorded_of_some {id : ℤ} {run : BenchRun}
    (hp : m.possible s invs = true) (h : s.runs id = some run) :
    m.recorded c invs now s.runs id = some run := by
  have hne : ∀ r ∈ m.runIds.zip invs, ¬ decide (r.fst = id) = true := by
    intro r hr hid
    have hnew := (Measurement.possible_iff.mp hp).right.right r.fst
      (List.of_mem_zip hr).left
    rw [of_decide_eq_true hid, h] at hnew
    cases hnew.right
  unfold Measurement.recorded
  rw [List.find?_eq_none.mpr hne]
  exact h

/-- The run-id file after a series is the old one, or names runs of the
series. -/
theorem Measurement.runIdsFile_cases {old : FileRead InvocationRunIds}
    (runs : ℤ → Option BenchRun) {ids : InvocationRunIds}
    (h : m.runIdsFile invs old = FileRead.parsed ids) :
    old = FileRead.parsed ids
      ∨ ∀ e ∈ ids.entries, ∃ run, m.recorded c invs now runs e.runId = some run
        ∧ run.builtFrom = c ∧ run.recordedAt = now := by
  unfold Measurement.runIdsFile at h
  split at h
  case isFalse => exact Or.inl h
  case isTrue hdone =>
    obtain rfl := FileRead.parsed.inj h
    refine Or.inr fun e he => ?_
    obtain ⟨r, hr, rfl⟩ := List.mem_map.mp he
    show ∃ run, m.recorded c invs now runs r.fst = some run ∧ _
    unfold Measurement.recorded
    cases hf : (m.runIds.zip invs).find? fun r' => decide (r'.fst = r.fst) with
    | none => simpa using List.find?_eq_none.mp hf r hr
    | some r' => exact ⟨_, rfl, rfl, rfl⟩

end Measurement

/-! ## What an event does to one target -/

section After

variable {s : Session} {e : Event}

@[simp] theorem Session.set_target_self (s : Session) (id : String)
    (d : TargetState) : (s.set id d).target id = d := Function.update_self ..

@[simp] theorem Session.set_target_of_ne {s : Session} {id id' : String}
    {d : TargetState} (h : id' ≠ id) : (s.set id d).target id' = s.target id' :=
  Function.update_of_ne h ..

/-- Replacing the state of one target by less is no more than that. -/
theorem trimmed_set {id id' : String} {d : TargetState}
    (h : Trimmed (s.target id) d) : Trimmed (s.target id') ((s.set id d).target id') := by
  by_cases hid : id' = id
  · subst hid
    rwa [Session.set_target_self]
  · rw [Session.set_target_of_ne hid]
    exact Trimmed.refl _

theorem calibrate_cases (s : Session) (t : MergedTarget) (m : Measurement) :
    s.calibrate t m = s ∨ ∃ c, s.calibrate t m
      = { s.set t.id { s.target t.id with
              baselineRunIds := m.runIdsFile t.invocations
                (s.target t.id).baselineRunIds } with
          runs := m.recorded c t.invocations s.now s.runs } := by
  unfold Session.calibrate
  split
  case isFalse => exact Or.inl rfl
  case isTrue =>
    cases s.baselineBinary with
    | none => exact Or.inl rfl
    | some c => exact Or.inr ⟨c, rfl⟩

theorem bench_cases (s : Session) (t : MergedTarget) (m : Option Measurement) :
    s.bench t m = s ∨ ∃ c m', m = some m' ∧ staticSkipReason s.files t = none
      ∧ (s.target t.id).checkout = some c
      ∧ s.bench t m = { s.set t.id ((s.target t.id).benched t c m') with
          runs := m'.recorded c t.invocations s.now s.runs } := by
  unfold Session.bench
  split
  case h_1 c m' hskip hc => exact Or.inr ⟨c, m', rfl, hskip, hc, rfl⟩
  case h_2 => exact Or.inl rfl

theorem analyze_cases (s : Session) (t : MergedTarget)
    (left : Option (FileRead ResultsAnalysis)) :
    s.analyze t left = s ∨ ∃ ra, left = some ra
      ∧ s.analyze t left = s.set t.id { s.target t.id with
          resultsAnalysis := ra, verdictAt := s.now } := by
  unfold Session.analyze
  split
  case h_1 ra _ => exact Or.inr ⟨ra, rfl, rfl⟩
  case h_2 => exact Or.inl rfl

/-- **What an event can bring to a target**: the outcome of an attempt, a
measurement of the candidate, or a verdict. All other events, and each event
for all other targets, bring nothing. -/
theorem after_target_cases (s : Session) (e : Event) (id : String) :
    Trimmed (s.target id) ((s.after e).target id)
      ∨ (∃ t resume a, e = Event.optimize t resume a ∧ t.id = id
        ∧ decideOne s.id s.manifest t resume (s.target id) = Decision.attempted
        ∧ a.Invoked
        ∧ Produced s.id t a s.now (s.target id) ((s.after e).target id))
      ∨ (∃ t c m, e = Event.bench t (some m) ∧ t.id = id
        ∧ staticSkipReason s.files t = none ∧ (s.target id).checkout = some c
        ∧ (s.after e).target id = (s.target id).benched t c m
        ∧ (s.after e).runs = m.recorded c t.invocations s.now s.runs)
      ∨ ∃ t ra, e = Event.analyze t (some ra) ∧ t.id = id
        ∧ (s.after e).target id = { s.target id with
            resultsAnalysis := ra, verdictAt := s.now } := by
  cases e with
  | merge doc => exact Or.inl (Trimmed.refl _)
  | archiveBaseline base outcome =>
    left
    show Trimmed _ ((s.archiveBaseline base outcome).target id)
    cases outcome <;> exact Trimmed.refl _
  | calibrate t m =>
    left
    show Trimmed _ ((s.calibrate t m).target id)
    obtain h | ⟨c, h⟩ := calibrate_cases s t m
    · rw [h]
      exact Trimmed.refl _
    · rw [h]
      exact trimmed_set ⟨Or.inl ⟨rfl, rfl⟩, Or.inl rfl, Or.inl rfl, rfl, rfl, rfl⟩
  | optimize t resume a =>
    -- an attempt works in the directory of its target only
    by_cases hid : id = t.id
    · subst hid
      have hafter : (s.after (Event.optimize t resume a)).target t.id
          = (runOne s.id s.manifest t resume a s.now (s.target t.id)).snd :=
        Session.set_target_self ..
      rw [hafter]
      refine (runOne_cases s.id s.manifest t resume a s.now _).imp_right fun h => ?_
      exact Or.inl ⟨t, resume, a, rfl, rfl, h⟩
    · left
      show Trimmed _ ((s.set t.id _).target id)
      rw [Session.set_target_of_ne hid]
      exact Trimmed.refl _
  | bench t m =>
    -- where nothing is built, nothing is recorded
    obtain h | ⟨c, m', rfl, hskip, hc, h⟩ := bench_cases s t m
    · left
      show Trimmed _ ((s.bench t m).target id)
      rw [h]
      exact Trimmed.refl _
    · have hafter : s.after (Event.bench t (some m')) = _ := h
      rw [hafter]
      by_cases hid : id = t.id
      · subst hid
        exact Or.inr (Or.inr (Or.inl ⟨t, c, m', rfl, rfl, hskip, hc,
          Session.set_target_self .., rfl⟩))
      · left
        show Trimmed _ ((s.set t.id _).target id)
        rw [Session.set_target_of_ne hid]
        exact Trimmed.refl _
  | analyze t left =>
    obtain h | ⟨ra, rfl, h⟩ := analyze_cases s t left
    · left
      show Trimmed _ ((s.analyze t left).target id)
      rw [h]
      exact Trimmed.refl _
    · have hafter : s.after (Event.analyze t (some ra)) = _ := h
      rw [hafter]
      by_cases hid : id = t.id
      · subst hid
        exact Or.inr (Or.inr (Or.inr ⟨t, ra, rfl, rfl, Session.set_target_self ..⟩))
      · left
        rw [Session.set_target_of_ne hid]
        exact Trimmed.refl _
  | publishGenerate t left =>
    left
    show Trimmed _ ((s.publishGenerate t left).target id)
    unfold Session.publishGenerate
    cases (s.target t.id).checkout with
    | none => exact Trimmed.refl _
    | some c => exact trimmed_set trimmed_checkout
  | pruneAborted failed =>
    left
    show Trimmed _ ((s.pruneAborted failed).target id)
    simp only [Session.pruneAborted]
    split
    case isTrue => exact Trimmed.refl _
    case isFalse => exact trimmed_checkout
  | benchClean =>
    left
    show Trimmed _ (s.benchClean.target id)
    -- the clean-up takes the targets from their file, and the file may be gone
    by_cases hmissing : s.targets = FileRead.notFound
    · simp only [Session.benchClean, if_pos hmissing]
      exact ⟨Or.inl ⟨rfl, rfl⟩, Or.inl rfl, Or.inl rfl, rfl, rfl, rfl⟩
    · cases hread : readOptimizationTargets s.targets with
      | error msgs =>
        simp only [Session.benchClean, if_neg hmissing, hread]
        exact Trimmed.refl _
      | ok targets =>
        simp only [Session.benchClean, if_neg hmissing, hread]
        refine ⟨Or.inl ⟨rfl, rfl⟩, ?_, Or.inl rfl, rfl, rfl, rfl⟩
        show ite _ _ _ = _ ∨ ite _ _ _ = _
        split
        case isTrue => exact Or.inr rfl
        case isFalse => exact Or.inl rfl
  | analyzeClean =>
    exact Or.inl ⟨Or.inl ⟨rfl, rfl⟩, Or.inl rfl, Or.inr rfl, rfl, rfl, rfl⟩
  | optimizeClean =>
    exact Or.inl ⟨Or.inr rfl, Or.inr rfl, Or.inl rfl, rfl, rfl, rfl⟩
  | baselineClean => exact Or.inl (Trimmed.refl _)
  | elsewhere c invs m => exact Or.inl (Trimmed.refl _)

/-- **What an event does to the database**: nothing, or it records a series
of runs with new ids. The session stays the same one. -/
theorem after_runs (s : Session) (e : Event) :
    (s.after e).id = s.id ∧ ((s.after e).runs = s.runs
      ∨ ∃ c invs, ∃ m : Measurement,
          (e.enabled s = true → m.possible s invs = true)
          ∧ (s.after e).runs = m.recorded c invs s.now s.runs) := by
  cases e with
  | archiveBaseline base outcome =>
    show (s.archiveBaseline base outcome).id = _ ∧ ((s.archiveBaseline base outcome).runs
      = _ ∨ _)
    cases outcome <;> exact ⟨rfl, Or.inl rfl⟩
  | calibrate t m =>
    show (s.calibrate t m).id = _ ∧ ((s.calibrate t m).runs = _ ∨ _)
    obtain h | ⟨c, h⟩ := calibrate_cases s t m
    · rw [h]
      exact ⟨rfl, Or.inl rfl⟩
    · rw [h]
      refine ⟨rfl, Or.inr ⟨c, t.invocations, m, fun he => ?_, congrArg Session.runs h⟩⟩
      simp only [Event.enabled, Bool.and_eq_true] at he
      exact he.right
  | bench t m =>
    show (s.bench t m).id = _ ∧ ((s.bench t m).runs = _ ∨ _)
    -- a benchmark that is skipped leaves the database alone
    obtain h | ⟨c, m', rfl, -, -, h⟩ := bench_cases s t m
    · rw [h]
      exact ⟨rfl, Or.inl rfl⟩
    · rw [h]
      refine ⟨rfl, Or.inr ⟨c, t.invocations, m', fun he => ?_,
        congrArg Session.runs h⟩⟩
      simp only [Event.enabled, Bool.and_eq_true, Option.all_some] at he
      exact he.right
  | analyze t left =>
    show (s.analyze t left).id = _ ∧ ((s.analyze t left).runs = _ ∨ _)
    obtain h | ⟨ra, -, h⟩ := analyze_cases s t left
    · rw [h]
      exact ⟨rfl, Or.inl rfl⟩
    · rw [h]
      exact ⟨rfl, Or.inl rfl⟩
  | publishGenerate t left =>
    show (s.publishGenerate t left).id = _ ∧ ((s.publishGenerate t left).runs = _ ∨ _)
    unfold Session.publishGenerate
    split <;> exact ⟨rfl, Or.inl rfl⟩
  | benchClean =>
    show s.benchClean.id = _ ∧ (s.benchClean.runs = _ ∨ _)
    unfold Session.benchClean
    split
    case isTrue => exact ⟨rfl, Or.inl rfl⟩
    case isFalse => split <;> exact ⟨rfl, Or.inl rfl⟩
  | elsewhere c invs m => exact ⟨rfl, Or.inr ⟨c, invs, m, fun he => he, rfl⟩⟩
  | merge doc => exact ⟨rfl, Or.inl rfl⟩
  | optimize t resume a => exact ⟨rfl, Or.inl rfl⟩
  | pruneAborted failed => exact ⟨rfl, Or.inl rfl⟩
  | analyzeClean => exact ⟨rfl, Or.inl rfl⟩
  | optimizeClean => exact ⟨rfl, Or.inl rfl⟩
  | baselineClean => exact ⟨rfl, Or.inl rfl⟩

/-- Two states share the targets and the baseline. -/
structure Session.SharesBaseline (s s' : Session) : Prop where
  targets : s'.targets = s.targets
  manifest : s'.manifest = s.manifest
  baselineBinary : s'.baselineBinary = s.baselineBinary

/-- **What an event does to what all targets share**: nothing, unless it is one
of the three that write it. -/
theorem after_shared_cases (s : Session) (e : Event) :
    s.SharesBaseline (s.after e) ∨ (∃ doc, e = Event.merge doc)
      ∨ (∃ base outcome, e = Event.archiveBaseline base outcome)
      ∨ e = Event.baselineClean := by
  cases e with
  | merge doc => exact Or.inr (Or.inl ⟨doc, rfl⟩)
  | archiveBaseline base outcome => exact Or.inr (Or.inr (Or.inl ⟨base, outcome, rfl⟩))
  | baselineClean => exact Or.inr (Or.inr (Or.inr rfl))
  | calibrate t m =>
    left
    show s.SharesBaseline (s.calibrate t m)
    obtain h | ⟨c, h⟩ := calibrate_cases s t m <;> rw [h] <;> exact ⟨rfl, rfl, rfl⟩
  | bench t m =>
    left
    show s.SharesBaseline (s.bench t m)
    obtain h | ⟨c, m', -, -, -, h⟩ := bench_cases s t m <;> rw [h] <;>
      exact ⟨rfl, rfl, rfl⟩
  | analyze t left =>
    left
    show s.SharesBaseline (s.analyze t left)
    obtain h | ⟨ra, -, h⟩ := analyze_cases s t left <;> rw [h] <;> exact ⟨rfl, rfl, rfl⟩
  | publishGenerate t left =>
    left
    show s.SharesBaseline (s.publishGenerate t left)
    unfold Session.publishGenerate
    split <;> exact ⟨rfl, rfl, rfl⟩
  | benchClean =>
    left
    show s.SharesBaseline s.benchClean
    unfold Session.benchClean
    split
    case isTrue => exact ⟨rfl, rfl, rfl⟩
    case isFalse => split <;> exact ⟨rfl, rfl, rfl⟩
  | optimize t resume a => exact Or.inl ⟨rfl, rfl, rfl⟩
  | pruneAborted failed => exact Or.inl ⟨rfl, rfl, rfl⟩
  | analyzeClean => exact Or.inl ⟨rfl, rfl, rfl⟩
  | optimizeClean => exact Or.inl ⟨rfl, rfl, rfl⟩
  | elsewhere c invs m => exact Or.inl ⟨rfl, rfl, rfl⟩

/-- The rows of the database stay. -/
theorem after_runs_of_some (he : e.enabled s = true) {id : ℤ} {run : BenchRun}
    (h : s.runs id = some run) : (s.after e).runs id = some run := by
  obtain ⟨-, hr | ⟨c, invs, m, hp, hr⟩⟩ := after_runs s e
  · rwa [hr]
  · rw [hr]
    exact Measurement.recorded_of_some (hp he) h

/-- A row of the database was there before, or is recorded now. -/
theorem after_runs_cases {id : ℤ} {run : BenchRun}
    (h : (s.after e).runs id = some run) :
    s.runs id = some run ∨ run.recordedAt = s.now := by
  obtain ⟨-, hr | ⟨c, invs, m, -, hr⟩⟩ := after_runs s e
  · exact Or.inl (hr ▸ h)
  · rw [hr] at h
    exact (Measurement.recorded_cases h).imp_right fun h => h.right.right

end After
