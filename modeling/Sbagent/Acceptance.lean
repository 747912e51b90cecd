import Sbagent.StoredRuns

/-!
# What an acceptance stands for

Finalizing accepts a normal pull request on the evidence of its files, and
compares them by the ids they quote. An id does not say what was measured: that
the measured binary is the coordinator's commit, and that the commit is on top
of the archived baseline, is nothing finalizing looks at. It holds, if it
holds, because of the order in which the commands came.

It does not hold for every order. Running the optimizer again leaves the run
ids of the old candidate and the verdict on it in place, so that the new
commit is accepted on the old one's measurements; an agent that runs out
of time after it has written its report leaves an implementation that nobody
committed; and an attempt that ends over a new clone leaves the archived commit
itself to be measured, under the report of the attempt before. For both
properties the conditions are found under which no event
breaks them (`KeepsFresh`, `KeepsBase`), and every run whose events all meet
them has the property. That a commit is the coordinator's is said by the events of
the run (`CommittedIn`), so the second one looks back on them.
-/

open Fallible

/-! ## The measurements are those of the recorded commit -/

/-- A benchmark run is of the recorded commit, and was made after it. -/
structure BenchRun.Measures (run : BenchRun) (p : CoordinatorProvenance)
    (committedAt : ℕ) : Prop where
  head : run.builtFrom.head = p.headSha
  clean : run.builtFrom.clean = true
  later : committedAt < run.recordedAt

/-- The measurements of a target are all of the commit in its provenance. -/
def Measured.OfCommit (runs : ℤ → Option BenchRun) (d : TargetState) : Prop :=
  ∃ p, d.provenance = FileRead.parsed p
    ∧ ∀ ids, d.candidateRunIds = FileRead.parsed ids → ∀ e ∈ ids.entries,
      ∃ run, runs e.runId = some run ∧ run.Measures p d.committedAt

/-- **Only fresh evidence is accepted**: whatever normal pull request
finalizing accepts, its measurements are of the commit in its provenance and
were made after it, and so was the verdict. -/
def AcceptsOnlyFresh (s : Session) : Prop :=
  ∀ summary, finalize s.targets s.files = Except.ok summary →
    ∀ e ∈ summary.experiments, e.deliveryMode = DeliveryMode.normalPr →
      e.status = ExperimentStatus.accepted →
        Measured.OfCommit s.runs (s.target e.targetId)
          ∧ (s.target e.targetId).committedAt < (s.target e.targetId).verdictAt

/-- The condition on an event. An agent is only run on a target that has no
candidate run ids, and whose verdict, if it has one, quotes a run that exists;
and what is benchmarked is the recorded commit. -/
def KeepsFresh (s : Session) : Event → Prop
  | Event.optimize t resume a =>
    decideOne s.id s.manifest t resume (s.target t.id) = Decision.attempted
      ∧ a.Invoked →
    (s.target t.id).candidateRunIds = FileRead.notFound
      ∧ ∀ ra, (s.target t.id).resultsAnalysis = FileRead.parsed ra →
        ∃ q ∈ ra.perInvocation, (s.runs q.candidateRunId).isSome = true
  | Event.bench t (some _) =>
    staticSkipReason s.files t = none →
      ∀ c ∈ (s.target t.id).checkout, ∃ p, (s.target t.id).provenance = FileRead.parsed p
        ∧ c.head = p.headSha ∧ c.clean = true
  | _ => True

instance (s : Session) (e : Event) : Decidable (KeepsFresh s e) :=
  match e with
  | Event.optimize t resume a => inferInstanceAs (Decidable
      (decideOne s.id s.manifest t resume (s.target t.id) = Decision.attempted
        ∧ a.Invoked → _ ∧ ∀ ra, _ = FileRead.parsed ra → _))
  | Event.bench t (some _) => inferInstanceAs (Decidable
      (staticSkipReason s.files t = none → ∀ c ∈ (s.target t.id).checkout,
        ∃ p, _ = FileRead.parsed p ∧ _))
  | Event.bench _ none => isTrue trivial
  | Event.merge _ => isTrue trivial
  | Event.archiveBaseline _ _ => isTrue trivial
  | Event.calibrate _ _ => isTrue trivial
  | Event.analyze _ _ => isTrue trivial
  | Event.publishGenerate _ _ => isTrue trivial
  | Event.pruneAborted _ => isTrue trivial
  | Event.benchClean => isTrue trivial
  | Event.analyzeClean => isTrue trivial
  | Event.optimizeClean => isTrue trivial
  | Event.baselineClean => isTrue trivial
  | Event.elsewhere _ _ _ => isTrue trivial

/-- What holds of one target in a run whose events meet the condition. -/
structure FreshAt (runs : ℤ → Option BenchRun) (now : ℕ) (d : TargetState) :
    Prop where
  /-- The last commit is in the past. -/
  committed : d.committedAt < now
  /-- The candidate's runs are of the recorded commit, or there is no
  report. -/
  candidate : ∀ ids, d.candidateRunIds = FileRead.parsed ids →
    d.report = FileRead.notFound ∨ Measured.OfCommit runs d
  /-- The verdict is later than the commit, or quotes an earlier run. -/
  verdict : ∀ ra, d.resultsAnalysis = FileRead.parsed ra →
    d.committedAt < d.verdictAt ∨ ∃ q ∈ ra.perInvocation, ∃ run,
      runs q.candidateRunId = some run ∧ run.recordedAt ≤ d.committedAt

/-- What holds of a session in a run whose events meet the condition. -/
structure FreshInv (s : Session) : Prop where
  runs : ∀ id run, s.runs id = some run → run.recordedAt < s.now
  target : ∀ id, FreshAt s.runs s.now (s.target id)

section Fresh

variable {runs runs' : ℤ → Option BenchRun} {now now' : ℕ} {d d' : TargetState}

theorem Measured.OfCommit.mono
    (hruns : ∀ id run, runs id = some run → runs' id = some run)
    (h : Measured.OfCommit runs d) : Measured.OfCommit runs' d := by
  obtain ⟨p, hp, hids⟩ := h
  refine ⟨p, hp, fun ids hc e he => ?_⟩
  obtain ⟨run, hrun, hm⟩ := hids ids hc e he
  exact ⟨run, hruns _ _ hrun, hm⟩

/-- Less evidence at a later time is as fresh. -/
theorem FreshAt.trimmed (h : FreshAt runs now d)
    (hruns : ∀ id run, runs id = some run → runs' id = some run)
    (hnow : now ≤ now') (ht : Trimmed d d') : FreshAt runs' now' d' where
  committed := by
    rw [ht.committedAt]
    exact h.committed.trans_le hnow
  candidate := by
    intro ids hids
    obtain hc | hc := ht.candidateRunIds
    · rw [hc] at hids
      obtain hr | hr := ht.report
      · refine (h.candidate ids hids).imp hr.left.trans fun hof => ?_
        obtain ⟨p, hp, hall⟩ := hof.mono hruns
        refine ⟨p, hr.right.trans hp, fun ids' hids' => ?_⟩
        rw [ht.committedAt]
        exact hall ids' (hc ▸ hids')
      · exact Or.inl hr
    · cases hc.symm.trans hids
  verdict := by
    intro ra hra
    rw [ht.committedAt, ht.verdictAt]
    obtain hr | hr := ht.resultsAnalysis
    · refine (h.verdict ra (hr ▸ hra)).imp_right fun hq => ?_
      obtain ⟨q, hq, run, hrun, hle⟩ := hq
      exact ⟨q, hq, run, hruns _ _ hrun, hle⟩
    · cases hr.symm.trans hra

/-- An attempt on a target with no candidate run ids leaves none, and a new
commit is later than any run there is. -/
theorem FreshAt.produced {sid : String} {t : MergedTarget} {a : Attempt}
    (h : FreshAt runs now d) (hpast : ∀ id run, runs id = some run →
      run.recordedAt < now)
    (hcand : d.candidateRunIds = FileRead.notFound)
    (hquoted : ∀ ra, d.resultsAnalysis = FileRead.parsed ra →
      ∃ q ∈ ra.perInvocation, (runs q.candidateRunId).isSome = true)
    (hp : Produced sid t a now d d') : FreshAt runs (now + 1) d' where
  committed := by
    obtain hc | hc := hp.committedAt
    · rw [hc]
      exact h.committed.trans (Nat.lt_succ_self now)
    · rw [hc]
      exact Nat.lt_succ_self now
  candidate := by
    intro ids hids
    rw [hp.candidateRunIds, hcand] at hids
    cases hids
  verdict := by
    intro ra hra
    rw [hp.resultsAnalysis] at hra
    rw [hp.verdictAt]
    obtain hc | hc := hp.committedAt
    · rw [hc]
      exact h.verdict ra hra
    · right
      obtain ⟨q, hq, hsome⟩ := hquoted ra hra
      obtain ⟨run, hrun⟩ := Option.isSome_iff_exists.mp hsome
      exact ⟨q, hq, run, hrun, hc ▸ (hpast _ _ hrun).le⟩

/-- A benchmark of the recorded commit adds runs of it. -/
theorem FreshAt.benched {s : Session} {t : MergedTarget} {c : Checkout}
    {m : Measurement} {p : CoordinatorProvenance} (h : FreshAt s.runs s.now d)
    (hold : ∀ id run, s.runs id = some run →
      m.recorded c t.invocations s.now s.runs id = some run)
    (hp : d.provenance = FileRead.parsed p) (hhead : c.head = p.headSha)
    (hclean : c.clean = true) :
    FreshAt (m.recorded c t.invocations s.now s.runs) (s.now + 1)
      (d.benched t c m) where
  committed := h.committed.trans (Nat.lt_succ_self s.now)
  candidate := by
    intro ids hids
    obtain holdfile | hnew := m.runIdsFile_cases s.runs hids
    · refine (h.candidate ids holdfile).imp id fun hof => ?_
      obtain ⟨p', hp', hall⟩ := hof.mono hold
      refine ⟨p', hp', fun ids' hids' => ?_⟩
      obtain rfl : ids = ids' := FileRead.parsed.inj (hids.symm.trans hids')
      exact hall ids holdfile
    · refine Or.inr ⟨p, hp, fun ids' hids' e he => ?_⟩
      obtain rfl : ids = ids' := FileRead.parsed.inj (hids.symm.trans hids')
      obtain ⟨run, hrun, hfrom, hat⟩ := hnew e he
      exact ⟨run, hrun, hfrom ▸ hhead, hfrom ▸ hclean, hat ▸ h.committed⟩
  verdict := by
    intro ra hra
    refine (h.verdict ra hra).imp_right fun hq => ?_
    obtain ⟨q, hq, run, hrun, hle⟩ := hq
    exact ⟨q, hq, run, hold _ _ hrun, hle⟩

/-- A verdict that is written now is later than the commit. -/
theorem FreshAt.analyzed {f : FileRead ResultsAnalysis}
    (h : FreshAt runs now d)
    (hruns : ∀ id run, runs id = some run → runs' id = some run) :
    FreshAt runs' (now + 1) { d with resultsAnalysis := f, verdictAt := now } where
  committed := h.committed.trans (Nat.lt_succ_self now)
  candidate := fun ids hids =>
    (h.candidate ids hids).imp id fun hof => hof.mono hruns
  verdict := fun _ _ => Or.inl h.committed

end Fresh

/-- **One event keeps the evidence fresh** if it meets the condition. -/
theorem freshInv_step {s s' : Session} {e : Event} (hinv : FreshInv s)
    (hok : KeepsFresh s e) (hstep : step s e = some s') : FreshInv s' := by
  obtain ⟨he, rfl⟩ := step_eq_some_iff.mp hstep
  have hold : ∀ id run, s.runs id = some run → (s.after e).runs id = some run :=
    fun id run => after_runs_of_some he
  refine ⟨fun id run hrun => ?_, fun id => ?_⟩
  · show run.recordedAt < s.now + 1
    obtain hrun | hnow := after_runs_cases hrun
    · exact (hinv.runs id run hrun).trans (Nat.lt_succ_self s.now)
    · exact hnow ▸ Nat.lt_succ_self s.now
  · show FreshAt (s.after e).runs (s.now + 1) ((s.after e).target id)
    have h := hinv.target id
    obtain ht | ⟨t, resume, a, rfl, rfl, hd, hinvoked, hp⟩
      | ⟨t, c, m, rfl, rfl, hskip, hc, ht, hruns⟩ | ⟨t, ra, rfl, rfl, ht⟩ :=
      after_target_cases s e id
    · exact h.trimmed hold (Nat.le_succ s.now) ht
    · obtain ⟨hcand, hquoted⟩ := hok ⟨hd, hinvoked⟩
      exact h.produced hinv.runs hcand hquoted hp
    · obtain ⟨p, hp, hhead, hclean⟩ := hok hskip c hc
      rw [hruns] at hold ⊢
      rw [ht]
      exact h.benched hold hp hhead hclean
    · rw [ht]
      exact h.analyzed hold

/-- A new session has no evidence at all. -/
theorem freshInv_start (id : String) (source : FileRead SourceJson) :
    FreshInv (Session.start id source) where
  runs := fun _ _ h => by cases h
  target := fun _ =>
    ⟨Nat.zero_lt_one, (fun _ h => by cases h), (fun _ h => by cases h)⟩

/-- What a fresh session accepts is fresh: a verdict that was written before
the commit quotes a run from before it, and the verdict quotes the candidate's
runs. -/
theorem acceptsOnlyFresh_of_freshInv {s : Session} (h : FreshInv s) :
    AcceptsOnlyFresh s := by
  intro summary hs e he hm hacc
  obtain ⟨t, r, vr, candidate, baseline, ra, hid, hread, hev⟩ :=
    finalize_accepted hs he hm hacc
  have hreport := (SessionFiles.readOptimizerReportForTarget_ok_some_iff.mp
    hread).left
  rw [← hid]
  have hat := h.target t.id
  have hof : Measured.OfCommit s.runs (s.target t.id) := by
    refine (hat.candidate candidate hev.candidateFile).resolve_left fun hno => ?_
    cases hno.symm.trans hreport
  refine ⟨hof, (hat.verdict ra hev.verdictFile).resolve_right ?_⟩
  -- the verdict names a run of the candidate, and that run is after the commit
  rintro ⟨q, hq, run, hrun, hle⟩
  obtain ⟨p, -, hall⟩ := hof
  obtain ⟨inv, -, -, hqc, -⟩ := exists_of_mem_right hev.rows hq
  obtain ⟨run', hrun', hmeas⟩ := hall candidate hev.candidateFile _ hqc
  obtain rfl : run = run' := Option.some.inj (hrun.symm.trans hrun')
  exact absurd hmeas.later (Nat.not_lt.mpr hle)

/-! A session with one target that goes through all phases. -/

/-- A commit id. -/
def shaOf (c : Char) : String := String.ofList (List.replicate 40 c)

/-- An attempt in which all goes well. -/
def goodAttempt (sessionId targetId base commit : String) : Attempt where
  base := ⟨base, none, none⟩
  report := FileRead.parsed (implementedReportOf sessionId targetId)
  left := ⟨base, none, some "cache the reads"⟩
  stop := none
  statusOk := true
  addOk := true
  commitOk := true
  commit := commit
  recordOk := true
  recordLeaves := false
  demotion := Demotion.done
  baseKnown := true
  headKnown := true

/-- Prepare a session with one target, given by its id. -/
def prepareEvents (targetId : String) : List Event :=
  [Event.archiveBaseline ⟨shaOf '0', none, none⟩ Archival.done,
    Event.merge (FileRead.parsed
      (documentOf ["family"] [benchTarget targetId] [])),
    Event.calibrate (benchTarget targetId) ⟨[1, 2], true⟩]

/-- Attempt its target, measure it and judge it. -/
def attemptEvents (sessionId targetId : String) (a : Attempt) : List Event :=
  [Event.optimize (benchTarget targetId) false a,
    Event.bench (benchTarget targetId) (some ⟨[11, 12], true⟩),
    Event.analyze (benchTarget targetId)
      (some (FileRead.parsed (verdictOf sessionId targetId)))]

/-- The targets, modes and statuses of the rows that finalizing writes. -/
def Session.outcome (s : Session) :
    Option (List (String × DeliveryMode × ExperimentStatus)) :=
  (finalize s.targets s.files).toOption.map fun summary =>
    summary.experiments.map fun e => (e.targetId, e.deliveryMode, e.status)

theorem Session.exists_accepted_of_outcome {s : Session} {id : String}
    (h : s.outcome = some [(id, DeliveryMode.normalPr, ExperimentStatus.accepted)]) :
    ∃ summary e, finalize s.targets s.files = Except.ok summary
      ∧ e ∈ summary.experiments ∧ e.targetId = id
      ∧ e.deliveryMode = DeliveryMode.normalPr
      ∧ e.status = ExperimentStatus.accepted := by
  unfold Session.outcome at h
  cases hf : finalize s.targets s.files with
  | error msgs =>
    rw [hf] at h
    cases h
  | ok summary =>
    rw [hf] at h
    have hrows : summary.experiments.map
        (fun e => (e.targetId, e.deliveryMode, e.status)) = _ := Option.some.inj h
    obtain ⟨e, he, heq⟩ := List.mem_map.mp (hrows ▸ List.mem_singleton_self _)
    obtain ⟨hid, hrest⟩ := Prod.mk.inj heq
    obtain ⟨hm, hacc⟩ := Prod.mk.inj hrest
    exact ⟨summary, e, rfl, he, hid, hm, hacc⟩

/-- A session that is optimized once and measured accepts its target. -/
theorem exists_run_once :
    ∃ s, Runs.run step (Session.start "20260614" FileRead.notFound)
        (prepareEvents "cache-reads" ++ attemptEvents "20260614" "cache-reads"
          (goodAttempt "20260614" "cache-reads" (shaOf '0') (shaOf 'a'))) = some s
      ∧ s.outcome = some [("cache-reads", DeliveryMode.normalPr,
        ExperimentStatus.accepted)] :=
  Option.map_eq_some_iff.mp (by decide +kernel)

/-- **Guarded runs accept only fresh evidence.** From a new session, in
whatever order the commands come, and whatever the environment does: as long
as an agent is only run on a target that has no candidate run ids and whose
verdict quotes a run that exists, and only the recorded commit is benchmarked,
what finalizing accepts in the end was measured, and judged, on the commit in
its provenance. -/
theorem acceptsOnlyFresh_of_run {id : String} {source : FileRead SourceJson}
    {es : List Event} {s : Session}
    (hok : Runs.Throughout step KeepsFresh (Session.start id source) es)
    (hrun : Runs.run step (Session.start id source) es = some s) :
    AcceptsOnlyFresh s :=
  acceptsOnlyFresh_of_freshInv
    (Runs.run_invariant (fun _ _ _ => freshInv_step) (freshInv_start id source)
      hok hrun)

/-- The theorem at a session that is optimized once and measured: its target
is accepted. -/
theorem acceptsOnlyFresh_of_run_once :
    ∃ s, Runs.run step (Session.start "20260614" FileRead.notFound)
        (prepareEvents "cache-reads" ++ attemptEvents "20260614" "cache-reads"
          (goodAttempt "20260614" "cache-reads" (shaOf '0') (shaOf 'a'))) = some s
      ∧ s.outcome = some [("cache-reads", DeliveryMode.normalPr,
        ExperimentStatus.accepted)]
      ∧ AcceptsOnlyFresh s := by
  obtain ⟨s, hs, hout⟩ := exists_run_once
  have hcheck : Runs.check step (fun s e => decide (KeepsFresh s e))
      (Session.start "20260614" FileRead.notFound)
      (prepareEvents "cache-reads" ++ attemptEvents "20260614" "cache-reads"
        (goodAttempt "20260614" "cache-reads" (shaOf '0') (shaOf 'a')))
      = true := by decide +kernel
  exact ⟨s, hs, hout, acceptsOnlyFresh_of_run
    (Runs.throughout_of_check (fun _ _ => of_decide_eq_true) hcheck) hs⟩

/-- Optimizing the target once more is enough to break it: the new commit is
accepted on the runs of the old one, and on a verdict that is older than it. -/
theorem not_acceptsOnlyFresh_of_reoptimized :
    ∃ s, Runs.run step (Session.start "20260614" FileRead.notFound)
        (prepareEvents "cache-reads" ++ attemptEvents "20260614" "cache-reads"
            (goodAttempt "20260614" "cache-reads" (shaOf '0') (shaOf 'a'))
          ++ [Event.optimize (benchTarget "cache-reads") false
            (goodAttempt "20260614" "cache-reads" (shaOf '0') (shaOf 'b'))])
        = some s
      ∧ ¬ AcceptsOnlyFresh s := by
  have hout : (Runs.run step (Session.start "20260614" FileRead.notFound)
        (prepareEvents "cache-reads" ++ attemptEvents "20260614" "cache-reads"
            (goodAttempt "20260614" "cache-reads" (shaOf '0') (shaOf 'a'))
          ++ [Event.optimize (benchTarget "cache-reads") false
            (goodAttempt "20260614" "cache-reads" (shaOf '0') (shaOf 'b'))])).map
        (fun s => (s.outcome, (s.target "cache-reads").verdictAt,
          (s.target "cache-reads").committedAt))
      = some (some [("cache-reads", DeliveryMode.normalPr,
        ExperimentStatus.accepted)], 6, 7) := by decide +kernel
  obtain ⟨s, hs, hobs⟩ := Option.map_eq_some_iff.mp hout
  obtain ⟨hrows, htimes⟩ := Prod.mk.inj hobs
  obtain ⟨hverdict, hcommit⟩ := Prod.mk.inj htimes
  refine ⟨s, hs, fun h => ?_⟩
  obtain ⟨summary, e, hf, he, hid, hm, hacc⟩ := Session.exists_accepted_of_outcome hrows
  have hlt := (h summary hf e he hm hacc).right
  rw [hid, hverdict, hcommit] at hlt
  exact absurd hlt (by decide)

/-! ## The commit is on top of the archived baseline -/

/-- The files of the commit that was recorded. -/
def CoordinatorProvenance.checkout (p : CoordinatorProvenance) : Checkout :=
  ⟨p.headSha, some p.baseSha, none⟩

/-- The files of a commit, and nothing is changed in them. -/
def Checkout.IsAt (c : Checkout) (sha : String) : Prop := c.head = sha ∧ c.changes = none

instance (c : Checkout) (sha : String) : Decidable (c.IsAt sha) :=
  inferInstanceAs (Decidable (_ ∧ _))

/-- An attempt that ends with a recorded commit of what the agent reported. -/
structure Attempt.Lands (a : Attempt) (sessionId : String) (t : MergedTarget) : Prop where
  invoked : a.Invoked
  report : ∃ r, a.report = FileRead.parsed (OptimizerReport.implemented r)
    ∧ r.Usable sessionId t
  commits : a.Commits
  records : a.Records sessionId t
  unexposed : ¬ a.Exposed sessionId t

/-- **One coordinator commit**: a checkout is the commit of an attempt on a target among the
events, on top of another commit. -/
def CommittedIn (es : List Event) (sessionId id base : String) (c : Checkout) : Prop :=
  ∃ t resume a, Event.optimize t resume a ∈ es ∧ t.id = id ∧ a.Lands sessionId t
    ∧ a.left.head = base ∧ c = a.committed

/-- A target is on the archived baseline, after some events. The archived binary was built from
the source commit of the manifest, the recorded commit is one coordinator commit on top of
it, and so is what every stored run of the candidate measured; what those of the baseline
measured is the source commit itself. -/
structure Session.OnArchivedBase (es : List Event) (s : Session) (id : String)
    (p : CoordinatorProvenance) (m : BaselineBinaryManifest) : Prop where
  provenance : (s.target id).provenance = FileRead.parsed p
  manifest : s.manifest = FileRead.parsed m
  base : p.baseSha = m.sourceSha
  recorded : CommittedIn es s.id id m.sourceSha p.checkout
  binary : ∃ b, s.baselineBinary = some b ∧ b.IsAt m.sourceSha
  candidate : ∀ r ∈ s.stored Side.candidate id, ∃ run, s.runs r.runId = some run
    ∧ CommittedIn es s.id id m.sourceSha run.builtFrom
  baseline : ∀ r ∈ s.stored Side.baseline id, ∃ run, s.runs r.runId = some run
    ∧ run.builtFrom.IsAt m.sourceSha

/-- **Only commits on the archived baseline are accepted**: whatever normal
pull request finalizing accepts has a provenance, its base is the source
commit in the baseline's manifest, and that is what was measured. -/
def AcceptsOnlyOnBase (es : List Event) (s : Session) : Prop :=
  ∀ summary, finalize s.targets s.files = Except.ok summary →
    ∀ e ∈ summary.experiments, e.deliveryMode = DeliveryMode.normalPr →
      e.status = ExperimentStatus.accepted → ∃ p m, s.OnArchivedBase es e.targetId p m

/-- A report on an implementation that finalizing can accept as a normal pull
request. -/
def OptimizerReport.Acceptable (r : OptimizerReport)
    (sessionId targetId : String) : Prop :=
  r.isImplemented = true ∧ r.validateModel.isOk = true ∧ r.targetId = targetId
    ∧ r.sessionId = sessionId ∧ r.deliveryMode = DeliveryMode.normalPr

instance (r : OptimizerReport) (sessionId targetId : String) :
    Decidable (r.Acceptable sessionId targetId) :=
  inferInstanceAs (Decidable (_ ∧ _))

/-- There is no such report. -/
def Session.Idle (s : Session) : Prop :=
  ∀ id r, (s.target id).report = FileRead.parsed r → ¬ r.Acceptable s.id id

/-- What is stored was measured on a commit, the baseline, and on one commit on top of it, the
candidates. -/
structure Session.StoredOn (s : Session) (sha : String) : Prop where
  candidate : ∀ id, ∀ r ∈ s.stored Side.candidate id, ∀ run ∈ s.runs r.runId,
    run.builtFrom.parent = some sha
  baseline : ∀ id, ∀ r ∈ s.stored Side.baseline id, ∀ run ∈ s.runs r.runId,
    run.builtFrom.IsAt sha

/-- The condition on an attempt. An agent that leaves an acceptable report was
run on a normal pull request, the attempt is not exposed, and the agent's head
is the archived source commit if there is something to commit. -/
def Attempt.KeepsBase (a : Attempt) (s : Session) (t : MergedTarget)
    (resume : Bool) : Prop :=
  decideOne s.id s.manifest t resume (s.target t.id) = Decision.attempted
    ∧ a.Invoked →
  ∀ r, a.report = FileRead.parsed r → r.Acceptable s.id t.id →
    t.deliveryMode = DeliveryMode.normalPr ∧ ¬ a.Exposed s.id t
      ∧ (a.Commits ∧ a.Records s.id t →
        ∃ m, s.manifest = FileRead.parsed m ∧ a.left.head = m.sourceSha)

instance (a : Attempt) (s : Session) (t : MergedTarget) (resume : Bool) :
    Decidable (a.KeepsBase s t resume) :=
  inferInstanceAs (Decidable (_ ∧ _ → ∀ r, a.report = FileRead.parsed r →
    r.Acceptable s.id t.id → _ ∧ _ ∧ (_ → ∃ m, s.manifest = FileRead.parsed m ∧ _)))

/-- The condition on a benchmark. What is built for a target, which is a normal pull request,
is the commit that was recorded. -/
def Session.BuildsRecorded (s : Session) (t : MergedTarget) : Prop :=
  staticSkipReason s.files t = none → t.deliveryMode = DeliveryMode.normalPr
    ∧ ∀ c ∈ (s.target t.id).checkout, ∃ p, (s.target t.id).provenance = FileRead.parsed p
      ∧ c = p.checkout

instance (s : Session) (t : MergedTarget) : Decidable (s.BuildsRecorded t) :=
  inferInstanceAs (Decidable (_ → _ ∧ ∀ c ∈ (s.target t.id).checkout,
    ∃ p, (s.target t.id).provenance = FileRead.parsed p ∧ c = p.checkout))

/-- The condition on an event: an attempt and a benchmark meet theirs; the baseline is
archived from a commit, and the record of the archived source commit is only changed while
there is no acceptable report and nothing is stored that was measured on another one. -/
def KeepsBase (s : Session) : Event → Prop
  | Event.optimize t resume a => a.KeepsBase s t resume
  | Event.bench t (some _) => s.BuildsRecorded t
  | Event.archiveBaseline base Archival.copied =>
    ∀ m, s.manifest = FileRead.parsed m → base.IsAt m.sourceSha
  | Event.archiveBaseline base Archival.done =>
    base.changes = none
      ∧ ((∃ m, s.manifest = FileRead.parsed m ∧ m.sourceSha = base.head)
        ∨ s.Idle ∧ s.StoredOn base.head)
  | Event.baselineClean => s.Idle
  | _ => True

/-- A check for the condition that never lets the baseline change. -/
def keepsBaseCheck (s : Session) : Event → Bool
  | Event.optimize t resume a => decide (a.KeepsBase s t resume)
  | Event.bench t (some _) => decide (s.BuildsRecorded t)
  | Event.archiveBaseline _ _ => false
  | Event.baselineClean => false
  | _ => true

theorem keepsBase_of_keepsBaseCheck (s : Session) (e : Event)
    (h : keepsBaseCheck s e = true) : KeepsBase s e := by
  cases e with
  | optimize t resume a =>
    show a.KeepsBase s t resume
    exact of_decide_eq_true h
  | bench t m =>
    cases m with
    | none => trivial
    | some m =>
      show s.BuildsRecorded t
      exact of_decide_eq_true h
  | archiveBaseline base outcome => cases h
  | baselineClean => cases h
  | _ => trivial

/-- What holds of a session after events that all met the condition. -/
structure BaseInv (es : List Event) (s : Session) : Prop where
  /-- Behind an acceptable report is a commit on the archived one. -/
  report : ∀ id r, (s.target id).report = FileRead.parsed r → r.Acceptable s.id id →
    ∃ p m, (s.target id).provenance = FileRead.parsed p ∧ s.manifest = FileRead.parsed m
      ∧ p.baseSha = m.sourceSha ∧ CommittedIn es s.id id m.sourceSha p.checkout
  binary : ∀ m, s.manifest = FileRead.parsed m →
    ∃ b, s.baselineBinary = some b ∧ b.IsAt m.sourceSha
  /-- The candidates were measured on commits, and on the archived one if there is one. -/
  candidate : ∀ id, ∀ r ∈ s.stored Side.candidate id, ∃ run base,
    s.runs r.runId = some run ∧ CommittedIn es s.id id base run.builtFrom
      ∧ ∀ m, s.manifest = FileRead.parsed m → base = m.sourceSha
  baseline : ∀ id, ∀ r ∈ s.stored Side.baseline id, ∃ run, s.runs r.runId = some run
    ∧ ∀ m, s.manifest = FileRead.parsed m → run.builtFrom.IsAt m.sourceSha

section Base

variable {es : List Event} {s : Session} {e : Event} {id : String}

theorem CommittedIn.mono {sid base : String} {c : Checkout}
    (h : CommittedIn es sid id base c) (e : Event) :
    CommittedIn (es ++ [e]) sid id base c := by
  obtain ⟨t, resume, a, hmem, hrest⟩ := h
  exact ⟨t, resume, a, List.mem_append_left _ hmem, hrest⟩

/-- The parent of a coordinator commit is what it is on top of. -/
theorem CommittedIn.parent {sid base : String} {c : Checkout}
    (h : CommittedIn es sid id base c) : c.parent = some base := by
  obtain ⟨t, resume, a, -, -, -, rfl, rfl⟩ := h
  rfl

/-- The record of the archived source commit stays, is replaced, or is
cleared. -/
theorem after_manifest_cases (s : Session) (e : Event) :
    (s.after e).manifest = s.manifest
      ∨ (∃ base, e = Event.archiveBaseline base Archival.done
        ∧ (s.after e).manifest = FileRead.parsed ⟨base.head, !base.clean⟩)
      ∨ e = Event.baselineClean := by
  obtain h | ⟨doc, rfl⟩ | ⟨base, outcome, rfl⟩ | rfl := after_shared_cases s e
  · exact Or.inl h.manifest
  · exact Or.inl rfl
  · cases outcome with
    | failed => exact Or.inl rfl
    | copied => exact Or.inl rfl
    | done => exact Or.inr (Or.inl ⟨base, rfl, rfl⟩)
  · exact Or.inr (Or.inr rfl)

/-- Under an acceptable report the archived source commit stays what it is. -/
theorem KeepsBase.manifest {m : BaselineBinaryManifest} (hok : KeepsBase s e)
    (hm : s.manifest = FileRead.parsed m) (hbusy : ¬ s.Idle) :
    ∃ m', (s.after e).manifest = FileRead.parsed m' ∧ m'.sourceSha = m.sourceSha := by
  obtain hsame | ⟨base, rfl, hnew⟩ | rfl := after_manifest_cases s e
  · exact ⟨m, hsame.trans hm, rfl⟩
  · obtain ⟨-, ⟨m', hm', hhead⟩ | ⟨hidle, -⟩⟩ := hok
    · obtain rfl : m = m' := FileRead.parsed.inj (hm.symm.trans hm')
      exact ⟨_, hnew, hhead.symm⟩
    · exact absurd hidle hbusy
  · exact absurd hok hbusy

/-- A target whose report and provenance stay as they are stays on the
archived base. -/
theorem BaseInv.kept {r : OptimizerReport} (h : BaseInv es s) (hok : KeepsBase s e)
    (hreport : ((s.after e).target id).report = (s.target id).report)
    (hprov : ((s.after e).target id).provenance = (s.target id).provenance)
    (hr : ((s.after e).target id).report = FileRead.parsed r)
    (hacc : r.Acceptable s.id id) :
    ∃ p m, ((s.after e).target id).provenance = FileRead.parsed p
      ∧ (s.after e).manifest = FileRead.parsed m ∧ p.baseSha = m.sourceSha
      ∧ CommittedIn (es ++ [e]) s.id id m.sourceSha p.checkout := by
  rw [hreport] at hr
  obtain ⟨p, m, hp, hm, hbase, hcommit⟩ := h.report id r hr hacc
  obtain ⟨m', hm', hsha⟩ := hok.manifest hm fun hidle => hidle id r hr hacc
  refine ⟨p, m', hprov.trans hp, hm', hbase.trans hsha.symm, ?_⟩
  rw [hsha]
  exact hcommit.mono e

/-- An attempt that is not exposed, and whose agent did not move the head from
the archived source commit, leaves the target on it. -/
theorem BaseInv.produced {t : MergedTarget} {resume : Bool} {a : Attempt}
    {r : OptimizerReport}
    (hok : KeepsBase s (Event.optimize t resume a))
    (hd : decideOne s.id s.manifest t resume (s.target t.id) = Decision.attempted)
    (hinvoked : a.Invoked)
    (hp : Produced s.id t a s.now (s.target t.id)
      ((s.after (Event.optimize t resume a)).target t.id))
    (hr : ((s.after (Event.optimize t resume a)).target t.id).report
      = FileRead.parsed r)
    (hacc : r.Acceptable s.id t.id) :
    ∃ p m, ((s.after (Event.optimize t resume a)).target t.id).provenance
        = FileRead.parsed p
      ∧ (s.after (Event.optimize t resume a)).manifest = FileRead.parsed m
      ∧ p.baseSha = m.sourceSha
      ∧ CommittedIn (es ++ [Event.optimize t resume a]) s.id t.id m.sourceSha
        p.checkout := by
  obtain ⟨himpl, hvalid, hid, hsid, hmode⟩ := hacc
  cases r with
  | aborted r => cases himpl
  | implemented r =>
    obtain ⟨harep, hprov⟩ := hp.implemented r hr
    obtain ⟨htm, hexp, hhead⟩ := hok ⟨hd, hinvoked⟩ _ harep
      ⟨himpl, hvalid, hid, hsid, hmode⟩
    have husable : r.Usable s.id t := by
      obtain ⟨u, hu⟩ := isOk_iff.mp hvalid
      exact ⟨hu, hid, hsid, hmode.trans htm.symm⟩
    obtain ⟨hprov, hcommits, hrec⟩ | hno | hbad := hprov
    · obtain ⟨m, hm, hsha⟩ := hhead ⟨hcommits, hrec⟩
      have hlands : a.Lands s.id t := ⟨hinvoked, ⟨r, harep, husable⟩, hcommits, hrec, hexp⟩
      exact ⟨a.provenance s.id t, m, hprov, hm, hsha, t, resume, a,
        List.mem_append_right _ (List.mem_singleton_self _), rfl, hlands, hsha, rfl⟩
    · exact absurd husable hno
    · exact absurd hbad hexp

/-- Behind an acceptable report there is still a commit on the archived one. -/
theorem BaseInv.report_next (h : BaseInv es s) (hok : KeepsBase s e) {r : OptimizerReport}
    (hr : ((s.after e).target id).report = FileRead.parsed r)
    (hacc : r.Acceptable s.id id) :
    ∃ p m, ((s.after e).target id).provenance = FileRead.parsed p
      ∧ (s.after e).manifest = FileRead.parsed m ∧ p.baseSha = m.sourceSha
      ∧ CommittedIn (es ++ [e]) s.id id m.sourceSha p.checkout := by
  obtain ht | ⟨t, resume, a, rfl, rfl, hd, hinvoked, hp⟩
    | ⟨t, c, m, -, rfl, -, -, ht, -⟩ | ⟨t, ra, -, rfl, ht⟩ :=
    after_target_cases s e id
  · obtain ⟨hreport, hprov⟩ | hnone := ht.report
    · exact h.kept hok hreport hprov hr hacc
    · cases hnone.symm.trans hr
  · exact BaseInv.produced hok hd hinvoked hp hr hacc
  · exact h.kept hok (by rw [ht]; rfl) (by rw [ht]; rfl) hr hacc
  · exact h.kept hok (by rw [ht]) (by rw [ht]) hr hacc

/-- The archived binary stays that of the archived source commit. -/
theorem BaseInv.binary_next (h : BaseInv es s) (hok : KeepsBase s e)
    {m : BaselineBinaryManifest} (hm : (s.after e).manifest = FileRead.parsed m) :
    ∃ b, (s.after e).baselineBinary = some b ∧ b.IsAt m.sourceSha := by
  obtain hsame | ⟨doc, rfl⟩ | ⟨base, outcome, rfl⟩ | rfl := after_shared_cases s e
  · rw [hsame.baselineBinary]
    exact h.binary m (hsame.manifest.symm.trans hm)
  · exact h.binary m hm
  · cases outcome with
    | failed => exact h.binary m hm
    | copied => exact ⟨base, rfl, hok m hm⟩
    | done =>
      obtain rfl := FileRead.parsed.inj hm
      exact ⟨base, rfl, rfl, hok.left⟩
  · cases hm

/-- What was measured on the archived source commit still is, whatever it is now. -/
theorem KeepsBase.same {m : BaselineBinaryManifest} {P : String → Prop}
    (hok : KeepsBase s e) (hm : (s.after e).manifest = FileRead.parsed m)
    (hold : ∀ m, s.manifest = FileRead.parsed m → P m.sourceSha)
    (hnew : ∀ sha, s.StoredOn sha → P sha) : P m.sourceSha := by
  obtain hsame | ⟨base, rfl, hdone⟩ | rfl := after_manifest_cases s e
  · exact hold m (hsame.symm.trans hm)
  · obtain rfl := FileRead.parsed.inj (hdone.symm.trans hm)
    obtain ⟨-, ⟨m', hm', hhead⟩ | ⟨-, hstored⟩⟩ := hok
    · exact hhead ▸ hold m' hm'
    · exact hnew base.head hstored
  · cases hm

/-- A command that measures leaves the record of the archived source commit alone. -/
theorem after_manifest_of_measured {side : Side} {t : MergedTarget}
    (h : e.measured = some (side, t)) : (s.after e).manifest = s.manifest := by
  obtain hsame | ⟨base, rfl, -⟩ | rfl := after_manifest_cases s e
  · exact hsame
  · cases h
  · cases h

/-- What can be benchmarked has a report that can be accepted. -/
theorem exists_acceptable {t : MergedTarget} (hskip : staticSkipReason s.files t = none)
    (hmode : t.deliveryMode = DeliveryMode.normalPr) :
    ∃ r, (s.target t.id).report = FileRead.parsed r ∧ r.Acceptable s.id t.id := by
  unfold staticSkipReason at hskip
  split_ifs at hskip
  split at hskip
  case h_1 r hread =>
    obtain ⟨hfile, hvalid, hid, hsid, hm⟩ :=
      SessionFiles.readOptimizerReportForTarget_ok_some_iff.mp hread
    exact ⟨_, hfile, rfl, isOk_iff.mpr ⟨(), hvalid⟩, hid, hsid, hm.trans hmode⟩
  all_goals cases hskip

/-- What a benchmark builds is the recorded commit, on the archived one. -/
theorem BaseInv.built {t : MergedTarget} {c : Checkout} {inv : BenchInvocation}
    {r : InvocationRunId} (h : BaseInv es s) (hok : KeepsBase s e)
    (hmade : e.Made s Side.candidate r t c inv) :
    ∃ m, s.manifest = FileRead.parsed m ∧ CommittedIn es s.id t.id m.sourceSha c := by
  obtain ⟨hcheckout, hskip⟩ := hmade.built rfl
  have hbuilds : s.BuildsRecorded t := by
    have hmeasured := hmade.measured
    cases e with
    | bench t' left =>
      obtain rfl : t' = t := congrArg Prod.snd (Option.some.inj hmeasured)
      cases left with
      | none =>
        -- a failed build records no run
        obtain hsame | ⟨_, _, hnone, -⟩ := bench_cases s t' none
        · have hrun := hmade.recorded
          rw [show (s.after (Event.bench t' none)).runs = s.runs from
            congrArg Session.runs hsame, hmade.new] at hrun
          cases hrun
        · cases hnone
      | some m => exact hok
    | _ => cases hmeasured
  obtain ⟨hmode, hat⟩ := hbuilds hskip
  obtain ⟨p, hp, rfl⟩ := hat c hcheckout
  obtain ⟨rep, hrep, hacc⟩ := exists_acceptable hskip hmode
  obtain ⟨p', m, hp', hm, -, hcommit⟩ := h.report t.id rep hrep hacc
  obtain rfl := FileRead.parsed.inj (hp.symm.trans hp')
  exact ⟨m, hm, hcommit⟩

/-- **One event keeps the commits on the archived base** if it meets the
condition. -/
theorem baseInv_step {s' : Session} (h : BaseInv es s) (hok : KeepsBase s e)
    (hstep : step s e = some s') : BaseInv (es ++ [e]) s' := by
  obtain ⟨he, rfl⟩ := step_eq_some_iff.mp hstep
  have hsid : (s.after e).id = s.id := (after_runs s e).left
  constructor
  · intro id r hr hacc
    show ∃ p m, ((s.after e).target id).provenance = _ ∧ (s.after e).manifest = _ ∧ _
      ∧ CommittedIn _ (s.after e).id _ _ _
    rw [hsid]
    exact h.report_next hok hr (hsid ▸ hacc)
  · exact fun m hm => h.binary_next hok hm
  · intro id r hr
    show ∃ run base, (s.after e).runs r.runId = some run
      ∧ CommittedIn _ (s.after e).id _ _ _ ∧ ∀ m, (s.after e).manifest = _ → _
    rw [hsid]
    obtain hold | ⟨t, c, inv, rfl, hmade⟩ := mem_stored_after he hr
    · obtain ⟨run, base, hrun, hcommit, hbase⟩ := h.candidate id r hold
      refine ⟨run, base, after_runs_of_some he hrun, hcommit.mono e, fun m hm => ?_⟩
      -- a new archive of the baseline is of the revision that the stored runs are on
      refine hok.same (P := fun sha => base = sha) hm hbase fun sha hstored => ?_
      exact Option.some.inj (hcommit.parent.symm.trans (hstored.candidate id r hold run hrun))
    · obtain ⟨m, hm, hcommit⟩ := h.built hok hmade
      refine ⟨_, m.sourceSha, hmade.recorded, hcommit.mono e, fun m' hm' => ?_⟩
      rw [after_manifest_of_measured hmade.measured, hm] at hm'
      rw [FileRead.parsed.inj hm']
  · intro id r hr
    obtain hold | ⟨t, c, inv, rfl, hmade⟩ := mem_stored_after he hr
    · obtain ⟨run, hrun, hbase⟩ := h.baseline id r hold
      refine ⟨run, after_runs_of_some he hrun, fun m hm => ?_⟩
      exact hok.same (P := run.builtFrom.IsAt) hm hbase fun sha hstored =>
        hstored.baseline id r hold run hrun
    · refine ⟨_, hmade.recorded, fun m hm => ?_⟩
      obtain ⟨b, hb, hat⟩ := h.binary m
        ((after_manifest_of_measured hmade.measured).symm.trans hm)
      obtain rfl := Option.some.inj ((hmade.archived rfl).symm.trans hb)
      exact hat

end Base

/-- Nothing is stored in a new session, and nothing is archived. -/
theorem baseInv_start (id : String) (source : FileRead SourceJson) :
    BaseInv [] (Session.start id source) where
  report := fun _ _ h => by cases h
  binary := fun _ h => by cases h
  candidate := fun _ _ h => by cases h
  baseline := fun _ _ h => by cases h

/-- What is accepted in a session that keeps its commits on the archived base
is on it. -/
theorem acceptsOnlyOnBase_of_baseInv {es : List Event} {s : Session} (h : BaseInv es s) :
    AcceptsOnlyOnBase es s := by
  intro summary hs e he hm hacc
  obtain ⟨t, r, _, _, _, _, hid, hread, -⟩ := finalize_accepted hs he hm hacc
  obtain ⟨hfile, hvalid, hctx⟩ :=
    SessionFiles.readOptimizerReportForTarget_ok_some_iff.mp hread
  rw [← hid]
  obtain ⟨p, m, hp, hm, hbase, hcommit⟩ :=
    h.report t.id _ hfile ⟨rfl, isOk_iff.mpr ⟨(), hvalid⟩, hctx⟩
  refine ⟨p, m, hp, hm, hbase, hcommit, h.binary m hm, fun r hr => ?_, fun r hr => ?_⟩
  · obtain ⟨run, base, hrun, hof, hsame⟩ := h.candidate t.id r hr
    exact ⟨run, hrun, hsame m hm ▸ hof⟩
  · obtain ⟨run, hrun, hat⟩ := h.baseline t.id r hr
    exact ⟨run, hrun, hat m hm⟩

/-- **Guarded runs accept only commits on the archived base.** From a new
session, in whatever order the commands come, and however an attempt ends: as
long as no attempt ends where an acceptable report is left with no commit
behind it, agents commit nothing themselves and start from the archived source
commit, only the recorded commit is benchmarked, and the baseline is archived from a commit
and not archived anew under a report or under stored runs of another one, the commit that
finalizing accepts, and that was measured, is the coordinator's, on top of the source commit
that the archived binary was built from. -/
theorem acceptsOnlyOnBase_of_run {id : String} {source : FileRead SourceJson}
    {es : List Event} {s : Session}
    (hok : Runs.Throughout step KeepsBase (Session.start id source) es)
    (hrun : Runs.run step (Session.start id source) es = some s) :
    AcceptsOnlyOnBase es s :=
  acceptsOnlyOnBase_of_baseInv
    (Runs.run_history_of (baseInv_start id source) (fun _ _ _ _ _ => baseInv_step) hok hrun)

/-- The theorem at a session that is optimized once and measured: its target
is accepted. -/
theorem acceptsOnlyOnBase_of_run_once :
    ∃ s, Runs.run step (Session.start "20260614" FileRead.notFound)
        (prepareEvents "cache-reads" ++ attemptEvents "20260614" "cache-reads"
          (goodAttempt "20260614" "cache-reads" (shaOf '0') (shaOf 'a'))) = some s
      ∧ s.outcome = some [("cache-reads", DeliveryMode.normalPr,
        ExperimentStatus.accepted)]
      ∧ AcceptsOnlyOnBase (prepareEvents "cache-reads" ++ attemptEvents "20260614" "cache-reads"
          (goodAttempt "20260614" "cache-reads" (shaOf '0') (shaOf 'a'))) s := by
  obtain ⟨s, hs, hout⟩ := exists_run_once
  refine ⟨s, hs, hout, acceptsOnlyOnBase_of_run ?_ hs⟩
  -- nothing has been optimized or measured when the baseline is archived
  refine ⟨⟨rfl, Or.inr ⟨(fun id r h => by cases h), (fun _ _ h => by cases h),
    fun _ _ h => by cases h⟩⟩, fun s₁ hs₁ => ?_⟩
  obtain rfl : { (Session.start "20260614" FileRead.notFound).archiveBaseline
      ⟨shaOf '0', none, none⟩ Archival.done with now := 2 } = s₁ :=
    Option.some.inj hs₁
  refine Runs.throughout_of_check keepsBase_of_keepsBaseCheck ?_
  decide +kernel

/-- An agent that runs out of time after it has written its report is enough
to break it: nothing is committed, and what it left is benchmarked and
accepted. -/
theorem not_acceptsOnlyOnBase_of_timeout :
    ∃ s, Runs.run step (Session.start "20260614" FileRead.notFound)
        (prepareEvents "cache-reads" ++ attemptEvents "20260614" "cache-reads"
          { goodAttempt "20260614" "cache-reads" (shaOf '0') (shaOf 'a') with
            stop := some Stage.agent }) = some s
      ∧ ∀ es, ¬ AcceptsOnlyOnBase es s := by
  have hout : (Runs.run step (Session.start "20260614" FileRead.notFound)
        (prepareEvents "cache-reads" ++ attemptEvents "20260614" "cache-reads"
          { goodAttempt "20260614" "cache-reads" (shaOf '0') (shaOf 'a') with
            stop := some Stage.agent })).map
        (fun s => (s.outcome, (s.target "cache-reads").provenance))
      = some (some [("cache-reads", DeliveryMode.normalPr,
        ExperimentStatus.accepted)], FileRead.notFound) := by decide +kernel
  obtain ⟨s, hs, hobs⟩ := Option.map_eq_some_iff.mp hout
  obtain ⟨hrows, hnone⟩ := Prod.mk.inj hobs
  refine ⟨s, hs, fun es h => ?_⟩
  obtain ⟨summary, e, hf, he, hid, hm, hacc⟩ := Session.exists_accepted_of_outcome hrows
  obtain ⟨p, m, hon⟩ := h summary hf e he hm hacc
  have hp := hon.provenance
  rw [hid, hnone] at hp
  cases hp

/-- A second attempt that ends when the clone is new is enough too: report and provenance are
those of the first one, and the archived commit itself is benchmarked and accepted. -/
theorem not_acceptsOnlyOnBase_of_recloned :
    ∃ s, Runs.run step (Session.start "20260614" FileRead.notFound)
        (prepareEvents "cache-reads"
          ++ Event.optimize (benchTarget "cache-reads") false
              (goodAttempt "20260614" "cache-reads" (shaOf '0') (shaOf 'a'))
            :: attemptEvents "20260614" "cache-reads"
              { goodAttempt "20260614" "cache-reads" (shaOf '0') (shaOf 'b') with
                stop := some Stage.cloned }) = some s
      ∧ ∀ es, ¬ AcceptsOnlyOnBase es s := by
  have hout : (Runs.run step (Session.start "20260614" FileRead.notFound)
        (prepareEvents "cache-reads"
          ++ Event.optimize (benchTarget "cache-reads") false
              (goodAttempt "20260614" "cache-reads" (shaOf '0') (shaOf 'a'))
            :: attemptEvents "20260614" "cache-reads"
              { goodAttempt "20260614" "cache-reads" (shaOf '0') (shaOf 'b') with
                stop := some Stage.cloned })).map
        (fun s => (s.outcome, (s.stored Side.candidate "cache-reads").map fun r =>
          (s.runs r.runId).any fun run => run.builtFrom.parent.isNone))
      = some (some [("cache-reads", DeliveryMode.normalPr,
        ExperimentStatus.accepted)], [true, true]) := by decide +kernel
  obtain ⟨s, hs, hobs⟩ := Option.map_eq_some_iff.mp hout
  obtain ⟨hrows, hstored⟩ := Prod.mk.inj hobs
  refine ⟨s, hs, fun es h => ?_⟩
  obtain ⟨summary, e, hf, he, hid, hm, hacc⟩ := Session.exists_accepted_of_outcome hrows
  obtain ⟨p, m, hon⟩ := h summary hf e he hm hacc
  rw [hid] at hon
  obtain ⟨r, rest, hlist, hparent, -⟩ := List.map_eq_cons_iff.mp hstored
  obtain ⟨run, hrun, hcommit⟩ := hon.candidate r (hlist ▸ List.mem_cons_self)
  rw [hrun, Option.any_some, hcommit.parent] at hparent
  cases hparent
