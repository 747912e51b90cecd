import Sbagent.Acceptance

/-!
# An attempt keeps its commit or drops it

An attempt that returns without an error should leave a target in one of three
ways. There is no report and no commit. There is an aborted report and no trace
of an implementation. Or there is an implemented report with the provenance of
a commit that the clone is at. The later phases tell the three apart by the
report alone and take the rest on trust: finalizing reads the provenance next
to every report, and a measurement is of whatever the clone holds.

The coordinator gets there by a sequence of steps each of which may fail, and
a demotion takes back what was done so far – but not all of it: a provenance
that was written, in whole or in part, stays. `settles_iff` says exactly when
that does no harm.
-/

open Fallible

/-! ## Three ways to leave a target -/

/-- A report that the coordinator acts on. -/
def OptimizerReport.Usable (r : OptimizerReport) (sessionId : String)
    (target : MergedTarget) : Prop :=
  r.validateModel = Except.ok () ∧ r.targetId = target.id
    ∧ r.sessionId = sessionId ∧ r.deliveryMode = target.deliveryMode

/-- There is neither a report nor a commit. -/
structure NotReported (d : TargetState) : Prop where
  report : d.report = FileRead.notFound
  provenance : d.provenance = FileRead.notFound

/-- There is an aborted report, and no trace of an implementation. -/
structure Dropped (sessionId : String) (target : MergedTarget) (d : TargetState) :
    Prop where
  report : ∃ r, d.report = FileRead.parsed (OptimizerReport.aborted r)
    ∧ (OptimizerReport.aborted r).Usable sessionId target
  provenance : d.provenance = FileRead.notFound
  implementationMd : d.implementationMd = false

/-- There is an implemented report with the provenance of the commit that the
clone is at, which is not the one it was created at. -/
structure Kept (sessionId : String) (target : MergedTarget) (createdAt : String)
    (d : TargetState) : Prop where
  report : ∃ r, d.report = FileRead.parsed (OptimizerReport.implemented r)
    ∧ (OptimizerReport.implemented r).Usable sessionId target
  provenance : ∃ p, d.provenance = FileRead.parsed p
    ∧ p.validateModel = Except.ok ()
    ∧ p.validateContext sessionId target.id target.deliveryMode = Except.ok ()
    ∧ p.headSha ≠ p.baseSha
    ∧ d.checkout.map (fun c => c.head) = some p.headSha
    ∧ p.headSha ≠ createdAt

/-- One of three things is the case, and the other two are not. -/
def ExactlyOne (p q r : Prop) : Prop :=
  p ∧ ¬ q ∧ ¬ r ∨ ¬ p ∧ q ∧ ¬ r ∨ ¬ p ∧ ¬ q ∧ r

/-- A target is left in exactly one of the three ways. -/
def Settled (sessionId : String) (target : MergedTarget) (createdAt : String)
    (d : TargetState) : Prop :=
  ExactlyOne (NotReported d) (Dropped sessionId target d)
    (Kept sessionId target createdAt d)

section Settled

variable {sid : String} {t : MergedTarget} {base : String} {d : TargetState}

/-- The report tells the three ways apart. -/
theorem settled_iff : Settled sid t base d
    ↔ NotReported d ∨ Dropped sid t d ∨ Kept sid t base d := by
  have h₁ : NotReported d → ¬ Dropped sid t d := by
    intro h h'
    obtain ⟨r, hr, -⟩ := h'.report
    cases h.report.symm.trans hr
  have h₂ : NotReported d → ¬ Kept sid t base d := by
    intro h h'
    obtain ⟨r, hr, -⟩ := h'.report
    cases h.report.symm.trans hr
  have h₃ : Dropped sid t d → ¬ Kept sid t base d := by
    intro h h'
    obtain ⟨r, hr, -⟩ := h.report
    obtain ⟨r', hr', -⟩ := h'.report
    cases hr.symm.trans hr'
  unfold Settled ExactlyOne
  tauto

end Settled

/-! ## What each step does when it returns -/

section Steps

variable {sid : String} {t : MergedTarget} {a : Attempt} {now : ℕ}
  {d : TargetState} {reason : String}

/-- A demotion returns when it is carried out. -/
theorem demote_ok {o : Demotion}
    (h : (demoteImplementedToAborted sid t reason o d).fst = Except.ok ()) :
    (demoteImplementedToAborted sid t reason o d).snd =
      { d with
        report := FileRead.parsed (demotedReport sid t reason)
        demoted := d.report
        implementationMd := false
        abortMd := true } := by
  cases o with
  | done => rfl
  | rewritten => cases h
  | renamed => cases h
  | untouched => cases h

/-- What the coordinator does with a report depends on what it reads: nothing
when there is none, and otherwise on whether the report is usable and what it
says. -/
theorem readReport_cases (sid : String) (t : MergedTarget) (d : TargetState) :
    (readOptimizerReport t.id d.report = Except.ok none ∧ d.report = FileRead.notFound)
      ∨ (∃ e, readOptimizerReport t.id d.report = Except.error e)
      ∨ ∃ r, readOptimizerReport t.id d.report = Except.ok (some r)
        ∧ d.report = FileRead.parsed r
        ∧ ((∃ e, validateReportContext r t.id sid t.deliveryMode = Except.error e)
          ∨ validateReportContext r t.id sid t.deliveryMode = Except.ok ()
            ∧ r.Usable sid t) := by
  cases hread : readOptimizerReport t.id d.report with
  | error e => exact Or.inr (Or.inl ⟨e, rfl⟩)
  | ok o =>
    cases o with
    | none => exact Or.inl ⟨rfl, FileRead.readOptional_ok_none_iff.mp hread⟩
    | some r =>
      refine Or.inr (Or.inr ⟨r, rfl, ?_, ?_⟩)
      · exact (FileRead.readOptional_ok_some_iff.mp hread).left
      · cases hctx : validateReportContext r t.id sid t.deliveryMode with
        | error e => exact Or.inl ⟨e, rfl⟩
        | ok u => exact Or.inr ⟨rfl, (report_usable_iff.mp ⟨hread, hctx⟩).right⟩

/-- The provenance that is left when the commit could not be recorded. -/
def Attempt.leftover (a : Attempt) (sid : String) (t : MergedTarget) :
    FileRead CoordinatorProvenance :=
  if a.recordLeaves = true ∧ (a.provenance sid t).validateModel.isOk = true then
    FileRead.malformed
  else FileRead.notFound

/-- How committing ends that returns: with the commit on record, or with the
report demoted and whatever the failed steps left of a provenance. -/
theorem commitAndRecord_ok (hnone : d.provenance = FileRead.notFound)
    (h : (commitAndRecord sid t a now d).fst = Except.ok ()) :
    (a.Commits ∧ a.Records sid t ∧ (commitAndRecord sid t a now d).snd =
      { d with
        checkout := some a.committed
        provenance := FileRead.parsed (a.provenance sid t)
        committedAt := now })
    ∨ ∃ reason, ¬ (a.Commits ∧ a.Records sid t)
      ∧ (commitAndRecord sid t a now d).snd.report
        = FileRead.parsed (demotedReport sid t reason)
      ∧ (commitAndRecord sid t a now d).snd.implementationMd = false
      ∧ (commitAndRecord sid t a now d).snd.provenance
        = if a.Commits then a.leftover sid t else FileRead.notFound := by
  obtain ⟨hnot, reason, hc⟩ | ⟨-, -, hc⟩ | ⟨hcommits, hc⟩ :=
    commitAndRecord_cases sid t a now d
  · right
    rw [hc] at h ⊢
    rw [demote_ok h]
    exact ⟨reason, fun hboth => hnot hboth.left, rfl, rfl, by rw [if_neg hnot]; exact hnone⟩
  · rw [hc] at h
    cases h
  · rw [hc] at h ⊢
    obtain ⟨hrec, hw⟩ | ⟨hnot, reason, hw⟩ := writeCoordinatorProvenance_cases sid t a
      now { d with checkout := some a.committed }
    · left
      exact ⟨hcommits, hrec, hw⟩
    · right
      rw [hw] at h ⊢
      rw [demote_ok h]
      -- the commit stands, and maybe half of its provenance
      refine ⟨reason, fun hboth => hnot hboth.right, rfl, rfl, ?_⟩
      rw [if_pos hcommits]
      unfold Attempt.leftover Attempt.unrecorded
      split_ifs
      · rfl
      · exact hnone

/-- How the coordinator's side of an attempt goes that returns, up to the last
check: there is no report, there is a usable aborted one, or there is a usable
implemented one to commit for. -/
theorem coordinatorCommitIfKept_ok
    (h : (coordinatorCommitIfKept sid t a now d).fst = Except.ok ()) :
    (d.report = FileRead.notFound ∧ (coordinatorCommitIfKept sid t a now d).snd = d)
    ∨ (∃ r, d.report = FileRead.parsed (OptimizerReport.aborted r)
      ∧ (OptimizerReport.aborted r).Usable sid t
      ∧ (coordinatorCommitIfKept sid t a now d).snd = { d with abortMd := true })
    ∨ ∃ r, d.report = FileRead.parsed (OptimizerReport.implemented r)
      ∧ (OptimizerReport.implemented r).Usable sid t
      ∧ coordinatorCommitIfKept sid t a now d
        = commitAndRecord sid t a now { d with implementationMd := true } := by
  unfold coordinatorCommitIfKept at h ⊢
  obtain ⟨hread, hf⟩ | ⟨e, hread⟩ | ⟨r, hread, hf, ⟨e, hctx⟩ | ⟨hctx, huse⟩⟩ :=
    readReport_cases sid t d
  · simp only [hread]
    exact Or.inl ⟨hf, trivial⟩
  · simp only [hread] at h
    cases h
  · simp only [hread, hctx] at h
    cases h
  · right
    simp only [hread, hctx] at h ⊢
    by_cases hstop : a.stop = some Stage.companion
    · rw [if_pos hstop] at h
      cases h
    · rw [if_neg hstop]
      cases r with
      | aborted r => exact Or.inl ⟨r, hf, huse, rfl⟩
      | implemented r => exact Or.inr ⟨r, hf, huse, rfl⟩

/-- How the last check goes that returns: with nothing to check, or with a
usable report, which is demoted when it says that there is an implementation
and the clone is where it was created. -/
theorem verifyKeptOrDemote_ok (h : (verifyKeptOrDemote sid t a d).fst = Except.ok ()) :
    (d.report = FileRead.notFound ∧ (verifyKeptOrDemote sid t a d).snd = d)
    ∨ ∃ r, d.report = FileRead.parsed r ∧ r.Usable sid t
      ∧ ((r.isImplemented = true ∧ a.baseKnown = true ∧ a.headKnown = true
            ∧ d.checkout.map (fun c => c.head) = some a.base.head)
          ∧ (∃ reason, (verifyKeptOrDemote sid t a d).snd =
            { d with
              report := FileRead.parsed (demotedReport sid t reason)
              demoted := d.report
              implementationMd := false
              abortMd := true })
        ∨ ¬ (r.isImplemented = true ∧ a.baseKnown = true ∧ a.headKnown = true
            ∧ d.checkout.map (fun c => c.head) = some a.base.head)
          ∧ (verifyKeptOrDemote sid t a d).snd = d) := by
  unfold verifyKeptOrDemote at h ⊢
  obtain ⟨hread, hf⟩ | ⟨e, hread⟩ | ⟨r, hread, hf, ⟨e, hctx⟩ | ⟨hctx, huse⟩⟩ :=
    readReport_cases sid t d
  · simp only [hread]
    exact Or.inl ⟨hf, trivial⟩
  · simp only [hread] at h
    cases h
  · simp only [hread, hctx] at h
    cases h
  · simp only [hread, hctx] at h ⊢
    refine Or.inr ⟨r, hf, huse, ?_⟩
    by_cases hback : r.isImplemented = true ∧ a.baseKnown = true ∧ a.headKnown = true
        ∧ d.checkout.map (fun c => c.head) = some a.base.head
    · rw [if_pos hback] at h ⊢
      exact Or.inl ⟨hback, _, demote_ok h⟩
    · rw [if_neg hback]
      exact Or.inr ⟨hback, rfl⟩

/-- The coordinator's side of an attempt returns when both of its parts do. -/
theorem coordinate_ok (h : (coordinate sid t a now d).fst = Except.ok ()) :
    (coordinatorCommitIfKept sid t a now d).fst = Except.ok ()
      ∧ (verifyKeptOrDemote sid t a (coordinatorCommitIfKept sid t a now d).snd).fst
        = Except.ok ()
      ∧ (coordinate sid t a now d).snd
        = (verifyKeptOrDemote sid t a (coordinatorCommitIfKept sid t a now d).snd).snd := by
  simp only [coordinate] at h ⊢
  cases hfst : (coordinatorCommitIfKept sid t a now d).fst with
  | error e =>
    simp only [hfst] at h
    cases h
  | ok u =>
    simp only [hfst] at h ⊢
    by_cases hstop : a.stop = some Stage.recorded
    · rw [if_pos hstop] at h
      cases h
    · rw [if_neg hstop] at h ⊢
      exact ⟨trivial, h, rfl⟩

end Steps

/-! ## When nothing is left behind -/

/-- A commit moves the clone off the commit it was created at, and failing to
record it leaves no file. -/
def Attempt.RecordsCleanly (a : Attempt) (sessionId : String) (target : MergedTarget) :
    Prop :=
  ∀ r, a.report = FileRead.parsed (OptimizerReport.implemented r) →
    (OptimizerReport.implemented r).Usable sessionId target → a.Commits →
      (a.Records sessionId target → a.commit ≠ a.base.head)
      ∧ (¬ a.Records sessionId target →
        a.leftover sessionId target = FileRead.notFound)

section Ends

variable {sid : String} {t : MergedTarget} {a : Attempt} {now : ℕ}
  {d : TargetState}

/-- A provenance that is recorded is about this commit and this target. -/
theorem kept_of_records {d' : TargetState} {r : ImplementedReport}
    (hreport : d'.report = FileRead.parsed (OptimizerReport.implemented r))
    (huse : (OptimizerReport.implemented r).Usable sid t) (hrec : a.Records sid t)
    (hprov : d'.provenance = FileRead.parsed (a.provenance sid t))
    (hcheckout : d'.checkout = some a.committed) (hmoved : a.commit ≠ a.base.head) :
    Kept sid t a.base.head d' := by
  have hvalid : (a.provenance sid t).validateModel = Except.ok () :=
    isOk_unit_iff.mp hrec.right
  have hne : (a.provenance sid t).headSha ≠ (a.provenance sid t).baseSha := by
    have hparts := hvalid
    simp only [CoordinatorProvenance.validateModel, seq_ok_iff, bailIf_ok_iff] at hparts
    exact fun h => hparts.right.right.right.right.left h.symm
  refine ⟨⟨r, hreport, huse⟩, a.provenance sid t, hprov, hvalid, ?_, hne, ?_, hmoved⟩
  · exact CoordinatorProvenance.validateContext_ok_iff.mpr ⟨rfl, rfl, rfl⟩
  · rw [hcheckout]
    rfl

/-- An attempt that keeps its commit settles the target when the clone has
moved. -/
theorem settled_recorded_iff {d' : TargetState} {r : ImplementedReport}
    (hreport : d'.report = FileRead.parsed (OptimizerReport.implemented r))
    (huse : (OptimizerReport.implemented r).Usable sid t) (hrec : a.Records sid t)
    (hprov : d'.provenance = FileRead.parsed (a.provenance sid t))
    (hcheckout : d'.checkout = some a.committed) :
    Settled sid t a.base.head d' ↔ a.commit ≠ a.base.head := by
  rw [settled_iff]
  constructor
  · rintro (h | h | h)
    · cases h.report.symm.trans hreport
    · obtain ⟨r', hr', -⟩ := h.report
      cases hr'.symm.trans hreport
    · obtain ⟨p, hp, -, -, -, -, hne⟩ := h.provenance
      obtain rfl : p = a.provenance sid t := FileRead.parsed.inj (hp.symm.trans hprov)
      exact hne
  · exact fun h => Or.inr (Or.inr (kept_of_records hreport huse hrec hprov hcheckout h))

/-- An attempt that ends with an aborted report settles the target when no
provenance is left. -/
theorem settled_aborted_iff {d' : TargetState} {base : String} {r : AbortedReport}
    (hreport : d'.report = FileRead.parsed (OptimizerReport.aborted r))
    (huse : (OptimizerReport.aborted r).Usable sid t)
    (hmd : d'.implementationMd = false) :
    Settled sid t base d' ↔ d'.provenance = FileRead.notFound := by
  rw [settled_iff]
  constructor
  · rintro (h | h | h)
    · exact h.provenance
    · exact h.provenance
    · obtain ⟨r', hr', -⟩ := h.report
      cases hr'.symm.trans hreport
  · exact fun h => Or.inr (Or.inl ⟨⟨r, hreport, huse⟩, h, hmd⟩)

/-- The last check leaves an aborted report alone. -/
theorem verifyKeptOrDemote_of_aborted {r : AbortedReport}
    (hreport : d.report = FileRead.parsed (OptimizerReport.aborted r))
    (h : (verifyKeptOrDemote sid t a d).fst = Except.ok ()) :
    (OptimizerReport.aborted r).Usable sid t
      ∧ (verifyKeptOrDemote sid t a d).snd = d := by
  obtain ⟨hnone, -⟩ | ⟨r', hr', huse, hend⟩ := verifyKeptOrDemote_ok h
  · cases hreport.symm.trans hnone
  · obtain rfl : OptimizerReport.aborted r = r' :=
      FileRead.parsed.inj (hreport.symm.trans hr')
    obtain ⟨hback, -⟩ | ⟨-, hstay⟩ := hend
    · cases hback.left
    · exact ⟨huse, hstay⟩

/-- The last check demotes a recorded commit that leaves the clone where it was
created, and the provenance stays. -/
theorem verifyKeptOrDemote_recorded_settles_iff {r : ImplementedReport}
    (hreport : d.report = FileRead.parsed (OptimizerReport.implemented r))
    (huse : (OptimizerReport.implemented r).Usable sid t) (hrec : a.Records sid t)
    (hprov : d.provenance = FileRead.parsed (a.provenance sid t))
    (hcheckout : d.checkout = some a.committed)
    (h : (verifyKeptOrDemote sid t a d).fst = Except.ok ()) :
    Settled sid t a.base.head (verifyKeptOrDemote sid t a d).snd
      ↔ a.commit ≠ a.base.head := by
  obtain ⟨hnone, -⟩ | ⟨r', hr', -, ⟨hback, reason, hdem⟩ | ⟨-, hstay⟩⟩ :=
    verifyKeptOrDemote_ok h
  · cases hreport.symm.trans hnone
  · rw [hdem]
    refine iff_of_false (fun hs => ?_) (fun hne => ?_)
    · obtain hs | hs | hs := settled_iff.mp hs
      · cases hs.report
      · cases hprov.symm.trans hs.provenance
      · obtain ⟨_, hk, -⟩ := hs.report
        cases hk
    · have hhead := hback.right.right.right
      rw [hcheckout] at hhead
      exact hne (Option.some.inj hhead)
  · rw [hstay]
    exact settled_recorded_iff hreport huse hrec hprov hcheckout

/-- An attempt with a usable implemented report records cleanly when its commit
does, where there is one. -/
theorem Attempt.recordsCleanly_iff {r : ImplementedReport}
    (hreport : a.report = FileRead.parsed (OptimizerReport.implemented r))
    (huse : (OptimizerReport.implemented r).Usable sid t) :
    a.RecordsCleanly sid t ↔ (a.Commits →
      (a.Records sid t → a.commit ≠ a.base.head)
      ∧ (¬ a.Records sid t → a.leftover sid t = FileRead.notFound)) :=
  ⟨fun h => h r hreport huse, fun h _ _ _ => h⟩

/-- The coordinator's side of an attempt, begun where the agent left it. -/
theorem coordinate_settles_iff (hreport : d.report = a.report)
    (hnone : d.provenance = FileRead.notFound) (hmd : d.implementationMd = false)
    (h : (coordinate sid t a now d).fst = Except.ok ()) :
    Settled sid t a.base.head (coordinate sid t a now d).snd ↔ a.RecordsCleanly sid t := by
  obtain ⟨hcommit, hverify, hend⟩ := coordinate_ok h
  rw [hend]
  obtain ⟨hf, hsnd⟩ | ⟨r, hf, huse, hsnd⟩ | ⟨r, hf, huse, hcc⟩ :=
    coordinatorCommitIfKept_ok hcommit
  · -- There is no report.
    rw [hsnd] at hverify ⊢
    obtain ⟨-, hstay⟩ | ⟨r, hr, -⟩ := verifyKeptOrDemote_ok hverify
    · rw [hstay]
      refine iff_of_true (settled_iff.mpr (Or.inl ⟨hf, hnone⟩)) fun r hr => ?_
      cases (hreport.symm.trans hf).symm.trans hr
    · cases hf.symm.trans hr
  · -- The agent aborted.
    rw [hsnd] at hverify ⊢
    rw [(verifyKeptOrDemote_of_aborted (d := { d with abortMd := true }) hf hverify).right]
    refine iff_of_true (Iff.mpr (settled_aborted_iff (r := r) hf huse hmd) hnone)
      fun r' hr' => ?_
    cases (hreport.symm.trans hf).symm.trans hr'
  · -- The agent implemented the target, and the report may still be demoted.
    rw [hcc] at hcommit hverify ⊢
    rw [Attempt.recordsCleanly_iff (hreport.symm.trans hf) huse]
    obtain ⟨hcommits, hrec, hsnd⟩ | ⟨reason, hnot, hrep, himp, hprov⟩ :=
      commitAndRecord_ok (d := { d with implementationMd := true }) hnone hcommit
    · rw [hsnd] at hverify ⊢
      refine (verifyKeptOrDemote_recorded_settles_iff ?_ huse hrec ?_ ?_ hverify).trans ?_
      · exact hf
      · rfl
      · rfl
      · exact ⟨fun hne _ => ⟨fun _ => hne, fun hn => absurd hrec hn⟩,
          fun hc => (hc hcommits).left hrec⟩
    · obtain ⟨huse', hstay⟩ := verifyKeptOrDemote_of_aborted hrep hverify
      rw [hstay, settled_aborted_iff hrep huse' himp, hprov]
      by_cases hcommits : a.Commits
      · have hrec : ¬ a.Records sid t := fun hr => hnot ⟨hcommits, hr⟩
        rw [if_pos hcommits]
        exact ⟨fun hl _ => ⟨fun hr => absurd hr hrec, fun _ => hl⟩,
          fun hc => (hc hcommits).right hrec⟩
      · rw [if_neg hcommits]
        exact iff_of_true rfl fun hc => absurd hc hcommits

/-- Only issues are routed past the agent. -/
theorem decideOne_ne_routed {manifest : FileRead BaselineBinaryManifest} {resume : Bool}
    (hmode : t.deliveryMode ≠ DeliveryMode.consensusIssue) :
    decideOne sid manifest t resume d ≠ Decision.routed := by
  unfold decideOne
  rw [if_neg hmode]
  cases resume with
  | false => exact Decision.noConfusion
  | true =>
    rw [if_pos rfl]
    cases readBaselineSourceSha manifest with
    | error e => exact Decision.noConfusion
    | ok sha =>
      dsimp only
      split_ifs <;> exact Decision.noConfusion

/-- An attempt that returns has run the agent and the coordinator's side. -/
theorem attemptOptimizer_ok (h : (attemptOptimizer sid t a now d).fst = Except.ok ()) :
    attemptOptimizer sid t a now d = coordinate sid t a now (a.invoked t d) := by
  unfold attemptOptimizer at h ⊢
  split
  case h_1 hstop => simp [hstop, bail] at h
  case h_2 hstop => simp [hstop, bail] at h
  case h_3 hstop => simp [hstop, bail] at h
  case h_4 hstop => simp [hstop, bail] at h
  case h_5 => rfl

end Ends

/-- **An attempt that returns keeps its commit or drops it – exactly when it
records cleanly.** Whatever was in the directory of a target that is not an
issue, whatever report and clone the agent leaves and whichever steps fail: a
run that did not skip the target and returns without an error leaves it in
exactly one of the three ways if, and only if, the coordinator's commit moved
the clone off the commit that it was created at and a provenance that could
not be recorded left no file. -/
theorem runOne_settles_iff {sid : String} {manifest : FileRead BaselineBinaryManifest}
    {t : MergedTarget} {resume : Bool} {a : Attempt} {now : ℕ} {d : TargetState}
    (hmode : t.deliveryMode ≠ DeliveryMode.consensusIssue)
    (hskip : decideOne sid manifest t resume d ≠ Decision.skipped)
    (hok : (runOne sid manifest t resume a now d).fst = Except.ok ()) :
    Settled sid t a.base.head (runOne sid manifest t resume a now d).snd
      ↔ a.RecordsCleanly sid t := by
  unfold runOne at hok ⊢
  by_cases hstart : a.stop = some Stage.starting
  · rw [if_pos hstart] at hok
    cases hok
  · rw [if_neg hstart] at hok ⊢
    cases hd : decideOne sid manifest t resume d with
    | routed => exact absurd hd (decideOne_ne_routed hmode)
    | refused e =>
      rw [hd] at hok
      cases hok
    | skipped => exact absurd hd hskip
    | attempted =>
      rw [hd] at hok
      dsimp only at hok ⊢
      have heq := attemptOptimizer_ok hok
      rw [heq] at hok ⊢
      exact coordinate_settles_iff rfl rfl rfl hok

/-- The theorem at an attempt in which all goes well. -/
theorem runOne_settles_iff_of_goodAttempt :
    Settled "20260614" (benchTarget "cache-reads") (shaOf '0')
      (runOne "20260614" FileRead.notFound (benchTarget "cache-reads") false
        (goodAttempt "20260614" "cache-reads" (shaOf '0') (shaOf '1')) 0
        TargetState.fresh).snd := by
  have hrecords : (goodAttempt "20260614" "cache-reads" (shaOf '0') (shaOf '1')).Records
      "20260614" (benchTarget "cache-reads") := by decide +kernel
  have hok : (runOne "20260614" FileRead.notFound (benchTarget "cache-reads") false
      (goodAttempt "20260614" "cache-reads" (shaOf '0') (shaOf '1')) 0
      TargetState.fresh).fst = Except.ok () := isOk_unit_iff.mp (by decide +kernel)
  refine (runOne_settles_iff (by decide) (by decide) hok).mpr fun r _ _ _ => ?_
  exact ⟨fun _ => by decide +kernel, fun hnot => absurd hrecords hnot⟩

/-- An attempt whose provenance is written in part. -/
def brokenAttempt : Attempt :=
  { goodAttempt "20260614" "cache-reads" (shaOf '0') (shaOf '1') with
    recordOk := false
    recordLeaves := true }

/-- It fails where writing the provenance does: the report is demoted, and a
part of the provenance stays next to it. -/
theorem not_runOne_settles_of_brokenAttempt :
    ¬ ∀ (sid : String) (manifest : FileRead BaselineBinaryManifest) (t : MergedTarget)
      (resume : Bool) (a : Attempt) (now : ℕ) (d : TargetState),
      t.deliveryMode ≠ DeliveryMode.consensusIssue →
      decideOne sid manifest t resume d ≠ Decision.skipped →
      (runOne sid manifest t resume a now d).fst = Except.ok () →
      Settled sid t a.base.head (runOne sid manifest t resume a now d).snd := by
  intro h
  have hok : (runOne "20260614" FileRead.notFound (benchTarget "cache-reads") false
      brokenAttempt 0 TargetState.fresh).fst = Except.ok () :=
    isOk_unit_iff.mp (by decide +kernel)
  have hleft : (runOne "20260614" FileRead.notFound (benchTarget "cache-reads") false
      brokenAttempt 0 TargetState.fresh).snd.provenance = FileRead.malformed := by
    decide +kernel
  have hs := h "20260614" FileRead.notFound (benchTarget "cache-reads") false
    brokenAttempt 0 TargetState.fresh (by decide) (by decide) hok
  obtain hs | hs | hs := settled_iff.mp hs
  · cases hleft.symm.trans hs.provenance
  · cases hleft.symm.trans hs.provenance
  · obtain ⟨p, hp, -⟩ := hs.provenance
    cases hleft.symm.trans hp
