import Sbagent.Acceptance

/-!
# What a resumed run leaves alone

A resumed run of the optimizers skips a target when its files say that it is
done. What the files say is compared with the session, the id of the target,
its delivery mode and the archived baseline – and with nothing else. The
targets are merged anew before the optimizers of a resumed session run, and
an id may come back with another definition; the clone may have gone, or have
moved on. Neither is noticed, since neither is looked at. What is looked at,
and what becomes of a target that is not skipped, is in `ResumeSound`.
-/

open Fallible

/-- The archived baseline can be read. -/
def Session.HasBaseline (s : Session) : Prop :=
  ∃ m, s.manifest = FileRead.parsed m ∧ m.validateModel = Except.ok ()

/-- The files of a target say that it is done: the archived baseline can be
read, there is a report that belongs to the target, and an implementation has
a provenance that does, on top of the archived baseline. -/
def ResumeComplete (s : Session) (t : MergedTarget) : Prop :=
  ∃ m r, s.manifest = FileRead.parsed m ∧ m.validateModel = Except.ok ()
    ∧ (s.target t.id).report = FileRead.parsed r
    ∧ r.validateModel = Except.ok () ∧ r.targetId = t.id ∧ r.sessionId = s.id
    ∧ r.deliveryMode = t.deliveryMode
    ∧ (r.isImplemented = true → ∃ p,
      (s.target t.id).provenance = FileRead.parsed p
        ∧ p.validateModel = Except.ok () ∧ p.sessionId = s.id
        ∧ p.targetId = t.id ∧ p.deliveryMode = t.deliveryMode
        ∧ p.baseSha = m.sourceSha)

/-- Two definitions of a target ask for the same thing. -/
def MergedTarget.SameDefinition (t t' : MergedTarget) : Prop :=
  t.id = t'.id ∧ t.deliveryMode = t'.deliveryMode
    ∧ t.proposedChange = t'.proposedChange ∧ t.files = t'.files
    ∧ t.pocTestScope = t'.pocTestScope
    ∧ t.verificationReplay = t'.verificationReplay

/-- A resumed run skips a target only if its report was made for it as it is
defined now. -/
def SkipsOnlyUnchanged (s : Session) : Prop :=
  ∀ t ∈ s.mergedTargets,
    decideOne s.id s.manifest t true (s.target t.id) = Decision.skipped →
      ∃ t', (s.target t.id).producedFor = some t' ∧ t'.SameDefinition t

/-- A resumed run skips an implemented target only if its clone is at the
recorded commit. -/
def SkipsOnlyCheckedOut (s : Session) : Prop :=
  ∀ t ∈ s.mergedTargets,
    decideOne s.id s.manifest t true (s.target t.id) = Decision.skipped →
      ∀ r, (s.target t.id).report = FileRead.parsed (OptimizerReport.implemented r) →
        ∃ p c, (s.target t.id).provenance = FileRead.parsed p
          ∧ (s.target t.id).checkout = some c ∧ c.head = p.headSha

/-- What a resumed run does about a target. -/
structure ResumeSound (s : Session) (t : MergedTarget) : Prop where
  /-- A target that goes to an issue is routed, as in a run that is not resumed. -/
  routed : t.deliveryMode = DeliveryMode.consensusIssue →
    decideOne s.id s.manifest t true (s.target t.id) = Decision.routed
      ∧ ∀ a : Attempt, runOne s.id s.manifest t true a s.now (s.target t.id)
        = runOne s.id s.manifest t false a s.now (s.target t.id)
  /-- It skips exactly what its files say is done. -/
  skipped_iff :
    decideOne s.id s.manifest t true (s.target t.id) = Decision.skipped
      ↔ t.deliveryMode ≠ DeliveryMode.consensusIssue ∧ ResumeComplete s t
  /-- The report of a skipped target was made for a target with its id. -/
  produced :
    decideOne s.id s.manifest t true (s.target t.id) = Decision.skipped →
      ∃ t', (s.target t.id).producedFor = some t' ∧ t'.id = t.id
  /-- A skipped target stays as it is. -/
  untouched :
    decideOne s.id s.manifest t true (s.target t.id) = Decision.skipped →
      ∀ a : Attempt, a.stop ≠ some Stage.starting →
        runOne s.id s.manifest t true a s.now (s.target t.id)
          = (Except.ok (), s.target t.id)
  /-- Every other target is run again if the archived baseline can be read. -/
  again : t.deliveryMode ≠ DeliveryMode.consensusIssue →
    ¬ ResumeComplete s t → s.HasBaseline → ∀ a : Attempt, a.Invoked →
      Produced s.id t a s.now (s.target t.id)
        (runOne s.id s.manifest t true a s.now (s.target t.id)).snd
  /-- If it cannot, the run is refused, and the target stays as it is. -/
  refused : t.deliveryMode ≠ DeliveryMode.consensusIssue →
    ¬ s.HasBaseline → ∀ a : Attempt, a.stop ≠ some Stage.starting →
      ∃ e, runOne s.id s.manifest t true a s.now (s.target t.id)
        = (Except.error e, s.target t.id)

section Decide

variable {s : Session} {t : MergedTarget}

theorem readBaselineSourceSha_ok_iff {f : FileRead BaselineBinaryManifest}
    {sha : String} : readBaselineSourceSha f = Except.ok sha
      ↔ ∃ m, f = FileRead.parsed m ∧ m.validateModel = Except.ok ()
        ∧ m.sourceSha = sha := by
  simp only [readBaselineSourceSha, bind_ok_iff, pure_ok_iff, ofOption_ok_iff]
  constructor
  · intro h
    obtain ⟨o, hread, m, rfl, rfl⟩ := h
    obtain ⟨hf, hv⟩ := FileRead.readOptional_ok_some_iff.mp hread
    exact ⟨m, hf, hv, rfl⟩
  · intro h
    obtain ⟨m, hf, hv, rfl⟩ := h
    exact ⟨some m, FileRead.readOptional_ok_some_iff.mpr ⟨hf, hv⟩, m, rfl, rfl⟩

theorem provenanceMatches_iff {d : TargetState} {sid sha : String} :
    provenanceMatches t sid sha (readCoordinatorProvenance t.id d.provenance) = true
      ↔ ∃ p, d.provenance = FileRead.parsed p ∧ p.validateModel = Except.ok ()
        ∧ p.sessionId = sid ∧ p.targetId = t.id
        ∧ p.deliveryMode = t.deliveryMode ∧ p.baseSha = sha := by
  have hok : ∀ p, readCoordinatorProvenance t.id d.provenance = Except.ok (some p)
      ↔ d.provenance = FileRead.parsed p ∧ p.validateModel = Except.ok () :=
    fun p => FileRead.readOptional_ok_some_iff
  constructor
  · intro h
    cases hread : readCoordinatorProvenance t.id d.provenance with
    | error e =>
      rw [hread] at h
      cases h
    | ok o =>
      rw [hread] at h
      cases o with
      | none => cases h
      | some p =>
        simp only [provenanceMatches, Bool.and_eq_true, isOk_unit_iff,
          CoordinatorProvenance.validateContext_ok_iff, beq_iff_eq] at h
        obtain ⟨hf, hv⟩ := (hok p).mp hread
        obtain ⟨⟨hsid, hid, hmode⟩, hsha⟩ := h
        exact ⟨p, hf, hv, hsid, hid, hmode, hsha⟩
  · intro h
    obtain ⟨p, hf, hv, hsid, hid, hmode, hsha⟩ := h
    rw [(hok p).mpr ⟨hf, hv⟩]
    simp only [provenanceMatches, Bool.and_eq_true, isOk_unit_iff,
      CoordinatorProvenance.validateContext_ok_iff, beq_iff_eq]
    exact ⟨⟨hsid, hid, hmode⟩, hsha⟩

/-- **What makes a target complete.** -/
theorem resumeTargetIsComplete_iff {d : TargetState} {sid sha : String} :
    resumeTargetIsComplete d t sid sha = true
      ↔ ∃ r, d.report = FileRead.parsed r ∧ r.validateModel = Except.ok ()
        ∧ r.targetId = t.id ∧ r.sessionId = sid
        ∧ r.deliveryMode = t.deliveryMode
        ∧ (r.isImplemented = true → ∃ p, d.provenance = FileRead.parsed p
          ∧ p.validateModel = Except.ok () ∧ p.sessionId = sid
          ∧ p.targetId = t.id ∧ p.deliveryMode = t.deliveryMode
          ∧ p.baseSha = sha) := by
  have hbool : ∀ b c : Bool, (!b || c) = true ↔ (b = true → c = true) := by decide
  constructor
  · intro h
    unfold resumeTargetIsComplete at h
    cases hread : readOptimizerReport t.id d.report with
    | error e =>
      rw [hread] at h
      cases h
    | ok o =>
      rw [hread] at h
      cases o with
      | none => cases h
      | some r =>
        simp only [Bool.and_eq_true, isOk_unit_iff, hbool,
          provenanceMatches_iff] at h
        obtain ⟨hf, hv, hid, hsid, hmode⟩ := report_usable_iff.mp ⟨hread, h.left⟩
        exact ⟨r, hf, hv, hid, hsid, hmode, h.right⟩
  · intro h
    obtain ⟨r, hf, hv, hid, hsid, hmode, hprov⟩ := h
    obtain ⟨hread, hctx⟩ := report_usable_iff.mpr ⟨hf, hv, hid, hsid, hmode⟩
    unfold resumeTargetIsComplete
    rw [hread]
    simp only [Bool.and_eq_true, isOk_unit_iff, hbool, provenanceMatches_iff]
    exact ⟨hctx, hprov⟩

/-- A resumed run either routes a target, or finds no archived baseline, or
skips or attempts it, by what its files say. -/
theorem decideOne_resume_cases (s : Session) (t : MergedTarget) :
    (t.deliveryMode = DeliveryMode.consensusIssue
        ∧ decideOne s.id s.manifest t true (s.target t.id) = Decision.routed)
      ∨ t.deliveryMode ≠ DeliveryMode.consensusIssue
        ∧ ((¬ s.HasBaseline ∧ ∃ e,
            decideOne s.id s.manifest t true (s.target t.id) = Decision.refused e)
          ∨ s.HasBaseline
            ∧ ((ResumeComplete s t ∧ decideOne s.id s.manifest t true
                (s.target t.id) = Decision.skipped)
              ∨ ¬ ResumeComplete s t ∧ decideOne s.id s.manifest t true
                (s.target t.id) = Decision.attempted)) := by
  by_cases hmode : t.deliveryMode = DeliveryMode.consensusIssue
  · exact Or.inl ⟨hmode, by rw [decideOne, if_pos hmode]⟩
  · refine Or.inr ⟨hmode, ?_⟩
    rw [decideOne, if_neg hmode, if_pos rfl]
    cases hsha : readBaselineSourceSha s.manifest with
    | error e =>
      refine Or.inl ⟨?_, _, rfl⟩
      rintro ⟨m, hm, hv⟩
      rw [readBaselineSourceSha_ok_iff.mpr ⟨m, hm, hv, rfl⟩] at hsha
      cases hsha
    | ok sha =>
      obtain ⟨m, hm, hv, rfl⟩ := readBaselineSourceSha_ok_iff.mp hsha
      refine Or.inr ⟨⟨m, hm, hv⟩, ?_⟩
      -- the manifest is read once, so both speak of the same baseline
      have hiff : ResumeComplete s t
          ↔ resumeTargetIsComplete (s.target t.id) t s.id m.sourceSha = true := by
        rw [resumeTargetIsComplete_iff]
        constructor
        · rintro ⟨m', r, hm', -, h⟩
          obtain rfl : m = m' := FileRead.parsed.inj (hm.symm.trans hm')
          exact ⟨r, h⟩
        · rintro ⟨r, h⟩
          exact ⟨m, r, hm, hv, h⟩
      rw [hiff]
      by_cases hc : resumeTargetIsComplete (s.target t.id) t s.id m.sourceSha = true
      · exact Or.inl ⟨hc, if_pos hc⟩
      · exact Or.inr ⟨hc, if_neg hc⟩

end Decide

/-- In every session that a run can lead to, a report was left by an agent
that was given a target with the id it stands under. -/
def GivenInv (s : Session) : Prop :=
  ∀ id, (s.target id).report = FileRead.notFound
    ∨ ∃ t, (s.target id).producedFor = some t ∧ t.id = id

theorem givenInv_step {s s' : Session} {e : Event} (hinv : GivenInv s)
    (hstep : step s e = some s') : GivenInv s' := by
  obtain ⟨-, rfl⟩ := step_eq_some_iff.mp hstep
  intro id
  show ((s.after e).target id).report = FileRead.notFound
    ∨ ∃ t, ((s.after e).target id).producedFor = some t ∧ t.id = id
  obtain ht | ⟨t, resume, a, rfl, hid, -, -, hp⟩
    | ⟨t, c, m, -, -, -, -, ht, -⟩ | ⟨t, ra, -, -, ht⟩ := after_target_cases s e id
  · obtain ⟨hr, -⟩ | hr := ht.report
    · rw [hr, ht.producedFor]
      exact hinv id
    · exact Or.inl hr
  · exact Or.inr ⟨t, hp.producedFor, hid⟩
  · rw [ht]
    exact hinv id
  · rw [ht]
    exact hinv id

theorem runOne_eq_of_decision {s : Session} {t : MergedTarget} {a : Attempt}
    (hstart : a.stop ≠ some Stage.starting) :
    (decideOne s.id s.manifest t true (s.target t.id) = Decision.attempted →
      runOne s.id s.manifest t true a s.now (s.target t.id)
        = attemptOptimizer s.id t a s.now (s.target t.id))
    ∧ (decideOne s.id s.manifest t true (s.target t.id) = Decision.skipped →
      runOne s.id s.manifest t true a s.now (s.target t.id)
        = (Except.ok (), s.target t.id))
    ∧ ∀ e, decideOne s.id s.manifest t true (s.target t.id) = Decision.refused e →
      runOne s.id s.manifest t true a s.now (s.target t.id)
        = (Except.error e, s.target t.id) := by
  refine ⟨fun h => ?_, fun h => ?_, fun e h => ?_⟩
  · rw [runOne, if_neg hstart, h]
  · rw [runOne, if_neg hstart, h]
  · rw [runOne, if_neg hstart, h]

/-- **Resuming is sound for ids.** In every session that a run of commands can
lead to, however often the targets were merged anew in between, a resumed run
skips exactly the targets whose files say that they are done – a valid report
with their session, id and mode, and next to an implementation a valid
provenance with the same, on top of the archived baseline – and the report
then was made for a target with that id. Whether the definition is still the
same and where the clone is does not matter. A target that goes to an issue is routed
as in any run; every other one is run again, or, when the archived baseline cannot be
read, refused. -/
theorem resumeSound_of_run {id : String} {source : FileRead SourceJson}
    {es : List Event} {s : Session}
    (hrun : Runs.run step (Session.start id source) es = some s)
    (t : MergedTarget) : ResumeSound s t := by
  have hgiven : GivenInv s :=
    Runs.run_invariant_of_step (fun _ _ _ => givenInv_step) (fun _ => Or.inl rfl) hrun
  have hiff : decideOne s.id s.manifest t true (s.target t.id) = Decision.skipped
      ↔ t.deliveryMode ≠ DeliveryMode.consensusIssue ∧ ResumeComplete s t := by
    obtain ⟨hmode, hd⟩ | ⟨hmode, ⟨hno, e, hd⟩ | ⟨-, ⟨hc, hd⟩ | ⟨hc, hd⟩⟩⟩ :=
      decideOne_resume_cases s t
    · exact iff_of_false (by rw [hd]; exact Decision.noConfusion) fun h => h.left hmode
    · refine iff_of_false (by rw [hd]; exact Decision.noConfusion) ?_
      rintro ⟨-, m, r, hm, hv, -⟩
      exact hno ⟨m, hm, hv⟩
    · exact iff_of_true hd ⟨hmode, hc⟩
    · exact iff_of_false (by rw [hd]; exact Decision.noConfusion) fun h => hc h.right
  refine ⟨fun hmode => ?_, hiff, fun hskip => ?_, fun hskip a hstart => ?_,
    fun hmode hnot hbase a hinvoked => ?_, fun hmode hno a hstart => ?_⟩
  · have hd : ∀ resume, decideOne s.id s.manifest t resume (s.target t.id) = Decision.routed :=
      fun _ => if_pos hmode
    refine ⟨hd true, fun a => ?_⟩
    rw [runOne, runOne, hd true, hd false]
  · obtain ⟨-, m, r, -, -, hr, -⟩ := hiff.mp hskip
    refine (hgiven t.id).resolve_left fun hnone => ?_
    cases hnone.symm.trans hr
  · exact (runOne_eq_of_decision hstart).right.left hskip
  · obtain ⟨hmode', -⟩ | ⟨-, ⟨hno, -⟩ | ⟨-, ⟨hc, -⟩ | ⟨-, hd⟩⟩⟩ :=
      decideOne_resume_cases s t
    · exact absurd hmode' hmode
    · exact absurd hbase hno
    · exact absurd hc hnot
    · rw [(runOne_eq_of_decision hinvoked.left).left hd]
      exact produced_attemptOptimizer hinvoked
  · obtain ⟨hmode', -⟩ | ⟨-, ⟨-, e, hd⟩ | ⟨hbase, -⟩⟩ := decideOne_resume_cases s t
    · exact absurd hmode' hmode
    · exact ⟨e, (runOne_eq_of_decision hstart).right.right e hd⟩
    · exact absurd hbase hno

/-- The theorem at a session that was optimized once: a resumed run skips its
target. -/
theorem resumeSound_of_run_once :
    ∃ s, Runs.run step (Session.start "20260614" FileRead.notFound)
        (prepareEvents "cache-reads" ++ attemptEvents "20260614" "cache-reads"
          (goodAttempt "20260614" "cache-reads" (shaOf '0') (shaOf 'a'))) = some s
      ∧ decideOne s.id s.manifest (benchTarget "cache-reads") true
        (s.target "cache-reads") = Decision.skipped
      ∧ ResumeSound s (benchTarget "cache-reads") := by
  have hrun : (Runs.run step (Session.start "20260614" FileRead.notFound)
        (prepareEvents "cache-reads" ++ attemptEvents "20260614" "cache-reads"
          (goodAttempt "20260614" "cache-reads" (shaOf '0') (shaOf 'a')))).map
        (fun s => decideOne s.id s.manifest (benchTarget "cache-reads") true
          (s.target "cache-reads"))
      = some Decision.skipped := by decide +kernel
  obtain ⟨s, hs, hskip⟩ := Option.map_eq_some_iff.mp hrun
  exact ⟨s, hs, hskip, resumeSound_of_run hs (benchTarget "cache-reads")⟩

/-- The target with another proposed change. -/
def remergedTarget (targetId : String) : MergedTarget :=
  { benchTarget targetId with proposedChange := "batch writes" }

/-- A session whose target comes back with its id and another proposed change
after it was optimized. -/
theorem exists_run_remerged :
    ∃ s, Runs.run step (Session.start "20260614" FileRead.notFound)
        (prepareEvents "cache-reads"
          ++ [Event.optimize (benchTarget "cache-reads") false
              (goodAttempt "20260614" "cache-reads" (shaOf '0') (shaOf 'a')),
            Event.merge (FileRead.parsed
              (documentOf ["family"] [remergedTarget "cache-reads"] []))])
        = some s
      ∧ (decide (remergedTarget "cache-reads" ∈ s.mergedTargets),
          decideOne s.id s.manifest (remergedTarget "cache-reads") true
            (s.target "cache-reads"),
          (s.target "cache-reads").producedFor.map fun t => t.proposedChange)
        = (true, Decision.skipped, some "cache reads") :=
  Option.map_eq_some_iff.mp (by decide +kernel)

/-- A session whose clone is gone, because a second attempt could not create a
new one. -/
theorem exists_run_unchecked :
    ∃ s, Runs.run step (Session.start "20260614" FileRead.notFound)
        (prepareEvents "cache-reads"
          ++ [Event.optimize (benchTarget "cache-reads") false
              (goodAttempt "20260614" "cache-reads" (shaOf '0') (shaOf 'a')),
            Event.optimize (benchTarget "cache-reads") false
              { goodAttempt "20260614" "cache-reads" (shaOf '0') (shaOf 'b') with
                stop := some Stage.recreating }])
        = some s
      ∧ (decide (benchTarget "cache-reads" ∈ s.mergedTargets),
          decideOne s.id s.manifest (benchTarget "cache-reads") true
            (s.target "cache-reads"),
          decide ((s.target "cache-reads").report = FileRead.parsed
            (implementedReportOf "20260614" "cache-reads")),
          (s.target "cache-reads").checkout)
        = (true, Decision.skipped, true, none) :=
  Option.map_eq_some_iff.mp (by decide +kernel)

/-- Neither the definition of a target nor its clone is looked at: a target
that comes back with its id and another proposed change is skipped, and so is
one whose clone is gone. -/
theorem not_skipsOnlyUnchanged_not_skipsOnlyCheckedOut :
    (∃ es s, Runs.run step (Session.start "20260614" FileRead.notFound) es = some s
        ∧ ¬ SkipsOnlyUnchanged s)
      ∧ ∃ es s, Runs.run step (Session.start "20260614" FileRead.notFound) es
          = some s ∧ ¬ SkipsOnlyCheckedOut s := by
  constructor
  · obtain ⟨s, hs, hobs⟩ := exists_run_remerged
    obtain ⟨hmem, hrest⟩ := Prod.mk.inj hobs
    obtain ⟨hskip, hgiven⟩ := Prod.mk.inj hrest
    refine ⟨_, s, hs, fun h => ?_⟩
    obtain ⟨t, ht, -, -, hchange, -⟩ := h _ (of_decide_eq_true hmem) hskip
    have ht : (s.target "cache-reads").producedFor = some t := ht
    rw [ht] at hgiven
    have hold : t.proposedChange = "cache reads" := Option.some.inj hgiven
    have hnew : t.proposedChange = "batch writes" := hchange
    exact absurd (hold.symm.trans hnew) (by decide)
  · obtain ⟨s, hs, hobs⟩ := exists_run_unchecked
    obtain ⟨hmem, hrest⟩ := Prod.mk.inj hobs
    obtain ⟨hskip, hrest⟩ := Prod.mk.inj hrest
    obtain ⟨hreport, hgone⟩ := Prod.mk.inj hrest
    refine ⟨_, s, hs, fun h => ?_⟩
    obtain ⟨p, c, -, hc, -⟩ :=
      h _ (of_decide_eq_true hmem) hskip _ (of_decide_eq_true hreport)
    cases hc.symm.trans hgone
