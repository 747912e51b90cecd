import Sbagent.Published

/-!
# What may be pushed, and what is pushed

A pull request should be opened only for a target that the latest generate run
let through, with the body that it accepted, and the commit that is pushed
should be the one that was measured. Pushing checks neither: it opens what is
written, and it pushes what the checkout holds.

For the first, the texts on disk have to be as good as a decision. They are
when a writer that fails leaves no texts to push, and when no push comes to a
target that the latest generate run has not come to: then in every state the
texts of a target are the ones that were accepted
(`GateHolds`). For the second, the pushed commit is a function of the checkout
alone, which `tip_of_push` computes.
-/

open Fallible

/-! ## Opening a pull request -/

/-- A push opens a pull request. -/
def OpensPr (cfg : PublishConfig) (headOwner : String) (s : PublishState)
    (t : MergedTarget) (r : PushRun) : Prop :=
  s.prs.length < (pushOne cfg headOwner t r s).snd.prs.length

instance (cfg : PublishConfig) (headOwner : String) (s : PublishState)
    (t : MergedTarget) (r : PushRun) : Decidable (OpensPr cfg headOwner s t r) :=
  inferInstanceAs (Decidable (_ < _))

/-- No pull request is opened between two states. -/
def SamePrs (s s' : PublishState) : Prop := s'.prs = s.prs

section Opens

variable {cfg : PublishConfig} {headOwner : String} {t : MergedTarget} {r : PushRun}
  {s s' : PublishState}

theorem samePrs_perform_openIssueCalls {tag : String} {texts : String × String} :
    SamePrs s (Calls.perform r.interruption (openIssueCalls cfg tag t texts r) s).snd := by
  refine Calls.perform_invariant (show SamePrs s s from rfl) fun c hc s₁ s₂ hinv h => ?_
  obtain ⟨issues, feedback, rfl⟩ := step_openIssueCalls hc h
  exact hinv

/-- **A push that opens a pull request has come to the calls that do.** -/
theorem OpensPr.pushed (h : OpensPr cfg headOwner s t r) :
    t.deliveryMode ≠ DeliveryMode.consensusIssue ∧ s.opens cfg headOwner t = true
      ∧ ∃ texts s₁, prTexts t s = Except.ok texts
        ∧ Calls.effects (gitCalls (branchOf cfg s.files.id t.id) t texts.fst r) s
          = Except.ok s₁
        ∧ (pushOne cfg headOwner t r s).snd = (Calls.perform r.interruption
          (openPrCalls cfg (headOf cfg headOwner s.files.id t.id) t texts r) s₁).snd := by
  unfold OpensPr at h
  have hpushed : Pushed cfg headOwner t r s (pushOne cfg headOwner t r s) :=
    pushOne_pushed
  generalize pushOne cfg headOwner t r s = res at hpushed h
  cases hpushed with
  | skipped => exact absurd h (lt_irrefl _)
  | alreadyThere hthere => exact absurd h (lt_irrefl _)
  | stopped hne hsame =>
    rw [hsame.prs] at h
    exact absurd h (lt_irrefl _)
  | openedPr hmode hopens htexts hbefore hsame hgit =>
    exact ⟨hmode, hopens, _, _, htexts, hgit, rfl⟩
  | openedIssue hmode hopens hbefore =>
    rw [Prod.map_snd, id, samePrs_perform_openIssueCalls] at h
    exact absurd h (lt_irrefl _)

/-- A pull request is opened with texts that are there. -/
theorem OpensPr.hasPr (h : OpensPr cfg headOwner s t r) :
    (s.artifacts t.id).hasPr = true := by
  obtain ⟨hmode, hopens, -⟩ := h.pushed
  rw [PublishState.opens, if_neg hmode, Bool.and_eq_true, Bool.and_eq_true] at hopens
  exact hopens.left.left

end Opens

/-! ## The gate -/

/-- A pull request writer that fails leaves no texts to push. -/
def WriterRun.FailsClean (w : WriterRun) (files : SessionFiles) (t : MergedTarget)
    (a : PublishArtifacts) : Prop :=
  match prWriterPreflight files t with
  | Except.error _ => a.hasPr = false
  | Except.ok () => w.prepared = Except.ok () →
      checkPrWritten t w = Except.ok ()
        ∨ (isNonEmptyFile w.title && isNonEmptyFile w.body) = false

/-- No failed writer leaves texts to push, and a push comes to a target with
such texts only when the latest generate run has come to it. -/
def KeepsGate (cfg : PublishConfig) (headOwner : String) (s : PublishState) :
    PublishEvent → Prop
  | PublishEvent.generate t w =>
    decidePublish s.files s.loaded cfg.confidenceFloor t = PublishDecision.shipPr →
      w.FailsClean s.files t (s.artifacts t.id)
  | PublishEvent.push t _ => t.deliveryMode ≠ DeliveryMode.consensusIssue →
      s.opens cfg headOwner t = true → s.gate t.id ≠ Gate.notReached
  | _ => True

/-- **The texts of a target are the ones that were accepted**, unless the
latest generate run has not come to it. -/
def GateHolds (s : PublishState) : Prop :=
  ∀ id, (s.artifacts id).hasPr = true →
    s.gate id = Gate.notReached ∨ s.gate id = Gate.acceptedPr (s.artifacts id).prBody

/-- A pull request is opened only for a target that was let through, with the
body that was accepted. -/
def OpensOnlyAccepted (cfg : PublishConfig) (headOwner : String) (s : PublishState)
    (t : MergedTarget) (r : PushRun) : Prop :=
  OpensPr cfg headOwner s t r →
    s.gate t.id = Gate.acceptedPr (s.artifacts t.id).prBody

section Gate

variable {cfg : PublishConfig} {headOwner : String} {t : MergedTarget} {r : PushRun}
  {w : WriterRun} {s s' : PublishState}

/-- The issue writer leaves no pull request to push. -/
theorem hasPr_runIssueWriter {files : SessionFiles} {a : PublishArtifacts}
    (hissue : decideConsensusIssue files t = PublishDecision.shipIssue) :
    (runIssueWriter files t w a).snd.hasPr = false := by
  have hpos : 0 < (files.consensusIssue t.id).getD 0 := by
    by_contra hzero
    rw [decideConsensusIssue, if_neg hzero] at hissue
    exact absurd hissue PublishDecision.noConfusion
  unfold runIssueWriter
  obtain ⟨n, hn⟩ := Nat.exists_eq_add_one.mpr hpos
  rw [hn]
  cases w.prepared <;> rfl

/-- **A pull request writer that fails clean has its text accepted or leaves
none.** -/
theorem runPrWriter_cases {files : SessionFiles} {a : PublishArtifacts}
    (hclean : w.FailsClean files t a) :
    (runPrWriter files t w a).fst.isOk = true
      ∨ (runPrWriter files t w a).snd.hasPr = false := by
  unfold WriterRun.FailsClean at hclean
  unfold runPrWriter
  cases hpre : prWriterPreflight files t with
  | error e =>
    rw [hpre] at hclean
    exact Or.inr hclean
  | ok u =>
    rw [hpre] at hclean
    cases hprepared : w.prepared with
    | error e => exact Or.inr rfl
    | ok v =>
      rcases hclean hprepared with hchecked | hempty
      · exact Or.inl (isOk_unit_iff.mpr hchecked)
      · exact Or.inr hempty

/-- A normal pull request is never made an issue. -/
theorem decideNormalPr_ne_shipIssue {files : SessionFiles} {summary : Option Summary}
    {floor : Confidence} :
    decideNormalPr files summary floor t ≠ PublishDecision.shipIssue := by
  unfold decideNormalPr
  cases summary with
  | none => exact PublishDecision.noConfusion
  | some summary =>
    dsimp only
    cases summary.experiments.find? fun e => e.targetId = t.id with
    | none => exact PublishDecision.noConfusion
    | some row =>
      dsimp only
      split_ifs
      · rcases files.readResultsAnalysisForTarget t.id with _ | _ | ra
        · exact PublishDecision.noConfusion
        · exact PublishDecision.noConfusion
        · unfold decideVerdict
          dsimp only
          split_ifs <;> exact PublishDecision.noConfusion
      · exact PublishDecision.noConfusion

/-- A proof of concept is never made an issue. -/
theorem decideConsensusPocPr_ne_shipIssue {files : SessionFiles} :
    decideConsensusPocPr files t ≠ PublishDecision.shipIssue := by
  unfold decideConsensusPocPr
  rcases files.readOptimizerReportForTarget t.id t.deliveryMode with _ | _ | r
  · exact PublishDecision.noConfusion
  · exact PublishDecision.noConfusion
  · cases r <;> exact PublishDecision.noConfusion

/-- An issue is decided on for the targets that are delivered as one. -/
theorem decideConsensusIssue_of_shipIssue {files : SessionFiles}
    {summary : Option Summary} {floor : Confidence}
    (h : decidePublish files summary floor t = PublishDecision.shipIssue) :
    decideConsensusIssue files t = PublishDecision.shipIssue := by
  unfold decidePublish at h
  cases hmode : t.deliveryMode with
  | normalPr =>
    rw [hmode] at h
    exact absurd h decideNormalPr_ne_shipIssue
  | consensusPocPr =>
    rw [hmode] at h
    exact absurd h decideConsensusPocPr_ne_shipIssue
  | consensusIssue =>
    rw [hmode] at h
    exact h

/-- New texts of one target keep the gate when they are the accepted ones. -/
theorem GateHolds.update (h : GateHolds s) {id : String} {a : PublishArtifacts}
    {g : Gate} (hart : s'.artifacts = Function.update s.artifacts id a)
    (hgate : s'.gate = Function.update s.gate id g)
    (hnew : a.hasPr = true → g = Gate.acceptedPr a.prBody) : GateHolds s' := by
  intro id' hhas
  rw [hart] at hhas ⊢
  rw [hgate]
  by_cases hid : id' = id
  · subst hid
    rw [Function.update_self] at hhas ⊢
    rw [Function.update_self]
    exact Or.inr (hnew hhas)
  · rw [Function.update_of_ne hid] at hhas ⊢
    rw [Function.update_of_ne hid]
    exact h id' hhas

/-- **A generate step whose writer fails clean keeps the gate.** -/
theorem gateHolds_generateOne (h : GateHolds s)
    (hclean : decidePublish s.files s.loaded cfg.confidenceFloor t
      = PublishDecision.shipPr → w.FailsClean s.files t (s.artifacts t.id)) :
    GateHolds (generateOne cfg t w s).snd := by
  unfold generateOne
  cases hdec : decidePublish s.files s.loaded cfg.confidenceFloor t with
  | shipPr =>
    refine h.update rfl rfl fun hhas => ?_
    rcases runPrWriter_cases (hclean hdec) with hok | hnone
    · rw [gateOf, if_pos hok]
    · exact absurd hhas (by rw [hnone]; exact Bool.false_ne_true)
  | shipIssue =>
    refine h.update rfl rfl fun hhas => ?_
    rw [hasPr_runIssueWriter (decideConsensusIssue_of_shipIssue hdec)] at hhas
    exact absurd hhas Bool.false_ne_true
  | skip reason =>
    exact h.update rfl rfl fun hhas => absurd hhas Bool.false_ne_true

/-- **A step that meets the condition keeps the gate.** -/
theorem GateHolds.after (h : GateHolds s) {e : PublishEvent}
    (hok : KeepsGate cfg headOwner s e) : GateHolds (s.after cfg headOwner e) := by
  cases e with
  | beginGenerate => exact fun id _ => Or.inl rfl
  | generate t w => exact gateHolds_generateOne h hok
  | push t r =>
    have hsame : SameFiles s (s.after cfg headOwner (PublishEvent.push t r)) :=
      sameFiles_pushOne
    unfold GateHolds
    rw [hsame.artifacts, hsame.gate]
    exact h
  | change files summary worktree => exact h

/-- A state without texts is as the gate wants it. -/
theorem gateHolds_of_unwritten (h : ∀ id, (s.artifacts id).hasPr = false) :
    GateHolds s :=
  fun id hhas => absurd hhas (by rw [h id]; exact Bool.false_ne_true)

end Gate

/-! ## The commit that is pushed -/

/-- **The commit that is pushed**: the one the checkout is at when its tracked
files do not differ from it, and otherwise a new one on top of it. -/
def Worktree.tip (w : Worktree) (sha message : String) : Commit :=
  if w.tracked = w.head.tree then w.head
  else ⟨sha, some w.head.sha, w.tracked, message⟩

/-- The branches of the remote are left alone. -/
def SameRemote (s s' : PublishState) : Prop := s'.remote = s.remote

section Tip

variable {cfg : PublishConfig} {headOwner : String} {t : MergedTarget} {r : PushRun}
  {s s' : PublishState}

/-- Switching, staging and committing lead to the tip. -/
theorem head_commitIfStaged {w : Worktree} {branch sha message : String} :
    ((w.switchBranch branch).addModified.commitIfStaged sha message).head
      = w.tip sha message := by
  show (Worktree.commitIfStaged sha message _).head = _
  unfold Worktree.commitIfStaged Worktree.tip
  show (if w.tracked = w.head.tree then _ else _ : Worktree).head = _
  split_ifs <;> rfl

/-- What git does, when nothing interrupts it, is to push the tip. -/
theorem remote_of_effects_gitCalls {branch title : String}
    (h : Calls.effects (gitCalls branch t title r) s = Except.ok s') :
    s'.remote branch
      = (s.worktree t.id).map fun w => w.tip r.sha (commitMessageOf t title) := by
  rw [← Except.ok.inj h]
  simp only [PublishState.pushBranch, PublishState.inWorktree, Function.update_self,
    Option.map_map]
  congr 1
  funext w
  exact head_commitIfStaged

/-- Opening a pull request pushes nothing. -/
theorem sameRemote_perform_openPrCalls {head : String} {texts : String × String} :
    SameRemote s
      (Calls.perform r.interruption (openPrCalls cfg head t texts r) s).snd := by
  refine Calls.perform_invariant (show SameRemote s s from rfl) fun c hc s₁ s₂ hinv h => ?_
  obtain ⟨prs, feedback, rfl⟩ := step_openPrCalls hc h
  exact hinv

/-- **The tip of the branch of a pull request that is opened** is the tip of
its checkout. -/
theorem tip_of_opensPr (h : OpensPr cfg headOwner s t r) :
    ∃ w texts, s.worktree t.id = some w ∧ prTexts t s = Except.ok texts
      ∧ (pushOne cfg headOwner t r s).snd.remote (branchOf cfg s.files.id t.id)
        = some (w.tip r.sha (commitMessageOf t texts.fst)) := by
  obtain ⟨-, -, texts, s₁, htexts, hgit, hpushed⟩ := h.pushed
  have htree := htexts
  simp only [prTexts, bind_ok_iff, ofOption_ok_iff] at htree
  obtain ⟨w, hw, -⟩ := htree
  refine ⟨w, texts, hw, htexts, ?_⟩
  rw [hpushed, sameRemote_perform_openPrCalls, remote_of_effects_gitCalls hgit, hw]
  rfl

end Tip

/-! A session in which a normal pull request was measured and accepted. -/

/-- A summary with one accepted row. -/
def summaryAccepting (t : MergedTarget) : Summary where
  sessionId := "20260614"
  baselineRunId := 1
  baselineRerunId := 2
  noiseFloorPct := F64.ofNat 1
  experiments := [experiment t ExperimentStatus.accepted none none none]
  outcomeCounts := ⟨⟨1, 0, 0⟩, ⟨0, 0⟩, ⟨0, 0⟩⟩
  lensDispositions := []
  nextTargetsHint := none
  sourceUrl := none
  sourceBranch := none
  sourceSha := none
  sourceFetchedAt := none

/-- The session before anything is written for publishing. -/
def acceptedState (id : String) : PublishState :=
  { writtenState (measuredSession "20260614" id) with
    summary := FileRead.parsed (summaryAccepting (benchTarget id))
    artifacts := fun _ => PublishArtifacts.cleared }

/-- A writer that leaves a body with the given sections. -/
def writerOf (sections : List String) : WriterRun where
  prepared := Except.ok ()
  invoked := Except.ok ()
  title := FileRead.parsed "perf: cache reads\n"
  body := FileRead.parsed (String.join (sections.map fun sec => "## " ++ sec ++ "\n"))

/-- A generate run that comes to one target. -/
def generateEvents (t : MergedTarget) (w : WriterRun) : List PublishEvent :=
  [PublishEvent.beginGenerate, PublishEvent.generate t w]

/-- The session after a generate run. -/
def generatedState (id : String) (w : WriterRun) : PublishState :=
  (generateOne publishSettings (benchTarget id) w (beginGenerate (acceptedState id))).snd

/-- **Only what was accepted is opened.** As long as no writer that fails leaves
a title and a body behind, and no push that would open a pull request comes to
a target that the latest generate run has not come to, a pull request is opened
only for a target that this run let through, with the body that it accepted. -/
theorem push_opens_only_accepted {cfg : PublishConfig} {headOwner : String}
    {s₀ s : PublishState} {es : List PublishEvent} {t : MergedTarget} {r : PushRun}
    (hstart : ∀ id, (s₀.artifacts id).hasPr = false)
    (hok : Runs.Throughout (publishStep cfg headOwner) (KeepsGate cfg headOwner) s₀
      (es ++ [PublishEvent.push t r]))
    (hrun : Runs.run (publishStep cfg headOwner) s₀ es = some s) :
    OpensOnlyAccepted cfg headOwner s t r := by
  obtain ⟨hes, hlast⟩ := Runs.throughout_append.mp hok
  have hgate : GateHolds s :=
    Runs.run_invariant (fun s e s' hinv hok hstep => by
      rw [← Option.some.inj hstep]
      exact hinv.after hok) (gateHolds_of_unwritten hstart) hes hrun
  intro hopens
  obtain ⟨hmode, hreaches, -⟩ := hopens.pushed
  -- The texts are there, and the generate run has come to the target.
  have hreached : s.gate t.id ≠ Gate.notReached := (hlast s hrun).left hmode hreaches
  exact (hgate t.id hopens.hasPr).resolve_left hreached

/-- The theorem at a writer whose body has the sections it needs: the pull
request is opened. -/
theorem push_opens_only_accepted_written :
    OpensPr publishSettings "bench"
        (generatedState "cache-reads" (writerOf (requiredPrSections DeliveryMode.normalPr)))
        (benchTarget "cache-reads") cleanPush
      ∧ OpensOnlyAccepted publishSettings "bench"
          (generatedState "cache-reads"
            (writerOf (requiredPrSections DeliveryMode.normalPr)))
          (benchTarget "cache-reads") cleanPush := by
  have hpre : prWriterPreflight (measuredSession "20260614" "cache-reads")
      (benchTarget "cache-reads") = Except.ok () := by rfl
  have hwritten : checkPrWritten (benchTarget "cache-reads")
      (writerOf (requiredPrSections DeliveryMode.normalPr)) = Except.ok () := by rfl
  have hok : Runs.Throughout (publishStep publishSettings "bench")
      (KeepsGate publishSettings "bench") (acceptedState "cache-reads")
      (generateEvents (benchTarget "cache-reads")
          (writerOf (requiredPrSections DeliveryMode.normalPr))
        ++ [PublishEvent.push (benchTarget "cache-reads") cleanPush]) := by
    refine ⟨trivial, fun s₁ h₁ => ?_⟩
    obtain rfl : beginGenerate (acceptedState "cache-reads") = s₁ := Option.some.inj h₁
    refine ⟨fun _ => ?_, fun s₂ h₂ => ?_⟩
    · show WriterRun.FailsClean _ (measuredSession "20260614" "cache-reads") _ _
      rw [WriterRun.FailsClean, hpre]
      exact fun _ => Or.inl hwritten
    · obtain rfl : generatedState "cache-reads"
        (writerOf (requiredPrSections DeliveryMode.normalPr)) = s₂ := Option.some.inj h₂
      exact ⟨fun _ _ => by decide +kernel, fun _ _ => trivial⟩
  exact ⟨by decide +kernel, push_opens_only_accepted (fun _ => rfl) hok rfl⟩

/-- Without the condition it fails: the body lacks sections and is refused, and
the push opens the pull request with it. -/
theorem not_push_opens_only_accepted :
    ¬ ∀ (cfg : PublishConfig) (headOwner : String) (s₀ s : PublishState)
      (es : List PublishEvent) (t : MergedTarget) (r : PushRun),
      (∀ id, (s₀.artifacts id).hasPr = false) →
      Runs.run (publishStep cfg headOwner) s₀ es = some s →
      OpensOnlyAccepted cfg headOwner s t r := by
  intro h
  have hopens : OpensPr publishSettings "bench"
      (generatedState "cache-reads" (writerOf ["Summary"]))
      (benchTarget "cache-reads") cleanPush := by decide +kernel
  have hgate := h publishSettings "bench" (acceptedState "cache-reads")
    (generatedState "cache-reads" (writerOf ["Summary"]))
    (generateEvents (benchTarget "cache-reads") (writerOf ["Summary"]))
    (benchTarget "cache-reads") cleanPush (fun _ => rfl) rfl hopens
  exact absurd hgate (by decide +kernel)

/-- The provenance of a commit. -/
def provenanceOf (id headSha : String) : CoordinatorProvenance where
  sessionId := "20260614"
  targetId := id
  deliveryMode := DeliveryMode.normalPr
  baseSha := String.ofList (List.replicate 40 'a')
  headSha := headSha
  commitMessage := "perf: cache reads"

/-- A target whose provenance names the commit that its checkout is at, with
texts that are written, and with a tracked file that may have been changed
since. -/
def committedState (id headSha now : String) : PublishState :=
  { writtenState { measuredSession "20260614" id with
      coordinatorProvenance := fun _ => FileRead.parsed (provenanceOf id headSha) } with
    worktree := fun _ => some (checkoutAt headSha "new" now) }

/-- The id of a commit that was measured. -/
def measuredSha : String := String.ofList (List.replicate 40 'b')

/-- **What is pushed is what the checkout holds.** When a pull request is
opened, the tip of its branch is the commit that the checkout was at, if no
tracked file differed from it, and otherwise a new commit on top of that one
with the tracked files as they were. So it is the commit whose provenance was
recorded exactly when the checkout is still at that commit and no tracked file
differs – a commit made now having an id of its own. -/
theorem pushed_tip_is_checkout {cfg : PublishConfig} {headOwner : String}
    {s : PublishState} {t : MergedTarget} {r : PushRun}
    (hopens : OpensPr cfg headOwner s t r) :
    ∃ w tip, s.worktree t.id = some w
      ∧ (pushOne cfg headOwner t r s).snd.remote (branchOf cfg s.files.id t.id) = some tip
      ∧ (w.tracked = w.head.tree → tip = w.head)
      ∧ (w.tracked ≠ w.head.tree → tip.sha = r.sha ∧ tip.parent = some w.head.sha
        ∧ tip.tree = w.tracked)
      ∧ ∀ p, s.files.loadCoordinatorProvenance t = Except.ok (some p) →
        r.sha ≠ p.headSha →
          (tip.sha = p.headSha ↔ w.head.sha = p.headSha ∧ w.tracked = w.head.tree) := by
  obtain ⟨w, texts, hw, -, hremote⟩ := tip_of_opensPr hopens
  refine ⟨w, _, hw, hremote, fun hsame => if_pos hsame, fun hdiff => ?_,
    fun p _ hnew => ?_⟩
  · rw [Worktree.tip, if_neg hdiff]
    exact ⟨rfl, rfl, rfl⟩
  · unfold Worktree.tip
    by_cases hsame : w.tracked = w.head.tree
    · rw [if_pos hsame]
      exact ⟨fun h => ⟨h, hsame⟩, fun h => h.left⟩
    · rw [if_neg hsame]
      exact iff_of_false hnew fun h => hsame h.right

/-- The theorem at a checkout that is as it was measured: what is pushed is the
commit that was. -/
theorem pushed_tip_is_checkout_measured :
    ∃ tip, (pushOne publishSettings "bench" (benchTarget "cache-reads") cleanPush
        (committedState "cache-reads" measuredSha "new")).snd.remote
        "agentic/20260614/cache-reads" = some tip
      ∧ tip.sha = measuredSha := by
  have hopens : OpensPr publishSettings "bench"
      (committedState "cache-reads" measuredSha "new") (benchTarget "cache-reads")
      cleanPush := by decide +kernel
  obtain ⟨w, tip, hw, hremote, -, -, hsha⟩ := pushed_tip_is_checkout hopens
  obtain rfl : checkoutAt measuredSha "new" "new" = w := Option.some.inj hw
  refine ⟨tip, hremote, ?_⟩
  exact (hsha (provenanceOf "cache-reads" measuredSha) rfl (by decide +kernel)).mpr
    ⟨rfl, by decide +kernel⟩

/-- The commit that was measured is not what is pushed once a tracked file has
been changed. -/
theorem not_pushed_tip_is_measured :
    ¬ ∀ (cfg : PublishConfig) (headOwner : String) (s : PublishState)
      (t : MergedTarget) (r : PushRun) (p : CoordinatorProvenance),
      t.deliveryMode = DeliveryMode.normalPr →
      s.files.loadCoordinatorProvenance t = Except.ok (some p) →
      OpensPr cfg headOwner s t r →
      ∃ tip, (pushOne cfg headOwner t r s).snd.remote (branchOf cfg s.files.id t.id)
          = some tip
        ∧ tip.sha = p.headSha := by
  intro h
  have hopens : OpensPr publishSettings "bench"
      (committedState "cache-reads" measuredSha "changed") (benchTarget "cache-reads")
      cleanPush := by decide +kernel
  obtain ⟨tip, htip, hsha⟩ := h publishSettings "bench"
    (committedState "cache-reads" measuredSha "changed") (benchTarget "cache-reads")
    cleanPush (provenanceOf "cache-reads" measuredSha) rfl rfl hopens
  have hpushed : ((pushOne publishSettings "bench" (benchTarget "cache-reads") cleanPush
      (committedState "cache-reads" measuredSha "changed")).snd.remote
      (branchOf publishSettings (committedState "cache-reads" measuredSha "changed").files.id
        (benchTarget "cache-reads").id)).map Commit.sha
        = some cleanPush.sha := by decide +kernel
  rw [htip] at hpushed
  have hsame : cleanPush.sha = measuredSha := (Option.some.inj hpushed).symm.trans hsha
  exact absurd hsame (by decide +kernel)
