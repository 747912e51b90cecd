import Sbagent.Publish

/-!
# What is on GitHub is on record

Opening something on GitHub and noting its URL are two calls, and the labels of
a pull request come in a third between them. A push that is stopped between
them leaves behind what nobody has noted, or what does not carry the labels
that keep it from being merged – and the next push finds it there and is
content.

What a push of one target can do is said once, by `Pushed`: nothing, because
the texts are missing or because there is something on GitHub already; less
than opening something; or opening it and going on from there. Everything else
in this module is about the last case, and about what it takes for it not to
be cut short.
-/

open Fallible

/-! ## What a push can do -/

/-- The head of the pull request of a target. -/
def headOf (cfg : PublishConfig) (headOwner sessionId targetId : String) : String :=
  s!"{headOwner}:{branchOf cfg sessionId targetId}"

/-- The calls that are made before anything is opened. -/
def callsBefore (mode : DeliveryMode) : List PublishCall :=
  if mode = DeliveryMode.consensusIssue then [PublishCall.issueExists]
  else [PublishCall.prExists, PublishCall.switchBranch, PublishCall.addModified,
    PublishCall.commitIfStaged, PublishCall.pushBranch]

/-- The call that opens something. -/
def openingCall (mode : DeliveryMode) : PublishCall :=
  if mode = DeliveryMode.consensusIssue then PublishCall.createIssue
  else PublishCall.createPr

/-- Two states differ in nothing but the checkouts and the branches of the
remote. -/
structure SameRecords (s s' : PublishState) : Prop where
  files : s'.files = s.files
  summary : s'.summary = s.summary
  artifacts : s'.artifacts = s.artifacts
  publishFeedback : s'.publishFeedback = s.publishFeedback
  prs : s'.prs = s.prs
  issues : s'.issues = s.issues
  loaded : s'.loaded = s.loaded
  gate : s'.gate = s.gate

/-- The texts of a target are there, and GitHub knows of nothing that was
opened with them: pushing it gets as far as opening something. -/
def PublishState.opens (cfg : PublishConfig) (headOwner : String) (t : MergedTarget)
    (s : PublishState) : Bool :=
  if t.deliveryMode = DeliveryMode.consensusIssue then
    (s.artifacts t.id).hasIssue
      && (readTexts (s.artifacts t.id).issueTitle
        (readToString (s.artifacts t.id).issueBody)).isOk
      && !s.issueExists cfg (traceTagOf s.files.id t.id)
  else (s.artifacts t.id).hasPr && (prTexts t s).isOk
    && !s.prExists cfg (headOf cfg headOwner s.files.id t.id)

/-- What pushing a target can come to. -/
inductive Pushed (cfg : PublishConfig) (headOwner : String) (t : MergedTarget)
    (r : PushRun) (s : PublishState) : Option Calls.Outcome × PublishState → Prop
  /-- Its texts are not there. -/
  | skipped : Pushed cfg headOwner t r s (none, s)
  /-- GitHub knows of something that was opened for it. -/
  | alreadyThere
      (hthere : t.deliveryMode ≠ DeliveryMode.consensusIssue →
        s.prExists cfg (headOf cfg headOwner s.files.id t.id) = true) :
      Pushed cfg headOwner t r s (some Calls.returned, s)
  /-- It ends before anything is opened. -/
  | stopped {o : Calls.Outcome} {s' : PublishState} (hne : o ≠ Calls.returned)
      (hsame : SameRecords s s') : Pushed cfg headOwner t r s (some o, s')
  /-- It comes to opening a pull request. -/
  | openedPr {texts : String × String} {s₁ : PublishState}
      (hmode : t.deliveryMode ≠ DeliveryMode.consensusIssue)
      (hopens : s.opens cfg headOwner t = true)
      (htexts : prTexts t s = Except.ok texts)
      (hbefore : ∀ x ∈ r.interruption, x.call ∉ callsBefore t.deliveryMode)
      (hsame : SameRecords s s₁)
      (hgit : Calls.effects (gitCalls (branchOf cfg s.files.id t.id) t texts.fst r) s
        = Except.ok s₁) :
      Pushed cfg headOwner t r s
        ((Calls.perform r.interruption
          (openPrCalls cfg (headOf cfg headOwner s.files.id t.id) t texts r) s₁).map
            some id)
  /-- It comes to opening an issue. -/
  | openedIssue {texts : String × String}
      (hmode : t.deliveryMode = DeliveryMode.consensusIssue)
      (hopens : s.opens cfg headOwner t = true)
      (hbefore : ∀ x ∈ r.interruption, x.call ∉ callsBefore t.deliveryMode) :
      Pushed cfg headOwner t r s
        ((Calls.perform r.interruption
          (openIssueCalls cfg (traceTagOf s.files.id t.id) t texts r) s).map some id)

section Pushed

variable {cfg : PublishConfig} {headOwner : String} {t : MergedTarget} {r : PushRun}
  {s : PublishState}

theorem SameRecords.refl (s : PublishState) : SameRecords s s :=
  ⟨rfl, rfl, rfl, rfl, rfl, rfl, rfl, rfl⟩

theorem SameRecords.trans {s₁ s₂ : PublishState} (h : SameRecords s s₁)
    (h' : SameRecords s₁ s₂) : SameRecords s s₂ :=
  ⟨h'.files.trans h.files, h'.summary.trans h.summary,
    h'.artifacts.trans h.artifacts, h'.publishFeedback.trans h.publishFeedback,
    h'.prs.trans h.prs, h'.issues.trans h.issues, h'.loaded.trans h.loaded,
    h'.gate.trans h.gate⟩

/-- Git changes nothing on GitHub and no file of the session. -/
theorem sameRecords_of_mem_gitCalls {branch title : String} {c : PublishStep}
    (hc : c ∈ gitCalls branch t title r) {s' : PublishState}
    (h : c.snd s = Except.ok s') : SameRecords s s' := by
  simp only [gitCalls, List.mem_cons, List.not_mem_nil, or_false] at hc
  rcases hc with rfl | rfl | rfl | rfl <;>
    (rw [← Except.ok.inj h]; exact ⟨rfl, rfl, rfl, rfl, rfl, rfl, rfl, rfl⟩)

/-- Asking GitHub and pushing to a branch of the remote change nothing on
GitHub and no file of the session, however far they get. -/
theorem sameRecords_perform_before {ask : PublishCall} {cs : List PublishStep}
    (hcs : ∀ c ∈ cs, ∃ branch t title, c ∈ gitCalls branch t title r) :
    SameRecords s
      (Calls.perform r.interruption ((ask, Except.ok) :: cs) s).snd := by
  refine Calls.perform_invariant (SameRecords.refl s) fun c hc s₁ s₂ hinv h => ?_
  rcases List.mem_cons.mp hc with rfl | hc
  · rw [← Except.ok.inj h]
    exact hinv
  · obtain ⟨branch, t, title, hgit⟩ := hcs c hc
    exact hinv.trans (sameRecords_of_mem_gitCalls hgit h)

/-- Asking GitHub ends a push that is told yes. -/
theorem perform_ask_cases (ask : PublishCall) :
    Calls.perform r.interruption [(ask, Except.ok)] s = (Calls.returned, s)
      ∨ ∃ o s', Calls.perform r.interruption [(ask, Except.ok)] s = (o, s')
        ∧ o ≠ Calls.returned ∧ SameRecords s s' := by
  have hsame : SameRecords s
      (Calls.perform r.interruption [(ask, Except.ok)] s).snd :=
    sameRecords_perform_before (by simp)
  by_cases hret : (Calls.perform r.interruption [(ask, Except.ok)] s).fst
      = Calls.returned
  · obtain ⟨hcalls, -⟩ := Calls.perform_fst_eq_returned_iff.mp hret
    exact Or.inl (Calls.perform_of_forall_ne hcalls rfl)
  · exact Or.inr ⟨_, _, rfl, hret, hsame⟩

theorem pushPr_pushed (hmode : t.deliveryMode ≠ DeliveryMode.consensusIssue)
    (hhas : (s.artifacts t.id).hasPr = true) :
    Pushed cfg headOwner t r s ((pushPr cfg headOwner t r s).map some id) := by
  unfold pushPr
  dsimp only
  cases htexts : prTexts t s with
  | error e =>
    exact Pushed.stopped (by simp) (SameRecords.refl s)
  | ok texts =>
    show Pushed cfg headOwner t r s ((Calls.perform r.interruption
      ((PublishCall.prExists, Except.ok) ::
        if s.prExists cfg (headOf cfg headOwner s.files.id t.id) = true then []
        else gitCalls (branchOf cfg s.files.id t.id) t texts.fst r
          ++ openPrCalls cfg (headOf cfg headOwner s.files.id t.id) t texts r) s).map
            some id)
    cases hex : s.prExists cfg (headOf cfg headOwner s.files.id t.id) with
    | true =>
      rw [if_pos rfl]
      rcases perform_ask_cases (r := r) (s := s)
        PublishCall.prExists with h | ⟨o, s', h, hne, hsame⟩
      · rw [h]
        exact Pushed.alreadyThere fun _ => hex
      · rw [h]
        exact Pushed.stopped hne hsame
    | false =>
      rw [if_neg (by simp), ← List.cons_append, Calls.perform_append]
      have hsame : SameRecords s (Calls.perform r.interruption
          ((PublishCall.prExists, Except.ok) ::
            gitCalls (branchOf cfg s.files.id t.id) t texts.fst r) s).snd :=
        sameRecords_perform_before fun c hc => ⟨_, _, _, hc⟩
      -- it may be stopped at any call before the one that opens the pull request
      by_cases hret : (Calls.perform r.interruption
          ((PublishCall.prExists, Except.ok) ::
            gitCalls (branchOf cfg s.files.id t.id) t texts.fst r) s).fst
          = Calls.returned
      · rw [if_pos hret]
        obtain ⟨hcalls, heff⟩ := Calls.perform_fst_eq_returned_iff.mp hret
        refine Pushed.openedPr hmode ?_ htexts ?_ hsame heff
        · rw [PublishState.opens, if_neg hmode, hhas, htexts, hex]
          rfl
        · intro x hx hmem
          rw [callsBefore, if_neg hmode] at hmem
          simp only [gitCalls, List.forall_mem_cons] at hcalls
          simp only [List.mem_cons, List.not_mem_nil, or_false] at hmem
          rcases hmem with h | h | h | h | h
          · exact hcalls.left x hx h
          · exact hcalls.right.left x hx h
          · exact hcalls.right.right.left x hx h
          · exact hcalls.right.right.right.left x hx h
          · exact hcalls.right.right.right.right.left x hx h
      · rw [if_neg hret]
        exact Pushed.stopped hret hsame

theorem pushIssue_pushed (hmode : t.deliveryMode = DeliveryMode.consensusIssue)
    (hhas : (s.artifacts t.id).hasIssue = true) :
    Pushed cfg headOwner t r s ((pushIssue cfg t r s).map some id) := by
  unfold pushIssue
  dsimp only
  cases htexts : readTexts (s.artifacts t.id).issueTitle
      (readToString (s.artifacts t.id).issueBody) with
  | error e =>
    exact Pushed.stopped (by simp) (SameRecords.refl s)
  | ok texts =>
    dsimp only
    cases hex : s.issueExists cfg (traceTagOf s.files.id t.id) with
    | true =>
      rw [if_pos rfl]
      rcases perform_ask_cases (r := r) (s := s)
        PublishCall.issueExists with h | ⟨o, s', h, hne, hsame⟩
      · rw [h]
        exact Pushed.alreadyThere fun h => absurd hmode h
      · rw [h]
        exact Pushed.stopped hne hsame
    | false =>
      rw [if_neg (by simp), ← List.singleton_append, Calls.perform_append]
      by_cases hret : (Calls.perform r.interruption
          [(PublishCall.issueExists, Except.ok)] s).fst = Calls.returned
      · rw [if_pos hret]
        obtain ⟨hcalls, heff⟩ := Calls.perform_fst_eq_returned_iff.mp hret
        rw [← Except.ok.inj heff]
        refine Pushed.openedIssue hmode ?_ ?_
        · rw [PublishState.opens, if_pos hmode, hhas, htexts, hex]
          rfl
        · intro x hx hmem
          rw [callsBefore, if_pos hmode] at hmem
          exact hcalls _ List.mem_cons_self x hx (List.mem_singleton.mp hmem)
      · rw [if_neg hret]
        exact Pushed.stopped hret
          (sameRecords_perform_before (by simp))

/-- **What a push of one target does is one of these.** -/
theorem pushOne_pushed : Pushed cfg headOwner t r s (pushOne cfg headOwner t r s) := by
  unfold pushOne
  by_cases hmode : t.deliveryMode = DeliveryMode.consensusIssue
  · rw [if_pos hmode]
    cases hhas : (s.artifacts t.id).hasIssue with
    | true => exact pushIssue_pushed hmode hhas
    | false => exact Pushed.skipped
  · rw [if_neg hmode]
    cases hhas : (s.artifacts t.id).hasPr with
    | true => exact pushPr_pushed hmode hhas
    | false => exact Pushed.skipped

end Pushed

/-! ## What a push leaves alone -/

/-- Two states agree on what publishing decides by. -/
structure SameFiles (s s' : PublishState) : Prop where
  files : s'.files = s.files
  summary : s'.summary = s.summary
  artifacts : s'.artifacts = s.artifacts
  loaded : s'.loaded = s.loaded
  gate : s'.gate = s.gate

section Frame

variable {cfg : PublishConfig} {headOwner : String} {t : MergedTarget} {r : PushRun}
  {s s' : PublishState}

theorem SameFiles.refl (s : PublishState) : SameFiles s s := ⟨rfl, rfl, rfl, rfl, rfl⟩

theorem SameFiles.trans {s₁ s₂ : PublishState} (h : SameFiles s s₁)
    (h' : SameFiles s₁ s₂) : SameFiles s s₂ :=
  ⟨h'.files.trans h.files, h'.summary.trans h.summary,
    h'.artifacts.trans h.artifacts, h'.loaded.trans h.loaded, h'.gate.trans h.gate⟩

theorem SameRecords.sameFiles (h : SameRecords s s') : SameFiles s s' :=
  ⟨h.files, h.summary, h.artifacts, h.loaded, h.gate⟩

/-- The calls that open a pull request change what is open and what is noted. -/
theorem step_openPrCalls {head : String} {texts : String × String} {c : PublishStep}
    (hc : c ∈ openPrCalls cfg head t texts r) (h : c.snd s = Except.ok s') :
    ∃ prs feedback, s' = { s with prs := prs, publishFeedback := feedback } := by
  simp only [openPrCalls, List.mem_append, List.mem_singleton] at hc
  rcases hc with (rfl | hc) | rfl
  · exact ⟨_, _, (Except.ok.inj h).symm⟩
  · -- Labels are put on only when there are any.
    split_ifs at hc
    · exact absurd hc List.not_mem_nil
    · rw [List.mem_singleton.mp hc] at h
      exact ⟨_, _, (Except.ok.inj h).symm⟩
  · exact ⟨_, _, (writeFeedback_ok_iff.mp h).right.right⟩

/-- The calls that open an issue change what is open and what is noted. -/
theorem step_openIssueCalls {tag : String} {texts : String × String} {c : PublishStep}
    (hc : c ∈ openIssueCalls cfg tag t texts r) (h : c.snd s = Except.ok s') :
    ∃ issues feedback, s' = { s with issues := issues, publishFeedback := feedback } := by
  simp only [openIssueCalls, List.mem_cons, List.not_mem_nil, or_false] at hc
  rcases hc with rfl | rfl
  · exact ⟨_, _, (Except.ok.inj h).symm⟩
  · exact ⟨_, _, (writeFeedback_ok_iff.mp h).right.right⟩

theorem sameFiles_perform_openPrCalls {head : String} {texts : String × String} :
    SameFiles s
      (Calls.perform r.interruption (openPrCalls cfg head t texts r) s).snd := by
  refine Calls.perform_invariant (SameFiles.refl s) fun c hc s₁ s₂ hinv h => ?_
  obtain ⟨prs, feedback, rfl⟩ := step_openPrCalls hc h
  exact hinv.trans ⟨rfl, rfl, rfl, rfl, rfl⟩

theorem sameFiles_perform_openIssueCalls {tag : String} {texts : String × String} :
    SameFiles s
      (Calls.perform r.interruption (openIssueCalls cfg tag t texts r) s).snd := by
  refine Calls.perform_invariant (SameFiles.refl s) fun c hc s₁ s₂ hinv h => ?_
  obtain ⟨issues, feedback, rfl⟩ := step_openIssueCalls hc h
  exact hinv.trans ⟨rfl, rfl, rfl, rfl, rfl⟩

/-- **A push changes none of the texts, and nothing that they were decided
by.** -/
theorem sameFiles_pushOne : SameFiles s (pushOne cfg headOwner t r s).snd := by
  have hpushed : Pushed cfg headOwner t r s (pushOne cfg headOwner t r s) :=
    pushOne_pushed
  generalize pushOne cfg headOwner t r s = res at hpushed
  cases hpushed with
  | skipped => exact SameFiles.refl s
  | alreadyThere hthere => exact SameFiles.refl s
  | stopped hne hsame => exact hsame.sameFiles
  | openedPr hmode hopens htexts hbefore hsame hgit =>
    exact hsame.sameFiles.trans sameFiles_perform_openPrCalls
  | openedIssue hmode hopens hbefore =>
    exact sameFiles_perform_openIssueCalls

end Frame

/-! ## The condition on a push -/

/-- A push is stopped before anything is opened. -/
def PushRun.StopsFirst (r : PushRun) (mode : DeliveryMode) : Prop :=
  ∃ x ∈ r.interruption,
    x.call ∈ callsBefore mode ∨ (x.call = openingCall mode ∧ x.done = false)

/-- A push is stopped when something is open and has not been noted with its
labels on. -/
def PushRun.StopsHalfway (r : PushRun) (cfg : PublishConfig) (t : MergedTarget) :
    Prop :=
  ∃ x ∈ r.interruption,
    (x.call = openingCall t.deliveryMode ∧ x.done = true)
      ∨ (x.call = PublishCall.addLabels
        ∧ t.deliveryMode ≠ DeliveryMode.consensusIssue ∧ labelsOf cfg t ≠ [])
      ∨ (x.call = PublishCall.writeFeedback ∧ x.done = false)

/-- A push that opens something goes on until that is noted, and finds nothing
noted before. -/
def KeepsRecord (cfg : PublishConfig) (headOwner : String) (s : PublishState) :
    PublishEvent → Prop
  | PublishEvent.push t r => s.opens cfg headOwner t = true →
      r.StopsFirst t.deliveryMode
        ∨ ¬ r.StopsHalfway cfg t ∧ s.publishFeedback t.id = FileRead.notFound
  | _ => True

/-- The state after a pull request was opened, labelled and noted. -/
def PublishState.withPr (cfg : PublishConfig) (head : String) (t : MergedTarget)
    (texts : String × String) (r : PushRun) (s : PublishState) : PublishState :=
  { s with
    prs := (newPr cfg head t texts r :: s.prs).map fun p =>
      p.addLabels r.url (labelsOf cfg t)
    publishFeedback := Function.update s.publishFeedback t.id
      (FileRead.parsed ⟨some r.url, none, nowUtcIso8601 r.now⟩) }

/-- The state after an issue was opened and noted. -/
def PublishState.withIssue (cfg : PublishConfig) (traceTag : String)
    (t : MergedTarget) (texts : String × String) (r : PushRun) (s : PublishState) :
    PublishState :=
  { s with
    issues := newIssue cfg traceTag texts r :: s.issues
    publishFeedback := Function.update s.publishFeedback t.id
      (FileRead.parsed ⟨none, some r.url, nowUtcIso8601 r.now⟩) }

section Kept

variable {cfg : PublishConfig} {headOwner : String} {t : MergedTarget} {r : PushRun}
  {s : PublishState}

theorem PushRun.call_ne_openingCall (hfirst : ¬ r.StopsFirst t.deliveryMode)
    (hhalf : ¬ r.StopsHalfway cfg t) :
    ∀ x ∈ r.interruption, x.call ≠ openingCall t.deliveryMode := by
  intro x hx hcall
  cases hdone : x.done with
  | true => exact hhalf ⟨x, hx, Or.inl ⟨hcall, hdone⟩⟩
  | false => exact hfirst ⟨x, hx, Or.inr ⟨hcall, hdone⟩⟩

theorem PushRun.done_of_writeFeedback (hhalf : ¬ r.StopsHalfway cfg t) :
    ∀ x ∈ r.interruption, x.call = PublishCall.writeFeedback → x.done = true := by
  intro x hx hcall
  by_contra hdone
  exact hhalf ⟨x, hx, Or.inr (Or.inr ⟨hcall, Bool.eq_false_of_not_eq_true hdone⟩)⟩

/-- What is noted about a pull request is valid. -/
theorem validateModel_prFeedback (url : String) (now : SystemTime) :
    (⟨some url, none, nowUtcIso8601 now⟩ : PublishFeedback).validateModel
      = Except.ok () :=
  PublishFeedback.validateModel_ok_iff.mpr ⟨by simp, isBlank_nowUtcIso8601 now⟩

/-- What is noted about an issue is valid. -/
theorem validateModel_issueFeedback (url : String) (now : SystemTime) :
    (⟨none, some url, nowUtcIso8601 now⟩ : PublishFeedback).validateModel
      = Except.ok () :=
  PublishFeedback.validateModel_ok_iff.mpr ⟨by simp, isBlank_nowUtcIso8601 now⟩

/-- **A push that is not stopped halfway opens, labels and notes.** -/
theorem perform_openPrCalls {head : String} {texts : String × String}
    (hmode : t.deliveryMode ≠ DeliveryMode.consensusIssue)
    (hfirst : ¬ r.StopsFirst t.deliveryMode) (hhalf : ¬ r.StopsHalfway cfg t)
    (hnone : s.publishFeedback t.id = FileRead.notFound) :
    (Calls.perform r.interruption (openPrCalls cfg head t texts r) s).snd
      = s.withPr cfg head t texts r := by
  have hcreate : ∀ x ∈ r.interruption, x.call ≠ PublishCall.createPr := by
    have h := PushRun.call_ne_openingCall hfirst hhalf
    rwa [openingCall, if_neg hmode] at h
  have hwrite := PushRun.done_of_writeFeedback hhalf
  have hvalid := validateModel_prFeedback r.url r.now
  unfold openPrCalls PublishState.withPr
  by_cases hlabels : labelsOf cfg t = []
  · rw [if_pos hlabels, hlabels]
    simp only [PullRequest.addLabels_nil, List.map_id']
    exact Calls.perform_concat_snd (by simpa using hcreate) rfl hwrite
      (writeFeedback_ok_iff.mpr ⟨hvalid, hnone, rfl⟩)
  · rw [if_neg hlabels]
    have hadd : ∀ x ∈ r.interruption, x.call ≠ PublishCall.addLabels :=
      fun x hx hcall => hhalf ⟨x, hx, Or.inr (Or.inl ⟨hcall, hmode, hlabels⟩)⟩
    exact Calls.perform_concat_snd (by simpa using ⟨hcreate, hadd⟩) rfl hwrite
      (writeFeedback_ok_iff.mpr ⟨hvalid, hnone, rfl⟩)

/-- **A push that is not stopped halfway opens an issue and notes it.** -/
theorem perform_openIssueCalls {traceTag : String} {texts : String × String}
    (hmode : t.deliveryMode = DeliveryMode.consensusIssue)
    (hfirst : ¬ r.StopsFirst t.deliveryMode) (hhalf : ¬ r.StopsHalfway cfg t)
    (hnone : s.publishFeedback t.id = FileRead.notFound) :
    (Calls.perform r.interruption (openIssueCalls cfg traceTag t texts r) s).snd
      = s.withIssue cfg traceTag t texts r := by
  have hcreate : ∀ x ∈ r.interruption, x.call ≠ PublishCall.createIssue := by
    have h := PushRun.call_ne_openingCall hfirst hhalf
    rwa [openingCall, if_pos hmode] at h
  show (Calls.perform r.interruption ([_] ++ [_]) s).snd = _
  exact Calls.perform_concat_snd (by simpa using hcreate) rfl
    (PushRun.done_of_writeFeedback hhalf)
    (writeFeedback_ok_iff.mpr ⟨validateModel_issueFeedback r.url r.now, hnone, rfl⟩)

theorem head?_openPrCalls {head : String} {texts : String × String}
    (hmode : t.deliveryMode ≠ DeliveryMode.consensusIssue) :
    (openPrCalls cfg head t texts r).head?.map Prod.fst
      = some (openingCall t.deliveryMode) := by
  rw [openingCall, if_neg hmode]
  rfl

theorem head?_openIssueCalls {traceTag : String} {texts : String × String}
    (hmode : t.deliveryMode = DeliveryMode.consensusIssue) :
    (openIssueCalls cfg traceTag t texts r).head?.map Prod.fst
      = some (openingCall t.deliveryMode) := by
  rw [openingCall, if_pos hmode]
  rfl

/-- A push that is stopped at the call that would open something, before it
did, has opened nothing. -/
theorem perform_stopsFirst {cs : List PublishStep}
    (hopening : cs.head?.map Prod.fst = some (openingCall t.deliveryMode))
    (hbefore : ∀ x ∈ r.interruption, x.call ∉ callsBefore t.deliveryMode)
    (hfirst : r.StopsFirst t.deliveryMode) :
    (Calls.perform r.interruption cs s).fst ≠ Calls.returned
      ∧ (Calls.perform r.interruption cs s).snd = s := by
  obtain ⟨x, hx, hcall⟩ := hfirst
  have hcall := hcall.resolve_left (hbefore x hx)
  obtain ⟨c, hc, hfst⟩ := Option.map_eq_some_iff.mp hopening
  obtain ⟨cs, rfl⟩ := List.head?_eq_some_iff.mp hc
  rw [Option.mem_def.mp hx, Calls.perform_cons_of_call_eq (hcall.left.trans hfst.symm)]
  refine ⟨fun h => Calls.outcome_ne_returned.mp h, ?_⟩
  show Calls.Interruption.after x c.snd s = s
  rw [Calls.Interruption.after, hcall.right]
  rfl

/-- **A push that meets the condition either leaves everything on record as it
is, or opens, labels and notes.** -/
theorem pushOne_kept (hok : KeepsRecord cfg headOwner s (PublishEvent.push t r)) :
    (SameRecords s (pushOne cfg headOwner t r s).snd
      ∧ ((pushOne cfg headOwner t r s).fst = some Calls.returned →
        t.deliveryMode ≠ DeliveryMode.consensusIssue →
          s.prExists cfg (headOf cfg headOwner s.files.id t.id) = true))
    ∨ (t.deliveryMode ≠ DeliveryMode.consensusIssue
      ∧ s.publishFeedback t.id = FileRead.notFound
      ∧ ∃ texts s₁, SameRecords s s₁ ∧ (pushOne cfg headOwner t r s).snd
        = s₁.withPr cfg (headOf cfg headOwner s.files.id t.id) t texts r)
    ∨ (t.deliveryMode = DeliveryMode.consensusIssue
      ∧ s.publishFeedback t.id = FileRead.notFound
      ∧ ∃ texts, (pushOne cfg headOwner t r s).snd
        = s.withIssue cfg (traceTagOf s.files.id t.id) t texts r) := by
  have hpushed : Pushed cfg headOwner t r s (pushOne cfg headOwner t r s) :=
    pushOne_pushed
  generalize pushOne cfg headOwner t r s = res at hpushed
  cases hpushed with
  | skipped => exact Or.inl ⟨SameRecords.refl s, fun h => absurd h (by simp)⟩
  | alreadyThere hthere => exact Or.inl ⟨SameRecords.refl s, fun _ => hthere⟩
  | stopped hne hsame => exact Or.inl ⟨hsame, fun h => absurd (Option.some.inj h) hne⟩
  | @openedPr texts s₁ hmode hopens htexts hbefore hsame hgit =>
    -- where it opens, the condition excludes that it stops before the rest is done
    by_cases hfirst : r.StopsFirst t.deliveryMode
    · obtain ⟨hne, hstay⟩ := perform_stopsFirst (s := s₁)
        (head?_openPrCalls (r := r) hmode) hbefore hfirst
      refine Or.inl ⟨?_, fun h => absurd (Option.some.inj h) hne⟩
      rw [Prod.map_snd, hstay, id]
      exact hsame
    · obtain ⟨hhalf, hnone⟩ := (hok hopens).resolve_left hfirst
      exact Or.inr (Or.inl ⟨hmode, hnone, _, _, hsame, perform_openPrCalls hmode hfirst
        hhalf (hsame.publishFeedback ▸ hnone)⟩)
  | @openedIssue texts hmode hopens hbefore =>
    by_cases hfirst : r.StopsFirst t.deliveryMode
    · obtain ⟨hne, hstay⟩ := perform_stopsFirst (s := s)
        (head?_openIssueCalls (r := r) hmode) hbefore hfirst
      refine Or.inl ⟨?_, fun h => absurd (Option.some.inj h) hne⟩
      rw [Prod.map_snd, hstay, id]
      exact SameRecords.refl s
    · obtain ⟨hhalf, hnone⟩ := (hok hopens).resolve_left hfirst
      exact Or.inr (Or.inr ⟨hmode, hnone, _, perform_openIssueCalls hmode hfirst hhalf
        hnone⟩)

end Kept

/-! ## The record -/

/-- The feedback file of a target can be read, and gives a URL. -/
def PublishState.Notes (s : PublishState) (targetId : String)
    (url : PublishFeedback → Option String) (u : String) : Prop :=
  ∃ pf, PublishFeedback.readOptional s!"optimize/{targetId}/publish-feedback.json"
      (s.publishFeedback targetId) = Except.ok (some pf)
    ∧ url pf = some u

/-- An issue is the one with a trace tag. -/
def Issue.isFor (i : Issue) (cfg : PublishConfig) (traceTag : String) : Bool :=
  i.repo = cfg.publishBaseRepo && i.traceTag = traceTag

/-- **What is on GitHub for a target is what its feedback file names.** -/
structure OnRecord (cfg : PublishConfig) (headOwner : String) (s : PublishState) :
    Prop where
  pr : ∀ id : String, ∀ p ∈ s.prs,
    p.isFor cfg (headOf cfg headOwner s.files.id id) = true →
      s.Notes id PublishFeedback.prUrl p.url
  issue : ∀ id : String, ∀ i ∈ s.issues,
    i.isFor cfg (traceTagOf s.files.id id) = true →
      s.Notes id PublishFeedback.issueUrl i.url

/-- A pull request cannot be merged by mistake: it is a draft, and says so. -/
structure PullRequest.Held (p : PullRequest) : Prop where
  draft : p.draft = true
  labels : consensusPrLabels ⊆ p.labels

/-- The pull requests of the targets that are proofs of concept are held. -/
def PocsHeld (cfg : PublishConfig) (headOwner : String) (mode : String → DeliveryMode)
    (s : PublishState) : Prop :=
  ∀ id : String, mode id = DeliveryMode.consensusPocPr → ∀ p ∈ s.prs,
    p.isFor cfg (headOf cfg headOwner s.files.id id) = true → p.Held

/-- What is on GitHub is on record, and held where it has to be. -/
structure Accounted (cfg : PublishConfig) (headOwner : String)
    (mode : String → DeliveryMode) (s : PublishState) : Prop where
  record : OnRecord cfg headOwner s
  held : PocsHeld cfg headOwner mode s

/-- GitHub knows of nothing that the session has published. -/
structure Unpublished (cfg : PublishConfig) (headOwner : String) (s : PublishState) :
    Prop where
  pr : ∀ id : String, ∀ p ∈ s.prs,
    p.isFor cfg (headOf cfg headOwner s.files.id id) = false
  issue : ∀ id : String, ∀ i ∈ s.issues, i.isFor cfg (traceTagOf s.files.id id) = false

/-- A target id has one delivery mode. -/
def KeepsMode (mode : String → DeliveryMode) : PublishEvent → Prop
  | PublishEvent.push t _ => t.deliveryMode = mode t.id
  | _ => True

section Record

variable {cfg : PublishConfig} {headOwner : String} {mode : String → DeliveryMode}
  {t : MergedTarget} {r : PushRun} {s s' : PublishState}

/-- Different targets have different branches. -/
theorem headOf_injective {sid id id' : String}
    (h : headOf cfg headOwner sid id = headOf cfg headOwner sid id') : id = id' := by
  simpa [headOf, branchOf, String.append_assoc, toString] using h

/-- Different targets have different trace tags. -/
theorem traceTagOf_injective {sid id id' : String}
    (h : traceTagOf sid id = traceTagOf sid id') : id = id' := by
  simpa [traceTagOf, String.append_assoc, toString] using h

/-- A target about which something is noted has a feedback file. -/
theorem ne_of_notes {id id' u : String} {url : PublishFeedback → Option String}
    (hnone : s.publishFeedback id = FileRead.notFound) (h : s.Notes id' url u) :
    id' ≠ id := by
  rintro rfl
  obtain ⟨pf, hread, -⟩ := h
  rw [hnone] at hread
  exact absurd hread (by simp [PublishFeedback.readOptional, FileRead.readOptional])

/-- What is noted of a target stays when another file is written. -/
theorem PublishState.Notes.update {id id' u : String}
    {url : PublishFeedback → Option String} {f : FileRead PublishFeedback}
    (h : s.Notes id' url u) (hnone : s.publishFeedback id = FileRead.notFound)
    (hs : s'.publishFeedback = Function.update s.publishFeedback id f) :
    s'.Notes id' url u := by
  unfold PublishState.Notes
  rw [hs, Function.update_of_ne (ne_of_notes hnone h)]
  exact h

/-- What is written is noted. -/
theorem notes_of_update {id u : String} {url : PublishFeedback → Option String}
    {pf : PublishFeedback} (hv : pf.validateModel = Except.ok ())
    (hs : s'.publishFeedback
      = Function.update s.publishFeedback id (FileRead.parsed pf))
    (hu : url pf = some u) : s'.Notes id url u := by
  refine ⟨pf, ?_, hu⟩
  rw [hs, Function.update_self]
  exact FileRead.readOptional_ok_some_iff.mpr ⟨rfl, hv⟩

theorem OnRecord.of_unpublished (h : Unpublished cfg headOwner s) :
    OnRecord cfg headOwner s :=
  ⟨fun id p hp hfor => absurd hfor (by rw [h.pr id p hp]; exact Bool.false_ne_true),
    fun id i hi hfor => absurd hfor (by rw [h.issue id i hi]; exact Bool.false_ne_true)⟩

theorem PocsHeld.of_unpublished (h : Unpublished cfg headOwner s) :
    PocsHeld cfg headOwner mode s :=
  fun id _ p hp hfor => absurd hfor (by rw [h.pr id p hp]; exact Bool.false_ne_true)

/-- Two states agree on what is on GitHub and on what is noted. -/
structure SamePublished (s s' : PublishState) : Prop where
  id : s'.files.id = s.files.id
  prs : s'.prs = s.prs
  issues : s'.issues = s.issues
  publishFeedback : s'.publishFeedback = s.publishFeedback

theorem SameRecords.samePublished (h : SameRecords s s') : SamePublished s s' :=
  ⟨congrArg SessionFiles.id h.files, h.prs, h.issues, h.publishFeedback⟩

/-- Generating publishes nothing. -/
theorem samePublished_generateOne {w : WriterRun} :
    SamePublished s (generateOne cfg t w s).snd := by
  unfold generateOne
  cases decidePublish s.files s.loaded cfg.confidenceFloor t <;>
    exact ⟨rfl, rfl, rfl, rfl⟩

theorem OnRecord.of_samePublished (h : OnRecord cfg headOwner s)
    (hs : SamePublished s s') : OnRecord cfg headOwner s' := by
  constructor
  · unfold PublishState.Notes
    rw [hs.id, hs.prs, hs.publishFeedback]
    exact h.pr
  · unfold PublishState.Notes
    rw [hs.id, hs.issues, hs.publishFeedback]
    exact h.issue

theorem PocsHeld.of_samePublished (h : PocsHeld cfg headOwner mode s)
    (hs : SamePublished s s') : PocsHeld cfg headOwner mode s' := by
  unfold PocsHeld
  rw [hs.id, hs.prs]
  exact h

theorem eq_of_isFor_newPr {head head' : String} {texts : String × String}
    (h : (newPr cfg head t texts r).isFor cfg head' = true) : head = head' := by
  simp only [PullRequest.isFor, newPr, Bool.and_eq_true] at h
  exact of_decide_eq_true h.left.right

theorem eq_of_isFor_newIssue {tag tag' : String} {texts : String × String}
    (h : (newIssue cfg tag texts r).isFor cfg tag' = true) : tag = tag' := by
  simp only [Issue.isFor, newIssue, Bool.and_eq_true] at h
  exact of_decide_eq_true h.right

/-- **Opening, labelling and noting a pull request keeps the record.** -/
theorem OnRecord.withPr (h : OnRecord cfg headOwner s)
    (hnone : s.publishFeedback t.id = FileRead.notFound) (texts : String × String) :
    OnRecord cfg headOwner
      (s.withPr cfg (headOf cfg headOwner s.files.id t.id) t texts r) := by
  constructor
  · intro id p' hp' hfor
    obtain ⟨p, hp, rfl⟩ := List.mem_map.mp hp'
    rw [PullRequest.isFor_addLabels] at hfor
    rw [PullRequest.url_addLabels]
    rcases List.mem_cons.mp hp with rfl | hp
    · -- The new one: its head says which target it is for.
      obtain rfl : t.id = id := headOf_injective (eq_of_isFor_newPr hfor)
      exact notes_of_update (validateModel_prFeedback r.url r.now) rfl rfl
    · exact (h.pr id p hp hfor).update hnone rfl
  · intro id i hi hfor
    exact (h.issue id i hi hfor).update hnone rfl

/-- **Opening and noting an issue keeps the record.** -/
theorem OnRecord.withIssue (h : OnRecord cfg headOwner s)
    (hnone : s.publishFeedback t.id = FileRead.notFound) (texts : String × String) :
    OnRecord cfg headOwner
      (s.withIssue cfg (traceTagOf s.files.id t.id) t texts r) := by
  constructor
  · intro id p hp hfor
    exact (h.pr id p hp hfor).update hnone rfl
  · intro id i hi hfor
    rcases List.mem_cons.mp hi with rfl | hi
    · -- The new one: its tag says which target it is for.
      obtain rfl : t.id = id := traceTagOf_injective (eq_of_isFor_newIssue hfor)
      exact notes_of_update (validateModel_issueFeedback r.url r.now) rfl rfl
    · exact (h.issue id i hi hfor).update hnone rfl

theorem PullRequest.Held.addLabels {p : PullRequest} (h : p.Held) (url : String)
    (labels : List String) : (p.addLabels url labels).Held :=
  ⟨by rw [draft_addLabels]; exact h.draft,
    List.Subset.trans h.labels PullRequest.subset_addLabels⟩

/-- **A proof of concept is opened as a draft, and gets its labels.** -/
theorem held_newPr {head : String} {texts : String × String}
    (hpoc : t.deliveryMode = DeliveryMode.consensusPocPr) :
    ((newPr cfg head t texts r).addLabels r.url (labelsOf cfg t)).Held := by
  constructor
  · rw [PullRequest.draft_addLabels]
    simp [newPr, draftOf, hpoc]
  · have hlabels : ((newPr cfg head t texts r).addLabels r.url (labelsOf cfg t)).labels
        = labelsOf cfg t := by
      simp [PullRequest.addLabels, newPr]
    rw [hlabels, labelsOf, if_pos hpoc]
    exact List.subset_append_right _ _

theorem PocsHeld.withPr (h : PocsHeld cfg headOwner mode s)
    (hmode : t.deliveryMode = mode t.id) (texts : String × String) :
    PocsHeld cfg headOwner mode
      (s.withPr cfg (headOf cfg headOwner s.files.id t.id) t texts r) := by
  intro id hpoc p' hp' hfor
  obtain ⟨p, hp, rfl⟩ := List.mem_map.mp hp'
  rw [PullRequest.isFor_addLabels] at hfor
  rcases List.mem_cons.mp hp with rfl | hp
  · obtain rfl : t.id = id := headOf_injective (eq_of_isFor_newPr hfor)
    exact held_newPr (hmode.trans hpoc)
  · exact (h id hpoc p hp hfor).addLabels _ _

/-! ## Every run keeps the record -/

/-- **A step that meets the condition keeps the record.** -/
theorem OnRecord.after (h : OnRecord cfg headOwner s) {e : PublishEvent}
    (hok : KeepsRecord cfg headOwner s e) :
    OnRecord cfg headOwner (s.after cfg headOwner e) := by
  cases e with
  | beginGenerate => exact h.of_samePublished ⟨rfl, rfl, rfl, rfl⟩
  | generate t w => exact h.of_samePublished samePublished_generateOne
  | change files summary worktree => exact h.of_samePublished ⟨rfl, rfl, rfl, rfl⟩
  | push t r =>
    show OnRecord cfg headOwner (pushOne cfg headOwner t r s).snd
    rcases pushOne_kept hok with ⟨hsame, -⟩ | ⟨-, hnone, texts, s₁, hsame, hpr⟩
      | ⟨-, hnone, texts, hissue⟩
    · exact h.of_samePublished hsame.samePublished
    · rw [hpr, ← hsame.files]
      exact (h.of_samePublished hsame.samePublished).withPr
        (hsame.publishFeedback ▸ hnone) texts
    · rw [hissue]
      exact h.withIssue hnone texts

/-- **A step that meets the condition opens a proof of concept only as one that
is held.** -/
theorem PocsHeld.after (h : PocsHeld cfg headOwner mode s) {e : PublishEvent}
    (hok : KeepsRecord cfg headOwner s e) (hmode : KeepsMode mode e) :
    PocsHeld cfg headOwner mode (s.after cfg headOwner e) := by
  cases e with
  | beginGenerate => exact h.of_samePublished ⟨rfl, rfl, rfl, rfl⟩
  | generate t w => exact h.of_samePublished samePublished_generateOne
  | change files summary worktree => exact h.of_samePublished ⟨rfl, rfl, rfl, rfl⟩
  | push t r =>
    show PocsHeld cfg headOwner mode (pushOne cfg headOwner t r s).snd
    rcases pushOne_kept hok with ⟨hsame, -⟩ | ⟨-, -, texts, s₁, hsame, hpr⟩
      | ⟨-, -, texts, hissue⟩
    · exact h.of_samePublished hsame.samePublished
    · rw [hpr, ← hsame.files]
      exact (h.of_samePublished hsame.samePublished).withPr hmode texts
    · rw [hissue]
      exact h

variable {es : List PublishEvent} {s₀ : PublishState}

/-- **Every run whose pushes meet the condition keeps the record.** -/
theorem onRecord_of_run (hstart : Unpublished cfg headOwner s₀)
    (hok : Runs.Throughout (publishStep cfg headOwner) (KeepsRecord cfg headOwner) s₀ es)
    (hrun : Runs.run (publishStep cfg headOwner) s₀ es = some s) :
    OnRecord cfg headOwner s :=
  Runs.run_invariant (fun s e s' hinv hok hstep => by
    rw [← Option.some.inj hstep]
    exact hinv.after hok) (OnRecord.of_unpublished hstart) hok hrun

/-- **Every run whose pushes meet the condition, and in which a target id has
one delivery mode, accounts for everything on GitHub.** -/
theorem accounted_of_run (hstart : Unpublished cfg headOwner s₀)
    (hok : Runs.Throughout (publishStep cfg headOwner)
      (fun s e => KeepsRecord cfg headOwner s e ∧ KeepsMode mode e) s₀ es)
    (hrun : Runs.run (publishStep cfg headOwner) s₀ es = some s) :
    Accounted cfg headOwner mode s := by
  have hstep : ∀ s e s', Accounted cfg headOwner mode s →
      (KeepsRecord cfg headOwner s e ∧ KeepsMode mode e) →
      publishStep cfg headOwner s e = some s' → Accounted cfg headOwner mode s' := by
    intro s e s' hinv hok hstep
    rw [← Option.some.inj hstep]
    exact ⟨hinv.record.after hok.left, hinv.held.after hok.left hok.right⟩
  have hzero : Accounted cfg headOwner mode s₀ :=
    ⟨OnRecord.of_unpublished hstart, PocsHeld.of_unpublished hstart⟩
  exact Runs.run_invariant hstep hzero hok hrun

/-! ## What a push that returns leaves -/

/-- When a push counts a target as published, what is on GitHub for the target
is noted. -/
def ShippedIsNoted (cfg : PublishConfig) (headOwner : String) (s : PublishState)
    (t : MergedTarget) (r : PushRun) : Prop :=
  (pushOne cfg headOwner t r s).fst = some Calls.returned →
    (∀ p ∈ (pushOne cfg headOwner t r s).snd.prs,
      p.isFor cfg (headOf cfg headOwner s.files.id t.id) = true →
        (pushOne cfg headOwner t r s).snd.Notes t.id PublishFeedback.prUrl p.url)
    ∧ ∀ i ∈ (pushOne cfg headOwner t r s).snd.issues,
      i.isFor cfg (traceTagOf s.files.id t.id) = true →
        (pushOne cfg headOwner t r s).snd.Notes t.id PublishFeedback.issueUrl i.url

/-- When a push counts a proof of concept as published, there is a pull request
for it, which is held and noted. -/
def ShippedIsHeld (cfg : PublishConfig) (headOwner : String) (s : PublishState)
    (t : MergedTarget) (r : PushRun) : Prop :=
  t.deliveryMode = DeliveryMode.consensusPocPr →
  (pushOne cfg headOwner t r s).fst = some Calls.returned →
    (∃ p ∈ (pushOne cfg headOwner t r s).snd.prs,
      p.isFor cfg (headOf cfg headOwner s.files.id t.id) = true)
    ∧ ∀ p ∈ (pushOne cfg headOwner t r s).snd.prs,
      p.isFor cfg (headOf cfg headOwner s.files.id t.id) = true →
        p.Held
        ∧ (pushOne cfg headOwner t r s).snd.Notes t.id PublishFeedback.prUrl p.url

/-- A push of a pull request that returns leaves one on GitHub. -/
theorem exists_pr_of_returned (hok : KeepsRecord cfg headOwner s (PublishEvent.push t r))
    (hmode : t.deliveryMode ≠ DeliveryMode.consensusIssue)
    (hret : (pushOne cfg headOwner t r s).fst = some Calls.returned) :
    ∃ p ∈ (pushOne cfg headOwner t r s).snd.prs,
      p.isFor cfg (headOf cfg headOwner s.files.id t.id) = true := by
  rcases pushOne_kept hok with ⟨hsame, hthere⟩ | ⟨-, -, texts, s₁, -, hpr⟩ | ⟨hissue, -⟩
  · rw [hsame.prs]
    exact List.any_eq_true.mp (hthere hret hmode)
  · rw [hpr]
    refine ⟨_, List.mem_map.mpr ⟨_, List.mem_cons_self, rfl⟩, ?_⟩
    rw [PullRequest.isFor_addLabels]
    simp [PullRequest.isFor, newPr]
  · exact absurd hissue hmode

end Record

/-! Two sessions' worth of samples: a proof of concept whose texts are written,
and a push that ends with an error of GitHub. -/

/-- A proof of concept. -/
def pocTarget (id : String) : MergedTarget :=
  { issueTarget id [⟨"family", 0⟩] with
    breakageClass := some BreakageClass.clarityVmBehavior
    pocImplementable := some true
    pocTestScope := some ["clarity"]
    deliveryMode := DeliveryMode.consensusPocPr }

/-- Settings that open drafts without labels of their own. -/
def publishSettings : PublishConfig where
  publishBaseRepo := "cylewitruk/stacks-core"
  publishBaseBranch := "feat/stacks-bench"
  publishDraftPrs := true
  publishPrLabels := []
  publishBranchPrefix := "agentic"
  publishHeadOwner := some "bench"
  confidenceFloor := Confidence.medium

/-- A checkout at a commit, with one tracked file. -/
def checkoutAt (sha committed now : String) : Worktree where
  branch := "optimize"
  head := ⟨sha, none, [("lib.rs", committed)], "perf: cache reads"⟩
  index := [("lib.rs", committed)]
  files := fun path => if path = "lib.rs" then some now else none

/-- The texts of a session are written, and nothing is published. -/
def writtenState (files : SessionFiles) : PublishState where
  files := files
  summary := FileRead.notFound
  artifacts := fun _ => ⟨FileRead.parsed "perf: cache reads\n",
    FileRead.parsed "## Summary\n", FileRead.parsed "Cache reads\n",
    FileRead.parsed "## Summary\n"⟩
  publishFeedback := fun _ => FileRead.notFound
  worktree := fun _ => some (checkoutAt "a1" "new" "new")
  remote := fun _ => none
  prs := []
  issues := []
  loaded := none
  gate := fun _ => Gate.notReached

/-- A push that nothing interrupts. -/
def cleanPush : PushRun :=
  ⟨none, String.ofList (List.replicate 40 'c'),
    "https://github.com/cylewitruk/stacks-core/pull/7", 0⟩

/-- A push that ends with an error of GitHub at a call. -/
def failingPush (call : PublishCall) (done : Bool) : PushRun :=
  { cleanPush with interruption := some ⟨call, done, some ["502 Bad Gateway"]⟩ }

/-- The state after a push of a target that ends with an error of GitHub or of
git at a call. -/
def stoppedState (t : MergedTarget) (call : PublishCall) (done : Bool) : PublishState :=
  (writtenState (measuredSession "20260614" t.id)).after publishSettings "bench"
    (PublishEvent.push t (failingPush call done))

theorem keepsRecord_pushBranch (id : String) {s : PublishState} :
    KeepsRecord publishSettings "bench" s (PublishEvent.push (pocTarget id)
      (failingPush PublishCall.pushBranch false)) :=
  fun _ => Or.inl ⟨_, rfl, Or.inl (by
    show PublishCall.pushBranch ∈ callsBefore DeliveryMode.consensusPocPr
    decide)⟩

/-- A push that nothing interrupts meets the condition where nothing is
noted. -/
theorem keepsRecord_cleanPush {t : MergedTarget} {s : PublishState}
    (hnone : s.publishFeedback t.id = FileRead.notFound) :
    KeepsRecord publishSettings "bench" s (PublishEvent.push t cleanPush) :=
  fun _ => Or.inr ⟨fun h => absurd h.choose_spec.left (by simp [cleanPush]), hnone⟩

theorem unpublished_writtenState {cfg : PublishConfig} {headOwner : String}
    {files : SessionFiles} : Unpublished cfg headOwner (writtenState files) :=
  ⟨fun _ _ h => absurd h List.not_mem_nil, fun _ _ h => absurd h List.not_mem_nil⟩

/-- **A proof of concept that counts as published is held.** As long as no push
is stopped between opening a pull request and noting it, and a target id has
one delivery mode, a push that counts a proof of concept as published leaves a
pull request on GitHub, and every pull request for its branch is a draft with
the three labels and is noted. -/
theorem shipped_poc_is_held {cfg : PublishConfig} {headOwner : String}
    {mode : String → DeliveryMode} {s₀ s : PublishState} {es : List PublishEvent}
    {t : MergedTarget} {r : PushRun} (hstart : Unpublished cfg headOwner s₀)
    (hok : Runs.Throughout (publishStep cfg headOwner)
      (fun s e => KeepsRecord cfg headOwner s e ∧ KeepsMode mode e) s₀
      (es ++ [PublishEvent.push t r]))
    (hrun : Runs.run (publishStep cfg headOwner) s₀ es = some s) :
    ShippedIsHeld cfg headOwner s t r := by
  obtain ⟨hes, hlast⟩ := Runs.throughout_append.mp hok
  obtain ⟨⟨hkeeps, hmode⟩, -⟩ := hlast s hrun
  have hinv := accounted_of_run hstart hes hrun
  have hrecord := hinv.record.after hkeeps
  have hheld := hinv.held.after hkeeps hmode
  have hid : (pushOne cfg headOwner t r s).snd.files = s.files := sameFiles_pushOne.files
  intro hpoc hret
  have hpr : t.deliveryMode ≠ DeliveryMode.consensusIssue := by
    rw [hpoc]
    exact DeliveryMode.noConfusion
  refine ⟨exists_pr_of_returned hkeeps hpr hret, fun p hp hfor => ⟨?_, ?_⟩⟩
  · refine hheld t.id (hmode.symm.trans hpoc) p hp ?_
    exact hid.symm ▸ hfor
  · refine hrecord.pr t.id p hp ?_
    exact hid.symm ▸ hfor

/-- The theorem at a push that git interrupts, and a clean one after it. -/
theorem shipped_poc_is_held_after_retry :
    (pushOne publishSettings "bench" (pocTarget "fork-rule") cleanPush (stoppedState
        (pocTarget "fork-rule") PublishCall.pushBranch false)).fst = some Calls.returned
      ∧ ShippedIsHeld publishSettings "bench" (stoppedState (pocTarget "fork-rule")
          PublishCall.pushBranch false) (pocTarget "fork-rule") cleanPush := by
  have hmode : (pocTarget "fork-rule").deliveryMode
      = (fun _ : String => DeliveryMode.consensusPocPr) (pocTarget "fork-rule").id := rfl
  have hok : Runs.Throughout (publishStep publishSettings "bench")
      (fun s e => KeepsRecord publishSettings "bench" s e
        ∧ KeepsMode (fun _ => DeliveryMode.consensusPocPr) e)
      (writtenState (measuredSession "20260614" "fork-rule"))
      ([PublishEvent.push (pocTarget "fork-rule")
          (failingPush PublishCall.pushBranch false)]
        ++ [PublishEvent.push (pocTarget "fork-rule") cleanPush]) := by
    refine ⟨⟨keepsRecord_pushBranch "fork-rule", hmode⟩, fun s' hs' => ?_⟩
    obtain rfl : stoppedState (pocTarget "fork-rule") PublishCall.pushBranch false = s' :=
      Option.some.inj hs'
    exact ⟨⟨keepsRecord_cleanPush rfl, hmode⟩, fun _ _ => trivial⟩
  exact ⟨rfl, shipped_poc_is_held unpublished_writtenState hok rfl⟩

/-- Without the condition it fails: a push opens the pull request and is
refused the labels, and the next push counts it as published. -/
theorem not_shipped_poc_is_held :
    ¬ ∀ (cfg : PublishConfig) (headOwner : String) (s₀ s : PublishState)
      (es : List PublishEvent) (t : MergedTarget) (r : PushRun),
      Unpublished cfg headOwner s₀ →
      (∀ e ∈ es, ∃ t r, e = PublishEvent.push t r) →
      Runs.run (publishStep cfg headOwner) s₀ es = some s →
      ShippedIsHeld cfg headOwner s t r := by
  intro h
  have hheld := h publishSettings "bench"
    (writtenState (measuredSession "20260614" "fork-rule"))
    (stoppedState (pocTarget "fork-rule") PublishCall.addLabels false)
    [PublishEvent.push (pocTarget "fork-rule") (failingPush PublishCall.addLabels false)]
    (pocTarget "fork-rule") cleanPush unpublished_writtenState
    (fun e he => ⟨_, _, List.mem_singleton.mp he⟩) rfl rfl rfl
  obtain ⟨p, hp, hfor⟩ := hheld.left
  -- The only pull request has no labels at all.
  have hnone : p.labels ∈ [([] : List String)] :=
    List.mem_map_of_mem (f := PullRequest.labels) hp
  have hlabels := (hheld.right p hp hfor).left.labels
  rw [List.mem_singleton.mp hnone] at hlabels
  exact absurd hlabels (by decide)

/-- **What counts as published is noted.** As long as no push is stopped
between opening something and noting it, a push that counts a target as
published leaves every pull request and every issue of the target named by its
feedback file, where it is read when the session is archived. -/
theorem shipped_is_noted {cfg : PublishConfig} {headOwner : String}
    {s₀ s : PublishState} {es : List PublishEvent} {t : MergedTarget} {r : PushRun}
    (hstart : Unpublished cfg headOwner s₀)
    (hok : Runs.Throughout (publishStep cfg headOwner) (KeepsRecord cfg headOwner) s₀
      (es ++ [PublishEvent.push t r]))
    (hrun : Runs.run (publishStep cfg headOwner) s₀ es = some s) :
    ShippedIsNoted cfg headOwner s t r := by
  obtain ⟨hes, hlast⟩ := Runs.throughout_append.mp hok
  have hrecord := (onRecord_of_run hstart hes hrun).after (hlast s hrun).left
  have hid : (pushOne cfg headOwner t r s).snd.files = s.files := sameFiles_pushOne.files
  intro _
  exact ⟨fun p hp hfor => hrecord.pr t.id p hp (hid.symm ▸ hfor),
    fun i hi hfor => hrecord.issue t.id i hi (hid.symm ▸ hfor)⟩

/-- The theorem at an issue that git has nothing to do with: the first push is
refused by GitHub, and the second one opens it. -/
theorem shipped_is_noted_after_retry :
    (pushOne publishSettings "bench" (issueTarget "fork-rule" [⟨"family", 0⟩]) cleanPush
        (stoppedState (issueTarget "fork-rule" [⟨"family", 0⟩])
          PublishCall.createIssue false)).fst = some Calls.returned
      ∧ ShippedIsNoted publishSettings "bench"
          (stoppedState (issueTarget "fork-rule" [⟨"family", 0⟩])
            PublishCall.createIssue false)
          (issueTarget "fork-rule" [⟨"family", 0⟩]) cleanPush := by
  have hok : Runs.Throughout (publishStep publishSettings "bench")
      (KeepsRecord publishSettings "bench")
      (writtenState (measuredSession "20260614" "fork-rule"))
      ([PublishEvent.push (issueTarget "fork-rule" [⟨"family", 0⟩])
          (failingPush PublishCall.createIssue false)]
        ++ [PublishEvent.push (issueTarget "fork-rule" [⟨"family", 0⟩]) cleanPush]) := by
    refine ⟨fun _ => Or.inl ⟨_, rfl, Or.inr ⟨rfl, rfl⟩⟩, fun s' hs' => ?_⟩
    obtain rfl : stoppedState (issueTarget "fork-rule" [⟨"family", 0⟩])
      PublishCall.createIssue false = s' := Option.some.inj hs'
    exact ⟨keepsRecord_cleanPush rfl, fun _ _ => trivial⟩
  exact ⟨rfl, shipped_is_noted unpublished_writtenState hok rfl⟩

/-- Without the condition it fails: the pull request is opened and the answer
is lost, and the next push counts it as published. -/
theorem not_shipped_is_noted :
    ¬ ∀ (cfg : PublishConfig) (headOwner : String) (s₀ s : PublishState)
      (es : List PublishEvent) (t : MergedTarget) (r : PushRun),
      Unpublished cfg headOwner s₀ →
      (∀ e ∈ es, ∃ t r, e = PublishEvent.push t r) →
      Runs.run (publishStep cfg headOwner) s₀ es = some s →
      ShippedIsNoted cfg headOwner s t r := by
  intro h
  have hnoted := h publishSettings "bench"
    (writtenState (measuredSession "20260614" "cache-reads"))
    (stoppedState (benchTarget "cache-reads") PublishCall.createPr true)
    [PublishEvent.push (benchTarget "cache-reads") (failingPush PublishCall.createPr true)]
    (benchTarget "cache-reads") cleanPush unpublished_writtenState
    (fun e he => ⟨_, _, List.mem_singleton.mp he⟩) rfl rfl
  obtain ⟨pf, hread, -⟩ := hnoted.left _ List.mem_cons_self rfl
  exact absurd hread (by
    show ¬ PublishFeedback.readOptional _ FileRead.notFound = _
    simp [PublishFeedback.readOptional, FileRead.readOptional])
