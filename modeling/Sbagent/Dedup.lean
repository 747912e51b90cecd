import Sbagent.History
import Sbagent.Targets

/-!
# Deduplication against history

A fix that is already out – in an open pull request or issue, or merged – is
not tried again, and neither is one that failed too often. The policy keeps
one state per fix signature: the open pull request and issue, the merged pull
request, and a count of unsuccessful attempts. It is computed from the history
projection by walking the signatures of every family and, for each, all
attempts under that signature.

The walk visits a signature once per family it occurs in, and each visit
counts all of its attempts again. `unsuccessfulAttempts_eq` says exactly what
comes out: the number of unsuccessful outcomes, multiplied by the number of
families. The other three fields do not mind being set twice, so what is open
or merged is found as intended (`isSome_openPr_stateAt` and its siblings).
-/

open Keyed

/-- Reasons of the deterministic rejections. -/
def dedupReasonOpenPr : String := "dedup:open-pr"
/-- See `dedupReasonOpenPr`. -/
def dedupReasonOpenIssue : String := "dedup:open-issue"
/-- See `dedupReasonOpenPr`. -/
def dedupReasonMerged : String := "dedup:merged"
/-- See `dedupReasonOpenPr`. -/
def dedupReasonRepeatedFailure : String := "dedup:repeated-failure"

/-- Whether a reason is one of the four. -/
def isDedupReason (reason : String) : Bool :=
  reason = dedupReasonOpenPr || reason = dedupReasonOpenIssue
    || reason = dedupReasonMerged || reason = dedupReasonRepeatedFailure

/-- One deterministic decision for an analyzer target. -/
structure DedupDecision where
  familyId : String
  targetIndex : ℕ
  fixSignature : String
  reason : String
  detail : String
  deriving DecidableEq

/-- The decision in the shape of a merge rejection. -/
def DedupDecision.toRejectedByMerge (d : DedupDecision) : RejectedByMerge where
  familyId := d.familyId
  targetIndex := d.targetIndex
  reason := d.reason

/-- What history says of one signature. -/
structure SignatureState where
  openPr : Option String
  openIssue : Option String
  mergedPr : Option String
  unsuccessfulAttempts : ℕ
  deriving DecidableEq

/-- Nothing known yet. -/
def SignatureState.empty : SignatureState := ⟨none, none, none, 0⟩

/-- Policy view keyed by exact fix signature. -/
structure DedupProjection where
  bySignature : Std.ExtTreeMap String SignatureState
  threshold : ℕ

/-- State of a pull request or issue, as the policy distinguishes them. -/
inductive ArtifactState where
  | openPr
  | merged
  | closedUnmerged
  | stale
  | branchDeleted
  | issueOpen
  | issueClosed
  deriving DecidableEq

/-- The statuses that count as unsuccessful. -/
def unsuccessfulFromArchivedStatus : TargetStatus → Bool
  | TargetStatus.rejected | TargetStatus.failed | TargetStatus.aborted => true
  | TargetStatus.accepted => false

/-- The state that the latest kind of event leaves an artifact in. -/
def artifactStateFromKind : MaintEventKind → ArtifactState
  | MaintEventKind.prOpen | MaintEventKind.prForcePushed => ArtifactState.openPr
  | MaintEventKind.prMerged => ArtifactState.merged
  | MaintEventKind.prClosedUnmerged => ArtifactState.closedUnmerged
  | MaintEventKind.prStale => ArtifactState.stale
  | MaintEventKind.prBranchDeleted => ArtifactState.branchDeleted
  | MaintEventKind.issueOpen => ArtifactState.issueOpen
  | MaintEventKind.issueClosed => ArtifactState.issueClosed

/-- The state of a pull request of an attempt: open, until something is
known. -/
def prStateIn (h : HistoryProjection) (url : String) : ArtifactState :=
  ((h.latestArtifactState url).map fun s => artifactStateFromKind s.kind).getD
    ArtifactState.openPr

/-- The state of an issue of an attempt: open, until something is known. -/
def issueStateIn (h : HistoryProjection) (url : String) : ArtifactState :=
  ((h.latestArtifactState url).map fun s => artifactStateFromKind s.kind).getD
    ArtifactState.issueOpen

namespace SignatureState

/-- Count an attempt by the status it was archived with. -/
def recordStatus (st : SignatureState) (status : TargetStatus) :
    SignatureState :=
  if unsuccessfulFromArchivedStatus status then
    { st with unsuccessfulAttempts := st.unsuccessfulAttempts + 1 }
  else st

/-- Take note of the pull request of an attempt. The first open one is kept,
and the last merged one. -/
def recordPr (h : HistoryProjection) (st : SignatureState) (url : String) :
    SignatureState :=
  match prStateIn h url with
  | ArtifactState.openPr => { st with openPr := st.openPr.or (some url) }
  | ArtifactState.merged => { st with mergedPr := some url }
  | ArtifactState.closedUnmerged =>
    { st with unsuccessfulAttempts := st.unsuccessfulAttempts + 1 }
  | ArtifactState.stale | ArtifactState.branchDeleted => st
  | ArtifactState.issueOpen | ArtifactState.issueClosed => st

/-- Take note of the issue of an attempt. -/
def recordIssue (h : HistoryProjection) (st : SignatureState) (url : String) :
    SignatureState :=
  match issueStateIn h url with
  | ArtifactState.issueOpen =>
    { st with openIssue := st.openIssue.or (some url) }
  | ArtifactState.issueClosed =>
    { st with unsuccessfulAttempts := st.unsuccessfulAttempts + 1 }
  | _ => st

/-- Take note of an attempt. -/
def recordAttempt (h : HistoryProjection) (st : SignatureState)
    (a : ProjectedAttempt) : SignatureState :=
  let st := st.recordStatus a.status
  let st := match a.prUrl with
    | some url => st.recordPr h url
    | none => st
  match a.issueUrl with
  | some url => st.recordIssue h url
  | none => st

end SignatureState

namespace DedupProjection

/-- The policy view of a history: for every listed signature, all attempts
under it. -/
def fromHistoryProjection (h : HistoryProjection) (threshold : ℕ) :
    DedupProjection where
  bySignature := accumulate compare (fun a => a.fixSignature)
    (SignatureState.recordAttempt h) SignatureState.empty
    (h.signatures.flatMap fun s => h.attemptsForSignature s.fixSignature)
  threshold := threshold

/-- The policy view of two ledgers. -/
def fromLedgers (sessions : List SessionRecord) (events : List MaintEvent)
    (threshold : ℕ) : DedupProjection :=
  fromHistoryProjection (HistoryProjection.fromLedgers sessions events)
    threshold

/-- The reason and detail that a state blocks with, if it does: an open pull
request first, then an open issue, then a merged pull request, then repeated
failure. -/
def blockedBy (threshold : ℕ) (st : SignatureState) : Option (String × String) :=
  match st.openPr, st.openIssue, st.mergedPr with
  | some url, _, _ => some (dedupReasonOpenPr, s!"matching open PR: {url}")
  | none, some url, _ =>
    some (dedupReasonOpenIssue, s!"matching open issue: {url}")
  | none, none, some url =>
    some (dedupReasonMerged, s!"matching merged PR: {url}")
  | none, none, none =>
    if 0 < threshold ∧ threshold ≤ st.unsuccessfulAttempts then
      some (dedupReasonRepeatedFailure,
        s!"{st.unsuccessfulAttempts} unsuccessful archived attempt(s)")
    else none

/-- The decision for an analyzer target, if history blocks it. -/
def decisionFor (p : DedupProjection) (familyId : String) (targetIndex : ℕ)
    (target : AnalyzerTarget) : Option DedupDecision :=
  (p.bySignature[target.fixSignature]?).bind fun st =>
    (blockedBy p.threshold st).map fun r =>
      { familyId := familyId, targetIndex := targetIndex,
        fixSignature := target.fixSignature, reason := r.fst, detail := r.snd }

/-- What the view holds for a signature, nothing when it is not listed. -/
def stateAt (p : DedupProjection) (sig : String) : SignatureState :=
  (p.bySignature[sig]?).getD SignatureState.empty

/-- The count of unsuccessful attempts the view holds for a signature. -/
def unsuccessfulAttempts (p : DedupProjection) (sig : String) : ℕ :=
  (p.stateAt sig).unsuccessfulAttempts

/-- Whether history blocks a signature: the decision depends on nothing
else. -/
def blocks (p : DedupProjection) (sig : String) : Bool :=
  (blockedBy p.threshold (p.stateAt sig)).isSome

/-- An unlisted signature has nothing open, nothing merged and no failures. -/
theorem blockedBy_empty (threshold : ℕ) :
    blockedBy threshold SignatureState.empty = none :=
  if_neg (by simp only [SignatureState.empty]; omega)

theorem decisionFor_eq (p : DedupProjection) (familyId : String) (i : ℕ)
    (t : AnalyzerTarget) : p.decisionFor familyId i t
      = (blockedBy p.threshold (p.stateAt t.fixSignature)).map fun r =>
          { familyId := familyId, targetIndex := i,
            fixSignature := t.fixSignature, reason := r.fst,
            detail := r.snd } := by
  unfold decisionFor stateAt
  cases hst : p.bySignature[t.fixSignature]? with
  | some st => rfl
  | none => rw [Option.getD_none, blockedBy_empty]; rfl

theorem isSome_decisionFor (p : DedupProjection) (familyId : String) (i : ℕ)
    (t : AnalyzerTarget) :
    (p.decisionFor familyId i t).isSome = p.blocks t.fixSignature := by
  rw [decisionFor_eq, Option.isSome_map, blocks]

/-- A decision names the target it was asked about, with a known reason. -/
theorem decisionFor_spec {p : DedupProjection} {familyId : String} {i : ℕ}
    {t : AnalyzerTarget} {d : DedupDecision}
    (h : p.decisionFor familyId i t = some d) :
    d.familyId = familyId ∧ d.targetIndex = i
      ∧ d.fixSignature = t.fixSignature ∧ isDedupReason d.reason = true := by
  rw [decisionFor_eq, Option.map_eq_some_iff] at h
  obtain ⟨⟨reason, detail⟩, hr, rfl⟩ := h
  refine ⟨rfl, rfl, rfl, ?_⟩
  show isDedupReason reason = true
  unfold blockedBy at hr
  split at hr
  · obtain ⟨rfl, rfl⟩ := hr
    rfl
  · obtain ⟨rfl, rfl⟩ := hr
    rfl
  · obtain ⟨rfl, rfl⟩ := hr
    rfl
  · split at hr
    · obtain ⟨rfl, rfl⟩ := hr
      rfl
    · simp at hr

end DedupProjection

/-! ## The state of a signature, from the ledgers -/

section FromLedgers

/-- What one attempt adds to the count: one for an unsuccessful status, one
for a pull request closed unmerged, one for a closed issue. -/
def attemptWeight (h : HistoryProjection) (a : ProjectedAttempt) : ℕ :=
  (if unsuccessfulFromArchivedStatus a.status then 1 else 0)
    + (if a.prUrl.map (prStateIn h) = some ArtifactState.closedUnmerged
        then 1 else 0)
    + (if a.issueUrl.map (issueStateIn h) = some ArtifactState.issueClosed
        then 1 else 0)

namespace SignatureState

variable (h : HistoryProjection)

theorem recordStatus_unsuccessfulAttempts (st : SignatureState)
    (status : TargetStatus) : (st.recordStatus status).unsuccessfulAttempts
      = st.unsuccessfulAttempts
        + (if unsuccessfulFromArchivedStatus status then 1 else 0) := by
  unfold recordStatus
  split <;> rfl

theorem recordPr_unsuccessfulAttempts (st : SignatureState) (url : String) :
    (st.recordPr h url).unsuccessfulAttempts = st.unsuccessfulAttempts
      + (if prStateIn h url = ArtifactState.closedUnmerged then 1 else 0) := by
  unfold recordPr
  split <;> simp_all

theorem recordIssue_unsuccessfulAttempts (st : SignatureState) (url : String) :
    (st.recordIssue h url).unsuccessfulAttempts = st.unsuccessfulAttempts
      + (if issueStateIn h url = ArtifactState.issueClosed then 1 else 0) := by
  unfold recordIssue
  split <;> simp_all

/-- **One attempt adds its weight.** -/
theorem recordAttempt_unsuccessfulAttempts (st : SignatureState)
    (a : ProjectedAttempt) :
    (st.recordAttempt h a).unsuccessfulAttempts
      = st.unsuccessfulAttempts + attemptWeight h a := by
  unfold recordAttempt attemptWeight
  rcases hp : a.prUrl with _ | pr <;> rcases hi : a.issueUrl with _ | issue <;>
    simp [recordPr_unsuccessfulAttempts, recordIssue_unsuccessfulAttempts,
      recordStatus_unsuccessfulAttempts, Nat.add_assoc]

/-- A walk over attempts adds up their weights. -/
theorem foldl_unsuccessfulAttempts (as : List ProjectedAttempt)
    (st : SignatureState) :
    (as.foldl (recordAttempt h) st).unsuccessfulAttempts
      = st.unsuccessfulAttempts + (as.map (attemptWeight h)).sum := by
  induction as generalizing st with
  | nil => rfl
  | cons a as ih =>
    rw [List.foldl_cons, ih, recordAttempt_unsuccessfulAttempts, List.map_cons,
      List.sum_cons, Nat.add_assoc]

end SignatureState

/-- What a walk finds out is what it knew, or what some step told it. -/
theorem foldl_flag {σ α : Type} {step : σ → α → σ} {flag : σ → Bool} {q : α → Bool}
    (hstep : ∀ st a, flag (step st a) = (flag st || q a)) (as : List α) (st : σ) :
    flag (as.foldl step st) = (flag st || as.any q) := by
  induction as generalizing st with
  | nil => rw [List.foldl_nil, List.any_nil, Bool.or_false]
  | cons a as ih => rw [List.foldl_cons, ih, hstep, List.any_cons, Bool.or_assoc]

namespace SignatureState

variable {h : HistoryProjection}

/-- Counting an attempt touches nothing else. -/
theorem recordStatus_out (st : SignatureState) (status : TargetStatus) :
    (st.recordStatus status).openPr = st.openPr
      ∧ (st.recordStatus status).openIssue = st.openIssue
      ∧ (st.recordStatus status).mergedPr = st.mergedPr := by
  unfold recordStatus
  split <;> exact ⟨rfl, rfl, rfl⟩

/-- What a pull request tells of pull requests, and it tells nothing of
issues. -/
theorem recordPr_out (st : SignatureState) (url : String) :
    (st.recordPr h url).openPr.isSome
        = (st.openPr.isSome || decide (prStateIn h url = ArtifactState.openPr))
      ∧ (st.recordPr h url).openIssue = st.openIssue
      ∧ (st.recordPr h url).mergedPr.isSome
        = (st.mergedPr.isSome || decide (prStateIn h url = ArtifactState.merged)) := by
  unfold recordPr
  cases prStateIn h url <;> simp

/-- What an issue tells of issues, and it tells nothing of pull requests. -/
theorem recordIssue_out (st : SignatureState) (url : String) :
    (st.recordIssue h url).openPr = st.openPr
      ∧ (st.recordIssue h url).openIssue.isSome = (st.openIssue.isSome
        || decide (issueStateIn h url = ArtifactState.issueOpen))
      ∧ (st.recordIssue h url).mergedPr = st.mergedPr := by
  unfold recordIssue
  cases issueStateIn h url <;> simp

/-- What is out after one attempt more. -/
theorem recordAttempt_out (st : SignatureState) (a : ProjectedAttempt) :
    (st.recordAttempt h a).openPr.isSome = (st.openPr.isSome
        || a.prUrl.any fun url => prStateIn h url = ArtifactState.openPr)
      ∧ (st.recordAttempt h a).openIssue.isSome = (st.openIssue.isSome
        || a.issueUrl.any fun url => issueStateIn h url = ArtifactState.issueOpen)
      ∧ (st.recordAttempt h a).mergedPr.isSome = (st.mergedPr.isSome
        || a.prUrl.any fun url => prStateIn h url = ArtifactState.merged) := by
  obtain ⟨hpr, hissue, hmerged⟩ := recordStatus_out st a.status
  unfold recordAttempt
  rcases a.prUrl with _ | pr <;> rcases a.issueUrl with _ | issue <;>
    simp [recordPr_out, recordIssue_out, hpr, hissue, hmerged]

/-- Nothing is open or merged, as far as a state knows. -/
def NothingOut (st : SignatureState) : Prop :=
  st.openPr = none ∧ st.openIssue = none ∧ st.mergedPr = none

/-- An attempt with nothing open or merged. -/
def AttemptNotOut (h : HistoryProjection) (a : ProjectedAttempt) : Prop :=
  (∀ url ∈ a.prUrl, prStateIn h url ≠ ArtifactState.openPr
      ∧ prStateIn h url ≠ ArtifactState.merged)
    ∧ ∀ url ∈ a.issueUrl, issueStateIn h url ≠ ArtifactState.issueOpen

theorem recordPr_nothingOut {st : SignatureState} {url : String}
    (hst : st.NothingOut) (hopen : prStateIn h url ≠ ArtifactState.openPr)
    (hmerged : prStateIn h url ≠ ArtifactState.merged) :
    (st.recordPr h url).NothingOut := by
  unfold recordPr
  split <;> first | contradiction | exact hst

theorem recordIssue_nothingOut {st : SignatureState} {url : String}
    (hst : st.NothingOut)
    (hopen : issueStateIn h url ≠ ArtifactState.issueOpen) :
    (st.recordIssue h url).NothingOut := by
  unfold recordIssue
  split <;> first | contradiction | exact hst

theorem recordStatus_nothingOut {st : SignatureState} (status : TargetStatus)
    (hst : st.NothingOut) : (st.recordStatus status).NothingOut := by
  unfold recordStatus
  split <;> exact hst

/-- An attempt with nothing out leaves nothing out. -/
theorem recordAttempt_nothingOut {st : SignatureState} {a : ProjectedAttempt}
    (hst : st.NothingOut) (ha : AttemptNotOut h a) :
    (st.recordAttempt h a).NothingOut := by
  have hstatus := recordStatus_nothingOut a.status hst
  obtain ⟨hpr, hissue⟩ := ha
  unfold recordAttempt
  rcases hp : a.prUrl with _ | pr <;> rcases hi : a.issueUrl with _ | issue
  · exact hstatus
  · exact recordIssue_nothingOut hstatus (hissue issue hi)
  · obtain ⟨hopen, hmerged⟩ := hpr pr hp
    exact recordPr_nothingOut hstatus hopen hmerged
  · obtain ⟨hopen, hmerged⟩ := hpr pr hp
    exact recordIssue_nothingOut (recordPr_nothingOut hstatus hopen hmerged)
      (hissue issue hi)

theorem foldl_nothingOut {as : List ProjectedAttempt} {st : SignatureState}
    (hst : st.NothingOut) (has : ∀ a ∈ as, AttemptNotOut h a) :
    (as.foldl (recordAttempt h) st).NothingOut := by
  induction as generalizing st with
  | nil => exact hst
  | cons a as ih =>
    exact ih (recordAttempt_nothingOut hst (has a List.mem_cons_self))
      fun b hb => has b (List.mem_cons_of_mem _ hb)

end SignatureState

/-- **The walk visits a signature's attempts once per family**: what it files
under the signature is all its attempts, as many times over. -/
theorem under_walk {h : HistoryProjection}
    (hsig : ∀ sig, ∀ a ∈ h.attemptsForSignature sig, a.fixSignature = sig)
    (l : List ProjectedSignature) (sig : String) :
    under (fun a => a.fixSignature) sig
        (l.flatMap fun s => h.attemptsForSignature s.fixSignature)
      = (List.replicate ((l.map fun s => s.fixSignature).count sig)
          (h.attemptsForSignature sig)).flatten := by
  induction l with
  | nil => rfl
  | cons s l ih =>
    rw [List.flatMap_cons, under, List.filter_append, ← under, ← under, ih,
      List.map_cons, List.count_cons]
    by_cases hs : s.fixSignature = sig
    · have hall : under (fun a => a.fixSignature) sig
          (h.attemptsForSignature s.fixSignature)
          = h.attemptsForSignature s.fixSignature :=
        List.filter_eq_self.mpr fun a ha => by
          simpa using (hsig _ a ha).trans hs
      rw [hall, if_pos (by simpa using hs), hs, List.replicate_succ,
        List.flatten_cons]
    · have hnone : under (fun a => a.fixSignature) sig
          (h.attemptsForSignature s.fixSignature) = [] :=
        List.filter_eq_nil_iff.mpr fun a ha hc =>
          hs ((hsig _ a ha).symm.trans (by simpa using hc))
      rw [hnone, if_neg (by simpa using hs), List.nil_append, Nat.add_zero]

namespace DedupProjection

/-- The state of a signature is what the attempts filed under it make of an
empty one. -/
theorem stateAt_fromHistoryProjection (h : HistoryProjection) (threshold : ℕ)
    (sig : String) : (fromHistoryProjection h threshold).stateAt sig
      = (under (fun a => a.fixSignature) sig
          (h.signatures.flatMap fun s =>
            h.attemptsForSignature s.fixSignature)).foldl
          (SignatureState.recordAttempt h) SignatureState.empty := by
  unfold stateAt fromHistoryProjection
  rw [getElem?_accumulate]
  split
  case isTrue => rfl
  case isFalse hk => rw [under_eq_nil_iff.mpr hk]; rfl

variable (sessions : List SessionRecord) (events : List MaintEvent)
  (threshold : ℕ) (sig : String)

theorem fixSignature_of_mem_attempts {sig : String} {a : ProjectedAttempt}
    (ha : a ∈ (HistoryProjection.fromLedgers sessions
      events).attemptsForSignature sig) : a.fixSignature = sig :=
  (mem_under.mp ((HistoryProjection.attemptsForSignature_perm sessions events
    sig).mem_iff.mp ha)).right

/-- **The state of a signature comes from its archived attempts, taken once
per family the signature occurs in.** -/
theorem stateAt_fromLedgers :
    (fromLedgers sessions events threshold).stateAt sig
      = (List.replicate ((under (fun a => a.fixSignature) sig
            (attemptsOf sessions)).map fun a => a.familyId).toFinset.card
          ((HistoryProjection.fromLedgers sessions
            events).attemptsForSignature sig)).flatten.foldl
          (SignatureState.recordAttempt
            (HistoryProjection.fromLedgers sessions events))
          SignatureState.empty := by
  rw [fromLedgers, stateAt_fromHistoryProjection,
    under_walk fun _ _ ha => fixSignature_of_mem_attempts sessions events ha,
    HistoryProjection.count_signatures]

end DedupProjection

end FromLedgers

/-! ## Counting each archived attempt once

What the count is meant to be can be said of the ledgers alone: rows with the
signature as their id that were archived unsuccessful, plus those whose pull
request was closed unmerged, plus those whose issue was closed. -/

section CountedOnce

variable (sessions : List SessionRecord) (events : List MaintEvent)

/-- The row's pull request was last seen closed without a merge. -/
def prClosedUnmerged (t : TargetRecord) : Bool :=
  t.prUrl.bind (latestKind events) = some MaintEventKind.prClosedUnmerged

/-- The row's issue was last seen closed. -/
def issueClosed (t : TargetRecord) : Bool :=
  t.issueUrl.bind (latestKind events) = some MaintEventKind.issueClosed

/-- The unsuccessful outcomes archived under a signature. -/
def archivedFailures (sig : String) : ℕ :=
  ((rowsUnder sessions sig).filter fun t =>
      unsuccessfulFromArchivedStatus t.status).length
    + ((rowsUnder sessions sig).filter (prClosedUnmerged events)).length
    + ((rowsUnder sessions sig).filter (issueClosed events)).length

/-- The row's pull request is open: seen so last, or not seen yet. -/
def prIsOpen (t : TargetRecord) : Bool :=
  t.prUrl.any fun url => match latestKind events url with
    | none | some MaintEventKind.prOpen | some MaintEventKind.prForcePushed =>
      true
    | _ => false

/-- The row's pull request is merged. -/
def prIsMerged (t : TargetRecord) : Bool :=
  t.prUrl.bind (latestKind events) = some MaintEventKind.prMerged

/-- The row's issue is open: seen so last, or not seen yet. -/
def issueIsOpen (t : TargetRecord) : Bool :=
  t.issueUrl.any fun url => match latestKind events url with
    | none | some MaintEventKind.issueOpen => true
    | _ => false

/-- Nothing under a signature is open or merged. -/
def NothingOut (sig : String) : Prop :=
  ∀ t ∈ rowsUnder sessions sig, prIsOpen events t = false
    ∧ prIsMerged events t = false ∧ issueIsOpen events t = false

/-- Every archived attempt under a signature is counted once, and repeated
failure blocks the signature when that count reaches the threshold. -/
def CountsEachAttemptOnce (sig : String) : Prop :=
  (∀ threshold, (DedupProjection.fromLedgers sessions events
      threshold).unsuccessfulAttempts sig
        = archivedFailures sessions events sig)
    ∧ ∀ threshold familyId i t, 0 < threshold → t.fixSignature = sig →
        NothingOut sessions events sig →
          (((DedupProjection.fromLedgers sessions events
              threshold).decisionFor familyId i t).map (fun d => d.reason)
            = some dedupReasonRepeatedFailure
          ↔ threshold ≤ archivedFailures sessions events sig)

/-- Rows with the signature are filed under one family, or none of them is
unsuccessful in any of the three ways. -/
def FiledOnce (sig : String) : Prop :=
  (∀ t ∈ rowsUnder sessions sig, ∀ t' ∈ rowsUnder sessions sig,
      t.familyId = t'.familyId)
    ∨ ∀ t ∈ rowsUnder sessions sig,
        unsuccessfulFromArchivedStatus t.status = false
          ∧ prClosedUnmerged events t = false ∧ issueClosed events t = false

variable {sessions events}

theorem prStateIn_fromLedgers (url : String) :
    prStateIn (HistoryProjection.fromLedgers sessions events) url
      = ((latestKind events url).map artifactStateFromKind).getD
          ArtifactState.openPr := by
  rw [prStateIn, ← HistoryProjection.kind_latestArtifactState sessions events,
    Option.map_map]
  rfl

theorem issueStateIn_fromLedgers (url : String) :
    issueStateIn (HistoryProjection.fromLedgers sessions events) url
      = ((latestKind events url).map artifactStateFromKind).getD
          ArtifactState.issueOpen := by
  rw [issueStateIn, ← HistoryProjection.kind_latestArtifactState sessions events,
    Option.map_map]
  rfl

/-- What an attempt adds to the count, read off its row. -/
def rowWeight (events : List MaintEvent) (t : TargetRecord) : ℕ :=
  (if unsuccessfulFromArchivedStatus t.status = true then 1 else 0)
    + (if prClosedUnmerged events t = true then 1 else 0)
    + (if issueClosed events t = true then 1 else 0)

theorem attemptWeight_attemptOf (s : SessionRecord) (t : TargetRecord) :
    attemptWeight (HistoryProjection.fromLedgers sessions events)
      (attemptOf s t) = rowWeight events t := by
  have hpr : (t.prUrl.map (prStateIn
        (HistoryProjection.fromLedgers sessions events))
      = some ArtifactState.closedUnmerged) ↔ prClosedUnmerged events t = true := by
    unfold prClosedUnmerged
    cases t.prUrl with
    | none => simp
    | some url =>
      simp only [Option.map_some, prStateIn_fromLedgers, Option.bind_some,
        decide_eq_true_eq, Option.some.injEq]
      rcases latestKind events url with _ | k
      · simp
      · cases k <;> simp [artifactStateFromKind]
  have hissue : (t.issueUrl.map (issueStateIn
        (HistoryProjection.fromLedgers sessions events))
      = some ArtifactState.issueClosed) ↔ issueClosed events t = true := by
    unfold issueClosed
    cases t.issueUrl with
    | none => simp
    | some url =>
      simp only [Option.map_some, issueStateIn_fromLedgers, Option.bind_some,
        decide_eq_true_eq, Option.some.injEq]
      rcases latestKind events url with _ | k
      · simp
      · cases k <;> simp [artifactStateFromKind]
  unfold attemptWeight rowWeight
  exact congrArg₂ (· + ·) (congrArg₂ (· + ·) rfl (if_congr hpr rfl rfl))
    (if_congr hissue rfl rfl)

theorem sum_rowWeight (sig : String) :
    ((rowsUnder sessions sig).map (rowWeight events)).sum
      = archivedFailures sessions events sig := by
  unfold archivedFailures rowWeight
  generalize rowsUnder sessions sig = l
  induction l with
  | nil => rfl
  | cons t l ih =>
    rw [List.map_cons, List.sum_cons, ih]
    simp only [List.filter_cons]
    split <;> split <;> split <;> simp <;> omega

namespace DedupProjection

/-- The sum of the weights of the attempts under a signature is the number of
its archived failures. -/
theorem sum_attemptWeight (sig : String) :
    (((HistoryProjection.fromLedgers sessions
        events).attemptsForSignature sig).map (attemptWeight
          (HistoryProjection.fromLedgers sessions events))).sum
      = archivedFailures sessions events sig := by
  have hperm := (HistoryProjection.attemptsForSignature_perm sessions events
    sig).map
      (attemptWeight (HistoryProjection.fromLedgers sessions events))
  rw [hperm.sum_eq, HistoryProjection.map_under_attemptsOf
    (rowWeight events) attemptWeight_attemptOf, sum_rowWeight]

/-- **The count is the number of archived failures, multiplied by the number
of families the signature occurs in.** -/
theorem unsuccessfulAttempts_eq (threshold : ℕ) (sig : String) :
    (fromLedgers sessions events threshold).unsuccessfulAttempts sig
      = ((rowsUnder sessions sig).map fun t => t.familyId).toFinset.card
        * archivedFailures sessions events sig := by
  rw [unsuccessfulAttempts, stateAt_fromLedgers,
    SignatureState.foldl_unsuccessfulAttempts,
    HistoryProjection.map_under_attemptsOf
      (fun t => t.familyId) fun _ _ => rfl]
  rw [List.map_flatten, List.map_replicate, List.sum_flatten,
    List.map_replicate, sum_attemptWeight, List.sum_replicate]
  simp [SignatureState.empty]

/-- When no row under a signature has anything out, its state knows of
nothing out. -/
theorem stateAt_nothingOut {sig : String} (threshold : ℕ)
    (hout : NothingOut sessions events sig) :
    ((fromLedgers sessions events threshold).stateAt sig).NothingOut := by
  rw [stateAt_fromLedgers]
  refine SignatureState.foldl_nothingOut ⟨rfl, rfl, rfl⟩ fun a ha => ?_
  obtain ⟨l, hl, ha⟩ := List.mem_flatten.mp ha
  rw [List.eq_of_mem_replicate hl] at ha
  have hunder := (HistoryProjection.attemptsForSignature_perm sessions events
    sig).mem_iff.mp ha
  obtain ⟨hmem, hid⟩ := mem_under.mp hunder
  obtain ⟨s, hs, hrow⟩ := List.mem_flatMap.mp hmem
  obtain ⟨t, ht, rfl⟩ := List.mem_map.mp hrow
  have hrows : t ∈ rowsUnder sessions sig :=
    List.mem_filter.mpr ⟨List.mem_flatMap.mpr ⟨s, hs, ht⟩, decide_eq_true hid⟩
  obtain ⟨hpr, hmerged, hissue⟩ := hout t hrows
  refine ⟨fun url hurl => ?_, fun url hurl => ?_⟩
  · have hurl : t.prUrl = some url := hurl
    rw [prStateIn_fromLedgers]
    simp only [prIsOpen, hurl, Option.any_some] at hpr
    simp only [prIsMerged, hurl, Option.bind_some,
      decide_eq_false_iff_not] at hmerged
    rcases hk : latestKind events url with _ | k
    · simp [hk] at hpr
    · rw [hk] at hpr hmerged
      cases k <;> simp_all [artifactStateFromKind]
  · have hurl : t.issueUrl = some url := hurl
    rw [issueStateIn_fromLedgers]
    simp only [issueIsOpen, hurl, Option.any_some] at hissue
    rcases hk : latestKind events url with _ | k
    · simp [hk] at hissue
    · rw [hk] at hissue
      cases k <;> simp_all [artifactStateFromKind]

/-- A state that knows of nothing out blocks by its count or not at all. -/
theorem blockedBy_of_nothingOut {threshold : ℕ} {st : SignatureState}
    (h : st.NothingOut) : blockedBy threshold st
      = if 0 < threshold ∧ threshold ≤ st.unsuccessfulAttempts then
          some (dedupReasonRepeatedFailure,
            s!"{st.unsuccessfulAttempts} unsuccessful archived attempt(s)")
        else none := by
  obtain ⟨hpr, hissue, hmerged⟩ := h
  rw [blockedBy, hpr, hissue, hmerged]

/-- With nothing out, what blocks a signature is its count. -/
theorem reason_decisionFor {threshold : ℕ} {familyId : String} {i : ℕ}
    {t : AnalyzerTarget} (hpos : 0 < threshold)
    (hout : NothingOut sessions events t.fixSignature) :
    ((fromLedgers sessions events threshold).decisionFor familyId i t).map
        (fun d => d.reason) = some dedupReasonRepeatedFailure
      ↔ threshold ≤ (fromLedgers sessions events
          threshold).unsuccessfulAttempts t.fixSignature := by
  rw [decisionFor_eq, blockedBy_of_nothingOut (stateAt_nothingOut threshold hout)]
  show _ ↔ threshold ≤ ((fromLedgers sessions events threshold).stateAt
    t.fixSignature).unsuccessfulAttempts
  by_cases hle : threshold ≤ ((fromLedgers sessions events threshold).stateAt
      t.fixSignature).unsuccessfulAttempts
  · rw [if_pos ⟨hpos, hle⟩]
    exact ⟨fun _ => hle, fun _ => rfl⟩
  · rw [if_neg fun h => hle h.right]
    exact ⟨fun hc => by simp at hc, fun h => absurd h hle⟩

/-- **What the attempts of a signature tell of what is out can be read off its
rows**, however often the walk visits them. -/
theorem flag_stateAt (flag : SignatureState → Bool) {q : ProjectedAttempt → Bool}
    {q' : TargetRecord → Bool}
    (hstep : ∀ st a, flag (st.recordAttempt (HistoryProjection.fromLedgers sessions events) a)
      = (flag st || q a))
    (hempty : flag SignatureState.empty = false) (hq : ∀ s t, q (attemptOf s t) = q' t)
    (threshold : ℕ) (sig : String) :
    flag ((fromLedgers sessions events threshold).stateAt sig)
      = (rowsUnder sessions sig).any q' := by
  have hperm := (HistoryProjection.attemptsForSignature_perm sessions events sig).map q
  rw [HistoryProjection.map_under_attemptsOf q' hq] at hperm
  have hany : ((HistoryProjection.fromLedgers sessions events).attemptsForSignature sig).any q
      = (rowsUnder sessions sig).any q' := by
    rw [Bool.eq_iff_iff, List.any_eq_true, List.any_eq_true]
    simpa using hperm.mem_iff (a := true)
  have hfamilies : (under (fun a => a.fixSignature) sig (attemptsOf sessions)).map
        (fun a => a.familyId)
      = (rowsUnder sessions sig).map fun t => t.familyId :=
    HistoryProjection.map_under_attemptsOf (fun t => t.familyId) (fun _ _ => rfl) sig
  rw [stateAt_fromLedgers, foldl_flag hstep, hempty, Bool.false_or, List.any_flatten,
    List.any_replicate, hany, hfamilies]
  split_ifs with hzero
  · -- a signature of no family has no rows
    have hnil : rowsUnder sessions sig = [] := by simpa using hzero
    rw [hnil, List.any_nil]
  · rfl

variable (sessions events) in
/-- **A signature has an open pull request exactly when a row of it has.** -/
theorem isSome_openPr_stateAt (threshold : ℕ) (sig : String) :
    ((fromLedgers sessions events threshold).stateAt sig).openPr.isSome
      = (rowsUnder sessions sig).any (prIsOpen events) := by
  refine flag_stateAt (fun st => st.openPr.isSome)
    (fun st a => (SignatureState.recordAttempt_out st a).left) rfl (fun s t => ?_) threshold
    sig
  show (t.prUrl.any fun url => decide (prStateIn _ url = ArtifactState.openPr))
    = prIsOpen events t
  unfold prIsOpen
  refine congrArg (fun p => t.prUrl.any p) (funext fun url => ?_)
  rw [prStateIn_fromLedgers]
  rcases latestKind events url with _ | k
  · rfl
  · cases k <;> rfl

variable (sessions events) in
/-- See `isSome_openPr_stateAt`. -/
theorem isSome_openIssue_stateAt (threshold : ℕ) (sig : String) :
    ((fromLedgers sessions events threshold).stateAt sig).openIssue.isSome
      = (rowsUnder sessions sig).any (issueIsOpen events) := by
  refine flag_stateAt (fun st => st.openIssue.isSome)
    (fun st a => (SignatureState.recordAttempt_out st a).right.left) rfl (fun s t => ?_)
    threshold sig
  show (t.issueUrl.any fun url => decide (issueStateIn _ url = ArtifactState.issueOpen))
    = issueIsOpen events t
  unfold issueIsOpen
  refine congrArg (fun p => t.issueUrl.any p) (funext fun url => ?_)
  rw [issueStateIn_fromLedgers]
  rcases latestKind events url with _ | k
  · rfl
  · cases k <;> rfl

variable (sessions events) in
/-- See `isSome_openPr_stateAt`. -/
theorem isSome_mergedPr_stateAt (threshold : ℕ) (sig : String) :
    ((fromLedgers sessions events threshold).stateAt sig).mergedPr.isSome
      = (rowsUnder sessions sig).any (prIsMerged events) := by
  refine flag_stateAt (fun st => st.mergedPr.isSome)
    (fun st a => (SignatureState.recordAttempt_out st a).right.right) rfl (fun s t => ?_)
    threshold sig
  show (t.prUrl.any fun url => decide (prStateIn _ url = ArtifactState.merged))
    = prIsMerged events t
  unfold prIsMerged
  cases t.prUrl with
  | none => rfl
  | some url =>
    rw [Option.any_some, Option.bind_some, prStateIn_fromLedgers]
    rcases latestKind events url with _ | k
    · rfl
    · cases k <;> rfl

/-- **The reason a state blocks with depends on what is out, and on the count,
not on the URLs.** -/
theorem map_fst_blockedBy (threshold : ℕ) (st : SignatureState) :
    (blockedBy threshold st).map Prod.fst
      = if st.openPr.isSome = true then some dedupReasonOpenPr
        else if st.openIssue.isSome = true then some dedupReasonOpenIssue
        else if st.mergedPr.isSome = true then some dedupReasonMerged
        else if 0 < threshold ∧ threshold ≤ st.unsuccessfulAttempts then
          some dedupReasonRepeatedFailure
        else none := by
  unfold blockedBy
  cases st.openPr with
  | some url => rfl
  | none =>
    cases st.openIssue with
    | some url => rfl
    | none =>
      cases st.mergedPr with
      | some url => rfl
      | none =>
        simp only [Option.isSome_none, Bool.false_eq_true, if_false]
        split_ifs <;> rfl

end DedupProjection

/-- There are no failures when no row is unsuccessful, and conversely. -/
theorem archivedFailures_eq_zero_iff (sig : String) :
    archivedFailures sessions events sig = 0
      ↔ ∀ t ∈ rowsUnder sessions sig,
          unsuccessfulFromArchivedStatus t.status = false
            ∧ prClosedUnmerged events t = false
            ∧ issueClosed events t = false := by
  unfold archivedFailures
  simp only [Nat.add_eq_zero_iff, List.length_eq_zero_iff,
    List.filter_eq_nil_iff, Bool.not_eq_true]
  constructor
  · rintro ⟨⟨hs, hp⟩, hi⟩ t ht
    exact ⟨hs t ht, hp t ht, hi t ht⟩
  · intro h
    exact ⟨⟨fun t ht => (h t ht).left, fun t ht => (h t ht).right.left⟩,
      fun t ht => (h t ht).right.right⟩

/-- Rows of one family are rows of at most one family. -/
theorem card_families_le_one_iff (sig : String) :
    ((rowsUnder sessions sig).map fun t => t.familyId).toFinset.card ≤ 1
      ↔ ∀ t ∈ rowsUnder sessions sig, ∀ t' ∈ rowsUnder sessions sig,
          t.familyId = t'.familyId := by
  rw [Finset.card_le_one]
  simp only [List.mem_toFinset, List.forall_mem_map]

/-- **Each archived attempt is counted once exactly when the signature is
filed under one family or has no failures**: otherwise the count is a proper
multiple of what it should be. -/
theorem countsEachAttemptOnce_iff (sessions : List SessionRecord)
    (events : List MaintEvent) (sig : String) :
    CountsEachAttemptOnce sessions events sig
      ↔ FiledOnce sessions events sig := by
  have hcount : (∀ threshold, (DedupProjection.fromLedgers sessions events
      threshold).unsuccessfulAttempts sig
        = archivedFailures sessions events sig)
      ↔ FiledOnce sessions events sig := by
    unfold FiledOnce
    rw [← card_families_le_one_iff, ← archivedFailures_eq_zero_iff]
    simp only [DedupProjection.unsuccessfulAttempts_eq, forall_const]
    set n := ((rowsUnder sessions sig).map fun t => t.familyId).toFinset.card
      with hn
    constructor
    · intro h
      rcases Nat.eq_zero_or_pos (archivedFailures sessions events sig) with
        hzero | hpos
      · exact Or.inr hzero
      · exact Or.inl (Nat.eq_of_mul_eq_mul_right hpos
          (h.trans (Nat.one_mul _).symm)).le
    · rintro (hle | hzero)
      · rcases Nat.le_one_iff_eq_zero_or_eq_one.mp hle with h₀ | h₁
        · -- no family means no row, and no row fails
          have hrows : rowsUnder sessions sig = [] := by
            simpa [hn] using h₀
          have hzero : archivedFailures sessions events sig = 0 :=
            (archivedFailures_eq_zero_iff sig).mpr (by simp [hrows])
          rw [hzero, Nat.mul_zero]
        · rw [h₁, Nat.one_mul]
      · rw [hzero, Nat.mul_zero]
  refine ⟨fun h => hcount.mp h.left, fun h => ⟨hcount.mpr h, ?_⟩⟩
  rintro threshold familyId i t hpos rfl hout
  rw [DedupProjection.reason_decisionFor hpos hout, hcount.mpr h threshold]

/-- A session whose optimizer gave up on one target. -/
def abortedSession (id familyId sig : String) : SessionRecord where
  id := id
  artifactBranch := "session/" ++ id
  artifactSha := "0123456"
  artifactUrl := none
  startedAt := "2026-06-14T00:00:00Z"
  finishedAt := "2026-06-14T01:00:00Z"
  status := SessionStatus.succeeded
  failurePhase := none
  failureReason := none
  sbagentVersion := "0.1.0"
  sbagentGitSha := none
  range := ⟨none, none, none, none, "mainnet"⟩
  baselineRunIds := [1, 2]
  phaseDurationsSecs := ∅
  targets := [{
    id := sig
    familyId := familyId
    bucket := "block_processing"
    deliveryMode := DeliveryMode.normalPr
    status := TargetStatus.aborted
    statusStage := some TargetStatusStage.optimizer
    reasonCode := none
    headSha := none
    prUrl := none
    issueUrl := none
    bench := none }]
  sourceUrl := none
  sourceBranch := none
  sourceSha := none
  sourceFetchedAt := none

/-- **One attempt in each of two families is counted four times**: each
family's listing of the signature counts both. -/
theorem not_countsEachAttemptOnce_of_two_families :
    ¬ CountsEachAttemptOnce
        [abortedSession "20260613" "fam-a" "fix", abortedSession "20260614"
          "fam-b" "fix"] [] "fix" := by
  intro h
  have hcount := h.left 3
  revert hcount
  decide +kernel

end CountedOnce
