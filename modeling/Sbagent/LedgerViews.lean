import Sbagent.MaintainRounds

/-!
# Two readers of one ledger

What became of an artifact is asked twice. Whoever records new events folds
the ledger as it stands, and an artifact is over when the last event in the
file is terminal. Whoever reads the history sorts the events by the time of
observation first. The two agree as long as the file is in that order, with
one exception: events about one URL at one time are sorted by the field that
carries the URL, so one that takes it for an issue comes before one that takes
it for a pull request, wherever they stand in the file.

A ledger that was merged from several clones is not in any order. Of the
history that does not matter: what blocks a signature, which pull requests are
open and what is known of an artifact last are the same for the same lines,
however they stand – if no two events about one artifact have one time.
-/

open Fallible Keyed

/-! ## The writer and the reader -/

/-- The events about each artifact stand in the order in which they were
observed. -/
def ObservedInOrder (events : List MaintEvent) : Prop :=
  ∀ url, (about url events).Pairwise fun a b =>
    (compare a.observedAt b.observedAt).isLE = true

/-- Events about one artifact at one time carry its URL in the same field. -/
def SameFieldOnTies (events : List MaintEvent) : Prop :=
  ∀ a ∈ events, ∀ b ∈ events, a.url = b.url → a.observedAt = b.observedAt →
    a.prUrl = b.prUrl ∧ a.issueUrl = b.issueUrl

section Views

variable {sessions : List SessionRecord} {events : List MaintEvent}

/-- Events that were observed in order are in the order of the reader. -/
theorem pairwise_compareObserved (horder : ObservedInOrder events)
    (hties : SameFieldOnTies events) (url : String) :
    (about url events).Pairwise fun a b => (compareObserved a b).isLE = true := by
  refine (horder url).imp_of_mem fun {a b} ha hb hle => ?_
  obtain ⟨hae, haurl⟩ := List.mem_filter.mp ha
  obtain ⟨hbe, hburl⟩ := List.mem_filter.mp hb
  unfold compareObserved
  cases hcmp : compare a.observedAt b.observedAt with
  | lt => rfl
  | gt =>
    rw [hcmp] at hle
    cases hle
  | eq =>
    obtain ⟨hpr, hissue⟩ := hties a hae b hbe
      ((of_decide_eq_true haurl).trans (of_decide_eq_true hburl).symm)
      (Std.LawfulEqOrd.eq_of_compare hcmp)
    rw [hpr, hissue, Std.ReflOrd.compare_self, Std.ReflOrd.compare_self]
    rfl

/-- **The reader's last event about an artifact is the writer's.** -/
theorem latestEvent_eq (horder : ObservedInOrder events)
    (hties : SameFieldOnTies events) (url : String) :
    latestEvent events url = (about url events).getLast? := by
  unfold latestEvent
  rw [filter_sortBy_of_pairwise (pairwise_compareObserved horder hties url)]
  rfl

theorem lastUpdatedAt_after (p : ArtifactProjection) (e : MaintEvent) :
    (p.after e).lastUpdatedAt = some e.newState := by
  unfold ArtifactProjection.after ArtifactProjection.afterKind
  cases e.kind <;> cases e.headSha <;> rfl

variable (events) in
/-- What the writer knows of an artifact, from the last event about it. -/
theorem writer_eq (url : String) :
    isTerminalIn (projectEvents events) url
        = (((about url events).getLast?).map fun e => e.kind.isTerminal).getD false
      ∧ (projectEvents events)[url]?.bind (fun p => p.lastUpdatedAt)
        = ((about url events).getLast?).map fun e => e.newState := by
  unfold isTerminalIn
  rw [getElem?_projectEvents]
  rcases List.eq_nil_or_concat (about url events) with hnil | ⟨es, e, hconcat⟩
  · rw [hnil]
    exact ⟨rfl, rfl⟩
  · rw [hconcat, List.concat_eq_append, List.foldl_append, List.getLast?_concat]
    exact ⟨terminal_after _, lastUpdatedAt_after _ e⟩

end Views

/-! ## The early test -/

section EarlyTest

variable {m : MaintainReconciler} {sessions : List SessionRecord}
  {events : List MaintEvent} {limit : ℕ} {candidates : List ArtifactCandidate}

theorem needsGithubQueries_eq
    (hcands : candidatesFromSessions sessions = Except.ok candidates) :
    needsGithubQueries sessions events
      = Except.ok (decide (alive (projectEvents events) candidates ≠ [])) := by
  unfold needsGithubQueries
  rw [hcands]
  show Except.ok _ = Except.ok _
  rw [Except.ok.injEq, Bool.eq_iff_iff, List.any_eq_true, decide_eq_true_iff, alive, ne_eq,
    List.filter_eq_nil_iff]
  push Not
  rfl

/-- With a positive limit, the first candidate that is not over is asked
about. -/
theorem reconcile_asks_iff (hlimit : 0 < limit)
    (hcands : candidatesFromSessions sessions = Except.ok candidates) :
    (m.reconcile sessions events limit).1 = []
      ↔ alive (projectEvents events) candidates = [] := by
  rw [MaintainReconciler.reconcile_eq hcands]
  rcases MaintainReconciler.reconcileFrom_cases m (projectEvents events) ⟨[], [], 0⟩
    (Nat.zero_le limit) candidates with ⟨pre, d, post, e, rfl, hreach, hr⟩
    | ⟨pre, d, post, rfl, hreach, hlow, hr⟩ | ⟨pre, rest, rfl, -, hall, hstop, hr⟩
  · rw [hr, alive_append, alive_cons_of_not hreach.notTerminal]
    simp
  · rw [hr, alive_append, alive_cons_of_not hreach.notTerminal]
    simp
  · rw [hr, alive_append, List.append_eq_nil_iff]
    refine ⟨fun hnil => ⟨hnil, ?_⟩, fun h => h.left⟩
    rcases hstop with hrest | hle
    · exact hrest
    · rw [show alive (projectEvents events) pre = [] from hnil] at hle
      exact absurd hle (Nat.not_le_of_lt (by simpa using hlimit))

end EarlyTest

/-- **The writer and the reader of the maintain ledger agree** on a ledger whose
events about each artifact stand in the order in which they were observed,
and carry its URL in the same field when they were observed at one time: an
artifact is over for the one exactly when it is for the other, and both have
the same last event in mind. And whatever the ledger, the early test says that
GitHub need not be asked exactly when a call with a positive limit asks
nothing and succeeds, and fails as the call does before it asks. -/
theorem views_agree (events : List MaintEvent) (sessions : List SessionRecord) :
    (ObservedInOrder events → SameFieldOnTies events → ∀ url,
      (isTerminalIn (projectEvents events) url = true
        ↔ ∃ s, (HistoryProjection.fromLedgers sessions events).latestArtifactState url
          = some s ∧ s.kind.isTerminal = true)
      ∧ ((about url events).getLast?.map fun e => e.kind)
        = ((HistoryProjection.fromLedgers sessions events).latestArtifactState url).map
            (fun s => s.kind)
      ∧ ((projectEvents events)[url]?.bind fun p => p.lastUpdatedAt)
        = ((HistoryProjection.fromLedgers sessions events).latestArtifactState url).map
            fun s => s.newState)
    ∧ ∀ (m : MaintainReconciler) (limit : ℕ), 0 < limit →
      (needsGithubQueries sessions events = Except.ok false
        ↔ (m.reconcile sessions events limit).1 = []
          ∧ ∃ o, (m.reconcile sessions events limit).2 = Except.ok o)
      ∧ ∀ msg, needsGithubQueries sessions events = Except.error msg
        ↔ (m.reconcile sessions events limit).1 = []
          ∧ (m.reconcile sessions events limit).2 = Except.error msg := by
  refine ⟨fun horder hties url => ?_, fun m limit hlimit => ?_⟩
  · obtain ⟨hterminal, hupdated⟩ := writer_eq events url
    rw [hterminal, hupdated, HistoryProjection.latestArtifactState_eq,
      latestEvent_eq horder hties]
    cases (about url events).getLast? with
    | none => exact ⟨by simp, rfl, rfl⟩
    | some e => exact ⟨by simp, rfl, rfl⟩
  · cases hcands : candidatesFromSessions sessions with
    | error msg =>
      have hneeds : needsGithubQueries sessions events = Except.error msg := by
        unfold needsGithubQueries
        rw [hcands]
        rfl
      have hrec : m.reconcile sessions events limit = ([], Except.error msg) := by
        unfold MaintainReconciler.reconcile
        rw [hcands]
      rw [hneeds, hrec]
      simp
    | ok candidates =>
      rw [needsGithubQueries_eq hcands, reconcile_asks_iff hlimit hcands]
      by_cases halive : alive (projectEvents events) candidates = []
      · rw [MaintainReconciler.reconcile_eq hcands,
          MaintainReconciler.reconcileFrom_of_alive_nil halive]
        simp [halive]
      · simp [halive]

theorem observedInOrder_of_pairwise {events : List MaintEvent}
    (h : events.Pairwise fun a b => (compare a.observedAt b.observedAt).isLE = true) :
    ObservedInOrder events := fun _ => h.sublist List.filter_sublist

/-- A pull request was opened. -/
def openedEvent (url observedAt : String) : MaintEvent :=
  { MaintainReconciler.mergedEvent url with
    kind := MaintEventKind.prOpen, observedAt := observedAt, priorState := none,
    newState := "open" }

/-- An issue was closed. -/
def issueClosedEvent (url observedAt : String) : MaintEvent :=
  { MaintainReconciler.mergedEvent url with
    kind := MaintEventKind.issueClosed, observedAt := observedAt, prUrl := none,
    issueUrl := some url, newState := "closed", headSha := none }

/-- A pull request that was opened and merged, -/
def mergedEvents : List MaintEvent :=
  [openedEvent "https://github.com/o/r/pull/1" "2026-06-13T00:00:00Z",
    MaintainReconciler.mergedEvent "https://github.com/o/r/pull/1"]

/-- and the session that published it. -/
def mergedSessions : List SessionRecord :=
  [MaintainReconciler.publishedSession "s1" "https://github.com/o/r/pull/1"]

/-- It is merged for the writer and the reader, and there is nothing to ask GitHub. -/
theorem views_agree_merged :
    ((about "https://github.com/o/r/pull/1" mergedEvents).getLast?.map fun e => e.kind)
        = ((HistoryProjection.fromLedgers mergedSessions mergedEvents).latestArtifactState
            "https://github.com/o/r/pull/1").map (fun s => s.kind)
      ∧ (needsGithubQueries mergedSessions mergedEvents = Except.ok false
        ↔ ((MaintainReconciler.openGithub 5000).reconcile mergedSessions mergedEvents 5).1 = []
          ∧ ∃ o, ((MaintainReconciler.openGithub 5000).reconcile mergedSessions mergedEvents
            5).2 = Except.ok o) :=
  ⟨((views_agree mergedEvents mergedSessions).left
      (observedInOrder_of_pairwise (by decide +kernel))
      (show SameFieldOnTies _ by unfold SameFieldOnTies; decide +kernel) _).right.left,
    ((views_agree mergedEvents mergedSessions).right _ 5 (by decide)).left⟩

/-- One URL, opened as a pull request and closed as an issue at one time. -/
def tiedEvents : List MaintEvent :=
  [openedEvent "https://github.com/o/r/pull/1" "2026-06-14T00:00:00Z",
    issueClosedEvent "https://github.com/o/r/pull/1" "2026-06-14T00:00:00Z"]

/-- The tied events are each valid, and the artifact is over for the writer and
open for the reader. -/
theorem not_views_agree_of_tie :
    (∀ e ∈ tiedEvents, e.validateModel = Except.ok ()) ∧ ObservedInOrder tiedEvents
      ∧ isTerminalIn (projectEvents tiedEvents) "https://github.com/o/r/pull/1" = true
      ∧ ((HistoryProjection.fromLedgers [] tiedEvents).latestArtifactState
          "https://github.com/o/r/pull/1").map (fun s => s.kind)
        = some MaintEventKind.prOpen :=
  ⟨by decide +kernel, observedInOrder_of_pairwise (by decide +kernel), by decide +kernel,
    by decide +kernel⟩

/-! ## Lines in any order -/

/-- No two events about one artifact have one time. -/
def DistinctTimes (events : List MaintEvent) : Prop :=
  ∀ url, ((about url events).map fun e => e.observedAt).Nodup

theorem distinctTimes_of_nodup {events : List MaintEvent}
    (h : (events.map fun e => e.observedAt).Nodup) : DistinctTimes events :=
  fun _ => h.sublist (List.filter_sublist.map _)

/-- The pull requests that count as open: those of any row, but for those last
seen merged or closed. -/
def openPrUrls (h : HistoryProjection) : Std.ExtTreeSet String :=
  (Std.ExtTreeSet.ofList
      (h.sessions.flatMap fun session => session.targets.filterMap fun t => t.prUrl)
      compare).filter fun url =>
    !((h.latestArtifactState url).any fun s =>
      s.kind = MaintEventKind.prMerged || s.kind = MaintEventKind.prClosedUnmerged)

section Order

variable {sessions sessions' : List SessionRecord} {events events' : List MaintEvent}

/-- The last event about an artifact does not depend on the order of the
lines. -/
theorem latestEvent_eq_of_perm (hevents : events.Perm events')
    (hdistinct : DistinctTimes events) : latestEvent events = latestEvent events' := by
  funext url
  unfold latestEvent
  rw [filter_sortBy_eq_of_perm hevents fun a ha b hb haurl hburl hcmp => ?_]
  -- events that are ties have one time, so they are one event
  have htime : a.observedAt = b.observedAt := by
    have hcmp := (Ordering.then_eq_eq.mp hcmp).left
    exact Std.LawfulEqOrd.eq_of_compare hcmp
  exact List.inj_on_of_nodup_map (hdistinct url) (List.mem_filter.mpr ⟨ha, haurl⟩)
    (List.mem_filter.mpr ⟨hb, hburl⟩) htime

theorem latestKind_eq_of_perm (hevents : events.Perm events')
    (hdistinct : DistinctTimes events) : latestKind events = latestKind events' := by
  funext url
  unfold latestKind
  rw [latestEvent_eq_of_perm hevents hdistinct]

theorem rowsUnder_perm (hsessions : sessions.Perm sessions') (sig : String) :
    (rowsUnder sessions sig).Perm (rowsUnder sessions' sig) :=
  (hsessions.flatMap_right fun session : SessionRecord => session.targets).filter _

/-- What counts as a failure does not depend on the order of the lines. -/
theorem archivedFailures_eq_of_perm (hsessions : sessions.Perm sessions')
    (hkind : latestKind events = latestKind events') (sig : String) :
    archivedFailures sessions events sig = archivedFailures sessions' events' sig := by
  have hpr : prClosedUnmerged events = prClosedUnmerged events' := by
    funext t
    unfold prClosedUnmerged
    rw [hkind]
  have hissue : issueClosed events = issueClosed events' := by
    funext t
    unfold issueClosed
    rw [hkind]
  have hperm := rowsUnder_perm hsessions sig
  unfold archivedFailures
  rw [(hperm.filter _).length_eq, (hperm.filter (prClosedUnmerged events)).length_eq,
    (hperm.filter (issueClosed events)).length_eq, hpr, hissue]

/-- **What blocks a signature does not depend on the order of the lines.** -/
theorem reason_eq_of_perm (hsessions : sessions.Perm sessions')
    (hkind : latestKind events = latestKind events') (threshold : ℕ) (sig : String) :
    (DedupProjection.blockedBy threshold
        ((DedupProjection.fromLedgers sessions events threshold).stateAt sig)).map Prod.fst
      = (DedupProjection.blockedBy threshold
        ((DedupProjection.fromLedgers sessions' events' threshold).stateAt sig)).map
          Prod.fst := by
  have hcount : ((DedupProjection.fromLedgers sessions events threshold).stateAt
        sig).unsuccessfulAttempts
      = ((DedupProjection.fromLedgers sessions' events' threshold).stateAt
        sig).unsuccessfulAttempts := by
    show (DedupProjection.fromLedgers sessions events threshold).unsuccessfulAttempts sig
      = (DedupProjection.fromLedgers sessions' events' threshold).unsuccessfulAttempts sig
    rw [DedupProjection.unsuccessfulAttempts_eq, DedupProjection.unsuccessfulAttempts_eq,
      archivedFailures_eq_of_perm hsessions hkind,
      List.toFinset_eq_of_perm _ _ ((rowsUnder_perm hsessions sig).map fun t => t.familyId)]
  have hany : ∀ q : TargetRecord → Bool,
      (rowsUnder sessions sig).any q = (rowsUnder sessions' sig).any q := by
    intro q
    rw [Bool.eq_iff_iff, List.any_eq_true, List.any_eq_true]
    simp only [(rowsUnder_perm hsessions sig).mem_iff]
  have hpr : prIsOpen events = prIsOpen events' := by
    funext t
    unfold prIsOpen
    rw [hkind]
  have hissue : issueIsOpen events = issueIsOpen events' := by
    funext t
    unfold issueIsOpen
    rw [hkind]
  have hmerged : prIsMerged events = prIsMerged events' := by
    funext t
    unfold prIsMerged
    rw [hkind]
  rw [DedupProjection.map_fst_blockedBy, DedupProjection.map_fst_blockedBy, hcount,
    DedupProjection.isSome_openPr_stateAt, DedupProjection.isSome_openPr_stateAt,
    DedupProjection.isSome_openIssue_stateAt, DedupProjection.isSome_openIssue_stateAt,
    DedupProjection.isSome_mergedPr_stateAt, DedupProjection.isSome_mergedPr_stateAt,
    hany, hany, hany, hpr, hissue, hmerged]

/-- Which pull requests count as open does not depend on the order of the
lines. -/
theorem openPrUrls_eq_of_perm (hsessions : sessions.Perm sessions')
    (hlatest : latestEvent events = latestEvent events') :
    openPrUrls (HistoryProjection.fromLedgers sessions events)
      = openPrUrls (HistoryProjection.fromLedgers sessions' events') := by
  have hset : Std.ExtTreeSet.ofList
        (sessions.flatMap fun session => session.targets.filterMap fun t => t.prUrl) compare
      = Std.ExtTreeSet.ofList
        (sessions'.flatMap fun session => session.targets.filterMap fun t => t.prUrl)
          compare := by
    ext url
    rw [Std.ExtTreeSet.mem_ofList, Std.ExtTreeSet.mem_ofList, List.contains_iff_mem,
      List.contains_iff_mem, (hsessions.flatMap_right _).mem_iff]
  unfold openPrUrls
  show Std.ExtTreeSet.filter _ (Std.ExtTreeSet.ofList (sessions.flatMap _) compare)
    = Std.ExtTreeSet.filter _ (Std.ExtTreeSet.ofList (sessions'.flatMap _) compare)
  rw [hset]
  congr 1
  funext url
  rw [HistoryProjection.latestArtifactState_eq, HistoryProjection.latestArtifactState_eq,
    hlatest]

end Order

/-- **The history does not depend on the order of the lines**, as long as no
two events about one artifact have one time: whether a signature is blocked
and for what reason, which pull requests count as open, and what an artifact
was last seen as are the same. -/
theorem history_order_independent {sessions sessions' : List SessionRecord}
    {events events' : List MaintEvent} (hsessions : sessions.Perm sessions')
    (hevents : events.Perm events') (hdistinct : DistinctTimes events) :
    (∀ threshold familyId i t,
      ((DedupProjection.fromLedgers sessions events threshold).decisionFor familyId i
          t).map (fun d => d.reason)
        = ((DedupProjection.fromLedgers sessions' events' threshold).decisionFor familyId i
          t).map fun d => d.reason)
      ∧ openPrUrls (HistoryProjection.fromLedgers sessions events)
        = openPrUrls (HistoryProjection.fromLedgers sessions' events')
      ∧ ∀ url, ((HistoryProjection.fromLedgers sessions events).latestArtifactState
            url).map (fun s => s.kind)
          = ((HistoryProjection.fromLedgers sessions' events').latestArtifactState
            url).map fun s => s.kind := by
  have hlatest := latestEvent_eq_of_perm hevents hdistinct
  have hkind := latestKind_eq_of_perm hevents hdistinct
  refine ⟨fun threshold familyId i t => ?_, openPrUrls_eq_of_perm hsessions hlatest,
    fun url => ?_⟩
  · have hreason := reason_eq_of_perm hsessions hkind threshold t.fixSignature
    rw [DedupProjection.decisionFor_eq, DedupProjection.decisionFor_eq, Option.map_map,
      Option.map_map]
    exact hreason
  · rw [HistoryProjection.kind_latestArtifactState,
      HistoryProjection.kind_latestArtifactState, hkind]

/-- Two rows, and the opening and the merge of one of them, in either order of
the lines. -/
theorem history_order_independent_merged :
    openPrUrls (HistoryProjection.fromLedgers
        [MaintainReconciler.publishedSession "s1" "https://github.com/o/r/pull/1",
          MaintainReconciler.publishedSession "s2" "https://github.com/o/r/pull/2"]
        [openedEvent "https://github.com/o/r/pull/1" "2026-06-13T00:00:00Z",
          MaintainReconciler.mergedEvent "https://github.com/o/r/pull/1"])
      = openPrUrls (HistoryProjection.fromLedgers
        [MaintainReconciler.publishedSession "s2" "https://github.com/o/r/pull/2",
          MaintainReconciler.publishedSession "s1" "https://github.com/o/r/pull/1"]
        [MaintainReconciler.mergedEvent "https://github.com/o/r/pull/1",
          openedEvent "https://github.com/o/r/pull/1" "2026-06-13T00:00:00Z"]) :=
  (history_order_independent (List.Perm.swap _ _ []) (List.Perm.swap _ _ [])
    (distinctTimes_of_nodup (by decide +kernel))).right.left
