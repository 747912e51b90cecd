import Sbagent.Reconcile

/-!
# Maintaining over and over

Every call appends what it finds to the ledger that the next one reads. While
GitHub stays as it is, this comes to an end: an event changes what is known of
its artifact so that, of the news there can still be, only what ranks higher
is left (`News.rank_lt`). A pull request that is open is first seen, or seen
to have moved; then its branch is deleted; then nothing happens to it any
more. One that is over is reported once, and an issue is reported once.

So no two events about one artifact have the same kind, and after three calls
there is nothing left to report – if each call comes to ask about every
artifact. A limit makes it take longer, since a call spends its reads on the
artifacts at the front as long as those are not over, but not forever.

What is over stays over as long as the last event says so. The ledger is read
in file order, and an event behind a terminal one reopens its artifact.
-/

open Fallible Keyed
open Std (ExtTreeMap)

/-! ## What is known, as a fold -/

/-- One event more about an artifact. -/
def learn (p : Option ArtifactProjection) (e : MaintEvent) : Option ArtifactProjection :=
  some ((p.getD ArtifactProjection.default).after e)

/-- The events about an artifact. -/
def about (url : String) (events : List MaintEvent) : List MaintEvent :=
  events.filter fun e => e.url = some url

section Learn

variable {events news : List MaintEvent} {url : String}

theorem foldl_learn_some (es : List MaintEvent) (p : ArtifactProjection) :
    es.foldl learn (some p) = some (es.foldl ArtifactProjection.after p) := by
  induction es generalizing p with
  | nil => rfl
  | cons e es ih =>
    rw [List.foldl_cons, List.foldl_cons]
    exact ih (p.after e)

theorem under_eventsByUrl :
    (under Prod.fst url (eventsByUrl events)).map Prod.snd = about url events := by
  unfold about eventsByUrl under
  induction events with
  | nil => rfl
  | cons e events ih =>
    cases hu : e.url with
    | none =>
      rw [List.filterMap_cons_none (by rw [hu]; rfl), ih]
      simp [hu]
    | some url' =>
      rw [List.filterMap_cons_some (by rw [hu]; rfl)]
      by_cases hurl : url' = url
      · simp [hu, hurl, ih]
      · simp [hu, hurl, ih]

/-- **What is known of an artifact is learned from the events about it, in file
order.** -/
theorem getElem?_projectEvents :
    (projectEvents events)[url]? = (about url events).foldl learn none := by
  unfold projectEvents
  rw [getElem?_accumulate, ← under_eventsByUrl]
  split_ifs with hmem
  · cases hunder : under Prod.fst url (eventsByUrl events) with
    | nil => exact absurd hmem (under_eq_nil_iff.mp hunder)
    | cons x xs =>
      rw [List.map_cons, List.foldl_cons, List.foldl_cons]
      show _ = (xs.map Prod.snd).foldl learn (some _)
      rw [foldl_learn_some, List.foldl_map]
      rfl
  · rw [under_eq_nil_iff.mpr hmem]
    rfl

theorem about_append : about url (events ++ news) = about url events ++ about url news :=
  List.filter_append events news

/-- What is known after more events. -/
theorem getElem?_projectEvents_append :
    (projectEvents (events ++ news))[url]?
      = (about url news).foldl learn (projectEvents events)[url]? := by
  rw [getElem?_projectEvents, getElem?_projectEvents, about_append, List.foldl_append]

/-- Events about other artifacts change nothing. -/
theorem getElem?_projectEvents_of_about_nil (h : about url news = []) :
    (projectEvents (events ++ news))[url]? = (projectEvents events)[url]? := by
  rw [getElem?_projectEvents_append, h]
  rfl

end Learn

/-! ## News that is left -/

/-- What GitHub says of every artifact. -/
structure GhStates where
  pr : ArtifactRef → PrState
  issue : ArtifactRef → IssueLifecycleState

/-- The news about a candidate, given what is known of it. -/
inductive News (S : GhStates) (c : ArtifactCandidate) :
    Option ArtifactProjection → MaintEvent → Prop where
  | pr {p : Option ArtifactProjection} {e : MaintEvent} (hkind : c.kind = ArtifactKind.pr)
    (h : PrNews c (S.pr c.ref) p e) : News S c p e
  | issue {p : Option ArtifactProjection} {e : MaintEvent}
    (hkind : c.kind = ArtifactKind.issue) (h : IssueNews c (S.issue c.ref) p e) :
    News S c p e

/-- Where the news of a kind stands: of two that follow each other, the second
ranks higher. -/
def MaintEventKind.rank : MaintEventKind → ℕ
  | prOpen | prForcePushed | issueOpen | issueClosed => 0
  | prBranchDeleted => 1
  | prStale | prMerged | prClosedUnmerged => 2

/-- How many ranks there are. -/
def ArtifactKind.ranks : ArtifactKind → ℕ
  | pr => 3
  | issue => 1

section Rank

variable {S : GhStates} {c : ArtifactCandidate} {p : Option ArtifactProjection}
  {e e' : MaintEvent}

/-- Once an event has recorded the head, it has not moved. -/
theorem headMoved_after {p : ArtifactProjection} {state : PrState}
    (h : e.headSha = state.headSha) : headMoved (p.after e) state = false := by
  unfold headMoved ArtifactProjection.after
  cases hsha : state.headSha with
  | none => rfl
  | some sha =>
    rw [hsha] at h
    simp [h]

theorem terminal_after (p : ArtifactProjection) :
    (p.after e).terminal = e.kind.isTerminal := by
  unfold ArtifactProjection.after ArtifactProjection.afterKind
  cases e.kind <;> cases e.headSha <;> rfl

/-- After a branch was reported deleted, or a pull request stale, that is
known. -/
theorem headRefDeletedEmitted_after (p : ArtifactProjection)
    (h : e.kind = MaintEventKind.prBranchDeleted) :
    (p.after e).headRefDeletedEmitted = true := by
  unfold ArtifactProjection.after ArtifactProjection.afterKind
  rw [h]
  cases e.headSha <;> rfl

/-- See `headRefDeletedEmitted_after`. -/
theorem staleEmitted_after (p : ArtifactProjection) (h : e.kind = MaintEventKind.prStale) :
    (p.after e).staleEmitted = true
      ∧ (p.after e).headRefDeletedEmitted = p.headRefDeletedEmitted := by
  unfold ArtifactProjection.after ArtifactProjection.afterKind
  rw [h]
  cases e.headSha <;> exact ⟨rfl, rfl⟩

/-- What news is left about a pull request that is open, and whose head has not
moved: a deleted branch, or that it is stale. -/
theorem PrNews.of_settled {state : PrState} {q : ArtifactProjection}
    (hmerged : state.isMerged = false) (hclosed : state.isClosedUnmerged = false)
    (hmoved : headMoved q state = false) (h : PrNews c state (some q) e) :
    (e.kind = MaintEventKind.prBranchDeleted ∧ state.headRefDeleted = true
        ∧ q.headRefDeletedEmitted = false)
      ∨ (e.kind = MaintEventKind.prStale ∧ q.staleEmitted = false) := by
  cases h with
  | merged _ hmerged' =>
    rw [hmerged] at hmerged'
    cases hmerged'
  | closed _ _ hclosed' =>
    rw [hclosed] at hclosed'
    cases hclosed'
  | forcePushed _ _ _ hmoved' =>
    rw [hmoved] at hmoved'
    cases hmoved'
  | branchDeleted _ _ _ hdeleted => exact Or.inl ⟨rfl, hdeleted⟩
  | stale _ _ _ _ hnew => exact Or.inr ⟨rfl, hnew⟩

/-- **News about a pull request is followed by news that ranks higher**, if
the first has not closed it. -/
theorem PrNews.rank_lt {state : PrState} (h : PrNews c state p e)
    (hopen : e.kind.isTerminal = false) (h' : PrNews c state (learn p e) e') :
    e.kind.rank < e'.kind.rank := by
  have hmoved : headMoved ((p.getD ArtifactProjection.default).after e) state = false := by
    refine headMoved_after ?_
    cases h <;> rfl
  cases h with
  | merged => cases hopen
  | closed => cases hopen
  | opened hmerged hclosed =>
    rcases h'.of_settled hmerged hclosed hmoved with ⟨hk, -⟩ | ⟨hk, -⟩
    · rw [hk]
      exact Nat.zero_lt_one
    · rw [hk]
      exact Nat.zero_lt_two
  | forcePushed q hmerged hclosed =>
    rcases h'.of_settled hmerged hclosed hmoved with ⟨hk, -⟩ | ⟨hk, -⟩
    · rw [hk]
      exact Nat.zero_lt_one
    · rw [hk]
      exact Nat.zero_lt_two
  | branchDeleted q hmerged hclosed =>
    rcases h'.of_settled hmerged hclosed hmoved with ⟨-, -, hnot⟩ | ⟨hk, -⟩
    · rw [headRefDeletedEmitted_after _ rfl] at hnot
      cases hnot
    · rw [hk]
      exact Nat.one_lt_two
  | stale q hmerged hclosed hdeleted =>
    rcases h'.of_settled hmerged hclosed hmoved with ⟨-, hdel, hnot⟩ | ⟨-, hnot⟩
    · rw [(staleEmitted_after _ rfl).right] at hnot
      exact absurd ⟨hdel, hnot⟩ hdeleted
    · rw [(staleEmitted_after _ rfl).left] at hnot
      cases hnot

/-- **Of the news about an artifact that can follow, only what ranks higher is
left.** -/
theorem News.rank_lt (h : News S c p e) (hopen : e.kind.isTerminal = false)
    (h' : News S c (learn p e) e') : e.kind.rank < e'.kind.rank := by
  cases h with
  | pr hkind h =>
    cases h' with
    | pr _ h' => exact h.rank_lt hopen h'
    | issue hkind' _ =>
      rw [hkind] at hkind'
      cases hkind'
  | issue hkind h =>
    cases h' with
    | pr hkind' _ =>
      rw [hkind] at hkind'
      cases hkind'
    | issue _ h' =>
      cases h with
      | closed => cases hopen
      | opened hclosed =>
        cases h' with
        | closed _ hclosed' =>
          rw [hclosed] at hclosed'
          cases hclosed'

/-- The news about an artifact has one of its ranks. -/
theorem News.rank_lt_ranks (h : News S c p e) : e.kind.rank < c.kind.ranks := by
  cases h with
  | pr hkind h =>
    rw [hkind]
    cases h <;> simp [eventForCandidate, MaintEventKind.rank, ArtifactKind.ranks]
  | issue hkind h =>
    rw [hkind]
    cases h <;> simp [eventForCandidate, MaintEventKind.rank, ArtifactKind.ranks]

end Rank

/-! ## Rounds -/

/-- A call. -/
structure Round where
  reconciler : MaintainReconciler
  sessions : List SessionRecord
  limit : ℕ

/-- What a call adds to the ledger: its events, if it succeeds. -/
def Round.news (r : Round) (events : List MaintEvent) : List MaintEvent :=
  match (r.reconciler.reconcile r.sessions events r.limit).2 with
  | Except.ok o => o.newEvents
  | Except.error _ => []

/-- What calls that follow each other add to the ledger. -/
def emissions : List MaintEvent → List Round → List MaintEvent
  | _, [] => []
  | events, r :: rs => r.news events ++ emissions (events ++ r.news events) rs

/-- No URL stands in two rows. -/
def DistinctCandidates (sessions : List SessionRecord) : Prop :=
  ∀ candidates, candidatesFromSessions sessions = Except.ok candidates →
    (candidates.map fun c => c.url).Nodup

/-- GitHub is in a fixed state: a read may fail, and be answered with any rate
limit, but if it is answered, then with that state. -/
def MaintainReconciler.Reads (m : MaintainReconciler) (S : GhStates) : Prop :=
  (∀ k owner repo number read,
      m.gh.queryPrState k owner repo number = Except.ok read →
        read.state = S.pr ⟨owner, repo, number⟩)
    ∧ ∀ k owner repo number read,
      m.gh.queryIssueState k owner repo number = Except.ok read →
        read.state = S.issue ⟨owner, repo, number⟩

/-- What a read of an artifact tells is the same in two calls: a failure, that
few requests are left, or what is new, given what is known. -/
def MaintainReconciler.SeesAs (m m' : MaintainReconciler) : Prop :=
  ∀ projections k i c, m.observe projections k c = m'.observe projections i c

/-- A call over some rows with some limit, in a fixed state, that sees GitHub in
some way. -/
structure Round.Repeats (r : Round) (sessions : List SessionRecord) (limit : ℕ)
    (S : GhStates) (m : MaintainReconciler) : Prop where
  sessions : r.sessions = sessions
  limit : r.limit = limit
  reads : r.reconciler.Reads S
  sees : r.reconciler.SeesAs m

section Rounds

open MaintainReconciler

variable {m : MaintainReconciler} {S : GhStates} {r : Round} {rs rs' : List Round}
  {events : List MaintEvent} {candidates : List ArtifactCandidate} {url : String}
  {projections : ExtTreeMap String ArtifactProjection} {c : ArtifactCandidate}
  {e : MaintEvent}

@[simp] theorem kind_stamp (e : MaintEvent) : (m.stamp e).kind = e.kind := by
  rw [stamp]

/-- When an event was observed does not matter to what is learned from it. -/
theorem learn_observedAt (p : Option ArtifactProjection) (e : MaintEvent) (t : String) :
    learn p { e with observedAt := t } = learn p e := by
  obtain ⟨kind, _, _, _, _, _, _, _, _, _, headSha⟩ := e
  cases kind <;> cases headSha <;> rfl

theorem learn_stamp (p : Option ArtifactProjection) (e : MaintEvent) :
    learn p (m.stamp e) = learn p e := by
  rw [stamp, learn_observedAt]

theorem emissions_append : emissions events (rs ++ rs')
    = emissions events rs ++ emissions (events ++ emissions events rs) rs' := by
  induction rs generalizing events with
  | nil => simp [emissions]
  | cons r rs ih =>
    rw [List.cons_append, emissions, emissions, ih, List.append_assoc, List.append_assoc]

/-- What a read brings is news, but for the time of the call. -/
theorem news_of_newEvent {k : ℕ} (hS : m.Reads S)
    (h : m.newEvent projections k c = some e) :
    ∃ e₀, News S c projections[c.url]? e₀ ∧ e = m.stamp e₀ := by
  rcases newEvent_cases h with ⟨hkind, read, e₀, hread, hnews, rfl⟩
    | ⟨hkind, read, e₀, hread, hnews, rfl⟩
  · rw [hS.left _ _ _ _ _ hread] at hnews
    exact ⟨e₀, News.pr hkind hnews, rfl⟩
  · rw [hS.right _ _ _ _ _ hread] at hnews
    exact ⟨e₀, News.issue hkind hnews, rfl⟩

/-- What a call adds, by the three ways in which it ends. -/
theorem news_cases (hcands : candidatesFromSessions r.sessions = Except.ok candidates)
    (events : List MaintEvent) :
    r.news events = []
      ∨ (∃ pre d post, candidates = pre ++ d :: post
        ∧ isTerminalIn (projectEvents events) d.url = false
        ∧ (∃ k, r.reconciler.observe (projectEvents events) k d
          = Except.ok Observation.lowRate)
        ∧ r.reconciler.AllProcessed (projectEvents events) 0
          (alive (projectEvents events) pre)
        ∧ r.news events = r.reconciler.emitted (projectEvents events) 0
          (alive (projectEvents events) pre))
      ∨ ∃ pre rest, candidates = pre ++ rest
        ∧ (alive (projectEvents events) rest = []
          ∨ r.limit ≤ (alive (projectEvents events) pre).length)
        ∧ r.reconciler.AllProcessed (projectEvents events) 0
          (alive (projectEvents events) pre)
        ∧ r.news events = r.reconciler.emitted (projectEvents events) 0
          (alive (projectEvents events) pre) := by
  unfold Round.news
  rw [reconcile_eq hcands]
  rcases reconcileFrom_cases r.reconciler (projectEvents events) ⟨[], [], 0⟩
    (Nat.zero_le r.limit) candidates with ⟨pre, d, post, e, rfl, hreach, hr⟩
    | ⟨pre, d, post, rfl, hreach, hlow, hr⟩ | ⟨pre, rest, rfl, -, hall, hstop, hr⟩
  · rw [hr]
    exact Or.inl rfl
  · rw [hr]
    refine Or.inr (Or.inl ⟨pre, d, post, rfl, hreach.notTerminal, ⟨_, hlow⟩,
      hreach.processed, ?_⟩)
    simp [noteAll, ReconcileOutcome.note, ReconcileOutcome.defer]
  · rw [hr]
    refine Or.inr (Or.inr ⟨pre, rest, rfl, ?_, hall, ?_⟩)
    · rwa [show (0 : ℕ) + (alive (projectEvents events) pre).length
        = (alive (projectEvents events) pre).length from Nat.zero_add _] at hstop
    · simp [noteAll, ReconcileOutcome.defer]

/-- **What a call adds is what the reads of its processed candidates bring**,
and these are the first of those that are not over. -/
theorem exists_processed
    (hcands : candidatesFromSessions r.sessions = Except.ok candidates)
    (events : List MaintEvent) :
    ∃ processed left, alive (projectEvents events) candidates = processed ++ left
      ∧ r.reconciler.AllProcessed (projectEvents events) 0 processed
      ∧ r.news events = r.reconciler.emitted (projectEvents events) 0 processed := by
  rcases news_cases hcands events with hnil | ⟨pre, d, post, rfl, -, -, hall, hnews⟩
    | ⟨pre, rest, rfl, -, hall, hnews⟩
  · exact ⟨[], _, rfl, trivial, hnil⟩
  · exact ⟨_, _, alive_append, hall, hnews⟩
  · exact ⟨_, _, alive_append, hall, hnews⟩

theorem about_singleton_of_eq (h : e.url = some url) : about url [e] = [e] := by
  unfold about
  rw [List.filter_cons_of_pos (by simp [h]), List.filter_nil]

theorem about_singleton_of_ne (h : e.url ≠ some url) : about url [e] = [] := by
  unfold about
  rw [List.filter_cons_of_neg (by simp [h]), List.filter_nil]

/-- What the reads of candidates with distinct URLs bring about one of the
URLs: nothing, or one event. -/
theorem about_emitted {k : ℕ} {cs : List ArtifactCandidate}
    (hdistinct : (cs.map fun c => c.url).Nodup) (url : String) :
    about url (m.emitted projections k cs) = []
      ∨ ∃ c ∈ cs, c.url = url ∧ ∃ i e, m.newEvent projections i c = some e
        ∧ about url (m.emitted projections k cs) = [e] := by
  induction cs generalizing k with
  | nil => exact Or.inl rfl
  | cons d cs ih =>
    rw [List.map_cons, List.nodup_cons] at hdistinct
    have ih := ih (k := k + 1) hdistinct.right
    rw [emitted, about_append]
    cases hnew : m.newEvent projections k d with
    | none =>
      rw [Option.toList_none, show about url [] = [] from rfl, List.nil_append]
      rcases ih with hnil | ⟨c, hc, hurl, hevent⟩
      · exact Or.inl hnil
      · exact Or.inr ⟨c, List.mem_cons_of_mem d hc, hurl, hevent⟩
    | some e =>
      have he := url_newEvent hnew
      rw [Option.toList_some]
      by_cases hurl : d.url = url
      · -- the URL is that of this candidate, so of none behind it
        have hnil : about url (m.emitted projections (k + 1) cs) = [] := by
          rcases ih with hnil | ⟨c, hc, hurl', -⟩
          · exact hnil
          · refine absurd (List.mem_map_of_mem (f := fun c => c.url) hc) ?_
            rw [hurl', ← hurl]
            exact hdistinct.left
        rw [hnil, List.append_nil, about_singleton_of_eq (he.trans (congrArg some hurl))]
        exact Or.inr ⟨d, List.mem_cons_self, hurl, k, e, hnew, rfl⟩
      · rw [about_singleton_of_ne (by rw [he]; simp [hurl]), List.nil_append]
        rcases ih with hnil | ⟨c, hc, hurl', hevent⟩
        · exact Or.inl hnil
        · exact Or.inr ⟨c, List.mem_cons_of_mem d hc, hurl', hevent⟩

/-- **What a call adds about an artifact is nothing, or one piece of news about
a candidate that is not over.** -/
theorem about_news (hdistinct : DistinctCandidates r.sessions)
    (hcands : candidatesFromSessions r.sessions = Except.ok candidates)
    (events : List MaintEvent) (url : String) :
    about url (r.news events) = []
      ∨ ∃ c ∈ candidates, c.url = url
        ∧ isTerminalIn (projectEvents events) url = false
        ∧ ∃ k e, r.reconciler.newEvent (projectEvents events) k c = some e
          ∧ about url (r.news events) = [e] := by
  obtain ⟨processed, left, hsplit, -, hnews⟩ := exists_processed hcands events
  have hsub : processed.Sublist candidates :=
    (List.sublist_append_left processed left).trans (hsplit ▸ List.filter_sublist)
  have hnodup : (processed.map fun c => c.url).Nodup :=
    (hdistinct candidates hcands).sublist (hsub.map fun c => c.url)
  rw [hnews]
  rcases about_emitted hnodup url with hnil | ⟨c, hc, hurl, hevent⟩
  · exact Or.inl hnil
  · have halive : c ∈ alive (projectEvents events) candidates := by
      rw [hsplit]
      exact List.mem_append_left left hc
    exact Or.inr ⟨c, hsub.subset hc, hurl, hurl ▸ (mem_alive.mp halive).right, hevent⟩

/-- A ledger whose rows cannot be read adds nothing. -/
theorem news_of_error {msg : List String}
    (hcands : candidatesFromSessions r.sessions = Except.error msg)
    (events : List MaintEvent) : r.news events = [] := by
  unfold Round.news reconcile
  rw [hcands]

/-! ## What is over -/

/-- **Nothing is reported about what is over.** -/
theorem about_news_of_terminal
    (hterminal : isTerminalIn (projectEvents events) url = true) (r : Round) :
    about url (r.news events) = [] := by
  cases hcands : candidatesFromSessions r.sessions with
  | error msg =>
    rw [news_of_error hcands]
    rfl
  | ok candidates =>
    obtain ⟨processed, left, hsplit, -, hnews⟩ := exists_processed hcands events
    rw [hnews]
    refine List.filter_eq_nil_iff.mpr fun e he => ?_
    have hmem : e.url ∈ (processed.map fun c => some c.url) :=
      (url_emitted_sublist 0 processed).subset (List.mem_map_of_mem he)
    obtain ⟨c, hc, hurl⟩ := List.mem_map.mp hmem
    have halive : c ∈ alive (projectEvents events) candidates := by
      rw [hsplit]
      exact List.mem_append_left left hc
    rw [← hurl, decide_eq_true_eq, Option.some.injEq]
    rintro rfl
    rw [(mem_alive.mp halive).right] at hterminal
    cases hterminal

theorem isTerminalIn_append_of_about_nil {news : List MaintEvent}
    (h : about url news = []) :
    isTerminalIn (projectEvents (events ++ news)) url
      = isTerminalIn (projectEvents events) url := by
  unfold isTerminalIn
  rw [getElem?_projectEvents_of_about_nil h]

/-- **What is over stays over**: whatever calls follow, nothing more is reported
about it. -/
theorem about_emissions_of_terminal
    (hterminal : isTerminalIn (projectEvents events) url = true) (rs : List Round) :
    about url (emissions events rs) = [] := by
  induction rs generalizing events with
  | nil => rfl
  | cons r rs ih =>
    have hnil := about_news_of_terminal hterminal r
    rw [emissions, about_append, hnil, List.nil_append]
    exact ih (by rw [isTerminalIn_append_of_about_nil hnil, hterminal])

/-- The last event about an artifact says whether it is over. -/
theorem isTerminalIn_append_of_about_singleton {news : List MaintEvent}
    (h : about url news = [e]) :
    isTerminalIn (projectEvents (events ++ news)) url = e.kind.isTerminal := by
  unfold isTerminalIn
  rw [getElem?_projectEvents_append, h]
  exact terminal_after _

/-! ## Ranks -/

/-- Of the news about an artifact, only what ranks at least so high is left. -/
def Left (S : GhStates) (candidates : List ArtifactCandidate) (n : ℕ) (url : String)
    (events : List MaintEvent) : Prop :=
  isTerminalIn (projectEvents events) url = true
    ∨ ∀ c ∈ candidates, c.url = url → ∀ e, News S c (projectEvents events)[url]? e →
      n ≤ e.kind.rank

/-- What a call in a fixed state adds about an artifact ranks as high as what is
left, and what is left after it ranks higher. -/
theorem left_news {n : ℕ} (hdistinct : DistinctCandidates r.sessions)
    (hcands : candidatesFromSessions r.sessions = Except.ok candidates)
    (hS : r.reconciler.Reads S) (hleft : Left S candidates n url events) :
    about url (r.news events) = [] ∧ Left S candidates n url (events ++ r.news events)
      ∨ ∃ e, about url (r.news events) = [e] ∧ n ≤ e.kind.rank
        ∧ (∃ c ∈ candidates, c.url = url ∧ e.kind.rank < c.kind.ranks)
        ∧ Left S candidates (e.kind.rank + 1) url (events ++ r.news events) := by
  rcases about_news hdistinct hcands events url with hnil
    | ⟨c, hc, hurl, halive, k, e, hnew, habout⟩
  · refine Or.inl ⟨hnil, ?_⟩
    unfold Left
    rw [isTerminalIn_append_of_about_nil hnil, getElem?_projectEvents_of_about_nil hnil]
    exact hleft
  · obtain ⟨e₀, hnews, rfl⟩ := news_of_newEvent hS hnew
    rw [hurl] at hnews
    have hrank : n ≤ e₀.kind.rank := by
      rcases hleft with hterminal | hleft
      · rw [halive] at hterminal
        cases hterminal
      · exact hleft c hc hurl e₀ hnews
    refine Or.inr ⟨r.reconciler.stamp e₀, habout, ?_⟩
    rw [kind_stamp]
    refine ⟨hrank, ⟨c, hc, hurl, hnews.rank_lt_ranks⟩, ?_⟩
    unfold Left
    rw [isTerminalIn_append_of_about_singleton habout, getElem?_projectEvents_append, habout,
      kind_stamp, List.foldl_cons, List.foldl_nil, learn_stamp]
    cases hopen : e₀.kind.isTerminal with
    | true => exact Or.inl rfl
    | false =>
      -- the news that follows is about the same candidate, since URLs are distinct
      refine Or.inr fun c' hc' hurl' e' hnews' => ?_
      obtain rfl : c' = c :=
        List.inj_on_of_nodup_map (hdistinct candidates hcands) hc' hc (hurl'.trans hurl.symm)
      exact hnews.rank_lt hopen hnews'

/-- **What calls in a fixed state add about an artifact ranks ever higher.** -/
theorem ranks_emissions {n : ℕ} {sessions : List SessionRecord}
    (hdistinct : DistinctCandidates sessions)
    (hcands : candidatesFromSessions sessions = Except.ok candidates)
    (hrs : ∀ r ∈ rs, r.sessions = sessions ∧ r.reconciler.Reads S)
    (hleft : Left S candidates n url events) :
    ((about url (emissions events rs)).map fun e => e.kind.rank).Pairwise (· < ·)
      ∧ ∀ e ∈ about url (emissions events rs), n ≤ e.kind.rank
        ∧ ∃ c ∈ candidates, c.url = url ∧ e.kind.rank < c.kind.ranks := by
  induction rs generalizing n events with
  | nil => exact ⟨List.Pairwise.nil, fun e he => absurd he List.not_mem_nil⟩
  | cons r rs ih =>
    obtain ⟨hsessions, hS⟩ := hrs r List.mem_cons_self
    have hrs' : ∀ r' ∈ rs, r'.sessions = sessions ∧ r'.reconciler.Reads S :=
      fun r' hr' => hrs r' (List.mem_cons_of_mem r hr')
    subst hsessions
    rw [emissions, about_append]
    rcases left_news hdistinct hcands hS hleft with ⟨hnil, hleft'⟩
      | ⟨e, habout, hrank, hranks, hleft'⟩
    · rw [hnil, List.nil_append]
      exact ih hrs' hleft'
    · obtain ⟨hpairwise, hall⟩ := ih hrs' hleft'
      rw [habout, List.singleton_append, List.map_cons, List.pairwise_cons]
      refine ⟨⟨fun i hi => ?_, hpairwise⟩, fun e' he' => ?_⟩
      · obtain ⟨e', he', rfl⟩ := List.mem_map.mp hi
        exact (hall e' he').left
      · rcases List.mem_cons.mp he' with rfl | he'
        · exact ⟨hrank, hranks⟩
        · have hlt := (hall e' he').left
          exact ⟨by omega, (hall e' he').right⟩

variable (S candidates url events) in
theorem left_zero : Left S candidates 0 url events :=
  Or.inr fun _ _ _ _ _ => Nat.zero_le _

/-- Over rows that cannot be read nothing is ever reported. -/
theorem emissions_of_error {sessions : List SessionRecord} {msg : List String}
    (hcands : candidatesFromSessions sessions = Except.error msg)
    (hrs : ∀ r ∈ rs, r.sessions = sessions) (events : List MaintEvent) :
    emissions events rs = [] := by
  induction rs generalizing events with
  | nil => rfl
  | cons r rs ih =>
    rw [emissions, news_of_error (by rw [hrs r List.mem_cons_self, hcands]),
      List.nil_append]
    exact ih (fun r' hr' => hrs r' (List.mem_cons_of_mem r hr')) _

/-- No two events about one artifact have the same kind. -/
theorem nodup_kind_emissions {sessions : List SessionRecord}
    (hdistinct : DistinctCandidates sessions)
    (hrs : ∀ r ∈ rs, r.sessions = sessions ∧ r.reconciler.Reads S)
    (events : List MaintEvent) (url : String) :
    ((about url (emissions events rs)).map fun e => e.kind).Nodup := by
  cases hcands : candidatesFromSessions sessions with
  | error msg =>
    rw [emissions_of_error hcands fun r hr => (hrs r hr).left]
    exact List.nodup_nil
  | ok candidates =>
    have hpairwise := (ranks_emissions hdistinct hcands hrs
      (left_zero S events candidates url)).left
    rw [List.pairwise_map] at hpairwise
    exact List.pairwise_map.mpr (hpairwise.imp fun hlt heq => by
      rw [heq] at hlt
      exact absurd hlt (lt_irrefl _))

/-! ## The end -/

/-- Strictly increasing numbers below a bound are at most so many. -/
theorem length_le_of_pairwise_lt {l : List ℕ} {b : ℕ} (h : l.Pairwise (· < ·))
    (hb : ∀ x ∈ l, x < b) : l.length ≤ b := by
  have hnodup : l.Nodup := h.imp fun hlt => hlt.ne
  have hsub : l.toFinset ⊆ Finset.range b := fun x hx =>
    Finset.mem_range.mpr (hb x (List.mem_toFinset.mp hx))
  rw [← List.toFinset_card_of_nodup hnodup, ← Finset.card_range b]
  exact Finset.card_le_card hsub

/-- **About an artifact there are never more events than its kind has
ranks.** -/
theorem length_about_emissions_le {sessions : List SessionRecord}
    (hdistinct : DistinctCandidates sessions)
    (hcands : candidatesFromSessions sessions = Except.ok candidates)
    (hrs : ∀ r ∈ rs, r.sessions = sessions ∧ r.reconciler.Reads S)
    (hc : c ∈ candidates) (events : List MaintEvent) :
    (about c.url (emissions events rs)).length ≤ c.kind.ranks := by
  obtain ⟨hpairwise, hall⟩ := ranks_emissions hdistinct hcands hrs
    (left_zero S events candidates c.url)
  rw [← List.length_map (fun e => e.kind.rank)]
  refine length_le_of_pairwise_lt hpairwise fun n hn => ?_
  obtain ⟨e, he, rfl⟩ := List.mem_map.mp hn
  obtain ⟨-, c', hc', hurl, hlt⟩ := hall e he
  obtain rfl : c' = c :=
    List.inj_on_of_nodup_map (hdistinct candidates hcands) hc' hc hurl
  exact hlt

/-- Every event is about one of the candidates. -/
theorem exists_candidate_of_mem_news
    (hcands : candidatesFromSessions r.sessions = Except.ok candidates)
    (he : e ∈ r.news events) : ∃ c ∈ candidates, e.url = some c.url := by
  obtain ⟨processed, left, hsplit, -, hnews⟩ := exists_processed hcands events
  rw [hnews] at he
  obtain ⟨c, hc, hurl⟩ := List.mem_map.mp
    ((url_emitted_sublist 0 processed).subset (List.mem_map_of_mem he))
  have halive : c ∈ alive (projectEvents events) candidates := by
    rw [hsplit]
    exact List.mem_append_left left hc
  exact ⟨c, (mem_alive.mp halive).left, hurl.symm⟩

/-- See `exists_candidate_of_mem_news`. -/
theorem exists_candidate_of_mem_emissions {sessions : List SessionRecord}
    (hcands : candidatesFromSessions sessions = Except.ok candidates)
    (hrs : ∀ r ∈ rs, r.sessions = sessions) (he : e ∈ emissions events rs) :
    ∃ c ∈ candidates, e.url = some c.url := by
  induction rs generalizing events with
  | nil => cases he
  | cons r rs ih =>
    rw [emissions] at he
    rcases List.mem_append.mp he with he | he
    · refine exists_candidate_of_mem_news ?_ he
      rw [hrs r List.mem_cons_self, hcands]
    · exact ih (fun r' hr' => hrs r' (List.mem_cons_of_mem r hr')) he

/-- Events about some artifacts are as many as there are about each of them, or
fewer. -/
theorem length_le_sum_about {es : List MaintEvent} {urls : List String}
    (h : ∀ e ∈ es, ∃ url ∈ urls, e.url = some url) :
    es.length ≤ (urls.map fun url => (about url es).length).sum := by
  induction es with
  | nil => exact Nat.zero_le _
  | cons e es ih =>
    have ih := ih fun e' he' => h e' (List.mem_cons_of_mem e he')
    obtain ⟨url, hurl, he⟩ := h e List.mem_cons_self
    have hlt : (urls.map fun url => (about url es).length).sum
        < (urls.map fun url => (about url (e :: es)).length).sum := by
      refine List.sum_lt_sum _ _ (fun url' _ => ?_) ⟨url, hurl, ?_⟩
      · exact ((List.sublist_cons_self e es).filter _).length_le
      · unfold about
        rw [List.filter_cons_of_pos (by simp [he]), List.length_cons]
        exact Nat.lt_succ_self _
    rw [List.length_cons]
    omega

/-- The last of several calls. -/
theorem emissions_concat : emissions events (rs ++ [r])
    = emissions events rs ++ r.news (events ++ emissions events rs) := by
  rw [emissions_append, emissions, emissions, List.append_nil]

/-- Where a call that adds nothing of some sort is followed by calls that add
nothing of it, as long as calls add something, they have added as many events
as they are. -/
theorem le_length_filter_emissions {P : Round → Prop} {q : MaintEvent → Bool}
    (hstep : ∀ r r' events, P r → P r' → (r.news events).filter q = [] →
      (r'.news (events ++ r.news events)).filter q = [])
    (hrs : ∀ r ∈ rs, P r) (hr : P r)
    (h : (r.news (events ++ emissions events rs)).filter q ≠ []) :
    rs.length + 1 ≤ ((emissions events (rs ++ [r])).filter q).length := by
  induction rs using List.reverseRecOn generalizing r with
  | nil =>
    rw [emissions_concat, List.filter_append, List.length_append, List.length_nil]
    have hpos := List.length_pos_iff.mpr h
    omega
  | append_singleton rs r' ih =>
    have hr' : P r' := hrs r' (List.mem_append_right rs (List.mem_singleton_self r'))
    have hrs' : ∀ r ∈ rs, P r := fun r hr => hrs r (List.mem_append_left [r'] hr)
    have hprev : (r'.news (events ++ emissions events rs)).filter q ≠ [] := by
      intro hnil
      refine h ?_
      rw [emissions_concat, ← List.append_assoc]
      exact hstep r' r _ hr' hr hnil
    have ih := ih hrs' hr' hprev
    have hpos := List.length_pos_iff.mpr h
    rw [emissions_concat, List.filter_append, List.length_append, List.length_append,
      List.length_singleton]
    omega

/-- **Calls in a fixed state add at most three events for each candidate**, at
whatever times and under whatever limits. -/
theorem length_emissions_le {sessions : List SessionRecord}
    (hdistinct : DistinctCandidates sessions)
    (hcands : candidatesFromSessions sessions = Except.ok candidates)
    (hrs : ∀ r ∈ rs, r.sessions = sessions ∧ r.reconciler.Reads S)
    (events : List MaintEvent) :
    (emissions events rs).length ≤ 3 * candidates.length := by
  have habout : ∀ e ∈ emissions events rs,
      ∃ url ∈ candidates.map fun c => c.url, e.url = some url := by
    intro e he
    obtain ⟨c, hc, hurl⟩ := exists_candidate_of_mem_emissions hcands
      (fun r hr => (hrs r hr).left) he
    exact ⟨c.url, List.mem_map_of_mem (f := fun c => c.url) hc, hurl⟩
  have hsum : ((candidates.map fun c => c.url).map
      fun url => (about url (emissions events rs)).length).sum
        ≤ (candidates.map fun _ => 3).sum := by
    rw [List.map_map]
    refine List.sum_le_sum fun c hc => ?_
    have hle := length_about_emissions_le hdistinct hcands hrs hc events
    have hranks : c.kind.ranks ≤ 3 := by
      cases c.kind
      · exact le_refl 3
      · exact Nat.le_add_left 1 2
    show (about c.url (emissions events rs)).length ≤ 3
    omega
  have hle := length_le_sum_about habout
  rw [List.map_const', List.sum_replicate, smul_eq_mul] at hsum
  omega

/-! ## Calls that come to every artifact -/

/-- That few requests are left does not depend on what is known. -/
theorem observe_lowRate {projections' : ExtTreeMap String ArtifactProjection} {k : ℕ}
    (h : m.observe projections k c = Except.ok Observation.lowRate) :
    m.observe projections' k c = Except.ok Observation.lowRate := by
  unfold observe at h ⊢
  cases hkind : c.kind with
  | pr =>
    rw [hkind] at h
    simp only [bind_ok_iff, context_ok_iff, observation_lowRate_iff] at h ⊢
    exact h
  | issue =>
    rw [hkind] at h
    simp only [bind_ok_iff, context_ok_iff, observation_lowRate_iff] at h ⊢
    exact h

/-- What is new depends on nothing but what is known of the artifact. -/
theorem newEvent_congr {projections' : ExtTreeMap String ArtifactProjection} {k : ℕ}
    (h : projections[c.url]? = projections'[c.url]?) :
    m.newEvent projections k c = m.newEvent projections' k c := by
  unfold newEvent observe
  rw [h]

/-- Calls that see the same read the same as new, but for the time. -/
theorem isSome_newEvent_of_seesAs {m' : MaintainReconciler} {k i : ℕ} (h : m.SeesAs m') :
    (m.newEvent projections k c).isSome = (m'.newEvent projections i c).isSome := by
  unfold newEvent
  rw [h projections k i c]
  cases m'.observe projections i c with
  | error msg => rfl
  | ok obs =>
    cases obs with
    | lowRate => rfl
    | event e => rw [Option.isSome_map, Option.isSome_map]

theorem exists_of_mem_emitted {k : ℕ} {cs : List ArtifactCandidate}
    (he : e ∈ m.emitted projections k cs) :
    ∃ c ∈ cs, ∃ i, m.newEvent projections i c = some e := by
  induction cs generalizing k with
  | nil => cases he
  | cons d cs ih =>
    rw [emitted] at he
    rcases List.mem_append.mp he with he | he
    · exact ⟨d, List.mem_cons_self, k, Option.mem_toList.mp he⟩
    · obtain ⟨c, hc, hevent⟩ := ih he
      exact ⟨c, List.mem_cons_of_mem d hc, hevent⟩

/-- A processed candidate with news about it brings an event. -/
theorem exists_mem_emitted {k : ℕ} {cs : List ArtifactCandidate} (hc : c ∈ cs)
    (h : ∀ i, (m.newEvent projections i c).isSome = true) :
    ∃ e ∈ m.emitted projections k cs, e.url = some c.url := by
  induction cs generalizing k with
  | nil => cases hc
  | cons d cs ih =>
    rw [emitted]
    rcases List.mem_cons.mp hc with rfl | hc
    · obtain ⟨e, hnew⟩ := Option.isSome_iff_exists.mp (h k)
      exact ⟨e, List.mem_append_left _ (Option.mem_toList.mpr hnew), url_newEvent hnew⟩
    · obtain ⟨e, he, hurl⟩ := ih (k := k + 1) hc
      exact ⟨e, List.mem_append_right _ he, hurl⟩

theorem exists_processed_of_mem {k : ℕ} {cs : List ArtifactCandidate}
    (hall : m.AllProcessed projections k cs) (hc : c ∈ cs) :
    ∃ i, m.Processed projections i c := by
  induction cs generalizing k with
  | nil => cases hc
  | cons d cs ih =>
    rcases List.mem_cons.mp hc with rfl | hc
    · exact ⟨k, hall.left⟩
    · exact ih hall.right hc

/-- What comes in front of an element that it does not contain. -/
theorem subset_of_append_eq_append_cons {α : Type} {a b l l' : List α} {x : α}
    (h : a ++ b = l ++ x :: l') (hx : x ∉ a) : a ⊆ l := by
  rcases List.append_eq_append_iff.mp h with ⟨d, rfl, -⟩ | ⟨d, rfl, hd⟩
  · exact List.subset_append_left a d
  · cases d with
    | nil =>
      rw [List.append_nil]
      exact List.Subset.refl l
    | cons y d =>
      obtain ⟨rfl, -⟩ := List.cons.inj hd
      exact absurd (List.mem_append_right l List.mem_cons_self) hx

/-- What calls that see the same come to has as many events. -/
theorem length_reconcileFrom_of_seesAs {m' : MaintainReconciler} {limit : ℕ}
    (hsees : m.SeesAs m') {o o' : ReconcileOutcome} (hqueried : o.queried = o'.queried)
    (hlength : o.newEvents.length = o'.newEvents.length) (cs : List ArtifactCandidate) :
    (m.reconcileFrom projections limit o cs).2.map (fun o => o.newEvents.length)
      = (m'.reconcileFrom projections limit o' cs).2.map fun o => o.newEvents.length := by
  induction cs generalizing o o' with
  | nil =>
    rw [reconcileFrom, reconcileFrom]
    show Except.ok o.newEvents.length = Except.ok o'.newEvents.length
    rw [hlength]
  | cons c cs ih =>
    cases hc : isTerminalIn projections c.url with
    | true =>
      rw [reconcileFrom_of_terminal hc, reconcileFrom_of_terminal hc]
      exact ih hqueried hlength
    | false =>
      by_cases hlimit : o.queried < limit
      · rw [reconcileFrom_of_query hc hlimit, reconcileFrom_of_query hc (hqueried ▸ hlimit),
          hsees projections o.queried o'.queried c]
        cases m'.observe projections o'.queried c with
        | error msg => rfl
        | ok obs =>
          cases obs with
          | lowRate =>
            show Except.ok (o.newEvents ++ []).length = Except.ok (o'.newEvents ++ []).length
            rw [List.append_nil, List.append_nil, hlength]
          | event e =>
            refine ih (congrArg (· + 1) hqueried) ?_
            cases e with
            | none => simpa [ReconcileOutcome.note] using hlength
            | some e => simpa [ReconcileOutcome.note] using hlength
      · rw [reconcileFrom_of_limit (by omega), reconcileFrom_of_limit (by omega)]
        show Except.ok o.newEvents.length = Except.ok o'.newEvents.length
        rw [hlength]

variable {sessions : List SessionRecord} {limit : ℕ} {r' : Round}

theorem Round.Repeats.seesAs (hr : r.Repeats sessions limit S m)
    (hr' : r'.Repeats sessions limit S m) : r.reconciler.SeesAs r'.reconciler :=
  fun projections k i c =>
    (hr.sees projections k 0 c).trans (hr'.sees projections i 0 c).symm

/-- Where a call adds nothing, neither does one that repeats it. -/
theorem Round.Repeats.news_eq_nil (hr : r.Repeats sessions limit S m)
    (hr' : r'.Repeats sessions limit S m) (h : r.news events = []) :
    r'.news events = [] := by
  cases hcands : candidatesFromSessions sessions with
  | error msg => exact news_of_error (by rw [hr'.sessions, hcands]) events
  | ok candidates =>
    have hlength : (r.reconciler.reconcileFrom (projectEvents events) limit ⟨[], [], 0⟩
          candidates).2.map (fun o => o.newEvents.length)
        = (r'.reconciler.reconcileFrom (projectEvents events) limit ⟨[], [], 0⟩
          candidates).2.map fun o => o.newEvents.length :=
      length_reconcileFrom_of_seesAs (hr.seesAs hr') rfl rfl candidates
    unfold Round.news at h ⊢
    rw [hr.sessions, hr.limit, reconcile_eq hcands] at h
    rw [hr'.sessions, hr'.limit, reconcile_eq hcands]
    cases hout' : (r'.reconciler.reconcileFrom (projectEvents events) limit ⟨[], [], 0⟩
        candidates).2 with
    | error msg => rfl
    | ok o' =>
      cases hout : (r.reconciler.reconcileFrom (projectEvents events) limit ⟨[], [], 0⟩
          candidates).2 with
      | error msg =>
        rw [hout, hout'] at hlength
        cases hlength
      | ok o =>
        rw [hout, hout'] at hlength
        rw [hout] at h
        have hlength : o.newEvents.length = o'.newEvents.length := Except.ok.inj hlength
        rw [show o.newEvents = [] from h, List.length_nil] at hlength
        exact List.length_eq_zero_iff.mp hlength.symm

/-- **When the limit leaves no candidate out, an artifact about which a call
reports nothing is not reported about by the next either.** What keeps a read
from being made, a failure or that few requests are left, is still there. -/
theorem about_news_step (hdistinct : DistinctCandidates sessions)
    (hcands : candidatesFromSessions sessions = Except.ok candidates)
    (hr : r.Repeats sessions limit S m) (hr' : r'.Repeats sessions limit S m)
    (hlimit : candidates.length ≤ limit) (h : about url (r.news events) = []) :
    about url (r'.news (events ++ r.news events)) = [] := by
  have hsees := hr.seesAs hr'
  have hcands₁ : candidatesFromSessions r.sessions = Except.ok candidates := by
    rw [hr.sessions, hcands]
  have hcands₂ : candidatesFromSessions r'.sessions = Except.ok candidates := by
    rw [hr'.sessions, hcands]
  refine List.filter_eq_nil_iff.mpr fun e he hurl => ?_
  rw [decide_eq_true_eq] at hurl
  obtain ⟨processed, left, hsplit, hall, hnews⟩ :=
    exists_processed hcands₂ (events ++ r.news events)
  rw [hnews] at he
  obtain ⟨c, hc, i, hnew⟩ := exists_of_mem_emitted he
  obtain rfl : c.url = url := Option.some.inj ((url_newEvent hnew).symm.trans hurl)
  have halive : c ∈ alive (projectEvents (events ++ r.news events)) candidates := by
    rw [hsplit]
    exact List.mem_append_left left hc
  obtain ⟨hcand, hopen⟩ := mem_alive.mp halive
  -- nothing was learned about this artifact, so its read would have told the same
  have hsame : (projectEvents (events ++ r.news events))[c.url]?
      = (projectEvents events)[c.url]? := getElem?_projectEvents_of_about_nil h
  rw [isTerminalIn_append_of_about_nil h] at hopen
  rw [newEvent_congr hsame] at hnew
  have hnot : ∀ pre : List ArtifactCandidate,
      r.news events = r.reconciler.emitted (projectEvents events) 0
        (alive (projectEvents events) pre) → c ∉ pre := by
    intro pre hpre hmem
    obtain ⟨e', he', hurl'⟩ := exists_mem_emitted (k := 0) (m := r.reconciler)
      (mem_alive.mpr ⟨hmem, hopen⟩) fun j => by
        rw [isSome_newEvent_of_seesAs (i := i) hsees, hnew, Option.isSome_some]
    rw [← hpre] at he'
    exact List.filter_eq_nil_iff.mp h e' he' (decide_eq_true hurl')
  rcases news_cases hcands₁ events with hnil | ⟨pre, d, post, rfl, hd, ⟨k, hlow⟩, -, hpre⟩
    | ⟨pre, rest, rfl, hstop, -, hpre⟩
  · -- nothing at all was reported, and nothing is
    rw [← hnews, hnil, List.append_nil, hr.news_eq_nil hr' hnil] at he
    cases he
  · -- few requests are left when the call comes to `d`, and then they still are
    refine hnot pre hpre ?_
    have habout : about d.url (r.news events) = [] := by
      refine List.filter_eq_nil_iff.mpr fun e' he' hurl' => ?_
      rw [hpre] at he'
      obtain ⟨c', hc', j, hnew'⟩ := exists_of_mem_emitted he'
      have hurl'' : c'.url = d.url := Option.some.inj
        ((url_newEvent hnew').symm.trans (of_decide_eq_true hurl'))
      have hnodup := hdistinct _ hcands
      rw [List.map_append, List.map_cons] at hnodup
      refine List.disjoint_of_nodup_append hnodup
        (List.mem_map_of_mem (f := fun c => c.url) (mem_alive.mp hc').left) ?_
      rw [hurl'']
      exact List.mem_cons_self
    have hd' : d ∉ processed := by
      intro hmem
      obtain ⟨j, o, ho⟩ := exists_processed_of_mem hall hmem
      rw [← hsees _ k j, observe_lowRate hlow] at ho
      cases ho
    rw [alive_append, alive_cons_of_not
      (by rw [isTerminalIn_append_of_about_nil habout, hd])] at hsplit
    exact (mem_alive.mp (subset_of_append_eq_append_cons hsplit.symm hd' hc)).left
  · have hlen : (alive (projectEvents events) pre).length
        + (alive (projectEvents events) rest).length ≤ limit := by
      rw [← List.length_append, ← alive_append]
      exact (List.length_filter_le _ _).trans hlimit
    have hrest : alive (projectEvents events) rest = [] := by
      rcases hstop with hnil | hstop
      · exact hnil
      · rw [hr.limit] at hstop
        exact List.length_eq_zero_iff.mp (by omega)
    refine hnot pre hpre ?_
    rcases List.mem_append.mp hcand with hmem | hmem
    · exact hmem
    · have hmem := mem_alive.mpr ⟨hmem, hopen⟩
      rw [hrest] at hmem
      cases hmem

/-- **A call that reports about an artifact is not later than its ranks.** -/
theorem lt_ranks_of_mem_news (hdistinct : DistinctCandidates sessions)
    (hcands : candidatesFromSessions sessions = Except.ok candidates)
    (hrs : ∀ r' ∈ rs ++ [r], r'.Repeats sessions limit S m)
    (hlimit : candidates.length ≤ limit)
    (he : e ∈ r.news (events ++ emissions events rs)) :
    ∃ c ∈ candidates, e.url = some c.url ∧ rs.length < c.kind.ranks := by
  have hr : r.Repeats sessions limit S m :=
    hrs r (List.mem_append_right rs (List.mem_singleton_self r))
  obtain ⟨c, hc, hurl⟩ := exists_candidate_of_mem_news
    (by rw [hr.sessions, hcands]) he
  have hreads : ∀ r' ∈ rs ++ [r], r'.sessions = sessions ∧ r'.reconciler.Reads S :=
    fun r' hr' => ⟨(hrs r' hr').sessions, (hrs r' hr').reads⟩
  have hle := length_about_emissions_le hdistinct hcands hreads hc events
  have hlt := le_length_filter_emissions (P := fun r => r.Repeats sessions limit S m)
    (q := fun e => e.url = some c.url)
    (fun r r' events hr hr' hnil => about_news_step hdistinct hcands hr hr' hlimit hnil)
    (fun r hr => hrs r (List.mem_append_left _ hr)) hr
    (List.ne_nil_of_mem (List.mem_filter.mpr ⟨he, decide_eq_true hurl⟩))
  exact ⟨c, hc, hurl, Nat.lt_of_succ_le (hlt.trans hle)⟩

/-- **Whatever the limit, there are at most three calls for each candidate that
report something.** -/
theorem length_lt_of_news_ne_nil (hdistinct : DistinctCandidates sessions)
    (hcands : candidatesFromSessions sessions = Except.ok candidates)
    (hrs : ∀ r' ∈ rs ++ [r], r'.Repeats sessions limit S m)
    (h : r.news (events ++ emissions events rs) ≠ []) :
    rs.length < 3 * candidates.length := by
  have hreads : ∀ r' ∈ rs ++ [r], r'.sessions = sessions ∧ r'.reconciler.Reads S :=
    fun r' hr' => ⟨(hrs r' hr').sessions, (hrs r' hr').reads⟩
  have hle := length_emissions_le hdistinct hcands hreads events
  have hlt := le_length_filter_emissions (P := fun r => r.Repeats sessions limit S m)
    (q := fun _ => true) (fun r r' events hr hr' hnil => ?_)
    (fun r hr => hrs r (List.mem_append_left _ hr))
    (hrs r (List.mem_append_right rs (List.mem_singleton_self r)))
    (by rwa [List.filter_true])
  · rw [List.filter_true] at hlt
    exact Nat.lt_of_succ_le (hlt.trans hle)
  · rw [List.filter_true] at hnil ⊢
    rw [hnil, List.append_nil]
    exact hr.news_eq_nil hr' hnil

/-- The last event about an artifact says whether it is over. -/
theorem isTerminalIn_of_getLast? (h : (about url events).getLast? = some e) :
    isTerminalIn (projectEvents events) url = e.kind.isTerminal := by
  obtain ⟨es, hes⟩ := List.getLast?_eq_some_iff.mp h
  unfold isTerminalIn
  rw [getElem?_projectEvents, hes, List.foldl_append]
  exact terminal_after _

/-- **A terminal event that a call reports is the last about its artifact.** -/
theorem isTerminalIn_of_mem_news (hdistinct : DistinctCandidates r.sessions)
    (he : e ∈ r.news events) (hterminal : e.kind.isTerminal = true)
    (hurl : e.url = some url) :
    isTerminalIn (projectEvents (events ++ r.news events)) url = true := by
  have hmem : e ∈ about url (r.news events) :=
    List.mem_filter.mpr ⟨he, decide_eq_true hurl⟩
  cases hcands : candidatesFromSessions r.sessions with
  | error msg =>
    rw [news_of_error hcands] at he
    cases he
  | ok candidates =>
    rcases about_news hdistinct hcands events url with hnil | ⟨c, -, -, -, k, e', -, habout⟩
    · rw [hnil] at hmem
      cases hmem
    · rw [habout] at hmem
      obtain rfl := List.mem_singleton.mp hmem
      rw [isTerminalIn_append_of_about_singleton habout, hterminal]

end Rounds

/-! ## Maintaining comes to an end -/

/-- The candidates of the rows, if their URLs can be read. -/
def candidatesIn (sessions : List SessionRecord) : List ArtifactCandidate :=
  ((candidatesFromSessions sessions).toOption).getD []

theorem candidatesIn_of_ok {sessions : List SessionRecord}
    {candidates : List ArtifactCandidate}
    (h : candidatesFromSessions sessions = Except.ok candidates) :
    candidatesIn sessions = candidates := by
  unfold candidatesIn
  rw [h]
  rfl

/-- **Maintaining comes to an end.** While GitHub stays as it is, calls over
rows with distinct URLs never report two events of one kind about an artifact,
and no more than three events for each, at whatever times and under whatever
limits, failures and rate limits. If every call sees the same of an artifact,
and the limit leaves none out, then what is reported about a pull request is
reported within three calls, and what is reported about an issue by the first;
if the limit is less, within three calls for each artifact.

An artifact is over while the last event about it is terminal, and then no
call reports about it again, whatever has become of it; the calls themselves
report nothing behind a terminal event. -/
theorem reconcile_converges {sessions : List SessionRecord}
    (hdistinct : DistinctCandidates sessions) :
    (∀ (S : GhStates) (rs : List Round),
        (∀ r ∈ rs, r.sessions = sessions ∧ r.reconciler.Reads S) →
      ∀ events, (∀ url, ((about url (emissions events rs)).map fun e => e.kind).Nodup)
        ∧ (emissions events rs).length ≤ 3 * (candidatesIn sessions).length)
      ∧ (∀ (limit : ℕ) (S : GhStates) (m : MaintainReconciler) (rs : List Round) (r : Round),
          (∀ r' ∈ rs ++ [r], r'.Repeats sessions limit S m) →
        ∀ events, ((candidatesIn sessions).length ≤ limit →
            ∀ e ∈ r.news (events ++ emissions events rs),
              ∃ c ∈ candidatesIn sessions, e.url = some c.url ∧ rs.length < c.kind.ranks)
          ∧ (3 * (candidatesIn sessions).length ≤ rs.length →
            r.news (events ++ emissions events rs) = []))
      ∧ (∀ (events : List MaintEvent) (url : String) (e : MaintEvent),
          (about url events).getLast? = some e → e.kind.isTerminal = true →
        ∀ rs, about url (emissions events rs) = [])
      ∧ ∀ (r : Round) (events : List MaintEvent), r.sessions = sessions →
        ∀ e ∈ r.news events, e.kind.isTerminal = true → ∀ url, e.url = some url →
          ∀ rs, about url (emissions (events ++ r.news events) rs) = [] := by
  refine ⟨fun S rs hrs events => ⟨nodup_kind_emissions hdistinct hrs events, ?_⟩,
    fun limit S m rs r hrs events => ⟨fun hlimit e he => ?_, fun hlength => ?_⟩,
    fun events url e hlast hterminal rs =>
      about_emissions_of_terminal ((isTerminalIn_of_getLast? hlast).trans hterminal) rs,
    fun r events hr e he hterminal url hurl rs =>
      about_emissions_of_terminal
        (isTerminalIn_of_mem_news (hr ▸ hdistinct) he hterminal hurl) rs⟩
  · cases hcands : candidatesFromSessions sessions with
    | error msg =>
      rw [emissions_of_error hcands fun r hr => (hrs r hr).left]
      exact Nat.zero_le _
    | ok candidates =>
      rw [candidatesIn_of_ok hcands]
      exact length_emissions_le hdistinct hcands hrs events
  · have hr := hrs r (List.mem_append_right rs (List.mem_singleton_self r))
    cases hcands : candidatesFromSessions sessions with
    | error msg =>
      rw [news_of_error (by rw [hr.sessions, hcands])] at he
      cases he
    | ok candidates =>
      rw [candidatesIn_of_ok hcands] at hlimit ⊢
      exact lt_ranks_of_mem_news hdistinct hcands hrs hlimit he
  · have hr := hrs r (List.mem_append_right rs (List.mem_singleton_self r))
    cases hcands : candidatesFromSessions sessions with
    | error msg => exact news_of_error (by rw [hr.sessions, hcands]) _
    | ok candidates =>
      rw [candidatesIn_of_ok hcands] at hlength
      by_contra hne
      -- a call that still reports something is one of the first
      have hlt := length_lt_of_news_ne_nil hdistinct hcands hrs hne
      omega

theorem distinctCandidates_of_nodup {sessions : List SessionRecord}
    {candidates : List ArtifactCandidate}
    (hcands : candidatesFromSessions sessions = Except.ok candidates)
    (h : (candidates.map fun c => c.url).Nodup) : DistinctCandidates sessions := by
  intro candidates' hcands'
  rw [hcands] at hcands'
  obtain rfl := Except.ok.inj hcands'
  exact h

open MaintainReconciler

/-- A call over some pull requests, so many at a time. -/
def pullsRound (m : MaintainReconciler) (numbers : List ℕ) (limit : ℕ) : Round where
  reconciler := m
  sessions := numbers.map fun n =>
    publishedSession s!"s{n}" s!"https://github.com/o/r/pull/{n}"
  limit := limit

/-- GitHub with every pull request merged. -/
def mergedGithub : MaintainReconciler :=
  { openGithub 5000 with
    gh := { (openGithub 5000).gh with
      queryPrState := fun _ _ _ _ => Except.ok
        ⟨⟨false, true, false, some "0123456", false, "2026-06-14T00:00:00Z"⟩,
          ⟨5000, 5000⟩⟩ } }

/-- Everything is open. -/
def openStates : GhStates :=
  ⟨fun _ => ⟨true, false, false, some "0123456", false, "2026-06-14T00:00:00Z"⟩,
    fun _ => ⟨true, false⟩⟩

/-- Calls over open pull requests repeat each other. -/
theorem repeats_openGithub (numbers : List ℕ) (limit : ℕ) :
    (pullsRound (openGithub 5000) numbers limit).Repeats
      (pullsRound (openGithub 5000) numbers limit).sessions limit openStates
      (openGithub 5000) where
  sessions := rfl
  limit := rfl
  reads := by
    constructor
    · intro k owner repo number read hread
      obtain rfl := Except.ok.inj hread
      rfl
    · intro k owner repo number read hread
      obtain rfl := Except.ok.inj hread
      rfl
  sees := fun _ _ _ _ => rfl

/-- Two open pull requests, asked about one at a time: six calls suffice. -/
theorem reconcile_converges_two :
    (pullsRound (openGithub 5000) [1, 2] 1).news
      ([] ++ emissions [] (List.replicate 6 (pullsRound (openGithub 5000) [1, 2] 1))) = [] := by
  obtain ⟨candidates, hcands, h⟩ : ∃ candidates, (candidatesFromSessions
      (pullsRound (openGithub 5000) [1, 2] 1).sessions).toOption = some candidates
        ∧ decide ((candidates.map fun c => c.url).Nodup ∧ candidates.length = 2) = true :=
    Option.map_eq_some_iff.mp (by decide +kernel)
  have hcands := ok_of_toOption hcands
  obtain ⟨hnodup, hlength⟩ := of_decide_eq_true h
  refine ((reconcile_converges (distinctCandidates_of_nodup hcands hnodup)).right.left
    1 openStates (openGithub 5000) _ _ (fun r hr => ?_) []).right ?_
  · rw [← List.replicate_succ'] at hr
    rw [List.eq_of_mem_replicate hr]
    exact repeats_openGithub [1, 2] 1
  · rw [candidatesIn_of_ok hcands, hlength, List.length_replicate]

/-- With a limit of one, the ninth of nine merged pull requests is reported by
the ninth call, though there are but eight kinds of events; and an event
behind a terminal one reopens an artifact, about which a call then reports
again. -/
theorem not_reconcile_converges_of_limit :
    (pullsRound mergedGithub [1, 2, 3, 4, 5, 6, 7, 8, 9] 1).news
        (emissions [] (List.replicate 8
          (pullsRound mergedGithub [1, 2, 3, 4, 5, 6, 7, 8, 9] 1))) ≠ []
      ∧ about "https://github.com/o/r/pull/1" ((pullsRound mergedGithub [1] 50).news
        [mergedEvent "https://github.com/o/r/pull/1",
          { mergedEvent "https://github.com/o/r/pull/1" with
            kind := MaintEventKind.prOpen, priorState := none, newState := "open" }]) ≠ [] := by
  constructor <;> decide +kernel
