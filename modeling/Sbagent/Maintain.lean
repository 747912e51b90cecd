import Sbagent.History
import Sbagent.Slices

/-!
# Keeping up with pull requests and issues

`maintain` asks GitHub what became of the pull requests and issues that
archived targets were published as, and records what is new as events. What is
known of an artifact is folded from the events recorded so far; the rest is
one loop over the candidates – every URL of every archived row – that skips
what is over, asks GitHub about at most so many, and stops when GitHub says
that few requests are left.

The loop and what it defers do not look at the candidates in the same way.
One that is over is skipped where the loop comes across it, but what is left
when GitHub asks to stop is deferred as it stands; and the rows are not asked
whether their URL has been seen before.
-/

open Fallible Keyed
open Std (ExtTreeMap)

/-! ## Times -/

/-- A time, in nanoseconds since the epoch. -/
abbrev SystemTime : Type := ℤ

/-- An unsigned number below a bound, as the language parses it: digits, and
perhaps a plus sign in front. -/
def parseUnsigned (bound : ℕ) (s : List Char) : Option ℕ :=
  let digits : List Char := if s.head? = some '+' then s.tail else s
  let value := digits.foldl (fun n c => 10 * n + (c.toNat - 48)) 0
  if digits = [] ∨ digits.all Text.isAsciiDigit = false ∨ bound ≤ value then none
  else some value

/-- A signed number. -/
def parseSigned (s : List Char) : Option ℤ :=
  if s.head? = some '-' then
    if s.tail.head? = some '+' then none
    else (parseUnsigned (2 ^ 31 + 1) s.tail).map fun n => -n
  else (parseUnsigned (2 ^ 31) s).map fun n => n

/-- The days from the epoch to a date. -/
def daysFromCivil (year : ℤ) (month day : ℕ) : ℤ :=
  let y := if month ≤ 2 then year - 1 else year
  let era := (if 0 ≤ y then y else y - 399).tdiv 400
  let yoe := y - era * 400
  let m := if 2 < month then month - 3 else month + 9
  let doy : ℤ := ((153 * m + 2) / 5 + day : ℕ) - 1
  let doe := yoe * 365 + yoe.tdiv 4 - yoe.tdiv 100 + doy
  era * 146097 + doe - 719468

/-- A part of a timestamp. A cut through a character of more than one byte is a panic,
which is an error here. -/
def sliceOf (s : String) (first last : ℕ) : Fallible (List Char) :=
  ofOption ((Slices.dropBytes first s.toList).bind (Slices.takeBytes (last - first)))
    s!"byte index {first} or {last} is not a char boundary"

/-- The time that a timestamp says. Its separators are not looked at, and
neither is what follows the seconds. -/
def parseIsoishUtc (s : String) : Fallible SystemTime := do
  bailIf (Text.byteLen s < 19) s!"timestamp `{s}` too short; expected ISO 8601"
  let year ← ofOption (parseSigned (← sliceOf s 0 4)) "invalid digit found in string"
  let month ← ofOption (parseUnsigned (2 ^ 32) (← sliceOf s 5 7))
    "invalid digit found in string"
  let day ← ofOption (parseUnsigned (2 ^ 32) (← sliceOf s 8 10))
    "invalid digit found in string"
  let hour ← ofOption (parseUnsigned (2 ^ 64) (← sliceOf s 11 13))
    "invalid digit found in string"
  let min ← ofOption (parseUnsigned (2 ^ 64) (← sliceOf s 14 16))
    "invalid digit found in string"
  let sec ← ofOption (parseUnsigned (2 ^ 64) (← sliceOf s 17 19))
    "invalid digit found in string"
  let total := daysFromCivil year month day * 86400 + (hour * 3600 + min * 60 + sec : ℕ)
  bailIf (total < 0) s!"timestamp `{s}` predates Unix epoch"
  return total * 10 ^ 9

/-- A number in a given width. -/
def padded (width n : ℕ) : String :=
  let digits := toString n
  String.ofList (List.replicate (width - digits.length) '0') ++ digits

/-- A time as a timestamp, in whole seconds. A time before the epoch is shown
as the epoch. -/
def formatSystemTime (t : SystemTime) : String :=
  let secs := (t.toNat / 10 ^ 9)
  let z := secs / 86400 + 719468
  let era := z / 146097
  let doe := z - era * 146097
  let yoe := (doe - doe / 1460 + doe / 36524 - doe / 146096) / 365
  let doy := doe - (365 * yoe + yoe / 4 - yoe / 100)
  let mp := (5 * doy + 2) / 153
  let d := doy - (153 * mp + 2) / 5 + 1
  let m := if mp < 10 then mp + 3 else mp - 9
  let y := yoe + era * 400 + if m ≤ 2 then 1 else 0
  let rem := secs % 86400
  s!"{padded 4 y}-{padded 2 m}-{padded 2 d}T"
    ++ s!"{padded 2 (rem / 3600)}:{padded 2 (rem % 3600 / 60)}:{padded 2 (rem % 60)}Z"

/-! ## What GitHub says -/

/-- How many requests are left. -/
structure RateLimitSnapshot where
  remaining : ℕ
  limit : ℕ
  deriving DecidableEq

/-- Fewer than a percentage are left. -/
def RateLimitSnapshot.belowFloorPct (r : RateLimitSnapshot) (floorPct : ℕ) : Bool :=
  r.limit = 0 || r.remaining * 100 < r.limit * floorPct

/-- The state of a pull request. -/
structure PrState where
  isOpen : Bool
  isMerged : Bool
  isClosedUnmerged : Bool
  headSha : Option String
  headRefDeleted : Bool
  updatedAt : String
  deriving DecidableEq

/-- The state of an issue. -/
structure IssueLifecycleState where
  isOpen : Bool
  isClosed : Bool
  deriving DecidableEq

/-- A state, and how many requests were left when it was read. -/
structure GhStateRead (α : Type) where
  state : α
  rateLimit : RateLimitSnapshot

/-- GitHub, as one call sees it: what the `k`-th read is answered with. -/
structure GhReads where
  queryPrState : ℕ → String → String → ℕ → Fallible (GhStateRead PrState)
  queryIssueState : ℕ → String → String → ℕ → Fallible (GhStateRead IssueLifecycleState)

/-- The knobs. -/
structure MaintainSettings where
  /-- Days without an update after which a pull request is stale. -/
  staleAfterDays : ℕ
  /-- The percentage of requests left below which to stop asking. -/
  secondaryRateLimitFloorPct : ℕ

/-! ## Candidates -/

/-- What a URL leads to. -/
inductive ArtifactKind where
  | pr
  | issue
  deriving DecidableEq

/-- An artifact of a repository. -/
structure ArtifactRef where
  owner : String
  repo : String
  number : ℕ
  deriving DecidableEq

/-- An artifact that an archived row names. -/
structure ArtifactCandidate where
  kind : ArtifactKind
  session : SessionRecord
  target : TargetRecord
  url : String
  ref : ArtifactRef
  deriving DecidableEq

/-- The parts of a path, without the slashes at its end. -/
def pathParts (rest : List Char) : List String :=
  ((rest.reverse.dropWhile fun c => c = '/').reverse.splitOn '/').map String.ofList

/-- The artifact that a URL leads to. -/
def parseGithubArtifactUrl (url segment : String) : Fallible ArtifactRef := do
  bailIf (Text.startsWith url "https://github.com/" = false)
    s!"expected GitHub URL, got `{url}`"
  match pathParts (url.toList.drop 19) with
  | [owner, repo, part, number] =>
    if part = segment then
      match parseUnsigned (2 ^ 64) number.toList with
      | some n => Except.ok ⟨owner, repo, n⟩
      | none => bail s!"parsing GitHub artifact number from `{url}`"
    else bail s!"expected GitHub {segment} URL, got `{url}`"
  | _ => bail s!"expected GitHub {segment} URL, got `{url}`"

/-- The part of a URL that tells its kind. -/
def ArtifactKind.segment : ArtifactKind → String
  | pr => "pull"
  | issue => "issues"

/-- The candidate of one of a row's URLs, if it has it. -/
def candidateOf (kind : ArtifactKind) (session : SessionRecord) (target : TargetRecord)
    (url : Option String) : Fallible (List ArtifactCandidate) :=
  match url with
  | none => Except.ok []
  | some url => do
    let ref ← parseGithubArtifactUrl url kind.segment
    return [⟨kind, session, target, url, ref⟩]

/-- The candidates of a row: its pull request, then its issue. -/
def candidatesOf (p : SessionRecord × TargetRecord) :
    Fallible (List ArtifactCandidate) := do
  let prs ← candidateOf ArtifactKind.pr p.1 p.2 p.2.prUrl
  let issues ← candidateOf ArtifactKind.issue p.1 p.2 p.2.issueUrl
  return prs ++ issues

/-- The rows of all sessions, each with its session. -/
def rowsOf (sessions : List SessionRecord) : List (SessionRecord × TargetRecord) :=
  sessions.flatMap fun session => session.targets.map fun target => (session, target)

/-- The candidates of all sessions, in ledger order. -/
def candidatesFromSessions (sessions : List SessionRecord) :
    Fallible (List ArtifactCandidate) := do
  let candidates ← (rowsOf sessions).mapM candidatesOf
  return candidates.flatten

/-! ## What is known of an artifact -/

/-- What the events about an artifact come to. -/
structure ArtifactProjection where
  terminal : Bool
  headSha : Option String
  headRefDeletedEmitted : Bool
  staleEmitted : Bool
  lastUpdatedAt : Option String
  deriving DecidableEq

namespace ArtifactProjection

/-- Nothing is known yet. -/
def default : ArtifactProjection := ⟨false, none, false, false, none⟩

/-- What the kind of an event changes. -/
def afterKind (p : ArtifactProjection) (e : MaintEvent) : ArtifactProjection :=
  match e.kind with
  | MaintEventKind.prOpen | MaintEventKind.issueOpen => p
  | MaintEventKind.prMerged | MaintEventKind.prClosedUnmerged
  | MaintEventKind.issueClosed => { p with terminal := true }
  | MaintEventKind.prForcePushed =>
    { p with headSha := e.headSha, headRefDeletedEmitted := false,
             staleEmitted := false, terminal := false }
  | MaintEventKind.prBranchDeleted =>
    { p with headRefDeletedEmitted := true, terminal := false }
  | MaintEventKind.prStale => { p with staleEmitted := true, terminal := false }

/-- What is known after one more event. -/
def after (p : ArtifactProjection) (e : MaintEvent) : ArtifactProjection :=
  let p := { p with terminal := e.kind.isTerminal, lastUpdatedAt := some e.newState }
  let p := p.afterKind e
  if e.headSha.isSome then { p with headSha := e.headSha } else p

end ArtifactProjection

/-- The events with the artifacts they are about. -/
def eventsByUrl (events : List MaintEvent) : List (String × MaintEvent) :=
  events.filterMap fun e => e.url.map fun url => (url, e)

/-- What is known of each artifact: its events, in file order. -/
def projectEvents (events : List MaintEvent) : ExtTreeMap String ArtifactProjection :=
  accumulate compare Prod.fst (fun p x => p.after x.snd) ArtifactProjection.default
    (eventsByUrl events)

/-- An artifact is over, as far as is known. -/
def isTerminalIn (projections : ExtTreeMap String ArtifactProjection) (url : String) :
    Bool :=
  (projections[url]?.map fun p => p.terminal).getD false

/-- Whether some candidate is not over, so that GitHub is to be asked. -/
def needsGithubQueries (sessions : List SessionRecord) (events : List MaintEvent) :
    Fallible Bool := do
  let candidates ← candidatesFromSessions sessions
  return candidates.any fun c => !isTerminalIn (projectEvents events) c.url

/-! ## Events -/

/-- The state that an event is a change from. -/
def priorStateString (p : ArtifactProjection) : String :=
  if p.terminal then "terminal"
  else if p.headRefDeletedEmitted then "open_branch_deleted"
  else if p.staleEmitted then "open_stale"
  else "open"

/-- Whether an update is too long ago. -/
def isStale (updatedAt : String) (now : SystemTime) (staleAfterDays : ℕ) :
    Fallible Bool := do
  let updated ← parseIsoishUtc updatedAt
  let threshold := min (2 ^ 64 - 1) (staleAfterDays * (24 * 60 * 60))
  return decide ((threshold : ℤ) * 10 ^ 9 < max 0 (now - updated))

/-- An event about a candidate. When it was observed is filled in later. -/
def eventForCandidate (c : ArtifactCandidate) (kind : MaintEventKind)
    (priorState : Option String) (newState : String) (headSha : Option String) :
    MaintEvent where
  kind := kind
  observedAt := ""
  sessionId := c.session.id
  targetId := some c.target.id
  familyId := some c.target.familyId
  fixSignature := some c.target.id
  prUrl := if c.kind = ArtifactKind.pr then some c.url else none
  issueUrl := if c.kind = ArtifactKind.issue then some c.url else none
  priorState := priorState
  newState := newState
  headSha := headSha

/-- Whether the head is known, and another than it was. -/
def headMoved (p : ArtifactProjection) (state : PrState) : Bool :=
  match state.headSha, p.headSha with
  | some headSha, some prior => prior ≠ headSha
  | _, _ => false

/-- What is new about an open pull request that was seen before: another head
first, then a deleted branch, then that nothing happens. -/
def deriveOpenPrEvent (c : ArtifactCandidate) (p : ArtifactProjection) (state : PrState)
    (now : SystemTime) (settings : MaintainSettings) : Fallible (Option MaintEvent) :=
  let prior := some (priorStateString p)
  if headMoved p state then
    Except.ok (some
      (eventForCandidate c MaintEventKind.prForcePushed prior "open" state.headSha))
  else if state.headRefDeleted ∧ p.headRefDeletedEmitted = false then
    Except.ok (some (eventForCandidate c MaintEventKind.prBranchDeleted prior
      "open_branch_deleted" state.headSha))
  else if p.staleEmitted then Except.ok none
  else do
    let stale ← isStale state.updatedAt now settings.staleAfterDays
    return if stale then some
      (eventForCandidate c MaintEventKind.prStale prior "open_stale" state.headSha)
    else none

/-- What is new about a pull request. -/
def derivePrEvent (c : ArtifactCandidate) (projection : Option ArtifactProjection)
    (state : PrState) (now : SystemTime) (settings : MaintainSettings) :
    Fallible (Option MaintEvent) :=
  let prior := projection.map priorStateString
  if state.isMerged then
    Except.ok (some
      (eventForCandidate c MaintEventKind.prMerged prior "merged" state.headSha))
  else if state.isClosedUnmerged then
    Except.ok (some (eventForCandidate c MaintEventKind.prClosedUnmerged prior
      "closed_unmerged" state.headSha))
  else
    match projection with
    | none => Except.ok (if state.isOpen then some
        (eventForCandidate c MaintEventKind.prOpen none "open" state.headSha) else none)
    | some p => deriveOpenPrEvent c p state now settings

/-- What is new about an issue. -/
def deriveIssueEvent (c : ArtifactCandidate) (projection : Option ArtifactProjection)
    (state : IssueLifecycleState) : Option MaintEvent :=
  if state.isClosed then some
    (eventForCandidate c MaintEventKind.issueClosed (projection.map priorStateString)
      "closed" none)
  else if projection = none ∧ state.isOpen = true then some
    (eventForCandidate c MaintEventKind.issueOpen none "open" none)
  else none

/-! ## What is news -/

section News

variable {c : ArtifactCandidate} {projection : Option ArtifactProjection}
  {now : SystemTime} {settings : MaintainSettings} {e : MaintEvent}

/-- **The news about a pull request** in some state, given what is known of
it. -/
inductive PrNews (c : ArtifactCandidate) (state : PrState) :
    Option ArtifactProjection → MaintEvent → Prop where
  | merged (p : Option ArtifactProjection) (hmerged : state.isMerged = true) :
    PrNews c state p (eventForCandidate c MaintEventKind.prMerged
      (p.map priorStateString) "merged" state.headSha)
  | closed (p : Option ArtifactProjection) (hmerged : state.isMerged = false)
    (hclosed : state.isClosedUnmerged = true) :
    PrNews c state p (eventForCandidate c MaintEventKind.prClosedUnmerged
      (p.map priorStateString) "closed_unmerged" state.headSha)
  | opened (hmerged : state.isMerged = false) (hclosed : state.isClosedUnmerged = false) :
    PrNews c state none
      (eventForCandidate c MaintEventKind.prOpen none "open" state.headSha)
  | forcePushed (p : ArtifactProjection) (hmerged : state.isMerged = false)
    (hclosed : state.isClosedUnmerged = false) (hmoved : headMoved p state = true) :
    PrNews c state (some p) (eventForCandidate c MaintEventKind.prForcePushed
      (some (priorStateString p)) "open" state.headSha)
  | branchDeleted (p : ArtifactProjection) (hmerged : state.isMerged = false)
    (hclosed : state.isClosedUnmerged = false)
    (hdeleted : state.headRefDeleted = true ∧ p.headRefDeletedEmitted = false) :
    PrNews c state (some p) (eventForCandidate c MaintEventKind.prBranchDeleted
      (some (priorStateString p)) "open_branch_deleted" state.headSha)
  | stale (p : ArtifactProjection) (hmerged : state.isMerged = false)
    (hclosed : state.isClosedUnmerged = false)
    (hdeleted : ¬ (state.headRefDeleted = true ∧ p.headRefDeletedEmitted = false))
    (hnew : p.staleEmitted = false) :
    PrNews c state (some p) (eventForCandidate c MaintEventKind.prStale
      (some (priorStateString p)) "open_stale" state.headSha)

/-- **The news about an issue** in some state, given what is known of it. -/
inductive IssueNews (c : ArtifactCandidate) (state : IssueLifecycleState) :
    Option ArtifactProjection → MaintEvent → Prop where
  | closed (p : Option ArtifactProjection) (hclosed : state.isClosed = true) :
    IssueNews c state p (eventForCandidate c MaintEventKind.issueClosed
      (p.map priorStateString) "closed" none)
  | opened (hclosed : state.isClosed = false) :
    IssueNews c state none
      (eventForCandidate c MaintEventKind.issueOpen none "open" none)

theorem prNews_of_deriveOpenPrEvent {p : ArtifactProjection} {state : PrState}
    (hmerged : state.isMerged = false) (hclosed : state.isClosedUnmerged = false)
    (h : deriveOpenPrEvent c p state now settings = Except.ok (some e)) :
    PrNews c state (some p) e := by
  unfold deriveOpenPrEvent at h
  dsimp only at h
  split_ifs at h with hmoved hdeleted hstale
  · obtain rfl := Option.some.inj (Except.ok.inj h)
    exact PrNews.forcePushed p hmerged hclosed hmoved
  · obtain rfl := Option.some.inj (Except.ok.inj h)
    exact PrNews.branchDeleted p hmerged hclosed hdeleted
  · simp only [Except.ok.injEq, reduceCtorEq] at h
  · simp only [bind_ok_iff, pure_ok_iff] at h
    obtain ⟨stale, -, hstale'⟩ := h
    cases stale with
    | false => simp at hstale'
    | true =>
      obtain rfl := Option.some.inj hstale'
      exact PrNews.stale p hmerged hclosed hdeleted (Bool.eq_false_of_not_eq_true hstale)

theorem prNews_of_derivePrEvent {state : PrState}
    (h : derivePrEvent c projection state now settings = Except.ok (some e)) :
    PrNews c state projection e := by
  unfold derivePrEvent at h
  dsimp only at h
  cases hmerged : state.isMerged with
  | true =>
    rw [if_pos hmerged] at h
    obtain rfl := Option.some.inj (Except.ok.inj h)
    exact PrNews.merged projection hmerged
  | false =>
    rw [if_neg (by simp [hmerged])] at h
    cases hclosed : state.isClosedUnmerged with
    | true =>
      rw [if_pos hclosed] at h
      obtain rfl := Option.some.inj (Except.ok.inj h)
      exact PrNews.closed projection hmerged hclosed
    | false =>
      rw [if_neg (by simp [hclosed])] at h
      cases projection with
      | some p => exact prNews_of_deriveOpenPrEvent hmerged hclosed h
      | none =>
        dsimp only at h
        split_ifs at h with hopen
        · obtain rfl := Option.some.inj (Except.ok.inj h)
          exact PrNews.opened hmerged hclosed
        · simp only [Except.ok.injEq, reduceCtorEq] at h

theorem issueNews_of_deriveIssueEvent {state : IssueLifecycleState}
    (h : deriveIssueEvent c projection state = some e) :
    IssueNews c state projection e := by
  unfold deriveIssueEvent at h
  split_ifs at h with hclosed hopen
  · obtain rfl := Option.some.inj h
    exact IssueNews.closed projection hclosed
  · obtain rfl := Option.some.inj h
    rw [hopen.left]
    exact IssueNews.opened (Bool.eq_false_of_not_eq_true hclosed)

end News

/-! ## One call -/

/-- An artifact to be tried again by a later call. -/
structure DeferredArtifact where
  url : String
  reason : String
  deriving DecidableEq

/-- What a call comes to. -/
structure ReconcileOutcome where
  newEvents : List MaintEvent
  deferred : List DeferredArtifact
  queried : ℕ
  deriving DecidableEq

/-- What one read tells. -/
inductive Observation where
  /-- Few requests are left. -/
  | lowRate
  /-- Something new, or nothing. -/
  | event (e : Option MaintEvent)
  deriving DecidableEq

/-- What a read is answered with, unless few requests are left. -/
def observation {α : Type} (read : GhStateRead α) (floorPct : ℕ)
    (derive : α → Fallible (Option MaintEvent)) : Fallible Observation :=
  if read.rateLimit.belowFloorPct floorPct then Except.ok Observation.lowRate
  else do
    let e ← derive read.state
    return Observation.event e

/-- The surroundings of a call. -/
structure MaintainReconciler where
  gh : GhReads
  settings : MaintainSettings
  now : SystemTime

namespace MaintainReconciler

variable (m : MaintainReconciler)

/-- Ask about a candidate, as the `k`-th read, and see what is new. -/
def observe (projections : ExtTreeMap String ArtifactProjection) (k : ℕ)
    (c : ArtifactCandidate) : Fallible Observation :=
  match c.kind with
  | ArtifactKind.pr => do
    let read ← (m.gh.queryPrState k c.ref.owner c.ref.repo c.ref.number).context
      s!"querying PR {c.url}"
    observation read m.settings.secondaryRateLimitFloorPct fun state =>
      derivePrEvent c projections[c.url]? state m.now m.settings
  | ArtifactKind.issue => do
    let read ← (m.gh.queryIssueState k c.ref.owner c.ref.repo c.ref.number).context
      s!"querying issue {c.url}"
    observation read m.settings.secondaryRateLimitFloorPct fun state =>
      Except.ok (deriveIssueEvent c projections[c.url]? state)

/-- An event, with the time of the call. -/
def stamp (e : MaintEvent) : MaintEvent :=
  { e with observedAt := formatSystemTime m.now }

end MaintainReconciler

/-- Put artifacts off. -/
def ReconcileOutcome.defer (o : ReconcileOutcome) (cs : List ArtifactCandidate)
    (reason : String) : ReconcileOutcome :=
  { o with deferred := o.deferred ++ cs.map fun c => ⟨c.url, reason⟩ }

/-- One read more, and what it told. -/
def ReconcileOutcome.note (o : ReconcileOutcome) (e : Option MaintEvent) :
    ReconcileOutcome :=
  { o with queried := o.queried + 1, newEvents := o.newEvents ++ e.toList }

namespace MaintainReconciler

variable (m : MaintainReconciler)

/-- The loop over the candidates: which ones GitHub was asked about, and what
it comes to, if no read fails. -/
def reconcileFrom (projections : ExtTreeMap String ArtifactProjection) (limit : ℕ) :
    ReconcileOutcome → List ArtifactCandidate →
      List ArtifactCandidate × Fallible ReconcileOutcome
  | o, [] => ([], Except.ok o)
  | o, c :: cs =>
    if isTerminalIn projections c.url then reconcileFrom projections limit o cs
    else if limit ≤ o.queried then
      reconcileFrom projections limit (o.defer [c] "limit") cs
    else
      match m.observe projections o.queried c with
      | Except.error e => ([c], Except.error e)
      | Except.ok Observation.lowRate =>
        ([c], Except.ok ((o.note none).defer (c :: cs) "rate-limit-floor"))
      | Except.ok (Observation.event e) =>
        let rest := reconcileFrom projections limit (o.note (e.map m.stamp)) cs
        (c :: rest.1, rest.2)

/-- Compare the archived artifacts with GitHub. -/
def reconcile (sessions : List SessionRecord) (events : List MaintEvent) (limit : ℕ) :
    List ArtifactCandidate × Fallible ReconcileOutcome :=
  match candidatesFromSessions sessions with
  | Except.error e => ([], Except.error e)
  | Except.ok candidates =>
    m.reconcileFrom (projectEvents events) limit ⟨[], [], 0⟩ candidates

end MaintainReconciler

/-! ## How far a call gets -/

/-- The candidates that are not over. -/
def alive (projections : ExtTreeMap String ArtifactProjection)
    (cs : List ArtifactCandidate) : List ArtifactCandidate :=
  cs.filter fun c => !isTerminalIn projections c.url

namespace MaintainReconciler

variable (m : MaintainReconciler) (projections : ExtTreeMap String ArtifactProjection)

/-- A read is answered, and does not say that few requests are left. -/
def Processed (k : ℕ) (c : ArtifactCandidate) : Prop :=
  ∃ e, m.observe projections k c = Except.ok (Observation.event e)

/-- The reads of candidates that follow each other are. -/
def AllProcessed : ℕ → List ArtifactCandidate → Prop
  | _, [] => True
  | k, c :: cs => m.Processed projections k c ∧ AllProcessed (k + 1) cs

/-- What a read brings that is new. -/
def newEvent (k : ℕ) (c : ArtifactCandidate) : Option MaintEvent :=
  match m.observe projections k c with
  | Except.ok (Observation.event e) => e.map m.stamp
  | _ => none

/-- What the reads of candidates that follow each other bring. -/
def emitted : ℕ → List ArtifactCandidate → List MaintEvent
  | _, [] => []
  | k, c :: cs => (m.newEvent projections k c).toList ++ emitted (k + 1) cs

/-- The outcome after some reads more. -/
def noteAll (o : ReconcileOutcome) (cs : List ArtifactCandidate) : ReconcileOutcome :=
  { o with queried := o.queried + cs.length,
           newEvents := o.newEvents ++ m.emitted projections o.queried cs }

/-- The loop comes to ask about a candidate, after those in front of it. -/
structure Reaches (limit k : ℕ) (pre : List ArtifactCandidate) (c : ArtifactCandidate) :
    Prop where
  notTerminal : isTerminalIn projections c.url = false
  withinLimit : k + (alive projections pre).length < limit
  processed : m.AllProcessed projections k (alive projections pre)

end MaintainReconciler

section Alive

variable {projections : ExtTreeMap String ArtifactProjection}
  {cs pre : List ArtifactCandidate} {c : ArtifactCandidate}

@[simp] theorem alive_nil : alive projections [] = [] := rfl

theorem alive_cons_of_terminal (h : isTerminalIn projections c.url = true) :
    alive projections (c :: cs) = alive projections cs := by
  unfold alive
  rw [List.filter_cons_of_neg (by simp [h])]

theorem alive_cons_of_not (h : isTerminalIn projections c.url = false) :
    alive projections (c :: cs) = c :: alive projections cs := by
  unfold alive
  rw [List.filter_cons_of_pos (by simp [h])]

@[simp] theorem alive_append :
    alive projections (pre ++ cs) = alive projections pre ++ alive projections cs :=
  List.filter_append pre cs

theorem mem_alive : c ∈ alive projections cs
    ↔ c ∈ cs ∧ isTerminalIn projections c.url = false := by
  simp [alive]

variable (projections cs) in
/-- The candidates that are over and those that are not are all of them. -/
theorem length_alive_add :
    (alive projections cs).length
        + (cs.filter fun c => isTerminalIn projections c.url).length
      = cs.length := by
  induction cs with
  | nil => rfl
  | cons c cs ih =>
    cases h : isTerminalIn projections c.url with
    | true =>
      rw [alive_cons_of_terminal h, List.filter_cons_of_pos (by simp [h]),
        List.length_cons, List.length_cons]
      omega
    | false =>
      rw [alive_cons_of_not h, List.filter_cons_of_neg (by simp [h]),
        List.length_cons, List.length_cons]
      omega

theorem alive_eq_self_iff :
    (alive projections cs).length = cs.length
      ↔ ∀ d ∈ cs, isTerminalIn projections d.url = false := by
  unfold alive
  rw [List.length_filter_eq_length_iff]
  simp

/-- An element that is not over has its place among all candidates. -/
theorem exists_split_of_alive {l l' : List ArtifactCandidate}
    (h : alive projections cs = l ++ c :: l') :
    ∃ pre post, cs = pre ++ c :: post ∧ alive projections pre = l
      ∧ isTerminalIn projections c.url = false := by
  unfold alive at h
  obtain ⟨l₁, l₂, rfl, hl₁, hl₂⟩ := List.filter_eq_append_iff.mp h
  obtain ⟨l₃, l₄, rfl, hl₃, hc, -⟩ := List.filter_eq_cons_iff.mp hl₂
  refine ⟨l₁ ++ l₃, l₄, by rw [List.append_assoc], ?_, by simpa using hc⟩
  rw [alive_append, alive, hl₁, alive, List.filter_eq_nil_iff.mpr (by simpa using hl₃),
    List.append_nil]

end Alive

namespace MaintainReconciler

variable {m : MaintainReconciler} {projections : ExtTreeMap String ArtifactProjection}
  {limit : ℕ} {o : ReconcileOutcome} {cs pre : List ArtifactCandidate}
  {c : ArtifactCandidate}

theorem reconcileFrom_of_terminal (h : isTerminalIn projections c.url = true) :
    m.reconcileFrom projections limit o (c :: cs)
      = m.reconcileFrom projections limit o cs := by
  rw [reconcileFrom, if_pos h]

/-- Once the limit is reached, everything that is left and not over is
deferred. -/
theorem reconcileFrom_of_limit (h : limit ≤ o.queried) :
    m.reconcileFrom projections limit o cs
      = ([], Except.ok (o.defer (alive projections cs) "limit")) := by
  induction cs generalizing o with
  | nil => simp [reconcileFrom, ReconcileOutcome.defer]
  | cons c cs ih =>
    cases hc : isTerminalIn projections c.url with
    | true => rw [reconcileFrom_of_terminal hc, ih h, alive_cons_of_terminal hc]
    | false =>
      rw [reconcileFrom, if_neg (by simp [hc]), if_pos h, ih (o := o.defer [c] "limit") h,
        alive_cons_of_not hc]
      simp [ReconcileOutcome.defer]

/-- A candidate that is not over is asked about, within the limit. -/
theorem reconcileFrom_of_query (hc : isTerminalIn projections c.url = false)
    (hlimit : o.queried < limit) :
    m.reconcileFrom projections limit o (c :: cs)
      = match m.observe projections o.queried c with
        | Except.error e => ([c], Except.error e)
        | Except.ok Observation.lowRate =>
          ([c], Except.ok ((o.note none).defer (c :: cs) "rate-limit-floor"))
        | Except.ok (Observation.event e) =>
          let rest := m.reconcileFrom projections limit (o.note (e.map m.stamp)) cs
          (c :: rest.1, rest.2) := by
  rw [reconcileFrom, if_neg (by simp [hc]), if_neg (by omega)]

/-- **What comes before a candidate is behind the loop when it is reached**:
its reads are made and their events noted. -/
theorem reconcileFrom_append (hlimit : o.queried + (alive projections pre).length ≤ limit)
    (hpre : m.AllProcessed projections o.queried (alive projections pre)) :
    m.reconcileFrom projections limit o (pre ++ cs)
      = (alive projections pre
            ++ (m.reconcileFrom projections limit
                (m.noteAll projections o (alive projections pre)) cs).1,
          (m.reconcileFrom projections limit
            (m.noteAll projections o (alive projections pre)) cs).2) := by
  induction pre generalizing o with
  | nil => simp [noteAll, emitted]
  | cons d pre ih =>
    cases hd : isTerminalIn projections d.url with
    | true =>
      rw [alive_cons_of_terminal hd] at hlimit hpre ⊢
      rw [List.cons_append, reconcileFrom_of_terminal hd, ih hlimit hpre]
    | false =>
      rw [alive_cons_of_not hd] at hlimit hpre ⊢
      rw [List.length_cons] at hlimit
      obtain ⟨⟨e, he⟩, hrest⟩ := hpre
      have hnote : m.noteAll projections (o.note (e.map m.stamp)) (alive projections pre)
          = m.noteAll projections o (d :: alive projections pre) := by
        unfold noteAll ReconcileOutcome.note
        simp only [emitted, newEvent, he, List.length_cons, List.append_assoc,
          Nat.add_assoc, Nat.add_comm 1]
      rw [List.cons_append, reconcileFrom_of_query hd (by omega), he]
      dsimp only
      rw [ih (o := o.note (e.map m.stamp)) (by show o.queried + 1 + _ ≤ limit; omega) hrest,
        hnote]
      rfl

/-- Where nothing is left that is not over, nothing happens. -/
theorem reconcileFrom_of_alive_nil (h : alive projections cs = []) :
    m.reconcileFrom projections limit o cs = ([], Except.ok o) := by
  induction cs with
  | nil => rw [reconcileFrom]
  | cons c cs ih =>
    cases hc : isTerminalIn projections c.url with
    | true =>
      rw [alive_cons_of_terminal hc] at h
      rw [reconcileFrom_of_terminal hc, ih h]
    | false =>
      rw [alive_cons_of_not hc] at h
      cases h

/-- A candidate in front that is over changes nothing about what is reached. -/
theorem Reaches.cons_terminal {k : ℕ} {d : ArtifactCandidate}
    (hd : isTerminalIn projections d.url = true)
    (h : m.Reaches projections limit k pre c) :
    m.Reaches projections limit k (d :: pre) c where
  notTerminal := h.notTerminal
  withinLimit := by
    rw [alive_cons_of_terminal hd]
    exact h.withinLimit
  processed := by
    rw [alive_cons_of_terminal hd]
    exact h.processed

/-- One that is processed is a read more. -/
theorem Reaches.cons_processed {k : ℕ} {d : ArtifactCandidate}
    (hd : isTerminalIn projections d.url = false) (hproc : m.Processed projections k d)
    (h : m.Reaches projections limit (k + 1) pre c) :
    m.Reaches projections limit k (d :: pre) c where
  notTerminal := h.notTerminal
  withinLimit := by
    rw [alive_cons_of_not hd, List.length_cons]
    have hlt := h.withinLimit
    omega
  processed := by
    rw [alive_cons_of_not hd]
    exact ⟨hproc, h.processed⟩

/-- Going through the candidates, either one is reached whose read is not
processed, or all reads are processed until the limit or the end. -/
theorem exists_stop {k : ℕ} (hk : k ≤ limit) (cs : List ArtifactCandidate) :
    (∃ pre c post, cs = pre ++ c :: post ∧ m.Reaches projections limit k pre c
        ∧ ¬ m.Processed projections (k + (alive projections pre).length) c)
      ∨ ∃ pre rest, cs = pre ++ rest
        ∧ k + (alive projections pre).length ≤ limit
        ∧ m.AllProcessed projections k (alive projections pre)
        ∧ (alive projections rest = []
          ∨ limit ≤ k + (alive projections pre).length) := by
  induction cs generalizing k with
  | nil => exact Or.inr ⟨[], [], rfl, hk, trivial, Or.inl rfl⟩
  | cons d cs ih =>
    cases hd : isTerminalIn projections d.url with
    | true =>
      rcases ih hk with ⟨pre, c, post, rfl, hreach, hnot⟩ | ⟨pre, rest, rfl, hle, hall, hstop⟩
      · refine Or.inl ⟨d :: pre, c, post, rfl, hreach.cons_terminal hd, ?_⟩
        rw [alive_cons_of_terminal hd]
        exact hnot
      · refine Or.inr ⟨d :: pre, rest, rfl, ?_⟩
        rw [alive_cons_of_terminal hd]
        exact ⟨hle, hall, hstop⟩
    | false =>
      -- a live candidate is read only below the limit
      by_cases hlimit : limit ≤ k
      · exact Or.inr ⟨[], d :: cs, rfl, hk, trivial, Or.inr hlimit⟩
      by_cases hproc : m.Processed projections k d
      · have hlen : ∀ pre, k + (alive projections (d :: pre)).length
            = k + 1 + (alive projections pre).length := by
          intro pre
          rw [alive_cons_of_not hd, List.length_cons]
          omega
        rcases ih (k := k + 1) (by omega) with ⟨pre, c, post, rfl, hreach, hnot⟩
          | ⟨pre, rest, rfl, hle, hall, hstop⟩
        · refine Or.inl ⟨d :: pre, c, post, rfl, hreach.cons_processed hd hproc, ?_⟩
          rw [hlen]
          exact hnot
        · refine Or.inr ⟨d :: pre, rest, rfl, ?_⟩
          rw [hlen]
          refine ⟨hle, ?_, hstop⟩
          rw [alive_cons_of_not hd]
          exact ⟨hproc, hall⟩
      · exact Or.inl ⟨[], d, cs, rfl, ⟨hd, by simpa using hlimit, trivial⟩, hproc⟩

/-- A candidate that is reached is asked about, after all those in front of it
that are not over. -/
theorem reconcileFrom_of_reaches (h : m.Reaches projections limit o.queried pre c)
    (post : List ArtifactCandidate) :
    m.reconcileFrom projections limit o (pre ++ c :: post)
      = match m.observe projections (o.queried + (alive projections pre).length) c with
        | Except.error e => (alive projections pre ++ [c], Except.error e)
        | Except.ok Observation.lowRate =>
          (alive projections pre ++ [c], Except.ok
            (((m.noteAll projections o (alive projections pre)).note none).defer
              (c :: post) "rate-limit-floor"))
        | Except.ok (Observation.event e) =>
          let rest := m.reconcileFrom projections limit
            ((m.noteAll projections o (alive projections pre)).note (e.map m.stamp)) post
          (alive projections pre ++ c :: rest.1, rest.2) := by
  have hlt := h.withinLimit
  rw [reconcileFrom_append (by omega) h.processed,
    reconcileFrom_of_query h.notTerminal (by show o.queried + _ < limit; exact hlt)]
  rw [show (m.noteAll projections o (alive projections pre)).queried
    = o.queried + (alive projections pre).length from rfl]
  cases m.observe projections (o.queried + (alive projections pre).length) c with
  | error e => rfl
  | ok obs =>
    cases obs with
    | lowRate => rfl
    | event e => rfl

variable (m projections o) in
/-- **A call ends in one of three ways.** A read fails; or few requests are
left; or all candidates are gone through, and those beyond the limit are
deferred. -/
theorem reconcileFrom_cases (hk : o.queried ≤ limit) (cs : List ArtifactCandidate) :
    (∃ pre c post e, cs = pre ++ c :: post ∧ m.Reaches projections limit o.queried pre c
        ∧ m.reconcileFrom projections limit o cs
          = (alive projections pre ++ [c], Except.error e))
      ∨ (∃ pre c post, cs = pre ++ c :: post
        ∧ m.Reaches projections limit o.queried pre c
        ∧ m.observe projections (o.queried + (alive projections pre).length) c
          = Except.ok Observation.lowRate
        ∧ m.reconcileFrom projections limit o cs
          = (alive projections pre ++ [c], Except.ok
              (((m.noteAll projections o (alive projections pre)).note none).defer
                (c :: post) "rate-limit-floor")))
      ∨ ∃ pre rest, cs = pre ++ rest
        ∧ o.queried + (alive projections pre).length ≤ limit
        ∧ m.AllProcessed projections o.queried (alive projections pre)
        ∧ (alive projections rest = []
          ∨ limit ≤ o.queried + (alive projections pre).length)
        ∧ m.reconcileFrom projections limit o cs
          = (alive projections pre, Except.ok
              ((m.noteAll projections o (alive projections pre)).defer
                (alive projections rest) "limit")) := by
  rcases exists_stop hk cs with ⟨pre, c, post, rfl, hreach, hnot⟩
    | ⟨pre, rest, rfl, hle, hall, hstop⟩
  · have hr := reconcileFrom_of_reaches hreach post
    cases hobs : m.observe projections (o.queried + (alive projections pre).length) c with
    | error e =>
      rw [hobs] at hr
      exact Or.inl ⟨pre, c, post, e, rfl, hreach, hr⟩
    | ok obs =>
      cases obs with
      | event e => exact absurd ⟨e, hobs⟩ hnot
      | lowRate =>
        rw [hobs] at hr
        exact Or.inr (Or.inl ⟨pre, c, post, rfl, hreach, hobs, hr⟩)
  · refine Or.inr (Or.inr ⟨pre, rest, rfl, hle, hall, hstop, ?_⟩)
    rw [reconcileFrom_append hle hall]
    rcases hstop with hnil | hlimit
    · rw [reconcileFrom_of_alive_nil hnil, hnil, List.append_nil]
      simp [ReconcileOutcome.defer]
    · rw [reconcileFrom_of_limit (by show limit ≤ o.queried + _; exact hlimit),
        List.append_nil]

/-! ## What a read brings -/

theorem observation_event_iff {α : Type} {read : GhStateRead α} {floorPct : ℕ}
    {derive : α → Fallible (Option MaintEvent)} {e : Option MaintEvent} :
    observation read floorPct derive = Except.ok (Observation.event e)
      ↔ read.rateLimit.belowFloorPct floorPct = false
        ∧ derive read.state = Except.ok e := by
  unfold observation
  split_ifs with hlow
  · simp [hlow]
  · simp only [bind_ok_iff, pure_ok_iff, Observation.event.injEq, exists_eq_right,
      Bool.eq_false_of_not_eq_true hlow, true_and]

theorem observation_lowRate_iff {α : Type} {read : GhStateRead α} {floorPct : ℕ}
    {derive : α → Fallible (Option MaintEvent)} :
    observation read floorPct derive = Except.ok Observation.lowRate
      ↔ read.rateLimit.belowFloorPct floorPct = true := by
  unfold observation
  split_ifs with hlow
  · simp [hlow]
  · -- what is derived is an event, or nothing, or an error
    cases derive read.state <;> simp [hlow]

/-- **What a read brings is news about the state that was read.** -/
theorem newEvent_cases {k : ℕ} {e : MaintEvent}
    (h : m.newEvent projections k c = some e) :
    (c.kind = ArtifactKind.pr ∧ ∃ read e₀,
        m.gh.queryPrState k c.ref.owner c.ref.repo c.ref.number = Except.ok read
          ∧ PrNews c read.state projections[c.url]? e₀ ∧ e = m.stamp e₀)
      ∨ (c.kind = ArtifactKind.issue ∧ ∃ read e₀,
        m.gh.queryIssueState k c.ref.owner c.ref.repo c.ref.number = Except.ok read
          ∧ IssueNews c read.state projections[c.url]? e₀ ∧ e = m.stamp e₀) := by
  unfold newEvent at h
  split at h
  case h_2 => cases h
  case h_1 o hobs =>
    obtain ⟨e₀, rfl, rfl⟩ := Option.map_eq_some_iff.mp h
    unfold observe at hobs
    cases hkind : c.kind with
    | pr =>
      rw [hkind] at hobs
      simp only [bind_ok_iff, context_ok_iff, observation_event_iff] at hobs
      obtain ⟨read, hread, -, hderive⟩ := hobs
      exact Or.inl ⟨rfl, read, e₀, hread, prNews_of_derivePrEvent hderive, rfl⟩
    | issue =>
      rw [hkind] at hobs
      simp only [bind_ok_iff, context_ok_iff, observation_event_iff] at hobs
      obtain ⟨read, hread, -, hderive⟩ := hobs
      exact Or.inr ⟨rfl, read, e₀, hread,
        issueNews_of_deriveIssueEvent (Except.ok.inj hderive), rfl⟩

/-- An event about a candidate carries its URL. -/
theorem url_newEvent {k : ℕ} {e : MaintEvent}
    (h : m.newEvent projections k c = some e) : e.url = some c.url := by
  rcases newEvent_cases h with ⟨hkind, read, e₀, -, hnews, rfl⟩
    | ⟨hkind, read, e₀, -, hnews, rfl⟩
  · generalize projections[c.url]? = p at hnews
    cases hnews <;> simp [MaintEvent.url, stamp, eventForCandidate, hkind]
  · generalize projections[c.url]? = p at hnews
    cases hnews <;> simp [MaintEvent.url, stamp, eventForCandidate, hkind]

/-- What a call brings is about the candidates it processed, in their
order. -/
theorem url_emitted_sublist (k : ℕ) (cs : List ArtifactCandidate) :
    ((m.emitted projections k cs).map MaintEvent.url).Sublist
      (cs.map fun c => some c.url) := by
  induction cs generalizing k with
  | nil => exact List.Sublist.refl []
  | cons c cs ih =>
    rw [emitted, List.map_append, List.map_cons]
    cases hnew : m.newEvent projections k c with
    | none => exact (ih (k + 1)).cons _
    | some e =>
      rw [Option.toList_some, List.map_singleton, url_newEvent hnew]
      exact (ih (k + 1)).cons_cons _

theorem AllProcessed.of_append {k : ℕ} {l l' : List ArtifactCandidate}
    (h : m.AllProcessed projections k (l ++ l')) :
    m.AllProcessed projections k l ∧ m.AllProcessed projections (k + l.length) l' := by
  induction l generalizing k with
  | nil => exact ⟨trivial, h⟩
  | cons d l ih =>
    rw [List.length_cons, show k + (l.length + 1) = k + 1 + l.length by omega]
    exact ⟨⟨h.left, (ih h.right).left⟩, (ih h.right).right⟩

/-- One of several processed candidates was reached. -/
theorem reaches_of_processed {k : ℕ} {l l' : List ArtifactCandidate}
    (hlimit : k + (alive projections cs).length ≤ limit)
    (hall : m.AllProcessed projections k (alive projections cs))
    (hsplit : alive projections cs = l ++ c :: l') :
    ∃ pre post, cs = pre ++ c :: post ∧ alive projections pre = l
      ∧ m.Reaches projections limit k pre c := by
  obtain ⟨pre, post, rfl, hpre, hc⟩ := exists_split_of_alive hsplit
  rw [hsplit] at hlimit hall
  refine ⟨pre, post, rfl, hpre, hc, ?_, ?_⟩
  · rw [hpre]
    rw [List.length_append, List.length_cons] at hlimit
    omega
  · rw [hpre]
    exact hall.of_append.left

end MaintainReconciler
