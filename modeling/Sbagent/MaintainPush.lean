import Sbagent.BotCommits
import Sbagent.LedgerFiles
import Sbagent.Reconcile
import Sbagent.Runs

/-!
# Recording what became of pull requests and issues

A run of `sbagent maintain` appends the events it has found to `maintain.jsonl`,
commits the file and pushes the commit. It may fail or be stopped at each of these
steps, and then there are events that only the local file has. The next run that
finds something new takes them along. One that finds nothing new goes by the local
file, in which those events are, and has nothing to do: it reports success, and the
events stay where they are.
-/

open Fallible Git Jsonl

/-- The URL of a remote is one that the token is sent to. -/
def validateAuthUrl (url authUrlPrefix label : String) : Fallible Unit :=
  if authUrlPrefix = "" then
    bailIf (Text.startsWith url "https://" = false)
      (s!"{label} must be an `https://` URL (got `{url}`); the PAT-via-env auth mechanism "
        ++ "only attaches a Basic credential over HTTPS. (`git.auth_url_prefix = \"\"` is "
        ++ "set, so any HTTPS host is accepted — fix the URL to use HTTPS or switch to SSH "
        ++ "and authenticate out-of-band.)")
  else
    bailIf (Text.startsWith url authUrlPrefix = false)
      (s!"{label} must start with `{authUrlPrefix}` (got `{url}`); the PAT-via-env auth "
        ++ s!"mechanism uses `http.{authUrlPrefix}.extraheader` and git won't apply it to "
        ++ "URLs outside that prefix. Either change the URL to match "
        ++ "`git.auth_url_prefix`, change `git.auth_url_prefix` in config to your forge's "
        ++ "HTTPS root, or authenticate manually.")

/-- The path of the ledger. -/
def maintainJsonl : RepoPath := ["maintain.jsonl"]

/-- What the push needs, and how it ends. -/
structure PushEnds where
  token : Fallible Unit
  /-- The branch that the worktree is on; `HEAD` if it is on none. -/
  branch : Fallible String
  remoteUrl : Fallible String
  authUrlPrefix : Fallible String
  push : Fallible Unit
  deriving DecidableEq

/-- A run of `sbagent maintain`: its arguments, what it reads, and how everything ends
that it calls. A process that is stopped is one whose next call fails: nothing comes
after it, and nothing is reported. -/
structure MaintainRun where
  since : Option String
  dryRun : Bool
  limit : ℕ
  sessions : Fallible (List SessionRecord)
  /-- Reading the token and setting up the client. -/
  connect : Fallible Unit
  reconciler : MaintainReconciler
  append : ℕ → AppendIo
  git : GitEnds
  pushing : PushEnds
  /-- What is left after the push. -/
  finish : Fallible Unit

/-- The operator's repository and the branch of its remote. -/
structure MaintainState where
  repo : Repo RawText
  remote : Git.Tree RawText
  /-- Events were appended, or began to be, and were not pushed since. -/
  interrupted : Bool
  /-- The last run was not a dry run, and reported success. -/
  reported : Bool

/-- The date of a session's start. When it ends inside of a character the program panics,
which is an error here. -/
def startedAtDate (r : SessionRecord) : Fallible String :=
  if 10 ≤ Text.byteLen r.startedAt then
    ofOption ((Slices.takeBytes 10 r.startedAt.toList).map String.ofList)
      "byte index 10 is not a char boundary"
  else return r.startedAt

/-- The sessions since a date, if there is one. -/
def sessionsSince (since : Option String) (records : List SessionRecord) :
    Fallible (List SessionRecord) :=
  match since with
  | none => return records
  | some since => records.filterM fun r => do return decide (since ≤ (← startedAtDate r))

/-- Append events one after the other. -/
def appendAll (c : Serde MaintEvent) (append : ℕ → AppendIo) :
    ℕ → List MaintEvent → Option RawText → Fallible Unit × Option RawText
  | _, [], file => (Except.ok (), file)
  | k, e :: es, file =>
    match appendEvent c (append k) "maintain.jsonl" file e with
    | (Except.error err, file) => (Except.error err, file)
    | (Except.ok (), file) => appendAll c append (k + 1) es file

namespace MaintainRun

variable (c : Serde MaintEvent) (m : MaintainRun)

/-- The events that a run finds, going by the ledger as it is. -/
def news (file : Option RawText) : Fallible (List MaintEvent) := do
  let records ← m.sessions
  let records ← sessionsSince m.since records
  let maintain ← readMaintLedger c "maintain.jsonl" file
  let needed ← needsGithubQueries records maintain.records
  if needed = false then return []
  else
    m.connect
    let outcome ← (m.reconciler.reconcile records maintain.records m.limit).snd
    return outcome.newEvents

/-- Find out where to push, and push. -/
def pushes : Fallible Unit := do
  m.pushing.token
  let branch ← m.pushing.branch.context "reading operator branch"
  bailIf (branch = "HEAD")
    "`sbagent maintain` requires operator repo on a branch, not detached HEAD"
  let url ← m.pushing.remoteUrl.context "reading operator origin URL"
  let authUrlPrefix ← m.pushing.authUrlPrefix
  validateAuthUrl url authUrlPrefix "operator origin"
  m.pushing.push.context "pushing maintain.jsonl commit"

/-- Push the commit. -/
def push (r : Repo RawText) (remote : Git.Tree RawText) : Fallible Unit × Git.Tree RawText :=
  match m.pushes with
  | Except.error e => (Except.error e, remote)
  | Except.ok () => (Except.ok (), r.head)

/-- Commit the ledger and push the commit, if there is one. -/
def commitAndPush (s : MaintainState) : Fallible Unit × MaintainState :=
  match BotCommand.maintain.commit m.git s.repo with
  | (Except.error e, repo) => (Except.error e, { s with repo := repo })
  | (Except.ok CommitOutcome.nothingToCommit, repo) =>
    (Except.ok (), { s with repo := repo })
  | (Except.ok CommitOutcome.committed, repo) =>
    match m.push repo s.remote with
    | (Except.error e, _) => (Except.error e, { s with repo := repo })
    | (Except.ok (), remote) =>
      (m.finish, { s with repo := repo, remote := remote, interrupted := false })

/-- The run. -/
def run (s : MaintainState) : Fallible Unit × MaintainState :=
  match m.news c s.repo.files[maintainJsonl]? with
  | Except.error e => (Except.error e, s)
  | Except.ok events =>
    if m.dryRun = true ∨ events = [] then (Except.ok (), s)
    else
      match appendAll c m.append 0 events s.repo.files[maintainJsonl]? with
      | (Except.error e, file) =>
        (Except.error e,
          { s with repo := s.repo.setFile maintainJsonl file, interrupted := true })
      | (Except.ok (), file) =>
        m.commitAndPush
          { s with repo := s.repo.setFile maintainJsonl file, interrupted := true }

/-- The state after the run. -/
def step (s : MaintainState) (m : MaintainRun) : Option MaintainState :=
  let after := m.run c s
  some { after.snd with reported := !m.dryRun && after.fst.isOk }

end MaintainRun

/-! ## What appending leaves -/

section Appending

variable {c : Serde MaintEvent} {io : AppendIo} {append : ℕ → AppendIo} {path : String}
  {file file' : Option RawText} {e : MaintEvent} {events : List MaintEvent}

/-- An append only adds to the file, even when it fails. -/
theorem prefix_appendEvent :
    file.getD [] <+: (appendEvent c io path file e).snd.getD [] := by
  unfold appendEvent
  split
  case h_1 => exact List.prefix_rfl
  case h_2 =>
    split
    case h_1 => exact List.prefix_rfl
    case h_2 =>
      split
      case h_1 => exact List.prefix_rfl
      case h_2 =>
        split
        case h_1 => exact List.prefix_rfl
        case h_2 =>
          dsimp only [AppendIo.writeAll]
          split
          case h_1 => exact List.prefix_append _ _
          case h_2 => exact List.prefix_append _ _

theorem prefix_appendAll {k : ℕ} :
    file.getD [] <+: (appendAll c append k events file).snd.getD [] := by
  induction events generalizing k file with
  | nil => exact List.prefix_rfl
  | cons e es ih =>
    have hfirst : file.getD []
        <+: (appendEvent c (append k) "maintain.jsonl" file e).snd.getD [] :=
      prefix_appendEvent
    unfold appendAll
    split
    case h_1 h =>
      rw [h] at hfirst
      exact hfirst
    case h_2 h =>
      rw [h] at hfirst
      exact hfirst.trans ih

/-- **When every append succeeds there is more in the file than before.** -/
theorem length_appendAll {k : ℕ} (hne : events ≠ [])
    (h : appendAll c append k events file = (Except.ok (), file')) :
    ∃ raw, file' = some raw ∧ (file.getD []).length < raw.length := by
  cases events with
  | nil => exact absurd rfl hne
  | cons e es =>
    unfold appendAll at h
    split at h
    case h_1 => cases congrArg Prod.fst h
    case h_2 file₁ hfirst =>
      obtain ⟨-, text, -, rfl⟩ := appendEvent_ok hfirst
      have hrest : (some (file.getD [] ++ line text)).getD [] <+: (appendAll c append (k + 1)
          es (some (file.getD [] ++ line text))).snd.getD [] := prefix_appendAll
      rw [h] at hrest
      have hlen := hrest.length_le
      have hline : (line text).length = text.toList.length + 1 := by
        rw [line, ofString, List.length_append, List.length_map, List.length_singleton]
      rw [Option.getD_some, List.length_append, hline] at hlen
      cases file' with
      | none =>
        rw [Option.getD_none, List.length_nil] at hlen
        omega
      | some raw =>
        rw [Option.getD_some] at hlen
        exact ⟨raw, rfl, by omega⟩

end Appending

/-! ## What a run leaves -/

/-- The events of a ledger. -/
def eventsOf (c : Serde MaintEvent) (file : Option RawText) : List MaintEvent :=
  records (MaintEvent.fromLedgerLine c) (file.getD [])

namespace MaintainState

/-- Every event of the local ledger is on the remote. -/
def Durable (c : Serde MaintEvent) (s : MaintainState) : Prop :=
  ∀ e ∈ eventsOf c s.repo.files[maintainJsonl]?, e ∈ eventsOf c s.remote[maintainJsonl]?

/-- The ledger is committed and pushed. -/
structure Synced (s : MaintainState) : Prop where
  committed : s.repo.head[maintainJsonl]? = s.repo.files[maintainJsonl]?
  pushed : s.remote[maintainJsonl]? = s.repo.files[maintainJsonl]?
  notReported : s.reported = false

/-- What every run keeps: the commit has no more of the ledger than the file; nothing
waits to be pushed unless something was interrupted, nor after success was reported. -/
structure Inv (s : MaintainState) : Prop where
  headShort : (s.repo.head[maintainJsonl]?.getD []).length
    ≤ (s.repo.files[maintainJsonl]?.getD []).length
  pushed : s.interrupted = false →
    s.remote[maintainJsonl]? = s.repo.files[maintainJsonl]?
  reported : s.reported = true → s.interrupted = false

theorem Synced.inv {s : MaintainState} (h : s.Synced) : s.Inv where
  headShort := by rw [h.committed]
  pushed _ := h.pushed
  reported hreported := by
    rw [h.notReported] at hreported
    cases hreported

theorem Inv.durable {c : Serde MaintEvent} {s : MaintainState} (h : s.Inv)
    (hreported : s.reported = true) : s.Durable c := by
  intro e he
  rw [h.pushed (h.reported hreported)]
  exact he

end MaintainState

namespace MaintainRun

section Run

variable {c : Serde MaintEvent} {m : MaintainRun} {s s' : MaintainState}
  {outcome : Fallible Unit}

/-- A run that finds nothing to append reports success. -/
theorem step_of_no_news (hdry : m.dryRun = false)
    (hnews : m.news c s.repo.files[maintainJsonl]? = Except.ok []) :
    m.step c s = some { s with reported := true } := by
  have hrun : m.run c s = (Except.ok (), s) := by
    unfold run
    rw [hnews]
    exact if_pos (Or.inr rfl)
  unfold step
  rw [hrun, hdry]
  rfl

/-- **Committing a ledger that has grown, and pushing.** The commit has no more than
the file, and when nothing is interrupted any more the remote has the same. -/
theorem commitAndPush_spec {raw : RawText}
    (hfile : s.repo.files[maintainJsonl]? = some raw)
    (hlt : (s.repo.head[maintainJsonl]?.getD []).length < raw.length)
    (hinterrupted : s.interrupted = true) (h : m.commitAndPush s = (outcome, s')) :
    s'.repo.files[maintainJsonl]? = some raw
      ∧ (s'.repo.head[maintainJsonl]?.getD []).length ≤ raw.length
      ∧ (s'.interrupted = false → s'.remote[maintainJsonl]? = some raw)
      ∧ (outcome.isOk = true → s'.interrupted = false) := by
  unfold commitAndPush at h
  split at h
  case h_1 e repo hcommit =>
    obtain ⟨rfl, rfl⟩ := Prod.mk.inj h
    have hhead := stageAndCommit_head hcommit (fun h => by cases h)
    refine ⟨?_, ?_, fun hnot => ?_, fun hok => by cases hok⟩
    · exact (congrArg (fun files => files[maintainJsonl]?)
        (stageAndCommit_files hcommit)).trans hfile
    · show (repo.head[maintainJsonl]?.getD []).length ≤ _
      rw [hhead]
      exact hlt.le
    · exact absurd (hinterrupted.symm.trans hnot) (by decide)
  case h_2 repo hcommit =>
    -- the file is longer than what was committed, so there is something to commit
    have hhead := stageAndCommit_head hcommit (fun h => by cases h)
    have hsame := stageAndCommit_file hfile rfl hcommit
    rw [hhead] at hsame
    rw [hsame, Option.getD_some] at hlt
    exact absurd hlt (lt_irrefl _)
  case h_3 repo hcommit =>
    have hfiles : repo.files[maintainJsonl]? = some raw :=
      (congrArg (fun files => files[maintainJsonl]?) (stageAndCommit_files hcommit)).trans
        hfile
    have hhead : repo.head[maintainJsonl]? = some raw := stageAndCommit_file hfile rfl hcommit
    have hlen : (repo.head[maintainJsonl]?.getD []).length ≤ raw.length := by
      rw [hhead, Option.getD_some]
    split at h
    case h_1 e remote hpush =>
      obtain ⟨rfl, rfl⟩ := Prod.mk.inj h
      exact ⟨hfiles, hlen, fun hnot => absurd (hinterrupted.symm.trans hnot) (by decide),
        fun hok => by cases hok⟩
    case h_2 remote hpush =>
      obtain ⟨rfl, rfl⟩ := Prod.mk.inj h
      refine ⟨hfiles, hlen, fun _ => ?_, fun _ => rfl⟩
      unfold push at hpush
      split at hpush
      case h_1 => cases congrArg Prod.fst hpush
      case h_2 =>
        obtain rfl := congrArg Prod.snd hpush
        exact hhead

/-- A run that goes wrong before it appends, is a dry run or finds nothing leaves
everything as it is. Otherwise it appends, and then it commits and pushes. -/
theorem run_cases (h : m.run c s = (outcome, s')) :
    (s' = s ∧ (outcome.isOk = true → m.dryRun = true
        ∨ m.news c s.repo.files[maintainJsonl]? = Except.ok []))
      ∨ ∃ events file, events ≠ []
        ∧ ((∃ e, appendAll c m.append 0 events s.repo.files[maintainJsonl]?
              = (Except.error e, file)
            ∧ outcome = Except.error e
            ∧ s' = { s with
                repo := s.repo.setFile maintainJsonl file
                interrupted := true })
          ∨ (appendAll c m.append 0 events s.repo.files[maintainJsonl]?
              = (Except.ok (), file)
            ∧ m.commitAndPush { s with
                repo := s.repo.setFile maintainJsonl file
                interrupted := true } = (outcome, s'))) := by
  unfold run at h
  split at h
  case h_1 e hnews =>
    obtain ⟨rfl, rfl⟩ := Prod.mk.inj h
    exact Or.inl ⟨rfl, fun hok => by cases hok⟩
  case h_2 events hnews =>
    split at h
    case isTrue hnothing =>
      obtain ⟨rfl, rfl⟩ := Prod.mk.inj h
      refine Or.inl ⟨rfl, fun _ => hnothing.imp_right fun hnil => ?_⟩
      rw [hnews, hnil]
    case isFalse hnot =>
      have hne : events ≠ [] := fun hnil => hnot (Or.inr hnil)
      split at h
      case h_1 e file happend =>
        obtain ⟨rfl, rfl⟩ := Prod.mk.inj h
        exact Or.inr ⟨events, file, hne, Or.inl ⟨e, happend, rfl, rfl⟩⟩
      case h_2 file happend => exact Or.inr ⟨events, file, hne, Or.inr ⟨happend, h⟩⟩

/-- **A run keeps the invariant** if it does not find nothing to append while
something is still to be pushed. -/
theorem step_inv (hinv : s.Inv)
    (hok : m.dryRun = false → m.news c s.repo.files[maintainJsonl]? = Except.ok [] →
      s.interrupted = false) (h : m.step c s = some s') : s'.Inv := by
  unfold step at h
  obtain rfl := Option.some.inj h
  generalize hrun : m.run c s = after
  obtain ⟨outcome, t⟩ := after
  dsimp only
  obtain ⟨rfl, hnothing⟩ | ⟨events, file, hne, hwrote⟩ := run_cases hrun
  · refine ⟨hinv.headShort, hinv.pushed, fun hreported => ?_⟩
    obtain ⟨hdry, hisOk⟩ := Bool.and_eq_true_iff.mp hreported
    rw [Bool.not_eq_true'] at hdry
    obtain hdry' | hnil := hnothing hisOk
    · exact absurd (hdry.symm.trans hdry') (by decide)
    · exact hok hdry hnil
  -- an append that failed midway has left some of its lines in the worktree
  obtain ⟨e, happend, rfl, rfl⟩ | ⟨happend, hpush⟩ := hwrote
  · have hgrown : s.repo.files[maintainJsonl]?.getD [] <+: (appendAll c m.append 0 events
        s.repo.files[maintainJsonl]?).snd.getD [] := prefix_appendAll
    rw [happend] at hgrown
    refine ⟨?_, (fun hnot => nomatch hnot), fun hreported => ?_⟩
    · show (s.repo.head[maintainJsonl]?.getD []).length
        ≤ ((s.repo.setFile maintainJsonl file).files[maintainJsonl]?.getD []).length
      rw [Repo.setFile_files]
      exact hinv.headShort.trans hgrown.length_le
    · cases (Bool.and_eq_true_iff.mp hreported).right
  · obtain ⟨raw, rfl, hlonger⟩ := length_appendAll hne happend
    have hfile : (s.repo.setFile maintainJsonl (some raw)).files[maintainJsonl]?
        = some raw := Repo.setFile_files
    have hlt : ((s.repo.setFile maintainJsonl (some raw)).head[maintainJsonl]?.getD []).length
        < raw.length := hinv.headShort.trans_lt hlonger
    obtain ⟨hfiles, hlen, hpushed, hdone⟩ := commitAndPush_spec
      (s := ⟨s.repo.setFile maintainJsonl (some raw), s.remote, true, s.reported⟩)
      hfile hlt rfl hpush
    refine ⟨?_, fun hnot => ?_, fun hreported => ?_⟩
    · show (t.repo.head[maintainJsonl]?.getD []).length
        ≤ (t.repo.files[maintainJsonl]?.getD []).length
      rw [hfiles]
      exact hlen
    · exact (hpushed hnot).trans hfiles.symm
    · exact hdone (Bool.and_eq_true_iff.mp hreported).right

/-- **Maintain is durable in every run that does not find nothing to append while
something is still to be pushed**: whenever a run that is no dry run reports success,
all events of the local ledger are on the remote. -/
theorem maintain_durable {runs : List MaintainRun} (hs : s.Synced)
    (hok : Runs.Throughout (fun s m => m.step c s)
      (fun s m => m.dryRun = false →
        m.news c s.repo.files[maintainJsonl]? = Except.ok [] → s.interrupted = false)
      s runs)
    (hrun : Runs.run (fun s m => m.step c s) s runs = some s')
    (hreported : s'.reported = true) : s'.Durable c :=
  (Runs.run_invariant (fun _ _ _ => step_inv) hs.inv hok hrun).durable hreported

end Run

end MaintainRun

/-! ## A run that was interrupted, and one that finds nothing -/

/-- An open pull request is seen for the first time. -/
def pullOpened : MaintEvent where
  kind := MaintEventKind.prOpen
  observedAt := "2026-06-14T12:34:56Z"
  sessionId := "s1"
  targetId := some "fix"
  familyId := some "family"
  fixSignature := some "fix"
  prUrl := some "https://github.com/o/r/pull/1"
  issueUrl := none
  priorState := none
  newState := "open"
  headSha := some "0123456"

/-- The event as `maintain.jsonl` holds it. -/
def pullOpenedText : String :=
  "\x7b\"schema_version\":1,\"kind\":\"pr_open\","
    ++ "\"observed_at\":\"2026-06-14T12:34:56Z\",\"session_id\":\"s1\","
    ++ "\"target_id\":\"fix\",\"family_id\":\"family\",\"fix_signature\":\"fix\","
    ++ "\"pr_url\":\"https://github.com/o/r/pull/1\",\"new_state\":\"open\","
    ++ "\"head_sha\":\"0123456\"\x7d"

/-- The event as a JSON value. -/
def pullOpenedJson : Json :=
  Json.object [("schema_version", Json.nat 1), ("kind", Json.string "pr_open"),
    ("observed_at", Json.string "2026-06-14T12:34:56Z"), ("session_id", Json.string "s1"),
    ("target_id", Json.string "fix"), ("family_id", Json.string "family"),
    ("fix_signature", Json.string "fix"),
    ("pr_url", Json.string "https://github.com/o/r/pull/1"),
    ("new_state", Json.string "open"), ("head_sha", Json.string "0123456")]

/-- How the event is written and read. -/
def pullOpenedSerde : Serde MaintEvent :=
  loneSerde pullOpenedText pullOpenedJson pullOpened

set_option maxRecDepth 8000 in
theorem pullOpenedText_isObject : IsObjectText pullOpenedText := by
  unfold pullOpenedText
  constructor
  · simp only [String.toList_append]
    iterate 5 rw [String.toList_ofList]
    decide
  · simp only [String.toList_append]
    iterate 5 rw [String.toList_ofList]
    rfl
  · simp only [String.toList_append]
    iterate 5 rw [String.toList_ofList]
    rfl

theorem pullOpened_keeps : pullOpenedSerde.Keeps 1 pullOpened pullOpenedText :=
  loneSerde_keeps pullOpenedText_isObject rfl

/-- A repository without a ledger. -/
def noLedger : MaintainState where
  repo := ⟨∅, ∅, ∅, [], fun _ => false⟩
  remote := ∅
  interrupted := false
  reported := false

theorem noLedger_synced : noLedger.Synced := ⟨rfl, rfl, rfl⟩

/-- A run over one open pull request, of sessions since a date. -/
def openPullRun (since : Option String) (add : Fallible Unit) : MaintainRun where
  since := since
  dryRun := false
  limit := 50
  sessions := Except.ok [MaintainReconciler.publishedSession "s1" "https://github.com/o/r/pull/1"]
  connect := Except.ok ()
  reconciler := MaintainReconciler.openGithub 5000
  append := fun _ => AppendIo.smooth
  git := ⟨add, Except.ok (), Except.ok ()⟩
  pushing := ⟨Except.ok (), Except.ok "main", Except.ok "https://github.com/o/r.git",
    Except.ok "https://github.com/", Except.ok ()⟩
  finish := Except.ok ()

theorem maintain_durable_openPull :
    ∃ s', Runs.run (fun s m => m.step pullOpenedSerde s) noLedger
        [openPullRun none (Except.ok ())] = some s'
      ∧ s'.reported = true ∧ s'.Durable pullOpenedSerde := by
  obtain ⟨s', hrun⟩ : ∃ s', Runs.run (fun s m => m.step pullOpenedSerde s) noLedger
      [openPullRun none (Except.ok ())] = some s' := ⟨_, rfl⟩
  have hreported : s'.reported = true := by
    obtain rfl := Option.some.inj hrun
    decide +kernel
  have hok : Runs.Throughout (fun s m => m.step pullOpenedSerde s)
      (fun s m => m.dryRun = false →
        m.news pullOpenedSerde s.repo.files[maintainJsonl]? = Except.ok [] →
          s.interrupted = false)
      noLedger [openPullRun none (Except.ok ())] :=
    ⟨fun _ _ => rfl, fun _ _ => trivial⟩
  exact ⟨s', hrun, hreported,
    MaintainRun.maintain_durable noLedger_synced hok hrun hreported⟩

/-- The repository when the event was appended and could not be staged. -/
def leftBehind : MaintainState :=
  { noLedger with
    repo := noLedger.repo.setFile maintainJsonl (some ([] ++ line pullOpenedText))
    interrupted := true }

theorem news_openPullRun (add : Fallible Unit) :
    (openPullRun none add).news pullOpenedSerde none = Except.ok [pullOpened] := by
  have hnews : ((openPullRun none (Except.ok ())).news pullOpenedSerde none).toOption
      = some [pullOpened] := by decide +kernel
  exact ok_of_toOption hnews

theorem pullOpened_appended :
    appendEvent pullOpenedSerde AppendIo.smooth "maintain.jsonl" none pullOpened
      = (Except.ok (), some ([] ++ line pullOpenedText)) := rfl

/-- The event is appended, and then git fails. -/
theorem step_leftBehind :
    (openPullRun none (bail "index.lock exists")).step pullOpenedSerde noLedger
      = some leftBehind := by
  have hfile : leftBehind.repo.files[maintainJsonl]? = some ([] ++ line pullOpenedText) :=
    Repo.setFile_files
  have hexisting : BotCommand.maintain.paths.filter leftBehind.repo.exists?
      = [maintainJsonl] := by
    show [maintainJsonl].filter _ = _
    rw [List.filter_cons_of_pos (Repo.exists_of_file hfile), List.filter_nil]
  have hcommit : BotCommand.maintain.commit
      (openPullRun none (bail "index.lock exists")).git leftBehind.repo
        = (bail "index.lock exists", leftBehind.repo) := by
    unfold BotCommand.commit GitEnds.stageAndCommit
    dsimp only
    rw [hexisting]
    rfl
  have hrun : (openPullRun none (bail "index.lock exists")).run pullOpenedSerde noLedger
      = (bail "index.lock exists", leftBehind) := by
    unfold MaintainRun.run
    rw [show noLedger.repo.files[maintainJsonl]? = none from rfl, news_openPullRun]
    dsimp only
    have happends : ¬ ((openPullRun none (bail "index.lock exists")).dryRun = true
        ∨ [pullOpened] = []) := by
      rintro (hdry | hnil)
      · exact Bool.false_ne_true hdry
      · exact List.cons_ne_nil _ _ hnil
    rw [if_neg happends]
    unfold appendAll
    rw [show appendEvent _ ((openPullRun none _).append 0) _ none pullOpened = _
      from pullOpened_appended]
    show MaintainRun.commitAndPush _ leftBehind = _
    unfold MaintainRun.commitAndPush
    rw [hcommit]
    rfl
  unfold MaintainRun.step
  dsimp only
  rw [hrun]
  rfl

/-- Sessions since a later date have no pull request to ask about. -/
theorem news_later (raw : RawText) (h : (decode raw).isSome = true) :
    (openPullRun (some "2027-01-01") (Except.ok ())).news pullOpenedSerde (some raw)
      = Except.ok [] := by
  obtain ⟨rep, hrep, -⟩ := readAll_some_iff.mpr ⟨h, rfl⟩
  have hnone : (sessionsSince (some "2027-01-01") [MaintainReconciler.publishedSession "s1"
      "https://github.com/o/r/pull/1"]).toOption = some [] := by decide +kernel
  unfold MaintainRun.news
  refine bind_ok_iff.mpr ⟨_, rfl, bind_ok_iff.mpr ⟨[], ok_of_toOption hnone, ?_⟩⟩
  exact bind_ok_iff.mpr ⟨rep, hrep, bind_ok_iff.mpr ⟨false, rfl, rfl⟩⟩

/-- **A run that finds nothing reports success over events that nobody pushed.** -/
theorem not_durable_of_interrupted :
    ¬ ∀ (c : Serde MaintEvent) (s s' : MaintainState) (runs : List MaintainRun), s.Synced →
      Runs.run (fun s m => m.step c s) s runs = some s' → s'.reported = true →
        s'.Durable c := by
  intro h
  have hdecode : (decode ([] ++ line pullOpenedText)).isSome = true :=
    decode_append_line [] pullOpenedText
  have hfile : leftBehind.repo.files[maintainJsonl]? = some ([] ++ line pullOpenedText) :=
    Repo.setFile_files
  have hlater : (openPullRun (some "2027-01-01") (Except.ok ())).step pullOpenedSerde
      leftBehind = some { leftBehind with reported := true } :=
    MaintainRun.step_of_no_news rfl (by rw [hfile]; exact news_later _ hdecode)
  have hrun : Runs.run (fun s m => m.step pullOpenedSerde s) noLedger
      [openPullRun none (bail "index.lock exists"),
        openPullRun (some "2027-01-01") (Except.ok ())]
      = some { leftBehind with reported := true } := by
    rw [Runs.run_cons_eq_some_iff]
    refine ⟨leftBehind, step_leftBehind, ?_⟩
    rw [Runs.run_cons_eq_some_iff]
    exact ⟨_, hlater, rfl⟩
  have hdurable := h pullOpenedSerde noLedger _ _ noLedger_synced hrun rfl
  have hreads := MaintEvent.fromLedgerLine_readsLine rfl pullOpened_keeps
  have hlocal : pullOpened ∈ eventsOf pullOpenedSerde
      leftBehind.repo.files[maintainJsonl]? := by
    have hentry := ((hreads.entry_append "").mpr rfl).right
    rw [hfile, eventsOf, Option.getD_some,
      records_append_line pullOpenedText_isObject.isLine]
    refine List.mem_append_right _ ?_
    rw [show entry _ (unfinished [] ++ ofString pullOpenedText) = some pullOpened
      from hentry]
    exact List.mem_singleton_self _
  exact absurd (hdurable pullOpened hlocal) (by rintro ⟨⟩)
