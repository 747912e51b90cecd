import Sbagent.Calls
import Sbagent.Finalize
import Sbagent.Maintain
import Sbagent.Runs

/-!
# Publishing: texts for GitHub, and what is opened there

Publishing has two commands. `publish generate` goes through the targets and
decides what each is published as – a pull request, an issue, nothing – and
has an agent write a title and a body; `publish push` goes through the targets
again and opens on GitHub what it finds written. The two share nothing but the
files of a session: which of the four texts of a target are there, and
`publish-feedback.json`, in which pushing notes the URL of what it opened.

Both commands are long sequences of effects that can end anywhere: the writer
of one target fails and the command stops, a call to git or to GitHub fails
and the command goes on with the next target, the process is killed. What a
state can look like is therefore a question about sequences of small steps –
one target generated, one target pushed – and `generate` and `push` are
sequences of such steps (`generate_eq_run`, `push_eq_run`).
-/

open Fallible

/-! ## The sections of a body -/

/-- A heading as it is compared: in lower case, its words separated by single
spaces. -/
def normalizeHeading (heading : String) : String :=
  String.intercalate " "
    (Text.splitWhitespace (Text.toAsciiLowercase (Text.trim heading)))

/-- Whether a line is the heading of a section. -/
def isHeadingOf (wanted line : String) : Bool :=
  let line := Text.trimEnd line
  Text.startsWith line "## "
    && normalizeHeading (String.ofList (line.toList.drop 3)) = normalizeHeading wanted

/-- Whether a body has a section. -/
def hasSection (body wanted : String) : Bool :=
  (Text.lines body).any (isHeadingOf wanted)

/-- Read a file as text: its bytes have to be UTF-8. -/
def readToString : FileRead String → Fallible String
  | FileRead.notFound => bail "No such file or directory (os error 2)"
  | FileRead.ioError => bail "Permission denied (os error 13)"
  | FileRead.malformed => bail "stream did not contain valid UTF-8"
  | FileRead.parsed s => Except.ok s

/-- A body has all the sections it needs. -/
def checkSections (path : String) (f : FileRead String) (sections : List String) :
    Fallible Unit := do
  let body ← (readToString f).context s!"reading {path}"
  let missing := sections.filter fun sec => hasSection body sec = false
  bailIf (missing ≠ [])
    ("missing required ## sections: " ++ String.intercalate ", " missing)

/-- The sections of a pull request's body. -/
def requiredPrSections (mode : DeliveryMode) : List String :=
  ["Summary", "What changed", "Benchmark result", "Validation"]
    ++ if mode = DeliveryMode.consensusPocPr then ["Consensus / HIP coordination"]
      else []

/-- The sections of an issue's body. -/
def requiredIssueSections : List String :=
  ["Summary", "Breakage class", "Proposed change", "Expected impact",
    "HIP / coordination concerns", "Why an issue, not a PR", "Reference: target id"]

def validatePrBodySections (path : String) (f : FileRead String)
    (mode : DeliveryMode) : Fallible Unit :=
  checkSections path f (requiredPrSections mode)

def validateIssueBodySections (path : String) (f : FileRead String) : Fallible Unit :=
  checkSections path f requiredIssueSections

/-! ## The decision on a target -/

/-- How a confidence compares. -/
def Confidence.level : Confidence → ℕ
  | low => 0
  | medium => 1
  | high => 2

/-- A confidence in a message. -/
def Confidence.debug : Confidence → String
  | high => "High"
  | medium => "Medium"
  | low => "Low"

/-- What a target is published as. -/
inductive PublishDecision where
  | shipPr
  | shipIssue
  | skip (reason : String)
  deriving DecidableEq

/-- What the verdict on a normal pull request, read again now, makes of it. -/
def decideVerdict (floor : Confidence) :
    Fallible (Option ResultsAnalysis) → PublishDecision
  | Except.ok (some ra) =>
    if ra.verdict = Verdict.rejected then PublishDecision.skip
      (s!"results-analysis.json verdict=rejected ({Text.trim ra.headlineRationale}); "
        ++ "PR-writer would not have a `pr_body_summary` to publish")
    else if ra.confidence.level < floor.level then PublishDecision.skip
      (s!"results-analysis.json confidence={ra.confidence.debug} below "
        ++ s!"results_analysis.confidence_floor={floor.debug}; hold for operator review")
    else PublishDecision.shipPr
  | Except.ok none => PublishDecision.skip
      ("results-analysis.json absent / wrong-context — Phase 3.5 verdict required "
        ++ "for normal_pr publish")
  | Except.error e => PublishDecision.skip
      ("results-analysis.json read failed: " ++ alternate e)

/-- A normal pull request needs an accepted row in the summary, and a verdict
in its favour. -/
def decideNormalPr (files : SessionFiles) (summary : Option Summary)
    (floor : Confidence) (t : MergedTarget) : PublishDecision :=
  match summary with
  | none => PublishDecision.skip "no-summary-file"
  | some summary =>
    match summary.experiments.find? fun e => e.targetId = t.id with
    | none => PublishDecision.skip "bench-status=missing"
    | some row =>
      if row.status = ExperimentStatus.accepted then
        decideVerdict floor (files.readResultsAnalysisForTarget t.id)
      else PublishDecision.skip s!"bench-status={row.status.debug}"

/-- The outermost message of a failure. -/
def outermost (e : List String) : String := e.headD ""

/-- A proof of concept needs an implementation. -/
def decideConsensusPocPr (files : SessionFiles) (t : MergedTarget) : PublishDecision :=
  match files.readOptimizerReportForTarget t.id t.deliveryMode with
  | Except.ok (some (OptimizerReport.implemented _)) => PublishDecision.shipPr
  | Except.ok (some (OptimizerReport.aborted _)) => PublishDecision.skip "no-implementation"
  | Except.ok none => PublishDecision.skip "no-implementation"
  | Except.error e => PublishDecision.skip ("optimizer-report error: " ++ outermost e)

/-- An issue needs the marker file that the optimizer phase wrote for it. -/
def decideConsensusIssue (files : SessionFiles) (t : MergedTarget) : PublishDecision :=
  if 0 < (files.consensusIssue t.id).getD 0 then PublishDecision.shipIssue
  else PublishDecision.skip "no-consensus-issue-marker"

/-- What a target is published as, given the summary that was read when the
command started. -/
def decidePublish (files : SessionFiles) (summary : Option Summary)
    (floor : Confidence) (t : MergedTarget) : PublishDecision :=
  match t.deliveryMode with
  | DeliveryMode.normalPr => decideNormalPr files summary floor t
  | DeliveryMode.consensusPocPr => decideConsensusPocPr files t
  | DeliveryMode.consensusIssue => decideConsensusIssue files t

/-! ## The texts of a target -/

/-- The texts that publishing a target goes through. -/
structure PublishArtifacts where
  /-- `pr-title.txt`. -/
  prTitle : FileRead String
  /-- `pr-body.md`. -/
  prBody : FileRead String
  /-- `issue-title.txt`. -/
  issueTitle : FileRead String
  /-- `issue-body.md`. -/
  issueBody : FileRead String
  deriving DecidableEq

/-- Whether a file is there and has something in it. A file that cannot be
read, or not as text, has. -/
def isNonEmptyFile : FileRead String → Bool
  | FileRead.notFound => false
  | FileRead.parsed s => s ≠ ""
  | _ => true

namespace PublishArtifacts

/-- None of the texts is there. -/
def cleared : PublishArtifacts where
  prTitle := FileRead.notFound
  prBody := FileRead.notFound
  issueTitle := FileRead.notFound
  issueBody := FileRead.notFound

/-- There is a title and a body to open a pull request with. -/
def hasPr (a : PublishArtifacts) : Bool :=
  isNonEmptyFile a.prTitle && isNonEmptyFile a.prBody

/-- There is a title and a body to open an issue with. -/
def hasIssue (a : PublishArtifacts) : Bool :=
  isNonEmptyFile a.issueTitle && isNonEmptyFile a.issueBody

end PublishArtifacts

/-- How a writer's run goes. -/
structure WriterRun where
  /-- Rendering the prompt and writing it down. -/
  prepared : Fallible Unit
  /-- The run of the agent itself. -/
  invoked : Fallible Unit
  /-- The title that is there when the agent has ended. -/
  title : FileRead String
  /-- The body that is there when the agent has ended. -/
  body : FileRead String
  deriving DecidableEq

/-- What has to be there before the pull request of a target is written. -/
def prWriterPreflight (files : SessionFiles) (t : MergedTarget) : Fallible Unit := do
  let report ← files.readOptimizerReportForTarget t.id t.deliveryMode
  bailIf (report.any OptimizerReport.isImplemented = false)
    s!"missing or non-implemented optimizer-report.json for {t.id} (cannot ship a PR)"
  let _ ← files.readResultsAnalysisForTarget t.id
  return ()

/-- What the pull request writer has to have left behind. -/
def checkPrWritten (t : MergedTarget) (w : WriterRun) : Fallible Unit := do
  w.invoked.context s!"invoking codex for pr-writer {t.id}"
  bailIf (isNonEmptyFile w.title = false) s!"pr-title.txt missing for {t.id}"
  bailIf (isNonEmptyFile w.body = false) s!"pr-body.md missing for {t.id}"
  (validatePrBodySections s!"optimize/{t.id}/pr-body.md" w.body t.deliveryMode).context
    s!"validating pr-body.md for {t.id}"

/-- Have the pull request of a target written. The old texts are removed only
once everything that has to be there is. -/
def runPrWriter (files : SessionFiles) (t : MergedTarget) (w : WriterRun)
    (a : PublishArtifacts) : Fallible Unit × PublishArtifacts :=
  match prWriterPreflight files t, w.prepared with
  | Except.error e, _ => (Except.error e, a)
  | Except.ok (), Except.error e => (Except.error e, PublishArtifacts.cleared)
  | Except.ok (), Except.ok () => (checkPrWritten t w,
      { PublishArtifacts.cleared with prTitle := w.title, prBody := w.body })

/-- What the issue writer has to have left behind. -/
def checkIssueWritten (t : MergedTarget) (w : WriterRun) : Fallible Unit := do
  w.invoked.context s!"invoking codex for issue-writer {t.id}"
  bailIf (isNonEmptyFile w.title = false) s!"issue-title.txt missing for {t.id}"
  bailIf (isNonEmptyFile w.body = false) s!"issue-body.md missing for {t.id}"
  (validateIssueBodySections s!"optimize/{t.id}/issue-body.md" w.body).context
    s!"validating issue-body.md for {t.id}"

/-- Have the issue of a target written. -/
def runIssueWriter (files : SessionFiles) (t : MergedTarget) (w : WriterRun)
    (a : PublishArtifacts) : Fallible Unit × PublishArtifacts :=
  match (files.consensusIssue t.id).getD 0, w.prepared with
  | 0, _ => (bail s!"missing consensus-issue.md for {t.id}", a)
  | _ + 1, Except.error e => (Except.error e, PublishArtifacts.cleared)
  | _ + 1, Except.ok () => (checkIssueWritten t w,
      { PublishArtifacts.cleared with issueTitle := w.title, issueBody := w.body })

/-! ## The checkout of a target -/

/-- The contents of tracked files, in the order of their paths. -/
abbrev GitTree : Type := List (String × String)

/-- A commit. -/
structure Commit where
  sha : String
  parent : Option String
  tree : GitTree
  message : String
  deriving DecidableEq

/-- The checkout that a target was implemented in. -/
structure Worktree where
  /-- The branch it is on. -/
  branch : String
  /-- The commit it is at. -/
  head : Commit
  /-- What is staged: what a commit made now would hold. -/
  index : GitTree
  /-- The files that are there. -/
  files : String → Option String

namespace Worktree

/-- `git switch -C`: from here on the commit it is at is on this branch. -/
def switchBranch (branch : String) (w : Worktree) : Worktree :=
  { w with branch := branch }

/-- The tracked files as they are now. -/
def tracked (w : Worktree) : GitTree :=
  w.index.filterMap fun entry => (w.files entry.fst).map fun content =>
    (entry.fst, content)

/-- `git add -u`: stage what has become of the tracked files. -/
def addModified (w : Worktree) : Worktree := { w with index := w.tracked }

/-- Commit what is staged, if it differs from the commit it is at. -/
def commitIfStaged (sha message : String) (w : Worktree) : Worktree :=
  if w.index = w.head.tree then w
  else { w with head := ⟨sha, some w.head.sha, w.index, message⟩ }

end Worktree

/-! ## GitHub, and the state of publishing -/

/-- A pull request. -/
structure PullRequest where
  repo : String
  head : String
  base : String
  draft : Bool
  labels : List String
  title : String
  body : String
  url : String
  deriving DecidableEq

/-- An issue. The trace tag is embedded in its body. -/
structure Issue where
  repo : String
  labels : List String
  title : String
  text : String
  traceTag : String
  url : String
  deriving DecidableEq

/-- The body of an issue: its text, and its trace tag in a comment that is not
shown. -/
def Issue.body (i : Issue) : String :=
  i.text ++ "\n\n<!-- " ++ i.traceTag ++ " -->\n"

/-- What the latest generate run has made of a target. -/
inductive Gate where
  /-- It has not come to it yet, or never did. -/
  | notReached
  /-- Nothing is to be published. -/
  | skipped
  /-- Its writer failed. -/
  | failed
  /-- A text for an issue was accepted. -/
  | acceptedIssue
  /-- A pull request with this body was accepted. -/
  | acceptedPr (body : FileRead String)
  deriving DecidableEq

/-- What publishing reads and changes. -/
structure PublishState where
  /-- The files of the session that the decisions are made on. -/
  files : SessionFiles
  /-- `finalize/summary.json`. -/
  summary : FileRead Summary
  /-- The texts of each target. -/
  artifacts : String → PublishArtifacts
  /-- `optimize/<target>/publish-feedback.json`. -/
  publishFeedback : String → FileRead PublishFeedback
  /-- The checkout of each target, if it is still there. -/
  worktree : String → Option Worktree
  /-- The branches of the remote that is pushed to. -/
  remote : String → Option Commit
  /-- The pull requests on GitHub, open or not. -/
  prs : List PullRequest
  /-- The issues on GitHub that publishing has opened. -/
  issues : List Issue
  /-- The summary as the latest generate run read it. -/
  loaded : Option Summary
  /-- What the latest generate run has made of each target. Nothing reads it:
  it is kept to speak about. -/
  gate : String → Gate

/-- The settings of publishing. -/
structure PublishConfig where
  publishBaseRepo : String
  publishBaseBranch : String
  publishDraftPrs : Bool
  publishPrLabels : List String
  publishBranchPrefix : String
  publishHeadOwner : Option String
  /-- `results_analysis.confidence_floor`. -/
  confidenceFloor : Confidence

/-! ## Generating one target -/

/-- The writers' results, as the gate that a target ends at. -/
def gateOf (result : Fallible Unit) (accepted : Gate) : Gate :=
  if result.isOk = true then accepted else Gate.failed

/-- Generate one target: decide, and have the decision carried out. -/
def generateOne (cfg : PublishConfig) (t : MergedTarget) (w : WriterRun)
    (s : PublishState) : Fallible PublishDecision × PublishState :=
  match decidePublish s.files s.loaded cfg.confidenceFloor t with
  | PublishDecision.shipPr =>
    let run := runPrWriter s.files t w (s.artifacts t.id)
    (run.fst.map fun _ => PublishDecision.shipPr,
      { s with
        artifacts := Function.update s.artifacts t.id run.snd
        gate := Function.update s.gate t.id
          (gateOf run.fst (Gate.acceptedPr run.snd.prBody)) })
  | PublishDecision.shipIssue =>
    let run := runIssueWriter s.files t w (s.artifacts t.id)
    (run.fst.map fun _ => PublishDecision.shipIssue,
      { s with
        artifacts := Function.update s.artifacts t.id run.snd
        gate := Function.update s.gate t.id (gateOf run.fst Gate.acceptedIssue) })
  | PublishDecision.skip reason =>
    (Except.ok (PublishDecision.skip reason),
      { s with
        artifacts := Function.update s.artifacts t.id PublishArtifacts.cleared
        gate := Function.update s.gate t.id Gate.skipped })

/-- The start of a generate run: the summary is read, and no target has been
reached. -/
def beginGenerate (s : PublishState) : PublishState :=
  { s with
    loaded := (s.summary.parseJson "finalize/summary.json").toOption
    gate := fun _ => Gate.notReached }

/-! ## Pushing one target -/

/-- The calls to git, to GitHub and to the file system that pushing makes. -/
inductive PublishCall where
  | prExists
  | switchBranch
  | addModified
  | commitIfStaged
  | pushBranch
  | createPr
  | addLabels
  | issueExists
  | createIssue
  | writeFeedback
  deriving DecidableEq

/-- What the world decides about pushing one target. -/
structure PushRun where
  /-- How it is interrupted. -/
  interruption : Option (Calls.Interruption PublishCall)
  /-- The id that a commit made on the way gets. -/
  sha : String
  /-- The URL that GitHub gives to what is opened. -/
  url : String
  now : SystemTime

/-- The current time as a timestamp. -/
def nowUtcIso8601 (now : SystemTime) : String := formatSystemTime now

/-- Write a feedback file. One that is there is never overwritten. -/
def PublishFeedback.write (pf : PublishFeedback) (path : String)
    (f : FileRead PublishFeedback) : Fallible (FileRead PublishFeedback) := do
  pf.validateModel
  bailIf (f ≠ FileRead.notFound)
    (s!"publish-feedback.json at {path} already exists; refusing to overwrite: "
      ++ "File exists (os error 17)")
  return FileRead.parsed pf

/-- The labels of every proof of concept. -/
def consensusPrLabels : List String := ["consensus-change", "needs-HIP", "do-not-merge"]

/-- The labels of every issue. -/
def consensusIssueLabels : List String := ["consensus-change", "needs-HIP"]

/-- The branch that a target is pushed to. -/
def branchOf (cfg : PublishConfig) (sessionId targetId : String) : String :=
  s!"{cfg.publishBranchPrefix}/{sessionId}/{targetId}"

/-- The tag that finds the issue of a target again. -/
def traceTagOf (sessionId targetId : String) : String :=
  s!"agentic-{sessionId}-{targetId}"

/-- Whether the pull request of a target is opened as a draft. -/
def draftOf (cfg : PublishConfig) (t : MergedTarget) : Bool :=
  t.deliveryMode = DeliveryMode.consensusPocPr || cfg.publishDraftPrs

/-- The labels of the pull request of a target. -/
def labelsOf (cfg : PublishConfig) (t : MergedTarget) : List String :=
  cfg.publishPrLabels
    ++ if t.deliveryMode = DeliveryMode.consensusPocPr then consensusPrLabels else []

/-- The first line of a title, and a body. -/
def readTexts (title : FileRead String) (body : Fallible String) :
    Fallible (String × String) := do
  let title ← readToString title
  let body ← body
  return ((Text.lines title).headD "", body)

/-- Add labels to a pull request, if it is the one with a URL. -/
def PullRequest.addLabels (url : String) (labels : List String) (p : PullRequest) :
    PullRequest :=
  if p.url = url then { p with labels := p.labels ++ labels } else p

/-- A pull request is the one for a head on a base. -/
def PullRequest.isFor (p : PullRequest) (cfg : PublishConfig) (head : String) : Bool :=
  p.repo = cfg.publishBaseRepo && p.head = head && p.base = cfg.publishBaseBranch

namespace PublishState

variable (s : PublishState)

/-- Whether GitHub knows a pull request, of whatever state, for a head. -/
def prExists (cfg : PublishConfig) (head : String) : Bool :=
  s.prs.any fun p => p.isFor cfg head

/-- Whether GitHub finds an issue with a trace tag. -/
def issueExists (cfg : PublishConfig) (traceTag : String) : Bool :=
  s.issues.any fun i => i.repo = cfg.publishBaseRepo && Text.contains i.body traceTag

/-- Do something in the checkout of a target. -/
def inWorktree (targetId : String) (f : Worktree → Worktree) : PublishState :=
  { s with worktree := Function.update s.worktree targetId ((s.worktree targetId).map f) }

/-- Push the commit that a checkout is at to a branch of the remote. -/
def pushBranch (targetId branch : String) : PublishState :=
  { s with
    remote := Function.update s.remote branch
      ((s.worktree targetId).map fun w => w.head) }

/-- Add labels to the pull request with a URL. -/
def addLabels (url : String) (labels : List String) : PublishState :=
  { s with prs := s.prs.map fun p => p.addLabels url labels }

/-- Note what a target was published as. -/
def writeFeedback (targetId : String) (pf : PublishFeedback) : Fallible PublishState := do
  let f ← pf.write s!"optimize/{targetId}/publish-feedback.json"
    (s.publishFeedback targetId)
  return { s with publishFeedback := Function.update s.publishFeedback targetId f }

end PublishState

/-- A call and what it does. -/
abbrev PublishStep : Type := PublishCall × (PublishState → Fallible PublishState)

/-- The message of a commit made on the way. -/
def commitMessageOf (t : MergedTarget) (title : String) : String :=
  if title = "" then s!"perf: optimize {t.id}" else title

/-- The calls that put a target's commit on its branch. -/
def gitCalls (branch : String) (t : MergedTarget) (title : String) (r : PushRun) :
    List PublishStep :=
  [(PublishCall.switchBranch, fun s =>
      Except.ok (s.inWorktree t.id (Worktree.switchBranch branch))),
    (PublishCall.addModified, fun s =>
      Except.ok (s.inWorktree t.id Worktree.addModified)),
    (PublishCall.commitIfStaged, fun s =>
      Except.ok (s.inWorktree t.id
        (Worktree.commitIfStaged r.sha (commitMessageOf t title)))),
    (PublishCall.pushBranch, fun s => Except.ok (s.pushBranch t.id branch))]

/-- The pull request that is opened for a target, before it has its labels. -/
def newPr (cfg : PublishConfig) (head : String) (t : MergedTarget)
    (texts : String × String) (r : PushRun) : PullRequest where
  repo := cfg.publishBaseRepo
  head := head
  base := cfg.publishBaseBranch
  draft := draftOf cfg t
  labels := []
  title := texts.fst
  body := texts.snd
  url := r.url

/-- The calls that open a pull request and note that. Labels are added in a
call of their own, when there are any. -/
def openPrCalls (cfg : PublishConfig) (head : String) (t : MergedTarget)
    (texts : String × String) (r : PushRun) : List PublishStep :=
  [(PublishCall.createPr, fun s =>
      Except.ok { s with prs := newPr cfg head t texts r :: s.prs })]
    ++ (if labelsOf cfg t = [] then [] else
      [(PublishCall.addLabels, fun s => Except.ok (s.addLabels r.url (labelsOf cfg t)))])
    ++ [(PublishCall.writeFeedback, fun s =>
      s.writeFeedback t.id ⟨some r.url, none, nowUtcIso8601 r.now⟩)]

/-- What a pull request is opened with. Its checkout has to be there. -/
def prTexts (t : MergedTarget) (s : PublishState) : Fallible (String × String) := do
  let _ ← ofOption (s.worktree t.id) s!"missing worktree {t.id}"
  readTexts (s.artifacts t.id).prTitle
    ((readToString (s.artifacts t.id).prBody).context
      s!"reading optimize/{t.id}/pr-body.md")

/-- Push one pull request. When GitHub has one already, nothing more is
done. -/
def pushPr (cfg : PublishConfig) (headOwner : String) (t : MergedTarget) (r : PushRun)
    (s : PublishState) : Calls.Outcome × PublishState :=
  let branch := branchOf cfg s.files.id t.id
  let head := s!"{headOwner}:{branch}"
  match prTexts t s with
  | Except.error e => (some (Except.error e), s)
  | Except.ok texts =>
    Calls.perform r.interruption ((PublishCall.prExists, Except.ok) ::
      if s.prExists cfg head = true then []
      else gitCalls branch t texts.fst r ++ openPrCalls cfg head t texts r) s

/-- The issue that is opened for a target. -/
def newIssue (cfg : PublishConfig) (traceTag : String) (texts : String × String)
    (r : PushRun) : Issue where
  repo := cfg.publishBaseRepo
  labels := consensusIssueLabels
  title := texts.fst
  text := texts.snd
  traceTag := traceTag
  url := r.url

/-- The calls that open an issue and note that. -/
def openIssueCalls (cfg : PublishConfig) (traceTag : String) (t : MergedTarget)
    (texts : String × String) (r : PushRun) : List PublishStep :=
  [(PublishCall.createIssue, fun s =>
      Except.ok { s with issues := newIssue cfg traceTag texts r :: s.issues }),
    (PublishCall.writeFeedback, fun s =>
      s.writeFeedback t.id ⟨none, some r.url, nowUtcIso8601 r.now⟩)]

/-- Push one issue. When GitHub finds one already, nothing more is done. -/
def pushIssue (cfg : PublishConfig) (t : MergedTarget) (r : PushRun)
    (s : PublishState) : Calls.Outcome × PublishState :=
  let traceTag := traceTagOf s.files.id t.id
  match readTexts (s.artifacts t.id).issueTitle
    (readToString (s.artifacts t.id).issueBody) with
  | Except.error e => (some (Except.error e), s)
  | Except.ok texts =>
    Calls.perform r.interruption ((PublishCall.issueExists, Except.ok) ::
      if s.issueExists cfg traceTag = true then []
      else openIssueCalls cfg traceTag t texts r) s

/-- Push one target, if its texts are there: nothing when they are not, and
otherwise what pushing returned. -/
def pushOne (cfg : PublishConfig) (headOwner : String) (t : MergedTarget) (r : PushRun)
    (s : PublishState) : Option Calls.Outcome × PublishState :=
  if t.deliveryMode = DeliveryMode.consensusIssue then
    if (s.artifacts t.id).hasIssue = true then
      (pushIssue cfg t r s).map some id
    else (none, s)
  else if (s.artifacts t.id).hasPr = true then
    (pushPr cfg headOwner t r s).map some id
  else (none, s)

/-! ## What is written down -/

/-- Adding no labels changes nothing. -/
theorem PullRequest.addLabels_nil {p : PullRequest} {url : String} :
    p.addLabels url [] = p := by
  simp [addLabels]

/-- Adding labels changes nothing but labels. -/
theorem PullRequest.addLabels_eq {p : PullRequest} {url : String}
    {labels : List String} :
    p.addLabels url labels = { p with labels := (p.addLabels url labels).labels } := by
  unfold addLabels
  split <;> rfl

@[simp] theorem PullRequest.url_addLabels {p : PullRequest} {url : String}
    {labels : List String} : (p.addLabels url labels).url = p.url := by
  rw [addLabels_eq]

@[simp] theorem PullRequest.draft_addLabels {p : PullRequest} {url : String}
    {labels : List String} : (p.addLabels url labels).draft = p.draft := by
  rw [addLabels_eq]

@[simp] theorem PullRequest.isFor_addLabels {p : PullRequest} {url head : String}
    {labels : List String} {cfg : PublishConfig} :
    (p.addLabels url labels).isFor cfg head = p.isFor cfg head := by
  rw [addLabels_eq]
  rfl

/-- A label is never taken away. -/
theorem PullRequest.subset_addLabels {p : PullRequest} {url : String}
    {labels : List String} : p.labels ⊆ (p.addLabels url labels).labels := by
  unfold addLabels
  split
  · exact List.subset_append_left _ _
  · exact List.Subset.refl _

/-- A timestamp is never blank. -/
theorem isBlank_nowUtcIso8601 (now : SystemTime) :
    Text.isBlank (nowUtcIso8601 now) = false := by
  have hz : Text.isBlank (toString "Z") = false := by decide
  unfold nowUtcIso8601 formatSystemTime
  -- It ends in a letter.
  simp only [Text.isBlank_append, hz, Bool.and_false]

/-- A feedback file is written where there is none. -/
theorem PublishFeedback.write_ok_iff {pf : PublishFeedback} {path : String}
    {f f' : FileRead PublishFeedback} : pf.write path f = Except.ok f'
      ↔ pf.validateModel = Except.ok () ∧ f = FileRead.notFound
        ∧ f' = FileRead.parsed pf := by
  simp only [PublishFeedback.write, seq_ok_iff, bailIf_ok_iff, pure_ok_iff, not_not]
  rw [eq_comm (a := f')]

/-- A note has one URL, and a time. -/
theorem PublishFeedback.validateModel_ok_iff {pf : PublishFeedback} {u : Unit} :
    pf.validateModel = Except.ok u
      ↔ pf.prUrl.isSome ≠ pf.issueUrl.isSome ∧ Text.isBlank pf.openedAt = false := by
  obtain ⟨pr, issue, openedAt⟩ := pf
  simp only [validateModel, seq_ok_iff, bailIf_ok_iff, Bool.not_eq_true]
  cases pr <;> cases issue <;> simp [checkUrls]

/-- **What was opened is noted when nothing is noted yet.** -/
theorem writeFeedback_ok_iff {s s' : PublishState} {id : String}
    {pf : PublishFeedback} : s.writeFeedback id pf = Except.ok s'
      ↔ pf.validateModel = Except.ok () ∧ s.publishFeedback id = FileRead.notFound
        ∧ s' = { s with
          publishFeedback := Function.update s.publishFeedback id (FileRead.parsed pf) } := by
  unfold PublishState.writeFeedback
  simp only [bind_ok_iff, PublishFeedback.write_ok_iff, pure_ok_iff]
  constructor
  · rintro ⟨f, ⟨hv, hnone, rfl⟩, rfl⟩
    exact ⟨hv, hnone, rfl⟩
  · rintro ⟨hv, hnone, rfl⟩
    exact ⟨_, ⟨hv, hnone, rfl⟩, rfl⟩

/-! ## Sequences of steps -/

/-- What can happen to what publishing reads and changes. -/
inductive PublishEvent where
  /-- A generate run starts. -/
  | beginGenerate
  /-- A generate run comes to a target. -/
  | generate (t : MergedTarget) (w : WriterRun)
  /-- A push run comes to a target. -/
  | push (t : MergedTarget) (r : PushRun)
  /-- The files of the session, its summary and its checkouts are changed. The
  session stays the session it is. -/
  | change (files : SessionFiles) (summary : FileRead Summary)
      (worktree : String → Option Worktree)

/-- The state after an event. -/
def PublishState.after (cfg : PublishConfig) (headOwner : String) (s : PublishState) :
    PublishEvent → PublishState
  | PublishEvent.beginGenerate => beginGenerate s
  | PublishEvent.generate t w => (generateOne cfg t w s).snd
  | PublishEvent.push t r => (pushOne cfg headOwner t r s).snd
  | PublishEvent.change files summary worktree =>
    { s with
      files := { files with id := s.files.id }
      summary := summary
      worktree := worktree }

/-- One event after another: every event can happen in every state. -/
def publishStep (cfg : PublishConfig) (headOwner : String) (s : PublishState)
    (e : PublishEvent) : Option PublishState :=
  some (s.after cfg headOwner e)

/-! ## The two commands -/

/-- What a generate run counts. -/
structure GenerateOutputs where
  prCount : ℕ
  issueCount : ℕ
  skipCount : ℕ
  deriving DecidableEq

/-- Count a target by the decision on it. -/
def GenerateOutputs.count (out : GenerateOutputs) : PublishDecision → GenerateOutputs
  | PublishDecision.shipPr => { out with prCount := out.prCount + 1 }
  | PublishDecision.shipIssue => { out with issueCount := out.issueCount + 1 }
  | PublishDecision.skip _ => { out with skipCount := out.skipCount + 1 }

/-- Generate the targets in order. The first failure ends it. -/
def generateTargets (cfg : PublishConfig) :
    List (MergedTarget × WriterRun) → GenerateOutputs → PublishState →
      Fallible GenerateOutputs × PublishState
  | [], out, s => (Except.ok out, s)
  | p :: rest, out, s =>
    match generateOne cfg p.fst p.snd s with
    | (Except.ok d, s') => generateTargets cfg rest (out.count d) s'
    | (Except.error e, s') => (Except.error e, s')

/-- `publish generate`, given how the writer's run on each target would go. -/
def generate (cfg : PublishConfig) (targetsFile : FileRead OptimizationTargets)
    (writer : ℕ → WriterRun) (s : PublishState) :
    Fallible GenerateOutputs × PublishState :=
  match readOptimizationTargets targetsFile with
  | Except.error e => (Except.error e, s)
  | Except.ok targets =>
    if targets.targets = [] then (Except.ok ⟨0, 0, 0⟩, s)
    else generateTargets cfg
      (targets.targets.zipIdx.map fun p => (p.fst, writer p.snd)) ⟨0, 0, 0⟩
      (beginGenerate s)

/-- What a push run counts. -/
structure PushOutputs where
  prCount : ℕ
  issueCount : ℕ
  skipCount : ℕ
  deriving DecidableEq

/-- Count a target by what pushing it came to. -/
def PushOutputs.count (out : PushOutputs) (t : MergedTarget) (shipped : Bool) :
    PushOutputs :=
  if shipped = false then { out with skipCount := out.skipCount + 1 }
  else if t.deliveryMode = DeliveryMode.consensusIssue then
    { out with issueCount := out.issueCount + 1 }
  else { out with prCount := out.prCount + 1 }

/-- Push the targets in order. A failure is counted, and only the end of the
process is the end of the run. -/
def pushTargets (cfg : PublishConfig) (headOwner : String) :
    List (MergedTarget × PushRun) → PushOutputs → PublishState →
      Option PushOutputs × PublishState
  | [], out, s => (some out, s)
  | p :: rest, out, s =>
    match pushOne cfg headOwner p.fst p.snd s with
    | (some none, s') => (none, s')
    | (some (some (Except.ok ())), s') =>
      pushTargets cfg headOwner rest (out.count p.fst true) s'
    | (some (some (Except.error _)), s') =>
      pushTargets cfg headOwner rest (out.count p.fst false) s'
    | (none, s') => pushTargets cfg headOwner rest (out.count p.fst false) s'

/-- `publish push`, given what the world decides about each target. -/
def push (cfg : PublishConfig) (targetsFile : FileRead OptimizationTargets)
    (runs : ℕ → PushRun) (s : PublishState) :
    Fallible (Option PushOutputs) × PublishState :=
  match readOptimizationTargets targetsFile with
  | Except.error e => (Except.error e, s)
  | Except.ok targets =>
    if targets.targets = [] then (Except.ok (some ⟨0, 0, 0⟩), s)
    else
      match cfg.publishHeadOwner with
      | none => (bail
          ("`publish.head_owner` is required post-v3-cutover but is not set; preflight "
            ++ "should have caught this — did you bypass preflight with "
            ++ "`--skip-preflight`?"), s)
      | some headOwner =>
        (pushTargets cfg headOwner
          (targets.targets.zipIdx.map fun p => (p.fst, runs p.snd)) ⟨0, 0, 0⟩ s).map
            Except.ok id

/-! ## A command is a sequence of steps -/

section Commands

variable {cfg : PublishConfig} {headOwner : String}

variable (cfg) (headOwner) in
theorem generateTargets_eq_run (work : List (MergedTarget × WriterRun))
    (out : GenerateOutputs) (s : PublishState) :
    ∃ n, Runs.run (publishStep cfg headOwner) s
        ((work.map fun p => PublishEvent.generate p.fst p.snd).take n)
      = some (generateTargets cfg work out s).snd := by
  induction work generalizing out s with
  | nil => exact ⟨0, rfl⟩
  | cons p rest ih =>
    have hstep : publishStep cfg headOwner s (PublishEvent.generate p.fst p.snd)
        = some (generateOne cfg p.fst p.snd s).snd := rfl
    rw [generateTargets]
    rcases hone : generateOne cfg p.fst p.snd s with ⟨d | d, s'⟩
    · -- The command ends here: nothing of the rest has happened.
      refine ⟨1, ?_⟩
      rw [hone] at hstep
      simp [Runs.run, hstep]
    · obtain ⟨n, hn⟩ := ih (out.count d) s'
      refine ⟨n + 1, ?_⟩
      rw [hone] at hstep
      simpa [Runs.run, hstep] using hn

/-- **A generate run is a start and steps for the first targets, up to the one
that it fails at.** -/
theorem generate_eq_run (targetsFile : FileRead OptimizationTargets)
    (writer : ℕ → WriterRun) (s : PublishState) :
    ∃ es, Runs.run (publishStep cfg headOwner) s es
        = some (generate cfg targetsFile writer s).snd
      ∧ ∀ e ∈ es, e = PublishEvent.beginGenerate
          ∨ ∃ t w, e = PublishEvent.generate t w := by
  unfold generate
  cases readOptimizationTargets targetsFile with
  | error e => exact ⟨[], rfl, by simp⟩
  | ok targets =>
    dsimp only
    by_cases hnil : targets.targets = []
    · rw [if_pos hnil]
      exact ⟨[], rfl, by simp⟩
    · rw [if_neg hnil]
      let work := targets.targets.zipIdx.map fun p => (p.fst, writer p.snd)
      obtain ⟨n, hn⟩ := generateTargets_eq_run cfg headOwner work ⟨0, 0, 0⟩
        (beginGenerate s)
      refine ⟨PublishEvent.beginGenerate :: _, hn, fun e he => ?_⟩
      rcases List.mem_cons.mp he with rfl | he
      · exact Or.inl rfl
      · obtain ⟨p, -, rfl⟩ := List.mem_map.mp (List.mem_of_mem_take he)
        exact Or.inr ⟨p.fst, p.snd, rfl⟩

variable (cfg) (headOwner) in
theorem pushTargets_eq_run (work : List (MergedTarget × PushRun)) (out : PushOutputs)
    (s : PublishState) :
    ∃ n, Runs.run (publishStep cfg headOwner) s
        ((work.map fun p => PublishEvent.push p.fst p.snd).take n)
      = some (pushTargets cfg headOwner work out s).snd := by
  induction work generalizing out s with
  | nil => exact ⟨0, rfl⟩
  | cons p rest ih =>
    have hstep : publishStep cfg headOwner s (PublishEvent.push p.fst p.snd)
        = some (pushOne cfg headOwner p.fst p.snd s).snd := rfl
    have hgo : ∀ (b : Bool) (s' : PublishState),
        (pushOne cfg headOwner p.fst p.snd s).snd = s' →
        ∃ n, Runs.run (publishStep cfg headOwner) s
          (((p :: rest).map fun p => PublishEvent.push p.fst p.snd).take n)
          = some (pushTargets cfg headOwner rest (out.count p.fst b) s').snd := by
      intro b s' hs'
      obtain ⟨n, hn⟩ := ih (out.count p.fst b) s'
      refine ⟨n + 1, ?_⟩
      rw [hs'] at hstep
      simpa [Runs.run, hstep] using hn
    rw [pushTargets]
    rcases hone : pushOne cfg headOwner p.fst p.snd s with ⟨_ | _ | _ | _, s'⟩
    · exact hgo false s' (congrArg Prod.snd hone)
    · refine ⟨1, ?_⟩
      rw [hone] at hstep
      simp [Runs.run, hstep]
    · exact hgo false s' (congrArg Prod.snd hone)
    · exact hgo true s' (congrArg Prod.snd hone)

/-- **A push run is steps for the first targets, up to the one that the
process is stopped at.** -/
theorem push_eq_run {targetsFile : FileRead OptimizationTargets}
    {runs : ℕ → PushRun} {s : PublishState} (howner : cfg.publishHeadOwner = some headOwner) :
    ∃ es, Runs.run (publishStep cfg headOwner) s es
        = some (push cfg targetsFile runs s).snd
      ∧ ∀ e ∈ es, ∃ t r, e = PublishEvent.push t r := by
  unfold push
  cases readOptimizationTargets targetsFile with
  | error e => exact ⟨[], rfl, by simp⟩
  | ok targets =>
    dsimp only
    by_cases hnil : targets.targets = []
    · rw [if_pos hnil]
      exact ⟨[], rfl, by simp⟩
    · rw [if_neg hnil, howner]
      let work := targets.targets.zipIdx.map fun p => (p.fst, runs p.snd)
      obtain ⟨n, hn⟩ := pushTargets_eq_run cfg headOwner work ⟨0, 0, 0⟩ s
      refine ⟨_, hn, fun e he => ?_⟩
      obtain ⟨p, -, rfl⟩ := List.mem_map.mp (List.mem_of_mem_take he)
      exact ⟨p.fst, p.snd, rfl⟩

end Commands
