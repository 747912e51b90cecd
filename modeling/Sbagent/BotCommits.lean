import Sbagent.Fallible
import Sbagent.Git
import Sbagent.Text

/-!
# The commits that the program makes in the operator's repository

Bootstrapping a repository, refreshing its bundles and recording lifecycle events
each end with a commit of the paths that the command owns. These are staged by
their names, and never everything. What is committed, though, is the index, and it
may hold more: whatever was staged before. Such a commit is of the command's own
paths exactly when the rest of the index is what the last commit left, or when
there is no commit.
-/

open Fallible Git

/-- What came of staging and committing. -/
inductive CommitOutcome where
  | committed
  | nothingToCommit
  deriving DecidableEq

/-- How the commands end as far as it is not the worktree that decides. -/
structure GitEnds where
  add : Fallible Unit
  status : Fallible Unit
  commit : Fallible Unit
  deriving DecidableEq

namespace GitEnds

variable {β : Type} (git : GitEnds)

/-- `git add` of some paths. -/
def addPaths (force : Bool) (specs : List RepoPath) (r : Repo β) :
    Fallible Unit × Repo β :=
  match git.add with
  | Except.error e => (Except.error e, r)
  | Except.ok () =>
    if r.addRefuses force specs = true then (bail "git add failed", r.add force specs)
    else (Except.ok (), r.add force specs)

variable [DecidableEq β]

/-- Commit if the status shows something staged. -/
def commitStaged (message : String) (r : Repo β) : Fallible CommitOutcome × Repo β :=
  match git.status.context "git status --porcelain" with
  | Except.error e => (Except.error e, r)
  | Except.ok () =>
    if anyStaged (trimmed r.status) = false then
      (Except.ok CommitOutcome.nothingToCommit, r)
    else
      match git.commit, r.commit with
      | Except.ok (), some r' => (Except.ok CommitOutcome.committed, r')
      | _, _ => (bail s!"git commit -m {Text.debug message}", r)

/-- Stage the given paths as far as they are there, and commit. -/
def stageAndCommit (paths : List RepoPath) (message : String) (r : Repo β) :
    Fallible CommitOutcome × Repo β :=
  let existing := paths.filter r.exists?
  if existing = [] then git.commitStaged message r
  else
    match git.addPaths false existing r with
    | (Except.error e, r) => (Except.error e, r)
    | (Except.ok (), r) => git.commitStaged message r

/-- Stage the given paths, ignored or not, and commit. -/
def stageForceAndCommit (paths : List RepoPath) (message : String) (r : Repo β) :
    Fallible CommitOutcome × Repo β :=
  if paths = [] then git.commitStaged message r
  else
    match git.addPaths true paths r with
    | (Except.error e, r) => (Except.error e, r)
    | (Except.ok (), r) => git.commitStaged message r

end GitEnds

/-! ## What staging and committing leaves -/

section StageAndCommit

variable {β : Type} {git : GitEnds} {force : Bool} {paths specs : List RepoPath} {message : String}
  {r r' : Repo β}

theorem addPaths_ok (h : git.addPaths force specs r = (Except.ok (), r')) :
    git.add = Except.ok () ∧ r.addRefuses force specs = false ∧ r' = r.add force specs := by
  unfold GitEnds.addPaths at h
  split at h
  case h_1 => cases congrArg Prod.fst h
  case h_2 hadd =>
    split at h
    case isTrue => cases congrArg Prod.fst h
    case isFalse hrefuses =>
      exact ⟨hadd, Bool.eq_false_iff.mpr hrefuses, (congrArg Prod.snd h).symm⟩

theorem addPaths_of_ok (hadd : git.add = Except.ok ())
    (hrefuses : r.addRefuses force specs = false) :
    git.addPaths force specs r = (Except.ok (), r.add force specs) := by
  unfold GitEnds.addPaths
  rw [hadd]
  dsimp only
  rw [hrefuses]
  rfl

variable [DecidableEq β]

/-- What a commit holds shows as staged. -/
theorem anyStaged_of_commit (h : r.commit = some r') :
    anyStaged (trimmed r.status) = true := by
  obtain ⟨-, hne, -⟩ := Repo.commit_eq_some_iff.mp h
  rw [ne_eq, Repo.index_eq_headIndex_iff, not_forall] at hne
  obtain ⟨p, hp⟩ := hne
  exact Repo.anyStaged_iff.mpr ⟨p, Or.inl hp⟩

/-- **There is a commit when the commands work and the index can be committed.** -/
theorem commitStaged_committed_iff :
    git.commitStaged message r = (Except.ok CommitOutcome.committed, r')
      ↔ git.status = Except.ok () ∧ git.commit = Except.ok () ∧ r.commit = some r' := by
  unfold GitEnds.commitStaged
  constructor
  · intro h
    split at h
    case h_1 => cases congrArg Prod.fst h
    case h_2 hstatus =>
      refine ⟨context_ok_iff.mp hstatus, ?_⟩
      split at h
      case isTrue => cases congrArg Prod.fst h
      case isFalse =>
        split at h
        case h_1 hcommit hsome =>
          exact ⟨hcommit, hsome.trans (congrArg some (congrArg Prod.snd h))⟩
        case h_2 => cases congrArg Prod.fst h
  · rintro ⟨hstatus, hcommit, hsome⟩
    rw [hstatus, anyStaged_of_commit hsome, hcommit, hsome]
    rfl

/-- Where nothing is committed, nothing that is tracked has changed. -/
theorem commitStaged_nothingToCommit
    (h : git.commitStaged message r = (Except.ok CommitOutcome.nothingToCommit, r')) :
    r' = r ∧ ∀ p, r.indexMark p = ' ' ∧ r.fileMark p = ' ' := by
  unfold GitEnds.commitStaged at h
  split at h
  case h_1 => cases congrArg Prod.fst h
  case h_2 =>
    split at h
    case isTrue hstaged =>
      refine ⟨(congrArg Prod.snd h).symm, fun p => ?_⟩
      by_contra hmark
      rw [not_and_or] at hmark
      rw [Repo.anyStaged_iff.mpr ⟨p, hmark⟩] at hstaged
      cases hstaged
    case isFalse =>
      split at h
      case h_1 => cases congrArg Prod.fst h
      case h_2 => cases congrArg Prod.fst h

/-- The commands work: the paths can be staged, and the others do not fail. -/
def GitEnds.Lets (git : GitEnds) (force : Bool) (specs : List RepoPath) (r : Repo β) :
    Prop :=
  (specs ≠ [] → git.add = Except.ok () ∧ r.addRefuses force specs = false)
    ∧ git.status = Except.ok () ∧ git.commit = Except.ok ()

/-- **A commit of some paths is a commit of the index with these paths in it.** -/
theorem stageAndCommit_committed_iff :
    git.stageAndCommit paths message r = (Except.ok CommitOutcome.committed, r')
      ↔ git.Lets false (paths.filter r.exists?) r
        ∧ (r.add false (paths.filter r.exists?)).commit = some r' := by
  unfold GitEnds.stageAndCommit GitEnds.Lets
  dsimp only
  split
  case isTrue hnil =>
    rw [commitStaged_committed_iff, hnil, Repo.add_nil]
    simp [and_assoc]
  case isFalse hne =>
    constructor
    · intro h
      split at h
      case h_1 => cases congrArg Prod.fst h
      case h_2 r₁ hpaths =>
        obtain ⟨hadd, hrefuses, rfl⟩ := addPaths_ok hpaths
        obtain ⟨hstatus, hcommit, hsome⟩ := commitStaged_committed_iff.mp h
        exact ⟨⟨fun _ => ⟨hadd, hrefuses⟩, hstatus, hcommit⟩, hsome⟩
    · rintro ⟨⟨hadds, hstatus, hcommit⟩, hsome⟩
      obtain ⟨hadd, hrefuses⟩ := hadds hne
      rw [addPaths_of_ok hadd hrefuses]
      exact commitStaged_committed_iff.mpr ⟨hstatus, hcommit, hsome⟩

/-- Without a commit the worktree is on the commit it was on. -/
theorem commitStaged_head {outcome : Fallible CommitOutcome}
    (h : git.commitStaged message r = (outcome, r'))
    (hne : outcome ≠ Except.ok CommitOutcome.committed) : r' = r := by
  unfold GitEnds.commitStaged at h
  split at h
  case h_1 => exact (congrArg Prod.snd h).symm
  case h_2 =>
    split at h
    case isTrue => exact (congrArg Prod.snd h).symm
    case isFalse =>
      split at h
      case h_1 => exact absurd (congrArg Prod.fst h).symm hne
      case h_2 => exact (congrArg Prod.snd h).symm

/-- Unless there is a commit, only what is staged may have changed. -/
theorem stageAndCommit_cases {outcome : Fallible CommitOutcome}
    (h : git.stageAndCommit paths message r = (outcome, r'))
    (hne : outcome ≠ Except.ok CommitOutcome.committed) :
    r' = r ∨ r' = r.add false (paths.filter r.exists?) := by
  unfold GitEnds.stageAndCommit at h
  dsimp only at h
  split at h
  case isTrue => exact Or.inl (commitStaged_head h hne)
  case isFalse =>
    split at h
    case h_1 e r₁ hpaths =>
      obtain rfl := congrArg Prod.snd h
      unfold GitEnds.addPaths at hpaths
      split at hpaths
      case h_1 => exact Or.inl (congrArg Prod.snd hpaths).symm
      case h_2 =>
        split at hpaths
        case isTrue => exact Or.inr (congrArg Prod.snd hpaths).symm
        case isFalse => cases congrArg Prod.fst hpaths
    case h_2 r₁ hpaths =>
      obtain ⟨-, -, rfl⟩ := addPaths_ok hpaths
      exact Or.inr (commitStaged_head h hne)

/-- Without a commit the worktree stays where it was. -/
theorem stageAndCommit_head {outcome : Fallible CommitOutcome}
    (h : git.stageAndCommit paths message r = (outcome, r'))
    (hne : outcome ≠ Except.ok CommitOutcome.committed) : r'.head = r.head := by
  obtain rfl | rfl := stageAndCommit_cases h hne
  · rfl
  · rfl

/-- Staging and committing leaves the files alone. -/
theorem stageAndCommit_files {outcome : Fallible CommitOutcome}
    (h : git.stageAndCommit paths message r = (outcome, r')) : r'.files = r.files := by
  by_cases hcommitted : outcome = Except.ok CommitOutcome.committed
  · subst hcommitted
    obtain ⟨-, hcommit⟩ := stageAndCommit_committed_iff.mp h
    obtain ⟨-, -, rfl⟩ := Repo.commit_eq_some_iff.mp hcommit
    rfl
  · obtain rfl | rfl := stageAndCommit_cases h hcommitted
    · rfl
    · rfl

/-- **A file that is given is committed, or was.** -/
theorem stageAndCommit_file {p : RepoPath} {b : β} {outcome : CommitOutcome}
    (hfile : r.files[p]? = some b) (hgit : p.contains ".git" = false)
    (h : git.stageAndCommit [p] message r = (Except.ok outcome, r')) :
    r'.head[p]? = some b := by
  have hexisting : [p].filter r.exists? = [p] := by
    rw [List.filter_cons_of_pos (Repo.exists_of_file hfile), List.filter_nil]
  cases outcome with
  | committed =>
    obtain ⟨hlets, hcommit⟩ := stageAndCommit_committed_iff.mp h
    rw [hexisting] at hlets hcommit
    have hindex := Repo.getElem?_add_index_of_file hfile hgit
      (hlets.left (List.cons_ne_nil p [])).right
    have hhead := (Repo.getElem?_commit_head (p := p) hcommit).trans hindex
    obtain ⟨b', hb', heq⟩ := Option.map_eq_some_iff.mp hhead
    rw [hb', Entry.staged.inj heq]
  | nothingToCommit =>
    unfold GitEnds.stageAndCommit at h
    dsimp only at h
    rw [hexisting, if_neg (List.cons_ne_nil p [])] at h
    split at h
    case h_1 => cases congrArg Prod.fst h
    case h_2 r₁ hpaths =>
      obtain ⟨-, hrefuses, rfl⟩ := addPaths_ok hpaths
      obtain ⟨rfl, hmarks⟩ := commitStaged_nothingToCommit h
      have hindex := Repo.getElem?_add_index_of_file hfile hgit hrefuses
      have hhead := Repo.indexMark_eq_blank_iff.mp (hmarks p).left
      rw [hindex, Repo.getElem?_headIndex] at hhead
      obtain ⟨b', hb', heq⟩ := Option.map_eq_some_iff.mp hhead.symm
      rw [hb', Entry.staged.inj heq]

/-- **What is committed of paths that are staged by force**, whether there was
anything to commit or not: the index with these paths in it. -/
theorem stageForceAndCommit_head {outcome : CommitOutcome} (hne : paths ≠ [])
    (h : git.stageForceAndCommit paths message r = (Except.ok outcome, r'))
    (p : RepoPath) : r'.head[p]?.map Entry.staged = (r.add true paths).index[p]? := by
  unfold GitEnds.stageForceAndCommit at h
  rw [if_neg hne] at h
  split at h
  case h_1 => cases congrArg Prod.fst h
  case h_2 r₁ hpaths =>
    obtain ⟨-, -, rfl⟩ := addPaths_ok hpaths
    cases outcome with
    | committed =>
      obtain ⟨-, -, hcommit⟩ := commitStaged_committed_iff.mp h
      exact Repo.getElem?_commit_head hcommit
    | nothingToCommit =>
      obtain ⟨rfl, hmarks⟩ := commitStaged_nothingToCommit h
      rw [Repo.indexMark_eq_blank_iff.mp (hmarks p).left, Repo.getElem?_headIndex]

/-- The commands all work. -/
def GitEnds.working : GitEnds := ⟨Except.ok (), Except.ok (), Except.ok ()⟩

/-- Where the files are what the index is once the paths are staged, and nothing
is unmerged, staging them by force and committing works. -/
theorem stageForceAndCommit_works (hne : paths ≠ [])
    (hrefuses : r.addRefuses true paths = false)
    (hmerged : ∀ p : RepoPath, (r.add true paths).index[p]? ≠ some Entry.unmerged)
    (hfiles : ∀ p, (r.add true paths).fileMark p = ' ') :
    ∃ outcome r', GitEnds.working.stageForceAndCommit paths message r
      = (Except.ok outcome, r') := by
  unfold GitEnds.stageForceAndCommit
  rw [if_neg hne, addPaths_of_ok rfl hrefuses]
  cases hstaged : anyStaged (trimmed (r.add true paths).status) with
  | false =>
    refine ⟨CommitOutcome.nothingToCommit, r.add true paths, ?_⟩
    show (if anyStaged (trimmed (r.add true paths).status) = false then _ else _) = _
    rw [if_pos hstaged]
  | true =>
    obtain ⟨p, hp⟩ := Repo.anyStaged_iff.mp hstaged
    have hindex : (r.add true paths).index ≠ (r.add true paths).headIndex := by
      rw [ne_eq, Repo.index_eq_headIndex_iff, not_forall]
      exact ⟨p, hp.resolve_right (not_not.mpr (hfiles p))⟩
    exact ⟨CommitOutcome.committed, _, commitStaged_committed_iff.mpr
      ⟨rfl, rfl, Repo.commit_eq_some_iff.mpr ⟨hmerged, hindex, rfl⟩⟩⟩

end StageAndCommit

/-! ## The commands -/

/-- The directories of the bundles, in the repository. -/
structure BundleDirs where
  prompts : Option RepoPath
  schemas : RepoPath
  queries : RepoPath
  context : RepoPath

/-- A command that commits. -/
inductive BotCommand where
  | init (promptsDir : RepoPath) (dirs : BundleDirs)
  | sync (dirs : BundleDirs) (refreshTunables : Bool) (version : String)
  | maintain

namespace BotCommand

/-- The paths that a command owns. -/
def paths : BotCommand → List RepoPath
  | init promptsDir dirs =>
    [[".gitignore"], promptsDir, dirs.schemas, dirs.queries, dirs.context]
  | sync dirs refreshTunables _ =>
    [dirs.schemas, dirs.queries]
      ++ if refreshTunables = true then dirs.prompts.toList ++ [dirs.context] else []
  | maintain => [["maintain.jsonl"]]

/-- The message of its commit. -/
def message : BotCommand → String
  | init _ _ => "chore: initial operator state"
  | sync _ _ version => s!"chore: sync sbagent bundles ({version})"
  | maintain => "maintain: record lifecycle events"

variable {β : Type}

/-- The paths that a command stages: those that are there. -/
def staged (c : BotCommand) (r : Repo β) : List RepoPath := c.paths.filter r.exists?

/-- What staging leaves of the index beside the paths that are staged. -/
def left (c : BotCommand) (r : Repo β) (p : RepoPath) : Option (Entry β) :=
  if r.overlaid false (c.staged r) p = true then none else r.index[p]?

variable [DecidableEq β]

/-- Stage what it owns, and commit. -/
def commit (c : BotCommand) (git : GitEnds) (r : Repo β) :
    Fallible CommitOutcome × Repo β :=
  git.stageAndCommit c.paths c.message r

/-- A commit that the command makes changes nothing but what it owns. -/
def CommitsOnlyOwn (c : BotCommand) (git : GitEnds) (r : Repo β) : Prop :=
  ∀ r', c.commit git r = (Except.ok CommitOutcome.committed, r') →
    ∀ p : RepoPath, r'.head[p]? ≠ r.head[p]? → selected c.paths p = true

end BotCommand

section OnlyOwn

variable {β : Type}

theorem left_eq {c : BotCommand} {r : Repo β} {p : RepoPath}
    (h : selected c.paths p = false) :
    (r.add false (c.staged r)).index[p]? = c.left r p := by
  have hsel : selected (c.staged r) p = false := by
    rw [Bool.eq_false_iff, ne_eq, selected_iff] at h ⊢
    exact fun ⟨s, hs, hp⟩ => h ⟨s, List.mem_of_mem_filter hs, hp⟩
  exact Repo.getElem?_add_index_of_not_selected hsel

variable [DecidableEq β]

/-- **Bot commits and the rest of the index.** A commit changes only what the command
owns exactly when there is none, because a command fails or something is left
unmerged, or when beside its paths the index has what the last commit left. -/
theorem commitsOnlyOwn_iff (c : BotCommand) (git : GitEnds) (r : Repo β) :
    c.CommitsOnlyOwn git r
      ↔ ¬ git.Lets false (c.staged r) r
        ∨ (∃ p : RepoPath, (r.add false (c.staged r)).index[p]? = some Entry.unmerged)
        ∨ ∀ p : RepoPath, selected c.paths p = false →
          c.left r p = r.head[p]?.map Entry.staged := by
  constructor
  · intro h
    by_contra hnot
    obtain ⟨hlets, hmerged, hleft⟩ : git.Lets false (c.staged r) r
        ∧ (∀ p : RepoPath, (r.add false (c.staged r)).index[p]? ≠ some Entry.unmerged)
        ∧ ∃ p : RepoPath, selected c.paths p = false
          ∧ c.left r p ≠ r.head[p]?.map Entry.staged := by
      push Not at hnot
      exact hnot
    obtain ⟨p, hp, hne⟩ := hleft
    rw [← left_eq hp] at hne
    have hindex : (r.add false (c.staged r)).index
        ≠ (r.add false (c.staged r)).headIndex := by
      intro heq
      rw [heq, Repo.getElem?_headIndex] at hne
      exact hne rfl
    -- the index differs from the last commit outside of the paths, so git makes a commit of it
    have hcommit := Repo.commit_eq_some_iff.mpr ⟨hmerged, hindex, rfl⟩
    have hown := h _ (stageAndCommit_committed_iff.mpr ⟨hlets, hcommit⟩) p
    rw [hp] at hown
    refine absurd (hown fun heq => hne ?_) (by decide)
    rw [← Repo.getElem?_commit_head hcommit, heq]
  · intro h r' hcommitted p hne
    obtain ⟨hlets, hcommit⟩ := stageAndCommit_committed_iff.mp hcommitted
    by_contra hsel
    rw [Bool.not_eq_true] at hsel
    obtain hnot | ⟨q, hq⟩ | hleft := h
    · exact hnot hlets
    · exact (Repo.commit_eq_some_iff.mp hcommit).left q hq
    · have hhead := Repo.getElem?_commit_head (p := p) hcommit
      have hstays := hleft p hsel
      rw [← left_eq hsel] at hstays
      have heq := hhead.trans hstays
      exact hne (Option.map_injective (fun a b hab => (Entry.staged.inj hab)) heq)

/-- A file that the operator had staged is committed with the events. -/
def notesStaged : Repo String where
  head := ∅
  index := (∅ : Git.Tree (Entry String)).insert ["notes.txt"] (Entry.staged "to do")
  files := ((∅ : Git.Tree String).insert ["notes.txt"] "to do").insert ["maintain.jsonl"] "e"
  dirs := []
  ignored := fun _ => false

/-- **What was staged before is committed with what the command stages.** -/
theorem not_commitsOnlyOwn_of_staged :
    ¬ ∀ (c : BotCommand) (git : GitEnds) (r : Repo String), c.CommitsOnlyOwn git r := by
  intro h
  let staged := notesStaged.add false (BotCommand.maintain.staged notesStaged)
  obtain ⟨r', hcommit⟩ : ∃ r', staged.commit = some r' :=
    Option.isSome_iff_exists.mp (by decide +kernel)
  have hnotes : staged.index[["notes.txt"]]? = some (Entry.staged "to do") := by
    decide +kernel
  have hhead : r'.head[["notes.txt"]]?.map Entry.staged = some (Entry.staged "to do") :=
    (Repo.getElem?_commit_head hcommit).trans hnotes
  have hlets : GitEnds.Lets ⟨Except.ok (), Except.ok (), Except.ok ()⟩ false
      (BotCommand.maintain.staged notesStaged) notesStaged :=
    ⟨fun _ => ⟨rfl, by decide +kernel⟩, rfl, rfl⟩
  have hown := h BotCommand.maintain _ notesStaged r'
    (stageAndCommit_committed_iff.mpr ⟨hlets, hcommit⟩) ["notes.txt"]
  refine absurd (hown fun heq => ?_) (by decide)
  rw [heq] at hhead
  exact absurd hhead (by decide +kernel)

end OnlyOwn
