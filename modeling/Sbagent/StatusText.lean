import Sbagent.BotCommits

/-!
# The status as it is read

Whether there is something to commit is read off the output of `git status --porcelain`, in
which each line begins with two marks, the first for what is staged and the second for what
is not. The output comes from a helper that returns it trimmed. That is harmless for what
git prints on one line, an id or a URL. Here it takes the blank off that the first line
begins with when its change is not staged, and then the second mark is read for the first.

So a worktree with nothing staged is committed, which fails, when the change that git lists
first is one of a tracked file (`anyStagedIn_iff`). Nothing goes wrong when there is
something staged, because then the answer is the same.
-/

open Fallible Git

/-! ## The output of the status -/

/-- The marks of the status. -/
def statusMarks : List Char := [' ', 'M', 'T', 'A', 'D', 'R', 'C', 'U', '?', '!']

/-- A line of `git status --porcelain`: what is staged, what is not, and the path, as git
prints it. A path with white space in it is printed in quotes. -/
structure StatusEntry where
  index : Char
  worktree : Char
  path : String
  index_mem : index ∈ statusMarks
  worktree_mem : worktree ∈ statusMarks
  /-- What has not changed is not listed. -/
  changed : index = ' ' → worktree ≠ ' '
  oneLine : '\n' ∉ path.toList
  pathEnd : ∃ c, path.toList.getLast? = some c ∧ Text.isWhiteSpace c = false

namespace StatusEntry

/-- The characters of the line. -/
def line (e : StatusEntry) : List Char := e.index :: e.worktree :: ' ' :: e.path.toList

/-- The change of the entry is staged. -/
def Staged (e : StatusEntry) : Prop := e.index ≠ ' ' ∧ e.index ≠ '?'

instance : DecidablePred Staged := fun _ => inferInstanceAs (Decidable (_ ∧ _))

end StatusEntry

/-- What `git status --porcelain` prints. -/
def porcelain (es : List StatusEntry) : String :=
  String.ofList (es.flatMap fun e => e.line ++ ['\n'])

/-- Whether something is staged, as it is read off an output. -/
def anyStagedIn (porcelain : String) : Bool :=
  (Text.lines porcelain).any fun line =>
    2 ≤ Text.byteLen line && line.toList.head?.any fun c => c ≠ ' ' && c ≠ '?'

section Porcelain

variable {e : StatusEntry} {es : List StatusEntry}

theorem isWhiteSpace_of_mem_statusMarks {c : Char} (h : c ∈ statusMarks) :
    Text.isWhiteSpace c = decide (c = ' ') := by
  unfold statusMarks at h
  fin_cases h <;> rfl

theorem StatusEntry.noFeed (e : StatusEntry) : '\n' ∉ e.line := by
  have hindex := e.index_mem
  have hworktree := e.worktree_mem
  unfold StatusEntry.line
  simp only [List.mem_cons, not_or]
  refine ⟨?_, ?_, by decide, e.oneLine⟩
  · rintro h
    rw [← h] at hindex
    exact absurd hindex (by decide)
  · rintro h
    rw [← h] at hworktree
    exact absurd hworktree (by decide)

/-- A line ends in something that is no white space, with its first mark or without. -/
theorem StatusEntry.line_end (e : StatusEntry) : ∃ front c, e.line.tail = front ++ [c]
    ∧ e.line = e.index :: front ++ [c] ∧ Text.isWhiteSpace c = false := by
  obtain ⟨c, hc, hspace⟩ := e.pathEnd
  obtain ⟨front, hfront⟩ := List.getLast?_eq_some_iff.mp hc
  refine ⟨e.worktree :: ' ' :: front, c, ?_, ?_, hspace⟩
  · show e.worktree :: ' ' :: e.path.toList = _
    rw [hfront]
    rfl
  · show e.index :: e.worktree :: ' ' :: e.path.toList = _
    rw [hfront]
    rfl

/-- The line as it is when it is the first one. -/
def StatusEntry.firstLine (e : StatusEntry) : List Char :=
  if e.index = ' ' then e.line.tail else e.line

/-- Trimming a line takes a first blank off, and no more. -/
theorem StatusEntry.dropWhile_line {p : Char → Bool}
    (hp : ∀ c ∈ statusMarks, p c = decide (c = ' ')) (e : StatusEntry) : e.line.dropWhile p = e.firstLine := by
  have hindex := hp _ e.index_mem
  have hworktree := hp _ e.worktree_mem
  unfold StatusEntry.firstLine StatusEntry.line
  split_ifs with hblank
  · rw [List.dropWhile_cons_of_pos (by rw [hindex]; exact decide_eq_true hblank),
      List.dropWhile_cons_of_neg (by rw [hworktree]; simpa using e.changed hblank)]
    rfl
  · rw [List.dropWhile_cons_of_neg (by rw [hindex]; simpa using hblank)]

theorem StatusEntry.firstLine_end (e : StatusEntry) :
    ∃ front c, e.firstLine = front ++ [c] ∧ Text.isWhiteSpace c = false := by
  obtain ⟨front, c, htail, hline, hspace⟩ := e.line_end
  unfold StatusEntry.firstLine
  split_ifs
  · exact ⟨front, c, htail, hspace⟩
  · exact ⟨e.index :: front, c, hline, hspace⟩

/-- The lines of a trimmed output. -/
def trimmedLines : List StatusEntry → List (List Char)
  | [] => []
  | e :: es => e.firstLine :: es.map StatusEntry.line

theorem trimmed_map_line (es : List StatusEntry) :
    Git.trimmed (es.map StatusEntry.line) = trimmedLines es := by
  cases es with
  | nil => rfl
  | cons e es => exact congrArg (· :: _) (e.dropWhile_line fun c _ => rfl)

theorem flatMap_feed (l : List Char) (ls : List (List Char)) :
    (l :: ls).flatMap (fun l => l ++ ['\n']) = ['\n'].intercalate (l :: ls) ++ ['\n'] := by
  induction ls generalizing l with
  | nil => rw [List.flatMap_singleton, List.intercalate_singleton]
  | cons l' ls ih => rw [List.flatMap_cons, ih, List.intercalate_cons_cons, List.append_assoc,
      List.append_assoc, List.append_assoc]

/-- What ends the lines does so in the joined text. -/
theorem intercalate_end (l : List Char) (ls : List (List Char))
    (hend : ∀ l' ∈ l :: ls, ∃ front c, l' = front ++ [c] ∧ Text.isWhiteSpace c = false) :
    ∃ front c, ['\n'].intercalate (l :: ls) = front ++ [c] ∧ Text.isWhiteSpace c = false := by
  induction ls generalizing l with
  | nil =>
    rw [List.intercalate_singleton]
    exact hend l List.mem_cons_self
  | cons l' ls ih =>
    obtain ⟨front, c, hjoined, hspace⟩ := ih l' fun l hl => hend l (List.mem_cons_of_mem _ hl)
    refine ⟨l ++ ['\n'] ++ front, c, ?_, hspace⟩
    rw [List.intercalate_cons_cons, hjoined, List.append_assoc, List.append_assoc,
      List.append_assoc]

theorem lines_end (es : List StatusEntry) : ∀ l ∈ trimmedLines es,
    ∃ front c, l = front ++ [c] ∧ Text.isWhiteSpace c = false := by
  cases es with
  | nil => exact fun l hl => absurd hl List.not_mem_nil
  | cons e es =>
    intro l hl
    obtain rfl | hl := List.mem_cons.mp hl
    · exact e.firstLine_end
    · obtain ⟨e', -, rfl⟩ := List.mem_map.mp hl
      obtain ⟨front, c, -, hline, hspace⟩ := e'.line_end
      exact ⟨e'.index :: front, c, hline, hspace⟩

/-- **What is left of the output.** -/
theorem trim_porcelain (es : List StatusEntry) :
    Text.trim (porcelain es) = String.ofList (['\n'].intercalate (trimmedLines es)) := by
  cases es with
  | nil => rfl
  | cons e es =>
    obtain ⟨front, c, hjoined, hspace⟩ := intercalate_end e.firstLine
      (es.map StatusEntry.line) (lines_end (e :: es))
    obtain ⟨front', c', hfirst, -⟩ := e.firstLine_end
    have hne : (e.line.dropWhile Text.isWhiteSpace).isEmpty = false := by
      rw [e.dropWhile_line fun c hc => isWhiteSpace_of_mem_statusMarks hc, hfirst]
      simp
    have hstart : ((e :: es).flatMap fun e => e.line ++ ['\n']).dropWhile Text.isWhiteSpace
        = front ++ [c] ++ ['\n'] := by
      rw [List.flatMap_cons, List.append_assoc, List.dropWhile_append, hne,
        e.dropWhile_line fun c hc => isWhiteSpace_of_mem_statusMarks hc, ← hjoined,
        ← flatMap_feed, List.flatMap_cons, List.flatMap_map, List.append_assoc]
      rfl
    show Text.trimEnd (String.ofList ((String.ofList _).toList.dropWhile _)) = _
    rw [String.toList_ofList, hstart, trimmedLines, hjoined]
    unfold Text.trimEnd
    have hrest : ((front ++ [c] ++ ['\n']).reverse.dropWhile Text.isWhiteSpace).reverse
        = front ++ [c] := by
      rw [List.reverse_append, List.reverse_append]
      show ((c :: front.reverse).dropWhile Text.isWhiteSpace).reverse = _
      rw [List.dropWhile_cons_of_neg (by simpa using hspace), List.reverse_cons,
        List.reverse_reverse]
    rw [String.toList_ofList, hrest]

theorem lines_noFeed (es : List StatusEntry) : ∀ l ∈ trimmedLines es, '\n' ∉ l := by
  cases es with
  | nil => exact fun l hl => absurd hl List.not_mem_nil
  | cons e es =>
    intro l hl
    obtain rfl | hl := List.mem_cons.mp hl
    · unfold StatusEntry.firstLine
      split_ifs
      · exact fun hmem => e.noFeed (List.mem_of_mem_tail hmem)
      · exact e.noFeed
    · obtain ⟨e', -, rfl⟩ := List.mem_map.mp hl
      exact e'.noFeed

theorem lines_length (es : List StatusEntry) : ∀ l ∈ trimmedLines es, 2 ≤ l.length := by
  cases es with
  | nil => exact fun l hl => absurd hl List.not_mem_nil
  | cons e es =>
    intro l hl
    obtain rfl | hl := List.mem_cons.mp hl
    · unfold StatusEntry.firstLine StatusEntry.line
      split_ifs <;> simp
    · obtain ⟨e', -, rfl⟩ := List.mem_map.mp hl
      simp [StatusEntry.line]

/-- **The text is read as the lines of the worktree's status are**, the first one trimmed. -/
theorem anyStagedIn_trim (es : List StatusEntry) :
    anyStagedIn (Text.trim (porcelain es)) = anyStaged (Git.trimmed (es.map StatusEntry.line)) := by
  have hend : ∀ l ∈ trimmedLines es, ∃ c, l.getLast? = some c ∧ c ≠ '\r' := by
    intro l hl
    obtain ⟨front, c, rfl, hspace⟩ := lines_end es l hl
    refine ⟨c, List.getLast?_concat, ?_⟩
    rintro rfl
    cases hspace
  unfold anyStagedIn anyStaged
  rw [trim_porcelain, Text.lines_intercalate (lines_noFeed es) hend, trimmed_map_line, List.any_map]
  rw [Bool.eq_iff_iff, List.any_eq_true, List.any_eq_true]
  refine exists_congr fun l => and_congr_right fun hl => ?_
  have hlength := lines_length es l hl
  rw [Function.comp_apply, String.toList_ofList, decide_eq_true hlength,
    decide_eq_true (hlength.trans (Text.length_le_byteLen l))]

/-- The first entry is a change that is not staged. -/
def FirstUnstaged (es : List StatusEntry) : Prop :=
  ∃ e ∈ es.head?, e.index = ' ' ∧ e.worktree ≠ '?'

theorem anyStaged_cons (l : List Char) (ls : List (List Char)) :
    anyStaged (l :: ls) = (anyStaged [l] || anyStaged ls) := by
  unfold anyStaged
  rw [List.any_cons, List.any_cons, List.any_nil, Bool.or_false]

theorem StatusEntry.anyStaged_line (e : StatusEntry) : anyStaged [e.line] = true ↔ e.Staged := by
  simp [anyStaged, StatusEntry.line, StatusEntry.Staged]

theorem anyStaged_map_line (es : List StatusEntry) :
    anyStaged (es.map StatusEntry.line) = true ↔ ∃ e ∈ es, e.Staged := by
  induction es with
  | nil => simp [anyStaged]
  | cons e es ih =>
    rw [List.map_cons, anyStaged_cons, Bool.or_eq_true, e.anyStaged_line, ih,
      List.exists_mem_cons_iff]

theorem StatusEntry.anyStaged_firstLine (e : StatusEntry) : anyStaged [e.firstLine] = true
    ↔ e.Staged ∨ e.index = ' ' ∧ e.worktree ≠ '?' := by
  unfold StatusEntry.firstLine
  split_ifs with hblank
  · have hchanged := e.changed hblank
    simp [anyStaged, StatusEntry.line, StatusEntry.Staged, hblank, hchanged]
  · rw [e.anyStaged_line]
    exact (or_iff_left fun h => hblank h.left).symm

/-- **What is taken for something staged.** -/
theorem anyStagedIn_iff (es : List StatusEntry) : anyStagedIn (Text.trim (porcelain es)) = true
    ↔ (∃ e ∈ es, e.Staged) ∨ FirstUnstaged es := by
  rw [anyStagedIn_trim, trimmed_map_line]
  cases es with
  | nil => simp [trimmedLines, anyStaged, FirstUnstaged]
  | cons e es =>
    rw [trimmedLines, anyStaged_cons, Bool.or_eq_true, e.anyStaged_firstLine, anyStaged_map_line,
      List.exists_mem_cons_iff, or_right_comm]
    refine or_congr_right ?_
    simp [FirstUnstaged]

end Porcelain

/-! ## Committing by it -/

/-- The commands that are run. -/
inductive GitCall where
  | add
  | status
  | commit
  deriving DecidableEq

/-- How they end, and what the status prints. -/
structure GitRuns where
  add : Fallible Unit
  status : Fallible String
  commit : Fallible Unit

namespace GitRuns

variable (git : GitRuns)

/-- The output of a command, trimmed. -/
def runGitOutput (out : Fallible String) : Fallible String := out.map Text.trim

/-- Commit if the status is taken to show something staged. -/
def commitStaged (commitMsg : String) : Fallible CommitOutcome × List GitCall :=
  match (runGitOutput git.status).context "git status --porcelain" with
  | Except.error e => (Except.error e, [GitCall.status])
  | Except.ok porcelain =>
    if anyStagedIn porcelain = false then
      (Except.ok CommitOutcome.nothingToCommit, [GitCall.status])
    else
      ((git.commit.context s!"git commit -m {Text.debug commitMsg}").map fun _ =>
        CommitOutcome.committed, [GitCall.status, GitCall.commit])

/-- Stage paths, if there are any, and commit. -/
def stageThenCommit (command : String) (paths : List String) (commitMsg : String) :
    Fallible CommitOutcome × List GitCall :=
  if paths = [] then git.commitStaged commitMsg
  else
    match git.add.context
        (command ++ " -- [" ++ ", ".intercalate (paths.map Text.debug) ++ "]") with
    | Except.error e => (Except.error e, [GitCall.add])
    | Except.ok () =>
      ((git.commitStaged commitMsg).fst, GitCall.add :: (git.commitStaged commitMsg).snd)

/-- Stage the given paths as far as they are there, and commit. -/
def stageAndCommit (there : String → Bool) (paths : List String) (commitMsg : String) :
    Fallible CommitOutcome × List GitCall :=
  git.stageThenCommit "git add" (paths.filter there) commitMsg

/-- Stage the given paths, ignored or not, and commit. -/
def stageForceAndCommit (paths : List String) (commitMsg : String) :
    Fallible CommitOutcome × List GitCall :=
  git.stageThenCommit "git add -f" paths commitMsg

end GitRuns

/-- **A run commits exactly when there is something staged**, and otherwise says so. -/
structure Decides (es : List StatusEntry) (run : Fallible CommitOutcome × List GitCall) : Prop where
  commits : GitCall.commit ∈ run.snd ↔ ∃ e ∈ es, e.Staged
  nothing : (¬ ∃ e ∈ es, e.Staged) → run.fst = Except.ok CommitOutcome.nothingToCommit

section Commit

variable {git : GitRuns} {es : List StatusEntry} {command commitMsg : String} {paths : List String}

/-- Without a pathspec. -/
theorem decides_commitStaged_iff (hstatus : git.status = Except.ok (porcelain es)) :
    Decides es (git.commitStaged commitMsg) ↔ (∃ e ∈ es, e.Staged) ∨ ¬ FirstUnstaged es := by
  have hread := anyStagedIn_iff es
  unfold GitRuns.commitStaged GitRuns.runGitOutput
  rw [hstatus]
  show Decides es (if anyStagedIn (Text.trim (porcelain es)) = false then _ else _) ↔ _
  split_ifs with hstaged
  · rw [hstaged] at hread
    obtain ⟨hnone, hfirst⟩ := not_or.mp (hread.not.mp Bool.false_ne_true)
    exact iff_of_true ⟨iff_of_false (by decide) hnone, fun _ => rfl⟩ (Or.inr hfirst)
  · have hshown := hread.mp (Bool.of_not_eq_false hstaged)
    constructor
    · exact fun h => Or.inl (h.commits.mp (by simp))
    · intro h
      have hsome : ∃ e ∈ es, e.Staged := h.elim id hshown.resolve_right
      exact ⟨iff_of_true (by simp) hsome, fun hnone => absurd hsome hnone⟩

/-- Staging comes before, and decides nothing. -/
theorem decides_stageThenCommit_iff (hadd : git.add = Except.ok ()) :
    Decides es (git.stageThenCommit command paths commitMsg)
      ↔ Decides es (git.commitStaged commitMsg) := by
  unfold GitRuns.stageThenCommit
  split_ifs
  · exact Iff.rfl
  · rw [hadd]
    have hmem : GitCall.commit ∈ GitCall.add :: (git.commitStaged commitMsg).snd
        ↔ GitCall.commit ∈ (git.commitStaged commitMsg).snd := by
      simp
    exact ⟨fun h => ⟨hmem.symm.trans h.commits, h.nothing⟩,
      fun h => ⟨hmem.trans h.commits, h.nothing⟩⟩

end Commit

/-- **Both functions commit exactly when there is something staged, unless the change that
git lists first is not staged and none is.** -/
theorem decides_iff {git : GitRuns} {es : List StatusEntry} (hadd : git.add = Except.ok ())
    (hstatus : git.status = Except.ok (porcelain es)) (there : String → Bool)
    (paths : List String) (commitMsg : String) :
    (Decides es (git.stageAndCommit there paths commitMsg)
        ∧ Decides es (git.stageForceAndCommit paths commitMsg))
      ↔ (∃ e ∈ es, e.Staged) ∨ ¬ FirstUnstaged es := by
  unfold GitRuns.stageAndCommit GitRuns.stageForceAndCommit
  rw [decides_stageThenCommit_iff hadd, decides_stageThenCommit_iff hadd,
    decides_commitStaged_iff hstatus, and_self_iff]

/-- A tracked file that was edited, and not staged. -/
def editedEntry : StatusEntry where
  index := ' '
  worktree := 'M'
  path := "notes.md"
  index_mem := by decide
  worktree_mem := by decide
  changed := by decide
  oneLine := by decide
  pathEnd := ⟨'d', by decide, by decide⟩

/-- A file that was staged, and edited again. -/
def stagedEntry : StatusEntry where
  index := 'M'
  worktree := 'M'
  path := "prompts/triage.md"
  index_mem := by decide
  worktree_mem := by decide
  changed := by decide
  oneLine := by decide
  pathEnd := ⟨'d', by decide, by decide⟩

/-- A file that git does not know. -/
def strayEntry : StatusEntry where
  index := '?'
  worktree := '?'
  path := "scratch.txt"
  index_mem := by decide
  worktree_mem := by decide
  changed := by decide
  oneLine := by decide
  pathEnd := ⟨'t', by decide, by decide⟩

/-- Git with a status, and nothing to commit. -/
def gitShowing (es : List StatusEntry) : GitRuns :=
  ⟨Except.ok (), Except.ok (porcelain es), bail "exit status: 1"⟩

/-- An edit that is not staged comes before one that is, and a file that is not tracked
comes first. -/
theorem decides_iff_mixed :
    (Decides [editedEntry, stagedEntry, strayEntry]
        ((gitShowing [editedEntry, stagedEntry, strayEntry]).stageAndCommit (fun _ => true)
          ["prompts"] "chore: refresh")
      ∧ Decides [editedEntry, stagedEntry, strayEntry]
        ((gitShowing [editedEntry, stagedEntry, strayEntry]).stageForceAndCommit ["prompts"]
          "chore: refresh"))
    ∧ Decides [strayEntry, strayEntry] ((gitShowing [strayEntry, strayEntry]).stageAndCommit
        (fun _ => true) ["prompts"] "chore: refresh") := by
  constructor
  · exact (decides_iff rfl rfl _ _ _).mpr (Or.inl ⟨stagedEntry, by simp, by decide⟩)
  · refine ((decides_iff rfl rfl _ _ _).mpr (Or.inr ?_)).left
    rintro ⟨e, he, hblank, -⟩
    obtain rfl := Option.some.inj he
    cases hblank

/-- An edit that is not staged is taken for one that is, and the commit fails. -/
theorem commits_unstaged : (¬ ∃ e ∈ [editedEntry, strayEntry], e.Staged)
    ∧ (gitShowing [editedEntry, strayEntry]).stageAndCommit (fun _ => true) ["prompts"]
        "chore: refresh"
      = (Except.error ["git commit -m \"chore: refresh\"", "exit status: 1"],
        [GitCall.add, GitCall.status, GitCall.commit])
    ∧ (gitShowing [editedEntry, strayEntry]).stageForceAndCommit ["prompts"] "chore: refresh"
      = (Except.error ["git commit -m \"chore: refresh\"", "exit status: 1"],
        [GitCall.add, GitCall.status, GitCall.commit]) := by
  refine ⟨by decide, ?_, ?_⟩
  · decide +kernel
  · decide +kernel
