import Mathlib

/-!
# A worktree of a git repository

There are three trees to a worktree: the commit that it is on, the files that are
there, and between them the index, which is what the next commit will hold.
Staging copies files into the index, at the paths that it is given and beneath
them; committing turns the whole index into a commit, whoever put things there.

The status is a list of lines with two marks each. The first mark compares the
index with the commit, the second one the files with the index. Whoever trims the
output before reading it takes the blank away that the first line may begin with,
and then its second mark stands where the first one should.
-/

namespace Git

/-- A path from the root of the worktree. -/
abbrev RepoPath : Type := List String

/-- Files under their paths. -/
abbrev Tree (β : Type) : Type := Std.ExtTreeMap RepoPath β

/-- What the index has at a path. -/
inductive Entry (β : Type) where
  /-- What the next commit will have there. -/
  | staged (content : β)
  /-- Versions that a merge could not reconcile. -/
  | unmerged
  deriving DecidableEq

/-- What a commit has of an entry. -/
def Entry.content? {β : Type} : Entry β → Option β
  | staged content => some content
  | unmerged => none

/-- A worktree. -/
structure Repo (β : Type) where
  /-- The commit it is on, which has no files before the first one. -/
  head : Tree β
  index : Tree (Entry β)
  /-- The files that are there. -/
  files : Tree β
  /-- The directories that are there; those of files need not be listed. -/
  dirs : List RepoPath
  /-- The paths that are ignored. -/
  ignored : RepoPath → Bool

/-- A path is one of the given ones or beneath one of them. -/
def selected (specs : List RepoPath) (p : RepoPath) : Bool :=
  specs.any fun s => s.isPrefixOf p

theorem selected_iff {specs : List RepoPath} {p : RepoPath} :
    selected specs p = true ↔ ∃ s ∈ specs, s <+: p := by
  unfold selected
  rw [List.any_eq_true]
  simp only [List.isPrefixOf_iff_prefix]

namespace Repo

variable {β : Type} (r : Repo β)

/-- There is a file or a directory at a path. -/
def exists? (p : RepoPath) : Bool :=
  r.dirs.contains p || r.files.keys.any fun q => p.isPrefixOf q

/-- A file is written, or there is none any more. -/
def setFile (p : RepoPath) (file : Option β) : Repo β :=
  { r with files := r.files.alter p fun _ => file }

/-! ## Staging -/

/-- The files that are staged when the given paths are: ignored ones only when
forced or tracked, and nothing of a repository's own directory. -/
def added (force : Bool) (specs : List RepoPath) : Tree β :=
  r.files.filter fun p _ => selected specs p && !p.contains ".git"
    && (force || r.index.contains p || !r.ignored p)

/-- A file stands where a directory of staged files has to be. -/
def overlaid (force : Bool) (specs : List RepoPath) (p : RepoPath) : Bool :=
  (r.added force specs).keys.any fun q => p ≠ q && p.isPrefixOf q

/-- `git add`: at the given paths and beneath them the index becomes what the files
are. -/
def add (force : Bool) (specs : List RepoPath) : Repo β :=
  { r with
    index := (r.index.filter fun p _ => !selected specs p && !r.overlaid force specs p)
      ∪ (r.added force specs).map fun _ content => Entry.staged content }

/-- A path is tracked, itself or, where it is no file, something beneath it. -/
def tracks (s : RepoPath) : Bool :=
  r.index.contains s || !r.files.contains s && r.index.keys.any fun p => s.isPrefixOf p

/-- `git add` fails: of the given paths one is not there, or is ignored. -/
def addRefuses (force : Bool) (specs : List RepoPath) : Bool :=
  specs.any fun s => !r.tracks s && (!r.exists? s || !force && r.ignored s)

/-! ## Status -/

/-- The index as the commit would have left it. -/
def headIndex : Tree (Entry β) := r.head.map fun _ content => Entry.staged content

variable [DecidableEq β]

/-- The first mark: the index against the commit. -/
def indexMark (p : RepoPath) : Char :=
  match r.head[p]?, r.index[p]? with
  | _, some Entry.unmerged => 'U'
  | none, some (Entry.staged _) => 'A'
  | some _, none => 'D'
  | some a, some (Entry.staged b) => if a = b then ' ' else 'M'
  | none, none => ' '

/-- The second mark: the files against the index. -/
def fileMark (p : RepoPath) : Char :=
  match r.index[p]?, r.files[p]? with
  | some Entry.unmerged, _ => 'U'
  | some (Entry.staged a), some b => if a = b then ' ' else 'M'
  | some (Entry.staged _), none => 'D'
  | none, _ => ' '

/-- A line of the status. -/
def statusLine (x y : Char) (p : RepoPath) : List Char :=
  x :: y :: ' ' :: (String.intercalate "/" p).toList

/-- The paths that the commit or the index has and that have changed. -/
def changedPaths : List RepoPath :=
  (r.headIndex ∪ r.index).keys.filter fun p => r.indexMark p ≠ ' ' || r.fileMark p ≠ ' '

/-- The files that are neither tracked nor ignored. -/
def untrackedPaths : List RepoPath :=
  r.files.keys.filter fun p => !r.index.contains p && !r.ignored p && !p.contains ".git"

/-- The lines of `git status --porcelain`. -/
def status : List (List Char) :=
  r.changedPaths.map (fun p => statusLine (r.indexMark p) (r.fileMark p) p)
    ++ r.untrackedPaths.map (statusLine '?' '?')

/-! ## Committing -/

/-- `git commit`: the index becomes the commit, unless there is nothing to commit or
something is unmerged. -/
def commit : Option (Repo β) :=
  if r.index.toList.any (fun e => e.snd = Entry.unmerged) = true then none
  else if r.index = r.headIndex then none
  else some { r with head := r.index.filterMap fun _ e => e.content? }

end Repo

/-- The lines of an output that was trimmed: no line ends in a blank, so only the
beginning of the first one matters. -/
def trimmed : List (List Char) → List (List Char)
  | [] => []
  | line :: lines => line.dropWhile (fun c => c = ' ') :: lines

/-- The output of the status shows something staged: one of its lines has a first mark
that is neither blank nor that of an untracked file. -/
def anyStaged (lines : List (List Char)) : Bool :=
  lines.any fun line => 2 ≤ line.length && line.head?.any fun c => c ≠ ' ' && c ≠ '?'

/-! ## What staging does -/

namespace Repo

section Staging

variable {β : Type} {r : Repo β} {force : Bool} {specs : List RepoPath}
  {p : RepoPath}

@[simp] theorem setFile_head {file : Option β} : (r.setFile p file).head = r.head := rfl

@[simp] theorem setFile_files {file : Option β} :
    (r.setFile p file).files[p]? = file := by
  unfold setFile
  rw [Std.ExtTreeMap.getElem?_alter_self]

theorem exists_of_file {b : β} (h : r.files[p]? = some b) : r.exists? p = true := by
  unfold exists?
  rw [Bool.or_eq_true, List.any_eq_true]
  refine Or.inr ⟨p, ?_, List.isPrefixOf_iff_prefix.mpr List.prefix_rfl⟩
  rw [Std.ExtTreeMap.mem_keys, ← Std.ExtTreeMap.isSome_getElem?_iff_mem, h]
  rfl

@[simp] theorem add_head : (r.add force specs).head = r.head := rfl

@[simp] theorem add_files : (r.add force specs).files = r.files := rfl

@[simp] theorem add_headIndex : (r.add force specs).headIndex = r.headIndex := rfl

theorem getElem?_headIndex : r.headIndex[p]? = r.head[p]?.map Entry.staged := by
  unfold headIndex
  rw [Std.ExtTreeMap.getElem?_map]

theorem getElem?_added : (r.added force specs)[p]?
    = if (selected specs p && !p.contains ".git"
        && (force || r.index.contains p || !r.ignored p)) = true then r.files[p]?
      else none := by
  unfold added
  rw [Std.ExtTreeMap.getElem?_filter']
  split
  case isTrue h => cases r.files[p]? <;> simp only [Option.filter, h, if_true]
  case isFalse h =>
    cases r.files[p]? with
    | none => rfl
    | some content => exact if_neg h

theorem getElem?_added_of_not_selected (h : selected specs p = false) :
    (r.added force specs)[p]? = none := by
  rw [getElem?_added, h]
  rfl

/-- **The index after staging.** -/
theorem getElem?_add_index : (r.add force specs).index[p]?
    = ((r.added force specs)[p]?.map Entry.staged).or
        (if selected specs p = true ∨ r.overlaid force specs p = true then none
        else r.index[p]?) := by
  show ((r.index.filter _) ∪ (r.added force specs).map _)[p]? = _
  rw [Std.ExtTreeMap.getElem?_union, Std.ExtTreeMap.getElem?_map,
    Std.ExtTreeMap.getElem?_filter']
  congr 1
  cases selected specs p <;> cases r.overlaid force specs p <;> cases r.index[p]? <;> rfl

/-- Beside the given paths an entry stays, unless a directory takes its place. -/
theorem getElem?_add_index_of_not_selected (h : selected specs p = false) :
    (r.add force specs).index[p]?
      = if r.overlaid force specs p = true then none else r.index[p]? := by
  rw [getElem?_add_index, getElem?_added_of_not_selected h, h]
  simp

/-- At the given paths the index becomes what is staged. -/
theorem getElem?_add_index_of_selected (h : selected specs p = true) :
    (r.add force specs).index[p]? = (r.added force specs)[p]?.map Entry.staged := by
  rw [getElem?_add_index, h]
  simp

/-- **A file that can be staged by its name is.** -/
theorem getElem?_add_index_of_file {b : β} (hfile : r.files[p]? = some b)
    (hgit : p.contains ".git" = false) (hrefuses : r.addRefuses force [p] = false) :
    (r.add force [p]).index[p]? = some (Entry.staged b) := by
  have hsel : selected [p] p = true :=
    selected_iff.mpr ⟨p, List.mem_singleton_self p, List.prefix_rfl⟩
  have hstages : (force || r.index.contains p || !r.ignored p) = true := by
    have hcontains : r.files.contains p = true := by
      rw [← Std.ExtTreeMap.isSome_getElem?_eq_contains, hfile]
      rfl
    unfold addRefuses tracks at hrefuses
    rw [List.any_cons, exists_of_file hfile, hcontains] at hrefuses
    simp at hrefuses
    grind
  rw [getElem?_add_index_of_selected hsel, getElem?_added, hsel, hgit, hstages, hfile]
  rfl

theorem add_nil : r.add force [] = r := by
  have hindex : (r.add force []).index = r.index := by
    refine Std.ExtTreeMap.ext_getElem? fun p => ?_
    have hover : r.overlaid force [] p = false := by
      unfold overlaid
      rw [List.any_eq_false]
      intro q hq
      rw [Std.ExtTreeMap.mem_keys, ← Std.ExtTreeMap.isSome_getElem?_iff_mem,
        getElem?_added_of_not_selected rfl] at hq
      cases hq
    rw [getElem?_add_index_of_not_selected rfl, hover]
    rfl
  exact (congrArg (fun index => { r with index := index }) hindex :)

end Staging

/-! ## What the status shows -/

section Status

variable {β : Type} [DecidableEq β] {r : Repo β} {p : RepoPath}

/-- The first mark is blank where the index is what the commit is. -/
theorem indexMark_eq_blank_iff :
    r.indexMark p = ' ' ↔ r.index[p]? = r.headIndex[p]? := by
  rw [getElem?_headIndex]
  unfold indexMark
  rcases r.head[p]? with - | a <;> rcases r.index[p]? with - | (b | -)
  all_goals simp
  grind

/-- A mark that is not blank is that of a change. -/
theorem fileMark_ne_untracked : r.fileMark p ≠ '?' := by
  unfold fileMark
  split <;> (try split) <;> decide

theorem indexMark_ne_untracked : r.indexMark p ≠ '?' := by
  unfold indexMark
  split <;> (try split) <;> decide

/-- A path that is not in the index has a blank second mark. -/
theorem index_ne_none_of_fileMark (h : r.fileMark p ≠ ' ') : r.index[p]? ≠ none := by
  intro hnone
  unfold fileMark at h
  rw [hnone] at h
  exact h rfl

/-- The second mark is blank where the files are what the index is. -/
theorem fileMark_eq_blank_iff {b : β} (h : r.index[p]? = some (Entry.staged b)) :
    r.fileMark p = ' ' ↔ r.files[p]? = some b := by
  unfold fileMark
  rw [h]
  cases r.files[p]? with
  | none => simp
  | some a =>
    simp
    grind

theorem mem_changedPaths :
    p ∈ r.changedPaths ↔ r.indexMark p ≠ ' ' ∨ r.fileMark p ≠ ' ' := by
  unfold changedPaths
  rw [List.mem_filter, Std.ExtTreeMap.mem_keys, Bool.or_eq_true, decide_eq_true_eq,
    decide_eq_true_eq, and_iff_right_iff_imp]
  intro h
  rw [Std.ExtTreeMap.mem_union_iff]
  by_contra hnot
  obtain ⟨hhead, hindex⟩ := not_or.mp hnot
  have hindex : r.index[p]? = none := Std.ExtTreeMap.getElem?_eq_none hindex
  obtain hmark | hmark := h
  · refine hmark (indexMark_eq_blank_iff.mpr ?_)
    rw [hindex, Std.ExtTreeMap.getElem?_eq_none hhead]
  · exact index_ne_none_of_fileMark hmark hindex

/-- Trimmed or not, a line with a mark shows something staged when it is the first. -/
theorem anyStaged_trimmed_statusLine {x y : Char} {lines : List (List Char)}
    (h : x ≠ ' ' ∨ y ≠ ' ') (hx : x ≠ '?') (hy : y ≠ '?') :
    anyStaged (trimmed (statusLine x y p :: lines)) = true := by
  unfold anyStaged trimmed statusLine
  rw [List.any_cons, Bool.or_eq_true]
  left
  by_cases hblank : x = ' '
  · have hy' : y ≠ ' ' := h.resolve_left (not_not.mpr hblank)
    rw [List.dropWhile_cons_of_pos (by simpa using hblank),
      List.dropWhile_cons_of_neg (by simpa using hy')]
    simp [hy, hy']
  · rw [List.dropWhile_cons_of_neg (by simpa using hblank)]
    simp [hx, hblank]

/-- Untracked files do not count. -/
theorem anyStaged_untracked (h : r.changedPaths = []) :
    anyStaged (trimmed r.status) = false := by
  have hlines : trimmed r.status = r.untrackedPaths.map (statusLine '?' '?') := by
    unfold status
    rw [h, List.map_nil, List.nil_append]
    cases r.untrackedPaths with
    | nil => rfl
    | cons p ps => rfl
  unfold anyStaged
  rw [hlines, List.any_eq_false]
  intro line hline
  obtain ⟨p, -, rfl⟩ := List.mem_map.mp hline
  simp [statusLine]

/-- **What is taken to be staged**: anything tracked that has changed at all. The
blank that shows a change not to be staged is trimmed off the first line. -/
theorem anyStaged_iff : anyStaged (trimmed r.status) = true
    ↔ ∃ p, r.indexMark p ≠ ' ' ∨ r.fileMark p ≠ ' ' := by
  simp only [← mem_changedPaths]
  cases hchanged : r.changedPaths with
  | nil =>
    refine iff_of_false (fun h => ?_) fun ⟨p, hp⟩ => by cases hp
    rw [anyStaged_untracked hchanged] at h
    cases h
  | cons p ps =>
    refine iff_of_true ?_ ⟨p, List.mem_cons_self⟩
    have hmark : r.indexMark p ≠ ' ' ∨ r.fileMark p ≠ ' ' := by
      rw [← mem_changedPaths, hchanged]
      exact List.mem_cons_self
    unfold status
    rw [hchanged]
    exact anyStaged_trimmed_statusLine hmark indexMark_ne_untracked fileMark_ne_untracked

/-- There is nothing staged: the index is what the commit has. -/
theorem index_eq_headIndex_iff :
    r.index = r.headIndex ↔ ∀ p, r.indexMark p = ' ' := by
  simp only [indexMark_eq_blank_iff]
  exact ⟨fun h p => by rw [h], Std.ExtTreeMap.ext_getElem?⟩

/-! ## What a commit holds -/

/-- **A commit is made of all of the index**, with nothing unmerged in it and something
changed. -/
theorem commit_eq_some_iff {r' : Repo β} : r.commit = some r'
    ↔ (∀ p : RepoPath, r.index[p]? ≠ some Entry.unmerged) ∧ r.index ≠ r.headIndex
      ∧ r' = { r with head := r.index.filterMap fun _ e => e.content? } := by
  have hunmerged : r.index.toList.any (fun e => e.snd = Entry.unmerged) = true
      ↔ ∃ p : RepoPath, r.index[p]? = some Entry.unmerged := by
    rw [List.any_eq_true]
    constructor
    · rintro ⟨⟨p, e⟩, hmem, he⟩
      obtain rfl := of_decide_eq_true he
      exact ⟨p, Std.ExtTreeMap.mem_toList_iff_getElem?_eq_some.mp hmem⟩
    · rintro ⟨p, hp⟩
      exact ⟨(p, Entry.unmerged), Std.ExtTreeMap.mem_toList_iff_getElem?_eq_some.mpr hp,
        decide_eq_true rfl⟩
  unfold commit
  rw [← not_exists, ← hunmerged]
  split
  case isTrue h => simp [h]
  case isFalse h =>
    split
    case isTrue hindex => simp [hindex]
    case isFalse hindex => simp [h, hindex, eq_comm]

/-- What a commit has at a path is what the index has there. -/
theorem getElem?_commit_head {r' : Repo β} (h : r.commit = some r') :
    r'.head[p]?.map Entry.staged = r.index[p]? := by
  obtain ⟨hmerged, -, rfl⟩ := commit_eq_some_iff.mp h
  show ((r.index.filterMap _)[p]?).map _ = _
  rw [Std.ExtTreeMap.getElem?_filterMap']
  cases hp : r.index[p]? with
  | none => rfl
  | some e =>
    cases e with
    | staged b => rfl
    | unmerged => exact absurd hp (hmerged p)

end Status

end Repo

end Git
