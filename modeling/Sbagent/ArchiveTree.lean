import Sbagent.BotCommits
import Sbagent.Calls
import Sbagent.Grouping
import Sbagent.Runs

/-!
# What the branch of a session holds

An attempt to archive a session copies its results into a worktree of the
session's own branch, commits them there, and writes the name of that commit
into the record. The branch is made by the first attempt, at the commit the
operator's branch is on, and stays when the attempt fails; the next one copies
over what it finds there and removes nothing.

So the commit that a record names has the results of its attempt, and beside
them whatever the branch had at that place: a file that an earlier attempt
committed and that was removed since, above all. It has the results and nothing
else exactly when there was no such file (`Covers`), and in a run of attempts
that is what each attempt that succeeds needs.

A commit is never changed once it is made, so its name stands here for what it
holds.
-/

open Fallible Git

namespace ArchiveTree

/-- The directory of a session in the tree of its branch. -/
def sessionDir (id : String) : RepoPath := ["sessions", id]

/-- The directory of its results. -/
def resultsDir (id : String) : RepoPath := sessionDir id ++ ["results"]

/-! ## Attempts -/

/-- The calls of an attempt that finds the session not archived yet. -/
inductive Call where
  /-- The branch, the worktree and the artifacts of the session are looked at. -/
  | checks
  | worktreeAdd
  | copy
  | commit
  | revParse
  | pushBranch
  | pull
  | append
  | commitLedger
  | pushLedger
  deriving DecidableEq

/-- An attempt: the files it reads from the results directory, and how it is
interrupted. -/
structure Attempt (β : Type) where
  read : Git.Tree β
  ignored : RepoPath → Bool
  interruption : Option (Calls.Interruption Call)

/-- What an attempt has made so far. -/
structure Archiving (β : Type) where
  /-- The tip of the session's branch, if there is one. -/
  branch : Option (Git.Tree β)
  worktree : Option (Repo β)
  branchSha : Option (Git.Tree β)
  /-- The ledger has the session. -/
  archived : Bool

variable {β : Type}

/-- A worktree in which a commit was just checked out. -/
def checkout (base : Git.Tree β) (ignored : RepoPath → Bool) : Repo β where
  head := base
  index := base.map fun _ content => Entry.staged content
  files := base
  dirs := []
  ignored := ignored

/-- The results under the paths that they are copied to. -/
def copied (id : String) (read : Git.Tree β) : Git.Tree β :=
  Keyed.insertAll compare (read.toList.map fun e => (resultsDir id ++ e.fst, e.snd))

/-- A file stands where a directory is to be made, or the other way round. -/
def copyRefuses (id : String) (base read : Git.Tree β) : Bool :=
  base.keys.any fun p => p.isPrefixOf (resultsDir id)
    || (copied id read).keys.any fun q => p ≠ q && (p.isPrefixOf q || q.isPrefixOf p)

/-- The results are copied into a worktree, over what is there. -/
def copyDirRecursive (id : String) (read : Git.Tree β) (wt : Repo β) : Fallible (Repo β) :=
  let dest := String.intercalate "/" (resultsDir id)
  if copyRefuses id wt.files read = true then bail s!"copy bulk results into {dest}"
  else
    Except.ok
      { wt with
        files := wt.files ∪ copied id read
        dirs := wt.dirs ++ [["sessions"], sessionDir id, resultsDir id] }

section Commit

variable [DecidableEq β]

/-- What is in the worktree of the session is committed to its branch. -/
def stageForceAndCommit (id : String) (wt : Repo β) : Fallible (Repo β) :=
  match GitEnds.working.stageForceAndCommit [sessionDir id] s!"archive: {id}" wt with
  | (Except.ok _, wt') => Except.ok wt'
  | (Except.error e, _) => Except.error e

/-- The call has no part in what the branch holds. -/
def unseen (a : Archiving β) : Fallible (Archiving β) := Except.ok a

/-- What an attempt does, one call after another. -/
def calls (id : String) (main : Git.Tree β) (at' : Attempt β) :
    List (Call × (Archiving β → Fallible (Archiving β))) :=
  [(Call.checks, unseen),
    (Call.worktreeAdd, fun a =>
      let base := a.branch.getD main
      Except.ok
        { a with branch := some base, worktree := some (checkout base at'.ignored) }),
    (Call.copy, fun a => do
      let wt ← ofOption a.worktree "no worktree"
      let wt ← copyDirRecursive id at'.read wt
      Except.ok { a with worktree := some wt }),
    (Call.commit, fun a => do
      let wt ← ofOption a.worktree "no worktree"
      let wt ← stageForceAndCommit id wt
      Except.ok { a with branch := some wt.head, worktree := some wt }),
    (Call.revParse, fun a => do
      let wt ← ofOption a.worktree "no worktree"
      Except.ok { a with branchSha := some wt.head }),
    (Call.pushBranch, unseen),
    (Call.pull, unseen),
    (Call.append, fun a => Except.ok { a with archived := true }),
    (Call.commitLedger, unseen),
    (Call.pushLedger, unseen)]

/-! ## Runs of attempts -/

/-- What is there between two attempts. -/
structure State (β : Type) where
  /-- What the operator's branch is on. -/
  main : Git.Tree β
  /-- The tip of the session's branch, if there is one. -/
  branch : Option (Git.Tree β)
  /-- The ledger has the session. -/
  archived : Bool
  /-- The last event was that an attempt has appended its record and succeeded:
  the commit that the record names, and the files that the attempt has read. -/
  appended : Option (Git.Tree β × Git.Tree β)

/-- What can happen next. -/
inductive Event (β : Type) where
  /-- The operator's branch moves, and the ledger with it. -/
  | moves (main : Git.Tree β) (archived : Bool)
  | attempt (at' : Attempt β)

namespace State

/-- What the worktree of an attempt begins with: the session's branch, which is
made from the operator's when there is none. -/
def base (s : State β) : Git.Tree β := s.branch.getD s.main

/-- An attempt before its first call. -/
def beginning (s : State β) : Archiving β := ⟨s.branch, none, none, false⟩

/-- An attempt. It is over at once when the ledger has the session. -/
def archive (id : String) (s : State β) (at' : Attempt β) : State β :=
  if s.archived = true then { s with appended := none }
  else
    let r := Calls.perform at'.interruption (calls id s.main at') s.beginning
    { s with
      branch := r.snd.branch
      archived := r.snd.archived
      appended :=
        if r.fst = Calls.returned then r.snd.branchSha.map fun sha => (sha, at'.read)
        else none }

end State

/-- One event. -/
def step (id : String) (s : State β) : Event β → Option (State β)
  | Event.moves main archived =>
    some { s with main := main, archived := archived, appended := none }
  | Event.attempt at' => some (s.archive id at')

end Commit

/-- A commit has exactly the files that were read, and what was read of them. -/
def Faithful (id : String) (commit read : Git.Tree β) : Prop :=
  ∀ p : RepoPath, commit[resultsDir id ++ p]? = read[p]?

/-- The commit that a record names has exactly the files that its attempt has
read. -/
def State.Sound (id : String) (s : State β) : Prop :=
  ∀ commit read, s.appended = some (commit, read) → Faithful id commit read

/-- What git stages at the place of the results, the results have: the branch
has no file there that they have not. And they have no file that git does not
stage, because it looks like a part of a repository. -/
def Covers (id : String) (base read : Git.Tree β) : Prop :=
  ∀ p : RepoPath, if (resultsDir id ++ p).contains ".git" = true then read[p]? = none
    else base[resultsDir id ++ p]? ≠ none → read[p]? ≠ none

/-- The condition on an event. When an attempt on a session that is not archived
is not interrupted, and can copy the results, they cover what its worktree begins
with. -/
def KeepsTree (id : String) (s : State β) : Event β → Prop
  | Event.moves _ _ => True
  | Event.attempt at' => s.archived = false → at'.interruption = none →
    copyRefuses id s.base at'.read = false → Covers id s.base at'.read

/-! ## The worktree when the results are in it -/

section Worktree

variable {id : String} {base read : Git.Tree β} {ignored : RepoPath → Bool}
  {wt wt' : Repo β} {p q : RepoPath} {b : β}

theorem getElem?_copied_eq_some_iff :
    (copied id read)[q]? = some b ↔ ∃ p, resultsDir id ++ p = q ∧ read[p]? = some b := by
  have hkeys : (read.toList.map fun e => (resultsDir id ++ e.fst, e.snd)).map Prod.fst
      = read.keys.map fun p => resultsDir id ++ p := by
    rw [← Std.ExtTreeMap.map_fst_toList_eq_keys, List.map_map, List.map_map]
    rfl
  have hnodup : ((read.toList.map fun e => (resultsDir id ++ e.fst, e.snd)).map
      Prod.fst).Nodup := by
    rw [hkeys]
    exact Std.ExtTreeMap.nodup_keys.map (List.append_right_injective (resultsDir id))
  unfold copied
  rw [Keyed.getElem?_insertAll_eq_some_iff hnodup, List.mem_map]
  constructor
  · rintro ⟨e, he, heq⟩
    obtain ⟨rfl, rfl⟩ := Prod.mk.inj heq
    exact ⟨e.fst, rfl, Std.ExtTreeMap.mem_toList_iff_getElem?_eq_some.mp he⟩
  · rintro ⟨p, rfl, hp⟩
    exact ⟨(p, b), Std.ExtTreeMap.mem_toList_iff_getElem?_eq_some.mpr hp, rfl⟩

/-- **The results are found under the paths that they are copied to**, -/
theorem getElem?_copied : (copied id read)[resultsDir id ++ p]? = read[p]? := by
  refine Option.ext fun b => ?_
  rw [getElem?_copied_eq_some_iff]
  constructor
  · rintro ⟨p', heq, hp⟩
    rwa [← List.append_cancel_left heq]
  · exact fun hp => ⟨p, rfl, hp⟩

/-- and nothing is found anywhere else. -/
theorem getElem?_copied_of_not_prefix (h : ¬ resultsDir id <+: q) :
    (copied id read)[q]? = none := by
  rw [Option.eq_none_iff_forall_ne_some]
  intro b hb
  obtain ⟨p, rfl, -⟩ := getElem?_copied_eq_some_iff.mp hb
  exact h (List.prefix_append (resultsDir id) p)

theorem selected_of_under (h : resultsDir id <+: q) : selected [sessionDir id] q = true :=
  selected_iff.mpr ⟨sessionDir id, List.mem_singleton_self _,
    (List.prefix_append (sessionDir id) ["results"]).trans h⟩

/-- The worktree once the results are copied. -/
def filled (id : String) (base read : Git.Tree β) (ignored : RepoPath → Bool) : Repo β where
  head := base
  index := base.map fun _ content => Entry.staged content
  files := base ∪ copied id read
  dirs := [["sessions"], sessionDir id, resultsDir id]
  ignored := ignored

theorem copyDirRecursive_ok_iff :
    copyDirRecursive id read (checkout base ignored) = Except.ok wt
      ↔ copyRefuses id base read = false ∧ filled id base read ignored = wt := by
  unfold copyDirRecursive
  split
  case isTrue h =>
    refine iff_of_false (fun hok => nomatch hok) fun hok => ?_
    exact Bool.noConfusion (h.symm.trans hok.left)
  case isFalse h =>
    rw [Bool.not_eq_true] at h
    rw [Except.ok.injEq]
    exact ⟨fun hwt => ⟨h, hwt⟩, fun hwt => hwt.right⟩

theorem getElem?_filled_files :
    (filled id base read ignored).files[q]? = ((copied id read)[q]?).or base[q]? :=
  Std.ExtTreeMap.getElem?_union

theorem getElem?_filled_index :
    (filled id base read ignored).index[q]? = base[q]?.map Entry.staged :=
  Std.ExtTreeMap.getElem?_map

/-- Staging the session by force stages all files of its results, except what looks
like a part of a repository. -/
theorem getElem?_staged_index :
    ((filled id base read ignored).add true [sessionDir id]).index[resultsDir id ++ p]?
      = (if (resultsDir id ++ p).contains ".git" = true then none
          else (read[p]?).or base[resultsDir id ++ p]?).map Entry.staged := by
  have hsel := selected_of_under (List.prefix_append (resultsDir id) p)
  rw [Repo.getElem?_add_index_of_selected hsel, Repo.getElem?_added, hsel,
    getElem?_filled_files, getElem?_copied]
  cases (resultsDir id ++ p).contains ".git" with
  | true => rfl
  | false => rfl

/-- Nothing is refused, -/
theorem addRefuses_filled :
    (filled id base read ignored).addRefuses true [sessionDir id] = false := by
  have hexists : (filled id base read ignored).exists? (sessionDir id) = true := by
    unfold Repo.exists? filled
    rw [Bool.or_eq_true]
    exact Or.inl (List.contains_iff_mem.mpr (by simp))
  unfold Repo.addRefuses
  rw [List.any_cons, hexists]
  simp

/-- nothing is unmerged, -/
theorem staged_index_ne_unmerged :
    ((filled id base read ignored).add true [sessionDir id]).index[q]?
      ≠ some Entry.unmerged := by
  rw [Repo.getElem?_add_index, getElem?_filled_index]
  cases ((filled id base read ignored).added true [sessionDir id])[q]? with
  | some content => simp
  | none =>
    split_ifs
    · simp
    · cases base[q]? with
      | some content => simp
      | none => simp

variable [DecidableEq β]

/-- and what is staged is what the files are. -/
theorem fileMark_staged :
    ((filled id base read ignored).add true [sessionDir id]).fileMark q = ' ' := by
  by_contra hmark
  have hne := Repo.index_ne_none_of_fileMark hmark
  obtain ⟨e, he⟩ := Option.ne_none_iff_exists'.mp hne
  cases e with
  | unmerged => exact staged_index_ne_unmerged he
  | staged content =>
    refine hmark ((Repo.fileMark_eq_blank_iff he).mpr ?_)
    rw [Repo.add_files]
    cases hsel : selected [sessionDir id] q with
    | true =>
      rw [Repo.getElem?_add_index_of_selected hsel, Repo.getElem?_added] at he
      split at he
      case isTrue =>
        obtain ⟨content', hfile, heq⟩ := Option.map_eq_some_iff.mp he
        rw [hfile, Entry.staged.inj heq]
      case isFalse => cases he
    | false =>
      rw [Repo.getElem?_add_index_of_not_selected hsel, getElem?_filled_index] at he
      split at he
      case isTrue => cases he
      case isFalse =>
        obtain ⟨content', hbase, heq⟩ := Option.map_eq_some_iff.mp he
        have hout : ¬ resultsDir id <+: q := by
          intro hpre
          rw [selected_of_under hpre] at hsel
          cases hsel
        rw [getElem?_filled_files, getElem?_copied_of_not_prefix hout, hbase,
          Entry.staged.inj heq]
        rfl

/-- So the results can be committed. -/
theorem stageForceAndCommit_ok (id : String) (base read : Git.Tree β)
    (ignored : RepoPath → Bool) :
    ∃ wt, stageForceAndCommit id (filled id base read ignored) = Except.ok wt := by
  have hworks : ∃ outcome wt, GitEnds.working.stageForceAndCommit [sessionDir id]
      s!"archive: {id}" (filled id base read ignored) = (Except.ok outcome, wt) :=
    stageForceAndCommit_works (List.cons_ne_nil (sessionDir id) []) addRefuses_filled
      (fun _ => staged_index_ne_unmerged) fun _ => fileMark_staged
  obtain ⟨outcome, wt, hworks⟩ := hworks
  refine ⟨wt, ?_⟩
  unfold stageForceAndCommit
  rw [hworks]

/-- **What the commit has at the place of the results**: the results, and beside them
what the branch had there; except for what looks like a part of a repository. -/
theorem getElem?_committed
    (h : stageForceAndCommit id (filled id base read ignored) = Except.ok wt) :
    wt.head[resultsDir id ++ p]?
      = if (resultsDir id ++ p).contains ".git" = true then none
        else (read[p]?).or base[resultsDir id ++ p]? := by
  unfold stageForceAndCommit at h
  split at h
  case h_1 outcome wt' hworks =>
    obtain rfl := Except.ok.inj h
    have hhead := stageForceAndCommit_head (List.cons_ne_nil (sessionDir id) []) hworks
      (resultsDir id ++ p)
    rw [getElem?_staged_index] at hhead
    exact Option.map_injective (fun _ _ heq => Entry.staged.inj heq) hhead
  case h_2 => cases h

/-- **The commit has exactly the results when they cover what the branch had.** -/
theorem faithful_iff_covers
    (h : stageForceAndCommit id (filled id base read ignored) = Except.ok wt) :
    Faithful id wt.head read ↔ Covers id base read := by
  unfold Faithful Covers
  refine forall_congr' fun p => ?_
  rw [getElem?_committed h]
  split_ifs with hgit
  · exact eq_comm
  · cases read[p]? with
    | some content => simp
    | none => simp

end Worktree

/-! ## Attempts that succeed -/

section Runs

variable [DecidableEq β] {id : String} {main : Git.Tree β} {at' : Attempt β}
  {branch : Option (Git.Tree β)} {a : Archiving β} {s s' : State β}

/-- **What the calls of an attempt do when none is interrupted.** They fail only when
the results can not be copied. -/
theorem effects_calls_eq_ok_iff :
    Calls.effects (calls id main at') ⟨branch, none, none, false⟩ = Except.ok a
      ↔ copyRefuses id (branch.getD main) at'.read = false
        ∧ ∃ wt, stageForceAndCommit id
            (filled id (branch.getD main) at'.read at'.ignored) = Except.ok wt
          ∧ a = ⟨some wt.head, some wt, some wt.head, true⟩ := by
  unfold calls Calls.effects
  simp only [Calls.effects, unseen, bind_ok_iff, ofOption_ok_iff, Except.ok.injEq]
  constructor
  · rintro ⟨-, rfl, -, rfl, a₃, ⟨wt₁, hwt₁, wt₂, hcopy, rfl⟩, a₄, ⟨wt₃, hwt₃, wt₄, hcommit, rfl⟩,
      a₅, ⟨wt₅, hwt₅, rfl⟩, -, rfl, -, rfl, -, rfl, -, rfl, -, rfl, rfl⟩
    obtain rfl := Option.some.inj hwt₁
    obtain ⟨hrefuses, rfl⟩ := copyDirRecursive_ok_iff.mp hcopy
    obtain rfl := Option.some.inj hwt₃
    obtain rfl := Option.some.inj hwt₅
    exact ⟨hrefuses, wt₄, hcommit, rfl⟩
  · rintro ⟨hrefuses, wt, hcommit, rfl⟩
    have hcopy : copyDirRecursive id at'.read (checkout (branch.getD main) at'.ignored)
        = Except.ok (filled id (branch.getD main) at'.read at'.ignored) :=
      copyDirRecursive_ok_iff.mpr ⟨hrefuses, rfl⟩
    exact ⟨_, rfl, _, rfl, _, ⟨_, rfl, _, hcopy, rfl⟩, _, ⟨_, rfl, _, hcommit, rfl⟩,
      _, ⟨_, rfl, rfl⟩, _, rfl, _, rfl, _, rfl, _, rfl, _, rfl, rfl⟩

/-- An attempt returns without an error exactly when it is not interrupted and its
calls do not fail. -/
theorem perform_calls_eq_returned_iff :
    (Calls.perform at'.interruption (calls id main at') a).fst = Calls.returned
      ↔ at'.interruption = none ∧ Calls.effects (calls id main at') a
        = Except.ok (Calls.perform at'.interruption (calls id main at') a).snd := by
  rw [Calls.perform_fst_eq_returned_iff]
  refine and_congr_left' ⟨fun h => ?_, fun h => ?_⟩
  · rw [Option.eq_none_iff_forall_ne_some]
    intro x hx
    have hcall : ∃ c ∈ calls id main at', x.call = c.fst := by
      cases x.call <;> simp [calls]
    obtain ⟨c, hc, heq⟩ := hcall
    exact h c hc x hx heq
  · rw [h]
    exact fun _ _ _ hx => nomatch hx

/-- **What an attempt has appended when it has succeeded**: a record that names a
commit with the results in it. -/
theorem appended_archive_iff {commit read : Git.Tree β} :
    (s.archive id at').appended = some (commit, read)
      ↔ s.archived = false ∧ at'.interruption = none
        ∧ copyRefuses id s.base at'.read = false ∧ read = at'.read
        ∧ ∃ wt, stageForceAndCommit id (filled id s.base at'.read at'.ignored)
            = Except.ok wt ∧ commit = wt.head := by
  unfold State.archive
  split
  case isTrue harchived =>
    refine iff_of_false (Option.some_ne_none _).symm fun h => ?_
    exact Bool.noConfusion (harchived.symm.trans h.left)
  case isFalse harchived =>
    rw [Bool.not_eq_true] at harchived
    dsimp only
    split
    case isTrue hreturned =>
      obtain ⟨hnone, heffects⟩ := perform_calls_eq_returned_iff.mp hreturned
      obtain ⟨hrefuses, wt, hcommit, hend⟩ := effects_calls_eq_ok_iff.mp heffects
      rw [hend, Option.map_some, Option.some.injEq, Prod.mk.injEq]
      constructor
      · rintro ⟨rfl, rfl⟩
        exact ⟨harchived, hnone, hrefuses, rfl, wt, hcommit, rfl⟩
      · rintro ⟨-, -, -, rfl, wt', hcommit', rfl⟩
        obtain rfl := Except.ok.inj (hcommit.symm.trans hcommit')
        exact ⟨rfl, rfl⟩
    case isFalse hreturned =>
      refine iff_of_false (Option.some_ne_none _).symm ?_
      rintro ⟨-, hnone, hrefuses, -, wt, hcommit, -⟩
      refine hreturned (perform_calls_eq_returned_iff.mpr ⟨hnone, ?_⟩)
      have heffects := effects_calls_eq_ok_iff.mpr ⟨hrefuses, wt, hcommit, rfl⟩
      -- the append is the last call: if all before it succeed, it is made
      have hrun : Calls.perform at'.interruption (calls id s.main at') s.beginning
          = (Calls.returned, ⟨some wt.head, some wt, some wt.head, true⟩) := by
        rw [hnone]
        exact Calls.perform_of_forall_ne (fun _ _ x hx => absurd hx (Option.not_mem_none x))
          heffects
      rw [hrun]
      exact heffects

/-- **An event leaves what it should exactly when it meets the condition.** -/
theorem sound_step_iff {e : Event β} (h : step id s e = some s') :
    s'.Sound id ↔ KeepsTree id s e := by
  cases e with
  | moves main archived =>
    obtain rfl := Option.some.inj h
    exact iff_of_true (fun _ _ happended => nomatch happended) trivial
  | attempt at' =>
    obtain rfl := Option.some.inj h
    unfold State.Sound KeepsTree
    constructor
    · intro hsound harchived hnone hrefuses
      obtain ⟨wt, hcommit⟩ := stageForceAndCommit_ok id s.base at'.read at'.ignored
      refine (faithful_iff_covers hcommit).mp (hsound wt.head at'.read ?_)
      exact appended_archive_iff.mpr ⟨harchived, hnone, hrefuses, rfl, wt, hcommit, rfl⟩
    · intro hcovers commit read happended
      obtain ⟨harchived, hnone, hrefuses, rfl, wt, hcommit, rfl⟩ :=
        appended_archive_iff.mp happended
      exact (faithful_iff_covers hcommit).mpr (hcovers harchived hnone hrefuses)

theorem step_total (s : State β) (e : Event β) : ∃ s', step id s e = some s' := by
  cases e with
  | moves main archived => exact ⟨_, rfl⟩
  | attempt at' => exact ⟨_, rfl⟩

/-- **Snapshots of the results.** In a run of attempts on a session, each that has
appended its record and succeeded has named a commit with exactly the files that it
has read, if and only if each of them has begun with a branch that has no file at
that place which the results have not any more, and the results look nowhere like a
repository. -/
theorem sound_of_run_iff (s : State β) (es : List (Event β)) :
    (∀ es₁ s₁, es₁ ≠ [] → es₁ <+: es → Runs.run (step id) s es₁ = some s₁ → s₁.Sound id)
      ↔ Runs.Throughout (step id) (KeepsTree id) s es :=
  (Runs.throughout_iff_forall_prefix step_total fun _ _ _ => sound_step_iff).symm

end Runs

/-! ## A file that was removed between two attempts -/

/-- Results of two files, -/
def twoFiles : Git.Tree String :=
  ((∅ : Git.Tree String).insert ["summary.json"] "s").insert ["logs", "run.log"] "l"

/-- and what is left of them when one was cleaned away. -/
def cleaned : Git.Tree String := (∅ : Git.Tree String).insert ["summary.json"] "s"

/-- An attempt whose push of the session's branch fails. -/
def pushFails : Attempt String :=
  ⟨twoFiles, fun _ => false, some ⟨Call.pushBranch, false, some ["push failed"]⟩⟩

/-- A session that was never archived. -/
def unarchived : State String := ⟨∅, none, false, none⟩

/-- **The record of an attempt that follows one that has failed names a commit with a
file that was removed in between.** -/
theorem not_sound_of_removed :
    ∃ s commit, Runs.run (step "s1") unarchived
        [Event.attempt pushFails, Event.attempt ⟨cleaned, fun _ => false, none⟩] = some s
      ∧ s.appended = some (commit, cleaned)
      ∧ commit[resultsDir "s1" ++ ["logs", "run.log"]]? = some "l"
      ∧ cleaned[["logs", "run.log"]]? = none ∧ ¬ s.Sound "s1" := by
  let s := (unarchived.archive "s1" pushFails).archive "s1" ⟨cleaned, fun _ => false, none⟩
  have hout : (s.appended.map fun c => c.fst[resultsDir "s1" ++ ["logs", "run.log"]]?)
      = some (some "l") := by
    decide +kernel
  obtain ⟨⟨commit, read⟩, happended, hkept⟩ := Option.map_eq_some_iff.mp hout
  obtain ⟨-, -, -, rfl, -⟩ := appended_archive_iff.mp happended
  have hremoved : cleaned[["logs", "run.log"]]? = none := by decide +kernel
  refine ⟨s, commit, rfl, happended, hkept, hremoved, fun hsound => ?_⟩
  have hsame := hsound commit cleaned happended ["logs", "run.log"]
  rw [hremoved] at hsame
  exact Option.some_ne_none "l" (hkept.symm.trans hsame)

end ArchiveTree
