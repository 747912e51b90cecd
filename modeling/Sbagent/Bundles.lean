import Sbagent.OpenFiles
import Sbagent.Parties
import Sbagent.Common

/-!
# The bundles on disk

The binary carries four bundles of files – prompts, schemas, queries and context
docs – and writes each to a directory of the operator's. Every start seeds: it
creates what is not there and keeps what is. `sbagent sync` rewrites all of it.
Starts and syncs run at the same time, in several processes, and each of them may
fail or be killed between two writes.

Creating a file and filling it are two things. A start that finds a file keeps it,
also when the process that created it has not written to it yet; and who is killed
in between leaves a file behind that every later start keeps. So what the starts
and syncs have made of a file is settled only when nobody is inside of it, or was when
it stopped, and then it is the same for every interleaving (`bundle_settled`): the file
is what the bundle says if somebody has written it, and otherwise what it was.

Creating the directory itself is left out, and an error of the file system is one
of the ways in which a process stops.
-/

open OpenFiles

namespace Bundles

abbrev Dir : Type := Directory String UInt8

/-- What a text is on disk. -/
def bytesOf (s : String) : List UInt8 := s.toByteArray.data.toList

/-- Read what is on disk as a text, if it is one. -/
def readToString (bs : List UInt8) : Option String := String.fromUTF8? ⟨bs.toArray⟩

/-- The files of a bundle, in order. -/
structure Bundle where
  files : List (String × String)
  nodup : (files.map Prod.fst).Nodup

/-! ## Drift -/

/-- A finding. -/
inductive DriftEntry where
  | missing (fileName : String)
  | differs (fileName : String)
  deriving DecidableEq

/-- The file that a finding is about. -/
def DriftEntry.fileName : DriftEntry → String
  | missing fileName => fileName
  | differs fileName => fileName

/-- What is found of one file. Reading one that is not a text fails. -/
def driftOf (what : String) (d : Dir) (f : String × String) : Fallible (List DriftEntry) :=
  match d.read f.1 with
  | none => Except.ok [DriftEntry.missing f.1]
  | some bs =>
    match readToString bs with
    | some s => Except.ok (if s = f.2 then [] else [DriftEntry.differs f.1])
    | none => Except.error ["reading on-disk " ++ what ++ " " ++ f.1]

/-- Compare the files of a bundle with what is on disk. -/
def drift (what : String) (b : Bundle) (d : Dir) : Fallible (List DriftEntry) :=
  (b.files.mapM (driftOf what d)).map List.flatten

/-! ## Starts and syncs -/

/-- What a process does about a file that is there: keep it, or write it again. -/
inductive Mode where
  | seed
  | sync
  deriving DecidableEq

/-- Where a process is. -/
inductive Phase where
  | between
  /-- It has opened the first of the files that it still has to do. -/
  | writing (i off : ℕ)
  | returned
  deriving DecidableEq

/-- A process that goes through a bundle. -/
structure Writer where
  mode : Mode
  todo : List (String × String)
  phase : Phase
  /-- It has failed, or been killed. -/
  stopped : Bool
  /-- The files that it has written: `seeded` of a start, `written` of a sync. -/
  written : List String
  kept : List String

/-- What a process can do next. -/
inductive Action where
  /-- Open the next file, or return. -/
  | next
  /-- Write up to so many bytes and one. -/
  | write (n : ℕ)
  /-- All of the file is written. -/
  | close
  | stop
  deriving DecidableEq

/-- What is written next, at an offset. -/
def piece (contents : String) (off n : ℕ) : List UInt8 :=
  ((bytesOf contents).drop off).take (n + 1)

namespace Writer

/-- A process that has not done anything yet. -/
def start (mode : Mode) (b : Bundle) : Writer :=
  ⟨mode, b.files, Phase.between, false, [], []⟩

/-- Open a file: with `create_new`, which fails when there is one, or truncating. -/
def openFile (d : Dir) (w : Writer) (name : String) (rest : List (String × String)) :
    Dir × Writer :=
  match w.mode, d.file name with
  | Mode.seed, some _ => (d, { w with todo := rest, kept := w.kept ++ [name] })
  | Mode.sync, some i => (d.store i [], { w with phase := Phase.writing i 0 })
  | _, none => (d.link name [], { w with phase := Phase.writing d.next 0 })

/-- One action. -/
def act (d : Dir) (w : Writer) (a : Action) : Option (Dir × Writer) :=
  if w.stopped then none
  else
    match a, w.phase, w.todo with
    | Action.next, Phase.between, [] => some (d, { w with phase := Phase.returned })
    | Action.next, Phase.between, f :: rest => some (openFile d w f.1 rest)
    | Action.write n, Phase.writing i off, f :: _ =>
      if off < (bytesOf f.2).length then
        some (d.store i (overwrite (d.data i) off (piece f.2 off n)),
          { w with phase := Phase.writing i (off + (piece f.2 off n).length) })
      else none
    | Action.close, Phase.writing _ off, f :: rest =>
      if off = (bytesOf f.2).length then
        some (d, { w with
          todo := rest, phase := Phase.between, written := w.written ++ [f.1] })
      else none
    | Action.stop, _, _ => some (d, { w with stopped := true })
    | _, _, _ => none

end Writer

/-- The directory, and the processes that write to it. -/
abbrev State : Type := Parties ℕ Dir Writer

/-- One process does something. -/
def step : State → ℕ × Action → Option State :=
  Parties.step fun _ d w a => w.act d a

/-! ## The four bundles -/

/-- A bundle of names, with the contents that the binary carries. -/
def Bundle.ofNames (names : List String) (h : names.Nodup) (contents : String → String) :
    Bundle where
  files := names.map fun n => (n, contents n)
  nodup := by
    rw [List.map_map]
    exact (List.map_id names).symm ▸ h

/-- `BUNDLED_TEMPLATES`. -/
def bundledTemplates : (String → String) → Bundle :=
  Bundle.ofNames ["triage.md", "analyzer.md", "merge-analyses.md", "optimizer.md",
    "results-analyzer.md", "pr-writer.md", "issue-writer.md"] (by decide)

/-- `BUNDLED_SCHEMAS`. -/
def bundledSchemas : (String → String) → Bundle :=
  Bundle.ofNames ["candidates.schema.json", "analysis.schema.json",
    "optimization-targets.schema.json", "optimizer-report.schema.json",
    "coordinator-provenance.schema.json", "summary.schema.json", "session-record.schema.json",
    "results-analysis.schema.json", "source.schema.json", "timings.schema.json",
    "publish-feedback.schema.json", "maintain-event.schema.json",
    "optimizer-memory.schema.json"] (by decide)

/-- `BUNDLED_QUERIES`. -/
def queriesBundle : (String → String) → Bundle := Bundle.ofNames bundledQueries (by decide)

/-- The context docs, each before its sidecar. -/
def bundledContext : (String → String) → Bundle :=
  Bundle.ofNames ["non-targets.md", "non-targets.toml", "bucket-anchors.md",
    "bucket-anchors.toml", "stacks-domain-context.md", "stacks-domain-context.toml"] (by decide)

namespace Prompts

def seedTo (contents : String → String) : Writer :=
  Writer.start Mode.seed (bundledTemplates contents)

def syncForce (contents : String → String) : Writer :=
  Writer.start Mode.sync (bundledTemplates contents)

def drift (contents : String → String) : Dir → Fallible (List DriftEntry) :=
  Bundles.drift "template" (bundledTemplates contents)

end Prompts

namespace Schemas

def seedTo (contents : String → String) : Writer :=
  Writer.start Mode.seed (bundledSchemas contents)

def sync (contents : String → String) : Writer :=
  Writer.start Mode.sync (bundledSchemas contents)

def drift (contents : String → String) : Dir → Fallible (List DriftEntry) :=
  Bundles.drift "schema" (bundledSchemas contents)

end Schemas

namespace Queries

def seedTo (contents : String → String) : Writer :=
  Writer.start Mode.seed (queriesBundle contents)

def sync (contents : String → String) : Writer :=
  Writer.start Mode.sync (queriesBundle contents)

def drift (contents : String → String) : Dir → Fallible (List DriftEntry) :=
  Bundles.drift "query" (queriesBundle contents)

end Queries

namespace Context

def seedTo (contents : String → String) : Writer :=
  Writer.start Mode.seed (bundledContext contents)

def syncForce (contents : String → String) : Writer :=
  Writer.start Mode.sync (bundledContext contents)

def drift (contents : String → String) : Dir → Fallible (List DriftEntry) :=
  Bundles.drift "context file" (bundledContext contents)

end Context

/-! ## What an action does -/

/-- A process is inside of a file. -/
def Writer.At (w : Writer) (f : String × String) (i off : ℕ) : Prop :=
  w.phase = Phase.writing i off ∧ ∃ rest, w.todo = f :: rest

/-- A process has written a file, or is inside of it. -/
def Writer.Has (w : Writer) (n : String) : Prop :=
  n ∈ w.written ∨ ∃ c i off, w.At (n, c) i off

/-- All that an action can do. -/
inductive Does (d : Dir) (w : Writer) : Dir → Writer → Prop where
  | returns (hphase : w.phase = Phase.between) (htodo : w.todo = []) :
      Does d w d { w with phase := Phase.returned }
  | keeps (f : String × String) (rest : List (String × String)) (i : ℕ)
      (hphase : w.phase = Phase.between) (htodo : w.todo = f :: rest)
      (hmode : w.mode = Mode.seed) (hfile : d.file f.1 = some i) :
      Does d w d { w with todo := rest, kept := w.kept ++ [f.1] }
  | truncates (f : String × String) (rest : List (String × String)) (i : ℕ)
      (hphase : w.phase = Phase.between) (htodo : w.todo = f :: rest)
      (hmode : w.mode = Mode.sync) (hfile : d.file f.1 = some i) :
      Does d w (d.store i []) { w with phase := Phase.writing i 0 }
  | creates (f : String × String) (rest : List (String × String))
      (hphase : w.phase = Phase.between) (htodo : w.todo = f :: rest)
      (hfile : d.file f.1 = none) :
      Does d w (d.link f.1 []) { w with phase := Phase.writing d.next 0 }
  | writes (f : String × String) (i off n : ℕ) (hat : w.At f i off)
      (hoff : off < (bytesOf f.2).length) :
      Does d w (d.store i (overwrite (d.data i) off (piece f.2 off n)))
        { w with phase := Phase.writing i (off + (piece f.2 off n).length) }
  | closes (f : String × String) (rest : List (String × String)) (i off : ℕ)
      (hphase : w.phase = Phase.writing i off) (htodo : w.todo = f :: rest)
      (hoff : off = (bytesOf f.2).length) :
      Does d w d { w with todo := rest, phase := Phase.between, written := w.written ++ [f.1] }
  | stops : Does d w d { w with stopped := true }

section Actions

variable {d d' : Dir} {w w' : Writer} {a : Action} {f g : String × String} {i j off p : ℕ}

theorem does_openFile {rest : List (String × String)} (hphase : w.phase = Phase.between)
    (htodo : w.todo = f :: rest) (h : w.openFile d f.1 rest = (d', w')) :
    Does d w d' w' := by
  unfold Writer.openFile at h
  split at h
  case h_1 i hmode hfile =>
    obtain ⟨rfl, rfl⟩ := Prod.mk.inj h
    exact Does.keeps f rest i hphase htodo hmode hfile
  case h_2 i hmode hfile =>
    obtain ⟨rfl, rfl⟩ := Prod.mk.inj h
    exact Does.truncates f rest i hphase htodo hmode hfile
  case h_3 hfile =>
    obtain ⟨rfl, rfl⟩ := Prod.mk.inj h
    exact Does.creates f rest hphase htodo hfile

theorem does_of_act (h : w.act d a = some (d', w')) : Does d w d' w' := by
  unfold Writer.act at h
  split at h
  · cases h
  · split at h
    case h_1 hphase htodo =>
      obtain ⟨rfl, rfl⟩ := Prod.mk.inj (Option.some.inj h)
      exact Does.returns hphase htodo
    case h_2 f rest hphase htodo =>
      exact does_openFile hphase htodo (Option.some.inj h)
    case h_3 n i off f rest hphase htodo =>
      split at h
      · obtain ⟨rfl, rfl⟩ := Prod.mk.inj (Option.some.inj h)
        exact Does.writes f i off n ⟨hphase, rest, htodo⟩ ‹_›
      · cases h
    case h_4 i off f rest hphase htodo =>
      split at h
      · obtain ⟨rfl, rfl⟩ := Prod.mk.inj (Option.some.inj h)
        exact Does.closes f rest i off hphase htodo ‹_›
      · cases h
    case h_5 =>
      obtain ⟨rfl, rfl⟩ := Prod.mk.inj (Option.some.inj h)
      exact Does.stops
    case h_6 => cases h

theorem Writer.At.unique (h : w.At f i off) (h' : w.At g j p) : f = g ∧ i = j ∧ off = p := by
  obtain ⟨hphase, rest, htodo⟩ := h
  obtain ⟨hphase', rest', htodo'⟩ := h'
  obtain ⟨hi, hoff⟩ := Phase.writing.inj (hphase.symm.trans hphase')
  exact ⟨(List.cons.inj (htodo.symm.trans htodo')).left, hi, hoff⟩

/-- What a process has when it is not inside of a file. -/
theorem Writer.has_iff_of_ne (h : ∀ i off, w.phase ≠ Phase.writing i off) {n : String} :
    w.Has n ↔ n ∈ w.written :=
  or_iff_left fun ⟨_, i, off, hat⟩ => h i off hat.left

/-- What a process has when it is inside of one. -/
theorem Writer.At.has_iff (h : w.At f i off) {n : String} :
    w.Has n ↔ n ∈ w.written ∨ n = f.1 := by
  refine or_congr_right ⟨fun ⟨c, j, p, hat⟩ => ?_, fun hn => ?_⟩
  · exact congrArg Prod.fst (hat.unique h).left
  · subst hn
    exact ⟨f.2, i, off, h⟩

theorem ne_writing_of_between (hphase : w.phase = Phase.between) (i off : ℕ) :
    w.phase ≠ Phase.writing i off := by
  rw [hphase]
  exact Phase.noConfusion

theorem not_at_of_between (hphase : w.phase = Phase.between) : ¬ w.At f i off :=
  fun h => ne_writing_of_between hphase i off h.left

end Actions

/-! ## One process -/

/-- The names of a bundle. -/
def Bundle.names (b : Bundle) : List String := b.files.map Prod.fst

/-- **What is known of one process**, whatever the others do. -/
structure Progress (b : Bundle) (d : Dir) (w : Writer) : Prop where
  /-- It has reported on the files before the ones that it has to do. -/
  split : ∃ done, b.files = done ++ w.todo ∧ (w.written ++ w.kept).Perm (done.map Prod.fst)
  /-- The file that it is inside of has its name. -/
  inside : ∀ i off, w.phase = Phase.writing i off →
    ∃ f, w.At f i off ∧ d.file f.1 = some i ∧ off ≤ (bytesOf f.2).length
  returned : w.phase = Phase.returned → w.todo = []
  linked : ∀ n ∈ w.written ++ w.kept, d.file n ≠ none
  sync : w.mode = Mode.sync → w.kept = []

/-- A name that leads to a file goes on to lead to that file. -/
def Linked (d d' : Dir) : Prop :=
  ∀ n i, d.file n = some i → d'.file n = some i

section Process

variable {b : Bundle} {d d' : Dir} {w w' : Writer} {f g : String × String} {i off : ℕ}

theorem Linked.refl (d : Dir) : Linked d d := fun _ _ h => h

theorem linked_link {n : String} {bs : List UInt8} (h : d.file n = none) :
    Linked d (d.link n bs) := by
  intro m i hm
  have hne : m ≠ n := by
    rintro rfl
    cases h.symm.trans hm
  rw [Directory.file_link_of_ne hne]
  exact hm

theorem mode_does (h : Does d w d' w') : w'.mode = w.mode := by
  cases h with
  | returns | keeps | truncates | creates | writes | closes | stops => rfl

theorem linked_does (h : Does d w d' w') : Linked d d' := by
  cases h with
  | returns | keeps | closes | stops => exact Linked.refl d
  | truncates | writes => exact fun _ _ h => h
  | creates f rest hphase htodo hfile => exact linked_link hfile

/-- What is known of a process is not undone by the others. -/
theorem Progress.mono (h : Progress b d w) (hle : Linked d d') : Progress b d' w where
  split := h.split
  inside := by
    intro i off hphase
    obtain ⟨f, hat, hfile, hoff⟩ := h.inside i off hphase
    exact ⟨f, hat, hle f.1 i hfile, hoff⟩
  returned := h.returned
  linked := by
    intro n hn hnone
    obtain ⟨i, hi⟩ := Option.ne_none_iff_exists'.mp (h.linked n hn)
    cases hnone.symm.trans (hle n i hi)
  sync := h.sync

theorem Progress.at (h : Progress b d w) (hat : w.At f i off) :
    d.file f.1 = some i ∧ off ≤ (bytesOf f.2).length := by
  obtain ⟨g, hat', hfile, hoff⟩ := h.inside i off hat.left
  obtain ⟨rfl, -, -⟩ := hat.unique hat'
  exact ⟨hfile, hoff⟩

theorem Progress.mem_files (h : Progress b d w) {rest : List (String × String)}
    (htodo : w.todo = f :: rest) : f ∈ b.files := by
  obtain ⟨done, hsplit, -⟩ := h.split
  rw [hsplit, htodo]
  exact List.mem_append_right _ List.mem_cons_self

/-- Two files of one name are one. -/
theorem Bundle.eq_of_name (hf : f ∈ b.files) (hg : g ∈ b.files) (h : f.1 = g.1) : f = g :=
  List.inj_on_of_nodup_map b.nodup hf hg h

/-- A file that a process has reported on is not among those that it has to do. -/
theorem perm_done {w : Writer} {done : List (String × String)}
    (hperm : (w.written ++ w.kept).Perm (done.map Prod.fst)) :
    (w.written ++ [f.1] ++ w.kept).Perm ((done ++ [f]).map Prod.fst)
      ∧ (w.written ++ (w.kept ++ [f.1])).Perm ((done ++ [f]).map Prod.fst) := by
  rw [List.map_append, List.map_singleton]
  constructor
  · rw [List.append_assoc]
    exact (List.Perm.append_left _ List.perm_append_comm).trans
      (by rw [← List.append_assoc]; exact hperm.append_right _)
  · rw [← List.append_assoc]
    exact hperm.append_right _

/-- **What is known of a process is kept by what it does.** -/
theorem Progress.does (h : Progress b d w) (hdoes : Does d w d' w') : Progress b d' w' := by
  have hle := linked_does hdoes
  obtain ⟨done, hsplit, hperm⟩ := h.split
  cases hdoes with
  | returns hphase htodo =>
    exact ⟨h.split, fun i off hphase' => (Phase.noConfusion hphase'), fun _ => htodo,
      h.linked, h.sync⟩
  | keeps f rest i hphase htodo hmode hfile =>
    refine ⟨⟨done ++ [f], ?_, (perm_done hperm).right⟩, ?_, ?_, ?_, ?_⟩
    · rw [hsplit, htodo, List.append_assoc, List.singleton_append]
    · exact fun i off hphase' => absurd (hphase.symm.trans hphase') Phase.noConfusion
    · exact fun hphase' => absurd (hphase.symm.trans hphase') Phase.noConfusion
    · intro n hn
      rw [← List.append_assoc] at hn
      rcases List.mem_append.mp hn with hn | hn
      · exact h.linked n hn
      · rw [List.mem_singleton.mp hn, hfile]
        exact Option.some_ne_none i
    · exact fun hsync => absurd (hmode.symm.trans hsync) Mode.noConfusion
  | truncates f rest i hphase htodo hmode hfile =>
    refine ⟨h.split, fun j off hphase' => ?_, fun hphase' => Phase.noConfusion hphase',
      (h.mono hle).linked, h.sync⟩
    obtain ⟨rfl, rfl⟩ := Phase.writing.inj hphase'
    exact ⟨f, ⟨rfl, rest, htodo⟩, hfile, Nat.zero_le _⟩
  | creates f rest hphase htodo hfile =>
    refine ⟨h.split, fun j off hphase' => ?_, fun hphase' => Phase.noConfusion hphase',
      (h.mono hle).linked, h.sync⟩
    obtain ⟨rfl, rfl⟩ := Phase.writing.inj hphase'
    exact ⟨f, ⟨rfl, rest, htodo⟩, Directory.file_link_self, Nat.zero_le _⟩
  | writes f i off n hat hoff =>
    refine ⟨h.split, fun j p hphase' => ?_, fun hphase' => Phase.noConfusion hphase',
      (h.mono hle).linked, h.sync⟩
    obtain ⟨rfl, rfl⟩ := Phase.writing.inj hphase'
    exact ⟨f, ⟨rfl, hat.right⟩, (h.at hat).left, length_piece_le _ hoff.le⟩
  | closes f rest i off hphase htodo hoff =>
    have hfile := (h.at ⟨hphase, rest, htodo⟩).left
    refine ⟨⟨done ++ [f], ?_, (perm_done hperm).left⟩, ?_, ?_, ?_, h.sync⟩
    · rw [hsplit, htodo, List.append_assoc, List.singleton_append]
    · exact fun i off hphase' => Phase.noConfusion hphase'
    · exact fun hphase' => Phase.noConfusion hphase'
    · intro n hn
      rcases List.mem_append.mp hn with hn | hn
      · rcases List.mem_append.mp hn with hn | hn
        · exact h.linked n (List.mem_append_left _ hn)
        · rw [List.mem_singleton.mp hn, hfile]
          exact Option.some_ne_none i
      · exact h.linked n (List.mem_append_right _ hn)
  | stops => exact ⟨h.split, h.inside, h.returned, h.linked, h.sync⟩

end Process

/-! ## All of them -/

/-- Processes that have not done anything yet, at a directory. -/
def start (b : Bundle) (d₀ : Dir) (mode : ℕ → Mode) : State :=
  ⟨d₀, fun k => Writer.start (mode k) b⟩

/-- The name and its file are what they were. -/
def SameFile (d₀ d : Dir) (n : String) : Prop :=
  d.file n = d₀.file n ∧ ∀ i, d₀.file n = some i → d.data i = d₀.data i

/-- Nobody has written a file, and it is what it was. -/
def Untouched (d₀ : Dir) (s : State) (n : String) : Prop :=
  SameFile d₀ s.shared n ∧ ∀ k, ¬ (s.own k).Has n

/-- Somebody has written a file or is inside of it, and it is right up to where the
one who opened it last has come. -/
def Underway (s : State) (f : String × String) : Prop :=
  ∃ i p, s.shared.file f.1 = some i ∧ Upto (bytesOf f.2) p (s.shared.data i)
    ∧ (∃ k, (s.own k).Has f.1) ∧ (p = (bytesOf f.2).length ∨ ∃ k, (s.own k).At f i p)

/-- What every action keeps. -/
structure Inv (b : Bundle) (d₀ : Dir) (s : State) : Prop where
  progress : ∀ k, Progress b s.shared (s.own k)
  file : ∀ f ∈ b.files, Untouched d₀ s f.1 ∨ Underway s f
  outside : ∀ n, n ∉ b.names → SameFile d₀ s.shared n
  /-- A start writes only what was not there. -/
  absent : ∀ n k, (s.own k).mode = Mode.seed → (s.own k).Has n → d₀.file n = none
  /-- Two starts do not write one file. -/
  once : ∀ n j k, (s.own j).mode = Mode.seed → (s.own k).mode = Mode.seed →
    (s.own j).Has n → (s.own k).Has n → j = k

section System

variable {b : Bundle} {d₀ d' : Dir} {s s' : State} {w' : Writer} {k : ℕ}
  {f : String × String} {i p : ℕ} {n : String}

/-- One process is replaced, and the directory. -/
abbrev after (s : State) (k : ℕ) (d' : Dir) (w' : Writer) : State :=
  ⟨d', Function.update s.own k w'⟩

theorem own_after_self : (after s k d' w').own k = w' := Function.update_self ..

theorem own_after_of_ne {j : ℕ} (h : j ≠ k) : (after s k d' w').own j = s.own j :=
  Function.update_of_ne h ..

theorem exists_own_after {P : Writer → Prop} (hw : P (s.own k) → P w') (h : ∃ j, P (s.own j)) :
    ∃ j, P ((after s k d' w').own j) := by
  obtain ⟨j, hj⟩ := h
  refine ⟨j, ?_⟩
  by_cases hjk : j = k
  · subst hjk
    rw [own_after_self]
    exact hw hj
  · rw [own_after_of_ne hjk]
    exact hj

theorem not_own_after {P : Writer → Prop} (hw : P w' → P (s.own k))
    (h : ∀ j, ¬ P (s.own j)) (j : ℕ) : ¬ P ((after s k d' w').own j) :=
  Parties.forall_update (P := fun w => ¬ P w) (fun hp => h k (hw hp)) h j

theorem own_after_of_has {m : Mode} (hmode : w'.mode = (s.own k).mode)
    (hhas : w'.Has n → (s.own k).Has n) {j : ℕ}
    (hm : ((after s k d' w').own j).mode = m) (hj : ((after s k d' w').own j).Has n) :
    (s.own j).mode = m ∧ (s.own j).Has n := by
  by_cases hjk : j = k
  · subst hjk
    rw [own_after_self] at hm hj
    exact ⟨hmode.symm.trans hm, hhas hj⟩
  · rw [own_after_of_ne hjk] at hm hj
    exact ⟨hm, hj⟩

/-- **A process that does nothing to the directory** – it returns, keeps a file, is done
with one or stops. -/
theorem inv_quiet (h : Inv b d₀ s) (hprogress : Progress b s.shared w')
    (hmode : w'.mode = (s.own k).mode) (hhas : ∀ n, w'.Has n ↔ (s.own k).Has n)
    (hat : ∀ f i p, (s.own k).At f i p → p = (bytesOf f.2).length ∨ w'.At f i p) :
    Inv b d₀ (after s k s.shared w') where
  progress := Parties.forall_update hprogress h.progress
  file := by
    intro f hf
    rcases h.file f hf with huntouched | ⟨i, p, hfile, hupto, hwriter, hp⟩
    · exact Or.inl ⟨huntouched.left,
        not_own_after (P := fun w => w.Has f.1) (hhas f.1).mp huntouched.right⟩
    · refine Or.inr ⟨i, p, hfile, hupto,
        exists_own_after (P := fun w => w.Has f.1) (hhas f.1).mpr hwriter, ?_⟩
      rcases hp with hp | ⟨j, hj⟩
      · exact Or.inl hp
      · by_cases hjk : j = k
        · subst hjk
          rcases hat f i p hj with hlen | hat'
          · exact Or.inl hlen
          · exact Or.inr ⟨j, by rw [own_after_self]; exact hat'⟩
        · exact Or.inr ⟨j, by rw [own_after_of_ne hjk]; exact hj⟩
  outside := h.outside
  absent := by
    intro n j hm hj
    obtain ⟨hm, hj⟩ := own_after_of_has hmode (hhas n).mp hm hj
    exact h.absent n j hm hj
  once := by
    intro n j j' hm hm' hj hj'
    obtain ⟨hm, hj⟩ := own_after_of_has hmode (hhas n).mp hm hj
    obtain ⟨hm', hj'⟩ := own_after_of_has hmode (hhas n).mp hm' hj'
    exact h.once n j j' hm hm' hj hj'

/-- A name other than that of the file that is written. -/
theorem sameFile_of_frame {m : String} (hne : m ≠ n)
    (hfile : ∀ m, m ≠ n → d'.file m = s.shared.file m)
    (hdata : ∀ m, m ≠ n → ∀ i, s.shared.file m = some i → d'.data i = s.shared.data i)
    (h : SameFile d₀ s.shared m) : SameFile d₀ d' m := by
  refine ⟨(hfile m hne).trans h.left, fun i hi => ?_⟩
  rw [hdata m hne i (h.left.trans hi)]
  exact h.right i hi

/-- **A process that opens a file or writes to it.** To the other files it does nothing. -/
theorem inv_touch (h : Inv b d₀ s) (hf : f ∈ b.files) (hle : Linked s.shared d')
    (hprogress : Progress b d' w') (hmode : w'.mode = (s.own k).mode)
    (hfile : ∀ m, m ≠ f.1 → d'.file m = s.shared.file m)
    (hdata : ∀ m, m ≠ f.1 → ∀ i, s.shared.file m = some i → d'.data i = s.shared.data i)
    (hhas : ∀ m, m ≠ f.1 → (w'.Has m ↔ (s.own k).Has m))
    (hat : ∀ g i p, (s.own k).At g i p → g = f)
    (hunderway : Underway (after s k d' w') f)
    (habsent : w'.mode = Mode.seed → d₀.file f.1 = none)
    (honce : w'.mode = Mode.seed → ∀ j, j ≠ k → (s.own j).mode = Mode.seed →
      ¬ (s.own j).Has f.1) : Inv b d₀ (after s k d' w') where
  progress := Parties.forall_update hprogress fun j => (h.progress j).mono hle
  file := by
    intro g hg
    by_cases hgf : g.1 = f.1
    · obtain rfl := b.eq_of_name hg hf hgf
      exact Or.inr hunderway
    · rcases h.file g hg with huntouched | ⟨i, p, hfile', hupto, hwriter, hp⟩
      · exact Or.inl ⟨sameFile_of_frame hgf hfile hdata huntouched.left,
          not_own_after (P := fun w => w.Has g.1) (hhas g.1 hgf).mp huntouched.right⟩
      · refine Or.inr ⟨i, p, (hfile g.1 hgf).trans hfile', ?_,
          exists_own_after (P := fun w => w.Has g.1) (hhas g.1 hgf).mpr hwriter, ?_⟩
        · show Upto (bytesOf g.2) p (d'.data i)
          rw [hdata g.1 hgf i hfile']
          exact hupto
        · rcases hp with hp | ⟨j, hj⟩
          · exact Or.inl hp
          · have hjk : j ≠ k := by
              rintro rfl
              exact hgf (congrArg Prod.fst (hat g i p hj))
            exact Or.inr ⟨j, by rw [own_after_of_ne hjk]; exact hj⟩
  outside := by
    intro n hn
    have hne : n ≠ f.1 := by
      rintro rfl
      exact hn (List.mem_map_of_mem hf)
    exact sameFile_of_frame hne hfile hdata (h.outside n hn)
  absent := by
    intro n j hm hj
    by_cases hnf : n = f.1
    · subst hnf
      by_cases hjk : j = k
      · subst hjk
        rw [own_after_self] at hm
        exact habsent hm
      · rw [own_after_of_ne hjk] at hm hj
        exact h.absent f.1 j hm hj
    · obtain ⟨hm, hj⟩ := own_after_of_has hmode (hhas n hnf).mp hm hj
      exact h.absent n j hm hj
  once := by
    intro n j j' hm hm' hj hj'
    by_cases hnf : n = f.1
    · subst hnf
      by_cases hjk : j = k
      · subst hjk
        by_cases hj'k : j' = j
        · exact hj'k.symm
        · rw [own_after_self] at hm
          rw [own_after_of_ne hj'k] at hm' hj'
          exact absurd hj' (honce hm j' hj'k hm')
      · by_cases hj'k : j' = k
        · subst hj'k
          rw [own_after_self] at hm'
          rw [own_after_of_ne hjk] at hm hj
          exact absurd hj (honce hm' j hjk hm)
        · rw [own_after_of_ne hjk] at hm hj
          rw [own_after_of_ne hj'k] at hm' hj'
          exact h.once f.1 j j' hm hm' hj hj'
    · obtain ⟨hm, hj⟩ := own_after_of_has hmode (hhas n hnf).mp hm hj
      obtain ⟨hm', hj'⟩ := own_after_of_has hmode (hhas n hnf).mp hm' hj'
      exact h.once n j j' hm hm' hj hj'

/-- A process opens a file, which is empty then. -/
theorem inv_open {rest : List (String × String)} (h : Inv b d₀ s)
    (hphase : (s.own k).phase = Phase.between) (htodo : (s.own k).todo = f :: rest)
    (hdoes : Does s.shared (s.own k) d' { s.own k with phase := Phase.writing i 0 })
    (hfile : ∀ m, m ≠ f.1 → d'.file m = s.shared.file m)
    (hdata : ∀ m, m ≠ f.1 → ∀ j, s.shared.file m = some j → d'.data j = s.shared.data j)
    (hnew : d'.file f.1 = some i) (hempty : d'.data i = [])
    (hnone : (s.own k).mode = Mode.seed → s.shared.file f.1 = none) :
    Inv b d₀ (after s k d' { s.own k with phase := Phase.writing i 0 }) := by
  have hat : Writer.At { s.own k with phase := Phase.writing i 0 } f i 0 := ⟨rfl, rest, htodo⟩
  have hf := (h.progress k).mem_files htodo
  have huntouched : (s.own k).mode = Mode.seed → Untouched d₀ s f.1 := by
    intro hseed
    rcases h.file f hf with huntouched | ⟨j, p, hfile', -⟩
    · exact huntouched
    · cases (hnone hseed).symm.trans hfile'
  refine inv_touch h hf (linked_does hdoes) ((h.progress k).does hdoes) rfl hfile hdata
    ?_ ?_ ?_ ?_ ?_
  · intro m hm
    rw [hat.has_iff, Writer.has_iff_of_ne (ne_writing_of_between hphase)]
    exact or_iff_left hm
  · exact fun g j p hat' => absurd hat' (not_at_of_between hphase)
  · refine ⟨i, 0, hnew, ?_, ⟨k, ?_⟩, Or.inr ⟨k, ?_⟩⟩
    · show Upto (bytesOf f.2) 0 (d'.data i)
      rw [hempty]
      exact Upto.nil
    · rw [own_after_self]
      exact hat.has_iff.mpr (Or.inr rfl)
    · rw [own_after_self]
      exact hat
  · intro hseed
    rw [← (huntouched hseed).left.left]
    exact hnone hseed
  · exact fun hseed j _ _ => (huntouched hseed).right j

/-- A process writes to the file that it is inside of. -/
theorem inv_write {off : ℕ} (h : Inv b d₀ s) (n : ℕ) (hat : (s.own k).At f i off)
    (hoff : off < (bytesOf f.2).length) :
    Inv b d₀ (after s k
      (s.shared.store i (overwrite (s.shared.data i) off (piece f.2 off n)))
      { s.own k with phase := Phase.writing i (off + (piece f.2 off n).length) }) := by
  have hdoes := Does.writes (d := s.shared) f i off n hat hoff
  have hat' : Writer.At { s.own k with
      phase := Phase.writing i (off + (piece f.2 off n).length) } f i
      (off + (piece f.2 off n).length) := ⟨rfl, hat.right⟩
  obtain ⟨rest, htodo⟩ := hat.right
  have hf := (h.progress k).mem_files htodo
  have hfile := ((h.progress k).at hat).left
  have hhas : (s.own k).Has f.1 := hat.has_iff.mpr (Or.inr rfl)
  refine inv_touch h hf (linked_does hdoes) ((h.progress k).does hdoes) rfl (fun _ _ => rfl)
    ?_ ?_ ?_ ?_ ?_ ?_
  · intro m hm j hj
    have hji : j ≠ i := by
      rintro rfl
      exact hm (s.shared.inj m f.1 j hj hfile)
    exact Directory.data_store_of_ne hji
  · intro m _
    rw [hat'.has_iff, hat.has_iff]
  · exact fun g j p hg => (hg.unique hat).left
  · rcases h.file f hf with huntouched | ⟨j, p, hfile', hupto, -, hp⟩
    · exact absurd hhas (huntouched.right k)
    · obtain rfl : i = j := Option.some.inj (hfile.symm.trans hfile')
      have hwriter : ∃ j, ((after s k
          (s.shared.store i (overwrite (s.shared.data i) off (piece f.2 off n)))
          { s.own k with phase := Phase.writing i (off + (piece f.2 off n).length) }).own
            j).Has f.1 :=
        ⟨k, by rw [own_after_self]; exact hat'.has_iff.mpr (Or.inr rfl)⟩
      -- the one who opened the file last is this process, or somebody it does not disturb
      by_cases hk : (s.own k).At f i p
      · obtain rfl := (hk.unique hat).right.right
        refine ⟨i, _, hfile, ?_, hwriter, Or.inr ⟨k, by rw [own_after_self]; exact hat'⟩⟩
        show Upto _ _ ((s.shared.store i _).data i)
        rw [Directory.data_store_self]
        exact hupto.advance (n + 1)
      · refine ⟨i, p, hfile, ?_, hwriter, ?_⟩
        · show Upto _ _ ((s.shared.store i _).data i)
          rw [Directory.data_store_self]
          exact hupto.overwrite hoff.le (n + 1)
        · rcases hp with hp | ⟨j, hj⟩
          · exact Or.inl hp
          · have hjk : j ≠ k := by
              rintro rfl
              exact hk hj
            exact Or.inr ⟨j, by rw [own_after_of_ne hjk]; exact hj⟩
  · exact fun hseed => h.absent f.1 k hseed hhas
  · exact fun hseed j hjk hj hj' => hjk (h.once f.1 j k hj hseed hj' hhas)

/-- **Whatever a process does keeps the invariant.** -/
theorem inv_does (h : Inv b d₀ s) (hdoes : Does s.shared (s.own k) d' w') :
    Inv b d₀ (after s k d' w') := by
  have hprogress := (h.progress k).does hdoes
  cases hdoes with
  | returns hphase htodo =>
    refine inv_quiet h hprogress rfl (fun n => ?_) fun f i p hat =>
      absurd hat (not_at_of_between hphase)
    rw [Writer.has_iff_of_ne (ne_writing_of_between hphase)]
    exact Writer.has_iff_of_ne fun i off => Phase.noConfusion
  | keeps f rest i hphase htodo hmode hfile =>
    refine inv_quiet h hprogress rfl (fun n => ?_) fun f i p hat =>
      absurd hat (not_at_of_between hphase)
    rw [Writer.has_iff_of_ne (ne_writing_of_between hphase)]
    refine Writer.has_iff_of_ne fun i off => ?_
    exact ne_writing_of_between hphase i off
  | truncates f rest i hphase htodo hmode hfile =>
    refine inv_open h hphase htodo (Does.truncates f rest i hphase htodo hmode hfile)
      (fun _ _ => rfl) ?_ hfile Directory.data_store_self ?_
    · intro m hm j hj
      -- no two names are of one file
      have hji : j ≠ i := by
        rintro rfl
        exact hm (s.shared.inj m f.1 j hj hfile)
      exact Directory.data_store_of_ne hji
    · exact fun hseed => absurd (hseed.symm.trans hmode) Mode.noConfusion
  | creates f rest hphase htodo hfile =>
    refine inv_open h hphase htodo (Does.creates f rest hphase htodo hfile)
      (fun m hm => Directory.file_link_of_ne hm) ?_ Directory.file_link_self
      Directory.data_link_next fun _ => hfile
    intro m _ j hj
    exact Directory.data_link_of_ne (s.shared.lt_next m j hj).ne
  | writes f i off n hat hoff => exact inv_write h n hat hoff
  | closes f rest i off hphase htodo hoff =>
    have hat : (s.own k).At f i off := ⟨hphase, rest, htodo⟩
    refine inv_quiet h hprogress rfl (fun n => ?_) ?_
    · rw [hat.has_iff, Writer.has_iff_of_ne fun i off => Phase.noConfusion, List.mem_append,
        List.mem_singleton]
    · intro g j p hg
      obtain ⟨rfl, -, rfl⟩ := hg.unique hat
      exact Or.inl hoff
  | stops => exact inv_quiet h hprogress rfl (fun n => Iff.rfl) fun f i p hat => Or.inr hat

theorem inv_step (h : Inv b d₀ s) (e : ℕ × Action) (hstep : step s e = some s') :
    Inv b d₀ s' := by
  obtain ⟨d', w', hact, rfl⟩ := Parties.step_eq_some_iff.mp hstep
  exact inv_does h (does_of_act hact)

theorem inv_start (mode : ℕ → Mode) : Inv b d₀ (start b d₀ mode) where
  progress := fun k =>
    { split := ⟨[], rfl, List.Perm.refl _⟩
      inside := fun i off hphase => Phase.noConfusion hphase
      returned := fun hphase => Phase.noConfusion hphase
      linked := fun n hn => absurd hn List.not_mem_nil
      sync := fun _ => rfl }
  file := fun f _ => Or.inl ⟨⟨rfl, fun _ _ => rfl⟩, fun k hhas => by
    have hnil := (Writer.has_iff_of_ne fun i off => Phase.noConfusion).mp hhas
    exact absurd hnil List.not_mem_nil⟩
  outside := fun n _ => ⟨rfl, fun _ _ => rfl⟩
  absent := fun n k _ hhas => absurd
    ((Writer.has_iff_of_ne fun i off => Phase.noConfusion).mp hhas) List.not_mem_nil
  once := fun n j k _ _ hhas => absurd
    ((Writer.has_iff_of_ne fun i off => Phase.noConfusion).mp hhas) List.not_mem_nil

theorem inv_run {mode : ℕ → Mode} {es : List (ℕ × Action)}
    (hrun : Runs.run step (start b d₀ mode) es = some s) : Inv b d₀ s :=
  Runs.run_invariant_of_step (fun _ e _ h => inv_step h e) (inv_start mode) hrun

/-! ## What they come to -/

theorem SameFile.read_eq {d : Dir} (h : SameFile d₀ d n) : d.read n = d₀.read n := by
  unfold Directory.read
  rw [h.left]
  cases hfile : d₀.file n with
  | none => rfl
  | some i => exact congrArg some (h.right i hfile)

section Settled

variable {mode : ℕ → Mode} {es : List (ℕ × Action)}

/-- A file that somebody has written or is inside of is right, or right as far as one of
those has come who are inside of it. -/
theorem read_of_has (hrun : Runs.run step (start b d₀ mode) es = some s) (hf : f ∈ b.files)
    (hk : ∃ k, (s.own k).Has f.1) : ∃ bs, s.shared.read f.1 = some bs
      ∧ (bs = bytesOf f.2 ∨ ∃ k i p, (s.own k).At f i p ∧ Upto (bytesOf f.2) p bs) := by
  rcases (inv_run hrun).file f hf with huntouched | ⟨i, p, hfile, hupto, -, hp⟩
  · obtain ⟨k, hk⟩ := hk
    exact absurd hk (huntouched.right k)
  · refine ⟨_, Directory.read_eq_some_iff.mpr ⟨i, hfile, rfl⟩, ?_⟩
    rcases hp with rfl | ⟨j, hj⟩
    · exact Or.inl hupto.eq
    · exact Or.inr ⟨j, i, p, hj, hupto⟩

theorem read_of_not_has (hrun : Runs.run step (start b d₀ mode) es = some s)
    (hn : ∀ k, ¬ (s.own k).Has n) : s.shared.read n = d₀.read n := by
  by_cases hmem : n ∈ b.names
  · obtain ⟨f, hf, rfl⟩ := List.mem_map.mp hmem
    rcases (inv_run hrun).file f hf with huntouched | ⟨i, p, -, -, ⟨k, hk⟩, -⟩
    · exact huntouched.left.read_eq
    · exact absurd hk (hn k)
  · exact ((inv_run hrun).outside n hmem).read_eq

theorem absent_of_seeded (hrun : Runs.run step (start b d₀ mode) es = some s) {j : ℕ}
    (hseed : (s.own j).mode = Mode.seed) (hj : (s.own j).Has n) :
    d₀.read n = none ∧ ∀ k, (s.own k).mode = Mode.seed → (s.own k).Has n → j = k :=
  ⟨Directory.read_eq_none_iff.mpr ((inv_run hrun).absent n j hseed hj),
    fun k hseed' hk => (inv_run hrun).once n j k hseed hseed' hj hk⟩

/-- **What starts and syncs come to**, in any number and any interleaving, wherever they
stop: a file that somebody has opened to write it is the bundle's, unless somebody is inside
of it, or was when it stopped, and then it is right as far as one of these has come; and
every other file is what it was. A start opens only files that were not there, and each of
them is opened by one start. -/
theorem bundle_settled (hrun : Runs.run step (start b d₀ mode) es = some s) :
    (∀ f ∈ b.files, (∃ k, (s.own k).Has f.1) → ∃ bs, s.shared.read f.1 = some bs
        ∧ (bs = bytesOf f.2 ∨ ∃ k i p, (s.own k).At f i p ∧ Upto (bytesOf f.2) p bs))
      ∧ (∀ n, (∀ k, ¬ (s.own k).Has n) → s.shared.read n = d₀.read n)
      ∧ ∀ n j, (s.own j).mode = Mode.seed → (s.own j).Has n →
        d₀.read n = none ∧ ∀ k, (s.own k).mode = Mode.seed → (s.own k).Has n → j = k :=
  ⟨fun _ hf hk => read_of_has hrun hf hk, fun _ hn => read_of_not_has hrun hn,
    fun _ _ hseed hj => absent_of_seeded hrun hseed hj⟩

/-! ## When nobody is inside of a file -/

theorem read_of_written (hrun : Runs.run step (start b d₀ mode) es = some s)
    (hquiet : ∀ k i off, (s.own k).phase ≠ Phase.writing i off) (hf : f ∈ b.files)
    (hk : f.1 ∈ (s.own k).written) : s.shared.read f.1 = some (bytesOf f.2) := by
  obtain ⟨bs, hread, rfl | ⟨j, i, p, hat, -⟩⟩ := read_of_has hrun hf ⟨k, Or.inl hk⟩
  · exact hread
  · exact absurd hat.left (hquiet j i p)

theorem read_of_unwritten (hrun : Runs.run step (start b d₀ mode) es = some s)
    (hquiet : ∀ k i off, (s.own k).phase ≠ Phase.writing i off)
    (hn : ∀ k, n ∉ (s.own k).written) : s.shared.read n = d₀.read n :=
  read_of_not_has hrun fun k hk => hn k ((Writer.has_iff_of_ne (hquiet k)).mp hk)

end Settled

/-- A directory that is empty. -/
def emptyDir : Dir where
  file := fun _ => none
  data := fun _ => []
  next := 0
  lt_next := fun _ _ h => nomatch h
  inj := fun _ _ _ h => nomatch h

/-- A bundle of two files. -/
def twoFiles : Bundle := Bundle.ofNames ["triage.md", "optimizer.md"] (by decide) fun _ => "xy"

/-- What a process does about a file that it writes. -/
def writesOne (k : ℕ) : List (ℕ × Action) :=
  [(k, Action.next), (k, Action.write 1), (k, Action.close)]

/-- A start, and a sync. -/
def startAndSync (k : ℕ) : Mode := if k = 0 then Mode.seed else Mode.sync

/-- The start is killed behind the first byte of the first file, and the sync writes both. -/
def killedInside : List (ℕ × Action) :=
  [(0, Action.next), (0, Action.write 0), (0, Action.stop)] ++ writesOne 1 ++ writesOne 1

/-- Of two processes, none is inside of a file when the two are not. -/
theorem quiet_of_two (hrun : Runs.run step (start b d₀ mode) es = some s)
    (hes : ∀ e ∈ es, e.fst < 2) (h0 : (s.own 0).phase ≠ Phase.writing i p)
    (h1 : (s.own 1).phase ≠ Phase.writing i p) (k : ℕ) :
    (s.own k).phase ≠ Phase.writing i p := by
  match k with
  | 0 => exact h0
  | 1 => exact h1
  | k + 2 =>
    have hidle : ∀ e ∈ es, e.fst ≠ k + 2 := fun e he =>
      ((hes e he).trans_le (Nat.le_add_left 2 k)).ne
    rw [Parties.own_of_idle hidle hrun]
    exact Phase.noConfusion

theorem bundle_settled_killed : ∃ s,
    Runs.run step (start twoFiles emptyDir startAndSync) killedInside = some s
      ∧ (s.own 0).stopped = true ∧ s.shared.read "optimizer.md" = some (bytesOf "xy") := by
  have hends : (Runs.run step (start twoFiles emptyDir startAndSync) killedInside).map
      (fun s => ((s.own 0).stopped, (s.own 0).todo.head?.map Prod.fst, (s.own 1).phase,
        (s.own 1).written))
      = some (true, some "triage.md", Phase.between, ["triage.md", "optimizer.md"]) := by
    decide +kernel
  obtain ⟨s, hrun, heq⟩ := Option.map_eq_some_iff.mp hends
  obtain ⟨hstopped, htodo, hphase, hwritten⟩ :
      (s.own 0).stopped = true ∧ (s.own 0).todo.head?.map Prod.fst = some "triage.md"
        ∧ (s.own 1).phase = Phase.between
        ∧ (s.own 1).written = ["triage.md", "optimizer.md"] := by
    simpa only [Prod.mk.injEq] using heq
  obtain ⟨bs, hread, rfl | ⟨k, i, p, ⟨hwriting, rest, hfirst⟩, -⟩⟩ :=
    (bundle_settled hrun).left ("optimizer.md", "xy")
      (List.mem_cons_of_mem _ List.mem_cons_self)
      ⟨1, Or.inl (by rw [hwritten]; exact List.mem_cons_of_mem _ List.mem_cons_self)⟩
  · exact ⟨s, hrun, hstopped, hread⟩
  · -- only the start was inside of a file, and that was the other one
    by_cases hk : k = 0
    · subst hk
      rw [hfirst] at htodo
      exact absurd (Option.some.inj htodo) (by decide)
    · have hidle : ∀ e ∈ killedInside, e.fst = 0 ∨ e.fst = 1 := by decide
      by_cases hk' : k = 1
      · subst hk'
        cases hwriting.symm.trans hphase
      · have hnever : ∀ e ∈ killedInside, e.fst ≠ k := fun e he heq =>
          (hidle e he).elim (fun h => hk (heq.symm.trans h)) fun h => hk' (heq.symm.trans h)
        rw [Parties.own_of_idle hnever hrun] at hwriting
        cases hwriting

end System

/-! ## Drift and what was written -/

section Drift

variable {b : Bundle} {d d₀ : Dir} {what : String} {f : String × String} {bs : List UInt8}

theorem readToString_bytesOf (c : String) : readToString (bytesOf c) = some c := by
  unfold readToString bytesOf
  rw [Array.toArray_toList]
  exact dif_pos c.isValidUTF8

theorem eq_of_readToString {c : String} (h : readToString bs = some c) : bs = bytesOf c := by
  unfold readToString String.fromUTF8? at h
  split at h
  · obtain rfl := Option.some.inj h
    exact (List.toList_toArray ..).symm
  · cases h

/-- What there is to say about a file that can be read. -/
def entryOf (d : Dir) (f : String × String) : Option DriftEntry :=
  match d.read f.1 with
  | none => some (DriftEntry.missing f.1)
  | some bs => if bs = bytesOf f.2 then none else some (DriftEntry.differs f.1)

/-- A file that is there is a text. -/
def Readable (d : Dir) (n : String) : Prop :=
  ∀ bs, d.read n = some bs → (readToString bs).isSome = true

theorem driftOf_ok_iff {l : List DriftEntry} :
    driftOf what d f = Except.ok l ↔ Readable d f.1 ∧ l = (entryOf d f).toList := by
  unfold driftOf entryOf Readable
  cases hread : d.read f.1 with
  | none =>
    refine ⟨fun h => ⟨fun bs hbs => (nomatch hbs), (Except.ok.inj h).symm⟩, fun h => ?_⟩
    rw [h.right]
    rfl
  | some bs =>
    simp only [Option.some.injEq, forall_eq']
    cases hs : readToString bs with
    | none => exact iff_of_false (fun h => by cases h) fun h => by cases h.left
    | some c =>
      have hiff : bs = bytesOf f.2 ↔ c = f.2 := by
        refine ⟨fun h => ?_, fun h => h ▸ eq_of_readToString hs⟩
        rw [h, readToString_bytesOf] at hs
        exact (Option.some.inj hs).symm
      simp only [hiff, Option.isSome_some, true_and, Except.ok.injEq]
      by_cases hc : c = f.2
      · rw [if_pos hc, if_pos hc]
        exact eq_comm
      · rw [if_neg hc, if_neg hc]
        exact eq_comm

theorem forall₂_driftOf_iff {fs : List (String × String)} {ls : List (List DriftEntry)} :
    List.Forall₂ (fun f l => driftOf what d f = Except.ok l) fs ls
      ↔ (∀ f ∈ fs, Readable d f.1) ∧ ls = fs.map fun f => (entryOf d f).toList := by
  induction fs generalizing ls with
  | nil =>
    rw [List.forall₂_nil_left_iff]
    exact ⟨fun h => ⟨fun f hf => absurd hf List.not_mem_nil, h⟩, fun h => h.right⟩
  | cons f fs ih =>
    rw [List.forall₂_cons_left_iff, List.forall_mem_cons, List.map_cons]
    constructor
    · rintro ⟨l, ls', hf, hfs, rfl⟩
      obtain ⟨hreadable, rfl⟩ := driftOf_ok_iff.mp hf
      obtain ⟨hall, rfl⟩ := ih.mp hfs
      exact ⟨⟨hreadable, hall⟩, rfl⟩
    · rintro ⟨⟨hreadable, hall⟩, rfl⟩
      exact ⟨_, _, driftOf_ok_iff.mpr ⟨hreadable, rfl⟩, ih.mpr ⟨hall, rfl⟩, rfl⟩

/-- **What drift finds**, when it finds anything out. -/
theorem drift_ok_iff {l : List DriftEntry} :
    drift what b d = Except.ok l
      ↔ (∀ f ∈ b.files, Readable d f.1) ∧ l = b.files.filterMap (entryOf d) := by
  have hflat : (b.files.map fun f => (entryOf d f).toList).flatten
      = b.files.filterMap (entryOf d) := by
    rw [List.filterMap_eq_flatMap_toList, List.flatMap_def]
  unfold drift
  cases hm : b.files.mapM (driftOf what d) with
  | error e =>
    refine iff_of_false (fun h => by cases h) fun h => ?_
    have hall : List.Forall₂ (fun f l => driftOf what d f = Except.ok l) b.files _ :=
      forall₂_driftOf_iff.mpr ⟨h.left, rfl⟩
    cases hm.symm.trans (Fallible.mapM_ok_iff.mpr hall)
  | ok ls =>
    obtain ⟨hreadable, rfl⟩ := forall₂_driftOf_iff.mp (Fallible.mapM_ok_iff.mp hm)
    show Except.ok _ = Except.ok l ↔ _
    rw [hflat, Except.ok.injEq]
    exact ⟨fun h => ⟨hreadable, h.symm⟩, fun h => h.right.symm⟩

/-- What drift finds is there, and not what it should be. -/
def DriftEntry.isDiffers : DriftEntry → Bool
  | missing _ => false
  | differs _ => true

section Settled

variable {mode : ℕ → Mode} {es : List (ℕ × Action)} {s : State} {k : ℕ} {l₀ : List DriftEntry}

/-- What a process does about a file that is there does not change. -/
theorem mode_eq (hrun : Runs.run step (start b d₀ mode) es = some s) (k : ℕ) :
    (s.own k).mode = mode k := by
  have hstep : ∀ t e t', (∀ k, (t.own k).mode = mode k) → step t e = some t' →
      ∀ k, (t'.own k).mode = mode k := by
    intro t e t' ht hstep k
    obtain ⟨d', w', hact, rfl⟩ := Parties.step_eq_some_iff.mp hstep
    by_cases hk : k = e.fst
    · subst hk
      show (Function.update t.own e.fst w' e.fst).mode = _
      rw [Function.update_self, ← ht e.fst]
      exact mode_does (does_of_act hact)
    · show (Function.update t.own e.fst w' k).mode = _
      rw [Function.update_of_ne hk]
      exact ht k
  have hmode : ∀ k, (s.own k).mode = mode k :=
    Runs.run_invariant_of_step hstep (fun _ => rfl) hrun
  exact hmode k

/-- A process that has returned has reported on every file. -/
theorem mem_reported (hrun : Runs.run step (start b d₀ mode) es = some s)
    (hk : (s.own k).phase = Phase.returned) (hf : f ∈ b.files) :
    f.1 ∈ (s.own k).written ++ (s.own k).kept := by
  have hprogress := (inv_run hrun).progress k
  obtain ⟨done, hsplit, hperm⟩ := hprogress.split
  rw [hprogress.returned hk, List.append_nil] at hsplit
  rw [hperm.mem_iff, ← hsplit]
  exact List.mem_map_of_mem hf

theorem entryOf_bytesOf (h : d.read f.1 = some (bytesOf f.2)) : entryOf d f = none := by
  unfold entryOf
  rw [h]
  exact if_pos rfl

/-- **After a sync nothing has drifted**, whatever the directory was, and however many
starts and syncs there were besides. -/
theorem drift_synced (hrun : Runs.run step (start b d₀ mode) es = some s)
    (hquiet : ∀ k i off, (s.own k).phase ≠ Phase.writing i off)
    (hk : (s.own k).phase = Phase.returned) (hsync : (s.own k).mode = Mode.sync) :
    drift what b s.shared = Except.ok [] := by
  have hread : ∀ f ∈ b.files, s.shared.read f.1 = some (bytesOf f.2) := by
    intro f hf
    refine read_of_written hrun hquiet hf (k := k) ?_
    have hmem := mem_reported hrun hk hf
    rwa [((inv_run hrun).progress k).sync hsync, List.append_nil] at hmem
  refine drift_ok_iff.mpr ⟨fun f hf bs hbs => ?_, (List.filterMap_eq_nil_iff.mpr ?_).symm⟩
  · rw [← Option.some.inj ((hread f hf).symm.trans hbs), readToString_bytesOf]
    rfl
  · exact fun f hf => entryOf_bytesOf (hread f hf)

/-- The start is killed between the two files, and the sync writes both. -/
def killedBetween : List (ℕ × Action) :=
  writesOne 0 ++ [(0, Action.stop)] ++ writesOne 1 ++ writesOne 1 ++ [(1, Action.next)]

theorem drift_synced_killed : ∃ s,
    Runs.run step (start twoFiles emptyDir startAndSync) killedBetween = some s
      ∧ (s.own 0).stopped = true ∧ drift "template" twoFiles s.shared = Except.ok [] := by
  have hends : (Runs.run step (start twoFiles emptyDir startAndSync) killedBetween).map
      (fun s => ((s.own 0).stopped, (s.own 0).phase, (s.own 1).phase, (s.own 1).mode))
      = some (true, Phase.between, Phase.returned, Mode.sync) := by
    decide +kernel
  obtain ⟨s, hrun, heq⟩ := Option.map_eq_some_iff.mp hends
  obtain ⟨hstopped, hzero, hone, hmode⟩ : (s.own 0).stopped = true
      ∧ (s.own 0).phase = Phase.between ∧ (s.own 1).phase = Phase.returned
      ∧ (s.own 1).mode = Mode.sync := by
    simpa only [Prod.mk.injEq] using heq
  exact ⟨s, hrun, hstopped, drift_synced hrun (fun k i off => quiet_of_two hrun (by decide)
    (by rw [hzero]; exact Phase.noConfusion) (by rw [hone]; exact Phase.noConfusion) k) hone
    hmode⟩

/-- What a start that has returned makes of a file. -/
theorem read_seeded (hrun : Runs.run step (start b d₀ mode) es = some s)
    (hquiet : ∀ k i off, (s.own k).phase ≠ Phase.writing i off)
    (hk : (s.own k).phase = Phase.returned) (hseed : ∀ k, (s.own k).mode = Mode.seed)
    (hf : f ∈ b.files) :
    s.shared.read f.1 = some ((d₀.read f.1).getD (bytesOf f.2)) := by
  by_cases h : ∃ k, f.1 ∈ (s.own k).written
  · obtain ⟨j, hj⟩ := h
    rw [read_of_written hrun hquiet hf hj, (absent_of_seeded hrun (hseed j) (Or.inl hj)).left]
    rfl
  · have hread := read_of_unwritten hrun hquiet fun j hj => h ⟨j, hj⟩
    cases hold : d₀.read f.1 with
    | some bs => exact hread.trans hold
    | none =>
      have hlinked := ((inv_run hrun).progress k).linked f.1 (mem_reported hrun hk hf)
      exact absurd (Directory.read_eq_none_iff.mp (hread.trans hold)) hlinked

/-- **A start takes away the findings that a file is missing, and no other finding.** It
does not matter how many there are at once. -/
theorem drift_seeded (hrun : Runs.run step (start b d₀ mode) es = some s)
    (hquiet : ∀ k i off, (s.own k).phase ≠ Phase.writing i off)
    (hk : (s.own k).phase = Phase.returned) (hseed : ∀ k, (s.own k).mode = Mode.seed)
    (hdrift : drift what b d₀ = Except.ok l₀) :
    drift what b s.shared = Except.ok (l₀.filter DriftEntry.isDiffers) := by
  obtain ⟨hreadable, rfl⟩ := drift_ok_iff.mp hdrift
  have hread := fun f hf => read_seeded (f := f) hrun hquiet hk hseed hf
  refine drift_ok_iff.mpr ⟨fun f hf bs hbs => ?_, ?_⟩
  · rw [hread f hf] at hbs
    rw [← Option.some.inj hbs]
    cases hold : d₀.read f.1 with
    | some bs' => exact hreadable f hf bs' hold
    | none =>
      rw [Option.getD_none, readToString_bytesOf]
      rfl
  · rw [List.filter_filterMap]
    refine List.filterMap_congr fun f hf => ?_
    unfold entryOf
    rw [hread f hf]
    cases d₀.read f.1 with
    | none => exact (if_pos rfl).symm
    | some bs =>
      rw [Option.getD_some]
      by_cases hbs : bs = bytesOf f.2
      · simp only [if_pos hbs, Option.filter_none]
      · simp only [if_neg hbs]
        rfl

/-- One start is killed between the two files, and another one keeps the first and writes
the second. -/
def seededTwice : List (ℕ × Action) :=
  [(0, Action.next), (1, Action.next), (0, Action.write 1), (0, Action.close),
    (0, Action.stop)] ++ writesOne 1 ++ [(1, Action.next)]

theorem drift_seeded_killed : ∃ s,
    Runs.run step (start twoFiles emptyDir fun _ => Mode.seed) seededTwice = some s
      ∧ (s.own 0).stopped = true ∧ drift "template" twoFiles s.shared = Except.ok [] := by
  have hends : (Runs.run step (start twoFiles emptyDir fun _ => Mode.seed) seededTwice).map
      (fun s => ((s.own 0).stopped, (s.own 0).phase, (s.own 1).phase))
      = some (true, Phase.between, Phase.returned) := by
    decide +kernel
  obtain ⟨s, hrun, heq⟩ := Option.map_eq_some_iff.mp hends
  obtain ⟨hstopped, hzero, hone⟩ : (s.own 0).stopped = true
      ∧ (s.own 0).phase = Phase.between ∧ (s.own 1).phase = Phase.returned := by
    simpa only [Prod.mk.injEq] using heq
  have hdrift : drift "template" twoFiles emptyDir
      = Except.ok [DriftEntry.missing "triage.md", DriftEntry.missing "optimizer.md"] := rfl
  exact ⟨s, hrun, hstopped, drift_seeded hrun (fun k i off => quiet_of_two hrun (by decide)
    (by rw [hzero]; exact Phase.noConfusion) (by rw [hone]; exact Phase.noConfusion) k) hone
    (fun k => mode_eq hrun k) hdrift⟩

end Settled

end Drift

/-! ## Somebody edits the directory -/

/-- What somebody else does to the directory. -/
inductive Change where
  /-- The file is written again. -/
  | edit (name : String) (bs : List UInt8)
  /-- Another file is put in its place. -/
  | replace (name : String) (bs : List UInt8)
  | remove (name : String)
  deriving DecidableEq

/-- The name that a change is about. -/
def Change.name : Change → String
  | edit name _ => name
  | replace name _ => name
  | remove name => name

/-- The directory after a change. -/
def Change.apply (d : Dir) : Change → Dir
  | edit name bs => (d.file name).elim d fun i => d.store i bs
  | replace name bs => d.link name bs
  | remove name => d.unlink name

/-- What can happen next. -/
inductive Event where
  | process (k : ℕ) (a : Action)
  | operator (c : Change)
  deriving DecidableEq

/-- One event. -/
def stepWith (s : State) : Event → Option State
  | Event.process k a => step s (k, a)
  | Event.operator c => some { s with shared := c.apply s.shared }

/-- A file has a name and a content, and no process that is running is inside of it. -/
structure Tuned (n : String) (i : ℕ) (bs : List UInt8) (s : State) : Prop where
  file : s.shared.file n = some i
  data : s.shared.data i = bs
  seed : ∀ k, (s.own k).mode = Mode.seed
  free : ∀ k off, (s.own k).phase = Phase.writing i off → (s.own k).stopped = true

section Operator

variable {n : String} {i k : ℕ} {bs : List UInt8} {s s' : State} {d' : Dir} {w' : Writer}
  {a : Action}

theorem not_stopped_of_act {d : Dir} {w : Writer} (h : w.act d a = some (d', w')) :
    w.stopped = false := by
  unfold Writer.act at h
  split at h
  · cases h
  · exact Bool.eq_false_iff.mpr ‹_›

theorem tuned_after (h : Tuned n i bs s) (hfile : d'.file n = some i) (hdata : d'.data i = bs)
    (hmode : w'.mode = (s.own k).mode)
    (hfree : ∀ off, w'.phase = Phase.writing i off → w'.stopped = true) :
    Tuned n i bs (after s k d' w') where
  file := hfile
  data := hdata
  seed := Parties.forall_update (P := fun w : Writer => w.mode = Mode.seed)
    (hmode.trans (h.seed k)) h.seed
  free := Parties.forall_update
    (P := fun w : Writer => ∀ off, w.phase = Phase.writing i off → w.stopped = true)
    hfree h.free

/-- A process leaves a file alone that it is not inside of. -/
theorem tuned_act (h : Tuned n i bs s) (hact : (s.own k).act s.shared a = some (d', w')) :
    Tuned n i bs (after s k d' w') := by
  have hrunning := not_stopped_of_act hact
  have hfree : ∀ off, (s.own k).phase ≠ Phase.writing i off := by
    intro off hphase
    cases hrunning.symm.trans (h.free k off hphase)
  cases does_of_act hact with
  | returns hphase htodo =>
    exact tuned_after h h.file h.data rfl fun off hphase' => Phase.noConfusion hphase'
  | keeps f rest j hphase htodo hmode hfile =>
    exact tuned_after h h.file h.data rfl fun off hphase' => absurd hphase' (hfree off)
  | truncates f rest j hphase htodo hmode hfile =>
    cases hmode.symm.trans (h.seed k)
  | creates f rest hphase htodo hfile =>
    have hlt := s.shared.lt_next n i h.file
    refine tuned_after h (linked_link hfile n i h.file) ?_ rfl fun off hphase' => ?_
    · rw [Directory.data_link_of_ne hlt.ne]
      exact h.data
    · exact absurd (Phase.writing.inj hphase').left hlt.ne'
  | writes f j off m hat hoff =>
    have hij : i ≠ j := by
      rintro rfl
      exact hfree off hat.left
    refine tuned_after h h.file ?_ rfl fun off' hphase' => ?_
    · rw [Directory.data_store_of_ne hij]
      exact h.data
    · exact absurd (Phase.writing.inj hphase').left hij.symm
  | closes f rest j off hphase htodo hoff =>
    exact tuned_after h h.file h.data rfl fun off hphase' => Phase.noConfusion hphase'
  | stops => exact tuned_after h h.file h.data rfl fun off hphase' => rfl

/-- A change of another name. -/
theorem tuned_change (h : Tuned n i bs s) {c : Change} (hc : c.name ≠ n) :
    Tuned n i bs { s with shared := c.apply s.shared } := by
  cases c with
  | edit name bs' =>
    cases hfile : s.shared.file name with
    | none =>
      refine ⟨?_, ?_, h.seed, h.free⟩
      · simp only [Change.apply, hfile]
        exact h.file
      · simp only [Change.apply, hfile]
        exact h.data
    | some j =>
      have hij : i ≠ j := by
        rintro rfl
        exact hc (s.shared.inj name n i hfile h.file)
      refine ⟨?_, ?_, h.seed, h.free⟩
      · simp only [Change.apply, hfile]
        exact h.file
      · simp only [Change.apply, hfile, Option.elim_some]
        rw [Directory.data_store_of_ne hij]
        exact h.data
  | replace name bs' =>
    refine ⟨?_, ?_, h.seed, h.free⟩
    · exact (Directory.file_link_of_ne hc.symm).trans h.file
    · exact (Directory.data_link_of_ne (s.shared.lt_next n i h.file).ne).trans h.data
  | remove name =>
    exact ⟨(Directory.file_unlink_of_ne hc.symm).trans h.file, h.data, h.seed, h.free⟩

theorem tuned_step {e : Event} (h : Tuned n i bs s)
    (hother : ∀ c, e = Event.operator c → c.name ≠ n) (hstep : stepWith s e = some s') :
    Tuned n i bs s' := by
  cases e with
  | process k a =>
    have hstep : step s (k, a) = some s' := hstep
    obtain ⟨d', w', hact, rfl⟩ := Parties.step_eq_some_iff.mp hstep
    exact tuned_act h hact
  | operator c =>
    obtain rfl := Option.some.inj hstep
    exact tuned_change h (hother c rfl)

/-- **A file stays what it is through all starts**, of whatever binaries, whatever
else the operator edits meanwhile: what the operator has tuned, but also what a
process has left half-written when it was killed. -/
theorem tuned_kept {es : List Event} (hfile : s.shared.read n = some bs)
    (hseed : ∀ k, (s.own k).mode = Mode.seed)
    (hfree : ∀ k i off, (s.own k).phase = Phase.writing i off →
      s.shared.file n = some i → (s.own k).stopped = true)
    (hother : ∀ c, Event.operator c ∈ es → c.name ≠ n)
    (hrun : Runs.run stepWith s es = some s') : s'.shared.read n = some bs := by
  obtain ⟨i, hi, hdata⟩ := Directory.read_eq_some_iff.mp hfile
  have hstart : Tuned n i bs s := ⟨hi, hdata, hseed, fun k off hphase => hfree k i off hphase hi⟩
  have hok : Runs.Throughout stepWith (fun _ e => ∀ c, e = Event.operator c → c.name ≠ n) s es :=
    Runs.throughout_of_forall_mem fun e he c hc => hother c (hc ▸ he)
  have hend := Runs.run_invariant (fun _ _ _ => tuned_step) hstart hok hrun
  exact Directory.read_eq_some_iff.mpr ⟨i, hend.file, hend.data⟩

/-- A bundle of one file. -/
def oneFile : Bundle := Bundle.ofNames ["optimizer.md"] (by decide) fun _ => "x"

/-- A start finds a file that the operator has tuned, while the operator puts another one
beside it. -/
theorem tuned_kept_start : ∃ s, Runs.run stepWith
    (start oneFile (emptyDir.link "optimizer.md" [121]) fun _ => Mode.seed)
    [Event.process 1 Action.next, Event.operator (Change.replace "triage.md" [122]),
      Event.process 1 Action.next] = some s
      ∧ s.shared.read "optimizer.md" = some [121] := by
  have hrun : Runs.run stepWith
      (start oneFile (emptyDir.link "optimizer.md" [121]) fun _ => Mode.seed)
      [Event.process 1 Action.next, Event.operator (Change.replace "triage.md" [122]),
        Event.process 1 Action.next] = some _ := rfl
  refine ⟨_, hrun, tuned_kept rfl (fun _ => rfl) (fun k i off => Phase.noConfusion) ?_ hrun⟩
  intro c hc
  have hc' : c = Change.replace "triage.md" [122] := by simpa using hc
  rw [hc']
  decide

end Operator

end Bundles
