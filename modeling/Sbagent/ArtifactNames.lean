import Sbagent.Layout

/-!
# Who writes what for a target

Everything about a target is in one directory, `results/optimize/<target>`. The
optimizer, the benchmarks of its candidate and the publication each have a list of names
there, and every invocation of the replay has a directory that is named by its id. The
ids are made up by the agent that proposes the replay, and checked against a pattern.

A name with a dot in it never matches the pattern, and that is all that keeps the ids off
the names of the phases. Two of these have no dot (`reservedNames_eq`): the file in which
the optimizer notes its conversation, and the directory of the candidate's binary. An
invocation with one of these ids is refused its directory, or shares it with the binary,
which is then removed with it. With all other ids nobody notices the others, in whatever
order they work (`undisturbed_of_disjoint`).
-/

open PathBuf

namespace ArtifactNames

/-! ## Names -/

/-- What the optimizer makes, or has its agent make. -/
def optimizerNames : List String := clearedArtifacts ++ ["consensus-issue.md"]

/-- What the candidate's build and benchmarks make, but for the invocations. -/
def benchNames : List String :=
  ["cargo-build.log", "cargo-build.stderr.log", "bin", "cargo-clean.log",
    "cargo-clean.stderr.log", "candidate-run-ids.json"]

/-- `PUBLISH_ARTIFACT_FILE_NAMES`. -/
def publishArtifactFileNames : List String :=
  ["pr-title.txt", "pr-body.md", "pr-writer-prompt.md", "pr-writer-events.jsonl",
    "pr-writer-stderr.log", "pr-writer-final-message.md", "issue-title.txt", "issue-body.md",
    "issue-writer-prompt.md", "issue-writer-events.jsonl", "issue-writer-stderr.log",
    "issue-writer-final-message.md"]

/-- What the publication makes. -/
def publishNames : List String := publishArtifactFileNames ++ ["publish-feedback.json"]

/-- All names that are fixed. -/
def fixedNames : List String := optimizerNames ++ benchNames ++ publishNames

/-- The fixed names that an invocation may have, too. -/
def reservedNames : List String := fixedNames.filter isValidInvocationId

theorem reservedNames_eq : reservedNames = ["conversation-id", "bin"] := by decide

/-- Who makes something in the directory. -/
inductive Owner where
  | optimizer
  | bench
  | publish
  | invocation (id : String)
  deriving DecidableEq

namespace Owner

def names : Owner → List String
  | optimizer => optimizerNames
  | bench => benchNames
  | publish => publishNames
  | invocation id => [id]

/-- The phases, and two invocations. -/
def among (a b : String) : List Owner :=
  [optimizer, bench, publish, invocation a, invocation b]

end Owner

/-! ## Paths -/

section Paths

variable (l : Layout) (id : SessionId) (target : String)

/-- `optimize/<target>/<name>`. -/
def fixedPath (name : String) : PathBuf := joinText (l.experimentDir id target) name

/-- `optimize/<target>/<invocation>`. -/
def experimentCandidateInvocationDir (invocation : String) : PathBuf :=
  joinText (l.experimentDir id target) invocation

def fixedPaths : List PathBuf := fixedNames.map (fixedPath l id target)

end Paths

/-! ## What is done to the entries -/

/-- What stands under a name. -/
inductive Entry where
  | file (text : String)
  | dir (files : String → Option String)

/-- What is done to it. A file that is renamed is written under its new name and removed
under the old one. -/
inductive Deed where
  | write (text : String)
  | removeFile
  | createDirAll
  | writeIn (file text : String)
  | removeOne

/-- What is there afterwards, and whether it could be done. -/
def Deed.perform (e : Option Entry) : Deed → Option Entry × Bool
  | write text =>
    match e with
    | some (Entry.dir _) => (e, false)
    | some (Entry.file _) | none => (some (Entry.file text), true)
  | removeFile =>
    match e with
    | some (Entry.file _) => (none, true)
    | some (Entry.dir _) | none => (e, false)
  | createDirAll =>
    match e with
    | some (Entry.file _) => (e, false)
    | some (Entry.dir _) => (e, true)
    | none => (some (Entry.dir fun _ => none), true)
  | writeIn file text =>
    match e with
    | some (Entry.dir files) => (some (Entry.dir (Function.update files file (some text))), true)
    | some (Entry.file _) | none => (e, false)
  | removeOne => (none, true)

/-- A deed of an owner, under one of the owner's names. -/
structure Act where
  owner : Owner
  name : String
  deed : Deed
  owned : name ∈ owner.names

/-- The directory of a target. -/
abbrev TargetDir := String → Option Entry

def step (d : TargetDir) (a : Act) : TargetDir :=
  Function.update d a.name (a.deed.perform (d a.name)).fst

/-- The directory after some acts. -/
def after (d : TargetDir) (acts : List Act) : TargetDir := acts.foldl step d

/-- Who could do what they did, and who could not. -/
def outcomes (d : TargetDir) : List Act → List (Owner × Bool)
  | [] => []
  | a :: acts => (a.owner, (a.deed.perform (d a.name)).snd) :: outcomes (step d a) acts

/-- The acts of an owner. -/
def own (o : Owner) (acts : List Act) : List Act := acts.filter fun a => a.owner = o

/-- **An owner is left alone**: what is under the owner's names, and what could be done,
is as if nobody else had done anything. -/
structure Undisturbed (o : Owner) (d : TargetDir) (acts : List Act) : Prop where
  entries : ∀ name ∈ o.names, after d acts name = after d (own o acts) name
  outcomes : (outcomes d acts).filter (fun r => r.fst = o) = outcomes d (own o acts)

/-- **Two invocations do not collide** with each other and with the phases. -/
structure NoCollision (l : Layout) (id : SessionId) (target a b : String) : Prop where
  distinct : experimentCandidateInvocationDir l id target a
    ≠ experimentCandidateInvocationDir l id target b
  fixed : ∀ p ∈ fixedPaths l id target, experimentCandidateInvocationDir l id target a ≠ p
    ∧ experimentCandidateInvocationDir l id target b ≠ p
  undisturbed : ∀ d acts, (∀ act ∈ acts, act.owner ∈ Owner.among a b) →
    ∀ o ∈ Owner.among a b, Undisturbed o d acts

/-! ## Ids as names -/

section Names

variable {invocation a b : String}

theorem valid_chars (h : isValidInvocationId invocation = true) : invocation.toList ≠ [] ∧
    ∀ c ∈ invocation.toList,
      (Text.isAsciiLower c || Text.isAsciiDigit c || c == '-') = true := by
  unfold isValidInvocationId at h
  split at h
  case h_1 => cases h
  case h_2 c cs heq =>
    rw [Bool.and_eq_true, List.all_eq_true] at h
    rw [heq]
    exact ⟨List.cons_ne_nil c cs, h.right⟩

/-- **An id is a name**, and one level below the directory. -/
theorem isName_of_valid (h : isValidInvocationId invocation = true) : IsName invocation := by
  obtain ⟨hne, hchars⟩ := valid_chars h
  refine ⟨fun hempty => hne (String.toList_eq_nil_iff.mpr hempty), fun hsep => ?_, ?_, ?_⟩
  · exact absurd (hchars _ hsep) (by decide)
  · rintro rfl
    exact absurd h (by decide)
  · rintro rfl
    exact absurd h (by decide)

theorem isName_of_fixed : ∀ name ∈ fixedNames, IsName name := by decide

/-- Of the fixed names, an id can only be one of the reserved ones. -/
theorem not_mem_fixedNames_iff (h : isValidInvocationId invocation = true) :
    invocation ∉ fixedNames ↔ invocation ∉ reservedNames := by
  unfold reservedNames
  rw [List.mem_filter, h, and_iff_left rfl]

theorem joinText_inj {s t : String} (hs : IsName s) (ht : IsName t) (base : PathBuf) :
    joinText base s = joinText base t ↔ s = t := by
  rw [joinText_name hs, joinText_name ht, List.append_cancel_left_eq, List.cons.injEq,
    Component.normal.injEq, and_iff_left rfl]

theorem fixed_iff (l : Layout) (id : SessionId) (target : String)
    (h : isValidInvocationId invocation = true) :
    (∀ p ∈ fixedPaths l id target, experimentCandidateInvocationDir l id target invocation ≠ p)
      ↔ invocation ∉ fixedNames := by
  unfold fixedPaths experimentCandidateInvocationDir fixedPath
  rw [List.forall_mem_map]
  constructor
  · intro hpaths hmem
    exact hpaths invocation hmem rfl
  · intro hmem name hname heq
    rw [joinText_inj (isName_of_valid h) (isName_of_fixed name hname)] at heq
    exact hmem (heq ▸ hname)

end Names

/-! ## Acts under different names -/

section Acts

variable {d d' : TargetDir} {a : Act} {o : Owner} {acts : List Act} {name : String}

theorem step_self : step d a a.name = (a.deed.perform (d a.name)).fst := Function.update_self ..

theorem step_of_ne (h : name ≠ a.name) : step d a name = d name := Function.update_of_ne h _ _

/-- **Somebody else's act** leaves what is under the owner's names. -/
theorem step_other (h : List.Disjoint o.names a.owner.names) (hname : name ∈ o.names) :
    step d a name = d name :=
  step_of_ne fun heq => h hname (heq ▸ a.owned)

/-- **The owner's own act** finds there what it would find without the others. -/
theorem step_own (hd : ∀ n ∈ o.names, d n = d' n) (ho : a.owner = o) :
    (a.deed.perform (d a.name)).snd = (a.deed.perform (d' a.name)).snd
      ∧ ∀ n ∈ o.names, step d a n = step d' a n := by
  have hname : d a.name = d' a.name := hd a.name (ho ▸ a.owned)
  refine ⟨by rw [hname], fun n hn => ?_⟩
  by_cases hna : n = a.name
  · rw [hna, step_self, step_self, hname]
  · rw [step_of_ne hna, step_of_ne hna, hd n hn]

/-- Over a whole run, from directories that agree on the names of the owner. -/
theorem run_own (hacts : ∀ act ∈ acts, act.owner ≠ o → List.Disjoint o.names act.owner.names)
    (hd : ∀ n ∈ o.names, d n = d' n) :
    (∀ n ∈ o.names, after d acts n = after d' (own o acts) n)
      ∧ (outcomes d acts).filter (fun r => r.fst = o) = outcomes d' (own o acts) := by
  induction acts generalizing d d' with
  | nil => exact ⟨hd, rfl⟩
  | cons act acts ih =>
    obtain ⟨hact, hacts⟩ := List.forall_mem_cons.mp hacts
    by_cases ho : act.owner = o
    · obtain ⟨hdone, hd'⟩ := step_own hd ho
      obtain ⟨hafter, houtcomes⟩ := ih hacts hd'
      have hown : own o (act :: acts) = act :: own o acts :=
        List.filter_cons_of_pos (decide_eq_true ho)
      rw [hown]
      refine ⟨hafter, ?_⟩
      rw [outcomes, outcomes, List.filter_cons_of_pos (by simpa using ho), houtcomes, hdone]
    · have hd' : ∀ n ∈ o.names, step d act n = d' n := by
        intro n hn
        rw [step_other (hact ho) hn, hd n hn]
      obtain ⟨hafter, houtcomes⟩ := ih hacts hd'
      have hown : own o (act :: acts) = own o acts :=
        List.filter_cons_of_neg (by simpa using ho)
      rw [hown]
      refine ⟨hafter, ?_⟩
      rw [outcomes, List.filter_cons_of_neg (by simpa using ho), houtcomes]

theorem undisturbed_of_disjoint {owners : List Owner}
    (hdisjoint : owners.Pairwise fun o o' => List.Disjoint o.names o'.names)
    (hacts : ∀ act ∈ acts, act.owner ∈ owners) (ho : o ∈ owners) : Undisturbed o d acts := by
  have hsymm : Std.Symm fun o o' : Owner => List.Disjoint o.names o'.names :=
    ⟨fun _ _ h => h.symm⟩
  have hothers : ∀ act ∈ acts, act.owner ≠ o → List.Disjoint o.names act.owner.names :=
    fun act hact hne => hdisjoint.forall ho (hacts act hact) hne.symm
  obtain ⟨hentries, houtcomes⟩ := run_own hothers fun n _ => Eq.refl (d n)
  exact ⟨hentries, houtcomes⟩

/-- No name is made by two of the phases. -/
theorem disjoint_phases : List.Disjoint optimizerNames benchNames
    ∧ List.Disjoint optimizerNames publishNames ∧ List.Disjoint benchNames publishNames := by
  unfold List.Disjoint
  decide

theorem disjoint_among {a b : String} (hab : a ≠ b) (ha : a ∉ fixedNames)
    (hb : b ∉ fixedNames) :
    (Owner.among a b).Pairwise fun o o' => List.Disjoint o.names o'.names := by
  obtain ⟨hob, hop, hbp⟩ := disjoint_phases
  simp only [fixedNames, List.mem_append, not_or] at ha hb
  simp only [Owner.among, List.pairwise_cons, List.mem_cons, List.not_mem_nil, or_false,
    forall_eq_or_imp, forall_eq, Owner.names, List.disjoint_singleton, List.Pairwise.nil,
    and_true, false_imp_iff, implies_true]
  exact ⟨⟨hob, hop, ha.left.left, hb.left.left⟩, ⟨hbp, ha.left.right, hb.left.right⟩,
    ⟨ha.right, hb.right⟩, hab.symm⟩

end Acts

/-- **Two invocations do not collide** with each other and with the phases exactly if
neither of them has a reserved name. -/
theorem noCollision_iff (l : Layout) (id : SessionId) (target : String) {a b : String}
    (ha : isValidInvocationId a = true) (hb : isValidInvocationId b = true) (hab : a ≠ b) :
    NoCollision l id target a b ↔ a ∉ reservedNames ∧ b ∉ reservedNames := by
  rw [← not_mem_fixedNames_iff ha, ← not_mem_fixedNames_iff hb]
  constructor
  · intro h
    exact ⟨(fixed_iff l id target ha).mp fun p hp => (h.fixed p hp).left,
      (fixed_iff l id target hb).mp fun p hp => (h.fixed p hp).right⟩
  · rintro ⟨hfa, hfb⟩
    constructor
    · exact (joinText_inj (isName_of_valid ha) (isName_of_valid hb) _).not.mpr hab
    · intro p hp
      exact ⟨(fixed_iff l id target ha).mpr hfa p hp, (fixed_iff l id target hb).mpr hfb p hp⟩
    · intro d acts hacts o ho
      exact undisturbed_of_disjoint (disjoint_among hab hfa hfb) hacts ho

theorem noCollision_iff_reads :
    NoCollision workspaceLayout exampleSession "fix" "read-heavy" "write-heavy"
      ↔ "read-heavy" ∉ reservedNames ∧ "write-heavy" ∉ reservedNames :=
  noCollision_iff workspaceLayout exampleSession "fix" (by decide) (by decide) (by decide)

/-- The candidate's binary. -/
def buildActs : List Act :=
  [⟨Owner.bench, "bin", Deed.createDirAll, by decide⟩,
    ⟨Owner.bench, "bin", Deed.writeIn "stacks-bench" "elf", by decide⟩]

/-- An invocation is run and cleaned. -/
def invocationActs (id : String) : List Act :=
  [⟨Owner.invocation id, id, Deed.createDirAll, List.mem_singleton_self id⟩,
    ⟨Owner.invocation id, id, Deed.writeIn "bench-run.json" "1", List.mem_singleton_self id⟩,
    ⟨Owner.invocation id, id, Deed.removeOne, List.mem_singleton_self id⟩]

/-- The optimizer notes its conversation. -/
def conversationActs : List Act :=
  [⟨Owner.optimizer, "conversation-id", Deed.write "c1", by decide⟩]

/-- **An invocation takes the binary with it**, and another is refused its directory. -/
theorem not_noCollision_of_reserved :
    isValidInvocationId "bin" = true ∧ isValidInvocationId "conversation-id" = true
      ∧ (after (fun _ => none) buildActs "bin").isSome = true
      ∧ after (fun _ => none) (buildActs ++ invocationActs "bin") "bin" = none
      ∧ outcomes (fun _ => none) (conversationActs ++ (invocationActs "conversation-id").take 1)
        = [(Owner.optimizer, true), (Owner.invocation "conversation-id", false)]
      ∧ ¬ NoCollision workspaceLayout exampleSession "fix" "bin" "conversation-id" := by
  refine ⟨by decide, by decide, rfl, rfl, rfl, fun h => ?_⟩
  exact (h.fixed _ (List.mem_map_of_mem (show "bin" ∈ fixedNames by decide))).left rfl

end ArtifactNames
