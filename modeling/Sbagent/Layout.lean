import Sbagent.Merge

/-!
# Where a session keeps its files

A session has two trees. Its results directory holds what the phases write:
the optimizer's artifacts, the calibration runs and the verdicts each have a
directory there with one subdirectory per target. Its checkouts directory
holds one clone of the source per target, possibly in a different place
altogether. In all four, what tells the targets apart is their id, joined to
the directory's path as it stands.

Joining is harmless when the id is a single name, and when no two targets
share one (`targetPathsSafe_of_distinct_kebab`): then the paths are pairwise
distinct, each lies one level below its directory, and clearing one target's
artifacts and clone leaves every other target's alone. Session ids are made so
by construction, as a field of their type says. Target ids are not: they are
whatever the merge wrote, and neither the document's validator nor the merge
validator looks at them.
-/

open Fallible

/-- No separator of either kind, and no NUL. -/
def hasNoSeparator (value : String) : Bool :=
  value.toList.all fun c => c != '/' && c != '\\' && c != '\x00'

/-- A session id is used as a path segment, and its constructor refuses what
would not be one. -/
structure SessionId where
  /-- The text. -/
  value : String
  /-- There is something. -/
  nonempty : value ≠ ""
  /-- It does not start with a dot. -/
  noLeadingDot : Text.startsWith value "." = false
  /-- It cannot lead anywhere else. -/
  noSeparator : hasNoSeparator value = true
  deriving DecidableEq

namespace SessionId

/-- Construct a session id, or say why not. -/
def tryFrom (value : String) : Fallible SessionId :=
  if hempty : value = "" then
    bail "invalid session id: session id cannot be empty"
  else if hdot : Text.startsWith value "." = true then
    bail "invalid session id: session id may not start with '.'"
  else if hsep : hasNoSeparator value = true then
    Except.ok ⟨value, hempty, by simpa using hdot, hsep⟩
  else
    bail "invalid session id: session id may not contain '/', '\\', or NUL"

theorem isName (id : SessionId) : PathBuf.IsName id.value := by
  obtain ⟨value, hempty, hdot, hsep⟩ := id
  refine ⟨hempty, fun h => ?_, ?_, ?_⟩
  · have hc := List.all_eq_true.mp hsep _ h
    exact absurd hc (by decide)
  · rintro rfl
    exact absurd hdot (by decide)
  · rintro rfl
    exact absurd hdot (by decide)

end SessionId

/-- The roots that the operator configures. -/
structure Layout where
  /-- Where the sessions are. -/
  sessionsRoot : PathBuf
  /-- Where clones and other scratch state go; next to the sessions when
  unset. -/
  agentWorkspaceRoot : Option PathBuf

namespace Layout

open PathBuf

/-- `<sessions_root>/<id>/results`. -/
def sessionResultsDir (l : Layout) (id : SessionId) : PathBuf :=
  joinText (joinText l.sessionsRoot id.value) "results"

/-- `<sessions_root>/<id>/worktrees`. -/
def sessionWorktreesDir (l : Layout) (id : SessionId) : PathBuf :=
  joinText (joinText l.sessionsRoot id.value) "worktrees"

/-- The parent of the optimizer checkouts of a session. -/
def sessionOptimizerCheckoutsDir (l : Layout) (id : SessionId) : PathBuf :=
  match l.agentWorkspaceRoot with
  | some root => joinText (joinText root "optimizers") id.value
  | none => l.sessionWorktreesDir id

/-- `results/optimize`. -/
def optimizeDir (l : Layout) (id : SessionId) : PathBuf :=
  joinText (l.sessionResultsDir id) "optimize"

/-- `results/analyze`. -/
def analyzeDir (l : Layout) (id : SessionId) : PathBuf :=
  joinText (l.sessionResultsDir id) "analyze"

/-- `results/verify`. -/
def verifyDir (l : Layout) (id : SessionId) : PathBuf :=
  joinText (l.sessionResultsDir id) "verify"

/-- `results/optimize/<target-id>`. -/
def experimentDir (l : Layout) (id : SessionId) (target : String) : PathBuf :=
  joinText (l.optimizeDir id) target

/-- `results/analyze/<target-id>`. -/
def analyzeTargetDir (l : Layout) (id : SessionId) (target : String) : PathBuf :=
  joinText (l.analyzeDir id) target

/-- `results/verify/<target-id>`. -/
def verifyTargetDir (l : Layout) (id : SessionId) (target : String) : PathBuf :=
  joinText (l.verifyDir id) target

/-- The clone an optimizer works in. -/
def optimizerCheckout (l : Layout) (id : SessionId) (target : String) : PathBuf :=
  joinText (l.sessionOptimizerCheckoutsDir id) target

/-- The four paths that belong to a target. -/
def targetPaths (l : Layout) (id : SessionId) (target : String) : List PathBuf :=
  [l.experimentDir id target, l.analyzeTargetDir id target,
    l.verifyTargetDir id target, l.optimizerCheckout id target]

/-- The four directories those paths lie in. -/
def targetRoots (l : Layout) (id : SessionId) : List PathBuf :=
  [l.optimizeDir id, l.analyzeDir id, l.verifyDir id,
    l.sessionOptimizerCheckoutsDir id]

end Layout

/-! ## Clearing a target -/

/-- The files that clearing the optimizer's artifacts removes. -/
def clearedArtifacts : List String :=
  ["optimizer-report.json", "optimizer-report.json.demoted", "abort.md",
    "implementation.md", "coordinator-provenance.json", "side-observations.md",
    "nextest.log", "nextest.stderr.log", "events.jsonl", "stderr.log",
    "final-message.md", "conversation-id", "prompt.md"]

/-- The paths removed from an artifact directory before an optimizer runs:
the artifacts, and the marker of an issue-only target. -/
def clearOptimizerArtifacts (expDir : PathBuf) : List PathBuf :=
  (clearedArtifacts ++ ["consensus-issue.md"]).map (PathBuf.joinText expDir)

/-- A path that clearing a target may remove: one of its artifacts, or
anything in its clone, which is torn down and made anew. -/
def ClearingTouches (l : Layout) (id : SessionId) (target : String)
    (p : PathBuf) : Prop :=
  p ∈ clearOptimizerArtifacts (l.experimentDir id target)
    ∨ ∃ names, p = l.optimizerCheckout id target ++ PathBuf.ofNames names

/-! ## Which ids are safe -/

/-- Neither of a session's two trees lies in the other. It is so by default,
and can fail only when the operator configures one root inside the other. -/
def Layout.Separate (l : Layout) (id : SessionId) : Prop :=
  ¬ PathBuf.Under (l.sessionResultsDir id) (l.sessionOptimizerCheckoutsDir id)
    ∧ ¬ PathBuf.Under (l.sessionOptimizerCheckoutsDir id)
      (l.sessionResultsDir id)

/-- What every phase after the merge relies on: ids that tell the targets
apart, paths that do, and a clearing that stays where it belongs. -/
structure TargetPathsSafe (l : Layout) (id : SessionId)
    (o : OptimizationTargets) : Prop where
  /-- The ids are pairwise distinct. -/
  distinct : (o.targets.map fun t => t.id).Nodup
  /-- Each is a kebab-case identifier. -/
  kebab : ∀ t ∈ o.targets, matchesKebabPattern t.id = true
  /-- Each is a single path segment. -/
  segment : ∀ t ∈ o.targets, PathBuf.parse t.id = [Component.normal t.id]
  /-- The paths of all targets are pairwise distinct. -/
  paths : (o.targets.flatMap fun t => l.targetPaths id t.id).Nodup
  /-- Each of them lies strictly under its root. -/
  under : ∀ t ∈ o.targets, ∀ root ∈ l.targetRoots id,
    PathBuf.StrictlyUnder root (PathBuf.joinText root t.id)
  /-- Clearing a target stays inside the session's two trees. -/
  inside : ∀ t ∈ o.targets, ∀ p, ClearingTouches l id t.id p →
    PathBuf.StrictlyUnder (l.optimizeDir id) p
      ∨ PathBuf.StrictlyUnder (l.sessionOptimizerCheckoutsDir id) p
  /-- The artifacts cleared for a target are not another target's, and the
  clone torn down for it is not another target's. -/
  apart : ∀ t ∈ o.targets, ∀ t' ∈ o.targets, t.id ≠ t'.id →
    (∀ p ∈ clearOptimizerArtifacts (l.experimentDir id t.id),
        ¬ PathBuf.Under (l.experimentDir id t'.id) p
          ∧ ¬ PathBuf.Under (l.analyzeTargetDir id t'.id) p
          ∧ ¬ PathBuf.Under (l.verifyTargetDir id t'.id) p)
      ∧ ∀ names, ¬ PathBuf.Under (l.optimizerCheckout id t'.id)
          (l.optimizerCheckout id t.id ++ PathBuf.ofNames names)
  /-- Where the two trees are separate, clearing a target touches nothing of
  another target's in either. -/
  apartAcross : l.Separate id → ∀ t ∈ o.targets, ∀ t' ∈ o.targets,
    t.id ≠ t'.id → ∀ p, ClearingTouches l id t.id p →
      ∀ dir ∈ l.targetPaths id t'.id, ¬ PathBuf.Under dir p

/-- The ids follow the pattern that the exported schema gives them, and no two
targets have the same one. -/
def IdsFollowSchema (o : OptimizationTargets) : Prop :=
  (∀ t ∈ o.targets, matchesKebabPattern t.id = true)
    ∧ (o.targets.map fun t => t.id).Nodup

instance (o : OptimizationTargets) : Decidable (IdsFollowSchema o) :=
  inferInstanceAs (Decidable (_ ∧ _))

namespace Layout

open PathBuf

variable (l : Layout) (id : SessionId)

theorem sessionResultsDir_eq : l.sessionResultsDir id
    = l.sessionsRoot ++ [Component.normal id.value, Component.normal "results"] := by
  rw [sessionResultsDir, joinText_name id.isName, joinText_name (by decide)]
  simp

theorem sessionWorktreesDir_eq : l.sessionWorktreesDir id
    = l.sessionsRoot
      ++ [Component.normal id.value, Component.normal "worktrees"] := by
  rw [sessionWorktreesDir, joinText_name id.isName, joinText_name (by decide)]
  simp

/-- **The two trees are separate when no workspace is configured**, and when
the sessions are where they are by default in one that is. -/
theorem separate_of_default (h : l.agentWorkspaceRoot = none
    ∨ ∃ root, l.agentWorkspaceRoot = some root
      ∧ l.sessionsRoot = joinText root "sessions") : l.Separate id := by
  -- two paths that extend a common base by different first names
  have hdiff : ∀ (base : PathBuf) (a b : String) (p q : PathBuf), a ≠ b →
      ¬ Under (base ++ Component.normal a :: p)
        (base ++ Component.normal b :: q) := by
    intro base a b p q hne hu
    have hcons := (List.prefix_append_right_inj base).mp hu
    exact hne (Component.normal.inj (List.cons_prefix_cons.mp hcons).left)
  rcases h with h | ⟨root, hroot, hsess⟩
  · have hc : l.sessionOptimizerCheckoutsDir id
        = (l.sessionsRoot ++ [Component.normal id.value])
          ++ Component.normal "worktrees" :: [] := by
      rw [sessionOptimizerCheckoutsDir, h]
      simp [sessionWorktreesDir_eq]
    have hr : l.sessionResultsDir id
        = (l.sessionsRoot ++ [Component.normal id.value])
          ++ Component.normal "results" :: [] := by
      simp [sessionResultsDir_eq]
    rw [Separate, hc, hr]
    exact ⟨hdiff _ _ _ _ _ (by decide), hdiff _ _ _ _ _ (by decide)⟩
  · have hc : l.sessionOptimizerCheckoutsDir id
        = root ++ Component.normal "optimizers"
          :: [Component.normal id.value] := by
      rw [sessionOptimizerCheckoutsDir, hroot]
      show joinText (joinText root "optimizers") id.value = _
      rw [joinText_name id.isName, joinText_name (by decide)]
      simp
    have hr : l.sessionResultsDir id
        = root ++ Component.normal "sessions"
          :: [Component.normal id.value, Component.normal "results"] := by
      rw [sessionResultsDir_eq, hsess, joinText_name (by decide)]
      simp
    rw [Separate, hc, hr]
    exact ⟨hdiff _ _ _ _ _ (by decide), hdiff _ _ _ _ _ (by decide)⟩

/-- The four roots are different directories: the results directory and the
checkouts directory have different names for their last steps. -/
theorem nodup_targetRoots : (l.targetRoots id).Nodup := by
  have ho : l.optimizeDir id = l.sessionResultsDir id
      ++ [Component.normal "optimize"] := joinText_name (by decide) _
  have ha : l.analyzeDir id = l.sessionResultsDir id
      ++ [Component.normal "analyze"] := joinText_name (by decide) _
  have hv : l.verifyDir id = l.sessionResultsDir id
      ++ [Component.normal "verify"] := joinText_name (by decide) _
  have hc : ∀ s, l.sessionOptimizerCheckoutsDir id
      ≠ l.sessionResultsDir id ++ [Component.normal s] := by
    intro s heq
    unfold sessionOptimizerCheckoutsDir at heq
    cases hw : l.agentWorkspaceRoot with
    | none =>
      rw [hw] at heq
      have hlen := congrArg List.length heq
      simp [sessionWorktreesDir_eq, sessionResultsDir_eq] at hlen
    | some root =>
      rw [hw] at heq
      have heq : (root ++ [Component.normal "optimizers"])
            ++ [Component.normal id.value]
          = ((l.sessionsRoot ++ [Component.normal id.value])
            ++ [Component.normal "results"]) ++ [Component.normal s] := by
        simpa [joinText_name id.isName, joinText_name
          (show IsName "optimizers" by decide), sessionResultsDir_eq] using heq
      have hinit := (List.append_inj' heq rfl).left
      have hlast := (List.append_inj' hinit rfl).right
      exact absurd hlast (by decide)
  have hc' : ∀ s, l.sessionResultsDir id ++ [Component.normal s]
      ≠ l.sessionOptimizerCheckoutsDir id := fun s => (hc s).symm
  rw [targetRoots, ho, ha, hv]
  simp only [List.nodup_cons, List.mem_cons, List.not_mem_nil, or_false,
    not_or, List.append_cancel_left_eq, List.cons.injEq, and_true,
    Component.normal.injEq, not_false_eq_true, List.nodup_nil]
  exact ⟨⟨by decide, by decide, hc' _⟩, ⟨by decide, hc' _⟩, hc' _⟩

end Layout

section Safe

open PathBuf

variable {l : Layout} {id : SessionId}

/-- Every name that clearing removes is a name, so what it removes lies
directly in the artifact directory. -/
theorem mem_clearOptimizerArtifacts {dir p : PathBuf}
    (h : p ∈ clearOptimizerArtifacts dir) :
    ∃ name, p = dir ++ [Component.normal name] := by
  have hnames : ∀ name ∈ clearedArtifacts ++ ["consensus-issue.md"],
      IsName name := by decide +kernel
  obtain ⟨name, hname, rfl⟩ := List.mem_map.mp h
  exact ⟨name, joinText_name (hnames name hname) dir⟩

/-- Two directories of one parent with different names have nothing in
common. -/
theorem not_under_of_sibling {base p q : PathBuf} {a b : String}
    (hne : a ≠ b) (hp : Under (base ++ Component.normal a :: q) p)
    (r : PathBuf) : ¬ Under (base ++ Component.normal b :: r) p := by
  intro hp'
  obtain ⟨x, rfl⟩ := hp
  obtain ⟨y, hy⟩ := hp'
  rw [List.append_assoc, List.append_assoc, List.append_cancel_left_eq,
    List.cons_append, List.cons_append, List.cons.injEq] at hy
  exact hne (Component.normal.inj hy.left).symm

/-- What lies under both of two directories makes one of them lie under the
other. -/
theorem under_or_under {a b p : PathBuf} (ha : Under a p) (hb : Under b p) :
    Under a b ∨ Under b a :=
  List.prefix_or_prefix_of_prefix ha hb

variable (l id) in
theorem experimentDir_eq {s : String} (hs : IsName s) :
    l.experimentDir id s = l.sessionResultsDir id
      ++ [Component.normal "optimize", Component.normal s] := by
  rw [Layout.experimentDir, joinText_name hs, Layout.optimizeDir,
    joinText_name (by decide)]
  simp

variable (l id) in
theorem analyzeTargetDir_eq {s : String} (hs : IsName s) :
    l.analyzeTargetDir id s = l.sessionResultsDir id
      ++ [Component.normal "analyze", Component.normal s] := by
  rw [Layout.analyzeTargetDir, joinText_name hs, Layout.analyzeDir,
    joinText_name (by decide)]
  simp

variable (l id) in
theorem verifyTargetDir_eq {s : String} (hs : IsName s) :
    l.verifyTargetDir id s = l.sessionResultsDir id
      ++ [Component.normal "verify", Component.normal s] := by
  rw [Layout.verifyTargetDir, joinText_name hs, Layout.verifyDir,
    joinText_name (by decide)]
  simp

variable (l id) in
theorem optimizerCheckout_eq {s : String} (hs : IsName s) :
    l.optimizerCheckout id s
      = l.sessionOptimizerCheckoutsDir id ++ [Component.normal s] :=
  joinText_name hs _

/-- What is cleared in one target's artifact directory lies in no directory of
another target under the results. -/
theorem artifacts_apart {s t : String} (hs : IsName s) (ht : IsName t)
    (hne : s ≠ t) {p : PathBuf}
    (hp : p ∈ clearOptimizerArtifacts (l.experimentDir id s)) :
    ¬ Under (l.experimentDir id t) p ∧ ¬ Under (l.analyzeTargetDir id t) p
      ∧ ¬ Under (l.verifyTargetDir id t) p := by
  obtain ⟨name, rfl⟩ := mem_clearOptimizerArtifacts hp
  have hu : Under (l.experimentDir id s)
      (l.experimentDir id s ++ [Component.normal name]) :=
    List.prefix_append _ _
  have hu' : Under (l.sessionResultsDir id ++ Component.normal "optimize"
      :: [Component.normal s]) (l.experimentDir id s
        ++ [Component.normal name]) := by
    rw [← experimentDir_eq l id hs]
    exact hu
  refine ⟨not_under_both hs ht hne hu, ?_, ?_⟩
  · rw [analyzeTargetDir_eq l id ht]
    exact not_under_of_sibling (by decide) hu' _
  · rw [verifyTargetDir_eq l id ht]
    exact not_under_of_sibling (by decide) hu' _

/-- Everything in a results directory of a target is under the results. -/
theorem results_under {s : String} (hs : IsName s) {dir : PathBuf}
    (h : dir = l.experimentDir id s ∨ dir = l.analyzeTargetDir id s
      ∨ dir = l.verifyTargetDir id s) : Under (l.sessionResultsDir id) dir := by
  rcases h with rfl | rfl | rfl
  · exact experimentDir_eq l id hs ▸ List.prefix_append _ _
  · exact analyzeTargetDir_eq l id hs ▸ List.prefix_append _ _
  · exact verifyTargetDir_eq l id hs ▸ List.prefix_append _ _

/-- Where the trees are separate, nothing is under both. -/
theorem not_under_both_trees (hsep : l.Separate id) {p : PathBuf}
    (hr : Under (l.sessionResultsDir id) p) :
    ¬ Under (l.sessionOptimizerCheckoutsDir id) p := fun hc =>
  (under_or_under hr hc).elim hsep.left hsep.right

/-- Clearing a target touches nothing of another target's, across both
trees. -/
theorem clearing_apart (hsep : l.Separate id) {s t : String} (hs : IsName s)
    (ht : IsName t) (hne : s ≠ t) {p : PathBuf}
    (hp : ClearingTouches l id s p) {dir : PathBuf}
    (hdir : dir ∈ l.targetPaths id t) : ¬ Under dir p := by
  intro hu
  have hcheck : Under (l.sessionOptimizerCheckoutsDir id)
      (l.optimizerCheckout id t) :=
    optimizerCheckout_eq l id ht ▸ List.prefix_append _ _
  rcases hp with hp | ⟨names, rfl⟩
  · have hres : Under (l.sessionResultsDir id) p := by
      obtain ⟨name, rfl⟩ := mem_clearOptimizerArtifacts hp
      exact (results_under hs (Or.inl rfl)).trans (List.prefix_append _ _)
    obtain ⟨he, ha, hv⟩ := artifacts_apart hs ht hne hp
    simp only [Layout.targetPaths, List.mem_cons, List.not_mem_nil,
      or_false] at hdir
    rcases hdir with rfl | rfl | rfl | rfl
    · exact he hu
    · exact ha hu
    · exact hv hu
    · exact not_under_both_trees hsep hres (hcheck.trans hu)
  · have hown : Under (l.optimizerCheckout id s)
        (l.optimizerCheckout id s ++ ofNames names) := List.prefix_append _ _
    have htree : Under (l.sessionOptimizerCheckoutsDir id)
        (l.optimizerCheckout id s ++ ofNames names) :=
      (optimizerCheckout_eq l id hs ▸
        List.prefix_append _ _ : Under _ (l.optimizerCheckout id s)).trans hown
    simp only [Layout.targetPaths, List.mem_cons, List.not_mem_nil,
      or_false] at hdir
    rcases hdir with h | h | h | rfl
    · exact not_under_both_trees hsep
        ((results_under ht (Or.inl h)).trans hu) htree
    · exact not_under_both_trees hsep
        ((results_under ht (Or.inr (Or.inl h))).trans hu) htree
    · exact not_under_both_trees hsep
        ((results_under ht (Or.inr (Or.inr h))).trans hu) htree
    · exact not_under_both hs ht hne hown hu

variable (l id) in
/-- The paths of targets with distinct names are pairwise distinct. -/
theorem nodup_targetPaths {ids : List String} (hn : ∀ s ∈ ids, IsName s)
    (hnd : ids.Nodup) : (ids.flatMap (l.targetPaths id)).Nodup := by
  have hpaths : ∀ s, l.targetPaths id s
      = (l.targetRoots id).map fun root => joinText root s := fun _ => rfl
  rw [List.nodup_flatMap]
  refine ⟨fun s hs => ?_, ?_⟩
  · rw [hpaths]
    refine (Layout.nodup_targetRoots l id).map_on fun a _ b _ hab => ?_
    rw [joinText_name (hn s hs), joinText_name (hn s hs)] at hab
    exact (List.append_inj' hab rfl).left
  · refine List.Pairwise.imp_of_mem ?_ hnd
    intro s t hs ht hne p hps hpt
    rw [hpaths] at hps hpt
    obtain ⟨a, _, rfl⟩ := List.mem_map.mp hps
    obtain ⟨b, _, hab⟩ := List.mem_map.mp hpt
    rw [joinText_name (hn s hs), joinText_name (hn t ht)] at hab
    have hlast := (List.append_inj' hab rfl).right
    exact hne (Component.normal.inj (List.cons.inj hlast).left).symm

/-- **Distinct kebab-case ids keep the targets apart.** -/
theorem targetPathsSafe_of_distinct_kebab {o : OptimizationTargets}
    (h : IdsFollowSchema o) : TargetPathsSafe l id o := by
  obtain ⟨hkebab, hnd⟩ := h
  have hname : ∀ t ∈ o.targets, IsName t.id := fun t ht =>
    isName_of_matchesKebabPattern (hkebab t ht)
  refine ⟨hnd, hkebab, fun t ht => parse_name (hname t ht), ?_,
    fun t ht root _ => strictlyUnder_joinText (hname t ht) root, ?_, ?_, ?_⟩
  · have hflat := nodup_targetPaths l id
      (List.forall_mem_map.mpr hname) hnd
    rwa [List.flatMap_map] at hflat
  · rintro t ht p (hp | ⟨names, rfl⟩)
    · obtain ⟨name, rfl⟩ := mem_clearOptimizerArtifacts hp
      exact Or.inl ((strictlyUnder_joinText (hname t ht) _).trans_under [name]
        rfl)
    · exact Or.inr ((strictlyUnder_joinText (hname t ht) _).trans_under names
        rfl)
  · intro t ht t' ht' hne
    refine ⟨fun p hp => artifacts_apart (hname t ht) (hname t' ht') hne hp,
      fun names => ?_⟩
    exact not_under_both (hname t ht) (hname t' ht') hne
      (List.prefix_append _ _)
  · intro hsep t ht t' ht' hne p hp dir hdir
    exact clearing_apart hsep (hname t ht) (hname t' ht') hne hp hdir

/-- **The targets are kept apart exactly when their ids follow the schema and
are distinct**, whatever the document went through before. -/
theorem targetPathsSafe_iff (l : Layout) (id : SessionId)
    (o : OptimizationTargets) :
    TargetPathsSafe l id o ↔ IdsFollowSchema o :=
  ⟨fun h => ⟨h.kebab, h.distinct⟩, targetPathsSafe_of_distinct_kebab⟩

/-- The layout of the examples, with everything in one workspace. -/
def workspaceLayout : Layout where
  sessionsRoot := PathBuf.parse "/ws/sessions"
  agentWorkspaceRoot := some (PathBuf.parse "/ws")

/-- The session of the examples. -/
def exampleSession : SessionId :=
  ⟨"20260614", by decide, by decide, by decide⟩

/-- Two analyses that propose the same fix, kept separate under the fix's
name. -/
def sameIdDocument : OptimizationTargets :=
  documentOf ["fam-a", "fam-b"]
    [issueTarget "fix" [⟨"fam-a", 0⟩], issueTarget "fix" [⟨"fam-b", 0⟩]] []

/-- A target whose id leads out of its directory. -/
def escapingIdDocument : OptimizationTargets :=
  documentOf ["fam-a"] [issueTarget "../../other" [⟨"fam-a", 0⟩]] []

/-- **Both documents pass the merge validator and the loader, and neither
keeps its targets apart.** -/
theorem not_targetPathsSafe_of_accepted :
    (validateMergeOutputWithDedup sameIdDocument
          [analysisOf "fam-a" ["fix"], analysisOf "fam-b" ["fix"]] []
          = Except.ok ()
        ∧ readOptimizationTargets (FileRead.parsed sameIdDocument)
          = Except.ok sameIdDocument
        ∧ ¬ TargetPathsSafe workspaceLayout exampleSession sameIdDocument)
      ∧ validateMergeOutputWithDedup escapingIdDocument
          [analysisOf "fam-a" ["fix"]] [] = Except.ok ()
        ∧ readOptimizationTargets (FileRead.parsed escapingIdDocument)
          = Except.ok escapingIdDocument
        ∧ ¬ TargetPathsSafe workspaceLayout exampleSession
          escapingIdDocument := by
  refine ⟨⟨by decide +kernel, by decide +kernel, fun h => ?_⟩,
    by decide +kernel, by decide +kernel, fun h => ?_⟩
  · exact absurd h.distinct (by decide +kernel)
  · exact absurd (h.segment _ List.mem_cons_self) (by decide +kernel)

end Safe
