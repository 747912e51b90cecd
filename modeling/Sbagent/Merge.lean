import Sbagent.Dedup

/-!
# Merging analyses into targets

The merge phase hands the accepted analyses to a language model, which groups
their targets, and then checks what comes back. The check is the only one
there is: nothing that was found may be lost, counted twice or invented, and a
group may not mix buckets, consensus classes or two findings of one analysis.

Before that, targets that history blocks are taken out of the analyses and
reported as rejected by the program itself. What is left is a *shorter* array
per analysis, and it is positions in the shorter array that the model reports
while the check reads positions in the original one. The two agree as long as
the blocked targets of an analysis come last – `targetReferencesSurvive_iff` –
and not otherwise.

The check itself is exact (`validateMergeOutputWithDedup_ok_iff`): it accepts a
document when each of its rules holds of it, read as statements about the
accepted analyses rather than as lookups in the tables it builds from them.
-/

open Fallible Keyed

/-! ## Analyzer targets by family and index -/

/-- Order of the keys of the tables: by family, then by index. -/
def comparePair : String × ℕ → String × ℕ → Ordering :=
  compareLex (compareOn Prod.fst) (compareOn Prod.snd)

instance : Std.TransCmp comparePair :=
  inferInstanceAs (Std.TransCmp (compareLex (compareOn Prod.fst)
    (compareOn Prod.snd)))

instance : Std.LawfulEqCmp comparePair where
  eq_of_compare {a b} h := by
    obtain ⟨h₁, h₂⟩ := Ordering.then_eq_eq.mp h
    exact Prod.ext (Std.LawfulEqCmp.eq_of_compare h₁)
      (Std.LawfulEqCmp.eq_of_compare h₂)

/-- The family and index a contributor is referred to by. -/
def MergedFrom.pair (mf : MergedFrom) : String × ℕ := (mf.familyId, mf.targetIndex)

/-- The family and index a rejected target is referred to by. -/
def RejectedByMerge.pair (r : RejectedByMerge) : String × ℕ :=
  (r.familyId, r.targetIndex)

/-- The targets of one analysis, with the keys they are referred to by. -/
def analysisRows (a : AcceptedAnalysis) : List ((String × ℕ) × AnalyzerTarget) :=
  a.targets.zipIdx.map fun p => ((a.familyId, p.snd), p.fst)

/-- The targets of all analyses, with the keys they are referred to by. -/
def pairRows (accepted : List AcceptedAnalysis) :
    List ((String × ℕ) × AnalyzerTarget) :=
  accepted.flatMap analysisRows

/-- The analyzer target under a family and an index. The source keeps its
bucket, its consensus class and its evidence in three maps written at the same
time under the same key. -/
def targetByPair (accepted : List AcceptedAnalysis) (k : String × ℕ) :
    Option AnalyzerTarget :=
  (insertAll comparePair (pairRows accepted))[k]?

/-- Every family and index there is. -/
def expectedPairs (accepted : List AcceptedAnalysis) : Finset (String × ℕ) :=
  ((pairRows accepted).map Prod.fst).toFinset

/-- The families of the accepted analyses. -/
def acceptedFamilyIds (accepted : List AcceptedAnalysis) : Finset String :=
  (accepted.map fun a => a.familyId).toFinset

/-! ## Filtering by history -/

/-- The decisions on the targets of one analysis. -/
def dedupDecisions (p : DedupProjection) (a : AcceptedAnalysis) :
    List DedupDecision :=
  a.targets.zipIdx.filterMap fun t => p.decisionFor a.familyId t.snd t.fst

/-- An analysis without the targets that history blocks. -/
def withoutBlocked (p : DedupProjection) (a : AcceptedAnalysis) :
    AcceptedAnalysis :=
  { a with
    targets := (a.targets.zipIdx.filter fun t =>
      (p.decisionFor a.familyId t.snd t.fst).isNone).map Prod.fst }

/-- The analyses without the targets that history blocks, and the decisions
on those. -/
def filterAcceptedForDedup (accepted : List AcceptedAnalysis)
    (p : DedupProjection) : List AcceptedAnalysis × List DedupDecision :=
  (accepted.map (withoutBlocked p), accepted.flatMap (dedupDecisions p))

/-- The decisions as rejections. -/
def dedupRejections (decisions : List DedupDecision) : List RejectedByMerge :=
  decisions.map DedupDecision.toRejectedByMerge

/-! ## The validator -/

/-- Every target the document refers to, merged or rejected. -/
def accountedPairs (o : OptimizationTargets) : List (String × ℕ) :=
  o.targets.flatMap (fun t => t.mergedFrom.map MergedFrom.pair)
    ++ o.rejectedByMerge.map RejectedByMerge.pair

/-- Every target of the analyses is accounted for once. -/
def checkTargetCoverage (o : OptimizationTargets)
    (accepted : List AcceptedAnalysis) : Fallible Unit :=
  let accounted := account (∅, false) (accountedPairs o)
  bailIf (accounted.snd = true ∨ accounted.fst ≠ expectedPairs accepted)
    ("merge: target coverage invariant failed (every (family_id, target_index) "
      ++ "from accepted analyses must appear in EXACTLY ONE of merged_from / "
      ++ s!"rejected_by_merge). expected={(expectedPairs accepted).card} "
      ++ s!"accounted={accounted.fst.card}")

/-- Order of rejections: by family, then by index, then by reason. -/
def compareRejection : String × ℕ × String → String × ℕ × String → Ordering :=
  compareLex (compareOn Prod.fst)
    (compareLex (compareOn fun r => r.snd.fst) (compareOn fun r => r.snd.snd))

/-- A set of rejections in a message, in order. -/
def debugRejections (rs : List (String × ℕ × String)) : String :=
  let sorted := rs.dedup.mergeSort fun r r' => (compareRejection r r').isLE
  "\x7b" ++ ", ".intercalate (sorted.map fun r =>
    s!"({Text.debug r.fst}, {r.snd.fst}, {Text.debug r.snd.snd})") ++ "\x7d"

/-- The rejections the document attributes to history are the computed
ones. -/
def checkDedupRejections (o : OptimizationTargets)
    (expectedDedup : List DedupDecision) : Fallible Unit :=
  let expected := expectedDedup.map fun d => (d.familyId, d.targetIndex, d.reason)
  let actual := (o.rejectedByMerge.filter fun r =>
    Text.startsWith r.reason "dedup:").map fun r => (r.familyId, r.targetIndex, r.reason)
  bailIf (actual.toFinset ≠ expected.toFinset)
    ("merge: dedup rejection invariant failed (expected coordinator-computed "
      ++ s!"dedup decisions exactly once). expected={debugRejections expected} "
      ++ s!"actual={debugRejections actual}")

/-- A rejection attributed to history has one of the known reasons. -/
def checkDedupReasons (o : OptimizationTargets) : Fallible Unit :=
  forEach (fun _ r => bailIf (Text.startsWith r.reason "dedup:" = true
      ∧ isDedupReason r.reason = false)
    (s!"merge: unknown dedup rejection reason `{r.reason}` for "
      ++ s!"family_id={r.familyId} target_index={r.targetIndex}"))
    o.rejectedByMerge

/-- Every family has its lens disposition once. -/
def checkLensDispositionCoverage (o : OptimizationTargets)
    (accepted : List AcceptedAnalysis) : Fallible Unit :=
  let present := account (∅, false) (o.lensDispositions.map fun d => d.familyId)
  bailIf (present.snd = true ∨ present.fst ≠ acceptedFamilyIds accepted)
    ("merge: lens_dispositions coverage failed (every accepted family_id must "
      ++ "appear exactly once in lens_dispositions[])")

/-- The analyzer targets that contributed to a merged one; a reference that
leads nowhere is skipped. -/
def contributors (accepted : List AcceptedAnalysis) (t : MergedTarget) :
    List AnalyzerTarget :=
  t.mergedFrom.filterMap fun mf => targetByPair accepted mf.pair

/-- No target merges across buckets. -/
def checkBuckets (o : OptimizationTargets) (accepted : List AcceptedAnalysis) :
    Fallible Unit :=
  forEach (fun _ t =>
    let buckets := ((contributors accepted t).map fun c => c.bucket).toFinset
    bailIf (1 < buckets.card ∨ (buckets.card = 1 ∧ t.bucket ∉ buckets))
      (s!"merge: cross-bucket merge detected on target `{t.id}` (merged_from "
        ++ s!"references {buckets.card} distinct buckets; merged target's "
        ++ s!"bucket={t.bucket.debug})")) o.targets

/-- No target merges two findings of one analysis. -/
def checkIntraAnalysis (o : OptimizationTargets) : Fallible Unit :=
  forEach (fun _ t =>
    scanDistinct (fun mf => mf.familyId)
      (fun _ mf => s!"merge: intra-analysis merge detected on target `{t.id}` "
        ++ "(two merged_from entries reference family_id="
        ++ Text.debug mf.familyId
        ++ "; the analyzer's distinct findings must remain separate)")
      (fun _ _ => Except.ok ()) (fun _ _ => Except.ok ()) t.mergedFrom)
    o.targets

/-- The consensus class of a target in a message. -/
def debugSignature (consensusBreaking : Bool) (c : Option BreakageClass) : String :=
  let shown := match c with
    | none => "None"
    | some c => s!"Some({c.debug})"
  s!"({consensusBreaking}, {shown})"

/-- No target merges across consensus classes. -/
def checkConsensus (o : OptimizationTargets)
    (accepted : List AcceptedAnalysis) : Fallible Unit :=
  forEach (fun _ t =>
    let signatures := ((contributors accepted t).map fun c =>
      (c.consensusBreaking, c.breakageClass)).toFinset
    bailIf (1 < signatures.card ∨ (signatures.card = 1
        ∧ (t.consensusBreaking, t.breakageClass) ∉ signatures))
      (s!"merge: cross-consensus merge detected on target `{t.id}` "
        ++ s!"(merged_from references {signatures.card} distinct "
        ++ "(consensus_breaking, breakage_class) signatures; merged target's "
        ++ s!"signature={debugSignature t.consensusBreaking t.breakageClass})")) o.targets

/-- A target carries the evidence of its contributors and no other. -/
def checkEvidence (o : OptimizationTargets) (accepted : List AcceptedAnalysis) :
    Fallible Unit :=
  forEach (fun _ t =>
    let expected :=
      ((contributors accepted t).flatMap fun c => c.evidenceQueries).toFinset
    bailIf (t.evidenceQueries.toFinset ≠ expected)
      (s!"merge: evidence provenance mismatch on target `{t.id}` (expected "
        ++ "exact union of contributor evidence_queries: "
        ++ s!"{expected.card}, got {t.evidenceQueries.toFinset.card})"))
    o.targets

/-- The merged output against the analyses it came from and the decisions
that history forced. -/
def validateMergeOutputWithDedup (o : OptimizationTargets)
    (accepted : List AcceptedAnalysis) (expectedDedup : List DedupDecision) :
    Fallible Unit := do
  o.validateModel.context "merge output validation"
  checkTargetCoverage o accepted
  checkDedupRejections o expectedDedup
  checkDedupReasons o
  checkLensDispositionCoverage o accepted
  checkBuckets o accepted
  checkIntraAnalysis o
  checkConsensus o accepted
  checkEvidence o accepted

/-! ## The tables, read as statements -/

/-- An analyzer target of the accepted analyses, under its family and
index. -/
def IsTargetAt (accepted : List AcceptedAnalysis) (k : String × ℕ)
    (c : AnalyzerTarget) : Prop :=
  ∃ a ∈ accepted, a.familyId = k.fst ∧ a.targets[k.snd]? = some c

theorem mem_analysisRows {a : AcceptedAnalysis} {k : String × ℕ}
    {c : AnalyzerTarget} : (k, c) ∈ analysisRows a
      ↔ a.familyId = k.fst ∧ a.targets[k.snd]? = some c := by
  obtain ⟨f, i⟩ := k
  simp only [analysisRows, List.mem_map, Prod.mk.injEq, Prod.exists,
    List.mk_mem_zipIdx_iff_getElem?]
  constructor
  · rintro ⟨t, j, hget, ⟨hf, rfl⟩, rfl⟩
    exact ⟨hf, hget⟩
  · rintro ⟨hf, hget⟩
    exact ⟨c, i, hget, ⟨hf, rfl⟩, rfl⟩

theorem mem_pairRows {accepted : List AcceptedAnalysis} {k : String × ℕ}
    {c : AnalyzerTarget} :
    (k, c) ∈ pairRows accepted ↔ IsTargetAt accepted k c := by
  simp only [pairRows, List.mem_flatMap, mem_analysisRows, IsTargetAt]

/-- The keys of one analysis: its family, with each index. -/
theorem keys_analysisRows (a : AcceptedAnalysis) :
    (analysisRows a).map Prod.fst
      = (List.range a.targets.length).map fun i => (a.familyId, i) := by
  rw [analysisRows, List.map_map, List.range_eq_range', ← List.zipIdx_map_snd 0,
    List.map_map]
  rfl

/-- A family keys its own analysis only, so no key is written twice. -/
theorem nodup_keys_pairRows {accepted : List AcceptedAnalysis}
    (hnd : (accepted.map fun a => a.familyId).Nodup) :
    ((pairRows accepted).map Prod.fst).Nodup := by
  rw [pairRows, List.map_flatMap, List.nodup_flatMap]
  refine ⟨fun a _ => ?_, ?_⟩
  · rw [keys_analysisRows]
    exact List.nodup_range.map fun i j h => (Prod.mk.injEq _ _ _ _ ▸ h).right
  · refine (List.pairwise_map.mp hnd).imp fun {a b} hne => ?_
    rw [Function.onFun, keys_analysisRows, keys_analysisRows]
    rintro k ha hb
    obtain ⟨i, _, rfl⟩ := List.mem_map.mp ha
    obtain ⟨j, _, heq⟩ := List.mem_map.mp hb
    exact hne (Prod.mk.inj heq).left.symm

theorem targetByPair_eq_some_iff {accepted : List AcceptedAnalysis}
    (hnd : (accepted.map fun a => a.familyId).Nodup) {k : String × ℕ}
    {c : AnalyzerTarget} :
    targetByPair accepted k = some c ↔ IsTargetAt accepted k c := by
  rw [targetByPair, getElem?_insertAll_eq_some_iff (nodup_keys_pairRows hnd),
    mem_pairRows]

theorem mem_expectedPairs {accepted : List AcceptedAnalysis}
    {k : String × ℕ} :
    k ∈ expectedPairs accepted ↔ ∃ c, IsTargetAt accepted k c := by
  rw [expectedPairs, List.mem_toFinset, List.mem_map]
  constructor
  · rintro ⟨⟨k, c⟩, h, rfl⟩
    exact ⟨c, mem_pairRows.mp h⟩
  · rintro ⟨c, h⟩
    exact ⟨(k, c), mem_pairRows.mpr h, rfl⟩

theorem mem_contributors {accepted : List AcceptedAnalysis}
    (hnd : (accepted.map fun a => a.familyId).Nodup) {t : MergedTarget}
    {c : AnalyzerTarget} : c ∈ contributors accepted t
      ↔ ∃ mf ∈ t.mergedFrom, IsTargetAt accepted mf.pair c := by
  simp only [contributors, List.mem_filterMap, targetByPair_eq_some_iff hnd]

/-! ## The validator is exact -/

/-- What a merge document must be, said of the analyses themselves. -/
structure MergeExact (o : OptimizationTargets)
    (accepted : List AcceptedAnalysis) (expectedDedup : List DedupDecision) :
    Prop where
  /-- The document is well formed on its own. -/
  model : o.validateModel = Except.ok ()
  /-- Every analyzer target is referred to once, and nothing else is. -/
  coverage : ∀ k, (∃ c, IsTargetAt accepted k c) →
    (accountedPairs o).count k = 1
  /-- Nothing else is referred to. -/
  nothingElse : ∀ k, (¬ ∃ c, IsTargetAt accepted k c) →
    (accountedPairs o).count k = 0
  /-- The rejections attributed to history are the computed ones. -/
  dedup : ∀ family index reason,
    (∃ r ∈ o.rejectedByMerge, Text.startsWith r.reason "dedup:" = true
        ∧ r = ⟨family, index, reason⟩)
      ↔ ∃ d ∈ expectedDedup, d.familyId = family ∧ d.targetIndex = index
          ∧ d.reason = reason
  /-- Each of them has a known reason. -/
  dedupReason : ∀ r ∈ o.rejectedByMerge,
    Text.startsWith r.reason "dedup:" = true → isDedupReason r.reason = true
  /-- Every accepted family has one lens disposition, and no other family has
  any. -/
  lens : ∀ family, (o.lensDispositions.map fun d => d.familyId).count family
    = if ∃ a ∈ accepted, a.familyId = family then 1 else 0
  /-- The contributors of a target agree with it on the bucket. -/
  bucket : ∀ t ∈ o.targets, ∀ mf ∈ t.mergedFrom,
    ∃ c, IsTargetAt accepted mf.pair c ∧ c.bucket = t.bucket
  /-- The contributors of a target agree with it on the consensus class. -/
  consensus : ∀ t ∈ o.targets, ∀ mf ∈ t.mergedFrom,
    ∃ c, IsTargetAt accepted mf.pair c
      ∧ (c.consensusBreaking, c.breakageClass)
        = (t.consensusBreaking, t.breakageClass)
  /-- The contributors of a target come from different analyses. -/
  families : ∀ t ∈ o.targets, (t.mergedFrom.map fun mf => mf.familyId).Nodup
  /-- The evidence of a target is the union of its contributors'. -/
  evidence : ∀ t ∈ o.targets, ∀ q, q ∈ t.evidenceQueries
    ↔ ∃ mf ∈ t.mergedFrom, ∃ c, IsTargetAt accepted mf.pair c
        ∧ q ∈ c.evidenceQueries

theorem checkTargetCoverage_ok_iff {o : OptimizationTargets}
    {accepted : List AcceptedAnalysis} {u : Unit} :
    checkTargetCoverage o accepted = Except.ok u
      ↔ ListsExactly (accountedPairs o) (expectedPairs accepted) := by
  unfold checkTargetCoverage
  rw [bailIf_ok_iff, account_ok_iff]

theorem checkDedupRejections_ok_iff {o : OptimizationTargets}
    {expectedDedup : List DedupDecision} {u : Unit} :
    checkDedupRejections o expectedDedup = Except.ok u
      ↔ ∀ family index reason,
          (∃ r ∈ o.rejectedByMerge, Text.startsWith r.reason "dedup:" = true
              ∧ r = ⟨family, index, reason⟩)
            ↔ ∃ d ∈ expectedDedup, d.familyId = family ∧ d.targetIndex = index
                ∧ d.reason = reason := by
  unfold checkDedupRejections
  rw [bailIf_ok_iff, not_not, Finset.ext_iff]
  simp only [Prod.forall, List.mem_toFinset, List.mem_map, List.mem_filter,
    Prod.mk.injEq]
  refine forall_congr' fun family => forall_congr' fun index =>
    forall_congr' fun reason => iff_congr ⟨?_, ?_⟩ Iff.rfl
  · rintro ⟨r, ⟨hr, hpre⟩, rfl, rfl, rfl⟩
    exact ⟨r, hr, hpre, rfl⟩
  · rintro ⟨r, hr, hpre, rfl⟩
    exact ⟨_, ⟨hr, hpre⟩, rfl, rfl, rfl⟩

theorem checkDedupReasons_ok_iff {o : OptimizationTargets} {u : Unit} :
    checkDedupReasons o = Except.ok u ↔ ∀ r ∈ o.rejectedByMerge,
      Text.startsWith r.reason "dedup:" = true →
        isDedupReason r.reason = true := by
  unfold checkDedupReasons
  refine forEach_ok_iff_forall fun _ r => ?_
  rw [bailIf_ok_iff, not_and, Bool.not_eq_false]

theorem checkLensDispositionCoverage_ok_iff {o : OptimizationTargets}
    {accepted : List AcceptedAnalysis} {u : Unit} :
    checkLensDispositionCoverage o accepted = Except.ok u
      ↔ ∀ family, (o.lensDispositions.map fun d => d.familyId).count family
          = if ∃ a ∈ accepted, a.familyId = family then 1 else 0 := by
  unfold checkLensDispositionCoverage
  rw [bailIf_ok_iff, account_ok_iff]
  refine forall_congr' fun family => ?_
  have hmem : family ∈ acceptedFamilyIds accepted
      ↔ ∃ a ∈ accepted, a.familyId = family := by
    simp [acceptedFamilyIds]
  rw [if_congr hmem rfl rfl]

theorem checkBuckets_ok_iff {o : OptimizationTargets}
    {accepted : List AcceptedAnalysis} {u : Unit} :
    checkBuckets o accepted = Except.ok u
      ↔ ∀ t ∈ o.targets, ∀ c ∈ contributors accepted t, c.bucket = t.bucket := by
  unfold checkBuckets
  refine forEach_ok_iff_forall fun _ t => ?_
  rw [bailIf_ok_iff, card_ok_iff]
  simp

theorem checkIntraAnalysis_ok_iff {o : OptimizationTargets} {u : Unit} :
    checkIntraAnalysis o = Except.ok u
      ↔ ∀ t ∈ o.targets, (t.mergedFrom.map fun mf => mf.familyId).Nodup := by
  unfold checkIntraAnalysis
  refine forEach_ok_iff_forall fun _ t => ?_
  rw [scanDistinct_ok_iff]
  simp

theorem checkConsensus_ok_iff {o : OptimizationTargets}
    {accepted : List AcceptedAnalysis} {u : Unit} :
    checkConsensus o accepted = Except.ok u
      ↔ ∀ t ∈ o.targets, ∀ c ∈ contributors accepted t,
          (c.consensusBreaking, c.breakageClass)
            = (t.consensusBreaking, t.breakageClass) := by
  unfold checkConsensus
  refine forEach_ok_iff_forall fun _ t => ?_
  rw [bailIf_ok_iff, card_ok_iff]
  simp only [List.mem_toFinset, List.forall_mem_map]

theorem checkEvidence_ok_iff {o : OptimizationTargets}
    {accepted : List AcceptedAnalysis} {u : Unit} :
    checkEvidence o accepted = Except.ok u
      ↔ ∀ t ∈ o.targets, ∀ q, q ∈ t.evidenceQueries
          ↔ ∃ c ∈ contributors accepted t, q ∈ c.evidenceQueries := by
  unfold checkEvidence
  refine forEach_ok_iff_forall fun _ t => ?_
  rw [bailIf_ok_iff, not_not, Finset.ext_iff]
  simp only [List.mem_toFinset, List.mem_flatMap]

/-- Under coverage every reference of a merged target leads to an analyzer
target, so nothing the validator skips is there to be skipped. -/
theorem exists_target_of_coverage {o : OptimizationTargets}
    {accepted : List AcceptedAnalysis}
    (hcov : ListsExactly (accountedPairs o) (expectedPairs accepted))
    {t : MergedTarget} (ht : t ∈ o.targets) {mf : MergedFrom}
    (hmf : mf ∈ t.mergedFrom) : ∃ c, IsTargetAt accepted mf.pair c := by
  rw [← mem_expectedPairs, ← (listsExactly_iff.mp hcov).right,
    List.mem_toFinset]
  exact List.mem_append_left _ (List.mem_flatMap.mpr
    ⟨t, ht, List.mem_map_of_mem hmf⟩)

/-- A contributor with a property is an analyzer target with that property
behind one of the references. -/
theorem exists_contributor_iff {accepted : List AcceptedAnalysis}
    (hnd : (accepted.map fun a => a.familyId).Nodup) {t : MergedTarget}
    {P : AnalyzerTarget → Prop} : (∃ c ∈ contributors accepted t, P c)
      ↔ ∃ mf ∈ t.mergedFrom, ∃ c, IsTargetAt accepted mf.pair c ∧ P c := by
  simp only [mem_contributors hnd]
  constructor
  · rintro ⟨c, ⟨mf, hmf, hc⟩, hP⟩
    exact ⟨mf, hmf, c, hc, hP⟩
  · rintro ⟨mf, hmf, c, hc, hP⟩
    exact ⟨c, ⟨mf, hmf, hc⟩, hP⟩

/-- What holds of all contributors holds of the contributor behind each
reference. -/
theorem forall_contributors_iff {o : OptimizationTargets}
    {accepted : List AcceptedAnalysis}
    (hnd : (accepted.map fun a => a.familyId).Nodup)
    (hcov : ListsExactly (accountedPairs o) (expectedPairs accepted))
    {P : MergedTarget → AnalyzerTarget → Prop} :
    (∀ t ∈ o.targets, ∀ c ∈ contributors accepted t, P t c)
      ↔ ∀ t ∈ o.targets, ∀ mf ∈ t.mergedFrom,
          ∃ c, IsTargetAt accepted mf.pair c ∧ P t c := by
  constructor
  · intro h t ht mf hmf
    obtain ⟨c, hc⟩ := exists_target_of_coverage hcov ht hmf
    exact ⟨c, hc, h t ht c ((mem_contributors hnd).mpr ⟨mf, hmf, hc⟩)⟩
  · intro h t ht c hc
    obtain ⟨mf, hmf, hat⟩ := (mem_contributors hnd).mp hc
    obtain ⟨c', hat', hP⟩ := h t ht mf hmf
    have heq : some c = some c' := by
      rw [← (targetByPair_eq_some_iff hnd).mpr hat,
        ← (targetByPair_eq_some_iff hnd).mpr hat']
    rw [Option.some.inj heq]
    exact hP

/-- A finding that changes block validation: an issue, with nothing to
measure. -/
def consensusFinding (sig : String) : AnalyzerTarget where
  targetSpan := "span"
  bucket := Bucket.blockProcessing
  fixSignature := sig
  hotspot := ⟨"span", 10, 20, 1, "lib.rs:1"⟩
  files := ["lib.rs"]
  evidence := "trace"
  evidenceQueries := []
  proposedChange := "change " ++ sig
  expectedImprovement := ⟨F64.zero, F64.zero, F64.zero⟩
  risk := Risk.high
  verificationPlan := "review"
  verificationReplay := none
  consensusBreaking := true
  breakageClass := some BreakageClass.blockValidation
  pocImplementable := some false
  pocTestScope := none
  consensusWriteup := some "writeup"

/-- An accepted analysis with the given findings. -/
def analysisOf (familyId : String) (sigs : List String) : AcceptedAnalysis where
  familyId := familyId
  selectionLens := SelectionLens.txLatency
  lensDisposition := ⟨SelectionLens.txLatency, LensDispositionStatus.addressed, none⟩
  targets := sigs.map consensusFinding
  globalMaterialityNote := none

/-- A merged target over findings of that kind. -/
def issueTarget (id : String) (mergedFrom : List MergedFrom) : MergedTarget where
  id := id
  mergedFrom := mergedFrom
  convergenceCount := mergedFrom.length
  rank := none
  targetSpan := "span"
  bucket := Bucket.blockProcessing
  hotspot := ⟨"span", 10, 20, 1, "lib.rs:1"⟩
  files := ["lib.rs"]
  evidence := "trace"
  evidenceQueries := []
  proposedChange := "change " ++ id
  expectedImprovement := ⟨F64.zero, F64.zero, F64.zero⟩
  risk := Risk.high
  verificationPlan := "review"
  verificationReplay := none
  mergeNotes := none
  contributorDifferences := none
  consensusBreaking := true
  breakageClass := some BreakageClass.blockValidation
  pocImplementable := some false
  pocTestScope := none
  consensusWriteup := some "writeup"
  deliveryMode := DeliveryMode.consensusIssue
  benchEligible := false

/-- A merge document with the given targets and rejections, for analyses of
the given families. -/
def documentOf (families : List String) (targets : List MergedTarget)
    (rejected : List RejectedByMerge) : OptimizationTargets where
  sessionId := "20260614"
  baselineRunId := 1
  baselineRerunId := 2
  noiseFloorPct := F64.ofNat 1
  mergeModel := "model"
  targets := targets
  rejectedByMerge := rejected
  lensDispositions := families.map fun f =>
    ⟨f, SelectionLens.txLatency, LensDispositionStatus.addressed, none⟩

/-- **The merge validator is exact**: it accepts a document when, and only
when, every rule holds of it as a statement about the accepted analyses. -/
theorem validateMergeOutputWithDedup_ok_iff (o : OptimizationTargets)
    (accepted : List AcceptedAnalysis) (expectedDedup : List DedupDecision)
    (hnd : (accepted.map fun a => a.familyId).Nodup) :
    validateMergeOutputWithDedup o accepted expectedDedup = Except.ok ()
      ↔ MergeExact o accepted expectedDedup := by
  -- counting the pairs of the analyses is counting those that are a target of one
  have hcoverage : ListsExactly (accountedPairs o) (expectedPairs accepted)
      ↔ (∀ k, (∃ c, IsTargetAt accepted k c) → (accountedPairs o).count k = 1)
        ∧ ∀ k, (¬ ∃ c, IsTargetAt accepted k c) →
            (accountedPairs o).count k = 0 := by
    simp only [← mem_expectedPairs]
    unfold ListsExactly
    constructor
    · exact fun h => ⟨fun k hk => by rw [h k, if_pos hk],
        fun k hk => by rw [h k, if_neg hk]⟩
    · rintro ⟨h₁, h₀⟩ k
      split
      case isTrue hk => exact h₁ k hk
      case isFalse hk => exact h₀ k hk
  unfold validateMergeOutputWithDedup
  simp only [seq_ok_iff, context_ok_iff, checkTargetCoverage_ok_iff,
    checkDedupRejections_ok_iff, checkDedupReasons_ok_iff,
    checkLensDispositionCoverage_ok_iff, checkBuckets_ok_iff,
    checkIntraAnalysis_ok_iff, checkConsensus_ok_iff, checkEvidence_ok_iff]
  constructor
  · rintro ⟨hmodel, hcov, hdedup, hreason, hlens, hbucket, hfam, hcons, hev⟩
    exact ⟨hmodel, (hcoverage.mp hcov).left, (hcoverage.mp hcov).right, hdedup,
      hreason, hlens, (forall_contributors_iff hnd hcov).mp hbucket,
      (forall_contributors_iff hnd hcov).mp hcons, hfam,
      fun t ht q => (hev t ht q).trans (exists_contributor_iff hnd)⟩
  · intro h
    have hcov := hcoverage.mpr ⟨h.coverage, h.nothingElse⟩
    exact ⟨h.model, hcov, h.dedup, h.dedupReason, h.lens,
      (forall_contributors_iff hnd hcov).mpr h.bucket, h.families,
      (forall_contributors_iff hnd hcov).mpr h.consensus,
      fun t ht q => (h.evidence t ht q).trans (exists_contributor_iff hnd).symm⟩

/-- A document that merges one finding and rejects another. -/
theorem mergeExact_of_one_merged_one_rejected :
    MergeExact (documentOf ["fam-a"] [issueTarget "fix-a" [⟨"fam-a", 0⟩]]
        [⟨"fam-a", 1, "duplicate"⟩])
      [analysisOf "fam-a" ["fix-a", "fix-b"]] [] :=
  (validateMergeOutputWithDedup_ok_iff _ _ _ (by decide)).mp
    (by decide +kernel)

/-! ## References into the filtered arrays

The model sees the filtered analyses and refers to positions in *their*
arrays; the validator reads the same numbers as positions in the original
ones. -/

section References

/-- The contributor lists of the output that keeps every filtered target
separate: one singleton for each position of each filtered array. -/
def singletonContributors (filtered : List AcceptedAnalysis) :
    List (List MergedFrom) :=
  filtered.flatMap fun a =>
    (List.range a.targets.length).map fun j => [⟨a.familyId, j⟩]

/-- Target references survive the filtering: what stands at a position of a
filtered array stands at that position of the original one, and an output that
keeps every filtered target separate, with the forced rejections appended,
covers the original targets. -/
def TargetReferencesSurvive (accepted : List AcceptedAnalysis)
    (p : DedupProjection) : Prop :=
  (∀ (i : ℕ) (a a' : AcceptedAnalysis), accepted[i]? = some a →
      (filterAcceptedForDedup accepted p).fst[i]? = some a' →
        ∀ j, j < a'.targets.length → a'.targets[j]? = a.targets[j]?)
    ∧ ∀ o : OptimizationTargets,
        o.targets.map (fun t => t.mergedFrom)
          = singletonContributors (filterAcceptedForDedup accepted p).fst →
        o.rejectedByMerge
          = dedupRejections (filterAcceptedForDedup accepted p).snd →
        checkTargetCoverage o accepted = Except.ok ()

/-- In every analysis the targets that history blocks come after those it
does not. -/
def BlockedTargetsComeLast (accepted : List AcceptedAnalysis)
    (p : DedupProjection) : Prop :=
  ∀ a ∈ accepted, a.targets.Pairwise fun t u =>
    p.blocks t.fixSignature = true → p.blocks u.fixSignature = true

instance (accepted : List AcceptedAnalysis) (p : DedupProjection) :
    Decidable (BlockedTargetsComeLast accepted p) :=
  inferInstanceAs (Decidable (∀ a ∈ accepted, a.targets.Pairwise _))

variable {p : DedupProjection}

/-- Whether a target is kept does not depend on where it stands. -/
theorem withoutBlocked_targets (a : AcceptedAnalysis) :
    (withoutBlocked p a).targets
      = a.targets.filter fun t => !p.blocks t.fixSignature := by
  have hkeep : (fun t : AnalyzerTarget × ℕ =>
      (p.decisionFor a.familyId t.snd t.fst).isNone)
      = (fun t => !p.blocks t.fixSignature) ∘ Prod.fst := by
    funext t
    rw [← Option.not_isSome, DedupProjection.isSome_decisionFor]
    rfl
  show (a.targets.zipIdx.filter _).map Prod.fst = _
  rw [hkeep, ← List.filter_map, List.zipIdx_map_fst]

/-- A prefix agrees with the list position by position, and conversely. -/
theorem isPrefix_iff_getElem? {α : Type} {l l' : List α} :
    l <+: l' ↔ ∀ j, j < l.length → l[j]? = l'[j]? := by
  constructor
  · rintro ⟨r, rfl⟩ j hj
    rw [List.getElem?_append_left hj]
  · intro h
    rw [List.prefix_iff_eq_take]
    refine List.ext_getElem? fun j => ?_
    by_cases hj : j < l.length
    · rw [h j hj, List.getElem?_take_of_lt hj]
    · rw [List.getElem?_eq_none (not_lt.mp hj), List.getElem?_take_eq_none
        (not_lt.mp hj)]

/-- **Positions survive in an analysis exactly when its blocked targets come
last.** -/
theorem withoutBlocked_isPrefix_iff (a : AcceptedAnalysis) :
    (∀ j, j < (withoutBlocked p a).targets.length →
        (withoutBlocked p a).targets[j]? = a.targets[j]?)
      ↔ a.targets.Pairwise fun t u =>
          p.blocks t.fixSignature = true → p.blocks u.fixSignature = true := by
  rw [← isPrefix_iff_getElem?, withoutBlocked_targets, filter_isPrefix_iff]
  refine ⟨fun h => h.imp ?_, fun h => h.imp ?_⟩
  · intro t u htu ht
    by_contra hu
    exact absurd (htu (by simpa using hu)) (by simp [ht])
  · intro t u htu hu
    by_contra ht
    exact absurd (htu (by simpa using ht)) (by simpa using hu)

/-- The decisions on an analysis name the positions of its blocked
targets. -/
theorem map_pair_dedupDecisions (a : AcceptedAnalysis) :
    (dedupDecisions p a).map (fun d => (d.familyId, d.targetIndex))
      = ((a.targets.zipIdx.filter fun t => p.blocks t.fst.fixSignature).map
          Prod.snd).map fun i => (a.familyId, i) := by
  unfold dedupDecisions
  generalize a.targets.zipIdx = l
  induction l with
  | nil => rfl
  | cons t l ih =>
    cases hd : p.decisionFor a.familyId t.snd t.fst with
    | none =>
      have hb : p.blocks t.fst.fixSignature = false := by
        rw [← DedupProjection.isSome_decisionFor p a.familyId t.snd, hd]
        rfl
      rw [List.filterMap_cons, hd, List.filter_cons_of_neg (by simp [hb])]
      exact ih
    | some d =>
      have hb : p.blocks t.fst.fixSignature = true := by
        rw [← DedupProjection.isSome_decisionFor p a.familyId t.snd, hd]
        rfl
      obtain ⟨hfam, hidx, -⟩ := DedupProjection.decisionFor_spec hd
      rw [List.filterMap_cons, hd, List.filter_cons_of_pos (by simpa using hb)]
      simp only [List.map_cons, ih, hfam, hidx]

/-- When the blocked targets come last, they stand at the positions from the
number of kept targets on. -/
theorem positions_of_blocked {a : AcceptedAnalysis}
    (h : a.targets.Pairwise fun t u =>
      p.blocks t.fixSignature = true → p.blocks u.fixSignature = true) :
    ∃ n, (a.targets.zipIdx.filter fun t =>
          p.blocks t.fst.fixSignature).map Prod.snd
        = List.range' (withoutBlocked p a).targets.length n
      ∧ a.targets.length = (withoutBlocked p a).targets.length + n := by
  have hsplit := filter_append_filter_not
    (p := fun t : AnalyzerTarget => !p.blocks t.fixSignature)
    (h.imp fun {t u} htu (hu : (!p.blocks u.fixSignature) = true) => by
      by_contra ht
      exact absurd (htu (by simpa using ht)) (by simpa using hu))
  rw [← withoutBlocked_targets] at hsplit
  set kept := (withoutBlocked p a).targets with hkept
  set dropped := a.targets.filter fun t => !!p.blocks t.fixSignature with hdr
  refine ⟨dropped.length, ?_, by rw [← hsplit, List.length_append]⟩
  have hkeptNone : kept.zipIdx.filter (fun t => p.blocks t.fst.fixSignature)
      = [] :=
    List.filter_eq_nil_iff.mpr fun t ht => by
      have hmem := List.fst_mem_of_mem_zipIdx ht
      rw [hkept, withoutBlocked_targets] at hmem
      simpa using (List.mem_filter.mp hmem).right
  have hdroppedAll : (dropped.zipIdx kept.length).filter
      (fun t => p.blocks t.fst.fixSignature) = dropped.zipIdx kept.length :=
    List.filter_eq_self.mpr fun t ht => by
      have hmem := List.fst_mem_of_mem_zipIdx ht
      rw [hdr] at hmem
      simpa using (List.mem_filter.mp hmem).right
  rw [← hsplit, List.zipIdx_append, List.filter_append, hkeptNone, Nat.zero_add,
    hdroppedAll, List.nil_append, List.zipIdx_map_snd]

/-- **When the blocked targets come last, the singletons and the decisions of
an analysis name each of its positions once.** -/
theorem pairs_of_analysis {a : AcceptedAnalysis}
    (h : a.targets.Pairwise fun t u =>
      p.blocks t.fixSignature = true → p.blocks u.fixSignature = true) :
    ((List.range (withoutBlocked p a).targets.length).map
          fun j => (a.familyId, j))
        ++ (dedupDecisions p a).map (fun d => (d.familyId, d.targetIndex))
      = (analysisRows a).map Prod.fst := by
  obtain ⟨n, hpos, hlen⟩ := positions_of_blocked h
  have hrange := List.range'_append_1 (s := 0)
    (m := (withoutBlocked p a).targets.length) (n := n)
  rw [Nat.zero_add] at hrange
  rw [map_pair_dedupDecisions, hpos, keys_analysisRows, hlen, ← List.map_append,
    List.range_eq_range', List.range_eq_range', hrange]

/-- The references of the singletons. -/
theorem pairs_singletonContributors (filtered : List AcceptedAnalysis) :
    (singletonContributors filtered).flatMap (fun l => l.map MergedFrom.pair)
      = filtered.flatMap fun a =>
          (List.range a.targets.length).map fun j => (a.familyId, j) := by
  unfold singletonContributors
  rw [List.flatMap_assoc]
  refine List.flatMap_congr fun a _ => ?_
  rw [List.flatMap_map]
  show (List.range a.targets.length).flatMap (fun j => [(a.familyId, j)]) = _
  exact List.flatMap_pure_eq_map _ _

/-- When the blocked targets come last in every analysis, the singletons with
the forced rejections cover the original targets. -/
theorem checkTargetCoverage_of_blockedLast {accepted : List AcceptedAnalysis}
    (hnd : (accepted.map fun a => a.familyId).Nodup)
    (h : BlockedTargetsComeLast accepted p) {o : OptimizationTargets}
    (htargets : o.targets.map (fun t => t.mergedFrom)
      = singletonContributors (filterAcceptedForDedup accepted p).fst)
    (hrejected : o.rejectedByMerge
      = dedupRejections (filterAcceptedForDedup accepted p).snd) :
    checkTargetCoverage o accepted = Except.ok () := by
  rw [checkTargetCoverage_ok_iff]
  have hmerged : o.targets.flatMap (fun t => t.mergedFrom.map MergedFrom.pair)
      = accepted.flatMap fun a =>
          (List.range (withoutBlocked p a).targets.length).map
            fun j => (a.familyId, j) := by
    rw [← List.flatMap_map (f := fun t : MergedTarget => t.mergedFrom)
      (g := fun l : List MergedFrom => l.map MergedFrom.pair), htargets,
      pairs_singletonContributors, filterAcceptedForDedup, List.flatMap_map]
    rfl
  have hrej : o.rejectedByMerge.map RejectedByMerge.pair
      = accepted.flatMap fun a =>
          (dedupDecisions p a).map fun d => (d.familyId, d.targetIndex) := by
    rw [hrejected, dedupRejections, filterAcceptedForDedup, List.map_map,
      List.map_flatMap]
    rfl
  have hkeys : (pairRows accepted).map Prod.fst
      = accepted.flatMap fun a =>
          ((List.range (withoutBlocked p a).targets.length).map
              fun j => (a.familyId, j))
            ++ (dedupDecisions p a).map
              fun d => (d.familyId, d.targetIndex) := by
    rw [pairRows, List.map_flatMap]
    exact List.flatMap_congr fun a ha => (pairs_of_analysis (h a ha)).symm
  have hperm : (accountedPairs o).Perm ((pairRows accepted).map Prod.fst) := by
    rw [accountedPairs, hmerged, hrej, hkeys]
    exact List.flatMap_append_perm _ _ _
  have hlist : ListsExactly ((pairRows accepted).map Prod.fst)
      (expectedPairs accepted) :=
    listsExactly_iff.mpr ⟨nodup_keys_pairRows hnd, rfl⟩
  exact hlist.perm hperm

/-- **Target references survive the filtering exactly when the blocked targets
of every analysis come last.** -/
theorem targetReferencesSurvive_iff (accepted : List AcceptedAnalysis)
    (p : DedupProjection)
    (hnd : (accepted.map fun a => a.familyId).Nodup) :
    TargetReferencesSurvive accepted p ↔ BlockedTargetsComeLast accepted p := by
  constructor
  · rintro ⟨hpos, -⟩ a ha
    obtain ⟨i, hi⟩ := List.mem_iff_getElem?.mp ha
    refine (withoutBlocked_isPrefix_iff a).mp (hpos i a (withoutBlocked p a) hi ?_)
    show (accepted.map (withoutBlocked p))[i]? = _
    rw [List.getElem?_map, hi]
    rfl
  · intro h
    refine ⟨fun i a a' hi hi' => ?_, fun o ht hr =>
      checkTargetCoverage_of_blockedLast hnd h ht hr⟩
    have ha' : a' = withoutBlocked p a := by
      have hmap : (accepted.map (withoutBlocked p))[i]? = some a' := hi'
      rw [List.getElem?_map, hi] at hmap
      exact (Option.some.inj hmap).symm
    subst ha'
    exact (withoutBlocked_isPrefix_iff a).mpr (h a (List.mem_of_getElem? hi))

/-- The references survive when the one blocked target comes last. -/
theorem targetReferencesSurvive_of_blocked_last :
    TargetReferencesSurvive [analysisOf "fam-a" ["fix-b", "fix-a"]]
      (DedupProjection.fromLedgers
        [abortedSession "20260613" "fam-a" "fix-a"] [] 1) :=
  (targetReferencesSurvive_iff _ _ (by decide)).mpr (by decide +kernel)

/-- **A blocked target that comes first shifts the others**: position 0 of the
filtered array holds what stands at position 1 of the original one. -/
theorem not_targetReferencesSurvive_of_blocked_first :
    ¬ TargetReferencesSurvive [analysisOf "fam-a" ["fix-a", "fix-b"]]
      (DedupProjection.fromLedgers
        [abortedSession "20260613" "fam-a" "fix-a"] [] 1) := by
  rintro ⟨hpos, -⟩
  have h := hpos 0 _ _ rfl rfl 0 (by decide +kernel)
  revert h
  decide +kernel

end References
