import Sbagent.PhaseOutputs

/-!
# The rules of the merge prompt

The prompt of the merge phase tells its agent how to make one target of a
group of contributors, and the validator says what a merged document must be.
They are two definitions of one thing, and an agent that does as it is told
ought to be accepted.

It is not always. The prompt has the agent drop an invocation on whose
direction the contributors disagree, and cap the invocations at sixteen; it
also has it keep every evidence row as it is, and the validator wants every
invocation that a row names among the ones that were kept. And contributors of
different lenses measure on different axes, which the prompt does not mind and
the validator does. There is nothing else: a document that follows the rules is
accepted exactly when no evidence names a dropped invocation and the
invocations of a target share an axis. Copying every contributor
as a target of its own is always accepted.
-/

open Fallible

/-! ## The targets of an analyzer -/

/-- What an analyzer's target must be for the validator to accept it. -/
structure AnalyzerTarget.Valid (t : AnalyzerTarget) : Prop where
  /-- The replay, where there is one, is valid. -/
  replay : ∀ vr ∈ t.verificationReplay, vr.Valid
  /-- The routing fields are consistent. -/
  routing : RoutingValid t.consensusBreaking t.breakageClass t.pocImplementable
    t.pocTestScope t.consensusWriteup
  /-- What breaks no consensus says how it is measured. -/
  measured : t.consensusBreaking = false → t.verificationReplay ≠ none
  /-- The evidence fits the replay. -/
  evidence : validateEvidenceQueriesForReplay t.evidenceQueries
    t.verificationReplay (!t.consensusBreaking) = Except.ok ()

theorem AnalyzerTarget.checkRouting_ok_iff {t : AnalyzerTarget} {u : Unit} :
    t.checkRouting = Except.ok u
      ↔ RoutingValid t.consensusBreaking t.breakageClass t.pocImplementable
          t.pocTestScope t.consensusWriteup
        ∧ (t.consensusBreaking = false → t.verificationReplay ≠ none) := by
  unfold AnalyzerTarget.checkRouting
  split
  case isTrue h =>
    rw [h]
    simp [checkBreakingFields_ok_iff]
  case isFalse h =>
    have hf : t.consensusBreaking = false := by simpa using h
    simp only [seq_ok_iff, bailIf_ok_iff, hf, Bool.not_eq_true,
      Option.isSome_eq_false_iff, Option.isNone_iff_eq_none]
    constructor
    · rintro ⟨hbc, hpoc, hscope, hwriteup, hvr⟩
      exact ⟨⟨by simp, by simp, by simp, fun _ => ⟨hbc, hpoc, hscope, hwriteup⟩⟩,
        fun _ => hvr⟩
    · rintro ⟨hroute, hvr⟩
      obtain ⟨hbc, hpoc, hscope, hwriteup⟩ := hroute.nonBreaking rfl
      exact ⟨hbc, hpoc, hscope, hwriteup, hvr trivial⟩

/-- **The analyzer-target validator accepts exactly the valid targets.** -/
theorem AnalyzerTarget.validateModel_ok_iff {t : AnalyzerTarget} {u : Unit} :
    t.validateModel = Except.ok u ↔ t.Valid := by
  unfold AnalyzerTarget.validateModel
  simp only [seq_ok_iff, onSome_ok_iff, context_ok_iff,
    AnalyzerTarget.checkRouting_ok_iff, VerificationReplay.validateModel_ok_iff]
  exact ⟨fun h => ⟨h.left, h.right.left.left, h.right.left.right, h.right.right⟩,
    fun h => ⟨h.replay, ⟨h.routing, h.measured⟩, h.evidence⟩⟩

/-- The targets of a valid analysis are valid, and a lens that it does not act
on has a reason. -/
theorem AcceptedAnalysis.valid_of_validateModel {a : AcceptedAnalysis}
    (h : a.validateModel = Except.ok ()) :
    (∀ t ∈ a.targets, t.Valid)
      ∧ (a.lensDisposition.status = LensDispositionStatus.notActionable →
        a.lensDisposition.reason ≠ none) := by
  unfold AcceptedAnalysis.validateModel at h
  simp only [seq_ok_iff, bailIf_ok_iff, not_and] at h
  obtain ⟨-, hreason, -, htargets⟩ := h
  refine ⟨?_, hreason⟩
  exact (forEach_ok_iff_forall fun i t => by
    rw [context_ok_iff, AnalyzerTarget.validateModel_ok_iff]).mp htargets

/-! ## The rules -/

namespace MergeRules

/-- The analyzer targets of a group. -/
def members (accepted : List AcceptedAnalysis) (g : List MergedFrom) :
    List AnalyzerTarget :=
  g.filterMap fun mf => targetByPair accepted mf.pair

/-- A grouping of the analyzers' targets: each target is in one group, and the
members of a group have one bucket, one consensus class and different
families. -/
structure IsGrouping (accepted : List AcceptedAnalysis)
    (groups : List (List MergedFrom)) : Prop where
  nonempty : ∀ g ∈ groups, g ≠ []
  covers : (groups.flatten.map MergedFrom.pair).Perm ((pairRows accepted).map Prod.fst)
  families : ∀ g ∈ groups, (g.map fun mf => mf.familyId).Nodup
  bucket : ∀ g ∈ groups, ∀ c ∈ members accepted g, ∀ c' ∈ members accepted g,
    c.bucket = c'.bucket
  consensus : ∀ g ∈ groups, ∀ c ∈ members accepted g, ∀ c' ∈ members accepted g,
    (c.consensusBreaking, c.breakageClass) = (c'.consensusBreaking, c'.breakageClass)

/-- The invocations that contributors ask for. -/
def invocationsOf (cs : List AnalyzerTarget) : List BenchInvocation :=
  cs.flatMap fun c => (c.verificationReplay.map fun vr => vr.invocations).getD []

/-- Those of one id. -/
def named (cs : List AnalyzerTarget) (id : String) : List BenchInvocation :=
  (invocationsOf cs).filter fun inv => inv.id = id

/-- The contributors agree on the direction of the signal. -/
def Agreed (cs : List AnalyzerTarget) (id : String) : Prop :=
  ∀ inv ∈ named cs id, ∀ inv' ∈ named cs id,
    inv.expectedSignal.direction = inv'.expectedSignal.direction

instance (cs : List AnalyzerTarget) (id : String) : Decidable (Agreed cs id) :=
  inferInstanceAs (Decidable (∀ inv ∈ named cs id, ∀ inv' ∈ named cs id, _))

/-- The ids that are not dropped for disagreement. -/
def agreedIds (cs : List AnalyzerTarget) : List String :=
  ((invocationsOf cs).map fun inv => inv.id).dedup.filter fun id => Agreed cs id

/-- Transactions and blocks are more specific than a range. -/
def isSpecific : BenchSamples → Bool
  | BenchSamples.blockRange _ _ => false
  | _ => true

/-- The largest of some numbers. -/
def largest (ns : List ℕ) : ℕ := ns.foldr max 0

/-- An invocation merged from those of the same id: the one with the most
specific samples, with the most repetitions and the longest warmup of all. -/
def MergedInvocation (invs : List BenchInvocation) (inv : BenchInvocation) : Prop :=
  ∃ i ∈ invs, (isSpecific i.samples = true ∨ ∀ j ∈ invs, isSpecific j.samples = false)
    ∧ inv = { i with
        repetitions := largest (invs.map fun j => j.repetitions)
        warmup := largest (invs.map fun j => j.warmup) }

/-- A replay merged from those of the contributors. Which invocations to keep
when there are too many, and how to word the rationale, is left to the
agent. -/
structure MergedReplay (cs : List AnalyzerTarget) (vr : VerificationReplay) : Prop where
  /-- Invocations are merged by id. -/
  nodup : (vr.invocations.map fun inv => inv.id).Nodup
  /-- A disagreement on the direction drops the invocation. -/
  agreed : ∀ inv ∈ vr.invocations, inv.id ∈ agreedIds cs
  merged : ∀ inv ∈ vr.invocations, MergedInvocation (named cs inv.id) inv
  /-- At most sixteen are kept, and no fewer than there are. -/
  size : vr.invocations.length = min benchInvocationHardMax (agreedIds cs).length
  /-- The rationales are merged into one line that says something. -/
  rationale : Text.isBlank vr.rationale = false
  /-- The span hints are those of the contributors. -/
  spans : ∀ s, s ∈ vr.suspectedSpans.getD []
    ↔ ∃ c ∈ cs, ∃ vr' ∈ c.verificationReplay, s ∈ vr'.suspectedSpans.getD []

/-- Whether a merged target can be shown in a proof of concept: where consensus
is broken, all contributors must say so. -/
def mergedPoc (cs : List AnalyzerTarget) : Option Bool :=
  if cs.any fun c => c.consensusBreaking then
    some (cs.all fun c => c.pocImplementable == some true)
  else none

/-- **A target made of its contributors by the rules.** What the validator does
not look at (spans, files, texts) is left out. -/
structure Consolidates (cs : List AnalyzerTarget) (t : MergedTarget) : Prop where
  count : t.convergenceCount = t.mergedFrom.length
  bucket : ∀ c ∈ cs, c.bucket = t.bucket
  consensus : ∀ c ∈ cs,
    (c.consensusBreaking, c.breakageClass) = (t.consensusBreaking, t.breakageClass)
  /-- The exact union of the contributors' evidence. -/
  evidence : ∀ q, q ∈ t.evidenceQueries ↔ ∃ c ∈ cs, q ∈ c.evidenceQueries
  /-- There is a replay if a contributor has one, -/
  replay : t.verificationReplay = none ↔ ∀ c ∈ cs, c.verificationReplay = none
  /-- and it is merged from theirs. -/
  merged : ∀ vr ∈ t.verificationReplay, MergedReplay cs vr
  poc : t.pocImplementable = mergedPoc cs
  /-- The union of the test scopes, where there is a proof of concept. -/
  scope : if mergedPoc cs = some true then
      ∃ s, t.pocTestScope = some s
        ∧ ∀ x, x ∈ s ↔ ∃ c ∈ cs, x ∈ c.pocTestScope.getD []
    else t.pocTestScope = none
  /-- The writeup of a contributor. -/
  writeup : ∃ c ∈ cs, t.consensusWriteup = c.consensusWriteup
  deliveryMode : t.deliveryMode
    = DeliveryMode.derive t.consensusBreaking t.pocImplementable
  benchEligible : t.benchEligible = t.deliveryMode.benchEligible

/-- **A document that follows the rules**: a target for each group, nothing
rejected, and the lens disposition of each analysis. -/
structure Follows (accepted : List AcceptedAnalysis) (groups : List (List MergedFrom))
    (o : OptimizationTargets) : Prop where
  targets : List.Forall₂ (fun g t => t.mergedFrom = g
    ∧ Consolidates (members accepted g) t) groups o.targets
  rejected : o.rejectedByMerge = []
  lenses : o.lensDispositions.Perm (lensDispositionsFromAccepted accepted)

/-- The evidence of a target names no invocation that was dropped. -/
def EvidenceKept (cs : List AnalyzerTarget) (t : MergedTarget) : Prop :=
  ∀ c ∈ cs, ∀ q ∈ c.evidenceQueries, ∀ id ∈ q.supportsInvocations,
    ∀ vr ∈ t.verificationReplay, id ∈ vr.invocations.map fun inv => inv.id

/-- The invocations that were kept expect their signal on one axis. -/
def OneAxis (t : MergedTarget) : Prop :=
  ∀ vr ∈ t.verificationReplay, ∀ inv ∈ vr.invocations, ∀ inv' ∈ vr.invocations,
    inv.expectedSignal.axis = inv'.expectedSignal.axis

/-! ## What the contributors bring -/

section Members

variable {accepted : List AcceptedAnalysis} {groups : List (List MergedFrom)}
  {g : List MergedFrom} {cs : List AnalyzerTarget} {c : AnalyzerTarget}

theorem mem_members (hnd : (accepted.map fun a => a.familyId).Nodup) :
    c ∈ members accepted g ↔ ∃ mf ∈ g, IsTargetAt accepted mf.pair c := by
  simp only [members, List.mem_filterMap, targetByPair_eq_some_iff hnd]

/-- The members of a group are valid when the analyses are. -/
theorem valid_of_mem_members (hnd : (accepted.map fun a => a.familyId).Nodup)
    (hvalid : ∀ a ∈ accepted, a.validateModel = Except.ok ())
    (hc : c ∈ members accepted g) : c.Valid := by
  obtain ⟨mf, -, a, ha, -, hget⟩ := (mem_members hnd).mp hc
  exact (AcceptedAnalysis.valid_of_validateModel (hvalid a ha)).left c
    (List.mem_of_getElem? hget)

/-- Each reference of a group leads to a target. -/
theorem IsGrouping.exists_target (hg : IsGrouping accepted groups) (h : g ∈ groups)
    {mf : MergedFrom} (hmf : mf ∈ g) : ∃ c, IsTargetAt accepted mf.pair c := by
  have hpair : mf.pair ∈ groups.flatten.map MergedFrom.pair :=
    List.mem_map_of_mem (List.mem_flatten_of_mem h hmf)
  obtain ⟨⟨k, c⟩, hrow, hk⟩ := List.mem_map.mp (hg.covers.mem_iff.mp hpair)
  obtain rfl : k = mf.pair := hk
  exact ⟨c, mem_pairRows.mp hrow⟩

/-- A group has members. -/
theorem IsGrouping.exists_member (hnd : (accepted.map fun a => a.familyId).Nodup)
    (hg : IsGrouping accepted groups) (h : g ∈ groups) :
    ∃ c, c ∈ members accepted g := by
  obtain ⟨mf, hmf⟩ := List.exists_mem_of_ne_nil g (hg.nonempty g h)
  obtain ⟨c, hc⟩ := hg.exists_target h hmf
  exact ⟨c, (mem_members hnd).mpr ⟨mf, hmf, hc⟩⟩

theorem mem_invocationsOf {inv : BenchInvocation} : inv ∈ invocationsOf cs
    ↔ ∃ c ∈ cs, ∃ vr ∈ c.verificationReplay, inv ∈ vr.invocations := by
  simp only [invocationsOf, List.mem_flatMap]
  refine exists_congr fun c => and_congr_right fun _ => ?_
  cases c.verificationReplay <;> simp

theorem mem_named {id : String} {inv : BenchInvocation} : inv ∈ named cs id
    ↔ inv ∈ invocationsOf cs ∧ inv.id = id := by
  simp [named]

theorem mem_agreedIds {id : String} : id ∈ agreedIds cs
    ↔ (∃ inv ∈ invocationsOf cs, inv.id = id) ∧ Agreed cs id := by
  simp [agreedIds]

theorem nodup_agreedIds : (agreedIds cs).Nodup := (List.nodup_dedup _).filter _

theorem le_largest {ns : List ℕ} {n : ℕ} (h : n ∈ ns) : n ≤ largest ns := by
  induction ns with
  | nil => cases h
  | cons m ms ih =>
    rcases List.mem_cons.mp h with rfl | h
    · exact le_max_left ..
    · exact (ih h).trans (le_max_right ..)

theorem largest_le {ns : List ℕ} {b : ℕ} (h : ∀ n ∈ ns, n ≤ b) : largest ns ≤ b := by
  induction ns with
  | nil => exact Nat.zero_le b
  | cons m ms ih =>
    exact max_le (h m List.mem_cons_self) (ih fun n hn => h n (List.mem_cons_of_mem m hn))

/-- An invocation that is merged from valid ones is valid. -/
theorem MergedInvocation.valid {invs : List BenchInvocation} {inv : BenchInvocation}
    (h : MergedInvocation invs inv)
    (hvalid : ∀ i ∈ invs, i.validateModel = Except.ok ()) :
    inv.validateModel = Except.ok () := by
  have hbounds : ∀ i ∈ invs, 1 ≤ i.repetitions ∧ i.repetitions ≤ 200 ∧ i.warmup ≤ 200 := by
    intro i hi
    have hok := hvalid i hi
    simp only [BenchInvocation.validateModel, seq_ok_iff, bailIf_ok_iff, not_or, not_lt]
      at hok
    obtain ⟨-, -, -, -, hwarm, ⟨hlow, hhigh⟩, -⟩ := hok
    exact ⟨hlow, hhigh, hwarm⟩
  obtain ⟨i, hi, -, rfl⟩ := h
  have hok := hvalid i hi
  simp only [BenchInvocation.validateModel, seq_ok_iff, bailIf_ok_iff, context_ok_iff,
    not_or, not_lt] at hok ⊢
  obtain ⟨hid, hlabel, hpurpose, hsamples, -, -, hsignal⟩ := hok
  refine ⟨hid, hlabel, hpurpose, hsamples, ?_, ⟨?_, ?_⟩, hsignal⟩
  · refine largest_le fun n hn => ?_
    obtain ⟨j, hj, rfl⟩ := List.mem_map.mp hn
    exact (hbounds j hj).right.right
  · exact (hbounds i hi).left.trans (le_largest (List.mem_map_of_mem hi))
  · refine largest_le fun n hn => ?_
    obtain ⟨j, hj, rfl⟩ := List.mem_map.mp hn
    exact (hbounds j hj).right.left

/-- The invocations of valid contributors are valid. -/
theorem valid_of_mem_invocationsOf (hcs : ∀ c ∈ cs, c.Valid) {inv : BenchInvocation}
    (h : inv ∈ invocationsOf cs) : inv.validateModel = Except.ok () := by
  obtain ⟨c, hc, vr, hvr, hinv⟩ := mem_invocationsOf.mp h
  exact ((hcs c hc).replay vr hvr).each inv hinv

end Members

/-! ## What a consolidated target is -/

section Consolidated

variable {cs : List AnalyzerTarget} {t : MergedTarget} {vr : VerificationReplay}

/-- A merged replay on one axis is valid. -/
theorem MergedReplay.valid (h : MergedReplay cs vr) (hcs : ∀ c ∈ cs, c.Valid)
    (hne : vr.invocations ≠ [])
    (haxis : ∀ inv ∈ vr.invocations, ∀ inv' ∈ vr.invocations,
      inv.expectedSignal.axis = inv'.expectedSignal.axis) : vr.Valid where
  rationale := h.rationale
  nonempty := hne
  bounded := by
    rw [h.size]
    exact min_le_left ..
  nodup := h.nodup
  each := fun inv hinv => (h.merged inv hinv).valid fun _ hi =>
    valid_of_mem_invocationsOf hcs (mem_named.mp hi).left
  axis := haxis
  spans := by
    intro spans hspans s hs
    have hmem : s ∈ vr.suspectedSpans.getD [] := by
      rw [Option.mem_def.mp hspans]
      exact hs
    obtain ⟨c, hc, vr', hvr', hs'⟩ := (h.spans s).mp hmem
    have hvalid := ((hcs c hc).replay vr' hvr').spans
    cases hsp : vr'.suspectedSpans with
    | none =>
      rw [hsp] at hs'
      cases hs'
    | some spans' =>
      rw [hsp] at hs'
      exact hvalid spans' hsp s hs'

/-- The routing fields of a consolidated target are consistent. -/
theorem Consolidates.routing (h : Consolidates cs t) (hcs : ∀ c ∈ cs, c.Valid) :
    RoutingValid t.consensusBreaking t.breakageClass t.pocImplementable
      t.pocTestScope t.consensusWriteup := by
  obtain ⟨c₀, hc₀, hwriteup⟩ := h.writeup
  obtain ⟨hb₀, hclass₀⟩ := Prod.mk.inj (h.consensus c₀ hc₀)
  have hroute := (hcs c₀ hc₀).routing
  -- one contributor speaks for all of them here
  cases hbreaking : t.consensusBreaking with
  | false =>
    have hpoc : mergedPoc cs = none := by
      refine if_neg ?_
      rw [Bool.not_eq_true, List.any_eq_false]
      intro c hc
      rw [(Prod.mk.inj (h.consensus c hc)).left, hbreaking]
      exact Bool.false_ne_true
    have hscope := h.scope
    rw [hpoc, if_neg (by simp)] at hscope
    obtain ⟨hclass, -, -, hnone⟩ := hroute.nonBreaking (hb₀.trans hbreaking)
    refine ⟨by simp, by simp, by simp, fun _ => ⟨hclass₀ ▸ hclass, h.poc.trans hpoc,
      hscope, hwriteup.trans hnone⟩⟩
  | true =>
    have hb := hb₀.trans hbreaking
    have hpoc : mergedPoc cs = some (cs.all fun c => c.pocImplementable == some true) :=
      if_pos (List.any_eq_true.mpr ⟨c₀, hc₀, hb⟩)
    obtain ⟨hclass, -, hwrite⟩ := hroute.breaking hb
    refine ⟨fun _ => ⟨hclass₀ ▸ hclass, ?_, hwriteup ▸ hwrite⟩, fun _ hbv => ?_,
      fun _ => ⟨fun htrue => ?_, fun hnot => ?_⟩, by simp⟩
    · rw [h.poc, hpoc]
      exact Option.some_ne_none _
    · -- block validation forces the contributors, and with them the merged one
      rw [h.poc, hpoc, Option.some_inj, List.all_eq_false]
      refine ⟨c₀, hc₀, ?_⟩
      rw [hroute.blockValidation hb (hclass₀.trans hbv)]
      decide
    · have hscope := h.scope
      rw [← h.poc, if_pos htrue] at hscope
      obtain ⟨s, hs, hunion⟩ := hscope
      rw [h.poc, hpoc, Option.some_inj, List.all_eq_true] at htrue
      obtain ⟨s₀, hs₀, hne⟩ := ((hcs c₀ hc₀).routing.scope hb).left
        (eq_of_beq (htrue c₀ hc₀))
      -- the scopes are united, and each of them has something
      obtain ⟨x, hx⟩ := List.exists_mem_of_ne_nil s₀ hne
      have hmem : x ∈ s := (hunion x).mpr ⟨c₀, hc₀, by rw [hs₀]; exact hx⟩
      exact ⟨s, hs, List.ne_nil_of_mem hmem⟩
    · have hscope := h.scope
      rwa [← h.poc, if_neg hnot] at hscope

/-- The evidence of a consolidated target is well formed when it was kept. -/
theorem Consolidates.evidence_ok_iff (h : Consolidates cs t) (hcs : ∀ c ∈ cs, c.Valid)
    {required : Bool} (hreq : required = true → ∃ c ∈ cs, c.evidenceQueries ≠ []) :
    validateEvidenceQueriesForReplay t.evidenceQueries t.verificationReplay required
        = Except.ok ()
      ↔ EvidenceKept cs t := by
  rw [validateEvidenceQueriesForReplay_ok_iff]
  constructor
  · rintro ⟨-, hall⟩ c hc q hq id hid vr hvr
    have hmem := (hall q ((h.evidence q).mpr ⟨c, hc, hq⟩)).right
    rw [Option.mem_def.mp hvr] at hmem
    exact hmem id hid
  · intro hkept
    refine ⟨fun hr hnil => ?_, fun q hq => ?_⟩
    · obtain ⟨c, hc, hne⟩ := hreq hr
      obtain ⟨q, hq⟩ := List.exists_mem_of_ne_nil _ hne
      have hmem := (h.evidence q).mpr ⟨c, hc, hq⟩
      rw [hnil] at hmem
      cases hmem
    · obtain ⟨c, hc, hqc⟩ := (h.evidence q).mp hq
      obtain ⟨-, hall⟩ := validateEvidenceQueriesForReplay_ok_iff.mp (hcs c hc).evidence
      obtain ⟨hvalid, hnames⟩ := hall q hqc
      refine ⟨hvalid, ?_⟩
      cases hvr : t.verificationReplay with
      | some vr => exact fun id hid => hkept c hc q hqc id hid vr hvr
      | none =>
        rw [h.replay.mp hvr c hc] at hnames
        exact hnames

/-- **A consolidated target is valid exactly when its evidence was kept and its
invocations are on one axis.** -/
theorem Consolidates.valid_iff (h : Consolidates cs t) (hcs : ∀ c ∈ cs, c.Valid)
    (hne : t.mergedFrom ≠ [])
    (hkeeps : ∀ vr ∈ t.verificationReplay, vr.invocations ≠ []) :
    t.Valid ↔ EvidenceKept cs t ∧ OneAxis t := by
  obtain ⟨c₀, hc₀, -⟩ := h.writeup
  have hnormal : t.benchEligible = true → c₀.consensusBreaking = false := by
    intro helig
    rw [(Prod.mk.inj (h.consensus c₀ hc₀)).left]
    rw [h.benchEligible, h.deliveryMode] at helig
    exact DeliveryMode.derive_eq_normalPr_iff.mp (DeliveryMode.benchEligible_iff.mp helig)
  have hreq : t.benchEligible = true → ∃ c ∈ cs, c.evidenceQueries ≠ [] := by
    intro helig
    have hok := (validateEvidenceQueriesForReplay_ok_iff.mp (hcs c₀ hc₀).evidence).left
    exact ⟨c₀, hc₀, hok (by rw [hnormal helig]; rfl)⟩
  constructor
  · intro hvalid
    exact ⟨(h.evidence_ok_iff hcs hreq).mp hvalid.evidence,
      fun vr hvr => (hvalid.replay vr hvr).axis⟩
  · rintro ⟨hkept, haxis⟩
    refine ⟨fun vr hvr => (h.merged vr hvr).valid hcs (hkeeps vr hvr) (haxis vr hvr), hne,
      h.count.symm, h.routing hcs, h.deliveryMode, h.benchEligible, fun helig hnone => ?_,
      (h.evidence_ok_iff hcs hreq).mpr hkept⟩
    exact (hcs c₀ hc₀).measured (hnormal helig) (h.replay.mp hnone c₀ hc₀)

end Consolidated

/-! ## A target of one contributor -/

section Single

variable {c : AnalyzerTarget} {t : MergedTarget} {vr vr' : VerificationReplay}

theorem invocationsOf_single (h : c.verificationReplay = some vr') :
    invocationsOf [c] = vr'.invocations := by
  simp [invocationsOf, h]

/-- A contributor agrees with itself. -/
theorem agreedIds_single (h : c.verificationReplay = some vr') (hvalid : vr'.Valid) :
    agreedIds [c] = vr'.invocations.map fun inv => inv.id := by
  unfold agreedIds
  rw [invocationsOf_single h, hvalid.nodup.dedup, List.filter_eq_self]
  intro id _
  refine decide_eq_true fun inv hinv inv' hinv' => ?_
  rw [mem_named, invocationsOf_single h] at hinv hinv'
  rw [List.inj_on_of_nodup_map hvalid.nodup hinv.left hinv'.left
    (hinv.right.trans hinv'.right.symm)]

/-- A replay that is merged from one keeps all of its invocations. -/
theorem MergedReplay.ids_perm (h : MergedReplay [c] vr)
    (hvr : c.verificationReplay = some vr') (hvalid : vr'.Valid) :
    (vr.invocations.map fun inv => inv.id).Perm (vr'.invocations.map fun inv => inv.id) := by
  have hsub : (vr.invocations.map fun inv => inv.id)
      ⊆ vr'.invocations.map fun inv => inv.id := by
    intro id hid
    obtain ⟨inv, hinv, rfl⟩ := List.mem_map.mp hid
    exact agreedIds_single hvr hvalid ▸ h.agreed inv hinv
  refine (List.subperm_of_subset h.nodup hsub).perm_of_length_le ?_
  have hsize := h.size
  rw [agreedIds_single hvr hvalid, List.length_map, min_eq_right hvalid.bounded] at hsize
  rw [List.length_map, List.length_map, hsize]

/-- A replay that is merged from one is on its axis. -/
theorem MergedReplay.axis (h : MergedReplay [c] vr)
    (hvr : c.verificationReplay = some vr') (hvalid : vr'.Valid)
    {inv inv' : BenchInvocation} (hinv : inv ∈ vr.invocations)
    (hinv' : inv' ∈ vr.invocations) :
    inv.expectedSignal.axis = inv'.expectedSignal.axis := by
  have horigin : ∀ inv ∈ vr.invocations, ∃ i ∈ vr'.invocations,
      inv.expectedSignal = i.expectedSignal := by
    intro inv hinv
    obtain ⟨i, hi, -, heq⟩ := h.merged inv hinv
    rw [mem_named, invocationsOf_single hvr] at hi
    exact ⟨i, hi.left, by rw [heq]⟩
  obtain ⟨i, hi, hsig⟩ := horigin inv hinv
  obtain ⟨i', hi', hsig'⟩ := horigin inv' hinv'
  rw [hsig, hsig']
  exact hvalid.axis i hi i' hi'

/-- **Nothing is lost on a target of one contributor.** -/
theorem Consolidates.single (h : Consolidates [c] t) (hc : c.Valid) :
    EvidenceKept [c] t ∧ OneAxis t
      ∧ ∀ vr ∈ t.verificationReplay, vr.invocations ≠ [] := by
  have horigin : ∀ vr ∈ t.verificationReplay, ∃ vr', c.verificationReplay = some vr' := by
    intro vr hvr
    refine Option.ne_none_iff_exists'.mp fun hnone => ?_
    rw [h.replay.mpr (by simpa using hnone)] at hvr
    cases hvr
  refine ⟨?_, fun vr hvr inv hinv inv' hinv' => ?_, fun vr hvr hnil => ?_⟩
  · intro c' hc' q hq id hid vr hvr
    obtain rfl := List.mem_singleton.mp hc'
    obtain ⟨vr', hvr'⟩ := horigin vr hvr
    have hnames := (validateEvidenceQueriesForReplay_ok_iff.mp hc.evidence).right q hq
    rw [hvr'] at hnames
    exact ((h.merged vr hvr).ids_perm hvr' (hc.replay vr' hvr')).mem_iff.mpr
      (hnames.right id hid)
  · obtain ⟨vr', hvr'⟩ := horigin vr hvr
    exact (h.merged vr hvr).axis hvr' (hc.replay vr' hvr') hinv hinv'
  · obtain ⟨vr', hvr'⟩ := horigin vr hvr
    have hperm := (h.merged vr hvr).ids_perm hvr' (hc.replay vr' hvr')
    rw [hnil, List.map_nil] at hperm
    exact (hc.replay vr' hvr').nonempty (List.map_eq_nil_iff.mp hperm.nil_eq.symm)

end Single

/-! ## What the validator says of a document that follows the rules -/

section Document

variable {accepted : List AcceptedAnalysis} {groups : List (List MergedFrom)}
  {o : OptimizationTargets}

/-- The targets of the document belong to the groups. -/
theorem Follows.exists_group (ho : Follows accepted groups o) {t : MergedTarget}
    (ht : t ∈ o.targets) : t.mergedFrom ∈ groups
      ∧ Consolidates (members accepted t.mergedFrom) t := by
  obtain ⟨g, hg, rfl, hc⟩ := exists_of_mem_right ho.targets ht
  exact ⟨hg, hc⟩

/-- The document refers to the targets that the groups refer to. -/
theorem Follows.accountedPairs_eq (ho : Follows accepted groups o) :
    accountedPairs o = groups.flatten.map MergedFrom.pair := by
  have hfrom : o.targets.map (fun t => t.mergedFrom) = groups := by
    refine (List.forall₂_eq_eq_eq ▸ List.forall₂_map_left_iff.mpr ?_)
    exact ho.targets.flip.imp fun t g h => h.left
  unfold accountedPairs
  rw [ho.rejected, ← hfrom, List.map_flatten, List.map_map, List.map_nil,
    List.append_nil]
  rfl

/-- A key of the analyses is referred to once, any other key never. -/
theorem Follows.count_accountedPairs (hnd : (accepted.map fun a => a.familyId).Nodup)
    (hg : IsGrouping accepted groups) (ho : Follows accepted groups o) (k : String × ℕ) :
    ((∃ c, IsTargetAt accepted k c) → (accountedPairs o).count k = 1)
      ∧ ((¬ ∃ c, IsTargetAt accepted k c) → (accountedPairs o).count k = 0) := by
  have hmem : k ∈ (pairRows accepted).map Prod.fst ↔ ∃ c, IsTargetAt accepted k c := by
    rw [← mem_expectedPairs, expectedPairs, List.mem_toFinset]
  rw [ho.accountedPairs_eq, hg.covers.count_eq, ← hmem]
  exact ⟨List.count_eq_one_of_mem (nodup_keys_pairRows hnd), List.count_eq_zero_of_not_mem⟩

/-- A document that follows the rules disposes of each lens once, with the
reason that the analysis gives. -/
theorem Follows.lenses_valid (ho : Follows accepted groups o)
    (hnd : (accepted.map fun a => a.familyId).Nodup)
    (hvalid : ∀ a ∈ accepted, a.validateModel = Except.ok ()) :
    (∀ d ∈ o.lensDispositions, d.status = LensDispositionStatus.notActionable →
        d.reason ≠ none)
      ∧ ∀ family, (o.lensDispositions.map fun d => d.familyId).count family
        = if ∃ a ∈ accepted, a.familyId = family then 1 else 0 := by
  constructor
  · intro d hd
    obtain ⟨a, ha, rfl⟩ := List.mem_map.mp (ho.lenses.mem_iff.mp hd)
    exact (AcceptedAnalysis.valid_of_validateModel (hvalid a ha)).right
  · intro family
    have hperm := ho.lenses.map fun d => d.familyId
    rw [hperm.count_eq]
    have hids : (lensDispositionsFromAccepted accepted).map (fun d => d.familyId)
        = accepted.map fun a => a.familyId := by
      unfold lensDispositionsFromAccepted
      rw [List.map_map]
      rfl
    rw [hids]
    split
    case isTrue h => exact List.count_eq_one_of_mem hnd (List.mem_map.mpr h)
    case isFalse h => exact List.count_eq_zero_of_not_mem (fun hm => h (List.mem_map.mp hm))

/-- What the analyses say of a document that follows the rules holds of it,
whatever its targets are like by themselves. -/
theorem Follows.mergeExact (hnd : (accepted.map fun a => a.familyId).Nodup)
    (hvalid : ∀ a ∈ accepted, a.validateModel = Except.ok ())
    (hg : IsGrouping accepted groups) (ho : Follows accepted groups o)
    (hmodel : o.validateModel = Except.ok ()) : MergeExact o accepted [] where
  model := hmodel
  coverage := fun k => (ho.count_accountedPairs hnd hg k).left
  nothingElse := fun k => (ho.count_accountedPairs hnd hg k).right
  dedup := by simp [ho.rejected]
  dedupReason := by simp [ho.rejected]
  lens := (ho.lenses_valid hnd hvalid).right
  bucket := by
    intro t ht mf hmf
    obtain ⟨hgroup, hc⟩ := ho.exists_group ht
    obtain ⟨c, hat⟩ := hg.exists_target hgroup hmf
    exact ⟨c, hat, hc.bucket c ((mem_members hnd).mpr ⟨mf, hmf, hat⟩)⟩
  consensus := by
    intro t ht mf hmf
    obtain ⟨hgroup, hc⟩ := ho.exists_group ht
    obtain ⟨c, hat⟩ := hg.exists_target hgroup hmf
    exact ⟨c, hat, hc.consensus c ((mem_members hnd).mpr ⟨mf, hmf, hat⟩)⟩
  families := fun t ht => hg.families _ (ho.exists_group ht).left
  evidence := fun t ht q => ((ho.exists_group ht).right.evidence q).trans
    (exists_contributor_iff hnd)

/-- Groups of one keep everything. -/
theorem Follows.single (hnd : (accepted.map fun a => a.familyId).Nodup)
    (hvalid : ∀ a ∈ accepted, a.validateModel = Except.ok ())
    (hg : IsGrouping accepted groups) (ho : Follows accepted groups o)
    (hone : ∀ g ∈ groups, g.length = 1) {t : MergedTarget} (ht : t ∈ o.targets) :
    EvidenceKept (members accepted t.mergedFrom) t ∧ OneAxis t
      ∧ ∀ vr ∈ t.verificationReplay, vr.invocations ≠ [] := by
  obtain ⟨hgroup, hc⟩ := ho.exists_group ht
  obtain ⟨mf, hmf⟩ := List.length_eq_one_iff.mp (hone _ hgroup)
  obtain ⟨c, hat⟩ := hg.exists_target hgroup (hmf ▸ List.mem_singleton_self mf)
  have hmembers : members accepted t.mergedFrom = [c] := by
    have hc := (targetByPair_eq_some_iff hnd).mpr hat
    rw [hmf]
    simp [members, hc]
  have hcv : c.Valid := valid_of_mem_members hnd hvalid
    (hmembers ▸ List.mem_singleton_self c)
  rw [hmembers] at hc ⊢
  exact hc.single hcv

/-- **Copying every contributor is always accepted**: a document that makes a
target of each analyzer target. -/
theorem validate_of_single (hnd : (accepted.map fun a => a.familyId).Nodup)
    (hvalid : ∀ a ∈ accepted, a.validateModel = Except.ok ())
    (hg : IsGrouping accepted groups) (ho : Follows accepted groups o)
    (hone : ∀ g ∈ groups, g.length = 1) :
    validateMergeOutputWithDedup o accepted [] = Except.ok () := by
  have hall := fun t (ht : t ∈ o.targets) => ho.single hnd hvalid hg hone ht
  refine (validateMergeOutputWithDedup_ok_iff o accepted [] hnd).mpr
    (ho.mergeExact hnd hvalid hg (OptimizationTargets.validateModel_ok_iff.mpr
      ⟨fun t ht => ?_, (ho.lenses_valid hnd hvalid).left⟩))
  obtain ⟨hkept, haxis, hkeeps⟩ := hall t ht
  exact ((ho.exists_group ht).right.valid_iff (fun _ => valid_of_mem_members hnd hvalid)
    (hg.nonempty _ (ho.exists_group ht).left) hkeeps).mpr ⟨hkept, haxis⟩

end Document

/-! ## Following the rules -/

section Make

/-- Merge the invocations of one id. -/
def mergeNamed (invs : List BenchInvocation) : Option BenchInvocation :=
  ((invs.find? fun i => isSpecific i.samples).or invs.head?).map fun i =>
    { i with
      repetitions := largest (invs.map fun j => j.repetitions)
      warmup := largest (invs.map fun j => j.warmup) }

/-- The rationales of the contributors on one line. -/
def mergedRationale (cs : List AnalyzerTarget) : String :=
  cs.foldr (fun c line =>
    (c.verificationReplay.map fun vr => vr.rationale).getD "" ++ " " ++ line) ""

/-- Merge the replays of contributors. -/
def mergedReplay (cs : List AnalyzerTarget) : Option VerificationReplay :=
  if cs.all fun c => c.verificationReplay.isNone then none
  else some
    { rationale := mergedRationale cs
      invocations := ((agreedIds cs).take benchInvocationHardMax).filterMap fun id =>
        mergeNamed (named cs id)
      suspectedSpans := some (cs.flatMap fun c =>
        (c.verificationReplay.bind fun vr => vr.suspectedSpans).getD []) }

/-- Make a target of contributors, in the words of the first one. -/
def consolidate (g : List MergedFrom) (c : AnalyzerTarget) (cs : List AnalyzerTarget) :
    MergedTarget where
  id := c.fixSignature
  mergedFrom := g
  convergenceCount := g.length
  rank := none
  targetSpan := c.targetSpan
  bucket := c.bucket
  hotspot := c.hotspot
  files := c.files
  evidence := c.evidence
  evidenceQueries := cs.flatMap fun c => c.evidenceQueries
  proposedChange := c.proposedChange
  expectedImprovement := c.expectedImprovement
  risk := c.risk
  verificationPlan := c.verificationPlan
  verificationReplay := mergedReplay cs
  mergeNotes := none
  contributorDifferences := none
  consensusBreaking := c.consensusBreaking
  breakageClass := c.breakageClass
  pocImplementable := mergedPoc cs
  pocTestScope := if mergedPoc cs = some true then
      some (cs.flatMap fun c => c.pocTestScope.getD [])
    else none
  consensusWriteup := c.consensusWriteup
  deliveryMode := DeliveryMode.derive c.consensusBreaking (mergedPoc cs)
  benchEligible :=
    (DeliveryMode.derive c.consensusBreaking (mergedPoc cs)).benchEligible

/-- A document that follows the rules, with the other fields of another. -/
def follow (accepted : List AcceptedAnalysis) (groups : List (List MergedFrom))
    (o : OptimizationTargets) : OptimizationTargets :=
  { o with
    targets := groups.filterMap fun g => (members accepted g).head?.map fun c =>
      consolidate g c (members accepted g)
    rejectedByMerge := []
    lensDispositions := lensDispositionsFromAccepted accepted }

variable {accepted : List AcceptedAnalysis} {groups : List (List MergedFrom)}
  {cs : List AnalyzerTarget} {c : AnalyzerTarget}

theorem mergedInvocation_of_mergeNamed {invs : List BenchInvocation}
    {inv : BenchInvocation} (h : mergeNamed invs = some inv) :
    MergedInvocation invs inv := by
  obtain ⟨i, hi, rfl⟩ := Option.map_eq_some_iff.mp h
  cases hf : invs.find? fun i => isSpecific i.samples with
  | some j =>
    rw [hf, Option.some_or] at hi
    obtain rfl := Option.some.inj hi
    exact ⟨j, List.mem_of_find?_eq_some hf, Or.inl (by simpa using List.find?_some hf), rfl⟩
  | none =>
    rw [hf, Option.none_or] at hi
    refine ⟨i, List.mem_of_head? hi, Or.inr fun j hj => ?_, rfl⟩
    exact Bool.eq_false_iff.mpr (List.find?_eq_none.mp hf j hj)

/-- An id that invocations have is the id of the merged one. -/
theorem exists_mergeNamed {id : String} (h : id ∈ agreedIds cs) :
    ∃ inv, mergeNamed (named cs id) = some inv ∧ inv.id = id := by
  obtain ⟨⟨i, hi, rfl⟩, -⟩ := mem_agreedIds.mp h
  have hmem : i ∈ named cs i.id := mem_named.mpr ⟨hi, rfl⟩
  obtain ⟨j, hj⟩ : ∃ j, ((named cs i.id).find? fun i => isSpecific i.samples).or
      (named cs i.id).head? = some j := by
    refine Option.ne_none_iff_exists'.mp fun hnone => ?_
    have hhead := (Option.or_eq_none_iff.mp hnone).right
    rw [List.head?_eq_none_iff] at hhead
    rw [hhead] at hmem
    cases hmem
  refine ⟨_, by rw [mergeNamed, hj]; rfl, ?_⟩
  have hjmem : j ∈ named cs i.id := by
    obtain hf | ⟨-, hhead⟩ := Option.or_eq_some_iff.mp hj
    · exact List.mem_of_find?_eq_some hf
    · exact List.mem_of_head? hhead
  exact (mem_named.mp hjmem).right

/-- The invocations that are kept have the ids that are kept. -/
theorem map_id_filterMap_mergeNamed {ids : List String} (h : ∀ id ∈ ids, id ∈ agreedIds cs) :
    ((ids.filterMap fun id => mergeNamed (named cs id)).map fun inv => inv.id) = ids := by
  have hall := forall₂_filterMap fun id hid => exists_mergeNamed (h id hid)
  refine (List.forall₂_eq_eq_eq ▸ List.forall₂_map_left_iff.mpr ?_)
  exact hall.flip

/-- A rationale that says something is left in the merged line. -/
theorem isBlank_mergedRationale (hcs : ∀ c ∈ cs, c.Valid) (hc : c ∈ cs)
    (hvr : c.verificationReplay ≠ none) : Text.isBlank (mergedRationale cs) = false := by
  obtain ⟨vr, hvr⟩ := Option.ne_none_iff_exists'.mp hvr
  have hrationale := ((hcs c hc).replay vr hvr).rationale
  clear hcs
  unfold mergedRationale
  induction cs with
  | nil => cases hc
  | cons c' cs ih =>
    rw [List.foldr_cons, Text.isBlank_append, Text.isBlank_append]
    rcases List.mem_cons.mp hc with rfl | hc
    · rw [hvr]
      simp [hrationale]
    · rw [ih hc, Bool.and_false]

/-- The replay that is made is merged from those of the contributors. -/
theorem mergedReplay_spec (hcs : ∀ c ∈ cs, c.Valid) {vr : VerificationReplay}
    (h : mergedReplay cs = some vr) : MergedReplay cs vr := by
  unfold mergedReplay at h
  split at h
  case isTrue => cases h
  case isFalse hsome =>
    obtain rfl := Option.some.inj h
    obtain ⟨c, hc, hvr⟩ : ∃ c ∈ cs, c.verificationReplay ≠ none := by
      simpa [List.all_eq_true] using hsome
    have htake : ∀ id ∈ (agreedIds cs).take benchInvocationHardMax, id ∈ agreedIds cs :=
      fun _ hid => List.mem_of_mem_take hid
    have hids := map_id_filterMap_mergeNamed htake
    have hid : ∀ inv ∈ ((agreedIds cs).take benchInvocationHardMax).filterMap
        (fun id => mergeNamed (named cs id)),
        inv.id ∈ (agreedIds cs).take benchInvocationHardMax := fun inv hinv =>
      hids ▸ List.mem_map_of_mem hinv
    -- no id twice, only agreed ids, each merged from those of its name
    refine ⟨?_, fun inv hinv => List.mem_of_mem_take (hid inv hinv), fun inv hinv => ?_, ?_,
      isBlank_mergedRationale hcs hc hvr, fun s => ?_⟩
    · show (List.map _ _).Nodup
      rw [hids]
      exact nodup_agreedIds.sublist (List.take_sublist ..)
    · obtain ⟨id, hmem, hmerge⟩ := List.mem_filterMap.mp hinv
      obtain ⟨inv', hinv', hid'⟩ := exists_mergeNamed (List.mem_of_mem_take hmem)
      obtain rfl : inv' = inv := Option.some.inj (hinv'.symm.trans hmerge)
      rw [hid']
      exact mergedInvocation_of_mergeNamed hmerge
    · show List.length _ = _
      rw [← List.length_map (f := fun inv : BenchInvocation => inv.id), hids, List.length_take]
    · simp only [Option.getD_some, List.mem_flatMap]
      refine exists_congr fun c => and_congr_right fun _ => ?_
      cases c.verificationReplay <;> simp

/-- **The target that is made is made by the rules.** -/
theorem consolidates_consolidate {g : List MergedFrom} (hcs : ∀ c ∈ cs, c.Valid)
    (hc : c ∈ cs) (hbucket : ∀ c' ∈ cs, c'.bucket = c.bucket)
    (hcons : ∀ c' ∈ cs,
      (c'.consensusBreaking, c'.breakageClass) = (c.consensusBreaking, c.breakageClass)) :
    Consolidates cs (consolidate g c cs) where
  count := rfl
  bucket := hbucket
  consensus := hcons
  evidence := fun _ => List.mem_flatMap
  replay := by
    show mergedReplay cs = none ↔ _
    unfold mergedReplay
    simp [List.all_eq_true]
  merged := fun _ h => mergedReplay_spec hcs h
  poc := rfl
  scope := by
    split
    case isTrue h => exact ⟨_, if_pos h, fun x => List.mem_flatMap⟩
    case isFalse h => exact if_neg h
  writeup := ⟨c, hc, rfl⟩
  deliveryMode := rfl
  benchEligible := rfl

/-- **Every grouping has a document that follows the rules.** -/
theorem follows_follow (hnd : (accepted.map fun a => a.familyId).Nodup)
    (hvalid : ∀ a ∈ accepted, a.validateModel = Except.ok ())
    (hg : IsGrouping accepted groups) (o : OptimizationTargets) :
    Follows accepted groups (follow accepted groups o) := by
  refine ⟨?_, rfl, List.Perm.refl _⟩
  show List.Forall₂ _ groups (groups.filterMap _)
  refine forall₂_filterMap fun g h => ?_
  obtain ⟨c', hc'⟩ := hg.exists_member hnd h
  obtain ⟨c, rest, heq⟩ := List.exists_cons_of_ne_nil (List.ne_nil_of_mem hc')
  have hc : c ∈ members accepted g := heq ▸ List.mem_cons_self
  refine ⟨consolidate g c (members accepted g), ?_, rfl,
    consolidates_consolidate (fun _ => valid_of_mem_members hnd hvalid) hc
      (fun c' hc' => hg.bucket g h c' hc' c hc)
      (fun c' hc' => hg.consensus g h c' hc' c hc)⟩
  rw [heq]
  rfl

end Make

/-! Two analyses that find the same thing, and measure it cold and warm. -/

/-- A replay of ten blocks. -/
def tenBlocks (id : String) (d : SignalDirection) : BenchInvocation where
  id := id
  label := id
  purpose := "measure"
  samples := BenchSamples.blockRange 100 10
  warmup := 1
  repetitions := 3
  profiler := ProfilerMode.rich
  expectedSignal := ⟨SelectionLens.txLatency, d, none, none⟩

/-- A finding that expects a signal in the given direction on a cold replay,
and an improvement on a warm one. -/
def coldFinding (d : SignalDirection) : AnalyzerTarget :=
  { consensusFinding "cache-reads" with
    evidenceQueries := [⟨"rank spans", PathBuf.ofNames ["queries", "run_summary.sql"],
      ∅, "evidence.csv", "the span dominates", ["cold", "warm"]⟩]
    verificationReplay := some ⟨"cold and warm",
      [tenBlocks "cold" d, tenBlocks "warm" SignalDirection.improves], none⟩
    consensusBreaking := false
    breakageClass := none
    pocImplementable := none
    consensusWriteup := none }

/-- The analysis of a family with that finding. -/
def coldAnalysis (familyId : String) (d : SignalDirection) : AcceptedAnalysis :=
  { analysisOf familyId [] with targets := [coldFinding d] }

/-- One group of both. -/
def bothGroups : List (List MergedFrom) := [[⟨"fam-a", 0⟩, ⟨"fam-b", 0⟩]]

/-- **The rules can be followed exactly where they do not collide.** For
accepted analyses of different families, any grouping of their targets, and any
document that the rules make of it, in which every target that has a replay
keeps an invocation: the validator accepts the document exactly when no
evidence names an invocation that was dropped and the invocations of each
target are on one axis. -/
theorem validate_follows_iff {accepted : List AcceptedAnalysis}
    {groups : List (List MergedFrom)} {o : OptimizationTargets}
    (hnd : (accepted.map fun a => a.familyId).Nodup)
    (hvalid : ∀ a ∈ accepted, a.validateModel = Except.ok ())
    (hg : IsGrouping accepted groups) (ho : Follows accepted groups o)
    (hkeeps : ∀ t ∈ o.targets, ∀ vr ∈ t.verificationReplay, vr.invocations ≠ []) :
    validateMergeOutputWithDedup o accepted [] = Except.ok ()
      ↔ ∀ t ∈ o.targets, EvidenceKept (members accepted t.mergedFrom) t ∧ OneAxis t := by
  have htarget : ∀ t ∈ o.targets, (t.Valid
      ↔ EvidenceKept (members accepted t.mergedFrom) t ∧ OneAxis t) := fun t ht =>
    (ho.exists_group ht).right.valid_iff (fun _ => valid_of_mem_members hnd hvalid)
      (hg.nonempty _ (ho.exists_group ht).left) (hkeeps t ht)
  rw [validateMergeOutputWithDedup_ok_iff o accepted [] hnd]
  constructor
  · intro h t ht
    exact (htarget t ht).mp ((OptimizationTargets.validateModel_ok_iff.mp h.model).left t ht)
  · intro h
    refine ho.mergeExact hnd hvalid hg (OptimizationTargets.validateModel_ok_iff.mpr
      ⟨fun t ht => (htarget t ht).mpr (h t ht), (ho.lenses_valid hnd hvalid).left⟩)

/-- The theorem at two analyses that agree. -/
theorem validate_follows_iff_agreeing :
    validateMergeOutputWithDedup
        (follow [coldAnalysis "fam-a" SignalDirection.improves,
            coldAnalysis "fam-b" SignalDirection.improves] bothGroups
          (documentOf [] [] []))
        [coldAnalysis "fam-a" SignalDirection.improves,
          coldAnalysis "fam-b" SignalDirection.improves] [] = Except.ok ()
      ↔ ∀ t ∈ (follow [coldAnalysis "fam-a" SignalDirection.improves,
            coldAnalysis "fam-b" SignalDirection.improves] bothGroups
          (documentOf [] [] [])).targets,
        EvidenceKept (members [coldAnalysis "fam-a" SignalDirection.improves,
          coldAnalysis "fam-b" SignalDirection.improves] t.mergedFrom) t ∧ OneAxis t := by
  have hvalid : ∀ a ∈ [coldAnalysis "fam-a" SignalDirection.improves,
      coldAnalysis "fam-b" SignalDirection.improves], a.validateModel = Except.ok () := by
    decide +kernel
  have hg : IsGrouping [coldAnalysis "fam-a" SignalDirection.improves,
      coldAnalysis "fam-b" SignalDirection.improves] bothGroups :=
    ⟨by decide +kernel, by decide +kernel, by decide +kernel, by decide +kernel,
      by decide +kernel⟩
  exact validate_follows_iff (by decide) hvalid hg
    (follows_follow (by decide) hvalid hg _) (by decide +kernel)

/-- Two analyses that expect the cold replay to go in different directions: the
rules drop it, and the evidence that names it is refused. -/
theorem not_accepted_of_disagreement :
    ∃ accepted groups o, (accepted.map fun a => a.familyId).Nodup
      ∧ (∀ a ∈ accepted, a.validateModel = Except.ok ())
      ∧ IsGrouping accepted groups ∧ Follows accepted groups o
      ∧ (∀ t ∈ o.targets, ∀ vr ∈ t.verificationReplay, vr.invocations ≠ [])
      ∧ validateMergeOutputWithDedup o accepted [] ≠ Except.ok () := by
  have hvalid : ∀ a ∈ [coldAnalysis "fam-a" SignalDirection.improves,
      coldAnalysis "fam-b" SignalDirection.neutral], a.validateModel = Except.ok () := by
    decide +kernel
  have hg : IsGrouping [coldAnalysis "fam-a" SignalDirection.improves,
      coldAnalysis "fam-b" SignalDirection.neutral] bothGroups :=
    ⟨by decide +kernel, by decide +kernel, by decide +kernel, by decide +kernel,
      by decide +kernel⟩
  refine ⟨_, bothGroups, _, by decide, hvalid, hg,
    follows_follow (by decide) hvalid hg (documentOf [] [] []), by decide +kernel, ?_⟩
  decide +kernel

end MergeRules
