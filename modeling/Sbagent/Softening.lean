import Sbagent.MergeRules

/-!
# What a merge may soften

A merged target is to be as cautious as its contributors: a proof of concept only if all
of them allow one, the highest of their risks, and no benchmark that none of them asked
for. The prompt of the merge says so, and so do the fields of the document. The validator
looks at other fields of the contributors, at their bucket, their consensus class and their
evidence, and not at these.

So of an accepted document one may ask what else would be accepted in its place, when the
same contributors are merged in the same groups and only these fields are written anew.
Some protection is left by the neighbouring checks: a change of block validation has no
proof of concept, and an invocation that an evidence row names has to stay, which leaves
no room for another when sixteen are named. That is all.
-/

open Fallible MergeRules

namespace Softening

variable {accepted : List AcceptedAnalysis} {expectedDedup : List DedupDecision}
  {o o' : OptimizationTargets} {t t' : MergedTarget} {cs : List AnalyzerTarget}

/-! ## Caution -/

/-- How cautious a risk is. -/
def caution : Risk → ℕ
  | Risk.low => 0
  | Risk.medium => 1
  | Risk.high => 2

/-- The ids of the invocations of a replay. -/
def replayIds (vr : Option VerificationReplay) : List String :=
  (vr.map fun vr => vr.invocations.map fun inv => inv.id).getD []

/-- **A target is as cautious as its contributors.** -/
structure Cautious (cs : List AnalyzerTarget) (t : MergedTarget) : Prop where
  poc : t.pocImplementable = some true → ∀ c ∈ cs, c.pocImplementable = some true
  risk : ∀ c ∈ cs, caution c.risk ≤ caution t.risk
  replay : ∀ id ∈ replayIds t.verificationReplay, ∃ c ∈ cs, id ∈ replayIds c.verificationReplay

/-- A target that differs from another in the fields that are in question, and in what is
derived from them. -/
structure Rewords (t t' : MergedTarget) : Prop where
  eq : t' = { t with
    risk := t'.risk
    verificationReplay := t'.verificationReplay
    pocImplementable := t'.pocImplementable
    pocTestScope := t'.pocTestScope
    deliveryMode := t'.deliveryMode
    benchEligible := t'.benchEligible }

/-- A document that makes the same targets of the same contributors. -/
structure SameMerge (o o' : OptimizationTargets) : Prop where
  eq : o' = { o with targets := o'.targets }
  targets : List.Forall₂ Rewords o.targets o'.targets

/-- The invocations that the evidence of contributors names. -/
def namedIds (cs : List AnalyzerTarget) : Finset String :=
  (cs.flatMap fun c => c.evidenceQueries.flatMap fun q => q.supportsInvocations).toFinset

/-- There is an id that no contributor has, and an invocation may have it. -/
structure Room (cs : List AnalyzerTarget) : Prop where
  few : (namedIds cs).card < benchInvocationHardMax
  unused : ∃ id, isValidInvocationId id = true ∧ ∀ c ∈ cs, id ∉ replayIds c.verificationReplay

/-- **The contributors leave nothing to soften.** -/
structure LeavesNothing (cs : List AnalyzerTarget) : Prop where
  /-- A proof of concept is ruled out, or all of them allow it. -/
  poc : ∀ c ∈ cs, c.consensusBreaking = true →
    c.breakageClass ≠ some BreakageClass.blockValidation → c.pocImplementable = some true
  /-- There is no risk to play down. -/
  risk : ∀ c ∈ cs, c.risk = Risk.low
  /-- There is no room for an invocation. -/
  replay : ¬ Room cs

/-! ## What an accepted document says of a target -/

/-- A target and its contributors, as the validator leaves them. -/
structure Contributed (cs : List AnalyzerTarget) (t : MergedTarget) : Prop where
  valid : t.Valid
  contributors : ∀ c ∈ cs, c.Valid
  consensus : ∀ c ∈ cs, (c.consensusBreaking, c.breakageClass)
    = (t.consensusBreaking, t.breakageClass)
  evidence : ∀ q, q ∈ t.evidenceQueries ↔ ∃ c ∈ cs, q ∈ c.evidenceQueries

/-- A target of an exact merge comes from its contributors. -/
theorem contributed (hnd : (accepted.map fun a => a.familyId).Nodup)
    (hvalid : ∀ a ∈ accepted, a.validateModel = Except.ok ())
    (h : MergeExact o accepted expectedDedup) (ht : t ∈ o.targets) :
    Contributed (contributors accepted t) t where
  valid := (OptimizationTargets.validateModel_ok_iff.mp h.model).left t ht
  contributors := fun _ hc => valid_of_mem_members hnd hvalid hc
  consensus := by
    intro c hc
    obtain ⟨mf, hmf, hat⟩ := (mem_contributors hnd).mp hc
    obtain ⟨c', hat', hclass⟩ := h.consensus t ht mf hmf
    have hsame : some c = some c' := by
      rw [← (targetByPair_eq_some_iff hnd).mpr hat, (targetByPair_eq_some_iff hnd).mpr hat']
    rw [Option.some_inj.mp hsame, hclass]
  evidence := fun q => (h.evidence t ht q).trans (exists_contributor_iff hnd).symm

/-! ## Another document for the same merge -/

theorem Rewords.refl (t : MergedTarget) : Rewords t t := ⟨rfl⟩

/-- Other words leave the contributors. -/
theorem Rewords.mergedFrom_eq (h : Rewords t t') : t'.mergedFrom = t.mergedFrom := by
  rw [h.eq]

/-- Also in the analyses. -/
theorem Rewords.contributors_eq (h : Rewords t t') (accepted : List AcceptedAnalysis) :
    contributors accepted t' = contributors accepted t := by
  unfold contributors
  rw [h.mergedFrom_eq]

/-- The fields that are written anew are of no account to what the validator asks of the
analyses: all that is left to ask is that each target is valid. -/
theorem SameMerge.mergeExact (hs : SameMerge o o') (h : MergeExact o accepted expectedDedup)
    (hvalid : ∀ t' ∈ o'.targets, t'.Valid) : MergeExact o' accepted expectedDedup := by
  have hfrom : o'.targets.map (fun t => t.mergedFrom) = o.targets.map fun t => t.mergedFrom := by
    refine List.forall₂_eq_eq_eq ▸ List.forall₂_map_left_iff.mpr ?_
    refine List.forall₂_map_right_iff.mpr (hs.targets.flip.imp fun t' t ht => ?_)
    exact ht.mergedFrom_eq
  have hrejected : o'.rejectedByMerge = o.rejectedByMerge := by rw [hs.eq]
  have hlenses : o'.lensDispositions = o.lensDispositions := by rw [hs.eq]
  have hpairs : accountedPairs o' = accountedPairs o := by
    have hmap := congrArg (List.flatMap fun g => g.map MergedFrom.pair) hfrom
    simp only [List.flatMap_map] at hmap
    unfold accountedPairs
    rw [hrejected, hmap]
  have horigin : ∀ t' ∈ o'.targets, ∃ t ∈ o.targets, Rewords t t' := fun t' ht' =>
    exists_of_mem_right hs.targets ht'
  constructor
  case model =>
    refine OptimizationTargets.validateModel_ok_iff.mpr ⟨hvalid, ?_⟩
    rw [hlenses]
    exact (OptimizationTargets.validateModel_ok_iff.mp h.model).right
  case coverage =>
    rw [hpairs]
    exact h.coverage
  case nothingElse =>
    rw [hpairs]
    exact h.nothingElse
  case dedup =>
    rw [hrejected]
    exact h.dedup
  case dedupReason =>
    rw [hrejected]
    exact h.dedupReason
  case lens =>
    rw [hlenses]
    exact h.lens
  all_goals
    intro t' ht'
    obtain ⟨t, ht, hr⟩ := horigin t' ht'
    rw [hr.eq]
  case bucket => exact h.bucket t ht
  case consensus => exact h.consensus t ht
  case families => exact h.families t ht
  case evidence => exact h.evidence t ht

/-- One target may be written anew, and the others left as they are. -/
theorem exists_sameMerge (ht : t ∈ o.targets) (hr : Rewords t t') :
    ∃ o', SameMerge o o' ∧ t' ∈ o'.targets
      ∧ ∀ t'' ∈ o'.targets, t'' = t' ∨ t'' ∈ o.targets := by
  obtain ⟨before, after, hsplit⟩ := List.append_of_mem ht
  have hrefl : ∀ ts : List MergedTarget, List.Forall₂ Rewords ts ts := fun ts =>
    List.forall₂_same.mpr fun t _ => Rewords.refl t
  refine ⟨{ o with targets := before ++ t' :: after }, ⟨rfl, ?_⟩, by simp, ?_⟩
  · rw [hsplit]
    exact List.rel_append (hrefl before) (List.Forall₂.cons hr (hrefl after))
  · intro t'' ht''
    rw [hsplit]
    simp only [List.mem_append, List.mem_cons] at ht'' ⊢
    tauto

/-- What would be accepted in place of a document is what may be written of each target
for itself. -/
theorem forall_sameMerge_iff (hnd : (accepted.map fun a => a.familyId).Nodup)
    (h : MergeExact o accepted expectedDedup) :
    (∀ o', SameMerge o o' → validateMergeOutputWithDedup o' accepted expectedDedup
        = Except.ok () → ∀ t' ∈ o'.targets, Cautious (contributors accepted t') t')
      ↔ ∀ t ∈ o.targets, ∀ t', Rewords t t' → t'.Valid →
          Cautious (contributors accepted t) t' := by
  have hvalid := (OptimizationTargets.validateModel_ok_iff.mp h.model).left
  constructor
  · intro hall t ht t' hr hv
    obtain ⟨o', hs, hmem, hrest⟩ := exists_sameMerge ht hr
    have hvalid' : ∀ t'' ∈ o'.targets, t''.Valid := by
      intro t'' ht''
      obtain rfl | hold := hrest t'' ht''
      · exact hv
      · exact hvalid t'' hold
    have haccepted := (validateMergeOutputWithDedup_ok_iff o' accepted expectedDedup hnd).mpr
      (hs.mergeExact h hvalid')
    rw [← hr.contributors_eq accepted]
    exact hall o' hs haccepted t' hmem
  · intro hall o' hs haccepted t' ht'
    have h' := (validateMergeOutputWithDedup_ok_iff o' accepted expectedDedup hnd).mp haccepted
    obtain ⟨t, ht, hr⟩ := exists_of_mem_right hs.targets ht'
    rw [hr.contributors_eq accepted]
    exact hall t ht t' hr ((OptimizationTargets.validateModel_ok_iff.mp h'.model).left t' ht')

/-! ## What may be written of a target -/

/-- Its risk played down. -/
def playDown (t : MergedTarget) : MergedTarget := { t with risk := Risk.low }

/-- Its proof of concept allowed. -/
def allowPoc (t : MergedTarget) : MergedTarget := { t with
  pocImplementable := some true
  pocTestScope := some ["unit"]
  deliveryMode := DeliveryMode.derive t.consensusBreaking (some true)
  benchEligible := (DeliveryMode.derive t.consensusBreaking (some true)).benchEligible }

/-- The replay of a target with the invocations that evidence names, and one more. -/
def inventReplay (cs : List AnalyzerTarget) (id : String) :
    Option VerificationReplay → VerificationReplay
  | none => ⟨"compare", [{ tenBlocks "cold" SignalDirection.improves with id := id }], none⟩
  | some vr => { vr with
      invocations := (vr.invocations.filter fun inv => inv.id ∈ namedIds cs)
        ++ (vr.invocations.take 1).map fun inv => { inv with id := id } }

/-- An invocation of that id made up. -/
def invent (cs : List AnalyzerTarget) (id : String) (t : MergedTarget) : MergedTarget :=
  { t with verificationReplay := some (inventReplay cs id t.verificationReplay) }

theorem rewords_playDown (t : MergedTarget) : Rewords t (playDown t) := ⟨rfl⟩

theorem rewords_allowPoc (t : MergedTarget) : Rewords t (allowPoc t) := ⟨rfl⟩

theorem rewords_invent (cs : List AnalyzerTarget) (id : String) (t : MergedTarget) :
    Rewords t (invent cs id t) := ⟨rfl⟩

/-- A target that is played down is valid. -/
theorem playDown_valid (h : t.Valid) : (playDown t).Valid := { h with }

/-- A proof of concept is not measured. -/
theorem allowPoc_benchEligible (hb : t.consensusBreaking = true) :
    (allowPoc t).benchEligible = false := by
  refine Bool.eq_false_iff.mpr fun helig => ?_
  have hnormal := DeliveryMode.derive_eq_normalPr_iff.mp (DeliveryMode.benchEligible_iff.mp helig)
  rw [hb] at hnormal
  cases hnormal

/-- A target that is allowed one is valid, unless it changes block validation. -/
theorem allowPoc_valid (h : t.Valid) (hb : t.consensusBreaking = true)
    (hclass : t.breakageClass ≠ some BreakageClass.blockValidation) : (allowPoc t).Valid where
  replay := h.replay
  contributors := h.contributors
  count := h.count
  routing := by
    obtain ⟨hsome, -, hwriteup⟩ := h.routing.breaking hb
    refine ⟨fun _ => ⟨hsome, ?_, hwriteup⟩, fun _ hbv => absurd hbv hclass,
      fun _ => ⟨fun _ => ⟨["unit"], rfl, List.cons_ne_nil _ _⟩, fun hno => absurd rfl hno⟩,
      fun hno => ?_⟩
    · exact Option.some_ne_none _
    · have hbreaking : (allowPoc t).consensusBreaking = true := hb
      rw [hbreaking] at hno
      cases hno
  deliveryMode := rfl
  benchEligible := rfl
  measured := by
    rw [allowPoc_benchEligible hb]
    exact fun helig => absurd helig Bool.false_ne_true
  evidence := by
    rw [allowPoc_benchEligible hb]
    exact validateEvidenceQueriesForReplay_ok_iff.mpr ⟨fun helig => absurd helig
      Bool.false_ne_true, (validateEvidenceQueriesForReplay_ok_iff.mp h.evidence).right⟩

/-- What valid evidence names is in the replay that it goes with. -/
theorem mem_replayIds_of_evidence {qs : List EvidenceQuery} {vr : Option VerificationReplay}
    {required : Bool} (h : validateEvidenceQueriesForReplay qs vr required = Except.ok ())
    {q : EvidenceQuery} (hq : q ∈ qs) {id : String} (hid : id ∈ q.supportsInvocations) :
    id ∈ replayIds vr := by
  have hnames := ((validateEvidenceQueriesForReplay_ok_iff.mp h).right q hq).right
  cases vr with
  | none =>
    rw [hnames] at hid
    cases hid
  | some vr => exact hnames id hid

/-- The invocations that the evidence names. -/
theorem mem_namedIds {id : String} : id ∈ namedIds cs
    ↔ ∃ c ∈ cs, ∃ q ∈ c.evidenceQueries, id ∈ q.supportsInvocations := by
  simp only [namedIds, List.mem_toFinset, List.mem_flatMap]

/-- Evidence names invocations of the contributors, -/
theorem Contributed.exists_of_named (h : Contributed cs t) {id : String}
    (hid : id ∈ namedIds cs) : ∃ c ∈ cs, id ∈ replayIds c.verificationReplay := by
  obtain ⟨c, hc, q, hq, hid⟩ := mem_namedIds.mp hid
  exact ⟨c, hc, mem_replayIds_of_evidence (h.contributors c hc).evidence hq hid⟩

/-- and they are kept, whatever else is written. -/
theorem Contributed.named_subset (h : Contributed cs t) (hr : Rewords t t') (hv : t'.Valid) :
    ∀ id ∈ namedIds cs, id ∈ replayIds t'.verificationReplay := by
  intro id hid
  obtain ⟨c, hc, q, hq, hid⟩ := mem_namedIds.mp hid
  have heq : t'.evidenceQueries = t.evidenceQueries := by rw [hr.eq]
  exact mem_replayIds_of_evidence hv.evidence (heq ▸ (h.evidence q).mpr ⟨c, hc, hq⟩) hid

/-- The ids of a valid replay are different. -/
theorem nodup_replayIds (hv : t.Valid) : (replayIds t.verificationReplay).Nodup := by
  cases hvr : t.verificationReplay with
  | none => exact List.nodup_nil
  | some vr => exact (hv.replay vr hvr).nodup

/-- There are not more of them than may be measured. -/
theorem length_replayIds (hv : t.Valid) :
    (replayIds t.verificationReplay).length ≤ benchInvocationHardMax := by
  cases hvr : t.verificationReplay with
  | none => exact Nat.zero_le _
  | some vr =>
    have hbounded := (hv.replay vr hvr).bounded
    rwa [← List.length_map (f := fun inv : BenchInvocation => inv.id)] at hbounded

/-- With sixteen invocations named there is no other. -/
theorem Contributed.named_of_full (h : Contributed cs t) (hr : Rewords t t') (hv : t'.Valid)
    (hfull : benchInvocationHardMax ≤ (namedIds cs).card) {id : String}
    (hid : id ∈ replayIds t'.verificationReplay) : id ∈ namedIds cs := by
  have hsub : namedIds cs ⊆ (replayIds t'.verificationReplay).toFinset := fun id hid =>
    List.mem_toFinset.mpr (h.named_subset hr hv id hid)
  have hcard : (replayIds t'.verificationReplay).toFinset.card ≤ (namedIds cs).card := by
    rw [List.toFinset_card_of_nodup (nodup_replayIds hv)]
    exact (length_replayIds hv).trans hfull
  rw [Finset.eq_of_subset_of_card_le hsub hcard]
  exact List.mem_toFinset.mpr hid

/-- The ids of an invocation are valid. -/
theorem isValidInvocationId_of_mem (hv : t.Valid) {id : String}
    (hid : id ∈ replayIds t.verificationReplay) : isValidInvocationId id = true := by
  cases hvr : t.verificationReplay with
  | none =>
    rw [hvr] at hid
    cases hid
  | some vr =>
    rw [hvr] at hid
    obtain ⟨inv, hinv, rfl⟩ := List.mem_map.mp hid
    have hok := (hv.replay vr hvr).each inv hinv
    simp only [BenchInvocation.validateModel, seq_ok_iff, bailIf_ok_iff, Bool.not_eq_false] at hok
    exact hok.left

/-! ## An invocation made up -/

/-- The id of an invocation has no part in the rest of it. -/
theorem valid_with_id {inv : BenchInvocation} (h : inv.validateModel = Except.ok ()) {id : String}
    (hid : isValidInvocationId id = true) :
    ({ inv with id := id } : BenchInvocation).validateModel = Except.ok () := by
  simp only [BenchInvocation.validateModel, seq_ok_iff, bailIf_ok_iff, context_ok_iff] at h ⊢
  obtain ⟨-, hlabel, hpurpose, hsamples, hwarmup, hreps, hsignal⟩ := h
  exact ⟨by rw [hid]; decide, hlabel, hpurpose, hsamples, hwarmup, hreps, hsignal⟩

/-- What is written besides what is kept differs in its id alone. -/
theorem mem_inventReplay {vr : VerificationReplay} {id : String} {inv : BenchInvocation}
    (hinv : inv ∈ (inventReplay cs id (some vr)).invocations) :
    ∃ i ∈ vr.invocations, inv = i ∨ inv = { i with id := id } := by
  obtain hkept | hnew := List.mem_append.mp hinv
  · exact ⟨inv, (List.mem_filter.mp hkept).left, Or.inl rfl⟩
  · obtain ⟨i, hi, rfl⟩ := List.mem_map.mp hnew
    exact ⟨i, List.mem_of_mem_take hi, Or.inr rfl⟩

/-- The ids of an invented replay: those that the evidence names, and a new one. -/
theorem ids_inventReplay (cs : List AnalyzerTarget) {vr : VerificationReplay} (id : String)
    (hne : vr.invocations ≠ []) :
    (inventReplay cs id (some vr)).invocations.map (fun inv => inv.id)
      = ((vr.invocations.map fun inv => inv.id).filter fun id => id ∈ namedIds cs) ++ [id] := by
  obtain ⟨first, rest, hcons⟩ := List.exists_cons_of_ne_nil hne
  simp only [inventReplay, List.map_append, List.filter_map, hcons]
  rfl

/-- It is valid if the new id is, and there is room for it. -/
theorem inventReplay_valid {vr : VerificationReplay} (hvr : vr.Valid) {id : String}
    (hid : isValidInvocationId id = true) (hfew : (namedIds cs).card < benchInvocationHardMax)
    (hfresh : id ∉ namedIds cs) : (inventReplay cs id (some vr)).Valid where
  rationale := hvr.rationale
  nonempty := by
    intro hnil
    have hids := ids_inventReplay cs id hvr.nonempty
    rw [hnil] at hids
    exact List.append_ne_nil_of_right_ne_nil _ (List.cons_ne_nil id []) hids.symm
  bounded := by
    have hkept : ((vr.invocations.map fun inv => inv.id).filter fun id => id ∈ namedIds cs).length
        ≤ (namedIds cs).card := by
      rw [← List.toFinset_card_of_nodup (hvr.nodup.filter _)]
      exact Finset.card_le_card fun id hid => by simpa using (List.mem_filter.mp
        (List.mem_toFinset.mp hid)).right
    rw [← List.length_map (f := fun inv : BenchInvocation => inv.id), ids_inventReplay cs id
      hvr.nonempty, List.length_append]
    exact Nat.succ_le_of_lt (hkept.trans_lt hfew)
  nodup := by
    rw [ids_inventReplay cs id hvr.nonempty]
    refine List.nodup_append'.mpr ⟨hvr.nodup.filter _, List.nodup_singleton id, ?_⟩
    rw [List.disjoint_singleton]
    exact fun hmem => hfresh (of_decide_eq_true (List.mem_filter.mp hmem).right)
  each := by
    intro inv hinv
    obtain ⟨i, hi, rfl | rfl⟩ := mem_inventReplay hinv
    · exact hvr.each _ hi
    · exact valid_with_id (hvr.each i hi) hid
  axis := by
    have hsignal : ∀ inv ∈ (inventReplay cs id (some vr)).invocations,
        ∃ i ∈ vr.invocations, inv.expectedSignal = i.expectedSignal := by
      intro inv hinv
      obtain ⟨i, hi, rfl | rfl⟩ := mem_inventReplay hinv
      · exact ⟨_, hi, rfl⟩
      · exact ⟨i, hi, rfl⟩
    intro inv hinv inv' hinv'
    obtain ⟨i, hi, heq⟩ := hsignal inv hinv
    obtain ⟨i', hi', heq'⟩ := hsignal inv' hinv'
    rw [heq, heq']
    exact hvr.axis i hi i' hi'
  spans := hvr.spans

/-- A replay out of nothing is valid, too. -/
theorem inventReplay_none_valid {id : String} (hid : isValidInvocationId id = true) :
    (inventReplay cs id none).Valid where
  rationale := by
    show Text.isBlank "compare" = false
    decide
  nonempty := List.cons_ne_nil _ _
  bounded := Nat.one_le_ofNat
  nodup := List.nodup_singleton _
  each := by
    intro inv hinv
    have hcold : (tenBlocks "cold" SignalDirection.improves).validateModel = Except.ok () := by
      decide
    rw [List.mem_singleton.mp hinv]
    exact valid_with_id hcold hid
  axis := by
    intro inv hinv inv' hinv'
    rw [List.mem_singleton.mp hinv, List.mem_singleton.mp hinv']
  spans := by
    intro spans hspans
    cases hspans

/-- An invocation may be made up wherever there is room for one. -/
theorem Contributed.invent_valid (h : Contributed cs t) {id : String}
    (hid : isValidInvocationId id = true) (hfew : (namedIds cs).card < benchInvocationHardMax)
    (hfresh : id ∉ namedIds cs) : (invent cs id t).Valid := by
  have hreplay : (inventReplay cs id t.verificationReplay).Valid := by
    cases hvr : t.verificationReplay with
    | some vr => exact inventReplay_valid (h.valid.replay vr hvr) hid hfew hfresh
    | none => exact inventReplay_none_valid hid
  refine { h.valid with replay := ?_, measured := ?_, evidence := ?_ }
  · intro vr hvr
    obtain rfl : inventReplay cs id t.verificationReplay = vr := Option.some_inj.mp hvr
    exact hreplay
  · exact fun _ => Option.some_ne_none _
  · obtain ⟨hneeded, hall⟩ := validateEvidenceQueriesForReplay_ok_iff.mp h.valid.evidence
    refine validateEvidenceQueriesForReplay_ok_iff.mpr ⟨hneeded, fun q hq => ?_⟩
    refine ⟨(hall q hq).left, fun name hname => ?_⟩
    obtain ⟨c, hc, hqc⟩ := (h.evidence q).mp hq
    have hnamed : name ∈ namedIds cs := mem_namedIds.mpr ⟨c, hc, q, hqc, hname⟩
    have hmem := mem_replayIds_of_evidence h.valid.evidence hq hname
    cases hvr : t.verificationReplay with
    | none =>
      rw [hvr] at hmem
      cases hmem
    | some vr =>
      rw [hvr] at hmem
      rw [ids_inventReplay cs id (h.valid.replay vr hvr).nonempty]
      exact List.mem_append_left _ (List.mem_filter.mpr ⟨hmem, decide_eq_true hnamed⟩)

/-- The new id is in the replay of the target. -/
theorem mem_replayIds_invent (h : t.Valid) (id : String) :
    id ∈ replayIds (invent cs id t).verificationReplay := by
  cases hvr : t.verificationReplay with
  | none => simp [invent, hvr, inventReplay, replayIds]
  | some vr =>
    have hids := ids_inventReplay cs id (h.replay vr hvr).nonempty
    simp only [invent, hvr, replayIds, Option.map_some, Option.getD_some, hids]
    exact List.mem_append_right _ (List.mem_singleton_self id)

/-! ## What is left of caution -/

/-- **A target of these contributors is as cautious as they are, however it is written,
exactly when they leave nothing to soften.** -/
theorem Contributed.cautious_iff (h : Contributed cs t) :
    (∀ t', Rewords t t' → t'.Valid → Cautious cs t') ↔ LeavesNothing cs := by
  constructor
  · intro hall
    constructor
    -- allowing the proof of concept is as cautious as they are only if they all allow it
    case poc =>
      intro c hc hb hclass
      obtain ⟨hb', hclass'⟩ := Prod.mk.inj (h.consensus c hc)
      have hvalid := allowPoc_valid h.valid (hb' ▸ hb) (hclass' ▸ hclass)
      exact (hall (allowPoc t) (rewords_allowPoc t) hvalid).poc rfl c hc
    case risk =>
      intro c hc
      have hle := (hall (playDown t) (rewords_playDown t) (playDown_valid h.valid)).risk c hc
      cases hrisk : c.risk with
      | low => rfl
      | medium =>
        rw [hrisk] at hle
        cases hle
      | high =>
        rw [hrisk] at hle
        cases hle
    case replay =>
      rintro ⟨hfew, id, hid, hunused⟩
      -- there is room for an invocation that nobody asked for
      have hfresh : id ∉ namedIds cs := by
        intro hnamed
        obtain ⟨c, hc, hmem⟩ := h.exists_of_named hnamed
        exact hunused c hc hmem
      obtain ⟨c, hc, hmem⟩ := (hall (invent cs id t) (rewords_invent cs id t)
        (h.invent_valid hid hfew hfresh)).replay id (mem_replayIds_invent h.valid id)
      exact hunused c hc hmem
  · intro hnothing t' hr hv
    constructor
    case poc =>
      intro hpoc c hc
      obtain ⟨hb, hclass⟩ := Prod.mk.inj (h.consensus c hc)
      have hb' : t'.consensusBreaking = t.consensusBreaking := by rw [hr.eq]
      have hclass' : t'.breakageClass = t.breakageClass := by rw [hr.eq]
      refine hnothing.poc c hc ?_ ?_
      · refine Bool.not_eq_false _ |>.mp fun hno => ?_
        have hnone := (hv.routing.nonBreaking (hb'.trans (hb.symm.trans hno))).right.left
        rw [hpoc] at hnone
        cases hnone
      · intro hbv
        cases hbreaking : t'.consensusBreaking with
        | false =>
          have hnone := (hv.routing.nonBreaking hbreaking).right.left
          rw [hpoc] at hnone
          cases hnone
        | true =>
          have hno := hv.routing.blockValidation hbreaking (hclass'.trans (hclass.symm.trans hbv))
          rw [hpoc] at hno
          cases hno
    case risk =>
      intro c hc
      rw [hnothing.risk c hc]
      exact Nat.zero_le _
    case replay =>
      intro id hid
      by_contra hnone
      refine hnothing.replay ⟨?_, id, isValidInvocationId_of_mem hv hid, fun c hc hmem =>
        hnone ⟨c, hc, hmem⟩⟩
      by_contra hfull
      exact hnone (h.exists_of_named (h.named_of_full hr hv (not_lt.mp hfull) hid))

/-- **What is accepted for a merge is as cautious as the contributors exactly when the
contributors of every target leave nothing to soften.** -/
theorem validate_cautious_iff (hnd : (accepted.map fun a => a.familyId).Nodup)
    (hvalid : ∀ a ∈ accepted, a.validateModel = Except.ok ())
    (h : validateMergeOutputWithDedup o accepted expectedDedup = Except.ok ()) :
    (∀ o', SameMerge o o' → validateMergeOutputWithDedup o' accepted expectedDedup
        = Except.ok () → ∀ t ∈ o'.targets, Cautious (contributors accepted t) t)
      ↔ ∀ t ∈ o.targets, LeavesNothing (contributors accepted t) := by
  have hexact := (validateMergeOutputWithDedup_ok_iff o accepted expectedDedup hnd).mp h
  rw [forall_sameMerge_iff hnd hexact]
  refine forall_congr' fun t => forall_congr' fun ht => ?_
  exact (contributed hnd hvalid hexact ht).cautious_iff

/-- A finding that its analyst thinks risky, and not to be shown in a proof of concept. -/
def riskyFinding : AnalyzerTarget :=
  { consensusFinding "cache-reads" with breakageClass := some BreakageClass.marfLayout }

/-- The analysis that has it. -/
def riskyAnalysis : AcceptedAnalysis := { analysisOf "fam" [] with targets := [riskyFinding] }

/-- A target made of it alone that says otherwise, and measures what nobody asked for. -/
def harmlessTarget : MergedTarget :=
  invent [] "made-up" (allowPoc (playDown
    { issueTarget "t1" [⟨"fam", 0⟩] with breakageClass := some BreakageClass.marfLayout }))

/-- The document with that target. -/
def harmlessMerge : OptimizationTargets := documentOf ["fam"] [harmlessTarget] []

theorem nodup_riskyAnalysis : ([riskyAnalysis].map fun a => a.familyId).Nodup :=
  List.nodup_singleton _

theorem validate_riskyAnalysis : ∀ a ∈ [riskyAnalysis], a.validateModel = Except.ok () := by
  intro a ha
  rw [List.mem_singleton.mp ha]
  decide

theorem validate_harmlessMerge :
    validateMergeOutputWithDedup harmlessMerge [riskyAnalysis] [] = Except.ok () := by
  decide +kernel

theorem contributors_harmlessTarget :
    contributors [riskyAnalysis] harmlessTarget = [riskyFinding] := by
  decide +kernel

/-- A merge may allow a proof of concept that the analyst ruled out, play a risk down, and
measure what nobody asked for, all in one. -/
theorem softened : ∃ t ∈ harmlessMerge.targets,
    validateMergeOutputWithDedup harmlessMerge [riskyAnalysis] [] = Except.ok ()
      ∧ ∃ c ∈ contributors [riskyAnalysis] t,
        (t.pocImplementable = some true ∧ c.pocImplementable = some false)
          ∧ caution t.risk < caution c.risk
          ∧ ∃ id ∈ replayIds t.verificationReplay, ∀ c ∈ contributors [riskyAnalysis] t,
              id ∉ replayIds c.verificationReplay := by
  refine ⟨harmlessTarget, List.mem_singleton_self _, validate_harmlessMerge, riskyFinding, ?_⟩
  rw [contributors_harmlessTarget]
  refine ⟨List.mem_singleton_self _, ⟨rfl, rfl⟩, by decide, "made-up", by decide, ?_⟩
  intro c hc
  rw [List.mem_singleton.mp hc]
  decide

/-- A risky finding leaves something to soften, whatever is made of it. -/
theorem validate_cautious_iff_risky : ¬ ∀ o', SameMerge harmlessMerge o' →
    validateMergeOutputWithDedup o' [riskyAnalysis] [] = Except.ok () →
      ∀ t ∈ o'.targets, Cautious (contributors [riskyAnalysis] t) t := by
  rw [validate_cautious_iff nodup_riskyAnalysis validate_riskyAnalysis validate_harmlessMerge]
  intro hall
  have hnothing := hall harmlessTarget (List.mem_singleton_self _)
  rw [contributors_harmlessTarget] at hnothing
  cases hnothing.risk riskyFinding (List.mem_singleton_self _)

end Softening
