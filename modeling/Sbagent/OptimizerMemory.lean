import Sbagent.Dedup
import Sbagent.Timestamps

/-!
# What the agents are told of earlier attempts

Before a session's agents are started, a compact memory is made of the two ledgers: for
each family that the session looks at, the signatures that were tried, and for each of
these the attempts. Both lists are cut, the attempts after the newest five, the signatures
after the newest three, and beside each list stands how many were left out.

Nothing gets lost on the way (`conserves_familyFromProjection`): what is listed and what is
counted make up the archived rows of the family, and what was left out is in no case newer
than what is listed. Newer is what finished later, as the timestamps are written. When the archive
wrote them, they are in the order of time, and otherwise they are compared all the same.
-/

open Keyed HistoryProjection

/-! ## Lists that are cut -/

section Cut

variable {α : Type} {cmp : α → α → Ordering} {n omitted : ℕ} {l kept : List α}

/-- **A list is cut**: what is kept comes first, and the rest is counted. -/
structure Cut (cmp : α → α → Ordering) (n : ℕ) (l kept : List α) (omitted : ℕ) : Prop where
  length : kept.length = min n l.length
  rest : ∃ dropped : List α, (kept ++ dropped).Perm l ∧ dropped.length = omitted
    ∧ ∀ k ∈ kept, ∀ d ∈ dropped, (cmp k d).isLE = true

theorem cut_sortBy (cmp : α → α → Ordering) [Std.TransCmp cmp] (n : ℕ) (l : List α) :
    Cut cmp n l ((sortBy cmp l).take n) ((sortBy cmp l).length - n) := by
  have hlength := (sortBy_perm cmp l).length_eq
  constructor
  · rw [List.length_take, hlength]
  · refine ⟨(sortBy cmp l).drop n, ?_, List.length_drop .., ?_⟩
    · rw [List.take_append_drop]
      exact sortBy_perm cmp l
    · have hsorted : (sortBy cmp l).Pairwise fun a b => (cmp a b).isLE = true :=
        pairwise_sortBy l
      rw [← List.take_append_drop n (sortBy cmp l), List.pairwise_append] at hsorted
      exact hsorted.right.right

/-- Nothing is lost. -/
theorem Cut.total (h : Cut cmp n l kept omitted) : kept.length + omitted = l.length := by
  obtain ⟨dropped, hperm, hcount, -⟩ := h.rest
  rw [← hperm.length_eq, List.length_append, hcount]

end Cut

/-! ## The memory -/

/-- An attempt, with the latest state of what it published. -/
structure OptimizerMemoryAttempt where
  sessionId : String
  targetId : String
  finishedAt : String
  status : TargetStatus
  deliveryMode : DeliveryMode
  reasonCode : Option String
  sourceSha : Option String
  prUrl : Option String
  issueUrl : Option String
  lifecycleKind : Option MaintEventKind
  lifecycleState : Option String
  lifecycleObservedAt : Option String
  headSha : Option String
  deriving DecidableEq

/-- The attempts under a signature. -/
structure OptimizerMemorySignature where
  fixSignature : String
  attempts : List OptimizerMemoryAttempt
  omittedAttempts : ℕ
  deriving DecidableEq

/-- The signatures of a family. -/
structure OptimizerMemoryFamily where
  familyId : String
  signatures : List OptimizerMemorySignature
  omittedSiblingSignatures : ℕ
  deriving DecidableEq

/-- The memory of a session. -/
structure OptimizerMemoryJson where
  generatedAt : String
  currentSourceSha : Option String
  families : List OptimizerMemoryFamily
  deriving DecidableEq

namespace OptimizerMemory

def maxAttemptsPerSignature : ℕ := 5

def maxSignaturesPerFamily : ℕ := 3

def attemptFromProjection (attempt : ProjectedAttempt) (history : HistoryProjection) :
    OptimizerMemoryAttempt :=
  let lifecycleState := (attempt.prUrl.or attempt.issueUrl).bind history.latestArtifactState
  { sessionId := attempt.sessionId
    targetId := attempt.targetId
    finishedAt := attempt.finishedAt
    status := attempt.status
    deliveryMode := attempt.deliveryMode
    reasonCode := attempt.reasonCode
    sourceSha := attempt.sourceSha
    prUrl := attempt.prUrl
    issueUrl := attempt.issueUrl
    lifecycleKind := lifecycleState.map fun s => s.kind
    lifecycleState := lifecycleState.map fun s => s.newState
    lifecycleObservedAt := lifecycleState.map fun s => s.observedAt
    headSha := (lifecycleState.bind fun s => s.headSha).or attempt.targetHeadSha }

/-- Newest first: by the end of the session, then by session and target. -/
def compareAttempts (a b : OptimizerMemoryAttempt) : Ordering :=
  (compare b.finishedAt a.finishedAt).then
    ((compare b.sessionId a.sessionId).then (compare b.targetId a.targetId))

def signatureRow (fixSignature : String) (attempts : List OptimizerMemoryAttempt) :
    OptimizerMemorySignature :=
  let sorted := sortBy compareAttempts attempts
  { fixSignature := fixSignature
    attempts := sorted.take maxAttemptsPerSignature
    omittedAttempts := sorted.length - maxAttemptsPerSignature }

/-- When the newest of the listed attempts finished. -/
def latestFinishedAt (sig : OptimizerMemorySignature) : String :=
  (sig.attempts.head?.map fun a => a.finishedAt).getD ""

def compareSignatures (a b : OptimizerMemorySignature) : Ordering :=
  (compare (latestFinishedAt b) (latestFinishedAt a)).then
    (compare a.fixSignature b.fixSignature)

/-- The memory of one family. -/
def familyFromProjection (history : HistoryProjection) (familyId : String) :
    OptimizerMemoryFamily :=
  let signatures := sortBy compareSignatures
    ((history.signaturesForFamily familyId).map fun signature =>
      signatureRow signature.fixSignature
        (signature.attempts.map fun a => attemptFromProjection a history))
  { familyId := familyId
    signatures := signatures.take maxSignaturesPerFamily
    omittedSiblingSignatures := signatures.length - maxSignaturesPerFamily }

def buildForFamiliesFromProjection (familyIds : Finset String) (history : HistoryProjection)
    (currentSourceSha : Option String) (generatedAt : String) : OptimizerMemoryJson where
  generatedAt := generatedAt
  currentSourceSha := currentSourceSha
  families := familyIds.sort.map (familyFromProjection history)

def buildForFamilies (familyIds : Finset String) (sessions : List SessionRecord)
    (events : List MaintEvent) (currentSourceSha : Option String) (generatedAt : String) :
    OptimizerMemoryJson :=
  buildForFamiliesFromProjection familyIds (fromLedgers sessions events) currentSourceSha
    generatedAt

/-! ## The archived rows -/

section Rows

variable (sessions : List SessionRecord)

/-- The archived rows of a family. -/
def familyRows (familyId : String) : List (SessionRecord × TargetRecord) :=
  sessions.flatMap fun s => (s.targets.filter fun t => t.familyId = familyId).map fun t => (s, t)

/-- Those of them with a signature. -/
def archivedRows (familyId sig : String) : List (SessionRecord × TargetRecord) :=
  (familyRows sessions familyId).filter fun r => r.snd.id = sig

/-- The signatures of a family. -/
def signaturesOf (familyId : String) : List String :=
  ((familyRows sessions familyId).map fun r => r.snd.id).dedup

/-- The attempt that a row is remembered as. -/
def remembered (events : List MaintEvent) (r : SessionRecord × TargetRecord) :
    OptimizerMemoryAttempt :=
  attemptFromProjection (attemptOf r.fst r.snd) (fromLedgers sessions events)

end Rows

/-! ## Nothing is lost -/

/-- The one of two timestamps is not older than the other, and not earlier, if the archive
wrote both. -/
structure NoOlder (newer older : String) : Prop where
  text : older ≤ newer
  time : ∀ t u, t < Timestamps.limit → u < Timestamps.limit →
    Timestamps.Archive.formatUnixSecsIso8601 t = Except.ok newer →
    Timestamps.Archive.formatUnixSecsIso8601 u = Except.ok older → u ≤ t

/-- **The attempts under a signature are conserved.** -/
structure KeepsAttempts (sessions : List SessionRecord) (events : List MaintEvent)
    (familyId : String) (sig : OptimizerMemorySignature) : Prop where
  /-- What is listed and what is counted make up the archived rows. -/
  total : sig.attempts.length + sig.omittedAttempts
    = (archivedRows sessions familyId sig.fixSignature).length
  /-- As many are listed as can be. -/
  length : sig.attempts.length
    = min 5 (archivedRows sessions familyId sig.fixSignature).length
  /-- The others are not newer. -/
  newest : ∃ dropped : List OptimizerMemoryAttempt, (sig.attempts ++ dropped).Perm
      ((archivedRows sessions familyId sig.fixSignature).map (remembered sessions events))
    ∧ dropped.length = sig.omittedAttempts
    ∧ ∀ k ∈ sig.attempts, ∀ d ∈ dropped, NoOlder k.finishedAt d.finishedAt

/-- **The history of a family is conserved.** -/
structure Conserves (sessions : List SessionRecord) (events : List MaintEvent)
    (f : OptimizerMemoryFamily) : Prop where
  /-- There are attempts of the family only. -/
  ofFamily : ∀ sig ∈ f.signatures, ∀ a ∈ sig.attempts, ∃ s ∈ sessions, ∃ t ∈ s.targets,
    t.familyId = f.familyId ∧ t.id = sig.fixSignature ∧ a = remembered sessions events (s, t)
  attempts : ∀ sig ∈ f.signatures, KeepsAttempts sessions events f.familyId sig
  /-- The signatures that are listed and those that are counted make up the family's. -/
  total : f.signatures.length + f.omittedSiblingSignatures
    = (signaturesOf sessions f.familyId).length
  length : f.signatures.length = min 3 (signaturesOf sessions f.familyId).length
  /-- No attempt of a signature that is left out is newer than all of a listed one. -/
  newest : ∃ dropped : List String, ((f.signatures.map fun sig => sig.fixSignature)
      ++ dropped).Perm (signaturesOf sessions f.familyId)
    ∧ dropped.length = f.omittedSiblingSignatures
    ∧ ∀ sig ∈ f.signatures, ∀ d ∈ dropped, ∀ r ∈ archivedRows sessions f.familyId d,
        ∃ r' ∈ archivedRows sessions f.familyId sig.fixSignature,
          NoOlder r'.fst.finishedAt r.fst.finishedAt

/-! ### What the orders say -/

instance transCmp_descending {α β : Type} [Ord β] [Std.TransOrd β] (f : α → β) :
    Std.TransCmp fun a b => compare (f b) (f a) where
  eq_swap := Std.OrientedCmp.eq_swap
  isLE_trans hab hbc := Std.TransCmp.isLE_trans hbc hab

instance : Std.TransCmp compareAttempts :=
  inferInstanceAs (Std.TransCmp (compareLex
    (fun a b : OptimizerMemoryAttempt => compare b.finishedAt a.finishedAt)
    (compareLex (fun a b => compare b.sessionId a.sessionId)
      fun a b => compare b.targetId a.targetId)))

instance : Std.TransCmp compareSignatures :=
  inferInstanceAs (Std.TransCmp (compareLex
    (fun a b : OptimizerMemorySignature => compare (latestFinishedAt b) (latestFinishedAt a))
    (compareOn fun sig => sig.fixSignature)))

theorem finishedAt_le {a b : OptimizerMemoryAttempt} (h : (compareAttempts a b).isLE = true) :
    b.finishedAt ≤ a.finishedAt :=
  Std.LawfulBCmp.isLE_iff_le.mp (Ordering.isLE_left_of_isLE_then h)

theorem latestFinishedAt_le {a b : OptimizerMemorySignature}
    (h : (compareSignatures a b).isLE = true) : latestFinishedAt b ≤ latestFinishedAt a :=
  Std.LawfulBCmp.isLE_iff_le.mp (Ordering.isLE_left_of_isLE_then h)

/-- **The order of the texts is that of time**, where the archive wrote them. -/
theorem noOlder_of_le {newer older : String} (h : older ≤ newer) : NoOlder newer older := by
  refine ⟨h, fun t u ht hu hnewer holder => ?_⟩
  rw [(Timestamps.format_eq ht).right.right.right] at hnewer
  rw [(Timestamps.format_eq hu).right.right.right] at holder
  obtain rfl := Except.ok.inj hnewer
  obtain rfl := Except.ok.inj holder
  by_contra hlt
  have hstamp := Timestamps.stampOf_lt (Nat.lt_of_not_le hlt) hu
  refine absurd h (not_le_of_gt ?_)
  rw [String.lt_iff_toList_lt, String.toList_ofList, String.toList_ofList]
  exact hstamp

/-! ### One signature -/

section Signature

variable {sessions : List SessionRecord} {events : List MaintEvent} {familyId sig : String}

theorem mem_archivedRows {r : SessionRecord × TargetRecord} :
    r ∈ archivedRows sessions familyId sig
      ↔ r.fst ∈ sessions ∧ r.snd ∈ r.fst.targets ∧ r.snd.familyId = familyId ∧ r.snd.id = sig := by
  obtain ⟨s, t⟩ := r
  simp only [archivedRows, familyRows, List.mem_filter, List.mem_flatMap, List.mem_map,
    Prod.mk.injEq, decide_eq_true_eq]
  constructor
  · rintro ⟨⟨s', hs, t', ⟨ht, hfamily⟩, rfl, rfl⟩, hid⟩
    exact ⟨hs, ht, hfamily, hid⟩
  · rintro ⟨hs, ht, hfamily, hid⟩
    exact ⟨⟨s, hs, t, ⟨ht, hfamily⟩, rfl, rfl⟩, hid⟩

/-- The rows of a family are the attempts that are filed under it. -/
theorem map_attemptOf_familyRows (sessions : List SessionRecord) (familyId : String) :
    (familyRows sessions familyId).map (fun r => attemptOf r.fst r.snd)
      = under (fun a => a.familyId) familyId (attemptsOf sessions) := by
  unfold familyRows attemptsOf under
  rw [List.map_flatMap, List.filter_flatMap]
  refine List.flatMap_congr fun s _ => ?_
  rw [List.map_map, List.filter_map]
  rfl

theorem map_attemptOf_archivedRows (sessions : List SessionRecord) (familyId sig : String) :
    (archivedRows sessions familyId sig).map (fun r => attemptOf r.fst r.snd)
      = under (fun a => a.fixSignature) sig
          (under (fun a => a.familyId) familyId (attemptsOf sessions)) := by
  rw [← map_attemptOf_familyRows]
  unfold archivedRows under
  rw [List.filter_map]
  rfl

/-- The signatures of a family are those of its rows, also if there are none. -/
theorem signaturesForFamily_eq (sessions : List SessionRecord) (events : List MaintEvent)
    (familyId : String) : (fromLedgers sessions events).signaturesForFamily familyId
      = projectSignatures (group compare (fun a => a.fixSignature)
          (under (fun a => a.familyId) familyId (attemptsOf sessions))) := by
  unfold signaturesForFamily fromLedgers
  simp only [Std.ExtTreeMap.getElem?_map, getElem?_byFamilySignature]
  split
  case isTrue => rfl
  case isFalse h =>
    rw [under_eq_nil_iff.mpr h]
    rfl

/-- **Under a signature** are the attempts of its rows, and there are some. -/
theorem attempts_perm {sig : ProjectedSignature}
    (h : sig ∈ (fromLedgers sessions events).signaturesForFamily familyId) :
    sig.attempts.Perm ((archivedRows sessions familyId sig.fixSignature).map
        fun r => attemptOf r.fst r.snd)
      ∧ archivedRows sessions familyId sig.fixSignature ≠ [] := by
  rw [signaturesForFamily_eq] at h
  obtain ⟨p, hp, rfl⟩ := List.mem_map.mp ((sortBy_perm _ _).mem_iff.mp h)
  rw [Std.ExtTreeMap.mem_toList_iff_getElem?_eq_some, getElem?_group] at hp
  split at hp
  case isFalse => cases hp
  case isTrue hmem =>
    rw [map_attemptOf_archivedRows, Option.some.inj hp]
    refine ⟨sortBy_perm _ _, fun hnil => ?_⟩
    have hunder := map_attemptOf_archivedRows sessions familyId p.fst
    rw [hnil, List.map_nil, eq_comm, under_eq_nil_iff] at hunder
    exact hunder hmem

/-- **The signatures of a family are listed once each.** -/
theorem signaturesForFamily_perm (sessions : List SessionRecord) (events : List MaintEvent)
    (familyId : String) :
    (((fromLedgers sessions events).signaturesForFamily familyId).map
        fun sig => sig.fixSignature).Perm (signaturesOf sessions familyId) := by
  have hids : (familyRows sessions familyId).map (fun r => r.snd.id)
      = (under (fun a => a.familyId) familyId (attemptsOf sessions)).map
          fun a => a.fixSignature := by
    rw [← map_attemptOf_familyRows, List.map_map]
    rfl
  rw [signaturesForFamily_eq, List.perm_iff_count]
  intro sig
  rw [count_projectSignatures, signaturesOf, List.count_dedup, hids]

/-- What is kept of a signature. -/
theorem keepsAttempts_signatureRow {attempts : List OptimizerMemoryAttempt}
    (h : attempts.Perm ((archivedRows sessions familyId sig).map (remembered sessions events))) :
    KeepsAttempts sessions events familyId (signatureRow sig attempts) := by
  have hlength : attempts.length = (archivedRows sessions familyId sig).length := by
    rw [h.length_eq, List.length_map]
  have hcut := cut_sortBy compareAttempts 5 attempts
  obtain ⟨dropped, hperm, hcount, hnewest⟩ := hcut.rest
  refine ⟨hcut.total.trans hlength, hcut.length.trans (congrArg (min 5) hlength), dropped,
    hperm.trans h, hcount, fun k hk d hd => ?_⟩
  exact noOlder_of_le (finishedAt_le (hnewest k hk d hd))

/-- **The latest time of a signature** is that of one of its rows, and none is later. -/
theorem latestFinishedAt_signatureRow {attempts : List OptimizerMemoryAttempt}
    (h : attempts.Perm ((archivedRows sessions familyId sig).map (remembered sessions events)))
    (hne : archivedRows sessions familyId sig ≠ []) :
    (∃ r ∈ archivedRows sessions familyId sig,
        r.fst.finishedAt = latestFinishedAt (signatureRow sig attempts))
      ∧ ∀ r ∈ archivedRows sessions familyId sig,
          r.fst.finishedAt ≤ latestFinishedAt (signatureRow sig attempts) := by
  have hperm := (sortBy_perm compareAttempts attempts).trans h
  have hsorted : (sortBy compareAttempts attempts).Pairwise fun a b =>
      (compareAttempts a b).isLE = true := pairwise_sortBy attempts
  cases hs : sortBy compareAttempts attempts with
  | nil =>
    rw [hs] at hperm
    exact absurd (List.map_eq_nil_iff.mp hperm.symm.eq_nil) hne
  | cons first others =>
    have hlatest : latestFinishedAt (signatureRow sig attempts) = first.finishedAt := by
      unfold latestFinishedAt signatureRow
      dsimp only
      rw [hs]
      rfl
    rw [hs] at hperm hsorted
    rw [hlatest]
    constructor
    · obtain ⟨r, hr, hfirst⟩ := List.mem_map.mp (hperm.mem_iff.mp List.mem_cons_self)
      refine ⟨r, hr, ?_⟩
      rw [← hfirst]
      rfl
    · intro r hr
      have hmem := hperm.mem_iff.mpr (List.mem_map_of_mem (f := remembered sessions events) hr)
      obtain heq | hmem := List.mem_cons.mp hmem
      · rw [← heq]
        exact le_refl (remembered sessions events r).finishedAt
      · exact finishedAt_le (List.rel_of_pairwise_cons hsorted hmem)

end Signature

/-! ### One family -/

section Family

variable {sessions : List SessionRecord} {events : List MaintEvent}

/-- The row that is made of a signature of the projection. -/
def rowOf (history : HistoryProjection) (signature : ProjectedSignature) :
    OptimizerMemorySignature :=
  signatureRow signature.fixSignature
    (signature.attempts.map fun a => attemptFromProjection a history)

/-- A row of a family, before the list of rows is cut. -/
structure IsRow (sessions : List SessionRecord) (events : List MaintEvent) (familyId : String)
    (row : OptimizerMemorySignature) : Prop where
  keeps : KeepsAttempts sessions events familyId row
  latest : ∃ r ∈ archivedRows sessions familyId row.fixSignature,
    r.fst.finishedAt = latestFinishedAt row
  le_latest : ∀ r ∈ archivedRows sessions familyId row.fixSignature,
    r.fst.finishedAt ≤ latestFinishedAt row

theorem isRow_rowOf {familyId : String} {signature : ProjectedSignature}
    (h : signature ∈ (fromLedgers sessions events).signaturesForFamily familyId) :
    IsRow sessions events familyId (rowOf (fromLedgers sessions events) signature) := by
  obtain ⟨hperm, hne⟩ := attempts_perm h
  have hrow : (signature.attempts.map fun a =>
      attemptFromProjection a (fromLedgers sessions events)).Perm
      ((archivedRows sessions familyId signature.fixSignature).map
        (remembered sessions events)) := by
    have hmap := hperm.map fun a => attemptFromProjection a (fromLedgers sessions events)
    rwa [List.map_map] at hmap
  obtain ⟨hlatest, hle⟩ := latestFinishedAt_signatureRow hrow hne
  exact ⟨keepsAttempts_signatureRow hrow, hlatest, hle⟩

variable (sessions events) in
theorem conserves_familyFromProjection (familyId : String) :
    Conserves sessions events
      (familyFromProjection (fromLedgers sessions events) familyId) := by
  set rows := ((fromLedgers sessions events).signaturesForFamily familyId).map
    (rowOf (fromLedgers sessions events)) with hrows
  have hisRow : ∀ row ∈ rows, IsRow sessions events familyId row := by
    intro row hrow
    obtain ⟨signature, hsignature, rfl⟩ := List.mem_map.mp hrow
    exact isRow_rowOf hsignature
  have hnames : (rows.map fun row => row.fixSignature).Perm (signaturesOf sessions familyId) := by
    rw [hrows, List.map_map]
    exact signaturesForFamily_perm sessions events familyId
  have hlength : rows.length = (signaturesOf sessions familyId).length :=
    (List.length_map _).symm.trans hnames.length_eq
  have hcut := cut_sortBy compareSignatures 3 rows
  obtain ⟨dropped, hperm, hcount, hnewest⟩ := hcut.rest
  have hkept : ∀ row ∈ (sortBy compareSignatures rows).take 3,
      IsRow sessions events familyId row := fun row hrow =>
    hisRow row (hperm.mem_iff.mp (List.mem_append_left dropped hrow))
  constructor
  · -- what is listed is one of the rows that it is listed under
    intro sig hsig a ha
    obtain ⟨rest, hrest, -, -⟩ := (hkept sig hsig).keeps.newest
    obtain ⟨r, hr, rfl⟩ := List.mem_map.mp (hrest.mem_iff.mp (List.mem_append_left rest ha))
    obtain ⟨hs, ht, hfamily, hid⟩ := mem_archivedRows.mp hr
    exact ⟨r.fst, hs, r.snd, ht, hfamily, hid, rfl⟩
  · exact fun sig hsig => (hkept sig hsig).keeps
  · exact hcut.total.trans hlength
  · exact hcut.length.trans (congrArg (min 3) hlength)
  · refine ⟨dropped.map fun row => row.fixSignature, ?_, ?_, ?_⟩
    · have hall := hperm.map fun row => row.fixSignature
      rw [List.map_append] at hall
      exact hall.trans hnames
    · rw [List.length_map]
      exact hcount
    · intro sig hsig d hd r hr
      obtain ⟨row, hrow, rfl⟩ := List.mem_map.mp hd
      have hdropped := hisRow row (hperm.mem_iff.mp (List.mem_append_right _ hrow))
      obtain ⟨r', hr', hlatest⟩ := (hkept sig hsig).latest
      refine ⟨r', hr', noOlder_of_le ?_⟩
      calc r.fst.finishedAt ≤ latestFinishedAt row := hdropped.le_latest r hr
        _ ≤ latestFinishedAt sig := latestFinishedAt_le (hnewest sig hsig row hrow)
        _ = r'.fst.finishedAt := hlatest.symm

variable (sessions events) in
/-- **The memory conserves history**: there is one entry for each family, and it conserves
the history of the family. -/
theorem memory_conserves (familyIds : Finset String) (currentSourceSha : Option String)
    (generatedAt : String) :
    ((buildForFamilies familyIds sessions events currentSourceSha generatedAt).families.map
        fun f => f.familyId) = familyIds.sort
      ∧ ∀ f ∈ (buildForFamilies familyIds sessions events currentSourceSha generatedAt).families,
          Conserves sessions events f := by
  unfold buildForFamilies buildForFamiliesFromProjection
  constructor
  · rw [List.map_map]
    exact List.map_id' _
  · intro f hf
    obtain ⟨familyId, -, rfl⟩ := List.mem_map.mp hf
    exact conserves_familyFromProjection sessions events familyId

/-- A fix that was tried in six sessions. -/
def retried : List SessionRecord :=
  (List.range 6).map fun i => abortedSession s!"2026061{i}-000000" "fam-a" "fix"

theorem memory_conserves_retried :
    ((familyFromProjection (fromLedgers retried []) "fam-a").signatures.map fun sig =>
        (sig.fixSignature, sig.attempts.length, sig.omittedAttempts)) = [("fix", 5, 1)]
      ∧ Conserves retried [] (familyFromProjection (fromLedgers retried []) "fam-a") := by
  refine ⟨by decide +kernel, ?_⟩
  have hmem : familyFromProjection (fromLedgers retried []) "fam-a"
      ∈ (buildForFamilies {"fam-a"} retried [] none "2026-06-16T00:00:00Z").families := by
    refine List.mem_map_of_mem ?_
    rw [Finset.mem_sort]
    exact Finset.mem_singleton_self "fam-a"
  exact (memory_conserves retried [] {"fam-a"} none "2026-06-16T00:00:00Z").right _ hmem

end Family

end OptimizerMemory
