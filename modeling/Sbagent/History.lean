import Sbagent.Grouping
import Sbagent.Ledger

/-!
# The history projection

Every consumer of the past reads one view of it, built from the two ledgers:
the attempts made under each fix signature, newest first; the signatures tried
in each family; and the latest state of each pull request and issue. The view
is rebuilt from scratch each time, in one pass over each ledger.

An archived row is filed twice – once under its signature alone, once under
its family and its signature – and the two filings overlap in a way that
matters to whoever walks one while reading the other: a signature that rows of
several families share is listed in each of those families, and each listing
leads to *all* attempts under the signature. `count_signatures` is the exact
statement: a signature is listed as often as there are families it occurs in.
-/

open Keyed

/-! ## Records of the view -/

/-- One historical attempt, copied from an archived target row. -/
structure ProjectedAttempt where
  sessionId : String
  targetId : String
  /-- Equal to the target id for archived rows. -/
  fixSignature : String
  familyId : String
  finishedAt : String
  status : TargetStatus
  deliveryMode : DeliveryMode
  reasonCode : Option String
  sourceSha : Option String
  prUrl : Option String
  issueUrl : Option String
  targetHeadSha : Option String
  deriving DecidableEq

/-- The attempts under one signature within one family. -/
structure ProjectedSignature where
  fixSignature : String
  attempts : List ProjectedAttempt
  deriving DecidableEq

/-- Latest state of a pull request or issue. -/
structure ProjectedArtifactState where
  url : String
  kind : MaintEventKind
  observedAt : String
  newState : String
  headSha : Option String
  deriving DecidableEq

/-- One event, as the reports show it. -/
structure ProjectedMaintenanceEvent where
  sessionId : String
  kind : MaintEventKind
  observedAt : String
  targetId : Option String
  newState : String
  prUrl : Option String
  issueUrl : Option String
  deriving DecidableEq

/-- The view built from both ledgers. -/
structure HistoryProjection where
  sessions : List SessionRecord
  attemptsBySignature : Std.ExtTreeMap String (List ProjectedAttempt)
  signaturesByFamily : Std.ExtTreeMap String (List ProjectedSignature)
  artifactsByUrl : Std.ExtTreeMap String ProjectedArtifactState
  maintenanceEventsBySession :
    Std.ExtTreeMap String (List ProjectedMaintenanceEvent)

/-! ## Sorting -/

/-- Stable sorting by a comparison. -/
def sortBy {α : Type} (cmp : α → α → Ordering) (l : List α) : List α :=
  l.insertionSort fun a b => (cmp a b).isLE = true

theorem sortBy_perm {α : Type} (cmp : α → α → Ordering) (l : List α) :
    (sortBy cmp l).Perm l :=
  List.perm_insertionSort _ l

section SortBy

variable {α : Type} {cmp : α → α → Ordering} {p : α → Bool} {l l' : List α}

/-- **Sorting is stable**: elements that stand in order, ties included, stay as
they stand. -/
theorem filter_sortBy_of_pairwise
    (h : (l.filter p).Pairwise fun a b => (cmp a b).isLE = true) :
    (sortBy cmp l).filter p = l.filter p := by
  have hsub : (l.filter p).Sublist (sortBy cmp l) :=
    List.sublist_insertionSort h List.filter_sublist
  have hfilter : (l.filter p).Sublist ((sortBy cmp l).filter p) := by
    have hfilter := hsub.filter p
    rwa [List.filter_filter, show (fun a => p a && p a) = p from
      funext fun a => Bool.and_self (p a)] at hfilter
  exact (hfilter.eq_of_length ((sortBy_perm cmp l).filter p).length_eq.symm).symm

theorem pairwise_sortBy [Std.TransCmp cmp] (l : List α) :
    (sortBy cmp l).Pairwise fun a b => (cmp a b).isLE = true := by
  have htrans : IsTrans α fun a b => (cmp a b).isLE = true :=
    ⟨fun _ _ _ => Std.TransCmp.isLE_trans⟩
  have htotal : Std.Total fun a b => (cmp a b).isLE = true := by
    refine ⟨fun a b => ?_⟩
    have hswap : cmp b a = (cmp a b).swap := Std.OrientedCmp.eq_swap
    rw [hswap]
    cases cmp a b <;> simp
  exact List.pairwise_insertionSort (fun a b => (cmp a b).isLE = true) l

/-- **Where no two elements are ties, the order before sorting does not
matter.** -/
theorem filter_sortBy_eq_of_perm [Std.TransCmp cmp] (hperm : l.Perm l')
    (hties : ∀ a ∈ l, ∀ b ∈ l, p a = true → p b = true → cmp a b = Ordering.eq → a = b) :
    (sortBy cmp l).filter p = (sortBy cmp l').filter p := by
  refine List.Perm.eq_of_pairwise (fun a b ha hb hab hba => ?_)
    ((pairwise_sortBy l).filter p) ((pairwise_sortBy l').filter p)
    (((sortBy_perm cmp l).trans (hperm.trans (sortBy_perm cmp l').symm)).filter p)
  obtain ⟨hal, hpa⟩ := List.mem_filter.mp ha
  obtain ⟨hbl, hpb⟩ := List.mem_filter.mp hb
  exact hties a ((sortBy_perm cmp l).mem_iff.mp hal) b
    (hperm.mem_iff.mpr ((sortBy_perm cmp l').mem_iff.mp hbl)) hpa hpb
    (Std.OrientedCmp.isLE_antisymm hab hba)

end SortBy

/-- Newest first: by the end of the session, then by session and target. -/
def compareNewestFirst (a b : ProjectedAttempt) : Ordering :=
  (compare b.finishedAt a.finishedAt).then
    ((compare b.sessionId a.sessionId).then (compare b.targetId a.targetId))

/-- Attempts sorted newest first. -/
def sortAttemptsNewestFirst (attempts : List ProjectedAttempt) :
    List ProjectedAttempt :=
  sortBy compareNewestFirst attempts

/-- When the newest attempt under a signature finished. -/
def latestFinishedAt (sig : ProjectedSignature) : String :=
  match sig.attempts with
  | a :: _ => a.finishedAt
  | [] => ""

/-- Signatures of one family: newest first, then by name. -/
def compareSignatures (a b : ProjectedSignature) : Ordering :=
  (compare (latestFinishedAt b) (latestFinishedAt a)).then
    (compare a.fixSignature b.fixSignature)

/-- Events by the time of observation, then by the URLs they carry. -/
def compareObserved (a b : MaintEvent) : Ordering :=
  (compare a.observedAt b.observedAt).then
    ((compare a.prUrl b.prUrl).then (compare a.issueUrl b.issueUrl))

instance : Std.TransCmp compareObserved :=
  inferInstanceAs (Std.TransCmp (compareLex (compareOn fun e : MaintEvent => e.observedAt)
    (compareLex (compareOn fun e => e.prUrl) (compareOn fun e => e.issueUrl))))

/-- Events of one session, as the reports order them. -/
def compareMaintenance (a b : ProjectedMaintenanceEvent) : Ordering :=
  (compare a.observedAt b.observedAt).then
    ((compare a.targetId b.targetId).then
      ((compare a.prUrl b.prUrl).then (compare a.issueUrl b.issueUrl)))

/-! ## Building the view -/

/-- The attempt that a row of a session records. -/
def attemptOf (session : SessionRecord) (target : TargetRecord) :
    ProjectedAttempt where
  sessionId := session.id
  targetId := target.id
  fixSignature := target.id
  familyId := target.familyId
  finishedAt := session.finishedAt
  status := target.status
  deliveryMode := target.deliveryMode
  reasonCode := target.reasonCode
  sourceSha := session.sourceSha
  prUrl := target.prUrl
  issueUrl := target.issueUrl
  targetHeadSha := target.headSha

/-- Every archived attempt, in ledger order. -/
def attemptsOf (sessions : List SessionRecord) : List ProjectedAttempt :=
  sessions.flatMap fun session => session.targets.map (attemptOf session)

/-- The state an event records for its artifact, with the artifact. -/
def artifactOf (e : MaintEvent) : Option (String × ProjectedArtifactState) :=
  e.url.map fun url => (url,
    { url := url, kind := e.kind, observedAt := e.observedAt,
      newState := e.newState, headSha := e.headSha })

/-- The last event about an artifact, in the order of observation. -/
def latestEvent (events : List MaintEvent) (url : String) : Option MaintEvent :=
  ((sortBy compareObserved events).filter fun e => e.url = some url).getLast?

/-- The lifecycle kind an artifact was last observed in, if it ever was. -/
def latestKind (events : List MaintEvent) (url : String) :
    Option MaintEventKind :=
  (latestEvent events url).map fun e => e.kind

/-- The archived rows with an id, over all sessions. -/
def rowsUnder (sessions : List SessionRecord) (sig : String) :
    List TargetRecord :=
  (sessions.flatMap fun session => session.targets).filter fun t => t.id = sig

/-- The latest state of each artifact: events in the order of observation,
each overwriting what stood under its URL. -/
def projectArtifactsByObservedAt (events : List MaintEvent) :
    Std.ExtTreeMap String ProjectedArtifactState :=
  insertAll compare ((sortBy compareObserved events).filterMap artifactOf)

/-- An event as the reports show it. -/
def maintenanceEventOf (e : MaintEvent) : ProjectedMaintenanceEvent where
  sessionId := e.sessionId
  kind := e.kind
  observedAt := e.observedAt
  targetId := e.targetId
  newState := e.newState
  prUrl := e.prUrl
  issueUrl := e.issueUrl

/-- The events of each session, sorted. -/
def projectMaintenanceEventsBySession (events : List MaintEvent) :
    Std.ExtTreeMap String (List ProjectedMaintenanceEvent) :=
  (group compare (fun e => e.sessionId) (events.map maintenanceEventOf)).map
    fun _ es => sortBy compareMaintenance es

/-- Attempts filed under their family, and in each family under their
signature. -/
def byFamilySignature (attempts : List ProjectedAttempt) :
    Std.ExtTreeMap String (Std.ExtTreeMap String (List ProjectedAttempt)) :=
  accumulate compare (fun a => a.familyId)
    (record compare (fun a => a.fixSignature) (fun g a => g ++ [a]) []) ∅ attempts

/-- The signatures of one family, from its attempts by signature. -/
def projectSignatures
    (bySignature : Std.ExtTreeMap String (List ProjectedAttempt)) :
    List ProjectedSignature :=
  sortBy compareSignatures (bySignature.toList.map fun p =>
    { fixSignature := p.fst, attempts := sortAttemptsNewestFirst p.snd })

namespace HistoryProjection

/-- The view built from parsed ledgers. -/
def fromLedgers (sessions : List SessionRecord) (events : List MaintEvent) :
    HistoryProjection where
  sessions := sessions
  attemptsBySignature :=
    (group compare (fun a => a.fixSignature) (attemptsOf sessions)).map
      fun _ as => sortAttemptsNewestFirst as
  signaturesByFamily :=
    (byFamilySignature (attemptsOf sessions)).map
      fun _ bySignature => projectSignatures bySignature
  artifactsByUrl := projectArtifactsByObservedAt events
  maintenanceEventsBySession := projectMaintenanceEventsBySession events

/-- Attempts under an exact signature, newest first. -/
def attemptsForSignature (h : HistoryProjection) (fixSignature : String) :
    List ProjectedAttempt :=
  (h.attemptsBySignature[fixSignature]?).getD []

/-- Signatures tried in a family, newest first. -/
def signaturesForFamily (h : HistoryProjection) (familyId : String) :
    List ProjectedSignature :=
  (h.signaturesByFamily[familyId]?).getD []

/-- All signatures, family by family. -/
def signatures (h : HistoryProjection) : List ProjectedSignature :=
  h.signaturesByFamily.toList.flatMap Prod.snd

/-- Latest state of a pull request or issue. -/
def latestArtifactState (h : HistoryProjection) (url : String) :
    Option ProjectedArtifactState :=
  h.artifactsByUrl[url]?

/-! ## What the view holds -/

variable {sessions : List SessionRecord} {events : List MaintEvent}

variable (sessions events) in
/-- **The attempts under a signature are the archived rows with that id**, in
some order. -/
theorem attemptsForSignature_perm (sig : String) :
    ((fromLedgers sessions events).attemptsForSignature sig).Perm
      (under (fun a => a.fixSignature) sig (attemptsOf sessions)) := by
  unfold attemptsForSignature fromLedgers
  simp only [Std.ExtTreeMap.getElem?_map, getElem?_group]
  split
  case isTrue h => exact sortBy_perm _ _
  case isFalse h =>
    rw [under_eq_nil_iff.mpr h]
    exact List.Perm.nil

/-- The attempts of a family by signature are the family's attempts,
grouped. -/
theorem getElem?_byFamilySignature {attempts : List ProjectedAttempt}
    {familyId : String} : (byFamilySignature attempts)[familyId]?
      = if familyId ∈ attempts.map fun a => a.familyId then
          some (group compare (fun a => a.fixSignature)
            (under (fun a => a.familyId) familyId attempts))
        else none := by
  rw [byFamilySignature, getElem?_accumulate]
  rfl

/-- In one family a signature is listed once, if it occurs there. -/
theorem count_projectSignatures {attempts : List ProjectedAttempt}
    {sig : String} :
    ((projectSignatures (group compare (fun a => a.fixSignature)
        attempts)).map fun s => s.fixSignature).count sig
      = if sig ∈ attempts.map fun a => a.fixSignature then 1 else 0 := by
  set m := group compare (fun a : ProjectedAttempt => a.fixSignature) attempts
    with hm
  have hperm : ((projectSignatures m).map fun s => s.fixSignature).Perm
      (m.toList.map Prod.fst) := by
    refine ((sortBy_perm _ _).map _).trans ?_
    rw [List.map_map]
    exact List.Perm.refl _
  rw [hperm.count_eq]
  have hmem : sig ∈ m.toList.map Prod.fst
      ↔ sig ∈ attempts.map fun a => a.fixSignature := by
    rw [Std.ExtTreeMap.map_fst_toList_eq_keys, Std.ExtTreeMap.mem_keys, hm,
      group, mem_accumulate]
  split
  case isTrue h =>
    exact List.count_eq_one_of_mem nodup_fst_toList (hmem.mpr h)
  case isFalse h =>
    exact List.count_eq_zero_of_not_mem fun hc => h (hmem.mp hc)

/-- **A signature is listed as often as there are families it occurs in.** -/
theorem count_signatures (sig : String) :
    (((fromLedgers sessions events).signatures.map
        fun s => s.fixSignature).count sig)
      = ((under (fun a => a.fixSignature) sig (attemptsOf sessions)).map
          fun a => a.familyId).toFinset.card := by
  unfold signatures
  rw [List.map_flatMap]
  refine count_flatMap_toList (fun p hp => ?_) fun familyId h => ?_
  · obtain ⟨familyId, sigs⟩ := p
    rw [Std.ExtTreeMap.mem_toList_iff_getElem?_eq_some] at hp
    simp only [fromLedgers, Std.ExtTreeMap.getElem?_map,
      getElem?_byFamilySignature] at hp
    split at hp
    case isTrue hfam =>
      obtain rfl := Option.some.inj hp
      rw [count_projectSignatures]
      refine if_congr ?_ rfl rfl
      simp only [List.mem_toFinset, List.mem_map, mem_under]
      constructor
      · rintro ⟨a, ⟨ha, hf⟩, hs⟩
        exact ⟨a, ⟨ha, hs⟩, hf⟩
      · rintro ⟨a, ⟨ha, hs⟩, hf⟩
        exact ⟨a, ⟨ha, hf⟩, hs⟩
    case isFalse hfam => simp at hp
  · simp only [List.mem_toFinset, List.mem_map, mem_under] at h
    obtain ⟨a, ⟨ha, _⟩, rfl⟩ := h
    simp only [fromLedgers, Std.ExtTreeMap.mem_map, byFamilySignature,
      mem_accumulate]
    exact List.mem_map_of_mem ha

/-- What is written under a URL comes from the events about it. -/
theorem under_artifactOf (l : List MaintEvent) (url : String) :
    (under Prod.fst url (l.filterMap artifactOf)).map Prod.snd
      = (l.filter fun e => e.url = some url).map fun e =>
          ⟨url, e.kind, e.observedAt, e.newState, e.headSha⟩ := by
  induction l with
  | nil => rfl
  | cons e l ih =>
    unfold under at ih ⊢
    cases hu : e.url with
    | none =>
      have hart : artifactOf e = none := by rw [artifactOf, hu]; rfl
      rw [List.filterMap_cons_none hart, ih]
      simp [hu]
    | some url' =>
      have hart : artifactOf e = some (url',
          { url := url', kind := e.kind, observedAt := e.observedAt,
            newState := e.newState, headSha := e.headSha }) := by
        rw [artifactOf, hu]
        rfl
      rw [List.filterMap_cons_some hart]
      by_cases hurl : url' = url <;> simp [hu, hurl, ih]

variable (sessions events) in
/-- **The latest state of an artifact is the state its last event records.** -/
theorem latestArtifactState_eq (url : String) :
    (fromLedgers sessions events).latestArtifactState url
      = (latestEvent events url).map fun e =>
          ⟨url, e.kind, e.observedAt, e.newState, e.headSha⟩ := by
  have hget : (fromLedgers sessions events).latestArtifactState url
      = ((under Prod.fst url ((sortBy compareObserved events).filterMap
          artifactOf)).getLast?).map Prod.snd := getElem?_insertAll
  rw [hget, latestEvent, ← List.getLast?_map, ← List.getLast?_map, under_artifactOf]

variable (sessions events) in
theorem kind_latestArtifactState (url : String) :
    ((fromLedgers sessions events).latestArtifactState url).map
        (fun s => s.kind) = latestKind events url := by
  rw [latestArtifactState_eq, latestKind, Option.map_map]
  rfl

/-- What is read off the attempts under a signature can be read off the
archived rows with that id. -/
theorem map_under_attemptsOf {β : Type} {g : ProjectedAttempt → β}
    (g' : TargetRecord → β) (hg : ∀ s t, g (attemptOf s t) = g' t)
    (sig : String) :
    (under (fun a => a.fixSignature) sig (attemptsOf sessions)).map g
      = (rowsUnder sessions sig).map g' := by
  unfold attemptsOf rowsUnder under
  induction sessions with
  | nil => rfl
  | cons s sessions ih =>
    rw [List.flatMap_cons, List.flatMap_cons, List.filter_append,
      List.filter_append, List.map_append, List.map_append, ih,
      List.filter_map, List.map_map]
    congr 1
    exact List.map_congr_left fun t _ => hg s t

end HistoryProjection
