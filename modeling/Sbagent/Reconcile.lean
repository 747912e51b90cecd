import Sbagent.Dedup
import Sbagent.Maintain

/-!
# What one call does to each artifact

A call goes through the candidates in ledger order. Those that are over are
passed over; of the others the first few are asked about, and the rest are
deferred. So the candidates that are not over fall into a first part that was
processed and a second one that was deferred – as long as what is deferred is
deferred one by one. When GitHub says that few requests are left, the rest of
the list is deferred as it stands, with the ones in it that are over.

What is known of an artifact is looked up by its URL, before the loop begins.
Two rows with one URL are two candidates that do not know of each other: both
are asked about, and both report what they find.
-/

open Fallible Keyed

namespace MaintainReconciler

/-- The candidates of a call that succeeds, in classes: those that are over;
the first of the others, which were processed; and the rest, which were
deferred, in order and each once. -/
structure Classified (m : MaintainReconciler) (events : List MaintEvent)
    (candidates queried : List ArtifactCandidate) (o : ReconcileOutcome)
    (processed unprocessed : List ArtifactCandidate) : Prop where
  split : alive (projectEvents events) candidates = processed ++ unprocessed
  reads : m.AllProcessed (projectEvents events) 0 processed
  /-- The processed ones were asked about, and perhaps one more, which was not
  processed because few requests were left. -/
  asked : queried = processed ∨ ∃ c rest, unprocessed = c :: rest
    ∧ queried = processed ++ [c]
    ∧ m.observe (projectEvents events) processed.length c
      = Except.ok Observation.lowRate
  deferred : (o.deferred.map fun d => d.url) = (unprocessed.map fun c => c.url)
  total : o.deferred.length + processed.length
      + (candidates.filter fun c => isTerminalIn (projectEvents events) c.url).length
    = candidates.length

variable (m : MaintainReconciler) (sessions : List SessionRecord)
  (events : List MaintEvent) (limit : ℕ)

/-- A call that succeeds puts every candidate in one class. -/
def Partitions : Prop :=
  ∀ candidates, candidatesFromSessions sessions = Except.ok candidates →
    ∀ o, (m.reconcile sessions events limit).2 = Except.ok o →
      ∃ processed unprocessed, m.Classified events candidates
        (m.reconcile sessions events limit).1 o processed unprocessed

/-- Behind a candidate at which few requests are left, none is over. -/
def AliveAfterLowRate : Prop :=
  ∀ candidates, candidatesFromSessions sessions = Except.ok candidates →
    ∀ pre c post, candidates = pre ++ c :: post →
      m.Reaches (projectEvents events) limit 0 pre c →
        m.observe (projectEvents events) (alive (projectEvents events) pre).length c
            = Except.ok Observation.lowRate →
          ∀ d ∈ post, isTerminalIn (projectEvents events) d.url = false

variable {m sessions events limit} {candidates pre post : List ArtifactCandidate}
  {c : ArtifactCandidate}

theorem reconcile_eq (h : candidatesFromSessions sessions = Except.ok candidates) :
    m.reconcile sessions events limit
      = m.reconcileFrom (projectEvents events) limit ⟨[], [], 0⟩ candidates := by
  unfold reconcile
  rw [h]

/-- What a call does that is told that few requests are left. -/
theorem reconcile_of_lowRate
    (hcands : candidatesFromSessions sessions = Except.ok (pre ++ c :: post))
    (hreach : m.Reaches (projectEvents events) limit 0 pre c)
    (hlow : m.observe (projectEvents events)
        (alive (projectEvents events) pre).length c = Except.ok Observation.lowRate) :
    m.reconcile sessions events limit
      = (alive (projectEvents events) pre ++ [c], Except.ok
          (((m.noteAll (projectEvents events) ⟨[], [], 0⟩
              (alive (projectEvents events) pre)).note none).defer (c :: post)
            "rate-limit-floor")) := by
  have hr := reconcileFrom_of_reaches (o := ⟨[], [], 0⟩) hreach post
  rw [Nat.zero_add, hlow] at hr
  rw [reconcile_eq hcands, hr]

/-- The last of the reads is not among the processed ones when it was told
that few requests are left. -/
theorem not_processed_of_lowRate {k : ℕ}
    (hlow : m.observe (projectEvents events) k c = Except.ok Observation.lowRate) :
    ¬ m.Processed (projectEvents events) k c := by
  rintro ⟨e, he⟩
  rw [hlow] at he
  cases he

/-- Where what is deferred is what was not processed, the classes add up. -/
theorem classified_of_deferred {queried processed unprocessed : List ArtifactCandidate}
    {o : ReconcileOutcome}
    (hsplit : alive (projectEvents events) candidates = processed ++ unprocessed)
    (hreads : m.AllProcessed (projectEvents events) 0 processed)
    (hasked : queried = processed ∨ ∃ c rest, unprocessed = c :: rest
      ∧ queried = processed ++ [c]
      ∧ m.observe (projectEvents events) processed.length c
        = Except.ok Observation.lowRate)
    (hdeferred : (o.deferred.map fun d => d.url) = (unprocessed.map fun c => c.url)) :
    m.Classified events candidates queried o processed unprocessed where
  split := hsplit
  reads := hreads
  asked := hasked
  deferred := hdeferred
  total := by
    have hlength := congrArg List.length hdeferred
    rw [List.length_map, List.length_map] at hlength
    rw [← length_alive_add (projectEvents events) candidates, hsplit, List.length_append,
      hlength, Nat.add_comm unprocessed.length]

/-- **A call partitions the candidates exactly when no candidate that is over
stands behind one at which few requests are left.** -/
theorem partitions_iff :
    m.Partitions sessions events limit ↔ m.AliveAfterLowRate sessions events limit := by
  constructor
  · intro h candidates hcands pre c post hsplit hreach hlow
    subst hsplit
    have hr := reconcile_of_lowRate hcands hreach hlow
    obtain ⟨processed, unprocessed, hclass⟩ := h _ hcands _ (congrArg Prod.snd hr)
    have hqueried := hclass.asked
    rw [hr] at hqueried
    have halive := hclass.split
    rw [alive_append, alive_cons_of_not hreach.notTerminal] at halive
    have hprocessed : processed = alive (projectEvents events) pre := by
      rcases hqueried with hq | ⟨d, rest, -, hq, -⟩
      · -- the candidate itself would have been processed
        have hall := hclass.reads
        rw [← hq] at hall
        have hproc := hall.of_append.right.left
        rw [Nat.zero_add] at hproc
        exact absurd hproc (not_processed_of_lowRate hlow)
      · exact (List.append_inj_left' hq rfl).symm
    -- what is put off is counted by its length, so nobody in it may be over
    have hlength : (alive (projectEvents events) post).length = post.length := by
      have hdeferred := congrArg List.length hclass.deferred
      rw [hprocessed, List.append_cancel_left_eq] at halive
      rw [← halive] at hdeferred
      simpa [ReconcileOutcome.defer, noteAll, ReconcileOutcome.note] using hdeferred.symm
    exact alive_eq_self_iff.mp hlength
  · intro h candidates hcands o ho
    rw [reconcile_eq hcands] at ho ⊢
    -- a call ends with an error, where few requests are left, or at the limit or the end
    rcases reconcileFrom_cases m (projectEvents events) ⟨[], [], 0⟩ (Nat.zero_le limit)
      candidates with ⟨pre, c, post, e, -, -, hr⟩ | ⟨pre, c, post, rfl, hreach, hlow, hr⟩
      | ⟨pre, rest, rfl, -, hall, -, hr⟩
    · rw [hr] at ho
      cases ho
    · rw [hr] at ho ⊢
      obtain rfl := Except.ok.inj ho
      rw [Nat.zero_add] at hlow
      have hpost := h _ hcands pre c post rfl hreach hlow
      have hpost : alive (projectEvents events) post = post :=
        List.filter_eq_self.mpr fun d hd => by simp [hpost d hd]
      have hsplit : alive (projectEvents events) (pre ++ c :: post)
          = alive (projectEvents events) pre ++ c :: post := by
        rw [alive_append, alive_cons_of_not hreach.notTerminal, hpost]
      exact ⟨alive (projectEvents events) pre, c :: post, classified_of_deferred hsplit
        hreach.processed (Or.inr ⟨c, post, rfl, rfl, hlow⟩) (by
          simp [ReconcileOutcome.defer, noteAll, ReconcileOutcome.note])⟩
    · rw [hr] at ho ⊢
      obtain rfl := Except.ok.inj ho
      exact ⟨alive (projectEvents events) pre, alive (projectEvents events) rest,
        classified_of_deferred alive_append hall (Or.inl rfl)
          (by simp [ReconcileOutcome.defer, noteAll])⟩

/-- A session with one target that was published as a pull request. -/
def publishedSession (id url : String) : SessionRecord :=
  { abortedSession id "family" "fix" with
    targets := (abortedSession id "family" "fix").targets.map fun t =>
      { t with status := TargetStatus.accepted, statusStage := none, prUrl := some url } }

/-- GitHub with everything open, and so many requests left. -/
def openGithub (remaining : ℕ) : MaintainReconciler where
  gh := {
    queryPrState := fun _ _ _ _ => Except.ok
      ⟨⟨true, false, false, some "0123456", false, "2026-06-14T00:00:00Z"⟩,
        ⟨remaining, 5000⟩⟩
    queryIssueState := fun _ _ _ _ => Except.ok ⟨⟨true, false⟩, ⟨remaining, 5000⟩⟩ }
  settings := ⟨14, 10⟩
  now := 1781440496000000000

/-- A pull request was merged. -/
def mergedEvent (url : String) : MaintEvent where
  kind := MaintEventKind.prMerged
  observedAt := "2026-06-14T00:00:00Z"
  sessionId := "s2"
  targetId := some "fix"
  familyId := some "family"
  fixSignature := some "fix"
  prUrl := some url
  issueUrl := none
  priorState := some "open"
  newState := "merged"
  headSha := some "0123456"

/-- Few requests are left at the first of two pull requests, and the second is
merged: both are deferred. -/
theorem not_partitions_of_lowRate :
    ¬ (openGithub 1).Partitions
      [publishedSession "s1" "https://github.com/o/r/pull/1",
        publishedSession "s2" "https://github.com/o/r/pull/2"]
      [mergedEvent "https://github.com/o/r/pull/2"] 50 := by
  intro h
  obtain ⟨candidates, hcands, hcount⟩ : ∃ candidates, (candidatesFromSessions
      [publishedSession "s1" "https://github.com/o/r/pull/1",
        publishedSession "s2" "https://github.com/o/r/pull/2"]).toOption
        = some candidates
      ∧ (candidates.length, (candidates.filter fun c => isTerminalIn
          (projectEvents [mergedEvent "https://github.com/o/r/pull/2"]) c.url).length)
        = (2, 1) :=
    Option.map_eq_some_iff.mp (by decide +kernel)
  obtain ⟨o, ho, hdeferred⟩ : ∃ o, ((openGithub 1).reconcile
      [publishedSession "s1" "https://github.com/o/r/pull/1",
        publishedSession "s2" "https://github.com/o/r/pull/2"]
      [mergedEvent "https://github.com/o/r/pull/2"] 50).2.toOption = some o
      ∧ o.deferred.length = 2 :=
    Option.map_eq_some_iff.mp (by decide +kernel)
  obtain ⟨processed, unprocessed, hclass⟩ := h candidates (ok_of_toOption hcands) o
    (ok_of_toOption ho)
  obtain ⟨hall, hterminal⟩ := Prod.mk.inj hcount
  have htotal := hclass.total
  rw [hall, hterminal, hdeferred] at htotal
  omega

/-! ## One question for each artifact -/

variable (m sessions events limit) in
/-- A call asks about every URL at most once, whether it succeeds or not, and
reports at most one event about it. -/
def AsksOnce : Prop :=
  ((m.reconcile sessions events limit).1.map fun c => c.url).Nodup
    ∧ ∀ o, (m.reconcile sessions events limit).2 = Except.ok o →
      (o.newEvents.map MaintEvent.url).Nodup

variable (m sessions events limit) in
/-- A candidate that is reached has another URL than those in front of it. -/
def DistinctUrls : Prop :=
  ∀ candidates, candidatesFromSessions sessions = Except.ok candidates →
    ∀ pre c post, candidates = pre ++ c :: post →
      m.Reaches (projectEvents events) limit 0 pre c → ∀ d ∈ pre, d.url ≠ c.url

/-- Whether an artifact is over depends on its URL alone. -/
theorem mem_alive_of_url {d : ArtifactCandidate} (hd : d ∈ pre) (hurl : d.url = c.url)
    (hc : isTerminalIn (projectEvents events) c.url = false) :
    d ∈ alive (projectEvents events) pre :=
  mem_alive.mpr ⟨hd, by rw [hurl, hc]⟩

/-- A candidate that is reached is asked about, and so are those in front of
it that are not over. -/
theorem exists_asked_of_reaches
    (hcands : candidatesFromSessions sessions = Except.ok (pre ++ c :: post))
    (hreach : m.Reaches (projectEvents events) limit 0 pre c) :
    ∃ rest, (m.reconcile sessions events limit).1
      = alive (projectEvents events) pre ++ c :: rest := by
  have hr := reconcileFrom_of_reaches (o := ⟨[], [], 0⟩) hreach post
  rw [← reconcile_eq hcands] at hr
  cases hobs : m.observe (projectEvents events)
      (0 + (alive (projectEvents events) pre).length) c with
  | error e =>
    rw [hobs] at hr
    exact ⟨[], congrArg Prod.fst hr⟩
  | ok obs =>
    cases obs with
    | lowRate =>
      rw [hobs] at hr
      exact ⟨[], congrArg Prod.fst hr⟩
    | event e =>
      rw [hobs] at hr
      exact ⟨_, congrArg Prod.fst hr⟩

/-- What is asked about up to a candidate that is reached was reached. -/
theorem reaches_of_append {d : ArtifactCandidate} {l l' : List ArtifactCandidate}
    (hreach : m.Reaches (projectEvents events) limit 0 pre d)
    (h : alive (projectEvents events) pre ++ [d] = l ++ c :: l') :
    ∃ pre' post', pre ++ d :: post = pre' ++ c :: post'
      ∧ alive (projectEvents events) pre' = l
      ∧ m.Reaches (projectEvents events) limit 0 pre' c := by
  rcases l'.eq_nil_or_concat with rfl | ⟨l'', x, rfl⟩
  · obtain ⟨hl, hd⟩ := List.append_inj' h rfl
    obtain rfl := List.singleton_inj.mp hd
    exact ⟨pre, post, rfl, hl, hreach⟩
  · rw [List.concat_eq_append, ← List.cons_append, ← List.append_assoc] at h
    obtain ⟨pre', post', rfl, hpre', hreach'⟩ := reaches_of_processed
      hreach.withinLimit.le hreach.processed (List.append_inj_left' h rfl)
    exact ⟨pre', post' ++ d :: post, by rw [List.append_assoc, List.cons_append], hpre',
      hreach'⟩

/-- Whatever is asked about was reached. -/
theorem reaches_of_asked
    (hcands : candidatesFromSessions sessions = Except.ok candidates)
    {l l' : List ArtifactCandidate}
    (h : (m.reconcile sessions events limit).1 = l ++ c :: l') :
    ∃ pre post, candidates = pre ++ c :: post ∧ alive (projectEvents events) pre = l
      ∧ m.Reaches (projectEvents events) limit 0 pre c := by
  rw [reconcile_eq hcands] at h
  rcases reconcileFrom_cases m (projectEvents events) ⟨[], [], 0⟩ (Nat.zero_le limit)
    candidates with ⟨pre, d, post, e, rfl, hreach, hr⟩ | ⟨pre, d, post, rfl, hreach, -, hr⟩
    | ⟨pre, rest, rfl, hle, hall, -, hr⟩
  · rw [hr] at h
    exact reaches_of_append hreach h
  · rw [hr] at h
    exact reaches_of_append hreach h
  · rw [hr] at h
    obtain ⟨pre', post', rfl, hpre', hreach'⟩ := reaches_of_processed hle hall h
    exact ⟨pre', post' ++ rest, by rw [List.append_assoc, List.cons_append], hpre', hreach'⟩

/-- What is new is about what was asked. -/
theorem nodup_url_of_asked {o : ReconcileOutcome}
    (hasked : ((m.reconcile sessions events limit).1.map fun c => c.url).Nodup)
    (ho : (m.reconcile sessions events limit).2 = Except.ok o) :
    (o.newEvents.map MaintEvent.url).Nodup := by
  have hurls : ∀ cs : List ArtifactCandidate, (cs.map fun c => c.url).Nodup →
      (cs.map fun c => some c.url).Nodup := by
    intro cs hcs
    have hmap := hcs.map (Option.some_injective String)
    rw [List.map_map] at hmap
    exact hmap
  cases hcands : candidatesFromSessions sessions with
  | error e =>
    unfold reconcile at ho
    rw [hcands] at ho
    cases ho
  | ok candidates =>
    rw [reconcile_eq hcands] at hasked ho
    rcases reconcileFrom_cases m (projectEvents events) ⟨[], [], 0⟩ (Nat.zero_le limit)
      candidates with ⟨pre, d, post, e, -, -, hr⟩ | ⟨pre, d, post, -, -, -, hr⟩
      | ⟨pre, rest, -, -, -, -, hr⟩
    · rw [hr] at ho
      cases ho
    · rw [hr] at ho hasked
      obtain rfl := Except.ok.inj ho
      rw [List.map_append, List.nodup_append] at hasked
      simpa [ReconcileOutcome.defer, ReconcileOutcome.note, noteAll] using
        (hurls _ hasked.left).sublist (url_emitted_sublist 0 _)
    · rw [hr] at ho hasked
      obtain rfl := Except.ok.inj ho
      simpa [ReconcileOutcome.defer, noteAll] using
        (hurls _ hasked).sublist (url_emitted_sublist 0 _)

/-- **A call asks once about every artifact exactly when no two candidates
that it reaches have one URL.** -/
theorem asksOnce_iff :
    m.AsksOnce sessions events limit ↔ m.DistinctUrls sessions events limit := by
  constructor
  · rintro ⟨hasked, -⟩ candidates hcands pre c post rfl hreach d hd hurl
    obtain ⟨rest, hrest⟩ := exists_asked_of_reaches hcands hreach
    rw [hrest] at hasked
    exact nodup_map_iff_of_append.mp hasked _ c rest rfl d
      (mem_alive_of_url hd hurl hreach.notTerminal) hurl
  · intro h
    have hasked : ((m.reconcile sessions events limit).1.map fun c => c.url).Nodup := by
      cases hcands : candidatesFromSessions sessions with
      | error e =>
        unfold reconcile
        rw [hcands]
        exact List.nodup_nil
      | ok candidates =>
        refine nodup_map_iff_of_append.mpr fun l c l' hsplit d hd => ?_
        obtain ⟨pre, post, rfl, rfl, hreach⟩ := reaches_of_asked hcands hsplit
        exact h _ hcands pre c post rfl hreach d (mem_alive.mp hd).left
    exact ⟨hasked, fun o ho => nodup_url_of_asked hasked ho⟩

/-- The rows of two sessions name one pull request: it is asked about twice,
and twice reported as first seen. -/
theorem not_asksOnce_of_archived_twice :
    ¬ (openGithub 5000).AsksOnce
      [publishedSession "s1" "https://github.com/o/r/pull/1",
        publishedSession "s2" "https://github.com/o/r/pull/1"] [] 50 := by
  rintro ⟨hasked, -⟩
  revert hasked
  decide +kernel

end MaintainReconciler
