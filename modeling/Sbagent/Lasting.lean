import Sbagent.LedgerViews
import Sbagent.Merge
import Sbagent.Runs

/-!
# What history refuses for good

The two ledgers of an operator only grow: archiving adds the record of a session, and
keeping up with GitHub adds events. What is refused because of an open pull request or issue
is free again when that is no longer open. A merge and a failure are meant to be for good,
and they are, though not because of the policy, which only looks at the last event about an
artifact. It is the writer that does not ask about what is over, so that no event follows
one that says so (`about_of_run`).

Nothing is asked of the calls: GitHub may answer anything at any time, the clock may be put
back, rows may be left out, and a call that is cut off may lose any of its events. Only the
ledger that a run starts from is one whose events stand in the order in which they were
observed, so that its writer and its reader mean the same last event.
-/

open Fallible Keyed
open Std (ExtTreeMap)

/-- The two ledgers of an operator. -/
structure Ledgers where
  sessions : List SessionRecord
  events : List MaintEvent

/-- What is added to them. -/
inductive LedgerStep where
  | archive (r : SessionRecord)
  /-- A call, and those of its events that are left in the ledger. -/
  | maintain (round : Round) (left : List MaintEvent)

namespace Ledgers

def step (s : Ledgers) : LedgerStep → Option Ledgers
  | LedgerStep.archive r => some { s with sessions := s.sessions ++ [r] }
  | LedgerStep.maintain round left =>
    if left.Sublist (round.news s.events) then some { s with events := s.events ++ left }
    else none

/-- The policy's view. -/
def projection (s : Ledgers) (threshold : ℕ) : DedupProjection :=
  DedupProjection.fromLedgers s.sessions s.events threshold

/-- The events stand in the order in which they were observed. -/
structure InOrder (s : Ledgers) : Prop where
  observed : ObservedInOrder s.events
  ties : SameFieldOnTies s.events

/-! ## What is over -/

section Over

variable {s s' : Ledgers} {e : LedgerStep} {steps : List LedgerStep} {url sig : String}

theorem about_of_step (h : s.step e = some s')
    (hover : isTerminalIn (projectEvents s.events) url = true) :
    about url s'.events = about url s.events := by
  cases e with
  | archive r =>
    obtain rfl := Option.some.inj h
    rfl
  | maintain round left =>
    unfold step at h
    dsimp only at h
    split_ifs at h with hsub
    obtain rfl := Option.some.inj h
    have hnil : about url left = [] := by
      rw [← List.sublist_nil, ← about_news_of_terminal hover round]
      exact hsub.filter _
    show about url (s.events ++ left) = about url s.events
    rw [about_append, hnil, List.append_nil]

theorem isTerminalIn_of_about {events events' : List MaintEvent}
    (h : about url events' = about url events) :
    isTerminalIn (projectEvents events') url = isTerminalIn (projectEvents events) url := by
  unfold isTerminalIn
  rw [getElem?_projectEvents, getElem?_projectEvents, h]

/-- **Nothing is recorded about what is over.** -/
theorem about_of_run (hrun : Runs.run step s steps = some s')
    (hover : isTerminalIn (projectEvents s.events) url = true) :
    about url s'.events = about url s.events := by
  have hkeeps : ∀ q e q', about url q.events = about url s.events → step q e = some q' →
      about url q'.events = about url s.events := by
    intro q e q' hq hstep
    rw [about_of_step hstep (by rwa [isTerminalIn_of_about hq]), hq]
  exact Runs.run_invariant_of_step hkeeps rfl hrun

theorem rows_of_step (sig : String) (s : Ledgers) (e : LedgerStep) (s' : Ledgers)
    (hstep : step s e = some s') :
    rowsUnder s.sessions sig <+: rowsUnder s'.sessions sig := by
  cases e with
  | archive r =>
    obtain rfl := Option.some.inj hstep
    unfold rowsUnder
    rw [List.flatMap_append, List.filter_append]
    exact List.prefix_append _ _
  | maintain round left =>
    unfold step at hstep
    dsimp only at hstep
    split_ifs at hstep
    obtain rfl := Option.some.inj hstep
    exact List.prefix_rfl

/-- Rows are added. -/
theorem rows_of_run (hrun : Runs.run step s steps = some s') (sig : String) :
    rowsUnder s.sessions sig <+: rowsUnder s'.sessions sig :=
  Runs.run_invariant_of_step
    (fun q e q' hq hstep => List.IsPrefix.trans hq (rows_of_step sig q e q' hstep))
    List.prefix_rfl hrun

/-- **What was last seen to be over** is last seen so ever after. -/
theorem latestKind_of_run (hrun : Runs.run step s steps = some s') (horder : s.InOrder)
    {kind : MaintEventKind} (hkind : kind.isTerminal = true)
    (h : latestKind s.events url = some kind) : latestKind s'.events url = some kind := by
  have hlast : latestEvent s.events url = (about url s.events).getLast? :=
    latestEvent_eq horder.observed horder.ties url
  have hover : isTerminalIn (projectEvents s.events) url = true := by
    rw [(writer_eq s.events url).left, ← hlast]
    obtain ⟨e, he, hek⟩ := Option.map_eq_some_iff.mp h
    rw [he]
    show e.kind.isTerminal = true
    rw [hek, hkind]
  have habout := about_of_run hrun hover
  have hlast' : latestEvent s'.events url = (about url s'.events).getLast? := by
    unfold latestEvent
    refine congrArg List.getLast? (filter_sortBy_of_pairwise ?_)
    show (about url s'.events).Pairwise _
    rw [habout]
    exact pairwise_compareObserved horder.observed horder.ties url
  rw [latestKind, hlast', habout, ← hlast]
  exact h

end Over

/-! ## What is counted and refused -/

section Refused

variable {s s' : Ledgers} {steps : List LedgerStep} {sig : String} {threshold : ℕ}

/-- What a row was last seen as, if that is something that is over. -/
theorem seen_of_run (hrun : Runs.run step s steps = some s') (horder : s.InOrder)
    {o : Option String} {kind : MaintEventKind} (hkind : kind.isTerminal = true)
    (h : decide (o.bind (latestKind s.events) = some kind) = true) :
    decide (o.bind (latestKind s'.events) = some kind) = true := by
  rw [decide_eq_true_iff, Option.bind_eq_some_iff] at h ⊢
  obtain ⟨url, hurl, hseen⟩ := h
  exact ⟨url, hurl, latestKind_of_run hrun horder hkind hseen⟩

/-- Of more rows, no fewer meet a weaker test. -/
theorem length_filter_le_of_prefix {α : Type} {p q : α → Bool} {l l' : List α}
    (h : l <+: l') (hpq : ∀ a, p a = true → q a = true) :
    (l.filter p).length ≤ (l'.filter q).length := by
  rw [← List.countP_eq_length_filter, ← List.countP_eq_length_filter]
  exact (List.countP_mono_left fun a _ => hpq a).trans (h.sublist.countP_le)

/-- **No failure is forgotten.** -/
theorem unsuccessfulAttempts_of_run (hrun : Runs.run step s steps = some s')
    (horder : s.InOrder) : (s.projection threshold).unsuccessfulAttempts sig
      ≤ (s'.projection threshold).unsuccessfulAttempts sig := by
  have hrows := rows_of_run hrun sig
  unfold projection
  rw [DedupProjection.unsuccessfulAttempts_eq, DedupProjection.unsuccessfulAttempts_eq]
  refine Nat.mul_le_mul (Finset.card_le_card fun familyId hmem => ?_) ?_
  · rw [List.mem_toFinset] at hmem ⊢
    exact (hrows.map fun t => t.familyId).subset hmem
  · unfold archivedFailures
    refine Nat.add_le_add (Nat.add_le_add ?_ ?_) ?_
    · exact length_filter_le_of_prefix hrows fun _ h => h
    · exact length_filter_le_of_prefix hrows fun _ h => seen_of_run hrun horder rfl h
    · exact length_filter_le_of_prefix hrows fun _ h => seen_of_run hrun horder rfl h

theorem mergedPr_of_run (hrun : Runs.run step s steps = some s') (horder : s.InOrder)
    (h : ((s.projection threshold).stateAt sig).mergedPr.isSome = true) :
    ((s'.projection threshold).stateAt sig).mergedPr.isSome = true := by
  unfold projection at h ⊢
  rw [DedupProjection.isSome_mergedPr_stateAt, List.any_eq_true] at h ⊢
  obtain ⟨t, ht, hmerged⟩ := h
  exact ⟨t, (rows_of_run hrun sig).subset ht, seen_of_run hrun horder rfl hmerged⟩

end Refused

end Ledgers

/-- What a state blocks with, if not with what is open, is there to stay as long as the
state has as much to say. -/
theorem DedupProjection.isSome_blockedBy_of_le {threshold : ℕ} {st st' : SignatureState}
    {r : String × String} (h : blockedBy threshold st = some r)
    (hreason : r.fst = dedupReasonMerged ∨ r.fst = dedupReasonRepeatedFailure)
    (hmerged : st.mergedPr.isSome = true → st'.mergedPr.isSome = true)
    (hcount : st.unsuccessfulAttempts ≤ st'.unsuccessfulAttempts) :
    (blockedBy threshold st').isSome = true := by
  have hfst := map_fst_blockedBy threshold st
  rw [h, Option.map_some] at hfst
  have hkept : st.mergedPr.isSome = true
      ∨ (0 < threshold ∧ threshold ≤ st.unsuccessfulAttempts) := by
    split_ifs at hfst with hpr hissue hpr' hfailed
    · rw [Option.some.inj hfst] at hreason
      exact absurd hreason (by decide)
    · rw [Option.some.inj hfst] at hreason
      exact absurd hreason (by decide)
    · exact Or.inl hpr'
    · exact Or.inr hfailed
  rw [← Option.isSome_map (f := Prod.fst), map_fst_blockedBy]
  split_ifs with hpr hissue hpr' hfailed
  · rfl
  · rfl
  · rfl
  · rfl
  · obtain hsome | ⟨hpos, hle⟩ := hkept
    · exact absurd (hmerged hsome) hpr'
    · exact absurd ⟨hpos, hle.trans hcount⟩ hfailed

/-- **What history refuses for good**: a fix that was merged or that failed too often is
refused from then on, in whatever family and place it comes up again, and the count of
failures never gets smaller. -/
theorem Ledgers.refused_for_good {s s' : Ledgers} {steps : List LedgerStep}
    (hrun : Runs.run Ledgers.step s steps = some s') (horder : s.InOrder) (threshold : ℕ) :
    (∀ familyId i t d, (s.projection threshold).decisionFor familyId i t = some d →
        d.reason = dedupReasonMerged ∨ d.reason = dedupReasonRepeatedFailure →
          ∀ familyId' i' t', t'.fixSignature = t.fixSignature →
            ((s'.projection threshold).decisionFor familyId' i' t').isSome = true)
      ∧ ∀ sig, (s.projection threshold).unsuccessfulAttempts sig
        ≤ (s'.projection threshold).unsuccessfulAttempts sig := by
  refine ⟨fun familyId i t d hd hreason familyId' i' t' hsig => ?_,
    fun sig => Ledgers.unsuccessfulAttempts_of_run hrun horder⟩
  rw [DedupProjection.decisionFor_eq] at hd
  obtain ⟨r, hr, rfl⟩ := Option.map_eq_some_iff.mp hd
  rw [DedupProjection.isSome_decisionFor, DedupProjection.blocks, hsig]
  exact DedupProjection.isSome_blockedBy_of_le hr hreason
    (Ledgers.mergedPr_of_run hrun horder) (Ledgers.unsuccessfulAttempts_of_run hrun horder)

/-! ## An example -/

/-- A pull request that was merged. -/
def mergedLedgers : Ledgers where
  sessions := [MaintainReconciler.publishedSession "s1" "https://github.com/o/r/pull/1"]
  events := [MaintainReconciler.mergedEvent "https://github.com/o/r/pull/1"]

/-- The fix is archived once more. -/
def archivedAgain : Ledgers :=
  { mergedLedgers with
    sessions := mergedLedgers.sessions
      ++ [MaintainReconciler.publishedSession "s2" "https://github.com/o/r/pull/2"] }

/-- A call that is told that everything is open, the merged pull request too. -/
def everythingOpen : Round := ⟨MaintainReconciler.openGithub 5000, archivedAgain.sessions, 10⟩

/-- The second attempt is reported, and the first stays merged. -/
theorem Ledgers.refused_for_good_merged :
    ∃ s', Runs.run Ledgers.step mergedLedgers
        [LedgerStep.archive (MaintainReconciler.publishedSession "s2"
            "https://github.com/o/r/pull/2"),
          LedgerStep.maintain everythingOpen (everythingOpen.news archivedAgain.events)]
        = some s'
      ∧ ∀ familyId i t, t.fixSignature = "fix" →
        ((s'.projection 2).decisionFor familyId i t).isSome = true := by
  have horder : mergedLedgers.InOrder :=
    ⟨observedInOrder_of_pairwise (List.pairwise_singleton _ _), fun a ha b hb _ _ => by
      rw [List.mem_singleton.mp ha, List.mem_singleton.mp hb]
      exact ⟨rfl, rfl⟩⟩
  have hnews : archivedAgain.step
      (LedgerStep.maintain everythingOpen (everythingOpen.news archivedAgain.events))
      = some ⟨archivedAgain.sessions,
        archivedAgain.events ++ everythingOpen.news archivedAgain.events⟩ := by
    unfold Ledgers.step
    exact if_pos (List.Sublist.refl _)
  have hrun : Runs.run Ledgers.step mergedLedgers
      [LedgerStep.archive (MaintainReconciler.publishedSession "s2"
          "https://github.com/o/r/pull/2"),
        LedgerStep.maintain everythingOpen (everythingOpen.news archivedAgain.events)]
      = some ⟨archivedAgain.sessions,
        archivedAgain.events ++ everythingOpen.news archivedAgain.events⟩ :=
    Runs.run_cons_eq_some_iff.mpr ⟨archivedAgain, rfl,
      Runs.run_cons_eq_some_iff.mpr ⟨_, hnews, rfl⟩⟩
  have hmerged : ((mergedLedgers.projection 2).decisionFor "family" 0
      (consensusFinding "fix")).map (fun d => d.reason) = some dedupReasonMerged := by
    decide +kernel
  obtain ⟨d, hd, hreason⟩ := Option.map_eq_some_iff.mp hmerged
  exact ⟨_, hrun, (Ledgers.refused_for_good hrun horder 2).left "family" 0
    (consensusFinding "fix") d hd (Or.inl hreason)⟩
