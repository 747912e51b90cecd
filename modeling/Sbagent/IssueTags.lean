import Sbagent.Published

/-!
# Whose issue a tag finds

An issue is found again by a tag in its body, made of the ids of the session and of the
target. GitHub finds a tag wherever the body has it as a part, and a tag has no end of its
own: the tag of one target may be the beginning of the tag of another, and then the issue
of the other is taken for its own. Its push opens nothing, and returns.

The tag of a target is found in the body of another one's issue in three places: in the
text, at the beginning of the other tag, and behind that. There is no fourth, because the
rest of the body has no letter that a tag begins with (`apart_iff`).
-/

open Fallible

/-! ## Where a part begins -/

section BeginsIn

variable {α : Type} {l xs ys zs : List α} {c : α}

/-- The list `l` is a part of `xs ++ ys` that begins in `xs`. -/
def BeginsIn (l : List α) : List α → List α → Prop
  | [], _ => False
  | x :: xs, ys => l <+: x :: (xs ++ ys) ∨ BeginsIn l xs ys

instance decidableBeginsIn [DecidableEq α] (l : List α) : ∀ xs ys, Decidable (BeginsIn l xs ys)
  | [], _ => inferInstanceAs (Decidable False)
  | _ :: xs, ys =>
    have := decidableBeginsIn l xs ys
    inferInstanceAs (Decidable (_ ∨ _))

/-- A part begins in the first of two lists, or is a part of the second. -/
theorem infix_append_iff_beginsIn : l <:+: xs ++ ys ↔ BeginsIn l xs ys ∨ l <:+: ys := by
  induction xs with
  | nil => exact (or_iff_right not_false).symm
  | cons x xs ih => rw [List.cons_append, List.infix_cons_iff, ih, BeginsIn, or_assoc]

/-- A part does not begin where its first element is not. -/
theorem not_beginsIn_of_not_mem (h : c ∉ xs) : ¬ BeginsIn (c :: l) xs ys := by
  induction xs with
  | nil => exact not_false
  | cons x xs ih =>
    obtain ⟨hne, hrest⟩ := not_or.mp (List.mem_cons.not.mp h)
    rintro (hbegun | hbegins)
    · exact hne (List.cons_prefix_cons.mp hbegun).left
    · exact ih hrest hbegins

/-- A part without some element ends before it. -/
theorem prefix_append_cons_iff (h : c ∉ l) : l <+: xs ++ c :: ys ↔ l <+: xs := by
  constructor
  · intro hbegun
    obtain hbegun | ⟨rest, rfl⟩ := List.prefix_or_prefix_of_prefix hbegun (List.prefix_append _ _)
    · exact hbegun
    · rw [List.prefix_append_right_inj] at hbegun
      cases rest with
      | nil => rw [List.append_nil]
      | cons r rest =>
        rw [(List.cons_prefix_cons.mp hbegun).left] at h
        exact absurd (List.mem_append_right _ List.mem_cons_self) h
  · exact fun hbegun => hbegun.trans (List.prefix_append _ _)

theorem beginsIn_cons_iff (hc : c ∉ l) (hl : l ≠ []) : BeginsIn l xs (c :: ys) ↔ l <:+: xs := by
  induction xs with
  | nil => exact (iff_of_false not_false fun h => hl (List.infix_nil.mp h))
  | cons x xs ih =>
    rw [BeginsIn, ih, List.infix_cons_iff, ← List.cons_append, prefix_append_cons_iff hc]

end BeginsIn

/-! ## The tag of a target, and the issue of another -/

/-- **The tag of a target is not found in the issue of another one** of the session: it is
not the beginning of the other tag, and is mentioned neither in the text nor later in the
tag. -/
structure Apart (sid a b text : String) : Prop where
  beginning : ¬ a.toList <+: b.toList ++ " -->\n".toList
  text : ¬ BeginsIn (traceTagOf sid a).toList text.toList
    ("\n\n<!-- ".toList ++ ((traceTagOf sid b).toList ++ " -->\n".toList))
  later : ¬ BeginsIn (traceTagOf sid a).toList (traceTagOf sid b).toList.tail " -->\n".toList

section Tags

variable {sid a b text : String}

/-- What the tags of a session begin with, without the first letter. -/
def tagStart (sid : String) : List Char := ("gentic-" ++ sid ++ "-").toList

theorem toList_traceTagOf (sid id : String) :
    (traceTagOf sid id).toList = 'a' :: (tagStart sid ++ id.toList) := by
  simp [traceTagOf, tagStart, String.toList_append, toString]

/-- **There is no other place for a tag.** -/
theorem apart_iff : Apart sid a b text ↔ Text.contains
    (text ++ "\n\n<!-- " ++ traceTagOf sid b ++ " -->\n") (traceTagOf sid a) = false := by
  have hintro : ¬ BeginsIn (traceTagOf sid a).toList "\n\n<!-- ".toList
      ((traceTagOf sid b).toList ++ " -->\n".toList) := by
    rw [toList_traceTagOf]
    exact not_beginsIn_of_not_mem (by decide)
  have hclose : ¬ (traceTagOf sid a).toList <:+: " -->\n".toList := by
    rw [toList_traceTagOf]
    exact fun h => absurd (h.subset List.mem_cons_self) (by decide)
  have htag : BeginsIn (traceTagOf sid a).toList (traceTagOf sid b).toList " -->\n".toList
      ↔ a.toList <+: b.toList ++ " -->\n".toList
        ∨ BeginsIn (traceTagOf sid a).toList (traceTagOf sid b).toList.tail " -->\n".toList := by
    rw [toList_traceTagOf sid b, BeginsIn, toList_traceTagOf sid a, List.append_assoc,
      List.cons_prefix_cons, List.prefix_append_right_inj]
    exact or_congr_left (and_iff_right rfl)
  unfold Text.contains
  rw [decide_eq_false_iff_not, String.toList_append, String.toList_append, String.toList_append,
    List.append_assoc, List.append_assoc, infix_append_iff_beginsIn, infix_append_iff_beginsIn,
    infix_append_iff_beginsIn, or_iff_right hintro, or_iff_left hclose, htag]
  constructor
  · rintro ⟨hbeginning, htext, hlater⟩ (h | h | h)
    · exact htext h
    · exact hbeginning h
    · exact hlater h
  · exact fun h => ⟨fun hb => h (Or.inr (Or.inl hb)), fun ht => h (Or.inl ht),
      fun hl => h (Or.inr (Or.inr hl))⟩

/-- Ids without a blank, of a session too: nothing of the comment around the tag matters. -/
theorem apart_iff_of_noBlank (hsid : ' ' ∉ sid.toList) (ha : ' ' ∉ a.toList) :
    Apart sid a b text ↔ ¬ a.toList <+: b.toList
      ∧ ¬ BeginsIn (traceTagOf sid a).toList text.toList
        ("\n\n<!-- ".toList ++ ((traceTagOf sid b).toList ++ " -->\n".toList))
      ∧ ¬ (traceTagOf sid a).toList <:+: (traceTagOf sid b).toList.tail := by
  have hstart : ' ' ∉ (traceTagOf sid a).toList := by
    rw [toList_traceTagOf]
    simpa [tagStart, String.toList_append] using ⟨hsid, ha⟩
  have hne : (traceTagOf sid a).toList ≠ [] := by
    rw [toList_traceTagOf]
    exact List.cons_ne_nil _ _
  have hbeginning : a.toList <+: b.toList ++ " -->\n".toList ↔ a.toList <+: b.toList :=
    prefix_append_cons_iff ha
  have hlater : BeginsIn (traceTagOf sid a).toList (traceTagOf sid b).toList.tail " -->\n".toList
      ↔ (traceTagOf sid a).toList <:+: (traceTagOf sid b).toList.tail :=
    beginsIn_cons_iff hstart hne
  constructor
  · exact fun h => ⟨hbeginning.not.mp h.beginning, h.text, hlater.not.mp h.later⟩
  · exact fun ⟨h, htext, h'⟩ => ⟨hbeginning.not.mpr h, htext, hlater.not.mpr h'⟩

end Tags

/-! ## Pushing an issue -/

section Push

variable {cfg : PublishConfig} {t t' : MergedTarget} {r r' : PushRun} {s : PublishState}
  {texts texts' : String × String}

/-- Two states have the same issues. -/
def SameIssues (s s' : PublishState) : Prop := s'.issues = s.issues

/-- Noting an issue opens none, and closes none. -/
theorem sameIssues_writeFeedback (id : String) (pf : PublishFeedback)
    (i : Option (Calls.Interruption PublishCall)) (s : PublishState) :
    SameIssues s (Calls.perform i
      [(PublishCall.writeFeedback, fun s : PublishState => s.writeFeedback id pf)] s).snd := by
  refine Calls.perform_invariant (show SameIssues s s from rfl) fun c hc s₁ s₂ hinv hwrite => ?_
  rw [List.mem_singleton.mp hc] at hwrite
  obtain ⟨-, -, rfl⟩ := writeFeedback_ok_iff.mp hwrite
  exact hinv

/-- A push that nothing interrupts opens an issue, unless GitHub finds one. -/
theorem issues_pushIssue (hsmooth : r.interruption = none)
    (htexts : readTexts (s.artifacts t.id).issueTitle
      (readToString (s.artifacts t.id).issueBody) = Except.ok texts) :
    (pushIssue cfg t r s).snd.issues
      = if s.issueExists cfg (traceTagOf s.files.id t.id) = true then s.issues
        else newIssue cfg (traceTagOf s.files.id t.id) texts r :: s.issues := by
  unfold pushIssue
  rw [htexts, hsmooth]
  dsimp only
  rw [Calls.perform_none_cons rfl]
  split_ifs with hexists
  · rfl
  · rw [openIssueCalls, Calls.perform_none_cons rfl]
    have hsame := sameIssues_writeFeedback t.id ⟨none, some r.url, nowUtcIso8601 r.now⟩ none
      { s with issues := newIssue cfg (traceTagOf s.files.id t.id) texts r :: s.issues }
    unfold SameIssues at hsame
    rw [hsame]

/-- With one issue on GitHub, a tag is found in its body or nowhere. -/
theorem issueExists_iff
    (hopened : s.issues = [newIssue cfg (traceTagOf s.files.id t'.id) texts' r']) :
    s.issueExists cfg (traceTagOf s.files.id t.id) = false
      ↔ Apart s.files.id t.id t'.id texts'.snd := by
  rw [apart_iff]
  unfold PublishState.issueExists
  rw [hopened]
  simp [newIssue, Issue.body]

end Push

/-- **A target gets an issue of its own exactly when its tag is apart from the issue of the
other one**: with an issue opened for another target only, a push that nothing interrupts
opens one. -/
theorem pushIssue_opens_iff {cfg : PublishConfig} {t t' : MergedTarget} {r r' : PushRun}
    {s : PublishState} {texts texts' : String × String}
    (hopened : s.issues = [newIssue cfg (traceTagOf s.files.id t'.id) texts' r'])
    (htexts : readTexts (s.artifacts t.id).issueTitle
      (readToString (s.artifacts t.id).issueBody) = Except.ok texts)
    (hsmooth : r.interruption = none) :
    (pushIssue cfg t r s).snd.issues
        = newIssue cfg (traceTagOf s.files.id t.id) texts r :: s.issues
      ↔ Apart s.files.id t.id t'.id texts'.snd := by
  rw [issues_pushIssue hsmooth htexts, ← issueExists_iff hopened]
  cases hexists : s.issueExists cfg (traceTagOf s.files.id t.id) with
  | false => exact iff_of_true (if_neg Bool.false_ne_true) rfl
  | true =>
    rw [if_pos rfl]
    exact iff_of_false (fun h => absurd (congrArg List.length h) (by simp)) (by decide)

/-- The issue of one target is on GitHub. -/
def issueOpened (id : String) : PublishState :=
  let s := writtenState (measuredSession "20260614" id)
  { s with issues := [newIssue publishSettings (traceTagOf s.files.id id)
      ("Cache reads", "## Summary\n") cleanPush] }

/-- A target that is delivered as an issue. -/
def issueOf (id : String) : MergedTarget := issueTarget id [⟨"family", 0⟩]

/-- No id is the beginning of the other. -/
theorem pushIssue_opens_iff_fork : (pushIssue publishSettings (issueOf "fork-rule") cleanPush
      (issueOpened "cache-reads")).snd.issues
    = newIssue publishSettings (traceTagOf "20260614" "fork-rule")
        ("Cache reads", "## Summary\n") cleanPush :: (issueOpened "cache-reads").issues := by
  have hopened : (issueOpened "cache-reads").issues = [newIssue publishSettings (traceTagOf
      (issueOpened "cache-reads").files.id (issueOf "cache-reads").id)
      ("Cache reads", "## Summary\n") cleanPush] := rfl
  refine (pushIssue_opens_iff hopened ?_ rfl).mpr
    ⟨by decide +kernel, by decide +kernel, by decide +kernel⟩
  rfl

/-- The id of one target begins the id of the other, and the push of the first returns and
has opened nothing. -/
theorem not_opened_of_prefix : (issueOf "cache").id ≠ (issueOf "cache-reads").id
    ∧ (pushIssue publishSettings (issueOf "cache") cleanPush (issueOpened "cache-reads")).fst
      = Calls.returned
    ∧ (pushIssue publishSettings (issueOf "cache") cleanPush
        (issueOpened "cache-reads")).snd.issues = (issueOpened "cache-reads").issues := by
  refine ⟨by decide, ?_, ?_⟩
  · decide +kernel
  · decide +kernel
