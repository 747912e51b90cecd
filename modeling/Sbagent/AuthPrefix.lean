import Sbagent.MaintainPush

/-!
# The host that the token is sent to

The token of the bot is sent along with requests to one host, the one of the prefix that is
configured. Whether a URL is on it is told by comparing texts: the prefix is made to end in a
slash, and a URL has to begin with it. This is enough for every host that one can think of,
look-alikes, users and ports included, because the slash ends the host inside the prefix
(`authority_append`).

It is not enough when there is no host in the prefix. `https://` begins with `https://` and
ends in a slash, so it passes for a prefix, and every URL that begins with it is on any host.
So does `https:///`, since git passes over a third slash on its way to the host. That the
prefix names a host is all that is missing (`confined_iff`).
-/

open Fallible

/-- What ends the host of a URL. -/
def endsAuthority (c : Char) : Bool := c = '/' || c = '?' || c = '#'

/-- The scheme of a URL. -/
def scheme (url : String) : List Char := url.toList.takeWhile (· ≠ ':')

/-- What is behind the slashes, of which git passes over one that is too many. -/
def behindSlashes : List Char → List Char
  | '/' :: cs => cs
  | cs => cs

/-- What a URL has between the slashes and what ends the host. -/
def authority (url : String) : List Char :=
  (behindSlashes ((url.toList.dropWhile (· ≠ ':')).drop 3)).takeWhile (!endsAuthority ·)

/-- The host of a URL, with the port and without the user. -/
def hostPort (url : String) : List Char := ((authority url).reverse.takeWhile (· ≠ '@')).reverse

/-- There is a host in a URL, and not just a port. -/
def namesHost (url : String) : Bool := (hostPort url).head?.any (· ≠ ':')

/-- The prefix of URLs that is used when none is configured. -/
def defaultGitAuthUrlPrefix : String := "https://github.com/"

/-- A prefix that is configured, made to end in a slash. -/
def normalizeAuthUrlPrefix (raw : String) : String :=
  if raw = "" ∨ Text.endsWith raw "/" = true then raw else raw ++ "/"

/-- The settings for git that say which URLs the token is for. -/
structure GitSettings where
  authUrlPrefix : Option String
  deriving DecidableEq

namespace GitSettings

/-- The prefix that is in effect, before it is checked. -/
def normalizedPrefix (g : GitSettings) : String :=
  (g.authUrlPrefix.map normalizeAuthUrlPrefix).getD defaultGitAuthUrlPrefix

/-- The prefix that is in effect. -/
def effectiveAuthUrlPrefix (g : GitSettings) : Fallible String := do
  bailIf (g.normalizedPrefix ≠ "" ∧ Text.startsWith g.normalizedPrefix "https://" = false)
    ("`git.auth_url_prefix = " ++ Text.debug (g.authUrlPrefix.getD "")
      ++ "` is invalid: a non-empty prefix MUST be an HTTPS URL (the PAT-via-extraheader "
      ++ "mechanism only sends the Basic credential over HTTPS, and "
      ++ "`http.<prefix>.extraheader` cannot apply to SSH or other non-HTTP remotes). Either "
      ++ "set it to your forge's `https://...` root (e.g. `https://gitlab.com/`) or set it to "
      ++ "`\"\"` for expert / unqualified mode.")
  Except.ok g.normalizedPrefix

end GitSettings

/-- The configuration entry of git that sends the token, as its key and its value; the first
argument is the base 64 encoding. -/
def authHeaderConfigEntries (encode : String → String) (token authUsername authUrlPrefix : String) :
    String × String :=
  (if authUrlPrefix = "" then "http.extraheader" else s!"http.{authUrlPrefix}.extraheader",
    "AUTHORIZATION: basic " ++ encode s!"{authUsername}:{token}")

/-- A key of the configuration makes git send the header to one host. -/
def ArmedFor (key : String) (host : List Char) : Prop :=
  ∃ p : String, key = s!"http.{p}.extraheader" ∧ hostPort p = host

/-- With these settings, a URL is one that the token is sent to. -/
def Accepts (g : GitSettings) (url label : String) : Prop :=
  ∃ p, g.effectiveAuthUrlPrefix = Except.ok p ∧ validateAuthUrl url p label = Except.ok ()

/-- **The token is for one host**, the one that the prefix names, and the slash at its end
makes no difference. -/
structure Confined (g : GitSettings) : Prop where
  named : ∀ p, g.effectiveAuthUrlPrefix = Except.ok p → p ≠ "" → namesHost p = true
  https : ∀ p url label, g.effectiveAuthUrlPrefix = Except.ok p → p ≠ "" →
    validateAuthUrl url p label = Except.ok () → scheme url = "https".toList
  host : ∀ p url label, g.effectiveAuthUrlPrefix = Except.ok p → p ≠ "" →
    validateAuthUrl url p label = Except.ok () → hostPort url = hostPort p
  armed : ∀ p url label encode token authUsername, g.effectiveAuthUrlPrefix = Except.ok p →
    p ≠ "" → validateAuthUrl url p label = Except.ok () →
      ArmedFor (authHeaderConfigEntries encode token authUsername p).fst (hostPort url)
  slash : ∀ raw url label, g.authUrlPrefix = some raw → raw ≠ "" →
    Text.endsWith raw "/" = false → (Accepts g url label ↔ Accepts ⟨some (raw ++ "/")⟩ url label)

section Prefix

variable {g : GitSettings} {p url label : String}

theorem endsWith_normalizeAuthUrlPrefix {raw : String} (h : raw ≠ "") :
    Text.endsWith (normalizeAuthUrlPrefix raw) "/" = true := by
  unfold normalizeAuthUrlPrefix
  split_ifs with hends
  · exact hends.resolve_left h
  · exact Text.endsWith_iff.mpr ⟨raw.toList, String.toList_append⟩

theorem effectiveAuthUrlPrefix_ok_iff : g.effectiveAuthUrlPrefix = Except.ok p
    ↔ (g.normalizedPrefix = "" ∨ Text.startsWith g.normalizedPrefix "https://" = true)
      ∧ g.normalizedPrefix = p := by
  unfold GitSettings.effectiveAuthUrlPrefix
  rw [bind_ok_iff]
  simp only [bailIf_ok_iff, exists_const, Except.ok.injEq]
  refine and_congr_left fun _ => ?_
  rw [not_and_or, not_not, Bool.not_eq_false]

theorem validateAuthUrl_ok_iff (hp : p ≠ "") :
    validateAuthUrl url p label = Except.ok () ↔ ∃ rest, url.toList = p.toList ++ rest := by
  unfold validateAuthUrl
  rw [if_neg hp, bailIf_ok_iff, Bool.not_eq_false, Text.startsWith_iff]

theorem behindSlashes_append {front : List Char} (h : front ≠ []) (rest : List Char) :
    behindSlashes (front ++ rest) = behindSlashes front ++ rest := by
  obtain ⟨c, cs, rfl⟩ := List.exists_cons_of_ne_nil h
  rw [List.cons_append]
  by_cases hc : c = '/'
  · subst hc
    rfl
  · have hkeep : ∀ l, behindSlashes (c :: l) = c :: l := by
      intro l
      unfold behindSlashes
      split
      case h_1 heq => exact absurd (List.cons.inj heq).left hc
      case h_2 => rfl
    rw [hkeep, hkeep]
    rfl

theorem authority_eq {front : List Char} (h : url.toList = "https://".toList ++ front) :
    authority url = (behindSlashes front).takeWhile (!endsAuthority ·) := by
  unfold authority
  rw [h]
  rfl

/-- What is added behind what ends the host makes no difference to it. -/
theorem takeWhile_append_of_ends {front : List Char} (h : ∃ c ∈ front, endsAuthority c = true)
    (rest : List Char) :
    (front ++ rest).takeWhile (!endsAuthority ·) = front.takeWhile (!endsAuthority ·) := by
  obtain ⟨c, hc, hends⟩ := h
  rw [List.takeWhile_append, if_neg]
  intro hlength
  have hall := List.takeWhile_eq_self_iff.mp
    ((List.takeWhile_prefix _).eq_of_length hlength) c hc
  rw [hends] at hall
  cases hall

/-- A prefix that names a host ends it in a slash. -/
theorem slash_mem_of_named {init : List Char}
    (hp : p.toList = "https://".toList ++ (init ++ ['/'])) (hnamed : namesHost p = true) :
    '/' ∈ behindSlashes (init ++ ['/']) := by
  cases init with
  | nil =>
    -- there is nothing behind a third slash
    unfold namesHost hostPort at hnamed
    rw [authority_eq hp] at hnamed
    exact absurd hnamed (by decide)
  | cons c init =>
    rw [show c :: init ++ ['/'] = [c] ++ (init ++ ['/']) from rfl,
      behindSlashes_append (List.cons_ne_nil c [])]
    exact List.mem_append_right _ (List.mem_append_right _ List.mem_cons_self)

/-- **The host of a URL ends where the host of its prefix does**, if there is one. -/
theorem authority_append {init rest : List Char}
    (hp : p.toList = "https://".toList ++ (init ++ ['/'])) (hnamed : namesHost p = true)
    (hurl : url.toList = p.toList ++ rest) : authority url = authority p := by
  have hne : init ++ ['/'] ≠ [] := List.append_ne_nil_of_right_ne_nil _ (List.cons_ne_nil _ _)
  rw [authority_eq (hurl.trans (by rw [hp, List.append_assoc])), authority_eq hp,
    behindSlashes_append hne]
  exact takeWhile_append_of_ends ⟨'/', slash_mem_of_named hp hnamed, rfl⟩ rest

/-- The slash that is added does not make a prefix begin with `https://`. -/
theorem startsWith_normalize_iff {raw : String} :
    Text.startsWith (normalizeAuthUrlPrefix raw) "https://" = true
      ↔ Text.startsWith raw "https://" = true := by
  unfold normalizeAuthUrlPrefix
  split_ifs with hends
  · exact Iff.rfl
  · rw [Text.startsWith_iff, Text.startsWith_iff, String.toList_append]
    constructor
    · rintro ⟨front, hfront⟩
      obtain rfl | ⟨init, c, rfl⟩ := List.eq_nil_or_concat front
      · -- then it would have had the second slash already
        have hraw : raw.toList = "https:/".toList := by
          have hsplit : "https://".toList ++ [] = "https:/".toList ++ "/".toList := by decide
          exact List.append_inj_left' (hfront.trans hsplit) rfl
        refine absurd (Or.inr (Text.endsWith_iff.mpr ⟨"https:".toList, ?_⟩)) hends
        rw [hraw]
        decide
      · rw [List.concat_eq_append, ← List.append_assoc] at hfront
        exact ⟨init, List.append_inj_left' hfront rfl⟩
    · rintro ⟨front, hfront⟩
      exact ⟨front ++ "/".toList, by rw [hfront, List.append_assoc]⟩

/-- The slash that is added to a prefix makes no difference to its host. -/
theorem namesHost_normalize {raw : String} (hraw : Text.startsWith raw "https://" = true) :
    namesHost (normalizeAuthUrlPrefix raw) = namesHost raw := by
  obtain ⟨front, hfront⟩ := Text.startsWith_iff.mp hraw
  unfold normalizeAuthUrlPrefix
  split_ifs with hends
  · rfl
  · have hne : front ≠ [] := by
      rintro rfl
      refine hends (Or.inr (Text.endsWith_iff.mpr ⟨"https:/".toList, ?_⟩))
      rw [hfront]
      decide
    have happend : (raw ++ "/").toList = "https://".toList ++ (front ++ ['/']) := by
      rw [String.toList_append, hfront, List.append_assoc]
      rfl
    have hsame : authority (raw ++ "/") = authority raw := by
      rw [authority_eq happend, authority_eq hfront, behindSlashes_append hne,
        List.takeWhile_append]
      split_ifs with hlength
      · rw [show ['/'].takeWhile (!endsAuthority ·) = [] from rfl, List.append_nil]
        exact ((List.takeWhile_prefix _).eq_of_length hlength).symm
      · rfl
    unfold namesHost hostPort
    rw [hsame]

/-- What is in effect and not empty: `https://`, and a text that is empty or ends in a slash. -/
theorem prefix_of_effective (h : g.effectiveAuthUrlPrefix = Except.ok p) (hp : p ≠ "") :
    ∃ front, p.toList = "https://".toList ++ front
      ∧ (front = [] ∨ ∃ init, front = init ++ ['/']) := by
  obtain ⟨hhttps, rfl⟩ := effectiveAuthUrlPrefix_ok_iff.mp h
  obtain ⟨front, hfront⟩ := Text.startsWith_iff.mp (hhttps.resolve_left hp)
  refine ⟨front, hfront, ?_⟩
  have hslash : Text.endsWith g.normalizedPrefix "/" = true := by
    unfold GitSettings.normalizedPrefix at hp ⊢
    cases hraw : g.authUrlPrefix with
    | none => rfl
    | some raw =>
      rw [hraw] at hp
      refine endsWith_normalizeAuthUrlPrefix ?_
      rintro rfl
      exact hp rfl
  obtain ⟨before, hbefore⟩ := Text.endsWith_iff.mp hslash
  refine (List.eq_nil_or_concat front).imp_right ?_
  rintro ⟨init, c, rfl⟩
  rw [hbefore, List.concat_eq_append, ← List.append_assoc] at hfront
  obtain ⟨-, hc⟩ := List.append_inj' hfront rfl
  exact ⟨init, by rw [List.concat_eq_append, ← hc]; rfl⟩

/-- A prefix that is configured and begins with `https://` names a host. -/
def NamesHost (g : GitSettings) : Prop :=
  ∀ raw, g.authUrlPrefix = some raw → Text.startsWith raw "https://" = true →
    namesHost raw = true

/-- The prefix in effect names one exactly when the configured one does. -/
theorem namesHost_iff : NamesHost g
    ↔ ∀ p, g.effectiveAuthUrlPrefix = Except.ok p → p ≠ "" → namesHost p = true := by
  unfold NamesHost
  simp only [effectiveAuthUrlPrefix_ok_iff]
  unfold GitSettings.normalizedPrefix
  cases hraw : g.authUrlPrefix with
  | none =>
    refine iff_of_true (fun _ h => nomatch h) fun p ⟨_, hp⟩ _ => ?_
    rw [← hp]
    decide
  | some raw =>
    rw [Option.map_some, Option.getD_some]
    constructor
    · rintro h p ⟨hhttps, rfl⟩ hne
      have hstarts := startsWith_normalize_iff.mp (hhttps.resolve_left hne)
      rw [namesHost_normalize hstarts]
      exact h raw rfl hstarts
    · intro h raw' heq hstarts
      obtain rfl := Option.some.inj heq
      have hnormal := startsWith_normalize_iff.mpr hstarts
      rw [← namesHost_normalize hstarts]
      refine h _ ⟨Or.inr hnormal, rfl⟩ ?_
      intro hempty
      rw [hempty] at hnormal
      exact absurd hnormal (by decide)

/-- The host of a URL is that of its prefix. -/
theorem hostPort_eq (h : g.effectiveAuthUrlPrefix = Except.ok p) (hp : p ≠ "")
    (hnamed : namesHost p = true) (hurl : validateAuthUrl url p label = Except.ok ()) :
    hostPort url = hostPort p := by
  obtain ⟨front, hfront, rfl | ⟨init, rfl⟩⟩ := prefix_of_effective h hp
  · -- `https://` names none
    unfold namesHost hostPort at hnamed
    rw [authority_eq hfront] at hnamed
    exact absurd hnamed (by decide)
  · obtain ⟨rest, hrest⟩ := (validateAuthUrl_ok_iff hp).mp hurl
    unfold hostPort
    rw [authority_append hfront hnamed hrest]

theorem scheme_eq (h : g.effectiveAuthUrlPrefix = Except.ok p) (hp : p ≠ "")
    (hurl : validateAuthUrl url p label = Except.ok ()) : scheme url = "https".toList := by
  obtain ⟨front, hfront, -⟩ := prefix_of_effective h hp
  obtain ⟨rest, hrest⟩ := (validateAuthUrl_ok_iff hp).mp hurl
  unfold scheme
  rw [hrest, hfront]
  rfl

/-- A slash at the end is there afterwards in any case. -/
theorem accepts_slash_iff {raw : String} (hraw : g.authUrlPrefix = some raw) (hne : raw ≠ "")
    (hends : Text.endsWith raw "/" = false) :
    Accepts g url label ↔ Accepts ⟨some (raw ++ "/")⟩ url label := by
  have hslash : Text.endsWith (raw ++ "/") "/" = true :=
    Text.endsWith_iff.mpr ⟨raw.toList, String.toList_append⟩
  have hnormal : g.normalizedPrefix = GitSettings.normalizedPrefix ⟨some (raw ++ "/")⟩ := by
    unfold GitSettings.normalizedPrefix
    rw [hraw, Option.map_some, Option.map_some, Option.getD_some, Option.getD_some]
    unfold normalizeAuthUrlPrefix
    rw [if_pos (Or.inr hslash), if_neg]
    rw [not_or, hends]
    exact ⟨hne, Bool.false_ne_true⟩
  unfold Accepts
  refine exists_congr fun p => and_congr_left fun _ => ?_
  rw [effectiveAuthUrlPrefix_ok_iff, effectiveAuthUrlPrefix_ok_iff, hnormal]

end Prefix

/-- A URL on a host that nobody configured. -/
def elsewhere : String := "https://evil.example/owner/repo.git"

/-- **The token is for one host exactly when the configured prefix names one.** -/
theorem confined_iff (g : GitSettings) : Confined g ↔ NamesHost g := by
  refine ⟨fun h => namesHost_iff.mpr h.named, fun hnames => ?_⟩
  have hnamed := namesHost_iff.mp hnames
  refine ⟨hnamed, ?_, ?_, ?_, ?_⟩
  · exact fun p url label h hp hurl => scheme_eq h hp hurl
  · exact fun p url label h hp hurl => hostPort_eq h hp (hnamed p h hp) hurl
  · intro p url label encode token authUsername h hp hurl
    refine ⟨p, if_neg hp, ?_⟩
    exact (hostPort_eq h hp (hnamed p h hp) hurl).symm
  · exact fun raw url label hraw hne hends => accepts_slash_iff hraw hne hends

/-- A URL on the same host for git, with a slash too many. -/
def elsewhereToo : String := "https:///evil.example/owner/repo.git"

/-- Two prefixes without a host pass, and then URLs on any host do. -/
theorem not_confined_https :
    (GitSettings.effectiveAuthUrlPrefix ⟨some "https://"⟩ = Except.ok "https://"
        ∧ validateAuthUrl elsewhere "https://" "remote" = Except.ok ()
        ∧ hostPort elsewhere = "evil.example".toList ∧ hostPort "https://" = [])
      ∧ GitSettings.effectiveAuthUrlPrefix ⟨some "https:///"⟩ = Except.ok "https:///"
        ∧ validateAuthUrl elsewhereToo "https:///" "remote" = Except.ok ()
        ∧ hostPort elsewhereToo = "evil.example".toList ∧ hostPort "https:///" = [] := by
  decide
