import Sbagent.AuthPrefix
import Sbagent.Slices
import Sbagent.SourceStart

/-!
# The id of a cache

A source is cloned through a cache whose directory is named by an id, and unless one is
configured the id is derived from the URL: a slug of the URL as far as it goes, and eight
hexadecimal digits of its hash. `source.json` records the id, and is only written if the id
is one that could have been configured.

The slug has the right characters and is short enough, and the hash ends it well. What is
not seen to is how it begins. An id begins with a letter, and the slug of a URL whose host
is a number begins with a digit, so that source is cloned and then not recorded
(`validateSourceId_deriveCacheId_iff`).

The URL is brought into a canonical form first, which is what is hashed. Forms of the same
URL have one form there (`canonicalize_url`). The other way around it is the host and the
path that are the same, with the letters in lower case; but a colon is as good as a slash,
be it the one before a port (`canonicalize_of_remoteOf`).
-/

open Fallible

/-! ## The derivation -/

/-- What a URL may begin with, in the order in which it is looked for. -/
def schemePrefixes : List String := ["ssh://git@", "https://", "http://", "git@"]

/-- A URL without what it begins with. -/
def withoutScheme (l : List Char) : List Char :=
  (schemePrefixes.findSome? fun pre => Text.stripPrefix l pre.toList).getD l

/-- A colon is replaced. -/
def slashed (c : Char) : Char := if c = ':' then '/' else c

/-- A URL without `.git` at its end. -/
def withoutDotGit (l : List Char) : List Char := (Text.stripSuffix l ".git".toList).getD l

/-- A URL without its scheme, in lower case. -/
def withoutSchemeLower (url : String) : List Char :=
  withoutScheme (Text.toAsciiLowercase (Text.trim url)).toList

/-- The canonical form of a URL. -/
def canonicalizeUrlForHashing (url : String) : String :=
  String.ofList (withoutDotGit ((withoutSchemeLower url).map slashed))

/-- A character that a slug keeps. -/
def isSlugChar (c : Char) : Bool := Text.isAsciiLower c || Text.isAsciiDigit c

/-- What a slug has for the rest of a text, after a dash or after something else. -/
def sluggifyFrom (lastWasDash : Bool) : List Char → List Char
  | [] => []
  | c :: cs =>
    if isSlugChar c then c :: sluggifyFrom false cs
    else if lastWasDash then sluggifyFrom true cs
    else '-' :: sluggifyFrom true cs

/-- A text as a slug. -/
def sluggify (l : List Char) : List Char := (sluggifyFrom true l).rdropWhile (· = '-')

/-- A slug, cut to a length. -/
def truncateSlug (slug : List Char) (maxChars : ℕ) : List Char :=
  if Text.byteLen (String.ofList slug) ≤ maxChars then slug
  else (slug.take maxChars).rdropWhile (· = '-')

/-- A byte in hexadecimal digits. -/
def hexByte (b : UInt8) : List Char :=
  [Nat.digitChar (b.toNat / 16), Nat.digitChar (b.toNat % 16)]

section Derivation

/- The digest of a text. -/
variable (sha256 : List UInt8 → Fin 32 → UInt8)

/-- The first four bytes of the hash of a canonical URL. -/
def urlHashPrefix (canonicalUrl : String) : List Char :=
  [0, 1, 2, 3].flatMap fun i => hexByte (sha256 (Slices.asBytes canonicalUrl) i)

/-- The id of a URL. -/
def deriveCacheId (sourceUrl : String) : String :=
  let canonical := canonicalizeUrlForHashing sourceUrl
  let slug := truncateSlug (sluggify canonical.toList) 55
  let hash := urlHashPrefix sha256 canonical
  if slug = [] then String.ofList ("repo-".toList ++ hash)
  else String.ofList (slug ++ '-' :: hash)

/-- The id that is configured, or else the one of the URL. -/
def resolveCacheId (pinned : Option String) (sourceUrl : String) : Except String String :=
  match pinned with
  | some id => (validateSourceId id).map fun _ => id
  | none => Except.ok (deriveCacheId sha256 sourceUrl)

end Derivation

/-! ## Which ids are valid -/

section Slug

variable {c : Char} {l : List Char}

/-- A character of an id. -/
def isIdChar (c : Char) : Bool := isSlugChar c || c = '-'

/-- Small letters by their codes. -/
theorem isAsciiLower_iff : Text.isAsciiLower c = true ↔ 97 ≤ c.toNat ∧ c.toNat ≤ 122 := by
  unfold Text.isAsciiLower
  rw [Bool.and_eq_true, decide_eq_true_iff, decide_eq_true_iff]
  exact Iff.rfl

/-- Digits by their codes. -/
theorem isAsciiDigit_iff : Text.isAsciiDigit c = true ↔ 48 ≤ c.toNat ∧ c.toNat ≤ 57 := by
  unfold Text.isAsciiDigit
  rw [Bool.and_eq_true, decide_eq_true_iff, decide_eq_true_iff]
  exact Iff.rfl

/-- Letters and digits by their codes. -/
theorem isSlugChar_iff : isSlugChar c = true
    ↔ (97 ≤ c.toNat ∧ c.toNat ≤ 122) ∨ 48 ≤ c.toNat ∧ c.toNat ≤ 57 := by
  unfold isSlugChar
  rw [Bool.or_eq_true, isAsciiLower_iff, isAsciiDigit_iff]

/-- What else an id may have is a dash. -/
theorem dash_of_isIdChar (h : isIdChar c = true) : isSlugChar c = true ∨ c.toNat = 45 := by
  refine (Bool.or_eq_true_iff.mp h).imp_right fun hdash => ?_
  rw [of_decide_eq_true hdash]
  rfl

/-- The characters of ids are single bytes. -/
theorem utf8Size_of_isIdChar (h : isIdChar c = true) : c.utf8Size = 1 := by
  rw [Char.utf8Size_eq_one_iff, UInt32.le_iff_toNat_le]
  show c.toNat ≤ 127
  obtain h | h := dash_of_isIdChar h
  · obtain ⟨-, h⟩ | ⟨-, h⟩ := isSlugChar_iff.mp h
    · exact h.trans (by decide)
    · exact h.trans (by decide)
  · exact h.le.trans (by decide)

/-- The characters of an id are its bytes. -/
theorem bytes_ofList (h : ∀ c ∈ l, isIdChar c = true) :
    (String.ofList l).toUTF8.data.toList.map UInt8.toNat = l.map Char.toNat := by
  rw [String.toUTF8_eq_toByteArray, String.toByteArray_ofList]
  induction l with
  | nil => rfl
  | cons c l ih =>
    obtain ⟨hc, hl⟩ := List.forall_mem_cons.mp h
    have hsize := utf8Size_of_isIdChar hc
    have hsmall := Char.utf8Size_eq_one_iff.mp hsize
    rw [List.utf8Encode_cons, List.utf8Encode_singleton, String.utf8EncodeChar_eq_singleton hsize,
      List.map_cons, ← ih hl]
    rw [ByteArray.data_append, Array.toList_append, List.map_append, List.toList_data_toByteArray,
      List.map_singleton, UInt32.toNat_toUInt8, Nat.mod_eq_of_lt]
    · rfl
    · exact (UInt32.le_iff_toNat_le.mp hsmall).trans_lt (by decide)

/-- **A text of the right characters, and the right length and end, is valid if it begins
with a letter.** -/
theorem validateSourceId_ofList_iff {first last : Char} {mid : List Char}
    (hchars : ∀ c ∈ first :: (mid ++ [last]), isIdChar c = true)
    (hlast : isSlugChar last = true) (hlength : (first :: (mid ++ [last])).length ≤ 64) :
    validateSourceId (String.ofList (first :: (mid ++ [last]))) = Except.ok ()
      ↔ Text.isAsciiLower first = true := by
  have hmid : (mid.map Char.toNat).findIdx? (fun b => ¬ ((97 ≤ b ∧ b ≤ 122)
      ∨ (48 ≤ b ∧ b ≤ 57) ∨ b = 45)) = none := by
    rw [List.findIdx?_eq_none_iff]
    intro b hb
    obtain ⟨c, hc, rfl⟩ := List.mem_map.mp hb
    have hid := hchars c (List.mem_cons_of_mem _ (List.mem_append_left _ hc))
    have hcode := (dash_of_isIdChar hid).imp_left isSlugChar_iff.mp
    exact decide_eq_false (not_not.mpr (or_assoc.mp hcode))
  unfold validateSourceId
  rw [bytes_ofList hchars, List.map_cons, List.map_append, List.map_singleton]
  dsimp only
  rw [if_neg, List.getLast?_concat, List.dropLast_concat]
  · dsimp only
    rw [if_neg (not_not.mpr (isSlugChar_iff.mp hlast)), hmid, isAsciiLower_iff]
    split_ifs with hfirst
    · exact iff_of_true rfl hfirst
    · exact iff_of_false (by rintro ⟨⟩) hfirst
  · rw [← List.map_singleton, ← List.map_append, ← List.map_cons, List.length_map]
    exact Nat.not_lt.mpr hlength

/-! ## The slug and the hash -/

/-- A slug has only characters of ids. -/
theorem isIdChar_of_mem_sluggifyFrom (d : Bool) : ∀ c ∈ sluggifyFrom d l, isIdChar c = true := by
  induction l generalizing d with
  | nil => exact fun c hc => absurd hc List.not_mem_nil
  | cons x l ih =>
    unfold sluggifyFrom
    split_ifs with hslug hdash
    · exact List.forall_mem_cons.mpr ⟨Bool.or_eq_true_iff.mpr (Or.inl hslug), ih false⟩
    · exact ih true
    · exact List.forall_mem_cons.mpr ⟨by decide, ih true⟩

/-- A slug begins with the first letter or digit that there is. -/
theorem head?_sluggifyFrom (l : List Char) :
    (sluggifyFrom true l).head? = l.find? isSlugChar := by
  induction l with
  | nil => rfl
  | cons x l ih =>
    unfold sluggifyFrom
    rw [List.find?_cons]
    cases hx : isSlugChar x with
    | true => rfl
    | false => exact ih

/-- Dropping from the end leaves a first character that stays. -/
theorem head?_rdropWhile {p : Char → Bool} (h : l.head? = some c) (hc : p c = false) :
    (l.rdropWhile p).head? = some c := by
  obtain ⟨rest, hrest⟩ := List.rdropWhile_prefix p (l := l)
  cases hdrop : l.rdropWhile p with
  | nil =>
    have hall := List.rdropWhile_eq_nil_iff.mp hdrop c (List.mem_of_head? h)
    rw [hc] at hall
    cases hall
  | cons y ys =>
    rw [← hrest, hdrop] at h
    exact h

theorem ne_dash_of_isSlugChar (h : isSlugChar c = true) : decide (c = '-') = false := by
  refine decide_eq_false ?_
  rintro rfl
  cases h

/-- A slug is cut off at its end. -/
theorem truncateSlug_isPrefix (l : List Char) (n : ℕ) : truncateSlug l n <+: l := by
  unfold truncateSlug
  split_ifs
  · exact List.prefix_rfl
  · exact (List.rdropWhile_prefix _ _).trans (List.take_prefix _ _)

/-- It is not longer than it is cut off to. -/
theorem length_truncateSlug_le (l : List Char) (n : ℕ) : (truncateSlug l n).length ≤ n := by
  unfold truncateSlug
  split_ifs with hshort
  · exact (Text.length_le_byteLen l).trans hshort
  · exact (List.rdropWhile_prefix _ _).length_le.trans (List.length_take_le _ _)

/-- Its first character stays. -/
theorem head?_truncateSlug {n : ℕ} (h : l.head? = some c) (hc : isSlugChar c = true)
    (hn : 0 < n) : (truncateSlug l n).head? = some c := by
  unfold truncateSlug
  split_ifs
  · exact h
  · refine head?_rdropWhile ?_ (ne_dash_of_isSlugChar hc)
    rw [List.head?_take, if_neg hn.ne', h]

/-- The slug in an id. -/
def idSlug (url : String) : List Char :=
  let slug := truncateSlug (sluggify (canonicalizeUrlForHashing url).toList) 55
  if slug = [] then "repo".toList else slug

/-- A slug begins with the first letter or digit of the text. -/
theorem head?_slug (l : List Char) :
    (truncateSlug (sluggify l) 55).head? = l.find? isSlugChar := by
  cases hfirst : l.find? isSlugChar with
  | none =>
    rw [← head?_sluggifyFrom, List.head?_eq_none_iff] at hfirst
    unfold sluggify
    rw [hfirst]
    rfl
  | some c =>
    have hc := List.find?_some hfirst
    rw [← head?_sluggifyFrom] at hfirst
    exact head?_truncateSlug (head?_rdropWhile hfirst (ne_dash_of_isSlugChar hc)) hc (by decide)

/-- The readable part of an id has only characters of ids. -/
theorem isIdChar_of_mem_idSlug (url : String) : ∀ c ∈ idSlug url, isIdChar c = true := by
  unfold idSlug
  dsimp only
  split_ifs
  · exact List.all_eq_true.mp rfl
  · intro c hc
    have hslug : c ∈ sluggify (canonicalizeUrlForHashing url).toList :=
      (truncateSlug_isPrefix _ _).subset hc
    exact isIdChar_of_mem_sluggifyFrom true c ((List.rdropWhile_prefix _ _).subset hslug)

/-- It has at most 55 of them. -/
theorem length_idSlug_le (url : String) : (idSlug url).length ≤ 55 := by
  unfold idSlug
  dsimp only
  split_ifs
  · decide
  · exact length_truncateSlug_le _ _

/-- The slug in an id begins with a letter unless the first letter or digit is a digit. -/
theorem head?_idSlug (url : String) : (idSlug url).head?
    = some (((canonicalizeUrlForHashing url).toList.find? isSlugChar).getD 'r') := by
  unfold idSlug
  dsimp only
  have hhead := head?_slug (canonicalizeUrlForHashing url).toList
  rw [← hhead]
  cases hslug : truncateSlug (sluggify (canonicalizeUrlForHashing url).toList) 55 with
  | nil => rfl
  | cons c rest => rfl

/-- The digits of a byte are letters and digits. -/
theorem isSlugChar_of_mem_hexByte (b : UInt8) : ∀ c ∈ hexByte b, isSlugChar c = true := by
  have hdigit : ∀ n < 16, isSlugChar (Nat.digitChar n) = true := by decide
  have hb : b.toNat / 16 < 16 := Nat.div_lt_of_lt_mul b.toNat_lt
  unfold hexByte
  refine List.forall_mem_cons.mpr ⟨hdigit _ hb, List.forall_mem_singleton.mpr ?_⟩
  exact hdigit _ (Nat.mod_lt _ (by decide))

section Hash

variable (sha256 : List UInt8 → Fin 32 → UInt8)

theorem length_urlHashPrefix (u : String) : (urlHashPrefix sha256 u).length = 8 := rfl

/-- So are those of the hash. -/
theorem isSlugChar_of_mem_urlHashPrefix (u : String) :
    ∀ c ∈ urlHashPrefix sha256 u, isSlugChar c = true := by
  intro c hc
  obtain ⟨i, -, hc⟩ := List.mem_flatMap.mp hc
  exact isSlugChar_of_mem_hexByte _ c hc

/-- **An id is a slug, a dash and a hash.** -/
theorem deriveCacheId_eq (url : String) :
    deriveCacheId sha256 url = String.ofList (idSlug url
      ++ '-' :: urlHashPrefix sha256 (canonicalizeUrlForHashing url)) := by
  unfold deriveCacheId idSlug
  dsimp only
  split_ifs
  · rfl
  · rfl

end Hash

/-! ## Where the slug begins -/

/-- Letters and digits stay when colons become slashes. -/
theorem slashed_of_isSlugChar (h : isSlugChar c = true) : slashed c = c := by
  unfold slashed
  rw [if_neg]
  rintro rfl
  cases h

/-- No other character becomes one. -/
theorem isSlugChar_slashed (c : Char) : isSlugChar (slashed c) = isSlugChar c := by
  unfold slashed
  split_ifs with hcolon
  · rw [hcolon]
    rfl
  · rfl

/-- The first letter or digit stays the first. -/
theorem find?_map_slashed (l : List Char) :
    (l.map slashed).find? isSlugChar = l.find? isSlugChar := by
  induction l with
  | nil => rfl
  | cons x l ih =>
    rw [List.map_cons, List.find?_cons, List.find?_cons, isSlugChar_slashed, ih]
    cases hx : isSlugChar x with
    | true => exact congrArg some (slashed_of_isSlugChar hx)
    | false => rfl

/-- The ending `.git` is cut off. -/
theorem withoutDotGit_of_suffix {front : List Char} :
    withoutDotGit (front ++ ".git".toList) = front := by
  unfold withoutDotGit Text.stripSuffix
  rw [if_pos (List.isSuffixOf_iff_suffix.mpr (List.suffix_append _ _)), List.length_append,
    Nat.add_sub_cancel, List.take_left]
  rfl

/-- Nothing else is. -/
theorem withoutDotGit_of_not_suffix (h : ¬ ".git".toList <:+ l) : withoutDotGit l = l := by
  unfold withoutDotGit Text.stripSuffix
  rw [if_neg (List.isSuffixOf_iff_suffix.not.mpr h)]
  rfl

/-- The first letter or digit of a URL; it is one of the id, unless it is the one of `.git`. -/
theorem find?_canonical (url : String) :
    (canonicalizeUrlForHashing url).toList.find? isSlugChar
        = (withoutSchemeLower url).find? isSlugChar
      ∨ (canonicalizeUrlForHashing url).toList.find? isSlugChar = none
        ∧ (withoutSchemeLower url).find? isSlugChar = some 'g' := by
  unfold canonicalizeUrlForHashing
  rw [String.toList_ofList, ← find?_map_slashed (withoutSchemeLower url)]
  generalize (withoutSchemeLower url).map slashed = l
  by_cases hgit : ".git".toList <:+ l
  · obtain ⟨front, rfl⟩ := hgit
    rw [withoutDotGit_of_suffix, List.find?_append]
    cases hfront : front.find? isSlugChar with
    | none => exact Or.inr ⟨rfl, rfl⟩
    | some c => exact Or.inl rfl
  · rw [withoutDotGit_of_not_suffix hgit]
    exact Or.inl rfl

/-- A URL whose first letter or digit, after the scheme, is a digit. -/
def DigitFirst (url : String) : Prop :=
  ((withoutSchemeLower url).find? isSlugChar).any Text.isAsciiDigit = true

/-- A letter or digit is the one or the other. -/
theorem not_isAsciiDigit_iff (h : isSlugChar c = true) :
    Text.isAsciiLower c = true ↔ ¬ Text.isAsciiDigit c = true := by
  rw [isAsciiLower_iff, isAsciiDigit_iff]
  have hslug := isSlugChar_iff.mp h
  omega

/-- An id begins with a letter exactly when the address does not begin with a digit. -/
theorem isAsciiLower_first_iff (url : String) :
    Text.isAsciiLower (((canonicalizeUrlForHashing url).toList.find? isSlugChar).getD 'r') = true
      ↔ ¬ DigitFirst url := by
  unfold DigitFirst
  obtain hsame | ⟨hnone, hg⟩ := find?_canonical url
  · rw [hsame]
    cases hfirst : (withoutSchemeLower url).find? isSlugChar with
    | none => exact iff_of_true rfl Bool.false_ne_true
    | some c => exact not_isAsciiDigit_iff (List.find?_some hfirst)
  · rw [hnone, hg]
    exact iff_of_true rfl Bool.false_ne_true

end Slug

/-! ## Recording a source -/

/-- What the record of a source has to be besides the id. -/
def Recordable (s : SourceJson) : Prop :=
  s.url ≠ "" ∧ s.branch ≠ "" ∧ s.fetchedAt ≠ "" ∧ Text.byteLen s.sha = 40
    ∧ s.sha.toList.all Text.isAsciiHexDigit = true

/-- **The id of a URL is valid**, and so a source that has no id configured is recorded once
it has been cloned. -/
structure Legal (sha256 : List UInt8 → Fin 32 → UInt8) (url : String) : Prop where
  valid : validateSourceId (deriveCacheId sha256 url) = Except.ok ()
  recorded : ∀ (s : SourceStart.State) (p : ℕ) (t : SourceStart.Target) (sha fetchedAt : String),
    s.phase p = SourceStart.Phase.resolved t sha → s.sourceJson = none →
      resolveCacheId sha256 none url = Except.ok t.cacheId → Recordable (t.record sha fetchedAt) →
        ∃ s', SourceStart.step s (SourceStart.Event.write p fetchedAt) = some s'
          ∧ s'.sourceJson = some (t.record sha fetchedAt)

section Legal

variable {sha256 : List UInt8 → Fin 32 → UInt8} {url : String}

/-- An id that is made is valid exactly when the address does not begin with a digit. -/
theorem validateSourceId_deriveCacheId_iff :
    validateSourceId (deriveCacheId sha256 url) = Except.ok () ↔ ¬ DigitFirst url := by
  rw [← isAsciiLower_first_iff, deriveCacheId_eq]
  have hhead := head?_idSlug url
  have hslug := isIdChar_of_mem_idSlug url
  have hlength := length_idSlug_le url
  have hhash := isSlugChar_of_mem_urlHashPrefix sha256 (canonicalizeUrlForHashing url)
  generalize hdigits : urlHashPrefix sha256 (canonicalizeUrlForHashing url) = hash at hhash ⊢
  have hhashLength : hash.length = 8 := by rw [← hdigits]; rfl
  generalize ((canonicalizeUrlForHashing url).toList.find? isSlugChar).getD 'r' = first at hhead ⊢
  obtain ⟨rest, hrest⟩ := List.head?_eq_some_iff.mp hhead
  obtain ⟨digits, last, rfl⟩ : ∃ digits last, hash = digits ++ [last] := by
    obtain rfl | ⟨digits, last, rfl⟩ := List.eq_nil_or_concat hash
    · cases hhashLength
    · exact ⟨digits, last, List.concat_eq_append⟩
  rw [hrest] at hslug hlength
  have hform : idSlug url ++ '-' :: (digits ++ [last])
      = first :: ((rest ++ '-' :: digits) ++ [last]) := by
    rw [hrest, List.append_assoc]
    rfl
  have hchars : ∀ c ∈ idSlug url ++ '-' :: (digits ++ [last]), isIdChar c = true := by
    rw [hrest]
    refine List.forall_mem_append.mpr ⟨hslug, List.forall_mem_cons.mpr ⟨by decide, ?_⟩⟩
    exact fun c hc => Bool.or_eq_true_iff.mpr (Or.inl (hhash c hc))
  have hshort : (idSlug url ++ '-' :: (digits ++ [last])).length ≤ 64 := by
    rw [hrest, List.length_append]
    exact Nat.add_le_add hlength (congrArg (· + 1) hhashLength).le
  rw [hform] at hchars hshort ⊢
  exact validateSourceId_ofList_iff hchars (hhash last (by simp)) hshort

/-- A record is valid when the id in it is. -/
theorem validateModel_ok_iff {s : SourceJson} (h : Recordable s) :
    s.validateModel = Except.ok () ↔ validateSourceId s.cacheId = Except.ok () := by
  obtain ⟨hurl, hbranch, hfetched, hlength, hhex⟩ := h
  unfold SourceJson.validateModel
  simp only [seq_ok_iff, bailIf_ok_iff, hurl, hbranch, hfetched, hlength, hhex]
  cases hid : validateSourceId s.cacheId with
  | ok u => simp
  | error e => simp [bail]

/-- A record that is valid is written, unless there is one. -/
theorem step_write {s : SourceStart.State} {p : ℕ} {t : SourceStart.Target} {sha fetchedAt : String}
    (hphase : s.phase p = SourceStart.Phase.resolved t sha) (hnone : s.sourceJson = none)
    (hvalid : (t.record sha fetchedAt).validateModel = Except.ok ()) :
    ∃ s', SourceStart.step s (SourceStart.Event.write p fetchedAt) = some s'
      ∧ s'.sourceJson = some (t.record sha fetchedAt) := by
  refine ⟨s.writeSource p (t.record sha fetchedAt) true, ?_, ?_⟩
  · simp only [SourceStart.step, hphase]
  · unfold SourceStart.State.writeSource
    rw [hvalid, hnone]
    rfl

end Legal

/-- **The id of a URL is valid, unless the first letter or digit after the scheme is a
digit.** -/
theorem legal_iff (sha256 : List UInt8 → Fin 32 → UInt8) (url : String) :
    Legal sha256 url ↔ ¬ DigitFirst url := by
  constructor
  · exact fun h => validateSourceId_deriveCacheId_iff.mp h.valid
  · intro hdigit
    have hvalid : validateSourceId (deriveCacheId sha256 url) = Except.ok () :=
      validateSourceId_deriveCacheId_iff.mpr hdigit
    refine ⟨hvalid, ?_⟩
    intro s p t sha fetchedAt hphase hnone hid hrecord
    refine step_write hphase hnone ((validateModel_ok_iff hrecord).mpr ?_)
    show validateSourceId t.cacheId = Except.ok ()
    rw [← Except.ok.inj hid]
    exact hvalid

/-- A digest that is known for some texts. -/
def digestOf (known : List (String × List UInt8)) (bytes : List UInt8) (i : Fin 32) : UInt8 :=
  ((known.find? fun k => Slices.asBytes k.fst = bytes).bind fun k => k.snd[i]?).getD 0

/-- The digests of two canonical URLs. -/
def sampleDigest : List UInt8 → Fin 32 → UInt8 :=
  digestOf [("10.0.0.5/team/repo",
      [203, 233, 98, 46, 220, 17, 35, 107, 77, 164, 54, 172, 159, 106, 49, 6,
        176, 206, 17, 207, 83, 186, 229, 248, 44, 127, 236, 93, 245, 107, 46, 18]),
    ("git.example/team/repo",
      [53, 193, 1, 84, 69, 177, 218, 115, 59, 160, 210, 152, 29, 211, 234, 21,
        3, 2, 160, 245, 0, 189, 35, 145, 199, 27, 224, 172, 177, 255, 133, 244])]

/-- The host of the URL is a number. -/
theorem not_legal_number : deriveCacheId sampleDigest "https://10.0.0.5/team/repo.git"
      = "10-0-0-5-team-repo-cbe9622e"
    ∧ validateSourceId (deriveCacheId sampleDigest "https://10.0.0.5/team/repo.git")
      = Except.error "must start with a lowercase ASCII letter (a-z)" := by
  decide +kernel

/-! ## Forms of one URL -/

/-- A form of a URL. -/
inductive UrlForm where
  | ssh
  | https
  | http
  | scp
  /-- The scheme is left off. -/
  | bare
  deriving DecidableEq

namespace UrlForm

/-- What a URL of this form begins with. -/
def opening : UrlForm → String
  | ssh => "ssh://git@"
  | https => "https://"
  | http => "http://"
  | scp => "git@"
  | bare => ""

/-- What stands between the host and the path. -/
def separator : UrlForm → Char
  | scp => ':'
  | _ => '/'

/-- What follows the opening in the URL of a repository. -/
def body (f : UrlForm) (host owner name : List Char) : List Char :=
  host ++ f.separator :: (owner ++ '/' :: name)

/-- The URL of a repository. -/
def url (f : UrlForm) (host owner name : String) : String :=
  String.ofList (f.opening.toList ++ f.body host.toList owner.toList name.toList)

/-- The form that a text has. -/
def ofText (t : List Char) : UrlForm :=
  ([ssh, https, http, scp].find? fun f =>
    f.opening.toList.isPrefixOf (t.map Char.toLower)).getD bare

end UrlForm

/-- What a URL names. -/
structure Remote where
  host : List Char
  port : Option (List Char)
  path : List Char
  deriving DecidableEq

/-- A path without `.git` at its end. -/
def pathName (l : List Char) : List Char :=
  if ".git".toList.isSuffixOf (l.map Char.toLower) = true then l.take (l.length - 4) else l

/-- What a URL names, if it has a host and a path. -/
def remoteOf (url : String) : Option Remote :=
  let t := (Text.trim url).toList
  let f := UrlForm.ofText t
  let rest := t.drop f.opening.length
  let authority := rest.takeWhile (· ≠ f.separator)
  if '/' ∈ authority then none
  else (rest.dropWhile (· ≠ f.separator)).tail?.map fun path =>
    ⟨authority.takeWhile (· ≠ ':'), (authority.dropWhile (· ≠ ':')).tail?, pathName path⟩

namespace Remote

/-- There is no colon but the one of the form. -/
def Plain (r : Remote) : Prop := r.port = none ∧ ':' ∉ r.path

/-- The same, up to the case of letters. -/
structure Same (r r' : Remote) : Prop where
  host : r.host.map Char.toLower = r'.host.map Char.toLower
  port : r.port = r'.port
  path : r.path.map Char.toLower = r'.path.map Char.toLower

end Remote

section Forms

variable {c : Char} {l : List Char} {url : String} {r : Remote} {f : UrlForm}

/-- A letter in lower case, and a colon replaced. -/
def folded (c : Char) : Char := slashed c.toLower

/-- What precedes the host is cut off. -/
theorem withoutScheme_opening (hf : f ≠ UrlForm.bare) (l : List Char) :
    withoutScheme (f.opening.toList ++ l) = l := by
  cases f with
  | bare => exact absurd rfl hf
  | ssh => rfl
  | https => rfl
  | http => rfl
  | scp => rfl

/-- Looking for an opening and looking for a form is the same. -/
theorem findSome?_stripPrefix (fs : List UrlForm) (m : List Char) :
    ((fs.map UrlForm.opening).findSome? fun pre => Text.stripPrefix m pre.toList).getD m
      = m.drop ((fs.find? fun f => f.opening.toList.isPrefixOf m).getD
        UrlForm.bare).opening.length := by
  induction fs with
  | nil => rfl
  | cons f fs ih =>
    rw [List.map_cons, List.findSome?_cons, List.find?_cons]
    unfold Text.stripPrefix at ih ⊢
    cases hpre : f.opening.toList.isPrefixOf m with
    | true => rfl
    | false => exact ih

/-- It is found in whatever case. -/
theorem withoutScheme_map_toLower (t : List Char) : withoutScheme (t.map Char.toLower)
    = (t.drop (UrlForm.ofText t).opening.length).map Char.toLower := by
  rw [List.map_drop]
  exact findSome?_stripPrefix [UrlForm.ssh, UrlForm.https, UrlForm.http, UrlForm.scp] _

/-- The ending `.git` is looked for in the last part. -/
theorem withoutDotGit_append (a p : List Char) :
    withoutDotGit (a ++ '/' :: p) = a ++ '/' :: withoutDotGit p := by
  by_cases hgit : ".git".toList <:+ p
  · obtain ⟨front, rfl⟩ := hgit
    rw [withoutDotGit_of_suffix, ← List.cons_append, ← List.append_assoc, withoutDotGit_of_suffix]
  · rw [withoutDotGit_of_not_suffix hgit, withoutDotGit_of_not_suffix]
    intro hsuf
    obtain h | h := List.suffix_or_suffix_of_suffix hsuf (List.suffix_append a ('/' :: p))
    · obtain h | h := List.suffix_cons_iff.mp h
      · exact absurd (List.cons.inj h).left (by decide)
      · exact hgit h
    · exact absurd (h.subset List.mem_cons_self) (by decide)

/-- What does not become a slash stays. -/
theorem slashed_of_ne_slash (h : slashed c ≠ '/') : slashed c = c := by
  unfold slashed at h ⊢
  split_ifs at h ⊢
  · exact absurd rfl h
  · rfl

/-- A text that has no slash then stays. -/
theorem eq_of_map_slashed {m g : List Char} (h : m.map slashed = g) (hg : '/' ∉ g) : m = g := by
  subst h
  have hself : ∀ c ∈ m, slashed c = c := by
    intro c hc
    refine slashed_of_ne_slash fun hslash => hg ?_
    rw [← hslash]
    exact List.mem_map_of_mem hc
  exact ((List.map_congr_left hself).trans m.map_id).symm

/-- Folding is lowering, and then slashing. -/
theorem map_folded (l : List Char) : l.map folded = (l.map Char.toLower).map slashed := by
  rw [List.map_map]
  rfl

/-- The end of a path is taken off before or after the letters are changed. -/
theorem withoutDotGit_map_folded (l : List Char) :
    withoutDotGit (l.map folded) = (pathName l).map folded := by
  unfold pathName
  rw [map_folded]
  by_cases hgit : ".git".toList <:+ l.map Char.toLower
  · rw [if_pos (List.isSuffixOf_iff_suffix.mpr hgit)]
    obtain ⟨front, hfront⟩ := hgit
    have hlength : front.length = l.length - 4 := by
      have hsum := congrArg List.length hfront
      rw [List.length_append, List.length_map] at hsum
      exact Nat.eq_sub_of_add_eq hsum
    have htake : front = (l.take (l.length - 4)).map Char.toLower := by
      rw [List.map_take, ← hfront, ← hlength, List.take_left]
    rw [map_folded, ← htake, ← hfront, List.map_append]
    exact withoutDotGit_of_suffix
  · rw [if_neg (List.isSuffixOf_iff_suffix.not.mpr hgit), map_folded,
      withoutDotGit_of_not_suffix]
    rintro ⟨front, hfront⟩
    obtain ⟨a, b, hab, -, hb⟩ := List.map_eq_append_iff.mp hfront.symm
    refine hgit ⟨a, ?_⟩
    rw [hab, eq_of_map_slashed hb (by decide)]

theorem withoutSchemeLower_eq (url : String) : withoutSchemeLower url
    = ((Text.trim url).toList.drop
      (UrlForm.ofText (Text.trim url).toList).opening.length).map Char.toLower := by
  unfold withoutSchemeLower Text.toAsciiLowercase
  rw [String.toList_ofList, withoutScheme_map_toLower]

/-- **The canonical form, by what follows the opening.** -/
theorem canonicalize_of_body {body : List Char}
    (h : withoutSchemeLower url = body.map Char.toLower) :
    canonicalizeUrlForHashing url = String.ofList (withoutDotGit (body.map folded)) := by
  unfold canonicalizeUrlForHashing
  rw [h, map_folded]

/-- The separator of each form becomes a slash. -/
theorem folded_separator (f : UrlForm) : folded f.separator = '/' := by
  cases f <;> rfl

/-- A character that is no letter is lowered from itself. -/
theorem eq_of_toLower {x : Char} (h : c.toLower = x) (hx : x.isAlpha = false) : c = x := by
  have halpha : c.isAlpha = false := by rw [← Char.isAlpha_toLower_eq_isAlpha, h, hx]
  obtain ⟨hupper, -⟩ := Bool.or_eq_false_iff.mp halpha
  rw [← h, Char.toLower_eq_of_not_isUpper (Bool.eq_false_iff.mp hupper)]

/-- Without a colon folding is lowering. -/
theorem folded_of_ne_colon (h : c ≠ ':') : folded c = c.toLower :=
  if_neg fun hcolon => h (eq_of_toLower hcolon rfl)

/-- The same of a text. -/
theorem map_folded_of_noColon (h : ':' ∉ l) : l.map folded = l.map Char.toLower := by
  refine List.map_congr_left fun c hc => folded_of_ne_colon ?_
  rintro rfl
  exact h hc

/-- Lowering makes no slash. -/
theorem slash_not_mem_map_toLower (h : '/' ∉ l) : '/' ∉ l.map Char.toLower := by
  intro hmem
  obtain ⟨c, hc, hslash⟩ := List.mem_map.mp hmem
  exact h (eq_of_toLower hslash rfl ▸ hc)

/-- A URL that names something, taken apart. -/
theorem remoteOf_eq_some (h : remoteOf url = some r) : ∃ authority sep path,
    withoutSchemeLower url = (authority ++ sep :: path).map Char.toLower ∧ folded sep = '/'
      ∧ '/' ∉ authority ∧ r = ⟨authority.takeWhile (· ≠ ':'),
        (authority.dropWhile (· ≠ ':')).tail?, pathName path⟩ := by
  unfold remoteOf at h
  dsimp only at h
  rw [withoutSchemeLower_eq]
  generalize UrlForm.ofText (Text.trim url).toList = f at h ⊢
  generalize (Text.trim url).toList.drop f.opening.length = rest at h ⊢
  split_ifs at h with hslash
  obtain ⟨path, hpath, rfl⟩ := Option.map_eq_some_iff.mp h
  cases hrest : rest.dropWhile (· ≠ f.separator) with
  | nil =>
    rw [hrest] at hpath
    cases hpath
  | cons sep tail =>
    rw [hrest] at hpath
    obtain rfl := Option.some.inj hpath
    refine ⟨rest.takeWhile (· ≠ f.separator), sep, tail, ?_, ?_, hslash, rfl⟩
    · rw [← hrest, List.takeWhile_append_dropWhile]
    · have hsep := List.head?_dropWhile_not (· ≠ f.separator) rest
      rw [hrest] at hsep
      rw [of_not_not (of_decide_eq_false hsep), folded_separator]

/-- **What a URL names is what its canonical form shows**, if there is no other colon. -/
theorem canonicalize_of_remoteOf (h : remoteOf url = some r) (hplain : r.Plain) :
    canonicalizeUrlForHashing url
        = String.ofList (r.host.map Char.toLower ++ '/' :: r.path.map Char.toLower)
      ∧ '/' ∉ r.host := by
  obtain ⟨authority, sep, path, hbody, hsep, hslash, rfl⟩ := remoteOf_eq_some h
  obtain ⟨hport, hcolon⟩ := hplain
  have hnone : authority.dropWhile (· ≠ ':') = [] := by
    cases hrest : authority.dropWhile (· ≠ ':') with
    | nil => rfl
    | cons c rest =>
      dsimp only at hport
      rw [hrest] at hport
      cases hport
  have hhost : authority.takeWhile (· ≠ ':') = authority := by
    conv_rhs => rw [← List.takeWhile_append_dropWhile (p := (· ≠ ':')) (l := authority), hnone,
      List.append_nil]
  have hauthority : ':' ∉ authority := by
    intro hmem
    have hne := List.dropWhile_eq_nil_iff.mp hnone ':' hmem
    cases hne
  dsimp only at hcolon ⊢
  rw [hhost, canonicalize_of_body hbody, List.map_append, List.map_cons, hsep,
    withoutDotGit_append, withoutDotGit_map_folded, map_folded_of_noColon hauthority,
    map_folded_of_noColon hcolon]
  exact ⟨rfl, hslash⟩

/-! ## The forms of a repository's URL -/

/-- What precedes the host is in small letters, and begins with no space. -/
theorem opening_eq (hf : f ≠ UrlForm.bare) : ∃ first rest, f.opening.toList = first :: rest
    ∧ Text.isWhiteSpace first = false ∧ f.opening.toList.map Char.toLower = f.opening.toList := by
  cases f with
  | bare => exact absurd rfl hf
  | ssh => exact ⟨_, _, rfl, rfl, by decide⟩
  | https => exact ⟨_, _, rfl, rfl, by decide⟩
  | http => exact ⟨_, _, rfl, rfl, by decide⟩
  | scp => exact ⟨_, _, rfl, rfl, by decide⟩

/-- An address ends as its name does. -/
theorem body_end (f : UrlForm) (host owner : List Char) {name : List Char}
    (hname : ∀ c ∈ name.getLast?, Text.isWhiteSpace c = false) :
    ∃ front last, f.body host owner name = front ++ [last] ∧ Text.isWhiteSpace last = false := by
  unfold UrlForm.body
  obtain rfl | ⟨init, last, rfl⟩ := List.eq_nil_or_concat name
  · exact ⟨host ++ f.separator :: owner, '/', by simp, rfl⟩
  · rw [List.concat_eq_append] at hname ⊢
    refine ⟨host ++ f.separator :: (owner ++ '/' :: init), last, by simp, hname last ?_⟩
    exact List.getLast?_concat

/-- An address without its scheme, in small letters. -/
theorem withoutSchemeLower_url (hf : f ≠ UrlForm.bare) {host owner name : String}
    (hname : ∀ c ∈ name.toList.getLast?, Text.isWhiteSpace c = false) :
    withoutSchemeLower (f.url host owner name)
      = (f.body host.toList owner.toList name.toList).map Char.toLower := by
  obtain ⟨first, rest, hopening, hfirst, hlower⟩ := opening_eq hf
  obtain ⟨front, last, hbody, hlast⟩ := body_end f host.toList owner.toList hname
  have htrim : Text.trim (f.url host owner name) = f.url host owner name := by
    have hurl : (f.url host owner name).toList = first :: (rest ++ front ++ [last]) := by
      unfold UrlForm.url
      rw [String.toList_ofList, hopening, hbody, List.cons_append, List.append_assoc]
    refine Text.trim_eq_self ?_ ?_
    · rw [hurl]
      exact hfirst
    · rw [hurl, ← List.cons_append, List.getLast?_concat]
      exact hlast
  unfold withoutSchemeLower Text.toAsciiLowercase
  rw [htrim, String.toList_ofList]
  unfold UrlForm.url
  rw [String.toList_ofList, List.map_append, hlower, withoutScheme_opening hf]

/-- The three parts of an address, folded and with slashes between them. -/
theorem canonicalize_url (hf : f ≠ UrlForm.bare) {host owner name : String}
    (hname : ∀ c ∈ name.toList.getLast?, Text.isWhiteSpace c = false) :
    canonicalizeUrlForHashing (f.url host owner name)
      = String.ofList (host.toList.map folded ++ '/' :: (owner.toList.map folded
        ++ '/' :: withoutDotGit (name.toList.map folded))) := by
  rw [canonicalize_of_body (withoutSchemeLower_url hf hname)]
  unfold UrlForm.body
  rw [List.map_append, List.map_cons, List.map_append, List.map_cons, folded_separator,
    withoutDotGit_append]
  exact congrArg (fun l => String.ofList (_ ++ '/' :: l)) (withoutDotGit_append _ _)

/-- A name of a repository that can be told from one with `.git`, and ends where it seems to. -/
def Named (name : String) : Prop :=
  (∀ c ∈ name.toList.getLast?, Text.isWhiteSpace c = false)
    ∧ ¬ ".git".toList <:+ name.toList.map Char.toLower

/-- The same with the ending `.git`. -/
theorem canonicalize_url_dotGit (hf : f ≠ UrlForm.bare) (host owner name : String) :
    canonicalizeUrlForHashing (f.url host owner (name ++ ".git"))
      = String.ofList (host.toList.map folded ++ '/' :: (owner.toList.map folded
        ++ '/' :: name.toList.map folded)) := by
  have hend : ∀ c ∈ (name ++ ".git").toList.getLast?, Text.isWhiteSpace c = false := by
    intro c hc
    rw [String.toList_append, List.getLast?_append] at hc
    obtain rfl := Option.some.inj hc
    rfl
  rw [canonicalize_url hf hend, String.toList_append, List.map_append]
  exact congrArg (fun l => String.ofList (_ ++ '/' :: (_ ++ '/' :: l))) withoutDotGit_of_suffix

/-- The same of a name without the ending. -/
theorem canonicalize_url_named (hf : f ≠ UrlForm.bare) {name : String} (hname : Named name)
    (host owner : String) : canonicalizeUrlForHashing (f.url host owner name)
      = String.ofList (host.toList.map folded ++ '/' :: (owner.toList.map folded
        ++ '/' :: name.toList.map folded)) := by
  rw [canonicalize_url hf hname.left, withoutDotGit_map_folded]
  unfold pathName
  rw [if_neg (List.isSuffixOf_iff_suffix.not.mpr hname.right)]

end Forms

/-- Two URLs have one cache. -/
structure SameCache (sha256 : List UInt8 → Fin 32 → UInt8) (u v : String) : Prop where
  canonical : canonicalizeUrlForHashing u = canonicalizeUrlForHashing v
  id : deriveCacheId sha256 u = deriveCacheId sha256 v

/-- **A cache is that of one repository**: its URL may be written in several forms, and what
the URLs of one cache name is the same up to the case of letters, if the hash tells their
canonical forms apart and there are no colons but those of the forms. -/
structure CacheIdentity (sha256 : List UInt8 → Fin 32 → UInt8) : Prop where
  forms : ∀ (f f' : UrlForm) (host owner name : String), f ≠ UrlForm.bare → f' ≠ UrlForm.bare →
    SameCache sha256 (f.url host owner (name ++ ".git")) (f'.url host owner (name ++ ".git"))
  dotGit : ∀ (f : UrlForm) (host owner name : String), f ≠ UrlForm.bare → Named name →
    SameCache sha256 (f.url host owner name) (f.url host owner (name ++ ".git"))
  apart : ∀ (u v : String) (r r' : Remote), remoteOf u = some r → remoteOf v = some r' →
    r.Plain → r'.Plain → Set.InjOn (urlHashPrefix sha256)
      {canonicalizeUrlForHashing u, canonicalizeUrlForHashing v} →
    deriveCacheId sha256 u = deriveCacheId sha256 v → r.Same r'

section Identity

variable {sha256 : List UInt8 → Fin 32 → UInt8} {u v : String} {r r' : Remote}

/-- The id is one of the canonical form. -/
theorem sameCache_of_canonical
    (h : canonicalizeUrlForHashing u = canonicalizeUrlForHashing v) : SameCache sha256 u v := by
  refine ⟨h, ?_⟩
  unfold deriveCacheId
  rw [h]

/-- It is one of what follows the scheme, in small letters. -/
theorem sameCache_of_lower (h : withoutSchemeLower u = withoutSchemeLower v) :
    SameCache sha256 u v := by
  refine sameCache_of_canonical ?_
  unfold canonicalizeUrlForHashing
  rw [h]

/-- An id ends in the hash of the canonical form. -/
theorem urlHashPrefix_eq_of_id (h : deriveCacheId sha256 u = deriveCacheId sha256 v) :
    urlHashPrefix sha256 (canonicalizeUrlForHashing u)
      = urlHashPrefix sha256 (canonicalizeUrlForHashing v) := by
  rw [deriveCacheId_eq, deriveCacheId_eq] at h
  have hlength : ∀ u, ('-' :: urlHashPrefix sha256 u).length = 9 := by
    intro u
    rw [List.length_cons, length_urlHashPrefix]
  exact (List.cons.inj (List.append_inj_right' (String.ofList_injective h)
    ((hlength _).trans (hlength _).symm))).right

/-- Texts are taken apart at the first slash. -/
theorem append_slash_inj {a b p q : List Char} (ha : '/' ∉ a) (hb : '/' ∉ b)
    (h : a ++ '/' :: p = b ++ '/' :: q) : a = b ∧ p = q := by
  have hstop : ∀ l rest : List Char, '/' ∉ l → (l ++ '/' :: rest).takeWhile (· ≠ '/') = l := by
    intro l rest hl
    rw [List.takeWhile_append_of_pos, List.takeWhile_cons_of_neg (by decide), List.append_nil]
    exact fun c hc => decide_eq_true (ne_of_mem_of_not_mem hc hl)
  have hab : a = b := by rw [← hstop a p ha, h, hstop b q hb]
  subst hab
  exact ⟨rfl, (List.cons.inj (List.append_cancel_left h)).right⟩

/-- URLs of one canonical form name the same. -/
theorem same_of_canonical (hu : remoteOf u = some r) (hv : remoteOf v = some r') (hr : r.Plain)
    (hr' : r'.Plain) (h : canonicalizeUrlForHashing u = canonicalizeUrlForHashing v) :
    r.Same r' := by
  obtain ⟨hcanonU, hslash⟩ := canonicalize_of_remoteOf hu hr
  obtain ⟨hcanonV, hslash'⟩ := canonicalize_of_remoteOf hv hr'
  rw [hcanonU, hcanonV] at h
  obtain ⟨hhost, hpath⟩ := append_slash_inj (slash_not_mem_map_toLower hslash)
    (slash_not_mem_map_toLower hslash') (String.ofList_injective h)
  exact ⟨hhost, hr.left.trans hr'.left.symm, hpath⟩

end Identity

/-- **Forms of a URL share a cache, and URLs that share one name the same.** -/
theorem cacheIdentity (sha256 : List UInt8 → Fin 32 → UInt8) : CacheIdentity sha256 where
  forms f f' host owner name hf hf' := by
    refine sameCache_of_canonical ?_
    rw [canonicalize_url_dotGit hf, canonicalize_url_dotGit hf']
  dotGit f host owner name hf hname := by
    refine sameCache_of_canonical ?_
    rw [canonicalize_url_named hf hname, canonicalize_url_dotGit hf]
  apart u v r r' hu hv hr hr' hinj hid :=
    same_of_canonical hu hv hr hr'
      (hinj (Set.mem_insert _ _) (Set.mem_insert_of_mem _ rfl) (urlHashPrefix_eq_of_id hid))

/-- The URL of a repository, in two forms and in different letters. -/
theorem cacheIdentity_team : Remote.Same
    ⟨"git.example".toList, none, "Team/repo".toList⟩
    ⟨"git.example".toList, none, "team/repo".toList⟩ := by
  have hsame : canonicalizeUrlForHashing "https://git.example/Team/repo.git"
      = canonicalizeUrlForHashing "git@git.example:team/repo" := by decide +kernel
  refine (cacheIdentity sampleDigest).apart "https://git.example/Team/repo.git"
    "git@git.example:team/repo" _ _ (by decide +kernel) (by decide +kernel) ⟨rfl, by decide⟩
    ⟨rfl, by decide⟩ ?_ (sameCache_of_canonical hsame).id
  rw [hsame, Set.pair_eq_singleton]
  exact Set.injOn_singleton _ _

/-- Paths in different letters share a cache, and so do a URL in clear text and one without
its scheme; and a name that ends in `.git` is not the same with `.git` after it. -/
theorem shared_letters :
    deriveCacheId sampleDigest "https://git.example/Team/repo.git"
        = deriveCacheId sampleDigest "https://git.example/team/repo.git"
      ∧ (remoteOf "https://git.example/Team/repo.git").map Remote.path
        ≠ (remoteOf "https://git.example/team/repo.git").map Remote.path
      ∧ deriveCacheId sampleDigest "http://git.example/team/repo"
        = deriveCacheId sampleDigest "https://git.example/team/repo"
      ∧ deriveCacheId sampleDigest "git.example/team/repo"
        = deriveCacheId sampleDigest "https://git.example/team/repo"
      ∧ canonicalizeUrlForHashing (UrlForm.https.url "git.example" "team" "x.git")
        ≠ canonicalizeUrlForHashing (UrlForm.https.url "git.example" "team" "x.git.git") := by
  exact ⟨(sameCache_of_lower (by decide +kernel)).id, by decide +kernel,
    (sameCache_of_lower (by decide +kernel)).id, (sameCache_of_lower (by decide +kernel)).id,
    by decide +kernel⟩
