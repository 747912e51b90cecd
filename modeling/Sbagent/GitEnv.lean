import Sbagent.AuthPrefix
import Sbagent.JsonValue
import Sbagent.RunIdFile

/-!
# Configuration in the environment

git reads configuration from the environment of its process: a variable with the number of
entries, and for each entry a variable with its key and one with its value, which have its
number in their names. So an entry is added by three variables, one of which is there
already, and the names have to go on where they end. The token of the bot is added so to an
environment that holds the identity of the bot and switches signing off.

An environment is a list of variables with their values, which is laid over the environment
that a process inherits. Of two variables with one name the last one counts there, whereas
the number of entries is changed where it stands first. These are the same as long as no
name stands twice (`Numbered`), and each entry that is added keeps it so (`numbered_merge`).
-/

open Fallible

namespace GitEnv

/-- Variables with their values. -/
abbrev Env : Type := List (String × String)

/-- The variable that says how many entries there are. -/
def countVar : String := "GIT_CONFIG_COUNT"

/-- The variable with the key of an entry. -/
def keyVar (n : ℕ) : String := "GIT_CONFIG_KEY_" ++ toString n

/-- The variable with its value. -/
def valueVar (n : ℕ) : String := "GIT_CONFIG_VALUE_" ++ toString n

/-- A variable that has to do with the entries. -/
def IsConfigVar (name : String) : Prop :=
  name = countVar ∨ ∃ n, name = keyVar n ∨ name = valueVar n

/-- What a process finds, given what it inherits. -/
def seen (inherited : String → Option String) (env : Env) (name : String) : Option String :=
  (env.reverse.lookup name).or (inherited name)

/-- A process finds these entries, in this order. -/
structure Reads (get : String → Option String) (entries : List (String × String)) : Prop where
  count : get countVar = some (toString entries.length)
  key : ∀ n (h : n < entries.length), get (keyVar n) = some entries[n].1
  value : ∀ n (h : n < entries.length), get (valueVar n) = some entries[n].2

/-! ## The environments of the bot -/

/-- Who the bot is. -/
structure Author where
  name : Option String
  email : Option String

namespace Author

/-- The name that commits are made under. -/
def effectiveAuthorName (a : Author) : String := a.name.getD "stacks-bench-bot"

/-- The address that they are made under. -/
def effectiveAuthorEmail (a : Author) : String :=
  a.email.getD "stacks-bench-bot@users.noreply.github.com"

/-- The variables that say who makes a commit. -/
def identity (a : Author) : Env :=
  [("GIT_AUTHOR_NAME", a.effectiveAuthorName), ("GIT_AUTHOR_EMAIL", a.effectiveAuthorEmail),
    ("GIT_COMMITTER_NAME", a.effectiveAuthorName),
    ("GIT_COMMITTER_EMAIL", a.effectiveAuthorEmail)]

end Author

/-- The variables of an entry. -/
def entryVars (n : ℕ) (e : String × String) : Env := [(keyVar n, e.1), (valueVar n, e.2)]

/-- The variables of entries, with numbers from one on. -/
def entriesVars (n : ℕ) (entries : List (String × String)) : Env :=
  (entries.zipIdx n).flatMap fun p => entryVars p.2 p.1

/-- The entries that the agents run with. -/
def overrides (a : Author) : List (String × String) :=
  [("user.name", a.effectiveAuthorName), ("user.email", a.effectiveAuthorEmail),
    ("commit.gpgsign", "false"), ("tag.gpgsign", "false")]

/-- The environment of git in an optimizer. -/
def optimizerGitEnv (a : Author) : Env :=
  a.identity ++ [(countVar, toString (overrides a).length)]
    ++ entriesVars 0 (overrides a)

/-- The environment of git where the bot commits. -/
def botIdentityEnv (a : Author) : Env :=
  a.identity ++ [(countVar, "1")] ++ entryVars 0 ("commit.gpgsign", "false")

/-! ## One entry more -/

/-- The number of entries that an environment says it has. -/
def prevCount (env : Env) : ℤ :=
  ((env.lookup countVar).bind fun v => (IntType.u64.parse v.toList).toOption).getD 0

/-- Change the value of the first variable with a name. -/
def setFirst (env : Env) (name value : String) : Env :=
  match env with
  | [] => []
  | v :: rest => if v.1 = name then (v.1, value) :: rest else v :: setFirst rest name value

/-- Set the number of entries, where it stands or at the end. -/
def setCount (env : Env) (count : String) : Env :=
  if (env.lookup countVar).isSome = true then setFirst env countVar count
  else env ++ [(countVar, count)]

/-- Add an entry. -/
def mergeGitConfigEntry (base : Env) (key value : String) : Checked Env := do
  let prev := prevCount base
  IntType.u64.check [prev + 1]
  return setCount base (String.ofList (Decimal.padded 0 (prev + 1)))
    ++ entryVars prev.toNat (key, value)

/-- The environment of a push or a fetch with the token. -/
def authEnv (encode : String → String) (base : Env) (token authUsername authUrlPrefix : String) :
    Checked Env :=
  let entry := authHeaderConfigEntries encode token authUsername authUrlPrefix
  mergeGitConfigEntry base entry.1 entry.2

/-- The environment of a push to a URL, which has nothing to say unless the token can be
sent there. -/
def buildAuthHeaderEnv (encode : String → String)
    (destUrl token authUsername authUrlPrefix : String) : Env :=
  if Text.startsWith destUrl "https://" = false then []
  else
    let entry := authHeaderConfigEntries encode token authUsername authUrlPrefix
    (countVar, "1") :: entryVars 0 entry

/-! ## Numbered entries -/

/-- **The entries of an environment**: each variable is there once, and those of an entry
that is not there are not there. -/
structure Numbered (env : Env) (entries : List (String × String)) : Prop where
  nodup : (env.map Prod.fst).Nodup
  count : env.lookup countVar = some (toString entries.length)
    ∨ entries = [] ∧ env.lookup countVar = none
  key : ∀ n, env.lookup (keyVar n) = entries[n]?.map Prod.fst
  value : ∀ n, env.lookup (valueVar n) = entries[n]?.map Prod.snd

section Names

variable {n m : ℕ}

/-- Numbers with one text are one. -/
theorem toString_inj {n m : ℕ} (h : toString n = toString m) : n = m := Nat.repr_injective h

/-- The variables of the keys are different. -/
theorem keyVar_inj (h : keyVar n = keyVar m) : n = m := by
  unfold keyVar at h
  have hlist := congrArg String.toList h
  rw [String.toList_append, String.toList_append] at hlist
  exact toString_inj (String.toList_injective (List.append_cancel_left hlist))

/-- So are those of the values. -/
theorem valueVar_inj (h : valueVar n = valueVar m) : n = m := by
  unfold valueVar at h
  have hlist := congrArg String.toList h
  rw [String.toList_append, String.toList_append] at hlist
  exact toString_inj (String.toList_injective (List.append_cancel_left hlist))

/-- The names of the variables differ in their twelfth character. -/
theorem twelfth (s : String) {pre : String} {c : Char} (h : pre.toList[11]? = some c) :
    (pre ++ s).toList[11]? = some c := by
  rw [String.toList_append, List.getElem?_append_left (List.getElem?_eq_some_iff.mp h).choose, h]

/-- No variable is of a key and of a value. -/
theorem keyVar_ne_valueVar : keyVar n ≠ valueVar m := by
  intro h
  have hkey : (keyVar n).toList[11]? = some 'K' := twelfth _ (by decide)
  have hvalue : (valueVar m).toList[11]? = some 'V' := twelfth _ (by decide)
  rw [h, hvalue] at hkey
  exact absurd hkey (by decide)

/-- The count is no key. -/
theorem keyVar_ne_countVar : keyVar n ≠ countVar := by
  intro h
  have hkey : (keyVar n).toList[11]? = some 'K' := twelfth _ (by decide)
  rw [h] at hkey
  exact absurd hkey (by decide)

/-- And no value. -/
theorem valueVar_ne_countVar : valueVar n ≠ countVar := by
  intro h
  have hvalue : (valueVar n).toList[11]? = some 'V' := twelfth _ (by decide)
  rw [h] at hvalue
  exact absurd hvalue (by decide)

end Names

section Lookup

variable {env : Env} {name value m : String} {entries : List (String × String)}

/-- Setting a variable leaves the names as they are. -/
theorem map_fst_setFirst : (setFirst env name value).map Prod.fst = env.map Prod.fst := by
  induction env with
  | nil => rfl
  | cons v rest ih =>
    unfold setFirst
    split_ifs with h
    · rfl
    · rw [List.map_cons, List.map_cons, ih]

/-- It sets a variable that is there, and no other. -/
theorem lookup_setFirst : (setFirst env name value).lookup m
    = if m = name then (env.lookup name).map fun _ => value else env.lookup m := by
  induction env with
  | nil => split_ifs <;> rfl
  | cons v rest ih =>
    obtain ⟨k, u⟩ := v
    unfold setFirst
    dsimp only
    by_cases hk : k = name
    · subst hk
      rw [if_pos rfl, Json.lookup_cons, Json.lookup_cons, Json.lookup_cons, if_pos rfl]
      split_ifs <;> rfl
    · rw [if_neg hk, Json.lookup_cons, Json.lookup_cons, Json.lookup_cons, ih,
        if_neg (Ne.symm hk)]
      split_ifs with hm hname
      · exact absurd (hm.symm.trans hname) hk
      · rfl
      · rfl
      · rfl

/-- Of names that stand once, it does not matter from which end they are looked for. -/
theorem lookup_reverse (h : (env.map Prod.fst).Nodup) : env.reverse.lookup m = env.lookup m := by
  induction env with
  | nil => rfl
  | cons v rest ih =>
    obtain ⟨k, u⟩ := v
    obtain ⟨hk, hrest⟩ := List.nodup_cons.mp h
    rw [List.reverse_cons, List.lookup_append, ih hrest, Json.lookup_cons, Json.lookup_cons]
    by_cases hm : m = k
    · subst hm
      rw [Json.lookup_eq_none hk, if_pos rfl, if_pos rfl]
      rfl
    · rw [if_neg hm, if_neg hm]
      exact Option.or_none

/-- A variable that is not found is not there. -/
theorem notMem_of_lookup (h : env.lookup m = none) : m ∉ env.map Prod.fst := by
  intro hmem
  obtain ⟨v, hv, rfl⟩ := List.mem_map.mp hmem
  exact absurd (List.lookup_eq_none_iff.mp h v hv) (by simp)

/-- The text of a number is its digits. -/
theorem toList_toString_eq_padded (n : ℕ) : (toString n).toList = Decimal.padded 0 (n : ℤ) := by
  have hpos : ¬ (n : ℤ) < 0 := not_lt.mpr (Int.natCast_nonneg n)
  unfold Decimal.padded
  rw [if_neg hpos, Int.toNat_natCast, List.leftpad, Nat.zero_sub]
  exact String.toList_ofList

/-- The count that is read is the number of the entries. -/
theorem prevCount_eq (h : Numbered env entries) (hlt : entries.length < 2 ^ 64) :
    prevCount env = entries.length := by
  unfold prevCount
  obtain hcount | ⟨rfl, hcount⟩ := h.count
  · have hparse : IntType.u64.parse (Decimal.padded 0 (entries.length : ℤ))
        = Except.ok (entries.length : ℤ) :=
      IntType.parse_padded (IntType.holds_u64_iff.mpr (by decide))
        (IntType.holds_u64_iff.mpr (by omega))
    rw [hcount, Option.bind_some, toList_toString_eq_padded, hparse]
    rfl
  · rw [hcount]
    rfl

/-- A variable is added. -/
theorem lookup_concat :
    (env ++ [(name, value)]).lookup m
      = (env.lookup m).or (if m = name then some value else none) := by
  rw [List.lookup_append, Json.lookup_cons]
  rfl

/-- A new variable is another one. -/
theorem nodup_concat (h : (env.map Prod.fst).Nodup) (hname : env.lookup name = none) :
    ((env ++ [(name, value)]).map Prod.fst).Nodup := by
  rw [List.map_append]
  refine List.nodup_append.mpr ⟨h, List.nodup_singleton _, fun a ha b hb hab => ?_⟩
  rw [hab, List.mem_singleton.mp hb] at ha
  exact notMem_of_lookup hname ha

/-- The count is set, whether or not it was there. -/
theorem lookup_setCount {count : String} : (setCount env count).lookup m
    = if m = countVar then some count else env.lookup m := by
  unfold setCount
  split_ifs with hsome hm hm
  · rw [lookup_setFirst, if_pos hm]
    obtain ⟨u, hu⟩ := Option.isSome_iff_exists.mp hsome
    rw [hu]
    rfl
  · rw [lookup_setFirst, if_neg hm]
  · rw [lookup_concat, hm, Option.not_isSome_iff_eq_none.mp hsome, if_pos rfl, Option.none_or]
  · rw [lookup_concat, if_neg hm, Option.or_none]

/-- And is there once. -/
theorem nodup_setCount {count : String} (h : (env.map Prod.fst).Nodup) :
    ((setCount env count).map Prod.fst).Nodup := by
  unfold setCount
  split_ifs with hsome
  · rwa [map_fst_setFirst]
  · exact nodup_concat h (Option.not_isSome_iff_eq_none.mp hsome)

/-- What is found after one entry more. -/
theorem lookup_merge (h : Numbered env entries) (hlt : entries.length + 1 < 2 ^ 64)
    (key value : String) :
    ∃ env', mergeGitConfigEntry env key value = Except.ok env' ∧ (env'.map Prod.fst).Nodup
      ∧ ∀ name, env'.lookup name
        = if name = countVar then some (toString (entries.length + 1))
          else if name = keyVar entries.length then some key
          else if name = valueVar entries.length then some value
          else env.lookup name := by
  have hprev := prevCount_eq h (by omega)
  have hcheck : IntType.u64.check [prevCount env + 1] = Except.ok () := by
    rw [hprev, IntType.check_of_holds]
    intro x hx
    rw [List.mem_singleton.mp hx, IntType.holds_u64_iff]
    omega
  have hcount : String.ofList (Decimal.padded 0 (prevCount env + 1))
      = toString (entries.length + 1) := by
    rw [hprev, ← String.ofList_toList (s := toString (entries.length + 1)),
      toList_toString_eq_padded]
    rfl
  have hmerge : mergeGitConfigEntry env key value
      = Except.ok (setCount env (toString (entries.length + 1))
        ++ entryVars entries.length (key, value)) := by
    unfold mergeGitConfigEntry
    dsimp only
    rw [hcheck, hcount, hprev]
    rfl
  -- the two names are new, since all the numbers below are taken
  have hkey : (setCount env (toString (entries.length + 1))).lookup (keyVar entries.length)
      = none := by
    rw [lookup_setCount, if_neg keyVar_ne_countVar, h.key, List.getElem?_eq_none le_rfl]
    rfl
  have hvalue : (setCount env (toString (entries.length + 1))).lookup (valueVar entries.length)
      = none := by
    rw [lookup_setCount, if_neg valueVar_ne_countVar, h.value, List.getElem?_eq_none le_rfl]
    rfl
  have hboth : setCount env (toString (entries.length + 1))
        ++ entryVars entries.length (key, value)
      = (setCount env (toString (entries.length + 1)) ++ [(keyVar entries.length, key)])
        ++ [(valueVar entries.length, value)] := by
    rw [List.append_assoc]
    rfl
  rw [hboth] at hmerge
  refine ⟨_, hmerge, nodup_concat (nodup_concat (nodup_setCount h.nodup) hkey) ?_,
    fun name => ?_⟩
  · rw [lookup_concat, hvalue, if_neg keyVar_ne_valueVar.symm, Option.none_or]
  · rw [lookup_concat, lookup_concat, lookup_setCount]
    by_cases hc : name = countVar
    · rw [if_pos hc, if_pos hc, Option.some_or, Option.some_or]
    · rw [if_neg hc, if_neg hc]
      by_cases hk : name = keyVar entries.length
      · rw [if_pos hk, if_pos hk, hk, h.key, List.getElem?_eq_none le_rfl]
        rfl
      · rw [if_neg hk, if_neg hk, Option.or_none]
        by_cases hv : name = valueVar entries.length
        · rw [if_pos hv, if_pos hv, hv, h.value, List.getElem?_eq_none le_rfl]
          rfl
        · rw [if_neg hv, if_neg hv, Option.or_none]

/-- A new entry leaves the others in their places. -/
theorem getElem?_concat_of_ne {n : ℕ} {e : String × String} (hn : n ≠ entries.length) :
    (entries ++ [e])[n]? = entries[n]? := by
  rcases lt_or_gt_of_ne hn with hlt | hgt
  · exact List.getElem?_append_left hlt
  · rw [List.getElem?_eq_none hgt.le, List.getElem?_eq_none]
    rw [List.length_append, List.length_singleton]
    exact hgt

/-- **One entry more** keeps the entries numbered. -/
theorem numbered_merge (h : Numbered env entries) (hlt : entries.length + 1 < 2 ^ 64)
    (key value : String) :
    ∃ env', mergeGitConfigEntry env key value = Except.ok env'
      ∧ Numbered env' (entries ++ [(key, value)])
      ∧ ∀ name, ¬ IsConfigVar name → env'.lookup name = env.lookup name := by
  obtain ⟨env', hmerge, hnodup, hlookup⟩ := lookup_merge h hlt key value
  refine ⟨env', hmerge, ⟨hnodup, Or.inl ?_, fun n => ?_, fun n => ?_⟩, fun name hname => ?_⟩
  · rw [hlookup, if_pos rfl, List.length_append, List.length_singleton]
  · rw [hlookup, if_neg keyVar_ne_countVar]
    by_cases hn : n = entries.length
    · subst hn
      rw [if_pos rfl, List.getElem?_concat_length]
      rfl
    · rw [if_neg fun heq => hn (keyVar_inj heq), if_neg keyVar_ne_valueVar, h.key,
        getElem?_concat_of_ne hn]
  · rw [hlookup, if_neg valueVar_ne_countVar, if_neg keyVar_ne_valueVar.symm]
    by_cases hn : n = entries.length
    · subst hn
      rw [if_pos rfl, List.getElem?_concat_length]
      rfl
    · rw [if_neg fun heq => hn (valueVar_inj heq), h.value, getElem?_concat_of_ne hn]
  · rw [hlookup, if_neg fun heq => hname (Or.inl heq),
      if_neg fun heq => hname (Or.inr ⟨_, Or.inl heq⟩),
      if_neg fun heq => hname (Or.inr ⟨_, Or.inr heq⟩)]

/-- **Entries on top of each other**, however many. -/
theorem numbered_foldlM {layers : List (String × String)} (h : Numbered env entries)
    (hlt : entries.length + layers.length < 2 ^ 64) :
    ∃ env', layers.foldlM (fun env e => mergeGitConfigEntry env e.1 e.2) env = Except.ok env'
      ∧ Numbered env' (entries ++ layers)
      ∧ ∀ name, ¬ IsConfigVar name → env'.lookup name = env.lookup name := by
  induction layers generalizing env entries with
  | nil => exact ⟨env, rfl, (List.append_nil entries).symm ▸ h, fun _ _ => rfl⟩
  | cons e layers ih =>
    rw [List.length_cons] at hlt
    obtain ⟨env₁, hmerge, hnumbered, hother⟩ := numbered_merge h (by omega) e.1 e.2
    obtain ⟨env₂, hrest, hnumbered₂, hother₂⟩ := ih hnumbered (by
      rw [List.length_append, List.length_singleton]
      omega)
    refine ⟨env₂, ?_, ?_, fun name hname => (hother₂ name hname).trans (hother name hname)⟩
    · rw [List.foldlM_cons, hmerge]
      exact hrest
    · rwa [List.append_assoc] at hnumbered₂

/-- What a command sees: its own variables before the inherited ones. -/
theorem seen_eq (inherited : String → Option String) (h : (env.map Prod.fst).Nodup) :
    seen inherited env m = (env.lookup m).or (inherited m) := by
  unfold seen
  rw [lookup_reverse h]

/-- **What a process finds.** -/
theorem Numbered.reads (h : Numbered env entries) (hne : entries ≠ [])
    (inherited : String → Option String) : Reads (seen inherited env) entries where
  count := by
    rw [seen_eq inherited h.nodup, h.count.resolve_right fun hnil => hne hnil.left]
    rfl
  key := by
    intro n hn
    rw [seen_eq inherited h.nodup, h.key, List.getElem?_eq_getElem hn]
    rfl
  value := by
    intro n hn
    rw [seen_eq inherited h.nodup, h.value, List.getElem?_eq_getElem hn]
    rfl

end Lookup

/-! ## The environments of the bot are numbered -/

/-- No entries need no variables. -/
theorem numbered_nil : Numbered [] [] where
  nodup := List.nodup_nil
  count := Or.inr ⟨rfl, rfl⟩
  key := fun _ => rfl
  value := fun _ => rfl

section Entries

variable {a : Author} {entries : List (String × String)} {name : String}

/-- The variables of the first entry, and of the others. -/
theorem entriesVars_cons (k : ℕ) (e : String × String) (entries : List (String × String)) :
    entriesVars k (e :: entries)
      = (keyVar k, e.1) :: (valueVar k, e.2) :: entriesVars (k + 1) entries := rfl

/-- The variables of entries are keys and values from some number on. -/
theorem mem_entriesVars {k : ℕ} (h : name ∈ (entriesVars k entries).map Prod.fst) :
    ∃ n, k ≤ n ∧ (name = keyVar n ∨ name = valueVar n) := by
  induction entries generalizing k with
  | nil => cases h
  | cons e entries ih =>
    rw [entriesVars_cons, List.map_cons, List.map_cons] at h
    obtain rfl | h := List.mem_cons.mp h
    · exact ⟨k, le_rfl, Or.inl rfl⟩
    · obtain rfl | h := List.mem_cons.mp h
      · exact ⟨k, le_rfl, Or.inr rfl⟩
      · obtain ⟨n, hn, hname⟩ := ih h
        exact ⟨n, by omega, hname⟩

/-- They are different. -/
theorem nodup_entriesVars (k : ℕ) (entries : List (String × String)) :
    ((entriesVars k entries).map Prod.fst).Nodup := by
  induction entries generalizing k with
  | nil => exact List.nodup_nil
  | cons e entries ih =>
    rw [entriesVars_cons, List.map_cons, List.map_cons, List.nodup_cons, List.nodup_cons]
    refine ⟨fun hmem => ?_, fun hmem => ?_, ih (k + 1)⟩
    · obtain heq | hmem := List.mem_cons.mp hmem
      · exact keyVar_ne_valueVar heq
      · obtain ⟨n, hn, hkey | hvalue⟩ := mem_entriesVars hmem
        · exact absurd (keyVar_inj hkey) (by omega)
        · exact keyVar_ne_valueVar hvalue
    · obtain ⟨n, hn, hkey | hvalue⟩ := mem_entriesVars hmem
      · exact keyVar_ne_valueVar hkey.symm
      · exact absurd (valueVar_inj hvalue) (by omega)

/-- Each of them has what the entry says. -/
theorem lookup_entriesVars (k n : ℕ) (entries : List (String × String)) :
    (entriesVars k entries).lookup (keyVar (k + n)) = entries[n]?.map Prod.fst
      ∧ (entriesVars k entries).lookup (valueVar (k + n)) = entries[n]?.map Prod.snd := by
  induction entries generalizing k n with
  | nil => exact ⟨rfl, rfl⟩
  | cons e entries ih =>
    rw [entriesVars_cons, Json.lookup_cons, Json.lookup_cons, Json.lookup_cons,
      Json.lookup_cons, if_neg keyVar_ne_valueVar, if_neg keyVar_ne_valueVar.symm]
    cases n with
    | zero => exact ⟨if_pos rfl, if_pos rfl⟩
    | succ n =>
      have hrest := ih (k + 1) n
      rw [Nat.add_right_comm] at hrest
      rw [if_neg fun heq => absurd (keyVar_inj heq) (by omega),
        if_neg fun heq => absurd (valueVar_inj heq) (by omega), List.getElem?_cons_succ]
      exact hrest

/-- Variables that have nothing to do with configuration, and entries behind them. -/
theorem numbered_append {front : Env} (hnodup : (front.map Prod.fst).Nodup)
    (hfront : ∀ name ∈ front.map Prod.fst, ¬ IsConfigVar name) :
    Numbered (front ++ [(countVar, toString entries.length)] ++ entriesVars 0 entries)
      entries := by
  have hcount : front.lookup countVar = none :=
    Json.lookup_eq_none fun hmem => hfront _ hmem (Or.inl rfl)
  have hnone : (entriesVars 0 entries).lookup countVar = none := by
    refine Json.lookup_eq_none fun hmem => ?_
    obtain ⟨n, -, hkey | hvalue⟩ := mem_entriesVars hmem
    · exact keyVar_ne_countVar hkey.symm
    · exact valueVar_ne_countVar hvalue.symm
  -- a variable of the configuration is the count, or behind it
  have hbefore : ∀ name, IsConfigVar name → name ≠ countVar →
      (front ++ [(countVar, toString entries.length)]).lookup name = none := by
    intro name hname hne
    rw [lookup_concat, Json.lookup_eq_none fun hmem => hfront _ hmem hname, if_neg hne]
    rfl
  refine ⟨?_, Or.inl ?_, fun n => ?_, fun n => ?_⟩
  · rw [List.map_append]
    refine List.nodup_append.mpr
      ⟨nodup_concat hnodup hcount, nodup_entriesVars 0 entries, fun x hx y hy hxy => ?_⟩
    subst hxy
    have hconfig : IsConfigVar x := by
      obtain ⟨n, -, hname⟩ := mem_entriesVars hy
      exact Or.inr ⟨n, hname⟩
    have hne : x ≠ countVar := by
      rintro rfl
      exact notMem_of_lookup hnone hy
    exact notMem_of_lookup (hbefore x hconfig hne) hx
  · rw [List.lookup_append, lookup_concat, hcount, if_pos rfl]
    rfl
  · rw [List.lookup_append, hbefore _ (Or.inr ⟨n, Or.inl rfl⟩) keyVar_ne_countVar, Option.none_or]
    have hkey := (lookup_entriesVars 0 n entries).left
    rwa [Nat.zero_add] at hkey
  · rw [List.lookup_append, hbefore _ (Or.inr ⟨n, Or.inr rfl⟩) valueVar_ne_countVar,
      Option.none_or]
    have hvalue := (lookup_entriesVars 0 n entries).right
    rwa [Nat.zero_add] at hvalue

end Entries

/-- What the variables of git's configuration have at one place. -/
theorem twelfth_of_isConfigVar {name : String} (h : IsConfigVar name) :
    name.toList[11]? ∈ [some 'C', some 'K', some 'V'] := by
  obtain rfl | ⟨n, rfl | rfl⟩ := h
  · decide
  · rw [show (keyVar n).toList[11]? = some 'K' from twelfth _ (by decide)]
    decide
  · rw [show (valueVar n).toList[11]? = some 'V' from twelfth _ (by decide)]
    decide

/-- The variables of an identity are different. -/
theorem nodup_identity (a : Author) : (a.identity.map Prod.fst).Nodup := by
  show ["GIT_AUTHOR_NAME", "GIT_AUTHOR_EMAIL", "GIT_COMMITTER_NAME",
    "GIT_COMMITTER_EMAIL"].Nodup
  decide

/-- None of them is one of git's configuration. -/
theorem not_isConfigVar_identity (a : Author) :
    ∀ name ∈ a.identity.map Prod.fst, ¬ IsConfigVar name := by
  have hnames : ∀ name ∈ ["GIT_AUTHOR_NAME", "GIT_AUTHOR_EMAIL", "GIT_COMMITTER_NAME",
      "GIT_COMMITTER_EMAIL"], name.toList[11]? ∉ [some 'C', some 'K', some 'V'] := by
    decide
  exact fun name hname hconfig => hnames name hname (twelfth_of_isConfigVar hconfig)

/-- The environment of an optimizer has its overrides as entries. -/
theorem numbered_optimizerGitEnv (a : Author) : Numbered (optimizerGitEnv a) (overrides a) :=
  numbered_append (nodup_identity a) (not_isConfigVar_identity a)

/-- That of the bot turns off signing. -/
theorem numbered_botIdentityEnv (a : Author) :
    Numbered (botIdentityEnv a) [("commit.gpgsign", "false")] := by
  have hone : "1" = toString [("commit.gpgsign", "false")].length := by decide
  unfold botIdentityEnv
  rw [hone]
  exact numbered_append (nodup_identity a) (not_isConfigVar_identity a)

/-! ## What git reads -/

/-- The environments that entries are added to. -/
inductive Base (a : Author) : Env → List (String × String) → Prop where
  | none : Base a [] []
  | optimizer : Base a (optimizerGitEnv a) (overrides a)
  | archive : Base a (botIdentityEnv a) [("commit.gpgsign", "false")]

/-- Each base has the entries that it says. -/
theorem Base.numbered {a : Author} {base : Env} {entries : List (String × String)}
    (h : Base a base entries) : Numbered base entries := by
  cases h with
  | none => exact numbered_nil
  | optimizer => exact numbered_optimizerGitEnv a
  | archive => exact numbered_botIdentityEnv a

/-- **Entries are added behind those that are there**, whatever the process inherits: git
reads the ones of the environment and then the ones added, in their order, and all other
variables are what they were. The header with the token is added so. -/
theorem layers_read {a : Author} {base : Env} {entries layers : List (String × String)}
    (hbase : Base a base entries) (hne : layers ≠ [])
    (hlt : entries.length + layers.length < 2 ^ 64) :
    (∃ env, layers.foldlM (fun env e => mergeGitConfigEntry env e.1 e.2) base = Except.ok env
        ∧ ∀ inherited, Reads (seen inherited env) (entries ++ layers)
          ∧ ∀ name, ¬ IsConfigVar name → seen inherited env name = seen inherited base name)
      ∧ ∀ encode token authUsername authUrlPrefix, ∃ env,
        authEnv encode base token authUsername authUrlPrefix = Except.ok env
          ∧ ∀ inherited, Reads (seen inherited env)
            (entries ++ [authHeaderConfigEntries encode token authUsername authUrlPrefix]) := by
  have hnumbered := hbase.numbered
  have hpos : 0 < layers.length := List.length_pos_iff.mpr hne
  refine ⟨?_, fun encode token authUsername authUrlPrefix => ?_⟩
  · obtain ⟨env, hfold, hall, hother⟩ := numbered_foldlM hnumbered hlt
    refine ⟨env, hfold, fun inherited => ⟨hall.reads (by simp [hne]) inherited,
      fun name hname => ?_⟩⟩
    rw [seen_eq inherited hall.nodup, seen_eq inherited hnumbered.nodup, hother name hname]
  · obtain ⟨env, hmerge, hall, -⟩ := numbered_merge hnumbered (by omega)
      (authHeaderConfigEntries encode token authUsername authUrlPrefix).1
      (authHeaderConfigEntries encode token authUsername authUrlPrefix).2
    exact ⟨env, hmerge, fun inherited => hall.reads (by simp) inherited⟩

/-- An agent's environment with the header on top of it. -/
theorem layers_read_optimizer :
    ∃ env, authEnv (fun s => s) (optimizerGitEnv ⟨none, none⟩) "tok" "x-access-token"
        "https://github.com/" = Except.ok env
      ∧ Reads (seen (fun _ => some "7") env) (overrides ⟨none, none⟩
        ++ [("http.https://github.com/.extraheader",
          "AUTHORIZATION: basic x-access-token:tok")]) := by
  have hbase : Base ⟨none, none⟩ (optimizerGitEnv ⟨none, none⟩) (overrides ⟨none, none⟩) :=
    Base.optimizer
  have hlt : (overrides ⟨none, none⟩).length + [("a", "b")].length < 2 ^ 64 := by decide
  obtain ⟨env, henv, hreads⟩ := (layers_read hbase (List.cons_ne_nil _ _) hlt).right
    (fun s => s) "tok" "x-access-token" "https://github.com/"
  exact ⟨env, henv, hreads _⟩

/-! ## Seeding a repository -/

/-- How a push to a URL is authorised. -/
inductive AuthMode where
  | httpsPat
  | ssh
  | localFile
  deriving DecidableEq

/-- How the address of a push is authorized. -/
def classifyDestUrl (url : String) : Fallible AuthMode :=
  if Text.startsWith url "https://" then Except.ok AuthMode.httpsPat
  else if Text.startsWith url "git@" || Text.startsWith url "ssh://" then
    Except.ok AuthMode.ssh
  else if Text.startsWith url "file://" then Except.ok AuthMode.localFile
  else if Text.startsWith url "http://" then
    bail (s!"`--to` URL `{url}` uses plain HTTP; HTTPS is required for PAT injection. Use "
      ++ "`https://...`, `git@...`, `ssh://...`, or `file://...`.")
  else
    bail (s!"`--to` URL `{url}` has unsupported scheme; expected one of `https://`, `git@`, "
      ++ "`ssh://`, `file://`.")

/-- The environment that `sbagent source seed` pushes with; the token is read from its
file. -/
def seedPushEnv (encode : String → String) (g : GitSettings) (authUsername : String)
    (readToken : Fallible String) (destUrl : String) : Fallible Env := do
  let mode ← classifyDestUrl destUrl
  if mode = AuthMode.httpsPat then
    let authUrlPrefix ← g.effectiveAuthUrlPrefix
    validateAuthUrl destUrl authUrlPrefix "`--to`"
    let token ← readToken
    return buildAuthHeaderEnv encode destUrl token authUsername authUrlPrefix
  else return []

section Seed

variable {encode : String → String} {g : GitSettings} {authUsername destUrl : String}
  {readToken : Fallible String} {env : Env}

/-- An `https` address takes a token. -/
theorem classifyDestUrl_https (h : Text.startsWith destUrl "https://" = true) :
    classifyDestUrl destUrl = Except.ok AuthMode.httpsPat := by
  unfold classifyDestUrl
  rw [if_pos h]

/-- No other address does. -/
theorem ne_httpsPat_of_classify (h : Text.startsWith destUrl "https://" = false) {mode : AuthMode}
    (hmode : classifyDestUrl destUrl = Except.ok mode) : mode ≠ AuthMode.httpsPat := by
  unfold classifyDestUrl at hmode
  rw [h, if_neg Bool.false_ne_true] at hmode
  split_ifs at hmode
  · rw [← Except.ok.inj hmode]
    exact AuthMode.noConfusion
  · rw [← Except.ok.inj hmode]
    exact AuthMode.noConfusion
  · cases hmode
  · cases hmode

/-- The environment of a push has one entry, the header. -/
theorem numbered_buildAuthHeaderEnv {token authUrlPrefix : String}
    (h : Text.startsWith destUrl "https://" = true) :
    Numbered (buildAuthHeaderEnv encode destUrl token authUsername authUrlPrefix)
      [authHeaderConfigEntries encode token authUsername authUrlPrefix] := by
  unfold buildAuthHeaderEnv
  rw [h, if_neg (by decide)]
  have hone : "1" = toString (1 : ℕ) := by decide
  rw [hone]
  have hnodup : (List.map Prod.fst ([] : Env)).Nodup := List.nodup_nil
  have hfront : ∀ name ∈ List.map Prod.fst ([] : Env), ¬ IsConfigVar name :=
    fun name hname => absurd hname List.not_mem_nil
  have key : ∀ entries, Numbered
      (([] : Env) ++ [(countVar, toString entries.length)] ++ entriesVars 0 entries) entries :=
    fun entries => numbered_append hnodup hfront
  exact key [authHeaderConfigEntries encode token authUsername authUrlPrefix]

/-- **Seeding sends the token to the host of the prefix**, if at all: to a URL that begins
with the prefix, in a header for that host. Otherwise nothing is added to the environment,
and the token is not even read. -/
theorem seed_confined (hnames : NamesHost g)
    (h : seedPushEnv encode g authUsername readToken destUrl = Except.ok env) :
    (Text.startsWith destUrl "https://" = false ∧ env = []
        ∧ ∀ readToken', seedPushEnv encode g authUsername readToken' destUrl = Except.ok [])
      ∨ ∃ p token, g.effectiveAuthUrlPrefix = Except.ok p ∧ readToken = Except.ok token
        ∧ scheme destUrl = "https".toList
        ∧ (p ≠ "" → namesHost p = true ∧ hostPort destUrl = hostPort p
          ∧ ArmedFor (authHeaderConfigEntries encode token authUsername p).1 (hostPort destUrl))
        ∧ ∀ inherited, Reads (seen inherited env)
          [authHeaderConfigEntries encode token authUsername p] := by
  cases hhttps : Text.startsWith destUrl "https://" with
  | false =>
    -- the token is read in the branch for https only
    have hnot : ∀ {readToken : Fallible String} {env : Env},
        seedPushEnv encode g authUsername readToken destUrl = Except.ok env → env = [] := by
      intro readToken env h
      obtain ⟨mode, hmode, h⟩ := bind_ok_iff.mp h
      rw [if_neg (ne_httpsPat_of_classify hhttps hmode)] at h
      exact (Except.ok.inj h).symm
    refine Or.inl ⟨rfl, hnot h, fun readToken' => ?_⟩
    obtain ⟨mode, hmode, -⟩ := bind_ok_iff.mp h
    unfold seedPushEnv
    rw [hmode]
    exact if_neg (ne_httpsPat_of_classify hhttps hmode)
  | true =>
    right
    unfold seedPushEnv at h
    rw [classifyDestUrl_https hhttps] at h
    obtain ⟨mode, hmode, h⟩ := bind_ok_iff.mp h
    obtain rfl := Except.ok.inj hmode
    rw [if_pos rfl] at h
    obtain ⟨p, hp, h⟩ := bind_ok_iff.mp h
    obtain ⟨hvalid, h⟩ := seq_ok_iff.mp h
    obtain ⟨token, htoken, h⟩ := bind_ok_iff.mp h
    obtain rfl := Except.ok.inj h
    have hscheme : scheme destUrl = "https".toList := by
      obtain ⟨rest, hrest⟩ := Text.startsWith_iff.mp hhttps
      unfold scheme
      rw [hrest]
      rfl
    refine ⟨p, token, hp, htoken, hscheme, fun hne => ?_, fun inherited =>
      (numbered_buildAuthHeaderEnv hhttps).reads (List.cons_ne_nil _ _) inherited⟩
    have hnamed := namesHost_iff.mp hnames p hp hne
    have hsame := hostPort_eq hp hne hnamed hvalid
    exact ⟨hnamed, hsame, p, if_neg hne, hsame.symm⟩

/-- A push to a host that is configured. -/
theorem seed_confined_gitlab :
    ∃ env, seedPushEnv (fun s => s) ⟨some "https://gitlab.com"⟩ "oauth2" (Except.ok "tok")
        "https://gitlab.com/o/r.git" = Except.ok env
      ∧ Reads (seen (fun _ => none) env)
        [("http.https://gitlab.com/.extraheader", "AUTHORIZATION: basic oauth2:tok")] := by
  have henv : seedPushEnv (fun s => s) ⟨some "https://gitlab.com"⟩ "oauth2" (Except.ok "tok")
      "https://gitlab.com/o/r.git" = Except.ok (buildAuthHeaderEnv (fun s => s)
        "https://gitlab.com/o/r.git" "tok" "oauth2" "https://gitlab.com/") := by
    decide +kernel
  have hnames : NamesHost ⟨some "https://gitlab.com"⟩ := by
    intro raw hraw _
    obtain rfl := Option.some.inj hraw
    decide
  obtain ⟨hno, -⟩ | ⟨p, token, hp, htoken, -, -, hreads⟩ := seed_confined hnames henv
  · exact absurd hno (by decide)
  · have hpre : p = "https://gitlab.com/" :=
      (Except.ok.inj (hp.symm.trans (by decide +kernel :
        GitSettings.effectiveAuthUrlPrefix ⟨some "https://gitlab.com"⟩
          = Except.ok "https://gitlab.com/")))
    rw [hpre, ← Except.ok.inj htoken] at hreads
    exact ⟨_, henv, hreads _⟩

end Seed

end GitEnv
