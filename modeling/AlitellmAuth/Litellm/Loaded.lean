import AlitellmAuth.Catalog.Lists
import AlitellmAuth.Framework.PyView
import AlitellmAuth.Framework.TwoRuns
import AlitellmAuth.Litellm.KeyRows

/-! # The listing of loaded rows

    A row of `/key/list` is any JSON value, and a text in it is any sequence of
    code points: `alias.encode()` raises on a lone surrogate. Here the listing
    works on the values as they are loaded.

    * `get_key_id`, `project_session_key`, `list_session_keys`: the functions.
    * `list_session_keys_toPy`: without surrogates, the listing is the one of
      `Keys`.
    * `listing_total_iff`: exactly which responses can be listed. One row that
      cannot be read, and two creation times that cannot be compared, take the
      listing with them.
-/

namespace AlitellmAuth.Litellm.Loaded

open PyValue
open Catalog (HttpAnswer ListError is_success)

abbrev Value := PyValue JsonFloat

abbrev Fields := List (PyStr × Value)

/-- A dictionary with the keys of the source. -/
abbrev Row := Catalog.Info JsonFloat

/-- `bool(value)`. -/
def truth (value : Value) : Bool := value.truthy fun x => decide (x = 0)

/-- `a or b`. -/
def or_value (a b : Value) : Value := if truth a then a else b

/-! ## One row -/

section
variable (loads : PyStr → Option Value) (sha256 : String → String)

/-- `_parse_metadata`; `loads` is `json.loads`, `none` if it raises. -/
def parse_metadata : Value → Value
  | .str raw =>
      match loads raw with
      | some value => or_value value (.obj [])
      | none => .obj []
  | .obj fields => .obj fields
  | _ => .obj []

/-- `metadata.get(key)`; metadata that is no dictionary raises. -/
def md_get (metadata : Value) (key : String) : Except ListError Value :=
  match metadata with
  | .obj fields => .ok (get fields key)
  | _ => .error .other

/-- `alias.encode()`: only a text has the method, and only one without
    surrogates can be encoded. -/
def encoded : Value → Except ListError String
  | .str s =>
      match toChars s with
      | some cs => .ok (String.ofList cs)
      | none => .error .other
  | _ => .error .other

/-- A text that is no plaintext key. -/
def is_hash : Value → Bool
  | .str s => !(lit "sk-").isPrefixOf s
  | _ => false

/-- The id of a key without an alias: an id field, else a hash. -/
def unnamed_id (data : Fields) : Value :=
  if truth (get data "key_id") then get data "key_id"
  else if truth (get data "token_id") then get data "token_id"
  else if is_hash (get data "key") then get data "key"
  else if is_hash (get data "token") then get data "token"
  else .null

/-- The alias that names a key: its own, or the friendly one. -/
def naming_alias (data : Fields) (metadata : Value) : Except ListError Value :=
  let own := or_value (get data "key_alias") .null
  if !truth own && truth metadata then md_get metadata "key_alias" else .ok own

/-- `_get_key_id`, without a fallback alias. -/
def get_key_id (data : Fields) (metadata : Value) : Except ListError Value := do
  let name ← naming_alias data metadata
  if truth name then return text (sha256 (← encoded name)) else return unnamed_id data

/-- `_display_alias`. -/
def display_alias (k : Fields) (md : Value) : Except ListError Value := do
  return or_value (← md_get md "key_alias") (get k "key_alias")

/-- `_project_session_key`. -/
def project_session_key (k : Fields) (md : Value) : Except ListError Row := do
  let id ← get_key_id sha256 k md
  let key_alias ← display_alias k md
  let created_at ← md_get md "created_at"
  let source ← md_get md "source"
  return [
    ("id", id),
    ("token", get k "token"),
    ("key_alias", key_alias),
    ("spend", (k.lookup (lit "spend")).getD (.float 0)),
    ("budget", .null),
    ("tpm_limit", get k "tpm_limit"),
    ("rpm_limit", get k "rpm_limit"),
    ("models", get k "models"),
    ("team_id", get k "team_id"),
    ("created_at", or_value created_at (get k "created_at")),
    ("expires", get k "expires"),
    ("last_used", get k "last_active"),
    ("blocked", .bool (truth (get k "blocked"))),
    ("managed", .bool (source.is "token-factory")),
    ("metadata", md)]

/-! ## Listing -/

/-- `row.get("created_at") or ""`. -/
def sort_key (row : Row) : Value := or_value (Catalog.info_get row "created_at") (text "")

/-- Newest first. -/
def newest_first (rows : List Row) : Except ListError (List Row) :=
  match sortDesc sort_key rows with
  | some out => .ok out
  | none => .error .other

/-- The loop of `list_session_keys`, `none` if a row is a bare text; what is
    neither a text nor a dictionary is skipped. -/
def session_rows : List Value → Except ListError (Option (List Row))
  | [] => .ok (some [])
  | .str _ :: _ => .ok none
  | .obj k :: rows => do
      let row ← project_session_key sha256 k (parse_metadata loads (get k "metadata"))
      let rest ← session_rows rows
      return rest.map (row :: ·)
  | _ :: rows => session_rows rows

/-- `list_session_keys`, given what becomes of its request and what
    `_list_session_keys_fallback` would return. -/
def list_session_keys (fallback : Except ListError (List Row)) :
    HttpAnswer JsonFloat → Except ListError (List Row)
  | .unreachable => .error .request
  | .response status body =>
      if is_success status = false then .error (.status status)
      else
        match body with
        | some (.obj fields) =>
            match (fields.lookup (lit "keys")).getD (.arr []) with
            | .arr rows => do
                match ← session_rows loads sha256 rows with
                | none => fallback
                | some out => newest_first out
            | _ => .ok []
        | _ => .error .other

/-! ## Which rows can be read -/

/-- The alias that the id of a row is taken from. -/
def naming (k md : Fields) : Value := or_value (get k "key_alias") (get md "key_alias")

/-- The alias is missing, empty, or a text that can be encoded. -/
def Namable (k md : Fields) : Prop :=
  truth (naming k md) = true → ∃ s, naming k md = .str s ∧ encodes s = true

/-- A row that can be projected: its metadata is a dictionary, and its alias can
    be encoded, if there is one. -/
def Readable (k : Fields) : Prop :=
  ∃ md, parse_metadata loads (get k "metadata") = .obj md ∧ Namable k md

/-- The dictionaries among the rows. -/
def objects : List Value → List Fields
  | [] => []
  | .obj k :: rows => k :: objects rows
  | _ :: rows => objects rows

/-- The rows of a response body; none if `keys` is missing or no list. -/
def rows_of : Value → List Value
  | .obj fields =>
      match fields.lookup (lit "keys") with
      | some (.arr rows) => rows
      | _ => []
  | _ => []

/-- No row is a bare text. -/
def FullObjects (rows : List Value) : Prop := ∀ s, .str s ∉ rows

/-- The creation time that a row is sorted by. -/
def created_key (k : Fields) : Value :=
  match parse_metadata loads (get k "metadata") with
  | .obj md => or_value (or_value (get md "created_at") (get k "created_at")) (text "")
  | _ => text ""

/-- Every dictionary can be read, and every two creation times compared. -/
def Listable (body : Value) : Prop :=
  (∃ fields, body = .obj fields) ∧ (∀ k ∈ objects (rows_of body), Readable loads k) ∧
    (objects (rows_of body)).Pairwise (Comparable (created_key loads))

/-- A field is absent or a text. -/
def TextOrAbsent (k : Fields) (name : String) : Prop :=
  get k name = .null ∨ ∃ s, get k name = .str s

/-- A row as LiteLLM documents it. -/
def WellFormed (k : Fields) : Prop :=
  (∀ name ∈ ["key_alias", "key_id", "token_id", "created_at"], TextOrAbsent k name) ∧
    ∃ md, get k "metadata" = .obj md

/-- The listing is a list, shows every well-formed row, and is in order. -/
def Lists (body : Value) (result : Except ListError (List Row)) : Prop :=
  ∃ out, result = .ok out ∧
    (∀ k, .obj k ∈ rows_of body → WellFormed k →
      ∃ row ∈ out, project_session_key sha256 k (get k "metadata") = .ok row) ∧
    out.IsChain (NotBelow sort_key)

/-! ## Reading one row -/

variable {loads sha256}

theorem naming_alias_obj (k md : Fields) :
    ∃ name, naming_alias k (.obj md) = .ok name ∧ truth name = truth (naming k md) ∧
      (truth name = true → name = naming k md) := by
  unfold naming_alias naming or_value
  cases htruth : truth (get k "key_alias") with
  | true => exact ⟨get k "key_alias", by simp [htruth], by simp [htruth], fun _ => rfl⟩
  | false =>
    cases md with
    | nil => exact ⟨.null, rfl, rfl, fun h => by cases h⟩
    | cons f md => exact ⟨get (f :: md) "key_alias", rfl, rfl, fun _ => rfl⟩

theorem get_key_id_obj (k md : Fields) :
    get_key_id sha256 k (.obj md) =
      if truth (naming k md) then (encoded (naming k md)).map fun s => text (sha256 s)
      else .ok (unnamed_id k) := by
  obtain ⟨name, hname, htruth, heq⟩ := naming_alias_obj k md
  unfold get_key_id
  rw [hname]
  show (if truth name then _ else _) = _
  rw [htruth]
  split
  · next h =>
    rw [heq (htruth.trans h)]
    cases encoded (naming k md) <;> rfl
  · rfl

theorem encoded_iff (value : Value) :
    (∃ s, encoded value = .ok s) ↔ ∃ s, value = .str s ∧ encodes s = true := by
  cases value with
  | str s =>
    unfold encoded
    simp only [PyValue.str.injEq, exists_eq_left', encodes_iff]
    cases toChars s <;> simp
  | null | bool | int | float | arr | obj => simp [encoded]

/-- Reading an alias raises nothing but an exception of its own. -/
theorem encoded_error {value : Value} {e : ListError} (h : encoded value = .error e) :
    e = .other := by
  cases value with
  | str s =>
    unfold encoded at h
    dsimp only at h
    generalize toChars s = cs at h
    cases cs with
    | some cs => cases h
    | none =>
      cases h
      rfl
  | null | bool | int | float | arr | obj =>
    cases h
    rfl

theorem get_key_id_namable {k md : Fields} (h : Namable k md) :
    ∃ id, get_key_id sha256 k (.obj md) = .ok id := by
  rw [get_key_id_obj]
  split
  · next htruth =>
    obtain ⟨s, hs⟩ := (encoded_iff _).mpr (h htruth)
    exact ⟨text (sha256 s), by rw [hs]; rfl⟩
  · exact ⟨unnamed_id k, rfl⟩

theorem get_key_id_not_namable {k md : Fields} (h : ¬ Namable k md) :
    get_key_id sha256 k (.obj md) = .error .other := by
  unfold Namable at h
  rw [Classical.not_imp, ← encoded_iff] at h
  rw [get_key_id_obj, if_pos h.1]
  cases hs : encoded (naming k md) with
  | ok s => exact absurd ⟨s, hs⟩ h.2
  | error e =>
    rw [encoded_error hs]
    rfl

theorem get_key_id_error {k : Fields} {md : Value} {e : ListError}
    (h : get_key_id sha256 k md = .error e) : e = .other := by
  unfold get_key_id at h
  -- metadata that is no dictionary has no alias to read
  have hname {e' : ListError} (h : naming_alias k md = .error e') : e' = .other := by
    unfold naming_alias at h
    dsimp only at h
    split at h
    · cases md with
      | obj fields => cases h
      | null | bool | int | float | str | arr =>
        cases h
        rfl
    · cases h
  cases halias : naming_alias k md with
  | error e' =>
    rw [halias] at h
    cases h
    exact hname halias
  | ok name =>
    rw [halias] at h
    change (if truth name then _ else _) = _ at h
    split at h
    · cases hs : encoded name with
      | ok s =>
        rw [hs] at h
        cases h
      | error e' =>
        rw [hs] at h
        cases h
        exact encoded_error hs
    · cases h

/-- A readable row has a projection, and is sorted by its creation time. -/
theorem project_readable {k : Fields} (h : Readable loads k) :
    ∃ row, project_session_key sha256 k (parse_metadata loads (get k "metadata")) = .ok row ∧
      sort_key row = created_key loads k := by
  obtain ⟨md, hmd, hname⟩ := h
  obtain ⟨id, hid⟩ := @get_key_id_namable sha256 k md hname
  unfold project_session_key created_key
  rw [hmd, hid]
  exact ⟨_, rfl, rfl⟩

theorem project_error {k : Fields} (h : ¬ Readable loads k) :
    project_session_key sha256 k (parse_metadata loads (get k "metadata")) = .error .other := by
  unfold project_session_key
  cases hmd : parse_metadata loads (get k "metadata") with
  | obj md =>
    rw [get_key_id_not_namable fun hname => h ⟨md, hmd, hname⟩]
    rfl
  | null | bool | int | float | str | arr =>
    -- Whatever the id, the friendly alias cannot be read.
    cases hid : get_key_id sha256 k _ with
    | error e =>
      obtain rfl := get_key_id_error hid
      rfl
    | ok id => rfl

/-! ## Reading all rows -/

theorem mem_objects {k : Fields} {rows : List Value} : k ∈ objects rows ↔ .obj k ∈ rows := by
  induction rows with
  | nil => simp [objects]
  | cons row rows ih =>
    cases row with
    | obj k' => simp [objects, ih]
    | null | bool | int | float | str | arr => simp [objects, ih]

/-- A dictionary and its row. -/
def Projected (loads : PyStr → Option Value) (sha256 : String → String) (k : Fields) (row : Row) :
    Prop :=
  project_session_key sha256 k (parse_metadata loads (get k "metadata")) = .ok row ∧
    sort_key row = created_key loads k

theorem session_rows_readable {rows : List Value} (hfull : FullObjects rows)
    (h : ∀ k ∈ objects rows, Readable loads k) :
    ∃ out, session_rows loads sha256 rows = .ok (some out) ∧
      List.Forall₂ (Projected loads sha256) (objects rows) out := by
  induction rows with
  | nil => exact ⟨[], rfl, .nil⟩
  | cons row rows ih =>
    have hfull' : FullObjects rows := fun s hs => hfull s (List.mem_cons_of_mem _ hs)
    cases row with
    | str s => exact absurd List.mem_cons_self (hfull s)
    | obj k =>
      obtain ⟨hk, hrest⟩ := List.forall_mem_cons.mp h
      obtain ⟨row, hrow, hkey⟩ := @project_readable loads sha256 k hk
      obtain ⟨out, hout, hall⟩ := ih hfull' hrest
      refine ⟨row :: out, ?_, .cons ⟨hrow, hkey⟩ hall⟩
      rw [session_rows, hrow, hout]
      rfl
    | null | bool | int | float | arr => exact ih hfull' h

theorem session_rows_error {rows : List Value} (hfull : FullObjects rows)
    (h : ¬ ∀ k ∈ objects rows, Readable loads k) :
    session_rows loads sha256 rows = .error .other := by
  induction rows with
  | nil => exact absurd (by simp [objects]) h
  | cons row rows ih =>
    have hfull' : FullObjects rows := fun s hs => hfull s (List.mem_cons_of_mem _ hs)
    cases row with
    | str s => exact absurd List.mem_cons_self (hfull s)
    | obj k =>
      rw [session_rows]
      by_cases hk : Readable loads k
      · obtain ⟨row, hrow, -⟩ := @project_readable loads sha256 k hk
        rw [hrow, ih hfull' fun hrest => h (List.forall_mem_cons.mpr ⟨hk, hrest⟩)]
        rfl
      · rw [project_error hk]
        rfl
    | null | bool | int | float | arr => exact ih hfull' h

/-- The rows can be compared as their dictionaries can. -/
theorem comparable_iff {ks : List Fields} {out : List Row}
    (h : List.Forall₂ (Projected loads sha256) ks out) :
    out.Pairwise (Comparable sort_key) ↔ ks.Pairwise (Comparable (created_key loads)) := by
  refine (TwoRuns.pairwise_iff h fun k row k' row' hrow hrow' => ?_).symm
  unfold Comparable
  rw [hrow.2, hrow'.2]

/-! ## The listing -/

variable {fallback : Except ListError (List Row)} {status : Nat}

/-- A body without a list of keys lists nothing; one with full objects lists its
    rows, newest first. -/
theorem list_session_keys_obj (hok : is_success status = true) (fields : Fields) :
    list_session_keys loads sha256 fallback (.response status (some (.obj fields))) =
      (session_rows loads sha256 (rows_of (.obj fields))).bind fun
        | none => fallback
        | some out => newest_first out := by
  unfold list_session_keys rows_of
  dsimp only
  rw [if_neg (by simp [hok])]
  cases hkeys : fields.lookup (lit "keys") with
  | none => rfl
  | some value => cases value <;> rfl

/-- A body that is no dictionary raises. -/
theorem list_session_keys_not_obj (hok : is_success status = true) {body : Value}
    (hobj : ¬ ∃ fields, body = .obj fields) :
    list_session_keys loads sha256 fallback (.response status (some body)) = .error .other := by
  unfold list_session_keys
  dsimp only
  rw [if_neg (by simp [hok])]
  cases body with
  | obj fields => exact absurd ⟨fields, rfl⟩ hobj
  | null | bool | int | float | str | arr => rfl

/-- A successful response is listed as it should be exactly when it can be
    listed at all. -/
theorem listing_total_iff (hok : is_success status = true) {body : Value}
    (hfull : FullObjects (rows_of body)) :
    Lists sha256 body
        (list_session_keys loads sha256 fallback (.response status (some body))) ↔
      Listable loads body := by
  constructor
  · rintro ⟨out, hout, -, -⟩
    have hobj : ∃ fields, body = .obj fields := by
      by_contra hobj
      rw [list_session_keys_not_obj hok hobj] at hout
      cases hout
    obtain ⟨fields, rfl⟩ := hobj
    rw [list_session_keys_obj hok] at hout
    have hread : ∀ k ∈ objects (rows_of (.obj fields)), Readable loads k := by
      by_contra hread
      rw [session_rows_error hfull hread] at hout
      cases hout
    obtain ⟨found, hfound, hall⟩ := @session_rows_readable loads sha256 _ hfull hread
    refine ⟨⟨fields, rfl⟩, hread, (comparable_iff hall).mp ?_⟩
    by_contra hcompare
    rw [hfound] at hout
    change newest_first found = .ok out at hout
    rw [newest_first, sortDesc, if_neg hcompare] at hout
    cases hout
  · rintro ⟨⟨fields, rfl⟩, hread, hcompare⟩
    obtain ⟨found, hfound, hall⟩ := @session_rows_readable loads sha256 _ hfull hread
    obtain ⟨out, hsort⟩ : ∃ out, sortDesc sort_key found = some out :=
      ⟨_, if_pos ((comparable_iff hall).mpr hcompare)⟩
    refine ⟨out, ?_, ?_, isChain_sortDesc hsort⟩
    · rw [list_session_keys_obj hok, hfound]
      show newest_first found = .ok out
      rw [newest_first, hsort]
    · rintro k hk ⟨-, md, hmd⟩
      -- the row of a well-formed dictionary is among those that are sorted
      obtain ⟨row, hrow, hproject, -⟩ := TwoRuns.exists_of_mem_left hall (mem_objects.mpr hk)
      refine ⟨row, (sortDesc_perm hsort).mem_iff.mpr hrow, ?_⟩
      rw [hmd] at hproject ⊢
      exact hproject

end

/-! Two keys of ours, and foreign ones: one without an alias whose metadata is a
    text, one whose alias is a number, and one whose alias cannot be encoded. -/

def json_loads (raw : PyStr) : Option Value := if raw = lit "null" then some .null else none

/-- SHA-256 on the aliases below. -/
def alias_sha256 (s : String) : String :=
  if s = "lk-1" then "824ce3f71752b66f2ec03f13124c15419f36b17ce9fdfeeeb1bf26734179fd42"
  else if s = "lk-2" then "7d48b9296205736b378db2cd1b63e5bcc44b6b3116bd649c9887bb24345644a9"
  else s

def our_row (token name created_at : String) : Value :=
  dict [("token", text token), ("key_alias", text name),
    ("metadata", dict [("source", text "token-factory"), ("created_at", text created_at)])]

def unnamed_row : Value := dict [("token", text "h3"), ("metadata", text "null")]

def foreign_row (name : Value) : Value := dict [("token", text "h4"), ("key_alias", name)]

def key_body (rows : List Value) : Value := dict [("keys", .arr rows)]

theorem rows_of_key_body (rows : List Value) : rows_of (key_body rows) = rows := by
  simp [rows_of, key_body, dict]

theorem listing_total_sample :
    Lists alias_sha256
      (key_body [our_row "h1" "lk-1" "2026-05-01", .null, unnamed_row,
        our_row "h2" "lk-2" "2026-05-02"])
      (list_session_keys json_loads alias_sha256 (.ok []) (.response 200 (some
        (key_body [our_row "h1" "lk-1" "2026-05-01", .null, unnamed_row,
          our_row "h2" "lk-2" "2026-05-02"])))) := by
  refine (listing_total_iff rfl ?_).mpr ⟨⟨_, rfl⟩, fun k hk => ?_, by decide⟩
  · intro s hs
    rw [rows_of_key_body] at hs
    simp [our_row, unnamed_row, dict] at hs
  · rw [mem_objects, rows_of_key_body] at hk
    simp only [List.mem_cons, List.not_mem_nil, or_false] at hk
    rcases hk with h | h | h | h
    · cases h
      exact ⟨_, rfl, fun _ => ⟨_, rfl, encodes_lit "lk-1"⟩⟩
    · cases h
    · cases h
      exact ⟨_, rfl, fun h => by cases h⟩
    · cases h
      exact ⟨_, rfl, fun _ => ⟨_, rfl, encodes_lit "lk-2"⟩⟩

/-- A foreign key takes ours with it. -/
theorem foreign_key_hides :
    ¬ Lists alias_sha256 (key_body [our_row "h1" "lk-1" "2026-05-01", foreign_row (.int 5)])
        (list_session_keys json_loads alias_sha256 (.ok []) (.response 200 (some
          (key_body [our_row "h1" "lk-1" "2026-05-01", foreign_row (.int 5)])))) ∧
      ¬ Lists alias_sha256
        (key_body [our_row "h1" "lk-1" "2026-05-01", foreign_row (.str [.surrogate 0])])
        (list_session_keys json_loads alias_sha256 (.ok []) (.response 200 (some
          (key_body [our_row "h1" "lk-1" "2026-05-01", foreign_row (.str [.surrogate 0])])))) := by
  constructor
  · rintro ⟨out, hout, -, -⟩
    cases hout
  · rintro ⟨out, hout, -, -⟩
    cases hout

/-! ## Rows without surrogates -/

/-- A row of `Keys`, as the dictionary that the source returns. -/
def row_toPy (row : SessionRow) : Row := [
  ("id", row.id.toPy),
  ("token", row.token.toPy),
  ("key_alias", row.key_alias.toPy),
  ("spend", row.spend.toPy),
  ("budget", .null),
  ("tpm_limit", row.tpm_limit.toPy),
  ("rpm_limit", row.rpm_limit.toPy),
  ("models", row.models.toPy),
  ("team_id", row.team_id.toPy),
  ("created_at", row.created_at.toPy),
  ("expires", row.expires.toPy),
  ("last_used", row.last_used.toPy),
  ("blocked", .bool row.blocked),
  ("managed", .bool row.managed),
  ("metadata", row.metadata.toPy)]

/-- What becomes of a request. -/
def reply_toPy : HttpReply → HttpAnswer JsonFloat
  | .transport_error => .unreachable
  | .response resp => .response resp.status_code (resp.json.map Json.toPy)

/-- The same exception. -/
def SameError : Failure → ListError → Prop
  | .status _ resp, .status code => resp.status_code = code
  | .transport, .request => True
  | .crashed, .other => True
  | _, _ => False

theorem is_success_eq (resp : HttpResponse) : is_success resp.status_code = resp.is_success := by
  rw [Bool.eq_iff_iff]
  simp only [is_success, HttpResponse.is_success, Bool.and_eq_true, decide_eq_true_eq]
  omega

section
open TwoRuns

variable {settings : LitellmSettings} {loads : PyStr → Option Value} {sha256 : String → String}

@[simp] theorem truth_toPy (value : Json) : truth value.toPy = value.truthy := by
  cases value with
  | null | bool => rfl
  | num q =>
    by_cases hq : q = 0
    · subst hq
      rfl
    · simp [truth, Json.toPy, truthy, Json.truthy, hq]
  | str s =>
    by_cases hs : s = ""
    · subst hs
      rfl
    · have hempty : s.toList.isEmpty = false := by simpa using hs
      simp [truth, Json.toPy, truthy, Json.truthy, text, lit, chars, hs, hempty]
  | arr items => cases items <;> rfl
  | obj fields => rcases fields with _ | ⟨⟨k, v⟩, fields⟩ <;> rfl

@[simp] theorem or_value_toPy (a b : Json) : or_value a.toPy b.toPy = (py_or a b).toPy := by
  unfold or_value py_or
  rw [truth_toPy]
  split <;> rfl

@[simp] theorem get_toPy (fields : Dict) (key : String) :
    PyValue.get (Json.toPyFields fields) key = (field fields key).toPy := by
  unfold PyValue.get field
  rw [Json.lookup_toPyFields]
  cases fields.lookup key <;> rfl

@[simp] theorem is_toPy (value : Json) (s : String) : value.toPy.is s = is_text value s := by
  cases value with
  | str t =>
    show (text t).is s = (t == s)
    rw [is_of_text]
    rfl
  | null | bool | num | arr | obj => rfl

@[simp] theorem is_hash_toPy (value : Json) : is_hash value.toPy = Litellm.is_hash value := by
  cases value with
  | str s =>
    show (!(lit "sk-").isPrefixOf (lit s)) = !Text.startsWith "sk-" s
    congr 1
    rw [Bool.eq_iff_iff, Text.startsWith, List.isPrefixOf_iff_prefix, List.isPrefixOf_iff_prefix]
    exact List.prefix_map_iff_of_injective fun _ _ h => CodePoint.char.inj h
  | null | bool | num | arr | obj => rfl

theorem unnamed_id_toPy (k : Dict) :
    unnamed_id (Json.toPyFields k) = (Litellm.unnamed_id k).toPy := by
  unfold unnamed_id Litellm.unnamed_id
  simp only [get_toPy, truth_toPy, is_hash_toPy]
  split_ifs <;> rfl

/-- A value and the same value as it is loaded. -/
def Same (value : Json) (value' : Value) : Prop := value' = value.toPy

theorem related_md_get (metadata : Json) (key : String) :
    Related SameError Same (Litellm.md_get metadata key) (md_get metadata.toPy key) := by
  cases metadata with
  | obj fields => exact get_toPy fields key
  | null | bool | num | str | arr => exact trivial

theorem related_naming_alias (k : Dict) (md : Json) :
    Related SameError Same (Litellm.naming_alias k none md)
      (naming_alias (Json.toPyFields k) md.toPy) := by
  have hown : or_value (PyValue.get (Json.toPyFields k) "key_alias") .null =
      (py_or (field k "key_alias") .null).toPy := by
    rw [get_toPy]
    exact or_value_toPy _ .null
  unfold Litellm.naming_alias naming_alias
  simp only [hown, truth_toPy]
  show Related _ _ (if !(py_or (field k "key_alias") .null).truthy && md.truthy then _ else _) _
  split
  · exact related_md_get md "key_alias"
  · exact rfl

theorem related_get_key_id (k : Dict) (md : Json) :
    Related SameError Same (Litellm.get_key_id sha256 k none md)
      (get_key_id sha256 (Json.toPyFields k) md.toPy) := by
  have hname := related_naming_alias k md
  unfold Litellm.get_key_id get_key_id
  generalize Litellm.naming_alias k none md = name at hname
  generalize naming_alias (Json.toPyFields k) md.toPy = name' at hname
  cases name with
  | error e =>
    cases name' with
    | error e' => exact hname
    | ok name' => exact hname.elim
  | ok name =>
    cases name' with
    | error e' => exact hname.elim
    | ok name' =>
      obtain rfl : name' = name.toPy := hname
      show Related _ _ (if name.truthy then _ else _) (if truth name.toPy then _ else _)
      -- the same name on both sides; a String can always be encoded
      rw [truth_toPy]
      split
      · cases name with
        | str s =>
          have hs : toChars (lit s) = some s.toList := toChars_eq_some.mpr rfl
          have hencoded : encoded (Json.str s).toPy = .ok s := by
            show encoded (.str (lit s)) = .ok s
            unfold encoded
            dsimp only
            rw [hs]
            exact congrArg Except.ok String.ofList_toList
          rw [hencoded]
          exact rfl
        | null | bool | num | arr | obj => exact trivial
      · exact unnamed_id_toPy k

theorem related_display_alias (k : Dict) (md : Json) :
    Related SameError Same (Litellm.display_alias k md)
      (display_alias (Json.toPyFields k) md.toPy) := by
  refine related_bind (related_md_get md "key_alias") ?_
  rintro name _ rfl
  show or_value name.toPy (PyValue.get _ "key_alias") = _
  rw [get_toPy, or_value_toPy]

theorem related_project (k : Dict) (md : Json) :
    Related SameError (fun row row' => row' = row_toPy row)
      (Litellm.project_session_key sha256 k md)
      (project_session_key sha256 (Json.toPyFields k) md.toPy) := by
  unfold Litellm.project_session_key project_session_key
  refine related_bind (related_get_key_id k md) ?_
  rintro id _ rfl
  refine related_bind (related_display_alias k md) ?_
  rintro key_alias _ rfl
  refine related_bind (related_md_get md "created_at") ?_
  rintro created_at _ rfl
  refine related_bind (related_md_get md "source") ?_
  rintro source _ rfl
  have hspend : ((Json.toPyFields k).lookup (lit "spend")).getD (.float 0) =
      ((k.lookup "spend").getD (.num 0)).toPy := by
    rw [Json.lookup_toPyFields]
    cases k.lookup "spend" <;> rfl
  show _ = row_toPy _
  simp only [hspend, get_toPy, or_value_toPy, truth_toPy, is_toPy]
  rfl

/-- `json.loads` reads the metadata of every row alike: no text of it holds an
    escaped surrogate. -/
def LoadsAlike (settings : LitellmSettings) (loads : PyStr → Option Value) (rows : List Json) :
    Prop :=
  ∀ k raw, .obj k ∈ rows → field k "metadata" = .str raw →
    loads (lit raw) = (settings.loads raw).map Json.toPy

theorem parse_metadata_toPy {k : Dict}
    (h : ∀ raw, field k "metadata" = .str raw →
      loads (lit raw) = (settings.loads raw).map Json.toPy) :
    parse_metadata loads (field k "metadata").toPy =
      (Litellm.parse_metadata settings (field k "metadata")).toPy := by
  cases hmd : field k "metadata" with
  | str raw =>
    unfold Litellm.parse_metadata
    rw [Json.toPy]
    unfold parse_metadata
    dsimp only [PyValue.text]
    rw [h raw hmd]
    cases settings.loads raw with
    | some value => exact or_value_toPy value (.obj [])
    | none => rfl
  | null | bool | num | arr | obj => rfl

theorem related_session_rows {rows : List Json} (h : LoadsAlike settings loads rows) :
    Related SameError (fun out out' => out' = out.map (List.map row_toPy))
      (Litellm.session_rows settings sha256 rows)
      (session_rows loads sha256 (Json.toPyItems rows)) := by
  induction rows with
  | nil => exact rfl
  | cons row rows ih =>
    have htail : LoadsAlike settings loads rows := fun k raw hk =>
      h k raw (List.mem_cons_of_mem _ hk)
    cases row with
    | str s => exact rfl
    | obj k =>
      have hmd := parse_metadata_toPy fun raw => h k raw List.mem_cons_self
      show Related _ _ _ (Except.bind (project_session_key sha256 (Json.toPyFields k)
        (parse_metadata loads (PyValue.get (Json.toPyFields k) "metadata"))) _)
      rw [get_toPy, hmd]
      refine related_bind (related_project k _) ?_
      rintro row _ rfl
      refine related_bind (ih htail) ?_
      rintro out _ rfl
      cases out <;> exact rfl
    | null | bool | num | arr => exact ih htail

theorem sort_key_toPy (row : SessionRow) : sort_key (row_toPy row) = (Litellm.sort_key row).toPy :=
  or_value_toPy row.created_at (.str "")

theorem related_newest_first (rows : List SessionRow) :
    Related SameError (fun out out' => out' = out.map row_toPy)
      (Litellm.newest_first Litellm.sort_key rows) (newest_first (rows.map row_toPy)) := by
  have hsort : sortDesc sort_key (rows.map row_toPy) =
      (Json.sortDesc Litellm.sort_key rows).map (List.map row_toPy) :=
    sortDesc_map sort_key_toPy rows
  unfold newest_first Litellm.newest_first
  rw [hsort]
  cases Json.sortDesc Litellm.sort_key rows with
  | some out => exact rfl
  | none => exact trivial

/-- A response without surrogates is listed as in `Keys`. -/
theorem list_session_keys_toPy {answer : Call → HttpReply} {email : String}
    {fallback : Except ListError (List Row)}
    (hrows : ∀ resp body, answer (.key_list (some email) none) = .response resp →
      resp.json = some body → LoadsAlike settings loads (Litellm.rows_of body))
    (hfallback : Related SameError (fun out out' => out' = out.map row_toPy)
      (outcome answer (list_session_keys_fallback settings sha256 email)) fallback) :
    Related SameError (fun out out' => out' = out.map row_toPy)
      (outcome answer (Litellm.list_session_keys settings sha256 email))
      (list_session_keys loads sha256 fallback
        (reply_toPy (answer (.key_list (some email) none)))) := by
  unfold Litellm.list_session_keys
  rw [outcome_bind_eq]
  cases hans : answer (.key_list (some email) none) with
  | transport_error =>
    rw [outcome_request_transport answer hans]
    exact trivial
  | response resp =>
    rw [outcome_request answer hans]
    show Related _ _ (outcome answer (listed resp >>= _)) _
    rw [outcome_bind_eq, outcome_listed_eq]
    show Related _ _ _ (if is_success resp.status_code = false then _ else _)
    rw [is_success_eq]
    cases resp.is_success with
    | false => exact rfl
    | true =>
      cases hbody : resp.json with
      | none => exact trivial
      | some body =>
        -- both read `keys`, and pass over a body that is no dictionary
        cases body with
        | obj fields =>
          have hkeys := Json.lookup_toPyFields fields "keys"
          have hrows := hrows resp _ hans hbody
          unfold Litellm.rows_of at hrows
          dsimp only at hrows
          show Related _ _ (Except.bind (.ok ((fields.lookup "keys").getD (.arr []))) _)
            (match ((Json.toPyFields fields).lookup (lit "keys")).getD (.arr []) with
            | .arr rows => (session_rows loads sha256 rows).bind fun
                | none => fallback
                | some out => newest_first out
            | _ => .ok [])
          rw [hkeys]
          cases hfound : fields.lookup "keys" with
          | none => exact rfl
          | some value =>
            cases value with
            | arr rows =>
              rw [hfound] at hrows
              show Related _ _ (outcome answer (lift _ >>= _)) (Except.bind _ _)
              rw [outcome_bind_eq, outcome_lift]
              -- no rows at all are hashes, and the fallback asks again
              refine related_bind (related_session_rows hrows) ?_
              rintro out _ rfl
              cases out with
              | none => exact hfallback
              | some out => exact related_newest_first out
            | null | bool | num | str | obj => exact rfl
        | null | bool | num | str | arr => exact trivial

end

end AlitellmAuth.Litellm.Loaded
