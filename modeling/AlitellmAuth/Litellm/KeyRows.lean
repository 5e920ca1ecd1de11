import AlitellmAuth.Litellm.Keys
import AlitellmAuth.Litellm.Outcome

/-! # What a listing returns

    The listing of a user's keys, read as a function of LiteLLM's answers.

    * `Readable`: a row that can be projected, and `project_readable`.
    * `list_session_keys_outcome`: the listing in terms of its rows. One row that
      cannot be read, and two creation times that cannot be compared, take the
      listing with them.
-/

namespace AlitellmAuth.Litellm

open Interleave

/-! ## What a listing sends -/

section
variable {settings : LitellmSettings} {sha256 : String → String} {ok : Call → Prop}

theorem still_lift {α : Type} (r : Except Failure α) : Still (lift r) := ⟨r, rfl⟩

@[simp] theorem outcome_lift {α : Type} (answer : Call → HttpReply) (r : Except Failure α) :
    outcome answer (lift r) = r := rfl

theorem still_listed (resp : HttpResponse) : Still (listed resp) :=
  still_bind (still_expect _ _ _) fun _ =>
    still_bind (still_parsed _) fun _ => still_dict_get _ _ _

theorem sends_get_key_info (hinfo : ∀ key, ok (.key_info key)) (api_key : String) :
    Sends ok (get_key_info settings sha256 api_key) := by
  refine sends_bind (sends_request (hinfo _)) fun resp => ?_
  refine sends_bind (sends_still (still_expect _ _ _)) fun _ => ?_
  refine sends_bind (sends_still (still_parsed _)) fun body => ?_
  split
  · split
    · -- the four fields that can fail to be read
      refine sends_bind (sends_still (still_lift _)) fun id => ?_
      refine sends_bind (sends_still (still_lift _)) fun email => ?_
      refine sends_bind (sends_still (still_lift _)) fun name => ?_
      exact sends_bind (sends_still (still_lift _)) fun created_at => sends_pure _
    · exact sends_throw _
  · exact sends_throw _

theorem sends_owned_keys (hinfo : ∀ key, ok (.key_info key)) (email : String) (rows : List Json) :
    Sends ok (owned_keys settings sha256 email rows) := by
  induction rows with
  | nil => exact sends_pure _
  | cons row rows ih =>
    cases row with
    | str k =>
      refine sends_bind (sends_get_key_info hinfo k) fun full_info => ?_
      exact sends_bind ih fun rest => sends_pure _
    | obj k =>
      refine sends_bind (sends_still (still_lift _)) fun owner => sends_ite ?_ ih
      refine sends_bind (sends_still (still_lift _)) fun id => ?_
      refine sends_bind (sends_still (still_lift _)) fun created_at => ?_
      exact sends_bind ih fun rest => sends_pure _
    | null | bool | num | arr => exact ih

theorem sends_list_litellm_keys (hinfo : ∀ key, ok (.key_info key))
    (hlist : ∀ user team, ok (.key_list user team)) (email : String) :
    Sends ok (list_litellm_keys settings sha256 email) := by
  refine sends_bind (sends_request (hlist _ _)) fun resp => ?_
  refine sends_bind (sends_still (still_listed _)) fun keys => ?_
  split
  · refine sends_bind (sends_owned_keys hinfo email _) fun user_keys => ?_
    exact sends_still (still_lift _)
  · exact sends_pure _

/-- The listing only asks for keys. -/
theorem sends_list_session_keys (hinfo : ∀ key, ok (.key_info key))
    (hlist : ∀ user team, ok (.key_list user team)) (email : String) :
    Sends ok (list_session_keys settings sha256 email) := by
  refine sends_bind (sends_request (hlist _ _)) fun resp => ?_
  refine sends_bind (sends_still (still_listed _)) fun keys => ?_
  split
  · refine sends_bind (sends_still (still_lift _)) fun out => ?_
    split
    · refine sends_bind (sends_list_litellm_keys hinfo hlist email) fun raw_keys => ?_
      exact sends_still (still_lift _)
    · exact sends_still (still_lift _)
  · exact sends_pure _

theorem still_iterate_all (value : Json) : Still (iterate_all value) := by
  cases value with
  | arr | str | obj => exact still_pure _
  | null | bool | num => exact still_throw _

theorem still_alias_by_id (rows : List Json) : Still (alias_by_id rows) :=
  still_ite (still_pure _) (still_throw _)

theorem still_member_teams (aliases : List (Json × Json)) (teams : List Json)
    (out : List (Json × Json)) : Still (member_teams aliases teams out) := by
  induction teams generalizing out with
  | nil => exact still_pure _
  | cons t teams ih =>
    exact still_ite (ih _) (still_ite (still_throw _) (still_ite (ih _) (ih _)))

theorem still_team_rows (resp : HttpResponse) : Still (team_rows resp) := by
  refine still_ite (still_bind (still_parsed _) fun body => ?_) (still_pure _)
  split
  · exact still_iterate_all _
  · exact still_iterate_all _

theorem still_raw_teams (resp : HttpResponse) : Still (raw_teams resp) :=
  still_bind (still_parsed _) fun _ =>
    still_bind (still_dict_get _ _ _) fun _ => still_ite (still_dict_get _ _ _) (still_pure _)

theorem sends_list_user_teams (hinfo : ∀ id, ok (.user_info id)) (hlist : ok .team_list)
    (email : String) : Sends ok (list_user_teams email) := by
  refine sends_bind (sends_request (hinfo _)) fun info_resp => ?_
  refine sends_bind (sends_still (still_expect _ _ _)) fun _ => ?_
  refine sends_bind (sends_request hlist) fun list_resp => ?_
  refine sends_bind (sends_still (still_raw_teams _)) fun teams => ?_
  refine sends_bind (sends_still (still_team_rows _)) fun rows => ?_
  refine sends_bind (sends_still (still_alias_by_id _)) fun aliases => ?_
  refine sends_bind (sends_still (still_iterate _)) fun items => ?_
  exact sends_still (still_member_teams _ _ _)

theorem sends_assert_team_membership (hinfo : ∀ id, ok (.user_info id)) (hlist : ok .team_list)
    (email team_id : String) : Sends ok (assert_team_membership email team_id) := by
  refine sends_bind (sends_list_user_teams hinfo hlist email) fun teams => ?_
  exact sends_ite (sends_pure _) (sends_throw _)

end

/-! ## One row -/

section
variable (settings : LitellmSettings) (sha256 : String → String)

/-- The alias that the id of a row is taken from. -/
def naming (k md : Dict) : Json := py_or (field k "key_alias") (field md "key_alias")

/-- The id of a row. -/
def row_id (k md : Dict) : Json :=
  if (naming k md).truthy then
    match naming k md with
    | .str s => .str (sha256 s)
    | _ => .null
  else unnamed_id k

/-- The alias is missing, empty or a string. -/
def Namable (k md : Dict) : Prop :=
  (naming k md).truthy = true → ∃ s, naming k md = .str s

/-- The row of a key. -/
def row_of (k md : Dict) : SessionRow where
  id := row_id sha256 k md
  token := field k "token"
  key_alias := py_or (field md "key_alias") (field k "key_alias")
  spend := (k.lookup "spend").getD (.num 0)
  tpm_limit := field k "tpm_limit"
  rpm_limit := field k "rpm_limit"
  models := field k "models"
  team_id := field k "team_id"
  created_at := py_or (field md "created_at") (field k "created_at")
  expires := field k "expires"
  last_used := field k "last_active"
  blocked := (field k "blocked").truthy
  managed := is_text (field md "source") "token-factory"
  metadata := .obj md

theorem py_or_truthy {a b : Json} (h : a.truthy = true) : py_or a b = a := by
  rw [py_or, if_pos h]

theorem py_or_falsy {a b : Json} (h : a.truthy = false) : py_or a b = b := by
  rw [py_or, if_neg (by simp [h])]

/-- The alias of a row whose metadata is a dictionary. -/
theorem naming_alias_obj (k md : Dict) :
    ∃ name, naming_alias k none (.obj md) = .ok name ∧ name.truthy = (naming k md).truthy ∧
      (name.truthy = true → name = naming k md) := by
  unfold naming_alias naming
  have hown : py_or (field k "key_alias") ((Option.map Json.str none).getD .null) =
      py_or (field k "key_alias") .null := rfl
  rw [hown]
  cases htruthy : (field k "key_alias").truthy with
  | true =>
    rw [py_or_truthy htruthy, py_or_truthy htruthy]
    refine ⟨field k "key_alias", ?_, rfl, fun _ => rfl⟩
    simp [htruthy]
  | false =>
    rw [py_or_falsy htruthy, py_or_falsy htruthy]
    cases md with
    | nil => exact ⟨.null, rfl, rfl, fun h => by cases h⟩
    | cons f md => exact ⟨field (f :: md) "key_alias", rfl, rfl, fun _ => rfl⟩

theorem get_key_id_obj (k md : Dict) :
    get_key_id sha256 k none (.obj md) =
      if (naming k md).truthy then
        match naming k md with
        | .str s => .ok (.str (sha256 s))
        | _ => .error .crashed
      else .ok (unnamed_id k) := by
  obtain ⟨name, hname, htruthy, heq⟩ := naming_alias_obj k md
  unfold get_key_id
  rw [hname]
  dsimp only
  rw [htruthy]
  split
  · next h =>
    have hname := heq (htruthy.trans h)
    subst hname
    rfl
  · rfl

/-- Reading an id can only fail with an exception. -/
theorem get_key_id_error {k : Dict} {fallback : Option String} {md : Json} {e : Failure}
    (h : get_key_id sha256 k fallback md = .error e) : e = .crashed := by
  have hname {e' : Failure} (h : naming_alias k fallback md = .error e') : e' = .crashed := by
    unfold naming_alias at h
    dsimp only at h
    split at h
    · cases md with
      | obj fields => cases h
      | null | bool | num | str | arr =>
        cases h
        rfl
    · cases h
  unfold get_key_id at h
  split at h
  · next e' he =>
    cases h
    exact hname he
  · split at h
    · split at h
      · cases h
      · cases h
        rfl
    · cases h

/-- A row that can be projected: its metadata is a dictionary, and its alias a
    string, if there is one. -/
def Readable (k : Dict) : Prop :=
  ∃ md, parse_metadata settings (field k "metadata") = .obj md ∧ Namable k md

/-- The metadata of a readable row. -/
def metadata_of (k : Dict) : Dict :=
  match parse_metadata settings (field k "metadata") with
  | .obj md => md
  | _ => []

theorem project_obj {k md : Dict} (h : Namable k md) :
    project_session_key sha256 k (.obj md) = .ok (row_of sha256 k md) := by
  have hid : get_key_id sha256 k none (.obj md) = .ok (row_id sha256 k md) := by
    rw [get_key_id_obj]
    unfold row_id
    cases htruthy : (naming k md).truthy with
    | false => rfl
    | true =>
      obtain ⟨s, hs⟩ := h htruthy
      rw [hs]
      rfl
  unfold project_session_key
  rw [hid]
  rfl

theorem project_error {k : Dict} (h : ¬ Readable settings k) :
    project_session_key sha256 k (parse_metadata settings (field k "metadata")) =
      .error .crashed := by
  cases hmd : parse_metadata settings (field k "metadata") with
  | obj md =>
    have hid : get_key_id sha256 k none (.obj md) = .error .crashed := by
      have hname : ¬ Namable k md := fun hname => h ⟨md, hmd, hname⟩
      unfold Namable at hname
      rw [Classical.not_imp] at hname
      rw [get_key_id_obj, if_pos hname.1]
      split
      · next s hs => exact absurd ⟨s, hs⟩ hname.2
      · rfl
    unfold project_session_key
    rw [hid]
    rfl
  | null | bool | num | str | arr =>
    -- Whatever the id, the friendly alias cannot be read.
    unfold project_session_key
    cases hid : get_key_id sha256 k none _ with
    | error e =>
      obtain rfl := get_key_id_error sha256 hid
      rfl
    | ok id => rfl

theorem metadata_of_eq {k md : Dict} (h : parse_metadata settings (field k "metadata") = .obj md) :
    metadata_of settings k = md := by
  unfold metadata_of
  rw [h]

/-- The row of a readable key. -/
def listed_row (k : Dict) : SessionRow := row_of sha256 k (metadata_of settings k)

theorem project_readable {k : Dict} (h : Readable settings k) :
    project_session_key sha256 k (parse_metadata settings (field k "metadata")) =
      .ok (listed_row settings sha256 k) := by
  obtain ⟨md, hmd, hname⟩ := h
  unfold listed_row
  rw [metadata_of_eq settings hmd, hmd]
  exact project_obj sha256 hname

/-! ## All rows -/

/-- The dictionaries among the rows. -/
def objects : List Json → List Dict
  | [] => []
  | .obj k :: rows => k :: objects rows
  | _ :: rows => objects rows

/-- No row is a bare string. -/
def FullObjects (rows : List Json) : Prop := ∀ s, .str s ∉ rows

theorem mem_objects {k : Dict} {rows : List Json} : k ∈ objects rows ↔ .obj k ∈ rows := by
  induction rows with
  | nil => simp [objects]
  | cons row rows ih =>
    cases row with
    | obj k' => simp [objects, ih]
    | null | bool | num | str | arr => simp [objects, ih]

theorem project_all_readable {ks : List Dict} (h : ∀ k ∈ ks, Readable settings k) :
    project_all settings sha256 ks = .ok (ks.map (listed_row settings sha256)) := by
  induction ks with
  | nil => rfl
  | cons k ks ih =>
    have hhead := project_readable settings sha256 (h k List.mem_cons_self)
    have htail := ih fun k' hk' => h k' (List.mem_cons_of_mem _ hk')
    unfold project_all
    rw [hhead, htail]
    rfl

theorem project_all_error {ks : List Dict} (h : ¬ ∀ k ∈ ks, Readable settings k) :
    project_all settings sha256 ks = .error .crashed := by
  induction ks with
  | nil => exact absurd (by simp) h
  | cons k ks ih =>
    unfold project_all
    by_cases hk : Readable settings k
    · have htail := ih fun hall => h (List.forall_mem_cons.mpr ⟨hk, hall⟩)
      rw [project_readable settings sha256 hk, htail]
      rfl
    · rw [project_error settings sha256 hk]
      rfl

/-- Without bare strings, the rows are the projected dictionaries. -/
theorem session_rows_objects {rows : List Json} (h : FullObjects rows) :
    session_rows settings sha256 rows =
      (project_all settings sha256 (objects rows)).map some := by
  induction rows with
  | nil => rfl
  | cons row rows ih =>
    have htail : FullObjects rows := fun s hs => h s (List.mem_cons_of_mem _ hs)
    cases row with
    | str s => exact absurd List.mem_cons_self (h s)
    | obj k =>
      unfold session_rows objects project_all
      rw [ih htail]
      cases project_session_key sha256 k (parse_metadata settings (field k "metadata")) with
      | error e => rfl
      | ok row =>
        cases project_all settings sha256 (objects rows) with
        | error e => rfl
        | ok rest => rfl
    | null | bool | num | arr => exact ih htail

/-- What a row is sorted by. -/
def created_key (k : Dict) : Json := sort_key (listed_row settings sha256 k)

theorem pairwise_listed_row {ks : List Dict} :
    (ks.map (listed_row settings sha256)).Pairwise (Json.Comparable sort_key) ↔
      ks.Pairwise (Json.Comparable (created_key settings sha256)) :=
  List.pairwise_map

/-- The rows of dictionaries, newest first. -/
def project_sorted (ks : List Dict) : Except Failure (List SessionRow) :=
  (project_all settings sha256 ks).bind (newest_first sort_key)

variable {settings sha256}

theorem newest_first_perm {α : Type} {key : α → Json} {rows out : List α}
    (h : newest_first key rows = .ok out) : out.Perm rows := by
  unfold newest_first at h
  split at h
  · next hsort =>
    cases h
    exact Json.sortDesc_perm hsort
  · cases h

/-- Rows that are listed could all be read and sorted. -/
theorem project_sorted_ok {ks : List Dict} {out : List SessionRow}
    (h : project_sorted settings sha256 ks = .ok out) :
    (∀ k ∈ ks, Readable settings k) ∧ out.Perm (ks.map (listed_row settings sha256)) ∧
      ks.Pairwise (Json.Comparable (created_key settings sha256)) := by
  unfold project_sorted at h
  have hread : ∀ k ∈ ks, Readable settings k := by
    by_contra hnot
    rw [project_all_error settings sha256 hnot] at h
    cases h
  rw [project_all_readable settings sha256 hread] at h
  refine ⟨hread, newest_first_perm h, ?_⟩
  rw [← pairwise_listed_row]
  by_contra hnot
  rw [Except.bind, newest_first, Json.sortDesc, if_neg hnot] at h
  cases h

theorem project_sorted_of {ks : List Dict} (hread : ∀ k ∈ ks, Readable settings k)
    (hsort : ks.Pairwise (Json.Comparable (created_key settings sha256))) :
    project_sorted settings sha256 ks =
      .ok ((ks.map (listed_row settings sha256)).insertionSort (Json.NotBelow sort_key)) := by
  have hrows := (pairwise_listed_row settings sha256).mpr hsort
  rw [project_sorted, project_all_readable settings sha256 hread, Except.bind, newest_first,
    Json.sortDesc, if_pos hrows]

variable (settings sha256)

/-! ## The listing -/

/-- The rows of a response body; none if `keys` is missing or no list. -/
def rows_of : Json → List Json
  | .obj fields =>
      match fields.lookup "keys" with
      | some (.arr rows) => rows
      | _ => []
  | _ => []

theorem outcome_listed {answer : Call → HttpReply} {resp : HttpResponse} {body : Json}
    (hok : resp.is_success = true) (hbody : resp.json = some body) :
    outcome answer (listed resp) =
      match body with
      | .obj fields => .ok ((fields.lookup "keys").getD (.arr []))
      | _ => .error .crashed := by
  have hexpect : outcome answer (expect resp.is_success "/key/list" resp) = .ok () := by
    rw [expect, hok]
    rfl
  have hparsed : outcome answer resp.parsed = .ok body := by
    rw [HttpResponse.parsed, hbody]
    rfl
  unfold listed
  rw [outcome_bind_ok answer hexpect, outcome_bind_ok answer hparsed]
  cases body <;> rfl

variable {settings sha256} {answer : Call → HttpReply} {email : String} {resp : HttpResponse}

theorem outcome_listed_eq (resp : HttpResponse) :
    outcome answer (listed resp) =
      if resp.is_success then
        match resp.json with
        | some (.obj fields) => .ok ((fields.lookup "keys").getD (.arr []))
        | _ => .error .crashed
      else .error (.status "/key/list" resp) := by
  cases hok : resp.is_success with
  | true =>
    cases hbody : resp.json with
    | some body =>
      rw [outcome_listed hok hbody]
      cases body <;> rfl
    | none =>
      unfold listed
      rw [hok, outcome_bind_eq, outcome_bind_eq, HttpResponse.parsed, hbody]
      rfl
  | false =>
    unfold listed
    rw [hok, outcome_bind_eq]
    rfl

/-- A body without a list of keys lists nothing; one with full objects lists
    the projected dictionaries, newest first. -/
theorem list_session_keys_outcome (hans : answer (.key_list (some email) none) = .response resp)
    (hok : resp.is_success = true) {fields : Dict} (hbody : resp.json = some (.obj fields))
    (hfull : FullObjects (rows_of (.obj fields))) :
    outcome answer (list_session_keys settings sha256 email) =
      (project_all settings sha256 (objects (rows_of (.obj fields)))).bind
        (newest_first sort_key) := by
  unfold list_session_keys
  rw [outcome_bind_ok answer (outcome_request answer hans),
    outcome_bind_ok answer (outcome_listed hok hbody)]
  unfold rows_of at hfull ⊢
  dsimp only at hfull ⊢
  cases hkeys : fields.lookup "keys" with
  | none => rfl
  | some value =>
    rw [hkeys] at hfull
    cases value with
    | arr rows =>
      show outcome answer (lift (session_rows settings sha256 rows) >>= _) = _
      rw [outcome_bind, outcome_lift, session_rows_objects settings sha256 hfull]
      cases project_all settings sha256 (objects rows) with
      | error e => rfl
      | ok out => rfl
    | null | bool | num | str | obj => rfl

/-- `/key/list` answers a user with these keys, as full objects. -/
def Serves (answer : Call → HttpReply) (email : String) (ks : List Dict) : Prop :=
  ∃ resp fields, answer (.key_list (some email) none) = .response resp ∧
    resp.is_success = true ∧ resp.json = some (.obj fields) ∧
    fields.lookup "keys" = some (.arr (ks.map Json.obj))

theorem objects_map_obj (ks : List Dict) : objects (ks.map Json.obj) = ks := by
  induction ks with
  | nil => rfl
  | cons k ks ih =>
    show k :: objects (ks.map Json.obj) = k :: ks
    rw [ih]

theorem list_session_keys_serves {ks : List Dict} (h : Serves answer email ks) :
    outcome answer (list_session_keys settings sha256 email) =
      project_sorted settings sha256 ks := by
  obtain ⟨resp, fields, hans, hok, hbody, hkeys⟩ := h
  have hrows : rows_of (.obj fields) = ks.map Json.obj := by
    unfold rows_of
    dsimp only
    rw [hkeys]
  have hfull : FullObjects (rows_of (.obj fields)) := by
    intro s hs
    rw [hrows] at hs
    obtain ⟨k, -, hk⟩ := List.mem_map.mp hs
    cases hk
  rw [list_session_keys_outcome hans hok hbody hfull, hrows, objects_map_obj]
  rfl

/-- A listing that succeeds shows the row of every key, and no other. -/
theorem listing_perm {ks : List Dict} {out : List SessionRow} (h : Serves answer email ks)
    (hlist : outcome answer (list_session_keys settings sha256 email) = .ok out) :
    (∀ k ∈ ks, Readable settings k) ∧ out.Perm (ks.map (listed_row settings sha256)) := by
  rw [list_session_keys_serves h] at hlist
  obtain ⟨hread, hperm, -⟩ := project_sorted_ok hlist
  exact ⟨hread, hperm⟩

end

/-! Three keys of one user. -/

def key_settings : LitellmSettings where
  litellm_default_team := "default"
  personal_teams_enabled := true
  personal_team_prefix := "user-"
  default_access_groups := []
  user_access_groups := []
  sso_access_groups := []
  factory := .obj []
  loads := fun _ => none

def our_key : Dict :=
  [("token", .str "h1"), ("key_alias", .str "lk-1"), ("user_id", .str "ann@example.com"),
    ("metadata", .obj [("source", .str "token-factory"), ("key_alias", .str "n8n"),
      ("created_at", .str "2026-05-01")])]

/-- A key that has only its friendly alias. -/
def friend_key : Dict :=
  [("token", .str "h2"), ("user_id", .str "ann@example.com"),
    ("metadata", .obj [("key_alias", .str "n8n"), ("created_at", .str "2026-05-03")])]

/-- A key without an alias. -/
def bare_key : Dict :=
  [("token", .str "h3"), ("user_id", .str "ann@example.com"),
    ("metadata", .obj [("created_at", .str "2026-05-02")])]

def our_keys : List Dict := [our_key, friend_key, bare_key]

theorem mem_our_keys {k : Dict} : k ∈ our_keys ↔ k = our_key ∨ k = friend_key ∨ k = bare_key := by
  simp only [our_keys, List.mem_cons, List.not_mem_nil, or_false]

/-- A `/key/list` response with these rows. -/
def key_page (rows : List Dict) : HttpResponse where
  status_code := 200
  text := ""
  json := some (.obj [("keys", .arr (rows.map Json.obj))])

end AlitellmAuth.Litellm
