import AlitellmAuth.Framework.Service
import AlitellmAuth.Framework.Json
import AlitellmAuth.Framework.Text

/-! # The LiteLLM client

    `litellm_client.py`: the calls that provision a user at LiteLLM. Every
    function is a program over single HTTP requests; an exception ends it.
-/

namespace AlitellmAuth.Litellm

open Interleave Text

/-! ## Requests and answers -/

/-- An HTTP response; `json` is the parsed body, `none` if it is no JSON. -/
structure HttpResponse where
  status_code : Nat
  text : String
  json : Option Json

/-- `resp.is_success`. -/
def HttpResponse.is_success (resp : HttpResponse) : Bool :=
  200 ≤ resp.status_code && resp.status_code < 300

/-- What a request ends with: an `httpx` transport error, or a response. -/
inductive HttpReply where
  | transport_error
  | response (resp : HttpResponse)

/-- A JSON object. -/
abbrev Dict := List (String × Json)

/-- The requests to LiteLLM. A member is always added with the role `user`. -/
inductive Call where
  | team_new (body : Dict)
  | team_info (team_id : String)
  | team_update (body : Dict)
  | member_add (team_id user_id : String) (max_budget_in_team : Option Json)
  | member_update (team_id user_id : String) (max_budget_in_team : Json)
  | user_new (body : Dict)
  | user_info (user_id : String)
  | user_list (user_email : String)
  | user_update (body : Dict)
  | access_group
  | team_list
  | key_generate (body : Dict)
  | key_update (key : Json) (team_id : String)
  | key_list (user_id team_id : Option String)
  | key_info (key : String)
  | key_delete (key : Json)
  | key_block (key : Json) (blocked : Bool)

abbrev HttpAns (_ : Call) : Type := HttpReply

abbrev LTrace := Trace Call HttpAns

abbrev LEvent := Event Call HttpAns

/-- The exceptions: `_raise_litellm` for an endpoint, an `httpx` transport
    error, `LiteLLMUserNotFound`, `TeamMembershipError`, or any other one. -/
inductive Failure where
  | status (endpoint : String) (resp : HttpResponse)
  | transport
  | not_found
  | not_member
  | crashed

/-- A function of the client. -/
abbrev L := ExceptT Failure (Prog Call HttpAns)

/-- Send one request. -/
def request (call : Call) : L HttpResponse := do
  match ← ExceptT.lift (Prog.await call) with
  | .transport_error => throw .transport
  | .response resp => return resp

/-- `if not ok: _raise_litellm(resp, endpoint)`. -/
def expect (ok : Bool) (endpoint : String) (resp : HttpResponse) : L Unit :=
  if ok then return else throw (.status endpoint resp)

/-- `resp.json()`. -/
def HttpResponse.parsed (resp : HttpResponse) : L Json :=
  match resp.json with
  | some value => return value
  | none => throw .crashed

/-- `_already_exists`. -/
def already_exists (resp : HttpResponse) : Bool :=
  resp.status_code == 409 || resp.status_code == 400 &&
    ["already exists", "already in team"].any fun s => includes s (lower resp.text)

/-- `value.get(key, default)`; a value that is no dictionary raises. -/
def dict_get (value : Json) (key : String) (default : Json) : L Json :=
  match value with
  | .obj fields => return (fields.lookup key).getD default
  | _ => throw .crashed

/-- `value.items()`; a value that is no dictionary raises. -/
def dict_items (value : Json) : L Dict :=
  match value with
  | .obj fields => return fields
  | _ => throw .crashed

/-- `fields.get(key)`. -/
def field (fields : Dict) (key : String) : Json := (fields.lookup key).getD .null

/-! ## Settings -/

/-- The settings the client reads. `factory` is what `_load_factory_config`
    returns, and `loads` is `json.loads`. -/
structure LitellmSettings where
  litellm_default_team : String
  personal_teams_enabled : Bool
  personal_team_prefix : String
  default_access_groups : List String
  user_access_groups : List (String × List String)
  sso_access_groups : List (String × List String)
  factory : Json
  loads : String → Option Json

/-- `Settings.team_id`. -/
def LitellmSettings.team_id (settings : LitellmSettings) : String := settings.litellm_default_team

/-- `Settings.personal_team_id`. -/
def LitellmSettings.personal_team_id (settings : LitellmSettings) (email : String) : String :=
  settings.personal_team_prefix ++ lower (strip email)

variable (settings : LitellmSettings)

/-! ## Users -/

/-- The factory `user` block without its metadata and its null values. -/
def factory_user (factory : Json) : L Dict := do
  let items ← dict_items (← dict_get factory "user" (.obj []))
  return items.filter fun (k, v) => k != "metadata" && !v.isNull

/-- `value or default`, for an optional string. -/
def or_else (value : Option String) (default : String) : String :=
  if value.getD "" = "" then default else value.getD ""

/-- `ensure_litellm_user`, with the budget of the factory. -/
def ensure_litellm_user (email : String) (name team_id : Option String) (factory : Json) :
    L Json := do
  let payload : Dict := [("user_id", .str email), ("user_email", .str email),
    ("user_alias", .str (or_else name email)), ("user_role", .str "internal_user"),
    ("auto_create_key", .bool false)]
  let payload := if team_id.getD "" = "" then payload
    else Json.set payload "teams" (.arr [.str (team_id.getD "")])
  let resp ← request (.user_new (Json.update payload (← factory_user factory)))
  expect (resp.is_success || already_exists resp) "/user/new" resp
  if already_exists resp then return .obj [("user_id", .str email), ("existed", .bool true)]
  else resp.parsed

/-- `_parse_metadata`. -/
def parse_metadata : Json → Json
  | .str raw =>
      match settings.loads raw with
      | some value => if value.truthy then value else .obj []
      | none => .obj []
  | .obj fields => .obj fields
  | _ => .obj []

/-- `_normalize_teams`. -/
def normalize_teams : Json → Json
  | .arr items =>
      .arr ((items.filterMap fun
        | .str team => some (.str team)
        | .obj team =>
            if (field team "team_alias").truthy then some (field team "team_alias")
            else if (field team "team_id").truthy then some (field team "team_id")
            else some (.str "")
        | _ => none).filter Json.truthy)
  | _ => .null

/-- `info.get(key) or metadata.get(other)`. -/
def or_metadata (info : Dict) (key : String) (metadata : Json) (other : String) : L Json :=
  if (field info key).truthy then return field info key else dict_get metadata other .null

/-- `_normalize_user`. -/
def normalize_user (info : Dict) (fallback_id : String) : L Dict := do
  let metadata := parse_metadata settings (field info "metadata")
  let email ← or_metadata info "user_email" metadata "email"
  let name ← or_metadata info "user_alias" metadata "name"
  return [
    ("user_id", if (field info "user_id").truthy then field info "user_id" else .str fallback_id),
    ("email", email),
    ("name", name),
    ("role", field info "user_role"),
    ("spend", (info.lookup "spend").getD (.num 0)),
    ("max_budget", field info "max_budget"),
    ("budget_duration", field info "budget_duration"),
    ("tpm_limit", field info "tpm_limit"),
    ("rpm_limit", field info "rpm_limit"),
    ("max_parallel_requests", field info "max_parallel_requests"),
    ("models", field info "models"),
    ("teams", normalize_teams (field info "teams")),
    ("created_at", field info "created_at")]

def LITELLM_PLACEHOLDER_USER_ID : String := "default_user_id"

/-- `value == text`. -/
def is_text (value : Json) (text : String) : Bool :=
  match value with
  | .str s => s == text
  | _ => false

/-- `_is_placeholder`. -/
def is_placeholder (info : Dict) : Bool :=
  is_text (field info "user_id") LITELLM_PLACEHOLDER_USER_ID ||
    !((field info "user_email").truthy || (field info "user_id").truthy)

/-- The user object in the body of `/user/info`. -/
def unwrap_user_info : Json → Dict
  | .obj data =>
      match data.lookup "user_info" with
      | some (.obj info) => info
      | _ => data
  | _ => []

/-- `for x in value or []`: a string yields its characters and a dictionary its
    keys; a number raises. -/
def iterate (value : Json) : L (List Json) :=
  if !value.truthy then return []
  else match value with
    | .arr items => return items
    | .str s => return s.toList.map fun c => .str (String.ofList [c])
    | .obj fields => return fields.map fun (k, _) => .str k
    | _ => throw .crashed

/-- The lookup by email that settles a placeholder. -/
def user_by_email (email : String) : L Dict := do
  let list_resp ← request (.user_list email)
  expect list_resp.is_success "/user/list fallback" list_resp
  let payload ← list_resp.parsed
  let users := match payload with
    | .obj fields => (fields.lookup "users").getD payload
    | _ => payload
  let rows ← iterate users
  match rows.findSome? (fun
    | .obj u => if is_text (field u "user_email") email then some u else none
    | _ => none) with
  | none => throw .not_found
  | some row => normalize_user settings row email

/-- What `/user/info` says about the user; nothing on a 404. -/
def user_info_of (resp : HttpResponse) : L Dict :=
  if resp.status_code = 404 then return []
  else do
    expect resp.is_success "/user/info" resp
    return unwrap_user_info (← resp.parsed)

/-- `get_litellm_user`. -/
def get_litellm_user (email : String) : L Dict := do
  let resp ← request (.user_info email)
  let info ← user_info_of resp
  if info.isEmpty || is_placeholder info then user_by_email settings email
  else normalize_user settings info email

/-! ## Personal teams -/

def DENY_ALL_MODEL : String := "no-default-models"

def DENY_ALL_AGENT : String := "00000000-0000-0000-0000-000000000000"

/-- `deny_all_object_permission`. -/
def deny_all_object_permission : Json :=
  .obj [("mcp_servers", .arr []), ("mcp_access_groups", .arr []),
    ("agents", .arr [.str DENY_ALL_AGENT]), ("agent_access_groups", .arr [])]

/-- `_stamped_as_ours`. -/
def stamped_as_ours : Option Dict → Bool
  | none => false
  | some team =>
      match field team "metadata" with
      | .obj metadata => is_text (field metadata "alt_managed") "user-team"
      | _ => false

/-- `access_groups_for_user`. -/
def access_groups_for_user (email : String) (sso_groups : Option (List String)) : List String :=
  let own := (settings.user_access_groups.lookup (lower (strip email))).getD []
  let sso := (sso_groups.getD []).flatMap fun group =>
    (settings.sso_access_groups.lookup (lower (strip group))).getD []
  (((settings.default_access_groups ++ (own ++ sso)).map strip).filter (· != "")).eraseDups

/-- The rows of `/v1/access_group` that have a name and an id; a name that
    cannot be a dictionary key raises. -/
def named_groups (rows : Json) : L (List (Json × Json)) :=
  let items := match rows with
    | .arr items => items
    | _ => []
  let named := items.filterMap fun
    | .obj g =>
        if (field g "access_group_name").truthy && (field g "access_group_id").truthy then
          some (field g "access_group_name", field g "access_group_id")
        else none
    | _ => none
  if named.all fun (name, _) => name.hashable then return named else throw .crashed

/-- `resolve_access_group_ids`: of two groups with one name, the later counts. -/
def resolve_access_group_ids (names : List String) : L (List Json) :=
  if names.isEmpty then return []
  else do
    let resp ← request .access_group
    expect resp.is_success "/v1/access_group" resp
    let by_name ← named_groups (← resp.parsed)
    return names.filterMap fun name =>
      (by_name.reverse.find? fun (key, _) => key.keyEq (.str name)).map (·.2)

/-- `_team_info`: `none` on any failure. -/
def team_info (team_id : String) : L (Option Dict) := do
  match ← ExceptT.lift (Prog.await (.team_info team_id)) with
  | .transport_error => return none
  | .response resp =>
      if !resp.is_success then return none
      match resp.json with
      | some (.obj data) =>
          match data.lookup "team_info" with
          | some (.obj team) => return some team
          | _ => return some data
      | _ => return none

/-- `list(dict.fromkeys(items))`; an item that cannot be a dictionary key
    raises. -/
def from_keys (items : List Json) : L (List Json) :=
  if items.all Json.hashable then
    return items.foldl (fun seen x => if seen.any x.keyEq then seen else seen ++ [x]) []
  else throw .crashed

/-- The access groups a team has now; none for a team that was just created.
    `none` if the team cannot be read. -/
def attached_groups (team_id : String) (we_created_it : Bool) :
    L (Option (Option Dict × List Json)) := do
  if we_created_it then return some (none, [])
  else match ← team_info team_id with
    | none => return none
    | some team =>
        let items ← iterate (field team "access_group_ids")
        return some (some team, items.filter fun
          | .str _ => true
          | _ => false)

/-- `ensure_personal_team`. -/
def ensure_personal_team (email : String) (factory : Json) (sso_groups : Option (List String)) :
    L String := do
  let team_id := settings.personal_team_id email
  let user ← dict_get factory "user" .null
  let items ← if user.truthy then dict_items user else pure []
  let envelope := items.filter fun (k, v) => k != "metadata" && !v.isNull
  let resp ← request (.team_new (Json.update envelope [
    ("team_id", .str team_id),
    ("team_alias", .str team_id),
    ("models", .arr [.str DENY_ALL_MODEL]),
    ("object_permission", deny_all_object_permission),
    ("metadata", .obj [("source", .str "token-factory"), ("alt_managed", .str "user-team")])]))
  expect (resp.status_code == 200 || already_exists resp) "/team/new (personal)" resp
  let we_created_it := resp.status_code == 200
  let mem ← request (.member_add team_id email none)
  expect (mem.status_code == 200 || mem.status_code == 400) "/team/member_add (personal)" mem
  let wanted ← resolve_access_group_ids (access_groups_for_user settings email sso_groups)
  match ← attached_groups team_id we_created_it with
  | none => return team_id
  | some (team, current) =>
      let group_ids ← from_keys (current ++ wanted)
      let body : Dict := [("team_id", .str team_id), ("access_group_ids", .arr group_ids)]
      let body := if we_created_it || stamped_as_ours team then
        Json.set body "object_permission" deny_all_object_permission else body
      let upd ← request (.team_update body)
      expect upd.is_success "/team/update (attach)" upd
      return team_id

/-! ## Provisioning -/

/-- `ensure_team_member_budget`. -/
def ensure_team_member_budget (email team_id : String) (max_budget_in_team : Json) : L Unit := do
  let add_resp ← request (.member_add team_id email (some max_budget_in_team))
  let already_member := (add_resp.status_code == 400 || add_resp.status_code == 409) &&
    includes "already" (lower add_resp.text)
  expect (add_resp.is_success || already_member) "/team/member_add" add_resp
  let update_resp ← request (.member_update team_id email max_budget_in_team)
  expect update_resp.is_success "/team/member_update" update_resp

/-- Patch a user, if there is anything to patch. -/
def patch_user (email : String) (missing : Dict) : L Unit :=
  if missing.isEmpty then return
  else do
    let resp ← request (.user_update (Json.update [("user_id", .str email)] missing))
    expect resp.is_success "/user/update (backfill)" resp

/-- The D-16 backfill: patch the fields an existing user lacks. -/
def backfill (email : String) (name : Option String) (factory : Json) : L Unit := do
  let existing_user ← get_litellm_user settings email
  let user ← factory_user factory
  let missing := user.filter fun (k, _) => (field existing_user k).isNull
  let missing := if (field existing_user "email").truthy then missing
    else Json.set missing "user_email" (.str email)
  let missing := if name.getD "" = "" || (field existing_user "name").truthy then missing
    else Json.set missing "user_alias" (.str (name.getD ""))
  patch_user email missing

/-- `value > 0`; a value that is no number raises. -/
def is_positive (value : Json) : L Bool :=
  match value with
  | .num q => return decide (0 < q)
  | .bool b => return b
  | _ => throw .crashed

/-- Step A on the shared path: the team itself. -/
def ensure_shared_team (team_id : String) (factory : Json) : L Unit := do
  let team ← dict_get factory "team" (.obj [])
  let team_extra := (← dict_items team).filter fun (k, _) => k != "metadata"
  let team_meta_extra ← dict_items (← dict_get team "metadata" (.obj []))
  let team_resp ← request (.team_new (Json.update team_extra [
    ("team_id", .str team_id),
    ("team_alias", .str settings.litellm_default_team),
    ("metadata", .obj (Json.update [("source", .str "token-factory")] team_meta_extra))]))
  expect (team_resp.status_code == 200 || already_exists team_resp) "/team/new" team_resp

/-- Steps A and A2: the team and the user. On the personal path the user comes
    first. -/
def team_and_user (personal : Bool) (email : String) (name : Option String) (factory : Json)
    (team_id : Option String) (sso_groups : Option (List String)) : L (Json × String) :=
  if personal then do
    let user_result ← ensure_litellm_user email name none factory
    let team_id ← ensure_personal_team settings email factory sso_groups
    return (user_result, team_id)
  else do
    let team_id := or_else team_id settings.team_id
    ensure_shared_team settings team_id factory
    let user_result ← ensure_litellm_user email name (some team_id) factory
    return (user_result, team_id)

/-- A user that is not found after all is left as it is. -/
def backfill_existing (existed : Bool) (email : String) (name : Option String) (factory : Json) :
    L Unit :=
  if existed then
    tryCatch (backfill settings email name factory) fun
      | .not_found => pure ()
      | e => throw e
  else return

/-- Step A3: the cap of a user that was created just now. -/
def cap_new_member (personal existed : Bool) (email team_id : String) (budget : Json) : L Unit :=
  if personal || existed || budget.isNull then return
  else do
    if ← is_positive budget then ensure_team_member_budget email team_id budget

/-- `ensure_team_and_user`. -/
def ensure_team_and_user (email : String) (name : Option String) (factory : Option Json)
    (team_id : Option String) (sso_groups : Option (List String)) : L String := do
  let factory := factory.getD settings.factory
  let personal := settings.personal_teams_enabled && team_id.isNone
  -- the block is read before the branch, and raises on either path
  let _ ← dict_items (← dict_get factory "team" (.obj []))
  let (user_result, team_id) ← team_and_user settings personal email name factory team_id sso_groups
  let existed ← dict_get user_result "existed" .null
  backfill_existing settings existed.truthy email name factory
  let factory_user_budget ← dict_get (← dict_get factory "user" (.obj [])) "max_budget" .null
  cap_new_member personal existed.truthy email team_id factory_user_budget
  return team_id

/-! ## Functions that send no request -/

section
variable {α : Type}

theorem still_expect (ok : Bool) (endpoint : String) (resp : HttpResponse) :
    Still (expect ok endpoint resp) :=
  still_ite (still_pure _) (still_throw _)

theorem expect_ok {ok : Bool} {endpoint : String} {resp : HttpResponse} {u : Unit}
    (h : (expect ok endpoint resp).run = .ret (.ok u)) : ok = true := by
  cases ok with
  | true => rfl
  | false => cases h

theorem still_parsed (resp : HttpResponse) : Still resp.parsed := by
  unfold HttpResponse.parsed
  split
  · exact still_pure _
  · exact still_throw _

theorem parsed_ok {resp : HttpResponse} {value : Json}
    (h : resp.parsed.run = .ret (.ok value)) : resp.json = some value := by
  unfold HttpResponse.parsed at h
  split at h
  · next hvalue =>
    cases h
    exact hvalue
  · cases h

theorem still_dict_get (value : Json) (key : String) (default : Json) :
    Still (dict_get value key default) := by
  unfold dict_get
  split
  · exact still_pure _
  · exact still_throw _

theorem dict_get_ok {value default found : Json} {key : String}
    (h : (dict_get value key default).run = .ret (.ok found)) :
    ∃ fields, value = .obj fields ∧ found = (fields.lookup key).getD default := by
  cases value with
  | obj fields =>
    cases h
    exact ⟨fields, rfl, rfl⟩
  | null | bool | num | str | arr => cases h

theorem still_dict_items (value : Json) : Still (dict_items value) := by
  unfold dict_items
  split
  · exact still_pure _
  · exact still_throw _

theorem dict_items_ok {value : Json} {items : Dict}
    (h : (dict_items value).run = .ret (.ok items)) : value = .obj items := by
  cases value with
  | obj fields =>
    cases h
    rfl
  | null | bool | num | str | arr => cases h

theorem still_iterate (value : Json) : Still (iterate value) := by
  unfold iterate
  split
  · exact still_pure _
  · split
    · exact still_pure _
    · exact still_pure _
    · exact still_pure _
    · exact still_throw _

/-- A list is iterated as it is. -/
theorem iterate_arr {items items' : List Json}
    (h : (iterate (.arr items)).run = .ret (.ok items')) : items' = items := by
  cases items with
  | nil =>
    cases h
    rfl
  | cons x xs =>
    cases h
    rfl

theorem eq_of_is_text {value : Json} {text : String} (h : is_text value text = true) :
    value = .str text := by
  cases value with
  | str s => exact congrArg Json.str (beq_iff_eq.mp h)
  | null | bool | num | arr | obj => cases h

theorem still_factory_user (factory : Json) : Still (factory_user factory) :=
  still_bind (still_dict_get _ _ _) fun _ => still_bind (still_dict_items _) fun _ => still_pure _

theorem still_or_metadata (info : Dict) (key : String) (metadata : Json) (other : String) :
    Still (or_metadata info key metadata other) :=
  still_ite (still_pure _) (still_dict_get _ _ _)

theorem still_normalize_user (settings : LitellmSettings) (info : Dict) (fallback_id : String) :
    Still (normalize_user settings info fallback_id) :=
  still_bind (still_or_metadata _ _ _ _) fun _ =>
    still_bind (still_or_metadata _ _ _ _) fun _ => still_pure _

theorem still_user_info_of (resp : HttpResponse) : Still (user_info_of resp) :=
  still_ite (still_pure _) (still_bind (still_expect _ _ _) fun _ =>
    still_bind (still_parsed _) fun _ => still_pure _)

theorem still_is_positive (value : Json) : Still (is_positive value) := by
  unfold is_positive
  split
  · exact still_pure _
  · exact still_pure _
  · exact still_throw _

theorem still_named_groups (rows : Json) : Still (named_groups rows) :=
  still_ite (still_pure _) (still_throw _)

theorem still_from_keys (items : List Json) : Still (from_keys items) :=
  still_ite (still_pure _) (still_throw _)

end

/-- Add an item unless it is there. -/
def add_key (seen : List Json) (x : Json) : List Json :=
  if seen.any x.keyEq then seen else seen ++ [x]

theorem from_keys_ok {items ids : List Json} (h : (from_keys items).run = .ret (.ok ids)) :
    ids = items.foldl add_key [] := by
  unfold from_keys at h
  split at h
  · cases h
    rfl
  · cases h

theorem subset_foldl_add_key (items seen : List Json) : seen ⊆ items.foldl add_key seen := by
  induction items generalizing seen with
  | nil => exact List.Subset.refl _
  | cons x items ih =>
    apply List.Subset.trans _ (ih _)
    unfold add_key
    split
    · exact List.Subset.refl _
    · exact List.subset_append_left _ _

/-- No string is lost. -/
theorem mem_foldl_add_key {items : List Json} {g : String} (h : .str g ∈ items)
    (seen : List Json) : .str g ∈ items.foldl add_key seen := by
  induction items generalizing seen with
  | nil => cases h
  | cons x items ih =>
    rw [List.foldl_cons]
    rcases List.mem_cons.mp h with rfl | h
    · apply subset_foldl_add_key
      unfold add_key
      split
      · next hany =>
        obtain ⟨y, hy, heq⟩ := List.any_eq_true.mp hany
        cases y with
        | str s =>
          obtain rfl : g = s := by simpa [Json.keyEq] using heq
          exact hy
        | null | bool | num | arr | obj => simp [Json.keyEq] at heq
      · simp
    · exact ih h _

end AlitellmAuth.Litellm
