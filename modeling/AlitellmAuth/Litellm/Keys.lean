import AlitellmAuth.Framework.Order
import AlitellmAuth.Litellm.Sends

/-! # Virtual keys

    `litellm_client.py`: minting a key, listing the keys of a user, and the
    calls that change one. A row of `/key/list` is any JSON value; reading a
    field of the wrong type raises, and takes the whole listing with it. Texts
    are Unicode here; in `Loaded` they may hold surrogates.

    * `get_key_id`, `project_session_key`: one row.
    * `list_session_keys`: the listing, with its fallback to bare hashes.
    * `generate_litellm_key`: a new key.
    * `list_user_teams`: the teams a key may be moved to.
-/

namespace AlitellmAuth.Litellm

open Interleave Text

/-- A computation that sends no request. -/
def lift {α : Type} (r : Except Failure α) : L α := ExceptT.mk (Prog.ret r)

/-- `a or b`. -/
def py_or (a b : Json) : Json := if a.truthy then a else b

/-- `metadata.get(key)`; metadata that is no dictionary raises. -/
def md_get (metadata : Json) (key : String) : Except Failure Json :=
  match metadata with
  | .obj fields => .ok (field fields key)
  | _ => .error .crashed

section
variable (settings : LitellmSettings) (sha256 : String → String)

/-! ## One row -/

/-- A string that is no plaintext key. -/
def is_hash : Json → Bool
  | .str s => !startsWith "sk-" s
  | _ => false

/-- The id of a key without an alias: an id field, else a hash. -/
def unnamed_id (data : Dict) : Json :=
  if (field data "key_id").truthy then field data "key_id"
  else if (field data "token_id").truthy then field data "token_id"
  else if is_hash (field data "key") then field data "key"
  else if is_hash (field data "token") then field data "token"
  else .null

/-- The alias that names a key: its own, the fallback, or the friendly one. -/
def naming_alias (data : Dict) (fallback_alias : Option String) (metadata : Json) :
    Except Failure Json :=
  let own := py_or (field data "key_alias") ((fallback_alias.map Json.str).getD .null)
  if !own.truthy && metadata.truthy then md_get metadata "key_alias" else .ok own

/-- `_get_key_id`: `alias.encode()` raises unless the alias is a string. -/
def get_key_id (data : Dict) (fallback_alias : Option String) (metadata : Json) :
    Except Failure Json :=
  match naming_alias data fallback_alias metadata with
  | .error e => .error e
  | .ok name =>
      if name.truthy then
        match name with
        | .str s => .ok (.str (sha256 s))
        | _ => .error .crashed
      else .ok (unnamed_id data)

/-- `_get_token`. -/
def get_token (data : Dict) : Json :=
  let plain (v : Json) : Bool := match v with
    | .str s => startsWith "sk-" s
    | _ => false
  if plain (field data "token") then field data "token"
  else if plain (field data "key") then field data "key"
  else py_or (field data "token") (field data "key")

/-- `_display_alias`. -/
def display_alias (k : Dict) (md : Json) : Except Failure Json := do
  return py_or (← md_get md "key_alias") (field k "key_alias")

/-- A key as the session routes see it; the budget is always null. -/
structure SessionRow where
  id : Json
  token : Json
  key_alias : Json
  spend : Json
  tpm_limit : Json
  rpm_limit : Json
  models : Json
  team_id : Json
  created_at : Json
  expires : Json
  last_used : Json
  blocked : Bool
  managed : Bool
  metadata : Json

/-- `_project_session_key`. -/
def project_session_key (k : Dict) (md : Json) : Except Failure SessionRow := do
  let id ← get_key_id sha256 k none md
  let key_alias ← display_alias k md
  let created_at ← md_get md "created_at"
  let source ← md_get md "source"
  return {
    id := id
    token := field k "token"
    key_alias := key_alias
    spend := (k.lookup "spend").getD (.num 0)
    tpm_limit := field k "tpm_limit"
    rpm_limit := field k "rpm_limit"
    models := field k "models"
    team_id := field k "team_id"
    created_at := py_or created_at (field k "created_at")
    expires := field k "expires"
    last_used := field k "last_active"
    blocked := (field k "blocked").truthy
    managed := is_text source "token-factory"
    metadata := md }

/-! ## Listing -/

/-- `row.get("created_at") or ""`. -/
def sort_key (row : SessionRow) : Json := py_or row.created_at (.str "")

/-- The rows of the listing, `none` if one of them is a bare string; what is
    neither a string nor a dictionary is skipped. -/
def session_rows : List Json → Except Failure (Option (List SessionRow))
  | [] => .ok (some [])
  | .str _ :: _ => .ok none
  | .obj k :: rows => do
      let row ← project_session_key sha256 k (parse_metadata settings (field k "metadata"))
      let rest ← session_rows rows
      return rest.map (row :: ·)
  | _ :: rows => session_rows rows

/-- Newest first. -/
def newest_first {α : Type} (key : α → Json) (rows : List α) : Except Failure (List α) :=
  match Json.sortDesc key rows with
  | some out => .ok out
  | none => .error .crashed

/-- `get_key_info`. -/
def get_key_info (api_key : String) : L Dict := do
  let resp ← request (.key_info api_key)
  expect resp.is_success "/key/info" resp
  match ← resp.parsed with
  | .obj data =>
      match (data.lookup "info").getD (.obj data) with
      | .obj info => do
          let metadata := parse_metadata settings (field info "metadata")
          let id ← lift (get_key_id sha256 info none metadata)
          let email ← lift (md_get metadata "email")
          let name ← lift (md_get metadata "name")
          let created_at ← lift (md_get metadata "created_at")
          return [
            ("key", get_token info),
            ("id", id),
            ("key_alias", field info "key_alias"),
            ("email", email),
            ("name", name),
            ("team_id", field info "team_id"),
            ("user_id", field info "user_id"),
            ("models", field info "models"),
            ("created_at", created_at),
            ("expires", field info "expires"),
            ("spend", (info.lookup "spend").getD (.num 0)),
            ("max_budget", field info "max_budget"),
            ("budget_duration", field info "budget_duration"),
            ("tpm_limit", field info "tpm_limit"),
            ("rpm_limit", field info "rpm_limit"),
            ("last_active", field info "last_active"),
            ("blocked", field info "blocked")]
      | _ => throw .crashed
  | _ => throw .crashed

/-- The loop of `list_litellm_keys`: a bare hash is hydrated, and only keys
    whose metadata names the user are kept. -/
def owned_keys (email : String) : List Json → L (List Dict)
  | [] => return []
  | .str k :: rows => do
      let full_info ← get_key_info settings sha256 k
      let full_info := if (field full_info "key").truthy then full_info
        else Json.set full_info "key" (.str k)
      let rest ← owned_keys email rows
      return if is_text (field full_info "email") email then full_info :: rest else rest
  | .obj k :: rows => do
      let metadata := parse_metadata settings (field k "metadata")
      if is_text (← lift (md_get metadata "email")) email then do
        let id ← lift (get_key_id sha256 k none metadata)
        let created_at ← lift (md_get metadata "created_at")
        let rest ← owned_keys email rows
        return [
          ("id", id),
          ("key", get_token k),
          ("key_alias", field k "key_alias"),
          ("created_at", created_at),
          ("expires", field k "expires"),
          ("models", field k "models"),
          ("last_active", field k "last_active"),
          ("blocked", field k "blocked")] :: rest
      else owned_keys email rows
  | _ :: rows => owned_keys email rows

/-- `data.get("keys", [])` of a `/key/list` response. -/
def listed (resp : HttpResponse) : L Json := do
  expect resp.is_success "/key/list" resp
  dict_get (← resp.parsed) "keys" (.arr [])

/-- `list_litellm_keys`: the keys of the shared team. -/
def list_litellm_keys (email : String) : L (List Dict) := do
  match ← listed (← request (.key_list none (some settings.team_id))) with
  | .arr all_keys => do
      let user_keys ← owned_keys settings sha256 email all_keys
      lift (newest_first (fun k => py_or (field k "created_at") (.str "")) user_keys)
  | _ => return []

/-- Every dictionary projected, in order. -/
def project_all : List Dict → Except Failure (List SessionRow)
  | [] => .ok []
  | k :: ks => do
      let row ← project_session_key sha256 k (parse_metadata settings (field k "metadata"))
      return row :: (← project_all ks)

/-- `_list_session_keys_fallback`. -/
def list_session_keys_fallback (email : String) : L (List SessionRow) := do
  let raw_keys ← list_litellm_keys settings sha256 email
  lift (do newest_first sort_key (← project_all settings sha256 raw_keys))

/-- `list_session_keys`: one page of a hundred full objects. -/
def list_session_keys (email : String) : L (List SessionRow) := do
  match ← listed (← request (.key_list (some email) none)) with
  | .arr rows => do
      match ← lift (session_rows settings sha256 rows) with
      | none => list_session_keys_fallback settings sha256 email
      | some out => lift (newest_first sort_key out)
  | _ => return []

/-! ## Changing a key -/

/-- `delete_litellm_key`. -/
def delete_litellm_key (token : Json) : L Unit := do
  let resp ← request (.key_delete token)
  expect resp.is_success "/key/delete" resp

/-- `update_litellm_key_team`. -/
def update_litellm_key_team (token : Json) (team_id : String) : L Unit := do
  let resp ← request (.key_update token team_id)
  expect resp.is_success "/key/update" resp

/-- `block_litellm_key`. -/
def block_litellm_key (token : Json) (blocked : Bool) : L Unit := do
  let resp ← request (.key_block token blocked)
  expect resp.is_success (if blocked then "/key/block" else "/key/unblock") resp

/-! ## A new key -/

/-- What a mint takes from the clock and from `secrets`: the time in the two
    formats, and eight random bytes in hexadecimal. -/
structure Moment where
  stamp : String
  isoformat : String
  hex : String

/-- A minted key. -/
structure Minted where
  key : Json
  id : Json
  team_id : String

/-- The metadata of a new key: the deployment's own fields come last. -/
def key_metadata (email : String) (name : Option String) (moment : Moment) (display : String)
    (user_meta_extra : Dict) : Dict :=
  Json.update [
    ("email", .str email),
    ("name", .str (or_else name email)),
    ("source", .str "token-factory"),
    ("created_at", .str moment.isoformat),
    ("key_alias", .str display)] user_meta_extra

/-- The payload of `/key/generate`: the fields after the deployment's win. -/
def key_payload (email team_id key_alias : String) (duration : Option String)
    (factory_key_extra metadata : Dict) : Dict :=
  let payload := Json.update (Json.update [("models", .arr [.str "all-team-models"])]
    factory_key_extra) [
    ("team_id", .str team_id),
    ("user_id", .str email),
    ("key_alias", .str key_alias),
    ("metadata", .obj metadata)]
  match duration with
  | some duration => Json.set payload "duration" (.str duration)
  | none => payload

/-- `generate_litellm_key`. -/
def generate_litellm_key (email : String) (name duration key_name team_id : Option String)
    (moment : Moment) : L Minted := do
  let factory := settings.factory
  let user_meta_extra ← dict_get (← dict_get factory "user" (.obj [])) "metadata" (.obj [])
  let factory_key_extra :=
    (← dict_items (← dict_get factory "key" (.obj []))).filter fun (k, _) => k != "metadata"
  let team_id ← ensure_team_and_user settings email name (some factory) team_id none
  let display := or_else key_name ("key-" ++ moment.stamp)
  let key_alias := "lk-" ++ moment.hex
  let metadata := key_metadata email name moment display (← dict_items user_meta_extra)
  let key_resp ← request (.key_generate
    (key_payload email team_id key_alias duration factory_key_extra metadata))
  expect key_resp.is_success "/key/generate" key_resp
  let key_data ← dict_items (← key_resp.parsed)
  let id ← lift (get_key_id sha256 key_data (some key_alias)
    (parse_metadata settings (field key_data "metadata")))
  return { key := get_token key_data, id, team_id }

/-! ## Teams of a user -/

/-- `for x in value`: unlike `iterate`, an empty number raises as well. -/
def iterate_all (value : Json) : L (List Json) :=
  match value with
  | .arr items => return items
  | .str s => return s.toList.map fun c => .str (String.ofList [c])
  | .obj fields => return fields.map fun (k, _) => .str k
  | _ => throw .crashed

/-- The aliases of `/team/list` by team id; an id that cannot be a dictionary
    key raises. -/
def alias_by_id (rows : List Json) : L (List (Json × Json)) :=
  let named := rows.filterMap fun
    | .obj r =>
        if (field r "team_id").truthy then
          some (field r "team_id", py_or (field r "team_alias") (field r "team_id"))
        else none
    | _ => none
  if named.all fun (id, _) => id.hashable then return named else throw .crashed

/-- The id of a membership: a string, or the `team_id` of an object. -/
def membership_id : Json → Json
  | .str s => .str s
  | .obj t => field t "team_id"
  | _ => .null

/-- The alias an object-shaped membership brings along. -/
def membership_alias : Json → Json
  | .obj t => field t "team_alias"
  | _ => .null

/-- The loop of `list_user_teams`; of two memberships with one id the first
    counts. -/
def member_teams (aliases : List (Json × Json)) : List Json → List (Json × Json) →
    L (List (Json × Json))
  | [], out => return out
  | t :: raw_teams, out =>
      let tid := membership_id t
      if !tid.truthy then member_teams aliases raw_teams out
      else if !tid.hashable then throw .crashed
      else if out.any fun (id, _) => id.keyEq tid then member_teams aliases raw_teams out
      else
        let listed_alias :=
          ((aliases.reverse.find? fun (id, _) => id.keyEq tid).map (·.2)).getD tid
        member_teams aliases raw_teams (out ++ [(tid, py_or (membership_alias t) listed_alias)])

/-- The rows of a `/team/list` response. -/
def team_rows (list_resp : HttpResponse) : L (List Json) := do
  if list_resp.is_success then
    match ← list_resp.parsed with
    | .obj fields => iterate_all ((fields.lookup "teams").getD (.arr []))
    | rows => iterate_all rows
  else return []

/-- The memberships in a `/user/info` response. -/
def raw_teams (info_resp : HttpResponse) : L Json := do
  let user_info ← dict_get (← info_resp.parsed) "user_info" .null
  if user_info.truthy then dict_get user_info "teams" .null else return .null

/-- `list_user_teams`: ids with aliases. -/
def list_user_teams (email : String) : L (List (Json × Json)) := do
  let info_resp ← request (.user_info email)
  expect info_resp.is_success "/user/info" info_resp
  let list_resp ← request .team_list
  let teams ← raw_teams info_resp
  let aliases ← alias_by_id (← team_rows list_resp)
  member_teams aliases (← iterate teams) []

/-- `assert_team_membership`. -/
def assert_team_membership (email team_id : String) : L Unit := do
  let teams ← list_user_teams email
  if teams.any fun (id, _) => is_text id team_id then return else throw .not_member

end

end AlitellmAuth.Litellm
