import AlitellmAuth.Litellm.KeyRows

/-! # The key routes of the console

    `session.py`: what a signed-in user can do with keys. The email is the one
    of the session, never of the request; a key is addressed by its id, which
    is looked up in a fresh listing, and only then by its token.
-/

namespace AlitellmAuth.Session

open Interleave Text Litellm

/-! ## Answers -/

/-- A key as the browser receives it: no token and no metadata. -/
structure BrowserRow where
  id : Json
  key_alias : Json
  spend : Json
  tpm_limit : Json
  rpm_limit : Json
  models : Json
  team_id : Json
  created_at : Json
  expires : Json
  last_used : Json
  blocked : Bool
  managed : Bool

/-- The answer of a route; `crashed` is an exception that nobody catches. -/
inductive Answer where
  | keys (rows : List BrowserRow)
  | created (minted : Litellm.Minted)
  | deleted (id : String)
  | blocked (id : String) (blocked : Bool)
  | moved (id team_id : String)
  | error (status : Nat) (detail : String)
  | crashed

/-- A route; an `HTTPException` ends it with its answer. -/
abbrev H := ExceptT Answer (Prog Call HttpAns)

/-- Call the client, and turn what it raises into an answer. -/
def attempt {α : Type} (p : L α) (on : Failure → Answer) : H α :=
  ExceptT.mk (p.run >>= fun
    | .ok a => .ret (.ok a)
    | .error e => .ret (.error (on e)))

/-- The answer in the end. -/
def respond (p : H Answer) : Prog Call HttpAns Answer :=
  p.run >>= fun
    | .ok a => .ret a
    | .error a => .ret a

/-- A status error and a transport error each give a 502; others are not
    caught. -/
def bad_gateway (detail : String) : Failure → Answer
  | .status .. => .error 502 detail
  | .transport => .error 502 "LiteLLM backend unreachable"
  | _ => .crashed

section
variable (settings : LitellmSettings) (sha256 : String → String)

/-- `_relist_or_502`. -/
def relist_or_502 (email : String) : H (List SessionRow) :=
  attempt (list_session_keys settings sha256 email) (bad_gateway "LiteLLM key listing failed")

/-- `_require_managed`. -/
def require_managed (target : SessionRow) : H Unit :=
  if target.managed then return
  else throw (.error 409 "This key is managed externally and cannot be modified here.")

/-- The key with an id, in a fresh listing. -/
def owned (user_keys : List SessionRow) (key_id : String) : H SessionRow :=
  match user_keys.find? fun k => is_text k.id key_id with
  | some target => return target
  | none => throw (.error 403 "Not authorized")

/-! ## Listing -/

/-- Without token and metadata. -/
def safe_key (row : SessionRow) : BrowserRow where
  id := row.id
  key_alias := row.key_alias
  spend := row.spend
  tpm_limit := row.tpm_limit
  rpm_limit := row.rpm_limit
  models := row.models
  team_id := row.team_id
  created_at := row.created_at
  expires := row.expires
  last_used := row.last_used
  blocked := row.blocked
  managed := row.managed

/-- A team of which the user is no member is masked; an id that cannot be
    looked up in a set raises. -/
def mask_team (member_team_ids : List Json) (row : BrowserRow) : Except Answer BrowserRow :=
  if !row.team_id.truthy then .ok row
  else if !row.team_id.hashable then .error .crashed
  else if member_team_ids.any row.team_id.keyEq then .ok row
  else .ok { row with team_id := .str "(internal)" }

def mask_teams (member_team_ids : List Json) : List BrowserRow → Except Answer (List BrowserRow)
  | [] => .ok []
  | row :: rows => do
      let row ← mask_team member_team_ids row
      return row :: (← mask_teams member_team_ids rows)

/-- The memberships, `none` if LiteLLM does not say. -/
def member_team_ids (email : String) : H (Option (List Json)) :=
  ExceptT.mk ((list_user_teams email).run >>= fun
    | .ok teams => .ret (.ok (some (teams.map (·.1))))
    | .error (.status ..) => .ret (.ok none)
    | .error .transport => .ret (.ok none)
    | .error _ => .ret (.error .crashed))

/-- `GET /api/session/keys`. -/
def session_list_keys (email : String) : H Answer := do
  let keys ← relist_or_502 settings sha256 email
  let safe_keys := keys.map safe_key
  match ← member_team_ids email with
  | none => return .keys safe_keys
  | some ids => return .keys (← ExceptT.mk (.ret (mask_teams ids safe_keys)))

/-! ## Deleting, blocking and moving -/

/-- `DELETE /api/session/keys/{id}`; `rejected` is what `assert_same_origin`
    raises. -/
def session_delete_key (rejected : Option Answer) (email key_id : String) : H Answer := do
  if let some answer := rejected then throw answer
  let user_keys ← relist_or_502 settings sha256 email
  let target ← owned user_keys key_id
  require_managed target
  attempt (delete_litellm_key target.token) (bad_gateway "Failed to delete key")
  return .deleted key_id

/-- `POST /api/session/keys/{id}/block`; the body is `none` if it does not
    validate. -/
def session_block_key (rejected : Option Answer) (email key_id : String) (body : Option Bool) :
    H Answer := do
  if let some answer := rejected then throw answer
  match body with
  | none => throw (.error 422 "invalid request body")
  | some blocked => do
      let user_keys ← relist_or_502 settings sha256 email
      let target ← owned user_keys key_id
      attempt (block_litellm_key target.token blocked) (bad_gateway "Failed to update key")
      return .blocked key_id blocked

/-- `_require_team_membership`. -/
def require_team_membership (email team_id : String) : H Unit :=
  attempt (assert_team_membership email team_id) fun
    | .not_member => .error 403 "Not a member of that team"
    | .status .. => .error 502 "LiteLLM backend unreachable"
    | .transport => .error 502 "LiteLLM backend unreachable"
    | _ => .crashed

/-- With personal teams on, the personal team is the only destination. -/
def require_personal_team (email team_id : String) : H Unit :=
  if settings.personal_teams_enabled && team_id != settings.personal_team_id email then
    throw (.error 403 "keys can only live in your personal team")
  else return

/-- `POST /api/session/keys/{id}/team`. -/
def session_change_key_team (rejected : Option Answer) (email key_id : String)
    (body : Option String) : H Answer := do
  if let some answer := rejected then throw answer
  match body with
  | none => throw (.error 422 "invalid request body")
  | some team_id => do
      let team_id := strip team_id
      if team_id = "" then throw (.error 422 "team_id required")
      require_personal_team settings email team_id
      require_team_membership email team_id
      let user_keys ← relist_or_502 settings sha256 email
      let target ← owned user_keys key_id
      require_managed target
      attempt (update_litellm_key_team target.token team_id)
        (bad_gateway "Failed to change key team")
      return .moved key_id team_id

/-! ## Creating -/

/-- `CreateKeyBody`. -/
structure CreateKeyBody where
  key_name : Option String
  duration : Option String
  team_id : Option String

/-- `c.isalnum()` and `\\d`, of the Unicode tables. -/
structure CharClasses where
  isalnum : Char → Bool
  isdigit : Char → Bool

variable (chars : CharClasses)

/-- `_validate_key_alias`. -/
def validate_key_alias : Option String → H (Option String)
  | none => return none
  | some s =>
      let s := strip s
      if s = "" || 128 < s.length then throw (.error 422 "alias must be 1-128 characters")
      else if !s.toList.all fun c => chars.isalnum c || "-_.".toList.contains c then
        throw (.error 422 "alias may only contain alphanumeric, dash, underscore, dot")
      else return some s

/-- The pattern `^\\d+[dhms]$`. -/
def is_duration (s : String) : Bool :=
  match s.toList.reverse with
  | [] => false
  | unit :: digits => "dhms".toList.contains unit && !digits.isEmpty && digits.all chars.isdigit

/-- `_validate_key_duration`. -/
def validate_key_duration : Option String → H (Option String)
  | none => return none
  | some s =>
      let s := strip s
      if s = "" then return none
      else if is_duration chars s then return some s
      else throw (.error 422 "duration must be a LiteLLM duration string (e.g. '90d', '24h')")

/-- `_validate_key_team`: with personal teams on, what the body says is
    discarded. -/
def validate_key_team (email : String) (team_id : Option String) : H (Option String) :=
  if settings.personal_teams_enabled then return none
  else
    match team_id.map strip with
    | none => return none
    | some team_id =>
        if team_id = "" then return none
        else do
          require_team_membership email team_id
          return some team_id

/-- What a failed mint is answered. -/
def mint_failed (key_name : Option String) : Failure → Answer
  | .status _ resp =>
      if resp.status_code == 400 && includes "already exists" (lower resp.text) then
        .error 422 ("A key named '" ++ key_name.getD "None" ++
          "' already exists. Choose a different name.")
      else .error 502 "Key generation failed"
  | .transport => .error 502 "LiteLLM backend unreachable"
  | _ => .crashed

/-- `POST /api/session/keys`. -/
def session_create_key (rejected : Option Answer) (email name : String)
    (body : Option CreateKeyBody) (moment : Moment) : H Answer := do
  if let some answer := rejected then throw answer
  match body with
  | none => throw (.error 422 "invalid request body")
  | some body => do
      let key_name ← validate_key_alias chars body.key_name
      let duration ← validate_key_duration chars body.duration
      let team_id ← validate_key_team settings email body.team_id
      let minted ← attempt
        (generate_litellm_key settings sha256 email (some name) duration key_name team_id moment)
        (mint_failed key_name)
      return .created minted

end

end AlitellmAuth.Session
