import AlitellmAuth.Framework.Ledger
import AlitellmAuth.Framework.Json
import AlitellmAuth.Framework.Text

/-! # The OpenWork organization server

    `openwork.py`: a browser session mints a one-time grant, the desktop trades
    it for a session token, and the session token opens the Den API and mints
    tokens for the MCP endpoint. Grants, session tokens and MCP tokens are
    records of three kinds in one store. There are no remote parties.
-/

namespace AlitellmAuth.OpenWork

open Interleave Text

/-! ## Records and answers -/

/-- `GRANT_KIND`, `TOKEN_KIND` and `MCP_TOKEN_KIND`. -/
inductive Kind where
  | grant
  | token
  | mcp_token
  deriving DecidableEq

/-- Who signed in. -/
structure Identity where
  email : String
  name : String
  deriving DecidableEq

/-- An MCP token carries the email only. -/
def Kind.Rec : Kind → Type
  | .grant => Identity
  | .token => Identity
  | .mcp_token => String

/-- The settings the server reads; `sha256` is the hex digest of a text. -/
structure DenSettings where
  app_base_url : String
  openwork_org_name : String
  openwork_org_slug : String
  openwork_grant_ttl_seconds : Nat
  openwork_token_ttl_seconds : Nat
  sha256 : String → String

structure User where
  id : String
  email : String
  name : String

structure Organization where
  id : String
  slug : String
  name : String

/-- The answers; what the desktop configuration and the empty catalogs say is
    left out. -/
inductive Response where
  | den_error (status : Nat) (error message : String)
  | login_redirect (location : String)
  | handoff (email grant denBaseUrl : String) (ttl_minutes : Nat)
  | session (token : String) (user : User) (organization : Organization)
  | me (user : User)
  | orgs (organization : Organization)
  | active_org (organization : Organization)
  | resources (organizationId orgMemberId : String)
  | desktop_config
  | telemetry
  | catalog (method resource : String)
  | mcp_token (token : String) (expiresAt : Nat) (organizationId resource : String)
  | mcp_agent
  | signed_out
  | crashed

/-- Answers of remote parties: there are none. -/
def Reply : Empty → Type := Empty.elim

/-- A handler of the server. -/
abbrev D := Prog (Op Kind Kind.Rec Empty) (Op.Ans Reply)

abbrev DenEvent := Event (Op Kind Kind.Rec Empty) (Op.Ans Reply)

abbrev DenTrace := Trace (Op Kind Kind.Rec Empty) (Op.Ans Reply)

def Store.get (k : Kind) (key : String) : D (Option k.Rec) :=
  Prog.await (Op.get k key)

def Store.put (k : Kind) (key : String) (v : k.Rec) (ttl : Option Nat) : D Unit :=
  Prog.await (Op.put k key v ttl)

def Store.pop (k : Kind) (key : String) : D (Option k.Rec) :=
  Prog.await (Op.pop k key)

/-- `secrets.token_urlsafe`. -/
def token_urlsafe (nbytes : Nat) : D String := Prog.await (Op.draw (.urlsafe nbytes))

def now : D Nat := Prog.await Op.time

/-! ## Reading a request -/

/-- The bearer value of an `Authorization` header; empty if there is none. -/
@[irreducible] def bearer (authorization : Option String) : String :=
  let header := (authorization.getD "").toList
  if lower (String.ofList (header.take 7)) = "bearer " then strip (String.ofList (header.drop 7))
  else ""

/-- The grant in the body of an exchange, `none` if reading it raises. A body
    that is not JSON counts as an empty one. -/
def grant_of (body : Option Json) : Option String :=
  match body.getD (.obj []) with
  | .obj fields =>
      match (fields.lookup "grant").getD .null with
      | .str s => some (strip s)
      | value => if value.truthy then none else some ""
  | _ => some ""

/-- The browser session, as far as the handoff page reads it. -/
structure BrowserSession where
  email : Option String
  name : Option String

/-- `request.session.get("name") or email`. -/
def BrowserSession.displayName (session : BrowserSession) (email : String) : String :=
  match session.name with
  | some name => if name = "" then email else name
  | none => email

/-- `row.get("name") or row["email"]`. -/
def Identity.displayName (row : Identity) : String := if row.name = "" then row.email else row.name

/-! ## Answering -/

/-- `str.rstrip("/")`. -/
def stripSlash (s : String) : String :=
  String.ofList (s.toList.reverse.dropWhile (· == '/')).reverse

/-- The first `n` characters. -/
def front (n : Nat) (s : String) : String := String.ofList (s.toList.take n)

def user_id_for (s : DenSettings) (email : String) : String := "user_" ++ front 24 (s.sha256 email)

def organization (s : DenSettings) : Organization where
  id := "organization_" ++ front 16 (s.sha256 s.openwork_org_slug)
  slug := s.openwork_org_slug
  name := s.openwork_org_name

def den_api_base (s : DenSettings) : String := stripSlash s.app_base_url ++ "/openwork/api/den"

def mcp_resource (s : DenSettings) : String := den_api_base s ++ "/mcp"

def MCP_TOKEN_TTL_SECONDS : Nat := 7 * 86400

def userOf (s : DenSettings) (row : Identity) : User where
  id := user_id_for s row.email
  email := row.email
  name := row.displayName

/-! ## Handlers -/

/-- `GET /openwork`: mint a grant for the signed-in user. The session remembers
    the handoff if there is no user yet. -/
def handoff_page (s : DenSettings) (session : BrowserSession) : D Response :=
  match session.email with
  | none => return .login_redirect (stripSlash s.app_base_url ++ "/api/oauth/login")
  | some email =>
      if email = "" then
        return .login_redirect (stripSlash s.app_base_url ++ "/api/oauth/login")
      else do
        let grant ← token_urlsafe 24
        Store.put .grant grant (⟨email, session.displayName email⟩ : Identity)
          (some s.openwork_grant_ttl_seconds)
        return .handoff email grant (den_api_base s) (s.openwork_grant_ttl_seconds / 60)

/-- Trade a grant for a session token. -/
def desktop_handoff_exchange (s : DenSettings) (body : Option Json) : D Response :=
  match grant_of body with
  | none => return .crashed
  | some grant =>
      if grant = "" then return .den_error 400 "invalid_request" "A grant is required."
      else do
        match ← Store.pop .grant grant with
        | none =>
            return .den_error 404 "grant_not_found"
              "This desktop sign-in link is missing, expired, or already used."
        | some (claimed : Identity) => do
            let token ← token_urlsafe 32
            Store.put .token token (⟨claimed.email, claimed.displayName⟩ : Identity)
              (some s.openwork_token_ttl_seconds)
            return .session token (userOf s claimed) (organization s)

/-- The row of the session token, or the 401 to answer with. -/
def require_den_token (authorization : Option String) : D (Except Response Identity) :=
  let token := bearer authorization
  if token = "" then
    return .error (.den_error 401 "unauthorized" "This request needs a session token.")
  else do
    match ← Store.get .token token with
    | none =>
        return .error (.den_error 401 "unauthorized" "This session token is unknown or expired.")
    | some row => return .ok row

/-- The routes that need a session token and do nothing else with the store. -/
inductive Route where
  | den_me
  | den_orgs
  | den_set_active_org
  | den_resources
  | den_desktop_config
  | den_telemetry
  | den_empty_catalog (method resource : String)

/-- The paths of `_EMPTY_GET`. -/
def emptyCatalogs : List String :=
  ["llm-providers", "inference-providers", "marketplaces", "resources/marketplace-capabilities",
    "me/library", "me/dashboards", "mcp-connections", "mcp-connections/presets", "apps",
    "automations", "cloud-automations", "plugins", "inference/analytics/settings"]

/-- What a route answers to a session. -/
def Route.answer (s : DenSettings) (session : Identity) : Route → Response
  | .den_me => .me (userOf s session)
  | .den_orgs => .orgs (organization s)
  | .den_set_active_org => .active_org (organization s)
  | .den_resources => .resources (organization s).id
      ("orgmember_" ++ String.ofList ((user_id_for s session.email).toList.drop 5))
  | .den_desktop_config => .desktop_config
  | .den_telemetry => .telemetry
  | .den_empty_catalog method resource =>
      if method = "GET" ∧ stripSlash resource ∈ emptyCatalogs then .catalog method resource
      else .den_error 404 "not_implemented" ("No handler for " ++ method ++ " /v1/" ++ resource)

def guarded (s : DenSettings) (route : Route) (authorization : Option String) : D Response := do
  match ← require_den_token authorization with
  | .error res => return res
  | .ok session => return route.answer s session

/-- Mint a token for the MCP endpoint. -/
def den_mcp_token (s : DenSettings) (authorization : Option String) : D Response := do
  match ← require_den_token authorization with
  | .error res => return res
  | .ok session => do
      let token ← token_urlsafe 32
      let time ← now
      Store.put .mcp_token token (session.email : String) (some MCP_TOKEN_TTL_SECONDS)
      return .mcp_token token (time + MCP_TOKEN_TTL_SECONDS) (organization s).id (mcp_resource s)

/-- The MCP endpoint: what an accepted call is answered touches no record. -/
def den_mcp_agent (authorization : Option String) : D Response :=
  let token := bearer authorization
  if token = "" then
    return .den_error 401 "invalid_mcp_token" "Missing or unknown MCP token."
  else do
    match ← Store.get .mcp_token token with
    | none => return .den_error 401 "invalid_mcp_token" "Missing or unknown MCP token."
    | some _ => return .mcp_agent

/-- Revoke a session token; an unknown one is fine. -/
def den_sign_out (authorization : Option String) : D Response :=
  let token := bearer authorization
  if token = "" then return .signed_out
  else do
    let _ ← Store.pop .token token
    return .signed_out

/-! ## The server -/

inductive Request where
  | handoff_page (session : BrowserSession)
  | desktop_handoff_exchange (body : Option Json)
  | guarded (route : Route) (authorization : Option String)
  | den_mcp_token (authorization : Option String)
  | den_mcp_agent (authorization : Option String)
  | den_sign_out (authorization : Option String)

/-- The handler of each request. -/
def handler (s : DenSettings) : Request → D Response
  | .handoff_page session => handoff_page s session
  | .desktop_handoff_exchange body => desktop_handoff_exchange s body
  | .guarded route authorization => guarded s route authorization
  | .den_mcp_token authorization => den_mcp_token s authorization
  | .den_mcp_agent authorization => den_mcp_agent authorization
  | .den_sign_out authorization => den_sign_out authorization

/-- A configuration of the server. -/
abbrev DenConfig := Config Kind Kind.Rec Reply Request Response

abbrev DenLabel := Label Empty Reply Request

/-- The configurations the server can reach. -/
abbrev Reached (s : DenSettings) (c : DenConfig) : Prop := Reachable (handler s) c

end AlitellmAuth.OpenWork
