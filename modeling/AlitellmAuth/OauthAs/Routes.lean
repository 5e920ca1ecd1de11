import AlitellmAuth.OauthAs.Redirect

/-! # The routes of the authorization server

    The handlers of `oauth_as/routes.py`, `oauth_as/grants.py` and
    `oauth_as/tokens.py` as programs: each `await` on the store or on a remote
    party is one operation, and so is each random draw and clock reading. A
    branch that ends in an exception nobody catches answers `internal_error`.
-/

namespace AlitellmAuth

open Interleave Text Url

/-- The settings together with the hash function, the text Python's `str` makes
    of a JSON value that is not a string, and what Authlib signs. -/
structure Env extends Settings where
  sha256 : List UInt8 → List UInt8
  str : Json → String
  /-- The claim that `jwt.encode` writes for the client id of a broker; none if it
      raises, as it does for a text that cannot be encoded. -/
  signs : BrokerValue → Option Json

/-- `urlencode` takes the value: it writes anything but a text with `str`, which
    escapes what cannot be encoded. -/
def query_encodes : BrokerValue → Bool
  | .str s => encodes s
  | _ => true

/-- The client id can be sent to its broker, in the hint and in the query. -/
def Env.sends (E : Env) (client_id : BrokerValue) : Bool :=
  (E.signs client_id).isSome && query_encodes client_id

/-! ## Lifetimes -/

def CLIENT_TTL : Nat := 90 * 86400
def PENDING_TTL : Nat := 600
def CODE_TTL : Nat := 120
def CHAIN_TTL : Nat := 600
def HINT_TTL : Nat := 600
def DEVICE_TTL : Nat := 600
def DEVICE_INTERVAL : Nat := 5
def DEVICE_GRANT : String := "urn:ietf:params:oauth:grant-type:device_code"
def USER_CODE_ALPHABET : List Char := "BCDFGHJKLMNPQRSTVWXZ".toList

/-! ## Signing -/

/-- `Signer.issue`: the claims that are signed. Only a client id that a broker has
    made up may be refused, which `chain_next` looks at. -/
def signer_issue (issuer audience sub scope : String) (client_id : Json) (ttl : Nat) :
    P Claims := do
  let now ← time
  let jti ← token_urlsafe 16
  return { iss := issuer, aud := audience, sub, iat := now, exp := now + ttl, jti, scope,
           client_id, token_use := "user" }

/-! ## Registration -/

/-- `body.get("redirect_uris")` if it is a non-empty list of strings. -/
def string_list : Option Json → Option (List String)
  | some (.arr (u :: us)) => (u :: us).mapM fun
      | .str s => some s
      | _ => none
  | _ => none

/-- `POST /oauth/register`; the body is `none` if it is not JSON. -/
def register (body : Option Json) : P Response :=
  match body with
  | some (.obj fields) =>
      match string_list ((Json.obj fields).get? "redirect_uris") with
      | some uris =>
          if !uris.all redirect_allowed then
            return .error 400 "invalid_redirect_uri" "redirect_uris must be https or loopback http"
          else
            match ((Json.obj fields).get? "token_endpoint_auth_method").getD (.str "none") with
            | .str "none" => do
                let client_id ← token_urlsafe 16
                let record : Client := { client_id, redirect_uris := uris }
                Store.put .client client_id record (some CLIENT_TTL)
                return .registered record
            | _ =>
                return .error 400 "invalid_client_metadata" "only public clients are registered here"
      | none =>
          return .error 400 "invalid_redirect_uri" "redirect_uris must be https or loopback http"
  | _ => return .error 400 "invalid_client_metadata" "body must be a JSON object"

/-! ## Authorization requests -/

/-- The query parameters of `/oauth/authorize`. -/
structure AuthorizeQuery where
  client_id : Option String
  redirect_uri : Option String
  state : Option String
  scope : Option String
  code_challenge : Option String
  response_type : Option String
  code_challenge_method : Option String

/-- The parameters of an error redirect; a state is echoed if it is not empty. -/
def with_state (params : List (String × String)) (state : Option String) :
    List (String × String) :=
  match state with
  | some s => if s = "" then params else params ++ [("state", s)]
  | none => params

/-- The scopes a request asks for; the audience if it names none. -/
def requested_scopes (s : Settings) (q : AuthorizeQuery) : List String :=
  match q.scope with
  | some scope => split (if scope = "" then s.as_audience else scope)
  | none => split s.as_audience

/-- The redirect to Dex, which names the pending request by its state. -/
def authorize_redirect (s : Settings) (pending_id : String) : Response :=
  .dex_redirect (rstrip_slash s.app_base_url ++ "/oauth/as-callback") pending_id
    (s.oauth_scopes ++ " offline_access")

/-- `GET /oauth/authorize`. -/
def authorize (E : Env) (q : AuthorizeQuery) : P Response := do
  match ← Store.get .client (q.client_id.getD "") with
  | none => return .html_error 400 "unknown client_id"
  | some client =>
      let redirect_uri := q.redirect_uri.getD ""
      if !client.redirect_uris.any (redirect_matches · redirect_uri) then
        return .html_error 400 "redirect_uri is not registered for this client"
      else
        let requested := requested_scopes E.toSettings q
        let unknown := requested.filter fun s => s != E.as_audience && !E.offers s
        if !unknown.isEmpty then
          return .client_redirect redirect_uri (with_state [("error", "invalid_scope"),
            ("error_description", "unknown scope: " ++ join unknown)] q.state)
        else if q.response_type != some "code" || q.code_challenge_method != some "S256" ||
            !isChallenge (q.code_challenge.getD "") then
          return .client_redirect redirect_uri (with_state [("error", "invalid_request"),
            ("error_description", "response_type=code with PKCE S256 is required")] q.state)
        else do
          Store.put .client client.client_id client (some CLIENT_TTL)
          let pending_id ← token_urlsafe 24
          Store.put .pending pending_id
            (.client { client_id := client.client_id, redirect_uri, state := q.state,
                       code_challenge := q.code_challenge.getD "", scopes := requested })
            (some PENDING_TTL)
          return authorize_redirect E.toSettings pending_id

/-! ## Grants -/

/-- What the projection says about a grant. -/
def Projection.grants : Projection → Bool
  | .json value => (value.get? "granted").elim false Json.truthy
  | _ => false

/-- `Grants.granted`. -/
def granted (E : Env) (email scope : String) : P Bool :=
  match E.services.lookup scope with
  | none => return false
  | some svc => do
      let value ← remote (.projection svc.store email)
      return value.grants

/-- Is the scope one `Grants.scopes_for` keeps? The audience is added apart. -/
def keeps (E : Env) (email audience s : String) : P Bool :=
  if s != audience then granted E email s else return false

/-- The loop of `Grants.scopes_for`. -/
def granted_among (E : Env) (email audience : String) : List String → P (List String)
  | [] => return []
  | s :: rest => do
      let keep ← keeps E email audience s
      let out ← granted_among E email audience rest
      return if keep then s :: out else out

/-- `Grants.scopes_for`. -/
def scopes_for (E : Env) (email : String) (requested : List String) (audience : String) :
    P (List String) := do
  let out ← granted_among E email audience requested
  return audience :: out

/-- Is the scope a service the user has not granted yet? -/
def lacks (E : Env) (email s : String) : P Bool :=
  if E.offers s then do
    let g ← granted E email s
    return !g
  else return false

/-- The services a request asks for that the user has not granted yet. -/
def ungranted (E : Env) (email : String) : List String → P (List String)
  | [] => return []
  | s :: rest => do
      let missing ← lacks E email s
      let out ← ungranted E email rest
      return if missing then s :: out else out

/-! ## Finishing a code flow -/

/-- `_finish`: mint the authorization code. -/
def finish (E : Env) (request : AuthRequest) (sub : String) : P Response := do
  let scopes ← scopes_for E sub request.scopes E.as_audience
  let code ← token_urlsafe 32
  Store.put .code code { request, sub, scope := join scopes } (some CODE_TTL)
  return .client_redirect request.redirect_uri (with_state [("code", code)] request.state)

/-- How `_broker_client_id` ends: a client id, an exception `_chain_next`
    catches, or one it does not. -/
inductive BrokerResult where
  | ok (client_id : BrokerValue)
  | failed
  | crashed

/-- The client id in a broker's registration answer. A body that is not an
    object raises `TypeError`, which is not caught; neither is `InvalidURL`. -/
def registered_client_id : BrokerReply → BrokerResult
  | .invalid_url => .crashed
  | .transport_error => .failed
  | .response status body =>
      if status < 200 || 300 ≤ status then .failed
      else match body with
        | none => .failed
        | some (.obj fields) =>
            match fields.lookup (lit "client_id") with
            | some client_id => .ok client_id
            | none => .failed
        | some _ => .crashed

/-- `_broker_client_id`. -/
def broker_client_id (broker : String) : P BrokerResult := do
  match ← Store.get .brokerclient broker with
  | some cached => return .ok cached.client_id
  | none =>
      let reply ← remote (.broker_register broker)
      match registered_client_id reply with
      | .ok client_id => do
          Store.put .brokerclient broker { client_id } (some CLIENT_TTL)
          return .ok client_id
      | .failed => return .failed
      | .crashed => return .crashed

/-- `_chain_next` and `_skip_and_continue` in one recursion on the services
    still to visit: an empty list is `_skip_and_continue` with nothing left. -/
def chain_next (E : Env) (request : AuthRequest) (sub : String) : List String → P Response
  | [] => finish E request sub
  | scope :: rest =>
      match E.services.lookup scope with
      | none => return .internal_error
      | some svc => do
          match ← broker_client_id svc.broker with
          | .failed => chain_next E request sub rest
          | .crashed => return .internal_error
          | .ok client_id => do
              let verifier ← token_urlsafe 48
              let chain_id ← token_urlsafe 24
              Store.put .chain chain_id { request, sub, todo := scope :: rest, verifier }
                (some CHAIN_TTL)
              let login_hint ← signer_issue E.as_issuer svc.store sub ""
                ((E.signs client_id).getD .null) HINT_TTL
              -- signing the hint, or writing the query, may have raised by now
              if !E.sends client_id then return .internal_error
              else
                return .broker_redirect svc.broker svc.store chain_id (s256 E.sha256 verifier)
                  client_id login_hint

/-- `GET /oauth/broker-callback`. The answer of the broker, code or error,
    changes nothing but a log line. -/
def broker_callback (E : Env) (state : String) : P Response := do
  match ← Store.pop .chain state with
  | none => return .html_error 400 "no authorization is in progress — start again from your client"
  | some chain => chain_next E chain.request chain.sub chain.todo.tail

/-! ## The device grant -/

/-- `_device_settle`: `none` when the record is gone or already settled. -/
def device_settle (device_code : String) (status : DeviceStatus) (sub : Option String) :
    P (Option Device) := do
  match ← Store.get .device device_code with
  | none => return none
  | some rec =>
      if rec.status ≠ .pending then return none
      else do
        let settled : Device := { rec with status, sub := sub.or rec.sub }
        Store.put .device device_code settled (some DEVICE_TTL)
        let _ ← Store.pop .device_user settled.user_code
        return some settled

/-- `_device_finish`. -/
def device_finish (device_code sub : String) : P Response := do
  match ← device_settle device_code .approved (some sub) with
  | none =>
      return .html_error 400 "this device code has expired — start again from your terminal"
  | some _ => return .device_page "" "" 200 true

/-- The hyphenated form of eight letters. -/
def hyphenate (raw : List Char) : String := String.ofList (raw.take 4 ++ '-' :: raw.drop 4)

/-- `_new_user_code`. -/
def new_user_code : P String := do
  let raw ← call (.draw (.letters USER_CODE_ALPHABET 8))
  return hyphenate (String.toList raw)

/-- `_normalize_user_code`. -/
def normalize_user_code (raw : String) : String :=
  let s := (upper (strip raw)).toList.filter fun c => c != '-' && c != ' '
  if s.length = 8 then hyphenate s else ""

/-- `POST /oauth/device_authorization`. -/
def device_authorization (E : Env) (client_id : String) : P Response := do
  match ← Store.get .client client_id with
  | none => return .error 400 "invalid_client" "unknown client_id"
  | some client => do
      let device_code ← token_urlsafe 32
      let user_code ← new_user_code
      Store.put .device device_code
        { client_id := client.client_id, user_code, status := .pending, sub := none }
        (some DEVICE_TTL)
      Store.put .device_user user_code { device_code } (some DEVICE_TTL)
      return .device_authorization device_code user_code (E.as_issuer ++ "/oauth/device")
        DEVICE_TTL DEVICE_INTERVAL

/-- `request.headers.get("origin") or request.headers.get("referer") or ""`. -/
def origin_header (origin referer : Option String) : String :=
  if origin.getD "" ≠ "" then origin.getD "" else referer.getD ""

/-- The origin check of `device_confirm`: scheme, host and port agree. `none`
    where parsing raises. -/
def same_origin (raw app_base_url : String) : Option Bool :=
  match urlparse raw, urlparse app_base_url with
  | some got, some ours =>
      match got.port, ours.port with
      | some p, some p' =>
          some (got.scheme == ours.scheme && got.hostname == ours.hostname && p == p')
      | _, _ => none
  | _, _ => none

/-- The device a typed user code stands for; no code is looked up if nothing
    like one was typed. -/
def device_index (user_code : String) : P (Option DeviceUser) :=
  if user_code = "" then return none else Store.get .device_user user_code

/-- `POST /oauth/device`. -/
def device_confirm (E : Env) (origin referer : Option String) (typed : String) : P Response :=
  match same_origin (origin_header origin referer) E.app_base_url with
  | none => return .internal_error
  | some false =>
      return .html_error 403 "cross-origin request rejected — open the verification page directly"
  | some true => do
      match ← device_index (normalize_user_code typed) with
      | none =>
          return .device_page typed "code not found or expired — check your terminal" 400 false
      | some index => do
          let pending_id ← token_urlsafe 24
          Store.put .pending pending_id (.device index.device_code [E.as_audience])
            (some PENDING_TTL)
          return authorize_redirect E.toSettings pending_id

/-! ## The callback from Dex -/

def MAX_GROUPS : Nat := 50

/-- `normalize_groups`. -/
def normalize_groups (raw : Json) : List String :=
  let items := match raw with
    | .str s => [Json.str s]
    | .arr items => items
    | _ => []
  (items.filterMap fun
    | .str g => if strip g = "" then none else some (strip g)
    | _ => none).take MAX_GROUPS

/-- `(userinfo.get("email") or "").strip().lower()`. -/
def normalized_email (userinfo : Option UserInfo) : String :=
  lower (strip ((userinfo.bind (·.email)).getD ""))

/-- The part of `as_callback` after provisioning. -/
def continue_login (E : Env) (pending : Pending) (email : String) : P Response :=
  match pending with
  | .device device_code _ => device_finish device_code email
  | .client request => do
      let todo ← ungranted E email request.scopes
      chain_next E request email todo

/-- The pending request a callback belongs to. -/
def pop_pending (state : String) : P (Option Pending) :=
  if state = "" then return none else Store.pop .pending state

/-- A failed login denies the device code it was for. -/
def deny (pending : Pending) : P (Option Device) :=
  match pending with
  | .device device_code _ => device_settle device_code .denied none
  | .client _ => return none

/-- `GET /oauth/as-callback`. A device code is a random draw, never empty. -/
def as_callback (E : Env) (state : String) : P Response := do
  match ← pop_pending state with
  | none =>
      return .html_error 400 "no authorization request is pending — start again from your client"
  | some pending => do
      match ← remote (.authorize_access_token state) with
      | none => do
          let _ ← deny pending
          return .html_error 400 "the identity provider did not complete the login"
      | some token =>
          let email := normalized_email token.userinfo
          if email = "" then return .html_error 400 "the identity provider returned no email"
          else if token.refresh_token.getD "" = "" then
            return .html_error 400
              "the identity provider issued no refresh token (offline_access)"
          else do
            let groups := normalize_groups ((token.userinfo.map (·.groups)).getD .null)
            Store.put .dexrt email { rt := token.refresh_token.getD "" }
              (some E.as_refresh_ttl_seconds)
            let name := token.userinfo.bind (·.name)
            match ← remote (.ensure_team_and_user email name groups) with
            | .status_error code =>
                return .html_error 502 ("user provisioning failed: LiteLLM rejected it (" ++
                  toString code ++ ")")
            | .transport_error =>
                return .html_error 503
                  "user provisioning failed: LiteLLM is unreachable, try again"
            | .crashed => return .internal_error
            | .ok _ => continue_login E pending email

/-! ## The token endpoint -/

/-- `_issue`: sign an access token and store a refresh token. -/
def issue (E : Env) (sub client_id scope : String) : P Response := do
  let access ← signer_issue E.as_issuer E.as_audience sub scope (.str client_id)
    E.as_access_ttl_seconds
  let refresh ← token_urlsafe 32
  Store.put .refresh refresh { sub, client_id, scope } (some E.as_refresh_ttl_seconds)
  return .tokens access refresh scope E.as_access_ttl_seconds

/-- How `_dex_refresh` ends: the token to keep, `DexRefused`, an
    `httpx.HTTPError`, or another exception. -/
inductive DexResult where
  | accepted (rt : String)
  | refused
  | unreachable
  | crashed
  deriving DecidableEq

/-- What `_dex_refresh` makes of Dex's answer. A body without a refresh token
    means Dex did not rotate it. -/
def DexReply.result (rt : String) : DexReply → DexResult
  | .transport_error => .unreachable
  | .status code => if code = 400 then .refused else .unreachable
  | .success refresh_token =>
      .accepted (if refresh_token.getD "" = "" then rt else refresh_token.getD "")
  | .malformed => .crashed

/-- How `_revalidate_at_dex` ends. -/
inductive Revalidation where
  | honoured (rt : String)
  | refused
  | unreachable
  | crashed
  deriving DecidableEq

/-- The loop of `_revalidate_at_dex`, with the number of rounds left and the
    record read last. -/
def revalidate_loop (E : Env) (sub : String) : Nat → Option DexRt → P Revalidation
  | 0, _ => do
      let _ ← Store.pop .dexrt sub
      return .refused
  | n + 1, rec =>
      match rec with
      | none => return .refused
      | some rec => do
          let reply ← remote (.dex_refresh rec.rt)
          match reply.result rec.rt with
          | .refused => do
              let current ← Store.get .dexrt sub
              match current with
              | some current' =>
                  if current'.rt ≠ rec.rt then revalidate_loop E sub n (some current')
                  else do
                    let _ ← Store.pop .dexrt sub
                    return .refused
              | none => do
                  let _ ← Store.pop .dexrt sub
                  return .refused
          | .unreachable => return .unreachable
          | .crashed => return .crashed
          | .accepted rotated => do
              Store.put .dexrt sub { rt := rotated } (some E.as_refresh_ttl_seconds)
              return .honoured rotated

/-- `_revalidate_at_dex`. -/
def revalidate_at_dex (E : Env) (sub : String) : P Revalidation := do
  let rec ← Store.get .dexrt sub
  revalidate_loop E sub 2 rec

/-- The form of a token request. -/
structure TokenForm where
  grant_type : Option String
  client_id : String
  code : String
  redirect_uri : String
  code_verifier : String
  refresh_token : String
  device_code : String
  deriving DecidableEq

/-- `token` with `grant_type=authorization_code`. -/
def token_code (E : Env) (form : TokenForm) : P Response := do
  match ← Store.pop .code form.code with
  | none => return .error 400 "invalid_grant" ""
  | some rec =>
      if rec.request.client_id ≠ form.client_id ||
          !redirect_matches rec.request.redirect_uri form.redirect_uri ||
          !pkce_ok E.sha256 rec.request.code_challenge form.code_verifier then
        return .error 400 "invalid_grant" ""
      else issue E rec.sub form.client_id rec.scope

/-- The end of a refresh: consume the token and derive the scopes again. -/
def rotate (E : Env) (form : TokenForm) (alive : Bool) : P Response := do
  match ← Store.pop .refresh form.refresh_token with
  | none => return .error 400 "invalid_grant" ""
  | some consumed =>
      if consumed.client_id ≠ form.client_id then return .error 400 "invalid_grant" ""
      else if !alive then return .error 400 "invalid_grant" ""
      else do
        let scopes ← scopes_for E consumed.sub (split consumed.scope) E.as_audience
        issue E consumed.sub form.client_id (join scopes)

/-- `token` with `grant_type=refresh_token`. -/
def token_refresh (E : Env) (form : TokenForm) : P Response := do
  match ← Store.get .refresh form.refresh_token with
  | none => return .error 400 "invalid_grant" ""
  | some rec =>
      if rec.client_id ≠ form.client_id then return .error 400 "invalid_grant" ""
      else do
        match ← revalidate_at_dex E rec.sub with
        | .unreachable =>
            return .error 503 "temporarily_unavailable" "identity provider unreachable"
        | .crashed => return .internal_error
        | .refused => do
            let _ ← Store.pop .refresh form.refresh_token
            return .error 400 "invalid_grant"
              "the identity provider no longer honours this session"
        | .honoured _ => do
            match ← remote (.get_litellm_user rec.sub) with
            | .status_error _ => return .error 503 "temporarily_unavailable" ""
            | .transport_error => return .error 503 "temporarily_unavailable" ""
            | .crashed => return .internal_error
            | .ok alive => rotate E form alive

/-- `token` with the device grant. An approved record always has a subject;
    reading it off any other record raises. -/
def token_device (E : Env) (form : TokenForm) : P Response := do
  match ← Store.get .device form.device_code with
  | none => return .error 400 "expired_token" ""
  | some rec =>
      if rec.client_id ≠ form.client_id then return .error 400 "invalid_grant" ""
      else match rec.status with
        | .pending => return .error 400 "authorization_pending" ""
        | .denied => do
            let _ ← Store.pop .device form.device_code
            return .error 400 "access_denied" ""
        | .approved => do
            match ← Store.pop .device form.device_code with
            | none => return .error 400 "expired_token" ""
            | some taken =>
                match taken.sub with
                | some sub => issue E sub form.client_id E.as_audience
                | none => return .internal_error

/-- `POST /oauth/token`. -/
def token (E : Env) (form : TokenForm) : P Response :=
  if form.grant_type = some "authorization_code" then token_code E form
  else if form.grant_type = some "refresh_token" then token_refresh E form
  else if form.grant_type = some DEVICE_GRANT then token_device E form
  else return .error 400 "unsupported_grant_type" ""

end AlitellmAuth
