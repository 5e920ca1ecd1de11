import AlitellmAuth.Framework.Text

/-! # The gateway policy

    `decide.go`: what the authorization proxy tells the gateway to do with a
    request. Declared headers and `Authorization` may carry a credential; a
    LiteLLM key is renamed to the outbound header, a token of ours is verified
    and replaced by the key of its subject, and anything else is left alone.

    * `Decide`: the policy, as the proxy computes it.
    * `selected`: the credential of a request.
    * `Policy`: what the gateway relies on, for any decision function, and
      `decide_policy`: the proxy's function meets it.
-/

namespace AlitellmAuth.Authz

open Text

/-! ## The proxy -/

/-- The settings of the proxy; where it listens and how long it keeps a key do
    not matter to a decision. -/
structure Config where
  inboundHeaders : List String
  outboundHeader : String
  issuer : String
  audience : String
  resourceMetadataURL : String
  keyResolverURL : String
  internalToken : String
  idpIssuer : String
  idpAudience : String
  idpSubjectClaim : String

/-- The headers of a request; a missing one reads as the empty string. -/
abbrev Headers := String → String

/-- The subject and the scopes of a token, or an error. -/
abbrev Verifier := String → Option (String × List String)

/-- The key of a subject, or an error. -/
abbrev KeyResolver := String → Option String

/-- What Envoy is told; `set` and `remove` apply to the upstream request. -/
structure Decision where
  allow : Bool
  set : List (String × String) := []
  remove : List String := []
  status : Nat := 0
  wwwAuthenticate : String := ""
  body : String := ""
  deriving DecidableEq

def protectedPrefixes : List String := ["/v1/", "/gemini/", "/mcp/", "/a2a/"]

/-- `protected`: the model API and the MCP and A2A servers. -/
def isProtected (path : String) : Bool :=
  protectedPrefixes.any fun p => path == trimBack "/" p || startsWith p path

def bareKey (raw : String) : String := trimSpace (trimFront "Bearer " (trimSpace raw))

/-- Header, payload and signature, and not a LiteLLM key. -/
def looksLikeJWS (s : String) : Bool := count '.' s == 2 && !startsWith "sk-" s

/-- The characters of `serviceName`. -/
def serviceChar (c : Char) : Bool :=
  'A' ≤ c && c ≤ 'Z' || 'a' ≤ c && c ≤ 'z' || '0' ≤ c && c ≤ '9' || c == '.' || c == '_' || c == '-'

/-- `serviceName.MatchString`. -/
def serviceName (s : String) : Bool := s != "" && s.toList.all serviceChar

/-- The service of an MCP path; empty for any other path, and for a segment
    that is no service name. -/
def mcpService (path : String) : String :=
  match cutFront "/mcp/" path with
  | none => ""
  | some rest =>
      let svc := String.ofList (rest.toList.takeWhile (· != '/'))
      if serviceName svc then svc else ""

def challengeDoc (cfg : Config) (path : String) : String :=
  if mcpService path ≠ "" then cfg.resourceMetadataURL ++ "/mcp/" ++ mcpService path
  else cfg.resourceMetadataURL

def challenge (cfg : Config) (path errCode : String) : String :=
  if errCode ≠ "" then
    "Bearer error=\"" ++ errCode ++ "\", resource_metadata=\"" ++ challengeDoc cfg path ++ "\""
  else "Bearer resource_metadata=\"" ++ challengeDoc cfg path ++ "\""

def deny (status : Nat) (challenge body : String) : Decision where
  allow := false
  status := status
  wwwAuthenticate := challenge
  body := body

def allowWithKey (cfg : Config) (key : String) (remove : List String) : Decision where
  allow := true
  set := [(cfg.outboundHeader, "Bearer " ++ key)]
  remove := remove

def userPath (cfg : Config) (path tok : String) (remove : List String) (v : Verifier)
    (r : KeyResolver) : Decision :=
  match v tok with
  | none => deny 401 (challenge cfg path "invalid_token")
      "\x7b\"error\":\"invalid_token\",\"error_description\":\"the bearer token could not be verified\"\x7d"
  | some (sub, _) =>
      match r sub with
      | none => deny 503 "" "\x7b\"error\":\"key_resolver_unavailable\"\x7d"
      | some key => allowWithKey cfg key remove

/-- `untouched`: the request goes on as it is. -/
def untouched : Decision where
  allow := true

/-- The body of the 401 that starts the ceremony. -/
def unauthorized (cfg : Config) : String :=
  "\x7b\"error\":\"unauthorized\",\"error_description\":\"present a LiteLLM key or a token from the authorization server in "
    ++ String.intercalate ", " cfg.inboundHeaders ++ " or Authorization: Bearer\"\x7d"

/-- The whole policy. The declared headers come first, in their order. -/
def Decide (cfg : Config) (path : String) (h : Headers) (v : Verifier) (r : KeyResolver) :
    Decision :=
  match cfg.inboundHeaders.find? fun name => h name != "" with
  | some name =>
      let tok := bareKey (h name)
      if !looksLikeJWS tok then allowWithKey cfg tok [name]
      else userPath cfg path tok [name] v r
  | none =>
      let auth := h "authorization"
      if auth != "" then
        if startsWith "Bearer " auth && looksLikeJWS (bareKey auth) then
          userPath cfg path (bareKey auth) ["authorization"] v r
        else untouched
      else if h cfg.outboundHeader != "" || !isProtected path then untouched
      else deny 401 (challenge cfg path "") (unauthorized cfg)

/-! ## What the gateway relies on -/

/-- A credential: the header it came in, and its bare token. -/
structure Credential where
  header : String
  token : String

/-- The credential of a request: the first declared header that is not empty,
    else a token of ours in `Authorization`. -/
def selected (cfg : Config) (h : Headers) : Option Credential :=
  match cfg.inboundHeaders.find? fun name => h name != "" with
  | some name => some ⟨name, bareKey (h name)⟩
  | none =>
      let auth := h "authorization"
      if startsWith "Bearer " auth && looksLikeJWS (bareKey auth) then
        some ⟨"authorization", bareKey auth⟩
      else none

/-- The decision apart from the texts of a denial. -/
def Decision.verdict (d : Decision) : Bool × List (String × String) × List String × Nat :=
  (d.allow, d.set, d.remove, d.status)

/-- The policy of the gateway, for any way to decide. -/
structure Policy
    (decide : Config → String → Headers → Verifier → KeyResolver → Decision) : Prop where
  /-- The outbound header gets the caller's own key, or the key of the subject
      of the caller's verified token. -/
  injects : ∀ cfg path h v r name value, (name, value) ∈ (decide cfg path h v r).set →
    name = cfg.outboundHeader ∧ ∃ cred key, selected cfg h = some cred ∧ value = "Bearer " ++ key ∧
      (looksLikeJWS cred.token = false ∧ key = cred.token ∨
       looksLikeJWS cred.token = true ∧
        ∃ sub scopes, v cred.token = some (sub, scopes) ∧ r sub = some key)
  /-- A key of the caller's own goes on in the outbound header, and so does the key
      of the subject of a token that is verified. -/
  forwards : ∀ cfg path h v r cred key, selected cfg h = some cred →
    (looksLikeJWS cred.token = false ∧ key = cred.token ∨
     looksLikeJWS cred.token = true ∧
      ∃ sub scopes, v cred.token = some (sub, scopes) ∧ r sub = some key) →
    (decide cfg path h v r).allow = true ∧
      (decide cfg path h v r).set = [(cfg.outboundHeader, "Bearer " ++ key)]
  /-- Nothing else of what the resolver knows has any influence. -/
  resolves : ∀ cfg path h v r r', decide cfg path h v r ≠ decide cfg path h v r' →
    ∃ cred sub scopes, selected cfg h = some cred ∧ looksLikeJWS cred.token = true ∧
      v cred.token = some (sub, scopes) ∧ r sub ≠ r' sub
  unverified : ∀ cfg path h v r cred, selected cfg h = some cred →
    looksLikeJWS cred.token = true → v cred.token = none →
    (decide cfg path h v r).allow = false ∧ (decide cfg path h v r).status = 401
  unresolved : ∀ cfg path h v r cred sub scopes, selected cfg h = some cred →
    looksLikeJWS cred.token = true → v cred.token = some (sub, scopes) → r sub = none →
    (decide cfg path h v r).allow = false ∧ (decide cfg path h v r).status = 503
  /-- A request that goes on loses the header its credential came in, and no
      other. -/
  removes : ∀ cfg path h v r, (decide cfg path h v r).allow = true →
    (decide cfg path h v r).remove = ((selected cfg h).map Credential.header).toList
  anonymous : ∀ cfg path h v r, selected cfg h = none → h "authorization" = "" →
    h cfg.outboundHeader = "" →
    ((decide cfg path h v r).allow = false ∧ (decide cfg path h v r).status = 401 ↔
      isProtected path = true)
  /-- The path and the other headers do not matter to a credential. -/
  uniform : ∀ cfg path path' h h' v r cred, selected cfg h = some cred →
    selected cfg h' = some cred →
    (decide cfg path h v r).verdict = (decide cfg path' h' v r).verdict

section
variable {cfg : Config} {path : String} {h : Headers} {v : Verifier} {r : KeyResolver}
  {cred : Credential}

/-- A request with a credential is decided on the credential alone. -/
theorem decide_of_selected (hsel : selected cfg h = some cred) :
    Decide cfg path h v r =
      if looksLikeJWS cred.token then userPath cfg path cred.token [cred.header] v r
      else allowWithKey cfg cred.token [cred.header] := by
  unfold selected at hsel
  unfold Decide
  split at hsel
  · next name hname =>
    cases hsel
    dsimp only
    cases looksLikeJWS (bareKey (h name)) <;> rfl
  · next hnone =>
    dsimp only at hsel
    split at hsel
    · next hours =>
      cases hsel
      have hjws := (Bool.and_eq_true_iff.mp hours).2
      -- an empty header would not start with the scheme
      have hauth : (h "authorization" != "") = true := by
        rw [bne_iff_ne]
        intro hempty
        rw [hempty] at hours
        exact absurd hours (by decide)
      dsimp only
      rw [if_pos hauth, if_pos hours, if_pos hjws]
    · cases hsel

/-- A request without one goes on as it is, or is turned away for want of it. -/
theorem decide_of_not_selected (hsel : selected cfg h = none) :
    Decide cfg path h v r =
      if h "authorization" != "" || h cfg.outboundHeader != "" || !isProtected path then untouched
      else deny 401 (challenge cfg path "") (unauthorized cfg) := by
  unfold selected at hsel
  unfold Decide
  split at hsel
  · cases hsel
  · next hnone =>
    dsimp only at hsel
    split at hsel
    · cases hsel
    · next hours =>
      rw [Bool.not_eq_true] at hours
      dsimp only
      rw [hours]
      cases h "authorization" != "" <;> rfl

/-- How the path of a token of ours ends. -/
theorem userPath_cases (cfg : Config) (path tok : String) (remove : List String) (v : Verifier)
    (r : KeyResolver) :
    (v tok = none ∧ ∃ www body, userPath cfg path tok remove v r = deny 401 www body) ∨
    ∃ sub scopes, v tok = some (sub, scopes) ∧
      (r sub = none ∧ (∃ body, userPath cfg path tok remove v r = deny 503 "" body) ∨
       ∃ key, r sub = some key ∧ userPath cfg path tok remove v r = allowWithKey cfg key remove) := by
  unfold userPath
  split
  · next hv => exact .inl ⟨hv, _, _, rfl⟩
  · next sub scopes hv =>
    refine .inr ⟨sub, scopes, hv, ?_⟩
    split
    · next hr => exact .inl ⟨hr, _, rfl⟩
    · next key hr => exact .inr ⟨key, hr, rfl⟩

/-- The path of the request shows in the texts of a denial only. -/
theorem userPath_verdict (path path' tok : String) (remove : List String) :
    (userPath cfg path tok remove v r).verdict = (userPath cfg path' tok remove v r).verdict := by
  unfold userPath
  split
  · rfl
  · split
    · rfl
    · rfl

end

/-- The proxy's policy is the one the gateway relies on. -/
theorem decide_policy : Policy Decide where
  injects := by
    intro cfg path h v r name value hset
    -- only a bare key and a resolved subject are answered with a header
    match hsel : selected cfg h with
    | none =>
      rw [decide_of_not_selected hsel] at hset
      split at hset <;> cases hset
    | some cred =>
      rw [decide_of_selected hsel] at hset
      split at hset
      · next hjws =>
        obtain ⟨-, www, body, heq⟩ | ⟨sub, scopes, hv, ⟨-, body, heq⟩ | ⟨key, hr, heq⟩⟩ :=
          userPath_cases cfg path cred.token [cred.header] v r
        · rw [heq] at hset
          cases hset
        · rw [heq] at hset
          cases hset
        · rw [heq] at hset
          cases List.mem_singleton.mp hset
          exact ⟨rfl, cred, key, rfl, rfl, .inr ⟨hjws, sub, scopes, hv, hr⟩⟩
      · next hjws =>
        cases List.mem_singleton.mp hset
        exact ⟨rfl, cred, cred.token, rfl, rfl, .inl ⟨Bool.not_eq_true _ ▸ hjws, rfl⟩⟩
  forwards := by
    intro cfg path h v r cred key hsel hkey
    rw [decide_of_selected hsel]
    rcases hkey with ⟨hjws, rfl⟩ | ⟨hjws, sub, scopes, hv, hr⟩
    · rw [if_neg (Bool.not_eq_true _ ▸ hjws)]
      exact ⟨rfl, rfl⟩
    · rw [if_pos hjws, userPath, hv]
      dsimp only
      rw [hr]
      exact ⟨rfl, rfl⟩
  resolves := by
    intro cfg path h v r r' hne
    match hsel : selected cfg h with
    | none =>
      rw [decide_of_not_selected hsel, decide_of_not_selected hsel] at hne
      exact absurd rfl hne
    | some cred =>
      rw [decide_of_selected hsel, decide_of_selected hsel] at hne
      split at hne
      · next hjws =>
        -- the resolver is asked last, so the two replies differ by it alone
        unfold userPath at hne
        match hv : v cred.token with
        | none =>
          rw [hv] at hne
          exact absurd rfl hne
        | some (sub, scopes) =>
          refine ⟨cred, sub, scopes, rfl, hjws, hv, fun heq => ?_⟩
          rw [hv] at hne
          dsimp only at hne
          rw [heq] at hne
          exact absurd rfl hne
      · exact absurd rfl hne
  unverified := by
    intro cfg path h v r cred hsel hjws hv
    rw [decide_of_selected hsel, if_pos hjws, userPath, hv]
    exact ⟨rfl, rfl⟩
  unresolved := by
    intro cfg path h v r cred sub scopes hsel hjws hv hr
    rw [decide_of_selected hsel, if_pos hjws, userPath, hv]
    dsimp only
    rw [hr]
    exact ⟨rfl, rfl⟩
  removes := by
    intro cfg path h v r hallow
    -- every way to allow removes the same headers
    match hsel : selected cfg h with
    | none =>
      rw [decide_of_not_selected hsel] at hallow ⊢
      split at hallow
      · next hout =>
        rw [if_pos hout]
        rfl
      · cases hallow
    | some cred =>
      rw [decide_of_selected hsel] at hallow ⊢
      split at hallow
      · next hjws =>
        rw [if_pos hjws]
        obtain ⟨-, www, body, heq⟩ | ⟨sub, scopes, hv, ⟨-, body, heq⟩ | ⟨key, hr, heq⟩⟩ :=
          userPath_cases cfg path cred.token [cred.header] v r
        · rw [heq] at hallow
          cases hallow
        · rw [heq] at hallow
          cases hallow
        · rw [heq]
          rfl
      · next hjws =>
        rw [if_neg hjws]
        rfl
  anonymous := by
    intro cfg path h v r hsel hauth hout
    rw [decide_of_not_selected hsel, hauth, hout]
    cases isProtected path with
    | true => exact ⟨fun _ => rfl, fun _ => ⟨rfl, rfl⟩⟩
    | false =>
      constructor
      · intro hdenied
        cases hdenied.1
      · intro hp
        cases hp
  uniform := by
    intro cfg path path' h h' v r cred hsel hsel'
    rw [decide_of_selected hsel, decide_of_selected hsel']
    split
    · exact userPath_verdict path path' cred.token [cred.header]
    · rfl

end AlitellmAuth.Authz
