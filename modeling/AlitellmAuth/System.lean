import AlitellmAuth.FrontKey.Internal

/-! # The service as a whole

    Every modelled endpoint as one handler, and the configurations of any
    number of replicas that serve any number of requests on one store.
-/

namespace AlitellmAuth

open Interleave

/-- The requests the service receives. -/
inductive Request where
  | register (body : Option Json)
  | authorize (q : AuthorizeQuery)
  | as_callback (state : String)
  | broker_callback (state : String)
  | device_authorization (client_id : String)
  | device_confirm (origin referer : Option String) (typed : String)
  | token (form : TokenForm)
  | front_key (presented : Option String) (body : Option Json)
  | user_key (email : String)
  | opencode_config (sub : String)

/-- The handler of each request. -/
def handler (E : Env) : Request → P Response
  | .register body => register body
  | .authorize q => authorize E q
  | .as_callback state => as_callback E state
  | .broker_callback state => broker_callback E state
  | .device_authorization client_id => device_authorization E client_id
  | .device_confirm origin referer typed => device_confirm E origin referer typed
  | .token form => token E form
  | .front_key presented body => front_key E presented body
  | .user_key email => user_key email
  | .opencode_config sub => opencode_config sub

/-- A configuration of the service. -/
abbrev AsConfig := Config Kind Kind.Rec Ext.Reply Request Response

/-- A scheduling decision of the service. -/
abbrev AsLabel := Label Ext Ext.Reply Request

/-- The configurations the service can reach. -/
abbrev Reached (E : Env) (c : AsConfig) : Prop := Reachable (handler E) c

/-- Has thread `i` answered the token request `form` with a pair? -/
def got_pair (c : AsConfig) (i : Nat) (form : TokenForm) : Bool :=
  match c.threads[i]? with
  | some ⟨.token form', .ret (.tokens ..)⟩ => form' == form
  | _ => false

theorem got_pair_spec {c : AsConfig} {i : Nat} {form : TokenForm}
    (h : got_pair c i form = true) :
    c.request i = some (.token form) ∧
      ∃ access refresh scope n, c.response i = some (.tokens access refresh scope n) := by
  unfold got_pair at h
  split at h
  · next form' access refresh scope n hth =>
    obtain rfl := beq_iff_eq.mp h
    exact ⟨by simp [Config.request, hth], access, refresh, scope, n, by simp [Config.response, hth]⟩
  · cases h

/-! ## A deployment to try things on -/

/-- A deployment with one service. The hash is the one of the verifier in
    `sampleVerifier`, whatever it is applied to. -/
def sample : Env where
  app_base_url := "https://auth.example"
  as_issuer_url := ""
  as_audience := "litellm"
  as_access_ttl_seconds := 3600
  as_refresh_ttl_seconds := 2592000
  services := [("drive", { store := "gdrive", broker := "https://broker.example" })]
  oauth_scopes := "openid email profile groups"
  internal_token := "internal"
  sha256 := fun _ => [19, 211, 30, 150, 26, 26, 216, 236, 47, 22, 177, 12, 76, 152, 46, 8, 118,
    168, 120, 173, 109, 241, 68, 86, 110, 225, 137, 74, 203, 112, 249, 195]
  str := fun _ => ""
  signs := fun
    | .str s => (toChars s).map fun cs => .str (String.ofList cs)
    | _ => some .null

/-- Are the claims the expected ones, whose client is a text? -/
def Claims.agrees (expected signed : Claims) : Bool :=
  signed.iss == expected.iss && signed.aud == expected.aud && signed.sub == expected.sub &&
    signed.iat == expected.iat && signed.exp == expected.exp && signed.jti == expected.jti &&
    signed.scope == expected.scope && signed.token_use == expected.token_use &&
    match expected.client_id, signed.client_id with
    | .str client, .str client' => client' == client
    | _, _ => false

theorem Claims.eq_of_agrees {expected signed : Claims} (h : expected.agrees signed = true) :
    signed = expected := by
  obtain ⟨iss, aud, sub, iat, exp, jti, scope, client_id, token_use⟩ := expected
  obtain ⟨iss', aud', sub', iat', exp', jti', scope', client_id', token_use'⟩ := signed
  unfold Claims.agrees at h
  cases client_id with
  | str client =>
    cases client_id' with
    | str client' =>
      simp only [Bool.and_eq_true, beq_iff_eq] at h
      obtain ⟨⟨⟨⟨⟨⟨⟨⟨rfl, rfl⟩, rfl⟩, rfl⟩, rfl⟩, rfl⟩, rfl⟩, rfl⟩, rfl⟩ := h
      rfl
    | null | bool | num | arr | obj => simp at h
  | null | bool | num | arr | obj => simp at h

def sampleVerifier : String := "dBjftJeZ4CVP-mB92K27uhbUJU1p1r_wW1gFWFOEjXk"

def sampleChallenge : String := "E9Melhoa2OwvFrEMTJguCHaoeK1t8URWbuGJSstw-cM"

/-- A random identifier of `n` characters. -/
def ident (c : Char) (n : Nat) : String := String.ofList (List.replicate n c)

/-! A user registers a client, logs in, redeems the code and refreshes. -/

def login_query : AuthorizeQuery where
  client_id := some (ident 'c' 22)
  redirect_uri := some "http://localhost:8123/cb"
  state := some "s"
  scope := some "litellm drive"
  code_challenge := some sampleChallenge
  response_type := some "code"
  code_challenge_method := some "S256"

def login_form : TokenForm where
  grant_type := some "authorization_code"
  client_id := ident 'c' 22
  code := ident 'k' 43
  redirect_uri := "http://localhost:9000/cb"
  code_verifier := sampleVerifier
  refresh_token := ""
  device_code := ""

/-- Dex's answer to the login. -/
def login_token : DexToken where
  userinfo := some { email := some " Ann@Example.com", name := none, groups := .null }
  refresh_token := some "rt"

/-- Dex and LiteLLM answer, and the user has granted the service or not. -/
def all_well (granted : Bool) : Choice Ext Ext.Reply := .reply fun
  | .authorize_access_token _ => some (some login_token)
  | .dex_refresh _ => some (.success (some "rt2"))
  | .ensure_team_and_user .. => some (.ok ())
  | .get_litellm_user _ => some (.ok true)
  | .projection .. => some (.json (.obj [("granted", .bool granted)]))
  | _ => none

def login_schedule : List AsLabel :=
  [.spawn (.register (some (.obj [("redirect_uris", .arr [.str "http://localhost/cb"])]))),
    .perform 0 (.draw (ident 'c' 22)), .perform 0 .auto,
    .spawn (.authorize login_query), .perform 1 .auto, .perform 1 .auto,
    .perform 1 (.draw (ident 'p' 32)), .perform 1 .auto,
    .spawn (.as_callback (ident 'p' 32)), .perform 2 .auto, .perform 2 (all_well true),
    .perform 2 .auto, .perform 2 (all_well true), .perform 2 (all_well true), .perform 2 (all_well true),
    .perform 2 (.draw (ident 'k' 43)), .perform 2 .auto,
    .spawn (.token login_form), .perform 3 .auto, .perform 3 .auto,
    .perform 3 (.draw (ident 'j' 22)), .perform 3 (.draw (ident 'r' 43)), .perform 3 .auto]

def refresh_form : TokenForm where
  grant_type := some "refresh_token"
  client_id := ident 'c' 22
  code := ""
  redirect_uri := ""
  code_verifier := ""
  refresh_token := ident 'r' 43
  device_code := ""

/-- After the login the grant is revoked, and the client refreshes. -/
def refresh_schedule : List AsLabel :=
  login_schedule ++
  [.spawn (.token refresh_form), .perform 4 .auto, .perform 4 .auto, .perform 4 (all_well false),
    .perform 4 .auto, .perform 4 (all_well false), .perform 4 .auto, .perform 4 (all_well false),
    .perform 4 .auto, .perform 4 (.draw (ident 'J' 22)), .perform 4 (.draw (ident 'R' 43)),
    .perform 4 .auto]

/-- A schedule whose steps pass a check is a run under every condition that
    the check ensures. -/
theorem exists_reach_under (E : Env) {ok : AsConfig → AsConfig → Prop}
    (check : AsConfig → AsConfig → Bool) (hcheck : ∀ c c', check c c' = true → ok c c')
    (test : AsConfig → Bool) (ls : List AsLabel)
    (hrun : (Config.init.run (handler E) check ls).any test = true) :
    ∃ c, Reach (handler E) ok c ∧ test c = true :=
  exists_reach hcheck hrun

/-- Any schedule is a run of the service. -/
theorem exists_reached (E : Env) (test : AsConfig → Bool) (ls : List AsLabel)
    (hrun : (Config.init.run (handler E) (fun _ _ => true) ls).any test = true) :
    ∃ c, Reached E c ∧ test c = true :=
  exists_reach (fun _ _ _ => trivial) hrun

/-- A run in which a user logs in, redeems the code and refreshes. -/
theorem login_run : ∃ c, Reached sample c ∧ got_pair c 3 login_form = true ∧
    got_pair c 4 refresh_form = true := by
  obtain ⟨c, hreach, htest⟩ := exists_reached sample
    (fun c => got_pair c 3 login_form && got_pair c 4 refresh_form) refresh_schedule
    (by decide +kernel)
  exact ⟨c, hreach, Bool.and_eq_true_iff.mp htest⟩

end AlitellmAuth
