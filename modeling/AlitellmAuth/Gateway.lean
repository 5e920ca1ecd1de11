import AlitellmAuth.Authz.Keys
import AlitellmAuth.FrontKey.Handout
import AlitellmAuth.FrontKey.Mint
import AlitellmAuth.OauthAs.Logins

/-! # From a login to a model request

    The proxy, its key cache, and the service behind it, all running at once: a
    request at the gateway is checked (`server.go`), a token of ours is
    verified, the key of its subject is looked up or fetched, and the service
    resolves it from its store or has LiteLLM generate it.

    * `check_response`: what the proxy tells Envoy.
    * `asks`: the subject whose key a check needs.
    * `State`, `step`: the cache, the service, the requests between the two,
      and the checks under way.
    * `Effect`: what a step does, with everything it depends on.
    * `Confined`: whose key a check can end with.
    * `gateway_confined`: every reachable state is confined.
-/

namespace AlitellmAuth.Gateway

open Interleave Text Authz

/-! ## The server -/

/-- `strings.Cut(path, "?")`. -/
def cutQuery (path : String) : String := String.ofList (path.toList.takeWhile (· != '?'))

/-- `CheckResponse`; the codes are those of gRPC and of HTTP. -/
inductive CheckResponse where
  | ok (headers : List (String × String)) (headersToRemove : List String)
  | denied (code httpStatus : Nat) (headers : List (String × String)) (body : String)

/-- `Server.Check`, once the decision is there. -/
def check_response (d : Decision) : CheckResponse :=
  if d.allow then .ok d.set d.remove
  else
    .denied (if d.status = 503 then 14 else 16)
      (if d.status = 503 then 503 else if d.status ≠ 401 then d.status else 401)
      (("content-type", "application/json") ::
        if d.wwwAuthenticate ≠ "" then [("www-authenticate", d.wwwAuthenticate)] else [])
      d.body

/-! ## The system -/

/-- The subject whose key `Decide` asks for. -/
def asks (cfg : Authz.Config) (h : Headers) (v : Verifier) : Option String := do
  let cred ← selected cfg h
  if looksLikeJWS cred.token then (v cred.token).map (·.1) else none

variable {K : Type}

/-- A request at the gateway, with golang-jwt and the key sets as they are when
    it is checked. -/
structure Arrival (K : Type) where
  path : String
  headers : Headers
  jwt : GolangJwt K
  frontKeys : K
  idpKeys : K

/-- A check, with the call of `KeyFor` that it waits for. -/
structure Check (K : Type) where
  arrival : Arrival K
  call : Option Nat

/-- The key cache, the service, and the checks. A post is a request of the
    cache to the service: the process that has sent it, and the thread that
    serves it. -/
structure State (K : Type) where
  resolver : Authz.Keys.State
  api : AsConfig
  posts : List (Nat × Nat)
  checks : List (Check K)

def State.init (now : Int) : State K where
  resolver := .init now
  api := .init
  posts := []
  checks := []

/-- What the cache makes of a response of `POST /api/internal/front-key`. -/
def answer_of : Response → Authz.Keys.ResolverAnswer
  | .front_key key => .body (some key)
  | .front_key_error code _ => .status code
  | .internal_error => .status 500
  | _ => .error

/-- The request that `fetch` sends. -/
def post_of (cfg : Authz.Config) (sub : String) : Request :=
  .front_key (some cfg.internalToken) (some (.obj [("sub", .str sub)]))

inductive Label (K : Type) where
  | arrive (a : Arrival K)
  /-- A step of the cache that nobody else takes part in. -/
  | proceed (l : Authz.Keys.Label)
  | post (i : Nat)
  | deliver (i t : Nat)
  /-- The response is lost, or comes from somewhere in between. -/
  | lose (i : Nat) (answer : Authz.Keys.ResolverAnswer)
  /-- A step of the service, for whomever. -/
  | serve (l : AsLabel)

/-- Is the step one of the cache alone? -/
def internal : Authz.Keys.Label → Bool
  | .look _ => true
  | .store _ => true
  | .clear _ => true
  | .tick _ => true
  | .call _ => false
  | .answer .. => false

section
variable (E : Env) (getenv : String → String) (hcomplete : (LoadConfig getenv).complete = true)
  (ttl : Int)

/-- The verifier of an arrival. -/
def verifier (a : Arrival K) : Verifier :=
  (main_verifier getenv hcomplete a.frontKeys a.idpKeys).verify a.jwt

/-- The subject whose key an arrival needs. -/
def wants (a : Arrival K) : Option String :=
  asks (LoadConfig getenv) a.headers (verifier getenv hcomplete a)

def arrive (s : State K) (a : Arrival K) : State K :=
  match wants getenv hcomplete a with
  | none => { s with checks := s.checks ++ [⟨a, none⟩] }
  | some sub =>
      { s with
        resolver := s.resolver.start ⟨sub, .keyFor, .looking⟩
        checks := s.checks ++ [⟨a, some s.resolver.procs.length⟩] }

/-- One step; `none` if nobody is there to take it. -/
def step (s : State K) : Label K → Option (State K)
  | .arrive a => some (arrive getenv hcomplete s a)
  | .proceed l =>
      if internal l then
        (Authz.Keys.step ttl s.resolver l).map fun resolver => { s with resolver }
      else none
  | .post i =>
      -- `fetch` sends its request outside the lock
      match s.resolver.procs[i]? with
      | some ⟨sub, _, .fetching⟩ =>
          (s.api.step (handler E) (.spawn (post_of (LoadConfig getenv) sub))).map fun api =>
            { s with api, posts := (i, s.api.threads.length) :: s.posts }
      | _ => none
  | .deliver i t =>
      if (i, t) ∈ s.posts then
        match s.api.response t with
        | some res =>
            (Authz.Keys.step ttl s.resolver (.answer i (answer_of res))).map fun resolver =>
              { s with resolver }
        | none => none
      else none
  | .lose i answer =>
      -- also a response of something in between, as long as it has no key
      if answer.key.isNone then
        (Authz.Keys.step ttl s.resolver (.answer i answer)).map fun resolver => { s with resolver }
      else none
  | .serve l => (s.api.step (handler E) l).map fun api => { s with api }

/-- The decision of a check, once its call has returned. -/
def decision (s : State K) (chk : Check K) : Option Decision :=
  let decide := Decide (LoadConfig getenv) (cutQuery chk.arrival.path) chk.arrival.headers
    (verifier getenv hcomplete chk.arrival)
  match chk.call with
  | none => some (decide fun _ => none)
  | some i =>
      match s.resolver.procs[i]? with
      | some ⟨sub, _, .returned result⟩ =>
          some (decide fun asked => if asked = sub then result else none)
      | _ => none

/-- What Envoy is told in the end. -/
def response (s : State K) (chk : Check K) : Option CheckResponse :=
  (decision getenv hcomplete s chk).map check_response

/-! ## What the gateway relies on -/

/-- What passes under the keys of the front door is a token that the front door
    has handed out. -/
def Unforged (c : AsConfig) (a : Arrival K) : Prop :=
  ∀ raw claims, a.jwt.parse a.frontKeys (trimRight '/' (LoadConfig getenv).issuer)
      (LoadConfig getenv).audience raw = some claims →
    ∃ signed : Claims, Vouched c signed ∧ claims = signed.fields

/-- The states that can be reached while no token is forged. -/
inductive Reached : State K → Prop where
  | init (now : Int) : Reached (.init now)
  | step {s s' : State K} {l : Label K} (h : Reached s)
      (hstep : step E getenv hcomplete ttl s l = some s')
      (hgenuine : ∀ a, l = .arrive a → Unforged getenv s.api a) : Reached s'

/-- Who stands behind a subject: Dex has logged the user in, and the token is one
    of ours; or the token is one of the identity provider. -/
inductive Behind (c : AsConfig) (a : Arrival K) (token sub : String) : Prop where
  | front (claims : Claims) (hvouched : Vouched c claims) (hlogin : Admitted c claims.sub)
      (hsub : sub = goToLower claims.sub)
  | idp (claims : MapClaims)
      (hparse : a.jwt.parse a.idpKeys (trimRight '/' (LoadConfig getenv).idpIssuer)
        (LoadConfig getenv).idpAudience token = some claims)
      (hsub : subject a.jwt.toAccessors (LoadConfig getenv).idpSubjectClaim claims = some sub)

/-- The token of the arrival names this subject, and somebody stands behind it. -/
def Speaks (c : AsConfig) (a : Arrival K) (sub : String) : Prop :=
  ∃ cred scopes, selected (LoadConfig getenv) a.headers = some cred ∧
    looksLikeJWS cred.token = true ∧
    verifier getenv hcomplete a cred.token = some (sub, scopes) ∧ Behind getenv c a cred.token sub

/-- The check ends with this key in the outbound header. -/
def Injects (s : State K) (chk : Check K) (key : String) : Prop :=
  ∃ headersToRemove, response getenv hcomplete s chk =
    some (.ok [((LoadConfig getenv).outboundHeader, "Bearer " ++ key)] headersToRemove)

/-- Whose key a check can end with. -/
structure Confined (s : State K) : Prop where
  /-- Nothing is set but the outbound header, to the caller's own key, or to one
      that LiteLLM has generated for the subject of the caller's token. -/
  injects : ∀ chk ∈ s.checks, ∀ headers headersToRemove,
    response getenv hcomplete s chk = some (.ok headers headersToRemove) → headers ≠ [] →
    ∃ key, headers = [((LoadConfig getenv).outboundHeader, "Bearer " ++ key)] ∧
      ((∃ cred, selected (LoadConfig getenv) chk.arrival.headers = some cred ∧
          looksLikeJWS cred.token = false ∧ key = cred.token) ∨
        ∃ sub, Speaks getenv hcomplete s.api chk.arrival sub ∧
          MintedFor s.api (lower (strip sub)) key)
  /-- The service is asked for keys of such subjects only. -/
  posts : ∀ i t, (i, t) ∈ s.posts → ∃ chk ∈ s.checks, ∃ sub,
    s.api.request t = some (post_of (LoadConfig getenv) sub) ∧
    Speaks getenv hcomplete s.api chk.arrival sub
  /-- If LiteLLM never generates one key for two users, checks whose tokens end
      with one key are of one user. -/
  apart : (∀ u u' key, MintedFor s.api u key → MintedFor s.api u' key → u = u') →
    ∀ chk ∈ s.checks, ∀ chk' ∈ s.checks, ∀ sub sub' key,
      Speaks getenv hcomplete s.api chk.arrival sub → Injects getenv hcomplete s chk key →
      Speaks getenv hcomplete s.api chk'.arrival sub' → Injects getenv hcomplete s chk' key →
      lower (strip sub) = lower (strip sub')

end

/-! ## What a step keeps -/

/-- The service goes on: threads keep their requests and responses, and the log
    only grows. -/
structure Later (c c' : AsConfig) : Prop where
  request : ∀ t r, c.request t = some r → c'.request t = some r
  response : ∀ t res, c.response t = some res → c'.response t = some res
  log : c.log ⊆ c'.log

section
variable {E : Env} {c c' : AsConfig}

theorem later_step {l : AsLabel} (h : c.step (handler E) l = some c') : Later c c' := by
  obtain ⟨r, rfl⟩ | ⟨d, rfl⟩ | ⟨i, ch, r, op, k, a, w, hi, -, rfl⟩ := step_cases h
  · refine ⟨?_, ?_, List.Subset.refl _⟩
    · intro t r' hr
      obtain ⟨th, hth, hreq⟩ := Option.map_eq_some_iff.mp hr
      unfold Config.request
      rw [List.getElem?_append_left (List.getElem?_eq_some_iff.mp hth).1, hth]
      exact congrArg some hreq
    · intro t res hres
      unfold Config.response at hres ⊢
      split at hres
      · next hth =>
        rw [List.getElem?_append_left (List.getElem?_eq_some_iff.mp hth).1, hth]
        exact hres
      · cases hres
  · exact ⟨fun _ _ h => h, fun _ _ h => h, List.Subset.refl _⟩
  · obtain ⟨hlt, -⟩ := List.getElem?_eq_some_iff.mp hi
    refine ⟨?_, ?_, List.subset_cons_self _ _⟩
    · intro t r' hr
      by_cases ht : i = t
      · subst ht
        have hsame : r = r' := by simpa [Config.request, hi] using hr
        simp [Config.request, hlt, hsame]
      · simpa [Config.request, ht] using hr
    · intro t res hres
      by_cases ht : i = t
      · -- a thread that has responded performs nothing
        subst ht
        rw [Config.response, hi] at hres
        cases hres
      · simpa [Config.response, ht] using hres

theorem minted_later {u key : String} (h : MintedFor c u key) (hl : Later c c') :
    MintedFor c' u key := by
  obtain ⟨j, minted, hmem, hkey⟩ := h
  exact ⟨j, minted, hl.log hmem, hkey⟩

theorem vouched_later {claims : Claims} (h : Vouched c claims) (hl : Later c c') :
    Vouched c' claims := by
  cases h with
  | access h => exact .access (hl.response _ _ h)
  | hint h => exact .hint (hl.response _ _ h)

end

/-! ### The cache -/

section
variable {ttl : Int} {s s' : Authz.Keys.State} {l : Authz.Keys.Label}

/-- Only an answer teaches the cache a key, and the process knows for whom. -/
theorem step_answered (h : Authz.Keys.step ttl s l = some s') :
    s'.answered = s.answered ∨ ∃ i answer sub kind key, l = .answer i answer ∧
      s.procs[i]? = some ⟨sub, kind, .fetching⟩ ∧ answer.key = some key ∧
      s'.answered = (sub, key) :: s.answered := by
  cases l with
  | call | tick =>
    cases h
    exact .inl rfl
  | look i =>
    simp only [Authz.Keys.step] at h
    split at h
    · cases h
      exact .inl (Authz.Keys.look_keeps s i _).2
    · cases h
  | answer i answer =>
    simp only [Authz.Keys.step] at h
    split at h
    · next sub kind hi =>
      -- only an answer with a key is recorded
      split at h
      · next key hkey =>
        cases h
        exact .inr ⟨i, answer, sub, kind, key, rfl, hi, hkey, rfl⟩
      · cases h
        exact .inl rfl
    · cases h
  | store i | clear i =>
    simp only [Authz.Keys.step] at h
    split at h
    · cases h
      exact .inl rfl
    · cases h

/-- Every process goes on for its own subject, and once it has returned it stays
    as it is. -/
def Kept (s s' : Authz.Keys.State) : Prop :=
  ∀ (j : Nat) (p : Authz.Keys.Proc), s.procs[j]? = some p → ∃ q, s'.procs[j]? = some q ∧
    q.sub = p.sub ∧ q.kind = p.kind ∧ ∀ result, p.phase = .returned result → q = p

theorem kept_move {i : Nat} {p p' : Authz.Keys.Proc} (hi : s.procs[i]? = some p)
    (hsub : p'.sub = p.sub) (hkind : p'.kind = p.kind)
    (hopen : ∀ result, p.phase ≠ .returned result) : Kept s (s.move i p') := by
  intro j q hq
  by_cases hj : j = i
  · subst hj
    obtain rfl := Option.some.inj (hi.symm.trans hq)
    exact ⟨p', (Authz.Keys.procs_move hi).mpr (.inl ⟨rfl, rfl⟩), hsub, hkind,
      fun result hphase => absurd hphase (hopen result)⟩
  · exact ⟨q, (Authz.Keys.procs_move hi).mpr (.inr ⟨hj, hq⟩), rfl, rfl, fun _ _ => rfl⟩

theorem Kept.start (h : Kept s s') (p : Authz.Keys.Proc) : Kept s (s'.start p) := by
  intro j q hq
  obtain ⟨q', hq', hrest⟩ := h j q hq
  exact ⟨q', Authz.Keys.procs_start.mpr (.inl hq'), hrest⟩

theorem kept_refl (s : Authz.Keys.State) : Kept s s :=
  fun _ q hq => ⟨q, hq, rfl, rfl, fun _ _ => rfl⟩

theorem step_kept (h : Authz.Keys.step ttl s l = some s') : Kept s s' := by
  cases Authz.Keys.step_effect h with
  | call sub => exact (kept_refl s).start _
  | tick d => exact kept_refl s
  | served hi he => exact kept_move hi rfl rfl nofun
  | @spawned i sub e hi he hidle =>
    have hmoved : Kept s (s.move i ⟨sub, .keyFor, .returned (some e.key)⟩) :=
      kept_move hi rfl rfl nofun
    have hstarted := hmoved.start ⟨sub, .refresh, .fetching⟩
    exact hstarted
  | cold hi hnone => exact kept_move hi rfl rfl nofun
  | fetched key hi => exact kept_move hi rfl rfl nofun
  | failed hi => exact kept_move hi rfl rfl nofun
  | stored hi => exact kept_move hi rfl rfl nofun
  | cleared hi => exact kept_move hi rfl rfl nofun

/-- Only a call brings a new subject. -/
def Names (s s' : Authz.Keys.State) : Prop := ∀ q ∈ s'.procs, ∃ p ∈ s.procs, p.sub = q.sub

theorem names_move {i : Nat} {p p' : Authz.Keys.Proc} (hi : s.procs[i]? = some p)
    (hsub : p'.sub = p.sub) : Names s (s.move i p') := by
  intro q hq
  rcases List.mem_or_eq_of_mem_set hq with hq | rfl
  · exact ⟨q, hq, rfl⟩
  · exact ⟨p, List.mem_of_getElem? hi, hsub.symm⟩

theorem step_names (h : Authz.Keys.step ttl s l = some s') (hcall : ∀ sub, l ≠ .call sub) :
    Names s s' := by
  cases l with
  | call sub => exact absurd rfl (hcall sub)
  | tick d =>
    cases h
    exact fun q hq => ⟨q, hq, rfl⟩
  | look i =>
    simp only [Authz.Keys.step] at h
    split at h
    · next sub hi =>
      cases h
      unfold Authz.Keys.look
      split
      · next e he =>
        have hmoved : Names s (s.move i ⟨sub, .keyFor, .returned (some e.key)⟩) :=
          names_move hi rfl
        dsimp only
        split
        · exact hmoved
        · split
          · exact hmoved
          · -- the refresh is one for the subject of the call
            intro q hq
            rcases List.mem_append.mp hq with hq | hq
            · exact hmoved q hq
            · obtain rfl := List.mem_singleton.mp hq
              exact ⟨_, List.mem_of_getElem? hi, rfl⟩
      · exact names_move hi rfl
    · cases h
  | answer i answer =>
    simp only [Authz.Keys.step] at h
    split at h
    · next hi =>
      split at h
      · cases h
        exact names_move hi rfl
      · cases h
        exact names_move hi rfl
    · cases h
  | store i | clear i =>
    simp only [Authz.Keys.step] at h
    split at h
    · next hi =>
      cases h
      exact names_move hi rfl
    · cases h

end

/-! ## Verified tokens -/

section
variable {E : Env} {getenv : String → String} {hcomplete : (LoadConfig getenv).complete = true}
  {c c' : AsConfig} {a : Arrival K} {token sub : String} {scopes : List String}

theorem wants_iff : wants getenv hcomplete a = some sub ↔ ∃ cred scopes,
    selected (LoadConfig getenv) a.headers = some cred ∧ looksLikeJWS cred.token = true ∧
    verifier getenv hcomplete a cred.token = some (sub, scopes) := by
  unfold wants asks
  constructor
  · intro h
    obtain ⟨cred, hsel, h⟩ := Option.bind_eq_some_iff.mp h
    split at h
    · next hjws =>
      obtain ⟨⟨sub', scopes⟩, hv, rfl⟩ := Option.map_eq_some_iff.mp h
      exact ⟨cred, scopes, hsel, hjws, hv⟩
    · cases h
  · rintro ⟨cred, scopes, hsel, hjws, hv⟩
    rw [hsel, Option.bind_eq_bind, Option.bind_some, if_pos hjws, hv]
    rfl

theorem subject_fields {lib : Accessors} (claims : Claims)
    (h : subject lib "" claims.fields = some sub) : sub = goToLower claims.sub := by
  have hget : lib.getSubject claims.fields = some claims.sub := lib.getSubject_text _ _ rfl
  rw [subject, if_pos (.inl rfl), hget] at h
  dsimp only at h
  split at h
  · cases h
  · exact (Option.some.inj h).symm

/-- Behind a token that is verified there is a login, or the identity provider. -/
theorem behind_of_verified (hreach : Reachable (handler E) c) (hgenuine : Unforged getenv c a)
    (h : verifier getenv hcomplete a token = some (sub, scopes)) : Behind getenv c a token sub := by
  unfold verifier MultiVerifier.verify at h
  obtain ⟨iss, -, h⟩ := Option.bind_eq_some_iff.mp h
  obtain ⟨v, hv, h⟩ := Option.bind_eq_some_iff.mp h
  unfold IssuerVerifier.verify at h
  obtain ⟨claims, hparse, h⟩ := Option.bind_eq_some_iff.mp h
  obtain ⟨sub', hsub, h⟩ := Option.bind_eq_some_iff.mp h
  obtain rfl : sub' = sub := congrArg Prod.fst (Option.some.inj h)
  have hbuilt : main_verifiers (LoadConfig getenv) a.frontKeys a.idpKeys (trimRight '/' iss) = some v :=
    hv
  unfold main_verifiers at hbuilt
  split at hbuilt
  · obtain rfl := Option.some.inj hbuilt
    exact .idp claims hparse hsub
  · split at hbuilt
    · obtain rfl := Option.some.inj hbuilt
      obtain ⟨signed, hvouched, rfl⟩ := hgenuine token claims hparse
      exact .front signed hvouched (vouched_admitted hreach hvouched) (subject_fields signed hsub)
    · cases hbuilt

theorem Unforged.later (h : Unforged getenv c a) (hl : Later c c') : Unforged getenv c' a := by
  intro raw claims hparse
  obtain ⟨signed, hvouched, heq⟩ := h raw claims hparse
  exact ⟨signed, vouched_later hvouched hl, heq⟩

theorem speaks_of_wants (hreach : Reachable (handler E) c) (hgenuine : Unforged getenv c a)
    (h : wants getenv hcomplete a = some sub) : Speaks getenv hcomplete c a sub := by
  obtain ⟨cred, scopes, hsel, hjws, hv⟩ := wants_iff.mp h
  exact ⟨cred, scopes, hsel, hjws, hv, behind_of_verified hreach hgenuine hv⟩

theorem Speaks.wants (h : Speaks getenv hcomplete c a sub) : wants getenv hcomplete a = some sub := by
  obtain ⟨cred, scopes, hsel, hjws, hv, -⟩ := h
  exact wants_iff.mpr ⟨cred, scopes, hsel, hjws, hv⟩

/-- A key the service returns to the cache was generated for the subject that the
    cache has asked for. -/
theorem answer_minted {cfg : Authz.Config} {t : Nat} {res : Response} {key : String}
    (hreach : Reachable (handler E) c) (hr : c.request t = some (post_of cfg sub))
    (hres : c.response t = some res) (hkey : (answer_of res).key = some key) :
    MintedFor c (lower (strip sub)) key := by
  cases res with
  | front_key key' =>
    obtain rfl : key' = key := by
      change (if key' = "" then none else some key') = some key at hkey
      split at hkey
      · cases hkey
      · exact Option.some.inj hkey
    obtain ⟨u, hu, hminted⟩ := handed_minted hreach hr rfl hres
    change (if authorized _ E.internal_token = some true then
      (some (lower (strip sub))).filter _ else none) = some u at hu
    split at hu
    · rw [← (Option.filter_eq_some_iff.mp hu).1 |> Option.some.inj] at hminted
      exact hminted
    · cases hu
  | _ => cases hkey

end

/-! ## What a step does -/

section
variable (E : Env) (getenv : String → String) (hcomplete : (LoadConfig getenv).complete = true)
  (ttl : Int)

/-- A step, with everything it depends on. A key that the cache learns is in the
    response to a post of the process that learns it. -/
inductive Effect (s : State K) : Label K → State K → Prop where
  | arrive (a : Arrival K) : Effect s (.arrive a) (arrive getenv hcomplete s a)
  | cache {l : Label K} {move : Authz.Keys.Label} {resolver : Authz.Keys.State}
      (hstep : Authz.Keys.step ttl s.resolver move = some resolver)
      (hcall : ∀ sub, move ≠ .call sub)
      (hlearn : ∀ i answer key, move = .answer i answer → answer.key = some key →
        ∃ t res, (i, t) ∈ s.posts ∧ s.api.response t = some res ∧ answer = answer_of res) :
      Effect s l { s with resolver }
  | post {i : Nat} {p : Authz.Keys.Proc} {api : AsConfig} (hi : s.resolver.procs[i]? = some p)
      (hstep : s.api.step (handler E) (.spawn (post_of (LoadConfig getenv) p.sub)) = some api) :
      Effect s (.post i) { s with api, posts := (i, s.api.threads.length) :: s.posts }
  | serve {l : AsLabel} {api : AsConfig} (hstep : s.api.step (handler E) l = some api) :
      Effect s (.serve l) { s with api }

variable {E getenv hcomplete ttl}

theorem step_effect {s s' : State K} {l : Label K}
    (h : step E getenv hcomplete ttl s l = some s') : Effect E getenv hcomplete ttl s l s' := by
  cases l with
  | arrive a =>
    cases h
    exact .arrive a
  | proceed move =>
    simp only [step] at h
    split at h
    · next hinternal =>
      obtain ⟨resolver, hr, rfl⟩ := Option.map_eq_some_iff.mp h
      refine .cache hr ?_ ?_
      · rintro sub rfl
        cases hinternal
      · rintro i answer key rfl
        cases hinternal
    · cases h
  | post i =>
    simp only [step] at h
    split at h
    · next sub kind hi =>
      obtain ⟨api, hr, rfl⟩ := Option.map_eq_some_iff.mp h
      exact .post hi hr
    · cases h
  | deliver i t =>
    simp only [step] at h
    split at h
    · next hpost =>
      split at h
      · next res hres =>
        obtain ⟨resolver, hr, rfl⟩ := Option.map_eq_some_iff.mp h
        refine .cache hr nofun ?_
        intro j answer key heq _
        obtain ⟨rfl, rfl⟩ := Authz.Keys.Label.answer.inj heq
        exact ⟨t, res, hpost, hres, rfl⟩
      · cases h
    · cases h
  | lose i answer =>
    simp only [step] at h
    split at h
    · next hnone =>
      obtain ⟨resolver, hr, rfl⟩ := Option.map_eq_some_iff.mp h
      refine .cache hr nofun ?_
      -- what is lost carries no key
      intro j answer' key heq hkey
      obtain ⟨rfl, rfl⟩ := Authz.Keys.Label.answer.inj heq
      rw [hkey] at hnone
      cases hnone
    · cases h
  | serve l =>
    obtain ⟨api, hr, rfl⟩ := Option.map_eq_some_iff.mp h
    exact .serve hr

/-- Only an arrival brings a check. -/
theorem step_checks {s s' : State K} {l : Label K} (hstep : step E getenv hcomplete ttl s l = some s')
    (harrive : ∀ a, l ≠ .arrive a) : s'.checks = s.checks := by
  cases step_effect hstep with
  | arrive a => exact absurd rfl (harrive a)
  | cache | post | serve => rfl

/-- Every call goes on for its own subject, and keeps what it has returned. -/
theorem step_calls {s s' : State K} {l : Label K} (hstep : step E getenv hcomplete ttl s l = some s') :
    Kept s.resolver s'.resolver := by
  cases step_effect hstep with
  | arrive a =>
    unfold arrive
    split
    · exact kept_refl _
    · exact (kept_refl _).start _
  | cache hmove => exact step_kept hmove
  | post | serve => exact kept_refl _

end

/-! ## The invariant -/

section
variable (E : Env) (getenv : String → String) (hcomplete : (LoadConfig getenv).complete = true)

/-- A check waits for nothing, or for a call for the subject it needs. -/
def Waits (s : State K) (chk : Check K) : Prop :=
  (chk.call = none ∧ wants getenv hcomplete chk.arrival = none) ∨
  ∃ i p, chk.call = some i ∧ s.resolver.procs[i]? = some p ∧ p.kind = .keyFor ∧
    wants getenv hcomplete chk.arrival = some p.sub

structure Inv (s : State K) : Prop where
  cache : Authz.Keys.CacheInv s.resolver
  api : Reachable (handler E) s.api
  answered : ∀ sub key, (sub, key) ∈ s.resolver.answered → MintedFor s.api (lower (strip sub)) key
  posts : ∀ i t, (i, t) ∈ s.posts → ∃ p, s.resolver.procs[i]? = some p ∧
    s.api.request t = some (post_of (LoadConfig getenv) p.sub)
  named : ∀ p ∈ s.resolver.procs, ∃ chk ∈ s.checks,
    wants getenv hcomplete chk.arrival = some p.sub
  waits : ∀ chk ∈ s.checks, Waits getenv hcomplete s chk
  genuine : ∀ chk ∈ s.checks, Unforged getenv s.api chk.arrival

end

section
variable {E : Env} {getenv : String → String} {hcomplete : (LoadConfig getenv).complete = true}
  {ttl : Int} {s s' : State K} {chk : Check K} {a : Arrival K}

theorem Waits.kept (h : Waits getenv hcomplete s chk) (hkept : Kept s.resolver s'.resolver) :
    Waits getenv hcomplete s' chk := by
  rcases h with h | ⟨i, p, hcall, hi, hkind, hwants⟩
  · exact .inl h
  · obtain ⟨q, hq, hsub, hkind', -⟩ := hkept i p hi
    rw [← hsub] at hwants
    exact .inr ⟨i, q, hcall, hq, hkind'.trans hkind, hwants⟩

theorem inv_init (now : Int) : Inv E getenv hcomplete (State.init now : State K) where
  cache := Authz.Keys.cacheInv_init now
  api := .init
  answered := nofun
  posts := nofun
  named := nofun
  waits := nofun
  genuine := nofun

/-- A check that needs no key. -/
theorem inv_check (h : Inv E getenv hcomplete s) (hwants : wants getenv hcomplete a = none)
    (hgenuine : Unforged getenv s.api a) :
    Inv E getenv hcomplete { s with checks := s.checks ++ [⟨a, none⟩] } where
  cache := h.cache
  api := h.api
  answered := h.answered
  posts := h.posts
  named := by
    intro p hp
    obtain ⟨chk, hchk, hsub⟩ := h.named p hp
    exact ⟨chk, List.mem_append_left _ hchk, hsub⟩
  waits := by
    intro chk hchk
    rcases List.mem_append.mp hchk with hchk | hchk
    · exact h.waits chk hchk
    · obtain rfl := List.mem_singleton.mp hchk
      exact .inl ⟨rfl, hwants⟩
  genuine := by
    intro chk hchk
    rcases List.mem_append.mp hchk with hchk | hchk
    · exact h.genuine chk hchk
    · obtain rfl := List.mem_singleton.mp hchk
      exact hgenuine

/-- A check that calls the cache. -/
theorem inv_call {sub : String} (h : Inv E getenv hcomplete s)
    (hwants : wants getenv hcomplete a = some sub) (hgenuine : Unforged getenv s.api a) :
    Inv E getenv hcomplete
      { s with
        resolver := s.resolver.start ⟨sub, .keyFor, .looking⟩
        checks := s.checks ++ [⟨a, some s.resolver.procs.length⟩] } where
  cache := Authz.Keys.inv_call h.cache sub
  api := h.api
  answered := h.answered
  posts := by
    intro i t hpost
    obtain ⟨p, hp, hr⟩ := h.posts i t hpost
    exact ⟨p, Authz.Keys.procs_start.mpr (.inl hp), hr⟩
  named := by
    -- the new process is one for the subject that the new check needs
    intro p hp
    rcases List.mem_append.mp hp with hp | hp
    · obtain ⟨chk, hchk, hsub⟩ := h.named p hp
      exact ⟨chk, List.mem_append_left _ hchk, hsub⟩
    · obtain rfl := List.mem_singleton.mp hp
      exact ⟨_, List.mem_append_right _ (List.mem_singleton.mpr rfl), hwants⟩
  waits := by
    intro chk hchk
    rcases List.mem_append.mp hchk with hchk | hchk
    · exact (h.waits chk hchk).kept ((kept_refl _).start _)
    · obtain rfl := List.mem_singleton.mp hchk
      exact .inr ⟨_, _, rfl, Authz.Keys.procs_start.mpr (.inr ⟨rfl, rfl⟩), rfl, hwants⟩
  genuine := by
    intro chk hchk
    rcases List.mem_append.mp hchk with hchk | hchk
    · exact h.genuine chk hchk
    · obtain rfl := List.mem_singleton.mp hchk
      exact hgenuine

/-- A step of the cache that is no call, and in which it learns no key but one
    that was generated for the subject. -/
theorem inv_cache {resolver : Authz.Keys.State} {l : Authz.Keys.Label}
    (h : Inv E getenv hcomplete s) (hstep : Authz.Keys.step ttl s.resolver l = some resolver)
    (hcall : ∀ sub, l ≠ .call sub)
    (hlearn : ∀ i answer p key, l = .answer i answer → s.resolver.procs[i]? = some p →
      answer.key = some key → MintedFor s.api (lower (strip p.sub)) key) :
    Inv E getenv hcomplete { s with resolver } where
  cache := Authz.Keys.effect_inv h.cache (Authz.Keys.step_effect hstep)
  api := h.api
  answered := by
    intro sub key hmem
    -- a new answer is one the service has minted
    rcases step_answered hstep with hsame | ⟨i, answer, sub', kind, key', hl, hi, hkey, hmore⟩
    · exact h.answered sub key (hsame ▸ hmem)
    · have hminted := hlearn i answer ⟨sub', kind, .fetching⟩ key' hl hi hkey
      rw [hmore] at hmem
      rcases List.mem_cons.mp hmem with heq | hmem
      · cases heq
        exact hminted
      · exact h.answered sub key hmem
  posts := by
    intro i t hpost
    obtain ⟨p, hp, hr⟩ := h.posts i t hpost
    obtain ⟨q, hq, hsub, -⟩ := step_kept hstep i p hp
    rw [← hsub] at hr
    exact ⟨q, hq, hr⟩
  named := by
    intro q hq
    obtain ⟨p, hp, hsub⟩ := step_names hstep hcall q hq
    obtain ⟨chk, hchk, hwants⟩ := h.named p hp
    rw [hsub] at hwants
    exact ⟨chk, hchk, hwants⟩
  waits := fun chk hchk => (h.waits chk hchk).kept (step_kept hstep)
  genuine := h.genuine

/-- A step of the service. -/
theorem inv_api {api : AsConfig} {l : AsLabel} (h : Inv E getenv hcomplete s)
    (hstep : s.api.step (handler E) l = some api) : Inv E getenv hcomplete { s with api } :=
  have hlater : Later s.api api := later_step hstep
  { cache := h.cache
    api := .step h.api hstep trivial
    answered := fun sub key hmem => minted_later (h.answered sub key hmem) hlater
    posts := by
      intro i t hpost
      obtain ⟨p, hp, hr⟩ := h.posts i t hpost
      exact ⟨p, hp, hlater.request _ _ hr⟩
    named := h.named
    waits := h.waits
    genuine := fun chk hchk => (h.genuine chk hchk).later hlater }

/-- The cache sends a request to the service. -/
theorem inv_post {api : AsConfig} {i : Nat} {p : Authz.Keys.Proc} (h : Inv E getenv hcomplete s)
    (hi : s.resolver.procs[i]? = some p)
    (hstep : s.api.step (handler E) (.spawn (post_of (LoadConfig getenv) p.sub)) = some api) :
    Inv E getenv hcomplete { s with api, posts := (i, s.api.threads.length) :: s.posts } :=
  have hserved := inv_api h hstep
  { cache := hserved.cache
    api := hserved.api
    answered := hserved.answered
    posts := by
      intro j t hpost
      rcases List.mem_cons.mp hpost with heq | hpost
      · cases heq
        refine ⟨p, hi, ?_⟩
        obtain rfl := Option.some.inj hstep
        simp [Config.request]
      · exact hserved.posts j t hpost
    named := hserved.named
    waits := hserved.waits
    genuine := hserved.genuine }

/-- No step breaks the invariant, as long as no token is forged. -/
theorem step_inv {l : Label K} (h : Inv E getenv hcomplete s)
    (hstep : step E getenv hcomplete ttl s l = some s')
    (hgenuine : ∀ a, l = .arrive a → Unforged getenv s.api a) : Inv E getenv hcomplete s' := by
  cases step_effect hstep with
  | arrive a =>
    unfold arrive
    split
    · next hwants => exact inv_check h hwants (hgenuine a rfl)
    · next sub hwants => exact inv_call h hwants (hgenuine a rfl)
  | cache hmove hcall hlearn =>
    refine inv_cache h hmove hcall ?_
    intro i answer p key hanswer hi hkey
    obtain ⟨t, res, hpost, hres, rfl⟩ := hlearn i answer key hanswer hkey
    -- the response is one to a request for the subject of the process
    obtain ⟨q, hq, hreq⟩ := h.posts i t hpost
    obtain rfl := Option.some.inj (hi.symm.trans hq)
    exact answer_minted h.api hreq hres hkey
  | post hi hspawn => exact inv_post h hi hspawn
  | serve hserve => exact inv_api h hserve

theorem reached_inv (h : Reached E getenv hcomplete ttl s) : Inv E getenv hcomplete s := by
  induction h with
  | init now => exact inv_init now
  | step _ hstep hgenuine ih => exact step_inv ih hstep hgenuine

/-! ## Whose key it is -/

/-- The headers that Envoy is told to set are those of the decision. -/
theorem response_ok {headers : List (String × String)} {headersToRemove : List String}
    (h : response getenv hcomplete s chk = some (.ok headers headersToRemove)) :
    ∃ d, decision getenv hcomplete s chk = some d ∧ d.set = headers := by
  obtain ⟨d, hd, hr⟩ := Option.map_eq_some_iff.mp h
  unfold check_response at hr
  split at hr
  · cases hr
    exact ⟨d, hd, rfl⟩
  · cases hr

/-- What a decision sets: nothing, the caller's own key, or the key of the subject
    that the resolver was asked for. -/
theorem decide_set {cfg : Authz.Config} {path : String} {h : Headers} {v : Verifier}
    {r : KeyResolver} (hset : (Decide cfg path h v r).set ≠ []) :
    (∃ cred, selected cfg h = some cred ∧ looksLikeJWS cred.token = false ∧
      (Decide cfg path h v r).set = [(cfg.outboundHeader, "Bearer " ++ cred.token)]) ∨
    ∃ sub key, asks cfg h v = some sub ∧ r sub = some key ∧
      (Decide cfg path h v r).set = [(cfg.outboundHeader, "Bearer " ++ key)] := by
  cases hsel : selected cfg h with
  | none =>
    rw [decide_of_not_selected hsel] at hset
    -- without a credential nothing is injected
    split at hset
    · exact absurd rfl hset
    · exact absurd rfl hset
  | some cred =>
    rw [decide_of_selected hsel] at hset ⊢
    split at hset
    · next hjws =>
      rw [if_pos hjws]
      obtain ⟨-, www, body, heq⟩ | ⟨sub, scopes, hv, ⟨-, body, heq⟩ | ⟨key, hr, heq⟩⟩ :=
        userPath_cases cfg path cred.token [cred.header] v r
      · rw [heq] at hset
        exact absurd rfl hset
      · rw [heq] at hset
        exact absurd rfl hset
      · rw [heq]
        refine .inr ⟨sub, key, ?_, hr, rfl⟩
        simp [asks, hsel, hjws, hv]
    · next hjws =>
      rw [if_neg hjws]
      exact .inl ⟨cred, rfl, Bool.not_eq_true _ ▸ hjws, rfl⟩

/-- A check that sets the header to a key of a subject waited for that subject,
    and the key was generated for it. -/
theorem decision_set (hinv : Inv E getenv hcomplete s) (hchk : chk ∈ s.checks) {d : Decision}
    (hd : decision getenv hcomplete s chk = some d) (hset : d.set ≠ []) :
    (∃ cred, selected (LoadConfig getenv) chk.arrival.headers = some cred ∧
      looksLikeJWS cred.token = false ∧
      d.set = [((LoadConfig getenv).outboundHeader, "Bearer " ++ cred.token)]) ∨
    ∃ sub key, wants getenv hcomplete chk.arrival = some sub ∧
      MintedFor s.api (lower (strip sub)) key ∧
      d.set = [((LoadConfig getenv).outboundHeader, "Bearer " ++ key)] := by
  unfold decision at hd
  rcases hinv.waits chk hchk with ⟨hcall, hwants⟩ | ⟨i, p, hcall, hi, hkind, hwants⟩
  · rw [hcall] at hd
    obtain rfl := Option.some.inj hd
    rcases decide_set hset with hown | ⟨sub, key, -, hr, -⟩
    · exact .inl hown
    · cases hr
  · rw [hcall] at hd
    dsimp only at hd
    rw [hi] at hd
    split at hd
    · next sub kind result hp =>
      obtain rfl := Option.some.inj hp
      obtain rfl := Option.some.inj hd
      rcases decide_set hset with hown | ⟨sub', key, hasks, hr, hkey⟩
      · exact .inl hown
      · -- the resolver is asked for the subject of the call
        split at hr
        · have hmem := hinv.cache.held i _ hi key hr
          exact .inr ⟨sub, key, hwants, hinv.answered sub key hmem, hkey⟩
        · cases hr
    · cases hd

theorem confined_of_inv (hinv : Inv E getenv hcomplete s) : Confined getenv hcomplete s where
  injects := by
    intro chk hchk headers headersToRemove hresponse hset
    obtain ⟨d, hd, rfl⟩ := response_ok hresponse
    rcases decision_set hinv hchk hd hset with ⟨cred, hsel, hjws, hkey⟩ |
      ⟨sub, key, hwants, hminted, hkey⟩
    · exact ⟨cred.token, hkey, .inl ⟨cred, hsel, hjws, rfl⟩⟩
    · exact ⟨key, hkey, .inr ⟨sub, speaks_of_wants hinv.api (hinv.genuine chk hchk) hwants, hminted⟩⟩
  posts := by
    intro i t hpost
    obtain ⟨p, hp, hr⟩ := hinv.posts i t hpost
    obtain ⟨chk, hchk, hwants⟩ := hinv.named p (List.mem_of_getElem? hp)
    exact ⟨chk, hchk, p.sub, hr, speaks_of_wants hinv.api (hinv.genuine chk hchk) hwants⟩
  apart := by
    -- the key of a check whose token speaks for a subject was generated for it
    have hminted : ∀ chk ∈ s.checks, ∀ sub key, Speaks getenv hcomplete s.api chk.arrival sub →
        Injects getenv hcomplete s chk key → MintedFor s.api (lower (strip sub)) key := by
      rintro chk hchk sub key hspeaks ⟨headersToRemove, hresponse⟩
      obtain ⟨d, hd, hset⟩ := response_ok hresponse
      have hne : d.set ≠ [] := by simp [hset]
      rcases decision_set hinv hchk hd hne with ⟨cred, hsel, hjws, -⟩ |
        ⟨sub', key', hwants, hminted, hkey⟩
      · obtain ⟨cred', scopes, hsel', hjws', -⟩ := hspeaks
        obtain rfl := Option.some.inj (hsel.symm.trans hsel')
        rw [hjws] at hjws'
        cases hjws'
      · obtain rfl := Option.some.inj (hwants.symm.trans hspeaks.wants)
        rw [hset] at hkey
        have hvalue : "Bearer " ++ key = "Bearer " ++ key' :=
          congrArg Prod.snd (List.singleton_inj.mp hkey)
        rw [(String.append_right_inj _).mp hvalue]
        exact hminted
    intro honce chk hchk chk' hchk' sub sub' key hspeaks hinj hspeaks' hinj'
    exact honce _ _ key (hminted chk hchk sub key hspeaks hinj) (hminted chk' hchk' sub' key hspeaks' hinj')

/-- A decision that was made stays. -/
theorem decision_stays {l : Label K} (hstep : step E getenv hcomplete ttl s l = some s') {d : Decision}
    (hd : decision getenv hcomplete s chk = some d) : decision getenv hcomplete s' chk = some d := by
  have hkept := step_calls hstep
  unfold decision at hd ⊢
  cases hcall : chk.call with
  | none =>
    rw [hcall] at hd
    exact hd
  | some i =>
    rw [hcall] at hd
    dsimp only at hd ⊢
    split at hd
    · next sub kind result hi =>
      obtain ⟨q, hq, -, -, hsame⟩ := hkept i _ hi
      rw [hq, hsame result rfl]
      exact hd
    · cases hd

/-- In every run of the gateway, the cache and the service, whatever the
    interleaving and whatever answers are lost, and as long as no token is forged:
    a check ends with the caller's own key, or with a key that LiteLLM has
    generated for the subject of the caller's token, behind whom there is a login
    at Dex or the identity provider; no other subject's key is ever asked for; and
    what Envoy has been told stays. -/
theorem gateway_confined (h : Reached E getenv hcomplete ttl s) :
    Confined getenv hcomplete s ∧ ∀ l s', step E getenv hcomplete ttl s l = some s' →
      ∀ chk ∈ s.checks, ∀ told, response getenv hcomplete s chk = some told →
        response getenv hcomplete s' chk = some told := by
  refine ⟨confined_of_inv (reached_inv h), fun l s' hstep chk _ told htold => ?_⟩
  obtain ⟨d, hd, rfl⟩ := Option.map_eq_some_iff.mp htold
  unfold response
  rw [decision_stays hstep hd]
  rfl

end

/-! ## A login, and a request of the model API -/

section
variable (E : Env) (getenv : String → String) (hcomplete : (LoadConfig getenv).complete = true)
  (ttl : Int)

/-- A schedule in which nobody arrives. -/
def State.run (s : State K) : List (Label K) → Option (State K)
  | [] => some s
  | .arrive _ :: _ => none
  | l :: ls => (step E getenv hcomplete ttl s l).bind fun s' => s'.run ls

variable {E getenv hcomplete ttl}

theorem arrive_of_wants {s : State K} {a : Arrival K} {sub : String}
    (h : wants getenv hcomplete a = some sub) : arrive getenv hcomplete s a =
      { s with
        resolver := s.resolver.start ⟨sub, .keyFor, .looking⟩
        checks := s.checks ++ [⟨a, some s.resolver.procs.length⟩] } := by
  unfold arrive
  rw [h]

theorem reached_run {s s' : State K} (h : Reached E getenv hcomplete ttl s) {ls : List (Label K)}
    (hrun : s.run E getenv hcomplete ttl ls = some s') :
    Reached E getenv hcomplete ttl s' ∧ s'.checks = s.checks := by
  induction ls generalizing s with
  | nil =>
    obtain rfl := Option.some.inj hrun
    exact ⟨h, rfl⟩
  | cons l ls ih =>
    cases l with
    | arrive a => cases hrun
    | proceed | post | deliver | lose | serve =>
      obtain ⟨s₁, hstep, hrest⟩ := Option.bind_eq_some_iff.mp hrun
      obtain ⟨hreached, hchecks⟩ := ih (.step h hstep nofun) hrest
      exact ⟨hreached, hchecks.trans (step_checks hstep nofun)⟩

end

theorem trimSpace_unspaced {s : String} (h : ∀ c ∈ s.toList, goIsSpace c = false) :
    trimSpace s = s := by
  have hdrop (l : List Char) (hl : ∀ c ∈ l, goIsSpace c = false) : l.dropWhile goIsSpace = l := by
    cases l with
    | nil => rfl
    | cons c l => exact List.dropWhile_cons_of_neg (by simp [hl c List.mem_cons_self])
  unfold trimSpace
  rw [hdrop _ h, hdrop _ (by simpa using h), List.reverse_reverse, String.ofList_toList]

/-- A bare token is its own key. -/
theorem bareKey_unspaced {s : String} (h : ∀ c ∈ s.toList, goIsSpace c = false) : bareKey s = s := by
  have hplain : ¬ startsWith "Bearer " s = true := by
    intro hstarts
    have hspace : ' ' ∈ s.toList :=
      (List.isPrefixOf_iff_prefix.mp hstarts).subset (by decide)
    have hfalse := h ' ' hspace
    revert hfalse
    decide
  unfold bareKey trimFront cutFront
  rw [trimSpace_unspaced h, if_neg hplain]
  exact trimSpace_unspaced h

/-- The token that Ann's login ends with, and its claims. -/
def ann_token : String :=
  hint_token ("eyJpc3MiOiJodHRwczovL2F1dGguZXhhbXBsZSIsImF1ZCI6ImxpdGVsbG0iLCJzdWIiOiJhbm5AZXhhbXBsZS" ++
    "5jb20iLCJpYXQiOjE3MDAwMDAwMDAsImV4cCI6MTcwMDAwMzYwMCwianRpIjoiampqampqampqampqampqampqampqaiIs" ++
    "InNjb3BlIjoibGl0ZWxsbSBkcml2ZSIsImNsaWVudF9pZCI6ImNjY2NjY2NjY2NjY2NjY2NjY2NjY2MiLCJ0b2tlbl91c2" ++
    "UiOiJ1c2VyIn0")

def ann_claims : Claims where
  iss := "https://auth.example"
  aud := "litellm"
  sub := "ann@example.com"
  iat := 1700000000
  exp := 1700003600
  jti := ident 'j' 22
  scope := "litellm drive"
  client_id := .str (ident 'c' 22)
  token_use := "user"

/-- golang-jwt as far as it has to read one token, and accepts the signature. -/
def one_jwt (token : String) (payload : MapClaims) : GolangJwt Unit where
  toAccessors := textAccessors
  parseUnverified := read
  parse := fun _ issuer audience raw => (read raw).filter fun claims =>
    textAccessors.getIssuer claims == some issuer &&
      ((textAccessors.getAudience claims).getD []).contains audience
where
  read (raw : String) : Option MapClaims := if raw = token then some payload else none

theorem one_jwt_parse {token raw issuer audience : String} {payload claims : MapClaims} {keys : Unit}
    (h : (one_jwt token payload).parse keys issuer audience raw = some claims) : claims = payload := by
  have hread := (Option.filter_eq_some_iff.mp h).1
  unfold one_jwt.read at hread
  split at hread
  · exact (Option.some.inj hread).symm
  · cases hread

/-- Ann's request of the model API. -/
def ann_arrival : Arrival Unit where
  path := "/v1/chat/completions?stream=true"
  headers := fun name => if name = "x-genai-api-key" then ann_token else ""
  jwt := one_jwt ann_token ann_claims.fields
  frontKeys := ()
  idpKeys := ()

theorem hint_env_complete : (LoadConfig hint_env).complete = true := by decide +kernel

/-- The token has the form of a signed one, and no spaces. -/
theorem ann_token_form : (ann_token.toList.all fun c => !goIsSpace c) = true ∧
    looksLikeJWS ann_token = true := by
  unfold looksLikeJWS count startsWith ann_token hint_token
  simp only [String.toList_append]
  decide +kernel

theorem ann_selected : selected (LoadConfig hint_env) ann_arrival.headers =
    some ⟨"x-genai-api-key", ann_token⟩ := by
  have hinbound : (LoadConfig hint_env).inboundHeaders = ["x-genai-api-key", "x-api-key"] := by
    decide +kernel
  have hheader : ann_arrival.headers "x-genai-api-key" = ann_token := by simp [ann_arrival]
  have hsent : (ann_arrival.headers "x-genai-api-key" != "") = true := by
    rw [hheader]
    decide +kernel
  have hbare : bareKey ann_token = ann_token := by
    apply bareKey_unspaced
    intro c hc
    simpa using List.all_eq_true.mp ann_token_form.1 c hc
  have hfirst : ["x-genai-api-key", "x-api-key"].find? (fun name => ann_arrival.headers name != "") =
      some "x-genai-api-key" := List.find?_cons_of_pos hsent
  unfold selected
  rw [hinbound, hfirst]
  dsimp only
  rw [hheader, hbare]

theorem ann_verified : verifier hint_env hint_env_complete ann_arrival ann_token =
    some ("ann@example.com", ["litellm", "drive"]) := by
  decide +kernel

theorem ann_wants : wants hint_env hint_env_complete ann_arrival = some "ann@example.com" :=
  wants_iff.mpr ⟨_, _, ann_selected, ann_token_form.2, ann_verified⟩

/-- Has the service handed out the token? -/
def ann_signed (s : State Unit) : Bool :=
  match s.api.response 3 with
  | some (.tokens access _ _ _) => ann_claims.agrees access
  | _ => false

theorem ann_unforged {s : State Unit} (h : ann_signed s = true) :
    Unforged hint_env s.api ann_arrival := by
  unfold ann_signed at h
  split at h
  · next access refresh scope expires_in hresponse =>
    obtain rfl := Claims.eq_of_agrees h
    intro raw claims hparse
    exact ⟨_, .access hresponse, one_jwt_parse hparse⟩
  · cases h

/-- The state in which Ann's request has arrived. -/
def ann_called (s : State Unit) : State Unit :=
  { s with
    resolver := s.resolver.start ⟨"ann@example.com", .keyFor, .looking⟩
    checks := s.checks ++ [⟨ann_arrival, some s.resolver.procs.length⟩] }

theorem arrive_ann (s : State Unit) :
    arrive hint_env hint_env_complete s ann_arrival = ann_called s :=
  arrive_of_wants ann_wants

/-- The cache fetches Ann's key, which LiteLLM generates on the way. -/
def ann_schedule : List (Label Unit) :=
  [.proceed (.look 0), .post 0, .serve (.perform 4 .auto), .serve (.perform 4 .auto),
    .serve (.perform 4 .auto), .serve (.perform 4 (minting "sk-1")),
    .serve (.perform 4 (minting "sk-1")), .serve (.perform 4 .auto), .serve (.perform 4 .auto),
    .deliver 0 4, .proceed (.store 0)]

/-- Has the first call of the cache returned this key? -/
def ann_fetched (s : State Unit) : Bool :=
  s.resolver.procs[0]? == some ⟨"ann@example.com", .keyFor, .returned (some "sk-1")⟩

theorem ann_run : ((State.init 0 : State Unit).run sample hint_env hint_env_complete 300
    ((.tick 1700000000 :: login_schedule).map .serve)).any (fun s =>
      ann_signed s && s.resolver.procs.isEmpty &&
      ((ann_called s).run sample hint_env hint_env_complete 300 ann_schedule).any ann_fetched) =
    true := by
  decide +kernel

/-- What Envoy is told once the key is there. -/
theorem ann_told {s : State Unit} (h : ann_fetched s = true) :
    Injects hint_env hint_env_complete s ⟨ann_arrival, some 0⟩ "sk-1" := by
  refine ⟨["x-genai-api-key"], ?_⟩
  unfold response decision
  dsimp only
  rw [eq_of_beq h]
  dsimp only
  rw [decide_of_selected ann_selected, if_pos ann_token_form.2]
  unfold userPath
  rw [ann_verified]
  simp [check_response, allowWithKey]

/-- Ann logs in and uses her token; the key that her request ends with was
    generated for her. -/
theorem gateway_confined_login : ∃ (s : State Unit) (chk : Check Unit),
    Reached sample hint_env hint_env_complete 300 s ∧ chk ∈ s.checks ∧
    Injects hint_env hint_env_complete s chk "sk-1" ∧
    Speaks hint_env hint_env_complete s.api chk.arrival "ann@example.com" ∧
    MintedFor s.api (lower (strip "ann@example.com")) "sk-1" := by
  obtain ⟨s₁, hlogin, htest⟩ := (Option.any_eq_true _ _).mp ann_run
  simp only [Bool.and_eq_true, List.isEmpty_iff] at htest
  obtain ⟨⟨hsigned, hempty⟩, hserved⟩ := htest
  obtain ⟨s, hfetch, hfetched⟩ := (Option.any_eq_true _ _).mp hserved
  -- Ann arrives with the token that the service has handed out
  have hcalled : Reached sample hint_env hint_env_complete 300 (ann_called s₁) := by
    have harrive : step sample hint_env hint_env_complete 300 s₁ (.arrive ann_arrival) =
        some (ann_called s₁) := congrArg some (arrive_ann s₁)
    refine .step (reached_run (.init 0) hlogin).1 harrive ?_
    intro a heq
    obtain rfl := Label.arrive.inj heq
    exact ann_unforged hsigned
  obtain ⟨hreached, hchecks⟩ := reached_run hcalled hfetch
  have hchk : (⟨ann_arrival, some 0⟩ : Check Unit) ∈ s.checks := by
    rw [hchecks]
    simp [ann_called, hempty]
  obtain ⟨headersToRemove, htold⟩ := ann_told hfetched
  obtain ⟨key, hkey, hwhose⟩ :=
    (gateway_confined hreached).1.injects _ hchk _ _ htold (List.cons_ne_nil _ _)
  have hsame : "Bearer " ++ "sk-1" = "Bearer " ++ key :=
    congrArg Prod.snd (List.singleton_inj.mp hkey)
  obtain rfl := (String.append_right_inj _).mp hsame
  refine ⟨s, ⟨ann_arrival, some 0⟩, hreached, hchk, ⟨_, htold⟩, ?_⟩
  rcases hwhose with ⟨cred, hsel, hjws, -⟩ | ⟨sub, hspeaks, hminted⟩
  · obtain rfl := Option.some.inj (ann_selected.symm.trans hsel)
    rw [ann_token_form.2] at hjws
    cases hjws
  · obtain rfl := Option.some.inj (ann_wants.symm.trans hspeaks.wants)
    exact ⟨hspeaks, hminted⟩

end AlitellmAuth.Gateway
