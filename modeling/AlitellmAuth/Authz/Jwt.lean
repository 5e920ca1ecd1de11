import AlitellmAuth.Authz.Decide
import AlitellmAuth.Framework.Json

/-! # Verifying tokens

    `jwt.go` and the part of `main.go` that sets it up: one verifier for each
    trusted issuer, and a token handed to the verifier of the issuer it names.
    The name is read from the token before anything of it is verified.

    Parsing and checking the token itself is golang-jwt's, with the keys that
    keyfunc has fetched; here it is a parameter.
-/

namespace AlitellmAuth.Authz

open Text

/-! ## golang-jwt -/

abbrev MapClaims := List (String × Json)

/-- The accessors of golang-jwt's `MapClaims`, with what is relied on of them. -/
structure Accessors where
  getIssuer : MapClaims → Option String
  getSubject : MapClaims → Option String
  getAudience : MapClaims → Option (List String)
  /-- A subject that is a text is read as it is. -/
  getSubject_text : ∀ claims s, claims.lookup "sub" = some (.str s) → getSubject claims = some s
  /-- An audience that is one text stands for the list of it. -/
  getAudience_text : ∀ claims s, claims.lookup "aud" = some (.str s) → getAudience claims = some [s]

/-- What is used of golang-jwt: the accessors, `Parser.ParseUnverified`, and
    `Parse` with a key set, the method RS256, a required expiry, an issuer and an
    audience. -/
structure GolangJwt (Keys : Type) extends Accessors where
  parseUnverified : String → Option MapClaims
  parse : Keys → (issuer audience raw : String) → Option MapClaims

/-- `WithIssuer` compares exactly. -/
def GolangJwt.ChecksIssuer {Keys : Type} (lib : GolangJwt Keys) : Prop :=
  ∀ keys issuer audience raw claims, issuer ≠ "" →
    lib.parse keys issuer audience raw = some claims → lib.getIssuer claims = some issuer

/-- `WithAudience` wants the audience among those of the token. -/
def GolangJwt.ChecksAudience {Keys : Type} (lib : GolangJwt Keys) : Prop :=
  ∀ keys issuer audience raw claims, audience ≠ "" →
    lib.parse keys issuer audience raw = some claims →
    ∃ auds, lib.getAudience claims = some auds ∧ audience ∈ auds

/-- `Parse` and `ParseUnverified` read the same claims. -/
def GolangJwt.ReadsAlike {Keys : Type} (lib : GolangJwt Keys) : Prop :=
  ∀ keys issuer audience raw claims, lib.parse keys issuer audience raw = some claims →
    lib.parseUnverified raw = some claims

/-! ## One issuer -/

/-- `verifier`, with the key set it has at the moment. -/
structure IssuerVerifier (Keys : Type) where
  issuer : String
  keys : Keys
  audience : String
  subjectClaim : String

/-- `NewVerifier`, where the discovery of the keys has succeeded. -/
def NewVerifier {Keys : Type} (keys : Keys) (issuer audience subjectClaim : String) :
    IssuerVerifier Keys where
  issuer := trimRight '/' issuer
  keys := keys
  audience := audience
  subjectClaim := subjectClaim

/-- The LiteLLM user id a token stands for. -/
def subject (lib : Accessors) (subjectClaim : String) (claims : MapClaims) : Option String :=
  if subjectClaim = "" ∨ subjectClaim = "sub" then
    match lib.getSubject claims with
    | none => none
    | some sub => if sub = "" then none else some (goToLower sub)
  else
    let sub := match claims.lookup subjectClaim with
      | some (.str s) => trimSpace s
      | _ => ""
    if sub = "" then none else some (goToLower sub)

section
variable {Keys : Type}

def IssuerVerifier.verify (lib : GolangJwt Keys) (v : IssuerVerifier Keys) : Verifier := fun raw => do
  let claims ← lib.parse v.keys v.issuer v.audience raw
  let sub ← subject lib.toAccessors v.subjectClaim claims
  let scope := match claims.lookup "scope" with
    | some (.str s) => s
    | _ => ""
  return (sub, fields scope)

/-! ## Several issuers -/

/-- `unverifiedIssuer`. -/
def unverifiedIssuer (lib : GolangJwt Keys) (raw : String) : Option String := do
  let claims ← lib.parseUnverified raw
  let iss ← lib.getIssuer claims
  if iss = "" then none else some iss

/-- `multiVerifier`: verifiers as `NewVerifier` makes them, each under its own
    issuer. -/
structure MultiVerifier (Keys : Type) where
  byIssuer : String → Option (IssuerVerifier Keys)
  built : ∀ iss v, byIssuer iss = some v →
    ∃ keys issuer audience subjectClaim, v = NewVerifier keys issuer audience subjectClaim
  keyed : ∀ iss v, byIssuer iss = some v → v.issuer = iss
  named : ∀ v, byIssuer "" ≠ some v

def MultiVerifier.verify (lib : GolangJwt Keys) (m : MultiVerifier Keys) : Verifier := fun raw => do
  let iss ← unverifiedIssuer lib raw
  let v ← m.byIssuer (trimRight '/' iss)
  v.verify lib raw

end

/-! ## The proxy's own set -/

/-- `envOr`. -/
def envOr (getenv : String → String) (k d : String) : String :=
  if getenv k ≠ "" then getenv k else d

def splitHeaders (s : String) : List String :=
  ((s.toList.splitOn ',').map fun h => goToLower (trimSpace (String.ofList h))).filter (· != "")

def LoadConfig (getenv : String → String) : Config where
  inboundHeaders := splitHeaders (envOr getenv "AUTHZ_INBOUND_HEADERS" "x-genai-api-key,x-api-key")
  outboundHeader := goToLower (envOr getenv "AUTHZ_OUTBOUND_HEADER" "x-litellm-api-key")
  issuer := trimRight '/' (getenv "AUTHZ_ISSUER")
  audience := envOr getenv "AUTHZ_AUDIENCE" "alitellm"
  resourceMetadataURL := trimRight '/' (getenv "AUTHZ_RESOURCE_METADATA_URL")
  keyResolverURL := getenv "AUTHZ_KEY_RESOLVER_URL"
  internalToken := getenv "AUTHZ_INTERNAL_TOKEN"
  idpIssuer := trimRight '/' (getenv "AUTHZ_IDP_ISSUER")
  idpAudience := getenv "AUTHZ_IDP_AUDIENCE"
  idpSubjectClaim := envOr getenv "AUTHZ_IDP_SUBJECT_CLAIM" "email"

section
variable {Keys : Type}

/-- What `main` refuses to start with. -/
def Config.complete (cfg : Config) : Bool :=
  cfg.issuer != "" && cfg.keyResolverURL != "" && cfg.internalToken != "" &&
    cfg.resourceMetadataURL != "" && (cfg.idpIssuer == "" || cfg.idpAudience != "")

/-- The map that `main` builds: the front door, and the identity provider over
    it if there is one. -/
def main_verifiers (cfg : Config) (frontKeys idpKeys : Keys) (iss : String) :
    Option (IssuerVerifier Keys) :=
  if cfg.idpIssuer ≠ "" ∧ iss = cfg.idpIssuer then
    some (NewVerifier idpKeys cfg.idpIssuer cfg.idpAudience cfg.idpSubjectClaim)
  else if iss = cfg.issuer then some (NewVerifier frontKeys cfg.issuer cfg.audience "")
  else none

/-- The settings are trimmed, so each verifier is under its own issuer. -/
def main_verifier (getenv : String → String) (h : (LoadConfig getenv).complete = true)
    (frontKeys idpKeys : Keys) : MultiVerifier Keys where
  byIssuer := main_verifiers (LoadConfig getenv) frontKeys idpKeys
  built := by
    intro iss v hv
    unfold main_verifiers at hv
    split at hv
    · exact ⟨_, _, _, _, (Option.some.inj hv).symm⟩
    · split at hv
      · exact ⟨_, _, _, _, (Option.some.inj hv).symm⟩
      · cases hv
  keyed := by
    intro iss v hv
    unfold main_verifiers at hv
    split at hv
    · next hidp =>
      obtain rfl := Option.some.inj hv
      exact (trimRight_trimRight _ _).trans hidp.2.symm
    · split at hv
      · next hfront =>
        obtain rfl := Option.some.inj hv
        exact (trimRight_trimRight _ _).trans hfront.symm
      · cases hv
  named := by
    intro v hv
    unfold main_verifiers at hv
    split at hv
    · next hidp => exact hidp.1 hidp.2.symm
    · split at hv
      · next hfront =>
        rw [Config.complete, ← hfront] at h
        simp at h
      · cases hv

end

/-! ## Routing on the unverified issuer -/

section
variable {Keys : Type} {lib : GolangJwt Keys}

/-- A verifier accepts tokens of its own issuer only, and that is the issuer
    the token is routed on. -/
theorem unverifiedIssuer_of_verify (hissuer : lib.ChecksIssuer) (hclaims : lib.ReadsAlike)
    {v : IssuerVerifier Keys} (hv : v.issuer ≠ "") {raw sub : String} {scopes : List String}
    (h : v.verify lib raw = some (sub, scopes)) : unverifiedIssuer lib raw = some v.issuer := by
  unfold IssuerVerifier.verify at h
  obtain ⟨claims, hparse, -⟩ := Option.bind_eq_some_iff.mp h
  have hiss := hissuer _ _ _ _ _ hv hparse
  have hread := hclaims _ _ _ _ _ hparse
  simp [unverifiedIssuer, hread, hiss, hv]

/-- Routing a token to the verifier of the issuer it names accepts just what
    some verifier accepts. -/
theorem multi_verify_iff (hissuer : lib.ChecksIssuer) (hclaims : lib.ReadsAlike)
    (m : MultiVerifier Keys) (raw sub : String) (scopes : List String) :
    m.verify lib raw = some (sub, scopes) ↔
      ∃ iss v, m.byIssuer iss = some v ∧ v.verify lib raw = some (sub, scopes) := by
  unfold MultiVerifier.verify
  constructor
  · intro h
    obtain ⟨iss, -, h⟩ := Option.bind_eq_some_iff.mp h
    obtain ⟨v, hv, h⟩ := Option.bind_eq_some_iff.mp h
    exact ⟨_, v, hv, h⟩
  · rintro ⟨iss, v, hv, h⟩
    have hkeyed := m.keyed iss v hv
    have hnamed : v.issuer ≠ "" := by
      intro hempty
      rw [hempty] at hkeyed
      exact m.named v (hkeyed ▸ hv)
    -- the issuer of the verifier has no slash at its end to lose
    obtain ⟨keys, issuer, audience, subjectClaim, hbuilt⟩ := m.built iss v hv
    have htrim : trimRight '/' v.issuer = v.issuer := by
      rw [hbuilt]
      exact trimRight_trimRight _ _
    rw [unverifiedIssuer_of_verify hissuer hclaims hnamed h]
    show (m.byIssuer (trimRight '/' v.issuer) >>= fun v => v.verify lib raw) = _
    rw [htrim, hkeyed, hv]
    exact h

end

/-- A token of the front door. -/
def sampleToken : String :=
  "eyJhbGciOiJSUzI1NiJ9." ++
  "eyJpc3MiOiJodHRwczovL2FzLmV4YW1wbGUiLCJzdWIiOiJBbm5ARXhhbXBsZS5jb20iLCJhdWQiOiJh" ++
  "bGl0ZWxsbSIsImV4cCI6NDEwMjQ0NDgwMCwic2NvcGUiOiJhbGl0ZWxsbSBkcml2ZSJ9.c2ln"

/-- A claim that is a text; one that is missing reads as empty. -/
def text_claim (key : String) (claims : MapClaims) : Option String :=
  match claims.lookup key with
  | none => some ""
  | some (.str s) => some s
  | some _ => none

/-- The accessors, for an audience that is a text. -/
def textAccessors : Accessors where
  getIssuer := text_claim "iss"
  getSubject := text_claim "sub"
  getAudience := fun claims => (text_claim "aud" claims).map fun aud => [aud]
  getSubject_text := by
    intro claims s h
    rw [text_claim, h]
  getAudience_text := by
    intro claims s h
    rw [text_claim, h]
    rfl

/-- golang-jwt as far as it has to read that token, and accepts the signature. -/
def sampleJwt : GolangJwt Unit where
  toAccessors := textAccessors
  parseUnverified := sampleClaims
  parse := fun _ issuer audience raw => (sampleClaims raw).filter fun claims =>
    textAccessors.getIssuer claims == some issuer && textAccessors.getAudience claims == some [audience]
where
  sampleClaims (raw : String) : Option MapClaims :=
    if raw = sampleToken then
      some [("iss", .str "https://as.example"), ("sub", .str "Ann@Example.com"),
        ("aud", .str "alitellm"), ("exp", .num 4102444800), ("scope", .str "alitellm drive")]
    else none

/-- The environment of a proxy that trusts the front door alone. -/
def sampleEnv : String → String
  | "AUTHZ_ISSUER" => "https://as.example/"
  | "AUTHZ_RESOURCE_METADATA_URL" => "https://api.example/.well-known/oauth-protected-resource"
  | "AUTHZ_KEY_RESOLVER_URL" => "https://auth.example/api/internal/front-key"
  | "AUTHZ_INTERNAL_TOKEN" => "internal"
  | _ => ""

theorem sampleEnv_complete : (LoadConfig sampleEnv).complete = true := by decide +kernel

theorem multi_verify_sample :
    (main_verifier sampleEnv sampleEnv_complete () ()).verify sampleJwt sampleToken =
      some ("ann@example.com", ["alitellm", "drive"]) := by
  apply (multi_verify_iff ?_ ?_ _ _ _ _).mpr
  · exact ⟨"https://as.example", _, by rfl, by decide +kernel⟩
  · intro keys issuer audience raw claims _ h
    have hf := (Option.filter_eq_some_iff.mp h).2
    exact eq_of_beq (Bool.and_eq_true_iff.mp hf).1
  · intro keys issuer audience raw claims h
    exact (Option.filter_eq_some_iff.mp h).1

end AlitellmAuth.Authz
