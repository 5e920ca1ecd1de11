import AlitellmAuth.Authz.Jwt

/-! # Issuers as they are published

    The configured issuers lose the slashes at their end when they are loaded,
    and again when the verifiers are built; the issuer of a token loses them
    where it is routed. golang-jwt then compares the issuer of the token as it
    is with the configured one.

    * `Right`: a token that a configured provider has signed, with everything
      in it as it should be.
    * `trusted_accepted_iff`: it is accepted if and only if the issuer has no
      slash at its end, and its place is not taken.
-/

namespace AlitellmAuth.Authz

open Text

variable {Keys : Type} {lib : GolangJwt Keys}

/-- The token names the audience. -/
def Accessors.Names (lib : Accessors) (claims : MapClaims) (audience : String) : Prop :=
  ∃ auds, lib.getAudience claims = some auds ∧ audience ∈ auds

/-- The token with these claims passes every check but those for issuer and
    audience: its signature by the keys, the method, and the expiry. -/
def GolangJwt.Genuine (lib : GolangJwt Keys) (keys : Keys) (raw : String) (claims : MapClaims) :
    Prop :=
  ∀ issuer audience, lib.getIssuer claims = some issuer → lib.Names claims audience →
    lib.parse keys issuer audience raw = some claims

/-- The issuers a proxy can be told to trust. -/
inductive Trusted where
  | front
  | idp

namespace Trusted

/-- The issuer as it is written in the environment. -/
def published (getenv : String → String) : Trusted → String
  | .front => getenv "AUTHZ_ISSUER"
  | .idp => getenv "AUTHZ_IDP_ISSUER"

def issuer (cfg : Config) : Trusted → String
  | .front => cfg.issuer
  | .idp => cfg.idpIssuer

def audience (cfg : Config) : Trusted → String
  | .front => cfg.audience
  | .idp => cfg.idpAudience

def subjectClaim (cfg : Config) : Trusted → String
  | .front => ""
  | .idp => cfg.idpSubjectClaim

theorem issuer_loaded (getenv : String → String) (t : Trusted) :
    t.issuer (LoadConfig getenv) = trimRight '/' (t.published getenv) := by
  cases t with
  | front => rfl
  | idp => rfl

end Trusted

/-- The audience and the subject of a token are those that the proxy asks of
    the issuer. -/
structure Fits (lib : Accessors) (cfg : Config) (t : Trusted) (claims : MapClaims) : Prop where
  audience : lib.Names claims (t.audience cfg)
  subject : (subject lib (t.subjectClaim cfg) claims).isSome = true

/-- A token that the provider has signed, with the issuer it publishes. -/
structure Right (lib : GolangJwt Keys) (keysOf : String → Keys) (getenv : String → String)
    (t : Trusted) (raw : String) (claims : MapClaims) : Prop where
  issuer : lib.getIssuer claims = some (t.published getenv)
  fits : Fits lib.toAccessors (LoadConfig getenv) t claims
  genuine : lib.Genuine (keysOf (t.issuer (LoadConfig getenv))) raw claims

/-- The verifiers, each with the keys that are discovered for its issuer. -/
def stack (keysOf : String → Keys) (getenv : String → String)
    (h : (LoadConfig getenv).complete = true) : MultiVerifier Keys :=
  main_verifier getenv h (keysOf (LoadConfig getenv).issuer) (keysOf (LoadConfig getenv).idpIssuer)

/-! ## One verifier -/

/-- A verifier accepts a genuine token that names its issuer and its audience and
    has its subject claim, and no other. -/
theorem verify_genuine_iff (hissuer : lib.ChecksIssuer) (haudience : lib.ChecksAudience)
    (hclaims : lib.ReadsAlike) {v : IssuerVerifier Keys} (hv : v.issuer ≠ "") (ha : v.audience ≠ "")
    {raw : String} {claims : MapClaims} (hread : lib.parseUnverified raw = some claims)
    (hgenuine : lib.Genuine v.keys raw claims) :
    (v.verify lib raw).isSome = true ↔ lib.getIssuer claims = some v.issuer ∧
      lib.Names claims v.audience ∧ (subject lib.toAccessors v.subjectClaim claims).isSome = true := by
  constructor
  · intro h
    obtain ⟨result, hresult⟩ := Option.isSome_iff_exists.mp h
    unfold IssuerVerifier.verify at hresult
    obtain ⟨claims', hparse, hresult⟩ := Option.bind_eq_some_iff.mp hresult
    obtain rfl : claims' = claims :=
      Option.some.inj ((hclaims _ _ _ _ _ hparse).symm.trans hread)
    obtain ⟨sub, hsub, -⟩ := Option.bind_eq_some_iff.mp hresult
    exact ⟨hissuer _ _ _ _ _ hv hparse, haudience _ _ _ _ _ ha hparse, by rw [hsub]; rfl⟩
  · rintro ⟨hiss, hnames, hsome⟩
    obtain ⟨sub, hsub⟩ := Option.isSome_iff_exists.mp hsome
    unfold IssuerVerifier.verify
    rw [hgenuine _ _ hiss hnames]
    show ((subject lib.toAccessors v.subjectClaim claims) >>= fun sub => _).isSome = true
    rw [hsub]
    rfl

/-! ## The stack -/

section
variable {getenv : String → String} {keysOf : String → Keys} {t : Trusted} {raw : String}
  {claims : MapClaims}

theorem Right.read (hclaims : lib.ReadsAlike) (hright : Right lib keysOf getenv t raw claims) :
    lib.parseUnverified raw = some claims :=
  hclaims _ _ _ _ _ (hright.genuine _ _ hright.issuer hright.fits.audience)

/-- The verifier that a token with these claims is handed to. -/
theorem stack_verify (hclaims : lib.ReadsAlike) (h : (LoadConfig getenv).complete = true)
    (hpublished : t.published getenv ≠ "") (hright : Right lib keysOf getenv t raw claims) :
    (stack keysOf getenv h).verify lib raw =
      ((stack keysOf getenv h).byIssuer (t.issuer (LoadConfig getenv))).bind fun v =>
        v.verify lib raw := by
  have hiss : unverifiedIssuer lib raw = some (t.published getenv) := by
    simp [unverifiedIssuer, hright.read hclaims, hright.issuer, hpublished]
  unfold MultiVerifier.verify
  rw [hiss, Trusted.issuer_loaded]
  rfl

theorem front_audience (getenv : String → String) : (LoadConfig getenv).audience ≠ "" := by
  show envOr getenv "AUTHZ_AUDIENCE" "alitellm" ≠ ""
  unfold envOr
  split
  · assumption
  · decide

/-- A token that a configured provider has signed, with the issuer it publishes
    and all else as the proxy asks, is accepted if and only if that issuer has no
    slash at its end, and the token fits the identity provider where that is the
    same issuer. -/
theorem trusted_accepted_iff (hissuer : lib.ChecksIssuer) (haudience : lib.ChecksAudience)
    (hclaims : lib.ReadsAlike) (h : (LoadConfig getenv).complete = true)
    (hpublished : t.published getenv ≠ "") (hright : Right lib keysOf getenv t raw claims) :
    ((stack keysOf getenv h).verify lib raw).isSome = true ↔
      trimRight '/' (t.published getenv) = t.published getenv ∧
      (t.issuer (LoadConfig getenv) = (LoadConfig getenv).idpIssuer →
        Fits lib.toAccessors (LoadConfig getenv) .idp claims) := by
  have hread := hright.read hclaims
  have hcomplete := h
  simp only [Config.complete, Bool.and_eq_true, Bool.or_eq_true, bne_iff_ne, ne_eq, beq_iff_eq] at hcomplete
  obtain ⟨⟨⟨⟨hfront, -⟩, -⟩, -⟩, hidp⟩ := hcomplete
  -- the verifier compares with the trimmed issuer, the token has the published one
  have hiss : lib.getIssuer claims = some (trimRight '/' (t.issuer (LoadConfig getenv))) ↔
      trimRight '/' (t.published getenv) = t.published getenv := by
    rw [hright.issuer, Trusted.issuer_loaded, trimRight_trimRight, Option.some.injEq]
    exact eq_comm
  have htrim : trimRight '/' (t.issuer (LoadConfig getenv)) = t.issuer (LoadConfig getenv) := by
    rw [Trusted.issuer_loaded, trimRight_trimRight]
  rw [stack_verify hclaims h hpublished hright]
  by_cases hsame : t.issuer (LoadConfig getenv) = (LoadConfig getenv).idpIssuer
  · by_cases hempty : (LoadConfig getenv).idpIssuer = ""
    · -- there is nothing left of the issuer, and no verifier for it
      have hnone : (stack keysOf getenv h).byIssuer (t.issuer (LoadConfig getenv)) = none := by
        show main_verifiers _ _ _ _ = none
        unfold main_verifiers
        rw [if_neg (fun hboth => hboth.1 hempty), if_neg]
        rw [hsame, hempty]
        exact Ne.symm hfront
      rw [hnone]
      refine iff_of_false nofun fun hboth => hpublished ?_
      rw [← hboth.1, ← Trusted.issuer_loaded, hsame, hempty]
    -- the identity provider, which is looked up first
    · have hsome : (stack keysOf getenv h).byIssuer (t.issuer (LoadConfig getenv)) =
          some (NewVerifier (keysOf (LoadConfig getenv).idpIssuer) (LoadConfig getenv).idpIssuer
            (LoadConfig getenv).idpAudience (LoadConfig getenv).idpSubjectClaim) := by
        show main_verifiers _ _ _ _ = _
        unfold main_verifiers
        rw [if_pos ⟨hempty, hsame⟩]
      rw [hsome, Option.bind_some, verify_genuine_iff hissuer haudience hclaims ?_ ?_ hread ?_]
      · show lib.getIssuer claims = some (trimRight '/' (LoadConfig getenv).idpIssuer) ∧ _ ↔ _
        rw [← hsame, hiss]
        exact and_congr_right fun _ => ⟨fun hfits _ => ⟨hfits.1, hfits.2⟩,
          fun hfits => ⟨(hfits rfl).audience, (hfits rfl).subject⟩⟩
      · show trimRight '/' (LoadConfig getenv).idpIssuer ≠ ""
        rw [← hsame, htrim, hsame]
        exact hempty
      · exact hidp.resolve_left hempty
      · show lib.Genuine (keysOf (LoadConfig getenv).idpIssuer) raw claims
        rw [← hsame]
        exact hright.genuine
  · -- the front door, whose place is not taken
    cases t with
    | idp => exact absurd rfl hsame
    | front =>
      have hsome : (stack keysOf getenv h).byIssuer (LoadConfig getenv).issuer =
          some (NewVerifier (keysOf (LoadConfig getenv).issuer) (LoadConfig getenv).issuer
            (LoadConfig getenv).audience "") := by
        show main_verifiers _ _ _ _ = _
        unfold main_verifiers
        rw [if_neg fun hboth => hsame hboth.2, if_pos rfl]
      show (((stack keysOf getenv h).byIssuer (LoadConfig getenv).issuer).bind _).isSome = true ↔ _
      rw [hsome, Option.bind_some, verify_genuine_iff hissuer haudience hclaims ?_ ?_ hread ?_]
      · show lib.getIssuer claims = some (trimRight '/' (LoadConfig getenv).issuer) ∧ _ ↔ _
        refine ⟨fun hall => ⟨hiss.mp hall.1, fun heq => absurd heq hsame⟩, fun hall => ?_⟩
        exact ⟨hiss.mpr hall.1, hright.fits.audience, hright.fits.subject⟩
      · show trimRight '/' (LoadConfig getenv).issuer ≠ ""
        have htrim : trimRight '/' (LoadConfig getenv).issuer = (LoadConfig getenv).issuer := htrim
        rw [htrim]
        exact hfront
      · exact front_audience getenv
      · exact hright.genuine

end

/-! ## A provider with a slash -/

/-- The claims of a token of the front door. -/
def issuerClaims (issuer : String) : MapClaims :=
  [("iss", .str issuer), ("sub", .str "Ann@Example.com"), ("aud", .str "alitellm"),
    ("exp", .num 4102444800), ("scope", .str "alitellm drive")]

/-- golang-jwt as far as it has to read one token of the issuer, and accepts its
    signature. -/
def issuerJwt (issuer token : String) : GolangJwt Unit where
  toAccessors := textAccessors
  parseUnverified := read
  parse := fun _ expected audience raw => (read raw).filter fun claims =>
    textAccessors.getIssuer claims == some expected &&
      ((textAccessors.getAudience claims).getD []).contains audience
where
  read (raw : String) : Option MapClaims :=
    if raw = token then some (issuerClaims issuer) else none

/-- The token of an issuer that has a slash at its end. -/
def slashToken : String :=
  "eyJhbGciOiJSUzI1NiJ9." ++
  "eyJpc3MiOiJodHRwczovL2FzLmV4YW1wbGUvIiwic3ViIjoiQW5uQEV4YW1wbGUuY29tIiwiYXVkIjoi" ++
  "YWxpdGVsbG0iLCJleHAiOjQxMDI0NDQ4MDAsInNjb3BlIjoiYWxpdGVsbG0gZHJpdmUifQ.c2ln"

/-- The environment of a proxy that trusts this front door alone. -/
def issuerEnv (issuer : String) : String → String
  | "AUTHZ_ISSUER" => issuer
  | key => sampleEnv key

section
variable {issuer token : String}

theorem issuerJwt_issuer : (issuerJwt issuer token).ChecksIssuer := by
  intro keys expected audience raw claims _ h
  have hchecks := (Option.filter_eq_some_iff.mp h).2
  exact eq_of_beq (Bool.and_eq_true_iff.mp hchecks).1

theorem issuerJwt_audience : (issuerJwt issuer token).ChecksAudience := by
  intro keys expected audience raw claims _ h
  obtain ⟨hread, hchecks⟩ := Option.filter_eq_some_iff.mp h
  have hclaims : claims = issuerClaims issuer := by
    unfold issuerJwt.read at hread
    split at hread
    · exact (Option.some.inj hread).symm
    · cases hread
  subst hclaims
  refine ⟨["alitellm"], rfl, ?_⟩
  exact List.contains_iff_mem.mp (Bool.and_eq_true_iff.mp hchecks).2

theorem issuerJwt_reads : (issuerJwt issuer token).ReadsAlike :=
  fun _ _ _ _ _ h => (Option.filter_eq_some_iff.mp h).1

/-- The token of the front door is as it should be. -/
theorem issuerJwt_right : Right (issuerJwt issuer token) (fun _ => ()) (issuerEnv issuer) .front token
    (issuerClaims issuer) where
  issuer := rfl
  fits := by
    refine ⟨⟨["alitellm"], rfl, List.mem_singleton.mpr rfl⟩, ?_⟩
    show (subject textAccessors "" (issuerClaims issuer)).isSome = true
    unfold subject
    rw [if_pos (.inl rfl)]
    rfl
  genuine := by
    intro expected audience hiss hnames
    obtain ⟨auds, hauds, hmem⟩ := hnames
    have hread : (issuerJwt issuer token).parseUnverified token = some (issuerClaims issuer) :=
      if_pos rfl
    change textAccessors.getIssuer (issuerClaims issuer) = some expected at hiss
    change textAccessors.getAudience (issuerClaims issuer) = some auds at hauds
    refine Option.filter_eq_some_iff.mpr ⟨hread, ?_⟩
    rw [hiss, hauds]
    simpa using hmem

end

/-- An issuer without a slash is trusted. -/
theorem trusted_accepted_sample :
    ((stack (fun _ => ()) (issuerEnv "https://as.example") (by decide +kernel)).verify
      (issuerJwt "https://as.example" sampleToken) sampleToken).isSome = true :=
  (trusted_accepted_iff issuerJwt_issuer issuerJwt_audience issuerJwt_reads (by decide +kernel)
    (by decide) issuerJwt_right).mpr ⟨by decide +kernel, fun heq => absurd heq (by decide +kernel)⟩

/-- An issuer with a slash is not, whatever its token says. -/
theorem slash_rejected :
    Right (issuerJwt "https://as.example/" slashToken) (fun _ => ()) (issuerEnv "https://as.example/")
      .front slashToken (issuerClaims "https://as.example/") ∧
    (stack (fun _ => ()) (issuerEnv "https://as.example/") (by decide +kernel)).verify
      (issuerJwt "https://as.example/" slashToken) slashToken = none :=
  ⟨issuerJwt_right, by decide +kernel⟩

end AlitellmAuth.Authz
