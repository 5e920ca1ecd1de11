import AlitellmAuth.System
import AlitellmAuth.Authz.Jwt

/-! # One person, one front key

    The name of a user's front key is derived from the email claim of the
    identity provider on three paths: the console keeps the claim as it is, the
    gateway and the client configuration see what the authorization server has
    made of it. `front_key_names_agree` says for which claims they agree.
-/

namespace AlitellmAuth

open Interleave Text

/-! ## The three names -/

/-- The front key a handler asks the store for. -/
def asked_for (p : P Response) : Option String :=
  match p.awaiting with
  | some (.get .frontkey name) => some name
  | _ => none

/-- The email that `auth_callback` puts into the session; none where it refuses
    the login. -/
def session_email (userinfo : Option UserInfo) : Option String :=
  match userinfo.bind (·.email) with
  | some email => if email = "" then none else some email
  | none => none

/-- The console: `_user_key` for the email of the session. -/
def console_name (userinfo : Option UserInfo) : Option String :=
  (session_email userinfo).bind fun email => asked_for (user_key email)

/-- The `sub` of the tokens of a login; none where `as_callback` refuses it. -/
def token_sub (userinfo : Option UserInfo) : Option String :=
  if normalized_email userinfo = "" then none else some (normalized_email userinfo)

/-- The claims of an access token for `sub`, as the proxy reads them. -/
def access_claims (E : Env) (sub : String) : Authz.MapClaims :=
  [("iss", .str E.as_issuer), ("aud", .str E.as_audience), ("sub", .str sub)]

/-- The gateway: the proxy takes the subject from the token and sends it to
    `POST /api/internal/front-key`. -/
def gateway_name (E : Env) (go : Authz.Accessors) (userinfo : Option UserInfo) : Option String := do
  let sub ← token_sub userinfo
  let subject ← Authz.subject go "" (access_claims E sub)
  asked_for (front_key E (some E.internal_token) (some (.obj [("sub", .str subject)])))

/-- `GET /clients/opencode/config`: the verified `sub`. -/
def opencode_name (userinfo : Option UserInfo) : Option String := do
  let sub ← token_sub userinfo
  asked_for (opencode_config sub)

/-! ## Agreement -/

section
variable {E : Env} {go : Authz.Accessors} {email : String}

theorem asked_for_user_key : asked_for (user_key email) = some email := rfl

theorem asked_for_opencode_config : asked_for (opencode_config email) = some email := rfl

theorem asked_for_front_key (htoken : authorized (some E.internal_token) E.internal_token = some true)
    (hsub : lower (strip email) ≠ "") :
    asked_for (front_key E (some E.internal_token) (some (.obj [("sub", .str email)]))) =
      some (lower (strip email)) := by
  have hbody : body_sub E (some (.obj [("sub", .str email)])) = some email := rfl
  rw [front_key, htoken]
  simp only [hbody, if_neg hsub]
  rfl

theorem subject_of_sub (hsub : email ≠ "") :
    Authz.subject go "" (access_claims E email) = some (goToLower email) := by
  have hget : go.getSubject (access_claims E email) = some email := go.getSubject_text _ _ rfl
  rw [Authz.subject, if_pos (.inl rfl), hget]
  simp only [if_neg hsub]

end

/-- The console, the gateway and the client configuration use one front key
    for a person just if the email claim is trimmed and in lower case. -/
theorem front_key_names_agree (E : Env) (go : Authz.Accessors)
    (htoken : authorized (some E.internal_token) E.internal_token = some true)
    (email : String) (name : Option String) (groups : Json) :
    (console_name (some ⟨some email, name, groups⟩) =
        gateway_name E go (some ⟨some email, name, groups⟩) ∧
      gateway_name E go (some ⟨some email, name, groups⟩) =
        opencode_name (some ⟨some email, name, groups⟩)) ↔
    lower (strip email) = email := by
  have hnorm : normalized_email (some ⟨some email, name, groups⟩) = lower (strip email) := rfl
  have hconsole : console_name (some ⟨some email, name, groups⟩) =
      if email = "" then none else some email := by
    rw [console_name, session_email]
    simp only [Option.bind_some]
    split
    · rfl
    · exact asked_for_user_key
  have hopencode : opencode_name (some ⟨some email, name, groups⟩) =
      if lower (strip email) = "" then none else some (lower (strip email)) := by
    rw [opencode_name, token_sub, hnorm]
    split
    · rfl
    · exact asked_for_opencode_config
  rw [hconsole, hopencode]
  constructor
  -- the console keeps the email, opencode normalises it
  · rintro ⟨hleft, hright⟩
    have hboth := hleft.trans hright
    split at hboth
    · next hempty =>
      rw [hempty]
      decide
    · split at hboth
      · cases hboth
      · exact (Option.some.inj hboth).symm
  · intro hfixed
    obtain ⟨-, hlower⟩ := fixed_of_lower_strip hfixed
    have hgateway : gateway_name E go (some ⟨some email, name, groups⟩) =
        if email = "" then none else some email := by
      rw [gateway_name, token_sub, hnorm, hfixed]
      -- without an email there is no subject, and none of the three asks
      by_cases hempty : email = ""
      · rw [if_pos hempty]
        rfl
      · have hsub : lower (strip email) ≠ "" := by
          rw [hfixed]
          exact hempty
        rw [if_neg hempty]
        show (Authz.subject go "" (access_claims E email)).bind _ = _
        rw [subject_of_sub hempty, hlower, Option.bind_some, asked_for_front_key htoken hsub, hfixed]
    rw [hgateway, hfixed]
    exact ⟨rfl, rfl⟩

/-- A claim as most providers return it. -/
theorem front_key_names_agree_sample :
    console_name (some ⟨some "ann@example.com", none, .null⟩) =
      gateway_name sample Authz.textAccessors (some ⟨some "ann@example.com", none, .null⟩) :=
  ((front_key_names_agree sample Authz.textAccessors (by decide) "ann@example.com" none .null).mpr (by decide +kernel)).1

/-- One with capitals. -/
theorem front_key_names_differ :
    console_name (some ⟨some "Ann@Example.com", none, .null⟩) = some "Ann@Example.com" ∧
    gateway_name sample Authz.textAccessors (some ⟨some "Ann@Example.com", none, .null⟩) =
      some "ann@example.com" ∧
    opencode_name (some ⟨some "Ann@Example.com", none, .null⟩) = some "ann@example.com" := by
  refine ⟨by decide +kernel, by decide +kernel, by decide +kernel⟩

end AlitellmAuth
