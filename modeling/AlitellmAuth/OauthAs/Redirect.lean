import AlitellmAuth.Framework.Url
import AlitellmAuth.OauthAs.Records

/-! # Redirect URIs and PKCE

    The checks on redirect URIs at registration, at `/oauth/authorize` and at
    `/oauth/token`, and the proof key check of the code grant.
-/

namespace AlitellmAuth

open Url

/-! ## Redirect URIs -/

/-- `_is_loopback`. Reading the port of a parsed URI may raise; the URI is
    then no loopback URI. -/
def is_loopback (redirect_uri : String) : Bool :=
  match urlparse redirect_uri with
  | none => false
  | some parsed =>
      parsed.scheme == "http" && parsed.port.isSome &&
        (parsed.hostname == some "127.0.0.1" || parsed.hostname == some "localhost" ||
          parsed.hostname == some "::1")

/-- `_redirect_allowed`. -/
def redirect_allowed (redirect_uri : String) : Bool :=
  match urlparse redirect_uri with
  | none => false
  | some parsed =>
      if parsed.port.isNone then false
      else if parsed.fragment != "" || redirect_uri.toList.contains '#' ||
          parsed.username.isSome || parsed.password.isSome then false
      else parsed.scheme == "https" && parsed.hostname.isSome || is_loopback redirect_uri

/-- The components `_redirect_matches` compares: all but scheme and port. -/
def compared (p : Parsed) :
    Option String × String × String × String × String × Option String × Option String :=
  (p.hostname, p.path, p.params, p.query, p.fragment, p.username, p.password)

/-- `_redirect_matches`: equal, or loopback URIs that differ in the port. -/
def redirect_matches (registered presented : String) : Bool :=
  if registered = presented then true
  else if !(is_loopback registered && is_loopback presented) then false
  else
    match urlparse registered, urlparse presented with
    | some a, some b => compared a == compared b
    | _, _ => false

/-- A redirect URI that matches one that matches a registered URI matches the
    registered URI. -/
theorem redirect_matches_trans {a b c : String} (hab : redirect_matches a b = true)
    (hbc : redirect_matches b c = true) : redirect_matches a c = true := by
  by_cases hab' : a = b
  · rw [hab']; exact hbc
  by_cases hbc' : b = c
  · rw [← hbc']; exact hab
  by_cases hac : a = c
  · simp [redirect_matches, hac]
  simp only [redirect_matches, hab', hbc', hac, if_false] at hab hbc ⊢
  -- three different texts: both pairs are loopback and equal up to the port
  split at hab
  · cases hab
  split at hbc
  · cases hbc
  next ha hc =>
  simp only [Bool.not_eq_true', Bool.not_eq_false, Bool.and_eq_true] at ha hc
  rw [if_neg (by simp [ha.1, hc.2])]
  split at hab
  · next pa pb hpa hpb =>
    rw [hpb] at hbc
    split at hbc
    · next pb' pc heq hpc =>
      cases heq
      rw [hpa, hpc]
      simp only [beq_iff_eq] at hab hbc ⊢
      exact hab.trans hbc
    · cases hbc
  · cases hab

/-! ## PKCE -/

/-- The digit of URL-safe base64 for a six-bit value. -/
def base64Digit (n : Nat) : Char :=
  if n < 26 then Char.ofNat ('A'.toNat + n)
  else if n < 52 then Char.ofNat ('a'.toNat + (n - 26))
  else if n < 62 then Char.ofNat ('0'.toNat + (n - 52))
  else if n = 62 then '-' else '_'

/-- `base64.urlsafe_b64encode(bytes).rstrip(b"=")`. -/
def urlsafe_b64encode : List UInt8 → List Char
  | [] => []
  | [a] => [base64Digit (a.toNat / 4), base64Digit (a.toNat % 4 * 16)]
  | [a, b] =>
      [base64Digit (a.toNat / 4), base64Digit (a.toNat % 4 * 16 + b.toNat / 16),
        base64Digit (b.toNat % 16 * 4)]
  | a :: b :: c :: rest =>
      base64Digit (a.toNat / 4) :: base64Digit (a.toNat % 4 * 16 + b.toNat / 16) ::
        base64Digit (b.toNat % 16 * 4 + c.toNat / 64) :: base64Digit (c.toNat % 64) ::
        urlsafe_b64encode rest

/-- The S256 transformation of a verifier, whose characters are all ASCII. -/
def s256 (sha256 : List UInt8 → List UInt8) (verifier : String) : String :=
  String.ofList (urlsafe_b64encode (sha256 (verifier.toList.map fun c => UInt8.ofNat c.toNat)))

/-- The unreserved characters a code verifier consists of. -/
def isVerifierChar (c : Char) : Bool :=
  isAsciiLetter c || isDigit c || c == '.' || c == '_' || c == '~' || c == '-'

/-- `_pkce_ok`. -/
def pkce_ok (sha256 : List UInt8 → List UInt8) (challenge verifier : String) : Bool :=
  43 ≤ verifier.toList.length && verifier.toList.length ≤ 128 &&
    verifier.toList.all isVerifierChar && challenge == s256 sha256 verifier

/-- The form of a code challenge `/oauth/authorize` requires. -/
def isChallenge (challenge : String) : Bool :=
  challenge.toList.length == 43 &&
    challenge.toList.all fun c => isAsciiLetter c || isDigit c || c == '_' || c == '-'

end AlitellmAuth
