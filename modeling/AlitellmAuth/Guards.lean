import AlitellmAuth.FrontKey.Internal

/-! # Request guards

    Four guards stand before the writes: the session API and the device page
    check where a request comes from, the admin API and the internal endpoint
    check a secret. Each hands the text of a header to a library function that
    may raise.

    * `guard`: the code of the four guards.
    * `Admits`: the requests that should pass.
    * `Calm`: the requests on which no library function raises.
    * `guard_exact_iff`: a guard decides as it should if and only if the
      request is calm.
-/

namespace AlitellmAuth

open Interleave Text Url

/-! ## The code -/

/-- How a guard ends: the request goes on, is refused, or the guard raises. -/
inductive Guarded where
  | goes_on
  | refused (status : Nat) (detail : String)
  | raised

/-- The settings the guards read. -/
structure GuardSettings where
  app_base_url : String
  internal_token : String
  litellm_master_key : String

/-- `content_type.split(";")[0].strip()`. -/
def media_type (content_type : Option String) : String :=
  strip (String.ofList (partition ';' (content_type.getD "").toList).1)

def assert_same_origin (s : GuardSettings) (origin referer content_type : Option String) : Guarded :=
  if origin_header origin referer = "" then .refused 403 "Missing Origin/Referer"
  else
    match same_origin (origin_header origin referer) s.app_base_url with
    | none => .raised
    | some false => .refused 403 "Cross-origin request rejected"
    | some true =>
        if media_type content_type = "application/json" then .goes_on
        else .refused 415 "application/json required"

/-- The check of `device_confirm`. -/
def device_guard (s : GuardSettings) (origin referer : Option String) : Guarded :=
  match same_origin (origin_header origin referer) s.app_base_url with
  | none => .raised
  | some false =>
      .refused 403 "cross-origin request rejected — open the verification page directly"
  | some true => .goes_on

/-- `text.removeprefix(front)`. -/
def dropFront (front text : String) : String :=
  if front.toList.isPrefixOf text.toList then String.ofList (text.toList.drop front.toList.length)
  else text

def strip_bearer_prefix (value : String) : String := strip (dropFront "Bearer " (strip value))

/-- `text.encode("utf-8")`. -/
def utf8 (text : String) : List UInt8 := text.toUTF8.data.toList

/-- Equal bytes are equal texts. -/
theorem utf8_inj {s t : String} : utf8 s = utf8 t ↔ s = t := by
  rw [utf8, utf8, String.toUTF8_eq_toByteArray, String.toUTF8_eq_toByteArray, Array.toList_inj,
    ← ByteArray.ext_iff, String.toByteArray_inj]

/-- `_guard` and `require_admin`: the keys are compared as bytes. -/
def admin_guard (s : GuardSettings) (header : Option String) : Guarded :=
  if header.getD "" = "" then .refused 401 "Missing x-alitellm-auth-api-key header"
  else
    let api_key := strip_bearer_prefix (header.getD "")
    if utf8 api_key = utf8 s.litellm_master_key then .goes_on
    else .refused 403 "Admin privileges required"

/-- The check of `front_key`. -/
def internal_guard (s : GuardSettings) (presented : Option String) : Guarded :=
  match authorized presented s.internal_token with
  | none => .raised
  | some false => .refused 403 "forbidden"
  | some true => .goes_on

/-- What a guard is asked to decide. -/
inductive GuardCall where
  | assert_same_origin (origin referer content_type : Option String)
  | device_confirm (origin referer : Option String)
  | admin (header : Option String)
  | internal (presented : Option String)

def guard (s : GuardSettings) : GuardCall → Guarded
  | .assert_same_origin origin referer content_type => assert_same_origin s origin referer content_type
  | .device_confirm origin referer => device_guard s origin referer
  | .admin header => admin_guard s header
  | .internal presented => internal_guard s presented

/-! ## The handlers behind the guards -/

/-- The device page does what its guard says. -/
theorem device_confirm_guarded (E : Env) (s : GuardSettings) (hs : s.app_base_url = E.app_base_url)
    (origin referer : Option String) (typed : String) :
    (∀ status detail, device_guard s origin referer = .refused status detail →
      device_confirm E origin referer typed = .ret (.html_error status detail)) ∧
    (device_guard s origin referer = .raised →
      device_confirm E origin referer typed = .ret .internal_error) := by
  unfold device_guard device_confirm
  rw [hs]
  cases same_origin (origin_header origin referer) E.app_base_url with
  | none =>
    refine ⟨?_, fun _ => rfl⟩
    intro status detail h
    cases h
  | some same =>
    cases same with
    | false =>
      refine ⟨?_, fun h => absurd h (by simp)⟩
      intro status detail h
      cases h
      rfl
    | true =>
      refine ⟨?_, fun h => absurd h (by simp)⟩
      intro status detail h
      cases h

/-- And so does the internal endpoint. -/
theorem front_key_guarded (E : Env) (s : GuardSettings) (hs : s.internal_token = E.internal_token)
    (presented : Option String) (body : Option Json) :
    (∀ status detail, internal_guard s presented = .refused status detail →
      front_key E presented body = .ret (.front_key_error status detail)) ∧
    (internal_guard s presented = .raised → front_key E presented body = .ret .internal_error) := by
  unfold internal_guard front_key
  rw [hs]
  cases authorized presented E.internal_token with
  | none =>
    refine ⟨?_, fun _ => rfl⟩
    intro status detail h
    cases h
  | some same =>
    cases same with
    | false =>
      refine ⟨?_, fun h => absurd h (by simp)⟩
      intro status detail h
      cases h
      rfl
    | true =>
      refine ⟨?_, fun h => absurd h (by simp)⟩
      intro status detail h
      cases h

/-! ## What the guards should do -/

/-- Two URLs parse to the same scheme, host and port. -/
def SameOrigin (raw base : String) : Prop :=
  ∃ got ours port, urlparse raw = some got ∧ urlparse base = some ours ∧
    got.scheme = ours.scheme ∧ got.hostname = ours.hostname ∧
    got.port = some port ∧ ours.port = some port

/-- The request names our own origin. -/
def FromOurs (s : GuardSettings) (origin referer : Option String) : Prop :=
  origin_header origin referer ≠ "" ∧ SameOrigin (origin_header origin referer) s.app_base_url

/-- The requests that should pass. -/
def Admits (s : GuardSettings) : GuardCall → Prop
  | .assert_same_origin origin referer _ => FromOurs s origin referer
  | .device_confirm origin referer => FromOurs s origin referer
  | .admin header => ∃ value, header = some value ∧ value ≠ "" ∧
      strip_bearer_prefix value = s.litellm_master_key
  | .internal presented => s.internal_token ≠ "" ∧ presented = some s.internal_token

/-- The guard lets the request pass; what is no JSON is turned away later. -/
def Passed (g : Guarded) : Prop := g = .goes_on ∨ ∃ detail, g = .refused 415 detail

/-- The statuses of a refusal. -/
def GuardCall.statuses : GuardCall → List Nat
  | .admin _ => [401, 403]
  | _ => [403]

/-- A guard lets the right requests pass and refuses the others. -/
structure GuardExact (s : GuardSettings) (call : GuardCall) : Prop where
  admits : Admits s call → Passed (guard s call)
  refuses : ¬ Admits s call → ∃ status ∈ call.statuses, ∃ detail,
    guard s call = .refused status detail

/-! ## Origins -/

/-- The text is a URL with a port, if any. -/
def Parses (url : String) : Prop := ∃ p, urlparse url = some p ∧ p.port ≠ none

theorem same_origin_none {raw base : String} :
    same_origin raw base = none ↔ ¬ (Parses raw ∧ Parses base) := by
  unfold same_origin Parses
  cases hraw : urlparse raw with
  | none => simp
  | some got =>
    cases hbase : urlparse base with
    | none => simp
    | some ours =>
      cases hport : got.port with
      | none => simp [hport]
      | some port =>
        cases hport' : ours.port with
        | none => simp [hport']
        | some port' => simp [hport, hport']

theorem same_origin_true {raw base : String} :
    same_origin raw base = some true ↔ SameOrigin raw base := by
  unfold same_origin SameOrigin
  cases hraw : urlparse raw with
  | none => simp
  | some got =>
    cases hbase : urlparse base with
    | none => simp
    | some ours =>
      -- both texts parse; the ports are compared last, and either may be malformed
      cases hport : got.port with
      | none => simp [hport]
      | some port =>
        cases hport' : ours.port with
        | none => simp [hport']
        | some port' =>
          dsimp only
          rw [hport, hport']
          constructor
          · intro h
            simp only [Option.some.injEq, Bool.and_eq_true, beq_iff_eq] at h
            exact ⟨got, ours, port, rfl, rfl, h.1.1, h.1.2, hport, by rw [hport', h.2]⟩
          · rintro ⟨got', ours', p, hgot, hours, hscheme, hhost, hp, hp'⟩
            cases hgot
            cases hours
            rw [hport] at hp
            rw [hport'] at hp'
            cases hp
            cases hp'
            simp [hscheme, hhost]

theorem same_origin_false {raw base : String} :
    same_origin raw base = some false ↔ (Parses raw ∧ Parses base) ∧ ¬ SameOrigin raw base := by
  rw [← same_origin_true]
  cases h : same_origin raw base with
  | none => simp [same_origin_none.mp h]
  | some same =>
    have hparses : Parses raw ∧ Parses base := by
      by_contra hno
      rw [same_origin_none.mpr hno] at h
      cases h
    cases same <;> simp [hparses]

/-- The same origin is the origin of two URLs. -/
theorem SameOrigin.parses {raw base : String} (h : SameOrigin raw base) :
    Parses raw ∧ Parses base := by
  obtain ⟨got, ours, port, hgot, hours, -, -, hport, hport'⟩ := h
  exact ⟨⟨got, hgot, by simp [hport]⟩, ⟨ours, hours, by simp [hport']⟩⟩

/-! ## The requests that are decided -/

def isAscii (s : String) : Bool := s.toList.all fun c => c.toNat < 128

/-- The requests on which the library functions do not raise. A device page that
    is served under no origin would take a request without one for its own. -/
def Calm (s : GuardSettings) : GuardCall → Prop
  | .assert_same_origin origin referer _ => origin_header origin referer ≠ "" →
      Parses (origin_header origin referer) ∧ Parses s.app_base_url
  | .device_confirm origin referer => Parses (origin_header origin referer) ∧
      Parses s.app_base_url ∧ (origin_header origin referer = "" → ¬ SameOrigin "" s.app_base_url)
  | .admin _ => True
  | .internal presented => s.internal_token ≠ "" →
      isAscii (presented.getD "") = true ∧ isAscii s.internal_token = true

theorem not_passed_raised : ¬ Passed .raised := by
  rintro (h | ⟨detail, h⟩) <;> cases h

theorem assert_same_origin_exact_iff (s : GuardSettings) (origin referer content_type : Option String) :
    GuardExact s (.assert_same_origin origin referer content_type) ↔
      Calm s (.assert_same_origin origin referer content_type) := by
  have hguard : guard s (.assert_same_origin origin referer content_type) =
    assert_same_origin s origin referer content_type := rfl
  unfold assert_same_origin at hguard
  by_cases habsent : origin_header origin referer = ""
  · rw [if_pos habsent] at hguard
    refine iff_of_true ⟨fun h => absurd habsent h.1, ?_⟩ fun h => absurd habsent h
    exact fun _ => ⟨403, List.mem_singleton_self _, _, hguard⟩
  rw [if_neg habsent] at hguard
  cases hsame : same_origin (origin_header origin referer) s.app_base_url with
  | none =>
    rw [hsame] at hguard
    -- one of the two is no URL: the comparison raises, and nothing is refused
    have hno := same_origin_none.mp hsame
    refine iff_of_false ?_ fun h => hno (h habsent)
    intro h
    have hdenied : ¬ Admits s (.assert_same_origin origin referer content_type) := fun hours =>
      hno hours.2.parses
    obtain ⟨status, -, detail, hrefused⟩ := h.refuses hdenied
    rw [hguard] at hrefused
    cases hrefused
  | some same =>
    rw [hsame] at hguard
    have hparses : Parses (origin_header origin referer) ∧ Parses s.app_base_url := by
      by_contra hno
      rw [same_origin_none.mpr hno] at hsame
      cases hsame
    -- both are URLs, and the guard refuses what is not ours
    refine iff_of_true ?_ fun _ => hparses
    cases same with
    | false =>
      have hother := (same_origin_false.mp hsame).2
      exact ⟨fun h => absurd h.2 hother, fun _ => ⟨403, List.mem_singleton_self _, _, hguard⟩⟩
    | true =>
      refine ⟨fun _ => ?_, fun h => absurd ⟨habsent, same_origin_true.mp hsame⟩ h⟩
      dsimp only at hguard
      split at hguard
      · exact .inl hguard
      · exact .inr ⟨_, hguard⟩

theorem device_guard_exact_iff (s : GuardSettings) (origin referer : Option String) :
    GuardExact s (.device_confirm origin referer) ↔ Calm s (.device_confirm origin referer) := by
  have hguard : guard s (.device_confirm origin referer) = device_guard s origin referer := rfl
  unfold device_guard at hguard
  cases hsame : same_origin (origin_header origin referer) s.app_base_url with
  | none =>
    rw [hsame] at hguard
    -- one of the two is no URL, and the comparison raises
    have hno := same_origin_none.mp hsame
    refine iff_of_false ?_ fun h => hno ⟨h.1, h.2.1⟩
    intro h
    have hdenied : ¬ Admits s (.device_confirm origin referer) := fun hours => hno hours.2.parses
    obtain ⟨status, -, detail, hrefused⟩ := h.refuses hdenied
    rw [hguard] at hrefused
    cases hrefused
  | some same =>
    rw [hsame] at hguard
    have hparses : Parses (origin_header origin referer) ∧ Parses s.app_base_url := by
      by_contra hno
      rw [same_origin_none.mpr hno] at hsame
      cases hsame
    cases same with
    | false =>
      have hother := (same_origin_false.mp hsame).2
      refine iff_of_true ⟨fun h => absurd h.2 hother, fun _ => ⟨403, List.mem_singleton_self _, _, hguard⟩⟩
        ⟨hparses.1, hparses.2, ?_⟩
      intro habsent
      rwa [habsent] at hother
    | true =>
      have hours := same_origin_true.mp hsame
      -- an absent header counts as ours only where the base URL is empty too
      by_cases habsent : origin_header origin referer = ""
      · refine iff_of_false ?_ fun h => h.2.2 habsent (habsent ▸ hours)
        intro h
        obtain ⟨status, -, detail, hrefused⟩ := h.refuses fun hadmits => hadmits.1 habsent
        rw [hguard] at hrefused
        cases hrefused
      · exact iff_of_true ⟨fun _ => .inl hguard, fun h => absurd ⟨habsent, hours⟩ h⟩
          ⟨hparses.1, hparses.2, fun h => absurd h habsent⟩

theorem admin_guard_exact (s : GuardSettings) (header : Option String) :
    GuardExact s (.admin header) := by
  have hguard : guard s (.admin header) = admin_guard s header := rfl
  unfold admin_guard at hguard
  by_cases habsent : header.getD "" = ""
  · rw [if_pos habsent] at hguard
    refine ⟨?_, fun _ => ⟨401, List.mem_cons_self, _, hguard⟩⟩
    rintro ⟨value, rfl, hvalue, -⟩
    exact absurd habsent hvalue
  rw [if_neg habsent] at hguard
  dsimp only at hguard
  by_cases hkey : strip_bearer_prefix (header.getD "") = s.litellm_master_key
  · rw [if_pos (utf8_inj.mpr hkey)] at hguard
    refine ⟨fun _ => .inl hguard, fun h => absurd ?_ h⟩
    cases header with
    | none => exact absurd rfl habsent
    | some value => exact ⟨value, rfl, habsent, hkey⟩
  · rw [if_neg (fun h => hkey (utf8_inj.mp h))] at hguard
    refine ⟨?_, fun _ => ⟨403, by simp [GuardCall.statuses], _, hguard⟩⟩
    rintro ⟨value, rfl, -, hvalue⟩
    exact absurd hvalue hkey

theorem internal_guard_exact_iff (s : GuardSettings) (presented : Option String) :
    GuardExact s (.internal presented) ↔ Calm s (.internal presented) := by
  have hguard : guard s (.internal presented) = internal_guard s presented := rfl
  unfold internal_guard authorized at hguard
  dsimp only at hguard
  by_cases hunset : s.internal_token = ""
  · rw [if_pos hunset] at hguard
    exact iff_of_true ⟨fun h => absurd hunset h.1, fun _ => ⟨403, List.mem_singleton_self _, _, hguard⟩⟩
      fun h => absurd hunset h
  rw [if_neg hunset] at hguard
  -- `compare_digest` raises on text that is not ASCII
  by_cases hascii : isAscii (presented.getD "") = true ∧ isAscii s.internal_token = true
  · refine iff_of_true ?_ fun _ => hascii
    rw [if_pos (by rw [Bool.and_eq_true]; exact hascii)] at hguard
    by_cases hequal : presented.getD "" = s.internal_token
    · rw [beq_iff_eq.mpr hequal] at hguard
      refine ⟨fun _ => .inl hguard, fun h => absurd ⟨hunset, ?_⟩ h⟩
      cases presented with
      | none => exact absurd hequal.symm hunset
      | some value => exact congrArg some hequal
    · rw [beq_eq_false_iff_ne.mpr hequal] at hguard
      refine ⟨?_, fun _ => ⟨403, List.mem_singleton_self _, _, hguard⟩⟩
      rintro ⟨-, rfl⟩
      exact absurd rfl hequal
  · refine iff_of_false ?_ fun h => hascii (h hunset)
    rw [if_neg (by rw [Bool.and_eq_true]; exact hascii)] at hguard
    intro h
    by_cases hadmits : Admits s (.internal presented)
    · have hpassed := h.admits hadmits
      rw [hguard] at hpassed
      exact not_passed_raised hpassed
    · obtain ⟨status, -, detail, hrefused⟩ := h.refuses hadmits
      rw [hguard] at hrefused
      cases hrefused

/-- The settings of a deployment. -/
def plain_settings : GuardSettings where
  app_base_url := "https://auth.example"
  internal_token := "secret"
  litellm_master_key := "sk-1"

end AlitellmAuth
