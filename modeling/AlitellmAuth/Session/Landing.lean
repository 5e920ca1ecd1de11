import AlitellmAuth.Framework.Parts
import AlitellmAuth.FrontKey.Internal
import AlitellmAuth.Session.Minted

/-! # Where keys land

    Three calls put a key into a team: a key is minted in the console, moved in
    the console, or minted as the front key of a user.

    * `resolve_front_key`: the third one, with its requests to LiteLLM.
    * `Lands`: the team is one the user may use, and a mint has made sure that
      it is there.
    * `Misread`: LiteLLM has sent memberships that are no list, and they were
      read off a text or a dictionary.
    * `keys_land`: every run of the three, as long as nothing is misread.
-/

namespace AlitellmAuth.Session

open Interleave Text Litellm

/-! ## The calls -/

/-- The remote parties: LiteLLM, request by request, and the timer. -/
inductive Outer where
  | litellm (call : Call)
  | sleep

abbrev Outer.Reply : Outer → Type
  | .litellm _ => HttpReply
  | .sleep => Unit

abbrev KeyOp := Op Kind Kind.Rec Outer

abbrev KeyAns : KeyOp → Type := Op.Ans Outer.Reply

abbrev KeyEvent := Event KeyOp KeyAns

abbrev KeyTrace := Trace KeyOp KeyAns

/-- A program of these calls. -/
abbrev K (α : Type) := Prog KeyOp KeyAns α

/-- Await one operation. -/
abbrev await (op : KeyOp) : K (KeyAns op) := Prog.await op

/-- `store.get("frontkey", sub)`. -/
abbrev stored_key (sub : String) : K (Option FrontKey) := await (.get .frontkey sub)

/-- The exchange with LiteLLM, if the event is one. -/
def litellm_event : KeyEvent → Option LEvent
  | ⟨.ext (.litellm call), reply⟩ => some ⟨call, reply⟩
  | _ => none

/-- LiteLLM among the parties. -/
def to_litellm : Part Call HttpAns KeyOp KeyAns where
  into call := .ext (.litellm call)
  back _ reply := reply
  seen := litellm_event
  seen_into _ _ := rfl

/-- A client function among other operations. -/
def client {α : Type} (p : L α) : K (Except Failure α) := p.run.embed to_litellm

section
variable (settings : LitellmSettings) (sha256 : String → String)

/-- `_key_alive`: `none` where an exception escapes that is no HTTP error. -/
def key_alive (key : String) : K (Option Bool) := do
  match ← client (get_key_info settings sha256 key) with
  | .ok _ => return some true
  | .error (.status _ resp) => return some (500 ≤ resp.status_code)
  | .error .transport => return some true
  | .error _ => return none

def FRONT_ALIAS : String := "front"

/-- The `try` block of `resolve_front_key`. A minted key that is no string
    cannot be encoded and raises; its id is always a text. -/
def mint (sub : String) (moment : Moment) : K FrontKeyResult := do
  match ← stored_key sub with
  | some record => return .key record.enc.plain
  | none =>
      match ← client (generate_litellm_key settings sha256 sub none none (some FRONT_ALIAS) none
        moment) with
      | .ok minted =>
          match minted.key with
          | .str key => do
              let id := match minted.id with
                | .str id => some id
                | _ => none
              await (.put .frontkey sub { enc := ⟨key⟩, id } none)
              return .key key
          | _ => return .crashed
      | .error (.status ..) => return .unavailable
      | .error .transport => return .unavailable
      | .error _ => return .crashed

/-- `resolve_front_key` from the lock on. -/
def mint_locked (sub : String) (moment : Moment) : K FrontKeyResult := do
  let acquired ← await (.acquire (mint_lock sub) MINT_LOCK_TTL)
  if !acquired then do
    await (.ext .sleep)
    match ← stored_key sub with
    | some record => return .key record.enc.plain
    | none => return .mint_in_progress
  else do
    let result ← mint settings sha256 sub moment
    await (.release (mint_lock sub))
    return result

/-- `resolve_front_key`. -/
def resolve_front_key (sub : String) (moment : Moment) : K FrontKeyResult := do
  match ← stored_key sub with
  | none => mint_locked settings sha256 sub moment
  | some record => do
      match ← key_alive settings sha256 record.enc.plain with
      | none => return .crashed
      | some true => return .key record.enc.plain
      | some false => do
          let _ ← await (.pop .frontkey sub)
          mint_locked settings sha256 sub moment

/-- A call that can put a key into a team. `rejected` is what
    `assert_same_origin` raises, and a body is `none` if it does not validate. -/
inductive KeyRequest where
  | create (rejected : Option Answer) (email name : String) (body : Option CreateKeyBody)
      (moment : Moment)
  | move (rejected : Option Answer) (email key_id : String) (body : Option String)
  | front (sub : String) (moment : Moment)

/-- The authenticated user. -/
def KeyRequest.email : KeyRequest → String
  | .create _ email _ _ _ => email
  | .move _ email _ _ => email
  | .front sub _ => sub

/-- The team the body asks for, trimmed. -/
def KeyRequest.asks : KeyRequest → Option String
  | .create _ _ _ body _ => body.bind fun body => body.team_id.map strip
  | .move _ _ _ body => body.map strip
  | .front .. => none

/-- How a call ends. -/
inductive KeyResult where
  | answer (answer : Answer)
  | front (result : FrontKeyResult)

/-- The program of a call. -/
def serve (chars : CharClasses) : KeyRequest → K KeyResult
  | .create rejected email name body moment => do
      let answer ← (respond (session_create_key settings sha256 chars rejected email name body
        moment)).embed to_litellm
      return .answer answer
  | .move rejected email key_id body => do
      let answer ← (respond (session_change_key_team settings sha256 rejected email key_id
        body)).embed to_litellm
      return .answer answer
  | .front sub moment => do
      let result ← resolve_front_key settings sha256 sub moment
      return .front result

end

/-! ## Where a key may go -/

/-- The `teams` in the body of `/user/info`. -/
def teams_of : Json → Json
  | .obj fields =>
      match field fields "user_info" with
      | .obj info => field info "teams"
      | _ => .null
  | _ => .null

/-- In this trace LiteLLM has listed the team among the memberships of the
    user. -/
def ListedIn (email id : String) (tr : LTrace) : Prop :=
  ∃ resp value items, (⟨.user_info email, .response resp⟩ : LEvent) ∈ tr ∧
    resp.is_success = true ∧ resp.json = some value ∧ teams_of value = .arr items ∧
    ∃ t ∈ items, membership_id t = .str id

/-- In this trace LiteLLM was asked to create the team, and has answered that
    it did or that the team exists. -/
def ThereIn (id : String) (tr : LTrace) : Prop :=
  ∃ body resp, (⟨.team_new body, .response resp⟩ : LEvent) ∈ tr ∧
    text_field body "team_id" = some id ∧ (resp.status_code = 200 ∨ already_exists resp = true)

section
variable (settings : LitellmSettings) (email : String)

/-- The teams a user may use. -/
def MayUse (tr : LTrace) (id : String) : Prop :=
  if settings.personal_teams_enabled then id = settings.personal_team_id email
  else id = settings.team_id ∨ ListedIn email id tr

/-- A request that puts a key into a team, and what came before it in the same
    call. -/
def Lands (tr : LTrace) : Call → Prop
  | .key_generate body =>
      ∃ id, text_field body "team_id" = some id ∧ MayUse settings email tr id ∧ ThereIn id tr
  | .key_update _ id => MayUse settings email tr id
  | _ => True

/-- What iterating over something else than a list yields: the characters of a
    text, or the keys of a dictionary. -/
def Scattered (id : String) : Json → Prop
  | .str s => ∃ c ∈ s.toList, id = String.ofList [c]
  | .obj fields => ∃ row ∈ fields, row.1 = id
  | _ => False

/-- In this trace the team was read off memberships that are no list. -/
def MisreadIn (id : String) (tr : LTrace) : Prop :=
  ∃ resp value, (⟨.user_info email, .response resp⟩ : LEvent) ∈ tr ∧
    resp.is_success = true ∧ resp.json = some value ∧ Scattered id (teams_of value)

/-- With personal teams off, the body asks for a team other than the default
    one, and the team is read off memberships that are no list. -/
def Misread (req : KeyRequest) (tr : LTrace) : Prop :=
  settings.personal_teams_enabled = false ∧
    ∃ id, req.asks = some id ∧ id ≠ settings.team_id ∧ MisreadIn req.email id tr

end

/-! ## Memberships -/

section
variable {settings : LitellmSettings} {email : String} {tr tr' : LTrace}

theorem ListedIn.mono {id : String} (h : ListedIn email id tr) (hs : tr ⊆ tr') :
    ListedIn email id tr' := by
  obtain ⟨resp, value, items, hmem, hrest⟩ := h
  exact ⟨resp, value, items, hs hmem, hrest⟩

theorem ThereIn.mono {id : String} (h : ThereIn id tr) (hs : tr ⊆ tr') : ThereIn id tr' := by
  obtain ⟨body, resp, hmem, hrest⟩ := h
  exact ⟨body, resp, hs hmem, hrest⟩

theorem MisreadIn.mono {id : String} (h : MisreadIn email id tr) (hs : tr ⊆ tr') :
    MisreadIn email id tr' := by
  obtain ⟨resp, value, hmem, hrest⟩ := h
  exact ⟨resp, value, hs hmem, hrest⟩

theorem MayUse.mono {id : String} (h : MayUse settings email tr id) (hs : tr ⊆ tr') :
    MayUse settings email tr' id := by
  unfold MayUse at h ⊢
  split
  · next hon => rwa [if_pos hon] at h
  · next hoff =>
    rw [if_neg hoff] at h
    exact h.imp_right fun hlisted => hlisted.mono hs

/-- Every team that is kept stands for a membership. -/
theorem member_teams_mem {aliases : List (Json × Json)} {raw : List Json}
    {out teams : List (Json × Json)} (h : (member_teams aliases raw out).run = .ret (.ok teams))
    {row : Json × Json} (hrow : row ∈ teams) :
    row ∈ out ∨ ∃ t ∈ raw, membership_id t = row.1 := by
  induction raw generalizing out with
  | nil =>
    cases h
    exact .inl hrow
  | cons t raw ih =>
    have hlater : (row ∈ out ∨ ∃ t' ∈ raw, membership_id t' = row.1) →
        row ∈ out ∨ ∃ t' ∈ t :: raw, membership_id t' = row.1 :=
      Or.imp_right fun ⟨t', ht', hid⟩ => ⟨t', List.mem_cons_of_mem _ ht', hid⟩
    rw [member_teams] at h
    dsimp only at h
    split at h
    · exact hlater (ih h)
    · split at h
      · cases h
      · split at h
        · exact hlater (ih h)
        · rcases ih h with hout | hraw
          · rcases List.mem_append.mp hout with hout | hnew
            · exact .inl hout
            · -- the row is the one of `t`
              obtain rfl := List.mem_singleton.mp hnew
              exact .inr ⟨t, List.mem_cons_self, rfl⟩
          · exact hlater (.inr hraw)

/-- What the memberships of a body are iterated from. -/
theorem raw_teams_ok {resp : HttpResponse} {teams : Json}
    (h : (raw_teams resp).run = .ret (.ok teams)) :
    ∃ value, resp.json = some value ∧ (teams = teams_of value ∨ teams = .null) := by
  obtain ⟨value, hvalue, h⟩ := run_bind_ok h
  obtain ⟨user_info, hinfo, h⟩ := run_bind_ok h
  obtain ⟨fields, rfl, rfl⟩ := dict_get_ok hinfo
  refine ⟨_, parsed_ok hvalue, ?_⟩
  split at h
  · obtain ⟨info, hinfo, rfl⟩ := dict_get_ok h
    left
    have hfield : field fields "user_info" = .obj info := hinfo
    unfold teams_of
    dsimp only
    rw [hfield]
    rfl
  · cases h
    exact .inr rfl

/-- An element of the memberships with an id: a membership if they are a list,
    and a character or a key if they are not. -/
theorem iterate_cases {value t : Json} {items : List Json} {id : String}
    (h : (iterate value).run = .ret (.ok items)) (ht : t ∈ items)
    (hid : membership_id t = .str id) :
    (∃ items', value = .arr items' ∧ t ∈ items') ∨ Scattered id value := by
  unfold iterate at h
  split at h
  · cases h
    cases ht
  · cases value with
    | arr items' =>
      cases h
      exact .inl ⟨_, rfl, ht⟩
    | str s =>
      cases h
      obtain ⟨c, hc, rfl⟩ := List.mem_map.mp ht
      exact .inr ⟨c, hc, (Json.str.inj hid).symm⟩
    | obj fields =>
      cases h
      obtain ⟨row, hrow, rfl⟩ := List.mem_map.mp ht
      exact .inr ⟨row, hrow, Json.str.inj hid⟩
    | null | bool | num => cases h

/-- The teams of a user are iterated from an answer of `/user/info`. -/
def IteratedIn (email : String) (teams : List (Json × Json)) (tr : LTrace) : Prop :=
  ∃ resp value raw items, (⟨.user_info email, .response resp⟩ : LEvent) ∈ tr ∧
    resp.is_success = true ∧ resp.json = some value ∧ (raw = teams_of value ∨ raw = .null) ∧
    (iterate raw).run = .ret (.ok items) ∧ ∀ row ∈ teams, ∃ t ∈ items, membership_id t = row.1

theorem list_user_teams_along :
    Prog.Along (fun _ e => Quiet e.1)
      (fun tr' result => tr <:+ tr' ∧ ∀ teams, result = .ok teams → IteratedIn email teams tr') tr
      (list_user_teams email).run := by
  have herr : ∀ {tr' : LTrace} (e : Failure), tr <:+ tr' → tr <:+ tr' ∧
      ∀ teams, (.error e : Except Failure (List (Json × Json))) = .ok teams →
        IteratedIn email teams tr' :=
    fun e hs => ⟨hs, fun teams hok => by cases hok⟩
  intro reply
  refine ⟨rfl, ?_⟩
  have hone : tr <:+ (⟨.user_info email, reply⟩ : LEvent) :: tr := List.suffix_cons _ _
  cases reply with
  | transport_error => exact herr _ hone
  | response info_resp =>
    refine along_still_bind (still_expect _ _ _) (fun _ hexpect => ?_) (fun e => herr e hone)
    intro reply
    refine ⟨rfl, ?_⟩
    have htwo : tr <:+ (⟨.team_list, reply⟩ : LEvent) :: ⟨.user_info email, .response info_resp⟩ :: tr :=
      hone.trans (List.suffix_cons _ _)
    cases reply with
    | transport_error => exact herr _ htwo
    | response list_resp =>
      refine along_still_bind (still_raw_teams _) (fun raw hraw => ?_) (fun e => herr e htwo)
      refine along_still_bind (still_team_rows _) (fun rows _ => ?_) (fun e => herr e htwo)
      refine along_still_bind (still_alias_by_id _) (fun aliases _ => ?_) (fun e => herr e htwo)
      refine along_still_bind (still_iterate _) (fun items hitems => ?_) (fun e => herr e htwo)
      obtain ⟨result, hresult⟩ := still_member_teams aliases items []
      rw [hresult]
      refine ⟨htwo, fun teams hok => ?_⟩
      rw [hok] at hresult
      -- the rows come from the teams of the user's own record
      obtain ⟨value, hvalue, hteams⟩ := raw_teams_ok hraw
      refine ⟨info_resp, value, raw, items, by simp, expect_ok hexpect, hvalue, hteams, hitems, ?_⟩
      intro row hrow
      exact (member_teams_mem hresult hrow).resolve_left List.not_mem_nil

/-- A team with this id was listed, or misread. -/
theorem IteratedIn.cases {teams : List (Json × Json)} {row : Json × Json} {id : String}
    (h : IteratedIn email teams tr) (hrow : row ∈ teams) (hid : row.1 = .str id) :
    ListedIn email id tr ∨ MisreadIn email id tr := by
  obtain ⟨resp, value, raw, items, hmem, hok, hjson, hraw, hitems, hteams⟩ := h
  obtain ⟨t, ht, htid⟩ := hteams row hrow
  rw [hid] at htid
  rcases hraw with rfl | rfl
  · rcases iterate_cases hitems ht htid with ⟨items', hlist, ht⟩ | hscattered
    · exact .inl ⟨resp, value, items', hmem, hok, hjson, hlist, t, ht, htid⟩
    · exact .inr ⟨resp, value, hmem, hok, hjson, hscattered⟩
  · cases hitems
    cases ht

/-- A user is found to be a member of a team that was listed, or misread. -/
theorem assert_team_membership_along (id : String) :
    Prog.Along (fun _ e => Quiet e.1)
      (fun tr' result => tr <:+ tr' ∧
        (result = .ok () → ListedIn email id tr' ∨ MisreadIn email id tr')) tr
      (assert_team_membership email id).run := by
  refine along_run_bind list_user_teams_along ?_ ?_
  · rintro tr' teams ⟨hs, hteams⟩
    split
    · next hany =>
      refine ⟨hs, fun _ => ?_⟩
      obtain ⟨row, hrow, hid⟩ := List.any_eq_true.mp hany
      exact (hteams teams rfl).cases hrow (eq_of_is_text hid)
    · exact ⟨hs, fun hok => by cases hok⟩
  · rintro tr' e ⟨hs, -⟩
    exact ⟨hs, fun hok => by cases hok⟩

/-! ## A mint -/

theorem lands_of_quiet {call : Call} (h : Quiet call) : Lands settings email tr call := by
  cases call with
  | key_generate | key_update => cases h
  | _ => trivial

/-- Every result of the function meets `P`. -/
def Returns {α : Type} (P : α → Prop) (p : L α) : Prop :=
  ∀ tr, Prog.Along (fun _ _ => True) (fun _ result => ∀ a, result = .ok a → P a) tr p.run

section
variable {α β : Type} {P : α → Prop}

theorem returns_pure {a : α} (h : P a) : Returns P (pure a : L α) := by
  intro tr b hb
  cases hb
  exact h

theorem returns_bind {p : L β} {f : β → L α} (h : ∀ b, Returns P (f b)) : Returns P (p >>= f) := by
  intro tr
  refine along_run_bind (along_of_forall (fun _ _ => trivial) _ tr) (fun tr' b _ => h b tr') ?_
  intro tr' e _ a ha
  cases ha

/-- A function that writes no key, with what it returns. -/
theorem along_returns {p : L α} (hquiet : Sends Quiet p) (hreturns : Returns P p) :
    Prog.Along (fun _ e => Quiet e.1)
      (fun tr' result => tr <:+ tr' ∧ ∀ a, result = .ok a → P a) tr p.run := by
  refine along_mono (fun _ _ h => h.1) ?_ (along_grows (along_both (hquiet tr) (hreturns tr)))
  rintro tr' result ⟨⟨-, hresult⟩, hs⟩
  exact ⟨hs, hresult⟩

/-- A function that writes no key. -/
theorem along_quiet {p : L α} (hquiet : Sends Quiet p) :
    Prog.Along (fun _ e => Quiet e.1) (fun tr' _ => tr <:+ tr') tr p.run :=
  along_mono (fun _ _ h => h) (fun _ _ h => h.2) (along_grows (hquiet tr))

end

theorem returns_attach_groups (id : String) (we_created_it : Bool) (wanted : List Json) :
    Returns (· = id) (attach_groups id we_created_it wanted) := by
  refine returns_bind fun found => ?_
  cases found with
  | none => exact returns_pure rfl
  | some found =>
    refine returns_bind fun group_ids => ?_
    refine returns_bind fun upd => ?_
    exact returns_bind fun _ => returns_pure rfl

theorem sends_quiet_attach_groups (id : String) (we_created_it : Bool) (wanted : List Json) :
    Sends Quiet (attach_groups id we_created_it wanted) :=
  sends_attach_groups (fun _ => rfl) (fun _ => rfl) _ _ _

/-- The part of `ensure_personal_team` after `/team/new` was answered. -/
def ensure_rest (settings : LitellmSettings) (email : String) (sso_groups : Option (List String))
    (resp : HttpResponse) : L String := do
  let team_id := settings.personal_team_id email
  let mem ← request (.member_add team_id email none)
  expect (mem.status_code == 200 || mem.status_code == 400) "/team/member_add (personal)" mem
  let wanted ← resolve_access_group_ids (access_groups_for_user settings email sso_groups)
  attach_groups team_id (resp.status_code == 200) wanted

/-- A function that returns a team has made sure that it is there. -/
def Placed (id : String) (tr : LTrace) (result : Except Failure String) : Prop :=
  ∀ t, result = .ok t → t = id ∧ ThereIn id tr

theorem placed_error (id : String) (e : Failure) : Placed id tr (.error e) := by
  intro t ht
  cases ht

theorem ensure_personal_team_there (factory : Json) (sso_groups : Option (List String)) :
    Prog.Along (fun _ e => Quiet e.1)
      (fun tr' result => tr <:+ tr' ∧ Placed (settings.personal_team_id email) tr' result) tr
      (ensure_personal_team settings email factory sso_groups).run := by
  rw [ensure_personal_team_eq]
  refine along_still_bind (still_dict_get _ _ _) (fun user _ => ?_)
    fun e => ⟨List.suffix_rfl, placed_error _ e⟩
  refine along_still_bind (still_ite (still_dict_items _) (still_pure _)) (fun items _ => ?_)
    fun e => ⟨List.suffix_rfl, placed_error _ e⟩
  intro reply
  refine ⟨rfl, ?_⟩
  cases reply with
  | transport_error => exact ⟨List.suffix_cons _ _, placed_error _ _⟩
  | response resp =>
    refine along_still_bind (still_expect _ _ _) (fun _ hexpect => ?_)
      fun e => ⟨List.suffix_cons _ _, placed_error _ e⟩
    have hok : resp.status_code = 200 ∨ already_exists resp = true := by
      simpa using expect_ok hexpect
    -- what follows writes no key, and returns the id
    have hquiet : Sends Quiet (ensure_rest settings email sso_groups resp) := by
      refine sends_bind (sends_request rfl) fun mem => ?_
      refine sends_bind (sends_still (still_expect _ _ _)) fun _ => ?_
      refine sends_bind (sends_resolve_access_group_ids quiet_provisioning.access_group _) fun wanted => ?_
      exact sends_quiet_attach_groups _ _ _
    have hreturns : Returns (· = settings.personal_team_id email)
        (ensure_rest settings email sso_groups resp) := by
      refine returns_bind fun mem => returns_bind fun _ => returns_bind fun wanted => ?_
      exact returns_attach_groups _ _ _
    refine along_mono (fun _ _ h => h) ?_ (along_returns hquiet hreturns)
    rintro tr' result ⟨hs, hresult⟩
    refine ⟨(List.suffix_cons _ _).trans hs, fun t ht => ⟨hresult t ht, ?_⟩⟩
    exact ⟨_, resp, hs.subset List.mem_cons_self, (creates_body _ _).team_id, hok⟩

/-- The shared team is created, or found there, before anything else. -/
theorem ensure_shared_team_there (team_id : String) (factory : Json) :
    Prog.Along (fun _ e => Quiet e.1)
      (fun tr' result => tr <:+ tr' ∧ (result = .ok () → ThereIn team_id tr')) tr
      (ensure_shared_team settings team_id factory).run := by
  have herr : ∀ {tr' : LTrace} (e : Failure), tr <:+ tr' →
      tr <:+ tr' ∧ ((.error e : Except Failure Unit) = .ok () → ThereIn team_id tr') :=
    fun e hs => ⟨hs, fun hok => by cases hok⟩
  -- the factory is read before anything is sent
  refine along_still_bind (still_dict_get _ _ _) (fun team _ => ?_) fun e => herr e List.suffix_rfl
  refine along_still_bind (still_dict_items _) (fun team_extra _ => ?_)
    fun e => herr e List.suffix_rfl
  refine along_still_bind (still_dict_get _ _ _) (fun metadata _ => ?_)
    fun e => herr e List.suffix_rfl
  refine along_still_bind (still_dict_items _) (fun team_meta_extra _ => ?_)
    fun e => herr e List.suffix_rfl
  intro reply
  refine ⟨rfl, ?_⟩
  cases reply with
  | transport_error => exact herr _ (List.suffix_cons _ _)
  | response resp =>
    obtain ⟨result, hresult⟩ := still_expect (resp.status_code == 200 || already_exists resp)
      "/team/new" resp
    show Prog.Along _ _ _ (expect _ _ _).run
    rw [hresult]
    refine ⟨List.suffix_cons _ _, fun hok => ?_⟩
    rw [hok] at hresult
    have hanswered : resp.status_code = 200 ∨ already_exists resp = true := by
      simpa using expect_ok hresult
    -- what the factory adds comes before the id, so the id is the one asked for
    refine ⟨_, resp, List.mem_cons_self, ?_, hanswered⟩
    rw [text_field, field, Json.lookup_update]
    rfl

/-- The team a key goes into: the personal one, the one that is asked for, or
    the shared one. -/
def destination (settings : LitellmSettings) (email : String) (team_id : Option String) : String :=
  if settings.personal_teams_enabled && team_id.isNone then settings.personal_team_id email
  else or_else team_id settings.team_id

theorem team_and_user_there (name : Option String) (factory : Json) (team_id : Option String)
    (sso_groups : Option (List String)) :
    Prog.Along (fun _ e => Quiet e.1)
      (fun tr' result => tr <:+ tr' ∧ ∀ user t, result = .ok (user, t) →
        t = destination settings email team_id ∧ ThereIn t tr') tr
      (team_and_user settings (settings.personal_teams_enabled && team_id.isNone) email name factory
        team_id sso_groups).run := by
  have herr : ∀ {id : String} {tr' : LTrace} (e : Failure), tr <:+ tr' → tr <:+ tr' ∧
      ∀ user t, (.error e : Except Failure (Json × String)) = .ok (user, t) →
        t = id ∧ ThereIn t tr' :=
    fun e hs => ⟨hs, fun user t hok => by cases hok⟩
  unfold team_and_user destination
  split
  · -- the user first, then the personal team
    refine along_run_bind (along_quiet (sends_ensure_litellm_user (fun _ => rfl) _ _ _ _)) ?_
      fun tr' e hs => herr e hs
    intro tr₁ user hs
    refine along_run_bind (ensure_personal_team_there _ _) ?_ fun tr' e h => herr e (hs.trans h.1)
    rintro tr₂ t ⟨hs', hplaced⟩
    refine ⟨hs.trans hs', fun user' t' hok => ?_⟩
    cases hok
    obtain ⟨rfl, hthere⟩ := hplaced t rfl
    exact ⟨rfl, hthere⟩
  · refine along_run_bind (ensure_shared_team_there _ _) ?_ fun tr' e h => herr e h.1
    rintro tr₁ ⟨⟩ ⟨hs, hthere⟩
    refine along_run_bind (along_quiet (sends_ensure_litellm_user (fun _ => rfl) _ _ _ _)) ?_
      fun tr' e hs' => herr e (hs.trans hs')
    intro tr₂ user hs'
    refine ⟨hs.trans hs', fun user' t hok => ?_⟩
    cases hok
    exact ⟨rfl, (hthere rfl).mono hs'.subset⟩

/-- Provisioning that returns a team returns this one, and it is there. -/
theorem ensure_team_and_user_there (name : Option String) (factory : Json)
    (team_id : Option String) (sso_groups : Option (List String)) :
    Prog.Along (fun _ e => Quiet e.1)
      (fun tr' result => tr <:+ tr' ∧ Placed (destination settings email team_id) tr' result) tr
      (ensure_team_and_user settings email name (some factory) team_id sso_groups).run := by
  refine along_still_bind (still_dict_get _ _ _) (fun team _ => ?_)
    fun e => ⟨List.suffix_rfl, placed_error _ e⟩
  refine along_still_bind (still_dict_items _) (fun _ _ => ?_)
    fun e => ⟨List.suffix_rfl, placed_error _ e⟩
  refine along_run_bind (team_and_user_there name factory team_id sso_groups) ?_
    fun tr' e h => ⟨h.1, placed_error _ e⟩
  rintro tr₁ ⟨user, t⟩ ⟨hs, hteam⟩
  obtain ⟨rfl, hthere⟩ := hteam user t rfl
  -- the team is there; what follows sends nothing that would undo it
  have hbackfill : ∀ existed, Sends Quiet (backfill_existing settings existed email name factory) :=
    fun existed => sends_backfill_existing (fun _ => rfl) (fun _ => rfl) (fun _ => rfl) _ _ _ _
  have hcap : ∀ personal existed budget,
      Sends Quiet (cap_new_member personal existed email (destination settings email team_id) budget) :=
    fun personal existed budget => sends_cap_new_member (fun _ _ _ => rfl) (fun _ _ _ => rfl) _ _ _ _ _
  refine along_mono (fun _ _ h => h) ?_
    (along_returns (P := (· = destination settings email team_id)) ?_ ?_)
  · rintro tr' result ⟨hs', hresult⟩
    exact ⟨hs.trans hs', fun t ht => ⟨hresult t ht, hthere.mono hs'.subset⟩⟩
  · refine sends_bind (sends_still (still_dict_get _ _ _)) fun existed => ?_
    refine sends_bind (hbackfill _) fun _ => ?_
    refine sends_bind (sends_still (still_dict_get _ _ _)) fun user => ?_
    refine sends_bind (sends_still (still_dict_get _ _ _)) fun budget => ?_
    exact sends_bind (hcap _ _ _) fun _ => sends_pure _
  · refine returns_bind fun existed => returns_bind fun _ => returns_bind fun user => ?_
    exact returns_bind fun budget => returns_bind fun _ => returns_pure rfl

/-- The payload names the team, whatever the deployment adds to it. -/
theorem key_payload_team {team_id key_alias : String} {duration : Option String}
    {key_extra metadata : Dict} :
    text_field (key_payload email team_id key_alias duration key_extra metadata) "team_id" =
      some team_id := by
  rw [text_field, key_payload_field (by decide) rfl]

/-- A mint lands in a team the user may use. -/
theorem generate_lands {name duration key_name team_id : Option String} {moment : Moment}
    (sha256 : String → String)
    (huse : ∀ tr', tr ⊆ tr' → MayUse settings email tr' (destination settings email team_id)) :
    Prog.Along (fun tr e => Lands settings email tr e.1) (fun _ _ => True) tr
      (generate_litellm_key settings sha256 email name duration key_name team_id moment).run := by
  refine along_still_bind (still_dict_get _ _ _) (fun user _ => ?_) fun _ => trivial
  refine along_still_bind (still_dict_get _ _ _) (fun extra _ => ?_) fun _ => trivial
  refine along_still_bind (still_dict_get _ _ _) (fun key _ => ?_) fun _ => trivial
  refine along_still_bind (still_dict_items _) (fun key_items _ => ?_) fun _ => trivial
  refine along_run_bind (along_mono (fun _ _ h => lands_of_quiet h) (fun _ _ h => h)
    (ensure_team_and_user_there _ _ _ _)) ?_ fun _ _ _ => trivial
  rintro tr₁ t ⟨hs, hplaced⟩
  obtain ⟨rfl, hthere⟩ := hplaced t rfl
  refine along_still_bind (still_dict_items _) (fun metadata _ => ?_) fun _ => trivial
  intro reply
  refine ⟨⟨_, key_payload_team, huse tr₁ hs.subset, hthere⟩, ?_⟩
  cases reply with
  | transport_error => trivial
  | response resp =>
    refine along_still_bind (still_expect _ _ _) (fun _ _ => ?_) fun _ => trivial
    refine along_still_bind (still_parsed _) (fun body _ => ?_) fun _ => trivial
    refine along_still_bind (still_dict_items _) (fun key_data _ => ?_) fun _ => trivial
    exact along_still_bind (still_lift _) (fun id _ => trivial) fun _ => trivial

/-! ## The routes -/

section
variable {α : Type} {Q : LTrace → LEvent → Prop}

/-- What the client does, the route does. -/
theorem along_attempt {R : LTrace → Except Failure α → Prop} {R' : LTrace → Except Answer α → Prop}
    {p : L α} {on : Failure → Answer} (h : Prog.Along Q R tr p.run)
    (hok : ∀ tr' a, R tr' (.ok a) → R' tr' (.ok a))
    (herr : ∀ tr' e, R tr' (.error e) → R' tr' (.error (on e))) :
    Prog.Along Q R' tr (attempt p on).run := by
  refine along_bind h ?_
  intro tr' result hresult
  cases result with
  | ok a => exact hok tr' a hresult
  | error e => exact herr tr' e hresult

theorem along_respond {R : LTrace → Except Answer Answer → Prop} {p : H Answer}
    (h : Prog.Along Q R tr p.run) : Prog.Along Q (fun _ _ => True) tr (respond p) := by
  refine along_bind h ?_
  intro tr' result _
  cases result with
  | ok a => trivial
  | error a => trivial

end

/-- A membership that was checked is listed, or misread. -/
theorem require_team_membership_along (id : String) :
    Prog.Along (fun tr e => Lands settings email tr e.1)
      (fun tr' result => tr <:+ tr' ∧
        (result = .ok () → ListedIn email id tr' ∨ MisreadIn email id tr')) tr
      (require_team_membership email id).run := by
  refine along_attempt (along_mono (fun _ _ h => lands_of_quiet h) (fun _ _ h => h)
    (assert_team_membership_along id)) ?_ ?_
  · rintro tr' a ⟨hs, hmember⟩
    exact ⟨hs, fun _ => hmember rfl⟩
  · rintro tr' e ⟨hs, -⟩
    exact ⟨hs, fun hok => by cases hok⟩

/-- A key lands where it may, unless something was misread before. -/
def Fair (settings : LitellmSettings) (req : KeyRequest) (tr : LTrace) (e : LEvent) : Prop :=
  Misread settings req tr ∨ Lands settings req.email tr e.1

variable {req : KeyRequest}

theorem Misread.mono (h : Misread settings req tr) (hs : tr ⊆ tr') : Misread settings req tr' := by
  obtain ⟨hoff, id, hasks, hne, hmisread⟩ := h
  exact ⟨hoff, id, hasks, hne, hmisread.mono hs⟩

/-- Once something was misread, nothing is promised. -/
theorem along_misread {α : Type} (h : Misread settings req tr) (p : Prog Call HttpAns α) :
    Prog.Along (Fair settings req) (fun _ _ => True) tr p :=
  along_mono (fun _ _ hs => .inl (h.mono hs.subset)) (fun _ _ _ => trivial)
    (along_suffix List.suffix_rfl p)

/-- The team may be used from here on, unless it was misread. -/
def Granted (settings : LitellmSettings) (req : KeyRequest) (id : String) (tr : LTrace) : Prop :=
  Misread settings req tr ∨ ∀ tr', tr ⊆ tr' → MayUse settings req.email tr' id

theorem granted_personal (hon : settings.personal_teams_enabled = true) :
    Granted settings req (settings.personal_team_id req.email) tr := by
  refine .inr fun tr' _ => ?_
  unfold MayUse
  rw [if_pos hon]

theorem granted_shared (hoff : settings.personal_teams_enabled = false) :
    Granted settings req settings.team_id tr := by
  refine .inr fun tr' _ => ?_
  unfold MayUse
  rw [if_neg (by rw [hoff]; decide)]
  exact .inl rfl

/-- A membership that was checked is granted. -/
theorem granted_member {id : String} (hoff : settings.personal_teams_enabled = false)
    (hasks : req.asks = some id)
    (hmember : ListedIn req.email id tr ∨ MisreadIn req.email id tr) :
    Granted settings req id tr := by
  by_cases hdefault : id = settings.team_id
  · rw [hdefault]
    exact granted_shared hoff
  rcases hmember with hlisted | hmisread
  · refine .inr fun tr' hs => ?_
    unfold MayUse
    rw [if_neg (by rw [hoff]; decide)]
    exact .inr (hlisted.mono hs)
  · exact .inl ⟨hoff, id, hasks, hdefault, hmisread⟩

/-- The check of a membership keeps to the contract. -/
theorem membership_fair (req : KeyRequest) (id : String) (tr : LTrace) :
    Prog.Along (Fair settings req)
      (fun tr' result => tr <:+ tr' ∧
        (result = .ok () → ListedIn req.email id tr' ∨ MisreadIn req.email id tr')) tr
      (require_team_membership req.email id).run :=
  along_mono (fun _ _ h => .inr h) (fun _ _ h => h) (require_team_membership_along id)

/-- The team of a new key is granted before the mint begins. -/
theorem validate_key_team_along (req : KeyRequest) {team_id : Option String}
    (hasks : req.asks = team_id.map strip) :
    Prog.Along (Fair settings req)
      (fun tr' result => ∀ id, result = .ok id →
        Granted settings req (destination settings req.email id) tr') tr
      (validate_key_team settings req.email team_id).run := by
  unfold validate_key_team
  -- with personal teams the choice of the body is not looked at
  cases hpersonal : settings.personal_teams_enabled with
  | true =>
    rintro id hid
    cases hid
    have hdest : destination settings req.email none = settings.personal_team_id req.email := by
      rw [destination, hpersonal]
      rfl
    rw [hdest]
    exact granted_personal hpersonal
  | false =>
    have hdest : destination settings req.email none = settings.team_id := by
      rw [destination, hpersonal]
      rfl
    have hnone : Granted settings req (destination settings req.email none) tr := by
      rw [hdest]
      exact granted_shared hpersonal
    cases team_id with
    | none =>
      rintro id hid
      cases hid
      exact hnone
    | some team_id =>
      show Prog.Along _ _ _ (ExceptT.run (if strip team_id = "" then _ else _))
      split
      · rintro id hid
        cases hid
        exact hnone
      · next hne =>
        -- another team than the shared one: the membership is checked
        refine along_run_bind (membership_fair req (strip team_id) tr) ?_ ?_
        · rintro tr' ⟨⟩ ⟨-, hchecked⟩ id hid
          cases hid
          have hdest : destination settings req.email (some (strip team_id)) = strip team_id := by
            rw [destination, hpersonal]
            exact if_neg hne
          rw [hdest]
          exact granted_member hpersonal hasks (hchecked rfl)
        · rintro tr' e - id hid
          cases hid

section
variable {sha256 : String → String} {chars : CharClasses}

/-- A route that sends nothing goes on with what comes after it. -/
theorem along_still_route {α : Type} {p : H α} {f : α → H Answer} (hp : Still p)
    (hf : ∀ a, Prog.Along (Fair settings req) (fun _ _ => True) tr (f a).run) :
    Prog.Along (Fair settings req) (fun _ _ => True) tr (p >>= f).run :=
  along_still_bind hp (fun a _ => hf a) fun _ => trivial

theorem along_still {α : Type} {p : L α} {Q : LTrace → LEvent → Prop} (hp : Still p) :
    Prog.Along Q (fun _ _ => True) tr p.run := by
  obtain ⟨result, hresult⟩ := hp
  rw [hresult]
  trivial

theorem create_fair (rejected : Option Answer) (email name : String) (body : Option CreateKeyBody)
    (moment : Moment) :
    Prog.Along (Fair settings (.create rejected email name body moment)) (fun _ _ => True) tr
      (respond (session_create_key settings sha256 chars rejected email name body moment)) := by
  refine along_respond (R := fun _ _ => True) ?_
  cases rejected with
  | some answer => trivial
  | none =>
    cases body with
    | none => trivial
    | some body =>
      refine along_still_route (still_validate_key_alias _) fun key_name => ?_
      refine along_still_route (still_validate_key_duration _) fun duration => ?_
      refine along_run_bind (validate_key_team_along (.create none email name (some body) moment) rfl)
        ?_ fun _ _ _ => trivial
      intro tr₁ team_id hgranted
      refine along_run_bind (R := fun _ _ => True) ?_ (fun _ _ _ => trivial) fun _ _ _ => trivial
      rcases hgranted team_id rfl with hmisread | huse
      · exact along_misread hmisread _
      · refine along_attempt (R := fun _ _ => True) ?_ (fun _ _ _ => trivial) fun _ _ _ => trivial
        exact along_mono (fun _ _ h => .inr h) (fun _ _ h => h) (generate_lands sha256 huse)

/-- A key of the user is looked up without writing one. -/
theorem sends_relist (email : String) : Sends Quiet (list_session_keys settings sha256 email) :=
  sends_list_session_keys (fun _ => rfl) (fun _ _ => rfl) _

/-- With personal teams on, the route goes on with the personal team only. -/
theorem still_require_personal_team (email team_id : String) :
    Still (require_personal_team settings email team_id) :=
  still_ite (still_throw _) (still_pure _)

theorem require_personal_team_ok {email team_id : String} {u : Unit}
    (h : (require_personal_team settings email team_id).run = .ret (.ok u))
    (hon : settings.personal_teams_enabled = true) : team_id = settings.personal_team_id email := by
  unfold require_personal_team at h
  rw [hon, Bool.true_and] at h
  split at h
  · cases h
  · next hne => simpa using hne

/-- The destination of a move is granted when its checks have passed. -/
theorem granted_move {id : String} (hasks : req.asks = some id)
    (hpersonal : settings.personal_teams_enabled = true → id = settings.personal_team_id req.email)
    (hmember : ListedIn req.email id tr ∨ MisreadIn req.email id tr) :
    Granted settings req id tr := by
  cases hflag : settings.personal_teams_enabled with
  | true =>
    rw [hpersonal hflag]
    exact granted_personal hflag
  | false => exact granted_member hflag hasks hmember

theorem move_fair (rejected : Option Answer) (email key_id : String) (body : Option String) :
    Prog.Along (Fair settings (.move rejected email key_id body)) (fun _ _ => True) tr
      (respond (session_change_key_team settings sha256 rejected email key_id body)) := by
  refine along_respond (R := fun _ _ => True) ?_
  cases rejected with
  | some answer => trivial
  | none =>
    cases body with
    | none => trivial
    | some body =>
      show Prog.Along _ _ _ (ExceptT.run (if strip body = "" then _ else _))
      split
      · trivial
      refine along_still_bind (still_require_personal_team _ _) (fun _ hpersonal => ?_)
        fun _ => trivial
      refine along_run_bind (membership_fair (.move none email key_id (some body)) (strip body) tr) ?_
        fun _ _ _ => trivial
      rintro tr₁ ⟨⟩ ⟨-, hchecked⟩
      have hgranted : Granted settings (.move none email key_id (some body)) (strip body) tr₁ :=
        granted_move rfl (require_personal_team_ok hpersonal) (hchecked rfl)
      rcases hgranted with hmisread | huse
      · exact along_mono (fun _ _ h => h) (fun _ _ _ => trivial) (along_misread hmisread _)
      -- the key is looked up, and then it is moved
      refine along_run_bind (R := fun tr' _ => tr₁ <:+ tr') ?_ ?_ fun _ _ _ => trivial
      · refine along_attempt (along_mono (fun _ _ h => .inr (lands_of_quiet h)) (fun _ _ h => h)
          (along_quiet (sends_relist email))) (fun _ _ h => h) fun _ _ h => h
      intro tr₂ user_keys hs
      refine along_still_route ?_ fun target => ?_
      · unfold owned
        split
        · exact still_pure _
        · exact still_throw _
      refine along_still_route (still_ite (still_pure _) (still_throw _)) fun _ => ?_
      refine along_run_bind (R := fun _ _ => True) ?_ (fun _ _ _ => trivial) fun _ _ _ => trivial
      refine along_attempt (R := fun _ _ => True) ?_ (fun _ _ _ => trivial) fun _ _ _ => trivial
      intro reply
      refine ⟨.inr (huse tr₂ hs.subset), ?_⟩
      cases reply with
      | transport_error => trivial
      | response resp => exact along_still (still_expect _ _ _)

/-! ## The front key -/

/-- A contract with LiteLLM, read in the trace of a call. -/
def Seen (Q : LTrace → LEvent → Prop) (tr : KeyTrace) (e : KeyEvent) : Prop :=
  ∀ e', litellm_event e = some e' → Q (to_litellm.of tr) e'

theorem seen_other {Q : LTrace → LEvent → Prop} {tr : KeyTrace} {e : KeyEvent}
    (h : litellm_event e = none) : Seen Q tr e := by
  intro e' he'
  rw [h] at he'
  cases he'

/-- A client function keeps its contract among other operations. -/
theorem client_along {α : Type} {Q : LTrace → LEvent → Prop} {R : LTrace → Except Failure α → Prop}
    {p : L α} {tr : KeyTrace} (h : Prog.Along Q R (to_litellm.of tr) p.run) :
    Prog.Along (Seen Q) (fun _ _ => True) tr (client p) :=
  along_mono (fun _ _ h => h) (fun _ _ _ => trivial) (along_embed h)

theorem mint_fair (sub : String) (moment : Moment) (tr : KeyTrace) :
    Prog.Along (Seen (Fair settings (.front sub moment))) (fun _ _ => True) tr
      (mint settings sha256 sub moment) := by
  refine along_await fun record => ⟨seen_other rfl, ?_⟩
  cases record with
  | some record => trivial
  | none =>
    -- a front key goes to the default destination of its user
    have huse : ∀ tr', MayUse settings sub tr' (destination settings sub none) := by
      intro tr'
      unfold MayUse destination
      cases hflag : settings.personal_teams_enabled with
      | true => rfl
      | false => exact .inl rfl
    have hmint : Prog.Along (Fair settings (.front sub moment)) (fun _ _ => True)
        (to_litellm.of (⟨.get .frontkey sub, none⟩ :: tr))
        (generate_litellm_key settings sha256 sub none none (some FRONT_ALIAS) none moment).run :=
      along_mono (fun _ _ h => .inr h) (fun _ _ h => h)
        (generate_lands sha256 fun tr' _ => huse tr')
    refine along_bind (client_along hmint) ?_
    intro tr' result _
    cases result with
    | error e => cases e <;> trivial
    | ok minted =>
      dsimp only
      split
      · exact along_await fun _ => ⟨seen_other rfl, trivial⟩
      · trivial

theorem mint_locked_fair (sub : String) (moment : Moment) (tr : KeyTrace) :
    Prog.Along (Seen (Fair settings (.front sub moment))) (fun _ _ => True) tr
      (mint_locked settings sha256 sub moment) := by
  refine along_await fun acquired => ⟨seen_other rfl, ?_⟩
  cases acquired with
  | false =>
    refine along_await fun _ => ⟨seen_other rfl, ?_⟩
    refine along_await fun record => ⟨seen_other rfl, ?_⟩
    cases record <;> trivial
  | true =>
    refine along_bind (mint_fair sub moment _) ?_
    intro tr' result _
    exact along_await fun _ => ⟨seen_other rfl, trivial⟩

theorem resolve_front_key_fair (sub : String) (moment : Moment) (tr : KeyTrace) :
    Prog.Along (Seen (Fair settings (.front sub moment))) (fun _ _ => True) tr
      (resolve_front_key settings sha256 sub moment) := by
  refine along_await fun record => ⟨seen_other rfl, ?_⟩
  cases record with
  | none => exact mint_locked_fair sub moment _
  | some record =>
    have hinfo : Sends Quiet (get_key_info settings sha256 record.enc.plain) :=
      sends_get_key_info (fun _ => rfl) _
    have halive : Prog.Along (Seen (Fair settings (.front sub moment))) (fun _ _ => True)
        (⟨.get .frontkey sub, some record⟩ :: tr) (key_alive settings sha256 record.enc.plain) := by
      refine along_bind (client_along (along_mono (fun _ _ h => .inr (lands_of_quiet h))
        (fun _ _ h => h) (along_quiet hinfo))) ?_
      intro tr' result _
      cases result with
      | ok _ => trivial
      | error e => cases e <;> trivial
    refine along_bind halive ?_
    intro tr' alive _
    cases alive with
    | none => trivial
    | some alive =>
      cases alive with
      | true => trivial
      | false => exact along_await fun _ => ⟨seen_other rfl, mint_locked_fair sub moment _⟩

/-- A route keeps its contract among other operations. -/
theorem route_fair {p : Prog Call HttpAns Answer}
    (h : Prog.Along (Fair settings req) (fun _ _ => True) [] p) :
    Prog.Along (Seen (Fair settings req)) (fun _ _ => True) [] (p.embed to_litellm) := by
  have hpart : Prog.Along (Fair settings req) (fun _ _ => True) (to_litellm.of []) p := h
  exact along_mono (fun _ _ h => h) (fun _ _ _ => trivial) (along_embed hpart)

/-- Every call keeps to the contract. -/
theorem serve_fair (req : KeyRequest) :
    Prog.Along (Seen (Fair settings req)) (fun _ _ => True) [] (serve settings sha256 chars req) := by
  cases req with
  | create rejected email name body moment =>
    exact along_bind (route_fair (create_fair rejected email name body moment)) fun _ _ _ => trivial
  | move rejected email key_id body =>
    exact along_bind (route_fair (move_fair rejected email key_id body)) fun _ _ _ => trivial
  | front sub moment =>
    exact along_bind (resolve_front_key_fair sub moment []) fun _ _ _ => trivial

end

end

/-! ## Runs -/

/-- Every request of a call that puts a key into a team puts it where it may
    go. -/
def KeysLand (settings : LitellmSettings) (email : String) (xs : List (Exchange KeyOp KeyAns)) : Prop :=
  ∀ x ys, x :: ys <:+ xs → ∀ call, x.op = .ext (.litellm call) →
    Lands settings email (to_litellm.of (ys.map Exchange.event)) call

/-- Whatever the calls, their order and the answers: a call that has misread no
    memberships has put keys only where they may go. -/
theorem keys_land (settings : LitellmSettings) (sha256 : String → String) (chars : CharClasses)
    (as : List (Service.Attempt KeyOp KeyAns Unit KeyRequest KeyResult)) (s : Unit)
    (h : Service.anyone.History (serve settings sha256 chars) () as s) (a) (ha : a ∈ as)
    (hread : ¬ Misread settings a.req (to_litellm.of (a.exchanges.map Exchange.event))) :
    KeysLand settings a.req.email a.exchanges := by
  obtain ⟨later, past, rfl⟩ := List.append_of_mem ha
  obtain ⟨s₁, -, hrun⟩ := Service.history_at h (List.suffix_append later (a :: past))
  obtain ⟨-, hcontract⟩ := Service.runs_along hrun (serve_fair a.req)
  rintro ⟨op, reply, effective⟩ ys hs call hop
  obtain rfl : op = .ext (.litellm call) := hop
  rcases hcontract _ ys hs with hnil | hseen
  · exact absurd hnil.length_le (by simp)
  rcases hseen ⟨call, reply⟩ rfl with hmisread | hlands
  · -- what was misread by then was misread in the call
    have hearlier : ys.map Exchange.event <:+ a.exchanges.map Exchange.event :=
      ((List.suffix_cons _ _).trans hs).map _
    exact absurd (hmisread.mono (to_litellm.of_suffix hearlier).subset) hread
  · exact hlands

/-! ## Memberships that are no list -/

/-- The answers to a console user who asks for a key in the team `a`, with the
    given memberships. -/
def asked_for_a (teams : Json) : List (Bool × ((op : KeyOp) → KeyAns op)) :=
  let reply (body : Json) : (op : KeyOp) → KeyAns op := fun
    | .ext (.litellm _) => .response ⟨200, "", some body⟩
    | .ext .sleep => ()
    | .get .. => none
    | .put .. => ()
    | .pop .. => none
    | .acquire .. => true
    | .release _ => ()
    | .draw _ => ""
    | .time => 0
  [(true, reply (.obj [("user_info", .obj [("teams", teams)])])), (true, reply (.arr [])),
   (true, reply (.obj [])), (true, reply (.obj [])), (true, reply (.obj []))]

/-- No character counts as a letter or a digit: neither is asked for here. -/
def no_classes : CharClasses where
  isalnum _ := false
  isdigit _ := false

/-- `POST /api/session/keys` with the team `a` in its body. -/
def key_in_a : KeyRequest :=
  .create none "ann@example.com" "Ann" (some ⟨none, none, some "a"⟩) ⟨"stamp", "now", "hex"⟩

def shared_settings : LitellmSettings := { key_settings with personal_teams_enabled := false }

/-- A call that is answered with these memberships. -/
def asks_for_a (teams : Json) : Option (Unit × List (Exchange KeyOp KeyAns) × KeyResult) :=
  Service.anyone.play (fun _ _ _ _ => true) () []
    (serve shared_settings (fun s => s) no_classes key_in_a) (asked_for_a teams)

theorem asks_for_a_history {teams : Json} {s : Unit} {xs : List (Exchange KeyOp KeyAns)}
    {r : KeyResult} (h : asks_for_a teams = some (s, xs, r)) :
    Service.anyone.History (serve shared_settings (fun s => s) no_classes) ()
      [⟨key_in_a, xs, r, s⟩] s :=
  Service.History.nil.cons (Service.runs_of_play (fun _ _ _ _ _ => trivial) h)

/-- A deployment without personal teams, and a user who is a member of `a`. -/
theorem keys_land_sample : ∃ as s, as ≠ [] ∧
    Service.anyone.History (serve shared_settings (fun s => s) no_classes) () as s ∧
    ∀ a ∈ as, KeysLand shared_settings a.req.email a.exchanges := by
  have hrun : asks_for_a (.arr [.str "a"]) = some _ := rfl
  refine ⟨_, _, List.cons_ne_nil _ _, asks_for_a_history hrun, fun a ha => ?_⟩
  apply keys_land shared_settings _ no_classes _ _ (asks_for_a_history hrun) a ha
  obtain rfl := List.mem_singleton.mp ha
  rintro ⟨-, id, -, -, resp, value, hmem, -, hjson, hscattered⟩
  -- of the five exchanges, only the first one asked for the user
  iterate 4
    obtain heq | hrest := List.mem_cons.mp hmem
    · cases heq
    replace hmem := hrest
  cases List.mem_singleton.mp hmem
  cases hjson
  exact hscattered

/-- The memberships are a text, and the team that is asked for is a letter of
    it. -/
theorem keys_stray : ¬ ∀ (settings : LitellmSettings) (sha256 : String → String)
    (chars : CharClasses) (as : List (Service.Attempt KeyOp KeyAns Unit KeyRequest KeyResult))
    (s : Unit), Service.anyone.History (serve settings sha256 chars) () as s →
      ∀ a ∈ as, KeysLand settings a.req.email a.exchanges := by
  intro h
  have hrun : asks_for_a (.str "ab") = some _ := rfl
  have hland := h _ _ _ _ _ (asks_for_a_history hrun) _ List.mem_cons_self _ _ List.suffix_rfl _ rfl
  obtain ⟨id, hid, huse, -⟩ := hland
  cases hid
  rcases huse with hdefault | ⟨resp, value, items, hmem, -, hjson, hteams, -⟩
  · exact absurd hdefault (by decide)
  · iterate 3
      obtain heq | hrest := List.mem_cons.mp hmem
      · cases heq
      replace hmem := hrest
    cases List.mem_singleton.mp hmem
    cases hjson
    cases hteams

end AlitellmAuth.Session
