import AlitellmAuth.Litellm.Sends

/-! # The member budget

    The cap that LiteLLM enforces, `max_budget_in_team`, is written by the last
    step of `ensure_team_and_user`, and only by a call that has created the
    user itself. The earlier steps can take effect and the call still fail, so
    a later call may find the user there and leave the cap unwritten.

    * `budgets`: LiteLLM as far as the cap depends on it. Any call may fail,
      and may have taken effect all the same.
    * `Provisions`: what `ensure_team_and_user` does on the shared path.
    * `cap_written_iff`: when the cap is there whenever a call returns.
-/

namespace AlitellmAuth.Litellm

open Interleave Text

/-! ## LiteLLM -/

/-- Which users exist, and the cap of each member of each team. -/
structure CapState where
  user : String → Bool
  cap : String → String → Option Json

/-- Nobody exists yet. -/
def CapState.empty : CapState where
  user := fun _ => false
  cap := fun _ _ => none

/-- The user a `/user/new` request is about. -/
def user_of (body : Dict) : Option String :=
  match field body "user_id" with
  | .str id => some id
  | _ => none

def CapState.has (s : CapState) (body : Dict) : Bool := (user_of body).any s.user

def CapState.create (s : CapState) (body : Dict) : CapState :=
  { s with user := fun id => s.user id || user_of body == some id }

def CapState.set_cap (s : CapState) (team_id user_id : String) (budget : Json) : CapState :=
  { s with cap := fun t u => if t = team_id ∧ u = user_id then some budget else s.cap t u }

/-- Does the answer to `/user/new` make the caller believe that the user has
    existed before? -/
def says_existed (resp : HttpResponse) : Bool :=
  already_exists resp || ((resp.json.bind (Json.get? "existed")).getD .null).truthy

/-- LiteLLM: the first effective `/user/new` creates the user and later ones
    are answered as already existing; a cap is set by `/team/member_add` and
    `/team/member_update` alone. An answer that reports a success is true; any
    other may be given whether or not the request took effect. -/
def budgets : Service Call HttpAns CapState where
  effect
    | .user_new body, s => s.create body
    | .member_add team_id user_id (some budget), s => s.set_cap team_id user_id budget
    | .member_update team_id user_id budget, s => s.set_cap team_id user_id budget
    | _, s => s
  answers s
    | .user_new body, effective, .response resp =>
        (already_exists resp = true → s.has body = true) ∧
        (resp.is_success = true → s.has body = false ∧ effective = true ∧ says_existed resp = false)
    | .member_add .., effective, .response resp => resp.is_success = true → effective = true
    | .member_update .., effective, .response resp => resp.is_success = true → effective = true
    | _, _, _ => True

/-! ## Requests that create nothing -/

/-- The requests that create users and members. -/
def Call.writes : Call → Bool
  | .user_new _ => true
  | .member_add .. => true
  | .member_update .. => true
  | _ => false

/-- The program sends no such request. -/
def Idle {α : Type} (p : L α) : Prop :=
  ∀ tr, Prog.Along (fun _ e => e.1.writes = false) (fun _ _ => True) tr p.run

theorem idle_of_sends {α : Type} {p : L α} (h : Sends (fun call => call.writes = false) p) : Idle p := h

theorem idle_still {α : Type} {p : L α} (h : Still p) : Idle p := idle_of_sends (sends_still h)

theorem idle_backfill_existing (settings : LitellmSettings) (existed : Bool) (email : String)
    (name : Option String) (factory : Json) :
    Idle (backfill_existing settings existed email name factory) :=
  idle_of_sends (sends_backfill_existing (fun _ => rfl) (fun _ => rfl) (fun _ => rfl) _ _ _ _)

theorem idle_ensure_shared_team (settings : LitellmSettings) (team_id : String) (factory : Json) :
    Idle (ensure_shared_team settings team_id factory) :=
  idle_of_sends (sends_ensure_shared_team (fun _ => rfl) _ _)

/-! ## What the call does on the shared path -/

/-- LiteLLM has answered the call's `/user/new`, and the caller takes the user
    for an existing one or for a new one. -/
def Answered (existed : Bool) (tr : LTrace) : Prop :=
  ∃ body resp, (⟨.user_new body, .response resp⟩ : LEvent) ∈ tr ∧ says_existed resp = existed

/-- The team of a call on the shared path. -/
def shared_team (settings : LitellmSettings) (team_id : Option String) : String :=
  or_else team_id settings.team_id

/-- On the shared path `/user/new` is sent once, and a member is capped only in
    the call's own team, and only after the user was created in this call. -/
def Provisions (email team : String) (tr : LTrace) (e : LEvent) : Prop :=
  match e.1 with
  | .user_new _ => ∀ x ∈ tr, ∀ body, x.1 ≠ .user_new body
  | .member_add t u _ => t = team ∧ u = email ∧ Answered false tr
  | .member_update t u _ => t = team ∧ u = email ∧ Answered false tr
  | _ => True

/-- A call that returns has found the user there, or has capped the member. -/
def Provisioned (email team : String) (tr : LTrace) (result : Except Failure String) : Prop :=
  ∀ t, result = .ok t → t = team ∧ (Answered true tr ∨ ∃ budget resp,
    (⟨.member_update team email budget, .response resp⟩ : LEvent) ∈ tr ∧ resp.is_success = true)

section shared
variable {α : Type} {email team : String} {tr : LTrace}

theorem Answered.mono {existed : Bool} {tr tr' : LTrace} (h : Answered existed tr)
    (hs : tr <:+ tr') : Answered existed tr' := by
  obtain ⟨body, resp, hm, htells⟩ := h
  exact ⟨body, resp, hs.subset hm, htells⟩

/-- Requests that write nothing are no matter for the contract. -/
theorem provisions_idle {e : LEvent} (h : e.1.writes = false) : Provisions email team tr e := by
  obtain ⟨call, reply⟩ := e
  cases call with
  | user_new | member_add | member_update => cases h
  | team_new | team_info | team_update | user_info | user_list | user_update | access_group =>
    trivial
  | team_list | key_generate | key_update | key_list | key_info | key_delete | key_block => trivial

/-- The trace has grown by requests that write nothing. -/
def Grown (tr tr' : LTrace) : Prop := tr <:+ tr' ∧ ∀ e ∈ tr', e ∈ tr ∨ e.1.writes = false

theorem along_idle {p : L α} (hp : Idle p) (tr : LTrace) :
    Prog.Along (Provisions email team) (fun tr' _ => Grown tr tr') tr p.run := by
  refine along_mono ?_ ?_ (along_collect (hp tr))
  · intro tr' e he
    exact provisions_idle he
  · rintro tr' a ⟨-, hs, hmem⟩
    exact ⟨hs, hmem⟩

/-- Sequencing after a program that writes nothing. -/
theorem along_idle_bind {β : Type} {p : L α} {f : α → L β} {R : LTrace → Except Failure β → Prop}
    (hp : Idle p) (herr : ∀ tr' e, R tr' (.error e))
    (hf : ∀ tr' a, Grown tr tr' → Prog.Along (Provisions email team) R tr' (f a).run) :
    Prog.Along (Provisions email team) R tr (p >>= f).run :=
  along_run_bind (along_idle hp tr) (fun tr' a hg => hf tr' a hg) fun tr' e _ => herr tr' e

theorem Grown.no_user_new {tr' : LTrace} (h : Grown tr tr')
    (htr : ∀ x ∈ tr, ∀ body, x.1 ≠ .user_new body) : ∀ x ∈ tr', ∀ body, x.1 ≠ .user_new body := by
  intro x hx body heq
  rcases h.2 x hx with hx | hw
  · exact htr x hx body heq
  · rw [heq] at hw
    cases hw

/-- `dict_get` reads a field and does nothing else. -/
theorem along_dict_get {Q : LTrace → LEvent → Prop} (value : Json) (key : String) (default : Json) :
    Prog.Along Q (fun tr' result => tr' = tr ∧
      ∀ v, result = .ok v → v = (value.get? key).getD default) tr (dict_get value key default).run := by
  unfold dict_get
  split
  · refine ⟨rfl, fun v hv => ?_⟩
    cases hv
    rfl
  · refine ⟨rfl, fun v hv => ?_⟩
    cases hv

/-- What the caller reads off the result of `ensure_litellm_user`. -/
def existed_in (user_result : Json) : Bool := ((user_result.get? "existed").getD .null).truthy

/-- How `ensure_litellm_user` ends: the caller takes the user for an existing
    one just if LiteLLM's answer says so. -/
theorem ensure_litellm_user_along (htr : ∀ x ∈ tr, ∀ body, x.1 ≠ .user_new body)
    (name team_id : Option String) (factory : Json) :
    Prog.Along (Provisions email team)
      (fun tr' result => ∀ v, result = .ok v → Answered (existed_in v) tr') tr
      (ensure_litellm_user email name team_id factory).run := by
  unfold ensure_litellm_user
  apply along_idle_bind (idle_still (still_factory_user factory))
  · intro tr' e v hv
    cases hv
  intro tr₁ user hgrown reply
  refine ⟨hgrown.no_user_new htr, ?_⟩
  cases reply with
  | transport_error =>
    intro v hv
    cases hv
  | response resp =>
    apply along_idle_bind (idle_still (still_expect _ _ _))
    · intro tr' e v hv
      cases hv
    intro tr₂ _ hgrown₂
    have hmem : (⟨.user_new _, .response resp⟩ : LEvent) ∈ tr₂ := hgrown₂.1.subset List.mem_cons_self
    split
    · next hexists =>
      -- LiteLLM says that the user exists, and the caller returns its marker
      intro v hv
      cases hv
      refine ⟨_, resp, hmem, ?_⟩
      simp [says_existed, hexists, existed_in, Json.get?, Json.truthy, List.lookup_cons]
    · next hexists =>
      unfold HttpResponse.parsed
      split
      · next value hvalue =>
        intro v hv
        cases hv
        refine ⟨_, resp, hmem, ?_⟩
        simp [says_existed, hexists, existed_in, hvalue]
      · intro v hv
        cases hv

theorem ensure_team_member_budget_along (htr : Answered false tr) (budget : Json) :
    Prog.Along (Provisions email team)
      (fun tr' result => result = .ok () → ∃ budget resp,
        (⟨.member_update team email budget, .response resp⟩ : LEvent) ∈ tr' ∧
          resp.is_success = true) tr
      (ensure_team_member_budget email team budget).run := by
  intro added
  refine ⟨⟨rfl, rfl, htr⟩, ?_⟩
  cases added with
  | transport_error => exact fun h => by cases h
  | response add_resp =>
    apply along_idle_bind (idle_still (still_expect _ _ _))
    · intro tr' e h
      cases h
    intro tr₁ _ hgrown updated
    refine ⟨⟨rfl, rfl, htr.mono ((List.suffix_cons _ _).trans hgrown.1)⟩, ?_⟩
    cases updated with
    | transport_error => exact fun h => by cases h
    | response update_resp =>
      -- only a success gets past the last check
      show Prog.Along _ _ _ (expect _ _ _).run
      unfold expect
      split
      · next hok => exact fun _ => ⟨budget, update_resp, List.mem_cons_self, hok⟩
      · exact fun h => by cases h

/-- `cap_new_member` caps the member of a new user. -/
theorem cap_new_member_along {existed : Bool} (htr : Answered existed tr) (budget : Json)
    (hbudget : (is_positive budget).run = .ret (.ok true)) :
    Prog.Along (Provisions email team)
      (fun tr' result => result = .ok () → Answered true tr' ∨ ∃ budget resp,
        (⟨.member_update team email budget, .response resp⟩ : LEvent) ∈ tr' ∧
          resp.is_success = true) tr
      (cap_new_member false existed email team budget).run := by
  unfold cap_new_member
  cases existed with
  | true => exact fun _ => .inl htr
  | false =>
    have hnull : budget.isNull = false := by
      cases budget <;> first | rfl | cases hbudget
    simp only [Bool.false_or, hnull, Bool.false_eq_true, if_false]
    rw [run_bind_ret hbudget]
    refine along_mono (fun _ _ h => h) ?_ (ensure_team_member_budget_along htr budget)
    intro tr' result h hresult
    exact .inr (h hresult)

/-- Steps A and A2 on the shared path. -/
theorem team_and_user_along (settings : LitellmSettings)
    (htr : ∀ x ∈ tr, ∀ body, x.1 ≠ .user_new body) (name : Option String) (factory : Json)
    (team_id : Option String) (sso_groups : Option (List String)) :
    Prog.Along (Provisions email team)
      (fun tr' result => ∀ r, result = .ok r →
        shared_team settings team_id = r.2 ∧ Answered (existed_in r.1) tr') tr
      (team_and_user settings false email name factory team_id sso_groups).run := by
  unfold team_and_user
  simp only [Bool.false_eq_true, if_false]
  apply along_idle_bind (idle_ensure_shared_team settings _ factory)
  · intro tr' e r hr
    cases hr
  intro tr₁ _ hgrown
  apply along_run_bind (ensure_litellm_user_along (hgrown.no_user_new htr) name _ factory)
  · intro tr₂ user_result h r hr
    cases hr
    exact ⟨rfl, h _ rfl⟩
  · intro tr₂ e _ r hr
    cases hr

/-- The budget of the factory's `user` block. -/
def budget_of (factory : Json) : Json :=
  (((factory.get? "user").getD (.obj [])).get? "max_budget").getD .null

/-- A call on the shared path keeps to the contract. -/
theorem ensure_team_and_user_along (settings : LitellmSettings) (email : String)
    (name : Option String) (factory : Option Json) (team_id : Option String)
    (sso_groups : Option (List String))
    (hshared : (settings.personal_teams_enabled && team_id.isNone) = false)
    (hbudget : (is_positive (budget_of (factory.getD settings.factory))).run = .ret (.ok true)) :
    Prog.Along (Provisions email (shared_team settings team_id))
      (Provisioned email (shared_team settings team_id)) []
      (ensure_team_and_user settings email name factory team_id sso_groups).run := by
  have hraise : ∀ tr' e, Provisioned email (shared_team settings team_id) tr' (.error e) := by
    intro tr' e t h
    cases h
  unfold ensure_team_and_user
  simp only [hshared]
  apply along_idle_bind (idle_still (still_dict_get _ _ _)) hraise
  intro tr₁ block hgrown₁
  apply along_idle_bind (idle_still (still_dict_items _)) hraise
  intro tr₂ _ hgrown₂
  have hnew : ∀ x ∈ tr₂, ∀ body, x.1 ≠ .user_new body :=
    hgrown₂.no_user_new (hgrown₁.no_user_new (by simp))
  -- steps A and A2
  apply along_run_bind (team_and_user_along settings hnew name _ team_id sso_groups)
  · rintro tr₃ ⟨user_result, team⟩ h
    obtain ⟨rfl, hanswered⟩ := h _ rfl
    apply along_run_bind (along_dict_get _ _ _)
    · rintro tr₄ existed ⟨rfl, hexisted⟩
      obtain rfl := hexisted _ rfl
      apply along_idle_bind (idle_backfill_existing _ _ _ _ _) hraise
      intro tr₅ _ hgrown₅
      have hanswered₅ := hanswered.mono hgrown₅.1
      -- the budget is read, and the cap written
      apply along_run_bind (along_dict_get _ _ _)
      · rintro tr₆ user ⟨rfl, huser⟩
        obtain rfl := huser _ rfl
        apply along_run_bind (along_dict_get _ _ _)
        · rintro tr₇ budget ⟨rfl, hb⟩
          obtain rfl := hb _ rfl
          apply along_run_bind (cap_new_member_along hanswered₅ _ hbudget)
          · intro tr₈ _ hcap t ht
            cases ht
            exact ⟨rfl, hcap rfl⟩
          · exact fun tr' e _ => hraise tr' e
        · exact fun tr' e _ => hraise tr' e
      · exact fun tr' e _ => hraise tr' e
    · exact fun tr' e _ => hraise tr' e
  · exact fun tr' e _ => hraise tr' e

end shared

/-! ## Attempts one after the other -/

/-- The arguments of a call for a given email. -/
structure Provisioning where
  name : Option String
  factory : Option Json
  team_id : Option String
  sso_groups : Option (List String)

def provision (settings : LitellmSettings) (email : String) (req : Provisioning) :
    Prog Call HttpAns (Except Failure String) :=
  (ensure_team_and_user settings email req.name req.factory req.team_id req.sso_groups).run

/-- The call is on the shared path, and its factory has a positive budget. -/
structure Shared (settings : LitellmSettings) (req : Provisioning) : Prop where
  shared : (settings.personal_teams_enabled && req.team_id.isNone) = false
  budget : (is_positive (budget_of (req.factory.getD settings.factory))).run = .ret (.ok true)

abbrev Attempt := Service.Attempt Call HttpAns CapState Provisioning (Except Failure String)

/-- The user is not there, and has no cap in any team. -/
def CapState.Absent (s : CapState) (email : String) : Prop :=
  s.user email = false ∧ ∀ team, s.cap team email = none

/-- The caller was told that the user exists. -/
def FoundUser (a : Attempt) : Prop := Answered true (a.exchanges.map Exchange.event)

/-- The request sets the cap of a member. -/
def Call.caps (team email : String) : Call → Prop
  | .member_add t u budget => t = team ∧ u = email ∧ budget.isSome = true
  | .member_update t u _ => t = team ∧ u = email
  | _ => False

/-- A request of the attempt that sets the cap has reached LiteLLM. -/
def Capped (team email : String) (a : Attempt) : Prop :=
  ∃ x ∈ a.exchanges, x.effective = true ∧ x.op.caps team email

def HasCap (team email : String) (s : CapState) : Prop := (s.cap team email).isSome = true

section history
variable {settings : LitellmSettings} {email team : String}

/-- No request takes a cap away. -/
theorem has_cap_kept (call : Call) (s : CapState) (h : HasCap team email s) :
    HasCap team email (budgets.effect call s) := by
  have hset : ∀ t u budget, HasCap team email (s.set_cap t u budget) := by
    intro t u budget
    unfold HasCap CapState.set_cap
    show (if _ then _ else _ : Option Json).isSome = true
    split
    · rfl
    · exact h
  unfold budgets
  dsimp only
  split
  · exact h
  · exact hset _ _ _
  · exact hset _ _ _
  · exact h

/-- The requests that set the cap do set it. -/
theorem has_cap_brought {call : Call} (h : call.caps team email) (s : CapState) :
    HasCap team email (budgets.effect call s) := by
  have hset : ∀ budget, HasCap team email (s.set_cap team email budget) := by
    intro budget
    simp [HasCap, CapState.set_cap]
  cases call with
  | member_add t u budget =>
    obtain ⟨rfl, rfl, hb⟩ := h
    obtain ⟨budget, rfl⟩ := Option.isSome_iff_exists.mp hb
    exact hset budget
  | member_update t u budget =>
    obtain ⟨rfl, rfl⟩ := h
    exact hset budget
  | team_new | team_info | team_update | user_new | user_info | user_list | user_update
  | access_group | team_list | key_generate | key_update | key_list | key_info | key_delete | key_block => exact h.elim

/-- And no others do. -/
theorem caps_of_brought {call : Call} {s : CapState} (hno : ¬ HasCap team email s)
    (h : HasCap team email (budgets.effect call s)) : call.caps team email := by
  have hset : ∀ t u budget, HasCap team email (s.set_cap t u budget) → t = team ∧ u = email := by
    intro t u budget hcap
    unfold HasCap CapState.set_cap at hcap
    dsimp only at hcap
    split at hcap
    · next heq => exact ⟨heq.1.symm, heq.2.symm⟩
    · exact absurd hcap hno
  cases call with
  | member_add t u budget =>
    cases budget with
    | none => exact absurd h hno
    | some budget =>
      obtain ⟨ht, hu⟩ := hset t u budget h
      exact ⟨ht, hu, rfl⟩
  | member_update t u budget => exact hset t u budget h
  | team_new | team_info | team_update | user_new | user_info | user_list | user_update
  | access_group | team_list | key_generate | key_update | key_list | key_info | key_delete | key_block => exact absurd h hno

/-- The run of one call on the shared path. -/
theorem provision_runs {s s' : CapState} {req : Provisioning} {xs : List (Exchange Call HttpAns)}
    {r : Except Failure String} (hreq : Shared settings req)
    (h : budgets.Runs s [] (provision settings email req) s' xs r) :
    Provisioned email (shared_team settings req.team_id) (xs.map Exchange.event) r ∧
    ∀ x ys, x :: ys <:+ xs →
      Provisions email (shared_team settings req.team_id) (ys.map Exchange.event) x.event := by
  obtain ⟨hR, hQ⟩ := Service.runs_along h (ensure_team_and_user_along settings email _ _ _ _
    hreq.shared hreq.budget)
  refine ⟨hR, fun x ys hs => ?_⟩
  rcases hQ x ys hs with hs | hq
  · exact absurd hs.length_le (by simp)
  · exact hq

/-- `/user/new` is sent once, so it has one answer. -/
theorem answered_once {xs : List (Exchange Call HttpAns)}
    (h : ∀ x ys, x :: ys <:+ xs → Provisions email team (ys.map Exchange.event) x.event)
    (htrue : Answered true (xs.map Exchange.event))
    (hfalse : Answered false (xs.map Exchange.event)) : False := by
  obtain ⟨body, resp, hm, htells⟩ := htrue
  obtain ⟨body', resp', hm', htells'⟩ := hfalse
  have hsame : (⟨.user_new body, .response resp⟩ : LEvent) = ⟨.user_new body', .response resp'⟩ := by
    induction xs with
    | nil => cases hm
    | cons x xs ih =>
      have hnew : ∀ b a, x.event = (⟨.user_new b, a⟩ : LEvent) →
          ∀ e ∈ xs.map Exchange.event, ∀ body, e.1 ≠ .user_new body := by
        intro b a heq
        have hx := h x xs List.suffix_rfl
        rw [heq] at hx
        exact hx
      -- the newer of the two excludes an older one
      rcases List.mem_cons.mp hm with heq | hm
      · rcases List.mem_cons.mp hm' with heq' | hm'
        · exact heq.trans heq'.symm
        · exact absurd rfl (hnew _ _ heq.symm _ hm' body')
      · rcases List.mem_cons.mp hm' with heq' | hm'
        · exact absurd rfl (hnew _ _ heq'.symm _ hm body)
        · exact ih (fun y ys hs => h y ys (hs.trans (List.suffix_cons _ _))) hm hm'
  cases hsame
  rw [htells] at htells'
  cases htells'

/-- A cap that an attempt has written is there after every later one. -/
theorem has_cap_of_capped {s₀ s : CapState} {as : List Attempt}
    (h : budgets.History (provision settings email) s₀ as s) {b : Attempt} (hb : b ∈ as)
    (hcap : Capped team email b) : HasCap team email s := by
  obtain ⟨xs, past, rfl⟩ := List.append_of_mem hb
  obtain ⟨s₁, -, hrun⟩ := Service.history_at h (List.suffix_append xs (b :: past))
  obtain ⟨x, hx, heff, hcaps⟩ := hcap
  refine Service.history_preserves has_cap_kept h hb ?_
  exact Service.runs_effective has_cap_kept hrun hx heff (has_cap_brought hcaps)
    (fun hnil => by cases hnil)

/-- A call that returns has found the user there, or has written the cap. -/
theorem capped_of_ok {s s' : CapState} {req : Provisioning} {xs : List (Exchange Call HttpAns)}
    (hreq : Shared settings req)
    (h : budgets.Runs s [] (provision settings email req) s' xs (.ok team)) :
    Answered true (xs.map Exchange.event) ∨ HasCap team email s' := by
  obtain ⟨hend, -⟩ := provision_runs hreq h
  obtain ⟨rfl, hfound | ⟨budget, resp, hm, hsuccess⟩⟩ := hend team rfl
  · exact .inl hfound
  · right
    obtain ⟨⟨op, answer, effective⟩, hx, heq⟩ := List.mem_map.mp hm
    cases heq
    -- LiteLLM reports a success only for a request that took effect
    have heff := Service.runs_answers (T := fun x => ∀ t u b resp,
        x.event = (⟨.member_update t u b, .response resp⟩ : LEvent) → resp.is_success = true →
          x.effective = true) ?_ h (by simp) _ hx _ _ _ _ rfl hsuccess
    · exact Service.runs_effective has_cap_kept h hx heff (has_cap_brought ⟨rfl, rfl⟩)
        (fun hnil => by cases hnil)
    · intro s op effective answer hans t u b resp heq
      cases heq
      exact hans

/-- A call that was told that the user exists writes no cap. -/
theorem not_capped_of_found {s₀ s : CapState} {as past : List Attempt} {a : Attempt}
    (h : budgets.History (provision settings email) s₀ as s) (hs : a :: past <:+ as)
    (hreq : Shared settings a.req) (hfound : FoundUser a) : ¬ Capped team email a := by
  rintro ⟨x, hx, heff, hcaps⟩
  obtain ⟨s₁, -, hrun⟩ := Service.history_at h hs
  obtain ⟨-, hall⟩ := provision_runs hreq hrun
  obtain ⟨newer, older, hsplit⟩ := List.append_of_mem hx
  have hsuffix : x :: older <:+ a.exchanges := ⟨newer, hsplit.symm⟩
  have hcreated : Answered false (older.map Exchange.event) := by
    have hx := hall x older hsuffix
    obtain ⟨op, answer, effective⟩ := x
    cases op with
    | member_add => exact hx.2.2
    | member_update => exact hx.2.2
    | team_new | team_info | team_update | user_new | user_info | user_list | user_update
    | access_group | team_list | key_generate | key_update | key_list | key_info | key_delete | key_block => exact hcaps.elim
  refine answered_once hall hfound (hcreated.mono ?_)
  exact List.IsSuffix.map _ ((List.suffix_cons _ _).trans hsuffix)

/-- Whenever a call returns, the cap of the member is set in its team, just if
    every call that returns although it was told that the user exists comes
    after a call whose request to set the cap in that team had reached
    LiteLLM. -/
theorem cap_written_iff {s₀ s : CapState} {as : List Attempt}
    (h : budgets.History (provision settings email) s₀ as s) (habsent : s₀.Absent email)
    (hreqs : ∀ a ∈ as, Shared settings a.req) :
    (∀ a past, a :: past <:+ as → ∀ team, a.result = .ok team → HasCap team email a.state) ↔
    ∀ a past, a :: past <:+ as → ∀ team, a.result = .ok team → FoundUser a →
      ∃ b ∈ past, Capped team email b := by
  constructor
  · intro hcap a past hs team hok hfound
    obtain ⟨s₁, hpast, hrun⟩ := Service.history_at h hs
    have hreq := hreqs a (hs.subset List.mem_cons_self)
    -- the cap was not there at the start, so some attempt has written it
    have hbrought := Service.history_origin (hpast.cons hrun) (hcap a past hs team hok)
    rcases hbrought with hstart | ⟨b, hb, x, hx, heff, s₂, hno, hyes⟩
    · simp [HasCap, habsent.2 team] at hstart
    · have hcapped : Capped team email b := ⟨x, hx, heff, caps_of_brought hno hyes⟩
      rcases List.mem_cons.mp hb with rfl | hb
      · exact absurd hcapped (not_capped_of_found h hs hreq hfound)
      · exact ⟨b, hb, hcapped⟩
  · intro hcond a past hs team hok
    obtain ⟨s₁, hpast, hrun⟩ := Service.history_at h hs
    have hreq := hreqs a (hs.subset List.mem_cons_self)
    rw [hok] at hrun
    rcases capped_of_ok hreq hrun with hfound | hcap
    · obtain ⟨b, hb, hcapped⟩ := hcond a past hs team hok hfound
      exact has_cap_of_capped (hpast.cons hrun) (List.mem_cons_of_mem _ hb) hcapped
    · exact hcap

end history

/-! ## An attempt that lost an answer -/

/-- A check of the answers on scripted runs. -/
def budgets_check (s : CapState) : (call : Call) → Bool → HttpReply → Bool
  | .user_new body, effective, .response resp =>
      (!already_exists resp || s.has body) &&
        (!resp.is_success || !s.has body && effective && !says_existed resp)
  | .member_add .., effective, .response resp => !resp.is_success || effective
  | .member_update .., effective, .response resp => !resp.is_success || effective
  | _, _, _ => true

theorem budgets_check_sound (s : CapState) (call : Call) (effective : Bool) (reply : HttpReply)
    (h : budgets_check s call effective reply = true) : budgets.answers s call effective reply := by
  cases reply with
  | transport_error => cases call <;> trivial
  | response resp =>
    cases call with
    | user_new body =>
      simp only [budgets_check, Bool.and_eq_true, Bool.or_eq_true, Bool.not_eq_true'] at h
      refine ⟨fun hexists => ?_, fun hok => ?_⟩
      · exact h.1.resolve_left (by simp [hexists])
      · obtain ⟨⟨hnew, heff⟩, htells⟩ := h.2.resolve_left (by simp [hok])
        exact ⟨hnew, heff, htells⟩
    | member_add t u b =>
      simp only [budgets_check, Bool.or_eq_true, Bool.not_eq_true'] at h
      exact fun hok => h.resolve_left (by simp [hok])
    | member_update t u b =>
      simp only [budgets_check, Bool.or_eq_true, Bool.not_eq_true'] at h
      exact fun hok => h.resolve_left (by simp [hok])
    | team_new | team_info | team_update | user_info | user_list | user_update | access_group =>
      trivial
    | team_list | key_generate | key_update | key_list | key_info | key_delete | key_block => trivial

def sample_settings : LitellmSettings where
  litellm_default_team := "default-team"
  personal_teams_enabled := false
  personal_team_prefix := "u-"
  default_access_groups := []
  user_access_groups := []
  sso_access_groups := []
  factory := .obj [("user", .obj [("max_budget", .num 10)])]
  loads := fun _ => none

def sample_call : Provisioning := ⟨none, none, none, none⟩

theorem sample_shared : Shared sample_settings sample_call where
  shared := rfl
  budget := by
    rfl

/-- An answer with a status and a body. -/
def answer (status_code : Nat) (json : Json) (_ : Call) : HttpReply :=
  .response ⟨status_code, "", some json⟩

/-- The call for the sample user. -/
def sample_provision : Provisioning → Prog Call HttpAns (Except Failure String) :=
  provision sample_settings "ann@example.com"

/-- One call creates the user, and caps the member before it returns. -/
theorem cap_written_sample : ∃ as s,
    budgets.History sample_provision CapState.empty as s ∧ as ≠ [] ∧
    ∀ a past, a :: past <:+ as → ∀ team, a.result = .ok team →
      HasCap team "ann@example.com" a.state := by
  have hrun := Service.runs_of_play (p := sample_provision sample_call) budgets_check_sound
    (show budgets.play budgets_check CapState.empty [] _
      [(true, answer 200 (.obj [])), (true, answer 200 (.obj [])), (true, answer 200 (.obj [])),
       (true, answer 200 (.obj []))] = some _ from rfl)
  have hhistory := Service.History.nil.cons hrun
  refine ⟨_, _, hhistory, List.cons_ne_nil _ _, ?_⟩
  apply (cap_written_iff hhistory ⟨rfl, fun _ => rfl⟩ ?_).mpr
  · intro a past hs team hok hfound
    -- the answer to `/user/new` does not say so
    obtain ⟨rfl, rfl⟩ := List.cons.inj (hs.eq_of_length_le (by simp))
    exfalso
    obtain ⟨body, resp, hm, htells⟩ := hfound
    simp only [List.map_cons, List.map_nil, List.mem_cons, List.not_mem_nil, or_false] at hm
    obtain heq | heq | heq | heq := hm
    · cases heq
    · cases heq
    · cases heq
      exact absurd htells (by decide)
    · cases heq
  · intro a ha
    obtain rfl := List.mem_singleton.mp ha
    exact sample_shared

/-- The first attempt creates the user and loses the answer to `/user/new`; the
    second one finds the user, and returns. -/
theorem cap_not_written : ∃ as s,
    budgets.History sample_provision CapState.empty as s ∧
    CapState.empty.Absent "ann@example.com" ∧ (∀ a ∈ as, Shared sample_settings a.req) ∧
    ∃ a past, a :: past <:+ as ∧ a.result = .ok "default-team" ∧
      ¬ HasCap "default-team" "ann@example.com" a.state := by
  have hfirst := Service.runs_of_play (p := sample_provision sample_call) budgets_check_sound
    (show budgets.play budgets_check CapState.empty [] _
      [(true, answer 200 (.obj [])), (true, fun _ => .transport_error)] = some _ from rfl)
  have hsecond := Service.runs_of_play (p := sample_provision sample_call) budgets_check_sound
    (show budgets.play budgets_check (CapState.empty.create [("user_id", .str "ann@example.com")]) [] _
      [(false, answer 409 (.obj [])), (false, answer 409 (.obj [])),
       (true, answer 200 (.obj [("user_id", .str "ann@example.com"),
          ("user_email", .str "ann@example.com"), ("max_budget", .num 10)]))] = some _ from rfl)
  refine ⟨_, _, (Service.History.nil.cons hfirst).cons hsecond, ⟨rfl, fun _ => rfl⟩, ?_, _, _,
    List.suffix_rfl, rfl, fun hcap => ?_⟩
  · intro a ha
    rcases List.mem_cons.mp ha with rfl | ha
    · exact sample_shared
    · obtain rfl := List.mem_singleton.mp ha
      exact sample_shared
  · cases hcap

end AlitellmAuth.Litellm
