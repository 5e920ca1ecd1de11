import AlitellmAuth.Litellm.Provisioned
import AlitellmAuth.Litellm.ClosedTeams
import AlitellmAuth.Framework.Attempts

/-! # Provisioning converges

    `ensure_team_and_user` on the personal path, run again and again for one
    person, where every attempt may stop at any request, whether the request
    has taken effect or not.

    * `Succeeds`: an answer that reports a success.
    * `Same`: the rows that provisioning leads to have not changed.
    * `provisioning_converges`: after any number of attempts one that succeeds
      leaves the rows as one that succeeds at once, if the factory leaves alone
      who the user is and which groups the team has.
    * `provisioning_diverges`: a factory with access groups.
-/

namespace AlitellmAuth.Litellm

open Interleave

/-- An answer that reports a success, or that the wanted state is there. -/
def Succeeds (s : Tables) : Call → HttpReply → Prop
  | _, .transport_error => False
  | .team_new _, .response resp => resp.is_success = true ∨ already_exists resp = true
  | .user_new _, .response resp => resp.is_success = true ∨ already_exists resp = true
  | .member_add team_id user_id _, .response resp => resp.is_success = true ∨
      resp.status_code = 400 ∧ (s.teams.lookup team_id).any (·.members.contains user_id) = true
  | _, .response resp => resp.is_success = true

instance (s : Tables) (op : Call) (answer : HttpReply) : Decidable (Succeeds s op answer) :=
  match op, answer with
  | _, .transport_error => .isFalse nofun
  | .team_new _, .response _ => inferInstanceAs (Decidable (_ ∨ _))
  | .user_new _, .response _ => inferInstanceAs (Decidable (_ ∨ _))
  | .member_add .., .response _ => inferInstanceAs (Decidable (_ ∨ _ ∧ _))
  | .team_info _, .response _ => inferInstanceAs (Decidable (_ = true))
  | .team_update _, .response _ => inferInstanceAs (Decidable (_ = true))
  | .member_update .., .response _ => inferInstanceAs (Decidable (_ = true))
  | .user_info _, .response _ => inferInstanceAs (Decidable (_ = true))
  | .user_list _, .response _ => inferInstanceAs (Decidable (_ = true))
  | .user_update _, .response _ => inferInstanceAs (Decidable (_ = true))
  | .access_group, .response _ => inferInstanceAs (Decidable (_ = true))
  | .team_list, .response _ => inferInstanceAs (Decidable (_ = true))
  | .key_generate _, .response _ => inferInstanceAs (Decidable (_ = true))
  | .key_update .., .response _ => inferInstanceAs (Decidable (_ = true))
  | .key_list .., .response _ => inferInstanceAs (Decidable (_ = true))
  | .key_info _, .response _ => inferInstanceAs (Decidable (_ = true))
  | .key_delete _, .response _ => inferInstanceAs (Decidable (_ = true))
  | .key_block .., .response _ => inferInstanceAs (Decidable (_ = true))

/-- LiteLLM, where every call succeeds if `good`. -/
def litellm_when (good : Prop) : Service Call HttpAns Tables where
  effect := Tables.apply
  answers := fun s op effective answer => s.admits op effective answer ∧ (good → Succeeds s op answer)

/-- `ensure_team_and_user` for a person, without an explicit team. -/
def provision_person (settings : LitellmSettings) (p : Person) :
    Prog Call HttpAns (Except Failure String) :=
  (ensure_team_and_user settings p.email p.name (some p.factory) none p.sso_groups).run

/-! ## Rows that are as good as before -/

variable (settings : LitellmSettings) (p : Person)

/-- No other row has changed, and provisioning leads to the same rows. -/
structure Same (s₀ s : Tables) : Prop where
  teams : ∀ id, id ≠ p.team_id settings → s.teams.lookup id = s₀.teams.lookup id
  users : ∀ id, id ≠ p.email → s.users.lookup id = s₀.users.lookup id
  access_groups : s.access_groups = s₀.access_groups
  team : p.final_team settings s = p.final_team settings s₀
  user : p.final_user settings s = p.final_user settings s₀

/-- The row of the team is the one that provisioning leads to. -/
def TeamDone (s : Tables) : Prop :=
  s.teams.lookup (p.team_id settings) = some (p.final_team settings s)

/-- The row of the user is the one that provisioning leads to. -/
def UserDone (s : Tables) : Prop := s.users.lookup p.email = some (p.final_user settings s)

section
variable {settings} {p} {s₀ s s' : Tables}

theorem same_refl (s : Tables) : Same settings p s s :=
  ⟨fun _ _ => rfl, fun _ _ => rfl, rfl, rfl, rfl⟩

theorem Same.trans {s'' : Tables} (h : Same settings p s s') (h' : Same settings p s' s'') :
    Same settings p s s'' where
  teams := fun id hid => (h'.teams id hid).trans (h.teams id hid)
  users := fun id hid => (h'.users id hid).trans (h.users id hid)
  access_groups := h'.access_groups.trans h.access_groups
  team := h'.team.trans h.team
  user := h'.user.trans h.user

/-- Two states that are done and started alike are alike. -/
theorem same_done (h : Same settings p s₀ s) (hteam : TeamDone settings p s)
    (huser : UserDone settings p s) (h' : Same settings p s₀ s') (hteam' : TeamDone settings p s')
    (huser' : UserDone settings p s') :
    (∀ id, s.teams.lookup id = s'.teams.lookup id) ∧ ∀ id, s.users.lookup id = s'.users.lookup id := by
  refine ⟨fun id => ?_, fun id => ?_⟩
  · by_cases hid : id = p.team_id settings
    · rw [hid, hteam, hteam', h.team, h'.team]
    · rw [h.teams id hid, h'.teams id hid]
  · by_cases hid : id = p.email
    · rw [hid, huser, huser', h.user, h'.user]
    · rw [h.users id hid, h'.users id hid]

/-- Writing the team is harmless if its row leads to the same row. -/
theorem same_set_team {team : Team} (hteam : team.finished p.email (wanted settings s p.ensure) =
      p.final_team settings s) : Same settings p s (s.set_team (p.team_id settings) team) where
  teams := fun id hid => by rw [Tables.lookup_set_team, if_neg hid]
  users := fun _ _ => rfl
  access_groups := rfl
  team := by
    rw [Person.final_team, Tables.lookup_set_team, if_pos rfl]
    exact hteam
  user := rfl

/-- Writing the user is harmless if its row leads to the same row. -/
theorem same_set_user {columns : Columns}
    (huser : p.backfilled settings (s.set_user p.email columns) columns = p.final_user settings s) :
    Same settings p s (s.set_user p.email columns) where
  teams := fun _ _ => rfl
  users := fun id hid => Table.lookup_put_ne _ _ hid
  access_groups := rfl
  team := rfl
  user := by
    have hrow : (s.set_user p.email columns).users.lookup p.email = some columns :=
      Table.lookup_put_self _ _ _
    rw [Person.final_user, hrow]
    exact huser

end

/-! ## Requests -/

section
variable {settings} {p} {s₀ s : Tables} {good : Prop}

/-- A request that keeps the rows, whatever becomes of it, and then the rest. -/
theorem meets_request {α : Type} {P : Tables → Prop} {R : Tables → Except Failure α → Prop}
    {o : Call} {f : HttpResponse → L α} (hs : P s) (herr : ∀ s, P s → R s (.error .transport))
    (hkeeps : ∀ effective answer, P ((litellm_when good).after s ⟨o, answer, effective⟩))
    (hrest : ∀ effective resp, (litellm_when good).answers s o effective (.response resp) →
      (litellm_when good).Meets P R
        ((litellm_when good).after s ⟨o, .response resp, effective⟩) (f resp).run) :
    (litellm_when good).Meets P R s (request o >>= f).run := by
  refine Service.meets_call hs fun effective answer hans => ?_
  cases answer with
  | transport_error => exact ⟨hkeeps _ _, herr _ (hkeeps _ _)⟩
  | response resp => exact hrest effective resp hans

/-- A request that changes nothing. -/
theorem after_read {op : Call} {answer : HttpReply} {effective : Bool}
    (h : Tables.apply op s = s) : (litellm_when good).after s ⟨op, answer, effective⟩ = s := by
  unfold Service.after
  split
  · exact h
  · rfl

/-! ## The user -/

theorem user_body_id (hplain : Plain p.factory) :
    text_field p.user_body "user_id" = some p.email := by
  rw [text_field, field, Person.user_body, Json.lookup_update, hplain.last (by decide)]
  rfl

theorem accepted_user_body (hplain : Plain p.factory) (s : Tables) :
    s.accepted_user p.user_body =
      if (s.users.lookup p.email).isSome then none else some (p.email, p.new_user) := by
  unfold Tables.accepted_user
  rw [user_body_id hplain]
  rfl

/-- Creating the user is a step on the way. -/
theorem user_new_same (hplain : Plain p.factory) (s : Tables) (answer : HttpReply) (effective : Bool) :
    Same settings p s ((litellm_when good).after s ⟨.user_new p.user_body, answer, effective⟩) := by
  unfold Service.after
  split
  · show Same settings p s (s.write_user (s.accepted_user p.user_body))
    rw [accepted_user_body hplain]
    split
    · exact same_refl s
    · next hnone =>
      apply same_set_user
      rw [backfilled_new_user hplain, Person.final_user, Option.not_isSome_iff_eq_none.mp hnone]
  · exact same_refl s

/-- A user that the call creates needs nothing more. -/
theorem user_new_done (hplain : Plain p.factory) {resp : HttpResponse} {effective : Bool}
    (hans : s.admits (.user_new p.user_body) effective (.response resp))
    (hok : resp.is_success = true) :
    UserDone settings p
      ((litellm_when good).after s ⟨.user_new p.user_body, .response resp, effective⟩) := by
  obtain ⟨rfl, haccepted, -⟩ := hans.1 hok
  show UserDone settings p (s.write_user (s.accepted_user p.user_body))
  rw [accepted_user_body hplain] at haccepted ⊢
  split at haccepted
  · cases haccepted
  · next hnone =>
    rw [if_neg hnone]
    show (s.set_user p.email p.new_user).users.lookup p.email = _
    have hrow : (s.set_user p.email p.new_user).users.lookup p.email = some p.new_user :=
      Table.lookup_put_self _ _ _
    have hfinal : p.final_user settings (s.set_user p.email p.new_user) = p.new_user := by
      unfold Person.final_user
      rw [hrow]
      exact backfilled_new_user hplain
    exact hrow.trans (congrArg some hfinal.symm)

/-- A conflict means that the user is there. -/
theorem user_new_there (hplain : Plain p.factory) {resp : HttpResponse} {effective : Bool}
    (hans : s.admits (.user_new p.user_body) effective (.response resp))
    (hexists : already_exists resp = true) : ∃ columns,
    ((litellm_when good).after s ⟨.user_new p.user_body, .response resp, effective⟩).users.lookup
      p.email = some columns := by
  have hhas := hans.2 hexists
  rw [Tables.has_user, user_body_id hplain] at hhas
  have hrow : (s.users.lookup p.email).isSome = true := hhas
  have hsame : (litellm_when good).after s ⟨.user_new p.user_body, .response resp, effective⟩ = s := by
    apply after_read
    show s.write_user (s.accepted_user p.user_body) = s
    rw [accepted_user_body hplain, if_pos hrow]
    rfl
  rw [hsame]
  exact Option.isSome_iff_exists.mp hrow

/-- What is left after `ensure_litellm_user`: a user that needs nothing more
    unless it existed. -/
theorem ensure_litellm_user_meets (hplain : Plain p.factory) (hs : Same settings p s₀ s) :
    (litellm_when good).Meets (Same settings p s₀) (fun s' res => ∀ v, res = .ok v →
      (∃ columns, s'.users.lookup p.email = some columns) ∧
      ∀ existed, (dict_get v "existed" .null).run = .ret (.ok existed) → existed.truthy = false →
        UserDone settings p s') s (ensure_litellm_user p.email p.name none p.factory).run := by
  refine Service.meets_still_bind hs (still_factory_user _) (fun user huser => ?_)
    (fun e _ v hv => by cases hv)
  obtain rfl := factory_user_ok huser
  refine meets_request hs (fun _ _ v hv => by cases hv)
    (fun effective answer => hs.trans (user_new_same hplain s answer effective))
    (fun effective resp hans => ?_)
  have hkeeps : Same settings p s₀
      ((litellm_when good).after s ⟨.user_new p.user_body, .response resp, effective⟩) :=
    hs.trans (user_new_same hplain s _ _)
  refine Service.meets_still_bind hkeeps (still_expect _ _ _) (fun _ hexpect => ?_)
    (fun e _ v hv => by cases hv)
  have hok := expect_ok hexpect
  -- a conflict says that the user is there, a success that the row is ours
  cases hexists : already_exists resp with
  | true =>
    refine ⟨hkeeps, fun v hv => ⟨user_new_there hplain hans.1 hexists, ?_⟩⟩
    intro existed hexisted hfalsy
    cases hv
    cases hexisted
    cases hfalsy
  | false =>
    have hsuccess : resp.is_success = true := by simpa [hexists] using hok
    have hdone : UserDone settings p ((litellm_when good).after s
        ⟨.user_new p.user_body, .response resp, effective⟩) :=
      user_new_done hplain hans.1 hsuccess
    obtain ⟨res, hres⟩ := still_parsed resp
    show (litellm_when good).Meets _ _ _ (ExceptT.run resp.parsed)
    rw [hres]
    exact ⟨hkeeps, fun v _ => ⟨⟨_, hdone⟩, fun _ _ _ => hdone⟩⟩

/-! ## The team -/

theorem team_body_id : text_field (p.team_body settings) "team_id" = some (p.team_id settings) :=
  (creates_body _ _).team_id

/-- The team is created without groups. -/
theorem new_team_body (hplain : Plain p.factory) :
    new_team (p.team_body settings) = some (p.new_team settings) := by
  have hgroups : group_list (field (p.team_body settings) "access_group_ids") = some [] := by
    rw [field, Person.team_body, Json.lookup_update]
    rcases hplain.groups with hnone | hnil
    · rw [hnone]
      rfl
    · rw [hnil]
      rfl
  rw [new_team, hgroups]
  rfl

theorem new_team_stamped : (p.new_team settings).stamped = true := by
  have hmetadata : (p.new_team settings).columns "metadata" =
      some (.obj [("source", .str "token-factory"), ("alt_managed", .str "user-team")]) := by
    show (team_columns (p.team_body settings)).lookup "metadata" = _
    rw [team_columns, Table.lookup_filter_key (fun k => k != "team_id" && k != "access_group_ids"),
      if_pos (by decide), Person.team_body, Json.lookup_update]
    rfl
  rw [Team.stamped, hmetadata]
  rfl

theorem accepted_team_body (hplain : Plain p.factory) (s : Tables) :
    s.accepted_team (p.team_body settings) = if (s.teams.lookup (p.team_id settings)).isSome then none
      else some (p.team_id settings, p.new_team settings) := by
  unfold Tables.accepted_team
  rw [team_body_id, new_team_body hplain]
  rfl

variable (good) in
/-- Creating the team is a step on the way. -/
theorem team_new_same (hplain : Plain p.factory) (s : Tables) (answer : HttpReply) (effective : Bool) :
    Same settings p s
      ((litellm_when good).after s ⟨.team_new (p.team_body settings), answer, effective⟩) := by
  unfold Service.after
  split
  · show Same settings p s (s.write_team (s.accepted_team (p.team_body settings)))
    rw [accepted_team_body hplain]
    split
    · exact same_refl s
    · next hnone =>
      apply same_set_team
      rw [Person.final_team, Option.not_isSome_iff_eq_none.mp hnone]
      rfl
  · exact same_refl s

/-- The team is there; if it was just created, it has no groups yet and is
    stamped. -/
structure Ready (settings : LitellmSettings) (p : Person) (created : Bool) (team : Team) (s : Tables) :
    Prop where
  row : s.teams.lookup (p.team_id settings) = some team
  fresh : created = true → team.access_group_ids = [] ∧ team.stamped = true
  user : (s.users.lookup p.email).isSome = true

variable (good) in
theorem team_new_ready (hplain : Plain p.factory) {resp : HttpResponse} {effective : Bool}
    (hans : s.admits (.team_new (p.team_body settings)) effective (.response resp))
    (hok : resp.status_code = 200 ∨ already_exists resp = true)
    (huser : (s.users.lookup p.email).isSome = true) :
    ∃ team, Ready settings p (resp.status_code == 200) team
      ((litellm_when good).after s ⟨.team_new (p.team_body settings), .response resp, effective⟩) ∧
      ((litellm_when good).after s
        ⟨.team_new (p.team_body settings), .response resp, effective⟩).users = s.users := by
  -- a 200 has created the team; anything else that is accepted is a conflict
  by_cases hstatus : resp.status_code = 200
  · obtain ⟨rfl, haccepted⟩ := hans.1 hstatus
    rw [accepted_team_body hplain] at haccepted
    split at haccepted
    · cases haccepted
    · next hnone =>
      have hafter : (litellm_when good).after s
          ⟨.team_new (p.team_body settings), .response resp, true⟩ =
          s.set_team (p.team_id settings) (p.new_team settings) := by
        show s.write_team (s.accepted_team (p.team_body settings)) = _
        rw [accepted_team_body hplain, if_neg hnone]
        rfl
      rw [hafter]
      refine ⟨p.new_team settings, ⟨?_, fun _ => ⟨rfl, new_team_stamped⟩, huser⟩, rfl⟩
      rw [Tables.lookup_set_team, if_pos rfl]
  · have hhas := hans.2 (hok.resolve_left hstatus)
    rw [Tables.has_team, team_body_id] at hhas
    have hrow : (s.teams.lookup (p.team_id settings)).isSome = true := hhas
    have hsame : (litellm_when good).after s
        ⟨.team_new (p.team_body settings), .response resp, effective⟩ = s := by
      apply after_read
      show s.write_team (s.accepted_team (p.team_body settings)) = s
      rw [accepted_team_body hplain, if_pos hrow]
      rfl
    obtain ⟨team, hteam⟩ := Option.isSome_iff_exists.mp hrow
    rw [hsame]
    refine ⟨team, ⟨hteam, fun hcreated => ?_, huser⟩, rfl⟩
    exact absurd (by simpa using hcreated) hstatus

/-! ## The member -/

theorem add_member_state {created : Bool} {team : Team} (h : Ready settings p created team s) :
    s.add_member (p.team_id settings) p.email =
      s.set_team (p.team_id settings) (team.add_member p.email) := by
  unfold Tables.add_member
  rw [h.row]
  show Tables.ensure_user _ p.email = _
  unfold Tables.ensure_user
  rw [if_pos]
  exact h.user

variable (good) in
/-- Adding the member is a step on the way. -/
theorem member_add_same {created : Bool} {team : Team} (h : Ready settings p created team s)
    (answer : HttpReply) (effective : Bool) :
    Same settings p s ((litellm_when good).after s
      ⟨.member_add (p.team_id settings) p.email none, answer, effective⟩) := by
  unfold Service.after
  split
  · show Same settings p s (s.add_member (p.team_id settings) p.email)
    rw [add_member_state h]
    apply same_set_team
    rw [Person.final_team, h.row]
    show ((team.add_member p.email).add_member p.email).attached _ = (team.add_member p.email).attached _
    rw [add_member_again]
  · exact same_refl s

/-- The team is still there, and the member is if the request has succeeded. -/
theorem member_add_ready {created : Bool} {team : Team} (h : Ready settings p created team s)
    {resp : HttpResponse} {effective : Bool}
    (hans : (litellm_when good).answers s (.member_add (p.team_id settings) p.email none) effective
      (.response resp)) :
    ∃ team', Ready settings p created team' ((litellm_when good).after s
        ⟨.member_add (p.team_id settings) p.email none, .response resp, effective⟩) ∧
      (good → team'.members.contains p.email = true) ∧ ((litellm_when good).after s
        ⟨.member_add (p.team_id settings) p.email none, .response resp, effective⟩).users = s.users := by
  -- a call without effect is answered with success only if the member is there
  cases effective with
  | false =>
    refine ⟨team, h, fun hgood => ?_, rfl⟩
    rcases hans.2 hgood with hok | ⟨-, hmember⟩
    · exact absurd (hans.1 hok).1 (by decide)
    · rw [h.row] at hmember
      exact hmember
  | true =>
    refine ⟨team.add_member p.email, ?_, fun _ => add_member_mem _ _, ?_⟩
    · show Ready settings p created _ (s.add_member (p.team_id settings) p.email)
      rw [add_member_state h]
      refine ⟨?_, fun hcreated => ?_, h.user⟩
      · rw [Tables.lookup_set_team, if_pos rfl]
      · rw [add_member_groups, add_member_stamped]
        exact h.fresh hcreated
    · show (s.add_member (p.team_id settings) p.email).users = _
      rw [add_member_state h]
      rfl

/-! ## The groups -/

/-- The names are looked up, and nothing changes. -/
theorem resolve_meets {P : Tables → Prop} (hs : P s) :
    (litellm_when good).Meets P (fun s' res => s' = s ∧ ∀ ids, res = .ok ids →
      ids = (wanted settings s p.ensure).map .str) s
      (resolve_access_group_ids (access_groups_for_user settings p.email p.sso_groups)).run := by
  unfold resolve_access_group_ids
  split
  · next hempty =>
    refine ⟨hs, rfl, fun ids hok => ?_⟩
    cases hok
    show [] = ((access_groups_for_user settings p.email p.sso_groups).filterMap _).map _
    rw [List.isEmpty_iff.mp hempty]
    rfl
  · refine Service.meets_call hs fun effective answer hans => ?_
    have hsame : (litellm_when good).after s ⟨.access_group, answer, effective⟩ = s := after_read rfl
    rw [hsame]
    cases answer with
    | transport_error => exact ⟨hs, rfl, fun ids hok => by cases hok⟩
    | response resp =>
      have herr : ∀ e : Failure, s = s ∧ ∀ ids, (.error e : Except Failure (List Json)) = .ok ids →
          ids = (wanted settings s p.ensure).map .str :=
        fun e => ⟨rfl, nofun⟩
      -- what is resolved are the rows of the catalogue that are shown
      refine Service.meets_still_bind hs (still_expect _ _ _) (fun _ hexpect => ?_) (fun e _ => herr e)
      refine Service.meets_still_bind hs (still_parsed _) (fun value hvalue => ?_) (fun e _ => herr e)
      refine Service.meets_still_bind hs (still_named_groups _) (fun by_name hnamed => ?_) (fun e _ => herr e)
      obtain ⟨rows, hrows, hshows⟩ := hans.1 (expect_ok hexpect)
      obtain rfl : value = .arr rows := by
        rw [parsed_ok hvalue] at hrows
        exact Option.some.inj hrows
      refine ⟨hs, rfl, fun ids hok => ?_⟩
      obtain rfl := named_groups_ok hnamed
      cases hok
      show (access_groups_for_user settings p.email p.sso_groups).filterMap
        (find_group (group_rows (.arr rows))) = _
      rw [funext fun name => find_group_shown hshows name, wanted, List.map_filterMap]
      rfl

/-- A team that was there before is read. -/
theorem read_groups_meets {P : Tables → Prop} {id : String} {team : Team} (hs : P s)
    (hrow : s.teams.lookup id = some team) :
    (litellm_when good).Meets P (fun s' res => s' = s ∧ ∀ found, res = .ok found →
      (found = none → ¬ good) ∧ ∀ shown current, found = some (shown, current) →
        stamped_as_ours shown = team.stamped ∧
        current = team.access_group_ids.map .str) s (attached_groups id false).run := by
  -- what is shown of the team, and no state is changed
  have hinfo : (litellm_when good).Meets P (fun s' res => s' = s ∧ ∀ found, res = .ok found →
      (found = none → ¬ good) ∧ ∀ shown, found = some shown → Tables.ShowsTeam team shown) s
      (team_info id).run := by
    rw [team_info_run]
    refine Service.meets_call hs fun effective reply hans => ?_
    rw [after_read rfl]
    refine ⟨hs, rfl, fun found hok => ?_⟩
    cases hok
    refine ⟨fun hnone hgood => ?_, fun shown hshown => ?_⟩
    · cases reply with
      | transport_error => exact hans.2 hgood
      | response resp =>
        obtain ⟨value, shown, team', hjson, hinfo, -⟩ := hans.1 (hans.2 hgood)
        have hok : resp.is_success = true := hans.2 hgood
        rw [shown_team, if_pos hok, hjson, Option.bind_some, hinfo] at hnone
        cases hnone
    · obtain ⟨resp, value, rfl, hok, hjson, hinfo⟩ := shown_team_some hshown
      obtain ⟨value', shown', team', hjson', hinfo', hrow', hshows⟩ := hans.1 hok
      rw [hjson] at hjson'
      cases hjson'
      rw [hinfo] at hinfo'
      cases hinfo'
      rw [hrow] at hrow'
      cases hrow'
      exact hshows
  -- nothing shown: the call has failed, which a good service does not
  refine Service.meets_run_bind hinfo ?_ ?_
  · rintro s' found hP ⟨rfl, hfound⟩
    obtain ⟨hnone, hshown⟩ := hfound found rfl
    cases found with
    | none =>
      refine ⟨hP, rfl, fun found hok => ?_⟩
      cases hok
      refine ⟨fun _ => hnone rfl, ?_⟩
      intro shown current hfound
      cases hfound
    | some shown =>
      have hshows := hshown shown rfl
      refine Service.meets_still_bind hP (still_iterate _) (fun items hitems => ?_)
        (fun e _ => ⟨rfl, fun found hok => by cases hok⟩)
      refine ⟨hP, rfl, fun found hok => ?_⟩
      cases hok
      constructor
      · intro hnone
        cases hnone
      intro shown' current hfound
      cases hfound
      refine ⟨shown_stamp hshows, ?_⟩
      -- `null` is iterated as no groups
      have hgroups : items = team.access_group_ids.map .str := by
        rcases hshows.groups with harr | ⟨hnull, hnil⟩
        · rw [harr] at hitems
          exact iterate_arr hitems
        · rw [hnull] at hitems
          cases hitems
          rw [hnil]
          rfl
      rw [hgroups, List.filter_eq_self]
      intro item hitem
      obtain ⟨id, -, rfl⟩ := List.mem_map.mp hitem
      rfl
  · rintro s' e hP ⟨rfl, -⟩
    refine ⟨rfl, ?_⟩
    intro found hok
    cases hok

/-- What is known about the team when its groups are written. -/
theorem attached_groups_meets {P : Tables → Prop} {created : Bool} {team : Team} (hs : P s)
    (h : Ready settings p created team s) :
    (litellm_when good).Meets P (fun s' res => s' = s ∧ ∀ found, res = .ok found →
      (found = none → ¬ good) ∧ ∀ shown current, found = some (shown, current) →
        (created || stamped_as_ours shown) = team.stamped ∧
        current = team.access_group_ids.map .str) s (attached_groups (p.team_id settings) created).run := by
  cases created with
  | true =>
    unfold attached_groups
    refine ⟨hs, rfl, fun found hok => ?_⟩
    cases hok
    refine ⟨nofun, fun shown current hfound => ?_⟩
    cases hfound
    rw [(h.fresh rfl).1, (h.fresh rfl).2]
    exact ⟨rfl, rfl⟩
  | false => exact read_groups_meets hs h.row

/-- Texts are kept apart as texts. -/
theorem foldl_add_key_texts (xs seen : List String) :
    (xs.map Json.str).foldl add_key (seen.map .str) = (xs.foldl add_group seen).map .str := by
  induction xs generalizing seen with
  | nil => rfl
  | cons x xs ih =>
    rw [List.map_cons, List.foldl_cons, List.foldl_cons, ← ih]
    congr 1
    have hany : (seen.map Json.str).any (Json.keyEq (.str x)) = seen.contains x := by
      rw [List.any_map, List.contains_eq_any_beq]
      rfl
    rw [add_key, hany, add_group]
    split
    · rfl
    · simp

theorem group_list_texts (ids : List String) : group_list (.arr (ids.map .str)) = some ids := by
  rw [group_list, List.mapM_map]
  induction ids with
  | nil => rfl
  | cons id ids ih =>
    rw [List.mapM_cons, ih]
    rfl

/-- The body that is written leaves the row attached. -/
theorem attach_update (team : Team) (id : String) (wanted : List String) :
    team.update (attach_body id ((with_groups team.access_group_ids wanted).map .str) team.stamped) =
      some (team.attached wanted) := by
  rw [Team.update, attach_body_groups]
  show (group_list _).map _ = _
  rw [group_list_texts]
  cases hstamp : team.stamped with
  | true =>
    show some _ = some _
    rw [Team.attached, hstamp]
    rfl
  | false =>
    show some _ = some _
    rw [Team.attached, hstamp]
    rfl

/-- Attaching is a step on the way. -/
theorem finished_attached (team : Team) (email : String) (wanted : List String) :
    (team.attached wanted).finished email wanted = team.finished email wanted := by
  rw [Team.finished, Team.finished, attached_add_member, attached_again]

theorem updated_attached {created : Bool} {team : Team} (h : Ready settings p created team s)
    (wanted : List String) : s.updated_team (attach_body (p.team_id settings)
      ((with_groups team.access_group_ids wanted).map .str) team.stamped) =
      some (p.team_id settings, team.attached wanted) := by
  unfold Tables.updated_team
  rw [attach_body_team_id]
  show (s.teams.lookup (p.team_id settings)).bind _ = _
  rw [h.row, Option.bind_some, attach_update]
  rfl

variable (good) in
theorem team_update_same {created : Bool} {team : Team} (h : Ready settings p created team s)
    (answer : HttpReply) (effective : Bool) :
    Same settings p s ((litellm_when good).after s ⟨.team_update (attach_body (p.team_id settings)
      ((with_groups team.access_group_ids (wanted settings s p.ensure)).map .str) team.stamped),
      answer, effective⟩) := by
  unfold Service.after
  split
  · show Same settings p s (s.write_team (s.updated_team _))
    rw [updated_attached h]
    apply same_set_team
    rw [finished_attached, Person.final_team, h.row]
    rfl
  · exact same_refl s

/-- With its member the team is done when its groups are attached. -/
theorem team_update_done {team : Team} (hmember : team.members.contains p.email = true) :
    TeamDone settings p
      (s.set_team (p.team_id settings) (team.attached (wanted settings s p.ensure))) := by
  have hjoined : team.add_member p.email = team := by
    rw [Team.add_member, if_pos hmember]
  have hrow : (s.set_team (p.team_id settings) (team.attached (wanted settings s p.ensure))).teams.lookup
      (p.team_id settings) = some (team.attached (wanted settings s p.ensure)) := by
    rw [Tables.lookup_set_team, if_pos rfl]
  rw [TeamDone, Person.final_team, hrow]
  show _ = some ((team.attached (wanted settings s p.ensure)).finished p.email
    (wanted settings s p.ensure))
  rw [finished_attached, Team.finished, hjoined]

/-- Phase 2. -/
theorem attach_groups_meets {created : Bool} {team : Team} (hs : Same settings p s₀ s)
    (h : Ready settings p created team s) (hmember : good → team.members.contains p.email = true) :
    (litellm_when good).Meets (Same settings p s₀) (fun s' res => ∀ t, res = .ok t →
      s'.users = s.users ∧ (good → TeamDone settings p s')) s
      (attach_groups (p.team_id settings) created ((wanted settings s p.ensure).map .str)).run := by
  refine Service.meets_run_bind (attached_groups_meets hs h) ?_ (fun _ _ _ _ => nofun)
  rintro s' found hs ⟨rfl, hfound⟩
  obtain ⟨hnone, hshown⟩ := hfound found rfl
  cases found with
  | none => exact ⟨hs, fun t ht => ⟨rfl, fun hgood => absurd hgood (hnone rfl)⟩⟩
  | some found =>
    obtain ⟨shown, current⟩ := found
    obtain ⟨howned, rfl⟩ := hshown shown current rfl
    refine Service.meets_still_bind hs (still_from_keys _) (fun ids hids => ?_) (fun _ => nofun)
    -- the list that is written is what was read and what is wanted
    have hids : ids = (with_groups team.access_group_ids (wanted settings s' p.ensure)).map .str := by
      rw [from_keys_ok hids, ← List.map_append]
      exact foldl_add_key_texts _ []
    subst hids
    rw [howned]
    refine meets_request hs (fun _ _ => nofun)
      (fun effective answer => hs.trans (team_update_same good h answer effective))
      (fun effective resp hans => ?_)
    have hkeeps := hs.trans (team_update_same good h (.response resp) effective)
    refine Service.meets_still_bind hkeeps (still_expect _ _ _) (fun _ hexpect => ?_) (fun _ => nofun)
    obtain ⟨rfl, -⟩ := hans.1 (expect_ok hexpect)
    refine ⟨hkeeps, fun t ht => ?_⟩
    -- and that is the row after the update
    have hafter : (litellm_when good).after s' ⟨.team_update (attach_body (p.team_id settings)
        ((with_groups team.access_group_ids (wanted settings s' p.ensure)).map .str) team.stamped),
        .response resp, true⟩ =
        s'.set_team (p.team_id settings) (team.attached (wanted settings s' p.ensure)) := by
      show s'.write_team (s'.updated_team _) = _
      rw [updated_attached h]
      rfl
    rw [hafter]
    exact ⟨rfl, fun hgood => team_update_done (hmember hgood)⟩

/-- The whole of `ensure_personal_team`, for a user that is there. -/
theorem ensure_personal_team_meets (hplain : Plain p.factory) (hs : Same settings p s₀ s)
    (huser : (s.users.lookup p.email).isSome = true) :
    (litellm_when good).Meets (Same settings p s₀) (fun s' res => ∀ t, res = .ok t →
      s'.users = s.users ∧ (good → TeamDone settings p s')) s
      (ensure_personal_team settings p.email p.factory p.sso_groups).run := by
  rw [ensure_personal_team_eq]
  refine Service.meets_still_bind hs (still_dict_get _ _ _) (fun user hblock => ?_) (fun _ => nofun)
  refine Service.meets_still_bind hs (still_ite (still_dict_items _) (still_pure _))
    (fun items hitems => ?_) (fun _ => nofun)
  unfold ensure_with
  simp only [envelope_ok hblock hitems]
  refine meets_request (o := .team_new (p.team_body settings)) hs (fun _ _ => nofun)
    (fun effective answer => hs.trans (team_new_same good hplain s answer effective))
    (fun effective resp hans => ?_)
  have hs₁ := hs.trans (team_new_same good hplain s (.response resp) effective)
  refine Service.meets_still_bind hs₁ (still_expect _ _ _) (fun _ hexpect => ?_) (fun _ => nofun)
  have hok : resp.status_code = 200 ∨ already_exists resp = true := by simpa using expect_ok hexpect
  -- after `/team/new` the team is there, whoever has created it
  obtain ⟨team, hready, husers⟩ := team_new_ready good hplain hans.1 hok huser
  generalize (litellm_when good).after s ⟨.team_new (p.team_body settings), .response resp, effective⟩ =
    s₁ at hs₁ hready husers
  refine meets_request (o := .member_add (p.team_id settings) p.email none) hs₁ (fun _ _ => nofun)
    (fun effective answer => hs₁.trans (member_add_same good hready answer effective))
    (fun effective mem hans => ?_)
  have hs₂ := hs₁.trans (member_add_same good hready (.response mem) effective)
  -- after `/team/member_add` its user is a member
  obtain ⟨team', hready', hmember, husers'⟩ := member_add_ready hready hans
  generalize (litellm_when good).after s₁ ⟨.member_add (p.team_id settings) p.email none,
    .response mem, effective⟩ = s₂ at hs₂ hready' husers'
  refine Service.meets_still_bind hs₂ (still_expect _ _ _) (fun _ _ => ?_) (fun _ => nofun)
  refine Service.meets_run_bind (resolve_meets hs₂) ?_ (fun _ _ _ _ => nofun)
  rintro s₃ ids hs₃ ⟨rfl, hids⟩
  obtain rfl := hids ids rfl
  refine (attach_groups_meets hs₃ hready' hmember).mono ?_
  intro s' res _ hres t ht
  obtain ⟨husers'', hdone⟩ := hres t ht
  exact ⟨husers''.trans (husers'.trans husers), hdone⟩

/-! ## The backfill -/

/-- What reading the user comes to. -/
def Reads (settings : LitellmSettings) (p : Person) (s : Tables) (res : Except Failure Dict) : Prop :=
  (∀ existing, res = .ok existing → p.reading settings s = some existing) ∧
  (res = .error .not_found → p.reading settings s = none)

/-- The same in terms of the row that is found. -/
def Finds (settings : LitellmSettings) (s : Tables) (email : String) (res : Except Failure Dict) :
    Prop :=
  (∀ existing, res = .ok existing →
    ∃ row, s.found email = some row ∧ normal settings row email = some existing) ∧
  (res = .error .not_found → s.found email = none)

theorem finds_error {email : String} {e : Failure} (h : e ≠ .not_found) :
    Finds settings s email (.error e) :=
  ⟨nofun, fun heq => absurd (Except.error.inj heq) h⟩

theorem parsed_error {resp : HttpResponse} {e : Failure} (h : resp.parsed.run = .ret (.error e)) :
    e ≠ .not_found := by
  unfold HttpResponse.parsed at h
  split at h
  · cases h
  · cases h
    exact nofun

theorem expect_error {ok : Bool} {endpoint : String} {resp : HttpResponse} {e : Failure}
    (h : (expect ok endpoint resp).run = .ret (.error e)) : e ≠ .not_found := by
  cases ok with
  | true => cases h
  | false =>
    cases h
    exact nofun

theorem iterate_error {items : List Json} {e : Failure}
    (h : (iterate (.arr items)).run = .ret (.error e)) : e ≠ .not_found := by
  cases items with
  | nil => cases h
  | cons x xs => cases h

theorem factory_user_error {factory : Json} {e : Failure}
    (h : (factory_user factory).run = .ret (.error e)) : e ≠ .not_found := by
  have hblock : ∀ (given : Dict → Dict) (value : Json), (do
      let items ← dict_items value
      return given items : L Dict).run = .ret (.error e) → e ≠ .not_found := by
    intro given value h
    cases value with
    | obj => cases h
    | null | bool | num | str | arr =>
      cases h
      intro hne
      cases hne
  cases factory with
  | obj fields => exact hblock _ _ h
  | null | bool | num | str | arr =>
    cases h
    intro hne
    cases hne

theorem or_metadata_error {info : Dict} {key other : String} {metadata : Json} {e : Failure}
    (h : (or_metadata info key metadata other).run = .ret (.error e)) : e ≠ .not_found := by
  unfold or_metadata at h
  split at h
  · cases h
  · cases metadata with
    | obj fields => cases h
    | null | bool | num | str | arr =>
      cases h
      exact nofun

theorem normalize_user_error {info : Dict} {email : String} {e : Failure}
    (h : (normalize_user settings info email).run = .ret (.error e)) : e ≠ .not_found := by
  change Prog.bind (or_metadata info "user_email" _ "email").run _ = _ at h
  obtain ⟨res, hres⟩ := still_or_metadata info "user_email"
    (parse_metadata settings (field info "metadata")) "email"
  rw [hres] at h
  cases res with
  | error e' =>
    cases h
    exact or_metadata_error hres
  | ok mail =>
    change Prog.bind (or_metadata info "user_alias" _ "name").run _ = _ at h
    obtain ⟨res', hres'⟩ := still_or_metadata info "user_alias"
      (parse_metadata settings (field info "metadata")) "name"
    rw [hres'] at h
    cases res' with
    | error e' =>
      cases h
      exact or_metadata_error hres'
    | ok name => cases h

/-- A row is read as it is shown. -/
theorem normalize_finds {row : Columns} {shown : Dict} {email : String}
    (hfound : s.found email = some row) (hshows : Tables.ShowsUser row shown)
    {res : Except Failure Dict} (h : (normalize_user settings shown email).run = .ret res) :
    Finds settings s email res := by
  cases res with
  | ok existing =>
    refine ⟨fun existing' heq => ⟨row, hfound, ?_⟩, nofun⟩
    obtain rfl := Except.ok.inj heq
    exact normal_of_shown hshows h
  | error e => exact finds_error (normalize_user_error h)

/-- The rows in the body of `/user/list`. -/
def listed_users (payload : Json) : Json :=
  match payload with
  | .obj fields => (fields.lookup "users").getD payload
  | _ => payload

/-- What `user_by_email` makes of the row it has picked. -/
def user_of_row (settings : LitellmSettings) (email : String) : Option Dict → L Dict
  | none => throw .not_found
  | some row => normalize_user settings row email

/-- The user is looked up by its email. -/
theorem user_by_email_meets {P : Tables → Prop} (hs : P s) {email : String}
    (hfound : s.found email = (s.first_by_email email).bind s.user) :
    (litellm_when good).Meets P (fun s' res => s' = s ∧ Finds settings s email res) s
      (user_by_email settings email).run := by
  refine Service.meets_call hs fun effective answer hans => ?_
  have hsame : (litellm_when good).after s ⟨.user_list email, answer, effective⟩ = s := after_read rfl
  rw [hsame]
  cases answer with
  | transport_error =>
    refine ⟨hs, rfl, finds_error ?_⟩
    intro hne
    cases hne
  | response resp =>
    refine Service.meets_still_bind hs (still_expect _ _ _) (fun _ hexpect => ?_)
      (fun e he => ⟨rfl, finds_error (expect_error he)⟩)
    refine Service.meets_still_bind hs (still_parsed _) (fun payload hpayload => ?_)
      (fun e he => ⟨rfl, finds_error (parsed_error he)⟩)
    obtain ⟨rows, hshows, hjson⟩ := hans.1 (expect_ok hexpect)
    -- the rows come as they are, or under a key
    have husers : listed_users payload = .arr rows := by
      rw [parsed_ok hpayload] at hjson
      rcases hjson with hjson | ⟨fields, hjson, hlookup⟩
      · cases hjson
        rfl
      · cases hjson
        show (fields.lookup "users").getD _ = _
        rw [hlookup]
        rfl
    show (litellm_when good).Meets P _ s (ExceptT.run (iterate (listed_users payload) >>= _))
    rw [husers]
    refine Service.meets_still_bind hs (still_iterate _) (fun items hitems => ?_)
      (fun e he => ⟨rfl, finds_error (iterate_error he)⟩)
    obtain rfl := iterate_arr hitems
    unfold Tables.ShowsByEmail at hshows
    split at hshows
    · next shown row hrow huser =>
      obtain ⟨res, hres⟩ := still_normalize_user settings shown email
      have hpick : (user_of_row settings email (Tables.row_by_email items email)).run = .ret res := by
        rw [hrow]
        exact hres
      show (litellm_when good).Meets P _ s
        (user_of_row settings email (Tables.row_by_email items email)).run
      rw [hpick]
      exact ⟨hs, rfl, normalize_finds (hfound.trans huser) hshows hres⟩
    · next hrow huser =>
      show (litellm_when good).Meets P _ s
        (user_of_row settings email (Tables.row_by_email items email)).run
      rw [hrow]
      refine ⟨hs, rfl, ?_, fun _ => hfound.trans huser⟩
      intro user hok
      cases hok
    · exact hshows.elim

/-- What `/user/info` answers: nothing or a placeholder for a user that is not
    there, and else the row. -/
theorem user_info_of_shown {resp : HttpResponse} {effective : Bool} {id : String} {info : Dict}
    (hans : s.admits (.user_info id) effective (.response resp))
    (h : (user_info_of resp).run = .ret (.ok info)) :
    (s.user id = none ∧ (info.isEmpty || is_placeholder info) = true) ∨
      ∃ row, s.user id = some row ∧ Tables.ShowsUser row info := by
  unfold user_info_of at h
  split at h
  · next hstatus =>
    cases h
    exact .inl ⟨hans.1 hstatus, rfl⟩
  · obtain ⟨_, hexpect, hrest⟩ := run_bind_ok h
    obtain ⟨value, hvalue, hdone⟩ := run_bind_ok hrest
    obtain ⟨value', hjson, hshows⟩ := hans.2 (expect_ok hexpect)
    rw [parsed_ok hvalue] at hjson
    cases hjson
    cases hdone
    cases huser : s.user id with
    | none =>
      rw [huser] at hshows
      exact .inl ⟨rfl, by rw [hshows, Bool.or_true]⟩
    | some row =>
      rw [huser] at hshows
      exact .inr ⟨row, rfl, hshows⟩

theorem user_info_of_error {resp : HttpResponse} {e : Failure}
    (h : (user_info_of resp).run = .ret (.error e)) : e ≠ .not_found := by
  unfold user_info_of at h
  split at h
  · cases h
  · change Prog.bind (expect _ _ _).run _ = _ at h
    obtain ⟨res, hres⟩ := still_expect resp.is_success "/user/info" resp
    rw [hres] at h
    cases res with
    | error e' =>
      cases h
      exact expect_error hres
    | ok u =>
      change Prog.bind resp.parsed.run _ = _ at h
      obtain ⟨res', hres'⟩ := still_parsed resp
      rw [hres'] at h
      cases res' with
      | error e' =>
        cases h
        exact parsed_error hres'
      | ok value => cases h

/-- The id of a person is a placeholder only if it is LiteLLM's own. -/
theorem is_placeholder_shown {columns : Columns} {info : Dict} (hemail : p.email ≠ "")
    (hshows : Tables.ShowsUser (Tables.user_row p.email columns) info) :
    (info.isEmpty || is_placeholder info) = decide (p.email = LITELLM_PLACEHOLDER_USER_ID) := by
  have hid : info.lookup "user_id" = some (.str p.email) := hshows "user_id" (by decide)
  have hnonempty : info.isEmpty = false := by
    cases info with
    | nil => cases hid
    | cons row rows => rfl
  have hfield : field info "user_id" = .str p.email := by
    rw [field, hid]
    rfl
  rw [hnonempty, Bool.false_or, is_placeholder, hfield]
  have htruthy : (Json.str p.email).truthy = true := by simp [Json.truthy, hemail]
  rw [htruthy, Bool.or_true, Bool.not_true, Bool.or_false]
  simp [is_text, Bool.beq_eq_decide_eq]

/-- A row has an id, and is a placeholder or not however it is shown. -/
theorem shown_placeholder {id : String} {row : Columns} {info : Dict} (huser : s.user id = some row)
    (hshows : Tables.ShowsUser row info) :
    (info.isEmpty || is_placeholder info) = is_placeholder (Tables.show_user row) := by
  obtain ⟨columns, -, rfl⟩ := Option.map_eq_some_iff.mp huser
  have hid : info.lookup "user_id" = some (.str id) := hshows "user_id" (by decide)
  have hnonempty : info.isEmpty = false := by
    cases info with
    | nil => cases hid
    | cons row rows => rfl
  have hfield : ∀ key ∈ Tables.read_columns,
      field info key = field (Tables.show_user (Tables.user_row id columns)) key := by
    intro key hkey
    rw [field_shown hshows hkey, field_shown (Tables.shows_show_user _) hkey]
  rw [hnonempty, Bool.false_or, is_placeholder, is_placeholder, hfield "user_id" (by decide),
    hfield "user_email" (by decide)]

theorem get_litellm_user_finds {P : Tables → Prop} (hs : P s) (email : String) :
    (litellm_when good).Meets P (fun s' res => s' = s ∧ Finds settings s email res) s
      (get_litellm_user settings email).run := by
  refine Service.meets_call hs fun effective answer hans => ?_
  have hsame : (litellm_when good).after s ⟨.user_info email, answer, effective⟩ = s := after_read rfl
  rw [hsame]
  cases answer with
  | transport_error => exact ⟨hs, rfl, finds_error nofun⟩
  | response resp =>
    refine Service.meets_still_bind hs (still_user_info_of _) (fun info hinfo => ?_)
      (fun e he => ⟨rfl, finds_error (user_info_of_error he)⟩)
    -- no row, or one that is a placeholder: the list is asked
    rcases user_info_of_shown hans.1 hinfo with ⟨huser, hnone⟩ | ⟨row, huser, hshows⟩
    · rw [if_pos hnone]
      apply user_by_email_meets hs
      rw [Tables.found, huser]
    · rw [shown_placeholder huser hshows]
      cases hplaceholder : is_placeholder (Tables.show_user row) with
      | true =>
        apply user_by_email_meets hs
        rw [Tables.found, huser]
        exact if_pos hplaceholder
      | false =>
        obtain ⟨res, hres⟩ := still_normalize_user settings info email
        show (litellm_when good).Meets P _ s (normalize_user settings info email).run
        rw [hres]
        refine ⟨hs, rfl, normalize_finds ?_ hshows hres⟩
        rw [Tables.found, huser]
        exact if_neg (by rw [hplaceholder]; exact Bool.false_ne_true)

/-- The row that is found for a person that is there. -/
theorem reading_found (hemail : p.email ≠ "") {columns : Columns}
    (hrow : s.users.lookup p.email = some columns) :
    p.reading settings s = (s.found p.email).bind fun row => normal settings row p.email := by
  have huser : s.user p.email = some (Tables.user_row p.email columns) := by
    rw [Tables.user, hrow]
    rfl
  have hplaceholder : is_placeholder (Tables.show_user (Tables.user_row p.email columns)) =
      decide (p.email = LITELLM_PLACEHOLDER_USER_ID) := by
    rw [← shown_placeholder huser (Tables.shows_show_user _),
      is_placeholder_shown hemail (Tables.shows_show_user _)]
  rw [Person.reading, Person.read_id, Tables.found, huser]
  show _ = Option.bind (if is_placeholder _ then _ else _) _
  rw [hplaceholder]
  by_cases heq : p.email = LITELLM_PLACEHOLDER_USER_ID
  · rw [if_pos heq, if_pos (decide_eq_true heq), Option.bind_assoc]
  · rw [if_neg heq, if_neg (by simpa using heq), Option.bind_some, huser, Option.bind_some]

theorem get_litellm_user_meets {P : Tables → Prop} (hs : P s) (hemail : p.email ≠ "")
    {columns : Columns} (hrow : s.users.lookup p.email = some columns) :
    (litellm_when good).Meets P (fun s' res => s' = s ∧ Reads settings p s res) s
      (get_litellm_user settings p.email).run := by
  refine (get_litellm_user_finds hs p.email).mono ?_
  rintro s' res - ⟨rfl, hfinds⟩
  refine ⟨rfl, fun existing hok => ?_, fun herr => ?_⟩
  · obtain ⟨row, hfound, hnormal⟩ := hfinds.1 existing hok
    rw [reading_found hemail hrow, hfound]
    exact hnormal
  · rw [reading_found hemail hrow, hfinds.2 herr]
    rfl

/-- The user is done, and the team is as it was. -/
def Backfilled (settings : LitellmSettings) (p : Person) (s s' : Tables) : Prop :=
  UserDone settings p s' ∧ s'.teams = s.teams ∧ s'.access_groups = s.access_groups

theorem update_body_id (hplain : Plain p.factory) (existing : Dict) :
    text_field (Json.update [("user_id", .str p.email)] (p.missing existing)) "user_id" =
      some p.email := by
  have hnone : p.supplied "user_id" = none := hplain.last (by decide)
  rw [text_field, field, Json.lookup_update, lookup_missing hplain, hnone, ite_self]
  rfl

theorem updated_filled (hplain : Plain p.factory) {columns : Columns}
    (hrow : s.users.lookup p.email = some columns) (existing : Dict) :
    s.updated_user (Json.update [("user_id", .str p.email)] (p.missing existing)) =
      some (p.email, p.filled existing columns) := by
  unfold Tables.updated_user
  rw [update_body_id hplain]
  show (s.users.lookup p.email).map _ = _
  rw [hrow, Option.map_some, supply_missing hplain]

theorem final_user_set {columns : Columns} :
    p.final_user settings (s.set_user p.email columns) =
      p.backfilled settings (s.set_user p.email columns) columns := by
  have hrow : (s.set_user p.email columns).users.lookup p.email = some columns :=
    Table.lookup_put_self _ _ _
  rw [Person.final_user, hrow]

theorem patch_user_meets (hplain : Plain p.factory) (hemail : p.email ≠ "")
    (hs : Same settings p s₀ s) {columns : Columns} (hrow : s.users.lookup p.email = some columns)
    {existing : Dict} (hread : p.reading settings s = some existing) :
    (litellm_when good).Meets (Same settings p s₀) (fun s' res => res ≠ .error .not_found ∧
      ∀ u, res = .ok u → Backfilled settings p s s') s (patch_user p.email (p.missing existing)).run := by
  have hfinal : p.final_user settings s = p.filled existing columns := by
    rw [Person.final_user, hrow]
    show p.backfilled settings s columns = _
    rw [Person.backfilled, hread]
  unfold patch_user
  split
  · next hempty =>
    refine ⟨hs, nofun, fun u _ => ⟨?_, rfl, rfl⟩⟩
    rw [UserDone, hrow, hfinal, filled_of_missing_nil hplain (List.isEmpty_iff.mp hempty)]
  -- to fill a row that is filled changes nothing, so any number of attempts agree
  · have hagain := backfilled_again settings hplain hemail hrow hread
    have hsame : ∀ effective answer, Same settings p s ((litellm_when good).after s
        ⟨.user_update (Json.update [("user_id", .str p.email)] (p.missing existing)), answer,
          effective⟩) := by
      intro effective answer
      unfold Service.after
      split
      · show Same settings p s (s.write_user (s.updated_user _))
        rw [updated_filled hplain hrow]
        exact same_set_user (hagain.trans hfinal.symm)
      · exact same_refl s
    refine meets_request hs (fun _ _ => ⟨nofun, nofun⟩)
      (fun effective answer => hs.trans (hsame effective answer)) (fun effective resp hans => ?_)
    have hkeeps := hs.trans (hsame effective (.response resp))
    obtain ⟨res, hres⟩ := still_expect resp.is_success "/user/update (backfill)" resp
    rw [hres]
    refine ⟨hkeeps, fun he => ?_, fun u hu => ?_⟩
    · subst he
      exact expect_error hres rfl
    subst hu
    obtain ⟨rfl, -⟩ := hans.1 (expect_ok hres)
    have hafter : (litellm_when good).after s ⟨.user_update
        (Json.update [("user_id", .str p.email)] (p.missing existing)), .response resp, true⟩ =
        s.set_user p.email (p.filled existing columns) := by
      show s.write_user (s.updated_user _) = _
      rw [updated_filled hplain hrow]
      rfl
    rw [hafter]
    refine ⟨?_, rfl, rfl⟩
    have hset : (s.set_user p.email (p.filled existing columns)).users.lookup p.email =
        some (p.filled existing columns) := Table.lookup_put_self _ _ _
    rw [UserDone, hset, final_user_set, hagain]

theorem backfill_eq : backfill settings p.email p.name p.factory = (do
    let existing ← get_litellm_user settings p.email
    let user ← factory_user p.factory
    let missing := user.filter fun (k, _) => (field existing k).isNull
    let missing := if (field existing "email").truthy then missing
      else Json.set missing "user_email" (.str p.email)
    let missing := if p.name.getD "" = "" || (field existing "name").truthy then missing
      else Json.set missing "user_alias" (.str (p.name.getD ""))
    patch_user p.email missing) := rfl

/-- The backfill, and what is left of it when the user is not found. -/
theorem backfill_existing_meets (hplain : Plain p.factory) (hemail : p.email ≠ "")
    (hs : Same settings p s₀ s) {columns : Columns} (hrow : s.users.lookup p.email = some columns)
    {existed : Bool} (hdone : existed = false → UserDone settings p s) :
    (litellm_when good).Meets (Same settings p s₀) (fun s' res => ∀ u, res = .ok u →
      Backfilled settings p s s') s (backfill_existing settings existed p.email p.name p.factory).run := by
  unfold backfill_existing
  cases existed with
  | false => exact ⟨hs, fun u _ => ⟨hdone rfl, rfl, rfl⟩⟩
  | true =>
    have hbackfill : (litellm_when good).Meets (Same settings p s₀) (fun s' res =>
        (∀ u, res = .ok u → Backfilled settings p s s') ∧
        (res = .error .not_found → s' = s ∧ p.reading settings s = none)) s
        (backfill settings p.email p.name p.factory).run := by
      rw [backfill_eq]
      refine Service.meets_run_bind (get_litellm_user_meets hs hemail hrow) ?_ ?_
      · rintro s' existing hs' ⟨rfl, hreads⟩
        refine Service.meets_still_bind hs' (still_factory_user _) (fun user huser => ?_)
          (fun e he => ?_)
        · obtain rfl := factory_user_ok huser
          refine (patch_user_meets hplain hemail hs' hrow (hreads.1 existing rfl)).mono ?_
          exact fun s'' res _ hres => ⟨hres.2, fun he => absurd he hres.1⟩
        · exact ⟨nofun, fun h => absurd (Except.error.inj h) (factory_user_error he)⟩
      · rintro s' e hs' ⟨rfl, hreads⟩
        exact ⟨nofun, fun he => ⟨rfl, hreads.2 (congrArg _ (Except.error.inj he))⟩⟩
    refine Service.meets_run_catch hbackfill (fun s' u _ hres => hres.1) ?_
    rintro s' e hs' ⟨-, hnotfound⟩
    -- a user that is not found has nothing to be filled
    cases e with
    | not_found =>
      obtain ⟨rfl, hnone⟩ := hnotfound rfl
      refine ⟨hs', fun u _ => ⟨?_, rfl, rfl⟩⟩
      rw [UserDone, hrow, Person.final_user, hrow]
      show _ = some (p.backfilled settings s' columns)
      rw [Person.backfilled, hnone]
    | status | transport | not_member | crashed => exact ⟨hs', nofun⟩

/-! ## The whole call -/

theorem backfilled_team_done {s' : Tables} (h : Backfilled settings p s s')
    (hteam : TeamDone settings p s) : TeamDone settings p s' := by
  have hgroups : wanted settings s' p.ensure = wanted settings s p.ensure := by
    unfold wanted Tables.group_id
    rw [h.2.2]
  unfold TeamDone Person.final_team at hteam ⊢
  rw [h.2.1, hgroups]
  exact hteam

/-- The user and the team. -/
theorem team_and_user_meets (hplain : Plain p.factory) (hs : Same settings p s₀ s) :
    (litellm_when good).Meets (Same settings p s₀) (fun s' res => ∀ v t, res = .ok (v, t) →
      (∃ columns, s'.users.lookup p.email = some columns) ∧
      (∀ existed, (dict_get v "existed" .null).run = .ret (.ok existed) → existed.truthy = false →
        UserDone settings p s') ∧ (good → TeamDone settings p s')) s
      (team_and_user settings true p.email p.name p.factory none p.sso_groups).run := by
  refine Service.meets_run_bind (ensure_litellm_user_meets hplain hs) ?_ (fun _ _ _ _ => nofun)
  intro s₁ v hs₁ hv
  obtain ⟨⟨columns, hrow⟩, hdone⟩ := hv v rfl
  have huser : (s₁.users.lookup p.email).isSome = true := by
    rw [hrow]
    rfl
  refine Service.meets_run_bind (ensure_personal_team_meets hplain hs₁ huser) ?_ (fun _ _ _ _ => nofun)
  intro s₂ t hs₂ ht
  obtain ⟨husers, hteam⟩ := ht t rfl
  refine ⟨hs₂, fun v' t' hok => ?_⟩
  cases hok
  refine ⟨⟨columns, by rw [husers]; exact hrow⟩, fun existed hexisted hfalsy => ?_, hteam⟩
  -- the team does not touch the user
  have huserdone := hdone existed hexisted hfalsy
  have hfinal : p.final_user settings s₂ = p.final_user settings s₁ := hs₂.user.trans hs₁.user.symm
  rw [UserDone, husers, hfinal]
  exact huserdone

theorem provision_person_meets (hplain : Plain p.factory) (hemail : p.email ≠ "")
    (hpersonal : settings.personal_teams_enabled = true) (hs : Same settings p s₀ s) :
    (litellm_when good).Meets (Same settings p s₀) (fun s' res => ∀ t, res = .ok t → good →
      TeamDone settings p s' ∧ UserDone settings p s') s (provision_person settings p) := by
  unfold provision_person ensure_team_and_user
  have hbranch : (settings.personal_teams_enabled && (none : Option String).isNone) = true := by
    rw [hpersonal]
    rfl
  rw [hbranch]
  show (litellm_when good).Meets _ _ s (ExceptT.run (dict_get p.factory "team" (.obj []) >>= _))
  refine Service.meets_still_bind hs (still_dict_get _ _ _) (fun team _ => ?_) (fun _ => nofun)
  refine Service.meets_still_bind hs (still_dict_items _) (fun _ _ => ?_) (fun _ => nofun)
  refine Service.meets_run_bind (team_and_user_meets hplain hs) ?_ (fun _ _ _ _ => nofun)
  rintro s₁ ⟨v, t⟩ hs₁ hv
  obtain ⟨⟨columns, hrow⟩, hdone, hteam⟩ := hv v t rfl
  refine Service.meets_still_bind hs₁ (still_dict_get _ _ _) (fun existed hexisted => ?_)
    (fun _ => nofun)
  refine Service.meets_run_bind (backfill_existing_meets hplain hemail hs₁ hrow
    (hdone existed hexisted)) ?_ (fun _ _ _ _ => nofun)
  intro s₂ u hs₂ hu
  have hbackfilled := hu u rfl
  refine Service.meets_still_bind hs₂ (still_dict_get _ _ _) (fun user _ => ?_) (fun _ => nofun)
  refine Service.meets_still_bind hs₂ (still_dict_get _ _ _) (fun budget _ => ?_) (fun _ => nofun)
  refine ⟨hs₂, fun t' _ hgood => ?_⟩
  exact ⟨backfilled_team_done hbackfilled (hteam hgood), hbackfilled.1⟩

/-- After any number of attempts a call that succeeds leaves every row as one
    call that succeeds at once does. -/
theorem provisioning_converges (hpersonal : settings.personal_teams_enabled = true)
    (hemail : p.email ≠ "") (hplain : Plain p.factory) {s₁ s₂ s' : Tables}
    {xs ys : List (Exchange Call HttpAns)} {t t' : String}
    (hattempts : litellm.Attempts (provision_person settings p) s₀ s₁)
    (hlast : (litellm_when True).Runs s₁ [] (provision_person settings p) s₂ xs (.ok t))
    (honce : (litellm_when True).Runs s₀ [] (provision_person settings p) s' ys (.ok t')) :
    (∀ id, s₂.teams.lookup id = s'.teams.lookup id) ∧
      ∀ id, s₂.users.lookup id = s'.users.lookup id := by
  have hkept : Same settings p s₀ s₁ := by
    refine Service.Attempts.keeps (fun s s' hs hstop => ?_) hattempts (same_refl s₀)
    have hanswers : ∀ s op effective answer, litellm.answers s op effective answer →
        (litellm_when False).answers s op effective answer := fun _ _ _ _ hans => ⟨hans, False.elim⟩
    have heffect : (litellm_when False).effect = litellm.effect := rfl
    have hstop' : (litellm_when False).Stops s (provision_person settings p) s' :=
      hstop.weaken heffect hanswers
    exact hstop'.meets (provision_person_meets hplain hemail hpersonal hs)
  have hlast := hlast.meets (provision_person_meets hplain hemail hpersonal hkept)
  have honce := honce.meets (provision_person_meets hplain hemail hpersonal (same_refl s₀))
  obtain ⟨hteam, huser⟩ := hlast.2 t rfl trivial
  obtain ⟨hteam', huser'⟩ := honce.2 t' rfl trivial
  exact same_done hlast.1 hteam huser honce.1 hteam' huser'

end

/-! ## A factory with groups -/

/-- Run a call to its end, with every request going well. -/
def provision_well (p : Person) (s : Tables) :
    Option (Tables × List (Exchange Call HttpAns) × Except Failure String) :=
  (litellm_when True).finish Tables.choose .well (fun s op _ answer => decide (Succeeds s op answer))
    s [] (provision_person team_settings p)

/-- Create the user, then send `/team/new` and lose the answer. -/
def stop_at_team (p : Person) (s : Tables) : Tables :=
  litellm.stop Tables.choose s (provision_person team_settings p) [.well, .answer_lost]

theorem attempts_stop (p : Person) (s : Tables) :
    litellm.Attempts (provision_person team_settings p) s (stop_at_team p s) :=
  .single (Service.stops_of_stop Tables.choose_admitted _ _ _)

theorem provision_well_runs {p : Person} {s s' : Tables} {xs : List (Exchange Call HttpAns)}
    {res : Except Failure String} (h : provision_well p s = some (s', xs, res)) :
    (litellm_when True).Runs s [] (provision_person team_settings p) s' xs res := by
  apply Service.runs_of_finish _ h
  intro s op htest
  exact ⟨Tables.choose_admitted s op .well, fun _ => of_decide_eq_true htest⟩

/-- Is the result a team, and what are its groups? -/
def provisioned_groups (p : Person) (s : Tables) : Option (List String) :=
  match provision_well p s with
  | some (s', _, .ok _) => some (s'.groups (p.team_id team_settings))
  | _ => none

theorem provisioned_groups_some {p : Person} {s : Tables} {groups : List String}
    (h : provisioned_groups p s = some groups) : ∃ s' xs t,
    (litellm_when True).Runs s [] (provision_person team_settings p) s' xs (.ok t) ∧
      s'.groups (p.team_id team_settings) = groups := by
  unfold provisioned_groups at h
  split at h
  · next s' xs t hwell => exact ⟨s', xs, t, provision_well_runs hwell, Option.some.inj h⟩
  · cases h

/-- A factory whose `user` block has a budget, and no group. -/
def plain_person : Person :=
  ⟨"ann", some "Ann", .obj [("user", .obj [("max_budget", .num 10), ("access_group_ids", .arr [])])],
    none⟩

theorem provisioning_converges_sample : ∃ s₁ s₂ s' xs ys t t',
    litellm.Attempts (provision_person team_settings plain_person) team_tables s₁ ∧
    (litellm_when True).Runs s₁ [] (provision_person team_settings plain_person) s₂ xs (.ok t) ∧
    (litellm_when True).Runs team_tables [] (provision_person team_settings plain_person) s' ys (.ok t') ∧
    (∀ id, s₂.teams.lookup id = s'.teams.lookup id) ∧
      ∀ id, s₂.users.lookup id = s'.users.lookup id := by
  obtain ⟨s₂, xs, t, hlast, -⟩ := provisioned_groups_some
    (show provisioned_groups plain_person (stop_at_team plain_person team_tables) = some ["g-base"] by
      decide +kernel)
  obtain ⟨s', ys, t', honce, -⟩ := provisioned_groups_some
    (show provisioned_groups plain_person team_tables = some ["g-base"] by decide +kernel)
  have hattempts := attempts_stop plain_person team_tables
  exact ⟨_, s₂, s', xs, ys, t, t', hattempts, hlast, honce,
    provisioning_converges rfl (by decide) ⟨by decide +kernel, .inr rfl⟩ hattempts hlast honce⟩

/-- A factory whose `user` block puts a group on every team. -/
def grouped_person : Person :=
  ⟨"ann", some "Ann", .obj [("user", .obj [("access_group_ids", .arr [.str "g-old"])])], none⟩

/-- One call that succeeds removes the group again; after an attempt that has
    created the team, the group stays. -/
theorem provisioning_diverges : ∃ s₁ s₂ s' xs ys t t',
    litellm.Attempts (provision_person team_settings grouped_person) team_tables s₁ ∧
    (litellm_when True).Runs s₁ [] (provision_person team_settings grouped_person) s₂ xs (.ok t) ∧
    (litellm_when True).Runs team_tables [] (provision_person team_settings grouped_person) s' ys
      (.ok t') ∧
    s₂.groups "personal-ann" = ["g-old", "g-base"] ∧ s'.groups "personal-ann" = ["g-base"] := by
  obtain ⟨s₂, xs, t, hlast, hgroups⟩ := provisioned_groups_some
    (show provisioned_groups grouped_person (stop_at_team grouped_person team_tables) =
      some ["g-old", "g-base"] by decide +kernel)
  obtain ⟨s', ys, t', honce, hgroups'⟩ := provisioned_groups_some
    (show provisioned_groups grouped_person team_tables = some ["g-base"] by decide +kernel)
  exact ⟨_, s₂, s', xs, ys, t, t', attempts_stop _ _, hlast, honce, hgroups, hgroups'⟩

end AlitellmAuth.Litellm
