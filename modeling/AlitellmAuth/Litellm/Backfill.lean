import AlitellmAuth.Litellm.Convergence

/-! # What the backfill overwrites

    `ensure_team_and_user` patches a user that is there. Which columns the user
    lacks is decided on the projection of `_normalize_user`, and the patch is
    sent under the names of the factory.

    * `unseen`: the columns that the projection has nothing for.
    * `Kept`: every value of every row is as before.
    * `Spares`: the factory has nothing else for a column that is unseen.
    * `backfill_keeps`: the values are kept exactly then.
    * `backfill_overwrites`: a soft budget is not.
-/

namespace AlitellmAuth.Litellm

open Interleave

variable (settings : LitellmSettings) (p : Person)

/-- `ensure_team_and_user`, for any team. -/
def provision_in (team_id : Option String) : Prog Call HttpAns (Except Failure String) :=
  (ensure_team_and_user settings p.email p.name (some p.factory) team_id p.sso_groups).run

/-! ## Values -/

/-- A value that is there; an empty name or email is none. -/
def Counts (key : String) (value : Json) : Prop :=
  value.isNull = false ∧ (key ∈ ["user_email", "user_alias"] → value.truthy = true)

/-- Every value of every user is as before. -/
def Kept (s s' : Tables) : Prop :=
  ∀ id columns, s.users.lookup id = some columns → ∃ columns', s'.users.lookup id = some columns' ∧
    ∀ key value, columns key = some value → Counts key value → columns' key = some value

/-- The projection of `_normalize_user` has nothing under the name of the
    column. -/
def unseen (row : Columns) (key : String) : Bool :=
  if key = "user_id" then false
  else if key = "email" then (identity settings row "user_email" "email").isNull
  else if key = "name" then (identity settings row "user_alias" "name").isNull
  else if key = "role" then ((row "user_role").getD .null).isNull
  else if key = "spend" then ((row "spend").getD (.num 0)).isNull
  else if key = "teams" then (normalize_teams ((row "teams").getD .null)).isNull
  else if key ∈ plain_columns then ((row key).getD .null).isNull
  else true

/-- The user has no name, and the identity provider has one. -/
def Person.unnamed (row : Columns) : Bool :=
  p.name.getD "" != "" && !(identity settings row "user_alias" "name").truthy

/-- The value that is at hand for a column: the name of a user that has none,
    or else what the factory says. -/
def Person.offered (row : Columns) (key : String) : Option Json :=
  if key = "user_alias" ∧ p.unnamed settings row = true then some (.str (p.name.getD ""))
  else (user_block p.factory).reverse.lookup key

/-- No column that is unseen in the row that is found has another value than
    the one at hand. -/
def Spares (s : Tables) (columns : Columns) : Prop :=
  ∀ row, s.found p.email = some row → ∀ key value, p.offered settings row key = some value →
    unseen settings row key = true → ∀ old, columns key = some old → Counts key old → value = old

section
variable {settings} {p} {row columns : Columns} {existing : Dict}

/-- `unseen` is what the projection says. -/
theorem field_unseen {email : String} (h : normal settings row email = some existing) (key : String) :
    (field existing key).isNull = unseen settings row key := by
  rw [normalize_user_ok (Tables.shows_show_user row) (normal_ok h)]
  by_cases hid : key = "user_id"
  · subst hid
    show (if ((row "user_id").getD .null).truthy then (row "user_id").getD .null else .str email).isNull = _
    rw [unseen, if_pos rfl]
    split
    · next htruthy => exact truthy_not_null htruthy
    · rfl
  by_cases hmem : key ∈ ["email", "name", "role"] ++ plain_columns
  · simp only [plain_columns, List.cons_append, List.nil_append, List.mem_cons, List.not_mem_nil,
      or_false] at hmem
    rcases hmem with rfl | rfl | rfl | rfl | rfl | rfl | rfl | rfl | rfl | rfl | rfl | rfl
    all_goals rfl
  · rw [List.mem_append, not_or] at hmem
    have hother : field existing key = .null := normal_other h (by simp_all) hmem.2
    rw [normalize_user_ok (Tables.shows_show_user row) (normal_ok h)] at hother
    rw [hother]
    simp only [plain_columns, List.mem_cons, List.not_mem_nil, or_false, not_or] at hmem
    simp [unseen, plain_columns, hid, hmem, Json.isNull]

/-- The columns that the patch supplies. -/
def Person.patch (p : Person) (existing : Dict) : Dict :=
  user_columns (Json.update [("user_id", .str p.email)] (p.missing existing))

/-- The patch has what is at hand for the columns that are unseen, and the
    email of a user that has none. -/
theorem lookup_patch (h : normal settings row p.email = some existing) (key : String) :
    (p.patch existing).lookup key =
      if key = "user_email" ∧ (identity settings row "user_email" "email").truthy = false
        then some (.str p.email)
      else if unseen settings row key then p.offered settings row key else none := by
  have hlacks : p.lacks existing "user_alias" = p.unnamed settings row := by
    rw [Person.unnamed, ← (normal_fields h).2.1]
    rfl
  have hemail : p.lacks existing "user_email" =
      !(identity settings row "user_email" "email").truthy := by
    rw [← (normal_fields h).1]
    rfl
  rw [Person.patch, lookup_user_columns, Json.lookup_update, lookup_sent, field_unseen h, hlacks,
    hemail, Person.offered]
  by_cases hid : key = "user_id"
  · subst hid
    simp [unseen]
  have hnone : List.lookup key [("user_id", Json.str p.email)] = none :=
    Table.lookup_cons_ne [] _ hid
  rw [if_neg hid, hnone, Option.or_none]
  by_cases halias : key = "user_alias"
  · subst halias
    simp [unseen, plain_columns]
  · simp [halias]

/-- A row without an email is not found by its email. -/
theorem found_without_email {s : Tables} (hrow : s.users.lookup p.email = some columns)
    (hfound : s.found p.email = some row)
    (hfalsy : (identity settings row "user_email" "email").truthy = false) {old : Json}
    (hold : columns "user_email" = some old) : ¬ Counts "user_email" old := by
  intro hcounts
  have htruthy : old.truthy = true := hcounts.2 (by decide)
  have huser : s.user p.email = some (Tables.user_row p.email columns) := by
    rw [Tables.user, hrow]
    rfl
  have hown : (field (Tables.show_user (Tables.user_row p.email columns)) "user_email") = old := by
    rw [field_shown (Tables.shows_show_user _) (by decide), user_row_ne (by decide), hold]
    rfl
  rw [Tables.found, huser] at hfound
  change (if is_placeholder _ then _ else _) = _ at hfound
  split at hfound
  · next hplaceholder =>
    -- the id is LiteLLM's own, and another row was found, which has it as its email
    obtain ⟨id, hfirst, huser'⟩ := Option.bind_eq_some_iff.mp hfound
    obtain ⟨row', hrow', htext⟩ := Tables.first_by_email_some hfirst
    obtain rfl : row = row' := Option.some.inj (huser'.symm.trans hrow')
    rw [is_placeholder, hown, htruthy, Bool.true_or, Bool.not_true, Bool.or_false,
      field_shown (Tables.shows_show_user _) (by decide)] at hplaceholder
    have hid : p.email = LITELLM_PLACEHOLDER_USER_ID := beq_iff_eq.mp hplaceholder
    have hemail : p.email ≠ "" := by
      rw [hid]
      decide
    rw [identity_email hemail htext] at hfalsy
    cases hfalsy
  · obtain rfl := Option.some.inj hfound
    rw [identity, user_row_ne (by decide), hold] at hfalsy
    simp [htruthy] at hfalsy

/-- The patch keeps the values of the row exactly if the factory spares them. -/
theorem patch_keeps_iff {s : Tables} (hrow : s.users.lookup p.email = some columns)
    (hfound : s.found p.email = some row) (h : normal settings row p.email = some existing) :
    (∀ key value, columns key = some value → Counts key value →
      columns.supply (p.patch existing) key = some value) ↔ Spares settings p s columns := by
  constructor
  · intro hkept row' hfound' key value hoffered hunseen old hold hcounts
    -- a field that counts is kept only if the patch has the same value for it
    obtain rfl := Option.some.inj (hfound.symm.trans hfound')
    have hnew := hkept key old hold hcounts
    rw [Columns.supply, lookup_patch h] at hnew
    split at hnew
    · next hemail =>
      obtain ⟨rfl, hfalsy⟩ := hemail
      exact absurd hcounts (found_without_email hrow hfound hfalsy hold)
    · rw [hoffered] at hnew
      exact Option.some.inj hnew
  · intro hspares key value hold hcounts
    rw [Columns.supply, lookup_patch h]
    split
    · next hemail =>
      obtain ⟨rfl, hfalsy⟩ := hemail
      exact absurd hcounts (found_without_email hrow hfound hfalsy hold)
    · split
      · next hunseen =>
        cases hoffered : p.offered settings row key with
        | none => exact hold
        | some offered =>
          rw [hspares row hfound key offered hoffered hunseen value hold hcounts]
          rfl
      · exact hold

end

/-! ## Requests -/

section
variable {settings} {p} {s₀ s : Tables} {good : Prop}

/-- No user that was there has changed. -/
def Unchanged (s₀ s : Tables) : Prop :=
  ∀ id columns, s₀.users.lookup id = some columns → s.users.lookup id = some columns

/-- A patch is the only request that changes a user. -/
def no_patch : Call → Prop
  | .user_update _ => False
  | _ => True

theorem unchanged_put {users : List (String × Columns)} {id id' : String} {columns columns' : Columns}
    (hnone : (users.lookup id).isSome ≠ true) (h : users.lookup id' = some columns) :
    (Table.put users id columns').lookup id' = some columns := by
  rw [Table.lookup_put_ne, h]
  intro heq
  rw [heq] at h
  rw [h] at hnone
  exact hnone rfl

theorem unchanged_after {op : Call} (hop : no_patch op) (answer : HttpReply) (effective : Bool)
    (h : Unchanged s₀ s) : Unchanged s₀ ((litellm_when good).after s ⟨op, answer, effective⟩) := by
  unfold Service.after
  split
  · intro id columns hrow
    have hrow := h id columns hrow
    show (Tables.apply op s).users.lookup id = _
    cases op with
    | user_update body => exact hop.elim
    -- a row is only ever added under a name that was free
    | user_new body =>
      show (s.write_user (s.accepted_user body)).users.lookup id = _
      unfold Tables.accepted_user
      split
      · split
        · exact hrow
        · next hnone => exact unchanged_put hnone hrow
      · exact hrow
    | member_add team_id user_id budget =>
      show (s.add_member team_id user_id).users.lookup id = _
      unfold Tables.add_member
      split
      · unfold Tables.ensure_user
        split
        · exact hrow
        · next hnone => exact unchanged_put hnone hrow
      · exact hrow
    | team_new body =>
      show (s.write_team (s.accepted_team body)).users.lookup id = _
      cases s.accepted_team body with
      | none => exact hrow
      | some row => exact hrow
    | team_update body =>
      show (s.write_team (s.updated_team body)).users.lookup id = _
      cases s.updated_team body with
      | none => exact hrow
      | some row => exact hrow
    | team_info | member_update | user_info | user_list | access_group | team_list | key_generate
    | key_update | key_list | key_info | key_delete | key_block => exact hrow
  · exact h

/-- The users stay as they are, row by row, if the requests create none. -/
def no_user (email : String) : Call → Prop
  | .user_update _ => False
  | .user_new _ => False
  | .member_add _ user_id _ => user_id = email
  | _ => True

theorem users_after {email : String} {op : Call} (hop : no_user email op) (answer : HttpReply)
    (effective : Bool) (hthere : (s₀.users.lookup email).isSome = true) (h : s.users = s₀.users) :
    ((litellm_when good).after s ⟨op, answer, effective⟩).users = s₀.users := by
  unfold Service.after
  split
  · show (Tables.apply op s).users = _
    cases op with
    | user_update body => exact hop.elim
    | user_new body => exact hop.elim
    -- LiteLLM creates a member that is not there, and this one is
    | member_add team_id user_id budget =>
      obtain rfl : user_id = email := hop
      show (s.add_member team_id user_id).users = _
      unfold Tables.add_member
      split
      · unfold Tables.ensure_user
        rw [if_pos]
        · exact h
        · show (s.users.lookup user_id).isSome = true
          rw [h]
          exact hthere
      · exact h
    | team_new body =>
      show (s.write_team (s.accepted_team body)).users = _
      cases s.accepted_team body with
      | none => exact h
      | some row => exact h
    | team_update body =>
      show (s.write_team (s.updated_team body)).users = _
      cases s.updated_team body with
      | none => exact h
      | some row => exact h
    | team_info | member_update | user_info | user_list | access_group | team_list | key_generate
    | key_update | key_list | key_info | key_delete | key_block => exact h
  · exact h

theorem unchanged_of_users (h : s.users = s₀.users) : Unchanged s₀ s := by
  intro id columns hrow
  rw [h]
  exact hrow

theorem found_congr (h : s.users = s₀.users) (email : String) : s.found email = s₀.found email := by
  cases s
  cases s₀
  subst h
  rfl

/-- The user that is patched has its values from the patch, and no other user
    has changed. -/
def Patched (settings : LitellmSettings) (p : Person) (s₀ s : Tables) : Prop :=
  ∃ row existing, s₀.found p.email = some row ∧ normal settings row p.email = some existing ∧
    ∀ id columns, s₀.users.lookup id = some columns → s.users.lookup id =
      some (if id = p.email then columns.supply (p.patch existing) else columns)

/-- What holds of the users whenever the call stops: nobody has changed, or the
    user has been patched, who was there. -/
def Spared (settings : LitellmSettings) (p : Person) (s₀ s : Tables) : Prop :=
  Unchanged s₀ s ∨ s₀.has_user p.user_body = true ∧ Patched settings p s₀ s

/-- A program that sends no patch. -/
theorem unpatched_meets {α : Type} {prog : L α} (hsends : Sends no_patch prog)
    (hs : Unchanged s₀ s) :
    (litellm_when good).Meets (Spared settings p s₀) (fun s' _ => Unchanged s₀ s') s prog.run := by
  have hmeets : (litellm_when good).Meets (Unchanged s₀) (fun _ _ => True) s prog.run :=
    Service.meets_of_along (hsends [])
      (fun _ _ effective answer hop h => unchanged_after hop answer effective h) hs
  exact (hmeets.mono fun _ _ h _ => h).weaken fun _ h => .inl h

/-- A program that creates no user, for a user that is there. -/
theorem users_meets {α : Type} {prog : L α} (hsends : Sends (no_user p.email) prog)
    (hthere : (s₀.users.lookup p.email).isSome = true) (hs : s.users = s₀.users) :
    (litellm_when good).Meets (Spared settings p s₀) (fun s' _ => s'.users = s₀.users) s prog.run := by
  have hmeets : (litellm_when good).Meets (fun s => s.users = s₀.users) (fun _ _ => True) s prog.run :=
    Service.meets_of_along (hsends [])
      (fun _ _ effective answer hop h => users_after hop answer effective hthere h) hs
  exact (hmeets.mono fun _ _ h _ => h).weaken fun _ h => .inl (unchanged_of_users h)

/-! ## The call -/

/-- The user that `/user/new` names, whatever the teams in the body. -/
theorem user_payload_id (p : Person) (team_id : Option String) :
    text_field (Json.update (if team_id.getD "" = "" then
        [("user_id", .str p.email), ("user_email", .str p.email),
          ("user_alias", .str (or_else p.name p.email)), ("user_role", .str "internal_user"),
          ("auto_create_key", .bool false)]
      else Json.set [("user_id", .str p.email), ("user_email", .str p.email),
          ("user_alias", .str (or_else p.name p.email)), ("user_role", .str "internal_user"),
          ("auto_create_key", .bool false)] "teams" (.arr [.str (team_id.getD "")]))
      (user_block p.factory)) "user_id" = text_field p.user_body "user_id" := by
  rw [text_field, text_field, field, field, Person.user_body, Json.lookup_update, Json.lookup_update]
  by_cases h : team_id.getD "" = ""
  · rw [if_pos h]
  · rw [if_neg h, Json.lookup_set, if_neg (by decide)]

/-- Did the user exist, as far as `ensure_team_and_user` can tell? -/
def Existed (v : Json) (existed : Bool) : Prop :=
  ∃ value, (dict_get v "existed" .null).run = .ret (.ok value) ∧ value.truthy = existed

/-- What `ensure_litellm_user` tells: a user that existed was there, and nothing
    has changed; a user that did not was not. -/
def Told (p : Person) (s₀ s : Tables) (v : Json) : Prop :=
  Unchanged s₀ s ∧ (Existed v true → s.users = s₀.users ∧ s₀.has_user p.user_body = true) ∧
    (Existed v false → s₀.has_user p.user_body = false)

theorem has_user_congr {body : Dict} (h : s.users = s₀.users)
    (hid : text_field body "user_id" = text_field p.user_body "user_id") :
    s.has_user body = s₀.has_user p.user_body := by
  rw [Tables.has_user, Tables.has_user, hid, h]

theorem user_new_spared (hs : s.users = s₀.users) (body : Dict) (answer : HttpReply) (effective : Bool) :
    Unchanged s₀ ((litellm_when good).after s ⟨.user_new body, answer, effective⟩) :=
  unchanged_after (show no_patch (.user_new body) from trivial) answer effective (unchanged_of_users hs)

theorem user_new_told {body : Dict} {resp : HttpResponse} {effective : Bool}
    (hid : text_field body "user_id" = text_field p.user_body "user_id") (hs : s.users = s₀.users)
    (hans : s.admits (.user_new body) effective (.response resp))
    (hexists : already_exists resp = true) :
    Told p s₀ ((litellm_when good).after s ⟨.user_new body, .response resp, effective⟩)
      (.obj [("user_id", .str p.email), ("existed", .bool true)]) := by
  -- LiteLLM has the user already, hence accepts no new row
  have hhas := hans.2 hexists
  have hsame : (litellm_when good).after s ⟨.user_new body, .response resp, effective⟩ = s := by
    apply after_read
    show s.write_user (s.accepted_user body) = s
    unfold Tables.has_user at hhas
    unfold Tables.accepted_user
    cases hname : text_field body "user_id" with
    | none =>
      rw [hname] at hhas
      cases hhas
    | some id =>
      rw [hname, Option.any_some] at hhas
      show s.write_user (if (s.users.lookup id).isSome then none else _) = s
      rw [if_pos hhas]
      rfl
  rw [hsame]
  refine ⟨unchanged_of_users hs, fun _ => ⟨hs, ?_⟩, ?_⟩
  · rw [← has_user_congr hs hid]
    exact hans.2 hexists
  · rintro ⟨value, hvalue, hfalsy⟩
    cases hvalue
    cases hfalsy

theorem user_new_untold {body : Dict} {resp : HttpResponse} {effective : Bool} {v : Json}
    (hid : text_field body "user_id" = text_field p.user_body "user_id") (hs : s.users = s₀.users)
    (hans : s.admits (.user_new body) effective (.response resp)) (hsuccess : resp.is_success = true)
    (hv : resp.json = some v) :
    Told p s₀ ((litellm_when good).after s ⟨.user_new body, .response resp, effective⟩) v := by
  obtain ⟨rfl, haccepted, hexisted⟩ := hans.1 hsuccess
  refine ⟨user_new_spared hs _ _ _, ?_, fun _ => ?_⟩
  · -- a success never says that the user existed
    rintro ⟨value, hvalue, htruthy⟩
    obtain ⟨fields, rfl, rfl⟩ := dict_get_ok hvalue
    rw [hv] at hexisted
    change ((fields.lookup "existed").getD .null).truthy = false at hexisted
    rw [htruthy] at hexisted
    cases hexisted
  · rw [← has_user_congr hs hid]
    unfold Tables.accepted_user at haccepted
    unfold Tables.has_user
    cases hname : text_field body "user_id" with
    | none => rfl
    | some id =>
      rw [hname] at haccepted
      cases hrow : s.users.lookup id with
      | none => simp [hrow]
      | some columns => simp [hrow] at haccepted

theorem ensure_litellm_user_told (hs : s.users = s₀.users) (team_id : Option String) :
    (litellm_when good).Meets (Spared settings p s₀) (fun s' res => ∀ v, res = .ok v → Told p s₀ s' v) s
      (ensure_litellm_user p.email p.name team_id p.factory).run := by
  have hspared : Spared settings p s₀ s := .inl (unchanged_of_users hs)
  refine Service.meets_still_bind hspared (still_factory_user _) (fun user huser => ?_) (fun _ _ => nofun)
  obtain rfl := factory_user_ok huser
  have hid := user_payload_id p team_id
  refine meets_request hspared (fun _ _ => nofun)
    (fun effective answer => .inl (user_new_spared hs _ _ _))
    (fun effective resp hans => ?_)
  refine Service.meets_still_bind (.inl (user_new_spared hs _ _ _))
    (still_expect _ _ _) (fun _ hexpect => ?_) (fun _ _ => nofun)
  have hok := expect_ok hexpect
  -- a conflict is no failure: the user existed
  cases hexists : already_exists resp with
  | true =>
    refine ⟨.inl (user_new_spared hs _ _ _), fun v hv => ?_⟩
    cases hv
    exact user_new_told hid hs hans.1 hexists
  | false =>
    have hsuccess : resp.is_success = true := by simpa [hexists] using hok
    obtain ⟨res, hres⟩ := still_parsed resp
    show (litellm_when good).Meets _ _ _ (ExceptT.run resp.parsed)
    rw [hres]
    refine ⟨.inl (user_new_spared hs _ _ _), fun v hv => ?_⟩
    subst hv
    exact user_new_untold hid hs hans.1 hsuccess (parsed_ok hres)

theorem team_and_user_told (hthere : (s₀.users.lookup p.email).isSome = true) (hs : s.users = s₀.users)
    (personal : Bool) (team_id : Option String) :
    (litellm_when good).Meets (Spared settings p s₀)
      (fun s' res => ∀ v t, res = .ok (v, t) → Told p s₀ s' v) s
      (team_and_user settings personal p.email p.name p.factory team_id p.sso_groups).run := by
  cases personal with
  | true =>
    refine Service.meets_run_bind (ensure_litellm_user_told hs none) ?_ (fun _ _ _ _ => nofun)
    intro s₁ v _ hv
    obtain ⟨hkept, hexisted, hnew⟩ := hv v rfl
    -- a team of one's own creates no user, for a user that is there
    have hteam : (litellm_when good).Meets (Spared settings p s₀)
        (fun s' _ => Unchanged s₀ s' ∧ (s₁.users = s₀.users → s'.users = s₀.users)) s₁
        (ensure_personal_team settings p.email p.factory p.sso_groups).run := by
      by_cases husers : s₁.users = s₀.users
      · have hsends : Sends (no_user p.email)
            (ensure_personal_team settings p.email p.factory p.sso_groups) :=
          sends_ensure_personal_team (fun _ => trivial) _ (by exact rfl) trivial (fun _ => trivial)
            (fun _ => trivial) _ _
        exact (users_meets hsends hthere husers).mono
          fun s' _ _ h => ⟨unchanged_of_users h, fun _ => h⟩
      · have hsends : Sends no_patch
            (ensure_personal_team settings p.email p.factory p.sso_groups) :=
          sends_ensure_personal_team (fun _ => trivial) _ trivial trivial (fun _ => trivial)
            (fun _ => trivial) _ _
        exact (unpatched_meets hsends hkept).mono fun s' _ _ h => ⟨h, fun h => absurd h husers⟩
    refine Service.meets_run_bind hteam ?_ (fun _ _ _ _ => nofun)
    rintro s₂ t hs₂ ⟨hkept₂, husers₂⟩
    refine ⟨hs₂, fun v' t' hok => ?_⟩
    cases hok
    exact ⟨hkept₂, fun h => ⟨husers₂ (hexisted h).1, (hexisted h).2⟩, hnew⟩
  | false =>
    have hsends : Sends (no_user p.email)
        (ensure_shared_team settings (or_else team_id settings.team_id) p.factory) :=
      sends_ensure_shared_team (fun _ => trivial) _ _
    refine Service.meets_run_bind (users_meets hsends hthere hs) ?_ (fun _ _ _ _ => nofun)
    intro s₁ _ _ hs₁
    refine Service.meets_run_bind (ensure_litellm_user_told hs₁ _) ?_ (fun _ _ _ _ => nofun)
    intro s₂ v hs₂ hv
    refine ⟨hs₂, fun v' t' hok => ?_⟩
    cases hok
    exact hv _ rfl

/-- The patch is for the user with the email. -/
theorem patch_id {row : Columns} {existing : Dict} (h : normal settings row p.email = some existing) :
    text_field (Json.update [("user_id", .str p.email)] (p.missing existing)) "user_id" =
      some p.email := by
  rw [text_field, field, Json.lookup_update, lookup_sent, field_unseen h]
  rfl

theorem patched_after {row columns : Columns} {existing : Dict} (hs : s.users = s₀.users)
    (hrow : s₀.users.lookup p.email = some columns) (hfound : s₀.found p.email = some row)
    (h : normal settings row p.email = some existing) :
    Patched settings p s₀
      (s.write_user (s.updated_user (Json.update [("user_id", .str p.email)] (p.missing existing)))) := by
  refine ⟨row, existing, hfound, h, fun id columns' hrow' => ?_⟩
  unfold Tables.updated_user
  rw [patch_id h]
  show (s.write_user ((s.users.lookup p.email).map _)).users.lookup id = _
  rw [hs, hrow]
  show (Table.put s.users p.email (columns.supply (p.patch existing))).lookup id = _
  rw [Table.lookup_put, hs, hrow']
  split
  · next hid =>
    subst hid
    rw [hrow] at hrow'
    rw [Option.some.inj hrow']
  · rfl

theorem patch_user_patched {row columns : Columns} {existing : Dict} (hs : s.users = s₀.users)
    (hhas : s₀.has_user p.user_body = true) (hrow : s₀.users.lookup p.email = some columns)
    (hfound : s₀.found p.email = some row) (h : normal settings row p.email = some existing) :
    (litellm_when good).Meets (Spared settings p s₀) (fun s' res => res ≠ .error .not_found ∧
      ∀ u, res = .ok u → Patched settings p s₀ s') s (patch_user p.email (p.missing existing)).run := by
  have hspared : Spared settings p s₀ s := .inl (unchanged_of_users hs)
  unfold patch_user
  split
  · next hempty =>
    refine ⟨hspared, nofun, fun u _ => ⟨row, existing, hfound, h, fun id columns' hrow' => ?_⟩⟩
    -- an empty patch would change nothing
    have hnil : p.patch existing = [] := by
      rw [Person.patch, List.isEmpty_iff.mp hempty]
      rfl
    rw [hs, hrow', hnil]
    split
    · rfl
    · rfl
  · have hafter : ∀ effective answer, Spared settings p s₀ ((litellm_when good).after s
        ⟨.user_update (Json.update [("user_id", .str p.email)] (p.missing existing)), answer,
          effective⟩) := by
      intro effective answer
      unfold Service.after
      split
      · exact .inr ⟨hhas, patched_after hs hrow hfound h⟩
      · exact hspared
    refine meets_request hspared (fun _ _ => ⟨nofun, nofun⟩) hafter (fun effective resp hans => ?_)
    obtain ⟨res, hres⟩ := still_expect resp.is_success "/user/update (backfill)" resp
    rw [hres]
    refine ⟨hafter _ _, fun he => ?_, fun u hu => ?_⟩
    · subst he
      exact expect_error hres rfl
    · subst hu
      obtain ⟨rfl, -⟩ := hans.1 (expect_ok hres)
      exact patched_after hs hrow hfound h

/-- What the backfill leaves of a user that existed, and of all users else. -/
def Settled (settings : LitellmSettings) (p : Person) (s₀ s : Tables) (existed : Bool) : Prop :=
  (existed = true → s₀.found p.email = none ∨ Patched settings p s₀ s) ∧
  (existed = false → Unchanged s₀ s)

theorem backfill_existing_settled {columns : Columns} (hrow : s₀.users.lookup p.email = some columns)
    {existed : Bool} (hkept : Unchanged s₀ s)
    (hexisted : existed = true → s.users = s₀.users ∧ s₀.has_user p.user_body = true) :
    (litellm_when good).Meets (Spared settings p s₀)
      (fun s' res => ∀ u, res = .ok u → Settled settings p s₀ s' existed) s
      (backfill_existing settings existed p.email p.name p.factory).run := by
  have hspared : Spared settings p s₀ s := .inl hkept
  unfold backfill_existing
  cases existed with
  | false => exact ⟨hspared, fun u _ => ⟨nofun, fun _ => hkept⟩⟩
  | true =>
    obtain ⟨hs, hhas⟩ := hexisted rfl
    -- the lookup, and then the patch of what it has found
    have hbackfill : (litellm_when good).Meets (Spared settings p s₀) (fun s' res =>
        (∀ u, res = .ok u → Patched settings p s₀ s') ∧
        (res = .error .not_found → s₀.found p.email = none)) s
        (backfill settings p.email p.name p.factory).run := by
      rw [backfill_eq]
      refine Service.meets_run_bind (get_litellm_user_finds hspared p.email) ?_ ?_
      · rintro s' existing hs' ⟨rfl, hfinds⟩
        refine Service.meets_still_bind hs' (still_factory_user _) (fun user huser => ?_)
          (fun e he => ?_)
        · obtain rfl := factory_user_ok huser
          obtain ⟨row, hfound, hnormal⟩ := hfinds.1 existing rfl
          rw [found_congr hs] at hfound
          refine (patch_user_patched hs hhas hrow hfound hnormal).mono ?_
          exact fun s'' res _ hres => ⟨hres.2, fun he => absurd he hres.1⟩
        · exact ⟨nofun, fun h => absurd (Except.error.inj h) (factory_user_error he)⟩
      · rintro s' e hs' ⟨rfl, hfinds⟩
        refine ⟨nofun, fun he => ?_⟩
        rw [← found_congr hs]
        exact hfinds.2 (congrArg _ (Except.error.inj he))
    refine Service.meets_run_catch hbackfill
      (fun s' u _ hres u' hu => ⟨fun _ => .inr (hres.1 u' hu), nofun⟩) ?_
    rintro s' e hs' ⟨-, hnotfound⟩
    -- a user that is not found is passed over, anything else is raised
    cases e with
    | not_found => exact ⟨hs', fun u _ => ⟨fun _ => .inl (hnotfound rfl), nofun⟩⟩
    | status | transport | not_member | crashed => exact ⟨hs', nofun⟩

/-- Whatever becomes of the call nobody has changed or the user was patched, and
    a call that returns has patched a user that was there and is found. -/
theorem provision_in_meets {columns : Columns} (hrow : s₀.users.lookup p.email = some columns)
    (team_id : Option String) :
    (litellm_when good).Meets (Spared settings p s₀) (fun s' res => ∀ t, res = .ok t →
      s₀.has_user p.user_body = true → s₀.found p.email = none ∨ Patched settings p s₀ s') s₀
      (provision_in settings p team_id) := by
  have hthere : (s₀.users.lookup p.email).isSome = true := by
    rw [hrow]
    rfl
  have hspared : Spared settings p s₀ s₀ := .inl (unchanged_of_users rfl)
  unfold provision_in ensure_team_and_user
  show (litellm_when good).Meets _ _ s₀ (ExceptT.run (dict_get p.factory "team" (.obj []) >>= _))
  refine Service.meets_still_bind hspared (still_dict_get _ _ _) (fun team _ => ?_) (fun _ _ => nofun)
  refine Service.meets_still_bind hspared (still_dict_items _) (fun _ _ => ?_) (fun _ _ => nofun)
  refine Service.meets_run_bind (team_and_user_told hthere rfl _ team_id) ?_ (fun _ _ _ _ => nofun)
  rintro s₁ ⟨v, t⟩ hs₁ hv
  obtain ⟨hkept, hexisted, hnew⟩ := hv v t rfl
  refine Service.meets_still_bind hs₁ (still_dict_get _ _ _) (fun value hvalue => ?_) (fun _ _ => nofun)
  have hbackfill : (litellm_when good).Meets (Spared settings p s₀)
      (fun s' res => ∀ u, res = .ok u → Settled settings p s₀ s' value.truthy) s₁
      (backfill_existing settings value.truthy p.email p.name p.factory).run :=
    backfill_existing_settled hrow hkept fun htruthy => hexisted ⟨value, hvalue, htruthy⟩
  refine Service.meets_run_bind hbackfill ?_ (fun _ _ _ _ => nofun)
  intro s₂ u hs₂ hu
  obtain ⟨hpatched, hunchanged⟩ := hu u rfl
  refine Service.meets_still_bind hs₂ (still_dict_get _ _ _) (fun user _ => ?_) (fun _ _ => nofun)
  refine Service.meets_still_bind hs₂ (still_dict_get _ _ _) (fun budget _ => ?_) (fun _ _ => nofun)
  cases htruthy : value.truthy with
  | true =>
    -- a user that existed gets no cap
    rw [htruthy] at hpatched
    unfold cap_new_member
    rw [Bool.or_true, Bool.true_or, if_pos rfl]
    exact ⟨hs₂, fun t' _ _ => hpatched rfl⟩
  | false =>
    rw [htruthy] at hunchanged
    have hsends : Sends no_patch (cap_new_member (settings.personal_teams_enabled && team_id.isNone)
        false p.email t budget) :=
      sends_cap_new_member (fun _ _ _ => trivial) (fun _ _ _ => trivial) _ _ _ _ _
    refine Service.meets_run_bind (unpatched_meets hsends (hunchanged rfl)) ?_ (fun _ _ _ _ => nofun)
    intro s₃ _ hs₃ _
    refine ⟨hs₃, fun t' _ hhas => ?_⟩
    rw [hnew ⟨value, hvalue, htruthy⟩] at hhas
    cases hhas

/-! ## What is kept -/

theorem kept_of_unchanged (h : Unchanged s₀ s) : Kept s₀ s :=
  fun id columns hrow => ⟨columns, h id columns hrow, fun _ _ hvalue _ => hvalue⟩

theorem kept_of_spared {columns : Columns} (hrow : s₀.users.lookup p.email = some columns)
    (h : Spared settings p s₀ s)
    (hspares : s₀.has_user p.user_body = true → Spares settings p s₀ columns) : Kept s₀ s := by
  rcases h with hunchanged | ⟨hhas, row, existing, hfound, hnormal, hpatched⟩
  · exact kept_of_unchanged hunchanged
  · intro id columns' hrow'
    refine ⟨_, hpatched id columns' hrow', fun key value hvalue hcounts => ?_⟩
    split
    · next hid =>
      subst hid
      obtain rfl := Option.some.inj (hrow.symm.trans hrow')
      exact (patch_keeps_iff hrow hfound hnormal).mpr (hspares hhas) key value hvalue hcounts
    · exact hvalue

theorem spares_of_kept {columns : Columns} (hrow : s₀.users.lookup p.email = some columns)
    (h : s₀.found p.email = none ∨ Patched settings p s₀ s) (hkept : Kept s₀ s) :
    Spares settings p s₀ columns := by
  rcases h with hnone | ⟨row, existing, hfound, hnormal, hpatched⟩
  · intro row hfound
    rw [hnone] at hfound
    cases hfound
  · refine (patch_keeps_iff hrow hfound hnormal).mp fun key value hvalue hcounts => ?_
    obtain ⟨columns', hrow', hsame⟩ := hkept _ _ hrow
    rw [hpatched _ _ hrow, if_pos rfl] at hrow'
    rw [Option.some.inj hrow']
    exact hsame key value hvalue hcounts

/-- Wherever a call stops every value of every user is as before if the factory
    spares the user, and a call that returns keeps them only then. -/
theorem backfill_keeps {columns : Columns} (hrow : s.users.lookup p.email = some columns)
    (team_id : Option String) :
    ((s.has_user p.user_body = true → Spares settings p s columns) →
      ∀ s', litellm.Stops s (provision_in settings p team_id) s' → Kept s s') ∧
    ∀ s' xs t, litellm.Runs s [] (provision_in settings p team_id) s' xs (.ok t) →
      (Kept s s' ↔ (s.has_user p.user_body = true → Spares settings p s columns)) := by
  have hanswers : ∀ s op effective answer, litellm.answers s op effective answer →
      (litellm_when False).answers s op effective answer := fun _ _ _ _ hans => ⟨hans, False.elim⟩
  have heffect : (litellm_when False).effect = litellm.effect := rfl
  refine ⟨fun hspares s' hstop => ?_, fun s' xs t hrun => ?_⟩
  · exact kept_of_spared hrow ((hstop.weaken heffect hanswers).meets (provision_in_meets hrow team_id))
      hspares
  · obtain ⟨hspared, hdone⟩ := (hrun.weaken heffect hanswers).meets (provision_in_meets hrow team_id)
    refine ⟨fun hkept hhas => ?_, kept_of_spared hrow hspared⟩
    exact spares_of_kept hrow (hdone t rfl hhas) hkept

end

/-! ## A budget that is not in the projection -/

/-- A user whose budgets an administrator has set. -/
def budgeted_tables : Tables where
  teams := []
  users := [("ann", fun key => ([("user_email", .str "ann"), ("max_budget", .num 50),
    ("soft_budget", .num 50)] : Dict).lookup key)]
  access_groups := [("base", "g-base")]

/-- A login with one value in the factory. -/
def budgeted_person (key : String) : Person := ⟨"ann", none, .obj [("user", .obj [(key, .num 10)])], none⟩

/-- The value of a column of a user after a login that goes well. -/
def budget_after (p : Person) (key : String) : Option Rat :=
  match provision_well p budgeted_tables with
  | some (s', _, .ok _) =>
      match (s'.users.lookup p.email).bind fun columns => columns key with
      | some (.num q) => some q
      | _ => none
  | _ => none

theorem budget_after_some {p : Person} {key : String} {q : Rat} (h : budget_after p key = some q) :
    ∃ s' xs t columns, litellm.Runs budgeted_tables [] (provision_in team_settings p none) s' xs (.ok t) ∧
      s'.users.lookup p.email = some columns ∧ columns key = some (.num q) := by
  unfold budget_after at h
  split at h
  · next s' xs t hwell =>
    have hrun : litellm.Runs budgeted_tables [] (provision_in team_settings p none) s' xs (.ok t) := by
      have hanswers : ∀ s op effective answer, (litellm_when True).answers s op effective answer →
          litellm.answers s op effective answer := fun _ _ _ _ hans => hans.1
      have heffect : litellm.effect = (litellm_when True).effect := rfl
      exact (provision_well_runs hwell).weaken heffect hanswers
    split at h
    · next q' hvalue =>
      obtain ⟨columns, hrow, hcolumn⟩ := Option.bind_eq_some_iff.mp hvalue
      cases h
      exact ⟨s', xs, t, columns, hrun, hrow, hcolumn⟩
    · cases h
  · cases h

/-- A budget that the projection has is kept. -/
theorem backfill_keeps_sample : ∃ s' xs t,
    litellm.Runs budgeted_tables [] (provision_in team_settings (budgeted_person "max_budget") none) s'
      xs (.ok t) ∧ Kept budgeted_tables s' := by
  obtain ⟨s', xs, t, -, hrun, -, -⟩ := budget_after_some
    (show budget_after (budgeted_person "max_budget") "max_budget" = some 50 by decide +kernel)
  refine ⟨s', xs, t, hrun, ((backfill_keeps rfl none).2 s' xs t hrun).mpr fun _ => ?_⟩
  intro row hfound key value hoffered hunseen
  have hrow : row = Tables.user_row "ann" (fun key => ([("user_email", .str "ann"),
      ("max_budget", .num 50), ("soft_budget", .num 50)] : Dict).lookup key) :=
    (Option.some.inj hfound).symm
  subst hrow
  by_cases hkey : key = "max_budget"
  · subst hkey
    cases hunseen
  · -- the factory has nothing else, and there is no name
    have hnone : (user_block (budgeted_person "max_budget").factory).reverse.lookup key = none :=
      Table.lookup_cons_ne [] _ hkey
    rw [Person.offered, hnone] at hoffered
    split at hoffered
    · next hunnamed => cases hunnamed.2
    · cases hoffered

/-- A soft budget is overwritten at every login. -/
theorem backfill_overwrites : ∃ s' xs t,
    litellm.Runs budgeted_tables [] (provision_in team_settings (budgeted_person "soft_budget") none) s'
      xs (.ok t) ∧ ¬ Kept budgeted_tables s' := by
  obtain ⟨s', xs, t, columns, hrun, hrow, hnew⟩ := budget_after_some
    (show budget_after (budgeted_person "soft_budget") "soft_budget" = some 10 by decide +kernel)
  refine ⟨s', xs, t, hrun, fun hkept => ?_⟩
  obtain ⟨columns', hrow', hsame⟩ := hkept "ann" _ rfl
  obtain rfl := Option.some.inj (hrow.symm.trans hrow')
  have hold := hsame "soft_budget" (.num 50) rfl ⟨rfl, by decide⟩
  rw [hnew] at hold
  cases hold


end AlitellmAuth.Litellm
