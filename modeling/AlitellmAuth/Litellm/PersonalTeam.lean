import AlitellmAuth.Litellm.Tables
import AlitellmAuth.Litellm.Sends

/-! # One call of `ensure_personal_team`

    The call creates a closed team, adds its member, and then attaches access
    groups to it.

    * `Creates`, `Attaches`: the bodies of its two writes.
    * `Ensures`: what a call sends, and after which answers.
    * `ensure_personal_team_along`: every call keeps to that contract.
-/

namespace AlitellmAuth.Litellm

open Interleave

/-! ## One call -/

/-- The arguments of `ensure_personal_team`. -/
structure Ensure where
  email : String
  factory : Json
  sso_groups : Option (List String)

/-- The team was created by a request of this trace. -/
def CreatedIn (id : String) (tr : LTrace) : Prop :=
  ∃ body resp, (⟨.team_new body, .response resp⟩ : LEvent) ∈ tr ∧
    text_field body "team_id" = some id ∧ resp.status_code = 200

/-- The team was read in this trace. -/
def ReadIn (id : String) (shown : Dict) (tr : LTrace) : Prop :=
  ∃ resp value, (⟨.team_info id, .response resp⟩ : LEvent) ∈ tr ∧ resp.is_success = true ∧
    resp.json = some value ∧ Tables.team_of_info value = some shown

/-- The groups a team is shown with. -/
def shown_groups (shown : Dict) : List Json :=
  match field shown "access_group_ids" with
  | .arr items => items
  | _ => []

/-- The names and ids in the body of `/v1/access_group`. -/
def group_rows (rows : Json) : List (Json × Json) :=
  let items := match rows with
    | .arr items => items
    | _ => []
  items.filterMap fun
    | .obj g =>
        if (field g "access_group_name").truthy && (field g "access_group_id").truthy then
          some (field g "access_group_name", field g "access_group_id")
        else none
    | _ => none

/-- The id of a group by its name; of two groups with one name, the later. -/
def find_group (by_name : List (Json × Json)) (name : String) : Option Json :=
  (by_name.reverse.find? fun (key, _) => key.keyEq (.str name)).map (·.2)

/-- The groups a call attaches. -/
def wanted (settings : LitellmSettings) (s : Tables) (r : Ensure) : List String :=
  (access_groups_for_user settings r.email r.sso_groups).filterMap s.group_id

/-- In this trace the name was looked up among the groups, and the id found for
    it is among `items`. -/
def ResolvedIn (name : String) (items : List Json) (tr : LTrace) : Prop :=
  ∃ resp value, (⟨.access_group, .response resp⟩ : LEvent) ∈ tr ∧ resp.is_success = true ∧
    resp.json = some value ∧ ∀ id, find_group (group_rows value) name = some (.str id) → .str id ∈ items

variable (settings : LitellmSettings)

/-- The body of `/team/new`: whatever the factory has, the team is closed and
    carries the stamp. -/
structure Creates (id : String) (body : Dict) : Prop where
  team_id : text_field body "team_id" = some id
  models : body.lookup "models" = some (.arr [.str DENY_ALL_MODEL])
  object_permission : body.lookup "object_permission" = some deny_all_object_permission

/-- The body of `/team/update`, and what the call has done before. -/
structure Attaches (r : Ensure) (id : String) (tr : LTrace) (body : Dict) : Prop where
  team_id : text_field body "team_id" = some id
  columns : ∀ key value, body.lookup key = some value →
    key = "team_id" ∨ key = "access_group_ids" ∨
    key = "object_permission" ∧ value = deny_all_object_permission ∧
      (CreatedIn id tr ∨ ∃ shown, ReadIn id shown tr ∧ stamped_as_ours (some shown) = true)
  known : CreatedIn id tr ∨ ∃ shown, ReadIn id shown tr
  groups : ∃ items, body.lookup "access_group_ids" = some (.arr items) ∧
    (∀ shown, ReadIn id shown tr → ∀ g, .str g ∈ shown_groups shown → .str g ∈ items) ∧
    ∀ name ∈ access_groups_for_user settings r.email r.sso_groups, ResolvedIn name items tr
  first : ∀ e ∈ tr, ∀ body', e.1 ≠ .team_update body'

/-- What a call sends, and after what. -/
def Ensures (r : Ensure) (tr : LTrace) (e : LEvent) : Prop :=
  let id := settings.personal_team_id r.email
  match e.1 with
  | .team_new body => Creates id body ∧ tr = []
  | .member_add team_id user_id _ => team_id = id ∧ user_id = r.email
  | .access_group => True
  | .team_info team_id => team_id = id ∧ ∀ shown, ¬ ReadIn id shown tr
  | .team_update body => Attaches settings r id tr body
  | _ => False

/-- How a call ends: a team that is returned was created or found there. -/
def Ensured (id : String) (tr : LTrace) (result : Except Failure String) : Prop :=
  ∀ t, result = .ok t → t = id ∧ ∃ body resp, (⟨.team_new body, .response resp⟩ : LEvent) ∈ tr ∧
    text_field body "team_id" = some id ∧ (resp.status_code = 200 ∨ already_exists resp = true)

section
variable {settings} {r : Ensure} {tr : LTrace}

theorem CreatedIn.mono {id : String} {tr tr' : LTrace} (h : CreatedIn id tr) (hs : tr ⊆ tr') :
    CreatedIn id tr' := by
  obtain ⟨body, resp, hmem, hrest⟩ := h
  exact ⟨body, resp, hs hmem, hrest⟩

theorem ReadIn.mono {id : String} {shown : Dict} {tr tr' : LTrace} (h : ReadIn id shown tr)
    (hs : tr ⊆ tr') : ReadIn id shown tr' := by
  obtain ⟨resp, value, hmem, hrest⟩ := h
  exact ⟨resp, value, hs hmem, hrest⟩

theorem ResolvedIn.mono {name : String} {items items' : List Json} {tr tr' : LTrace}
    (h : ResolvedIn name items tr) (hs : tr ⊆ tr')
    (hitems : ∀ id, .str id ∈ items → .str id ∈ items') : ResolvedIn name items' tr' := by
  obtain ⟨resp, value, hmem, hok, hjson, hfound⟩ := h
  exact ⟨resp, value, hs hmem, hok, hjson, fun id hid => hitems id (hfound id hid)⟩

/-- The overlay of the body wins over the factory. -/
theorem creates_body (id : String) (envelope : Dict) : Creates id (Json.update envelope [
    ("team_id", .str id), ("team_alias", .str id), ("models", .arr [.str DENY_ALL_MODEL]),
    ("object_permission", deny_all_object_permission),
    ("metadata", .obj [("source", .str "token-factory"), ("alt_managed", .str "user-team")])]) where
  team_id := by
    rw [text_field, field, Json.lookup_update]
    rfl
  models := by
    rw [Json.lookup_update]
    rfl
  object_permission := by
    rw [Json.lookup_update]
    rfl

theorem named_groups_ok {rows : Json} {by_name : List (Json × Json)}
    (h : (named_groups rows).run = .ret (.ok by_name)) : by_name = group_rows rows := by
  have heq : named_groups rows =
      if (group_rows rows).all fun (name, _) => name.hashable then pure (group_rows rows)
      else throw .crashed := rfl
  rw [heq] at h
  split at h
  · cases h
    rfl
  · cases h

/-- The names are looked up in one request, if there are any. -/
theorem resolve_along {Q : LTrace → LEvent → Prop} (hQ : ∀ tr reply, Q tr ⟨.access_group, reply⟩)
    (names : List String) :
    Prog.Along Q (After tr fun seg result => (∀ e ∈ seg, e.1 = .access_group) ∧
      ∀ wanted, result = .ok wanted → ∀ name ∈ names, ResolvedIn name wanted (seg ++ tr)) tr
      (resolve_access_group_ids names).run := by
  unfold resolve_access_group_ids
  split
  · next hempty =>
    refine ⟨[], rfl, by simp, fun wanted hok name hname => ?_⟩
    rw [List.isEmpty_iff.mp hempty] at hname
    cases hname
  · intro reply
    refine ⟨hQ _ _, ?_⟩
    cases reply with
    | transport_error => exact ⟨[_], rfl, by simp, fun wanted hok => by cases hok⟩
    | response resp =>
      have herr : ∀ e : Failure, After tr (fun seg result => (∀ e ∈ seg, e.1 = .access_group) ∧
          ∀ wanted, result = .ok wanted → ∀ name ∈ names, ResolvedIn name wanted (seg ++ tr))
          (⟨.access_group, .response resp⟩ :: tr) (.error e : Except Failure (List Json)) :=
        fun e => ⟨[_], rfl, by simp, fun wanted hok => by cases hok⟩
      refine along_still_bind (still_expect _ _ _) ?_ herr
      intro _ hexpect
      refine along_still_bind (still_parsed _) ?_ herr
      intro value hvalue
      refine along_still_bind (still_named_groups _) ?_ herr
      intro by_name hnamed
      -- what is resolved are the rows of the answer
      have hrows : by_name = group_rows value := named_groups_ok hnamed
      refine ⟨[_], rfl, by simp, fun wanted hok name hname => ?_⟩
      refine ⟨resp, value, by simp, expect_ok hexpect, parsed_ok hvalue, fun id hid => ?_⟩
      cases hok
      rw [← hrows] at hid
      exact List.mem_filterMap.mpr ⟨name, hname, hid⟩

/-- What `_team_info` makes of an answer. -/
def shown_team : HttpReply → Option Dict
  | .transport_error => none
  | .response resp => if resp.is_success then resp.json.bind Tables.team_of_info else none

theorem team_info_run (id : String) :
    (team_info id).run = .call (.team_info id) fun reply => .ret (.ok (shown_team reply)) := by
  show Prog.call _ _ = _
  congr 1
  funext reply
  cases reply with
  | transport_error => rfl
  | response resp =>
    show ExceptT.run (if !resp.is_success then _ else _) = _
    rw [shown_team]
    cases resp.is_success with
    | false => rfl
    | true =>
      cases resp.json with
      | none => rfl
      | some value =>
        cases value with
        | obj data =>
          unfold Option.bind Tables.team_of_info
          dsimp only
          generalize data.lookup "team_info" = found
          cases found with
          | none => rfl
          | some team => cases team <;> rfl
        | null | bool | num | str | arr => rfl

theorem shown_team_some {reply : HttpReply} {shown : Dict} (h : shown_team reply = some shown) :
    ∃ resp value, reply = .response resp ∧ resp.is_success = true ∧ resp.json = some value ∧
      Tables.team_of_info value = some shown := by
  cases reply with
  | transport_error => cases h
  | response resp =>
    rw [shown_team] at h
    split at h
    · next hok =>
      obtain ⟨value, hvalue, hshown⟩ := Option.bind_eq_some_iff.mp h
      exact ⟨resp, value, rfl, hok, hvalue, hshown⟩
    · cases h

/-- The team is read, unless the call has created it. -/
theorem attached_groups_along {Q : LTrace → LEvent → Prop} (id : String) (we_created_it : Bool)
    (hQ : we_created_it = false → ∀ reply, Q tr ⟨.team_info id, reply⟩) :
    Prog.Along Q (fun tr' result => (tr' = tr ∨ ∃ reply, tr' = ⟨.team_info id, reply⟩ :: tr) ∧
      ∀ team current, result = .ok (some (team, current)) →
        (we_created_it = true ∧ team = none ∧ current = [] ∧ tr' = tr) ∨
        (we_created_it = false ∧ ∃ shown resp value, team = some shown ∧
          tr' = ⟨.team_info id, .response resp⟩ :: tr ∧ resp.is_success = true ∧
          resp.json = some value ∧ Tables.team_of_info value = some shown ∧
          ∀ g, .str g ∈ shown_groups shown → .str g ∈ current)) tr
      (attached_groups id we_created_it).run := by
  unfold attached_groups
  cases we_created_it with
  | true =>
    refine ⟨.inl rfl, fun team current hok => ?_⟩
    cases hok
    exact .inl ⟨rfl, rfl, rfl, rfl⟩
  | false =>
    have hinfo : Prog.Along Q (fun tr' result => ∃ reply, tr' = ⟨.team_info id, reply⟩ :: tr ∧
        result = .ok (shown_team reply)) tr (team_info id).run := by
      rw [team_info_run]
      intro reply
      exact ⟨hQ rfl reply, reply, rfl, rfl⟩
    refine along_run_bind hinfo ?_ ?_
    · rintro _ found ⟨reply, rfl, hfound⟩
      cases found with
      | none => exact ⟨.inr ⟨_, rfl⟩, fun team current hok => by cases hok⟩
      | some shown =>
        obtain ⟨resp, value, rfl, hsuccess, hjson, hinfo⟩ :=
          shown_team_some (Except.ok.inj hfound).symm
        refine along_still_bind (still_iterate _) ?_ ?_
        · intro items hitems
          refine ⟨.inr ⟨_, rfl⟩, fun team current hok => .inr ⟨rfl, shown, resp, value, ?_⟩⟩
          cases hok
          refine ⟨rfl, rfl, hsuccess, hjson, hinfo, fun g hg => ?_⟩
          -- a list of groups is read as it is, and strings pass the filter
          unfold shown_groups at hg
          split at hg
          · next items' harr =>
            rw [harr] at hitems
            obtain rfl := iterate_arr hitems
            exact List.mem_filter.mpr ⟨hg, rfl⟩
          · cases hg
        · intro e
          exact ⟨.inr ⟨_, rfl⟩, fun team current hok => by cases hok⟩
    · rintro _ e ⟨reply, rfl, -⟩
      exact ⟨.inr ⟨_, rfl⟩, fun team current hok => by cases hok⟩

/-- The body of `/team/update`. -/
def attach_body (id : String) (group_ids : List Json) (owned : Bool) : Dict :=
  let body : Dict := [("team_id", .str id), ("access_group_ids", .arr group_ids)]
  if owned then Json.set body "object_permission" deny_all_object_permission else body

theorem attach_body_team_id (id : String) (group_ids : List Json) (owned : Bool) :
    text_field (attach_body id group_ids owned) "team_id" = some id := by
  cases owned <;> rfl

theorem attach_body_groups (id : String) (group_ids : List Json) (owned : Bool) :
    (attach_body id group_ids owned).lookup "access_group_ids" = some (.arr group_ids) := by
  cases owned <;> rfl

theorem attach_body_columns {id : String} {group_ids : List Json} {owned : Bool} {key : String}
    {value : Json} (h : (attach_body id group_ids owned).lookup key = some value) :
    key = "team_id" ∨ key = "access_group_ids" ∨
    key = "object_permission" ∧ value = deny_all_object_permission ∧ owned = true := by
  by_cases hid : key = "team_id"
  · exact .inl hid
  by_cases hgroups : key = "access_group_ids"
  · exact .inr (.inl hgroups)
  have hplain : ([("team_id", .str id), ("access_group_ids", .arr group_ids)] : Dict).lookup key =
      none := by
    rw [Table.lookup_cons_ne _ _ hid, Table.lookup_cons_ne _ _ hgroups]
    rfl
  cases owned with
  | false =>
    rw [attach_body, if_neg (by decide), hplain] at h
    cases h
  | true =>
    rw [attach_body, if_pos rfl, Json.lookup_set, hplain] at h
    split at h
    · next hkey =>
      cases h
      exact .inr (.inr ⟨hkey, rfl, rfl⟩)
    · cases h

/-- What a call has done when it attaches. -/
theorem attaches_body {id : String} {wanted current group_ids : List Json} {team : Option Dict}
    {we_created_it : Bool}
    (hkeys : (from_keys (current ++ wanted)).run = .ret (.ok group_ids))
    (hours : we_created_it = true → CreatedIn id tr)
    (hread : ∀ shown, team = some shown → ReadIn id shown tr)
    (hknown : we_created_it = true ∨ ∃ shown, team = some shown)
    (hcurrent : ∀ shown, ReadIn id shown tr → ∀ g, .str g ∈ shown_groups shown → .str g ∈ current)
    (hwanted : ∀ name ∈ access_groups_for_user settings r.email r.sso_groups,
      ResolvedIn name wanted tr)
    (hfirst : ∀ e ∈ tr, ∀ body', e.1 ≠ .team_update body') :
    Attaches settings r id tr (attach_body id group_ids (we_created_it || stamped_as_ours team)) := by
  have hids := from_keys_ok hkeys
  refine ⟨attach_body_team_id _ _ _, ?_, ?_, ⟨group_ids, attach_body_groups _ _ _, ?_, ?_⟩, hfirst⟩
  · intro key value hkey
    -- the stamp is written for a team of ours only
    rcases attach_body_columns hkey with hkey | hkey | ⟨hkey, hvalue, howned⟩
    · exact .inl hkey
    · exact .inr (.inl hkey)
    · refine .inr (.inr ⟨hkey, hvalue, ?_⟩)
      rcases Bool.or_eq_true _ _ ▸ howned with howned | howned
      · exact .inl (hours howned)
      · cases team with
        | none => cases howned
        | some shown => exact .inr ⟨shown, hread shown rfl, howned⟩
  · rcases hknown with hcreated | ⟨shown, hteam⟩
    · exact .inl (hours hcreated)
    · exact .inr ⟨shown, hread shown hteam⟩
  · intro shown hshown g hg
    rw [hids]
    exact mem_foldl_add_key (List.mem_append_left _ (hcurrent shown hshown g hg)) _
  · intro name hname
    refine (hwanted name hname).mono (List.Subset.refl _) fun id hid => ?_
    rw [hids]
    exact mem_foldl_add_key (List.mem_append_right _ hid) _

/-- Phase 2 of `ensure_personal_team`: attach the groups. -/
def attach_groups (team_id : String) (we_created_it : Bool) (wanted : List Json) : L String := do
  match ← attached_groups team_id we_created_it with
  | none => return team_id
  | some (team, current) =>
      let group_ids ← from_keys (current ++ wanted)
      let upd ← request (.team_update
        (attach_body team_id group_ids (we_created_it || stamped_as_ours team)))
      expect upd.is_success "/team/update (attach)" upd
      return team_id

/-- The part of `ensure_personal_team` after the factory was read. -/
def ensure_with (settings : LitellmSettings) (email : String) (sso_groups : Option (List String))
    (items : Dict) : L String := do
  let team_id := settings.personal_team_id email
  let envelope := items.filter fun (k, v) => k != "metadata" && !v.isNull
  let resp ← request (.team_new (Json.update envelope [
    ("team_id", .str team_id),
    ("team_alias", .str team_id),
    ("models", .arr [.str DENY_ALL_MODEL]),
    ("object_permission", deny_all_object_permission),
    ("metadata", .obj [("source", .str "token-factory"), ("alt_managed", .str "user-team")])]))
  expect (resp.status_code == 200 || already_exists resp) "/team/new (personal)" resp
  let mem ← request (.member_add team_id email none)
  expect (mem.status_code == 200 || mem.status_code == 400) "/team/member_add (personal)" mem
  let wanted ← resolve_access_group_ids (access_groups_for_user settings email sso_groups)
  attach_groups team_id (resp.status_code == 200) wanted

theorem ensure_personal_team_eq (email : String) (factory : Json)
    (sso_groups : Option (List String)) :
    ensure_personal_team settings email factory sso_groups = (do
      let user ← dict_get factory "user" .null
      let items ← (if user.truthy then dict_items user else pure [] : L Dict)
      ensure_with settings email sso_groups items) := by
  show dict_get factory "user" .null >>= _ = _
  congr 1
  funext user
  split
  · rfl
  · rfl

/-- A call that returns has ensured the team. -/
theorem ensured_returns {id : String} {body : Dict} {resp : HttpResponse}
    (hnew : (⟨.team_new body, .response resp⟩ : LEvent) ∈ tr) (hid : text_field body "team_id" = some id)
    (hresp : resp.status_code = 200 ∨ already_exists resp = true) : Ensured id tr (.ok id) := by
  intro t ht
  cases ht
  exact ⟨rfl, body, resp, hnew, hid, hresp⟩

theorem attach_groups_along {id : String} {we_created_it : Bool} {wanted : List Json}
    (hid : id = settings.personal_team_id r.email)
    (hours : we_created_it = true → CreatedIn id tr)
    (hunread : ∀ shown, ¬ ReadIn id shown tr)
    (hwanted : ∀ name ∈ access_groups_for_user settings r.email r.sso_groups,
      ResolvedIn name wanted tr)
    (hfirst : ∀ e ∈ tr, ∀ body', e.1 ≠ .team_update body')
    (hensured : ∀ tr', tr ⊆ tr' → Ensured id tr' (.ok id)) :
    Prog.Along (Ensures settings r) (Ensured id) tr (attach_groups id we_created_it wanted).run := by
  have herr : ∀ tr e, Ensured id tr (.error e) := fun tr e t ht => by cases ht
  refine along_run_bind (attached_groups_along id we_created_it ?_) ?_ (fun _ e _ => herr _ e)
  · intro _ reply
    exact ⟨hid, by rw [← hid]; exact hunread⟩
  rintro tr' found ⟨hgrown, hfound⟩
  have hsub : tr ⊆ tr' := by
    rcases hgrown with rfl | ⟨reply, rfl⟩
    · exact List.Subset.refl _
    · exact List.subset_cons_self _ _
  cases found with
  | none => exact hensured tr' hsub
  | some found =>
    obtain ⟨team, current⟩ := found
    refine along_still_bind (still_from_keys _) (fun group_ids hkeys => ?_) (herr _)
    intro reply
    -- reading the team writes nothing
    have hfirst' : ∀ e ∈ tr', ∀ body', e.1 ≠ .team_update body' := by
      intro e he body'
      rcases hgrown with rfl | ⟨reply, rfl⟩
      · exact hfirst e he body'
      · rcases List.mem_cons.mp he with rfl | he
        · exact fun h => by cases h
        · exact hfirst e he body'
    have hwanted' : ∀ name ∈ access_groups_for_user settings r.email r.sso_groups,
        ResolvedIn name wanted tr' :=
      fun name hname => (hwanted name hname).mono hsub fun _ h => h
    have hattaches : Attaches settings r id tr'
        (attach_body id group_ids (we_created_it || stamped_as_ours team)) := by
      -- a team of ours is not read, and one that was adopted is
      rcases hfound team current rfl with ⟨hcreated, rfl, rfl, rfl⟩ |
        ⟨hadopted, shown, resp, value, rfl, rfl, hok, hjson, hinfo, hcurrent⟩
      · exact attaches_body hkeys hours (fun shown hshown => by cases hshown) (.inl hcreated)
          (fun shown hshown => absurd hshown (hunread shown)) hwanted' hfirst'
      · refine attaches_body hkeys (fun hcreated => ?_) ?_ (.inr ⟨shown, rfl⟩) ?_ hwanted' hfirst'
        · rw [hadopted] at hcreated
          cases hcreated
        · intro shown' hshown'
          cases hshown'
          exact ⟨resp, value, List.mem_cons_self, hok, hjson, hinfo⟩
        · -- the team was read once
          rintro shown' ⟨resp', value', hmem, hok', hjson', hinfo'⟩
          rcases List.mem_cons.mp hmem with heq | hmem
          · cases heq
            rw [hjson] at hjson'
            cases hjson'
            rw [hinfo] at hinfo'
            cases hinfo'
            exact hcurrent
          · exact absurd ⟨resp', value', hmem, hok', hjson', hinfo'⟩ (hunread shown')
    refine ⟨hid ▸ hattaches, ?_⟩
    cases reply with
    | transport_error => exact herr _ _
    | response upd =>
      refine along_still_bind (still_expect _ _ _) (fun _ _ => ?_) (herr _)
      exact hensured _ (List.Subset.trans hsub (List.subset_cons_self _ _))

/-- Every call keeps to the contract. -/
theorem ensure_personal_team_along (r : Ensure) :
    Prog.Along (Ensures settings r) (Ensured (settings.personal_team_id r.email)) []
      (ensure_personal_team settings r.email r.factory r.sso_groups).run := by
  have herr : ∀ tr e, Ensured (settings.personal_team_id r.email) tr (.error e) :=
    fun tr e t ht => by cases ht
  rw [ensure_personal_team_eq]
  refine along_still_bind (still_dict_get _ _ _) (fun user _ => ?_) (herr _)
  refine along_still_bind (still_ite (still_dict_items _) (still_pure _)) (fun items _ => ?_)
    (herr _)
  intro reply
  have hcreates := creates_body (settings.personal_team_id r.email)
    (items.filter fun (k, v) => k != "metadata" && !v.isNull)
  refine ⟨⟨hcreates, rfl⟩, ?_⟩
  cases reply with
  | transport_error => exact herr _ _
  | response resp =>
    refine along_still_bind (still_expect _ _ _) (fun _ hexpect => ?_) (herr _)
    have hanswered : resp.status_code = 200 ∨ already_exists resp = true := by
      simpa using expect_ok hexpect
    intro reply
    refine ⟨⟨rfl, rfl⟩, ?_⟩
    cases reply with
    | transport_error => exact herr _ _
    | response mem =>
      refine along_still_bind (still_expect _ _ _) (fun _ _ => ?_) (herr _)
      refine along_run_bind (resolve_along (fun _ _ => trivial) _) ?_ (fun _ e _ => herr _ e)
      rintro _ wanted ⟨seg, rfl, hseg, hwanted⟩
      -- so far: created or adopted, one member added, groups resolved, nothing read
      refine attach_groups_along rfl (fun hcreated => ?_) ?_ (hwanted wanted rfl) ?_ ?_
      · exact ⟨_, resp, List.mem_append_right _ (by simp), hcreates.team_id, by simpa using hcreated⟩
      · rintro shown ⟨_, _, hmem, -⟩
        rcases List.mem_append.mp hmem with hmem | hmem
        · cases hseg _ hmem
        · simp at hmem
      · intro e he body'
        rcases List.mem_append.mp he with he | he
        · rw [hseg e he]
          exact fun h => by cases h
        · simp only [List.mem_cons, List.not_mem_nil, or_false] at he
          rcases he with rfl | rfl
          · exact fun h => by cases h
          · exact fun h => by cases h
      · intro tr' hsub
        refine ensured_returns (hsub (List.mem_append_right _ ?_)) hcreates.team_id hanswered
        simp

end

/-! ## What is shown -/

theorem shown_stamp {team : Team} {shown : Dict} (h : Tables.ShowsTeam team shown) :
    stamped_as_ours (some shown) = team.stamped := by
  unfold stamped_as_ours Team.stamped
  show (match field shown "metadata" with
    | .obj metadata => is_text (field metadata "alt_managed") "user-team"
    | _ => false) = _
  have hmetadata := h.metadata
  generalize field shown "metadata" = metadata at hmetadata ⊢
  subst hmetadata
  rfl

theorem group_rows_cons (fields : Dict) (rows : List Json) :
    group_rows (.arr (.obj fields :: rows)) =
      if (field fields "access_group_name").truthy && (field fields "access_group_id").truthy then
        (field fields "access_group_name", field fields "access_group_id") :: group_rows (.arr rows)
      else group_rows (.arr rows) := by
  cases h : (field fields "access_group_name").truthy && (field fields "access_group_id").truthy with
  | true =>
    unfold group_rows
    simp only [List.filterMap_cons, h, if_true]
  | false =>
    unfold group_rows
    simp only [List.filterMap_cons, h, Bool.false_eq_true, if_false]

/-- The rows of an answer to `/v1/access_group` are the groups there are. -/
theorem group_rows_shown {rows : List Json} {groups : List (String × String)}
    (h : List.Forall₂ Tables.ShowsGroup rows groups) :
    group_rows (.arr rows) =
      (groups.filter fun g => g.1 != "" && g.2 != "").map fun g => (.str g.1, .str g.2) := by
  induction h with
  | nil => rfl
  | @cons row group rows groups hrow hrest ih =>
    obtain ⟨fields, rfl, hname, hid⟩ := hrow
    rw [group_rows_cons, hname, hid, ih, List.filter_cons]
    show (if group.1 != "" && group.2 != "" then _ else _) = _
    split
    · rfl
    · rfl

/-- A name is resolved to the id that LiteLLM has for it. -/
theorem find_group_shown {rows : List Json} {s : Tables}
    (h : List.Forall₂ Tables.ShowsGroup rows s.access_groups) (name : String) :
    find_group (group_rows (.arr rows)) name = (s.group_id name).map .str := by
  rw [find_group, group_rows_shown h, Tables.group_id, ← List.map_reverse, List.find?_map]
  simp [Function.comp_def, Json.keyEq]

/-! ## The requests -/

section
variable {ok : Call → Prop}

theorem sends_attach_groups (hinfo : ∀ id, ok (.team_info id)) (hupdate : ∀ body, ok (.team_update body))
    (team_id : String) (we_created_it : Bool) (wanted : List Json) :
    Sends ok (attach_groups team_id we_created_it wanted) := by
  refine sends_bind (sends_attached_groups hinfo _ _) fun attached => ?_
  cases attached with
  | none => exact sends_pure _
  | some attached =>
    refine sends_bind (sends_still (still_from_keys _)) fun group_ids => ?_
    refine sends_bind (sends_request (hupdate _)) fun upd => ?_
    exact sends_bind (sends_still (still_expect _ _ _)) fun _ => sends_pure _

theorem sends_ensure_personal_team {settings : LitellmSettings} (hnew : ∀ body, ok (.team_new body))
    (email : String) (hadd : ok (.member_add (settings.personal_team_id email) email none))
    (hgroup : ok .access_group) (hinfo : ∀ id, ok (.team_info id))
    (hupdate : ∀ body, ok (.team_update body)) (factory : Json) (sso_groups : Option (List String)) :
    Sends ok (ensure_personal_team settings email factory sso_groups) := by
  rw [ensure_personal_team_eq]
  refine sends_bind (sends_still (still_dict_get _ _ _)) fun user => ?_
  refine sends_bind (sends_still (still_ite (still_dict_items _) (still_pure _))) fun items => ?_
  refine sends_bind (sends_request (hnew _)) fun resp => ?_
  refine sends_bind (sends_still (still_expect _ _ _)) fun _ => ?_
  refine sends_bind (sends_request hadd) fun mem => ?_
  refine sends_bind (sends_still (still_expect _ _ _)) fun _ => ?_
  refine sends_bind (sends_resolve_access_group_ids hgroup _) fun wanted => ?_
  exact sends_attach_groups hinfo hupdate _ _ _

end

end AlitellmAuth.Litellm
