import AlitellmAuth.Litellm.Convergence
import AlitellmAuth.Litellm.AccessGroups
import AlitellmAuth.OauthAs.Outage

/-! # Which groups count at a sign-in

    The groups claim of the identity provider goes through `normalize_groups`,
    which was written for the session cookie and keeps fifty groups, before it
    is mapped to access groups and these are attached to the personal team.

    * `fold_keys`: the keys of the two maps, as the settings fold them.
    * `Entitled`: the names that the configuration gives a user with some groups.
    * `Door`: the two sign-ins, and what they ask of LiteLLM.
    * `provision_groups`: the groups of the team after a call that has succeeded.
    * `signin_counts_iff`: when every group of the claim counts.
-/

namespace AlitellmAuth.Litellm

open Interleave Text

/-! ## The settings -/

/-- One loop of `_fold_user_access_group_keys`: two keys that fold to the same
    text are an error. -/
def fold_keys (raw : List (String × List String)) : Option (List (String × List String)) :=
  raw.foldlM (fun folded row =>
    if (folded.lookup (lower (strip row.1))).isSome then none
    else some (folded ++ [(lower (strip row.1), row.2)])) []

theorem lookup_append_single {rows : List (String × List String)} {key key' : String}
    {value : List String} (hnone : rows.lookup key = none) :
    (rows ++ [(key, value)]).lookup key' =
      if key' = key then some value else rows.lookup key' := by
  rw [List.lookup_append]
  split
  · next heq =>
    subst heq
    rw [hnone, Option.none_or, List.lookup_cons_self]
  · next hne => rw [Table.lookup_cons_ne _ _ hne, List.lookup_nil, Option.or_none]

/-- A text is mapped by the row whose key folds to it. -/
theorem fold_keys_lookup {raw folded : List (String × List String)} (h : fold_keys raw = some folded)
    (text : String) (value : List String) :
    folded.lookup text = some value ↔ ∃ key, (key, value) ∈ raw ∧ lower (strip key) = text := by
  -- for every accumulator, by induction on the raw map
  have hfrom : ∀ (acc : List (String × List String)), raw.foldlM (fun folded row =>
      if (folded.lookup (lower (strip row.1))).isSome then none
      else some (folded ++ [(lower (strip row.1), row.2)])) acc = some folded →
      (folded.lookup text = some value ↔ acc.lookup text = some value ∨
        ∃ key, (key, value) ∈ raw ∧ lower (strip key) = text) := by
    clear h
    induction raw with
    | nil =>
      intro acc h
      obtain rfl : acc = folded := Option.some.inj h
      simp
    | cons row rest ih =>
      intro acc h
      rw [List.foldlM_cons] at h
      obtain ⟨next, hnext, h⟩ := Option.bind_eq_some_iff.mp h
      split at hnext
      · cases hnext
      · next hfree =>
        obtain rfl := Option.some.inj hnext
        have hnone := Option.not_isSome_iff_eq_none.mp hfree
        -- the key is new, so it shadows none
        rw [ih _ h, lookup_append_single hnone]
        constructor
        · rintro (hmem | ⟨key, hmem, hkey⟩)
          · split at hmem
            · next heq =>
              obtain rfl := Option.some.inj hmem
              exact .inr ⟨row.1, List.mem_cons_self, heq.symm⟩
            · exact .inl hmem
          · exact .inr ⟨key, List.mem_cons_of_mem _ hmem, hkey⟩
        · rintro (hmem | ⟨key, hmem, hkey⟩)
          · refine .inl ?_
            rw [if_neg, hmem]
            rintro rfl
            rw [hnone] at hmem
            cases hmem
          · rcases List.mem_cons.mp hmem with rfl | hmem
            · exact .inl (if_pos hkey.symm)
            · exact .inr ⟨key, hmem, hkey⟩
  rw [hfrom [] h]
  simp

/-- The two maps as they are configured, and the settings that come of them. -/
structure GroupConfig where
  settings : LitellmSettings
  USER_ACCESS_GROUPS : List (String × List String)
  SSO_ACCESS_GROUPS : List (String × List String)
  user_folded : fold_keys USER_ACCESS_GROUPS = some settings.user_access_groups
  sso_folded : fold_keys SSO_ACCESS_GROUPS = some settings.sso_access_groups

/-! ## Entitlements -/

/-- The names of access groups that a user with these groups is entitled to. -/
inductive Entitled (cfg : GroupConfig) (email : String) (groups : List String) : String → Prop where
  | default {name : String} (h : name ∈ cfg.settings.default_access_groups) :
      Entitled cfg email groups (strip name)
  | user {key name : String} {names : List String} (hrow : (key, names) ∈ cfg.USER_ACCESS_GROUPS)
      (hkey : lower (strip key) = lower (strip email)) (h : name ∈ names) :
      Entitled cfg email groups (strip name)
  | sso {group key name : String} {names : List String} (hgroup : group ∈ groups)
      (hrow : (key, names) ∈ cfg.SSO_ACCESS_GROUPS)
      (hkey : lower (strip key) = lower (strip group)) (h : name ∈ names) :
      Entitled cfg email groups (strip name)

/-- What `access_groups_for_user` returns. -/
theorem mem_access_groups (cfg : GroupConfig) (email : String) (groups : List String) (name : String) :
    name ∈ access_groups_for_user cfg.settings email (some groups) ↔
      name ≠ "" ∧ Entitled cfg email groups name := by
  -- a lookup in a folded map is a row of the raw one with an alike key
  have hmapped : ∀ {map raw : List (String × List String)} (text : String) (x : String),
      fold_keys raw = some map → (x ∈ (map.lookup text).getD [] ↔
        ∃ key names, (key, names) ∈ raw ∧ lower (strip key) = text ∧ x ∈ names) := by
    intro map raw text x hfold
    constructor
    · intro hx
      cases hlookup : map.lookup text with
      | none =>
        rw [hlookup] at hx
        cases hx
      | some names =>
        rw [hlookup] at hx
        obtain ⟨key, hmem, hkey⟩ := (fold_keys_lookup hfold text names).mp hlookup
        exact ⟨key, names, hmem, hkey, hx⟩
    · rintro ⟨key, names, hmem, hkey, hx⟩
      rw [(fold_keys_lookup hfold text names).mpr ⟨key, hmem, hkey⟩]
      exact hx
  unfold access_groups_for_user
  rw [List.mem_eraseDups, List.mem_filter]
  simp only [List.mem_map, List.mem_append, List.mem_flatMap, Option.getD_some, bne_iff_ne, ne_eq]
  rw [and_comm]
  refine and_congr_right fun _ => ?_
  constructor
  · rintro ⟨x, hx | hx | ⟨group, hgroup, hx⟩, rfl⟩
    · exact .default hx
    · obtain ⟨key, names, hmem, hkey, hx⟩ := (hmapped _ x cfg.user_folded).mp hx
      exact .user hmem hkey hx
    · obtain ⟨key, names, hmem, hkey, hx⟩ := (hmapped _ x cfg.sso_folded).mp hx
      exact .sso hgroup hmem hkey hx
  · rintro (h | ⟨hrow, hkey, h⟩ | ⟨hgroup, hrow, hkey, h⟩)
    · exact ⟨_, .inl h, rfl⟩
    · exact ⟨_, .inr (.inl ((hmapped _ _ cfg.user_folded).mpr ⟨_, _, hrow, hkey, h⟩)), rfl⟩
    · exact ⟨_, .inr (.inr ⟨_, hgroup, (hmapped _ _ cfg.sso_folded).mpr ⟨_, _, hrow, hkey, h⟩⟩), rfl⟩

/-! ## The claim -/

/-- The string elements of a groups claim; one string counts as one element. -/
def claim_strings : Json → List String
  | .str s => [s]
  | .arr items => items.filterMap fun
      | .str s => some s
      | _ => none
  | _ => []

/-- The elements that are looked at: the first fifty that are not blank. -/
def kept_strings (claim : Json) : List String :=
  ((claim_strings claim).filter fun s => strip s != "").take MAX_GROUPS

theorem normalize_groups_eq (claim : Json) :
    normalize_groups claim = (kept_strings claim).map strip := by
  have hitems : ∀ items : List Json, (items.filterMap fun
      | .str g => if strip g = "" then none else some (strip g)
      | _ => none) = ((items.filterMap fun
      | .str s => some s
      | _ => none).filter fun s => strip s != "").map strip := by
    intro items
    induction items with
    | nil => rfl
    | cons item rest ih =>
      cases item with
      | str s =>
        by_cases hs : strip s = ""
        · simp [hs, ih]
        · simp [hs, ih]
      | null | bool | num | arr | obj => simpa using ih
  unfold normalize_groups kept_strings claim_strings
  rw [List.map_take]
  cases claim with
  | str s => exact congrArg (List.take MAX_GROUPS) (hitems [.str s])
  | arr items => exact congrArg (List.take MAX_GROUPS) (hitems items)
  | null | bool | num | obj => rfl

/-- Trimming the groups first changes nothing. -/
theorem entitled_stripped (cfg : GroupConfig) (email : String) (groups : List String) (name : String) :
    Entitled cfg email (groups.map strip) name ↔ Entitled cfg email groups name := by
  constructor
  · rintro (h | ⟨hrow, hkey, h⟩ | ⟨hgroup, hrow, hkey, h⟩)
    · exact .default h
    · exact .user hrow hkey h
    · obtain ⟨group, hmem, rfl⟩ := List.mem_map.mp hgroup
      rw [strip_strip] at hkey
      exact .sso hmem hrow hkey h
  · rintro (h | ⟨hrow, hkey, h⟩ | ⟨hgroup, hrow, hkey, h⟩)
    · exact .default h
    · exact .user hrow hkey h
    · exact .sso (List.mem_map_of_mem hgroup) hrow (by rw [strip_strip]; exact hkey) h

/-! ## The groups of the team -/

section
variable {settings : LitellmSettings} {p : Person} {s : Tables}

theorem mem_with_groups {current wanted : List String} {g : String} :
    g ∈ with_groups current wanted ↔ g ∈ current ∨ g ∈ wanted := by
  have hback : ∀ xs seen : List String, g ∈ xs.foldl add_group seen → g ∈ seen ∨ g ∈ xs := by
    intro xs
    induction xs with
    | nil => exact fun seen h => .inl h
    | cons x xs ih =>
      intro seen h
      rcases ih _ h with hseen | hxs
      · unfold add_group at hseen
        split at hseen
        · exact .inl hseen
        · rcases List.mem_append.mp hseen with hseen | hx
          · exact .inl hseen
          · exact .inr (List.mem_singleton.mp hx ▸ List.mem_cons_self)
      · exact .inr (List.mem_cons_of_mem _ hxs)
  rw [← List.mem_append]
  constructor
  · intro h
    exact (hback _ _ h).resolve_left List.not_mem_nil
  · intro h
    exact mem_foldl_add_group h []

/-- A request that writes the groups of a team leaves it with these. -/
theorem update_groups (team : Team) {body : Dict} {ids : List String}
    (h : body.lookup "access_group_ids" = some (.arr (ids.map .str))) :
    ∃ team', team.update body = some team' ∧ team'.access_group_ids = ids := by
  rw [Team.update, h]
  show ∃ team', (group_list (.arr (ids.map .str))).map _ = some team' ∧ _
  rw [group_list_texts]
  exact ⟨_, rfl, rfl⟩

theorem groups_of_row {id : String} {team : Team} (h : s.teams.lookup id = some team) :
    s.groups id = team.access_group_ids := by
  rw [Tables.groups, h]
  rfl

/-- The team is there. If the call has created it, it had no groups before; what
    the factory has put on it is written over. -/
structure Known (settings : LitellmSettings) (p : Person) (s₀ : Tables) (created : Bool) (s : Tables) :
    Prop where
  row : ∃ team, s.teams.lookup (p.team_id settings) = some team ∧
    (created = false → team.access_group_ids = s₀.groups (p.team_id settings))
  fresh : created = true → s₀.groups (p.team_id settings) = []
  catalogue : s.access_groups = s₀.access_groups

/-- The catalogue stays as it is. -/
theorem after_catalogue (op : Call) (answer : HttpReply) (effective : Bool) :
    ((litellm_when True).after s ⟨op, answer, effective⟩).access_groups = s.access_groups := by
  unfold Service.after
  split
  · exact apply_access_groups op s
  · rfl

/-- What is known about the groups when they are written. -/
theorem current_groups_meets {created : Bool} {s₀ : Tables} (h : Known settings p s₀ created s) :
    (litellm_when True).Meets (fun _ => True) (fun s' res => s' = s ∧ ∀ found, res = .ok found →
      ∃ shown, found = some (shown, (s₀.groups (p.team_id settings)).map .str)) s
      (attached_groups (p.team_id settings) created).run := by
  cases created with
  | true =>
    unfold attached_groups
    refine ⟨trivial, rfl, fun found hok => ?_⟩
    cases hok
    rw [h.fresh rfl]
    exact ⟨none, rfl⟩
  | false =>
    obtain ⟨team, hrow, hgroups⟩ := h.row
    refine (read_groups_meets trivial hrow).mono ?_
    rintro s' res - ⟨rfl, hfound⟩
    refine ⟨rfl, fun found hok => ?_⟩
    obtain ⟨hnone, hshown⟩ := hfound found hok
    cases found with
    | none => exact absurd trivial (hnone rfl)
    | some found =>
      obtain ⟨shown, current⟩ := found
      obtain ⟨-, rfl⟩ := hshown shown current rfl
      rw [hgroups rfl]
      exact ⟨shown, rfl⟩

/-- The groups a team is left with: those it had, and those that are wanted. -/
def Attached (settings : LitellmSettings) (p : Person) (s₀ s : Tables) : Prop :=
  s.access_groups = s₀.access_groups ∧ ∀ g, g ∈ s.groups (p.team_id settings) ↔
    g ∈ s₀.groups (p.team_id settings) ∨ g ∈ wanted settings s₀ p.ensure

theorem attach_meets {created : Bool} {s₀ : Tables} (h : Known settings p s₀ created s) :
    (litellm_when True).Meets (fun _ => True) (fun s' res => ∀ t, res = .ok t →
      Attached settings p s₀ s') s
      (attach_groups (p.team_id settings) created ((wanted settings s₀ p.ensure).map .str)).run := by
  refine Service.meets_run_bind (current_groups_meets h) ?_ (fun _ _ _ _ => nofun)
  rintro s' found - ⟨rfl, hfound⟩
  obtain ⟨shown, rfl⟩ := hfound found rfl
  refine Service.meets_still_bind trivial (still_from_keys _) (fun ids hids => ?_) (fun _ _ => nofun)
  -- the list that is written is what was there and what is wanted
  obtain rfl : ids = (with_groups (s₀.groups (p.team_id settings))
      (wanted settings s₀ p.ensure)).map .str := by
    rw [from_keys_ok hids, ← List.map_append]
    exact foldl_add_key_texts _ []
  refine meets_request trivial (fun _ _ => nofun) (fun _ _ => trivial) (fun effective resp hans => ?_)
  refine Service.meets_still_bind trivial (still_expect _ _ _) (fun _ hexpect => ?_) (fun _ _ => nofun)
  obtain ⟨rfl, -⟩ := hans.1 (expect_ok hexpect)
  refine ⟨trivial, fun t _ => ⟨?_, fun g => ?_⟩⟩
  · exact (after_catalogue _ _ _).trans h.catalogue
  · obtain ⟨team, hrow, -⟩ := h.row
    obtain ⟨team', hupdate, hgroups⟩ := update_groups team
      (attach_body_groups (p.team_id settings) _ (created || stamped_as_ours shown))
    have hafter : ((litellm_when True).after s' ⟨.team_update (attach_body (p.team_id settings)
        ((with_groups (s₀.groups (p.team_id settings)) (wanted settings s₀ p.ensure)).map .str)
        (created || stamped_as_ours shown)), .response resp, true⟩).teams.lookup (p.team_id settings) =
        some team' := by
      show (s'.write_team (s'.updated_team _)).teams.lookup _ = _
      rw [Tables.updated_team, attach_body_team_id]
      dsimp only
      rw [hrow, Option.bind_some, hupdate]
      show (s'.set_team (p.team_id settings) team').teams.lookup _ = _
      rw [Tables.lookup_set_team, if_pos rfl]
    rw [groups_of_row hafter, hgroups, mem_with_groups]

/-- The team after `/team/new`. -/
theorem team_new_known {body : Dict} (hid : text_field body "team_id" = some (p.team_id settings))
    {resp : HttpResponse} {effective : Bool}
    (hans : s.admits (.team_new body) effective (.response resp))
    (hok : resp.status_code = 200 ∨ already_exists resp = true) :
    Known settings p s (resp.status_code == 200)
      ((litellm_when True).after s ⟨.team_new body, .response resp, effective⟩) := by
  have hcatalogue := after_catalogue (s := s) (.team_new body) (.response resp) effective
  -- a team that is created has no groups; one that is there keeps its own
  by_cases hstatus : resp.status_code = 200
  · obtain ⟨rfl, haccepted⟩ := hans.1 hstatus
    obtain ⟨⟨id, team⟩, hrow⟩ := Option.isSome_iff_exists.mp haccepted
    obtain ⟨hid', hnone, -⟩ := Tables.accepted_team_some hrow
    obtain rfl : p.team_id settings = id := Option.some.inj (hid.symm.trans hid')
    refine ⟨⟨team, ?_, fun hcreated => ?_⟩, fun _ => ?_, hcatalogue⟩
    · show (s.write_team (s.accepted_team body)).teams.lookup _ = _
      rw [hrow]
      show (s.set_team (p.team_id settings) team).teams.lookup _ = _
      rw [Tables.lookup_set_team, if_pos rfl]
    · rw [hstatus] at hcreated
      cases hcreated
    · rw [Tables.groups, hnone]
      rfl
  · have hhas := hans.2 (hok.resolve_left hstatus)
    rw [Tables.has_team, hid] at hhas
    have hsome : (s.teams.lookup (p.team_id settings)).isSome = true := hhas
    have hsame : (litellm_when True).after s ⟨.team_new body, .response resp, effective⟩ = s := by
      apply after_read
      show s.write_team (s.accepted_team body) = s
      rw [Tables.accepted_team, hid]
      dsimp only
      rw [if_pos hsome]
      rfl
    obtain ⟨team, hteam⟩ := Option.isSome_iff_exists.mp hsome
    rw [hsame]
    refine ⟨⟨team, hteam, fun _ => (groups_of_row hteam).symm⟩, fun hcreated => ?_, rfl⟩
    exact absurd (by simpa using hcreated) hstatus

/-- A member that joins changes no group. -/
theorem member_add_known {created : Bool} {s₀ : Tables} (h : Known settings p s₀ created s)
    (answer : HttpReply) (effective : Bool) : Known settings p s₀ created ((litellm_when True).after s
      ⟨.member_add (p.team_id settings) p.email none, answer, effective⟩) := by
  unfold Service.after
  split
  · obtain ⟨team, hrow, hgroups⟩ := h.row
    refine ⟨⟨team.add_member p.email, ?_, fun hcreated => ?_⟩, h.fresh, ?_⟩
    · show (s.add_member (p.team_id settings) p.email).teams.lookup _ = _
      unfold Tables.add_member
      rw [hrow]
      dsimp only
      rw [Tables.ensure_user_teams, Tables.lookup_set_team, if_pos rfl]
    · rw [add_member_groups]
      exact hgroups hcreated
    · exact (apply_access_groups _ s).trans h.catalogue
  · exact h

theorem ensure_personal_team_groups :
    (litellm_when True).Meets (fun _ => True) (fun s' res => ∀ t, res = .ok t →
      Attached settings p s s') s
      (ensure_personal_team settings p.email p.factory p.sso_groups).run := by
  rw [ensure_personal_team_eq]
  refine Service.meets_still_bind trivial (still_dict_get _ _ _) (fun user _ => ?_) (fun _ _ => nofun)
  refine Service.meets_still_bind trivial (still_ite (still_dict_items _) (still_pure _))
    (fun items _ => ?_) (fun _ _ => nofun)
  refine meets_request trivial (fun _ _ => nofun) (fun _ _ => trivial) (fun effective resp hans => ?_)
  refine Service.meets_still_bind trivial (still_expect _ _ _) (fun _ hexpect => ?_) (fun _ _ => nofun)
  have hok : resp.status_code = 200 ∨ already_exists resp = true := by simpa using expect_ok hexpect
  have hknown := team_new_known (creates_body (p.team_id settings) _).team_id hans.1 hok
  refine meets_request trivial (fun _ _ => nofun) (fun _ _ => trivial) (fun effective mem _ => ?_)
  have hknown' := member_add_known hknown (.response mem) effective
  refine Service.meets_still_bind trivial (still_expect _ _ _) (fun _ _ => ?_) (fun _ _ => nofun)
  refine Service.meets_run_bind (resolve_meets trivial) ?_ (fun _ _ _ _ => nofun)
  rintro s₃ ids - ⟨hs₃, hids⟩
  have hknown₃ : Known settings p s (resp.status_code == 200) s₃ := by
    rw [hs₃]
    exact hknown'
  have hwanted : ids = (wanted settings s p.ensure).map .str := by
    rw [hids ids rfl, ← hs₃, wanted_eq hknown₃.catalogue]
  rw [hwanted]
  exact attach_meets hknown₃

/-- The team and the catalogue are left alone. -/
def Untouched (s₀ s : Tables) : Prop := s.teams = s₀.teams ∧ s.access_groups = s₀.access_groups

/-- A request about users. -/
def AboutUsers : Call → Prop
  | .user_new _ => True
  | .user_info _ => True
  | .user_list _ => True
  | .user_update _ => True
  | _ => False

theorem about_users_untouched {s₀ : Tables} {op : Call} (h : AboutUsers op) (answer : HttpReply)
    (effective : Bool) (hs : Untouched s₀ s) :
    Untouched s₀ ((litellm_when True).after s ⟨op, answer, effective⟩) := by
  unfold Service.after
  split
  · refine ⟨?_, (apply_access_groups op s).trans hs.2⟩
    rw [← hs.1]
    show (Tables.apply op s).teams = s.teams
    cases op with
    | user_new body =>
      show (s.write_user _).teams = _
      cases s.accepted_user body <;> rfl
    | user_update body =>
      show (s.write_user _).teams = _
      cases s.updated_user body <;> rfl
    | user_info | user_list => rfl
    | _ => cases h
  · exact hs

theorem about_users_meets {α : Type} {q : L α} (h : Sends AboutUsers q) :
    (litellm_when True).Meets (fun _ => True) (fun s' _ => Untouched s s') s q.run := by
  have hkeeps : (litellm_when True).Meets (Untouched s) (fun _ _ => True) s q.run :=
    Service.meets_of_along (h []) (fun _ _ effective answer hop hs =>
      about_users_untouched hop answer effective hs) ⟨rfl, rfl⟩
  exact (hkeeps.mono fun s' _ hs _ => hs).weaken fun _ _ => trivial

theorem attached_untouched {s₀ s₁ s₂ s₃ : Tables} (h₁ : Untouched s₀ s₁)
    (h : Attached settings p s₁ s₂) (h₂ : Untouched s₂ s₃) : Attached settings p s₀ s₃ := by
  refine ⟨h₂.2.trans (h.1.trans h₁.2), fun g => ?_⟩
  have hbefore : s₁.groups (p.team_id settings) = s₀.groups (p.team_id settings) := by
    rw [Tables.groups, Tables.groups, h₁.1]
  have hafter : s₃.groups (p.team_id settings) = s₂.groups (p.team_id settings) := by
    rw [Tables.groups, Tables.groups, h₂.1]
  rw [hafter, h.2, hbefore, wanted_eq h₁.2]

/-- After a call that has succeeded the team has the groups it had and those its
    user is entitled to, and no others. -/
theorem provision_groups (hpersonal : settings.personal_teams_enabled = true) :
    (litellm_when True).Meets (fun _ => True) (fun s' res => ∀ t, res = .ok t →
      Attached settings p s s') s (provision_person settings p) := by
  unfold provision_person ensure_team_and_user
  have hbranch : (settings.personal_teams_enabled && (none : Option String).isNone) = true := by
    rw [hpersonal]
    rfl
  rw [hbranch]
  show (litellm_when True).Meets _ _ s (ExceptT.run (dict_get p.factory "team" (.obj []) >>= _))
  refine Service.meets_still_bind trivial (still_dict_get _ _ _) (fun team _ => ?_) (fun _ _ => nofun)
  refine Service.meets_still_bind trivial (still_dict_items _) (fun _ _ => ?_) (fun _ _ => nofun)
  -- the calls about users, before and after, leave the team alone
  have hteam : (litellm_when True).Meets (fun _ => True) (fun s' res => ∀ r, res = .ok r →
      Attached settings p s s') s
      (team_and_user settings true p.email p.name p.factory none p.sso_groups).run := by
    refine Service.meets_run_bind (about_users_meets (sends_ensure_litellm_user (fun _ => trivial)
      p.email p.name none p.factory)) ?_ (fun _ _ _ _ => nofun)
    intro s₁ v _ huser
    refine Service.meets_run_bind ensure_personal_team_groups ?_ (fun _ _ _ _ => nofun)
    intro s₂ t _ ht
    refine ⟨trivial, fun r _ => ?_⟩
    exact attached_untouched huser (ht t rfl) ⟨rfl, rfl⟩
  refine Service.meets_run_bind hteam ?_ (fun _ _ _ _ => nofun)
  rintro s₂ ⟨v, t⟩ - hattached
  refine Service.meets_still_bind trivial (still_dict_get _ _ _) (fun existed _ => ?_) (fun _ _ => nofun)
  refine Service.meets_run_bind (about_users_meets (sends_backfill_existing (fun _ => trivial)
    (fun _ => trivial) (fun _ => trivial) existed.truthy p.email p.name p.factory)) ?_
    (fun _ _ _ _ => nofun)
  intro s₃ u _ hbackfill
  refine Service.meets_still_bind trivial (still_dict_get _ _ _) (fun user _ => ?_) (fun _ _ => nofun)
  refine Service.meets_still_bind trivial (still_dict_get _ _ _) (fun budget _ => ?_) (fun _ _ => nofun)
  refine ⟨trivial, fun t' _ => ?_⟩
  exact attached_untouched ⟨rfl, rfl⟩ (hattached _ rfl) hbackfill

end

/-! ## The two sign-ins -/

/-- The callbacks of the authorization server and of the console. -/
inductive Door where
  | as_callback
  | auth_callback

/-- The email a sign-in is for. -/
def Door.email : Door → UserInfo → String
  | .as_callback, info => normalized_email (some info)
  | .auth_callback, info => info.email.getD ""

/-- The name that goes with it. -/
def Door.name : Door → UserInfo → Option String
  | .as_callback, info => info.name
  | .auth_callback, info => some (or_else info.name (info.email.getD ""))

/-- What is asked of `ensure_team_and_user`. -/
def Door.person (door : Door) (settings : LitellmSettings) (info : UserInfo) : Person where
  email := door.email info
  name := door.name info
  factory := settings.factory
  sso_groups := some (normalize_groups info.groups)

/-- The call of `ensure_team_and_user`. -/
def Door.provision (door : Door) (settings : LitellmSettings) (info : UserInfo) :
    Prog Call HttpAns (Except Failure String) :=
  (ensure_team_and_user settings (door.email info) (door.name info) none none
    (some (normalize_groups info.groups))).run

/-- Where the sign-in of the console leads. -/
inductive Landing where
  | error (message : String)
  | openwork
  | ui

/-- `_auth_callback_ui`: a failure is logged, and the user is let in. -/
def auth_callback_ui (settings : LitellmSettings) (email : String) (name : Option String)
    (openwork_handoff : Bool) (groups : List String) : L Landing := do
  tryCatch (do let _ ← ensure_team_and_user settings email name none none (some groups))
    fun _ => pure ()
  return if openwork_handoff then .openwork else .ui

/-- `auth_callback`; there is no token if the exchange has failed. -/
def auth_callback (settings : LitellmSettings) (token : Option DexToken) (openwork_handoff : Bool) :
    L Landing :=
  match token with
  | none => return .error "Authentication failed. Please try signing in again."
  | some token =>
      let email := (token.userinfo.bind (·.email)).getD ""
      if email = "" then return .error "No email claim returned by identity provider."
      else auth_callback_ui settings email (some (or_else (token.userinfo.bind (·.name)) email))
        openwork_handoff (normalize_groups ((token.userinfo.map (·.groups)).getD .null))

/-- The console provisions the user with all the groups that are kept. -/
theorem auth_callback_provisions (settings : LitellmSettings) (info : UserInfo)
    (refresh_token : Option String) (openwork_handoff : Bool)
    (hemail : Door.auth_callback.email info ≠ "") :
    (auth_callback settings (some ⟨some info, refresh_token⟩) openwork_handoff).run =
      (Door.auth_callback.provision settings info >>= fun _ =>
        .ret (.ok (if openwork_handoff then .openwork else .ui))) := by
  have hstep : auth_callback settings (some ⟨some info, refresh_token⟩) openwork_handoff =
      auth_callback_ui settings (Door.auth_callback.email info) (Door.auth_callback.name info)
        openwork_handoff (normalize_groups info.groups) := if_neg hemail
  rw [hstep]
  unfold auth_callback_ui Door.provision
  generalize ensure_team_and_user settings _ _ none none _ = p
  show ((p.run >>= _) >>= _) >>= _ = _
  rw [Prog.bind_assoc, Prog.bind_assoc]
  congr 1
  funext result
  cases result with
  | ok t => rfl
  | error e => rfl

/-- And so does the authorization server: a login that Dex has completed asks for
    the same. -/
theorem as_callback_provisions {E : Env} {o : AsOutside} {w : AsWorld} {state : String}
    {pending : Pending} {info : UserInfo} {rt : String} (hstate : state ≠ "")
    (hpending : (w.tick (o.wait [])).lookup .pending state = some pending)
    (hdex : ∀ tr, o.reply tr (.authorize_access_token state) = some ⟨some info, some rt⟩)
    (hemail : Door.as_callback.email info ≠ "") (hrt : rt ≠ "") :
    ∃ reply, (⟨.ext (.ensure_team_and_user (Door.as_callback.email info) (Door.as_callback.name info)
      (normalize_groups info.groups)), reply⟩ : AsEvent) ∈
        (Interleave.alone o w [] (as_callback E state)).trace := by
  unfold as_callback pop_pending
  rw [if_neg hstate, alone_pop, hpending]
  dsimp only
  rw [alone_ext, hdex]
  have hemail' : normalized_email (some info) ≠ "" := hemail
  show ∃ reply, _ ∈ (Interleave.alone o _ _ (if normalized_email (some info) = "" then _ else
    if rt = "" then _ else _)).trace
  rw [if_neg hemail', if_neg hrt, alone_put, alone_ext]
  exact ⟨_, (alone_suffix _).subset List.mem_cons_self⟩

/-! ## When every group counts -/

/-- The team holds the id of every catalogued group the user is entitled to with
    all groups of the claim. -/
def HoldsAll (cfg : GroupConfig) (email : String) (claim : Json) (s s' : Tables) : Prop :=
  ∀ name id, (name, id) ∈ s.access_groups → name ≠ "" → id ≠ "" →
    Entitled cfg email (claim_strings claim) name →
    id ∈ s'.groups (cfg.settings.personal_team_id email)

/-- Each of these ids is on the team before, or is what some name stands for that
    the user is entitled to without the groups that are dropped. -/
def Reaches (cfg : GroupConfig) (email : String) (claim : Json) (s : Tables) : Prop :=
  ∀ name id, (name, id) ∈ s.access_groups → name ≠ "" → id ≠ "" →
    Entitled cfg email (claim_strings claim) name →
    id ∈ s.groups (cfg.settings.personal_team_id email) ∨
      ∃ name', Entitled cfg email (kept_strings claim) name' ∧ s.group_id name' = some id

section
variable {cfg : GroupConfig} {s : Tables}

theorem group_id_mem {name id : String} (h : s.group_id name = some id) :
    (name, id) ∈ s.access_groups ∧ name ≠ "" := by
  obtain ⟨⟨name', id'⟩, hfind, rfl⟩ := Option.map_eq_some_iff.mp h
  have hmem := List.mem_reverse.mp (List.mem_of_find?_eq_some hfind)
  obtain ⟨hmem, hfull⟩ := List.mem_filter.mp hmem
  have hname : name' = name := by simpa using List.find?_some hfind
  subst hname
  refine ⟨hmem, ?_⟩
  simp at hfull
  exact hfull.1

/-- The ids that a sign-in attaches. -/
theorem mem_wanted (door : Door) (info : UserInfo) (id : String) :
    id ∈ wanted cfg.settings s (door.person cfg.settings info).ensure ↔
      ∃ name, Entitled cfg (door.email info) (kept_strings info.groups) name ∧
        s.group_id name = some id := by
  have hnames : ∀ name, name ∈ access_groups_for_user cfg.settings (door.email info)
      (some (normalize_groups info.groups)) ↔
      name ≠ "" ∧ Entitled cfg (door.email info) (kept_strings info.groups) name := by
    intro name
    rw [mem_access_groups, normalize_groups_eq, entitled_stripped]
  show id ∈ (access_groups_for_user cfg.settings (door.email info)
    (some (normalize_groups info.groups))).filterMap s.group_id ↔ _
  rw [List.mem_filterMap]
  constructor
  · rintro ⟨name, hname, hid⟩
    exact ⟨name, ((hnames name).mp hname).2, hid⟩
  · rintro ⟨name, hname, hid⟩
    exact ⟨name, (hnames name).mpr ⟨(group_id_mem hid).2, hname⟩, hid⟩

/-- After a sign-in in which every call to LiteLLM has succeeded, the team holds
    every group that the whole claim gives the user if and only if the groups
    that are dropped give nothing new. -/
theorem signin_counts_iff (cfg : GroupConfig) (hpersonal : cfg.settings.personal_teams_enabled = true)
    (door : Door) (info : UserInfo) {s s' : Tables} {xs : List (Exchange Call HttpAns)} {t : String}
    (h : (litellm_when True).Runs s [] (door.provision cfg.settings info) s' xs (.ok t)) :
    HoldsAll cfg (door.email info) info.groups s s' ↔ Reaches cfg (door.email info) info.groups s := by
  have hattached : Attached cfg.settings (door.person cfg.settings info) s s' :=
    (Service.Runs.meets (p := provision_person cfg.settings (door.person cfg.settings info)) h
      (provision_groups hpersonal)).2 t rfl
  have hgroups : ∀ id, id ∈ s'.groups (cfg.settings.personal_team_id (door.email info)) ↔
      id ∈ s.groups (cfg.settings.personal_team_id (door.email info)) ∨
        ∃ name, Entitled cfg (door.email info) (kept_strings info.groups) name ∧
          s.group_id name = some id := by
    intro id
    rw [← mem_wanted door info id]
    exact hattached.2 id
  constructor
  · intro hholds name id hmem hname hid hentitled
    exact (hgroups id).mp (hholds name id hmem hname hid hentitled)
  · intro hreaches name id hmem hname hid hentitled
    exact (hgroups id).mpr (hreaches name id hmem hname hid hentitled)

/-- Every group counts if there are no more than fifty, none of them blank in the
    map, and no two catalogued groups with one name. -/
theorem reaches_of_few {email : String} {claim : Json}
    (hfew : ((claim_strings claim).filter fun s => strip s != "").length ≤ MAX_GROUPS)
    (hkeys : ∀ row ∈ cfg.SSO_ACCESS_GROUPS, lower (strip row.1) ≠ "")
    (hnames : ∀ a ∈ s.access_groups, ∀ b ∈ s.access_groups, a.1 = b.1 → a = b) :
    Reaches cfg email claim s := by
  intro name id hmem hname hid hentitled
  refine .inr ⟨name, ?_, ?_⟩
  -- nothing is cut off, and a blank text is no key
  · have hkept : kept_strings claim = (claim_strings claim).filter fun s => strip s != "" :=
      List.take_of_length_le hfew
    rw [hkept]
    cases hentitled with
    | default h => exact .default h
    | user hrow hkey h => exact .user hrow hkey h
    | @sso group key name names hgroup hrow hkey h =>
      refine .sso (List.mem_filter.mpr ⟨hgroup, ?_⟩) hrow hkey h
      rw [bne_iff_ne]
      intro hblank
      rw [hblank] at hkey
      exact hkeys _ hrow (hkey.trans rfl)
  · -- the name is found, and what is found under it is the group itself
    have hrow : (name, id) ∈ (s.access_groups.filter fun g => g.1 != "" && g.2 != "").reverse := by
      simp [hmem, hname, hid]
    cases hfind : (s.access_groups.filter fun g => g.1 != "" && g.2 != "").reverse.find? fun g =>
        g.1 == name with
    | none => exact absurd (List.find?_eq_none.mp hfind _ hrow) (by simp)
    | some found =>
      have hin : found ∈ s.access_groups :=
        List.mem_of_mem_filter (List.mem_reverse.mp (List.mem_of_find?_eq_some hfind))
      have heq : found.1 = name := by simpa using List.find?_some hfind
      rw [Tables.group_id, hfind, hnames found hin (name, id) hmem heq]
      rfl

end

/-! ## Fifty groups and one more -/

/-- A deployment with one group of the identity provider in the map. -/
def team_config : GroupConfig where
  settings := team_settings
  USER_ACCESS_GROUPS := []
  SSO_ACCESS_GROUPS := [("Eng", ["engineering"])]
  user_folded := rfl
  sso_folded := by decide +kernel

/-- A user with these groups. -/
def member_of (groups : List String) : UserInfo :=
  { email := some "ann", name := none, groups := .arr (groups.map .str) }

/-- Sign-ins whose groups stand for the same access groups are one sign-in. -/
theorem provisioned_groups_congr {email : String} {name : Option String} {factory : Json}
    {groups groups' : Option (List String)} (s : Tables)
    (h : access_groups_for_user team_settings email groups =
      access_groups_for_user team_settings email groups') :
    provisioned_groups ⟨email, name, factory, groups⟩ s =
      provisioned_groups ⟨email, name, factory, groups'⟩ s := by
  have hprogram : provision_person team_settings ⟨email, name, factory, groups⟩ =
      provision_person team_settings ⟨email, name, factory, groups'⟩ := by
    unfold provision_person ensure_team_and_user team_and_user ensure_personal_team
    simp only [h]
  unfold provisioned_groups provision_well
  rw [hprogram]
  rfl

/-- The groups of the team after a sign-in in which all goes well. -/
def signin_groups (door : Door) (groups : List String) : Option (List String) :=
  provisioned_groups (door.person team_settings (member_of groups)) team_tables

theorem signin_groups_some {door : Door} {groups attached : List String}
    (hemail : door.email (member_of groups) = "ann") (h : signin_groups door groups = some attached) :
    ∃ s' xs t, (litellm_when True).Runs team_tables []
      (door.provision team_config.settings (member_of groups)) s' xs (.ok t) ∧
      s'.groups "personal-ann" = attached := by
  obtain ⟨s', xs, t, hruns, hgroups⟩ := provisioned_groups_some h
  have hid : (door.person team_settings (member_of groups)).team_id team_settings = "personal-ann" := by
    show team_settings.personal_team_id (door.email (member_of groups)) = _
    rw [hemail]
    decide +kernel
  rw [hid] at hgroups
  exact ⟨s', xs, t, hruns, hgroups⟩

theorem signin_counts_iff_sample : ∃ s' xs t, (litellm_when True).Runs team_tables []
      (Door.auth_callback.provision team_config.settings (member_of ["staff", " ENG "])) s' xs (.ok t) ∧
    HoldsAll team_config "ann" (member_of ["staff", " ENG "]).groups team_tables s' := by
  obtain ⟨s', xs, t, hruns, -⟩ := signin_groups_some rfl
    (show signin_groups .auth_callback ["staff", " ENG "] = some ["g-base", "g-eng"] by decide +kernel)
  refine ⟨s', xs, t, hruns, (signin_counts_iff team_config rfl .auth_callback _ hruns).mpr ?_⟩
  refine reaches_of_few (by decide +kernel) (by decide +kernel) (by decide +kernel)

/-- Fifty other groups. -/
def fifty_groups : List String := (List.range 50).map fun n => "team-" ++ toString n

theorem lower_first {s : String} (h : s.toList.head? = some 't') :
    (lower s).toList.head? = some 't' := by
  rw [lower, String.toList_ofList]
  cases hs : s.toList with
  | nil =>
    rw [hs] at h
    cases h
  | cons c cs =>
    rw [hs] at h
    obtain rfl := Option.some.inj h
    have hfirst : lowerChar [] cs 't' = ['t'] := by
      have hsimple : simpleLower (lowerRanges ++ lowerRanges16) 't' = 't' := by decide +kernel
      rw [lowerChar, if_neg (by decide), if_neg (by decide), hsimple]
    rw [lowerChars, hfirst]
    rfl

/-- A name of the fifty is in no map. -/
theorem fifty_unmapped : access_groups_for_user team_settings "ann" (some fifty_groups) =
    access_groups_for_user team_settings "ann" none := by
  have hplain : ∀ g ∈ fifty_groups, strip g = g ∧ g.toList.head? = some 't' := by decide +kernel
  have hnone : ∀ g ∈ fifty_groups,
      (team_settings.sso_access_groups.lookup (lower (strip g))).getD [] = [] := by
    intro g hg
    obtain ⟨hstrip, hfirst⟩ := hplain g hg
    have hne : lower g ≠ "eng" := by
      intro heq
      have hhead := lower_first hfirst
      rw [heq] at hhead
      exact absurd hhead (by decide)
    rw [hstrip]
    show (List.lookup (lower g) [("eng", ["engineering"])]).getD [] = []
    rw [List.lookup_cons, beq_eq_false_iff_ne.mpr hne]
    rfl
  unfold access_groups_for_user
  dsimp only [Option.getD_some, Option.getD_none]
  rw [List.flatMap_eq_nil_iff.mpr hnone, List.flatMap_nil]

theorem kept_fifty : normalize_groups (member_of (fifty_groups ++ ["eng"])).groups = fifty_groups := by
  decide +kernel

theorem signin_fifty (hemail : Door.as_callback.email (member_of (fifty_groups ++ ["eng"])) = "ann") :
    signin_groups .as_callback (fifty_groups ++ ["eng"]) = some ["g-base"] := by
  rw [signin_groups, Door.person, hemail, kept_fifty,
    provisioned_groups_congr team_tables fifty_unmapped]
  decide +kernel

/-- The group comes after fifty others, and the user does not get what it gives. -/
theorem group_dropped : ∃ s' xs t, (litellm_when True).Runs team_tables []
      (Door.as_callback.provision team_config.settings (member_of (fifty_groups ++ ["eng"]))) s' xs
      (.ok t) ∧ s'.groups "personal-ann" = ["g-base"] ∧
    ("engineering", "g-eng") ∈ team_tables.access_groups ∧
    Entitled team_config "ann" (claim_strings (member_of (fifty_groups ++ ["eng"])).groups)
      "engineering" ∧
    ¬ HoldsAll team_config (Door.as_callback.email (member_of (fifty_groups ++ ["eng"])))
      (member_of (fifty_groups ++ ["eng"])).groups team_tables s' := by
  have hemail : Door.as_callback.email (member_of (fifty_groups ++ ["eng"])) = "ann" := by
    show normalized_email _ = _
    decide +kernel
  obtain ⟨s', xs, t, hruns, hgroups⟩ := signin_groups_some hemail (signin_fifty hemail)
  have hgroup : "eng" ∈ claim_strings (member_of (fifty_groups ++ ["eng"])).groups := by decide +kernel
  have hrow : ("Eng", ["engineering"]) ∈ team_config.SSO_ACCESS_GROUPS := List.mem_singleton.mpr rfl
  -- ann is entitled to the group by the text that is cut off
  have hentitled : Entitled team_config "ann"
      (claim_strings (member_of (fifty_groups ++ ["eng"])).groups) (strip "engineering") :=
    .sso hgroup hrow (by decide +kernel) (List.mem_singleton.mpr rfl)
  have hname : strip "engineering" = "engineering" := by decide +kernel
  rw [hname] at hentitled
  have hmem : ("engineering", "g-eng") ∈ team_tables.access_groups := by simp [team_tables]
  refine ⟨s', xs, t, hruns, hgroups, hmem, hentitled, fun hholds => ?_⟩
  rw [hemail] at hholds
  have hid : team_settings.personal_team_id "ann" = "personal-ann" := by decide +kernel
  have hheld : "g-eng" ∈ s'.groups (team_settings.personal_team_id "ann") :=
    hholds _ _ hmem (by decide) (by decide) hentitled
  rw [hid, hgroups] at hheld
  simp at hheld

end AlitellmAuth.Litellm
