import AlitellmAuth.Litellm.PersonalTeam

/-! # Closed teams

    Any number of calls of `ensure_personal_team` run at once, for any users,
    and any of them may stop between two requests. Administrators may attach
    groups by hand in the meantime.

    * `Touches`: what one request does to the row of a team.
    * `Safe`: new rows are closed, and rows of somebody else are kept.
    * `personal_team_closed`: the rows are safe at every moment.
-/

namespace AlitellmAuth.Litellm

open Interleave

/-! ## Rows that are kept -/

/-- No model, no server and no agent but through an access group. -/
structure Closed (team : Team) : Prop where
  models : team.columns "models" = some (.arr [.str DENY_ALL_MODEL])
  object_permission : team.columns "object_permission" = some deny_all_object_permission

/-- Nothing has changed but members and groups, and these were only added. -/
structure Keeps (team team' : Team) : Prop where
  columns : team'.columns = team.columns
  groups : team.access_group_ids ⊆ team'.access_group_ids
  members : team.members ⊆ team'.members

/-- The rows since `s₀`: no row is lost, a foreign row is kept, and every new
    row is closed. -/
structure Safe (s₀ s : Tables) : Prop where
  fresh : ∀ id team, s₀.teams.lookup id = none → s.teams.lookup id = some team → Closed team
  foreign : ∀ id team₀, s₀.teams.lookup id = some team₀ →
    ∃ team, s.teams.lookup id = some team ∧ (team₀.stamped = false → Keeps team₀ team)

/-- What an answer says about `s₀` whenever it comes. -/
def Tells (s₀ : Tables) (e : LEvent) : Prop :=
  (∀ id, CreatedIn id [e] → s₀.teams.lookup id = none) ∧
  ∀ id shown, ReadIn id shown [e] → ∀ team₀, s₀.teams.lookup id = some team₀ →
    team₀.stamped = false →
    stamped_as_ours (some shown) = false ∧
      ∀ g ∈ team₀.access_group_ids, .str g ∈ shown_groups shown

/-- A group attached by hand to a team that exists. -/
def attach (e : String × String) (s : Tables) : Tables :=
  match s.teams.lookup e.1 with
  | some team => s.set_team e.1 { team with access_group_ids := team.access_group_ids ++ [e.2] }
  | none => s

section
variable {team team' team₀ : Team} {s₀ s s' : Tables}

theorem Keeps.refl (team : Team) : Keeps team team :=
  ⟨rfl, List.Subset.refl _, List.Subset.refl _⟩

theorem Keeps.trans {team team' team'' : Team} (h : Keeps team team') (h' : Keeps team' team'') :
    Keeps team team'' :=
  ⟨h'.columns.trans h.columns, List.Subset.trans h.groups h'.groups,
    List.Subset.trans h.members h'.members⟩

theorem Closed.keeps (hc : Closed team) (h : Keeps team team') : Closed team' := by
  refine ⟨?_, ?_⟩
  · rw [h.columns]
    exact hc.models
  · rw [h.columns]
    exact hc.object_permission

theorem keeps_add_member (team : Team) (user_id : String) : Keeps team (team.add_member user_id) := by
  unfold Team.add_member
  split
  · exact Keeps.refl _
  · exact ⟨rfl, List.Subset.refl _, List.subset_append_left _ _⟩

theorem shown_group {shown : Dict} (h : Tables.ShowsTeam team shown) {g : String}
    (hg : g ∈ team.access_group_ids) : .str g ∈ shown_groups shown := by
  unfold shown_groups
  rcases h.groups with harr | ⟨-, hnil⟩
  · rw [harr]
    exact List.mem_map_of_mem hg
  · rw [hnil] at hg
    cases hg

/-- A list of group ids holds every string of the request. -/
theorem group_list_mem {items : List Json} {ids : List String} (h : group_list (.arr items) = some ids)
    {g : String} : g ∈ ids ↔ .str g ∈ items := by
  induction items generalizing ids with
  | nil =>
    cases h
    simp
  | cons x items ih =>
    rw [group_list, List.mapM_cons] at h
    obtain ⟨id, hid, h⟩ := Option.bind_eq_some_iff.mp h
    obtain ⟨rest, hrest, h⟩ := Option.bind_eq_some_iff.mp h
    cases h
    cases x with
    | str y =>
      cases hid
      rw [List.mem_cons, List.mem_cons, ih hrest]
      simp
    | null | bool | num | arr | obj => cases hid

theorem lookup_team_columns (body : Dict) (key : String) :
    (team_columns body).lookup key =
      if key = "team_id" ∨ key = "access_group_ids" then none else body.lookup key := by
  have hfilter := Table.lookup_filter_key (fun k => k != "team_id" && k != "access_group_ids") body key
  rw [team_columns, hfilter]
  by_cases h : key = "team_id" ∨ key = "access_group_ids"
  · rw [if_pos h, if_neg]
    simpa [Decidable.or_iff_not_imp_left] using h
  · rw [if_neg h, if_pos]
    simpa using h

/-- A team that a call creates is closed, whatever the factory has. -/
theorem creates_closed {id : String} {body : Dict} (hc : Creates id body)
    (h : new_team body = some team) : Closed team := by
  obtain ⟨ids, -, rfl⟩ := Option.map_eq_some_iff.mp h
  refine ⟨?_, ?_⟩
  · show (team_columns body).lookup "models" = _
    rw [lookup_team_columns, if_neg (by decide)]
    exact hc.models
  · show (team_columns body).lookup "object_permission" = _
    rw [lookup_team_columns, if_neg (by decide)]
    exact hc.object_permission

/-- What attaching does to a row. -/
theorem attaches_update {settings : LitellmSettings} {r : Ensure} {id : String} {tr : LTrace}
    {body : Dict} (ha : Attaches settings r id tr body) (h : team.update body = some team') :
    team'.members = team.members ∧
    (∃ items, body.lookup "access_group_ids" = some (.arr items) ∧
      ∀ g, g ∈ team'.access_group_ids ↔ .str g ∈ items) ∧
    (team'.columns = team.columns ∨
      (CreatedIn id tr ∨ ∃ shown, ReadIn id shown tr ∧ stamped_as_ours (some shown) = true) ∧
      (Closed team → team'.columns = team.columns)) := by
  obtain ⟨items, hitems, -⟩ := ha.groups
  rw [Team.update, hitems] at h
  obtain ⟨ids, hids, rfl⟩ := Option.map_eq_some_iff.mp h
  refine ⟨rfl, ⟨items, hitems, fun g => group_list_mem hids⟩, ?_⟩
  -- every column but the permissions is the row's own
  have hcolumn : ∀ key, key ≠ "object_permission" →
      team.columns.supply (team_columns body) key = team.columns key := by
    intro key hkey
    have hnone : (team_columns body).lookup key = none := by
      rw [Option.eq_none_iff_forall_ne_some]
      intro value hvalue
      rw [lookup_team_columns] at hvalue
      split at hvalue
      · cases hvalue
      · next hnot =>
        rcases ha.columns key value hvalue with h | h | ⟨h, -⟩
        · exact hnot (.inl h)
        · exact hnot (.inr h)
        · exact hkey h
    rw [Columns.supply, hnone]
    rfl
  have hpermission : (team_columns body).lookup "object_permission" =
      body.lookup "object_permission" := by
    rw [lookup_team_columns, if_neg (by decide)]
  cases hvalue : body.lookup "object_permission" with
  | none =>
    refine .inl (funext fun key => ?_)
    by_cases hkey : key = "object_permission"
    · show team.columns.supply (team_columns body) key = _
      rw [hkey, Columns.supply, hpermission, hvalue]
      rfl
    · exact hcolumn key hkey
  | some value =>
    rcases ha.columns _ _ hvalue with hkey | hkey | ⟨-, hdeny, howner⟩
    · exact absurd hkey (by decide)
    · exact absurd hkey (by decide)
    · refine .inr ⟨howner, fun hclosed => funext fun key => ?_⟩
      by_cases hkey : key = "object_permission"
      · show team.columns.supply (team_columns body) key = _
        rw [hkey, Columns.supply, hpermission, hvalue, hdeny, hclosed.object_permission]
        rfl
      · exact hcolumn key hkey

end

/-! ## What a request does to a row -/

/-- What one request of a call does to the row of a team. -/
inductive Touches (settings : LitellmSettings) (r : Ensure) (tr : LTrace) (op : Call) (id : String) :
    Option Team → Option Team → Prop where
  | same (row : Option Team) : Touches settings r tr op id row row
  | create {body : Dict} {team : Team} (hop : op = .team_new body) (hcreates : Creates id body)
      (hnew : new_team body = some team) : Touches settings r tr op id none (some team)
  | join (team : Team) : Touches settings r tr op id (some team) (some (team.add_member r.email))
  | attach {body : Dict} {team team' : Team} (hop : op = .team_update body)
      (hattaches : Attaches settings r id tr body) (hupdate : team.update body = some team') :
      Touches settings r tr op id (some team) (some team')

section
variable {settings : LitellmSettings} {r : Ensure} {tr : LTrace} {s : Tables}

theorem touches_new {body : Dict} (hcreates : Creates (settings.personal_team_id r.email) body)
    (id : String) : Touches settings r tr (.team_new body) id (s.teams.lookup id)
      ((s.write_team (s.accepted_team body)).teams.lookup id) := by
  cases hrow : s.accepted_team body with
  | none => exact .same _
  | some row =>
    obtain ⟨team_id, team⟩ := row
    obtain ⟨hid, hnone, hnew⟩ := Tables.accepted_team_some hrow
    obtain rfl := Option.some.inj (hid.symm.trans hcreates.team_id)
    rw [Tables.write_team, Tables.lookup_set_team]
    split
    · next heq =>
      rw [heq, hnone]
      exact .create rfl hcreates hnew
    · exact .same _

theorem touches_update {body : Dict}
    (hattaches : Attaches settings r (settings.personal_team_id r.email) tr body) (id : String) :
    Touches settings r tr (.team_update body) id (s.teams.lookup id)
      ((s.write_team (s.updated_team body)).teams.lookup id) := by
  cases hrow : s.updated_team body with
  | none => exact .same _
  | some row =>
    obtain ⟨team_id, team'⟩ := row
    obtain ⟨team, hid, hteam, hupdate⟩ := Tables.updated_team_some hrow
    obtain rfl := Option.some.inj (hid.symm.trans hattaches.team_id)
    rw [Tables.write_team, Tables.lookup_set_team]
    split
    · next heq =>
      rw [heq, hteam]
      exact .attach rfl hattaches hupdate
    · exact .same _

theorem touches_member (team_id : String) (budget : Option Json) (id : String) :
    Touches settings r tr (.member_add team_id r.email budget) id (s.teams.lookup id)
      ((s.add_member team_id r.email).teams.lookup id) := by
  unfold Tables.add_member
  cases hrow : s.teams.lookup team_id with
  | none => exact .same _
  | some team =>
    simp only
    rw [Tables.ensure_user_teams, Tables.lookup_set_team]
    split
    · next hid =>
      rw [hid, hrow]
      exact .join team
    · exact .same _

/-- A request of a call does nothing else to any row. -/
theorem ensures_touches {op : Call} {answer : HttpReply}
    (h : Ensures settings r tr ⟨op, answer⟩) (effective : Bool) (id : String) :
    Touches settings r tr op id (s.teams.lookup id)
      ((litellm.after s ⟨op, answer, effective⟩).teams.lookup id) := by
  cases effective with
  | false => exact .same _
  | true =>
    cases op with
    | team_new body => exact touches_new h.1 id
    | team_update body => exact touches_update h id
    | member_add team_id user_id budget =>
      obtain ⟨rfl, rfl⟩ := h
      exact touches_member _ _ _
    | access_group | team_info => exact .same _
    | member_update | user_new | user_info | user_list | user_update | team_list => exact h.elim
    | key_generate | key_update | key_list | key_info | key_delete | key_block => exact h.elim

/-- No row is lost. -/
theorem Touches.present {op : Call} {id : String} {team : Team} {row : Option Team}
    (h : Touches settings r tr op id (some team) row) : ∃ team', row = some team' := by
  cases h with
  | same | join | attach => exact ⟨_, rfl⟩

/-- A closed row keeps its columns, whoever writes it. -/
theorem Touches.closed {op : Call} {id : String} {team : Team} {row : Option Team}
    (h : Touches settings r tr op id (some team) row) (hc : Closed team) :
    ∃ team', row = some team' ∧ team'.columns = team.columns := by
  cases h with
  | same => exact ⟨team, rfl, rfl⟩
  | join => exact ⟨_, rfl, (keeps_add_member team _).columns⟩
  | attach hop hattaches hupdate =>
    obtain ⟨-, -, hcolumns⟩ := attaches_update hattaches hupdate
    rcases hcolumns with hcolumns | ⟨-, hcolumns⟩
    · exact ⟨_, rfl, hcolumns⟩
    · exact ⟨_, rfl, hcolumns hc⟩

end

/-! ## Any number of calls -/

/-- Calls of `ensure_personal_team`, for any users and factories, interleaved
    with attachments by hand; every step meets `ok`. -/
def Logins (settings : LitellmSettings)
    (ok : Service.Clients Call HttpAns Tables Ensure (Except Failure String) →
      Service.Clients Call HttpAns Tables Ensure (Except Failure String) → Prop) :
    Service.Clients Call HttpAns Tables Ensure (Except Failure String) →
    Service.Clients Call HttpAns Tables Ensure (Except Failure String) → Prop :=
  Service.Leads litellm
    (fun r => (ensure_personal_team settings r.email r.factory r.sso_groups).run) attach ok

section
variable {settings : LitellmSettings} {r : Ensure} {tr : LTrace} {s₀ s : Tables}

theorem safe_refl (s : Tables) : Safe s s where
  fresh := fun id team hnone hsome => by
    rw [hnone] at hsome
    cases hsome
  foreign := fun id team₀ hrow => ⟨team₀, hrow, fun _ => Keeps.refl _⟩

/-- While the rows are safe an answer tells the truth about the rows there were
    in the beginning. -/
theorem safe_tells (hs : Safe s₀ s) {op : Call} {effective : Bool} {answer : HttpReply}
    (hans : litellm.answers s op effective answer) : Tells s₀ ⟨op, answer⟩ := by
  refine ⟨?_, ?_⟩
  · rintro id ⟨body, resp, hmem, hid, hstatus⟩
    cases List.mem_singleton.mp hmem
    obtain ⟨-, haccepted⟩ := hans.1 hstatus
    obtain ⟨row, hrow⟩ := Option.isSome_iff_exists.mp haccepted
    obtain ⟨hid', hnone, -⟩ := Tables.accepted_team_some hrow
    rw [Option.some.inj (hid'.symm.trans hid)] at hnone
    -- a team that was accepted as new was not there at the start
    cases hrow₀ : s₀.teams.lookup id with
    | none => rfl
    | some team₀ =>
      obtain ⟨team, hteam, -⟩ := hs.foreign id team₀ hrow₀
      rw [hnone] at hteam
      cases hteam
  · rintro id shown ⟨resp, value, hmem, hok, hjson, hinfo⟩ team₀ hrow₀ hstamp
    cases List.mem_singleton.mp hmem
    obtain ⟨value', shown', team, hjson', hinfo', hteam, hshows⟩ := hans hok
    rw [hjson] at hjson'
    cases hjson'
    rw [hinfo] at hinfo'
    cases hinfo'
    obtain ⟨team', hteam', hkeeps⟩ := hs.foreign id team₀ hrow₀
    rw [hteam] at hteam'
    cases hteam'
    refine ⟨?_, fun g hg => shown_group hshows ((hkeeps hstamp).groups hg)⟩
    -- the stamp is a column, and the columns of a team that is not ours are kept
    have hcolumns := (hkeeps hstamp).columns
    rw [shown_stamp hshows, ← hstamp]
    unfold Team.stamped
    rw [hcolumns]

theorem CreatedIn.single {id : String} {tr : LTrace} (h : CreatedIn id tr) :
    ∃ e ∈ tr, CreatedIn id [e] := by
  obtain ⟨body, resp, hmem, hrest⟩ := h
  exact ⟨_, hmem, body, resp, List.mem_singleton_self _, hrest⟩

theorem ReadIn.single {id : String} {shown : Dict} {tr : LTrace} (h : ReadIn id shown tr) :
    ∃ e ∈ tr, ReadIn id shown [e] := by
  obtain ⟨resp, value, hmem, hrest⟩ := h
  exact ⟨_, hmem, resp, value, List.mem_singleton_self _, hrest⟩

/-- A call that was told the truth keeps a foreign row. -/
theorem Touches.foreign {op : Call} {id : String} {team team₀ : Team} {row : Option Team}
    (h : Touches settings r tr op id (some team) row) (htold : ∀ e ∈ tr, Tells s₀ e)
    (hrow₀ : s₀.teams.lookup id = some team₀) (hstamp : team₀.stamped = false)
    (hkeeps : Keeps team₀ team) : ∃ team', row = some team' ∧ Keeps team₀ team' := by
  cases h with
  | same => exact ⟨team, rfl, hkeeps⟩
  | join => exact ⟨_, rfl, hkeeps.trans (keeps_add_member team _)⟩
  | @attach body _ team' hop hattaches hupdate =>
    -- the update is by a login that has not created the team but has read it
    have hcreated : ¬ CreatedIn id tr := by
      intro hcreated
      obtain ⟨e, he, hcreated⟩ := hcreated.single
      rw [(htold e he).1 id hcreated] at hrow₀
      cases hrow₀
    have hread : ∀ shown, ReadIn id shown tr → stamped_as_ours (some shown) = false ∧
        ∀ g ∈ team₀.access_group_ids, .str g ∈ shown_groups shown := by
      intro shown hread
      obtain ⟨e, he, hread⟩ := hread.single
      exact (htold e he).2 id shown hread team₀ hrow₀ hstamp
    obtain ⟨hmembers, ⟨items, hitems, hids⟩, hcolumns⟩ := attaches_update hattaches hupdate
    refine ⟨team', rfl, ?_, fun g hg => ?_, ?_⟩
    · rcases hcolumns with hcolumns | ⟨howner | ⟨shown, hshown, hours⟩, -⟩
      · exact hcolumns.trans hkeeps.columns
      · exact absurd howner hcreated
      · rw [(hread shown hshown).1] at hours
        cases hours
    · -- the list that is written holds the list that was read
      rcases hattaches.known with howner | ⟨shown, hshown⟩
      · exact absurd howner hcreated
      · obtain ⟨items', hitems', hshown', -⟩ := hattaches.groups
        rw [hitems] at hitems'
        cases hitems'
        exact (hids g).mpr (hshown' shown hshown g ((hread shown hshown).2 g hg))
    · rw [hmembers]
      exact hkeeps.members

/-- A request of a call leaves the rows safe. -/
theorem safe_after (hs : Safe s₀ s) (htold : ∀ e ∈ tr, Tells s₀ e) {op : Call} {answer : HttpReply}
    (hens : Ensures settings r tr ⟨op, answer⟩) (effective : Bool) :
    Safe s₀ (litellm.after s ⟨op, answer, effective⟩) where
  fresh := fun id team hnone hteam => by
    have htouch := ensures_touches hens effective id (s := s)
    rw [hteam] at htouch
    -- a team that is new since the start is new now, or was before this call
    cases hrow : s.teams.lookup id with
    | none =>
      rw [hrow] at htouch
      cases htouch with
      | create hop hcreates hnew => exact creates_closed hcreates hnew
    | some team' =>
      rw [hrow] at htouch
      have hclosed := hs.fresh id team' hnone hrow
      obtain ⟨team'', heq, hcolumns⟩ := htouch.closed hclosed
      cases heq
      exact ⟨by rw [hcolumns]; exact hclosed.models, by rw [hcolumns]; exact hclosed.object_permission⟩
  foreign := fun id team₀ hrow₀ => by
    obtain ⟨team, hteam, hkeeps⟩ := hs.foreign id team₀ hrow₀
    have htouch := ensures_touches hens effective id (s := s)
    rw [hteam] at htouch
    by_cases hstamp : team₀.stamped = false
    · obtain ⟨team', hteam', hkeeps'⟩ := htouch.foreign htold hrow₀ hstamp (hkeeps hstamp)
      exact ⟨team', hteam', fun _ => hkeeps'⟩
    · obtain ⟨team', hteam'⟩ := htouch.present
      exact ⟨team', hteam', fun h => absurd h hstamp⟩

/-- What attaching by hand does to a row. -/
theorem lookup_attach (e : String × String) (s : Tables) (id : String) :
    (attach e s).teams.lookup id = (s.teams.lookup id).map fun team =>
      if id = e.1 then { team with access_group_ids := team.access_group_ids ++ [e.2] } else team := by
  unfold attach
  split
  · next team hteam =>
    rw [Tables.lookup_set_team]
    split
    · next hid =>
      rw [hid, hteam]
      simp
    · simp
  · next hnone =>
    by_cases hid : id = e.1
    · rw [hid, hnone]
      rfl
    · simp [hid]

theorem attach_keeps {e : String × String} {id : String} {team : Team}
    (h : s.teams.lookup id = some team) :
    ∃ team', (attach e s).teams.lookup id = some team' ∧ Keeps team team' := by
  rw [lookup_attach, h]
  refine ⟨_, rfl, ?_⟩
  split
  · exact ⟨rfl, List.subset_append_left _ _, List.Subset.refl _⟩
  · exact Keeps.refl _

theorem safe_attach (hs : Safe s₀ s) (e : String × String) : Safe s₀ (attach e s) where
  fresh := fun id team hnone hteam => by
    cases hrow : s.teams.lookup id with
    | none =>
      rw [lookup_attach, hrow] at hteam
      cases hteam
    | some team' =>
      obtain ⟨team'', hteam'', hkeeps⟩ := attach_keeps (e := e) hrow
      rw [hteam] at hteam''
      cases hteam''
      exact (hs.fresh id team' hnone hrow).keeps hkeeps
  foreign := fun id team₀ hrow₀ => by
    obtain ⟨team, hteam, hkeeps⟩ := hs.foreign id team₀ hrow₀
    obtain ⟨team', hteam', hkeeps'⟩ := attach_keeps (e := e) hteam
    exact ⟨team', hteam', fun hstamp => (hkeeps hstamp).trans hkeeps'⟩

theorem logins_trusts (s₀ : Tables) : Service.Trusts litellm
    (fun r => (ensure_personal_team settings r.email r.factory r.sso_groups).run) attach
    (Safe s₀) (Ensures settings) (Tells s₀) where
  contract := fun r => along_mono (fun _ _ h => h) (fun _ _ _ => trivial)
    (ensure_personal_team_along r)
  honest := fun _ _ _ _ hs hans => safe_tells hs hans
  keeps := fun _ _ _ _ effective _ hs _ htold hens => safe_after hs htold hens effective
  edits := fun _ e hs => safe_attach hs e

/-- The closed rows of an earlier state are there later, with their columns. -/
def ClosedStay (s s' : Tables) : Prop :=
  ∀ id team, s.teams.lookup id = some team → Closed team →
    ∃ team', s'.teams.lookup id = some team' ∧ team'.columns = team.columns

variable {ok : Service.Clients Call HttpAns Tables Ensure (Except Failure String) →
    Service.Clients Call HttpAns Tables Ensure (Except Failure String) → Prop}
  {c c' : Service.Clients Call HttpAns Tables Ensure (Except Failure String)}

theorem logins_sound (h : Logins settings ok (.start s₀) c) :
    Service.Sound (Safe s₀) (Ensures settings) (Tells s₀) c :=
  (logins_trusts s₀).leads h (Service.sound_start (safe_refl s₀))

theorem logins_closed_stay (h : Logins settings ok (.start s₀) c) (h' : Logins settings ok c c') :
    ClosedStay c.state c'.state := by
  apply (logins_trusts s₀).relates ?_ ?_ ?_ ?_ h' (logins_sound h)
  · exact fun s id team hteam _ => ⟨team, hteam, rfl⟩
  · intro s s' s'' h h' id team hteam hclosed
    obtain ⟨team', hteam', hcolumns⟩ := h id team hteam hclosed
    have hclosed' : Closed team' :=
      ⟨by rw [hcolumns]; exact hclosed.models, by rw [hcolumns]; exact hclosed.object_permission⟩
    obtain ⟨team'', hteam'', hcolumns'⟩ := h' id team' hteam' hclosed'
    exact ⟨team'', hteam'', hcolumns'.trans hcolumns⟩
  · intro s r tr op effective answer _ _ _ hens id team hteam hclosed
    have htouch := ensures_touches hens effective id (s := s)
    rw [hteam] at htouch
    exact htouch.closed hclosed
  · intro s e _ id team hteam _
    obtain ⟨team', hteam', hkeeps⟩ := attach_keeps (e := e) hteam
    exact ⟨team', hteam', hkeeps.columns⟩

/-- A team that the service has created is closed at every moment, and nothing
    of it but its members and its groups ever changes. A team that was there
    before without the stamp keeps everything, and gains only members and
    groups. -/
theorem personal_team_closed (hrun : Logins settings ok (.start s₀) c)
    (hlater : Logins settings ok c c') (id : String) :
    (s₀.teams.lookup id = none → ∀ team, c.state.teams.lookup id = some team →
      Closed team ∧ ∃ team', c'.state.teams.lookup id = some team' ∧ team'.columns = team.columns) ∧
    ∀ team₀, s₀.teams.lookup id = some team₀ → team₀.stamped = false →
      ∃ team, c.state.teams.lookup id = some team ∧ Keeps team₀ team := by
  have hsafe := (logins_sound hrun).state
  refine ⟨fun hnone team hteam => ?_, fun team₀ hrow₀ hstamp => ?_⟩
  · have hclosed := hsafe.fresh id team hnone hteam
    exact ⟨hclosed, logins_closed_stay hrun hlater id team hteam hclosed⟩
  · obtain ⟨team, hteam, hkeeps⟩ := hsafe.foreign id team₀ hrow₀
    exact ⟨team, hteam, hkeeps hstamp⟩

end

/-- A deployment with one default group. -/
def team_settings : LitellmSettings where
  litellm_default_team := "default-team"
  personal_teams_enabled := true
  personal_team_prefix := "personal-"
  default_access_groups := ["base"]
  user_access_groups := []
  sso_access_groups := [("eng", ["engineering"])]
  factory := .obj []
  loads := fun _ => none

/-- A team of somebody else that has the id of a personal team. -/
def team_of_bob : Team where
  columns := fun key => if key = "models" then some (.arr [.str "gpt"]) else none
  access_group_ids := ["old"]
  members := []

/-- The rows before. -/
def team_tables : Tables where
  teams := [("personal-bob", team_of_bob)]
  users := []
  access_groups := [("base", "g-base"), ("engineering", "g-eng")]

/-- All that a call of `ensure_personal_team` sends, with nothing going wrong. -/
def login (i n : Nat) : List (Service.Move Ensure (String × String) Tables.Luck) :=
  List.replicate n (.exchange i .well)

/-- Two logins, one of them with a factory that asks for every model. -/
def team_moves : List (Service.Move Ensure (String × String) Tables.Luck) :=
  [.arrive ⟨"ann", .obj [("user", .obj [("models", .arr [])])], none⟩, .arrive ⟨"bob", .obj [], none⟩]
    ++ login 0 4 ++ login 1 5

theorem personal_team_closed_sample : ∃ c,
    Logins team_settings (fun _ _ => True) (.start team_tables) c ∧
    (∃ team, c.state.teams.lookup "personal-ann" = some team ∧ Closed team) ∧
    ∃ team, c.state.teams.lookup "personal-bob" = some team ∧ Keeps team_of_bob team := by
  have hscript : Option.any (fun c => (c.state.teams.lookup "personal-ann").isSome)
      (Service.script litellm
        (fun r => (ensure_personal_team team_settings r.email r.factory r.sso_groups).run) attach
        Tables.choose (fun _ _ => true) (.start team_tables) team_moves) = true := by decide +kernel
  obtain ⟨c, hrun, hseen⟩ := Service.reached_of_script Tables.choose_admitted
    (fun _ _ _ => (trivial : (fun _ _ => True) _ _)) hscript
  obtain ⟨team, hteam⟩ := Option.isSome_iff_exists.mp hseen
  refine ⟨c, hrun, ⟨team, hteam, ?_⟩, ?_⟩
  · exact ((personal_team_closed hrun .refl "personal-ann").1 (by decide +kernel) team hteam).1
  · exact (personal_team_closed hrun .refl "personal-bob").2 team_of_bob rfl rfl

end AlitellmAuth.Litellm
