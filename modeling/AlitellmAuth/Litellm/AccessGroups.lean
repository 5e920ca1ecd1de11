import AlitellmAuth.Litellm.ClosedTeams

/-! # Attachments under concurrency

    A call of `ensure_personal_team` writes the whole list of a team's access
    groups: those it has read, or none if it has created the team, and those
    its user is entitled to. A group that somebody else attaches between the
    read and the write is removed by the write.

    * `Window`: a call has read or created the team and has not written it yet.
    * `AttachesAlone`: no group is attached within a window, but one that the
      call attaches as well.
    * `attachments_additive`: under that condition no group is ever removed.
    * `attachment_lost`: two logins of one user, and a group is removed.
-/

namespace AlitellmAuth.Litellm

open Interleave

/-- The state of LiteLLM and the logins in progress. -/
abbrev Pool := Service.Clients Call HttpAns Tables Ensure (Except Failure String)

/-- A login in progress. -/
abbrev Login := Service.Client Call HttpAns Ensure (Except Failure String)

/-! ## Windows -/

/-- A login that is going to write the list of a team from what it knows
    already. -/
structure Window (settings : LitellmSettings) (id : String) (cl : Login) : Prop where
  own : id = settings.personal_team_id cl.req.email
  known : CreatedIn id cl.done ∨ ∃ shown, ReadIn id shown cl.done
  first : ∀ e ∈ cl.done, ∀ body, e.1 ≠ .team_update body
  awaiting : cl.prog.awaiting.isSome = true

/-- A step that attaches a group to a team attaches it outside the windows of
    all logins that do not attach it themselves. -/
def AttachesAlone (settings : LitellmSettings) (c c' : Pool) : Prop :=
  ∀ id g, g ∉ c.state.groups id → g ∈ c'.state.groups id →
    ∀ cl ∈ c'.clients, Window settings id cl → g ∈ wanted settings c.state cl.req

/-- Every login in its window knows the groups of its team, or attaches them. -/
def Informed (settings : LitellmSettings) (c : Pool) : Prop :=
  ∀ cl ∈ c.clients, ∀ id, Window settings id cl → ∀ g ∈ c.state.groups id,
    (∃ shown, ReadIn id shown cl.done ∧ .str g ∈ shown_groups shown) ∨
      g ∈ wanted settings c.state cl.req

/-! ## Trust -/

/-- An answer lists the groups there were in the beginning. -/
def ShowsGroups (s₀ : Tables) (e : LEvent) : Prop :=
  ∀ resp, e = ⟨.access_group, .response resp⟩ → resp.is_success = true →
    ∃ rows, resp.json = some (.arr rows) ∧ List.Forall₂ Tables.ShowsGroup rows s₀.access_groups

section
variable {settings : LitellmSettings} {r : Ensure} {tr : LTrace} {s₀ s : Tables}

theorem wanted_eq (h : s.access_groups = s₀.access_groups) (r : Ensure) :
    wanted settings s r = wanted settings s₀ r := by
  unfold wanted Tables.group_id
  rw [h]

/-- A call writes every group it is entitled to. -/
theorem wanted_mem (htold : ∀ e ∈ tr, ShowsGroups s₀ e) {items : List Json}
    (hresolved : ∀ name ∈ access_groups_for_user settings r.email r.sso_groups,
      ResolvedIn name items tr) {g : String} (hg : g ∈ wanted settings s₀ r) : .str g ∈ items := by
  obtain ⟨name, hname, hid⟩ := List.mem_filterMap.mp hg
  obtain ⟨resp, value, hmem, hok, hjson, hfound⟩ := hresolved name hname
  obtain ⟨rows, hrows, hshows⟩ := htold _ hmem resp rfl hok
  rw [hrows] at hjson
  cases hjson
  apply hfound
  rw [find_group_shown hshows, hid]
  rfl

theorem ensure_user_groups (s : Tables) (user_id : String) :
    (s.ensure_user user_id).access_groups = s.access_groups := by
  unfold Tables.ensure_user
  split
  · rfl
  · rfl

/-- No request creates an access group. -/
theorem apply_access_groups (op : Call) (s : Tables) :
    (Tables.apply op s).access_groups = s.access_groups := by
  cases op with
  | team_new body =>
    show (s.write_team _).access_groups = _
    cases s.accepted_team body <;> rfl
  | team_update body =>
    show (s.write_team _).access_groups = _
    cases s.updated_team body <;> rfl
  | member_add team_id user_id budget =>
    show (s.add_member _ _).access_groups = _
    unfold Tables.add_member
    split
    · exact ensure_user_groups _ _
    · rfl
  | user_new body =>
    show (s.write_user _).access_groups = _
    cases s.accepted_user body <;> rfl
  | user_update body =>
    show (s.write_user _).access_groups = _
    cases s.updated_user body <;> rfl
  | team_info | member_update | user_info | user_list | access_group | team_list => rfl
  | key_generate | key_update | key_list | key_info | key_delete | key_block => rfl

theorem attach_access_groups (e : String × String) (s : Tables) :
    (attach e s).access_groups = s.access_groups := by
  unfold attach
  split
  · rfl
  · rfl

theorem groups_trusts (s₀ : Tables) : Service.Trusts litellm
    (fun r => (ensure_personal_team settings r.email r.factory r.sso_groups).run) attach
    (fun s => s.access_groups = s₀.access_groups) (Ensures settings) (ShowsGroups s₀) where
  contract := fun r => along_mono (fun _ _ h => h) (fun _ _ _ => trivial)
    (ensure_personal_team_along r)
  honest := by
    intro s op effective answer hs hans resp heq hok
    cases heq
    obtain ⟨rows, hrows, hshows⟩ := hans hok
    exact ⟨rows, hrows, hs ▸ hshows⟩
  keeps := by
    intro s r tr op effective answer hs _ _ _
    unfold Service.after
    split
    · exact (apply_access_groups op s).trans hs
    · exact hs
  edits := fun s e hs => (attach_access_groups e s).trans hs

/-! ## One step -/

theorem mem_groups {id g : String} :
    g ∈ s.groups id ↔ ∃ team, s.teams.lookup id = some team ∧ g ∈ team.access_group_ids := by
  unfold Tables.groups
  cases s.teams.lookup id with
  | none => simp
  | some team => simp

variable {c c' : Pool}

/-- A login that is informed writes no group away. -/
theorem exchange_additive (hinformed : Informed settings c) (hs : c.state.access_groups = s₀.access_groups)
    {cl : Login} (hcl : cl ∈ c.clients) (hcall : cl.prog.awaiting.isSome = true)
    (htold : ∀ e ∈ cl.done, ShowsGroups s₀ e) {op : Call} {answer : HttpReply}
    (hens : Ensures settings cl.req cl.done ⟨op, answer⟩) (effective : Bool) {id g : String}
    (hg : g ∈ c.state.groups id) :
    g ∈ (litellm.after c.state ⟨op, answer, effective⟩).groups id := by
  obtain ⟨team, hteam, hmem⟩ := mem_groups.mp hg
  have htouch := ensures_touches hens effective id (s := c.state)
  rw [hteam] at htouch
  rw [mem_groups]
  generalize (litellm.after c.state ⟨op, answer, effective⟩).teams.lookup id = row at htouch
  cases htouch with
  | same => exact ⟨team, rfl, hmem⟩
  | join => exact ⟨_, rfl, by rw [add_member_groups]; exact hmem⟩
  | @attach body _ team' hop hattaches hupdate =>
    obtain ⟨-, ⟨items, hitems, hids⟩, -⟩ := attaches_update hattaches hupdate
    obtain ⟨items', hitems', hshown, hresolved⟩ := hattaches.groups
    rw [hitems] at hitems'
    cases hitems'
    -- the login writes its own team
    subst hop
    have hown : id = settings.personal_team_id cl.req.email :=
      Option.some.inj (hattaches.team_id.symm.trans (Attaches.team_id hens))
    have hwindow : Window settings id cl := ⟨hown, hattaches.known, hattaches.first, hcall⟩
    refine ⟨team', rfl, (hids g).mpr ?_⟩
    rcases hinformed cl hcl id hwindow g hg with ⟨shown, hread, hg'⟩ | hwanted
    · exact hshown shown hread g hg'
    · rw [wanted_eq hs] at hwanted
      exact wanted_mem htold hresolved hwanted

/-- A login that has just read or created its team is informed. -/
theorem informed_now {l : Login} {op : Call} {answer : HttpReply} {effective : Bool} {id g : String}
    (hans : litellm.answers s op effective answer) (hbefore : ¬ CreatedIn id l.done)
    (hunread : ∀ shown, ¬ ReadIn id shown l.done)
    (hknown : CreatedIn id (⟨op, answer⟩ :: l.done) ∨ ∃ shown, ReadIn id shown (⟨op, answer⟩ :: l.done))
    (hg : g ∈ s.groups id) :
    ∃ shown, ReadIn id shown (⟨op, answer⟩ :: l.done) ∧ .str g ∈ shown_groups shown := by
  rcases hknown with ⟨body, resp, hmem, hid, hstatus⟩ | ⟨shown, hread⟩
  · rcases List.mem_cons.mp hmem with heq | hmem
    · -- a team that was not there has no groups
      cases heq
      obtain ⟨row, hrow⟩ := Option.isSome_iff_exists.mp (hans.1 hstatus).2
      obtain ⟨hid', hnone, -⟩ := Tables.accepted_team_some hrow
      rw [Option.some.inj (hid'.symm.trans hid)] at hnone
      obtain ⟨team, hteam, -⟩ := mem_groups.mp hg
      rw [hnone] at hteam
      cases hteam
    · exact absurd ⟨body, resp, hmem, hid, hstatus⟩ hbefore
  · refine ⟨shown, hread, ?_⟩
    obtain ⟨resp, value, hmem, hok, hjson, hinfo⟩ := hread
    rcases List.mem_cons.mp hmem with heq | hmem
    · cases heq
      obtain ⟨value', shown', team, hjson', hinfo', hteam, hshows⟩ := hans hok
      rw [hjson] at hjson'
      cases hjson'
      rw [hinfo] at hinfo'
      cases hinfo'
      obtain ⟨team', hteam', hmem⟩ := mem_groups.mp hg
      rw [hteam] at hteam'
      cases hteam'
      exact shown_group hshows hmem
    · exact absurd ⟨resp, value, hmem, hok, hjson, hinfo⟩ (hunread shown)

/-- Where a login in its window stands before a step: it was in its window
    then, or it has not known the team. -/
theorem window_before {l : Login} {op : Call} {answer : HttpReply} {id : String}
    {k : HttpReply → Prog Call HttpAns (Except Failure String)}
    (h : Window settings id ⟨l.req, ⟨op, answer⟩ :: l.done, k answer⟩)
    (hcall : l.prog.awaiting.isSome = true) :
    Window settings id l ∨ ¬ CreatedIn id l.done ∧ ∀ shown, ¬ ReadIn id shown l.done := by
  by_cases hknown : CreatedIn id l.done ∨ ∃ shown, ReadIn id shown l.done
  · exact .inl ⟨h.own, hknown, fun e he => h.first e (List.mem_cons_of_mem _ he), hcall⟩
  · exact .inr ⟨fun h => hknown (.inl h), fun shown h => hknown (.inr ⟨shown, h⟩)⟩

variable {program : Ensure → Prog Call HttpAns (Except Failure String)}

/-- Whoever was informed, or is in a window only now, is informed about the
    groups there were before the step. -/
theorem informed_old (hinformed : Informed settings c)
    (hstep : Service.Step litellm program attach c c') {cl : Login} (hcl : cl ∈ c'.clients)
    {id g : String} (hwindow : Window settings id cl) (hg : g ∈ c.state.groups id) :
    (∃ shown, ReadIn id shown cl.done ∧ .str g ∈ shown_groups shown) ∨
      g ∈ wanted settings c.state cl.req := by
  cases hstep with
  | arrive r =>
    rcases List.mem_append.mp hcl with hcl | hcl
    · exact hinformed cl hcl id hwindow g hg
    · obtain rfl := List.mem_singleton.mp hcl
      rcases hwindow.known with ⟨_, _, hmem, -⟩ | ⟨_, _, _, hmem, -⟩
      · cases hmem
      · cases hmem
  | crash i => exact hinformed cl (List.mem_of_mem_eraseIdx hcl) id hwindow g hg
  | edit e => exact hinformed cl hcl id hwindow g hg
  | @exchange i r tr op k answer effective hi hans =>
    rcases Service.mem_set_cases hcl with rfl | hcl
    · have hmem := List.mem_of_getElem? hi
      rcases window_before (l := ⟨r, tr, .call op k⟩) hwindow rfl with hbefore | ⟨hnew, hunread⟩
      · rcases hinformed _ hmem id hbefore g hg with ⟨shown, hread, hg⟩ | hwanted
        · exact .inl ⟨shown, hread.mono (List.subset_cons_self _ _), hg⟩
        · exact .inr hwanted
      · exact .inl (informed_now (l := ⟨r, tr, .call op k⟩) hans hnew hunread hwindow.known hg)
    · exact hinformed cl hcl id hwindow g hg

/-- No step removes a group while everybody is informed. -/
theorem step_additive (hsound : Service.Sound (fun s => s.access_groups = s₀.access_groups)
      (Ensures settings) (ShowsGroups s₀) c) (hinformed : Informed settings c)
    (hstep : Service.Step litellm program attach c c') {id g : String}
    (hg : g ∈ c.state.groups id) : g ∈ c'.state.groups id := by
  cases hstep with
  | arrive r => exact hg
  | crash i => exact hg
  | edit e =>
    obtain ⟨team, hteam, hmem⟩ := mem_groups.mp hg
    obtain ⟨team', hteam', hkeeps⟩ := attach_keeps (e := e) hteam
    exact mem_groups.mpr ⟨team', hteam', hkeeps.groups hmem⟩
  | @exchange i r tr op k answer effective hi hans =>
    have hmem := List.mem_of_getElem? hi
    exact exchange_additive hinformed hsound.state hmem rfl (hsound.trusted _ hmem)
      (Service.contracted_next hsound.contracted hi answer) effective hg

/-- Everybody stays informed if groups are attached outside the windows. -/
theorem informed_step (hinformed : Informed settings c)
    (hgroups : c'.state.access_groups = c.state.access_groups)
    (hstep : Service.Step litellm program attach c c') (halone : AttachesAlone settings c c') :
    Informed settings c' := by
  intro cl hcl id hwindow g hg
  rw [wanted_eq hgroups]
  by_cases hold : g ∈ c.state.groups id
  · exact informed_old hinformed hstep hcl hwindow hold
  · exact .inr (halone id g hold hg cl hcl hwindow)

/-! ## Whole runs -/

/-- What holds of every pool that is reached under the condition. -/
structure Orderly (settings : LitellmSettings) (s₀ : Tables) (c : Pool) : Prop where
  sound : Service.Sound (fun s => s.access_groups = s₀.access_groups) (Ensures settings)
    (ShowsGroups s₀) c
  informed : Informed settings c

theorem orderly_leads (h : Logins settings (AttachesAlone settings) c c')
    (hc : Orderly settings s₀ c) : Orderly settings s₀ c' := by
  apply Service.leads_preserves _ h hc
  intro c c' hc hstep halone
  have hsound := (groups_trusts s₀).step hc.sound hstep
  have hgroups : c'.state.access_groups = c.state.access_groups :=
    hsound.state.trans hc.sound.state.symm
  exact ⟨hsound, informed_step hc.informed hgroups hstep halone⟩

theorem orderly_start (s₀ : Tables) : Orderly settings s₀ (.start s₀) where
  sound := Service.sound_start rfl
  informed := fun cl hcl => by cases hcl

/-- While no group is attached within the window of a login that does not
    attach it itself, a group that is on a team stays there. -/
theorem attachments_additive (hrun : Logins settings (AttachesAlone settings) (.start s₀) c)
    (hlater : Logins settings (AttachesAlone settings) c c') (id g : String)
    (hg : g ∈ c.state.groups id) : g ∈ c'.state.groups id := by
  have horderly := orderly_leads hrun (orderly_start s₀)
  clear hrun
  induction hlater with
  | refl => exact hg
  | tail hsteps hstep ih =>
    have hd := orderly_leads hsteps horderly
    exact step_additive hd.sound hd.informed hstep.1 ih

end

/-! ## Two logins of one user -/

/-- A test for `AttachesAlone`. -/
def alone (settings : LitellmSettings) (c c' : Pool) : Bool :=
  c'.clients.all fun cl =>
    let id := settings.personal_team_id cl.req.email
    !cl.prog.awaiting.isSome || (c'.state.groups id).all fun g =>
      (c.state.groups id).contains g || (wanted settings c.state cl.req).contains g

theorem alone_sound {settings : LitellmSettings} {c c' : Pool} (h : alone settings c c' = true) :
    AttachesAlone settings c c' := by
  intro id g hold hnew cl hcl hwindow
  have hcl := List.all_eq_true.mp h cl hcl
  rw [← hwindow.own, hwindow.awaiting] at hcl
  have hg := List.all_eq_true.mp hcl g hnew
  simpa [hold] using hg

/-- The program of a login. -/
def team_program (r : Ensure) : Prog Call HttpAns (Except Failure String) :=
  (ensure_personal_team team_settings r.email r.factory r.sso_groups).run

/-- A login creates the team, and a second one attaches its groups before the
    first one does. -/
def overtaken (sso_groups : Option (List String)) :
    List (Service.Move Ensure (String × String) Tables.Luck) :=
  [.arrive ⟨"ann", .obj [], none⟩, .arrive ⟨"ann", .obj [], sso_groups⟩] ++ login 0 3 ++ login 1 5

/-- Run the two logins, and then the last request of the first one. -/
def overtake (sso_groups : Option (List String)) (test : Pool → Pool → Bool)
    (seen : Pool → Pool → Bool) : Bool :=
  (Service.script litellm team_program attach Tables.choose test (.start team_tables)
    (overtaken sso_groups)).any fun c =>
      (Service.script litellm team_program attach Tables.choose test c (login 0 1)).any (seen c)

theorem overtake_leads {sso_groups : Option (List String)} {test : Pool → Pool → Bool}
    {ok : Pool → Pool → Prop} (htest : ∀ c c', test c c' = true → ok c c') {seen : Pool → Pool → Bool}
    (h : overtake sso_groups test seen = true) :
    ∃ c c', Logins team_settings ok (.start team_tables) c ∧ Logins team_settings ok c c' ∧
      seen c c' = true := by
  obtain ⟨c, hrun, h⟩ := Service.reached_of_script Tables.choose_admitted htest h
  obtain ⟨c', hlater, hseen⟩ := Service.reached_of_script Tables.choose_admitted htest h
  exact ⟨c, c', hrun, hlater, hseen⟩

/-- Both attach the same group, and it stays. -/
theorem attachments_additive_sample : ∃ c c',
    Logins team_settings (AttachesAlone team_settings) (.start team_tables) c ∧
    Logins team_settings (AttachesAlone team_settings) c c' ∧
    "g-base" ∈ c.state.groups "personal-ann" ∧ "g-base" ∈ c'.state.groups "personal-ann" := by
  have hseen : overtake none (alone team_settings)
      (fun c _ => (c.state.groups "personal-ann").contains "g-base") = true := by decide +kernel
  obtain ⟨c, c', hrun, hlater, hseen⟩ := overtake_leads (fun _ _ => alone_sound) hseen
  have hg : "g-base" ∈ c.state.groups "personal-ann" := by simpa using hseen
  exact ⟨c, c', hrun, hlater, hg, attachments_additive hrun hlater _ _ hg⟩

/-- The second login has one group more, and the first one removes it. -/
theorem attachment_lost : ∃ c c',
    Logins team_settings (fun _ _ => True) (.start team_tables) c ∧
    Logins team_settings (fun _ _ => True) c c' ∧ (∀ cl ∈ c'.clients, cl.req.email = "ann") ∧
    "g-eng" ∈ c.state.groups "personal-ann" ∧ "g-eng" ∉ c'.state.groups "personal-ann" := by
  have hseen : overtake (some ["eng"]) (fun _ _ => true) (fun c c' =>
      c'.clients.all (fun cl => cl.req.email == "ann") &&
      (c.state.groups "personal-ann").contains "g-eng" &&
      !(c'.state.groups "personal-ann").contains "g-eng") = true := by decide +kernel
  obtain ⟨c, c', hrun, hlater, hseen⟩ := overtake_leads (fun _ _ _ => trivial) hseen
  refine ⟨c, c', hrun, hlater, ?_⟩
  simpa [and_assoc] using hseen

end AlitellmAuth.Litellm
