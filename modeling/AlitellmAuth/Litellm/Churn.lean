import AlitellmAuth.Litellm.Entitlement
import AlitellmAuth.Framework.Firsts

/-! # Logins that change nothing

    The maps of access groups are folded at boot and again at every lookup, the
    names are deduplicated, mapped to ids and merged with the groups a team has.

    * `fold_user_access_group_keys`: the boot; `boot_rejected_iff`, when it fails.
    * `access_groups_firsts`: the names, each once and in the configured order.
    * `Alike`: spellings that fold to one text.
    * `ensure_personal_team_asks`: what a call writes to a team that is there.
    * `no_churn`: all of it, and that the next call writes the same list.
-/

namespace AlitellmAuth.Litellm

open Interleave Text

/-! ## The maps at boot -/

/-- `_fold_user_access_group_keys`: both maps, or the boot fails. -/
def fold_user_access_group_keys (user_access_groups sso_access_groups : List (String × List String)) :
    Option (List (String × List String) × List (String × List String)) := do
  let folded ← fold_keys user_access_groups
  let sso ← fold_keys sso_access_groups
  return (folded, sso)

/-- What a key folds to. -/
def fold_key (row : String × List String) : String := lower (strip row.1)

/-- Two keys of a map are equal after trimming and lowercasing. -/
def KeysClash (raw : List (String × List String)) : Prop :=
  ∃ row row', [row, row'].Sublist raw ∧ fold_key row = fold_key row'

/-- One round of the loop. -/
theorem fold_keys_cons (row : String × List String) (rest acc : List (String × List String)) :
    (row :: rest).foldlM (fun folded row =>
      if (folded.lookup (lower (strip row.1))).isSome then none
      else some (folded ++ [(lower (strip row.1), row.2)])) acc =
    if fold_key row ∈ acc.map (·.1) then none
    else rest.foldlM (fun folded row =>
      if (folded.lookup (lower (strip row.1))).isSome then none
      else some (folded ++ [(lower (strip row.1), row.2)])) (acc ++ [(fold_key row, row.2)]) := by
  have hiff : (acc.lookup (fold_key row)).isSome = true ↔ fold_key row ∈ acc.map (·.1) := by
    rw [List.lookup_isSome_iff, List.mem_map]
    constructor
    · rintro ⟨row', hmem, hkey⟩
      exact ⟨row', hmem, (eq_of_beq hkey).symm⟩
    · rintro ⟨row', hmem, hkey⟩
      exact ⟨row', hmem, beq_iff_eq.mpr hkey.symm⟩
  rw [List.foldlM_cons]
  by_cases h : fold_key row ∈ acc.map (·.1)
  · rw [if_pos h]
    show ((if (acc.lookup (fold_key row)).isSome then none else some _) >>= _) = _
    rw [if_pos (hiff.mpr h)]
    rfl
  · rw [if_neg h]
    show ((if (acc.lookup (fold_key row)).isSome then none else some _) >>= _) = _
    rw [if_neg (fun hsome => h (hiff.mp hsome))]
    rfl

/-- The loop fails exactly at a key that has come before. -/
theorem fold_keys_eq (raw : List (String × List String)) :
    fold_keys raw = if (raw.map fold_key).Nodup then some (raw.map fun row => (fold_key row, row.2))
      else none := by
  -- for every accumulator: its keys and the folded ones must not meet
  have hfrom : ∀ acc : List (String × List String), (acc.map (·.1)).Nodup →
      raw.foldlM (fun folded row =>
        if (folded.lookup (lower (strip row.1))).isSome then none
        else some (folded ++ [(lower (strip row.1), row.2)])) acc =
      if (acc.map (·.1) ++ raw.map fold_key).Nodup then
        some (acc ++ raw.map fun row => (fold_key row, row.2)) else none := by
    induction raw with
    | nil =>
      intro acc hacc
      rw [List.foldlM_nil, List.map_nil, List.append_nil, if_pos hacc, List.map_nil, List.append_nil]
      rfl
    | cons row rest ih =>
      intro acc hacc
      rw [fold_keys_cons]
      by_cases h : fold_key row ∈ acc.map (·.1)
      · rw [if_pos h, if_neg]
        intro hnodup
        exact (List.nodup_append.mp hnodup).2.2 _ h _ List.mem_cons_self rfl
      · have hkeys : (acc ++ [(fold_key row, row.2)]).map (·.1) = acc.map (·.1) ++ [fold_key row] := by
          rw [List.map_append]
          rfl
        have hnext : ((acc ++ [(fold_key row, row.2)]).map (·.1)).Nodup := by
          rw [hkeys, List.nodup_append]
          refine ⟨hacc, by simp, fun a ha b hb heq => h ?_⟩
          rw [← List.mem_singleton.mp hb, ← heq]
          exact ha
        rw [if_neg h, ih _ hnext, hkeys]
        simp only [List.append_assoc, List.map_cons, List.cons_append, List.nil_append]
  exact hfrom [] List.nodup_nil

theorem keysClash_iff (raw : List (String × List String)) :
    KeysClash raw ↔ ¬ (raw.map fold_key).Nodup := by
  unfold KeysClash List.Nodup
  rw [List.pairwise_map, List.pairwise_iff_forall_sublist]
  constructor
  · rintro ⟨row, row', hsub, heq⟩ hall
    exact hall hsub heq
  · intro hnot
    by_contra hnone
    exact hnot fun {row row'} hsub heq => hnone ⟨row, row', hsub, heq⟩

/-- The boot fails exactly when two keys of one map are equal. -/
theorem boot_rejected_iff (user sso : List (String × List String)) :
    fold_user_access_group_keys user sso = none ↔ KeysClash user ∨ KeysClash sso := by
  unfold fold_user_access_group_keys
  rw [keysClash_iff, keysClash_iff, fold_keys_eq, fold_keys_eq]
  by_cases huser : (user.map fold_key).Nodup
  · by_cases hsso : (sso.map fold_key).Nodup
    · simp [huser, hsso]
    · simp [huser, hsso]
  · simp [huser]

/-! ## The names -/

/-- The names that a map as it is written gives to a text. -/
def names_under (raw : List (String × List String)) (text : String) : List String :=
  (raw.filter fun row => fold_key row == lower (strip text)).flatMap (·.2)

/-- Everything that is configured for a user: the defaults, what their address
    stands for, what each of their groups stands for. -/
def configured (cfg : GroupConfig) (email : String) (groups : List String) : List String :=
  cfg.settings.default_access_groups ++ (names_under cfg.USER_ACCESS_GROUPS email ++
    groups.flatMap (names_under cfg.SSO_ACCESS_GROUPS))

/-- A folded map is read as the map that is written. -/
theorem lookup_folded {raw folded : List (String × List String)} (h : fold_keys raw = some folded)
    (text : String) : (folded.lookup (lower (strip text))).getD [] = names_under raw text := by
  rw [fold_keys_eq] at h
  split at h
  · next hnodup =>
    cases h
    unfold names_under
    induction raw with
    | nil => rfl
    | cons row rest ih =>
      obtain ⟨hnew, hrest⟩ := List.nodup_cons.mp hnodup
      rw [List.map_cons, List.filter_cons]
      by_cases hkey : fold_key row = lower (strip text)
      · -- no later row has the key
        have hnone : (rest.filter fun row => fold_key row == lower (strip text)) = [] := by
          rw [List.filter_eq_nil_iff]
          intro row' hmem heq
          exact hnew (List.mem_map.mpr ⟨row', hmem, by rw [hkey]; exact eq_of_beq heq⟩)
        rw [hkey, List.lookup_cons_self, if_pos (beq_self_eq_true _), hnone]
        simp
      · rw [Table.lookup_cons_ne _ _ (Ne.symm hkey), if_neg (by simpa using hkey), ih hrest]
  · cases h

/-- The names, each once, in the order in which they are configured. -/
theorem access_groups_firsts (cfg : GroupConfig) (email : String) (groups : Option (List String)) :
    Firsts.IsFirsts (access_groups_for_user cfg.settings email groups)
      (((configured cfg email (groups.getD [])).map strip).filter (· != "")) := by
  unfold access_groups_for_user configured
  rw [lookup_folded cfg.user_folded]
  have hsso : (fun group => (cfg.settings.sso_access_groups.lookup (lower (strip group))).getD []) =
      names_under cfg.SSO_ACCESS_GROUPS := funext fun group => lookup_folded cfg.sso_folded group
  rw [hsso]
  exact Firsts.isFirsts_eraseDups _

/-- Two spellings that fold to one text. -/
def Alike (text text' : String) : Prop := lower (strip text) = lower (strip text')

/-- Whitespace around a text, and capital ASCII letters for small ones. -/
theorem alike_respelled {before after : List Char} {text text' : String}
    (hbefore : ∀ c ∈ before, isSpace c = true) (hafter : ∀ c ∈ after, isSpace c = true)
    (h : text.toList.map Char.toLower = text'.toList.map Char.toLower) :
    Alike text (String.ofList (before ++ text'.toList ++ after)) := by
  unfold Alike
  rw [strip_padded _ hbefore hafter]
  exact lower_strip_toLower h

theorem access_groups_alike (settings : LitellmSettings) {email email' : String}
    {groups groups' : Option (List String)} (hemail : Alike email email')
    (hgroups : List.Forall₂ Alike (groups.getD []) (groups'.getD [])) :
    access_groups_for_user settings email' groups' = access_groups_for_user settings email groups := by
  have hsso : ((groups'.getD []).flatMap fun group =>
      (settings.sso_access_groups.lookup (lower (strip group))).getD []) =
      (groups.getD []).flatMap fun group =>
      (settings.sso_access_groups.lookup (lower (strip group))).getD [] := by
    generalize groups.getD [] = own at hgroups
    generalize groups'.getD [] = own' at hgroups
    induction hgroups with
    | nil => rfl
    | cons h _ ih =>
      rw [List.flatMap_cons, List.flatMap_cons, ih]
      unfold Alike at h
      rw [h]
  unfold access_groups_for_user
  unfold Alike at hemail
  rw [hsso, hemail]


/-! ## What a call writes -/

section
variable {settings : LitellmSettings} {p : Person} {s s₀ : Tables}

/-- A request that updates a team gives it these groups. -/
def WritesGroups (ids : List String) (op : Call) : Prop :=
  ∀ body, op = .team_update body → body.lookup "access_group_ids" = some (.arr (ids.map .str))

/-- A request that updates no team. -/
def LeavesTeams (op : Call) : Prop := ∀ body, op ≠ .team_update body

theorem LeavesTeams.writesGroups {ids : List String} {op : Call} (h : LeavesTeams op) :
    WritesGroups ids op := fun body heq => absurd heq (h body)

/-- Whatever comes of a call, the catalogue stays as it is, and the team has the
    groups it had or those that the call has written. -/
structure Synced (settings : LitellmSettings) (p : Person) (s₀ s : Tables) : Prop where
  catalogue : s.access_groups = s₀.access_groups
  row : ∃ team, s.teams.lookup (p.team_id settings) = some team ∧
    (team.access_group_ids = s₀.groups (p.team_id settings) ∨
      team.access_group_ids = with_groups (s₀.groups (p.team_id settings)) (wanted settings s₀ p.ensure))

theorem Known.synced (h : Known settings p s₀ false s) : Synced settings p s₀ s := by
  obtain ⟨team, hrow, hgroups⟩ := h.row
  exact ⟨h.catalogue, team, hrow, .inl (hgroups rfl)⟩

/-- The update is effective or not. -/
theorem update_synced {team : Team} {owned : Bool} {answer : HttpReply} {effective : Bool}
    (h : Known settings p s₀ false s) (hrow : s.teams.lookup (p.team_id settings) = some team) :
    Synced settings p s₀ ((litellm_when False).after s ⟨.team_update (attach_body (p.team_id settings)
      ((with_groups (s₀.groups (p.team_id settings)) (wanted settings s₀ p.ensure)).map .str) owned),
      answer, effective⟩) := by
  cases effective with
  | false => exact h.synced
  | true =>
    obtain ⟨team', hupdate, hgroups⟩ := update_groups team
      (attach_body_groups (p.team_id settings) (with_groups (s₀.groups (p.team_id settings))
        (wanted settings s₀ p.ensure) |>.map .str) owned)
    have hcatalogue := (apply_access_groups (.team_update (attach_body (p.team_id settings)
      ((with_groups (s₀.groups (p.team_id settings)) (wanted settings s₀ p.ensure)).map .str) owned))
      s).trans h.catalogue
    refine ⟨hcatalogue, team', ?_, .inr hgroups⟩
    show (s.write_team (s.updated_team _)).teams.lookup _ = _
    rw [Tables.updated_team, attach_body_team_id]
    dsimp only
    rw [hrow, Option.bind_some, hupdate]
    show (s.set_team (p.team_id settings) team').teams.lookup _ = _
    rw [Tables.lookup_set_team, if_pos rfl]

/-- A request that updates no team, and what follows it. -/
theorem asks_request {α : Type} {ids : List String} {R : Tables → Except Failure α → Prop} {o : Call}
    {k : HttpReply → Prog Call HttpAns (Except Failure α)} (ho : LeavesTeams o)
    (hrest : ∀ effective answer, (litellm_when False).answers s o effective answer →
      (litellm_when False).Asks (fun _ op => WritesGroups ids op) R
        ((litellm_when False).after s ⟨o, answer, effective⟩) (k answer)) :
    (litellm_when False).Asks (fun _ op => WritesGroups ids op) R s (.call o k) :=
  fun effective answer hans => ⟨ho.writesGroups, hrest effective answer hans⟩

/-- A request to create a team that is there changes nothing, and says so. -/
theorem asks_team_new {α : Type} {ids : List String} {R : Tables → Except Failure α → Prop}
    {body : Dict} {k : HttpReply → Prog Call HttpAns (Except Failure α)} {id : String} {team : Team}
    (hid : text_field body "team_id" = some id) (hteam : s.teams.lookup id = some team)
    (hrest : ∀ answer, (∀ resp, answer = .response resp → resp.status_code ≠ 200) →
      (litellm_when False).Asks (fun _ op => WritesGroups ids op) R s (k answer)) :
    (litellm_when False).Asks (fun _ op => WritesGroups ids op) R s (.call (.team_new body) k) := by
  have hnone : s.accepted_team body = none := by
    rw [Tables.accepted_team, hid]
    exact if_pos (Option.isSome_iff_exists.mpr ⟨team, hteam⟩)
  refine asks_request (fun body heq => by cases heq) fun effective answer hans => ?_
  have hsame : (litellm_when False).after s ⟨.team_new body, answer, effective⟩ = s := by
    apply after_read
    show s.write_team (s.accepted_team body) = s
    rw [hnone]
    rfl
  rw [hsame]
  refine hrest answer fun resp hresp hcreated => ?_
  subst hresp
  have haccepted := (hans.1.1 hcreated).2
  rw [hnone] at haccepted
  cases haccepted

/-- Attaching sends one update. -/
theorem attach_asks (h : Known settings p s₀ false s) :
    (litellm_when False).Asks (fun _ op => WritesGroups (with_groups (s₀.groups (p.team_id settings))
      (wanted settings s₀ p.ensure)) op) (fun s' _ => Synced settings p s₀ s') s
      (attach_groups (p.team_id settings) false ((wanted settings s₀ p.ensure).map .str)).run := by
  obtain ⟨team, hrow, hgroups⟩ := h.row
  have hread : (litellm_when False).Meets (fun _ => True) _ s
      (attached_groups (p.team_id settings) false).run := read_groups_meets trivial hrow
  have hsends : Sends LeavesTeams (attached_groups (p.team_id settings) false) :=
    sends_attached_groups (fun id body heq => by cases heq) _ _
  refine Service.asks_run_bind (Service.asks_of_along (hsends []) (fun s op hop => hop.writesGroups)
    hread) ?_ (fun s' e hres => by rw [hres.1]; exact h.synced)
  rintro s' found ⟨rfl, hfound⟩
  obtain ⟨-, hshown⟩ := hfound found rfl
  cases found with
  | none => exact h.synced
  | some found =>
    obtain ⟨shown, current⟩ := found
    obtain ⟨-, rfl⟩ := hshown shown current rfl
    -- the list that is written is what was read and what is wanted
    refine Service.asks_still_bind (still_from_keys _) (fun ids hids => ?_) (fun _ => h.synced)
    obtain rfl : ids = (with_groups (s₀.groups (p.team_id settings))
        (wanted settings s₀ p.ensure)).map .str := by
      rw [from_keys_ok hids, ← List.map_append, hgroups rfl]
      exact foldl_add_key_texts _ []
    intro effective answer hans
    constructor
    · intro body heq
      cases heq
      exact attach_body_groups _ _ _
    · have hsynced := @update_synced settings p s' s₀ team (false || stamped_as_ours shown) answer
        effective h hrow
      cases answer with
      | transport_error => exact hsynced
      | response resp =>
        exact Service.asks_still_bind (still_expect _ _ _) (fun _ _ => hsynced) (fun _ => hsynced)

/-- Resolving the names sends none. -/
theorem resolve_asks (ids : List String) (s : Tables) :
    (litellm_when False).Asks (fun _ op => WritesGroups ids op) (fun s' res => s' = s ∧
      ∀ found, res = .ok found → found = (wanted settings s p.ensure).map .str) s
      (resolve_access_group_ids (access_groups_for_user settings p.email p.sso_groups)).run := by
  have hsends : Sends LeavesTeams (resolve_access_group_ids
      (access_groups_for_user settings p.email p.sso_groups)) :=
    sends_resolve_access_group_ids (fun body heq => by cases heq) _
  exact Service.asks_of_along (hsends []) (fun s op hop => hop.writesGroups)
    (@resolve_meets settings p s False (fun _ => True) trivial)

/-- A call for a team that is there sends no other update. -/
theorem ensure_personal_team_asks {team : Team} (hteam : s.teams.lookup (p.team_id settings) = some team) :
    (litellm_when False).Asks (fun _ op => WritesGroups (with_groups team.access_group_ids
      (wanted settings s p.ensure)) op) (fun s' _ => Synced settings p s s') s
      (ensure_personal_team settings p.email p.factory p.sso_groups).run := by
  have hgroups : s.groups (p.team_id settings) = team.access_group_ids := groups_of_row hteam
  have hknown : Known settings p s false s := by
    refine ⟨⟨team, hteam, fun _ => hgroups.symm⟩, fun hcreated => ?_, rfl⟩
    cases hcreated
  rw [ensure_personal_team_eq, ← hgroups]
  refine Service.asks_still_bind (still_dict_get _ _ _) (fun user _ => ?_) (fun _ => hknown.synced)
  refine Service.asks_still_bind (still_ite (still_dict_items _) (still_pure _)) (fun items _ => ?_)
    (fun _ => hknown.synced)
  -- the team is there already, so nothing is created
  refine asks_team_new (creates_body (p.team_id settings) _).team_id hteam fun answer hthere => ?_
  cases answer with
  | transport_error => exact hknown.synced
  | response resp =>
    have hthere : (resp.status_code == 200) = false := by simpa using hthere resp rfl
    refine Service.asks_still_bind (still_expect _ _ _) (fun _ _ => ?_) (fun _ => hknown.synced)
    rw [hthere]
    refine asks_request ?_ fun effective answer _ => ?_
    · intro body heq
      cases heq
    -- one more member, which is no group
    have hadded : Known settings p s false ((litellm_when False).after s
        ⟨.member_add (p.team_id settings) p.email none, answer, effective⟩) :=
      member_add_known hknown answer effective
    cases answer with
    | transport_error => exact hadded.synced
    | response mem =>
      refine Service.asks_still_bind (still_expect _ _ _) (fun _ _ => ?_) (fun _ => hadded.synced)
      refine Service.asks_run_bind (resolve_asks _ _) ?_ ?_
      · rintro s' ids ⟨rfl, hids⟩
        have hwanted : ids = (wanted settings s p.ensure).map .str :=
          (hids ids rfl).trans (congrArg (List.map Json.str) (wanted_eq hadded.catalogue _))
        rw [hwanted]
        exact attach_asks hadded
      · rintro s' e ⟨rfl, -⟩
        exact hadded.synced

end

/-- A call of `ensure_personal_team` that sends this body to `/team/update`, and
    what it leaves behind. -/
def Writes (settings : LitellmSettings) (email : String) (factory : Json)
    (groups : Option (List String)) (s s' : Tables) (body : Dict) : Prop :=
  ∃ xs r, litellm.Runs s [] (ensure_personal_team settings email factory groups).run s' xs r ∧
    ∃ x ∈ xs, x.op = .team_update body

/-- What a call writes to a team that is there, and what it leaves behind. -/
theorem writes_spec {settings : LitellmSettings} {email : String} {factory : Json}
    {groups : Option (List String)} {s s' : Tables} {team : Team} {body : Dict}
    (hteam : s.teams.lookup (settings.personal_team_id email) = some team)
    (h : Writes settings email factory groups s s' body) :
    body.lookup "access_group_ids" = some (.arr ((with_groups team.access_group_ids
      (wanted settings s ⟨email, factory, groups⟩)).map .str)) ∧
    Synced settings ⟨email, none, factory, groups⟩ s s' := by
  obtain ⟨xs, r, hrun, x, hx, hop⟩ := h
  have hanswers : ∀ s op effective answer, litellm.answers s op effective answer →
      (litellm_when False).answers s op effective answer := fun _ _ _ _ hans => ⟨hans, False.elim⟩
  have heffect : (litellm_when False).effect = litellm.effect := rfl
  obtain ⟨hsynced, hasked⟩ := (hrun.weaken heffect hanswers).asks
    (@ensure_personal_team_asks settings ⟨email, none, factory, groups⟩ s team hteam)
  refine ⟨?_, hsynced⟩
  rcases hasked x hx with hnil | ⟨s₁, hwrites⟩
  · cases hnil
  · exact hwrites body hop

/-- The list that is there comes first. -/
theorem prefix_with_groups {current : List String} (h : current.Nodup) (wanted : List String) :
    current <+: with_groups current wanted := by
  have hgrows : ∀ xs seen : List String, seen <+: xs.foldl add_group seen := by
    intro xs
    induction xs with
    | nil => exact fun seen => List.prefix_rfl
    | cons x xs ih =>
      intro seen
      refine List.IsPrefix.trans ?_ (ih _)
      unfold add_group
      split
      · exact List.prefix_rfl
      · exact List.prefix_append _ _
  have hcurrent : current.foldl add_group [] = current := foldl_add_group_nodup h
  rw [with_groups, List.foldl_append, hcurrent]
  exact hgrows wanted current

/-- A text with the same letters, but for their case. -/
def Recased (text text' : String) : Prop := upper text = upper text'

/-- The settings are refused exactly if two keys of one map are equal. If not, a
    user has the configured names, each once and in order, however their address
    and their groups are padded and cased, as long as they lowercase to the same;
    and what a call writes to a team that is there is a list without repetitions,
    which begins with the list the team has if that has none, and which the next
    call writes again. -/
theorem no_churn :
    (∀ user sso : List (String × List String), fold_user_access_group_keys user sso = none ↔
      KeysClash user ∨ KeysClash sso) ∧
    (∀ (before after : List Char) (text text' : String), (∀ c ∈ before, isSpace c = true) →
      (∀ c ∈ after, isSpace c = true) →
      text.toList.map Char.toLower = text'.toList.map Char.toLower →
      Alike text (String.ofList (before ++ text'.toList ++ after))) ∧
    ∀ (cfg : GroupConfig) (email : String) (groups : Option (List String)),
      Firsts.IsFirsts (access_groups_for_user cfg.settings email groups)
        (((configured cfg email (groups.getD [])).map strip).filter (· != "")) ∧
      (∀ email' groups', Alike email email' → List.Forall₂ Alike (groups.getD []) (groups'.getD []) →
        access_groups_for_user cfg.settings email' groups' =
          access_groups_for_user cfg.settings email groups) ∧
      ∀ factory s s' team body,
        s.teams.lookup (cfg.settings.personal_team_id email) = some team →
        Writes cfg.settings email factory groups s s' body →
        ∃ ids : List String, body.lookup "access_group_ids" = some (.arr (ids.map .str)) ∧
          ids.Nodup ∧ (team.access_group_ids.Nodup → team.access_group_ids <+: ids) ∧
          ∀ factory' s₂ s₃ body', s₂.access_groups = s'.access_groups →
            s₂.teams.lookup (cfg.settings.personal_team_id email) =
              s'.teams.lookup (cfg.settings.personal_team_id email) →
            Writes cfg.settings email factory' groups s₂ s₃ body' →
            body'.lookup "access_group_ids" = some (.arr (ids.map .str)) := by
  refine ⟨boot_rejected_iff, fun before after text text' hbefore hafter h =>
    alike_respelled hbefore hafter h, fun cfg email groups => ⟨access_groups_firsts cfg email groups,
    fun email' groups' hemail hgroups => access_groups_alike _ hemail hgroups, ?_⟩⟩
  intro factory s s' team body hteam hwrites
  obtain ⟨hbody, hcatalogue, team', hrow, hgroups⟩ := writes_spec hteam hwrites
  refine ⟨_, hbody, nodup_foldl_add_group _ List.nodup_nil, fun h => prefix_with_groups h _, ?_⟩
  intro factory' s₂ s₃ body' hsame hsame_row hagain
  obtain ⟨hbody', -⟩ := writes_spec (hsame_row.trans hrow) hagain
  have hwanted : wanted cfg.settings s₂ ⟨email, factory', groups⟩ =
      wanted cfg.settings s ⟨email, factory, groups⟩ := wanted_eq (hsame.trans hcatalogue) _
  have hcurrent : s.groups (cfg.settings.personal_team_id email) = team.access_group_ids :=
    groups_of_row hteam
  rw [hbody', hwanted]
  -- the team has the list it had, or the one that was written
  have hagain' : with_groups team'.access_group_ids (wanted cfg.settings s ⟨email, factory, groups⟩) =
      with_groups team.access_group_ids (wanted cfg.settings s ⟨email, factory, groups⟩) := by
    rcases hgroups with hkept | hwritten
    · rw [hkept]
      exact congrArg (with_groups · _) hcurrent
    · rw [hwritten]
      show with_groups (with_groups (s.groups (cfg.settings.personal_team_id email)) _) _ = _
      rw [hcurrent]
      exact with_groups_again _ _
  rw [hagain']

/-! ## Bob's team -/

/-- A call for a user, with every request going well. -/
def ensure_well (settings : LitellmSettings) (email : String) (groups : Option (List String))
    (s : Tables) : Option (Tables × List (Exchange Call HttpAns) × Except Failure String) :=
  (litellm_when True).finish Tables.choose .well (fun s op _ answer => decide (Succeeds s op answer))
    s [] (ensure_personal_team settings email (.obj []) groups).run

/-- What such a call leaves behind, and the body of its update. -/
def update_of (settings : LitellmSettings) (email : String) (groups : Option (List String))
    (s : Tables) : Option (Tables × Dict) :=
  (ensure_well settings email groups s).bind fun run => run.2.1.findSome? fun x =>
    match x.op with
    | .team_update body => some (run.1, body)
    | _ => none

theorem writes_of_update {settings : LitellmSettings} {email : String} {groups : Option (List String)}
    {s s' : Tables} {body : Dict} (h : update_of settings email groups s = some (s', body)) :
    Writes settings email (.obj []) groups s s' body := by
  obtain ⟨⟨s₁, xs, r⟩, hrun, hfound⟩ := Option.bind_eq_some_iff.mp h
  obtain ⟨x, hx, hop⟩ := List.exists_of_findSome?_eq_some hfound
  have hruns : (litellm_when True).Runs s [] (ensure_personal_team settings email (.obj []) groups).run
      s₁ xs r := by
    apply Service.runs_of_finish _ hrun
    intro s op htest
    exact ⟨Tables.choose_admitted s op .well, fun _ => of_decide_eq_true htest⟩
  have hanswers : ∀ s op effective answer, (litellm_when True).answers s op effective answer →
      litellm.answers s op effective answer := fun _ _ _ _ hans => hans.1
  have heffect : litellm.effect = (litellm_when True).effect := rfl
  dsimp only at hop
  split at hop
  · next body' hbody =>
    cases hop
    exact ⟨xs, r, hruns.weaken heffect hanswers, x, hx, hbody⟩
  · cases hop

theorem no_churn_bob : ∃ s₁ s₂ body body' ids,
    Writes team_config.settings "bob" (.obj []) none team_tables s₁ body ∧
    Writes team_config.settings "bob" (.obj []) none s₁ s₂ body' ∧
    body.lookup "access_group_ids" = some (.arr (ids.map .str)) ∧ ["old"] <+: ids ∧
    body'.lookup "access_group_ids" = some (.arr (ids.map .str)) := by
  have hfirst : (update_of team_settings "bob" none team_tables).isSome = true := by decide +kernel
  obtain ⟨⟨s₁, body⟩, hone⟩ := Option.isSome_iff_exists.mp hfirst
  have hsecond : ((update_of team_settings "bob" none team_tables).bind fun row =>
      update_of team_settings "bob" none row.1).isSome = true := by decide +kernel
  rw [hone, Option.bind_some] at hsecond
  obtain ⟨⟨s₂, body'⟩, htwo⟩ := Option.isSome_iff_exists.mp hsecond
  have hwrites := writes_of_update hone
  have hid : team_settings.personal_team_id "bob" = "personal-bob" := by decide +kernel
  have hteam : team_tables.teams.lookup (team_config.settings.personal_team_id "bob") = some team_of_bob :=
    (congrArg (fun id => team_tables.teams.lookup id) hid).trans rfl
  obtain ⟨ids, hids, -, hprefix, hagain⟩ := (no_churn.2.2 team_config "bob" none).2.2 (.obj []) team_tables
    s₁ team_of_bob body hteam hwrites
  exact ⟨s₁, s₂, body, body', ids, hwrites, writes_of_update htwo, hids, hprefix (by decide),
    hagain _ _ _ _ rfl rfl (writes_of_update htwo)⟩

/-! ## A casing that counts -/

theorem no_users_folded : fold_keys [] = some [] := rfl

theorem customers_folded :
    fold_keys [("Großkunden", ["sales"])] = some [("großkunden", ["sales"])] := by
  decide +kernel

/-- A deployment with a group whose name has a sharp s. -/
def customers_config : GroupConfig where
  settings := { team_settings with sso_access_groups := [("großkunden", ["sales"])] }
  USER_ACCESS_GROUPS := []
  SSO_ACCESS_GROUPS := [("Großkunden", ["sales"])]
  user_folded := no_users_folded
  sso_folded := customers_folded

/-- In capitals the name has two letters for the sharp s, and lowercasing does
    not bring it back. -/
theorem casing_counts : ¬ ∀ (cfg : GroupConfig) (email : String) (groups groups' : List String),
    List.Forall₂ Recased groups groups' →
    access_groups_for_user cfg.settings email (some groups') =
      access_groups_for_user cfg.settings email (some groups) := by
  intro h
  have hrecased : Recased "Großkunden" "GROSSKUNDEN" := by
    unfold Recased
    decide +kernel
  have hsame := h customers_config "ann" ["Großkunden"] ["GROSSKUNDEN"] (.cons hrecased .nil)
  have hsmall : access_groups_for_user customers_config.settings "ann" (some ["Großkunden"]) =
      ["base", "sales"] := by decide +kernel
  have hcapital : access_groups_for_user customers_config.settings "ann" (some ["GROSSKUNDEN"]) =
      ["base"] := by decide +kernel
  rw [hsmall, hcapital] at hsame
  exact absurd hsame (by decide)

end AlitellmAuth.Litellm
