import AlitellmAuth.Litellm.PersonalTeam

/-! # What provisioning leads to

    The rows of one person after `ensure_team_and_user` has gone through on the
    personal path, as functions of the rows before.

    * `finished`: the row of the team; a team that is missing is created first.
    * `filled`: the row of a user that was there, after the backfill.
    * `finished_attached`, `filled_again`: a second pass changes nothing.
-/

namespace AlitellmAuth.Litellm

open Interleave

/-- What is asked of `ensure_team_and_user`, with personal teams on. -/
structure Person where
  email : String
  name : Option String
  factory : Json
  sso_groups : Option (List String)

/-- What is asked of `ensure_personal_team` then. -/
def Person.ensure (p : Person) : Ensure := ⟨p.email, p.factory, p.sso_groups⟩

/-- The `user` block of a factory, without its metadata and its null values. -/
def user_block (factory : Json) : Dict :=
  match factory with
  | .obj fields =>
      match (fields.lookup "user").getD .null with
      | .obj items => items.filter fun (k, v) => k != "metadata" && !v.isNull
      | _ => []
  | _ => []

/-- The block leaves alone who the user is, and puts no group on a team. -/
structure Plain (factory : Json) : Prop where
  own : ∀ key ∈ ["user_id", "user_email", "user_alias"], (user_block factory).lookup key = none
  groups : (user_block factory).lookup "access_group_ids" = none ∨
    (user_block factory).lookup "access_group_ids" = some (.arr [])

/-! ## The block -/

section
variable {factory : Json} {key : String}

theorem lookup_reverse_none {rows : Dict} : rows.reverse.lookup key = none ↔ rows.lookup key = none := by
  simp [List.lookup_eq_none_iff]

theorem user_block_mem {row : String × Json} (h : row ∈ user_block factory) :
    row.1 ≠ "metadata" ∧ row.2.isNull = false := by
  unfold user_block at h
  split at h
  · split at h
    · simpa using (List.mem_filter.mp h).2
    · cases h
  · cases h

/-- What the block has under a key counts if it is not null. -/
theorem user_block_value {value : Json} (h : (user_block factory).reverse.lookup key = some value) :
    key ≠ "metadata" ∧ value.isNull = false := by
  obtain ⟨l, r, heq, -⟩ := List.lookup_eq_some_iff.mp h
  have hmem : (key, value) ∈ user_block factory := by
    rw [← List.mem_reverse, heq]
    simp
  exact user_block_mem hmem

theorem factory_user_ok {user : Dict} (h : (factory_user factory).run = .ret (.ok user)) :
    user = user_block factory := by
  obtain ⟨block, hblock, hrest⟩ := run_bind_ok h
  obtain ⟨items, hitems, hfilter⟩ := run_bind_ok hrest
  obtain ⟨fields, rfl, rfl⟩ := dict_get_ok hblock
  have hobj := dict_items_ok hitems
  cases hfilter
  unfold user_block
  dsimp only
  cases hlookup : fields.lookup "user" with
  | none =>
    rw [hlookup] at hobj
    cases hobj
    rfl
  | some value =>
    rw [hlookup] at hobj
    cases hobj
    rfl

/-- The envelope of a team is the same block. -/
theorem envelope_ok {user : Json} {items : Dict}
    (huser : (dict_get factory "user" .null).run = .ret (.ok user))
    (hitems : (if user.truthy then dict_items user else pure [] : L Dict).run = .ret (.ok items)) :
    (items.filter fun (k, v) => k != "metadata" && !v.isNull) = user_block factory := by
  obtain ⟨fields, rfl, rfl⟩ := dict_get_ok huser
  unfold user_block
  dsimp only
  generalize (fields.lookup "user").getD .null = user at hitems
  split at hitems
  · obtain rfl := dict_items_ok hitems
    rfl
  · next hfalsy =>
    cases hitems
    -- a block that counts as false is empty
    cases user with
    | obj items =>
      cases items with
      | nil => rfl
      | cons row rows => exact absurd rfl hfalsy
    | null | bool | num | str | arr => rfl

end

/-! ## The team -/

variable (settings : LitellmSettings) (p : Person)

/-- The id of the personal team. -/
def Person.team_id : String := settings.personal_team_id p.email

/-- The body of `/team/new`. -/
def Person.team_body : Dict := Json.update (user_block p.factory) [
  ("team_id", .str (p.team_id settings)),
  ("team_alias", .str (p.team_id settings)),
  ("models", .arr [.str DENY_ALL_MODEL]),
  ("object_permission", deny_all_object_permission),
  ("metadata", .obj [("source", .str "token-factory"), ("alt_managed", .str "user-team")])]

/-- The team as it is created. -/
def Person.new_team : Team where
  columns := fun key => (team_columns (p.team_body settings)).lookup key
  access_group_ids := []
  members := []

/-- Add a group unless it is there. -/
def add_group (seen : List String) (x : String) : List String :=
  if seen.contains x then seen else seen ++ [x]

/-- A list of groups with more groups added, each of them once. -/
def with_groups (current wanted : List String) : List String := (current ++ wanted).foldl add_group []

/-- The row after `/team/update`. -/
def Team.attached (team : Team) (wanted : List String) : Team where
  columns := if team.stamped then team.columns.supply [("object_permission", deny_all_object_permission)]
    else team.columns
  access_group_ids := with_groups team.access_group_ids wanted
  members := team.members

/-- The row after all: the member is there, and the groups are attached. -/
def Team.finished (team : Team) (email : String) (wanted : List String) : Team :=
  (team.add_member email).attached wanted

section
variable {p} {settings} {team : Team} {email : String} {wanted : List String}

theorem subset_foldl_add_group (xs seen : List String) : seen ⊆ xs.foldl add_group seen := by
  induction xs generalizing seen with
  | nil => exact List.Subset.refl _
  | cons x xs ih =>
    apply List.Subset.trans _ (ih _)
    unfold add_group
    split
    · exact List.Subset.refl _
    · exact List.subset_append_left _ _

theorem mem_foldl_add_group {xs : List String} {x : String} (h : x ∈ xs) (seen : List String) :
    x ∈ xs.foldl add_group seen := by
  induction xs generalizing seen with
  | nil => cases h
  | cons y xs ih =>
    rw [List.foldl_cons]
    rcases List.mem_cons.mp h with rfl | h
    · apply subset_foldl_add_group
      unfold add_group
      split
      · next hmem => simpa using hmem
      · simp
    · exact ih h _

/-- Groups that are there are not added again. -/
theorem foldl_add_group_subset {xs seen : List String} (h : xs ⊆ seen) :
    xs.foldl add_group seen = seen := by
  induction xs with
  | nil => rfl
  | cons x xs ih =>
    rw [List.foldl_cons, add_group, if_pos (by simpa using h List.mem_cons_self)]
    exact ih fun y hy => h (List.mem_cons_of_mem _ hy)

theorem nodup_foldl_add_group (xs : List String) {seen : List String} (h : seen.Nodup) :
    (xs.foldl add_group seen).Nodup := by
  induction xs generalizing seen with
  | nil => exact h
  | cons x xs ih =>
    apply ih
    unfold add_group
    split
    · exact h
    · next hmem =>
      rw [List.nodup_append]
      refine ⟨h, by simp, fun y hy z hz heq => hmem ?_⟩
      rw [List.mem_singleton.mp hz] at heq
      simpa [heq] using hy

/-- A list without repetitions is built as it is. -/
theorem foldl_add_group_nodup {xs seen : List String} (h : (seen ++ xs).Nodup) :
    xs.foldl add_group seen = seen ++ xs := by
  induction xs generalizing seen with
  | nil => simp
  | cons x xs ih =>
    have hnew : x ∉ seen := by
      intro hmem
      exact (List.nodup_append.mp h).2.2 x hmem x List.mem_cons_self rfl
    rw [List.foldl_cons, add_group, if_neg (by simpa using hnew), ih (by simpa using h)]
    simp

/-- Attaching the same groups again changes nothing. -/
theorem with_groups_again (current wanted : List String) :
    with_groups (with_groups current wanted) wanted = with_groups current wanted := by
  have hnodup : (with_groups current wanted).Nodup := nodup_foldl_add_group _ List.nodup_nil
  have hsubset : wanted ⊆ with_groups current wanted := fun x hx =>
    mem_foldl_add_group (List.mem_append_right _ hx) _
  have hrebuilt : (with_groups current wanted).foldl add_group [] = with_groups current wanted :=
    foldl_add_group_nodup hnodup
  conv_lhs => rw [with_groups, List.foldl_append, hrebuilt]
  exact foldl_add_group_subset hsubset

theorem add_member_stamped (team : Team) (email : String) : (team.add_member email).stamped = team.stamped := by
  unfold Team.add_member
  split
  · rfl
  · rfl

theorem add_member_mem (team : Team) (email : String) :
    (team.add_member email).members.contains email = true := by
  unfold Team.add_member
  split
  · assumption
  · simp

theorem add_member_again (team : Team) (email : String) :
    (team.add_member email).add_member email = team.add_member email := by
  conv_lhs => rw [Team.add_member, if_pos (add_member_mem team email)]

theorem attached_stamped (team : Team) (wanted : List String) : (team.attached wanted).stamped = team.stamped := by
  have hmetadata : (team.attached wanted).columns "metadata" = team.columns "metadata" := by
    show (if team.stamped then _ else _ : Columns) "metadata" = _
    split
    · rfl
    · rfl
  rw [Team.stamped, hmetadata, Team.stamped]

theorem attached_again (team : Team) (wanted : List String) :
    (team.attached wanted).attached wanted = team.attached wanted := by
  have hcolumns : ((team.attached wanted).attached wanted).columns = (team.attached wanted).columns := by
    show (if (team.attached wanted).stamped then _ else _ : Columns) = _
    rw [attached_stamped]
    split
    · next hstamp =>
      funext key
      simp only [Team.attached, hstamp, if_true, Columns.supply]
      cases List.lookup key [("object_permission", deny_all_object_permission)] with
      | none => rfl
      | some value => rfl
    · rfl
  have hgroups : ((team.attached wanted).attached wanted).access_group_ids =
      (team.attached wanted).access_group_ids := with_groups_again _ _
  unfold Team.attached at hcolumns hgroups ⊢
  rw [Team.mk.injEq]
  exact ⟨hcolumns, hgroups, rfl⟩

/-- Members and groups are added independently. -/
theorem attached_add_member (team : Team) (email : String) (wanted : List String) :
    (team.attached wanted).add_member email = (team.add_member email).attached wanted := by
  unfold Team.add_member
  show (if team.members.contains email then _ else _) = _
  split
  · rfl
  · rfl

end

/-! ## The user -/

/-- The body of `/user/new`. -/
def Person.user_body : Dict := Json.update
  [("user_id", .str p.email), ("user_email", .str p.email),
    ("user_alias", .str (or_else p.name p.email)), ("user_role", .str "internal_user"),
    ("auto_create_key", .bool false)] (user_block p.factory)

/-- The user as it is created. -/
def Person.new_user : Columns := fun key => (user_columns p.user_body).lookup key

/-- What the backfill sends, given what it has read. -/
def Person.missing (existing : Dict) : Dict :=
  let missing := (user_block p.factory).filter fun (k, _) => (field existing k).isNull
  let missing := if (field existing "email").truthy then missing
    else Json.set missing "user_email" (.str p.email)
  if p.name.getD "" = "" || (field existing "name").truthy then missing
  else Json.set missing "user_alias" (.str (p.name.getD ""))

/-- Is the value under a key missing? -/
def Person.lacks (existing : Dict) (key : String) : Bool :=
  if key = "user_alias" then p.name.getD "" != "" && !(field existing "name").truthy
  else if key = "user_email" then !(field existing "email").truthy
  else (field existing key).isNull

/-- The value that a missing one is replaced by. -/
def Person.supplied (key : String) : Option Json :=
  if key = "user_alias" then some (.str (p.name.getD ""))
  else if key = "user_email" then some (.str p.email)
  else (user_block p.factory).reverse.lookup key

/-- The row after the backfill. -/
def Person.filled (existing : Dict) (columns : Columns) : Columns :=
  fun key => if p.lacks existing key then (p.supplied key).or (columns key) else columns key

section
variable {p} {existing : Dict} {columns : Columns} {key : String}

theorem Plain.last (h : Plain p.factory) (hkey : key ∈ ["user_id", "user_email", "user_alias"]) :
    (user_block p.factory).reverse.lookup key = none :=
  lookup_reverse_none.mpr (h.own key hkey)

/-- A value that is set unless it is there. -/
theorem lookup_reverse_set_unless (rows : Dict) (there : Bool) (key key' : String) (value : Json) :
    (if there then rows else Json.set rows key value).reverse.lookup key' =
      if key' = key ∧ there = false then some value else rows.reverse.lookup key' := by
  cases there with
  | false => simp [Json.lookup_reverse_set]
  | true => simp

/-- What the backfill sends under a key: who the user is, or a value of the
    factory that nothing was read for. -/
theorem lookup_sent (existing : Dict) (key : String) :
    (p.missing existing).reverse.lookup key =
      if key = "user_alias" ∧ p.lacks existing "user_alias" = true then some (.str (p.name.getD ""))
      else if key = "user_email" ∧ p.lacks existing "user_email" = true then some (.str p.email)
      else if (field existing key).isNull then (user_block p.factory).reverse.lookup key
      else none := by
  let block := (user_block p.factory).filter fun (k, _) => (field existing k).isNull
  have hblock : block.reverse.lookup key =
      if (field existing key).isNull then (user_block p.factory).reverse.lookup key else none := by
    rw [← List.filter_reverse]
    exact Table.lookup_filter_key (fun k => (field existing k).isNull) _ _
  have heq : p.missing existing = if decide (p.name.getD "" = "") || (field existing "name").truthy then
      (if (field existing "email").truthy then block else Json.set block "user_email" (.str p.email))
      else Json.set (if (field existing "email").truthy then block
        else Json.set block "user_email" (.str p.email)) "user_alias" (.str (p.name.getD "")) := by
    simp only [Person.missing, Bool.or_eq_true, decide_eq_true_eq, block]
  have halias : p.lacks existing "user_alias" =
      !(decide (p.name.getD "" = "") || (field existing "name").truthy) := by
    simp [Person.lacks, bne, Bool.beq_eq_decide_eq]
  have hemail : p.lacks existing "user_email" = !(field existing "email").truthy := by
    simp [Person.lacks]
  rw [heq, lookup_reverse_set_unless, lookup_reverse_set_unless, hblock, halias, hemail]
  simp only [Bool.not_eq_true']

/-- The backfill sends exactly the values that are missing. -/
theorem lookup_missing (hplain : Plain p.factory) (existing : Dict) (key : String) :
    (p.missing existing).reverse.lookup key =
      if p.lacks existing key then p.supplied key else none := by
  rw [lookup_sent]
  by_cases halias : key = "user_alias"
  · subst halias
    cases hlacks : p.lacks existing "user_alias" with
    | true => simp [Person.supplied]
    | false => simp [hplain.last]
  by_cases hemail : key = "user_email"
  · subst hemail
    cases hlacks : p.lacks existing "user_email" with
    | true => simp [Person.supplied]
    | false => simp [hplain.last]
  simp [Person.lacks, Person.supplied, halias, hemail]

theorem lookup_user_columns (body : Dict) (key : String) :
    (user_columns body).lookup key = if key = "user_id" then none else body.lookup key := by
  have hfilter := Table.lookup_filter_key (fun k => k != "user_id") body key
  rw [user_columns, hfilter]
  by_cases h : key = "user_id" <;> simp [h]

/-- The update leaves the row filled. -/
theorem supply_missing (hplain : Plain p.factory) (existing : Dict) (columns : Columns) :
    columns.supply (user_columns (Json.update [("user_id", .str p.email)] (p.missing existing))) =
      p.filled existing columns := by
  funext key
  rw [Columns.supply, lookup_user_columns, Json.lookup_update, lookup_missing hplain, Person.filled]
  by_cases hid : key = "user_id"
  · have hnone : p.supplied key = none := by
      subst hid
      exact hplain.last (by decide)
    simp [hid ▸ hnone, hid]
  · rw [if_neg hid, Table.lookup_cons_ne _ _ hid]
    split
    · simp
    · simp

/-- And nothing is sent for a row that lacks nothing. -/
theorem filled_of_missing_nil (hplain : Plain p.factory) (h : p.missing existing = [])
    (columns : Columns) : p.filled existing columns = columns := by
  funext key
  have hlookup := lookup_missing hplain existing key
  rw [h] at hlookup
  rw [Person.filled]
  split
  · next hlacks =>
    rw [if_pos hlacks] at hlookup
    rw [← hlookup]
    rfl
  · rfl

theorem new_user_lookup (hid : key ≠ "user_id") : p.new_user key =
    ((user_block p.factory).reverse.lookup key).or (List.lookup key
      [("user_id", .str p.email), ("user_email", .str p.email),
        ("user_alias", .str (or_else p.name p.email)), ("user_role", .str "internal_user"),
        ("auto_create_key", .bool false)]) := by
  rw [Person.new_user, lookup_user_columns, if_neg hid, Person.user_body, Json.lookup_update]

/-- A user that was created lacks nothing, whatever is read about it. -/
theorem filled_new_user (hplain : Plain p.factory) (existing : Dict) :
    p.filled existing p.new_user = p.new_user := by
  funext key
  rw [Person.filled]
  split
  · next hlacks =>
    -- the row of a new user has every field that is supplied, but for its name
    by_cases hid : key = "user_id"
    · have hnone : p.supplied key = none := by
        subst hid
        exact hplain.last (by decide)
      rw [hnone]
      rfl
    rw [new_user_lookup hid]
    unfold Person.supplied
    unfold Person.lacks at hlacks
    by_cases hk : key = "user_alias"
    · subst hk
      have hname : p.name.getD "" ≠ "" := by
        simp only [if_pos, Bool.and_eq_true, bne_iff_ne] at hlacks
        exact hlacks.1
      rw [hplain.last (by decide), or_else, if_neg hname]
      rfl
    · by_cases hk' : key = "user_email"
      · subst hk'
        rw [hplain.last (by decide)]
        rfl
      · rw [if_neg hk, if_neg hk']
        cases (user_block p.factory).reverse.lookup key with
        | none => rfl
        | some value => rfl
  · rfl

end

/-! ## What is read about a user -/

/-- What `_normalize_user` makes of a row; `none` if it raises. -/
def normal (row : Columns) (email : String) : Option Dict :=
  match (normalize_user settings (Tables.show_user row) email).run with
  | .ret (.ok existing) => some existing
  | _ => none

/-- A name or an email: a column, or else a field of the metadata. -/
def identity (row : Columns) (key other : String) : Json :=
  if ((row key).getD .null).truthy then (row key).getD .null
  else ((parse_metadata settings ((row "metadata").getD .null)).get? other).getD .null

section
variable {settings} {row row' : Columns} {email : String} {existing existing' : Dict}

theorem field_shown {shown : Dict} (h : Tables.ShowsUser row shown) {key : String}
    (hkey : key ∈ Tables.read_columns) : field shown key = (row key).getD .null := by
  rw [field, h key hkey]

theorem or_metadata_ok {info : Dict} {key other : String} {metadata value : Json}
    (h : (or_metadata info key metadata other).run = .ret (.ok value)) :
    value = if (field info key).truthy then field info key else (metadata.get? other).getD .null := by
  unfold or_metadata at h
  split at h
  · next htruthy =>
    cases h
    rw [if_pos htruthy]
  · next hfalsy =>
    obtain ⟨fields, rfl, rfl⟩ := dict_get_ok h
    rw [if_neg hfalsy]
    rfl

/-- What is read of a row, column by column. -/
theorem normalize_user_ok {shown : Dict} (hshows : Tables.ShowsUser row shown)
    (h : (normalize_user settings shown email).run = .ret (.ok existing)) : existing = [
      ("user_id", if ((row "user_id").getD .null).truthy then (row "user_id").getD .null else .str email),
      ("email", identity settings row "user_email" "email"),
      ("name", identity settings row "user_alias" "name"),
      ("role", (row "user_role").getD .null),
      ("spend", (row "spend").getD (.num 0)),
      ("max_budget", (row "max_budget").getD .null),
      ("budget_duration", (row "budget_duration").getD .null),
      ("tpm_limit", (row "tpm_limit").getD .null),
      ("rpm_limit", (row "rpm_limit").getD .null),
      ("max_parallel_requests", (row "max_parallel_requests").getD .null),
      ("models", (row "models").getD .null),
      ("teams", normalize_teams ((row "teams").getD .null)),
      ("created_at", (row "created_at").getD .null)] := by
  obtain ⟨mail, hmail, hrest⟩ := run_bind_ok h
  obtain ⟨name, hname, hdone⟩ := run_bind_ok hrest
  have hfield : ∀ key ∈ Tables.read_columns, field shown key = (row key).getD .null :=
    fun key hkey => field_shown hshows hkey
  have hspend : shown.lookup "spend" = row "spend" := hshows "spend" (by decide)
  -- every field of the projection is a column, or read from the metadata
  cases hdone
  rw [or_metadata_ok hmail, or_metadata_ok hname]
  simp only [hfield _ (show "user_id" ∈ Tables.read_columns by decide),
    hfield _ (show "user_email" ∈ Tables.read_columns by decide),
    hfield _ (show "user_alias" ∈ Tables.read_columns by decide),
    hfield _ (show "metadata" ∈ Tables.read_columns by decide),
    hfield _ (show "user_role" ∈ Tables.read_columns by decide),
    hfield _ (show "max_budget" ∈ Tables.read_columns by decide),
    hfield _ (show "budget_duration" ∈ Tables.read_columns by decide),
    hfield _ (show "tpm_limit" ∈ Tables.read_columns by decide),
    hfield _ (show "rpm_limit" ∈ Tables.read_columns by decide),
    hfield _ (show "max_parallel_requests" ∈ Tables.read_columns by decide),
    hfield _ (show "models" ∈ Tables.read_columns by decide),
    hfield _ (show "teams" ∈ Tables.read_columns by decide),
    hfield _ (show "created_at" ∈ Tables.read_columns by decide), hspend]
  rfl

variable (settings) in
theorem normalize_user_congr {info info' : Dict}
    (h : ∀ key ∈ Tables.read_columns, info.lookup key = info'.lookup key) (email : String) :
    normalize_user settings info email = normalize_user settings info' email := by
  have hfield : ∀ key ∈ Tables.read_columns, field info key = field info' key := by
    intro key hkey
    rw [field, field, h key hkey]
  unfold normalize_user or_metadata
  simp only [hfield _ (show "user_id" ∈ Tables.read_columns by decide),
    hfield _ (show "user_email" ∈ Tables.read_columns by decide),
    hfield _ (show "user_alias" ∈ Tables.read_columns by decide),
    hfield _ (show "metadata" ∈ Tables.read_columns by decide),
    hfield _ (show "user_role" ∈ Tables.read_columns by decide),
    hfield _ (show "max_budget" ∈ Tables.read_columns by decide),
    hfield _ (show "budget_duration" ∈ Tables.read_columns by decide),
    hfield _ (show "tpm_limit" ∈ Tables.read_columns by decide),
    hfield _ (show "rpm_limit" ∈ Tables.read_columns by decide),
    hfield _ (show "max_parallel_requests" ∈ Tables.read_columns by decide),
    hfield _ (show "models" ∈ Tables.read_columns by decide),
    hfield _ (show "teams" ∈ Tables.read_columns by decide),
    hfield _ (show "created_at" ∈ Tables.read_columns by decide),
    h _ (show "spend" ∈ Tables.read_columns by decide)]

/-- Whatever an answer looks like, the same is read of one row. -/
theorem normal_of_shown {shown : Dict} (hshows : Tables.ShowsUser row shown)
    (h : (normalize_user settings shown email).run = .ret (.ok existing)) :
    normal settings row email = some existing := by
  have hcongr := normalize_user_congr settings
    (fun key hkey => (hshows key hkey).trans (Tables.shows_show_user row key hkey).symm) email
  rw [normal, ← hcongr, h]

theorem normal_ok (h : normal settings row email = some existing) :
    (normalize_user settings (Tables.show_user row) email).run = .ret (.ok existing) := by
  unfold normal at h
  split at h
  · next hrun =>
    cases h
    exact hrun
  · cases h

/-- The fields of `_normalize_user` that are a column of the same name. -/
def plain_columns : List String :=
  ["spend", "max_budget", "budget_duration", "tpm_limit", "rpm_limit", "max_parallel_requests",
    "models", "teams", "created_at"]

/-- What is read, as far as the backfill looks at it. -/
theorem normal_fields (h : normal settings row email = some existing) :
    field existing "email" = identity settings row "user_email" "email" ∧
    field existing "name" = identity settings row "user_alias" "name" ∧
    field existing "role" = (row "user_role").getD .null := by
  rw [normalize_user_ok (Tables.shows_show_user row) (normal_ok h)]
  exact ⟨rfl, rfl, rfl⟩

theorem normal_plain (h : normal settings row email = some existing)
    (h' : normal settings row' email = some existing') {key : String} (hkey : key ∈ plain_columns)
    (hrow : row key = row' key) : field existing key = field existing' key := by
  rw [normalize_user_ok (Tables.shows_show_user row) (normal_ok h),
    normalize_user_ok (Tables.shows_show_user row') (normal_ok h')]
  simp only [plain_columns, List.mem_cons, List.not_mem_nil, or_false] at hkey
  rcases hkey with rfl | rfl | rfl | rfl | rfl | rfl | rfl | rfl | rfl
  all_goals
    simp only [field, List.lookup_cons, String.reduceBEq, hrow]

theorem normal_other (h : normal settings row email = some existing) {key : String}
    (hkey : key ∉ ["user_id", "email", "name", "role"]) (hplain : key ∉ plain_columns) :
    field existing key = .null := by
  rw [normalize_user_ok (Tables.shows_show_user row) (normal_ok h)]
  simp only [plain_columns, List.mem_cons, List.not_mem_nil, or_false, not_or] at hkey hplain
  obtain ⟨h1, h2, h3, h4⟩ := hkey
  obtain ⟨k1, k2, k3, k4, k5, k6, k7, k8, k9⟩ := hplain
  simp [field, List.lookup_cons, beq_eq_false_iff_ne.mpr h1, beq_eq_false_iff_ne.mpr h2,
    beq_eq_false_iff_ne.mpr h3, beq_eq_false_iff_ne.mpr h4, beq_eq_false_iff_ne.mpr k1,
    beq_eq_false_iff_ne.mpr k2, beq_eq_false_iff_ne.mpr k3, beq_eq_false_iff_ne.mpr k4,
    beq_eq_false_iff_ne.mpr k5, beq_eq_false_iff_ne.mpr k6, beq_eq_false_iff_ne.mpr k7,
    beq_eq_false_iff_ne.mpr k8, beq_eq_false_iff_ne.mpr k9]

/-! ## Filling a row twice -/

theorem filled_kept {p : Person} {columns : Columns} {key : String}
    (h : p.lacks existing key = false) : p.filled existing columns key = columns key := by
  rw [Person.filled, h]
  rfl

theorem filled_supplied {p : Person} {columns : Columns} {key : String} {value : Json}
    (h : p.lacks existing key = true) (hsupplied : p.supplied key = some value) :
    p.filled existing columns key = some value := by
  rw [Person.filled, h, hsupplied]
  rfl

theorem user_row_ne {columns : Columns} {id key : String} (h : key ≠ "user_id") :
    Tables.user_row id columns key = columns key := by
  rw [Tables.user_row, if_neg h]

theorem identity_congr {key other : String} (hkey : row key = row' key)
    (hmetadata : row "metadata" = row' "metadata") :
    identity settings row key other = identity settings row' key other := by
  unfold identity
  rw [hkey, hmetadata]

theorem identity_text {key other text : String} (h : row key = some (.str text)) (htext : text ≠ "") :
    identity settings row key other = .str text := by
  have htruthy : (Json.str text).truthy = true := by
    simp [Json.truthy, htext]
  rw [identity, h, Option.getD_some, if_pos htruthy]

theorem truthy_not_null {value : Json} (h : value.truthy = true) : value.isNull = false := by
  cases value with
  | null => cases h
  | bool | num | str | arr | obj => rfl

section
variable {p : Person} {columns : Columns} (hplain : Plain p.factory) (hemail : p.email ≠ "")
  (h : normal settings (Tables.user_row p.email columns) p.email = some existing)
  (h' : normal settings (Tables.user_row p.email (p.filled existing columns)) p.email = some existing')

theorem filled_metadata : Tables.user_row p.email columns "metadata" =
    Tables.user_row p.email (p.filled existing columns) "metadata" := by
  have hnone : p.supplied "metadata" = none := by
    rw [Option.eq_none_iff_forall_ne_some]
    intro value hvalue
    exact (user_block_value hvalue).1 rfl
  show columns "metadata" = p.filled existing columns "metadata"
  rw [Person.filled, hnone]
  split
  · rfl
  · rfl

include hemail h h' in
theorem email_stays : (field existing' "email").truthy = true ∧
    ((field existing "email").truthy = true → field existing' "email" = field existing "email") := by
  rw [(normal_fields h).1, (normal_fields h').1]
  -- an email that is there is not written; else it is that of the login
  cases htruthy : (identity settings (Tables.user_row p.email columns) "user_email" "email").truthy with
  | true =>
    have hlacks : p.lacks existing "user_email" = false := by
      show (!(field existing "email").truthy) = false
      rw [(normal_fields h).1, htruthy]
      rfl
    have hsame : identity settings (Tables.user_row p.email columns) "user_email" "email" =
        identity settings (Tables.user_row p.email (p.filled existing columns)) "user_email" "email" :=
      identity_congr (by
        rw [user_row_ne (by decide), user_row_ne (by decide)]
        exact (filled_kept hlacks).symm)
      filled_metadata
    rw [← hsame]
    exact ⟨htruthy, fun _ => rfl⟩
  | false =>
    have hlacks : p.lacks existing "user_email" = true := by
      show (!(field existing "email").truthy) = true
      rw [(normal_fields h).1, htruthy]
      rfl
    have htext : Tables.user_row p.email (p.filled existing columns) "user_email" =
        some (.str p.email) := by
      rw [user_row_ne (by decide)]
      exact filled_supplied hlacks rfl
    rw [identity_text htext hemail]
    exact ⟨by simp [Json.truthy, hemail], fun h => by cases h⟩

include h h' in
theorem name_stays : field existing' "name" = field existing "name" ∨
    (field existing "name").truthy = false ∧ (field existing' "name").truthy = true := by
  cases hlacks : p.lacks existing "user_alias" with
  | false =>
    refine .inl ?_
    rw [(normal_fields h).2.1, (normal_fields h').2.1]
    apply (identity_congr ?_ filled_metadata).symm
    rw [user_row_ne (by decide), user_row_ne (by decide)]
    exact (filled_kept hlacks).symm
  | true =>
    have hboth : p.name.getD "" ≠ "" ∧ (field existing "name").truthy = false := by
      simpa [Person.lacks] using hlacks
    refine .inr ⟨hboth.2, ?_⟩
    have htext : Tables.user_row p.email (p.filled existing columns) "user_alias" =
        some (.str (p.name.getD "")) := by
      rw [user_row_ne (by decide)]
      exact filled_supplied hlacks rfl
    rw [(normal_fields h').2.1, identity_text htext hboth.1]
    simpa [Json.truthy] using hboth.1

include hplain hemail h h' in
/-- What a row does not lack it does not lack after it was filled. -/
theorem lacks_stays {key : String} (hlacks : p.lacks existing key = false) {value : Json}
    (hsupplied : p.supplied key = some value) : p.lacks existing' key = false := by
  by_cases halias : key = "user_alias"
  · subst halias
    by_cases hname : p.name.getD "" = ""
    · simp [Person.lacks, hname]
    · have htruthy : (field existing "name").truthy = true := by
        simpa [Person.lacks, hname] using hlacks
      rcases name_stays h h' with hsame | ⟨hfalsy, -⟩
      · simp [Person.lacks, hsame, htruthy]
      · rw [htruthy] at hfalsy
        cases hfalsy
  by_cases hmail : key = "user_email"
  · subst hmail
    simp [Person.lacks, (email_stays hemail h h').1]
  -- every other key is lacking if what is read under it is null
  have heq : ∀ existing, p.lacks existing key = (field existing key).isNull := by
    intro existing
    rw [Person.lacks, if_neg halias, if_neg hmail]
  rw [heq] at hlacks ⊢
  by_cases hplaincol : key ∈ plain_columns
  · have hid : key ≠ "user_id" := by
      rintro rfl
      exact absurd hplaincol (by decide)
    rw [← normal_plain h h' hplaincol]
    · exact hlacks
    · rw [user_row_ne hid, user_row_ne hid]
      exact (filled_kept ((heq existing).trans hlacks)).symm
  by_cases hother : key ∈ ["user_id", "email", "name", "role"]
  · simp only [List.mem_cons, List.not_mem_nil, or_false] at hother
    rcases hother with rfl | rfl | rfl | rfl
    · rw [show p.supplied "user_id" = none from hplain.last (by decide)] at hsupplied
      cases hsupplied
    · exact truthy_not_null (email_stays hemail h h').1
    · rcases name_stays h h' with hsame | ⟨-, htruthy⟩
      · rw [hsame]
        exact hlacks
      · exact truthy_not_null htruthy
    · rw [(normal_fields h').2.2, user_row_ne (by decide), Person.filled]
      rw [(normal_fields h).2.2, user_row_ne (by decide)] at hlacks
      split
      · cases hvalue : p.supplied "user_role" with
        | none => exact hlacks
        | some value => exact (user_block_value hvalue).2
      · exact hlacks
  · rw [normal_other h hother hplaincol] at hlacks
    cases hlacks

include hplain hemail h h' in
/-- A row that was filled from itself is filled. -/
theorem filled_again : p.filled existing' (p.filled existing columns) = p.filled existing columns := by
  funext key
  rw [Person.filled]
  split
  · next hlacks' =>
    cases hsupplied : p.supplied key with
    | none => rfl
    | some value =>
      cases hlacks : p.lacks existing key with
      | true =>
        rw [filled_supplied hlacks hsupplied]
        rfl
      | false =>
        rw [lacks_stays hplain hemail h h' hlacks hsupplied] at hlacks'
        cases hlacks'
  · rfl

end

end

/-! ## The rows of a person -/

variable (s : Tables)

/-- The row that `get_litellm_user` finds: the one with the id, or the first
    one with the email if there is none or its id is a placeholder. -/
def Tables.found (email : String) : Option Columns :=
  match s.user email with
  | some row =>
      if is_placeholder (Tables.show_user row) then (s.first_by_email email).bind s.user else some row
  | none => (s.first_by_email email).bind s.user

/-- The user that the backfill reads: the one with the id, or the one with the
    email if the id is the placeholder. -/
def Person.read_id : Option String :=
  if p.email = LITELLM_PLACEHOLDER_USER_ID then s.first_by_email p.email else some p.email

/-- What the backfill reads. -/
def Person.reading : Option Dict :=
  (p.read_id s).bind fun id => (s.user id).bind fun row => normal settings row p.email

/-- The row of a user that is there, after the backfill. -/
def Person.backfilled (columns : Columns) : Columns :=
  match p.reading settings s with
  | some existing => p.filled existing columns
  | none => columns

/-- The row of the user that provisioning leads to. -/
def Person.final_user : Columns :=
  match s.users.lookup p.email with
  | some columns => p.backfilled settings s columns
  | none => p.new_user

/-- The row of the team that provisioning leads to. -/
def Person.final_team : Team :=
  ((s.teams.lookup (p.team_id settings)).getD (p.new_team settings)).finished p.email
    (wanted settings s p.ensure)

section
variable {settings} {p} {s} {columns : Columns}

theorem backfilled_new_user (hplain : Plain p.factory) :
    p.backfilled settings s p.new_user = p.new_user := by
  unfold Person.backfilled
  split
  · exact filled_new_user hplain _
  · rfl

/-- Writing one user changes what is read about that user only. -/
theorem user_set_user (s : Tables) (id id' : String) (columns : Columns) :
    (s.set_user id columns).user id' =
      if id' = id then some (Tables.user_row id columns) else s.user id' := by
  unfold Tables.user Tables.set_user
  rw [Table.lookup_put]
  split
  · next h =>
    subst h
    rfl
  · rfl

/-- A user keeps its place, and its email decides where it is found. -/
theorem first_by_email_set_user {columns' : Columns} {email : String}
    (hrow : s.users.lookup p.email = some columns) (hsame : columns' "user_email" = columns "user_email") :
    (s.set_user p.email columns').first_by_email email = s.first_by_email email := by
  unfold Tables.first_by_email
  have hkeys : (s.set_user p.email columns').users.map (·.1) = s.users.map (·.1) :=
    Table.keys_put (by rw [hrow]; rfl) columns'
  rw [hkeys]
  congr 1
  funext id
  rw [user_set_user]
  split
  · next hid =>
    rw [hid, Tables.user, hrow]
    show is_text ((Tables.user_row _ columns' "user_email").getD .null) email =
      is_text ((Tables.user_row _ columns "user_email").getD .null) email
    rw [user_row_ne (by decide), user_row_ne (by decide), hsame]
  · rfl

theorem filled_twice (existing : Dict) (columns : Columns) :
    p.filled existing (p.filled existing columns) = p.filled existing columns := by
  funext key
  unfold Person.filled
  split
  · cases p.supplied key with
    | none => rfl
    | some value => rfl
  · rfl

/-- A row that was found by its email has that email. -/
theorem identity_email {row : Columns} (hemail : p.email ≠ "")
    (htext : is_text ((row "user_email").getD .null) p.email = true) :
    (identity settings row "user_email" "email").truthy = true := by
  have hrow : row "user_email" = some (.str p.email) := by
    cases hvalue : row "user_email" with
    | none =>
      rw [hvalue] at htext
      cases htext
    | some value =>
      rw [hvalue] at htext
      cases value with
      | str text => rw [beq_iff_eq.mp htext]
      | null | bool | num | arr | obj => cases htext
  rw [identity_text hrow hemail]
  simp [Json.truthy, hemail]

theorem normal_email {row : Columns} {existing : Dict} (hemail : p.email ≠ "")
    (htext : is_text ((row "user_email").getD .null) p.email = true)
    (h : normal settings row p.email = some existing) : (field existing "email").truthy = true := by
  rw [(normal_fields h).1]
  exact identity_email hemail htext

variable (settings) in
/-- The backfill has nothing to do in a row that it has filled. -/
theorem backfilled_again (hplain : Plain p.factory) (hemail : p.email ≠ "")
    (hrow : s.users.lookup p.email = some columns) {existing : Dict}
    (hread : p.reading settings s = some existing) :
    p.backfilled settings (s.set_user p.email (p.filled existing columns))
      (p.filled existing columns) = p.filled existing columns := by
  have huser : s.user p.email = some (Tables.user_row p.email columns) := by
    rw [Tables.user, hrow]
    rfl
  unfold Person.backfilled
  split
  · next existing' hread' =>
    obtain ⟨id, hid, hread⟩ := Option.bind_eq_some_iff.mp hread
    obtain ⟨row, huserid, hnormal⟩ := Option.bind_eq_some_iff.mp hread
    obtain ⟨id', hid', hread'⟩ := Option.bind_eq_some_iff.mp hread'
    obtain ⟨row', huserid', hnormal'⟩ := Option.bind_eq_some_iff.mp hread'
    have hsame : id' = id := by
      unfold Person.read_id at hid hid'
      split at hid
      · next hplaceholder =>
        rw [if_pos hplaceholder] at hid'
        -- the user was found by its email, so the backfill leaves the email alone
        obtain ⟨row'', hrow'', htext⟩ := Tables.first_by_email_some hid
        rw [huserid] at hrow''
        cases hrow''
        have hkept : p.filled existing columns "user_email" = columns "user_email" := by
          apply filled_kept
          simp [Person.lacks, normal_email hemail htext hnormal]
        rw [first_by_email_set_user hrow hkept, hid] at hid'
        exact (Option.some.inj hid').symm
      · next hplaceholder =>
        rw [if_neg hplaceholder] at hid'
        exact (Option.some.inj hid').symm.trans (Option.some.inj hid)
    subst hsame
    rw [user_set_user] at huserid'
    split at huserid'
    · next heq =>
      subst heq
      rw [huser] at huserid
      cases huserid
      cases huserid'
      exact filled_again hplain hemail hnormal hnormal'
    · rw [huserid] at huserid'
      cases huserid'
      rw [hnormal] at hnormal'
      cases hnormal'
      exact filled_twice _ _
  · rfl

end

end AlitellmAuth.Litellm
