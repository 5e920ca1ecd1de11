import AlitellmAuth.Litellm.Client
import AlitellmAuth.Framework.Clients

/-! # LiteLLM's tables

    LiteLLM as the client sees it: rows of teams, users and access groups.
    `/team/new` and `/user/new` create a row if there is none, `/team/update`
    and `/user/update` replace the supplied columns, `/team/member_add` adds a
    member. Any request may fail, and may have taken effect all the same; an
    answer that reports a success is true.

    * `Tables`: the rows, and `Tables.apply`, the effect of one request.
    * `Tables.admits`: the answers LiteLLM may give.
    * `litellm`: both as a service.
    * `Tables.reply`: one answer that is always possible, for scripted runs.
-/

namespace AlitellmAuth.Litellm

open Interleave

/-! ## Rows -/

/-- The columns of a row; `none` for one that was never written. -/
abbrev Columns := String → Option Json

/-- Replace the columns a request supplies. -/
def Columns.supply (columns : Columns) (body : Dict) : Columns :=
  fun key => (body.lookup key).or (columns key)

/-- A team: its access groups, its members, and every other column. -/
structure Team where
  columns : Columns
  access_group_ids : List String
  members : List String

/-- A list of group ids; a request with anything else is not accepted. -/
def group_list : Json → Option (List String)
  | .null => some []
  | .arr items => items.mapM fun
      | .str id => some id
      | _ => none
  | _ => none

/-- The columns of a team that a request supplies, but for the id, which names
    the row, and the access groups. -/
def team_columns (body : Dict) : Dict :=
  body.filter fun row => row.1 != "team_id" && row.1 != "access_group_ids"

/-- The columns of a user that a request supplies, but for the id, which names
    the row. -/
def user_columns (body : Dict) : Dict := body.filter fun row => row.1 != "user_id"

/-- The text in a column of a request. -/
def text_field (body : Dict) (key : String) : Option String :=
  match field body key with
  | .str text => some text
  | _ => none

/-- The team a request creates. -/
def new_team (body : Dict) : Option Team :=
  (group_list (field body "access_group_ids")).map fun ids =>
    { columns := fun key => (team_columns body).lookup key, access_group_ids := ids, members := [] }

/-- The team after an update; `none` if the request is not accepted. -/
def Team.update (team : Team) (body : Dict) : Option Team :=
  match body.lookup "access_group_ids" with
  | none => some { team with columns := team.columns.supply (team_columns body) }
  | some value => (group_list value).map fun ids =>
      { team with columns := team.columns.supply (team_columns body), access_group_ids := ids }

def Team.add_member (team : Team) (user_id : String) : Team :=
  if team.members.contains user_id then team else { team with members := team.members ++ [user_id] }

theorem add_member_groups (team : Team) (user_id : String) :
    (team.add_member user_id).access_group_ids = team.access_group_ids := by
  unfold Team.add_member
  split
  · rfl
  · rfl

/-- A row carries the stamp of our teams. -/
def Team.stamped (team : Team) : Bool :=
  match (team.columns "metadata").getD .null with
  | .obj metadata => is_text (field metadata "alt_managed") "user-team"
  | _ => false

/-- The rows of LiteLLM. An access group is a name with an id. -/
structure Tables where
  teams : List (String × Team)
  users : List (String × Columns)
  access_groups : List (String × String)

namespace Tables

def empty : Tables := ⟨[], [], []⟩

/-- Write one team. -/
def set_team (s : Tables) (id : String) (team : Team) : Tables :=
  { s with teams := Table.put s.teams id team }

/-- Write one user. -/
def set_user (s : Tables) (id : String) (columns : Columns) : Tables :=
  { s with users := Table.put s.users id columns }

/-- The access groups of a team. -/
def groups (s : Tables) (id : String) : List String :=
  ((s.teams.lookup id).map (·.access_group_ids)).getD []

/-- The id of an access group by its name; of two groups with one name, the
    later. -/
def group_id (s : Tables) (name : String) : Option String :=
  ((s.access_groups.filter fun g => g.1 != "" && g.2 != "").reverse.find? fun g =>
    g.1 == name).map (·.2)

/-- Is there a row for the team a request names? -/
def has_team (s : Tables) (body : Dict) : Bool :=
  (text_field body "team_id").any fun id => (s.teams.lookup id).isSome

/-- Is there a row for the user a request names? -/
def has_user (s : Tables) (body : Dict) : Bool :=
  (text_field body "user_id").any fun id => (s.users.lookup id).isSome

/-! ## Effects -/

/-- The row a request to create a team is about, if it is accepted. -/
def accepted_team (s : Tables) (body : Dict) : Option (String × Team) :=
  match text_field body "team_id" with
  | some id => if (s.teams.lookup id).isSome then none else (new_team body).map fun team => (id, team)
  | none => none

/-- The row a request to update a team is about, if it is accepted. -/
def updated_team (s : Tables) (body : Dict) : Option (String × Team) :=
  match text_field body "team_id" with
  | some id => (s.teams.lookup id).bind fun team => (team.update body).map fun team' => (id, team')
  | none => none

/-- The user a request to create one is about, if it is accepted. -/
def accepted_user (s : Tables) (body : Dict) : Option (String × Columns) :=
  match text_field body "user_id" with
  | some id =>
      if (s.users.lookup id).isSome then none else some (id, fun key => (user_columns body).lookup key)
  | none => none

/-- The user a request to update one is about, if there is one. -/
def updated_user (s : Tables) (body : Dict) : Option (String × Columns) :=
  match text_field body "user_id" with
  | some id => (s.users.lookup id).map fun columns => (id, columns.supply (user_columns body))
  | none => none

/-- A member that is no user yet becomes one, with nothing but an id. -/
def ensure_user (s : Tables) (id : String) : Tables :=
  if (s.users.lookup id).isSome then s
  else s.set_user id fun _ => none

def write_team (s : Tables) : Option (String × Team) → Tables
  | some (id, team) => s.set_team id team
  | none => s

def write_user (s : Tables) : Option (String × Columns) → Tables
  | some (id, columns) => s.set_user id columns
  | none => s

def add_member (s : Tables) (team_id user_id : String) : Tables :=
  match s.teams.lookup team_id with
  | some team => (s.set_team team_id (team.add_member user_id)).ensure_user user_id
  | none => s

/-- What a request changes if it takes effect. -/
def apply : Call → Tables → Tables
  | .team_new body, s => s.write_team (s.accepted_team body)
  | .team_update body, s => s.write_team (s.updated_team body)
  | .member_add team_id user_id _, s => s.add_member team_id user_id
  | .user_new body, s => s.write_user (s.accepted_user body)
  | .user_update body, s => s.write_user (s.updated_user body)
  | _, s => s

/-- A row that is written is read back, and no other row changes. -/
theorem lookup_set_team (s : Tables) (id id' : String) (team : Team) :
    (s.set_team id team).teams.lookup id' = if id' = id then some team else s.teams.lookup id' :=
  Table.lookup_put _ _ _ _

theorem ensure_user_teams (s : Tables) (user_id : String) :
    (s.ensure_user user_id).teams = s.teams := by
  unfold ensure_user
  split
  · rfl
  · rfl

theorem accepted_team_some {s : Tables} {body : Dict} {row : String × Team}
    (h : s.accepted_team body = some row) :
    text_field body "team_id" = some row.1 ∧ s.teams.lookup row.1 = none ∧
      new_team body = some row.2 := by
  unfold accepted_team at h
  split at h
  · next id hid =>
    split at h
    · cases h
    · next hnone =>
      obtain ⟨team, hteam, rfl⟩ := Option.map_eq_some_iff.mp h
      exact ⟨hid, Option.not_isSome_iff_eq_none.mp hnone, hteam⟩
  · cases h

theorem updated_team_some {s : Tables} {body : Dict} {row : String × Team}
    (h : s.updated_team body = some row) :
    ∃ team, text_field body "team_id" = some row.1 ∧ s.teams.lookup row.1 = some team ∧
      team.update body = some row.2 := by
  unfold updated_team at h
  split at h
  · next id hid =>
    obtain ⟨team, hteam, h⟩ := Option.bind_eq_some_iff.mp h
    obtain ⟨team', hteam', rfl⟩ := Option.map_eq_some_iff.mp h
    exact ⟨team, hid, hteam, hteam'⟩
  · cases h

/-! ## Answers -/

/-- The team in the body of `/team/info`, wrapped or not. -/
def team_of_info : Json → Option Dict
  | .obj data =>
      match data.lookup "team_info" with
      | some (.obj team) => some team
      | _ => some data
  | _ => none

/-- The body shows the row of a team. -/
structure ShowsTeam (team : Team) (shown : Dict) : Prop where
  metadata : field shown "metadata" = (team.columns "metadata").getD .null
  groups : field shown "access_group_ids" = .arr (team.access_group_ids.map .str) ∨
    field shown "access_group_ids" = .null ∧ team.access_group_ids = []

/-- The columns of a user that the client reads. -/
def read_columns : List String :=
  ["user_id", "user_email", "user_alias", "metadata", "user_role", "spend", "max_budget",
    "budget_duration", "tpm_limit", "rpm_limit", "max_parallel_requests", "models", "teams",
    "created_at"]

/-- The row of a user, with its id. -/
def user_row (id : String) (columns : Columns) : Columns :=
  fun key => if key = "user_id" then some (.str id) else columns key

/-- The body shows the row of a user. -/
def ShowsUser (row : Columns) (shown : Dict) : Prop :=
  ∀ key ∈ read_columns, shown.lookup key = row key

/-- The row of the user with an id. -/
def user (s : Tables) (id : String) : Option Columns := (s.users.lookup id).map (user_row id)

/-- The first user with an email. -/
def first_by_email (s : Tables) (email : String) : Option String :=
  (s.users.map (·.1)).find? fun id =>
    (s.user id).any fun row => is_text ((row "user_email").getD .null) email

/-- The row that a list of users has for an email. -/
def row_by_email (rows : List Json) (email : String) : Option Dict :=
  rows.findSome? fun
    | .obj u => if is_text (field u "user_email") email then some u else none
    | _ => none

/-- The body of `/user/list` finds the user by email, or none. -/
def ShowsByEmail (s : Tables) (email : String) (rows : List Json) : Prop :=
  match row_by_email rows email, (s.first_by_email email).bind s.user with
  | some shown, some row => ShowsUser row shown
  | none, none => True
  | _, _ => False

/-- The row of an access group in the body of `/v1/access_group`. -/
def ShowsGroup (row : Json) (group : String × String) : Prop :=
  ∃ fields, row = .obj fields ∧ field fields "access_group_name" = .str group.1 ∧
    field fields "access_group_id" = .str group.2

/-- The answers LiteLLM may give to a request that took effect or not. A user
    that is unknown to `/user/info` is answered by a placeholder or a 404. -/
def admits (s : Tables) : Call → Bool → HttpReply → Prop
  | .team_new body, effective, .response resp =>
      (resp.status_code = 200 → effective = true ∧ (s.accepted_team body).isSome = true) ∧
      (already_exists resp = true → s.has_team body = true)
  | .team_info team_id, _, .response resp =>
      resp.is_success = true → ∃ value shown team, resp.json = some value ∧
        team_of_info value = some shown ∧ s.teams.lookup team_id = some team ∧ ShowsTeam team shown
  | .team_update body, effective, .response resp =>
      resp.is_success = true → effective = true ∧ (s.updated_team body).isSome = true
  | .member_add team_id _ _, effective, .response resp =>
      resp.is_success = true → effective = true ∧ (s.teams.lookup team_id).isSome = true
  | .user_new body, effective, .response resp =>
      (resp.is_success = true → effective = true ∧ (s.accepted_user body).isSome = true ∧
        ((resp.json.bind (Json.get? "existed")).getD .null).truthy = false) ∧
      (already_exists resp = true → s.has_user body = true)
  | .user_info user_id, _, .response resp =>
      (resp.status_code = 404 → s.user user_id = none) ∧
      (resp.is_success = true → ∃ value, resp.json = some value ∧
        match s.user user_id with
        | some row => ShowsUser row (unwrap_user_info value)
        | none => is_placeholder (unwrap_user_info value) = true)
  | .user_list user_email, _, .response resp =>
      resp.is_success = true → ∃ rows, s.ShowsByEmail user_email rows ∧
        (resp.json = some (.arr rows) ∨
          ∃ fields, resp.json = some (.obj fields) ∧ fields.lookup "users" = some (.arr rows))
  | .user_update body, effective, .response resp =>
      resp.is_success = true → effective = true ∧ (s.updated_user body).isSome = true
  | .access_group, _, .response resp =>
      resp.is_success = true → ∃ rows, resp.json = some (.arr rows) ∧
        List.Forall₂ ShowsGroup rows s.access_groups
  | _, _, _ => True

end Tables

/-- LiteLLM. -/
def litellm : Service Call HttpAns Tables where
  effect := Tables.apply
  answers := Tables.admits

/-! ## Replies -/

namespace Tables

/-- An answer with a status and a body. -/
def response (status_code : Nat) (value : Json) : HttpReply := .response ⟨status_code, "", some value⟩

/-- A success that took effect, or a refusal. -/
def granted (accepted : Bool) (value : Json) (otherwise : Nat) : Bool × HttpReply :=
  if accepted then (true, response 200 value) else (false, response otherwise (.obj []))

def show_team (team : Team) : Json :=
  .obj [("metadata", (team.columns "metadata").getD .null),
    ("access_group_ids", .arr (team.access_group_ids.map .str))]

def show_user (row : Columns) : Dict :=
  read_columns.filterMap fun key => (row key).map fun value => (key, value)

def show_group (group : String × String) : Json :=
  .obj [("access_group_name", .str group.1), ("access_group_id", .str group.2)]

/-- What LiteLLM answers when all is well, and whether the request takes
    effect then. -/
def reply (s : Tables) : Call → Bool × HttpReply
  | .team_new body =>
      granted (s.accepted_team body).isSome (.obj []) (if s.has_team body then 409 else 422)
  | .team_info team_id =>
      match s.teams.lookup team_id with
      | some team => (false, response 200 (.obj [("team_info", show_team team)]))
      | none => (false, response 404 (.obj []))
  | .team_update body => granted (s.updated_team body).isSome (.obj []) 404
  | .member_add team_id user_id _ =>
      match s.teams.lookup team_id with
      | some team => granted (!team.members.contains user_id) (.obj []) 400
      | none => (false, response 404 (.obj []))
  | .user_new body =>
      granted (s.accepted_user body).isSome (.obj []) (if s.has_user body then 409 else 422)
  | .user_info user_id =>
      match s.user user_id with
      | some row => (false, response 200 (.obj [("user_info", .obj (show_user row))]))
      | none => (false, response 404 (.obj []))
  | .user_list user_email =>
      (false, response 200 (.arr
        (((s.first_by_email user_email).bind s.user).map fun row => .obj (show_user row)).toList))
  | .user_update body => granted (s.updated_user body).isSome (.obj []) 404
  | .access_group => (false, response 200 (.arr (s.access_groups.map show_group)))
  | _ => (false, response 200 (.obj []))

/-- How a request goes: well, with its answer lost, or lost itself. -/
inductive Luck where
  | well
  | answer_lost
  | lost

def choose (s : Tables) (call : Call) : Luck → Bool × HttpReply
  | .well => s.reply call
  | .answer_lost => (true, .transport_error)
  | .lost => (false, .transport_error)

theorem shows_show_team (team : Team) :
    ∃ shown, team_of_info (.obj [("team_info", show_team team)]) = some shown ∧
      ShowsTeam team shown :=
  ⟨_, rfl, rfl, .inl rfl⟩

/-- A selection of columns, as a list, is read like the columns. -/
theorem lookup_selected (columns : Columns) (keys : List String) (key : String) :
    (keys.filterMap fun key => (columns key).map fun value => (key, value)).lookup key =
      if key ∈ keys then columns key else none := by
  induction keys with
  | nil => simp
  | cons k keys ih =>
    rw [List.filterMap_cons]
    by_cases hk : key = k
    · subst hk
      cases hc : columns key with
      | none =>
        simp only [Option.map_none, ih, hc]
        simp
      | some value => simp
    · have hmem : key ∈ k :: keys ↔ key ∈ keys := by simp [hk]
      cases columns k with
      | none => simp [ih, hmem]
      | some value =>
        simp only [Option.map_some]
        rw [Table.lookup_cons_ne _ _ hk, ih]
        simp [hmem]

theorem shows_show_user (row : Columns) : ShowsUser row (show_user row) := by
  intro key hkey
  rw [show_user, lookup_selected, if_pos hkey]

/-- A granted request has taken effect, and it is no conflict. -/
theorem granted_cases (accepted : Bool) (value : Json) (otherwise : Nat) :
    (accepted = true ∧ granted accepted value otherwise = (true, response 200 value)) ∨
    (accepted = false ∧ granted accepted value otherwise =
      (false, response otherwise (.obj []))) := by
  cases accepted with
  | true => exact .inl ⟨rfl, rfl⟩
  | false => exact .inr ⟨rfl, rfl⟩

theorem reply_user_info (s : Tables) (user_id : String) :
    s.admits (.user_info user_id) (s.reply (.user_info user_id)).1
      (s.reply (.user_info user_id)).2 := by
  cases hu : s.user user_id with
  | none =>
    have heq : s.reply (.user_info user_id) = (false, response 404 (.obj [])) := by
      simp only [reply, hu]
    rw [heq]
    exact ⟨fun _ => hu, fun h => absurd h (by decide)⟩
  | some row =>
    have heq : s.reply (.user_info user_id) =
        (false, response 200 (.obj [("user_info", .obj (show_user row))])) := by
      simp only [reply, hu]
    rw [heq]
    refine ⟨fun h => ?_, fun _ => ⟨_, rfl, ?_⟩⟩
    · exact absurd (show 200 = 404 from h) (by decide)
    rw [hu]
    exact shows_show_user row

/-- The first user with an email has that email. -/
theorem first_by_email_some {s : Tables} {email id : String} (h : s.first_by_email email = some id) :
    ∃ row, s.user id = some row ∧ is_text ((row "user_email").getD .null) email = true := by
  have hfound := List.find?_some h
  simpa [Option.any_eq_true] using hfound

theorem reply_user_list (s : Tables) (user_email : String) :
    s.admits (.user_list user_email) (s.reply (.user_list user_email)).1
      (s.reply (.user_list user_email)).2 := by
  intro _
  refine ⟨_, ?_, .inl rfl⟩
  unfold ShowsByEmail
  cases hfirst : s.first_by_email user_email with
  | none => trivial
  | some id =>
    obtain ⟨row, hrow, hemail⟩ := first_by_email_some hfirst
    have htext : is_text (field (show_user row) "user_email") user_email = true := by
      rw [field, shows_show_user row "user_email" (by decide)]
      exact hemail
    have hfound : row_by_email [.obj (show_user row)] user_email = some (show_user row) := by
      simp [row_by_email, htext]
    simp only [Option.bind_some, hrow, Option.map_some, Option.toList_some, hfound]
    exact shows_show_user row

theorem reply_access_group (s : Tables) :
    s.admits .access_group (s.reply .access_group).1 (s.reply .access_group).2 := by
  intro _
  refine ⟨_, rfl, ?_⟩
  induction s.access_groups with
  | nil => exact .nil
  | cons group groups ih => exact .cons ⟨_, rfl, rfl, rfl⟩ ih

theorem reply_team_info (s : Tables) (team_id : String) :
    s.admits (.team_info team_id) (s.reply (.team_info team_id)).1
      (s.reply (.team_info team_id)).2 := by
  cases hteam : s.teams.lookup team_id with
  | none =>
    have heq : s.reply (.team_info team_id) = (false, response 404 (.obj [])) := by
      simp only [reply, hteam]
    rw [heq]
    exact fun h => absurd h (by decide)
  | some team =>
    have heq : s.reply (.team_info team_id) =
        (false, response 200 (.obj [("team_info", show_team team)])) := by
      simp only [reply, hteam]
    rw [heq]
    obtain ⟨shown, hinfo, hshows⟩ := shows_show_team team
    exact fun _ => ⟨_, shown, team, rfl, hinfo, hteam, hshows⟩

theorem reply_member_add (s : Tables) (team_id user_id : String) (budget : Option Json) :
    s.admits (.member_add team_id user_id budget) (s.reply (.member_add team_id user_id budget)).1
      (s.reply (.member_add team_id user_id budget)).2 := by
  cases hteam : s.teams.lookup team_id with
  | none =>
    have heq : s.reply (.member_add team_id user_id budget) = (false, response 404 (.obj [])) := by
      simp only [reply, hteam]
    rw [heq]
    exact fun h => absurd h (by decide)
  | some team =>
    have heq : s.reply (.member_add team_id user_id budget) =
        granted (!team.members.contains user_id) (.obj []) 400 := by
      simp only [reply, hteam]
    rw [heq]
    rcases granted_cases (!team.members.contains user_id) (.obj []) 400 with
      ⟨hyes, heq⟩ | ⟨hno, heq⟩
    · rw [heq]
      exact fun _ => ⟨rfl, by rw [hteam]; rfl⟩
    · rw [heq]
      exact fun h => absurd h (by decide)

/-- Whatever happens to a request is something LiteLLM may do. -/
theorem choose_admitted (s : Tables) (call : Call) (luck : Luck) :
    litellm.answers s call (s.choose call luck).1 (s.choose call luck).2 := by
  cases luck with
  | answer_lost => cases call <;> trivial
  | lost => cases call <;> trivial
  | well =>
    cases call with
    | team_new body =>
      -- a write is granted, or refused with a status that is no success
      rcases granted_cases (s.accepted_team body).isSome (.obj [])
        (if s.has_team body then 409 else 422) with ⟨hyes, heq⟩ | ⟨hno, heq⟩
      · show s.admits _ (s.reply _).1 (s.reply _).2
        rw [reply, heq]
        exact ⟨fun _ => ⟨rfl, hyes⟩, fun h => absurd h (by decide)⟩
      · show s.admits _ (s.reply _).1 (s.reply _).2
        rw [reply, heq]
        cases hteam : s.has_team body with
        | true => exact ⟨fun h => absurd h (by decide), fun _ => hteam⟩
        | false => exact ⟨fun h => absurd h (by decide), fun h => absurd h (by decide)⟩
    | user_new body =>
      rcases granted_cases (s.accepted_user body).isSome (.obj [])
        (if s.has_user body then 409 else 422) with ⟨hyes, heq⟩ | ⟨hno, heq⟩
      · show s.admits _ (s.reply _).1 (s.reply _).2
        rw [reply, heq]
        exact ⟨fun _ => ⟨rfl, hyes, rfl⟩, fun h => absurd h (by decide)⟩
      · show s.admits _ (s.reply _).1 (s.reply _).2
        rw [reply, heq]
        cases huser : s.has_user body with
        | true => exact ⟨fun h => absurd h (by decide), fun _ => huser⟩
        | false => exact ⟨fun h => absurd h (by decide), fun h => absurd h (by decide)⟩
    | team_update body =>
      rcases granted_cases (s.updated_team body).isSome (.obj []) 404 with ⟨hyes, heq⟩ | ⟨hno, heq⟩
      · show s.admits _ (s.reply _).1 (s.reply _).2
        rw [reply, heq]
        exact fun _ => ⟨rfl, hyes⟩
      · show s.admits _ (s.reply _).1 (s.reply _).2
        rw [reply, heq]
        exact fun h => absurd h (by decide)
    | user_update body =>
      rcases granted_cases (s.updated_user body).isSome (.obj []) 404 with ⟨hyes, heq⟩ | ⟨hno, heq⟩
      · show s.admits _ (s.reply _).1 (s.reply _).2
        rw [reply, heq]
        exact fun _ => ⟨rfl, hyes⟩
      · show s.admits _ (s.reply _).1 (s.reply _).2
        rw [reply, heq]
        exact fun h => absurd h (by decide)
    | team_info team_id => exact reply_team_info s team_id
    | member_add team_id user_id budget => exact reply_member_add s team_id user_id budget
    | user_info user_id => exact reply_user_info s user_id
    | user_list user_email => exact reply_user_list s user_email
    | access_group => exact reply_access_group s
    | member_update | team_list | key_generate | key_update | key_list | key_info | key_delete | key_block => trivial

end Tables

end AlitellmAuth.Litellm
