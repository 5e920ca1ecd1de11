import AlitellmAuth.Framework.Parts
import AlitellmAuth.Litellm.PersonalTeam

/-! # Moving keys into personal teams

    `scripts/migrate-personal-teams.py`: a run that lists the keys at LiteLLM,
    decides which of them are its own, and moves those.

    * `classify`: the ownership rules, in their order.
    * `main`: the listing, the plan, and the moves.
    * `Ours`: what the rules promise of a key that is moved.
    * `migration_safe`: what every run sends, and what a second one would do.
-/

namespace AlitellmAuth.Scripts

open Interleave Text Litellm

/-! ## Requests -/

/-- The requests of the script. -/
inductive Send where
  | key_list (page : Nat) (user_id : Option String)
  | team_info (team_id : String)
  | team_new (payload : Dict)
  | models (token : String)
  | key_update (token team_id : String)

abbrev SendAns (_ : Send) : Type := HttpReply

abbrev STrace := Trace Send SendAns

/-- What ends a step: `HTTPStatusError`, another `httpx.HTTPError`, the
    `RuntimeError` of `create_team`, or any other exception. -/
inductive Raised where
  | http_status (status_code : Nat)
  | http_error
  | runtime
  | crashed

abbrev M := ExceptT Raised (Prog Send SendAns)

/-- Send one request. -/
def send (op : Send) : M HttpResponse := do
  match ← ExceptT.lift (Prog.await op) with
  | .transport_error => throw .http_error
  | .response resp => return resp

/-- A computation that sends no request. -/
def pure_step {α : Type} (r : Except Raised α) : M α := ExceptT.mk (Prog.ret r)

def DENY_ALL_MODEL : String := "no-default-models"

def DENY_ALL_AGENT : String := "00000000-0000-0000-0000-000000000000"

def TEAM_METADATA : Dict := [("source", .str "token-factory"), ("alt_managed", .str "user-team")]

def ACH_KEY_PREFIXES : List String := ["pkid_", "ekid_"]

def ACH_TEAM_PREFIX : String := "ach-"

/-- The command line. -/
structure Args where
  apply : Bool
  email : Option String
  litellm_url : Option String
  master_key : Option String
  team_prefix : String
  max_budget : Option Rat
  budget_duration : Option String
  settle : Int

/-! ## Helpers -/

/-- `short`: a value without length or slices raises. -/
def short : Json → Except Raised String
  | .str token =>
      if token = "" then .ok "<none>"
      else if 13 < token.length then .ok (String.ofList (token.toList.take 10) ++ "...")
      else .ok "<redacted>"
  | .arr items =>
      if items.isEmpty then .ok "<none>"
      else if 13 < items.length then .error .crashed
      else .ok "<redacted>"
  | .obj fields =>
      if fields.isEmpty then .ok "<none>"
      else if 13 < fields.length then .error .crashed
      else .ok "<redacted>"
  | token => if token.truthy then .error .crashed else .ok "<none>"

section
variable (loads : String → Option Json)

/-- `parse_metadata`, with `json.loads`. -/
def parse_metadata : Json → Json
  | .str raw =>
      match loads raw with
      | some value => if value.truthy then value else .obj []
      | none => .obj []
  | .obj fields => .obj fields
  | _ => .obj []

/-- `value.get(key)`; a value that is no dictionary raises. -/
def get (value : Json) (key : String) : Except Raised Json :=
  match value with
  | .obj fields => .ok (field fields key)
  | _ => .error .crashed

/-- `already_exists`. -/
def already_exists (resp : HttpResponse) : Bool :=
  resp.status_code == 409 ||
    resp.status_code == 400 && includes "already exists" (lower resp.text)

/-- The name a row is reported under: a value, an abbreviated token, or the
    type of a row that is no dictionary. -/
inductive Label where
  | value (value : Json)
  | token (short : String)
  | non_dict (row : Json)

/-- `describe`. -/
def describe (row : Json) : Except Raised Label :=
  match row with
  | .obj fields => do
      let key_alias ← get (parse_metadata loads (field fields "metadata")) "key_alias"
      if key_alias.truthy then return .value key_alias
      else if (field fields "key_alias").truthy then return .value (field fields "key_alias")
      else if (field fields "user_id").truthy then return .value (field fields "user_id")
      else return .token (← short (field fields "token"))
  | row => return .non_dict row

end

/-! ## LiteLLM -/

/-- `batch` and `total_pages` of a listing. -/
def batch_of : Json → Json × Json
  | .obj fields => (field fields "keys", field fields "total_pages")
  | body => (body, .null)

/-- `total_pages and page >= total_pages`. -/
def is_last (page : Nat) (total_pages : Json) : Except Raised Bool :=
  if !total_pages.truthy then .ok false
  else match total_pages with
    | .num q => .ok (decide (q ≤ page))
    | .bool b => .ok (decide ((if b then 1 else 0) ≤ page))
    | _ => .error .crashed

/-- One round of the loop in `fetch_keys`: the rows so far, and whether there
    is another page to ask for. -/
def read_page (page : Nat) (rows : List Json) (resp : HttpResponse) :
    Except Raised (List Json × Bool) :=
  if !resp.is_success then .error (.http_status resp.status_code)
  else match resp.json with
    | none => .error .crashed
    | some body =>
        match (batch_of body).1 with
        | .arr batch =>
            if batch.isEmpty then .ok (rows, false)
            else do
              let last ← is_last page (batch_of body).2
              return (rows ++ batch, !last && 100 ≤ batch.length)
        | _ => .ok (rows, false)

/-- The loop of `fetch_keys`, with the number of pages still allowed. -/
def fetch_pages (email : Option String) : Nat → Nat → List Json → M (List Json)
  | 0, _, rows => return rows
  | left + 1, page, rows => do
      let resp ← send (.key_list page (if email.getD "" = "" then none else email))
      let (rows, more) ← pure_step (read_page page rows resp)
      if more then fetch_pages email left (page + 1) rows else return rows

/-- `fetch_keys`: at most two hundred pages. -/
def fetch_keys (email : Option String) : M (List Json) := fetch_pages email 200 1 []

/-- `team_exists`. -/
def team_exists (team_id : String) : M Bool := do
  let resp ← send (.team_info team_id)
  return resp.status_code == 200

/-- The payload of `create_team`. -/
def team_payload (team_id : String) (max_budget : Option Rat) (budget_duration : Option String) :
    Dict :=
  let payload : Dict := [
    ("team_id", .str team_id),
    ("team_alias", .str team_id),
    ("models", .arr [.str DENY_ALL_MODEL]),
    ("object_permission", .obj [("mcp_servers", .arr []), ("mcp_access_groups", .arr []),
      ("agents", .arr [.str DENY_ALL_AGENT]), ("agent_access_groups", .arr [])]),
    ("metadata", .obj TEAM_METADATA)]
  let payload := match max_budget with
    | some max_budget => Json.set payload "max_budget" (.num max_budget)
    | none => payload
  if budget_duration.getD "" = "" then payload
  else Json.set payload "budget_duration" (.str (budget_duration.getD ""))

/-- `create_team`. -/
def create_team (team_id : String) (max_budget : Option Rat) (budget_duration : Option String) :
    M Unit := do
  let resp ← send (.team_new (team_payload team_id max_budget budget_duration))
  if resp.status_code != 200 && !already_exists resp then throw .runtime else return

/-- `model_count`: a token that is not ASCII cannot be sent in a header. -/
def model_count (token : String) : M (Option Nat) := do
  if token = "" then return none
  else if !token.toList.all fun c => c.toNat < 128 then throw .crashed
  else do
    match ← ExceptT.lift (Prog.await (.models token)) with
    | .transport_error => return none
    | .response resp =>
        if resp.status_code != 200 then return none
        else match resp.json with
          | none => throw .crashed
          | some body =>
              match ← pure_step (get body "data") with
              | .arr data => return some data.length
              | _ => return none

/-! ## Ownership -/

/-- Why a row is not moved. -/
inductive SkipReason where
  | not_full_object
  | ach_key
  | ach_team (current : String)
  | not_minted (source : Json)
  | no_owner (user_id : Json)
  | ach_destination (dest : String)
  | already_there
  | unchecked
  | no_token
  | unconfirmed (dest : String)
  | update_failed (status_code : Nat)
  | raised (exc : Raised)

/-- The verdict on a row: its destination, or why it is skipped. -/
inductive Verdict where
  | move (dest : String)
  | skip (reason : SkipReason)

/-- `a.startswith(ACH_KEY_PREFIXES)`, of a value that is a string. -/
def is_ach_key : Json → Bool
  | .str a => ACH_KEY_PREFIXES.any fun key => startsWith key a
  | _ => false

/-- The team, if it is one of ach's. -/
def ach_team_of : Json → Option String
  | .str s => if startsWith ACH_TEAM_PREFIX s then some s else none
  | _ => none

/-- `value or ""`. -/
def or_empty (value : Json) : Json := if value.truthy then value else .str ""

/-- `row.get("token") or row.get("key") or ""`. -/
def token_of (fields : Dict) : Json :=
  if (field fields "token").truthy then field fields "token" else or_empty (field fields "key")

/-- `classify`, for a row whose metadata is known. -/
def verdict (fields : Dict) (key_alias source : Json) (teamPrefix : String) : Verdict :=
  let aliases := [or_empty (field fields "key_alias"), or_empty key_alias, token_of fields]
  if aliases.any is_ach_key then .skip .ach_key
  else
    let current := or_empty (field fields "team_id")
    match ach_team_of current with
    | some current => .skip (.ach_team current)
    | none =>
        if !is_text source "token-factory" then .skip (.not_minted source)
        else match field fields "user_id" with
          | .str user_id =>
              if !user_id.toList.contains '@' then .skip (.no_owner (.str user_id))
              else
                let dest := teamPrefix ++ lower (strip user_id)
                if startsWith ACH_TEAM_PREFIX dest then .skip (.ach_destination dest)
                else if is_text current dest then .skip .already_there
                else .move dest
          | user_id => .skip (.no_owner user_id)

variable (loads : String → Option Json)

/-- `classify`. -/
def classify (row : Json) (teamPrefix : String) : Except Raised Verdict :=
  match row with
  | .obj fields => do
      let md := parse_metadata loads (field fields "metadata")
      let key_alias ← get md "key_alias"
      let source ← get md "source"
      return verdict fields key_alias source teamPrefix
  | _ => return .skip .not_full_object

/-! ## A run -/

/-- The plan of a run. -/
structure Plan where
  planned : List (Json × String)
  skipped : List (Label × SkipReason)
  known_teams : List (String × Bool)

/-- One row of the planning loop. -/
def plan_row (teamPrefix : String) (row : Json) (plan : Plan) : M Plan := do
  let outcome ← pure_step (classify loads row teamPrefix)
  let label ← pure_step (describe loads row)
  match outcome with
  | .skip reason => return { plan with skipped := plan.skipped ++ [(label, reason)] }
  | .move dest =>
      if (plan.known_teams.lookup dest).isSome then
        return { plan with planned := plan.planned ++ [(row, dest)] }
      else tryCatch (do
        let there ← team_exists dest
        return { plan with
          planned := plan.planned ++ [(row, dest)]
          known_teams := (dest, there) :: plan.known_teams }) fun
          | .http_status _ => return { plan with skipped := plan.skipped ++ [(label, .unchecked)] }
          | .http_error => return { plan with skipped := plan.skipped ++ [(label, .unchecked)] }
          | exc => throw exc

/-- The planning loop. -/
def plan_rows (teamPrefix : String) : List Json → Plan → M Plan
  | [], plan => return plan
  | row :: rows, plan => do plan_rows teamPrefix rows (← plan_row loads teamPrefix row plan)

/-- What is printed about a planned row; an odd token raises. -/
def announce (row : Json) : Except Raised Unit := do
  let metadata ← get row "metadata"
  let _ ← get (parse_metadata loads metadata) "key_alias"
  let _ ← short (← get row "token")
  return ()

/-- The name a planned row is reported under. -/
def move_label (row : Json) : Except Raised Label := do
  let metadata ← get row "metadata"
  let key_alias ← get (parse_metadata loads metadata) "key_alias"
  let own ← get row "key_alias"
  if key_alias.truthy then return .value key_alias
  else if own.truthy then return .value own
  else return .token (← short (← get row "token"))

/-- What the applying loop keeps: the teams it knows, and its report. -/
structure Progress where
  known_teams : List (String × Bool)
  skipped : List (Label × SkipReason)
  moved : List (Label × String × Option Nat)

/-- The exceptions the applying loop goes on after. -/
def Raised.caught : Raised → Bool
  | .crashed => false
  | _ => true

/-- `try: .. except (httpx.HTTPError, RuntimeError)`. -/
def attempt {α : Type} (p : M α) : M (Except Raised α) :=
  tryCatch (do return .ok (← p)) fun exc =>
    if exc.caught then return .error exc else throw exc

/-- Is the destination there? It is confirmed whatever `/team/new` answers. -/
def confirm (args : Args) (known : Bool) (dest : String) : M Bool := do
  if known then team_exists dest
  else do
    create_team dest args.max_budget args.budget_duration
    team_exists dest

/-- The steps of the applying loop for a row with a token. -/
def move_key (args : Args) (label : Label) (token dest : String) (before : Option Nat)
    (p : Progress) : M Progress := do
  match ← attempt (confirm args ((p.known_teams.lookup dest).getD false) dest) with
  | .error exc => return { p with skipped := p.skipped ++ [(label, .raised exc)] }
  | .ok false => return { p with skipped := p.skipped ++ [(label, .unconfirmed dest)] }
  | .ok true => do
      let p := { p with known_teams := (dest, true) :: p.known_teams }
      match ← attempt (send (.key_update token dest)) with
      | .error exc => return { p with skipped := p.skipped ++ [(label, .raised exc)] }
      | .ok resp =>
          if !resp.is_success then
            return { p with skipped := p.skipped ++ [(label, .update_failed resp.status_code)] }
          else return { p with moved := p.moved ++ [(label, token, before)] }

/-- One planned row of the applying loop. -/
def apply_row (args : Args) (row : Json) (dest : String) (p : Progress) : M Progress := do
  let label ← pure_step (move_label loads row)
  match ← pure_step (get row "token") with
  | .str token =>
      if token = "" then return { p with skipped := p.skipped ++ [(label, .no_token)] }
      else do
        let before ← model_count token
        move_key args label token dest before p
  | _ => return { p with skipped := p.skipped ++ [(label, .no_token)] }

/-- The applying loop. -/
def apply_rows (args : Args) : List (Json × String) → Progress → M Progress
  | [], p => return p
  | (row, dest) :: planned, p => do apply_rows args planned (← apply_row loads args row dest p)

/-- Can a label be padded to a width? A list and a dictionary cannot. -/
def Label.pads : Label → Bool
  | .value (.arr _) => false
  | .value (.obj _) => false
  | _ => true

/-- The counts that are read again after the moves. -/
def recount : List (Label × String × Option Nat) → M Unit
  | [] => return
  | (label, token, _) :: moved => do
      let _ ← model_count token
      if label.pads then recount moved else throw .crashed

/-- What a run reports at its end. -/
structure Report where
  planned : List (Json × String)
  skipped : List (Label × SkipReason)
  moved : List (Label × String × Option Nat)

/-- The part of `main` after the listing. -/
def migrate (args : Args) (rows : List Json) : M Report := do
  let plan ← plan_rows loads args.team_prefix rows ⟨[], [], []⟩
  let _ ← pure_step (plan.planned.mapM fun row => announce loads row.1)
  if !args.apply then return ⟨plan.planned, plan.skipped, []⟩
  else do
    let p ← apply_rows loads args plan.planned ⟨plan.known_teams, plan.skipped, []⟩
    if p.moved.isEmpty || args.settle ≤ 0 then return ⟨plan.planned, p.skipped, p.moved⟩
    else do
      recount p.moved
      return ⟨plan.planned, p.skipped, p.moved⟩

/-- How a run ends: it reports, it fails with an error message, or it crashes. -/
inductive Ending where
  | report (report : Report)
  | failed
  | crashed

/-- `main`. -/
def main (args : Args) : Prog Send SendAns Ending :=
  if args.litellm_url.getD "" = "" || args.master_key.getD "" = "" then return .failed
  else do
    match ← (fetch_keys args.email).run with
    | .error (.http_status _) => return .failed
    | .error .http_error => return .failed
    | .error _ => return .crashed
    | .ok rows =>
        match ← (migrate loads args rows).run with
        | .ok report => return .report report
        | .error _ => return .crashed

/-! ## What the rules promise -/

/-- A key of ach's: an alias or a token with one of its prefixes. -/
def Ach (s : String) : Prop := startsWith "pkid_" s = true ∨ startsWith "ekid_" s = true

/-- A listed row whose key may be moved: nothing about it is ach's, this
    service has minted it, and it goes into the personal team of its owner. -/
structure Ours (teamPrefix : String) (fields md : Dict) (token dest : String) : Prop where
  addressed : field fields "token" = .str token
  metadata : parse_metadata loads (field fields "metadata") = .obj md
  own_alias : ∀ s, field fields "key_alias" = .str s → ¬ Ach s
  metadata_alias : ∀ s, field md "key_alias" = .str s → ¬ Ach s
  own_token : ¬ Ach token
  own_team : ∀ s, field fields "team_id" = .str s → startsWith ACH_TEAM_PREFIX s = false
  source : field md "source" = .str "token-factory"
  owner : ∃ user_id, field fields "user_id" = .str user_id ∧
    dest = teamPrefix ++ lower (strip user_id) ∧
    ∀ settings : LitellmSettings, settings.personal_team_prefix = teamPrefix →
      dest = settings.personal_team_id user_id
  destination : startsWith ACH_TEAM_PREFIX dest = false

/-- The row was in a listing of this trace. -/
def ListedIn (row : Json) (tr : STrace) : Prop :=
  ∃ page user_id resp body batch,
    (⟨.key_list page user_id, .response resp⟩ : Event Send SendAns) ∈ tr ∧
    resp.json = some body ∧ (batch_of body).1 = .arr batch ∧ row ∈ batch

/-- What a run sends, and after what. Just before a key is moved, its
    destination was confirmed. -/
def Checked (args : Args) (tr : STrace) (e : Event Send SendAns) : Prop :=
  match e.1 with
  | .key_update token dest => args.apply = true ∧
      (∃ fields md, ListedIn (.obj fields) tr ∧ Ours loads args.team_prefix fields md token dest ∧
        classify loads (.obj fields) args.team_prefix = .ok (.move dest)) ∧
      ∃ resp rest, tr = ⟨.team_info dest, .response resp⟩ :: rest ∧ resp.status_code = 200
  | .team_new _ => args.apply = true
  | _ => True

/-- The key of a row was moved in this trace: LiteLLM has answered its update
    with success. -/
def MovedIn (teamPrefix : String) (fields : Dict) (dest : String) (tr : STrace) : Prop :=
  classify loads (.obj fields) teamPrefix = .ok (.move dest) ∧
    ∃ token resp, field fields "token" = .str token ∧
      (⟨.key_update token dest, .response resp⟩ : Event Send SendAns) ∈ tr ∧ resp.is_success = true

/-- A row after the run: an update sets the team of the row it is for. -/
def RowAfter (teamPrefix : String) (tr : STrace) (fields fields' : Dict) : Prop :=
  (∃ dest, MovedIn loads teamPrefix fields dest tr ∧
    fields' = Json.set fields "team_id" (.str dest)) ∨
  (∀ dest, ¬ MovedIn loads teamPrefix fields dest tr) ∧ fields' = fields

/-! ## The rules -/

section rules
variable {loads : String → Option Json} {fields md : Dict} {key_alias source : Json}
  {teamPrefix dest : String}

/-- What it takes to be moved. -/
structure Moves (fields : Dict) (key_alias source : Json) (teamPrefix dest : String) : Prop where
  keys : [or_empty (field fields "key_alias"), or_empty key_alias, token_of fields].any is_ach_key =
    false
  team : ach_team_of (or_empty (field fields "team_id")) = none
  minted : is_text source "token-factory" = true
  owner : ∃ user_id, field fields "user_id" = .str user_id ∧ user_id.toList.contains '@' = true ∧
    dest = teamPrefix ++ lower (strip user_id)
  destination : startsWith ACH_TEAM_PREFIX dest = false

theorem verdict_move (h : verdict fields key_alias source teamPrefix = .move dest) :
    Moves fields key_alias source teamPrefix dest := by
  -- every check of the source that fails ends in another verdict
  unfold verdict at h
  dsimp only at h
  split at h
  · cases h
  next hkeys =>
    split at h
    · cases h
    next hteam =>
      split at h
      · cases h
      next hminted =>
        split at h
        · next user_id howner =>
          split at h
          · cases h
          next hmail =>
            split at h
            · cases h
            next hdest =>
              split at h
              · cases h
              cases h
              exact ⟨by simpa using hkeys, hteam, by simpa using hminted,
                ⟨user_id, howner, by simpa using hmail, rfl⟩, by simpa using hdest⟩
        · cases h

theorem field_set_ne {key key' : String} {value : Json} (hne : key' ≠ key) :
    field (Json.set fields key value) key' = field fields key' := by
  rw [field, Json.lookup_set, if_neg hne]
  rfl

theorem field_set_self {key : String} {value : Json} : field (Json.set fields key value) key = value := by
  rw [field, Json.lookup_set, if_pos rfl]
  rfl

theorem or_empty_str (s : String) : or_empty (.str s) = .str s := by
  unfold or_empty
  split
  · rfl
  · next hempty =>
    have : s = "" := by simpa [Json.truthy] using hempty
    rw [this]

/-- In its destination the key is left alone. -/
theorem verdict_there (h : Moves fields key_alias source teamPrefix dest) :
    verdict (Json.set fields "team_id" (.str dest)) key_alias source teamPrefix =
      .skip .already_there := by
  obtain ⟨user_id, howner, hmail, rfl⟩ := h.owner
  have hteam : ach_team_of (.str (teamPrefix ++ lower (strip user_id))) = none := by
    simp [ach_team_of, h.destination]
  have htoken : token_of (Json.set fields "team_id" (.str (teamPrefix ++ lower (strip user_id)))) =
      token_of fields := by
    unfold token_of
    rw [field_set_ne (by decide), field_set_ne (by decide)]
  have hthere : is_text (.str (teamPrefix ++ lower (strip user_id)))
      (teamPrefix ++ lower (strip user_id)) = true := beq_self_eq_true _
  unfold verdict
  dsimp only
  rw [field_set_ne (by decide), htoken, field_set_self, field_set_ne (by decide), or_empty_str,
    h.keys, hteam, howner]
  dsimp only
  rw [h.minted, hmail, h.destination, hthere]
  rfl

theorem classify_move {row : Json} (h : classify loads row teamPrefix = .ok (.move dest)) :
    ∃ fields md, row = .obj fields ∧ parse_metadata loads (field fields "metadata") = .obj md ∧
      Moves fields (field md "key_alias") (field md "source") teamPrefix dest := by
  cases row with
  | obj fields =>
    cases hmd : parse_metadata loads (field fields "metadata") with
    | obj md =>
      simp only [classify, hmd] at h
      exact ⟨fields, md, rfl, hmd, verdict_move (Except.ok.inj h)⟩
    | null | bool | num | str | arr =>
      simp only [classify, hmd] at h
      cases h
  | null | bool | num | str | arr => cases h

/-- A second look at a row that was moved. -/
theorem classify_there (h : classify loads (.obj fields) teamPrefix = .ok (.move dest)) :
    classify loads (.obj (Json.set fields "team_id" (.str dest))) teamPrefix =
      .ok (.skip .already_there) := by
  obtain ⟨_, md, hrow, hmd, hmoves⟩ := classify_move h
  cases hrow
  unfold classify
  dsimp only
  rw [field_set_ne (by decide), hmd]
  exact congrArg Except.ok (verdict_there hmoves)

/-- An alias that was looked at is none of ach's. -/
theorem not_ach {value : Json} {s : String} (h : is_ach_key (or_empty value) = false)
    (hs : value = .str s) : ¬ Ach s := by
  intro hach
  rw [hs, or_empty_str] at h
  unfold is_ach_key ACH_KEY_PREFIXES at h
  rcases hach with hpkid | hekid
  · simp [hpkid] at h
  · simp [hekid] at h

/-- A row that is to be moved, by its token, is ours. -/
theorem ours_of_move {row : Json} {token : String}
    (h : classify loads row teamPrefix = .ok (.move dest)) (htoken : get row "token" = .ok (.str token))
    (hne : token ≠ "") :
    ∃ fields md, row = .obj fields ∧ Ours loads teamPrefix fields md token dest := by
  obtain ⟨fields, md, rfl, hmd, hmoves⟩ := classify_move h
  have haddressed : field fields "token" = .str token := Except.ok.inj htoken
  have hkeys := hmoves.keys
  have htoken_of : token_of fields = or_empty (.str token) := by
    rw [or_empty_str, token_of, haddressed, if_pos (by simpa [Json.truthy] using hne)]
  rw [htoken_of] at hkeys
  simp only [List.any_cons, List.any_nil, Bool.or_false, Bool.or_eq_false_iff] at hkeys
  obtain ⟨hown, hmetadata, htoken⟩ := hkeys
  obtain ⟨user_id, howner, -, hdest⟩ := hmoves.owner
  refine ⟨fields, md, rfl, haddressed, hmd, fun s => not_ach hown, fun s => not_ach hmetadata,
    not_ach htoken rfl, ?_, eq_of_is_text hmoves.minted, ⟨user_id, howner, hdest, ?_⟩,
    hmoves.destination⟩
  · intro s hs
    have hteam := hmoves.team
    rw [hs, or_empty_str] at hteam
    simpa [ach_team_of] using hteam
  · intro settings hsettings
    rw [hdest, LitellmSettings.personal_team_id, hsettings]

end rules

/-! ## What the steps send -/

section steps
variable {loads : String → Option Json} {args : Args} {tr tr' : STrace}

theorem ListedIn.mono {row : Json} (h : ListedIn row tr) (hs : tr ⊆ tr') : ListedIn row tr' := by
  obtain ⟨page, user_id, resp, body, batch, hmem, hrest⟩ := h
  exact ⟨page, user_id, resp, body, batch, hs hmem, hrest⟩

theorem still_pure_step {α : Type} (r : Except Raised α) : Still (pure_step r) := ⟨r, rfl⟩

theorem pure_step_ok {α : Type} {r : Except Raised α} {a : α}
    (h : (pure_step r).run = .ret (.ok a)) : r = .ok a := by
  cases h
  rfl

/-- The requests that change nothing. -/
def Send.reads : Send → Bool
  | .team_new _ => false
  | .key_update .. => false
  | _ => true

/-- Every row that was fetched was listed. -/
def FetchedIn (rows : List Json) (tr : STrace) (result : Except Raised (List Json)) : Prop :=
  ∀ rows', result = .ok rows' → ∀ row ∈ rows', row ∈ rows ∨ ListedIn row tr

theorem fetched_error {rows : List Json} (e : Raised) : FetchedIn rows tr (.error e) := by
  intro rows' hok
  cases hok

/-- A page adds the rows of its batch. -/
theorem read_page_mem {page : Nat} {rows rows' : List Json} {resp : HttpResponse} {more : Bool}
    (h : read_page page rows resp = .ok (rows', more)) {row : Json} (hrow : row ∈ rows') :
    row ∈ rows ∨ ∃ body batch, resp.json = some body ∧ (batch_of body).1 = .arr batch ∧ row ∈ batch := by
  unfold read_page at h
  split at h
  · cases h
  cases hjson : resp.json with
  | none =>
    rw [hjson] at h
    cases h
  | some body =>
    rw [hjson] at h
    dsimp only at h
    -- only a list adds rows, and an empty one ends the paging
    cases hbatch : (batch_of body).1 with
    | null | bool | num | str | obj =>
      rw [hbatch] at h
      cases h
      exact .inl hrow
    | arr batch =>
      rw [hbatch] at h
      dsimp only at h
      split at h
      · cases h
        exact .inl hrow
      · cases hlast : is_last page (batch_of body).2 with
        | error e =>
          rw [hlast] at h
          cases h
        | ok last =>
          rw [hlast] at h
          cases h
          exact (List.mem_append.mp hrow).imp_right fun hrow => ⟨body, batch, rfl, hbatch, hrow⟩

/-- The listing sends nothing else, and returns what was listed. -/
theorem fetch_pages_along (email : Option String) (left page : Nat) (rows : List Json) :
    Prog.Along (fun _ e => e.1.reads = true) (FetchedIn rows) tr (fetch_pages email left page rows).run := by
  induction left generalizing page rows tr with
  | zero =>
    intro rows' hok row hrow
    cases hok
    exact .inl hrow
  | succ left ih =>
    intro reply
    refine ⟨rfl, ?_⟩
    cases reply with
    | transport_error => exact fetched_error _
    | response resp =>
      refine along_still_bind (still_pure_step _) ?_ fetched_error
      rintro ⟨rows', more⟩ hpage
      have hlisted : ∀ row ∈ rows', row ∈ rows ∨ ListedIn row (⟨.key_list page
          (if email.getD "" = "" then none else email), .response resp⟩ :: tr) := by
        intro row hrow
        refine (read_page_mem (pure_step_ok hpage) hrow).imp_right ?_
        rintro ⟨body, batch, hjson, hbatch, hmem⟩
        exact ⟨_, _, resp, body, batch, List.mem_cons_self, hjson, hbatch, hmem⟩
      cases more with
      | false =>
        intro rows'' hok row hrow
        cases hok
        exact hlisted row hrow
      | true =>
        refine along_mono (fun _ _ h => h) ?_ (along_grows (ih (page + 1) rows'))
        rintro tr' result ⟨hfetched, hs⟩ rows'' hok row hrow
        -- a row of a later page was listed later, and stays listed
        rcases hfetched rows'' hok row hrow with hmem | hlater
        · exact (hlisted row hmem).imp_right fun h => h.mono hs.subset
        · exact .inr hlater

/-! ## The plan -/

variable (loads) in
/-- What is planned is to be moved, and was listed. -/
def PlannedIn (teamPrefix : String) (rows : List Json) (planned : List (Json × String))
    (result : Except Raised Plan) : Prop :=
  ∀ plan', result = .ok plan' → ∀ row dest, (row, dest) ∈ plan'.planned →
    (row, dest) ∈ planned ∨ row ∈ rows ∧ classify loads row teamPrefix = .ok (.move dest)

theorem planned_error {teamPrefix : String} {rows : List Json} {planned : List (Json × String)}
    (e : Raised) : PlannedIn loads teamPrefix rows planned (.error e) := by
  intro plan' hok
  cases hok

theorem plan_row_along (teamPrefix : String) (row : Json) (plan : Plan) :
    Prog.Along (fun _ e => e.1.reads = true)
      (fun _ result => PlannedIn loads teamPrefix [row] plan.planned result) tr
      (plan_row loads teamPrefix row plan).run := by
  refine along_still_bind (still_pure_step _) (fun outcome hclass => ?_) planned_error
  refine along_still_bind (still_pure_step _) (fun label _ => ?_) planned_error
  have hsame : ∀ skipped known_teams, PlannedIn loads teamPrefix [row] plan.planned
      (.ok { plan with skipped := skipped, known_teams := known_teams }) := by
    intro skipped known_teams plan' hok row' dest' hmem
    cases hok
    exact .inl hmem
  cases outcome with
  | skip reason => exact hsame _ _
  | move dest =>
    have hadded : ∀ skipped known_teams, PlannedIn loads teamPrefix [row] plan.planned
        (.ok ⟨plan.planned ++ [(row, dest)], skipped, known_teams⟩) := by
      intro skipped known_teams plan' hok row' dest' hmem
      cases hok
      refine (List.mem_append.mp hmem).imp_right fun hnew => ?_
      obtain ⟨rfl, rfl⟩ := Prod.mk.inj (List.mem_singleton.mp hnew)
      exact ⟨List.mem_singleton_self _, pure_step_ok hclass⟩
    show Prog.Along _ _ _ (ExceptT.run (if _ then _ else _))
    -- the team of the row is looked up only where it is not known yet
    split
    · exact hadded _ _
    · intro reply
      refine ⟨rfl, ?_⟩
      cases reply with
      | transport_error => exact hsame _ _
      | response resp => exact hadded _ _

/-- The plan holds rows of the listing that are to be moved. -/
theorem plan_rows_along (teamPrefix : String) (rows : List Json) (plan : Plan) :
    Prog.Along (fun _ e => e.1.reads = true)
      (fun _ result => PlannedIn loads teamPrefix rows plan.planned result) tr
      (plan_rows loads teamPrefix rows plan).run := by
  induction rows generalizing plan tr with
  | nil =>
    intro plan' hok row dest hmem
    cases hok
    exact .inl hmem
  | cons row rows ih =>
    refine along_run_bind (plan_row_along teamPrefix row plan) ?_ fun _ e _ => planned_error e
    intro tr₁ plan₁ hplan
    refine along_mono (fun _ _ h => h) ?_ (ih plan₁)
    intro tr' result hrest plan' hok row' dest' hmem
    rcases hrest plan' hok row' dest' hmem with hmem | ⟨hrow, hclass⟩
    · refine (hplan plan₁ rfl row' dest' hmem).imp_right fun ⟨hrow, hclass⟩ => ⟨?_, hclass⟩
      exact List.mem_singleton.mp hrow ▸ List.mem_cons_self
    · exact .inr ⟨List.mem_cons_of_mem _ hrow, hclass⟩

/-! ## The moves -/

/-- The trace goes on, and no key is moved. -/
def NoMove (tr tr' : STrace) : Prop :=
  tr <:+ tr' ∧ ∀ e ∈ tr', e ∈ tr ∨ ∀ token dest, e.1 ≠ .key_update token dest

/-- Every key that was moved is in the report. -/
def Told (tr : STrace) (p : Progress) : Prop :=
  ∀ token dest resp, (⟨.key_update token dest, .response resp⟩ : Event Send SendAns) ∈ tr →
    resp.is_success = true → token ∈ p.moved.map (·.2.1)

theorem NoMove.refl : NoMove tr tr := ⟨List.suffix_rfl, fun _ he => .inl he⟩

theorem NoMove.cons {e : Event Send SendAns} (h : NoMove tr tr')
    (he : ∀ token dest, e.1 ≠ .key_update token dest) : NoMove tr (e :: tr') := by
  refine ⟨h.1.trans (List.suffix_cons _ _), fun e' he' => ?_⟩
  rcases List.mem_cons.mp he' with rfl | he'
  · exact .inr he
  · exact h.2 e' he'

theorem NoMove.trans {tr'' : STrace} (h : NoMove tr tr') (h' : NoMove tr' tr'') : NoMove tr tr'' := by
  refine ⟨h.1.trans h'.1, fun e he => ?_⟩
  rcases h'.2 e he with he | hother
  · exact h.2 e he
  · exact .inr hother

/-- A step that only reads. -/
theorem along_reads {α : Type} {R : STrace → α → Prop} {p : Prog Send SendAns α}
    (h : Prog.Along (fun _ e => e.1.reads = true) R tr p) :
    Prog.Along (Checked loads args) (fun tr' a => R tr' a ∧ NoMove tr tr') tr p := by
  refine along_mono ?_ ?_ (along_collect h)
  · rintro tr' ⟨op, reply⟩ hreads
    cases op with
    | team_new | key_update => cases hreads
    | key_list | team_info | models => trivial
  · rintro tr' a ⟨hresult, hs, hmem⟩
    refine ⟨hresult, hs, fun e he => (hmem e he).imp_right fun hreads token dest hop => ?_⟩
    rw [hop] at hreads
    cases hreads

theorem Told.kept {p p' : Progress} (h : Told tr p) (hno : NoMove tr tr') (hmoved : p'.moved = p.moved) :
    Told tr' p' := by
  intro token dest resp hmem hok
  rw [hmoved]
  rcases hno.2 _ hmem with hmem | hother
  · exact h token dest resp hmem hok
  · exact absurd rfl (hother token dest)

/-- An update that LiteLLM has not granted. -/
theorem Told.refused {token dest : String} {reply : HttpReply} {p p' : Progress} (h : Told tr p)
    (hreply : ∀ resp, reply = .response resp → resp.is_success = false)
    (hmoved : p'.moved = p.moved) : Told (⟨.key_update token dest, reply⟩ :: tr) p' := by
  intro token' dest' resp hmem hok
  rw [hmoved]
  rcases List.mem_cons.mp hmem with heq | hmem
  · cases heq
    rw [hreply resp rfl] at hok
    cases hok
  · exact h token' dest' resp hmem hok

/-- An update that goes into the report. -/
theorem Told.moved {token dest : String} {reply : HttpReply} {p : Progress} (h : Told tr p)
    (row : Label × Option Nat) :
    Told (⟨.key_update token dest, reply⟩ :: tr)
      { p with moved := p.moved ++ [(row.1, token, row.2)] } := by
  intro token' dest' resp hmem hok
  rw [List.map_append]
  rcases List.mem_cons.mp hmem with heq | hmem
  · cases heq
    exact List.mem_append_right _ (List.mem_singleton_self _)
  · exact List.mem_append_left _ (h token' dest' resp hmem hok)

theorem attempt_along {α : Type} {Q : STrace → Event Send SendAns → Prop}
    {R : STrace → Except Raised α → Prop} {S : STrace → Except Raised (Except Raised α) → Prop}
    {p : M α} (hp : Prog.Along Q R tr p.run)
    (hok : ∀ tr' a, R tr' (.ok a) → S tr' (.ok (.ok a)))
    (hcaught : ∀ tr' e, R tr' (.error e) → S tr' (.ok (.error e)))
    (hraised : ∀ tr' e, R tr' (.error e) → S tr' (.error e)) :
    Prog.Along Q S tr (attempt p).run := by
  have hinner : Prog.Along Q (fun tr' result => match result with
      | .ok (.ok a) => R tr' (.ok a)
      | .ok (.error _) => False
      | .error e => R tr' (.error e)) tr (p >>= fun a => (pure (.ok a) : M (Except Raised α))).run :=
    along_run_bind hp (fun _ _ h => h) fun _ _ h => h
  refine along_run_catch hinner ?_ ?_
  · intro tr' result hresult
    cases result with
    | ok a => exact hok tr' a hresult
    | error e => exact hresult.elim
  · intro tr' e he
    show Prog.Along _ _ _ (ExceptT.run (if e.caught = true then _ else _))
    split
    · exact hcaught tr' e he
    · exact hraised tr' e he

theorem model_count_along (token : String) :
    Prog.Along (Checked loads args) (fun tr' _ => NoMove tr tr') tr (model_count token).run := by
  unfold model_count
  split
  · exact .refl
  split
  · exact .refl
  intro reply
  have hone : NoMove tr (⟨.models token, reply⟩ :: tr) := NoMove.refl.cons fun _ _ h => by cases h
  refine ⟨trivial, ?_⟩
  cases reply with
  | transport_error => exact hone
  | response resp =>
    show Prog.Along _ _ _ (ExceptT.run (if _ then _ else _))
    split
    · exact hone
    split
    · exact hone
    · refine along_still_bind (still_pure_step _) (fun data _ => ?_) fun _ => hone
      split <;> exact hone

/-- A destination that is there was confirmed just now. -/
theorem confirm_along (happly : args.apply = true) (known : Bool) (dest : String) :
    Prog.Along (Checked loads args) (fun tr' result => NoMove tr tr' ∧ (result = .ok true →
      ∃ resp rest, tr' = ⟨.team_info dest, .response resp⟩ :: rest ∧ resp.status_code = 200)) tr
      (confirm args known dest).run := by
  -- what `team_exists` asks, with whatever was sent before
  have hexists : ∀ {tr₁ : STrace}, NoMove tr tr₁ → Prog.Along (Checked loads args)
      (fun tr' result => NoMove tr tr' ∧ (result = .ok true →
        ∃ resp rest, tr' = ⟨.team_info dest, .response resp⟩ :: rest ∧ resp.status_code = 200)) tr₁
      (team_exists dest).run := by
    intro tr₁ hno reply
    have hone : NoMove tr (⟨.team_info dest, reply⟩ :: tr₁) := hno.cons fun _ _ h => by cases h
    refine ⟨trivial, ?_⟩
    cases reply with
    | transport_error => exact ⟨hone, fun h => by cases h⟩
    | response resp =>
      refine ⟨hone, fun h => ⟨resp, tr₁, rfl, ?_⟩⟩
      exact beq_iff_eq.mp (Except.ok.inj h)
  unfold confirm
  split
  · exact hexists .refl
  -- the team is created first, and then looked up like a known one
  · intro reply
    refine ⟨happly, ?_⟩
    have hone : ∀ payload, NoMove tr ((⟨.team_new payload, reply⟩ : Event Send SendAns) :: tr) :=
      fun payload => NoMove.refl.cons fun _ _ h => by cases h
    cases reply with
    | transport_error => exact ⟨hone _, fun h => by cases h⟩
    | response resp =>
      refine along_still_bind (still_ite (still_throw _) (still_pure _)) (fun _ _ => hexists (hone _))
        fun e => ⟨hone _, fun h => by cases h⟩

/-- What a step of the loop leaves behind. -/
def StepEnds (tr tr' : STrace) (result : Except Raised Progress) : Prop :=
  tr <:+ tr' ∧ ∀ p', result = .ok p' → Told tr' p'

theorem step_error {e : Raised} (hs : tr <:+ tr') : StepEnds tr tr' (.error e) :=
  ⟨hs, fun p' hok => by cases hok⟩

theorem step_kept {p p' : Progress} (h : Told tr p) (hno : NoMove tr tr') (hmoved : p'.moved = p.moved) :
    StepEnds tr tr' (.ok p') := by
  refine ⟨hno.1, fun p'' hok => ?_⟩
  cases hok
  exact h.kept hno hmoved

/-- A row whose key may be moved, and that was listed. -/
def Movable (loads : String → Option Json) (args : Args) (row : Json) (dest : String) (tr : STrace) :
    Prop :=
  ListedIn row tr ∧ classify loads row args.team_prefix = .ok (.move dest)

theorem move_key_along (happly : args.apply = true) {row : Json} {token dest : String}
    (hrow : Movable loads args row dest tr) (htoken : get row "token" = .ok (.str token))
    (hne : token ≠ "") (label : Label) (before : Option Nat) {p : Progress} (hp : Told tr p) :
    Prog.Along (Checked loads args) (StepEnds tr) tr (move_key args label token dest before p).run := by
  -- the confirmation may fail, and then nothing is moved
  refine along_run_bind (attempt_along (confirm_along happly _ dest)
    (S := fun tr' result => NoMove tr tr' ∧ (result = .ok (.ok true) →
      ∃ resp rest, tr' = ⟨.team_info dest, .response resp⟩ :: rest ∧ resp.status_code = 200))
    ?_ ?_ ?_) ?_ ?_
  · rintro tr' a ⟨hno, hconfirmed⟩
    exact ⟨hno, fun hok => hconfirmed (Except.ok.inj hok)⟩
  · rintro tr' e ⟨hno, -⟩
    exact ⟨hno, fun hok => by cases hok⟩
  · rintro tr' e ⟨hno, -⟩
    exact ⟨hno, fun hok => by cases hok⟩
  · rintro tr₁ result ⟨hno, hconfirmed⟩
    match result with
    | .error e => exact step_kept hp hno rfl
    | .ok false => exact step_kept hp hno rfl
    | .ok true =>
      obtain ⟨resp, rest, rfl, hstatus⟩ := hconfirmed rfl
      -- the row was classified as one to be moved, hence as ours
      obtain ⟨fields, md, rfl, hours⟩ := ours_of_move hrow.2 htoken hne
      have hlisted := hrow.1.mono hno.1.subset
      have hbefore : Told (⟨.team_info dest, .response resp⟩ :: rest) p := hp.kept hno rfl
      intro reply
      refine ⟨⟨happly, ⟨fields, md, hlisted, hours, hrow.2⟩, resp, rest, rfl, hstatus⟩, ?_⟩
      have hs := hno.1.trans (List.suffix_cons (⟨.key_update token dest, reply⟩ : Event Send SendAns) _)
      cases reply with
      | transport_error =>
        refine ⟨hs, fun p' hok => ?_⟩
        cases hok
        exact hbefore.refused (fun _ h => by cases h) rfl
      | response updated =>
        show Prog.Along _ _ _ (ExceptT.run (if !updated.is_success then _ else _))
        split
        · next hrefused =>
          refine ⟨hs, fun p' hok => ?_⟩
          cases hok
          refine hbefore.refused (fun resp' h => ?_) rfl
          cases h
          simpa using hrefused
        · refine ⟨hs, fun p' hok => ?_⟩
          cases hok
          exact hbefore.moved (label, before)
  · rintro tr' e ⟨hno, -⟩
    exact step_error hno.1

/-- One row of the applying loop. -/
theorem apply_row_along (happly : args.apply = true) {row : Json} {dest : String}
    (hrow : Movable loads args row dest tr) {p : Progress} (hp : Told tr p) :
    Prog.Along (Checked loads args) (StepEnds tr) tr (apply_row loads args row dest p).run := by
  refine along_still_bind (still_pure_step _) (fun label _ => ?_) fun _ => step_error List.suffix_rfl
  refine along_still_bind (still_pure_step _) (fun token htoken => ?_)
    fun _ => step_error List.suffix_rfl
  cases token with
  | null | bool | num | arr | obj => exact step_kept hp .refl rfl
  | str token =>
    show Prog.Along _ _ _ (ExceptT.run (if token = "" then _ else _))
    split
    · exact step_kept hp .refl rfl
    next hne =>
    refine along_run_bind (model_count_along token) ?_ fun _ _ hno => step_error hno.1
    intro tr₁ before hno
    have hrow₁ : Movable loads args row dest tr₁ := ⟨hrow.1.mono hno.1.subset, hrow.2⟩
    refine along_mono (fun _ _ h => h) ?_ (move_key_along happly hrow₁ (pure_step_ok htoken) hne label
      before (hp.kept hno rfl))
    rintro tr' result ⟨hs, htold⟩
    exact ⟨hno.1.trans hs, htold⟩

/-- The whole loop. -/
theorem apply_rows_along (happly : args.apply = true) {planned : List (Json × String)}
    (hplanned : ∀ row dest, (row, dest) ∈ planned → Movable loads args row dest tr) {p : Progress}
    (hp : Told tr p) :
    Prog.Along (Checked loads args) (StepEnds tr) tr (apply_rows loads args planned p).run := by
  induction planned generalizing p tr with
  | nil => exact step_kept hp .refl rfl
  | cons first planned ih =>
    obtain ⟨row, dest⟩ := first
    refine along_run_bind (apply_row_along happly (hplanned row dest List.mem_cons_self) hp) ?_
      fun _ _ h => step_error h.1
    rintro tr₁ p₁ ⟨hs, htold⟩
    refine along_mono (fun _ _ h => h) ?_ (ih (fun row' dest' hmem => ?_) (htold p₁ rfl))
    · rintro tr' result ⟨hs', htold'⟩
      exact ⟨hs.trans hs', htold'⟩
    · obtain ⟨hlisted, hclass⟩ := hplanned row' dest' (List.mem_cons_of_mem _ hmem)
      exact ⟨hlisted.mono hs.subset, hclass⟩

theorem recount_along (moved : List (Label × String × Option Nat)) :
    Prog.Along (Checked loads args) (fun tr' _ => NoMove tr tr') tr (recount moved).run := by
  induction moved generalizing tr with
  | nil => exact .refl
  | cons first moved ih =>
    obtain ⟨label, token, before⟩ := first
    refine along_run_bind (model_count_along token) ?_ fun _ _ hno => hno
    intro tr₁ _ hno
    show Prog.Along _ _ _ (ExceptT.run (if label.pads = true then _ else _))
    split
    · exact along_mono (fun _ _ h => h) (fun _ _ hno' => hno.trans hno') ih
    · exact hno

/-- What a report says: what is planned was listed and is to be moved, and
    every key that was moved is in it. -/
def Reported (loads : String → Option Json) (args : Args) (tr : STrace) (report : Report) : Prop :=
  (∀ row dest, (row, dest) ∈ report.planned → Movable loads args row dest tr) ∧
  ∀ token dest resp, (⟨.key_update token dest, .response resp⟩ : Event Send SendAns) ∈ tr →
    resp.is_success = true → token ∈ report.moved.map (·.2.1)

theorem Reported.mono {report : Report} (h : Reported loads args tr report) (hno : NoMove tr tr') :
    Reported loads args tr' report := by
  obtain ⟨hplanned, hmoved⟩ := h
  refine ⟨fun row dest hmem => ?_, fun token dest resp hmem hok => ?_⟩
  · obtain ⟨hlisted, hclass⟩ := hplanned row dest hmem
    exact ⟨hlisted.mono hno.1.subset, hclass⟩
  · rcases hno.2 _ hmem with hmem | hother
    · exact hmoved token dest resp hmem hok
    · exact absurd rfl (hother token dest)

theorem migrate_along {rows : List Json} (hrows : ∀ row ∈ rows, ListedIn row tr) (hno : NoMove [] tr) :
    Prog.Along (Checked loads args) (fun tr' result => ∀ report, result = .ok report →
      Reported loads args tr' report) tr (migrate loads args rows).run := by
  have herr : ∀ {tr' : STrace} (e : Raised), ∀ report, (.error e : Except Raised Report) = .ok report →
      Reported loads args tr' report := fun e report hok => by cases hok
  refine along_run_bind (along_reads (plan_rows_along args.team_prefix rows ⟨[], [], []⟩)) ?_
    fun _ e _ => herr e
  rintro tr₁ plan ⟨hplan, hno₁⟩
  -- what is planned was listed and classified
  have hplanned : ∀ row dest, (row, dest) ∈ plan.planned → Movable loads args row dest tr₁ := by
    intro row dest hmem
    obtain ⟨hrow, hclass⟩ := (hplan plan rfl row dest hmem).resolve_left List.not_mem_nil
    exact ⟨(hrows row hrow).mono hno₁.1.subset, hclass⟩
  have hnone : ∀ token dest resp,
      (⟨.key_update token dest, .response resp⟩ : Event Send SendAns) ∉ tr₁ := by
    intro token dest resp hmem
    exact ((hno.trans hno₁).2 _ hmem).elim List.not_mem_nil fun hother => hother token dest rfl
  refine along_still_bind (still_pure_step _) (fun _ _ => ?_) herr
  show Prog.Along _ _ _ (ExceptT.run (if !args.apply then _ else _))
  split
  -- a dry run ends here, and has sent no update
  · intro report hok
    cases hok
    exact ⟨hplanned, fun token dest resp hmem _ => absurd hmem (hnone token dest resp)⟩
  next hflag =>
  have happly : args.apply = true := by simpa using hflag
  have hnothing : Told tr₁ ⟨plan.known_teams, plan.skipped, []⟩ :=
    fun token dest resp hmem _ => absurd hmem (hnone token dest resp)
  refine along_run_bind (apply_rows_along happly hplanned hnothing) ?_ fun _ e _ => herr e
  rintro tr₂ p ⟨hs, htold⟩
  have hreport : Reported loads args tr₂ ⟨plan.planned, p.skipped, p.moved⟩ := by
    refine ⟨fun row dest hmem => ?_, htold p rfl⟩
    obtain ⟨hlisted, hclass⟩ := hplanned row dest hmem
    exact ⟨hlisted.mono hs.subset, hclass⟩
  show Prog.Along _ _ _ (ExceptT.run (if _ then _ else _))
  split
  · intro report hok
    cases hok
    exact hreport
  · refine along_run_bind (recount_along p.moved) ?_ fun _ e _ => herr e
    intro tr₃ _ hno₃ report hok
    cases hok
    exact hreport.mono hno₃

/-- Every run keeps to the contract. -/
theorem main_along :
    Prog.Along (Checked loads args) (fun tr' ending => ∀ report, ending = .report report →
      Reported loads args tr' report) [] (main loads args) := by
  unfold main
  split
  · exact fun report h => by cases h
  refine along_bind (along_reads (fetch_pages_along args.email 200 1 [])) ?_
  rintro tr₁ result ⟨hfetched, hno⟩
  cases result with
  | error e => cases e <;> exact fun report h => by cases h
  | ok rows =>
    have hrows : ∀ row ∈ rows, ListedIn row tr₁ :=
      fun row hrow => (hfetched rows rfl row hrow).resolve_left List.not_mem_nil
    refine along_bind (migrate_along hrows hno) ?_
    intro tr₂ result hresult
    cases result with
    | error e => exact fun report h => by cases h
    | ok report =>
      intro report' h
      cases h
      exact hresult report rfl

end steps

/-! ## Runs -/

section runs

/-- What a run sends: keys are moved as `Checked` says, and without `--apply`
    nothing is written. -/
structure SafeSends (args : Args) (xs : List (Exchange Send SendAns)) : Prop where
  checked : ∀ x ys, x :: ys <:+ xs → Checked loads args (ys.map Exchange.event) x.event
  dry : args.apply = false → ∀ x ∈ xs, x.op.reads = true

/-- What a run has changed: a later run, with whatever other options and
    answers, plans no move for a key that was moved, and however it ends, it
    sends none while it finds the key in one row only; a key whose update failed
    is in its old team, and so is a planned key that is not reported as moved. -/
structure SafeMoves (args : Args) (xs : List (Exchange Send SendAns)) (ending : Ending) : Prop where
  again : ∀ fields fields' dest, MovedIn loads args.team_prefix fields dest (xs.map Exchange.event) →
    RowAfter loads args.team_prefix (xs.map Exchange.event) fields fields' →
    ∀ (args' : Args) xs' report, args'.team_prefix = args.team_prefix →
      Service.anyone.Runs () [] (main loads args') () xs' (.report report) →
      ∀ dest', (.obj fields', dest') ∉ report.planned
  unsent : ∀ fields fields' dest token,
    MovedIn loads args.team_prefix fields dest (xs.map Exchange.event) →
    RowAfter loads args.team_prefix (xs.map Exchange.event) fields fields' →
    ∀ (args' : Args) xs' ending', args'.team_prefix = args.team_prefix →
      Service.anyone.Runs () [] (main loads args') () xs' ending' →
      (∀ row, ListedIn (.obj row) (xs'.map Exchange.event) → field row "token" = .str token →
        row = fields') → ∀ x ∈ xs', ∀ dest', x.op ≠ .key_update token dest'
  failed : ∀ fields fields' token, field fields "token" = .str token →
    (∀ dest resp, (⟨.key_update token dest, .response resp⟩ : Event Send SendAns) ∈
      xs.map Exchange.event → resp.is_success = false) →
    RowAfter loads args.team_prefix (xs.map Exchange.event) fields fields' → fields' = fields
  left : ∀ report, ending = .report report → ∀ fields fields' dest token,
    (.obj fields, dest) ∈ report.planned → field fields "token" = .str token →
    token ∉ report.moved.map (·.2.1) →
    RowAfter loads args.team_prefix (xs.map Exchange.event) fields fields' → fields' = fields

variable {loads} {args : Args} {xs : List (Exchange Send SendAns)}

theorem dry_of_checked (h : ∀ x ys, x :: ys <:+ xs → Checked loads args (ys.map Exchange.event) x.event)
    (hdry : args.apply = false) : ∀ x ∈ xs, x.op.reads = true := by
  intro x hx
  obtain ⟨later, ys, rfl⟩ := List.append_of_mem hx
  have hchecked := h x ys (List.suffix_append _ _)
  obtain ⟨op, reply, effective⟩ := x
  cases op with
  | key_update token dest =>
    have happly : args.apply = true := hchecked.1
    rw [hdry] at happly
    cases happly
  | team_new payload =>
    have happly : args.apply = true := hchecked
    rw [hdry] at happly
    cases happly
  | key_list | team_info | models => rfl

/-- A row that was moved is not to be moved again. -/
theorem moved_not_classified {fields fields' : Dict} {dest dest' teamPrefix : String} {tr : STrace}
    (hmoved : MovedIn loads teamPrefix fields dest tr)
    (hafter : RowAfter loads teamPrefix tr fields fields') :
    classify loads (.obj fields') teamPrefix ≠ .ok (.move dest') := by
  rcases hafter with ⟨dest₁, hmoved₁, rfl⟩ | ⟨hno, -⟩
  · rw [classify_there hmoved₁.1]
    intro hagain
    cases hagain
  · exact absurd hmoved (hno dest)

/-- A row whose updates have all failed is as it was. -/
theorem unmoved_of_failed {fields fields' : Dict} {token teamPrefix : String} {tr : STrace}
    (htoken : field fields "token" = .str token)
    (hfailed : ∀ dest resp, (⟨.key_update token dest, .response resp⟩ : Event Send SendAns) ∈ tr →
      resp.is_success = false)
    (hafter : RowAfter loads teamPrefix tr fields fields') : fields' = fields := by
  rcases hafter with ⟨dest, ⟨-, token', resp, htoken', hmem, hok⟩, -⟩ | ⟨-, rfl⟩
  · rw [htoken] at htoken'
    cases htoken'
    rw [hfailed dest resp hmem] at hok
    cases hok
  · rfl

theorem checked_of_runs {ending : Ending}
    (h : Service.anyone.Runs () [] (main loads args) () xs ending) (x : Exchange Send SendAns)
    (ys : List (Exchange Send SendAns)) (hs : x :: ys <:+ xs) :
    Checked loads args (ys.map Exchange.event) x.event :=
  ((Service.runs_along h main_along).2 x ys hs).resolve_left fun hnil =>
    absurd hnil.length_le (by simp)

/-- An update is for a listed row that is to be moved. -/
theorem update_planned {ending : Ending} {token dest : String}
    (h : Service.anyone.Runs () [] (main loads args) () xs ending) {x : Exchange Send SendAns}
    (hx : x ∈ xs) (hop : x.op = .key_update token dest) :
    ∃ fields, ListedIn (.obj fields) (xs.map Exchange.event) ∧ field fields "token" = .str token ∧
      classify loads (.obj fields) args.team_prefix = .ok (.move dest) := by
  obtain ⟨later, ys, rfl⟩ := List.append_of_mem hx
  have hchecked := checked_of_runs h x ys (List.suffix_append _ _)
  obtain ⟨op, reply, effective⟩ := x
  obtain rfl : op = .key_update token dest := hop
  obtain ⟨-, ⟨fields, md, hlisted, hours, hclass⟩, -⟩ := hchecked
  refine ⟨fields, hlisted.mono fun e he => ?_, hours.addressed, hclass⟩
  rw [List.map_append, List.map_cons]
  exact List.mem_append_right _ (List.mem_cons_of_mem _ he)

/-- Every run is safe, whatever LiteLLM lists and answers, and a second run
    finds nothing to do for the keys it moved. -/
theorem migration_safe (loads : String → Option Json) (args : Args)
    (xs : List (Exchange Send SendAns)) (ending : Ending)
    (h : Service.anyone.Runs () [] (main loads args) () xs ending) :
    SafeSends loads args xs ∧ SafeMoves loads args xs ending := by
  obtain ⟨hreport, -⟩ := Service.runs_along h main_along
  refine ⟨⟨checked_of_runs h, dry_of_checked (checked_of_runs h)⟩, ?_, ?_, ?_, ?_⟩
  · intro fields fields' dest hmoved hafter args' xs' report hteams hsecond dest' hplanned
    obtain ⟨hreport', -⟩ := Service.runs_along hsecond main_along
    have hagain := ((hreport' report rfl).1 _ _ hplanned).2
    rw [hteams] at hagain
    exact moved_not_classified hmoved hafter hagain
  · intro fields fields' dest token hmoved hafter args' xs' ending' hteams hsecond hrow x hx dest' hop
    obtain ⟨row, hlisted, htoken, hclass⟩ := update_planned hsecond hx hop
    rw [hrow row hlisted htoken, hteams] at hclass
    exact moved_not_classified hmoved hafter hclass
  · intro fields fields' token htoken hfailed hafter
    exact unmoved_of_failed htoken hfailed hafter
  · intro report hending fields fields' dest token _ htoken hunmoved hafter
    refine unmoved_of_failed htoken (fun dest resp hmem => ?_) hafter
    by_contra hok
    rw [Bool.not_eq_false] at hok
    exact hunmoved ((hreport report hending).2 token dest resp hmem hok)

end runs

/-! A key of Ann is moved; her team has to be created first. -/

def ann_row : Dict :=
  [("token", .str "hash"), ("user_id", .str " Ann@Example.com"), ("team_id", .str "default"),
    ("metadata", .obj [("source", .str "token-factory")])]

def ann_args : Args where
  apply := true
  email := none
  litellm_url := some "http://litellm"
  master_key := some "sk-master"
  team_prefix := "user-"
  max_budget := none
  budget_duration := none
  settle := 0

def ann_answers : List (Bool × ((op : Send) → SendAns op)) :=
  let reply (status_code : Nat) (body : Json) (_ : Send) : HttpReply := .response ⟨status_code, "", some body⟩
  [(true, reply 200 (.obj [("keys", .arr [.obj ann_row])])), (true, reply 404 (.obj [])),
    (true, reply 200 (.obj [("data", .arr [])])), (true, reply 200 (.obj [])), (true, reply 200 (.obj [])),
    (true, reply 200 (.obj []))]

theorem migration_safe_sample : ∃ xs report,
    Service.anyone.Runs () [] (main (fun _ => none) ann_args) () xs (.report report) ∧
    report.moved.map (·.2.1) = ["hash"] ∧
    SafeSends (fun _ => none) ann_args xs ∧ SafeMoves (fun _ => none) ann_args xs (.report report) := by
  have hplay : ∃ xs report, Service.anyone.play (fun _ _ _ _ => true) () []
      (main (fun _ => none) ann_args) ann_answers = some ((), xs, .report report) ∧
      report.moved.map (·.2.1) = ["hash"] := ⟨_, _, rfl, rfl⟩
  obtain ⟨xs, report, hplay, hmoved⟩ := hplay
  have hrun := Service.runs_of_play (fun _ _ _ _ _ => trivial) hplay
  exact ⟨xs, report, hrun, hmoved, migration_safe _ _ _ _ hrun⟩

end AlitellmAuth.Scripts
