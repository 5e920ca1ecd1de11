import AlitellmAuth.Litellm.KeyRows

/-! # Does a user exist?

    `get_litellm_user` asks `/user/info`, and asks `/user/list` if the answer
    names no user. Sessions, the admin routes and the backfill rest on it.

    * `info_record`, `list_record`: the user records in the two answers.
    * `verdict`: what the records say.
    * `Follows`: the function reports that, and so does `_user_exists`.
    * `follows_iff`: exactly when it does. A null `user_info` is read as if it
      were absent, so that the object around it counts as the user.
-/

namespace AlitellmAuth.Litellm

open Interleave

/-! ## The records -/

/-- A record that is neither the placeholder nor anonymous. -/
def real (info : Dict) : Bool := !is_placeholder info

/-- The user record in a `/user/info` body: in `user_info`, or the object itself
    if it has no such field. -/
def info_record : Json → Option Dict
  | .obj data =>
      match data.lookup "user_info" with
      | some (.obj info) => if real info then some info else none
      | some _ => none
      | none => if real data then some data else none
  | _ => none

/-- The `users` of a `/user/list` body, or the body itself. -/
def users_value : Json → Json
  | .obj fields => (fields.lookup "users").getD (.obj fields)
  | payload => payload

/-- A row for exactly this email. -/
def row_for (email : String) : Json → Option Dict
  | .obj u => if is_text (field u "user_email") email then some u else none
  | _ => none

/-- The user record in a `/user/list` body. -/
def list_record (email : String) (body : Json) : Option Dict :=
  match users_value body with
  | .arr rows => rows.findSome? (row_for email)
  | _ => none

/-- What the two answers say about a user. -/
inductive Verdict where
  | missing
  | failed
  | record (row : Dict)

/-- What `/user/list` says. -/
def list_verdict (email : String) (list : HttpResponse) : Verdict :=
  if list.is_success then
    match list.json.bind (list_record email) with
    | some row => .record row
    | none => .missing
  else .failed

/-- `/user/list` counts if `/user/info` has no record. -/
def verdict (email : String) (info list : HttpResponse) : Verdict :=
  if info.status_code = 404 then list_verdict email list
  else if info.is_success then
    match info.json.bind info_record with
    | some row => .record row
    | none => list_verdict email list
  else .failed

/-! ## The code -/

/-- `_user_exists`. -/
def user_exists (settings : LitellmSettings) (sub : String) : L Bool :=
  tryCatch (do
    let _ ← get_litellm_user settings sub
    return true) fun
    | .not_found => return false
    | e => throw e

section
variable (settings : LitellmSettings) (answer : Call → HttpReply) (email : String)

/-- `get_litellm_user` reports what the records say. -/
def Follows : Verdict → Prop
  | .missing =>
      outcome answer (get_litellm_user settings email) = .error .not_found ∧
        outcome answer (user_exists settings email) = .ok false
  | .failed =>
      ∃ endpoint resp,
        outcome answer (get_litellm_user settings email) = .error (.status endpoint resp)
  | .record row =>
      ∃ user, outcome answer (normalize_user settings row email) = .ok user ∧
        outcome answer (get_litellm_user settings email) = .ok user

/-! ## When it does -/

/-- A record that can be projected: its metadata is a dictionary, or is not
    needed. -/
def Projects (row : Dict) : Prop :=
  (parse_metadata settings (field row "metadata")).isObj = true ∨
    ((field row "user_email").truthy = true ∧ (field row "user_alias").truthy = true)

/-- A value that `for u in (users or [])` goes through. -/
def Iterates (users : Json) : Prop :=
  users.truthy = true → (∃ rows, users = .arr rows) ∨ (∃ s, users = .str s) ∨ ∃ fields, users = .obj fields

/-- If the list was served, it can be gone through, and the row that is found
    can be projected. -/
def ListReads (list : HttpResponse) (body : Json) : Prop :=
  list.is_success = true → Iterates (users_value body) ∧
    ∀ row, list_record email body = some row → Projects settings row

/-- `user_info` is there but no object, and the object around it names a
    user. -/
def shadow : Json → Option Dict
  | .obj data =>
      match data.lookup "user_info" with
      | some (.obj _) => none
      | some _ => if real data then some data else none
      | none => none
  | _ => none

/-- The records can be read, and no object counts as a user in the place of a
    null `user_info`. (It does no harm if the list has a row that reads the
    same.) -/
def Legible (info list : HttpResponse) (info_body list_body : Json) : Prop :=
  if info.status_code = 404 then ListReads settings email list list_body
  else if info.is_success then
    match shadow info_body, info_record info_body with
    | some data, _ => list.is_success = true ∧ ∃ row, list_record email list_body = some row ∧
        Projects settings row ∧ normalize_user settings row email = normalize_user settings data email
    | none, some row => Projects settings row
    | none, none => ListReads settings email list list_body
  else True

/-! ## What the code does -/

variable {settings answer email}

theorem normalize_user_iff (row : Dict) :
    (∃ user, outcome answer (normalize_user settings row email) = .ok user) ↔
      Projects settings row := by
  -- a field that is set is taken as it is; else the metadata is read
  have hread (key other : String) :
      (∃ value, outcome answer
        (or_metadata row key (parse_metadata settings (field row "metadata")) other) = .ok value) ↔
      (parse_metadata settings (field row "metadata")).isObj = true ∨
        (field row key).truthy = true := by
    unfold or_metadata
    cases htruthy : (field row key).truthy with
    | true => exact iff_of_true ⟨_, rfl⟩ (.inr rfl)
    | false =>
      cases parse_metadata settings (field row "metadata") with
      | obj md => exact iff_of_true ⟨_, rfl⟩ (.inl rfl)
      | null | bool | num | str | arr =>
        refine iff_of_false ?_ (by simp [Json.isObj])
        rintro ⟨value, hvalue⟩
        cases hvalue
  unfold Projects
  constructor
  · rintro ⟨user, h⟩
    obtain ⟨mail, hmail, h⟩ := outcome_bind_inv h
    obtain ⟨name, hname, -⟩ := outcome_bind_inv h
    have h1 := (hread "user_email" "email").mp ⟨mail, hmail⟩
    have h2 := (hread "user_alias" "name").mp ⟨name, hname⟩
    tauto
  · intro h
    obtain ⟨mail, hmail⟩ := (hread "user_email" "email").mpr (by tauto)
    obtain ⟨name, hname⟩ := (hread "user_alias" "name").mpr (by tauto)
    unfold normalize_user
    dsimp only
    rw [outcome_bind_ok answer hmail, outcome_bind_ok answer hname]
    exact ⟨_, rfl⟩

/-- A projection can only fail with an exception. -/
theorem normalize_user_crashes {row : Dict} {e : Failure}
    (h : outcome answer (normalize_user settings row email) = .error e) : e = .crashed := by
  -- only the metadata can fail, by not being a dictionary
  have hread {key other : String} {metadata : Json} {e : Failure}
      (h : outcome answer (or_metadata row key metadata other) = .error e) : e = .crashed := by
    unfold or_metadata at h
    split at h
    · cases h
    · cases metadata with
      | obj md => cases h
      | null | bool | num | str | arr =>
        cases h
        rfl
  unfold normalize_user at h
  dsimp only at h
  rw [outcome_bind_eq] at h
  cases hmail : outcome answer (or_metadata row "user_email"
      (parse_metadata settings (field row "metadata")) "email") with
  | error e' =>
    rw [hmail] at h
    cases h
    exact hread hmail
  | ok mail =>
    rw [hmail] at h
    change outcome answer (or_metadata row "user_alias" _ "name" >>= _) = _ at h
    rw [outcome_bind_eq] at h
    cases hname : outcome answer (or_metadata row "user_alias"
        (parse_metadata settings (field row "metadata")) "name") with
    | error e' =>
      rw [hname] at h
      cases h
      exact hread hname
    | ok name =>
      rw [hname] at h
      cases h

/-- Functions that send nothing are their results. -/
theorem still_eq {α : Type} {p q : L α} (hp : Still p) (hq : Still q)
    (h : outcome answer p = outcome answer q) : p = q := by
  obtain ⟨x, hx⟩ := hp
  obtain ⟨y, hy⟩ := hq
  unfold outcome at h
  rw [hx, hy] at h
  have hxy : x = y := h
  exact hx.trans (hxy ▸ hy.symm)

/-- Going through the users finds the row for the email, if there is one. -/
theorem iterate_users {users : Json} :
    outcome answer (iterate users) = .error .crashed ∧ ¬ Iterates users ∨
      ∃ rows, outcome answer (iterate users) = .ok rows ∧ Iterates users ∧
        rows.findSome? (row_for email) = match users with
          | .arr items => items.findSome? (row_for email)
          | _ => none := by
  unfold iterate Iterates
  cases htruthy : users.truthy with
  | false =>
    refine .inr ⟨[], rfl, by simp, ?_⟩
    cases users with
    | arr items =>
      cases items with
      | nil => rfl
      | cons x xs => cases htruthy
    | null | bool | num | str | obj => rfl
  | true =>
    cases users with
    | arr items => exact .inr ⟨items, rfl, by simp, rfl⟩
    -- a text is iterated by characters and a dictionary by keys: none is a row
    | str s =>
      refine .inr ⟨_, rfl, by simp, ?_⟩
      rw [List.findSome?_eq_none_iff]
      intro x hx
      obtain ⟨c, -, rfl⟩ := List.mem_map.mp hx
      rfl
    | obj fields =>
      refine .inr ⟨_, rfl, by simp, ?_⟩
      rw [List.findSome?_eq_none_iff]
      intro x hx
      obtain ⟨f, -, rfl⟩ := List.mem_map.mp hx
      rfl
    | null | bool | num => exact .inl ⟨rfl, by simp⟩

/-- What is done with the body of `/user/list`. -/
def pick_user (settings : LitellmSettings) (email : String) (body : Json) : L Dict := do
  let rows ← iterate (users_value body)
  match rows.findSome? (row_for email) with
  | none => throw .not_found
  | some row => normalize_user settings row email

theorem user_by_email_eq :
    user_by_email settings email = (do
      let list_resp ← request (.user_list email)
      expect list_resp.is_success "/user/list fallback" list_resp
      pick_user settings email (← list_resp.parsed)) := by
  unfold user_by_email
  congr 1
  funext list_resp
  congr 1
  funext _
  congr 1
  funext payload
  cases payload <;> rfl

theorem pick_user_outcome (body : Json) :
    (¬ Iterates (users_value body) ∧ outcome answer (pick_user settings email body) =
        .error .crashed) ∨
      (Iterates (users_value body) ∧
        outcome answer (pick_user settings email body) = match list_record email body with
          | some row => outcome answer (normalize_user settings row email)
          | none => .error .not_found) := by
  unfold pick_user
  rcases @iterate_users answer email (users_value body) with
    ⟨hcrash, hnot⟩ | ⟨rows, hrows, hgoes, hfind⟩
  · exact .inl ⟨hnot, outcome_bind_error answer hcrash⟩
  · refine .inr ⟨hgoes, ?_⟩
    rw [outcome_bind_ok answer hrows]
    have hrecord : list_record email body = rows.findSome? (row_for email) := hfind.symm
    rw [hrecord]
    cases rows.findSome? (row_for email) with
    | none => rfl
    | some row => rfl

/-- What `/user/list` is read as. -/
theorem user_by_email_outcome {list : HttpResponse} {body : Json}
    (hans : answer (.user_list email) = .response list) (hbody : list.json = some body) :
    outcome answer (user_by_email settings email) =
      if list.is_success then outcome answer (pick_user settings email body)
      else .error (.status "/user/list fallback" list) := by
  rw [user_by_email_eq, outcome_bind_ok answer (outcome_request answer hans)]
  cases hok : list.is_success with
  | false => exact outcome_bind_error answer rfl
  | true =>
    have hparsed : outcome answer list.parsed = .ok body := by
      rw [HttpResponse.parsed, hbody]
      rfl
    rw [outcome_bind_ok (a := ()) answer rfl, outcome_bind_ok answer hparsed]
    rfl

/-- The record that the code takes from `/user/info`. -/
def code_record (body : Json) : Option Dict :=
  if (unwrap_user_info body).isEmpty || is_placeholder (unwrap_user_info body) then none
  else some (unwrap_user_info body)

theorem real_ne_nil {info : Dict} (h : real info = true) : info.isEmpty = false := by
  cases info with
  | nil => exact absurd h (by decide)
  | cons f info => rfl

/-- It is the record that is there, or the object that shadows it. -/
theorem code_record_eq (body : Json) : code_record body = (shadow body).or (info_record body) := by
  -- the code rejects what is empty or a placeholder
  have htake (info : Dict) : (if info.isEmpty || is_placeholder info then none else some info) =
      if real info then some info else none := by
    cases hreal : real info with
    | true =>
      have hplaceholder : is_placeholder info = false := by simpa [real] using hreal
      rw [real_ne_nil hreal, hplaceholder]
      rfl
    | false =>
      have hplaceholder : is_placeholder info = true := by simpa [real] using hreal
      rw [hplaceholder, Bool.or_true]
      rfl
  unfold code_record
  rw [htake]
  cases body with
  | obj data =>
    cases hvalue : data.lookup "user_info" with
    | none =>
      simp only [unwrap_user_info, shadow, info_record, hvalue]
      rfl
    | some value =>
      cases value with
      | obj info =>
        simp only [unwrap_user_info, shadow, info_record, hvalue]
        rfl
      | null | bool | num | str | arr =>
        simp only [unwrap_user_info, shadow, info_record, hvalue]
        cases real data <;> rfl
  | null | bool | num | str | arr => rfl

theorem info_record_shadow {body : Json} {data : Dict} (h : shadow body = some data) :
    info_record body = none := by
  cases body with
  | obj fields =>
    cases hvalue : fields.lookup "user_info" with
    | none =>
      simp only [shadow, hvalue] at h
      cases h
    | some value =>
      cases value with
      | obj info =>
        simp only [shadow, hvalue] at h
        cases h
      | null | bool | num | str | arr => simp only [info_record, hvalue]
  | null | bool | num | str | arr => cases h

theorem get_litellm_user_outcome {info : HttpResponse} {body : Json}
    (hans : answer (.user_info email) = .response info) (hbody : info.json = some body) :
    outcome answer (get_litellm_user settings email) =
      if info.status_code = 404 then outcome answer (user_by_email settings email)
      else if info.is_success then
        match code_record body with
        | some row => outcome answer (normalize_user settings row email)
        | none => outcome answer (user_by_email settings email)
      else .error (.status "/user/info" info) := by
  unfold get_litellm_user
  rw [outcome_bind_ok answer (outcome_request answer hans), outcome_bind_eq]
  unfold user_info_of
  split
  · rfl
  · cases hok : info.is_success with
    | false => rfl
    | true =>
      -- a success is parsed, and its record is taken if it is a real one
      have hparsed : outcome answer info.parsed = .ok body := by
        rw [HttpResponse.parsed, hbody]
        rfl
      rw [outcome_bind_ok (a := ()) answer rfl, outcome_bind_ok answer hparsed]
      show outcome answer (if (unwrap_user_info body).isEmpty ||
        is_placeholder (unwrap_user_info body) then _ else _) = _
      unfold code_record
      split
      · rfl
      · rfl

theorem user_exists_missing
    (h : outcome answer (get_litellm_user settings email) = .error .not_found) :
    outcome answer (user_exists settings email) = .ok false := by
  unfold outcome user_exists
  show @Prog.answered Call HttpAns _ answer ((ExceptT.run (do
    let _ ← get_litellm_user settings email
    return true)) >>= _) = _
  rw [Prog.answered_bind]
  have hbind : outcome answer (do
      let _ ← get_litellm_user settings email
      return true) = .error .not_found := outcome_bind_error answer h
  unfold outcome at hbind
  rw [hbind]
  rfl

/-! ## The answer of `/user/list` -/

section
variable {info list : HttpResponse} {info_body list_body : Json}

/-- Where the list decides, its verdict is followed exactly if it can be
    read. -/
theorem follows_list_iff
    (hget : outcome answer (get_litellm_user settings email) =
      outcome answer (user_by_email settings email))
    (hans : answer (.user_list email) = .response list) (hbody : list.json = some list_body) :
    Follows settings answer email (list_verdict email list) ↔
      ListReads settings email list list_body := by
  rw [user_by_email_outcome hans hbody] at hget
  unfold list_verdict ListReads
  rw [hbody]
  cases hok : list.is_success with
  | false =>
    rw [hok] at hget
    exact iff_of_true ⟨_, _, hget⟩ nofun
  | true =>
    rw [hok, if_pos rfl] at hget
    rw [if_pos rfl]
    show Follows settings answer email (match list_record email list_body with
      | some row => .record row
      | none => .missing) ↔ _
    rcases @pick_user_outcome settings answer email list_body with
      ⟨hnot, hout⟩ | ⟨hgoes, hout⟩
    · rw [hout] at hget
      -- the list cannot be iterated, which is neither found nor missing
      refine iff_of_false ?_ fun h => hnot (h rfl).1
      cases list_record email list_body with
      | none =>
        rintro ⟨hmissing, -⟩
        rw [hget] at hmissing
        cases hmissing
      | some row =>
        rintro ⟨user, -, huser⟩
        rw [hget] at huser
        cases huser
    · rw [hout] at hget
      cases hrecord : list_record email list_body with
      | none =>
        rw [hrecord] at hget
        exact iff_of_true ⟨hget, user_exists_missing hget⟩ fun _ => ⟨hgoes, nofun⟩
      | some row =>
        rw [hrecord] at hget
        show (∃ user, outcome answer (normalize_user settings row email) = .ok user ∧
          outcome answer (get_litellm_user settings email) = .ok user) ↔ _
        rw [hget]
        simp only [and_self]
        rw [normalize_user_iff]
        constructor
        · intro h _
          refine ⟨hgoes, fun row' hrow' => ?_⟩
          cases hrow'
          exact h
        · exact fun h => (h trivial).2 row rfl

/-- Where a record is taken from `/user/info`, it has to be projected. -/
theorem follows_record_iff {row : Dict}
    (hget : outcome answer (get_litellm_user settings email) =
      outcome answer (normalize_user settings row email)) :
    Follows settings answer email (.record row) ↔ Projects settings row := by
  show (∃ user, outcome answer (normalize_user settings row email) = .ok user ∧
    outcome answer (get_litellm_user settings email) = .ok user) ↔ _
  rw [hget]
  simp only [and_self]
  exact normalize_user_iff row

/-- Where an object shadows a null `user_info`, the list would have to say the
    same. -/
theorem follows_shadow_iff {data : Dict}
    (hget : outcome answer (get_litellm_user settings email) =
      outcome answer (normalize_user settings data email)) (hbody : list.json = some list_body) :
    Follows settings answer email (list_verdict email list) ↔
      (list.is_success = true ∧ ∃ row, list_record email list_body = some row ∧
        Projects settings row ∧
        normalize_user settings row email = normalize_user settings data email) := by
  unfold list_verdict
  rw [hbody]
  -- the body itself is taken as the record; the verdict is what the list says
  cases hok : list.is_success with
  | false =>
    refine iff_of_false ?_ (by simp)
    rintro ⟨endpoint, resp, hfail⟩
    rw [hget] at hfail
    cases normalize_user_crashes hfail
  | true =>
    rw [if_pos rfl]
    show Follows settings answer email (match list_record email list_body with
      | some row => .record row
      | none => .missing) ↔ _
    cases hrecord : list_record email list_body with
    | none =>
      refine iff_of_false ?_ (by simp)
      rintro ⟨hmissing, -⟩
      rw [hget] at hmissing
      cases normalize_user_crashes hmissing
    | some row =>
      show (∃ user, outcome answer (normalize_user settings row email) = .ok user ∧
        outcome answer (get_litellm_user settings email) = .ok user) ↔ _
      rw [hget]
      constructor
      · rintro ⟨user, hrow, hdata⟩
        refine ⟨rfl, row, rfl, (normalize_user_iff row).mp ⟨user, hrow⟩, ?_⟩
        exact still_eq (still_normalize_user _ _ _) (still_normalize_user _ _ _) (hrow.trans hdata.symm)
      · rintro ⟨-, row', hrow', hprojects, hsame⟩
        cases hrow'
        obtain ⟨user, huser⟩ := (@normalize_user_iff settings answer email row).mpr hprojects
        exact ⟨user, huser, by rw [← hsame, huser]⟩

/-- Existence is decided by the user records if and only if they can be read
    and no object takes the place of a null `user_info`. -/
theorem follows_iff (hinfo : answer (.user_info email) = .response info)
    (hinfo_body : info.json = some info_body) (hlist : answer (.user_list email) = .response list)
    (hlist_body : list.json = some list_body) :
    Follows settings answer email (verdict email info list) ↔
      Legible settings email info list info_body list_body := by
  have hget := @get_litellm_user_outcome settings _ _ _ _ hinfo hinfo_body
  unfold verdict Legible
  by_cases h404 : info.status_code = 404
  · rw [if_pos h404] at hget ⊢
    rw [if_pos h404]
    exact follows_list_iff hget hlist hlist_body
  rw [if_neg h404] at hget ⊢
  rw [if_neg h404]
  cases hok : info.is_success with
  | false =>
    rw [hok] at hget
    exact iff_of_true ⟨_, _, hget⟩ trivial
  | true =>
    rw [hok, if_pos rfl, code_record_eq] at hget
    rw [if_pos rfl, if_pos rfl, hinfo_body]
    show Follows settings answer email (match info_record info_body with
      | some row => .record row
      | none => list_verdict email list) ↔ _
    -- the body of `/user/info` that is no record may shadow the list
    cases hshadow : shadow info_body with
    | some data =>
      have hnone : info_record info_body = none := info_record_shadow hshadow
      rw [hshadow] at hget
      rw [hnone]
      exact follows_shadow_iff hget hlist_body
    | none =>
      rw [hshadow, Option.none_or] at hget
      cases hrecord : info_record info_body with
      | none =>
        rw [hrecord] at hget
        exact follows_list_iff hget hlist hlist_body
      | some row =>
        rw [hrecord] at hget
        exact follows_record_iff hget

end

end

/-! A user that is there, and one that is not. -/

/-- A response of LiteLLM. -/
def ok_response (body : Json) : HttpResponse := ⟨200, "", some body⟩

/-- The two answers. -/
def existence_answer (info list : Json) : Call → HttpReply
  | .user_info _ => .response (ok_response info)
  | .user_list _ => .response (ok_response list)
  | _ => .transport_error

theorem follows_sample :
    Follows key_settings
      (existence_answer (.obj [("user_info", .obj [("user_id", .str "ann@example.com")])])
        (.obj [("users", .arr [])])) "ann@example.com"
      (verdict "ann@example.com"
        (ok_response (.obj [("user_info", .obj [("user_id", .str "ann@example.com")])]))
        (ok_response (.obj [("users", .arr [])]))) := by
  refine (follows_iff rfl rfl rfl rfl).mpr ?_
  show Projects key_settings [("user_id", .str "ann@example.com")]
  exact .inl rfl

/-- LiteLLM knows no such user, but echoes the id it was asked for. -/
theorem echo_counts_as_user :
    ¬ ∀ (settings : LitellmSettings) (answer : Call → HttpReply) (email : String)
        (info list : HttpResponse) (info_body list_body : Json),
      answer (.user_info email) = .response info → info.json = some info_body →
      answer (.user_list email) = .response list → list.json = some list_body →
      Follows settings answer email (verdict email info list) := by
  intro h
  obtain ⟨hmissing, -⟩ := h key_settings
    (existence_answer (.obj [("user_id", .str "ann@example.com"), ("user_info", .null)])
      (.obj [("users", .arr [])]))
    "ann@example.com" _ _ _ _ rfl rfl rfl rfl
  cases hmissing

end AlitellmAuth.Litellm
