import AlitellmAuth.Litellm.Keys

/-! # The pages of the user listing

    `list_litellm_users` asks LiteLLM for one page after the other, from a page
    that the caller chooses, until a page is short or ten of them were read.

    * `list_litellm_users`: the loop, the normalisation and the email filter.
    * `Serves`: a LiteLLM whose list is fixed and is cut into pages.
    * `list_pages_spec`: what the loop has read, asked and logged.
    * `user_pages_exact`: the users that are returned.
-/

namespace AlitellmAuth.Litellm.Users

open Interleave

/-! ## The listing -/

/-- A request to `/user/list`. -/
structure UserPage where
  page : Nat
  page_size : Nat
  role : Option String

/-- What the listing does: a request, or one of its two warnings. -/
inductive UsersOp where
  | get (request : UserPage)
  | warn_shape
  | warn_truncated

/-- A request is replied to; a warning goes to the log. -/
@[reducible] def UsersAns : UsersOp → Type
  | .get _ => HttpReply
  | .warn_shape => Unit
  | .warn_truncated => Unit

def MAX_PAGES : Nat := 10

/-- `data.get("users", data) if isinstance(data, dict) else data`. -/
def users_of : Json → Json
  | .obj fields => (fields.lookup "users").getD (.obj fields)
  | data => data

/-- The users of a reply. -/
def page_users : HttpReply → Except Failure Json
  | .transport_error => .error .transport
  | .response resp =>
      if resp.is_success then
        match resp.json with
        | some data => .ok (users_of data)
        | none => .error .crashed
      else .error (.status "/user/list" resp)

/-- `u for u in page_users if isinstance(u, dict)`. -/
def objects (items : List Json) : List Dict :=
  items.filterMap fun
    | .obj u => some u
    | _ => none

/-- The role goes along if there is one. -/
def sent_role (role : Option String) : Option String := if role.getD "" = "" then none else role

/-- `params`. -/
def page_request (page page_size : Nat) (role : Option String) : UserPage :=
  ⟨page, page_size, sent_role role⟩

/-- The `while True` loop. The first argument bounds its rounds; the cap ends it
    before they are used up. -/
def list_pages (page page_size : Nat) (role : Option String) :
    Nat → Nat → List Dict → Prog UsersOp UsersAns (Except Failure (List Dict))
  | 0, _, accumulated => .ret (.ok accumulated)
  | rounds + 1, current_page, accumulated =>
      .call (.get (page_request current_page page_size role)) fun reply =>
        match page_users reply with
        | .error e => .ret (.error e)
        | .ok (.arr items) =>
            if items.length < page_size then .ret (.ok (accumulated ++ objects items))
            else if MAX_PAGES ≤ current_page + 1 - page then
              .call .warn_truncated fun _ => .ret (.ok (accumulated ++ objects items))
            else list_pages page page_size role rounds (current_page + 1) (accumulated ++ objects items)
        | .ok _ => .call .warn_shape fun _ => .ret (.ok accumulated)

variable (settings : LitellmSettings)

/-- `info.get(key) or metadata.get(other)`. -/
def either (info : Dict) (key : String) (metadata : Json) (other : String) : Except Failure Json :=
  if (field info key).truthy then .ok (field info key) else md_get metadata other

/-- The row of `_normalize_user`, once the email and the name are known. -/
def user_row (info : Dict) (fallback_id email name : Json) : Dict :=
  [("user_id", if (field info "user_id").truthy then field info "user_id" else fallback_id),
    ("email", email),
    ("name", name),
    ("role", field info "user_role"),
    ("spend", (info.lookup "spend").getD (.num 0)),
    ("max_budget", field info "max_budget"),
    ("budget_duration", field info "budget_duration"),
    ("tpm_limit", field info "tpm_limit"),
    ("rpm_limit", field info "rpm_limit"),
    ("max_parallel_requests", field info "max_parallel_requests"),
    ("models", field info "models"),
    ("teams", normalize_teams (field info "teams")),
    ("created_at", field info "created_at")]

/-- `_normalize_user` of a listed user, for whom there is no fallback. -/
def normalize_listed (info : Dict) : Except Failure Dict := do
  let metadata := parse_metadata settings (field info "metadata")
  let email ← either info "user_email" metadata "email"
  let name ← either info "user_alias" metadata "name"
  return user_row info .null email name

/-- `u.get("user_id") == email or u.get("email") == email`, if there is an email. -/
def matches_email (email : Option String) (user : Dict) : Bool :=
  email.getD "" == "" || is_text (field user "user_id") (email.getD "") ||
    is_text (field user "email") (email.getD "")

/-- `[_normalize_user(u) for u in accumulated]`, filtered by email. -/
def normalized (email : Option String) (users : List Dict) : Except Failure (List Dict) := do
  let result ← users.mapM (normalize_listed settings)
  return result.filter (matches_email email)

/-- `list_litellm_users`. -/
def list_litellm_users (page page_size : Nat) (role email : Option String) :
    Prog UsersOp UsersAns (Except Failure (List Dict)) := do
  let accumulated ← list_pages page page_size role MAX_PAGES page []
  return accumulated.bind (normalized settings email)

/-! ## A list in pages -/

/-- The users of one page. -/
def page_of (users : List Dict) (page page_size : Nat) : List Dict :=
  (users.drop ((page - 1) * page_size)).take page_size

/-- The list of a role is fixed, and each page of it is answered as it is. -/
def Serves (users : Option String → List Dict) (answer : (op : UsersOp) → UsersAns op) : Prop :=
  ∀ request : UserPage, page_users (answer (.get request)) =
    .ok (.arr ((page_of (users request.role) request.page request.page_size).map .obj))

/-- The requests among the operations. -/
def requests (ops : List UsersOp) : List UserPage :=
  ops.filterMap fun
    | .get request => some request
    | _ => none

/-- The users from a page on, as far as ten pages go. -/
def window (users : List Dict) (page page_size : Nat) : List Dict :=
  (users.drop ((page - 1) * page_size)).take (MAX_PAGES * page_size)

theorem objects_map (users : List Dict) : objects (users.map .obj) = users := by
  unfold objects
  rw [List.filterMap_map]
  exact List.filterMap_some

section
variable {users : List Dict} {cur page page_size : Nat}

/-- A short page is the last one. -/
theorem short_page {rounds : Nat} (hrounds : 1 ≤ rounds)
    (hshort : (page_of users cur page_size).length < page_size) :
    (users.drop ((cur - 1) * page_size)).take (rounds * page_size) = page_of users cur page_size ∧
      users.length ≤ (cur - 1 + rounds) * page_size := by
  unfold page_of at hshort ⊢
  rw [List.length_take, List.length_drop] at hshort
  have hall : users.length - (cur - 1) * page_size ≤ page_size := by omega
  have hmore : page_size ≤ rounds * page_size := Nat.le_mul_of_pos_left _ hrounds
  have hlen : (users.drop ((cur - 1) * page_size)).length = users.length - (cur - 1) * page_size :=
    List.length_drop
  constructor
  · rw [List.take_of_length_le (by omega), List.take_of_length_le (by omega)]
  · rw [Nat.add_mul]
    omega

/-- A full page, and the pages behind it. -/
theorem full_page (rounds : Nat) (hcur : 1 ≤ cur) :
    (users.drop ((cur - 1) * page_size)).take ((rounds + 1) * page_size) =
      page_of users cur page_size ++ (users.drop ((cur + 1 - 1) * page_size)).take (rounds * page_size) := by
  have hsum : (rounds + 1) * page_size = page_size + rounds * page_size := by
    rw [Nat.add_mul, Nat.one_mul, Nat.add_comm]
  have hnext : (cur - 1) * page_size + page_size = (cur + 1 - 1) * page_size := by
    rw [← Nat.succ_mul]
    congr 1
    omega
  rw [hsum, List.take_add, List.drop_drop, hnext]
  rfl

/-- What the loop has read, how often it has asked, and that it has logged a
    truncation if there is more. -/
theorem list_pages_spec {lists : Option String → List Dict} {answer : (op : UsersOp) → UsersAns op}
    (hserves : Serves lists answer) (role : Option String)
    (husers : lists (sent_role role) = users) (rounds : Nat) (hrounds : 1 ≤ rounds)
    (hcur : 1 ≤ cur) (hpage : page ≤ cur) (hleft : cur - page + rounds = MAX_PAGES)
    (acc : List Dict) :
    (list_pages page page_size role rounds cur acc).answered answer =
        .ok (acc ++ (users.drop ((cur - 1) * page_size)).take (rounds * page_size)) ∧
      (requests ((list_pages page page_size role rounds cur acc).asked answer)).length ≤ rounds ∧
      ((cur - 1 + rounds) * page_size < users.length →
        .warn_truncated ∈ (list_pages page page_size role rounds cur acc).asked answer) := by
  induction rounds generalizing cur acc with
  | zero => omega
  | succ rounds ih =>
    have hpages : page_users (answer (.get (page_request cur page_size role))) =
        .ok (.arr ((page_of users cur page_size).map .obj)) := by
      rw [hserves, ← husers]
      rfl
    unfold list_pages
    simp only [Prog.answered, Prog.asked, hpages, List.length_map, objects_map]
    -- a short page is the last one there is
    by_cases hshort : (page_of users cur page_size).length < page_size
    · obtain ⟨hwhole, hend⟩ := short_page (Nat.le_add_left 1 rounds) hshort
      rw [if_pos hshort]
      refine ⟨by rw [hwhole]; rfl, ?_, fun hmore => by omega⟩
      show 1 ≤ rounds + 1
      omega
    · rw [if_neg hshort, full_page rounds hcur]
      by_cases hcap : MAX_PAGES ≤ cur + 1 - page
      · -- the tenth page is full
        have hzero : rounds = 0 := by omega
        subst hzero
        rw [if_pos hcap]
        refine ⟨by simp [Prog.answered], ?_, fun _ => ?_⟩
        · show 1 ≤ 1
          omega
        · simp [Prog.asked]
      · rw [if_neg hcap]
        obtain ⟨hread, hasked, hwarned⟩ := @ih (cur + 1) (by omega) (by omega) (by omega) (by omega)
          (acc ++ page_of users cur page_size)
        refine ⟨by rw [hread, List.append_assoc], ?_, fun hmore => ?_⟩
        · show (requests _).length + 1 ≤ rounds + 1
          omega
        · refine List.mem_cons_of_mem _ (hwarned ?_)
          have heq : cur + 1 - 1 + rounds = cur - 1 + (rounds + 1) := by omega
          rw [heq]
          exact hmore

end

/-! ## The users that are returned -/

section
variable {settings : LitellmSettings}

/-- The metadata of a user is an object, or is read as one. -/
def HasMetadata (settings : LitellmSettings) (user : Dict) : Prop :=
  ∃ fields, parse_metadata settings (field user "metadata") = .obj fields

/-- The metadata of a user as a dictionary. -/
def metadata_of (settings : LitellmSettings) (user : Dict) : Dict :=
  match parse_metadata settings (field user "metadata") with
  | .obj fields => fields
  | _ => []

/-- The row of a user. -/
def listed_row (settings : LitellmSettings) (user : Dict) : Dict :=
  user_row user .null
    (py_or (field user "user_email") (field (metadata_of settings user) "email"))
    (py_or (field user "user_alias") (field (metadata_of settings user) "name"))

theorem either_eq {user : Dict} (h : HasMetadata settings user) (key other : String) :
    either user key (parse_metadata settings (field user "metadata")) other =
      .ok (py_or (field user key) (field (metadata_of settings user) other)) := by
  obtain ⟨fields, hfields⟩ := h
  unfold either py_or metadata_of
  rw [hfields]
  split
  · rfl
  · rfl

theorem normalize_listed_eq {user : Dict} (h : HasMetadata settings user) :
    normalize_listed settings user = .ok (listed_row settings user) := by
  unfold normalize_listed
  dsimp only
  rw [either_eq h, either_eq h]
  rfl

theorem normalized_eq {users : List Dict} (h : ∀ u ∈ users, HasMetadata settings u)
    (email : Option String) : normalized settings email users =
      .ok ((users.map (listed_row settings)).filter (matches_email email)) := by
  have hall : users.mapM (normalize_listed settings) = .ok (users.map (listed_row settings)) := by
    induction users with
    | nil => rfl
    | cons user rest ih =>
      rw [List.mapM_cons, normalize_listed_eq (h user List.mem_cons_self),
        ih fun u hu => h u (List.mem_cons_of_mem _ hu)]
      rfl
  unfold normalized
  rw [hall]
  rfl

/-- Nothing but the rows whose id or email it is passes the filter. -/
theorem matches_email_iff {email : String} (hemail : email ≠ "") (user : Dict) :
    matches_email (some email) user = true ↔
      field user "user_id" = .str email ∨ field user "email" = .str email := by
  have htext : ∀ value : Json, is_text value email = true ↔ value = .str email := by
    intro value
    cases value with
    | str s => simp [is_text]
    | null | bool | num | arr | obj => simp [is_text]
  have hblank : (email == "") = false := beq_eq_false_iff_ne.mpr hemail
  rw [matches_email, Option.getD_some, hblank, Bool.false_or, Bool.or_eq_true, htext, htext]

/-- The id and the email of a row are those of its user. -/
theorem listed_row_carries (user : Dict) :
    ((field user "user_id").truthy = true →
        field (listed_row settings user) "user_id" = field user "user_id") ∧
      ((field user "user_email").truthy = true →
        field (listed_row settings user) "email" = field user "user_email") := by
  have hid : field (listed_row settings user) "user_id" =
      if (field user "user_id").truthy then field user "user_id" else .null := rfl
  have hemail : field (listed_row settings user) "email" =
      py_or (field user "user_email") (field (metadata_of settings user) "email") := rfl
  rw [hid, hemail]
  exact ⟨fun h => if_pos h, fun h => if_pos h⟩

/-- What a listing has done, and what it returns. -/
structure Listed (settings : LitellmSettings) (users : List Dict) (page page_size : Nat)
    (email : Option String) (ops : List UsersOp) (result : Except Failure (List Dict)) : Prop where
  bounded : (requests ops).length ≤ MAX_PAGES
  exact : result = normalized settings email (window users page page_size)
  returned : (∀ u ∈ window users page page_size, HasMetadata settings u) →
    result = .ok (((window users page page_size).map (listed_row settings)).filter (matches_email email))
  filtered : ∀ text, text ≠ "" → email = some text → ∀ user, matches_email email user = true ↔
    field user "user_id" = .str text ∨ field user "email" = .str text
  unfiltered : email.getD "" = "" → ∀ user, matches_email email user = true
  carried : ∀ user, ((field user "user_id").truthy = true →
      field (listed_row settings user) "user_id" = field user "user_id") ∧
    ((field user "user_email").truthy = true →
      field (listed_row settings user) "email" = field user "user_email")
  warned : (page - 1 + MAX_PAGES) * page_size < users.length → .warn_truncated ∈ ops

/-- A listing from any page on, in pages of any size, returns the users of ten
    pages, in order and each once, and says so if there are more. -/
theorem user_pages_exact (settings : LitellmSettings) (lists : Option String → List Dict)
    (answer : (op : UsersOp) → UsersAns op) (hserves : Serves lists answer) (page page_size : Nat)
    (hpage : 1 ≤ page) (role email : Option String) :
    Listed settings (lists (sent_role role)) page page_size email
      ((list_litellm_users settings page page_size role email).asked answer)
      ((list_litellm_users settings page page_size role email).answered answer) := by
  have hleft : page - page + MAX_PAGES = MAX_PAGES := by omega
  -- the loop starts at the page asked for, with nothing collected
  have hspec := @list_pages_spec _ page page page_size lists answer hserves role rfl MAX_PAGES
    (by decide) hpage (Nat.le_refl page) hleft []
  generalize lists (sent_role role) = users at hspec ⊢
  obtain ⟨hread, hasked, hwarned⟩ := hspec
  have hops : (list_litellm_users settings page page_size role email).asked answer =
      (list_pages page page_size role MAX_PAGES page []).asked answer := by
    unfold list_litellm_users
    rw [Prog.asked_bind]
    exact List.append_nil _
  have hresult : (list_litellm_users settings page page_size role email).answered answer =
      normalized settings email (window users page page_size) := by
    unfold list_litellm_users
    rw [Prog.answered_bind, hread]
    rfl
  rw [hops, hresult]
  refine ⟨hasked, rfl, fun h => normalized_eq h email, ?_, ?_, listed_row_carries, hwarned⟩
  -- without an email text every user matches
  · rintro text htext rfl user
    exact matches_email_iff htext user
  · intro hnone user
    rw [matches_email, hnone]
    rfl

end

/-! ## Twelve users -/

/-- A LiteLLM that answers each page. -/
def serve (lists : Option String → List Dict) : (op : UsersOp) → UsersAns op
  | .get request => .response ⟨200, "", some (.obj [("users", .arr
      ((page_of (lists request.role) request.page request.page_size).map .obj))])⟩
  | .warn_shape => ()
  | .warn_truncated => ()

theorem serves_serve (lists : Option String → List Dict) : Serves lists (serve lists) :=
  fun _ => rfl

/-- Settings under which no text is JSON. -/
def listing_settings : LitellmSettings where
  litellm_default_team := "default-team"
  personal_teams_enabled := true
  personal_team_prefix := "personal-"
  default_access_groups := []
  user_access_groups := []
  sso_access_groups := []
  factory := .obj []
  loads := fun _ => none

def twelve_users : List Dict :=
  (List.range 12).map fun n => [("user_id", .str (toString n)), ("user_email", .str "ann")]

/-- One user a page: the first ten are listed, and the log says that there are more. -/
theorem user_pages_exact_twelve :
    (requests ((list_litellm_users listing_settings 1 1 none none).asked
        (serve fun _ => twelve_users))).length ≤ 10 ∧
    (list_litellm_users listing_settings 1 1 none none).answered (serve fun _ => twelve_users) =
      .ok ((twelve_users.take 10).map (listed_row listing_settings)) ∧
    .warn_truncated ∈ (list_litellm_users listing_settings 1 1 none none).asked
      (serve fun _ => twelve_users) := by
  have hlisted := user_pages_exact listing_settings (fun _ => twelve_users) (serve fun _ => twelve_users)
    (serves_serve _) 1 1 (Nat.le_refl 1) none none
  have hmetadata : ∀ u ∈ window twelve_users 1 1, HasMetadata listing_settings u := by
    intro u hu
    have huser : u ∈ twelve_users := List.mem_of_mem_drop (List.mem_of_mem_take hu)
    obtain ⟨n, -, rfl⟩ := List.mem_map.mp huser
    exact ⟨[], rfl⟩
  refine ⟨hlisted.bounded, ?_, hlisted.warned (by decide)⟩
  rw [hlisted.returned hmetadata, List.filter_eq_self.mpr fun user _ => hlisted.unfiltered rfl user]
  rfl

end AlitellmAuth.Litellm.Users
