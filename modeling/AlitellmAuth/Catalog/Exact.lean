import AlitellmAuth.Catalog.Lists
import AlitellmAuth.Framework.PyView
import AlitellmAuth.Framework.Stable

/-! # What the catalogs show

    The three routes reply exactly as `Tells` has it: the rows that LiteLLM
    lists, each reduced to its public fields, in the order of their names. What
    the rows hold besides has no part in the reply, whatever it is.

    * `Tells`: one case for each way a listing can go.
    * `catalogs_exact`: the routes reply so, and not otherwise.
    * `model_shape`, `server_shape`, `agent_shape`: the public fields.
    * `catalogs_public`: the rest of a row is not told.
-/

namespace AlitellmAuth.Catalog

open PyValue

variable {F : Type}

/-! ## Names -/

section
variable (P : Texts F)

/-- A row can be sorted by its name: a text, or nothing. -/
def Sortable (row : Info F) : Prop :=
  (info_get row "name").truthy P.isZero = true → ∃ name, info_get row "name" = .str name

/-- The row can be shown: its name can be sorted by, its fields can be sent. -/
structure Presentable (row : Info F) : Prop where
  sortable : Sortable P row
  sent : ∀ field ∈ row, renderable P.toPrinting field.2 = true

/-- What a row is sorted by. -/
def row_key (row : Info F) : List Nat :=
  match info_get row "name" with
  | .str name => codes (P.lower name)
  | _ => codes (P.lower [])

theorem sort_key_of_sortable {row : Info F} (h : Sortable P row) :
    ∃ key, sort_key P row = .ok key ∧ codes key = row_key P row := by
  unfold sort_key row_key
  split
  · next htruthy =>
    obtain ⟨name, hname⟩ := h htruthy
    exact ⟨P.lower name, by rw [hname], by rw [hname]⟩
  · next htruthy =>
    refine ⟨P.lower [], rfl, ?_⟩
    split
    · next name hname =>
      -- The only text that counts as nothing is the empty one.
      rw [hname, Bool.not_eq_true, truthy] at htruthy
      have hnil : name = [] := by simpa using htruthy
      rw [hnil]
    · rfl

theorem sort_key_of_not_sortable {row : Info F} (h : ¬ Sortable P row) :
    sort_key P row = .error .other := by
  unfold Sortable at h
  rw [Classical.not_imp] at h
  obtain ⟨htruthy, hname⟩ := h
  rw [sort_key, if_pos htruthy]
  split
  · next name heq => exact absurd ⟨name, heq⟩ hname
  · rfl

/-- The keys of rows that can all be sorted. -/
theorem keyed_rows {rows : List (Info F)} (h : ∀ row ∈ rows, Sortable P row) :
    ∃ keyed : List (PyStr × Info F),
      (rows.mapM fun row => do
        let key ← sort_key P row
        return (key, row)) = .ok keyed ∧
      keyed.map (·.2) = rows ∧ ∀ pair ∈ keyed, codes pair.1 = row_key P pair.2 := by
  induction rows with
  | nil => exact ⟨[], rfl, rfl, by simp⟩
  | cons row rows ih =>
    obtain ⟨key, hkey, hcode⟩ := sort_key_of_sortable P (h row List.mem_cons_self)
    obtain ⟨keyed, hkeyed, hrows, hcodes⟩ := ih fun r hr => h r (List.mem_cons_of_mem _ hr)
    refine ⟨(key, row) :: keyed, ?_, by rw [List.map_cons, hrows], ?_⟩
    · rw [List.mapM_cons, hkey, hkeyed]
      rfl
    · intro pair hpair
      rcases List.mem_cons.mp hpair with rfl | hpair
      · exact hcode
      · exact hcodes pair hpair

theorem sort_rows_of_sortable {rows : List (Info F)} (h : ∀ row ∈ rows, Sortable P row) :
    sort_rows P rows =
      .ok (rows.insertionSort fun a b => row_key P a ≤ row_key P b) := by
  obtain ⟨keyed, hkeyed, hrows, hcodes⟩ := keyed_rows P h
  rw [sort_rows, hkeyed, ← hrows]
  have hsort := List.map_insertionSort (fun a b : PyStr × Info F => codes a.1 ≤ codes b.1)
    (fun a b => row_key P a ≤ row_key P b) (·.2) keyed fun a ha b hb => by
      rw [hcodes a ha, hcodes b hb]
  rw [← hsort]
  rfl

theorem sort_rows_of_not_sortable {rows : List (Info F)} (h : ¬ ∀ row ∈ rows, Sortable P row) :
    sort_rows P rows = .error .other := by
  suffices hkeyed : (rows.mapM fun row => do
      let key ← sort_key P row
      return (key, row)) = .error ListError.other by
    rw [sort_rows, hkeyed]
    rfl
  induction rows with
  | nil => simp at h
  | cons row rows ih =>
    rw [List.mapM_cons]
    by_cases hrow : Sortable P row
    · obtain ⟨key, hkey, -⟩ := sort_key_of_sortable P hrow
      have hrest : ¬ ∀ row ∈ rows, Sortable P row := by
        intro hrows
        exact h (List.forall_mem_cons.mpr ⟨hrow, hrows⟩)
      rw [hkey, ih hrest]
      rfl
    · rw [sort_key_of_not_sortable P hrow]
      rfl

/-! ## The replies -/

/-- What sets one list apart: how its rows are found and reduced, the body that
    shows them, the body that stands for a 404 if there is one, and the details
    of the errors. -/
structure Listing (F : Type) where
  unwrap : PyValue F → PyValue F
  projector : List (PyStr × PyValue F) → Info F
  body : List (Info F) → List (String × PyValue F)
  absent : Option (List (String × PyValue F))
  refused : String
  down : String

/-- The rows of a body, reduced. -/
def Listing.rows (L : Listing F) (body : PyValue F) : List (Info F) :=
  (dict_rows (L.unwrap body)).map L.projector

/-- What becomes of a listing, by what becomes of the request. -/
inductive Tells (L : Listing F) : HttpAnswer F → RouteReply F → Prop where
  /-- All rows can be shown, and are, sorted by name. -/
  | shown {status : Nat} {body : PyValue F} {rows : List (Info F)} :
      is_success status = true → (∀ row ∈ L.rows body, Presentable P row) →
      Stable.Sorted (row_key P) (L.rows body) rows →
      Tells L (.response status (some body)) (.json (dict (L.body rows)))
  /-- One row that cannot be shown brings the list down. -/
  | crash {status : Nat} {body : PyValue F} {row : Info F} :
      is_success status = true → row ∈ L.rows body → ¬ Presentable P row →
      Tells L (.response status (some body)) .crash
  | no_json {status : Nat} :
      is_success status = true → Tells L (.response status none) .crash
  /-- LiteLLM has no such list. -/
  | absent {body : Option (PyValue F)} {fields : List (String × PyValue F)} :
      L.absent = some fields → Tells L (.response 404 body) (.json (dict fields))
  | refused {status : Nat} {body : Option (PyValue F)} :
      is_success status = false → (status = 404 → L.absent = none) →
      Tells L (.response status body) (.http 502 L.refused)
  | down : Tells L .unreachable (.http 502 L.down)

/-! ## The routes -/

variable {P}

/-- A route over its listing. -/
def Listing.route (P : Texts F) (L : Listing F) (answer : HttpAnswer F) : RouteReply F :=
  match list_catalog P L.projector L.unwrap answer with
  | .ok rows => respond P (dict (L.body rows))
  | .error (.status code) =>
      match L.absent with
      | some fields => if code = 404 then respond P (dict fields) else .http 502 L.refused
      | none => .http 502 L.refused
  | .error .request => .http 502 L.down
  | .error .other => .crash

/-- What the body adds to the rows can be sent. -/
structure Plain (P : Texts F) (L : Listing F) : Prop where
  body : ∀ rows, renderable P.toPrinting (dict (L.body rows)) = true ↔
    ∀ row ∈ rows, ∀ field ∈ row, renderable P.toPrinting field.2 = true
  absent : ∀ fields, L.absent = some fields → renderable P.toPrinting (dict fields) = true

theorem respond_of_renderable {body : PyValue F} (h : renderable P.toPrinting body = true) :
    respond P body = .json body := by
  rw [respond, if_pos h]

theorem respond_of_not_renderable {body : PyValue F} (h : ¬ renderable P.toPrinting body = true) :
    respond P body = .crash := by
  rw [respond, if_neg h]

/-- The rows of an answer that says yes. -/
theorem list_catalog_rows (L : Listing F) {status : Nat} (hstatus : is_success status = true)
    (body : PyValue F) :
    list_catalog P L.projector L.unwrap (.response status (some body)) =
      sort_rows P (L.rows body) := by
  rw [list_catalog, answer_rows, if_pos hstatus]
  rfl

theorem route_shown {L : Listing F} (hplain : Plain P L) {status : Nat}
    (hstatus : is_success status = true) {body : PyValue F}
    (hrows : ∀ row ∈ L.rows body, Presentable P row) :
    L.route P (.response status (some body)) =
      .json (dict (L.body ((L.rows body).insertionSort fun a b => row_key P a ≤ row_key P b))) := by
  rw [Listing.route, list_catalog_rows L hstatus,
    sort_rows_of_sortable P fun row hrow => (hrows row hrow).sortable]
  apply respond_of_renderable
  rw [hplain.body]
  intro row hrow
  rw [List.mem_insertionSort] at hrow
  exact (hrows row hrow).sent

theorem route_crash {L : Listing F} (hplain : Plain P L) {status : Nat}
    (hstatus : is_success status = true) {body : PyValue F} {row : Info F}
    (hrow : row ∈ L.rows body) (hbad : ¬ Presentable P row) :
    L.route P (.response status (some body)) = .crash := by
  rw [Listing.route, list_catalog_rows L hstatus]
  by_cases hsortable : ∀ row ∈ L.rows body, Sortable P row
  · rw [sort_rows_of_sortable P hsortable]
    apply respond_of_not_renderable
    rw [hplain.body]
    intro hsent
    exact hbad ⟨hsortable row hrow, hsent row ((List.mem_insertionSort _).mpr hrow)⟩
  · rw [sort_rows_of_not_sortable P hsortable]

theorem route_no_json (L : Listing F) {status : Nat} (hstatus : is_success status = true) :
    L.route P (.response status none) = .crash := by
  have hlist : list_catalog P L.projector L.unwrap (.response status none) = .error .other := by
    simp only [list_catalog, answer_rows, if_pos hstatus]
    rfl
  rw [Listing.route, hlist]

theorem list_catalog_refused (L : Listing F) {status : Nat} (hstatus : is_success status = false)
    (body : Option (PyValue F)) :
    list_catalog P L.projector L.unwrap (.response status body) = .error (.status status) := by
  unfold list_catalog answer_rows
  simp only [hstatus]
  rfl

theorem route_absent {L : Listing F} (hplain : Plain P L) {fields : List (String × PyValue F)}
    (habsent : L.absent = some fields) (body : Option (PyValue F)) :
    L.route P (.response 404 body) = .json (dict fields) := by
  rw [Listing.route, list_catalog_refused L (by decide) body]
  simp only [habsent, if_true]
  exact respond_of_renderable (hplain.absent fields habsent)

theorem route_refused {L : Listing F} {status : Nat} (hstatus : is_success status = false)
    (habsent : status = 404 → L.absent = none) (body : Option (PyValue F)) :
    L.route P (.response status body) = .http 502 L.refused := by
  rw [Listing.route, list_catalog_refused L hstatus body]
  cases hL : L.absent with
  | none => rfl
  | some fields =>
    have hne : status ≠ 404 := by
      intro heq
      rw [habsent heq] at hL
      cases hL
    simp only [if_neg hne]

theorem route_down (L : Listing F) : L.route P .unreachable = .http 502 L.down := by
  rw [Listing.route, list_catalog, answer_rows]
  rfl

/-- A route tells what becomes of its listing. -/
theorem route_tells {L : Listing F} (hplain : Plain P L) (answer : HttpAnswer F) :
    Tells P L answer (L.route P answer) := by
  cases answer with
  | unreachable =>
    rw [route_down]
    exact .down
  | response status body =>
    cases hstatus : is_success status with
    | true =>
      cases body with
      | none =>
        rw [route_no_json L hstatus]
        exact .no_json hstatus
      | some body =>
        -- the reply crashes on the first row that cannot be sent
        by_cases hrows : ∀ row ∈ L.rows body, Presentable P row
        · rw [route_shown hplain hstatus hrows]
          exact .shown hstatus hrows (Stable.sorted_insertionSort _ _)
        · rw [not_forall] at hrows
          obtain ⟨row, hrow⟩ := hrows
          rw [Classical.not_imp] at hrow
          rw [route_crash hplain hstatus hrow.1 hrow.2]
          exact .crash hstatus hrow.1 hrow.2
    | false =>
      -- a 404 is refused only where the catalogue is not allowed to be absent
      by_cases habsent : status = 404 → L.absent = none
      · rw [route_refused hstatus habsent]
        exact .refused hstatus habsent
      · rw [Classical.not_imp] at habsent
        obtain ⟨rfl, hsome⟩ := habsent
        obtain ⟨fields, hfields⟩ := Option.ne_none_iff_exists'.mp hsome
        rw [route_absent hplain hfields]
        exact .absent hfields

/-- It tells nothing else: a list of rows has one order, the one of the names. -/
theorem tells_iff {L : Listing F} (hplain : Plain P L) (answer : HttpAnswer F)
    (reply : RouteReply F) : L.route P answer = reply ↔ Tells P L answer reply := by
  constructor
  · intro h
    rw [← h]
    exact route_tells hplain answer
  · intro h
    cases h with
    | shown hstatus hrows hsorted =>
      rw [route_shown hplain hstatus hrows,
        Stable.sorted_unique (Stable.sorted_insertionSort _ _) hsorted]
    | crash hstatus hrow hbad => exact route_crash hplain hstatus hrow hbad
    | no_json hstatus => exact route_no_json L hstatus
    | absent habsent => exact route_absent hplain habsent _
    | refused hstatus habsent => exact route_refused hstatus habsent _
    | down => exact route_down L

/-! ## The three lists -/

section
variable (P)

def models_listing : Listing F where
  unwrap := unwrap_models
  projector := project_model_group P
  body := fun rows => [("models", rows_value rows)]
  absent := none
  refused := "Model catalog unavailable"
  down := "Model catalog unavailable"

/-- The lists of features that a LiteLLM need not have. -/
def degrading_listing (unwrap : PyValue F → PyValue F)
    (projector : List (PyStr × PyValue F) → Info F) (key label : String) : Listing F where
  unwrap := unwrap
  projector := projector
  body := fun rows => [(key, rows_value rows), ("available", .bool true)]
  absent := some [(key, .arr []), ("available", .bool false)]
  refused := label ++ " catalog unavailable"
  down := "LiteLLM backend unreachable"

def mcp_listing : Listing F :=
  degrading_listing (unwrap_or_bare P "servers") (project_mcp_server P) "servers" "MCP"

def a2a_listing : Listing F :=
  degrading_listing (unwrap_or_bare P "agents") (project_a2a_agent P) "agents" "A2A"

theorem renderable_rows (rows : List (Info F)) :
    renderable P.toPrinting (rows_value rows) = true ↔
      ∀ row ∈ rows, ∀ field ∈ row, renderable P.toPrinting field.2 = true := by
  rw [rows_value, renderable_arr, List.all_map, List.all_eq_true]
  simp only [Function.comp_apply, renderable_dict, List.all_eq_true]

theorem plain_models : Plain P (models_listing P) := by
  constructor
  · intro rows
    rw [← renderable_rows]
    simp [models_listing]
  · simp [models_listing]

theorem plain_degrading (unwrap : PyValue F → PyValue F)
    (projector : List (PyStr × PyValue F) → Info F) (key label : String) :
    Plain P (degrading_listing unwrap projector key label) := by
  constructor
  · intro rows
    rw [← renderable_rows]
    simp [degrading_listing]
  · intro fields hfields
    rw [← Option.some.inj hfields]
    simp

theorem session_models_route (answer : HttpAnswer F) :
    session_models P answer = (models_listing P).route P answer := by
  unfold session_models Listing.route
  rw [list_litellm_models]
  rfl

theorem degrading_catalog_route (unwrap : PyValue F → PyValue F)
    (projector : List (PyStr × PyValue F) → Info F) (key label : String) (answer : HttpAnswer F) :
    degrading_catalog P key label (list_catalog P projector unwrap answer) =
      (degrading_listing unwrap projector key label).route P answer := by
  unfold Listing.route
  rfl

end

/-- The three routes tell exactly what becomes of their listings: every row of
    LiteLLM, reduced and in the order of the names; a calm answer where LiteLLM
    has no such list; else an error. -/
theorem catalogs_exact (P : Texts F) (answer : HttpAnswer F) (reply : RouteReply F) :
    (session_models P answer = reply ↔ Tells P (models_listing P) answer reply) ∧
      (session_mcp P answer = reply ↔ Tells P (mcp_listing P) answer reply) ∧
      (session_a2a P answer = reply ↔ Tells P (a2a_listing P) answer reply) := by
  refine ⟨?_, ?_, ?_⟩
  · rw [session_models_route]
    exact tells_iff (plain_models P) answer reply
  · rw [session_mcp, list_litellm_mcp_servers, degrading_catalog_route]
    exact tells_iff (plain_degrading P _ _ _ _) answer reply
  · rw [session_a2a, list_litellm_a2a_agents, degrading_catalog_route]
    exact tells_iff (plain_degrading P _ _ _ _) answer reply

end

/-! ## What is public -/

def model_shape : List (String × Shape) :=
  wholly ["model_group", "providers", "mode", "max_input_tokens", "max_output_tokens",
    "input_cost_per_token", "output_cost_per_token", "supports_vision",
    "supports_function_calling", "supports_reasoning", "supports_web_search"]

def server_shape : List (String × Shape) :=
  wholly ["server_id", "alias", "server_name", "description", "url", "transport", "auth_type",
    "status", "allowed_tools", "mcp_access_groups"]

/-- Of a skill its name, or what stands for it. -/
def skill_shape : List (String × Shape) := wholly ["name", "id"]

def card_shape : List (String × Shape) :=
  wholly ["name", "description", "url", "preferredTransport", "version"] ++
    [("skills", .each (.only skill_shape)), ("capabilities", .only (wholly ["streaming"]))]

def agent_shape : List (String × Shape) :=
  wholly ["agent_id", "agent_name"] ++ [("agent_card_params", .only card_shape)]

/-- What is public of the rows of an answer. -/
def public_rows (shape : List (String × Shape)) (unwrap : PyValue F → PyValue F)
    (answer : HttpAnswer F) : Except ListError (List (List (PyStr × PyValue F))) :=
  (answer_rows unwrap answer).map fun rows => rows.map (viewFields shape)

section
variable (P : Texts F)

theorem project_model_group_view (m : List (PyStr × PyValue F)) :
    project_model_group P (viewFields model_shape m) = project_model_group P m := by
  unfold project_model_group model_shape
  simp (disch := decide) only [get_wholly]

theorem project_mcp_server_view (s : List (PyStr × PyValue F)) :
    project_mcp_server P (viewFields server_shape s) = project_mcp_server P s := by
  unfold project_mcp_server server_shape
  simp (disch := decide) only [get_wholly]

theorem viewFields_nil (shape : List (String × Shape)) :
    viewFields shape ([] : List (PyStr × PyValue F)) = [] := by
  induction shape with
  | nil => rw [viewFields]
  | cons entry shape ih => rw [viewFields, List.lookup_nil, ih]

/-- A dictionary is seen in parts, and what is none has no fields. -/
theorem fields_of_view (shape : List (String × Shape)) (value : PyValue F) :
    fields_of (view (.only shape) value) = viewFields shape (fields_of value) := by
  cases value with
  | obj fields =>
    rw [view]
    rfl
  | null | bool | int | float | str | arr =>
    rw [view]
    · exact (viewFields_nil shape).symm
    · simp

theorem skill_name_view (skill : PyValue F) :
    skill_name P (view (.only skill_shape) skill) = skill_name P skill := by
  cases skill with
  | obj s =>
    rw [view]
    unfold skill_name skill_shape
    simp (disch := decide) only [get_wholly]
  | null | bool | int | float | str | arr =>
    rw [view]
    simp

theorem skill_names_view (raw_skills : PyValue F) :
    skill_names P (view (.each (.only skill_shape)) raw_skills) = skill_names P raw_skills := by
  cases raw_skills with
  | arr items =>
    rw [view, skill_names, skill_names, List.filterMap_map]
    congr 1
    funext skill
    exact skill_name_view P skill
  | null | bool | int | float | str | obj =>
    rw [view]
    simp

theorem project_a2a_agent_view (a : List (PyStr × PyValue F)) :
    project_a2a_agent P (viewFields agent_shape a) = project_a2a_agent P a := by
  have hcard : fields_of (get (viewFields agent_shape a) "agent_card_params") =
      viewFields card_shape (fields_of (get a "agent_card_params")) := by
    have hpart : agent_shape.lookup "agent_card_params" = some (.only card_shape) := rfl
    rw [get_viewFields hpart, fields_of_view]
  have hskills (card : List (PyStr × PyValue F)) :
      skill_names P (get (viewFields card_shape card) "skills") =
        skill_names P (get card "skills") := by
    have hpart : card_shape.lookup "skills" = some (.each (.only skill_shape)) := rfl
    rw [get_viewFields hpart, skill_names_view]
  have hstreaming (card : List (PyStr × PyValue F)) :
      get (fields_of (get (viewFields card_shape card) "capabilities")) "streaming" =
        get (fields_of (get card "capabilities")) "streaming" := by
    have hpart : card_shape.lookup "capabilities" = some (.only (wholly ["streaming"])) := rfl
    rw [get_viewFields hpart, fields_of_view, get_wholly (by simp)]
  unfold project_a2a_agent
  rw [hcard]
  simp only [hskills, hstreaming]
  unfold card_shape agent_shape
  simp (disch := decide) only [get_wholly_append]

/-- Rows of one public view are shown alike. -/
theorem list_catalog_public {projector : List (PyStr × PyValue F) → Info F}
    {shape : List (String × Shape)} (hview : ∀ row, projector (viewFields shape row) = projector row)
    (unwrap : PyValue F → PyValue F) (answer : HttpAnswer F) :
    list_catalog P projector unwrap answer =
      public_rows shape unwrap answer >>= fun rows => sort_rows P (rows.map projector) := by
  unfold list_catalog public_rows
  cases answer_rows unwrap answer with
  | error e => rfl
  | ok rows =>
    show sort_rows P (rows.map projector) =
      sort_rows P ((rows.map (viewFields shape)).map projector)
    rw [List.map_map]
    congr 1
    apply List.map_congr_left
    intro row _
    exact (hview row).symm

/-- Two answers that differ in what is not public only, as in credentials,
    headers, costs of a deployment or security schemes, are shown alike. -/
theorem catalogs_public (a b : HttpAnswer F) :
    (public_rows model_shape unwrap_models a = public_rows model_shape unwrap_models b →
        session_models P a = session_models P b) ∧
      (public_rows server_shape (unwrap_or_bare P "servers") a =
          public_rows server_shape (unwrap_or_bare P "servers") b →
        session_mcp P a = session_mcp P b) ∧
      (public_rows agent_shape (unwrap_or_bare P "agents") a =
          public_rows agent_shape (unwrap_or_bare P "agents") b →
        session_a2a P a = session_a2a P b) := by
  refine ⟨?_, ?_, ?_⟩
  · intro h
    unfold session_models list_litellm_models
    rw [list_catalog_public P (project_model_group_view P) _ a,
      list_catalog_public P (project_model_group_view P) _ b, h]
  · intro h
    unfold session_mcp list_litellm_mcp_servers
    rw [list_catalog_public P (project_mcp_server_view P) _ a,
      list_catalog_public P (project_mcp_server_view P) _ b, h]
  · intro h
    unfold session_a2a list_litellm_a2a_agents
    rw [list_catalog_public P (project_a2a_agent_view P) _ a,
      list_catalog_public P (project_a2a_agent_view P) _ b, h]

/-- Texts of ASCII, without floats. -/
def ascii_texts : Texts Empty where
  isZero := Empty.elim
  isFinite := Empty.elim
  repr := Empty.elim
  dumps := Empty.elim
  printable := fun _ => true
  lower := fun s => s.map fun
    | .char c => .char c.toLower
    | point => point

/-- A list of one row, with a secret in two places. -/
def row_with (secret : String) : PyValue Empty :=
  .arr [dict [("alias", text "Search"), ("url", text "https://mcp.test"),
    ("credentials", dict [("auth_value", text secret)]),
    ("agent_card_params", dict [("name", text "Search"), ("securitySchemes", text secret)])]]

theorem server_rows_with (secret : String) :
    public_rows server_shape (unwrap_or_bare ascii_texts "servers")
        (.response 200 (some (row_with secret))) =
      .ok [[(lit "alias", text "Search"), (lit "url", text "https://mcp.test")]] := by
  show Except.ok [viewFields server_shape (List.map _ _)] = _
  simp [server_shape, wholly, viewFields, lookup_lit_cons]

theorem agent_rows_with (secret : String) :
    public_rows agent_shape (unwrap_or_bare ascii_texts "agents")
        (.response 200 (some (row_with secret))) =
      .ok [[(lit "agent_card_params", dict [("name", text "Search")])]] := by
  show Except.ok [viewFields agent_shape (List.map _ _)] = _
  simp [agent_shape, card_shape, wholly, viewFields, lookup_lit_cons, dict, view]

theorem model_rows_with (secret : String) :
    public_rows model_shape unwrap_models (.response 200 (some (row_with secret))) = .ok [] := rfl

theorem catalogs_public_rotated :
    session_mcp ascii_texts (.response 200 (some (row_with "sk-old"))) =
        session_mcp ascii_texts (.response 200 (some (row_with "sk-new"))) ∧
      session_a2a ascii_texts (.response 200 (some (row_with "sk-old"))) =
        session_a2a ascii_texts (.response 200 (some (row_with "sk-new"))) ∧
      session_models ascii_texts (.response 200 (some (row_with "sk-old"))) =
        session_models ascii_texts (.response 200 (some (row_with "sk-new"))) := by
  have h := catalogs_public ascii_texts (.response 200 (some (row_with "sk-old")))
    (.response 200 (some (row_with "sk-new")))
  refine ⟨h.2.1 ?_, h.2.2 ?_, h.1 ?_⟩
  · rw [server_rows_with, server_rows_with]
  · rw [agent_rows_with, agent_rows_with]
  · rw [model_rows_with, model_rows_with]

end

end AlitellmAuth.Catalog
