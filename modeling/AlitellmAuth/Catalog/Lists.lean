import Mathlib.Data.List.Lex
import Mathlib.Data.List.Sort
import AlitellmAuth.Framework.PyText
import AlitellmAuth.Framework.Table

/-! # The catalogs

    `litellm_client.py` lists the model groups, the MCP servers and the A2A
    agents that a key sees, each row reduced to an allow-list of public fields,
    and `session.py` shows the three lists to the console.

    * `list_catalog`: what the three lists have in common.
    * `project_model_group`, `project_mcp_server`, `project_a2a_agent`: the rows.
    * `session_models`, `session_mcp`, `session_a2a`: the three routes.
-/

namespace AlitellmAuth.Catalog

open PyValue

variable {F : Type}

/-! ## Python -/

/-- A dictionary with the keys of the source. -/
abbrev Info (F : Type) := List (String × PyValue F)

/-- `info.get(key)`. -/
def info_get (info : Info F) (key : String) : PyValue F := (info.lookup key).getD .null

/-- What Python knows of characters, with `str.lower`. -/
structure Texts (F : Type) extends Printing F where
  lower : PyStr → PyStr

/-- What becomes of a request to LiteLLM: no answer, or one with a status, and
    with a body unless the body is not JSON. -/
inductive HttpAnswer (F : Type) where
  | unreachable
  | response (status : Nat) (body : Option (PyValue F))

/-- What a listing raises: an `HTTPStatusError`, a `RequestError`, or another
    exception. -/
inductive ListError where
  | status (code : Nat)
  | request
  | other
  deriving DecidableEq

/-- `resp.is_success`. -/
def is_success (status : Nat) : Bool := 200 ≤ status && status ≤ 299

/-! ## One list -/

section
variable (P : Texts F)

/-- `(x.get("name") or "").lower()`; only a text can be lowered. -/
def sort_key (row : Info F) : Except ListError PyStr :=
  if (info_get row "name").truthy P.isZero then
    match info_get row "name" with
    | .str name => .ok (P.lower name)
    | _ => .error .other
  else .ok (P.lower [])

/-- `out.sort(key=...)`. -/
def sort_rows (rows : List (Info F)) : Except ListError (List (Info F)) := do
  let keyed ← rows.mapM fun row => do
    let key ← sort_key P row
    return (key, row)
  return (keyed.insertionSort fun a b => codes a.1 ≤ codes b.1).map (·.2)

/-- `[r for r in rows if isinstance(r, dict)]`; of no list there are none. -/
def dict_rows : PyValue F → List (List (PyStr × PyValue F))
  | .arr rows => rows.filterMap fun
      | .obj fields => some fields
      | _ => none
  | _ => []

/-- The rows of an answer. -/
def answer_rows (unwrap : PyValue F → PyValue F) :
    HttpAnswer F → Except ListError (List (List (PyStr × PyValue F)))
  | .unreachable => .error .request
  | .response status body =>
      if is_success status then
        match body with
        | some body => .ok (dict_rows (unwrap body))
        | none => .error .other
      else .error (.status status)

/-- `_list_catalog`. -/
def list_catalog (projector : List (PyStr × PyValue F) → Info F) (unwrap : PyValue F → PyValue F)
    (answer : HttpAnswer F) : Except ListError (List (Info F)) := do
  let rows ← answer_rows unwrap answer
  sort_rows P (rows.map projector)

/-! ## The rows -/

/-- `[str(v) for v in value] if isinstance(value, list) else []`. -/
def texts_of (value : PyValue F) : List PyStr :=
  match value with
  | .arr items => items.map (str_of P.toPrinting)
  | _ => []

/-- `a or b`. -/
def or_value (a b : PyValue F) : PyValue F := if a.truthy P.isZero then a else b

def project_model_group (m : List (PyStr × PyValue F)) : Info F :=
  [("name", get m "model_group"),
    ("providers", .arr ((texts_of P (get m "providers")).map .str)),
    ("mode", get m "mode"),
    ("max_input_tokens", get m "max_input_tokens"),
    ("max_output_tokens", get m "max_output_tokens"),
    ("input_cost_per_token", get m "input_cost_per_token"),
    ("output_cost_per_token", get m "output_cost_per_token"),
    ("supports_vision", .bool ((get m "supports_vision").truthy P.isZero)),
    ("supports_function_calling", .bool ((get m "supports_function_calling").truthy P.isZero)),
    ("supports_reasoning", .bool ((get m "supports_reasoning").truthy P.isZero)),
    ("supports_web_search", .bool ((get m "supports_web_search").truthy P.isZero))]

def project_mcp_server (s : List (PyStr × PyValue F)) : Info F :=
  let tools := texts_of P (get s "allowed_tools")
  [("id", get s "server_id"),
    ("name", or_value P (get s "alias") (get s "server_name")),
    ("description", get s "description"),
    ("url", get s "url"),
    ("transport", get s "transport"),
    ("auth_type", get s "auth_type"),
    ("status", get s "status"),
    ("tools", .arr (tools.map .str)),
    ("tool_count", .int tools.length),
    ("access_groups", .arr ((texts_of P (get s "mcp_access_groups")).map .str))]

/-- The fields of a dictionary, of another value none. -/
def fields_of (value : PyValue F) : List (PyStr × PyValue F) :=
  match value with
  | .obj fields => fields
  | _ => []

/-- The name of a skill of an agent, if it has one. -/
def skill_name (skill : PyValue F) : Option PyStr :=
  match skill with
  | .obj s =>
      let name := or_value P (get s "name") (get s "id")
      if name.truthy P.isZero then some (str_of P.toPrinting name) else none
  | skill => if skill.truthy P.isZero then some (str_of P.toPrinting skill) else none

/-- The names of the skills; only a list has any. -/
def skill_names (raw_skills : PyValue F) : List PyStr :=
  match raw_skills with
  | .arr items => items.filterMap (skill_name P)
  | _ => []

def project_a2a_agent (a : List (PyStr × PyValue F)) : Info F :=
  let card := fields_of (get a "agent_card_params")
  let skills := skill_names P (get card "skills")
  [("id", get a "agent_id"),
    ("name", or_value P (get a "agent_name") (get card "name")),
    ("description", get card "description"),
    ("url", get card "url"),
    ("transport", get card "preferredTransport"),
    ("version", get card "version"),
    ("skills", .arr (skills.map .str)),
    ("skill_count", .int skills.length),
    ("streaming", .bool ((get (fields_of (get card "capabilities")) "streaming").truthy P.isZero))]

/-! ## The lists -/

/-- `d.get("data", []) if isinstance(d, dict) else []`. -/
def unwrap_models : PyValue F → PyValue F
  | .obj fields => (fields.lookup (lit "data")).getD (.arr [])
  | _ => .arr []

/-- `(d.get("data") or d.get(key) or []) if isinstance(d, dict) else d`. -/
def unwrap_or_bare (key : String) : PyValue F → PyValue F
  | .obj fields => or_value P (get fields "data") (or_value P (get fields key) (.arr []))
  | d => d

/-- What becomes of `GET /model_group/info`, `GET /v1/mcp/server` and
    `GET /v1/agents` under a key. -/
def list_litellm_models (answer : HttpAnswer F) : Except ListError (List (Info F)) :=
  list_catalog P (project_model_group P) unwrap_models answer

def list_litellm_mcp_servers (answer : HttpAnswer F) : Except ListError (List (Info F)) :=
  list_catalog P (project_mcp_server P) (unwrap_or_bare P "servers") answer

def list_litellm_a2a_agents (answer : HttpAnswer F) : Except ListError (List (Info F)) :=
  list_catalog P (project_a2a_agent P) (unwrap_or_bare P "agents") answer

/-! ## The routes -/

/-- How a route ends: a 200 with a body, an `HTTPException`, or an exception that
    nothing catches, which is a 500. -/
inductive RouteReply (F : Type) where
  | json (body : PyValue F)
  | http (status : Nat) (detail : String)
  | crash

/-- `JSONResponse(body)`. -/
def respond (body : PyValue F) : RouteReply F :=
  if renderable P.toPrinting body then .json body else .crash

/-- Rows as JSON. -/
def rows_value (rows : List (Info F)) : PyValue F := .arr (rows.map dict)

/-- `session_models`, once the key of the user is known. -/
def session_models (answer : HttpAnswer F) : RouteReply F :=
  match list_litellm_models P answer with
  | .ok models => respond P (dict [("models", rows_value models)])
  | .error (.status _) => .http 502 "Model catalog unavailable"
  | .error .request => .http 502 "Model catalog unavailable"
  | .error .other => .crash

/-- `_degrading_catalog`, with what becomes of the listing. -/
def degrading_catalog (key label : String) : Except ListError (List (Info F)) → RouteReply F
  | .ok items => respond P (dict [(key, rows_value items), ("available", .bool true)])
  | .error (.status code) =>
      if code = 404 then respond P (dict [(key, .arr []), ("available", .bool false)])
      else .http 502 (label ++ " catalog unavailable")
  | .error .request => .http 502 "LiteLLM backend unreachable"
  | .error .other => .crash

def session_mcp (answer : HttpAnswer F) : RouteReply F :=
  degrading_catalog P "servers" "MCP" (list_litellm_mcp_servers P answer)

def session_a2a (answer : HttpAnswer F) : RouteReply F :=
  degrading_catalog P "agents" "A2A" (list_litellm_a2a_agents P answer)

end

end AlitellmAuth.Catalog
