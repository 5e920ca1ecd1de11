import AlitellmAuth.Catalog.Lists
import AlitellmAuth.Framework.Dict
import AlitellmAuth.Framework.Text
import AlitellmAuth.OauthAs.Records

/-! # The configuration of OpenCode clients

    `opencode_config.py`: the models and MCP servers that a user's own key sees,
    described with what the master key knows of the deployments behind them.

    * `list_deployment_capabilities`, `get_model_group_aliases`: what the master
      key is told.
    * `_models`, `_provider`, `_defaults`, `_mcp`: the parts of a configuration.
    * `fresh_body`, `stale_body`: a body after LiteLLM has answered, and without
      an answer.
    * `opencode_config`: the route, for a token that is good.

    A function that may raise returns an option; the module does not look at
    what was raised.
-/

namespace AlitellmAuth.Opencode

open PyValue Catalog Text

variable {F : Type}

/-- What Python knows of numbers. -/
structure Numbers (F : Type) extends Texts F where
  /-- `int(x)` of a float and of a text. -/
  int_of_float : F → Option Int
  int_of_text : PyStr → Option Int
  /-- `float(x)` of a whole number and of a text. -/
  float_of_int : Int → Option F
  float_of_text : PyStr → Option F
  /-- `round(x * 1e6, 6)`. -/
  millions : F → F
  /-- `==`, of two keys that are no texts. -/
  same : PyValue F → PyValue F → Bool
  /-- `float(0)`. -/
  zero : F
  float_of_zero : float_of_int 0 = some zero
  finite_zero : isFinite (millions zero) = true

/-- The settings that the route reads. `skill` is the text of the skill, and
    `sha` is `_sha`. -/
structure OpencodeSettings (F : Type) where
  api_public_url : String
  provider_name : String
  default_model : Option String
  default_small_model : Option String
  /-- The keys of `settings.services`. -/
  services : List String
  skill : String
  sha : PyValue F → String

section
variable (N : Numbers F)

/-! ## Numbers -/

/-- `int(value)`. -/
def int_of : PyValue F → Option Int
  | .int n => some n
  | .bool b => some (if b then 1 else 0)
  | .float x => N.int_of_float x
  | .str s => N.int_of_text s
  | _ => none

/-- `float(value)`. -/
def float_of : PyValue F → Option F
  | .int n => N.float_of_int n
  | .bool b => N.float_of_int (if b then 1 else 0)
  | .float x => some x
  | .str s => N.float_of_text s
  | _ => none

/-- `==`, of two keys. -/
def key_eq : PyValue F → PyValue F → Bool
  | .str s, .str t => s == t
  | .str _, _ => false
  | _, .str _ => false
  | key, key' => N.same key key'

/-! ## The view of the master key -/

def DEPLOYMENT_CAPABILITY_KEYS : List String :=
  ["mode", "max_input_tokens", "max_output_tokens", "input_cost_per_token",
    "output_cost_per_token", "cache_read_input_token_cost", "supports_vision",
    "supports_pdf_input", "supports_audio_input", "supports_video_input",
    "supports_function_calling", "supports_reasoning"]

abbrev Deployments (F : Type) := List (PyValue F × Info F)

abbrev Aliases := List (PyStr × PyStr)

/-- `{k: info[k] for k in DEPLOYMENT_CAPABILITY_KEYS if info.get(k) is not None}`. -/
def capabilities_of (info : List (PyStr × PyValue F)) : Info F :=
  DEPLOYMENT_CAPABILITY_KEYS.filterMap fun k =>
    match get info k with
    | .null => none
    | value => some (k, value)

/-- One row of a page: the first deployment of a name counts. -/
def add_deployment (out : Deployments F) : PyValue F → Option (Deployments F)
  | .obj row =>
      let name := get row "model_name"
      let info := or_value N.toTexts (get row "model_info") (.obj [])
      if name.truthy N.isZero then
        -- A list or a dictionary cannot be looked up in a dictionary.
        if name.hashable then
          if out.any fun entry => key_eq N entry.1 name then some out
          else
            match info with
            | .obj info => some (out ++ [(name, capabilities_of info)])
            | _ => none
        else none
      else some out
  | _ => none

/-- `for row in body.get("data") or []`; of what is no list there is no row with
    a name. -/
def add_page (out : Deployments F) (body : List (PyStr × PyValue F)) : Option (Deployments F) :=
  match or_value N.toTexts (get body "data") (.arr []) with
  | .arr rows => rows.foldlM (add_deployment N) out
  | _ => none

/-- The body of a successful answer. -/
def body_of : HttpAnswer F → Option (PyValue F)
  | .unreachable => none
  | .response status body => if is_success status then body else none

def _MAX_MODEL_INFO_PAGES : Nat := 50

/-- The pages from `page` on, at most `left` of them. -/
def read_pages (answers : Nat → HttpAnswer F) :
    Nat → Nat → Int → Deployments F → Option (Deployments F)
  | 0, _, _, out => some out
  | left + 1, page, pages, out =>
      if (page : Int) ≤ pages then
        match body_of (answers page) with
        | some (.obj body) => do
            let pages ← int_of N (or_value N.toTexts (get body "total_pages") (.int 1))
            let out ← add_page N out body
            read_pages answers left (page + 1) pages out
        | _ => none
      else some out

def list_deployment_capabilities (answers : Nat → HttpAnswer F) : Option (Deployments F) :=
  read_pages N answers _MAX_MODEL_INFO_PAGES 1 1 []

/-- `value or {}`, if `.get` can be called on it. -/
def dict_or_empty (value : PyValue F) : Option (List (PyStr × PyValue F)) :=
  match or_value N.toTexts value (.obj []) with
  | .obj fields => some fields
  | _ => none

/-- The target of an alias. -/
def target_of (target : PyValue F) : PyValue F :=
  match target with
  | .obj target => get target "model"
  | target => target

/-- One alias; a target that is no text is left out. -/
def add_alias (out : Aliases) (entry : PyStr × PyValue F) : Aliases :=
  match target_of entry.2 with
  | .str target => Dict.put out entry.1 target
  | _ => out

def get_model_group_aliases (answer : HttpAnswer F) : Option Aliases := do
  let body ← body_of answer
  let config ← dict_or_empty N body
  let router ← dict_or_empty N (get config "router_settings")
  let raw ← dict_or_empty N (get router "model_group_alias")
  return raw.foldl add_alias []

/-- What is known of the deployments. -/
structure Caps (F : Type) where
  deployments : Deployments F
  aliases : Aliases

/-- `_caps` at the start. -/
def Caps.empty : Caps F := ⟨[], []⟩

/-- What `_load_caps` finds; a failure changes nothing. -/
def load_caps (pages : Nat → HttpAnswer F) (callbacks : HttpAnswer F) : Option (Caps F) := do
  let deployments ← list_deployment_capabilities N pages
  let aliases ← get_model_group_aliases N callbacks
  return ⟨deployments, aliases⟩

/-- `deployments.get(aliases.get(name, name), {})`. -/
def Caps.of (caps : Caps F) (name : PyStr) : Info F :=
  let target := (caps.aliases.lookup name).getD name
  ((caps.deployments.find? fun entry => key_eq N entry.1 (.str target)).map (·.2)).getD []

/-! ## Models -/

def DEFAULT_CONTEXT : Int := 128000

def DEFAULT_OUTPUT : Int := 8192

def _MODALITIES : List (String × String) :=
  [("supports_vision", "image"), ("supports_audio_input", "audio"), ("supports_pdf_input", "pdf"),
    ("supports_video_input", "video")]

/-- The entry of a model, but for its name. -/
structure Entry (F : Type) where
  inputs : List String
  reasoning : Bool
  tool_call : Bool
  context : Int
  output : Int
  input_cost : F
  output_cost : F
  cache_read : F

def _per_million (value : PyValue F) : Option F :=
  (float_of N (or_value N.toTexts value (.int 0))).map N.millions

def _model (info : Info F) : Option (Entry F) := do
  let context ← int_of N (or_value N.toTexts (info_get info "max_input_tokens") (.int DEFAULT_CONTEXT))
  let output ← int_of N (or_value N.toTexts (info_get info "max_output_tokens") (.int DEFAULT_OUTPUT))
  let input_cost ← _per_million N (info_get info "input_cost_per_token")
  let output_cost ← _per_million N (info_get info "output_cost_per_token")
  let cache_read ← _per_million N (info_get info "cache_read_input_token_cost")
  return {
    inputs := "text" :: (_MODALITIES.filter fun m => (info_get info m.1).truthy N.isZero).map (·.2)
    reasoning := (info_get info "supports_reasoning").truthy N.isZero
    tool_call := (info_get info "supports_function_calling").truthy N.isZero
    context, output, input_cost, output_cost, cache_read }

/-- The entry as it is sent. -/
def entry_value (name : PyStr) (entry : Entry F) : PyValue F :=
  dict [("name", .str name),
    ("attachment", .bool (1 < entry.inputs.length)),
    ("reasoning", .bool entry.reasoning),
    ("tool_call", .bool entry.tool_call),
    ("temperature", .bool true),
    ("modalities", dict [("input", .arr (entry.inputs.map text)), ("output", .arr [text "text"])]),
    ("limit", dict [("context", .int entry.context), ("output", .int entry.output)]),
    ("cost", dict [("input", .float entry.input_cost), ("output", .float entry.output_cost),
      ("cache_read", .float entry.cache_read)])]

/-- `{**group, **deployment}`. -/
def merged (group deployment : Info F) : Info F :=
  deployment.foldl (fun info field => Table.put info field.1 field.2) group

/-- The name of a group that is shown: a chat group with a name. A name that is
    no text has not come through the sorting of the list. -/
def chat_name (group : Info F) : Option PyStr :=
  match info_get group "name" with
  | .str name => if !name.isEmpty && (info_get group "mode").is "chat" then some name else none
  | _ => none

/-- A group in the loop of `_models`. -/
def add_model (caps : Caps F) (out : List (PyStr × Entry F)) (group : Info F) :
    Option (List (PyStr × Entry F)) :=
  match chat_name group with
  | some name => do
      let entry ← _model N (merged group (caps.of N name))
      return Dict.put out name entry
  | none => some out

/-- `_models`: a later group of one name takes the place of an earlier one. -/
def _models (groups : List (Info F)) (caps : Caps F) : Option (List (PyStr × Entry F)) :=
  groups.foldlM (add_model N caps) []

/-! ## The parts of a configuration -/

variable (S : OpencodeSettings F)

/-- `settings.api_public_url.rstrip("/")`. -/
def OpencodeSettings.base : String := rstrip_slash S.api_public_url

def _provider (models : List (PyStr × Entry F)) : List (PyStr × PyValue F) :=
  if S.base = "" ∨ models = [] then []
  else [(lit S.provider_name, dict [
    ("name", text S.provider_name),
    ("npm", text "@ai-sdk/openai-compatible"),
    ("options", dict [("baseURL", text (S.base ++ "/v1"))]),
    ("models", .obj (models.map fun model => (model.1, entry_value model.1 model.2)))])]

/-- A default, if the user sees the model. -/
def default_entry (models : List (PyStr × Entry F)) (k : String) (name : Option String) :
    List (PyStr × PyValue F) :=
  match name with
  | some name =>
      if name ≠ "" ∧ (models.lookup (lit name)).isSome then
        [(lit k, text (S.provider_name ++ "/" ++ name))]
      else []
  | none => []

def _defaults (models : List (PyStr × Entry F)) : List (PyStr × PyValue F) :=
  default_entry S models "model" S.default_model ++
    default_entry S models "small_model" S.default_small_model

def _mcp (servers : List PyStr) : List (PyStr × PyValue F) :=
  if S.base = "" then []
  else
    ((servers ++ S.services.map lit).eraseDups.insertionSort fun a b => codes a ≤ codes b).map
      fun name => (name, dict [("type", text "remote"),
        ("url", .str (lit (S.base ++ "/mcp/") ++ name)), ("enabled", .bool false)])

/-- The configuration; parts without an entry are left out. -/
def config_of (provider mcp defaults : List (PyStr × PyValue F)) : List (PyStr × PyValue F) :=
  (if provider.isEmpty then [] else [(lit "provider", .obj provider)]) ++
    (if mcp.isEmpty then [] else [(lit "mcp", .obj mcp)]) ++ defaults

def SCHEMA : String := "ackstorm.opencode-config/1"

def GENAI_API : String := "genai-api"

def _skills : PyValue F :=
  .arr [dict [("name", text GENAI_API), ("version", text (S.sha (text S.skill))),
    ("files", dict [("SKILL.md", text S.skill)])]]

/-- `_body`. -/
def _body (generatedAt : String) (user : PyValue F) (config : List (PyStr × PyValue F))
    (skills : PyValue F) (auth : String) (stale : Bool) : List (String × PyValue F) :=
  [("schema", text SCHEMA),
    ("version", text (S.sha (dict [("config", .obj config), ("skills", skills)]))),
    ("user", user),
    ("environment", .null),
    ("auth", text auth),
    ("stale", .bool stale),
    ("generatedAt", text generatedAt),
    ("config", .obj config),
    ("skills", skills)]

/-! ## A request -/

/-- What LiteLLM answers under the key of a user, before the deadline: `none` if
    there is no key, or not in time. The servers have a deadline of their own. -/
structure Upstream (F : Type) where
  groups : HttpAnswer F
  servers : Option (HttpAnswer F)

/-- `_visible_mcp`: no answer is no servers. -/
def _visible_mcp (servers : Option (HttpAnswer F)) : List PyStr :=
  match servers with
  | none => []
  | some answer =>
      match list_litellm_mcp_servers N.toTexts answer with
      | .ok rows => rows.filterMap fun row =>
          match info_get row "name" with
          | .str name => if name.isEmpty then none else some name
          | _ => none
      | .error _ => []

/-- `_visible`. -/
def _visible : Option (Upstream F) → Option (List (Info F) × List PyStr)
  | none => none
  | some upstream =>
      match list_litellm_models N.toTexts upstream.groups with
      | .ok groups => some (groups, _visible_mcp N upstream.servers)
      | .error _ => none

/-- The body for what a user sees; `none` if a number of a model raises. -/
def fresh_body (generatedAt : String) (email : PyStr) (seen : List (Info F) × List PyStr)
    (caps : Caps F) : Option (List (String × PyValue F)) := do
  let models ← _models N seen.1 caps
  return _body S generatedAt (.str email)
    (config_of (_provider S models) (_mcp S seen.2) (_defaults S models)) (_skills S) "ok" false

/-- The body without an answer of LiteLLM: the last one that was kept, or one
    with skills only. -/
def stale_body (generatedAt : String) (email : PyStr) :
    Option (List (String × PyValue F)) → List (String × PyValue F)
  | some (field :: fields) => Table.put (field :: fields) "stale" (.bool true)
  | _ => _body S generatedAt (.str email) [] (_skills S) "ok" true

/-- The body for a token that is not good. -/
def invalid_body (generatedAt : String) : List (String × PyValue F) :=
  _body S generatedAt .null [] (.arr []) "invalid" false

/-- The token of an `Authorization` header with a bearer. -/
def bearer_token (authorization : Option String) : Option String :=
  let header := (authorization.getD "").toList
  let scheme := header.takeWhile (· != ' ')
  let token := strip (String.ofList ((header.dropWhile (· != ' ')).drop 1))
  if lower (String.ofList scheme) = "bearer" ∧ token ≠ "" then some token else none

/-- The route, for a good token: what it keeps for the next time, and its reply.
    `cached` is what the store has for the user, if it can be read. -/
def config_for (generatedAt : String) (email : PyStr) (upstream : Option (Upstream F))
    (caps : Caps F) (cached : Option (List (String × PyValue F))) :
    Option (List (String × PyValue F)) × RouteReply F :=
  match _visible N upstream with
  | some seen =>
      match fresh_body N S generatedAt email seen caps with
      | some body => (some body, respond N.toTexts (dict body))
      | none => (none, .crash)
  | none => (none, respond N.toTexts (dict (stale_body S generatedAt email cached)))

/-- The reply of the route; `verify` gives the subject of a good token. -/
def opencode_config (verify : String → Option PyStr) (authorization : Option String)
    (generatedAt : String) (upstream : Option (Upstream F)) (caps : Caps F)
    (cached : PyStr → Option (List (String × PyValue F))) : RouteReply F :=
  match bearer_token authorization with
  | none => .http 401 "bearer token required"
  | some token =>
      match verify token with
      | none => respond N.toTexts (dict (invalid_body S generatedAt))
      | some email => (config_for N S generatedAt email upstream caps (cached email)).2

end

end AlitellmAuth.Opencode
