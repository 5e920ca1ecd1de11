import AlitellmAuth.Framework.Shares
import AlitellmAuth.Framework.Text
import AlitellmAuth.Litellm.Client
import AlitellmAuth.Stats.Series

/-! # The daily activity of a user

    `litellm_client.py` asks LiteLLM for the daily activity of a user, one page
    after the other, and `stats.py` folds the rows of all pages into the window
    of the usage page.

    * `user_daily_activity`: the loop, which adds the totals of the pages up.
    * `aggregate_window`, `last_used_from_window`: the folds.
    * `PageOf`, `Serves`: what LiteLLM sends for some usage records.
-/

namespace AlitellmAuth.Stats

open Litellm

/-! ## Fetching -/

def DAILY_ACTIVITY_MAX_PAGES : Nat := 500

/-- A row of `results[]`, with `day.get("breakdown") or {}`. -/
structure ActivityRow extends ResultRow where
  breakdown : Dict

/-- What becomes of the request for a page: an error of the request or of its
    status, a body that is not JSON, or a body. `results` is empty unless it is
    a list, and its items that are no dictionaries are left out, as every
    reader skips them; `metadata` is none if it is there and no dictionary. -/
inductive ActivityAnswer where
  | http_error
  | not_json
  | body (results : List ActivityRow) (metadata : Option Dict)

/-- What is raised: an error of a request, the `ValueError` of a body that is
    not JSON, or the `AttributeError` of a `.get` on no dictionary. -/
inductive ActivityError where
  | http
  | decode
  | attribute

/-- What `user_daily_activity` returns. -/
structure WindowData where
  results : List ActivityRow
  metadata : Dict

/-- Is a field of the metadata a window total? `total_pages` is bookkeeping. -/
def is_total (field : String) : Bool :=
  "total_".toList.isPrefixOf field.toList && field != "total_pages"

/-- The numeric window totals of a page. -/
def page_totals (metadata : Dict) : List (String × Rat) :=
  metadata.filterMap fun field =>
    match field.2 with
    | .num value => if is_total field.1 then some (field.1, value) else none
    | _ => none

/-- `summed_totals[field] = summed_totals.get(field, 0) + value`, for each of them. -/
def sum_totals (summed_totals : List (String × Rat)) (metadata : Dict) : List (String × Rat) :=
  (page_totals metadata).foldl (Groups.add (·.1) 0 fun s t => s + t.2) summed_totals

/-- `{**last_metadata, **summed_totals}`. -/
def merged_metadata (last_metadata : Dict) (summed_totals : List (String × Rat)) : Dict :=
  Json.update last_metadata (summed_totals.map fun t => (t.1, .num t.2))

/-- The `while True` loop, with the number of pages it may still ask for. -/
def fetch_days (respond : Nat → ActivityAnswer) :
    Nat → Nat → List ActivityRow → Dict → List (String × Rat) → Except ActivityError WindowData
  | 0, _, accumulated, last_metadata, summed_totals =>
      .ok ⟨accumulated, merged_metadata last_metadata summed_totals⟩
  | pages + 1, page, accumulated, last_metadata, summed_totals =>
      match respond page with
      | .http_error => .error .http
      | .not_json => .error .decode
      | .body results metadata =>
          let accumulated := accumulated ++ results
          let last_metadata := metadata.getD last_metadata
          let summed_totals := sum_totals summed_totals (metadata.getD [])
          if (field last_metadata "has_more").truthy then
            fetch_days respond pages (page + 1) accumulated last_metadata summed_totals
          else .ok ⟨accumulated, merged_metadata last_metadata summed_totals⟩

/-- `user_daily_activity`, given what becomes of the request for each page. -/
def user_daily_activity (respond : Nat → ActivityAnswer) : Except ActivityError WindowData :=
  fetch_days respond DAILY_ACTIVITY_MAX_PAGES 1 [] [] []

/-! ## The rows of a day -/

/-- `value or {}`, before a `.get`. -/
def or_empty (value : Option Json) : Except ActivityError Dict :=
  match value with
  | some (.obj fields) => .ok fields
  | some value => if value.truthy then .error .attribute else .ok []
  | none => .ok []

/-- The fields of a dictionary, of another value none. -/
def dict_of (value : Json) : Dict :=
  match value with
  | .obj fields => fields
  | _ => []

def MCP_PREFIX : String := "MCP:"

def MCP_PROTOCOL_TOOLS : List String := ["list_tools"]

def MCP_UNKNOWN_SERVER : String := "unknown server"

/-- `_mcp_row_name`. -/
def mcp_row_name (tool : String) : String :=
  if tool ∈ MCP_PROTOCOL_TOOLS ∨ '/' ∈ tool.toList ∨ '.' ∈ tool.toList then MCP_PREFIX ++ " " ++ tool
  else MCP_PREFIX ++ " " ++ MCP_UNKNOWN_SERVER ++ "/" ++ tool

/-- The tool of an MCP row of `model_groups`. -/
def mcp_tool_of (name : String) : Option String :=
  if MCP_PREFIX.toList.isPrefixOf (Text.strip name).toList then
    some (Text.strip (String.ofList ((Text.strip name).toList.drop MCP_PREFIX.toList.length)))
  else none

/-- The name of a row of `model_groups`, unless it is counted from `mcp_servers`. -/
def group_row_name (mcp : Dict) (name : String) : Option String :=
  match mcp_tool_of name with
  | some tool =>
      if !mcp.isEmpty && !decide (tool ∈ MCP_PROTOCOL_TOOLS) then none else some (mcp_row_name tool)
  | none => some name

/-- The blocks that are dictionaries, under the names that they are given. -/
def named_blocks (row_name : String → Option String) (blocks : Dict) : List (String × Dict) :=
  blocks.filterMap fun block =>
    match block.2 with
    | .obj fields => (row_name block.1).map fun name => (name, fields)
    | _ => none

/-- `breakdown.get("model_groups") or breakdown.get("models") or {}`. -/
def model_groups (breakdown : Dict) : Dict :=
  if (field breakdown "model_groups").truthy then dict_of (field breakdown "model_groups")
  else dict_of (field breakdown "models")

/-- `_day_model_blocks`. -/
def day_model_blocks (breakdown : Dict) : List (String × Dict) :=
  let mcp := dict_of (field breakdown "mcp_servers")
  named_blocks (group_row_name mcp) (model_groups breakdown) ++
    named_blocks (fun ns_tool => some (mcp_row_name ns_tool)) mcp

/-! ## The window -/

/-- The figures of a model. -/
@[ext] structure ModelFigures where
  requests : Int
  input_tokens : Int
  output_tokens : Int
  total_tokens : Int
  cache_read_tokens : Int
  spend : Rat

/-- The entry of a key. -/
structure KeyFigures where
  key_alias : Json
  requests : Int
  spend : Rat

/-- What `aggregate_window` returns. The entries of `models` and `keys` are
    under their names, which they hold as `model` and `id`. -/
structure WindowAggregate where
  requests : Int
  tokens : Int
  spend : Rat
  failed_requests : Int
  prompt_tokens : Int
  completion_tokens : Int
  cache_read_tokens : Int
  series : List DayEntry
  models : List (String × ModelFigures)
  keys : List (String × KeyFigures)

namespace ModelFigures

instance : Zero ModelFigures := ⟨⟨0, 0, 0, 0, 0, 0⟩⟩

instance : Add ModelFigures :=
  ⟨fun a b => ⟨a.requests + b.requests, a.input_tokens + b.input_tokens,
    a.output_tokens + b.output_tokens, a.total_tokens + b.total_tokens,
    a.cache_read_tokens + b.cache_read_tokens, a.spend + b.spend⟩⟩

end ModelFigures

section
variable (py_float : String → Option Rat)

/-- `int(_num(value))`. -/
def int_num (value : Option Json) : Int := truncate (num py_float value)

/-- What a block adds to its model. -/
def model_block_figures (m : Dict) : ModelFigures :=
  { requests := int_num py_float (m.lookup "api_requests")
    input_tokens := int_num py_float (m.lookup "prompt_tokens")
    output_tokens := int_num py_float (m.lookup "completion_tokens")
    total_tokens := int_num py_float (m.lookup "total_tokens")
    cache_read_tokens := int_num py_float (m.lookup "cache_read_input_tokens")
    spend := num py_float (m.lookup "spend") }

def accumulate_day_models (model_acc : List (String × ModelFigures)) (breakdown : Dict) :
    Except ActivityError (List (String × ModelFigures)) :=
  (day_model_blocks breakdown).foldlM (fun model_acc block => do
    let m ← or_empty (block.2.lookup "metrics")
    return Groups.add (·.1) 0 (fun acc b => acc + b.2) model_acc
      (block.1, model_block_figures py_float m)) model_acc

/-- One block added to its key: the first alias that is not null stays. The
    default of `setdefault` has no usage, and its alias is that of the block. -/
def add_key_block (acc : KeyFigures) (block : Dict × Dict) : KeyFigures :=
  { key_alias := if acc.key_alias.isNull then field block.2 "key_alias" else acc.key_alias
    requests := acc.requests + int_num py_float (block.1.lookup "api_requests")
    spend := acc.spend + num py_float (block.1.lookup "spend") }

def accumulate_day_keys (key_acc : List (String × KeyFigures)) (breakdown : Dict) :
    Except ActivityError (List (String × KeyFigures)) :=
  (named_blocks some (dict_of (field breakdown "api_keys"))).foldlM (fun key_acc block => do
    let k ← or_empty (block.2.lookup "metrics")
    let kmeta ← or_empty (block.2.lookup "metadata")
    return Groups.add (·.1) ⟨.null, 0, 0⟩ (fun acc b => add_key_block py_float acc b.2) key_acc
      (block.1, k, kmeta)) key_acc

/-- `aggregate_window`. -/
def aggregate_window (data : WindowData) : Except ActivityError WindowAggregate := do
  let metadata := data.metadata
  let models ← data.results.foldlM (fun acc day => accumulate_day_models py_float acc day.breakdown) []
  let keys ← data.results.foldlM (fun acc day => accumulate_day_keys py_float acc day.breakdown) []
  return {
    requests := int_num py_float (metadata.lookup "total_api_requests")
    tokens := int_num py_float (metadata.lookup "total_tokens")
    spend := num py_float (metadata.lookup "total_spend")
    failed_requests := int_num py_float (metadata.lookup "total_failed_requests")
    prompt_tokens := int_num py_float (metadata.lookup "total_prompt_tokens")
    completion_tokens := int_num py_float (metadata.lookup "total_completion_tokens")
    cache_read_tokens := int_num py_float (metadata.lookup "total_cache_read_input_tokens")
    series := aggregate_series py_float (data.results.map (·.toResultRow))
    models, keys }

end

/-- The later of the days on which a model was seen. -/
def note_last_used (day_date : String) (last_used : List (String × String)) (model_name : String) :
    List (String × String) :=
  match last_used.lookup model_name with
  | none => Table.put last_used model_name day_date
  | some existing =>
      if existing < day_date then Table.put last_used model_name day_date else last_used

/-- `last_used_from_window`. -/
def last_used_from_window (data : WindowData) : List (String × String) :=
  data.results.foldl (fun last_used day =>
    match present day.date with
    | some day_date =>
        (day_model_blocks day.breakdown).foldl (fun acc block => note_last_used day_date acc block.1)
          last_used
    | none => last_used) []

/-! ## Usage records -/

/-- The counters of some usage. -/
@[ext] structure Metrics where
  spend : Rat
  api_requests : Int
  total_tokens : Int
  prompt_tokens : Int
  completion_tokens : Int
  failed_requests : Int
  cache_read_input_tokens : Int

namespace Metrics

instance : Zero Metrics := ⟨⟨0, 0, 0, 0, 0, 0, 0⟩⟩

instance : Add Metrics :=
  ⟨fun a b => ⟨a.spend + b.spend, a.api_requests + b.api_requests, a.total_tokens + b.total_tokens,
    a.prompt_tokens + b.prompt_tokens, a.completion_tokens + b.completion_tokens,
    a.failed_requests + b.failed_requests,
    a.cache_read_input_tokens + b.cache_read_input_tokens⟩⟩

theorem add_def (a b : Metrics) : a + b = ⟨a.spend + b.spend, a.api_requests + b.api_requests,
    a.total_tokens + b.total_tokens, a.prompt_tokens + b.prompt_tokens,
    a.completion_tokens + b.completion_tokens, a.failed_requests + b.failed_requests,
    a.cache_read_input_tokens + b.cache_read_input_tokens⟩ := rfl

theorem zero_def : (0 : Metrics) = ⟨0, 0, 0, 0, 0, 0, 0⟩ := rfl

instance : AddCommMonoid Metrics where
  add_assoc a b c := by simp [add_def, add_assoc]
  zero_add a := by simp [add_def, zero_def]
  add_zero a := by simp [add_def, zero_def]
  add_comm a b := by simp [add_def, add_comm]
  nsmul := nsmulRec

end Metrics

namespace ModelFigures

theorem add_def (a b : ModelFigures) : a + b = ⟨a.requests + b.requests,
    a.input_tokens + b.input_tokens, a.output_tokens + b.output_tokens,
    a.total_tokens + b.total_tokens, a.cache_read_tokens + b.cache_read_tokens,
    a.spend + b.spend⟩ := rfl

theorem zero_def : (0 : ModelFigures) = ⟨0, 0, 0, 0, 0, 0⟩ := rfl

instance : AddCommMonoid ModelFigures where
  add_assoc a b c := by simp [add_def, add_assoc]
  zero_add a := by simp [add_def, zero_def]
  add_zero a := by simp [add_def, zero_def]
  add_comm a b := by simp [add_def, add_comm]
  nsmul := nsmulRec

end ModelFigures

/-- The counters under their names in the `metrics` of a row or a block. -/
def METRICS : List (String × (Metrics → Rat)) :=
  [("spend", (·.spend)), ("api_requests", (·.api_requests)), ("total_tokens", (·.total_tokens)),
    ("prompt_tokens", (·.prompt_tokens)), ("completion_tokens", (·.completion_tokens)),
    ("failed_requests", (·.failed_requests)),
    ("cache_read_input_tokens", (·.cache_read_input_tokens))]

/-- The counters under their names in the `metadata` of a page. -/
def TOTALS : List (String × (Metrics → Rat)) :=
  [("total_spend", (·.spend)), ("total_api_requests", (·.api_requests)),
    ("total_tokens", (·.total_tokens)), ("total_prompt_tokens", (·.prompt_tokens)),
    ("total_completion_tokens", (·.completion_tokens)),
    ("total_failed_requests", (·.failed_requests)),
    ("total_cache_read_input_tokens", (·.cache_read_input_tokens))]

/-- Is a public name the name of a call to an MCP tool? Asking for the tools is
    not a call to one. -/
def is_tool_call (model_group : Option String) : Bool :=
  (model_group.bind mcp_tool_of).any fun tool => !decide (tool ∈ MCP_PROTOCOL_TOOLS)

/-- A usage record: its day, its deployment and its public name if it has a
    model, the namespaced tool if it is a call to one, the hash of its key. -/
structure UsageRecord where
  date : String
  model : Option String
  model_group : Option String
  mcp_tool : Option String
  api_key : String
  metrics : Metrics
  grouped : model.isSome = true → model_group.isSome = true
  tool_called : mcp_tool.isSome = is_tool_call model_group

/-- What some records add up to. -/
def total_of (records : List UsageRecord) : Metrics := (records.map (·.metrics)).sum

/-- What the records with a property add up to. -/
def usage_of (p : UsageRecord → Bool) (records : List UsageRecord) : Metrics :=
  Shares.sum_of (·.metrics) p records

/-! ## What LiteLLM sends -/

/-- A dictionary of metrics. -/
def Tells (names : List (String × (Metrics → Rat))) (m : Dict) (usage : Metrics) : Prop :=
  ∀ f ∈ names, m.lookup f.1 = some (.num (f.2 usage))

/-- A part of a breakdown: a block for each key of the records. -/
structure BlocksOf (key : UsageRecord → Option String) (records : List UsageRecord)
    (blocks : Dict) : Prop where
  nodup : (blocks.map (·.1)).Nodup
  keys : ∀ k, k ∈ blocks.map (·.1) ↔ ∃ r ∈ records, key r = some k
  block : ∀ block ∈ blocks, ∃ fields m, block.2 = .obj fields ∧
    fields.lookup "metrics" = some (.obj m) ∧
    Tells METRICS m (usage_of (fun r => decide (key r = some block.1)) records)

/-- An alias as JSON. -/
def alias_json : Option String → Json
  | some text => .str text
  | none => .null

/-- The blocks of the keys know the aliases. -/
def KnowAliases (alias_of : String → Option String) (blocks : Dict) : Prop :=
  ∀ block ∈ blocks, ∀ fields, block.2 = .obj fields → ∃ kmeta,
    fields.lookup "metadata" = some (.obj kmeta) ∧
    field kmeta "key_alias" = alias_json (alias_of block.1)

/-- A part of a breakdown is there, or it is empty. -/
def part (breakdown : Dict) (name : String) : Json := (breakdown.lookup name).getD (.obj [])

/-- The row of some records of one day. -/
structure RowOf (alias_of : String → Option String) (records : List UsageRecord)
    (row : ActivityRow) : Prop where
  metrics : Tells METRICS row.metrics (total_of records)
  model_groups : ∃ blocks, part row.breakdown "model_groups" = .obj blocks ∧
    BlocksOf (·.model_group) records blocks
  models : ∃ blocks, part row.breakdown "models" = .obj blocks ∧ BlocksOf (·.model) records blocks
  mcp_servers : ∃ blocks, part row.breakdown "mcp_servers" = .obj blocks ∧
    BlocksOf (·.mcp_tool) records blocks
  api_keys : ∃ blocks, part row.breakdown "api_keys" = .obj blocks ∧
    BlocksOf (fun r => some r.api_key) records blocks ∧ KnowAliases alias_of blocks

/-- A page of some records: a row for each of their days, in any order, and the
    totals. -/
structure PageOf (alias_of : String → Option String) (records : List UsageRecord)
    (results : List ActivityRow) (metadata : Dict) : Prop where
  one_row : (results.map (·.date)).Nodup
  row : ∀ row ∈ results, ∃ d, row.date = some d ∧ (∃ r ∈ records, r.date = d) ∧
    RowOf alias_of (records.filter (·.date = d)) row
  all_days : ∀ r ∈ records, some r.date ∈ results.map (·.date)
  nodup : (metadata.map (·.1)).Nodup
  totals : Tells TOTALS metadata (total_of records)

/-- LiteLLM answers for some pages, from one on, and says behind each one but the
    last that there are more. -/
def ServesPages (alias_of : String → Option String) (respond : Nat → ActivityAnswer) :
    Nat → List (List UsageRecord) → Prop
  | _, [] => True
  | page, records :: rest => ∃ results metadata,
      respond page = .body results (some metadata) ∧ PageOf alias_of records results metadata ∧
        field metadata "has_more" = .bool (!rest.isEmpty) ∧ ServesPages alias_of respond (page + 1) rest

/-! ## What the records say -/

/-- The name under which a record is shown: a call to a tool under the tool,
    another one under its public name. -/
def shown_name (r : UsageRecord) : Option String :=
  match r.mcp_tool with
  | some ns_tool => some (mcp_row_name ns_tool)
  | none => r.model_group.map fun name =>
      match mcp_tool_of name with
      | some tool => mcp_row_name tool
      | none => name

def Metrics.day (t : Metrics) : Figures :=
  ⟨t.spend, t.api_requests, t.total_tokens, t.prompt_tokens, t.completion_tokens, t.failed_requests⟩

def Metrics.ofModel (t : Metrics) : ModelFigures :=
  ⟨t.api_requests, t.prompt_tokens, t.completion_tokens, t.total_tokens, t.cache_read_input_tokens,
    t.spend⟩

def WindowAggregate.totals (w : WindowAggregate) : Metrics :=
  ⟨w.spend, w.requests, w.tokens, w.prompt_tokens, w.completion_tokens, w.failed_requests,
    w.cache_read_tokens⟩

/-- Every record is counted once: in the totals, on its day, under its name and
    under its key. -/
structure CountsOnce (alias_of : String → Option String) (records : List UsageRecord)
    (w : WindowAggregate) : Prop where
  totals : w.totals = total_of records
  ordered : w.series.Pairwise fun a b => a.date.getD "" < b.date.getD ""
  series : ∀ e, e ∈ w.series ↔ ∃ d, e.date = some d ∧ (∃ r ∈ records, r.date = d) ∧
    e.figures = (usage_of (fun r => decide (r.date = d)) records).day
  one_model : (w.models.map (·.1)).Nodup
  models : ∀ name figures, (name, figures) ∈ w.models ↔
    (∃ r ∈ records, shown_name r = some name) ∧
      figures = (usage_of (fun r => decide (shown_name r = some name)) records).ofModel
  one_key : (w.keys.map (·.1)).Nodup
  keys : ∀ k figures, (k, figures) ∈ w.keys ↔ (∃ r ∈ records, r.api_key = k) ∧
    figures = ⟨alias_json (alias_of k), (usage_of (fun r => decide (r.api_key = k)) records).api_requests,
      (usage_of (fun r => decide (r.api_key = k)) records).spend⟩

/-- Each name that is shown, with its last day. A day without a text is none. -/
structure LastDays (records : List UsageRecord) (last_used : List (String × String)) : Prop where
  one_day : (last_used.map (·.1)).Nodup
  days : ∀ name d, (name, d) ∈ last_used ↔
    (∃ r ∈ records, shown_name r = some name ∧ r.date = d ∧ d ≠ "") ∧
      ∀ r ∈ records, shown_name r = some name → r.date ≤ d

end AlitellmAuth.Stats
