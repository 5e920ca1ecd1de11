import Mathlib.Data.List.ReduceOption
import AlitellmAuth.Framework.PyText
import AlitellmAuth.OpenWork.Den

/-! # The MCP endpoint

    `den_mcp_agent` answers a JSON-RPC message or a batch of them. What is read
    of a message is of any JSON type, and one exception loses the replies to
    the whole batch.

    * `mcp_reply`, `mcp_post`: the code.
    * `AnsweredOnce`: one reply for each message that is no notification.
    * `Answerable`: the messages it can answer.
    * `mcp_post_answers_iff`: a body is answered if and only if all its
      messages can be.
-/

namespace AlitellmAuth.OpenWork

open PyValue

variable {F : Type}

/-! ## Data -/

/-- `_MCP_PROTOCOL_VERSIONS`. -/
def MCP_PROTOCOL_VERSIONS : List String := ["2025-06-18", "2025-03-26"]

/-- The type of a property of an input. -/
def typed (name : String) : PyValue F := dict [("type", text name)]

def freeForm : PyValue F :=
  dict [("type", text "object"), ("additionalProperties", .bool true)]

/-- `_MCP_TOOLS`. -/
def MCP_TOOLS : PyValue F := .arr [
  dict [("name", text "search_capabilities"),
    ("description", text "Search this organization's Connect catalog. It is currently empty."),
    ("annotations", dict [("readOnlyHint", .bool true)]),
    ("inputSchema", dict [("type", text "object"),
      ("properties", dict [("query", typed "string"),
        ("limit", dict [("type", text "integer"), ("minimum", .int 1), ("maximum", .int 20)]),
        ("type", typed "string"), ("intent", typed "string")]),
      ("required", .arr [text "query"])])],
  dict [("name", text "execute_capability"),
    ("description", text "Run a capability by the exact name search_capabilities returned."),
    ("annotations", dict [("destructiveHint", .bool true)]),
    ("inputSchema", dict [("type", text "object"),
      ("properties", dict [("name", typed "string"), ("body", freeForm), ("path", freeForm),
        ("query", freeForm)]),
      ("required", .arr [text "name"])])]]

/-- `_MCP_RESOURCES`. -/
def MCP_RESOURCES (P : Printing F) : List (PyStr × PyStr) := [
  (lit "skill://index.json", chars (dumps P (dict [
    ("$schema", text "https://schemas.agentskills.io/discovery/0.2.0/schema.json"),
    ("skills", .arr [])]))),
  (lit "automation://index.json", chars (dumps P (dict [("fetchedAt", .int 0), ("total", .int 0),
    ("omitted", .int 0), ("automations", .arr [])])))]

/-! ## One message -/

/-- `value or {}`. -/
def or_empty (P : Printing F) (value : PyValue F) : PyValue F :=
  if value.truthy P.isZero then value else .obj []

/-- `value.get(key)`; only a dictionary has it. -/
def get_of (value : PyValue F) (key : String) : Except PyError (PyValue F) :=
  match value with
  | .obj fields => .ok (get fields key)
  | _ => .error .attribute

/-- What a method answers: a result, or the code and the text of an error. -/
abbrev Answer (F : Type) := Except (Int × PyStr) (PyValue F)

/-- The version to speak: the requested one, if it is known. -/
def protocol_version (requested : PyValue F) : PyValue F :=
  if MCP_PROTOCOL_VERSIONS.any requested.is then requested else text "2025-06-18"

def initialize_result (params : PyValue F) : Except PyError (Answer F) := do
  let requested ← get_of params "protocolVersion"
  return .ok (dict [
    ("protocolVersion", protocol_version requested),
    ("capabilities", dict [("tools", dict [("listChanged", .bool false)]),
      ("resources", dict [("listChanged", .bool false)])]),
    ("serverInfo", dict [("name", text "alitellm-auth-den"), ("version", text "1")]),
    ("instructions", text ("This organization's Connect catalog is empty: search_capabilities " ++
      "returns no matches and there are no connected services, remote " ++
      "skills, workflows or automations. Do not suggest connecting services."))])

/-- The payload of an empty search. -/
def search_payload : PyValue F :=
  dict [("matches", .arr []), ("hint", text "The Connect catalog is empty.")]

/-- The content of a tool's answer. -/
def content (P : Printing F) (payload : PyValue F) : PyValue F :=
  .arr [dict [("type", text "text"), ("text", .str (chars (dumps P payload)))]]

def tools_call (P : Printing F) (params : PyValue F) : Except PyError (Answer F) := do
  let name ← get_of params "name"
  if name.is "search_capabilities" then
    return .ok (dict [("content", content P search_payload), ("structuredContent", search_payload),
      ("isError", .bool false)])
  else if name.is "execute_capability" then do
    let arguments ← get_of params "arguments"
    let called ← get_of (or_empty P arguments) "name"
    return .ok (dict [
      ("content", content P (dict [("error", text "unknown_capability"), ("name", called)])),
      ("isError", .bool true)])
  else return .error (-32602, lit "Unknown tool: " ++ str_of P name)

def resources_list (P : Printing F) : PyValue F :=
  dict [("resources", .arr ((MCP_RESOURCES P).map fun resource =>
    dict [("uri", .str resource.1), ("name", .str resource.1),
      ("mimeType", text "application/json")]))]

/-- `_MCP_RESOURCES.get(uri)`; a list or a dictionary cannot be looked up. -/
def resource_of (P : Printing F) (uri : PyValue F) : Except PyError (Option PyStr) :=
  match uri with
  | .str s => .ok ((MCP_RESOURCES P).lookup s)
  | uri => if uri.hashable then .ok none else .error .type

/-- The answer to a URI that was given. -/
def read_resource (P : Printing F) (uri : PyValue F) : Except PyError (Answer F) := do
  match ← resource_of P uri with
  | none => return .error (-32002, lit "Resource not found: " ++ str_of P uri)
  | some found => return .ok (dict [("contents", .arr [
      dict [("uri", uri), ("mimeType", text "application/json"), ("text", .str found)]])])

def resources_read (P : Printing F) (params : PyValue F) : Except PyError (Answer F) := do
  let given ← get_of params "uri"
  read_resource P (if given.truthy P.isZero then given else text "")

/-- The methods. -/
def dispatch (P : Printing F) (method params : PyValue F) : Except PyError (Answer F) :=
  if method.is "initialize" then initialize_result params
  else if method.is "ping" then .ok (.ok (dict []))
  else if method.is "tools/list" then .ok (.ok (dict [("tools", MCP_TOOLS)]))
  else if method.is "tools/call" then tools_call P params
  else if method.is "resources/list" then .ok (.ok (resources_list P))
  else if method.is "resources/read" then resources_read P params
  else if method.is "prompts/list" then .ok (.ok (dict [("prompts", .arr [])]))
  else .ok (.error (-32601, lit "Method not found: " ++ str_of P method))

/-- `ok` and `err`: the reply to a message. -/
def reply_of (mid : PyValue F) : Answer F → PyValue F
  | .ok result => dict [("jsonrpc", text "2.0"), ("id", mid), ("result", result)]
  | .error (code, message) => dict [("jsonrpc", text "2.0"), ("id", mid),
      ("error", dict [("code", .int code), ("message", .str message)])]

def invalid_request : PyValue F := reply_of .null (.error (-32600, lit "Invalid request"))

/-- `_mcp_reply`: one message in, one reply out; none for a notification. -/
def mcp_reply (P : Printing F) : PyValue F → Except PyError (Option (PyValue F))
  | .obj fields =>
      if (get fields "jsonrpc").is "2.0" then
        match fields.lookup (lit "id") with
        | none => .ok none
        | some mid => do
            let answer ← dispatch P (get fields "method") (or_empty P (get fields "params"))
            return some (reply_of mid answer)
      else .ok (some invalid_request)
  | _ => .ok (some invalid_request)

/-! ## The endpoint -/

/-- What is sent back: JSON, or 202 with an empty body. -/
inductive McpResponse (F : Type) where
  | json (content : PyValue F)
  | accepted

/-- `JSONResponse(content)`. -/
def json_response (P : Printing F) (content : PyValue F) : Except PyError (McpResponse F) :=
  if renderable P content then .ok (.json content) else .error .value

def messages_of : PyValue F → List (PyValue F)
  | .arr items => items
  | body => [body]

/-- The replies as they are sent: a batch is answered by a batch. -/
def packed (body : PyValue F) (replies : List (PyValue F)) : PyValue F :=
  match body with
  | .arr _ => .arr replies
  | _ => replies.headD .null

/-- The replies, if there are any. -/
def send_replies (P : Printing F) (body : PyValue F) (replies : List (PyValue F)) :
    Except PyError (McpResponse F) :=
  if replies.isEmpty then .ok .accepted else json_response P (packed body replies)

/-- What `den_mcp_agent` answers to a body once the token is known; none is a
    body that is not JSON. -/
def mcp_post (P : Printing F) : Option (PyValue F) → Except PyError (McpResponse F)
  | none => json_response P (reply_of .null (.error (-32700, lit "Parse error")))
  | some body => do
      let replies ← (messages_of body).mapM (mcp_reply P)
      send_replies P body replies.reduceOption

/-- `den_mcp_agent` with a body. -/
def den_mcp_agent_post (P : Printing F) (authorization : Option String)
    (body : Option (PyValue F)) : D (Response ⊕ Except PyError (McpResponse F)) := do
  match ← den_mcp_agent authorization with
  | .mcp_agent => return .inr (mcp_post P body)
  | res => return .inl res

/-! ## What the endpoint should do -/

/-- A JSON-RPC message. -/
def isMessage : PyValue F → Bool
  | .obj fields => (get fields "jsonrpc").is "2.0"
  | _ => false

/-- A well-formed notification: a message without an id. -/
def isNotification : PyValue F → Bool
  | .obj fields => (get fields "jsonrpc").is "2.0" && (fields.lookup (lit "id")).isNone
  | _ => false

/-- The id a reply has to echo. -/
def echoed : PyValue F → PyValue F
  | .obj fields => if (get fields "jsonrpc").is "2.0" then get fields "id" else .null
  | _ => .null

/-- A reply with the id of the message and a result or an error; what is no
    message is an invalid request. -/
def ReplyTo (message reply : PyValue F) : Prop :=
  (∃ answer, reply = reply_of (echoed message) answer) ∧
    (isMessage message = false → reply = invalid_request)

/-- One reply for each message that is no notification, in order. -/
structure AnsweredOnce (body : PyValue F) (res : McpResponse F) : Prop where
  silent : (messages_of body).all isNotification = true → res = .accepted
  replies : (messages_of body).all isNotification = false → ∃ replies,
    List.Forall₂ ReplyTo ((messages_of body).filter (!isNotification ·)) replies ∧
      res = .json (packed body replies)

/-! ## Methods -/

/-- The member of a dictionary. -/
def member (params : PyValue F) (key : String) : PyValue F :=
  match params with
  | .obj fields => get fields key
  | _ => .null

/-- If the value is a text, it can be encoded. -/
def plain : PyValue F → Bool
  | .str s => encodes s
  | _ => true

/-- The params a method can be called with. -/
structure Callable (P : Printing F) (method params : PyValue F) : Prop where
  named : plain method = true
  dictionary : method.is "initialize" = true ∨ method.is "tools/call" = true ∨
    method.is "resources/read" = true → params.isObj = true
  tool : method.is "tools/call" = true → plain (member params "name") = true
  arguments : method.is "tools/call" = true → (member params "name").is "execute_capability" = true →
    (or_empty P (member params "arguments")).isObj = true
  resource : method.is "resources/read" = true → plain (member params "uri") = true ∧
    ((member params "uri").truthy P.isZero = true → (member params "uri").hashable = true)

/-- The answer can be sent. -/
def sendable (P : Printing F) : Answer F → Bool
  | .ok result => renderable P result
  | .error (_, message) => encodes message

theorem plain_iff {value : PyValue F} :
    plain value = true ↔ ∀ s, value = .str s → encodes s = true := by
  cases value <;> simp [plain]

/-- A text that names the value can be sent if the value is plain. -/
theorem encodes_named (P : Printing F) (s : String) (value : PyValue F) :
    encodes (lit s ++ str_of P value) = plain value := by
  rw [encodes_append, encodes_lit, Bool.true_and, Bool.eq_iff_iff, encodes_str_of, plain_iff]

theorem plain_of_is {value : PyValue F} {s : String} (h : value.is s = true) :
    plain value = true := by
  rw [is_iff.mp h]
  exact encodes_lit s

theorem get_of_ok {value : PyValue F} (h : value.isObj = true) (key : String) :
    get_of value key = .ok (member value key) := by
  cases value with
  | obj fields => rfl
  | null | bool | int | float | str | arr => cases h

theorem get_of_error {value : PyValue F} (h : value.isObj = false) (key : String) :
    get_of value key = .error .attribute := by
  cases value with
  | obj fields => cases h
  | null | bool | int | float | str | arr => rfl

theorem initialize_result_iff (P : Printing F) (params : PyValue F) :
    (∃ answer, initialize_result params = .ok answer ∧ sendable P answer = true) ↔
      params.isObj = true := by
  by_cases h : params.isObj = true
  · refine iff_of_true ?_ h
    unfold initialize_result
    rw [get_of_ok h]
    refine ⟨_, rfl, ?_⟩
    have hversion : renderable P (protocol_version (member params "protocolVersion")) = true := by
      unfold protocol_version
      split
      · next hany =>
        obtain ⟨s, -, hs⟩ := List.any_eq_true.mp hany
        rw [is_iff.mp hs, renderable_text]
      · exact renderable_text P _
    simp [sendable, hversion]
  · refine iff_of_false ?_ h
    rintro ⟨answer, hanswer, -⟩
    unfold initialize_result at hanswer
    rw [get_of_error (by simpa using h)] at hanswer
    cases hanswer

theorem tools_call_iff (P : Printing F) (params : PyValue F) :
    (∃ answer, tools_call P params = .ok answer ∧ sendable P answer = true) ↔
      params.isObj = true ∧ plain (member params "name") = true ∧
      ((member params "name").is "execute_capability" = true →
        (or_empty P (member params "arguments")).isObj = true) := by
  by_cases h : params.isObj = true
  -- the parameters are a dictionary, so their members can be read
  · rw [and_iff_right h]
    unfold tools_call
    rw [get_of_ok h, get_of_ok h]
    generalize member params "name" = name
    by_cases hsearch : name.is "search_capabilities" = true
    · obtain rfl := is_iff.mp hsearch
      refine iff_of_true ⟨_, rfl, ?_⟩ ⟨plain_of_is hsearch, ?_⟩
      · simp [sendable, content, search_payload]
      · intro hexecute
        rw [is_of_text] at hexecute
        exact absurd hexecute (by decide)
    · by_cases hexecute : name.is "execute_capability" = true
      · rw [and_iff_right (plain_of_is hexecute)]
        dsimp only [bind, Except.bind]
        rw [if_neg hsearch, if_pos hexecute]
        -- only this tool reads its arguments
        by_cases hargs : (or_empty P (member params "arguments")).isObj = true
        · refine iff_of_true ?_ fun _ => hargs
          rw [get_of_ok hargs]
          exact ⟨_, rfl, by simp [sendable, content]⟩
        · refine iff_of_false ?_ fun hall => hargs (hall hexecute)
          rw [get_of_error (by simpa using hargs)]
          rintro ⟨answer, hanswer, -⟩
          cases hanswer
      · dsimp only [bind, Except.bind]
        rw [if_neg hsearch, if_neg hexecute]
        constructor
        · rintro ⟨answer, hanswer, hsend⟩
          cases hanswer
          rw [sendable, encodes_named] at hsend
          exact ⟨hsend, fun hname => absurd hname hexecute⟩
        · rintro ⟨hplain, -⟩
          refine ⟨_, rfl, ?_⟩
          rw [sendable, encodes_named]
          exact hplain
  · refine iff_of_false ?_ fun hall => h hall.1
    rintro ⟨answer, hanswer, -⟩
    unfold tools_call at hanswer
    rw [get_of_error (by simpa using h)] at hanswer
    cases hanswer

/-- The catalog of resources can be sent. -/
theorem renderable_resource (P : Printing F) {s found : PyStr}
    (h : (MCP_RESOURCES P).lookup s = some found) : encodes s = true ∧ encodes found = true := by
  have hmem : (s, found) ∈ MCP_RESOURCES P := by
    obtain ⟨before, after, heq, -⟩ := List.lookup_eq_some_iff.mp h
    rw [heq]
    simp
  unfold MCP_RESOURCES at hmem
  rcases List.mem_cons.mp hmem with heq | hmem
  · cases heq
    exact ⟨encodes_lit _, encodes_chars _⟩
  · cases List.mem_singleton.mp hmem
    exact ⟨encodes_lit _, encodes_chars _⟩

theorem read_resource_iff (P : Printing F) (uri : PyValue F) :
    (∃ answer, read_resource P uri = .ok answer ∧ sendable P answer = true) ↔
      plain uri = true ∧ uri.hashable = true := by
  -- an unknown resource is named in the answer, which must then be sent
  have hmissing : resource_of P uri = .ok none →
      ((∃ answer, read_resource P uri = .ok answer ∧ sendable P answer = true) ↔
        plain uri = true) := by
    intro hnone
    unfold read_resource
    rw [hnone]
    constructor
    · rintro ⟨answer, hanswer, hsend⟩
      cases hanswer
      rwa [sendable, encodes_named] at hsend
    · intro hplain
      refine ⟨_, rfl, ?_⟩
      rwa [sendable, encodes_named]
  cases uri with
  | str s =>
    refine Iff.trans ?_ (and_iff_left rfl).symm
    cases hfound : (MCP_RESOURCES P).lookup s with
    | none => exact hmissing (congrArg Except.ok hfound)
    | some found =>
      obtain ⟨hs, hencodes⟩ := renderable_resource P hfound
      refine iff_of_true ?_ hs
      unfold read_resource
      rw [show resource_of P (.str s) = .ok (some found) from congrArg Except.ok hfound]
      exact ⟨_, rfl, by simp [sendable, hs, hencodes]⟩
  | null | bool | int | float =>
    exact (hmissing rfl).trans (and_iff_left rfl).symm
  -- a list or a dictionary is no key: the lookup raises
  | arr | obj =>
    refine iff_of_false ?_ ?_
    · rintro ⟨answer, hanswer, -⟩
      cases hanswer
    · rintro ⟨-, hhash⟩
      cases hhash

theorem resources_read_iff (P : Printing F) (params : PyValue F) :
    (∃ answer, resources_read P params = .ok answer ∧ sendable P answer = true) ↔
      params.isObj = true ∧ plain (member params "uri") = true ∧
      ((member params "uri").truthy P.isZero = true → (member params "uri").hashable = true) := by
  by_cases h : params.isObj = true
  · rw [and_iff_right h]
    have hread : resources_read P params = read_resource P
        (if (member params "uri").truthy P.isZero then member params "uri" else text "") := by
      unfold resources_read
      rw [get_of_ok h]
      rfl
    rw [hread, read_resource_iff]
    generalize member params "uri" = given
    by_cases htruthy : given.truthy P.isZero = true
    · rw [if_pos htruthy]
      exact and_congr_right fun _ => ⟨fun hhash _ => hhash, fun hhash => hhash htruthy⟩
    · rw [if_neg htruthy]
      refine iff_of_true ⟨encodes_lit _, rfl⟩ ⟨?_, fun ht => absurd ht htruthy⟩
      -- an empty text can be encoded
      rw [plain_iff]
      rintro s rfl
      have hempty : s = [] := by simpa [truthy] using htruthy
      rw [hempty]
      rfl
  · refine iff_of_false ?_ fun hall => h hall.1
    rintro ⟨answer, hanswer, -⟩
    unfold resources_read at hanswer
    rw [get_of_error (by simpa using h)] at hanswer
    cases hanswer

/-- The methods that read no member are always answered. -/
theorem callable_fixed (P : Printing F) {name : String} (params : PyValue F)
    (h : name ≠ "initialize" ∧ name ≠ "tools/call" ∧ name ≠ "resources/read") :
    Callable P (text name) params := by
  obtain ⟨hinit, hcall, hread⟩ := h
  have hno : ∀ t, name ≠ t → (text name : PyValue F).is t = true → False := by
    intro t hne his
    rw [is_of_text] at his
    exact hne (of_decide_eq_true his)
  refine ⟨encodes_lit name, ?_, fun his => (hno _ hcall his).elim,
    fun his => (hno _ hcall his).elim, fun his => (hno _ hread his).elim⟩
  rintro (his | his | his)
  · exact (hno _ hinit his).elim
  · exact (hno _ hcall his).elim
  · exact (hno _ hread his).elim

/-- A method is answered if and only if it can be called with its params. -/
theorem dispatch_iff (P : Printing F) (method params : PyValue F) :
    (∃ answer, dispatch P method params = .ok answer ∧ sendable P answer = true) ↔
      Callable P method params := by
  -- a method is one of these texts, so the clauses about the others are void
  have hno : ∀ s t : String, s ≠ t → ¬ (text s : PyValue F).is t = true := by
    intro s t hne his
    rw [is_of_text] at his
    exact hne (of_decide_eq_true his)
  unfold dispatch
  -- the branches in the order of the source; each excludes those before it
  by_cases hinit : method.is "initialize" = true
  · rw [if_pos hinit, initialize_result_iff]
    obtain rfl := is_iff.mp hinit
    refine ⟨fun hobj => ⟨encodes_lit _, fun _ => hobj, ?_, ?_, ?_⟩, fun h => h.dictionary (.inl hinit)⟩
    · exact fun his => absurd his (hno _ _ (by decide))
    · exact fun his => absurd his (hno _ _ (by decide))
    · exact fun his => absurd his (hno _ _ (by decide))
  rw [if_neg hinit]
  by_cases hping : method.is "ping" = true
  · rw [if_pos hping]
    obtain rfl := is_iff.mp hping
    exact iff_of_true ⟨_, rfl, by simp [sendable]⟩ (callable_fixed P params (by decide))
  rw [if_neg hping]
  by_cases htools : method.is "tools/list" = true
  · rw [if_pos htools]
    obtain rfl := is_iff.mp htools
    exact iff_of_true ⟨_, rfl, by simp [sendable, MCP_TOOLS, typed, freeForm]⟩
      (callable_fixed P params (by decide))
  rw [if_neg htools]
  by_cases hcall : method.is "tools/call" = true
  · rw [if_pos hcall, tools_call_iff]
    obtain rfl := is_iff.mp hcall
    constructor
    · rintro ⟨hobj, hname, hargs⟩
      exact ⟨encodes_lit _, fun _ => hobj, fun _ => hname, fun _ => hargs,
        fun his => absurd his (hno _ _ (by decide))⟩
    · intro h
      exact ⟨h.dictionary (.inr (.inl hcall)), h.tool hcall, h.arguments hcall⟩
  rw [if_neg hcall]
  by_cases hlist : method.is "resources/list" = true
  · rw [if_pos hlist]
    obtain rfl := is_iff.mp hlist
    exact iff_of_true ⟨_, rfl, by simp [sendable, resources_list, MCP_RESOURCES]⟩
      (callable_fixed P params (by decide))
  rw [if_neg hlist]
  by_cases hread : method.is "resources/read" = true
  · rw [if_pos hread, resources_read_iff]
    obtain rfl := is_iff.mp hread
    constructor
    · rintro ⟨hobj, huri⟩
      exact ⟨encodes_lit _, fun _ => hobj, fun his => absurd his (hno _ _ (by decide)),
        fun his => absurd his (hno _ _ (by decide)), fun _ => huri⟩
    · intro h
      exact ⟨h.dictionary (.inr (.inr hread)), h.resource hread⟩
  rw [if_neg hread]
  by_cases hprompts : method.is "prompts/list" = true
  · rw [if_pos hprompts]
    obtain rfl := is_iff.mp hprompts
    exact iff_of_true ⟨_, rfl, by simp [sendable]⟩ (callable_fixed P params (by decide))
  rw [if_neg hprompts]
  -- an unknown method is named in the error, and must be sent
  constructor
  · rintro ⟨answer, hanswer, hsend⟩
    cases hanswer
    rw [sendable, encodes_named] at hsend
    refine ⟨hsend, ?_, fun his => absurd his hcall, fun his => absurd his hcall,
      fun his => absurd his hread⟩
    rintro (his | his | his)
    · exact absurd his hinit
    · exact absurd his hcall
    · exact absurd his hread
  · intro h
    refine ⟨_, rfl, ?_⟩
    rw [sendable, encodes_named]
    exact h.named

/-! ## Messages -/

/-- A message that can be answered: its id can be sent back, and its method can
    be called with its params. -/
def Answerable (P : Printing F) (message : PyValue F) : Prop :=
  ∀ fields, message = .obj fields → (get fields "jsonrpc").is "2.0" = true →
    renderable P (get fields "id") = true ∧
      Callable P (get fields "method") (or_empty P (get fields "params"))

theorem renderable_reply (P : Printing F) (mid : PyValue F) (answer : Answer F) :
    renderable P (reply_of mid answer) = (renderable P mid && sendable P answer) := by
  cases answer with
  | ok result => simp [reply_of, sendable]
  | error failure => simp [reply_of, sendable]

theorem renderable_invalid (P : Printing F) : renderable P (invalid_request : PyValue F) = true := by
  rw [invalid_request, renderable_reply]
  simp [sendable]

/-- The three kinds of messages. -/
theorem message_cases (message : PyValue F) : isMessage message = false ∨
    isNotification message = true ∨ ∃ fields mid, message = .obj fields ∧
      (get fields "jsonrpc").is "2.0" = true ∧ fields.lookup (lit "id") = some mid := by
  cases message with
  | obj fields =>
    by_cases hrpc : (get fields "jsonrpc").is "2.0" = true
    · cases hid : fields.lookup (lit "id") with
      | none =>
        refine .inr (.inl ?_)
        rw [isNotification, hrpc, hid]
        rfl
      | some mid => exact .inr (.inr ⟨fields, mid, rfl, hrpc, hid⟩)
    · exact .inl (by simpa [isMessage] using hrpc)
  | null | bool | int | float | str | arr => exact .inl rfl

theorem isNotification_invalid {message : PyValue F} (h : isMessage message = false) :
    isNotification message = false := by
  cases message with
  | obj fields =>
    rw [isMessage] at h
    rw [isNotification, h]
    rfl
  | null | bool | int | float | str | arr => rfl

theorem mcp_reply_invalid (P : Printing F) {message : PyValue F} (h : isMessage message = false) :
    mcp_reply P message = .ok (some invalid_request) := by
  cases message with
  | obj fields =>
    rw [isMessage] at h
    rw [mcp_reply, h]
    rfl
  | null | bool | int | float | str | arr => rfl

theorem mcp_reply_notification (P : Printing F) {message : PyValue F}
    (h : isNotification message = true) : mcp_reply P message = .ok none := by
  cases message with
  | obj fields =>
    rw [isNotification, Bool.and_eq_true, Option.isNone_iff_eq_none] at h
    rw [mcp_reply, if_pos h.1, h.2]
  | null | bool | int | float | str | arr => cases h

theorem mcp_reply_request (P : Printing F) {fields : List (PyStr × PyValue F)} {mid : PyValue F}
    (hrpc : (get fields "jsonrpc").is "2.0" = true) (hid : fields.lookup (lit "id") = some mid) :
    mcp_reply P (.obj fields) =
      (dispatch P (get fields "method") (or_empty P (get fields "params"))).map
        fun answer => some (reply_of mid answer) := by
  rw [mcp_reply, if_pos hrpc, hid]
  rfl

/-- What a message that is answered is answered with. -/
theorem mcp_reply_spec {P : Printing F} {message : PyValue F} {r : Option (PyValue F)}
    (h : mcp_reply P message = .ok r) :
    (isNotification message = true ∧ r = none) ∨
    (isNotification message = false ∧ ∃ reply, r = some reply ∧ ReplyTo message reply) := by
  -- no message at all, a notification, or a request with an id
  rcases message_cases message with hno | hnot | ⟨fields, mid, rfl, hrpc, hid⟩
  · rw [mcp_reply_invalid P hno] at h
    cases h
    refine .inr ⟨isNotification_invalid hno, _, rfl,
      ⟨.error (-32600, lit "Invalid request"), ?_⟩, fun _ => rfl⟩
    rw [invalid_request]
    cases message with
    | obj fields =>
      rw [isMessage] at hno
      rw [echoed, hno]
      rfl
    | null | bool | int | float | str | arr => rfl
  · rw [mcp_reply_notification P hnot] at h
    cases h
    exact .inl ⟨hnot, rfl⟩
  · rw [mcp_reply_request P hrpc hid] at h
    cases hanswer : dispatch P (get fields "method") (or_empty P (get fields "params")) with
    | error e =>
      rw [hanswer] at h
      cases h
    | ok answer =>
      rw [hanswer] at h
      cases h
      refine .inr ⟨by rw [isNotification, hrpc, hid]; rfl, _, rfl, ⟨answer, ?_⟩, ?_⟩
      · rw [echoed, if_pos hrpc, PyValue.get, hid]
        rfl
      · intro hno
        rw [isMessage, hrpc] at hno
        cases hno

/-- A message is answered, and its reply can be sent, if and only if it is
    answerable. -/
theorem mcp_reply_iff (P : Printing F) (message : PyValue F) :
    (∃ r, mcp_reply P message = .ok r ∧ ∀ reply, r = some reply → renderable P reply = true) ↔
      (isNotification message = false → Answerable P message) := by
  rcases message_cases message with hno | hnot | ⟨fields, mid, rfl, hrpc, hid⟩
  · rw [mcp_reply_invalid P hno]
    refine iff_of_true ⟨_, rfl, ?_⟩ ?_
    · intro reply hreply
      cases hreply
      exact renderable_invalid P
    · rintro - fields rfl hrpc
      rw [isMessage, hrpc] at hno
      cases hno
  · rw [mcp_reply_notification P hnot]
    refine iff_of_true ⟨none, rfl, ?_⟩ ?_
    · intro reply hreply
      cases hreply
    · intro hfalse
      rw [hnot] at hfalse
      cases hfalse
  -- a request: its id is sent back beside the answer
  · have hmid : get fields "id" = mid := by
      rw [PyValue.get, hid]
      rfl
    have hfalse : isNotification (.obj fields) = false := by
      rw [isNotification, hrpc, hid]
      rfl
    rw [mcp_reply_request P hrpc hid]
    constructor
    · rintro ⟨r, hr, hsend⟩ - _ heq -
      cases heq
      cases hanswer : dispatch P (get fields "method") (or_empty P (get fields "params")) with
      | error e =>
        rw [hanswer] at hr
        cases hr
      | ok answer =>
        rw [hanswer] at hr
        cases hr
        have hreply := hsend _ rfl
        rw [renderable_reply, Bool.and_eq_true] at hreply
        rw [hmid]
        exact ⟨hreply.1, (dispatch_iff P _ _).mp ⟨answer, hanswer, hreply.2⟩⟩
    · intro h
      obtain ⟨hclean, hcall⟩ := h hfalse fields rfl hrpc
      obtain ⟨answer, hanswer, hsend⟩ := (dispatch_iff P _ _).mpr hcall
      rw [hanswer]
      refine ⟨_, rfl, ?_⟩
      intro reply hreply
      cases hreply
      rw [renderable_reply, ← hmid, hclean, hsend]
      rfl

/-! ## Bodies -/

/-- A loop that raises nothing has an outcome for each item. -/
theorem mapM_ok_iff {α β ε : Type} {f : α → Except ε β} {xs : List α} {ys : List β} :
    xs.mapM f = .ok ys ↔ List.Forall₂ (fun x y => f x = .ok y) xs ys := by
  induction xs generalizing ys with
  | nil =>
    rw [List.mapM_nil, List.forall₂_nil_left_iff]
    exact ⟨fun h => (Except.ok.inj h).symm, fun h => congrArg Except.ok h.symm⟩
  | cons x xs ih =>
    rw [List.mapM_cons, List.forall₂_cons_left_iff]
    constructor
    · intro h
      cases hx : f x with
      | error e =>
        rw [hx] at h
        cases h
      | ok y =>
        rw [hx] at h
        cases hxs : xs.mapM f with
        | error e =>
          change (xs.mapM f >>= _) = _ at h
          rw [hxs] at h
          cases h
        | ok rest =>
          change (xs.mapM f >>= _) = _ at h
          rw [hxs] at h
          cases h
          exact ⟨y, rest, rfl, ih.mp hxs, rfl⟩
    · rintro ⟨y, rest, hx, hrest, rfl⟩
      rw [hx]
      change (xs.mapM f >>= _) = _
      rw [ih.mpr hrest]
      rfl

/-- The replies belong to the messages that are no notifications. -/
theorem replies_spec {P : Printing F} {messages : List (PyValue F)} {rs : List (Option (PyValue F))}
    (h : List.Forall₂ (fun message r => mcp_reply P message = .ok r) messages rs) :
    List.Forall₂ ReplyTo (messages.filter (!isNotification ·)) rs.reduceOption := by
  induction h with
  | nil => exact .nil
  | @cons message r messages rs hr _ ih =>
    rcases mcp_reply_spec hr with ⟨hnot, rfl⟩ | ⟨hnot, reply, rfl, hreply⟩
    · rw [List.filter_cons_of_neg (by simp [hnot]), List.reduceOption_cons_of_none]
      exact ih
    · rw [List.filter_cons_of_pos (by simp [hnot]), List.reduceOption_cons_of_some]
      exact .cons hreply ih

/-- Each item of the first list has a partner in the second one. -/
theorem exists_outcome {α β : Type} {R : α → β → Prop} {xs : List α} {ys : List β}
    (h : List.Forall₂ R xs ys) {x : α} (hx : x ∈ xs) : ∃ y ∈ ys, R x y := by
  induction h with
  | nil => cases hx
  | cons hr _ ih =>
    rcases List.mem_cons.mp hx with rfl | hx
    · exact ⟨_, List.mem_cons_self, hr⟩
    · obtain ⟨y, hy, hxy⟩ := ih hx
      exact ⟨y, List.mem_cons_of_mem _ hy, hxy⟩

/-- Messages that can all be answered have an outcome each. -/
theorem outcomes_iff (P : Printing F) (messages : List (PyValue F)) :
    (∃ rs, messages.mapM (mcp_reply P) = .ok rs ∧
      ∀ reply ∈ rs.reduceOption, renderable P reply = true) ↔
      ∀ message ∈ messages, isNotification message = false → Answerable P message := by
  constructor
  · rintro ⟨rs, hrs, hsend⟩ message hmem
    refine (mcp_reply_iff P message).mp ?_
    obtain ⟨r, hr, hreply⟩ := exists_outcome (mapM_ok_iff.mp hrs) hmem
    refine ⟨r, hreply, fun reply heq => hsend reply ?_⟩
    rw [List.reduceOption_mem_iff, ← heq]
    exact hr
  · intro h
    induction messages with
    | nil => exact ⟨[], rfl, by simp⟩
    | cons message messages ih =>
      obtain ⟨r, hr, hsend⟩ := (mcp_reply_iff P message).mpr (h message List.mem_cons_self)
      obtain ⟨rs, hrs, hrest⟩ := ih fun m hm => h m (List.mem_cons_of_mem _ hm)
      refine ⟨r :: rs, mapM_ok_iff.mpr (.cons hr (mapM_ok_iff.mp hrs)), ?_⟩
      intro reply hmem
      rw [List.reduceOption_mem_iff, List.mem_cons] at hmem
      rcases hmem with heq | hmem
      · exact hsend reply heq.symm
      · exact hrest reply (List.reduceOption_mem_iff.mpr hmem)

/-- A single body has a single message. -/
theorem messages_single {body : PyValue F} (h : ∀ items, body ≠ .arr items) :
    messages_of body = [body] := by
  cases body with
  | arr items => exact absurd rfl (h items)
  | null | bool | int | float | str | obj => rfl

theorem renderable_packed (P : Printing F) {body : PyValue F} {replies : List (PyValue F)}
    (hne : replies ≠ []) (hone : replies.length ≤ (messages_of body).length) :
    renderable P (packed body replies) = replies.all (renderable P) := by
  by_cases hbatch : ∃ items, body = .arr items
  · obtain ⟨items, rfl⟩ := hbatch
    exact renderable_arr P replies
  · have hsingle : ∀ items, body ≠ .arr items := fun items heq => hbatch ⟨items, heq⟩
    rw [messages_single hsingle] at hone
    obtain ⟨reply, rfl⟩ := List.length_eq_one_iff.mp
      (Nat.le_antisymm hone (List.length_pos_iff.mpr hne))
    have hpacked : packed body [reply] = reply := by
      cases body with
      | arr items => exact absurd rfl (hsingle items)
      | null | bool | int | float | str | obj => rfl
    rw [hpacked, List.all_cons, List.all_nil, Bool.and_true]

theorem mcp_post_ok_iff (P : Printing F) (body : PyValue F) {rs : List (Option (PyValue F))}
    (hrs : (messages_of body).mapM (mcp_reply P) = .ok rs) :
    (∃ res, mcp_post P (some body) = .ok res) ↔
      ∀ reply ∈ rs.reduceOption, renderable P reply = true := by
  have hpost : mcp_post P (some body) = send_replies P body rs.reduceOption := by
    rw [mcp_post, hrs]
    rfl
  rw [hpost, send_replies]
  by_cases hnone : rs.reduceOption = []
  · rw [hnone]
    exact iff_of_true ⟨.accepted, rfl⟩ (by simp)
  · have hlength : rs.reduceOption.length ≤ (messages_of body).length :=
      (List.reduceOption_length_le rs).trans (mapM_ok_iff.mp hrs).length_eq.ge
    rw [if_neg (by simpa using hnone), json_response, renderable_packed P hnone hlength,
      ← List.all_eq_true]
    split
    · next hall => exact iff_of_true ⟨_, rfl⟩ hall
    · next hall =>
      refine iff_of_false ?_ hall
      rintro ⟨res, hres⟩
      cases hres

/-- Whatever is answered is answered as it should be. -/
theorem answered_once {P : Printing F} {body : PyValue F} {res : McpResponse F}
    (h : mcp_post P (some body) = .ok res) : AnsweredOnce body res := by
  cases hrs : (messages_of body).mapM (mcp_reply P) with
  | error e =>
    rw [mcp_post, hrs] at h
    cases h
  | ok rs =>
    have hpost : mcp_post P (some body) = send_replies P body rs.reduceOption := by
      rw [mcp_post, hrs]
      rfl
    have hreplies := replies_spec (mapM_ok_iff.mp hrs)
    rw [hpost, send_replies] at h
    -- as many replies as there are messages that are no notifications
    have hempty : (messages_of body).all isNotification = true ↔ rs.reduceOption = [] := by
      rw [← List.length_eq_zero_iff, ← hreplies.length_eq, List.length_eq_zero_iff,
        List.filter_eq_nil_iff, List.all_eq_true]
      simp
    constructor
    · intro hall
      rw [hempty.mp hall] at h
      exact (Except.ok.inj h).symm
    · intro hsome
      have hne : rs.reduceOption ≠ [] := by
        intro hnil
        rw [hempty.mpr hnil] at hsome
        cases hsome
      refine ⟨rs.reduceOption, hreplies, ?_⟩
      rw [if_neg (by simpa using hne), json_response] at h
      split at h
      · exact (Except.ok.inj h).symm
      · cases h

/-- A body gets one reply for each of its messages that is no notification if
    and only if all of these can be answered. -/
theorem mcp_post_answers_iff (P : Printing F) (body : PyValue F) :
    (∃ res, mcp_post P (some body) = .ok res ∧ AnsweredOnce body res) ↔
      ∀ message ∈ messages_of body, isNotification message = false → Answerable P message := by
  rw [← outcomes_iff]
  constructor
  · rintro ⟨res, hres, -⟩
    cases hrs : (messages_of body).mapM (mcp_reply P) with
    | error e =>
      rw [mcp_post, hrs] at hres
      cases hres
    | ok rs => exact ⟨rs, rfl, (mcp_post_ok_iff P body hrs).mp ⟨res, hres⟩⟩
  · rintro ⟨rs, hrs, hsend⟩
    obtain ⟨res, hres⟩ := (mcp_post_ok_iff P body hrs).mpr hsend
    exact ⟨res, hres, answered_once hres⟩

/-! ## Calls -/

/-- A call with a known token is answered, one reply for each message. -/
def AnswersCall (P : Printing F) (authorization : Option String) (body : PyValue F) : Prop :=
  (den_mcp_agent_post P authorization (some body)).Along (fun _ _ => True)
    (fun tr res => ∀ email : String,
      (⟨.get .mcp_token (bearer authorization), some email⟩ : DenEvent) ∈ tr →
      ∃ sent, res = .inr (.ok sent) ∧ AnsweredOnce body sent) []

/-- With a known token the body is what decides. -/
theorem answers_call_iff (P : Printing F) {authorization : Option String}
    (htoken : bearer authorization ≠ "") (body : PyValue F) :
    AnswersCall P authorization body ↔
      ∃ sent, mcp_post P (some body) = .ok sent ∧ AnsweredOnce body sent := by
  unfold AnswersCall den_mcp_agent_post den_mcp_agent
  dsimp only
  rw [if_neg htoken]
  constructor
  · intro h
    obtain ⟨sent, hsent, honce⟩ := (h (some "")).2 "" List.mem_cons_self
    exact ⟨sent, Sum.inr.inj hsent, honce⟩
  · rintro ⟨sent, hsent, honce⟩ found
    refine ⟨trivial, ?_⟩
    cases found with
    | none =>
      intro email hmem
      cases List.mem_singleton.mp hmem
    | some known => exact fun email _ => ⟨sent, congrArg Sum.inr hsent, honce⟩

/-- A body that is posted with a known token gets one reply for each of its
    messages that is no notification, if and only if all of these can be
    answered. -/
theorem mcp_agent_answers_iff (P : Printing F) (body : PyValue F) :
    (∀ authorization, AnswersCall P authorization body) ↔
      ∀ message ∈ messages_of body, isNotification message = false → Answerable P message := by
  rw [← mcp_post_answers_iff]
  constructor
  · intro h
    exact (answers_call_iff P (by decide +kernel) body).mp (h (some "Bearer t"))
  · intro h authorization
    by_cases htoken : bearer authorization = ""
    · unfold AnswersCall den_mcp_agent_post den_mcp_agent
      dsimp only
      rw [if_pos htoken]
      intro email hmem
      cases hmem
    · exact (answers_call_iff P htoken body).mpr h

/-- Python, for bodies without floats. -/
def ascii : Printing Empty where
  isZero := Empty.elim
  isFinite := Empty.elim
  repr := Empty.elim
  dumps := Empty.elim
  printable _ := false

/-- A batch: `initialize` with a list of params, and a ping. -/
def listed_params : PyValue Empty := .arr [
  dict [("jsonrpc", text "2.0"), ("id", .int 1), ("method", text "initialize"),
    ("params", .arr [.int 1])],
  dict [("jsonrpc", text "2.0"), ("id", .int 2), ("method", text "ping")]]

/-- Nothing is answered to the batch, its ping included. -/
theorem listed_params_crash : ¬ AnswersCall ascii (some "Bearer t") listed_params := by
  intro h
  obtain ⟨sent, hsent, -⟩ := (answers_call_iff ascii (by decide +kernel) listed_params).mp h
  cases hsent

end AlitellmAuth.OpenWork
