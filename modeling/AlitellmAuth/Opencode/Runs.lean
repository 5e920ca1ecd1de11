import AlitellmAuth.Framework.PyView
import AlitellmAuth.Framework.Unwinding
import AlitellmAuth.Opencode.Exact

/-! # Runs of the route

    Requests of all users, refreshes of what is known of the deployments and
    losses of the store, in any order. A user gets from a run what the user's own
    events put into it: the rest of the run can change how a model is described,
    and nothing else.

    * `World`, `step`: the process and the store, one event at a time.
    * `Tame`: numbers are numbers, and texts can be sent.
    * `opencode_isolated`: two runs that agree in the events of a user tell this
      user the same, but for the descriptions of models.
-/

namespace AlitellmAuth.Opencode

open PyValue Catalog Unwinding

variable {F : Type}

/-! ## Events -/

/-- A request: whose it is, and its number. -/
abbrev Request := PyStr × Nat

/-- How far a request is. -/
inductive Phase (F : Type) where
  | idle
  /-- It asks LiteLLM, and may have looked at the deployments already. -/
  | gathering (caps : Option (Caps F))
  /-- Its body is on the way to the store. -/
  | keeping (body : List (String × PyValue F))
  /-- It asks the store for the last body. -/
  | recalling
  | done (reply : RouteReply F)

/-- `_caps`, the bodies in the store, and the requests. -/
structure World (F : Type) where
  caps : Caps F
  kept : PyStr → Option (List (String × PyValue F))
  phase : Request → Phase F

def World.initial : World F := ⟨.empty, fun _ => none, fun _ => .idle⟩

inductive Event (F : Type) where
  /-- `_load_caps` has its answers. -/
  | refresh (pages : Nat → HttpAnswer F) (callbacks : HttpAnswer F)
  | start (r : Request)
  /-- `_capabilities` returns. -/
  | look (r : Request)
  /-- What LiteLLM answers under the key of the user is there, or the deadline. -/
  | gather (r : Request) (generatedAt : String) (upstream : Option (Upstream F))
  /-- The store has answered; if not `ok`, it has failed. -/
  | finish (r : Request) (generatedAt : String) (ok : Bool)
  /-- The store loses a body. -/
  | forget (email : PyStr)

/-- Whose event it is; a refresh is nobody's. -/
def Event.owner : Event F → Option PyStr
  | .refresh _ _ => none
  | .start r => some r.1
  | .look r => some r.1
  | .gather r _ _ => some r.1
  | .finish r _ _ => some r.1
  | .forget email => some email

/-- The events of a user. -/
def own (u : PyStr) (e : Event F) : Bool := e.owner == some u

def World.move (w : World F) (r : Request) (p : Phase F) : World F :=
  { w with phase := fun r' => if r' = r then p else w.phase r' }

def World.keep (w : World F) (email : PyStr) (body : Option (List (String × PyValue F))) :
    World F :=
  { w with kept := fun email' => if email' = email then body else w.kept email' }

section
variable (N : Numbers F) (S : OpencodeSettings F)

/-- What a request does when LiteLLM has answered: it needs the deployments only
    if there is something to describe. -/
def gathered (r : Request) (generatedAt : String) (upstream : Option (Upstream F))
    (looked : Option (Caps F)) : Phase F :=
  match _visible N upstream, looked with
  | none, _ => .recalling
  | some _, none => .gathering none
  | some seen, some caps =>
      match fresh_body N S generatedAt r.1 seen caps with
      | some body => .keeping body
      | none => .done .crash

def step (w : World F) : Event F → World F
  | .refresh pages callbacks =>
      match load_caps N pages callbacks with
      | some caps => { w with caps := caps }
      | none => w
  | .start r =>
      match w.phase r with
      | .idle => w.move r (.gathering none)
      | _ => w
  | .look r =>
      match w.phase r with
      | .gathering none => w.move r (.gathering (some w.caps))
      | _ => w
  | .gather r generatedAt upstream =>
      match w.phase r with
      | .gathering looked => w.move r (gathered N S r generatedAt upstream looked)
      | _ => w
  | .finish r generatedAt ok =>
      match w.phase r with
      | .keeping body =>
          let told := w.move r (.done (respond N.toTexts (dict body)))
          if ok then told.keep r.1 (some body) else told
      | .recalling =>
          let cached := if ok then w.kept r.1 else none
          w.move r (.done (respond N.toTexts (dict (stale_body S generatedAt r.1 cached))))
      | _ => w
  | .forget email => w.keep email none

def run (events : List (Event F)) : World F := events.foldl (step N S) .initial

/-- The reply of a request, if it has one. -/
def told (events : List (Event F)) (r : Request) : Option (RouteReply F) :=
  match (run N S events).phase r with
  | .done reply => some reply
  | _ => none

/-! ## Tame events -/

def NUMBER_KEYS : List String := ["max_input_tokens", "max_output_tokens"] ++ COST_KEYS

/-- Nothing, or a number that can be read and sent. -/
def Numeric (value : PyValue F) : Prop :=
  value = .null ∨ ((int_of N value).isSome = true ∧
    ∃ x, float_of N value = some x ∧ N.isFinite (N.millions x) = true)

def NumericInfo (info : Info F) : Prop := ∀ field ∈ info, field.1 ∈ NUMBER_KEYS → Numeric N field.2

def TameCaps (caps : Caps F) : Prop := ∀ entry ∈ caps.deployments, NumericInfo N entry.2

/-- What a user sees can be shown, however it is described. -/
structure TameSeen (seen : List (Info F) × List PyStr) : Prop where
  numbers : ∀ group ∈ seen.1, NumericInfo N group
  names : ∀ group ∈ seen.1, ∀ name, chat_name group = some name → encodes name = true
  servers : ∀ server ∈ seen.2, encodes server = true

/-- Numbers are numbers, and texts can be sent: of the deployments, and of what
    the user sees. -/
def Tame (u : PyStr) : Event F → Prop
  | .refresh pages callbacks => ∀ caps, load_caps N pages callbacks = some caps → TameCaps N caps
  | .gather r _ upstream => r.1 = u → ∀ seen, _visible N upstream = some seen → TameSeen N seen
  | _ => True

end

section
variable {N : Numbers F}

/-! ## Tame numbers -/

/-- A field of a merged row is a field of one of the rows. -/
theorem mem_of_merged {group deployment : Info F} {key : String} {value : PyValue F}
    (h : (merged group deployment).lookup key = some value) :
    (key, value) ∈ deployment ∨ (key, value) ∈ group := by
  rw [merged, Table.lookup_foldl_put, Option.or_eq_some_iff] at h
  rcases h with h | ⟨-, h⟩
  · obtain ⟨before, after, hrow, -⟩ := List.lookup_eq_some_iff.mp h
    left
    rw [← List.mem_reverse, hrow]
    simp
  · obtain ⟨before, after, hrow, -⟩ := List.lookup_eq_some_iff.mp h
    right
    rw [hrow]
    simp

theorem numeric_merged {group deployment : Info F} (hgroup : NumericInfo N group)
    (hdeployment : NumericInfo N deployment) {key : String} (hkey : key ∈ NUMBER_KEYS) :
    Numeric N (info_get (merged group deployment) key) := by
  unfold info_get
  cases hvalue : (merged group deployment).lookup key with
  | none => exact .inl rfl
  | some value =>
    rcases mem_of_merged hvalue with hmem | hmem
    · exact hdeployment (key, value) hmem hkey
    · exact hgroup (key, value) hmem hkey

theorem numericInfo_of {caps : Caps F} (h : TameCaps N caps) (name : PyStr) :
    NumericInfo N (caps.of N name) := by
  unfold Caps.of
  dsimp only
  generalize hentry : caps.deployments.find? _ = found
  cases found with
  | none =>
    intro field hfield
    cases hfield
  | some entry => exact h entry (List.mem_of_find?_eq_some hentry)

/-- A number that counts is read as it is, and another one as its default. -/
theorem Numeric.limit {value : PyValue F} (h : Numeric N value) (d : Int) :
    (int_of N (or_value N.toTexts value (.int d))).isSome = true := by
  unfold or_value
  split
  · next htruthy =>
    rcases h with rfl | ⟨hint, -⟩
    · cases htruthy
    · exact hint
  · rfl

theorem Numeric.price {value : PyValue F} (h : Numeric N value) :
    ∃ x, _per_million N value = some x ∧ N.isFinite x = true := by
  unfold _per_million or_value
  split
  · next htruthy =>
    rcases h with rfl | ⟨-, x, hx, hfinite⟩
    · cases htruthy
    · rw [hx]
      exact ⟨_, rfl, hfinite⟩
  · refine ⟨N.millions N.zero, ?_, N.finite_zero⟩
    rw [float_of, N.float_of_zero]
    rfl

/-- What is tame can be shown. -/
theorem servable_of_tame (S : OpencodeSettings F) {email : PyStr} {seen : List (Info F) × List PyStr}
    {caps : Caps F} (hemail : encodes email = true) (hseen : TameSeen N seen)
    (hcaps : TameCaps N caps) :
    Servable N S email seen caps := by
  -- numbers in the groups and in the capabilities are numbers once merged
  have hnumeric : ∀ group ∈ seen.1, ∀ name, ∀ key ∈ NUMBER_KEYS,
      Numeric N (info_get (described N caps group name) key) := fun group hgroup name key hkey =>
    numeric_merged (hseen.numbers group hgroup) (numericInfo_of hcaps name) hkey
  have hcost : ∀ key ∈ COST_KEYS, key ∈ NUMBER_KEYS := fun key hkey =>
    List.mem_append_right _ hkey
  constructor
  · intro group hgroup name _
    have hkeys := hnumeric group hgroup name
    refine ⟨(hkeys "max_input_tokens" (by simp [NUMBER_KEYS])).limit _,
      (hkeys "max_output_tokens" (by simp [NUMBER_KEYS])).limit _, fun key hkey => ?_⟩
    obtain ⟨x, hx, -⟩ := (hkeys key (hcost key hkey)).price
    rw [hx]
    rfl
  · exact hemail
  · intro _ name group hlast
    obtain ⟨hgroup, hname⟩ := last_group_mem hlast
    refine ⟨hseen.names group hgroup name hname, fun key hkey x hx => ?_⟩
    obtain ⟨y, hy, hfinite⟩ := (hnumeric group hgroup name key (hcost key hkey)).price
    rw [hx] at hy
    rw [Option.some.inj hy]
    exact hfinite
  · intro _
    exact hseen.servers

/-! ## Names -/

/-- However the groups are described, the models have the same names. -/
theorem models_names {groups : List (Info F)} {caps caps' : Caps F}
    {models models' : List (PyStr × Entry F)} (h : _models N groups caps = some models)
    (h' : _models N groups caps' = some models') : models.map (·.1) = models'.map (·.1) := by
  induction groups using List.reverseRecOn generalizing models models' with
  | nil =>
    cases h
    cases h'
    rfl
  | append_singleton groups group ih =>
    rw [models_append, Option.bind_eq_some_iff] at h h'
    obtain ⟨out, hout, hadd⟩ := h
    obtain ⟨out', hout', hadd'⟩ := h'
    have hnames := ih hout hout'
    unfold add_model at hadd hadd'
    cases hname : chat_name group with
    | none =>
      rw [hname] at hadd hadd'
      cases hadd
      cases hadd'
      exact hnames
    | some name =>
      simp only [hname, Option.bind_eq_bind, Option.bind_eq_some_iff, Option.pure_def,
        Option.some_inj] at hadd hadd'
      obtain ⟨entry, -, rfl⟩ := hadd
      obtain ⟨entry', -, rfl⟩ := hadd'
      -- a name is new in both, or in neither
      rcases Dict.keys_put out name entry with ⟨hmem, hkeys⟩ | ⟨hmem, hkeys⟩
      · rcases Dict.keys_put out' name entry' with ⟨-, hkeys'⟩ | ⟨hmem', -⟩
        · rw [hkeys, hkeys', hnames]
        · rw [hnames] at hmem
          exact absurd hmem hmem'
      · rcases Dict.keys_put out' name entry' with ⟨hmem', -⟩ | ⟨-, hkeys'⟩
        · rw [hnames] at hmem
          exact absurd hmem' hmem
        · rw [hkeys, hkeys', hnames]

end

/-! ## Outlines -/

/-- Of the entry of a model only its name. -/
def entry_shape : List (String × Shape) := wholly ["name"]

def provider_shape : List (String × Shape) :=
  wholly ["name", "npm", "options"] ++ [("models", .entries (.only entry_shape))]

def config_shape : List (String × Shape) :=
  [("provider", .entries (.only provider_shape))] ++ wholly ["mcp", "model", "small_model"]

/-- All of a body but the descriptions of the models, and the version, which is a
    digest of them. -/
def body_shape : List (String × Shape) :=
  wholly ["schema", "user", "environment", "auth", "stale", "generatedAt", "skills"] ++
    [("config", .only config_shape)]

def outline (body : PyValue F) : PyValue F := view (.only body_shape) body

section
variable {N : Numbers F} (S : OpencodeSettings F)

theorem view_models (models : List (PyStr × Entry F)) :
    view (.entries (.only entry_shape))
        (.obj (models.map fun model => (model.1, entry_value model.1 model.2))) =
      .obj ((models.map (·.1)).map fun name => (name, dict [("name", .str name)])) := by
  rw [view_entries_obj, List.map_map, List.map_map]
  refine congrArg PyValue.obj ?_
  apply List.map_congr_left
  intro model _
  show (model.1, view (.only entry_shape) (entry_value model.1 model.2)) = _
  rw [entry_value, dict, view_only_obj]
  simp [entry_shape, wholly, viewFields, dict]

/-- A provider is seen by the names of its models. -/
theorem view_provider {models models' : List (PyStr × Entry F)}
    (h : models.map (·.1) = models'.map (·.1)) :
    view (.entries (.only provider_shape)) (.obj (_provider S models)) =
      view (.entries (.only provider_shape)) (.obj (_provider S models')) := by
  -- without models there is no provider, on both sides
  have hnil : models = [] ↔ models' = [] := by
    rw [← List.map_eq_nil_iff (f := (·.1)), h, List.map_eq_nil_iff]
  unfold _provider
  by_cases hnone : S.base = "" ∨ models = []
  · rw [if_pos hnone, if_pos (hnone.imp_right hnil.mp)]
  · rw [if_neg hnone, if_neg fun hnone' => hnone (hnone'.imp_right hnil.mpr)]
    rw [view_entries_obj, view_entries_obj]
    simp only [List.map_cons, List.map_nil]
    unfold dict
    rw [view_only_obj, view_only_obj]
    refine congrArg (fun fields => PyValue.obj [(lit S.provider_name, PyValue.obj fields)]) ?_
    apply viewFields_congr
    intro entry hentry
    simp only [provider_shape, wholly, List.map_cons, List.map_nil, List.cons_append, List.nil_append,
      List.mem_cons, List.not_mem_nil, or_false] at hentry
    rcases hentry with rfl | rfl | rfl | rfl
    · simp
    · simp [lookup_lit_cons]
    · simp [lookup_lit_cons]
    · simp only [lookup_lit, List.lookup_cons]
      show some (view _ _) = some (view _ _)
      rw [view_models, view_models, h]

theorem provider_isEmpty {models models' : List (PyStr × Entry F)}
    (h : models.map (·.1) = models'.map (·.1)) :
    (_provider S models).isEmpty = (_provider S models').isEmpty := by
  have hnil : models = [] ↔ models' = [] := by
    rw [← List.map_eq_nil_iff (f := (·.1)), h, List.map_eq_nil_iff]
  unfold _provider
  by_cases hnone : S.base = "" ∨ models = []
  · rw [if_pos hnone, if_pos (hnone.imp_right hnil.mp)]
  · rw [if_neg hnone, if_neg fun hnone' => hnone (hnone'.imp_right hnil.mpr)]
    rfl

/-- The defaults depend on the names only. -/
theorem defaults_eq {models models' : List (PyStr × Entry F)}
    (h : models.map (·.1) = models'.map (·.1)) : _defaults S models = _defaults S models' := by
  have hsome (name : PyStr) : (models.lookup name).isSome = (models'.lookup name).isSome := by
    rw [Bool.eq_iff_iff, Dict.lookup_isSome_iff_mem, Dict.lookup_isSome_iff_mem, h]
  have hentry (k : String) (name : Option String) :
      default_entry S models k name = default_entry S models' k name := by
    unfold default_entry
    simp only [hsome]
  rw [_defaults, _defaults, hentry, hentry]

/-- A configuration is seen by the names of its models. -/
theorem view_config {models models' : List (PyStr × Entry F)}
    (h : models.map (·.1) = models'.map (·.1)) (mcp : List (PyStr × PyValue F)) :
    view (.only config_shape)
        (.obj (config_of (_provider S models) mcp (_defaults S models))) =
      view (.only config_shape)
        (.obj (config_of (_provider S models') mcp (_defaults S models'))) := by
  rw [view_only_obj, view_only_obj, defaults_eq S h]
  refine congrArg PyValue.obj ?_
  unfold config_of
  rw [← provider_isEmpty S h]
  by_cases hempty : (_provider S models).isEmpty = true
  · rw [if_pos hempty, if_pos hempty]
  · rw [if_neg hempty, if_neg hempty]
    apply viewFields_congr
    intro entry hentry
    simp only [config_shape, wholly, List.map_cons, List.map_nil, List.cons_append, List.nil_append,
      List.mem_cons, List.not_mem_nil, or_false] at hentry
    rcases hentry with rfl | rfl | rfl | rfl
    · simp only [List.cons_append, lookup_lit_cons, if_true, Option.map_some]
      rw [view_provider S h]
    · simp [lookup_lit_cons]
    · simp [lookup_lit_cons]
    · simp [lookup_lit_cons]

/-- Bodies whose configurations are seen alike are. -/
theorem outline_body (generatedAt : String) (user : PyValue F)
    {config config' : List (PyStr × PyValue F)}
    (h : view (.only config_shape) (.obj config) = view (.only config_shape) (.obj config'))
    (skills : PyValue F) (auth : String) (stale : Bool) :
    outline (dict (_body S generatedAt user config skills auth stale)) =
      outline (dict (_body S generatedAt user config' skills auth stale)) := by
  unfold outline dict
  rw [view_only_obj, view_only_obj]
  refine congrArg PyValue.obj ?_
  apply viewFields_congr
  intro entry hentry
  simp only [body_shape, wholly, List.map_cons, List.map_nil, List.cons_append, List.nil_append,
    List.mem_cons, List.not_mem_nil, or_false] at hentry
  simp only [lookup_lit]
  rcases hentry with rfl | rfl | rfl | rfl | rfl | rfl | rfl | rfl
  · rfl
  · rfl
  · rfl
  · rfl
  · rfl
  · rfl
  · rfl
  · show some (view _ _) = some (view _ _)
    rw [h]

/-! ## Two runs -/

variable (N) in
/-- Two bodies that were made for a user of the same answers, however the models
    are described; both can be sent. -/
def Twins (u : PyStr) (body body' : List (String × PyValue F)) : Prop :=
  ∃ generatedAt config config',
    view (.only config_shape) (.obj config) = view (.only config_shape) (.obj config') ∧
    body = _body S generatedAt (.str u) config (_skills S) "ok" false ∧
    body' = _body S generatedAt (.str u) config' (_skills S) "ok" false ∧
    renderable N.toPrinting (dict body) = true ∧ renderable N.toPrinting (dict body') = true

/-- Two replies to a user, both of them bodies, that differ in descriptions only. -/
def SameReply (u : PyStr) (reply reply' : RouteReply F) : Prop :=
  ∃ body body', reply = .json body ∧ reply' = .json body' ∧ outline body = outline body' ∧
    IsBody S (.str u) "ok" reply

theorem twins_of_fresh {u : PyStr} (hu : encodes u = true) {generatedAt : String}
    {seen : List (Info F) × List PyStr} (hseen : TameSeen N seen) {caps caps' : Caps F}
    (hcaps : TameCaps N caps) (hcaps' : TameCaps N caps') {body body' : List (String × PyValue F)}
    (hbody : fresh_body N S generatedAt u seen caps = some body)
    (hbody' : fresh_body N S generatedAt u seen caps' = some body') : Twins N S u body body' := by
  have hrender := (fresh_body_iff S hbody).mpr (servable_of_tame S hu hseen hcaps)
  have hrender' := (fresh_body_iff S hbody').mpr (servable_of_tame S hu hseen hcaps')
  simp only [fresh_body, Option.bind_eq_bind, Option.bind_eq_some_iff, Option.pure_def,
    Option.some_inj] at hbody hbody'
  obtain ⟨models, hmodels, rfl⟩ := hbody
  obtain ⟨models', hmodels', rfl⟩ := hbody'
  exact ⟨generatedAt, _, _, view_config S (models_names hmodels hmodels') _, rfl, rfl, hrender, hrender'⟩

/-- Twins are told alike. -/
theorem Twins.told {u : PyStr} {body body' : List (String × PyValue F)}
    (h : Twins N S u body body') :
    SameReply S u (respond N.toTexts (dict body)) (respond N.toTexts (dict body')) := by
  obtain ⟨generatedAt, config, config', hview, rfl, rfl, hrender, hrender'⟩ := h
  rw [respond_of_renderable hrender, respond_of_renderable hrender']
  exact ⟨_, _, rfl, rfl, outline_body S generatedAt (.str u) hview _ _ _, generatedAt, config, _, _, rfl⟩

/-- Replayed, they still are. -/
theorem Twins.stale {u : PyStr} {body body' : List (String × PyValue F)}
    (h : Twins N S u body body') (generatedAt : String) :
    SameReply S u (respond N.toTexts (dict (stale_body S generatedAt u (some body))))
      (respond N.toTexts (dict (stale_body S generatedAt u (some body')))) := by
  obtain ⟨generatedAt', config, config', hview, rfl, rfl, hrender, hrender'⟩ := h
  rw [renderable_body S _ _ _ (renderable_skills S)] at hrender hrender'
  rw [stale_of_body, stale_of_body,
    respond_of_renderable ((renderable_body S _ _ _ (renderable_skills S) _ _).mpr hrender),
    respond_of_renderable ((renderable_body S _ _ _ (renderable_skills S) _ _).mpr hrender')]
  exact ⟨_, _, rfl, rfl, outline_body S generatedAt' (.str u) hview _ _ _, generatedAt', config, _, _, rfl⟩

/-- Without a body there is one reply. -/
theorem sameReply_none {u : PyStr} (hu : encodes u = true) (generatedAt : String) :
    SameReply S u (respond N.toTexts (dict (stale_body S generatedAt u none)))
      (respond N.toTexts (dict (stale_body S generatedAt u none))) := by
  rw [respond_of_renderable ((stale_none_iff (N := N) S generatedAt u).mpr hu)]
  exact ⟨_, _, rfl, rfl, rfl, generatedAt, [], _, true, rfl⟩

variable (N) in
/-- A request of a user is equally far in two runs. -/
inductive PhaseSame (u : PyStr) : Phase F → Phase F → Prop where
  | idle : PhaseSame u .idle .idle
  | asked : PhaseSame u (.gathering none) (.gathering none)
  | looked {caps caps' : Caps F} : TameCaps N caps → TameCaps N caps' →
      PhaseSame u (.gathering (some caps)) (.gathering (some caps'))
  | keeping {body body' : List (String × PyValue F)} : Twins N S u body body' →
      PhaseSame u (.keeping body) (.keeping body')
  | recalling : PhaseSame u .recalling .recalling
  | done {reply reply' : RouteReply F} : SameReply S u reply reply' →
      PhaseSame u (.done reply) (.done reply')

variable (N) in
/-- The store has twins for a user, or nothing in either run. -/
inductive KeptSame (u : PyStr) :
    Option (List (String × PyValue F)) → Option (List (String × PyValue F)) → Prop where
  | none : KeptSame u none none
  | some {body body' : List (String × PyValue F)} : Twins N S u body body' →
      KeptSame u (some body) (some body')

variable (N) in
/-- Two worlds are one to a user. -/
structure Same (u : PyStr) (w w' : World F) : Prop where
  caps : TameCaps N w.caps
  caps' : TameCaps N w'.caps
  kept : KeptSame N S u (w.kept u) (w'.kept u)
  phases : ∀ n, PhaseSame N S u (w.phase (u, n)) (w'.phase (u, n))

/-! ### Steps of the user -/

theorem Same.move {u : PyStr} {w w' : World F} (h : Same N S u w w') (n : Nat) {p p' : Phase F}
    (hp : PhaseSame N S u p p') : Same N S u (w.move (u, n) p) (w'.move (u, n) p') := by
  refine ⟨h.caps, h.caps', h.kept, fun m => ?_⟩
  show PhaseSame N S u (if (u, m) = (u, n) then p else w.phase (u, m))
    (if (u, m) = (u, n) then p' else w'.phase (u, m))
  by_cases hm : (u, m) = (u, n)
  · rw [if_pos hm, if_pos hm]
    exact hp
  · rw [if_neg hm, if_neg hm]
    exact h.phases m

theorem Same.keep {u : PyStr} {w w' : World F} (h : Same N S u w w')
    {body body' : Option (List (String × PyValue F))} (hbody : KeptSame N S u body body') :
    Same N S u (w.keep u body) (w'.keep u body') := by
  refine ⟨h.caps, h.caps', ?_, h.phases⟩
  show KeptSame N S u (if u = u then body else w.kept u) (if u = u then body' else w'.kept u)
  rw [if_pos rfl, if_pos rfl]
  exact hbody

/-- The end of the fetches: what the user sees is shown in both runs. -/
theorem gathered_same {u : PyStr} (hu : encodes u = true) {n : Nat} (generatedAt : String)
    {upstream : Option (Upstream F)}
    (hseen : ∀ seen, _visible N upstream = some seen → TameSeen N seen)
    {looked looked' : Option (Caps F)}
    (h : PhaseSame N S u (.gathering looked) (.gathering looked')) :
    PhaseSame N S u (gathered N S (u, n) generatedAt upstream looked)
      (gathered N S (u, n) generatedAt upstream looked') := by
  unfold gathered
  cases hvisible : _visible N upstream with
  | none => exact .recalling
  | some seen =>
    cases h with
    | asked => exact .asked
    | @looked caps caps' hcaps hcaps' =>
      have htame := hseen seen hvisible
      dsimp only
      -- whatever is known of the deployments, the body can be built
      have hbody (caps : Caps F) (hcaps : TameCaps N caps) :
          ∃ body, fresh_body N S generatedAt u seen caps = some body := by
        have hservable := servable_of_tame S hu htame hcaps
        obtain ⟨models, hmodels⟩ := (models_spec (N := N) caps seen.1).2.mpr hservable.numbers
        rw [fresh_body, hmodels]
        exact ⟨_, rfl⟩
      obtain ⟨body, hbody₁⟩ := hbody caps hcaps
      obtain ⟨body', hbody₂⟩ := hbody caps' hcaps'
      rw [hbody₁, hbody₂]
      exact .keeping (twins_of_fresh S hu htame hcaps hcaps' hbody₁ hbody₂)

theorem request_of_owner {u : PyStr} {r : Request} (h : some r.1 = some u) : ∃ n, r = (u, n) :=
  ⟨r.2, Prod.ext (Option.some.inj h) rfl⟩

/-- A step of the user, taken in both runs. -/
theorem step_both {u : PyStr} (hu : encodes u = true) {w w' : World F} {e : Event F}
    (hown : own u e = true) (htame : Tame N u e) (h : Same N S u w w') :
    Same N S u (step N S w e) (step N S w' e) := by
  have howner : e.owner = some u := by simpa [own] using hown
  cases e with
  -- a refresh is nobody's event
  | refresh => cases howner
  | forget email =>
    cases howner
    exact h.keep S .none
  -- a request of the user is in the same phase on both sides, and moves alike
  | start r =>
    obtain ⟨n, rfl⟩ := request_of_owner howner
    have hp := h.phases n
    rw [step, step]
    generalize w.phase (u, n) = p at hp ⊢
    generalize w'.phase (u, n) = p' at hp ⊢
    cases hp with
    | idle => exact h.move S n .asked
    | asked | looked | keeping | recalling | done => exact h
  | look r =>
    obtain ⟨n, rfl⟩ := request_of_owner howner
    have hp := h.phases n
    rw [step, step]
    generalize w.phase (u, n) = p at hp ⊢
    generalize w'.phase (u, n) = p' at hp ⊢
    cases hp with
    | asked => exact h.move S n (.looked h.caps h.caps')
    | idle | looked | keeping | recalling | done => exact h
  | gather r generatedAt upstream =>
    obtain ⟨n, rfl⟩ := request_of_owner howner
    have hp := h.phases n
    have hseen := htame rfl
    rw [step, step]
    generalize w.phase (u, n) = p at hp ⊢
    generalize w'.phase (u, n) = p' at hp ⊢
    cases hp with
    | asked => exact h.move S n (gathered_same S hu generatedAt hseen .asked)
    | looked hcaps hcaps' =>
      exact h.move S n (gathered_same S hu generatedAt hseen (.looked hcaps hcaps'))
    | idle | keeping | recalling | done => exact h
  | finish r generatedAt ok =>
    obtain ⟨n, rfl⟩ := request_of_owner howner
    have hp := h.phases n
    have hk := h.kept
    rw [step, step]
    generalize w.phase (u, n) = p at hp ⊢
    generalize w'.phase (u, n) = p' at hp ⊢
    cases hp with
    | keeping htwins =>
      -- the kept bodies are twins, whether the store takes them or fails
      have hmove := h.move S n (.done htwins.told)
      dsimp only
      cases ok with
      | true => exact hmove.keep S (.some htwins)
      | false => exact hmove
    | recalling =>
      refine h.move S n (.done ?_)
      cases ok with
      | false => exact sameReply_none S hu generatedAt
      | true =>
        -- both recall what they kept, or both find nothing
        show SameReply S u
          (respond N.toTexts (dict (stale_body S generatedAt u (w.kept u))))
          (respond N.toTexts (dict (stale_body S generatedAt u (w'.kept u))))
        generalize w.kept u = k at hk ⊢
        generalize w'.kept u = k' at hk ⊢
        cases hk with
        | none => exact sameReply_none S hu generatedAt
        | some htwins => exact htwins.stale S generatedAt
    | idle | asked | looked | done => exact h

/-! ### Other steps -/

theorem move_phase_ne (w : World F) {r r' : Request} (h : r' ≠ r) (p : Phase F) :
    (w.move r p).phase r' = w.phase r' := if_neg h

theorem keep_kept_ne (w : World F) {email email' : PyStr} (h : email' ≠ email)
    (body : Option (List (String × PyValue F))) : (w.keep email body).kept email' = w.kept email' :=
  if_neg h

/-- A step of somebody else leaves the requests of a user and the body that is
    kept for the user, and it leaves tame what is known of the deployments. -/
theorem step_other {u : PyStr} {w : World F} {e : Event F} (hown : own u e = false)
    (htame : Tame N u e) (hcaps : TameCaps N w.caps) :
    (∀ n, (step N S w e).phase (u, n) = w.phase (u, n)) ∧
      (step N S w e).kept u = w.kept u ∧ TameCaps N (step N S w e).caps := by
  have howner : e.owner ≠ some u := by simpa [own] using hown
  -- a request of somebody else moves on its own
  have hmove (r : Request) (hr : some r.1 ≠ some u) (p : Phase F) :
      (∀ n, (w.move r p).phase (u, n) = w.phase (u, n)) ∧ (w.move r p).kept u = w.kept u ∧
        TameCaps N (w.move r p).caps := by
    refine ⟨fun n => move_phase_ne w ?_ p, rfl, hcaps⟩
    rintro rfl
    exact hr rfl
  have hsame : (∀ n, w.phase (u, n) = w.phase (u, n)) ∧ w.kept u = w.kept u ∧
      TameCaps N w.caps := ⟨fun _ => rfl, rfl, hcaps⟩
  cases e with
  -- the admin view may change, and stays tame
  | refresh pages callbacks =>
    rw [step]
    cases hload : load_caps N pages callbacks with
    | none => exact hsame
    | some caps => exact ⟨fun _ => rfl, rfl, htame caps hload⟩
  | forget email =>
    refine ⟨fun _ => rfl, keep_kept_ne w ?_ none, hcaps⟩
    rintro rfl
    exact howner rfl
  | start r =>
    rw [step]
    split
    · exact hmove r howner _
    · exact hsame
  | look r =>
    rw [step]
    split
    · exact hmove r howner _
    · exact hsame
  | gather r generatedAt upstream =>
    rw [step]
    split
    · exact hmove r howner _
    · exact hsame
  | finish r generatedAt ok =>
    rw [step]
    split
    · next body _ =>
      have hmoved := hmove r howner (.done (respond N.toTexts (dict body)))
      dsimp only
      split
      · refine ⟨hmoved.1, ?_, hmoved.2.2⟩
        rw [keep_kept_ne _ (fun heq => howner (congrArg some heq.symm))]
        exact hmoved.2.1
      · exact hmoved
    · exact hmove r howner _
    · exact hsame

/-- To a user, two worlds stay one. -/
theorem unwinds_same {u : PyStr} (hu : encodes u = true) :
    Unwinds (step N S) (own u) (Tame N u) (Same N S u) := by
  constructor
  · intro w w' e hown htame h
    exact step_both S hu hown htame h
  · intro w w' e hown htame h
    obtain ⟨hphase, hkept, hcaps⟩ := step_other S hown htame h.caps
    refine ⟨hcaps, h.caps', ?_, fun n => ?_⟩
    · rw [hkept]
      exact h.kept
    · rw [hphase]
      exact h.phases n
  · intro w w' e hown htame h
    obtain ⟨hphase, hkept, hcaps⟩ := step_other S hown htame h.caps'
    refine ⟨h.caps, hcaps, ?_, fun n => ?_⟩
    · rw [hkept]
      exact h.kept
    · rw [hphase]
      exact h.phases n

theorem same_initial (u : PyStr) : Same N S u (.initial : World F) .initial := by
  have hempty : TameCaps N (.empty : Caps F) := by
    intro entry hentry
    cases hentry
  exact ⟨hempty, hempty, .none, fun _ => .idle⟩

/-- A reply without the descriptions of the models. -/
def outlook : RouteReply F → RouteReply F
  | .json body => .json (outline body)
  | reply => reply

/-- What a user is told depends on the user. Take two runs that agree in the
    events of a user, and in no other one need they agree: refreshes of the
    deployments, requests of others and the bodies kept for them. The user is
    told the same in both, but for the descriptions of models; and it is always a
    body with the schema, never an error. -/
theorem opencode_isolated {u : PyStr} (hu : encodes u = true) {events events' : List (Event F)}
    (hown : events.filter (own u) = events'.filter (own u))
    (htame : ∀ e ∈ events, Tame N u e) (htame' : ∀ e ∈ events', Tame N u e) (n : Nat) :
    (told N S events (u, n)).map outlook = (told N S events' (u, n)).map outlook ∧
      ∀ reply, told N S events (u, n) = some reply → IsBody S (.str u) "ok" reply := by
  have hsame := (unwinds_same (N := N) S hu).unwind (same_initial S u) hown htame htame'
  have hp := hsame.phases n
  unfold told run
  generalize (events.foldl (step N S) .initial).phase (u, n) = p at hp ⊢
  generalize (events'.foldl (step N S) .initial).phase (u, n) = p' at hp ⊢
  cases hp with
  | done h =>
    obtain ⟨body, body', rfl, rfl, houtline, hbody⟩ := h
    constructor
    · show some (RouteReply.json (outline body)) = some (RouteReply.json (outline body'))
      rw [houtline]
    · intro reply hreply
      rw [← Option.some.inj hreply]
      exact hbody
  | idle | asked | looked | keeping | recalling =>
    refine ⟨rfl, fun reply hreply => ?_⟩
    cases hreply

end

/-! ### Two runs of a user -/

theorem whole_zero : (some (0 : Int)) = some 0 := rfl

theorem whole_finite : (fun _ : Int => true) 0 = true := rfl

/-- Python, for floats that are whole and texts of ASCII. -/
def whole_numbers : Numbers Int where
  isZero := fun x => x == 0
  isFinite := fun _ => true
  repr := fun x => toString x ++ ".0"
  dumps := fun x => toString x ++ ".0"
  printable := fun _ => true
  lower := fun s => s.map fun
    | .char c => .char c.toLower
    | point => point
  int_of_float := some
  int_of_text := fun _ => none
  float_of_int := some
  float_of_text := fun _ => none
  millions := fun x => x * 1000000
  same := fun
    | .int m, .int n => m == n
    | _, _ => false
  zero := 0
  float_of_zero := whole_zero
  finite_zero := whole_finite

def console : OpencodeSettings Int where
  api_public_url := "https://api.test/"
  provider_name := "ai"
  default_model := some "m"
  default_small_model := none
  services := ["search"]
  skill := "# Skill"
  sha := fun _ => "sha256:0"

def ann : PyStr := lit "ann@corp.test"

def bob : PyStr := lit "bob@corp.test"

/-- One chat model. -/
def one_model : HttpAnswer Int :=
  .response 200 (some (dict [("data", .arr [dict
    [("model_group", text "m"), ("mode", text "chat"), ("max_input_tokens", .int 1000)]])]))

/-- A deployment of it, with a price. -/
def one_page (price : Int) : HttpAnswer Int :=
  .response 200 (some (dict [("total_pages", .int 1), ("data", .arr [dict
    [("model_name", text "m"), ("model_info", dict [("input_cost_per_token", .int price)])]])]))

def no_aliases : HttpAnswer Int := .response 200 (some (dict []))

/-- A request that is answered. -/
def asked (r : Request) (groups : HttpAnswer Int) : List (Event Int) :=
  [.start r, .look r, .gather r "2026-10-01T08:00:00Z" (some ⟨groups, none⟩),
    .finish r "2026-10-01T08:00:00Z" true]

/-- The row of the model. -/
def one_row : Info Int := project_model_group whole_numbers.toTexts
  ([("model_group", text "m"), ("mode", text "chat"), ("max_input_tokens", .int 1000)].map
    fun field => (lit field.1, field.2))

theorem one_row_eq : one_row = [("name", text "m"), ("providers", .arr []), ("mode", text "chat"),
    ("max_input_tokens", .int 1000), ("max_output_tokens", .null), ("input_cost_per_token", .null),
    ("output_cost_per_token", .null), ("supports_vision", .bool false),
    ("supports_function_calling", .bool false), ("supports_reasoning", .bool false),
    ("supports_web_search", .bool false)] := by
  unfold one_row project_model_group
  simp only [get_lit]
  rfl

theorem one_row_chat : chat_name one_row = some (lit "m") := by
  rw [one_row_eq]
  rfl

theorem visible_one_model :
    _visible whole_numbers (some ⟨one_model, none⟩) = some ([one_row], []) := by
  have hrows : (models_listing whole_numbers.toTexts).rows (dict [("data", .arr [dict
      [("model_group", text "m"), ("mode", text "chat"), ("max_input_tokens", .int 1000)]])]) =
      [one_row] := by
    unfold Listing.rows models_listing unwrap_models dict
    simp only [lookup_lit]
    rfl
  have hsortable : ∀ row ∈ [one_row], Sortable whole_numbers.toTexts row := by
    intro row hrow _
    rw [List.mem_singleton.mp hrow, one_row_eq]
    exact ⟨lit "m", rfl⟩
  have hlist : list_litellm_models whole_numbers.toTexts one_model = .ok [one_row] := by
    show list_catalog _ (models_listing whole_numbers.toTexts).projector
      (models_listing whole_numbers.toTexts).unwrap _ = _
    rw [one_model, list_catalog_rows _ (by decide), hrows, sort_rows_of_sortable _ hsortable]
    rfl
  rw [_visible, hlist]
  rfl

theorem capabilities_of_price (price : Int) :
    capabilities_of ([("input_cost_per_token", PyValue.int price)].map
      fun field => (lit field.1, (field.2 : PyValue Int))) =
      [("input_cost_per_token", .int price)] := by
  unfold capabilities_of DEPLOYMENT_CAPABILITY_KEYS
  simp only [get_lit]
  rfl

/-- The row of a deployment with a price. -/
def priced_row (price : Int) : List (PyStr × PyValue Int) :=
  [("model_name", text "m"), ("model_info", dict [("input_cost_per_token", .int price)])].map
    fun field => (lit field.1, field.2)

theorem add_priced_row (price : Int) :
    add_deployment whole_numbers [] (.obj (priced_row price)) =
      some [(text "m", [("input_cost_per_token", .int price)])] := by
  have hname : get (priced_row price) "model_name" = text "m" := by
    rw [priced_row, get_lit]
    rfl
  have hinfo : get (priced_row price) "model_info" =
      dict [("input_cost_per_token", .int price)] := by
    rw [priced_row, get_lit]
    rfl
  rw [add_deployment, hname, hinfo]
  show some [(text "m", capabilities_of _)] = _
  rw [capabilities_of_price]

theorem one_page_known (price : Int) :
    list_deployment_capabilities whole_numbers (fun _ => one_page price) =
      some [(text "m", [("input_cost_per_token", .int price)])] := by
  have hbody : body_of (one_page price) = some (.obj ([("total_pages", .int 1),
      ("data", .arr [.obj (priced_row price)])].map fun field => (lit field.1, field.2))) := rfl
  show read_pages whole_numbers (fun _ => one_page price) (49 + 1) 1 1 [] = _
  rw [read_pages, if_pos (by decide), hbody]
  simp only [add_page, get_lit]
  show (List.foldlM (add_deployment whole_numbers) [] [.obj (priced_row price)]).bind _ = _
  rw [List.foldlM_cons, add_priced_row]
  rfl

theorem no_aliases_known : get_model_group_aliases whole_numbers no_aliases = some [] := rfl

theorem refresh_tame (u : PyStr) (price : Int) :
    Tame whole_numbers u (.refresh (fun _ => one_page price) no_aliases) := by
  intro caps hcaps entry hentry field hfield _
  rw [load_caps, one_page_known, no_aliases_known] at hcaps
  cases hcaps
  rw [List.mem_singleton.mp hentry] at hfield
  rw [List.mem_singleton.mp hfield]
  exact .inr ⟨rfl, price, rfl, rfl⟩

theorem asked_tame (u : PyStr) (r : Request) : ∀ e ∈ asked r one_model, Tame whole_numbers u e := by
  intro e he
  simp only [asked, List.mem_cons, List.not_mem_nil, or_false] at he
  rcases he with rfl | rfl | rfl | rfl
  · exact trivial
  · exact trivial
  · intro _ seen hseen
    rw [visible_one_model] at hseen
    cases hseen
    refine ⟨?_, ?_, by simp⟩
    -- only the limits and the prices are numbers; the row has one limit and no price
    · intro group hgroup field hfield hkey
      rw [List.mem_singleton.mp hgroup, one_row_eq] at hfield
      simp only [List.mem_cons, List.not_mem_nil, or_false] at hfield
      rcases hfield with rfl | rfl | rfl | rfl | rfl | rfl | rfl | hfield
      · simp [NUMBER_KEYS, COST_KEYS] at hkey
      · simp [NUMBER_KEYS, COST_KEYS] at hkey
      · simp [NUMBER_KEYS, COST_KEYS] at hkey
      · exact .inr ⟨rfl, 1000, rfl, rfl⟩
      · exact .inl rfl
      · exact .inl rfl
      · exact .inl rfl
      · rcases hfield with rfl | rfl | rfl | rfl
        · simp [NUMBER_KEYS, COST_KEYS] at hkey
        · simp [NUMBER_KEYS, COST_KEYS] at hkey
        · simp [NUMBER_KEYS, COST_KEYS] at hkey
        · simp [NUMBER_KEYS, COST_KEYS] at hkey
    · intro group hgroup name hname
      rw [List.mem_singleton.mp hgroup, one_row_chat] at hname
      rw [← Option.some.inj hname]
      exact encodes_lit "m"
  · exact trivial

/-- A run of ann, and one in which a deployment costs more and bob asks too. -/
def quiet : List (Event Int) :=
  .refresh (fun _ => one_page 2) no_aliases :: asked (ann, 0) one_model

def busy : List (Event Int) :=
  asked (bob, 0) one_model ++ .refresh (fun _ => one_page 3) no_aliases :: asked (ann, 0) one_model

theorem own_quiet : quiet.filter (own ann) = busy.filter (own ann) := by
  have hne : bob ≠ ann := by
    intro h
    have heq := lit_injective h
    simp at heq
  simp [quiet, busy, asked, own, Event.owner, hne]

theorem opencode_isolated_ann :
    (told whole_numbers console quiet (ann, 0)).map outlook =
        (told whole_numbers console busy (ann, 0)).map outlook ∧
      ∀ reply, told whole_numbers console quiet (ann, 0) = some reply →
        IsBody console (.str ann) "ok" reply := by
  refine opencode_isolated console (encodes_lit "ann@corp.test") own_quiet ?_ ?_ 0
  · exact List.forall_mem_cons.mpr ⟨refresh_tame ann 2, asked_tame ann (ann, 0)⟩
  · exact List.forall_mem_append.mpr ⟨asked_tame ann (bob, 0),
      List.forall_mem_cons.mpr ⟨refresh_tame ann 3, asked_tame ann (ann, 0)⟩⟩

end AlitellmAuth.Opencode
