import AlitellmAuth.Catalog.Exact
import AlitellmAuth.Opencode.Config

/-! # When the route answers

    A request with a good token is promised a 200. It gets one exactly when all
    numbers of its models can be read, and all texts and prices of what is shown
    can be sent.

    * `Convertible`, `Priced`: conditions on a model.
    * `Servable`: the condition on what a user sees.
    * `renderable_body`: a body can be sent exactly when its configuration can.
    * `opencode_exact`: the condition for the whole route.
-/

namespace AlitellmAuth.Opencode

open PyValue Catalog Text

variable {F : Type}

/-! ## Conditions -/

def COST_KEYS : List String :=
  ["input_cost_per_token", "output_cost_per_token", "cache_read_input_token_cost"]

section
variable (N : Numbers F)

/-- The numbers of a model can be read. -/
structure Convertible (info : Info F) : Prop where
  context : (int_of N (or_value N.toTexts (info_get info "max_input_tokens")
    (.int DEFAULT_CONTEXT))).isSome = true
  output : (int_of N (or_value N.toTexts (info_get info "max_output_tokens")
    (.int DEFAULT_OUTPUT))).isSome = true
  costs : ∀ key ∈ COST_KEYS, (_per_million N (info_get info key)).isSome = true

/-- The prices of a model are numbers of JSON. -/
def Priced (info : Info F) : Prop :=
  ∀ key ∈ COST_KEYS, ∀ x, _per_million N (info_get info key) = some x → N.isFinite x = true

/-- The last group of a name. -/
def last_group (groups : List (Info F)) (name : PyStr) : Option (Info F) :=
  (groups.filter fun group => chat_name group = some name).getLast?

/-- What is known of a model. -/
def described (caps : Caps F) (group : Info F) (name : PyStr) : Info F :=
  merged group (caps.of N name)

variable (S : OpencodeSettings F)

/-- A user can be shown what the key of the user sees. Numbers must do for every
    chat group; prices only where a provider is shown, and only those of the
    last group of a name. -/
structure Servable (email : PyStr) (seen : List (Info F) × List PyStr) (caps : Caps F) : Prop where
  numbers : ∀ group ∈ seen.1, ∀ name, chat_name group = some name →
    Convertible N (described N caps group name)
  user : encodes email = true
  models : S.base ≠ "" → ∀ name group, last_group seen.1 name = some group →
    encodes name = true ∧ Priced N (described N caps group name)
  servers : S.base ≠ "" → ∀ server ∈ seen.2, encodes server = true

end

section
variable {N : Numbers F}

/-! ## Models -/

/-- The prices of an entry are numbers of JSON. -/
def Entry.Finite (N : Numbers F) (entry : Entry F) : Prop :=
  N.isFinite entry.input_cost = true ∧ N.isFinite entry.output_cost = true ∧
    N.isFinite entry.cache_read = true

/-- What the entry of a model is made of. -/
theorem model_spec {info : Info F} {entry : Entry F} (h : _model N info = some entry) :
    _per_million N (info_get info "input_cost_per_token") = some entry.input_cost ∧
      _per_million N (info_get info "output_cost_per_token") = some entry.output_cost ∧
      _per_million N (info_get info "cache_read_input_token_cost") = some entry.cache_read ∧
      Convertible N info := by
  simp only [_model, Option.bind_eq_bind, Option.bind_eq_some_iff, Option.pure_def,
    Option.some_inj] at h
  obtain ⟨context, hcontext, output, houtput, input, hinput, cost, hcost, cache, hcache, rfl⟩ := h
  refine ⟨hinput, hcost, hcache, ⟨?_, ?_, ?_⟩⟩
  · rw [hcontext]
    rfl
  · rw [houtput]
    rfl
  · intro key hkey
    simp only [COST_KEYS, List.mem_cons, List.not_mem_nil, or_false] at hkey
    rcases hkey with rfl | rfl | rfl
    · rw [hinput]
      rfl
    · rw [hcost]
      rfl
    · rw [hcache]
      rfl

theorem exists_model {info : Info F} (h : Convertible N info) : ∃ entry, _model N info = some entry := by
  obtain ⟨context, hcontext⟩ := Option.isSome_iff_exists.mp h.context
  obtain ⟨output, houtput⟩ := Option.isSome_iff_exists.mp h.output
  obtain ⟨input, hinput⟩ :=
    Option.isSome_iff_exists.mp (h.costs "input_cost_per_token" (by simp [COST_KEYS]))
  obtain ⟨cost, hcost⟩ :=
    Option.isSome_iff_exists.mp (h.costs "output_cost_per_token" (by simp [COST_KEYS]))
  obtain ⟨cache, hcache⟩ :=
    Option.isSome_iff_exists.mp (h.costs "cache_read_input_token_cost" (by simp [COST_KEYS]))
  simp only [_model, hcontext, houtput, hinput, hcost, hcache]
  exact ⟨_, rfl⟩

theorem model_finite_iff {info : Info F} {entry : Entry F} (h : _model N info = some entry) :
    entry.Finite N ↔ Priced N info := by
  obtain ⟨hinput, hcost, hcache, -⟩ := model_spec h
  simp only [Entry.Finite, Priced, COST_KEYS, List.forall_mem_cons, hinput, hcost, hcache,
    Option.some_inj, forall_eq']
  simp

theorem last_group_append (groups : List (Info F)) (group : Info F) (name : PyStr) :
    last_group (groups ++ [group]) name =
      if chat_name group = some name then some group else last_group groups name := by
  unfold last_group
  rw [List.filter_append, List.filter_singleton]
  by_cases hname : chat_name group = some name
  · simp [hname]
  · simp [hname]

/-- The last group of a name is a group of this name. -/
theorem last_group_mem {groups : List (Info F)} {name : PyStr} {group : Info F}
    (h : last_group groups name = some group) : group ∈ groups ∧ chat_name group = some name := by
  have hfilter := List.mem_of_getLast? h
  rw [List.mem_filter] at hfilter
  exact ⟨hfilter.1, by simpa using hfilter.2⟩

/-- One more group is one more turn of the loop. -/
theorem models_append (caps : Caps F) (groups : List (Info F)) (group : Info F) :
    _models N (groups ++ [group]) caps =
      (_models N groups caps).bind fun out => add_model N caps out group := by
  unfold _models
  rw [List.foldlM_append]
  congr 1
  funext out
  rw [List.foldlM_cons]
  cases add_model N caps out group <;> rfl

/-- The dictionary of models is what it should be: each name once, with the
    entry of the last group of the name. -/
structure Modelled (N : Numbers F) (caps : Caps F) (groups : List (Info F))
    (models : List (PyStr × Entry F)) : Prop where
  names : (models.map (·.1)).Nodup
  entries : ∀ name, models.lookup name =
    (last_group groups name).bind fun group => _model N (described N caps group name)

/-- The loop over the groups; it ends unless a number cannot be read. -/
theorem models_spec (caps : Caps F) (groups : List (Info F)) :
    (∀ models, _models N groups caps = some models → Modelled N caps groups models) ∧
      ((∃ models, _models N groups caps = some models) ↔
        ∀ group ∈ groups, ∀ name, chat_name group = some name →
          Convertible N (described N caps group name)) := by
  induction groups using List.reverseRecOn with
  | nil =>
    refine ⟨?_, fun _ => by simp, fun _ => ⟨[], rfl⟩⟩
    intro models hmodels
    cases hmodels
    exact ⟨List.nodup_nil, fun name => rfl⟩
  | append_singleton groups group ih =>
    obtain ⟨hspec, hiff⟩ := ih
    rw [models_append]
    constructor
    · intro models hmodels
      obtain ⟨out, hout, hadd⟩ := Option.bind_eq_some_iff.mp hmodels
      have hinv := hspec out hout
      unfold add_model at hadd
      split at hadd
      · next name hname =>
        simp only [Option.bind_eq_bind, Option.bind_eq_some_iff, Option.pure_def,
          Option.some_inj] at hadd
        obtain ⟨entry, hentry, rfl⟩ := hadd
        refine ⟨Dict.nodup_put hinv.names name entry, fun name' => ?_⟩
        rw [last_group_append, hname]
        -- the last group of a name decides
        by_cases hkey : name' = name
        · rw [hkey, Dict.lookup_put_self, if_pos rfl]
          exact hentry.symm
        · rw [Dict.lookup_put_ne out entry hkey, hinv.entries,
            if_neg fun heq => hkey (Option.some.inj heq).symm]
      · next hname =>
        cases hadd
        refine ⟨hinv.names, fun name' => ?_⟩
        rw [last_group_append, hname, hinv.entries]
        simp
    · constructor
      · rintro ⟨models, hmodels⟩
        obtain ⟨out, hout, hadd⟩ := Option.bind_eq_some_iff.mp hmodels
        intro g hg name hname
        rcases List.mem_append.mp hg with hg | hg
        · exact hiff.mp ⟨out, hout⟩ g hg name hname
        · rw [List.mem_singleton.mp hg] at hname ⊢
          simp only [add_model, hname, Option.bind_eq_bind, Option.bind_eq_some_iff] at hadd
          obtain ⟨entry, hentry, -⟩ := hadd
          exact (model_spec hentry).2.2.2
      · intro hconv
        obtain ⟨out, hout⟩ := hiff.mpr fun g hg => hconv g (List.mem_append_left _ hg)
        rw [hout]
        show ∃ models, add_model N caps out group = some models
        unfold add_model
        split
        · next name hname =>
          obtain ⟨entry, hentry⟩ := exists_model (hconv group (by simp) name hname)
          unfold described at hentry
          rw [hentry]
          exact ⟨_, rfl⟩
        · exact ⟨out, rfl⟩

/-- The models of a name are the last groups of it. -/
theorem Modelled.mem_iff {caps : Caps F} {groups : List (Info F)} {models : List (PyStr × Entry F)}
    (h : Modelled N caps groups models) (name : PyStr) (entry : Entry F) :
    (name, entry) ∈ models ↔ ∃ group, last_group groups name = some group ∧
      _model N (described N caps group name) = some entry := by
  rw [Dict.mem_iff_lookup h.names, h.entries, Option.bind_eq_some_iff]

/-! ## Sending -/

theorem renderable_entry (name : PyStr) (entry : Entry F) :
    renderable N.toPrinting (entry_value name entry) = true ↔
      encodes name = true ∧ entry.Finite N := by
  have hinputs : (entry.inputs.map text).all (renderable N.toPrinting) = true := by
    simp
  have hfloat (x : F) : renderable N.toPrinting (.float x) = N.isFinite x := by
    rw [renderable]
  simp [entry_value, Entry.Finite, hinputs, hfloat]

variable (S : OpencodeSettings F)

theorem renderable_provider (models : List (PyStr × Entry F)) :
    renderable N.toPrinting (.obj (_provider S models)) = true ↔
      (S.base ≠ "" → ∀ name entry, (name, entry) ∈ models →
        encodes name = true ∧ entry.Finite N) := by
  unfold _provider
  by_cases hbase : S.base = ""
  · rw [if_pos (.inl hbase)]
    simp [hbase]
  · by_cases hmodels : models = []
    · rw [if_pos (.inr hmodels)]
      simp [hmodels]
    · rw [if_neg (by simp [hbase, hmodels])]
      simp only [renderable_obj, renderable_dict, List.all_cons, List.all_nil, Bool.and_true,
        encodes_lit, renderable_text, Bool.true_and, List.all_map, List.all_eq_true, ne_eq, hbase,
        not_false_eq_true, true_imp_iff]
      constructor
      · intro h name entry hmem
        have hentry := h (name, entry) hmem
        simp only [Function.comp_apply, Bool.and_eq_true] at hentry
        exact (renderable_entry name entry).mp hentry.2
      · rintro h ⟨name, entry⟩ hmem
        have hentry := h name entry hmem
        simp only [Function.comp_apply, Bool.and_eq_true]
        exact ⟨hentry.1, (renderable_entry name entry).mpr hentry⟩

theorem renderable_default (models : List (PyStr × Entry F)) (k : String) (name : Option String) :
    ((default_entry S models k name).all fun field =>
      encodes field.1 && renderable N.toPrinting field.2) = true := by
  unfold default_entry
  split
  · split
    · simp
    · rfl
  · rfl

theorem renderable_mcp (servers : List PyStr) :
    renderable N.toPrinting (.obj (_mcp S servers)) = true ↔
      (S.base ≠ "" → ∀ server ∈ servers, encodes server = true) := by
  unfold _mcp
  by_cases hbase : S.base = ""
  · rw [if_pos hbase]
    simp [hbase]
  · rw [if_neg hbase]
    simp only [renderable_obj, List.all_map, List.all_eq_true, List.mem_insertionSort,
      List.mem_eraseDups, List.mem_append, List.mem_map, ne_eq, hbase, not_false_eq_true,
      true_imp_iff, Function.comp_apply, renderable_dict, List.all_cons, List.all_nil,
      Bool.and_true, renderable_text, renderable_str, renderable_bool, encodes_append, encodes_lit,
      Bool.true_and, Bool.and_self]
    constructor
    · intro h server hmem
      exact h server (.inl hmem)
    · rintro h server (hmem | ⟨name, -, rfl⟩)
      · exact h server hmem
      · exact encodes_lit name

theorem renderable_config (provider mcp defaults : List (PyStr × PyValue F))
    (hdefaults : (defaults.all fun field =>
      encodes field.1 && renderable N.toPrinting field.2) = true) :
    renderable N.toPrinting (.obj (config_of provider mcp defaults)) = true ↔
      renderable N.toPrinting (.obj provider) = true ∧ renderable N.toPrinting (.obj mcp) = true := by
  unfold config_of
  rw [renderable_obj, List.all_append, List.all_append, hdefaults, Bool.and_true, Bool.and_eq_true]
  have hpart (key : String) (fields : List (PyStr × PyValue F)) :
      ((if fields.isEmpty then [] else [(lit key, PyValue.obj fields)]).all fun field =>
        encodes field.1 && renderable N.toPrinting field.2) = renderable N.toPrinting (.obj fields) := by
    cases fields with
    | nil => simp
    | cons field fields => simp
  rw [hpart, hpart]

/-- A body can be sent if its user and its configuration can. -/
theorem renderable_body (generatedAt : String) (user : PyValue F)
    (config : List (PyStr × PyValue F)) {skills : PyValue F}
    (hskills : renderable N.toPrinting skills = true) (auth : String) (stale : Bool) :
    renderable N.toPrinting (dict (_body S generatedAt user config skills auth stale)) = true ↔
      renderable N.toPrinting user = true ∧ renderable N.toPrinting (.obj config) = true := by
  simp only [_body, renderable_dict, List.all_cons, List.all_nil, renderable_text, renderable_null,
    renderable_bool, hskills, Bool.true_and, Bool.and_true, Bool.and_eq_true]

theorem renderable_skills : renderable N.toPrinting (_skills S) = true := by
  simp [_skills]

/-- A body that has been made can be sent exactly if the user can be served. -/
theorem fresh_body_iff {generatedAt : String} {email : PyStr} {seen : List (Info F) × List PyStr}
    {caps : Caps F} {body : List (String × PyValue F)}
    (h : fresh_body N S generatedAt email seen caps = some body) :
    renderable N.toPrinting (dict body) = true ↔ Servable N S email seen caps := by
  simp only [fresh_body, Option.bind_eq_bind, Option.bind_eq_some_iff, Option.pure_def,
    Option.some_inj] at h
  obtain ⟨models, hmodels, rfl⟩ := h
  obtain ⟨hspec, hconv⟩ := models_spec (N := N) caps seen.1
  have hmodelled := hspec models hmodels
  have hdefaults : ((_defaults S models).all fun field =>
      encodes field.1 && renderable N.toPrinting field.2) = true := by
    rw [_defaults, List.all_append, renderable_default, renderable_default]
    rfl
  rw [renderable_body S _ _ _ (renderable_skills S), renderable_config _ _ _ hdefaults,
    renderable_provider, renderable_mcp, renderable_str]
  -- The entries of the provider are those of the last groups.
  have hentries : (∀ name entry, (name, entry) ∈ models → encodes name = true ∧ entry.Finite N) ↔
      ∀ name group, last_group seen.1 name = some group →
        encodes name = true ∧ Priced N (described N caps group name) := by
    constructor
    · intro hall name group hlast
      have hmem := last_group_mem hlast
      obtain ⟨entry, hentry⟩ := exists_model (hconv.mp ⟨models, hmodels⟩ group hmem.1 name hmem.2)
      have hboth := hall name entry ((hmodelled.mem_iff name entry).mpr ⟨group, hlast, hentry⟩)
      exact ⟨hboth.1, (model_finite_iff hentry).mp hboth.2⟩
    · intro hall name entry hmem
      obtain ⟨group, hlast, hentry⟩ := (hmodelled.mem_iff name entry).mp hmem
      have hboth := hall name group hlast
      exact ⟨hboth.1, (model_finite_iff hentry).mpr hboth.2⟩
  rw [hentries]
  constructor
  · rintro ⟨huser, hshown, hservers⟩
    exact ⟨hconv.mp ⟨models, hmodels⟩, huser, hshown, hservers⟩
  · rintro ⟨-, huser, hshown, hservers⟩
    exact ⟨huser, hshown, hservers⟩

/-! ## Kept bodies -/

variable (N) in
/-- A body that the route has made for a user, with what the user could see then. -/
structure Kept (email : PyStr) where
  body : List (String × PyValue F)
  generatedAt : String
  seen : List (Info F) × List PyStr
  caps : Caps F
  made : fresh_body N S generatedAt email seen caps = some body

/-- A kept body is a body of the route. -/
theorem Kept.eq_body {email : PyStr} (k : Kept N S email) : ∃ config,
    k.body = _body S k.generatedAt (.str email) config (_skills S) "ok" false := by
  have hmade := k.made
  simp only [fresh_body, Option.bind_eq_bind, Option.bind_eq_some_iff, Option.pure_def,
    Option.some_inj] at hmade
  obtain ⟨models, -, hbody⟩ := hmade
  exact ⟨_, hbody.symm⟩

/-- Replayed, a body differs in one field. -/
theorem stale_of_body (generatedAt generatedAt' : String) (email email' : PyStr)
    (config : List (PyStr × PyValue F)) :
    stale_body S generatedAt email
        (some (_body S generatedAt' (.str email') config (_skills S) "ok" false)) =
      _body S generatedAt' (.str email') config (_skills S) "ok" true := by
  simp [stale_body, _body, Table.put]

/-- A replayed body can be sent exactly if the user could be served then. -/
theorem stale_kept_iff {email : PyStr} (k : Kept N S email) (generatedAt : String) :
    renderable N.toPrinting (dict (stale_body S generatedAt email (some k.body))) = true ↔
      Servable N S email k.seen k.caps := by
  obtain ⟨config, hbody⟩ := k.eq_body
  rw [← fresh_body_iff S k.made, hbody, stale_of_body,
    renderable_body S _ _ _ (renderable_skills S), renderable_body S _ _ _ (renderable_skills S)]

theorem stale_body_none (generatedAt : String) (email : PyStr) :
    stale_body S generatedAt email none =
      _body S generatedAt (.str email) [] (_skills S) "ok" true := rfl

theorem stale_none_iff (generatedAt : String) (email : PyStr) :
    renderable N.toPrinting (dict (stale_body S generatedAt email none)) = true ↔
      encodes email = true := by
  rw [stale_body_none, renderable_body S _ _ _ (renderable_skills S)]
  simp

/-! ## The route -/

variable (N) in
/-- When a request of a user is answered: if LiteLLM has answered under the key
    of the user, what it answered can be shown; if not, the last body can still
    be sent, or the email alone where there is none. -/
def Answered (email : PyStr) (upstream : Option (Upstream F)) (caps : Caps F)
    (cached : Option (Kept N S email)) : Prop :=
  match _visible N upstream, cached with
  | some seen, _ => Servable N S email seen caps
  | none, some k => Servable N S email k.seen k.caps
  | none, none => encodes email = true

/-- A reply is a body of the route, with its schema and the user. -/
def IsBody (user : PyValue F) (auth : String) (reply : RouteReply F) : Prop :=
  ∃ generatedAt config skills stale,
    reply = .json (dict (_body S generatedAt user config skills auth stale))

/-- The reply for a good token is a body that can be sent exactly if the user is
    answered, or a crash before there is one. -/
theorem config_for_cases (generatedAt : String) (email : PyStr) (upstream : Option (Upstream F))
    (caps : Caps F) (cached : Option (Kept N S email)) :
    ((config_for N S generatedAt email upstream caps (cached.map Kept.body)).2 = .crash ∧
        ¬ Answered N S email upstream caps cached) ∨
      ∃ generatedAt' config stale,
        (config_for N S generatedAt email upstream caps (cached.map Kept.body)).2 =
          respond N.toTexts
            (dict (_body S generatedAt' (.str email) config (_skills S) "ok" stale)) ∧
        (renderable N.toPrinting
            (dict (_body S generatedAt' (.str email) config (_skills S) "ok" stale)) = true ↔
          Answered N S email upstream caps cached) := by
  unfold config_for Answered
  cases hvisible : _visible N upstream with
  | some seen =>
    dsimp only
    cases hfresh : fresh_body N S generatedAt email seen caps with
    | some body =>
      obtain ⟨config, hbody⟩ := Kept.eq_body S ⟨body, generatedAt, seen, caps, hfresh⟩
      have hiff := fresh_body_iff S hfresh
      rw [show body = _ from hbody] at hiff ⊢
      exact .inr ⟨generatedAt, config, false, rfl, hiff⟩
    | none =>
      refine .inl ⟨rfl, fun h => ?_⟩
      -- The numbers can be read, so there is a body.
      obtain ⟨models, hmodels⟩ := (models_spec (N := N) caps seen.1).2.mpr h.numbers
      simp [fresh_body, hmodels] at hfresh
  | none =>
    right
    cases cached with
    | some k =>
      obtain ⟨config, hbody⟩ := k.eq_body
      have hiff := stale_kept_iff S k generatedAt
      rw [hbody, stale_of_body] at hiff
      refine ⟨k.generatedAt, config, true, ?_, hiff⟩
      show respond N.toTexts (dict (stale_body S generatedAt email (some k.body))) = _
      rw [hbody, stale_of_body]
    | none =>
      have hiff := stale_none_iff (N := N) S generatedAt email
      rw [stale_body_none] at hiff
      exact ⟨generatedAt, [], true, rfl, hiff⟩

/-- What a request with a good token gets. -/
theorem config_for_iff (generatedAt : String) (email : PyStr) (upstream : Option (Upstream F))
    (caps : Caps F) (cached : Option (Kept N S email)) :
    (Answered N S email upstream caps cached ∧ IsBody S (.str email) "ok"
        (config_for N S generatedAt email upstream caps (cached.map Kept.body)).2) ∨
      (¬ Answered N S email upstream caps cached ∧
        (config_for N S generatedAt email upstream caps (cached.map Kept.body)).2 = .crash) := by
  rcases config_for_cases S generatedAt email upstream caps cached with
    ⟨hcrash, hnot⟩ | ⟨generatedAt', config, stale, hreply, hiff⟩
  · exact .inr ⟨hnot, hcrash⟩
  · rw [hreply]
    by_cases hrender : renderable N.toPrinting
        (dict (_body S generatedAt' (.str email) config (_skills S) "ok" stale)) = true
    · rw [respond_of_renderable hrender]
      exact .inl ⟨hiff.mp hrender, generatedAt', config, _skills S, stale, rfl⟩
    · rw [respond_of_not_renderable hrender]
      exact .inr ⟨fun h => hrender (hiff.mpr h), rfl⟩

/-- What each request gets. Without a bearer it is refused; with a token that is
    not good it always gets the empty body, with no user, no configuration and no
    skills; and with a good one it gets a body exactly if it is `Answered`, else a
    500. -/
theorem opencode_exact (verify : String → Option PyStr) (authorization : Option String)
    (generatedAt : String) (upstream : Option (Upstream F)) (caps : Caps F)
    (cached : (email : PyStr) → Option (Kept N S email)) :
    let reply := opencode_config N S verify authorization generatedAt upstream caps
      fun email => (cached email).map Kept.body
    match bearer_token authorization with
    | none => reply = .http 401 "bearer token required"
    | some token =>
        match verify token with
        | none => reply = .json (dict (_body S generatedAt .null [] (.arr []) "invalid" false))
        | some email =>
            (Answered N S email upstream caps (cached email) ∧ IsBody S (.str email) "ok" reply) ∨
              (¬ Answered N S email upstream caps (cached email) ∧ reply = .crash) := by
  unfold opencode_config
  cases bearer_token authorization with
  | none => rfl
  | some token =>
    dsimp only
    cases verify token with
    | some email => exact config_for_iff S generatedAt email upstream caps (cached email)
    | none =>
      -- the body of an invalid token has neither models nor skills, so it renders
      have hskills : renderable N.toPrinting (.arr []) = true := by simp
      have hrender : renderable N.toPrinting (dict (invalid_body S generatedAt)) = true := by
        rw [invalid_body, renderable_body S _ _ _ hskills]
        simp
      exact respond_of_renderable hrender

end

end AlitellmAuth.Opencode
