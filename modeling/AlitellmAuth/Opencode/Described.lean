import AlitellmAuth.Opencode.Runs

/-! # What descriptions come from

    The master key sees deployments with credentials, and callbacks with the
    secrets of other services. Of all this a configuration has the capabilities
    of the deployments behind the models that the user sees, and nothing else.

    * `page_shape`, `callbacks_shape`: what is read of the answers.
    * `load_caps_view`: the rest of the answers has no part in what is known.
    * `fresh_body_of`: the rest of what is known has no part in a body.
-/

namespace AlitellmAuth.Opencode

open PyValue Catalog

variable {F : Type}

/-! ## What is read -/

def row_shape : List (String × Shape) :=
  wholly ["model_name"] ++ [("model_info", .only (wholly DEPLOYMENT_CAPABILITY_KEYS))]

def page_shape : List (String × Shape) :=
  wholly ["total_pages"] ++ [("data", .each (.only row_shape))]

/-- Of the target of an alias its model, if it is a dictionary. -/
def target_shape : List (String × Shape) := wholly ["model"]

def router_shape : List (String × Shape) :=
  [("model_group_alias", .entries (.only target_shape))]

def callbacks_shape : List (String × Shape) := [("router_settings", .only router_shape)]

/-- What a shape keeps of the body of an answer. -/
def answer_view (shape : List (String × Shape)) : HttpAnswer F → HttpAnswer F
  | .unreachable => .unreachable
  | .response status body => .response status (body.map (view (.only shape)))

section
variable (N : Numbers F)

theorem body_of_view (shape : List (String × Shape)) (answer : HttpAnswer F) :
    body_of (answer_view shape answer) = (body_of answer).map (view (.only shape)) := by
  cases answer with
  | unreachable => rfl
  | response status body =>
    show (if is_success status then body.map (view (.only shape)) else none) =
      (if is_success status then body else none).map (view (.only shape))
    split <;> rfl

theorem dict_or_empty_obj (fields : List (PyStr × PyValue F)) :
    dict_or_empty N (.obj fields) = some fields := by
  cases fields with
  | nil => rfl
  | cons field fields => rfl

theorem dict_or_empty_other {value : PyValue F} (h : value.isObj = false) :
    dict_or_empty N value = if value.truthy N.isZero then none else some [] := by
  unfold dict_or_empty or_value
  by_cases htruthy : value.truthy N.isZero = true
  · simp only [if_pos htruthy]
    cases value with
    | obj fields => cases h
    | null | bool | int | float | str | arr => rfl
  · simp only [if_neg htruthy]

/-- A dictionary is as empty in a view as it is read. -/
theorem dict_or_empty_view (shape : List (String × Shape)) (value : PyValue F) :
    dict_or_empty N (view (.only shape) value) =
      (dict_or_empty N value).map (viewFields shape) := by
  cases value with
  | obj fields => rw [view_only_obj, dict_or_empty_obj, dict_or_empty_obj, Option.map_some]
  | null | bool | int | float | str | arr =>
    rw [view, dict_or_empty_other N rfl]
    · split
      · rfl
      · exact congrArg some (viewFields_nil shape).symm
    · simp

theorem dict_or_empty_entries (part : Shape) (value : PyValue F) :
    dict_or_empty N (view (.entries part) value) =
      (dict_or_empty N value).map fun fields =>
        fields.map fun field => (field.1, view part field.2) := by
  cases value with
  | obj fields => rw [view_entries_obj, dict_or_empty_obj, dict_or_empty_obj, Option.map_some]
  | null | bool | int | float | str | arr =>
    rw [view, dict_or_empty_other N rfl]
    · split <;> rfl
    · simp

/-! ## Deployments -/

theorem capabilities_of_view (info : List (PyStr × PyValue F)) :
    capabilities_of (viewFields (wholly DEPLOYMENT_CAPABILITY_KEYS) info) = capabilities_of info := by
  unfold capabilities_of
  apply List.filterMap_congr
  intro key hkey
  rw [get_wholly hkey]

/-- A row with a new name needs a dictionary, or nothing, to describe it. -/
theorem add_deployment_obj (out : Deployments F) (row : List (PyStr × PyValue F)) :
    add_deployment N out (.obj row) =
      if (get row "model_name").truthy N.isZero then
        if (get row "model_name").hashable then
          if out.any fun entry => key_eq N entry.1 (get row "model_name") then some out
          else (dict_or_empty N (get row "model_info")).map fun info =>
            out ++ [(get row "model_name", capabilities_of info)]
        else none
      else some out := by
  unfold add_deployment dict_or_empty
  dsimp only
  split
  · split
    · split
      · rfl
      · generalize or_value N.toTexts (get row "model_info") (.obj []) = info
        cases info <;> rfl
    · rfl
  · rfl

theorem add_deployment_view (out : Deployments F) (row : PyValue F) :
    add_deployment N out (view (.only row_shape) row) = add_deployment N out row := by
  cases row with
  | obj row =>
    have hname : get (viewFields row_shape row) "model_name" = get row "model_name" :=
      get_wholly_append (by simp) _ row
    have hinfo : get (viewFields row_shape row) "model_info" =
        view (.only (wholly DEPLOYMENT_CAPABILITY_KEYS)) (get row "model_info") :=
      get_viewFields rfl row
    rw [view_only_obj, add_deployment_obj, add_deployment_obj, hname, hinfo, dict_or_empty_view,
      Option.map_map]
    simp only [Function.comp_def, capabilities_of_view]
  | null | bool | int | float | str | arr =>
    rw [view]
    simp

theorem add_page_view (out : Deployments F) (body : List (PyStr × PyValue F)) :
    add_page N out (viewFields page_shape body) = add_page N out body := by
  have hdata : get (viewFields page_shape body) "data" =
      view (.each (.only row_shape)) (get body "data") := get_viewFields rfl body
  have hrow : (fun out row => add_deployment N out (view (.only row_shape) row)) =
      add_deployment N := by
    funext out row
    exact add_deployment_view N out row
  unfold add_page
  rw [hdata]
  generalize get body "data" = data
  cases data with
  | arr rows =>
    rw [view_each_arr]
    cases rows with
    | nil => rfl
    | cons row rows =>
      show List.foldlM (add_deployment N) out ((row :: rows).map _) =
        List.foldlM (add_deployment N) out (row :: rows)
      rw [List.foldlM_map, hrow]
  | null | bool | int | float | str | obj =>
    rw [view]
    simp

/-- The pages are read as their views. -/
theorem read_pages_view (pages : Nat → HttpAnswer F) (left page : Nat) (total : Int)
    (out : Deployments F) :
    read_pages N (fun p => answer_view page_shape (pages p)) left page total out =
      read_pages N pages left page total out := by
  induction left generalizing page total out with
  | zero => rfl
  | succ left ih =>
    rw [read_pages, read_pages, body_of_view]
    split
    · cases hbody : body_of (pages page) with
      | none => rfl
      | some body =>
        cases body with
        | obj body =>
          have htotal : get (viewFields page_shape body) "total_pages" = get body "total_pages" :=
            get_wholly_append (by simp) _ body
          rw [Option.map_some, view_only_obj]
          simp only [htotal, add_page_view, ih]
        | null | bool | int | float | str | arr =>
          rw [Option.map_some, view]
          simp
    · rfl

/-! ## Aliases -/

theorem add_alias_view (out : Aliases) (name : PyStr) (target : PyValue F) :
    add_alias out (name, view (.only target_shape) target) = add_alias out (name, target) := by
  have htarget : target_of (view (.only target_shape) target) = target_of target := by
    cases target with
    | obj target =>
      rw [view_only_obj]
      exact get_wholly (by simp) target
    | null | bool | int | float | str | arr =>
      rw [view]
      simp
  unfold add_alias
  rw [htarget]

theorem aliases_view (callbacks : HttpAnswer F) :
    get_model_group_aliases N (answer_view callbacks_shape callbacks) =
      get_model_group_aliases N callbacks := by
  have hsettings (config : List (PyStr × PyValue F)) :
      get (viewFields callbacks_shape config) "router_settings" =
        view (.only router_shape) (get config "router_settings") := get_viewFields rfl config
  have halias (router : List (PyStr × PyValue F)) :
      get (viewFields router_shape router) "model_group_alias" =
        view (.entries (.only target_shape)) (get router "model_group_alias") :=
    get_viewFields rfl router
  have hadd (raw : List (PyStr × PyValue F)) (out : Aliases) :
      (raw.map fun field => (field.1, view (.only target_shape) field.2)).foldl add_alias out =
        raw.foldl add_alias out := by
    rw [List.foldl_map]
    simp only [add_alias_view]
  unfold get_model_group_aliases
  rw [body_of_view]
  simp only [Option.bind_eq_bind, Option.bind_map, Function.comp_def, dict_or_empty_view, hsettings,
    halias, dict_or_empty_entries, hadd]

/-- What is known of the deployments comes from the views of the answers. -/
theorem load_caps_view (pages : Nat → HttpAnswer F) (callbacks : HttpAnswer F) :
    load_caps N (fun p => answer_view page_shape (pages p)) (answer_view callbacks_shape callbacks) =
      load_caps N pages callbacks := by
  rw [load_caps, load_caps, aliases_view, list_deployment_capabilities,
    list_deployment_capabilities, read_pages_view]

/-! ## Bodies -/

theorem models_of (groups : List (Info F)) {caps caps' : Caps F}
    (h : ∀ group ∈ groups, ∀ name, chat_name group = some name → caps.of N name = caps'.of N name) :
    _models N groups caps = _models N groups caps' := by
  induction groups using List.reverseRecOn with
  | nil => rfl
  | append_singleton groups group ih =>
    rw [models_append, models_append, ih fun g hg => h g (List.mem_append_left _ hg)]
    congr 1
    funext out
    unfold add_model
    cases hname : chat_name group with
    | none => rfl
    | some name =>
      have heq := h group (by simp) name hname
      simp only [heq]

/-- A body has of the deployments those behind the models it shows. -/
theorem fresh_body_of (S : OpencodeSettings F) (generatedAt : String) (email : PyStr)
    (seen : List (Info F) × List PyStr) {caps caps' : Caps F}
    (h : ∀ group ∈ seen.1, ∀ name, chat_name group = some name → caps.of N name = caps'.of N name) :
    fresh_body N S generatedAt email seen caps = fresh_body N S generatedAt email seen caps' := by
  rw [fresh_body, fresh_body, models_of N seen.1 h]

/-- What the master key sees comes to a user as descriptions of the user's own
    models. Of its answers only capabilities, names and the targets of aliases
    are read; and a request goes the same way, with the same reply and the same
    kept body, whatever is known of deployments that no chat model of the user
    stands for. -/
theorem opencode_described (S : OpencodeSettings F) :
    (∀ pages callbacks,
      load_caps N (fun p => answer_view page_shape (pages p)) (answer_view callbacks_shape callbacks) =
        load_caps N pages callbacks) ∧
      ∀ generatedAt email upstream caps caps' cached,
        (∀ seen, _visible N upstream = some seen → ∀ group ∈ seen.1, ∀ name,
          chat_name group = some name → caps.of N name = caps'.of N name) →
        config_for N S generatedAt email upstream caps cached =
          config_for N S generatedAt email upstream caps' cached := by
  refine ⟨load_caps_view N, ?_⟩
  intro generatedAt email upstream caps caps' cached h
  unfold config_for
  cases hvisible : _visible N upstream with
  | none => rfl
  | some seen =>
    dsimp only
    rw [fresh_body_of N S generatedAt email seen (h seen hvisible)]

end

/-- What is known of the model of ann. -/
def known : Caps Int := ⟨[(text "m", [("max_input_tokens", .int 4096)])], []⟩

/-- And of a model of somebody else, which has another name as well. -/
def known_more : Caps Int :=
  ⟨(text "n", [("max_input_tokens", .int 1)]) :: known.deployments, [(lit "o", lit "n")]⟩

/-- Ann gets the same with the other model as without. -/
theorem opencode_described_ann :
    config_for whole_numbers console "2026-06-04T10:00:00Z" ann (some ⟨one_model, none⟩) known
        none =
      config_for whole_numbers console "2026-06-04T10:00:00Z" ann (some ⟨one_model, none⟩)
        known_more none := by
  refine (opencode_described whole_numbers console).2 _ ann _ known known_more none ?_
  intro seen hseen group hgroup name hname
  rw [visible_one_model] at hseen
  cases hseen
  rw [List.mem_singleton.mp hgroup, one_row_chat] at hname
  cases hname
  rfl

end AlitellmAuth.Opencode
