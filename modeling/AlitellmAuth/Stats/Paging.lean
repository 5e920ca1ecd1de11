import Mathlib.Data.List.Dedup
import AlitellmAuth.Stats.Activity

/-! # Pages of the daily activity

    LiteLLM cuts the activity of a user into pages, and a day may lie on several
    of them. The usage page shows the same figures for every cut.

    * `fetch_served`: the loop has read all pages and added their totals up.
    * `row_names`: the blocks of a row, under the names that are shown, hold the
      usage of its records. An MCP call is in two parts of a row, so one of
      them is left out as soon as the other is there.
    * `window_counts`, `window_last_days`: every record is counted once.
    * `paging_indifferent`: so the cut makes no difference.
-/

namespace AlitellmAuth.Stats

open Litellm Shares

variable {alias_of : String → Option String} {py_float : String → Option Rat}

/-! ## Figures -/

/-- What is read from metrics that say some usage. -/
theorem Tells.get {names : List (String × (Metrics → Rat))} {m : Dict} {usage : Metrics}
    (h : Tells names m usage) {name : String} (counter : Metrics → Rat)
    (hname : (name, counter) ∈ names) : num py_float (m.lookup name) = counter usage := by
  have hlookup : m.lookup name = some (.num (counter usage)) := h _ hname
  rw [hlookup]
  rfl

theorem truncate_int (n : Int) : truncate (n : Rat) = n := by
  simp [truncate]

theorem Tells.get_int {names : List (String × (Metrics → Rat))} {m : Dict} {usage : Metrics}
    (h : Tells names m usage) {name : String} (counter : Metrics → Int)
    (hname : (name, fun t => (counter t : Rat)) ∈ names) :
    int_num py_float (m.lookup name) = counter usage := by
  rw [int_num, h.get (fun t => (counter t : Rat)) hname, truncate_int]

theorem day_of_told {date : Option String} {m : Dict} {usage : Metrics} (h : Tells METRICS m usage) :
    (day_series_entry py_float ⟨date, m⟩).figures = usage.day := by
  show Figures.mk _ _ _ _ _ _ = Figures.mk _ _ _ _ _ _
  congr 1
  · exact h.get (·.spend) (by simp [METRICS])
  · exact h.get_int (·.api_requests) (by simp [METRICS])
  · exact h.get_int (·.total_tokens) (by simp [METRICS])
  · exact h.get_int (·.prompt_tokens) (by simp [METRICS])
  · exact h.get_int (·.completion_tokens) (by simp [METRICS])
  · exact h.get_int (·.failed_requests) (by simp [METRICS])

theorem model_of_told {m : Dict} {usage : Metrics} (h : Tells METRICS m usage) :
    model_block_figures py_float m = usage.ofModel := by
  show ModelFigures.mk _ _ _ _ _ _ = ModelFigures.mk _ _ _ _ _ _
  congr 1
  · exact h.get_int (·.api_requests) (by simp [METRICS])
  · exact h.get_int (·.prompt_tokens) (by simp [METRICS])
  · exact h.get_int (·.completion_tokens) (by simp [METRICS])
  · exact h.get_int (·.total_tokens) (by simp [METRICS])
  · exact h.get_int (·.cache_read_input_tokens) (by simp [METRICS])
  · exact h.get (·.spend) (by simp [METRICS])

/-- Figures of some usage are figures of its records, added up. -/
theorem day_usage (p : UsageRecord → Bool) (records : List UsageRecord) :
    (usage_of p records).day = sum_of (fun r => r.metrics.day) p records :=
  map_sum_of Metrics.day rfl (fun _ _ => rfl) p records

theorem model_usage (p : UsageRecord → Bool) (records : List UsageRecord) :
    (usage_of p records).ofModel = sum_of (fun r => r.metrics.ofModel) p records :=
  map_sum_of Metrics.ofModel rfl (fun _ _ => rfl) p records

theorem total_eq_usage (records : List UsageRecord) :
    total_of records = usage_of (fun _ => true) records := by
  unfold total_of usage_of sum_of
  rw [List.filter_true]

/-! ## Fetching -/

/-- A page of some records, as it is read. -/
def Page (alias_of : String → Option String) (records : List UsageRecord)
    (page : List ActivityRow × Dict) : Prop :=
  PageOf alias_of records page.1 page.2

/-- The rows of some pages. -/
def rows_of (pages : List (List ActivityRow × Dict)) : List ActivityRow := (pages.map (·.1)).flatten

/-- The loop reads every page, and adds the totals of all of them up. -/
theorem fetch_served {respond : Nat → ActivityAnswer} {rest : List (List UsageRecord)}
    {records : List UsageRecord} {page left : Nat} (h : ServesPages alias_of respond page (records :: rest))
    (hleft : rest.length < left) (accumulated : List ActivityRow) (last_metadata : Dict)
    (summed_totals : List (String × Rat)) :
    ∃ pages last, List.Forall₂ (Page alias_of) (records :: rest) pages ∧
      fetch_days respond left page accumulated last_metadata summed_totals =
        .ok ⟨accumulated ++ rows_of pages,
          merged_metadata last ((pages.map (·.2)).foldl sum_totals summed_totals)⟩ := by
  -- on the pages that are left; the last one has no more
  induction rest generalizing records page left accumulated last_metadata summed_totals with
  | nil =>
    obtain ⟨results, metadata, hrespond, hpage, hmore, -⟩ := h
    obtain ⟨left, rfl⟩ : ∃ n, left = n + 1 := ⟨left - 1, by simp at hleft; omega⟩
    refine ⟨[(results, metadata)], metadata, List.Forall₂.cons hpage List.Forall₂.nil, ?_⟩
    unfold fetch_days
    simp only [hrespond, Option.getD_some, hmore]
    simp [Json.truthy, rows_of]
  | cons records' rest ih =>
    obtain ⟨results, metadata, hrespond, hpage, hmore, hrest⟩ := h
    obtain ⟨left, rfl⟩ : ∃ n, left = n + 1 := ⟨left - 1, by simp at hleft; omega⟩
    have hlength : rest.length < left := by
      rw [List.length_cons] at hleft
      omega
    obtain ⟨pages, last, hpages, hfetch⟩ := ih hrest hlength (accumulated ++ results) metadata
      (sum_totals summed_totals metadata)
    refine ⟨(results, metadata) :: pages, last, List.Forall₂.cons hpage hpages, ?_⟩
    unfold fetch_days
    simp only [hrespond, Option.getD_some, hmore]
    rw [if_pos (by rfl), hfetch]
    simp [rows_of]

/-! ## Totals -/

/-- A total of a page is in its totals, once. -/
theorem page_total {metadata : Dict} (hnodup : (metadata.map (·.1)).Nodup) {name : String} {q : Rat}
    (hlookup : metadata.lookup name = some (.num q)) (hname : is_total name = true) :
    (∃ t ∈ page_totals metadata, t.1 = name) ∧
      sum_of (·.2) (fun t => decide (t.1 = name)) (page_totals metadata) = q := by
  induction metadata with
  | nil => cases hlookup
  | cons row metadata ih =>
    obtain ⟨k, value⟩ := row
    obtain ⟨hk, hnodup⟩ := List.nodup_cons.mp hnodup
    by_cases heq : name = k
    · subst heq
      rw [List.lookup_cons, beq_self_eq_true] at hlookup
      obtain rfl : value = .num q := Option.some.inj hlookup
      have hcons : page_totals ((name, .num q) :: metadata) = (name, q) :: page_totals metadata := by
        simp [page_totals, hname]
      -- no other field has the name
      have hrest : sum_of (·.2) (fun t => decide (t.1 = name)) (page_totals metadata) = 0 := by
        apply sum_of_none
        intro t ht
        obtain ⟨row, hrow, heq⟩ := List.mem_filterMap.mp ht
        have hkey : t.1 = row.1 := by
          split at heq
          · split at heq
            · cases heq
              rfl
            · cases heq
          · cases heq
        apply decide_eq_false
        intro hname
        exact hk (List.mem_map.mpr ⟨row, hrow, hkey.symm.trans hname⟩)
      rw [hcons]
      refine ⟨⟨_, List.mem_cons_self, rfl⟩, ?_⟩
      rw [sum_of_cons, hrest, decide_eq_true rfl, if_pos rfl, add_zero]
    · rw [Table.lookup_cons_ne metadata value heq] at hlookup
      obtain ⟨⟨t, ht, hkey⟩, hover⟩ := ih hnodup hlookup
      have hcons : page_totals ((k, value) :: metadata) =
          page_totals [(k, value)] ++ page_totals metadata :=
        List.filterMap_append (l := [(k, value)])
      have hhead : sum_of (·.2) (fun t => decide (t.1 = name)) (page_totals [(k, value)]) = 0 := by
        apply sum_of_none
        intro t ht
        obtain ⟨row, hrow, hsome⟩ := List.mem_filterMap.mp ht
        obtain rfl := List.mem_singleton.mp hrow
        apply decide_eq_false
        intro hname
        apply heq
        split at hsome
        · split at hsome
          · cases hsome
            exact hname.symm
          · cases hsome
        · cases hsome
      rw [hcons]
      refine ⟨⟨t, List.mem_append_right _ ht, hkey⟩, ?_⟩
      rw [sum_of_append, hhead, hover, zero_add]

/-- The totals of several pages in one dictionary. -/
theorem summed_eq (pages : List (List ActivityRow × Dict)) :
    (pages.map (·.2)).foldl sum_totals [] =
      Groups.group (·.1) 0 (fun s t => s + t.2) (pages.map fun page => page_totals page.2).flatten := by
  unfold Groups.group
  rw [List.foldl_flatten, List.foldl_map, List.foldl_map]
  rfl

/-- Every counter has a name of its own in the totals, and is additive. -/
theorem totals_additive {t : String × (Metrics → Rat)} (ht : t ∈ TOTALS) :
    is_total t.1 = true ∧ t.2 0 = 0 ∧ ∀ a b, t.2 (a + b) = t.2 a + t.2 b := by
  have hcast : ∀ a b : Int, ((a + b : Int) : Rat) = (a : Rat) + (b : Rat) := Int.cast_add
  unfold TOTALS at ht
  simp only [List.mem_cons, List.not_mem_nil, or_false] at ht
  rcases ht with rfl | rfl | rfl | rfl | rfl | rfl | rfl
  · exact ⟨by decide, rfl, fun _ _ => rfl⟩
  · exact ⟨by decide, rfl, fun _ _ => hcast _ _⟩
  · exact ⟨by decide, rfl, fun _ _ => hcast _ _⟩
  · exact ⟨by decide, rfl, fun _ _ => hcast _ _⟩
  · exact ⟨by decide, rfl, fun _ _ => hcast _ _⟩
  · exact ⟨by decide, rfl, fun _ _ => hcast _ _⟩
  · exact ⟨by decide, rfl, fun _ _ => hcast _ _⟩

/-- The sum over all pages is the total of all records. -/
theorem summed_total {cut : List (List UsageRecord)} {pages : List (List ActivityRow × Dict)}
    (h : List.Forall₂ (Page alias_of) cut pages) {t : String × (Metrics → Rat)} (ht : t ∈ TOTALS) :
    sum_of (·.2) (fun s => decide (s.1 = t.1)) (pages.map fun page => page_totals page.2).flatten =
      t.2 (total_of cut.flatten) := by
  obtain ⟨hname, hzero, hadd⟩ := totals_additive ht
  induction h with
  | nil => exact hzero.symm
  | cons hpage _ ih =>
    obtain ⟨-, hover⟩ := page_total hpage.nodup (hpage.totals t ht) hname
    rw [List.map_cons, List.flatten_cons, sum_of_append, hover, ih, List.flatten_cons]
    unfold total_of
    rw [List.map_append, List.sum_append, hadd]

/-- A dictionary that is written over another one. -/
theorem lookup_merged (last : Dict) {summed : List (String × Rat)}
    (hnodup : (summed.map (·.1)).Nodup) {name : String} {q : Rat} (h : summed.lookup name = some q) :
    (merged_metadata last summed).lookup name = some (.num q) := by
  have hmem : (name, Json.num q) ∈ (summed.map fun t => (t.1, Json.num t.2)).reverse :=
    List.mem_reverse.mpr (List.mem_map.mpr ⟨_, (Groups.mem_iff_lookup hnodup _ _).mpr h, rfl⟩)
  have hkeys : (((summed.map fun t => (t.1, Json.num t.2)).reverse).map (·.1)).Nodup := by
    rw [List.map_reverse, List.map_map, List.nodup_reverse]
    exact hnodup
  unfold merged_metadata
  rw [Json.lookup_update, (Groups.mem_iff_lookup hkeys _ _).mp hmem]
  rfl

/-- The metadata of the window tells the totals of all records. -/
theorem merged_told {records : List UsageRecord} {rest : List (List UsageRecord)}
    {pages : List (List ActivityRow × Dict)}
    (h : List.Forall₂ (Page alias_of) (records :: rest) pages) (last : Dict) :
    Tells TOTALS (merged_metadata last ((pages.map (·.2)).foldl sum_totals []))
      (total_of (records :: rest).flatten) := by
  intro t ht
  rw [summed_eq]
  refine lookup_merged last (Groups.group_nodup _) ?_
  rw [lookup_tally, summed_total h ht]
  apply if_pos
  -- the first page has the total
  obtain ⟨page, pages, hpage, -, rfl⟩ := List.forall₂_cons_left_iff.mp h
  obtain ⟨⟨s, hs, hkey⟩, -⟩ := page_total hpage.nodup (hpage.totals t ht) (totals_additive ht).1
  exact ⟨s, List.mem_append_left _ hs, hkey⟩

/-! ## The blocks of a row -/

/-- The metrics of a block. -/
def block_metrics (fields : Dict) : Dict := dict_of (field fields "metrics")

/-- What blocks say, each under its own key. -/
def block_rows {M : Type} (read : Dict → M) (blocks : Dict) : List (String × M) :=
  blocks.map fun block => (block.1, read (block_metrics (dict_of block.2)))

section
variable {key : UsageRecord → Option String} {records : List UsageRecord} {blocks : Dict}

theorem BlocksOf.read_eq (h : BlocksOf key records blocks) {block : String × Json}
    (hblock : block ∈ blocks) : ∃ fields, block.2 = .obj fields ∧
      or_empty (fields.lookup "metrics") = .ok (block_metrics fields) ∧
      Tells METRICS (block_metrics fields)
        (usage_of (fun r => decide (key r = some block.1)) records) := by
  obtain ⟨fields, m, hobj, hmetrics, htold⟩ := h.block block hblock
  have hm : block_metrics fields = m := by
    unfold block_metrics field
    rw [hmetrics]
    rfl
  refine ⟨fields, hobj, ?_, ?_⟩
  · rw [hm, hmetrics]
    rfl
  · rw [hm]
    exact htold

/-- The blocks share the usage of the records out among the keys. -/
theorem BlocksOf.shares {M : Type} [AddCommMonoid M] {read : Dict → M} {fig : UsageRecord → M}
    (h : BlocksOf key records blocks)
    (hread : ∀ m p, Tells METRICS m (usage_of p records) → read m = sum_of fig p records) :
    IsShare fig key records (block_rows read blocks) := by
  have hkeys : (block_rows read blocks).map (·.1) = blocks.map (·.1) := by
    unfold block_rows
    rw [List.map_map]
    rfl
  refine ⟨by rw [hkeys]; exact h.nodup, fun k => by rw [hkeys]; exact h.keys k, fun row hrow => ?_⟩
  obtain ⟨block, hblock, rfl⟩ := List.mem_map.mp hrow
  obtain ⟨fields, hobj, -, htold⟩ := h.read_eq hblock
  rw [hobj]
  exact hread _ _ htold

/-- Blocks under the names that they are given. -/
theorem named_rows {M : Type} [AddCommMonoid M] (read : Dict → M)
    (hobj : ∀ block ∈ blocks, ∃ fields, block.2 = .obj fields) (row_name : String → Option String)
    (name : String) :
    sum_of (fun b => read (block_metrics b.2)) (fun b => decide (b.1 = name))
        (named_blocks row_name blocks) =
      sum_of (·.2) (fun row => decide (row_name row.1 = some name)) (block_rows read blocks) := by
  induction blocks with
  | nil => rfl
  | cons block blocks ih =>
    obtain ⟨k, value⟩ := block
    obtain ⟨fields, hvalue⟩ := hobj _ List.mem_cons_self
    obtain rfl : value = .obj fields := hvalue
    have hrest := ih fun b hb => hobj b (List.mem_cons_of_mem _ hb)
    have hrows : block_rows read ((k, .obj fields) :: blocks) =
        (k, read (block_metrics fields)) :: block_rows read blocks := rfl
    rw [hrows, sum_of_cons, ← hrest]
    -- a block without a name is left out on both sides
    cases hname : row_name k with
    | none =>
      have hnamed : named_blocks row_name ((k, .obj fields) :: blocks) = named_blocks row_name blocks := by
        simp [named_blocks, hname]
      rw [hnamed]
      simp
    | some shown =>
      have hnamed : named_blocks row_name ((k, .obj fields) :: blocks) =
          (shown, fields) :: named_blocks row_name blocks := by
        simp [named_blocks, hname]
      rw [hnamed, sum_of_cons]
      simp

/-- The blocks of a name are the records of its keys. -/
theorem BlocksOf.named {M : Type} [AddCommMonoid M] {read : Dict → M} {fig : UsageRecord → M}
    (h : BlocksOf key records blocks)
    (hread : ∀ m p, Tells METRICS m (usage_of p records) → read m = sum_of fig p records)
    (row_name : String → Option String) (name : String) :
    sum_of (fun b => read (block_metrics b.2)) (fun b => decide (b.1 = name))
        (named_blocks row_name blocks) =
      sum_of fig (fun r => decide ((key r).bind row_name = some name)) records := by
  have hobj : ∀ block ∈ blocks, ∃ fields, block.2 = .obj fields := by
    intro block hblock
    obtain ⟨fields, hobj, -⟩ := h.read_eq hblock
    exact ⟨fields, hobj⟩
  rw [named_rows read hobj]
  refine (sum_shares (h.shares hread) fun k => decide (row_name k = some name)).trans ?_
  apply sum_of_congr
  intro r _
  cases key r with
  | none => rfl
  | some k => rfl

/-- A name is there if a record has one of its keys. -/
theorem BlocksOf.named_iff (h : BlocksOf key records blocks) (row_name : String → Option String)
    (name : String) :
    (∃ b ∈ named_blocks row_name blocks, b.1 = name) ↔
      ∃ r ∈ records, (key r).bind row_name = some name := by
  constructor
  · rintro ⟨b, hb, rfl⟩
    obtain ⟨block, hblock, hsome⟩ := List.mem_filterMap.mp hb
    obtain ⟨fields, hobj, -⟩ := h.read_eq hblock
    obtain ⟨r, hr, hkey⟩ := (h.keys block.1).mp (List.mem_map.mpr ⟨block, hblock, rfl⟩)
    refine ⟨r, hr, ?_⟩
    rw [hobj] at hsome
    obtain ⟨shown, hshown, rfl⟩ := Option.map_eq_some_iff.mp hsome
    rw [hkey]
    exact hshown
  · rintro ⟨r, hr, hname⟩
    obtain ⟨k, hkey, hshown⟩ := Option.bind_eq_some_iff.mp hname
    obtain ⟨block, hblock, rfl⟩ := List.mem_map.mp ((h.keys k).mpr ⟨r, hr, hkey⟩)
    obtain ⟨fields, hobj, -⟩ := h.read_eq hblock
    refine ⟨(name, fields), List.mem_filterMap.mpr ⟨block, hblock, ?_⟩, rfl⟩
    rw [hobj]
    exact Option.map_eq_some_iff.mpr ⟨name, hshown, rfl⟩

end

/-! ## Names -/

/-- A part of a breakdown that is missing has no blocks. -/
theorem dict_of_part {breakdown blocks : Dict} {name : String} (h : part breakdown name = .obj blocks) :
    dict_of (field breakdown name) = blocks := by
  unfold part at h
  unfold field
  cases hlookup : breakdown.lookup name with
  | none =>
    rw [hlookup] at h
    cases h
    rfl
  | some value =>
    rw [hlookup] at h
    cases h
    rfl

/-- The public names of a row, also if its deployments are asked for instead: a
    record with a model has a public name. -/
theorem groups_of_row {records : List UsageRecord} {row : ActivityRow}
    (h : RowOf alias_of records row) :
    BlocksOf (·.model_group) records (model_groups row.breakdown) := by
  obtain ⟨groups, hgroups, hblocks⟩ := h.model_groups
  obtain ⟨models, hmodels, hdeployments⟩ := h.models
  unfold model_groups
  rw [dict_of_part hgroups, dict_of_part hmodels]
  by_cases htruthy : (field row.breakdown "model_groups").truthy = true
  · rw [if_pos htruthy]
    exact hblocks
  · rw [if_neg htruthy]
    -- no public name, so no model
    have hnil : groups = [] := by
      have hdict := dict_of_part hgroups
      cases hfield : field row.breakdown "model_groups" with
      | obj fields =>
        rw [hfield] at hdict htruthy
        obtain rfl : fields = groups := hdict
        cases fields with
        | nil => rfl
        | cons => exact absurd rfl htruthy
      | null | bool | num | str | arr =>
        rw [hfield] at hdict
        exact hdict.symm
    have hgroupless : ∀ r ∈ records, r.model_group = none := by
      intro r hr
      cases hgroup : r.model_group with
      | none => rfl
      | some name =>
        have hmem := (hblocks.keys name).mpr ⟨r, hr, hgroup⟩
        rw [hnil] at hmem
        cases hmem
    have hmodelless : models = [] := by
      cases models with
      | nil => rfl
      | cons block models =>
        obtain ⟨r, hr, hkey⟩ := (hdeployments.keys block.1).mp List.mem_cons_self
        have hsome := r.grouped (by rw [hkey]; rfl)
        rw [hgroupless r hr] at hsome
        cases hsome
    rw [hmodelless]
    rw [hnil] at hblocks
    exact hblocks

/-- A call to a tool is counted from `mcp_servers`, another record from
    `model_groups`. -/
theorem name_split {records : List UsageRecord} {mcp : Dict} (h : BlocksOf (·.mcp_tool) records mcp)
    {r : UsageRecord} (hr : r ∈ records) :
    (r.mcp_tool.bind (fun ns_tool => some (mcp_row_name ns_tool)) = none ∧
        r.model_group.bind (group_row_name mcp) = shown_name r) ∨
      r.model_group.bind (group_row_name mcp) = none ∧
        r.mcp_tool.bind (fun ns_tool => some (mcp_row_name ns_tool)) = shown_name r := by
  have hcalled := r.tool_called
  unfold is_tool_call at hcalled
  unfold shown_name
  cases htool : r.mcp_tool with
  | none =>
    left
    refine ⟨rfl, ?_⟩
    cases hgroup : r.model_group with
    | none => rfl
    | some name =>
      rw [htool, hgroup, Option.bind_some] at hcalled
      rw [Option.bind_some]
      unfold group_row_name
      cases hmcp : mcp_tool_of name with
      | none => simp [hmcp]
      | some tool =>
        -- only asking for the tools is left
        rw [hmcp, Option.any_some] at hcalled
        have hprotocol : tool ∈ MCP_PROTOCOL_TOOLS := by simpa using hcalled.symm
        simp [hmcp, hprotocol]
  | some ns_tool =>
    right
    refine ⟨?_, rfl⟩
    rw [htool] at hcalled
    cases hgroup : r.model_group with
    | none => rfl
    | some name =>
      rw [hgroup, Option.bind_some] at hcalled
      rw [Option.bind_some]
      unfold group_row_name
      cases hmcp : mcp_tool_of name with
      | none =>
        rw [hmcp] at hcalled
        cases hcalled
      | some tool =>
        rw [hmcp, Option.any_some] at hcalled
        have hmem := (h.keys ns_tool).mpr ⟨r, hr, htool⟩
        have hsome : mcp.isEmpty = false := by
          cases mcp with
          | nil => cases hmem
          | cons => rfl
        simp [hsome, ← hcalled]

/-- The blocks of a row under a name hold the records that are shown under it. -/
theorem row_names {M : Type} [AddCommMonoid M] (read : Dict → M) {fig : UsageRecord → M}
    (hread : ∀ m p records, Tells METRICS m (usage_of p records) → read m = sum_of fig p records)
    {records : List UsageRecord} {row : ActivityRow} (h : RowOf alias_of records row)
    (name : String) :
    sum_of (fun b => read (block_metrics b.2)) (fun b => decide (b.1 = name))
        (day_model_blocks row.breakdown) =
      sum_of fig (fun r => decide (shown_name r = some name)) records := by
  obtain ⟨mcp, hmcp, htools⟩ := h.mcp_servers
  have hgroups := groups_of_row h
  unfold day_model_blocks
  rw [dict_of_part hmcp, sum_of_append, hgroups.named fun m p => hread m p _,
    htools.named fun m p => hread m p _, ← sum_of_or]
  · apply sum_of_congr
    intro r hr
    rcases name_split htools hr with ⟨htool, hgroup⟩ | ⟨hgroup, htool⟩
    · rw [htool, hgroup]
      simp
    · rw [htool, hgroup]
      simp
  · intro r hr hname
    rcases name_split htools hr with ⟨htool, -⟩ | ⟨hgroup, -⟩
    · rw [htool]
      rfl
    · rw [hgroup] at hname
      cases hname

theorem row_names_iff {records : List UsageRecord} {row : ActivityRow}
    (h : RowOf alias_of records row) (name : String) :
    (∃ b ∈ day_model_blocks row.breakdown, b.1 = name) ↔
      ∃ r ∈ records, shown_name r = some name := by
  obtain ⟨mcp, hmcp, htools⟩ := h.mcp_servers
  have hgroups := groups_of_row h
  have hsplit : (∃ b ∈ day_model_blocks row.breakdown, b.1 = name) ↔
      (∃ b ∈ named_blocks (group_row_name mcp) (model_groups row.breakdown), b.1 = name) ∨
        ∃ b ∈ named_blocks (fun ns_tool => some (mcp_row_name ns_tool)) mcp, b.1 = name := by
    unfold day_model_blocks
    rw [dict_of_part hmcp]
    simp only [List.mem_append, or_and_right, exists_or]
  rw [hsplit, hgroups.named_iff, htools.named_iff]
  constructor
  · rintro (⟨r, hr, hname⟩ | ⟨r, hr, hname⟩)
    · rcases name_split htools hr with ⟨-, hgroup⟩ | ⟨hgroup, -⟩
      · exact ⟨r, hr, hgroup.symm.trans hname⟩
      · rw [hgroup] at hname
        cases hname
    · rcases name_split htools hr with ⟨htool, -⟩ | ⟨-, htool⟩
      · rw [htool] at hname
        cases hname
      · exact ⟨r, hr, htool.symm.trans hname⟩
  -- a record is in a model group or is a tool call, never both
  · rintro ⟨r, hr, hname⟩
    rcases name_split htools hr with ⟨-, hgroup⟩ | ⟨-, htool⟩
    · exact .inl ⟨r, hr, hgroup.trans hname⟩
    · exact .inr ⟨r, hr, htool.trans hname⟩

/-! ## All rows -/

/-- The row of some records, all of one day. -/
structure DayRowOf (alias_of : String → Option String) (records : List UsageRecord)
    (row : ActivityRow) : Prop extends RowOf alias_of records row where
  dated : ∃ d, row.date = some d ∧ ∀ r ∈ records, r.date = d
  some_record : records ≠ []

theorem PageOf.day_row {records : List UsageRecord} {results : List ActivityRow} {metadata : Dict}
    (h : PageOf alias_of records results metadata) {row : ActivityRow} (hrow : row ∈ results) :
    DayRowOf alias_of (records.filter fun r => decide (some r.date = row.date)) row := by
  obtain ⟨d, hdate, ⟨r, hr, hd⟩, hrow⟩ := h.row row hrow
  have hfilter : (records.filter fun r => decide (some r.date = row.date)) =
      records.filter (·.date = d) := by
    apply List.filter_congr
    intro r _
    rw [hdate]
    simp
  rw [hfilter]
  refine ⟨hrow, ⟨d, hdate, fun r hr => ?_⟩, ?_⟩
  · simpa using (List.mem_filter.mp hr).2
  · exact List.ne_nil_of_mem (List.mem_filter.mpr ⟨hr, decide_eq_true hd⟩)

/-- What the rows of a page add up to. -/
theorem page_sum {M : Type} [AddCommMonoid M] {g : ActivityRow → M} {fig : UsageRecord → M}
    {q : UsageRecord → Bool}
    (hg : ∀ records row, DayRowOf alias_of records row → g row = sum_of fig q records)
    {records : List UsageRecord} {results : List ActivityRow} {metadata : Dict}
    (h : PageOf alias_of records results metadata) :
    (results.map g).sum = sum_of fig q records := by
  have hrows : results.map g = (results.map (·.date)).map fun date =>
      sum_of fig (fun r => decide (some (some r.date) = some date)) (records.filter q) := by
    rw [List.map_map]
    apply List.map_congr_left
    intro row hrow
    rw [hg _ _ (h.day_row hrow), sum_of_filter, Function.comp_apply, sum_of_filter]
    apply sum_of_congr
    intro r _
    simp [Bool.and_comm]
  rw [hrows]
  refine (sum_of_keys h.one_row (records.filter q)).trans ?_
  rw [sum_of_filter]
  apply sum_of_congr
  intro r hr
  have hday := h.all_days r hr
  rw [Option.any_some]
  simp [hday]

/-- What the rows of all pages add up to. -/
theorem window_sum {M : Type} [AddCommMonoid M] {g : ActivityRow → M} {fig : UsageRecord → M}
    {q : UsageRecord → Bool}
    (hg : ∀ records row, DayRowOf alias_of records row → g row = sum_of fig q records)
    {cut : List (List UsageRecord)} {pages : List (List ActivityRow × Dict)}
    (h : List.Forall₂ (Page alias_of) cut pages) :
    ((rows_of pages).map g).sum = sum_of fig q cut.flatten := by
  induction h with
  | nil => rfl
  | @cons records page cut pages hpage _ ih =>
    have hrows : rows_of (page :: pages) = page.1 ++ rows_of pages := rfl
    rw [hrows, List.map_append, List.sum_append, ih, page_sum hg hpage, List.flatten_cons,
      sum_of_append]

/-- What is in the rows of all pages. -/
theorem window_iff {P : ActivityRow → Prop} {Q : UsageRecord → Prop}
    (hrow : ∀ records row, DayRowOf alias_of records row → (P row ↔ ∃ r ∈ records, Q r))
    {cut : List (List UsageRecord)} {pages : List (List ActivityRow × Dict)}
    (h : List.Forall₂ (Page alias_of) cut pages) :
    (∃ row ∈ rows_of pages, P row) ↔ ∃ r ∈ cut.flatten, Q r := by
  induction h with
  | nil => simp [rows_of]
  | @cons records page cut pages hpage _ ih =>
    have hrows : rows_of (page :: pages) = page.1 ++ rows_of pages := rfl
    have hhead : (∃ row ∈ page.1, P row) ↔ ∃ r ∈ records, Q r := by
      constructor
      · rintro ⟨row, hmem, hp⟩
        obtain ⟨r, hr, hq⟩ := (hrow _ _ (hpage.day_row hmem)).mp hp
        exact ⟨r, (List.mem_filter.mp hr).1, hq⟩
      · rintro ⟨r, hr, hq⟩
        obtain ⟨row, hmem, hdate⟩ := List.mem_map.mp (hpage.all_days r hr)
        refine ⟨row, hmem, (hrow _ _ (hpage.day_row hmem)).mpr ⟨r, ?_, hq⟩⟩
        exact List.mem_filter.mpr ⟨hr, decide_eq_true hdate.symm⟩
    rw [hrows, List.flatten_cons]
    simp only [List.mem_append, or_and_right, exists_or]
    rw [hhead, ih]

/-- Every row of the window is the row of some records of a day. -/
theorem window_row {cut : List (List UsageRecord)} {pages : List (List ActivityRow × Dict)}
    (h : List.Forall₂ (Page alias_of) cut pages) {row : ActivityRow} (hrow : row ∈ rows_of pages) :
    ∃ records, DayRowOf alias_of records row := by
  induction h with
  | nil => cases hrow
  | cons hpage _ ih =>
    rcases List.mem_append.mp hrow with hrow | hrow
    · exact ⟨_, hpage.day_row hrow⟩
    · exact ih hrow

/-! ## Folds that may raise -/

/-- A fold of which no step raises. -/
theorem foldlM_ok {α β ε : Type} {f : β → α → Except ε β} {g : β → α → β} {items : List α}
    (h : ∀ b, ∀ a ∈ items, f b a = .ok (g b a)) (b : β) :
    items.foldlM f b = .ok (items.foldl g b) := by
  induction items generalizing b with
  | nil => rfl
  | cons a items ih =>
    rw [List.foldlM_cons, h b a List.mem_cons_self]
    exact ih (fun b a' ha' => h b a' (List.mem_cons_of_mem _ ha')) (g b a)

/-! ## Models -/

/-- The blocks of a row with their figures. -/
def row_models (py_float : String → Option Rat) (row : ActivityRow) : List (String × ModelFigures) :=
  (day_model_blocks row.breakdown).map fun b => (b.1, model_block_figures py_float (block_metrics b.2))

theorem BlocksOf.named_ok {key : UsageRecord → Option String} {records : List UsageRecord}
    {blocks : Dict} (h : BlocksOf key records blocks) {row_name : String → Option String}
    {b : String × Dict} (hb : b ∈ named_blocks row_name blocks) :
    or_empty (b.2.lookup "metrics") = .ok (block_metrics b.2) := by
  obtain ⟨block, hblock, hsome⟩ := List.mem_filterMap.mp hb
  obtain ⟨fields, hobj, hok, -⟩ := h.read_eq hblock
  rw [hobj] at hsome
  obtain ⟨shown, -, rfl⟩ := Option.map_eq_some_iff.mp hsome
  exact hok

theorem row_blocks_ok {records : List UsageRecord} {row : ActivityRow}
    (h : RowOf alias_of records row) {b : String × Dict} (hb : b ∈ day_model_blocks row.breakdown) :
    or_empty (b.2.lookup "metrics") = .ok (block_metrics b.2) := by
  obtain ⟨mcp, hmcp, htools⟩ := h.mcp_servers
  unfold day_model_blocks at hb
  rw [dict_of_part hmcp] at hb
  rcases List.mem_append.mp hb with hb | hb
  · exact (groups_of_row h).named_ok hb
  · exact htools.named_ok hb

theorem accumulate_models_ok {records : List UsageRecord} {row : ActivityRow}
    (h : RowOf alias_of records row) (acc : List (String × ModelFigures)) :
    accumulate_day_models py_float acc row.breakdown =
      .ok ((row_models py_float row).foldl (Groups.add (·.1) 0 fun a b => a + b.2) acc) := by
  unfold accumulate_day_models row_models
  rw [List.foldl_map]
  apply foldlM_ok
  intro acc b hb
  rw [row_blocks_ok h hb]
  rfl

section
variable {cut : List (List UsageRecord)} {pages : List (List ActivityRow × Dict)}
  (h : List.Forall₂ (Page alias_of) cut pages)

include h

/-- The models of a window: one dictionary of sums. -/
theorem window_models_ok :
    (rows_of pages).foldlM (fun acc day => accumulate_day_models py_float acc day.breakdown) [] =
      .ok (Groups.group (·.1) 0 (fun a b => a + b.2) ((rows_of pages).map (row_models py_float)).flatten) := by
  unfold Groups.group
  rw [List.foldl_flatten, List.foldl_map]
  apply foldlM_ok
  intro acc row hrow
  obtain ⟨records, hday⟩ := window_row h hrow
  exact accumulate_models_ok hday.toRowOf acc

/-- Every record with a name is in the figures of this name. -/
theorem window_models (name : String) :
    (Groups.group (·.1) 0 (fun a b => a + b.2)
        ((rows_of pages).map (row_models py_float)).flatten).lookup name =
      if ∃ r ∈ cut.flatten, shown_name r = some name then
        some (usage_of (fun r => decide (shown_name r = some name)) cut.flatten).ofModel
      else none := by
  -- the figures under a name, summed over the rows of every page
  have hsum : sum_of (·.2) (fun b => decide (b.1 = name))
      ((rows_of pages).map (row_models py_float)).flatten =
        (usage_of (fun r => decide (shown_name r = some name)) cut.flatten).ofModel := by
    rw [sum_of_flatten, List.map_map, model_usage]
    refine window_sum (fun records row hrow => ?_) h
    rw [← row_names (model_block_figures py_float) _ hrow.toRowOf name]
    · unfold row_models
      rw [Function.comp_apply]
      unfold sum_of
      rw [List.filter_map, List.map_map]
      rfl
    · intro m p records htold
      rw [model_of_told htold, model_usage]
  -- the names that occur at all
  have hiff : (∃ b ∈ ((rows_of pages).map (row_models py_float)).flatten, b.1 = name) ↔
      ∃ r ∈ cut.flatten, shown_name r = some name := by
    rw [← window_iff (fun records row hrow => row_names_iff hrow.toRowOf name) h]
    constructor
    · rintro ⟨b, hb, hname⟩
      obtain ⟨part, hpart, hb⟩ := List.mem_flatten.mp hb
      obtain ⟨row, hrow, rfl⟩ := List.mem_map.mp hpart
      obtain ⟨b', hb', rfl⟩ := List.mem_map.mp hb
      exact ⟨row, hrow, b', hb', hname⟩
    · rintro ⟨row, hrow, b, hb, hname⟩
      exact ⟨_, List.mem_flatten.mpr ⟨_, List.mem_map.mpr ⟨row, hrow, rfl⟩,
        List.mem_map.mpr ⟨b, hb, rfl⟩⟩, hname⟩
  rw [lookup_tally, hsum]
  exact if_congr hiff rfl rfl

end

/-! ## Keys -/

/-- The blocks of the keys of a row: metrics and metadata. -/
def row_keys (row : ActivityRow) : List (String × Dict × Dict) :=
  (named_blocks some (dict_of (field row.breakdown "api_keys"))).map fun b =>
    (b.1, block_metrics b.2, dict_of (field b.2 "metadata"))

/-- The blocks of one key: the alias that all of them know, and what they add up to. -/
theorem fold_key_blocks {known : Json} (items : List (String × Dict × Dict))
    (halias : ∀ b ∈ items, field b.2.2 "key_alias" = known) :
    items.foldl (fun acc b => add_key_block py_float acc b.2) ⟨.null, 0, 0⟩ =
      ⟨if items = [] then .null else known,
        (items.map fun b => int_num py_float (b.2.1.lookup "api_requests")).sum,
        (items.map fun b => num py_float (b.2.1.lookup "spend")).sum⟩ := by
  induction items using List.reverseRecOn with
  | nil => rfl
  | append_singleton items b ih =>
    have hb := halias b (List.mem_append_right _ List.mem_cons_self)
    rw [List.foldl_append, ih fun b hb => halias b (List.mem_append_left _ hb)]
    simp only [List.foldl_cons, List.foldl_nil, add_key_block, List.map_append, List.sum_append,
      List.map_cons, List.map_nil, List.sum_cons, List.sum_nil, add_zero, hb]
    congr 1
    rw [if_neg (by simp : items ++ [b] ≠ [])]
    by_cases hnil : items = []
    · rw [if_pos hnil]
      rfl
    · rw [if_neg hnil]
      cases known with
      | null => rfl
      | bool | num | str | arr | obj => rfl

theorem row_keys_alias {records : List UsageRecord} {row : ActivityRow}
    (h : RowOf alias_of records row) {b : String × Dict × Dict} (hb : b ∈ row_keys row) :
    field b.2.2 "key_alias" = alias_json (alias_of b.1) := by
  obtain ⟨blocks, hpart, hkeys, hknow⟩ := h.api_keys
  obtain ⟨b', hb', rfl⟩ := List.mem_map.mp hb
  rw [dict_of_part hpart] at hb'
  obtain ⟨block, hblock, hsome⟩ := List.mem_filterMap.mp hb'
  obtain ⟨fields, hobj, -⟩ := hkeys.read_eq hblock
  obtain ⟨kmeta, hmeta, halias⟩ := hknow block hblock fields hobj
  rw [hobj] at hsome
  obtain ⟨shown, hshown, rfl⟩ := Option.map_eq_some_iff.mp hsome
  cases hshown
  have hfield : dict_of (field fields "metadata") = kmeta := by
    unfold field
    rw [hmeta]
    rfl
  show field (dict_of (field fields "metadata")) "key_alias" = _
  rw [hfield, halias]

theorem row_keys_iff {records : List UsageRecord} {row : ActivityRow}
    (h : RowOf alias_of records row) (k : String) :
    (∃ b ∈ row_keys row, b.1 = k) ↔ ∃ r ∈ records, r.api_key = k := by
  obtain ⟨blocks, hpart, hkeys, -⟩ := h.api_keys
  have hnamed := hkeys.named_iff some k
  unfold row_keys
  rw [dict_of_part hpart]
  constructor
  · rintro ⟨b, hb, hk⟩
    obtain ⟨b', hb', rfl⟩ := List.mem_map.mp hb
    obtain ⟨r, hr, hkey⟩ := hnamed.mp ⟨b', hb', hk⟩
    exact ⟨r, hr, Option.some.inj hkey⟩
  · rintro ⟨r, hr, hk⟩
    obtain ⟨b, hb, hkey⟩ := hnamed.mpr ⟨r, hr, by rw [hk]; rfl⟩
    exact ⟨_, List.mem_map.mpr ⟨b, hb, rfl⟩, hkey⟩

theorem row_keys_sum {M : Type} [AddCommMonoid M] {read : Dict → M} {fig : UsageRecord → M}
    (hread : ∀ m p records, Tells METRICS m (usage_of p records) → read m = sum_of fig p records)
    {records : List UsageRecord} {row : ActivityRow} (h : RowOf alias_of records row) (k : String) :
    sum_of (fun b => read b.2.1) (fun b => decide (b.1 = k)) (row_keys row) =
      sum_of fig (fun r => decide (r.api_key = k)) records := by
  obtain ⟨blocks, hpart, hkeys, -⟩ := h.api_keys
  have hnamed := hkeys.named (fun m p => hread m p records) some k
  unfold row_keys
  rw [dict_of_part hpart]
  refine Eq.trans ?_ (hnamed.trans (sum_of_congr fun r _ => ?_))
  · unfold sum_of
    rw [List.filter_map, List.map_map]
    rfl
  · simp

theorem accumulate_keys_ok {records : List UsageRecord} {row : ActivityRow}
    (h : RowOf alias_of records row) (acc : List (String × KeyFigures)) :
    accumulate_day_keys py_float acc row.breakdown =
      .ok ((row_keys row).foldl (Groups.add (·.1) ⟨.null, 0, 0⟩ fun a b =>
        add_key_block py_float a b.2) acc) := by
  obtain ⟨blocks, hpart, hkeys, hknow⟩ := h.api_keys
  unfold accumulate_day_keys row_keys
  rw [List.foldl_map, dict_of_part hpart]
  apply foldlM_ok
  intro acc b hb
  rw [hkeys.named_ok hb]
  obtain ⟨block, hblock, hsome⟩ := List.mem_filterMap.mp hb
  obtain ⟨fields, hobj, -⟩ := hkeys.read_eq hblock
  obtain ⟨kmeta, hmeta, -⟩ := hknow block hblock fields hobj
  rw [hobj] at hsome
  obtain ⟨shown, -, rfl⟩ := Option.map_eq_some_iff.mp hsome
  have hfield : dict_of (field fields "metadata") = kmeta := by
    unfold field
    rw [hmeta]
    rfl
  have hok : or_empty (fields.lookup "metadata") = .ok (dict_of (field fields "metadata")) := by
    rw [hfield, hmeta]
    rfl
  rw [hok]
  rfl

section
variable {cut : List (List UsageRecord)} {pages : List (List ActivityRow × Dict)}
  (h : List.Forall₂ (Page alias_of) cut pages)

include h

theorem window_keys_ok :
    (rows_of pages).foldlM (fun acc day => accumulate_day_keys py_float acc day.breakdown) [] =
      .ok (Groups.group (·.1) ⟨.null, 0, 0⟩ (fun a b => add_key_block py_float a b.2)
        ((rows_of pages).map row_keys).flatten) := by
  unfold Groups.group
  rw [List.foldl_flatten, List.foldl_map]
  apply foldlM_ok
  intro acc row hrow
  obtain ⟨records, hday⟩ := window_row h hrow
  exact accumulate_keys_ok hday.toRowOf acc

/-- What the blocks of a key add up to. -/
theorem window_keys_sum {M : Type} [AddCommMonoid M] (read : Dict → M) (fig : UsageRecord → M)
    (hread : ∀ m p records, Tells METRICS m (usage_of p records) → read m = sum_of fig p records)
    (k : String) :
    sum_of (fun b => read b.2.1) (fun b => decide (b.1 = k)) ((rows_of pages).map row_keys).flatten =
      sum_of fig (fun r => decide (r.api_key = k)) cut.flatten := by
  rw [sum_of_flatten, List.map_map]
  exact window_sum (fun records row hrow => row_keys_sum hread hrow.toRowOf k) h

/-- Every record is in the entry of its key. -/
theorem window_keys (k : String) :
    (Groups.group (·.1) ⟨.null, 0, 0⟩ (fun a b => add_key_block py_float a b.2)
        ((rows_of pages).map row_keys).flatten).lookup k =
      if ∃ r ∈ cut.flatten, r.api_key = k then
        some ⟨alias_json (alias_of k),
          (usage_of (fun r => decide (r.api_key = k)) cut.flatten).api_requests,
          (usage_of (fun r => decide (r.api_key = k)) cut.flatten).spend⟩
      else none := by
  have hrequests := window_keys_sum h (fun m => int_num py_float (m.lookup "api_requests"))
    (fun r => r.metrics.api_requests) (fun m p records htold => by
      rw [htold.get_int (·.api_requests) (by simp [METRICS])]
      exact map_sum_of Metrics.api_requests rfl (fun _ _ => rfl) p records) k
  have hspend := window_keys_sum h (fun m => num py_float (m.lookup "spend"))
    (fun r => r.metrics.spend) (fun m p records htold => by
      rw [htold.get (·.spend) (by simp [METRICS])]
      exact map_sum_of Metrics.spend rfl (fun _ _ => rfl) p records) k
  have hiff : (∃ b ∈ ((rows_of pages).map row_keys).flatten, b.1 = k) ↔
      ∃ r ∈ cut.flatten, r.api_key = k := by
    rw [← window_iff (fun records row hrow => row_keys_iff hrow.toRowOf k) h]
    simp only [List.mem_flatten, List.mem_map]
    constructor
    · rintro ⟨b, ⟨_, ⟨row, hrow, rfl⟩, hb⟩, hk⟩
      exact ⟨row, hrow, b, hb, hk⟩
    · rintro ⟨row, hrow, b, hb, hk⟩
      exact ⟨b, ⟨_, ⟨row, hrow, rfl⟩, hb⟩, hk⟩
  -- every row of a key has the same alias, so whichever is taken is right
  have halias : ∀ b ∈ Groups.itemsOf (·.1) ((rows_of pages).map row_keys).flatten k,
      field b.2.2 "key_alias" = alias_json (alias_of k) := by
    intro b hb
    obtain ⟨hmem, hk⟩ := List.mem_filter.mp hb
    obtain ⟨part, hpart, hb⟩ := List.mem_flatten.mp hmem
    obtain ⟨row, hrow, rfl⟩ := List.mem_map.mp hpart
    obtain ⟨records, hday⟩ := window_row h hrow
    have hkey : b.1 = k := of_decide_eq_true hk
    rw [row_keys_alias hday.toRowOf hb, hkey]
  -- a key without records has no row
  have hnil : Groups.itemsOf (·.1) ((rows_of pages).map row_keys).flatten k = [] ↔
      ¬ ∃ r ∈ cut.flatten, r.api_key = k := by
    rw [← hiff]
    unfold Groups.itemsOf
    rw [List.filter_eq_nil_iff]
    simp only [decide_eq_true_eq, not_exists, not_and]
  rw [Groups.lookup_group, fold_key_blocks _ halias]
  by_cases hsome : ∃ r ∈ cut.flatten, r.api_key = k
  · have hne := fun hn => hnil.mp hn hsome
    rw [if_neg hne, if_neg hne, if_pos hsome]
    have hr : (usage_of (fun r => decide (r.api_key = k)) cut.flatten).api_requests =
        sum_of (fun r => r.metrics.api_requests) (fun r => decide (r.api_key = k)) cut.flatten :=
      map_sum_of Metrics.api_requests rfl (fun _ _ => rfl) _ _
    have hs : (usage_of (fun r => decide (r.api_key = k)) cut.flatten).spend =
        sum_of (fun r => r.metrics.spend) (fun r => decide (r.api_key = k)) cut.flatten :=
      map_sum_of Metrics.spend rfl (fun _ _ => rfl) _ _
    rw [hr, hs, ← hrequests, ← hspend]
    rfl
  · rw [if_pos (hnil.mpr hsome), if_neg hsome]

end

/-! ## The series -/

/-- One row adds its date to the dates, if it is a new one. -/
theorem accumulate_dates (acc : List DayEntry) {row : ResultRow} (hdate : row.date.isSome = true) :
    (accumulate_day_series py_float acc row).map (·.date) =
      if row.date ∈ acc.map (·.date) then acc.map (·.date) else acc.map (·.date) ++ [row.date] := by
  have hsame : (day_series_entry py_float row).date = row.date := rfl
  have hany : acc.any (·.date = row.date) = decide (row.date ∈ acc.map (·.date)) := by
    rw [Bool.eq_iff_iff]
    simp
  unfold accumulate_day_series
  dsimp only
  rw [hsame, hdate, Bool.true_and, hany]
  by_cases hmem : row.date ∈ acc.map (·.date)
  · rw [if_pos (decide_eq_true hmem), if_pos hmem, List.map_map]
    apply List.map_congr_left
    intro e _
    show (if e.date = row.date then _ else e).date = e.date
    split
    · rfl
    · rfl
  · rw [if_neg (by simpa using hmem), if_neg hmem, List.map_append]
    rfl

/-- Rows with dates give one entry for each of their dates. -/
theorem series_dates {rows : List ResultRow} (hdated : ∀ row ∈ rows, row.date.isSome = true) :
    ((aggregate_series py_float rows).map (·.date)).Nodup ∧
      ∀ e ∈ aggregate_series py_float rows, e.date.isSome = true := by
  -- the fold adds a date only where it is new; the sort permutes
  have hfold : ((rows.foldl (accumulate_day_series py_float) []).map (·.date)).Nodup ∧
      ∀ date ∈ (rows.foldl (accumulate_day_series py_float) []).map (·.date), date.isSome = true := by
    induction rows using List.reverseRecOn with
    | nil => exact ⟨List.nodup_nil, by simp⟩
    | append_singleton rows row ih =>
      obtain ⟨hnodup, hsome⟩ := ih fun row hrow => hdated row (List.mem_append_left _ hrow)
      have hrow := hdated row (List.mem_append_right _ List.mem_cons_self)
      rw [List.foldl_append, List.foldl_cons, List.foldl_nil, accumulate_dates _ hrow]
      split
      · exact ⟨hnodup, hsome⟩
      · next hnew =>
        constructor
        · rw [List.nodup_append]
          refine ⟨hnodup, by simp, ?_⟩
          intro date hmem date' hmem' heq
          rw [heq, List.mem_singleton.mp hmem'] at hmem
          exact hnew hmem
        · intro date hmem
          rcases List.mem_append.mp hmem with hmem | hmem
          · exact hsome date hmem
          · rw [List.mem_singleton.mp hmem]
            exact hrow
  have hperm := List.perm_insertionSort (fun a b : DayEntry => a.date.getD "" ≤ b.date.getD "")
    (rows.foldl (accumulate_day_series py_float) [])
  constructor
  · exact ((hperm.map (·.date)).nodup_iff).mpr hfold.1
  · intro e he
    exact hfold.2 _ (List.mem_map.mpr ⟨e, hperm.mem_iff.mp he, rfl⟩)

theorem series_ordered {rows : List ResultRow} (hdated : ∀ row ∈ rows, row.date.isSome = true) :
    (aggregate_series py_float rows).Pairwise fun a b => a.date.getD "" < b.date.getD "" := by
  obtain ⟨hnodup, hsome⟩ := @series_dates py_float _ hdated
  have hne : (aggregate_series py_float rows).Pairwise fun a b => a.date ≠ b.date :=
    List.pairwise_map.mp hnodup
  refine (List.Pairwise.and (aggregate_sorted rows) hne).imp_of_mem ?_
  intro a b ha hb hab
  obtain ⟨d, hd⟩ := Option.isSome_iff_exists.mp (hsome a ha)
  obtain ⟨d', hd'⟩ := Option.isSome_iff_exists.mp (hsome b hb)
  obtain ⟨hle, hne⟩ := hab
  rw [hd, hd'] at hle hne ⊢
  exact lt_of_le_of_ne hle fun heq => hne (congrArg some heq)

section
variable {cut : List (List UsageRecord)} {pages : List (List ActivityRow × Dict)}
  (h : List.Forall₂ (Page alias_of) cut pages)

include h

theorem window_dated : ∀ row ∈ (rows_of pages).map (·.toResultRow), row.date.isSome = true := by
  intro day hday
  obtain ⟨row, hrow, rfl⟩ := List.mem_map.mp hday
  obtain ⟨records, hrow⟩ := window_row h hrow
  obtain ⟨d, hdate, -⟩ := hrow.dated
  rw [hdate]
  rfl

/-- Every record is in the entry of its day. -/
theorem window_series (e : DayEntry) :
    e ∈ aggregate_series py_float ((rows_of pages).map (·.toResultRow)) ↔
      ∃ d, e.date = some d ∧ (∃ r ∈ cut.flatten, r.date = d) ∧
        e.figures = (usage_of (fun r => decide (r.date = d)) cut.flatten).day := by
  -- the rows of a date hold the records of this day
  have htotal (d : String) : total py_float (rowsOn ((rows_of pages).map (·.toResultRow)) d) =
      (usage_of (fun r => decide (r.date = d)) cut.flatten).day := by
    have hover : total py_float (rowsOn ((rows_of pages).map (·.toResultRow)) d) =
        sum_of (fun row => (day_series_entry py_float row).figures) (fun row => decide (row.date = some d))
          ((rows_of pages).map (·.toResultRow)) := rfl
    rw [hover, sum_of_eq_sum, List.map_map, day_usage]
    refine window_sum (fun records row hrow => ?_) h
    obtain ⟨d', hdate, hall⟩ := hrow.dated
    have hfigures : (day_series_entry py_float row.toResultRow).figures =
        sum_of (fun r => r.metrics.day) (fun _ => true) records := by
      rw [day_of_told hrow.metrics, total_eq_usage, day_usage]
    show (if decide (row.date = some d) = true then
      (day_series_entry py_float row.toResultRow).figures else 0) = _
    rw [hdate, hfigures]
    by_cases hd : d' = d
    · rw [if_pos (by simp [hd])]
      apply sum_of_congr
      intro r hr
      rw [hall r hr, hd, decide_eq_true rfl]
    · rw [if_neg (by simp [hd])]
      symm
      apply sum_of_none
      intro r hr
      rw [hall r hr]
      exact decide_eq_false hd
  have hrows (d : String) : rowsOn ((rows_of pages).map (·.toResultRow)) d ≠ [] ↔
      ∃ r ∈ cut.flatten, r.date = d := by
    have hrow (records : List UsageRecord) (row : ActivityRow) (hrow : DayRowOf alias_of records row) :
        row.date = some d ↔ ∃ r ∈ records, r.date = d := by
      obtain ⟨d', hdate, hall⟩ := hrow.dated
      obtain ⟨r, hr⟩ := List.exists_mem_of_ne_nil _ hrow.some_record
      rw [hdate]
      constructor
      · intro hd
        exact ⟨r, hr, (hall r hr).trans (Option.some.inj hd)⟩
      · rintro ⟨r', hr', hd⟩
        rw [← hd, hall r' hr']
    rw [← window_iff hrow h]
    unfold rowsOn
    simp [List.filter_eq_nil_iff]
  constructor
  · intro he
    obtain ⟨d, hd⟩ := Option.isSome_iff_exists.mp ((series_dates (window_dated h)).2 e he)
    obtain ⟨hne, hfigures⟩ := (mem_aggregate_iff _ e hd).mp he
    exact ⟨d, hd, (hrows d).mp hne, hfigures.trans (htotal d)⟩
  · rintro ⟨d, hd, hr, hfigures⟩
    rw [mem_aggregate_iff _ e hd]
    exact ⟨(hrows d).mpr hr, hfigures.trans (htotal d).symm⟩

end

/-! ## Last days -/

/-- The names that are seen on a day. -/
def seen_on (row : ActivityRow) : List (String × String) :=
  match present row.date with
  | some day_date => (day_model_blocks row.breakdown).map fun b => (day_date, b.1)
  | none => []

theorem last_used_eq (data : WindowData) : last_used_from_window data =
    (data.results.map seen_on).flatten.foldl (fun acc s => note_last_used s.1 acc s.2) [] := by
  unfold last_used_from_window
  rw [List.foldl_flatten, List.foldl_map]
  congr 1
  funext acc row
  unfold seen_on
  cases present row.date with
  | none => rfl
  | some day_date => rw [List.foldl_map]

theorem lookup_note (day_date : String) (last_used : List (String × String)) (name name' : String) :
    (note_last_used day_date last_used name).lookup name' =
      if name' = name then some (((last_used.lookup name).map fun d => max d day_date).getD day_date)
      else last_used.lookup name' := by
  unfold note_last_used
  cases hlookup : last_used.lookup name with
  | none => exact Table.lookup_put _ _ _ _
  | some existing =>
    dsimp only
    by_cases hlt : existing < day_date
    · rw [if_pos hlt, Table.lookup_put, Option.map_some, Option.getD_some, max_eq_right hlt.le]
    · rw [if_neg hlt, Option.map_some, Option.getD_some, max_eq_left (not_lt.mp hlt)]
      by_cases hname : name' = name
      · rw [if_pos hname, hname, hlookup]
      · rw [if_neg hname]

/-- The days of a name, and which of them is kept. -/
theorem note_run (seen : List (String × String)) :
    ((seen.foldl (fun acc s => note_last_used s.1 acc s.2) []).map (·.1)).Nodup ∧
      ∀ name, (∀ d, (seen.foldl (fun acc s => note_last_used s.1 acc s.2) []).lookup name = some d →
          (d, name) ∈ seen ∧ ∀ d', (d', name) ∈ seen → d' ≤ d) ∧
        ((seen.foldl (fun acc s => note_last_used s.1 acc s.2) []).lookup name = none →
          ∀ d, (d, name) ∉ seen) := by
  -- on the days in the order in which they are noted
  induction seen using List.reverseRecOn with
  | nil => exact ⟨List.nodup_nil, fun name => ⟨fun d hd => (by cases hd), fun _ d hd => (by cases hd)⟩⟩
  | append_singleton seen s ih =>
    obtain ⟨day, shown⟩ := s
    obtain ⟨hnodup, hspec⟩ := ih
    rw [List.foldl_append, List.foldl_cons, List.foldl_nil]
    generalize hacc : seen.foldl (fun acc s => note_last_used s.1 acc s.2) [] = acc at hnodup hspec
    constructor
    · unfold note_last_used
      split
      · exact Groups.keys_put_nodup hnodup _ _
      · split
        · exact Groups.keys_put_nodup hnodup _ _
        · exact hnodup
    · intro name
      obtain ⟨hlast, hnone⟩ := hspec name
      rw [lookup_note]
      by_cases hname : name = shown
      · subst hname
        rw [if_pos rfl]
        refine ⟨fun d hd => ?_, fun hd => (by cases hd)⟩
        obtain rfl := Option.some.inj hd
        cases hlookup : acc.lookup name with
        | none =>
          rw [Option.map_none, Option.getD_none]
          refine ⟨List.mem_append_right _ List.mem_cons_self, fun d' hd' => ?_⟩
          rcases List.mem_append.mp hd' with hd' | hd'
          · exact absurd hd' (hnone hlookup d')
          · cases List.mem_singleton.mp hd'
            exact le_refl _
        | some existing =>
          obtain ⟨hmem, hmax⟩ := hlast existing hlookup
          rw [Option.map_some, Option.getD_some]
          constructor
          -- the later of the two days is kept
          · rcases max_choice existing day with hmax' | hmax'
            · rw [hmax']
              exact List.mem_append_left _ hmem
            · rw [hmax']
              exact List.mem_append_right _ List.mem_cons_self
          · intro d' hd'
            rcases List.mem_append.mp hd' with hd' | hd'
            · exact (hmax d' hd').trans (le_max_left _ _)
            · cases List.mem_singleton.mp hd'
              exact le_max_right _ _
      · have hother : ∀ d, (d, name) ∈ seen ++ [(day, shown)] ↔ (d, name) ∈ seen := by
          intro d
          simp [hname]
        rw [if_neg hname]
        simp only [hother]
        exact ⟨hlast, hnone⟩

/-- Each name is kept with the greatest of its days. -/
theorem mem_noted_iff (seen : List (String × String)) (name d : String) :
    (name, d) ∈ seen.foldl (fun acc s => note_last_used s.1 acc s.2) [] ↔
      (d, name) ∈ seen ∧ ∀ d', (d', name) ∈ seen → d' ≤ d := by
  obtain ⟨hnodup, hspec⟩ := note_run seen
  obtain ⟨hlast, hnone⟩ := hspec name
  rw [Groups.mem_iff_lookup hnodup]
  constructor
  · exact hlast d
  · rintro ⟨hmem, hmax⟩
    cases hlookup : (seen.foldl (fun acc s => note_last_used s.1 acc s.2) []).lookup name with
    | none => exact absurd hmem (hnone hlookup d)
    | some e =>
      obtain ⟨hmem', hmax'⟩ := hlast e hlookup
      rw [le_antisymm (hmax' d hmem) (hmax e hmem')]

section
variable {cut : List (List UsageRecord)} {pages : List (List ActivityRow × Dict)}
  (h : List.Forall₂ (Page alias_of) cut pages)

include h

theorem window_seen (d name : String) :
    (d, name) ∈ ((rows_of pages).map seen_on).flatten ↔
      ∃ r ∈ cut.flatten, shown_name r = some name ∧ r.date = d ∧ d ≠ "" := by
  have hrow (records : List UsageRecord) (row : ActivityRow) (hrow : DayRowOf alias_of records row) :
      (d, name) ∈ seen_on row ↔ ∃ r ∈ records, shown_name r = some name ∧ r.date = d ∧ d ≠ "" := by
    obtain ⟨d', hdate, hall⟩ := hrow.dated
    unfold seen_on
    rw [hdate]
    -- a row without a day is not noted
    by_cases hempty : d' = ""
    · subst hempty
      constructor
      · intro hmem
        cases hmem
      · rintro ⟨r, hr, -, hd, hne⟩
        exact absurd (hd.symm.trans (hall r hr)) hne
    · have hpresent : present (some d') = some d' := by simp [present, hempty]
      rw [hpresent]
      constructor
      · intro hmem
        obtain ⟨b, hb, heq⟩ := List.mem_map.mp hmem
        cases heq
        obtain ⟨r, hr, hname⟩ := (row_names_iff hrow.toRowOf _).mp ⟨b, hb, rfl⟩
        exact ⟨r, hr, hname, hall r hr, hempty⟩
      · rintro ⟨r, hr, hname, hd, -⟩
        obtain ⟨b, hb, rfl⟩ := (row_names_iff hrow.toRowOf name).mpr ⟨r, hr, hname⟩
        exact List.mem_map.mpr ⟨b, hb, by rw [← hd, hall r hr]⟩
  rw [← window_iff hrow h]
  simp only [List.mem_flatten, List.mem_map]
  constructor
  · rintro ⟨_, ⟨row, hrow, rfl⟩, hmem⟩
    exact ⟨row, hrow, hmem⟩
  · rintro ⟨row, hrow, hmem⟩
    exact ⟨_, ⟨row, hrow, rfl⟩, hmem⟩

theorem window_last_days (metadata : Dict) :
    LastDays cut.flatten (last_used_from_window ⟨rows_of pages, metadata⟩) := by
  rw [last_used_eq]
  refine ⟨(note_run _).1, fun name d => ?_⟩
  rw [mem_noted_iff]
  simp only [window_seen h]
  constructor
  · rintro ⟨hd, hmax⟩
    refine ⟨hd, fun r hr hname => ?_⟩
    by_cases hempty : r.date = ""
    · rw [hempty, ← not_lt, String.lt_iff_toList_lt]
      exact List.not_lt_nil _
    · exact hmax r.date ⟨r, hr, hname, rfl, hempty⟩
  · rintro ⟨hd, hmax⟩
    refine ⟨hd, ?_⟩
    rintro d' ⟨r, hr, hname, rfl, -⟩
    exact hmax r hr hname

/-! ## The window -/

/-- Every record of the pages is counted once. -/
theorem window_counts {metadata : Dict} (htold : Tells TOTALS metadata (total_of cut.flatten)) :
    ∃ w, aggregate_window py_float ⟨rows_of pages, metadata⟩ = .ok w ∧
      CountsOnce alias_of cut.flatten w := by
  unfold aggregate_window
  dsimp only
  -- the window is built; its totals are those that LiteLLM tells
  rw [window_models_ok h, window_keys_ok h]
  refine ⟨_, rfl, ?_, series_ordered (window_dated h), window_series h, Groups.group_nodup _, ?_,
    Groups.group_nodup _, ?_⟩
  · show Metrics.mk _ _ _ _ _ _ _ = total_of cut.flatten
    rw [Metrics.mk.injEq]
    exact ⟨htold.get (·.spend) (by simp [TOTALS]), htold.get_int (·.api_requests) (by simp [TOTALS]),
      htold.get_int (·.total_tokens) (by simp [TOTALS]),
      htold.get_int (·.prompt_tokens) (by simp [TOTALS]),
      htold.get_int (·.completion_tokens) (by simp [TOTALS]),
      htold.get_int (·.failed_requests) (by simp [TOTALS]),
      htold.get_int (·.cache_read_input_tokens) (by simp [TOTALS])⟩
  · intro name figures
    rw [Groups.mem_iff_lookup (Groups.group_nodup _), window_models h]
    by_cases hsome : ∃ r ∈ cut.flatten, shown_name r = some name
    · rw [if_pos hsome, Option.some_inj, eq_comm]
      exact (and_iff_right hsome).symm
    · rw [if_neg hsome]
      exact ⟨fun hn => (by cases hn), fun hs => absurd hs.1 hsome⟩
  · intro k figures
    rw [Groups.mem_iff_lookup (Groups.group_nodup _), window_keys h]
    by_cases hsome : ∃ r ∈ cut.flatten, r.api_key = k
    · rw [if_pos hsome, Option.some_inj, eq_comm]
      exact (and_iff_right hsome).symm
    · rw [if_neg hsome]
      exact ⟨fun hn => (by cases hn), fun hs => absurd hs.1 hsome⟩

end

/-! ## Two cuts -/

/-- The order of the records does not matter. -/
theorem CountsOnce.perm {records records' : List UsageRecord} {w : WindowAggregate}
    (hperm : records.Perm records') (h : CountsOnce alias_of records w) :
    CountsOnce alias_of records' w := by
  have htotal : total_of records = total_of records' := by
    unfold total_of
    exact (hperm.map _).sum_eq
  have husage : ∀ p, usage_of p records = usage_of p records' := sum_of_perm hperm
  have hmem : ∀ P : UsageRecord → Prop, (∃ r ∈ records, P r) ↔ ∃ r ∈ records', P r := by
    intro P
    simp only [hperm.mem_iff]
  refine ⟨h.totals.trans htotal, h.ordered, fun e => ?_, h.one_model, fun name figures => ?_, h.one_key,
    fun k figures => ?_⟩
  · rw [h.series e]
    simp only [hmem, husage]
  · rw [h.models, hmem, husage]
  · rw [h.keys, hmem, husage]

theorem LastDays.perm {records records' : List UsageRecord} {last_used : List (String × String)}
    (hperm : records.Perm records') (h : LastDays records last_used) :
    LastDays records' last_used := by
  refine ⟨h.one_day, fun name d => ?_⟩
  rw [h.days]
  simp only [hperm.mem_iff]

/-- Two windows of the same figures. -/
structure SameWindow (w w' : WindowAggregate) : Prop where
  totals : w.totals = w'.totals
  series : w.series = w'.series
  models : w.models.Perm w'.models
  keys : w.keys.Perm w'.keys

/-- Only one window counts every record once. -/
theorem CountsOnce.unique {records : List UsageRecord} {w w' : WindowAggregate}
    (h : CountsOnce alias_of records w) (h' : CountsOnce alias_of records w') : SameWindow w w' := by
  have hnodup {series : List DayEntry}
      (hordered : series.Pairwise fun a b => a.date.getD "" < b.date.getD "") : series.Nodup := by
    refine hordered.imp ?_
    intro a b hlt heq
    rw [heq] at hlt
    exact lt_irrefl _ hlt
  have hperm : w.series.Perm w'.series := by
    rw [List.perm_ext_iff_of_nodup (hnodup h.ordered) (hnodup h'.ordered)]
    intro e
    rw [h.series, h'.series]
  refine ⟨h.totals.trans h'.totals.symm, ?_, ?_, ?_⟩
  · refine hperm.eq_of_pairwise ?_ h.ordered h'.ordered
    intro a b _ _ hlt hgt
    exact absurd hgt (lt_asymm hlt)
  · rw [List.perm_ext_iff_of_nodup h.one_model.of_map h'.one_model.of_map]
    rintro ⟨name, figures⟩
    rw [h.models, h'.models]
  · rw [List.perm_ext_iff_of_nodup h.one_key.of_map h'.one_key.of_map]
    rintro ⟨k, figures⟩
    rw [h.keys, h'.keys]

theorem LastDays.unique {records : List UsageRecord} {last_used last_used' : List (String × String)}
    (h : LastDays records last_used) (h' : LastDays records last_used') :
    last_used.Perm last_used' := by
  rw [List.perm_ext_iff_of_nodup h.one_day.of_map h'.one_day.of_map]
  rintro ⟨name, d⟩
  rw [h.days, h'.days]

/-- What comes of some pages: a window that counts every record once. -/
theorem pages_counted {respond : Nat → ActivityAnswer} {cut : List (List UsageRecord)}
    (hserves : ServesPages alias_of respond 1 cut) (hsome : 1 ≤ cut.length)
    (hfew : cut.length ≤ DAILY_ACTIVITY_MAX_PAGES) (py_float : String → Option Rat) :
    ∃ data w, user_daily_activity respond = .ok data ∧ aggregate_window py_float data = .ok w ∧
      CountsOnce alias_of cut.flatten w ∧ LastDays cut.flatten (last_used_from_window data) := by
  cases cut with
  | nil => simp at hsome
  | cons records rest =>
    obtain ⟨pages, last, hpages, hfetch⟩ := fetch_served hserves hfew [] [] []
    obtain ⟨w, hw, hcounts⟩ := @window_counts _ py_float _ _ hpages _ (merged_told hpages last)
    exact ⟨_, w, hfetch, hw, hcounts, window_last_days hpages _⟩

/-- The usage page shows the same figures for every cut of the records into at
    most 500 pages and every order of the rows, as for a single page, and every
    record is counted once. -/
theorem paging_indifferent (alias_of : String → Option String) (py_float : String → Option Rat)
    (records : List UsageRecord) (cut : List (List UsageRecord)) (hsome : 1 ≤ cut.length)
    (hfew : cut.length ≤ DAILY_ACTIVITY_MAX_PAGES) (hcut : cut.flatten.Perm records)
    (respond respond' : Nat → ActivityAnswer) (hserves : ServesPages alias_of respond 1 cut)
    (hserves' : ServesPages alias_of respond' 1 [records]) :
    ∃ data w data' w', user_daily_activity respond = .ok data ∧
      aggregate_window py_float data = .ok w ∧ user_daily_activity respond' = .ok data' ∧
      aggregate_window py_float data' = .ok w' ∧ SameWindow w w' ∧
      (last_used_from_window data).Perm (last_used_from_window data') ∧
      CountsOnce alias_of records w ∧ LastDays records (last_used_from_window data) := by
  obtain ⟨data, w, hdata, hw, hcounts, hlast⟩ := pages_counted hserves hsome hfew py_float
  obtain ⟨data', w', hdata', hw', hcounts', hlast'⟩ :=
    pages_counted hserves' (le_refl 1) (by simp [DAILY_ACTIVITY_MAX_PAGES]) py_float
  have hsingle : [records].flatten.Perm records := by simp
  exact ⟨data, w, data', w', hdata, hw, hdata', hw',
    (hcounts.perm hcut).unique (hcounts'.perm hsingle),
    (hlast.perm hcut).unique (hlast'.perm hsingle), hcounts.perm hcut, hlast.perm hcut⟩

/-! ## Every cut can be served -/

def rendered_metrics (names : List (String × (Metrics → Rat))) (usage : Metrics) : Dict :=
  names.map fun f => (f.1, .num (f.2 usage))

/-- A part of a breakdown, with what else the blocks hold. -/
def rendered_blocks (key : UsageRecord → Option String) (extra : String → Dict)
    (records : List UsageRecord) : Dict :=
  (records.filterMap key).dedup.map fun k =>
    (k, .obj (("metrics", .obj (rendered_metrics METRICS
      (usage_of (fun r => decide (key r = some k)) records))) :: extra k))

def rendered_row (alias_of : String → Option String) (d : String) (records : List UsageRecord) :
    ActivityRow :=
  { date := some d
    metrics := rendered_metrics METRICS (total_of records)
    breakdown :=
      [("model_groups", .obj (rendered_blocks (·.model_group) (fun _ => []) records)),
        ("models", .obj (rendered_blocks (·.model) (fun _ => []) records)),
        ("mcp_servers", .obj (rendered_blocks (·.mcp_tool) (fun _ => []) records)),
        ("api_keys", .obj (rendered_blocks (fun r => some r.api_key)
          (fun k => [("metadata", .obj [("key_alias", alias_json (alias_of k))])]) records))] }

def rendered_results (alias_of : String → Option String) (records : List UsageRecord) :
    List ActivityRow :=
  (records.map (·.date)).dedup.map fun d => rendered_row alias_of d (records.filter (·.date = d))

def rendered_metadata (more : Bool) (records : List UsageRecord) : Dict :=
  ("has_more", .bool more) :: rendered_metrics TOTALS (total_of records)

/-- The pages of a cut. -/
def rendered (alias_of : String → Option String) (cut : List (List UsageRecord)) (page : Nat) :
    ActivityAnswer :=
  match cut[page - 1]? with
  | some records => .body (rendered_results alias_of records)
      (some (rendered_metadata (decide (page < cut.length)) records))
  | none => .http_error

theorem rendered_told {names : List (String × (Metrics → Rat))} (hnodup : (names.map (·.1)).Nodup)
    (usage : Metrics) : Tells names (rendered_metrics names usage) usage := by
  intro f hf
  have hkeys : ((rendered_metrics names usage).map (·.1)).Nodup := by
    unfold rendered_metrics
    rw [List.map_map]
    exact hnodup
  exact (Groups.mem_iff_lookup hkeys _ _).mp (List.mem_map.mpr ⟨f, hf, rfl⟩)

theorem rendered_blocks_of (key : UsageRecord → Option String) (extra : String → Dict)
    (records : List UsageRecord) : BlocksOf key records (rendered_blocks key extra records) := by
  have hkeys : (rendered_blocks key extra records).map (·.1) = (records.filterMap key).dedup := by
    unfold rendered_blocks
    rw [List.map_map]
    exact List.map_id _
  refine ⟨by rw [hkeys]; exact List.nodup_dedup _, fun k => ?_, fun block hblock => ?_⟩
  · rw [hkeys, List.mem_dedup, List.mem_filterMap]
  · obtain ⟨k, -, rfl⟩ := List.mem_map.mp hblock
    exact ⟨_, _, rfl, rfl, rendered_told (by decide) _⟩

theorem rendered_row_of (d : String) (records : List UsageRecord) :
    RowOf alias_of records (rendered_row alias_of d records) := by
  refine ⟨rendered_told (by decide) _, ⟨_, rfl, rendered_blocks_of _ _ _⟩,
    ⟨_, rfl, rendered_blocks_of _ _ _⟩, ⟨_, rfl, rendered_blocks_of _ _ _⟩,
    ⟨_, rfl, rendered_blocks_of _ _ _, ?_⟩⟩
  intro block hblock fields hobj
  obtain ⟨k, -, rfl⟩ := List.mem_map.mp hblock
  cases hobj
  exact ⟨_, rfl, rfl⟩

theorem rendered_page_of (more : Bool) (records : List UsageRecord) :
    PageOf alias_of records (rendered_results alias_of records) (rendered_metadata more records) := by
  have hdates : (rendered_results alias_of records).map (·.date) =
      (records.map (·.date)).dedup.map some := by
    unfold rendered_results
    rw [List.map_map]
    rfl
  refine ⟨?_, fun row hrow => ?_, fun r hr => ?_, ?_, ?_⟩
  · rw [hdates]
    exact (List.nodup_dedup _).map (Option.some_injective _)
  · obtain ⟨d, hd, rfl⟩ := List.mem_map.mp hrow
    obtain ⟨r, hr, hdate⟩ := List.mem_map.mp (List.mem_dedup.mp hd)
    exact ⟨d, rfl, ⟨r, hr, hdate⟩, rendered_row_of _ _⟩
  · rw [hdates]
    exact List.mem_map.mpr ⟨_, List.mem_dedup.mpr (List.mem_map.mpr ⟨r, hr, rfl⟩), rfl⟩
  · show (("has_more" : String) :: (rendered_metrics TOTALS (total_of records)).map (·.1)).Nodup
    unfold rendered_metrics
    rw [List.map_map]
    show ("has_more" :: TOTALS.map (·.1)).Nodup
    decide
  · intro t ht
    -- no figure of the metadata is hidden by the flag before it
    have hne : t.1 ≠ "has_more" := by
      intro heq
      have hmem : "has_more" ∈ TOTALS.map (·.1) := List.mem_map.mpr ⟨t, ht, heq⟩
      revert hmem
      decide
    unfold rendered_metadata
    rw [Table.lookup_cons_ne _ _ hne]
    exact rendered_told (by decide) _ t ht

/-- Every cut of any records is served by some pages. -/
theorem rendered_serves (alias_of : String → Option String) (before rest : List (List UsageRecord)) :
    ServesPages alias_of (rendered alias_of (before ++ rest)) (before.length + 1) rest := by
  induction rest generalizing before with
  | nil => trivial
  | cons records rest ih =>
    have hget : (before ++ records :: rest)[before.length + 1 - 1]? = some records := by simp
    have hmore : decide (before.length + 1 < (before ++ records :: rest).length) = !rest.isEmpty := by
      cases rest with
      | nil => simp
      | cons => simp
    refine ⟨_, rendered_metadata (!rest.isEmpty) records, ?_, rendered_page_of _ _, rfl, ?_⟩
    · unfold rendered
      rw [hget, hmore]
    · have hrest := ih (before ++ [records])
      rw [List.append_assoc, List.length_append] at hrest
      exact hrest

theorem gpt_is_no_tool : (none : Option String).isSome = is_tool_call (some "gpt") := by decide

theorem search_is_tool : (some "jira/search").isSome = is_tool_call (some "MCP: search") := by decide

theorem gpt_grouped : (some "openai/gpt").isSome = true → (some "gpt").isSome = true := fun _ => rfl

theorem search_grouped : (none : Option String).isSome = true → (some "MCP: search").isSome = true :=
  fun _ => rfl

/-- A request to a model. -/
def gpt_request : UsageRecord :=
  ⟨"2026-06-04", some "openai/gpt", some "gpt", none, "k1", ⟨1, 1, 30, 10, 20, 0, 0⟩, gpt_grouped,
    gpt_is_no_tool⟩

/-- A call to a tool, on the same day. -/
def search_call : UsageRecord :=
  ⟨"2026-06-04", none, some "MCP: search", some "jira/search", "k1", ⟨0, 1, 0, 0, 0, 0, 0⟩,
    search_grouped, search_is_tool⟩

/-- A day on two pages. -/
theorem paging_indifferent_june :
    ∃ data w data' w',
      user_daily_activity (rendered (fun _ => none) [[search_call], [gpt_request]]) = .ok data ∧
      aggregate_window noText data = .ok w ∧
      user_daily_activity (rendered (fun _ => none) [[gpt_request, search_call]]) = .ok data' ∧
      aggregate_window noText data' = .ok w' ∧ SameWindow w w' ∧
      (last_used_from_window data).Perm (last_used_from_window data') ∧
      CountsOnce (fun _ => none) [gpt_request, search_call] w ∧
      LastDays [gpt_request, search_call] (last_used_from_window data) := by
  have hswap : [[search_call], [gpt_request]].flatten.Perm [gpt_request, search_call] :=
    List.Perm.swap _ _ _
  exact paging_indifferent (fun _ => none) noText [gpt_request, search_call]
    [[search_call], [gpt_request]] (by simp) (by simp [DAILY_ACTIVITY_MAX_PAGES]) hswap _ _
    (rendered_serves _ [] _) (rendered_serves _ [] _)

end AlitellmAuth.Stats
