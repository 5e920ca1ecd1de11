import Mathlib.Algebra.BigOperators.Ring.List
import Mathlib.Algebra.Field.Rat
import AlitellmAuth.Stats.Paging
import AlitellmAuth.Stats.TopKeys

/-! # The stats contract

    `stats.py` makes the contract of the usage page from the window and the one
    before it: headline totals with their changes, one row for each model and
    one for each key, with shares of the spend.

    * `build_stats_contract`: the contract, but for the range and the budget.
    * `Reconciles`: the rows and the headline tell one story. Every request has
      a key, so the rows of the keys add up to the headline; one without a model
      is in the headline only.
    * `contract_reconciles`: they do, for every cut of the records into pages.
-/

namespace AlitellmAuth.Stats

open Litellm Shares Calendar

/-! ## The contract -/

/-- `_safe_pct` in exact arithmetic. -/
def exact_pct (numerator denominator : Rat) : Option Rat :=
  safe_pct (· == 0) (· / ·) numerator denominator

theorem exact_pct_eq (numerator denominator : Rat) : exact_pct numerator denominator =
    if denominator = 0 then none else some (numerator / denominator) := by
  unfold exact_pct safe_pct
  by_cases h : denominator = 0 <;> simp [h]

/-- `_avg_cost_per_1m_tokens`. -/
def avg_cost_per_1m_tokens (spend : Rat) (tokens : Int) : Option Rat :=
  if tokens = 0 then none else some (spend / tokens * 1000000)

/-- The changes from one window to the next. -/
structure Deltas where
  requests_pct : Option Rat
  tokens_pct : Option Rat
  spend_pct : Option Rat
  avg_cost_per_1m_tokens_pct : Option Rat

/-- What `compute_deltas` reads of a window; all zero for `{}`. -/
structure Headline where
  requests : Int
  tokens : Int
  spend : Rat

def compute_deltas (cur prev : Headline) : Deltas :=
  { requests_pct := exact_pct (cur.requests - prev.requests) prev.requests
    tokens_pct := exact_pct (cur.tokens - prev.tokens) prev.tokens
    spend_pct := exact_pct (cur.spend - prev.spend) prev.spend
    avg_cost_per_1m_tokens_pct :=
      match avg_cost_per_1m_tokens cur.spend cur.tokens,
        avg_cost_per_1m_tokens prev.spend prev.tokens with
      | some cur_avg, some prev_avg => exact_pct (cur_avg - prev_avg) prev_avg
      | _, _ => none }

/-- A row of a model. -/
structure ContractModel where
  model : String
  figures : ModelFigures
  spend_pct : Option Rat
  last_used : Option String

structure ContractTotals where
  requests : Int
  tokens : Int
  spend : Rat
  failed_requests : Int
  input_tokens : Int
  output_tokens : Int
  cache_read_tokens : Int
  cache_hit_pct : Option Rat
  avg_cost_per_1m_tokens : Option Rat
  deltas : Deltas

structure StatsContract where
  totals : ContractTotals
  series : List DayEntry
  models : List ContractModel
  keys : List UsageRow
  /-- `capabilities["per_model_last_used"]`. -/
  per_model_last_used : Bool

def WindowAggregate.headline (w : WindowAggregate) : Headline := ⟨w.requests, w.tokens, w.spend⟩

/-- The rows of the models, with their shares of what all models have spent. -/
def contract_models (models : List (String × ModelFigures)) (last_used : List (String × String)) :
    List ContractModel :=
  let models_total_spend := (models.map (·.2.spend)).sum
  models.map fun m => ⟨m.1, m.2, exact_pct m.2.spend models_total_spend, last_used.lookup m.1⟩

/-- An alias; it is a text or null. -/
def alias_text : Json → Option String
  | .str text => some text
  | _ => none

/-- The rows of the keys, the greatest spend first. -/
def contract_keys (keys : List (String × KeyFigures)) : List UsageRow :=
  let keys_total_spend := (keys.map (·.2.spend)).sum
  (keys.map fun k => (⟨some k.1, alias_text k.2.key_alias, k.2.requests, k.2.spend,
    exact_pct k.2.spend keys_total_spend⟩ : UsageRow)).insertionSort fun a b => b.spend ≤ a.spend

/-- `build_stats_contract`, but for the range and the budget. `prev` is none if
    the window before could not be fetched, and `capable` is the default of
    `per_model_last_used`. -/
def build_stats_contract (cur : WindowAggregate) (prev : Option WindowAggregate)
    (last_used : List (String × String)) (capable : Bool) (start_iso end_iso : String) :
    Except DateError StatsContract := do
  let series ← zero_fill_series cur.series start_iso end_iso
  return {
    totals :=
      { requests := cur.requests
        tokens := cur.tokens
        spend := cur.spend
        failed_requests := cur.failed_requests
        input_tokens := cur.prompt_tokens
        output_tokens := cur.completion_tokens
        cache_read_tokens := cur.cache_read_tokens
        cache_hit_pct := exact_pct cur.cache_read_tokens cur.prompt_tokens
        avg_cost_per_1m_tokens := avg_cost_per_1m_tokens cur.spend cur.tokens
        deltas := compute_deltas cur.headline ((prev.map (·.headline)).getD ⟨0, 0, 0⟩) }
    series
    models := contract_models cur.models last_used
    keys := contract_keys cur.keys
    per_model_last_used := capable && !last_used.isEmpty }

/-! ## The story -/

/-- Shares of a spend: there are none of nothing, else they make up the whole. -/
def SharesOf (spend : Rat) (shares : List (Option Rat)) : Prop :=
  if spend = 0 then ∀ share ∈ shares, share = none
  else ∃ parts : List Rat, shares = parts.map some ∧ parts.sum = 1

/-- A record without a model is shown under no name. -/
def nameless (r : UsageRecord) : Bool := (shown_name r).isNone

/-- The rows and the headline tell one story. -/
structure Reconciles (records : List UsageRecord) (c : StatsContract) : Prop where
  key_requests : (c.keys.map (·.requests)).sum = c.totals.requests
  key_spend : (c.keys.map (·.spend)).sum = c.totals.spend
  key_shares : SharesOf c.totals.spend (c.keys.map (·.spend_pct))
  key_rank : c.keys.Pairwise fun a b => b.spend ≤ a.spend
  model_requests : (c.models.map (·.figures.requests)).sum +
    (usage_of nameless records).api_requests = c.totals.requests
  model_spend : (c.models.map (·.figures.spend)).sum + (usage_of nameless records).spend =
    c.totals.spend
  model_shares : SharesOf (c.totals.spend - (usage_of nameless records).spend)
    (c.models.map (·.spend_pct))
  model_day : ∀ row ∈ c.models, ∀ d, row.last_used = some d →
    (∃ r ∈ records, shown_name r = some row.model ∧ r.date = d) ∧
      ∀ r ∈ records, shown_name r = some row.model → r.date ≤ d

/-! ## Shares -/

theorem shares_of_parts {α : Type} (spend : α → Rat) (items : List α) :
    SharesOf (items.map spend).sum
      (items.map fun a => exact_pct (spend a) (items.map spend).sum) := by
  unfold SharesOf
  simp only [exact_pct_eq]
  by_cases hzero : (items.map spend).sum = 0
  · rw [if_pos hzero]
    intro share hshare
    obtain ⟨a, -, rfl⟩ := List.mem_map.mp hshare
    rw [if_pos hzero]
  · rw [if_neg hzero]
    refine ⟨items.map fun a => spend a / (items.map spend).sum, ?_, ?_⟩
    · rw [List.map_map]
      apply List.map_congr_left
      intro a _
      rw [if_neg hzero]
      rfl
    · simp only [div_eq_mul_inv]
      rw [List.sum_map_mul_right, mul_inv_cancel₀ hzero]

theorem SharesOf.perm {spend : Rat} {shares shares' : List (Option Rat)} (hperm : shares.Perm shares')
    (h : SharesOf spend shares) : SharesOf spend shares' := by
  unfold SharesOf at h ⊢
  by_cases hzero : spend = 0
  · rw [if_pos hzero] at h ⊢
    intro share hshare
    exact h share (hperm.mem_iff.mpr hshare)
  · rw [if_neg hzero] at h ⊢
    obtain ⟨parts, rfl, hsum⟩ := h
    -- the shares in another order are the parts in this order
    have hsome : shares' = (shares'.filterMap id).map some := by
      have hall : ∀ share ∈ shares', ∃ part, share = some part := by
        intro share hshare
        obtain ⟨part, -, rfl⟩ := List.mem_map.mp (hperm.mem_iff.mpr hshare)
        exact ⟨part, rfl⟩
      clear hperm
      induction shares' with
      | nil => rfl
      | cons share shares' ih =>
        obtain ⟨part, rfl⟩ := hall share List.mem_cons_self
        have hrest := ih fun s hs => hall s (List.mem_cons_of_mem _ hs)
        exact congrArg (List.cons (some part)) hrest
    refine ⟨_, hsome, ?_⟩
    have hparts : parts.Perm (shares'.filterMap id) := by
      have hfilter := hperm.filterMap id
      rw [List.filterMap_map] at hfilter
      simpa using hfilter
    rw [← hparts.sum_eq, hsum]

/-! ## Rows and headline -/

section
variable {alias_of : String → Option String} {records : List UsageRecord} {w : WindowAggregate}

/-- The models share the named records out among them. -/
theorem CountsOnce.model_shares (h : CountsOnce alias_of records w) :
    IsShare (fun r => r.metrics.ofModel) shown_name records w.models := by
  refine ⟨h.one_model, fun name => ?_, fun row hrow => ?_⟩
  · constructor
    · intro hname
      obtain ⟨row, hrow, rfl⟩ := List.mem_map.mp hname
      exact ((h.models row.1 row.2).mp hrow).1
    · intro hsome
      exact List.mem_map.mpr ⟨_, (h.models name _).mpr ⟨hsome, rfl⟩, rfl⟩
  · rw [((h.models row.1 row.2).mp hrow).2, model_usage]

/-- A counter of the named records, and of the others. -/
theorem named_or_not {M : Type} [AddCommMonoid M] (counter : Metrics → M)
    (hadd : ∀ a b, counter (a + b) = counter a + counter b) (records : List UsageRecord) :
    counter (usage_of (fun r => (shown_name r).isSome) records) + counter (usage_of nameless records) =
      counter (total_of records) := by
  have hsplit : usage_of (fun r => (shown_name r).isSome || nameless r) records =
      usage_of (fun r => (shown_name r).isSome) records + usage_of nameless records := by
    apply sum_of_or
    intro r _ hr
    unfold nameless
    rw [Option.isNone_eq_false_iff]
    exact hr
  have hall : total_of records = usage_of (fun r => (shown_name r).isSome || nameless r) records := by
    unfold usage_of nameless
    rw [sum_of_all]
    · rfl
    · intro r _
      cases shown_name r with
      | none => rfl
      | some => rfl
  rw [hall, ← hadd, hsplit]

theorem CountsOnce.model_sum {M : Type} [AddCommMonoid M] (h : CountsOnce alias_of records w)
    (counter : ModelFigures → M) (hzero : counter 0 = 0)
    (hadd : ∀ a b, counter (a + b) = counter a + counter b) :
    (w.models.map fun m => counter m.2).sum =
      counter (usage_of (fun r => (shown_name r).isSome) records).ofModel := by
  have hsum := sum_shares h.model_shares fun _ => true
  rw [sum_of_all (fun _ _ => rfl)] at hsum
  have hfigures : (w.models.map (·.2)).sum =
      (usage_of (fun r => (shown_name r).isSome) records).ofModel := by
    rw [hsum, model_usage]
    apply sum_of_congr
    intro r _
    cases shown_name r with
    | none => rfl
    | some => rfl
  have hmap : counter (sum_of (·.2) (fun _ => true) w.models) =
      sum_of (fun m => counter m.2) (fun _ => true) w.models := map_sum_of counter hzero hadd _ _
  rw [sum_of_all (fun _ _ => rfl), sum_of_all (fun _ _ => rfl), hfigures] at hmap
  exact hmap.symm

/-- Every record has a key. -/
theorem CountsOnce.key_sum {M : Type} [AddCommMonoid M] (h : CountsOnce alias_of records w)
    (read : KeyFigures → M) (counter : Metrics → M) (hzero : counter 0 = 0)
    (hadd : ∀ a b, counter (a + b) = counter a + counter b)
    (hread : ∀ k figures, (k, figures) ∈ w.keys →
      read figures = counter (usage_of (fun r => decide (r.api_key = k)) records)) :
    (w.keys.map fun k => read k.2).sum = counter (total_of records) := by
  -- the rows are the shares of the keys, each counted once
  have hshares : IsShare (fun r => counter r.metrics) (fun r => some r.api_key) records
      (w.keys.map fun k => (k.1, read k.2)) := by
    have hkeys : (w.keys.map fun k => (k.1, read k.2)).map (·.1) = w.keys.map (·.1) := by
      rw [List.map_map]
      rfl
    refine ⟨by rw [hkeys]; exact h.one_key, fun k => ?_, fun row hrow => ?_⟩
    · rw [hkeys]
      constructor
      · intro hk
        obtain ⟨row, hrow, rfl⟩ := List.mem_map.mp hk
        obtain ⟨r, hr, hkey⟩ := ((h.keys row.1 row.2).mp hrow).1
        exact ⟨r, hr, congrArg some hkey⟩
      · rintro ⟨r, hr, hkey⟩
        exact List.mem_map.mpr ⟨_, (h.keys k _).mpr ⟨⟨r, hr, Option.some.inj hkey⟩, rfl⟩, rfl⟩
    · obtain ⟨k, hk, rfl⟩ := List.mem_map.mp hrow
      show read k.2 = _
      rw [hread k.1 k.2 hk]
      refine (map_sum_of counter hzero hadd _ records).trans (sum_of_congr fun r _ => ?_)
      simp
  have hsum := sum_shares hshares fun _ => true
  rw [sum_of_all (fun _ _ => rfl), List.map_map] at hsum
  refine hsum.trans ?_
  rw [total_eq_usage]
  exact (map_sum_of counter hzero hadd (fun _ => true) records).symm

end

/-! ## The contract reconciles -/

section
variable {alias_of : String → Option String} {records : List UsageRecord} {w : WindowAggregate}
  {last_used : List (String × String)}

/-- A window that counts every record once makes a contract that reconciles. -/
theorem counted_reconciles (hw : CountsOnce alias_of records w) (hlast : LastDays records last_used)
    {prev : Option WindowAggregate} {capable : Bool} {start_iso end_iso : String} {c : StatsContract}
    (hc : build_stats_contract w prev last_used capable start_iso end_iso = .ok c) :
    Reconciles records c := by
  unfold build_stats_contract at hc
  cases hseries : zero_fill_series w.series start_iso end_iso with
  | error e =>
    rw [hseries] at hc
    cases hc
  | ok series =>
    rw [hseries] at hc
    obtain rfl := Except.ok.inj hc
    have htotals := hw.totals
    have hrequests : w.requests = (total_of records).api_requests :=
      congrArg Metrics.api_requests htotals
    have hspend : w.spend = (total_of records).spend := congrArg Metrics.spend htotals
    have hkey_requests := hw.key_sum (·.requests) Metrics.api_requests rfl (fun _ _ => rfl)
      (fun k figures hk => by rw [((hw.keys k figures).mp hk).2])
    have hkey_spend := hw.key_sum (·.spend) Metrics.spend rfl (fun _ _ => rfl)
      (fun k figures hk => by rw [((hw.keys k figures).mp hk).2])
    have hmodel_requests := hw.model_sum ModelFigures.requests rfl (fun _ _ => rfl)
    have hmodel_spend := hw.model_sum ModelFigures.spend rfl (fun _ _ => rfl)
    have hsplit_requests := named_or_not Metrics.api_requests (fun _ _ => rfl) records
    have hsplit_spend := named_or_not Metrics.spend (fun _ _ => rfl) records
    -- the ranking only moves the rows
    have hperm := List.perm_insertionSort (fun a b : UsageRow => b.spend ≤ a.spend)
      (w.keys.map fun k => (⟨some k.1, alias_text k.2.key_alias, k.2.requests, k.2.spend,
        exact_pct k.2.spend (w.keys.map (·.2.spend)).sum⟩ : UsageRow))
    refine ⟨?_, ?_, ?_, ?_, ?_, ?_, ?_, ?_⟩
    · show ((contract_keys w.keys).map (·.requests)).sum = w.requests
      rw [hrequests, ← hkey_requests]
      refine ((hperm.map (·.requests)).sum_eq).trans ?_
      rw [List.map_map]
      rfl
    · show ((contract_keys w.keys).map (·.spend)).sum = w.spend
      rw [hspend, ← hkey_spend]
      refine ((hperm.map (·.spend)).sum_eq).trans ?_
      rw [List.map_map]
      rfl
    · show SharesOf w.spend ((contract_keys w.keys).map (·.spend_pct))
      rw [hspend, ← hkey_spend]
      refine (shares_of_parts (fun k : String × KeyFigures => k.2.spend) w.keys).perm ?_
      refine List.Perm.trans ?_ (hperm.map (·.spend_pct)).symm
      rw [List.map_map]
      exact List.Perm.refl _
    · have htotal : Std.Total fun a b : UsageRow => b.spend ≤ a.spend := ⟨fun a b => le_total _ _⟩
      have htrans : IsTrans UsageRow fun a b => b.spend ≤ a.spend :=
        ⟨fun a b c hab hbc => le_trans hbc hab⟩
      exact List.pairwise_insertionSort _ _
    · show ((contract_models w.models last_used).map (·.figures.requests)).sum + _ = w.requests
      rw [hrequests, ← hsplit_requests]
      congr 1
      refine Eq.trans ?_ hmodel_requests
      unfold contract_models
      rw [List.map_map]
      rfl
    · show ((contract_models w.models last_used).map (·.figures.spend)).sum + _ = w.spend
      rw [hspend, ← hsplit_spend]
      congr 1
      refine Eq.trans ?_ hmodel_spend
      unfold contract_models
      rw [List.map_map]
      rfl
    · show SharesOf (w.spend - _) ((contract_models w.models last_used).map (·.spend_pct))
      have hnamed : w.spend - (usage_of nameless records).spend = (w.models.map (·.2.spend)).sum := by
        rw [hspend, ← hsplit_spend, add_sub_cancel_right]
        exact hmodel_spend.symm
      rw [hnamed]
      have hrows := shares_of_parts (fun m : String × ModelFigures => m.2.spend) w.models
      unfold contract_models
      rw [List.map_map]
      exact hrows
    · intro row hrow d hd
      obtain ⟨m, -, rfl⟩ := List.mem_map.mp hrow
      have hmem := (Groups.mem_iff_lookup hlast.one_day _ _).mpr hd
      obtain ⟨⟨r, hr, hname, hdate, -⟩, hmax⟩ := (hlast.days _ _).mp hmem
      exact ⟨⟨r, hr, hname, hdate⟩, hmax⟩

end

/-! ## The days -/

/-- The records are of the days of a window. -/
def InWindow (records : List UsageRecord) (start end_ : PyDate) : Prop :=
  ∀ r ∈ records, ∃ day : PyDate, r.date = day.isoformat ∧ start.ordinal ≤ day.ordinal ∧
    day.ordinal ≤ end_.ordinal

/-- The usage of a day of the calendar. -/
def usage_on (records : List UsageRecord) (day : PyDate) : Figures :=
  (usage_of (fun r => decide (r.date = day.isoformat)) records).day

/-- The series has each day of the window with its usage, and adds up to the
    headline. -/
structure DaysReconcile (records : List UsageRecord) (start end_ : PyDate) (c : StatsContract) :
    Prop where
  days : ∃ days, DaysOf start end_ days ∧
    c.series = days.map fun day => { date := some day.isoformat, figures := usage_on records day }
  sum : (c.series.map (·.figures)).sum = ⟨c.totals.spend, c.totals.requests, c.totals.tokens,
    c.totals.input_tokens, c.totals.output_tokens, c.totals.failed_requests⟩

theorem firstTen_isoformat (day : PyDate) : firstTen day.isoformat = day.isoformat := by
  unfold firstTen
  rw [← isoformat_length day, List.take_length, String.ofList_toList]

/-- Filling the days of a window, whatever the series. -/
theorem zero_fill_cases (series : List DayEntry) {start end_ : PyDate}
    (hordered : start.ordinal ≤ end_.ordinal) (hspan : span_days start end_ ≤ MAX_RANGE_DAYS) :
    (end_.ordinal < MAXORDINAL ∧ ∃ days, DaysOf start end_ days ∧
      zero_fill_series series start.isoformat end_.isoformat =
        .ok (days.map (filled_entry series))) ∨
    (end_.ordinal = MAXORDINAL ∧
      zero_fill_series series start.isoformat end_.isoformat = .error .overflow) := by
  have hbounds := end_.ordinal_bounds
  unfold MAX_RANGE_DAYS span_days at hspan
  -- the span is in order and within the cap, so the loop runs
  have hfill : zero_fill_series series start.isoformat end_.isoformat =
      (fill_days end_ FILL_ROUNDS start).map fun days => days.map (filled_entry series) := by
    unfold zero_fill_series span_days
    rw [firstTen_isoformat, firstTen_isoformat, fromisoformat_isoformat, fromisoformat_isoformat]
    exact if_neg (by omega)
  have hrounds : end_.ordinal - start.ordinal + 1 ≤ (FILL_ROUNDS : Int) := by
    unfold FILL_ROUNDS
    omega
  obtain ⟨hfilled, hoverflow⟩ := fill_days_spec FILL_ROUNDS start hrounds
  -- the loop steps past its last day, which the last of all dates has no room for
  by_cases hlast : end_.ordinal = MAXORDINAL
  · right
    rw [hfill, hoverflow hlast hordered]
    exact ⟨hlast, rfl⟩
  · left
    obtain ⟨days, hdays, hlength, hget⟩ := hfilled (by omega)
    refine ⟨by omega, days, ⟨?_, hget⟩, ?_⟩
    · unfold span_days
      omega
    · rw [hfill, hdays]
      rfl

section
variable {alias_of : String → Option String} {records : List UsageRecord} {w : WindowAggregate}
  {start end_ : PyDate}

/-- Of records with dates of the calendar, an entry begins with its day only. -/
theorem CountsOnce.begins (h : CountsOnce alias_of records w) (hin : InWindow records start end_)
    {e : DayEntry} (he : e ∈ w.series) {day : PyDate} (hbegins : beginsWith day e.date = true) :
    e.date = some day.isoformat ∧ e.figures = usage_on records day := by
  obtain ⟨d, hdate, ⟨r, hr, hrd⟩, hfigures⟩ := (h.series e).mp he
  obtain ⟨day', hday', -⟩ := hin r hr
  rw [hdate, beginsWith_iff, ← hrd, hday', firstTen_isoformat] at hbegins
  rw [← hrd, hday', hbegins] at hdate hfigures
  exact ⟨hdate, hfigures⟩

/-- The entry of a day, filled in where there is none, is its usage. -/
theorem CountsOnce.filled (h : CountsOnce alias_of records w) (hin : InWindow records start end_)
    (day : PyDate) : filled_entry w.series day =
      { date := some day.isoformat, figures := usage_on records day } := by
  unfold filled_entry
  rw [lookup_by_day]
  cases hfound : w.series.reverse.find? (beginsWith day ·.date) with
  | some e =>
    have he := List.mem_reverse.mp (List.mem_of_find?_eq_some hfound)
    have hbegins := @List.find?_some DayEntry (beginsWith day ·.date) e _ hfound
    obtain ⟨hdate, hfigures⟩ := h.begins hin he hbegins
    rw [Option.getD_some, ← hdate, ← hfigures]
  | none =>
    -- no record is of this day, else the series had an entry for it
    have hnone : usage_of (fun r => decide (r.date = day.isoformat)) records = 0 := by
      apply sum_of_none
      intro r hr
      rw [decide_eq_false_iff_not]
      intro hday
      have hentry := (h.series ⟨some day.isoformat, _⟩).mpr ⟨_, rfl, ⟨r, hr, hday⟩, rfl⟩
      have hbegins := List.find?_eq_none.mp hfound _ (List.mem_reverse.mpr hentry)
      rw [beginsWith_iff, firstTen_isoformat] at hbegins
      exact hbegins rfl
    rw [Option.getD_none, usage_on, hnone]
    rfl

/-- The days of a window have all of its usage. -/
theorem usage_days (hin : InWindow records start end_) {days : List PyDate}
    (hdays : DaysOf start end_ days) : (days.map (usage_on records)).sum = (total_of records).day := by
  have hnodup : (days.map PyDate.isoformat).Nodup :=
    hdays.nodup.map fun _ _ heq => isoformat_injective heq
  -- the figures of the days are those of the records dated within them
  have hkeys : ((days.map PyDate.isoformat).map fun k =>
      sum_of (fun r : UsageRecord => r.metrics.day) (fun r => decide (some r.date = some k)) records).sum =
      sum_of (fun r => r.metrics.day) (fun r => (some r.date).any (· ∈ days.map PyDate.isoformat))
        records := sum_of_keys hnodup records
  rw [List.map_map] at hkeys
  have hall : sum_of (fun r : UsageRecord => r.metrics.day)
      (fun r => (some r.date).any (· ∈ days.map PyDate.isoformat)) records = (total_of records).day := by
    rw [sum_of_all]
    · have hmap : Metrics.day (sum_of (fun r : UsageRecord => r.metrics) (fun _ => true) records) =
          sum_of (fun r => r.metrics.day) (fun _ => true) records :=
        map_sum_of Metrics.day rfl (fun _ _ => rfl) _ _
      rw [sum_of_all (fun _ _ => rfl), sum_of_all (fun _ _ => rfl)] at hmap
      exact hmap.symm
    · intro r hr
      obtain ⟨day, hday, hfirst, hlast⟩ := hin r hr
      rw [Option.any_some, decide_eq_true_iff, hday]
      exact List.mem_map_of_mem ((hdays.mem_iff day).mpr ⟨hfirst, hlast⟩)
  rw [← hall, ← hkeys]
  congr 1
  apply List.map_congr_left
  intro day _
  unfold usage_on usage_of
  refine (map_sum_of Metrics.day rfl (fun _ _ => rfl) _ _).trans (sum_of_congr fun r _ => ?_)
  simp

end

/-- However LiteLLM cuts the usage of a window into pages, the contract tells one
    story: the keys add up to its headline, the models to what has a model, the
    days to the whole, the shares to one, and the keys are ranked. There is a
    contract for every window but one that ends with the calendar. -/
theorem contract_reconciles (alias_of : String → Option String) (py_float : String → Option Rat)
    (cut : List (List UsageRecord)) (hsome : 1 ≤ cut.length)
    (hfew : cut.length ≤ DAILY_ACTIVITY_MAX_PAGES) (respond : Nat → ActivityAnswer)
    (hserves : ServesPages alias_of respond 1 cut) {start end_ : PyDate}
    (hordered : start.ordinal ≤ end_.ordinal) (hspan : span_days start end_ ≤ MAX_RANGE_DAYS)
    (hin : InWindow cut.flatten start end_) :
    ∃ data w, user_daily_activity respond = .ok data ∧ aggregate_window py_float data = .ok w ∧
      ∀ prev capable,
        (end_.ordinal < MAXORDINAL ∧ ∃ c, build_stats_contract w prev (last_used_from_window data)
            capable start.isoformat end_.isoformat = .ok c ∧
          Reconciles cut.flatten c ∧ DaysReconcile cut.flatten start end_ c) ∨
        (end_.ordinal = MAXORDINAL ∧ build_stats_contract w prev (last_used_from_window data)
          capable start.isoformat end_.isoformat = .error .overflow) := by
  obtain ⟨data, w, hdata, hw, hcounts, hlast⟩ := pages_counted hserves hsome hfew py_float
  refine ⟨data, w, hdata, hw, fun prev capable => ?_⟩
  rcases zero_fill_cases w.series hordered hspan with ⟨hbefore, days, hdays, hseries⟩ | ⟨hend, hseries⟩
  · left
    refine ⟨hbefore, ?_⟩
    -- the contract is built, and copies the totals of the window
    have hok : ∃ c, build_stats_contract w prev (last_used_from_window data) capable
        start.isoformat end_.isoformat = .ok c ∧ c.series = days.map (filled_entry w.series) ∧
        c.totals.spend = w.spend ∧ c.totals.requests = w.requests ∧ c.totals.tokens = w.tokens ∧
        c.totals.input_tokens = w.prompt_tokens ∧ c.totals.output_tokens = w.completion_tokens ∧
        c.totals.failed_requests = w.failed_requests := by
      unfold build_stats_contract
      rw [hseries]
      exact ⟨_, rfl, rfl, rfl, rfl, rfl, rfl, rfl, rfl⟩
    obtain ⟨c, hc, hfilled, hspend, hrequests, htokens, hinput, houtput, hfailed⟩ := hok
    -- a day is filled with the figures counted for it
    have hentries : c.series = days.map fun day =>
        { date := some day.isoformat, figures := usage_on cut.flatten day } := by
      rw [hfilled]
      apply List.map_congr_left
      intro day _
      exact hcounts.filled hin day
    refine ⟨c, hc, counted_reconciles hcounts hlast hc, ⟨days, hdays, hentries⟩, ?_⟩
    rw [hentries, List.map_map]
    refine (usage_days hin hdays).trans ?_
    rw [hspend, hrequests, htokens, hinput, houtput, hfailed, ← hcounts.totals]
    rfl
  · right
    refine ⟨hend, ?_⟩
    unfold build_stats_contract
    rw [hseries]
    rfl

/-- A request and a call to a tool, on two pages. -/
theorem contract_reconciles_june :
    ∃ data w, user_daily_activity (rendered (fun _ => none) [[search_call], [gpt_request]]) = .ok data ∧
      aggregate_window noText data = .ok w ∧ ∀ prev capable,
        (june.ordinal < MAXORDINAL ∧ ∃ c, build_stats_contract w prev (last_used_from_window data)
            capable june.isoformat june.isoformat = .ok c ∧
          Reconciles [search_call, gpt_request] c ∧
          DaysReconcile [search_call, gpt_request] june june c) ∨
        (june.ordinal = MAXORDINAL ∧ build_stats_contract w prev (last_used_from_window data)
          capable june.isoformat june.isoformat = .error .overflow) := by
  have hin : InWindow [[search_call], [gpt_request]].flatten june june := by
    intro r hr
    refine ⟨june, ?_, le_refl _, le_refl _⟩
    simp only [List.flatten_cons, List.flatten_nil, List.append_nil, List.cons_append,
      List.nil_append, List.mem_cons, List.not_mem_nil, or_false] at hr
    rcases hr with rfl | rfl
    · rfl
    · rfl
  exact contract_reconciles (fun _ => none) noText [[search_call], [gpt_request]] (by simp)
    (by simp [DAILY_ACTIVITY_MAX_PAGES]) _ (rendered_serves _ [] _) (le_refl _) (by decide) hin

end AlitellmAuth.Stats
