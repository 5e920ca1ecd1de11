import Mathlib.Algebra.Order.Field.Rat
import AlitellmAuth.Framework.Groups
import AlitellmAuth.Framework.Percentile
import AlitellmAuth.Framework.PyView
import AlitellmAuth.Framework.Text

/-! # Latency and outcomes

    `latency.py` folds the spend-log rows of a user into the figures of the
    latency page: percentiles of the durations and of the times to the first
    token, outcomes by status, and requests by model.

    * `compute_latency_contract`: the fold, over any kind of floats.
    * `RightFigures`: the figures are the order statistics of the recorded
      values, and every row is in an outcome and in a model.
    * `latency_right`: in exact arithmetic they are, and the order of the rows
      does not matter.
-/

namespace AlitellmAuth.Stats

/-! ## Numbers and times -/

/-- What the code does with floats. -/
structure Floats (F : Type) where
  /-- `float(n)`; none is an `OverflowError`. -/
  ofInt : Int → Option F
  /-- `float(text)`; none is a `ValueError`. -/
  ofText : PyStr → Option F
  /-- `not x`. -/
  isZero : F → Bool
  /-- `x >= 0`. -/
  nonneg : F → Bool
  /-- `x <= 0`. -/
  nonpos : F → Bool
  /-- `delta.total_seconds() * 1000.0` of a number of microseconds. -/
  millis : Int → F
  /-- `out / (dur / 1000.0)`; none is a `ZeroDivisionError`. -/
  rate : F → F → Option F
  /-- `sum(xs) / len(xs)`. -/
  mean : List F → F
  /-- `xs.sort()`. -/
  sort : List F → List F

/-- Exact arithmetic. -/
def exact (ofText : PyStr → Option Rat) : Floats Rat where
  ofInt n := some n
  ofText := ofText
  isZero x := x == 0
  nonneg x := 0 ≤ x
  nonpos x := x ≤ 0
  millis n := n / 1000
  rate out dur := if dur / 1000 = 0 then none else some (out / (dur / 1000))
  mean xs := xs.sum / xs.length
  sort xs := xs.insertionSort (· ≤ ·)

/-- A `datetime`: its clock in microseconds, and its offset from UTC unless it
    is naive. -/
structure DateTime where
  clock : Int
  offset : Option Int

/-- The two numbers that two datetimes are compared and subtracted by. An aware
    one and a naive one have none (a `TypeError`). -/
def DateTime.align (a b : DateTime) : Except PyError (Int × Int) :=
  match a.offset, b.offset with
  | some p, some q => .ok (a.clock - p, b.clock - q)
  | none, none => .ok (a.clock, b.clock)
  | _, _ => .error .type

/-! ## Percentiles -/

/-- `percentile`: the nearest rank. -/
def percentile {F : Type} (sorted_vals : List F) (p : Rat) : Option F :=
  let n := sorted_vals.length
  if n = 0 then none
  else if p ≤ 0 then sorted_vals[0]?
  else
    let idx := min (max (Rat.ceil (p / 100 * n) - 1) 0) ((n : Int) - 1)
    sorted_vals[idx.toNat]?

/-! ## One row -/

section
variable {F : Type} (ops : Floats F) (fromisoformat : PyStr → Option DateTime)

/-- `_num`: a number, none for anything `float` does not take. -/
def latency_num : PyValue F → Except PyError (Option F)
  | .int n =>
      match ops.ofInt n with
      | some x => .ok (some x)
      | none => .error .overflow
  | .float x => .ok (some x)
  | .str s => .ok (ops.ofText s)
  | _ => .ok none

/-- `_parse_iso`; `fromisoformat` is the one of `datetime`, none is a
    `ValueError`. -/
def parse_iso : PyValue F → Option DateTime
  | .str s => if s = [] then none else fromisoformat (replaceChar 'Z' (lit "+00:00") s)
  | _ => none

/-- `_row_model`. -/
def row_model (row : List (PyStr × PyValue F)) : PyValue F :=
  if (PyValue.get row "model_group").truthy ops.isZero then PyValue.get row "model_group"
  else if (PyValue.get row "model").truthy ops.isZero then PyValue.get row "model"
  else PyValue.text "unknown"

/-- The model of a row as a text. A list or a dictionary cannot be a key of the
    models, and any other value has no `startswith`. -/
def model_text : PyValue F → Except PyError PyStr
  | .str s => .ok s
  | .arr _ => .error .type
  | .obj _ => .error .type
  | _ => .error .attribute

/-- `model.startswith("MCP:")`. -/
def isMcp (model : PyStr) : Bool := (lit "MCP:").isPrefixOf model

/-- `_ttft_ms` of a row, given its model. -/
def ttft_ms (model : PyStr) (row : List (PyStr × PyValue F)) : Except PyError (Option F) :=
  if isMcp model then .ok none
  else
    match parse_iso fromisoformat (PyValue.get row "startTime"),
      parse_iso fromisoformat (PyValue.get row "completionStartTime"),
      parse_iso fromisoformat (PyValue.get row "endTime") with
    | some start, some first, some end_ => do
        let (x, y) ← first.align end_
        if x ≥ y then .ok none
        else
          let (x, y) ← first.align start
          let delta_ms := ops.millis (x - y)
          .ok (if ops.nonneg delta_ms then some delta_ms else none)
    | _, _, _ => .ok none

/-- The rate of a row, given its tokens and its duration. -/
def rate_of : Option F → Option F → Except PyError (Option F)
  | some out, some dur =>
      if ops.isZero out || ops.isZero dur || ops.nonpos dur then .ok none
      else
        match ops.rate out dur with
        | some x => .ok (some x)
        | none => .error .zeroDivision
  | _, _ => .ok none

/-- `_tokens_per_sec`. -/
def tokens_per_sec (row : List (PyStr × PyValue F)) : Except PyError (Option F) := do
  let out ← latency_num ops (PyValue.get row "completion_tokens")
  let dur ← latency_num ops (PyValue.get row "request_duration_ms")
  rate_of ops out dur

/-- `_is_failure`. A surrogate stays in a text in lower case. -/
def is_failure : PyValue F → Bool
  | .str status =>
      match toChars status with
      | some cs => Text.lower (String.ofList cs) != "success"
      | none => true
  | _ => false

/-- The status under which a row is counted. -/
def status_label : PyValue F → PyStr
  | .str status => if status = [] then lit "unknown" else status
  | _ => lit "unknown"

/-- What the fold takes from a row. -/
structure RowRead (F : Type) where
  model : PyStr
  label : PyStr
  failed : Bool
  duration : Option F
  ttft : Option F
  rate : Option F

/-- One row, read in the order of the loop. -/
def read_row (row : List (PyStr × PyValue F)) : Except PyError (RowRead F) := do
  let model ← model_text (row_model ops row)
  let status := PyValue.get row "status"
  let dur ← latency_num ops (PyValue.get row "request_duration_ms")
  let ttft ← ttft_ms ops fromisoformat model row
  let tps ← tokens_per_sec ops row
  return { model, label := status_label status, failed := is_failure status
           duration := dur.filter ops.nonneg, ttft, rate := tps }

/-! ## All rows -/

/-- The record of a model. -/
structure ModelRecord (F : Type) where
  requests : Nat
  failed : Nat
  durations : List F

/-- The five accumulators of the loop. -/
structure Accumulators (F : Type) where
  durations : List F
  ttfts : List F
  tok_per_sec : List F
  outcomes : List (PyStr × Nat)
  per_model : List (PyStr × ModelRecord F)

def Accumulators.empty : Accumulators F := ⟨[], [], [], [], []⟩

def ModelRecord.add (mrec : ModelRecord F) (read : RowRead F) : ModelRecord F :=
  { requests := mrec.requests + 1
    failed := if read.failed then mrec.failed + 1 else mrec.failed
    durations := mrec.durations ++ read.duration.toList }

def Accumulators.add (acc : Accumulators F) (read : RowRead F) : Accumulators F :=
  { durations := acc.durations ++ read.duration.toList
    ttfts := acc.ttfts ++ read.ttft.toList
    tok_per_sec := acc.tok_per_sec ++ read.rate.toList
    outcomes := Groups.add RowRead.label 0 (fun n _ => n + 1) acc.outcomes read
    per_model := Groups.add RowRead.model ⟨0, 0, []⟩ ModelRecord.add acc.per_model read }

/-- One round of the loop: a row that is no dictionary is skipped. -/
def fold_row (acc : Accumulators F) : PyValue F → Except PyError (Accumulators F)
  | .obj row => do return acc.add (← read_row ops fromisoformat row)
  | _ => .ok acc

def fold_rows (rows : List (PyValue F)) : Except PyError (Accumulators F) :=
  rows.foldlM (fold_row ops fromisoformat) .empty

/-! ## The contract -/

structure LatencyFigures (F : Type) where
  p50_ms : Option F
  p95_ms : Option F
  p99_ms : Option F
  avg_ms : Option F
  ttft_p50_ms : Option F
  ttft_p95_ms : Option F
  tokens_per_sec_p50 : Option F

structure OutcomeRow where
  status : PyStr
  count : Nat

structure ModelRow (F : Type) where
  model : PyStr
  requests : Nat
  failed : Nat
  p50_ms : Option F
  p95_ms : Option F

structure WindowMeta where
  start : String
  end_ : String
  days : Int

structure LatencyContract (F : Type) where
  sampled : Bool
  row_count : Nat
  window : WindowMeta
  latency : LatencyFigures F
  outcomes : List OutcomeRow
  by_model : List (ModelRow F)

def DEFAULT_ROW_CAP : Nat := 5000

def TOP_MODELS : Nat := 8

def latency_figures (acc : Accumulators F) : LatencyFigures F :=
  let durations := ops.sort acc.durations
  let ttfts := ops.sort acc.ttfts
  let tok_per_sec := ops.sort acc.tok_per_sec
  { p50_ms := percentile durations 50
    p95_ms := percentile durations 95
    p99_ms := percentile durations 99
    avg_ms := if durations = [] then none else some (ops.mean durations)
    ttft_p50_ms := percentile ttfts 50
    ttft_p95_ms := percentile ttfts 95
    tokens_per_sec_p50 := percentile tok_per_sec 50 }

/-- The outcomes, by count; outcomes of one count keep their order. -/
def outcome_rows (acc : Accumulators F) : List OutcomeRow :=
  (acc.outcomes.map fun (s, c) => { status := s, count := c }).insertionSort
    fun a b => b.count ≤ a.count

def model_row (model : PyStr) (rec : ModelRecord F) : ModelRow F :=
  let mdurs := ops.sort rec.durations
  { model, requests := rec.requests, failed := rec.failed
    p50_ms := percentile mdurs 50, p95_ms := percentile mdurs 95 }

/-- The models by requests, before the cut. -/
def model_rows (acc : Accumulators F) : List (ModelRow F) :=
  (acc.per_model.map fun (model, rec) => model_row ops model rec).insertionSort
    fun a b => b.requests ≤ a.requests

/-- The rows that are folded. -/
def capped {α : Type} (row_cap : Nat) (rows : List α) : List α :=
  if rows.length > row_cap then rows.take row_cap else rows

/-- The contract of folded rows. -/
def contract_of (sampled : Bool) (row_count : Nat) (window : WindowMeta) (acc : Accumulators F) :
    LatencyContract F :=
  { sampled, row_count, window
    latency := latency_figures ops acc
    outcomes := outcome_rows acc
    by_model := (model_rows ops acc).take TOP_MODELS }

def compute_latency_contract (rows : List (PyValue F)) (window : WindowMeta) (row_cap : Nat)
    (truncated : Bool) : Except PyError (LatencyContract F) := do
  let sampled := truncated || decide (rows.length > row_cap)
  let safe := capped row_cap rows
  let acc ← fold_rows ops fromisoformat safe
  return contract_of ops sampled safe.length window acc

end

/-! ## What the figures should be -/

def TextOrAbsent : PyValue Rat → Prop
  | .null => True
  | .str _ => True
  | _ => False

def NumberOrAbsent : PyValue Rat → Prop
  | .null => True
  | .int _ => True
  | .float _ => True
  | _ => False

/-- A time in UTC, or none. -/
def UtcOrAbsent (fromisoformat : PyStr → Option DateTime) (value : PyValue Rat) : Prop :=
  ∀ d, parse_iso fromisoformat value = some d → d.offset = some 0

/-- A row as LiteLLM writes it. -/
structure LeanRow (fromisoformat : PyStr → Option DateTime) (row : List (PyStr × PyValue Rat)) :
    Prop where
  model_group : TextOrAbsent (PyValue.get row "model_group")
  model : TextOrAbsent (PyValue.get row "model")
  status : TextOrAbsent (PyValue.get row "status")
  duration : NumberOrAbsent (PyValue.get row "request_duration_ms")
  tokens : NumberOrAbsent (PyValue.get row "completion_tokens")
  start : UtcOrAbsent fromisoformat (PyValue.get row "startTime")
  first : UtcOrAbsent fromisoformat (PyValue.get row "completionStartTime")
  end_ : UtcOrAbsent fromisoformat (PyValue.get row "endTime")

def numeric : PyValue Rat → Option Rat
  | .int n => some n
  | .float x => some x
  | _ => none

/-- The recorded duration of a row. -/
def duration_of (row : List (PyStr × PyValue Rat)) : Option Rat :=
  (numeric (PyValue.get row "request_duration_ms")).filter (0 ≤ ·)

/-- The model a row is shown under. -/
def shown_model (row : List (PyStr × PyValue Rat)) : PyStr :=
  match PyValue.get row "model_group", PyValue.get row "model" with
  | .str group, .str model =>
      if group = [] then (if model = [] then lit "unknown" else model) else group
  | .str group, _ => if group = [] then lit "unknown" else group
  | _, .str model => if model = [] then lit "unknown" else model
  | _, _ => lit "unknown"

section
variable (fromisoformat : PyStr → Option DateTime)

/-- The instant of a UTC time. -/
def instant (value : PyValue Rat) : Option Int := (parse_iso fromisoformat value).map (·.clock)

/-- The time to the first token of a row: it is not MCP traffic, and its first
    token came no earlier than its start and before its end. -/
def first_token_of (row : List (PyStr × PyValue Rat)) : Option Rat :=
  match instant fromisoformat (PyValue.get row "startTime"),
    instant fromisoformat (PyValue.get row "completionStartTime"),
    instant fromisoformat (PyValue.get row "endTime") with
  | some start, some first, some end_ =>
      if isMcp (shown_model row) = false ∧ start ≤ first ∧ first < end_ then
        some ((first - start : Int) / 1000)
      else none
  | _, _, _ => none

/-- A figure is the percentile of some values, none if there are none. -/
def IsFigure (p : Rat) (vals : List Rat) : Option Rat → Prop
  | none => vals = []
  | some v => Percentile.IsPercentile p vals v

/-- The contract of some rows: its figures are the order statistics of what the
    rows record, every row is counted in one outcome and in one model, and the
    models with the most requests are shown. -/
structure RightFigures (rows : List (List (PyStr × PyValue Rat))) (c : LatencyContract Rat)
    (all_models : List (ModelRow Rat)) : Prop where
  row_count : c.row_count = rows.length
  outcomes : (c.outcomes.map (·.count)).sum = rows.length
  outcomes_nodup : (c.outcomes.map (·.status)).Nodup
  outcome : ∀ o ∈ c.outcomes,
    o.count = rows.countP fun row => status_label (PyValue.get row "status") = o.status
  models : (all_models.map (·.requests)).sum = rows.length
  models_nodup : (all_models.map (·.model)).Nodup
  model : ∀ m ∈ all_models, m.requests = rows.countP fun row => shown_model row = m.model
  ranked : all_models.Pairwise fun a b => b.requests ≤ a.requests
  /-- The cut. -/
  by_model : c.by_model = all_models.take TOP_MODELS
  p50 : IsFigure 50 (rows.filterMap duration_of) c.latency.p50_ms
  p95 : IsFigure 95 (rows.filterMap duration_of) c.latency.p95_ms
  p99 : IsFigure 99 (rows.filterMap duration_of) c.latency.p99_ms
  ttft_p50 : IsFigure 50 (rows.filterMap (first_token_of fromisoformat)) c.latency.ttft_p50_ms
  ttft_p95 : IsFigure 95 (rows.filterMap (first_token_of fromisoformat)) c.latency.ttft_p95_ms
  ordered : ∀ x y z, c.latency.p50_ms = some x → c.latency.p95_ms = some y →
    c.latency.p99_ms = some z → x ≤ y ∧ y ≤ z

/-- Two contracts with the same figures, and with the same outcomes and, before
    the cut, the same models up to their order. -/
structure SameFigures (c c' : LatencyContract Rat) (all_models all_models' : List (ModelRow Rat)) :
    Prop where
  latency : c.latency = c'.latency
  outcomes : c.outcomes.Perm c'.outcomes
  models : all_models.Perm all_models'

end

/-! ## Reading a row -/

section
variable {ofText : PyStr → Option Rat} {fromisoformat : PyStr → Option DateTime}

theorem latency_num_numeric {value : PyValue Rat} (h : NumberOrAbsent value) :
    latency_num (exact ofText) value = .ok (numeric value) := by
  cases value with
  | null => rfl
  | int n => rfl
  | float x => rfl
  | bool b => exact absurd h not_false
  | str s => exact absurd h not_false
  | arr items => exact absurd h not_false
  | obj fields => exact absurd h not_false

theorem TextOrAbsent.cases {value : PyValue Rat} (h : TextOrAbsent value) :
    value = .null ∨ ∃ s, value = .str s := by
  cases value with
  | null => exact .inl rfl
  | str s => exact .inr ⟨s, rfl⟩
  | bool b => exact absurd h not_false
  | int n => exact absurd h not_false
  | float x => exact absurd h not_false
  | arr items => exact absurd h not_false
  | obj fields => exact absurd h not_false

theorem model_text_shown {row : List (PyStr × PyValue Rat)} (h : LeanRow fromisoformat row) :
    model_text (row_model (exact ofText) row) = .ok (shown_model row) := by
  unfold row_model shown_model
  -- the group is taken unless it is missing or empty, and then the model
  rcases h.model_group.cases with hgroup | ⟨g, hgroup⟩ <;>
    rcases h.model.cases with hmodel | ⟨m, hmodel⟩ <;> rw [hgroup, hmodel]
  · rfl
  · by_cases hm : m = []
    · subst hm
      rfl
    · simp [PyValue.truthy, hm, model_text]
  · by_cases hg : g = []
    · subst hg
      rfl
    · simp [PyValue.truthy, hg, model_text]
  · by_cases hg : g = []
    · subst hg
      by_cases hm : m = []
      · subst hm
        rfl
      · simp [PyValue.truthy, hm, model_text]
    · simp [PyValue.truthy, hg, model_text]

/-- UTC times are compared and subtracted by their clocks. -/
theorem align_utc {a b : DateTime} (ha : a.offset = some 0) (hb : b.offset = some 0) :
    a.align b = .ok (a.clock, b.clock) := by
  unfold DateTime.align
  rw [ha, hb]
  simp

theorem ttft_ms_first_token {row : List (PyStr × PyValue Rat)} (h : LeanRow fromisoformat row) :
    ttft_ms (exact ofText) fromisoformat (shown_model row) row =
      .ok (first_token_of fromisoformat row) := by
  unfold ttft_ms first_token_of instant
  have hstart := h.start
  have hfirst := h.first
  have hend := h.end_
  unfold UtcOrAbsent at hstart hfirst hend
  generalize parse_iso fromisoformat (PyValue.get row "startTime") = start at hstart ⊢
  generalize parse_iso fromisoformat (PyValue.get row "completionStartTime") = first at hfirst ⊢
  generalize parse_iso fromisoformat (PyValue.get row "endTime") = end_ at hend ⊢
  -- a tool call has no first token
  by_cases hmcp : isMcp (shown_model row) = true
  · rw [if_pos hmcp]
    cases start <;> cases first <;> cases end_ <;> simp [hmcp]
  · rw [if_neg hmcp]
    have hmcp' : isMcp (shown_model row) = false := Bool.eq_false_iff.mpr hmcp
    cases start with
    | none => rfl
    | some s =>
      cases first with
      | none => rfl
      | some f =>
        cases end_ with
        | none => rfl
        | some e =>
          have hs := hstart s rfl
          have hf := hfirst f rfl
          have he := hend e rfl
          dsimp only [Option.map_some]
          rw [align_utc hf he, align_utc hf hs]
          show (if f.clock ≥ e.clock then Except.ok none else
            Except.ok (if (exact ofText).nonneg ((exact ofText).millis (f.clock - s.clock)) then
              some ((exact ofText).millis (f.clock - s.clock)) else none)) = _
          -- a first token at the end or after it is not taken
          by_cases hlate : f.clock ≥ e.clock
          · rw [if_pos hlate, if_neg]
            omega
          · rw [if_neg hlate]
            congr 1
            -- the sign of the quotient is that of the difference of the clocks
            have hsign : (exact ofText).nonneg ((exact ofText).millis (f.clock - s.clock)) =
                decide (s.clock ≤ f.clock) := by
              show decide ((0 : Rat) ≤ ((f.clock - s.clock : Int) : Rat) / 1000) = _
              have hpos : (0 : Rat) < 1000 := by decide
              rw [decide_eq_decide, le_div_iff₀ hpos, zero_mul, Int.cast_nonneg_iff, Int.sub_nonneg]
            rw [hsign]
            by_cases hle : s.clock ≤ f.clock
            · rw [if_pos (decide_eq_true hle), if_pos ⟨hmcp', hle, by omega⟩]
              rfl
            · rw [if_neg (by simpa using hle), if_neg (fun h => hle h.2.1)]

/-- A rate of exact numbers never divides by zero. -/
theorem rate_of_exact (out dur : Option Rat) :
    ∃ rate, rate_of (exact ofText) out dur = .ok rate := by
  unfold rate_of
  cases out with
  | none => exact ⟨none, rfl⟩
  | some out =>
    cases dur with
    | none => exact ⟨none, rfl⟩
    | some dur =>
      dsimp only
      by_cases hguard : ((exact ofText).isZero out || (exact ofText).isZero dur ||
          (exact ofText).nonpos dur) = true
      · rw [if_pos hguard]
        exact ⟨none, rfl⟩
      · rw [if_neg hguard]
        have hdur : dur ≠ 0 := by
          intro hzero
          apply hguard
          rw [hzero]
          simp [exact]
        have hrate : (exact ofText).rate out dur = some (out / (dur / 1000)) := by
          show (if dur / 1000 = 0 then none else some (out / (dur / 1000))) = _
          rw [if_neg (div_ne_zero hdur (by decide))]
        rw [hrate]
        exact ⟨_, rfl⟩

theorem read_row_lean {row : List (PyStr × PyValue Rat)} (h : LeanRow fromisoformat row) :
    ∃ read, read_row (exact ofText) fromisoformat row = .ok read ∧
      read.duration = duration_of row ∧ read.ttft = first_token_of fromisoformat row ∧
      read.model = shown_model row ∧ read.label = status_label (PyValue.get row "status") := by
  obtain ⟨rate, hrate⟩ := @rate_of_exact ofText
    (numeric (PyValue.get row "completion_tokens")) (numeric (PyValue.get row "request_duration_ms"))
  have htps : tokens_per_sec (exact ofText) row = .ok rate := by
    unfold tokens_per_sec
    rw [latency_num_numeric h.tokens, latency_num_numeric h.duration]
    exact hrate
  refine ⟨⟨shown_model row, status_label (PyValue.get row "status"),
    is_failure (PyValue.get row "status"), duration_of row, first_token_of fromisoformat row, rate⟩,
    ?_, rfl, rfl, rfl, rfl⟩
  unfold read_row
  rw [model_text_shown h, latency_num_numeric h.duration, htps]
  show (ttft_ms (exact ofText) fromisoformat (shown_model row) row >>= fun ttft => _) = _
  rw [ttft_ms_first_token h]
  rfl

end

/-! ## Folding the rows -/

section
variable {F : Type} {ops : Floats F} {fromisoformat : PyStr → Option DateTime}

theorem record_foldl (reads : List (RowRead F)) :
    reads.foldl ModelRecord.add ⟨0, 0, []⟩ =
      ⟨reads.length, reads.countP (·.failed), reads.filterMap (·.duration)⟩ := by
  induction reads using List.reverseRecOn with
  | nil => rfl
  | append_singleton reads read ih =>
    rw [List.foldl_append, ih, List.length_append, List.countP_append, List.filterMap_append]
    have hduration : [read].filterMap (·.duration) = read.duration.toList := by
      cases hd : read.duration <;> simp [hd]
    rw [hduration]
    by_cases hfailed : read.failed = true
    · simp [ModelRecord.add, hfailed]
    · simp [ModelRecord.add, hfailed]

/-- A fold that counts. -/
theorem foldl_count {α : Type} (items : List α) : items.foldl (fun n _ => n + 1) 0 = items.length := by
  induction items using List.reverseRecOn with
  | nil => rfl
  | append_singleton items a ih =>
    rw [List.foldl_append, ih, List.length_append]
    rfl

/-- What a whole run leaves in the five accumulators. -/
theorem accumulators_foldl (reads : List (RowRead F)) :
    reads.foldl Accumulators.add .empty =
      { durations := reads.filterMap (·.duration)
        ttfts := reads.filterMap (·.ttft)
        tok_per_sec := reads.filterMap (·.rate)
        outcomes := Groups.group RowRead.label 0 (fun n _ => n + 1) reads
        per_model := Groups.group RowRead.model ⟨0, 0, []⟩ ModelRecord.add reads } := by
  have hone {α : Type} (f : RowRead F → Option α) (read : RowRead F) :
      [read].filterMap f = (f read).toList := by
    cases hd : f read <;> simp [hd]
  induction reads using List.reverseRecOn with
  | nil => rfl
  | append_singleton reads read ih =>
    rw [List.foldl_append, ih, List.filterMap_append, List.filterMap_append, List.filterMap_append,
      hone, hone, hone, Groups.group_append, Groups.group_append]
    rfl

/-- Ranking changes no outcome, and no model. -/
theorem outcome_rows_perm (acc : Accumulators F) :
    (outcome_rows acc).Perm (acc.outcomes.map fun (s, c) => { status := s, count := c }) :=
  List.perm_insertionSort _ _

theorem model_rows_perm (ops : Floats F) (acc : Accumulators F) :
    (model_rows ops acc).Perm
      (acc.per_model.map fun (model, rec) => model_row ops model rec) :=
  List.perm_insertionSort _ _

/-- A model has as many requests as there are rows of it. -/
theorem requests_model_rows {reads : List (RowRead F)} :
    ∀ m ∈ model_rows ops (reads.foldl Accumulators.add .empty),
      m.requests = (reads.map (·.model)).countP (· = m.model) := by
  intro m hm
  rw [(model_rows_perm ops _).mem_iff, accumulators_foldl] at hm
  obtain ⟨⟨model, rec⟩, hgroup, rfl⟩ := List.mem_map.mp hm
  obtain ⟨-, hrec⟩ := (Groups.mem_group_iff reads model rec).mp hgroup
  rw [hrec, record_foldl, List.countP_map]
  exact Groups.itemsOf_length reads model

/-- Rows that can be read are folded one after the other. -/
theorem foldlM_fold_row {rows : List (List (PyStr × PyValue F))} {reads : List (RowRead F)}
    (h : List.Forall₂ (fun row read => read_row ops fromisoformat row = .ok read) rows reads)
    (acc : Accumulators F) :
    (rows.map PyValue.obj).foldlM (fold_row ops fromisoformat) acc =
      .ok (reads.foldl Accumulators.add acc) := by
  induction h generalizing acc with
  | nil => rfl
  | @cons row read rows reads hread hrest ih =>
    rw [List.map_cons, List.foldlM_cons]
    have hstep : fold_row ops fromisoformat acc (.obj row) = .ok (acc.add read) := by
      show (do return acc.add (← read_row ops fromisoformat row)) = _
      rw [hread]
      rfl
    rw [hstep]
    exact ih (acc.add read)

theorem fold_rows_eq {rows : List (List (PyStr × PyValue F))} {reads : List (RowRead F)}
    (h : List.Forall₂ (fun row read => read_row ops fromisoformat row = .ok read) rows reads) :
    fold_rows ops fromisoformat (rows.map PyValue.obj) =
      .ok (reads.foldl Accumulators.add .empty) :=
  foldlM_fold_row h .empty

end

/-! ## Sorted figures -/

section
variable {ofText : PyStr → Option Rat}

theorem sort_sorted (xs : List Rat) : ((exact ofText).sort xs).Pairwise (· ≤ ·) :=
  List.pairwise_insertionSort _ _

theorem sort_perm (xs : List Rat) : ((exact ofText).sort xs).Perm xs :=
  List.perm_insertionSort _ _

/-- Sorted, two orders of the same values are one list. -/
theorem sort_eq_of_perm {xs ys : List Rat} (h : xs.Perm ys) :
    (exact ofText).sort xs = (exact ofText).sort ys := by
  have hperm : ((exact ofText).sort xs).Perm ((exact ofText).sort ys) :=
    ((sort_perm xs).trans h).trans (sort_perm ys).symm
  exact hperm.eq_of_pairwise' (sort_sorted xs) (sort_sorted ys)

/-- The nearest rank is the percentile. -/
theorem isFigure_percentile {p : Rat} (hpos : 0 < p) (hle : p ≤ 100) (xs : List Rat) :
    IsFigure p xs (percentile ((exact ofText).sort xs) p) := by
  have hperm := @sort_perm ofText xs
  have hsorted := @sort_sorted ofText xs
  unfold percentile
  generalize (exact ofText).sort xs = sorted at hperm hsorted ⊢
  dsimp only
  by_cases hnil : sorted.length = 0
  · rw [if_pos hnil]
    rw [List.length_eq_zero_iff] at hnil
    subst hnil
    exact List.nil_perm.mp hperm
  · rw [if_neg hnil, if_neg (not_le.mpr hpos)]
    have hn : (0 : Rat) < sorted.length := Nat.cast_pos.mpr (Nat.pos_of_ne_zero hnil)
    have hpart : 0 < p / 100 * sorted.length := mul_pos (div_pos hpos (by decide)) hn
    -- the rank is between 1 and the length
    obtain ⟨c, hc⟩ : ∃ c, c = Rat.ceil (p / 100 * sorted.length) := ⟨_, rfl⟩
    have hfirst : 0 < c := by
      rw [hc, Rat.lt_ceil_iff]
      exact hpart
    have hlast : c ≤ sorted.length := by
      rw [hc, Rat.ceil_le_iff]
      have hpercent : p / 100 ≤ 1 := by
        rw [div_le_iff₀ (by decide)]
        linarith
      have hmul := mul_le_mul_of_nonneg_right hpercent hn.le
      rw [one_mul] at hmul
      exact hmul
    have hbelow : ((c : Int) : Rat) < p / 100 * sorted.length + 1 := hc ▸ Rat.ceil_lt
    have habove : p / 100 * sorted.length ≤ ((c : Int) : Rat) := hc ▸ Rat.le_ceil
    rw [← hc]
    obtain ⟨k, hk⟩ : ∃ k : Nat, c = k + 1 := ⟨(c - 1).toNat, by omega⟩
    have hclamp : (min (max (c - 1) 0) ((sorted.length : Int) - 1)).toNat = k := by omega
    have hlt : k < sorted.length := by omega
    rw [hclamp, List.getElem?_eq_getElem hlt]
    have hcast : ((c : Int) : Rat) = (k : Rat) + 1 := by
      rw [hk]
      push_cast
      rfl
    have hscale : p / 100 * sorted.length = p * sorted.length / 100 := div_mul_eq_mul_div p 100 _
    rw [hcast, hscale] at hbelow habove
    apply Percentile.IsPercentile.perm hperm
    apply Percentile.isPercentile_get hsorted hlt
    · linarith
    · push_cast
      linarith

theorem IsFigure.perm {p : Rat} {xs ys : List Rat} (h : xs.Perm ys) {figure : Option Rat}
    (hfigure : IsFigure p xs figure) : IsFigure p ys figure := by
  cases figure with
  | none =>
    have hnil : xs = [] := hfigure
    subst hnil
    exact List.nil_perm.mp h
  | some v => exact Percentile.IsPercentile.perm h hfigure

end

/-! ## The contract -/

section
variable {ofText : PyStr → Option Rat} {fromisoformat : PyStr → Option DateTime}

/-- What a run of the fold has read of some rows. -/
structure ReadOf (fromisoformat : PyStr → Option DateTime)
    (rows : List (List (PyStr × PyValue Rat))) (reads : List (RowRead Rat)) : Prop where
  durations : reads.filterMap (·.duration) = rows.filterMap duration_of
  ttfts : reads.filterMap (·.ttft) = rows.filterMap (first_token_of fromisoformat)
  models : reads.map (·.model) = rows.map shown_model
  labels : reads.map (·.label) = rows.map fun row => status_label (PyValue.get row "status")

/-- Lean rows are all read, with what they record. -/
theorem reads_exist {rows : List (List (PyStr × PyValue Rat))}
    (hlean : ∀ row ∈ rows, LeanRow fromisoformat row) :
    ∃ reads, List.Forall₂ (fun row read => read_row (exact ofText) fromisoformat row = .ok read)
        rows reads ∧ ReadOf fromisoformat rows reads := by
  induction rows with
  | nil => exact ⟨[], .nil, rfl, rfl, rfl, rfl⟩
  | cons row rows ih =>
    obtain ⟨read, hread, hduration, httft, hmodel, hlabel⟩ :=
      @read_row_lean ofText _ _ (hlean row List.mem_cons_self)
    obtain ⟨reads, hreads, hof⟩ := ih fun row hrow => hlean row (List.mem_cons_of_mem _ hrow)
    refine ⟨read :: reads, .cons hread hreads, ?_, ?_, ?_, ?_⟩
    · rw [List.filterMap_cons, List.filterMap_cons, hduration, hof.durations]
    · rw [List.filterMap_cons, List.filterMap_cons, httft, hof.ttfts]
    · rw [List.map_cons, List.map_cons, hmodel, hof.models]
    · rw [List.map_cons, List.map_cons, hlabel, hof.labels]

/-- Rows and reads go together in any order. -/
theorem ReadOf.length {rows : List (List (PyStr × PyValue Rat))} {reads : List (RowRead Rat)}
    (h : ReadOf fromisoformat rows reads) : reads.length = rows.length := by
  have hlength := congrArg List.length h.models
  rwa [List.length_map, List.length_map] at hlength

/-- The models with the most requests come first. -/
theorem model_rows_ranked (acc : Accumulators Rat) :
    (model_rows (exact ofText) acc).Pairwise fun a b => b.requests ≤ a.requests := by
  have htotal : Std.Total fun a b : ModelRow Rat => b.requests ≤ a.requests :=
    ⟨fun a b => Nat.le_total b.requests a.requests⟩
  have htrans : IsTrans (ModelRow Rat) fun a b => b.requests ≤ a.requests :=
    ⟨fun _ _ _ hab hbc => Nat.le_trans hbc hab⟩
  exact List.pairwise_insertionSort _ _

theorem right_of_reads {rows : List (List (PyStr × PyValue Rat))} {reads : List (RowRead Rat)}
    (h : ReadOf fromisoformat rows reads) (sampled : Bool) (window : WindowMeta) :
    RightFigures fromisoformat rows
      (contract_of (exact ofText) sampled rows.length window (reads.foldl Accumulators.add .empty))
      (model_rows (exact ofText) (reads.foldl Accumulators.add .empty)) := by
  have houtcomes := outcome_rows_perm (reads.foldl Accumulators.add .empty)
  have hmodels := model_rows_perm (exact ofText) (reads.foldl Accumulators.add .empty)
  have hrequests := @requests_model_rows _ (exact ofText) reads
  have hranked := @model_rows_ranked ofText (reads.foldl Accumulators.add .empty)
  have hfigure (p : Rat) (hpos : 0 < p) (hle : p ≤ 100) (xs : List Rat) :
      IsFigure p xs (percentile ((exact ofText).sort xs) p) := isFigure_percentile hpos hle xs
  have h50 := hfigure 50 (by decide) (by decide) (rows.filterMap duration_of)
  have h95 := hfigure 95 (by decide) (by decide) (rows.filterMap duration_of)
  have h99 := hfigure 99 (by decide) (by decide) (rows.filterMap duration_of)
  -- the accumulators are groups of the reads, and the reads are those of the rows
  unfold contract_of
  rw [accumulators_foldl, h.durations, h.ttfts] at houtcomes hmodels hrequests hranked ⊢
  constructor
  · rfl
  · rw [(houtcomes.map _).sum_eq, List.map_map, ← h.length]
    exact Groups.sum_group (fun n => n) rfl (fun _ _ => rfl) reads
  · rw [(houtcomes.map _).nodup_iff, List.map_map]
    exact Groups.group_nodup reads
  · intro o ho
    obtain ⟨⟨label, count⟩, hgroup, rfl⟩ := List.mem_map.mp (houtcomes.mem_iff.mp ho)
    obtain ⟨-, hcount⟩ := (Groups.mem_group_iff reads label count).mp hgroup
    -- an outcome counts the rows of its label
    have hlabels := congrArg (List.countP (· = label)) h.labels
    rw [List.countP_map, List.countP_map] at hlabels
    rw [hcount, foldl_count, Groups.itemsOf_length]
    exact hlabels
  · rw [(hmodels.map _).sum_eq, List.map_map, ← h.length]
    exact Groups.sum_group ModelRecord.requests rfl (fun _ _ => rfl) reads
  · rw [(hmodels.map _).nodup_iff, List.map_map]
    exact Groups.group_nodup reads
  · intro m hm
    rw [hrequests m hm, h.models, List.countP_map]
    rfl
  · exact hranked
  · rfl
  · exact h50
  · exact h95
  · exact h99
  · exact hfigure 50 (by decide) (by decide) _
  · exact hfigure 95 (by decide) (by decide) _
  · intro x y z hx hy hz
    have hx' : percentile ((exact ofText).sort (rows.filterMap duration_of)) 50 = some x := hx
    have hy' : percentile ((exact ofText).sort (rows.filterMap duration_of)) 95 = some y := hy
    have hz' : percentile ((exact ofText).sort (rows.filterMap duration_of)) 99 = some z := hz
    rw [hx'] at h50
    rw [hy'] at h95
    rw [hz'] at h99
    exact ⟨Percentile.IsPercentile.mono (by decide) h50 h95,
      Percentile.IsPercentile.mono (by decide) h95 h99⟩

/-- The order of the rows changes no figure. -/
theorem same_of_perm {reads reads' : List (RowRead Rat)} (h : reads.Perm reads') (sampled : Bool)
    (row_count : Nat) (window : WindowMeta) :
    SameFigures
      (contract_of (exact ofText) sampled row_count window (reads.foldl Accumulators.add .empty))
      (contract_of (exact ofText) sampled row_count window (reads'.foldl Accumulators.add .empty))
      (model_rows (exact ofText) (reads.foldl Accumulators.add .empty))
      (model_rows (exact ofText) (reads'.foldl Accumulators.add .empty)) := by
  rw [accumulators_foldl, accumulators_foldl]
  constructor
  · have hdurations := @sort_eq_of_perm ofText _ _ (h.filterMap RowRead.duration)
    have httfts := @sort_eq_of_perm ofText _ _ (h.filterMap RowRead.ttft)
    have hrates := @sort_eq_of_perm ofText _ _ (h.filterMap RowRead.rate)
    unfold contract_of latency_figures
    dsimp only
    rw [hdurations, httfts, hrates]
  · -- a count does not depend on the order of its rows
    have hgroups := @Groups.group_perm _ _ _ _ RowRead.label 0 (fun n _ => n + 1) _ (fun n => n) _ _ h
      (by
        intro k
        rw [foldl_count, foldl_count]
        exact (h.filter _).length_eq)
    have hrows := hgroups.map fun row : PyStr × Nat => (⟨row.1, row.2⟩ : OutcomeRow)
    rw [List.map_map, List.map_map] at hrows
    exact (List.perm_insertionSort _ _).trans (hrows.trans (List.perm_insertionSort _ _).symm)
  · have hgroups := @Groups.group_perm _ _ _ _ RowRead.model ⟨0, 0, []⟩ ModelRecord.add _
      (fun rec => (rec.requests, rec.failed, (exact ofText).sort rec.durations)) _ _ h (by
        intro k
        have hitems : (Groups.itemsOf RowRead.model reads k).Perm
            (Groups.itemsOf RowRead.model reads' k) := h.filter _
        rw [record_foldl, record_foldl]
        dsimp only
        rw [hitems.length_eq, hitems.countP_eq, sort_eq_of_perm (hitems.filterMap RowRead.duration)])
    have hrows := hgroups.map fun row : PyStr × Nat × Nat × List Rat =>
      (⟨row.1, row.2.1, row.2.2.1, percentile row.2.2.2 50, percentile row.2.2.2 95⟩ : ModelRow Rat)
    rw [List.map_map, List.map_map] at hrows
    exact (List.perm_insertionSort _ _).trans (hrows.trans (List.perm_insertionSort _ _).symm)

theorem capped_map {α β : Type} (f : α → β) (row_cap : Nat) (rows : List α) :
    capped row_cap (rows.map f) = (capped row_cap rows).map f := by
  unfold capped
  rw [List.length_map]
  by_cases h : rows.length > row_cap
  · rw [if_pos h, if_pos h, List.map_take]
  · rw [if_neg h, if_neg h]

theorem mem_of_mem_capped {α : Type} {row_cap : Nat} {rows : List α} {row : α}
    (h : row ∈ capped row_cap rows) : row ∈ rows := by
  unfold capped at h
  split at h
  · exact List.mem_of_mem_take h
  · exact h

/-- A row has one read. -/
theorem reads_unique {rows : List (List (PyStr × PyValue Rat))} {reads reads' : List (RowRead Rat)}
    (h : List.Forall₂ (fun row read => read_row (exact ofText) fromisoformat row = .ok read) rows reads)
    (h' : List.Forall₂ (fun row read => read_row (exact ofText) fromisoformat row = .ok read) rows
      reads') : reads = reads' := by
  induction h generalizing reads' with
  | nil =>
    cases h'
    rfl
  | cons hread _ ih =>
    cases h' with
    | cons hread' hrest' =>
      rw [Except.ok.inj (hread.symm.trans hread'), ih hrest']

/-- The contract of rows that can be read. -/
theorem compute_eq {rows : List (List (PyStr × PyValue Rat))} {row_cap : Nat}
    {reads : List (RowRead Rat)} (window : WindowMeta) (truncated : Bool)
    (h : List.Forall₂ (fun row read => read_row (exact ofText) fromisoformat row = .ok read)
      (capped row_cap rows) reads) :
    compute_latency_contract (exact ofText) fromisoformat (rows.map PyValue.obj) window row_cap
        truncated =
      .ok (contract_of (exact ofText) (truncated || decide (rows.length > row_cap))
        (capped row_cap rows).length window (reads.foldl Accumulators.add .empty)) := by
  unfold compute_latency_contract
  rw [List.length_map]
  dsimp only
  rw [capped_map, fold_rows_eq h, List.length_map]
  rfl

/-- In exact arithmetic the figures of lean rows are right, and the order of the
    rows does not matter as long as none is cut off. -/
theorem latency_right (ofText : PyStr → Option Rat) (fromisoformat : PyStr → Option DateTime)
    {rows : List (List (PyStr × PyValue Rat))} (hlean : ∀ row ∈ rows, LeanRow fromisoformat row)
    (window : WindowMeta) (row_cap : Nat) (truncated : Bool) :
    ∃ c models,
      compute_latency_contract (exact ofText) fromisoformat (rows.map PyValue.obj) window row_cap
          truncated = .ok c ∧
      RightFigures fromisoformat (capped row_cap rows) c models ∧
      ∀ rows', rows.Perm rows' → rows.length ≤ row_cap → ∃ c' models',
        compute_latency_contract (exact ofText) fromisoformat (rows'.map PyValue.obj) window row_cap
            truncated = .ok c' ∧
        RightFigures fromisoformat rows' c' models' ∧ SameFigures c c' models models' := by
  obtain ⟨reads, hreads, hof⟩ := @reads_exist ofText _
    (capped row_cap rows) fun row hrow => hlean row (mem_of_mem_capped hrow)
  refine ⟨_, _, compute_eq window truncated hreads, right_of_reads hof _ window, ?_⟩
  intro rows' hperm hcap
  have hwhole {l : List (List (PyStr × PyValue Rat))} (hl : l.length ≤ row_cap) :
      capped row_cap l = l := if_neg (not_lt.mpr hl)
  have hcap' : rows'.length ≤ row_cap := by
    rw [← hperm.length_eq]
    exact hcap
  -- the rows in the other order have the same reads, in that order
  rw [hwhole hcap] at hreads ⊢
  obtain ⟨reads', hreads', hsame⟩ := List.perm_comp_forall₂ hperm.symm hreads
  obtain ⟨reads'', hreads'', hof''⟩ := @reads_exist ofText _
    rows' fun row hrow => hlean row (hperm.mem_iff.mpr hrow)
  obtain rfl := reads_unique hreads' hreads''
  have hcompute := @compute_eq ofText fromisoformat _ row_cap _ window truncated (by
    rw [hwhole hcap']
    exact hreads')
  rw [hwhole hcap'] at hcompute
  refine ⟨_, _, hcompute, right_of_reads hof'' _ window, ?_⟩
  rw [← hperm.length_eq]
  exact same_of_perm hsame.symm _ _ window

end

/-- `datetime.fromisoformat` on three texts. -/
def tenOClock (text : PyStr) : Option DateTime :=
  if text = lit "2026-06-04T10:00:00+00:00" then some ⟨63916250400000000, some 0⟩
  else if text = lit "2026-06-04T10:00:01+00:00" then some ⟨63916250401000000, some 0⟩
  else if text = lit "2026-06-04T10:00:03+00:00" then some ⟨63916250403000000, some 0⟩
  else none

/-- A row that starts at ten o'clock. -/
def spend_row (model status first end_ : String) (duration : PyValue Rat) :
    List (PyStr × PyValue Rat) :=
  [("request_duration_ms", duration), ("status", .text status), ("model_group", .text model),
    ("completion_tokens", .int 10), ("startTime", .text "2026-06-04T10:00:00Z"),
    ("completionStartTime", .text first), ("endTime", .text end_)].map
    fun field => (lit field.1, field.2)

/-- A row of 200 ms that was not streamed. -/
def sample_row : List (PyStr × PyValue Rat) :=
  spend_row "m" "success" "2026-06-04T10:00:00Z" "2026-06-04T10:00:00Z" (.int 200)

/-- It, a streamed row, a failed one, a call of a tool, and a row of another
    model without a status. -/
def sample_rows : List (List (PyStr × PyValue Rat)) :=
  [sample_row,
    spend_row "m" "success" "2026-06-04T10:00:01Z" "2026-06-04T10:00:03Z" (.int 3000),
    spend_row "m" "failure" "" "" .null,
    spend_row "MCP: list" "success" "2026-06-04T10:00:01Z" "2026-06-04T10:00:03Z" (.int 2),
    spend_row "n" "" "" "2026-06-04T10:00:01Z" (.float (1001 / 2))]

theorem tenOClock_utc {text : PyStr} {d : DateTime} (h : tenOClock text = some d) :
    d.offset = some 0 := by
  unfold tenOClock at h
  split at h
  · cases h
    rfl
  · split at h
    · cases h
      rfl
    · split at h
      · cases h
        rfl
      · cases h

theorem spend_row_lean {model status first end_ : String} {duration : PyValue Rat}
    (h : NumberOrAbsent duration) : LeanRow tenOClock (spend_row model status first end_ duration) := by
  have hutc (value : PyValue Rat) : UtcOrAbsent tenOClock value := by
    intro d h
    unfold parse_iso at h
    split at h
    · split at h
      · cases h
      · exact tenOClock_utc h
    · cases h
  unfold spend_row
  constructor
  · rw [PyValue.get_lit]
    simp [List.lookup_cons, TextOrAbsent, PyValue.text]
  · rw [PyValue.get_lit]
    simp [List.lookup_cons, TextOrAbsent]
  · rw [PyValue.get_lit]
    simp [List.lookup_cons, TextOrAbsent, PyValue.text]
  · rw [PyValue.get_lit]
    simpa [List.lookup_cons] using h
  · rw [PyValue.get_lit]
    simp [List.lookup_cons, NumberOrAbsent]
  · exact hutc _
  · exact hutc _
  · exact hutc _

theorem sample_rows_lean : ∀ row ∈ sample_rows, LeanRow tenOClock row := by
  intro row hrow
  simp only [sample_rows, List.mem_cons, List.not_mem_nil, or_false] at hrow
  rcases hrow with rfl | rfl | rfl | rfl | rfl <;> exact spend_row_lean trivial

def june_window : WindowMeta := ⟨"2026-06-04", "2026-06-04", 1⟩

/-- Of the durations 2, 200, 500.5 and 3000 the second is in the middle, and one
    row alone has a time to the first token. -/
theorem latency_right_sample : ∃ c models,
    compute_latency_contract (exact fun _ => none) tenOClock (sample_rows.map .obj) june_window
        DEFAULT_ROW_CAP false = .ok c ∧
      c.latency.p50_ms = some 200 ∧ c.latency.p95_ms = some 3000 ∧
      c.latency.ttft_p50_ms = some 1000 ∧
      c.outcomes.map (fun o => (o.status, o.count)) =
        [(lit "success", 3), (lit "failure", 1), (lit "unknown", 1)] ∧
      RightFigures tenOClock sample_rows c models := by
  obtain ⟨c, models, hcompute, hright, -⟩ := latency_right (fun _ => none) tenOClock
    sample_rows_lean june_window DEFAULT_ROW_CAP false
  have hlatency : (compute_latency_contract (exact fun _ => none) tenOClock (sample_rows.map .obj)
      june_window DEFAULT_ROW_CAP false).toOption.map (fun c =>
        [c.latency.p50_ms, c.latency.p95_ms, c.latency.ttft_p50_ms]) =
      some [some 200, some 3000, some 1000] := by
    decide +kernel
  have houtcomes : (compute_latency_contract (exact fun _ => none) tenOClock (sample_rows.map .obj)
      june_window DEFAULT_ROW_CAP false).toOption.map (fun c =>
        c.outcomes.map fun o => (o.status, o.count)) =
      some [(lit "success", 3), (lit "failure", 1), (lit "unknown", 1)] := by
    decide +kernel
  rw [hcompute] at hlatency houtcomes
  have hfigures := Option.some.inj hlatency
  simp only [List.cons.injEq, and_true] at hfigures
  obtain ⟨hp50, hp95, httft⟩ := hfigures
  exact ⟨c, models, hcompute, hp50, hp95, httft, Option.some.inj houtcomes, hright⟩

end AlitellmAuth.Stats
