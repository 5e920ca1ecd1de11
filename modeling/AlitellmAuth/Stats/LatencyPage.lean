import Mathlib.Data.List.Dedup
import AlitellmAuth.Framework.Stable
import AlitellmAuth.Stats.SpendLogs
import AlitellmAuth.Stats.Window

/-! # The latency page

    `session.py`: `/latency` fetches the spend logs under the key of the user
    and folds them. Its docstring promises a calm answer when the key cannot be
    resolved or the logs cannot be fetched.

    * `session_latency`: the route and all of its ends.
    * `calm_iff`: when the answer is a 200. The key lookup raises its own
      exceptions, a body that is not JSON is not caught, and neither is what
      the fold or the writing of the response raises.
-/

namespace AlitellmAuth.Stats

open Calendar

/-! ## The route -/

/-- What becomes of `resolve_front_key`. -/
inductive KeyOutcome where
  | key (key : String)
  | mint_in_progress
  | unavailable

/-- An `HTTPException`. -/
structure HttpException where
  status_code : Nat
  detail : String

/-- `_user_key`. -/
def user_key : KeyOutcome → Except HttpException String
  | .key key => .ok key
  | .mint_in_progress => .error ⟨503, "key is being created, retry"⟩
  | .unavailable => .error ⟨502, "LiteLLM key unavailable"⟩

/-- How the route ends: a 200 with a contract or with the payload of
    `_latency_unavailable`, the answer of an `HTTPException`, or an exception
    that nothing catches, which is a 500. -/
inductive LatencyReply (F : Type) where
  | contract (c : LatencyContract F)
  | unavailable (reason : String)
  | http (e : HttpException)
  | crash (e : PyError)

section
variable {F : Type} (ops : Floats F) (finite : F → Bool)
  (fromisoformat : PyStr → Option DateTime)

/-- The figures of a contract. -/
def figures_of (c : LatencyContract F) : List (Option F) :=
  [c.latency.p50_ms, c.latency.p95_ms, c.latency.p99_ms, c.latency.avg_ms, c.latency.ttft_p50_ms,
    c.latency.ttft_p95_ms, c.latency.tokens_per_sec_p50] ++
    c.by_model.flatMap fun row => [row.p50_ms, row.p95_ms]

/-- The texts of a contract that come from the rows. -/
def texts_of (c : LatencyContract F) : List PyStr :=
  c.outcomes.map (·.status) ++ c.by_model.map (·.model)

/-- `JSONResponse(contract)`: a float that is not finite is a `ValueError`, and so
    is a text that cannot be encoded. -/
def render (c : LatencyContract F) : LatencyReply F :=
  if ((figures_of c).all fun figure => figure.all finite) && (texts_of c).all encodes then .contract c
  else .crash .value

/-- `session_latency` in a date range, with the rows of a key. -/
def latency_of (window : WindowMeta) (respond : Nat → PageAnswer F) : LatencyReply F :=
  match fetch_user_spend_logs respond SPEND_LOG_MAX_PAGES with
  | .error .http => .unavailable "fetch_failed"
  | .error .decode => .crash .value
  | .ok (rows, truncated) =>
      match compute_latency_contract ops fromisoformat (rows.map .obj) window DEFAULT_ROW_CAP
        truncated with
      | .error e => .crash e
      | .ok c => render finite c

/-- `session_latency`. `respond` says what becomes of the request for a page
    under a key. -/
def session_latency (today : PyDate) (start_date end_date : Option String) (outcome : KeyOutcome)
    (respond : String → Nat → PageAnswer F) : LatencyReply F :=
  match parse_stats_range today start_date end_date with
  | .error (.unprocessable detail) => .http ⟨422, detail⟩
  | .error .overflow => .crash .overflow
  | .ok (start, end_) =>
      let window : WindowMeta := ⟨start.isoformat, end_.isoformat, span_days start end_⟩
      match user_key outcome with
      | .error e => .http e
      | .ok key => latency_of ops finite fromisoformat window (respond key)

/-! ## When the answer is calm -/

/-- A 200. -/
def Calm : LatencyReply F → Prop
  | .contract _ => True
  | .unavailable _ => True
  | .http _ => False
  | .crash _ => False

/-- A value that `float` does not overflow on. -/
def Convertible (value : PyValue F) : Prop := ∀ n, value = .int n → (ops.ofInt n).isSome = true

/-- Both times are naive, or both are aware. -/
def SameZone (a b : DateTime) : Prop := a.offset.isSome = b.offset.isSome

/-- The times of a row can be compared, and subtracted if the first token came
    before the end. -/
def TimesFit (row : List (PyStr × PyValue F)) : Prop :=
  ∀ start first end_, parse_iso fromisoformat (PyValue.get row "startTime") = some start →
    parse_iso fromisoformat (PyValue.get row "completionStartTime") = some first →
      parse_iso fromisoformat (PyValue.get row "endTime") = some end_ →
        SameZone first end_ ∧
          ∀ x y, first.align end_ = .ok (x, y) → x < y → SameZone first start

/-- The rate of a row is not a division by zero. -/
def RateFits (row : List (PyStr × PyValue F)) : Prop :=
  ∀ out dur, latency_num ops (PyValue.get row "completion_tokens") = .ok (some out) →
    latency_num ops (PyValue.get row "request_duration_ms") = .ok (some dur) →
      (ops.isZero out || ops.isZero dur || ops.nonpos dur) = false →
        (ops.rate out dur).isSome = true

/-- A row that can be folded: its model is a text, its numbers are floats, its
    times fit unless it is MCP traffic, and its rate can be computed. -/
structure Foldable (row : List (PyStr × PyValue F)) : Prop where
  model : ∃ s, row_model ops row = .str s ∧ (isMcp s = false → TimesFit fromisoformat row)
  duration : Convertible ops (PyValue.get row "request_duration_ms")
  tokens : Convertible ops (PyValue.get row "completion_tokens")
  rate : RateFits ops row

/-- The recorded duration of a row, if `float` takes it. -/
def recorded (row : List (PyStr × PyValue F)) : Option F :=
  match latency_num ops (PyValue.get row "request_duration_ms") with
  | .ok dur => dur.filter ops.nonneg
  | .error _ => none

/-- The rate of a row, if there is one. -/
def rate_value (row : List (PyStr × PyValue F)) : Option F :=
  match tokens_per_sec ops row with
  | .ok tps => tps
  | .error _ => none

/-- The mean of the durations is finite, and so is the rate in the middle. -/
structure FiniteFigures (rows : List (List (PyStr × PyValue F))) : Prop where
  mean : rows.filterMap (recorded ops) ≠ [] →
    finite (ops.mean (ops.sort (rows.filterMap (recorded ops)))) = true
  rate : ∀ x, percentile (ops.sort (rows.filterMap (rate_value ops))) 50 = some x → finite x = true

/-- The models of some rows. -/
def models_of (rows : List (List (PyStr × PyValue F))) : List PyStr :=
  rows.filterMap fun row =>
    match row_model ops row with
    | .str s => some s
    | _ => none

/-- A model goes before another one: it has more requests, or as many and was met
    first. -/
def Above (models : List PyStr) (s t : PyStr) : Prop :=
  models.countP (· = t) < models.countP (· = s) ∨
    models.countP (· = s) = models.countP (· = t) ∧ models.findIdx (· = s) < models.findIdx (· = t)

instance (models : List PyStr) (s t : PyStr) : Decidable (Above models s t) :=
  inferInstanceAs (Decidable (_ ∨ _))

/-- A model is shown: few enough others go before it. -/
def Shown (models : List PyStr) (s : PyStr) : Prop :=
  s ∈ models ∧ (models.dedup.countP fun t => Above models t s) < TOP_MODELS

/-- The texts of the response can be encoded: every status, and the models that
    are shown. -/
structure Encodable (rows : List (List (PyStr × PyValue F))) : Prop where
  status : ∀ row ∈ rows, ∀ s, PyValue.get row "status" = .str s → encodes s = true
  model : ∀ s, Shown (models_of ops rows) s → encodes s = true

/-- Rows that make a response: each can be folded, the figures are finite, and the
    texts can be encoded. -/
structure Presentable (rows : List (List (PyStr × PyValue F))) : Prop where
  foldable : ∀ row ∈ rows, Foldable ops fromisoformat row
  figures : FiniteFigures ops finite rows
  texts : Encodable ops rows

/-- What the answer needs to be calm: a key; and, unless the request for the page
    that the loop ends with failed, a JSON body there and presentable rows up to
    this page. -/
def StaysCalm (outcome : KeyOutcome) (respond : String → Nat → PageAnswer F) : Prop :=
  ∃ key, outcome = .key key ∧ ∀ n, EndsAt (respond key) SPEND_LOG_MAX_PAGES 0 n →
    RequestFailed (respond key (n + 1)) ∨ ¬ NotJson (respond key (n + 1)) ∧
      Presentable ops finite fromisoformat (capped DEFAULT_ROW_CAP (pages_rows (respond key) 0 n))

/-- What the result relies on: sorting keeps the values, a finite mean of values
    from zero on has finite values only, and the milliseconds between two
    datetimes are finite. -/
structure FloatLaws : Prop where
  sort_perm : ∀ xs, (ops.sort xs).Perm xs
  mean_finite : ∀ xs, (∀ x ∈ xs, ops.nonneg x = true) → finite (ops.mean xs) = true →
    ∀ x ∈ xs, finite x = true
  millis_finite : ∀ n, finite (ops.millis n) = true

end

/-! ## One row -/

section
variable {F : Type} {ops : Floats F} {finite : F → Bool}
  {fromisoformat : PyStr → Option DateTime}

theorem exists_ok_bind {α β : Type} (x : Except PyError α) (f : α → Except PyError β) :
    (∃ b, (x >>= f) = .ok b) ↔ ∃ a, x = .ok a ∧ ∃ b, f a = .ok b := by
  cases x with
  | error e =>
    apply iff_of_false
    · intro ⟨b, h⟩
      cases h
    · intro ⟨a, h, _⟩
      cases h
  | ok a =>
    constructor
    · intro h
      exact ⟨a, rfl, h⟩
    · intro ⟨a', h, hb⟩
      cases h
      exact hb

theorem model_text_eq_iff (value : PyValue F) (s : PyStr) :
    model_text value = .ok s ↔ value = .str s := by
  cases value <;> simp [model_text]

theorem latency_num_ok_iff (value : PyValue F) :
    (∃ x, latency_num ops value = .ok x) ↔ Convertible ops value := by
  cases value with
  | int n =>
    unfold latency_num Convertible
    cases hn : ops.ofInt n with
    | none => simp [hn]
    | some x => simp [hn]
  | null => simp [latency_num, Convertible]
  | bool b => simp [latency_num, Convertible]
  | float x => simp [latency_num, Convertible]
  | str s => simp [latency_num, Convertible]
  | arr items => simp [latency_num, Convertible]
  | obj fields => simp [latency_num, Convertible]

theorem align_ok_iff (a b : DateTime) : (∃ p, a.align b = .ok p) ↔ SameZone a b := by
  unfold DateTime.align SameZone
  cases a.offset <;> cases b.offset <;> simp

theorem ttft_ms_ok_iff (model : PyStr) (row : List (PyStr × PyValue F)) :
    (∃ t, ttft_ms ops fromisoformat model row = .ok t) ↔
      (isMcp model = false → TimesFit fromisoformat row) := by
  unfold ttft_ms TimesFit
  by_cases hmcp : isMcp model = true
  · simp [hmcp]
  · have hmcp' : isMcp model = false := Bool.eq_false_iff.mpr hmcp
    rw [if_neg hmcp]
    generalize parse_iso fromisoformat (PyValue.get row "startTime") = start
    generalize parse_iso fromisoformat (PyValue.get row "completionStartTime") = first
    generalize parse_iso fromisoformat (PyValue.get row "endTime") = end_
    cases start with
    | none => simp
    | some s =>
      cases first with
      | none => simp
      | some f =>
        cases end_ with
        | none => simp
        | some e =>
          dsimp only
          rw [exists_ok_bind]
          -- the second comparison takes place if the first one finds an order
          have hsecond (p : Int × Int) : (∃ t : Option F,
              (if p.1 ≥ p.2 then Except.ok none
                else f.align s >>= fun q =>
                  Except.ok (if ops.nonneg (ops.millis (q.1 - q.2)) = true then
                    some (ops.millis (q.1 - q.2)) else none)) = Except.ok t) ↔
              (p.1 < p.2 → SameZone f s) := by
            by_cases hlate : p.1 ≥ p.2
            · rw [if_pos hlate]
              apply iff_of_true ⟨none, rfl⟩
              intro hlt
              omega
            · rw [if_neg hlate, exists_ok_bind, ← align_ok_iff]
              constructor
              · intro ⟨q, hq, _⟩ _
                exact ⟨q, hq⟩
              · intro h
                obtain ⟨q, hq⟩ := h (by omega)
                exact ⟨q, hq, _, rfl⟩
          constructor
          · intro ⟨p, hp, ht⟩ _ start first end_ hs hf he
            cases hs
            cases hf
            cases he
            refine ⟨(align_ok_iff f e).mp ⟨p, hp⟩, ?_⟩
            intro x y hxy
            rw [hp] at hxy
            cases hxy
            exact (hsecond (x, y)).mp ht
          · intro h
            obtain ⟨hzone, hstart⟩ := h hmcp' s f e rfl rfl rfl
            obtain ⟨p, hp⟩ := (align_ok_iff f e).mpr hzone
            exact ⟨p, hp, (hsecond p).mpr (hstart p.1 p.2 hp)⟩

theorem rate_of_ok_iff (out dur : Option F) :
    (∃ r, rate_of ops out dur = .ok r) ↔ ∀ o d, out = some o → dur = some d →
      (ops.isZero o || ops.isZero d || ops.nonpos d) = false → (ops.rate o d).isSome = true := by
  unfold rate_of
  cases out with
  | none => simp
  | some o =>
    cases dur with
    | none => simp
    | some d =>
      dsimp only
      by_cases hguard : (ops.isZero o || ops.isZero d || ops.nonpos d) = true
      · rw [if_pos hguard]
        apply iff_of_true ⟨none, rfl⟩
        intro o' d' ho hd hguard'
        cases ho
        cases hd
        rw [hguard] at hguard'
        cases hguard'
      · rw [if_neg hguard]
        cases hrate : ops.rate o d with
        | none =>
          apply iff_of_false
          · intro ⟨r, hr⟩
            cases hr
          · intro h
            have hsome := h o d rfl rfl (by simpa using hguard)
            rw [hrate] at hsome
            cases hsome
        | some x => simp [hrate]

theorem tokens_per_sec_ok_iff (row : List (PyStr × PyValue F)) :
    (∃ r, tokens_per_sec ops row = .ok r) ↔
      Convertible ops (PyValue.get row "completion_tokens") ∧
        Convertible ops (PyValue.get row "request_duration_ms") ∧ RateFits ops row := by
  unfold tokens_per_sec RateFits
  rw [exists_ok_bind, ← latency_num_ok_iff, ← latency_num_ok_iff]
  constructor
  · intro ⟨out, hout, hrest⟩
    obtain ⟨dur, hdur, hrate⟩ := (exists_ok_bind _ _).mp hrest
    refine ⟨⟨out, hout⟩, ⟨dur, hdur⟩, ?_⟩
    intro o d ho hd
    rw [hout] at ho
    rw [hdur] at hd
    cases ho
    cases hd
    exact (rate_of_ok_iff _ _).mp hrate o d rfl rfl
  · intro ⟨⟨out, hout⟩, ⟨dur, hdur⟩, hrate⟩
    refine ⟨out, hout, (exists_ok_bind _ _).mpr ⟨dur, hdur, ?_⟩⟩
    rw [rate_of_ok_iff]
    intro o d ho hd
    subst ho
    subst hd
    exact hrate o d hout hdur

/-- A row can be read if and only if it can be folded. -/
theorem read_row_ok_iff (row : List (PyStr × PyValue F)) :
    (∃ read, read_row ops fromisoformat row = .ok read) ↔ Foldable ops fromisoformat row := by
  unfold read_row
  constructor
  · intro h
    obtain ⟨model, hmodel, h⟩ := (exists_ok_bind _ _).mp h
    obtain ⟨dur, hdur, h⟩ := (exists_ok_bind _ _).mp h
    obtain ⟨ttft, httft, h⟩ := (exists_ok_bind _ _).mp h
    obtain ⟨tps, htps, _⟩ := (exists_ok_bind _ _).mp h
    obtain ⟨htokens, hduration, hrate⟩ := (tokens_per_sec_ok_iff row).mp ⟨tps, htps⟩
    refine ⟨⟨model, (model_text_eq_iff _ _).mp hmodel, ?_⟩, hduration, htokens, hrate⟩
    exact (ttft_ms_ok_iff model row).mp ⟨ttft, httft⟩
  · intro h
    obtain ⟨model, hmodel, htimes⟩ := h.model
    obtain ⟨dur, hdur⟩ := (latency_num_ok_iff _).mpr h.duration
    obtain ⟨ttft, httft⟩ := (@ttft_ms_ok_iff _ ops _ model row).mpr htimes
    obtain ⟨tps, htps⟩ := (tokens_per_sec_ok_iff row).mpr ⟨h.tokens, h.duration, h.rate⟩
    refine (exists_ok_bind _ _).mpr ⟨model, (model_text_eq_iff _ _).mpr hmodel, ?_⟩
    refine (exists_ok_bind _ _).mpr ⟨dur, hdur, ?_⟩
    refine (exists_ok_bind _ _).mpr ⟨ttft, httft, ?_⟩
    exact (exists_ok_bind _ _).mpr ⟨tps, htps, _, rfl⟩

theorem bind_eq_ok {α β : Type} {x : Except PyError α} {f : α → Except PyError β} {b : β}
    (h : (x >>= f) = .ok b) : ∃ a, x = .ok a ∧ f a = .ok b := by
  cases x with
  | error e => cases h
  | ok a => exact ⟨a, rfl, h⟩

theorem ttft_ms_millis {model : PyStr} {row : List (PyStr × PyValue F)} {x : F}
    (h : ttft_ms ops fromisoformat model row = .ok (some x)) : ∃ n, x = ops.millis n := by
  unfold ttft_ms at h
  split at h
  · cases h
  · split at h
    · obtain ⟨p, _, h⟩ := bind_eq_ok h
      dsimp only at h
      split at h
      · cases h
      · obtain ⟨q, _, h⟩ := bind_eq_ok h
        split at h
        · cases h
          exact ⟨_, rfl⟩
        · cases h
    · cases h

/-- What is read of the texts, the duration, the first token and the rate. -/
theorem read_row_figures {row : List (PyStr × PyValue F)} {read : RowRead F}
    (h : read_row ops fromisoformat row = .ok read) :
    row_model ops row = .str read.model ∧ read.label = status_label (PyValue.get row "status") ∧
      read.duration = recorded ops row ∧ read.rate = rate_value ops row ∧
      ∀ x, read.ttft = some x → ∃ n, x = ops.millis n := by
  unfold read_row at h
  obtain ⟨model, hmodel, h⟩ := bind_eq_ok h
  obtain ⟨dur, hdur, h⟩ := bind_eq_ok h
  obtain ⟨ttft, httft, h⟩ := bind_eq_ok h
  obtain ⟨tps, htps, h⟩ := bind_eq_ok h
  cases h
  unfold recorded rate_value
  rw [hdur, htps]
  refine ⟨(model_text_eq_iff _ _).mp hmodel, rfl, rfl, rfl, ?_⟩
  intro x hx
  have hsome : ttft = some x := hx
  rw [hsome] at httft
  exact ttft_ms_millis httft

/-! ## All rows -/

theorem fold_rows_ok_iff (rows : List (List (PyStr × PyValue F))) :
    (∃ acc, fold_rows ops fromisoformat (rows.map PyValue.obj) = .ok acc) ↔
      ∀ row ∈ rows, Foldable ops fromisoformat row := by
  have hrun (acc : Accumulators F) :
      (∃ acc', (rows.map PyValue.obj).foldlM (fold_row ops fromisoformat) acc = .ok acc') ↔
        ∀ row ∈ rows, Foldable ops fromisoformat row := by
    induction rows generalizing acc with
    | nil => simp [pure, Except.pure]
    | cons row rows ih =>
      rw [List.map_cons, List.foldlM_cons, exists_ok_bind, List.forall_mem_cons,
        ← read_row_ok_iff]
      constructor
      · intro ⟨acc', hstep, hrest⟩
        obtain ⟨read, hread, _⟩ := bind_eq_ok hstep
        exact ⟨⟨read, hread⟩, (ih acc').mp hrest⟩
      · intro ⟨⟨read, hread⟩, hrest⟩
        refine ⟨acc.add read, ?_, (ih _).mpr hrest⟩
        show (do return acc.add (← read_row ops fromisoformat row)) = _
        rw [hread]
        rfl
  exact hrun .empty

theorem foldable_reads {rows : List (List (PyStr × PyValue F))}
    (h : ∀ row ∈ rows, Foldable ops fromisoformat row) :
    ∃ reads, List.Forall₂ (fun row read => read_row ops fromisoformat row = .ok read) rows reads := by
  induction rows with
  | nil => exact ⟨[], .nil⟩
  | cons row rows ih =>
    obtain ⟨read, hread⟩ := (read_row_ok_iff row).mpr (h row List.mem_cons_self)
    obtain ⟨reads, hreads⟩ := ih fun row hrow => h row (List.mem_cons_of_mem _ hrow)
    exact ⟨read :: reads, .cons hread hreads⟩

/-- What the reads of some rows record. -/
theorem reads_figures {rows : List (List (PyStr × PyValue F))} {reads : List (RowRead F)}
    (h : List.Forall₂ (fun row read => read_row ops fromisoformat row = .ok read) rows reads) :
    reads.filterMap (·.duration) = rows.filterMap (recorded ops) ∧
      reads.filterMap (·.rate) = rows.filterMap (rate_value ops) ∧
      ∀ x ∈ reads.filterMap (·.ttft), ∃ n, x = ops.millis n := by
  induction h with
  | nil => exact ⟨rfl, rfl, by simp⟩
  | @cons row read rows reads hread _ ih =>
    obtain ⟨-, -, hduration, hrate, httft⟩ := read_row_figures hread
    obtain ⟨hdurations, hrates, httfts⟩ := ih
    refine ⟨?_, ?_, ?_⟩
    · rw [List.filterMap_cons, List.filterMap_cons, hduration, hdurations]
    · rw [List.filterMap_cons, List.filterMap_cons, hrate, hrates]
    · intro x hx
      obtain ⟨read', hmem, hx'⟩ := List.mem_filterMap.mp hx
      rcases List.mem_cons.mp hmem with heq | hmem
      · subst heq
        exact httft x hx'
      · exact httfts x (List.mem_filterMap.mpr ⟨read', hmem, hx'⟩)

/-- And the texts they show. -/
theorem reads_texts {rows : List (List (PyStr × PyValue F))} {reads : List (RowRead F)}
    (h : List.Forall₂ (fun row read => read_row ops fromisoformat row = .ok read) rows reads) :
    reads.map (·.model) = models_of ops rows ∧
      reads.map (·.label) = rows.map fun row => status_label (PyValue.get row "status") := by
  unfold models_of
  induction h with
  | nil => exact ⟨rfl, rfl⟩
  | @cons row read rows reads hread _ ih =>
    obtain ⟨hmodel, hlabel, -⟩ := read_row_figures hread
    obtain ⟨hmodels, hlabels⟩ := ih
    constructor
    · rw [List.map_cons, List.filterMap_cons, hmodel, hmodels]
    · rw [List.map_cons, List.map_cons, hlabel, hlabels]

theorem recorded_nonneg {row : List (PyStr × PyValue F)} {x : F} (h : recorded ops row = some x) :
    ops.nonneg x = true := by
  unfold recorded at h
  split at h
  · exact (Option.filter_eq_some_iff.mp h).2
  · cases h

theorem percentile_mem {xs : List F} {p : Rat} {x : F} (h : percentile xs p = some x) : x ∈ xs := by
  unfold percentile at h
  dsimp only at h
  split at h
  · cases h
  · split at h
    · exact List.mem_of_getElem? h
    · exact List.mem_of_getElem? h

/-! ## Figures -/

/-- The durations of a model are recorded durations. -/
theorem model_rows_mem {reads : List (RowRead F)} {row : ModelRow F}
    (h : row ∈ model_rows ops (reads.foldl Accumulators.add .empty)) :
    ∃ durations, (∀ x ∈ durations, x ∈ reads.filterMap (·.duration)) ∧
      row.p50_ms = percentile (ops.sort durations) 50 ∧
      row.p95_ms = percentile (ops.sort durations) 95 := by
  rw [accumulators_foldl] at h
  unfold model_rows at h
  rw [List.mem_insertionSort] at h
  obtain ⟨⟨model, rec⟩, hrec, rfl⟩ := List.mem_map.mp h
  obtain ⟨_, hfold⟩ := (Groups.mem_group_iff reads model rec).mp hrec
  rw [record_foldl] at hfold
  refine ⟨rec.durations, ?_, rfl, rfl⟩
  intro x hx
  rw [hfold] at hx
  obtain ⟨read, hread, hx⟩ := List.mem_filterMap.mp hx
  exact List.mem_filterMap.mpr ⟨read, List.mem_of_mem_filter hread, hx⟩

/-- The contract of some rows can be rendered if and only if its mean and its
    rate are finite. -/
theorem figures_finite_iff (laws : FloatLaws ops finite) {rows : List (List (PyStr × PyValue F))}
    {reads : List (RowRead F)} (sampled : Bool) (row_count : Nat) (window : WindowMeta)
    (h : List.Forall₂ (fun row read => read_row ops fromisoformat row = .ok read) rows reads) :
    ((figures_of (contract_of ops sampled row_count window
        (reads.foldl Accumulators.add .empty))).all fun figure => figure.all finite) = true ↔
      FiniteFigures ops finite rows := by
  obtain ⟨hdurations, hrates, httfts⟩ := reads_figures h
  have hlatency : latency_figures ops (reads.foldl Accumulators.add .empty) =
      { p50_ms := percentile (ops.sort (rows.filterMap (recorded ops))) 50
        p95_ms := percentile (ops.sort (rows.filterMap (recorded ops))) 95
        p99_ms := percentile (ops.sort (rows.filterMap (recorded ops))) 99
        avg_ms := if ops.sort (rows.filterMap (recorded ops)) = [] then none
          else some (ops.mean (ops.sort (rows.filterMap (recorded ops))))
        ttft_p50_ms := percentile (ops.sort (reads.filterMap (·.ttft))) 50
        ttft_p95_ms := percentile (ops.sort (reads.filterMap (·.ttft))) 95
        tokens_per_sec_p50 := percentile (ops.sort (rows.filterMap (rate_value ops))) 50 } := by
    rw [accumulators_foldl, hdurations, hrates]
    rfl
  have hsort := laws.sort_perm (rows.filterMap (recorded ops))
  rw [List.all_eq_true]
  constructor
  · intro hall
    have hmember (figure : Option F) (hmem : figure ∈ figures_of (contract_of ops sampled row_count
        window (reads.foldl Accumulators.add .empty))) (x : F) (hx : figure = some x) :
        finite x = true := by
      have hfinite := hall figure hmem
      rw [hx] at hfinite
      exact hfinite
    constructor
    · intro hne
      apply hmember (latency_figures ops (reads.foldl Accumulators.add .empty)).avg_ms
      · simp [figures_of, contract_of]
      · rw [hlatency]
        dsimp only
        rw [if_neg]
        intro hnil
        rw [hnil] at hsort
        exact hne (List.nil_perm.mp hsort)
    · intro x hx
      apply hmember (latency_figures ops (reads.foldl Accumulators.add .empty)).tokens_per_sec_p50
      · simp [figures_of, contract_of]
      · rw [hlatency]
        exact hx
  · intro hfinite
    -- with the mean every duration is finite
    have hrecorded : ∀ x ∈ rows.filterMap (recorded ops), finite x = true := by
      intro x hx
      have hmean := hfinite.mean (List.ne_nil_of_mem hx)
      apply laws.mean_finite _ _ hmean x (hsort.mem_iff.mpr hx)
      intro y hy
      obtain ⟨row, _, hrow⟩ := List.mem_filterMap.mp (hsort.mem_iff.mp hy)
      exact recorded_nonneg hrow
    have hpercentile {xs : List F} (hxs : ∀ x ∈ xs, finite x = true) (p : Rat) :
        (percentile (ops.sort xs) p).all finite = true := by
      cases hx : percentile (ops.sort xs) p with
      | none => rfl
      | some x => exact hxs x ((laws.sort_perm xs).mem_iff.mp (percentile_mem hx))
    have hfirst : ∀ x ∈ reads.filterMap (·.ttft), finite x = true := by
      intro x hx
      obtain ⟨n, rfl⟩ := httfts x hx
      exact laws.millis_finite n
    have hmodels : ∀ row ∈ model_rows ops (reads.foldl Accumulators.add .empty),
        row.p50_ms.all finite = true ∧ row.p95_ms.all finite = true := by
      intro row hrow
      obtain ⟨durations, hsub, hp50, hp95⟩ := model_rows_mem hrow
      have hdurs : ∀ x ∈ durations, finite x = true := by
        intro x hx
        have hmem := hsub x hx
        rw [hdurations] at hmem
        exact hrecorded x hmem
      rw [hp50, hp95]
      exact ⟨hpercentile hdurs 50, hpercentile hdurs 95⟩
    intro figure hmem
    rcases List.mem_append.mp hmem with hmem | hmem
    · have hrate : (percentile (ops.sort (rows.filterMap (rate_value ops))) 50).all finite = true := by
        cases hx : percentile (ops.sort (rows.filterMap (rate_value ops))) 50 with
        | none => rfl
        | some x => exact hfinite.rate x hx
      have havg : (if ops.sort (rows.filterMap (recorded ops)) = [] then none
          else some (ops.mean (ops.sort (rows.filterMap (recorded ops))))).all finite = true := by
        by_cases hnil : ops.sort (rows.filterMap (recorded ops)) = []
        · rw [if_pos hnil]
          rfl
        · rw [if_neg hnil]
          apply hfinite.mean
          intro hempty
          rw [hempty] at hsort hnil
          exact hnil (List.perm_nil.mp hsort)
      unfold contract_of at hmem
      dsimp only at hmem
      rw [hlatency] at hmem
      simp only [List.mem_cons, List.not_mem_nil, or_false] at hmem
      rcases hmem with rfl | rfl | rfl | rfl | rfl | rfl | rfl
      · exact hpercentile hrecorded 50
      · exact hpercentile hrecorded 95
      · exact hpercentile hrecorded 99
      · exact havg
      · exact hpercentile hfirst 50
      · exact hpercentile hfirst 95
      · exact hrate
    · obtain ⟨row, hrow, hfigure⟩ := List.mem_flatMap.mp hmem
      obtain ⟨hp50, hp95⟩ := hmodels row (List.mem_of_mem_take hrow)
      simp only [List.mem_cons, List.not_mem_nil, or_false] at hfigure
      rcases hfigure with rfl | rfl
      · exact hp50
      · exact hp95

/-! ## Texts -/

theorem Above.asymm {models : List PyStr} {s t : PyStr} (h : Above models s t) : ¬ Above models t s := by
  unfold Above at *
  omega

/-- The models of the contract before the cut, each once, in the order of their
    requests and of their first rows. -/
theorem model_rows_above (reads : List (RowRead F)) :
    ((model_rows ops (reads.foldl Accumulators.add .empty)).map (·.model)).Perm
        (reads.map (·.model)).dedup ∧
      (model_rows ops (reads.foldl Accumulators.add .empty)).Pairwise fun a b =>
        Above (reads.map (·.model)) a.model b.model := by
  have hrequests := @requests_model_rows F ops reads
  have hstable := Stable.sorted_insertionSort (fun m : ModelRow F => OrderDual.toDual m.requests)
    ((reads.foldl Accumulators.add .empty).per_model.map fun g => model_row ops g.1 g.2)
  have hperm := model_rows_perm ops (reads.foldl Accumulators.add .empty)
  change Stable.Sorted _ _ (model_rows ops (reads.foldl Accumulators.add .empty)) at hstable
  have hgroups : (reads.foldl Accumulators.add .empty).per_model =
      Groups.group RowRead.model ⟨0, 0, []⟩ ModelRecord.add reads := by
    rw [accumulators_foldl]
  rw [hgroups] at hstable hperm
  constructor
  · have hkeys := hperm.map ModelRow.model
    rw [List.map_map] at hkeys
    refine hkeys.trans ((List.perm_ext_iff_of_nodup (Groups.group_nodup reads) (List.nodup_dedup _)).mpr ?_)
    intro s
    rw [List.mem_dedup]
    exact Groups.mem_keys_iff reads s
  · -- the groups stand in the order in which their keys were met
    have hmet := List.pairwise_map.mp (@Groups.keys_pairwise _ _ _ _ RowRead.model
      (⟨0, 0, []⟩ : ModelRecord F) ModelRecord.add reads)
    have hrows : ((Groups.group RowRead.model ⟨0, 0, []⟩ ModelRecord.add reads).map fun g =>
        model_row ops g.1 g.2).Pairwise fun a b =>
          (reads.map (·.model)).findIdx (· = a.model) < (reads.map (·.model)).findIdx (· = b.model) := by
      refine List.pairwise_map.mpr (hmet.imp fun {a b} hlt => ?_)
      rw [List.findIdx_map, List.findIdx_map]
      exact hlt
    refine (hstable.pairwise hrows).imp_of_mem fun {a b} ha hb hor => ?_
    unfold Above
    rw [← hrequests a ha, ← hrequests b hb]
    rcases hor with hlt | ⟨heq, hidx⟩
    · exact .inl hlt
    · exact .inr ⟨heq, hidx⟩

/-- The models that are shown. -/
theorem mem_shown_iff (reads : List (RowRead F)) (s : PyStr) :
    s ∈ ((model_rows ops (reads.foldl Accumulators.add .empty)).take TOP_MODELS).map (·.model) ↔
      Shown (reads.map (·.model)) s := by
  obtain ⟨hperm, hpair⟩ := @model_rows_above F ops reads
  unfold Shown
  have hmem : s ∈ reads.map (·.model) ↔
      s ∈ (model_rows ops (reads.foldl Accumulators.add .empty)).map (·.model) := by
    rw [hperm.mem_iff, List.mem_dedup]
  rw [hmem, ← hperm.countP_eq, List.countP_map, List.mem_map, List.mem_map]
  have htake {m : ModelRow F} (hm : m ∈ model_rows ops (reads.foldl Accumulators.add .empty)) :=
    Stable.mem_take_iff (fun a b (h : Above (reads.map (·.model)) a.model b.model) => h.asymm) hpair hm
      TOP_MODELS
  constructor
  · rintro ⟨m, hm, rfl⟩
    exact ⟨⟨m, List.mem_of_mem_take hm, rfl⟩, (htake (List.mem_of_mem_take hm)).mp hm⟩
  · rintro ⟨⟨m, hm, rfl⟩, hfew⟩
    exact ⟨m, (htake hm).mpr hfew, rfl⟩

theorem encodes_label_iff (value : PyValue F) :
    encodes (status_label value) = true ↔ ∀ s, value = .str s → encodes s = true := by
  cases value with
  | str s =>
    by_cases hs : s = []
    · subst hs
      exact iff_of_true (encodes_lit _) fun s hs => by cases hs; rfl
    · rw [status_label, if_neg hs]
      exact ⟨fun h t ht => by cases ht; exact h, fun h => h s rfl⟩
  | null | bool | int | float | arr | obj => exact iff_of_true (encodes_lit _) (by simp)

/-- The texts of the contract of some rows can be encoded if and only if those of
    the rows can. -/
theorem texts_encode_iff {rows : List (List (PyStr × PyValue F))} {reads : List (RowRead F)}
    (sampled : Bool) (row_count : Nat) (window : WindowMeta)
    (h : List.Forall₂ (fun row read => read_row ops fromisoformat row = .ok read) rows reads) :
    (texts_of (contract_of ops sampled row_count window
        (reads.foldl Accumulators.add .empty))).all encodes = true ↔ Encodable ops rows := by
  obtain ⟨hmodels, hlabels⟩ := reads_texts h
  -- the page has no texts but the labels and the models of its rows
  have hstatus (label : PyStr) : label ∈ (outcome_rows (reads.foldl Accumulators.add .empty)).map
      (·.status) ↔ label ∈ reads.map (·.label) := by
    have hperm := (outcome_rows_perm (reads.foldl Accumulators.add .empty)).map OutcomeRow.status
    rw [hperm.mem_iff, accumulators_foldl, List.map_map]
    exact Groups.mem_keys_iff reads label
  unfold texts_of contract_of
  rw [List.all_append, Bool.and_eq_true, List.all_eq_true, List.all_eq_true]
  dsimp only
  constructor
  · rintro ⟨houtcomes, hshown⟩
    constructor
    · intro row hrow
      rw [← encodes_label_iff]
      apply houtcomes
      rw [hstatus, hlabels]
      exact List.mem_map.mpr ⟨row, hrow, rfl⟩
    · intro s hs
      rw [← hmodels, ← @mem_shown_iff F ops] at hs
      exact hshown s hs
  · rintro ⟨hrows, hmodel⟩
    constructor
    · intro label hlabel
      rw [hstatus, hlabels] at hlabel
      obtain ⟨row, hrow, rfl⟩ := List.mem_map.mp hlabel
      exact (encodes_label_iff _).mpr (hrows row hrow)
    · intro s hs
      rw [mem_shown_iff, hmodels] at hs
      exact hmodel s hs

/-! ## The answer -/

/-- Fetched rows are answered with a contract if and only if they are
    presentable. -/
theorem fetched_calm_iff (laws : FloatLaws ops finite) (window : WindowMeta)
    (rows : List (List (PyStr × PyValue F))) (truncated : Bool) :
    Calm (match compute_latency_contract ops fromisoformat (rows.map .obj) window DEFAULT_ROW_CAP
        truncated with
      | .error e => LatencyReply.crash e
      | .ok c => render finite c) ↔
      Presentable ops finite fromisoformat (capped DEFAULT_ROW_CAP rows) := by
  unfold compute_latency_contract
  dsimp only
  rw [capped_map]
  -- the rows fold, and the page must render; or the fold crashes
  by_cases hfold : ∀ row ∈ capped DEFAULT_ROW_CAP rows, Foldable ops fromisoformat row
  · obtain ⟨reads, hreads⟩ := foldable_reads hfold
    have hpresentable : Presentable ops finite fromisoformat (capped DEFAULT_ROW_CAP rows) ↔
        FiniteFigures ops finite (capped DEFAULT_ROW_CAP rows) ∧
          Encodable ops (capped DEFAULT_ROW_CAP rows) :=
      ⟨fun h => ⟨h.figures, h.texts⟩, fun h => ⟨hfold, h.1, h.2⟩⟩
    rw [fold_rows_eq hreads, hpresentable,
      ← figures_finite_iff laws (truncated || decide ((rows.map PyValue.obj).length > DEFAULT_ROW_CAP))
        ((capped DEFAULT_ROW_CAP rows).map PyValue.obj).length window hreads,
      ← texts_encode_iff (truncated || decide ((rows.map PyValue.obj).length > DEFAULT_ROW_CAP))
        ((capped DEFAULT_ROW_CAP rows).map PyValue.obj).length window hreads, ← Bool.and_eq_true]
    show Calm (render finite _) ↔ _
    unfold render
    split
    · next h => exact iff_of_true trivial h
    · next h => exact iff_of_false not_false h
  · have hcrash : ∃ e, fold_rows ops fromisoformat
        ((capped DEFAULT_ROW_CAP rows).map PyValue.obj) = .error e := by
      cases hrun : fold_rows ops fromisoformat ((capped DEFAULT_ROW_CAP rows).map PyValue.obj) with
      | error e => exact ⟨e, rfl⟩
      | ok acc => exact absurd ((fold_rows_ok_iff _).mp ⟨acc, hrun⟩) hfold
    obtain ⟨e, hcrash⟩ := hcrash
    rw [hcrash]
    exact iff_of_false not_false fun h => hfold h.foldable

/-- For a valid date range the answer is a 200 if and only if there is a key and,
    unless a request failed, the loop ends with a JSON body and its rows are
    presentable. -/
theorem calm_iff (laws : FloatLaws ops finite) {today : PyDate} {start_date end_date : Option String}
    {start end_ : PyDate} (hrange : parse_stats_range today start_date end_date = .ok (start, end_))
    (outcome : KeyOutcome) (respond : String → Nat → PageAnswer F) :
    Calm (session_latency ops finite fromisoformat today start_date end_date outcome respond) ↔
      StaysCalm ops finite fromisoformat outcome respond := by
  unfold session_latency StaysCalm
  rw [hrange]
  cases outcome with
  | mint_in_progress => simp [user_key, Calm]
  | unavailable => simp [user_key, Calm]
  | key key =>
    simp only [user_key, KeyOutcome.key.injEq]
    rw [exists_eq_left']
    -- the pages end somewhere, and at one place only
    obtain ⟨n, hends, hresult⟩ :=
      @fetch_pages_end F (respond key) SPEND_LOG_MAX_PAGES 4 0 rfl ([] : List (List (PyStr × PyValue F)))
    have honly : (∀ m, EndsAt (respond key) SPEND_LOG_MAX_PAGES 0 m →
        RequestFailed (respond key (m + 1)) ∨ ¬ NotJson (respond key (m + 1)) ∧
          Presentable ops finite fromisoformat (capped DEFAULT_ROW_CAP (pages_rows (respond key) 0 m))) ↔
        RequestFailed (respond key (n + 1)) ∨ ¬ NotJson (respond key (n + 1)) ∧
          Presentable ops finite fromisoformat (capped DEFAULT_ROW_CAP (pages_rows (respond key) 0 n)) := by
      constructor
      · intro h
        exact h n hends
      · intro h m hm
        rw [hm.unique hends]
        exact h
    rw [honly]
    unfold latency_of
    change LoopResult _ _ (fetch_user_spend_logs (respond key) SPEND_LOG_MAX_PAGES) at hresult
    generalize fetch_user_spend_logs (respond key) SPEND_LOG_MAX_PAGES = result at hresult ⊢
    rw [List.nil_append] at hresult
    -- a failed request, a page that is no JSON, or rows to be folded
    cases hresult with
    | http h => exact iff_of_true trivial (.inl h)
    | decode h =>
      refine iff_of_false not_false ?_
      rintro (hfailed | ⟨hjson, -⟩)
      · exact hfailed.not_notJson h
      · exact hjson h
    | rows hanswered hjson truncated =>
      dsimp only
      rw [fetched_calm_iff laws, or_iff_right hanswered, and_iff_right hjson]

end

/-- Every number is finite. -/
def always (_ : Rat) : Bool := true

theorem exact_laws (ofText : PyStr → Option Rat) : FloatLaws (exact ofText) always where
  sort_perm xs := sort_perm xs
  mean_finite _ _ _ _ _ := rfl
  millis_finite _ := rfl

/-- A page of one row with a model. -/
def model_page (model : PyValue Rat) : Nat → PageAnswer Rat := fun _ =>
  .response 200 (some (.dict [("data", .arr [.dict [("model", model)]]), ("total_pages", .int 1)]))

/-- A key that is being created, a body that is not JSON, a row whose model is a
    number, and one whose model cannot be encoded. -/
theorem latency_page_breaks :
    session_latency (exact fun _ => none) always tenOClock june (some "2026-06-04")
        (some "2026-06-04") .mint_in_progress (fun _ => one_page) =
      .http ⟨503, "key is being created, retry"⟩ ∧
    session_latency (exact fun _ => none) always tenOClock june (some "2026-06-04")
        (some "2026-06-04") (.key "sk-1") (fun _ _ => .response 200 none) = .crash .value ∧
    session_latency (exact fun _ => none) always tenOClock june (some "2026-06-04")
        (some "2026-06-04") (.key "sk-1") (fun _ => model_page (.int 1)) = .crash .attribute ∧
    session_latency (exact fun _ => none) always tenOClock june (some "2026-06-04")
        (some "2026-06-04") (.key "sk-1") (fun _ => model_page (.str [.surrogate 0])) =
      .crash .value ∧
    ¬ Calm (session_latency (exact fun _ => none) always tenOClock june (some "2026-06-04")
        (some "2026-06-04") .mint_in_progress (fun _ => one_page)) := by
  refine ⟨by rfl, by rfl, by rfl, by rfl, ?_⟩
  intro h
  exact h

/-- The row as the loop keeps it. -/
def kept (row : List (PyStr × PyValue Rat)) : List (PyStr × PyValue Rat) :=
  LEAN_SPEND_FIELDS.map fun k => (lit k, PyValue.get row k)

theorem get_kept (row : List (PyStr × PyValue Rat)) {k : String} (h : k ∈ LEAN_SPEND_FIELDS) :
    PyValue.get (kept row) k = PyValue.get row k := by
  unfold kept
  generalize LEAN_SPEND_FIELDS = fields at h ⊢
  induction fields with
  | nil => cases h
  | cons field fields ih =>
    rw [List.map_cons, PyValue.get, PyValue.lookup_lit_cons]
    by_cases hk : k = field
    · rw [if_pos hk, hk]
      rfl
    · rw [if_neg hk]
      exact ih ((List.mem_cons.mp h).resolve_left hk)

theorem kept_lean {row : List (PyStr × PyValue Rat)} (h : LeanRow tenOClock row) :
    LeanRow tenOClock (kept row) := by
  constructor
  · rw [get_kept row (by decide)]
    exact h.model_group
  · rw [get_kept row (by decide)]
    exact h.model
  · rw [get_kept row (by decide)]
    exact h.status
  · rw [get_kept row (by decide)]
    exact h.duration
  · rw [get_kept row (by decide)]
    exact h.tokens
  · rw [get_kept row (by decide)]
    exact h.start
  · rw [get_kept row (by decide)]
    exact h.first
  · rw [get_kept row (by decide)]
    exact h.end_

/-- The texts of a sample row come from the source of this file. -/
theorem spend_row_texts (model status first end_ : String) (duration : PyValue Rat) :
    PyValue.get (spend_row model status first end_ duration) "status" = .text status ∧
      PyValue.get (spend_row model status first end_ duration) "model_group" = .text model ∧
      PyValue.get (spend_row model status first end_ duration) "model" = .null := by
  unfold spend_row
  rw [PyValue.get_lit, PyValue.get_lit, PyValue.get_lit]
  simp [List.lookup_cons]

theorem mem_sample_rows {row : List (PyStr × PyValue Rat)} (h : row ∈ sample_rows) :
    ∃ model status first end_ duration, row = spend_row model status first end_ duration := by
  simp only [sample_rows, List.mem_cons, List.not_mem_nil, or_false] at h
  rcases h with rfl | rfl | rfl | rfl | rfl <;> exact ⟨_, _, _, _, _, rfl⟩

/-- The sample rows make a response. -/
theorem sample_rows_presentable :
    Presentable (exact fun _ => none) always tenOClock (sample_rows.map kept) where
  foldable := by
    intro row hrow
    obtain ⟨row, hmem, rfl⟩ := List.mem_map.mp hrow
    obtain ⟨read, hread, -⟩ :=
      @read_row_lean (fun _ => none) _ _ (kept_lean (sample_rows_lean row hmem))
    exact (read_row_ok_iff _).mp ⟨read, hread⟩
  figures := ⟨fun _ => rfl, fun _ _ => rfl⟩
  texts := by
    constructor
    · intro row hrow s hs
      obtain ⟨row, hmem, rfl⟩ := List.mem_map.mp hrow
      obtain ⟨model, status, first, end_, duration, rfl⟩ := mem_sample_rows hmem
      rw [get_kept _ (by decide), (spend_row_texts model status first end_ duration).1] at hs
      cases hs
      exact encodes_lit status
    · rintro s ⟨hs, -⟩
      obtain ⟨row, hrow, hmodel⟩ := List.mem_filterMap.mp hs
      obtain ⟨row, hmem, rfl⟩ := List.mem_map.mp hrow
      obtain ⟨model, status, first, end_, duration, rfl⟩ := mem_sample_rows hmem
      obtain ⟨-, hgroup, hnone⟩ := spend_row_texts model status first end_ duration
      have hread : ∃ name, row_model (exact fun _ => none)
          (kept (spend_row model status first end_ duration)) = .text name := by
        unfold row_model
        rw [get_kept _ (by decide), get_kept _ (by decide), hgroup, hnone]
        split
        · exact ⟨model, rfl⟩
        · exact ⟨"unknown", rfl⟩
      obtain ⟨name, hname⟩ := hread
      rw [hname] at hmodel
      cases hmodel
      exact encodes_lit name

/-- One page, in exact arithmetic. -/
theorem calm_iff_one_page :
    (FloatLaws (exact fun _ => none) always ∧
        parse_stats_range june (some "2026-06-04") (some "2026-06-04") = .ok (june, june)) ∧
      Calm (session_latency (exact fun _ => none) always tenOClock june (some "2026-06-04")
        (some "2026-06-04") (.key "sk-1") (fun _ => one_page)) := by
  have hrange : parse_stats_range june (some "2026-06-04") (some "2026-06-04") =
      .ok (june, june) := by rfl
  refine ⟨⟨exact_laws _, hrange⟩, (calm_iff (exact_laws _) hrange _ _).mpr ⟨"sk-1", rfl, ?_⟩⟩
  intro n hends
  have hlast : SaysLast 1 (one_page 1) := ⟨200, _, _, rfl, rfl, rfl, rfl⟩
  -- the first page says that it is the last one
  obtain rfl : n = 0 := by
    by_contra hn
    exact (hends.through 0 (le_refl 0) (by omega)).not_last hlast
  refine .inr ⟨?_, ?_⟩
  · intro ⟨_, hbody, _⟩
    cases hbody
  · rw [pages_rows_self]
    exact sample_rows_presentable

end AlitellmAuth.Stats
