import Mathlib.Algebra.BigOperators.Group.List.Lemmas
import Mathlib.Data.String.Basic
import AlitellmAuth.Framework.Json
import AlitellmAuth.Stats.Window

/-! # The daily series

    `stats.py` makes the daily series of the usage page from the result rows of
    LiteLLM: rows of one date are merged, and a zero day is put in for each day
    without a row.

    * `aggregate_series`, `zero_fill_series`: the two halves.
    * `Conserves`: one entry for each day of the window, with all of its usage.
    * `conserves_iff`: when the series does that. Rows are merged under their
      whole date and placed under its first ten characters, so of two dates of
      one day only the greater one is shown.
-/

namespace AlitellmAuth.Stats

open Calendar

/-! ## Figures -/

/-- What a row says about the usage of a day. -/
@[ext] structure Figures where
  spend : Rat
  requests : Int
  tokens : Int
  input_tokens : Int
  output_tokens : Int
  failed : Int

namespace Figures

instance : Zero Figures := ⟨⟨0, 0, 0, 0, 0, 0⟩⟩

instance : Add Figures :=
  ⟨fun a b => ⟨a.spend + b.spend, a.requests + b.requests, a.tokens + b.tokens,
    a.input_tokens + b.input_tokens, a.output_tokens + b.output_tokens, a.failed + b.failed⟩⟩

instance : Neg Figures :=
  ⟨fun a => ⟨-a.spend, -a.requests, -a.tokens, -a.input_tokens, -a.output_tokens, -a.failed⟩⟩

theorem add_def (a b : Figures) : a + b = ⟨a.spend + b.spend, a.requests + b.requests,
    a.tokens + b.tokens, a.input_tokens + b.input_tokens, a.output_tokens + b.output_tokens,
    a.failed + b.failed⟩ := rfl

theorem neg_def (a : Figures) : -a = ⟨-a.spend, -a.requests, -a.tokens, -a.input_tokens,
    -a.output_tokens, -a.failed⟩ := rfl

theorem zero_def : (0 : Figures) = ⟨0, 0, 0, 0, 0, 0⟩ := rfl

instance : AddCommGroup Figures where
  add_assoc a b c := by simp [add_def, add_assoc]
  zero_add a := by simp [add_def, zero_def]
  add_zero a := by simp [add_def, zero_def]
  add_comm a b := by simp [add_def, add_comm]
  neg_add_cancel a := by simp [add_def, neg_def, zero_def]
  nsmul := nsmulRec
  zsmul := zsmulRec

end Figures

/-! ## The series -/

/-- A result row. The metrics are empty when there are none. -/
structure ResultRow where
  date : Option String
  metrics : List (String × Json)

/-- An entry of the series. -/
structure DayEntry where
  date : Option String
  figures : Figures

/-- `int(q)`: towards zero. -/
def truncate (q : Rat) : Int := q.num.tdiv q.den

section
variable (py_float : String → Option Rat)

/-- A metric as a number. `py_float` is `float` of a text, none is a
    `ValueError`; Booleans, lists and dictionaries count as nothing. -/
def num : Option Json → Rat
  | some (.num q) => q
  | some (.str s) => (py_float s).getD 0
  | _ => 0

def day_series_entry (day : ResultRow) : DayEntry :=
  let m := day.metrics
  { date := day.date
    figures :=
      { spend := num py_float (m.lookup "spend")
        requests := truncate (num py_float (m.lookup "api_requests"))
        tokens := truncate (num py_float (m.lookup "total_tokens"))
        input_tokens := truncate (num py_float (m.lookup "prompt_tokens"))
        output_tokens := truncate (num py_float (m.lookup "completion_tokens"))
        failed := truncate (num py_float (m.lookup "failed_requests")) } }

/-- Add an entry to the one of its date. Without a date it stays on its own. -/
def accumulate_day_series (day_acc : List DayEntry) (day : ResultRow) : List DayEntry :=
  let entry := day_series_entry py_float day
  if entry.date.isSome && day_acc.any (·.date = entry.date) then
    day_acc.map fun acc =>
      if acc.date = entry.date then { acc with figures := acc.figures + entry.figures } else acc
  else day_acc ++ [{ date := entry.date, figures := 0 + entry.figures }]

/-- The series of `aggregate_window`: by date, no date first. -/
def aggregate_series (results : List ResultRow) : List DayEntry :=
  (results.foldl (accumulate_day_series py_float) []).insertionSort
    fun a b => a.date.getD "" ≤ b.date.getD ""

end

/-- `text[:10]`. -/
def firstTen (text : String) : String := String.ofList (text.toList.take 10)

/-- `by_day`: a later entry replaces an earlier one. -/
def by_day (series : List DayEntry) : List (String × DayEntry) :=
  series.foldl (fun d p =>
    match present p.date with
    | some date => Table.put d (firstTen date) p
    | none => d) []

/-- One entry of the filled series. -/
def filled_entry (series : List DayEntry) (d : PyDate) : DayEntry :=
  ((by_day series).lookup d.isoformat).getD { date := some d.isoformat, figures := 0 }

/-- `_zero_fill_series`. -/
def zero_fill_series (series : List DayEntry) (start_iso end_iso : String) :
    Except DateError (List DayEntry) :=
  match fromisoformat (firstTen start_iso), fromisoformat (firstTen end_iso) with
  | some start, some end_ =>
      if end_.ordinal < start.ordinal ∨ span_days start end_ > 400 then .ok series
      else (fill_days end_ FILL_ROUNDS start).map fun days => days.map (filled_entry series)
  | _, _ => .ok series

/-- The series in `build_stats_contract(aggregate_window(...))`. -/
def stats_series (py_float : String → Option Rat) (results : List ResultRow) (start end_ : PyDate) :
    Except DateError (List DayEntry) :=
  zero_fill_series (aggregate_series py_float results) start.isoformat end_.isoformat

/-! ## What the series should be -/

/-- Does a date begin with a day? -/
def beginsWith (day : PyDate) (date : Option String) : Bool :=
  date.any fun text => day.isoformat.toList.isPrefixOf text.toList

/-- What the metrics of a row say under the names of LiteLLM. -/
def figuresOf (py_float : String → Option Rat) (row : ResultRow) : Figures where
  spend := num py_float (row.metrics.lookup "spend")
  requests := whole "api_requests"
  tokens := whole "total_tokens"
  input_tokens := whole "prompt_tokens"
  output_tokens := whole "completion_tokens"
  failed := whole "failed_requests"
where
  whole (name : String) : Int := truncate (num py_float (row.metrics.lookup name))

/-- The figures of some rows, added up. -/
def total (py_float : String → Option Rat) (rows : List ResultRow) : Figures :=
  (rows.map (figuresOf py_float)).sum

/-- The usage of a day. -/
def usage (py_float : String → Option Rat) (results : List ResultRow) (day : PyDate) : Figures :=
  total py_float (results.filter fun row => beginsWith day row.date)

/-- The days of a window, in order. -/
structure DaysOf (start end_ : PyDate) (days : List PyDate) : Prop where
  length : (days.length : Int) = span_days start end_
  get : ∀ i (h : i < days.length), (days.get ⟨i, h⟩).ordinal = start.ordinal + i

/-- One entry for each day of the window, with its usage, and nothing of the
    window is lost or counted twice. -/
def Conserves (py_float : String → Option Rat) (results : List ResultRow) (start end_ : PyDate)
    (series : List DayEntry) : Prop :=
  ∃ days, DaysOf start end_ days ∧
    List.Forall₂ (fun day entry =>
      beginsWith day entry.date = true ∧ entry.figures = usage py_float results day) days series ∧
    (series.map (·.figures)).sum =
      total py_float (results.filter fun row => days.any fun day => beginsWith day row.date)

/-- Is there another row of the same day, with a greater date? -/
def overridden (results : List ResultRow) (day : PyDate) (row : ResultRow) : Bool :=
  results.any fun other => beginsWith day other.date && decide (row.date.getD "" < other.date.getD "")

/-- The rows of a day that are not of its greatest date. -/
def overriddenRows (results : List ResultRow) (day : PyDate) : List ResultRow :=
  results.filter fun row => beginsWith day row.date && overridden results day row

section
variable {py_float : String → Option Rat} {results : List ResultRow}

/-! ## Rows of one date -/

@[simp] theorem day_series_entry_figures (row : ResultRow) :
    (day_series_entry py_float row).figures = figuresOf py_float row := rfl

/-- The rows of a date. -/
def rowsOn (results : List ResultRow) (text : String) : List ResultRow :=
  results.filter (·.date = some text)

/-- What one row does to the entries of a date: it is added to the one there is,
    or it is the first one. -/
theorem accumulate_dated (acc : List DayEntry) (row : ResultRow) (text : String) :
    (accumulate_day_series py_float acc row).filter (·.date = some text) =
      if row.date = some text then
        if acc.filter (·.date = some text) = [] then
          [⟨some text, 0 + (day_series_entry py_float row).figures⟩]
        else (acc.filter (·.date = some text)).map fun e =>
          { e with figures := e.figures + (day_series_entry py_float row).figures }
      else acc.filter (·.date = some text) := by
  have hdate : (day_series_entry py_float row).date = row.date := rfl
  unfold accumulate_day_series
  dsimp only
  rw [hdate]
  by_cases hany : (row.date.isSome && acc.any (·.date = row.date)) = true
  · rw [if_pos hany, List.filter_map]
    -- the row adds to its entry, whose date stays
    have hkeep : ((fun e : DayEntry => decide (e.date = some text)) ∘ fun e : DayEntry =>
        if e.date = row.date then
          { e with figures := e.figures + (day_series_entry py_float row).figures }
        else e) = fun e => decide (e.date = some text) := by
      funext e
      by_cases h : e.date = row.date
      · simp [h]
      · simp [h]
    rw [hkeep]
    by_cases hrow : row.date = some text
    · have hsome : acc.filter (·.date = some text) ≠ [] := by
        rw [hrow] at hany
        simpa [List.filter_eq_nil_iff] using hany
      rw [if_pos hrow, if_neg hsome]
      apply List.map_congr_left
      intro e he
      have he' : e.date = some text := by simpa using (List.mem_filter.mp he).2
      rw [if_pos (he'.trans hrow.symm)]
    · rw [if_neg hrow]
      conv_rhs => rw [← List.map_id (acc.filter _)]
      apply List.map_congr_left
      intro e he
      have he' : e.date = some text := by simpa using (List.mem_filter.mp he).2
      rw [if_neg (fun h => hrow (h.symm.trans he'))]
      rfl
  · rw [if_neg hany, List.filter_append]
    by_cases hrow : row.date = some text
    · have hnone : acc.filter (·.date = some text) = [] := by
        rw [hrow] at hany
        simpa [List.filter_eq_nil_iff] using hany
      rw [if_pos hrow, if_pos hnone, hnone, hrow]
      simp
    · rw [if_neg hrow]
      simp [hrow]

/-- A whole run: one entry for each date of the rows, with what the rows of this
    date add up to. -/
theorem accumulate_run (results : List ResultRow) (text : String) :
    (results.foldl (accumulate_day_series py_float) []).filter (·.date = some text) =
      if rowsOn results text = [] then []
      else [⟨some text, total py_float (rowsOn results text)⟩] := by
  induction results using List.reverseRecOn with
  | nil => rfl
  | append_singleton results row ih =>
    have hrows : rowsOn (results ++ [row]) text =
        rowsOn results text ++ if row.date = some text then [row] else [] := by
      unfold rowsOn
      rw [List.filter_append]
      by_cases h : row.date = some text
      · simp [h]
      · simp [h]
    rw [List.foldl_append, List.foldl_cons, List.foldl_nil, accumulate_dated, ih, hrows]
    by_cases hrow : row.date = some text
    · rw [if_pos hrow, if_pos hrow]
      by_cases hnone : rowsOn results text = []
      · rw [hnone]
        simp [total]
      · simp [hnone, total]
    · rw [if_neg hrow, if_neg hrow, List.append_nil]

/-- The entries of the series with a date are the dates of the rows, with what
    the rows of this date add up to. -/
theorem mem_aggregate_iff (results : List ResultRow) (e : DayEntry) {text : String}
    (hdate : e.date = some text) :
    e ∈ aggregate_series py_float results ↔
      rowsOn results text ≠ [] ∧ e.figures = total py_float (rowsOn results text) := by
  have hperm : e ∈ aggregate_series py_float results ↔
      e ∈ (results.foldl (accumulate_day_series py_float) []).filter (·.date = some text) := by
    unfold aggregate_series
    rw [List.mem_insertionSort, List.mem_filter]
    simp [hdate]
  rw [hperm, accumulate_run]
  by_cases hnone : rowsOn results text = []
  · simp [hnone]
  · rw [if_neg hnone, List.mem_singleton]
    obtain ⟨date, figures⟩ := e
    obtain rfl : date = some text := hdate
    simp [hnone]

theorem aggregate_sorted (results : List ResultRow) :
    (aggregate_series py_float results).Pairwise fun a b => a.date.getD "" ≤ b.date.getD "" := by
  have htotal : Std.Total fun a b : DayEntry => a.date.getD "" ≤ b.date.getD "" :=
    ⟨fun a b => le_total _ _⟩
  have htrans : IsTrans DayEntry fun a b => a.date.getD "" ≤ b.date.getD "" :=
    ⟨fun a b c => le_trans⟩
  exact List.pairwise_insertionSort _ _

/-! ## Dates of one day -/

theorem beginsWith_iff (day : PyDate) (text : String) :
    beginsWith day (some text) = true ↔ firstTen text = day.isoformat := by
  have hlength := isoformat_length day
  unfold beginsWith firstTen
  rw [Option.any_some, List.isPrefixOf_iff_prefix, List.prefix_iff_eq_take, hlength,
    ← String.toList_inj, String.toList_ofList]
  exact eq_comm

theorem beginsWith_dated {day : PyDate} {date : Option String} (h : beginsWith day date = true) :
    ∃ text, date = some text ∧ present date = some text ∧ firstTen text = day.isoformat := by
  cases date with
  | none => cases h
  | some text =>
    have hten := (beginsWith_iff day text).mp h
    refine ⟨text, rfl, ?_, hten⟩
    have hne : text ≠ "" := by
      intro hempty
      have hlength := isoformat_length day
      rw [← hten, hempty] at hlength
      cases hlength
    simp [present, hne]

/-- A date begins with one day at most. -/
theorem beginsWith_unique {day day' : PyDate} {date : Option String}
    (h : beginsWith day date = true) (h' : beginsWith day' date = true) : day = day' := by
  obtain ⟨text, rfl, -, hten⟩ := beginsWith_dated h
  rw [beginsWith_iff] at h'
  exact isoformat_injective (hten.symm.trans h')

/-- The entry under a day is the last one of the series that begins with it. -/
theorem lookup_by_day (series : List DayEntry) (day : PyDate) :
    (by_day series).lookup day.isoformat = series.reverse.find? (beginsWith day ·.date) := by
  induction series using List.reverseRecOn with
  | nil => rfl
  | append_singleton series p ih =>
    have hstep : by_day (series ++ [p]) = match present p.date with
        | some date => Table.put (by_day series) (firstTen date) p
        | none => by_day series := by
      unfold by_day
      rw [List.foldl_append, List.foldl_cons, List.foldl_nil]
    rw [hstep, List.reverse_append, List.reverse_singleton, List.singleton_append, List.find?_cons]
    by_cases hbegins : beginsWith day p.date = true
    · obtain ⟨text, hdate, hpresent, hten⟩ := beginsWith_dated hbegins
      rw [hpresent, hbegins, ← hten]
      exact Table.lookup_put_self _ _ _
    · rw [Bool.eq_false_iff.mpr hbegins, ← ih]
      cases hpresent : present p.date with
      | none => rfl
      | some date =>
        have hdate : p.date = some date := (Option.filter_eq_some_iff.mp hpresent).1
        rw [hdate, beginsWith_iff] at hbegins
        exact Table.lookup_put_ne _ _ (Ne.symm hbegins)

/-! ## The entry of a day -/

/-- The rows of a day that its entry is made of. -/
def shownRows (results : List ResultRow) (day : PyDate) : List ResultRow :=
  results.filter fun row => beginsWith day row.date && !overridden results day row

/-- Every row is in an entry of its date. -/
theorem aggregate_dated {row : ResultRow} (hrow : row ∈ results) {text : String}
    (hdate : row.date = some text) :
    ⟨some text, total py_float (rowsOn results text)⟩ ∈ aggregate_series py_float results := by
  rw [mem_aggregate_iff results _ rfl]
  refine ⟨?_, rfl⟩
  apply List.ne_nil_of_mem (a := row)
  exact List.mem_filter.mpr ⟨hrow, by simp [hdate]⟩

/-- The entry of a day, if there is one, has the greatest date of the day. -/
theorem found_greatest {day : PyDate} {e : DayEntry}
    (h : (aggregate_series py_float results).reverse.find? (beginsWith day ·.date) = some e) :
    ∀ row ∈ results, beginsWith day row.date = true → row.date.getD "" ≤ e.date.getD "" := by
  intro row hrow hbegins
  obtain ⟨text, hdate, -, -⟩ := beginsWith_dated hbegins
  have hmem := @aggregate_dated py_float _ _ hrow _ hdate
  obtain ⟨-, before, after, hsplit, hbefore⟩ := List.find?_eq_some_iff_append.mp h
  have hsorted : (aggregate_series py_float results).reverse.Pairwise fun a b =>
      b.date.getD "" ≤ a.date.getD "" := List.pairwise_reverse.mpr (aggregate_sorted results)
  rw [← List.mem_reverse, hsplit, List.mem_append, List.mem_cons] at hmem
  rcases hmem with hmem | hmem | hmem
  · -- an entry behind the one of the day would have been found
    have hnot := hbefore _ hmem
    rw [hdate] at hbegins
    simp [hbegins] at hnot
  · rw [← hmem, hdate]
  · rw [hsplit] at hsorted
    have hle := (List.pairwise_cons.mp (List.pairwise_append.mp hsorted).2.1).1 _ hmem
    rw [hdate]
    exact hle

theorem found_spec {day : PyDate} {e : DayEntry}
    (h : (aggregate_series py_float results).reverse.find? (beginsWith day ·.date) = some e) :
    beginsWith day e.date = true ∧ e.figures = total py_float (shownRows results day) := by
  have hgreatest := found_greatest h
  have hbegins := List.find?_some h
  obtain ⟨text, hdate, -, -⟩ := beginsWith_dated hbegins
  have hmem := List.mem_reverse.mp (List.mem_of_find?_eq_some h)
  obtain ⟨hrows, hfigures⟩ := (mem_aggregate_iff results e hdate).mp hmem
  obtain ⟨row₀, hrow₀⟩ := List.exists_mem_of_ne_nil _ hrows
  obtain ⟨hrow₀, hdate₀⟩ := List.mem_filter.mp hrow₀
  have hdate₀ : row₀.date = some text := by simpa using hdate₀
  refine ⟨hbegins, ?_⟩
  rw [hfigures]
  congr 1
  apply List.filter_congr
  intro row hrow
  rw [hdate, Option.getD_some] at hgreatest
  by_cases heq : row.date = some text
  · -- no row of the day has a greater date
    have hnot : overridden results day row = false := by
      rw [Bool.eq_false_iff]
      intro hover
      obtain ⟨other, hother, hlt⟩ := List.any_eq_true.mp hover
      rw [Bool.and_eq_true, decide_eq_true_iff, heq, Option.getD_some] at hlt
      have hle := hgreatest other hother hlt.1
      exact absurd hlt.2 (not_lt.mpr hle)
    rw [heq, hnot, ← hdate, hbegins]
    simp
  · have hshown : (beginsWith day row.date && !overridden results day row) = false := by
      by_cases hrowday : beginsWith day row.date = true
      · obtain ⟨text', hdate', -, -⟩ := beginsWith_dated hrowday
        have hle := hgreatest row hrow hrowday
        rw [hdate', Option.getD_some] at hle
        have hne : text' ≠ text := by
          intro htext
          exact heq (by rw [hdate', htext])
        have hover : overridden results day row = true := by
          apply List.any_eq_true.mpr
          refine ⟨row₀, hrow₀, ?_⟩
          rw [hdate₀, ← hdate, hbegins, hdate', hdate]
          simpa using lt_of_le_of_ne hle hne
        rw [hover]
        simp
      · rw [Bool.eq_false_iff.mpr hrowday]
        rfl
    rw [hshown]
    exact decide_eq_false heq

/-- The entry of a day, found or filled in: its date begins with the day, and it
    is made of the rows of the greatest date. -/
theorem filled_spec (results : List ResultRow) (day : PyDate) :
    beginsWith day (filled_entry (aggregate_series py_float results) day).date = true ∧
      (filled_entry (aggregate_series py_float results) day).figures =
        total py_float (shownRows results day) := by
  unfold filled_entry
  rw [lookup_by_day]
  cases hfound : (aggregate_series py_float results).reverse.find? (beginsWith day ·.date) with
  | some e => exact found_spec hfound
  | none =>
    constructor
    · rw [Option.getD_none, beginsWith_iff]
      unfold firstTen
      rw [← isoformat_length day, List.take_length, String.ofList_toList]
    · have hnone : shownRows results day = [] := by
        apply List.filter_eq_nil_iff.mpr
        intro row hrow hshown
        rw [Bool.and_eq_true] at hshown
        obtain ⟨text, hdate, -, -⟩ := beginsWith_dated hshown.1
        have hmem := @aggregate_dated py_float _ _ hrow _ hdate
        have hnot := List.find?_eq_none.mp hfound _ (List.mem_reverse.mpr hmem)
        rw [← hdate] at hnot
        exact hnot hshown.1
      rw [hnone]
      rfl

/-! ## Sums -/

/-- The sum over a selection, split in two. -/
theorem total_split (rows : List ResultRow) (p q : ResultRow → Bool) :
    total py_float (rows.filter p) = total py_float (rows.filter fun row => p row && !q row) +
      total py_float (rows.filter fun row => p row && q row) := by
  unfold total
  induction rows with
  | nil => simp
  | cons row rows ih =>
    by_cases hp : p row = true
    · by_cases hq : q row = true
      · simp [hp, hq, ih, add_left_comm]
      · simp [hp, hq, ih, add_assoc]
    · simp [hp, ih]

/-- Different days have no row in common. -/
theorem total_days (results : List ResultRow) {days : List PyDate} (hnodup : days.Nodup) :
    (days.map (usage py_float results)).sum =
      total py_float (results.filter fun row => days.any fun day => beginsWith day row.date) := by
  induction days with
  | nil => simp [total]
  | cons day days ih =>
    obtain ⟨hday, hnodup⟩ := List.nodup_cons.mp hnodup
    rw [List.map_cons, List.sum_cons, ih hnodup,
      total_split results (fun row => (day :: days).any fun day => beginsWith day row.date)
        (fun row => days.any fun day => beginsWith day row.date)]
    unfold usage
    congr 2
    · apply List.filter_congr
      intro row _
      by_cases hbegins : beginsWith day row.date = true
      -- a row begins with one day at most
      · have hothers : (days.any fun day => beginsWith day row.date) = false := by
          rw [Bool.eq_false_iff]
          intro hany
          obtain ⟨day', hday', hbegins'⟩ := List.any_eq_true.mp hany
          rw [beginsWith_unique hbegins hbegins'] at hday
          exact hday hday'
        simp [hbegins, hothers]
      · simp [hbegins]
    · apply List.filter_congr
      intro row _
      by_cases hany : (days.any fun day => beginsWith day row.date) = true
      · rw [List.any_cons, hany, Bool.or_true]
        rfl
      · rw [Bool.eq_false_iff.mpr hany, Bool.and_false]

theorem DaysOf.nodup {start end_ : PyDate} {days : List PyDate} (h : DaysOf start end_ days) :
    days.Nodup := by
  rw [List.nodup_iff_injective_get]
  intro i j heq
  have hi := h.get i.val i.isLt
  have hj := h.get j.val j.isLt
  have hsame : days.get ⟨i.val, i.isLt⟩ = days.get ⟨j.val, j.isLt⟩ := heq
  rw [hsame] at hi
  apply Fin.ext
  omega

theorem DaysOf.mem_iff {start end_ : PyDate} {days : List PyDate} (h : DaysOf start end_ days)
    (day : PyDate) :
    day ∈ days ↔ start.ordinal ≤ day.ordinal ∧ day.ordinal ≤ end_.ordinal := by
  have hlength := h.length
  unfold span_days at hlength
  constructor
  · intro hmem
    obtain ⟨i, hi⟩ := List.mem_iff_get.mp hmem
    have hordinal := h.get i.val i.isLt
    have hsame : days.get ⟨i.val, i.isLt⟩ = day := hi
    rw [hsame] at hordinal
    have hlt := i.isLt
    omega
  · intro ⟨hfirst, hlast⟩
    have hlt : (day.ordinal - start.ordinal).toNat < days.length := by omega
    have hordinal := h.get _ hlt
    have heq : days.get ⟨_, hlt⟩ = day := PyDate.ordinal_injective (by omega)
    rw [← heq]
    exact List.get_mem _ _

/-! ## The series -/

/-- The series of a window: one entry for each day, or an overflow behind the
    last day of the calendar. -/
theorem stats_series_cases (results : List ResultRow) {start end_ : PyDate}
    (hordered : start.ordinal ≤ end_.ordinal) (hspan : span_days start end_ ≤ MAX_RANGE_DAYS) :
    (end_.ordinal < MAXORDINAL ∧ ∃ days, DaysOf start end_ days ∧
      stats_series py_float results start end_ =
        .ok (days.map (filled_entry (aggregate_series py_float results)))) ∨
    end_.ordinal = MAXORDINAL ∧ stats_series py_float results start end_ = .error .overflow := by
  have hbounds := end_.ordinal_bounds
  have hten (d : PyDate) : firstTen d.isoformat = d.isoformat := by
    unfold firstTen
    rw [← isoformat_length d, List.take_length, String.ofList_toList]
  have hshort : ¬ (end_.ordinal < start.ordinal ∨ span_days start end_ > 400) := by
    unfold MAX_RANGE_DAYS at hspan
    omega
  have hseries : stats_series py_float results start end_ =
      (fill_days end_ FILL_ROUNDS start).map fun days =>
        days.map (filled_entry (aggregate_series py_float results)) := by
    unfold stats_series zero_fill_series
    rw [hten, hten, fromisoformat_isoformat, fromisoformat_isoformat]
    exact if_neg hshort
  -- a window that is allowed is filled before the rounds run out
  have hrounds : end_.ordinal - start.ordinal + 1 ≤ (FILL_ROUNDS : Int) := by
    unfold span_days MAX_RANGE_DAYS at hspan
    unfold FILL_ROUNDS
    omega
  obtain ⟨hfilled, hoverflow⟩ := fill_days_spec FILL_ROUNDS start hrounds
  -- the loop steps past the last day, which the calendar may not have
  by_cases hlast : end_.ordinal = MAXORDINAL
  · right
    rw [hseries, hoverflow hlast hordered]
    exact ⟨hlast, rfl⟩
  · left
    obtain ⟨days, hdays, hlength, hget⟩ := hfilled (by omega)
    refine ⟨by omega, days, ⟨?_, hget⟩, ?_⟩
    · unfold span_days
      omega
    · rw [hseries, hdays]
      rfl

/-- The series has one entry for each day, with all of its usage, if and only if
    the window ends before the last day of the calendar and, on each of its
    days, the rows that are not of the greatest date add up to nothing. -/
theorem conserves_iff (py_float : String → Option Rat) (results : List ResultRow)
    {start end_ : PyDate} (hordered : start.ordinal ≤ end_.ordinal)
    (hspan : span_days start end_ ≤ MAX_RANGE_DAYS) :
    (∃ series, stats_series py_float results start end_ = .ok series ∧
      Conserves py_float results start end_ series) ↔
    end_.ordinal < MAXORDINAL ∧ ∀ day : PyDate, start.ordinal ≤ day.ordinal →
      day.ordinal ≤ end_.ordinal → total py_float (overriddenRows results day) = 0 := by
  -- what is shown and what is not make up the usage of a day
  have hsplit (day : PyDate) : usage py_float results day =
      total py_float (shownRows results day) + total py_float (overriddenRows results day) :=
    total_split results _ _
  rcases @stats_series_cases py_float results _ _ hordered hspan with
    ⟨hlast, days, hdays, hseries⟩ | ⟨hlast, hseries⟩
  · rw [hseries]
    constructor
    · intro ⟨series, hok, days', hdays', hentries, _⟩
      cases hok
      refine ⟨hlast, ?_⟩
      intro day hfirst hend
      have hmem := (hdays.mem_iff day).mpr ⟨hfirst, hend⟩
      have hsame : days' = days := by
        apply List.ext_get
        · have h := hdays.length
          have h' := hdays'.length
          omega
        · intro i h h'
          apply PyDate.ordinal_injective
          rw [hdays.get i h', hdays'.get i h]
      rw [hsame, List.forall₂_map_right_iff, List.forall₂_same] at hentries
      have hfigures := (hentries day hmem).2
      rw [(filled_spec results day).2, hsplit] at hfigures
      exact left_eq_add.mp hfigures
    · intro ⟨_, hzero⟩
      have husage : ∀ day ∈ days, (filled_entry (aggregate_series py_float results) day).figures =
          usage py_float results day := by
        intro day hmem
        obtain ⟨hfirst, hend⟩ := (hdays.mem_iff day).mp hmem
        rw [(filled_spec results day).2, hsplit, hzero day hfirst hend, add_zero]
      refine ⟨_, rfl, days, hdays, ?_, ?_⟩
      · rw [List.forall₂_map_right_iff, List.forall₂_same]
        intro day hmem
        exact ⟨(filled_spec results day).1, husage day hmem⟩
      · have hsum : ((days.map (filled_entry (aggregate_series py_float results))).map
            (·.figures)).sum = (days.map (usage py_float results)).sum := by
          rw [List.map_map]
          exact congrArg List.sum (List.map_congr_left husage)
        exact hsum.trans (total_days results hdays.nodup)
  · rw [hseries]
    constructor
    · intro ⟨series, hok, _⟩
      cases hok
    · intro ⟨hlt, _⟩
      exact absurd hlast (ne_of_lt hlt)

end

/-- A row with some spend. -/
def spent (date : String) (spend : Rat) : ResultRow := ⟨some date, [("spend", .num spend)]⟩

theorem day_series_entry_spent (py_float : String → Option Rat) (date : String) (q : Rat) :
    day_series_entry py_float (spent date q) = ⟨some date, ⟨q, 0, 0, 0, 0, 0⟩⟩ := by
  simp [day_series_entry, spent, num, truncate, List.lookup_cons]

theorem figuresOf_spent (py_float : String → Option Rat) (date : String) (q : Rat) :
    figuresOf py_float (spent date q) = ⟨q, 0, 0, 0, 0, 0⟩ :=
  congrArg DayEntry.figures (day_series_entry_spent py_float date q)

/-- `float`, where no metric is a text. -/
def noText : String → Option Rat := fun _ => none

/-- Two rows of one day, with different dates: the one with the smaller date is
    not in the series. -/
theorem day_counted_in_part :
    stats_series noText [spent "2026-06-04" 1, spent "2026-06-04T00:00:00" 2] june june =
        .ok [⟨some "2026-06-04T00:00:00", ⟨2, 0, 0, 0, 0, 0⟩⟩] ∧
      usage noText [spent "2026-06-04" 1, spent "2026-06-04T00:00:00" 2] june =
        ⟨3, 0, 0, 0, 0, 0⟩ ∧
      ¬ ∃ series, stats_series noText [spent "2026-06-04" 1, spent "2026-06-04T00:00:00" 2]
          june june = .ok series ∧
        Conserves noText [spent "2026-06-04" 1, spent "2026-06-04T00:00:00" 2] june june
          series := by
  have hseries : stats_series noText [spent "2026-06-04" 1, spent "2026-06-04T00:00:00" 2]
      june june = .ok [⟨some "2026-06-04T00:00:00", ⟨2, 0, 0, 0, 0, 0⟩⟩] := by
    -- two texts of one day are two entries, and the later one is placed
    have haggregate : aggregate_series noText
        [spent "2026-06-04" 1, spent "2026-06-04T00:00:00" 2] =
          [⟨some "2026-06-04", ⟨1, 0, 0, 0, 0, 0⟩⟩,
            ⟨some "2026-06-04T00:00:00", ⟨2, 0, 0, 0, 0, 0⟩⟩] := by
      unfold aggregate_series
      simp only [List.foldl_cons, List.foldl_nil, accumulate_day_series, day_series_entry_spent,
        zero_add]
      rfl
    unfold stats_series
    rw [haggregate]
    rfl
  have husage : usage noText [spent "2026-06-04" 1, spent "2026-06-04T00:00:00" 2] june =
      ⟨3, 0, 0, 0, 0, 0⟩ := by
    have hboth : usage noText [spent "2026-06-04" 1, spent "2026-06-04T00:00:00" 2] june =
        total noText [spent "2026-06-04" 1, spent "2026-06-04T00:00:00" 2] := by rfl
    have hsum : (1 : Rat) + 2 = 3 := by decide +kernel
    rw [hboth]
    simp [total, figuresOf_spent, Figures.add_def, hsum]
  refine ⟨hseries, husage, ?_⟩
  intro ⟨series, hok, days, hdays, hentries, _⟩
  rw [hseries] at hok
  cases hok
  obtain ⟨day, rest, hentry, _, hcons⟩ := List.forall₂_cons_right_iff.mp hentries
  have hday : (days.get ⟨0, by simp [hcons]⟩).ordinal = june.ordinal + (0 : Nat) := hdays.get 0 _
  subst hcons
  obtain rfl : day = june := PyDate.ordinal_injective (hday.trans (add_zero _))
  have hspend := congrArg Figures.spend hentry.2
  rw [husage] at hspend
  revert hspend
  decide

/-- One row for each day. -/
theorem conserves_iff_june :
    (june.ordinal ≤ june.ordinal ∧ span_days june june ≤ MAX_RANGE_DAYS) ∧
      ∃ series, stats_series noText [spent "2026-06-04" 1, spent "2026-06-04" 2] june june =
          .ok series ∧
        Conserves noText [spent "2026-06-04" 1, spent "2026-06-04" 2] june june series := by
  have hspan : span_days june june ≤ MAX_RANGE_DAYS := by decide
  refine ⟨⟨le_refl _, hspan⟩, (conserves_iff noText _ (le_refl _) hspan).mpr ?_⟩
  refine ⟨by decide, ?_⟩
  intro day hfirst hlast
  obtain rfl : day = june := PyDate.ordinal_injective (le_antisymm hlast hfirst)
  rfl

end AlitellmAuth.Stats
