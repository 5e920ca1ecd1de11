import AlitellmAuth.Framework.PyDate
import AlitellmAuth.Stats.TopKeys

/-! # The window of the usage page

    `session.py`: both `/stats` and `/latency` take an optional start and end
    date. The window is parsed and bounded; `/stats` compares it with the
    window of the same length before it, and `stats.py` makes one entry for
    each of its days.

    * `parse_stats_range`: the window, or a 422.
    * `session_stats_dates`, `session_latency_dates`: what the two routes do
      with dates.
    * `windows_formed_iff`: they stay within the calendar unless a window
      reaches for a day before its first or behind its last one. Python calls
      that an overflow, which is no `ValueError`.
-/

namespace AlitellmAuth.Stats

open Calendar

/-! ## The routes -/

def DEFAULT_RANGE_DAYS : Int := 30

def MAX_RANGE_DAYS : Int := 366

/-- What ends a route early: a 422, or an `OverflowError`. -/
inductive DateError where
  | unprocessable (detail : String)
  | overflow

/-- `d + timedelta(days=k)`. -/
def plus_days (d : PyDate) (k : Int) : Except DateError PyDate :=
  match d.shift k with
  | some d' => .ok d'
  | none => .error .overflow

/-- `date.fromisoformat`, with its `ValueError` translated. -/
def from_iso (text : String) : Except DateError PyDate :=
  match fromisoformat text with
  | some d => .ok d
  | none => .error (.unprocessable "start_date/end_date must be YYYY-MM-DD")

/-- `(end - start).days + 1`. -/
def span_days (start end_ : PyDate) : Int := end_.ordinal - start.ordinal + 1

/-- The end of the window: today unless a date is given. -/
def parse_end (today : PyDate) (end_date : Option String) : Except DateError PyDate :=
  match present end_date with
  | some text => from_iso text
  | none => .ok today

/-- The start of the window: 30 days up to its end unless a date is given. -/
def parse_start (start_date : Option String) (end_ : PyDate) : Except DateError PyDate :=
  match present start_date with
  | some text => from_iso text
  | none => plus_days end_ (-(DEFAULT_RANGE_DAYS - 1))

/-- The bounds of the window. -/
def check_range (start end_ : PyDate) : Except DateError (PyDate × PyDate) :=
  if start.ordinal > end_.ordinal then
    .error (.unprocessable "start_date must not be after end_date")
  else if span_days start end_ > MAX_RANGE_DAYS then
    .error (.unprocessable ("date range too large (max " ++ toString MAX_RANGE_DAYS ++
      " days, got " ++ toString (span_days start end_) ++ ")"))
  else .ok (start, end_)

/-- `_parse_stats_range`. -/
def parse_stats_range (today : PyDate) (start_date end_date : Option String) :
    Except DateError (PyDate × PyDate) := do
  let end_ ← parse_end today end_date
  let start ← parse_start start_date end_
  check_range start end_

/-- The days of a window, one after the other: the loop of `_zero_fill_series`,
    with a bound on its rounds. After each round the day moves on, after the
    last one as well. -/
def fill_days (end_ : PyDate) : Nat → PyDate → Except DateError (List PyDate)
  | 0, _ => .ok []
  | rounds + 1, d =>
      if d.ordinal ≤ end_.ordinal then do
        let next ← plus_days d 1
        return d :: (← fill_days end_ rounds next)
      else .ok []

/-- The rounds of a window that `_zero_fill_series` fills: 400 days at most. -/
def FILL_ROUNDS : Nat := 401

/-- The dates of `/stats`. -/
structure StatsWindow where
  start : PyDate
  end_ : PyDate
  span : Int
  prev_start : PyDate
  prev_end : PyDate

/-- What `session_stats` does with dates before it fetches anything. -/
def session_stats_window (today : PyDate) (start_date end_date : Option String) :
    Except DateError StatsWindow := do
  let (start, end_) ← parse_stats_range today start_date end_date
  let span := span_days start end_
  let prev_end ← plus_days start (-1)
  let prev_start ← plus_days prev_end (-(span - 1))
  return { start, end_, span, prev_start, prev_end }

/-- What `session_stats` does with dates: the window, and the days of the series
    once the usage has been fetched. -/
def session_stats_dates (today : PyDate) (start_date end_date : Option String) :
    Except DateError (StatsWindow × List PyDate) := do
  let window ← session_stats_window today start_date end_date
  return (window, ← fill_days window.end_ FILL_ROUNDS window.start)

/-- What `session_latency` does with dates: start, end and number of days. -/
def session_latency_dates (today : PyDate) (start_date end_date : Option String) :
    Except DateError (PyDate × PyDate × Int) := do
  let (start, end_) ← parse_stats_range today start_date end_date
  return (start, end_, span_days start end_)

/-! ## What the routes should do -/

/-- A window of 1 to 366 days. -/
structure Formed (start end_ : PyDate) (span : Int) : Prop where
  ordered : start.ordinal ≤ end_.ordinal
  days : span = end_.ordinal - start.ordinal + 1
  long_enough : 1 ≤ span
  short_enough : span ≤ MAX_RANGE_DAYS

/-- A window with one of the same length right before it. -/
structure Compared (w : StatsWindow) : Prop extends Formed w.start w.end_ w.span where
  day_before : w.prev_end.ordinal = w.start.ordinal - 1
  same_length : w.prev_end.ordinal - w.prev_start.ordinal + 1 = w.span

/-- A 422, or a good result: no other exception. -/
def Answers {α : Type} (good : α → Prop) : Except DateError α → Prop
  | .ok a => good a
  | .error (.unprocessable _) => True
  | .error .overflow => False

/-- Both routes answer 422 or go on with a well formed window. -/
def WindowsFormed (today : PyDate) (start_date end_date : Option String) : Prop :=
  Answers (fun (w, _) => Compared w) (session_stats_dates today start_date end_date) ∧
    Answers (fun (start, end_, span) => Formed start end_ span)
      (session_latency_dates today start_date end_date)

/-- The end date of a request: today unless one is given. -/
def requested_end (today : PyDate) (end_date : Option String) : Option PyDate :=
  match present end_date with
  | some text => fromisoformat text
  | none => some today

/-- The start date of a request that gives one. -/
def requested_start (start_date : Option String) (end_ : PyDate) : Option PyDate :=
  match present start_date with
  | some text => fromisoformat text
  | none => end_.shift (-29)

/-- The dates keep their distance from both ends of the calendar: the default
    start is a date, and an accepted window has as many days before it as it has
    itself, and one day after it. -/
def WithinCalendar (today : PyDate) (start_date end_date : Option String) : Prop :=
  ∀ end_, requested_end today end_date = some end_ →
    (present start_date = none → 29 < end_.ordinal) ∧
      ∀ start, requested_start start_date end_ = some start → start.ordinal ≤ end_.ordinal →
        span_days start end_ ≤ MAX_RANGE_DAYS →
          span_days start end_ < start.ordinal ∧ end_.ordinal < MAXORDINAL

/-! ## The range -/

section
variable {today : PyDate} {start_date end_date : Option String}

theorem plus_days_eq (d : PyDate) (k : Int) :
    (∃ d', plus_days d k = .ok d' ∧ d'.ordinal = d.ordinal + k) ∨
      plus_days d k = .error .overflow ∧ (d.ordinal + k < 1 ∨ MAXORDINAL < d.ordinal + k) := by
  unfold plus_days
  cases hshift : d.shift k with
  | some d' => exact .inl ⟨d', rfl, PyDate.shift_eq_some_iff.mp hshift⟩
  | none => exact .inr ⟨rfl, PyDate.shift_eq_none_iff.mp hshift⟩

/-- What a range is made of. -/
inductive RangeCases (today : PyDate) (start_date end_date : Option String) :
    Except DateError (PyDate × PyDate) → Prop where
  | rejected (detail : String)
      (h : ∀ start end_, requested_end today end_date = some end_ →
        requested_start start_date end_ = some start →
          ¬ (start.ordinal ≤ end_.ordinal ∧ span_days start end_ ≤ MAX_RANGE_DAYS))
      (hdefault : ∀ end_, requested_end today end_date = some end_ →
        present start_date = none → 29 < end_.ordinal) :
      RangeCases today start_date end_date (.error (.unprocessable detail))
  | overflow (end_ : PyDate) (hend : requested_end today end_date = some end_)
      (hdefault : present start_date = none) (h : end_.ordinal ≤ 29) :
      RangeCases today start_date end_date (.error .overflow)
  | accepted (start end_ : PyDate) (hend : requested_end today end_date = some end_)
      (hstart : requested_start start_date end_ = some start)
      (hordered : start.ordinal ≤ end_.ordinal) (hspan : span_days start end_ ≤ MAX_RANGE_DAYS) :
      RangeCases today start_date end_date (.ok (start, end_))

theorem parse_end_eq : parse_end today end_date =
    match requested_end today end_date with
    | some end_ => .ok end_
    | none => .error (.unprocessable "start_date/end_date must be YYYY-MM-DD") := by
  unfold parse_end requested_end from_iso
  cases present end_date with
  | none => rfl
  | some text => rfl

/-- The start is a date, or none was given and the default lies before the first
    day of the calendar, or a text was given that is no date. -/
theorem parse_start_cases (start_date : Option String) (end_ : PyDate) :
    (∃ start, parse_start start_date end_ = .ok start ∧
        requested_start start_date end_ = some start ∧
        (present start_date = none → 29 < end_.ordinal)) ∨
      (parse_start start_date end_ = .error .overflow ∧ present start_date = none ∧
        end_.ordinal ≤ 29) ∨
      ∃ detail, parse_start start_date end_ = .error (.unprocessable detail) ∧
        requested_start start_date end_ = none ∧ present start_date ≠ none := by
  have hend := end_.ordinal_bounds
  unfold parse_start requested_start
  cases hpresent : present start_date with
  | some text =>
    dsimp only
    unfold from_iso
    cases fromisoformat text with
    | some start => exact .inl ⟨start, rfl, rfl, by simp⟩
    | none => exact .inr (.inr ⟨_, rfl, rfl, by simp⟩)
  | none =>
    dsimp only
    show (∃ start, plus_days end_ (-29) = _ ∧ _) ∨ (plus_days end_ (-29) = _ ∧ _) ∨ _
    -- no start is given: the first of thirty days, if there are so many
    rcases plus_days_eq end_ (-29) with ⟨start, hplus, hordinal⟩ | ⟨hplus, hout⟩
    · have hstart := start.ordinal_bounds
      refine .inl ⟨start, hplus, PyDate.shift_eq_some_iff.mpr hordinal, ?_⟩
      intro _
      omega
    · refine .inr (.inl ⟨hplus, rfl, ?_⟩)
      omega

theorem check_range_cases (start end_ : PyDate) :
    (check_range start end_ = .ok (start, end_) ∧ start.ordinal ≤ end_.ordinal ∧
        span_days start end_ ≤ MAX_RANGE_DAYS) ∨
      ∃ detail, check_range start end_ = .error (.unprocessable detail) ∧
        ¬ (start.ordinal ≤ end_.ordinal ∧ span_days start end_ ≤ MAX_RANGE_DAYS) := by
  unfold check_range
  by_cases hordered : start.ordinal > end_.ordinal
  · rw [if_pos hordered]
    exact .inr ⟨_, rfl, by omega⟩
  · rw [if_neg hordered]
    by_cases hspan : span_days start end_ > MAX_RANGE_DAYS
    · rw [if_pos hspan]
      exact .inr ⟨_, rfl, by omega⟩
    · rw [if_neg hspan]
      exact .inl ⟨rfl, by omega, by omega⟩

theorem parse_stats_range_cases (today : PyDate) (start_date end_date : Option String) :
    RangeCases today start_date end_date (parse_stats_range today start_date end_date) := by
  unfold parse_stats_range
  rw [parse_end_eq]
  cases hend : requested_end today end_date with
  | none =>
    apply RangeCases.rejected
    · intro start end_ hend'
      rw [hend] at hend'
      cases hend'
    · intro end_ hend'
      rw [hend] at hend'
      cases hend'
  | some end_ =>
    show RangeCases today start_date end_date (parse_start start_date end_ >>= fun start =>
      check_range start end_)
    -- the end is the only one that was requested
    have hends : ∀ end_', requested_end today end_date = some end_' → end_' = end_ := by
      intro end_' hend'
      rw [hend] at hend'
      exact (Option.some.inj hend').symm
    rcases parse_start_cases start_date end_ with ⟨start, hparse, hstart, hdefault⟩ |
      ⟨hparse, hnone, hle⟩ | ⟨detail, hparse, hnone, hsome⟩
    · rw [hparse]
      show RangeCases today start_date end_date (check_range start end_)
      rcases check_range_cases start end_ with ⟨hcheck, hordered, hspan⟩ | ⟨detail, hcheck, hnot⟩
      · rw [hcheck]
        exact .accepted start end_ hend hstart hordered hspan
      · rw [hcheck]
        apply RangeCases.rejected
        · intro start' end_' hend' hstart'
          obtain rfl := hends end_' hend'
          rw [hstart] at hstart'
          cases hstart'
          exact hnot
        · intro end_' hend' hnone
          obtain rfl := hends end_' hend'
          exact hdefault hnone
    · rw [hparse]
      exact .overflow end_ hend hnone hle
    · rw [hparse]
      apply RangeCases.rejected
      · intro start' end_' hend' hstart'
        obtain rfl := hends end_' hend'
        rw [hnone] at hstart'
        cases hstart'
      · intro end_' _ hno
        exact absurd hno hsome

/-! ## The windows -/

/-- The loop makes one entry for each day of the window, unless the window ends
    with the last day of the calendar. -/
theorem fill_days_spec {end_ : PyDate} (rounds : Nat) (d : PyDate)
    (hrounds : end_.ordinal - d.ordinal + 1 ≤ rounds) :
    (end_.ordinal < MAXORDINAL ∨ end_.ordinal < d.ordinal →
      ∃ days, fill_days end_ rounds d = .ok days ∧
        days.length = (end_.ordinal - d.ordinal + 1).toNat ∧
        ∀ i (h : i < days.length), (days.get ⟨i, h⟩).ordinal = d.ordinal + i) ∧
      (end_.ordinal = MAXORDINAL → d.ordinal ≤ end_.ordinal →
        fill_days end_ rounds d = .error .overflow) := by
  -- on the rounds that are left, for every day to start from
  induction rounds generalizing d with
  | zero =>
    constructor
    · intro _
      exact ⟨[], rfl, by simp; omega, by simp⟩
    · intro _ hle
      omega
  | succ rounds ih =>
    unfold fill_days
    by_cases hle : d.ordinal ≤ end_.ordinal
    · rw [if_pos hle]
      -- the step to the next day, which the last day of the calendar does not have
      rcases plus_days_eq d 1 with ⟨next, hplus, hnext⟩ | ⟨hplus, hout⟩
      · obtain ⟨hfilled, hoverflow⟩ := ih next (by omega)
        rw [hplus]
        constructor
        · intro hlast
          obtain ⟨days, hdays, hlength, hget⟩ := hfilled (by omega)
          refine ⟨d :: days, ?_, by simp; omega, ?_⟩
          · show (do return d :: (← fill_days end_ rounds next)) = _
            rw [hdays]
            rfl
          · intro i h
            cases i with
            | zero => simp
            | succ i =>
              have hi := hget i (by simpa using h)
              show (days.get ⟨i, _⟩).ordinal = _
              rw [hi, hnext]
              push_cast
              omega
        · intro hlast hle'
          have hbounds := next.ordinal_bounds
          show (do return d :: (← fill_days end_ rounds next)) = _
          rw [hoverflow hlast (by omega)]
          rfl
      · rw [hplus]
        have hbounds := d.ordinal_bounds
        have hend := end_.ordinal_bounds
        constructor
        · intro hlast
          omega
        · intro _ _
          rfl
    · rw [if_neg hle]
      constructor
      · intro _
        exact ⟨[], rfl, by simp; omega, by simp⟩
      · intro _ hle'
        exact absurd hle' hle

/-- What `session_stats` does with an accepted range. -/
def stats_dates_of (start end_ : PyDate) : Except DateError (StatsWindow × List PyDate) := do
  let span := span_days start end_
  let prev_end ← plus_days start (-1)
  let prev_start ← plus_days prev_end (-(span - 1))
  return (⟨start, end_, span, prev_start, prev_end⟩, ← fill_days end_ FILL_ROUNDS start)

theorem session_stats_dates_eq (today : PyDate) (start_date end_date : Option String) :
    session_stats_dates today start_date end_date =
      (parse_stats_range today start_date end_date >>= fun (start, end_) =>
        stats_dates_of start end_) := by
  unfold session_stats_dates session_stats_window stats_dates_of
  cases parse_stats_range today start_date end_date with
  | error e => rfl
  | ok range =>
    obtain ⟨start, end_⟩ := range
    show ((plus_days start (-1) >>= fun prev_end =>
      plus_days prev_end (-(span_days start end_ - 1)) >>= fun prev_start =>
        (.ok ⟨start, end_, span_days start end_, prev_start, prev_end⟩ : Except _ StatsWindow)) >>= _) =
        (plus_days start (-1) >>= _)
    cases plus_days start (-1) with
    | error e => rfl
    | ok prev_end =>
      show ((plus_days prev_end _ >>= _) >>= _) = (plus_days prev_end _ >>= _)
      cases plus_days prev_end (-(span_days start end_ - 1)) with
      | error e => rfl
      | ok prev_start => rfl

/-- An accepted range is compared and filled if and only if it is within the
    calendar. -/
theorem stats_dates_iff {start end_ : PyDate} (hordered : start.ordinal ≤ end_.ordinal)
    (hspan : span_days start end_ ≤ MAX_RANGE_DAYS) :
    Answers (fun (w, _) => Compared w) (stats_dates_of start end_) ↔
      span_days start end_ < start.ordinal ∧ end_.ordinal < MAXORDINAL := by
  have hdays : span_days start end_ = end_.ordinal - start.ordinal + 1 := rfl
  have hmax : MAX_RANGE_DAYS = 366 := rfl
  have hfill := @fill_days_spec end_ FILL_ROUNDS start (by
    unfold FILL_ROUNDS
    omega)
  have hend := end_.ordinal_bounds
  have hstart := start.ordinal_bounds
  unfold stats_dates_of
  rcases plus_days_eq start (-1) with ⟨prev_end, hplus, hprev_end⟩ | ⟨hplus, hout⟩
  · rw [hplus]
    show Answers _ (plus_days prev_end (-(span_days start end_ - 1)) >>= fun prev_start =>
      fill_days end_ FILL_ROUNDS start >>= fun days => (Except.ok
        ((⟨start, end_, span_days start end_, prev_start, prev_end⟩ : StatsWindow), days) :
          Except DateError _)) ↔ _
    have hprev := prev_end.ordinal_bounds
    rcases plus_days_eq prev_end (-(span_days start end_ - 1)) with
      ⟨prev_start, hplus', hprev_start⟩ | ⟨hplus', hout⟩
    · rw [hplus']
      show Answers _ (fill_days end_ FILL_ROUNDS start >>= fun days => (Except.ok
        ((⟨start, end_, span_days start end_, prev_start, prev_end⟩ : StatsWindow), days) :
          Except DateError _)) ↔ _
      have hfirst := prev_start.ordinal_bounds
      by_cases hlast : end_.ordinal = MAXORDINAL
      · rw [hfill.2 hlast hordered]
        -- the loop leaves the calendar behind the last day
        refine iff_of_false not_false ?_
        omega
      · obtain ⟨days, hok, -⟩ := hfill.1 (by omega)
        rw [hok]
        show Compared ⟨start, end_, span_days start end_, prev_start, prev_end⟩ ↔ _
        constructor
        · intro _
          omega
        · intro _
          refine ⟨⟨hordered, rfl, ?_, hspan⟩, ?_, ?_⟩
          · show 1 ≤ span_days start end_
            omega
          · show prev_end.ordinal = start.ordinal - 1
            omega
          · show prev_end.ordinal - prev_start.ordinal + 1 = span_days start end_
            omega
    · rw [hplus']
      refine iff_of_false not_false ?_
      omega
  · rw [hplus]
    refine iff_of_false not_false ?_
    omega

/-- Both routes answer 422 or go on with a well formed window if and only if the
    dates keep their distance from both ends of the calendar. -/
theorem windows_formed_iff (today : PyDate) (start_date end_date : Option String) :
    WindowsFormed today start_date end_date ↔ WithinCalendar today start_date end_date := by
  unfold WindowsFormed
  rw [session_stats_dates_eq]
  unfold session_latency_dates
  have hcases := parse_stats_range_cases today start_date end_date
  generalize parse_stats_range today start_date end_date = range at hcases ⊢
  cases hcases with
  | rejected detail h hdefault =>
    refine iff_of_true ⟨trivial, trivial⟩ ?_
    intro end_ hend
    refine ⟨hdefault end_ hend, ?_⟩
    intro start hstart hordered hspan
    exact absurd ⟨hordered, hspan⟩ (h start end_ hend hstart)
  | overflow end_ hend hdefault h =>
    refine iff_of_false (fun hformed => hformed.1) ?_
    intro hwithin
    have hlate := (hwithin end_ hend).1 hdefault
    omega
  | accepted start end_ hend hstart hordered hspan =>
    show Answers _ (stats_dates_of start end_) ∧ Formed start end_ (span_days start end_) ↔ _
    have hformed : Formed start end_ (span_days start end_) := by
      refine ⟨hordered, rfl, ?_, hspan⟩
      unfold span_days
      omega
    rw [and_iff_left hformed, stats_dates_iff hordered hspan]
    constructor
    · intro h end_' hend'
      rw [hend] at hend'
      cases hend'
      constructor
      · -- a default start lies within the calendar
        intro hnone
        unfold requested_start at hstart
        rw [hnone] at hstart
        have hordinal := PyDate.shift_eq_some_iff.mp hstart
        have hbounds := start.ordinal_bounds
        omega
      · intro start' hstart' _ _
        rw [hstart] at hstart'
        cases hstart'
        exact h
    · intro hwithin
      exact (hwithin end_ hend).2 start hstart hordered hspan

end

/-- The 4th of June 2026. -/
def june : PyDate := ⟨⟨2026, 6, 4, by decide, by decide, by decide, by decide⟩, by decide⟩

/-- The day before the first one, and the day behind the last one. -/
theorem window_leaves_calendar :
    session_stats_dates june (some "0001-01-01") (some "0001-01-01") = .error .overflow ∧
    session_stats_dates june (some "9999-12-31") (some "9999-12-31") = .error .overflow ∧
    session_latency_dates june none (some "00010105") = .error .overflow ∧
    ¬ WindowsFormed june (some "0001-01-01") (some "0001-01-01") := by
  have hfirst : session_stats_dates june (some "0001-01-01") (some "0001-01-01") =
      .error .overflow := by rfl
  refine ⟨hfirst, by rfl, by rfl, ?_⟩
  intro h
  have hstats := h.1
  rw [hfirst] at hstats
  exact hstats

end AlitellmAuth.Stats
