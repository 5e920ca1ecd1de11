import AlitellmAuth.Stats.Window

/-! # The presets of the usage page

    `stats-presets.ts`: the named ranges of the page as two dates. The dates are
    computed in JavaScript, from milliseconds, and parsed and bounded by the
    server in Python.

    * `presetToRange`: the two dates of a preset.
    * `Means`: what the name of a preset promises.
    * `presets_accepted`: the server accepts every preset, and its dates are
      the promised ones.
-/

namespace AlitellmAuth.Ui

open Calendar

/-! ## Dates in JavaScript -/

def MS_PER_DAY : Int := 86400000

/-- The number of the 1st of January 1970. -/
def EPOCH : Int := 719163

/-- The UTC date of a time value. -/
def utcDate (t : Int) : Calendar.Date := ofOrdinal (t / MS_PER_DAY + EPOCH)

def getUTCFullYear (t : Int) : Int := (utcDate t).year

/-- Months are counted from zero. -/
def getUTCMonth (t : Int) : Int := (utcDate t).month - 1

def getUTCDate (t : Int) : Int := (utcDate t).day

/-- `Date.UTC(year, month, day)`: a month beyond the year moves the year, and a
    year below 100 is one of the 20th century. -/
def dateUTC (year month day : Int) : Int :=
  let year := if 0 ≤ year ∧ year ≤ 99 then 1900 + year else year
  let y := year + month / 12
  let m := (month % 12).toNat + 1
  (daysBeforeYear y + daysBeforeMonth (isLeap y) m + day - EPOCH) * MS_PER_DAY

/-- `String(n).padStart(2, '0')`. -/
def padStart2 (n : Int) : List Char :=
  let s := (toString n).toList
  List.replicate (2 - s.length) '0' ++ s

/-- `Math.round(a / b)`. -/
def roundDiv (a b : Int) : Int := (2 * a + b) / (2 * b)

/-! ## The presets -/

/-- The cap of the server. -/
def MAX_RANGE_DAYS : Int := 366

structure Range where
  start : String
  end_ : String

def toUTCDateString (d : Int) : String :=
  String.ofList ((toString (getUTCFullYear d)).toList ++
    '-' :: (padStart2 (getUTCMonth d + 1) ++ '-' :: padStart2 (getUTCDate d)))

def utcMidnight (d : Int) : Int := dateUTC (getUTCFullYear d) (getUTCMonth d) (getUTCDate d)

def inclusiveSpan (startDate endDate : Int) : Int := roundDiv (endDate - startDate) MS_PER_DAY + 1

def clampRange (startDate endDate : Int) : Range :=
  if inclusiveSpan startDate endDate > MAX_RANGE_DAYS then
    let clampedStart := endDate - (MAX_RANGE_DAYS - 1) * MS_PER_DAY
    { start := toUTCDateString clampedStart, end_ := toUTCDateString endDate }
  else { start := toUTCDateString startDate, end_ := toUTCDateString endDate }

section
variable (clamp : Int → Int → Range)

def rollingDays (n today : Int) : Range :=
  let start := today - (n - 1) * MS_PER_DAY
  clamp start today

/-- The range of a preset, given what is done with its two dates. -/
def rangeOf (preset : String) (now : Int) : Range :=
  let today := utcMidnight now
  match preset with
  | "7d" => rollingDays clamp 7 today
  | "30d" => rollingDays clamp 30 today
  | "90d" => rollingDays clamp 90 today
  | "This month" =>
      let start := dateUTC (getUTCFullYear today) (getUTCMonth today) 1
      clamp start today
  | "Last month" =>
      let firstOfThisMonth := dateUTC (getUTCFullYear today) (getUTCMonth today) 1
      let lastOfPrevMonth := firstOfThisMonth - MS_PER_DAY
      let firstOfPrevMonth := dateUTC (getUTCFullYear lastOfPrevMonth) (getUTCMonth lastOfPrevMonth) 1
      clamp firstOfPrevMonth lastOfPrevMonth
  | "This year" =>
      let start := dateUTC (getUTCFullYear today) 0 1
      clamp start today
  | "Custom" => rollingDays clamp 30 today
  | _ => rollingDays clamp 30 today

end

def presetToRange (preset : String) (now : Int) : Range := rangeOf clampRange preset now

/-- The range without the cap. -/
def uncapped (startDate endDate : Int) : Range :=
  { start := toUTCDateString startDate, end_ := toUTCDateString endDate }

/-! ## What the presets promise -/

/-- The month before the one of a date. -/
def IsPreviousMonth (d before : Calendar.Date) : Prop :=
  if d.month = 1 then before.year = d.year - 1 ∧ before.month = 12
  else before.year = d.year ∧ before.month = d.month - 1

/-- The days from a first to a last one are all days of the month before the one
    of a date. -/
structure AllOfPreviousMonth (today first last : Calendar.Date) : Prop where
  previous : IsPreviousMonth today last
  first_day : first = last.firstOfMonth
  last_day : last = last.lastOfMonth

/-- The number of days of a rolling preset; every other one shows 30. -/
def rollingLength (preset : String) : Int :=
  if preset = "7d" then 7 else if preset = "90d" then 90 else 30

/-- What the name of a preset promises. -/
def Means (preset : String) (today first last : Calendar.Date) : Prop :=
  if preset = "This month" then first = today.firstOfMonth ∧ last = today
  else if preset = "Last month" then AllOfPreviousMonth today first last
  else if preset = "This year" then first = today.firstOfYear ∧ last = today
  else last = today ∧ last.ordinal - first.ordinal + 1 = rollingLength preset

/-- The server accepts the range, as two dates that are the promised ones, and
    the cap has left them as they were. -/
structure Accepted (preset : String) (now : Int) (server_today : PyDate) : Prop where
  range : ∃ start end_ : PyDate,
    presetToRange preset now = ⟨start.isoformat, end_.isoformat⟩ ∧
    Stats.parse_stats_range server_today (some (presetToRange preset now).start)
      (some (presetToRange preset now).end_) = .ok (start, end_) ∧
    Stats.Formed start end_ (Stats.span_days start end_) ∧
    Means preset (utcDate now) start.val end_.val
  uncapped : presetToRange preset now = rangeOf uncapped preset now

/-! ## Midnights -/

/-- The time value at which a date begins. -/
def midnight (d : Calendar.Date) : Int := (d.ordinal - EPOCH) * MS_PER_DAY

theorem utcDate_midnight (d : Calendar.Date) : utcDate (midnight d) = d := by
  have hday : midnight d / MS_PER_DAY = d.ordinal - EPOCH :=
    Int.mul_ediv_cancel _ (by decide)
  unfold utcDate
  rw [hday, Int.sub_add_cancel, ofOrdinal_ordinal]

theorem midnight_ofOrdinal (n : Int) : midnight (ofOrdinal n) = (n - EPOCH) * MS_PER_DAY := by
  unfold midnight
  rw [ordinal_ofOrdinal]

/-- `Date.UTC` of the parts of a date, with another day of the month. -/
theorem dateUTC_eq {d : Calendar.Date} (hyear : 100 ≤ d.year) (day : Nat) :
    dateUTC d.year ((d.month : Int) - 1) day =
      (d.ordinal - d.day + day - EPOCH) * MS_PER_DAY := by
  have hpos := d.month_pos
  have hle := d.month_le
  have hquot : ((d.month : Int) - 1) / 12 = 0 := by omega
  have hrem : (((d.month : Int) - 1) % 12).toNat + 1 = d.month := by omega
  unfold dateUTC Date.ordinal
  rw [if_neg (by omega)]
  dsimp only
  rw [hquot, hrem, Int.add_zero]
  congr 1
  omega

theorem dateUTC_first {d : Calendar.Date} (hyear : 100 ≤ d.year) :
    dateUTC d.year ((d.month : Int) - 1) 1 = midnight d.firstOfMonth := by
  have h := dateUTC_eq hyear 1
  unfold midnight
  rw [d.ordinal_firstOfMonth]
  exact h

theorem dateUTC_january {d : Calendar.Date} (hyear : 100 ≤ d.year) :
    dateUTC d.year 0 1 = midnight d.firstOfYear := by
  unfold dateUTC midnight
  rw [if_neg (by omega), d.ordinal_firstOfYear]
  show (daysBeforeYear (d.year + 0) + ((0 : Nat) : Int) + 1 - EPOCH) * MS_PER_DAY = _
  rw [Int.add_zero]
  congr 1
  omega

theorem utcMidnight_eq {now : Int} (hyear : 100 ≤ (utcDate now).year) :
    utcMidnight now = midnight (utcDate now) := by
  have h := dateUTC_eq hyear (utcDate now).day
  unfold utcMidnight midnight
  rw [Int.sub_add_cancel] at h
  exact h

theorem midnight_minus (d : Calendar.Date) (k : Int) :
    midnight d - k * MS_PER_DAY = midnight (ofOrdinal (d.ordinal - k)) := by
  rw [midnight_ofOrdinal]
  unfold midnight
  rw [← Int.sub_mul]
  congr 1
  omega

theorem inclusiveSpan_midnight (d d' : Calendar.Date) :
    inclusiveSpan (midnight d) (midnight d') = d'.ordinal - d.ordinal + 1 := by
  unfold inclusiveSpan roundDiv midnight MS_PER_DAY
  omega

/-! ## Texts -/

theorem padStart2_eq {n : Nat} (h : n < 100) : padStart2 (n : Int) = digits 2 n := by
  have hall : ∀ n : Fin 100, padStart2 ((n.val : Nat) : Int) = digits 2 n.val := by decide +kernel
  exact hall ⟨n, h⟩

theorem toUTCDateString_midnight (d : PyDate) (hyear : 1000 ≤ d.val.year) :
    toUTCDateString (midnight d.val) = d.isoformat := by
  have hmonth : d.val.month < 100 := by
    have h := d.val.month_le
    omega
  have hday : d.val.day < 100 := by
    have h := d.val.day_le
    have hbounds := monthLength_bounds (isLeap d.val.year) d.val.month
    omega
  have hyear_text : (toString d.val.year).toList = digits 4 d.val.year.toNat := by
    obtain ⟨n, hn⟩ : ∃ n : Nat, d.val.year = n := ⟨d.val.year.toNat, by omega⟩
    have hle := d.property.2
    rw [hn]
    show (Nat.repr n).toList = digits 4 n
    rw [Nat.toList_repr, digits_eq_toDigits 3 n (by omega) (by omega)]
  unfold toUTCDateString getUTCFullYear getUTCMonth getUTCDate PyDate.isoformat
  rw [utcDate_midnight, hyear_text, Int.sub_add_cancel, padStart2_eq hmonth, padStart2_eq hday]

/-! ## The server's side -/

theorem parse_isoformat (today : PyDate) {start end_ : PyDate} (hordered : start.ordinal ≤ end_.ordinal)
    (hspan : Stats.span_days start end_ ≤ Stats.MAX_RANGE_DAYS) :
    Stats.parse_stats_range today (some start.isoformat) (some end_.isoformat) =
      .ok (start, end_) := by
  have hpresent (d : PyDate) : Stats.present (some d.isoformat) = some d.isoformat := by
    have hne : d.isoformat ≠ "" := by
      intro hempty
      have hlength := isoformat_length d
      rw [hempty] at hlength
      cases hlength
    simp [Stats.present, hne]
  have hread (d : PyDate) : Stats.from_iso d.isoformat = .ok d := by
    unfold Stats.from_iso
    rw [fromisoformat_isoformat]
  unfold Stats.parse_stats_range Stats.parse_end Stats.parse_start
  rw [hpresent, hpresent]
  show (Stats.from_iso end_.isoformat >>= fun end_ => Stats.from_iso start.isoformat >>=
    fun start => Stats.check_range start end_) = _
  rw [hread, hread]
  show Stats.check_range start end_ = _
  rcases Stats.check_range_cases start end_ with ⟨hcheck, -⟩ | ⟨detail, -, hnot⟩
  · exact hcheck
  · exact absurd ⟨hordered, hspan⟩ hnot

theorem clampRange_midnight {start end_ : PyDate} (hstart : 1000 ≤ start.val.year)
    (hend : 1000 ≤ end_.val.year) (hspan : Stats.span_days start end_ ≤ MAX_RANGE_DAYS) :
    clampRange (midnight start.val) (midnight end_.val) = ⟨start.isoformat, end_.isoformat⟩ ∧
      uncapped (midnight start.val) (midnight end_.val) = ⟨start.isoformat, end_.isoformat⟩ := by
  have hdays : inclusiveSpan (midnight start.val) (midnight end_.val) =
      Stats.span_days start end_ := inclusiveSpan_midnight _ _
  unfold clampRange uncapped
  rw [if_neg (by omega), toUTCDateString_midnight start hstart, toUTCDateString_midnight end_ hend]
  exact ⟨rfl, rfl⟩

/-- A preset is accepted if it is a range between two midnights of at most 366
    days, and the days are the promised ones. -/
theorem accepted_of {preset : String} {now : Int} {server_today : PyDate} (start end_ : PyDate)
    (hrange : ∀ clamp, rangeOf clamp preset now = clamp (midnight start.val) (midnight end_.val))
    (hstart : 1000 ≤ start.val.year) (hordered : start.ordinal ≤ end_.ordinal)
    (hspan : end_.ordinal - start.ordinal + 1 ≤ 366)
    (hmeans : Means preset (utcDate now) start.val end_.val) : Accepted preset now server_today := by
  have hend : 1000 ≤ end_.val.year := by
    have hyear : start.val.year ≤ end_.val.year := year_le_of_ordinal hordered
    omega
  obtain ⟨hcapped, huncapped⟩ := clampRange_midnight hstart hend hspan
  have htexts : presetToRange preset now = ⟨start.isoformat, end_.isoformat⟩ :=
    (hrange clampRange).trans hcapped
  refine ⟨⟨start, end_, htexts, ?_, ⟨hordered, rfl, ?_, hspan⟩, hmeans⟩, ?_⟩
  · rw [htexts]
    exact parse_isoformat server_today hordered hspan
  · show 1 ≤ end_.ordinal - start.ordinal + 1
    omega
  · rw [htexts, hrange, huncapped]

/-! ## Every preset -/

section
variable {now : Int} (hyear : 1001 ≤ (utcDate now).year ∧ (utcDate now).year ≤ 9999)
include hyear

/-- A day not long before today is a date of Python's, of the year 1000 at
    least. -/
theorem recent {d : Calendar.Date} (hlate : d.ordinal ≤ (utcDate now).ordinal)
    (hearly : (utcDate now).ordinal - 365 ≤ d.ordinal) :
    1000 ≤ d.year ∧ 1 ≤ d.year ∧ d.year ≤ 9999 := by
  have hle := year_le_of_ordinal hlate
  have hbounds := (utcDate now).dayOfYear_bounds
  have hmono := daysBeforeYear_mono hyear.1
  have hthousand : daysBeforeYear 1001 = daysBeforeYear 1000 + 365 := by decide
  have hge : 1000 ≤ d.year := le_year_of_ordinal (by omega)
  omega

theorem utcDate_today : utcMidnight now = midnight (utcDate now) :=
  utcMidnight_eq (by omega)

/-- A rolling preset ends today and has its number of days. -/
theorem rolling_accepted {preset : String} {server_today : PyDate} {n : Int} (hpos : 1 ≤ n)
    (hle : n ≤ 90) (hrange : ∀ clamp, rangeOf clamp preset now = rollingDays clamp n (utcMidnight now))
    (hmeans : ∀ first, (utcDate now).ordinal - first.ordinal + 1 = n →
      Means preset (utcDate now) first (utcDate now)) : Accepted preset now server_today := by
  obtain ⟨first, hfirst⟩ : ∃ d, d = ofOrdinal ((utcDate now).ordinal - (n - 1)) := ⟨_, rfl⟩
  have hordinal : first.ordinal = (utcDate now).ordinal - (n - 1) := by
    rw [hfirst, ordinal_ofOrdinal]
  have hrecent := recent hyear (d := first) (by omega) (by omega)
  apply accepted_of ⟨first, hrecent.2⟩ ⟨utcDate now, by omega⟩
  · intro clamp
    rw [hrange, utcDate_today hyear]
    show clamp (midnight (utcDate now) - (n - 1) * MS_PER_DAY) _ = _
    rw [midnight_minus, ← hfirst]
  · exact hrecent.1
  · show first.ordinal ≤ (utcDate now).ordinal
    omega
  · show (utcDate now).ordinal - first.ordinal + 1 ≤ 366
    omega
  · exact hmeans first (by omega)

theorem month_accepted (server_today : PyDate) : Accepted "This month" now server_today := by
  have hday := (utcDate now).day_le
  have hpos := (utcDate now).day_pos
  have hbounds := monthLength_bounds (isLeap (utcDate now).year) (utcDate now).month
  have hfirst := (utcDate now).ordinal_firstOfMonth
  have hrecent := recent hyear (d := (utcDate now).firstOfMonth) (by omega) (by omega)
  apply accepted_of ⟨(utcDate now).firstOfMonth, hrecent.2⟩ ⟨utcDate now, by omega⟩
  · intro clamp
    show clamp (dateUTC (getUTCFullYear (utcMidnight now)) (getUTCMonth (utcMidnight now)) 1)
      (utcMidnight now) = _
    rw [utcDate_today hyear]
    unfold getUTCFullYear getUTCMonth
    rw [utcDate_midnight, dateUTC_first (by omega)]
  · exact hrecent.1
  · show (utcDate now).firstOfMonth.ordinal ≤ (utcDate now).ordinal
    omega
  · show (utcDate now).ordinal - (utcDate now).firstOfMonth.ordinal + 1 ≤ 366
    omega
  · exact ⟨rfl, rfl⟩

theorem year_accepted (server_today : PyDate) : Accepted "This year" now server_today := by
  have hbounds := (utcDate now).dayOfYear_bounds
  have hfirst := (utcDate now).ordinal_firstOfYear
  have hlength : yearLength (utcDate now).year ≤ 366 := by
    unfold yearLength
    split <;> omega
  apply accepted_of ⟨(utcDate now).firstOfYear, by
    show 1 ≤ (utcDate now).year ∧ (utcDate now).year ≤ 9999
    omega⟩ ⟨utcDate now, by omega⟩
  · intro clamp
    show clamp (dateUTC (getUTCFullYear (utcMidnight now)) 0 1) (utcMidnight now) = _
    rw [utcDate_today hyear]
    unfold getUTCFullYear
    rw [utcDate_midnight, dateUTC_january (by omega)]
  · show 1000 ≤ (utcDate now).year
    omega
  · show (utcDate now).firstOfYear.ordinal ≤ (utcDate now).ordinal
    omega
  · show (utcDate now).ordinal - (utcDate now).firstOfYear.ordinal + 1 ≤ 366
    omega
  · exact ⟨rfl, rfl⟩

theorem last_month_accepted (server_today : PyDate) : Accepted "Last month" now server_today := by
  obtain ⟨last, hlast⟩ : ∃ d, d = ofOrdinal ((utcDate now).firstOfMonth.ordinal - 1) := ⟨_, rfl⟩
  have hordinal : last.ordinal = (utcDate now).firstOfMonth.ordinal - 1 := by
    rw [hlast, ordinal_ofOrdinal]
  obtain ⟨hfull, hmonth, hyears⟩ := month_before (utcDate now)
  rw [← hlast] at hfull hmonth hyears
  -- both months together are shorter than a year
  have hday := (utcDate now).day_le
  have hpos := (utcDate now).day_pos
  have hbounds := monthLength_bounds (isLeap (utcDate now).year) (utcDate now).month
  have hthis := (utcDate now).ordinal_firstOfMonth
  have hbounds' := monthLength_bounds (isLeap last.year) last.month
  have hlength := last.ordinal_lastOfMonth
  rw [hfull] at hlength
  have hrecent := recent hyear (d := last) (by omega) (by omega)
  have hrecent' := recent hyear (d := last.firstOfMonth) (by omega) (by omega)
  apply accepted_of ⟨last.firstOfMonth, hrecent'.2⟩ ⟨last, hrecent.2⟩
  · intro clamp
    have hminus : midnight (utcDate now).firstOfMonth - MS_PER_DAY = midnight last := by
      have h := midnight_minus (utcDate now).firstOfMonth 1
      rw [Int.one_mul, ← hlast] at h
      exact h
    show clamp (dateUTC (getUTCFullYear (dateUTC (getUTCFullYear (utcMidnight now))
        (getUTCMonth (utcMidnight now)) 1 - MS_PER_DAY))
      (getUTCMonth (dateUTC (getUTCFullYear (utcMidnight now)) (getUTCMonth (utcMidnight now)) 1 -
        MS_PER_DAY)) 1)
      (dateUTC (getUTCFullYear (utcMidnight now)) (getUTCMonth (utcMidnight now)) 1 - MS_PER_DAY) = _
    have hfirst : dateUTC (utcDate now).year ((utcDate now).month - 1) 1 =
        midnight (utcDate now).firstOfMonth := dateUTC_first (by omega)
    have hfirst' : dateUTC last.year (last.month - 1) 1 = midnight last.firstOfMonth :=
      dateUTC_first (by omega)
    rw [utcDate_today hyear]
    unfold getUTCFullYear getUTCMonth
    rw [utcDate_midnight, hfirst, hminus, utcDate_midnight, hfirst']
  · exact hrecent'.1
  · show last.firstOfMonth.ordinal ≤ last.ordinal
    omega
  · show last.ordinal - last.firstOfMonth.ordinal + 1 ≤ 366
    omega
  · refine ⟨?_, rfl, hfull.symm⟩
    unfold IsPreviousMonth
    by_cases hjanuary : (utcDate now).month = 1
    · rw [if_pos hjanuary] at hmonth hyears ⊢
      exact ⟨hyears, hmonth⟩
    · rw [if_neg hjanuary] at hmonth hyears ⊢
      exact ⟨hyears, hmonth⟩

/-- The server accepts every preset, and a preset means what it says. -/
theorem presets_accepted (preset : String) (server_today : PyDate) :
    Accepted preset now server_today := by
  have hdefault (h7 : preset ≠ "7d") (h90 : preset ≠ "90d") (hmonth : preset ≠ "This month")
      (hlast : preset ≠ "Last month") (hyear' : preset ≠ "This year")
      (hrange : ∀ clamp, rangeOf clamp preset now = rollingDays clamp 30 (utcMidnight now)) :
      Accepted preset now server_today := by
    apply rolling_accepted hyear (by omega) (by omega) hrange
    intro first hdays
    simp [Means, rollingLength, h7, h90, hmonth, hlast, hyear', hdays]
  -- the presets in the order of the source; any other text means thirty days
  by_cases h7 : preset = "7d"
  · subst h7
    apply rolling_accepted hyear (by omega) (by omega) fun _ => rfl
    intro first hdays
    simp [Means, rollingLength, hdays]
  by_cases h90 : preset = "90d"
  · subst h90
    apply rolling_accepted hyear (by omega) (by omega) fun _ => rfl
    intro first hdays
    simp [Means, rollingLength, hdays]
  by_cases hmonth : preset = "This month"
  · subst hmonth
    exact month_accepted hyear server_today
  by_cases hlast : preset = "Last month"
  · subst hlast
    exact last_month_accepted hyear server_today
  by_cases hyear' : preset = "This year"
  · subst hyear'
    exact year_accepted hyear server_today
  apply hdefault h7 h90 hmonth hlast hyear'
  intro clamp
  unfold rangeOf
  split <;> first | rfl | exact absurd rfl ‹_›

end

/-- Noon of the 1st of March 2024. -/
def march1 : Int := 1709294400000

theorem presets_accepted_march :
    (1001 ≤ (utcDate march1).year ∧ (utcDate march1).year ≤ 9999) ∧
      Accepted "Last month" march1 Stats.june := by
  have hyear : 1001 ≤ (utcDate march1).year ∧ (utcDate march1).year ≤ 9999 := by decide
  exact ⟨hyear, presets_accepted hyear "Last month" Stats.june⟩

end AlitellmAuth.Ui
