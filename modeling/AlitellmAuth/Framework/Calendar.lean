import Mathlib.Data.Int.Order.Basic

/-! # The Gregorian calendar

    Dates of the proleptic Gregorian calendar, in years of either sign, and the
    number of a day: the first of January of the year 1 is day 1.

    * `Date`: a date that exists.
    * `Date.ordinal`, `ofOrdinal`: the number of a date, and the date of a
      number, found through cycles of 400, 100 and 4 years.
    * `ordinal_ofOrdinal`, `ofOrdinal_ordinal`: the two are inverse.
-/

namespace Calendar

/-! ## Years and months -/

def isLeap (y : Int) : Bool := y % 4 == 0 && (y % 100 != 0 || y % 400 == 0)

def yearLength (y : Int) : Int := if isLeap y then 366 else 365

def monthLength (leap : Bool) : Nat → Nat
  | 2 => if leap then 29 else 28
  | 4 | 6 | 9 | 11 => 30
  | _ => 31

/-- The days before the first of January of a year. -/
def daysBeforeYear (y : Int) : Int :=
  (y - 1) * 365 + (y - 1) / 4 - (y - 1) / 100 + (y - 1) / 400

/-- The days of a year before a month of it. -/
def daysBeforeMonth (leap : Bool) : Nat → Nat
  | 0 => 0
  | 1 => 0
  | m + 2 => daysBeforeMonth leap (m + 1) + monthLength leap (m + 1)

theorem isLeap_iff (y : Int) :
    isLeap y = true ↔ y % 4 = 0 ∧ (y % 100 ≠ 0 ∨ y % 400 = 0) := by
  simp [isLeap]

theorem daysBeforeYear_succ (y : Int) :
    daysBeforeYear (y + 1) = daysBeforeYear y + yearLength y := by
  have hleap := isLeap_iff y
  unfold daysBeforeYear yearLength
  by_cases h : isLeap y = true
  · have hy := hleap.mp h
    rw [if_pos h]
    omega
  · have hy : ¬ (y % 4 = 0 ∧ (y % 100 ≠ 0 ∨ y % 400 = 0)) := fun hy => h (hleap.mpr hy)
    rw [if_neg h]
    omega

theorem daysBeforeYear_mono {y y' : Int} (h : y ≤ y') : daysBeforeYear y ≤ daysBeforeYear y' := by
  unfold daysBeforeYear
  omega

theorem daysBeforeMonth_succ (leap : Bool) {m : Nat} (h : 1 ≤ m) :
    daysBeforeMonth leap (m + 1) = daysBeforeMonth leap m + monthLength leap m := by
  obtain ⟨k, rfl⟩ : ∃ k, m = k + 1 := ⟨m - 1, by omega⟩
  rfl

theorem daysBeforeMonth_mono (leap : Bool) {m m' : Nat} (h : m ≤ m') :
    daysBeforeMonth leap m ≤ daysBeforeMonth leap m' := by
  induction m' with
  | zero =>
    have hm : m = 0 := by omega
    subst hm
    exact Nat.le_refl _
  | succ k ih =>
    by_cases hm : m = k + 1
    · subst hm
      exact Nat.le_refl _
    · have hle := ih (by omega)
      by_cases hk : k = 0
      · subst hk
        exact hle
      · have hsucc := daysBeforeMonth_succ leap (m := k) (by omega)
        omega

theorem daysBeforeMonth_year (y : Int) : (daysBeforeMonth (isLeap y) 13 : Int) = yearLength y := by
  unfold yearLength
  cases isLeap y <;> rfl

theorem monthLength_bounds (leap : Bool) (m : Nat) :
    28 ≤ monthLength leap m ∧ monthLength leap m ≤ 31 := by
  unfold monthLength
  split <;> cases leap <;> simp

/-! ## Dates -/

/-- A date that exists. -/
@[ext]
structure Date where
  year : Int
  month : Nat
  day : Nat
  month_pos : 1 ≤ month
  month_le : month ≤ 12
  day_pos : 1 ≤ day
  day_le : day ≤ monthLength (isLeap year) month
  deriving DecidableEq

namespace Date

variable (d : Date)

/-- The number of the day. -/
def ordinal : Int :=
  daysBeforeYear d.year + daysBeforeMonth (isLeap d.year) d.month + d.day

/-- The first day of the month. -/
def firstOfMonth : Date where
  year := d.year
  month := d.month
  day := 1
  month_pos := d.month_pos
  month_le := d.month_le
  day_pos := Nat.le_refl _
  day_le := by
    have h := monthLength_bounds (isLeap d.year) d.month
    omega

/-- The first day of the year. -/
def firstOfYear : Date where
  year := d.year
  month := 1
  day := 1
  month_pos := Nat.le_refl _
  month_le := by omega
  day_pos := Nat.le_refl _
  day_le := by
    have h := monthLength_bounds (isLeap d.year) 1
    omega

/-- The last day of the month. -/
def lastOfMonth : Date where
  year := d.year
  month := d.month
  day := monthLength (isLeap d.year) d.month
  month_pos := d.month_pos
  month_le := d.month_le
  day_pos := by
    have h := monthLength_bounds (isLeap d.year) d.month
    omega
  day_le := Nat.le_refl _

/-- The day of the year, from 1. -/
theorem dayOfYear_bounds :
    1 ≤ d.ordinal - daysBeforeYear d.year ∧
      d.ordinal ≤ daysBeforeYear d.year + yearLength d.year := by
  have hday := d.day_le
  have hpos := d.day_pos
  have hnext := daysBeforeMonth_succ (isLeap d.year) d.month_pos
  have hmono : daysBeforeMonth (isLeap d.year) (d.month + 1) ≤ daysBeforeMonth (isLeap d.year) 13 :=
    daysBeforeMonth_mono _ (Nat.succ_le_succ d.month_le)
  have hyear := daysBeforeMonth_year d.year
  unfold ordinal
  omega

theorem ordinal_firstOfMonth : d.firstOfMonth.ordinal = d.ordinal - d.day + 1 := by
  unfold ordinal firstOfMonth
  show daysBeforeYear d.year + daysBeforeMonth (isLeap d.year) d.month + ((1 : Nat) : Int) = _
  omega

theorem ordinal_firstOfYear : d.firstOfYear.ordinal = daysBeforeYear d.year + 1 := by
  unfold ordinal firstOfYear
  show daysBeforeYear d.year + ((0 : Nat) : Int) + ((1 : Nat) : Int) = _
  omega

theorem ordinal_lastOfMonth :
    d.lastOfMonth.ordinal = d.firstOfMonth.ordinal + monthLength (isLeap d.year) d.month - 1 := by
  unfold ordinal firstOfMonth lastOfMonth
  show daysBeforeYear d.year + daysBeforeMonth (isLeap d.year) d.month +
    (monthLength (isLeap d.year) d.month : Int) =
      daysBeforeYear d.year + daysBeforeMonth (isLeap d.year) d.month + ((1 : Nat) : Int) + _ - 1
  omega

end Date

/-- An earlier month ends before a later one begins. -/
theorem ordinal_lt_of_month {d d' : Date} (hyear : d.year = d'.year) (hmonth : d.month < d'.month) :
    d.ordinal < d'.ordinal := by
  have hday := d.day_le
  have hpos := d'.day_pos
  have hnext := daysBeforeMonth_succ (isLeap d.year) d.month_pos
  have hmono : daysBeforeMonth (isLeap d.year) (d.month + 1) ≤
      daysBeforeMonth (isLeap d.year) d'.month := daysBeforeMonth_mono _ hmonth
  unfold Date.ordinal
  rw [← hyear]
  omega

theorem ordinal_lt_of_year {d d' : Date} (hyear : d.year < d'.year) : d.ordinal < d'.ordinal := by
  have h := d.dayOfYear_bounds
  have h' := d'.dayOfYear_bounds
  have hnext := daysBeforeYear_succ d.year
  have hmono := @daysBeforeYear_mono (d.year + 1) d'.year (by omega)
  omega

theorem year_le_of_ordinal {d d' : Date} (h : d.ordinal ≤ d'.ordinal) : d.year ≤ d'.year := by
  by_cases hlt : d'.year < d.year
  · have := ordinal_lt_of_year hlt
    omega
  · omega

/-- A day behind the last one before a year is in that year or a later one. -/
theorem le_year_of_ordinal {d : Date} {y : Int} (h : daysBeforeYear y < d.ordinal) :
    y ≤ d.year := by
  have hbounds := d.dayOfYear_bounds
  have hnext := daysBeforeYear_succ d.year
  by_cases hlt : d.year + 1 ≤ y
  · have hmono := daysBeforeYear_mono hlt
    omega
  · omega

/-- No two dates have one number. -/
theorem ordinal_injective {d d' : Date} (h : d.ordinal = d'.ordinal) : d = d' := by
  have hyear : d.year = d'.year := by
    rcases Int.lt_trichotomy d.year d'.year with hlt | heq | hgt
    · have := ordinal_lt_of_year hlt
      omega
    · exact heq
    · have := ordinal_lt_of_year hgt
      omega
  have hmonth : d.month = d'.month := by
    rcases Nat.lt_trichotomy d.month d'.month with hlt | heq | hgt
    · have := ordinal_lt_of_month hyear hlt
      omega
    · exact heq
    · have := ordinal_lt_of_month hyear.symm hgt
      omega
  apply Date.ext hyear hmonth
  unfold Date.ordinal at h
  rw [hyear, hmonth] at h
  omega

/-! ## The date of a number -/

/-- The year of a day, through cycles of 400, 100 and 4 years. The last day of a
    cycle would begin another year, hence the bound 3. -/
def yearOf (n : Int) : Int :=
  let r := (n - 1) % 146097
  let b := min (r / 36524) 3
  let c := (r - 36524 * b) / 1461
  let d := min ((r - 36524 * b) % 1461 / 365) 3
  400 * ((n - 1) / 146097) + 100 * b + 4 * c + d + 1

section
variable {a b c d : Int}

/-- A year by its place in the cycles. -/
theorem daysBeforeYear_cycles (hb : 0 ≤ b ∧ b ≤ 3) (hc : 0 ≤ c ∧ c ≤ 24) (hd : 0 ≤ d ∧ d ≤ 3) :
    daysBeforeYear (400 * a + 100 * b + 4 * c + d + 1) =
      146097 * a + 36524 * b + 1461 * c + 365 * d := by
  have h4 : (400 * a + 100 * b + 4 * c + d + 1 - 1) / 4 = 100 * a + 25 * b + c := by omega
  have h100 : (400 * a + 100 * b + 4 * c + d + 1 - 1) / 100 = 4 * a + b := by omega
  have h400 : (400 * a + 100 * b + 4 * c + d + 1 - 1) / 400 = a := by omega
  unfold daysBeforeYear
  rw [h4, h100, h400]
  omega

/-- The last year of four is a leap year, but not the last of a century, unless
    the century is the last of four. -/
theorem isLeap_cycles (hb : 0 ≤ b ∧ b ≤ 3) (hc : 0 ≤ c ∧ c ≤ 24) (hd : 0 ≤ d ∧ d ≤ 3) :
    isLeap (400 * a + 100 * b + 4 * c + d + 1) = true ↔ d = 3 ∧ (c ≠ 24 ∨ b = 3) := by
  rw [isLeap_iff]
  constructor
  · intro ⟨h4, h⟩
    have hlast : d = 3 := by omega
    refine ⟨hlast, ?_⟩
    by_cases hcentury : c = 24
    · right
      omega
    · exact .inl hcentury
  · intro ⟨hlast, h⟩
    refine ⟨by omega, ?_⟩
    rcases h with h | h
    · left
      omega
    · by_cases hcentury : c = 24
      · right
        omega
      · left
        omega

end

theorem yearOf_spec (n : Int) :
    daysBeforeYear (yearOf n) < n ∧ n ≤ daysBeforeYear (yearOf n) + yearLength (yearOf n) := by
  -- the parts of the cycles, each within its bounds
  obtain ⟨a, r, ha, hr, hn⟩ : ∃ a r, a = (n - 1) / 146097 ∧ r = (n - 1) % 146097 ∧
      n = 146097 * a + r + 1 := ⟨_, _, rfl, rfl, by omega⟩
  have hr_lt : 0 ≤ r ∧ r < 146097 := by omega
  obtain ⟨b, q, hb, hq, hrest⟩ : ∃ b q, b = min (r / 36524) 3 ∧ q = r - 36524 * b ∧
      r = 36524 * b + q := ⟨_, _, rfl, rfl, by omega⟩
  have hb_le : 0 ≤ b ∧ b ≤ 3 := by omega
  have hq_lt : 0 ≤ q ∧ q ≤ 36524 ∧ (q = 36524 → b = 3) := by omega
  obtain ⟨c, p, hc, hp, hfour⟩ : ∃ c p, c = q / 1461 ∧ p = q % 1461 ∧ q = 1461 * c + p :=
    ⟨_, _, rfl, rfl, by omega⟩
  have hc_le : 0 ≤ c ∧ c ≤ 24 := by omega
  have hp_lt : 0 ≤ p ∧ p < 1461 := by omega
  obtain ⟨d, hd⟩ : ∃ d, d = min (p / 365) 3 := ⟨_, rfl⟩
  have hd_le : 0 ≤ d ∧ d ≤ 3 := by omega
  have hyear : yearOf n = 400 * a + 100 * b + 4 * c + d + 1 := by
    rw [hd, hp, hc, hq, hb, hr, ha]
    rfl
  have hleap := isLeap_cycles (a := a) hb_le hc_le hd_le
  rw [hyear, daysBeforeYear_cycles hb_le hc_le hd_le]
  unfold yearLength
  by_cases h : isLeap (400 * a + 100 * b + 4 * c + d + 1) = true
  · have hl := hleap.mp h
    rw [if_pos h]
    omega
  · have hl : ¬ (d = 3 ∧ (c ≠ 24 ∨ b = 3)) := fun hl => h (hleap.mpr hl)
    rw [if_neg h]
    omega

/-- The last month, up to a given one, that begins before a day of the year. -/
def monthUpTo (leap : Bool) (k : Nat) : Nat → Nat
  | 0 => 1
  | m + 1 => if daysBeforeMonth leap (m + 1) < k then m + 1 else monthUpTo leap k m

theorem monthUpTo_spec (leap : Bool) {k : Nat} (hk : 1 ≤ k) (m : Nat) (hm : 1 ≤ m)
    (hle : k ≤ daysBeforeMonth leap (m + 1)) :
    1 ≤ monthUpTo leap k m ∧ monthUpTo leap k m ≤ m ∧
      daysBeforeMonth leap (monthUpTo leap k m) < k ∧
      k ≤ daysBeforeMonth leap (monthUpTo leap k m + 1) := by
  induction m with
  | zero => omega
  | succ m ih =>
    unfold monthUpTo
    by_cases h : daysBeforeMonth leap (m + 1) < k
    · rw [if_pos h]
      exact ⟨by omega, by omega, h, hle⟩
    · rw [if_neg h]
      have hpos : 1 ≤ m := by
        -- before January there are no days
        rcases Nat.eq_zero_or_pos m with h0 | hpos
        · subst h0
          exact absurd hk (by simpa [daysBeforeMonth] using h)
        · exact hpos
      have hspec := ih hpos (by omega)
      omega

/-- The day of the year of a number, from 1. -/
def dayOfYear (n : Int) : Nat := (n - daysBeforeYear (yearOf n)).toNat

theorem dayOfYear_spec (n : Int) : 1 ≤ dayOfYear n ∧
    dayOfYear n ≤ daysBeforeMonth (isLeap (yearOf n)) 13 ∧
    daysBeforeYear (yearOf n) + dayOfYear n = n := by
  have hyear := yearOf_spec n
  have hlength := daysBeforeMonth_year (yearOf n)
  unfold dayOfYear
  omega

/-- The month of a number. -/
def monthOf (n : Int) : Nat := monthUpTo (isLeap (yearOf n)) (dayOfYear n) 12

theorem monthOf_spec (n : Int) : 1 ≤ monthOf n ∧ monthOf n ≤ 12 ∧
    daysBeforeMonth (isLeap (yearOf n)) (monthOf n) < dayOfYear n ∧
    dayOfYear n ≤ daysBeforeMonth (isLeap (yearOf n)) (monthOf n) +
      monthLength (isLeap (yearOf n)) (monthOf n) := by
  obtain ⟨hpos, hle, -⟩ := dayOfYear_spec n
  have hspec := monthUpTo_spec _ hpos 12 (by omega) hle
  have hnext := daysBeforeMonth_succ (isLeap (yearOf n)) hspec.1
  rw [hnext] at hspec
  exact hspec

/-- The date with a given number. -/
def ofOrdinal (n : Int) : Date where
  year := yearOf n
  month := monthOf n
  day := dayOfYear n - daysBeforeMonth (isLeap (yearOf n)) (monthOf n)
  month_pos := (monthOf_spec n).1
  month_le := (monthOf_spec n).2.1
  day_pos := Nat.sub_pos_of_lt (monthOf_spec n).2.2.1
  day_le := by
    have hspec := monthOf_spec n
    omega

theorem ordinal_ofOrdinal (n : Int) : (ofOrdinal n).ordinal = n := by
  have hspec := monthOf_spec n
  have hday := (dayOfYear_spec n).2.2
  unfold Date.ordinal ofOrdinal
  dsimp only
  omega

theorem ofOrdinal_ordinal (d : Date) : ofOrdinal d.ordinal = d :=
  ordinal_injective (ordinal_ofOrdinal _)

/-- The last day of a month comes right before the first day of the next one. -/
theorem month_before (d : Date) :
    (ofOrdinal (d.firstOfMonth.ordinal - 1)).lastOfMonth = ofOrdinal (d.firstOfMonth.ordinal - 1) ∧
    (ofOrdinal (d.firstOfMonth.ordinal - 1)).month = (if d.month = 1 then 12 else d.month - 1) ∧
    (ofOrdinal (d.firstOfMonth.ordinal - 1)).year = (if d.month = 1 then d.year - 1 else d.year) := by
  -- the candidate, built by hand
  obtain ⟨last, hlast, hmonth, hyear, hordinal⟩ : ∃ last : Date, last.lastOfMonth = last ∧
      last.month = (if d.month = 1 then 12 else d.month - 1) ∧
      last.year = (if d.month = 1 then d.year - 1 else d.year) ∧
      last.ordinal = d.firstOfMonth.ordinal - 1 := by
    have hpos := d.month_pos
    have hle := d.month_le
    by_cases h : d.month = 1
    · refine ⟨⟨d.year - 1, 12, 31, by omega, by omega, by omega, Nat.le_refl 31⟩, rfl, ?_, ?_, ?_⟩
      · rw [if_pos h]
      · rw [if_pos h]
      · have hsucc := daysBeforeYear_succ (d.year - 1)
        have hnext : daysBeforeMonth (isLeap (d.year - 1)) 13 =
            daysBeforeMonth (isLeap (d.year - 1)) 12 + 31 := rfl
        have hlength := daysBeforeMonth_year (d.year - 1)
        have hone : daysBeforeMonth (isLeap d.year) 1 = 0 := rfl
        have hyear : d.year - 1 + 1 = d.year := by omega
        unfold Date.ordinal Date.firstOfMonth
        dsimp only
        rw [h, hone]
        rw [hyear] at hsucc
        omega
    · have hlength := monthLength_bounds (isLeap d.year) (d.month - 1)
      refine ⟨⟨d.year, d.month - 1, monthLength (isLeap d.year) (d.month - 1), by omega, by omega,
        by omega, Nat.le_refl _⟩, rfl, ?_, ?_, ?_⟩
      · rw [if_neg h]
      · rw [if_neg h]
      · have hnext := daysBeforeMonth_succ (isLeap d.year) (m := d.month - 1) (by omega)
        have hmonth : d.month - 1 + 1 = d.month := by omega
        unfold Date.ordinal Date.firstOfMonth
        dsimp only
        rw [hmonth] at hnext
        omega
  rw [← hordinal, ofOrdinal_ordinal]
  exact ⟨hlast, hmonth, hyear⟩

end Calendar
