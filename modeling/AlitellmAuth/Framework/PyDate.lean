import Mathlib.Algebra.GroupWithZero.Nat
import Mathlib.Data.String.Basic
import AlitellmAuth.Framework.Calendar

/-! # Python's dates

    `datetime.date`: the dates of the years 1 to 9999, their arithmetic, which
    overflows at both ends, and their ISO 8601 texts.

    * `PyDate.shift`: `date + timedelta(days=k)`.
    * `isoformat`, `fromisoformat`: the text of a date, and the texts that are
      read as one: calendar dates and week dates, with or without dashes. Only
      the length of a text is checked, so what is left of a text of ten bytes
      behind a date without dashes is ignored.
    * `fromisoformat_isoformat`: a text is read back.
-/

namespace Calendar

/-- A date that Python can represent. -/
def PyDate : Type := { d : Date // 1 ≤ d.year ∧ d.year ≤ 9999 }

instance : DecidableEq PyDate := inferInstanceAs (DecidableEq { d : Date // 1 ≤ d.year ∧ d.year ≤ 9999 })

/-- `date.max.toordinal()`. -/
def MAXORDINAL : Int := 3652059

namespace PyDate

variable (d : PyDate)

def ordinal : Int := d.val.ordinal

/-- The date with a number, or none (an `OverflowError`). -/
def ofOrdinal (n : Int) : Option PyDate :=
  if h : 1 ≤ (Calendar.ofOrdinal n).year ∧ (Calendar.ofOrdinal n).year ≤ 9999 then
    some ⟨Calendar.ofOrdinal n, h⟩
  else none

/-- `d + timedelta(days=k)`. -/
def shift (k : Int) : Option PyDate := ofOrdinal (d.ordinal + k)

/-- `date(y, m, d)`, or none (a `ValueError`). -/
def make (y m day : Nat) : Option PyDate :=
  if h : (1 ≤ m ∧ m ≤ 12 ∧ 1 ≤ day ∧ day ≤ monthLength (isLeap y) m) ∧ 1 ≤ (y : Int) ∧
      (y : Int) ≤ 9999 then
    some ⟨⟨y, m, day, h.1.1, h.1.2.1, h.1.2.2.1, h.1.2.2.2⟩, h.2⟩
  else none

end PyDate

/-! ## Bounds -/

theorem year_bounds_iff (d : Date) :
    (1 ≤ d.year ∧ d.year ≤ 9999) ↔ 1 ≤ d.ordinal ∧ d.ordinal ≤ MAXORDINAL := by
  have hbounds := d.dayOfYear_bounds
  have hnext := daysBeforeYear_succ d.year
  have hfirst : daysBeforeYear 1 = 0 := by decide
  have hlast : daysBeforeYear 10000 = 3652059 := by decide
  unfold MAXORDINAL
  constructor
  · intro ⟨hpos, hle⟩
    have hmono := @daysBeforeYear_mono 1 d.year hpos
    have hmono' := @daysBeforeYear_mono (d.year + 1) 10000 (by omega)
    omega
  · intro ⟨hpos, hle⟩
    constructor
    · by_cases h : d.year < 1
      · have hmono := @daysBeforeYear_mono (d.year + 1) 1 (by omega)
        omega
      · omega
    · by_cases h : 9999 < d.year
      · have hmono := @daysBeforeYear_mono 10000 d.year (by omega)
        omega
      · omega

theorem PyDate.ordinal_bounds (d : PyDate) : 1 ≤ d.ordinal ∧ d.ordinal ≤ MAXORDINAL :=
  (year_bounds_iff d.val).mp d.property

theorem PyDate.ordinal_injective {d d' : PyDate} (h : d.ordinal = d'.ordinal) : d = d' :=
  Subtype.ext (Calendar.ordinal_injective h)

/-- A date can be moved as long as it stays within the bounds. -/
theorem PyDate.shift_eq_some_iff {d d' : PyDate} {k : Int} :
    d.shift k = some d' ↔ d'.ordinal = d.ordinal + k := by
  unfold PyDate.shift PyDate.ofOrdinal
  constructor
  · intro h
    split at h
    · cases h
      exact ordinal_ofOrdinal _
    · cases h
  · intro h
    have hdate : Calendar.ofOrdinal (d.ordinal + k) = d'.val := by
      rw [← h]
      exact ofOrdinal_ordinal _
    rw [dif_pos (by rw [hdate]; exact d'.property)]
    exact congrArg some (Subtype.ext hdate)

theorem PyDate.shift_eq_none_iff {d : PyDate} {k : Int} :
    d.shift k = none ↔ d.ordinal + k < 1 ∨ MAXORDINAL < d.ordinal + k := by
  unfold PyDate.shift PyDate.ofOrdinal
  have hbounds := year_bounds_iff (Calendar.ofOrdinal (d.ordinal + k))
  rw [ordinal_ofOrdinal] at hbounds
  constructor
  · intro h
    split at h
    · cases h
    · next hnot =>
      rw [hbounds] at hnot
      omega
  · intro h
    rw [dif_neg]
    rw [hbounds]
    omega

/-! ## Digits -/

/-- The character of a digit. -/
def digit (n : Nat) : Char := Char.ofNat (48 + n)

/-- The last `k` decimal digits of a number. -/
def digits : Nat → Nat → List Char
  | 0, _ => []
  | k + 1, n => digits k (n / 10) ++ [digit (n % 10)]

def digitValue (c : Char) : Option Nat :=
  if 48 ≤ c.toNat ∧ c.toNat ≤ 57 then some (c.toNat - 48) else none

/-- Exactly `k` digits, behind those that make up `n`. -/
def parseDigits : Nat → Nat → List Char → Option (Nat × List Char)
  | n, 0, s => some (n, s)
  | _, _ + 1, [] => none
  | n, k + 1, c :: s => (digitValue c).bind fun v => parseDigits (10 * n + v) k s

theorem digitValue_digit {n : Nat} (h : n < 10) : digitValue (digit n) = some n := by
  have hall : ∀ n : Fin 10, digitValue (digit n) = some n.val := by decide
  exact hall ⟨n, h⟩

theorem digits_length (k n : Nat) : (digits k n).length = k := by
  induction k generalizing n with
  | zero => rfl
  | succ k ih =>
    unfold digits
    rw [List.length_append, ih]
    rfl

theorem parseDigits_append (n j k : Nat) (s : List Char) :
    parseDigits n (j + k) s =
      (parseDigits n j s).bind fun parsed => parseDigits parsed.1 k parsed.2 := by
  induction j generalizing n s with
  | zero =>
    rw [Nat.zero_add]
    rfl
  | succ j ih =>
    rw [Nat.succ_add]
    cases s with
    | nil => rfl
    | cons c s =>
      show (digitValue c).bind _ = ((digitValue c).bind _).bind _
      cases digitValue c with
      | none => rfl
      | some v => exact ih _ _

/-- Written digits are read back. -/
theorem parseDigits_digits (m k n : Nat) (h : n < 10 ^ k) (s : List Char) :
    parseDigits m k (digits k n ++ s) = some (m * 10 ^ k + n, s) := by
  induction k generalizing n s with
  | zero =>
    have hn : n = 0 := by simpa using h
    subst hn
    simp [digits, parseDigits]
  | succ k ih =>
    have hlt : n / 10 < 10 ^ k := by
      rw [Nat.pow_succ] at h
      omega
    rw [parseDigits_append, digits, List.append_assoc, ih _ hlt, Option.bind_some]
    show (digitValue (digit (n % 10))).bind _ = _
    rw [digitValue_digit (Nat.mod_lt _ (by decide)), Option.bind_some]
    show some (10 * (m * 10 ^ k + n / 10) + n % 10, s) = _
    congr 2
    rw [Nat.pow_succ, ← Nat.mul_assoc]
    omega

theorem digit_eq_digitChar {n : Nat} (h : n < 10) : digit n = Nat.digitChar n := by
  have hall : ∀ n : Fin 10, digit n = Nat.digitChar n := by decide
  exact hall ⟨n, h⟩

/-- A number without leading zeros is printed in all of its digits. -/
theorem digits_eq_toDigits (k n : Nat) (hge : 10 ^ k ≤ n) (hlt : n < 10 ^ (k + 1)) :
    digits (k + 1) n = Nat.toDigits 10 n := by
  induction k generalizing n with
  | zero =>
    have hten : n < 10 := by omega
    show [digit (n % 10)] = _
    rw [Nat.toDigits_of_lt_base hten, Nat.mod_eq_of_lt hten, digit_eq_digitChar hten]
  | succ k ih =>
    have hpow : 10 ^ (k + 1) = 10 ^ k * 10 := Nat.pow_succ 10 k
    have hpow' : 10 ^ (k + 1 + 1) = 10 ^ (k + 1) * 10 := Nat.pow_succ 10 (k + 1)
    have hpos : 0 < 10 ^ k := Nat.pow_pos (by decide)
    rw [digits, Nat.toDigits_of_base_le (by decide) (by omega), ih _ (by omega) (by omega),
      digit_eq_digitChar (Nat.mod_lt _ (by decide))]

/-! ## ISO 8601 -/

/-- `d.isoformat()`. -/
def PyDate.isoformat (d : PyDate) : String :=
  String.ofList (digits 4 d.val.year.toNat ++ '-' :: (digits 2 d.val.month ++
    '-' :: digits 2 d.val.day))

/-- A dash, if the text uses them. -/
def dash (sep : Bool) (s : List Char) : Option (List Char) :=
  if sep then
    match s with
    | '-' :: s => some s
    | _ => none
  else some s

/-- The number of the Monday of the first week of a year: the week with the
    first Thursday. -/
def firstMonday (y : Nat) : Int :=
  let first := daysBeforeYear y + 1
  let weekday := (first + 6) % 7
  if weekday > 3 then first - weekday + 7 else first - weekday

/-- A day of a week of a year, or none (a `ValueError`). A year has 53 weeks if
    it begins with a Thursday, or with a Wednesday and is a leap year. -/
def ofWeek (y week day : Nat) : Option PyDate :=
  let weekday := (daysBeforeYear y + 1 + 6) % 7
  let long := weekday == 3 || weekday == 2 && isLeap y
  if 1 ≤ (y : Int) ∧ (y : Int) ≤ 9999 ∧ 1 ≤ week ∧ week ≤ (if long then 53 else 52) ∧
      1 ≤ day ∧ day ≤ 7 then
    PyDate.ofOrdinal (firstMonday y + (week - 1) * 7 + (day - 1))
  else none

/-- A week date, behind the year and the `W`. A text may end with the week; what
    follows a day is not looked at. -/
def parseWeek (y : Nat) (sep : Bool) (s : List Char) : Option PyDate := do
  let (week, s) ← parseDigits 0 2 s
  if s = [] then ofWeek y week 1
  else
    let (day, _) ← parseDigits 0 1 (← dash sep s)
    ofWeek y week day

/-- A calendar date, behind the year. What follows the day is not looked at. -/
def parseMonthDay (y : Nat) (sep : Bool) (s : List Char) : Option PyDate := do
  let (m, s) ← parseDigits 0 2 s
  let (day, _) ← parseDigits 0 2 (← dash sep s)
  PyDate.make y m day

/-- `parse_isoformat_date`, with the construction of the date. -/
def parseIsoformatDate (s : List Char) : Option PyDate := do
  let (y, s) ← parseDigits 0 4 s
  let sep := s.head? == some '-'
  let s := if sep then s.drop 1 else s
  match s with
  | 'W' :: s => parseWeek y sep s
  | s => parseMonthDay y sep s

/-- `date.fromisoformat`: none is a `ValueError`. The length is that of the
    text's UTF-8 bytes. -/
def fromisoformat (text : String) : Option PyDate :=
  if text.utf8ByteSize = 7 ∨ text.utf8ByteSize = 8 ∨ text.utf8ByteSize = 10 then
    parseIsoformatDate text.toList
  else none

/-! ## A text is read back -/

theorem PyDate.make_self (d : PyDate) :
    PyDate.make d.val.year.toNat d.val.month d.val.day = some d := by
  obtain ⟨⟨y, m, day, hm, hm', hd, hd'⟩, hy, hy'⟩ := d
  have hpos : 1 ≤ y := hy
  obtain ⟨n, rfl⟩ : ∃ n : Nat, y = n := ⟨y.toNat, by omega⟩
  exact dif_pos ⟨⟨hm, hm', hd, hd'⟩, hy, hy'⟩

theorem digits_head {k n : Nat} (s : List Char) :
    ∃ c rest, digits (k + 1) n ++ s = c :: rest ∧ (digitValue c).isSome = true := by
  induction k generalizing n s with
  | zero =>
    refine ⟨digit (n % 10), s, rfl, ?_⟩
    rw [digitValue_digit (Nat.mod_lt _ (by decide))]
    rfl
  | succ k ih =>
    rw [digits, List.append_assoc]
    exact ih _

theorem utf8Len_digits (k n : Nat) : String.utf8Len (digits k n) = k := by
  induction k generalizing n with
  | zero => rfl
  | succ k ih =>
    have hsize : ∀ n : Fin 10, (digit n).utf8Size = 1 := by decide
    rw [digits, String.utf8Len_append, ih, String.utf8Len_cons, String.utf8Len_nil, Nat.zero_add]
    exact congrArg (k + ·) (hsize ⟨n % 10, Nat.mod_lt _ (by decide)⟩)

theorem isoformat_utf8ByteSize (d : PyDate) : d.isoformat.utf8ByteSize = 10 := by
  have hdash : '-'.utf8Size = 1 := by decide
  unfold PyDate.isoformat
  simp only [String.utf8ByteSize_ofList, String.utf8Len_append, String.utf8Len_cons,
    utf8Len_digits, hdash]

theorem fromisoformat_isoformat (d : PyDate) : fromisoformat d.isoformat = some d := by
  have hyear : d.val.year.toNat < 10 ^ 4 := by
    have h := d.property
    omega
  have hmonth : d.val.month < 10 ^ 2 := by
    have h := d.val.month_le
    omega
  have hday : d.val.day < 10 ^ 2 := by
    have h := d.val.day_le
    have hbounds := monthLength_bounds (isLeap d.val.year) d.val.month
    omega
  -- the month begins with a digit, so this is no week date
  obtain ⟨c, rest, hhead, hdigit⟩ := digits_head (k := 1) (n := d.val.month)
    ('-' :: digits 2 d.val.day)
  have hw : c ≠ 'W' := by
    rintro rfl
    revert hdigit
    decide
  unfold fromisoformat
  rw [if_pos (.inr (.inr (isoformat_utf8ByteSize d)))]
  unfold parseIsoformatDate PyDate.isoformat
  rw [String.toList_ofList, parseDigits_digits _ _ _ hyear, Option.bind_eq_bind, Option.bind_some,
    hhead]
  show (match c :: rest with
    | 'W' :: s => parseWeek _ true s
    | s => parseMonthDay _ true s) = some d
  split
  · next h => exact absurd (List.cons.inj h).1 hw
  · rw [← hhead]
    unfold parseMonthDay
    rw [parseDigits_digits _ _ _ hmonth]
    show (do
      let (day, _) ← parseDigits 0 2 (digits 2 d.val.day)
      PyDate.make _ _ day) = some d
    have hend := parseDigits_digits 0 _ _ hday []
    rw [List.append_nil] at hend
    rw [hend]
    simpa using d.make_self

/-- No two dates have one text. -/
theorem isoformat_injective {d d' : PyDate} (h : d.isoformat = d'.isoformat) : d = d' := by
  have hread := fromisoformat_isoformat d
  rw [h, fromisoformat_isoformat] at hread
  exact (Option.some.inj hread).symm

theorem isoformat_length (d : PyDate) : d.isoformat.toList.length = 10 := by
  unfold PyDate.isoformat
  simp [digits_length]

end Calendar
