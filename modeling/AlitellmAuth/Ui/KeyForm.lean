import AlitellmAuth.Framework.Utf16
import AlitellmAuth.Session.Keys
import AlitellmAuth.Ui.Csv

/-! # The form for a new key

    `CreateKeyModal.tsx` checks a name and a lifetime before it sends them, with
    the rules of `session.py` written a second time (`key-validation.ts`).

    * `validateAlias`, `validateDuration`: the checks of the browser, over code
      units.
    * `Mirrors`: they decide as the server does.
    * `key_form_mirrors_iff`: when they do. Of names that are letters and numbers
      to both, and of lifetimes, the browser lets nothing through that the server
      refuses; it blocks more than the server.
-/

namespace AlitellmAuth.Ui

open Interleave Text Utf16 Session

/-! ## The browser -/

/-- What `String.prototype.trim` removes. -/
def isTrimmed (u : UInt16) : Bool :=
  let n := u.toNat
  9 ≤ n && n ≤ 13 || n == 0x20 || n == 0xA0 || n == 0x1680 || 0x2000 ≤ n && n ≤ 0x200A ||
    n == 0x2028 || n == 0x2029 || n == 0x202F || n == 0x205F || n == 0x3000 || n == 0xFEFF

def trim (v : JsString) : JsString := ((v.dropWhile isTrimmed).reverse.dropWhile isTrimmed).reverse

def ALIAS_ERROR : String :=
  "Name may only contain letters, numbers, dash, underscore, dot (max 128)."

def DURATION_ERROR : String := "Expiry must look like 90d, 24h, or 30m."

/-- A letter or a number of some table, or one of the three marks. -/
def nameChar (table : Char → Bool) : CodePoint → Bool
  | .char c => table c || "-_.".toList.contains c
  | .surrogate _ => false

section
-- `[\p{L}\p{N}]` of the browser, and what Python calls alphanumeric: the two
-- need not know the same version of Unicode
variable (letters : Char → Bool) (classes : CharClasses)

/-- `ALIAS_RE.test(value)`; the expression reads code points. -/
def ALIAS_RE (v : JsString) : Bool := !(codePoints v).isEmpty && (codePoints v).all (nameChar letters)

/-- `\d` of an expression that reads code units. -/
def digitUnit (u : UInt16) : Bool := 48 ≤ u.toNat && u.toNat ≤ 57

/-- `DURATION_RE.test(value)`. -/
def DURATION_RE (v : JsString) : Bool :=
  match v.reverse with
  | [] => false
  | unit :: digits => (text "dhms").contains unit && !digits.isEmpty && digits.all digitUnit

def validateAlias (value : JsString) : Option String :=
  if value = [] then none
  else if 128 < value.length || !ALIAS_RE letters value then some ALIAS_ERROR
  else none

def validateDuration (value : JsString) : Option String :=
  if value = [] then none
  else if !DURATION_RE value then some DURATION_ERROR
  else none

/-- What the server reads of a string that was sent; a body with a lone
    surrogate is none. -/
def sent (v : JsString) : Option String := (toChars (codePoints v)).map String.ofList

/-- The body of the request; empty fields are left out. -/
structure FormBody where
  key_name : Option JsString
  duration : Option JsString

/-- The submission of the form: the errors to show, or the body to send. -/
def onSubmit (alias_ duration : JsString) : Except (Option String × Option String) FormBody :=
  let aliasValue := trim alias_
  let durationValue := trim duration
  let aErr := validateAlias letters aliasValue
  let dErr := validateDuration durationValue
  if aErr.isSome || dErr.isSome then .error (aErr, dErr)
  else .ok ⟨if aliasValue = [] then none else some aliasValue,
    if durationValue = [] then none else some durationValue⟩

/-! ## The server -/

/-- The server takes the name, as it is. -/
def TakesAlias (v : JsString) : Prop :=
  ∃ s, sent v = some s ∧ (validate_key_alias classes (some s)).run = .ret (.ok (some s))

/-- The server takes the lifetime; an empty one is not sent. -/
def TakesDuration (v : JsString) : Prop :=
  (v = [] ∧ ∃ d, (validate_key_duration classes none).run = .ret (.ok d)) ∨
  (v ≠ [] ∧ ∃ s d, sent v = some s ∧ (validate_key_duration classes (some s)).run = .ret (.ok d))

/-- The checks of the browser agree with those of the server. -/
structure Mirrors (alias_ duration : JsString) : Prop where
  key_name : trim alias_ ≠ [] →
    (validateAlias letters (trim alias_) = none ↔ TakesAlias classes (trim alias_))
  duration : validateDuration (trim duration) = none ↔ TakesDuration classes (trim duration)

/-- What the Unicode tables say: whitespace is not alphanumeric, and the ASCII
    digits are the digits among the ASCII characters. -/
structure Unicode : Prop where
  not_space : ∀ c, classes.isalnum c = true → isSpace c = false
  digits : ∀ c : Char, c.toNat < 128 → (classes.isdigit c = true ↔ 48 ≤ c.toNat ∧ c.toNat ≤ 57)

/-- The inputs that are alike to both. A name of letters and numbers that has at
    most 128 characters has at most 128 code units, and one of so many units
    consists of letters and numbers to the browser just if it does to Python.
    What Python's `strip` leaves of a lifetime is empty only if it was, and if it
    is a duration then nothing was stripped and it is ASCII. -/
structure Alike (alias_ duration : JsString) : Prop where
  units : (codePoints (trim alias_)).all (nameChar classes.isalnum) = true →
    (codePoints (trim alias_)).length ≤ 128 → (trim alias_).length ≤ 128
  tables : (trim alias_).length ≤ 128 →
    ((codePoints (trim alias_)).all (nameChar letters) = true ↔
      (codePoints (trim alias_)).all (nameChar classes.isalnum) = true)
  blank : ∀ s, sent (trim duration) = some s → strip s = "" → s = ""
  shape : ∀ s, sent (trim duration) = some s → is_duration classes (strip s) = true →
    strip s = s ∧ ∀ c ∈ s.toList, c.toNat < 128

/-! ## Texts that are sent -/

variable {letters} {classes}

theorem sent_eq_some {v : JsString} {s : String} :
    sent v = some s ↔ codePoints v = chars s.toList := by
  unfold sent
  rw [Option.map_eq_some_iff]
  constructor
  · rintro ⟨cs, hcs, rfl⟩
    rw [String.toList_ofList]
    exact toChars_eq_some.mp hcs
  · intro h
    exact ⟨s.toList, toChars_eq_some.mpr h, String.ofList_toList⟩

/-- Names are texts without surrogates. -/
theorem chars_of_nameChar {table : Char → Bool} {s : PyStr} (h : s.all (nameChar table) = true) :
    ∃ cs : List Char, s = chars cs := by
  induction s with
  | nil => exact ⟨[], rfl⟩
  | cons p s ih =>
    rw [List.all_cons, Bool.and_eq_true] at h
    obtain ⟨cs, rfl⟩ := ih h.2
    cases p with
    | char c => exact ⟨c :: cs, rfl⟩
    | surrogate n => exact absurd h.1 Bool.false_ne_true

/-- Without whitespace there is nothing to strip. -/
theorem strip_of_no_space {s : String} (h : ∀ c ∈ s.toList, isSpace c = false) : strip s = s := by
  have hkeep : ∀ cs : List Char, (∀ c ∈ cs, isSpace c = false) → cs.dropWhile isSpace = cs := by
    intro cs hcs
    cases cs with
    | nil => rfl
    | cons c cs => rw [List.dropWhile_cons, hcs c List.mem_cons_self, if_neg Bool.false_ne_true]
  unfold strip stripChars
  rw [hkeep _ h, hkeep _ (fun c hc => h c (List.mem_reverse.mp hc)), List.reverse_reverse,
    String.ofList_toList]

/-! ## Names -/

theorem validateAlias_iff {v : JsString} (hv : v ≠ []) : validateAlias letters v = none ↔
    v.length ≤ 128 ∧ (codePoints v).all (nameChar letters) = true := by
  have hne : (codePoints v).isEmpty = false := by
    rw [List.isEmpty_eq_false_iff]
    exact fun h => hv (codePoints_eq_nil h)
  unfold validateAlias ALIAS_RE
  rw [if_neg hv, hne, Bool.not_false, Bool.true_and]
  by_cases hlength : v.length ≤ 128
  · by_cases hall : (codePoints v).all (nameChar letters) = true
    · rw [hall, if_neg (by simp; omega)]
      exact iff_of_true rfl ⟨hlength, rfl⟩
    · rw [if_pos (by simp [hall])]
      exact iff_of_false (fun h => by cases h) fun h => hall h.2
  · rw [if_pos (by simp; omega)]
    exact iff_of_false (fun h => by cases h) fun h => hlength h.1

/-- The server takes a text as it is if it is a name that `strip` leaves alone. -/
theorem validate_key_alias_iff (s : String) :
    (validate_key_alias classes (some s)).run = .ret (.ok (some s)) ↔
      s ≠ "" ∧ s.length ≤ 128 ∧
      (s.toList.all fun c => classes.isalnum c || "-_.".toList.contains c) = true ∧ strip s = s := by
  have hrun : validate_key_alias classes (some s) =
      if strip s = "" || 128 < (strip s).length then throw (.error 422 "alias must be 1-128 characters")
      else if !(strip s).toList.all fun c => classes.isalnum c || "-_.".toList.contains c then
        throw (.error 422 "alias may only contain alphanumeric, dash, underscore, dot")
      else return some (strip s) := rfl
  rw [hrun]
  by_cases hlength : strip s = "" ∨ 128 < (strip s).length
  · rw [if_pos (by simpa using hlength)]
    refine iff_of_false (fun h => by cases h) ?_
    rintro ⟨hne, hle, -, hstrip⟩
    rw [hstrip] at hlength
    rcases hlength with hempty | hlong
    · exact hne hempty
    · omega
  rw [if_neg (by simpa using hlength)]
  obtain ⟨hne, hle⟩ := not_or.mp hlength
  by_cases hall : ((strip s).toList.all fun c => classes.isalnum c || "-_.".toList.contains c) = true
  · rw [if_neg (by rw [hall]; exact Bool.false_ne_true)]
    constructor
    · intro h
      -- the stripped text is returned, so nothing was stripped
      have hstrip : strip s = s := by
        injection h with h
        injection h with h
        exact Option.some.inj h
      rw [hstrip] at hne hle hall
      exact ⟨hne, by omega, hall, hstrip⟩
    · rintro ⟨-, -, -, hstrip⟩
      rw [hstrip]
      rfl
  · rw [if_pos (by simpa using hall)]
    refine iff_of_false (fun h => by cases h) ?_
    rintro ⟨-, -, hall', hstrip⟩
    rw [hstrip] at hall
    exact hall hall'

/-- The names the server takes. -/
theorem takes_alias_iff (hu : Unicode classes) (v : JsString) : TakesAlias classes v ↔
    v ≠ [] ∧ (codePoints v).length ≤ 128 ∧
      (codePoints v).all (nameChar classes.isalnum) = true := by
  have hnames : ∀ cs : List Char, (chars cs).all (nameChar classes.isalnum) =
      cs.all fun c => classes.isalnum c || "-_.".toList.contains c := by
    intro cs
    rw [chars, List.all_map]
    rfl
  -- a character of a name is no space, so a name is not stripped
  have hspace : ∀ c, (classes.isalnum c || "-_.".toList.contains c) = true → isSpace c = false := by
    intro c hc
    rcases Bool.or_eq_true_iff.mp hc with halnum | hmark
    · exact hu.not_space c halnum
    · have hmarks : "-_.".toList.all (fun c => !isSpace c) = true := by decide
      simpa using List.all_eq_true.mp hmarks c (List.contains_iff_mem.mp hmark)
  constructor
  · rintro ⟨s, hs, htakes⟩
    obtain ⟨hne, hle, hall, -⟩ := (validate_key_alias_iff s).mp htakes
    have hcode := sent_eq_some.mp hs
    refine ⟨?_, ?_, ?_⟩
    · rintro rfl
      have hnil : s.toList = [] := by simpa [chars, codePoints] using hcode.symm
      exact hne (String.toList_eq_nil_iff.mp hnil)
    · rw [hcode, chars, List.length_map, String.length_toList]
      exact hle
    · rw [hcode, hnames]
      exact hall
  · rintro ⟨hne, hle, hall⟩
    obtain ⟨cs, hcs⟩ := chars_of_nameChar hall
    rw [hcs, hnames] at hall
    refine ⟨String.ofList cs, sent_eq_some.mpr (by rw [String.toList_ofList]; exact hcs), ?_⟩
    rw [validate_key_alias_iff, String.toList_ofList]
    refine ⟨?_, ?_, hall, ?_⟩
    · intro hempty
      have hnil : cs = [] := by
        rw [← String.toList_ofList (l := cs), hempty]
        rfl
      rw [hnil] at hcs
      exact hne (codePoints_eq_nil hcs)
    · rw [← String.length_toList, String.toList_ofList]
      rw [hcs, chars, List.length_map] at hle
      exact hle
    · refine strip_of_no_space fun c hc => hspace c ?_
      rw [String.toList_ofList] at hc
      exact List.all_eq_true.mp hall c hc

theorem alias_mirrors_iff (hu : Unicode classes) {v : JsString} (hv : v ≠ []) :
    (validateAlias letters v = none ↔ TakesAlias classes v) ↔
      ((codePoints v).all (nameChar classes.isalnum) = true → (codePoints v).length ≤ 128 →
        v.length ≤ 128) ∧
      (v.length ≤ 128 → ((codePoints v).all (nameChar letters) = true ↔
        (codePoints v).all (nameChar classes.isalnum) = true)) := by
  rw [validateAlias_iff hv, takes_alias_iff hu]
  constructor
  · intro h
    refine ⟨fun hall hle => (h.mpr ⟨hv, hle, hall⟩).1, ?_⟩
    intro hlength
    constructor
    · intro hall
      exact (h.mp ⟨hlength, hall⟩).2.2
    · intro hall
      exact (h.mpr ⟨hv, (codePoints_length_le v).trans hlength, hall⟩).2
  · rintro ⟨hunits, htables⟩
    constructor
    · rintro ⟨hlength, hall⟩
      exact ⟨hv, (codePoints_length_le v).trans hlength, (htables hlength).mp hall⟩
    · rintro ⟨-, hle, hall⟩
      have hlength := hunits hall hle
      exact ⟨hlength, (htables hlength).mpr hall⟩

/-! ## Lifetimes -/

theorem validateDuration_iff (v : JsString) :
    validateDuration v = none ↔ v = [] ∨ DURATION_RE v = true := by
  unfold validateDuration
  by_cases hv : v = []
  · rw [if_pos hv]
    exact iff_of_true rfl (.inl hv)
  · rw [if_neg hv]
    cases hre : DURATION_RE v with
    | false => exact iff_of_false (fun h => by cases h) (by simp [hv])
    | true => exact iff_of_true rfl (.inr rfl)

theorem takes_duration_iff (v : JsString) : TakesDuration classes v ↔
    v = [] ∨ ∃ s, sent v = some s ∧ (strip s = "" ∨ is_duration classes (strip s) = true) := by
  -- a blank text is taken too: it means no duration
  have htaken : ∀ s, (∃ d, (validate_key_duration classes (some s)).run = .ret (.ok d)) ↔
      (strip s = "" ∨ is_duration classes (strip s) = true) := by
    intro s
    have hrun : validate_key_duration classes (some s) =
        if strip s = "" then return none
        else if is_duration classes (strip s) then return some (strip s)
        else throw (.error 422 "duration must be a LiteLLM duration string (e.g. '90d', '24h')") := rfl
    rw [hrun]
    by_cases hempty : strip s = ""
    · rw [if_pos hempty]
      exact iff_of_true ⟨_, rfl⟩ (.inl hempty)
    rw [if_neg hempty]
    by_cases hduration : is_duration classes (strip s) = true
    · rw [if_pos hduration]
      exact iff_of_true ⟨_, rfl⟩ (.inr hduration)
    · rw [if_neg hduration]
      refine iff_of_false ?_ (not_or.mpr ⟨hempty, hduration⟩)
      rintro ⟨d, hd⟩
      cases hd
  unfold TakesDuration
  constructor
  · rintro (⟨hv, -⟩ | ⟨-, s, d, hs, hd⟩)
    · exact .inl hv
    · exact .inr ⟨s, hs, (htaken s).mp ⟨d, hd⟩⟩
  · intro h
    by_cases hv : v = []
    · exact .inl ⟨hv, none, rfl⟩
    · obtain ⟨s, hs, htakes⟩ := h.resolve_left hv
      obtain ⟨d, hd⟩ := (htaken s).mpr htakes
      exact .inr ⟨hv, s, d, hs, hd⟩

/-- The units of a duration are as many characters. -/
theorem text_toChars {v : JsString} (h : ∀ u ∈ v, u.toNat < 128) :
    codePoints v = chars (v.map fun u => Char.ofNat u.toNat) ∧
    ∀ c ∈ v.map fun u => Char.ofNat u.toNat, c.toNat < 128 := by
  refine ⟨codePoints_ascii h, ?_⟩
  intro c hc
  obtain ⟨u, hu, rfl⟩ := List.mem_map.mp hc
  have hlt := h u hu
  rw [toNat_ofNat (by omega)]
  exact hlt

/-- What the browser takes for a duration is sent as it is, and the server takes
    it for one. -/
theorem duration_sent (hu : Unicode classes) {v : JsString} (h : DURATION_RE v = true) :
    ∃ s, sent v = some s ∧ is_duration classes s = true ∧ strip s = s ∧
      ∀ c ∈ s.toList, c.toNat < 128 := by
  unfold DURATION_RE at h
  split at h
  · cases h
  next unit digits hv =>
  rw [Bool.and_eq_true, Bool.and_eq_true, List.all_eq_true] at h
  obtain ⟨⟨hunit, hsome⟩, hdigits⟩ := h
  -- the four units are ASCII, and no spaces
  have hunits : (text "dhms").all (fun u => decide (u.toNat < 128) &&
      ("dhms".toList.contains (Char.ofNat u.toNat) && !isSpace (Char.ofNat u.toNat))) = true := by
    decide +kernel
  have hunit := List.all_eq_true.mp hunits unit (List.contains_iff_mem.mp hunit)
  rw [Bool.and_eq_true, Bool.and_eq_true, decide_eq_true_eq, Bool.not_eq_true'] at hunit
  have hrange : ∀ u ∈ digits, 48 ≤ u.toNat ∧ u.toNat ≤ 57 := by
    intro u hmem
    have hdigit := hdigits u hmem
    rw [digitUnit, Bool.and_eq_true, decide_eq_true_eq, decide_eq_true_eq] at hdigit
    exact hdigit
  -- the text is the digits and then the unit
  have hmem : ∀ u ∈ v, u = unit ∨ u ∈ digits := by
    intro u hu
    rw [← List.mem_reverse, hv] at hu
    exact List.mem_cons.mp hu
  have hascii : ∀ u ∈ v, u.toNat < 128 := by
    intro u hu
    rcases hmem u hu with rfl | hu
    · exact hunit.1
    · have := hrange u hu
      omega
  obtain ⟨hcode, hchars⟩ := text_toChars hascii
  have hnumber : ∀ u ∈ digits, (Char.ofNat u.toNat).toNat = u.toNat := by
    intro u hu
    have := hrange u hu
    exact toNat_ofNat (by omega)
  refine ⟨String.ofList (v.map fun u => Char.ofNat u.toNat), ?_, ?_, ?_, ?_⟩
  · rw [sent_eq_some, String.toList_ofList]
    exact hcode
  · rw [is_duration, String.toList_ofList, ← List.map_reverse, hv, List.map_cons]
    dsimp only
    rw [hunit.2.1, Bool.true_and, Bool.and_eq_true, List.all_eq_true]
    refine ⟨by simpa using hsome, ?_⟩
    intro c hc
    obtain ⟨u, hu', rfl⟩ := List.mem_map.mp hc
    have hbounds := hrange u hu'
    have heq := hnumber u hu'
    exact (hu.digits _ (by omega)).mpr (by omega)
  · refine strip_of_no_space ?_
    intro c hc
    rw [String.toList_ofList] at hc
    obtain ⟨u, hu', rfl⟩ := List.mem_map.mp hc
    rcases hmem u hu' with rfl | hdigit
    · exact hunit.2.2
    · have hbounds := hrange u hdigit
      have hspaces : (List.range' 48 10).all (fun n => !isSpace (Char.ofNat n)) = true := by decide
      simpa using List.all_eq_true.mp hspaces _ (List.mem_range'_1.mpr ⟨hbounds.1, by omega⟩)
  · rw [String.toList_ofList]
    exact hchars

/-- An ASCII text that the server takes for a duration is one for the browser. -/
theorem duration_of_ascii (hu : Unicode classes) {v : JsString} {s : String} (hs : sent v = some s)
    (hascii : ∀ c ∈ s.toList, c.toNat < 128) (h : is_duration classes s = true) :
    DURATION_RE v = true := by
  have hv : v = s.toList.map fun c => c.toNat.toUInt16 := units_of_ascii (sent_eq_some.mp hs) hascii
  unfold is_duration at h
  split at h
  · cases h
  next unit digits hrev =>
  rw [Bool.and_eq_true, Bool.and_eq_true, List.all_eq_true] at h
  obtain ⟨⟨hunit, hsome⟩, hdigits⟩ := h
  -- the units of the two checks are the same four
  have hunits : "dhms".toList.all (fun c => (text "dhms").contains c.toNat.toUInt16) = true := by
    decide
  unfold DURATION_RE
  rw [hv, ← List.map_reverse, hrev, List.map_cons]
  dsimp only
  rw [List.all_eq_true.mp hunits unit (List.contains_iff_mem.mp hunit), Bool.true_and,
    Bool.and_eq_true, List.all_eq_true]
  refine ⟨by simpa using hsome, ?_⟩
  intro u hmem
  obtain ⟨c, hc, rfl⟩ := List.mem_map.mp hmem
  have hlt : c.toNat < 128 := by
    refine hascii c ?_
    rw [← List.mem_reverse, hrev]
    exact List.mem_cons_of_mem _ hc
  -- an ASCII digit of Python is one of the browser
  have hrange := (hu.digits c hlt).mp (hdigits c hc)
  have hnumber : (c.toNat.toUInt16).toNat = c.toNat := by
    rw [UInt16.toNat_ofNat', Nat.mod_eq_of_lt (by omega)]
  rw [digitUnit, hnumber, Bool.and_eq_true, decide_eq_true_eq, decide_eq_true_eq]
  exact hrange

theorem sent_nil {s : String} (h : sent [] = some s) : s = "" := by
  have hcode := sent_eq_some.mp h
  exact String.toList_eq_nil_iff.mp (by simpa [chars, codePoints] using hcode.symm)

theorem nil_of_sent {v : JsString} (h : sent v = some "") : v = [] :=
  codePoints_eq_nil (sent_eq_some.mp h)

theorem duration_mirrors_iff (hu : Unicode classes) (v : JsString) :
    (validateDuration v = none ↔ TakesDuration classes v) ↔
      (∀ s, sent v = some s → strip s = "" → s = "") ∧
      (∀ s, sent v = some s → is_duration classes (strip s) = true →
        strip s = s ∧ ∀ c ∈ s.toList, c.toNat < 128) := by
  rw [validateDuration_iff, takes_duration_iff]
  constructor
  · intro h
    constructor
    · intro s hs hblank
      -- a blank text is taken by Python; the browser takes it only when empty
      rcases h.mpr (.inr ⟨s, hs, .inl hblank⟩) with rfl | hre
      · exact sent_nil hs
      · obtain ⟨t, ht, -, hstrip, -⟩ := duration_sent hu hre
        cases hs.symm.trans ht
        exact hstrip.symm.trans hblank
    · intro s hs hduration
      -- a duration of Python is one of the browser only without spaces and in ASCII
      rcases h.mpr (.inr ⟨s, hs, .inr hduration⟩) with rfl | hre
      · cases sent_nil hs
        cases hduration
      · obtain ⟨t, ht, -, hstrip, hascii⟩ := duration_sent hu hre
        cases hs.symm.trans ht
        exact ⟨hstrip, hascii⟩
  · rintro ⟨hblank, hshape⟩
    constructor
    · rintro (hv | hre)
      · exact .inl hv
      · obtain ⟨s, hs, hduration, hstrip, -⟩ := duration_sent hu hre
        exact .inr ⟨s, hs, .inr (by rw [hstrip]; exact hduration)⟩
    · rintro (hv | ⟨s, hs, hempty | hduration⟩)
      · exact .inl hv
      · obtain rfl := hblank s hs hempty
        exact .inl (nil_of_sent hs)
      · obtain ⟨hstrip, hascii⟩ := hshape s hs hduration
        rw [hstrip] at hduration
        exact .inr (duration_of_ascii hu hs hascii hduration)

/-! ## The form -/

/-- What the form sends, the server takes, if it knows the letters of the name. -/
theorem submitted_taken (hu : Unicode classes) {alias_ duration : JsString} {body : FormBody}
    (hknown : (codePoints (trim alias_)).all (nameChar letters) = true →
      (codePoints (trim alias_)).all (nameChar classes.isalnum) = true)
    (h : onSubmit letters alias_ duration = .ok body) :
    (∀ v, body.key_name = some v → TakesAlias classes v) ∧
    (∀ v, body.duration = some v → TakesDuration classes v) := by
  unfold onSubmit at h
  dsimp only at h
  split at h
  · cases h
  next hnone =>
  rw [Bool.or_eq_true, not_or] at hnone
  cases h
  constructor
  -- a value that is sent has passed the check of its field
  · intro v hv
    dsimp only at hv
    split at hv
    · cases hv
    next hne =>
    cases hv
    obtain ⟨hlength, hall⟩ := (validateAlias_iff hne).mp (by simpa using hnone.1)
    exact (takes_alias_iff hu _).mpr ⟨hne, (codePoints_length_le _).trans hlength, hknown hall⟩
  · intro v hv
    dsimp only at hv
    split at hv
    · cases hv
    next hne =>
    cases hv
    have hre := ((validateDuration_iff _).mp (by simpa using hnone.2)).resolve_left hne
    obtain ⟨s, hs, hduration, hstrip, -⟩ := duration_sent hu hre
    exact (takes_duration_iff _).mpr (.inr ⟨s, hs, .inr (by rw [hstrip]; exact hduration)⟩)

/-- The browser decides as the server does if and only if the inputs are alike
    to both. -/
theorem key_form_mirrors_iff (hu : Unicode classes) (alias_ duration : JsString) :
    Mirrors letters classes alias_ duration ↔ Alike letters classes alias_ duration := by
  constructor
  · intro h
    obtain ⟨hblank, hshape⟩ := (duration_mirrors_iff hu _).mp h.duration
    by_cases hv : trim alias_ = []
    · refine ⟨?_, ?_, hblank, hshape⟩
      · rw [hv]
        exact fun _ _ => Nat.zero_le _
      · rw [hv]
        exact fun _ => Iff.rfl
    · obtain ⟨hunits, htables⟩ := (alias_mirrors_iff hu hv).mp (h.key_name hv)
      exact ⟨hunits, htables, hblank, hshape⟩
  · intro h
    exact ⟨fun hv => (alias_mirrors_iff hu hv).mpr ⟨h.units, h.tables⟩,
      (duration_mirrors_iff hu _).mpr ⟨h.blank, h.shape⟩⟩

end

/-! A letter outside the first plane is two code units, Python's `strip` removes
    the separators that JavaScript keeps, and a browser may know newer letters. -/

/-- Small letters and digits, and one mathematical letter. -/
def some_letters : CharClasses where
  isalnum := inRanges [(48, 57), (97, 122), (0x1D400, 0x1D400)]
  isdigit := inRanges [(48, 57)]

theorem some_letters_unicode : Unicode some_letters := by
  constructor
  · intro c h
    simp [some_letters, inRanges] at h
    simp [isSpace, inRanges]
    omega
  · intro c hc
    simp [some_letters, inRanges]

/-- The same, and an ideograph of a later version of Unicode. -/
def newer_letters (c : Char) : Bool := some_letters.isalnum c || c.toNat == 0x323B0

/-- An ordinary name and lifetime. -/
theorem key_form_mirrors_plain :
    Mirrors newer_letters some_letters (text " n8n-prod ") (text "90d") := by
  have hsent : sent (trim (text "90d")) = some "90d" := by decide +kernel
  refine (key_form_mirrors_iff some_letters_unicode _ _).mpr ⟨?_, ?_, ?_, ?_⟩
  · decide +kernel
  · decide +kernel
  · intro s hs hblank
    cases hsent.symm.trans hs
    exact absurd hblank (by decide +kernel)
  · intro s hs _
    cases hsent.symm.trans hs
    have hascii : "90d".toList.all (fun c => decide (c.toNat < 128)) = true := by decide
    exact ⟨by decide +kernel, fun c hc => by simpa using List.all_eq_true.mp hascii c hc⟩

/-- Sixty-five mathematical letters, a duration behind a separator, and a letter
    that only the browser knows. -/
theorem key_form_blocks :
    ¬ Mirrors newer_letters some_letters (List.replicate 65 [0xD835, 0xDC00]).flatten [] ∧
    ¬ Mirrors newer_letters some_letters [] [0x1C, 57, 48, 100] ∧
    ¬ Mirrors newer_letters some_letters [0xD888, 0xDFB0] [] := by
  refine ⟨?_, ?_, ?_⟩
  · intro h
    have hmirrors := (alias_mirrors_iff some_letters_unicode (by decide +kernel)).mp
      (h.key_name (by decide +kernel))
    exact absurd (hmirrors.1 (by decide +kernel) (by decide +kernel)) (by decide +kernel)
  · intro h
    have hshape := ((duration_mirrors_iff some_letters_unicode _).mp h.duration).2
      (String.ofList [Char.ofNat 0x1C, '9', '0', 'd']) (by decide +kernel) (by decide +kernel)
    exact absurd hshape.1 (by decide +kernel)
  · intro h
    have hmirrors := (alias_mirrors_iff some_letters_unicode (by decide +kernel)).mp
      (h.key_name (by decide +kernel))
    exact absurd ((hmirrors.2 (by decide +kernel)).mp (by decide +kernel)) (by decide +kernel)

end AlitellmAuth.Ui
