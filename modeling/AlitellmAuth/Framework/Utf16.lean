import AlitellmAuth.Framework.PyText

/-! # Code units and code points

    JavaScript counts 16-bit units; two of them can make one code point.

    * `codePoints`: the code points of a list of units.
    * `codePoints_length_le`: there are no more of them than units.
    * `units_of_ascii`: a text of ASCII characters is one unit for each.
-/

namespace Utf16

def isHigh (u : UInt16) : Bool := 0xD800 ≤ u.toNat && u.toNat ≤ 0xDBFF

def isLow (u : UInt16) : Bool := 0xDC00 ≤ u.toNat && u.toNat ≤ 0xDFFF

/-- A unit on its own. -/
def single (u : UInt16) : CodePoint :=
  if 0xD800 ≤ u.toNat ∧ u.toNat ≤ 0xDFFF then .surrogate (Fin.ofNat 2048 (u.toNat - 0xD800))
  else .char (Char.ofNat u.toNat)

/-- The character of a pair. -/
def paired (u w : UInt16) : Char :=
  Char.ofNat (0x10000 + (u.toNat - 0xD800) * 0x400 + (w.toNat - 0xDC00))

/-- The code points of a list of units. -/
def codePoints : List UInt16 → PyStr
  | [] => []
  | [u] => [single u]
  | u :: w :: rest =>
      if isHigh u && isLow w then .char (paired u w) :: codePoints rest
      else single u :: codePoints (w :: rest)

theorem codePoints_length_le (v : List UInt16) : (codePoints v).length ≤ v.length := by
  induction v using codePoints.induct with
  | case1 => exact Nat.le_refl 0
  | case2 u => exact Nat.le_refl 1
  | case3 u w rest hpair ih =>
    rw [codePoints, if_pos hpair, List.length_cons, List.length_cons, List.length_cons]
    omega
  | case4 u w rest hpair ih =>
    rw [codePoints, if_neg hpair, List.length_cons, List.length_cons]
    omega

theorem codePoints_eq_nil {v : List UInt16} (h : codePoints v = []) : v = [] := by
  cases v with
  | nil => rfl
  | cons u v =>
    cases v with
    | nil => cases h
    | cons w rest =>
      rw [codePoints] at h
      split at h
      · cases h
      · cases h

/-- A unit below the surrogates stands for itself. -/
theorem codePoints_cons {u : UInt16} (h : u.toNat < 0xD800) (v : List UInt16) :
    codePoints (u :: v) = .char (Char.ofNat u.toNat) :: codePoints v := by
  have hsingle : single u = .char (Char.ofNat u.toNat) := if_neg (by omega)
  cases v with
  | nil => exact congrArg (fun p => [p]) hsingle
  | cons w rest =>
    have hhigh : isHigh u = false := by
      rw [isHigh, Bool.and_eq_false_iff]
      exact .inl (decide_eq_false (by omega))
    rw [codePoints, hhigh, Bool.false_and, if_neg Bool.false_ne_true, hsingle]

theorem codePoints_ascii {v : List UInt16} (h : ∀ u ∈ v, u.toNat < 128) :
    codePoints v = chars (v.map fun u => Char.ofNat u.toNat) := by
  induction v with
  | nil => rfl
  | cons u v ih =>
    have hu := h u List.mem_cons_self
    rw [codePoints_cons (by omega), ih fun w hw => h w (List.mem_cons_of_mem _ hw)]
    rfl

theorem toNat_ofNat {n : Nat} (h : n < 0xD800) : (Char.ofNat n).toNat = n := by
  rw [Char.ofNat, dif_pos (Or.inl h)]
  rfl

/-- A unit that is a character has its number. -/
theorem single_char {u : UInt16} {c : Char} (h : single u = .char c) : u.toNat = c.toNat := by
  unfold single at h
  split at h
  · cases h
  · next hno =>
    have hc' : Char.ofNat u.toNat = c := CodePoint.char.inj h
    have hvalid : u.toNat.isValidChar := by
      have hlt := u.toNat_lt
      show u.toNat < 0xD800 ∨ 0xDFFF < u.toNat ∧ u.toNat < 0x110000
      omega
    rw [← hc', Char.ofNat, dif_pos hvalid]
    rfl

theorem paired_not_ascii {u w : UInt16} (hu : isHigh u = true) (hw : isLow w = true) :
    ¬ (paired u w).toNat < 128 := by
  rw [isHigh, Bool.and_eq_true, decide_eq_true_eq, decide_eq_true_eq] at hu
  rw [isLow, Bool.and_eq_true, decide_eq_true_eq, decide_eq_true_eq] at hw
  have hvalid : (0x10000 + (u.toNat - 0xD800) * 0x400 + (w.toNat - 0xDC00)).isValidChar := by
    show _ < 0xD800 ∨ 0xDFFF < _ ∧ _ < 0x110000
    omega
  unfold paired
  rw [Char.ofNat, dif_pos hvalid]
  show ¬ (0x10000 + (u.toNat - 0xD800) * 0x400 + (w.toNat - 0xDC00)) < 128
  omega

/-- A text of ASCII characters is one unit for each of them. -/
theorem units_of_ascii {v : List UInt16} {cs : List Char} (h : codePoints v = chars cs)
    (hascii : ∀ c ∈ cs, c.toNat < 128) : v = cs.map fun c => c.toNat.toUInt16 := by
  have hback : ∀ {u : UInt16} {c : Char}, u.toNat = c.toNat → u = c.toNat.toUInt16 := by
    intro u c heq
    rw [← heq]
    exact (UInt16.ofNat_toNat).symm
  induction v using codePoints.induct generalizing cs with
  | case1 =>
    cases cs with
    | nil => rfl
    | cons c cs => cases h
  | case2 u =>
    cases cs with
    | nil => cases h
    | cons c cs =>
      obtain ⟨hhead, htail⟩ := List.cons.inj h
      cases cs with
      | cons d cs => cases htail
      | nil =>
        have hu := single_char hhead
        rw [List.map_cons, List.map_nil, ← hback hu]
  | case3 u w rest hpair ih =>
    rw [codePoints, if_pos hpair] at h
    rw [Bool.and_eq_true] at hpair
    cases cs with
    | nil => cases h
    | cons c cs =>
      obtain ⟨hhead, -⟩ := List.cons.inj h
      have hc : paired u w = c := CodePoint.char.inj hhead
      -- a pair of surrogates is no ASCII character
      exact absurd (hc ▸ hascii c List.mem_cons_self) (paired_not_ascii hpair.1 hpair.2)
  | case4 u w rest hpair ih =>
    rw [codePoints, if_neg hpair] at h
    cases cs with
    | nil => cases h
    | cons c cs =>
      obtain ⟨hhead, htail⟩ := List.cons.inj h
      have hu := single_char hhead
      rw [List.map_cons, ← hback hu, ih htail fun d hd => hascii d (List.mem_cons_of_mem _ hd)]

end Utf16
