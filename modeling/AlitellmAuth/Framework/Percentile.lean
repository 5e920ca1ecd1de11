import Mathlib.Algebra.Order.Field.Rat
import Mathlib.Data.List.Sort
import Mathlib.Tactic.Linarith

/-! # Nearest-rank percentiles

    The percentile of a list is the smallest of its values that a given part of
    the list does not exceed. In the sorted list it stands at a rank that only
    depends on the length.

    * `IsPercentile`: what a percentile is.
    * `isPercentile_get`: where it stands.
    * `IsPercentile.mono`, `IsPercentile.unique`: a greater part, a greater
      percentile, and one percentile only.
-/

namespace Percentile

variable {α : Type} [LinearOrder α]

/-- The smallest value that at least `p` percent of the values do not exceed. -/
structure IsPercentile (p : Rat) (vals : List α) (v : α) : Prop where
  recorded : v ∈ vals
  enough : p * vals.length ≤ 100 * (vals.countP fun w => w ≤ v : Nat)
  smallest : ∀ w ∈ vals, p * vals.length ≤ 100 * (vals.countP fun u => u ≤ w : Nat) → v ≤ w

namespace IsPercentile

variable {p q : Rat} {vals vals' : List α} {v w : α}

theorem mono (hpq : p ≤ q) (hv : IsPercentile p vals v) (hw : IsPercentile q vals w) : v ≤ w := by
  apply hv.smallest w hw.recorded
  have hlength : (0 : Rat) ≤ vals.length := Nat.cast_nonneg _
  have hle : p * vals.length ≤ q * vals.length := mul_le_mul_of_nonneg_right hpq hlength
  exact le_trans hle hw.enough

theorem unique (hv : IsPercentile p vals v) (hw : IsPercentile p vals w) : v = w :=
  le_antisymm (mono le_rfl hv hw) (mono le_rfl hw hv)

theorem perm (h : vals.Perm vals') (hv : IsPercentile p vals v) : IsPercentile p vals' v := by
  constructor
  · exact h.mem_iff.mp hv.recorded
  · rw [← h.length_eq, ← h.countP_eq]
    exact hv.enough
  · intro w hw hle
    rw [← h.length_eq, ← h.countP_eq] at hle
    exact hv.smallest w (h.mem_iff.mpr hw) hle

end IsPercentile

/-! ## The rank -/

section
variable {vals : List α} (hsorted : vals.Pairwise (· ≤ ·))
include hsorted

theorem getElem_le {i k : Nat} (hik : i ≤ k) (hi : i < vals.length) (h : k < vals.length) :
    vals[i] ≤ vals[k] := by
  rcases Nat.lt_or_eq_of_le hik with hlt | heq
  · exact List.pairwise_iff_getElem.mp hsorted i k hi h hlt
  · subst heq
    exact le_rfl

/-- The values up to the one of a rank do not exceed it. -/
theorem lt_countP {k : Nat} (h : k < vals.length) :
    k < vals.countP fun w => w ≤ vals[k] := by
  have hsplit : vals = vals.take (k + 1) ++ vals.drop (k + 1) := (List.take_append_drop _ _).symm
  have hlength : (vals.take (k + 1)).length = k + 1 := by
    rw [List.length_take]
    omega
  have hall : (vals.take (k + 1)).countP (fun w => w ≤ vals[k]) = (vals.take (k + 1)).length := by
    rw [List.countP_eq_length]
    intro w hw
    obtain ⟨i, hi, rfl⟩ := List.mem_iff_getElem.mp hw
    rw [List.getElem_take]
    exact decide_eq_true (getElem_le hsorted (by omega) (by omega) h)
  have hcount : vals.countP (fun w => w ≤ vals[k]) =
      (vals.take (k + 1)).countP (fun w => w ≤ vals[k]) +
        (vals.drop (k + 1)).countP (fun w => w ≤ vals[k]) := by
    rw [← List.countP_append, ← hsplit]
  omega

/-- A smaller value is exceeded from the rank on. -/
theorem countP_le {k : Nat} (h : k < vals.length) {w : α} (hlt : w < vals[k]) :
    (vals.countP fun u => u ≤ w) ≤ k := by
  have hsplit : vals = vals.take k ++ vals.drop k := (List.take_append_drop _ _).symm
  have hnone : (vals.drop k).countP (fun u => u ≤ w) = 0 := by
    rw [List.countP_eq_zero]
    intro u hu
    obtain ⟨i, hi, rfl⟩ := List.mem_iff_getElem.mp hu
    rw [List.length_drop] at hi
    rw [List.getElem_drop]
    have hle := getElem_le hsorted (Nat.le_add_right k i) h (by omega)
    simpa using lt_of_lt_of_le hlt hle
  have hcount : vals.countP (fun u => u ≤ w) =
      (vals.take k).countP (fun u => u ≤ w) + (vals.drop k).countP (fun u => u ≤ w) := by
    rw [← List.countP_append, ← hsplit]
  have hlength := List.countP_le_length (p := fun u => decide (u ≤ w)) (l := vals.take k)
  rw [List.length_take] at hlength
  omega

/-- The rank of a percentile: as many values before it as are fewer than the
    part, and with it no fewer. -/
theorem isPercentile_get {p : Rat} {k : Nat} (h : k < vals.length)
    (hlt : 100 * (k : Rat) < p * vals.length) (hle : p * vals.length ≤ 100 * ((k + 1 : Nat) : Rat)) :
    IsPercentile p vals vals[k] := by
  have hcount := lt_countP hsorted h
  constructor
  · exact List.getElem_mem h
  · have hcast : ((k + 1 : Nat) : Rat) ≤ (vals.countP fun w => w ≤ vals[k] : Nat) :=
      Nat.cast_le.mpr hcount
    linarith
  · intro w _ henough
    by_contra hnot
    have hfew := countP_le hsorted h (not_le.mp hnot)
    have hcast : ((vals.countP fun u => u ≤ w : Nat) : Rat) ≤ (k : Rat) := Nat.cast_le.mpr hfew
    linarith

end

end Percentile
