import Mathlib.Data.List.Nodup
import Mathlib.Data.List.Basic

/-! # First occurrences

    A list without its repetitions, in the order in which the items occur
    first: what a dictionary that is filled item by item has for keys.

    * `IsFirsts`: one list is that of another.
    * `isFirsts_eraseDups`: what `eraseDups` returns.
-/

namespace Firsts

variable {α : Type} [BEq α] [LawfulBEq α]

/-- The items of a list, each once, in the order of their first occurrences. -/
structure IsFirsts (firsts items : List α) : Prop where
  nodup : firsts.Nodup
  members : ∀ x, x ∈ firsts ↔ x ∈ items
  order : firsts.Pairwise fun x y => items.idxOf x < items.idxOf y

/-- Leaving out items keeps the order of the others. -/
theorem idxOf_lt_of_filter {p : α → Bool} {items : List α} {x y : α} (hx : p x = true)
    (hy : p y = true) (h : (items.filter p).idxOf x < (items.filter p).idxOf y) :
    items.idxOf x < items.idxOf y := by
  induction items with
  | nil => exact h
  | cons item rest ih =>
    rw [List.filter_cons] at h
    by_cases hxi : item = x
    · subst hxi
      have hne : item ≠ y := by
        rintro rfl
        omega
      rw [List.idxOf_cons_self, List.idxOf_cons_ne _ hne]
      omega
    · by_cases hyi : item = y
      · subst hyi
        rw [if_pos hy, List.idxOf_cons_self] at h
        omega
      · rw [List.idxOf_cons_ne _ hxi, List.idxOf_cons_ne _ hyi]
        split at h
        · rw [List.idxOf_cons_ne _ hxi, List.idxOf_cons_ne _ hyi] at h
          have hrest := ih (by omega)
          omega
        · have hrest := ih h
          omega

theorem isFirsts_eraseDups (items : List α) : IsFirsts items.eraseDups items := by
  induction hn : items.length using Nat.strongRecOn generalizing items with
  | ind n ih =>
    cases items with
    | nil => exact ⟨List.nodup_nil, fun x => Iff.rfl, List.Pairwise.nil⟩
    | cons item rest =>
      have hshort : (rest.filter fun y => !y == item).length < n := by
        have := List.length_filter_le (fun y => !y == item) rest
        rw [← hn, List.length_cons]
        omega
      obtain ⟨hnodup, hmembers, horder⟩ := ih _ hshort _ rfl
      rw [List.eraseDups_cons]
      have hne : ∀ x ∈ (rest.filter fun y => !y == item).eraseDups, item ≠ x ∧ (!x == item) = true := by
        intro x hx
        have hkept := (List.mem_filter.mp ((hmembers x).mp hx)).2
        refine ⟨?_, hkept⟩
        rintro rfl
        simp at hkept
      refine ⟨?_, fun x => ?_, ?_⟩
      · rw [List.nodup_cons]
        exact ⟨fun hmem => (hne item hmem).1 rfl, hnodup⟩
      · rw [List.mem_cons, hmembers, List.mem_filter, List.mem_cons]
        by_cases hx : x = item
        · simp [hx]
        · simp [hx]
      · rw [List.pairwise_cons]
        constructor
        · intro x hx
          rw [List.idxOf_cons_self, List.idxOf_cons_ne _ (hne x hx).1]
          omega
        · -- the rest is ordered as in the list without the first item
          refine horder.imp_of_mem fun {x y} hx hy hlt => ?_
          rw [List.idxOf_cons_ne _ (hne x hx).1, List.idxOf_cons_ne _ (hne y hy).1]
          have := @idxOf_lt_of_filter _ _ _ (fun z => !z == item) rest x y (hne x hx).2 (hne y hy).2 hlt
          omega

end Firsts
