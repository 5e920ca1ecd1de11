import Mathlib.Data.List.Forall2
import AlitellmAuth.Framework.Order

/-! # Two runs

    Relations between the results of two runs. Rows are related one by one, so
    a sort keeps them related if it looks at related keys alike.

    * `Related`: both runs fail alike, or return related values.
    * `related_bind`: the rule for sequencing.
    * `forall₂_insertionSort`, `related_sortDesc`: the rules for sorting.
-/

namespace TwoRuns

variable {α β α' β' ε ε' : Type}

/-! ## Results -/

/-- Both runs fail alike, or return related values. -/
def Related (E : ε → ε' → Prop) (R : α → β → Prop) : Except ε α → Except ε' β → Prop
  | .ok a, .ok b => R a b
  | .error e, .error e' => E e e'
  | _, _ => False

variable {E : ε → ε' → Prop} {R : α → β → Prop} {S : α' → β' → Prop}

/-- Sequencing, where the second part may depend on what the first returned. -/
theorem related_bind_of {x : Except ε α} {y : Except ε' β} {f : α → Except ε α'}
    {g : β → Except ε' β'} (h : Related E R x y)
    (hf : ∀ a b, x = .ok a → y = .ok b → R a b → Related E S (f a) (g b)) :
    Related E S (x.bind f) (y.bind g) := by
  cases x with
  | ok a =>
    cases y with
    | ok b => exact hf a b rfl rfl h
    | error e' => exact h.elim
  | error e =>
    cases y with
    | ok b => exact h.elim
    | error e' => exact h

theorem related_bind {x : Except ε α} {y : Except ε' β} {f : α → Except ε α'}
    {g : β → Except ε' β'} (h : Related E R x y)
    (hf : ∀ a b, R a b → Related E S (f a) (g b)) : Related E S (x.bind f) (y.bind g) :=
  related_bind_of h fun a b _ _ => hf a b

/-! ## Rows -/

section
variable {l : List α} {l' : List β}

theorem forall₂_of_map_eq {γ : Type} {f : α → γ} {g : β → γ} (h : l.map f = l'.map g) :
    List.Forall₂ (fun a b => f a = g b) l l' := by
  rw [← List.forall₂_eq_eq_eq, List.forall₂_map_left_iff, List.forall₂_map_right_iff] at h
  exact h

theorem exists_of_mem_left (h : List.Forall₂ R l l') {a : α} (ha : a ∈ l) : ∃ b ∈ l', R a b := by
  induction h with
  | nil => cases ha
  | cons hhead htail ih =>
    rcases List.mem_cons.mp ha with rfl | ha
    · exact ⟨_, List.mem_cons_self, hhead⟩
    · obtain ⟨b, hb, hab⟩ := ih ha
      exact ⟨b, List.mem_cons_of_mem _ hb, hab⟩

theorem exists_of_mem_right (h : List.Forall₂ R l l') {b : β} (hb : b ∈ l') : ∃ a ∈ l, R a b :=
  exists_of_mem_left h.flip hb

theorem map_eq_of_forall₂ {γ : Type} {f : α → γ} {g : β → γ} (h : List.Forall₂ R l l')
    (hfg : ∀ a b, R a b → f a = g b) : l.map f = l'.map g := by
  induction h with
  | nil => rfl
  | cons hhead htail ih => rw [List.map_cons, List.map_cons, hfg _ _ hhead, ih]

theorem forall₂_map {f : α → α'} {g : β → β'} (h : List.Forall₂ R l l')
    (hfg : ∀ a b, R a b → S (f a) (g b)) : List.Forall₂ S (l.map f) (l'.map g) := by
  rw [List.forall₂_map_left_iff, List.forall₂_map_right_iff]
  exact h.imp hfg

theorem pairwise_iff {p : α → α → Prop} {q : β → β → Prop} (h : List.Forall₂ R l l')
    (hpq : ∀ a b a' b', R a b → R a' b' → (p a a' ↔ q b b')) : l.Pairwise p ↔ l'.Pairwise q := by
  induction h with
  | nil => simp
  | @cons a b l l' hhead htail ih =>
    rw [List.pairwise_cons, List.pairwise_cons, ih]
    have hall : (∀ a' ∈ l, p a a') ↔ ∀ b' ∈ l', q b b' := by
      constructor
      · intro hp b' hb'
        obtain ⟨a', ha', hrel⟩ := exists_of_mem_right htail hb'
        exact (hpq _ _ _ _ hhead hrel).mp (hp a' ha')
      · intro hq a' ha'
        obtain ⟨b', hb', hrel⟩ := exists_of_mem_left htail ha'
        exact (hpq _ _ _ _ hhead hrel).mpr (hq b' hb')
    rw [hall]

/-! ## Sorting -/

variable {r : α → α → Prop} {s : β → β → Prop} [DecidableRel r] [DecidableRel s]

theorem forall₂_orderedInsert (hrs : ∀ a b a' b', R a b → R a' b' → (r a a' ↔ s b b')) {a : α}
    {b : β} (hab : R a b) (h : List.Forall₂ R l l') :
    List.Forall₂ R (l.orderedInsert r a) (l'.orderedInsert s b) := by
  induction h with
  | nil => exact .cons hab .nil
  | @cons a' b' l l' hhead htail ih =>
    rw [List.orderedInsert_cons, List.orderedInsert_cons]
    by_cases hle : r a a'
    · rw [if_pos hle, if_pos ((hrs _ _ _ _ hab hhead).mp hle)]
      exact .cons hab (.cons hhead htail)
    · rw [if_neg hle, if_neg (mt (hrs _ _ _ _ hab hhead).mpr hle)]
      exact .cons hhead ih

theorem forall₂_insertionSort (hrs : ∀ a b a' b', R a b → R a' b' → (r a a' ↔ s b b'))
    (h : List.Forall₂ R l l') : List.Forall₂ R (l.insertionSort r) (l'.insertionSort s) := by
  induction h with
  | nil => exact .nil
  | cons hhead htail ih => exact forall₂_orderedInsert hrs hhead ih

end

/-- Rows with the same sort keys are sorted alike. -/
theorem related_sortDesc {key : α → Json} {key' : β → Json} {l : List α} {l' : List β}
    (hkey : ∀ a b, R a b → key a = key' b) (h : List.Forall₂ R l l') :
    Option.Rel (List.Forall₂ R) (Json.sortDesc key l) (Json.sortDesc key' l') := by
  have hcompare : l.Pairwise (Json.Comparable key) ↔ l'.Pairwise (Json.Comparable key') := by
    refine pairwise_iff h fun a b a' b' hab hab' => ?_
    unfold Json.Comparable
    rw [hkey _ _ hab, hkey _ _ hab']
  unfold Json.sortDesc
  by_cases hpair : l.Pairwise (Json.Comparable key)
  · rw [if_pos hpair, if_pos (hcompare.mp hpair)]
    refine .some (forall₂_insertionSort (fun a b a' b' hab hab' => ?_) h)
    unfold Json.NotBelow
    rw [hkey _ _ hab, hkey _ _ hab']
  · rw [if_neg hpair, if_neg (mt hcompare.mpr hpair)]
    exact .none

end TwoRuns
