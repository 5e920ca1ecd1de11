import Mathlib.Data.List.Sort

/-! # Stable sorting

    A stable sort is known by two facts: its result is in the order of the keys,
    and under each key the rows are as they were. The two determine the result.

    * `Sorted`: both facts.
    * `sorted_insertionSort`: sorting by insertion is stable.
    * `sorted_unique`: no other list has both facts.
    * `Sorted.pairwise`, `mem_take_iff`: what stands before a row in the result,
      and which rows are the first ones.
-/

namespace Stable

variable {α κ : Type} [LinearOrder κ]

/-- The rows in the order of their keys, and under each key as they were. -/
structure Sorted (key : α → κ) (rows sorted : List α) : Prop where
  ordered : sorted.Pairwise fun a b => key a ≤ key b
  stable : ∀ k, sorted.filter (key · = k) = rows.filter (key · = k)

/-- Inserted in front of its equals, a row comes first among them. -/
theorem filter_orderedInsert (key : α → κ) (k : κ) (a : α) (rows : List α) :
    (rows.orderedInsert (fun a b => key a ≤ key b) a).filter (key · = k) =
      (a :: rows).filter (key · = k) := by
  induction rows with
  | nil => rfl
  | cons b rows ih =>
    rw [List.orderedInsert_cons]
    split
    · rfl
    · next hlt =>
      rw [List.filter_cons, ih, List.filter_cons, List.filter_cons, List.filter_cons]
      -- `b` goes before `a`, so the two have different keys.
      by_cases ha : key a = k
      · have hb : ¬ key b = k := fun hb => hlt (ha.trans hb.symm).le
        simp [ha, hb]
      · simp [ha]

/-- Sorting by insertion is stable. -/
theorem sorted_insertionSort (key : α → κ) (rows : List α) :
    Sorted key rows (rows.insertionSort fun a b => key a ≤ key b) := by
  constructor
  · have htotal : Std.Total fun a b : α => key a ≤ key b := ⟨fun a b => le_total (key a) (key b)⟩
    have htrans : IsTrans α fun a b => key a ≤ key b := ⟨fun _ _ _ => le_trans⟩
    exact List.pairwise_insertionSort _ rows
  · intro k
    induction rows with
    | nil => rfl
    | cons a rows ih =>
      rw [List.insertionSort_cons, filter_orderedInsert, List.filter_cons, List.filter_cons, ih]

/-- A row of one list has its like in the other, under its key. -/
theorem mem_of_filters {key : α → κ} {rows rows' : List α}
    (h : ∀ k, rows.filter (key · = k) = rows'.filter (key · = k)) {a : α} (ha : a ∈ rows) :
    a ∈ rows' := by
  have hmem : a ∈ rows.filter (key · = key a) := List.mem_filter.mpr ⟨ha, by simp⟩
  rw [h] at hmem
  exact (List.mem_filter.mp hmem).1

/-- Two lists in order that agree under each key are one. -/
theorem ordered_unique {key : α → κ} {rows rows' : List α}
    (h : rows.Pairwise fun a b => key a ≤ key b) (h' : rows'.Pairwise fun a b => key a ≤ key b)
    (heq : ∀ k, rows.filter (key · = k) = rows'.filter (key · = k)) : rows = rows' := by
  induction rows generalizing rows' with
  | nil =>
    cases rows' with
    | nil => rfl
    | cons b rows' =>
      have hb := mem_of_filters (fun k => (heq k).symm) (List.mem_cons_self (a := b))
      simp at hb
  | cons a rows ih =>
    cases rows' with
    | nil =>
      have ha := mem_of_filters heq (List.mem_cons_self (a := a))
      simp at ha
    | cons b rows' =>
      rw [List.pairwise_cons] at h h'
      -- Each head is the least of its list, and is in the other one.
      have hab : key a ≤ key b := by
        rcases List.mem_cons.mp (mem_of_filters (fun k => (heq k).symm)
          (List.mem_cons_self (a := b))) with hb | hb
        · rw [hb]
        · exact h.1 b hb
      have hba : key b ≤ key a := by
        rcases List.mem_cons.mp (mem_of_filters heq (List.mem_cons_self (a := a))) with ha | ha
        · rw [ha]
        · exact h'.1 a ha
      have hkey : key a = key b := le_antisymm hab hba
      have hhead : a = b := by
        have hk := heq (key a)
        rw [List.filter_cons_of_pos (by simp), List.filter_cons_of_pos (by simp [hkey])] at hk
        exact (List.cons.inj hk).1
      subst hhead
      rw [ih h.2 h'.2]
      intro k
      have hk := heq k
      rw [List.filter_cons, List.filter_cons] at hk
      split at hk
      · exact (List.cons.inj hk).2
      · exact hk

theorem sorted_unique {key : α → κ} {rows sorted sorted' : List α} (h : Sorted key rows sorted)
    (h' : Sorted key rows sorted') : sorted = sorted' :=
  ordered_unique h.ordered h'.ordered fun k => (h.stable k).trans (h'.stable k).symm

/-- Where the rows were in an order, each row is followed by greater ones, and by
    later ones of its own key. -/
theorem Sorted.pairwise {key : α → κ} {rows sorted : List α} (h : Sorted key rows sorted)
    {R : α → α → Prop} (hrows : rows.Pairwise R) :
    sorted.Pairwise fun a b => key a < key b ∨ key a = key b ∧ R a b := by
  have hsame (k : κ) : sorted.Pairwise fun a b => key a = k → key b = k → R a b := by
    have hfilter : (sorted.filter (key · = k)).Pairwise R := by
      rw [h.stable k]
      exact hrows.filter _
    rw [List.pairwise_filter] at hfilter
    simpa using hfilter
  rw [List.pairwise_iff_getElem]
  intro i j hi hj hij
  rcases (List.pairwise_iff_getElem.mp h.ordered i j hi hj hij).lt_or_eq with hlt | heq
  · exact .inl hlt
  · exact .inr ⟨heq, List.pairwise_iff_getElem.mp (hsame (key sorted[j])) i j hi hj hij heq rfl⟩

/-- A row is among the first `n` of a list in a strict order if and only if
    fewer than `n` rows go before it. -/
theorem mem_take_iff {R : α → α → Prop} [DecidableRel R] (hasymm : ∀ a b, R a b → ¬ R b a)
    {rows : List α} (h : rows.Pairwise R) {a : α} (ha : a ∈ rows) (n : Nat) :
    a ∈ rows.take n ↔ (rows.countP fun b => R b a) < n := by
  induction rows generalizing n with
  | nil => cases ha
  | cons b rows ih =>
    obtain ⟨hfirst, hrest⟩ := List.pairwise_cons.mp h
    rw [List.countP_cons]
    cases n with
    | zero => simp
    | succ n =>
      rw [List.take_succ_cons, List.mem_cons]
      by_cases hab : a = b
      · subst hab
        have hnone : (rows.countP fun c => R c a) = 0 := by
          rw [List.countP_eq_zero]
          intro c hc
          simpa using hasymm _ _ (hfirst c hc)
        have hself : ¬ R a a := fun hR => hasymm a a hR hR
        simp [hnone, hself]
      · have hmem : a ∈ rows := (List.mem_cons.mp ha).resolve_left hab
        rw [ih hrest hmem, or_iff_right hab, if_pos (decide_eq_true (hfirst a hmem))]
        omega

end Stable
