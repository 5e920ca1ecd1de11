import Mathlib.Init

/-! # Tables

    Rows by key, in the order in which the keys were first written: a list of
    pairs, read with `List.lookup`. Writing a row that is there keeps its
    place; writing several rows, the last one under a key counts.
-/

namespace Table

variable {K α : Type} [DecidableEq K] {key key' : K} {v w : α} {rows : List (K × α)}

/-- Write one row: an old row keeps its place. -/
def put (rows : List (K × α)) (key : K) (v : α) : List (K × α) :=
  if (rows.lookup key).isSome then
    rows.map fun row => if row.1 = key then (key, v) else row
  else rows ++ [(key, v)]

/-- Write one row if there is none under its key. -/
def setdefault (rows : List (K × α)) (key : K) (v : α) : List (K × α) :=
  if (rows.lookup key).isSome then rows else rows ++ [(key, v)]

/-! ## One row -/

theorem lookup_cons_ne (rows : List (K × α)) (w : α) (h : key' ≠ key) :
    ((key, w) :: rows).lookup key' = rows.lookup key' := by
  rw [List.lookup_cons, beq_eq_false_iff_ne.mpr h]

theorem lookup_replaced (rows : List (K × α)) (key key' : K) (v : α) :
    (rows.map fun row => if row.1 = key then (key, v) else row).lookup key' =
      (rows.lookup key').map fun w => if key' = key then v else w := by
  induction rows with
  | nil => rfl
  | cons row rows ih =>
    obtain ⟨k, w⟩ := row
    rw [List.map_cons]
    by_cases hk' : key' = k
    · subst hk'
      by_cases hk : key' = key
      · simp [hk]
      · simp [hk]
    · rw [lookup_cons_ne rows w hk', ← ih]
      by_cases hk : k = key
      · rw [if_pos hk, lookup_cons_ne _ v (hk ▸ hk')]
      · rw [if_neg hk, lookup_cons_ne _ w hk']

@[simp] theorem lookup_put_self (rows : List (K × α)) (key : K) (v : α) :
    (put rows key v).lookup key = some v := by
  unfold put
  split
  · next h =>
    obtain ⟨w, hw⟩ := Option.isSome_iff_exists.mp h
    rw [lookup_replaced, hw]
    simp
  · next h =>
    rw [Option.not_isSome_iff_eq_none] at h
    rw [List.lookup_append, h]
    simp

theorem lookup_put_ne (rows : List (K × α)) (v : α) (h : key' ≠ key) :
    (put rows key v).lookup key' = rows.lookup key' := by
  unfold put
  split
  · rw [lookup_replaced]
    simp [h]
  · rw [List.lookup_append, lookup_cons_ne [] v h]
    simp

/-- A write changes one row. -/
theorem lookup_put (rows : List (K × α)) (key key' : K) (v : α) :
    (put rows key v).lookup key' = if key' = key then some v else rows.lookup key' := by
  split
  · next h => rw [h, lookup_put_self]
  · next h => exact lookup_put_ne rows v h

/-- An old row wins over a default. -/
theorem lookup_setdefault (rows : List (K × α)) (key key' : K) (v : α) :
    (setdefault rows key v).lookup key' =
      (rows.lookup key').or (if key' = key then some v else none) := by
  unfold setdefault
  split
  · next h =>
    split
    · next hk => rw [hk, Option.or_of_isSome h]
    · rw [Option.or_none]
  · rw [List.lookup_append]
    congr 1
    split
    · next hk => simp [hk]
    · next hk => rw [lookup_cons_ne [] v hk, List.lookup_nil]

/-- Read from the end, a write changes the same row. -/
theorem lookup_reverse_put (rows : List (K × α)) (key key' : K) (v : α) :
    (put rows key v).reverse.lookup key' =
      if key' = key then some v else rows.reverse.lookup key' := by
  unfold put
  split
  · next h =>
    rw [← List.map_reverse, lookup_replaced]
    by_cases hk : key' = key
    · have hsome : (rows.reverse.lookup key).isSome = true := by
        rw [List.lookup_isSome_iff] at h ⊢
        obtain ⟨row, hrow, heq⟩ := h
        exact ⟨row, List.mem_reverse.mpr hrow, heq⟩
      obtain ⟨w, hw⟩ := Option.isSome_iff_exists.mp hsome
      simp [hk, hw]
    · simp [hk]
  · rw [List.reverse_append]
    show ((key, v) :: rows.reverse).lookup key' = _
    by_cases hk : key' = key
    · simp [hk]
    · rw [if_neg hk, lookup_cons_ne _ _ hk]

/-- Writing a row that is there changes no key. -/
theorem keys_put {rows : List (K × α)} {key : K} (h : (rows.lookup key).isSome = true)
    (v : α) : (put rows key v).map (·.1) = rows.map (·.1) := by
  rw [put, if_pos h, List.map_map]
  apply List.map_congr_left
  intro row _
  show (if row.1 = key then (key, v) else row).1 = row.1
  split
  · next hkey => exact hkey.symm
  · rfl

/-! ## Several rows -/

/-- The last row under a key counts. -/
theorem lookup_foldl_put (rows other : List (K × α)) (key : K) :
    (other.foldl (fun d row => put d row.1 row.2) rows).lookup key =
      (other.reverse.lookup key).or (rows.lookup key) := by
  induction other generalizing rows with
  | nil => rfl
  | cons row other ih =>
    obtain ⟨k, w⟩ := row
    rw [List.foldl_cons, ih, lookup_put, List.reverse_cons, List.lookup_append, Option.or_assoc]
    congr 1
    by_cases hk : key = k
    · simp [hk]
    · rw [if_neg hk, lookup_cons_ne [] w hk]
      rfl

/-- A selection by key keeps whole rows. -/
theorem lookup_filter_key (p : K → Bool) (rows : List (K × α)) (key : K) :
    (rows.filter fun row => p row.1).lookup key = if p key then rows.lookup key else none := by
  induction rows with
  | nil => simp
  | cons row rows ih =>
    obtain ⟨k, w⟩ := row
    rw [List.filter_cons]
    by_cases hk : key = k
    · subst hk
      by_cases hp : p key = true
      · simp [hp]
      · simp [hp, ih]
    · rw [lookup_cons_ne rows w hk, ← ih]
      by_cases hp : p k = true
      · rw [if_pos hp, lookup_cons_ne _ w hk]
      · rw [if_neg hp]

end Table
