import Mathlib.Data.List.Nodup

/-! # Dictionaries

    A dictionary that is filled entry by entry: a key has the value that was
    written last, at the place where it was written first.

    * `put`: write one entry.
    * `lookup_put`, `keys_put`: what it changes.
    * `mem_iff_lookup`: an entry is found under its key.
-/

namespace Dict

variable {κ α : Type} [BEq κ] [LawfulBEq κ]

/-- Write one entry: an old one keeps its place. -/
def put (rows : List (κ × α)) (key : κ) (v : α) : List (κ × α) :=
  if (rows.lookup key).isSome then
    rows.map fun row => if row.1 == key then (key, v) else row
  else rows ++ [(key, v)]

theorem lookup_cons_ne {key key' : κ} (rows : List (κ × α)) (w : α) (h : key' ≠ key) :
    ((key, w) :: rows).lookup key' = rows.lookup key' := by
  rw [List.lookup_cons, beq_eq_false_iff_ne.mpr h]

theorem lookup_cons_self (key : κ) (rows : List (κ × α)) (w : α) :
    ((key, w) :: rows).lookup key = some w := by
  rw [List.lookup_cons, beq_self_eq_true]

theorem lookup_replaced (rows : List (κ × α)) (key key' : κ) (v : α) :
    (rows.map fun row => if row.1 == key then (key, v) else row).lookup key' =
      (rows.lookup key').map fun w => if key' == key then v else w := by
  induction rows with
  | nil => rfl
  | cons row rows ih =>
    obtain ⟨k, w⟩ := row
    rw [List.map_cons]
    by_cases hk' : key' = k
    · subst hk'
      by_cases hk : key' = key
      · simp [hk]
      · simp [hk]
    · rw [lookup_cons_ne rows w hk', ← ih]
      by_cases hk : k = key
      · rw [if_pos (beq_iff_eq.mpr hk), lookup_cons_ne _ v (hk ▸ hk')]
      · rw [if_neg (by simpa using hk), lookup_cons_ne _ w hk']

/-- A write changes one entry. -/
theorem lookup_put_self (rows : List (κ × α)) (key : κ) (v : α) :
    (put rows key v).lookup key = some v := by
  unfold put
  by_cases h : (rows.lookup key).isSome = true
  · obtain ⟨w, hw⟩ := Option.isSome_iff_exists.mp h
    rw [if_pos h, lookup_replaced, hw]
    simp
  · rw [if_neg h, List.lookup_append]
    rw [Option.not_isSome_iff_eq_none] at h
    rw [h, lookup_cons_self, Option.none_or]

theorem lookup_put_ne (rows : List (κ × α)) {key key' : κ} (v : α) (hk : key' ≠ key) :
    (put rows key v).lookup key' = rows.lookup key' := by
  unfold put
  by_cases h : (rows.lookup key).isSome = true
  · rw [if_pos h, lookup_replaced]
    simp [hk]
  · rw [if_neg h, List.lookup_append, lookup_cons_ne [] v hk, List.lookup_nil, Option.or_none]

theorem lookup_isSome_iff_mem (rows : List (κ × α)) (key : κ) :
    (rows.lookup key).isSome = true ↔ key ∈ rows.map (·.1) := by
  rw [List.lookup_isSome_iff, List.mem_map]
  constructor
  · rintro ⟨row, hrow, hkey⟩
    exact ⟨row, hrow, (beq_iff_eq.mp hkey).symm⟩
  · rintro ⟨row, hrow, hkey⟩
    exact ⟨row, hrow, beq_iff_eq.mpr hkey.symm⟩

/-- A write keeps the keys, or adds its own at the end. -/
theorem keys_put (rows : List (κ × α)) (key : κ) (v : α) :
    (key ∈ rows.map (·.1) ∧ (put rows key v).map (·.1) = rows.map (·.1)) ∨
      (key ∉ rows.map (·.1) ∧ (put rows key v).map (·.1) = rows.map (·.1) ++ [key]) := by
  unfold put
  by_cases h : (rows.lookup key).isSome = true
  · refine .inl ⟨(lookup_isSome_iff_mem rows key).mp h, ?_⟩
    rw [if_pos h, List.map_map]
    apply List.map_congr_left
    intro row _
    show (if row.1 == key then (key, v) else row).1 = row.1
    by_cases hkey : row.1 = key
    · rw [if_pos (beq_iff_eq.mpr hkey), hkey]
    · rw [if_neg (by simpa using hkey)]
  · refine .inr ⟨fun hmem => h ((lookup_isSome_iff_mem rows key).mpr hmem), ?_⟩
    rw [if_neg h, List.map_append]
    rfl

theorem nodup_put {rows : List (κ × α)} (h : (rows.map (·.1)).Nodup) (key : κ) (v : α) :
    ((put rows key v).map (·.1)).Nodup := by
  rcases keys_put rows key v with ⟨-, hkeys⟩ | ⟨hkey, hkeys⟩
  · rw [hkeys]
    exact h
  · rw [hkeys, List.nodup_append]
    refine ⟨h, List.nodup_singleton key, ?_⟩
    intro k hk k' hk' heq
    rw [List.mem_singleton.mp hk'] at heq
    exact hkey (heq ▸ hk)

/-- Where no key is twice, an entry is found under its key. -/
theorem mem_iff_lookup {rows : List (κ × α)} (h : (rows.map (·.1)).Nodup) (key : κ) (v : α) :
    (key, v) ∈ rows ↔ rows.lookup key = some v := by
  induction rows with
  | nil => simp
  | cons row rows ih =>
    obtain ⟨k, w⟩ := row
    rw [List.map_cons, List.nodup_cons] at h
    rw [List.mem_cons]
    by_cases hk : key = k
    · subst hk
      rw [lookup_cons_self, Option.some_inj]
      constructor
      · rintro (heq | hmem)
        · exact (Prod.mk.inj heq).2.symm
        · exact absurd (List.mem_map_of_mem hmem) h.1
      · intro heq
        rw [heq]
        exact .inl rfl
    · rw [lookup_cons_ne rows w hk, ← ih h.2]
      constructor
      · rintro (heq | hmem)
        · exact absurd (Prod.mk.inj heq).1 hk
        · exact hmem
      · exact .inr

end Dict
