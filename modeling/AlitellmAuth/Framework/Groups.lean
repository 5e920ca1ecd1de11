import Mathlib.Algebra.GroupWithZero.Nat
import Mathlib.Algebra.BigOperators.Group.List.Basic
import Mathlib.Data.List.Induction
import Mathlib.Data.List.Nodup
import Mathlib.Data.List.Perm.Basic
import AlitellmAuth.Framework.Table

/-! # Groups

    Items folded by key: `d[key] = step(d.get(key, init), item)` for one item
    after the other. A group is what its own items fold to.

    * `lookup_group`: the group of a key.
    * `mem_group_iff`: the groups, each under one key.
    * `keys_pairwise`: they stand in the order in which their keys were met.
    * `sum_group`: a figure that goes up by one with each item adds up to the
      number of items.
    * `group_perm`: in another order of the items, the same groups.
-/

namespace Groups

variable {K α β : Type} [DecidableEq K] (key : α → K) (init : β) (step : β → α → β)

/-- Add an item to the group of its key. -/
def add (groups : List (K × β)) (a : α) : List (K × β) :=
  Table.put groups (key a) (step ((groups.lookup (key a)).getD init) a)

/-- The groups of some items. -/
def group (items : List α) : List (K × β) := items.foldl (add key init step) []

/-- The items of a key. -/
def itemsOf (items : List α) (k : K) : List α := items.filter (key · = k)

variable {key init step}

/-! ## One item -/

theorem lookup_add (groups : List (K × β)) (a : α) (k : K) :
    (add key init step groups a).lookup k =
      if k = key a then some (step ((groups.lookup k).getD init) a) else groups.lookup k := by
  unfold add
  rw [Table.lookup_put]
  by_cases h : k = key a
  · rw [if_pos h, if_pos h, h]
  · rw [if_neg h, if_neg h]

/-- Every key has one group. -/
theorem keys_put_nodup {groups : List (K × β)} (h : (groups.map (·.1)).Nodup) (k : K)
    (b : β) : ((Table.put groups k b).map (·.1)).Nodup := by
  by_cases hsome : (groups.lookup k).isSome = true
  · rw [Table.keys_put hsome]
    exact h
  · unfold Table.put
    rw [if_neg hsome, List.map_append, List.nodup_append]
    refine ⟨h, by simp, ?_⟩
    intro k' hk' k'' hk'' heq
    have hk : k' = k := heq.trans (List.mem_singleton.mp hk'')
    obtain ⟨row, hrow, hkey⟩ := List.mem_map.mp hk'
    apply hsome
    rw [List.lookup_isSome_iff]
    exact ⟨row, hrow, by rw [hkey, hk, beq_self_eq_true]⟩

/-- A figure of the groups, with one group changed. -/
theorem sum_put {groups : List (K × β)} (h : (groups.map (·.1)).Nodup) (figure : β → Nat)
    (hinit : figure init = 0) (k : K) (b : β) :
    ((Table.put groups k b).map fun row => figure row.2).sum +
        figure ((groups.lookup k).getD init) =
      (groups.map fun row => figure row.2).sum + figure b := by
  induction groups with
  | nil => simp [Table.put, hinit]
  | cons row groups ih =>
    obtain ⟨k', b'⟩ := row
    obtain ⟨hnot, hnodup⟩ := List.nodup_cons.mp h
    have hrest := ih hnodup
    by_cases hk : k = k'
    · subst hk
      -- the group is the first one, and no other has its key
      have hkeep : (groups.map fun row => if row.1 = k then (k, b) else row) = groups := by
        conv_rhs => rw [← List.map_id groups]
        apply List.map_congr_left
        intro row hrow
        have hne : row.1 ≠ k := by
          intro heq
          exact hnot (List.mem_map.mpr ⟨row, hrow, heq⟩)
        rw [if_neg hne]
        rfl
      have hput : Table.put ((k, b') :: groups) k b = (k, b) :: groups := by
        unfold Table.put
        simp [hkeep]
      rw [hput]
      simp
      omega
    · have hlookup : ((k', b') :: groups).lookup k = groups.lookup k :=
        Table.lookup_cons_ne groups b' hk
      have hput : Table.put ((k', b') :: groups) k b = (k', b') :: Table.put groups k b := by
        unfold Table.put
        rw [hlookup]
        by_cases hsome : (groups.lookup k).isSome = true
        · simp [hsome, Ne.symm hk]
        · simp [hsome]
      rw [hput, hlookup]
      simp only [List.map_cons, List.sum_cons]
      omega

/-! ## All items -/

theorem group_append (items : List α) (a : α) :
    group key init step (items ++ [a]) = add key init step (group key init step items) a := by
  unfold group
  rw [List.foldl_append]
  rfl

/-- The group of a key is what its items fold to. -/
theorem lookup_group (items : List α) (k : K) :
    (group key init step items).lookup k =
      if itemsOf key items k = [] then none else some ((itemsOf key items k).foldl step init) := by
  induction items using List.reverseRecOn with
  | nil => rfl
  | append_singleton items a ih =>
    have hitems : itemsOf key (items ++ [a]) k =
        itemsOf key items k ++ if key a = k then [a] else [] := by
      unfold itemsOf
      rw [List.filter_append]
      by_cases h : key a = k
      · simp [h]
      · simp [h]
    rw [group_append, lookup_add, ih, hitems]
    by_cases hkey : key a = k
    · rw [if_pos hkey.symm, if_pos hkey]
      by_cases hnone : itemsOf key items k = []
      · simp [hnone]
      · simp [hnone]
    · rw [if_neg (Ne.symm hkey), if_neg hkey, List.append_nil]

theorem group_nodup (items : List α) : ((group key init step items).map (·.1)).Nodup := by
  induction items using List.reverseRecOn with
  | nil => exact List.nodup_nil
  | append_singleton items a ih =>
    rw [group_append]
    exact keys_put_nodup ih _ _

/-- A row of a table with distinct keys is what is found under its key. -/
theorem mem_iff_lookup {groups : List (K × β)} (h : (groups.map (·.1)).Nodup) (k : K)
    (b : β) : (k, b) ∈ groups ↔ groups.lookup k = some b := by
  induction groups with
  | nil => simp
  | cons row groups ih =>
    obtain ⟨k', b'⟩ := row
    obtain ⟨hnot, hnodup⟩ := List.nodup_cons.mp h
    rw [List.mem_cons, ih hnodup]
    by_cases hk : k = k'
    · subst hk
      have hnone : groups.lookup k ≠ some b := by
        intro hsome
        have hmem := (ih hnodup).mpr hsome
        exact hnot (List.mem_map.mpr ⟨_, hmem, rfl⟩)
      simp [hnone, eq_comm]
    · rw [Table.lookup_cons_ne groups b' hk]
      simp [hk]

theorem mem_group_iff (items : List α) (k : K) (b : β) :
    (k, b) ∈ group key init step items ↔
      itemsOf key items k ≠ [] ∧ b = (itemsOf key items k).foldl step init := by
  rw [mem_iff_lookup (group_nodup items), lookup_group]
  by_cases hnone : itemsOf key items k = []
  · simp [hnone]
  · simp [hnone, eq_comm]

/-- The keys of the groups are those of the items. -/
theorem mem_keys_iff (items : List α) (k : K) :
    k ∈ (group key init step items).map (·.1) ↔ k ∈ items.map key := by
  constructor
  · intro h
    obtain ⟨⟨k, b⟩, hb, rfl⟩ := List.mem_map.mp h
    obtain ⟨a, ha⟩ := List.exists_mem_of_ne_nil _ ((mem_group_iff items k b).mp hb).1
    obtain ⟨hmem, hkey⟩ := List.mem_filter.mp ha
    exact List.mem_map.mpr ⟨a, hmem, of_decide_eq_true hkey⟩
  · intro h
    obtain ⟨a, ha, rfl⟩ := List.mem_map.mp h
    refine List.mem_map.mpr ⟨(key a, _), (mem_group_iff items _ _).mpr ⟨?_, rfl⟩, rfl⟩
    exact List.ne_nil_of_mem (List.mem_filter.mpr ⟨ha, by simp⟩)

/-- A group stands behind those whose keys were met before. -/
theorem keys_pairwise (items : List α) :
    ((group key init step items).map (·.1)).Pairwise fun j k =>
      items.findIdx (fun a => key a = j) < items.findIdx (fun a => key a = k) := by
  induction items using List.reverseRecOn with
  | nil => exact List.Pairwise.nil
  | append_singleton items a ih =>
    -- an item at the end leaves the places of the keys before it
    have hplace {k : K} (hk : k ∈ (group key init step items).map (·.1)) :
        (items ++ [a]).findIdx (fun a => key a = k) = items.findIdx (fun a => key a = k) ∧
          items.findIdx (fun a => key a = k) < items.length := by
      obtain ⟨b, hb, hkey⟩ := List.mem_map.mp ((mem_keys_iff items k).mp hk)
      have hlt : items.findIdx (fun a => key a = k) < items.length :=
        List.findIdx_lt_length_of_exists ⟨b, hb, by simp [hkey]⟩
      rw [List.findIdx_append, if_pos hlt]
      exact ⟨rfl, hlt⟩
    have hold : ((group key init step items).map (·.1)).Pairwise fun j k =>
        (items ++ [a]).findIdx (fun a => key a = j) < (items ++ [a]).findIdx (fun a => key a = k) := by
      refine ih.imp_of_mem fun {j k} hj hk hlt => ?_
      rw [(hplace hj).1, (hplace hk).1]
      exact hlt
    rw [group_append, add]
    by_cases hsome : ((group key init step items).lookup (key a)).isSome = true
    · rw [Table.keys_put hsome]
      exact hold
    · unfold Table.put
      rw [if_neg hsome, List.map_append, List.pairwise_append]
      refine ⟨hold, List.pairwise_singleton _ _, ?_⟩
      intro j hj k hk
      obtain rfl : k = key a := List.mem_singleton.mp hk
      have hnew : ¬ items.findIdx (fun b => key b = key a) < items.length := by
        intro hlt
        apply hsome
        obtain ⟨b, hb, hkey⟩ := List.findIdx_lt_length.mp hlt
        have hmem := (@mem_keys_iff _ _ _ _ _ init step items (key a)).mpr
          (List.mem_map.mpr ⟨b, hb, by simpa using hkey⟩)
        obtain ⟨row, hrow, heq⟩ := List.mem_map.mp hmem
        rw [List.lookup_isSome_iff]
        exact ⟨row, hrow, by rw [heq, beq_self_eq_true]⟩
      obtain ⟨hsame, hlt⟩ := hplace hj
      rw [hsame, List.findIdx_append, if_neg hnew]
      omega

theorem itemsOf_length (items : List α) (k : K) :
    (itemsOf key items k).length = items.countP fun a => key a = k := by
  rw [itemsOf, List.countP_eq_length_filter]

/-- Counted in its group, every item is counted once. -/
theorem sum_group (figure : β → Nat) (hinit : figure init = 0)
    (hstep : ∀ b a, figure (step b a) = figure b + 1) (items : List α) :
    ((group key init step items).map fun row => figure row.2).sum = items.length := by
  induction items using List.reverseRecOn with
  | nil => rfl
  | append_singleton items a ih =>
    have hnodup : ((group key init step items).map (·.1)).Nodup := group_nodup items
    have hsum := sum_put hnodup figure hinit (key a)
      (step (((group key init step items).lookup (key a)).getD init) a)
    rw [hstep, ih] at hsum
    rw [group_append, List.length_append]
    unfold add
    simp only [List.length_singleton]
    omega

/-- In another order of the items there are the same groups, if a figure of a
    group does not depend on the order of its items. -/
theorem group_perm {γ : Type} (figure : β → γ) {items items' : List α} (h : items.Perm items')
    (hfigure : ∀ k, figure ((itemsOf key items k).foldl step init) =
      figure ((itemsOf key items' k).foldl step init)) :
    ((group key init step items).map fun row => (row.1, figure row.2)).Perm
      ((group key init step items').map fun row => (row.1, figure row.2)) := by
  -- both sides name every key once, so having the same rows is enough
  have hkeys (items : List α) :
      ((group key init step items).map fun row => (row.1, figure row.2)).Nodup := by
    apply List.Nodup.of_map (·.1)
    rw [List.map_map]
    exact group_nodup items
  have hmem (items items' : List α) (hperm : items.Perm items')
      (hfigure : ∀ k, figure ((itemsOf key items k).foldl step init) =
        figure ((itemsOf key items' k).foldl step init)) (row : K × γ)
      (hrow : row ∈ (group key init step items).map fun row => (row.1, figure row.2)) :
      row ∈ (group key init step items').map fun row => (row.1, figure row.2) := by
    obtain ⟨⟨k, b⟩, hb, rfl⟩ := List.mem_map.mp hrow
    obtain ⟨hne, rfl⟩ := (mem_group_iff items k b).mp hb
    -- a key that some item has, some item of the permutation has
    have hne' : itemsOf key items' k ≠ [] := by
      intro hnil
      have hlength := (hperm.filter (key · = k)).length_eq
      unfold itemsOf at hne hnil
      rw [hnil] at hlength
      exact hne (List.length_eq_zero_iff.mp hlength)
    refine List.mem_map.mpr ⟨(k, _), (mem_group_iff items' k _).mpr ⟨hne', rfl⟩, ?_⟩
    rw [hfigure k]
  rw [List.perm_ext_iff_of_nodup (hkeys items) (hkeys items')]
  intro row
  constructor
  · exact hmem items items' h hfigure row
  · exact hmem items' items h.symm (fun k => (hfigure k).symm) row

end Groups
