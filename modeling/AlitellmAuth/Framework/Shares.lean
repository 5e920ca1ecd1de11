import AlitellmAuth.Framework.Groups

/-! # Shares

    Figures of items, added up by key. A table of shares has one row for each
    key of some items, with what the items of this key add up to.

    * `sum_of`: what the items with a property add up to.
    * `sum_of_keys`: different keys have no item in common.
    * `IsShare`, `sum_shares`: the rows of some keys add up to the items of
      these keys, so that nothing is lost or counted twice.
    * `lookup_tally`: adding figures up in a dictionary.
-/

namespace Shares

variable {α M : Type} [AddCommMonoid M] (fig : α → M)

/-- What the items with a property add up to. -/
def sum_of (p : α → Bool) (items : List α) : M := ((items.filter p).map fig).sum

/-! ## Some of the items -/

@[simp] theorem sum_of_nil (p : α → Bool) : sum_of fig p [] = 0 := rfl

theorem sum_of_cons (p : α → Bool) (a : α) (items : List α) :
    sum_of fig p (a :: items) = (if p a then fig a else 0) + sum_of fig p items := by
  unfold sum_of
  by_cases h : p a = true
  · simp [h]
  · simp [h]

theorem sum_of_append (p : α → Bool) (items items' : List α) :
    sum_of fig p (items ++ items') = sum_of fig p items + sum_of fig p items' := by
  simp [sum_of]

variable {fig}

theorem sum_of_congr {p q : α → Bool} {items : List α} (h : ∀ a ∈ items, p a = q a) :
    sum_of fig p items = sum_of fig q items := by
  unfold sum_of
  rw [List.filter_congr h]

/-- The order of the items does not matter. -/
theorem sum_of_perm {items items' : List α} (h : items.Perm items') (p : α → Bool) :
    sum_of fig p items = sum_of fig p items' :=
  ((h.filter p).map fig).sum_eq

/-- All items of a list of lists. -/
theorem sum_of_flatten (p : α → Bool) (parts : List (List α)) :
    sum_of fig p parts.flatten = (parts.map (sum_of fig p)).sum := by
  induction parts with
  | nil => rfl
  | cons part parts ih => rw [List.flatten_cons, sum_of_append, ih, List.map_cons, List.sum_cons]

/-- Nothing adds up to nothing. -/
theorem sum_of_none {p : α → Bool} {items : List α} (h : ∀ a ∈ items, p a = false) :
    sum_of fig p items = 0 := by
  have hnil : items.filter p = [] := by
    apply List.filter_eq_nil_iff.mpr
    intro a ha hp
    rw [h a ha] at hp
    cases hp
  unfold sum_of
  rw [hnil]
  rfl

theorem sum_of_eq_sum (p : α → Bool) (items : List α) :
    sum_of fig p items = (items.map fun a => if p a then fig a else 0).sum := by
  induction items with
  | nil => rfl
  | cons a items ih => rw [sum_of_cons, ih, List.map_cons, List.sum_cons]

theorem sum_of_all {p : α → Bool} {items : List α} (h : ∀ a ∈ items, p a = true) :
    sum_of fig p items = (items.map fig).sum := by
  unfold sum_of
  rw [List.filter_eq_self.mpr h]

/-- A sum of figures is a figure of the sum, if the figure is additive. -/
theorem map_sum_of {N : Type} [AddCommMonoid N] (f : M → N) (hzero : f 0 = 0)
    (hadd : ∀ m m', f (m + m') = f m + f m') (p : α → Bool) (items : List α) :
    f (sum_of fig p items) = sum_of (fun a => f (fig a)) p items := by
  induction items with
  | nil => exact hzero
  | cons a items ih =>
    rw [sum_of_cons, sum_of_cons, hadd, ih]
    by_cases hp : p a = true
    · rw [if_pos hp, if_pos hp]
    · rw [if_neg hp, if_neg hp, hzero]

/-- Two properties that exclude each other. -/
theorem sum_of_or {p q : α → Bool} (items : List α) (h : ∀ a ∈ items, p a = true → q a = false) :
    sum_of fig (fun a => p a || q a) items = sum_of fig p items + sum_of fig q items := by
  induction items with
  | nil => simp
  | cons a items ih =>
    have hrest := ih fun a' ha' => h a' (List.mem_cons_of_mem _ ha')
    rw [sum_of_cons, sum_of_cons, sum_of_cons, hrest]
    by_cases hp : p a = true
    · rw [hp, h a List.mem_cons_self hp]
      simp [add_assoc]
    · simp [hp, add_left_comm]

/-- A property among the items of another one. -/
theorem sum_of_filter (p q : α → Bool) (items : List α) :
    sum_of fig p (items.filter q) = sum_of fig (fun a => q a && p a) items := by
  unfold sum_of
  rw [List.filter_filter]
  congr 2
  apply List.filter_congr
  intro a _
  exact Bool.and_comm _ _

section
variable {κ : Type} [DecidableEq κ] {key : α → Option κ}

/-- Different keys have no item in common. -/
theorem sum_of_keys {ks : List κ} (hnodup : ks.Nodup) (items : List α) :
    (ks.map fun k => sum_of fig (fun a => decide (key a = some k)) items).sum =
      sum_of fig (fun a => (key a).any (· ∈ ks)) items := by
  induction ks with
  | nil =>
    symm
    apply sum_of_none
    intro a _
    cases key a with
    | none => rfl
    | some k => rfl
  | cons k ks ih =>
    obtain ⟨hk, hnodup⟩ := List.nodup_cons.mp hnodup
    rw [List.map_cons, List.sum_cons, ih hnodup, ← sum_of_or]
    · apply sum_of_congr
      intro a _
      cases key a with
      | none => rfl
      | some k' => simp
    · intro a _ ha
      rw [decide_eq_true_iff.mp ha]
      simpa using hk

end

/-! ## A table of shares -/

/-- One row for each key of the items, with what the items of this key add up
    to. -/
structure IsShare (fig : α → M) (key : α → Option String) (items : List α)
    (rows : List (String × M)) : Prop where
  nodup : (rows.map (·.1)).Nodup
  keys : ∀ k, k ∈ rows.map (·.1) ↔ ∃ a ∈ items, key a = some k
  share : ∀ row ∈ rows, row.2 = sum_of fig (fun a => decide (key a = some row.1)) items

/-- The rows of some keys add up to the items of these keys. -/
theorem sum_shares {key : α → Option String} {items : List α} {rows : List (String × M)}
    (h : IsShare fig key items rows) (p : String → Bool) :
    sum_of (·.2) (fun row => p row.1) rows = sum_of fig (fun a => (key a).any p) items := by
  have hshares : (rows.filter fun row => p row.1).map (·.2) =
      ((rows.map (·.1)).filter p).map fun k => sum_of fig (fun a => decide (key a = some k)) items := by
    rw [List.filter_map, List.map_map]
    apply List.map_congr_left
    intro row hrow
    exact h.share row (List.mem_filter.mp hrow).1
  unfold sum_of at hshares ⊢
  rw [hshares]
  refine (sum_of_keys (h.nodup.filter p) items).trans (sum_of_congr fun a ha => ?_)
  cases hkey : key a with
  | none => rfl
  | some k =>
    have hmem : k ∈ rows.map (·.1) := (h.keys k).mpr ⟨a, ha, hkey⟩
    rw [Option.any_some, Option.any_some]
    by_cases hp : p k = true
    · rw [hp]
      exact decide_eq_true (List.mem_filter.mpr ⟨hmem, hp⟩)
    · rw [Bool.eq_false_iff.mpr hp]
      exact decide_eq_false fun hk => hp (List.mem_filter.mp hk).2

/-! ## Adding up in a dictionary -/

/-- A dictionary of sums. -/
theorem lookup_tally {β : Type} (key : β → String) (fig : β → M) (items : List β) (k : String) :
    (Groups.group key 0 (fun m b => m + fig b) items).lookup k =
      if ∃ b ∈ items, key b = k then some (sum_of fig (fun b => decide (key b = k)) items)
      else none := by
  have hsum : ∀ (bs : List β) (m : M), bs.foldl (fun m b => m + fig b) m = m + (bs.map fig).sum := by
    intro bs
    induction bs with
    | nil => simp
    | cons b bs ih =>
      intro m
      rw [List.foldl_cons, ih, List.map_cons, List.sum_cons, add_assoc]
  rw [Groups.lookup_group, hsum, zero_add]
  unfold sum_of Groups.itemsOf
  by_cases h : ∃ b ∈ items, key b = k
  · obtain ⟨b, hb, hk⟩ := h
    have hne : items.filter (fun b => decide (key b = k)) ≠ [] :=
      List.ne_nil_of_mem (List.mem_filter.mpr ⟨hb, decide_eq_true hk⟩)
    rw [if_neg hne, if_pos ⟨b, hb, hk⟩]
  · have hnil : items.filter (fun b => decide (key b = k)) = [] := by
      apply List.filter_eq_nil_iff.mpr
      intro b hb hk
      exact h ⟨b, hb, of_decide_eq_true hk⟩
    rw [if_pos hnil, if_neg h]

end Shares
