import AlitellmAuth.Framework.PyText

/-! # Views of a loaded value

    An allow-list is a tree of keys; the view of a value keeps what the list
    names and nothing else of a dictionary.
-/

namespace PyValue

/-- What is kept of a value: all of it, the same part of each item, the same part
    under each key, or some keys, each with what is kept under it. -/
inductive Shape where
  | whole
  | each (item : Shape)
  | entries (part : Shape)
  | only (fields : List (String × Shape))

variable {F : Type}

mutual

/-- What a shape keeps of a value; a value of another kind is kept. -/
def view : Shape → PyValue F → PyValue F
  | .whole, value => value
  | .each item, .arr items => .arr (items.map (view item))
  | .each _, value => value
  | .entries part, .obj fields => .obj (fields.map fun field => (field.1, view part field.2))
  | .entries _, value => value
  | .only shape, .obj fields => .obj (viewFields shape fields)
  | .only _, value => value

/-- The fields of a dictionary that are kept. -/
def viewFields : List (String × Shape) → List (PyStr × PyValue F) → List (PyStr × PyValue F)
  | [], _ => []
  | (key, part) :: shape, fields =>
      match fields.lookup (lit key) with
      | some value => (lit key, view part value) :: viewFields shape fields
      | none => viewFields shape fields

end

@[simp] theorem view_whole (value : PyValue F) : view .whole value = value := by rw [view]

theorem view_each_arr (item : Shape) (items : List (PyValue F)) :
    view (.each item) (.arr items) = .arr (items.map (view item)) := by
  rw [view]

theorem view_entries_obj (part : Shape) (fields : List (PyStr × PyValue F)) :
    view (.entries part) (.obj fields) =
      .obj (fields.map fun field => (field.1, view part field.2)) := by
  rw [view]

theorem view_only_obj (shape : List (String × Shape)) (fields : List (PyStr × PyValue F)) :
    view (.only shape) (.obj fields) = .obj (viewFields shape fields) := by
  rw [view]

/-- Nothing is nothing in each view. -/
theorem view_null (shape : Shape) : view shape (.null : PyValue F) = .null := by
  cases shape with
  | whole => rw [view]
  | each item => rw [view]; simp
  | entries part => rw [view]; simp
  | only fields => rw [view]; simp

theorem lit_beq_ne {key key' : String} (h : key ≠ key') : (lit key == lit key') = false := by
  rw [beq_eq_false_iff_ne]
  exact fun heq => h (lit_injective heq)

/-- The keys of the source differ as they do there. -/
theorem lookup_lit_cons (key key' : String) (value : PyValue F)
    (fields : List (PyStr × PyValue F)) :
    ((lit key', value) :: fields).lookup (lit key) =
      if key = key' then some value else fields.lookup (lit key) := by
  rw [List.lookup_cons]
  by_cases hkey : key = key'
  · simp [hkey]
  · rw [lit_beq_ne hkey, if_neg hkey]

/-- A dictionary of the source is read by its own keys. -/
theorem lookup_lit (fields : List (String × PyValue F)) (key : String) :
    (fields.map fun field => (lit field.1, field.2)).lookup (lit key) = fields.lookup key := by
  induction fields with
  | nil => rfl
  | cons field fields ih =>
    rw [List.map_cons, lookup_lit_cons, List.lookup_cons, ih]
    by_cases hkey : key = field.1
    · simp [hkey]
    · rw [if_neg hkey, beq_eq_false_iff_ne.mpr hkey]

theorem get_lit (fields : List (String × PyValue F)) (key : String) :
    get (fields.map fun field => (lit field.1, field.2)) key = (fields.lookup key).getD .null := by
  rw [get, lookup_lit]

/-- Dictionaries that are seen alike under each key of the list are seen alike. -/
theorem viewFields_congr {shape : List (String × Shape)} {fields fields' : List (PyStr × PyValue F)}
    (h : ∀ entry ∈ shape, (fields.lookup (lit entry.1)).map (view entry.2) =
      (fields'.lookup (lit entry.1)).map (view entry.2)) :
    viewFields shape fields = viewFields shape fields' := by
  induction shape with
  | nil => rw [viewFields, viewFields]
  | cons entry shape ih =>
    obtain ⟨key, part⟩ := entry
    rw [List.forall_mem_cons] at h
    obtain ⟨hkey, hrest⟩ := h
    rw [viewFields, viewFields, ih hrest]
    -- a key that one of them lacks, the other lacks too
    cases hvalue : fields.lookup (lit key) with
    | none =>
      cases hvalue' : fields'.lookup (lit key) with
      | none => rfl
      | some value' =>
        rw [hvalue, hvalue'] at hkey
        cases hkey
    | some value =>
      cases hvalue' : fields'.lookup (lit key) with
      | none =>
        rw [hvalue, hvalue'] at hkey
        cases hkey
      | some value' =>
        rw [hvalue, hvalue'] at hkey
        show (lit key, view part value) :: _ = (lit key, view part value') :: _
        rw [Option.some.inj hkey]

/-- A view has no new keys. -/
theorem lookup_viewFields_none (shape : List (String × Shape)) {key : String}
    {fields : List (PyStr × PyValue F)} (h : fields.lookup (lit key) = none) :
    (viewFields shape fields).lookup (lit key) = none := by
  induction shape with
  | nil => rw [viewFields, List.lookup_nil]
  | cons entry shape ih =>
    obtain ⟨key', part⟩ := entry
    rw [viewFields]
    by_cases hkey : key = key'
    · rw [← hkey, h]
      exact ih
    · split
      · rw [List.lookup_cons, lit_beq_ne hkey]
        exact ih
      · exact ih

/-- A key of the allow-list is read in the view as in the value. -/
theorem get_viewFields {shape : List (String × Shape)} {key : String} {part : Shape}
    (h : shape.lookup key = some part) (fields : List (PyStr × PyValue F)) :
    get (viewFields shape fields) key = view part (get fields key) := by
  induction shape with
  | nil => simp at h
  | cons entry shape ih =>
    obtain ⟨key', part'⟩ := entry
    rw [List.lookup_cons] at h
    -- the first entry of the shape for a key decides
    by_cases hkey : key = key'
    · subst hkey
      rw [beq_self_eq_true] at h
      have hpart : part' = part := Option.some.inj h
      subst hpart
      cases hvalue : fields.lookup (lit key) with
      | some value =>
        rw [viewFields, hvalue]
        simp [get, hvalue]
      | none =>
        rw [viewFields, hvalue]
        show get (viewFields shape fields) key = _
        rw [get, get, hvalue, lookup_viewFields_none shape hvalue, Option.getD_none, view_null]
    · rw [beq_eq_false_iff_ne.mpr hkey] at h
      rw [viewFields]
      split
      · rw [← ih h, get, get, List.lookup_cons, lit_beq_ne hkey]
      · exact ih h

/-- A key that is kept wholly. -/
theorem get_viewFields_whole {shape : List (String × Shape)} {key : String}
    (h : shape.lookup key = some .whole) (fields : List (PyStr × PyValue F)) :
    get (viewFields shape fields) key = get fields key := by
  rw [get_viewFields h, view_whole]

/-! ## Flat lists -/

/-- Keys that are kept with all that is under them. -/
def wholly (keys : List String) : List (String × Shape) := keys.map fun key => (key, .whole)

theorem lookup_wholly {keys : List String} {key : String} (h : key ∈ keys) :
    (wholly keys).lookup key = some .whole := by
  induction keys with
  | nil => simp at h
  | cons key' keys ih =>
    rw [wholly, List.map_cons, List.lookup_cons]
    by_cases hkey : key = key'
    · rw [hkey, beq_self_eq_true]
    · rw [beq_eq_false_iff_ne.mpr hkey]
      exact ih ((List.mem_cons.mp h).resolve_left hkey)

/-- Keys that are kept wholly, whatever is kept besides. -/
theorem get_wholly_append {keys : List String} {key : String} (h : key ∈ keys)
    (shape : List (String × Shape)) (fields : List (PyStr × PyValue F)) :
    get (viewFields (wholly keys ++ shape) fields) key = get fields key := by
  apply get_viewFields_whole
  rw [List.lookup_append, lookup_wholly h, Option.some_or]

theorem get_wholly {keys : List String} {key : String} (h : key ∈ keys)
    (fields : List (PyStr × PyValue F)) : get (viewFields (wholly keys) fields) key = get fields key := by
  exact get_viewFields_whole (lookup_wholly h) fields

end PyValue
