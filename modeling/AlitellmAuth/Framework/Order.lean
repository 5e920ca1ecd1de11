import Mathlib.Data.List.Lex
import Mathlib.Data.List.Sort
import Mathlib.Data.Rat.Defs
import Mathlib.Algebra.Order.Monoid.Unbundled.WithTop
import Mathlib.Algebra.Order.Ring.Rat
import AlitellmAuth.Framework.Json
import AlitellmAuth.Framework.PyText

/-! # Comparing loaded values

    Python's `==` and `<` on loaded JSON, and `list.sort` with such keys. Texts
    compare with texts, numbers with numbers and lists with lists; any other
    comparison raises a `TypeError`.

    * `PyValue.eq`, `PyValue.lt`: the two operators; `none` stands for the
      exception.
    * `sortDesc`: `sort(key=..., reverse=True)`, which raises if two keys cannot
      be compared.
    * `isChain_sortDesc`, `sortDesc_perm`: what it returns otherwise.
    * `Json.toPy`: a JSON value without surrogates, as it is loaded.
-/

/-- A float made of a JSON number: an infinity, if the number is too large.
    JSON has no NaN. -/
abbrev JsonFloat := WithBot (WithTop ℚ)

namespace PyValue

/-- The value of a number, a Boolean among them. -/
def number : PyValue JsonFloat → Option JsonFloat
  | .bool b => some ((if b then 1 else 0 : ℚ) : WithTop ℚ)
  | .int n => some ((n : ℚ) : WithTop ℚ)
  | .float x => some x
  | _ => none

/-! ## Equality -/

mutual

/-- Every number as a float, and the fields of a dictionary in the order of
    their keys. -/
def canon : PyValue JsonFloat → PyValue JsonFloat
  | .bool b => .float (if b then 1 else 0)
  | .int n => .float ((n : ℚ) : WithTop ℚ)
  | .arr items => .arr (canonItems items)
  | .obj fields => .obj ((canonFields fields).insertionSort fun a b => codes a.1 ≤ codes b.1)
  | value => value

def canonItems : List (PyValue JsonFloat) → List (PyValue JsonFloat)
  | [] => []
  | x :: xs => canon x :: canonItems xs

def canonFields : List (PyStr × PyValue JsonFloat) → List (PyStr × PyValue JsonFloat)
  | [] => []
  | (k, v) :: fs => (k, canon v) :: canonFields fs

end

mutual

/-- The same value, written the same way. -/
def same : PyValue JsonFloat → PyValue JsonFloat → Bool
  | .null, .null => true
  | .float a, .float b => a == b
  | .str a, .str b => a == b
  | .arr xs, .arr ys => sameItems xs ys
  | .obj fs, .obj gs => sameFields fs gs
  | _, _ => false

def sameItems : List (PyValue JsonFloat) → List (PyValue JsonFloat) → Bool
  | [], [] => true
  | x :: xs, y :: ys => same x y && sameItems xs ys
  | _, _ => false

def sameFields : List (PyStr × PyValue JsonFloat) → List (PyStr × PyValue JsonFloat) → Bool
  | [], [] => true
  | (k, v) :: fs, (k', v') :: gs => k == k' && (same v v' && sameFields fs gs)
  | _, _ => false

end

/-- `a == b`. -/
def eq (a b : PyValue JsonFloat) : Bool := same (canon a) (canon b)

mutual

theorem same_comm : ∀ a b : PyValue JsonFloat, same a b = same b a
  | .null, b => by cases b <;> rfl
  | .bool a, b => by cases b <;> rfl
  | .int a, b => by cases b <;> rfl
  | .float a, b => by cases b <;> first | rfl | exact BEq.comm
  | .str a, b => by cases b <;> first | rfl | exact BEq.comm
  | .arr xs, b => by
    cases b with
    | arr ys => exact sameItems_comm xs ys
    | null | bool | int | float | str | obj => rfl
  | .obj fs, b => by
    cases b with
    | obj gs => exact sameFields_comm fs gs
    | null | bool | int | float | str | arr => rfl

theorem sameItems_comm : ∀ xs ys : List (PyValue JsonFloat), sameItems xs ys = sameItems ys xs
  | [], ys => by cases ys <;> rfl
  | x :: xs, ys => by
    cases ys with
    | nil => rfl
    | cons y ys => rw [sameItems, sameItems, same_comm x y, sameItems_comm xs ys]

theorem sameFields_comm :
    ∀ fs gs : List (PyStr × PyValue JsonFloat), sameFields fs gs = sameFields gs fs
  | [], gs => by cases gs <;> rfl
  | (k, v) :: fs, gs => by
    cases gs with
    | nil => rfl
    | cons g gs =>
      obtain ⟨k', v'⟩ := g
      have hk : (k == k') = (k' == k) := BEq.comm
      rw [sameFields, sameFields, same_comm v v', sameFields_comm fs gs, hk]

end

theorem eq_comm (a b : PyValue JsonFloat) : eq a b = eq b a := same_comm _ _

/-! ## Order -/

/-- `a < b` for two numbers; any other comparison raises. -/
def ltNumber (a b : PyValue JsonFloat) : Option Bool :=
  match a.number, b.number with
  | some x, some y => some (decide (x < y))
  | _, _ => none

mutual

/-- `a < b`; `none` if the values cannot be compared. -/
def lt : PyValue JsonFloat → PyValue JsonFloat → Option Bool
  | .str a, .str b => some (decide (codes a < codes b))
  | .arr xs, .arr ys => ltItems xs ys
  | a, b => ltNumber a b

/-- Lists compare by the first items that differ. -/
def ltItems : List (PyValue JsonFloat) → List (PyValue JsonFloat) → Option Bool
  | [], ys => some !ys.isEmpty
  | _ :: _, [] => some false
  | x :: xs, y :: ys => if eq x y then ltItems xs ys else lt x y

end

/-- What `b < a` can be, given `a < b`. -/
def Asymm (ab ba : Option Bool) : Prop :=
  (ab = none ↔ ba = none) ∧ ¬ (ab = some true ∧ ba = some true)

theorem asymm_none : Asymm none none := ⟨Iff.rfl, by simp⟩

theorem asymm_decide {p q : Prop} [Decidable p] [Decidable q] (h : p → ¬ q) :
    Asymm (some (decide p)) (some (decide q)) :=
  ⟨by simp, by simpa using h⟩

theorem ltNumber_asymm (a b : PyValue JsonFloat) : Asymm (ltNumber a b) (ltNumber b a) := by
  unfold ltNumber
  cases a.number with
  | none => cases b.number <;> exact asymm_none
  | some x =>
    cases b.number with
    | none => exact asymm_none
    | some y => exact asymm_decide not_lt_of_gt

mutual

theorem lt_asymm : ∀ a b : PyValue JsonFloat, Asymm (lt a b) (lt b a)
  | .str a, b => by
    cases b with
    | str b => exact asymm_decide not_lt_of_gt
    | null | bool | int | float | arr | obj => simpa only [lt] using ltNumber_asymm _ _
  | .arr xs, b => by
    cases b with
    | arr ys => exact ltItems_asymm xs ys
    | null | bool | int | float | str | obj => simpa only [lt] using ltNumber_asymm _ _
  | .null, b => by cases b <;> simpa only [lt] using ltNumber_asymm _ _
  | .bool a, b => by cases b <;> simpa only [lt] using ltNumber_asymm _ _
  | .int a, b => by cases b <;> simpa only [lt] using ltNumber_asymm _ _
  | .float a, b => by cases b <;> simpa only [lt] using ltNumber_asymm _ _
  | .obj fs, b => by cases b <;> simpa only [lt] using ltNumber_asymm _ _

theorem ltItems_asymm : ∀ xs ys : List (PyValue JsonFloat), Asymm (ltItems xs ys) (ltItems ys xs)
  | [], ys => by
    cases ys with
    | nil => exact ⟨by decide, by decide⟩
    | cons y ys => exact ⟨by simp [ltItems], by simp [ltItems]⟩
  | x :: xs, ys => by
    cases ys with
    | nil => exact ⟨by simp [ltItems], by simp [ltItems]⟩
    | cons y ys =>
      rw [ltItems, ltItems, eq_comm y x]
      split
      · exact ltItems_asymm xs ys
      · exact lt_asymm x y

end

/-! ## Sorting -/

section
variable {α : Type} (key : α → PyValue JsonFloat)

/-- May `a` stand before `b`, largest first? -/
def NotBelow (a b : α) : Prop := lt (key a) (key b) ≠ some true

instance (a b : α) : Decidable (NotBelow key a b) := inferInstanceAs (Decidable (_ ≠ _))

/-- Can the keys be compared? -/
def Comparable (a b : α) : Prop := lt (key a) (key b) ≠ none

instance (a b : α) : Decidable (Comparable key a b) := inferInstanceAs (Decidable (_ ≠ _))

/-- `rows.sort(key=key, reverse=True)`. A sort compares every two neighbours of
    its result, so it raises exactly if two of the keys cannot be compared. -/
def sortDesc (rows : List α) : Option (List α) :=
  if rows.Pairwise (Comparable key) then some (rows.insertionSort (NotBelow key)) else none

theorem notBelow_total (a b : α) : NotBelow key a b ∨ NotBelow key b a := by
  by_contra h
  rw [not_or] at h
  exact (lt_asymm (key a) (key b)).2 ⟨not_not.mp h.1, not_not.mp h.2⟩

/-- Inserting keeps neighbours in order. Only totality is used, as `<` need not
    be transitive on values of several kinds. -/
theorem isChain_orderedInsert (a : α) {l : List α} (h : l.IsChain (NotBelow key)) :
    (l.orderedInsert (NotBelow key) a).IsChain (NotBelow key) := by
  induction l with
  | nil => exact .singleton a
  | cons b l ih =>
    rw [List.orderedInsert_cons]
    split
    · next hab => exact .cons_cons hab h
    · next hab =>
      have hba := (notBelow_total key a b).resolve_left hab
      have htail := ih h.of_cons
      cases l with
      | nil => exact .cons_cons hba (.singleton a)
      | cons c l =>
        rw [List.orderedInsert_cons] at htail ⊢
        split
        · next hac =>
          rw [if_pos hac] at htail
          exact .cons_cons hba htail
        · next hac =>
          rw [if_neg hac] at htail
          exact .cons_cons (List.isChain_cons_cons.mp h).1 htail

theorem isChain_insertionSort (l : List α) :
    (l.insertionSort (NotBelow key)).IsChain (NotBelow key) := by
  induction l with
  | nil => exact .nil
  | cons a l ih => exact isChain_orderedInsert key a ih

variable {key} {rows out : List α}

theorem isChain_sortDesc (h : sortDesc key rows = some out) : out.IsChain (NotBelow key) := by
  unfold sortDesc at h
  split at h
  · cases h
    exact isChain_insertionSort key rows
  · cases h

theorem sortDesc_perm (h : sortDesc key rows = some out) : out.Perm rows := by
  unfold sortDesc at h
  split at h
  · cases h
    exact List.perm_insertionSort _ _
  · cases h

theorem sortDesc_map {β : Type} {key' : β → PyValue JsonFloat} {f : α → β}
    (hkey : ∀ a, key' (f a) = key a) (rows : List α) :
    sortDesc key' (rows.map f) = (sortDesc key rows).map (List.map f) := by
  have hcompare : (rows.map f).Pairwise (Comparable key') ↔ rows.Pairwise (Comparable key) := by
    rw [List.pairwise_map]
    unfold Comparable
    simp only [hkey]
  unfold sortDesc
  by_cases hpair : rows.Pairwise (Comparable key)
  · rw [if_pos hpair, if_pos (hcompare.mpr hpair), Option.map_some]
    congr 1
    refine (List.map_insertionSort _ _ f rows fun a _ b _ => ?_).symm
    unfold NotBelow
    rw [hkey, hkey]
  · rw [if_neg hpair, if_neg (mt hcompare.mp hpair), Option.map_none]

end

end PyValue

/-! ## JSON values -/

namespace Json

mutual

/-- A JSON value, as it is loaded. -/
def toPy : Json → PyValue JsonFloat
  | .null => .null
  | .bool b => .bool b
  | .num q => .float (q : WithTop ℚ)
  | .str s => PyValue.text s
  | .arr items => .arr (toPyItems items)
  | .obj fields => .obj (toPyFields fields)

def toPyItems : List Json → List (PyValue JsonFloat)
  | [] => []
  | x :: xs => toPy x :: toPyItems xs

def toPyFields : List (String × Json) → List (PyStr × PyValue JsonFloat)
  | [] => []
  | (k, v) :: fs => (lit k, toPy v) :: toPyFields fs

end

theorem lookup_toPyFields (fields : List (String × Json)) (key : String) :
    (toPyFields fields).lookup (lit key) = (fields.lookup key).map toPy := by
  induction fields with
  | nil => rfl
  | cons field fields ih =>
    obtain ⟨key', value⟩ := field
    rw [toPyFields, List.lookup_cons, List.lookup_cons, ih]
    by_cases hkey : key = key'
    · simp [hkey]
    · have hlit : (lit key == lit key') = false := by
        rw [beq_eq_false_iff_ne]
        exact fun h => hkey (lit_injective h)
      rw [hlit, beq_eq_false_iff_ne.mpr hkey]

section
variable {α : Type} (key : α → Json)

/-- May `a` stand before `b`, largest first? -/
def NotBelow (a b : α) : Prop := PyValue.lt (key a).toPy (key b).toPy ≠ some true

instance (a b : α) : Decidable (NotBelow key a b) := inferInstanceAs (Decidable (_ ≠ _))

/-- Can the keys be compared? -/
def Comparable (a b : α) : Prop := PyValue.lt (key a).toPy (key b).toPy ≠ none

instance (a b : α) : Decidable (Comparable key a b) := inferInstanceAs (Decidable (_ ≠ _))

/-- `rows.sort(key=key, reverse=True)`. -/
def sortDesc (rows : List α) : Option (List α) :=
  if rows.Pairwise (Comparable key) then some (rows.insertionSort (NotBelow key)) else none

variable {key} {rows out : List α}

theorem sortDesc_perm (h : sortDesc key rows = some out) : out.Perm rows :=
  @PyValue.sortDesc_perm _ (fun row => (key row).toPy) _ _ h

end

end Json
