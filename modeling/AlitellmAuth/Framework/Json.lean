import AlitellmAuth.Framework.Table

/-! # JSON values

    Parsed JSON, with Python's truthiness and the dictionary operations of the
    modelled code. An object is the list of its fields in order; keys are
    distinct, as they are in a Python dictionary.
-/

/-- A parsed JSON value; numbers are exact. -/
inductive Json where
  | null
  | bool (b : Bool)
  | num (q : Rat)
  | str (s : String)
  | arr (items : List Json)
  | obj (fields : List (String × Json))

namespace Json

/-- Python's `bool(value)`. -/
def truthy : Json → Bool
  | .null => false
  | .bool b => b
  | .num q => q != 0
  | .str s => s != ""
  | .arr items => !items.isEmpty
  | .obj fields => !fields.isEmpty

/-- `value.get(key)` of a dictionary; `none` for a missing key and for a value
    that is not a dictionary. -/
def get? (key : String) : Json → Option Json
  | .obj fields => fields.lookup key
  | _ => none

/-- `value is None`. -/
def isNull : Json → Bool
  | .null => true
  | _ => false

/-- `fields[key] = value`: an old field keeps its place. -/
def set (fields : List (String × Json)) (key : String) (value : Json) : List (String × Json) :=
  if (fields.lookup key).isSome then
    fields.map fun field => if field.1 = key then (key, value) else field
  else fields ++ [(key, value)]

/-- `fields.update(other)`, and also `{**fields, **other}`. -/
def update (fields other : List (String × Json)) : List (String × Json) :=
  other.foldl (fun d field => set d field.1 field.2) fields

/-- Equality of values that can be dictionary keys: a Boolean equals the number
    it stands for. -/
def keyEq : Json → Json → Bool
  | .null, .null => true
  | .str a, .str b => a == b
  | .num a, .num b => a == b
  | .bool a, .bool b => a == b
  | .num a, .bool b => a == (if b then 1 else 0)
  | .bool a, .num b => b == (if a then 1 else 0)
  | _, _ => false

/-- Can the value be a dictionary key? -/
def hashable : Json → Bool
  | .arr _ => false
  | .obj _ => false
  | _ => true

/-- Is the value a dictionary? -/
def isObj : Json → Bool
  | .obj _ => true
  | _ => false

/-! ## Fields -/

theorem lookup_set (fields : List (String × Json)) (key key' : String) (value : Json) :
    (set fields key value).lookup key' = if key' = key then some value else fields.lookup key' :=
  Table.lookup_put fields key key' value

/-- The last field under a key counts. -/
theorem lookup_update (fields other : List (String × Json)) (key : String) :
    (update fields other).lookup key = (other.reverse.lookup key).or (fields.lookup key) :=
  Table.lookup_foldl_put fields other key

/-- Read from the end, the same field is set. -/
theorem lookup_reverse_set (fields : List (String × Json)) (key key' : String) (value : Json) :
    (set fields key value).reverse.lookup key' =
      if key' = key then some value else fields.reverse.lookup key' :=
  Table.lookup_reverse_put fields key key' value

end Json
