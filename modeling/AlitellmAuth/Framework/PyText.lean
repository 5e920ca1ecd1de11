import Mathlib.Data.List.Forall2

/-! # Texts of Python

    A text is a sequence of code points, and `json.loads` makes surrogates of
    `\ud800`: such a text can be printed with `repr`, but not encoded.

    * `CodePoint`, `PyStr`, `encodes`.
    * `PyValue`: a loaded value, its texts taken as they are.
    * `PyValue.repr`, `PyValue.dumps`: written with `repr` and with `json.dumps`.
    * `renderable`: a JSON response can be made of the value.
-/

/-- A code point: a character, or half of a pair. -/
inductive CodePoint where
  | char (c : Char)
  | surrogate (n : Fin 2048)
  deriving DecidableEq

/-- A text. -/
abbrev PyStr := List CodePoint

/-- A text of characters. -/
def chars (s : List Char) : PyStr := s.map .char

def lit (s : String) : PyStr := chars s.toList

def CodePoint.isChar : CodePoint → Bool
  | .char _ => true
  | .surrogate _ => false

/-- `text.encode()` does not raise. -/
def encodes (s : PyStr) : Bool := s.all CodePoint.isChar

@[simp] theorem encodes_chars (s : List Char) : encodes (chars s) = true := by
  rw [encodes, chars, List.all_map]
  exact List.all_eq_true.mpr fun _ _ => rfl

@[simp] theorem encodes_lit (s : String) : encodes (lit s) = true := encodes_chars s.toList

@[simp] theorem encodes_append (s t : PyStr) : encodes (s ++ t) = (encodes s && encodes t) :=
  List.all_append

theorem lit_injective {s t : String} (h : lit s = lit t) : s = t := by
  have hinj : ∀ xs ys : List Char, chars xs = chars ys → xs = ys := fun xs ys hxy =>
    (List.map_injective_iff.mpr fun _ _ hc => CodePoint.char.inj hc) hxy
  exact String.toList_injective (hinj _ _ h)

/-- The number of a code point. -/
def CodePoint.number : CodePoint → Nat
  | .char c => c.toNat
  | .surrogate n => 0xD800 + n.val

/-- A text as its code points; texts are compared so. -/
def codes (s : PyStr) : List Nat := s.map CodePoint.number

/-- The characters of a text, if it has no surrogates. -/
def toChars (s : PyStr) : Option (List Char) :=
  s.mapM fun
    | .char c => some c
    | .surrogate _ => none

theorem toChars_cons (p : CodePoint) (s : PyStr) : toChars (p :: s) =
    match p, toChars s with
    | .char c, some cs => some (c :: cs)
    | _, _ => none := by
  unfold toChars
  rw [List.mapM_cons]
  cases p with
  | surrogate n => rfl
  | char c =>
    cases (s.mapM fun | .char c => some c | .surrogate _ => none : Option (List Char)) with
    | none => rfl
    | some cs => rfl

theorem toChars_eq_some {s : PyStr} {cs : List Char} : toChars s = some cs ↔ s = chars cs := by
  induction s generalizing cs with
  | nil =>
    constructor
    · intro h
      cases h
      rfl
    · intro h
      cases cs with
      | nil => rfl
      | cons c cs => cases h
  | cons p s ih =>
    rw [toChars_cons]
    cases p with
    | surrogate n =>
      -- no character is a surrogate
      refine iff_of_false ?_ ?_
      · intro h
        cases h
      · intro h
        cases cs <;> cases h
    | char c =>
      constructor
      · intro h
        cases hs : toChars s with
        | none =>
          rw [hs] at h
          cases h
        | some rest =>
          rw [hs] at h
          cases h
          rw [ih.mp hs]
          rfl
      · intro h
        cases cs with
        | nil => cases h
        | cons d rest =>
          obtain ⟨hhead, htail⟩ := List.cons.inj h
          cases hhead
          rw [ih.mpr htail]

/-- A text can be encoded if it has no surrogates. -/
theorem encodes_iff (s : PyStr) : encodes s = true ↔ ∃ cs, toChars s = some cs := by
  constructor
  · intro h
    induction s with
    | nil => exact ⟨[], rfl⟩
    | cons p s ih =>
      rw [encodes, List.all_cons, Bool.and_eq_true] at h
      obtain ⟨cs, hcs⟩ := ih h.2
      cases p with
      | char c => exact ⟨c :: cs, by rw [toChars_cons, hcs]⟩
      | surrogate n => cases h.1
  · rintro ⟨cs, hcs⟩
    rw [toChars_eq_some.mp hcs]
    exact encodes_chars cs

/-- `text.replace(c, new)`. -/
def replaceChar (c : Char) (new : PyStr) (s : PyStr) : PyStr :=
  s.flatMap fun p => if p = .char c then new else [p]

/-- The exceptions of the modelled code that nothing catches. -/
inductive PyError where
  | attribute
  | type
  | overflow
  | zeroDivision
  | value
  deriving DecidableEq

/-! ## Values -/

/-- A loaded JSON value: whole numbers, which have no bound, and floats are
    different values, and so are Booleans. -/
inductive PyValue (F : Type) where
  | null
  | bool (b : Bool)
  | int (n : Int)
  | float (x : F)
  | str (s : PyStr)
  | arr (items : List (PyValue F))
  | obj (fields : List (PyStr × PyValue F))

/-- What Python knows of floats and of characters. -/
structure Printing (F : Type) where
  isZero : F → Bool
  isFinite : F → Bool
  /-- `repr(x)`. -/
  repr : F → String
  /-- `json.dumps(x)`. -/
  dumps : F → String
  /-- `c.isprintable()`. -/
  printable : Char → Bool

namespace PyValue

variable {F : Type}

/-! ## Reading -/

def text (s : String) : PyValue F := .str (lit s)

/-- A dictionary with the keys of the source. -/
def dict (fields : List (String × PyValue F)) : PyValue F :=
  .obj (fields.map fun field => (lit field.1, field.2))

/-- `fields.get(key)`. -/
def get (fields : List (PyStr × PyValue F)) (key : String) : PyValue F :=
  (fields.lookup (lit key)).getD .null

/-- `bool(value)`; `isZero` tells for a float. -/
def truthy (isZero : F → Bool) : PyValue F → Bool
  | .null => false
  | .bool b => b
  | .int n => n != 0
  | .float x => !isZero x
  | .str s => !s.isEmpty
  | .arr items => !items.isEmpty
  | .obj fields => !fields.isEmpty

/-- The value of a whole number, a Boolean among them: `isinstance(value, int)`. -/
def asInt : PyValue F → Option Int
  | .int n => some n
  | .bool b => some (if b then 1 else 0)
  | _ => none

/-- `value == s`. -/
def is (value : PyValue F) (s : String) : Bool :=
  match value with
  | .str t => t == lit s
  | _ => false

/-- Is the value a dictionary? -/
def isObj : PyValue F → Bool
  | .obj _ => true
  | _ => false

/-- Can the value be a dictionary key? -/
def hashable : PyValue F → Bool
  | .arr _ => false
  | .obj _ => false
  | _ => true

theorem is_iff {value : PyValue F} {s : String} : value.is s = true ↔ value = text s := by
  cases value <;> simp [is, text]

/-- A value is equal to one text only. -/
theorem is_of_text (s t : String) : (text s : PyValue F).is t = decide (s = t) := by
  by_cases h : s = t
  · rw [decide_eq_true h, is_iff, h]
  · rw [decide_eq_false h, Bool.eq_false_iff, ne_eq, is_iff]
    intro heq
    exact h (lit_injective (PyValue.str.inj heq))

/-! ## Writing -/

def backslash : Char := Char.ofNat 92

def doubleQuote : Char := Char.ofNat 34

def apostrophe : Char := Char.ofNat 39

/-- The last `width` hexadecimal digits. -/
def hex (width n : Nat) : List Char :=
  (List.range width).reverse.map fun i => Nat.digitChar (n / Nat.pow 16 i % 16)

/-- The code point in hexadecimal, after a backslash and a letter. -/
def escaped (letter : Char) (width n : Nat) : List Char := backslash :: letter :: hex width n

/-- A code point inside `repr(text)`. -/
def reprPoint (P : Printing F) (quote : Char) : CodePoint → List Char
  | .surrogate n => escaped 'u' 4 (0xD800 + n.val)
  | .char c =>
      if c = quote ∨ c = backslash then [backslash, c]
      else if c = '\t' then [backslash, 't']
      else if c = '\n' then [backslash, 'n']
      else if c = '\r' then [backslash, 'r']
      else if c.toNat < 0x20 ∨ c.toNat = 0x7F then escaped 'x' 2 c.toNat
      else if c.toNat < 0x7F ∨ P.printable c then [c]
      else if c.toNat ≤ 0xFF then escaped 'x' 2 c.toNat
      else if c.toNat ≤ 0xFFFF then escaped 'u' 4 c.toNat
      else escaped 'U' 8 c.toNat

/-- `repr(text)`: in apostrophes, unless there is one in the text and no quote. -/
def reprText (P : Printing F) (s : PyStr) : List Char :=
  let quote := if .char apostrophe ∈ s ∧ .char doubleQuote ∉ s then doubleQuote else apostrophe
  quote :: (s.flatMap (reprPoint P quote) ++ [quote])

/-- A code point inside `json.dumps(text)`. -/
def dumpsPoint : CodePoint → List Char
  | .surrogate n => escaped 'u' 4 (0xD800 + n.val)
  | .char c =>
      if c = doubleQuote ∨ c = backslash then [backslash, c]
      else if c = '\n' then [backslash, 'n']
      else if c = '\r' then [backslash, 'r']
      else if c = '\t' then [backslash, 't']
      else if c.toNat = 0x0C then [backslash, 'f']
      else if c.toNat = 0x08 then [backslash, 'b']
      else if 0x20 ≤ c.toNat ∧ c.toNat ≤ 0x7E then [c]
      else if c.toNat ≤ 0xFFFF then escaped 'u' 4 c.toNat
      else escaped 'u' 4 (0xD800 + (c.toNat - 0x10000) / 0x400) ++
        escaped 'u' 4 (0xDC00 + (c.toNat - 0x10000) % 0x400)

/-- `json.dumps(text)`. -/
def dumpsText (s : PyStr) : List Char := doubleQuote :: (s.flatMap dumpsPoint ++ [doubleQuote])

/-- How a value without parts is written. -/
structure Leaves (F : Type) where
  null : String
  bool : Bool → String
  float : F → String
  text : PyStr → List Char

mutual

/-- Values are written alike but for their leaves. -/
def write (L : Leaves F) : PyValue F → List Char
  | .null => L.null.toList
  | .bool b => (L.bool b).toList
  | .int n => (toString n).toList
  | .float x => (L.float x).toList
  | .str s => L.text s
  | .arr items => '[' :: (writeItems L items ++ [']'])
  | .obj fields => '{' :: (writeFields L fields ++ ['}'])

def writeItems (L : Leaves F) : List (PyValue F) → List Char
  | [] => []
  | item :: items => write L item ++ (if items.isEmpty then [] else [',', ' ']) ++ writeItems L items

def writeFields (L : Leaves F) : List (PyStr × PyValue F) → List Char
  | [] => []
  | (key, value) :: fields => L.text key ++ [':', ' '] ++ write L value ++
      (if fields.isEmpty then [] else [',', ' ']) ++ writeFields L fields

end

/-- `repr(value)`. -/
def repr (P : Printing F) : PyValue F → List Char :=
  write ⟨"None", fun b => if b then "True" else "False", P.repr, reprText P⟩

/-- `json.dumps(value)`. -/
def dumps (P : Printing F) : PyValue F → List Char :=
  write ⟨"null", fun b => if b then "true" else "false", P.dumps, dumpsText⟩

/-- `str(value)`, also in an f-string: a text is itself. -/
def str_of (P : Printing F) : PyValue F → PyStr
  | .str s => s
  | value => chars (repr P value)

/-- `repr` escapes what cannot be encoded; only a text is passed on as it is. -/
theorem encodes_str_of (P : Printing F) (value : PyValue F) :
    encodes (str_of P value) = true ↔ ∀ s, value = .str s → encodes s = true := by
  constructor
  · intro h s hs
    rw [hs] at h
    exact h
  · intro h
    cases value with
    | str s => exact h s rfl
    | null | bool | int | float | arr | obj => exact encodes_chars _

/-! ## Responses -/

mutual

/-- A JSON response can be made of the value: `json.dumps(value,
    ensure_ascii=False, allow_nan=False).encode()` does not raise. -/
def renderable (P : Printing F) : PyValue F → Bool
  | .float x => P.isFinite x
  | .str s => encodes s
  | .arr items => renderableItems P items
  | .obj fields => renderableFields P fields
  | .null => true
  | .bool _ => true
  | .int _ => true

def renderableItems (P : Printing F) : List (PyValue F) → Bool
  | [] => true
  | item :: items => renderable P item && renderableItems P items

def renderableFields (P : Printing F) : List (PyStr × PyValue F) → Bool
  | [] => true
  | (key, value) :: fields => encodes key && renderable P value && renderableFields P fields

end

@[simp] theorem renderable_null (P : Printing F) : renderable P .null = true := by rw [renderable]

@[simp] theorem renderable_bool (P : Printing F) (b : Bool) : renderable P (.bool b) = true := by
  rw [renderable]

@[simp] theorem renderable_int (P : Printing F) (n : Int) : renderable P (.int n) = true := by
  rw [renderable]

@[simp] theorem renderable_str (P : Printing F) (s : PyStr) : renderable P (.str s) = encodes s := by
  rw [renderable]

@[simp] theorem renderable_arr (P : Printing F) (items : List (PyValue F)) :
    renderable P (.arr items) = items.all (renderable P) := by
  rw [renderable]
  induction items with
  | nil => rfl
  | cons item items ih => rw [renderableItems, ih, List.all_cons]

@[simp] theorem renderable_obj (P : Printing F) (fields : List (PyStr × PyValue F)) :
    renderable P (.obj fields) = fields.all fun field => encodes field.1 && renderable P field.2 := by
  rw [renderable]
  induction fields with
  | nil => rfl
  | cons field fields ih => rw [renderableFields, ih, List.all_cons]

@[simp] theorem renderable_text (P : Printing F) (s : String) : renderable P (text s) = true := by
  rw [text, renderable, encodes_lit]

/-- The keys of the source can always be encoded. -/
@[simp] theorem renderable_dict (P : Printing F) (fields : List (String × PyValue F)) :
    renderable P (dict fields) = fields.all fun field => renderable P field.2 := by
  rw [dict, renderable_obj, List.all_map]
  congr 1
  funext field
  rw [Function.comp_apply, encodes_lit, Bool.true_and]

end PyValue
