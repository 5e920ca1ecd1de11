import AlitellmAuth.Framework.Csv

/-! # The CSV export

    `csv.ts`: the tables of the usage page as a file for a spreadsheet. A cell
    that a spreadsheet would take for a formula gets an apostrophe in front.

    * `toCsv`: the file, over strings of UTF-16 code units.
    * `ReadsBack`: a reader recovers the cells, and none of them is a formula.
    * `reads_back_iff`: when it does. A carriage return alone does not make the
      code quote a cell, but it ends a record.
-/

namespace AlitellmAuth.Ui

/-- A string: its UTF-16 code units. -/
abbrev JsString := List UInt16

/-- A text of plain characters. -/
def text (s : String) : JsString := s.toList.map fun c => c.toNat.toUInt16

/-- What a row holds under a key; `null` and `undefined` are printed alike. -/
inductive Value (Number : Type) where
  | null
  | bool (b : Bool)
  | number (n : Number)
  | string (s : JsString)

/-- A column of the export. -/
structure CsvColumn where
  key : String
  header : JsString

/-- A row: its values by key. -/
abbrev CsvRow (Number : Type) := List (String × Value Number)

section
variable {Number : Type} (print : Number → JsString)

/-- `/^[=+\-@]/`. -/
def FORMULA_PREFIX (s : JsString) : Bool := s.head?.any fun c => (text "=+-@").contains c

/-- `/[",\n]/`. -/
def needsQuotes (s : JsString) : Bool := s.any fun c => (text "\",\n").contains c

/-- `String(value)`, and nothing for `null` and `undefined`. -/
def printed : Value Number → JsString
  | .null => []
  | .bool true => text "true"
  | .bool false => text "false"
  | .number n => print n
  | .string s => s

/-- A cell of the file. -/
def cell (value : Value Number) : JsString :=
  match value with
  | .null => []
  | value =>
      let s := printed print value
      let s := if FORMULA_PREFIX s then text "'" ++ s else s
      if needsQuotes s then
        text "\"" ++ (s.flatMap fun c => if c = 34 then text "\"\"" else [c]) ++ text "\""
      else s

/-- `array.join(',')`. -/
def joinComma : List JsString → JsString
  | [] => []
  | [s] => s
  | s :: rest => s ++ text "," ++ joinComma rest

/-- `array.join('\n')`. -/
def joinLines : List JsString → JsString
  | [] => []
  | [s] => s
  | s :: rest => s ++ text "\n" ++ joinLines rest

/-- `r[c.key]`. -/
def valueOf (r : CsvRow Number) (key : String) : Value Number := (r.lookup key).getD .null

def toCsv (rows : List (CsvRow Number)) (columns : List CsvColumn) : JsString :=
  let head := joinComma (columns.map fun c => cell print (.string c.header : Value Number))
  let body := rows.map fun r => joinComma (columns.map fun c => cell print (valueOf r c.key))
  joinLines (head :: body) ++ text "\n"

/-! ## What the export is for -/

/-- The characters with a meaning, as code units. -/
def marks : Csv.Marks UInt16 where
  quote := 34
  comma := 44
  lf := 10
  cr := 13
  distinct := by decide

/-- The printed value, behind an apostrophe if a spreadsheet would take it for a
    formula. -/
def shown (value : Value Number) : JsString :=
  if FORMULA_PREFIX (printed print value) then text "'" ++ printed print value
  else printed print value

/-- The records that a reader should recover: the headers, and the rows. -/
def recovered (rows : List (CsvRow Number)) (columns : List CsvColumn) : List (List JsString) :=
  (columns.map fun c => shown print (.string c.header)) ::
    rows.map fun r => columns.map fun c => shown print (valueOf r c.key)

/-- A reader recovers the cells, and no cell is a formula. -/
structure ReadsBack (rows : List (CsvRow Number)) (columns : List CsvColumn) : Prop where
  reads : Csv.read marks (toCsv print rows columns) = some (recovered print rows columns)
  harmless : ∀ record ∈ recovered print rows columns, ∀ s ∈ record, FORMULA_PREFIX s = false

/-- A carriage return does not stand alone: the text is quoted for another
    character. -/
def Kept (s : JsString) : Prop := 13 ∈ s → needsQuotes s = true

instance (s : JsString) : Decidable (Kept s) :=
  inferInstanceAs (Decidable (13 ∈ s → needsQuotes s = true))

/-! ## The file -/

variable {print}

theorem shown_harmless (value : Value Number) : FORMULA_PREFIX (shown print value) = false := by
  unfold shown
  split
  · rfl
  · next h => simpa using h

theorem inQuotes_eq (s : JsString) :
    text "\"" ++ (s.flatMap fun c => if c = 34 then text "\"\"" else [c]) ++ text "\"" =
      Csv.inQuotes marks s := by
  have hdoubled : (fun c : UInt16 => if c = 34 then text "\"\"" else [c]) =
      fun c => if c = marks.quote then [c, c] else [c] := by
    funext c
    by_cases hc : c = 34
    · rw [hc]
      rfl
    · rw [if_neg hc]
      exact (if_neg hc).symm
  rw [hdoubled]
  rfl

/-- A cell is what a reader should recover, quoted by one policy. -/
theorem cell_eq (value : Value Number) :
    cell print value = Csv.writeCell marks needsQuotes (shown print value) := by
  unfold cell
  cases value with
  | null => rfl
  | bool b => cases b <;> rfl
  | number n =>
    dsimp only
    rw [inQuotes_eq]
    rfl
  | string s =>
    dsimp only
    rw [inQuotes_eq]
    rfl

theorem joinComma_eq (values : List (Value Number)) :
    joinComma (values.map (cell print)) =
      Csv.writeRow marks needsQuotes (values.map (shown print)) := by
  induction values with
  | nil => rfl
  | cons value values ih =>
    cases values with
    | nil => exact cell_eq value
    | cons next values =>
      show cell print value ++ text "," ++ joinComma ((next :: values).map (cell print)) = _
      rw [ih, cell_eq, List.append_assoc]
      rfl

theorem joinLines_eq (lines : List JsString) (h : lines ≠ []) :
    joinLines lines ++ text "\n" = lines.flatMap fun line => line ++ [10] := by
  induction lines with
  | nil => exact absurd rfl h
  | cons line lines ih =>
    by_cases hnil : lines = []
    · rw [hnil]
      simp [joinLines]
      rfl
    · obtain ⟨next, rest, rfl⟩ := List.exists_cons_of_ne_nil hnil
      show line ++ text "\n" ++ joinLines (next :: rest) ++ text "\n" = _
      rw [List.append_assoc, ih hnil]
      rfl

theorem toCsv_eq (rows : List (CsvRow Number)) (columns : List CsvColumn) :
    toCsv print rows columns = Csv.write marks needsQuotes (recovered print rows columns) := by
  have hline (value : CsvColumn → Value Number) :
      joinComma (columns.map fun c => cell print (value c)) =
        Csv.writeRow marks needsQuotes (columns.map fun c => shown print (value c)) := by
    have h := @joinComma_eq _ print (columns.map value)
    rwa [List.map_map, List.map_map] at h
  unfold toCsv
  rw [joinLines_eq _ (List.cons_ne_nil _ _)]
  unfold recovered Csv.write
  rw [List.flatMap_cons, List.flatMap_cons, hline]
  congr 1
  rw [List.flatMap_map, List.flatMap_map]
  congr 1
  funext r
  rw [hline]
  rfl

theorem policy_quotes : Csv.Quotes marks needsQuotes := by
  intro s hs c hc
  have hnot : (text "\",\n").contains c = false := by
    unfold needsQuotes at hs
    simpa using List.any_eq_false.mp hs c hc
  refine ⟨?_, ?_, ?_⟩
  all_goals
    rintro rfl
    revert hnot
    decide

/-- The apostrophe hides no carriage return, and is no reason to quote. -/
theorem kept_shown (value : Value Number) :
    Kept (printed print value) ↔
      (needsQuotes (shown print value) = false → 13 ∉ shown print value) := by
  have hquotes : needsQuotes (shown print value) = needsQuotes (printed print value) := by
    unfold shown
    split
    · rfl
    · rfl
  have hcr : 13 ∈ shown print value ↔ 13 ∈ printed print value := by
    unfold shown
    split
    · simp [text]
    · exact Iff.rfl
  rw [hquotes, hcr]
  unfold Kept
  cases needsQuotes (printed print value) <;> simp

/-- An export reads back if and only if every carriage return stands in a text
    that is quoted for another character. -/
theorem reads_back_iff (rows : List (CsvRow Number)) {columns : List CsvColumn}
    (hcolumns : columns ≠ []) :
    ReadsBack print rows columns ↔
      (∀ c ∈ columns, Kept c.header) ∧
        ∀ r ∈ rows, ∀ c ∈ columns, Kept (printed print (valueOf r c.key)) := by
  -- every record has a field, since there is a column
  have hne : ∀ record ∈ recovered print rows columns, record ≠ [] := by
    intro record hrecord
    unfold recovered at hrecord
    rcases List.mem_cons.mp hrecord with rfl | hrecord
    · simpa using hcolumns
    · obtain ⟨r, -, rfl⟩ := List.mem_map.mp hrecord
      simpa using hcolumns
  -- what is written is guarded, so no cell begins a formula
  have hharmless : ∀ record ∈ recovered print rows columns, ∀ s ∈ record,
      FORMULA_PREFIX s = false := by
    intro record hrecord s hs
    unfold recovered at hrecord
    rcases List.mem_cons.mp hrecord with rfl | hrecord
    · obtain ⟨c, -, rfl⟩ := List.mem_map.mp hs
      exact shown_harmless _
    · obtain ⟨r, -, rfl⟩ := List.mem_map.mp hrecord
      obtain ⟨c, -, rfl⟩ := List.mem_map.mp hs
      exact shown_harmless _
  have hread := Csv.read_write_iff policy_quotes hne
  rw [← toCsv_eq] at hread
  have hheader (c : CsvColumn) : Kept c.header ↔ _ :=
    @kept_shown _ print (.string c.header : Value Number)
  constructor
  · intro h
    have hkept := hread.mp h.reads
    constructor
    · intro c hc
      rw [hheader]
      exact hkept _ List.mem_cons_self _ (List.mem_map_of_mem hc)
    · intro r hr c hc
      rw [kept_shown]
      exact hkept _ (List.mem_cons_of_mem _ (List.mem_map_of_mem hr)) _ (List.mem_map_of_mem hc)
  · rintro ⟨hheaders, hcells⟩
    refine ⟨hread.mpr ?_, hharmless⟩
    intro record hrecord s hs
    unfold recovered at hrecord
    rcases List.mem_cons.mp hrecord with rfl | hrecord
    · obtain ⟨c, hc, rfl⟩ := List.mem_map.mp hs
      exact (hheader c).mp (hheaders c hc)
    · obtain ⟨r, hr, rfl⟩ := List.mem_map.mp hrecord
      obtain ⟨c, hc, rfl⟩ := List.mem_map.mp hs
      exact (kept_shown _).mp (hcells r hr c hc)

end

/-! A model that reads back, and one that does not. -/

/-- Numbers without a sign. -/
def decimal (n : Nat) : JsString := text (toString n)

def usage_columns : List CsvColumn := [⟨"model", text "MODEL"⟩, ⟨"requests", text "REQUESTS"⟩]

def usage_row (model : String) : CsvRow Nat :=
  [("model", .string (text model)), ("requests", .number 7)]

/-- A formula, a line end and the separators are all recovered. -/
theorem reads_back_sample :
    ReadsBack decimal [usage_row "=SUM(A1)", usage_row "a,\"b\"\r\nc"] usage_columns := by
  apply (reads_back_iff _ (by decide)).mpr
  decide +kernel

/-- A carriage return that stands alone ends the record. -/
theorem carriage_return_splits :
    Csv.read marks (toCsv decimal [usage_row "a\rb"] usage_columns) =
      some [[text "MODEL", text "REQUESTS"], [text "a"], [text "b", text "7"]] ∧
    ¬ ReadsBack decimal [usage_row "a\rb"] usage_columns := by
  have hread : Csv.read marks (toCsv decimal [usage_row "a\rb"] usage_columns) =
      some [[text "MODEL", text "REQUESTS"], [text "a"], [text "b", text "7"]] := by
    decide +kernel
  refine ⟨hread, ?_⟩
  intro h
  have hsame := h.reads
  rw [hread] at hsame
  revert hsame
  decide +kernel

end AlitellmAuth.Ui
