import Mathlib.Data.List.Basic

/-! # Comma-separated values

    A reader of RFC 4180 files over any alphabet, and what it makes of a file
    that quotes some cells and leaves the others as they are.

    * `step`: the reader, one character at a time. A record ends with LF, CRLF
      or a bare CR.
    * `read`: the records of a file, or nothing if the file is malformed.
    * `write`: the file of a list of records, under any policy of quoting.
    * `read_write_iff`: the file reads back if and only if every cell that is
      not quoted is plain.
-/

namespace Csv

/-- The four characters with a meaning. -/
structure Marks (α : Type) where
  quote : α
  comma : α
  lf : α
  cr : α
  distinct : [quote, comma, lf, cr].Nodup

variable {α : Type}

/-! ## The reader -/

/-- Where the reader is: before a record, before a field, in a field without
    quotes, inside quotes, or behind a quote that may have closed the field. -/
inductive Mode where
  | record (afterCr : Bool)
  | field
  | plain
  | quoted
  | closed

/-- What has been read: records, the fields of the open record, and the open
    field. -/
structure Reading (α : Type) where
  mode : Mode
  cell : List α
  row : List (List α)
  records : List (List (List α))

namespace Reading

variable (r : Reading α)

/-- The open field is complete. -/
def endField : Reading α :=
  { r with mode := .field, cell := [], row := r.row ++ [r.cell] }

/-- The open record is complete. -/
def endRecord (afterCr : Bool) : Reading α :=
  { mode := .record afterCr, cell := [], row := [], records := r.records ++ [r.row ++ [r.cell]] }

/-- One more character of the open field. -/
def push (mode : Mode) (c : α) : Reading α :=
  { r with mode := mode, cell := r.cell ++ [c] }

end Reading

section
variable {r r₀ : Reading α} {s : List α}

/-- A field may begin here. -/
def Reading.Opens (r : Reading α) : Prop :=
  r.cell = [] ∧ (r.mode = .record false ∨ r.mode = .field)

/-- A field may end here. -/
def Reading.Ends (r : Reading α) : Prop := r.mode ≠ .quoted ∧ r.mode ≠ .record true

theorem Reading.Opens.ends (h : r.Opens) : r.Ends := by
  unfold Reading.Ends
  rcases h.2 with hmode | hmode <;> rw [hmode] <;> simp

/-- What a text has added to the open field. -/
structure Grown (r r' : Reading α) (s : List α) : Prop where
  ends : r'.Ends
  cell : r'.cell = s
  row : r'.row = r.row
  records : r'.records = r.records

theorem Grown.endField (h : Grown r₀ r s) :
    r.endField = ⟨.field, [], r₀.row ++ [s], r₀.records⟩ := by
  unfold Reading.endField
  rw [h.cell, h.row, h.records]

theorem Grown.endRecord (h : Grown r₀ r s) (afterCr : Bool) :
    r.endRecord afterCr = ⟨.record afterCr, [], [], r₀.records ++ [r₀.row ++ [s]]⟩ := by
  unfold Reading.endRecord
  rw [h.cell, h.row, h.records]

end

variable [DecidableEq α] (m : Marks α)

/-- A character outside of quotes. -/
def Reading.outside (r : Reading α) (c : α) : Option (Reading α) :=
  if c = m.comma then some r.endField
  else if c = m.lf then some (r.endRecord false)
  else if c = m.cr then some (r.endRecord true)
  else if c = m.quote then none
  else some (r.push .plain c)


/-- The reader takes one character. -/
def step (r : Reading α) (c : α) : Option (Reading α) :=
  match r.mode with
  | .record afterCr =>
      if afterCr = true ∧ c = m.lf then some { r with mode := .record false }
      else if c = m.quote then some { r with mode := .quoted }
      else r.outside m c
  | .field => if c = m.quote then some { r with mode := .quoted } else r.outside m c
  | .plain => r.outside m c
  | .quoted => if c = m.quote then some { r with mode := .closed } else some (r.push .quoted c)
  | .closed =>
      if c = m.quote then some (r.push .quoted c)
      else if c = m.comma ∨ c = m.lf ∨ c = m.cr then r.outside m c
      else none

/-- The reader takes a text. -/
def run (r : Reading α) : List α → Option (Reading α)
  | [] => some r
  | c :: s => (step m r c).bind fun r' => run r' s

/-- The records at the end of the file; the last record needs no line end. -/
def finish (r : Reading α) : Option (List (List (List α))) :=
  match r.mode with
  | .record _ => some r.records
  | .quoted => none
  | _ => some (r.endRecord false).records

/-- The records of a file. -/
def read (s : List α) : Option (List (List (List α))) :=
  (run m ⟨.record false, [], [], []⟩ s).bind finish

/-! ## The writer -/

/-- A cell in quotes, with its own quotes doubled. -/
def inQuotes (s : List α) : List α :=
  m.quote :: ((s.flatMap fun c => if c = m.quote then [c, c] else [c]) ++ [m.quote])

/-- A cell, quoted where the policy says so. -/
def writeCell (quotes : List α → Bool) (s : List α) : List α :=
  if quotes s then inQuotes m s else s

/-- The cells of a record, separated by commas. -/
def writeRow (quotes : List α → Bool) : List (List α) → List α
  | [] => []
  | [s] => writeCell m quotes s
  | s :: row => writeCell m quotes s ++ m.comma :: writeRow quotes row

/-- A file, every record with a line end. -/
def write (quotes : List α → Bool) (records : List (List (List α))) : List α :=
  records.flatMap fun row => writeRow m quotes row ++ [m.lf]

/-- A cell that means itself without quotes. -/
def Plain (s : List α) : Prop := ∀ c ∈ s, c ≠ m.quote ∧ c ≠ m.comma ∧ c ≠ m.lf ∧ c ≠ m.cr

/-! ## One cell -/

section
variable {m} {r r' : Reading α} {s t : List α}

theorem run_append : run m r (s ++ t) = (run m r s).bind fun r' => run m r' t := by
  induction s generalizing r with
  | nil => rfl
  | cons c s ih =>
    show (step m r c).bind _ = ((step m r c).bind _).bind _
    cases step m r c with
    | none => rfl
    | some r' => exact ih

theorem step_comma (h : r.Ends) : step m r m.comma = some r.endField := by
  have hdistinct := m.distinct
  simp only [List.nodup_cons, List.mem_cons, List.not_mem_nil, not_or, or_false] at hdistinct
  have hquote : m.comma ≠ m.quote := fun heq => hdistinct.1.1 heq.symm
  unfold step Reading.outside
  obtain ⟨hquoted, hcr⟩ := h
  cases hmode : r.mode with
  | record afterCr =>
    cases afterCr with
    | true => exact absurd hmode hcr
    | false => simp [hquote]
  | field => simp [hquote]
  | plain => simp
  | quoted => exact absurd hmode hquoted
  | closed => simp [hquote]

theorem step_lf (h : r.Ends) : step m r m.lf = some (r.endRecord false) := by
  have hdistinct := m.distinct
  simp only [List.nodup_cons, List.mem_cons, List.not_mem_nil, not_or, or_false] at hdistinct
  have hquote : m.lf ≠ m.quote := fun heq => hdistinct.1.2.1 heq.symm
  have hcomma : m.lf ≠ m.comma := fun heq => hdistinct.2.1.1 heq.symm
  unfold step Reading.outside
  obtain ⟨hquoted, hcr⟩ := h
  cases hmode : r.mode with
  | record afterCr =>
    cases afterCr with
    | true => exact absurd hmode hcr
    | false => simp [hquote, hcomma]
  | field => simp [hquote, hcomma]
  | plain => simp [hcomma]
  | quoted => exact absurd hmode hquoted
  | closed => simp [hquote, hcomma]

/-- A carriage return ends a record that is not in quotes. -/
theorem step_cr (h : r.Ends) : step m r m.cr = some (r.endRecord true) := by
  have hdistinct := m.distinct
  simp only [List.nodup_cons, List.mem_cons, List.not_mem_nil, not_or, or_false] at hdistinct
  have hquote : m.cr ≠ m.quote := fun heq => hdistinct.1.2.2 heq.symm
  have hcomma : m.cr ≠ m.comma := fun heq => hdistinct.2.1.2 heq.symm
  have hlf : m.cr ≠ m.lf := fun heq => hdistinct.2.2.1 heq.symm
  unfold step Reading.outside
  obtain ⟨hquoted, hcr⟩ := h
  cases hmode : r.mode with
  | record afterCr =>
    cases afterCr with
    | true => exact absurd hmode hcr
    | false => simp [hquote, hcomma, hlf]
  | field => simp [hquote, hcomma, hlf]
  | plain => simp [hcomma, hlf]
  | quoted => exact absurd hmode hquoted
  | closed => simp [hquote, hcomma, hlf]

/-- In an open field without quotes, plain characters are added. -/
theorem run_more (hmode : r.mode = .plain) (hs : Plain m s) :
    run m r s = some { r with cell := r.cell ++ s } := by
  induction s generalizing r with
  | nil => simp [run]
  | cons c s ih =>
    obtain ⟨hquote, hcomma, hlf, hcr⟩ := hs c List.mem_cons_self
    have hstep : step m r c = some (r.push .plain c) := by
      unfold step Reading.outside
      rw [hmode]
      simp [hquote, hcomma, hlf, hcr]
    unfold run
    rw [hstep, Option.bind_some, ih rfl fun d hd => hs d (List.mem_cons_of_mem _ hd)]
    unfold Reading.push
    rw [← hmode]
    simp

theorem run_plain (h : r.Opens) (hs : Plain m s) : ∃ r', run m r s = some r' ∧ Grown r r' s := by
  cases s with
  | nil => exact ⟨r, rfl, h.ends, h.1, rfl, rfl⟩
  | cons c s =>
    obtain ⟨hquote, hcomma, hlf, hcr⟩ := hs c List.mem_cons_self
    have hstep : step m r c = some (r.push .plain c) := by
      unfold step Reading.outside
      rcases h.2 with hmode | hmode <;> rw [hmode] <;> simp [hquote, hcomma, hlf, hcr]
    unfold run
    rw [hstep, Option.bind_some, run_more rfl fun d hd => hs d (List.mem_cons_of_mem _ hd)]
    refine ⟨_, rfl, ?_, ?_, rfl, rfl⟩
    · simp [Reading.Ends, Reading.push]
    · simp [Reading.push, h.1]

/-- Inside quotes, a doubled quote is one character of the field. -/
theorem run_inside (hmode : r.mode = .quoted) :
    run m r ((s.flatMap fun c => if c = m.quote then [c, c] else [c]) ++ [m.quote]) =
      some { r with mode := .closed, cell := r.cell ++ s } := by
  induction s generalizing r with
  | nil => simp [run, step, hmode]
  | cons c s ih =>
    rw [List.flatMap_cons, List.append_assoc, run_append]
    have hpush : run m r (if c = m.quote then [c, c] else [c]) = some (r.push .quoted c) := by
      by_cases hc : c = m.quote
      · rw [if_pos hc]
        simp [run, step, hmode, hc, Reading.push]
      · rw [if_neg hc]
        simp [run, step, hmode, hc]
    rw [hpush, Option.bind_some, ih rfl]
    simp [Reading.push]

theorem run_inQuotes (h : r.Opens) : ∃ r', run m r (inQuotes m s) = some r' ∧ Grown r r' s := by
  have hstep : step m r m.quote = some { r with mode := .quoted } := by
    unfold step
    rcases h.2 with hmode | hmode <;> rw [hmode] <;> simp
  unfold inQuotes
  show ∃ r', (step m r m.quote).bind _ = some r' ∧ _
  rw [hstep, Option.bind_some, run_inside rfl]
  refine ⟨_, rfl, ?_, ?_, rfl, rfl⟩
  · simp [Reading.Ends]
  · simp [h.1]

/-! ## Rows -/

variable {quotes : List α → Bool} {row : List (List α)} {rows out : List (List (List α))}

/-- A cell that is in quotes, or needs none. -/
def Safe (m : Marks α) (quotes : List α → Bool) (s : List α) : Prop :=
  quotes s = false → Plain m s

theorem run_cell (h : r.Opens) (hs : Safe m quotes s) :
    ∃ r', run m r (writeCell m quotes s) = some r' ∧ Grown r r' s := by
  unfold writeCell
  by_cases hquotes : quotes s = true
  · rw [if_pos hquotes]
    exact run_inQuotes h
  · rw [if_neg hquotes]
    exact run_plain h (hs (by simpa using hquotes))

theorem run_comma (h : r.Opens) (hs : Safe m quotes s) :
    run m r (writeCell m quotes s ++ m.comma :: t) =
      run m ⟨.field, [], r.row ++ [s], r.records⟩ t := by
  obtain ⟨r', hrun, hgrown⟩ := run_cell h hs
  rw [run_append, hrun, Option.bind_some, run, step_comma hgrown.ends, hgrown.endField]
  rfl

theorem run_lf (h : r.Opens) (hs : Safe m quotes s) :
    run m r (writeCell m quotes s ++ m.lf :: t) =
      run m ⟨.record false, [], [], r.records ++ [r.row ++ [s]]⟩ t := by
  obtain ⟨r', hrun, hgrown⟩ := run_cell h hs
  rw [run_append, hrun, Option.bind_some, run, step_lf hgrown.ends, hgrown.endRecord]
  rfl

theorem writeRow_cons (h : row ≠ []) :
    writeRow m quotes (s :: row) = writeCell m quotes s ++ m.comma :: writeRow m quotes row := by
  obtain ⟨s', row, rfl⟩ := List.exists_cons_of_ne_nil h
  rfl

/-- A row is read as one record. -/
theorem run_row (h : r.Opens) (hne : row ≠ []) (hsafe : ∀ s ∈ row, Safe m quotes s) :
    run m r (writeRow m quotes row ++ m.lf :: t) =
      run m ⟨.record false, [], [], r.records ++ [r.row ++ row]⟩ t := by
  induction row generalizing r with
  | nil => exact absurd rfl hne
  | cons s row ih =>
    have hs := hsafe s List.mem_cons_self
    by_cases hrow : row = []
    · rw [hrow]
      exact run_lf h hs
    · rw [writeRow_cons hrow, List.append_assoc, List.cons_append, run_comma h hs,
        ih ⟨rfl, .inr rfl⟩ hrow fun s hs => hsafe s (List.mem_cons_of_mem _ hs)]
      simp

theorem run_write {records : List (List (List α))} (hne : ∀ row ∈ rows, row ≠ [])
    (hsafe : ∀ row ∈ rows, ∀ s ∈ row, Safe m quotes s) :
    run m ⟨.record false, [], [], records⟩ (write m quotes rows) =
      some ⟨.record false, [], [], records ++ rows⟩ := by
  induction rows generalizing records with
  | nil => simp [write, run]
  | cons row rows ih =>
    have hrow := run_row (m := m) (r := ⟨.record false, [], [], records⟩) (t := write m quotes rows)
      ⟨rfl, .inl rfl⟩ (hne row List.mem_cons_self) (hsafe row List.mem_cons_self)
    have hwrite : write m quotes (row :: rows) =
        writeRow m quotes row ++ m.lf :: write m quotes rows := by
      simp [write]
    rw [hwrite, hrow, ih (fun row hmem => hne row (List.mem_cons_of_mem _ hmem))
      (fun row hmem => hsafe row (List.mem_cons_of_mem _ hmem))]
    simp

/-! ## Records that are lost -/

/-- The reader never takes a record back. -/
theorem step_records {c : α} (h : step m r c = some r') : r.records <+: r'.records := by
  -- only the end of a record, outside of quotes, adds one
  have houtside (houtside : r.outside m c = some r') : r.records <+: r'.records := by
    unfold Reading.outside at houtside
    split at houtside
    · cases houtside
      exact List.prefix_rfl
    · split at houtside
      · cases houtside
        exact List.prefix_append _ _
      · split at houtside
        · cases houtside
          exact List.prefix_append _ _
        · split at houtside
          · cases houtside
          · cases houtside
            exact List.prefix_rfl
  unfold step at h
  split at h
  · split at h
    · cases h
      exact List.prefix_rfl
    · split at h
      · cases h
        exact List.prefix_rfl
      · exact houtside h
  · split at h
    · cases h
      exact List.prefix_rfl
    · exact houtside h
  · exact houtside h
  · split at h
    · cases h
      exact List.prefix_rfl
    · cases h
      exact List.prefix_rfl
  · split at h
    · cases h
      exact List.prefix_rfl
    · split at h
      · exact houtside h
      · cases h

theorem run_records (h : run m r s = some r') : r.records <+: r'.records := by
  induction s generalizing r with
  | nil =>
    cases h
    exact List.prefix_rfl
  | cons c s ih =>
    obtain ⟨r₁, hstep, hrun⟩ := Option.bind_eq_some_iff.mp h
    exact (step_records hstep).trans (ih hrun)

omit [DecidableEq α] in
theorem finish_records (h : finish r = some out) : r.records <+: out := by
  unfold finish at h
  split at h
  · cases h
    exact List.prefix_rfl
  · cases h
  · cases h
    exact List.prefix_append _ _

theorem read_records (h : (run m r s).bind finish = some out) : r.records <+: out := by
  obtain ⟨r', hrun, hfinish⟩ := Option.bind_eq_some_iff.mp h
  exact (run_records hrun).trans (finish_records hfinish)

/-- The policy puts every cell in quotes that has a quote, a comma or a line
    feed. -/
def Quotes (m : Marks α) (quotes : List α → Bool) : Prop :=
  ∀ s, quotes s = false → ∀ c ∈ s, c ≠ m.quote ∧ c ≠ m.comma ∧ c ≠ m.lf

omit [DecidableEq α] in
theorem Quotes.safe (hpolicy : Quotes m quotes) (hcr : quotes s = false → m.cr ∉ s) :
    Safe m quotes s := by
  intro hquotes c hc
  obtain ⟨hquote, hcomma, hlf⟩ := hpolicy s hquotes c hc
  refine ⟨hquote, hcomma, hlf, ?_⟩
  intro heq
  rw [heq] at hc
  exact hcr hquotes hc

/-- At a carriage return outside of quotes, the record ends too early. -/
theorem run_broken (h : r.Opens) (hpolicy : Quotes m quotes) (hquotes : quotes s = false)
    (hcr : m.cr ∈ s) (hout : (run m r (writeCell m quotes s ++ t)).bind finish = some out) :
    ∃ a, a.length < s.length ∧ r.records ++ [r.row ++ [a]] <+: out := by
  obtain ⟨a, b, hs, hnot⟩ := List.eq_append_cons_of_mem hcr
  refine ⟨a, by simp [hs], ?_⟩
  have hplain : Plain m a := by
    intro c hc
    obtain ⟨hquote, hcomma, hlf⟩ := hpolicy s hquotes c (by simp [hs, hc])
    refine ⟨hquote, hcomma, hlf, ?_⟩
    intro heq
    rw [heq] at hc
    exact hnot hc
  obtain ⟨r', hrun, hgrown⟩ := run_plain h hplain
  have hcell : writeCell m quotes s = s := by
    unfold writeCell
    rw [hquotes]
    rfl
  rw [hcell, hs, List.append_assoc, run_append, hrun, Option.bind_some, List.cons_append, run,
    step_cr hgrown.ends, hgrown.endRecord, Option.bind_some] at hout
  exact read_records hout

theorem row_safe (h : r.Opens) (hpolicy : Quotes m quotes)
    (hout : (run m r (writeRow m quotes row ++ m.lf :: t)).bind finish = some out)
    (hrow : r.records ++ [r.row ++ row] <+: out) : ∀ s ∈ row, quotes s = false → m.cr ∉ s := by
  induction row generalizing r with
  | nil => simp
  | cons s row ih =>
    have hhead : quotes s = false → m.cr ∉ s := by
      intro hquotes hcr
      obtain ⟨t', ht'⟩ : ∃ t', writeRow m quotes (s :: row) ++ m.lf :: t =
          writeCell m quotes s ++ t' := by
        by_cases hnil : row = []
        · rw [hnil]
          exact ⟨_, rfl⟩
        · rw [writeRow_cons hnil, List.append_assoc]
          exact ⟨_, rfl⟩
      rw [ht'] at hout
      obtain ⟨a, hlt, hbroken⟩ := run_broken h hpolicy hquotes hcr hout
      -- both records stand at the same place
      have heq := List.prefix_of_prefix_length_le hbroken hrow (by simp)
      have heq := heq.eq_of_length (by simp)
      have hcells : r.row ++ [a] = r.row ++ s :: row := by simpa using heq
      have ha : a = s := (List.cons.inj (List.append_cancel_left hcells)).1
      rw [ha] at hlt
      exact absurd hlt (Nat.lt_irrefl _)
    by_cases hnil : row = []
    · rw [hnil]
      simpa using hhead
    · rw [writeRow_cons hnil, List.append_assoc, List.cons_append,
        run_comma h (hpolicy.safe hhead)] at hout
      have hrest := ih ⟨rfl, .inr rfl⟩ hout (by simpa using hrow)
      intro s' hs'
      rcases List.mem_cons.mp hs' with rfl | hs'
      · exact hhead
      · exact hrest s' hs'

theorem write_safe {records : List (List (List α))} (hpolicy : Quotes m quotes)
    (hne : ∀ row ∈ rows, row ≠ [])
    (hout : (run m ⟨.record false, [], [], records⟩ (write m quotes rows)).bind finish =
      some (records ++ rows)) : ∀ row ∈ rows, ∀ s ∈ row, quotes s = false → m.cr ∉ s := by
  induction rows generalizing records with
  | nil => simp
  | cons row rows ih =>
    have hwrite : write m quotes (row :: rows) =
        writeRow m quotes row ++ m.lf :: write m quotes rows := by
      simp [write]
    rw [hwrite] at hout
    have hrow := row_safe ⟨rfl, .inl rfl⟩ hpolicy hout ⟨rows, by simp⟩
    have hsafe : ∀ s ∈ row, Safe m quotes s := fun s hs => hpolicy.safe (hrow s hs)
    rw [run_row ⟨rfl, .inl rfl⟩ (hne row List.mem_cons_self) hsafe] at hout
    have hrest := @ih (records ++ [row])
      (fun row hmem => hne row (List.mem_cons_of_mem _ hmem)) (by simpa using hout)
    intro row' hrow'
    rcases List.mem_cons.mp hrow' with rfl | hrow'
    · exact hrow
    · exact hrest row' hrow'

/-- A file reads back if and only if no carriage return stands outside of
    quotes. -/
theorem read_write_iff (hpolicy : Quotes m quotes) (hne : ∀ row ∈ rows, row ≠ []) :
    read m (write m quotes rows) = some rows ↔
      ∀ row ∈ rows, ∀ s ∈ row, quotes s = false → m.cr ∉ s := by
  constructor
  · intro h
    exact write_safe hpolicy hne h
  · intro hcr
    unfold read
    rw [run_write hne]
    · rfl
    · intro row hrow s hs
      exact hpolicy.safe (hcr row hrow s hs)

end

end Csv
