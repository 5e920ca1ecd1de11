import Mathlib.Data.List.TakeDrop
import AlitellmAuth.Framework.Url

/-! # Query strings

    Python's `urlencode`, the reading of a query string, and what happens to a
    URL when a query is appended to it.

    * `urlencode`, `queryFields`: writing and reading name and value pairs.
    * `fields_urlencode`, `fields_append`: the round trip, and how queries compose.
    * `urlparse_query`: a query that is appended changes nothing but the query.
-/

namespace Url

open Text

/-- Neither a line end nor a tab. -/
def isKept (c : Char) : Bool := c != '\t' && c != '\r' && c != '\n'

/-! ## Writing a query -/

/-- The characters that `quote` never escapes. -/
def isUnreserved (c : Char) : Bool :=
  isAsciiLetter c || isDigit c || c == '_' || c == '.' || c == '-' || c == '~'

/-- The digit for a four-bit value. -/
def hexDigit (n : Nat) : Char := if n < 10 then Char.ofNat (48 + n) else Char.ofNat (55 + n)

/-- An escaped byte. -/
def percent (b : UInt8) : List Char := ['%', hexDigit (b.toNat / 16), hexDigit (b.toNat % 16)]

/-- `quote_plus` on one character: everything else is escaped byte by byte. -/
def quoteChar (c : Char) : List Char :=
  if isUnreserved c then [c]
  else if c = ' ' then ['+']
  else (String.utf8EncodeChar c).flatMap percent

/-- `urllib.parse.quote_plus`. -/
def quotePlus (s : String) : List Char := s.toList.flatMap quoteChar

/-- `sep.join` on characters. -/
def joinWith (sep : Char) : List (List Char) → List Char
  | [] => []
  | [w] => w
  | w :: ws => w ++ sep :: joinWith sep ws

/-- `urllib.parse.urlencode`. -/
def urlencode (params : List (String × String)) : List Char :=
  joinWith '&' (params.map fun param => quotePlus param.1 ++ '=' :: quotePlus param.2)

/-! ## Reading a query -/

/-- The value of a hexadecimal digit. -/
def hexValue (c : Char) : Nat :=
  if isDigit c then c.toNat - 48 else if 'a' ≤ c then c.toNat - 87 else c.toNat - 55

/-- `urllib.parse.unquote_to_bytes`: an escape that is not complete stands for
    itself. -/
def unquoteBytes : List Char → List UInt8
  | '%' :: a :: b :: rest =>
      if isHexDigit a && isHexDigit b then
        UInt8.ofNat (16 * hexValue a + hexValue b) :: unquoteBytes rest
      else String.utf8EncodeChar '%' ++ unquoteBytes (a :: b :: rest)
  | c :: rest => String.utf8EncodeChar c ++ unquoteBytes rest
  | [] => []

def plusToSpace (c : Char) : Char := if c = '+' then ' ' else c

/-- A name or a value, as the bytes it stands for. -/
def unquotePlus (s : List Char) : List UInt8 := unquoteBytes (s.map plusToSpace)

/-- One field: the name, and the value after the first `=`. -/
def readField (field : List Char) : List UInt8 × List UInt8 :=
  let (name, _, value) := partition '=' field
  (unquotePlus name, unquotePlus value)

/-- The name and value pairs of a query, as `parse_qsl` reads them with blank
    values kept, before the bytes are decoded. -/
def queryFields (query : List Char) : List (List UInt8 × List UInt8) :=
  ((splitOn '&' query).filter (· ≠ [])).map readField

/-- The bytes of a text. -/
def textBytes (s : String) : List UInt8 := s.toList.flatMap String.utf8EncodeChar

/-- A pair of texts, as bytes. -/
def paramBytes (param : String × String) : List UInt8 × List UInt8 :=
  (textBytes param.1, textBytes param.2)

/-! ## One name or value -/

theorem hexDigit_value : ∀ n : Fin 16, isHexDigit (hexDigit n) = true ∧ hexValue (hexDigit n) = n := by
  decide

theorem hexDigit_plain : ∀ n : Fin 16,
    hexDigit n ≠ '+' ∧ hexDigit n ≠ '&' ∧ hexDigit n ≠ '=' ∧ hexDigit n ≠ '#' ∧
      isKept (hexDigit n) = true := by
  decide

theorem percent_digits (b : UInt8) : ∃ m n : Fin 16, percent b = ['%', hexDigit m, hexDigit n] ∧
    UInt8.ofNat (16 * m + n) = b := by
  have hb : b.toNat < 256 := b.toNat_lt_size
  refine ⟨⟨b.toNat / 16, by omega⟩, ⟨b.toNat % 16, by omega⟩, rfl, ?_⟩
  show UInt8.ofNat (16 * (b.toNat / 16) + b.toNat % 16) = b
  rw [Nat.div_add_mod]
  exact UInt8.ofNat_toNat

theorem unquote_percent (b : UInt8) (rest : List Char) :
    unquoteBytes ((percent b ++ rest).map plusToSpace) =
      b :: unquoteBytes (rest.map plusToSpace) := by
  obtain ⟨m, n, hpercent, hvalue⟩ := percent_digits b
  rw [hpercent]
  have hm : plusToSpace (hexDigit m) = hexDigit m := if_neg (hexDigit_plain m).1
  have hn : plusToSpace (hexDigit n) = hexDigit n := if_neg (hexDigit_plain n).1
  show unquoteBytes ('%' :: plusToSpace (hexDigit m) :: plusToSpace (hexDigit n) ::
    rest.map plusToSpace) = _
  rw [hm, hn, unquoteBytes, if_pos (by simp [hexDigit_value]), (hexDigit_value m).2,
    (hexDigit_value n).2, hvalue]

theorem unquote_cons {c : Char} (h : c ≠ '%') (rest : List Char) :
    unquoteBytes (c :: rest) = String.utf8EncodeChar c ++ unquoteBytes rest := by
  rw [unquoteBytes]
  intro a b rest' hc
  exact absurd hc h

theorem unquote_quoteChar (c : Char) (rest : List Char) :
    unquoteBytes ((quoteChar c ++ rest).map plusToSpace) =
      String.utf8EncodeChar c ++ unquoteBytes (rest.map plusToSpace) := by
  unfold quoteChar
  split
  · next hc =>
    have hpercent : c ≠ '%' := by rintro rfl; revert hc; decide
    have hplus : c ≠ '+' := by rintro rfl; revert hc; decide
    show unquoteBytes (plusToSpace c :: rest.map plusToSpace) = _
    rw [show plusToSpace c = c from if_neg hplus, unquote_cons hpercent]
  · split
    · next hc =>
      subst hc
      exact unquote_cons (by decide) _
    · generalize String.utf8EncodeChar c = bytes
      induction bytes with
      | nil => rfl
      | cons b bytes ih =>
        rw [List.flatMap_cons, List.append_assoc, unquote_percent, ih]
        rfl

theorem unquote_quotePlus (s : String) : unquotePlus (quotePlus s) = textBytes s := by
  have h : ∀ l : List Char, unquoteBytes ((l.flatMap quoteChar).map plusToSpace) =
      l.flatMap String.utf8EncodeChar := by
    intro l
    induction l with
    | nil => rfl
    | cons c l ih => rw [List.flatMap_cons, unquote_quoteChar, ih, List.flatMap_cons]
  exact h s.toList

/-! ## Fields -/

/-- What is quoted holds none of the delimiters of a query, and no fragment
    marker. -/
theorem quotePlus_plain {s : String} {c : Char} (hc : c ∈ quotePlus s) :
    c ≠ '&' ∧ c ≠ '=' ∧ c ≠ '#' ∧ isKept c = true := by
  obtain ⟨d, -, hmem⟩ := List.mem_flatMap.mp hc
  unfold quoteChar at hmem
  split at hmem
  · next hd =>
    obtain rfl := List.mem_singleton.mp hmem
    -- a character that needs no quoting is none of these
    refine ⟨?_, ?_, ?_, ?_⟩
    · rintro rfl
      exact absurd hd (by decide)
    · rintro rfl
      exact absurd hd (by decide)
    · rintro rfl
      exact absurd hd (by decide)
    · by_contra hkept
      simp only [isKept, Bool.and_eq_true, bne_iff_ne, ne_eq, not_and, not_not] at hkept
      by_cases htab : c = '\t'
      · exact absurd (htab ▸ hd) (by decide)
      · by_cases hcr : c = '\r'
        · exact absurd (hcr ▸ hd) (by decide)
        · exact absurd (hkept ⟨htab, hcr⟩ ▸ hd) (by decide)
  · split at hmem
    · obtain rfl := List.mem_singleton.mp hmem
      decide
    -- a quoted one is a percent sign and hexadecimal digits
    · obtain ⟨b, -, hb⟩ := List.mem_flatMap.mp hmem
      obtain ⟨m, n, hpercent, -⟩ := percent_digits b
      rw [hpercent] at hb
      simp only [List.mem_cons, List.not_mem_nil, or_false] at hb
      rcases hb with rfl | rfl | rfl
      · decide
      · exact (hexDigit_plain m).2
      · exact (hexDigit_plain n).2

theorem splitOn_cons (c d : Char) (s : List Char) :
    splitOn c (d :: s) = if d = c then [] :: splitOn c s else
      match splitOn c s with
      | part :: parts => (d :: part) :: parts
      | [] => [[d]] := rfl

theorem splitOn_cons_ne {c d : Char} (h : d ≠ c) (s : List Char) :
    ∃ part parts, splitOn c s = part :: parts ∧ splitOn c (d :: s) = (d :: part) :: parts := by
  have hne : ∀ t : List Char, splitOn c t ≠ [] := by
    intro t
    cases t with
    | nil => exact List.cons_ne_nil _ _
    | cons e t =>
      rw [splitOn_cons]
      split
      · exact List.cons_ne_nil _ _
      · split
        · exact List.cons_ne_nil _ _
        · exact List.cons_ne_nil _ _
  obtain ⟨part, parts, hs⟩ := List.exists_cons_of_ne_nil (hne s)
  refine ⟨part, parts, hs, ?_⟩
  rw [splitOn_cons, if_neg h, hs]

theorem splitOn_append (c : Char) (s t : List Char) :
    splitOn c (s ++ c :: t) = splitOn c s ++ splitOn c t := by
  induction s with
  | nil => exact if_pos rfl
  | cons d s ih =>
    by_cases hd : d = c
    · have hcut : ∀ u, splitOn c (d :: u) = [] :: splitOn c u := fun u => if_pos hd
      rw [List.cons_append, hcut, hcut, ih]
      rfl
    · obtain ⟨part, parts, hs, hs'⟩ := splitOn_cons_ne hd s
      obtain ⟨part', parts', ht, ht'⟩ := splitOn_cons_ne hd (s ++ c :: t)
      rw [ih, hs] at ht
      cases ht
      rw [List.cons_append, ht', hs']
      rfl

theorem splitOn_of_not_mem {c : Char} {s : List Char} (h : c ∉ s) : splitOn c s = [s] := by
  induction s with
  | nil => rfl
  | cons d s ih =>
    obtain ⟨hne, hs⟩ := not_or.mp (fun hmem => h (List.mem_cons.mpr hmem))
    obtain ⟨part, parts, hsplit, hcons⟩ := splitOn_cons_ne (Ne.symm hne) s
    rw [ih hs] at hsplit
    cases hsplit
    exact hcons

/-- Queries compose at an ampersand. -/
theorem fields_append (q q' : List Char) :
    queryFields (q ++ '&' :: q') = queryFields q ++ queryFields q' := by
  unfold queryFields
  rw [splitOn_append, List.filter_append, List.map_append]

theorem fields_param (param : String × String) :
    queryFields (quotePlus param.1 ++ '=' :: quotePlus param.2) = [paramBytes param] := by
  have hamp : '&' ∉ quotePlus param.1 ++ '=' :: quotePlus param.2 := by
    intro hmem
    rcases List.mem_append.mp hmem with hmem | hmem
    · exact (quotePlus_plain hmem).1 rfl
    · rcases List.mem_cons.mp hmem with hmem | hmem
      · exact absurd hmem (by decide)
      · exact (quotePlus_plain hmem).1 rfl
  have hcut : partition '=' (quotePlus param.1 ++ '=' :: quotePlus param.2) =
      (quotePlus param.1, true, quotePlus param.2) :=
    partition_append (fun hmem => (quotePlus_plain hmem).2.1 rfl) _
  unfold queryFields
  rw [splitOn_of_not_mem hamp, List.filter_cons, if_pos (by simp)]
  show [readField _] = _
  unfold readField
  rw [hcut]
  show [(unquotePlus (quotePlus param.1), unquotePlus (quotePlus param.2))] = _
  rw [unquote_quotePlus, unquote_quotePlus]
  rfl

theorem urlencode_plain {params : List (String × String)} {c : Char} (hc : c ∈ urlencode params) :
    isKept c = true ∧ c ≠ '#' := by
  have hparam : ∀ param : String × String, c ∈ quotePlus param.1 ++ '=' :: quotePlus param.2 →
      isKept c = true ∧ c ≠ '#' := by
    intro param hmem
    rcases List.mem_append.mp hmem with hmem | hmem
    · exact ⟨(quotePlus_plain hmem).2.2.2, (quotePlus_plain hmem).2.2.1⟩
    · rcases List.mem_cons.mp hmem with rfl | hmem
      · decide
      · exact ⟨(quotePlus_plain hmem).2.2.2, (quotePlus_plain hmem).2.2.1⟩
  induction params with
  | nil => cases hc
  | cons param params ih =>
    cases params with
    | nil => exact hparam param hc
    | cons next params =>
      have hc : c ∈ (quotePlus param.1 ++ '=' :: quotePlus param.2) ++ '&' ::
        urlencode (next :: params) := hc
      rcases List.mem_append.mp hc with hc | hc
      · exact hparam param hc
      · rcases List.mem_cons.mp hc with rfl | hc
        · decide
        · exact ih hc

/-- The parameters are read back as they were written. -/
theorem fields_urlencode (params : List (String × String)) :
    queryFields (urlencode params) = params.map paramBytes := by
  induction params with
  | nil => rfl
  | cons param params ih =>
    cases params with
    | nil => exact fields_param param
    | cons next params =>
      show queryFields ((quotePlus param.1 ++ '=' :: quotePlus param.2) ++ '&' ::
        urlencode (next :: params)) = _
      rw [fields_append, fields_param, ih]
      rfl

/-! ## Appending a query to a URL -/

/-- A text is cut at its first colon if it has one. -/
theorem partition_cases (c : Char) (l : List Char) :
    partition c l = (l, false, []) ∧ c ∉ l ∨
    ∃ before after, partition c l = (before, true, after) ∧ l = before ++ c :: after ∧ c ∉ before := by
  by_cases hmem : c ∈ l
  · obtain ⟨before, after, rfl, hnot⟩ := List.eq_append_cons_of_mem hmem
    exact .inr ⟨before, after, partition_append hnot after, rfl, hnot⟩
  · exact .inl ⟨partition_of_not_mem hmem, hmem⟩

/-- A scheme in front of a colon. -/
structure SchemeIn (s scheme rest : List Char) : Prop where
  cut : ∃ before, s = before ++ ':' :: rest ∧ ':' ∉ before ∧ before.all isSchemeChar = true ∧
    (∃ c more, before = c :: more ∧ isAsciiLetter c = true) ∧ scheme = lowerChars [] before

theorem splitScheme_found {s scheme rest : List Char} (h : splitScheme s = (scheme, rest))
    (hne : scheme ≠ []) : SchemeIn s scheme rest := by
  unfold splitScheme at h
  rcases partition_cases ':' s with ⟨hcut, -⟩ | ⟨before, after, hcut, hs, hnot⟩
  · rw [hcut] at h
    dsimp only at h
    split at h
    · simp only [Bool.false_and, Bool.false_eq_true, if_false] at h
      cases h
      exact absurd rfl hne
    · cases h
      exact absurd rfl hne
  · rw [hcut] at h
    dsimp only at h
    split at h
    · next c more =>
      split at h
      · next hscheme =>
        cases h
        simp only [Bool.and_eq_true] at hscheme
        exact ⟨c :: more, hs, hnot, hscheme.2, ⟨c, more, rfl, hscheme.1.2⟩, rfl⟩
      · cases h
        exact absurd rfl hne
    · cases h
      exact absurd rfl hne

theorem SchemeIn.split {s scheme rest : List Char} (h : SchemeIn s scheme rest) :
    splitScheme s = (scheme, rest) := by
  obtain ⟨before, rfl, hnot, hall, ⟨c, more, rfl, hletter⟩, rfl⟩ := h.cut
  unfold splitScheme
  rw [partition_append hnot]
  show (if (true && isAsciiLetter c && (c :: more).all isSchemeChar) = true then _ else _) = _
  rw [if_pos (by simp only [hletter, hall, Bool.and_self])]

theorem SchemeIn.append {s scheme rest : List Char} (h : SchemeIn s scheme rest) (x : List Char) :
    SchemeIn (s ++ x) scheme (rest ++ x) := by
  obtain ⟨before, rfl, hmore⟩ := h.cut
  exact ⟨before, by simp, hmore⟩

/-- The characters of a network location. -/
def inNetloc (c : Char) : Bool := c != '/' && c != '?' && c != '#'

/-- The end of `urlparse`, from the network location on. -/
def assemble (scheme netloc rest : List Char) : Option Parsed :=
  if netlocOk netloc then
    let (rest, _, fragment) := partition '#' rest
    let (path, _, query) := partition '?' rest
    let scheme := String.ofList scheme
    let (path, params) := if usesParams.contains scheme then splitParams path else (path, [])
    some { scheme, netloc := String.ofList netloc, path := String.ofList path,
           params := String.ofList params, query := String.ofList query,
           fragment := String.ofList fragment }
  else none

theorem assemble_some {scheme netloc rest : List Char} {p : Parsed}
    (h : assemble scheme netloc rest = some p) :
    p.scheme = String.ofList scheme ∧ p.netloc = String.ofList netloc := by
  unfold assemble at h
  split at h
  · cases h
    exact ⟨rfl, rfl⟩
  · cases h

theorem urlparse_split {url : String} {scheme rest : List Char}
    (h : splitScheme (sanitize url.toList) = (scheme, rest)) :
    ∃ netloc tail, urlparse url = assemble scheme netloc tail ∧
      (netloc, tail) = if rest.take 2 = ['/', '/'] then (rest.drop 2).span inNetloc else ([], rest) := by
  refine ⟨_, _, ?_, rfl⟩
  unfold urlparse
  rw [h]
  rfl

/-- A text with a scheme and a network location. -/
structure Located (url : String) (p : Parsed) (scheme netloc rest : List Char) : Prop where
  scheme_in : SchemeIn (sanitize url.toList) scheme ('/' :: '/' :: (netloc ++ rest))
  netloc_in : ∀ c ∈ netloc, inNetloc c = true
  rest_out : ∀ c ∈ rest.head?, inNetloc c = false
  assembled : assemble scheme netloc rest = some p

theorem span_of_parts {f : Char → Bool} {l r : List Char} (hl : ∀ c ∈ l, f c = true)
    (hr : ∀ c ∈ r.head?, f c = false) : (l ++ r).span f = (l, r) := by
  rw [List.span_eq_takeWhile_dropWhile, List.takeWhile_append_of_pos hl,
    List.dropWhile_append_of_pos hl]
  cases r with
  | nil => simp
  | cons c r =>
    have hc : f c = false := hr c (by simp)
    simp [hc]

/-- What is read off a text with a scheme and a network location. -/
theorem urlparse_located {url : String} {p : Parsed} (h : urlparse url = some p)
    (hscheme : p.scheme ≠ "") (hnetloc : p.netloc ≠ "") :
    ∃ scheme netloc rest, Located url p scheme netloc rest := by
  obtain ⟨scheme, rest, hsplit⟩ : ∃ a b, splitScheme (sanitize url.toList) = (a, b) := ⟨_, _, rfl⟩
  obtain ⟨netloc, tail, hparse, hcut⟩ := urlparse_split hsplit
  rw [hparse] at h
  obtain ⟨hs, hn⟩ := assemble_some h
  have hne : scheme ≠ [] := by
    rintro rfl
    exact hscheme hs
  -- only what follows two slashes can be a location
  by_cases htwo : rest.take 2 = ['/', '/']
  · rw [if_pos htwo, List.span_eq_takeWhile_dropWhile] at hcut
    cases hcut
    refine ⟨scheme, _, _, ?_, fun c hc => List.mem_takeWhile_imp hc, ?_, h⟩
    · rw [List.takeWhile_append_dropWhile]
      have hrest : rest = '/' :: '/' :: rest.drop 2 := by
        conv_lhs => rw [← List.take_append_drop 2 rest, htwo]
        rfl
      rw [← hrest]
      exact splitScheme_found hsplit hne
    · intro c hc
      have hnot := List.head?_dropWhile_not inNetloc (rest.drop 2)
      rw [hc] at hnot
      simpa using hnot
  · rw [if_neg htwo] at hcut
    cases hcut
    exact absurd hn hnetloc

theorem Located.urlparse {url : String} {p : Parsed} {scheme netloc rest : List Char}
    (h : Located url p scheme netloc rest) : urlparse url = some p := by
  obtain ⟨netloc', tail, hparse, hcut⟩ := urlparse_split h.scheme_in.split
  have htwo : ('/' :: '/' :: (netloc ++ rest)).take 2 = ['/', '/'] := by simp
  rw [if_pos htwo] at hcut
  have hspan := span_of_parts h.netloc_in h.rest_out
  rw [show ('/' :: '/' :: (netloc ++ rest)).drop 2 = netloc ++ rest from rfl, hspan] at hcut
  cases hcut
  rw [hparse, h.assembled]

/-! ## Appended text -/

theorem sanitize_append {s x : List Char} (hs : sanitize s ≠ []) (hx : ∀ c ∈ x, isKept c = true) :
    sanitize (s ++ x) = sanitize s ++ x := by
  have hdrop : s.dropWhile (fun c => c.toNat ≤ 0x20) ≠ [] := by
    intro hnil
    exact hs (by unfold sanitize; rw [hnil]; rfl)
  have happend : (s ++ x).dropWhile (fun c => c.toNat ≤ 0x20) =
      s.dropWhile (fun c => c.toNat ≤ 0x20) ++ x := by
    rw [List.dropWhile_append, if_neg (by simpa using hdrop)]
  unfold sanitize
  rw [happend, List.filter_append]
  congr 1
  exact List.filter_eq_self.mpr hx

theorem mem_sanitize {s : List Char} {c : Char} (hkept : isKept c = true) (hc : 0x20 < c.toNat) :
    c ∈ sanitize s ↔ c ∈ s := by
  unfold sanitize
  rw [List.mem_filter]
  constructor
  · rintro ⟨hmem, -⟩
    exact (List.dropWhile_suffix _).subset hmem
  · intro hmem
    refine ⟨?_, hkept⟩
    rw [← List.takeWhile_append_dropWhile (p := fun c : Char => decide (c.toNat ≤ 0x20)) (l := s)] at hmem
    rcases List.mem_append.mp hmem with hmem | hmem
    · have hle := List.mem_takeWhile_imp hmem
      simp only [decide_eq_true_eq] at hle
      omega
    · exact hmem

theorem Located.append {url : String} {p p' : Parsed} {scheme netloc rest x : List Char}
    (h : Located url p scheme netloc rest) (hx : ∀ c ∈ x, isKept c = true)
    (hout : ∀ c ∈ (rest ++ x).head?, inNetloc c = false)
    (hp : assemble scheme netloc (rest ++ x) = some p') :
    Located (url ++ String.ofList x) p' scheme netloc (rest ++ x) := by
  refine ⟨?_, h.netloc_in, hout, hp⟩
  have hne : sanitize url.toList ≠ [] := by
    obtain ⟨before, hs, -⟩ := h.scheme_in.cut
    rw [hs]
    simp
  rw [String.toList_append, String.toList_ofList, sanitize_append hne hx]
  simpa using h.scheme_in.append x

/-- A query behind a text without one. -/
theorem assemble_question {scheme netloc rest q : List Char} (hquery : '?' ∉ rest)
    (hrest : '#' ∉ rest) (hq : '#' ∉ q) :
    assemble scheme netloc (rest ++ '?' :: q) =
      (assemble scheme netloc rest).map fun p => { p with query := String.ofList q } := by
  have hplain : '#' ∉ rest ++ '?' :: q := by simp [hrest, hq]
  unfold assemble
  rw [partition_of_not_mem hplain, partition_of_not_mem hrest]
  dsimp only
  rw [partition_append hquery, partition_of_not_mem hquery]
  split
  · rfl
  · rfl

/-- More text behind a query. -/
theorem assemble_more {scheme netloc rest x : List Char} (hquery : '?' ∈ rest) (hrest : '#' ∉ rest)
    (hx : '#' ∉ x) :
    assemble scheme netloc (rest ++ x) = (assemble scheme netloc rest).map fun p =>
      { p with query := p.query ++ String.ofList x } := by
  have hplain : '#' ∉ rest ++ x := by simp [hrest, hx]
  obtain ⟨before, after, rfl, hnot⟩ := List.eq_append_cons_of_mem hquery
  unfold assemble
  rw [partition_of_not_mem hplain, partition_of_not_mem hrest]
  dsimp only
  rw [List.append_assoc, List.cons_append, partition_append hnot, partition_append hnot]
  split
  · simp
  · rfl

theorem SchemeIn.no_question {s scheme rest : List Char} (h : SchemeIn s scheme rest) :
    '?' ∈ s ↔ '?' ∈ rest := by
  obtain ⟨before, rfl, -, hall, -⟩ := h.cut
  have hnot : '?' ∉ before := fun hmem => absurd (List.all_eq_true.mp hall _ hmem) (by decide)
  simp [hnot]

theorem urlparse_no_query {url : String} {p : Parsed} (h : urlparse url = some p)
    (hscheme : p.scheme ≠ "") (hnetloc : p.netloc ≠ "") (hplain : '?' ∉ url.toList) :
    p.query = "" := by
  obtain ⟨scheme, netloc, rest, hloc⟩ := urlparse_located h hscheme hnetloc
  have hrest : '?' ∉ rest := by
    intro hmem
    refine hplain ((mem_sanitize (by decide) (by decide)).mp ?_)
    rw [hloc.scheme_in.no_question]
    simp [hmem]
  have hassembled := hloc.assembled
  unfold assemble at hassembled
  split at hassembled
  · obtain ⟨path, found, fragment, hcut⟩ : ∃ a b d, partition '#' rest = (a, b, d) := ⟨_, _, _, rfl⟩
    -- the path is cut off before the fragment, hence has no question mark either
    have hpath : '?' ∉ path := by
      rcases partition_cases '#' rest with ⟨hcut', -⟩ | ⟨before, after, hcut', rfl, -⟩
      · rw [hcut'] at hcut
        cases hcut
        exact hrest
      · rw [hcut'] at hcut
        cases hcut
        exact fun hmem => hrest (List.mem_append_left _ hmem)
    rw [hcut] at hassembled
    dsimp only at hassembled
    rw [partition_of_not_mem hpath] at hassembled
    cases hassembled
    rfl
  · cases hassembled

/-- What `_client_redirect` joins a query with. -/
def separator (url : String) : Char := if url.toList.contains '?' then '&' else '?'

/-- The query of a text that another one is appended to. -/
def longer (url : String) (query : String) (q : List Char) : String :=
  if url.toList.contains '?' then query ++ String.ofList ('&' :: q) else String.ofList q

/-- A query that is appended changes nothing but the query, if the text has no
    fragment marker. -/
theorem urlparse_query {url : String} {p : Parsed} {q : List Char} (h : urlparse url = some p)
    (hscheme : p.scheme ≠ "") (hnetloc : p.netloc ≠ "") (hplain : '#' ∉ url.toList)
    (hq : ∀ c ∈ q, isKept c = true ∧ c ≠ '#') :
    urlparse (url ++ String.ofList (separator url :: q)) =
      some { p with query := longer url p.query q } := by
  obtain ⟨scheme, netloc, rest, hloc⟩ := urlparse_located h hscheme hnetloc
  have hrest : '#' ∉ rest := by
    intro hmem
    obtain ⟨before, hs, -⟩ := hloc.scheme_in.cut
    refine hplain ((mem_sanitize (by decide) (by decide)).mp ?_)
    rw [hs]
    simp [hmem]
  have hquestion : '?' ∈ url.toList ↔ '?' ∈ rest := by
    rw [← mem_sanitize (by decide) (by decide), hloc.scheme_in.no_question]
    have hnetloc : '?' ∉ netloc := fun hmem => absurd (hloc.netloc_in _ hmem) (by decide)
    simp [hnetloc]
  have hfragment : '#' ∉ q := fun hmem => (hq _ hmem).2 rfl
  have hkept : ∀ c ∈ q, isKept c = true := fun c hc => (hq c hc).1
  unfold separator longer
  -- the added parameters follow an ampersand if there is a query, else they begin one
  by_cases hmem : '?' ∈ url.toList
  · rw [if_pos (by simpa using hmem), if_pos (by simpa using hmem)]
    have hin := hquestion.mp hmem
    refine (hloc.append ?_ ?_ ?_).urlparse
    · exact List.forall_mem_cons.mpr ⟨by decide, hkept⟩
    · intro c hc
      refine hloc.rest_out c ?_
      cases rest with
      | nil => cases hin
      | cons d rest => exact hc
    · rw [assemble_more hin hrest (by simp [hfragment]), hloc.assembled]
      rfl
  · rw [if_neg (by simpa using hmem), if_neg (by simpa using hmem)]
    have hout := mt hquestion.mpr hmem
    refine (hloc.append ?_ ?_ ?_).urlparse
    · exact List.forall_mem_cons.mpr ⟨by decide, hkept⟩
    · intro c hc
      cases rest with
      | nil =>
        cases hc
        decide
      | cons d rest => exact hloc.rest_out c hc
    · rw [assemble_question hout hrest hfragment, hloc.assembled]
      rfl

end Url
