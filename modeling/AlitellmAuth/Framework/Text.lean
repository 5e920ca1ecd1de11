import Mathlib.Data.List.Basic
import Mathlib.Data.List.DropRight
import AlitellmAuth.Framework.CaseTables

/-! # Text

    The string functions of the modelled languages, on lists of characters and
    wrapped for strings: whitespace trimming and splitting, joining, and
    lowercasing in its full (context-sensitive) and its simple form.
-/

namespace Text

/-! ## Whitespace -/

/-- What `str.isspace` accepts: the Unicode White_Space characters and the
    four information separators. -/
def isSpace (c : Char) : Bool :=
  inRanges [(0x09, 0x0D), (0x1C, 0x20), (0x85, 0x85), (0xA0, 0xA0), (0x1680, 0x1680),
    (0x2000, 0x200A), (0x2028, 0x2029), (0x202F, 0x202F), (0x205F, 0x205F), (0x3000, 0x3000)] c

/-- `str.strip` on characters. -/
def stripChars (s : List Char) : List Char :=
  ((s.dropWhile isSpace).reverse.dropWhile isSpace).reverse

/-- `str.strip()`. -/
def strip (s : String) : String := String.ofList (stripChars s.toList)

/-- `str.split` on characters; the first argument is the current word, reversed. -/
def splitChars : List Char → List Char → List (List Char)
  | cur, [] => if cur = [] then [] else [cur.reverse]
  | cur, c :: s =>
      if isSpace c then
        if cur = [] then splitChars [] s else cur.reverse :: splitChars [] s
      else splitChars (c :: cur) s

/-- `str.split()`: the maximal runs of characters that are not whitespace. -/
def split (s : String) : List String := (splitChars [] s.toList).map String.ofList

/-- `" ".join` on characters. -/
def joinChars : List (List Char) → List Char
  | [] => []
  | [w] => w
  | w :: ws => w ++ ' ' :: joinChars ws

/-- `" ".join(words)`. -/
def join (words : List String) : String := String.ofList (joinChars (words.map String.toList))

/-! ## Case -/

/-- The simple lowercase mapping of one character. -/
def simpleLower (ranges : List CaseRange) (c : Char) : Char :=
  match ranges.find? (·.covers c.toNat) with
  | some r => Char.ofNat (c.toNat + r.delta).toNat
  | none => c

/-- The character U+0130, whose full lowercase form has two characters. -/
def dottedI : Char := Char.ofNat 0x130

/-- The capital sigma, whose lowercase form depends on its neighbours. -/
def capitalSigma : Char := Char.ofNat 0x3A3

/-- The final-sigma condition: a cased character before, none after, case-ignorable
    ones skipped. `before` is the text before the sigma, reversed. -/
def finalSigma (before after : List Char) : Bool :=
  (match before.dropWhile (inRanges caseIgnorableRanges) with
    | c :: _ => inRanges casedRanges c
    | [] => false) &&
  (match after.dropWhile (inRanges caseIgnorableRanges) with
    | c :: _ => !inRanges casedRanges c
    | [] => true)

/-- The full lowercase form of one character in its context. -/
def lowerChar (before after : List Char) (c : Char) : List Char :=
  if c = dottedI then [Char.ofNat 0x69, Char.ofNat 0x307]
  else if c = capitalSigma then
    [if finalSigma before after then Char.ofNat 0x3C2 else Char.ofNat 0x3C3]
  else [simpleLower (lowerRanges ++ lowerRanges16) c]

/-- `str.lower` on characters, after the (reversed) text `before`. -/
def lowerChars : List Char → List Char → List Char
  | _, [] => []
  | before, c :: after => lowerChar before after c ++ lowerChars (c :: before) after

/-- Python's `str.lower()`. -/
def lower (s : String) : String := String.ofList (lowerChars [] s.toList)

/-- The full uppercase form of one character. -/
def upperChar (c : Char) : List Char :=
  match upperSpecial.lookup c.toNat with
  | some cs => cs.map Char.ofNat
  | none =>
      match (upperRanges ++ upperRanges16).find? (·.covers c.toNat) with
      | some r => [Char.ofNat (c.toNat + r.delta).toNat]
      | none => [c]

/-- Python's `str.upper()`. -/
def upper (s : String) : String := String.ofList (s.toList.flatMap upperChar)

/-- Go's `unicode.ToLower`. -/
def goLowerChar (c : Char) : Char :=
  if c = dottedI then Char.ofNat 0x69 else simpleLower lowerRanges c

/-- Go's `strings.ToLower`. -/
def goToLower (s : String) : String := String.ofList (s.toList.map goLowerChar)

def hasInfix (needle : List Char) : List Char → Bool
  | [] => needle.isEmpty
  | c :: s => needle.isPrefixOf (c :: s) || hasInfix needle s

/-- Python's `needle in s`. -/
def includes (needle s : String) : Bool := hasInfix needle.toList s.toList

/-! ## Go's `strings` package -/

/-- Go's `unicode.IsSpace`: without the information separators. -/
def goIsSpace (c : Char) : Bool :=
  inRanges [(0x09, 0x0D), (0x20, 0x20), (0x85, 0x85), (0xA0, 0xA0), (0x1680, 0x1680),
    (0x2000, 0x200A), (0x2028, 0x2029), (0x202F, 0x202F), (0x205F, 0x205F), (0x3000, 0x3000)] c

/-- `strings.TrimSpace`. -/
def trimSpace (s : String) : String :=
  String.ofList (((s.toList.dropWhile goIsSpace).reverse.dropWhile goIsSpace).reverse)

/-- `strings.TrimRight(s, c)` for one character. -/
def trimRight (c : Char) (s : String) : String :=
  String.ofList (s.toList.reverse.dropWhile (· == c)).reverse

/-- `strings.Fields`. -/
def fields (s : String) : List String :=
  ((s.toList.splitOnP goIsSpace).filter (· != [])).map String.ofList

/-- `strings.HasPrefix(s, p)`. -/
def startsWith (p s : String) : Bool := p.toList.isPrefixOf s.toList

/-- `strings.CutPrefix(s, p)`. -/
def cutFront (p s : String) : Option String :=
  if startsWith p s then some (String.ofList (s.toList.drop p.toList.length)) else none

/-- `strings.TrimPrefix(s, p)`. -/
def trimFront (p s : String) : String := (cutFront p s).getD s

/-- `strings.TrimSuffix(s, p)`. -/
def trimBack (p s : String) : String :=
  if p.toList.isSuffixOf s.toList then String.ofList (s.toList.take (s.toList.length - p.toList.length))
  else s

/-- `strings.Count(s, c)` for one character. -/
def count (c : Char) (s : String) : Nat := s.toList.count c

theorem trimRight_trimRight (c : Char) (s : String) : trimRight c (trimRight c s) = trimRight c s := by
  simp [trimRight, List.dropWhile_idempotent]

theorem cutFront_append (p s : String) : cutFront p (p ++ s) = some s := by
  simp [cutFront, startsWith, String.toList_append]

theorem append_of_cutFront {p s rest : String} (h : cutFront p s = some rest) : s = p ++ rest := by
  unfold cutFront startsWith at h
  split at h
  · next hp =>
    obtain ⟨t, ht⟩ := List.isPrefixOf_iff_prefix.mp hp
    obtain rfl := Option.some.inj h
    rw [← ht, List.drop_left, ← String.ofList_toList (s := s), ← ht]
    simp
  · cases h

/-! ## Splitting what was joined -/

/-- A word: what `split` produces. -/
def IsWord (w : String) : Prop := w.toList ≠ [] ∧ ∀ c ∈ w.toList, isSpace c = false

theorem isSpace_space : isSpace ' ' = true := by decide

theorem splitChars_append_space (cur s t : List Char) :
    splitChars cur (s ++ ' ' :: t) = splitChars cur s ++ splitChars [] t := by
  induction s generalizing cur with
  | nil =>
    simp only [List.nil_append, splitChars, isSpace_space, if_true]
    split <;> simp
  | cons c s ih =>
    simp only [List.cons_append, splitChars]
    split
    · split
      · exact ih []
      · rw [ih [], List.cons_append]
    · exact ih (c :: cur)

theorem splitChars_word (cur w : List Char) (hw : ∀ c ∈ w, isSpace c = false)
    (hne : cur ≠ [] ∨ w ≠ []) : splitChars cur w = [cur.reverse ++ w] := by
  induction w generalizing cur with
  | nil =>
    have hcur : cur ≠ [] := by simpa using hne
    simp [splitChars, hcur]
  | cons c w ih =>
    have hc : isSpace c = false := hw c List.mem_cons_self
    simp only [splitChars, hc, Bool.false_eq_true, if_false]
    rw [ih (c :: cur) (fun d hd => hw d (List.mem_cons_of_mem _ hd)) (Or.inl (by simp))]
    simp

theorem splitChars_spec (cur s : List Char) (hcur : ∀ c ∈ cur, isSpace c = false)
    {w : List Char} (hw : w ∈ splitChars cur s) : w ≠ [] ∧ ∀ c ∈ w, isSpace c = false := by
  induction s generalizing cur with
  | nil =>
    simp only [splitChars] at hw
    split at hw
    · cases hw
    · next hne =>
      obtain rfl := List.mem_singleton.mp hw
      exact ⟨by simpa using hne, by simpa using hcur⟩
  | cons c s ih =>
    simp only [splitChars] at hw
    split at hw
    · split at hw
      · exact ih [] (by simp) hw
      · next hne =>
        rcases List.mem_cons.mp hw with rfl | hw
        · exact ⟨by simpa using hne, by simpa using hcur⟩
        · exact ih [] (by simp) hw
    · next hc =>
      refine ih (c :: cur) ?_ hw
      intro d hd
      rcases List.mem_cons.mp hd with rfl | hd
      · simpa using hc
      · exact hcur d hd

/-- `split` yields words. -/
theorem isWord_of_mem_split {s w : String} (h : w ∈ split s) : IsWord w := by
  obtain ⟨cs, hcs, rfl⟩ := List.mem_map.mp h
  simpa [IsWord] using splitChars_spec [] s.toList (by simp) hcs

theorem splitChars_joinChars (a : List Char) (ws : List (List Char))
    (hws : ∀ w ∈ ws, w ≠ [] ∧ ∀ c ∈ w, isSpace c = false) :
    splitChars [] (joinChars (a :: ws)) = splitChars [] a ++ ws := by
  induction ws generalizing a with
  | nil => simp [joinChars]
  | cons w ws ih =>
    have hw := hws w List.mem_cons_self
    rw [joinChars, splitChars_append_space, ih w fun v hv => hws v (List.mem_cons_of_mem _ hv),
      splitChars_word [] w hw.2 (Or.inr hw.1)]
    · simp
    · simp

/-- Joining a string with words and splitting again gives the words of the
    string followed by the words. -/
theorem split_join (a : String) (ws : List String) (hws : ∀ w ∈ ws, IsWord w) :
    split (join (a :: ws)) = split a ++ ws := by
  have h := splitChars_joinChars a.toList (ws.map String.toList) (by
    intro w hw
    obtain ⟨v, hv, rfl⟩ := List.mem_map.mp hw
    exact hws v hv)
  simp only [split, join, List.map_cons, String.toList_ofList, h, List.map_append, List.map_map]
  congr 1
  exact (List.map_congr_left fun w _ => String.ofList_toList).trans (List.map_id _)

/-- A word is its only word. -/
theorem split_word {w : String} (hw : IsWord w) : split w = [w] := by
  simp [split, splitChars_word [] w.toList hw.2 (.inr hw.1)]

theorem join_singleton (a : String) : join [a] = a := by
  simp [join, joinChars]

/-! ## Text that is already trimmed and lowercased

    If trimming and lowercasing a string gives the string back, then both
    steps leave it alone, and so does the simple mapping of every character:
    lowercasing can only lengthen a text that contains U+0130, and no
    lowercased text contains it. -/

/-- A range maps into valid characters, away from U+0130, and moves them. -/
def CaseRange.sound (r : CaseRange) : Bool :=
  r.delta != 0 && 0 < r.lo + r.delta &&
    (r.hi + r.delta < 0xD800 || 0xDFFF < r.lo + r.delta && r.hi + r.delta < 0x110000) &&
    (r.hi + r.delta < 0x130 || 0x130 < r.lo + r.delta)

theorem lowerRanges_sound : (lowerRanges ++ lowerRanges16).all CaseRange.sound = true := by
  decide +kernel

theorem CaseRange.toNat_target {r : CaseRange} (hr : r.sound = true) {c : Char}
    (hc : r.covers c.toNat = true) :
    (Char.ofNat (c.toNat + r.delta).toNat).toNat = (c.toNat + r.delta).toNat ∧
      ((c.toNat : Int) + r.delta).toNat ≠ c.toNat ∧ ((c.toNat : Int) + r.delta).toNat ≠ 0x130 := by
  simp only [CaseRange.sound, CaseRange.covers, Bool.and_eq_true, Bool.or_eq_true, bne_iff_ne,
    decide_eq_true_eq] at hr hc
  obtain ⟨⟨⟨hdelta, hpos⟩, hvalid⟩, hdotted⟩ := hr
  obtain ⟨⟨hlo, hhi⟩, -⟩ := hc
  refine ⟨?_, by omega, by omega⟩
  have hv : (c.toNat + r.delta).toNat.isValidChar := by
    unfold Nat.isValidChar
    omega
  rw [Char.ofNat, dif_pos hv]
  rfl

theorem simpleLower_eq_or (c : Char) :
    (lowerRanges ++ lowerRanges16).find? (·.covers c.toNat) = none ∧
        simpleLower (lowerRanges ++ lowerRanges16) c = c ∨
      simpleLower (lowerRanges ++ lowerRanges16) c ≠ c ∧
        simpleLower (lowerRanges ++ lowerRanges16) c ≠ dottedI := by
  cases hf : (lowerRanges ++ lowerRanges16).find? (·.covers c.toNat) with
  | none => exact .inl ⟨rfl, by simp only [simpleLower, hf]⟩
  | some r =>
    have hsound := List.all_eq_true.mp lowerRanges_sound r (List.mem_of_find?_eq_some hf)
    have hcov : r.covers c.toNat = true := by simpa using List.find?_some hf
    obtain ⟨ht, hne, hdot⟩ := r.toNat_target hsound hcov
    refine .inr ⟨?_, ?_⟩
    · intro heq
      simp only [simpleLower, hf] at heq
      exact hne (by rw [← ht, heq])
    · intro heq
      simp only [simpleLower, hf] at heq
      exact hdot (by rw [← ht, heq]; rfl)

theorem dottedI_not_mem_lowerChar (before after : List Char) (c : Char) :
    dottedI ∉ lowerChar before after c := by
  unfold lowerChar
  split
  · decide
  · next hc =>
    split
    · split <;> decide
    · rcases simpleLower_eq_or c with ⟨-, heq⟩ | ⟨-, hne⟩
      · rw [heq]; simpa using Ne.symm hc
      · simpa using Ne.symm hne

theorem dottedI_not_mem_lowerChars (before s : List Char) : dottedI ∉ lowerChars before s := by
  induction s generalizing before with
  | nil => simp [lowerChars]
  | cons c s ih =>
    simp only [lowerChars, List.mem_append, not_or]
    exact ⟨dottedI_not_mem_lowerChar before s c, ih (c :: before)⟩

theorem lowerChar_length {before after : List Char} {c : Char} (hc : c ≠ dottedI) :
    (lowerChar before after c).length = 1 := by
  unfold lowerChar
  split
  · contradiction
  · split <;> rfl

theorem lowerChars_length {before s : List Char} (hs : dottedI ∉ s) :
    (lowerChars before s).length = s.length := by
  induction s generalizing before with
  | nil => rfl
  | cons c s ih =>
    have hc : c ≠ dottedI := fun h => hs (h ▸ List.mem_cons_self)
    have htail : (lowerChars (c :: before) s).length = s.length :=
      ih fun h => hs (List.mem_cons_of_mem _ h)
    simp only [lowerChars, List.length_append, lowerChar_length hc, htail, List.length_cons]
    omega

theorem stripChars_infix (s : List Char) : stripChars s <:+: s := by
  have hsuf : (s.dropWhile isSpace) <:+ s := List.dropWhile_suffix _
  have hpre : stripChars s <+: s.dropWhile isSpace := by
    rw [stripChars, ← List.reverse_suffix, List.reverse_reverse]
    exact List.dropWhile_suffix _
  exact hpre.isInfix.trans hsuf.isInfix

theorem dropWhile_dropWhile {p : Char → Bool} (s : List Char) :
    (s.dropWhile p).dropWhile p = s.dropWhile p := by
  induction s with
  | nil => rfl
  | cons c s ih =>
    by_cases hc : p c = true
    · rw [List.dropWhile_cons_of_pos hc, ih]
    · rw [List.dropWhile_cons_of_neg hc, List.dropWhile_cons_of_neg hc]

/-- The head of a text that was stripped on the left is no space, and stays the
    head when it is stripped on the right. -/
theorem dropWhile_stripChars (s : List Char) : (stripChars s).dropWhile isSpace = stripChars s := by
  have hprefix : stripChars s <+: s.dropWhile isSpace := by
    rw [stripChars, ← List.reverse_suffix, List.reverse_reverse]
    exact List.dropWhile_suffix _
  cases h : stripChars s with
  | nil => rfl
  | cons c rest =>
    have hhead : isSpace c = false := by
      obtain ⟨tail, htail⟩ := hprefix
      rw [h, List.cons_append] at htail
      have hdrop := dropWhile_dropWhile (p := isSpace) s
      rw [← htail, List.dropWhile_cons] at hdrop
      by_contra hspace
      rw [if_pos (by simpa using hspace)] at hdrop
      have hlen := (List.dropWhile_suffix isSpace (l := rest ++ tail)).length_le
      rw [hdrop, List.length_cons] at hlen
      omega
    exact List.dropWhile_cons_of_neg (by simp [hhead])

theorem strip_strip (s : String) : strip (strip s) = strip s := by
  unfold strip
  rw [String.toList_ofList]
  congr 1
  have hleft := dropWhile_stripChars s.toList
  rw [stripChars, hleft, stripChars, List.reverse_reverse, dropWhile_dropWhile]

/-- Characters that lowercasing in place leaves alone. -/
theorem lowerChars_eq_self {before s : List Char} (h : lowerChars before s = s) :
    ∀ c ∈ s, goLowerChar c = c := by
  have hdot : dottedI ∉ s := h ▸ dottedI_not_mem_lowerChars before s
  induction s generalizing before with
  | nil => simp
  | cons c s ih =>
    have hc : c ≠ dottedI := fun heq => hdot (heq ▸ List.mem_cons_self)
    have hone : (lowerChar before s c).length = 1 := lowerChar_length hc
    obtain ⟨x, hx⟩ := List.length_eq_one_iff.mp hone
    rw [lowerChars, hx, List.singleton_append] at h
    obtain ⟨rfl, htail⟩ := List.cons.inj h
    intro d hd
    rcases List.mem_cons.mp hd with rfl | hd
    · -- the head is neither the dotted i nor a capital sigma, so it maps to itself
      simp only [lowerChar, hc, if_false] at hx
      split at hx
      · next hsigma =>
        subst hsigma
        split at hx <;> cases hx
      · have hself := List.singleton_inj.mp hx
        rcases simpleLower_eq_or d with ⟨hnone, -⟩ | ⟨hne, -⟩
        · rw [List.find?_append, Option.or_eq_none_iff] at hnone
          simp only [goLowerChar, hc, if_false, simpleLower, hnone.1]
        · exact absurd hself hne
    · exact ih htail (fun hm => hdot (List.mem_cons_of_mem _ hm)) d hd

/-- A text that is its own trimmed lowercase form is fixed by each step of the
    normalisation, in either language. -/
theorem fixed_of_lower_strip {s : String} (h : lower (strip s) = s) :
    strip s = s ∧ goToLower s = s := by
  have hchars : lowerChars [] (stripChars s.toList) = s.toList := by
    have := congrArg String.toList h
    simpa [lower, strip] using this
  have hin := stripChars_infix s.toList
  have hdot : dottedI ∉ s.toList := by
    rw [← hchars]; exact dottedI_not_mem_lowerChars _ _
  have hlen : (stripChars s.toList).length = s.toList.length := by
    have hl : (lowerChars [] (stripChars s.toList)).length = (stripChars s.toList).length :=
      lowerChars_length fun hm => hdot (hin.subset hm)
    rw [← hl, hchars]
  have hstrip : stripChars s.toList = s.toList := hin.eq_of_length hlen
  rw [hstrip] at hchars
  refine ⟨by simp [strip, hstrip], ?_⟩
  have hmap : s.toList.map goLowerChar = s.toList := by
    conv_rhs => rw [← List.map_id s.toList]
    exact List.map_congr_left fun c hc => lowerChars_eq_self hchars c hc
  simp [goToLower, hmap]

/-! ## The case of ASCII letters -/

/-- What is the same for the capital and the small letter does not see ASCII case. -/
theorem toLower_same {β : Type} {f : Char → β}
    (h : ∀ n < 26, f (Char.ofNat (97 + n)) = f (Char.ofNat (65 + n))) (c : Char) :
    f c.toLower = f c := by
  by_cases hc : 65 ≤ c.toNat ∧ c.toNat ≤ 90
  · have hcap : c = Char.ofNat (65 + (c.toNat - 65)) := by
      rw [show 65 + (c.toNat - 65) = c.toNat by omega, Char.ofNat_toNat]
    have hsmall : ∀ n < 26, (Char.ofNat (65 + n)).toLower = Char.ofNat (97 + n) := by decide
    have hn : c.toNat - 65 < 26 := by omega
    rw [hcap, hsmall _ hn, h _ hn]
  · have hsame : c.toLower = c := by
      unfold Char.toLower
      rw [dif_neg]
      rintro ⟨hlo, hhi⟩
      exact hc ⟨hlo, hhi⟩
    rw [hsame]

theorem isSpace_toLower (c : Char) : isSpace c.toLower = isSpace c :=
  toLower_same (by decide) c

theorem cased_toLower (c : Char) : inRanges casedRanges c.toLower = inRanges casedRanges c :=
  toLower_same (by decide +kernel) c

theorem caseIgnorable_toLower (c : Char) :
    inRanges caseIgnorableRanges c.toLower = inRanges caseIgnorableRanges c :=
  toLower_same (by decide +kernel) c

/-- A predicate that does not see ASCII case skips the same characters. -/
theorem dropWhile_toLower {p : Char → Bool} (hp : ∀ c, p c.toLower = p c) (s : List Char) :
    (s.map Char.toLower).dropWhile p = (s.dropWhile p).map Char.toLower := by
  have hcomp : p ∘ Char.toLower = p := funext hp
  rw [List.dropWhile_map, hcomp]

theorem finalSigma_toLower (before after : List Char) :
    finalSigma (before.map Char.toLower) (after.map Char.toLower) = finalSigma before after := by
  unfold finalSigma
  rw [dropWhile_toLower caseIgnorable_toLower, dropWhile_toLower caseIgnorable_toLower]
  congr 1
  · cases before.dropWhile (inRanges caseIgnorableRanges) with
    | nil => rfl
    | cons c rest => exact cased_toLower c
  · cases after.dropWhile (inRanges caseIgnorableRanges) with
    | nil => rfl
    | cons c rest => exact congrArg (! ·) (cased_toLower c)

theorem lowerChar_toLower (before after : List Char) (c : Char) :
    lowerChar (before.map Char.toLower) (after.map Char.toLower) c.toLower =
      lowerChar before after c := by
  have hlower : ∀ sigma : Bool, (if c.toLower = dottedI then [Char.ofNat 0x69, Char.ofNat 0x307]
      else if c.toLower = capitalSigma then [if sigma then Char.ofNat 0x3C2 else Char.ofNat 0x3C3]
      else [simpleLower (lowerRanges ++ lowerRanges16) c.toLower]) =
      (if c = dottedI then [Char.ofNat 0x69, Char.ofNat 0x307]
      else if c = capitalSigma then [if sigma then Char.ofNat 0x3C2 else Char.ofNat 0x3C3]
      else [simpleLower (lowerRanges ++ lowerRanges16) c]) := by
    intro sigma
    refine @toLower_same _ (fun c => if c = dottedI then [Char.ofNat 0x69, Char.ofNat 0x307]
      else if c = capitalSigma then [if sigma then Char.ofNat 0x3C2 else Char.ofNat 0x3C3]
      else [simpleLower (lowerRanges ++ lowerRanges16) c]) ?_ c
    cases sigma <;> decide +kernel
  unfold lowerChar
  rw [finalSigma_toLower]
  exact hlower _

theorem lowerChars_toLower (before s : List Char) :
    lowerChars (before.map Char.toLower) (s.map Char.toLower) = lowerChars before s := by
  induction s generalizing before with
  | nil => rfl
  | cons c s ih =>
    rw [List.map_cons, lowerChars, lowerChars, lowerChar_toLower, ← ih (c :: before), List.map_cons]

theorem stripChars_toLower (s : List Char) :
    stripChars (s.map Char.toLower) = (stripChars s).map Char.toLower := by
  unfold stripChars
  rw [dropWhile_toLower isSpace_toLower, ← List.map_reverse, dropWhile_toLower isSpace_toLower,
    List.map_reverse]

/-- Trimming and lowercasing does not see the case of ASCII letters. -/
theorem lower_strip_toLower {s t : String} (h : s.toList.map Char.toLower = t.toList.map Char.toLower) :
    lower (strip s) = lower (strip t) := by
  have hchars : ∀ u : String, lowerChars [] (stripChars u.toList) =
      lowerChars [] (stripChars (u.toList.map Char.toLower)) := by
    intro u
    rw [stripChars_toLower]
    exact (lowerChars_toLower [] _).symm
  unfold lower strip
  rw [String.toList_ofList, String.toList_ofList, hchars s, hchars t, h]

/-- Whitespace around a text is trimmed away. -/
theorem strip_padded {before after : List Char} (s : String) (hbefore : ∀ c ∈ before, isSpace c = true)
    (hafter : ∀ c ∈ after, isSpace c = true) :
    strip (String.ofList (before ++ s.toList ++ after)) = strip s := by
  have hnil : after.dropWhile isSpace = [] := List.dropWhile_eq_nil_iff.mpr hafter
  have hright : ∀ xs : List Char,
      ((xs ++ after).reverse.dropWhile isSpace) = xs.reverse.dropWhile isSpace := by
    intro xs
    rw [List.reverse_append, List.dropWhile_append_of_pos fun c hc => hafter c (List.mem_reverse.mp hc)]
  unfold strip stripChars
  rw [String.toList_ofList, List.append_assoc, List.dropWhile_append_of_pos hbefore,
    List.dropWhile_append]
  split
  · next hempty => rw [List.isEmpty_iff.mp hempty, hnil]
  · rw [hright]

end Text
