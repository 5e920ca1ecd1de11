import AlitellmAuth.OauthAs.DeviceAuthenticity

/-! # Typed user codes

    A user reads a code on one device and types it on another. However they
    space it and case it, the code is looked up under the text that was shown.

    * `Retyped`: the ways of typing a code.
    * `normalize_retyped`: the code is found under what was shown.
    * `normalize_shape`: nothing but texts of that form is looked up.
    * `Displayed`, `FindsDevice`: a code that was shown, and what looking it up
      finds.
    * `user_codes_exact`: in every run, what is found is the device that showed
      the code.
-/

namespace AlitellmAuth

open Interleave Text

/-! ## Typing -/

/-- A code as it is typed: letters of either case, without the hyphen or with
    it, and spaces and hyphens anywhere. -/
inductive Retyped : List Char → List Char → Prop where
  | done : Retyped [] []
  | letter {c typed : Char} {code rest : List Char} (h : typed = c ∨ typed = c.toLower)
      (hrest : Retyped code rest) : Retyped (c :: code) (typed :: rest)
  | drop {code rest : List Char} (hrest : Retyped code rest) : Retyped ('-' :: code) rest
  | insert {c : Char} {code rest : List Char} (h : c = ' ' ∨ c = '-') (hrest : Retyped code rest) :
      Retyped code (c :: rest)

/-- What `_normalize_user_code` keeps. -/
def notSeparator (c : Char) : Bool := c != '-' && c != ' '

/-- A character of a code: a letter or the hyphen. -/
def CodeChar (c : Char) : Prop := c ∈ '-' :: USER_CODE_ALPHABET

theorem upper_typed {c typed : Char} (hc : CodeChar c) (h : typed = c ∨ typed = c.toLower) :
    upperChar typed = [c] := by
  have hall : ('-' :: USER_CODE_ALPHABET).all
      (fun c => upperChar c == [c] && upperChar c.toLower == [c]) = true := by
    decide +kernel
  have hboth := List.all_eq_true.mp hall c hc
  rw [Bool.and_eq_true, beq_iff_eq, beq_iff_eq] at hboth
  rcases h with rfl | rfl
  · exact hboth.1
  · exact hboth.2

theorem isSpace_typed {c typed : Char} (hc : CodeChar c) (h : typed = c ∨ typed = c.toLower) :
    isSpace typed = false := by
  have hall : ('-' :: USER_CODE_ALPHABET).all (fun c => !isSpace c && !isSpace c.toLower) = true := by
    decide +kernel
  have hboth := List.all_eq_true.mp hall c hc
  rw [Bool.and_eq_true, Bool.not_eq_true', Bool.not_eq_true'] at hboth
  rcases h with rfl | rfl
  · exact hboth.1
  · exact hboth.2

/-- In capitals and without separators the typed text is the code. -/
theorem filter_retyped {code typed : List Char} (h : Retyped code typed)
    (hcode : ∀ c ∈ code, CodeChar c) :
    (typed.flatMap upperChar).filter notSeparator = code.filter notSeparator := by
  induction h with
  | done => rfl
  | letter hc _ ih =>
    rw [List.flatMap_cons, upper_typed (hcode _ List.mem_cons_self) hc, List.singleton_append,
      List.filter_cons, List.filter_cons, ih fun c hc => hcode c (List.mem_cons_of_mem _ hc)]
  | drop _ ih =>
    rw [ih fun c hc => hcode c (List.mem_cons_of_mem _ hc)]
    rfl
  | insert hc _ ih =>
    rw [List.flatMap_cons, List.filter_append, ih hcode]
    rcases hc with rfl | rfl
    · rfl
    · rfl

/-- The only whitespace in it are spaces. -/
theorem space_retyped {code typed : List Char} (h : Retyped code typed)
    (hcode : ∀ c ∈ code, CodeChar c) : ∀ c ∈ typed, isSpace c = true → c = ' ' := by
  induction h with
  | done => simp
  | letter hc _ ih =>
    intro c hmem hspace
    rcases List.mem_cons.mp hmem with rfl | hmem
    · rw [isSpace_typed (hcode _ List.mem_cons_self) hc] at hspace
      cases hspace
    · exact ih (fun c hc => hcode c (List.mem_cons_of_mem _ hc)) c hmem hspace
  | drop _ ih => exact ih fun c hc => hcode c (List.mem_cons_of_mem _ hc)
  | insert hc _ ih =>
    intro c hmem hspace
    rcases List.mem_cons.mp hmem with rfl | hmem
    · rcases hc with rfl | rfl
      · rfl
      · exact absurd hspace (by decide)
    · exact ih hcode c hmem hspace

/-- Trimming takes away whitespace at both ends. -/
theorem stripChars_split (s : List Char) : ∃ before after, s = before ++ stripChars s ++ after ∧
    (∀ c ∈ before, isSpace c = true) ∧ ∀ c ∈ after, isSpace c = true := by
  refine ⟨s.takeWhile isSpace, ((s.dropWhile isSpace).reverse.takeWhile isSpace).reverse, ?_, ?_, ?_⟩
  · unfold stripChars
    rw [List.append_assoc, ← List.reverse_append, List.takeWhile_append_dropWhile, List.reverse_reverse,
      List.takeWhile_append_dropWhile]
  · exact fun c hc => List.mem_takeWhile_imp hc
  · exact fun c hc => List.mem_takeWhile_imp (List.mem_reverse.mp hc)

/-- Separators at the ends make no difference. -/
theorem filter_stripChars {s : List Char} (h : ∀ c ∈ s, isSpace c = true → c = ' ') :
    ((stripChars s).flatMap upperChar).filter notSeparator = (s.flatMap upperChar).filter notSeparator := by
  obtain ⟨before, after, hs, hbefore, hafter⟩ := stripChars_split s
  have hnone : ∀ xs : List Char, (∀ c ∈ xs, c = ' ') → (xs.flatMap upperChar).filter notSeparator = [] := by
    intro xs hxs
    induction xs with
    | nil => rfl
    | cons x xs ih =>
      rw [List.flatMap_cons, List.filter_append, ih fun c hc => hxs c (List.mem_cons_of_mem _ hc),
        hxs x List.mem_cons_self]
      rfl
  have hleft := hnone before fun c hc =>
    h c (by rw [hs]; exact List.mem_append_left _ (List.mem_append_left _ hc)) (hbefore c hc)
  have hright := hnone after fun c hc =>
    h c (by rw [hs]; exact List.mem_append_right _ hc) (hafter c hc)
  conv_rhs => rw [hs]
  rw [List.flatMap_append, List.flatMap_append, List.filter_append, List.filter_append, hleft, hright,
    List.append_nil, List.nil_append]

/-- What `_new_user_code` can produce. -/
def IsUserCode (code : String) : Prop :=
  ∃ raw, (Draw.letters USER_CODE_ALPHABET 8).admits raw = true ∧ code = hyphenate raw.toList

theorem hyphenate_toList (raw : List Char) :
    (hyphenate raw).toList = raw.take 4 ++ '-' :: raw.drop 4 := by
  unfold hyphenate
  exact String.toList_ofList

theorem letters_admits {raw : String} (h : (Draw.letters USER_CODE_ALPHABET 8).admits raw = true) :
    raw.toList.length = 8 ∧ ∀ c ∈ raw.toList, c ∈ USER_CODE_ALPHABET := by
  unfold Draw.admits at h
  rw [Bool.and_eq_true, beq_iff_eq, List.all_eq_true] at h
  exact ⟨h.1, fun c hc => by simpa using h.2 c hc⟩

/-- Without the hyphen a code is what was drawn. -/
theorem filter_hyphenate {raw : List Char} (h : ∀ c ∈ raw, c ∈ USER_CODE_ALPHABET) :
    (hyphenate raw).toList.filter notSeparator = raw := by
  have hkeep : USER_CODE_ALPHABET.all notSeparator = true := by decide
  have hself : ∀ xs : List Char, xs ⊆ raw → xs.filter notSeparator = xs := fun xs hxs =>
    List.filter_eq_self.mpr fun c hc => List.all_eq_true.mp hkeep c (h c (hxs hc))
  rw [hyphenate_toList, List.filter_append, hself _ (List.take_subset 4 raw), List.filter_cons]
  show raw.take 4 ++ (raw.drop 4).filter notSeparator = raw
  rw [hself _ (List.drop_subset 4 raw), List.take_append_drop]

theorem hyphenate_injective {raw raw' : String}
    (h : (Draw.letters USER_CODE_ALPHABET 8).admits raw = true)
    (h' : (Draw.letters USER_CODE_ALPHABET 8).admits raw' = true)
    (heq : hyphenate raw.toList = hyphenate raw'.toList) : raw = raw' := by
  apply String.toList_injective
  rw [← filter_hyphenate (letters_admits h).2, heq, filter_hyphenate (letters_admits h').2]

/-- Every way of typing a code normalises to it. -/
theorem normalize_retyped {code typed : String} (hcode : IsUserCode code)
    (h : Retyped code.toList typed.toList) : normalize_user_code typed = code := by
  obtain ⟨raw, hraw, rfl⟩ := hcode
  obtain ⟨hlength, hletters⟩ := letters_admits hraw
  have hchars : ∀ c ∈ (hyphenate raw.toList).toList, CodeChar c := by
    intro c hc
    rw [hyphenate_toList] at hc
    rcases List.mem_append.mp hc with hc | hc
    · exact List.mem_cons_of_mem _ (hletters c (List.mem_of_mem_take hc))
    · rcases List.mem_cons.mp hc with rfl | hc
      · exact List.mem_cons_self
      · exact List.mem_cons_of_mem _ (hletters c (List.mem_of_mem_drop hc))
  have hfilter : (upper (strip typed)).toList.filter notSeparator = raw.toList := by
    unfold upper strip
    rw [String.toList_ofList, String.toList_ofList, filter_stripChars (space_retyped h hchars),
      filter_retyped h hchars, filter_hyphenate hletters]
  unfold normalize_user_code
  show (if ((upper (strip typed)).toList.filter notSeparator).length = 8 then
    hyphenate ((upper (strip typed)).toList.filter notSeparator) else "") = _
  rw [hfilter, if_pos hlength]

/-- Whatever is typed, nothing or a text of nine characters is looked up, with a
    hyphen in the fifth place. -/
theorem normalize_shape (typed : String) : normalize_user_code typed = "" ∨
    (normalize_user_code typed).toList.length = 9 ∧
      (normalize_user_code typed).toList[4]? = some '-' := by
  unfold normalize_user_code
  dsimp only
  generalize (upper (strip typed)).toList.filter (fun c => c != '-' && c != ' ') = s
  by_cases hlength : s.length = 8
  · refine .inr ?_
    rw [if_pos hlength, hyphenate_toList]
    constructor
    · rw [List.length_append, List.length_take, List.length_cons, List.length_drop]
      omega
    · rw [List.getElem?_append_right (by rw [List.length_take]; omega), List.length_take]
      have hzero : 4 - min 4 s.length = 0 := by omega
      rw [hzero]
      rfl
  · exact .inl (if_neg hlength)

/-! ## The index -/

section
variable {E : Env} {ok : AsConfig → AsConfig → Prop} {c : AsConfig}

/-- Thread `n` has answered a device login with the code `code` for `d`. -/
def Displayed (c : AsConfig) (n : Nat) (d code : String) : Prop :=
  ∃ client_id uri expires_in interval, c.request n = some (.device_authorization client_id) ∧
    c.response n = some (.device_authorization d code uri expires_in interval)

/-- The entry of the index that thread `n` writes. -/
def indexEntry (n : Nat) (d code : String) : AsEntry :=
  ⟨n, ⟨.put .device_user code ⟨d⟩ (some DEVICE_TTL), ()⟩⟩

/-- Thread `n` has indexed `d` when the clock stood at `since`. -/
def IndexedAt (E : Env) (c : AsConfig) (n : Nat) (d code : String) (since : Nat) : Prop :=
  ∃ c₀ c₁ l, Reached E c₀ ∧ c₀.step (handler E) l = some c₁ ∧
    c₁.log = indexEntry n d code :: c₀.log ∧ c₀.world.now = since ∧
    Leads (handler E) (fun _ _ => True) c₁ c

/-- No callback has settled the device code. -/
def Unsettled (c : AsConfig) (d : String) : Prop :=
  ∀ j v ttl, (⟨j, ⟨.put .device d v ttl, ()⟩⟩ : AsEntry) ∈ c.log → v.status = .pending

/-- What looking up a typed code finds: no other device than `d`, and `d` itself
    from the time its code was indexed until it expires or is settled. A browser
    that confirms the code is sent to the login of `d`. -/
structure FindsDevice (E : Env) (c : AsConfig) (n : Nat) (d code typed : String) : Prop where
  only : ∀ index, c.world.lookup .device_user (normalize_user_code typed) = some index →
    index.device_code = d
  found : ∃ since, IndexedAt E c n d code since ∧
    (c.world.now < since + DEVICE_TTL → Unsettled c d →
      c.world.lookup .device_user (normalize_user_code typed) = some ⟨d⟩)
  confirmed : ∀ m origin referer, c.request m = some (.device_confirm origin referer typed) →
    ∀ key v ttl, (⟨m, ⟨.put .pending key v ttl, ()⟩⟩ : AsEntry) ∈ c.log →
    v = .device d [E.as_audience]

/-- An index is kept as long as its device. -/
def IndexTtl (r : Request) (e : AsEvent) : Prop :=
  ∀ client_id key v ttl, r = .device_authorization client_id →
    e = ⟨.put .device_user key v ttl, ()⟩ → ttl = some DEVICE_TTL

/-- A code is shown right after it was indexed. -/
def ShownIndexed (r : Request) (tr : AsTrace) (res : Response) : Prop :=
  ∀ client_id d code uri expires_in interval, r = .device_authorization client_id →
    res = .device_authorization d code uri expires_in interval →
    ∃ past, tr = ⟨.put .device_user code ⟨d⟩ (some DEVICE_TTL), ()⟩ :: past

theorem device_authorization_shows (client_id : String) :
    (device_authorization E client_id).Along (fun _ => IndexTtl (.device_authorization client_id))
      (ShownIndexed (.device_authorization client_id)) [] := by
  refine along_await fun found => ⟨by simp [IndexTtl], ?_⟩
  cases found with
  | none => exact fun _ _ _ _ _ _ _ hres => by cases hres
  | some client =>
    refine along_await fun device_code => ⟨by simp [IndexTtl], ?_⟩
    refine along_await fun raw => ⟨by simp [IndexTtl], ?_⟩
    refine along_await fun _ => ⟨by simp [IndexTtl], ?_⟩
    refine along_await fun _ => ⟨?_, ?_⟩
    · intro _ _ _ _ _ heq
      cases heq
      rfl
    · intro _ _ _ _ _ _ _ hres
      cases hres
      exact ⟨_, rfl⟩

theorem handler_shows (r : Request) :
    (handler E r).Along (fun _ => IndexTtl r) (ShownIndexed r) [] := by
  by_cases hr : ∃ client_id, r = .device_authorization client_id
  · obtain ⟨client_id, rfl⟩ := hr
    exact device_authorization_shows client_id
  · refine along_mono (fun _ _ h => h) ?_ (along_of_forall ?_ _ _)
    · intro _ _ _ client_id _ _ _ _ _ hreq
      exact absurd ⟨client_id, hreq⟩ hr
    · intro _ _ client_id _ _ _ hreq
      exact absurd ⟨client_id, hreq⟩ hr

theorem index_ttl (h : Reach (handler E) ok c) {i : Nat} {code : String} {v : DeviceUser}
    {ttl : Option Nat} (hmem : (⟨i, ⟨.put .device_user code v ttl, ()⟩⟩ : AsEntry) ∈ c.log) :
    ttl = some DEVICE_TTL := by
  obtain ⟨past, hs⟩ := exists_suffix_of_mem hmem
  obtain ⟨r, hr, httl⟩ := ((reach_contracted handler_shows h).1).at hs
  obtain ⟨r', hr', client_id, rec, ttl', tr₀, rfl, -⟩ := performed h hs
  exact httl client_id code v ttl (request_unique hr hr') rfl

theorem Displayed.indexed (h : Reach (handler E) ok c) {n : Nat} {d code : String}
    (hd : Displayed c n d code) : indexEntry n d code ∈ c.log := by
  obtain ⟨client_id, uri, expires_in, interval, hr, hres⟩ := hd
  unfold Config.request at hr
  unfold Config.response at hres
  split at hres
  · next r res hth =>
    cases hres
    rw [hth] at hr
    have hr : r = .device_authorization client_id := Option.some.inj hr
    have hshown := (reach_contracted handler_shows h).2 n _ hth
    obtain ⟨past, htr⟩ := hshown client_id d code uri expires_in interval hr rfl
    exact mem_traceOf.mp (htr ▸ List.mem_cons_self)
  · cases hres

/-- What a thread has done when it indexes a device code. -/
theorem index_trace (h : Reach (handler E) ok c) {i : Nat} {code : String} {v : DeviceUser}
    {ttl : Option Nat} {past : AsLog}
    (hs : (⟨i, ⟨.put .device_user code v ttl, ()⟩⟩ : AsEntry) :: past <:+ c.log) :
    ∃ raw client_id client rec ttl', code = hyphenate raw.toList ∧
      c.request i = some (.device_authorization client_id) ∧
      traceOf i past = [⟨.put .device v.device_code rec ttl', ()⟩,
        ⟨.draw (.letters USER_CODE_ALPHABET 8), raw⟩, ⟨.draw (.urlsafe 32), v.device_code⟩,
        ⟨.get .client client_id, some client⟩] := by
  obtain ⟨r, hr, client_id, rec, ttl', tr₀, rfl, htr, hcode⟩ := performed h hs
  have hput : (⟨.put .device v.device_code rec ttl', ()⟩ : AsEvent) :: tr₀ <:+ traceOf i c.log := by
    rw [← htr]
    exact traceOf_suffix ((List.suffix_cons _ _).trans hs)
  obtain ⟨r', hr', hputs⟩ := performed_trace h hput
  cases request_unique hr hr'
  cases hputs with
  | @created _ raw client => exact ⟨raw, client_id, client, _, ttl', hcode.symm, hr, htr⟩
  | settled hlogged => cases hlogged

/-- The letters of an index were drawn. -/
theorem index_drawn (h : Reach (handler E) ok c) {i : Nat} {code : String} {v : DeviceUser}
    {ttl : Option Nat} {past : AsLog}
    (hs : (⟨i, ⟨.put .device_user code v ttl, ()⟩⟩ : AsEntry) :: past <:+ c.log) :
    ∃ raw, code = hyphenate raw.toList ∧
      (Draw.letters USER_CODE_ALPHABET 8).admits raw = true ∧
      (⟨i, ⟨.draw (.letters USER_CODE_ALPHABET 8), raw⟩⟩ : AsEntry) ∈ c.log := by
  obtain ⟨raw, client_id, client, rec, ttl', hcode, -, htr⟩ := index_trace h hs
  have hmem : (⟨i, ⟨.draw (.letters USER_CODE_ALPHABET 8), raw⟩⟩ : AsEntry) ∈ past := by
    rw [← mem_traceOf, htr]
    exact List.mem_cons_of_mem _ List.mem_cons_self
  have hlog := ((List.suffix_cons _ _).trans hs).subset hmem
  obtain ⟨past', hdraw⟩ := exists_suffix_of_mem hlog
  exact ⟨raw, hcode, ((reach_ledger h).at hdraw).1, hlog⟩

/-- A code is indexed for one device: it was drawn by one thread, which writes
    one index. -/
theorem index_unique (h : Reach (handler E) ok c) {i j : Nat} {code : String} {v w : DeviceUser}
    {ttl ttl' : Option Nat}
    (hi : (⟨i, ⟨.put .device_user code v ttl, ()⟩⟩ : AsEntry) ∈ c.log)
    (hj : (⟨j, ⟨.put .device_user code w ttl', ()⟩⟩ : AsEntry) ∈ c.log) : i = j ∧ v = w := by
  obtain ⟨pi, hi⟩ := exists_suffix_of_mem hi
  obtain ⟨pj, hj⟩ := exists_suffix_of_mem hj
  obtain ⟨raw, hcode, hadmits, hdraw⟩ := index_drawn h hi
  obtain ⟨raw', hcode', hadmits', hdraw'⟩ := index_drawn h hj
  obtain rfl := hyphenate_injective hadmits hadmits' (hcode.symm.trans hcode')
  obtain rfl := drawn_by_one (reach_ledger h) hdraw hdraw'
  refine ⟨rfl, ?_⟩
  -- both have the same number of steps behind them
  obtain ⟨_, _, _, rec, t, -, -, htr⟩ := index_trace h hi
  obtain ⟨_, _, _, rec', t', -, -, htr'⟩ := index_trace h hj
  have hsi := traceOf_suffix (i := i) ((List.suffix_cons _ _).trans hi)
  have hsj := traceOf_suffix (i := i) ((List.suffix_cons _ _).trans hj)
  rw [htr] at hsi
  rw [htr'] at hsj
  have hle := List.suffix_of_suffix_length_le hsi hsj (Nat.le_refl _)
  have heq := hle.eq_of_length rfl
  cases v
  cases w
  cases heq
  rfl

/-- What a thread has done when it has started a device code. -/
theorem started_trace (h : Reach (handler E) ok c) {n : Nat} {client_id d : String} {v : Device}
    (hst : Started c n client_id d v) : ∃ raw client ttl, v.user_code = hyphenate raw.toList ∧
      (Draw.letters USER_CODE_ALPHABET 8).admits raw = true ∧
      (⟨n, ⟨.draw (.letters USER_CODE_ALPHABET 8), raw⟩⟩ : AsEntry) ∈ c.log ∧
      [⟨.put .device d v ttl, ()⟩, ⟨.draw (.letters USER_CODE_ALPHABET 8), raw⟩,
        ⟨.draw (.urlsafe 32), d⟩, ⟨.get .client client_id, some client⟩] <:+ traceOf n c.log := by
  obtain ⟨hr, ttl, hmem⟩ := hst
  obtain ⟨past, hs⟩ := exists_suffix_of_mem hmem
  obtain ⟨r, hr', hputs⟩ := performed h hs
  cases request_unique hr hr'
  generalize htr : traceOf n past = tr at hputs
  cases hputs with
  | settled hlogged => cases hlogged
  | @created _ raw client =>
    have hdraw : (⟨n, ⟨.draw (.letters USER_CODE_ALPHABET 8), raw⟩⟩ : AsEntry) ∈ past :=
      mem_traceOf.mp (htr ▸ List.mem_cons_self)
    have hlog := ((List.suffix_cons _ _).trans hs).subset hdraw
    obtain ⟨past', hs'⟩ := exists_suffix_of_mem hlog
    refine ⟨raw, client, ttl, rfl, ((reach_ledger h).at hs').1, hlog, ?_⟩
    rw [← htr, ← traceOf_self]
    exact traceOf_suffix hs

/-- A code that was indexed is removed only when its device is settled. -/
theorem index_popped (h : Reach (handler E) ok c) {n j : Nat} {d code : String}
    {a : Option DeviceUser} (hindex : indexEntry n d code ∈ c.log)
    (hpop : (⟨j, ⟨.pop .device_user code, a⟩⟩ : AsEntry) ∈ c.log) : ¬ Unsettled c d := by
  intro hun
  obtain ⟨past, hs⟩ := exists_suffix_of_mem hpop
  obtain ⟨r, -, d', v, ttl, tr₀, htr, hcode, hstatus⟩ := performed h hs
  have hput : (⟨j, ⟨.put .device d' v ttl, ()⟩⟩ : AsEntry) ∈ c.log :=
    ((List.suffix_cons _ _).trans hs).subset (mem_traceOf.mp (htr ▸ List.mem_cons_self))
  obtain ⟨pp, hput'⟩ := exists_suffix_of_mem hput
  -- the thread that has started `d'` has drawn the code, and so has thread `n`
  obtain ⟨m, v', hstarted, -, hcode'⟩ := started_of_put h hput'
  obtain ⟨raw, client, ttl', hshape, hadmits, hdraw, hm⟩ := started_trace h hstarted
  obtain ⟨pi, hi⟩ := exists_suffix_of_mem hindex
  obtain ⟨raw', hcode'', hadmits', hdraw'⟩ := index_drawn h hi
  obtain rfl := hyphenate_injective hadmits hadmits'
    (hshape.symm.trans (hcode'.symm.trans (hcode.trans hcode'')))
  obtain rfl := drawn_by_one (reach_ledger h) hdraw hdraw'
  obtain ⟨_, _, _, w, t, -, -, hn⟩ := index_trace h hi
  have hsn := traceOf_suffix (i := m) ((List.suffix_cons _ _).trans hi)
  rw [hn] at hsn
  have heq := (List.suffix_of_suffix_length_le hsn hm (Nat.le_refl _)).eq_of_length rfl
  cases heq
  exact hstatus (hun _ _ _ hput)

/-- A typed code finds the device it was shown with. -/
theorem finds_device (h : Reached E c) {n : Nat} {d code typed : String}
    (hd : Displayed c n d code) (htyped : normalize_user_code typed = code) :
    FindsDevice E c n d code typed := by
  have hindex := hd.indexed h
  -- whatever was stored under the code names this device
  have honly : ∀ log : AsLog, log <:+ c.log → ∀ index, contents log .device_user code = some index →
      index = ⟨d⟩ := by
    intro log hlog index hindex'
    obtain ⟨i, ttl, past, hput⟩ := put_of_contents hindex'
    exact (index_unique h ((hput.trans hlog).subset List.mem_cons_self) hindex).2
  refine ⟨?_, ?_, ?_⟩
  · intro index hlookup
    rw [htyped] at hlookup
    rw [honly c.log List.suffix_rfl index ((reach_agrees h).lookup hlookup)]
  -- the index is still there, and is found until it expires
  · by_cases hstore : ∃ v expiry, c.world.store .device_user code = some (v, expiry)
    · obtain ⟨v, expiry, hstore⟩ := hstore
      obtain ⟨c₀, c₁, l, i, ttl, hr₀, hstep, hlog, hexpiry, hleads⟩ := reach_written h hstore
      have hput : (⟨i, ⟨.put .device_user code v ttl, ()⟩⟩ : AsEntry) ∈ c.log :=
        hleads.log_suffix.subset (hlog ▸ List.mem_cons_self)
      obtain ⟨rfl, rfl⟩ := index_unique h hput hindex
      obtain rfl := index_ttl h hput
      refine ⟨c₀.world.now, ⟨c₀, c₁, l, hr₀, hstep, hlog, rfl, hleads⟩, fun htime _ => ?_⟩
      rw [htyped, World.lookup, hstore, hexpiry]
      exact if_pos (decide_eq_true htime)
    · -- the index is gone, so the device was settled
      obtain ⟨past, hs⟩ := exists_suffix_of_mem hindex
      obtain ⟨c₀, c₁, l, hr₀, hstep, hlog, hleads⟩ := reach_logged h hs
      refine ⟨c₀.world.now, ⟨c₀, c₁, l, hr₀, hstep, hlog, rfl, hleads⟩, fun _ hun => ?_⟩
      obtain ⟨w, hw⟩ := contents_kept hindex fun j a hpop => index_popped h hindex hpop hun
      rw [← (reach_agrees h).store] at hw
      obtain ⟨⟨v, expiry⟩, hv, -⟩ := Option.map_eq_some_iff.mp hw
      exact absurd ⟨v, expiry, hv⟩ hstore
  · intro m origin referer hr key v ttl hmem
    obtain ⟨past, hs⟩ := exists_suffix_of_mem hmem
    obtain ⟨r, hr', hstarts⟩ := performed h hs
    cases request_unique hr hr'
    generalize htr : traceOf m past = tr at hstarts
    cases hstarts with
    | @device _ _ _ index hsame =>
      obtain ⟨past', hget, -⟩ := exists_suffix_of_traceOf
        (show (⟨.get .device_user (normalize_user_code typed), some index⟩ : AsEvent) :: [] <:+
          traceOf m past from htr ▸ List.suffix_cons _ _)
      have hlog := hget.trans ((List.suffix_cons _ _).trans hs)
      have hread := (reach_ledger h).at hlog index rfl
      rw [htyped] at hread
      rw [honly past' ((List.suffix_cons _ _).trans hlog) index hread]

end

/-! ## Typed codes -/

theorem Displayed.isUserCode {E : Env} {ok : AsConfig → AsConfig → Prop} {c : AsConfig}
    (h : Reach (handler E) ok c) {n : Nat} {d code : String} (hd : Displayed c n d code) :
    IsUserCode code := by
  obtain ⟨past, hs⟩ := exists_suffix_of_mem (hd.indexed h)
  obtain ⟨raw, hcode, hadmits, -⟩ := index_drawn h hs
  exact ⟨raw, hadmits, hcode⟩

/-- Every way of typing a code normalises to it, nothing else than a code's form
    is looked up, and in every run a displayed code, however typed, finds the
    device that has shown it and no other. -/
theorem user_codes_exact :
    (∀ code typed, IsUserCode code → Retyped code.toList typed.toList →
      normalize_user_code typed = code) ∧
    (∀ typed, normalize_user_code typed = "" ∨ (normalize_user_code typed).toList.length = 9 ∧
      (normalize_user_code typed).toList[4]? = some '-') ∧
    ∀ (E : Env) (c : AsConfig), Reached E c → ∀ n d code, Displayed c n d code →
      IsUserCode code ∧ ∀ typed : String, Retyped code.toList typed.toList →
        FindsDevice E c n d code typed := by
  refine ⟨fun code typed hcode h => normalize_retyped hcode h, normalize_shape, ?_⟩
  intro E c h n d code hd
  have hcode := hd.isUserCode h
  exact ⟨hcode, fun typed ht => finds_device h hd (normalize_retyped hcode ht)⟩

/-- Has thread `n` shown the code? -/
def is_displayed (c : AsConfig) (n : Nat) (d code : String) : Bool :=
  match c.request n, c.response n with
  | some (.device_authorization _), some (.device_authorization d' code' ..) => d' == d && code' == code
  | _, _ => false

theorem is_displayed_spec {c : AsConfig} {n : Nat} {d code : String}
    (h : is_displayed c n d code = true) : Displayed c n d code := by
  unfold is_displayed at h
  split at h
  · next client_id d' code' uri expires_in interval hr hres =>
    rw [Bool.and_eq_true, beq_iff_eq, beq_iff_eq] at h
    obtain ⟨rfl, rfl⟩ := h
    exact ⟨client_id, uri, expires_in, interval, hr, hres⟩
  · cases h

/-- A code that is typed in small letters, with a space and without the hyphen. -/
theorem user_codes_exact_typed : normalize_user_code "bcdf  ghjk" = "BCDF-GHJK" ∧
    ∃ c, Reached sample c ∧ FindsDevice sample c 1 (ident 'd' 43) "BCDF-GHJK" "bcdf  ghjk" := by
  have hcode : IsUserCode "BCDF-GHJK" := ⟨"BCDFGHJK", by decide +kernel, by decide +kernel⟩
  have ht : Retyped "BCDF-GHJK".toList "bcdf  ghjk".toList :=
    .letter (.inr rfl) <| .letter (.inr rfl) <| .letter (.inr rfl) <| .letter (.inr rfl) <|
      .insert (.inl rfl) <| .insert (.inl rfl) <| .drop <| .letter (.inr rfl) <|
      .letter (.inr rfl) <| .letter (.inr rfl) <| .letter (.inr rfl) .done
  obtain ⟨c, hreach, htest⟩ := exists_reached sample
    (fun c => is_displayed c 1 (ident 'd' 43) "BCDF-GHJK") device_logins (by decide +kernel)
  exact ⟨user_codes_exact.1 _ _ hcode ht, c, hreach,
    (user_codes_exact.2.2 sample c hreach 1 _ _ (is_displayed_spec htest)).2 _ ht⟩

end AlitellmAuth
