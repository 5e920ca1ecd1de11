import AlitellmAuth.Session.Twins

/-! # What the listing gives away

    The id of a key without alias and without id field is the hash of the key
    itself, which the listing promises to keep to itself.

    * `raw_keys`: the dictionaries that are listed, of either kind of listing.
    * `Exposed`: some key is listed under a hash.
    * `related_raw_keys`: two runs list the same keys, up to such hashes.
    * `no_leak_iff`: twins get one answer if and only if no listed key is
      exposed.
-/

namespace AlitellmAuth.Session

open Interleave Text Litellm TwoRuns

/-! ## The listed dictionaries -/

section
variable (settings : LitellmSettings) (sha256 : String → String) (answer : Call → HttpReply)
  (email : String)

/-- The dictionaries that are listed: the rows themselves, or the keys that the
    fallback has hydrated. -/
def raw_keys : Except Failure (List Dict) :=
  (key_rows answer (some email) none).bind fun
    | .arr rows =>
        (session_rows settings sha256 rows).bind fun
          | none => outcome answer (list_litellm_keys settings sha256 email)
          | some _ => .ok (objects rows)
    | _ => .ok []

variable {settings sha256 answer email}

/-- Rows that are read are all dictionaries or skipped. -/
theorem session_rows_some {rows : List Json} {out : List SessionRow}
    (h : session_rows settings sha256 rows = .ok (some out)) :
    FullObjects rows ∧ project_all settings sha256 (objects rows) = .ok out := by
  by_cases hfull : FullObjects rows
  · rw [session_rows_objects settings sha256 hfull] at h
    refine ⟨hfull, ?_⟩
    cases hproject : project_all settings sha256 (objects rows) with
    | ok out' =>
      rw [hproject] at h
      cases h
      rfl
    | error e =>
      rw [hproject] at h
      cases h
  -- a text among the rows would have ended the listing with no rows
  · exfalso
    apply hfull
    clear hfull
    induction rows generalizing out with
    | nil => simp [FullObjects]
    | cons row rows ih =>
      intro s hs
      cases row with
      | str s' => cases h
      | obj k =>
        unfold session_rows at h
        cases hrow : project_session_key sha256 k (parse_metadata settings (field k "metadata")) with
        | error e =>
          rw [hrow] at h
          cases h
        | ok row =>
          cases hrest : session_rows settings sha256 rows with
          | error e =>
            rw [hrow, hrest] at h
            cases h
          | ok rest =>
            rw [hrow, hrest] at h
            cases rest with
            | none => cases h
            | some rest => exact ih hrest s (List.mem_of_ne_of_mem (by simp) hs)
      | null | bool | num | arr => exact ih h s (List.mem_of_ne_of_mem (by simp) hs)

/-- The listing projects and sorts the dictionaries. -/
theorem list_session_keys_raw :
    outcome answer (list_session_keys settings sha256 email) =
      (raw_keys settings sha256 answer email).bind (project_sorted settings sha256) := by
  -- `key_rows` is the first call of the listing
  have hlisted : outcome answer (list_session_keys settings sha256 email) =
      (key_rows answer (some email) none).bind fun value => outcome answer (match value with
        | .arr rows => do
            match ← lift (session_rows settings sha256 rows) with
            | none => list_session_keys_fallback settings sha256 email
            | some out => lift (newest_first sort_key out)
        | _ => return [] : L (List SessionRow)) := by
    unfold key_rows list_session_keys
    rw [outcome_bind_eq, outcome_bind_eq]
    cases outcome answer (request (.key_list (some email) none)) with
    | error e => rfl
    | ok resp => exact outcome_bind_eq _ _
  rw [hlisted]
  unfold raw_keys
  cases key_rows answer (some email) none with
  | error e => rfl
  | ok value =>
    cases value with
    | arr rows =>
      show outcome answer (lift (session_rows settings sha256 rows) >>= _) = _
      rw [outcome_bind_eq, outcome_lift]
      cases hrows : session_rows settings sha256 rows with
      | error e =>
        show _ = ((session_rows settings sha256 rows).bind _).bind _
        rw [hrows]
        rfl
      | ok out =>
        show _ = ((session_rows settings sha256 rows).bind _).bind _
        rw [hrows]
        cases out with
        | none =>
          show outcome answer (list_session_keys_fallback settings sha256 email) = _
          unfold list_session_keys_fallback
          rw [outcome_bind_eq]
          rfl
        | some out =>
          show newest_first sort_key out = project_sorted settings sha256 (objects rows)
          rw [project_sorted, (session_rows_some hrows).2]
          rfl
    | null | bool | num | str | obj => rfl

end

/-! ## Exposed keys -/

section
variable (settings : LitellmSettings) (sha256 : String → String) (answer : Call → HttpReply)
  (email : String)

/-- A row that is listed under the text in its `key`, else in its `token`. -/
def HashListed (k : Dict) : Prop :=
  Unnamed settings k ∧ (nonempty_text (field k "key") = true ∨
    text? (field k "key") = none ∧ nonempty_text (field k "token") = true)

/-- The same of a row that the fallback keeps: what counts here is the alias of
    the key itself, and then its token. -/
def HashHydrated (k : Dict) : Prop :=
  is_text (field (metadata_of settings k) "email") email = true ∧
    (field k "key_alias").truthy = false ∧ (nonempty_text (field k "token") = true ∨
      (field k "token").truthy = false ∧ nonempty_text (field k "key") = true)

/-- Some key is listed under a hash. -/
def Exposed : Prop :=
  ∃ rows, key_rows answer (some email) none = .ok (.arr rows) ∧
    ((FullObjects rows ∧ ∃ k, .obj k ∈ rows ∧ HashListed settings k) ∨
      (¬ FullObjects rows ∧ ∃ team, key_rows answer none (some settings.team_id) = .ok (.arr team) ∧
        ∃ k, .obj k ∈ team ∧ HashHydrated settings email k))

/-- There is a listing at all: the dictionaries are there, and can be read,
    sorted and masked. -/
def Listed : Prop :=
  ∃ ks, raw_keys settings sha256 answer email = .ok ks ∧ (∀ k ∈ ks, Readable settings k) ∧
    ks.Pairwise (Json.Comparable (created_key settings sha256)) ∧ MembershipsRead answer email ks

end

/-! ## The dictionaries in two runs -/

/-- Alike, and under one hash, if that is what the key is listed under and no
    key is exposed. -/
def Shown (settings : LitellmSettings) (exposed : Prop) (k k' : Dict) : Prop :=
  Alike k k' ∧ (¬ exposed → Unnamed settings k → hash_of k = hash_of k')

theorem shown_refl {settings : LitellmSettings} {exposed : Prop} (k : Dict) :
    Shown settings exposed k k := ⟨fun _ _ => rfl, fun _ _ => rfl⟩

section
variable {settings : LitellmSettings} {k k' : Dict}

/-- A row that is not listed under its own secrets. -/
theorem hash_of_twin (htwin : k.map (shade_field "*") = k'.map (shade_field "*"))
    (hno : ¬ HashListed settings k) (hunnamed : Unnamed settings k) : hash_of k = hash_of k' := by
  have hkey : nonempty_text (field k "key") = false := by
    rw [← Bool.not_eq_true]
    exact fun hkey => hno ⟨hunnamed, .inl hkey⟩
  have hsame := (secret_of_twin htwin rfl).2 hkey
  unfold hash_of
  rw [← hsame]
  cases hhash : is_hash (field k "key") with
  | true => rfl
  | false =>
    -- a key that is no hash and no text leaves the token
    have htext : text? (field k "key") = none := by
      cases hvalue : field k "key" with
      | str s =>
        rw [hvalue] at hkey hhash
        have hs : s = "" := by simpa [nonempty_text] using hkey
        rw [hs] at hhash
        exact absurd hhash (by decide)
      | null | bool | num | arr | obj => rfl
    have htoken : nonempty_text (field k "token") = false := by
      rw [← Bool.not_eq_true]
      exact fun htoken => hno ⟨hunnamed, .inr ⟨htext, htoken⟩⟩
    rw [← (secret_of_twin htwin rfl).2 htoken]

theorem shown_of_twin {exposed : Prop} (hexposed : HashListed settings k → exposed)
    (htwin : k.map (shade_field "*") = k'.map (shade_field "*")) : Shown settings exposed k k' :=
  ⟨alike_of_twin htwin, fun hno hunnamed =>
    hash_of_twin htwin (fun hlisted => hno (hexposed hlisted)) hunnamed⟩

/-! ## The fallback in two runs -/

/-- What the fallback keeps of a dictionary. -/
def hydrated (id created_at : Json) (k : Dict) : Dict :=
  [("id", id), ("key", get_token k), ("key_alias", field k "key_alias"),
    ("created_at", created_at), ("expires", field k "expires"), ("models", field k "models"),
    ("last_active", field k "last_active"), ("blocked", field k "blocked")]

theorem metadata_of_hydrated (id created_at : Json) (k : Dict) :
    metadata_of settings (hydrated id created_at k) = [] := rfl

theorem alike_hydrated (id id' created_at : Json)
    (htwin : k.map (shade_field "*") = k'.map (shade_field "*")) :
    Alike (hydrated id created_at k) (hydrated id' created_at k') := by
  have halike := alike_of_twin htwin
  intro name hname
  simp only [List.mem_cons, List.not_mem_nil, or_false, not_or] at hname
  have hskip (i key : Json) (rest : Dict) :
      List.lookup name (("id", i) :: ("key", key) :: rest) = rest.lookup name := by
    have hid : (name == "id") = false := by simp [hname]
    have hkey : (name == "key") = false := by simp [hname]
    rw [List.lookup_cons, hid, List.lookup_cons, hkey]
  unfold hydrated
  rw [hskip, hskip, halike.field "key_alias" (by decide), halike.field "expires" (by decide),
    halike.field "models" (by decide), halike.field "last_active" (by decide),
    halike.field "blocked" (by decide)]

theorem hash_of_hydrated (id created_at : Json) (k : Dict) :
    hash_of (hydrated id created_at k) =
      if is_hash (get_token k) then get_token k else .null := rfl

/-- A hydrated key without an alias had none before. -/
theorem alias_of_unnamed {id created_at : Json}
    (h : Unnamed settings (hydrated id created_at k)) : (field k "key_alias").truthy = false := by
  have hnamed := h.1
  unfold named naming at hnamed
  rw [metadata_of_hydrated] at hnamed
  cases htruthy : (field k "key_alias").truthy with
  | false => rfl
  | true =>
    have hown : py_or (field k "key_alias") (field [] "key_alias") = field k "key_alias" :=
      py_or_truthy htruthy
    have hfield : field (hydrated id created_at k) "key_alias" = field k "key_alias" := rfl
    rw [hfield, hown, htruthy] at hnamed
    cases hnamed

/-- A token that is truthy but no text hides the key. -/
theorem no_hash_of_token (htruthy : (field k "token").truthy = true)
    (htext : nonempty_text (field k "token") = false) : is_hash (get_token k) = false := by
  unfold get_token
  cases htoken : field k "token" with
  | str s =>
    rw [htoken] at htruthy htext
    exact absurd (htruthy.symm.trans htext) (by decide)
  | null =>
    rw [htoken] at htruthy
    cases htruthy
  | bool | num | arr | obj =>
    rw [htoken] at htruthy
    rw [if_neg Bool.false_ne_true]
    split
    · next hplain =>
      cases hkey : field k "key" with
      | str s =>
        rw [hkey] at hplain
        simpa [is_hash] using hplain
      | null | bool | num | arr | obj => rfl
    · rw [py_or_truthy htruthy]
      rfl

theorem hash_hydrated_of_twin {email : String} {id id' created_at : Json}
    (htwin : k.map (shade_field "*") = k'.map (shade_field "*"))
    (howned : is_text (field (metadata_of settings k) "email") email = true)
    (hno : ¬ HashHydrated settings email k)
    (hunnamed : Unnamed settings (hydrated id created_at k)) :
    hash_of (hydrated id created_at k) = hash_of (hydrated id' created_at k') := by
  have halias := alias_of_unnamed hunnamed
  -- a token that is shown would be a hash that hydration exposes
  have htext : nonempty_text (field k "token") = false := by
    rw [← Bool.not_eq_true]
    exact fun htoken => hno ⟨howned, halias, .inl htoken⟩
  have htoken := (secret_of_twin htwin rfl).2 htext
  rw [hash_of_hydrated, hash_of_hydrated]
  cases htruthy : (field k "token").truthy with
  | true =>
    have htruthy' := htruthy
    have htext' := htext
    rw [htoken] at htruthy' htext'
    rw [no_hash_of_token htruthy htext, no_hash_of_token htruthy' htext']
    rfl
  | false =>
    have hkey : nonempty_text (field k "key") = false := by
      rw [← Bool.not_eq_true]
      exact fun hkey => hno ⟨howned, halias, .inr ⟨htruthy, hkey⟩⟩
    have hsame : get_token k = get_token k' := by
      unfold get_token
      rw [htoken, (secret_of_twin htwin rfl).2 hkey]
    rw [hsame]

end

section
variable {settings : LitellmSettings} {sha256 : String → String} {answer answer' : Call → HttpReply}
  {email : String} {exposed : Prop}

/-- Reading the id of a twin fails alike. -/
theorem related_key_id {k k' : Dict} (h : Alike k k') (md : Json) :
    Related SameFailure (fun _ _ => True) (get_key_id sha256 k none md)
      (get_key_id sha256 k' none md) := by
  unfold get_key_id naming_alias
  rw [← h.field "key_alias" (by decide)]
  dsimp only
  split
  · exact rfl
  · split
    · split
      · trivial
      · exact rfl
    · trivial

/-- The keys of the fallback in two runs, one row at a time. -/
theorem related_owned_keys (htwin : Twin answer answer') {rows rows' : List Json}
    (hrows : List.Forall₂ RowTwin rows rows')
    (hexposed : ∀ k, .obj k ∈ rows → HashHydrated settings email k → exposed) :
    Related SameFailure (List.Forall₂ (Shown settings exposed))
      (outcome answer (owned_keys settings sha256 email rows))
      (outcome answer' (owned_keys settings sha256 email rows')) := by
  induction hrows with
  | nil => exact .nil
  | @cons row row' rows rows' hrow hrows ih =>
    have htail := ih fun k hk => hexposed k (List.mem_cons_of_mem _ hk)
    -- two dictionaries that differ in their secrets only, or the same row twice
    rcases rowTwin_cases hrow with ⟨k, k', rfl, rfl, hdict⟩ | ⟨rfl, hnot⟩
    · have halike := alike_of_twin hdict
      unfold owned_keys
      dsimp only
      rw [← halike.field "metadata" (by decide)]
      generalize hmd : parse_metadata settings (field k "metadata") = md
      rw [outcome_bind_eq, outcome_bind_eq, outcome_lift, outcome_lift]
      cases md with
      | obj fields =>
        have hmeta := metadata_of_eq settings hmd
        show Related _ _ (outcome answer (if is_text (field fields "email") email then _ else _))
          (outcome answer' (if is_text (field fields "email") email then _ else _))
        by_cases howned : is_text (field fields "email") email = true
        · rw [if_pos howned, if_pos howned, outcome_bind_eq, outcome_bind_eq, outcome_lift,
            outcome_lift]
          refine related_bind (related_key_id halike _) fun id id' _ => ?_
          rw [outcome_bind_eq, outcome_bind_eq, outcome_lift, outcome_lift]
          show Related _ _ (outcome answer (_ >>= _)) (outcome answer' (_ >>= _))
          rw [outcome_bind_eq, outcome_bind_eq]
          refine related_bind htail fun rest rest' hrest => ?_
          refine .cons ⟨alike_hydrated id id' _ hdict, fun hno hunnamed => ?_⟩ hrest
          rw [← hmeta] at howned
          exact hash_hydrated_of_twin hdict howned
            (fun hhash => hno (hexposed k List.mem_cons_self hhash)) hunnamed
        · rw [if_neg howned, if_neg howned]
          exact htail
      | null | bool | num | str | arr => exact rfl
    · cases row' with
      | str api_key =>
        unfold owned_keys
        -- the answer about a key is the same in both worlds
        have hsame : outcome answer (get_key_info settings sha256 api_key) =
            outcome answer' (get_key_info settings sha256 api_key) := by
          apply outcome_congr
          exact sends_get_key_info (fun key => htwin.eq (by simp)) api_key
        rw [outcome_bind_eq, outcome_bind_eq, ← hsame]
        cases outcome answer (get_key_info settings sha256 api_key) with
        | error e => exact rfl
        | ok full_info =>
          show Related _ _ (outcome answer (_ >>= _)) (outcome answer' (_ >>= _))
          rw [outcome_bind_eq, outcome_bind_eq]
          refine related_bind htail fun rest rest' hrest => ?_
          show List.Forall₂ _ (if _ then _ else _) (if _ then _ else _)
          generalize (if (field full_info "key").truthy then full_info
            else Json.set full_info "key" (.str api_key)) = full
          split
          · exact .cons (shown_refl _) hrest
          · exact hrest
      | obj k => exact absurd rfl (hnot k)
      | null | bool | num | arr => exact htail

theorem related_newest_first {α : Type} {R : α → α → Prop} {key : α → Json} {l l' : List α}
    (hkey : ∀ a b, R a b → key a = key b) (h : List.Forall₂ R l l') :
    Related SameFailure (List.Forall₂ R) (newest_first key l) (newest_first key l') := by
  unfold newest_first
  have hsort := related_sortDesc hkey h
  revert hsort
  generalize Json.sortDesc key l = out
  generalize Json.sortDesc key l' = out'
  intro hsort
  cases hsort with
  | none => exact rfl
  | some hout => exact hout

theorem list_litellm_keys_eq :
    outcome answer (list_litellm_keys settings sha256 email) =
      (key_rows answer none (some settings.team_id)).bind fun
        | .arr all_keys => (outcome answer (owned_keys settings sha256 email all_keys)).bind
            (newest_first fun k => py_or (field k "created_at") (.str ""))
        | _ => .ok [] := by
  unfold list_litellm_keys key_rows
  rw [outcome_bind_eq, outcome_bind_eq]
  cases outcome answer (request (.key_list none (some settings.team_id))) with
  | error e => rfl
  | ok resp =>
    show outcome answer (listed resp >>= _) = (outcome answer (listed resp)).bind _
    rw [outcome_bind_eq]
    congr 1
    funext value
    cases value with
    | arr all_keys => exact outcome_bind_eq _ _
    | null | bool | num | str | obj => rfl

/-- Two runs see the same kind of rows. -/
theorem related_session_rows {rows rows' : List Json} (hrows : List.Forall₂ RowTwin rows rows') :
    Related SameFailure (fun out out' => out.isNone = out'.isNone)
      (session_rows settings sha256 rows) (session_rows settings sha256 rows') := by
  induction hrows with
  | nil => exact rfl
  -- two dictionaries that differ in their secrets only, or the same row twice
  | @cons row row' rows rows' hrow hrows ih =>
    rcases rowTwin_cases hrow with ⟨k, k', rfl, rfl, hdict⟩ | ⟨rfl, hnot⟩
    · have halike := alike_of_twin hdict
      unfold session_rows
      by_cases hread : Readable settings k
      · rw [project_readable settings sha256 hread,
          project_readable settings sha256 ((halike.readable settings).mp hread)]
        show Related _ _ ((session_rows settings sha256 rows).bind _)
          ((session_rows settings sha256 rows').bind _)
        refine related_bind ih fun out out' hout => ?_
        cases out with
        | none =>
          cases out' with
          | none => exact rfl
          | some out' => cases hout
        | some out =>
          cases out' with
          | none => cases hout
          | some out' => exact rfl
      · rw [project_error settings sha256 hread,
          project_error settings sha256 (mt (halike.readable settings).mpr hread)]
        exact rfl
    · cases row' with
      | str s => exact rfl
      | obj k => exact absurd rfl (hnot k)
      | null | bool | num | arr => exact ih

theorem forall₂_objects {rows rows' : List Json} (hrows : List.Forall₂ RowTwin rows rows')
    (hexposed : ∀ k, .obj k ∈ rows → HashListed settings k → exposed) :
    List.Forall₂ (Shown settings exposed) (objects rows) (objects rows') := by
  induction hrows with
  | nil => exact .nil
  | @cons row row' rows rows' hrow hrows ih =>
    have htail := ih fun k hk => hexposed k (List.mem_cons_of_mem _ hk)
    rcases rowTwin_cases hrow with ⟨k, k', rfl, rfl, hdict⟩ | ⟨rfl, hnot⟩
    · exact .cons (shown_of_twin (hexposed k List.mem_cons_self) hdict) htail
    · cases row' with
      | obj k => exact absurd rfl (hnot k)
      | null | bool | num | str | arr => exact htail

/-- Twins list the same dictionaries, up to the hashes of exposed keys. -/
theorem related_raw_keys (htwin : Twin answer answer') :
    Related SameFailure (List.Forall₂ (Shown settings (Exposed settings answer email)))
      (raw_keys settings sha256 answer email) (raw_keys settings sha256 answer' email) := by
  unfold raw_keys
  refine related_bind_of (related_key_rows htwin (some email) none) fun value value' hvalue _ hrel => ?_
  rcases rowsTwin_cases hrel with ⟨rows, rows', rfl, rfl, hrows⟩ | ⟨rfl, hnot⟩
  · dsimp only
    refine related_bind_of (related_session_rows hrows) fun out out' hout hout' hnone => ?_
    cases out with
    | some out =>
      cases out' with
      | none => cases hnone
      | some out' =>
        refine forall₂_objects hrows fun k hk hhash => ?_
        exact ⟨rows, hvalue, .inl ⟨(session_rows_some hout).1, k, hk, hhash⟩⟩
    | none =>
      cases out' with
      | some out' => cases hnone
      | none =>
        -- no rows means that some row was a text
        have hfull : ¬ FullObjects rows := by
          intro hfull
          rw [session_rows_objects settings sha256 hfull] at hout
          cases hproject : project_all settings sha256 (objects rows) with
          | ok out =>
            rw [hproject] at hout
            cases hout
          | error e =>
            rw [hproject] at hout
            cases hout
        dsimp only
        rw [list_litellm_keys_eq, list_litellm_keys_eq]
        refine related_bind_of (related_key_rows htwin none (some settings.team_id))
          fun value value' hteam _ hrel => ?_
        rcases rowsTwin_cases hrel with ⟨team, team', rfl, rfl, hteams⟩ | ⟨rfl, hnot⟩
        · refine related_bind (related_owned_keys htwin hteams fun k hk hhash => ?_)
            fun ks ks' hks => related_newest_first (fun d d' hd => ?_) hks
          · exact ⟨rows, hvalue, .inr ⟨hfull, team, hteam, k, hk, hhash⟩⟩
          · rw [hd.1.field "created_at" (by decide)]
        · cases value' with
          | arr team => exact absurd rfl (hnot team)
          | null | bool | num | str | obj => exact .nil
  · cases value' with
    | arr rows => exact absurd rfl (hnot rows)
    | null | bool | num | str | obj => exact .nil

/-! ## The route in two runs -/

/-- One row in two runs: the same, but for the id of an exposed key. -/
def RowShown (exposed : Prop) (row row' : SessionRow) : Prop :=
  nameless row = nameless row' ∧ (¬ exposed → row.id = row'.id)

theorem RowShown.safe {row row' : SessionRow} (h : RowShown exposed row row') (hno : ¬ exposed) :
    safe_key row = safe_key row' := by
  show { nameless row with id := row.id } = { nameless row' with id := row'.id }
  rw [h.1, h.2 hno]

theorem rowShown_of {k k' : Dict} (h : Shown settings exposed k k') :
    RowShown exposed (listed_row settings sha256 k) (listed_row settings sha256 k') :=
  ⟨h.1.nameless settings sha256, fun hno => h.1.id settings sha256 (h.2 hno)⟩

theorem related_project_sorted {ks ks' : List Dict}
    (h : List.Forall₂ (Shown settings exposed) ks ks') :
    Related SameFailure (List.Forall₂ (RowShown exposed)) (project_sorted settings sha256 ks)
      (project_sorted settings sha256 ks') := by
  have hread : (∀ k ∈ ks, Readable settings k) ↔ ∀ k' ∈ ks', Readable settings k' := by
    constructor
    · intro hall k' hk'
      obtain ⟨k, hk, hrel⟩ := exists_of_mem_right h hk'
      exact (hrel.1.readable settings).mp (hall k hk)
    · intro hall k hk
      obtain ⟨k', hk', hrel⟩ := exists_of_mem_left h hk
      exact (hrel.1.readable settings).mpr (hall k' hk')
  unfold project_sorted
  by_cases hall : ∀ k ∈ ks, Readable settings k
  · rw [project_all_readable settings sha256 hall,
      project_all_readable settings sha256 (hread.mp hall)]
    refine related_newest_first (fun row row' hrow => ?_) (forall₂_map h fun _ _ => rowShown_of)
    have hcreated : row.created_at = row'.created_at := congrArg BrowserRow.created_at hrow.1
    unfold sort_key
    rw [hcreated]
  · rw [project_all_error settings sha256 hall,
      project_all_error settings sha256 (mt hread.mpr hall)]
    exact rfl

/-- Twins list the same rows, up to the ids of exposed keys. -/
theorem related_listing (htwin : Twin answer answer') :
    Related SameFailure (List.Forall₂ (RowShown (Exposed settings answer email)))
      (outcome answer (list_session_keys settings sha256 email))
      (outcome answer' (list_session_keys settings sha256 email)) := by
  rw [list_session_keys_raw, list_session_keys_raw]
  exact related_bind (related_raw_keys htwin) fun _ _ => related_project_sorted

theorem teams_of_twin (htwin : Twin answer answer') :
    outcome answer (list_user_teams email) = outcome answer' (list_user_teams email) := by
  apply outcome_congr
  apply sends_list_user_teams
  · exact fun id => htwin.eq (by simp)
  · exact htwin.eq (by simp)

/-- What cannot be shown in one run cannot be shown in the other. -/
theorem shown_rows_error {out out' : List SessionRow} {e : Answer} (htwin : Twin answer answer')
    (hrows : List.Forall₂ (RowShown exposed) out out') (h : shown_rows answer email out = .error e) :
    shown_rows answer' email out' = .error e := by
  unfold shown_rows at h ⊢
  rw [← teams_of_twin htwin]
  cases hteams : outcome answer (list_user_teams email) with
  | ok teams =>
    rw [hteams] at h
    dsimp only at h ⊢
    -- the listing failed on a team that cannot be masked; the twin has it too
    by_cases hmask : ∀ row ∈ out.map safe_key, Maskable row.team_id
    · rw [mask_teams_ok hmask] at h
      cases h
    · rw [mask_teams_error hmask] at h
      rw [← h]
      apply mask_teams_error
      intro hmask'
      apply hmask
      intro entry hentry
      obtain ⟨row, hrow, rfl⟩ := List.mem_map.mp hentry
      obtain ⟨row', hrow', hrel⟩ := exists_of_mem_left hrows hrow
      have hteam : row.team_id = row'.team_id := congrArg BrowserRow.team_id hrel.1
      show Maskable row.team_id
      rw [hteam]
      exact hmask' _ (List.mem_map_of_mem hrow')
  | error e' =>
    rw [hteams] at h
    cases e' with
    | status | transport => cases h
    | not_found | not_member | crashed => exact h

theorem session_list_keys_error {e : Failure}
    (h : outcome answer (list_session_keys settings sha256 email) = .error e) :
    result answer (session_list_keys settings sha256 email) =
      .error (bad_gateway "LiteLLM key listing failed" e) := by
  unfold session_list_keys
  rw [result_bind]
  have hrelist : result answer (relist_or_502 settings sha256 email) =
      .error (bad_gateway "LiteLLM key listing failed" e) := by
    unfold relist_or_502
    rw [result_attempt, h]
  rw [hrelist]

/-- A listing that is shown is one. -/
theorem listed_of_shown {out : List SessionRow} {shown : List BrowserRow}
    (hlist : outcome answer (list_session_keys settings sha256 email) = .ok out)
    (hshown : shown_rows answer email out = .ok shown) : Listed settings sha256 answer email := by
  rw [list_session_keys_raw] at hlist
  cases hraw : raw_keys settings sha256 answer email with
  | error e =>
    rw [hraw] at hlist
    cases hlist
  | ok ks =>
    rw [hraw] at hlist
    obtain ⟨hread, hperm, hsort⟩ := project_sorted_ok hlist
    exact ⟨ks, hraw, hread, hsort, memberships_of_shown hperm hshown⟩

/-- Without exposed keys, twins get one answer. -/
theorem same_answer (htwin : Twin answer answer')
    (hno : Listed settings sha256 answer email → ¬ Exposed settings answer email) :
    result answer' (session_list_keys settings sha256 email) =
      result answer (session_list_keys settings sha256 email) := by
  have hrel := @related_listing settings sha256 _ _ email htwin
  cases hlist : outcome answer (list_session_keys settings sha256 email) with
  | error e =>
    cases hlist' : outcome answer' (list_session_keys settings sha256 email) with
    | error e' =>
      rw [hlist, hlist'] at hrel
      rw [session_list_keys_error hlist, session_list_keys_error hlist']
      exact congrArg _ hrel.symm
    | ok out' =>
      rw [hlist, hlist'] at hrel
      exact hrel.elim
  | ok out =>
    cases hlist' : outcome answer' (list_session_keys settings sha256 email) with
    | error e' =>
      rw [hlist, hlist'] at hrel
      exact hrel.elim
    | ok out' =>
      rw [hlist, hlist'] at hrel
      rw [session_list_keys_result hlist, session_list_keys_result hlist']
      congr 1
      cases hshown : shown_rows answer email out with
      | error e => exact shown_rows_error htwin hrel hshown
      | ok shown =>
        -- nothing is exposed, so the rows that are sent are the same
        have hsafe : out.map safe_key = out'.map safe_key :=
          map_eq_of_forall₂ hrel fun _ _ hrow =>
            hrow.safe (hno (listed_of_shown hlist hshown))
        rw [← hshown]
        unfold shown_rows
        rw [teams_of_twin htwin, hsafe]

end

/-! ## A run that gives the hash away -/

/-- A text that no value of a list is. -/
theorem exists_fresh (values : List Json) :
    ∃ c, c ≠ "" ∧ startsWith "sk-" c = false ∧ .str c ∉ values := by
  obtain ⟨n, hn⟩ : ∃ n, ∀ s, .str s ∈ values → s.length ≤ n := by
    induction values with
    | nil => exact ⟨0, by simp⟩
    | cons value values ih =>
      obtain ⟨n, hn⟩ := ih
      refine ⟨n + ((text? value).getD "").length, ?_⟩
      intro s hs
      rcases List.mem_cons.mp hs with rfl | hs
      · exact Nat.le_add_left _ _
      · exact (hn s hs).trans (Nat.le_add_right _ _)
  refine ⟨String.ofList (List.replicate (n + 1) 'h'), ?_, ?_, fun hmem => ?_⟩
  · intro hempty
    have hlength := congrArg String.length hempty
    simp at hlength
  · simp only [startsWith, String.toList_ofList, List.replicate_succ]
    rfl
  · have hlength := hn _ hmem
    simp only [String.length_ofList, List.length_replicate] at hlength
    omega

section
variable {settings : LitellmSettings} {sha256 : String → String} {answer : Call → HttpReply}
  {email c : String} {k : Dict}

theorem twin_of_shade (hc : c ≠ "") (k : Dict) :
    k.map (shade_field "*") = (k.map (shade_field c)).map (shade_field "*") := by
  rw [List.map_map]
  exact List.map_congr_left fun f _ => (shade_field_shade hc f).symm

theorem shade_text {value : Json} (h : nonempty_text value = true) : shade c value = .str c := by
  rw [shade, h, if_pos rfl]

theorem shade_other {value : Json} (h : nonempty_text value = false) : shade c value = value := by
  rw [shade, h, if_neg Bool.false_ne_true]

/-- Once shaded, an exposed row is listed under the shade. -/
theorem id_of_shaded (hc : c ≠ "") (hsk : startsWith "sk-" c = false)
    (h : HashListed settings k) :
    (listed_row settings sha256 (k.map (shade_field c))).id = .str c := by
  have halike := alike_of_twin (twin_of_shade hc k)
  obtain ⟨⟨hnamed, hkey_id, htoken_id⟩, hhash⟩ := h
  have hunnamed : Unnamed settings (k.map (shade_field c)) := by
    refine ⟨?_, ?_, ?_⟩
    · rw [← halike.named settings, hnamed]
    · rw [← halike.field "key_id" (by decide), hkey_id]
    · rw [← halike.field "token_id" (by decide), htoken_id]
  have hash_c : is_hash (.str c) = true := by
    rw [is_hash, hsk]
    rfl
  rw [unnamed_hash settings hunnamed, hash_of, field_shade, field_shade]
  show (if is_hash (shade c (field k "key")) then shade c (field k "key")
    else if is_hash (shade c (field k "token")) then shade c (field k "token") else .null) = .str c
  rcases hhash with hkey | ⟨hnone, htoken⟩
  · rw [shade_text hkey, if_pos hash_c]
  · have hkey : nonempty_text (field k "key") = false ∧ is_hash (field k "key") = false := by
      cases hvalue : field k "key" with
      | str s =>
        rw [hvalue] at hnone
        cases hnone
      | null | bool | num | arr | obj => exact ⟨rfl, rfl⟩
    rw [shade_other hkey.1, hkey.2, shade_text htoken, if_neg Bool.false_ne_true, if_pos hash_c]

/-- Without a plain key in sight, the token of a row is its hash. -/
theorem get_token_plain {data : Dict}
    (htoken : ∀ s, field data "token" = .str s → startsWith "sk-" s = false)
    (hkey : ∀ s, field data "key" = .str s → startsWith "sk-" s = false) :
    get_token data = py_or (field data "token") (field data "key") := by
  unfold get_token
  cases htok : field data "token" with
  | str s =>
    cases hk : field data "key" with
    | str s' => simp [htoken s htok, hkey s' hk]
    | null | bool | num | arr | obj => simp [htoken s htok]
  | null | bool | num | arr | obj =>
    cases hk : field data "key" with
    | str s' => simp [hkey s' hk]
    | null | bool | num | arr | obj => rfl

/-- Shaded fields hold no plaintext key. -/
theorem get_token_shade (hsk : startsWith "sk-" c = false) (k : Dict) :
    get_token (k.map (shade_field c)) =
      py_or (shade c (field k "token")) (shade c (field k "key")) := by
  have hplain (value : Json) (s : String) (hs : shade c value = .str s) :
      startsWith "sk-" s = false := by
    cases hvalue : nonempty_text value with
    | true =>
      rw [shade_text hvalue] at hs
      cases hs
      exact hsk
    | false =>
      rw [shade_other hvalue] at hs
      rw [hs] at hvalue
      have hempty : s = "" := by simpa [nonempty_text] using hvalue
      rw [hempty]
      rfl
  rw [get_token_plain]
  · rw [field_shade, field_shade]
    rfl
  · intro s hs
    rw [field_shade] at hs
    exact hplain _ s hs
  · intro s hs
    rw [field_shade] at hs
    exact hplain _ s hs

theorem id_of_hydrated_shade {id created_at : Json} (hc : c ≠ "")
    (hsk : startsWith "sk-" c = false) (h : HashHydrated settings email k) :
    (listed_row settings sha256 (hydrated id created_at (k.map (shade_field c)))).id = .str c := by
  have halike := alike_of_twin (twin_of_shade hc k)
  obtain ⟨-, halias, hhash⟩ := h
  -- hydration drops the metadata, so there is no alias left
  have hunnamed : Unnamed settings (hydrated id created_at (k.map (shade_field c))) := by
    refine ⟨?_, rfl, rfl⟩
    unfold named naming
    rw [metadata_of_hydrated]
    have hfalsy : (field (hydrated id created_at (k.map (shade_field c))) "key_alias").truthy =
        false := by
      show (field (k.map (shade_field c)) "key_alias").truthy = false
      rw [← halike.field "key_alias" (by decide), halias]
    rw [py_or_falsy hfalsy]
    rfl
  -- and the hash that is left is the one that was shaded
  have htoken : get_token (k.map (shade_field c)) = .str c := by
    rw [get_token_shade hsk]
    rcases hhash with htoken | ⟨hfalsy, hkey⟩
    · rw [shade_text htoken, py_or_truthy (by simpa [Json.truthy] using hc)]
    · have hnone : nonempty_text (field k "token") = false := by
        cases hvalue : field k "token" with
        | str s =>
          rw [hvalue] at hfalsy
          exact hfalsy
        | null | bool | num | arr | obj => rfl
      rw [shade_other hnone, py_or_falsy hfalsy, shade_text hkey]
  rw [unnamed_hash settings hunnamed, hash_of_hydrated, htoken, is_hash, hsk]
  rfl

/-- A shaded key list. -/
theorem key_rows_shade {user_id team_id : Option String} {value : Json}
    (h : key_rows answer user_id team_id = .ok value) :
    key_rows (fun call => shade_reply c call (answer call)) user_id team_id =
      .ok (shade_rows c value) := by
  unfold key_rows at h ⊢
  -- one call; what is read of its answer is the list under `keys`
  cases hans : answer (.key_list user_id team_id) with
  | transport_error =>
    have hfail : outcome answer (request (.key_list user_id team_id)) = .error .transport := by
      show @Prog.answered Call HttpAns _ answer (.call _ _) = _
      simp only [Prog.answered, hans]
      rfl
    rw [outcome_bind_error answer hfail] at h
    cases h
  | response resp =>
    have hshade : shade_reply c (.key_list user_id team_id) (answer (.key_list user_id team_id)) =
        .response { resp with text := "", json := resp.json.map (shade_body c) } := by
      rw [hans]
      rfl
    rw [outcome_bind_ok answer (outcome_request answer hans), outcome_listed_eq] at h
    rw [outcome_bind_ok _ (outcome_request _ hshade), outcome_listed_eq]
    show (if resp.is_success then _ else _) = _
    cases hok : resp.is_success with
    | false =>
      rw [hok] at h
      cases h
    | true =>
      rw [hok, if_pos rfl] at h
      rw [if_pos rfl]
      cases hbody : resp.json with
      | none =>
        rw [hbody] at h
        cases h
      | some body =>
        rw [hbody] at h
        cases body with
        | obj fields =>
          cases h
          show Except.ok (((fields.map (shade_keys c)).lookup "keys").getD (.arr [])) = _
          rw [lookup_shade_keys]
          cases fields.lookup "keys" with
          | none => rfl
          | some value => rfl
        | null | bool | num | str | arr => cases h

/-- A key that the fallback keeps is among its keys. -/
theorem mem_owned_keys {rows : List Json} {ks : List Dict}
    (h : outcome answer (owned_keys settings sha256 email rows) = .ok ks) (hk : .obj k ∈ rows)
    (howned : is_text (field (metadata_of settings k) "email") email = true) :
    ∃ id created_at, hydrated id created_at k ∈ ks := by
  induction rows generalizing ks with
  | nil => cases hk
  | cons row rows ih =>
    cases row with
    | str api_key =>
      obtain ⟨full_info, -, h⟩ := outcome_bind_inv h
      obtain ⟨rest, hrest, h⟩ := outcome_bind_inv h
      obtain ⟨id, created_at, hmem⟩ := ih hrest (List.mem_of_ne_of_mem (by simp) hk)
      cases h
      refine ⟨id, created_at, ?_⟩
      generalize (if (field full_info "key").truthy then full_info
        else Json.set full_info "key" (.str api_key)) = full
      split
      · exact List.mem_cons_of_mem _ hmem
      · exact hmem
    | obj fields =>
      obtain ⟨owner, howner, h⟩ := outcome_bind_inv h
      rw [outcome_lift] at howner
      split at h
      · obtain ⟨id, -, h⟩ := outcome_bind_inv h
        obtain ⟨created_at, -, h⟩ := outcome_bind_inv h
        obtain ⟨rest, hrest, h⟩ := outcome_bind_inv h
        cases h
        rcases List.mem_cons.mp hk with hhead | hk
        · cases hhead
          exact ⟨id, created_at, List.mem_cons_self⟩
        · obtain ⟨id', created_at', hmem⟩ := ih hrest hk
          exact ⟨id', created_at', List.mem_cons_of_mem _ hmem⟩
      · next hother =>
        rcases List.mem_cons.mp hk with hhead | hk
        · cases hhead
          -- the owner that was read is the one of the metadata
          exfalso
          cases hmd : parse_metadata settings (field k "metadata") with
          | obj md =>
            rw [hmd] at howner
            cases howner
            rw [metadata_of_eq settings hmd] at howned
            exact hother howned
          | null | bool | num | str | arr =>
            rw [hmd] at howner
            cases howner
        · exact ih h hk
    | null | bool | num | arr => exact ih h (List.mem_of_ne_of_mem (by simp) hk)

/-- Shading gives an exposed key its shade as the id. -/
theorem exposed_shade {ks : List Dict} (hc : c ≠ "") (hsk : startsWith "sk-" c = false)
    (hexposed : Exposed settings answer email)
    (hraw : raw_keys settings sha256 (fun call => shade_reply c call (answer call)) email = .ok ks) :
    ∃ k ∈ ks, (listed_row settings sha256 k).id = .str c := by
  obtain ⟨rows, hrows, hcase⟩ := hexposed
  have hfull : FullObjects (rows.map (shade_row c)) ↔ FullObjects rows := by
    have htext (s : String) : .str s ∈ rows.map (shade_row c) ↔ .str s ∈ rows := by
      rw [List.mem_map]
      constructor
      · rintro ⟨row, hrow, hshade⟩
        cases row with
        | str s' =>
          cases hshade
          exact hrow
        | null | bool | num | arr | obj => cases hshade
      · exact fun hs => ⟨_, hs, rfl⟩
    unfold FullObjects
    simp only [htext]
  unfold raw_keys at hraw
  rw [key_rows_shade hrows] at hraw
  change (session_rows settings sha256 (rows.map (shade_row c))).bind _ = _ at hraw
  cases hread : session_rows settings sha256 (rows.map (shade_row c)) with
  | error e =>
    rw [hread] at hraw
    cases hraw
  | ok out =>
    rw [hread] at hraw
    -- exposed among full objects, or by the fallback over the team's keys
    rcases hcase with ⟨hobjects, k, hk, hhash⟩ | ⟨hnot, team, hteam, k, hk, hhash⟩
    · rw [session_rows_objects settings sha256 (hfull.mpr hobjects)] at hread
      cases out with
      | none =>
        cases hproject : project_all settings sha256 (objects (rows.map (shade_row c))) with
        | ok out =>
          rw [hproject] at hread
          cases hread
        | error e =>
          rw [hproject] at hread
          cases hread
      | some out =>
        cases hraw
        refine ⟨k.map (shade_field c), mem_objects.mpr ?_, id_of_shaded hc hsk hhash⟩
        exact List.mem_map_of_mem hk
    · cases out with
      | some out => exact absurd (hfull.mp (session_rows_some hread).1) hnot
      | none =>
        change outcome _ (list_litellm_keys settings sha256 email) = _ at hraw
        rw [list_litellm_keys_eq, key_rows_shade hteam] at hraw
        change (outcome _ (owned_keys settings sha256 email (team.map (shade_row c)))).bind _ = _ at hraw
        cases howned : outcome (fun call => shade_reply c call (answer call))
            (owned_keys settings sha256 email (team.map (shade_row c))) with
        | error e =>
          rw [howned] at hraw
          cases hraw
        | ok user_keys =>
          rw [howned] at hraw
          have hperm := newest_first_perm hraw
          have halike := alike_of_twin (twin_of_shade hc k)
          have hmem : .obj (k.map (shade_field c)) ∈ team.map (shade_row c) := List.mem_map_of_mem hk
          obtain ⟨id, created_at, hkept⟩ := mem_owned_keys howned hmem
            (by rw [← halike.metadata settings, hhash.1])
          exact ⟨_, hperm.mem_iff.mpr hkept, id_of_hydrated_shade hc hsk hhash⟩

/-- The ids are shown as they are. -/
theorem shown_ids {out : List SessionRow} {shown : List BrowserRow}
    (h : shown_rows answer email out = .ok shown) : shown.map (·.id) = out.map (·.id) := by
  have hsafe : (out.map safe_key).map (·.id) = out.map (·.id) := List.map_map
  unfold shown_rows at h
  cases hteams : outcome answer (list_user_teams email) with
  | ok teams =>
    rw [hteams] at h
    dsimp only at h
    by_cases hmask : ∀ row ∈ out.map safe_key, Maskable row.team_id
    · rw [mask_teams_ok hmask] at h
      cases h
      rw [← hsafe, List.map_map]
      -- masking changes the team of a row only
      refine List.map_congr_left fun row _ => ?_
      show (masked _ row).id = row.id
      unfold masked
      split
      · rfl
      · rfl
    · rw [mask_teams_error hmask] at h
      cases h
  | error e =>
    rw [hteams] at h
    cases e with
    | status | transport =>
      cases h
      exact hsafe
    | not_found | not_member | crashed => cases h

/-- Whoever is shown a listing is shown the ids of its dictionaries. -/
theorem ids_of_result {shown : List BrowserRow}
    (h : result answer (session_list_keys settings sha256 email) = .ok (.keys shown)) :
    ∃ ks, raw_keys settings sha256 answer email = .ok ks ∧
      (shown.map (·.id)).Perm (ks.map fun k => (listed_row settings sha256 k).id) := by
  cases hlist : outcome answer (list_session_keys settings sha256 email) with
  | error e =>
    rw [session_list_keys_error hlist] at h
    cases h
  | ok out =>
    rw [session_list_keys_result hlist] at h
    cases hshown : shown_rows answer email out with
    | error e =>
      rw [hshown] at h
      cases h
    | ok rows =>
      rw [hshown] at h
      cases h
      rw [list_session_keys_raw] at hlist
      cases hraw : raw_keys settings sha256 answer email with
      | error e =>
        rw [hraw] at hlist
        cases hlist
      | ok ks =>
        rw [hraw] at hlist
        -- the rows shown are those that were listed, sorted
        obtain ⟨-, hperm, -⟩ := project_sorted_ok hlist
        refine ⟨ks, rfl, ?_⟩
        rw [shown_ids hshown]
        have hids := hperm.map (·.id)
        rwa [List.map_map] at hids

theorem result_of_listed (h : Listed settings sha256 answer email) :
    ∃ shown, result answer (session_list_keys settings sha256 email) = .ok (.keys shown) := by
  obtain ⟨ks, hraw, hread, hsort, hmemberships⟩ := h
  have hlist : outcome answer (list_session_keys settings sha256 email) =
      project_sorted settings sha256 ks := by
    rw [list_session_keys_raw, hraw]
    rfl
  rw [project_sorted_of hread hsort] at hlist
  obtain ⟨shown, hshown, -⟩ :=
    shown_of_memberships (List.perm_insertionSort (Json.NotBelow sort_key) _) hmemberships
  exact ⟨shown, by rw [session_list_keys_result hlist, hshown]; rfl⟩

/-- Twins get one answer if and only if no listed key is exposed. -/
theorem no_leak_iff :
    (∀ answer', Twin answer answer' →
      result answer' (session_list_keys settings sha256 email) =
        result answer (session_list_keys settings sha256 email)) ↔
      (Listed settings sha256 answer email → ¬ Exposed settings answer email) := by
  constructor
  · intro hsame hlisted hexposed
    obtain ⟨shown, hshown⟩ := result_of_listed hlisted
    obtain ⟨ks, -, hids⟩ := ids_of_result hshown
    obtain ⟨c, hc, hsk, hfresh⟩ := exists_fresh (shown.map (·.id))
    have hshown' := (hsame _ (twin_shade hc answer)).trans hshown
    obtain ⟨ks', hraw', hids'⟩ := ids_of_result hshown'
    obtain ⟨k, hk, hid⟩ := exposed_shade hc hsk hexposed hraw'
    apply hfresh
    rw [hids'.mem_iff, ← hid]
    exact List.mem_map_of_mem hk
  · exact fun hno answer' htwin => same_answer htwin hno

end

/-! Two runs with a foreign key that has no alias. -/

/-- The listing of one key without an alias; LiteLLM says nothing of teams. -/
def hash_answer (token : String) : Call → HttpReply
  | .key_list _ _ => .response (key_page [[("token", .str token)]])
  | _ => .transport_error

/-- The id of the first key that the browser is shown. -/
def first_id : Except Answer Answer → Option String
  | .ok (.keys (row :: _)) => text? row.id
  | _ => none

/-- The browser is shown the hash. -/
theorem hash_leaks :
    ¬ ∀ (settings : LitellmSettings) (sha256 : String → String) (answer answer' : Call → HttpReply)
        (email : String), Twin answer answer' →
      result answer (session_list_keys settings sha256 email) =
        result answer' (session_list_keys settings sha256 email) := by
  intro h
  have htwin : Twin (hash_answer "h1") (hash_answer "h2") := by
    intro call
    cases call with
    | key_list user_id team_id => rfl
    | _ => rfl
  have hsame := h key_settings alias_digest _ _ "ann@example.com" htwin
  have hid : some "h1" = some "h2" := congrArg first_id hsame
  exact absurd hid (by decide)

end AlitellmAuth.Session
