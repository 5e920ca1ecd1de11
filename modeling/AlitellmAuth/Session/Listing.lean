import AlitellmAuth.Session.Manage
import AlitellmAuth.Stats.TopKeys

/-! # The whole key list

    `GET /api/session/keys` in terms of the listing and of the memberships, and
    when it is the list of all keys.

    * `session_list_keys_result`: what the route answers.
    * `Covers`: every key of the user is returned, shown, manageable and, in the
      usage panel, alive.
    * `covers_iff`: exactly when that is so. LiteLLM serves its keys in pages,
      and only the first one is ever asked for.
-/

namespace AlitellmAuth.Session

open Interleave Text Litellm

/-! ## The route -/

section
variable {α β : Type} {answer : Call → HttpReply}

theorem result_bind (p : H α) (f : α → H β) :
    result answer (p >>= f) =
      match result answer p with
      | .ok a => result answer (f a)
      | .error e => .error e := by
  unfold result
  show @Prog.answered Call HttpAns _ answer (p.run >>= _) = _
  rw [Prog.answered_bind]
  cases @Prog.answered Call HttpAns _ answer p.run with
  | ok a => rfl
  | error e => rfl

end

/-- A team id that can be looked up among the memberships. -/
def Maskable (team_id : Json) : Prop := team_id.truthy = true → team_id.hashable = true

/-- A row with its team masked. -/
def masked (ids : List Json) (row : BrowserRow) : BrowserRow :=
  if row.team_id.truthy && !ids.any row.team_id.keyEq then
    { row with team_id := .str "(internal)" }
  else row

theorem mask_team_ok {ids : List Json} {row : BrowserRow} (h : Maskable row.team_id) :
    mask_team ids row = .ok (masked ids row) := by
  unfold mask_team masked
  cases htruthy : row.team_id.truthy with
  | false => rfl
  | true =>
    rw [h htruthy]
    cases ids.any row.team_id.keyEq <;> rfl

theorem mask_team_error {ids : List Json} {row : BrowserRow} (h : ¬ Maskable row.team_id) :
    mask_team ids row = .error .crashed := by
  unfold Maskable at h
  rw [Classical.not_imp, Bool.not_eq_true] at h
  unfold mask_team
  rw [h.1, h.2]
  rfl

theorem mask_teams_ok {ids : List Json} {rows : List BrowserRow}
    (h : ∀ row ∈ rows, Maskable row.team_id) :
    mask_teams ids rows = .ok (rows.map (masked ids)) := by
  induction rows with
  | nil => rfl
  | cons row rows ih =>
    have htail := ih fun row' hrow' => h row' (List.mem_cons_of_mem _ hrow')
    unfold mask_teams
    rw [mask_team_ok (h row List.mem_cons_self), htail]
    rfl

theorem mask_teams_error {ids : List Json} {rows : List BrowserRow}
    (h : ¬ ∀ row ∈ rows, Maskable row.team_id) : mask_teams ids rows = .error .crashed := by
  induction rows with
  | nil => exact absurd (by simp) h
  | cons row rows ih =>
    unfold mask_teams
    by_cases hrow : Maskable row.team_id
    · have htail := ih fun hall => h (List.forall_mem_cons.mpr ⟨hrow, hall⟩)
      rw [mask_team_ok hrow, htail]
      rfl
    · rw [mask_team_error hrow]
      rfl

section
variable (settings : LitellmSettings) (sha256 : String → String) (answer : Call → HttpReply)
  (email : String)

/-- The rows the browser gets: masked if LiteLLM says of which teams the user
    is a member. -/
def shown_rows (out : List SessionRow) : Except Answer (List BrowserRow) :=
  match outcome answer (list_user_teams email) with
  | .ok teams => mask_teams (teams.map (·.1)) (out.map safe_key)
  | .error (.status ..) => .ok (out.map safe_key)
  | .error .transport => .ok (out.map safe_key)
  | .error _ => .error .crashed

variable {settings sha256 answer email} {out : List SessionRow}

theorem result_member_team_ids :
    result answer (member_team_ids email) =
      match outcome answer (list_user_teams email) with
      | .ok teams => .ok (some (teams.map (·.1)))
      | .error (.status ..) => .ok none
      | .error .transport => .ok none
      | .error _ => .error .crashed := by
  unfold result outcome
  show @Prog.answered Call HttpAns _ answer ((list_user_teams email).run >>= _) = _
  rw [Prog.answered_bind]
  cases @Prog.answered Call HttpAns _ answer (list_user_teams email).run with
  | ok teams => rfl
  | error e => cases e <;> rfl

theorem session_list_keys_result
    (hlist : outcome answer (list_session_keys settings sha256 email) = .ok out) :
    result answer (session_list_keys settings sha256 email) =
      (shown_rows answer email out).map Answer.keys := by
  unfold session_list_keys shown_rows
  rw [result_bind, result_relist hlist]
  dsimp only
  rw [result_bind, result_member_team_ids]
  cases outcome answer (list_user_teams email) with
  | ok teams =>
    dsimp only
    rw [result_bind]
    cases mask_teams (teams.map (·.1)) (out.map safe_key) with
    | ok rows => rfl
    | error e => rfl
  | error e => cases e <;> rfl

end

/-! ## All keys -/

/-- The keys of a user in LiteLLM's table. -/
def keys_of (store : List Dict) (email : String) : List Dict :=
  store.filter fun k => is_text (field k "user_id") email

/-- The `size` parameter of the listing. -/
def page_size : Nat := 100

/-- A JSON text. -/
def text? : Json → Option String
  | .str s => some s
  | _ => none

/-- A listed key, as the usage panel reads it. -/
def panel_key (row : SessionRow) : Stats.SessionKey where
  id := text? row.id
  token := text? row.token
  key_alias := text? row.key_alias
  team_id := text? row.team_id
  managed := row.managed

section
variable (settings : LitellmSettings) (sha256 : String → String) (answer : Call → HttpReply)
  (email : String)

/-- The spend logs know a key by its token. No usage of the key is marked as
    that of a deleted key. -/
def Alive (out : List SessionRow) (k : Dict) : Prop :=
  ∀ usage : Stats.UsageRow, ∀ token, field k "token" = .str token → token ≠ "" →
    usage.id = some token →
    ∀ row ∈ Stats.resolve_key_display sha256 [usage] (some (out.map panel_key)),
      row.deleted = some false

/-- A listing with every key in it: each is returned, shown to the browser,
    acted on by its id, and alive in the usage panel. -/
structure Covers (keys : List Dict) (out : List SessionRow) (shown : List BrowserRow) : Prop where
  returned : ∀ k ∈ keys, ∃ row ∈ out,
    project_session_key sha256 k (parse_metadata settings (field k "metadata")) = .ok row
  displayed : ∀ k ∈ keys, ∃ row ∈ shown,
    row.id = (listed_row settings sha256 k).id ∧
      row.key_alias = (listed_row settings sha256 k).key_alias
  managed : ∀ k ∈ keys, ∃ key_id, (listed_row settings sha256 k).id = .str key_id ∧
    ActsOn settings sha256 answer email (listed_row settings sha256 k) key_id
  alive : ∀ k ∈ keys, Alive sha256 out k

/-- The listing and the route succeed, and cover all keys. -/
def CoversAll (keys : List Dict) : Prop :=
  ∃ out shown, outcome answer (list_session_keys settings sha256 email) = .ok out ∧
    result answer (session_list_keys settings sha256 email) = .ok (.keys shown) ∧
    Covers settings sha256 answer email keys out shown

/-- The memberships can be read, or LiteLLM does not answer; and every team id
    can be looked up in them. -/
def MembershipsRead (keys : List Dict) : Prop :=
  match outcome answer (list_user_teams email) with
  | .ok _ => ∀ k ∈ keys, Maskable (field k "team_id")
  | .error (.status ..) => True
  | .error .transport => True
  | .error _ => False

/-- The keys fit on one page, can be read, sorted and told apart. -/
structure OnePage (keys : List Dict) : Prop where
  fits : keys.length ≤ page_size
  readable : ∀ k ∈ keys, Readable settings k
  sortable : keys.Pairwise (Json.Comparable (created_key settings sha256))
  apart : Apart settings sha256 keys
  memberships : MembershipsRead answer email keys

variable {settings sha256 answer email} {ks : List Dict} {out : List SessionRow}

/-- The token of a listed key keeps its usage alive. -/
theorem alive_of_listed {k : Dict} (hrow : listed_row settings sha256 k ∈ out) :
    Alive sha256 out k := by
  intro usage token htoken hne hid row hrow'
  rw [Stats.resolve_key_display_eq] at hrow'
  obtain rfl := List.mem_singleton.mp hrow'
  have hmatch : (Stats.owner sha256 (out.map panel_key) usage).isSome = true := by
    rw [Option.isSome_iff_ne_none]
    intro hnone
    have hunlisted := Stats.owner_isNone sha256 (out.map panel_key) usage
    rw [hnone] at hunlisted
    unfold Stats.unlisted at hunlisted
    rw [Option.isNone_none, eq_comm, Bool.not_eq_true', List.any_eq_false] at hunlisted
    apply hunlisted _ (List.mem_map_of_mem hrow)
    have htext : (panel_key (listed_row settings sha256 k)).token = some token := by
      show text? (field k "token") = _
      rw [htoken]
      rfl
    simp [Stats.byToken, Stats.present, hid, htext, hne]
  obtain ⟨key, hkey⟩ := Option.isSome_iff_exists.mp hmatch
  dsimp only
  rw [hkey]
  rfl

/-- A row that was projected is the row of its key. -/
theorem eq_listed_row {k : Dict} {row : SessionRow}
    (h : project_session_key sha256 k (parse_metadata settings (field k "metadata")) = .ok row) :
    row = listed_row settings sha256 k := by
  by_cases hread : Readable settings k
  · rw [project_readable settings sha256 hread] at h
    cases h
    rfl
  · rw [project_error settings sha256 hread] at h
    cases h

/-- What the browser is shown: an entry for each row. -/
theorem shown_of_memberships (hrows : out.Perm (ks.map (listed_row settings sha256)))
    (hread : MembershipsRead answer email ks) :
    ∃ shown, shown_rows answer email out = .ok shown ∧
      ∀ row ∈ out, ∃ entry ∈ shown, entry.id = row.id ∧ entry.key_alias = row.key_alias := by
  have hraw : ∀ row ∈ out, ∃ entry ∈ out.map safe_key,
      entry.id = row.id ∧ entry.key_alias = row.key_alias :=
    fun row hrow => ⟨safe_key row, List.mem_map_of_mem hrow, rfl, rfl⟩
  unfold shown_rows
  unfold MembershipsRead at hread
  cases hres : outcome answer (list_user_teams email) with
  | ok teams =>
    rw [hres] at hread
    -- every team can be masked, as every membership could be read
    have hmask : ∀ entry ∈ out.map safe_key, Maskable entry.team_id := by
      intro entry hentry
      obtain ⟨row, hrow, rfl⟩ := List.mem_map.mp hentry
      obtain ⟨k, hk, rfl⟩ := List.mem_map.mp (hrows.mem_iff.mp hrow)
      exact hread k hk
    refine ⟨_, mask_teams_ok hmask, ?_⟩
    intro row hrow
    refine ⟨_, List.mem_map_of_mem (List.mem_map_of_mem hrow), ?_⟩
    unfold masked
    split
    · exact ⟨rfl, rfl⟩
    · exact ⟨rfl, rfl⟩
  | error e =>
    rw [hres] at hread
    cases e with
    | status | transport => exact ⟨_, rfl, hraw⟩
    | not_found | not_member | crashed => exact hread.elim

theorem memberships_of_shown {shown : List BrowserRow}
    (hrows : out.Perm (ks.map (listed_row settings sha256)))
    (hshown : shown_rows answer email out = .ok shown) : MembershipsRead answer email ks := by
  unfold shown_rows at hshown
  unfold MembershipsRead
  cases hres : outcome answer (list_user_teams email) with
  | ok teams =>
    rw [hres] at hshown
    intro k hk
    have hmem : safe_key (listed_row settings sha256 k) ∈ out.map safe_key :=
      List.mem_map_of_mem (hrows.mem_iff.mpr (List.mem_map_of_mem hk))
    by_contra hnot
    have herror : mask_teams (teams.map (·.1)) (out.map safe_key) = .error .crashed :=
      mask_teams_error fun hall => hnot (hall _ hmem)
    dsimp only at hshown
    rw [herror] at hshown
    cases hshown
  | error e =>
    rw [hres] at hshown
    cases e with
    | status | transport => trivial
    | not_found | not_member | crashed => cases hshown

/-- A key beyond the first page is not returned. -/
theorem fits_of_covers {keys : List Dict} (htokens : (keys.map (field · "token")).Nodup)
    (hpaged : Serves answer email (keys.take page_size))
    (hcovers : CoversAll settings sha256 answer email keys) : keys.length ≤ page_size := by
  obtain ⟨out, shown, hlist, -, hcovers⟩ := hcovers
  by_contra hlong
  obtain ⟨late, hlate⟩ : ∃ late, late ∈ keys.drop page_size := by
    apply List.exists_mem_of_length_pos
    rw [List.length_drop]
    omega
  obtain ⟨row, hrow, hproject⟩ := hcovers.returned late (List.mem_of_mem_drop hlate)
  -- its token would be the one of a key on the first page
  obtain ⟨hread, hperm⟩ := listing_perm hpaged hlist
  obtain ⟨k, hk, hkrow⟩ := List.mem_map.mp (hperm.mem_iff.mp hrow)
  rw [eq_listed_row hproject] at hkrow
  have htoken : field k "token" = field late "token" := congrArg SessionRow.token hkrow
  rw [← List.take_append_drop page_size keys, List.map_append, List.nodup_append] at htokens
  exact htokens.2.2 _ (List.mem_map_of_mem hk) _ (List.mem_map_of_mem hlate) htoken

theorem nodup_keys_of {store : List Dict} (htokens : (store.map (field · "token")).Nodup) :
    ((keys_of store email).map (field · "token")).Nodup :=
  htokens.sublist (List.filter_sublist.map _)

/-- Every key of the user is covered if and only if the keys fit on one page
    and the page can be listed. -/
theorem covers_iff {store : List Dict} (hinj : Function.Injective sha256)
    (htokens : (store.map (field · "token")).Nodup)
    (hpaged : Serves answer email ((keys_of store email).take page_size)) :
    CoversAll settings sha256 answer email (keys_of store email) ↔
      OnePage settings sha256 answer email (keys_of store email) := by
  have hnodup : ((keys_of store email).map (field · "token")).Nodup := nodup_keys_of htokens
  generalize keys_of store email = keys at hpaged hnodup ⊢
  constructor
  · intro hall
    have hfits := fits_of_covers hnodup hpaged hall
    obtain ⟨out, shown, hlist, hres, hcovers⟩ := hall
    rw [List.take_of_length_le hfits] at hpaged
    obtain ⟨hread, hperm⟩ := listing_perm hpaged hlist
    have hshown : shown_rows answer email out = .ok shown := by
      rw [session_list_keys_result hlist] at hres
      cases hrows : shown_rows answer email out with
      | ok rows =>
        rw [hrows] at hres
        cases hres
        rfl
      | error e =>
        rw [hrows] at hres
        cases hres
    rw [list_session_keys_serves hpaged] at hlist
    obtain ⟨-, -, hsort⟩ := project_sorted_ok hlist
    refine ⟨hfits, hread, hsort, ⟨?_, ?_⟩, memberships_of_shown hperm hshown⟩
    · intro k hk
      obtain ⟨key_id, hid, -⟩ := hcovers.managed k hk
      exact (id_text_iff (hread k hk)).mp ⟨key_id, hid⟩
    · have hpair := List.pairwise_map.mp hnodup
      refine hpair.imp_of_mem fun {k k'} hk hk' hne hclash => hne ?_
      -- one id, so blocking it sends both tokens
      have hid := (id_eq_iff hinj (hread k hk) (hread k' hk')).mpr hclash
      obtain ⟨key_id, hkey, hacts⟩ := hcovers.managed k hk
      obtain ⟨key_id', hkey', hacts'⟩ := hcovers.managed k' hk'
      rw [hid, hkey'] at hkey
      cases hkey
      have hblock := (hacts.block true).symm.trans (hacts'.block true)
      rw [List.singleton_inj, Call.key_block.injEq] at hblock
      exact hblock.1
  · rintro ⟨hfits, hread, hsort, hapart, hmemberships⟩
    rw [List.take_of_length_le hfits] at hpaged
    obtain ⟨out, hlist⟩ : ∃ out, outcome answer (list_session_keys settings sha256 email) = .ok out :=
      ⟨_, (list_session_keys_serves hpaged).trans (project_sorted_of hread hsort)⟩
    obtain ⟨-, hperm⟩ := listing_perm hpaged hlist
    have hmem {k : Dict} (hk : k ∈ keys) : listed_row settings sha256 k ∈ out :=
      hperm.mem_iff.mpr (List.mem_map_of_mem hk)
    obtain ⟨shown, hshown, hentries⟩ := shown_of_memberships hperm hmemberships
    have hchosen := chosen_of_apart hinj hpaged hlist hapart
    refine ⟨out, shown, hlist, ?_, ?_, ?_, ?_, ?_⟩
    · rw [session_list_keys_result hlist, hshown]
      rfl
    · exact fun k hk => ⟨_, hmem hk, project_readable settings sha256 (hread k hk)⟩
    · exact fun k hk => hentries _ (hmem hk)
    · exact fun k hk => hchosen.2 _ (hmem hk)
    · exact fun k hk => alive_of_listed (hmem hk)

end

/-! Keys without an alias, more than a page of them. -/

/-- The key with a number. -/
def numbered_key (n : Nat) : Dict :=
  [("token", .str (String.ofList (List.replicate (n + 1) 'a'))),
    ("user_id", .str "ann@example.com")]

def numbered_store (n : Nat) : List Dict := (List.range n).map numbered_key

/-- LiteLLM with these keys; the user is in no team. -/
def paged_answer (store : List Dict) : Call → HttpReply
  | .key_list (some email) none => .response (key_page ((keys_of store email).take page_size))
  | .team_list => .response ⟨200, "", some (.arr [])⟩
  | .user_info _ => .response ⟨200, "", some (.obj [("user_info", .obj [("teams", .arr [])])])⟩
  | _ => .transport_error

theorem paged_answer_serves (store : List Dict) (email : String) :
    Serves (paged_answer store) email ((keys_of store email).take page_size) :=
  ⟨_, _, rfl, rfl, rfl, rfl⟩

theorem numbered_tokens (n : Nat) : ((numbered_store n).map (field · "token")).Nodup := by
  unfold numbered_store
  rw [List.map_map]
  refine List.nodup_range.map ?_
  intro i j hij
  have htoken : Json.str (String.ofList (List.replicate (i + 1) 'a')) =
      Json.str (String.ofList (List.replicate (j + 1) 'a')) := hij
  rw [Json.str.injEq, String.ofList_inj] at htoken
  simpa using congrArg List.length htoken

theorem keys_of_numbered (n : Nat) : keys_of (numbered_store n) "ann@example.com" = numbered_store n := by
  unfold keys_of
  rw [List.filter_eq_self]
  intro k hk
  obtain ⟨i, -, rfl⟩ := List.mem_map.mp hk
  rfl

/-- A key of another user. -/
def bobs_key : Dict := [("token", .str "h4"), ("user_id", .str "bob@example.com")]

theorem covers_sample :
    CoversAll key_settings alias_digest (paged_answer (bobs_key :: our_keys)) "ann@example.com"
      (keys_of (bobs_key :: our_keys) "ann@example.com") := by
  have htokens : ((bobs_key :: our_keys).map (field · "token")).Nodup := by
    show ["h4", "h1", "h2", "h3"].map Json.str |>.Nodup
    exact List.Nodup.map (fun _ _ => Json.str.inj) (by decide)
  refine (covers_iff alias_digest.injective htokens (paged_answer_serves _ _)).mpr ?_
  show OnePage _ _ _ _ our_keys
  refine ⟨by decide, ?_, by decide, our_keys_apart, ?_⟩
  · intro k hk
    rcases mem_our_keys.mp hk with rfl | rfl | rfl
    · exact ⟨_, rfl, fun _ => ⟨_, rfl⟩⟩
    · exact ⟨_, rfl, fun _ => ⟨_, rfl⟩⟩
    · exact ⟨_, rfl, fun h => by cases h⟩
  · show ∀ k ∈ our_keys, Maskable (field k "team_id")
    intro k hk
    rcases mem_our_keys.mp hk with rfl | rfl | rfl <;> exact fun h => by cases h

/-- With 101 keys, one of them is not listed. -/
theorem second_page_lost :
    ¬ ∀ (settings : LitellmSettings) (sha256 : String → String) (answer : Call → HttpReply)
        (email : String) (store : List Dict),
      Function.Injective sha256 → (store.map (field · "token")).Nodup →
      Serves answer email ((keys_of store email).take page_size) →
      CoversAll settings sha256 answer email (keys_of store email) := by
  intro h
  have hcovers := h key_settings alias_digest (paged_answer (numbered_store 101))
    "ann@example.com" (numbered_store 101) alias_digest.injective (numbered_tokens 101)
    (paged_answer_serves _ _)
  have hfits := fits_of_covers (nodup_keys_of (numbered_tokens 101)) (paged_answer_serves _ _) hcovers
  rw [keys_of_numbered, numbered_store, List.length_map, List.length_range] at hfits
  exact absurd hfits (by decide)

end AlitellmAuth.Session
