import AlitellmAuth.Session.Listing

/-! # Full objects and bare hashes

    A proxy that ignores `return_full_object` answers the listing with bare
    hashes. The keys are then read one by one, and what is known of a key is
    projected a second time.

    * `ServesHashes`: the proxy that knows the same keys but lists hashes.
    * `fallback_bare`: a row of the fallback has no token and is not managed.
    * `modes_agree_iff`: the two listings agree only for a user without keys.
-/

namespace AlitellmAuth.Session

open Interleave Litellm

/-! ## The two modes -/

/-- A response with this body. -/
def ok_json (body : Json) : HttpReply := .response ⟨200, "", some body⟩

/-- The keys that are scoped to a team. -/
def keys_in_team (store : List Dict) (team_id : String) : List Dict :=
  store.filter fun k => is_text (field k "team_id") team_id

/-- `/key/list` with bare hashes. -/
def hashes (ks : List Dict) : Json := .obj [("keys", .arr (ks.map (field · "token")))]

/-- The listing is made of hashes, and `/key/info` has the records. -/
structure ServesHashes (answer : Call → HttpReply) (store : List Dict) : Prop where
  of_user : ∀ email, answer (.key_list (some email) none) = ok_json (hashes (keys_of store email))
  of_team : ∀ team_id, answer (.key_list none (some team_id)) =
    ok_json (hashes (keys_in_team store team_id))
  info : ∀ k ∈ store, ∀ token, field k "token" = .str token →
    answer (.key_info token) = ok_json (.obj [("key", .str token), ("info", .obj k)])

/-- Every key has a hash of its own. -/
structure Hashed (store : List Dict) : Prop where
  text : ∀ k ∈ store, ∃ token, field k "token" = .str token
  distinct : (store.map (field · "token")).Nodup

/-- The same row, for everything that delete, block and move look at or show. -/
def SameRow (a b : SessionRow) : Prop :=
  a.id = b.id ∧ a.token = b.token ∧ a.key_alias = b.key_alias ∧ a.spend = b.spend ∧
    a.team_id = b.team_id ∧ a.models = b.models ∧ a.created_at = b.created_at ∧
    a.expires = b.expires ∧ a.last_used = b.last_used ∧ a.blocked = b.blocked ∧
    a.managed = b.managed

/-- Both listings succeed, with the same rows. -/
def SameListing (a b : Except Failure (List SessionRow)) : Prop :=
  ∃ out out', a = .ok out ∧ b = .ok out' ∧ List.Forall₂ SameRow out out'

/-! ## The rows of the fallback -/

section
variable {settings : LitellmSettings} {sha256 : String → String} {answer : Call → HttpReply}
  {email : String}

/-- A hydrated key has neither a token nor metadata. -/
def Bare (k : Dict) : Prop := k.lookup "token" = none ∧ k.lookup "metadata" = none

theorem get_key_info_bare {api_key : String} {k : Dict}
    (h : outcome answer (get_key_info settings sha256 api_key) = .ok k) : Bare k := by
  unfold get_key_info at h
  obtain ⟨resp, -, h⟩ := outcome_bind_inv h
  obtain ⟨-, -, h⟩ := outcome_bind_inv h
  obtain ⟨body, -, h⟩ := outcome_bind_inv h
  split at h
  · split at h
    · obtain ⟨id, -, h⟩ := outcome_bind_inv h
      obtain ⟨email, -, h⟩ := outcome_bind_inv h
      obtain ⟨name, -, h⟩ := outcome_bind_inv h
      obtain ⟨created_at, -, h⟩ := outcome_bind_inv h
      cases h
      exact ⟨rfl, rfl⟩
    · cases h
  · cases h

theorem Bare.set_key {k : Dict} (h : Bare k) (value : Json) : Bare (Json.set k "key" value) := by
  unfold Bare
  rw [Json.lookup_set, Json.lookup_set]
  exact h

/-- The keys of the fallback, one row at a time. -/
theorem owned_keys_bare {rows : List Json} {ks : List Dict}
    (h : outcome answer (owned_keys settings sha256 email rows) = .ok ks) : ∀ k ∈ ks, Bare k := by
  induction rows generalizing ks with
  | nil =>
    cases h
    simp
  | cons row rows ih =>
    cases row with
    | str api_key =>
      obtain ⟨full_info, hinfo, h⟩ := outcome_bind_inv h
      obtain ⟨rest, hrest, h⟩ := outcome_bind_inv h
      -- what is hydrated from `/key/info` is bare before the filter
      have hbare : Bare (if (field full_info "key").truthy then full_info
          else Json.set full_info "key" (.str api_key)) := by
        split
        · exact get_key_info_bare hinfo
        · exact (get_key_info_bare hinfo).set_key _
      cases h
      generalize (if (field full_info "key").truthy then full_info
        else Json.set full_info "key" (.str api_key)) = hydrated at hbare ⊢
      split
      · exact List.forall_mem_cons.mpr ⟨hbare, ih hrest⟩
      · exact ih hrest
    | obj fields =>
      obtain ⟨owner, -, h⟩ := outcome_bind_inv h
      split at h
      · obtain ⟨id, -, h⟩ := outcome_bind_inv h
        obtain ⟨created_at, -, h⟩ := outcome_bind_inv h
        obtain ⟨rest, hrest, h⟩ := outcome_bind_inv h
        cases h
        exact List.forall_mem_cons.mpr ⟨⟨rfl, rfl⟩, ih hrest⟩
      · exact ih h
    | null | bool | num | arr => exact ih h

theorem list_litellm_keys_bare {ks : List Dict}
    (h : outcome answer (list_litellm_keys settings sha256 email) = .ok ks) : ∀ k ∈ ks, Bare k := by
  unfold list_litellm_keys at h
  obtain ⟨resp, -, h⟩ := outcome_bind_inv h
  obtain ⟨keys, -, h⟩ := outcome_bind_inv h
  split at h
  · obtain ⟨user_keys, hkeys, h⟩ := outcome_bind_inv h
    intro k hk
    exact owned_keys_bare hkeys k ((newest_first_perm h).mem_iff.mp hk)
  · cases h
    simp

/-- A row of the fallback cannot be deleted, blocked or moved: it has no token
    and counts as managed elsewhere. -/
theorem fallback_bare {out : List SessionRow}
    (h : outcome answer (list_session_keys_fallback settings sha256 email) = .ok out) :
    ∀ row ∈ out, row.token = .null ∧ row.managed = false := by
  unfold list_session_keys_fallback at h
  obtain ⟨ks, hks, h⟩ := outcome_bind_inv h
  have hbare := list_litellm_keys_bare hks
  rw [outcome_lift] at h
  obtain ⟨-, hperm, -⟩ := project_sorted_ok h
  intro row hrow
  obtain ⟨k, hk, rfl⟩ := List.mem_map.mp (hperm.mem_iff.mp hrow)
  obtain ⟨htoken, hmetadata⟩ := hbare k hk
  have hempty : metadata_of settings k = [] := by
    unfold metadata_of field
    rw [hmetadata]
    rfl
  refine ⟨?_, ?_⟩
  · show field k "token" = .null
    rw [field, htoken]
    rfl
  · show is_text (field (metadata_of settings k) "source") "token-factory" = false
    rw [hempty]
    rfl

/-! ## Agreement -/

variable {store : List Dict} {full hashed : Call → HttpReply}

theorem outcome_listed_hashes (ks : List Dict) :
    outcome answer (listed ⟨200, "", some (hashes ks)⟩) =
      .ok (.arr (ks.map (field · "token"))) := rfl

/-- A user without keys has an empty listing. -/
theorem hashes_nil (hserves : ServesHashes answer store) (hnone : keys_of store email = []) :
    outcome answer (list_session_keys settings sha256 email) = .ok [] := by
  unfold list_session_keys
  rw [outcome_bind_ok answer (outcome_request answer (hserves.of_user email)),
    outcome_bind_ok answer (outcome_listed_hashes _), hnone]
  rfl

/-- The first hash makes the listing fall back. -/
theorem hashes_cons (hserves : ServesHashes answer store) {k : Dict} {ks : List Dict}
    {token : String} (hkeys : keys_of store email = k :: ks)
    (htoken : field k "token" = .str token) :
    outcome answer (list_session_keys settings sha256 email) =
      outcome answer (list_session_keys_fallback settings sha256 email) := by
  unfold list_session_keys
  rw [outcome_bind_ok answer (outcome_request answer (hserves.of_user email)),
    outcome_bind_ok answer (outcome_listed_hashes _), hkeys, List.map_cons, htoken]
  rfl

theorem same_of_mem {out out' : List SessionRow} {row : SessionRow}
    (h : List.Forall₂ SameRow out out') (hrow : row ∈ out) : ∃ row' ∈ out', SameRow row row' := by
  induction h with
  | nil => cases hrow
  | cons hhead htail ih =>
    rcases List.mem_cons.mp hrow with rfl | hrow
    · exact ⟨_, List.mem_cons_self, hhead⟩
    · obtain ⟨row', hrow', hsame⟩ := ih hrow
      exact ⟨row', List.mem_cons_of_mem _ hrow', hsame⟩

/-- The two listings agree if and only if the user has no key. -/
theorem modes_agree_iff (hstore : Hashed store)
    (hfull : ∀ email, Serves full email (keys_of store email))
    (hhashed : ServesHashes hashed store) :
    SameListing (outcome full (list_session_keys settings sha256 email))
      (outcome hashed (list_session_keys settings sha256 email)) ↔ keys_of store email = [] := by
  constructor
  · rintro ⟨out, out', hout, hout', hsame⟩
    cases hkeys : keys_of store email with
    | nil => rfl
    | cons k ks =>
      have hk : k ∈ keys_of store email := by
        rw [hkeys]
        exact List.mem_cons_self
      obtain ⟨token, htoken⟩ := hstore.text k (List.mem_of_mem_filter hk)
      rw [hashes_cons hhashed hkeys htoken] at hout'
      obtain ⟨-, hperm⟩ := listing_perm (hfull email) hout
      have hrow : listed_row settings sha256 k ∈ out :=
        hperm.mem_iff.mpr (List.mem_map_of_mem hk)
      -- its counterpart has lost the token
      obtain ⟨row, hrow', hrel⟩ := same_of_mem hsame hrow
      have hnull : field k "token" = .null :=
        hrel.2.1.trans (fallback_bare hout' row hrow').1
      rw [htoken] at hnull
      cases hnull
  · intro hnone
    have hserves := hfull email
    rw [hnone] at hserves
    exact ⟨[], [], list_session_keys_serves hserves, hashes_nil hhashed hnone, .nil⟩

end

/-! A key of ours, in both modes. -/

/-- LiteLLM with these keys, as full objects. -/
def full_answer (store : List Dict) : Call → HttpReply
  | .key_list (some email) none => .response (key_page (keys_of store email))
  | _ => .transport_error

/-- The same keys as hashes. -/
def hashed_answer (store : List Dict) : Call → HttpReply
  | .key_list (some email) none => ok_json (hashes (keys_of store email))
  | .key_list none (some team_id) => ok_json (hashes (keys_in_team store team_id))
  | .key_info token =>
      match store.find? fun k => is_text (field k "token") token with
      | some k => ok_json (.obj [("key", .str token), ("info", .obj k)])
      | none => .response ⟨404, "", none⟩
  | _ => .transport_error

theorem full_answer_serves (store : List Dict) (email : String) :
    Serves (full_answer store) email (keys_of store email) :=
  ⟨_, _, rfl, rfl, rfl, rfl⟩

theorem hashed_answer_serves : ServesHashes (hashed_answer [our_key]) [our_key] where
  of_user _ := rfl
  of_team _ := rfl
  info k hk token htoken := by
    obtain rfl := List.mem_singleton.mp hk
    cases htoken
    rfl

theorem our_key_hashed : Hashed [our_key] where
  text k hk := by
    obtain rfl := List.mem_singleton.mp hk
    exact ⟨"h1", rfl⟩
  distinct := List.nodup_singleton _

theorem modes_agree_sample :
    SameListing
      (outcome (full_answer [our_key])
        (list_session_keys key_settings alias_digest "bob@example.com"))
      (outcome (hashed_answer [our_key])
        (list_session_keys key_settings alias_digest "bob@example.com")) :=
  (modes_agree_iff our_key_hashed (full_answer_serves _) hashed_answer_serves).mpr rfl

/-- The owner of the key sees it in one mode, and not in the other. -/
theorem modes_disagree :
    ¬ ∀ (settings : LitellmSettings) (sha256 : String → String) (store : List Dict)
        (full hashed : Call → HttpReply) (email : String), Hashed store →
      (∀ email, Serves full email (keys_of store email)) → ServesHashes hashed store →
      SameListing (outcome full (list_session_keys settings sha256 email))
        (outcome hashed (list_session_keys settings sha256 email)) := by
  intro h
  obtain ⟨out, out', hout, hout', hsame⟩ := h key_settings alias_digest [our_key]
    (full_answer [our_key]) (hashed_answer [our_key]) "ann@example.com" our_key_hashed
    (full_answer_serves _) hashed_answer_serves
  cases hout
  cases hout'
  cases hsame

end AlitellmAuth.Session
