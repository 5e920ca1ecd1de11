import Mathlib.Logic.Equiv.Basic
import AlitellmAuth.Session.Keys

/-! # Acting on a chosen key

    The routes that delete, block and move a key find it by its id. They act on
    the chosen key exactly when ids tell keys apart.

    * `result`, `sent`: what a route ends with and which keys it writes, given
      LiteLLM's answers.
    * `find_row`: with distinct ids, the id of a row finds that row.
    * `Apart`: the rows whose ids are distinct texts.
    * `acts_on_chosen_iff`: the routes act on the chosen key if and only if the
      rows are apart.
-/

namespace AlitellmAuth.Session

open Interleave Text Litellm

/-! ## Running a route -/

section
variable {α β : Type} (answer : Call → HttpReply)

/-- What a route ends with, given the answer to each request. -/
def result (p : H α) : Except Answer α := @Prog.answered Call HttpAns _ answer p.run

/-- The requests that create or change a key. -/
def writes_key : Call → Bool
  | .key_generate _ => true
  | .key_update .. => true
  | .key_delete _ => true
  | .key_block .. => true
  | _ => false

/-- The requests of a route that create or change a key, in order. -/
def sent (p : H α) : List Call := (@Prog.asked Call HttpAns _ answer p.run).filter writes_key

variable {answer} {p : H α} {f : α → H β}

theorem sent_bind_ok {a : α} (h : result answer p = .ok a) :
    sent answer (p >>= f) = sent answer p ++ sent answer (f a) := by
  unfold sent
  show (@Prog.asked Call HttpAns _ answer (p.run >>= _)).filter _ = _
  unfold result at h
  rw [Prog.asked_bind, List.filter_append, h]
  rfl

theorem sent_bind_error {e : Answer} (h : result answer p = .error e) :
    sent answer (p >>= f) = sent answer p := by
  unfold sent
  show (@Prog.asked Call HttpAns _ answer (p.run >>= _)).filter _ = _
  unfold result at h
  rw [Prog.asked_bind, List.filter_append, h]
  exact List.append_nil _

@[simp] theorem sent_pure (a : α) : sent answer (pure a : H α) = [] := rfl

@[simp] theorem sent_throw (e : Answer) : sent answer (throw e : H α) = [] := rfl

/-- A client function answers a route with its own result. -/
theorem result_attempt (q : L α) (on : Failure → Answer) :
    result answer (attempt q on) =
      match outcome answer q with
      | .ok a => .ok a
      | .error e => .error (on e) := by
  unfold result outcome
  show @Prog.answered Call HttpAns _ answer (q.run >>= _) = _
  rw [Prog.answered_bind]
  cases @Prog.answered Call HttpAns _ answer q.run with
  | ok a => rfl
  | error e => rfl

/-- And sends no more than the function does. -/
theorem sent_attempt (q : L α) (on : Failure → Answer) :
    sent answer (attempt q on) =
      (@Prog.asked Call HttpAns _ answer q.run).filter writes_key := by
  unfold sent
  show (@Prog.asked Call HttpAns _ answer (q.run >>= _)).filter _ = _
  rw [Prog.asked_bind, List.filter_append]
  cases @Prog.answered Call HttpAns _ answer q.run with
  | ok a => exact List.append_nil _
  | error e => exact List.append_nil _

/-- A client function that writes no key. -/
theorem asked_quiet {q : L α} (h : Sends (fun call => writes_key call = false) q) :
    (@Prog.asked Call HttpAns _ answer q.run).filter writes_key = [] := by
  have hall (r : Prog Call HttpAns (Except Failure α)) (tr : LTrace)
      (hr : r.Along (fun _ e => writes_key e.1 = false) (fun _ _ => True) tr) :
      (r.asked answer).filter writes_key = [] := by
    induction r generalizing tr with
    | ret a => rfl
    | call op k ih =>
      show (op :: _).filter writes_key = []
      rw [List.filter_cons_of_neg (by simp [(hr (answer op)).1])]
      exact ih _ _ (hr (answer op)).2
  exact hall _ [] (h [])

end

/-! ## The requests of each route -/

section
variable {settings : LitellmSettings} {sha256 : String → String} {answer : Call → HttpReply}
  {email : String} {out : List SessionRow}

theorem sent_relist : sent answer (relist_or_502 settings sha256 email) = [] := by
  unfold relist_or_502
  rw [sent_attempt]
  exact asked_quiet (sends_list_session_keys (fun _ => rfl) (fun _ _ => rfl) email)

theorem result_relist
    (hlist : outcome answer (list_session_keys settings sha256 email) = .ok out) :
    result answer (relist_or_502 settings sha256 email) = .ok out := by
  unfold relist_or_502
  rw [result_attempt, hlist]

/-- The row an id finds. -/
def find_row (out : List SessionRow) (key_id : String) : Option SessionRow :=
  out.find? fun k => is_text k.id key_id

/-- After the listing, the route goes on with the row that was found. -/
theorem sent_owned {β : Type} {key_id : String} {f : SessionRow → H β}
    (hlist : outcome answer (list_session_keys settings sha256 email) = .ok out) :
    sent answer (do f (← owned (← relist_or_502 settings sha256 email) key_id)) =
      ((find_row out key_id).elim [] fun target => sent answer (f target)) := by
  rw [sent_bind_ok (result_relist hlist), sent_relist]
  unfold find_row
  cases hfind : out.find? fun k => is_text k.id key_id with
  | none =>
    have howned : owned out key_id = throw (.error 403 "Not authorized") := by
      unfold owned
      rw [hfind]
    rw [howned, sent_bind_error rfl]
    rfl
  | some target =>
    have howned : owned out key_id = pure target := by
      unfold owned
      rw [hfind]
    rw [howned, sent_bind_ok rfl]
    rfl

/-- Only a key of ours gets past `_require_managed`. -/
theorem sent_managed {β : Type} {target : SessionRow} {p : H β} :
    sent answer (do require_managed target; p) = if target.managed then sent answer p else [] := by
  unfold require_managed
  cases target.managed with
  | false => exact sent_bind_error rfl
  | true => exact sent_bind_ok rfl

/-- A client function that sends one request and only looks at the answer. -/
theorem asked_request {α : Type} {call : Call} {q : HttpResponse → L α} (hq : ∀ resp, Still (q resp)) :
    @Prog.asked Call HttpAns _ answer (request call >>= q).run = [call] := by
  show call :: @Prog.asked Call HttpAns _ answer _ = [call]
  congr 1
  cases answer call with
  | transport_error => rfl
  | response resp =>
    obtain ⟨res, hres⟩ := hq resp
    show @Prog.asked Call HttpAns _ answer (q resp).run = []
    rw [hres]
    rfl

/-- A route that ends with one request to LiteLLM sends that request. -/
theorem sent_request {call : Call} {q : HttpResponse → L Unit} {on : Failure → Answer}
    {last : Answer} (hq : ∀ resp, Still (q resp)) (hwrite : writes_key call = true) :
    sent answer (do attempt (request call >>= q) on; return last) = [call] := by
  have hone : sent answer (attempt (request call >>= q) on) = [call] := by
    rw [sent_attempt, asked_request hq, List.filter_cons_of_pos hwrite]
    rfl
  cases hres : result answer (attempt (request call >>= q) on) with
  | ok a =>
    rw [sent_bind_ok hres, hone]
    rfl
  | error e => rw [sent_bind_error hres, hone]

theorem sent_block {key_id : String} {blocked : Bool}
    (hlist : outcome answer (list_session_keys settings sha256 email) = .ok out) :
    sent answer (session_block_key settings sha256 none email key_id (some blocked)) =
      (find_row out key_id).elim [] fun target => [.key_block target.token blocked] := by
  refine (sent_owned hlist).trans ?_
  congr 1
  funext target
  exact sent_request (fun _ => still_expect _ _ _) rfl

theorem sent_delete {key_id : String}
    (hlist : outcome answer (list_session_keys settings sha256 email) = .ok out) :
    sent answer (session_delete_key settings sha256 none email key_id) =
      (find_row out key_id).elim [] fun target =>
        if target.managed then [.key_delete target.token] else [] := by
  refine (sent_owned hlist).trans ?_
  congr 1
  funext target
  refine sent_managed.trans ?_
  congr 1
  exact sent_request (fun _ => still_expect _ _ _) rfl

variable (settings answer email) in
/-- The checks of a destination before the key is looked up. -/
def MayMove (team_id : String) : Prop :=
  strip team_id ≠ "" ∧
    (settings.personal_teams_enabled = true → strip team_id = settings.personal_team_id email) ∧
    outcome answer (assert_team_membership email (strip team_id)) = .ok ()

theorem sent_membership {team_id : String} :
    sent answer (require_team_membership email team_id) = [] := by
  unfold require_team_membership
  rw [sent_attempt]
  apply asked_quiet
  apply sends_assert_team_membership
  · exact fun _ => rfl
  · rfl

theorem sent_move {key_id team_id : String}
    (hlist : outcome answer (list_session_keys settings sha256 email) = .ok out)
    (hmay : MayMove settings answer email team_id) :
    sent answer (session_change_key_team settings sha256 none email key_id (some team_id)) =
      (find_row out key_id).elim [] fun target =>
        if target.managed then [.key_update target.token (strip team_id)] else [] := by
  obtain ⟨hempty, hpersonal, hmember⟩ := hmay
  -- neither check of the team raises, and they send nothing that counts
  have hteam : require_personal_team settings email (strip team_id) = pure () := by
    unfold require_personal_team
    rw [if_neg]
    intro h
    rw [Bool.and_eq_true, bne_iff_ne] at h
    exact h.2 (hpersonal h.1)
  have hres : result answer (require_team_membership email (strip team_id)) = .ok () := by
    unfold require_team_membership
    rw [result_attempt, hmember]
  unfold session_change_key_team
  dsimp only
  rw [if_neg hempty, hteam]
  show sent answer (require_team_membership email (strip team_id) >>= _) = _
  rw [sent_bind_ok hres, sent_membership]
  refine (sent_owned hlist).trans ?_
  congr 1
  funext target
  refine sent_managed.trans ?_
  congr 1
  exact sent_request (fun _ => still_expect _ _ _) rfl

theorem sent_stay {key_id team_id : String} (hmay : ¬ MayMove settings answer email team_id) :
    sent answer (session_change_key_team settings sha256 none email key_id (some team_id)) = [] := by
  unfold session_change_key_team
  dsimp only
  -- one of the three checks raises, and nothing is sent after it
  by_cases hempty : strip team_id = ""
  · rw [if_pos hempty]
    exact sent_bind_error rfl
  rw [if_neg hempty]
  by_cases hpersonal :
      (settings.personal_teams_enabled && strip team_id != settings.personal_team_id email) = true
  · unfold require_personal_team
    rw [if_pos hpersonal]
    exact sent_bind_error rfl
  unfold require_personal_team
  rw [if_neg hpersonal]
  show sent answer (require_team_membership email (strip team_id) >>= _) = _
  cases hmember : outcome answer (assert_team_membership email (strip team_id)) with
  | ok a =>
    refine absurd ⟨hempty, fun hon => ?_, hmember⟩ hmay
    by_contra hne
    exact hpersonal (by rw [hon, bne_iff_ne.mpr hne]; rfl)
  | error e =>
    have hres : ∃ a, result answer (require_team_membership email (strip team_id)) = .error a := by
      unfold require_team_membership
      rw [result_attempt, hmember]
      exact ⟨_, rfl⟩
    obtain ⟨a, ha⟩ := hres
    rw [sent_bind_error ha, sent_membership]

end

/-! ## Ids that tell keys apart -/

section
variable (settings : LitellmSettings) (sha256 : String → String)

/-- Has a key an alias, its own or a friendly one? -/
def named (k : Dict) : Bool := (naming k (metadata_of settings k)).truthy

/-- The digest of an alias. -/
def digest : Json → Json
  | .str s => .str (sha256 s)
  | _ => .null

/-- Two keys with one alias, two keys without alias but with one id field, or
    a key whose id field is the digest of the other's alias. -/
def Clash (k k' : Dict) : Prop :=
  match named settings k, named settings k' with
  | true, true => naming k (metadata_of settings k) = naming k' (metadata_of settings k')
  | false, false => unnamed_id k = unnamed_id k'
  | true, false => unnamed_id k' = digest sha256 (naming k (metadata_of settings k))
  | false, true => unnamed_id k = digest sha256 (naming k' (metadata_of settings k'))

/-- Every key has an alias or a text in one of its id fields, and no two keys
    clash. -/
def Apart (ks : List Dict) : Prop :=
  (∀ k ∈ ks, named settings k = true ∨ ∃ s, unnamed_id k = .str s) ∧
    ks.Pairwise fun k k' => ¬ Clash settings sha256 k k'

variable {settings sha256} {k k' : Dict}

/-- An alias that is no text keeps a row from being read. -/
theorem named_text (hread : Readable settings k) (hnamed : named settings k = true) :
    ∃ s, naming k (metadata_of settings k) = .str s := by
  obtain ⟨md, hmd, hname⟩ := hread
  unfold named at hnamed
  rw [metadata_of_eq settings hmd] at hnamed ⊢
  exact hname hnamed

theorem id_named (hnamed : named settings k = true) :
    (listed_row settings sha256 k).id = digest sha256 (naming k (metadata_of settings k)) := by
  show row_id sha256 k (metadata_of settings k) = _
  unfold row_id
  unfold named at hnamed
  rw [if_pos hnamed]
  rfl

theorem id_unnamed (hnamed : named settings k = false) :
    (listed_row settings sha256 k).id = unnamed_id k := by
  show row_id sha256 k (metadata_of settings k) = _
  unfold row_id
  rw [if_neg]
  unfold named at hnamed
  rw [hnamed]
  exact Bool.false_ne_true

/-- Rows clash exactly when they have one id. -/
theorem id_eq_iff (hinj : Function.Injective sha256) (hread : Readable settings k)
    (hread' : Readable settings k') :
    (listed_row settings sha256 k).id = (listed_row settings sha256 k').id ↔
      Clash settings sha256 k k' := by
  unfold Clash
  cases hk : named settings k with
  | true =>
    rw [id_named hk]
    cases hk' : named settings k' with
    | true =>
      rw [id_named hk']
      -- two digests are equal only for one alias
      obtain ⟨s, hs⟩ := named_text hread hk
      obtain ⟨s', hs'⟩ := named_text hread' hk'
      dsimp only
      rw [hs, hs']
      show Json.str (sha256 s) = Json.str (sha256 s') ↔ _
      rw [Json.str.injEq, Json.str.injEq]
      exact hinj.eq_iff
    | false =>
      rw [id_unnamed hk']
      exact eq_comm
  | false =>
    rw [id_unnamed hk]
    cases hk' : named settings k' with
    | true => rw [id_named hk']
    | false => rw [id_unnamed hk']

theorem id_text_iff (hread : Readable settings k) :
    (∃ s, (listed_row settings sha256 k).id = .str s) ↔
      named settings k = true ∨ ∃ s, unnamed_id k = .str s := by
  cases hk : named settings k with
  | true =>
    obtain ⟨s, hs⟩ := named_text hread hk
    rw [id_named hk, hs]
    exact iff_of_true ⟨sha256 s, rfl⟩ (.inl rfl)
  | false =>
    rw [id_unnamed hk]
    simp

end

/-! ## The chosen key -/

section
variable (settings : LitellmSettings) (sha256 : String → String) (answer : Call → HttpReply)
  (email : String)

/-- What the routes send when they are called with an id: the token of this
    row, and no other. -/
structure ActsOn (row : SessionRow) (key_id : String) : Prop where
  block : ∀ blocked, sent answer
    (session_block_key settings sha256 none email key_id (some blocked)) =
      [.key_block row.token blocked]
  delete : sent answer (session_delete_key settings sha256 none email key_id) =
    if row.managed then [.key_delete row.token] else []
  move : ∀ team_id, MayMove settings answer email team_id → sent answer
    (session_change_key_team settings sha256 none email key_id (some team_id)) =
      if row.managed then [.key_update row.token (strip team_id)] else []
  stay : ∀ team_id, ¬ MayMove settings answer email team_id → sent answer
    (session_change_key_team settings sha256 none email key_id (some team_id)) = []

/-- Ids are distinct, none is null, and each stands for its own row. -/
def ActsOnChosen (out : List SessionRow) : Prop :=
  (out.map (·.id)).Nodup ∧ ∀ row ∈ out, ∃ key_id, row.id = .str key_id ∧
    ActsOn settings sha256 answer email row key_id

variable {settings sha256 answer email} {ks : List Dict} {out : List SessionRow}

theorem find_row_self {row : SessionRow} {key_id : String} (hnodup : (out.map (·.id)).Nodup)
    (hrow : row ∈ out) (hid : row.id = .str key_id) : find_row out key_id = some row := by
  unfold find_row
  induction out with
  | nil => cases hrow
  | cons first out ih =>
    rw [List.map_cons, List.nodup_cons] at hnodup
    rcases List.mem_cons.mp hrow with rfl | hrow
    · rw [List.find?_cons_of_pos (by simp [hid, is_text])]
    · rw [List.find?_cons_of_neg]
      · exact ih hnodup.2 hrow
      · -- the first row would have the same id
        intro hfirst
        apply hnodup.1
        rw [eq_of_is_text hfirst, ← hid]
        exact List.mem_map_of_mem hrow

theorem acts_on {row : SessionRow} {key_id : String}
    (hlist : outcome answer (list_session_keys settings sha256 email) = .ok out)
    (hfind : find_row out key_id = some row) :
    ActsOn settings sha256 answer email row key_id where
  block _ := by
    rw [sent_block hlist, hfind]
    rfl
  delete := by
    rw [sent_delete hlist, hfind]
    rfl
  move _ hmay := by
    rw [sent_move hlist hmay, hfind]
    rfl
  stay _ hmay := sent_stay hmay

/-- Ids are distinct exactly when no two keys clash. -/
theorem nodup_ids_iff (hinj : Function.Injective sha256) (hread : ∀ k ∈ ks, Readable settings k)
    (hperm : out.Perm (ks.map (listed_row settings sha256))) :
    (out.map (·.id)).Nodup ↔ ks.Pairwise fun k k' => ¬ Clash settings sha256 k k' := by
  rw [(hperm.map _).nodup_iff, List.map_map]
  show List.Pairwise _ _ ↔ _
  rw [List.pairwise_map]
  constructor
  · intro h
    refine h.imp_of_mem fun {k k'} hk hk' hne hclash => hne ?_
    exact (id_eq_iff hinj (hread k hk) (hread k' hk')).mpr hclash
  · intro h
    refine h.imp_of_mem fun {k k'} hk hk' hclash heq => hclash ?_
    exact (id_eq_iff hinj (hread k hk) (hread k' hk')).mp heq

theorem chosen_of_apart (hinj : Function.Injective sha256) (hserves : Serves answer email ks)
    (hlist : outcome answer (list_session_keys settings sha256 email) = .ok out)
    (hapart : Apart settings sha256 ks) : ActsOnChosen settings sha256 answer email out := by
  obtain ⟨hread, hperm⟩ := listing_perm hserves hlist
  have hnodup := (nodup_ids_iff hinj hread hperm).mpr hapart.2
  refine ⟨hnodup, ?_⟩
  intro row hrow
  obtain ⟨k, hk, rfl⟩ := List.mem_map.mp (hperm.mem_iff.mp hrow)
  obtain ⟨key_id, hid⟩ := (id_text_iff (hread k hk)).mpr (hapart.1 k hk)
  exact ⟨key_id, hid, acts_on hlist (find_row_self hnodup hrow hid)⟩

/-- The routes act on the chosen key if and only if the keys are apart. -/
theorem acts_on_chosen_iff (hinj : Function.Injective sha256) (hserves : Serves answer email ks)
    (hlist : outcome answer (list_session_keys settings sha256 email) = .ok out) :
    ActsOnChosen settings sha256 answer email out ↔ Apart settings sha256 ks := by
  refine ⟨?_, chosen_of_apart hinj hserves hlist⟩
  rintro ⟨hnodup, hrows⟩
  obtain ⟨hread, hperm⟩ := listing_perm hserves hlist
  refine ⟨?_, (nodup_ids_iff hinj hread hperm).mp hnodup⟩
  intro k hk
  have hmem : listed_row settings sha256 k ∈ out := hperm.mem_iff.mpr (List.mem_map_of_mem hk)
  obtain ⟨key_id, hid, -⟩ := hrows _ hmem
  exact (id_text_iff (hread k hk)).mp ⟨key_id, hid⟩

end

/-! Three keys that are apart, and two that share their friendly alias. -/

/-- SHA-256 on the two aliases below, made one-to-one. -/
def alias_digest : Equiv.Perm String :=
  (Equiv.swap "lk-1" "824ce3f71752b66f2ec03f13124c15419f36b17ce9fdfeeeb1bf26734179fd42").trans
    (Equiv.swap "n8n" "636396f02b6571e40d8fe91cba550515c0cdc0e7d314c210e00b02256375a796")

/-- Two aliases and a token. -/
theorem our_keys_apart : Apart key_settings alias_digest our_keys := by
  have hdigest : alias_digest "lk-1" ≠ "h3" ∧ alias_digest "n8n" ≠ "h3" := by decide
  refine ⟨?_, .cons ?_ (.cons ?_ (List.pairwise_singleton _ _))⟩
  · intro k hk
    rcases mem_our_keys.mp hk with rfl | rfl | rfl
    · exact .inl rfl
    · exact .inl rfl
    · exact .inr ⟨_, rfl⟩
  · intro k hk
    simp only [List.mem_cons, List.not_mem_nil, or_false] at hk
    rcases hk with rfl | rfl
    · show ¬ Json.str "lk-1" = .str "n8n"
      exact fun h => absurd (Json.str.inj h) (by decide)
    · show ¬ Json.str "h3" = .str (alias_digest "lk-1")
      exact fun h => hdigest.1 (Json.str.inj h).symm
  · intro k hk
    obtain rfl := List.mem_singleton.mp hk
    show ¬ Json.str "h3" = .str (alias_digest "n8n")
    exact fun h => hdigest.2 (Json.str.inj h).symm

theorem acts_on_chosen_sample :
    ActsOnChosen key_settings alias_digest (fun _ => .response (key_page our_keys))
      "ann@example.com" ([friend_key, bare_key, our_key].map (listed_row key_settings alias_digest)) :=
  (acts_on_chosen_iff alias_digest.injective ⟨_, _, rfl, rfl, rfl, rfl⟩ rfl).mpr our_keys_apart

def friendly_key (token : String) : Dict :=
  [("token", .str token), ("metadata", .obj [("key_alias", .str "n8n")])]

/-- Tokens are distinct and no key has an alias of its own, yet both rows have
    one id. -/
theorem friendly_keys_collide :
    ¬ ∀ (settings : LitellmSettings) (sha256 : String → String) (answer : Call → HttpReply)
        (email : String) (ks : List Dict) (out : List SessionRow),
      Function.Injective sha256 → Serves answer email ks →
      (ks.map (field · "token")).Nodup →
      ((ks.map (field · "key_alias")).filter Json.truthy).Nodup →
      outcome answer (list_session_keys settings sha256 email) = .ok out →
      ActsOnChosen settings sha256 answer email out := by
  intro h
  have hchosen := h key_settings alias_digest
    (fun _ => .response (key_page [friendly_key "h1", friendly_key "h2"])) "ann@example.com"
    [friendly_key "h1", friendly_key "h2"] _ alias_digest.injective ⟨_, _, rfl, rfl, rfl, rfl⟩
    (by simp [friendly_key, field]) List.nodup_nil rfl
  exact (List.nodup_cons.mp hchosen.1).1 List.mem_cons_self

end AlitellmAuth.Session
