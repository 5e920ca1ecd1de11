import AlitellmAuth.OauthAs.Runs

/-! # Dex

    What the identity provider does, as far as the handlers can tell: it keeps
    one current refresh token per user. A login makes a fresh token current, a
    replay of the current token makes a fresh token current and returns it, and
    any other token is refused.

    * `tokens`, `current`: Dex's state, as a function of the log.
    * `Honest`: Dex's answers fit that state, and the records of Dex tokens do
      not expire.
    * `Unwritten`: a request has a token from Dex that it has not stored yet.
      The next thing it does is to store it (`unwritten_next`).
-/

namespace AlitellmAuth

open Interleave

variable {E : Env} {ok : AsConfig → AsConfig → Prop} {c : AsConfig}

-- no proof here computes with the case tables
attribute [local irreducible] Text.lower Text.strip

/-! ## Dex's state -/

/-- The refresh tokens that were current for a user, newest first. -/
def tokens : AsLog → String → List String
  | [], _ => []
  | ⟨_, ⟨.ext (.authorize_access_token _), some token⟩⟩ :: log, u =>
      if normalized_email token.userinfo = u then token.refresh_token.toList ++ tokens log u
      else tokens log u
  | ⟨_, ⟨.ext (.dex_refresh rt), .success refresh_token⟩⟩ :: log, u =>
      if (tokens log u).head? = some rt then refresh_token.toList ++ tokens log u
      else tokens log u
  | _ :: log, u => tokens log u

/-- The current refresh token of a user. -/
def current (log : AsLog) (u : String) : Option String := (tokens log u).head?

/-- Dex handed `t` out to the user before `t'`. -/
def Older (log : AsLog) (u t t' : String) : Prop :=
  ∃ newer older, tokens log u = newer ++ t' :: older ∧ t ∈ older

/-- A token Dex has never handed out. -/
def FreshToken (log : AsLog) (t : String) : Prop := t ≠ "" ∧ ∀ u, t ∉ tokens log u

/-- Dex's answer to an operation, and a read of a user's record: the record has
    not expired. -/
def Honest (log : AsLog) (e : AsEntry) : Prop :=
  match e.ev with
  | ⟨.ext (.authorize_access_token _), some token⟩ =>
      normalized_email token.userinfo ≠ "" ∧
        ∃ t, token.refresh_token = some t ∧ FreshToken log t
  | ⟨.ext (.dex_refresh rt), reply⟩ =>
      ((∃ u, current log u = some rt) ∧ ∃ t, reply = .success (some t) ∧ FreshToken log t) ∨
      (∀ u, current log u ≠ some rt) ∧ reply = .status 400
  | ⟨.get .dexrt u, a⟩ => a = contents log .dexrt u
  | _ => True

/-- The event gives the user a new current token. -/
structure Hands (log : AsLog) (e : AsEntry) (u t : String) : Prop where
  fresh : FreshToken log t
  new : tokens (e :: log) u = t :: tokens log u
  others : ∀ u', u' ≠ u → tokens (e :: log) u' = tokens log u'

/-- A token was current for one user only. -/
def OneOwner (log : AsLog) : Prop := ∀ u u' t, t ∈ tokens log u → t ∈ tokens log u' → u = u'

theorem mem_of_current {log : AsLog} {u t : String} (h : current log u = some t) :
    t ∈ tokens log u :=
  List.mem_of_mem_head? h

theorem hands_login {log : AsLog} {i : Nat} {s t : String} {token : DexToken}
    (ht : token.refresh_token = some t) (hf : FreshToken log t) :
    Hands log ⟨i, ⟨.ext (.authorize_access_token s), some token⟩⟩
      (normalized_email token.userinfo) t := by
  refine ⟨hf, by simp [tokens, ht], ?_⟩
  intro u' hne
  simp [tokens, Ne.symm hne]

theorem hands_replay {log : AsLog} (ho : OneOwner log) {i : Nat} {u rt t : String}
    (hu : current log u = some rt) (hf : FreshToken log t) :
    Hands log ⟨i, ⟨.ext (.dex_refresh rt), .success (some t)⟩⟩ u t := by
  refine ⟨hf, ?_, ?_⟩
  · have hhead : (tokens log u).head? = some rt := hu
    rw [tokens, if_pos hhead]
    rfl
  · intro u' hne
    rw [tokens, if_neg]
    intro hu'
    exact hne (ho u' u rt (mem_of_current hu') (mem_of_current hu))

/-- One event of an honest Dex gives one user a new token, or changes nothing. -/
theorem hands_or_same {log : AsLog} {e : AsEntry} (ho : OneOwner log) (hh : Honest log e) :
    (∀ u, tokens (e :: log) u = tokens log u) ∨
    ∃ u t, Hands log e u t ∧
      ((∃ s token, e.ev = ⟨.ext (.authorize_access_token s), some token⟩ ∧
        normalized_email token.userinfo = u ∧ u ≠ "" ∧ token.refresh_token = some t) ∨
      ∃ rt, e.ev = ⟨.ext (.dex_refresh rt), .success (some t)⟩ ∧ current log u = some rt) := by
  obtain ⟨i, op, a⟩ := e
  cases op with
  | ext x =>
    cases x with
    | authorize_access_token s =>
      cases a with
      | none => exact .inl fun _ => rfl
      | some token =>
        obtain ⟨hne, t, ht, hf⟩ := hh
        exact .inr ⟨_, t, hands_login ht hf, .inl ⟨s, token, rfl, rfl, hne, ht⟩⟩
    | dex_refresh rt =>
      rcases hh with ⟨⟨u, hu⟩, t, rfl, hf⟩ | ⟨-, rfl⟩
      · exact .inr ⟨u, t, hands_replay ho hu hf, .inr ⟨rt, rfl, hu⟩⟩
      · exact .inl fun _ => rfl
    | ensure_team_and_user | get_litellm_user | projection | broker_register | get_key_info
    | provision | key_generate | sleep => exact .inl fun _ => rfl
  | get | put | pop | acquire | release | draw | time => exact .inl fun _ => rfl

theorem Hands.mem {log : AsLog} {e : AsEntry} {u t : String} (h : Hands log e u t)
    {u' t' : String} (hm : t' ∈ tokens (e :: log) u') :
    (u' = u ∧ t' = t) ∨ t' ∈ tokens log u' := by
  by_cases hu : u' = u
  · subst hu
    rw [h.new] at hm
    rcases List.mem_cons.mp hm with rfl | hm
    · exact .inl ⟨rfl, rfl⟩
    · exact .inr hm
  · rw [h.others u' hu] at hm
    exact .inr hm

theorem one_owner {log : AsLog} (h : Throughout Honest log) : OneOwner log := by
  induction log with
  | nil =>
    intro u u' t ht
    cases ht
  | cons e log ih =>
    have ho := ih h.2
    intro u u' t ht ht'
    rcases hands_or_same ho h.1 with hsame | ⟨v, s, hhands, -⟩
    · rw [hsame] at ht ht'
      exact ho u u' t ht ht'
    · rcases hhands.mem ht with ⟨rfl, rfl⟩ | ht
      · rcases hhands.mem ht' with ⟨rfl, -⟩ | ht'
        · rfl
        · exact absurd ht' (hhands.fresh.2 _)
      · rcases hhands.mem ht' with ⟨rfl, rfl⟩ | ht'
        · exact absurd ht (hhands.fresh.2 _)
        · exact ho u u' t ht ht'

/-- A token that was handed out stays in the list. -/
theorem tokens_mono {log : AsLog} {e : AsEntry} (ho : OneOwner log) (hh : Honest log e)
    {u t : String} (hm : t ∈ tokens log u) : t ∈ tokens (e :: log) u := by
  rcases hands_or_same ho hh with hsame | ⟨v, s, hhands, -⟩
  · rw [hsame]
    exact hm
  · by_cases hu : u = v
    · subst hu
      rw [hhands.new]
      exact List.mem_cons_of_mem _ hm
    · rw [hhands.others u hu]
      exact hm

/-- Whoever had a token has one. -/
theorem current_of_mem {log : AsLog} {u t : String} (hm : t ∈ tokens log u) :
    ∃ t', current log u = some t' := by
  cases hlist : tokens log u with
  | nil => rw [hlist] at hm; cases hm
  | cons t' rest => exact ⟨t', by rw [current, hlist]; rfl⟩

/-! ## Tokens that are not stored yet -/

/-- A callback or a refresh request has got a token for the user, and has done
    nothing since. -/
inductive Unwritten (u t : String) : AsTrace → Prop where
  | login {s : String} {token : DexToken} {pending : Pending}
      (hemail : normalized_email token.userinfo = u) (hu : u ≠ "")
      (ht : token.refresh_token = some t) (hne : t ≠ "") :
      Unwritten u t [⟨.ext (.authorize_access_token s), some token⟩,
        ⟨.pop .pending s, some pending⟩]
  | replayed {form : TokenForm} {n : Nat} {d : DexRt} {reply : DexReply} {tr : AsTrace}
      (h : Replayed form u n d reply tr) (hreply : reply.result d.rt = .accepted t) :
      Unwritten u t tr

/-- A refresh request was refused once, has read another record, and is about
    to replay its token. -/
def Retrying (u : String) (d : DexRt) (tr : AsTrace) : Prop := ∃ form, Holding form u 0 d tr

theorem Holding.le_one {form : TokenForm} {u : String} {n : Nat} {d : DexRt} {tr : AsTrace}
    (h : Holding form u n d tr) : n ≤ 1 := by
  induction h with
  | first => exact Nat.le_refl 1
  | again _ _ _ ih => omega

/-- The event that has just given a request its token. -/
theorem Unwritten.inv {u t : String} {ev : AsEvent} {tr : AsTrace} (h : Unwritten u t (ev :: tr)) :
    (∃ s token pending, ev = ⟨.ext (.authorize_access_token s), some token⟩ ∧
      tr = [⟨.pop .pending s, some pending⟩] ∧ normalized_email token.userinfo = u ∧ u ≠ "" ∧
      token.refresh_token = some t ∧ t ≠ "") ∨
    ∃ form n d reply, ev = ⟨.ext (.dex_refresh d.rt), reply⟩ ∧ Holding form u n d tr ∧
      reply.result d.rt = .accepted t := by
  generalize htr : ev :: tr = tr' at h
  cases h with
  | login hemail hu ht hne =>
    obtain ⟨rfl, rfl⟩ := List.cons.inj htr
    exact .inl ⟨_, _, _, rfl, rfl, hemail, hu, ht, hne⟩
  | replayed h hreply =>
    obtain ⟨tr₀, rfl, hold⟩ := h
    obtain ⟨rfl, rfl⟩ := List.cons.inj htr
    exact .inr ⟨_, _, _, _, rfl, hold, hreply⟩

/-- The trace says which token of which user waits to be stored. -/
theorem Unwritten.unique {u u' t t' : String} {tr : AsTrace} (h : Unwritten u t tr)
    (h' : Unwritten u' t' tr) : u = u' ∧ t = t' := by
  cases h with
  | login hemail hu ht hne =>
    rcases h'.inv with ⟨_, _, _, hev, -, hemail', -, ht', -⟩ | ⟨_, _, _, _, hev, -⟩
    · cases hev
      exact ⟨hemail.symm.trans hemail', Option.some.inj (ht.symm.trans ht')⟩
    · cases hev
  | replayed h hreply =>
    obtain ⟨tr₀, rfl, hold⟩ := h
    rcases h'.inv with ⟨_, _, _, hev, -⟩ | ⟨_, _, _, _, hev, hold', hreply'⟩
    · cases hev
    · obtain ⟨tr₁, rfl⟩ := hold.head
      obtain ⟨tr₂, heq⟩ := hold'.head
      cases heq
      cases hev
      rw [hreply] at hreply'
      cases hreply'
      exact ⟨rfl, rfl⟩

/-- The events of a request that has not stored its token yet. -/
theorem Unwritten.mem {u t : String} {tr : AsTrace} (h : Unwritten u t tr) {e : AsEvent}
    (he : e ∈ tr) :
    (∃ s token, e = ⟨.ext (.authorize_access_token s), some token⟩) ∨
    (∃ s p, e = ⟨.pop .pending s, some p⟩) ∨ (∃ key rec, e = ⟨.get .refresh key, some rec⟩) ∨
    (∃ u d, e = ⟨.get .dexrt u, some d⟩) ∨ ∃ rt reply, e = ⟨.ext (.dex_refresh rt), reply⟩ := by
  cases h with
  | login =>
    simp only [List.mem_cons, List.not_mem_nil, or_false] at he
    rcases he with rfl | rfl
    · exact .inl ⟨_, _, rfl⟩
    · exact .inr (.inl ⟨_, _, rfl⟩)
  | replayed h =>
    obtain ⟨tr₀, rfl, hold⟩ := h
    rcases List.mem_cons.mp he with rfl | he
    · exact .inr (.inr (.inr (.inr ⟨_, _, rfl⟩)))
    · rcases hold.mem he with ⟨d, rfl⟩ | ⟨rt, reply, rfl, -⟩ | ⟨rec, rfl, -⟩
      · exact .inr (.inr (.inr (.inl ⟨_, _, rfl⟩)))
      · exact .inr (.inr (.inr (.inr ⟨_, _, rfl⟩)))
      · exact .inr (.inr (.inl ⟨_, _, rfl⟩))

/-! ## The next thing a request does is to store its token -/

/-- The requests that get tokens from Dex. -/
def Obtains (r : Request) : Prop :=
  (∃ state, r = .as_callback state) ∨ ∃ form, IsGrant "refresh_token" form r

/-- A request with a token does nothing but store it. -/
def Writes (r : Request) (tr : AsTrace) (e : AsEvent) : Prop :=
  Obtains r → ∀ u t, Unwritten u t tr → ∃ ttl, e = ⟨.put .dexrt u ⟨t⟩ ttl, ()⟩

/-- A request does not answer before it has stored its token. -/
def Written {α : Type} (r : Request) (tr : AsTrace) (_ : α) : Prop :=
  Obtains r → ∀ u t, ¬ Unwritten u t tr

section
variable {r : Request} {tr : AsTrace} {α : Type}

/-- No request with a token has performed the event. -/
def Foreign (e : AsEvent) : Prop := ∀ u t tr, e ∈ tr → ¬ Unwritten u t tr

theorem foreign_of_ne {e : AsEvent}
    (hlogin : ∀ s token, e ≠ ⟨.ext (.authorize_access_token s), some token⟩)
    (hpop : ∀ s p, e ≠ ⟨.pop .pending s, some p⟩)
    (hrefresh : ∀ key rec, e ≠ ⟨.get .refresh key, some rec⟩)
    (hdexrt : ∀ u d, e ≠ ⟨.get .dexrt u, some d⟩)
    (hreplay : ∀ rt reply, e ≠ ⟨.ext (.dex_refresh rt), reply⟩) : Foreign e := by
  intro u t tr he h
  rcases h.mem he with ⟨_, _, h⟩ | ⟨_, _, h⟩ | ⟨_, _, h⟩ | ⟨_, _, h⟩ | ⟨_, _, h⟩
  · exact hlogin _ _ h
  · exact hpop _ _ h
  · exact hrefresh _ _ h
  · exact hdexrt _ _ h
  · exact hreplay _ _ h

/-- After such an event there is nothing to store any more. -/
theorem writes_after {e : AsEvent} (hforeign : Foreign e) (he : e ∈ tr) (p : P α) :
    p.Along (Writes r) (Written r) tr := by
  refine along_mono ?_ ?_ (along_suffix List.suffix_rfl p)
  · intro tr' e' hs _ u t h
    exact absurd h (hforeign u t tr' (hs.subset he))
  · intro tr' a hs _ u t
    exact hforeign u t tr' (hs.subset he)

/-- Two events at least lead to a token. -/
theorem Unwritten.two {u t : String} (h : Unwritten u t tr) : 2 ≤ tr.length := by
  cases h with
  | login => exact Nat.le_refl 2
  | replayed h =>
    obtain ⟨tr₀, rfl, hold⟩ := h
    obtain ⟨tr₁, rfl⟩ := hold.head
    simp

theorem writes_short (h : tr.length < 2) (e : AsEvent) : Writes r tr e := by
  intro _ u t hu
  have := hu.two
  omega

theorem written_short (h : tr.length < 2) (a : α) : Written r tr a := by
  intro _ u t hu
  have := hu.two
  omega

theorem pop_pending_writes (state : String) :
    (pop_pending state).Along (Writes r) (fun tr' popped => tr'.length < 2 ∧
      ∀ pending, popped = some pending → tr' = [⟨.pop .pending state, some pending⟩]) [] := by
  by_cases hstate : state = ""
  · rw [pop_pending, if_pos hstate]
    exact ⟨by simp, by simp⟩
  · rw [pop_pending, if_neg hstate]
    intro popped
    refine ⟨writes_short (by simp) _, by simp, ?_⟩
    rintro pending rfl
    rfl

theorem as_callback_writes (state : String) :
    (as_callback E state).Along (Writes r) (Written r) [] := by
  refine along_bind (pop_pending_writes state) ?_
  rintro tr' popped ⟨hlen, htr⟩
  cases popped with
  | none => exact written_short hlen _
  | some pending =>
    obtain rfl := htr pending rfl
    refine along_await fun answer => ⟨writes_short (by simp) _, ?_⟩
    cases answer with
    | none =>
      refine writes_after ?_ List.mem_cons_self _
      exact foreign_of_ne (by simp) (by simp) (by simp) (by simp) (by simp)
    | some token =>
      -- what there is to store, if anything
      have hstored : ∀ u t, Unwritten u t [⟨.ext (.authorize_access_token state), some token⟩,
          ⟨.pop .pending state, some pending⟩] →
          normalized_email token.userinfo = u ∧ u ≠ "" ∧ token.refresh_token = some t ∧ t ≠ "" := by
        intro u t h
        cases h with
        | login hemail hu ht hne => exact ⟨hemail, hu, ht, hne⟩
        | replayed h => obtain ⟨tr₀, htr, -⟩ := h; cases htr
      dsimp only
      split
      · next hempty =>
        intro _ u t h
        obtain ⟨hemail, hu, -⟩ := hstored u t h
        exact hu (hemail.symm.trans hempty)
      split
      · next hempty =>
        intro _ u t h
        obtain ⟨-, -, ht, hne⟩ := hstored u t h
        rw [ht] at hempty
        exact hne hempty
      refine along_await fun _ => ⟨?_, writes_after ?_ List.mem_cons_self _⟩
      · intro _ u t h
        obtain ⟨rfl, -, ht, -⟩ := hstored u t h
        simp [ht]
      · exact foreign_of_ne (by simp) (by simp) (by simp) (by simp) (by simp)

section
variable {form : TokenForm} {u : String} {n : Nat} {d : DexRt}

/-- A replay that was not accepted leaves nothing to store. -/
theorem not_unwritten_replay {rt : String} {reply : DexReply}
    (hreply : ∀ t, reply.result rt ≠ .accepted t) (u' t : String) :
    ¬ Unwritten u' t (⟨.ext (.dex_refresh rt), reply⟩ :: tr) := by
  intro h'
  rcases h'.inv with ⟨_, _, _, hev, -⟩ | ⟨_, _, _, _, hev, -, haccept⟩
  · cases hev
  · cases hev
    exact hreply t haccept

/-- How the revalidation ends: there is nothing to store any more, or the
    request answers at once. -/
def Ends (tr : AsTrace) (result : Revalidation) : Prop :=
  (∃ e ∈ tr, Foreign e) ∨
    ((result = .unreachable ∨ result = .crashed) ∧ ∀ u t, ¬ Unwritten u t tr)

theorem foreign_pop (a : Option DexRt) : Foreign ⟨.pop .dexrt u, a⟩ :=
  foreign_of_ne (by simp) (by simp) (by simp) (by simp) (by simp)

theorem foreign_missing : Foreign ⟨.get .dexrt u, none⟩ :=
  foreign_of_ne (by simp) (by simp) (by simp) (by simp) (by simp)

/-- A read is no event that gives a token. -/
theorem not_unwritten_read (a : Option DexRt) (u' t : String) :
    ¬ Unwritten u' t (⟨.get .dexrt u, a⟩ :: tr) := by
  intro h'
  rcases h'.inv with ⟨_, _, _, hev, -⟩ | ⟨_, _, _, _, hev, -⟩ <;> cases hev

/-- The revalidation gives up and drops the record. -/
theorem give_up_writes (hquiet : ∀ u' t, ¬ Unwritten u' t tr) :
    (do
      let _ ← Store.pop .dexrt u
      return Revalidation.refused : P Revalidation).Along (Writes r) Ends tr := by
  refine along_await fun popped => ⟨fun _ u' t h => absurd h (hquiet u' t), ?_⟩
  exact .inl ⟨_, List.mem_cons_self, foreign_pop popped⟩

theorem revalidate_loop_writes (form : TokenForm) (m : Nat) (rec : Option DexRt)
    (hquiet : ∀ u' t, ¬ Unwritten u' t tr) (hnone : rec = none → ∃ e ∈ tr, Foreign e)
    (hsome : ∀ d n, rec = some d → m = n + 1 → Holding form u n d tr) :
    (revalidate_loop E u m rec).Along (Writes r) Ends tr := by
  induction m generalizing rec tr with
  | zero => exact give_up_writes hquiet
  | succ m ih =>
    cases rec with
    | none => exact .inl (hnone rfl)
    | some d =>
      have hold := hsome d m rfl rfl
      refine along_await fun reply => ⟨fun _ u' t h => absurd h (hquiet u' t), ?_⟩
      split
      · next hres =>
        refine along_await fun found => ⟨?_, ?_⟩
        · exact fun _ u' t h => absurd h (not_unwritten_replay (by simp [hres]) u' t)
        · split
          · next current' =>
            split
            · next hne =>
              refine ih _ (not_unwritten_read _) (by simp) ?_
              intro d' n hd hm
              cases hd
              subst hm
              exact .again hold hres hne
            · exact give_up_writes (not_unwritten_read _)
          · exact give_up_writes (not_unwritten_read _)
      · next hres => exact .inr ⟨.inl rfl, not_unwritten_replay (by simp [hres])⟩
      · next hres => exact .inr ⟨.inr rfl, not_unwritten_replay (by simp [hres])⟩
      · next rotated hres =>
        refine along_await fun _ => ⟨?_, .inl ⟨_, List.mem_cons_self, ?_⟩⟩
        -- the rotation that is unwritten is the one this replay has brought
        · intro _ u' t h
          obtain ⟨rfl, rfl⟩ := h.unique (.replayed ⟨_, rfl, hold⟩ hres)
          exact ⟨_, rfl⟩
        · exact foreign_of_ne (by simp) (by simp) (by simp) (by simp) (by simp)

theorem token_refresh_writes (form : TokenForm) :
    (token_refresh E form).Along (Writes r) (Written r) [] := by
  refine along_await fun found => ⟨writes_short (by simp) _, ?_⟩
  cases found with
  | none => exact written_short (by simp) _
  | some rec =>
    dsimp only
    split
    · exact written_short (by simp) _
    next hclient =>
    replace hclient : rec.client_id = form.client_id := by simpa using hclient
    -- after the read of the refresh token nothing is unwritten
    have hrevalidate : (revalidate_at_dex E rec.sub).Along (Writes r) Ends
        [⟨.get .refresh form.refresh_token, some rec⟩] := by
      refine along_await fun found => ⟨writes_short (by simp) _, ?_⟩
      refine revalidate_loop_writes form 2 found (not_unwritten_read _) ?_ ?_
      · rintro rfl
        exact ⟨_, List.mem_cons_self, foreign_missing⟩
      · rintro d n rfl hm
        cases hm
        exact .first hclient rfl
    refine along_bind hrevalidate ?_
    rintro tr' result (⟨e, he, hforeign⟩ | ⟨hresult, hquiet⟩)
    · exact writes_after hforeign he _
    · rcases hresult with rfl | rfl
      · exact fun _ => hquiet
      · exact fun _ => hquiet

end

/-- Every request that gets a token from Dex stores it next. -/
theorem handler_writes (r : Request) : (handler E r).Along (Writes r) (Written r) [] := by
  have hother : ¬ Obtains r → (handler E r).Along (Writes r) (Written r) [] := by
    intro hr
    refine along_mono (fun _ _ h => h) ?_ (along_of_forall ?_ _ _)
    · exact fun _ _ _ h => absurd h hr
    · exact fun _ _ h => absurd h hr
  cases r with
  | as_callback state => exact as_callback_writes state
  | token form =>
    by_cases hg : form.grant_type = some "refresh_token"
    · have htoken : handler E (.token form) = token_refresh E form := by
        simp [handler, token, hg]
      rw [htoken]
      exact token_refresh_writes form
    · refine hother ?_
      rintro (⟨state, h⟩ | ⟨form', hform, hg'⟩)
      · cases h
      · cases hform
        exact hg hg'
  | register | authorize | broker_callback | device_authorization | device_confirm | front_key
  | user_key | opencode_config =>
    refine hother ?_
    rintro (⟨state, h⟩ | ⟨form, h, -⟩) <;> cases h

end

/-- Only a callback or a refresh request has a token. -/
theorem unwritten_obtains (h : Reach (handler E) ok c) {i : Nat} {u t : String} {tr : AsTrace}
    (htr : tr <:+ traceOf i c.log) (hu : Unwritten u t tr) :
    ∃ r, c.request i = some r ∧ Obtains r := by
  cases tr with
  | nil => exact absurd hu.two (by simp)
  | cons ev tr =>
    obtain ⟨r, hr, hperf⟩ := performed_trace h htr
    refine ⟨r, hr, ?_⟩
    rcases hu.inv with ⟨s, token, pending, rfl, -⟩ | ⟨form, n, d, reply, rfl, -⟩
    · exact .inl ⟨s, hperf.1⟩
    · obtain ⟨form', -, -, -, hgrant, -⟩ := hperf
      exact .inr ⟨form', hgrant⟩

/-- Whoever has a token stores it next. -/
theorem unwritten_next (h : Reach (handler E) ok c) {i : Nat} {ev : AsEvent} {past : AsLog}
    (hs : ⟨i, ev⟩ :: past <:+ c.log) {u t : String} (hu : Unwritten u t (traceOf i past)) :
    ∃ ttl, ev = ⟨.put .dexrt u ⟨t⟩ ttl, ()⟩ := by
  obtain ⟨r, hr, hobtains⟩ :=
    unwritten_obtains h (traceOf_suffix ((List.suffix_cons _ _).trans hs)) hu
  obtain ⟨r', hr', hwrites⟩ := ((reach_contracted handler_writes h).1).at hs
  obtain rfl := request_unique hr hr'
  exact hwrites hobtains u t hu

/-- Whoever has a token has not answered yet. -/
theorem unwritten_unanswered (h : Reach (handler E) ok c) {i : Nat} {u t : String}
    (hu : Unwritten u t (traceOf i c.log)) : c.response i = none := by
  obtain ⟨r, hr, hobtains⟩ := unwritten_obtains h List.suffix_rfl hu
  cases hres : c.response i with
  | none => rfl
  | some res =>
    unfold Config.response at hres
    split at hres
    · next r' a hth =>
      have hr' : c.request i = some r' := by simp [Config.request, hth]
      obtain rfl := request_unique hr hr'
      exact absurd hu ((reach_contracted handler_writes h).2 i _ hth hobtains u t)
    · cases hres

end AlitellmAuth
