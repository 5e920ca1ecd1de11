import AlitellmAuth.System
import AlitellmAuth.Framework.Solo

/-! # Outages

    A refresh request that is answered with 503 has given up: Dex or LiteLLM
    could not be asked. It leaves the session as it was, so that the client can
    present the same refresh token again.

    * `DexRun`: which token Dex takes after a request. A replay whose answer does
      not arrive may have replaced the token all the same: it is lost then.
    * `Deferred`: what such a request leaves behind. Unless a token was lost, the
      one on record is the one that Dex takes.
    * `token_refresh_deferred`: every answer with 503 does.
    * `refresh_succeeds`: the request goes through on what is left, once LiteLLM
      knows the user and Dex takes the token on record.
    * `outage_costs_session`: with a lost token it does not.
-/

namespace AlitellmAuth

open Interleave Text

/-- What is decided outside the handlers of the authorization server. -/
abbrev AsOutside := Outside Kind.Rec Ext.Reply

/-- The shared state of the authorization server. -/
abbrev AsWorld := World Kind Kind.Rec

/-- How a handler ends. -/
abbrev AsEnded (α : Type) := Ended Kind.Rec Ext.Reply α

variable {E : Env} {form : TokenForm} {o : AsOutside} {w : AsWorld} {tr : AsTrace}

/-! ## Records -/

theorem store_of_lookup {k : Kind} {key : String} {v : k.Rec} (h : w.lookup k key = some v) :
    ∃ expiry, w.store k key = some (v, expiry) := by
  unfold World.lookup at h
  split at h
  · next v' expiry hstore =>
    split at h
    · cases h
      exact ⟨expiry, hstore⟩
    · cases h
  · cases h

theorem lookup_of_store {k : Kind} {key : String} {v : k.Rec} {expiry : Option Nat}
    (h : w.store k key = some (v, expiry)) (hlive : live w.now expiry = true) :
    w.lookup k key = some v := by
  unfold World.lookup
  rw [h]
  exact if_pos hlive

/-! ## The identity provider -/

/-- No answer of Dex arrives: the call fails, or there is nothing to read. -/
def Unanswered (rt : String) (reply : DexReply) : Prop :=
  reply.result rt = .unreachable ∨ reply.result rt = .crashed

/-- A token that is accepted or refused is answered. -/
theorem not_unanswered {rt : String} {reply : DexReply} {result : DexResult}
    (hresult : reply.result rt = result) (hunreachable : result ≠ .unreachable)
    (hcrashed : result ≠ .crashed) : ¬ Unanswered rt reply := by
  rintro (h | h)
  · exact hunreachable (hresult.symm.trans h)
  · exact hcrashed (hresult.symm.trans h)

/-- What becomes of Dex's token for a user with the replay of some token: the
    token is taken and the one returned is the next, another one is refused, or
    there is no answer. -/
inductive DexStep (lossy : Prop) : String → String → DexReply → String → Prop
  | taken {cur next : String} {reply : DexReply} (h : reply.result cur = .accepted next) :
      DexStep lossy cur cur reply next
  | refused {cur rt : String} {reply : DexReply} (hother : rt ≠ cur)
      (h : reply.result rt = .refused) : DexStep lossy cur rt reply cur
  | unanswered {cur rt : String} {reply : DexReply} (h : Unanswered rt reply) :
      DexStep lossy cur rt reply cur
  /-- Dex has replaced the token, and nobody has learned the next one. -/
  | lost {cur next : String} {reply : DexReply} (hlossy : lossy) (h : Unanswered cur reply) :
      DexStep lossy cur cur reply next

/-- What becomes of it in a request of this user. -/
inductive DexRun (lossy : Prop) (cur : String) : AsTrace → String → Prop
  | start : DexRun lossy cur [] cur
  | replay {tr : AsTrace} {mid next rt : String} {reply : DexReply} (h : DexRun lossy cur tr mid)
      (hstep : DexStep lossy mid rt reply next) :
      DexRun lossy cur (⟨.ext (.dex_refresh rt), reply⟩ :: tr) next
  | other {tr : AsTrace} {mid : String} {e : AsEvent} (h : DexRun lossy cur tr mid)
      (hother : ∀ rt, e.1 ≠ (.ext (.dex_refresh rt) : AsOp)) : DexRun lossy cur (e :: tr) mid

theorem DexRun.of_cons {lossy : Prop} {cur next : String} {e : AsEvent}
    (h : DexRun lossy cur (e :: tr) next) (hother : ∀ rt, e.1 ≠ (.ext (.dex_refresh rt) : AsOp)) :
    DexRun lossy cur tr next := by
  cases h with
  | replay h hstep => exact absurd rfl (hother _)
  | other h _ => exact h

theorem DexRun.of_replay {lossy : Prop} {cur next rt : String} {reply : DexReply}
    (h : DexRun lossy cur (⟨.ext (.dex_refresh rt), reply⟩ :: tr) next) :
    ∃ mid, DexRun lossy cur tr mid ∧ DexStep lossy mid rt reply next := by
  cases h with
  | replay h hstep => exact ⟨_, h, hstep⟩
  | other _ hother => exact absurd rfl (hother rt)

/-- An earlier part of a request. -/
theorem DexRun.of_suffix {lossy : Prop} {cur next : String} {tr' : AsTrace}
    (h : DexRun lossy cur tr' next) (hs : tr <:+ tr') : ∃ mid, DexRun lossy cur tr mid := by
  induction h with
  | start =>
    rw [List.suffix_nil.mp hs]
    exact ⟨_, .start⟩
  | replay h hstep ih =>
    rcases List.suffix_cons_iff.mp hs with rfl | hs
    · exact ⟨_, .replay h hstep⟩
    · exact ih hs
  | other h hother ih =>
    rcases List.suffix_cons_iff.mp hs with rfl | hs
    · exact ⟨_, .other h hother⟩
    · exact ih hs

/-- If nothing is lost, the token after a replay of the current one is known: the
    one that Dex returned, or still the same. -/
theorem DexStep.of_current {cur next : String} {reply : DexReply}
    (h : DexStep False cur cur reply next) :
    reply.result cur = .accepted next ∨ Unanswered cur reply ∧ next = cur := by
  cases h with
  | taken h => exact .inl h
  | refused hother _ => exact absurd rfl hother
  | unanswered h => exact .inr ⟨h, rfl⟩
  | lost hlossy _ => exact hlossy.elim

/-- The token of a user has been replaced by what Dex returned. -/
def Rotated (sub rotated : String) (before after : AsWorld) (tr : AsTrace) : Prop :=
  ∃ rt reply at_, (⟨.ext (.dex_refresh rt), reply⟩ : AsEvent) ∈ tr ∧
    DexReply.result rt reply = .accepted rotated ∧
    after.store = update before.store .dexrt sub (some (⟨rotated⟩, some at_))

/-- How a replay ends: Dex unreachable changes nothing, and a user that is
    honoured has what Dex returned. -/
def Revalidated (sub : String) (rec : Option DexRt) (before : AsWorld) (e : AsEnded Revalidation) :
    Prop :=
  (e.result = .unreachable → e.world.store = before.store ∧ rec.isSome = true) ∧
  ∀ rotated, e.result = .honoured rotated → Rotated sub rotated before e.world e.trace

theorem revalidated_plain {sub : String} {rec : Option DexRt} {e : AsEnded Revalidation}
    (h : e.result = .refused ∨ e.result = .crashed) : Revalidated sub rec w e := by
  constructor
  · intro hunreachable
    rw [hunreachable] at h
    rcases h with h | h <;> cases h
  · intro rotated hhonoured
    rw [hhonoured] at h
    rcases h with h | h <;> cases h

theorem revalidate_loop_alone (sub : String) (n : Nat) (rec : Option DexRt) (w : AsWorld)
    (tr : AsTrace) : Revalidated sub rec w (alone o w tr (revalidate_loop E sub n rec)) := by
  induction n generalizing rec w tr with
  | zero => exact revalidated_plain (.inl rfl)
  | succ n ih =>
    cases rec with
    | none => exact revalidated_plain (.inl rfl)
    | some rec =>
      -- one replay, and what the loop knows of it
      let reply := o.reply tr (.dex_refresh rec.rt)
      let tr₁ : AsTrace := ⟨.ext (.dex_refresh rec.rt), reply⟩ :: tr
      let w₁ := (w.tick (o.wait tr)).tick (o.wait tr₁)
      rw [revalidate_loop]
      show Revalidated sub (some rec) w (alone o w tr (Prog.await (.ext (.dex_refresh rec.rt)) >>= _))
      rw [alone_ext]
      split
      · -- refused: the token that is stored now may be another one
        show Revalidated sub (some rec) w (alone o (w.tick (o.wait tr)) tr₁
          (Prog.await (.get .dexrt sub) >>= _))
        rw [alone_get]
        split
        · next current' hcurrent =>
          split
          · obtain ⟨hunreachable, hhonoured⟩ := ih (some current') w₁
              (⟨.get .dexrt sub, w₁.lookup .dexrt sub⟩ :: tr₁)
            exact ⟨fun h => ⟨(hunreachable h).1, rfl⟩, hhonoured⟩
          · exact revalidated_plain (.inl rfl)
        · exact revalidated_plain (.inl rfl)
      · constructor
        · intro _
          exact ⟨rfl, rfl⟩
        · intro rotated hhonoured
          cases hhonoured
      · exact revalidated_plain (.inr rfl)
      · next rotated hresult =>
        constructor
        · intro hunreachable
          cases hunreachable
        · intro rotated' hhonoured
          cases hhonoured
          exact ⟨rec.rt, reply, _, List.mem_cons_of_mem _ List.mem_cons_self, hresult, rfl⟩

theorem revalidate_at_dex_alone (sub : String) (w : AsWorld) (tr : AsTrace) :
    Revalidated sub ((w.store .dexrt sub).map (·.1)) w (alone o w tr (revalidate_at_dex E sub)) := by
  unfold revalidate_at_dex
  rw [alone_get]
  obtain ⟨hunreachable, hhonoured⟩ := revalidate_loop_alone (E := E) (o := o) sub 2
    ((w.tick (o.wait tr)).lookup .dexrt sub) (w.tick (o.wait tr))
    (⟨.get .dexrt sub, (w.tick (o.wait tr)).lookup .dexrt sub⟩ :: tr)
  refine ⟨fun h => ?_, hhonoured⟩
  obtain ⟨hstore, hsome⟩ := hunreachable h
  obtain ⟨d, hd⟩ := Option.isSome_iff_exists.mp hsome
  obtain ⟨expiry, hrecord⟩ := store_of_lookup hd
  refine ⟨hstore, ?_⟩
  rw [show w.store .dexrt sub = some (d, expiry) from hrecord]
  rfl

/-- What a replay of Dex's current token tells: if nothing was lost, the next one
    is what it returned, or the same if there was no answer. -/
def KeepsCurrent (cur : String) (e : AsEnded Revalidation) : Prop :=
  ∀ next, DexRun False cur e.trace next → (e.result = .unreachable → next = cur) ∧
    ∀ rotated, e.result = .honoured rotated → next = rotated

theorem revalidate_loop_current {sub cur : String} (n : Nat)
    (hbefore : ∀ mid, DexRun False cur tr mid → mid = cur) :
    KeepsCurrent cur (alone o w tr (revalidate_loop E sub (n + 1) (some ⟨cur⟩))) := by
  intro next h
  rw [revalidate_loop] at h ⊢
  dsimp only at h ⊢
  rw [alone_ext] at h ⊢
  -- the first call is a replay of the current token
  have hstep : ∀ {next'}, DexRun False cur
      (⟨.ext (.dex_refresh cur), o.reply tr (.dex_refresh cur)⟩ :: tr) next' →
      DexReply.result cur (o.reply tr (.dex_refresh cur)) = .accepted next' ∨
        Unanswered cur (o.reply tr (.dex_refresh cur)) ∧ next' = cur := by
    intro next' hrun
    obtain ⟨mid, hmid, hstep⟩ := hrun.of_replay
    obtain rfl := hbefore mid hmid
    exact hstep.of_current
  split at h
  · next hresult =>
    -- it cannot be refused
    obtain ⟨mid, hmid⟩ := h.of_suffix (alone_suffix _)
    rcases hstep hmid with haccepted | ⟨hunanswered, -⟩
    · rw [hresult] at haccepted
      cases haccepted
    · exact absurd hunanswered (not_unanswered hresult (by simp) (by simp))
  · next hresult =>
    constructor
    · intro _
      rcases hstep h with haccepted | ⟨-, hsame⟩
      · rw [hresult] at haccepted
        cases haccepted
      · exact hsame
    · intro rotated hhonoured
      cases hhonoured
  · constructor
    · intro hunreachable
      cases hunreachable
    · intro _ hhonoured
      cases hhonoured
  · next rotated hresult =>
    constructor
    · intro hunreachable
      cases hunreachable
    · intro rotated' hhonoured
      cases hhonoured
      have hrun : DexRun False cur
          (⟨.ext (.dex_refresh cur), o.reply tr (.dex_refresh cur)⟩ :: tr) next :=
        h.of_cons fun rt heq => by cases heq
      rcases hstep hrun with haccepted | ⟨hunanswered, -⟩
      · rw [hresult] at haccepted
        exact (DexResult.accepted.inj haccepted).symm
      · exact absurd hunanswered (not_unanswered hresult (by simp) (by simp))

theorem revalidate_at_dex_current {sub cur : String} {expiry : Option Nat}
    (hstore : w.store .dexrt sub = some (⟨cur⟩, expiry))
    (hbefore : ∀ mid, DexRun False cur tr mid → mid = cur) :
    KeepsCurrent cur (alone o w tr (revalidate_at_dex E sub)) := by
  unfold revalidate_at_dex
  rw [alone_get]
  cases hfound : (w.tick (o.wait tr)).lookup .dexrt sub with
  | none =>
    -- an expired record counts as a refusal
    intro next _
    constructor
    · intro hunreachable
      cases hunreachable
    · intro rotated hhonoured
      cases hhonoured
  | some d =>
    obtain ⟨expiry', hstore'⟩ := store_of_lookup hfound
    have hd : (⟨cur⟩, expiry) = (d, expiry') := Option.some.inj (hstore.symm.trans hstore')
    cases hd
    refine revalidate_loop_current 1 ?_
    intro mid hmid
    exact hbefore mid (hmid.of_cons fun rt heq => by cases heq)

/-! ## The refresh grant -/

/-- The token for Dex that is on record for the user of a refresh token. -/
def Recorded (form : TokenForm) (w : AsWorld) (cur : String) : Prop :=
  ∃ rec expiry expiry', w.store .refresh form.refresh_token = some (rec, expiry) ∧
    w.store .dexrt rec.sub = some (⟨cur⟩, expiry')

/-- What a request that has given up leaves behind: its refresh token, which is
    the client's, and a token for Dex, both as before or with what Dex has just
    returned. It is the one that Dex takes if it was before and nothing was lost. -/
def Deferred (form : TokenForm) (before : AsWorld) (e : AsEnded Response) : Prop :=
  ∃ rec expiry, before.store .refresh form.refresh_token = some (rec, expiry) ∧
    rec.client_id = form.client_id ∧ (∃ d, e.world.store .dexrt rec.sub = some d) ∧
    (e.world.store = before.store ∨ ∃ rotated, Rotated rec.sub rotated before e.world e.trace) ∧
    ∀ cur next, Recorded form before cur → DexRun False cur e.trace next →
      ∃ expiry', e.world.store .dexrt rec.sub = some (⟨next⟩, expiry')

theorem Rotated.mono {sub rotated : String} {before after : AsWorld} {tr tr' : AsTrace}
    (h : Rotated sub rotated before after tr) (hs : tr <:+ tr') :
    Rotated sub rotated before after tr' := by
  obtain ⟨rt, reply, at_, hmem, hresult, hstore⟩ := h
  exact ⟨rt, reply, at_, hs.subset hmem, hresult, hstore⟩

/-- The end of a refresh never gives up. -/
theorem rotate_status (alive : Bool) (w : AsWorld) (tr : AsTrace) (error description : String) :
    (alone o w tr (rotate E form alive)).result ≠ .error 503 error description := by
  unfold rotate
  rw [alone_pop]
  intro heq
  split at heq
  · cases heq
  · split at heq
    · cases heq
    · split at heq
      · cases heq
      · rw [alone_bind] at heq
        cases heq

theorem token_refresh_deferred {error description : String}
    (h : (alone o w [] (token_refresh E form)).result = .error 503 error description) :
    Deferred form w (alone o w [] (token_refresh E form)) := by
  unfold token_refresh at h ⊢
  rw [alone_get] at h ⊢
  cases hfound : (w.tick (o.wait [])).lookup .refresh form.refresh_token with
  | none =>
    rw [hfound] at h
    cases h
  | some rec =>
    obtain ⟨expiry, hstore⟩ := store_of_lookup hfound
    rw [hfound] at h
    dsimp only at h ⊢
    split at h
    · cases h
    next hclient =>
    have hclient' : rec.client_id = form.client_id := by simpa using hclient
    rw [if_neg hclient]
    rw [alone_bind] at h ⊢
    obtain ⟨hunreachable, hhonoured⟩ := revalidate_at_dex_alone (E := E) (o := o) rec.sub
      (w.tick (o.wait [])) [⟨.get .refresh form.refresh_token, some rec⟩]
    -- the token on record is that of the user
    have hcurrent : ∀ cur, Recorded form w cur → KeepsCurrent cur (alone o (w.tick (o.wait []))
        [⟨.get .refresh form.refresh_token, some rec⟩] (revalidate_at_dex E rec.sub)) := by
      rintro cur ⟨rec', expiry₁, expiry₂, hrec, hdex⟩
      have heq : (rec', expiry₁) = (rec, expiry) := Option.some.inj (hrec.symm.trans hstore)
      cases heq
      refine revalidate_at_dex_current (w := w.tick (o.wait [])) hdex ?_
      intro mid hmid
      cases hmid.of_cons fun rt heq => by cases heq
      rfl
    generalize alone o (w.tick (o.wait [])) [⟨.get .refresh form.refresh_token, some rec⟩]
      (revalidate_at_dex E rec.sub) = e at h hunreachable hhonoured hcurrent ⊢
    cases hresult : e.result with
    | unreachable =>
      obtain ⟨hsame, hsome⟩ := hunreachable hresult
      refine ⟨rec, expiry, hstore, hclient', ?_, .inl hsame, ?_⟩
      · obtain ⟨d, hd⟩ := Option.isSome_iff_exists.mp hsome
        obtain ⟨row, hrow, -⟩ := Option.map_eq_some_iff.mp hd
        exact ⟨row, (congrFun (congrFun hsame .dexrt) rec.sub).trans hrow⟩
      · intro cur next hcur hrun
        obtain rfl := (hcurrent cur hcur next hrun).1 hresult
        obtain ⟨rec', expiry₁, expiry₂, hrec, hdex⟩ := hcur
        have heq : (rec', expiry₁) = (rec, expiry) := Option.some.inj (hrec.symm.trans hstore)
        cases heq
        exact ⟨expiry₂, (congrFun (congrFun hsame .dexrt) rec.sub).trans hdex⟩
    | crashed =>
      rw [hresult] at h
      cases h
    | refused =>
      rw [hresult] at h
      cases h
    | honoured rotated =>
      have hrotated := hhonoured rotated hresult
      rw [hresult] at h
      dsimp only at h ⊢
      rw [alone_ext] at h ⊢
      -- the answer of LiteLLM leaves the store alone
      have hkept : Deferred form w ⟨e.world.tick (o.wait e.trace),
          ⟨.ext (.get_litellm_user rec.sub), o.reply e.trace (.get_litellm_user rec.sub)⟩ :: e.trace,
          .error 503 "temporarily_unavailable" ""⟩ := by
        have hrow : ∃ expiry', e.world.store .dexrt rec.sub = some (⟨rotated⟩, expiry') := by
          obtain ⟨rt, reply, at_, -, -, hafter⟩ := hrotated
          exact ⟨some at_, by rw [hafter, update_same]⟩
        obtain ⟨expiry', hrow⟩ := hrow
        refine ⟨rec, expiry, hstore, hclient', ⟨_, hrow⟩,
          .inr ⟨rotated, hrotated.mono (List.suffix_cons _ _)⟩, ?_⟩
        intro cur next hcur hrun
        have hbefore := hrun.of_cons fun rt heq => by cases heq
        obtain rfl := (hcurrent cur hcur next hbefore).2 rotated hresult
        exact ⟨expiry', hrow⟩
      generalize o.reply e.trace (.get_litellm_user rec.sub) = reply at h hkept ⊢
      cases reply with
      | status_error code => exact hkept
      | transport_error => exact hkept
      | crashed => cases h
      | ok alive => exact absurd h (rotate_status alive _ _ _ _)

/-! ## Presenting the token again -/

/-- Dex takes the token on record, and LiteLLM knows the user. -/
structure Honouring (o : AsOutside) (form : TokenForm) (w : AsWorld) : Prop where
  dex : ∀ cur, Recorded form w cur → ∀ tr, ∃ token, o.reply tr (.dex_refresh cur) = .success token
  litellm : ∀ rec expiry, w.store .refresh form.refresh_token = some (rec, expiry) →
    ∀ tr, o.reply tr (.get_litellm_user rec.sub) = .ok true

/-- The records of the session have not expired. -/
def Lasts (form : TokenForm) (w : AsWorld) (now : Nat) : Prop :=
  ∀ rec expiry, w.store .refresh form.refresh_token = some (rec, expiry) → live now expiry = true ∧
    ∀ d expiry', w.store .dexrt rec.sub = some (d, expiry') → live now expiry' = true

theorem revalidate_succeeds {sub : String} {d : DexRt} {expiry : Option Nat}
    (htakes : ∀ tr, ∃ token, o.reply tr (.dex_refresh d.rt) = .success token)
    (hstore : w.store .dexrt sub = some (d, expiry))
    (hlive : live (alone o w tr (revalidate_at_dex E sub)).world.now expiry = true) :
    ∃ rotated, (alone o w tr (revalidate_at_dex E sub)).result = .honoured rotated := by
  unfold revalidate_at_dex at hlive ⊢
  have hfound : (w.tick (o.wait tr)).lookup .dexrt sub = some d :=
    lookup_of_store hstore (live_mono (alone_first _) hlive)
  rw [alone_get, hfound]
  unfold revalidate_loop
  dsimp only
  rw [alone_ext]
  obtain ⟨token, htoken⟩ := htakes (⟨.get .dexrt sub, some d⟩ :: tr)
  rw [htoken]
  exact ⟨_, rfl⟩

theorem rotate_succeeds {rec : Refresh} {expiry : Option Nat}
    (hstore : w.store .refresh form.refresh_token = some (rec, expiry))
    (hclient : rec.client_id = form.client_id)
    (hlive : live (alone o w tr (rotate E form true)).world.now expiry = true) :
    ∃ access refresh scope n,
      (alone o w tr (rotate E form true)).result = .tokens access refresh scope n := by
  unfold rotate at hlive ⊢
  have hfound : (w.tick (o.wait tr)).lookup .refresh form.refresh_token = some rec :=
    lookup_of_store hstore (live_mono (alone_first _) hlive)
  rw [alone_pop, hfound]
  dsimp only
  rw [if_neg (by simpa using hclient), if_neg (by decide), alone_bind]
  exact ⟨_, _, _, _, rfl⟩

/-- A session that has not expired is refreshed if the user is honoured. -/
theorem refresh_succeeds (hh : Honouring o form w) {rec : Refresh} {expiry expiry' : Option Nat} {d : DexRt}
    (hstore : w.store .refresh form.refresh_token = some (rec, expiry))
    (hclient : rec.client_id = form.client_id) (hdex : w.store .dexrt rec.sub = some (d, expiry'))
    (hlasts : Lasts form w (alone o w [] (token_refresh E form)).world.now) :
    ∃ access refresh scope n,
      (alone o w [] (token_refresh E form)).result = .tokens access refresh scope n := by
  obtain ⟨hlive, hlive'⟩ := hlasts rec expiry hstore
  have hlive' := hlive' d expiry' hdex
  unfold token_refresh at hlive hlive' ⊢
  have hfound : (w.tick (o.wait [])).lookup .refresh form.refresh_token = some rec :=
    lookup_of_store hstore (live_mono (alone_first _) hlive)
  rw [alone_get, hfound] at hlive hlive' ⊢
  dsimp only at hlive hlive' ⊢
  rw [if_neg (by simpa using hclient), alone_bind] at hlive hlive' ⊢
  -- Dex takes the recorded token, so the first replay is accepted
  have htakes := hh.dex d.rt ⟨rec, expiry, expiry', hstore, hdex⟩
  obtain ⟨rotated, hresult⟩ := revalidate_succeeds htakes (w := w.tick (o.wait [])) hdex
    (live_mono (alone_now _) hlive')
  obtain ⟨rt, reply, at_, -, -, hafter⟩ := (revalidate_at_dex_alone (E := E) (o := o) rec.sub
    (w.tick (o.wait [])) [⟨.get .refresh form.refresh_token, some rec⟩]).2 rotated hresult
  rw [hresult] at hlive ⊢
  generalize alone o (w.tick (o.wait [])) [⟨.get .refresh form.refresh_token, some rec⟩]
    (revalidate_at_dex E rec.sub) = e at hlive hafter ⊢
  dsimp only at hlive ⊢
  rw [alone_ext, hh.litellm rec expiry hstore] at hlive ⊢
  -- only the Dex record was written, so the refresh token is still there
  refine rotate_succeeds ?_ hclient hlive
  show e.world.store .refresh form.refresh_token = _
  rw [hafter, update_kind_ne _ _ _ _ (by decide)]
  exact hstore

/-- An answer with 503 leaves every refresh token as it was, and the user's
    token for Dex as it was or as Dex has just returned it. If it was the token
    that Dex takes and nothing was lost, it is again; and the same request
    succeeds once Dex takes the token on record and LiteLLM knows the user, as
    long as the records have not expired. -/
theorem outage_keeps_session (hgrant : form.grant_type = some "refresh_token")
    {error description : String}
    (h : (alone o w [] (token E form)).result = .error 503 error description) :
    (alone o w [] (token E form)).world.store .refresh = w.store .refresh ∧
    ((alone o w [] (token E form)).world.store .dexrt = w.store .dexrt ∨
      ∃ rec rotated at_, (∃ expiry, w.store .refresh form.refresh_token = some (rec, expiry)) ∧
        (∃ rt reply, (⟨.ext (.dex_refresh rt), reply⟩ : AsEvent) ∈
          (alone o w [] (token E form)).trace ∧ DexReply.result rt reply = .accepted rotated) ∧
        (alone o w [] (token E form)).world.store .dexrt =
          Function.update (w.store .dexrt) rec.sub (some (⟨rotated⟩, some at_))) ∧
    (∀ cur next, Recorded form w cur → DexRun False cur (alone o w [] (token E form)).trace next →
      Recorded form (alone o w [] (token E form)).world next) ∧
    ∀ (o' : AsOutside) (w' : AsWorld), Honouring o' form w' →
      w'.store .refresh = (alone o w [] (token E form)).world.store .refresh →
      w'.store .dexrt = (alone o w [] (token E form)).world.store .dexrt →
      Lasts form w' (alone o' w' [] (token E form)).world.now →
      ∃ access refresh scope n,
        (alone o' w' [] (token E form)).result = .tokens access refresh scope n := by
  have htoken : token E form = token_refresh E form := by
    unfold token
    rw [hgrant]
    rfl
  rw [htoken] at h ⊢
  obtain ⟨rec, expiry, hstore, hclient, ⟨⟨d, expiry'⟩, hdex⟩, hleft, hkept⟩ :=
    token_refresh_deferred h
  -- the Dex record is the only thing that may have been written
  have hrefresh : (alone o w [] (token_refresh E form)).world.store .refresh = w.store .refresh := by
    rcases hleft with hsame | ⟨rotated, rt, reply, at_, -, -, hafter⟩
    · rw [hsame]
    · rw [hafter]
      funext key
      exact update_kind_ne _ _ _ _ (by decide)
  refine ⟨hrefresh, ?_, ?_, ?_⟩
  · rcases hleft with hsame | ⟨rotated, rt, reply, at_, hmem, hresult, hafter⟩
    · exact .inl (by rw [hsame])
    · refine .inr ⟨rec, rotated, at_, ⟨expiry, hstore⟩, ⟨rt, reply, hmem, hresult⟩, ?_⟩
      rw [hafter]
      simp [update]
  · intro cur next hcur hrun
    obtain ⟨expiry'', hrow⟩ := hkept cur next hcur hrun
    exact ⟨rec, expiry, expiry'', by rw [hrefresh]; exact hstore, hrow⟩
  -- later: the same records, and an outside that answers
  · intro o' w' hh hsame hsame' hlasts
    have hstore' : w'.store .refresh form.refresh_token = some (rec, expiry) := by
      rw [hsame, hrefresh]
      exact hstore
    have hdex' : w'.store .dexrt rec.sub = some (d, expiry') := by
      rw [hsame']
      exact hdex
    exact refresh_succeeds hh hstore' hclient hdex' hlasts

/-! ## A session of one user -/

/-- A session and a token for Dex. -/
def session_world : AsWorld where
  store := fun k => match k with
    | .refresh => fun key => if key = "rt" then some (⟨"ann", "cli", "litellm"⟩, some 1000) else none
    | .dexrt => fun key => if key = "ann" then some (⟨"dex"⟩, some 1000) else none
    | _ => fun _ => none
  locks := fun _ => none
  now := 0
  drawn := []

/-- A second passes before every operation, and Dex and LiteLLM answer as they
    are told. -/
def session_outside (dex : String → DexReply) (litellm : LitellmReply Bool) : AsOutside where
  reply := fun _ e => match e with
    | .authorize_access_token _ => none
    | .dex_refresh rt => dex rt
    | .ensure_team_and_user .. => .transport_error
    | .get_litellm_user _ => litellm
    | .projection .. => .absent
    | .broker_register _ => .transport_error
    | .get_key_info _ => .transport_error
    | .provision _ => .transport_error
    | .key_generate _ => .transport_error
    | .sleep => ()
  draw := fun _ _ => "drawn"
  wait := fun _ => 1

/-- Dex takes one token, returns another one for it and refuses the rest. -/
def takes_only (cur next : String) (rt : String) : DexReply :=
  if rt = cur then .success (some next) else .status 400

def session_form : TokenForm := ⟨some "refresh_token", "cli", "", "", "", "rt", ""⟩

/-- LiteLLM is down after Dex has rotated the token; the second try succeeds. -/
theorem outage_keeps_session_sample : ∃ access refresh scope n,
    (alone (session_outside (takes_only "rotated" "next") (.ok true))
      (alone (session_outside (takes_only "dex" "rotated") .transport_error) session_world []
        (token sample session_form)).world []
      (token sample session_form)).result = .tokens access refresh scope n := by
  have hgrant : session_form.grant_type = some "refresh_token" := rfl
  have h : (alone (session_outside (takes_only "dex" "rotated") .transport_error) session_world []
      (token sample session_form)).result = .error 503 "temporarily_unavailable" "" := rfl
  refine (outage_keeps_session hgrant h).2.2.2 _ _ ⟨?_, fun _ _ _ _ => rfl⟩ rfl rfl ?_
  · rintro cur ⟨rec, expiry, expiry', hrec, hdex⟩ tr
    have hrec' : (⟨"ann", "cli", "litellm"⟩, some 1000) = (rec, expiry) := Option.some.inj hrec
    cases hrec'
    have hdex' : (⟨"rotated"⟩, some 2592004) = ((⟨cur⟩ : DexRt), expiry') := Option.some.inj hdex
    cases hdex'
    exact ⟨some "next", rfl⟩
  · intro rec expiry hstore
    have hrec : (⟨"ann", "cli", "litellm"⟩, some 1000) = (rec, expiry) := Option.some.inj hstore
    cases hrec
    refine ⟨by decide, fun d expiry' hdex => ?_⟩
    have hd : (⟨"rotated"⟩, some 2592004) = (d, expiry') := Option.some.inj hdex
    cases hd
    decide

/-- Dex's answer does not arrive, but Dex has replaced the token. The request is
    answered with 503; the second one replays a token that Dex does not take any
    more, and ends the session. -/
theorem outage_costs_session :
    let first := alone (session_outside (fun _ => .transport_error) (.ok true)) session_world []
      (token sample session_form)
    let second := alone (session_outside (takes_only "rotated" "next") (.ok true)) first.world []
      (token sample session_form)
    first.result = .error 503 "temporarily_unavailable" "identity provider unreachable" ∧
      Recorded session_form session_world "dex" ∧ DexRun True "dex" first.trace "rotated" ∧
      second.result = .error 400 "invalid_grant"
        "the identity provider no longer honours this session" ∧
      (first.world.store .refresh "rt").isSome = true ∧
      second.world.store .refresh "rt" = none := by
  refine ⟨rfl, ⟨⟨"ann", "cli", "litellm"⟩, some 1000, some 1000, rfl, rfl⟩, ?_, rfl, rfl, rfl⟩
  have hstart : DexRun True "dex" [] "dex" := .start
  have hread := (hstart.other (e := ⟨.get .refresh "rt", some ⟨"ann", "cli", "litellm"⟩⟩)
    fun rt heq => by cases heq).other (e := ⟨.get .dexrt "ann", some ⟨"dex"⟩⟩)
    fun rt heq => by cases heq
  exact hread.replay (.lost trivial (.inl rfl))

end AlitellmAuth
