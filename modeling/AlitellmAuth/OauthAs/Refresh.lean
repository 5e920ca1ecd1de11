import Mathlib.Logic.Relation
import AlitellmAuth.OauthAs.Runs

/-! # Refresh tokens

    A refresh request reads the presented token, revalidates its user at Dex
    and at LiteLLM, and only then consumes the token and issues the next pair.

    * `Succeeds`: one rotation. A token has at most one successor, and user
      and client stay the same along every chain of rotations
      (`refresh_rotates_once`).
    * `refresh_revalidated`: no pair without both revalidations, and a refused
      request leaves its token consumed.
-/

namespace AlitellmAuth

open Interleave Text Relation

variable {E : Env} {ok : AsConfig → AsConfig → Prop} {c : AsConfig}

/-- Thread `i` has issued a pair for the refresh token of its form. -/
def RefreshPair (c : AsConfig) (i : Nat) (form : TokenForm) (refresh : String) (v : Refresh) :
    Prop :=
  c.request i = some (.token form) ∧ form.grant_type = some "refresh_token" ∧ Issued c i refresh v

/-- The refresh token `rt` was rotated into `rt'`. -/
def Succeeds (c : AsConfig) (rt rt' : String) : Prop :=
  ∃ i form v, RefreshPair c i form rt' v ∧ form.refresh_token = rt

/-- There is a run in which a login is refreshed. -/
theorem refresh_run : ∃ c refresh v, Reached sample c ∧ RefreshPair c 4 refresh_form refresh v := by
  obtain ⟨c, hreach, -, hpair⟩ := login_run
  obtain ⟨hr, access, refresh, scope, n, hres⟩ := got_pair_spec hpair
  obtain ⟨v, hissued, -⟩ := tokens_issued hreach hres
  exact ⟨c, refresh, v, hreach, hr, rfl, hissued⟩

/-! ## What a rotation has done -/

/-- The trace of a request that has rotated a token: the revalidation, the
    consumption of the token, the scopes, and the next pair. -/
def rotation (form : TokenForm) (refresh : String) (v : Refresh) (ttl : Option Nat) (jti : String)
    (now : Nat) (seg : AsTrace) (consumed : Refresh) (u : String) (before : AsTrace) : AsTrace :=
  ⟨.put .refresh refresh v ttl, ()⟩ :: ⟨.draw (.urlsafe 32), refresh⟩ ::
    ⟨.draw (.urlsafe 16), jti⟩ :: ⟨.time, now⟩ ::
    (seg ++ ⟨.pop .refresh form.refresh_token, some consumed⟩ ::
      ⟨.ext (.get_litellm_user u), .ok true⟩ :: before)

/-- Everything behind a pair issued for a refresh token. -/
theorem refresh_pair_trace (h : Reach (handler E) ok c) {i : Nat} {form : TokenForm}
    {refresh : String} {v : Refresh} (hp : RefreshPair c i form refresh v) :
    ∃ ttl jti now seg consumed u before kept,
      rotation form refresh v ttl jti now seg consumed u before <:+ traceOf i c.log ∧
      Honoured form u before ∧ consumed.client_id = form.client_id ∧
      v.client_id = form.client_id ∧ v.sub = consumed.sub ∧
      v.scope = join (E.as_audience :: kept) ∧
      KeptIn E consumed.sub (split consumed.scope) kept seg := by
  obtain ⟨hr, hgrant, hissued⟩ := hp
  obtain ⟨form', _, tr, ttl, hr', hclient, hsource, ⟨jti, now, rfl⟩, hsuffix⟩ :=
    issued_source h hissued
  cases request_unique hr hr'
  cases hsource with
  | code hg => rw [hgrant] at hg; exact absurd hg (by decide)
  | device hg => rw [hgrant] at hg; exact absurd hg (by decide)
  | @refresh consumed u kept seg before hg hc hsub hscope hkept hbefore =>
    exact ⟨ttl, jti, now, seg, consumed, u, before, kept, hsuffix, hbefore, hc, hclient, hsub,
      hscope, hkept⟩

/-- A pair issued for a refresh token has popped that token, and takes over its
    user and its client. -/
theorem refresh_pair_popped (h : Reach (handler E) ok c) {i : Nat} {form : TokenForm}
    {refresh : String} {v : Refresh} (hp : RefreshPair c i form refresh v) :
    ∃ consumed, (⟨i, ⟨.pop .refresh form.refresh_token, some consumed⟩⟩ : AsEntry) ∈ c.log ∧
      v.sub = consumed.sub ∧ v.client_id = consumed.client_id := by
  obtain ⟨ttl, jti, now, seg, consumed, u, before, kept, hs, -, hc, hclient, hsub, -⟩ :=
    refresh_pair_trace h hp
  exact ⟨consumed, mem_traceOf.mp (hs.subset (by simp [rotation])), hsub, hclient.trans hc.symm⟩

/-- Whoever pops a refresh token pops the record it was issued with. -/
theorem popped_issued (h : Reach (handler E) ok c) {i j : Nat} {rt : String} {v v' : Refresh}
    (hpop : (⟨i, ⟨.pop .refresh rt, some v⟩⟩ : AsEntry) ∈ c.log) (hissued : Issued c j rt v') :
    v = v' := by
  obtain ⟨past, hs⟩ := exists_suffix_of_mem hpop
  obtain ⟨k, ttl, past', hput⟩ := popped_put h hs
  obtain ⟨ttl', hmem⟩ := hissued
  exact (put_unique (reach_ledger h) (fresh_keyed h (.inr (.inr (.inr rfl))))
    ((hput.trans ((List.suffix_cons _ _).trans hs)).subset List.mem_cons_self) hmem).2

/-- Whoever reads a refresh token reads the record it was issued with. -/
theorem read_issued (h : Reach (handler E) ok c) {i j : Nat} {rt : String} {v v' : Refresh}
    (hget : (⟨i, ⟨.get .refresh rt, some v⟩⟩ : AsEntry) ∈ c.log) (hissued : Issued c j rt v') :
    v = v' := by
  obtain ⟨past, hs⟩ := exists_suffix_of_mem hget
  obtain ⟨k, ttl, past', hput⟩ := read_put h hs
  obtain ⟨ttl', hmem⟩ := hissued
  exact (put_unique (reach_ledger h) (fresh_keyed h (.inr (.inr (.inr rfl))))
    ((hput.trans ((List.suffix_cons _ _).trans hs)).subset List.mem_cons_self) hmem).2

/-! ## Rotation -/

/-- A refresh token is rotated at most once. -/
theorem rotated_once (h : Reach (handler E) ok c) {i j : Nat} {form form' : TokenForm}
    {refresh refresh' : String} {v v' : Refresh} (hp : RefreshPair c i form refresh v)
    (hp' : RefreshPair c j form' refresh' v') (hrt : form.refresh_token = form'.refresh_token) :
    i = j ∧ refresh = refresh' ∧ v = v' := by
  obtain ⟨consumed, hpop, -⟩ := refresh_pair_popped h hp
  obtain ⟨consumed', hpop', -⟩ := refresh_pair_popped h hp'
  rw [← hrt] at hpop'
  obtain ⟨rfl, -⟩ :=
    popped_once (reach_ledger h) (fresh_keyed h (.inr (.inr (.inr rfl)))) hpop hpop'
  exact ⟨rfl, issued_once h hp.2.2 hp'.2.2⟩

/-- One rotation keeps user and client. -/
theorem succeeds_same (h : Reach (handler E) ok c) {i j : Nat} {form : TokenForm}
    {refresh : String} {v v' : Refresh} (hissued : Issued c i form.refresh_token v)
    (hp : RefreshPair c j form refresh v') : v'.sub = v.sub ∧ v'.client_id = v.client_id := by
  obtain ⟨consumed, hpop, hsub, hclient⟩ := refresh_pair_popped h hp
  obtain rfl := popped_issued h hpop hissued
  exact ⟨hsub, hclient⟩

/-- The record of a refresh token. -/
theorem issued_unique (h : Reach (handler E) ok c) {i j : Nat} {rt : String} {v v' : Refresh}
    (hi : Issued c i rt v) (hj : Issued c j rt v') : i = j ∧ v = v' := by
  obtain ⟨ttl, hi⟩ := hi
  obtain ⟨ttl', hj⟩ := hj
  exact put_unique (reach_ledger h) (fresh_keyed h (.inr (.inr (.inr rfl)))) hi hj

/-- A whole chain of rotations keeps user and client. -/
theorem chain_same (h : Reach (handler E) ok c) {i : Nat} {rt rt' : String} {v : Refresh}
    (hissued : Issued c i rt v) (hchain : ReflTransGen (Succeeds c) rt rt') {j : Nat}
    {v' : Refresh} (hissued' : Issued c j rt' v') :
    v'.sub = v.sub ∧ v'.client_id = v.client_id := by
  induction hchain generalizing j v' with
  | refl =>
    obtain ⟨-, rfl⟩ := issued_unique h hissued hissued'
    exact ⟨rfl, rfl⟩
  | @tail b d _ hstep ih =>
    obtain ⟨k, form, w, hp, rfl⟩ := hstep
    obtain ⟨-, rfl⟩ := issued_unique h hissued' hp.2.2
    obtain ⟨consumed, hpop, -⟩ := refresh_pair_popped h hp
    obtain ⟨past, hs⟩ := exists_suffix_of_mem hpop
    obtain ⟨m, ttl, past', hput⟩ := popped_put h hs
    have hprev : Issued c m form.refresh_token consumed :=
      ⟨ttl, (hput.trans ((List.suffix_cons _ _).trans hs)).subset List.mem_cons_self⟩
    obtain ⟨hsub, hclient⟩ := succeeds_same h hprev hp
    obtain ⟨hsub', hclient'⟩ := ih hprev
    exact ⟨hsub.trans hsub', hclient.trans hclient'⟩

/-! ## Requests of another client -/

/-- A refresh request does nothing but look its token up, unless the token
    belongs to its client. -/
def Bound (r : Request) (tr : AsTrace) (e : AsEvent) : Prop :=
  ∀ form, IsGrant "refresh_token" form r →
    (tr = [] ∧ ∃ a, e = ⟨.get .refresh form.refresh_token, a⟩) ∨
    ∃ rec : Refresh, rec.client_id = form.client_id ∧
      [⟨.get .refresh form.refresh_token, some rec⟩] <:+ tr

theorem token_refresh_bound (form : TokenForm) :
    (token_refresh E form).Along (Bound (.token form)) (fun _ _ => True) [] := by
  refine along_await fun found => ⟨?_, ?_⟩
  · rintro form' ⟨hform, -⟩
    cases hform
    exact .inl ⟨rfl, found, rfl⟩
  cases found with
  | none => trivial
  | some rec =>
    dsimp only
    split
    · trivial
    next hclient =>
    refine along_mono ?_ (fun _ _ _ => trivial) (along_suffix List.suffix_rfl _)
    rintro tr e hs form' ⟨hform, -⟩
    cases hform
    exact .inr ⟨rec, by simpa using hclient, hs⟩

theorem handler_bound (r : Request) :
    (handler E r).Along (Bound r) (fun _ _ => True) [] := by
  have hother : (∀ form, ¬ IsGrant "refresh_token" form r) →
      (handler E r).Along (Bound r) (fun _ _ => True) [] := fun hr =>
    along_of_forall (fun tr e form hg => absurd hg (hr form)) _ _
  cases r with
  | token form =>
    by_cases hg : form.grant_type = some "refresh_token"
    · have htoken : handler E (.token form) = token_refresh E form := by
        simp [handler, token, hg]
      rw [htoken]
      exact token_refresh_bound form
    · refine hother ?_
      rintro form' ⟨hform, hg'⟩
      cases hform
      exact hg hg'
  | register | authorize | as_callback | broker_callback | device_authorization
  | device_confirm | front_key | user_key | opencode_config =>
    refine hother ?_
    rintro form ⟨hform, -⟩
    cases hform

/-- A request of another client only looks the token up. -/
theorem foreign_refresh_inert (h : Reach (handler E) ok c) {i j : Nat} {form : TokenForm}
    {v : Refresh} (hr : c.request i = some (.token form))
    (hgrant : form.grant_type = some "refresh_token")
    (hissued : Issued c j form.refresh_token v) (hne : v.client_id ≠ form.client_id) :
    ∀ e ∈ traceOf i c.log, ∃ a, e = ⟨.get .refresh form.refresh_token, a⟩ := by
  intro e he
  obtain ⟨past, hs⟩ := exists_suffix_of_mem (mem_traceOf.mp he)
  obtain ⟨r, hr', hbound⟩ := ((reach_contracted handler_bound h).1).at hs
  obtain rfl := request_unique hr hr'
  rcases hbound form ⟨rfl, hgrant⟩ with ⟨-, ha⟩ | ⟨rec, hclient, hread⟩
  · exact ha
  · have hmem : (⟨i, ⟨.get .refresh form.refresh_token, some rec⟩⟩ : AsEntry) ∈ c.log :=
      hs.subset (List.mem_cons_of_mem _ (mem_traceOf.mp (hread.subset List.mem_cons_self)))
    obtain rfl := read_issued h hmem hissued
    exact absurd hclient hne

/-! ## After a rotation -/

/-- Nobody finds a rotated token again. -/
theorem rotated_unknown (h : Reach (handler E) ok c) {i : Nat} {form : TokenForm}
    {refresh : String} {v : Refresh} {ttl : Option Nat} {later past : AsLog}
    (hr : c.request i = some (.token form)) (hgrant : form.grant_type = some "refresh_token")
    (hlog : c.log = later ++ ⟨i, ⟨.put .refresh refresh v ttl, ()⟩⟩ :: past)
    {e : AsEntry} (he : e ∈ later) {a : Option Refresh}
    (hev : e.ev = ⟨.get .refresh form.refresh_token, a⟩ ∨
      e.ev = ⟨.pop .refresh form.refresh_token, a⟩) : a = none := by
  have hl := reach_ledger h
  have hf : FreshKeyed .refresh c.log := fresh_keyed h (.inr (.inr (.inr rfl)))
  -- the log when `e` was performed
  obtain ⟨before, hbefore⟩ : ∃ before, e :: before <:+ c.log ∧
      ⟨i, ⟨.put .refresh refresh v ttl, ()⟩⟩ :: past <:+ before := by
    obtain ⟨xs, ys, rfl⟩ := List.append_of_mem he
    refine ⟨ys ++ ⟨i, ⟨.put .refresh refresh v ttl, ()⟩⟩ :: past, ⟨xs, ?_⟩, ys, rfl⟩
    simp [hlog]
  obtain ⟨hs, hput⟩ := hbefore
  have hsuffix := (List.suffix_cons _ _).trans hs
  -- by then the rotating request had popped the token
  obtain ⟨r, hr', form', past', rfl, -, ⟨jti, now, htr⟩, hsource⟩ :=
    performed h (hput.trans hsuffix)
  cases request_unique hr hr'
  have hpop : ∃ w, (⟨i, ⟨.pop .refresh form.refresh_token, some w⟩⟩ : AsEntry) ∈ before := by
    cases hsource with
    | code hg => rw [hgrant] at hg; exact absurd hg (by decide)
    | device hg => rw [hgrant] at hg; exact absurd hg (by decide)
    | @refresh consumed u kept seg bf hg hc hsub hscope hkept hbefore =>
      refine ⟨consumed, hput.subset (List.mem_cons_of_mem _ (mem_traceOf.mp ?_))⟩
      rw [htr]
      simp
  obtain ⟨w, hw⟩ := hpop
  have hgone := popped_gone (hl.suffix hsuffix) (hf.suffix hsuffix) hw
  have hans := hl.at hs
  obtain ⟨k, ev⟩ := e
  cases a with
  | none => rfl
  | some v' =>
    rcases hev with hev | hev <;> subst hev <;> rw [hans v' rfl] at hgone <;> cases hgone

/-- Refresh rotation is single-use and binding, whatever the interleaving: a
    token yields at most one successor pair; user and client stay the same
    along every chain of successors; a request of another client does nothing
    but look the token up; and nobody finds a token again once its successor
    was issued. -/
theorem refresh_rotates_once (h : Reached E c) :
    (∀ i j form form' refresh refresh' v v', RefreshPair c i form refresh v →
      RefreshPair c j form' refresh' v' → form.refresh_token = form'.refresh_token →
      i = j ∧ refresh = refresh' ∧ v = v') ∧
    (∀ i j rt rt' v v', Issued c i rt v → Issued c j rt' v' →
      ReflTransGen (Succeeds c) rt rt' → v'.sub = v.sub ∧ v'.client_id = v.client_id) ∧
    (∀ i j form v, c.request i = some (.token form) →
      form.grant_type = some "refresh_token" → Issued c j form.refresh_token v →
      v.client_id ≠ form.client_id →
      ∀ e ∈ traceOf i c.log, ∃ a, e = ⟨.get .refresh form.refresh_token, a⟩) ∧
    (∀ i form refresh v ttl later past, c.request i = some (.token form) →
      form.grant_type = some "refresh_token" →
      c.log = later ++ ⟨i, ⟨.put .refresh refresh v ttl, ()⟩⟩ :: past →
      ∀ e ∈ later, ∀ a, e.ev = ⟨.get .refresh form.refresh_token, a⟩ ∨
        e.ev = ⟨.pop .refresh form.refresh_token, a⟩ → a = none) := by
  refine ⟨?_, ?_, ?_, ?_⟩
  · intro i j form form' refresh refresh' v v' hp hp' hrt
    exact rotated_once h hp hp' hrt
  · intro i j rt rt' v v' hi hj hchain
    exact chain_same h hi hchain hj
  · intro i j form v hr hgrant hissued hne
    exact foreign_refresh_inert h hr hgrant hissued hne
  · intro i form refresh v ttl later past hr hgrant hlog e he a hev
    exact rotated_unknown h hr hgrant hlog he hev

/-- The token of a login, once refreshed, has no second successor. -/
theorem refresh_rotates_once_sample : ∃ c refresh v, Reached sample c ∧
    RefreshPair c 4 refresh_form refresh v ∧
    ∀ j form' refresh' v', RefreshPair c j form' refresh' v' →
      refresh_form.refresh_token = form'.refresh_token → 4 = j ∧ refresh = refresh' ∧ v = v' := by
  obtain ⟨c, refresh, v, hreach, hp⟩ := refresh_run
  exact ⟨c, refresh, v, hreach, hp, fun j form' refresh' v' hp' hrt =>
    (refresh_rotates_once hreach).1 4 j refresh_form form' refresh refresh' v v' hp hp' hrt⟩

/-! ## Revalidation -/

section
variable {form : TokenForm} {u : String} {n : Nat} {d : DexRt} {tr : AsTrace}

theorem Honoured.read (h : Honoured form u tr) :
    ∃ rec, (⟨.get .refresh form.refresh_token, some rec⟩ : AsEvent) ∈ tr ∧ rec.sub = u := by
  obtain ⟨n, d, reply, rotated, ttl, _, rfl, ⟨tr₀, rfl, hold⟩, -⟩ := h
  obtain ⟨rec, hmem, -, hsub⟩ := hold.read
  exact ⟨rec, by simp [hmem], hsub⟩

theorem Refused.read (h : Refused form u tr) :
    ∃ rec, (⟨.get .refresh form.refresh_token, some rec⟩ : AsEvent) ∈ tr := by
  cases h with
  | @missing rec => exact ⟨rec, by simp⟩
  | given_up h =>
    obtain ⟨reply, _, rfl, ⟨tr₀, rfl, hold⟩, -⟩ := h
    obtain ⟨rec, hmem, -⟩ := hold.read
    exact ⟨rec, by simp [hmem]⟩

end

/-- Behind a rotation stand, in this order, the read of a Dex token of its
    user, Dex's word that it accepts that token, and LiteLLM's word that the
    user exists. -/
theorem refresh_pair_revalidated (h : Reach (handler E) ok c) {i : Nat} {form : TokenForm}
    {refresh : String} {v : Refresh} (hp : RefreshPair c i form refresh v) :
    ∃ ttl rt reply rotated, reply.result rt = .accepted rotated ∧
      [⟨.put .refresh refresh v ttl, ()⟩, ⟨.ext (.get_litellm_user v.sub), .ok true⟩,
        ⟨.ext (.dex_refresh rt), reply⟩, ⟨.get .dexrt v.sub, some ⟨rt⟩⟩].Sublist
          (traceOf i c.log) := by
  obtain ⟨ttl, jti, now, seg, consumed, u, before, kept, hs, hbefore, -, -, hsub, -⟩ :=
    refresh_pair_trace h hp
  -- the token that was read at first is the one consumed in the end
  obtain ⟨rec, hread, hrec⟩ := hbefore.read
  have hpop : (⟨i, ⟨.pop .refresh form.refresh_token, some consumed⟩⟩ : AsEntry) ∈ c.log :=
    mem_traceOf.mp (hs.subset (by simp [rotation]))
  have hget : (⟨i, ⟨.get .refresh form.refresh_token, some rec⟩⟩ : AsEntry) ∈ c.log :=
    mem_traceOf.mp (hs.subset (by simp [rotation, hread]))
  obtain ⟨past, hpast⟩ := exists_suffix_of_mem hpop
  obtain ⟨j, ttl', past', hput⟩ := popped_put h hpast
  have hissued : Issued c j form.refresh_token consumed :=
    ⟨ttl', (hput.trans ((List.suffix_cons _ _).trans hpast)).subset List.mem_cons_self⟩
  obtain rfl := read_issued h hget hissued
  obtain rfl : u = v.sub := hrec.symm.trans hsub.symm
  obtain ⟨n, d, reply, rotated, ttl'', _, rfl, ⟨tr₀, rfl, hold⟩, haccept⟩ := hbefore
  obtain ⟨tr₁, rfl⟩ := hold.head
  refine ⟨ttl, d.rt, reply, rotated, haccept, List.Sublist.trans ?_ hs.sublist⟩
  refine List.Sublist.cons_cons _ (.cons _ (.cons _ (.cons _ ?_)))
  refine List.Sublist.trans ?_ (List.sublist_append_right _ _)
  exact .cons _ (.cons_cons _ (.cons _ (.cons_cons _ (.cons_cons _ (List.nil_sublist _)))))

/-- Nothing is revalidated any more once a pair was issued. -/
theorem revalidation_before_issue (h : Reach (handler E) ok c) {i : Nat} {e : AsEvent}
    {past : AsTrace} (hs : e :: past <:+ traceOf i c.log)
    (he : (∃ u a, e = ⟨.get .dexrt u, a⟩) ∨ ∃ u a, e = ⟨.ext (.get_litellm_user u), a⟩) :
    ∀ x ∈ past, ¬ IsPut .refresh x := by
  rintro x hx ⟨key, v, ttl, rfl⟩
  obtain ⟨u, a, rfl⟩ | ⟨u, a, rfl⟩ := he
  · obtain ⟨r, -, form, -, ⟨rec, rfl, -⟩ | ⟨n, d, reply, ⟨tr₀, rfl, hold⟩, -⟩⟩ :=
      performed_trace h hs
    · simp at hx
    · rcases List.mem_cons.mp hx with heq | hx
      · cases heq
      · rcases hold.mem hx with ⟨_, heq⟩ | ⟨_, _, heq, -⟩ | ⟨_, heq, -⟩ <;> cases heq
  · obtain ⟨r, -, form, -, hhon⟩ := performed_trace h hs
    rcases hhon.mem hx with ⟨_, _, heq⟩ | ⟨_, heq⟩ | ⟨_, _, heq⟩ | ⟨_, heq, -⟩ <;> cases heq

/-- A request that has issued a pair was not rejected. -/
theorem issued_not_rejected (h : Reach (handler E) ok c) {i : Nat} {form : TokenForm}
    {refresh : String} {v : Refresh} (hp : RefreshPair c i form refresh v) :
    ¬ Rejected (traceOf i c.log) := by
  obtain ⟨ttl, jti, now, seg, consumed, u, before, kept, hs, hbefore, -, -, -, -, hkept⟩ :=
    refresh_pair_trace h hp
  -- an event of the revalidation belongs to the part before the pair
  have hpart : ∀ e, ((∃ u a, e = ⟨.get .dexrt u, a⟩) ∨
      ∃ u a, e = ⟨.ext (.get_litellm_user u), a⟩) → e ∈ traceOf i c.log →
      e = ⟨.ext (.get_litellm_user u), .ok true⟩ ∨ e ∈ before := by
    intro e he hmem
    rcases mem_or_later hs hmem with hin | ⟨past, hpast, hlate⟩
    · simp only [rotation, List.mem_cons, List.mem_append] at hin
      rcases hin with rfl | rfl | rfl | rfl | hin | rfl | hin | hin
      · simp at he
      · simp at he
      · simp at he
      · simp at he
      · obtain ⟨store, value, rfl⟩ := hkept.reads e hin
        simp at he
      · simp at he
      · exact .inl hin
      · exact .inr hin
    · exact absurd ⟨refresh, v, ttl, rfl⟩
        (revalidation_before_issue h hpast he _ (hlate.subset List.mem_cons_self))
  rintro (⟨-, hall⟩ | ⟨u', hmem⟩ | ⟨u', hmem⟩)
  · obtain ⟨n, d, reply, rotated, ttl', _, rfl, ⟨tr₀, rfl, -⟩, haccept⟩ := hbefore
    have hrefused := hall d.rt reply (hs.subset (by simp [rotation]))
    rw [haccept] at hrefused
    cases hrefused
  · rcases hpart _ (.inl ⟨u', none, rfl⟩) hmem with heq | hin
    · cases heq
    · rcases hbefore.mem hin with ⟨_, _, heq⟩ | ⟨_, heq⟩ | ⟨_, _, heq⟩ | ⟨_, heq, -⟩ <;> cases heq
  · rcases hpart _ (.inr ⟨u', _, rfl⟩) hmem with heq | hin
    · cases heq
    · rcases hbefore.mem hin with ⟨_, _, heq⟩ | ⟨_, heq⟩ | ⟨_, _, heq⟩ | ⟨_, heq, -⟩ <;> cases heq

/-- A rejected request has consumed its token when it answers: the token is
    unknown from then on. -/
theorem rejected_consumed (h : Reach (handler E) ok c) {i : Nat} {form : TokenForm}
    (hr : c.request i = some (.token form)) (hgrant : form.grant_type = some "refresh_token")
    (hrej : Rejected (traceOf i c.log)) {res : Response} (hres : c.response i = some res) :
    c.world.lookup .refresh form.refresh_token = none := by
  obtain ⟨r, hr', -, hans⟩ := answered h hres
  obtain rfl := request_unique hr hr'
  obtain ⟨a, hpop⟩ := hans form ⟨rfl, hgrant⟩ hrej
  obtain ⟨past, hs⟩ := exists_suffix_of_mem (mem_traceOf.mp hpop)
  -- the token was read, hence written, before it was popped
  obtain ⟨r, hr', form', u, ⟨rfl, -⟩, -, hbefore⟩ := performed h hs
  cases request_unique hr hr'
  have hread : ∃ rec, (⟨.get .refresh form.refresh_token, some rec⟩ : AsEvent) ∈
      traceOf i past := by
    rcases hbefore with hrefused | ⟨alive, before, htr, hhon⟩
    · exact hrefused.read
    · obtain ⟨rec, hmem, -⟩ := hhon.read
      exact ⟨rec, by simp [htr, hmem]⟩
  obtain ⟨rec, hread⟩ := hread
  obtain ⟨past', hpast'⟩ := exists_suffix_of_mem (mem_traceOf.mp hread)
  have hlog := (List.suffix_cons _ _).trans hs
  obtain ⟨j, ttl, past'', hput⟩ := read_put h (hpast'.trans hlog)
  have hmem := ((hput.trans (List.suffix_cons _ _)).trans hpast').subset List.mem_cons_self
  have hgone := gone_after_pop (reach_ledger h) (fresh_keyed h (.inr (.inr (.inr rfl)))) hs hmem
  cases hlook : c.world.lookup .refresh form.refresh_token with
  | none => rfl
  | some w => rw [(reach_agrees h).lookup hlook] at hgone; cases hgone

/-- No refresh without revalidation, whatever the interleaving: a pair issued
    for a refresh token is preceded, in its own request, by a read of the
    user's Dex token, by Dex accepting that very token and by LiteLLM knowing
    the user, and its access token speaks for that user; a rejected request
    issues nothing and leaves its token consumed. -/
theorem refresh_revalidated (h : Reached E c) :
    (∀ i form refresh v, RefreshPair c i form refresh v →
      ∃ ttl rt reply rotated past, reply.result rt = .accepted rotated ∧
        [⟨.put .refresh refresh v ttl, ()⟩, ⟨.ext (.get_litellm_user v.sub), .ok true⟩,
          ⟨.ext (.dex_refresh rt), reply⟩, ⟨.get .dexrt v.sub, some ⟨rt⟩⟩].Sublist
            (traceOf i c.log) ∧
        (⟨i, ⟨.get .dexrt v.sub, some ⟨rt⟩⟩⟩ : AsEntry) :: past <:+ c.log ∧
        contents past .dexrt v.sub = some ⟨rt⟩) ∧
    (∀ i form access refresh scope expires_in, c.request i = some (.token form) →
      form.grant_type = some "refresh_token" →
      c.response i = some (.tokens access refresh scope expires_in) →
      ∃ v, RefreshPair c i form refresh v ∧ Accompanies v access scope) ∧
    (∀ i form, c.request i = some (.token form) → form.grant_type = some "refresh_token" →
      Rejected (traceOf i c.log) →
      (∀ refresh v, ¬ Issued c i refresh v) ∧
      ∀ res, c.response i = some res → c.world.lookup .refresh form.refresh_token = none) := by
  refine ⟨?_, ?_, ?_⟩
  · intro i form refresh v hp
    obtain ⟨ttl, rt, reply, rotated, haccept, hsub⟩ := refresh_pair_revalidated h hp
    -- the record that was read is the one on file at that moment
    have hread : (⟨.get .dexrt v.sub, some ⟨rt⟩⟩ : AsEvent) ∈ traceOf i c.log :=
      hsub.subset (by simp)
    obtain ⟨past, hs⟩ := exists_suffix_of_mem (mem_traceOf.mp hread)
    exact ⟨ttl, rt, reply, rotated, past, haccept, hsub, hs, (reach_ledger h).at hs _ rfl⟩
  · intro i form access refresh scope expires_in hr hgrant hres
    obtain ⟨v, hissued, hsame⟩ := tokens_issued h hres
    exact ⟨v, ⟨hr, hgrant, hissued⟩, hsame⟩
  · intro i form hr hgrant hrej
    refine ⟨fun refresh v hissued => ?_, fun res hres => rejected_consumed h hr hgrant hrej hres⟩
    exact issued_not_rejected h ⟨hr, hgrant, hissued⟩ hrej

/-- The refresh of a login was revalidated. -/
theorem refresh_revalidated_sample : ∃ c refresh v, Reached sample c ∧
    RefreshPair c 4 refresh_form refresh v ∧
    ∃ rt reply rotated, reply.result rt = .accepted rotated ∧
      [⟨.ext (.get_litellm_user v.sub), .ok true⟩, ⟨.ext (.dex_refresh rt), reply⟩,
        ⟨.get .dexrt v.sub, some ⟨rt⟩⟩].Sublist (traceOf 4 c.log) := by
  obtain ⟨c, refresh, v, hreach, hp⟩ := refresh_run
  obtain ⟨ttl, rt, reply, rotated, past, haccept, hsub, -⟩ :=
    (refresh_revalidated hreach).1 4 refresh_form refresh v hp
  exact ⟨c, refresh, v, hreach, hp, rt, reply, rotated, haccept, List.sublist_of_cons_sublist hsub⟩

end AlitellmAuth
