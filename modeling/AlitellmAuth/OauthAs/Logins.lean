import AlitellmAuth.OauthAs.Hints
import AlitellmAuth.OauthAs.DeviceAuthenticity

/-! # Whom tokens speak for

    The authorization server signs access tokens, for codes, refresh tokens and
    device codes, and login hints. Each of them names a user.

    * `Admitted`: Dex has logged a user in, and LiteLLM has the user.
    * `Vouched`: the server has handed out a token with these claims.
    * `credentials_admitted`: what it hands out is for admitted users.
-/

namespace AlitellmAuth

open Interleave

variable {E : Env} {ok : AsConfig → AsConfig → Prop} {c : AsConfig}

/-! ## Admitted users -/

/-- Dex has answered a callback with an email that reads `sub`, and LiteLLM has
    provisioned the user. -/
def Admitted (c : AsConfig) (sub : String) : Prop :=
  ∃ k state token name groups, c.request k = some (.as_callback state) ∧
    (⟨k, ⟨.ext (.authorize_access_token state), some token⟩⟩ : AsEntry) ∈ c.log ∧
    normalized_email token.userinfo = sub ∧
    (⟨k, ⟨.ext (.ensure_team_and_user sub name groups), .ok ()⟩⟩ : AsEntry) ∈ c.log

/-- What a thread has taken was written before that. -/
theorem taken_put (h : Reach (handler E) ok c) {past : AsLog} (hpast : past <:+ c.log) {i : Nat}
    {k : Kind} {key : String} {v : k.Rec}
    (hmem : (⟨.pop k key, some v⟩ : AsEvent) ∈ traceOf i past) :
    ∃ j ttl past', (⟨j, ⟨.put k key v ttl, ()⟩⟩ : AsEntry) :: past' <:+ past := by
  obtain ⟨past', hp⟩ := exists_suffix_of_mem (mem_traceOf.mp hmem)
  obtain ⟨j, ttl, past'', hput⟩ := popped_put h (hp.trans hpast)
  exact ⟨j, ttl, past'', (hput.trans (List.suffix_cons _ _)).trans hp⟩

/-- A thread that continues a code flow does so for an admitted user, given that
    the chain records of the past are those of admitted users. -/
theorem entered_admitted (h : Reach (handler E) ok c) {i : Nat} {r : Request} {sub : String}
    {request : AuthRequest} {base : AsTrace} {past : AsLog} (hr : c.request i = some r)
    (hb : Entered request sub r base) (hbase : base <:+ traceOf i past) (hpast : past <:+ c.log)
    (hchains : ∀ j key v ttl past', (⟨j, ⟨.put .chain key v ttl, ()⟩⟩ : AsEntry) :: past' <:+ past →
      Admitted c v.sub) : Admitted c sub := by
  have hmem : ∀ e ∈ base, (⟨i, e⟩ : AsEntry) ∈ c.log :=
    fun e he => hpast.subset (mem_traceOf.mp (hbase.subset he))
  cases hb with
  | @login state token d ttl name groups hsub =>
    exact ⟨i, state, token, name, groups, hr, hmem _ (by simp), hsub, hmem _ (by simp)⟩
  | @broker state chain hrequest hsub =>
    obtain ⟨j, ttl, past', hput⟩ := taken_put h hpast (hbase.subset List.mem_cons_self)
    exact hsub ▸ hchains _ _ _ _ _ hput

/-- Every chain record is one of an admitted user, by induction on the log
    before it. -/
theorem chain_admitted (h : Reach (handler E) ok c) (n : Nat) {past : AsLog}
    (hn : past.length < n) {i : Nat} {key : String} {v : Chain} {ttl : Option Nat}
    (hs : (⟨i, ⟨.put .chain key v ttl, ()⟩⟩ : AsEntry) :: past <:+ c.log) : Admitted c v.sub := by
  induction n generalizing past i key v ttl with
  | zero => cases hn
  | succ n ih =>
    obtain ⟨r, hr, seg, base, htr, -, hb⟩ := performed h hs
    refine entered_admitted h hr hb ⟨_ :: _ :: seg, htr.symm⟩ ((List.suffix_cons _ _).trans hs) ?_
    intro j key' v' ttl' past' hs'
    have hlen := hs'.length_le
    simp only [List.length_cons] at hlen
    exact ih (by omega) ((hs'.trans (List.suffix_cons _ _)).trans hs)

theorem code_admitted (h : Reach (handler E) ok c) {past : AsLog} {i : Nat} {key : String}
    {v : Code} {ttl : Option Nat}
    (hs : (⟨i, ⟨.put .code key v ttl, ()⟩⟩ : AsEntry) :: past <:+ c.log) : Admitted c v.sub := by
  obtain ⟨r, hr, reads, seg, base, kept, htr, -, hb, -⟩ := performed h hs
  refine entered_admitted h hr hb ⟨⟨.draw (.urlsafe 32), key⟩ :: (reads ++ seg), by simp [htr]⟩
    ((List.suffix_cons _ _).trans hs) ?_
  intro j key' v' ttl' past' hs'
  exact chain_admitted h _ (Nat.lt_succ_self _) ((hs'.trans (List.suffix_cons _ _)).trans hs)

/-- A device record with a user is one of an admitted user. -/
theorem device_admitted (h : Reach (handler E) ok c) {past : AsLog} {i : Nat} {d sub : String}
    {v : Device} {ttl : Option Nat}
    (hs : (⟨i, ⟨.put .device d v ttl, ()⟩⟩ : AsEntry) :: past <:+ c.log) (hsub : v.sub = some sub) :
    Admitted c sub := by
  obtain ⟨state, -, name, groups, ⟨hr, -, token, htoken, hemail⟩, huser⟩ := login_of_put h hs hsub
  exact ⟨i, state, token, name, groups, hr, htoken, hemail, huser⟩

/-! ## Token pairs -/

/-- Every refresh token was issued to an admitted user, by induction on the log
    before it: a rotation takes over the user of the token it consumes. -/
theorem refresh_admitted (h : Reach (handler E) ok c) (n : Nat) {past : AsLog}
    (hn : past.length < n) {i : Nat} {key : String} {v : Refresh} {ttl : Option Nat}
    (hs : (⟨i, ⟨.put .refresh key v ttl, ()⟩⟩ : AsEntry) :: past <:+ c.log) : Admitted c v.sub := by
  induction n generalizing past i key v ttl with
  | zero => cases hn
  | succ n ih =>
    have hpast := (List.suffix_cons _ _).trans hs
    obtain ⟨r, hr, form, before, rfl, -, ⟨jti, now, htr⟩, hsource⟩ := performed h hs
    have hbefore : ∀ e ∈ before, e ∈ traceOf i past := by
      intro e he
      rw [htr]
      simp [he]
    cases hsource with
    | @code rec hgrant hredeems hsub hscope =>
      obtain ⟨j, ttl', past', hput⟩ :=
        taken_put h hpast (hbefore ⟨.pop .code form.code, some rec⟩ (by simp))
      exact hsub ▸ code_admitted h (hput.trans hpast)
    | @refresh consumed u kept seg tail hgrant hclient hsub hscope hkept hhonoured =>
      -- the token that is consumed was written before, so the induction reaches it
      obtain ⟨j, ttl', past', hput⟩ :=
        taken_put h hpast (hbefore ⟨.pop .refresh form.refresh_token, some consumed⟩ (by simp))
      have hlen := hput.length_le
      simp only [List.length_cons] at hlen
      exact hsub ▸ ih (by omega) (hput.trans hpast)
    | @device rec taken hgrant hclient hstatus hsub hscope =>
      obtain ⟨j, ttl', past', hput⟩ :=
        taken_put h hpast (hbefore ⟨.pop .device form.device_code, some taken⟩ (by simp))
      exact device_admitted h (hput.trans hpast) hsub

/-! ## Login hints -/

/-- A hint is for the user of the chain record it goes out with. -/
def HintFor (tr : AsTrace) (res : Response) : Prop :=
  ∀ broker scope state challenge client_id hint,
    res = .broker_redirect broker scope state challenge client_id hint →
    ∃ v ttl, (⟨.put .chain state v ttl, ()⟩ : AsEvent) ∈ tr ∧ hint.sub = v.sub

/-- Whatever the program has done before, its hints are for the right user. -/
def Hints (p : P Response) : Prop := ∀ tr, p.Along (fun _ _ => True) HintFor tr

theorem Elsewhere.hints {p : P Response} (h : Elsewhere p) : Hints p := fun tr =>
  along_mono (fun _ _ h => h) (fun _ _ h _ _ _ _ _ _ heq => absurd heq (h _ _ _ _ _ _)) (h tr)

theorem Hints.bind {α : Type} {p : P α} {f : α → P Response} (h : ∀ a, Hints (f a)) :
    Hints (p >>= f) :=
  fun tr => along_bind (along_of_forall (fun _ _ => trivial) p tr) fun tr' a _ => h a tr'

theorem Hints.ite {cond : Prop} [Decidable cond] {p q : P Response} (hp : Hints p) (hq : Hints q) :
    Hints (if cond then p else q) :=
  fun tr => along_ite (fun _ => hp tr) fun _ => hq tr

theorem hints_ret {res : Response} (h : ∀ broker scope state challenge client_id hint,
    res ≠ .broker_redirect broker scope state challenge client_id hint) : Hints (.ret res) :=
  Elsewhere.hints fun _ => h

theorem hints_crashed : Hints (.ret .internal_error) := by
  apply hints_ret
  intro broker scope state challenge client_id hint heq
  cases heq

theorem finish_hints (request : AuthRequest) (sub : String) : Hints (finish E request sub) :=
  .bind fun _ => .bind fun _ => .bind fun _ => hints_ret nofun

theorem chain_next_hints (request : AuthRequest) (sub : String) (todo : List String) :
    Hints (chain_next E request sub todo) := by
  induction todo with
  | nil => exact finish_hints request sub
  | cons scope rest ih =>
    rw [chain_next]
    split
    · exact hints_crashed
    · refine .bind fun result => ?_
      cases result with
      | failed => exact ih
      | crashed => exact hints_crashed
      | ok client_id =>
        intro tr
        refine along_await fun verifier => ⟨trivial, ?_⟩
        refine along_await fun chain_id => ⟨trivial, ?_⟩
        refine along_await fun _ => ⟨trivial, ?_⟩
        refine along_await fun now => ⟨trivial, along_await fun jti => ⟨trivial, ?_⟩⟩
        dsimp only
        split
        · exact hints_crashed _
        · intro broker store state challenge client_id' hint heq
          cases heq
          exact ⟨_, _, List.mem_cons_of_mem _ (List.mem_cons_of_mem _ List.mem_cons_self), rfl⟩

theorem continue_login_hints (pending : Pending) (email : String) :
    Hints (continue_login E pending email) := by
  cases pending with
  | client request => exact .bind fun todo => chain_next_hints request email todo
  | device device_code scopes =>
    refine .bind fun settled => ?_
    cases settled with
    | none => exact hints_ret nofun
    | some rec => exact hints_ret nofun

theorem as_callback_hints (state : String) : Hints (as_callback E state) := by
  refine .bind fun pending => ?_
  cases pending with
  | none => exact hints_ret nofun
  | some pending =>
    refine .bind fun token => ?_
    cases token with
    | none => exact .bind fun _ => hints_ret nofun
    | some token =>
      -- the text of the email must not be computed
      dsimp only
      generalize normalized_email token.userinfo = email
      refine .ite (hints_ret nofun) (.ite (hints_ret nofun) (.bind fun _ => .bind fun reply => ?_))
      cases reply with
      | status_error code => exact hints_ret nofun
      | transport_error => exact hints_ret nofun
      | crashed => exact hints_crashed
      | ok _ => exact continue_login_hints pending email

theorem broker_callback_hints (state : String) : Hints (broker_callback E state) := by
  refine .bind fun popped => ?_
  cases popped with
  | none => exact hints_ret nofun
  | some chain => exact chain_next_hints _ _ _

theorem handler_hint_for (r : Request) : Hints (handler E r) := by
  cases r with
  | register body => exact (register_elsewhere body).hints
  | authorize q => exact (authorize_elsewhere q).hints
  | as_callback state => exact as_callback_hints state
  | broker_callback state => exact broker_callback_hints state
  | device_authorization client_id => exact (device_authorization_elsewhere client_id).hints
  | device_confirm origin referer typed => exact (device_confirm_elsewhere origin referer typed).hints
  | token form => exact (token_elsewhere form).hints
  | front_key presented body => exact (front_key_elsewhere presented body).hints
  | user_key email => exact (user_key_elsewhere email).hints
  | opencode_config sub => exact (opencode_config_elsewhere sub).hints

/-! ## Everything that is handed out -/

/-- The server has handed out a token with these claims. -/
inductive Vouched (c : AsConfig) (claims : Claims) : Prop where
  | access {t : Nat} {refresh scope : String} {expires_in : Nat}
      (h : c.response t = some (.tokens claims refresh scope expires_in))
  | hint {t : Nat} {broker scope state challenge : String} {client_id : BrokerValue}
      (h : c.response t = some (.broker_redirect broker scope state challenge client_id claims))

theorem issued_admitted (h : Reach (handler E) ok c) {i : Nat} {refresh : String} {v : Refresh}
    (hi : Issued c i refresh v) : Admitted c v.sub := by
  obtain ⟨ttl, hmem⟩ := hi
  obtain ⟨past, hs⟩ := exists_suffix_of_mem hmem
  exact refresh_admitted h _ (Nat.lt_succ_self _) hs

theorem vouched_admitted (h : Reach (handler E) ok c) {claims : Claims} (hv : Vouched c claims) :
    Admitted c claims.sub := by
  cases hv with
  | access hresponse =>
    obtain ⟨v, hissued, hsub, -⟩ := tokens_issued h hresponse
    exact hsub ▸ issued_admitted h hissued
  | @hint t broker scope state challenge client_id hresponse =>
    unfold Config.response at hresponse
    split at hresponse
    · next r a hth =>
      cases hresponse
      obtain ⟨v, ttl, hmem, hsub⟩ :=
        (reach_contracted (fun r => handler_hint_for r []) h).2 t _ hth _ _ _ _ _ _ rfl
      obtain ⟨past, hs⟩ := exists_suffix_of_mem (mem_traceOf.mp hmem)
      exact hsub ▸ chain_admitted h _ (Nat.lt_succ_self _) hs
    · cases hresponse

/-- In every run, whatever the server hands out is for a user whom Dex has
    logged in and LiteLLM has provisioned: access tokens and login hints,
    refresh tokens after any number of rotations, and codes. -/
theorem credentials_admitted (h : Reached E c) :
    (∀ claims, Vouched c claims → Admitted c claims.sub) ∧
    (∀ i refresh v, Issued c i refresh v → Admitted c v.sub) ∧
    ∀ i key v ttl, (⟨i, ⟨.put .code key v ttl, ()⟩⟩ : AsEntry) ∈ c.log → Admitted c v.sub := by
  refine ⟨fun claims hv => vouched_admitted h hv, fun i refresh v hi => issued_admitted h hi, ?_⟩
  intro i key v ttl hmem
  obtain ⟨past, hs⟩ := exists_suffix_of_mem hmem
  exact code_admitted h hs

/-- The access token of a login names the user who has logged in. -/
theorem credentials_admitted_login : ∃ c access refresh scope expires_in, Reached sample c ∧
    c.response 3 = some (.tokens access refresh scope expires_in) ∧ Admitted c access.sub := by
  obtain ⟨c, hreach, hpair, -⟩ := login_run
  obtain ⟨-, access, refresh, scope, n, hresponse⟩ := got_pair_spec hpair
  exact ⟨c, access, refresh, scope, n, hreach, hresponse,
    (credentials_admitted hreach).1 access (.access hresponse)⟩

end AlitellmAuth
