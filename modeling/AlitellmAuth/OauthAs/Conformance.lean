import AlitellmAuth.OauthAs.Contract

/-! # The handlers keep their contract

    Every handler, run alone, performs only what `Performs` allows and answers
    only what `Answers` allows. The proofs follow the handlers: one lemma for
    each sub-program, then one for each endpoint, then `handler_performs`.
-/

namespace AlitellmAuth

open Interleave Text

variable {E : Env} {r : Request} {tr : AsTrace}

-- no proof here computes with the case tables
attribute [local irreducible] Text.lower Text.upper Text.strip Text.split

/-! ## Segments -/

theorem Quiet.append {seg seg' : AsTrace} (h : Quiet seg) (h' : Quiet seg') :
    Quiet (seg ++ seg') := by
  intro e he
  rcases List.mem_append.mp he with he | he
  · exact h e he
  · exact h' e he

theorem ReadsOf.quiet {sub : String} {seg : AsTrace} (h : ReadsOf sub seg) : Quiet seg := by
  intro e he
  obtain ⟨store, value, rfl⟩ := h e he
  trivial

/-- A grant lookup reads one projection, and answers `true` only on its word. -/
theorem granted_along (email scope : String) :
    (granted E email scope).Along (Performs E r)
      (After tr fun seg g => ReadsOf email seg ∧ (g = true → GrantedIn E email scope seg)) tr := by
  unfold granted
  split
  · exact ⟨[], rfl, by simp [ReadsOf], by simp⟩
  · next svc hsvc =>
    refine along_await fun value => ⟨trivial, ⟨[_], rfl, by simp [ReadsOf], ?_⟩⟩
    intro hg
    exact ⟨svc, value, hsvc, List.mem_cons_self, hg⟩

theorem keeps_along (email s : String) :
    (keeps E email E.as_audience s).Along (Performs E r)
      (After tr fun seg g => ReadsOf email seg ∧
        (g = true → s ≠ E.as_audience ∧ GrantedIn E email s seg)) tr := by
  unfold keeps
  split
  · next hs =>
    refine along_mono (fun _ _ h => h) ?_ (granted_along email s)
    rintro _ g ⟨seg, rfl, hq, hg⟩
    exact ⟨seg, rfl, hq, fun h => ⟨by simpa using hs, hg h⟩⟩
  · exact ⟨[], rfl, by simp [ReadsOf], by simp⟩

theorem GrantedIn.mono {sub s : String} {seg seg' : AsTrace} (h : GrantedIn E sub s seg)
    (hs : ∀ e ∈ seg, e ∈ seg') : GrantedIn E sub s seg' := by
  obtain ⟨svc, value, hsvc, hmem, hg⟩ := h
  exact ⟨svc, value, hsvc, hs _ hmem, hg⟩

/-- The scopes kept of a longer list. -/
theorem KeptIn.cons {email s : String} {rest out : List String} {seg seg' : AsTrace} {keep : Bool}
    (hreads : ReadsOf email seg)
    (hkeep : keep = true → s ≠ E.as_audience ∧ GrantedIn E email s seg)
    (hout : KeptIn E email rest out seg') :
    KeptIn E email (s :: rest) (if keep then s :: out else out) (seg' ++ seg) := by
  have hcase : ∀ x ∈ (if keep then s :: out else out), (keep = true ∧ x = s) ∨ x ∈ out := by
    intro x hx
    cases keep with
    | true => simpa using hx
    | false => exact .inr hx
  refine ⟨?_, ?_, ?_, ?_⟩
  · intro e he
    rcases List.mem_append.mp he with he | he
    · exact hout.reads e he
    · exact hreads e he
  · intro x hx
    rcases hcase x hx with ⟨-, rfl⟩ | hx
    · exact List.mem_cons_self
    · exact List.mem_cons_of_mem _ (hout.requested x hx)
  · intro x hx
    rcases hcase x hx with ⟨hk, rfl⟩ | hx
    · exact (hkeep hk).1
    · exact hout.no_audience x hx
  · intro x hx
    rcases hcase x hx with ⟨hk, rfl⟩ | hx
    · exact (hkeep hk).2.mono fun e he => List.mem_append_right _ he
    · exact (hout.granted x hx).mono fun e he => List.mem_append_left _ he

theorem granted_among_along (email : String) (requested : List String) (tr : AsTrace) :
    (granted_among E email E.as_audience requested).Along (Performs E r)
      (After tr fun seg kept => KeptIn E email requested kept seg) tr := by
  induction requested generalizing tr with
  | nil => exact ⟨[], rfl, by constructor <;> simp [ReadsOf]⟩
  | cons s rest ih =>
    rw [granted_among]
    refine along_bind (keeps_along email s) ?_
    rintro _ keep ⟨seg, rfl, hreads, hkeep⟩
    refine along_bind (ih (seg ++ tr)) ?_
    rintro _ out ⟨seg', rfl, hout⟩
    exact ⟨seg' ++ seg, by simp, .cons hreads hkeep hout⟩

/-- `Grants.scopes_for` answers the audience and the granted among the
    requested scopes. -/
theorem scopes_for_along (email : String) (requested : List String) (tr : AsTrace) :
    (scopes_for E email requested E.as_audience).Along (Performs E r)
      (After tr fun seg scopes => ∃ kept, scopes = E.as_audience :: kept ∧
        KeptIn E email requested kept seg) tr := by
  refine along_bind (granted_among_along email requested tr) ?_
  rintro _ kept ⟨seg, rfl, hkept⟩
  exact ⟨seg, rfl, kept, rfl, hkept⟩

theorem lacks_along (email s : String) :
    (lacks E email s).Along (Performs E r) (After tr fun seg _ => Quiet seg) tr := by
  unfold lacks
  split
  · refine along_bind (granted_along email s) ?_
    rintro _ g ⟨seg, rfl, hreads, -⟩
    exact ⟨seg, rfl, hreads.quiet⟩
  · exact ⟨[], rfl, by simp [Quiet]⟩

theorem ungranted_along (email : String) (scopes : List String) (tr : AsTrace) :
    (ungranted E email scopes).Along (Performs E r) (After tr fun seg _ => Quiet seg) tr := by
  induction scopes generalizing tr with
  | nil => exact ⟨[], rfl, by simp [Quiet]⟩
  | cons s rest ih =>
    rw [ungranted]
    refine along_bind (lacks_along email s) ?_
    rintro _ missing ⟨seg, rfl, hq⟩
    refine along_bind (ih (seg ++ tr)) ?_
    rintro _ out ⟨seg', rfl, hq'⟩
    exact ⟨seg' ++ seg, by simp, hq'.append hq⟩

theorem broker_client_id_along (broker : String) :
    (broker_client_id broker).Along (Performs E r) (After tr fun seg _ => Quiet seg) tr := by
  refine along_await fun cached => ⟨trivial, ?_⟩
  cases cached with
  | some c => exact ⟨[_], rfl, by simp [Quiet, Aside]⟩
  | none =>
    refine along_await fun reply => ⟨trivial, ?_⟩
    split
    · refine along_await fun _ => ⟨trivial, ⟨[_, _, _], rfl, by simp [Quiet, Aside]⟩⟩
    · exact ⟨[_, _], rfl, by simp [Quiet, Aside]⟩
    · exact ⟨[_, _], rfl, by simp [Quiet, Aside]⟩

/-- The answer of an endpoint other than the token endpoint. -/
theorem answers_plain {res : Response} (hr : ∀ form, r ≠ .token form)
    (hres : ∀ access refresh scope n, res ≠ .tokens access refresh scope n) :
    Answers r tr res :=
  ⟨fun _ _ _ _ h => absurd h (hres _ _ _ _), fun form h => absurd h.1 (hr form)⟩

theorem signer_issue_along (issuer audience sub scope : String) (client_id : Json) (ttl : Nat) :
    (signer_issue issuer audience sub scope client_id ttl).Along (Performs E r)
      (After tr fun seg claims => (∃ jti now, seg = [⟨.draw (.urlsafe 16), jti⟩, ⟨.time, now⟩]) ∧
        claims.sub = sub ∧ claims.scope = scope ∧ claims.client_id = client_id) tr := by
  refine along_await fun now => ⟨trivial, ?_⟩
  refine along_await fun jti => ⟨trivial, ?_⟩
  exact ⟨[_, _], rfl, ⟨jti, now, rfl⟩, rfl, rfl, rfl⟩

/-! ## The code flow -/

section
variable {request : AuthRequest} {sub : String} {base : AsTrace}

theorem Entered.not_token (h : Entered request sub r base) (form : TokenForm) : r ≠ .token form := by
  cases h <;> simp

theorem finish_along (hb : Entered request sub r base) (seg : AsTrace) (hq : Quiet seg) :
    (finish E request sub).Along (Performs E r) (Answers r) (seg ++ base) := by
  refine along_bind (scopes_for_along sub request.scopes _) ?_
  rintro _ scopes ⟨reads, rfl, kept, rfl, hkept⟩
  refine along_await fun code => ⟨trivial, ?_⟩
  refine along_await fun _ => ⟨⟨reads, seg, base, kept, rfl, hq, hb, rfl, hkept⟩, ?_⟩
  exact answers_plain hb.not_token (by simp)

theorem chain_next_along (hb : Entered request sub r base) (todo : List String) (seg : AsTrace)
    (hq : Quiet seg) :
    (chain_next E request sub todo).Along (Performs E r) (Answers r) (seg ++ base) := by
  induction todo generalizing seg with
  | nil => exact finish_along hb seg hq
  | cons scope rest ih =>
    rw [chain_next]
    split
    · exact answers_plain hb.not_token (by simp)
    · next svc _ =>
      refine along_bind (broker_client_id_along svc.broker) ?_
      rintro _ result ⟨seg', rfl, hq'⟩
      rw [← List.append_assoc]
      cases result with
      | failed => exact ih _ (hq'.append hq)
      | crashed => exact answers_plain hb.not_token (by simp)
      | ok client_id =>
        refine along_await fun verifier => ⟨trivial, ?_⟩
        refine along_await fun chain_id => ⟨trivial, ?_⟩
        refine along_await fun _ => ⟨⟨seg' ++ seg, base, rfl, hq'.append hq, hb⟩, ?_⟩
        refine along_bind (signer_issue_along _ _ _ _ _ _) ?_
        rintro _ hint -
        split
        · exact answers_plain hb.not_token (by simp)
        · exact answers_plain hb.not_token (by simp)

end

theorem broker_callback_along (state : String) :
    (broker_callback E state).Along (Performs E (.broker_callback state))
      (Answers (.broker_callback state)) [] := by
  refine along_await fun popped => ⟨⟨rfl, rfl⟩, ?_⟩
  cases popped with
  | none => exact answers_plain (by simp) (by simp)
  | some chain =>
    exact chain_next_along (.broker rfl rfl) _ [] (by simp [Quiet])

theorem register_along (body : Option Json) :
    (register body).Along (Performs E (.register body)) (Answers (.register body)) [] := by
  have hplain : ∀ tr status error description,
      Answers (.register body) tr (.error status error description) :=
    fun _ _ _ _ => answers_plain (by simp) (by simp)
  unfold register
  split
  · split
    · next uris _ =>
      split
      · exact hplain _ _ _ _
      · next huris =>
        split
        · refine along_await fun client_id => ⟨trivial, ?_⟩
          refine along_await fun _ => ⟨.inl ⟨_, rfl, rfl, rfl, by simpa using huris⟩, ?_⟩
          exact answers_plain (by simp) (by simp)
        · exact hplain _ _ _ _
    · exact hplain _ _ _ _
  · exact hplain _ _ _ _

theorem authorize_along (q : AuthorizeQuery) :
    (authorize E q).Along (Performs E (.authorize q)) (Answers (.authorize q)) [] := by
  have hplain : ∀ tr res, (∀ access refresh scope n, res ≠ .tokens access refresh scope n) →
      Answers (.authorize q) tr res := fun _ _ h => answers_plain (by simp) h
  refine along_await fun found => ⟨trivial, ?_⟩
  cases found with
  | none => exact hplain _ _ (by simp)
  | some client =>
    dsimp only
    split
    · exact hplain _ _ (by simp)
    next huri =>
    split
    · exact hplain _ _ (by simp)
    next hscope =>
    split
    · exact hplain _ _ (by simp)
    next hform =>
    refine along_await fun _ => ⟨.inr ⟨q, rfl, rfl, rfl⟩, ?_⟩
    refine along_await fun pending_id => ⟨trivial, ?_⟩
    refine along_await fun _ => ⟨?_, hplain _ _ (by simp [authorize_redirect])⟩
    have hchallenge : isChallenge (q.code_challenge.getD "") = true := by
      simp only [Bool.or_eq_true, Bool.not_eq_true', not_or, Bool.not_eq_false] at hform
      exact hform.2
    refine Starts.client ⟨rfl, rfl, by simpa using huri, rfl, ?_, hchallenge, rfl, ?_⟩
    · cases hq : q.code_challenge with
      | some challenge => rfl
      | none => rw [hq] at hchallenge; exact absurd hchallenge (by decide)
    · intro s hs
      -- a scope that is neither would have been refused before
      by_cases haud : s = E.as_audience
      · exact .inl haud
      · refine .inr ?_
        by_contra hoff
        have hmem : s ∈ (requested_scopes E.toSettings q).filter
            fun s => s != E.as_audience && !E.offers s :=
          List.mem_filter.mpr ⟨hs, by simp [haud, hoff]⟩
        have hempty : (requested_scopes E.toSettings q).filter
            (fun s => s != E.as_audience && !E.offers s) = [] := by simpa using hscope
        rw [hempty] at hmem
        cases hmem

/-! ## Logins and devices -/

theorem Logged.not_token {d : String} {status : DeviceStatus} {sub : Option String}
    {base : AsTrace} (h : Logged d r status sub base) (form : TokenForm) : r ≠ .token form := by
  cases h <;> simp

theorem Logged.status_ne {d : String} {status : DeviceStatus} {sub : Option String}
    {base : AsTrace} (h : Logged d r status sub base) : status ≠ .pending := by
  cases h <;> simp

theorem device_settle_along {d : String} {status : DeviceStatus} {sub : Option String}
    (h : Logged d r status sub tr) :
    (device_settle d status sub).Along (Performs E r) (fun _ _ => True) tr := by
  refine along_await fun found => ⟨.inl ⟨status, sub, h⟩, ?_⟩
  cases found with
  | none => trivial
  | some rec =>
    dsimp only
    split
    · trivial
    · next hpending =>
      refine along_await fun _ => ⟨.settled h (by simpa using hpending), ?_⟩
      exact along_await fun _ => ⟨⟨_, _, _, _, rfl, rfl, h.status_ne⟩, trivial⟩

theorem device_authorization_along (client_id : String) :
    (device_authorization E client_id).Along (Performs E (.device_authorization client_id))
      (Answers (.device_authorization client_id)) [] := by
  refine along_await fun found => ⟨trivial, ?_⟩
  cases found with
  | none => exact answers_plain (by simp) (by simp)
  | some client =>
    refine along_await fun device_code => ⟨trivial, ?_⟩
    refine along_await fun raw => ⟨trivial, ?_⟩
    refine along_await fun _ => ⟨.created, ?_⟩
    exact along_await fun _ => ⟨⟨_, _, _, _, rfl, rfl, rfl⟩, answers_plain (by simp) (by simp)⟩

theorem device_index_along (user_code : String) :
    (device_index user_code).Along (Performs E r) (fun tr' found => ∀ index, found = some index →
      tr' = ⟨.get .device_user user_code, some index⟩ :: tr) tr := by
  by_cases hcode : user_code = ""
  · rw [device_index, if_pos hcode]
    intro index h
    cases h
  · rw [device_index, if_neg hcode]
    intro found
    refine ⟨trivial, ?_⟩
    rintro index rfl
    rfl

theorem device_confirm_along (origin referer : Option String) (typed : String) :
    (device_confirm E origin referer typed).Along
      (Performs E (.device_confirm origin referer typed))
      (Answers (.device_confirm origin referer typed)) [] := by
  have hplain : ∀ tr res, (∀ access refresh scope n, res ≠ .tokens access refresh scope n) →
      Answers (.device_confirm origin referer typed) tr res :=
    fun _ _ h => answers_plain (by simp) h
  unfold device_confirm
  split
  · exact hplain _ _ (by simp)
  · exact hplain _ _ (by simp)
  next horigin =>
  refine along_bind (device_index_along _) fun tr' found htr => ?_
  cases found with
  | none => exact hplain _ _ (by simp)
  | some index =>
    rw [htr index rfl]
    refine along_await fun pending_id => ⟨trivial, ?_⟩
    refine along_await fun _ => ⟨.device horigin, ?_⟩
    exact hplain _ _ (by simp [authorize_redirect])

theorem pop_pending_along (state : String) :
    (pop_pending state).Along (Performs E (.as_callback state)) (fun tr' popped =>
      ∀ pending, popped = some pending → tr' = [⟨.pop .pending state, some pending⟩]) [] := by
  by_cases hstate : state = ""
  · rw [pop_pending, if_pos hstate]
    intro pending h
    cases h
  · rw [pop_pending, if_neg hstate]
    intro popped
    refine ⟨⟨rfl, rfl⟩, ?_⟩
    rintro pending rfl
    rfl

theorem as_callback_along (state : String) :
    (as_callback E state).Along (Performs E (.as_callback state))
      (Answers (.as_callback state)) [] := by
  have hplain : ∀ tr res, (∀ access refresh scope n, res ≠ .tokens access refresh scope n) →
      Answers (.as_callback state) tr res := fun _ _ h => answers_plain (by simp) h
  refine along_bind (pop_pending_along state) fun tr' popped htr => ?_
  cases popped with
  | none => exact hplain _ _ (by simp)
  | some pending =>
    rw [htr pending rfl]
    refine along_await fun answer => ⟨⟨rfl, pending, rfl⟩, ?_⟩
    cases answer with
    | none =>
      -- a failed login settles the device code it was for
      have hdeny : (deny pending).Along (Performs E (.as_callback state)) (fun _ _ => True)
          [⟨.ext (.authorize_access_token state), none⟩,
            ⟨.pop .pending state, some pending⟩] := by
        cases pending with
        | client request => trivial
        | device d scopes => exact device_settle_along .denied
      exact along_bind hdeny fun _ _ _ => hplain _ _ (by simp)
    | some token =>
      dsimp only
      by_cases hemail : normalized_email token.userinfo = ""
      · rw [if_pos hemail]
        exact hplain _ _ (by simp)
      rw [if_neg hemail]
      by_cases hrt : token.refresh_token.getD "" = ""
      · rw [if_pos hrt]
        exact hplain _ _ (by simp)
      rw [if_neg hrt]
      have hsome : token.refresh_token = some (token.refresh_token.getD "") := by
        cases ht : token.refresh_token with
        | some rt => rfl
        | none => rw [ht] at hrt; exact absurd rfl hrt
      refine along_await fun _ => ⟨.inl ⟨state, pending, token, rfl, rfl, rfl, hemail, hsome, hrt⟩, ?_⟩
      refine along_await fun reply => ⟨⟨state, _, _, _, rfl, rfl⟩, ?_⟩
      cases reply with
      | status_error code => exact hplain _ _ (by simp)
      | transport_error => exact hplain _ _ (by simp)
      | crashed => exact hplain _ _ (by simp)
      | ok u =>
        cases pending with
        | device d scopes =>
          refine along_bind (device_settle_along (.approved rfl)) fun _ settled _ => ?_
          cases settled <;> exact hplain _ _ (by simp)
        | client request =>
          refine along_bind (ungranted_along _ _ _) ?_
          rintro _ todo ⟨seg, rfl, hq⟩
          exact chain_next_along (.login rfl) todo seg hq

/-! ## The revalidation at Dex -/

section
variable {form : TokenForm} {u : String} {n : Nat} {d : DexRt} {reply : DexReply}

/-- Everything a request has done when it is about to replay a token. -/
theorem Holding.mem (h : Holding form u n d tr) {e : AsEvent} (he : e ∈ tr) :
    (∃ d', e = ⟨.get .dexrt u, some d'⟩) ∨
    (∃ rt reply, e = ⟨.ext (.dex_refresh rt), reply⟩ ∧ reply.result rt = .refused) ∨
    ∃ rec, e = ⟨.get .refresh form.refresh_token, some rec⟩ ∧ rec.client_id = form.client_id ∧
      rec.sub = u := by
  induction h with
  | first hclient hsub =>
    simp only [List.mem_cons, List.not_mem_nil, or_false] at he
    rcases he with rfl | rfl
    · exact .inl ⟨_, rfl⟩
    · exact .inr (.inr ⟨_, rfl, hclient, hsub⟩)
  | again _ hreply _ ih =>
    simp only [List.mem_cons] at he
    rcases he with rfl | rfl | he
    · exact .inl ⟨_, rfl⟩
    · exact .inr (.inl ⟨_, _, rfl, hreply⟩)
    · exact ih he

/-- Dex has answered, and not with a refusal: nothing is rejected yet. -/
theorem Replayed.not_rejected (h : Replayed form u n d reply tr)
    (hreply : reply.result d.rt ≠ .refused) (later : AsTrace)
    (hlater : ∀ e ∈ later, (∀ u, e ≠ ⟨.get .dexrt u, none⟩) ∧
      ∀ u, e ≠ ⟨.ext (.get_litellm_user u), .ok false⟩) : ¬ Rejected (later ++ tr) := by
  obtain ⟨tr₀, rfl, hold⟩ := h
  rintro (⟨-, hall⟩ | ⟨v, hmem⟩ | ⟨v, hmem⟩)
  · exact hreply (hall d.rt reply (by simp))
  · rcases List.mem_append.mp hmem with hmem | hmem
    · exact (hlater _ hmem).1 v rfl
    · rcases List.mem_cons.mp hmem with heq | hmem
      · cases heq
      · rcases hold.mem hmem with ⟨_, heq⟩ | ⟨_, _, heq, -⟩ | ⟨_, heq, -⟩ <;> cases heq
  · rcases List.mem_append.mp hmem with hmem | hmem
    · exact (hlater _ hmem).2 v rfl
    · rcases List.mem_cons.mp hmem with heq | hmem
      · cases heq
      · rcases hold.mem hmem with ⟨_, heq⟩ | ⟨_, _, heq, -⟩ | ⟨_, heq, -⟩ <;> cases heq

/-- How a revalidation ends, and what its trace is then. -/
def Revalidates (form : TokenForm) (u : String) (tr : AsTrace) : Revalidation → Prop
  | .honoured _ => Honoured form u tr
  | .refused => Refused form u tr
  | .unreachable | .crashed =>
      ∃ n d reply, Replayed form u n d reply tr ∧ reply.result d.rt ≠ .refused

theorem revalidate_loop_along (hr : IsGrant "refresh_token" form r) (h : Holding form u n d tr) :
    (revalidate_loop E u (n + 1) (some d)).Along (Performs E r) (Revalidates form u) tr := by
  -- on the replays that are left; after the last one a refusal gives up
  induction n generalizing d tr with
  | zero =>
    refine along_await fun reply => ⟨⟨form, u, 0, d, hr, rfl, h⟩, ?_⟩
    have hrep : Replayed form u 0 d reply (⟨.ext (.dex_refresh d.rt), reply⟩ :: tr) := ⟨tr, rfl, h⟩
    split
    · next hres =>
      refine along_await fun current => ⟨⟨form, hr, .inr ⟨0, d, reply, hrep, hres⟩⟩, ?_⟩
      have hre : Reread form u 0 d current _ := ⟨reply, _, rfl, hrep, hres⟩
      have hpop : ∀ popped, Performs E r _ ⟨.pop .dexrt u, popped⟩ :=
        fun _ => ⟨form, 0, d, current, hr, hre, .inr (.inr rfl)⟩
      cases current with
      | none => exact along_await fun popped => ⟨hpop popped, .given_up hre⟩
      | some current' =>
        dsimp only
        split
        · exact along_await fun popped => ⟨hpop popped, .given_up hre⟩
        · exact along_await fun popped => ⟨hpop popped, .given_up hre⟩
    · next hres => exact ⟨0, d, reply, hrep, by simp [hres]⟩
    · next hres => exact ⟨0, d, reply, hrep, by simp [hres]⟩
    · next rotated hres =>
      refine along_await fun _ => ⟨.inr ⟨form, 0, d, reply, hr, hrep, hres⟩, ?_⟩
      exact ⟨0, d, reply, rotated, _, _, rfl, hrep, hres⟩
  | succ n ih =>
    refine along_await fun reply => ⟨⟨form, u, n + 1, d, hr, rfl, h⟩, ?_⟩
    have hrep : Replayed form u (n + 1) d reply (⟨.ext (.dex_refresh d.rt), reply⟩ :: tr) :=
      ⟨tr, rfl, h⟩
    split
    · next hres =>
      refine along_await fun current => ⟨⟨form, hr, .inr ⟨n + 1, d, reply, hrep, hres⟩⟩, ?_⟩
      have hre : Reread form u (n + 1) d current _ := ⟨reply, _, rfl, hrep, hres⟩
      cases current with
      | none =>
        exact along_await fun popped =>
          ⟨⟨form, n + 1, d, none, hr, hre, .inr (.inl rfl)⟩, .given_up hre⟩
      | some current' =>
        dsimp only
        split
        · next hne => exact ih (.again h hres hne)
        · next heq =>
          -- the record has not moved, so there is nothing newer to replay
          have hsame : current' = d := by
            cases current'; cases d
            simpa using heq
          subst hsame
          exact along_await fun popped =>
            ⟨⟨form, n + 1, current', some current', hr, hre, .inl rfl⟩, .given_up hre⟩
    · next hres => exact ⟨n + 1, d, reply, hrep, by simp [hres]⟩
    · next hres => exact ⟨n + 1, d, reply, hrep, by simp [hres]⟩
    · next rotated hres =>
      refine along_await fun _ => ⟨.inr ⟨form, n + 1, d, reply, hr, hrep, hres⟩, ?_⟩
      exact ⟨n + 1, d, reply, rotated, _, _, rfl, hrep, hres⟩

theorem revalidate_at_dex_along (hr : IsGrant "refresh_token" form r) {rec : Refresh}
    (hclient : rec.client_id = form.client_id) :
    (revalidate_at_dex E rec.sub).Along (Performs E r) (Revalidates form rec.sub)
      [⟨.get .refresh form.refresh_token, some rec⟩] := by
  refine along_await fun found => ⟨⟨form, hr, .inl ⟨rec, rfl, hclient, rfl⟩⟩, ?_⟩
  cases found with
  | none => exact .missing hclient rfl
  | some d => exact revalidate_loop_along hr (.first hclient rfl)

end

/-! ## The token endpoint -/

section
variable {form : TokenForm}

theorem Source.consumed {v : Refresh} {past : AsTrace} (h : Source E form v past)
    (hgrant : form.grant_type = some "refresh_token") :
    ∃ a, (⟨.pop .refresh form.refresh_token, a⟩ : AsEvent) ∈ past := by
  cases h with
  | code hg => rw [hgrant] at hg; exact absurd hg (by decide)
  | refresh => exact ⟨_, List.mem_append_right _ List.mem_cons_self⟩
  | device hg => rw [hgrant] at hg; exact absurd hg (by decide)

theorem issue_along {sub scope : String} {past : AsTrace}
    (h : Source E form ⟨sub, form.client_id, scope⟩ past) :
    (issue E sub form.client_id scope).Along (Performs E (.token form)) (Answers (.token form))
      past := by
  refine along_bind (signer_issue_along _ _ _ _ _ _) ?_
  rintro _ access ⟨_, rfl, ⟨jti, now, rfl⟩, hsub, hscope, hclient⟩
  refine along_await fun refresh => ⟨trivial, ?_⟩
  refine along_await fun _ => ⟨⟨form, past, rfl, rfl, ⟨jti, now, rfl⟩, h⟩, ?_, ?_⟩
  · rintro access' refresh' scope' expires_in heq
    cases heq
    exact ⟨_, _, _, rfl, hsub, hclient, hscope, rfl⟩
  · rintro form' ⟨hform, hgrant⟩ -
    cases hform
    obtain ⟨a, ha⟩ := h.consumed hgrant
    exact ⟨a, by simp [ha]⟩

/-- A refusal of the token endpoint that need not consume anything. -/
theorem answers_error {res : Response}
    (hres : ∀ access refresh scope n, res ≠ .tokens access refresh scope n)
    (hrej : form.grant_type = some "refresh_token" → ¬ Rejected tr) :
    Answers (.token form) tr res := by
  refine ⟨fun _ _ _ _ h => absurd h (hres _ _ _ _), ?_⟩
  rintro form' ⟨hform, hgrant⟩ h
  cases hform
  exact absurd h (hrej hgrant)

/-- A refusal of the token endpoint that has consumed the refresh token. -/
theorem answers_consumed {res : Response} {a : Option Refresh}
    (hres : ∀ access refresh scope n, res ≠ .tokens access refresh scope n)
    (hmem : (⟨.pop .refresh form.refresh_token, a⟩ : AsEvent) ∈ tr) :
    Answers (.token form) tr res := by
  refine ⟨fun _ _ _ _ h => absurd h (hres _ _ _ _), ?_⟩
  rintro form' ⟨hform, -⟩ -
  cases hform
  exact ⟨a, hmem⟩

theorem token_code_along (hgrant : form.grant_type = some "authorization_code") :
    (token_code E form).Along (Performs E (.token form)) (Answers (.token form)) [] := by
  have herr : ∀ tr res, (∀ access refresh scope n, res ≠ .tokens access refresh scope n) →
      Answers (.token form) tr res := fun _ _ h =>
    answers_error h fun hg => by rw [hg] at hgrant; exact absurd hgrant (by decide)
  refine along_await fun popped => ⟨⟨form, ⟨rfl, hgrant⟩, rfl, rfl⟩, ?_⟩
  cases popped with
  | none => exact herr _ _ (by simp)
  | some rec =>
    dsimp only
    split
    · exact herr _ _ (by simp)
    · next hok =>
      simp only [Bool.or_eq_true, decide_eq_true_eq, Bool.not_eq_true', not_or,
        Bool.not_eq_false, ne_eq, not_not] at hok
      obtain ⟨⟨hclient, huri⟩, hpkce⟩ := hok
      exact issue_along (.code hgrant ⟨hclient, huri, hpkce⟩ rfl rfl)

theorem token_device_along (hgrant : form.grant_type = some DEVICE_GRANT) :
    (token_device E form).Along (Performs E (.token form)) (Answers (.token form)) [] := by
  have herr : ∀ tr res, (∀ access refresh scope n, res ≠ .tokens access refresh scope n) →
      Answers (.token form) tr res := fun _ _ h =>
    answers_error h fun hg => by rw [hg] at hgrant; exact absurd hgrant (by decide)
  refine along_await fun found => ⟨.inr ⟨form, ⟨rfl, hgrant⟩, rfl, rfl⟩, ?_⟩
  cases found with
  | none => exact herr _ _ (by simp)
  | some rec =>
    dsimp only
    split
    · exact herr _ _ (by simp)
    next hclient =>
    replace hclient : rec.client_id = form.client_id := by simpa using hclient
    -- only a settled record is popped
    have hpop : ∀ popped, rec.status ≠ .pending → Performs E (.token form)
        [⟨.get .device form.device_code, some rec⟩] ⟨.pop .device form.device_code, popped⟩ :=
      fun _ hs => ⟨form, rec, ⟨rfl, hgrant⟩, rfl, rfl, hclient, hs⟩
    split
    · exact herr _ _ (by simp)
    · next hstatus =>
      exact along_await fun popped => ⟨hpop popped (by simp [hstatus]), herr _ _ (by simp)⟩
    · next hstatus =>
      refine along_await fun popped => ⟨hpop popped (by simp [hstatus]), ?_⟩
      cases popped with
      | none => exact herr _ _ (by simp)
      | some taken =>
        dsimp only
        split
        · next sub hsub => exact issue_along (.device hgrant hclient hstatus hsub rfl)
        · exact herr _ _ (by simp)

theorem rotate_along (hgrant : form.grant_type = some "refresh_token") {u : String} {alive : Bool}
    (h : Honoured form u tr) :
    (rotate E form alive).Along (Performs E (.token form)) (Answers (.token form))
      (⟨.ext (.get_litellm_user u), .ok alive⟩ :: tr) := by
  refine along_await fun popped =>
    ⟨⟨form, u, ⟨rfl, hgrant⟩, rfl, .inr ⟨alive, tr, rfl, h⟩⟩, ?_⟩
  cases popped with
  | none => exact answers_consumed (by simp) List.mem_cons_self
  | some consumed =>
    dsimp only
    split
    · exact answers_consumed (by simp) List.mem_cons_self
    next hclient =>
    split
    · exact answers_consumed (by simp) List.mem_cons_self
    next halive =>
    obtain rfl : alive = true := by simpa using halive
    refine along_bind (scopes_for_along _ _ _) ?_
    rintro _ scopes ⟨seg, rfl, kept, rfl, hkept⟩
    exact issue_along (.refresh hgrant (by simpa using hclient) rfl rfl hkept h)

theorem token_refresh_along (hgrant : form.grant_type = some "refresh_token") :
    (token_refresh E form).Along (Performs E (.token form)) (Answers (.token form)) [] := by
  have hr : IsGrant "refresh_token" form (.token form) := ⟨rfl, hgrant⟩
  refine along_await fun found => ⟨⟨form, hr, rfl, rfl⟩, ?_⟩
  cases found with
  | none => exact answers_error (by simp) fun _ => by simp [Rejected]
  | some rec =>
    dsimp only
    split
    · exact answers_error (by simp) fun _ => by simp [Rejected]
    next hclient =>
    replace hclient : rec.client_id = form.client_id := by simpa using hclient
    refine along_bind (revalidate_at_dex_along hr hclient) fun tr' result hres => ?_
    cases result with
    | unreachable =>
      obtain ⟨n, d, reply, hrep, hne⟩ := hres
      exact answers_error (by simp) fun _ => hrep.not_rejected hne [] (by simp)
    | crashed =>
      obtain ⟨n, d, reply, hrep, hne⟩ := hres
      exact answers_error (by simp) fun _ => hrep.not_rejected hne [] (by simp)
    | refused =>
      exact along_await fun popped =>
        ⟨⟨form, rec.sub, hr, rfl, .inl hres⟩, answers_consumed (by simp) List.mem_cons_self⟩
    | honoured rt =>
      refine along_await fun reply => ⟨⟨form, hr, hres⟩, ?_⟩
      -- Dex has accepted the token, so only LiteLLM can still reject the user
      have hlive : reply ≠ .ok false →
          ¬ Rejected (⟨.ext (.get_litellm_user rec.sub), reply⟩ :: tr') := by
        obtain ⟨n, d, dex, rotated, ttl, tr₀, rfl, hrep, haccept⟩ := hres
        intro hne
        refine hrep.not_rejected (by simp [haccept]) [_, _] ?_
        intro e he
        simp only [List.mem_cons, List.not_mem_nil, or_false] at he
        rcases he with rfl | rfl
        · refine ⟨by simp, fun _ h => ?_⟩
          cases h
          exact hne rfl
        · simp
      cases reply with
      | ok alive => exact rotate_along hgrant hres
      | status_error code => exact answers_error (by simp) fun _ => hlive (by simp)
      | transport_error => exact answers_error (by simp) fun _ => hlive (by simp)
      | crashed => exact answers_error (by simp) fun _ => hlive (by simp)

theorem token_along (form : TokenForm) :
    (token E form).Along (Performs E (.token form)) (Answers (.token form)) [] := by
  unfold token
  split
  · next h => exact token_code_along h
  split
  · next h => exact token_refresh_along h
  split
  · next h => exact token_device_along h
  · exact answers_error (by simp) fun _ => by simp [Rejected]

end

/-! ## The front key -/

section
variable {u : String}

/-- The call has ended or left the locked section. -/
theorem mint_along (hr : resolves E r = some u) (h : Locked u tr) :
    (mint u).Along (Performs E r) (fun tr' _ => Inside u tr') tr := by
  refine along_await fun found => ⟨⟨hr, .inr (.inl h)⟩, ?_⟩
  cases found with
  | some record => exact .read h
  | none =>
    have hmint : Minting u (⟨.get .frontkey u, none⟩ :: tr) := ⟨tr, rfl, h⟩
    refine along_await fun reply => ⟨trivial, ?_⟩
    cases reply with
    | status_error | transport_error | crashed => exact .provisioned hmint
    | ok _ =>
      refine along_await fun reply => ⟨⟨hr, _, rfl, hmint⟩, ?_⟩
      cases reply with
      | status_error | transport_error | crashed => exact .generated hmint
      | ok minted =>
        dsimp only
        split
        · next key hkey =>
          exact along_await fun _ => ⟨⟨hr, rfl, minted, _, rfl, hkey, hmint⟩, .stored hmint hkey⟩
        · exact .generated hmint

theorem mint_locked_along (hr : resolves E r = some u) (h : Keyless u tr) :
    (mint_locked u).Along (Performs E r) (fun _ _ => True) tr := by
  refine along_await fun acquired => ⟨⟨u, hr, rfl, rfl, h⟩, ?_⟩
  cases acquired with
  | false =>
    refine along_await fun _ => ⟨trivial, ?_⟩
    refine along_await fun found => ⟨⟨hr, .inr (.inr ⟨tr, rfl⟩)⟩, ?_⟩
    cases found <;> trivial
  | true =>
    refine along_bind (mint_along hr ⟨tr, rfl, h⟩) fun tr' result hin => ?_
    exact along_await fun _ => ⟨⟨u, hr, rfl, hin⟩, trivial⟩

theorem resolve_front_key_along (hr : resolves E r = some u) :
    (resolve_front_key u).Along (Performs E r) (fun _ _ => True) [] := by
  refine along_await fun found => ⟨⟨hr, .inl rfl⟩, ?_⟩
  cases found with
  | none => exact mint_locked_along hr .missing
  | some record =>
    refine along_await fun reply => ⟨⟨u, record, hr, rfl, rfl⟩, ?_⟩
    split
    · trivial
    · trivial
    · next hdead =>
      refine along_await fun popped => ⟨⟨hr, record, reply, rfl, hdead⟩, ?_⟩
      exact mint_locked_along hr (.rejected hdead)

end

theorem front_key_along (presented : Option String) (body : Option Json) :
    (front_key E presented body).Along (Performs E (.front_key presented body))
      (Answers (.front_key presented body)) [] := by
  have hplain : ∀ tr res, (∀ access refresh scope n, res ≠ .tokens access refresh scope n) →
      Answers (.front_key presented body) tr res := fun _ _ h => answers_plain (by simp) h
  unfold front_key
  split
  · exact hplain _ _ (by simp)
  · exact hplain _ _ (by simp)
  next hauth =>
  split
  · exact hplain _ _ (by simp)
  next text hbody =>
  split
  · exact hplain _ _ (by simp)
  next hne =>
  have hr : resolves E (.front_key presented body) = some (lower (strip text)) := by
    simp [resolves, hauth, hbody, Option.filter, hne]
  refine along_bind (resolve_front_key_along hr) fun tr' result _ => ?_
  cases result <;> exact hplain _ _ (by simp)

theorem user_key_along (email : String) :
    (user_key email).Along (Performs E (.user_key email)) (Answers (.user_key email)) [] := by
  refine along_bind (resolve_front_key_along rfl) fun tr' result _ => ?_
  cases result <;> exact answers_plain (by simp) (by simp)

theorem opencode_config_along (sub : String) :
    (opencode_config sub).Along (Performs E (.opencode_config sub))
      (Answers (.opencode_config sub)) [] := by
  refine along_bind (resolve_front_key_along rfl) fun tr' result _ => ?_
  cases result <;> exact answers_plain (by simp) (by simp)

/-! ## All handlers -/

/-- Every handler performs only what the contract allows. -/
theorem handler_performs (r : Request) :
    (handler E r).Along (Performs E r) (Answers r) [] := by
  cases r with
  | register body => exact register_along body
  | authorize q => exact authorize_along q
  | as_callback state => exact as_callback_along state
  | broker_callback state => exact broker_callback_along state
  | device_authorization client_id => exact device_authorization_along client_id
  | device_confirm origin referer typed => exact device_confirm_along origin referer typed
  | token form => exact token_along form
  | front_key presented body => exact front_key_along presented body
  | user_key email => exact user_key_along email
  | opencode_config sub => exact opencode_config_along sub

end AlitellmAuth
