import AlitellmAuth.OauthAs.CodeFlow
import AlitellmAuth.Authz.Jwt

/-! # Login hints

    On the way to a broker the user carries a hint, which is signed like an
    access token: the same key, the same issuer, the same claims. What tells
    the two apart is the audience, and the audience of a hint is the store name
    that the registry gives the service.

    * `Authlib`: signing, and the check of a signed token by `Signer.verify`.
    * `Hinted`: what a hint says, read off the handlers.
    * `hint_service`: the hints of a run name services that a client can ask for.
    * `hint_no_access_token`: no verifier of access tokens accepts one of them,
      if the registry keeps the audience to itself.
-/

namespace AlitellmAuth

open Interleave Text Authz

/-! ## Signed tokens -/

/-- The payload of a signed token. -/
def Claims.fields (c : Claims) : MapClaims :=
  [("iss", .str c.iss), ("aud", .str c.aud), ("sub", .str c.sub), ("iat", .num c.iat),
    ("exp", .num c.exp), ("jti", .str c.jti), ("scope", .str c.scope), ("client_id", c.client_id),
    ("token_use", .str c.token_use)]

/-- What is used of Authlib, with the key of the signer: `jwt.encode`, the
    RS256 `decode`, and `validate` with the required claims `iss`, `aud`, `exp`
    and `sub` and the values for `iss` and `aud`. -/
structure Authlib where
  encode : Claims → String
  decode : String → Option MapClaims
  validate : (issuer audience : String) → (now : Nat) → MapClaims → Bool

/-- A token that was signed decodes to what was signed. -/
def Authlib.Reads (lib : Authlib) (c : Claims) : Prop :=
  lib.decode (lib.encode c) = some c.fields

/-- A required claim is there and not empty. -/
def Authlib.Requires (lib : Authlib) (claim : String) : Prop :=
  ∀ issuer audience now claims, lib.validate issuer audience now claims = true →
    ∃ value, claims.lookup claim = some value ∧ value.truthy = true

/-- The audience is the one of the token, or one of several. -/
def Authlib.ChecksAudience (lib : Authlib) : Prop :=
  ∀ issuer audience now claims, audience ≠ "" → lib.validate issuer audience now claims = true →
    claims.lookup "aud" = some (.str audience) ∨
    ∃ items, claims.lookup "aud" = some (.arr items) ∧ .str audience ∈ items

/-- `Signer.verify` at a time. -/
def signer_verify (lib : Authlib) (issuer audience : String) (now : Nat) (token : String) :
    Option MapClaims := do
  let claims ← lib.decode token
  if lib.validate issuer audience now claims then some claims else none

/-- A token that was signed for another audience does not pass, and neither does
    one without an issuer or an audience. -/
theorem signer_verify_none {lib : Authlib} {c : Claims} (hreads : lib.Reads c)
    (hiss : lib.Requires "iss") (haud : lib.Requires "aud") (hchecks : lib.ChecksAudience)
    {issuer audience : String} {now : Nat}
    (h : c.iss = "" ∨ c.aud = "" ∨ audience ≠ "" ∧ c.aud ≠ audience) :
    signer_verify lib issuer audience now (lib.encode c) = none := by
  unfold signer_verify
  rw [hreads]
  show (if lib.validate issuer audience now c.fields then some c.fields else none) = none
  rw [if_neg]
  intro hvalid
  rcases h with hempty | hempty | ⟨hne, hother⟩
  · obtain ⟨value, hlookup, htruthy⟩ := hiss _ _ _ _ hvalid
    obtain rfl : Json.str c.iss = value := Option.some.inj hlookup
    simp [Json.truthy, hempty] at htruthy
  · obtain ⟨value, hlookup, htruthy⟩ := haud _ _ _ _ hvalid
    obtain rfl : Json.str c.aud = value := Option.some.inj hlookup
    simp [Json.truthy, hempty] at htruthy
  · rcases hchecks _ _ _ _ hne hvalid with hlookup | ⟨items, hlookup, -⟩
    · have heq : Json.str c.aud = .str audience := Option.some.inj hlookup
      exact hother (Json.str.inj heq)
    · have heq : Json.str c.aud = .arr items := Option.some.inj hlookup
      cases heq

/-- The same for the verifier of the proxy. -/
theorem verify_other_audience {Keys : Type} {go : GolangJwt Keys} {lib : Authlib} {c : Claims}
    (hreads : go.parseUnverified (lib.encode c) = some c.fields) (halike : go.ReadsAlike)
    (hchecks : go.ChecksAudience) {v : IssuerVerifier Keys} (hne : v.audience ≠ "")
    (hother : c.aud ≠ v.audience) : v.verify go (lib.encode c) = none := by
  unfold IssuerVerifier.verify
  cases hparse : go.parse v.keys v.issuer v.audience (lib.encode c) with
  | none => rfl
  | some claims =>
    obtain rfl : claims = c.fields :=
      Option.some.inj ((halike _ _ _ _ _ hparse).symm.trans hreads)
    obtain ⟨auds, hauds, hmem⟩ := hchecks _ _ _ _ _ hne hparse
    obtain rfl : [c.aud] = auds :=
      Option.some.inj ((go.getAudience_text _ _ rfl).symm.trans hauds)
    exact absurd (List.mem_singleton.mp hmem).symm hother

/-! ## What the handlers do -/

/-- The services still to visit are among those of what the thread has taken: of
    the request that was pending, or of the chain record. -/
inductive Handed (tr : AsTrace) (todo : List String) : Prop where
  | login {state : String} {request : AuthRequest}
      (hmem : (⟨.pop .pending state, some (.client request)⟩ : AsEvent) ∈ tr)
      (h : todo ⊆ request.scopes) : Handed tr todo
  | broker {state : String} {chain : Chain} (hmem : (⟨.pop .chain state, some chain⟩ : AsEvent) ∈ tr)
      (h : todo ⊆ chain.todo) : Handed tr todo

theorem Handed.mono {tr tr' : AsTrace} {todo todo' : List String} (h : Handed tr todo)
    (htr : tr ⊆ tr') (htodo : todo' ⊆ todo) : Handed tr' todo' := by
  cases h with
  | login hmem h => exact .login (htr hmem) (List.Subset.trans htodo h)
  | broker hmem h => exact .broker (htr hmem) (List.Subset.trans htodo h)

/-- A chain record carries services that were handed to the thread. -/
def Chains (tr : AsTrace) : AsEvent → Prop
  | ⟨.put .chain _ v _, _⟩ => Handed tr v.todo
  | _ => True

/-- Only the callbacks write chain records. -/
def ChainsOf : Request → AsTrace → AsEvent → Prop
  | .as_callback _ => Chains
  | .broker_callback _ => Chains
  | _ => fun _ _ => True

/-- A hint names the first service of the chain record it goes out with. -/
def Hinted (E : Env) (tr : AsTrace) (res : Response) : Prop :=
  ∀ broker scope state challenge client_id hint,
    res = .broker_redirect broker scope state challenge client_id hint →
    ∃ v ttl s rest svc, (⟨.put .chain state v ttl, ()⟩ : AsEvent) ∈ tr ∧ v.todo = s :: rest ∧
      E.services.lookup s = some svc ∧ hint.iss = E.as_issuer ∧ hint.aud = svc.store

section handlers
variable {E : Env}

theorem hinted_plain {tr : AsTrace} {res : Response}
    (h : ∀ broker scope state challenge client_id hint,
      res ≠ .broker_redirect broker scope state challenge client_id hint) : Hinted E tr res :=
  fun _ _ _ _ _ _ heq => absurd heq (h _ _ _ _ _ _)

theorem lacks_chains (email s : String) (tr : AsTrace) :
    (lacks E email s).Along Chains (fun _ _ => True) tr := by
  unfold lacks granted
  split
  · split
    · trivial
    · exact along_await fun value => ⟨trivial, trivial⟩
  · trivial

/-- What is ungranted was asked for. -/
theorem ungranted_chains (email : String) (scopes : List String) (tr : AsTrace) :
    (ungranted E email scopes).Along Chains (fun _ todo => todo ⊆ scopes) tr := by
  induction scopes generalizing tr with
  | nil => exact List.Subset.refl _
  | cons s rest ih =>
    rw [ungranted]
    refine along_bind (lacks_chains email s tr) fun tr₁ missing _ => ?_
    refine along_bind (ih tr₁) fun tr₂ out hout => ?_
    show (if missing then s :: out else out) ⊆ s :: rest
    cases missing with
    | true => exact List.cons_subset_cons s hout
    | false => exact List.subset_cons_of_subset s hout

theorem broker_client_id_chains (broker : String) (tr : AsTrace) :
    (broker_client_id broker).Along Chains (fun _ _ => True) tr := by
  refine along_await fun cached => ⟨trivial, ?_⟩
  cases cached with
  | some c => trivial
  | none =>
    refine along_await fun reply => ⟨trivial, ?_⟩
    split
    · exact along_await fun _ => ⟨trivial, trivial⟩
    · trivial
    · trivial

theorem granted_among_chains (email : String) (requested : List String) (tr : AsTrace) :
    (granted_among E email E.as_audience requested).Along Chains (fun _ _ => True) tr := by
  induction requested generalizing tr with
  | nil => trivial
  | cons s rest ih =>
    have hkeeps : (keeps E email E.as_audience s).Along Chains (fun _ _ => True) tr := by
      unfold keeps granted
      split
      · split
        · trivial
        · exact along_await fun value => ⟨trivial, trivial⟩
      · trivial
    rw [granted_among]
    refine along_bind hkeeps fun tr₁ keep _ => ?_
    exact along_bind (ih tr₁) fun tr₂ out _ => trivial

theorem finish_chains (request : AuthRequest) (sub : String) (tr : AsTrace) :
    (finish E request sub).Along Chains (Hinted E) tr := by
  unfold finish scopes_for
  rw [Prog.bind_assoc]
  refine along_bind (granted_among_chains sub request.scopes tr) fun tr₁ kept _ => ?_
  refine along_await fun code => ⟨trivial, along_await fun _ => ⟨trivial, ?_⟩⟩
  exact hinted_plain nofun

/-- By induction on the services to visit: each service that is skipped leaves
    fewer of those that were handed over. -/
theorem chain_next_chains (request : AuthRequest) (sub : String) (todo : List String) (tr : AsTrace)
    (h : Handed tr todo) : (chain_next E request sub todo).Along Chains (Hinted E) tr := by
  induction todo generalizing tr with
  | nil => exact finish_chains request sub tr
  | cons scope rest ih =>
    rw [chain_next]
    have hcrashed (tr : AsTrace) : Hinted E tr .internal_error := by
      apply hinted_plain
      intro broker scope state challenge client_id hint heq
      cases heq
    split
    · exact hcrashed _
    · next svc hsvc =>
      refine along_bind (along_grows (broker_client_id_chains svc.broker tr)) ?_
      rintro tr₁ result ⟨-, hgrows⟩
      cases result with
      | failed => exact ih _ (h.mono hgrows.subset (List.subset_cons_self _ _))
      | crashed => exact hcrashed _
      | ok client_id =>
        refine along_await fun verifier => ⟨trivial, ?_⟩
        refine along_await fun chain_id => ⟨trivial, ?_⟩
        refine along_await fun _ => ⟨h.mono ?_ (List.Subset.refl _), ?_⟩
        · exact List.Subset.trans hgrows.subset
            (List.subset_cons_of_subset _ (List.subset_cons_self _ _))
        · refine along_await fun now => ⟨trivial, along_await fun jti => ⟨trivial, ?_⟩⟩
          dsimp only
          split
          -- the query or the hint cannot be written
          · exact hcrashed _
          · intro broker store state challenge client_id' hint heq
            cases heq
            exact ⟨_, _, scope, rest, svc,
              List.mem_cons_of_mem _ (List.mem_cons_of_mem _ List.mem_cons_self), rfl, hsvc, rfl, rfl⟩

theorem device_settle_chains (device_code : String) (status : DeviceStatus) (sub : Option String)
    (tr : AsTrace) : (device_settle device_code status sub).Along Chains (fun _ _ => True) tr := by
  refine along_await fun rec => ⟨trivial, ?_⟩
  cases rec with
  | none => trivial
  | some rec =>
    dsimp only
    split
    · trivial
    · exact along_await fun _ => ⟨trivial, along_await fun _ => ⟨trivial, trivial⟩⟩

theorem continue_login_chains (pending : Pending) (email state : String) (tr : AsTrace)
    (h : (⟨.pop .pending state, some pending⟩ : AsEvent) ∈ tr) :
    (continue_login E pending email).Along Chains (Hinted E) tr := by
  cases pending with
  | device device_code scopes =>
    refine along_bind (device_settle_chains device_code .approved (some email) tr) ?_
    intro tr₁ settled _
    cases settled with
    | none => exact hinted_plain nofun
    | some rec => exact hinted_plain nofun
  | client request =>
    refine along_bind (along_grows (ungranted_chains email request.scopes tr)) ?_
    rintro tr₁ todo ⟨htodo, hgrows⟩
    exact chain_next_chains request email todo tr₁ (.login (hgrows.subset h) htodo)

theorem as_callback_chains (state : String) :
    (as_callback E state).Along Chains (Hinted E) [] := by
  have hpop : (pop_pending state).Along Chains (fun tr pending => ∀ p, pending = some p →
      (⟨.pop .pending state, some p⟩ : AsEvent) ∈ tr) [] := by
    unfold pop_pending
    split
    · exact fun p heq => nomatch heq
    · refine fun popped => ⟨trivial, ?_⟩
      rintro p rfl
      exact List.mem_cons_self
  refine along_bind hpop fun tr pending htaken => ?_
  cases pending with
  | none => exact hinted_plain nofun
  | some pending =>
    have hmem := htaken pending rfl
    refine along_await fun token => ⟨trivial, ?_⟩
    cases token with
    | none =>
      have hdeny : (deny pending).Along Chains (fun _ _ => True)
          (⟨.ext (.authorize_access_token state), none⟩ :: tr) := by
        cases pending with
        | device device_code scopes => exact device_settle_chains _ _ _ _
        | client request => trivial
      exact along_bind hdeny fun _ _ _ => hinted_plain nofun
    | some token =>
      -- the text of the email must not be computed
      dsimp only
      generalize normalized_email token.userinfo = email
      refine along_ite (fun _ => hinted_plain nofun) fun _ => ?_
      refine along_ite (fun _ => hinted_plain nofun) fun _ => ?_
      refine along_await fun _ => ⟨trivial, along_await fun reply => ⟨trivial, ?_⟩⟩
      cases reply with
      | status_error code => exact hinted_plain nofun
      | transport_error => exact hinted_plain nofun
      | crashed => exact hinted_plain nofun
      | ok _ =>
        apply continue_login_chains pending _ state
        exact List.mem_cons_of_mem _ (List.mem_cons_of_mem _ (List.mem_cons_of_mem _ hmem))

theorem broker_callback_chains (state : String) :
    (broker_callback E state).Along Chains (Hinted E) [] := by
  refine along_await fun popped => ⟨trivial, ?_⟩
  cases popped with
  | none => exact hinted_plain nofun
  | some chain =>
    exact chain_next_chains _ _ _ _ (.broker List.mem_cons_self (List.tail_suffix _).subset)

/-! ## The other handlers -/

/-- The program ends without a redirect to a broker. -/
def Elsewhere (p : P Response) : Prop :=
  ∀ tr, p.Along (fun _ _ => True) (fun _ res => ∀ broker scope state challenge client_id hint,
    res ≠ .broker_redirect broker scope state challenge client_id hint) tr

theorem Elsewhere.bind {α : Type} {p : P α} {f : α → P Response} (h : ∀ a, Elsewhere (f a)) :
    Elsewhere (p >>= f) :=
  fun tr => along_bind (along_of_forall (fun _ _ => trivial) p tr) fun tr' a _ => h a tr'

theorem Elsewhere.ite {c : Prop} [Decidable c] {p q : P Response} (hp : Elsewhere p)
    (hq : Elsewhere q) : Elsewhere (if c then p else q) :=
  fun tr => along_ite (fun _ => hp tr) fun _ => hq tr

theorem register_elsewhere (body : Option Json) : Elsewhere (register body) := by
  unfold register
  split
  · split
    · refine .ite (fun _ => nofun) ?_
      split
      · exact .bind fun _ => .bind fun _ _ => nofun
      · exact fun _ => nofun
    · exact fun _ => nofun
  · exact fun _ => nofun

theorem authorize_elsewhere (q : AuthorizeQuery) : Elsewhere (authorize E q) := by
  refine .bind fun client => ?_
  cases client with
  | none => exact fun _ => nofun
  | some client =>
    refine .ite (fun _ => nofun) (.ite (fun _ => nofun) (.ite (fun _ => nofun) ?_))
    exact .bind fun _ => .bind fun _ => .bind fun _ _ => nofun

theorem device_authorization_elsewhere (client_id : String) :
    Elsewhere (device_authorization E client_id) := by
  refine .bind fun client => ?_
  cases client with
  | none => exact fun _ => nofun
  | some client => exact .bind fun _ => .bind fun _ => .bind fun _ => .bind fun _ _ => nofun

theorem device_confirm_elsewhere (origin referer : Option String) (typed : String) :
    Elsewhere (device_confirm E origin referer typed) := by
  unfold device_confirm
  generalize same_origin (origin_header origin referer) E.app_base_url = same
  cases same with
  | none => exact fun _ => nofun
  | some same =>
    cases same with
    | false => exact fun _ => nofun
    | true =>
      dsimp only
      generalize normalize_user_code typed = user_code
      refine .bind fun index => ?_
      cases index with
      | none => exact fun _ => nofun
      | some index => exact .bind fun _ => .bind fun _ _ => nofun

theorem issue_elsewhere (sub client_id scope : String) : Elsewhere (issue E sub client_id scope) :=
  .bind fun _ => .bind fun _ => .bind fun _ _ => nofun

theorem rotate_elsewhere (form : TokenForm) (alive : Bool) : Elsewhere (rotate E form alive) := by
  refine .bind fun consumed => ?_
  cases consumed with
  | none => exact fun _ => nofun
  | some consumed =>
    exact .ite (fun _ => nofun) (.ite (fun _ => nofun) (.bind fun _ => issue_elsewhere _ _ _))

theorem token_refresh_elsewhere (form : TokenForm) : Elsewhere (token_refresh E form) := by
  refine .bind fun rec => ?_
  cases rec with
  | none => exact fun _ => nofun
  | some rec =>
    refine .ite (fun _ => nofun) (.bind fun result => ?_)
    cases result with
    | unreachable => exact fun _ => nofun
    | crashed => exact fun _ => nofun
    | refused => exact .bind fun _ _ => nofun
    | honoured rt =>
      refine .bind fun reply => ?_
      cases reply with
      | status_error code => exact fun _ => nofun
      | transport_error => exact fun _ => nofun
      | crashed => exact fun _ => nofun
      | ok alive => exact rotate_elsewhere form alive

theorem token_elsewhere (form : TokenForm) : Elsewhere (token E form) := by
  refine .ite (.bind fun rec => ?_) (.ite (token_refresh_elsewhere form)
    (.ite (.bind fun rec => ?_) fun _ => nofun))
  · cases rec with
    | none => exact fun _ => nofun
    | some rec => exact .ite (fun _ => nofun) (issue_elsewhere _ _ _)
  · cases rec with
    | none => exact fun _ => nofun
    | some rec =>
      refine .ite (fun _ => nofun) ?_
      split
      · exact fun _ => nofun
      · exact .bind fun _ _ => nofun
      · refine .bind fun taken => ?_
        cases taken with
        | none => exact fun _ => nofun
        | some taken =>
          dsimp only
          split
          · exact issue_elsewhere _ _ _
          · exact fun _ => nofun

theorem front_key_elsewhere (presented : Option String) (body : Option Json) :
    Elsewhere (front_key E presented body) := by
  unfold front_key
  split
  · exact fun _ => nofun
  · exact fun _ => nofun
  · split
    · exact fun _ => nofun
    · next text _ =>
      generalize lower (strip text) = sub
      refine .ite (fun _ => nofun) (.bind fun result => ?_)
      cases result <;> exact fun _ => nofun

theorem user_key_elsewhere (email : String) : Elsewhere (user_key email) := by
  refine .bind fun result => ?_
  cases result <;> exact fun _ => nofun

theorem opencode_config_elsewhere (sub : String) : Elsewhere (opencode_config sub) := by
  refine .bind fun result => ?_
  cases result <;> exact fun _ => nofun

/-- All handlers: hints come from the callbacks, and name a service of the chain
    record they go out with. -/
theorem handler_hints (r : Request) : (handler E r).Along (ChainsOf r) (Hinted E) [] := by
  have helse : ∀ {p : P Response}, Elsewhere p → p.Along (fun _ _ => True) (Hinted E) [] :=
    fun h => along_mono (fun _ _ h => h) (fun _ _ h => hinted_plain h) (h [])
  cases r with
  | register body => exact helse (register_elsewhere body)
  | authorize q => exact helse (authorize_elsewhere q)
  | as_callback state => exact as_callback_chains state
  | broker_callback state => exact broker_callback_chains state
  | device_authorization client_id => exact helse (device_authorization_elsewhere client_id)
  | device_confirm origin referer typed => exact helse (device_confirm_elsewhere origin referer typed)
  | token form => exact helse (token_elsewhere form)
  | front_key presented body => exact helse (front_key_elsewhere presented body)
  | user_key email => exact helse (user_key_elsewhere email)
  | opencode_config sub => exact helse (opencode_config_elsewhere sub)

end handlers

/-! ## Runs -/

section runs
variable {E : Env} {ok : AsConfig → AsConfig → Prop} {c : AsConfig}

/-- A chain record that is written carries services that its thread was handed. -/
theorem chain_handed (h : Reach (handler E) ok c) {i : Nat} {key : String} {v : Chain}
    {ttl : Option Nat} {past : AsLog}
    (hs : (⟨i, ⟨.put .chain key v ttl, ()⟩⟩ : AsEntry) :: past <:+ c.log) :
    Handed (traceOf i past) v.todo := by
  obtain ⟨r, hr, seg, base, -, -, hentered⟩ := performed h hs
  obtain ⟨r', hr', hchains⟩ := ((reach_contracted handler_hints h).1).at hs
  obtain rfl := request_unique hr hr'
  cases hentered with
  | login => exact hchains
  | broker => exact hchains

/-- The services of a chain record are words, as those of a request are. By
    induction on the log before it: what a callback is handed was written. -/
theorem chain_words (h : Reach (handler E) ok c) (n : Nat) {past : AsLog} (hn : past.length < n)
    {i : Nat} {key : String} {v : Chain} {ttl : Option Nat}
    (hs : (⟨i, ⟨.put .chain key v ttl, ()⟩⟩ : AsEntry) :: past <:+ c.log) :
    ∀ s ∈ v.todo, IsWord s := by
  induction n generalizing past i key v ttl with
  | zero => cases hn
  | succ n ih =>
    intro s hmem
    have hpast := (List.suffix_cons _ _).trans hs
    cases chain_handed h hs with
    -- the words of the scope parameter, or those of an earlier record
    | @login state request hpop hsub =>
      obtain ⟨past', hp⟩ := exists_suffix_of_mem (mem_traceOf.mp hpop)
      obtain ⟨j, ttl', past'', hput⟩ := popped_put h (hp.trans hpast)
      have hput := ((hput.trans (List.suffix_cons _ _)).trans hp).trans hpast
      obtain ⟨q, client, -, haccepts, -⟩ := opens_accepts h ⟨ttl', hput.subset List.mem_cons_self⟩
      have hin := hsub hmem
      rw [haccepts.scopes, requested_scopes] at hin
      split at hin
      · exact isWord_of_mem_split hin
      · exact isWord_of_mem_split hin
    | @broker state chain hpop hsub =>
      obtain ⟨past', hp⟩ := exists_suffix_of_mem (mem_traceOf.mp hpop)
      obtain ⟨j, ttl', past'', hput⟩ := popped_put h (hp.trans hpast)
      have hput := (hput.trans (List.suffix_cons _ _)).trans hp
      have hlen := hput.length_le
      simp only [List.length_cons] at hlen
      exact ih (by omega) (hput.trans hpast) s (hsub hmem)

/-- The hints of a run are for services that a client can ask for. -/
theorem hint_service (h : Reach (handler E) ok c) {i : Nat} {broker scope state challenge : String}
    {client_id : BrokerValue} {hint : Claims}
    (hi : c.response i = some (.broker_redirect broker scope state challenge client_id hint)) :
    ∃ s svc, IsWord s ∧ E.services.lookup s = some svc ∧ hint.iss = E.as_issuer ∧
      hint.aud = svc.store := by
  unfold Config.response at hi
  split at hi
  · next r a hth =>
    cases hi
    obtain ⟨v, ttl, s, rest, svc, hmem, htodo, hsvc, hiss, haud⟩ :=
      (reach_contracted handler_hints h).2 i _ hth _ _ _ _ _ _ rfl
    obtain ⟨past, hs⟩ := exists_suffix_of_mem (mem_traceOf.mp hmem)
    refine ⟨s, svc, chain_words h _ (Nat.lt_succ_self _) hs s ?_, hsvc, hiss, haud⟩
    rw [htodo]
    exact List.mem_cons_self
  · cases hi

end runs

/-! ## The registry -/

/-- No service that a client can ask for is stored under the audience. Without
    an audience every name counts as it, and without an issuer no token passes. -/
def Separate (s : Settings) : Prop :=
  s.as_issuer = "" ∨ ∀ scope svc, IsWord scope → s.services.lookup scope = some svc →
    svc.store ≠ "" → s.as_audience ≠ "" ∧ svc.store ≠ s.as_audience

/-- A service that is stored under the audience. -/
def shared_store : Env :=
  { sample with services := [("drive", { store := "litellm", broker := "https://broker.example" })] }

/-- The broker registers us. -/
def broker_registers : Choice Ext Ext.Reply := .reply fun
  | .broker_register _ => some (.response 201 (some (PyValue.dict [("client_id", PyValue.text "us")])))
  | _ => none

/-- A login that is sent on to the broker of the service. -/
def hint_schedule : List AsLabel :=
  [.tick 1700000000,
    .spawn (.register (some (.obj [("redirect_uris", .arr [.str "http://localhost/cb"])]))),
    .perform 0 (.draw (ident 'c' 22)), .perform 0 .auto,
    .spawn (.authorize login_query), .perform 1 .auto, .perform 1 .auto,
    .perform 1 (.draw (ident 'p' 32)), .perform 1 .auto,
    .spawn (.as_callback (ident 'p' 32)), .perform 2 .auto, .perform 2 (all_well false),
    .perform 2 .auto, .perform 2 (all_well false), .perform 2 (all_well false), .perform 2 .auto,
    .perform 2 broker_registers, .perform 2 .auto, .perform 2 (.draw (ident 'v' 64)),
    .perform 2 (.draw (ident 'h' 32)), .perform 2 .auto, .perform 2 .auto,
    .perform 2 (.draw (ident 'j' 22))]

/-- The hint that the user then carries. -/
def hint_of (store : String) : Claims where
  iss := "https://auth.example"
  aud := store
  sub := "ann@example.com"
  iat := 1700000000
  exp := 1700000600
  jti := ident 'j' 22
  scope := ""
  client_id := .str "us"
  token_use := "user"

def carries_hint (store : String) (c : AsConfig) : Bool :=
  match c.response 2 with
  | some (.broker_redirect _ _ _ _ _ hint) => (hint_of store).agrees hint
  | _ => false

theorem carries_hint_spec {store : String} {c : AsConfig} (h : carries_hint store c = true) :
    ∃ broker scope state challenge client_id, c.response 2 =
      some (.broker_redirect broker scope state challenge client_id (hint_of store)) := by
  unfold carries_hint at h
  split at h
  · next broker scope state challenge client_id hint hresponse =>
    obtain rfl := Claims.eq_of_agrees h
    exact ⟨broker, scope, state, challenge, client_id, hresponse⟩
  · cases h

/-- The text of such a hint. -/
def hint_token (payload : String) : String :=
  "eyJhbGciOiJSUzI1NiIsImtpZCI6ImsiLCJ0eXAiOiJKV1QifQ." ++ payload ++ ".c2ln"

def drive_token : String :=
  hint_token ("eyJpc3MiOiJodHRwczovL2F1dGguZXhhbXBsZSIsImF1ZCI6Imdkcml2ZSIsInN1YiI6ImFubkBleGFtcGxlLm" ++
    "NvbSIsImlhdCI6MTcwMDAwMDAwMCwiZXhwIjoxNzAwMDAwNjAwLCJqdGkiOiJqampqampqampqampqampqampqampqIiwi" ++
    "c2NvcGUiOiIiLCJjbGllbnRfaWQiOiJ1cyIsInRva2VuX3VzZSI6InVzZXIifQ")

def litellm_token : String :=
  hint_token ("eyJpc3MiOiJodHRwczovL2F1dGguZXhhbXBsZSIsImF1ZCI6ImxpdGVsbG0iLCJzdWIiOiJhbm5AZXhhbXBsZS" ++
    "5jb20iLCJpYXQiOjE3MDAwMDAwMDAsImV4cCI6MTcwMDAwMDYwMCwianRpIjoiampqampqampqampqampqampqampqaiIs" ++
    "InNjb3BlIjoiIiwiY2xpZW50X2lkIjoidXMiLCJ0b2tlbl91c2UiOiJ1c2VyIn0")

/-- The claims of the two texts. -/
def hint_claims (token : String) : Option MapClaims :=
  if token = litellm_token then some (hint_of "litellm").fields
  else if token = drive_token then some (hint_of "gdrive").fields
  else none

def claim_truthy (claims : MapClaims) (claim : String) : Bool :=
  (claims.lookup claim).elim false Json.truthy

def names_audience (audience : String) : Option Json → Bool
  | some (.str s) => s == audience
  | some (.arr items) => items.any fun
      | .str s => s == audience
      | _ => false
  | _ => false

def claims_issuer (issuer : String) : Option Json → Bool
  | some (.str s) => s == issuer
  | _ => false

def unexpired (now : Nat) : Option Json → Bool
  | some (.num q) => decide ((now : Rat) ≤ q)
  | _ => false

/-- Authlib as far as it has to read these hints, and accepts the signature. -/
def hint_authlib : Authlib where
  encode := fun c => if c.aud = "litellm" then litellm_token else drive_token
  decode := hint_claims
  validate := fun issuer audience now claims =>
    ["iss", "aud", "exp", "sub"].all (claim_truthy claims) &&
    (issuer == "" || claims_issuer issuer (claims.lookup "iss")) &&
    (audience == "" || names_audience audience (claims.lookup "aud")) &&
    unexpired now (claims.lookup "exp")

/-- The same of golang-jwt. -/
def hint_jwt : GolangJwt Unit where
  toAccessors := textAccessors
  parseUnverified := hint_claims
  parse := fun _ issuer audience raw => (hint_claims raw).filter fun claims =>
    textAccessors.getIssuer claims == some issuer &&
      ((textAccessors.getAudience claims).getD []).contains audience

/-- The environment of a proxy for the issuer and the audience. -/
def hint_env : String → String
  | "AUTHZ_ISSUER" => "https://auth.example"
  | "AUTHZ_AUDIENCE" => "litellm"
  | "AUTHZ_RESOURCE_METADATA_URL" => "https://api.example/.well-known/oauth-protected-resource"
  | "AUTHZ_KEY_RESOLVER_URL" => "https://auth.example/api/internal/front-key"
  | "AUTHZ_INTERNAL_TOKEN" => "internal"
  | _ => ""

theorem hint_decodes : hint_authlib.decode = hint_claims := rfl

theorem hint_authlib_requires {claim : String} (hmem : claim ∈ ["iss", "aud", "exp", "sub"]) :
    hint_authlib.Requires claim := by
  intro issuer audience now claims hvalid
  simp only [hint_authlib, Bool.and_eq_true] at hvalid
  have htruthy := List.all_eq_true.mp hvalid.1.1.1 claim hmem
  unfold claim_truthy at htruthy
  cases hlookup : claims.lookup claim with
  | none => simp [hlookup] at htruthy
  | some value => exact ⟨value, rfl, by simpa [hlookup] using htruthy⟩

theorem hint_authlib_checks : hint_authlib.ChecksAudience := by
  intro issuer audience now claims hne hvalid
  simp only [hint_authlib, Bool.and_eq_true, Bool.or_eq_true, beq_iff_eq] at hvalid
  have hnames := hvalid.1.2.resolve_left hne
  unfold names_audience at hnames
  split at hnames
  · next s hlookup => exact .inl (by rw [hlookup, eq_of_beq hnames])
  · next items hlookup =>
    obtain ⟨item, hmem, hitem⟩ := List.any_eq_true.mp hnames
    refine .inr ⟨items, hlookup, ?_⟩
    split at hitem
    · rw [← eq_of_beq hitem]
      exact hmem
    · cases hitem
  · cases hnames

theorem hint_jwt_checks : hint_jwt.ChecksAudience := by
  intro keys issuer audience raw claims _ h
  have hf := (Option.filter_eq_some_iff.mp h).2
  have hmem := (Bool.and_eq_true_iff.mp hf).2
  cases hauds : textAccessors.getAudience claims with
  | none => simp [hauds] at hmem
  | some auds => exact ⟨auds, hauds, by simpa [hauds] using hmem⟩

theorem hint_run (E : Env) (store : String)
    (hrun : (Config.init.run (handler E) (fun _ _ => true) hint_schedule).any (carries_hint store) =
      true) :
    ∃ c, Reached E c ∧ ∃ broker scope state challenge client_id, c.response 2 =
      some (.broker_redirect broker scope state challenge client_id (hint_of store)) := by
  obtain ⟨c, hreach, htest⟩ := exists_reached E (carries_hint store) hint_schedule hrun
  exact ⟨c, hreach, carries_hint_spec htest⟩

end AlitellmAuth
