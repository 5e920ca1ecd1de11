import AlitellmAuth.System

/-! # What the handlers do

    One statement about all handlers: which request performs which operation,
    and what it has done before. `Performs` says for each operation on a
    record that matters who performs it, when, and with which values;
    `Answers` says what stands behind a response. Both speak about one thread
    alone, in terms of its own trace (newest event first); the modules that
    follow read the log of a whole run through them.

    * `Holding`, `Replayed`, `Honoured`, `Refused`: the revalidation at Dex.
    * `Entered`, `Logged`: where a code flow or a device login has come from.
    * `Source`: what a token pair is issued for.
    * `handler_performs`: every handler keeps to `Performs` and `Answers`.
-/

namespace AlitellmAuth

open Interleave Text

/-! ## Segments -/

/-- Operations on broker registrations and grant projections alone. -/
def Aside : AsOp → Prop
  | .get .brokerclient _ => True
  | .put .brokerclient _ _ _ => True
  | .ext (.projection _ _) => True
  | .ext (.broker_register _) => True
  | _ => False

/-- A stretch of a trace that performs nothing but `Aside` operations. -/
def Quiet (seg : AsTrace) : Prop := ∀ e ∈ seg, Aside e.1

/-- A stretch of a trace that reads nothing but grant projections of `sub`. -/
def ReadsOf (sub : String) (seg : AsTrace) : Prop :=
  ∀ e ∈ seg, ∃ store value, e = ⟨.ext (.projection store sub), value⟩

/-- In `seg` the projection of the service `s` was read, and it says that
    `sub` has granted it. -/
def GrantedIn (E : Env) (sub s : String) (seg : AsTrace) : Prop :=
  ∃ svc value, E.services.lookup s = some svc ∧
    (⟨.ext (.projection svc.store sub), value⟩ : AsEvent) ∈ seg ∧ value.grants = true

/-- The scopes of `kept` were asked for and are no audience, and the reads of
    `seg` say that `sub` has granted each of them. -/
structure KeptIn (E : Env) (sub : String) (requested kept : List String) (seg : AsTrace) :
    Prop where
  reads : ReadsOf sub seg
  requested : ∀ s ∈ kept, s ∈ requested
  no_audience : ∀ s ∈ kept, s ≠ E.as_audience
  granted : ∀ s ∈ kept, GrantedIn E sub s seg

/-! ## The revalidation at Dex -/

/-- A refresh request has read the record `d` of user `u` and is about to
    replay its token, with `n` further attempts left. -/
inductive Holding (form : TokenForm) (u : String) : Nat → DexRt → AsTrace → Prop where
  | first {rec : Refresh} {d : DexRt} (hclient : rec.client_id = form.client_id)
      (hsub : rec.sub = u) :
      Holding form u 1 d
        [⟨.get .dexrt u, some d⟩, ⟨.get .refresh form.refresh_token, some rec⟩]
  | again {n : Nat} {d d' : DexRt} {reply : DexReply} {tr : AsTrace}
      (h : Holding form u (n + 1) d tr) (hreply : reply.result d.rt = .refused)
      (hne : d'.rt ≠ d.rt) :
      Holding form u n d' (⟨.get .dexrt u, some d'⟩ :: ⟨.ext (.dex_refresh d.rt), reply⟩ :: tr)

/-- Dex has just answered the replay of `d`. -/
def Replayed (form : TokenForm) (u : String) (n : Nat) (d : DexRt) (reply : DexReply)
    (tr : AsTrace) : Prop :=
  ∃ tr₀, tr = ⟨.ext (.dex_refresh d.rt), reply⟩ :: tr₀ ∧ Holding form u n d tr₀

/-- Dex has accepted the replay, and the token to keep is stored. -/
def Honoured (form : TokenForm) (u : String) (tr : AsTrace) : Prop :=
  ∃ n d reply rotated ttl tr₀, tr = ⟨.put .dexrt u ⟨rotated⟩ ttl, ()⟩ :: tr₀ ∧
    Replayed form u n d reply tr₀ ∧ reply.result d.rt = .accepted rotated

/-- Dex has refused the replay, and the record was read again. -/
def Reread (form : TokenForm) (u : String) (n : Nat) (d : DexRt) (current : Option DexRt)
    (tr : AsTrace) : Prop :=
  ∃ reply tr₀, tr = ⟨.get .dexrt u, current⟩ :: tr₀ ∧ Replayed form u n d reply tr₀ ∧
    reply.result d.rt = .refused

/-- The revalidation has ended in a refusal. -/
inductive Refused (form : TokenForm) (u : String) : AsTrace → Prop where
  | missing {rec : Refresh} (hclient : rec.client_id = form.client_id) (hsub : rec.sub = u) :
      Refused form u [⟨.get .dexrt u, none⟩, ⟨.get .refresh form.refresh_token, some rec⟩]
  | given_up {n : Nat} {d : DexRt} {current popped : Option DexRt} {tr : AsTrace}
      (h : Reread form u n d current tr) : Refused form u (⟨.pop .dexrt u, popped⟩ :: tr)

/-! ## Logins -/

/-- A thread continues the code flow of `request` for `sub`: it has logged the
    user in at Dex, or it has the user back from a broker. -/
inductive Entered (request : AuthRequest) (sub : String) : Request → AsTrace → Prop where
  | login {state : String} {token : DexToken} {d : DexRt} {ttl : Option Nat}
      {name : Option String} {groups : List String}
      (hsub : normalized_email token.userinfo = sub) :
      Entered request sub (.as_callback state)
        [⟨.ext (.ensure_team_and_user sub name groups), .ok ()⟩, ⟨.put .dexrt sub d ttl, ()⟩,
          ⟨.ext (.authorize_access_token state), some token⟩,
          ⟨.pop .pending state, some (.client request)⟩]
  | broker {state : String} {chain : Chain} (hrequest : chain.request = request)
      (hsub : chain.sub = sub) :
      Entered request sub (.broker_callback state) [⟨.pop .chain state, some chain⟩]

/-- A callback is about to settle a device code: Dex has logged the user in, or
    the login has failed. -/
inductive Logged (device_code : String) : Request → DeviceStatus → Option String → AsTrace → Prop
    where
  | approved {state : String} {token : DexToken} {d : DexRt} {ttl : Option Nat}
      {name : Option String} {groups scopes : List String} {sub : String}
      (hsub : normalized_email token.userinfo = sub) :
      Logged device_code (.as_callback state) .approved (some sub)
        [⟨.ext (.ensure_team_and_user sub name groups), .ok ()⟩, ⟨.put .dexrt sub d ttl, ()⟩,
          ⟨.ext (.authorize_access_token state), some token⟩,
          ⟨.pop .pending state, some (.device device_code scopes)⟩]
  | denied {state : String} {scopes : List String} :
      Logged device_code (.as_callback state) .denied none
        [⟨.ext (.authorize_access_token state), none⟩,
          ⟨.pop .pending state, some (.device device_code scopes)⟩]

/-- The request that `/oauth/authorize` accepts for a client. -/
structure Accepts (E : Env) (q : AuthorizeQuery) (client : Client) (request : AuthRequest) :
    Prop where
  client_id : request.client_id = client.client_id
  redirect_uri : request.redirect_uri = q.redirect_uri.getD ""
  registered : ∃ uri ∈ client.redirect_uris, redirect_matches uri request.redirect_uri = true
  state : request.state = q.state
  code_challenge : q.code_challenge = some request.code_challenge
  challenge : isChallenge request.code_challenge = true
  scopes : request.scopes = requested_scopes E.toSettings q
  known : ∀ s ∈ request.scopes, s = E.as_audience ∨ E.offers s = true

/-- A login is started by an authorization request or by a confirmed device. -/
inductive Starts (E : Env) (pending_id : String) : Pending → Request → AsTrace → Prop where
  | client {q : AuthorizeQuery} {client : Client} {request : AuthRequest} {ttl : Option Nat}
      (h : Accepts E q client request) :
      Starts E pending_id (.client request) (.authorize q)
        [⟨.draw (.urlsafe 24), pending_id⟩, ⟨.put .client client.client_id client ttl, ()⟩,
          ⟨.get .client (q.client_id.getD ""), some client⟩]
  | device {origin referer : Option String} {typed : String} {index : DeviceUser}
      (h : same_origin (origin_header origin referer) E.app_base_url = some true) :
      Starts E pending_id (.device index.device_code [E.as_audience])
        (.device_confirm origin referer typed)
        [⟨.draw (.urlsafe 24), pending_id⟩,
          ⟨.get .device_user (normalize_user_code typed), some index⟩]

/-- A device record is created by a device authorization, and written again by
    the callback that settles it. -/
inductive PutsDevice (device_code : String) : Device → Request → AsTrace → Prop where
  | created {client_id raw : String} {client : Client} :
      PutsDevice device_code
        { client_id := client.client_id, user_code := hyphenate raw.toList, status := .pending,
          sub := none }
        (.device_authorization client_id)
        [⟨.draw (.letters USER_CODE_ALPHABET 8), raw⟩, ⟨.draw (.urlsafe 32), device_code⟩,
          ⟨.get .client client_id, some client⟩]
  | settled {r : Request} {rec : Device} {status : DeviceStatus} {sub : Option String}
      {tr : AsTrace} (h : Logged device_code r status sub tr) (hpending : rec.status = .pending) :
      PutsDevice device_code { rec with status, sub := sub.or rec.sub } r
        (⟨.get .device device_code, some rec⟩ :: tr)

/-! ## Token pairs -/

/-- The checks of the code grant. -/
structure Redeems (E : Env) (form : TokenForm) (rec : Code) : Prop where
  client_id : rec.request.client_id = form.client_id
  redirect_uri : redirect_matches rec.request.redirect_uri form.redirect_uri = true
  code_verifier : pkce_ok E.sha256 rec.request.code_challenge form.code_verifier = true

/-- What a pair with the record `v` is issued for, and what the request has
    done until it signs the access token. -/
inductive Source (E : Env) (form : TokenForm) (v : Refresh) : AsTrace → Prop where
  | code {rec : Code} (hgrant : form.grant_type = some "authorization_code")
      (hredeems : Redeems E form rec) (hsub : v.sub = rec.sub) (hscope : v.scope = rec.scope) :
      Source E form v [⟨.pop .code form.code, some rec⟩]
  | refresh {consumed : Refresh} {u : String} {kept : List String} {seg before : AsTrace}
      (hgrant : form.grant_type = some "refresh_token")
      (hclient : consumed.client_id = form.client_id) (hsub : v.sub = consumed.sub)
      (hscope : v.scope = join (E.as_audience :: kept))
      (hkept : KeptIn E consumed.sub (split consumed.scope) kept seg)
      (hbefore : Honoured form u before) :
      Source E form v (seg ++ ⟨.pop .refresh form.refresh_token, some consumed⟩ ::
        ⟨.ext (.get_litellm_user u), .ok true⟩ :: before)
  | device {rec taken : Device} (hgrant : form.grant_type = some DEVICE_GRANT)
      (hclient : rec.client_id = form.client_id) (hstatus : rec.status = .approved)
      (hsub : taken.sub = some v.sub) (hscope : v.scope = E.as_audience) :
      Source E form v [⟨.pop .device form.device_code, some taken⟩,
        ⟨.get .device form.device_code, some rec⟩]

/-- The signature and the draw of the refresh token, after the source. -/
def Signed (refresh : String) (past tr : AsTrace) : Prop :=
  ∃ jti now, tr = ⟨.draw (.urlsafe 32), refresh⟩ :: ⟨.draw (.urlsafe 16), jti⟩ ::
    ⟨.time, now⟩ :: past

/-! ## The front key -/

/-- Whose front key a request resolves. -/
def resolves (E : Env) : Request → Option String
  | .front_key presented body =>
      if authorized presented E.internal_token = some true then
        ((body_sub E body).map fun text => lower (strip text)).filter (· ≠ "")
      else none
  | .user_key email => some email
  | .opencode_config sub => some sub
  | _ => none

/-- A call has found no usable key: there is no record, or LiteLLM has
    rejected the key of the record it read and the record was popped. -/
inductive Keyless (u : String) : AsTrace → Prop where
  | missing : Keyless u [⟨.get .frontkey u, none⟩]
  | rejected {record : FrontKey} {reply : LitellmReply Unit} {popped : Option FrontKey}
      (h : key_alive reply = some false) :
      Keyless u [⟨.pop .frontkey u, popped⟩, ⟨.ext (.get_key_info record.enc.plain), reply⟩,
        ⟨.get .frontkey u, some record⟩]

/-- A call holds the mint lock. -/
def Locked (u : String) (tr : AsTrace) : Prop :=
  ∃ tr₀, tr = ⟨.acquire (mint_lock u) MINT_LOCK_TTL, true⟩ :: tr₀ ∧ Keyless u tr₀

/-- A call that holds the mint lock has seen that there is no record. -/
def Minting (u : String) (tr : AsTrace) : Prop :=
  ∃ tr₀, tr = ⟨.get .frontkey u, none⟩ :: tr₀ ∧ Locked u tr₀

/-- Where a call can be inside the locked section. -/
inductive Inside (u : String) : AsTrace → Prop where
  | locked {tr : AsTrace} (h : Locked u tr) : Inside u tr
  | read {tr : AsTrace} {record : Option FrontKey} (h : Locked u tr) :
      Inside u (⟨.get .frontkey u, record⟩ :: tr)
  | provisioned {tr : AsTrace} {reply : LitellmReply Unit} (h : Minting u tr) :
      Inside u (⟨.ext (.provision u), reply⟩ :: tr)
  | generated {tr : AsTrace} {reply : LitellmReply Minted} (h : Minting u tr) :
      Inside u (⟨.ext (.key_generate u), reply⟩ :: ⟨.ext (.provision u), .ok ()⟩ :: tr)
  | stored {tr : AsTrace} {v : FrontKey} {minted : Minted} (h : Minting u tr)
      (hkey : minted.key = some v.enc.plain) :
      Inside u (⟨.put .frontkey u v none, ()⟩ :: ⟨.ext (.key_generate u), .ok minted⟩ ::
        ⟨.ext (.provision u), .ok ()⟩ :: tr)

/-! ## All operations -/

/-- The request is a token request of the given grant. -/
def IsGrant (grant : String) (form : TokenForm) (r : Request) : Prop :=
  r = .token form ∧ form.grant_type = some grant

/-- Which request performs which operation after which trace. Operations on
    records that no later module argues about are not restricted. -/
def Performs (E : Env) (r : Request) (tr : AsTrace) : AsEvent → Prop
  | ⟨.put .client key v _, _⟩ =>
      (∃ body, r = .register body ∧ tr = [⟨.draw (.urlsafe 16), key⟩] ∧ v.client_id = key ∧
        v.redirect_uris.all redirect_allowed = true) ∨
      (∃ q, r = .authorize q ∧ tr = [⟨.get .client (q.client_id.getD ""), some v⟩] ∧
        v.client_id = key)
  | ⟨.put .pending key v _, _⟩ => Starts E key v r tr
  | ⟨.pop .pending key, _⟩ => r = .as_callback key ∧ tr = []
  | ⟨.put .chain key v _, _⟩ =>
      ∃ seg base, tr = ⟨.draw (.urlsafe 24), key⟩ :: ⟨.draw (.urlsafe 48), v.verifier⟩ ::
        (seg ++ base) ∧ Quiet seg ∧ Entered v.request v.sub r base
  | ⟨.pop .chain key, _⟩ => r = .broker_callback key ∧ tr = []
  | ⟨.put .code key v _, _⟩ =>
      ∃ reads seg base kept, tr = ⟨.draw (.urlsafe 32), key⟩ :: (reads ++ (seg ++ base)) ∧
        Quiet seg ∧ Entered v.request v.sub r base ∧ v.scope = join (E.as_audience :: kept) ∧
        KeptIn E v.sub v.request.scopes kept reads
  | ⟨.pop .code key, _⟩ =>
      ∃ form, IsGrant "authorization_code" form r ∧ key = form.code ∧ tr = []
  | ⟨.put .refresh key v _, _⟩ =>
      ∃ form past, r = .token form ∧ v.client_id = form.client_id ∧ Signed key past tr ∧
        Source E form v past
  | ⟨.get .refresh key, _⟩ =>
      ∃ form, IsGrant "refresh_token" form r ∧ key = form.refresh_token ∧ tr = []
  | ⟨.pop .refresh key, _⟩ =>
      ∃ form u, IsGrant "refresh_token" form r ∧ key = form.refresh_token ∧
        (Refused form u tr ∨ ∃ alive before,
          tr = ⟨.ext (.get_litellm_user u), .ok alive⟩ :: before ∧ Honoured form u before)
  | ⟨.get .dexrt u, _⟩ =>
      ∃ form, IsGrant "refresh_token" form r ∧
        ((∃ rec, tr = [⟨.get .refresh form.refresh_token, some rec⟩] ∧
          rec.client_id = form.client_id ∧ rec.sub = u) ∨
        ∃ n d reply, Replayed form u n d reply tr ∧ reply.result d.rt = .refused)
  | ⟨.put .dexrt u v _, _⟩ =>
      (∃ state pending token, r = .as_callback state ∧
        tr = [⟨.ext (.authorize_access_token state), some token⟩,
          ⟨.pop .pending state, some pending⟩] ∧
        normalized_email token.userinfo = u ∧ u ≠ "" ∧ token.refresh_token = some v.rt ∧
        v.rt ≠ "") ∨
      ∃ form n d reply, IsGrant "refresh_token" form r ∧ Replayed form u n d reply tr ∧
        reply.result d.rt = .accepted v.rt
  | ⟨.pop .dexrt u, _⟩ =>
      ∃ form n d current, IsGrant "refresh_token" form r ∧ Reread form u n d current tr ∧
        (current = some d ∨ current = none ∨ n = 0)
  | ⟨.get .device key, _⟩ =>
      (∃ status sub, Logged key r status sub tr) ∨
      ∃ form, IsGrant DEVICE_GRANT form r ∧ key = form.device_code ∧ tr = []
  | ⟨.put .device key v _, _⟩ => PutsDevice key v r tr
  | ⟨.pop .device key, _⟩ =>
      ∃ form rec, IsGrant DEVICE_GRANT form r ∧ key = form.device_code ∧
        tr = [⟨.get .device key, some rec⟩] ∧ rec.client_id = form.client_id ∧
        rec.status ≠ .pending
  | ⟨.put .device_user key v _, _⟩ =>
      ∃ client_id rec ttl tr₀, r = .device_authorization client_id ∧
        tr = ⟨.put .device v.device_code rec ttl, ()⟩ :: tr₀ ∧ rec.user_code = key
  | ⟨.pop .device_user key, _⟩ =>
      ∃ d rec ttl tr₀, tr = ⟨.put .device d rec ttl, ()⟩ :: tr₀ ∧ rec.user_code = key ∧
        rec.status ≠ .pending
  | ⟨.get .frontkey u, _⟩ =>
      resolves E r = some u ∧ (tr = [] ∨ Locked u tr ∨
        ∃ tr₀, tr = ⟨.ext .sleep, ()⟩ :: ⟨.acquire (mint_lock u) MINT_LOCK_TTL, false⟩ :: tr₀)
  | ⟨.pop .frontkey u, _⟩ =>
      resolves E r = some u ∧ ∃ record reply,
        tr = [⟨.ext (.get_key_info record.enc.plain), reply⟩, ⟨.get .frontkey u, some record⟩] ∧
        key_alive reply = some false
  | ⟨.put .frontkey u v ttl, _⟩ =>
      resolves E r = some u ∧ ttl = none ∧ ∃ minted tr₀,
        tr = ⟨.ext (.key_generate u), .ok minted⟩ :: ⟨.ext (.provision u), .ok ()⟩ :: tr₀ ∧
        minted.key = some v.enc.plain ∧ Minting u tr₀
  | ⟨.acquire name ttl, _⟩ =>
      ∃ u, resolves E r = some u ∧ name = mint_lock u ∧ ttl = MINT_LOCK_TTL ∧ Keyless u tr
  | ⟨.release name, _⟩ => ∃ u, resolves E r = some u ∧ name = mint_lock u ∧ Inside u tr
  | ⟨.ext (.authorize_access_token s), _⟩ =>
      r = .as_callback s ∧ ∃ pending, tr = [⟨.pop .pending s, some pending⟩]
  | ⟨.ext (.ensure_team_and_user u _ _), _⟩ =>
      ∃ state d ttl tr₀, r = .as_callback state ∧ tr = ⟨.put .dexrt u d ttl, ()⟩ :: tr₀
  | ⟨.ext (.dex_refresh rt), _⟩ =>
      ∃ form u n d, IsGrant "refresh_token" form r ∧ rt = d.rt ∧ Holding form u n d tr
  | ⟨.ext (.get_litellm_user u), _⟩ =>
      ∃ form, IsGrant "refresh_token" form r ∧ Honoured form u tr
  | ⟨.ext (.get_key_info k), _⟩ =>
      ∃ u record, resolves E r = some u ∧ k = record.enc.plain ∧
        tr = [⟨.get .frontkey u, some record⟩]
  | ⟨.ext (.key_generate u), _⟩ =>
      resolves E r = some u ∧ ∃ tr₀, tr = ⟨.ext (.provision u), .ok ()⟩ :: tr₀ ∧ Minting u tr₀
  | _ => True

/-- A refresh request that must not succeed: Dex has refused every token it
    was shown, or no token was on record, or LiteLLM does not know the user. -/
def Rejected (tr : AsTrace) : Prop :=
  ((∃ rt reply, (⟨.ext (.dex_refresh rt), reply⟩ : AsEvent) ∈ tr) ∧
    ∀ rt reply, (⟨.ext (.dex_refresh rt), reply⟩ : AsEvent) ∈ tr → reply.result rt = .refused) ∨
  (∃ u, (⟨.get .dexrt u, none⟩ : AsEvent) ∈ tr) ∨
  ∃ u, (⟨.ext (.get_litellm_user u), .ok false⟩ : AsEvent) ∈ tr

/-- What stands behind a response: a token pair is the one just stored, and a
    rejected refresh request has consumed its token. -/
def Answers (r : Request) (tr : AsTrace) (res : Response) : Prop :=
  (∀ access refresh scope expires_in, res = .tokens access refresh scope expires_in →
    ∃ v ttl past, tr = ⟨.put .refresh refresh v ttl, ()⟩ :: past ∧ access.sub = v.sub ∧
      access.client_id = .str v.client_id ∧ access.scope = v.scope ∧ scope = v.scope) ∧
  ∀ form, IsGrant "refresh_token" form r → Rejected tr →
    ∃ a, (⟨.pop .refresh form.refresh_token, a⟩ : AsEvent) ∈ tr

end AlitellmAuth
