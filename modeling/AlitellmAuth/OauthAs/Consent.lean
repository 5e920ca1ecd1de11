import AlitellmAuth.OauthAs.Outage

/-! # The consent chain

    A login that asks for services the user has not granted sends the user from
    broker to broker, one redirect and one callback for each, and ends with a
    code for what is granted by then.

    * `chain_next_within`: `_chain_next` and `_skip_and_continue` as they call
      each other, with a bound on the depth of the calls.
    * `Ceremony`: a login that has come to its end, with all its redirects.
    * `PartOf`: each redirect is for a later service than the one before.
    * `consent_chain`: every ceremony ends, and what it ends with.
-/

namespace AlitellmAuth

open Interleave Text

variable {E : Env} {request : AuthRequest} {sub : String} {o : AsOutside} {w : AsWorld}
  {tr : AsTrace} {todo : List String}

/-! ## The mutual recursion -/

section
variable (E request sub)

mutual

/-- `_chain_next`; `none` if the calls are nested too deeply. -/
def chain_next_within : Nat → List String → P (Option Response)
  | 0, _ => return none
  | fuel + 1, todo =>
      match todo with
      | [] => return some .internal_error
      | scope :: rest =>
          match E.services.lookup scope with
          | none => return some .internal_error
          | some svc => do
              match ← broker_client_id svc.broker with
              | .failed => skip_and_continue_within fuel (scope :: rest)
              | .crashed => return some .internal_error
              | .ok client_id => do
                  let verifier ← token_urlsafe 48
                  let chain_id ← token_urlsafe 24
                  Store.put .chain chain_id { request, sub, todo := scope :: rest, verifier }
                    (some CHAIN_TTL)
                  let login_hint ← signer_issue E.as_issuer svc.store sub ""
                    ((E.signs client_id).getD .null) HINT_TTL
                  if !E.sends client_id then return some .internal_error
                  else
                    return some (.broker_redirect svc.broker svc.store chain_id
                      (s256 E.sha256 verifier) client_id login_hint)

/-- `_skip_and_continue`; `none` if the calls are nested too deeply. -/
def skip_and_continue_within : Nat → List String → P (Option Response)
  | 0, _ => return none
  | fuel + 1, todo =>
      match todo.tail with
      | [] => do return some (← finish E request sub)
      | scope :: rest => chain_next_within fuel (scope :: rest)

end

end

/-- One service more: the call skips it as `chain_next` does. -/
theorem chain_next_step {scope : String} {rest : List String} {n : Nat}
    (hskip : skip_and_continue_within E request sub n (scope :: rest) = (do
      return some (← chain_next E request sub rest))) :
    chain_next_within E request sub (n + 1) (scope :: rest) = (do
      return some (← chain_next E request sub (scope :: rest))) := by
  unfold chain_next_within chain_next
  dsimp only
  cases E.services.lookup scope with
  | none => rfl
  | some svc =>
    dsimp only
    rw [Prog.bind_assoc]
    congr 1
    funext result
    cases result with
    | failed => exact hskip
    | crashed => rfl
    | ok client_id =>
      dsimp only
      cases E.sends client_id with
      | true => rfl
      | false => rfl

/-- The calls end: they are nested at most twice as deep as there are services. -/
theorem chain_next_terminates (scope : String) (rest : List String) (n : Nat)
    (h : 2 * (scope :: rest).length ≤ n) :
    chain_next_within E request sub n (scope :: rest) = (do
      return some (← chain_next E request sub (scope :: rest))) := by
  induction rest generalizing scope n with
  | nil =>
    obtain ⟨n, rfl⟩ : ∃ m, n = m + 2 := ⟨n - 2, by simp at h; omega⟩
    apply chain_next_step
    rfl
  | cons next rest ih =>
    obtain ⟨n, rfl⟩ : ∃ m, n = m + 2 := ⟨n - 2, by simp at h; omega⟩
    apply chain_next_step
    exact ih next n (by simp at h ⊢; omega)

/-! ## What the projection says -/

/-- The services of a request that the reads say are granted, in the order of
    the request. The audience is no service, and neither is a scope that is not
    configured. -/
inductive Held (E : Env) (sub : String) : List String → AsTrace → List String → Prop where
  | nil : Held E sub [] [] []
  | skip {s : String} {rest : List String} {reads : AsTrace} {kept : List String}
      (hskip : s = E.as_audience ∨ E.services.lookup s = none) (h : Held E sub rest reads kept) :
      Held E sub (s :: rest) reads kept
  | read {s : String} {rest : List String} {reads : AsTrace} {kept : List String} {svc : Service}
      {value : Projection} (hs : s ≠ E.as_audience) (hsvc : E.services.lookup s = some svc)
      (h : Held E sub rest reads kept) :
      Held E sub (s :: rest) (reads ++ [⟨.ext (.projection svc.store sub), value⟩])
        (if value.grants then s :: kept else kept)

variable (E sub o) in
theorem granted_among_alone (requested : List String) (w : AsWorld) (tr : AsTrace) :
    ∃ reads, (alone o w tr (granted_among E sub E.as_audience requested)).trace = reads ++ tr ∧
      Held E sub requested reads
        (alone o w tr (granted_among E sub E.as_audience requested)).result := by
  induction requested generalizing w tr with
  | nil => exact ⟨[], rfl, .nil⟩
  | cons s rest ih =>
    unfold granted_among
    rw [alone_bind, alone_bind]
    -- the audience and unknown services are passed over without a read
    by_cases hs : s = E.as_audience
    · have hkeeps : keeps E sub E.as_audience s = .ret false := by
        unfold keeps
        rw [if_neg (by simpa using hs)]
        rfl
      rw [hkeeps]
      obtain ⟨reads, htrace, hheld⟩ := ih w tr
      exact ⟨reads, htrace, .skip (.inl hs) hheld⟩
    · have hkeeps : keeps E sub E.as_audience s = granted E sub s := by
        unfold keeps
        rw [if_pos (by simpa using hs)]
      rw [hkeeps]
      unfold granted
      cases hsvc : E.services.lookup s with
      | none =>
        obtain ⟨reads, htrace, hheld⟩ := ih w tr
        exact ⟨reads, htrace, .skip (.inr hsvc) hheld⟩
      | some svc =>
        dsimp only
        rw [alone_ext]
        let value := o.reply tr (.projection svc.store sub)
        let read : AsEvent := ⟨.ext (.projection svc.store sub), value⟩
        obtain ⟨reads, htrace, hheld⟩ := ih (w.tick (o.wait tr)) (read :: tr)
        refine ⟨reads ++ [read], ?_, ?_⟩
        · rw [List.append_assoc]
          exact htrace
        · exact .read hs hsvc hheld

/-! ## The end of the chain -/

/-- A code was issued for the request as it was made, with the audience and the
    services that are granted now. -/
def Finished (E : Env) (request : AuthRequest) (sub : String) (e : AsEnded Response) : Prop :=
  ∃ code kept reads base ttl, Held E sub request.scopes reads kept ∧
    e.result = .client_redirect request.redirect_uri (with_state [("code", code)] request.state) ∧
    (∃ expiry, e.world.store .code code =
      some (⟨request, sub, join (E.as_audience :: kept)⟩, expiry)) ∧
    e.trace = ⟨.put .code code ⟨request, sub, join (E.as_audience :: kept)⟩ ttl, ()⟩ ::
      ⟨.draw (.urlsafe 32), code⟩ :: (reads ++ base)

theorem stored (k : Kind) (st : (k : Kind) → String → Option (k.Rec × Option Nat)) (key : String)
    (v : k.Rec) (expiry : Option Nat) :
    update st k key (some (v, expiry)) k key = some (v, expiry) :=
  update_same st k key _

theorem finish_alone (w : AsWorld) (tr : AsTrace) :
    Finished E request sub (alone o w tr (finish E request sub)) := by
  unfold finish scopes_for
  rw [Prog.bind_assoc, alone_bind]
  obtain ⟨reads, htrace, hheld⟩ := granted_among_alone E sub o request.scopes w tr
  generalize alone o w tr (granted_among E sub E.as_audience request.scopes) = e at htrace hheld ⊢
  obtain ⟨w₁, tr₁, kept⟩ := e
  obtain rfl : tr₁ = reads ++ tr := htrace
  show Finished E request sub (alone o w₁ (reads ++ tr) (do
    let code ← token_urlsafe 32
    Store.put .code code { request, sub, scope := join (E.as_audience :: kept) } (some CODE_TTL)
    return .client_redirect request.redirect_uri (with_state [("code", code)] request.state)))
  exact ⟨o.draw (reads ++ tr) (.urlsafe 32), kept, reads, tr, some CODE_TTL, hheld, rfl,
    ⟨_, stored .code w₁.store _ _ _⟩, rfl⟩

/-! ## One redirect -/

/-- We are a client of the broker: the id was remembered, or the broker has just
    given it to us. -/
def KnownClient (broker : String) (client_id : BrokerValue) (tr : AsTrace) : Prop :=
  (⟨.get .brokerclient broker, some ⟨client_id⟩⟩ : AsEvent) ∈ tr ∨
  ∃ reply, (⟨.ext (.broker_register broker), reply⟩ : AsEvent) ∈ tr ∧
    registered_client_id reply = .ok client_id

/-- The client id that we have at a broker cannot be sent there, and the redirect
    ends in an exception. -/
def Unsent (E : Env) (e : AsEnded Response) : Prop :=
  e.result = .internal_error ∧
    ∃ broker client_id, KnownClient broker client_id e.trace ∧ E.sends client_id = false

/-- The answers of the brokers: none is a success with a body that is JSON and
    no object, and every address is one that httpx accepts. -/
def Brokers (o : AsOutside) : Prop :=
  ∀ tr broker, registered_client_id (o.reply tr (.broker_register broker)) ≠ .crashed

/-- The user is sent to the broker of a service, at which we are registered, and
    the services from that one on are stored. -/
def Visit (E : Env) (request : AuthRequest) (sub scope : String) (rest : List String)
    (e : AsEnded Response) : Prop :=
  ∃ svc chain_id challenge client_id hint verifier, E.services.lookup scope = some svc ∧
    e.result = .broker_redirect svc.broker svc.store chain_id challenge client_id hint ∧
    (∃ expiry, e.world.store .chain chain_id =
      some (⟨request, sub, scope :: rest, verifier⟩, expiry)) ∧
    KnownClient svc.broker client_id e.trace

theorem broker_client_id_alone (hbrokers : Brokers o) (broker : String) (w : AsWorld) (tr : AsTrace) :
    (alone o w tr (broker_client_id broker)).result = .failed ∨
    ∃ client_id, (alone o w tr (broker_client_id broker)).result = .ok client_id ∧
      KnownClient broker client_id (alone o w tr (broker_client_id broker)).trace := by
  unfold broker_client_id
  rw [alone_get]
  cases (w.tick (o.wait tr)).lookup .brokerclient broker with
  | some cached => exact .inr ⟨cached.client_id, rfl, .inl List.mem_cons_self⟩
  | none =>
    dsimp only
    rw [alone_ext]
    let tr₁ : AsTrace := ⟨.get .brokerclient broker, none⟩ :: tr
    let reply := o.reply tr₁ (.broker_register broker)
    cases hreply : registered_client_id reply with
    | failed => exact .inl rfl
    | crashed => exact absurd hreply (hbrokers _ _)
    | ok client_id =>
      refine .inr ⟨client_id, rfl, .inr ⟨reply, ?_, hreply⟩⟩
      exact List.mem_cons_of_mem _ List.mem_cons_self

theorem chain_next_alone (hbrokers : Brokers o) (hall : ∀ s ∈ todo, E.offers s = true) (w : AsWorld)
    (tr : AsTrace) :
    Finished E request sub (alone o w tr (chain_next E request sub todo)) ∨
    Unsent E (alone o w tr (chain_next E request sub todo)) ∨
    ∃ skipped scope rest, todo = skipped ++ scope :: rest ∧
      Visit E request sub scope rest (alone o w tr (chain_next E request sub todo)) := by
  induction todo generalizing w tr with
  | nil => exact .inl (finish_alone w tr)
  | cons scope rest ih =>
    obtain ⟨svc, hsvc⟩ := Option.isSome_iff_exists.mp (hall scope List.mem_cons_self)
    unfold chain_next
    rw [hsvc]
    dsimp only
    rw [alone_bind]
    have hclient := broker_client_id_alone hbrokers svc.broker w tr
    generalize alone o w tr (broker_client_id svc.broker) = e at hclient ⊢
    rcases hclient with hfailed | ⟨client_id, hok, hregistered⟩
    · -- the service is left out
      rw [hfailed]
      rcases ih (fun s hs => hall s (List.mem_cons_of_mem _ hs)) e.world e.trace with
        hfinished | hunsent | ⟨skipped, scope', rest', rfl, hvisit⟩
      · exact .inl hfinished
      · exact .inr (.inl hunsent)
      · exact .inr (.inr ⟨scope :: skipped, scope', rest', rfl, hvisit⟩)
    · rw [hok]
      -- the client id stays known, whatever is done after
      have hknown : ∀ p : P Response, KnownClient svc.broker client_id
          (alone o e.world e.trace p).trace := by
        intro p
        rcases hregistered with hcached | ⟨reply, hmem, hreply⟩
        · exact .inl ((alone_suffix _).subset hcached)
        · exact .inr ⟨reply, (alone_suffix _).subset hmem, hreply⟩
      dsimp only
      cases hsends : E.sends client_id with
      | false => exact .inr (.inl ⟨rfl, svc.broker, client_id, hknown _, hsends⟩)
      | true =>
        exact .inr (.inr ⟨[], scope, rest, rfl, svc, _, _, client_id, _,
          o.draw e.trace (.urlsafe 48), hsvc, rfl, ⟨_, stored .chain e.world.store _ _ _⟩,
          hknown _⟩)

/-! ## The ceremony -/

/-- A login that has come to its end: the redirects to brokers, each with a
    callback on the record it has left, and how it ended. -/
inductive Ceremony (E : Env) : AsWorld → P Response → List (AsEnded Response) → AsEnded Response →
    Prop where
  | ends {w : AsWorld} {p : P Response} {o : AsOutside} (hbrokers : Brokers o)
      (h : ∀ broker scope chain_id challenge client_id hint, (alone o w [] p).result ≠
        .broker_redirect broker scope chain_id challenge client_id hint) :
      Ceremony E w p [] (alone o w [] p)
  | visits {w w' : AsWorld} {p : P Response} {o : AsOutside} {visits : List (AsEnded Response)}
      {last : AsEnded Response} {broker scope chain_id challenge : String} {client_id : BrokerValue}
      {hint : Claims} (hbrokers : Brokers o)
      (h : (alone o w [] p).result =
        .broker_redirect broker scope chain_id challenge client_id hint)
      (hkept : w'.store .chain chain_id = (alone o w [] p).world.store .chain chain_id)
      (hrest : Ceremony E w' (broker_callback E chain_id) visits last) :
      Ceremony E w p (alone o w [] p :: visits) last

/-- Every redirect is for a service of the list that comes after those before. -/
inductive PartOf (E : Env) (request : AuthRequest) (sub : String) :
    List String → List (AsEnded Response) → Prop where
  | nil {todo : List String} : PartOf E request sub todo []
  | cons {skipped : List String} {scope : String} {rest : List String} {e : AsEnded Response}
      {visits : List (AsEnded Response)} (h : Visit E request sub scope rest e)
      (hrest : PartOf E request sub rest visits) :
      PartOf E request sub (skipped ++ scope :: rest) (e :: visits)

theorem PartOf.length {visits : List (AsEnded Response)} (h : PartOf E request sub todo visits) :
    visits.length ≤ todo.length := by
  induction h with
  | nil => exact Nat.zero_le _
  | cons h hrest ih =>
    simp only [List.length_cons, List.length_append]
    omega

/-- The callback found no record: it has expired. -/
def Stale (e : AsEnded Response) : Prop :=
  e.result = .html_error 400 "no authorization is in progress — start again from your client"

/-- The program goes on with the chain, unless its record is gone. -/
def Resumes (E : Env) (request : AuthRequest) (sub : String) (todo : List String) (w : AsWorld)
    (p : P Response) : Prop :=
  ∀ o, Stale (alone o w [] p) ∨
    ∃ w₁ tr₁, alone o w [] p = alone o w₁ tr₁ (chain_next E request sub todo)

theorem callback_resumes {scope chain_id verifier : String} {rest : List String}
    {expiry : Option Nat}
    (h : w.store .chain chain_id = some (⟨request, sub, scope :: rest, verifier⟩, expiry)) :
    Resumes E request sub rest w (broker_callback E chain_id) := by
  intro o
  unfold broker_callback
  rw [alone_pop]
  cases hfound : (w.tick (o.wait [])).lookup .chain chain_id with
  | none => exact .inl rfl
  | some v =>
    obtain ⟨expiry', hstore⟩ := store_of_lookup hfound
    obtain ⟨rfl, -⟩ : v = ⟨request, sub, scope :: rest, verifier⟩ ∧ _ :=
      Prod.mk.inj (Option.some.inj (hstore.symm.trans h))
    exact .inr ⟨_, _, rfl⟩

/-- A ceremony sends the user to brokers in the order of the list, and ends with
    a code unless a record has expired or a client id cannot be sent. -/
theorem ceremony_descends {p : P Response} {visits : List (AsEnded Response)}
    {last : AsEnded Response} (h : Ceremony E w p visits last)
    (hall : ∀ s ∈ todo, E.offers s = true) (hresumes : Resumes E request sub todo w p) :
    PartOf E request sub todo visits ∧
      (Stale last ∨ Unsent E last ∨ Finished E request sub last) := by
  induction h generalizing todo with
  | @ends w p o hbrokers h =>
    refine ⟨.nil, ?_⟩
    rcases hresumes o with hstale | ⟨w₁, tr₁, heq⟩
    · exact .inl hstale
    · rw [heq] at h ⊢
      rcases chain_next_alone hbrokers hall w₁ tr₁ with
        hfinished | hunsent | ⟨_, _, _, _, hvisit⟩
      · exact .inr (.inr hfinished)
      · exact .inr (.inl hunsent)
      · obtain ⟨svc, chain_id, challenge, client_id, hint, _, _, hresult, _⟩ := hvisit
        exact absurd hresult (h _ _ _ _ _ _)
  | @visits w w' p o visits last broker scope' chain_id challenge client_id hint hbrokers h hkept hrest
      ih =>
    rcases hresumes o with hstale | ⟨w₁, tr₁, heq⟩
    · rw [hstale] at h
      cases h
    · rw [heq] at h hkept ⊢
      rcases chain_next_alone hbrokers hall w₁ tr₁ with
        hfinished | hunsent | ⟨skipped, scope, rest, rfl, hvisit⟩
      · obtain ⟨_, _, _, _, _, _, hresult, _⟩ := hfinished
        rw [hresult] at h
        cases h
      · rw [hunsent.1] at h
        cases h
      · obtain ⟨svc, chain_id', _, _, _, verifier, hsvc, hresult, ⟨expiry, hstore⟩, hregistered⟩ :=
          hvisit
        -- the visit took the first service that registers and left the rest for later
        have hvisit : Visit E request sub scope rest
            (alone o w₁ tr₁ (chain_next E request sub (skipped ++ scope :: rest))) :=
          ⟨svc, chain_id', _, _, _, verifier, hsvc, hresult, ⟨expiry, hstore⟩, hregistered⟩
        rw [hresult] at h
        cases h
        have hrest := ih (fun s hs => hall s (by simp [hs])) (callback_resumes (hkept.trans hstore))
        exact ⟨.cons hvisit hrest.1, hrest.2⟩

/-- The calls end. One login sends the user to at most as many brokers as there
    are services to visit, in their order and only where we are registered, and
    every callback goes on with fewer services. Unless a record has expired, or a
    broker has given us a client id that cannot be sent, it ends with a code for
    the request as it was made, which carries the audience and then the requested
    services that are granted. -/
theorem consent_chain (hne : todo ≠ []) (hall : ∀ s ∈ todo, E.offers s = true) :
    (∀ n, 2 * todo.length ≤ n → chain_next_within E request sub n todo = (do
      return some (← chain_next E request sub todo))) ∧
    ∀ w visits last, Ceremony E w (chain_next E request sub todo) visits last →
      PartOf E request sub todo visits ∧ visits.length ≤ todo.length ∧
      (Stale last ∨ Unsent E last ∨ Finished E request sub last) := by
  refine ⟨fun n hn => ?_, fun w visits last h => ?_⟩
  · cases todo with
    | nil => exact absurd rfl hne
    | cons scope rest => exact chain_next_terminates scope rest n hn
  · obtain ⟨hdescends, hlast⟩ := ceremony_descends h hall fun o => .inr ⟨_, _, rfl⟩
    exact ⟨hdescends, hdescends.length, hlast⟩

/-! ## Two logins -/

/-- A broker that registers us or not, and a user that has granted everything. -/
def consent_outside (registers : Bool) : AsOutside where
  reply := fun _ e => match e with
    | .authorize_access_token _ => none
    | .dex_refresh _ => .transport_error
    | .ensure_team_and_user .. => .transport_error
    | .get_litellm_user _ => .transport_error
    | .projection .. => .json (.obj [("granted", .bool true)])
    | .broker_register _ =>
        if registers then .response 201 (some (PyValue.dict [("client_id", PyValue.text "us")]))
        else .response 500 none
    | .get_key_info _ => .transport_error
    | .provision _ => .transport_error
    | .key_generate _ => .transport_error
    | .sleep => ()
  draw := fun _ _ => "drawn"
  wait := fun _ => 1

theorem consent_brokers (registers : Bool) : Brokers (consent_outside registers) := by
  intro tr broker
  cases registers with
  | true => exact nofun
  | false => exact nofun

/-- A request for one service. -/
def consent_request (scope : String) : AuthRequest :=
  ⟨"cli", "http://localhost/cb", some "s", "challenge", [scope]⟩

/-- The user is sent to the broker, comes back, and gets a code. -/
theorem consent_chain_sample : ∃ visits last,
    Ceremony sample session_world (chain_next sample (consent_request "drive") "ann" ["drive"]) visits
      last ∧ visits.length ≤ 1 ∧ Finished sample (consent_request "drive") "ann" last := by
  let first := alone (consent_outside true) session_world []
    (chain_next sample (consent_request "drive") "ann" ["drive"])
  let last := alone (consent_outside true) first.world [] (broker_callback sample "drawn")
  have hends : Ceremony sample first.world (broker_callback sample "drawn") [] last :=
    .ends (consent_brokers true) fun _ _ _ _ _ _ => nofun
  have hceremony : Ceremony sample session_world
      (chain_next sample (consent_request "drive") "ann" ["drive"]) [first] last :=
    .visits (consent_brokers true) rfl rfl hends
  obtain ⟨-, hlength, hlast⟩ := (consent_chain (by decide) (by decide)).2 _ _ _ hceremony
  refine ⟨[first], last, hceremony, hlength, ?_⟩
  rcases hlast with hstale | hunsent | hfinished
  · exact absurd hstale nofun
  · exact absurd hunsent.1 nofun
  · exact hfinished

/-- A deployment with a service that is called like the audience. -/
def audience_service : Env :=
  { sample with services := [("litellm", { store := "llm", broker := "https://broker.example" })] }

/-- Such a service is requested and granted, and not carried a second time. -/
theorem audience_not_repeated : ∃ e, Ceremony audience_service session_world
      (chain_next audience_service (consent_request "litellm") "ann" ["litellm"]) [] e ∧
    (consent_request "litellm").scopes.filter audience_service.offers = ["litellm"] ∧
    (∀ tr store email, ((consent_outside false).reply tr (.projection store email)).grants = true) ∧
    (∃ code expiry, e.result = .client_redirect "http://localhost/cb" [("code", code), ("state", "s")] ∧
      e.world.store .code code = some (⟨consent_request "litellm", "ann", "litellm"⟩, expiry)) ∧
    join (audience_service.as_audience :: ["litellm"]) ≠ "litellm" := by
  refine ⟨_, .ends (consent_brokers false) ?_, by decide, fun _ _ _ => rfl, ⟨"drawn", ?_⟩, by decide⟩
  · exact fun _ _ _ _ _ _ => nofun
  · exact ⟨some 124, rfl, rfl⟩

end AlitellmAuth
