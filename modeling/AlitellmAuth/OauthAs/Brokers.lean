import AlitellmAuth.OauthAs.Consent
import AlitellmAuth.OauthAs.Hints

/-! # Brokers that misbehave

    A sign-in passes over the brokers that do not register us. It is carried on
    whatever they answer, but for two answers whose exception `_chain_next` does
    not catch, and for client ids that it cannot send on.

    * `BrokerReply.caught`: the answers that cost no more than the service.
    * `KnownClient`, `Env.sends`: the client ids that a broker has given us, and
      those that fit into a hint and a query.
    * `Moved`: the sign-in goes on, to a broker or back to the client.
    * `Settles`: what the two callbacks come to, read off the handlers.
    * `sign_in_goes_on_iff`: a sign-in goes on if and only if every answer that
      it has got from a broker is caught and every client id can be sent.
-/

namespace AlitellmAuth

open Interleave Text

variable {E : Env} {request : AuthRequest} {sub : String} {tr : AsTrace}

/-! ## Answers -/

/-- What the answer raises, if it raises, is among `httpx.HTTPError`,
    `ValueError` and `KeyError`. -/
def BrokerReply.caught : BrokerReply → Bool
  | .invalid_url => false
  | .transport_error => true
  | .response _ none => true
  | .response _ (some (.obj _)) => true
  | .response status (some _) => status < 200 || 300 ≤ status

theorem registered_not_crashed {status : Nat} {body : Option BrokerValue}
    (h : body = none ∨ ∃ fields, body = some (.obj fields)) :
    registered_client_id (.response status body) ≠ .crashed := by
  unfold registered_client_id
  dsimp only
  split
  · exact nofun
  · rcases h with rfl | ⟨fields, rfl⟩
    · exact nofun
    · dsimp only
      split
      · exact nofun
      · exact nofun

theorem registered_no_object {status : Nat} {body : BrokerValue} (h : ∀ fields, body ≠ .obj fields) :
    registered_client_id (.response status (some body)) = .crashed ↔
      (status < 200 || 300 ≤ status) = false := by
  unfold registered_client_id
  dsimp only
  split
  · next hstatus => exact iff_of_false nofun (by simp [hstatus])
  · next hstatus =>
    split
    · contradiction
    · next fields heq => exact absurd (Option.some.inj heq) (h fields)
    · exact iff_of_true rfl (by simpa using hstatus)

/-- By cases on the body: where it is JSON and no object, the status decides. -/
theorem registered_crashed_iff {reply : BrokerReply} :
    registered_client_id reply = .crashed ↔ reply.caught = false := by
  cases reply with
  | invalid_url => exact iff_of_true rfl rfl
  | transport_error => exact iff_of_false nofun nofun
  | response status body =>
    cases body with
    | none => exact iff_of_false (registered_not_crashed (.inl rfl)) nofun
    | some body =>
      cases body with
      | obj fields => exact iff_of_false (registered_not_crashed (.inr ⟨_, rfl⟩)) nofun
      | null | bool | int | float | str | arr => exact registered_no_object nofun

/-- An answer of a broker is one that is caught, and a client id that it gave us,
    now or before, can be sent. -/
def tame (E : Env) : AsEvent → Bool
  | ⟨.ext (.broker_register _), reply⟩ => BrokerReply.caught reply &&
      match registered_client_id reply with
      | .ok client_id => E.sends client_id
      | _ => true
  | ⟨.get .brokerclient _, some cached⟩ => E.sends cached.client_id
  | _ => true

/-- Every one of a request is. -/
def Caught (E : Env) (tr : AsTrace) : Prop := ∀ e ∈ tr, tame E e = true

theorem tame_register_iff {broker : String} {reply : BrokerReply} :
    tame E ⟨.ext (.broker_register broker), reply⟩ = true ↔ reply.caught = true ∧
      ∀ client_id, registered_client_id reply = .ok client_id → E.sends client_id = true := by
  show (BrokerReply.caught reply && _) = true ↔ _
  cases registered_client_id reply with
  | ok client_id => simp
  | failed => simp
  | crashed => simp

theorem caught_iff : Caught E tr ↔
    (∀ broker reply, (⟨.ext (.broker_register broker), reply⟩ : AsEvent) ∈ tr →
      BrokerReply.caught reply = true) ∧
    ∀ broker client_id, KnownClient broker client_id tr → E.sends client_id = true := by
  constructor
  · intro h
    refine ⟨fun broker reply hmem => (tame_register_iff.mp (h _ hmem)).1, ?_⟩
    rintro broker client_id (hcached | ⟨reply, hmem, hreply⟩)
    · exact h _ hcached
    · exact (tame_register_iff.mp (h _ hmem)).2 client_id hreply
  · rintro ⟨hcaught, hknown⟩ e hmem
    unfold tame
    split
    · next broker reply =>
      refine (@tame_register_iff E broker reply).mpr ⟨hcaught _ _ hmem, ?_⟩
      intro client_id hreply
      exact hknown _ client_id (.inr ⟨reply, hmem, hreply⟩)
    · exact hknown _ _ (.inl hmem)
    · rfl

theorem Caught.append {seg : AsTrace} (h : Caught E seg) (h' : Caught E tr) :
    Caught E (seg ++ tr) := by
  intro e he
  rcases List.mem_append.mp he with he | he
  · exact h e he
  · exact h' e he

theorem ReadsOf.caught (h : ReadsOf sub tr) : Caught E tr := by
  intro e he
  obtain ⟨store, value, rfl⟩ := h e he
  rfl

/-! ## How a sign-in goes on -/

/-- The broker of the service was asked, and has given us no client id. -/
def Unregistered (E : Env) (tr : AsTrace) (s : String) : Prop :=
  ∃ svc reply, E.services.lookup s = some svc ∧
    (⟨.ext (.broker_register svc.broker), reply⟩ : AsEvent) ∈ tr ∧
    ∀ client_id, registered_client_id reply ≠ .ok client_id

/-- No requested service is missing that every read of its projection says is
    granted. -/
def Complete (E : Env) (sub : String) (requested scopes : List String) (tr : AsTrace) : Prop :=
  ∀ s ∈ requested, ∀ svc, E.services.lookup s = some svc →
    (∀ value, (⟨.ext (.projection svc.store sub), value⟩ : AsEvent) ∈ tr → value.grants = true) →
    s ∈ scopes

/-- The sign-in goes on: to the first of the services that registers us, with
    that service and all behind it in the chain record, or back to the client
    with a code if none does. -/
inductive Moved (E : Env) (request : AuthRequest) (sub : String) (todo : List String) (tr : AsTrace) :
    Response → Prop where
  | broker {skipped : List String} {scope : String} {rest : List String} {svc : Service}
      {verifier chain_id challenge : String} {client_id : BrokerValue} {hint : Claims}
      {ttl : Option Nat}
      (htodo : todo = skipped ++ scope :: rest) (hskipped : ∀ s ∈ skipped, Unregistered E tr s)
      (hsvc : E.services.lookup scope = some svc) (hknown : KnownClient svc.broker client_id tr)
      (hput : (⟨.put .chain chain_id ⟨request, sub, scope :: rest, verifier⟩ ttl, ()⟩ : AsEvent) ∈ tr) :
      Moved E request sub todo tr
        (.broker_redirect svc.broker svc.store chain_id challenge client_id hint)
  | client {code : String} {scopes : List String} {ttl : Option Nat}
      (hskipped : ∀ s ∈ todo, Unregistered E tr s)
      (hput : (⟨.put .code code ⟨request, sub, join scopes⟩ ttl, ()⟩ : AsEvent) ∈ tr)
      (hcomplete : Complete E sub request.scopes scopes tr) :
      Moved E request sub todo tr
        (.client_redirect request.redirect_uri (with_state [("code", code)] request.state))

/-- The services a callback has to visit: after the login the requested ones
    that are not granted, after a broker those that were left in the record. -/
inductive Todo (E : Env) (request : AuthRequest) (sub : String) (tr : AsTrace) :
    Request → List String → Prop where
  | login {state : String} {todo : List String} (hsub : todo.Sublist request.scopes)
      (hall : ∀ s ∈ todo, E.offers s = true)
      (hrest : ∀ s ∈ request.scopes, E.offers s = true → s ∉ todo → GrantedIn E sub s tr) :
      Todo E request sub tr (.as_callback state) todo
  | broker {state : String} {chain : Chain}
      (hmem : (⟨.pop .chain state, some chain⟩ : AsEvent) ∈ tr) :
      Todo E request sub tr (.broker_callback state) chain.todo.tail

/-- The sign-in of a callback goes on. -/
def GoesOn (E : Env) (request : AuthRequest) (sub : String) (r : Request) (tr : AsTrace)
    (res : Response) : Prop :=
  ∃ todo, Todo E request sub tr r todo ∧ Moved E request sub todo tr res

/-! ## Sub-programs -/

/-- The service was still to visit in the chain record the thread has taken. -/
def Left (tr : AsTrace) (s : String) : Prop :=
  ∃ state chain, (⟨.pop .chain state, some chain⟩ : AsEvent) ∈ tr ∧ s ∈ chain.todo

theorem Left.mono {tr' : AsTrace} {s : String} (h : Left tr s) (htr : tr ⊆ tr') : Left tr' s := by
  obtain ⟨state, chain, hmem, hs⟩ := h
  exact ⟨state, chain, htr hmem, hs⟩

/-- A chain record carries services of the registry, besides those that were
    left in the one before. -/
def Offering (E : Env) (tr : AsTrace) : AsEvent → Prop
  | ⟨.put .chain _ v _, _⟩ => ∀ s ∈ v.todo, E.offers s = true ∨ Left tr s
  | _ => True

theorem ReadsOf.nil : ReadsOf sub [] :=
  List.forall_mem_nil _

theorem granted_reads (email s : String) (tr : AsTrace) :
    (granted E email s).Along (Offering E) (After tr fun seg g => ReadsOf email seg ∧
      ∀ svc, E.services.lookup s = some svc → ∃ value,
        (⟨.ext (.projection svc.store email), value⟩ : AsEvent) ∈ seg ∧ g = value.grants) tr := by
  unfold granted
  split
  · next hnone =>
    refine ⟨[], rfl, .nil, fun svc hsvc => ?_⟩
    rw [hnone] at hsvc
    cases hsvc
  · next svc hsvc =>
    refine along_await fun value => ⟨trivial, ⟨[_], rfl, by simp [ReadsOf], ?_⟩⟩
    intro svc' hsvc'
    cases hsvc.symm.trans hsvc'
    exact ⟨value, List.mem_cons_self, rfl⟩

theorem ReadsOf.append {seg : AsTrace} (h : ReadsOf sub seg) (h' : ReadsOf sub tr) :
    ReadsOf sub (seg ++ tr) := by
  intro e he
  rcases List.mem_append.mp he with he | he
  · exact h e he
  · exact h' e he

theorem Complete.mono {requested scopes scopes' : List String} {tr' : AsTrace}
    (h : Complete E sub requested scopes tr) (htr : tr ⊆ tr') (hscopes : scopes ⊆ scopes') :
    Complete E sub requested scopes' tr' :=
  fun s hs svc hsvc hgrants =>
    hscopes (h s hs svc hsvc fun value hmem => hgrants value (htr hmem))

/-- The audience is put in front of what is kept, so it counts as kept. -/
theorem granted_among_complete (email : String) (requested : List String) (tr : AsTrace) :
    (granted_among E email E.as_audience requested).Along (Offering E)
      (After tr fun seg kept => ReadsOf email seg ∧
        Complete E email requested (E.as_audience :: kept) seg) tr := by
  induction requested generalizing tr with
  | nil => exact ⟨[], rfl, .nil, nofun⟩
  | cons s rest ih =>
    -- the read for this scope, before those for the rest
    have hkeeps : (keeps E email E.as_audience s).Along (Offering E)
        (After tr fun seg keep => ReadsOf email seg ∧ (s ≠ E.as_audience →
          ∀ svc, E.services.lookup s = some svc → ∃ value,
            (⟨.ext (.projection svc.store email), value⟩ : AsEvent) ∈ seg ∧ keep = value.grants))
        tr := by
      unfold keeps
      split
      · refine along_mono (fun _ _ h => h) ?_ (granted_reads email s tr)
        rintro _ keep ⟨seg, rfl, hreads, hkeep⟩
        exact ⟨seg, rfl, hreads, fun _ => hkeep⟩
      · next hs => exact ⟨[], rfl, .nil, fun hne => absurd (by simpa using hne) hs⟩
    rw [granted_among]
    refine along_bind hkeeps ?_
    rintro _ keep ⟨seg, rfl, hreads, hkeep⟩
    refine along_bind (ih (seg ++ tr)) ?_
    rintro _ out ⟨seg', rfl, hreads', hcomplete⟩
    refine ⟨seg' ++ seg, by simp, hreads'.append hreads, ?_⟩
    intro s' hs' svc hsvc hgrants
    rcases List.mem_cons.mp hs' with rfl | hrest
    -- the audience leads the list and is not looked up
    · by_cases haud : s' = E.as_audience
      · rw [haud]
        exact List.mem_cons_self
      · obtain ⟨value, hmem, rfl⟩ := hkeep haud svc hsvc
        have hgranted := hgrants value (List.mem_append_right _ hmem)
        show s' ∈ E.as_audience :: if value.grants = true then s' :: out else out
        rw [if_pos hgranted]
        exact List.mem_cons_of_mem _ List.mem_cons_self
    · have hin := hcomplete s' hrest svc hsvc fun value hmem =>
        hgrants value (List.mem_append_left _ hmem)
      show s' ∈ E.as_audience :: if keep then s :: out else out
      refine List.cons_subset_cons _ ?_ hin
      cases keep with
      | true => exact List.subset_cons_self _ _
      | false => exact List.Subset.refl _

/-- What is left to visit is what the reads do not grant. -/
theorem ungranted_todo (email : String) (scopes : List String) (tr : AsTrace) :
    (ungranted E email scopes).Along (Offering E) (After tr fun seg todo => ReadsOf email seg ∧
      todo.Sublist scopes ∧ (∀ s ∈ todo, E.offers s = true) ∧
      ∀ s ∈ scopes, E.offers s = true → s ∉ todo → GrantedIn E email s seg) tr := by
  induction scopes generalizing tr with
  | nil => exact ⟨[], rfl, .nil, List.Sublist.slnil, nofun, nofun⟩
  | cons s rest ih =>
    -- the read for this scope, before those for the rest
    have hlacks : (lacks E email s).Along (Offering E) (After tr fun seg missing =>
        ReadsOf email seg ∧ (missing = true → E.offers s = true) ∧
        (E.offers s = true → missing = false → GrantedIn E email s seg)) tr := by
      unfold lacks
      split
      · next hoffers =>
        refine along_bind (granted_reads email s tr) ?_
        rintro _ g ⟨seg, rfl, hreads, hg⟩
        refine ⟨seg, rfl, hreads, fun _ => hoffers, fun _ hmissing => ?_⟩
        obtain ⟨svc, hsvc⟩ := Option.isSome_iff_exists.mp hoffers
        obtain ⟨value, hmem, rfl⟩ := hg svc hsvc
        exact ⟨svc, value, hsvc, hmem, by simpa using hmissing⟩
      · next hoffers => exact ⟨[], rfl, .nil, nofun, fun h => absurd h hoffers⟩
    rw [ungranted]
    refine along_bind hlacks ?_
    rintro _ missing ⟨seg, rfl, hreads, hmissing, hgranted⟩
    refine along_bind (ih (seg ++ tr)) ?_
    rintro _ out ⟨seg', rfl, hreads', hsub, hall, hrest⟩
    have hmore : ∀ s' ∈ rest, E.offers s' = true → s' ∉ out → GrantedIn E email s' (seg' ++ seg) :=
      fun s' hs' hoffers hout =>
        (hrest s' hs' hoffers hout).mono fun e he => List.mem_append_left _ he
    refine ⟨seg' ++ seg, by simp, hreads'.append hreads, ?_⟩
    cases missing with
    | true =>
      refine ⟨hsub.cons_cons s, List.forall_mem_cons.mpr ⟨hmissing rfl, hall⟩, ?_⟩
      intro s' hs' hoffers hout
      have hout : s' ∉ s :: out := hout
      rw [List.mem_cons, not_or] at hout
      rcases List.mem_cons.mp hs' with rfl | hs'
      · exact absurd rfl hout.1
      · exact hmore s' hs' hoffers hout.2
    | false =>
      refine ⟨hsub.cons s, hall, ?_⟩
      intro s' hs' hoffers hout
      rcases List.mem_cons.mp hs' with rfl | hs'
      · exact (hgranted hoffers rfl).mono fun e he => List.mem_append_right _ he
      · exact hmore s' hs' hoffers hout

/-- What the trace says about how `_broker_client_id` ended. -/
def Registration (E : Env) (broker : String) (seg : AsTrace) : BrokerResult → Prop
  | .ok client_id => (Caught E seg ↔ E.sends client_id = true) ∧ KnownClient broker client_id seg
  | .failed => Caught E seg ∧ ∃ reply, (⟨.ext (.broker_register broker), reply⟩ : AsEvent) ∈ seg ∧
      ∀ client_id, registered_client_id reply ≠ .ok client_id
  | .crashed => ¬ Caught E seg

theorem broker_client_id_registers (broker : String) (tr : AsTrace) :
    (broker_client_id broker).Along (Offering E) (After tr (Registration E broker)) tr := by
  refine along_await fun cached => ⟨trivial, ?_⟩
  cases cached with
  | some c =>
    refine ⟨[_], rfl, ?_, .inl List.mem_cons_self⟩
    simp [Caught, tame]
  | none =>
    refine along_await fun reply => ⟨trivial, ?_⟩
    have hcaught : registered_client_id reply ≠ .crashed → reply.caught = true := by
      intro hne
      by_contra hcaught
      exact hne (registered_crashed_iff.mpr (by simpa using hcaught))
    cases hreply : registered_client_id reply with
    | ok client_id =>
      refine along_await fun _ => ⟨trivial, [_, _, _], rfl, ?_, .inr ⟨reply, by simp, hreply⟩⟩
      simp [Caught, tame, hreply, hcaught]
    | failed =>
      refine ⟨[_, _], rfl, ?_, reply, List.mem_cons_self, fun client_id => by simp [hreply]⟩
      simp [Caught, tame, hreply, hcaught]
    | crashed =>
      refine ⟨[_, _], rfl, fun h => ?_⟩
      have htrue := (tame_register_iff.mp (h _ List.mem_cons_self)).1
      rw [registered_crashed_iff.mp hreply] at htrue
      cases htrue

/-! ## The chain -/

theorem Unregistered.mono {tr' : AsTrace} {s : String} (h : Unregistered E tr s) (htr : tr ⊆ tr') :
    Unregistered E tr' s := by
  obtain ⟨svc, reply, hsvc, hmem, hreply⟩ := h
  exact ⟨svc, reply, hsvc, htr hmem, hreply⟩

/-- The services that were left in a chain record are in the registry. -/
def Served (E : Env) (tr : AsTrace) : Prop :=
  ∀ state chain, (⟨.pop .chain state, some chain⟩ : AsEvent) ∈ tr →
    ∀ s ∈ chain.todo, E.offers s = true

/-- The chain ends in an exception after an answer that is not caught or a client
    id that cannot be sent, and goes on otherwise. -/
def Came (E : Env) (request : AuthRequest) (sub : String) (todo : List String) (tr : AsTrace)
    (res : Response) : Prop :=
  ¬ Caught E tr ∧ res = .internal_error ∨ Caught E tr ∧ Moved E request sub todo tr res

theorem finish_moves {todo : List String} (hcaught : Caught E tr)
    (hskipped : ∀ s ∈ todo, Unregistered E tr s) :
    (finish E request sub).Along (Offering E) (Came E request sub todo) tr := by
  unfold finish scopes_for
  rw [Prog.bind_assoc]
  refine along_bind (granted_among_complete sub request.scopes tr) ?_
  rintro _ kept ⟨reads, rfl, hreads, hcomplete⟩
  refine along_await fun code => ⟨trivial, along_await fun _ => ⟨trivial, .inr ⟨?_, ?_⟩⟩⟩
  · have hbefore : Caught E (reads ++ tr) := hreads.caught.append hcaught
    exact List.forall_mem_cons.mpr ⟨rfl, List.forall_mem_cons.mpr ⟨rfl, hbefore⟩⟩
  · refine .client (fun s hs => (hskipped s hs).mono fun e he => by simp [he]) List.mem_cons_self ?_
    exact hcomplete.mono (fun e he => by simp [he]) (List.Subset.refl _)

/-- By induction on the services to visit: one that is skipped joins those that
    were skipped before. -/
theorem chain_next_comes (todo skipped : List String) (tr : AsTrace)
    (hfrom : ∀ s ∈ todo, E.offers s = true ∨ Left tr s) (hcaught : Caught E tr)
    (hskipped : ∀ s ∈ skipped, Unregistered E tr s) :
    (chain_next E request sub todo).Along (Offering E)
      (fun tr' res => Served E tr' → Came E request sub (skipped ++ todo) tr' res) tr := by
  induction todo generalizing skipped tr with
  | nil =>
    rw [List.append_nil]
    exact along_mono (fun _ _ h => h) (fun _ _ h _ => h) (finish_moves hcaught hskipped)
  | cons scope rest ih =>
    rw [chain_next]
    split
    · -- a service that is not in the registry is one of the record
      next hnone =>
      intro hserved
      have hoffers : E.offers scope = true := by
        rcases hfrom scope List.mem_cons_self with hoffers | ⟨state, chain, hmem, hs⟩
        · exact hoffers
        · exact hserved state chain hmem scope hs
      simp [Settings.offers, hnone] at hoffers
    · next svc hsvc =>
      refine along_bind (broker_client_id_registers svc.broker tr) ?_
      rintro _ result ⟨seg, rfl, hresult⟩
      have hgrows : tr ⊆ seg ++ tr := List.subset_append_right _ _
      cases result with
      -- the broker does not register, and its service is left out
      | failed =>
        obtain ⟨hseg, reply, hmem, hreply⟩ := hresult
        rw [show skipped ++ scope :: rest = (skipped ++ [scope]) ++ rest by simp]
        refine ih (skipped ++ [scope]) (seg ++ tr) ?_ (hseg.append hcaught) ?_
        · intro s hs
          rcases hfrom s (List.mem_cons_of_mem _ hs) with hoffers | hleft
          · exact .inl hoffers
          · exact .inr (hleft.mono hgrows)
        · intro s hs
          rcases List.mem_append.mp hs with hs | hs
          · exact (hskipped s hs).mono hgrows
          · obtain rfl := List.mem_singleton.mp hs
            exact ⟨svc, reply, hsvc, List.mem_append_left _ hmem, hreply⟩
      | crashed =>
        refine fun _ => .inl ⟨fun h => hresult ?_, rfl⟩
        exact fun e he => h e (List.mem_append_left _ he)
      | ok client_id =>
        obtain ⟨hsends, hknown⟩ := hresult
        refine along_await fun verifier => ⟨trivial, along_await fun chain_id => ⟨trivial, ?_⟩⟩
        refine along_await fun _ => ⟨?_, ?_⟩
        · intro s hs
          rcases hfrom s hs with hoffers | hleft
          · exact .inl hoffers
          · exact .inr (hleft.mono fun e he => by simp [he])
        · refine along_await fun now => ⟨trivial, along_await fun jti => ⟨trivial, ?_⟩⟩
          refine along_ite ?_ ?_
          · -- the hint or the query cannot be written
            intro hnot _
            refine .inl ⟨fun h => ?_, rfl⟩
            have hseg : Caught E seg := fun e he => h e (by simp [he])
            rw [hsends.mp hseg] at hnot
            cases hnot
          · intro hsent _
            have hseg := hsends.mpr (by simpa using hsent)
            refine .inr ⟨?_, .broker rfl ?_ hsvc ?_
              (List.mem_cons_of_mem _ (List.mem_cons_of_mem _ List.mem_cons_self))⟩
            · have hbefore : Caught E (seg ++ tr) := hseg.append hcaught
              simpa [Caught, tame] using hbefore
            · exact fun s hs => (hskipped s hs).mono fun e he => by simp [he]
            · rcases hknown with hcached | ⟨reply, hmem, hreply⟩
              · exact .inl (by simp [hcached])
              · exact .inr ⟨reply, by simp [hmem], hreply⟩

/-! ## The callbacks -/

/-- What the two callbacks come to, where they have taken up a sign-in. -/
def Settles (E : Env) (r : Request) (tr : AsTrace) (res : Response) : Prop :=
  ∀ request sub base, Entered request sub r base → base <:+ tr → Served E tr →
    ∃ todo, Todo E request sub tr r todo ∧ Came E request sub todo tr res

/-- Only the callbacks write chain records. -/
def OfferingOf (E : Env) : Request → AsTrace → AsEvent → Prop
  | .as_callback _ => Offering E
  | .broker_callback _ => Offering E
  | _ => fun _ _ => True

theorem broker_callback_settles (state : String) :
    (broker_callback E state).Along (Offering E) (Settles E (.broker_callback state)) [] := by
  refine along_await fun popped => ⟨trivial, ?_⟩
  -- the trace begins with the pop, so the flow was entered by it
  have hentered : ∀ {request sub base} {tr' : AsTrace},
      Entered request sub (.broker_callback state) base → base <:+ tr' →
      [⟨.pop .chain state, popped⟩] <:+ tr' → base = [⟨.pop .chain state, popped⟩] := by
    intro request sub base tr' hbase hs hs'
    cases hbase with
    | broker => exact (List.suffix_of_suffix_length_le hs hs' (by simp)).eq_of_length rfl
  cases popped with
  | none =>
    intro request sub base hbase hs _
    have heq := hentered hbase hs List.suffix_rfl
    cases hbase with
    | broker => cases heq
  | some chain =>
    have hcomes := @chain_next_comes E chain.request chain.sub
      chain.todo.tail [] [⟨.pop .chain state, some chain⟩] ?_ ?_ nofun
    · refine along_mono (fun _ _ h => h) ?_ (along_grows hcomes)
      rintro tr' res ⟨hcame, hgrows⟩ request sub base hbase hs hserved
      have heq := hentered hbase hs hgrows
      cases hbase with
      | broker hrequest hsub =>
        cases heq
        subst hrequest
        subst hsub
        exact ⟨chain.todo.tail, .broker (hgrows.subset List.mem_cons_self), hcame hserved⟩
    -- the services left are those of the record
    · exact fun s hs => .inr ⟨state, chain, List.mem_cons_self, List.mem_of_mem_tail hs⟩
    · exact fun e he => by
        obtain rfl := List.mem_singleton.mp he
        rfl

/-- A login that has taken up a sign-in has done four things before. -/
theorem Entered.four {state : String} {base : AsTrace}
    (h : Entered request sub (.as_callback state) base) : base.length = 4 := by
  cases h
  rfl

/-- Nothing is to be shown where the login has done something else. -/
theorem settles_unless {state : String} {tr₀ : AsTrace} {res : Response} (hs : tr₀ <:+ tr)
    (hnot : ∀ request sub base, Entered request sub (.as_callback state) base → ¬ tr₀ <:+ base)
    (hlen : tr₀.length ≤ 4) : Settles E (.as_callback state) tr res := by
  intro request sub base hbase hs' _
  have hle : tr₀.length ≤ base.length := by
    rw [hbase.four]
    exact hlen
  exact absurd (List.suffix_of_suffix_length_le hs hs' hle) (hnot request sub base hbase)

theorem settles_short {state : String} {res : Response} (hlen : tr.length < 4) :
    Settles E (.as_callback state) tr res := by
  intro request sub base hbase hs _
  have hle := hs.length_le
  rw [hbase.four] at hle
  omega

theorem device_settle_offers (device_code : String) (status : DeviceStatus) (sub : Option String)
    (tr : AsTrace) :
    (device_settle device_code status sub).Along (Offering E) (fun _ _ => True) tr := by
  refine along_await fun rec => ⟨trivial, ?_⟩
  cases rec with
  | none => trivial
  | some rec =>
    dsimp only
    split
    · trivial
    · exact along_await fun _ => ⟨trivial, along_await fun _ => ⟨trivial, trivial⟩⟩

/-- Where the user could not be provisioned, no sign-in is taken up. -/
theorem unprovisioned_settles {state : String} {token : DexToken} {d : DexRt} {ttl : Option Nat}
    {name : Option String} {groups : List String} {pending : Pending} {reply : LitellmReply Unit}
    (hne : reply ≠ .ok ()) (res : Response) :
    Settles E (.as_callback state)
      [⟨.ext (.ensure_team_and_user sub name groups), reply⟩, ⟨.put .dexrt sub d ttl, ()⟩,
        ⟨.ext (.authorize_access_token state), some token⟩, ⟨.pop .pending state, some pending⟩]
      res := by
  refine settles_unless List.suffix_rfl ?_ (Nat.le_refl 4)
  intro request sub' base hbase hs
  have heq := hs.eq_of_length hbase.four.symm
  cases hbase
  cases heq
  exact hne rfl

theorem continue_login_settles {state : String} {token : DexToken} {d : DexRt} {ttl : Option Nat}
    {name : Option String} {groups : List String} (pending : Pending) :
    (continue_login E pending sub).Along (Offering E) (Settles E (.as_callback state))
      [⟨.ext (.ensure_team_and_user sub name groups), .ok ()⟩, ⟨.put .dexrt sub d ttl, ()⟩,
        ⟨.ext (.authorize_access_token state), some token⟩, ⟨.pop .pending state, some pending⟩] := by
  cases pending with
  | device device_code scopes =>
    refine along_bind (along_grows (device_settle_offers device_code .approved (some sub) _)) ?_
    rintro tr' settled ⟨-, hgrows⟩
    -- a device login enters no flow of a client
    have hsettles : ∀ res, Settles E (.as_callback state) tr' res := by
      intro res
      refine settles_unless hgrows ?_ (Nat.le_refl 4)
      intro request sub' base hbase hs
      have heq := hs.eq_of_length hbase.four.symm
      cases hbase
      cases heq
    cases settled with
    | none => exact hsettles _
    | some rec => exact hsettles _
  | client request =>
    refine along_bind (ungranted_todo sub request.scopes _) ?_
    rintro _ todo ⟨seg, rfl, hreads, htodo, hall, hrest⟩
    have hcomes := @chain_next_comes E request sub todo [] (seg ++
      [⟨.ext (.ensure_team_and_user sub name groups), .ok ()⟩, ⟨.put .dexrt sub d ttl, ()⟩,
        ⟨.ext (.authorize_access_token state), some token⟩,
        ⟨.pop .pending state, some (.client request)⟩])
      (fun s hs => .inl (hall s hs)) (hreads.caught.append (by simp [Caught, tame])) nofun
    refine along_mono (fun _ _ h => h) ?_ (along_grows hcomes)
    rintro tr' res ⟨hcame, hgrows⟩ request' sub' base hbase hs hserved
    have hs' := (List.suffix_append seg _).trans hgrows
    have heq := (List.suffix_of_suffix_length_le hs hs' (Nat.le_of_eq hbase.four)).eq_of_length
      hbase.four
    cases hbase with
    | login hsub' =>
      cases heq
      refine ⟨todo, .login htodo hall ?_, hcame hserved⟩
      intro s hs hoffers hout
      exact (hrest s hs hoffers hout).mono fun e he => hgrows.subset (List.mem_append_left _ he)

theorem as_callback_settles (state : String) :
    (as_callback E state).Along (Offering E) (Settles E (.as_callback state)) [] := by
  have hpop : (pop_pending state).Along (Offering E) (fun tr popped => tr.length ≤ 1 ∧
      ∀ pending, popped = some pending → tr = [⟨.pop .pending state, some pending⟩]) [] := by
    unfold pop_pending
    split
    · exact ⟨Nat.zero_le _, nofun⟩
    · refine fun popped => ⟨trivial, Nat.le_refl _, ?_⟩
      rintro pending rfl
      rfl
  refine along_bind hpop ?_
  rintro tr popped ⟨hlen, htaken⟩
  cases popped with
  | none => exact settles_short (Nat.lt_of_le_of_lt hlen (by decide))
  | some pending =>
    rw [htaken pending rfl]
    refine along_await fun token => ⟨trivial, ?_⟩
    cases token with
    | none =>
      have hdeny : (deny pending).Along (Offering E) (fun _ _ => True)
          [⟨.ext (.authorize_access_token state), none⟩, ⟨.pop .pending state, some pending⟩] := by
        cases pending with
        | device device_code scopes => exact device_settle_offers _ _ _ _
        | client request => trivial
      refine along_bind (along_grows hdeny) ?_
      rintro tr' _ ⟨-, hgrows⟩
      refine settles_unless hgrows ?_ (by decide : 2 ≤ 4)
      intro request sub base hbase hs
      have heq := List.suffix_iff_eq_drop.mp hs
      cases hbase
      cases heq
    | some token =>
      -- the text of the email must not be computed
      dsimp only
      generalize normalized_email token.userinfo = email
      refine along_ite (fun _ => settles_short (by decide : 2 < 4)) fun _ => ?_
      refine along_ite (fun _ => settles_short (by decide : 2 < 4)) fun _ => ?_
      refine along_await fun _ => ⟨trivial, along_await fun reply => ⟨trivial, ?_⟩⟩
      cases reply with
      | status_error code =>
        refine unprovisioned_settles ?_ _
        exact nofun
      | transport_error =>
        refine unprovisioned_settles ?_ _
        exact nofun
      | crashed =>
        refine unprovisioned_settles ?_ _
        exact nofun
      | ok _ => exact continue_login_settles pending

theorem handler_settles (r : Request) :
    (handler E r).Along (OfferingOf E r) (Settles E r) [] := by
  have helse : (∀ request sub base, ¬ Entered request sub r base) →
      (handler E r).Along (fun _ _ => True) (Settles E r) [] := by
    intro hnot
    refine along_mono (fun _ _ h => h) ?_ (along_of_forall (fun _ _ => trivial) (handler E r) [])
    intro tr res _ request sub base hbase
    exact absurd hbase (hnot request sub base)
  cases r with
  | as_callback state => exact as_callback_settles state
  | broker_callback state => exact broker_callback_settles state
  | register | authorize | device_authorization | device_confirm | token | front_key | user_key
  | opencode_config =>
    refine helse fun _ _ _ hentered => ?_
    cases hentered

/-! ## Runs -/

section runs
variable {ok : AsConfig → AsConfig → Prop} {c : AsConfig}

/-- Every service of a chain record is in the registry. By induction on the log
    before it: what a callback was left with was written. -/
theorem chain_offered (h : Reach (handler E) ok c) (n : Nat) {past : AsLog} (hn : past.length < n)
    {i : Nat} {key : String} {v : Chain} {ttl : Option Nat}
    (hs : (⟨i, ⟨.put .chain key v ttl, ()⟩⟩ : AsEntry) :: past <:+ c.log) :
    ∀ s ∈ v.todo, E.offers s = true := by
  induction n generalizing past i key v ttl with
  | zero => cases hn
  | succ n ih =>
    intro s hmem
    have hoffering : Offering E (traceOf i past) ⟨.put .chain key v ttl, ()⟩ := by
      obtain ⟨r, hr, seg, base, -, -, hentered⟩ := performed h hs
      obtain ⟨r', hr', hoffering⟩ := ((reach_contracted handler_settles h).1).at hs
      obtain rfl := request_unique hr hr'
      cases hentered with
      | login => exact hoffering
      | broker => exact hoffering
    rcases hoffering s hmem with hoffers | ⟨state, chain, hpop, hleft⟩
    · exact hoffers
    · obtain ⟨past', hp⟩ := exists_suffix_of_mem (mem_traceOf.mp hpop)
      have hpast := (List.suffix_cons _ _).trans hs
      obtain ⟨j, ttl', past'', hput⟩ := popped_put h (hp.trans hpast)
      have hput := (hput.trans (List.suffix_cons _ _)).trans hp
      have hlen := hput.length_le
      simp only [List.length_cons] at hlen
      exact ih (by omega) (hput.trans hpast) s hleft

theorem reach_served (h : Reach (handler E) ok c) (i : Nat) : Served E (traceOf i c.log) := by
  intro state chain hmem
  obtain ⟨past, hp⟩ := exists_suffix_of_mem (mem_traceOf.mp hmem)
  obtain ⟨j, ttl, past', hput⟩ := popped_put h hp
  exact chain_offered h _ (Nat.lt_succ_self _) ((hput.trans (List.suffix_cons _ _)).trans hp)

end runs

/-- A callback that has taken up a sign-in, after the login or after a broker,
    goes on with it if and only if every answer it has got from a broker is one
    that is caught, and every client id that a broker has given us, now or before,
    can be sent. -/
theorem sign_in_goes_on_iff {c : AsConfig} (h : Reached E c) {i : Nat} {r : Request}
    {base : AsTrace} {res : Response} (hr : c.request i = some r) (hres : c.response i = some res)
    (hentered : Entered request sub r base) (hbase : base <:+ traceOf i c.log) :
    GoesOn E request sub r (traceOf i c.log) res ↔
      (∀ broker reply, (⟨.ext (.broker_register broker), reply⟩ : AsEvent) ∈ traceOf i c.log →
        BrokerReply.caught reply = true) ∧
      ∀ broker client_id, KnownClient broker client_id (traceOf i c.log) →
        E.sends client_id = true := by
  have hsettles : Settles E r (traceOf i c.log) res := by
    unfold Config.response at hres
    split at hres
    · next r' a hth =>
      cases hres
      obtain rfl : r' = r := request_unique (by simp [Config.request, hth]) hr
      exact (reach_contracted handler_settles h).2 i _ hth
    · cases hres
  obtain ⟨todo, htodo, hcame⟩ := hsettles request sub base hentered hbase (reach_served h i)
  rw [← caught_iff]
  rcases hcame with ⟨hnot, rfl⟩ | ⟨hcaught, hmoved⟩
  · refine iff_of_false ?_ hnot
    rintro ⟨todo', htodo', hmoved⟩
    cases hmoved
  · exact iff_of_true ⟨todo, htodo, hmoved⟩ hcaught

/-! ## Two brokers -/

/-- The broker answers the registration. -/
def broker_answers (reply : BrokerReply) : Choice Ext Ext.Reply := .reply fun
  | .broker_register _ => some reply
  | _ => none

/-- A login for a service that is not granted, up to the answer of its broker. -/
def broker_schedule (reply : BrokerReply) : List AsLabel :=
  [.spawn (.register (some (.obj [("redirect_uris", .arr [.str "http://localhost/cb"])]))),
    .perform 0 (.draw (ident 'c' 22)), .perform 0 .auto,
    .spawn (.authorize login_query), .perform 1 .auto, .perform 1 .auto,
    .perform 1 (.draw (ident 'p' 32)), .perform 1 .auto,
    .spawn (.as_callback (ident 'p' 32)), .perform 2 .auto, .perform 2 (all_well false),
    .perform 2 .auto, .perform 2 (all_well false), .perform 2 (all_well false), .perform 2 .auto,
    .perform 2 (broker_answers reply)]

/-- The first four events, oldest first, are those of a login that has succeeded. -/
def logged_in (state : String) : AsTrace → Bool
  | ⟨.pop .pending state', some (.client _)⟩ :: ⟨.ext (.authorize_access_token state''), some token⟩ ::
      ⟨.put .dexrt sub _ _, ()⟩ :: ⟨.ext (.ensure_team_and_user sub' _ _), .ok ()⟩ :: _ =>
      state' == state && state'' == state && sub == normalized_email token.userinfo && sub' == sub
  | _ => false

theorem logged_in_spec {state : String} (h : logged_in state tr.reverse = true) :
    ∃ request sub base, Entered request sub (.as_callback state) base ∧ base <:+ tr := by
  unfold logged_in at h
  split at h
  · next state' request state'' token sub d ttl sub' name groups later htrace =>
    simp only [Bool.and_eq_true, beq_iff_eq] at h
    obtain ⟨⟨⟨rfl, rfl⟩, rfl⟩, rfl⟩ := h
    refine ⟨request, normalized_email token.userinfo,
      [⟨.ext (.ensure_team_and_user _ name groups), .ok ()⟩, ⟨.put .dexrt _ d ttl, ()⟩,
        ⟨.ext (.authorize_access_token state''), some token⟩,
        ⟨.pop .pending state'', some (.client request)⟩], .login rfl, later.reverse, ?_⟩
    rw [← List.reverse_reverse tr, htrace]
    simp
  · cases h

/-- The login has been taken up, and its end passes the test. -/
def taken_up (test : Response → AsTrace → Bool) (c : AsConfig) : Bool :=
  match c.threads[(2 : Nat)]? with
  | some ⟨.as_callback state, .ret res⟩ =>
      test res (traceOf 2 c.log) && logged_in state (traceOf 2 c.log).reverse
  | _ => false

theorem taken_up_spec {test : Response → AsTrace → Bool} {c : AsConfig}
    (h : taken_up test c = true) :
    ∃ r request sub base res, c.request 2 = some r ∧ c.response 2 = some res ∧
      Entered request sub r base ∧ base <:+ traceOf 2 c.log ∧ test res (traceOf 2 c.log) = true := by
  unfold taken_up at h
  split at h
  · next state res hth =>
    obtain ⟨htest, hlogged⟩ := Bool.and_eq_true_iff.mp h
    obtain ⟨request, sub, base, hentered, hbase⟩ := logged_in_spec hlogged
    exact ⟨.as_callback state, request, sub, base, res, by simp [Config.request, hth],
      by simp [Config.response, hth], hentered, hbase, htest⟩
  · cases h

/-- A run in which the broker is asked and gives this answer. -/
theorem broker_run {reply : BrokerReply} {test : Response → AsTrace → Bool} {more : List AsLabel}
    (hrun : (Config.init.run (handler sample) (fun _ _ => true) (broker_schedule reply ++ more)).any
      (taken_up test) = true) :
    ∃ c r request sub base res, Reached sample c ∧ c.request 2 = some r ∧ c.response 2 = some res ∧
      Entered request sub r base ∧ base <:+ traceOf 2 c.log ∧
      test res (traceOf 2 c.log) = true := by
  obtain ⟨c, hreached, htest⟩ := exists_reached sample _ _ hrun
  obtain ⟨r, request, sub, base, res, h⟩ := taken_up_spec htest
  exact ⟨c, r, request, sub, base, res, hreached, h⟩

/-- The broker is down: the login goes on, and ends with a code. -/
theorem sign_in_goes_on_sample : ∃ c r request sub res, Reached sample c ∧
    c.response 2 = some res ∧ GoesOn sample request sub r (traceOf 2 c.log) res := by
  obtain ⟨c, r, request, sub, base, res, h, hr, hres, hentered, hbase, htest⟩ :=
    @broker_run .transport_error (fun _ tr => tr.all (tame sample))
      [.perform 2 (all_well false), .perform 2 (.draw (ident 'k' 43)), .perform 2 .auto]
      (by decide +kernel)
  refine ⟨c, r, request, sub, res, h, hres, ?_⟩
  exact (sign_in_goes_on_iff h hr hres hentered hbase).mpr (caught_iff.mp (List.all_eq_true.mp htest))

def is_error : Response → Bool
  | .internal_error => true
  | _ => false

/-- What a broker's answer does to a login: it ends in an exception, and its
    pending record is gone. -/
theorem answer_ends_sign_in {reply : BrokerReply} {more : List AsLabel}
    (hrun : (Config.init.run (handler sample) (fun _ _ => true) (broker_schedule reply ++ more)).any
      (taken_up fun res _ => is_error res) = true) :
    ∃ c r request sub base, Reached sample c ∧ c.request 2 = some r ∧
      c.response 2 = some .internal_error ∧ Entered request sub r base ∧
      base <:+ traceOf 2 c.log ∧ ¬ GoesOn sample request sub r (traceOf 2 c.log) .internal_error := by
  obtain ⟨c, r, request, sub, base, res, h, hr, hres, hentered, hbase, htest⟩ := broker_run hrun
  cases res with
  | internal_error =>
    exact ⟨c, r, request, sub, base, h, hr, hres, hentered, hbase, fun ⟨_, _, hmoved⟩ => nomatch hmoved⟩
  | _ => cases htest

/-- A broker answers with a list, or with a client id that is half of a pair. -/
theorem list_ends_sign_in :
    (∃ c r request sub base, Reached sample c ∧ c.request 2 = some r ∧
      c.response 2 = some .internal_error ∧ Entered request sub r base ∧
      base <:+ traceOf 2 c.log ∧ ¬ GoesOn sample request sub r (traceOf 2 c.log) .internal_error) ∧
    ∃ c r request sub base, Reached sample c ∧ c.request 2 = some r ∧
      c.response 2 = some .internal_error ∧ Entered request sub r base ∧
      base <:+ traceOf 2 c.log ∧ ¬ GoesOn sample request sub r (traceOf 2 c.log) .internal_error :=
  ⟨@answer_ends_sign_in (.response 201 (some (.arr []))) [] (by decide +kernel),
    @answer_ends_sign_in
      (.response 201 (some (PyValue.dict [("client_id", .str [.surrogate 0])])))
      [.perform 2 .auto, .perform 2 (.draw (ident 'v' 64)), .perform 2 (.draw (ident 'h' 32)),
        .perform 2 .auto, .perform 2 .auto, .perform 2 (.draw (ident 'j' 22))] (by decide +kernel)⟩

end AlitellmAuth
