import Mathlib.Logic.Relation
import AlitellmAuth.OauthAs.Runs

/-! # The authorization code flow

    One `/oauth/authorize` request travels as a pending record, then as any
    number of chain records, then as a code. Each of these is a ticket that
    one thread takes (pops) and exchanges for the next one.

    * `Next`: one exchange. It is a partial function in both directions, so
      the tickets of one request form a single line that ends in at most one
      code (`code_of_origin`, `origin_unique`).
    * `Carries`: what a ticket says about the request it stands for; `Next`
      preserves it.
    * `code_pairs_agree`: the pairs issued for codes and the authorization
      requests correspond one to one, and agree on everything.
-/

namespace AlitellmAuth

open Interleave Text Relation

variable {E : Env} {ok : AsConfig → AsConfig → Prop} {c : AsConfig}

/-! ## Tickets -/

/-- What a code flow is known by, from the authorization request to the code. -/
inductive Ticket where
  | pending (id : String)
  | chain (id : String)
  | code (id : String)

/-- The ticket an event takes, to go on with its flow. -/
def taken : AsEvent → Option Ticket
  | ⟨.pop .pending id, some _⟩ => some (.pending id)
  | ⟨.pop .chain id, some _⟩ => some (.chain id)
  | _ => none

/-- The ticket an event hands out to continue a flow. -/
def given : AsEvent → Option Ticket
  | ⟨.put .chain id _ _, _⟩ => some (.chain id)
  | ⟨.put .code id _ _, _⟩ => some (.code id)
  | _ => none

/-- Thread `i` has taken the ticket. -/
def Takes (c : AsConfig) (i : Nat) (t : Ticket) : Prop := ∃ e ∈ traceOf i c.log, taken e = some t

/-- Thread `i` has handed out the ticket. -/
def Gives (c : AsConfig) (i : Nat) (t : Ticket) : Prop := ∃ e ∈ traceOf i c.log, given e = some t

/-- Some thread has exchanged one ticket for another. -/
def Next (c : AsConfig) (t t' : Ticket) : Prop := ∃ i, Takes c i t ∧ Gives c i t'

/-- Thread `a` has opened the flow of the pending record `id`. -/
def Opens (c : AsConfig) (a : Nat) (id : String) (request : AuthRequest) : Prop :=
  ∃ ttl, (⟨a, ⟨.put .pending id (.client request) ttl, ()⟩⟩ : AsEntry) ∈ c.log

/-- The code descends from the authorization request of thread `a`. -/
def Descends (c : AsConfig) (a : Nat) (code : String) : Prop :=
  ∃ id request, Opens c a id request ∧ ReflTransGen (Next c) (.pending id) (.code code)

/-! ## A thread exchanges one ticket for one ticket -/

theorem taken_cases {e : AsEvent} {t : Ticket} (h : taken e = some t) :
    (∃ id v, t = .pending id ∧ e = ⟨.pop .pending id, some v⟩) ∨
    ∃ id v, t = .chain id ∧ e = ⟨.pop .chain id, some v⟩ := by
  unfold taken at h
  split at h
  · cases h; exact .inl ⟨_, _, rfl, rfl⟩
  · cases h; exact .inr ⟨_, _, rfl, rfl⟩
  · cases h

theorem given_cases {e : AsEvent} {t : Ticket} (h : given e = some t) :
    (∃ id v ttl, t = .chain id ∧ e = ⟨.put .chain id v ttl, ()⟩) ∨
    ∃ id v ttl, t = .code id ∧ e = ⟨.put .code id v ttl, ()⟩ := by
  unfold given at h
  split at h
  · cases h; exact .inl ⟨_, _, _, rfl, rfl⟩
  · cases h; exact .inr ⟨_, _, _, rfl, rfl⟩
  · cases h

/-- A thread takes at most one ticket: it does so before anything else. -/
theorem takes_once (h : Reach (handler E) ok c) {i : Nat} {t t' : Ticket} (ht : Takes c i t)
    (ht' : Takes c i t') : t = t' := by
  have honce : Once (fun e => (taken e).isSome = true) (traceOf i c.log) := by
    intro ev past hs hev e he
    obtain ⟨t, ht⟩ := Option.isSome_iff_exists.mp hev
    rcases taken_cases ht with ⟨id, v, rfl, rfl⟩ | ⟨id, v, rfl, rfl⟩ <;>
      obtain ⟨r, -, -, rfl⟩ := performed_trace h hs <;> cases he
  obtain ⟨e, he, hte⟩ := ht
  obtain ⟨e', he', hte'⟩ := ht'
  obtain rfl := honce.eq he he' (by simp [hte]) (by simp [hte'])
  exact Option.some.inj (hte.symm.trans hte')

theorem Entered.not_given {request : AuthRequest} {sub : String} {r : Request} {base : AsTrace}
    (h : Entered request sub r base) : ∀ e ∈ base, given e = none := by
  cases h <;> simp [given]

theorem Quiet.not_given {seg : AsTrace} (h : Quiet seg) : ∀ e ∈ seg, given e = none := by
  intro e he
  cases hg : given e with
  | none => rfl
  | some t =>
    rcases given_cases hg with ⟨id, v, ttl, -, rfl⟩ | ⟨id, v, ttl, -, rfl⟩ <;>
      exact (h _ he).elim

/-- A thread hands out at most one ticket. -/
theorem gives_once (h : Reach (handler E) ok c) {i : Nat} {t t' : Ticket} (ht : Gives c i t)
    (ht' : Gives c i t') : t = t' := by
  have honce : Once (fun e => (given e).isSome = true) (traceOf i c.log) := by
    intro ev past hs hev e he
    obtain ⟨t, ht⟩ := Option.isSome_iff_exists.mp hev
    have hnone : given e = none := by
      rcases given_cases ht with ⟨id, v, ttl, rfl, rfl⟩ | ⟨id, v, ttl, rfl, rfl⟩
      · obtain ⟨r, -, seg, base, rfl, hq, hb⟩ := performed_trace h hs
        simp only [List.mem_cons, List.mem_append] at he
        rcases he with rfl | rfl | he | he
        · rfl
        · rfl
        · exact hq.not_given e he
        · exact hb.not_given e he
      · obtain ⟨r, -, reads, seg, base, kept, rfl, hq, hb, -, hkept⟩ := performed_trace h hs
        simp only [List.mem_cons, List.mem_append] at he
        rcases he with rfl | he | he | he
        · rfl
        · exact hkept.reads.quiet.not_given e he
        · exact hq.not_given e he
        · exact hb.not_given e he
    simp [hnone]
  obtain ⟨e, he, hte⟩ := ht
  obtain ⟨e', he', hte'⟩ := ht'
  obtain rfl := honce.eq he he' (by simp [hte]) (by simp [hte'])
  exact Option.some.inj (hte.symm.trans hte')

/-- A ticket is taken by one thread only. -/
theorem taken_by_one (h : Reach (handler E) ok c) {i j : Nat} {t : Ticket} (hi : Takes c i t)
    (hj : Takes c j t) : i = j := by
  have hl := reach_ledger h
  obtain ⟨e, he, hte⟩ := hi
  obtain ⟨e', he', hte'⟩ := hj
  rcases taken_cases hte with ⟨id, v, rfl, rfl⟩ | ⟨id, v, rfl, rfl⟩ <;>
    rcases taken_cases hte' with ⟨id', v', heq, rfl⟩ | ⟨id', v', heq, rfl⟩ <;> cases heq
  · exact (popped_once hl (fresh_keyed h (.inl rfl)) (mem_traceOf.mp he) (mem_traceOf.mp he')).1
  · exact (popped_once hl (fresh_keyed h (.inr (.inl rfl))) (mem_traceOf.mp he)
      (mem_traceOf.mp he')).1

/-- A ticket is handed out by one thread only. -/
theorem given_by_one (h : Reach (handler E) ok c) {i j : Nat} {t : Ticket} (hi : Gives c i t)
    (hj : Gives c j t) : i = j := by
  have hl := reach_ledger h
  obtain ⟨e, he, hte⟩ := hi
  obtain ⟨e', he', hte'⟩ := hj
  rcases given_cases hte with ⟨id, v, ttl, rfl, rfl⟩ | ⟨id, v, ttl, rfl, rfl⟩ <;>
    rcases given_cases hte' with ⟨id', v', ttl', heq, rfl⟩ | ⟨id', v', ttl', heq, rfl⟩ <;> cases heq
  · exact (put_unique hl (fresh_keyed h (.inr (.inl rfl))) (mem_traceOf.mp he)
      (mem_traceOf.mp he')).1
  · exact (put_unique hl (fresh_keyed h (.inr (.inr (.inl rfl)))) (mem_traceOf.mp he)
      (mem_traceOf.mp he')).1

theorem next_right_unique (h : Reach (handler E) ok c) : Relator.RightUnique (Next c) := by
  rintro t x y ⟨i, hi, hx⟩ ⟨j, hj, hy⟩
  obtain rfl := taken_by_one h hi hj
  exact gives_once h hx hy

theorem next_left_unique (h : Reach (handler E) ok c) :
    Relator.RightUnique (Function.swap (Next c)) := by
  rintro t x y ⟨i, hx, hi⟩ ⟨j, hy, hj⟩
  obtain rfl := given_by_one h hi hj
  exact takes_once h hx hy

/-- Nobody exchanges a code for another ticket. -/
theorem code_last {code : String} {t : Ticket} (h : ReflTransGen (Next c) (.code code) t) :
    t = .code code := by
  rcases h.cases_head with heq | ⟨x, ⟨i, htakes, -⟩, -⟩
  · exact heq.symm
  · obtain ⟨e, -, hte⟩ := htakes
    rcases taken_cases hte with ⟨_, _, heq, -⟩ | ⟨_, _, heq, -⟩ <;> cases heq

/-- Nobody gets a pending record for another ticket. -/
theorem pending_first {id : String} {t : Ticket} (h : ReflTransGen (Next c) t (.pending id)) :
    t = .pending id := by
  rcases h.cases_tail with heq | ⟨x, -, ⟨i, -, hgives⟩⟩
  · exact heq.symm
  · obtain ⟨e, -, hte⟩ := hgives
    rcases given_cases hte with ⟨_, _, _, heq, -⟩ | ⟨_, _, _, heq, -⟩ <;> cases heq

/-- One flow ends in at most one code. -/
theorem code_of_origin (h : Reach (handler E) ok c) {t : Ticket} {code code' : String}
    (hc : ReflTransGen (Next c) t (.code code)) (hc' : ReflTransGen (Next c) t (.code code')) :
    code = code' := by
  rcases ReflTransGen.total_of_right_unique (next_right_unique h) hc hc' with hlate | hlate
  · cases code_last hlate; rfl
  · cases code_last hlate; rfl

/-- A ticket belongs to at most one flow. -/
theorem origin_of_ticket (h : Reach (handler E) ok c) {t : Ticket} {id id' : String}
    (hp : ReflTransGen (Next c) (.pending id) t) (hp' : ReflTransGen (Next c) (.pending id') t) :
    id = id' := by
  rcases ReflTransGen.total_of_right_unique (next_left_unique h) hp.swap hp'.swap with hpp | hpp
  · have heq := pending_first (reflTransGen_swap.mp hpp)
    cases heq; rfl
  · have heq := pending_first (reflTransGen_swap.mp hpp)
    cases heq; rfl

/-! ## What a ticket stands for -/

/-- Dex has logged `sub` in on the callback of the pending record `id`. -/
def LoggedIn (c : AsConfig) (id sub : String) : Prop :=
  ∃ k token, c.request k = some (.as_callback id) ∧
    (⟨k, ⟨.ext (.authorize_access_token id), some token⟩⟩ : AsEntry) ∈ c.log ∧
    normalized_email token.userinfo = sub

/-- The ticket stands for `request`, whose pending record was `id`. -/
def Carries (c : AsConfig) (id : String) (request : AuthRequest) : Ticket → Prop
  | .pending id' => id' = id
  | .chain key => ∃ i v ttl, (⟨i, ⟨.put .chain key v ttl, ()⟩⟩ : AsEntry) ∈ c.log ∧
      v.request = request ∧ LoggedIn c id v.sub
  | .code key => ∃ i v ttl, (⟨i, ⟨.put .code key v ttl, ()⟩⟩ : AsEntry) ∈ c.log ∧
      v.request = request ∧ LoggedIn c id v.sub

/-- A thread that has taken a ticket goes on with the request and the user of
    that ticket. -/
theorem entered_carries (h : Reach (handler E) ok c) {i a : Nat} {r : Request} {id sub : String}
    {request rq : AuthRequest} {t : Ticket} {base : AsTrace} (hr : c.request i = some r)
    (hb : Entered rq sub r base) (hbase : base <:+ traceOf i c.log) (ht : Takes c i t)
    (hopen : Opens c a id request) (hc : Carries c id request t) :
    rq = request ∧ LoggedIn c id sub := by
  have hl := reach_ledger h
  cases hb with
  -- the login of Dex comes back with the state that was put
  | @login state token d ttl name groups hsub =>
    have hpop : [(⟨.pop .pending state, some (.client rq)⟩ : AsEvent)] <:+ traceOf i c.log :=
      List.IsSuffix.trans ⟨[_, _, _], rfl⟩ hbase
    obtain rfl := takes_once h ht ⟨_, hpop.subset List.mem_cons_self, rfl⟩
    obtain rfl : state = id := hc
    obtain ⟨past, hp, -⟩ := exists_suffix_of_traceOf hpop
    obtain ⟨j, ttl', past', hput⟩ := popped_put h hp
    obtain ⟨ttl₀, hopen⟩ := hopen
    have hmem := ((hput.trans (List.suffix_cons _ _)).trans hp).subset List.mem_cons_self
    obtain ⟨-, heq⟩ := put_unique hl (fresh_keyed h (.inl rfl)) hmem hopen
    refine ⟨by simpa using heq, i, token, hr, mem_traceOf.mp (hbase.subset ?_), hsub⟩
    simp
  -- a broker comes back with the state of its chain, which holds the request
  | @broker state chain hrequest hsub =>
    obtain rfl := takes_once h ht ⟨_, hbase.subset List.mem_cons_self, rfl⟩
    obtain ⟨k, v, ttl, hv, hreq, hlogged⟩ := hc
    obtain ⟨past, hp, -⟩ := exists_suffix_of_traceOf hbase
    obtain ⟨j, ttl', past', hput⟩ := popped_put h hp
    have hmem := ((hput.trans (List.suffix_cons _ _)).trans hp).subset List.mem_cons_self
    obtain ⟨-, heq⟩ := put_unique hl (fresh_keyed h (.inr (.inl rfl))) hmem hv
    subst heq
    exact ⟨hrequest.symm.trans hreq, hsub ▸ hlogged⟩

/-- One exchange keeps the request and the login. -/
theorem next_carries (h : Reach (handler E) ok c) {a : Nat} {id : String} {request : AuthRequest}
    (hopen : Opens c a id request) {t t' : Ticket} (hn : Next c t t')
    (hc : Carries c id request t) : Carries c id request t' := by
  obtain ⟨i, htakes, e, he, hgiven⟩ := hn
  rcases given_cases hgiven with ⟨key, v, ttl, rfl, rfl⟩ | ⟨key, v, ttl, rfl, rfl⟩
  · obtain ⟨past, hs⟩ := exists_suffix_of_mem (mem_traceOf.mp he)
    obtain ⟨r, hr, seg, base, htr, -, hb⟩ := performed h hs
    have hbase : base <:+ traceOf i c.log :=
      List.IsSuffix.trans ⟨_ :: _ :: seg, htr.symm⟩
        (traceOf_suffix ((List.suffix_cons _ _).trans hs))
    obtain ⟨hreq, hlogged⟩ := entered_carries h hr hb hbase htakes hopen hc
    exact ⟨i, v, ttl, mem_traceOf.mp he, hreq, hlogged⟩
  · obtain ⟨past, hs⟩ := exists_suffix_of_mem (mem_traceOf.mp he)
    obtain ⟨r, hr, reads, seg, base, kept, htr, -, hb, -⟩ := performed h hs
    have hbase : base <:+ traceOf i c.log :=
      List.IsSuffix.trans ⟨⟨.draw (.urlsafe 32), key⟩ :: (reads ++ seg), by simp [htr]⟩
        (traceOf_suffix ((List.suffix_cons _ _).trans hs))
    obtain ⟨hreq, hlogged⟩ := entered_carries h hr hb hbase htakes hopen hc
    exact ⟨i, v, ttl, mem_traceOf.mp he, hreq, hlogged⟩

/-- A whole flow keeps the request and the login. -/
theorem flow_carries (h : Reach (handler E) ok c) {a : Nat} {id : String} {request : AuthRequest}
    (hopen : Opens c a id request) {t : Ticket}
    (hf : ReflTransGen (Next c) (.pending id) t) : Carries c id request t := by
  induction hf with
  | refl => rfl
  | tail _ hn ih => exact next_carries h hopen hn ih

/-! ## Every ticket has an origin -/

/-- The flow that ends in ticket `t` was opened by some thread. -/
def Originates (c : AsConfig) (t : Ticket) : Prop :=
  ∃ a id request, Opens c a id request ∧ ReflTransGen (Next c) (.pending id) t

/-- A thread continues a flow that was opened before, given that the chain
    records of the past belong to flows. -/
theorem entered_originates (h : Reach (handler E) ok c) {i : Nat} {r : Request} {sub : String}
    {rq : AuthRequest} {t : Ticket} {base : AsTrace} {past : AsLog}
    (hb : Entered rq sub r base) (hbase : base <:+ traceOf i past) (hpast : past <:+ c.log)
    (hgives : Gives c i t)
    (hchains : ∀ j key v ttl past', (⟨j, ⟨.put .chain key v ttl, ()⟩⟩ : AsEntry) :: past' <:+ past →
      Originates c (.chain key)) : Originates c t := by
  have hlift : base <:+ traceOf i c.log := hbase.trans (traceOf_suffix hpast)
  cases hb with
  | @login state token d ttl name groups hsub =>
    have hpop : [(⟨.pop .pending state, some (.client rq)⟩ : AsEvent)] <:+ traceOf i past :=
      List.IsSuffix.trans ⟨[_, _, _], rfl⟩ hbase
    obtain ⟨past', hp, -⟩ := exists_suffix_of_traceOf hpop
    obtain ⟨j, ttl', past'', hput⟩ := popped_put h (hp.trans hpast)
    have hmem := (((hput.trans (List.suffix_cons _ _)).trans hp).trans hpast).subset
      List.mem_cons_self
    have htaken := (hpop.trans (traceOf_suffix hpast)).subset List.mem_cons_self
    exact ⟨j, state, rq, ⟨ttl', hmem⟩, .single ⟨i, ⟨_, htaken, rfl⟩, hgives⟩⟩
  | @broker state chain hrequest hsub =>
    obtain ⟨past', hp, -⟩ := exists_suffix_of_traceOf hbase
    obtain ⟨j, ttl', past'', hput⟩ := popped_put h (hp.trans hpast)
    obtain ⟨a, id, request, hopen, hf⟩ :=
      hchains _ _ _ _ _ ((hput.trans (List.suffix_cons _ _)).trans hp)
    exact ⟨a, id, request, hopen, hf.tail ⟨i, ⟨_, hlift.subset List.mem_cons_self, rfl⟩, hgives⟩⟩

/-- Every chain record belongs to a flow, by induction on the log before it. -/
theorem chain_originates (h : Reach (handler E) ok c) (n : Nat) {past : AsLog}
    (hn : past.length < n) {i : Nat} {key : String} {v : Chain} {ttl : Option Nat}
    (hs : (⟨i, ⟨.put .chain key v ttl, ()⟩⟩ : AsEntry) :: past <:+ c.log) :
    Originates c (.chain key) := by
  induction n generalizing past i key v ttl with
  | zero => cases hn
  | succ n ih =>
    obtain ⟨r, hr, seg, base, htr, -, hb⟩ := performed h hs
    refine entered_originates h hb ⟨_ :: _ :: seg, htr.symm⟩ ((List.suffix_cons _ _).trans hs)
      ⟨_, mem_traceOf.mpr (hs.subset List.mem_cons_self), rfl⟩ ?_
    intro j key' v' ttl' past' hs'
    have hlen := hs'.length_le
    simp only [List.length_cons] at hlen
    exact ih (by omega) ((hs'.trans (List.suffix_cons _ _)).trans hs)

theorem code_originates (h : Reach (handler E) ok c) {past : AsLog} {i : Nat} {key : String}
    {v : Code} {ttl : Option Nat}
    (hs : (⟨i, ⟨.put .code key v ttl, ()⟩⟩ : AsEntry) :: past <:+ c.log) :
    Originates c (.code key) := by
  obtain ⟨r, hr, reads, seg, base, kept, htr, -, hb, -⟩ := performed h hs
  refine entered_originates h hb ⟨⟨.draw (.urlsafe 32), key⟩ :: (reads ++ seg), by simp [htr]⟩ ((List.suffix_cons _ _).trans hs)
    ⟨_, mem_traceOf.mpr (hs.subset List.mem_cons_self), rfl⟩ ?_
  intro j key' v' ttl' past' hs'
  exact chain_originates h _ (Nat.lt_succ_self _)
    ((hs'.trans (List.suffix_cons _ _)).trans hs)

/-! ## Authorization requests and clients -/

/-- A flow is opened by an authorization request that was accepted. -/
theorem opens_accepts (h : Reach (handler E) ok c) {a : Nat} {id : String} {request : AuthRequest}
    (hopen : Opens c a id request) :
    ∃ q client, c.request a = some (.authorize q) ∧ Accepts E q client request ∧
      (⟨.get .client (q.client_id.getD ""), some client⟩ : AsEvent) ∈ traceOf a c.log := by
  obtain ⟨ttl, hmem⟩ := hopen
  obtain ⟨past, hs⟩ := exists_suffix_of_mem hmem
  obtain ⟨r, hr, hstarts⟩ := performed h hs
  have hsuffix : traceOf a past <:+ traceOf a c.log :=
    traceOf_suffix ((List.suffix_cons _ _).trans hs)
  generalize htr : traceOf a past = tr at hstarts hsuffix
  cases hstarts with
  | @client q client request ttl haccepts =>
    exact ⟨q, client, hr, haccepts, hsuffix.subset (by simp)⟩

/-- A request opens at most one flow. -/
theorem opens_once (h : Reach (handler E) ok c) {a : Nat} {id id' : String}
    {request request' : AuthRequest} (hopen : Opens c a id request)
    (hopen' : Opens c a id' request') : id = id' := by
  have honce : Once (IsPut .pending) (traceOf a c.log) := by
    rintro _ past hs ⟨key, v, ttl, rfl⟩ e he
    obtain ⟨r, -, hstarts⟩ := performed_trace h hs
    cases hstarts <;> simp only [List.mem_cons, List.not_mem_nil, or_false] at he
    · rcases he with rfl | rfl | rfl <;> simp [IsPut]
    · rcases he with rfl | rfl <;> simp [IsPut]
  obtain ⟨ttl, hmem⟩ := hopen
  obtain ⟨ttl', hmem'⟩ := hopen'
  have heq := honce.eq (mem_traceOf.mpr hmem) (mem_traceOf.mpr hmem') ⟨_, _, _, rfl⟩ ⟨_, _, _, rfl⟩
  cases heq
  rfl

/-- The client was registered with these redirect URIs. -/
def Registered (c : AsConfig) (client : Client) : Prop :=
  ∃ j body ttl, c.request j = some (.register body) ∧
    (⟨j, ⟨.put .client client.client_id client ttl, ()⟩⟩ : AsEntry) ∈ c.log

/-- Client records are stored under their own id and come from a registration;
    `/oauth/authorize` only stores again what it has read. -/
theorem put_client_registered (h : Reach (handler E) ok c) (n : Nat) {past : AsLog}
    (hn : past.length < n) {i : Nat} {key : String} {client : Client} {ttl : Option Nat}
    (hs : (⟨i, ⟨.put .client key client ttl, ()⟩⟩ : AsEntry) :: past <:+ c.log) :
    client.client_id = key ∧ Registered c client := by
  induction n generalizing past i key client ttl with
  | zero => cases hn
  | succ n ih =>
    obtain ⟨r, hr, ⟨body, rfl, -, hkey, -⟩ | ⟨q, rfl, htr, hkey⟩⟩ := performed h hs
    · subst hkey
      exact ⟨rfl, i, body, ttl, hr, hs.subset List.mem_cons_self⟩
    · refine ⟨hkey, ?_⟩
      obtain ⟨past', hp, -⟩ := exists_suffix_of_traceOf ⟨[], htr.symm⟩
      obtain ⟨j, ttl', past'', hput⟩ :=
        read_put h (hp.trans ((List.suffix_cons _ _).trans hs))
      have hput' := (hput.trans (List.suffix_cons _ _)).trans hp
      have hlen := hput'.length_le
      simp only [List.length_cons] at hlen
      exact (ih (by omega) (hput'.trans ((List.suffix_cons _ _).trans hs))).2

/-- A client record that is read belongs to a registered client of that id. -/
theorem read_client_registered (h : Reach (handler E) ok c) {i : Nat} {key : String}
    {client : Client} (hmem : (⟨i, ⟨.get .client key, some client⟩⟩ : AsEntry) ∈ c.log) :
    client.client_id = key ∧ Registered c client := by
  obtain ⟨past, hs⟩ := exists_suffix_of_mem hmem
  obtain ⟨j, ttl, past', hput⟩ := read_put h hs
  exact put_client_registered h _ (Nat.lt_succ_self _)
    (hput.trans ((List.suffix_cons _ _).trans hs))

/-! ## Agreement -/

/-- Thread `i` has issued a pair for the authorization code of its form. -/
def CodePair (c : AsConfig) (i : Nat) (form : TokenForm) (refresh : String) (v : Refresh) : Prop :=
  c.request i = some (.token form) ∧ form.grant_type = some "authorization_code" ∧
    Issued c i refresh v

/-- The pair issued on `form` and the authorization request `q` of thread `a`
    agree. -/
structure Agreement (E : Env) (c : AsConfig) (a : Nat) (q : AuthorizeQuery) (form : TokenForm)
    (v : Refresh) : Prop where
  request : c.request a = some (.authorize q)
  descends : Descends c a form.code
  client_id : v.client_id = q.client_id.getD ""
  redirect_uri : ∃ client uri, Registered c client ∧ client.client_id = v.client_id ∧
    uri ∈ client.redirect_uris ∧ redirect_matches uri (q.redirect_uri.getD "") = true ∧
    redirect_matches uri form.redirect_uri = true
  code_verifier : q.code_challenge = some (s256 E.sha256 form.code_verifier)
  sub : ∃ id request, Opens c a id request ∧ LoggedIn c id v.sub
  scope : ∃ kept, v.scope = join (E.as_audience :: kept) ∧
    ∀ s ∈ kept, s ∈ requested_scopes E.toSettings q ∧ E.offers s = true

/-- The code of a pair was popped by the request that issued the pair. -/
theorem code_pair_popped (h : Reach (handler E) ok c) {i : Nat} {form : TokenForm}
    {refresh : String} {v : Refresh} (hp : CodePair c i form refresh v) :
    ∃ rec, (⟨i, ⟨.pop .code form.code, some rec⟩⟩ : AsEntry) ∈ c.log ∧ Redeems E form rec ∧
      v.client_id = form.client_id ∧ v.sub = rec.sub ∧ v.scope = rec.scope := by
  obtain ⟨hr, hgrant, hissued⟩ := hp
  obtain ⟨form', past, tr, ttl, hr', hclient, hsource, ⟨jti, now, rfl⟩, hsuffix⟩ :=
    issued_source h hissued
  cases request_unique hr hr'
  cases hsource with
  | @code rec hg hredeems hsub hscope =>
    exact ⟨rec, mem_traceOf.mp (hsuffix.subset (by simp)), hredeems, hclient, hsub, hscope⟩
  | refresh hg => rw [hgrant] at hg; exact absurd hg (by decide)
  | device hg => rw [hgrant] at hg; exact absurd hg (by decide)

/-- The scopes of a code were asked for and belong to services. -/
theorem code_scopes (h : Reach (handler E) ok c) {i : Nat} {key : String} {v : Code}
    {ttl : Option Nat} (hmem : (⟨i, ⟨.put .code key v ttl, ()⟩⟩ : AsEntry) ∈ c.log) :
    ∃ kept, v.scope = join (E.as_audience :: kept) ∧
      ∀ s ∈ kept, s ∈ v.request.scopes ∧ E.offers s = true := by
  obtain ⟨past, hs⟩ := exists_suffix_of_mem hmem
  obtain ⟨r, hr, reads, seg, base, kept, htr, -, hb, hscope, hkept⟩ := performed h hs
  refine ⟨kept, hscope, fun s hsk => ⟨hkept.requested s hsk, ?_⟩⟩
  obtain ⟨svc, value, hsvc, -, -⟩ := hkept.granted s hsk
  simp [Settings.offers, hsvc]

theorem code_pair_agrees (h : Reach (handler E) ok c) {i : Nat} {form : TokenForm}
    {refresh : String} {v : Refresh} (hp : CodePair c i form refresh v) :
    ∃ a q, Agreement E c a q form v := by
  obtain ⟨rec, hpop, hredeems, hclient, hsub, hscope⟩ := code_pair_popped h hp
  -- back from the code to the authorization request
  obtain ⟨past, hs⟩ := exists_suffix_of_mem hpop
  obtain ⟨j, ttl, past', hput⟩ := popped_put h hs
  have hcode := hput.trans ((List.suffix_cons _ _).trans hs)
  obtain ⟨a, id, request, hopen, hflow⟩ := code_originates h hcode
  obtain ⟨k, rec', ttl', hmem', hrequest, hlogged⟩ := flow_carries h hopen hflow
  obtain ⟨-, heq⟩ := put_unique (reach_ledger h) (fresh_keyed h (.inr (.inr (.inl rfl))))
    (hcode.subset List.mem_cons_self) hmem'
  subst heq
  -- and what that request was
  obtain ⟨q, client, ha, haccepts, hread⟩ := opens_accepts h hopen
  obtain ⟨hid, hreg⟩ := read_client_registered h (mem_traceOf.mp hread)
  obtain ⟨uri, huri, hmatch⟩ := haccepts.registered
  obtain ⟨kept, hkept, hoffers⟩ := code_scopes h hmem'
  have hsame : v.client_id = client.client_id := by
    rw [hclient, ← hredeems.client_id, hrequest, haccepts.client_id]
  refine ⟨a, q, ha, ⟨id, request, hopen, hflow⟩, hsame.trans hid, ?_, ?_, ?_, ?_⟩
  · refine ⟨client, uri, hreg, hsame.symm, huri, haccepts.redirect_uri ▸ hmatch, ?_⟩
    exact redirect_matches_trans hmatch (hrequest ▸ hredeems.redirect_uri)
  · have hpkce := hredeems.code_verifier
    rw [pkce_ok, Bool.and_eq_true, beq_iff_eq, hrequest] at hpkce
    rw [haccepts.code_challenge, hpkce.2]
  · exact ⟨id, request, hopen, hsub ▸ hlogged⟩
  · refine ⟨kept, hscope.trans hkept, fun s hsk => ?_⟩
    rw [← haccepts.scopes, ← hrequest]
    exact hoffers s hsk

/-- A code descends from one authorization request only. -/
theorem origin_unique (h : Reach (handler E) ok c) {a a' : Nat} {code : String}
    (hd : Descends c a code) (hd' : Descends c a' code) : a = a' := by
  obtain ⟨id, request, ⟨ttl, hopen⟩, hflow⟩ := hd
  obtain ⟨id', request', ⟨ttl', hopen'⟩, hflow'⟩ := hd'
  obtain rfl := origin_of_ticket h hflow hflow'
  exact (put_unique (reach_ledger h) (fresh_keyed h (.inl rfl)) hopen hopen').1

/-- The pairs issued for authorization codes and the authorization requests
    they come from correspond one to one and agree on everything, whatever the
    interleaving; what is sent for a code is such a pair, with an access token
    that says the same; and a code that was presented wrongly is never redeemed. -/
theorem code_pairs_agree (h : Reached E c) :
    (∀ i form refresh v, CodePair c i form refresh v →
      ∃ a q, Agreement E c a q form v ∧ ∀ a', Descends c a' form.code → a' = a) ∧
    (∀ i form access refresh scope expires_in, c.request i = some (.token form) →
      form.grant_type = some "authorization_code" →
      c.response i = some (.tokens access refresh scope expires_in) →
      ∃ v, CodePair c i form refresh v ∧ Accompanies v access scope) ∧
    (∀ i j form form' refresh refresh' v v' a, CodePair c i form refresh v →
      CodePair c j form' refresh' v' → Descends c a form.code → Descends c a form'.code →
      i = j ∧ refresh = refresh' ∧ v = v') ∧
    (∀ i form rec, c.request i = some (.token form) →
      (⟨i, ⟨.pop .code form.code, some rec⟩⟩ : AsEntry) ∈ c.log → ¬ Redeems E form rec →
      ∀ j form' refresh v, CodePair c j form' refresh v → form'.code ≠ form.code) := by
  have hl := reach_ledger h
  have hfresh : FreshKeyed .code c.log := fresh_keyed h (.inr (.inr (.inl rfl)))
  refine ⟨?_, ?_, ?_, ?_⟩
  · intro i form refresh v hp
    obtain ⟨a, q, hagree⟩ := code_pair_agrees h hp
    exact ⟨a, q, hagree, fun a' hd => origin_unique h hd hagree.descends⟩
  · intro i form access refresh scope expires_in hr hgrant hres
    obtain ⟨v, hissued, hsame⟩ := tokens_issued h hres
    exact ⟨v, ⟨hr, hgrant, hissued⟩, hsame⟩
  · intro i j form form' refresh refresh' v v' a hp hp' hd hd'
    obtain ⟨id, request, hopen, hflow⟩ := hd
    obtain ⟨id', request', hopen', hflow'⟩ := hd'
    obtain rfl := opens_once h hopen hopen'
    -- two codes of one authorization are one code, and a code is popped once
    have hcode := code_of_origin h hflow hflow'
    obtain ⟨rec, hpop, -⟩ := code_pair_popped h hp
    obtain ⟨rec', hpop', -⟩ := code_pair_popped h hp'
    rw [← hcode] at hpop'
    obtain ⟨rfl, -⟩ := popped_once hl hfresh hpop hpop'
    exact ⟨rfl, issued_once h hp.2.2 hp'.2.2⟩
  · intro i form rec hr hpop hwrong j form' refresh v hp hsame
    -- the pair has popped the code with a form that redeems it
    obtain ⟨rec', hpop', hredeems, -⟩ := code_pair_popped h hp
    rw [hsame] at hpop'
    obtain ⟨rfl, rfl⟩ := popped_once hl hfresh hpop hpop'
    have hforms := request_unique hr hp.1
    cases hforms
    exact hwrong hredeems

/-- The pair of a login agrees with an authorization request, and so does the
    access token that the client receives. -/
theorem code_pairs_agree_login : ∃ c access refresh scope n v, Reached sample c ∧
    c.response 3 = some (.tokens access refresh scope n) ∧ CodePair c 3 login_form refresh v ∧
    Accompanies v access scope ∧ ∃ a q, Agreement sample c a q login_form v := by
  obtain ⟨c, hreach, hpair, -⟩ := login_run
  obtain ⟨hr, access, refresh, scope, n, hres⟩ := got_pair_spec hpair
  obtain ⟨hagrees, hsent, -⟩ := code_pairs_agree hreach
  obtain ⟨v, hp, hsame⟩ := hsent 3 login_form access refresh scope n hr rfl hres
  obtain ⟨a, q, hagree, -⟩ := hagrees 3 login_form refresh v hp
  exact ⟨c, access, refresh, scope, n, v, hreach, hres, hp, hsame, a, q, hagree⟩

end AlitellmAuth
