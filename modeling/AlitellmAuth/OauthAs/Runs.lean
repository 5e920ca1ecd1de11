import AlitellmAuth.OauthAs.Conformance

/-! # Runs of the service

    The contract of the handlers, read off the log of a run. Everything here
    holds for runs whose steps meet any side condition `ok`, so that it serves
    the results about all runs as well as those about restricted ones.
-/

namespace AlitellmAuth

open Interleave

variable {E : Env} {ok : AsConfig → AsConfig → Prop} {c : AsConfig}

/-- The log of a run. -/
abbrev AsLog := List AsEntry

/-- Every entry of the log is one its request may perform at that point. -/
theorem performed (h : Reach (handler E) ok c) {i : Nat} {ev : AsEvent} {past : AsLog}
    (hs : ⟨i, ev⟩ :: past <:+ c.log) :
    ∃ r, c.request i = some r ∧ Performs E r (traceOf i past) ev :=
  ((reach_contracted handler_performs h).1).at hs

/-- The same for an event of a thread's trace. -/
theorem performed_trace (h : Reach (handler E) ok c) {i : Nat} {ev : AsEvent} {tr : AsTrace}
    (hs : ev :: tr <:+ traceOf i c.log) :
    ∃ r, c.request i = some r ∧ Performs E r tr ev := by
  obtain ⟨past, hp, rfl⟩ := exists_suffix_of_traceOf hs
  exact performed h hp

/-- What a thread waits for is something its request may perform. -/
theorem awaiting (h : Reach (handler E) ok c) {i : Nat} {op : AsOp}
    (hi : c.awaits i = some op) (a : AsAns op) :
    ∃ r, c.request i = some r ∧ Performs E r (traceOf i c.log) ⟨op, a⟩ := by
  obtain ⟨⟨r, p⟩, hth, hp⟩ := Option.bind_eq_some_iff.mp hi
  cases p with
  | ret res => cases hp
  | call op' k =>
    cases hp
    have hal := (reach_contracted handler_performs h).2 i _ hth a
    exact ⟨r, by simp [Config.request, hth], hal.1⟩

/-- What stands behind the response of a thread. -/
theorem answered (h : Reach (handler E) ok c) {i : Nat} {res : Response}
    (hi : c.response i = some res) :
    ∃ r, c.request i = some r ∧ Answers r (traceOf i c.log) res := by
  unfold Config.response at hi
  split at hi
  · next r a hth =>
    cases hi
    exact ⟨r, by simp [Config.request, hth], (reach_contracted handler_performs h).2 i _ hth⟩
  · cases hi

/-- A thread serves one request. -/
theorem request_unique {i : Nat} {r r' : Request} (h : c.request i = some r)
    (h' : c.request i = some r') : r = r' := by
  rw [h] at h'
  exact Option.some.inj h'

/-! ## Records under fresh keys -/

/-- The kinds whose records are only ever written under a just drawn key. -/
def Kind.Fresh (k : Kind) : Prop := k = .pending ∨ k = .chain ∨ k = .code ∨ k = .refresh

theorem Starts.drawn {pending_id : String} {v : Pending} {r : Request} {tr : AsTrace}
    (h : Starts E pending_id v r tr) :
    ∃ tr', tr = ⟨.draw (.urlsafe 24), pending_id⟩ :: tr' := by
  cases h <;> exact ⟨_, rfl⟩

theorem fresh_keyed (h : Reach (handler E) ok c) {k : Kind} (hk : k.Fresh) :
    FreshKeyed k c.log := by
  refine ((reach_contracted handler_performs h).1).mono ?_
  rintro past ⟨i, ev⟩ ⟨r, -, hperf⟩ key v ttl rfl
  rcases hk with rfl | rfl | rfl | rfl
  · obtain ⟨tr', htr⟩ := Starts.drawn hperf
    exact ⟨_, _, htr⟩
  · obtain ⟨seg, base, htr, -⟩ := hperf
    exact ⟨_, _, htr⟩
  · obtain ⟨reads, seg, base, kept, htr, -⟩ := hperf
    exact ⟨_, _, htr⟩
  · obtain ⟨form, past', -, -, ⟨jti, now, htr⟩, -⟩ := hperf
    exact ⟨_, _, htr⟩

/-- A record that is read was written before, and not by the reader's future. -/
theorem read_put (h : Reach (handler E) ok c) {i : Nat} {k : Kind} {key : String} {v : k.Rec}
    {past : AsLog} (hs : (⟨i, ⟨.get k key, some v⟩⟩ : AsEntry) :: past <:+ c.log) :
    ∃ j ttl past', (⟨j, ⟨.put k key v ttl, ()⟩⟩ : AsEntry) :: past' <:+ past :=
  put_of_contents ((reach_ledger h).at hs v rfl)

/-- The same for a record that is popped. -/
theorem popped_put (h : Reach (handler E) ok c) {i : Nat} {k : Kind} {key : String} {v : k.Rec}
    {past : AsLog} (hs : (⟨i, ⟨.pop k key, some v⟩⟩ : AsEntry) :: past <:+ c.log) :
    ∃ j ttl past', (⟨j, ⟨.put k key v ttl, ()⟩⟩ : AsEntry) :: past' <:+ past :=
  put_of_contents ((reach_ledger h).at hs v rfl)

/-! ## Token pairs -/

/-- Thread `i` has issued a token pair: it has stored its refresh token. -/
def Issued (c : AsConfig) (i : Nat) (refresh : String) (v : Refresh) : Prop :=
  ∃ ttl, (⟨i, ⟨.put .refresh refresh v ttl, ()⟩⟩ : AsEntry) ∈ c.log

/-- The access token and the scope beside it name the user, the client and the
    scope of the refresh token they are sent with. -/
def Accompanies (v : Refresh) (access : Claims) (scope : String) : Prop :=
  access.sub = v.sub ∧ access.client_id = .str v.client_id ∧ access.scope = v.scope ∧
    scope = v.scope

/-- A pair that is sent to a client was issued, and its access token names the
    same user, client and scope as its refresh token. -/
theorem tokens_issued (h : Reach (handler E) ok c) {i : Nat} {access : Claims}
    {refresh scope : String} {n : Nat}
    (hi : c.response i = some (.tokens access refresh scope n)) :
    ∃ v, Issued c i refresh v ∧ Accompanies v access scope := by
  obtain ⟨r, -, hans, -⟩ := answered h hi
  obtain ⟨v, ttl, past, htr, hsub, hclient, hscope, hscope'⟩ := hans _ _ _ _ rfl
  refine ⟨v, ⟨ttl, ?_⟩, hsub, hclient, hscope, hscope'⟩
  rw [← mem_traceOf, htr]
  exact List.mem_cons_self

/-- Thread `i` has issued a pair for the device code of its form. -/
def DevicePair (c : AsConfig) (i : Nat) (form : TokenForm) (refresh : String) (v : Refresh) :
    Prop :=
  c.request i = some (.token form) ∧ form.grant_type = some DEVICE_GRANT ∧ Issued c i refresh v

/-- What a pair was issued for. -/
theorem issued_source (h : Reach (handler E) ok c) {i : Nat} {refresh : String} {v : Refresh}
    (hi : Issued c i refresh v) :
    ∃ form past tr ttl, c.request i = some (.token form) ∧ v.client_id = form.client_id ∧
      Source E form v past ∧ Signed refresh past tr ∧
      ⟨.put .refresh refresh v ttl, ()⟩ :: tr <:+ traceOf i c.log := by
  obtain ⟨ttl, hmem⟩ := hi
  obtain ⟨past, hs⟩ := exists_suffix_of_mem hmem
  obtain ⟨r, hr, form, past', rfl, hclient, hsigned, hsource⟩ := performed h hs
  refine ⟨form, past', _, ttl, hr, hclient, hsource, hsigned, ?_⟩
  rw [← traceOf_self]
  exact traceOf_suffix hs

/-- The event stores a record of kind `k`. -/
def IsPut (k : Kind) (e : AsEvent) : Prop := ∃ key v ttl, e = ⟨.put k key v ttl, ()⟩

theorem Quiet.not_put {seg : AsTrace} (hq : Quiet seg) {k : Kind} (hk : k ≠ .brokerclient) :
    ∀ e ∈ seg, ¬ IsPut k e := by
  rintro e he ⟨key, v, ttl, rfl⟩
  have := hq _ he
  cases k <;> first | exact hk rfl | exact this

/-- The last thing a request did before it replays a token was to read it. -/
theorem Holding.head {form : TokenForm} {u : String} {n : Nat} {d : DexRt} {tr : AsTrace}
    (h : Holding form u n d tr) : ∃ tr', tr = ⟨.get .dexrt u, some d⟩ :: tr' := by
  cases h <;> exact ⟨_, rfl⟩

/-- A request that replays a token has read its refresh token. -/
theorem Holding.read {form : TokenForm} {u : String} {n : Nat} {d : DexRt} {tr : AsTrace}
    (h : Holding form u n d tr) :
    ∃ rec : Refresh, (⟨.get .refresh form.refresh_token, some rec⟩ : AsEvent) ∈ tr ∧
      rec.client_id = form.client_id ∧ rec.sub = u := by
  induction h with
  | first hclient hsub => exact ⟨_, by simp, hclient, hsub⟩
  | again _ _ _ ih =>
    obtain ⟨rec, hm, hrec⟩ := ih
    exact ⟨rec, by simp [hm], hrec⟩

/-- Everything a request has done when Dex has honoured the user. -/
theorem Honoured.mem {form : TokenForm} {u : String} {tr : AsTrace} (h : Honoured form u tr)
    {e : AsEvent} (he : e ∈ tr) :
    (∃ v ttl, e = ⟨.put .dexrt u v ttl, ()⟩) ∨ (∃ d, e = ⟨.get .dexrt u, some d⟩) ∨
    (∃ rt reply, e = ⟨.ext (.dex_refresh rt), reply⟩) ∨
    ∃ rec, e = ⟨.get .refresh form.refresh_token, some rec⟩ ∧ rec.client_id = form.client_id ∧
      rec.sub = u := by
  obtain ⟨n, d, reply, rotated, ttl, _, rfl, ⟨tr₀, rfl, hold⟩, -⟩ := h
  simp only [List.mem_cons] at he
  rcases he with rfl | rfl | he
  · exact .inl ⟨_, _, rfl⟩
  · exact .inr (.inr (.inl ⟨_, _, rfl⟩))
  · rcases hold.mem he with ⟨d', rfl⟩ | ⟨rt, reply, rfl, -⟩ | hrec
    · exact .inr (.inl ⟨_, rfl⟩)
    · exact .inr (.inr (.inl ⟨_, _, rfl⟩))
    · exact .inr (.inr (.inr hrec))

theorem Source.not_issued {form : TokenForm} {v : Refresh} {past : AsTrace}
    (h : Source E form v past) : ∀ e ∈ past, ¬ IsPut .refresh e := by
  rintro e he ⟨key, v', ttl, rfl⟩
  cases h with
  | code => simp at he
  | device => simp at he
  | refresh hgrant hclient hsub hscope hkept hbefore =>
    simp only [List.mem_append, List.mem_cons] at he
    rcases he with he | he | he | he
    · exact hkept.reads.quiet.not_put (by simp) _ he ⟨_, _, _, rfl⟩
    · cases he
    · cases he
    · rcases hbefore.mem he with ⟨_, _, heq⟩ | ⟨_, heq⟩ | ⟨_, _, heq⟩ | ⟨_, heq, -⟩ <;> cases heq

/-- A request issues at most one pair. -/
theorem issued_once (h : Reach (handler E) ok c) {i : Nat} {refresh refresh' : String}
    {v v' : Refresh} (hi : Issued c i refresh v) (hi' : Issued c i refresh' v') :
    refresh = refresh' ∧ v = v' := by
  obtain ⟨ttl, hmem⟩ := hi
  obtain ⟨ttl', hmem'⟩ := hi'
  have honce : Once (IsPut .refresh) (traceOf i c.log) := by
    rintro _ past hs ⟨key, w, t, rfl⟩ e he
    obtain ⟨r, -, form, before, -, -, ⟨jti, now, rfl⟩, hsource⟩ := performed_trace h hs
    simp only [List.mem_cons] at he
    rcases he with rfl | rfl | rfl | he
    · simp [IsPut]
    · simp [IsPut]
    · simp [IsPut]
    · exact hsource.not_issued e he
  have heq := honce.eq (mem_traceOf.mpr hmem) (mem_traceOf.mpr hmem') ⟨_, _, _, rfl⟩ ⟨_, _, _, rfl⟩
  cases heq
  exact ⟨rfl, rfl⟩

end AlitellmAuth
