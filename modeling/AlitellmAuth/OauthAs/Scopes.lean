import AlitellmAuth.OauthAs.CodeFlow
import AlitellmAuth.OauthAs.Refresh

/-! # Scopes only shrink

    The scope of a pair is the audience followed by services, joined into one
    string and split again at the next rotation. Each derivation keeps a
    service only if it was in the scope before and the projection grants it
    right now, so along a chain of rotations scopes can only disappear.
-/

namespace AlitellmAuth

open Interleave Text Relation

variable {E : Env} {ok : AsConfig → AsConfig → Prop} {c : AsConfig}

/-- How the scope of the pair of thread `i` came about: which services were
    kept on the word of which reads. A code carries the scope that the thread
    `k` derived when it wrote the code. -/
inductive DerivedBy (E : Env) (c : AsConfig) (i : Nat) (refresh : String) (v : Refresh) :
    List String → Prop where
  | code {form : TokenForm} {rec : Code} {k : Nat} {ttl : Option Nat} {reads rest : AsTrace}
      {kept : List String} (hrequest : c.request i = some (.token form))
      (hgrant : form.grant_type = some "authorization_code")
      (hpop : (⟨i, ⟨.pop .code form.code, some rec⟩⟩ : AsEntry) ∈ c.log)
      (hscope : v.scope = rec.scope)
      (hreads : ⟨.put .code form.code rec ttl, ()⟩ :: ⟨.draw (.urlsafe 32), form.code⟩ ::
        (reads ++ rest) <:+ traceOf k c.log)
      (hkept : KeptIn E v.sub rec.request.scopes kept reads) : DerivedBy E c i refresh v kept
  | refresh {form : TokenForm} {consumed : Refresh} {u jti : String} {now : Nat}
      {ttl : Option Nat} {reads before : AsTrace} {kept : List String}
      (hrequest : c.request i = some (.token form))
      (hgrant : form.grant_type = some "refresh_token")
      (hreads : rotation form refresh v ttl jti now reads consumed u before <:+ traceOf i c.log)
      (hkept : KeptIn E v.sub (split consumed.scope) kept reads) : DerivedBy E c i refresh v kept
  | device {form : TokenForm} (hrequest : c.request i = some (.token form))
      (hgrant : form.grant_type = some DEVICE_GRANT) : DerivedBy E c i refresh v []

/-- Every pair's scope is the audience followed by services that were granted
    when the scope was derived. -/
theorem issued_derived (h : Reach (handler E) ok c) {i : Nat} {refresh : String} {v : Refresh}
    (hi : Issued c i refresh v) :
    ∃ kept, v.scope = join (E.as_audience :: kept) ∧ DerivedBy E c i refresh v kept := by
  obtain ⟨form, past, tr, ttl, hr, hclient, hsource, ⟨jti, now, rfl⟩, hsuffix⟩ :=
    issued_source h hi
  cases hsource with
  | @code rec hgrant hredeems hsub hscope =>
    have hpop : (⟨i, ⟨.pop .code form.code, some rec⟩⟩ : AsEntry) ∈ c.log :=
      mem_traceOf.mp (hsuffix.subset (by simp))
    obtain ⟨past, hs⟩ := exists_suffix_of_mem hpop
    obtain ⟨k, ttl', past', hput⟩ := popped_put h hs
    have hcode := hput.trans ((List.suffix_cons _ _).trans hs)
    obtain ⟨r, -, reads, seg, base, kept, htr, -, -, hkscope, hkept⟩ := performed h hcode
    have htrace := traceOf_suffix (i := k) hcode
    rw [traceOf_self, htr] at htrace
    exact ⟨kept, hscope.trans hkscope, .code hr hgrant hpop hscope htrace (hsub ▸ hkept)⟩
  | @refresh consumed u kept seg before hgrant hc hsub hscope hkept hbefore =>
    exact ⟨kept, hscope, .refresh hr hgrant hsuffix (hsub ▸ hkept)⟩
  | device hgrant hc hstatus hsub hscope =>
    exact ⟨[], hscope.trans (join_singleton _).symm, .device hr hgrant⟩

/-- The scopes of a code flow are words: they were split off the request. -/
theorem code_scope_words (h : Reach (handler E) ok c) {i : Nat} {key : String} {v : Code}
    {ttl : Option Nat} (hmem : (⟨i, ⟨.put .code key v ttl, ()⟩⟩ : AsEntry) ∈ c.log) :
    ∀ s ∈ v.request.scopes, IsWord s := by
  obtain ⟨past, hs⟩ := exists_suffix_of_mem hmem
  obtain ⟨a, id, request, hopen, hflow⟩ := code_originates h hs
  obtain ⟨k, v', ttl', hmem', hrequest, -⟩ := flow_carries h hopen hflow
  obtain ⟨-, rfl⟩ := put_unique (reach_ledger h) (fresh_keyed h (.inr (.inr (.inl rfl)))) hmem hmem'
  obtain ⟨q, client, -, haccepts, -⟩ := opens_accepts h hopen
  intro s hsc
  rw [hrequest, haccepts.scopes, requested_scopes] at hsc
  split at hsc <;> exact isWord_of_mem_split hsc

/-- The words of a scope are those of the audience and the services kept. -/
theorem DerivedBy.words (h : Reach (handler E) ok c) {i : Nat} {refresh : String} {v : Refresh}
    {kept : List String} (hd : DerivedBy E c i refresh v kept) : ∀ s ∈ kept, IsWord s := by
  intro s hs
  cases hd with
  | code hrequest hgrant hpop hscope hreads hkept =>
    have hmem := mem_traceOf.mp (hreads.subset List.mem_cons_self)
    exact code_scope_words h hmem s (hkept.requested s hs)
  | refresh hrequest hgrant hreads hkept =>
    exact isWord_of_mem_split (hkept.requested s hs)
  | device => cases hs

theorem issued_split (h : Reach (handler E) ok c) {i : Nat} {refresh : String} {v : Refresh}
    (hi : Issued c i refresh v) :
    ∃ kept, split v.scope = split E.as_audience ++ kept ∧ DerivedBy E c i refresh v kept := by
  obtain ⟨kept, hscope, hd⟩ := issued_derived h hi
  exact ⟨kept, by rw [hscope, split_join _ _ (hd.words h)], hd⟩

/-- One rotation adds no scope. -/
theorem rotation_shrinks (h : Reach (handler E) ok c) {i j : Nat} {form : TokenForm}
    {refresh : String} {v v' : Refresh} (hi : Issued c i form.refresh_token v)
    (hp : RefreshPair c j form refresh v') : split v'.scope ⊆ split v.scope := by
  obtain ⟨ttl, jti, now, seg, consumed, u, before, kept, hs, -, -, -, -, hscope, hkept⟩ :=
    refresh_pair_trace h hp
  have hpop : (⟨j, ⟨.pop .refresh form.refresh_token, some consumed⟩⟩ : AsEntry) ∈ c.log :=
    mem_traceOf.mp (hs.subset (by simp [rotation]))
  obtain rfl := popped_issued h hpop hi
  obtain ⟨kept₀, hsplit, -⟩ := issued_split h hi
  rw [hscope, split_join _ _ fun w hw => isWord_of_mem_split (hkept.requested w hw)]
  intro w hw
  rcases List.mem_append.mp hw with hw | hw
  · rw [hsplit]
    exact List.mem_append_left _ hw
  · exact hkept.requested w hw

/-- Every refresh token that was rotated had been issued. -/
theorem rotated_issued (h : Reach (handler E) ok c) {j : Nat} {form : TokenForm}
    {refresh : String} {v : Refresh} (hp : RefreshPair c j form refresh v) :
    ∃ i w, Issued c i form.refresh_token w := by
  obtain ⟨consumed, hpop, -⟩ := refresh_pair_popped h hp
  obtain ⟨past, hs⟩ := exists_suffix_of_mem hpop
  obtain ⟨i, ttl, past', hput⟩ := popped_put h hs
  exact ⟨i, consumed, ttl,
    (hput.trans ((List.suffix_cons _ _).trans hs)).subset List.mem_cons_self⟩

/-- A whole chain of rotations adds no scope. -/
theorem chain_shrinks (h : Reach (handler E) ok c) {i : Nat} {rt rt' : String} {v : Refresh}
    (hi : Issued c i rt v) (hchain : ReflTransGen (Succeeds c) rt rt') {j : Nat} {v' : Refresh}
    (hj : Issued c j rt' v') : split v'.scope ⊆ split v.scope := by
  induction hchain generalizing j v' with
  | refl =>
    obtain ⟨-, rfl⟩ := issued_unique h hi hj
    exact fun _ hw => hw
  | @tail b d _ hstep ih =>
    obtain ⟨k, form, w, hp, rfl⟩ := hstep
    obtain ⟨-, rfl⟩ := issued_unique h hj hp.2.2
    obtain ⟨m, u, hprev⟩ := rotated_issued h hp
    exact fun x hx => ih hprev (rotation_shrinks h hprev hp hx)

/-- If the audience is one word, a pair that carries it alone is followed by
    pairs that carry it alone. -/
theorem chain_audience (h : Reach (handler E) ok c) (hword : IsWord E.as_audience) {i : Nat}
    {rt rt' : String} {v : Refresh} (hi : Issued c i rt v) (hv : v.scope = E.as_audience)
    (hchain : ReflTransGen (Succeeds c) rt rt') {j : Nat} {v' : Refresh}
    (hj : Issued c j rt' v') : v'.scope = E.as_audience := by
  induction hchain generalizing j v' with
  | refl =>
    obtain ⟨-, rfl⟩ := issued_unique h hi hj
    exact hv
  | @tail b d _ hstep ih =>
    obtain ⟨k, form, w, hp, rfl⟩ := hstep
    obtain ⟨-, rfl⟩ := issued_unique h hj hp.2.2
    obtain ⟨m, u, hprev⟩ := rotated_issued h hp
    obtain ⟨ttl, jti, now, seg, consumed, u', before, kept, hs, -, -, -, -, hscope, hkept⟩ :=
      refresh_pair_trace h hp
    have hpop : (⟨k, ⟨.pop .refresh form.refresh_token, some consumed⟩⟩ : AsEntry) ∈ c.log :=
      mem_traceOf.mp (hs.subset (by simp [rotation]))
    obtain rfl := popped_issued h hpop hprev
    -- the only word there is to keep is the audience, and it is never kept
    have hsplit : split consumed.scope = [E.as_audience] := by
      rw [ih hprev, split_word hword]
    have hnil : kept = [] := by
      refine List.eq_nil_iff_forall_not_mem.mpr fun s hsk => ?_
      have hin := hkept.requested s hsk
      rw [hsplit] at hin
      exact hkept.no_audience s hsk (List.mem_singleton.mp hin)
    rw [hscope, hnil, join_singleton]

theorem device_pair_scope (h : Reach (handler E) ok c) {i : Nat} {form : TokenForm}
    {refresh : String} {v : Refresh} (hp : DevicePair c i form refresh v) :
    v.scope = E.as_audience := by
  obtain ⟨hr, hgrant, hissued⟩ := hp
  obtain ⟨form', past, tr, ttl, hr', -, hsource, -⟩ := issued_source h hissued
  cases request_unique hr hr'
  cases hsource with
  | code hg => rw [hgrant] at hg; exact absurd hg (by decide)
  | refresh hg => rw [hgrant] at hg; exact absurd hg (by decide)
  | device hg hc hstatus hsub hscope => exact hscope

/-- Scopes only shrink, whatever the requested scopes, the registry and the
    projections over time. The scope of every pair is the audience followed by
    services that the projection granted to the pair's user when the scope was
    derived; along a chain of rotations no scope is added, so one that was
    dropped never comes back; and a chain that starts with a device code
    carries the audience alone. -/
theorem scopes_only_shrink (h : Reached E c) :
    (∀ i refresh v, Issued c i refresh v → ∃ kept, v.scope = join (E.as_audience :: kept) ∧
      split v.scope = split E.as_audience ++ kept ∧ DerivedBy E c i refresh v kept) ∧
    (∀ i j rt rt' v v', Issued c i rt v → Issued c j rt' v' →
      ReflTransGen (Succeeds c) rt rt' → split v'.scope ⊆ split v.scope) ∧
    (∀ i j form rt rt' v v', DevicePair c i form rt v → Issued c j rt' v' →
      ReflTransGen (Succeeds c) rt rt' → split v'.scope ⊆ split E.as_audience ∧
        (IsWord E.as_audience → v'.scope = E.as_audience)) := by
  refine ⟨?_, ?_, ?_⟩
  · intro i refresh v hi
    obtain ⟨kept, hscope, hd⟩ := issued_derived h hi
    exact ⟨kept, hscope, by rw [hscope, split_join _ _ (hd.words h)], hd⟩
  · intro i j rt rt' v v' hi hj hchain
    exact chain_shrinks h hi hchain hj
  · intro i j form rt rt' v v' hp hj hchain
    have hv := device_pair_scope h hp
    have hshrinks := chain_shrinks h hp.2.2 hchain hj
    rw [hv] at hshrinks
    exact ⟨hshrinks, fun hword => chain_audience h hword hp.2.2 hv hchain hj⟩

/-- The scope of a refreshed login is the audience and granted services. -/
theorem scopes_only_shrink_sample : ∃ c refresh v, Reached sample c ∧
    RefreshPair c 4 refresh_form refresh v ∧
    ∃ kept, v.scope = join (sample.as_audience :: kept) ∧ DerivedBy sample c 4 refresh v kept := by
  obtain ⟨c, refresh, v, hreach, hp⟩ := refresh_run
  obtain ⟨kept, hscope, -, hd⟩ := (scopes_only_shrink hreach).1 4 refresh v hp.2.2
  exact ⟨c, refresh, v, hreach, hp, kept, hscope, hd⟩

end AlitellmAuth
