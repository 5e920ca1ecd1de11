import AlitellmAuth.Framework.Locks
import AlitellmAuth.OauthAs.Runs

/-! # Minting the front key

    What the mint lock is worth. The lock has no owner and a lifetime, and the
    record of a rejected key is popped by the name of its user, so two things
    can go wrong: the lock can run out under its holder, and a call can pop a
    record that was written after the one it has checked.

    * `mint_excludes`: as long as no lock runs out, at most one call mints.
    * `live_key_kept`: as long as, besides, a call pops only the record it has
      checked, a key that LiteLLM recognises is kept and no other is minted.
-/

namespace AlitellmAuth

open Interleave

variable {E : Env} {ok : AsConfig → AsConfig → Prop} {c : AsConfig}

/-! ## The locked section -/

section
variable {u : String} {tr : AsTrace}

theorem Keyless.not_release (h : Keyless u tr) (name : String) :
    (⟨.release name, ()⟩ : AsEvent) ∉ tr := by
  cases h <;> simp

theorem Locked.acquired (h : Locked u tr) :
    (⟨.acquire (mint_lock u) MINT_LOCK_TTL, true⟩ : AsEvent) ∈ tr := by
  obtain ⟨tr₀, rfl, -⟩ := h
  exact List.mem_cons_self

theorem Locked.not_release (h : Locked u tr) (name : String) :
    (⟨.release name, ()⟩ : AsEvent) ∉ tr := by
  obtain ⟨tr₀, rfl, hk⟩ := h
  simp [hk.not_release name]

theorem Minting.acquired (h : Minting u tr) :
    (⟨.acquire (mint_lock u) MINT_LOCK_TTL, true⟩ : AsEvent) ∈ tr := by
  obtain ⟨tr₀, rfl, hl⟩ := h
  exact List.mem_cons_of_mem _ hl.acquired

theorem Minting.not_release (h : Minting u tr) (name : String) :
    (⟨.release name, ()⟩ : AsEvent) ∉ tr := by
  obtain ⟨tr₀, rfl, hl⟩ := h
  simp [hl.not_release name]

theorem Inside.acquired (h : Inside u tr) :
    (⟨.acquire (mint_lock u) MINT_LOCK_TTL, true⟩ : AsEvent) ∈ tr := by
  cases h with
  | locked h => exact h.acquired
  | read h => simp [h.acquired]
  | provisioned h => simp [h.acquired]
  | generated h => simp [h.acquired]
  | stored h _ => simp [h.acquired]

theorem Inside.not_release (h : Inside u tr) (name : String) :
    (⟨.release name, ()⟩ : AsEvent) ∉ tr := by
  cases h with
  | locked h => exact h.not_release name
  | read h => simp [h.not_release name]
  | provisioned h => simp [h.not_release name]
  | generated h => simp [h.not_release name]
  | stored h _ => simp [h.not_release name]

end

/-- The calls release only the lock they have acquired. -/
theorem disciplined (h : Reach (handler E) ok c) : Disciplined c.log := by
  refine ((reach_contracted handler_performs h).1).mono ?_
  rintro past ⟨i, ev⟩ ⟨r, -, hperf⟩
  refine ⟨?_, ?_⟩
  · rintro name ttl a rfl
    obtain ⟨u, -, -, rfl, -⟩ := hperf
    decide
  · rintro name rfl
    obtain ⟨u, -, rfl, hin⟩ := hperf
    exact ⟨⟨_, hin.acquired⟩, hin.not_release _⟩

/-- At most one call is between its `acquire` and its `release`, no call
    releases a lock that another call holds, and at most one `/key/generate` of
    a user is in flight. -/
structure MintExclusive (c : AsConfig) : Prop where
  one_inside : ∀ u i j, Holder c.log i (mint_lock u) → Holder c.log j (mint_lock u) → i = j
  own_release : ∀ u i past, (⟨i, ⟨.release (mint_lock u), ()⟩⟩ : AsEntry) :: past <:+ c.log →
    ∀ j, Holder past j (mint_lock u) → j = i
  one_generate : ∀ u i j, c.awaits i = some (.ext (.key_generate u)) →
    c.awaits j = some (.ext (.key_generate u)) → i = j

/-- A call that waits for `/key/generate` holds the lock. -/
theorem generating_holds (h : Reach (handler E) ok c) {i : Nat} {u : String}
    (hi : c.awaits i = some (.ext (.key_generate u))) : Holder c.log i (mint_lock u) := by
  obtain ⟨r, -, -, tr₀, htr, hmint⟩ := awaiting h hi .crashed
  refine ⟨⟨MINT_LOCK_TTL, ?_⟩, ?_⟩
  · rw [htr]
    exact List.mem_cons_of_mem _ hmint.acquired
  · rw [htr]
    simp [hmint.not_release (mint_lock u)]

/-- The mint is exclusive in every run in which no lock runs out before it is
    released. -/
theorem mint_excludes (h : Reach (handler E) LocksLast c) : MintExclusive c := by
  have hone : ∀ c, Reach (handler E) LocksLast c → Excludes c :=
    fun c => reach_exclusive (fun _ => disciplined) (fun _ _ => id)
  refine ⟨fun u i j hi hj => (hone c h).one i j _ hi hj, ?_, ?_⟩
  · intro u i past hs j hj
    obtain ⟨c₀, h₀, rfl⟩ := reach_suffix h ((List.suffix_cons _ _).trans hs)
    obtain ⟨r, -, v, -, hname, hin⟩ := performed h hs
    have hi : Holder c₀.log i (mint_lock u) := by
      rw [hname]
      exact ⟨⟨_, hin.acquired⟩, hin.not_release _⟩
    exact (hone c₀ h₀).one j i _ hj hi
  · intro u i j hi hj
    exact (hone c h).one i j _ (generating_holds h hi) (generating_holds h hj)

/-! ### The lock runs out -/

/-- LiteLLM's answers to a mint: the user is provisioned, the key is `key`, and
    every key that is asked about has been revoked. -/
def minting (key : String) : Choice Ext Ext.Reply := .reply fun
  | .provision _ => some (.ok ())
  | .key_generate _ => some (.ok { key := some key, id := none })
  | .get_key_info _ => some (.status_error 404)
  | _ => none

/-- Is thread `i` waiting for `/key/generate`? -/
def generating (c : AsConfig) (i : Nat) (u : String) : Bool :=
  match c.awaits i with
  | some (.ext (.key_generate v)) => v == u
  | _ => false

theorem generating_spec {c : AsConfig} {i : Nat} {u : String} (h : generating c i u = true) :
    c.awaits i = some (.ext (.key_generate u)) := by
  unfold generating at h
  split at h
  · next v hv => rw [hv, beq_iff_eq.mp h]
  · cases h

/-- A call reaches `/key/generate`; LiteLLM takes as long as the lock lasts; and
    a second call reaches `/key/generate` too. -/
def overlapping_mints : List AsLabel :=
  [.spawn (.user_key "ann@example.com"), .perform 0 .auto, .perform 0 .auto, .perform 0 .auto,
    .perform 0 (minting "sk-1"), .tick MINT_LOCK_TTL,
    .spawn (.user_key "ann@example.com"), .perform 1 .auto, .perform 1 .auto, .perform 1 .auto,
    .perform 1 (minting "sk-2")]

/-- The mint is not exclusive when the lock can run out under its holder. -/
theorem mint_not_exclusive : ¬ ∀ c, Reached sample c → MintExclusive c := by
  intro hall
  obtain ⟨c, hreach, htest⟩ := exists_reached sample
    (fun c => generating c 0 "ann@example.com" && generating c 1 "ann@example.com")
    overlapping_mints (by decide +kernel)
  rw [Bool.and_eq_true] at htest
  have heq := (hall c hreach).one_generate _ 0 1 (generating_spec htest.1) (generating_spec htest.2)
  cases heq

/-- Does time stand still in a step? -/
def stands_still (c c' : AsConfig) : Bool := c'.world.now == c.world.now

theorem stands_still_spec (c c' : AsConfig) (h : stands_still c c' = true) : LocksLast c c' :=
  fun hne => absurd (beq_iff_eq.mp h) hne

/-- While time stands still no lock runs out, and a call can mint. -/
theorem mint_excludes_sample : ∃ c, Reach (handler sample) LocksLast c ∧
    c.awaits 0 = some (.ext (.key_generate "ann@example.com")) ∧ MintExclusive c := by
  obtain ⟨c, hreach, htest⟩ := exists_reach_under sample stands_still stands_still_spec
    (generating · 0 "ann@example.com") (overlapping_mints.take 5) (by decide +kernel)
  exact ⟨c, hreach, generating_spec htest, mint_excludes hreach⟩

/-! ## A live key is kept -/

/-- A call pops the record only while no record was stored since it read the
    one it has checked. -/
def PopsChecked (c c' : AsConfig) : Prop :=
  ∀ i u a r later past, c'.log = ⟨i, ⟨.pop .frontkey u, a⟩⟩ :: c.log →
    c.log = later ++ ⟨i, ⟨.get .frontkey u, r⟩⟩ :: past →
    ∀ e ∈ later, ∀ v ttl, e.ev ≠ ⟨.put .frontkey u v ttl, ()⟩

/-- A record whose key LiteLLM has not rejected since the record was stored is
    still there: nobody has popped or replaced it, and no further key was
    minted. -/
def KeyKept (c : AsConfig) : Prop :=
  ∀ i u v ttl later past, c.log = later ++ ⟨i, ⟨.put .frontkey u v ttl, ()⟩⟩ :: past →
    (∀ e ∈ later, ∀ reply, e.ev = ⟨.ext (.get_key_info v.enc.plain), reply⟩ →
      key_alive reply ≠ some false) →
    c.world.lookup .frontkey u = some v ∧
    ∀ e ∈ later, (∀ a, e.ev ≠ ⟨.pop .frontkey u, a⟩) ∧
      (∀ v' ttl', e.ev ≠ ⟨.put .frontkey u v' ttl', ()⟩) ∧
      ∀ a, e.ev ≠ ⟨.ext (.key_generate u), a⟩

theorem frontkey_permanent (h : Reach (handler E) ok c) : Permanent .frontkey c.log := by
  refine ((reach_contracted handler_performs h).1).mono ?_
  rintro past ⟨i, ev⟩ ⟨r, -, hperf⟩ key v ttl rfl
  exact hperf.2.1

/-- What the steps of a run ensure for each pop of the record. -/
theorem pops_checked (h : Reach (handler E) ok c) (hok : ∀ c c', ok c c' → PopsChecked c c') :
    Throughout (fun past e => ∀ u a r later before, e.ev = ⟨.pop .frontkey u, a⟩ →
      past = later ++ ⟨e.tid, ⟨.get .frontkey u, r⟩⟩ :: before →
      ∀ x ∈ later, ∀ v ttl, x.ev ≠ ⟨.put .frontkey u v ttl, ()⟩) c.log := by
  refine reach_throughout ?_ h
  intro c c' i ch r op k a w _ _ _ hk hc u a' r' later before hev hlog
  refine hok c c' hk i u a' r' later before ?_ hlog
  rw [hc, ← hev]

/-- The conditions under which a live key is kept. -/
def Careful (c c' : AsConfig) : Prop := LocksLast c c' ∧ PopsChecked c c'

section
variable {u : String} {tr : AsTrace}

theorem Keyless.not_put (h : Keyless u tr) : ∀ e ∈ tr, ¬ IsPut .frontkey e := by
  cases h <;> simp [IsPut]

theorem Minting.not_put (h : Minting u tr) : ∀ e ∈ tr, ¬ IsPut .frontkey e := by
  obtain ⟨_, rfl, tr₀, rfl, hk⟩ := h
  simp only [List.mem_cons, forall_eq_or_imp]
  exact ⟨by simp [IsPut], by simp [IsPut], hk.not_put⟩

end

section
variable {i : Nat} {u : String} {v : FrontKey} {ttl : Option Nat} {past : AsLog}

/-- The record of `v` is there at every point of `log` since it was stored. -/
def Stays (u : String) (v : FrontKey) (stored log : AsLog) : Prop :=
  ∀ h, h <:+ log → stored <:+ h → contents h .frontkey u = some v

/-- Nobody is minting while the record is there: a call that mints has seen,
    under the lock, that there is no record, and the record cannot have been
    stored since. -/
theorem Stays.not_minting (h : Reach (handler E) Careful c) {log : AsLog} (hlog : log <:+ c.log)
    (hput : (⟨i, ⟨.put .frontkey u v ttl, ()⟩⟩ : AsEntry) :: past <:+ log)
    (hstays : Stays u v (⟨i, ⟨.put .frontkey u v ttl, ()⟩⟩ :: past) log) {j : Nat} {tr : AsTrace}
    (htr : tr <:+ traceOf j log) (hmint : Minting u tr)
    (hclean : ∀ e ∈ traceOf j log, ¬ IsPut .frontkey e ∧ e ≠ ⟨.release (mint_lock u), ()⟩) :
    False := by
  obtain ⟨tr₁, rfl, hlocked⟩ := hmint
  obtain ⟨pg, hget, rfl⟩ := exists_suffix_of_traceOf htr
  rcases suffix_total hput hget (by simp) with hafter | hbefore
  · -- the record was there when the call looked for it
    have hthere := hstays pg ((List.suffix_cons _ _).trans hget) hafter
    have hanswer := (reach_exact (fun _ => frontkey_permanent) h).at (hget.trans hlog) u none rfl
    rw [hthere] at hanswer
    cases hanswer
  · -- both calls held the lock when the record was stored
    have hpast : past <:+ log := (List.suffix_cons _ _).trans hput
    have hj : Holder past j (mint_lock u) := by
      refine ⟨⟨MINT_LOCK_TTL, ?_⟩, fun hrel => (hclean _ ((traceOf_suffix hpast).subset hrel)).2 rfl⟩
      exact (traceOf_suffix ((List.suffix_cons _ _).trans hbefore)).subset hlocked.acquired
    obtain ⟨r, -, -, -, minted, tr₀, htr₀, -, hmint₀⟩ := performed h (hput.trans hlog)
    have hi : Holder past i (mint_lock u) := by
      refine ⟨⟨MINT_LOCK_TTL, ?_⟩, ?_⟩
      · rw [htr₀]
        simp [hmint₀.acquired]
      · rw [htr₀]
        simp [hmint₀.not_release (mint_lock u)]
    obtain ⟨c₀, h₀, rfl⟩ := reach_suffix h (hpast.trans hlog)
    obtain rfl := (reach_exclusive (fun _ => disciplined) (fun _ _ hk => hk.1) h₀).one i j _ hi hj
    have hmem : (⟨.put .frontkey u v ttl, ()⟩ : AsEvent) ∈ traceOf i log :=
      mem_traceOf.mpr (hput.subset List.mem_cons_self)
    exact (hclean _ hmem).1 ⟨_, _, _, rfl⟩

/-- What happens next does not touch the record. -/
theorem Stays.untouched (h : Reach (handler E) Careful c) {log : AsLog} {e : AsEntry}
    (hlog : e :: log <:+ c.log)
    (hput : (⟨i, ⟨.put .frontkey u v ttl, ()⟩⟩ : AsEntry) :: past <:+ log)
    (hstays : Stays u v (⟨i, ⟨.put .frontkey u v ttl, ()⟩⟩ :: past) log)
    (hlive : ∀ e px reply, e :: px <:+ c.log →
      (⟨i, ⟨.put .frontkey u v ttl, ()⟩⟩ : AsEntry) :: past <:+ px →
      e.ev = ⟨.ext (.get_key_info v.enc.plain), reply⟩ → key_alive reply ≠ some false) :
    (∀ a, e.ev ≠ ⟨.pop .frontkey u, a⟩) ∧ (∀ v' ttl', e.ev ≠ ⟨.put .frontkey u v' ttl', ()⟩) ∧
      ∀ a, e.ev ≠ ⟨.ext (.key_generate u), a⟩ := by
  have hsuffix : log <:+ c.log := (List.suffix_cons _ _).trans hlog
  obtain ⟨j, ev⟩ := e
  refine ⟨?_, ?_, ?_⟩
  · rintro a rfl
    -- a pop: the call has read a record and has learned that its key is dead
    obtain ⟨r, -, -, record, reply, htr, hdead⟩ := performed h hlog
    obtain ⟨pc, hcheck, htr'⟩ := exists_suffix_of_traceOf ⟨[], htr.symm⟩
    obtain ⟨pg, hget, -⟩ := exists_suffix_of_traceOf ⟨[], htr'.symm⟩
    have hget' := hget.trans ((List.suffix_cons _ _).trans hcheck)
    rcases suffix_total hput hget' (by simp) with hafter | hbefore
    · -- the call has read, and checked, this very record
      have hthere := hstays pg ((List.suffix_cons _ _).trans hget') hafter
      have hanswer := (reach_ledger h).at (hget'.trans hsuffix) record rfl
      obtain rfl : v = record := Option.some.inj (hthere.symm.trans hanswer)
      exact hlive _ pc reply (hcheck.trans hsuffix)
        (hafter.trans ((List.suffix_cons _ _).trans hget)) rfl hdead
    · -- the record was stored since the call read another one
      obtain ⟨l₁, hl₁⟩ := hput
      obtain ⟨l₂, hl₂⟩ := hbefore
      have hsplit : log = (l₁ ++ ⟨i, ⟨.put .frontkey u v ttl, ()⟩⟩ :: l₂) ++
          ⟨j, ⟨.get .frontkey u, some record⟩⟩ :: pg := by
        rw [← hl₁, ← hl₂]
        simp
      exact (pops_checked h fun _ _ hk => hk.2).at hlog u a _ _ _ rfl hsplit
        ⟨i, ⟨.put .frontkey u v ttl, ()⟩⟩ (by simp) v ttl rfl
  · rintro v' ttl' rfl
    -- another record would have been minted under the lock, and so would another key
    obtain ⟨r, -, -, -, minted, tr₀, htr, -, hmint⟩ := performed h hlog
    refine hstays.not_minting h hsuffix hput ⟨[_, _], htr.symm⟩ hmint ?_
    intro e he
    rw [htr] at he
    simp only [List.mem_cons] at he
    rcases he with rfl | rfl | he
    · simp [IsPut]
    · simp [IsPut]
    · exact ⟨hmint.not_put e he, fun heq => hmint.not_release (mint_lock u) (heq ▸ he)⟩
  · rintro a rfl
    obtain ⟨r, -, -, tr₀, htr, hmint⟩ := performed h hlog
    refine hstays.not_minting h hsuffix hput ⟨[_], htr.symm⟩ hmint ?_
    intro e he
    rw [htr] at he
    simp only [List.mem_cons] at he
    rcases he with rfl | he
    · simp [IsPut]
    · exact ⟨hmint.not_put e he, fun heq => hmint.not_release (mint_lock u) (heq ▸ he)⟩

/-- The record stays as long as LiteLLM does not reject its key. -/
theorem stays (h : Reach (handler E) Careful c) {log : AsLog} (hlog : log <:+ c.log)
    (hlive : ∀ e px reply, e :: px <:+ c.log →
      (⟨i, ⟨.put .frontkey u v ttl, ()⟩⟩ : AsEntry) :: past <:+ px →
      e.ev = ⟨.ext (.get_key_info v.enc.plain), reply⟩ → key_alive reply ≠ some false) :
    Stays u v (⟨i, ⟨.put .frontkey u v ttl, ()⟩⟩ :: past) log := by
  induction log with
  | nil =>
    intro h' hs hput
    rw [List.suffix_nil.mp hs] at hput
    cases List.suffix_nil.mp hput
  | cons e log ih =>
    have hstays := ih ((List.suffix_cons _ _).trans hlog)
    intro h' hs hput
    rcases List.suffix_cons_iff.mp hs with rfl | hs
    · rcases List.suffix_cons_iff.mp hput with heq | hput
      · obtain ⟨rfl, rfl⟩ := List.cons.inj heq
        exact contents_put _ _ _ _ _ _ _
      · obtain ⟨hpop, hput', -⟩ := hstays.untouched h hlog hput hlive
        rw [contents_cons hput' hpop]
        exact hstays log List.suffix_rfl hput
    · exact hstays h' hs hput

end

/-- In every run in which no lock runs out, and in which a call pops the record
    only while no other was stored since it read the one it checked, a key that
    LiteLLM recognises is kept and no further key is minted. -/
theorem live_key_kept (h : Reach (handler E) Careful c) : KeyKept c := by
  intro i u v ttl later past hlog hlive
  have hput : (⟨i, ⟨.put .frontkey u v ttl, ()⟩⟩ : AsEntry) :: past <:+ c.log :=
    ⟨later, hlog.symm⟩
  -- the same condition, in terms of points of the log
  have hlive' : ∀ e px reply, e :: px <:+ c.log →
      (⟨i, ⟨.put .frontkey u v ttl, ()⟩⟩ : AsEntry) :: past <:+ px →
      e.ev = ⟨.ext (.get_key_info v.enc.plain), reply⟩ → key_alive reply ≠ some false := by
    rintro e px reply ⟨l, hl⟩ ⟨l', rfl⟩ hev
    have hsame : (l ++ e :: l') ++ ⟨i, ⟨.put .frontkey u v ttl, ()⟩⟩ :: past =
        later ++ ⟨i, ⟨.put .frontkey u v ttl, ()⟩⟩ :: past := by
      rw [← hlog, ← hl]
      simp
    have heq := List.append_cancel_right hsame
    exact hlive e (by simp [← heq]) reply hev
  have hstays := stays h List.suffix_rfl hlive'
  refine ⟨?_, ?_⟩
  · rw [reach_permanent_lookup h (frontkey_permanent h)]
    exact hstays c.log List.suffix_rfl hput
  · intro e he
    obtain ⟨l, l', rfl⟩ := List.append_of_mem he
    have hs : e :: (l' ++ ⟨i, ⟨.put .frontkey u v ttl, ()⟩⟩ :: past) <:+ c.log :=
      ⟨l, by simp [hlog]⟩
    refine Stays.untouched h hs ⟨l', rfl⟩ (fun h' hs' => ?_) hlive'
    exact hstays h' (hs'.trans ((List.suffix_cons _ _).trans hs))

/-! ### Two calls have seen the same dead key -/

/-- Does the entry store a record of this user and key? -/
def stores (u key : String) (e : AsEntry) : Bool :=
  match e.ev with
  | ⟨.put .frontkey u' v _, _⟩ => u' == u && v.enc.plain == key
  | _ => false

/-- Has LiteLLM rejected this key? -/
def rejects (key : String) (e : AsEntry) : Bool :=
  match e.ev with
  | ⟨.ext (.get_key_info key'), reply⟩ => key' == key && key_alive reply == some false
  | _ => false

/-- The key was stored and has not been rejected since. -/
def stored_alive (u key : String) : AsLog → Bool
  | [] => false
  | e :: log => stores u key e || (!rejects key e && stored_alive u key log)

theorem stored_alive_spec {u key : String} {log : AsLog} (h : stored_alive u key log = true) :
    ∃ i v ttl later past, log = later ++ ⟨i, ⟨.put .frontkey u v ttl, ()⟩⟩ :: past ∧
      v.enc.plain = key ∧ ∀ e ∈ later, rejects key e = false := by
  induction log with
  | nil => cases h
  | cons e log ih =>
    rw [stored_alive, Bool.or_eq_true, Bool.and_eq_true] at h
    rcases h with h | ⟨hrej, h⟩
    · obtain ⟨i, ev⟩ := e
      simp only [stores] at h
      split at h
      · next u' v ttl a =>
        rw [Bool.and_eq_true, beq_iff_eq, beq_iff_eq] at h
        obtain ⟨rfl, hkey⟩ := h
        exact ⟨i, v, ttl, [], log, rfl, hkey, by simp⟩
      · cases h
    · obtain ⟨i, v, ttl, later, past, rfl, hkey, hall⟩ := ih h
      refine ⟨i, v, ttl, e :: later, past, rfl, hkey, ?_⟩
      intro x hx
      rcases List.mem_cons.mp hx with rfl | hx
      · simpa using hrej
      · exact hall x hx

/-- A key is minted and revoked. Two calls read it and learn that it is dead;
    the second one pops the record, mints another key and stores it; and then
    the first one pops the record. -/
def stale_pop : List AsLabel :=
  [.spawn (.user_key "ann@example.com"), .perform 0 .auto, .perform 0 .auto, .perform 0 .auto,
    .perform 0 (minting "sk-1"), .perform 0 (minting "sk-1"), .perform 0 .auto, .perform 0 .auto,
    .spawn (.user_key "ann@example.com"), .perform 1 .auto, .perform 1 (minting ""),
    .spawn (.user_key "ann@example.com"), .perform 2 .auto, .perform 2 (minting ""),
    .perform 2 .auto, .perform 2 .auto, .perform 2 .auto, .perform 2 (minting "sk-2"),
    .perform 2 (minting "sk-2"), .perform 2 .auto, .perform 2 .auto,
    .perform 1 .auto]

/-- A live key is not kept in every run in which no lock runs out. -/
theorem live_key_not_kept : ¬ ∀ c, Reach (handler sample) LocksLast c → KeyKept c := by
  intro hall
  obtain ⟨c, hreach, htest⟩ := exists_reach_under sample stands_still stands_still_spec
    (fun c => stored_alive "ann@example.com" "sk-2" c.log &&
      (c.world.lookup .frontkey "ann@example.com").isNone) stale_pop (by decide +kernel)
  rw [Bool.and_eq_true] at htest
  obtain ⟨i, v, ttl, later, past, hlog, hkey, hlive⟩ := stored_alive_spec htest.1
  have hkept := (hall c hreach i _ v ttl later past hlog ?_).1
  · rw [hkept] at htest
    cases htest.2
  · intro e he reply hev hdead
    have hrej := hlive e he
    rw [rejects, hev] at hrej
    simp [hkey, hdead] at hrej

/-- Does the entry store a record? -/
def stores_any (e : AsEntry) : Bool :=
  match e.ev with
  | ⟨.put .frontkey _ _ _, _⟩ => true
  | _ => false

/-- Is the entry a read of thread `i`? -/
def reads_key (i : Nat) (e : AsEntry) : Bool :=
  match e.ev with
  | ⟨.get .frontkey _, _⟩ => e.tid == i
  | _ => false

/-- Has thread `i` read nothing before the last record was stored? -/
def reads_last (i : Nat) : AsLog → Bool
  | [] => true
  | e :: log => if stores_any e then !log.any (reads_key i) else reads_last i log

theorem reads_last_spec {i : Nat} {u : String} {r : Option FrontKey} {later past : AsLog}
    (h : reads_last i (later ++ ⟨i, ⟨.get .frontkey u, r⟩⟩ :: past) = true) :
    ∀ e ∈ later, stores_any e = false := by
  induction later with
  | nil => simp
  | cons e later ih =>
    rw [List.cons_append, reads_last] at h
    split at h
    · simp [reads_key] at h
    · next hstores =>
      intro x hx
      rcases List.mem_cons.mp hx with rfl | hx
      · exact Bool.eq_false_iff.mpr hstores
      · exact ih h x hx

/-- Does time stand still, and is only popped what was read last? -/
def pops_read (c c' : AsConfig) : Bool :=
  stands_still c c' && match c'.log with
  | ⟨i, ⟨.pop .frontkey _, _⟩⟩ :: _ => reads_last i c.log
  | _ => true

theorem pops_read_spec (c c' : AsConfig) (h : pops_read c c' = true) : Careful c c' := by
  rw [pops_read, Bool.and_eq_true] at h
  refine ⟨stands_still_spec c c' h.1, ?_⟩
  rintro i u a r later past hlog hread ⟨j, ev⟩ hmem v ttl rfl
  have hlast := h.2
  rw [hlog, hread] at hlast
  exact Bool.noConfusion (reads_last_spec hlast _ hmem)

/-- LiteLLM recognises every key. -/
def recognised : Choice Ext Ext.Reply := .reply fun
  | .get_key_info _ => some (.ok ())
  | _ => none

/-- A key is minted and revoked; the next call pops it and mints another. Two
    more calls check that one. -/
def minted_again : List AsLabel :=
  stale_pop.take 11 ++
  [.perform 1 .auto, .perform 1 .auto, .perform 1 .auto, .perform 1 (minting "sk-2"),
    .perform 1 (minting "sk-2"), .perform 1 .auto, .perform 1 .auto,
    .spawn (.user_key "ann@example.com"), .perform 2 .auto, .perform 2 recognised,
    .spawn (.user_key "ann@example.com"), .perform 3 .auto, .perform 3 recognised]

/-- Has the call handed out the key? -/
def handed_out (c : AsConfig) (i : Nat) (key : String) : Bool :=
  match c.response i with
  | some (.front_key key') => key' == key
  | _ => false

/-- A key is popped and replaced, and the new one is checked and kept. -/
theorem live_key_kept_sample : ∃ c, Reach (handler sample) Careful c ∧
    stored_alive "ann@example.com" "sk-2" c.log = true ∧ handed_out c 2 "sk-2" = true ∧
    handed_out c 3 "sk-2" = true ∧ KeyKept c := by
  obtain ⟨c, hreach, htest⟩ := exists_reach_under sample pops_read pops_read_spec
    (fun c => stored_alive "ann@example.com" "sk-2" c.log && handed_out c 2 "sk-2" &&
      handed_out c 3 "sk-2") minted_again (by decide +kernel)
  simp only [Bool.and_eq_true] at htest
  exact ⟨c, hreach, htest.1.1, htest.1.2, htest.2, live_key_kept hreach⟩

end AlitellmAuth
