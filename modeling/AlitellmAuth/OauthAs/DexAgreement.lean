import AlitellmAuth.OauthAs.Dex

/-! # Agreement with Dex

    A user's `dexrt` record is read, replayed at Dex, and written or popped in
    separate steps, while logins write it too. Nothing keeps those steps of two
    requests apart, so a request can store a token over a newer one. Where the
    requests keep to an order (`InOrder`), the record and Dex agree whenever
    the user's requests are at rest, and no session is ended.

    * `InOrder`: tokens are stored in the order Dex handed them out, and a
      refused request is left alone between its second read and its second
      replay.
    * `Agreed`: the invariant. The record holds the current token, or the
      request that has got it is about to store it.
    * `dex_agrees`: what follows for every run.
-/

namespace AlitellmAuth

open Interleave

variable {E : Env} {ok : AsConfig → AsConfig → Prop} {c : AsConfig}

attribute [local irreducible] Text.lower Text.strip

/-! ## Orders of steps -/

/-- One step keeps the requests of a user apart: tokens are stored in the order
    Dex handed them out; a refused request reads the record again only when no
    token waits to be stored; and Dex hands out no token while another request
    is about to replay the record it has read again. -/
structure Ordered (log : AsLog) (e : AsEntry) : Prop where
  stores : ∀ u v ttl, e.ev = ⟨.put .dexrt u v ttl, ()⟩ →
    ∀ j t, j ≠ e.tid → Unwritten u t (traceOf j log) → ¬ Older log u t v.rt
  rereads : ∀ form u n d a, Reread form u n d a (traceOf e.tid (e :: log)) →
    ∀ j t, ¬ Unwritten u t (traceOf j log)
  hands : ∀ u t, Unwritten u t (traceOf e.tid (e :: log)) →
    ∀ j d, j ≠ e.tid → ¬ Retrying u d (traceOf j log)

/-- A step in which Dex is honest and the records of its tokens have not
    expired. -/
def DexHonest (c c' : AsConfig) : Prop := ∀ e, c'.log = e :: c.log → Honest c.log e

/-- And the requests of each user are kept apart. -/
def InOrder (c c' : AsConfig) : Prop :=
  DexHonest c c' ∧ ∀ e, c'.log = e :: c.log → Ordered c.log e

theorem honest (h : Reach (handler E) InOrder c) : Throughout Honest c.log := by
  refine reach_throughout ?_ h
  intro c c' i ch r op k a w _ _ _ hk hc
  subst hc
  exact hk.1 _ rfl

theorem ordered (h : Reach (handler E) InOrder c) : Throughout Ordered c.log := by
  refine reach_throughout ?_ h
  intro c c' i ch r op k a w _ _ _ hk hc
  subst hc
  exact hk.2 _ rfl

/-! ## The invariant -/

/-- The record of a user and Dex's state. -/
structure Agreed (log : AsLog) : Prop where
  known : ∀ u d, contents log .dexrt u = some d → d.rt ∈ tokens log u
  held : ∀ i form u n d, Holding form u n d (traceOf i log) → d.rt ∈ tokens log u
  waiting : ∀ i u t, Unwritten u t (traceOf i log) → t ∈ tokens log u
  one : ∀ i j u t, Unwritten u t (traceOf i log) → Unwritten u t (traceOf j log) → i = j
  stored : ∀ u t, current log u = some t →
    contents log .dexrt u = some ⟨t⟩ ∨ ∃ i, Unwritten u t (traceOf i log)
  ahead : ∀ i u t d, Unwritten u t (traceOf i log) → contents log .dexrt u = some d →
    t ≠ d.rt ∧ ¬ Older log u t d.rt
  retrying : ∀ i u d, Retrying u d (traceOf i log) → current log u = some d.rt
  refused : ∀ i form u n d reply, Replayed form u n d reply (traceOf i log) →
    reply.result d.rt = .refused → n = 1 ∧ d.rt ∈ tokens log u ∧ current log u ≠ some d.rt
  reread : ∀ i form u n d a, Reread form u n d a (traceOf i log) →
    n = 1 ∧ ∃ d', a = some d' ∧ d' ≠ d

section step
variable {log : AsLog} {e : AsEntry}

/-- A step extends the trace of one thread. -/
theorem trace_cases (log : AsLog) (e : AsEntry) (j : Nat) :
    (j ≠ e.tid ∧ traceOf j (e :: log) = traceOf j log) ∨
    (j = e.tid ∧ traceOf j (e :: log) = e.ev :: traceOf j log) := by
  by_cases hj : e.tid = j
  · subst hj
    exact .inr ⟨rfl, traceOf_self _ _ _⟩
  · exact .inl ⟨Ne.symm hj, traceOf_ne hj _⟩

/-- When no token of a user waits to be stored, the record holds the current
    one. -/
theorem Agreed.at_rest (inv : Agreed log) {u t : String} (ht : t ∈ tokens log u)
    (hrest : ∀ j t', ¬ Unwritten u t' (traceOf j log)) :
    ∃ t', current log u = some t' ∧ contents log .dexrt u = some ⟨t'⟩ := by
  obtain ⟨t', hcur⟩ := current_of_mem ht
  rcases inv.stored u t' hcur with hstored | ⟨i, hi⟩
  · exact ⟨t', hcur, hstored⟩
  · exact absurd hi (hrest i t')

/-- Nobody waits while the current token is stored. -/
theorem Agreed.settled (inv : Agreed log) {u : String} {d : DexRt}
    (hrec : contents log .dexrt u = some d) (hcur : current log u = some d.rt) (i : Nat)
    (t : String) : ¬ Unwritten u t (traceOf i log) := by
  intro hi
  obtain ⟨hne, hold⟩ := inv.ahead i u t d hi hrec
  obtain ⟨rest, hlist⟩ := List.head?_eq_some_iff.mp hcur
  have hmem := inv.waiting i u t hi
  rw [hlist] at hmem
  rcases List.mem_cons.mp hmem with rfl | hmem
  · exact hne rfl
  · exact hold ⟨[], rest, hlist, hmem⟩

variable (h : Reach (handler E) InOrder c) (hs : e :: log <:+ c.log) (inv : Agreed log)

include h hs in
theorem owner_before : OneOwner log :=
  one_owner ((honest h).suffix ((List.suffix_cons _ _).trans hs))

include h hs inv in
/-- Who waits to store a token after a step waited before, or has just got it. -/
theorem waiting_after {j : Nat} {u t : String} (hu : Unwritten u t (traceOf j (e :: log))) :
    (j ≠ e.tid ∧ Unwritten u t (traceOf j log)) ∨ (j = e.tid ∧ Hands log e u t) := by
  have hhonest := (honest h).at hs
  have howner := owner_before h hs
  rcases trace_cases log e j with ⟨hne, htr⟩ | ⟨rfl, htr⟩
  · exact .inl ⟨hne, htr ▸ hu⟩
  · refine .inr ⟨rfl, ?_⟩
    rw [htr] at hu
    obtain ⟨i, ev⟩ := e
    rcases hu.inv with
      ⟨s, token, pending, hev, -, rfl, -, ht, -⟩ | ⟨form, n, d, reply, hev, hold, haccept⟩
    · obtain rfl : ev = _ := hev
      obtain ⟨-, t', ht', hf⟩ := hhonest
      rw [ht] at ht'
      cases ht'
      exact hands_login ht hf
    · obtain rfl : ev = _ := hev
      rcases hhonest with ⟨⟨u', hu'⟩, t', rfl, hf⟩ | ⟨-, rfl⟩
      · obtain rfl := howner u u' d.rt (inv.held _ _ _ _ _ hold) (mem_of_current hu')
        have hne : t' ≠ "" := hf.1
        have htt : t' = t := by simpa [DexReply.result, hne] using haccept
        subst htt
        exact hands_replay howner hu' hf
      · simp [DexReply.result] at haccept

include h hs in
/-- Who waited before a step still waits, or has just stored its token. -/
theorem waiting_before {j : Nat} {u t : String} (hu : Unwritten u t (traceOf j log)) :
    (j ≠ e.tid ∧ Unwritten u t (traceOf j (e :: log))) ∨
    (j = e.tid ∧ ∃ ttl, e.ev = ⟨.put .dexrt u ⟨t⟩ ttl, ()⟩) := by
  rcases trace_cases log e j with ⟨hne, htr⟩ | ⟨rfl, htr⟩
  · exact .inl ⟨hne, htr ▸ hu⟩
  · exact .inr ⟨rfl, unwritten_next h hs hu⟩

include h hs inv in
/-- Dex's state after a step: a new token waits to be stored. -/
theorem tokens_after :
    (∀ u, tokens (e :: log) u = tokens log u) ∨
    ∃ u t, Hands log e u t ∧ Unwritten u t (traceOf e.tid (e :: log)) := by
  obtain ⟨i, ev⟩ := e
  have howner := owner_before h hs
  rcases hands_or_same howner ((honest h).at hs) with hsame | ⟨u, t, hhands, hev⟩
  · exact .inl hsame
  · refine .inr ⟨u, t, hhands, ?_⟩
    obtain ⟨r, -, hperf⟩ := performed h hs
    dsimp only
    rw [traceOf_self]
    rcases hev with ⟨s, token, hev, hemail, hne, ht⟩ | ⟨rt, hev, hcur⟩
    · obtain rfl : ev = _ := hev
      obtain ⟨-, pending, htr⟩ := hperf
      rw [htr]
      exact .login hemail hne ht hhands.fresh.1
    · obtain rfl : ev = _ := hev
      obtain ⟨form, u', n, d, -, rfl, hold⟩ := hperf
      obtain rfl := howner u' u d.rt (inv.held _ _ _ _ _ hold) (mem_of_current hcur)
      exact .replayed ⟨_, rfl, hold⟩ (by simp [DexReply.result, hhands.fresh.1])

/-- Whoever stores a token has just got it. -/
theorem put_waiting (h : Reach (handler E) ok c) {i : Nat} {u : String} {v : DexRt}
    {ttl : Option Nat} (hs : (⟨i, ⟨.put .dexrt u v ttl, ()⟩⟩ : AsEntry) :: log <:+ c.log) :
    Unwritten u v.rt (traceOf i log) := by
  obtain ⟨r, -, hperf⟩ := performed h hs
  rcases hperf with
    ⟨s, pending, token, -, htr, hemail, hne, ht, hne'⟩ | ⟨form, n, d, reply, -, hrep, haccept⟩
  · rw [htr]
    exact .login hemail hne ht hne'
  · exact .replayed hrep haccept

/-- Nobody pops the record: whoever reads it again finds a newer one. -/
theorem not_popped (h : Reach (handler E) ok c) {i : Nat} {u : String} {a : Option DexRt}
    (inv : Agreed log) : ¬ (⟨i, ⟨.pop .dexrt u, a⟩⟩ : AsEntry) :: log <:+ c.log := by
  intro hs
  obtain ⟨r, -, form, n, d, current, -, hre, hgive⟩ := performed h hs
  obtain ⟨hn, d', rfl, hne⟩ := inv.reread _ _ _ _ _ _ hre
  rcases hgive with hgive | hgive | hgive
  · exact hne (Option.some.inj hgive)
  · cases hgive
  · omega

include h hs inv in
/-- The record after a step: only a waiting token is stored, and nothing is
    popped. -/
theorem record_after (u : String) :
    contents (e :: log) .dexrt u = contents log .dexrt u ∨
    ∃ v ttl, e.ev = ⟨.put .dexrt u v ttl, ()⟩ ∧ Unwritten u v.rt (traceOf e.tid log) := by
  obtain ⟨i, ev⟩ := e
  by_cases hput : ∃ v ttl, ev = ⟨.put .dexrt u v ttl, ()⟩
  · obtain ⟨v, ttl, rfl⟩ := hput
    exact .inr ⟨v, ttl, rfl, put_waiting h hs⟩
  · refine .inl (contents_cons ?_ ?_)
    · intro v ttl hev
      exact hput ⟨v, ttl, hev⟩
    · intro a hev
      obtain rfl : ev = _ := hev
      exact not_popped h inv hs

include h hs in
/-- A refused replay: it was of a token that is not current. -/
theorem refused_after {j : Nat} {form : TokenForm} {u : String} {n : Nat} {d : DexRt}
    {reply : DexReply} (hrep : Replayed form u n d reply (traceOf j (e :: log)))
    (hres : reply.result d.rt = .refused) :
    (j ≠ e.tid ∧ Replayed form u n d reply (traceOf j log)) ∨
    (j = e.tid ∧ Holding form u n d (traceOf j log) ∧ current log u ≠ some d.rt ∧
      ∀ u', tokens (e :: log) u' = tokens log u') := by
  rcases trace_cases log e j with ⟨hne, htr⟩ | ⟨rfl, htr⟩
  · exact .inl ⟨hne, htr ▸ hrep⟩
  · have hhonest := (honest h).at hs
    obtain ⟨tr₀, heq, hold⟩ := hrep
    rw [htr] at heq
    obtain ⟨i, ev⟩ := e
    obtain ⟨hev, rfl⟩ := List.cons.inj heq
    obtain rfl : ev = _ := hev
    rcases hhonest with ⟨-, t', rfl, hf⟩ | ⟨hnot, rfl⟩
    · cases hres
    · exact .inr ⟨rfl, hold, hnot u, fun _ => rfl⟩

include h hs in
/-- A second read: it was of the record as it is. -/
theorem reread_after {j : Nat} {form : TokenForm} {u : String} {n : Nat} {d : DexRt}
    {a : Option DexRt} (hre : Reread form u n d a (traceOf j (e :: log))) :
    (j ≠ e.tid ∧ Reread form u n d a (traceOf j log)) ∨
    (j = e.tid ∧ a = contents log .dexrt u ∧ (∀ u', tokens (e :: log) u' = tokens log u') ∧
      ∃ reply, Replayed form u n d reply (traceOf j log) ∧ reply.result d.rt = .refused) := by
  rcases trace_cases log e j with ⟨hne, htr⟩ | ⟨rfl, htr⟩
  · exact .inl ⟨hne, htr ▸ hre⟩
  · have hhonest := (honest h).at hs
    obtain ⟨reply, tr₀, heq, hrep, hres⟩ := hre
    rw [htr] at heq
    obtain ⟨i, ev⟩ := e
    obtain ⟨hev, rfl⟩ := List.cons.inj heq
    obtain rfl : ev = _ := hev
    exact .inr ⟨rfl, hhonest, fun _ => rfl, reply, hrep, hres⟩

include h hs in
/-- A record in hand: it was just read, for the first time or again. -/
theorem holding_after {j : Nat} {form : TokenForm} {u : String} {n : Nat} {d : DexRt}
    (hold : Holding form u n d (traceOf j (e :: log))) :
    (j ≠ e.tid ∧ Holding form u n d (traceOf j log)) ∨
    (j = e.tid ∧ contents log .dexrt u = some d ∧ (∀ u', tokens (e :: log) u' = tokens log u') ∧
      (n = 1 ∨ ∃ d₀, Reread form u (n + 1) d₀ (some d) (traceOf j (e :: log)))) := by
  rcases trace_cases log e j with ⟨hne, htr⟩ | ⟨rfl, htr⟩
  · exact .inl ⟨hne, htr ▸ hold⟩
  · have hhonest := (honest h).at hs
    obtain ⟨i, ev⟩ := e
    dsimp only at htr hold ⊢
    rw [htr] at hold ⊢
    obtain ⟨tr', heq⟩ := hold.head
    obtain ⟨hev, -⟩ := List.cons.inj heq
    obtain rfl : ev = _ := hev
    refine .inr ⟨rfl, Eq.symm hhonest, fun _ => rfl, ?_⟩
    generalize heq' : (⟨.get .dexrt u, some d⟩ : AsEvent) :: traceOf i log = tr at hold ⊢
    cases hold with
    | first => exact .inl rfl
    | again hold hreply hne => exact .inr ⟨_, _, _, rfl, ⟨_, rfl, hold⟩, hreply⟩

include h hs inv in
/-- A second read finds a newer token, the current one. -/
theorem reread_current {form : TokenForm} {u : String} {n : Nat} {d : DexRt} {a : Option DexRt}
    (hre : Reread form u n d a (traceOf e.tid (e :: log))) {reply : DexReply}
    (hrep : Replayed form u n d reply (traceOf e.tid log)) (hres : reply.result d.rt = .refused)
    (ha : a = contents log .dexrt u) :
    n = 1 ∧ ∃ d', a = some d' ∧ d' ≠ d ∧ current log u = some d'.rt := by
  obtain ⟨hn, hmem, hnot⟩ := inv.refused _ _ _ _ _ _ hrep hres
  obtain ⟨t, hcur, hrec⟩ := inv.at_rest hmem (((ordered h).at hs).rereads _ _ _ _ _ hre)
  refine ⟨hn, ⟨t⟩, ha.trans hrec, ?_, hcur⟩
  rintro rfl
  exact hnot hcur

include h hs inv in
theorem current_after (u : String) (hu : ∀ t, ¬ Hands log e u t) :
    current (e :: log) u = current log u := by
  rcases tokens_after h hs inv with hsame | ⟨u', t, hhands, -⟩
  · rw [current, current, hsame]
  · rw [current, current, hhands.others]
    rintro rfl
    exact hu t hhands

theorem Hands.current {u t : String} (hh : Hands log e u t) : current (e :: log) u = some t := by
  rw [AlitellmAuth.current, hh.new]
  rfl

/-- A token is handed out once. -/
theorem Hands.not_mem {u t u' t' : String} (hh : Hands log e u t) (ht : t' ∈ tokens log u') :
    t' ≠ t := by
  rintro rfl
  exact hh.fresh.2 u' ht

include h hs inv in
theorem Hands.waiting {u t : String} (hh : Hands log e u t) :
    Unwritten u t (traceOf e.tid (e :: log)) := by
  rcases tokens_after h hs inv with hsame | ⟨u', t', hhands, hun⟩
  · have hlong := (hh.new).symm.trans (hsame u)
    simp at hlong
  · by_cases hu : u = u'
    · subst hu
      have heq := hh.new.symm.trans hhands.new
      obtain ⟨rfl, -⟩ := List.cons.inj heq
      exact hun
    · have hlong := (hh.new).symm.trans (hhands.others u hu)
      simp at hlong

include h hs inv in
theorem stored_step (u t : String) (hcur : current (e :: log) u = some t) :
    contents (e :: log) .dexrt u = some ⟨t⟩ ∨ ∃ i, Unwritten u t (traceOf i (e :: log)) := by
  by_cases hh : ∃ t', Hands log e u t'
  · -- the token is new, so it waits to be stored
    obtain ⟨t', hh⟩ := hh
    obtain rfl : t' = t := Option.some.inj (hh.current.symm.trans hcur)
    exact .inr ⟨e.tid, hh.waiting h hs inv⟩
  · rw [current_after h hs inv u fun t' ht' => hh ⟨t', ht'⟩] at hcur
    rcases inv.stored u t hcur with hrec | ⟨i, hi⟩
    · rcases record_after h hs inv u with hsame | ⟨v, ttl, -, hv⟩
      · exact .inl (hsame.trans hrec)
      · -- nobody waits while the current token is stored
        exact absurd hv (inv.settled hrec hcur _ _)
    · rcases waiting_before h hs hi with ⟨-, hi⟩ | ⟨rfl, ttl, hev⟩
      · exact .inr ⟨i, hi⟩
      · obtain ⟨i, ev⟩ := e
        obtain rfl : ev = _ := hev
        exact .inl (contents_put _ _ _ _ _ _ _)

/-- A new token is newer than all others. -/
theorem Hands.older {u t t' d : String} (hh : Hands log e u t) (hd : d ∈ tokens log u)
    (hold : Older (e :: log) u t' d) : Older log u t' d ∧ t' ≠ t := by
  obtain ⟨newer, older, hlist, hmem⟩ := hold
  rw [hh.new] at hlist
  cases newer with
  | nil =>
    obtain ⟨rfl, -⟩ := List.cons.inj hlist
    exact absurd rfl (hh.not_mem hd)
  | cons x newer =>
    obtain ⟨-, hlist⟩ := List.cons.inj hlist
    have hin : t' ∈ tokens log u := by
      rw [hlist]
      simp [hmem]
    exact ⟨⟨newer, older, hlist, hmem⟩, hh.not_mem hin⟩

include h hs inv in
/-- The order of two tokens does not change. -/
theorem older_before {u t d : String} (hd : d ∈ tokens log u) (hold : Older (e :: log) u t d) :
    Older log u t d := by
  rcases tokens_after h hs inv with hsame | ⟨u', t', hh, -⟩
  · simpa only [Older, hsame] using hold
  · by_cases hu : u = u'
    · subst hu
      exact (hh.older hd hold).1
    · simpa only [Older, hh.others u hu] using hold

include h hs inv in
theorem ahead_step (i : Nat) (u t : String) (d : DexRt)
    (hi : Unwritten u t (traceOf i (e :: log)))
    (hrec : contents (e :: log) .dexrt u = some d) : t ≠ d.rt ∧ ¬ Older (e :: log) u t d.rt := by
  rcases record_after h hs inv u with hsame | ⟨v, ttl, hev, hv⟩
  · rw [hsame] at hrec
    have hknown := inv.known u d hrec
    rcases waiting_after h hs inv hi with ⟨-, hi⟩ | ⟨-, hh⟩
    · obtain ⟨hne, hold⟩ := inv.ahead i u t d hi hrec
      exact ⟨hne, fun hold' => hold (older_before h hs inv hknown hold')⟩
    · exact ⟨(hh.not_mem hknown).symm, fun hold => (hh.older hknown hold).2 rfl⟩
  · -- a token was just stored, in its turn
    have hturn := ((ordered h).at hs).stores u v ttl hev
    have hcases := waiting_after h hs inv hi
    obtain ⟨k, ev⟩ := e
    obtain rfl : ev = _ := hev
    rw [contents_put] at hrec
    cases hrec
    rcases hcases with ⟨hne, hi⟩ | ⟨-, hh⟩
    · refine ⟨?_, hturn i t hne hi⟩
      rintro rfl
      exact hne (inv.one _ _ _ _ hi hv)
    · have hlong : tokens log u = t :: tokens log u := hh.new
      simp at hlong

include h hs inv in
theorem retrying_step (i : Nat) (u : String) (d : DexRt)
    (hret : Retrying u d (traceOf i (e :: log))) : current (e :: log) u = some d.rt := by
  obtain ⟨form, hold⟩ := hret
  rcases holding_after h hs hold with ⟨hne, hold⟩ | ⟨rfl, hrec, hsame, hfirst | ⟨d₀, hre⟩⟩
  · rw [current_after h hs inv u ?_]
    · exact inv.retrying i u d ⟨form, hold⟩
    · intro t hh
      exact ((ordered h).at hs).hands u t (hh.waiting h hs inv) i d hne ⟨form, hold⟩
  · cases hfirst
  · rcases reread_after h hs hre with ⟨hne, -⟩ | ⟨-, ha, -, reply, hrep, hres⟩
    · exact absurd rfl hne
    · obtain ⟨-, d', hd, -, hcur⟩ := reread_current h hs inv hre hrep hres ha
      cases hd
      rw [current, hsame]
      exact hcur

include h hs inv in
theorem refused_step (i : Nat) (form : TokenForm) (u : String) (n : Nat) (d : DexRt)
    (reply : DexReply) (hrep : Replayed form u n d reply (traceOf i (e :: log)))
    (hres : reply.result d.rt = .refused) :
    n = 1 ∧ d.rt ∈ tokens (e :: log) u ∧ current (e :: log) u ≠ some d.rt := by
  rcases refused_after h hs hrep hres with ⟨-, hrep⟩ | ⟨rfl, hold, hnot, hsame⟩
  · obtain ⟨hn, hmem, hnot⟩ := inv.refused _ _ _ _ _ _ hrep hres
    refine ⟨hn, tokens_mono (owner_before h hs) ((honest h).at hs) hmem, ?_⟩
    by_cases hh : ∃ t', Hands log e u t'
    · obtain ⟨t', hh⟩ := hh
      rw [hh.current]
      intro heq
      exact hh.not_mem hmem (Option.some.inj heq).symm
    · rw [current_after h hs inv u fun t' ht' => hh ⟨t', ht'⟩]
      exact hnot
  · refine ⟨?_, ?_, ?_⟩
    · -- a second replay is of the current token, and accepted
      have hle := hold.le_one
      rcases Nat.eq_zero_or_pos n with rfl | hpos
      · exact absurd (inv.retrying _ u d ⟨form, hold⟩) hnot
      · omega
    · rw [hsame]
      exact inv.held _ _ _ _ _ hold
    · rw [current, hsame]
      exact hnot

include h hs inv in
/-- Every step keeps the invariant. -/
theorem agreed_step : Agreed (e :: log) where
  known := by
    intro u d hrec
    refine tokens_mono (owner_before h hs) ((honest h).at hs) ?_
    -- the record is the old one, or a put of a token its writer had waiting
    rcases record_after h hs inv u with hsame | ⟨v, ttl, hev, hv⟩
    · exact inv.known u d (hsame.symm.trans hrec)
    · obtain ⟨k, ev⟩ := e
      obtain rfl : ev = _ := hev
      rw [contents_put] at hrec
      cases hrec
      exact inv.waiting _ _ _ hv
  held := by
    intro i form u n d hold
    refine tokens_mono (owner_before h hs) ((honest h).at hs) ?_
    rcases holding_after h hs hold with ⟨-, hold⟩ | ⟨-, hrec, -⟩
    · exact inv.held _ _ _ _ _ hold
    · exact inv.known u d hrec
  waiting := by
    intro i u t hi
    rcases waiting_after h hs inv hi with ⟨-, hi⟩ | ⟨-, hh⟩
    · exact tokens_mono (owner_before h hs) ((honest h).at hs) (inv.waiting _ _ _ hi)
    · rw [hh.new]
      exact List.mem_cons_self
  one := by
    intro i j u t hi hj
    -- a token that is handed out now is new, so nobody was waiting with it
    rcases waiting_after h hs inv hi with ⟨-, hi⟩ | ⟨rfl, hh⟩
    · rcases waiting_after h hs inv hj with ⟨-, hj⟩ | ⟨-, hh⟩
      · exact inv.one _ _ _ _ hi hj
      · exact absurd rfl (hh.not_mem (inv.waiting _ _ _ hi))
    · rcases waiting_after h hs inv hj with ⟨-, hj⟩ | ⟨rfl, -⟩
      · exact absurd rfl (hh.not_mem (inv.waiting _ _ _ hj))
      · rfl
  stored := stored_step h hs inv
  ahead := ahead_step h hs inv
  retrying := retrying_step h hs inv
  refused := refused_step h hs inv
  reread := by
    intro i form u n d a hre
    rcases reread_after h hs hre with ⟨-, hre⟩ | ⟨rfl, ha, -, reply, hrep, hres⟩
    · exact inv.reread _ _ _ _ _ _ hre
    · obtain ⟨hn, d', hd, hne, -⟩ := reread_current h hs inv hre hrep hres ha
      exact ⟨hn, d', hd, hne⟩

end step

/-- The invariant holds throughout every run. -/
theorem agreed (h : Reach (handler E) InOrder c) {log : AsLog} (hs : log <:+ c.log) :
    Agreed log := by
  induction log with
  | nil =>
    -- at first nothing is replayed, waiting or stored
    have hhold : ∀ form u n d, ¬ Holding form u n d [] := by
      intro form u n d hold
      obtain ⟨tr, htr⟩ := hold.head
      cases htr
    have hwait : ∀ u t, ¬ Unwritten u t [] := fun u t hu => absurd hu.two (by simp)
    refine ⟨?_, ?_, ?_, ?_, ?_, ?_, ?_, ?_, ?_⟩
    · intro u d hrec
      cases hrec
    · intro i form u n d hold
      exact absurd hold (hhold _ _ _ _)
    · intro i u t hi
      exact absurd hi (hwait _ _)
    · intro i j u t hi
      exact absurd hi (hwait _ _)
    · intro u t hcur
      cases hcur
    · intro i u t d hi
      exact absurd hi (hwait _ _)
    · rintro i u d ⟨form, hold⟩
      exact absurd hold (hhold _ _ _ _)
    · rintro i form u n d reply ⟨tr, htr, -⟩
      cases htr
    · rintro i form u n d a ⟨reply, tr, htr, -⟩
      cases htr
  | cons e log ih => exact agreed_step h hs (ih ((List.suffix_cons _ _).trans hs))

/-! ## No session without a login -/

/-- The user a record is about, for the records a session passes through. -/
def names : (k : Kind) → k.Rec → Option String
  | .chain, v => some v.sub
  | .code, v => some v.sub
  | .refresh, v => some v.sub
  | .device, v => v.sub
  | _, _ => none

/-- What a thread has read or popped was put before. -/
theorem put_before (h : Reach (handler E) ok c) {past : AsLog} (hp : past <:+ c.log) {i : Nat}
    {k : Kind} {key : String} {v : k.Rec}
    (hm : (⟨.get k key, some v⟩ : AsEvent) ∈ traceOf i past ∨
      (⟨.pop k key, some v⟩ : AsEvent) ∈ traceOf i past) :
    ∃ j ttl, (⟨j, ⟨.put k key v ttl, ()⟩⟩ : AsEntry) ∈ past := by
  have hput : ∃ past' j ttl past'', past' <:+ past ∧
      (⟨j, ⟨.put k key v ttl, ()⟩⟩ : AsEntry) :: past'' <:+ past' := by
    rcases hm with hm | hm
    · obtain ⟨past', hs⟩ := exists_suffix_of_mem (mem_traceOf.mp hm)
      obtain ⟨j, ttl, past'', hput⟩ := read_put h (hs.trans hp)
      exact ⟨past', j, ttl, past'', (List.suffix_cons _ _).trans hs, hput⟩
    · obtain ⟨past', hs⟩ := exists_suffix_of_mem (mem_traceOf.mp hm)
      obtain ⟨j, ttl, past'', hput⟩ := popped_put h (hs.trans hp)
      exact ⟨past', j, ttl, past'', (List.suffix_cons _ _).trans hs, hput⟩
  obtain ⟨past', j, ttl, past'', hs, hput⟩ := hput
  exact ⟨j, ttl, (hput.trans hs).subset List.mem_cons_self⟩

/-- The trace shows where the user comes from: a login, or a record about the
    user. -/
def Stems (u : String) (tr : AsTrace) : Prop :=
  (∃ d ttl, (⟨.put .dexrt u d ttl, ()⟩ : AsEvent) ∈ tr) ∨
  ∃ (k : Kind) (key : String) (w : k.Rec), names k w = some u ∧
    ((⟨.get k key, some w⟩ : AsEvent) ∈ tr ∨ (⟨.pop k key, some w⟩ : AsEvent) ∈ tr)

theorem Stems.mono {u : String} {tr tr' : AsTrace} (h : Stems u tr) (hs : ∀ e ∈ tr, e ∈ tr') :
    Stems u tr' := by
  rcases h with ⟨d, ttl, hm⟩ | ⟨k, key, w, hw, hm | hm⟩
  · exact .inl ⟨d, ttl, hs _ hm⟩
  · exact .inr ⟨k, key, w, hw, .inl (hs _ hm)⟩
  · exact .inr ⟨k, key, w, hw, .inr (hs _ hm)⟩

theorem Entered.stems {request : AuthRequest} {sub : String} {r : Request} {tr : AsTrace}
    (h : Entered request sub r tr) : Stems sub tr := by
  cases h with
  | login => exact .inl ⟨_, _, List.mem_cons_of_mem _ List.mem_cons_self⟩
  | broker hrequest hsub =>
    exact .inr ⟨.chain, _, _, congrArg some hsub, .inr List.mem_cons_self⟩

theorem Source.stems {form : TokenForm} {v : Refresh} {tr : AsTrace} (h : Source E form v tr) :
    Stems v.sub tr := by
  cases h with
  | code hgrant hredeems hsub hscope =>
    exact .inr ⟨.code, _, _, congrArg some hsub.symm, .inr List.mem_cons_self⟩
  | refresh hgrant hclient hsub hscope hkept hbefore =>
    exact .inr ⟨.refresh, _, _, congrArg some hsub.symm,
      .inr (List.mem_append_right _ List.mem_cons_self)⟩
  | device hgrant hclient hstatus hsub hscope =>
    exact .inr ⟨.device, _, _, hsub, .inr List.mem_cons_self⟩

theorem PutsDevice.stems {device_code : String} {v : Device} {r : Request} {tr : AsTrace}
    (h : PutsDevice device_code v r tr) {u : String} (hu : v.sub = some u) : Stems u tr := by
  cases h with
  | created => cases hu
  | @settled r rec status sub tr hlogged hpending =>
    cases hlogged with
    | approved hsub =>
      cases hu
      exact .inl ⟨_, _, List.mem_cons_of_mem _ (List.mem_cons_of_mem _ List.mem_cons_self)⟩
    | denied => exact .inr ⟨.device, _, rec, hu, .inl List.mem_cons_self⟩

/-- Whoever puts a record about a user has logged the user in, or has had
    another record about the user. -/
theorem names_stems {r : Request} {tr : AsTrace} {k : Kind} {key : String} {v : k.Rec}
    {ttl : Option Nat} (h : Performs E r tr ⟨.put k key v ttl, ()⟩) {u : String}
    (hu : names k v = some u) : Stems u tr := by
  cases k with
  | chain =>
    cases hu
    obtain ⟨seg, base, rfl, -, hent⟩ := h
    exact hent.stems.mono fun e he => by simp [he]
  | code =>
    cases hu
    obtain ⟨reads, seg, base, kept, rfl, -, hent, -⟩ := h
    exact hent.stems.mono fun e he => by simp [he]
  | refresh =>
    cases hu
    obtain ⟨form, past, -, -, ⟨jti, now, rfl⟩, hsource⟩ := h
    exact hsource.stems.mono fun e he => by simp [he]
  | device => exact PutsDevice.stems h hu
  | client | pending | dexrt | device_user | brokerclient | frontkey => cases hu

/-- A user with a chain, a code, a refresh token or an approved device has
    logged in, and a Dex token was stored then. -/
theorem login_before (h : Reach (handler E) ok c) {log : AsLog} (hlog : log <:+ c.log) {i : Nat}
    {k : Kind} {key : String} {v : k.Rec} {ttl : Option Nat} {u : String}
    (hput : (⟨i, ⟨.put k key v ttl, ()⟩⟩ : AsEntry) ∈ log) (hu : names k v = some u) :
    ∃ j d ttl', (⟨j, ⟨.put .dexrt u d ttl', ()⟩⟩ : AsEntry) ∈ log := by
  induction log generalizing i k key v ttl with
  | nil => cases hput
  | cons e log ih =>
    have hpast := (List.suffix_cons _ _).trans hlog
    have hbefore : ∃ j d ttl', (⟨j, ⟨.put .dexrt u d ttl', ()⟩⟩ : AsEntry) ∈ log := by
      rcases List.mem_cons.mp hput with rfl | hput
      · obtain ⟨r, -, hperf⟩ := performed h hlog
        rcases names_stems hperf hu with ⟨d, ttl', hm⟩ | ⟨k', key', w, hw, hm⟩
        · exact ⟨i, d, ttl', mem_traceOf.mp hm⟩
        · obtain ⟨j, ttl', hput'⟩ := put_before h hpast hm
          exact ih hpast hput' hw
      · exact ih hpast hput hu
    obtain ⟨j, d, ttl', hm⟩ := hbefore
    exact ⟨j, d, ttl', List.mem_cons_of_mem _ hm⟩

/-! ## Agreement -/

/-- A callback of the user is past its code exchange. -/
def Exchanged (c : AsConfig) (i : Nat) (u : String) : Prop :=
  ∃ state token, c.request i = some (.as_callback state) ∧
    (⟨.ext (.authorize_access_token state), some token⟩ : AsEvent) ∈ traceOf i c.log ∧
    normalized_email token.userinfo = u

/-- A refresh request of the user has begun to revalidate and has neither
    stored nor popped the record. -/
def Revalidating (c : AsConfig) (i : Nat) (u : String) : Prop :=
  ∃ form rec, c.request i = some (.token form) ∧ form.grant_type = some "refresh_token" ∧
    (⟨.get .refresh form.refresh_token, some rec⟩ : AsEvent) ∈ traceOf i c.log ∧
    rec.client_id = form.client_id ∧ rec.sub = u ∧
    ∀ e ∈ traceOf i c.log, (∀ v ttl, e ≠ ⟨.put .dexrt u v ttl, ()⟩) ∧ ∀ a, e ≠ ⟨.pop .dexrt u, a⟩

/-- A callback past its code exchange, or a revalidation, is in flight. -/
def InFlight (c : AsConfig) (i : Nat) (u : String) : Prop :=
  c.response i = none ∧ (Exchanged c i u ∨ Revalidating c i u)

/-- The record agrees with Dex whenever the user's requests are at rest; it is
    never overwritten with an older token, never deleted; and a refresh token
    is consumed only by a request that Dex has honoured. -/
structure DexAgrees (c : AsConfig) : Prop where
  at_rest : ∀ u t, current c.log u = some t → (∀ i, ¬ InFlight c i u) →
    (c.world.store .dexrt u).map Prod.fst = some ⟨t⟩
  not_older : ∀ i u v ttl past, (⟨i, ⟨.put .dexrt u v ttl, ()⟩⟩ : AsEntry) :: past <:+ c.log →
    ∀ d, contents past .dexrt u = some d → ¬ Older past u v.rt d.rt
  not_deleted : ∀ i u a, (⟨i, ⟨.pop .dexrt u, a⟩⟩ : AsEntry) ∉ c.log
  not_ended : ∀ i key a past, (⟨i, ⟨.pop .refresh key, a⟩⟩ : AsEntry) :: past <:+ c.log →
    ∃ form u alive before, traceOf i past = ⟨.ext (.get_litellm_user u), .ok alive⟩ :: before ∧
      Honoured form u before

/-- Whoever has a token that is not stored yet is in flight. -/
theorem unwritten_in_flight (h : Reach (handler E) ok c) {i : Nat} {u t : String}
    (hi : Unwritten u t (traceOf i c.log)) : InFlight c i u := by
  refine ⟨unwritten_unanswered h hi, ?_⟩
  have hmem : ∀ e ∈ traceOf i c.log,
      (∀ v ttl, e ≠ ⟨.put .dexrt u v ttl, ()⟩) ∧ ∀ a, e ≠ ⟨.pop .dexrt u, a⟩ := by
    intro e he
    rcases hi.mem he with ⟨_, _, rfl⟩ | ⟨_, _, rfl⟩ | ⟨_, _, rfl⟩ | ⟨_, _, rfl⟩ | ⟨_, _, rfl⟩ <;> simp
  cases htr : traceOf i c.log with
  | nil => rw [htr] at hi; exact absurd hi.two (by simp)
  | cons ev tr =>
    have hsuffix : ev :: tr <:+ traceOf i c.log := ⟨[], htr.symm⟩
    obtain ⟨r, hr, hperf⟩ := performed_trace h hsuffix
    rw [htr] at hi
    rcases hi.inv with ⟨s, token, pending, rfl, -, hemail, -⟩ | ⟨form, n, d, reply, rfl, hold, -⟩
    · obtain ⟨rfl, -⟩ := hperf
      exact .inl ⟨s, token, hr, by rw [htr]; exact List.mem_cons_self, hemail⟩
    · obtain ⟨form', u', n', d', ⟨rfl, hgrant⟩, -, hold'⟩ := hperf
      obtain ⟨tr₁, rfl⟩ := hold.head
      obtain ⟨tr₂, heq⟩ := hold'.head
      cases heq
      obtain ⟨rec, hread, hclient, hsub⟩ := hold'.read
      refine .inr ⟨form', rec, hr, hgrant, ?_, hclient, hsub, hmem⟩
      rw [htr]
      exact List.mem_cons_of_mem _ hread

/-- A user with a refresh token has a record. -/
theorem record_of_session (h : Reach (handler E) InOrder c) {log : AsLog} (hlog : log <:+ c.log)
    {i : Nat} {rt : String} {rec : Refresh}
    (hm : (⟨.get .refresh rt, some rec⟩ : AsEvent) ∈ traceOf i log) :
    ∃ d, contents log .dexrt rec.sub = some d := by
  obtain ⟨j, ttl, hput⟩ := put_before h hlog (.inl hm)
  obtain ⟨k, d, ttl', hput'⟩ := login_before h hlog (k := .refresh) hput rfl
  refine contents_kept hput' ?_
  intro m a hpop
  obtain ⟨past, hs⟩ := exists_suffix_of_mem hpop
  exact not_popped h (agreed h ((List.suffix_cons _ _).trans (hs.trans hlog))) (hs.trans hlog)

/-- The revalidation is never refused. -/
theorem not_refused (h : Reach (handler E) InOrder c) {i : Nat} {form : TokenForm} {u : String}
    {log : AsLog} (hlog : log <:+ c.log) : ¬ Refused form u (traceOf i log) := by
  intro hrefused
  generalize htr : traceOf i log = tr at hrefused
  cases hrefused with
  | @missing rec hclient hsub =>
    -- the record was there when it was read
    obtain ⟨past, hs, hpast⟩ := exists_suffix_of_traceOf ⟨[], htr.symm⟩
    have hread : (⟨.get .refresh form.refresh_token, some rec⟩ : AsEvent) ∈ traceOf i past := by
      rw [hpast]
      exact List.mem_cons_self
    obtain ⟨d, hd⟩ := record_of_session h ((List.suffix_cons _ _).trans (hs.trans hlog)) hread
    have hnone : none = contents past .dexrt u := (honest h).at (hs.trans hlog)
    rw [← hsub, hd] at hnone
    cases hnone
  | given_up hre =>
    obtain ⟨past, hs, -⟩ := exists_suffix_of_traceOf ⟨[], htr.symm⟩
    exact not_popped h (agreed h ((List.suffix_cons _ _).trans (hs.trans hlog))) (hs.trans hlog)

/-- In every run in which Dex honours its users and the requests of each user
    keep to the order, the records agree with Dex and no session is ended. -/
theorem dex_agrees (h : Reach (handler E) InOrder c) : DexAgrees c := by
  have inv := agreed h List.suffix_rfl
  refine ⟨?_, ?_, ?_, ?_⟩
  · intro u t hcur hrest
    rw [(reach_agrees h).store]
    rcases inv.stored u t hcur with hrec | ⟨i, hi⟩
    · exact hrec
    · exact absurd (unwritten_in_flight h hi) (hrest i)
  · intro i u v ttl past hs d hrec
    exact ((agreed h ((List.suffix_cons _ _).trans hs)).ahead i u v.rt d (put_waiting h hs) hrec).2
  · intro i u a hm
    obtain ⟨past, hs⟩ := exists_suffix_of_mem hm
    exact not_popped h (agreed h ((List.suffix_cons _ _).trans hs)) hs
  · intro i key a past hs
    obtain ⟨r, -, form, u, -, -, hrefused | ⟨alive, before, htr, hbefore⟩⟩ := performed h hs
    · exact absurd hrefused (not_refused h ((List.suffix_cons _ _).trans hs))
    · exact ⟨form, u, alive, before, htr, hbefore⟩

/-! ## Two requests at once -/

/-- All tokens Dex has handed out. -/
def handed : AsLog → List String
  | [] => []
  | ⟨_, ⟨.ext (.authorize_access_token _), some token⟩⟩ :: log =>
      token.refresh_token.toList ++ handed log
  | ⟨_, ⟨.ext (.dex_refresh _), .success refresh_token⟩⟩ :: log =>
      refresh_token.toList ++ handed log
  | _ :: log => handed log

theorem tokens_handed {log : AsLog} {u t : String} (h : t ∈ tokens log u) : t ∈ handed log := by
  fun_induction tokens log u with
  | case1 => exact h
  | case2 i s token log ih =>
    rcases List.mem_append.mp h with h | h
    · exact List.mem_append_left _ h
    · exact List.mem_append_right _ (ih h)
  | case3 i s token log u hemail ih => exact List.mem_append_right _ (ih h)
  | case4 i rt refresh_token log u hcur ih =>
    rcases List.mem_append.mp h with h | h
    · exact List.mem_append_left _ h
    · exact List.mem_append_right _ (ih h)
  | case5 i rt refresh_token log u hcur ih => exact List.mem_append_right _ (ih h)
  | case6 e log u hlogin hreplay ih =>
    rw [handed]
    · exact ih h
    · exact hlogin
    · exact hreplay

/-- A token that is not in the list is fresh. -/
def is_fresh (log : AsLog) (t : String) : Bool := t != "" && !(handed log).contains t

theorem is_fresh_spec {log : AsLog} {t : String} (h : is_fresh log t = true) : FreshToken log t := by
  simp only [is_fresh, Bool.and_eq_true, bne_iff_ne, Bool.not_eq_true', List.contains_eq_mem,
    decide_eq_false_iff_not] at h
  exact ⟨h.1, fun u hu => h.2 (tokens_handed hu)⟩

/-- Is Dex honest to the user `u`, and does it refuse nothing? -/
def is_honest (u : String) (log : AsLog) (e : AsEntry) : Bool :=
  match e.ev with
  | ⟨.ext (.authorize_access_token _), some token⟩ =>
      normalized_email token.userinfo != "" && token.refresh_token.any (is_fresh log)
  | ⟨.ext (.dex_refresh rt), .success (some t)⟩ =>
      decide (current log u = some rt) && is_fresh log t
  | ⟨.ext (.dex_refresh _), _⟩ => false
  | ⟨.get .dexrt u, a⟩ => decide (a = contents log .dexrt u)
  | _ => true

theorem is_honest_spec {u : String} {log : AsLog} {e : AsEntry} (h : is_honest u log e = true) :
    Honest log e := by
  obtain ⟨i, ev⟩ := e
  unfold is_honest at h
  split at h
  · next s token hev =>
    obtain rfl : ev = _ := hev
    obtain ⟨hne, hany⟩ := Bool.and_eq_true_iff.mp h
    obtain ⟨t, ht, hf⟩ := (Option.any_eq_true _ _).mp hany
    exact ⟨by simpa using hne, t, ht, is_fresh_spec hf⟩
  · next rt t hev =>
    obtain rfl : ev = _ := hev
    obtain ⟨hcur, hf⟩ := Bool.and_eq_true_iff.mp h
    exact .inl ⟨⟨u, of_decide_eq_true hcur⟩, t, rfl, is_fresh_spec hf⟩
  · cases h
  · next u' a hev =>
    obtain rfl : ev = _ := hev
    have hread : a = contents log .dexrt u' := of_decide_eq_true h
    exact hread
  -- no other event is spoken of
  · next hlogin hsuccess hreplay hread =>
    unfold Honest
    split
    · next s token hev => exact absurd hev (hlogin s token)
    · next rt reply hev => exact absurd hev (hreplay rt reply)
    · next u' a hev => exact absurd hev (hread u' a)
    · trivial

/-- Is a request with this trace between Dex and the record? -/
def busy : AsTrace → Bool
  | ⟨.ext (.authorize_access_token _), _⟩ :: _ => true
  | ⟨.ext (.dex_refresh _), _⟩ :: _ => true
  | ⟨.get .dexrt _, _⟩ :: ⟨.ext (.dex_refresh _), _⟩ :: _ => true
  | _ => false

theorem Unwritten.busy {u t : String} {tr : AsTrace} (h : Unwritten u t tr) : busy tr = true := by
  cases h with
  | login => rfl
  | replayed h =>
    obtain ⟨tr₀, rfl, -⟩ := h
    rfl

theorem Retrying.busy {u : String} {d : DexRt} {tr : AsTrace} (h : Retrying u d tr) :
    busy tr = true := by
  obtain ⟨form, hold⟩ := h
  cases hold with
  | again => rfl

/-- Is no other request at Dex? -/
def alone (log : AsLog) (e : AsEntry) : Bool :=
  log.all fun x => x.tid == e.tid || !busy (traceOf x.tid log)

theorem alone_spec {log : AsLog} {e : AsEntry} (h : alone log e = true) {j : Nat}
    (hj : busy (traceOf j log) = true) : j = e.tid := by
  cases htr : traceOf j log with
  | nil => rw [htr] at hj; cases hj
  | cons ev tr =>
    have hmem : (⟨j, ev⟩ : AsEntry) ∈ log := by
      rw [← mem_traceOf, htr]
      exact List.mem_cons_self
    have hx := List.all_eq_true.mp h _ hmem
    simpa [hj] using hx

theorem alone_ordered {log : AsLog} {e : AsEntry} (h : alone log e = true) : Ordered log e where
  stores := by
    intro u v ttl _ j t hne hj
    exact absurd (alone_spec h hj.busy) hne
  rereads := by
    intro form u n d a hre j t hj
    obtain rfl := alone_spec h hj.busy
    -- a refused request has no token
    obtain ⟨i, ev⟩ := e
    obtain ⟨reply, tr₀, htr, ⟨tr₁, rfl, -⟩, hres⟩ := hre
    dsimp only at htr hj
    rw [traceOf_self] at htr
    obtain ⟨-, htr⟩ := List.cons.inj htr
    rw [htr] at hj
    exact not_unwritten_replay (by simp [hres]) u t hj
  hands := by
    intro u t _ j d hne hj
    exact absurd (alone_spec h hj.busy) hne

/-- A check of the last entry of a log. -/
def checked (check : AsLog → AsEntry → Bool) (_ c' : AsConfig) : Bool :=
  match c'.log with
  | [] => true
  | e :: log => check log e

theorem checked_spec {check : AsLog → AsEntry → Bool} {c c' : AsConfig}
    (h : checked check c c' = true) {e : AsEntry} (hlog : c'.log = e :: c.log) :
    check c.log e = true := by
  rw [checked, hlog] at h
  exact h

/-- The user of the sample runs. -/
def ann : String := "ann@example.com"

/-- Dex answers a second login of the same user. -/
def second_login : Choice Ext Ext.Reply := .reply fun
  | .authorize_access_token _ => some (some { login_token with refresh_token := some "rt3" })
  | _ => none

/-- The user logs in. A refresh request gets the token `rt2`; before it stores
    it, the user logs in again, and the callback gets and stores `rt3`. Then
    the refresh request stores `rt2`. -/
def overwritten : List AsLabel :=
  login_schedule ++
  [.spawn (.authorize login_query), .perform 4 .auto, .perform 4 .auto,
    .perform 4 (.draw (ident 'q' 32)), .perform 4 .auto,
    .spawn (.token refresh_form), .perform 5 .auto, .perform 5 .auto, .perform 5 (all_well true),
    .spawn (.as_callback (ident 'q' 32)), .perform 6 .auto, .perform 6 second_login,
    .perform 6 .auto, .perform 6 (all_well true), .perform 6 (all_well true),
    .perform 6 (all_well true), .perform 6 (.draw (ident 'K' 43)), .perform 6 .auto,
    .perform 5 .auto, .perform 5 (all_well true), .perform 5 .auto, .perform 5 (all_well true),
    .perform 5 .auto, .perform 5 (.draw (ident 'J' 22)), .perform 5 (.draw (ident 'R' 43)),
    .perform 5 .auto]

/-- Have all requests been answered? -/
def all_answered (c : AsConfig) : Bool := c.threads.all fun th => th.prog.awaiting.isNone

theorem all_answered_spec (h : all_answered c = true) {i : Nat} {r : Request}
    (hr : c.request i = some r) : c.response i ≠ none := by
  obtain ⟨⟨r', p⟩, hth, -⟩ := Option.map_eq_some_iff.mp hr
  have hp := List.all_eq_true.mp h _ (List.mem_of_getElem? hth)
  cases p with
  | ret a => simp [Config.response, hth]
  | call op k => cases hp

/-- The records do not agree with Dex in every run. -/
theorem dex_not_agreed : ¬ ∀ c, Reach (handler sample) DexHonest c → DexAgrees c := by
  intro hall
  have hcheck : ∀ c c', checked (is_honest ann) c c' = true → DexHonest c c' := by
    intro c c' h e hlog
    exact is_honest_spec (checked_spec h hlog)
  obtain ⟨c, hreach, htest⟩ := exists_reach_under sample (checked (is_honest ann)) hcheck
    (fun c => all_answered c && decide (current c.log ann = some "rt3") &&
      decide (contents c.log .dexrt ann = some ⟨"rt2"⟩)) overwritten (by decide +kernel)
  simp only [Bool.and_eq_true, decide_eq_true_eq] at htest
  obtain ⟨⟨hanswered, hcur⟩, hrec⟩ := htest
  have hrest : ∀ i, ¬ InFlight c i ann := by
    rintro i ⟨hnone, hfly⟩
    have hr : ∃ r, c.request i = some r := by
      rcases hfly with ⟨state, token, hr, -⟩ | ⟨form, rec, hr, -⟩ <;> exact ⟨_, hr⟩
    obtain ⟨r, hr⟩ := hr
    exact all_answered_spec hanswered hr hnone
  have hagree := (hall c hreach).at_rest ann "rt3" hcur hrest
  rw [(reach_agrees hreach).store, hrec] at hagree
  exact absurd hagree (by decide)

/-- A login, and a refresh after it. -/
theorem dex_agrees_sample : ∃ c, Reach (handler sample) InOrder c ∧
    current c.log ann = some "rt2" ∧ DexAgrees c := by
  have hcheck : ∀ c c', checked (fun log e => is_honest ann log e && alone log e) c c' = true →
      InOrder c c' := by
    intro c c' h
    refine ⟨?_, ?_⟩
    · intro e hlog
      exact is_honest_spec (Bool.and_eq_true_iff.mp (checked_spec h hlog)).1
    · intro e hlog
      exact alone_ordered (Bool.and_eq_true_iff.mp (checked_spec h hlog)).2
  obtain ⟨c, hreach, htest⟩ := exists_reach_under sample _ hcheck
    (fun c => decide (current c.log ann = some "rt2")) refresh_schedule (by decide +kernel)
  exact ⟨c, hreach, of_decide_eq_true htest, dex_agrees hreach⟩

end AlitellmAuth
