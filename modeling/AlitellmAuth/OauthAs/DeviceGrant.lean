import AlitellmAuth.OauthAs.Runs

/-! # The device grant

    A device record is created once, under a fresh device code. The callback
    that settles it reads the record, finds it pending, and writes it: two
    steps, between which another callback may have read the same pending
    record. Where that does not happen (`SettlesAlone`), a device code is
    settled once and redeemed once.

    * `Settling`: a callback is between the two steps.
    * `DeviceOnce`: settled once, not created again once redeemed, redeemed
      once, and for the user of the settlement.
-/

namespace AlitellmAuth

open Interleave

variable {E : Env} {ok : AsConfig → AsConfig → Prop} {c : AsConfig}

/-! ## Settlements -/

/-- A callback has found the device code pending and has not settled it yet. -/
def Settling (log : AsLog) (i : Nat) (d : String) : Prop :=
  ∃ state status sub rec tr, traceOf i log = ⟨.get .device d, some rec⟩ :: tr ∧
    Logged d (.as_callback state) status sub tr ∧ rec.status = .pending

/-- A callback finds a device code pending only while no other callback is
    about to settle it. -/
def SettlesAlone (c c' : AsConfig) : Prop :=
  ∀ e d, c'.log = e :: c.log → Settling c'.log e.tid d → ∀ j, ¬ Settling c.log j d

/-- For every device code: at most one callback writes a settled record, no
    write follows a redemption, and at most one pair is issued, for the user of
    the settlement. -/
structure DeviceOnce (c : AsConfig) : Prop where
  settled_once : ∀ i d v ttl past, (⟨i, ⟨.put .device d v ttl, ()⟩⟩ : AsEntry) :: past <:+ c.log →
    v.status ≠ .pending → ∀ j v' ttl', (⟨j, ⟨.put .device d v' ttl', ()⟩⟩ : AsEntry) ∈ past →
    v'.status = .pending
  not_recreated : ∀ i d v ttl past, (⟨i, ⟨.put .device d v ttl, ()⟩⟩ : AsEntry) :: past <:+ c.log →
    ∀ j w, (⟨j, ⟨.pop .device d, some w⟩⟩ : AsEntry) ∉ past
  redeemed_once : ∀ i j form form' refresh refresh' v v', DevicePair c i form refresh v →
    DevicePair c j form' refresh' v' → form.device_code = form'.device_code →
    i = j ∧ refresh = refresh' ∧ v = v'
  sub_of_settlement : ∀ i form refresh v, DevicePair c i form refresh v →
    ∃ k w ttl, (⟨k, ⟨.put .device form.device_code w ttl, ()⟩⟩ : AsEntry) ∈ c.log ∧
      w.status = .approved ∧ w.sub = some v.sub

/-! ## Who writes device records -/

theorem Logged.not_put {d : String} {r : Request} {status : DeviceStatus} {sub : Option String}
    {tr : AsTrace} (h : Logged d r status sub tr) : ∀ e ∈ tr, ¬ IsPut .device e := by
  cases h <;> simp [IsPut]

/-- A pending record is the one that was created, right after its device code
    was drawn; any other was written by a callback that was settling. -/
theorem put_device_cases (h : Reach (handler E) ok c) {i : Nat} {d : String} {v : Device}
    {ttl : Option Nat} {past : AsLog}
    (hs : (⟨i, ⟨.put .device d v ttl, ()⟩⟩ : AsEntry) :: past <:+ c.log) :
    (v.status = .pending ∧ v.sub = none ∧
      (⟨.draw (.urlsafe 32), d⟩ : AsEvent) ∈ traceOf i past ∧
      ∀ e ∈ traceOf i past, ¬ IsPut .device e) ∨
    (v.status ≠ .pending ∧ ∃ state status sub rec tr,
      traceOf i past = ⟨.get .device d, some rec⟩ :: tr ∧
      Logged d (.as_callback state) status sub tr ∧ rec.status = .pending ∧
      v.status = status ∧ v.sub = sub.or rec.sub) := by
  obtain ⟨r, -, hputs⟩ := performed h hs
  generalize htr : traceOf i past = tr at hputs
  cases hputs with
  | created => exact .inl ⟨rfl, rfl, by simp, by simp [IsPut]⟩
  | @settled r rec status sub tr hlogged hpending =>
    refine .inr ⟨hlogged.status_ne, ?_⟩
    have hr : ∃ state, r = .as_callback state := by cases hlogged <;> exact ⟨_, rfl⟩
    obtain ⟨state, rfl⟩ := hr
    exact ⟨state, status, sub, rec, tr, rfl, hlogged, hpending, rfl, rfl⟩

/-- A device code is drawn, and its record created, once. -/
theorem created_once (h : Reach (handler E) ok c) {i j : Nat} {d : String} {v w : Device}
    {ttl ttl' : Option Nat} {past : AsLog}
    (hs : (⟨i, ⟨.put .device d v ttl, ()⟩⟩ : AsEntry) :: past <:+ c.log)
    (hv : v.status = .pending) (hw : w.status = .pending) :
    (⟨j, ⟨.put .device d w ttl', ()⟩⟩ : AsEntry) ∉ past := by
  intro hmem
  obtain ⟨past', hs'⟩ := exists_suffix_of_mem hmem
  have hpast := (List.suffix_cons _ _).trans hs
  rcases put_device_cases h hs with ⟨-, -, hdraw, hno⟩ | ⟨hne, -⟩
  · rcases put_device_cases h (hs'.trans hpast) with ⟨-, -, hdraw', -⟩ | ⟨hne, -⟩
    · -- both have drawn the code, so they are one thread, which creates once
      have hi := hpast.subset (mem_traceOf.mp hdraw)
      have hj := ((List.suffix_cons _ _).trans (hs'.trans hpast)).subset (mem_traceOf.mp hdraw')
      obtain rfl := drawn_by_one (reach_ledger h) hi hj
      exact hno _ (mem_traceOf.mpr hmem) ⟨_, _, _, rfl⟩
    · exact hne hw
  · exact hne hv

/-- A settled record was pending, hence created, before. -/
theorem created_before (h : Reach (handler E) ok c) {i : Nat} {d : String} {v : Device}
    {ttl : Option Nat} {past : AsLog}
    (hs : (⟨i, ⟨.put .device d v ttl, ()⟩⟩ : AsEntry) :: past <:+ c.log)
    (hv : v.status ≠ .pending) :
    ∃ j w ttl', (⟨j, ⟨.put .device d w ttl', ()⟩⟩ : AsEntry) ∈ past ∧ w.status = .pending := by
  rcases put_device_cases h hs with ⟨hp, -⟩ | ⟨-, state, status, sub, rec, tr, htr, -, hrec, -⟩
  · exact absurd hp hv
  · obtain ⟨pg, hget, -⟩ := exists_suffix_of_traceOf ⟨[], htr.symm⟩
    obtain ⟨j, ttl', past', hput⟩ := read_put h (hget.trans ((List.suffix_cons _ _).trans hs))
    exact ⟨j, rec, ttl', ((hput.trans (List.suffix_cons _ _)).trans hget).subset List.mem_cons_self,
      hrec⟩

/-- Once a settled record was written, no pending record is there any more. -/
theorem not_pending_after (h : Reach (handler E) ok c) {log : AsLog} (hlog : log <:+ c.log)
    {i : Nat} {d : String} {v rec : Device} {ttl : Option Nat} {past : AsLog}
    (hs : (⟨i, ⟨.put .device d v ttl, ()⟩⟩ : AsEntry) :: past <:+ log) (hv : v.status ≠ .pending)
    (hrec : contents log .device d = some rec) : rec.status ≠ .pending := by
  intro hpending
  obtain ⟨j, ttl', past', hput, hle⟩ := put_after_touch hrec hs (.inl ⟨v, ttl, rfl⟩)
  rcases List.suffix_cons_iff.mp hle with heq | hle
  · obtain ⟨heq, -⟩ := List.cons.inj heq
    cases heq
    exact hv hpending
  · obtain ⟨k, w, ttl'', hmem, hw⟩ := created_before h (hs.trans hlog) hv
    exact created_once h (hput.trans hlog) hpending hw
      (hle.subset (List.mem_cons_of_mem _ hmem))

/-! ## Settling alone -/

/-- At most one callback is about to settle a device code. -/
theorem one_settling (h : Reach (handler E) SettlesAlone c) {log : AsLog} (hlog : log <:+ c.log)
    {i j : Nat} {d : String} (hi : Settling log i d) (hj : Settling log j d) : i = j := by
  have hguard : Throughout (fun past e => ∀ d, Settling (e :: past) e.tid d →
      ∀ j, ¬ Settling past j d) c.log := by
    refine reach_throughout ?_ h
    intro c c' i ch r op k a w _ _ _ hk hc d hset
    subst hc
    exact hk _ d rfl hset
  induction log with
  | nil =>
    obtain ⟨state, status, sub, rec, tr, htr, -⟩ := hi
    cases htr
  | cons e log ih =>
    have hkeep : ∀ {k}, e.tid ≠ k → Settling (e :: log) k d → Settling log k d := by
      intro k hne hk
      rw [Settling, traceOf_ne hne] at hk
      exact hk
    by_cases hei : e.tid = i
    · by_cases hej : e.tid = j
      · exact hei.symm.trans hej
      · exact absurd (hkeep hej hj) (hguard.at hlog d (hei ▸ hi) j)
    · by_cases hej : e.tid = j
      · exact absurd (hkeep hei hi) (hguard.at hlog d (hej ▸ hj) i)
      · exact ih ((List.suffix_cons _ _).trans hlog) (hkeep hei hi) (hkeep hej hj)

/-- A device code is settled at most once. -/
theorem settled_once (h : Reach (handler E) SettlesAlone c) {i j : Nat} {d : String}
    {v v' : Device} {ttl ttl' : Option Nat} {past : AsLog}
    (hs : (⟨i, ⟨.put .device d v ttl, ()⟩⟩ : AsEntry) :: past <:+ c.log)
    (hv : v.status ≠ .pending)
    (hmem : (⟨j, ⟨.put .device d v' ttl', ()⟩⟩ : AsEntry) ∈ past) : v'.status = .pending := by
  by_contra hv'
  have hpast := (List.suffix_cons _ _).trans hs
  obtain ⟨past', hs'⟩ := exists_suffix_of_mem hmem
  rcases put_device_cases h hs with ⟨hp, -⟩ | ⟨-, state, status, sub, rec, tr, htr, hlogged, hrec, -⟩
  · exact hv hp
  rcases put_device_cases h (hs'.trans hpast) with
    ⟨hp, -⟩ | ⟨-, state', status', sub', rec', tr', htr', hlogged', hrec', -⟩
  · exact hv' hp
  -- where thread `i` has found the record pending
  obtain ⟨pg, hget, hpg⟩ := exists_suffix_of_traceOf ⟨[], htr.symm⟩
  rcases suffix_total hs' hget (by simp) with hafter | hbefore
  · -- after the first settlement: then it was not pending
    have hread := (reach_ledger h).at (hget.trans hpast) rec rfl
    exact not_pending_after h ((List.suffix_cons _ _).trans (hget.trans hpast)) hafter hv' hread hrec
  · -- before: then both were about to settle
    have hsuffix : past' <:+ past := (List.suffix_cons _ _).trans hs'
    have htrace : traceOf i past' = ⟨.get .device d, some rec⟩ :: tr := by
      have hle := traceOf_suffix (i := i) hbefore
      rw [traceOf_self, hpg] at hle
      have hge := traceOf_suffix (i := i) hsuffix
      rw [htr] at hge
      exact hge.eq_of_length_le hle.length_le
    obtain rfl := one_settling h (hsuffix.trans hpast)
      ⟨state, status, sub, rec, tr, htrace, hlogged, hrec⟩
      ⟨state', status', sub', rec', tr', htr', hlogged', hrec'⟩
    -- but a callback settles once
    have hin := mem_traceOf.mpr hmem
    rw [htr] at hin
    rcases List.mem_cons.mp hin with heq | hin
    · cases heq
    · exact hlogged.not_put _ hin ⟨_, _, _, rfl⟩

/-! ## Redemption -/

/-- Whoever pops a device record has seen it settled. -/
theorem popped_settled (h : Reach (handler E) ok c) {i : Nat} {d : String} {a : Option Device}
    {past : AsLog} (hs : (⟨i, ⟨.pop .device d, a⟩⟩ : AsEntry) :: past <:+ c.log) :
    ∃ j w ttl, (⟨j, ⟨.put .device d w ttl, ()⟩⟩ : AsEntry) ∈ past ∧ w.status ≠ .pending := by
  obtain ⟨r, -, form, rec, -, -, htr, -, hrec⟩ := performed h hs
  obtain ⟨pg, hget, -⟩ := exists_suffix_of_traceOf ⟨[], htr.symm⟩
  obtain ⟨j, ttl, past', hput⟩ := read_put h (hget.trans ((List.suffix_cons _ _).trans hs))
  exact ⟨j, rec, ttl, ((hput.trans (List.suffix_cons _ _)).trans hget).subset List.mem_cons_self, hrec⟩

/-- Nobody writes a device record that was popped. -/
theorem not_recreated (h : Reach (handler E) SettlesAlone c) {i j : Nat} {d : String} {v : Device}
    {a : Option Device} {ttl : Option Nat} {past : AsLog}
    (hs : (⟨i, ⟨.put .device d v ttl, ()⟩⟩ : AsEntry) :: past <:+ c.log) :
    (⟨j, ⟨.pop .device d, a⟩⟩ : AsEntry) ∉ past := by
  intro hmem
  have hpast := (List.suffix_cons _ _).trans hs
  obtain ⟨past', hs'⟩ := exists_suffix_of_mem hmem
  obtain ⟨k, w, ttl', hput, hw⟩ := popped_settled h (hs'.trans hpast)
  have hin := ((List.suffix_cons _ _).trans hs').subset hput
  by_cases hv : v.status = .pending
  · -- the record would be created after it was settled
    obtain ⟨past'', hs''⟩ := exists_suffix_of_mem hin
    obtain ⟨m, x, ttl'', hmem'', hx⟩ := created_before h (hs''.trans hpast) hw
    exact created_once h hs hv hx
      (((List.suffix_cons _ _).trans hs'').subset hmem'')
  · exact hw (settled_once h hs hv hin)

/-- What the request behind a pair has popped. -/
theorem device_pair_popped (h : Reach (handler E) ok c) {i : Nat} {form : TokenForm}
    {refresh : String} {v : Refresh} (hp : DevicePair c i form refresh v) :
    ∃ taken, (⟨i, ⟨.pop .device form.device_code, some taken⟩⟩ : AsEntry) ∈ c.log ∧
      taken.sub = some v.sub := by
  obtain ⟨hr, hgrant, hissued⟩ := hp
  obtain ⟨form', past, tr, ttl, hr', -, hsource, ⟨jti, now, rfl⟩, hsuffix⟩ := issued_source h hissued
  cases request_unique hr hr'
  cases hsource with
  | code hg => rw [hgrant] at hg; exact absurd hg (by decide)
  | refresh hg => rw [hgrant] at hg; exact absurd hg (by decide)
  | @device rec taken hg hc hstatus hsub hscope =>
    exact ⟨taken, mem_traceOf.mp (hsuffix.subset (by simp)), hsub⟩

/-- A device record is popped at most once. -/
theorem device_popped_once (h : Reach (handler E) SettlesAlone c) {i j : Nat} {d : String}
    {v w : Device} (hi : (⟨i, ⟨.pop .device d, some v⟩⟩ : AsEntry) ∈ c.log)
    (hj : (⟨j, ⟨.pop .device d, some w⟩⟩ : AsEntry) ∈ c.log) : i = j := by
  obtain ⟨pi, hi⟩ := exists_suffix_of_mem hi
  obtain ⟨pj, hj⟩ := exists_suffix_of_mem hj
  -- between two pops there would be a put
  have hno : ∀ {i j : Nat} {v w : Device} {pi pj : AsLog},
      (⟨i, ⟨.pop .device d, some v⟩⟩ : AsEntry) :: pi <:+ c.log →
      (⟨j, ⟨.pop .device d, some w⟩⟩ : AsEntry) :: pj <:+ c.log →
      ¬ (⟨i, ⟨.pop .device d, some v⟩⟩ : AsEntry) :: pi <:+ pj := by
    intro i j v w pi pj hi hj hle
    have hthere := (reach_ledger h).at hj w rfl
    obtain ⟨k, ttl, past, hput, hbefore⟩ := put_after_touch hthere hle (.inr ⟨some v, rfl⟩)
    rcases List.suffix_cons_iff.mp hbefore with heq | hbefore
    · cases heq
    · exact not_recreated h (hput.trans ((List.suffix_cons _ _).trans hj))
        (hbefore.subset List.mem_cons_self)
  by_contra hne
  rcases suffix_total hi hj (fun heq => hne (congrArg Entry.tid heq)) with hle | hle
  · exact hno hi hj hle
  · exact hno hj hi hle

/-- The user of a settled record is the one whose login settled it. -/
theorem settled_approved (h : Reach (handler E) ok c) {i : Nat} {d sub : String} {v : Device}
    {ttl : Option Nat} (hmem : (⟨i, ⟨.put .device d v ttl, ()⟩⟩ : AsEntry) ∈ c.log)
    (hsub : v.sub = some sub) : v.status = .approved := by
  obtain ⟨past, hs⟩ := exists_suffix_of_mem hmem
  rcases put_device_cases h hs with
    ⟨-, hnone, -⟩ | ⟨-, state, status, sub', rec, tr, htr, hlogged, hrec, hstatus, hsub'⟩
  · rw [hnone] at hsub
    cases hsub
  · cases hlogged with
    | approved => exact hstatus
    | denied =>
      -- a denial keeps the user of the pending record, and it has none
      obtain ⟨pg, hget, -⟩ := exists_suffix_of_traceOf ⟨[], htr.symm⟩
      have hlog := (List.suffix_cons _ _).trans hs
      obtain ⟨j, ttl', past', hput⟩ := read_put h (hget.trans hlog)
      rcases put_device_cases h ((hput.trans (List.suffix_cons _ _)).trans (hget.trans hlog)) with
        ⟨-, hnone, -⟩ | ⟨hne, -⟩
      · rw [hsub', hnone] at hsub
        cases hsub
      · exact absurd hrec hne

/-- In every run in which no two callbacks are about to settle one device code,
    a device code is settled once and redeemed once. -/
theorem device_once (h : Reach (handler E) SettlesAlone c) : DeviceOnce c := by
  refine ⟨?_, ?_, ?_, ?_⟩
  · intro i d v ttl past hs hv j v' ttl' hmem
    exact settled_once h hs hv hmem
  · intro i d v ttl past hs j w
    exact not_recreated h hs
  · intro i j form form' refresh refresh' v v' hp hp' hd
    obtain ⟨taken, hpop, -⟩ := device_pair_popped h hp
    obtain ⟨taken', hpop', -⟩ := device_pair_popped h hp'
    rw [← hd] at hpop'
    obtain rfl := device_popped_once h hpop hpop'
    exact ⟨rfl, issued_once h hp.2.2 hp'.2.2⟩
  · intro i form refresh v hp
    obtain ⟨taken, hpop, hsub⟩ := device_pair_popped h hp
    obtain ⟨past, hs⟩ := exists_suffix_of_mem hpop
    obtain ⟨k, ttl, past', hput⟩ := popped_put h hs
    have hmem := (hput.trans ((List.suffix_cons _ _).trans hs)).subset List.mem_cons_self
    exact ⟨k, taken, ttl, hmem, settled_approved h hmem hsub, hsub⟩

/-! ## Two callbacks at once -/

/-- The token request of a device. -/
def device_form : TokenForm where
  grant_type := some DEVICE_GRANT
  client_id := ident 'c' 22
  code := ""
  redirect_uri := ""
  code_verifier := ""
  refresh_token := ""
  device_code := ident 'd' 43

/-- A client starts a device login, and two browsers confirm its code. -/
def device_logins : List AsLabel :=
  [.spawn (.register (some (.obj [("redirect_uris", .arr [.str "http://localhost/cb"])]))),
    .perform 0 (.draw (ident 'c' 22)), .perform 0 .auto,
    .spawn (.device_authorization (ident 'c' 22)), .perform 1 .auto,
    .perform 1 (.draw (ident 'd' 43)), .perform 1 (.draw "BCDFGHJK"), .perform 1 .auto,
    .perform 1 .auto,
    .spawn (.device_confirm (some "https://auth.example") none "bcdf-ghjk"), .perform 2 .auto,
    .perform 2 (.draw (ident 'p' 32)), .perform 2 .auto,
    .spawn (.device_confirm (some "https://auth.example") none "BCDFGHJK"), .perform 3 .auto,
    .perform 3 (.draw (ident 'q' 32)), .perform 3 .auto,
    .spawn (.as_callback (ident 'p' 32)), .perform 4 .auto, .perform 4 (all_well true),
    .perform 4 .auto, .perform 4 (all_well true),
    .spawn (.as_callback (ident 'q' 32)), .perform 5 .auto, .perform 5 (all_well true),
    .perform 5 .auto, .perform 5 (all_well true)]

/-- Both callbacks find the code pending. The first one settles it and the
    device redeems it; then the second one settles it, and the device redeems
    it again. -/
def settled_twice : List AsLabel :=
  device_logins ++
  [.perform 4 .auto, .perform 5 .auto, .perform 4 .auto, .perform 4 .auto,
    .spawn (.token device_form), .perform 6 .auto, .perform 6 .auto, .perform 6 .auto,
    .perform 6 (.draw (ident 'j' 22)), .perform 6 (.draw (ident 'r' 43)), .perform 6 .auto,
    .perform 5 .auto, .perform 5 .auto,
    .spawn (.token device_form), .perform 7 .auto, .perform 7 .auto, .perform 7 .auto,
    .perform 7 (.draw (ident 'J' 22)), .perform 7 (.draw (ident 'R' 43)), .perform 7 .auto]

/-- A device code is not redeemed once in every run. -/
theorem device_not_once : ¬ ∀ c, Reached sample c → DeviceOnce c := by
  intro hall
  obtain ⟨c, hreach, htest⟩ := exists_reached sample
    (fun c => got_pair c 6 device_form && got_pair c 7 device_form) settled_twice
    (by decide +kernel)
  rw [Bool.and_eq_true] at htest
  obtain ⟨hr, access, refresh, scope, n, hres⟩ := got_pair_spec htest.1
  obtain ⟨hr', access', refresh', scope', n', hres'⟩ := got_pair_spec htest.2
  obtain ⟨v, hissued, -⟩ := tokens_issued hreach hres
  obtain ⟨v', hissued', -⟩ := tokens_issued hreach hres'
  have heq := (hall c hreach).redeemed_once 6 7 device_form device_form refresh refresh' v v'
    ⟨hr, rfl, hissued⟩ ⟨hr', rfl, hissued'⟩ rfl
  cases heq.1

/-- Has somebody found a device code pending? -/
def finds_pending (e : AsEntry) : Bool :=
  match e.ev with
  | ⟨.get .device _, some rec⟩ => decide (rec.status = .pending)
  | _ => false

/-- Is a device code found pending only for the first time? -/
def found_once (c c' : AsConfig) : Bool :=
  !(c'.log.head?.any finds_pending) || !c.log.any finds_pending

theorem found_once_spec (c c' : AsConfig) (h : found_once c c' = true) : SettlesAlone c c' := by
  rintro ⟨i, ev⟩ d hlog ⟨state, status, sub, rec, tr, htr, -, hrec⟩ j
    ⟨state', status', sub', rec', tr', htr', -, hrec'⟩
  rw [hlog] at htr
  dsimp only at htr
  rw [traceOf_self] at htr
  obtain ⟨rfl, -⟩ := List.cons.inj htr
  have hj : (⟨j, ⟨.get .device d, some rec'⟩⟩ : AsEntry) ∈ c.log := by
    rw [← mem_traceOf, htr']
    exact List.mem_cons_self
  have hany : c.log.any finds_pending = true :=
    List.any_eq_true.mpr ⟨_, hj, decide_eq_true hrec'⟩
  rw [found_once, hlog, hany] at h
  simp [finds_pending, hrec] at h

/-- The second callback comes when the first one has settled the code; the
    device redeems it. -/
def settled_alone : List AsLabel :=
  device_logins ++
  [.perform 4 .auto, .perform 4 .auto, .perform 5 .auto,
    .spawn (.token device_form), .perform 6 .auto, .perform 6 .auto, .perform 6 .auto,
    .perform 6 (.draw (ident 'j' 22)), .perform 6 (.draw (ident 'r' 43)), .perform 6 .auto]

/-- A device login that is settled by one callback and redeemed by its device. -/
theorem device_once_sample : ∃ c refresh v, Reach (handler sample) SettlesAlone c ∧
    DevicePair c 6 device_form refresh v ∧ DeviceOnce c := by
  obtain ⟨c, hreach, htest⟩ := exists_reach_under sample found_once found_once_spec
    (got_pair · 6 device_form) settled_alone (by decide +kernel)
  obtain ⟨hr, access, refresh, scope, n, hres⟩ := got_pair_spec htest
  obtain ⟨v, hissued, -⟩ := tokens_issued hreach hres
  exact ⟨c, refresh, v, hreach, ⟨hr, rfl, hissued⟩, device_once hreach⟩

end AlitellmAuth
