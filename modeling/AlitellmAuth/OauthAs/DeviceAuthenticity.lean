import AlitellmAuth.OauthAs.DeviceGrant

/-! # Authenticity of the device grant

    A pair that is issued for a device code goes back to three requests of the
    same run: the one that started the code, the one that confirmed its user
    code in a browser, and the callback of the login that followed. The
    binding runs through two indexes, from the user code to the device code
    and from the state of the login to the pending request.

    * `Started`, `Confirmed`, `Returned`: the three requests.
    * `Fails`: Dex has answered, but the login cannot go on.
    * `DeviceAuthentic`: what holds of every pair, every redemption and every
      failed callback of a run.
-/

namespace AlitellmAuth

open Interleave

variable {E : Env} {ok : AsConfig → AsConfig → Prop} {c : AsConfig}

/-! ## The requests behind a pair -/

/-- Thread `n` has started the device code `d` for a client. -/
def Started (c : AsConfig) (n : Nat) (client_id d : String) (rec : Device) : Prop :=
  c.request n = some (.device_authorization client_id) ∧
    ∃ ttl, (⟨n, ⟨.put .device d rec ttl, ()⟩⟩ : AsEntry) ∈ c.log

/-- Thread `m` has created the pending request `state` for `d`: a same-origin
    confirmation of a code that normalises to `user_code`. -/
def Confirmed (E : Env) (c : AsConfig) (m : Nat) (state d : String) (scopes : List String)
    (user_code : String) : Prop :=
  ∃ origin referer typed, c.request m = some (.device_confirm origin referer typed) ∧
    same_origin (origin_header origin referer) E.app_base_url = some true ∧
    normalize_user_code typed = user_code ∧
    ∃ ttl, (⟨m, ⟨.put .pending state (.device d scopes) ttl, ()⟩⟩ : AsEntry) ∈ c.log

/-- Thread `k` has taken the pending request `state` for `d`, and Dex has
    returned the email `sub` on its callback. -/
def Returned (c : AsConfig) (k : Nat) (state d : String) (scopes : List String) (sub : String) :
    Prop :=
  c.request k = some (.as_callback state) ∧
    (⟨k, ⟨.pop .pending state, some (.device d scopes)⟩⟩ : AsEntry) ∈ c.log ∧
    ∃ token, (⟨k, ⟨.ext (.authorize_access_token state), some token⟩⟩ : AsEntry) ∈ c.log ∧
      normalized_email token.userinfo = sub

/-- Dex has answered, but without an email or a refresh token, or LiteLLM has
    not provisioned the user. -/
def Fails : AsEvent → Prop
  | ⟨.ext (.authorize_access_token _), some token⟩ =>
      normalized_email token.userinfo = "" ∨ token.refresh_token.getD "" = ""
  | ⟨.ext (.ensure_team_and_user ..), reply⟩ => reply ≠ .ok ()
  | _ => False

/-- No step of thread `k` writes or removes a device record or an index. -/
def LeavesDevices (c : AsConfig) (k : Nat) : Prop :=
  ∀ ev past, (⟨k, ev⟩ : AsEntry) :: past <:+ c.log → ∀ key,
    ¬ Touches .device key (⟨k, ev⟩ : AsEntry) ∧ ¬ Touches .device_user key (⟨k, ev⟩ : AsEntry) ∧
    contents (⟨k, ev⟩ :: past) .device key = contents past .device key ∧
    contents (⟨k, ev⟩ :: past) .device_user key = contents past .device_user key

/-- The pairs, the redemptions and the failed logins of a run. -/
structure DeviceAuthentic (E : Env) (c : AsConfig) : Prop where
  started_once : ∀ n n' client_id client_id' d rec rec', Started c n client_id d rec →
    Started c n' client_id' d rec' → n = n' ∧ client_id = client_id' ∧ rec = rec'
  pair : ∀ i form refresh v, DevicePair c i form refresh v →
    v.client_id = form.client_id ∧ v.scope = E.as_audience ∧
    ∃ n rec m k state scopes, Started c n v.client_id form.device_code rec ∧
      Confirmed E c m state form.device_code scopes rec.user_code ∧
      Returned c k state form.device_code scopes v.sub
  sent : ∀ i form access refresh scope expires_in, c.request i = some (.token form) →
    form.grant_type = some DEVICE_GRANT →
    c.response i = some (.tokens access refresh scope expires_in) →
    ∃ v, DevicePair c i form refresh v ∧ Accompanies v access scope
  consumed : ∀ i d a, (⟨i, ⟨.pop .device d, a⟩⟩ : AsEntry) ∈ c.log →
    ∃ form n rec, c.request i = some (.token form) ∧ form.device_code = d ∧
      Started c n form.client_id d rec
  failed : ∀ k ev, (⟨k, ev⟩ : AsEntry) ∈ c.log → Fails ev → LeavesDevices c k

/-! ## Who started a device code -/

/-- A client is registered under its own id. -/
theorem client_put (h : Reach (handler E) ok c) {i : Nat} {key : String} {v : Client}
    {ttl : Option Nat} {past : AsLog}
    (hs : (⟨i, ⟨.put .client key v ttl, ()⟩⟩ : AsEntry) :: past <:+ c.log) : v.client_id = key := by
  obtain ⟨r, -, hperf⟩ := performed h hs
  rcases hperf with ⟨body, -, -, hkey, -⟩ | ⟨q, -, -, hkey⟩
  · exact hkey
  · exact hkey

/-- A pending record is the one its device authorization wrote. -/
theorem started_of_pending (h : Reach (handler E) ok c) {n : Nat} {d : String} {v : Device}
    {ttl : Option Nat} {past : AsLog}
    (hs : (⟨n, ⟨.put .device d v ttl, ()⟩⟩ : AsEntry) :: past <:+ c.log)
    (hv : v.status = .pending) : Started c n v.client_id d v ∧ v.sub = none := by
  obtain ⟨r, hr, hputs⟩ := performed h hs
  generalize htr : traceOf n past = tr at hputs
  cases hputs with
  | settled hlogged => exact absurd hv hlogged.status_ne
  | @created client_id raw client =>
    -- the client was read under the id the request names
    have hsuffix : (⟨.get .client client_id, some client⟩ : AsEvent) :: [] <:+ traceOf n past := by
      rw [htr]
      exact ⟨[_, _], rfl⟩
    obtain ⟨pg, hget, -⟩ := exists_suffix_of_traceOf hsuffix
    have hpast := (List.suffix_cons _ _).trans hs
    obtain ⟨j, ttl', past', hput⟩ := read_put h (hget.trans hpast)
    have hclient := client_put h ((hput.trans (List.suffix_cons _ _)).trans (hget.trans hpast))
    rw [← hclient] at hr
    exact ⟨⟨hr, ttl, hs.subset List.mem_cons_self⟩, rfl⟩

/-- Every record under a device code has the client and the user code it was
    started with. -/
theorem started_of_put (h : Reach (handler E) ok c) {i : Nat} {d : String} {v : Device}
    {ttl : Option Nat} {past : AsLog}
    (hs : (⟨i, ⟨.put .device d v ttl, ()⟩⟩ : AsEntry) :: past <:+ c.log) :
    ∃ n rec, Started c n rec.client_id d rec ∧ v.client_id = rec.client_id ∧
      v.user_code = rec.user_code := by
  by_cases hv : v.status = .pending
  · exact ⟨i, v, (started_of_pending h hs hv).1, rfl, rfl⟩
  · obtain ⟨r, hr, hputs⟩ := performed h hs
    generalize htr : traceOf i past = tr at hputs
    cases hputs with
    | created => exact absurd rfl hv
    | @settled r rec status sub tr hlogged hpending =>
      obtain ⟨pg, hget, -⟩ := exists_suffix_of_traceOf ⟨[], htr.symm⟩
      have hlog := hget.trans ((List.suffix_cons _ _).trans hs)
      obtain ⟨j, ttl', past', hput⟩ := read_put h hlog
      have hrec := started_of_pending h ((hput.trans (List.suffix_cons _ _)).trans hlog) hpending
      exact ⟨j, rec, hrec.1, rfl, rfl⟩

/-- A device code that was read has been started, for the client of the record. -/
theorem started_of_read (h : Reach (handler E) ok c) {i : Nat} {d : String} {v : Device}
    (hmem : (⟨i, ⟨.get .device d, some v⟩⟩ : AsEntry) ∈ c.log) :
    ∃ n rec, Started c n v.client_id d rec := by
  obtain ⟨past, hs⟩ := exists_suffix_of_mem hmem
  obtain ⟨j, ttl, past', hput⟩ := read_put h hs
  obtain ⟨n, rec, hstarted, hclient, -⟩ :=
    started_of_put h (hput.trans ((List.suffix_cons _ _).trans hs))
  rw [hclient]
  exact ⟨n, rec, hstarted⟩

theorem Started.pending (h : Reach (handler E) ok c) {n : Nat} {client_id d : String}
    {rec : Device} (hst : Started c n client_id d rec) : rec.status = .pending := by
  obtain ⟨hr, ttl, hmem⟩ := hst
  obtain ⟨past, hs⟩ := exists_suffix_of_mem hmem
  obtain ⟨r, hr', hputs⟩ := performed h hs
  cases request_unique hr hr'
  generalize traceOf n past = tr at hputs
  cases hputs with
  | created => rfl
  | settled hlogged => cases hlogged

/-- A device code is started once. -/
theorem started_unique (h : Reach (handler E) ok c) {n n' : Nat} {client_id client_id' d : String}
    {rec rec' : Device} (hst : Started c n client_id d rec)
    (hst' : Started c n' client_id' d rec') :
    n = n' ∧ client_id = client_id' ∧ rec = rec' := by
  have hp := hst.pending h
  have hp' := hst'.pending h
  obtain ⟨hr, ttl, hmem⟩ := hst
  obtain ⟨hr', ttl', hmem'⟩ := hst'
  obtain ⟨past, hs⟩ := exists_suffix_of_mem hmem
  rcases mem_or_later hs hmem' with hin | hlater
  · rcases List.mem_cons.mp hin with heq | hin
    · cases heq
      cases request_unique hr hr'
      exact ⟨rfl, rfl, rfl⟩
    · exact absurd hin (created_once h hs hp hp')
  · obtain ⟨past', hs', hle⟩ := hlater
    exact absurd (hle.subset List.mem_cons_self) (created_once h hs' hp' hp)

/-! ## The login behind a pair -/

/-- A record with a user was written by the callback of that user's login, once
    LiteLLM had the user. -/
theorem login_of_put (h : Reach (handler E) ok c) {i : Nat} {d sub : String} {v : Device}
    {ttl : Option Nat} {past : AsLog}
    (hs : (⟨i, ⟨.put .device d v ttl, ()⟩⟩ : AsEntry) :: past <:+ c.log) (hsub : v.sub = some sub) :
    ∃ state scopes name groups, Returned c i state d scopes sub ∧
      (⟨i, ⟨.ext (.ensure_team_and_user sub name groups), .ok ()⟩⟩ : AsEntry) ∈ c.log := by
  have happroved := settled_approved h (hs.subset List.mem_cons_self) hsub
  have hpast := (List.suffix_cons _ _).trans hs
  obtain ⟨r, hr, hputs⟩ := performed h hs
  generalize htr : traceOf i past = tr at hputs
  cases hputs with
  | created => cases hsub
  | settled hlogged =>
    have hmem : ∀ e ∈ traceOf i past, (⟨i, e⟩ : AsEntry) ∈ c.log :=
      fun e he => hpast.subset (mem_traceOf.mp he)
    rw [htr] at hmem
    cases hlogged with
    | denied => cases happroved
    | @approved state token _ _ name groups scopes sub' hemail =>
      obtain rfl : sub' = sub := Option.some.inj hsub
      exact ⟨state, scopes, name, groups, ⟨hr, hmem _ (by simp), token, hmem _ (by simp), hemail⟩,
        hmem _ (by simp)⟩

/-- The pending request of a device login was created by a confirmation of the
    user code that its device code was started with. -/
theorem confirmed_of_pop (h : Reach (handler E) ok c) {k : Nat} {state d : String}
    {scopes : List String}
    (hmem : (⟨k, ⟨.pop .pending state, some (.device d scopes)⟩⟩ : AsEntry) ∈ c.log) :
    ∃ m n client_id rec, Confirmed E c m state d scopes rec.user_code ∧
      Started c n client_id d rec := by
  obtain ⟨past, hs⟩ := exists_suffix_of_mem hmem
  obtain ⟨m, ttl, past', hput⟩ := popped_put h hs
  replace hput := hput.trans ((List.suffix_cons _ _).trans hs)
  obtain ⟨r, hr, hstarts⟩ := performed h hput
  generalize htr : traceOf m past' = tr at hstarts
  cases hstarts with
  | @device origin referer typed index horigin =>
    -- the index was written right after the record
    have hsuffix : (⟨.get .device_user (normalize_user_code typed), some index⟩ : AsEvent) :: [] <:+
        traceOf m past' := by
      rw [htr]
      exact ⟨[_], rfl⟩
    obtain ⟨pg, hget, -⟩ := exists_suffix_of_traceOf hsuffix
    replace hget := hget.trans ((List.suffix_cons _ _).trans hput)
    obtain ⟨n, ttl', pi, hindex⟩ := read_put h hget
    replace hindex := hindex.trans ((List.suffix_cons _ _).trans hget)
    obtain ⟨r', hr', client_id, rec, ttl'', tr', rfl, htr', huser⟩ := performed h hindex
    have hrec : (⟨n, ⟨.put .device index.device_code rec ttl'', ()⟩⟩ : AsEntry) ∈ c.log := by
      apply ((List.suffix_cons _ _).trans hindex).subset
      rw [← mem_traceOf, htr']
      exact List.mem_cons_self
    exact ⟨m, n, client_id, rec,
      ⟨origin, referer, typed, hr, horigin, huser.symm, ttl, hput.subset List.mem_cons_self⟩,
      hr', ttl'', hrec⟩

/-- What the request behind a pair has read, and what it has popped. -/
theorem device_pair_read (h : Reach (handler E) ok c) {i : Nat} {form : TokenForm}
    {refresh : String} {v : Refresh} (hp : DevicePair c i form refresh v) :
    v.client_id = form.client_id ∧ v.scope = E.as_audience ∧
      ∃ rec, (⟨i, ⟨.get .device form.device_code, some rec⟩⟩ : AsEntry) ∈ c.log ∧
        rec.client_id = form.client_id := by
  obtain ⟨hr, hgrant, hissued⟩ := hp
  obtain ⟨form', past, tr, ttl, hr', hclient, hsource, ⟨jti, now, rfl⟩, hsuffix⟩ :=
    issued_source h hissued
  cases request_unique hr hr'
  cases hsource with
  | code hg => rw [hgrant] at hg; exact absurd hg (by decide)
  | refresh hg => rw [hgrant] at hg; exact absurd hg (by decide)
  | @device rec taken hg hc hstatus hsub hscope =>
    exact ⟨hclient, hscope, rec, mem_traceOf.mp (hsuffix.subset (by simp)), hc⟩

/-- A pair goes to the client that started its device code, for the user whose
    login was confirmed with the user code of that device code. -/
theorem device_pair_authentic (h : Reach (handler E) ok c) {i : Nat} {form : TokenForm}
    {refresh : String} {v : Refresh} (hp : DevicePair c i form refresh v) :
    v.client_id = form.client_id ∧ v.scope = E.as_audience ∧
    ∃ n rec m k state scopes, Started c n v.client_id form.device_code rec ∧
      Confirmed E c m state form.device_code scopes rec.user_code ∧
      Returned c k state form.device_code scopes v.sub := by
  obtain ⟨hclient, hscope, read, hread, hreader⟩ := device_pair_read h hp
  obtain ⟨n, rec, hstarted⟩ := started_of_read h hread
  rw [hreader, ← hclient] at hstarted
  -- the login
  obtain ⟨taken, hpop, hsub⟩ := device_pair_popped h hp
  obtain ⟨past, hs⟩ := exists_suffix_of_mem hpop
  obtain ⟨k, ttl, past', hput⟩ := popped_put h hs
  obtain ⟨state, scopes, -, -, hlogin, -⟩ :=
    login_of_put h (hput.trans ((List.suffix_cons _ _).trans hs)) hsub
  -- the confirmation
  obtain ⟨m, n', client_id, rec', hconfirmed, hstarted'⟩ := confirmed_of_pop h hlogin.2.1
  obtain ⟨-, -, rfl⟩ := started_unique h hstarted hstarted'
  exact ⟨hclient, hscope, n, rec, m, k, state, scopes, hstarted, hconfirmed, hlogin⟩

/-! ## Failed callbacks -/

/-- A thread that writes a device record has not failed. -/
theorem puts_not_fails (h : Reach (handler E) ok c) {k : Nat} {d : String} {v : Device}
    {ttl : Option Nat} {past : AsLog}
    (hs : (⟨k, ⟨.put .device d v ttl, ()⟩⟩ : AsEntry) :: past <:+ c.log) :
    ∀ e ∈ traceOf k past, ¬ Fails e := by
  obtain ⟨r, hr, hputs⟩ := performed h hs
  generalize htr : traceOf k past = tr at hputs
  cases hputs with
  | created => simp [Fails]
  | settled hlogged =>
    cases hlogged with
    | denied => simp [Fails]
    | @approved state token dexrt ttl' name groups scopes sub hemail =>
      -- the token was stored, so it has an email and a refresh token
      have hsuffix : (⟨.put .dexrt sub dexrt ttl', ()⟩ : AsEvent) ::
          [⟨.ext (.authorize_access_token state), some token⟩,
            ⟨.pop .pending state, some (.device d scopes)⟩] <:+ traceOf k past := by
        rw [htr]
        exact ⟨[_, _], rfl⟩
      obtain ⟨pd, hdex, htrace⟩ := exists_suffix_of_traceOf hsuffix
      obtain ⟨r', hr', hperf⟩ := performed h (hdex.trans ((List.suffix_cons _ _).trans hs))
      cases request_unique hr hr'
      rw [htrace] at hperf
      rcases hperf with ⟨_, _, _, -, heq, hu, hne, hrt, hrtne⟩ | ⟨form, _, _, _, hgrant, -⟩
      · cases heq
        simp [Fails, hu, hne, hrt, hrtne]
      · cases hgrant.1

/-- A thread that fails has not written a device record. -/
theorem Fails.not_put (h : Reach (handler E) ok c) {k : Nat} {ev : AsEvent} {past : AsLog}
    (hs : (⟨k, ev⟩ : AsEntry) :: past <:+ c.log) (hf : Fails ev) :
    ∀ e ∈ traceOf k past, ¬ IsPut .device e := by
  obtain ⟨r, hr, hperf⟩ := performed h hs
  unfold Fails at hf
  split at hf
  · obtain ⟨-, pending, htr⟩ := hperf
    rw [htr]
    simp [IsPut]
  · obtain ⟨state, d, ttl, tr₀, rfl, htr⟩ := hperf
    obtain ⟨pd, hdex, htrace⟩ := exists_suffix_of_traceOf ⟨[], htr.symm⟩
    obtain ⟨r', hr', hperf⟩ := performed h (hdex.trans ((List.suffix_cons _ _).trans hs))
    cases request_unique hr hr'
    rw [htrace] at hperf
    rcases hperf with ⟨_, _, _, -, rfl, -⟩ | ⟨form, _, _, _, hgrant, -⟩
    · rw [htr]
      simp [IsPut]
    · cases hgrant.1
  · exact hf.elim

/-- A thread that fails serves a callback. -/
theorem Fails.callback (h : Reach (handler E) ok c) {k : Nat} {ev : AsEvent}
    (hmem : (⟨k, ev⟩ : AsEntry) ∈ c.log) (hf : Fails ev) :
    ∃ state, c.request k = some (.as_callback state) := by
  obtain ⟨past, hs⟩ := exists_suffix_of_mem hmem
  obtain ⟨r, hr, hperf⟩ := performed h hs
  unfold Fails at hf
  split at hf
  · exact ⟨_, hperf.1 ▸ hr⟩
  · obtain ⟨state, d, ttl, tr₀, rfl, -⟩ := hperf
    exact ⟨state, hr⟩
  · exact hf.elim

/-- A thread that fails writes no device record at all. -/
theorem failed_not_put (h : Reach (handler E) ok c) {k : Nat} {ev : AsEvent} {d : String}
    {v : Device} {ttl : Option Nat} (hmem : (⟨k, ev⟩ : AsEntry) ∈ c.log) (hf : Fails ev) :
    (⟨k, ⟨.put .device d v ttl, ()⟩⟩ : AsEntry) ∉ c.log := by
  intro hput
  obtain ⟨past, hs⟩ := exists_suffix_of_mem hmem
  obtain ⟨past', hs'⟩ := exists_suffix_of_mem hput
  have hne : (⟨k, ev⟩ : AsEntry) ≠ ⟨k, ⟨.put .device d v ttl, ()⟩⟩ := by
    intro heq
    cases heq
    exact hf
  rcases suffix_total hs hs' hne with hle | hle
  · exact puts_not_fails h hs' _ (mem_traceOf.mpr (hle.subset List.mem_cons_self)) hf
  · exact Fails.not_put h hs hf _ (mem_traceOf.mpr (hle.subset List.mem_cons_self)) ⟨_, _, _, rfl⟩

/-- A callback that fails leaves every device record and every index as it is. -/
theorem failed_leaves (h : Reach (handler E) ok c) {k : Nat} {ev : AsEvent}
    (hmem : (⟨k, ev⟩ : AsEntry) ∈ c.log) (hf : Fails ev) : LeavesDevices c k := by
  obtain ⟨state, hr⟩ := hf.callback h hmem
  intro ev' past hs key
  obtain ⟨r, hr', hperf⟩ := performed h hs
  cases request_unique hr hr'
  have hdevice : ¬ Touches .device key (⟨k, ev'⟩ : AsEntry) := by
    rintro (⟨v, ttl, heq⟩ | ⟨a, heq⟩)
    · obtain rfl : ev' = _ := heq
      exact failed_not_put h hmem hf (hs.subset List.mem_cons_self)
    · obtain rfl : ev' = _ := heq
      -- only a token request pops a device record
      obtain ⟨form, rec, hgrant, -⟩ := hperf
      cases hgrant.1
  have hindex : ¬ Touches .device_user key (⟨k, ev'⟩ : AsEntry) := by
    rintro (⟨v, ttl, heq⟩ | ⟨a, heq⟩)
    · obtain rfl : ev' = _ := heq
      obtain ⟨client_id, rec, ttl', tr₀, hr, -⟩ := hperf
      cases hr
    · obtain rfl : ev' = _ := heq
      -- the index goes right after the record was settled
      obtain ⟨d, rec, ttl, tr₀, htr, -⟩ := hperf
      apply failed_not_put h hmem hf
      apply ((List.suffix_cons _ _).trans hs).subset
      rw [← mem_traceOf, htr]
      exact List.mem_cons_self
  refine ⟨hdevice, hindex, ?_, ?_⟩
  · exact contents_cons (fun v ttl heq => hdevice (.inl ⟨v, ttl, heq⟩))
      fun a heq => hdevice (.inr ⟨a, heq⟩)
  · exact contents_cons (fun v ttl heq => hindex (.inl ⟨v, ttl, heq⟩))
      fun a heq => hindex (.inr ⟨a, heq⟩)

/-! ## All runs -/

/-- The device grant is authentic in every run of the service. -/
theorem device_authentic (h : Reached E c) : DeviceAuthentic E c := by
  refine ⟨?_, ?_, ?_, ?_, ?_⟩
  · intro n n' client_id client_id' d rec rec' hst hst'
    exact started_unique h hst hst'
  · intro i form refresh v hp
    exact device_pair_authentic h hp
  · intro i form access refresh scope expires_in hr hgrant hres
    obtain ⟨v, hissued, hv⟩ := tokens_issued h hres
    exact ⟨v, ⟨hr, hgrant, hissued⟩, hv⟩
  · intro i d a hmem
    obtain ⟨past, hs⟩ := exists_suffix_of_mem hmem
    obtain ⟨r, hr, form, rec, hgrant, rfl, htr, hclient, -⟩ := performed h hs
    have hread : (⟨i, ⟨.get .device form.device_code, some rec⟩⟩ : AsEntry) ∈ c.log := by
      apply ((List.suffix_cons _ _).trans hs).subset
      rw [← mem_traceOf, htr]
      exact List.mem_cons_self
    obtain ⟨n, started, hstarted⟩ := started_of_read h hread
    exact ⟨form, n, started, hgrant.1 ▸ hr, rfl, hclient ▸ hstarted⟩
  · intro k ev hmem hf
    exact failed_leaves h hmem hf

/-- LiteLLM cannot be reached. -/
def unprovisioned : Choice Ext Ext.Reply := .reply fun
  | .ensure_team_and_user .. => some .transport_error
  | _ => none

/-- Two browsers confirm one code. LiteLLM cannot be reached in the first login;
    the second one approves the device, and its client redeems the code. -/
def failed_then_approved : List AsLabel :=
  device_logins.take 21 ++ .perform 4 unprovisioned :: device_logins.drop 22 ++
  [.perform 5 .auto, .perform 5 .auto, .perform 5 .auto,
    .spawn (.token device_form), .perform 6 .auto, .perform 6 .auto, .perform 6 .auto,
    .perform 6 (.draw (ident 'j' 22)), .perform 6 (.draw (ident 'r' 43)), .perform 6 .auto]

/-- Has a provisioning failed? -/
def is_unprovisioned (e : AsEntry) : Bool :=
  match e.ev with
  | ⟨.ext (.ensure_team_and_user ..), .transport_error⟩ => true
  | _ => false

/-- A run with a failed login and a pair. -/
theorem device_authentic_sample : ∃ c, Reached sample c ∧
    c.log.any is_unprovisioned = true ∧ got_pair c 6 device_form = true ∧
    DeviceAuthentic sample c := by
  obtain ⟨c, hreach, htest⟩ := exists_reached sample
    (fun c => c.log.any is_unprovisioned && got_pair c 6 device_form) failed_then_approved
    (by decide +kernel)
  rw [Bool.and_eq_true] at htest
  exact ⟨c, hreach, htest.1, htest.2, device_authentic hreach⟩

end AlitellmAuth
