import AlitellmAuth.OpenWork.Den

/-! # From a browser session to a desktop session

    Whatever the interleaving of browsers and desktops, a grant yields at most
    one session token, and the token speaks for the browser session that its
    grant was minted for, until it expires or is signed out. Grants, session
    tokens and MCP tokens do not stand in for one another.

    * `Performs`, `Answers`: what one handler does, in terms of its own past.
    * `Agreement`: the property of a configuration, and of the steps from it.
    * `handoff_agrees`: every reachable configuration has it.
-/

namespace AlitellmAuth.OpenWork

open Interleave

/-! ## One handler -/

/-- The session token a request presents, if its handler asks for one. -/
def Request.presents : Request → Option String
  | .guarded _ authorization => some (bearer authorization)
  | .den_mcp_token authorization => some (bearer authorization)
  | _ => none

/-- What each operation on the store has behind it. -/
def Performs (s : DenSettings) (r : Request) (tr : DenTrace) : DenEvent → Prop
  | ⟨.put .grant key (v : Identity) ttl, _⟩ =>
      ∃ session email, r = .handoff_page session ∧ session.email = some email ∧
        v.email = email ∧ ttl = some s.openwork_grant_ttl_seconds ∧
        tr = [⟨.draw (.urlsafe 24), key⟩]
  | ⟨.pop .grant key, _⟩ =>
      ∃ body, r = .desktop_handoff_exchange body ∧ grant_of body = some key ∧ tr = []
  | ⟨.put .token key (v : Identity) ttl, _⟩ =>
      ∃ body grant, ∃ claimed : Identity, r = .desktop_handoff_exchange body ∧
        grant_of body = some grant ∧ v.email = claimed.email ∧
        ttl = some s.openwork_token_ttl_seconds ∧
        tr = [⟨.draw (.urlsafe 32), key⟩, ⟨.pop .grant grant, some claimed⟩]
  | ⟨.get .token key, _⟩ => r.presents = some key ∧ key ≠ "" ∧ tr = []
  | ⟨.pop .token key, _⟩ =>
      ∃ authorization, r = .den_sign_out authorization ∧ bearer authorization = key ∧ tr = []
  | ⟨.put .mcp_token key _ ttl, _⟩ =>
      ∃ authorization now tr₀, r = .den_mcp_token authorization ∧
        ttl = some MCP_TOKEN_TTL_SECONDS ∧ tr = ⟨.time, now⟩ :: ⟨.draw (.urlsafe 32), key⟩ :: tr₀
  | ⟨.get .mcp_token key, _⟩ =>
      ∃ authorization, r = .den_mcp_agent authorization ∧ bearer authorization = key ∧ tr = []
  | ⟨.pop .mcp_token _, _⟩ => False
  | ⟨.get .grant _, _⟩ => False
  | _ => True

/-- What stands behind a response: a session token is the one just stored, a
    guarded route answers the session of its token, and a sign-out has popped
    its token. -/
def Answers (s : DenSettings) (r : Request) (tr : DenTrace) (res : Response) : Prop :=
  (∀ token user org, res = .session token user org →
    ∃ v ttl tr₀, tr = ⟨.put .token token v ttl, ()⟩ :: tr₀) ∧
  (∀ route authorization, r = .guarded route authorization →
    (∃ message, res = .den_error 401 "unauthorized" message) ∨
    ∃ row : Identity, tr = [⟨.get .token (bearer authorization), some row⟩] ∧
      res = route.answer s row) ∧
  ∀ authorization, r = .den_sign_out authorization → bearer authorization ≠ "" →
    ∃ a, tr = [⟨.pop .token (bearer authorization), a⟩]

section
variable {s : DenSettings}

theorem handoff_page_along (session : BrowserSession) :
    (handoff_page s session).Along (Performs s (.handoff_page session))
      (Answers s (.handoff_page session)) [] := by
  have hplain (res : Response) (tr : DenTrace) (hres : ∀ token user org, res ≠ .session token user org) :
      Answers s (.handoff_page session) tr res :=
    ⟨fun _ _ _ h => absurd h (hres _ _ _), nofun, nofun⟩
  unfold handoff_page
  split
  · exact hplain _ _ nofun
  · next email hemail =>
    apply along_ite
    · intro _
      exact hplain _ _ nofun
    · intro _
      refine along_await fun grant => ⟨trivial, ?_⟩
      refine along_await fun _ => ⟨⟨session, email, rfl, hemail, rfl, rfl, rfl⟩, ?_⟩
      exact hplain _ _ nofun

theorem desktop_handoff_exchange_along (body : Option Json) :
    (desktop_handoff_exchange s body).Along (Performs s (.desktop_handoff_exchange body))
      (Answers s (.desktop_handoff_exchange body)) [] := by
  have hplain (res : Response) (tr : DenTrace) (hres : ∀ token user org, res ≠ .session token user org) :
      Answers s (.desktop_handoff_exchange body) tr res :=
    ⟨fun _ _ _ h => absurd h (hres _ _ _), nofun, nofun⟩
  unfold desktop_handoff_exchange
  split
  · exact hplain _ _ nofun
  · next grant hgrant =>
    apply along_ite
    · intro _
      exact hplain _ _ nofun
    · intro _
      refine along_await fun claimed => ⟨⟨body, rfl, hgrant, rfl⟩, ?_⟩
      cases claimed with
      | none => exact hplain _ _ nofun
      | some claimed =>
        refine along_await fun token => ⟨trivial, ?_⟩
        refine along_await fun _ => ⟨⟨body, grant, claimed, rfl, hgrant, rfl, rfl, rfl⟩, ?_⟩
        refine ⟨?_, nofun, nofun⟩
        intro token' user org heq
        cases heq
        exact ⟨_, _, _, rfl⟩

/-- The token check reads the presented token, or nothing if there is none. -/
theorem require_den_token_along {r : Request} (authorization : Option String)
    (hr : r.presents = some (bearer authorization)) :
    (require_den_token authorization).Along (Performs s r)
      (fun tr found =>
        match found with
        | .error res => ∃ message, res = .den_error 401 "unauthorized" message
        | .ok row => tr = [⟨.get .token (bearer authorization), some row⟩]) [] := by
  unfold require_den_token
  dsimp only
  apply along_ite
  · intro _
    exact ⟨_, rfl⟩
  · intro hne
    refine along_await fun row => ⟨⟨hr, hne, rfl⟩, ?_⟩
    cases row with
    | none => exact ⟨_, rfl⟩
    | some row => exact rfl

theorem guarded_along (route : Route) (authorization : Option String) :
    (guarded s route authorization).Along (Performs s (.guarded route authorization))
      (Answers s (.guarded route authorization)) [] := by
  have hnot (res : Response) (row : Identity) (h : res = route.answer s row) :
      ∀ token user org, res ≠ .session token user org := by
    subst h
    intro token user org heq
    cases route <;> try cases heq
    simp only [Route.answer] at heq
    split at heq <;> cases heq
  refine along_bind (require_den_token_along authorization rfl) ?_
  intro tr found hfound
  cases found with
  | error res =>
    obtain ⟨message, rfl⟩ := hfound
    refine ⟨nofun, ?_, nofun⟩
    intro route' authorization' heq
    cases heq
    exact .inl ⟨message, rfl⟩
  | ok row =>
    refine ⟨fun token user org heq => absurd heq (hnot _ row rfl token user org), ?_, nofun⟩
    intro route' authorization' heq
    cases heq
    exact .inr ⟨row, hfound, rfl⟩

theorem den_mcp_token_along (authorization : Option String) :
    (den_mcp_token s authorization).Along (Performs s (.den_mcp_token authorization))
      (Answers s (.den_mcp_token authorization)) [] := by
  refine along_bind (require_den_token_along authorization rfl) ?_
  intro tr found hfound
  cases found with
  | error res =>
    obtain ⟨message, rfl⟩ := hfound
    exact ⟨nofun, nofun, nofun⟩
  | ok row =>
    refine along_await fun token => ⟨trivial, ?_⟩
    refine along_await fun time => ⟨trivial, ?_⟩
    refine along_await fun _ => ⟨⟨authorization, time, tr, rfl, rfl, rfl⟩, ?_⟩
    exact ⟨nofun, nofun, nofun⟩

theorem den_mcp_agent_along (authorization : Option String) :
    (den_mcp_agent authorization).Along (Performs s (.den_mcp_agent authorization))
      (Answers s (.den_mcp_agent authorization)) [] := by
  unfold den_mcp_agent
  dsimp only
  apply along_ite
  · intro _
    exact ⟨nofun, nofun, nofun⟩
  · intro _
    refine along_await fun row => ⟨⟨authorization, rfl, rfl, rfl⟩, ?_⟩
    cases row <;> exact ⟨nofun, nofun, nofun⟩

theorem den_sign_out_along (authorization : Option String) :
    (den_sign_out authorization).Along (Performs s (.den_sign_out authorization))
      (Answers s (.den_sign_out authorization)) [] := by
  unfold den_sign_out
  dsimp only
  apply along_ite
  · intro hempty
    refine ⟨nofun, nofun, ?_⟩
    intro authorization' heq hne
    cases heq
    exact absurd hempty hne
  · intro _
    refine along_await fun a => ⟨⟨authorization, rfl, rfl, rfl⟩, ?_⟩
    refine ⟨nofun, nofun, ?_⟩
    intro authorization' heq _
    cases heq
    exact ⟨a, rfl⟩

/-- Every handler meets its contract. -/
theorem handler_along (r : Request) :
    (handler s r).Along (Performs s r) (Answers s r) [] := by
  cases r with
  | handoff_page session => exact handoff_page_along session
  | desktop_handoff_exchange body => exact desktop_handoff_exchange_along body
  | guarded route authorization => exact guarded_along route authorization
  | den_mcp_token authorization => exact den_mcp_token_along authorization
  | den_mcp_agent authorization => exact den_mcp_agent_along authorization
  | den_sign_out authorization => exact den_sign_out_along authorization

end

/-! ## The agreement -/

abbrev DenEntry := Entry Kind Kind.Rec Reply

/-- Thread `p` has stored the grant `g` for a browser session. -/
def Granted (c : DenConfig) (p : Nat) (g : String) (session : BrowserSession) : Prop :=
  c.request p = some (.handoff_page session) ∧
    ∃ v ttl, (⟨p, ⟨.put .grant g v ttl, ()⟩⟩ : DenEntry) ∈ c.log

/-- Thread `x` has traded the grant `g` for the session token `t`. -/
def Traded (c : DenConfig) (x : Nat) (g t : String) : Prop :=
  (∃ body, c.request x = some (.desktop_handoff_exchange body) ∧ grant_of body = some g) ∧
    ∃ v ttl, (⟨x, ⟨.put .token t v ttl, ()⟩⟩ : DenEntry) ∈ c.log

/-- A step in which the session token `t` authenticates thread `i`. -/
def Authenticates (s : DenSettings) (c c' : DenConfig) (i : Nat) (t : String) (row : Identity) :
    Prop :=
  (∃ l, c.step (handler s) l = some c') ∧ c'.log = ⟨i, ⟨.get .token t, some row⟩⟩ :: c.log

/-- A value is taken for one of the kind, and found to stand for `v`. -/
def Accepts (k : Kind) (key : String) (v : k.Rec) (ev : DenEvent) : Prop :=
  ev = ⟨.get k key, some v⟩ ∨ ev = ⟨.pop k key, some v⟩

/-- How long a value is good for. -/
def lifetime (s : DenSettings) : Kind → Nat
  | .grant => s.openwork_grant_ttl_seconds
  | .token => s.openwork_token_ttl_seconds
  | .mcp_token => MCP_TOKEN_TTL_SECONDS

/-- A value was issued as one of the kind. -/
def IssuedAs (k : Kind) (key : String) (log : List DenEntry) : Prop :=
  ∃ i v ttl, (⟨i, ⟨.put k key v ttl, ()⟩⟩ : DenEntry) ∈ log

/-- Thread `o` has completed a sign-out with the session token `t`, which had
    been issued before it was complete. -/
def SignedOut (s : DenSettings) (c : DenConfig) (o : Nat) (t : String) : Prop :=
  (∃ authorization, c.request o = some (.den_sign_out authorization) ∧ bearer authorization = t) ∧
    c.response o = some .signed_out ∧
    ∃ c₀, Reached s c₀ ∧ Leads (handler s) (fun _ _ => True) c₀ c ∧ c₀.response o = none ∧
      IssuedAs .token t c₀.log

/-- What holds of the grants and the tokens of a configuration, and of every
    step from it. -/
structure Agreement (s : DenSettings) (c : DenConfig) : Prop where
  /-- A grant yields at most one session token. -/
  one_token : ∀ x x' g t t', Traded c x g t → Traded c x' g t' → x = x' ∧ t = t'
  /-- A session token comes from one grant, and a grant from one browser session. -/
  one_grant : ∀ x x' g g' t, Traded c x g t → Traded c x' g' t → x = x' ∧ g = g'
  one_session : ∀ p p' g session session', Granted c p g session → Granted c p' g session' →
    p = p' ∧ session = session'
  /-- The token that a desktop receives is the traded one. -/
  handed_out : ∀ x token user org, c.response x = some (.session token user org) →
    ∃ g, Traded c x g token
  /-- A guarded route answers 401, or the session that its token authenticated. -/
  answered : ∀ i route authorization res, c.request i = some (.guarded route authorization) →
    c.response i = some res → (∃ message, res = .den_error 401 "unauthorized" message) ∨
      ∃ row : Identity, (⟨i, ⟨.get .token (bearer authorization), some row⟩⟩ : DenEntry) ∈ c.log ∧
        res = route.answer s row
  /-- A session token authenticates the email of the browser session that its
      grant was minted for. -/
  authentic : ∀ c' i t row, Authenticates s c c' i t row →
    ∃ x g p session, Traded c x g t ∧ Granted c p g session ∧ session.email = some row.email
  /-- A value of any kind is accepted only until it expires, counted from the
      step that stored it. -/
  unexpired : ∀ l c' i ev k key v, c.step (handler s) l = some c' → c'.log = ⟨i, ev⟩ :: c.log →
    Accepts k key v ev →
    ∃ c₀ c₁ l x ttl, Reached s c₀ ∧ c₀.step (handler s) l = some c₁ ∧
      c₁.log = ⟨x, ⟨.put k key v ttl, ()⟩⟩ :: c₀.log ∧
      Leads (handler s) (fun _ _ => True) c₁ c ∧ c.world.now < c₀.world.now + lifetime s k
  /-- A session token authenticates nobody once a sign-out with it has completed. -/
  signed_out : ∀ o t, SignedOut s c o t → ∀ d d' i row,
    Leads (handler s) (fun _ _ => True) c d → ¬ Authenticates s d d' i t row
  /-- A value is only taken for what it was issued as. -/
  apart : ∀ k k' key v, ∀ e ∈ c.log, Accepts k key v e.ev → IssuedAs k' key c.log → k = k'

/-! ## Reading the log -/

section
variable {s : DenSettings} {c c' : DenConfig}

theorem performed (h : Reached s c) {e : DenEntry} {past : List DenEntry} (hs : e :: past <:+ c.log) :
    ∃ r, c.request e.tid = some r ∧ Performs s r (traceOf e.tid past) e.ev :=
  (reach_contracted handler_along h).1.at hs

theorem responded (h : Reached s c) {i : Nat} {res : Response} (hres : c.response i = some res) :
    ∃ r, c.request i = some r ∧ Answers s r (traceOf i c.log) res := by
  unfold Config.response at hres
  split at hres
  · next r a hth =>
    cases hres
    refine ⟨r, ?_, (reach_contracted handler_along h).2 i _ hth⟩
    rw [Config.request, hth]
    rfl
  · cases hres

/-- Grants and session tokens are stored under a value just drawn. -/
theorem fresh_keyed (h : Reached s c) {k : Kind} (hk : k = .grant ∨ k = .token) :
    FreshKeyed k c.log := by
  refine (reach_contracted handler_along h).1.mono ?_
  rintro past ⟨i, ev⟩ ⟨r, -, hperf⟩ key v ttl hev
  obtain rfl : ev = _ := hev
  rcases hk with rfl | rfl
  · obtain ⟨session, email, -, -, -, -, htr⟩ := hperf
    exact ⟨_, _, htr⟩
  · obtain ⟨body, grant, claimed, -, -, -, -, htr⟩ := hperf
    exact ⟨_, _, htr⟩

/-- A stored session token has an exchange and the popped grant behind it. -/
theorem token_issued (h : Reached s c) {x : Nat} {t : String} {v : Identity} {ttl : Option Nat}
    (hput : (⟨x, ⟨.put .token t v ttl, ()⟩⟩ : DenEntry) ∈ c.log) :
    ∃ body g, ∃ claimed : Identity, c.request x = some (.desktop_handoff_exchange body) ∧
      grant_of body = some g ∧ v.email = claimed.email ∧
      (⟨x, ⟨.pop .grant g, some claimed⟩⟩ : DenEntry) ∈ c.log := by
  obtain ⟨past, hs⟩ := exists_suffix_of_mem hput
  obtain ⟨r, hr, body, g, claimed, rfl, hg, hemail, -, htr⟩ := performed h hs
  refine ⟨body, g, claimed, hr, hg, hemail, ?_⟩
  have hpop : (⟨.pop .grant g, some claimed⟩ : DenEvent) ∈ traceOf x past := by
    rw [htr]
    exact .tail _ (.head _)
  exact hs.subset (.tail _ (mem_traceOf.mp hpop))

/-- So a trade has popped its grant. -/
theorem Traded.popped (h : Reached s c) {x : Nat} {g t : String} (ht : Traded c x g t) :
    ∃ claimed : Identity, (⟨x, ⟨.pop .grant g, some claimed⟩⟩ : DenEntry) ∈ c.log := by
  obtain ⟨⟨body, hr, hg⟩, v, ttl, hput⟩ := ht
  obtain ⟨body', g', claimed, hr', hg', -, hpop⟩ := token_issued h hput
  obtain rfl : body = body' := by
    rw [hr] at hr'
    cases hr'
    rfl
  obtain rfl : g = g' := Option.some.inj (hg.symm.trans hg')
  exact ⟨claimed, hpop⟩

/-- An exchange stores one session token. -/
theorem token_once (h : Reached s c) {x : Nat} {t t' : String} {v v' : Identity}
    {ttl ttl' : Option Nat} (hput : (⟨x, ⟨.put .token t v ttl, ()⟩⟩ : DenEntry) ∈ c.log)
    (hput' : (⟨x, ⟨.put .token t' v' ttl', ()⟩⟩ : DenEntry) ∈ c.log) : t = t' := by
  by_contra hne
  obtain ⟨past, hs⟩ := exists_suffix_of_mem hput
  obtain ⟨past', hs'⟩ := exists_suffix_of_mem hput'
  obtain ⟨_, -, _, _, _, -, -, -, -, htr⟩ := performed h hs
  obtain ⟨_, -, _, _, _, -, -, -, -, htr'⟩ := performed h hs'
  -- The later of the two would have more than a draw and a pop behind it.
  have hlen {a : DenEvent} {p p' : List DenEntry} (hle : (⟨x, a⟩ : DenEntry) :: p <:+ p')
      {tr tr' : DenTrace} (htr : traceOf x p = tr) (htr' : traceOf x p' = tr') :
      tr.length < tr'.length := by
    have hsuffix := traceOf_suffix (i := x) hle
    rw [traceOf_self, htr, htr'] at hsuffix
    exact hsuffix.length_le
  have hentry : (⟨x, ⟨.put .token t v ttl, ()⟩⟩ : DenEntry) ≠ ⟨x, ⟨.put .token t' v' ttl', ()⟩⟩ := by
    intro heq
    cases heq
    exact hne rfl
  rcases suffix_total hs hs' hentry with hle | hle
  · exact absurd (hlen hle htr htr') (by simp)
  · exact absurd (hlen hle htr' htr) (by simp)

/-- A taken value was stored as one of the kind. -/
theorem accepted_issued (h : Reached s c) {e : DenEntry} (he : e ∈ c.log) {k : Kind}
    {key : String} {v : k.Rec} (hev : Accepts k key v e.ev) :
    ∃ i ttl, (⟨i, ⟨.put k key v ttl, ()⟩⟩ : DenEntry) ∈ c.log := by
  obtain ⟨past, hs⟩ := exists_suffix_of_mem he
  have hcontents : contents past k key = some v := by
    have hat := (reach_ledger h).at hs
    obtain ⟨j, ev⟩ := e
    rcases hev with rfl | rfl
    · exact hat v rfl
    · exact hat v rfl
  obtain ⟨i, ttl, past', hput⟩ := put_of_contents hcontents
  have hpast : past <:+ c.log := (List.suffix_cons _ _).trans hs
  exact ⟨i, ttl, hpast.subset (hput.subset List.mem_cons_self)⟩

/-- What a request issues. -/
def Request.issues : Request → Option Kind
  | .handoff_page _ => some .grant
  | .desktop_handoff_exchange _ => some .token
  | .den_mcp_token _ => some .mcp_token
  | _ => none

/-- Whoever stores a value has drawn it, and does so as its request says. -/
theorem issued_drawn (h : Reached s c) {i : Nat} {k : Kind} {key : String} {v : k.Rec}
    {ttl : Option Nat} (hput : (⟨i, ⟨.put k key v ttl, ()⟩⟩ : DenEntry) ∈ c.log) :
    (∃ r, c.request i = some r ∧ r.issues = some k) ∧
      ∃ d, (⟨i, ⟨.draw d, key⟩⟩ : DenEntry) ∈ c.log := by
  obtain ⟨past, hs⟩ := exists_suffix_of_mem hput
  obtain ⟨r, hr, hperf⟩ := performed h hs
  have hdraw {d : Draw} {tr : DenTrace} (htr : traceOf i past = tr)
      (hmem : (⟨.draw d, key⟩ : DenEvent) ∈ tr) :
      ∃ d, (⟨i, ⟨.draw d, key⟩⟩ : DenEntry) ∈ c.log := by
    rw [← htr, mem_traceOf] at hmem
    exact ⟨d, hs.subset (.tail _ hmem)⟩
  cases k with
  | grant =>
    obtain ⟨session, email, rfl, -, -, -, htr⟩ := hperf
    exact ⟨⟨_, hr, rfl⟩, hdraw htr (.head _)⟩
  | token =>
    obtain ⟨body, grant, claimed, rfl, -, -, -, htr⟩ := hperf
    exact ⟨⟨_, hr, rfl⟩, hdraw htr (.head _)⟩
  | mcp_token =>
    obtain ⟨authorization, now, tr₀, rfl, -, htr⟩ := hperf
    exact ⟨⟨_, hr, rfl⟩, hdraw htr (.tail _ (.head _))⟩

/-- A value is issued as one kind only. -/
theorem issued_apart (h : Reached s c) {k k' : Kind} {key : String} (hk : IssuedAs k key c.log)
    (hk' : IssuedAs k' key c.log) : k = k' := by
  obtain ⟨i, v, ttl, hput⟩ := hk
  obtain ⟨j, v', ttl', hput'⟩ := hk'
  obtain ⟨⟨r, hr, hissues⟩, d, hdraw⟩ := issued_drawn h hput
  obtain ⟨⟨r', hr', hissues'⟩, d', hdraw'⟩ := issued_drawn h hput'
  obtain rfl := drawn_by_one (reach_ledger h) hdraw hdraw'
  obtain rfl : r = r' := Option.some.inj (hr.symm.trans hr')
  exact Option.some.inj (hissues.symm.trans hissues')

/-- A value is stored for its lifetime. -/
theorem issued_ttl (h : Reached s c) {i : Nat} {k : Kind} {key : String} {v : k.Rec}
    {ttl : Option Nat} (hput : (⟨i, ⟨.put k key v ttl, ()⟩⟩ : DenEntry) ∈ c.log) :
    ttl = some (lifetime s k) := by
  obtain ⟨past, hs⟩ := exists_suffix_of_mem hput
  obtain ⟨r, -, hperf⟩ := performed h hs
  cases k with
  | grant =>
    obtain ⟨session, email, -, -, -, httl, -⟩ := hperf
    exact httl
  | token =>
    obtain ⟨body, grant, claimed, -, -, -, httl, -⟩ := hperf
    exact httl
  | mcp_token =>
    obtain ⟨authorization, now, tr₀, -, httl, -⟩ := hperf
    exact httl

/-! ## Accepting -/

/-- A step that accepts a value reads a live record of the store. -/
theorem accepts_read {l : DenLabel} {i : Nat} {ev : DenEvent} {k : Kind} {key : String} {v : k.Rec}
    (hstep : c.step (handler s) l = some c') (hlog : c'.log = ⟨i, ev⟩ :: c.log)
    (hev : Accepts k key v ev) : c.world.lookup k key = some v := by
  obtain ⟨r, rfl⟩ | ⟨d, rfl⟩ | ⟨j, ch, r, op, kk, a, w, -, hp, rfl⟩ := step_cases hstep
  · exact absurd (congrArg List.length hlog) (by simp)
  · exact absurd (congrArg List.length hlog) (by simp)
  · cases (List.cons.inj hlog).1
    rcases hev with hev | hev
    · cases hev
      exact congrArg Prod.fst (Option.some.inj hp)
    · cases hev
      exact congrArg Prod.fst (Option.some.inj hp)

theorem Authenticates.contents (hc : Reached s c) {i : Nat} {t : String} {row : Identity}
    (h : Authenticates s c c' i t row) : Interleave.contents c.log .token t = some row := by
  obtain ⟨⟨l, hstep⟩, hlog⟩ := h
  exact (reach_agrees hc).lookup (accepts_read hstep hlog (.inl rfl))

/-- The session token comes from a grant, and the grant from a browser session
    of the same email. -/
theorem authenticates_origin (hc : Reached s c) {i : Nat} {t : String} {row : Identity}
    (h : Authenticates s c c' i t row) :
    ∃ x g p session, Traded c x g t ∧ Granted c p g session ∧ session.email = some row.email := by
  obtain ⟨x, ttl, past, hput⟩ := put_of_contents (h.contents hc)
  have hmem := hput.subset List.mem_cons_self
  obtain ⟨body, g, claimed, hr, hg, hemail, hpop⟩ := token_issued hc hmem
  obtain ⟨p, ttl', hgrant⟩ := accepted_issued hc hpop (.inr rfl)
  obtain ⟨past', hs⟩ := exists_suffix_of_mem hgrant
  obtain ⟨r, hr', session, email, rfl, hsession, hclaimed, -, -⟩ := performed hc hs
  refine ⟨x, g, p, session, ⟨⟨body, hr, hg⟩, _, _, hmem⟩, ⟨hr', _, _, hgrant⟩, ?_⟩
  rw [hsession, hemail, hclaimed]

/-- A live record was stored less than its lifetime ago. -/
theorem stored_unexpired (hc : Reached s c) {k : Kind} {key : String} {v : k.Rec}
    (hread : c.world.lookup k key = some v) :
    ∃ c₀ c₁ l x ttl, Reached s c₀ ∧ c₀.step (handler s) l = some c₁ ∧
      c₁.log = ⟨x, ⟨.put k key v ttl, ()⟩⟩ :: c₀.log ∧
      Leads (handler s) (fun _ _ => True) c₁ c ∧ c.world.now < c₀.world.now + lifetime s k := by
  unfold World.lookup at hread
  split at hread
  · next v' expiry hstore =>
    split at hread
    · next hlive =>
      cases hread
      obtain ⟨c₀, c₁, l, x, ttl, hr₀, hstep, hlog, rfl, hleads⟩ := reach_written hc hstore
      have hr₁ : Reached s c₁ := .step hr₀ hstep trivial
      have hput : (⟨x, ⟨.put k key v ttl, ()⟩⟩ : DenEntry) ∈ c₁.log := by
        rw [hlog]
        exact .head _
      obtain rfl := issued_ttl hr₁ hput
      exact ⟨c₀, c₁, l, x, _, hr₀, hstep, hlog, hleads, of_decide_eq_true hlive⟩
    · cases hread
  · cases hread

/-- Nobody authenticates with an empty token. -/
theorem Authenticates.presented (hc : Reached s c) {i : Nat} {t : String} {row : Identity}
    (h : Authenticates s c c' i t row) : t ≠ "" := by
  obtain ⟨⟨l, hstep⟩, hlog⟩ := h
  have hreach : Reached s c' := .step hc hstep trivial
  have hs : (⟨i, ⟨.get .token t, some row⟩⟩ : DenEntry) :: c.log <:+ c'.log := by
    simp only [hlog, List.suffix_rfl]
  obtain ⟨r, -, -, hne, -⟩ := performed hreach hs
  exact hne

/-! ## Signing out -/

/-- A sign-out performs one operation at most. -/
theorem den_sign_out_once (authorization : Option String) :
    (den_sign_out authorization).Along (fun tr _ => tr = []) (fun _ _ => True) [] := by
  unfold den_sign_out
  dsimp only
  apply along_ite
  · intro _
    exact trivial
  · intro _
    exact along_await fun _ => ⟨rfl, trivial⟩

/-- Every operation can be answered: there are no remote parties to wait for. -/
theorem exists_answer (op : Op Kind Kind.Rec Empty) : Nonempty (op.Ans Reply) := by
  cases op with
  | get k key => exact ⟨(none : Option k.Rec)⟩
  | put k key v ttl => exact ⟨()⟩
  | pop k key => exact ⟨(none : Option k.Rec)⟩
  | acquire name ttl => exact ⟨true⟩
  | release name => exact ⟨()⟩
  | draw d => exact ⟨""⟩
  | time => exact ⟨(0 : Nat)⟩
  | ext e => exact e.elim

/-- As long as it has not answered, a sign-out has done nothing. -/
theorem sign_out_waiting (h : Reached s c) {o : Nat} {authorization : Option String}
    (hr : c.request o = some (.den_sign_out authorization)) (hres : c.response o = none) :
    traceOf o c.log = [] := by
  have hcontract (r : Request) : (handler s r).Along
      (fun tr _ => (∃ authorization, r = .den_sign_out authorization) → tr = [])
      (fun _ _ => True) [] := by
    cases r with
    | den_sign_out authorization =>
      exact along_mono (fun _ _ hnil _ => hnil) (fun _ _ h => h) (den_sign_out_once authorization)
    | _ => exact along_of_forall (fun _ _ hother => nomatch hother) _ _
  obtain ⟨⟨r, prog⟩, hth, rfl⟩ := Option.map_eq_some_iff.mp hr
  cases prog with
  | ret res =>
    rw [Config.response, hth] at hres
    cases hres
  | call op k =>
    -- the operation it waits for would be the second one
    obtain ⟨a⟩ := exists_answer op
    exact ((reach_contracted hcontract h).2 o _ hth a).1 ⟨authorization, rfl⟩

/-- A completed sign-out has taken its token out of the store, and the token had
    been issued by then. -/
theorem SignedOut.popped (h : Reached s c) {o : Nat} {t : String} (hne : t ≠ "")
    (hout : SignedOut s c o t) : ∃ a past, (⟨o, ⟨.pop .token t, a⟩⟩ : DenEntry) :: past <:+ c.log ∧
      ∃ x v ttl, (⟨x, ⟨.put .token t v ttl, ()⟩⟩ : DenEntry) ∈ past := by
  obtain ⟨⟨authorization, hr, rfl⟩, hres, c₀, hc₀, hleads, hwaiting, x, v, ttl, hput⟩ := hout
  obtain ⟨r, hr', -, -, hanswer⟩ := responded h hres
  obtain rfl : .den_sign_out authorization = r := Option.some.inj (hr.symm.trans hr')
  obtain ⟨a, htr⟩ := hanswer authorization rfl hne
  have hpop : (⟨o, ⟨.pop .token (bearer authorization), a⟩⟩ : DenEntry) ∈ c.log := by
    rw [← mem_traceOf, htr]
    exact .head _
  obtain ⟨past, hs⟩ := exists_suffix_of_mem hpop
  -- the thread had done nothing when the token was already there
  have hbefore : traceOf o c₀.log = [] := by
    cases hreq : c₀.request o with
    | none =>
      refine traceOf_eq_nil fun e he heq => ?_
      have hlt := reach_tid_lt hc₀ e he
      rw [heq] at hlt
      simp [Config.request, List.getElem?_eq_getElem hlt] at hreq
    | some r =>
      obtain rfl : r = .den_sign_out authorization :=
        Option.some.inj ((hleads.request hreq).symm.trans hr)
      exact sign_out_waiting hc₀ hreq hwaiting
  refine ⟨a, past, hs, x, v, ttl, ?_⟩
  rcases List.suffix_or_suffix_of_suffix hs hleads.log_suffix with hle | hle
  · have hmem : (⟨.pop .token (bearer authorization), a⟩ : DenEvent) ∈ traceOf o c₀.log :=
      mem_traceOf.mpr (hle.subset List.mem_cons_self)
    rw [hbefore] at hmem
    cases hmem
  · rcases List.suffix_cons_iff.mp hle with heq | hle
    · have hmem : (⟨.pop .token (bearer authorization), a⟩ : DenEvent) ∈ traceOf o c₀.log :=
        mem_traceOf.mpr (heq ▸ List.mem_cons_self)
      rw [hbefore] at hmem
      cases hmem
    · exact hle.subset hput

/-! ## The result -/

/-- The grants and the tokens agree in every reachable configuration. -/
theorem handoff_agrees (h : Reached s c) : Agreement s c where
  one_token := by
    intro x x' g t t' ht ht'
    -- a grant is popped once, and the exchange that has popped it issues once
    obtain ⟨claimed, hpop⟩ := ht.popped h
    obtain ⟨claimed', hpop'⟩ := ht'.popped h
    obtain ⟨rfl, -⟩ := popped_once (reach_ledger h) (fresh_keyed h (.inl rfl)) hpop hpop'
    obtain ⟨-, v, ttl, hput⟩ := ht
    obtain ⟨-, v', ttl', hput'⟩ := ht'
    exact ⟨rfl, token_once h hput hput'⟩
  one_grant := by
    rintro x x' g g' t ⟨⟨body, hr, hg⟩, v, ttl, hput⟩ ⟨⟨body', hr', hg'⟩, v', ttl', hput'⟩
    obtain ⟨rfl, -⟩ := put_unique (reach_ledger h) (fresh_keyed h (.inr rfl)) hput hput'
    rw [hr] at hr'
    cases hr'
    exact ⟨rfl, Option.some.inj (hg.symm.trans hg')⟩
  one_session := by
    rintro p p' g session session' ⟨hr, v, ttl, hput⟩ ⟨hr', v', ttl', hput'⟩
    obtain ⟨rfl, -⟩ := put_unique (reach_ledger h) (fresh_keyed h (.inl rfl)) hput hput'
    rw [hr] at hr'
    cases hr'
    exact ⟨rfl, rfl⟩
  handed_out := by
    intro x token user org hres
    obtain ⟨r, -, hanswer, -⟩ := responded h hres
    obtain ⟨v, ttl, tr₀, htr⟩ := hanswer token user org rfl
    have hput : (⟨x, ⟨.put .token token v ttl, ()⟩⟩ : DenEntry) ∈ c.log := by
      rw [← mem_traceOf, htr]
      exact .head _
    obtain ⟨body, g, claimed, hr, hg, -, -⟩ := token_issued h hput
    exact ⟨g, ⟨body, hr, hg⟩, v, ttl, hput⟩
  answered := by
    intro i route authorization res hr hres
    obtain ⟨r, hr', -, hanswer, -⟩ := responded h hres
    rw [hr] at hr'
    cases hr'
    rcases hanswer route authorization rfl with hrefused | ⟨row, htr, hrow⟩
    · exact .inl hrefused
    · refine .inr ⟨row, ?_, hrow⟩
      rw [← mem_traceOf, htr]
      exact .head _
  authentic := fun c' i t row hauth => authenticates_origin h hauth
  unexpired := by
    intro l c' i ev k key v hstep hlog hev
    exact stored_unexpired h (accepts_read hstep hlog hev)
  signed_out := by
    intro o t hout d d' i row hleads hauth
    have hd : Reached s d := hleads.reach h
    -- the sign-out has popped the record of the token, which is never put again
    obtain ⟨a, past, hpop, x, v, ttl, hput⟩ := hout.popped h (hauth.presented hd)
    have hgone := gone_after_pop (reach_ledger hd) (fresh_keyed hd (.inr rfl))
      (hpop.trans hleads.log_suffix) hput
    rw [hauth.contents hd] at hgone
    cases hgone
  apart := by
    intro k k' key v e he hev hissued
    obtain ⟨i, ttl, hput⟩ := accepted_issued h he hev
    exact issued_apart h ⟨i, v, ttl, hput⟩ hissued

end

/-! A browser session, a desktop that trades its grant, looks itself up and
    signs out. -/

def sampleDen : DenSettings where
  app_base_url := "https://auth.example/"
  openwork_org_name := "Example"
  openwork_org_slug := "example"
  openwork_grant_ttl_seconds := 300
  openwork_token_ttl_seconds := 2592000
  sha256 := fun _ => String.ofList (List.replicate 64 'a')

def sampleGrant : String := String.ofList (List.replicate 32 'g')

def sampleToken : String := String.ofList (List.replicate 43 't')

def sampleSchedule : List DenLabel :=
  [.spawn (.handoff_page ⟨some "ann@example.com", none⟩), .perform 0 (.draw sampleGrant),
    .perform 0 .auto, .tick 60,
    .spawn (.desktop_handoff_exchange (some (.obj [("grant", .str sampleGrant)]))),
    .perform 1 .auto, .perform 1 (.draw sampleToken), .perform 1 .auto, .tick 60,
    .spawn (.guarded .den_me (some ("Bearer " ++ sampleToken))), .perform 2 .auto,
    .spawn (.den_sign_out (some ("Bearer " ++ sampleToken))), .perform 3 .auto]

/-- The desktop was told who it is, and has signed out. -/
def sampleTest (c : DenConfig) : Bool :=
  (match c.response 2 with
    | some (.me user) => user.email == "ann@example.com"
    | _ => false) &&
  match c.response 3 with
  | some .signed_out => true
  | _ => false

theorem handoff_agrees_sample :
    ∃ c, Reached sampleDen c ∧ sampleTest c = true ∧ Agreement sampleDen c := by
  have hrun : (Config.init.run (handler sampleDen) (fun _ _ => true) sampleSchedule).any
      sampleTest = true := by
    decide +kernel
  obtain ⟨c, hreach, htest⟩ := exists_reach (fun _ _ _ => trivial) hrun
  exact ⟨c, hreach, htest, handoff_agrees hreach⟩

end AlitellmAuth.OpenWork
