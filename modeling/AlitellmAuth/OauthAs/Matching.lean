import AlitellmAuth.Framework.Query
import AlitellmAuth.OauthAs.CodeFlow

/-! # Redirect URIs that match

    What `_redirect_matches` lets through is used as the client wrote it: the
    response parameters are appended to the presented text. The match compares
    parsed parts, and the parse does not see everything that is written.

    * `client_redirect_location`: the text `_client_redirect` redirects to.
    * `Harmless`: the presented URI is one that could be registered, is the
      registered one but for the port, and carries the response.
    * `around`: what is written around the port.
    * `matched_redirects`: a match is harmless if and only if the two URIs are
      equal or written alike around the port.
-/

namespace AlitellmAuth

open Interleave Url

/-! ## The redirect -/

/-- The text that `_client_redirect` makes of a redirect URI and the response
    parameters. -/
def client_redirect_location (issuer redirect_uri : String) (params : List (String × String)) :
    String :=
  redirect_uri ++
    String.ofList (separator redirect_uri :: urlencode (Table.put params "iss" issuer))

/-- The redirect is to the URI as it is, whose own parameters are followed by
    those of the response and by the issuer. -/
def ParsesBack (redirect_uri : String) : Prop :=
  ∀ issuer params, params.lookup "iss" = none → ∃ a b, urlparse redirect_uri = some a ∧
    urlparse (client_redirect_location issuer redirect_uri params) = some b ∧
    b.scheme = a.scheme ∧ b.hostname = a.hostname ∧ b.port = a.port ∧ b.path = a.path ∧
    b.params = a.params ∧ queryFields b.query.toList =
      queryFields a.query.toList ++ (params ++ [("iss", issuer)]).map paramBytes

theorem redirect_allowed_cases {u : String} (h : redirect_allowed u = true) :
    '#' ∉ u.toList ∧ ∃ a, urlparse u = some a ∧ a.fragment = "" ∧ a.username = none ∧
      a.password = none ∧ a.scheme ≠ "" ∧ a.hostname.isSome = true := by
  unfold redirect_allowed at h
  split at h
  · cases h
  · next a ha =>
    split at h
    · cases h
    · split at h
      · cases h
      · next hplain =>
        simp only [Bool.or_eq_true, not_or, bne_iff_ne, List.contains_iff_mem,
          Option.isSome_iff_ne_none, ne_eq, not_not] at hplain
        obtain ⟨⟨⟨hfragment, hmarker⟩, huser⟩, hpassword⟩ := hplain
        refine ⟨hmarker, a, ha, hfragment, huser, hpassword, ?_⟩
        rcases Bool.or_eq_true_iff.mp h with hsecure | hloop
        · simp only [Bool.and_eq_true, beq_iff_eq] at hsecure
          exact ⟨by rw [hsecure.1]; decide, hsecure.2⟩
        · unfold is_loopback at hloop
          rw [ha] at hloop
          simp only [Bool.and_eq_true, Bool.or_eq_true, beq_iff_eq] at hloop
          obtain ⟨⟨hscheme, -⟩, hhost⟩ := hloop
          refine ⟨by rw [hscheme]; decide, ?_⟩
          rcases hhost with (hhost | hhost) | hhost <;> rw [hhost] <;> rfl

theorem netloc_of_hostname {a : Parsed} (h : a.hostname.isSome = true) : a.netloc ≠ "" := by
  intro hempty
  have hinfo : a.hostinfo = ([], []) := by
    unfold Parsed.hostinfo
    rw [hempty]
    rfl
  unfold Parsed.hostname at h
  rw [hinfo] at h
  cases h

/-- What may be registered carries a response. -/
theorem parses_back {u : String} (h : redirect_allowed u = true) : ParsesBack u := by
  intro issuer params hiss
  obtain ⟨hplain, a, ha, -, -, -, hscheme, hhost⟩ := redirect_allowed_cases h
  let q := urlencode (Table.put params "iss" issuer)
  have hb := urlparse_query ha hscheme (netloc_of_hostname hhost) hplain
    fun c (hc : c ∈ q) => urlencode_plain hc
  refine ⟨a, { a with query := longer u a.query q }, ha, hb, rfl, Parsed.hostname_congr rfl,
    Parsed.port_congr rfl, rfl, rfl, ?_⟩
  have hput : Table.put params "iss" issuer = params ++ [("iss", issuer)] := by
    unfold Table.put
    rw [if_neg (by simp [hiss])]
  have hfields : queryFields q = (params ++ [("iss", issuer)]).map paramBytes := by
    show queryFields (urlencode (Table.put params "iss" issuer)) = _
    rw [hput, fields_urlencode]
  show queryFields (longer u a.query q).toList = _
  unfold longer
  split
  · rw [String.toList_append, String.toList_ofList, fields_append, hfields]
  · next hquestion =>
    -- without a question mark there are no parameters yet
    have hquery : a.query = "" :=
      urlparse_no_query ha hscheme (netloc_of_hostname hhost) (by simpa using hquestion)
    rw [String.toList_ofList, hfields, hquery]
    rfl

/-! ## The match -/

theorem redirect_matches_refl (u : String) : redirect_matches u u = true := if_pos rfl

theorem redirect_matches_symm {a b : String} (h : redirect_matches a b = true) :
    redirect_matches b a = true := by
  by_cases hab : a = b
  · rw [hab]
    exact redirect_matches_refl b
  · unfold redirect_matches at h ⊢
    rw [if_neg hab] at h
    rw [if_neg (Ne.symm hab), Bool.and_comm]
    split at h
    · cases h
    · next hloop =>
      rw [if_neg hloop]
      split at h
      · next pa pb hpa hpb =>
        rw [hpa, hpb]
        exact beq_iff_eq.mpr (beq_iff_eq.mp h).symm
      · cases h

/-- Two URIs that match are equal, or two loopback URIs with the same parts. -/
theorem redirect_matches_cases {a b : String} (h : redirect_matches a b = true) (hne : a ≠ b) :
    is_loopback a = true ∧ is_loopback b = true ∧ ∃ pa pb, urlparse a = some pa ∧
      urlparse b = some pb ∧ compared pa = compared pb := by
  unfold redirect_matches at h
  rw [if_neg hne] at h
  split at h
  · cases h
  · next hloop =>
    simp only [Bool.not_eq_true', Bool.not_eq_false, Bool.and_eq_true] at hloop
    split at h
    · next pa pb hpa hpb => exact ⟨hloop.1, hloop.2, pa, pb, hpa, hpb, beq_iff_eq.mp h⟩
    · cases h

/-- What matches a registered URI could be registered, if it has no fragment
    marker: the parse does not see an empty fragment. -/
theorem matched_allowed {r p : String} (hr : redirect_allowed r = true)
    (hm : redirect_matches r p = true) (hplain : '#' ∉ p.toList) : redirect_allowed p = true := by
  by_cases hne : r = p
  · rw [← hne]
    exact hr
  · obtain ⟨-, hloop, pa, pb, hpa, hpb, hsame⟩ := redirect_matches_cases hm hne
    obtain ⟨-, a, ha, hfragment, huser, hpassword, -, -⟩ := redirect_allowed_cases hr
    cases ha.symm.trans hpa
    simp only [compared, Prod.mk.injEq] at hsame
    obtain ⟨-, -, -, -, hfragment', huser', hpassword'⟩ := hsame
    have hport : pb.port.isNone = false := by
      unfold is_loopback at hloop
      rw [hpb] at hloop
      simp only [Bool.and_eq_true] at hloop
      simpa using hloop.1.2
    unfold redirect_allowed
    rw [hpb]
    dsimp only
    rw [if_neg (by simp [hport]), if_neg, hloop, Bool.or_true]
    rw [← hfragment', ← huser', ← hpassword', hfragment, huser, hpassword]
    simp [hplain]

/-! ## What is written -/

/-- The host is over where the port begins: behind its brackets, or before a
    colon. -/
def EndOfHost (host port : List Char) : Prop :=
  ']' ∉ port ∧ ((∃ h, host = h ++ [']']) ∨ ']' ∉ host ∧ ':' ∉ host ∧ ∀ c ∈ port.head?, c = ':')

/-- `port` stands where the port of a URI stands: behind the host in the
    authority, which comes after the second slash. -/
structure AtPort (front port back : List Char) : Prop where
  authority : ∃ a b host, front = a ++ '/' :: (b ++ '/' :: host) ∧ '/' ∉ a ∧ '/' ∉ b ∧
    (∀ c ∈ host, inNetloc c = true) ∧ EndOfHost host port
  port_in : ∀ c ∈ port, inNetloc c = true
  back_out : ∀ c ∈ back.head?, inNetloc c = false

/-- The two URIs are the same, or loopback URIs that differ in nothing but what
    stands where the port stands. -/
def SameButPort (r p : String) : Prop :=
  r = p ∨ is_loopback r = true ∧ is_loopback p = true ∧ ∃ front port port' back,
    r.toList = front ++ port ++ back ∧ p.toList = front ++ port' ++ back ∧
    AtPort front port back ∧ AtPort front port' back

/-- The host and the port of an authority. -/
def cutPort (netloc : List Char) : List Char × List Char :=
  match rpartition ']' netloc with
  | (before, true, after) => (before ++ [']'], after)
  | (_, false, _) => netloc.span (· != ':')

/-- What is written before the port of a URI, up to the host, and behind it. -/
def around (u : String) : List Char × List Char :=
  let (a, rest) := u.toList.span (· != '/')
  let (b, rest) := (rest.drop 1).span (· != '/')
  let (netloc, back) := (rest.drop 1).span inNetloc
  (a ++ '/' :: (b ++ '/' :: (cutPort netloc).1), back)

theorem cutPort_eq {host port : List Char} (h : EndOfHost host port) :
    cutPort (host ++ port) = (host, port) := by
  obtain ⟨hport, ⟨before, rfl⟩ | ⟨hbracket, hcolon, hhead⟩⟩ := h
  · have hcut : rpartition ']' (before ++ [']'] ++ port) = (before, true, port) := by
      unfold rpartition
      have hrev : (before ++ [']'] ++ port).reverse = port.reverse ++ ']' :: before.reverse := by simp
      rw [hrev, partition_append (by simpa using hport)]
      simp
    unfold cutPort
    rw [hcut]
  · have hcut : rpartition ']' (host ++ port) = ([], false, host ++ port) := by
      unfold rpartition
      rw [partition_of_not_mem (by simp [hbracket, hport])]
    unfold cutPort
    rw [hcut]
    refine span_of_parts ?_ ?_
    · intro c hc
      simp only [bne_iff_ne, ne_eq]
      rintro rfl
      exact hcolon hc
    · intro c hc
      rw [hhead c hc]
      rfl

/-- What is written around the port is found by reading the text. -/
theorem around_eq {u : String} {front port back : List Char} (hu : u.toList = front ++ port ++ back)
    (h : AtPort front port back) : around u = (front, back) := by
  obtain ⟨a, b, host, rfl, ha, hb, hhost, hend⟩ := h.authority
  have hslash : ∀ {l : List Char}, '/' ∉ l → ∀ c ∈ l, (c != '/') = true := by
    intro l hl c hc
    simp only [bne_iff_ne, ne_eq]
    rintro rfl
    exact hl hc
  have hnetloc : ∀ c ∈ host ++ port, inNetloc c = true := by
    intro c hc
    rcases List.mem_append.mp hc with hc | hc
    · exact hhost c hc
    · exact h.port_in c hc
  have hspan : u.toList.span (· != '/') = (a, '/' :: (b ++ '/' :: (host ++ port ++ back))) := by
    rw [hu]
    simpa using span_of_parts (hslash ha) (by simp : ∀ c ∈ ('/' :: (b ++ '/' ::
      (host ++ port ++ back))).head?, (c != '/') = false)
  have hspan' : (b ++ '/' :: (host ++ port ++ back)).span (· != '/') =
      (b, '/' :: (host ++ port ++ back)) :=
    span_of_parts (hslash hb) (by simp)
  unfold around
  rw [hspan]
  simp only [List.drop_one, List.tail_cons, hspan', span_of_parts hnetloc h.back_out,
    cutPort_eq hend]

theorem cutPort_parts (netloc : List Char) : netloc = (cutPort netloc).1 ++ (cutPort netloc).2 ∧
    EndOfHost (cutPort netloc).1 (cutPort netloc).2 := by
  rcases partition_cases ']' netloc.reverse with ⟨hcut, hnot⟩ | ⟨after, before, hcut, hrev, hnot⟩
  · have hnot : ']' ∉ netloc := by simpa using hnot
    have heq : cutPort netloc = netloc.span (· != ':') := by
      unfold cutPort rpartition
      rw [hcut]
    rw [heq, List.span_eq_takeWhile_dropWhile]
    refine ⟨List.takeWhile_append_dropWhile.symm, ?_, .inr ⟨?_, ?_, ?_⟩⟩
    · exact fun hmem => hnot ((List.dropWhile_suffix _).subset hmem)
    · exact fun hmem => hnot ((List.takeWhile_prefix _).subset hmem)
    · exact fun hmem => absurd (List.mem_takeWhile_imp hmem) (by decide)
    · intro c hc
      have hhead := List.head?_dropWhile_not (fun c => c != ':') netloc
      rw [hc] at hhead
      simpa using hhead
  · have heq : cutPort netloc = (before.reverse ++ [']'], after.reverse) := by
      unfold cutPort rpartition
      rw [hcut]
    rw [heq]
    refine ⟨?_, by simpa using hnot, .inl ⟨_, rfl⟩⟩
    rw [← List.reverse_reverse netloc, hrev]
    simp

/-- A text with two slashes is what is written around the port, and the port. -/
theorem around_parts {u : String} (h : ['/', '/'].Sublist u.toList) : ∃ port,
    u.toList = (around u).1 ++ port ++ (around u).2 ∧ AtPort (around u).1 port (around u).2 := by
  -- the second slash ends the authority's marker; the port is cut from what follows
  have hcount : 2 ≤ u.toList.count '/' := h.count_le '/'
  obtain ⟨a, rest, hu, ha⟩ := List.eq_append_cons_of_mem (List.count_pos_iff.mp (by omega :
    0 < u.toList.count '/'))
  have hrest : '/' ∈ rest := by
    rw [hu, List.count_append, List.count_cons_self, List.count_eq_zero.mpr ha] at hcount
    exact List.count_pos_iff.mp (by omega)
  obtain ⟨b, text, hrest, hb⟩ := List.eq_append_cons_of_mem hrest
  let netloc := text.takeWhile inNetloc
  let back := text.dropWhile inNetloc
  obtain ⟨hparts, hend⟩ := cutPort_parts netloc
  have hnetloc : ∀ c ∈ (cutPort netloc).1 ++ (cutPort netloc).2, inNetloc c = true := by
    intro c hc
    rw [← hparts] at hc
    exact List.mem_takeWhile_imp hc
  have hat : AtPort (a ++ '/' :: (b ++ '/' :: (cutPort netloc).1)) (cutPort netloc).2 back := by
    refine ⟨⟨a, b, _, rfl, ha, hb, fun c hc => hnetloc c (List.mem_append_left _ hc), hend⟩,
      fun c hc => hnetloc c (List.mem_append_right _ hc), ?_⟩
    intro c hc
    have hhead := List.head?_dropWhile_not inNetloc text
    rw [hc] at hhead
    simpa using hhead
  have hwhole : u.toList =
      a ++ '/' :: (b ++ '/' :: (cutPort netloc).1) ++ (cutPort netloc).2 ++ back := by
    calc u.toList = a ++ '/' :: (b ++ '/' :: text) := by rw [hu, hrest]
      _ = a ++ '/' :: (b ++ '/' :: (netloc ++ back)) := by
        rw [List.takeWhile_append_dropWhile]
      _ = a ++ '/' :: (b ++ '/' :: ((cutPort netloc).1 ++ (cutPort netloc).2 ++ back)) := by
        rw [← hparts]
      _ = _ := by simp
  rw [around_eq hwhole hat]
  exact ⟨_, hwhole, hat⟩

/-- A loopback URI has two slashes. -/
theorem loopback_slashes {u : String} (h : is_loopback u = true) : ['/', '/'].Sublist u.toList := by
  unfold is_loopback at h
  split at h
  · cases h
  · next a ha =>
    simp only [Bool.and_eq_true, Bool.or_eq_true, beq_iff_eq] at h
    obtain ⟨⟨hscheme, -⟩, hhost⟩ := h
    have hsome : a.hostname.isSome = true := by
      rcases hhost with (hhost | hhost) | hhost <;> rw [hhost] <;> rfl
    obtain ⟨scheme, netloc, rest, hloc⟩ :=
      urlparse_located ha (by rw [hscheme]; decide) (netloc_of_hostname hsome)
    obtain ⟨before, hs, -⟩ := hloc.scheme_in.cut
    have hsub : (sanitize u.toList).Sublist u.toList :=
      List.filter_sublist.trans (List.dropWhile_suffix _).sublist
    refine List.Sublist.trans ?_ hsub
    rw [hs]
    refine List.Sublist.trans ?_ (List.sublist_append_right before _)
    exact ((List.Sublist.refl ['/', '/']).trans (List.sublist_append_left _ (netloc ++ rest))).cons ':'

/-- Two loopback URIs differ in the port alone if they are written alike around
    it. -/
theorem same_but_port_iff {r p : String} (hm : redirect_matches r p = true) :
    SameButPort r p ↔ r = p ∨ around r = around p := by
  constructor
  · rintro (heq | ⟨-, -, front, port, port', back, hr, hp, hport, hport'⟩)
    · exact .inl heq
    · exact .inr ((around_eq hr hport).trans (around_eq hp hport').symm)
  · rintro (heq | halike)
    · exact .inl heq
    · by_cases hne : r = p
      · exact .inl hne
      · obtain ⟨hr, hp, -⟩ := redirect_matches_cases hm hne
        obtain ⟨port, hur, hatr⟩ := around_parts (loopback_slashes hr)
        obtain ⟨port', hup, hatp⟩ := around_parts (loopback_slashes hp)
        rw [← halike] at hup hatp
        exact .inr ⟨hr, hp, _, port, port', _, hur, hup, hatr, hatp⟩

/-- There is no fragment marker in a port. -/
theorem SameButPort.no_fragment {r p : String} (h : SameButPort r p) (hr : '#' ∉ r.toList) :
    '#' ∉ p.toList := by
  rcases h with rfl | ⟨-, -, front, port, port', back, hur, hup, -, hport⟩
  · exact hr
  · rw [hur] at hr
    rw [hup]
    have hnot : '#' ∉ port' := fun hmem => absurd (hport.port_in _ hmem) (by decide)
    simp only [List.mem_append, not_or] at hr ⊢
    exact ⟨⟨hr.1.1, hnot⟩, hr.2⟩

/-- What a presented URI must be. -/
structure Harmless (r p : String) : Prop where
  allowed : redirect_allowed p = true
  same_but_port : SameButPort r p
  parses_back : ParsesBack p

/-- The match is an equivalence, and what is presented at the token endpoint
    matches a URI that the client has registered. A presented URI that matches a
    registered one is one that could be registered, differs from it in the port
    alone and carries the response, if and only if the two are equal or written
    alike around the port. -/
theorem matched_redirects (r p : String) :
    ((∀ a, redirect_matches a a = true) ∧
      (∀ a b, redirect_matches a b = true → redirect_matches b a = true) ∧
      (∀ a b c, redirect_matches a b = true → redirect_matches b c = true →
        redirect_matches a c = true)) ∧
    (∀ (E : Env) (c : AsConfig), Reached E c → ∀ i form refresh v, CodePair c i form refresh v →
      ∃ client uri, Registered c client ∧ client.client_id = v.client_id ∧
        uri ∈ client.redirect_uris ∧ redirect_matches uri form.redirect_uri = true) ∧
    (redirect_allowed r = true → redirect_matches r p = true →
      (Harmless r p ↔ r = p ∨ around r = around p)) := by
  refine ⟨⟨redirect_matches_refl, fun a b => redirect_matches_symm,
    fun a b c => redirect_matches_trans⟩, ?_, ?_⟩
  · intro E c h i form refresh v hpair
    obtain ⟨a, q, hagree⟩ := code_pair_agrees h hpair
    obtain ⟨client, uri, hreg, hid, huri, -, hmatch⟩ := hagree.redirect_uri
    exact ⟨client, uri, hreg, hid, huri, hmatch⟩
  · intro hr hm
    rw [← same_but_port_iff hm]
    refine ⟨fun h => h.same_but_port, fun h => ?_⟩
    have hallowed := matched_allowed hr hm (h.no_fragment (redirect_allowed_cases hr).1)
    exact ⟨hallowed, h, parses_back hallowed⟩

/-- A native client comes back on another port. -/
theorem matched_redirects_sample :
    Harmless "http://127.0.0.1:1000/cb?x=1" "http://127.0.0.1:2000/cb?x=1" :=
  ((matched_redirects _ _).2.2 (by decide +kernel) (by decide +kernel)).mpr (.inr (by decide +kernel))

/-- An empty fragment is not seen: the match succeeds, and the response lands in
    the fragment. -/
theorem empty_fragment_matches :
    redirect_allowed "http://127.0.0.1:1000/cb" = true ∧
    redirect_matches "http://127.0.0.1:1000/cb" "http://127.0.0.1:2000/cb#" = true ∧
    ¬ Harmless "http://127.0.0.1:1000/cb" "http://127.0.0.1:2000/cb#" ∧
    client_redirect_location "https://auth.example" "http://127.0.0.1:2000/cb#" [("code", "k")] =
      "http://127.0.0.1:2000/cb#?code=k&iss=https%3A%2F%2Fauth.example" := by
  refine ⟨by decide +kernel, by decide +kernel, fun h => ?_, by decide +kernel⟩
  have hallowed := h.allowed
  revert hallowed
  decide +kernel

end AlitellmAuth
