import AlitellmAuth.OauthAs.Runs

/-! # Whose key is handed out

    A call that resolves a front key ends with the record it has read, with the
    record it has found under the lock, or with the key it has minted.

    * `KeyHeld`: the call has read or written this key, for this user.
    * `Minted`: LiteLLM has generated this key, for this user.
    * `handed_minted`: a key that is handed out was minted for the user that
      the request asks for.
-/

namespace AlitellmAuth

open Interleave Text

variable {E : Env} {ok : AsConfig → AsConfig → Prop} {c : AsConfig}

/-! ## One call -/

section
variable {u : String}

/-- The trace has a record of the user with this key, read or written. -/
def KeyHeld (u key : String) (tr : AsTrace) : Prop :=
  (∃ record : FrontKey, (⟨.get .frontkey u, some record⟩ : AsEvent) ∈ tr ∧ record.enc.plain = key) ∨
  ∃ (v : FrontKey) (ttl : Option Nat), (⟨.put .frontkey u v ttl, ()⟩ : AsEvent) ∈ tr ∧ v.enc.plain = key

theorem KeyHeld.mono {key : String} {tr tr' : AsTrace} (h : KeyHeld u key tr) (hsub : tr ⊆ tr') :
    KeyHeld u key tr' := by
  rcases h with ⟨record, hmem, hkey⟩ | ⟨v, ttl, hmem, hkey⟩
  · exact .inl ⟨record, hsub hmem, hkey⟩
  · exact .inr ⟨v, ttl, hsub hmem, hkey⟩

/-- A result with a key is one whose record the call has held. -/
def Resolved (u : String) (tr : AsTrace) (result : FrontKeyResult) : Prop :=
  ∀ key, result = .key key → KeyHeld u key tr

theorem held_read {record : FrontKey} {tr : AsTrace} :
    Resolved u (⟨.get .frontkey u, some record⟩ :: tr) (.key record.enc.plain) := by
  rintro key heq
  cases heq
  exact .inl ⟨record, List.mem_cons_self, rfl⟩

theorem resolved_other {result : FrontKeyResult} (h : ∀ key, result ≠ .key key) (tr : AsTrace) :
    Resolved u tr result :=
  fun key heq => absurd heq (h key)

theorem failure_resolved {α : Type} (reply : LitellmReply α) (tr : AsTrace) :
    Resolved u tr reply.failure := by
  apply resolved_other
  cases reply <;> simp [LitellmReply.failure]

theorem mint_resolved (tr : AsTrace) :
    (mint u).Along (fun _ _ => True) (Resolved u) tr := by
  refine along_await fun found => ⟨trivial, ?_⟩
  cases found with
  | some record => exact held_read
  | none =>
    refine along_await fun reply => ⟨trivial, ?_⟩
    cases reply with
    | status_error | transport_error | crashed => exact failure_resolved _ _
    | ok _ =>
      refine along_await fun reply => ⟨trivial, ?_⟩
      cases reply with
      | status_error | transport_error | crashed => exact failure_resolved _ _
      | ok minted =>
        dsimp only
        split
        · refine along_await fun _ => ⟨trivial, ?_⟩
          rintro key heq
          cases heq
          exact .inr ⟨_, none, List.mem_cons_self, rfl⟩
        · -- a key that is no text is not handed out
          exact resolved_other (by simp) _

theorem mint_locked_resolved (tr : AsTrace) :
    (mint_locked u).Along (fun _ _ => True) (Resolved u) tr := by
  refine along_await fun acquired => ⟨trivial, ?_⟩
  cases acquired with
  | false =>
    refine along_await fun _ => ⟨trivial, along_await fun found => ⟨trivial, ?_⟩⟩
    cases found with
    | some record => exact held_read
    | none => exact resolved_other (by simp) _
  | true =>
    refine along_bind (mint_resolved _) fun tr' result hresult => ?_
    refine along_await fun _ => ⟨trivial, ?_⟩
    intro key heq
    exact (hresult key heq).mono (List.subset_cons_self _ _)

theorem resolve_front_key_resolved (tr : AsTrace) :
    (resolve_front_key u).Along (fun _ _ => True) (Resolved u) tr := by
  refine along_await fun found => ⟨trivial, ?_⟩
  cases found with
  | none => exact mint_locked_resolved _
  | some record =>
    refine along_await fun reply => ⟨trivial, ?_⟩
    split
    · exact resolved_other (by simp) _
    · intro key heq
      cases heq
      exact .inl ⟨record, by simp, rfl⟩
    · exact along_await fun _ => ⟨trivial, mint_locked_resolved _⟩

end

/-! ## The three callers -/

/-- The request is one of the three that end with a front key. -/
def Request.fronts : Request → Bool
  | .front_key .. => true
  | .user_key _ => true
  | .opencode_config _ => true
  | _ => false

/-- Such a request gets a key that was held for the user it asks for. -/
def HandsOut (E : Env) (r : Request) (tr : AsTrace) (res : Response) : Prop :=
  r.fronts = true → ∀ key, res = .front_key key → ∃ u, resolves E r = some u ∧ KeyHeld u key tr

theorem hands_error {r : Request} {tr : AsTrace} {res : Response}
    (h : ∀ key, res ≠ .front_key key) : HandsOut E r tr res :=
  fun _ key heq => absurd heq (h key)

theorem hands_status {r : Request} {tr : AsTrace} {code : Nat} {detail : String} :
    HandsOut E r tr (.front_key_error code detail) := by
  apply hands_error
  intro key heq
  cases heq

theorem hands_crash {r : Request} {tr : AsTrace} : HandsOut E r tr .internal_error := by
  apply hands_error
  intro key heq
  cases heq

theorem hands_resolved {u key : String} {r : Request} {tr : AsTrace} (hr : resolves E r = some u)
    (h : Resolved u tr (.key key)) : HandsOut E r tr (.front_key key) := by
  rintro - key' heq
  cases heq
  exact ⟨u, hr, h key rfl⟩

theorem front_key_hands (presented : Option String) (body : Option Json) :
    (front_key E presented body).Along (fun _ _ => True) (HandsOut E (.front_key presented body)) [] := by
  unfold front_key
  split
  · exact hands_crash
  · exact hands_status
  next hauth =>
  split
  · exact hands_crash
  next text hbody =>
  have hr (hne : lower (strip text) ≠ "") :
      resolves E (.front_key presented body) = some (lower (strip text)) := by
    simp [resolves, hauth, hbody, Option.filter, hne]
  -- the normalized text must not be computed
  generalize lower (strip text) = u at hr ⊢
  refine along_ite (fun _ => hands_status) fun hne => ?_
  refine along_bind (resolve_front_key_resolved []) fun tr' result hresult => ?_
  cases result with
  | key key => exact hands_resolved (hr hne) hresult
  | mint_in_progress | unavailable => exact hands_status
  | crashed => exact hands_crash

theorem user_key_hands (email : String) :
    (user_key email).Along (fun _ _ => True) (HandsOut E (.user_key email)) [] := by
  refine along_bind (resolve_front_key_resolved []) fun tr' result hresult => ?_
  cases result with
  | key key => exact hands_resolved rfl hresult
  | mint_in_progress | unavailable => exact hands_status
  | crashed => exact hands_crash

theorem opencode_config_hands (sub : String) :
    (opencode_config sub).Along (fun _ _ => True) (HandsOut E (.opencode_config sub)) [] := by
  refine along_bind (resolve_front_key_resolved []) fun tr' result hresult => ?_
  cases result with
  | key key => exact hands_resolved rfl hresult
  | mint_in_progress | unavailable | crashed => exact hands_status

theorem handler_hands (r : Request) : (handler E r).Along (fun _ _ => True) (HandsOut E r) [] := by
  by_cases hfronts : r.fronts = true
  · cases r with
    | front_key presented body => exact front_key_hands presented body
    | user_key email => exact user_key_hands email
    | opencode_config sub => exact opencode_config_hands sub
    | _ => cases hfronts
  · exact along_mono (fun _ _ h => h) (fun _ _ _ hf => absurd hf hfronts)
      (along_of_forall (fun _ _ => trivial) _ _)

/-! ## Runs -/

/-- LiteLLM has generated the key for the user. -/
def MintedFor (c : AsConfig) (u key : String) : Prop :=
  ∃ j minted, (⟨j, ⟨.ext (.key_generate u), .ok minted⟩⟩ : AsEntry) ∈ c.log ∧ minted.key = some key

/-- A record is written with a key that was just generated. -/
theorem put_minted (h : Reach (handler E) ok c) {i : Nat} {u : String} {v : FrontKey}
    {ttl : Option Nat} (hmem : (⟨i, ⟨.put .frontkey u v ttl, ()⟩⟩ : AsEntry) ∈ c.log) :
    MintedFor c u v.enc.plain := by
  obtain ⟨past, hs⟩ := exists_suffix_of_mem hmem
  obtain ⟨r, -, -, -, minted, tr, htr, hkey, -⟩ := performed h hs
  refine ⟨i, minted, ?_, hkey⟩
  apply ((List.suffix_cons _ _).trans hs).subset
  rw [← mem_traceOf, htr]
  exact List.mem_cons_self

/-- A key that was held is one that was minted for the user. -/
theorem held_minted (h : Reach (handler E) ok c) {i : Nat} {u key : String}
    (hheld : KeyHeld u key (traceOf i c.log)) : MintedFor c u key := by
  rcases hheld with ⟨record, hmem, rfl⟩ | ⟨v, ttl, hmem, rfl⟩
  · obtain ⟨past, hs⟩ := exists_suffix_of_mem (mem_traceOf.mp hmem)
    obtain ⟨j, ttl, past', hput⟩ := read_put h hs
    exact put_minted h ((hput.trans ((List.suffix_cons _ _).trans hs)).subset List.mem_cons_self)
  · exact put_minted h (mem_traceOf.mp hmem)

/-- Whoever is handed a key is handed one that LiteLLM has generated for the user
    of the request. -/
theorem handed_minted (h : Reach (handler E) ok c) {t : Nat} {r : Request} {key : String}
    (hr : c.request t = some r) (hfronts : r.fronts = true)
    (hkey : c.response t = some (.front_key key)) :
    ∃ u, resolves E r = some u ∧ MintedFor c u key := by
  unfold Config.response at hkey
  split at hkey
  · next r' a hth =>
    cases hkey
    obtain rfl : r = r' := by
      have hr' : c.request t = some r' := by simp [Config.request, hth]
      exact request_unique hr hr'
    obtain ⟨u, hu, hheld⟩ := (reach_contracted handler_hands h).2 t _ hth hfronts key rfl
    exact ⟨u, hu, held_minted h hheld⟩
  · cases hkey

end AlitellmAuth
