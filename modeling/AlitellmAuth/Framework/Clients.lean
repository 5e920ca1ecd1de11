import Mathlib.Logic.Relation
import AlitellmAuth.Framework.Service

/-! # Many clients of one service

    Any number of clients of one service at once, each at its own point of its
    program. A step is one exchange of one client, the arrival of a new client,
    the crash of one, or an edit that somebody makes in the service by hand.
    Clients crash anywhere, so every prefix of every client is covered.

    * `Service.Client`: a client with the events it has had, newest first.
    * `Service.Step`, `Service.Leads`: one step, and any number of steps that
      all meet a side condition.
    * `Service.Trusts`: a contract of the clients, what answers can be trusted
      for, and the invariant that both preserve together.
-/

namespace Interleave.Service

variable {Op : Type} {Ans : Op → Type} {σ Req Res Edit : Type}

/-! ## Steps -/

/-- A client: what it was asked, its events, and what is left of its program. -/
structure Client (Op : Type) (Ans : Op → Type) (Req Res : Type) where
  req : Req
  done : Trace Op Ans
  prog : Prog Op Ans Res

/-- The state of the service, and its clients. -/
structure Clients (Op : Type) (Ans : Op → Type) (σ Req Res : Type) where
  state : σ
  clients : List (Client Op Ans Req Res)

/-- No client has arrived yet. -/
def Clients.start (s : σ) : Clients Op Ans σ Req Res := ⟨s, []⟩

section
variable (S : Service Op Ans σ) (program : Req → Prog Op Ans Res) (edit : Edit → σ → σ)

/-- One step of the service and its clients. -/
inductive Step : Clients Op Ans σ Req Res → Clients Op Ans σ Req Res → Prop where
  | arrive (c : Clients Op Ans σ Req Res) (r : Req) :
      Step c { c with clients := c.clients ++ [⟨r, [], program r⟩] }
  | exchange {c : Clients Op Ans σ Req Res} {i : Nat} {r : Req} {tr : Trace Op Ans} {op : Op}
      {k : Ans op → Prog Op Ans Res} {answer : Ans op} {effective : Bool}
      (hi : c.clients[i]? = some ⟨r, tr, .call op k⟩)
      (hans : S.answers c.state op effective answer) :
      Step c ⟨S.after c.state ⟨op, answer, effective⟩,
        c.clients.set i ⟨r, ⟨op, answer⟩ :: tr, k answer⟩⟩
  | crash (c : Clients Op Ans σ Req Res) (i : Nat) :
      Step c { c with clients := c.clients.eraseIdx i }
  | edit (c : Clients Op Ans σ Req Res) (e : Edit) : Step c { c with state := edit e c.state }

/-- Any number of steps, each of which meets `ok`. -/
def Leads (ok : Clients Op Ans σ Req Res → Clients Op Ans σ Req Res → Prop) :
    Clients Op Ans σ Req Res → Clients Op Ans σ Req Res → Prop :=
  Relation.ReflTransGen fun c c' => Step S program edit c c' ∧ ok c c'

end

variable {S : Service Op Ans σ} {program : Req → Prog Op Ans Res} {edit : Edit → σ → σ}
  {ok : Clients Op Ans σ Req Res → Clients Op Ans σ Req Res → Prop}
  {c c' : Clients Op Ans σ Req Res}

/-- What every step preserves holds after any number of steps. -/
theorem leads_preserves {I : Clients Op Ans σ Req Res → Prop}
    (hstep : ∀ c c', I c → Step S program edit c c' → ok c c' → I c') (h : Leads S program edit ok c c')
    (hc : I c) : I c' := by
  induction h with
  | refl => exact hc
  | tail _ hs ih => exact hstep _ _ ih hs.1 hs.2

/-! ## Contracts -/

/-- Every client keeps to its contract: in what it has done, and in what it can
    still do. -/
def Contracted (Q : Req → Trace Op Ans → Event Op Ans → Prop) (c : Clients Op Ans σ Req Res) :
    Prop :=
  ∀ cl ∈ c.clients, (∀ e tr, e :: tr <:+ cl.done → Q cl.req tr e) ∧
    cl.prog.Along (Q cl.req) (fun _ _ => True) cl.done

section
variable {Q : Req → Trace Op Ans → Event Op Ans → Prop}

/-- A member of an updated list is the new element or an old one. -/
theorem mem_set_cases {cls : List (Client Op Ans Req Res)} {i : Nat} {cl x : Client Op Ans Req Res}
    (h : x ∈ cls.set i cl) : x = cl ∨ x ∈ cls := by
  rcases List.mem_or_eq_of_mem_set h with hmem | heq
  · exact .inr hmem
  · exact .inl heq

/-- The contract goes with the clients. -/
theorem contracted_step (hprogram : ∀ r, (program r).Along (Q r) (fun _ _ => True) [])
    (hc : Contracted Q c) (h : Step S program edit c c') : Contracted Q c' := by
  cases h with
  | arrive r =>
    intro cl hcl
    rcases List.mem_append.mp hcl with hcl | hcl
    · exact hc cl hcl
    · obtain rfl := List.mem_singleton.mp hcl
      exact ⟨fun e tr hs => absurd hs.length_le (by simp), hprogram r⟩
  | @exchange i r tr op k answer effective hi hans =>
    intro cl hcl
    obtain ⟨hdone, hprog⟩ := hc _ (List.mem_of_getElem? hi)
    rcases mem_set_cases hcl with rfl | hcl
    · refine ⟨?_, (hprog answer).2⟩
      intro e tr' hs
      rcases List.suffix_cons_iff.mp hs with heq | hs
      · obtain ⟨rfl, rfl⟩ := List.cons.inj heq
        exact (hprog answer).1
      · exact hdone e tr' hs
    · exact hc cl hcl
  | crash i => exact fun cl hcl => hc cl (List.mem_of_mem_eraseIdx hcl)
  | edit e => exact hc

/-- What a client is about to do meets its contract. -/
theorem contracted_next (hc : Contracted Q c) {i : Nat} {r : Req} {tr : Trace Op Ans} {op : Op}
    {k : Ans op → Prog Op Ans Res} (hi : c.clients[i]? = some ⟨r, tr, .call op k⟩) (answer : Ans op) :
    Q r tr ⟨op, answer⟩ :=
  ((hc _ (List.mem_of_getElem? hi)).2 answer).1

/-- Every event of every client meets `T`. -/
def AllDone (T : Event Op Ans → Prop) (c : Clients Op Ans σ Req Res) : Prop :=
  ∀ cl ∈ c.clients, ∀ e ∈ cl.done, T e

theorem allDone_step {T : Event Op Ans → Prop}
    (htrue : ∀ op effective answer, S.answers c.state op effective answer → T ⟨op, answer⟩)
    (hc : AllDone T c) (h : Step S program edit c c') : AllDone T c' := by
  cases h with
  | arrive r =>
    intro cl hcl
    rcases List.mem_append.mp hcl with hcl | hcl
    · exact hc cl hcl
    · obtain rfl := List.mem_singleton.mp hcl
      simp
  | @exchange i r tr op k answer effective hi hans =>
    intro cl hcl e he
    rcases mem_set_cases hcl with rfl | hcl
    · rcases List.mem_cons.mp he with rfl | he
      · exact htrue _ _ _ hans
      · exact hc _ (List.mem_of_getElem? hi) e he
    · exact hc cl hcl e he
  | crash i => exact fun cl hcl => hc cl (List.mem_of_mem_eraseIdx hcl)
  | edit e => exact hc

/-- What makes `I` an invariant of the state: while it holds the answers can
    be trusted for `T`, and it is preserved by whatever a client does under its
    contract after answers that meet `T`, and by every edit. -/
structure Trusts (S : Service Op Ans σ) (program : Req → Prog Op Ans Res) (edit : Edit → σ → σ)
    (I : σ → Prop) (Q : Req → Trace Op Ans → Event Op Ans → Prop) (T : Event Op Ans → Prop) :
    Prop where
  contract : ∀ r, (program r).Along (Q r) (fun _ _ => True) []
  honest : ∀ s op effective answer, I s → S.answers s op effective answer → T ⟨op, answer⟩
  keeps : ∀ s r tr op effective answer, I s → S.answers s op effective answer →
    (∀ e ∈ tr, T e) → Q r tr ⟨op, answer⟩ → I (S.after s ⟨op, answer, effective⟩)
  edits : ∀ s e, I s → I (edit e s)

/-- The state meets its invariant, the clients their contract, and the answers
    they have had were true. -/
structure Sound (I : σ → Prop) (Q : Req → Trace Op Ans → Event Op Ans → Prop)
    (T : Event Op Ans → Prop) (c : Clients Op Ans σ Req Res) : Prop where
  state : I c.state
  contracted : Contracted Q c
  trusted : AllDone T c

section
variable {I : σ → Prop} {T : Event Op Ans → Prop}

theorem sound_start {s : σ} (h : I s) :
    Sound I Q T (Clients.start s : Clients Op Ans σ Req Res) where
  state := h
  contracted := by simp [Contracted, Clients.start]
  trusted := by simp [AllDone, Clients.start]

theorem Trusts.step (h : Trusts S program edit I Q T) (hc : Sound I Q T c)
    (hs : Step S program edit c c') : Sound I Q T c' := by
  refine ⟨?_, contracted_step h.contract hc.contracted hs, ?_⟩
  · cases hs with
    | arrive r => exact hc.state
    | crash i => exact hc.state
    | edit e => exact h.edits _ _ hc.state
    | exchange hi hans =>
      exact h.keeps _ _ _ _ _ _ hc.state hans (hc.trusted _ (List.mem_of_getElem? hi))
        (contracted_next hc.contracted hi _)
  · exact allDone_step (fun op effective answer => h.honest _ op effective answer hc.state)
      hc.trusted hs

theorem Trusts.leads (h : Trusts S program edit I Q T) (hl : Leads S program edit ok c c')
    (hc : Sound I Q T c) : Sound I Q T c' :=
  leads_preserves (fun _ _ hc hs _ => h.step hc hs) hl hc

/-- A relation between states that every exchange and every edit meets, and
    that composes, holds between the ends of a run. -/
theorem Trusts.relates (h : Trusts S program edit I Q T) {R : σ → σ → Prop} (hrefl : ∀ s, R s s)
    (htrans : ∀ s s' s'', R s s' → R s' s'' → R s s'')
    (hkeeps : ∀ s r tr op effective answer, I s → S.answers s op effective answer →
      (∀ e ∈ tr, T e) → Q r tr ⟨op, answer⟩ → R s (S.after s ⟨op, answer, effective⟩))
    (hedits : ∀ s e, I s → R s (edit e s)) (hl : Leads S program edit ok c c')
    (hc : Sound I Q T c) : R c.state c'.state := by
  induction hl with
  | refl => exact hrefl _
  | tail hl hs ih =>
    have hd := h.leads hl hc
    refine htrans _ _ _ ih ?_
    cases hs.1 with
    | arrive r => exact hrefl _
    | crash i => exact hrefl _
    | edit e => exact hedits _ _ hd.state
    | exchange hi hans =>
      exact hkeeps _ _ _ _ _ _ hd.state hans (hd.trusted _ (List.mem_of_getElem? hi))
        (contracted_next hd.contracted hi _)

end

end

/-! ## Scripted runs -/

/-- A scheduling decision; `Pick` chooses among the answers of the service. -/
inductive Move (Req Edit Pick : Type) where
  | arrive (r : Req)
  | exchange (i : Nat) (pick : Pick)
  | edit (e : Edit)

section
variable {Pick : Type} (S) (program) (edit) (choose : σ → (op : Op) → Pick → Bool × Ans op)

/-- One move, or `none` if it does not fit. -/
def move (c : Clients Op Ans σ Req Res) : Move Req Edit Pick → Option (Clients Op Ans σ Req Res)
  | .arrive r => some { c with clients := c.clients ++ [⟨r, [], program r⟩] }
  | .exchange i pick =>
      match c.clients[i]? with
      | some ⟨r, tr, .call op k⟩ =>
          some ⟨S.after c.state ⟨op, (choose c.state op pick).2, (choose c.state op pick).1⟩,
            c.clients.set i ⟨r, ⟨op, (choose c.state op pick).2⟩ :: tr,
              k (choose c.state op pick).2⟩⟩
      | _ => none
  | .edit e => some { c with state := edit e c.state }

/-- A whole script; it stops where a step does not pass the test. -/
def script (test : Clients Op Ans σ Req Res → Clients Op Ans σ Req Res → Bool)
    (c : Clients Op Ans σ Req Res) :
    List (Move Req Edit Pick) → Option (Clients Op Ans σ Req Res)
  | [] => some c
  | m :: ms =>
      match move S program edit choose c m with
      | some c' => if test c c' then script test c' ms else none
      | none => none

variable {S} {program} {edit} {choose}

theorem step_of_move
    (hchoose : ∀ s op pick, S.answers s op (choose s op pick).1 (choose s op pick).2)
    {m : Move Req Edit Pick} (h : move S program edit choose c m = some c') :
    Step S program edit c c' := by
  cases m with
  | arrive r =>
    cases h
    exact .arrive c r
  | edit e =>
    cases h
    exact .edit c e
  | exchange i pick =>
    rw [move] at h
    split at h
    · next r tr op k hi =>
      cases h
      exact .exchange hi (hchoose _ _ _)
    · cases h

/-- A script that fits is a run. -/
theorem leads_of_script
    (hchoose : ∀ s op pick, S.answers s op (choose s op pick).1 (choose s op pick).2)
    {test : Clients Op Ans σ Req Res → Clients Op Ans σ Req Res → Bool}
    (htest : ∀ c c', test c c' = true → ok c c') {ms : List (Move Req Edit Pick)}
    (h : script S program edit choose test c ms = some c') : Leads S program edit ok c c' := by
  induction ms generalizing c with
  | nil =>
    cases h
    exact .refl
  | cons m ms ih =>
    rw [script] at h
    split at h
    · next d hd =>
      split at h
      · next hok => exact .head ⟨step_of_move hchoose hd, htest _ _ hok⟩ (ih h)
      · cases h
    · cases h

/-- What a script is seen to reach is reached by a run. -/
theorem reached_of_script
    (hchoose : ∀ s op pick, S.answers s op (choose s op pick).1 (choose s op pick).2)
    {t : Clients Op Ans σ Req Res → Clients Op Ans σ Req Res → Bool}
    (htest : ∀ c c', t c c' = true → ok c c') {ms : List (Move Req Edit Pick)}
    {seen : Clients Op Ans σ Req Res → Bool}
    (h : (script S program edit choose t c ms).any seen = true) :
    ∃ c', Leads S program edit ok c c' ∧ seen c' = true := by
  obtain ⟨c', hc', hseen⟩ := (Option.any_eq_true _ _).mp h
  exact ⟨c', leads_of_script hchoose htest hc', hseen⟩

end

end Interleave.Service
