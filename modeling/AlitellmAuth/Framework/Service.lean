import AlitellmAuth.Framework.Prog

/-! # Clients of a remote service

    A program that talks to one stateful service, call by call. The service may
    apply a call and lose the answer, or answer without applying it, as far as
    its specification lets it.

    * `Service`: what a call changes, and which answers are possible.
    * `Service.Runs`: one run of a client, with all its exchanges.
    * `Service.History`: any number of runs, one after the other, of clients
      that may have failed.

    What a client does with the answers it gets is a matter of the client
    alone, so it is proved as a contract (`Prog.Along`); `runs_along` carries
    it over to the runs.
-/

namespace Interleave

variable {Op : Type} {Ans : Op → Type} {σ Req Res : Type}

/-- A service with states `σ`: the effect of each call, and which answers it
    may give in a state, having applied the effect or not. -/
structure Service (Op : Type) (Ans : Op → Type) (σ : Type) where
  effect : Op → σ → σ
  answers : σ → (op : Op) → Bool → Ans op → Prop

/-- A call, its answer, and whether it took effect. -/
structure Exchange (Op : Type) (Ans : Op → Type) where
  op : Op
  answer : Ans op
  effective : Bool

/-- What the client sees of an exchange. -/
def Exchange.event (x : Exchange Op Ans) : Event Op Ans := ⟨x.op, x.answer⟩

/-! ## Programs that raise -/

section
variable {ε α β : Type} {Q Q' : Trace Op Ans → Event Op Ans → Prop} {tr : Trace Op Ans}

/-- Sequencing: the second program runs if the first one has not raised. -/
theorem along_run_bind {R : Trace Op Ans → Except ε α → Prop}
    {R' : Trace Op Ans → Except ε β → Prop} {p : ExceptT ε (Prog Op Ans) α}
    {f : α → ExceptT ε (Prog Op Ans) β} (hp : Prog.Along Q R tr p.run)
    (hok : ∀ tr' a, R tr' (.ok a) → Prog.Along Q R' tr' (f a).run)
    (herr : ∀ tr' e, R tr' (.error e) → R' tr' (.error e)) :
    Prog.Along Q R' tr (p >>= f).run := by
  refine along_bind hp ?_
  intro tr' res hres
  cases res with
  | ok a => exact hok tr' a hres
  | error e => exact herr tr' e hres

/-- A program that has returned is out of the way. -/
theorem run_bind_ret {p : ExceptT ε (Prog Op Ans) α} {f : α → ExceptT ε (Prog Op Ans) β} {a : α}
    (h : p.run = .ret (.ok a)) : (p >>= f).run = (f a).run := by
  show Prog.bind p.run _ = _
  rw [h]
  rfl

/-- A sequence that has returned is made of two parts that have. -/
theorem run_bind_ok {p : ExceptT ε (Prog Op Ans) α} {f : α → ExceptT ε (Prog Op Ans) β} {b : β}
    (h : (p >>= f).run = .ret (.ok b)) : ∃ a, p.run = .ret (.ok a) ∧ (f a).run = .ret (.ok b) := by
  change Prog.bind p.run _ = _ at h
  cases hp : p.run with
  | call op k =>
    rw [hp] at h
    cases h
  | ret res =>
    rw [hp] at h
    cases res with
    | ok a => exact ⟨a, rfl, h⟩
    | error e => cases h

/-- The program makes no call: it returns or raises at once. -/
def Still (p : ExceptT ε (Prog Op Ans) α) : Prop := ∃ res, p.run = .ret res

theorem still_pure (a : α) : Still (pure a : ExceptT ε (Prog Op Ans) α) := ⟨.ok a, rfl⟩

theorem still_throw (e : ε) : Still (throw e : ExceptT ε (Prog Op Ans) α) := ⟨.error e, rfl⟩

theorem still_ite {b : Prop} [Decidable b] {p q : ExceptT ε (Prog Op Ans) α} (hp : Still p)
    (hq : Still q) : Still (if b then p else q) := by
  split
  · exact hp
  · exact hq

theorem still_bind {p : ExceptT ε (Prog Op Ans) α} {f : α → ExceptT ε (Prog Op Ans) β}
    (hp : Still p) (hf : ∀ a, Still (f a)) : Still (p >>= f) := by
  obtain ⟨res, hres⟩ := hp
  cases res with
  | ok a =>
    obtain ⟨res', hres'⟩ := hf a
    exact ⟨res', (run_bind_ret hres).trans hres'⟩
  | error e =>
    refine ⟨.error e, ?_⟩
    show Prog.bind p.run _ = _
    rw [hres]
    rfl

/-- Sequencing after a program that makes no call. -/
theorem along_still_bind {R : Trace Op Ans → Except ε β → Prop} {p : ExceptT ε (Prog Op Ans) α}
    {f : α → ExceptT ε (Prog Op Ans) β} (hp : Still p)
    (hok : ∀ a, p.run = .ret (.ok a) → Prog.Along Q R tr (f a).run)
    (herr : ∀ e, R tr (.error e)) : Prog.Along Q R tr (p >>= f).run := by
  obtain ⟨res, hres⟩ := hp
  have hp : Prog.Along Q (fun tr' res' => tr' = tr ∧ res' = res) tr p.run := by
    rw [hres]
    exact ⟨rfl, rfl⟩
  refine along_run_bind hp ?_ ?_
  · rintro _ a ⟨rfl, rfl⟩
    exact hok a hres
  · rintro _ e ⟨rfl, rfl⟩
    exact herr e

/-- The handler of an exception runs where the program has raised it. -/
theorem along_run_catch {R R' : Trace Op Ans → Except ε α → Prop} {p : ExceptT ε (Prog Op Ans) α}
    {f : ε → ExceptT ε (Prog Op Ans) α} (hp : Prog.Along Q R tr p.run)
    (hok : ∀ tr' a, R tr' (.ok a) → R' tr' (.ok a))
    (herr : ∀ tr' e, R tr' (.error e) → Prog.Along Q R' tr' (f e).run) :
    Prog.Along Q R' tr (tryCatch p f).run := by
  refine along_bind hp ?_
  intro tr' res hres
  cases res with
  | ok a => exact hok tr' a hres
  | error e => exact herr tr' e hres

end

namespace Service

variable (S : Service Op Ans σ)

/-- The state after an exchange. -/
def after (s : σ) (x : Exchange Op Ans) : σ := if x.effective then S.effect x.op s else s

/-- A client that has had the exchanges of `past` runs to its end. Exchanges
    are kept newest first. -/
inductive Runs : σ → List (Exchange Op Ans) → Prog Op Ans Res → σ → List (Exchange Op Ans) → Res →
    Prop where
  | ret (s : σ) (past : List (Exchange Op Ans)) (r : Res) : Runs s past (.ret r) s past r
  | call {s s' : σ} {past xs : List (Exchange Op Ans)} {op : Op} {k : Ans op → Prog Op Ans Res}
      {answer : Ans op} {effective : Bool} {r : Res} (hans : S.answers s op effective answer)
      (hrest : Runs (S.after s ⟨op, answer, effective⟩) (⟨op, answer, effective⟩ :: past)
        (k answer) s' xs r) :
      Runs s past (.call op k) s' xs r

/-- One run of a client: what it was asked, its exchanges, how it ended, and
    the state it left behind. -/
structure Attempt (Op : Type) (Ans : Op → Type) (σ Req Res : Type) where
  req : Req
  exchanges : List (Exchange Op Ans)
  result : Res
  state : σ

/-- Runs of a client one after the other, newest first. -/
inductive History (client : Req → Prog Op Ans Res) (s₀ : σ) :
    List (Attempt Op Ans σ Req Res) → σ → Prop where
  | nil : History client s₀ [] s₀
  | cons {s s' : σ} {past : List (Attempt Op Ans σ Req Res)} {req : Req}
      {xs : List (Exchange Op Ans)} {r : Res} (h : History client s₀ past s)
      (hrun : S.Runs s [] (client req) s' xs r) :
      History client s₀ (⟨req, xs, r, s'⟩ :: past) s'

variable {S}

/-! ## Runs -/

/-- A contract of the client holds of its run. -/
theorem runs_along {Q : Trace Op Ans → Event Op Ans → Prop} {R : Trace Op Ans → Res → Prop}
    {s s' : σ} {past xs : List (Exchange Op Ans)} {p : Prog Op Ans Res} {r : Res}
    (h : S.Runs s past p s' xs r) (hp : p.Along Q R (past.map Exchange.event)) :
    R (xs.map Exchange.event) r ∧
    ∀ x ys, x :: ys <:+ xs → x :: ys <:+ past ∨ Q (ys.map Exchange.event) x.event := by
  induction h with
  | ret s past r => exact ⟨hp, fun x ys hs => .inl hs⟩
  | @call s s' past xs op k answer effective r hans hrest ih =>
    obtain ⟨hR, hQ⟩ := ih (hp answer).2
    refine ⟨hR, fun x ys hs => ?_⟩
    rcases hQ x ys hs with hs | hq
    · rcases List.suffix_cons_iff.mp hs with heq | hs
      · obtain ⟨rfl, rfl⟩ := List.cons.inj heq
        exact .inr (hp answer).1
      · exact .inl hs
    · exact .inr hq

theorem runs_past {s s' : σ} {past xs : List (Exchange Op Ans)} {p : Prog Op Ans Res} {r : Res}
    (h : S.Runs s past p s' xs r) : past <:+ xs := by
  induction h with
  | ret => exact List.suffix_rfl
  | call hans hrest ih => exact (List.suffix_cons _ _).trans ih

/-- Every exchange of a run was one the service could have. -/
theorem runs_answers {T : Exchange Op Ans → Prop}
    (hT : ∀ s op effective answer, S.answers s op effective answer → T ⟨op, answer, effective⟩)
    {s s' : σ} {past xs : List (Exchange Op Ans)} {p : Prog Op Ans Res} {r : Res}
    (h : S.Runs s past p s' xs r) (hpast : ∀ x ∈ past, T x) : ∀ x ∈ xs, T x := by
  induction h with
  | ret => exact hpast
  | call hans hrest ih =>
    refine ih ?_
    intro x hx
    rcases List.mem_cons.mp hx with rfl | hx
    · exact hT _ _ _ _ hans
    · exact hpast x hx

/-! ## What a run leaves behind -/

section
variable {P : σ → Prop}

theorem after_preserves (hP : ∀ op s, P s → P (S.effect op s)) {s : σ} (x : Exchange Op Ans)
    (hs : P s) : P (S.after s x) := by
  rw [after]
  split
  · exact hP _ _ hs
  · exact hs

/-- What no call undoes holds after a run if it held before. -/
theorem runs_preserves (hP : ∀ op s, P s → P (S.effect op s)) {s s' : σ}
    {past xs : List (Exchange Op Ans)} {p : Prog Op Ans Res} {r : Res}
    (h : S.Runs s past p s' xs r) (hs : P s) : P s' := by
  induction h with
  | ret => exact hs
  | call hans hrest ih => exact ih (after_preserves hP _ hs)

/-- And it holds after a run in which a call took effect that brings it about. -/
theorem runs_effective (hP : ∀ op s, P s → P (S.effect op s)) {s s' : σ}
    {past xs : List (Exchange Op Ans)} {p : Prog Op Ans Res} {r : Res}
    (h : S.Runs s past p s' xs r) {x : Exchange Op Ans} (hx : x ∈ xs)
    (heff : x.effective = true) (hbring : ∀ s, P (S.effect x.op s)) (hpast : x ∈ past → P s) :
    P s' := by
  induction h with
  | ret => exact hpast hx
  | @call s s' past xs op k answer effective r hans hrest ih =>
    refine ih hx ?_
    intro hmem
    rcases List.mem_cons.mp hmem with rfl | hmem
    · rw [after, if_pos heff]
      exact hbring s
    · exact after_preserves hP _ (hpast hmem)

/-- What holds after a run held before, or some call that took effect has
    brought it about. -/
theorem runs_origin {s s' : σ} {past xs : List (Exchange Op Ans)} {p : Prog Op Ans Res} {r : Res}
    (h : S.Runs s past p s' xs r) (hs : P s') :
    P s ∨ ∃ x ∈ xs, x.effective = true ∧ ∃ s₁, ¬ P s₁ ∧ P (S.effect x.op s₁) := by
  induction h with
  | ret => exact .inl hs
  | @call s s' past xs op k answer effective r hans hrest ih =>
    rcases ih hs with hP | hx
    · by_cases hbefore : P s
      · exact .inl hbefore
      · rw [after] at hP
        split at hP
        · next heff =>
          exact .inr ⟨_, (runs_past hrest).subset List.mem_cons_self, heff, s, hbefore, hP⟩
        · exact .inl hP
    · exact .inr hx

end

/-! ## Histories -/

section
variable {client : Req → Prog Op Ans Res} {s₀ : σ}

/-- Each attempt was a run from the state the earlier ones had left. -/
theorem history_at {as : List (Attempt Op Ans σ Req Res)} {s : σ} (h : S.History client s₀ as s)
    {a : Attempt Op Ans σ Req Res} {past : List (Attempt Op Ans σ Req Res)} (hs : a :: past <:+ as) :
    ∃ s₁, S.History client s₀ past s₁ ∧ S.Runs s₁ [] (client a.req) a.state a.exchanges a.result := by
  induction h with
  | nil => exact absurd hs.length_le (by simp)
  | cons h hrun ih =>
    rcases List.suffix_cons_iff.mp hs with heq | hs
    · obtain ⟨rfl, rfl⟩ := List.cons.inj heq
      exact ⟨_, h, hrun⟩
    · exact ih hs

variable {P : σ → Prop}

/-- What no call undoes still holds after later attempts. -/
theorem history_preserves (hP : ∀ op s, P s → P (S.effect op s))
    {as : List (Attempt Op Ans σ Req Res)} {s : σ} (h : S.History client s₀ as s)
    {a : Attempt Op Ans σ Req Res} (ha : a ∈ as) (hs : P a.state) : P s := by
  induction h with
  | nil => cases ha
  | cons h hrun ih =>
    rcases List.mem_cons.mp ha with rfl | ha
    · exact hs
    · exact runs_preserves hP hrun (ih ha)

/-- What holds after some attempts held at the start, or one of them has
    brought it about. -/
theorem history_origin {as : List (Attempt Op Ans σ Req Res)} {s : σ}
    (h : S.History client s₀ as s) (hs : P s) :
    P s₀ ∨ ∃ a ∈ as, ∃ x ∈ a.exchanges, x.effective = true ∧ ∃ s₁, ¬ P s₁ ∧ P (S.effect x.op s₁) := by
  induction h with
  | nil => exact .inl hs
  | cons h hrun ih =>
    rcases runs_origin hrun hs with hP | hx
    · rcases ih hP with hP | ⟨a, ha, hx⟩
      · exact .inl hP
      · exact .inr ⟨a, List.mem_cons_of_mem _ ha, hx⟩
    · exact .inr ⟨_, List.mem_cons_self, hx⟩

end

/-! ## Scripted runs -/

section
variable (check : σ → (op : Op) → Bool → Ans op → Bool)

/-- Run a client on a script of answers; `none` if the script does not fit. -/
def play : σ → List (Exchange Op Ans) → Prog Op Ans Res → List (Bool × ((op : Op) → Ans op)) →
    Option (σ × List (Exchange Op Ans) × Res)
  | s, past, .ret r, [] => some (s, past, r)
  | _, _, .ret _, _ :: _ => none
  | _, _, .call _ _, [] => none
  | s, past, .call op k, (effective, answer) :: script =>
      if check s op effective (answer op) then
        play (S.after s ⟨op, answer op, effective⟩) (⟨op, answer op, effective⟩ :: past)
          (k (answer op)) script
      else none

variable {check}

/-- A script that fits is a run. -/
theorem runs_of_play (hcheck : ∀ s op b a, check s op b a = true → S.answers s op b a)
    {script : List (Bool × ((op : Op) → Ans op))} {s s' : σ} {past xs : List (Exchange Op Ans)}
    {p : Prog Op Ans Res} {r : Res} (h : S.play check s past p script = some (s', xs, r)) :
    S.Runs s past p s' xs r := by
  induction script generalizing s past p with
  | nil =>
    cases p with
    | ret r' =>
      cases h
      exact .ret _ _ _
    | call op k => cases h
  | cons b script ih =>
    cases p with
    | ret r' => cases h
    | call op k =>
      rw [play] at h
      split at h
      · next hok => exact .call (hcheck _ _ _ _ hok) (ih h)
      · cases h

end

end Service

end Interleave
