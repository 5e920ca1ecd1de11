import Mathlib.Logic.Relation
import AlitellmAuth.Framework.Service

/-! # Attempts that may stop anywhere

    A client that is run again and again against one service, where each run
    may stop after any of its exchanges.

    * `Service.Stops`: a run that stops somewhere, or ends.
    * `Service.Attempts`: any number of them, one after the other.
    * `Service.Meets`: a contract in terms of the state of the service: what
      holds whenever the client may stop, and what holds when it ends.
    * `Service.Asks`: a contract for the requests, each in the state it is sent
      in.
-/

namespace Interleave.Service

variable {Op : Type} {Ans : Op → Type} {σ Res : Type} {ε α β : Type}

/-! ## Runs that stop -/

section
variable (S : Service Op Ans σ)

/-- A client that stops after some exchanges, and the state it leaves behind. -/
inductive Stops : σ → Prog Op Ans Res → σ → Prop where
  | here (s : σ) (p : Prog Op Ans Res) : Stops s p s
  | call {s s' : σ} {op : Op} {k : Ans op → Prog Op Ans Res} {answer : Ans op} {effective : Bool}
      (hans : S.answers s op effective answer)
      (hrest : Stops (S.after s ⟨op, answer, effective⟩) (k answer) s') : Stops s (.call op k) s'

/-- Any number of attempts of one client. -/
def Attempts (p : Prog Op Ans Res) : σ → σ → Prop :=
  Relation.ReflTransGen fun s s' => S.Stops s p s'

/-- Wherever the client stops the state meets `P`, and where it ends the state
    and the result meet `R`. -/
def Meets (P : σ → Prop) (R : σ → Res → Prop) : σ → Prog Op Ans Res → Prop
  | s, .ret r => P s ∧ R s r
  | s, .call op k => P s ∧ ∀ effective answer, S.answers s op effective answer →
      Meets P R (S.after s ⟨op, answer, effective⟩) (k answer)

end

variable {S : Service Op Ans σ} {P : σ → Prop} {s s' : σ}

theorem Meets.here {R : σ → Res → Prop} {p : Prog Op Ans Res} (h : S.Meets P R s p) : P s := by
  cases p with
  | ret r => exact h.1
  | call op k => exact h.1

/-- A client that stops has met its contract. -/
theorem Stops.meets {R : σ → Res → Prop} {p : Prog Op Ans Res} (h : S.Stops s p s')
    (hp : S.Meets P R s p) : P s' := by
  induction h with
  | here => exact hp.here
  | call hans hrest ih => exact ih (hp.2 _ _ hans)

/-- And so has a client that ends. -/
theorem Runs.meets {R : σ → Res → Prop} {p : Prog Op Ans Res} {past xs : List (Exchange Op Ans)}
    {r : Res} (h : S.Runs s past p s' xs r) (hp : S.Meets P R s p) : P s' ∧ R s' r := by
  induction h with
  | ret => exact hp
  | call hans hrest ih => exact ih (hp.2 _ _ hans)

/-- What every attempt keeps is kept by any number of them. -/
theorem Attempts.keeps {p : Prog Op Ans Res}
    (hkeeps : ∀ s s', P s → S.Stops s p s' → P s') (h : S.Attempts p s s') (hs : P s) : P s' := by
  induction h with
  | refl => exact hs
  | tail _ hstop ih => exact hkeeps _ _ ih hstop

/-- A service that gives fewer answers has fewer runs. -/
theorem Stops.weaken {S' : Service Op Ans σ} (heffect : S'.effect = S.effect)
    (hanswers : ∀ s op effective answer, S.answers s op effective answer →
      S'.answers s op effective answer) {p : Prog Op Ans Res} (h : S.Stops s p s') :
    S'.Stops s p s' := by
  induction h with
  | here => exact .here _ _
  | @call s s' op k answer effective hans hrest ih =>
    have hafter : S'.after s ⟨op, answer, effective⟩ = S.after s ⟨op, answer, effective⟩ := by
      rw [after, after, heffect]
    exact .call (hanswers _ _ _ _ hans) (hafter ▸ ih)

theorem Runs.weaken {S' : Service Op Ans σ} (heffect : S'.effect = S.effect)
    (hanswers : ∀ s op effective answer, S.answers s op effective answer →
      S'.answers s op effective answer) {p : Prog Op Ans Res} {past xs : List (Exchange Op Ans)}
    {r : Res} (h : S.Runs s past p s' xs r) : S'.Runs s past p s' xs r := by
  induction h with
  | ret => exact .ret _ _ _
  | @call s s' past xs op k answer effective r hans hrest ih =>
    have hafter : S'.after s ⟨op, answer, effective⟩ = S.after s ⟨op, answer, effective⟩ := by
      rw [after, after, heffect]
    exact .call (hanswers _ _ _ _ hans) (hafter ▸ ih)

/-! ## Rules -/

/-- The rule for one call. -/
theorem meets_call {R : σ → Res → Prop} {op : Op} {k : Ans op → Prog Op Ans Res} (hs : P s)
    (h : ∀ effective answer, S.answers s op effective answer →
      S.Meets P R (S.after s ⟨op, answer, effective⟩) (k answer)) :
    S.Meets P R s (.call op k) :=
  ⟨hs, h⟩

theorem Meets.mono {R R' : σ → Res → Prop} {p : Prog Op Ans Res}
    (hR : ∀ s r, P s → R s r → R' s r) (h : S.Meets P R s p) : S.Meets P R' s p := by
  induction p generalizing s with
  | ret r => exact ⟨h.1, hR _ _ h.1 h.2⟩
  | call op k ih => exact ⟨h.1, fun effective answer hans => ih _ (h.2 effective answer hans)⟩

/-- What holds throughout may be weakened. -/
theorem Meets.weaken {P' : σ → Prop} {R : σ → Res → Prop} {p : Prog Op Ans Res}
    (hP : ∀ s, P s → P' s) (h : S.Meets P R s p) : S.Meets P' R s p := by
  induction p generalizing s with
  | ret r => exact ⟨hP _ h.1, h.2⟩
  | call op k ih => exact ⟨hP _ h.1, fun effective answer hans => ih _ (h.2 effective answer hans)⟩

/-- A program all of whose calls keep `P` keeps `P`. -/
theorem meets_of_along {ok : Op → Prop} {p : Prog Op Ans Res} {tr : Trace Op Ans}
    (hp : p.Along (fun _ e => ok e.1) (fun _ _ => True) tr)
    (hok : ∀ s op effective answer, ok op → P s → P (S.after s ⟨op, answer, effective⟩)) (hs : P s) :
    S.Meets P (fun _ _ => True) s p := by
  induction p generalizing s tr with
  | ret r => exact ⟨hs, trivial⟩
  | call op k ih =>
    refine ⟨hs, fun effective answer hans => ih answer (hp answer).2 ?_⟩
    exact hok _ _ _ _ (hp answer).1 hs

theorem meets_bind {R : σ → α → Prop} {R' : σ → β → Prop} {p : Prog Op Ans α}
    {f : α → Prog Op Ans β} (hp : S.Meets P R s p)
    (hf : ∀ s' a, P s' → R s' a → S.Meets P R' s' (f a)) : S.Meets P R' s (p >>= f) := by
  induction p generalizing s with
  | ret a => exact hf s a hp.1 hp.2
  | call op k ih => exact ⟨hp.1, fun effective answer hans => ih _ (hp.2 effective answer hans)⟩

section
variable {R' : σ → Except ε β → Prop} {p : ExceptT ε (Prog Op Ans) α}
  {f : α → ExceptT ε (Prog Op Ans) β}

/-- Sequencing: the second program runs if the first one has not raised. -/
theorem meets_run_bind {R : σ → Except ε α → Prop} (hp : S.Meets P R s p.run)
    (hok : ∀ s' a, P s' → R s' (.ok a) → S.Meets P R' s' (f a).run)
    (herr : ∀ s' e, P s' → R s' (.error e) → R' s' (.error e)) :
    S.Meets P R' s (p >>= f).run := by
  refine meets_bind hp ?_
  intro s' res hs hres
  cases res with
  | ok a => exact hok s' a hs hres
  | error e => exact ⟨hs, herr s' e hs hres⟩

/-- Sequencing after a program that makes no call. -/
theorem meets_still_bind (hs : P s) (hp : Still p)
    (hok : ∀ a, p.run = .ret (.ok a) → S.Meets P R' s (f a).run)
    (herr : ∀ e, p.run = .ret (.error e) → R' s (.error e)) : S.Meets P R' s (p >>= f).run := by
  obtain ⟨res, hres⟩ := hp
  cases res with
  | ok a =>
    rw [run_bind_ret hres]
    exact hok a hres
  | error e =>
    show S.Meets P R' s (Prog.bind p.run _)
    rw [hres]
    exact ⟨hs, herr e hres⟩

/-- The handler of an exception runs where the program has raised it. -/
theorem meets_run_catch {R R' : σ → Except ε α → Prop} {p : ExceptT ε (Prog Op Ans) α}
    {f : ε → ExceptT ε (Prog Op Ans) α} (hp : S.Meets P R s p.run)
    (hok : ∀ s' a, P s' → R s' (.ok a) → R' s' (.ok a))
    (herr : ∀ s' e, P s' → R s' (.error e) → S.Meets P R' s' (f e).run) :
    S.Meets P R' s (tryCatch p f).run := by
  refine meets_bind hp ?_
  intro s' res hs hres
  cases res with
  | ok a => exact ⟨hs, hok s' a hs hres⟩
  | error e => exact herr s' e hs hres

end

/-! ## What a client asks -/

variable (S) in
/-- Every request meets `Q` in the state in which it is sent, and where the
    client ends the state and the result meet `R`. -/
def Asks (Q : σ → Op → Prop) (R : σ → Res → Prop) : σ → Prog Op Ans Res → Prop
  | s, .ret r => R s r
  | s, .call op k => ∀ effective answer, S.answers s op effective answer →
      Q s op ∧ Asks Q R (S.after s ⟨op, answer, effective⟩) (k answer)

section
variable {Q : σ → Op → Prop}

theorem Runs.asks {R : σ → Res → Prop} {p : Prog Op Ans Res} {past xs : List (Exchange Op Ans)}
    {r : Res} (h : S.Runs s past p s' xs r) (hp : S.Asks Q R s p) :
    R s' r ∧ ∀ x ∈ xs, x ∈ past ∨ ∃ s₁, Q s₁ x.op := by
  induction h with
  | ret => exact ⟨hp, fun x hx => .inl hx⟩
  | @call s s' past xs op k answer effective r hans hrest ih =>
    obtain ⟨hR, hasked⟩ := ih (hp _ _ hans).2
    refine ⟨hR, fun x hx => ?_⟩
    rcases hasked x hx with hmem | hq
    · rcases List.mem_cons.mp hmem with rfl | hmem
      · exact .inr ⟨s, (hp _ _ hans).1⟩
      · exact .inl hmem
    · exact .inr hq

/-- A program whose requests are all of one kind, and what it does to the state. -/
theorem asks_of_along {R : σ → Res → Prop} {ok : Op → Prop} {p : Prog Op Ans Res}
    {tr : Trace Op Ans} (hp : p.Along (fun _ e => ok e.1) (fun _ _ => True) tr)
    (hok : ∀ s op, ok op → Q s op) (h : S.Meets P R s p) : S.Asks Q R s p := by
  induction p generalizing s tr with
  | ret r => exact h.2
  | call op k ih =>
    intro effective answer hans
    exact ⟨hok s op (hp answer).1, ih answer (hp answer).2 (h.2 _ _ hans)⟩

theorem asks_bind {R : σ → α → Prop} {R' : σ → β → Prop} {p : Prog Op Ans α}
    {f : α → Prog Op Ans β} (hp : S.Asks Q R s p)
    (hf : ∀ s' a, R s' a → S.Asks Q R' s' (f a)) : S.Asks Q R' s (p >>= f) := by
  induction p generalizing s with
  | ret a => exact hf s a hp
  | call op k ih =>
    intro effective answer hans
    exact ⟨(hp _ _ hans).1, ih _ (hp _ _ hans).2⟩

variable {R' : σ → Except ε β → Prop} {p : ExceptT ε (Prog Op Ans) α}
  {f : α → ExceptT ε (Prog Op Ans) β}

theorem asks_run_bind {R : σ → Except ε α → Prop} (hp : S.Asks Q R s p.run)
    (hok : ∀ s' a, R s' (.ok a) → S.Asks Q R' s' (f a).run)
    (herr : ∀ s' e, R s' (.error e) → R' s' (.error e)) : S.Asks Q R' s (p >>= f).run := by
  refine asks_bind hp ?_
  intro s' res hres
  cases res with
  | ok a => exact hok s' a hres
  | error e => exact herr s' e hres

theorem asks_still_bind (hp : Still p) (hok : ∀ a, p.run = .ret (.ok a) → S.Asks Q R' s (f a).run)
    (herr : ∀ e, R' s (.error e)) : S.Asks Q R' s (p >>= f).run := by
  obtain ⟨res, hres⟩ := hp
  cases res with
  | ok a =>
    rw [run_bind_ret hres]
    exact hok a hres
  | error e =>
    show S.Asks Q R' s (Prog.bind p.run _)
    rw [hres]
    exact herr e

end

/-! ## Scripted runs -/

section
variable {Pick : Type} (S) (choose : σ → (op : Op) → Pick → Bool × Ans op)

/-- Where a client stops after as many exchanges as there are picks. -/
def stop : σ → Prog Op Ans Res → List Pick → σ
  | s, .call op k, pick :: picks =>
      stop (S.after s ⟨op, (choose s op pick).2, (choose s op pick).1⟩) (k (choose s op pick).2) picks
  | s, _, _ => s

/-- Run a client to its end with one pick for every call, as long as the
    answers pass the test. -/
def finish (pick : Pick) (test : σ → (op : Op) → Bool → Ans op → Bool) :
    σ → List (Exchange Op Ans) → Prog Op Ans Res → Option (σ × List (Exchange Op Ans) × Res)
  | s, past, .ret r => some (s, past, r)
  | s, past, .call op k =>
      if test s op (choose s op pick).1 (choose s op pick).2 then
        finish pick test (S.after s ⟨op, (choose s op pick).2, (choose s op pick).1⟩)
          (⟨op, (choose s op pick).2, (choose s op pick).1⟩ :: past) (k (choose s op pick).2)
      else none

variable {S} {choose}

theorem stops_of_stop
    (hchoose : ∀ s op pick, S.answers s op (choose s op pick).1 (choose s op pick).2)
    (p : Prog Op Ans Res) (s : σ) (picks : List Pick) : S.Stops s p (S.stop choose s p picks) := by
  induction p generalizing s picks with
  | ret r => exact .here _ _
  | call op k ih =>
    cases picks with
    | nil => exact .here _ _
    | cons pick picks => exact .call (hchoose s op pick) (ih _ _ _)

theorem runs_of_finish {pick : Pick} {test : σ → (op : Op) → Bool → Ans op → Bool}
    (htest : ∀ s op, test s op (choose s op pick).1 (choose s op pick).2 = true →
      S.answers s op (choose s op pick).1 (choose s op pick).2)
    {p : Prog Op Ans Res} {past xs : List (Exchange Op Ans)} {r : Res}
    (h : S.finish choose pick test s past p = some (s', xs, r)) : S.Runs s past p s' xs r := by
  induction p generalizing s past with
  | ret r =>
    cases h
    exact .ret _ _ _
  | call op k ih =>
    rw [finish] at h
    split at h
    · next hok => exact .call (htest s op hok) (ih _ h)
    · cases h

end

end Interleave.Service
