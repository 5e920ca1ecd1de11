import Mathlib.Init

/-! # Programs that await

    A request handler is modelled as a tree: it has either returned, or it
    awaits the answer of one operation and continues with that answer. Every
    `await` of the handler is one node of the tree, so a scheduler that runs
    several handlers can switch between them exactly at the nodes.

    * `Prog`: the trees, with their monad structure.
    * `Prog.Along`: a contract on every operation a program performs, and on
      every value it returns, in terms of the program's own past.

    Traces are kept newest first, so that "the past of an event" is the tail
    of the list it heads.
-/

namespace Interleave

variable {Op : Type} {Ans : Op → Type} {α β : Type}

/-! ## Programs -/

/-- A program over operations `Op` with answers `Ans`. -/
inductive Prog (Op : Type) (Ans : Op → Type) (α : Type) where
  | ret (a : α)
  | call (op : Op) (k : Ans op → Prog Op Ans α)

namespace Prog

/-- Sequencing: the second program starts when the first one returns. -/
def bind : Prog Op Ans α → (α → Prog Op Ans β) → Prog Op Ans β
  | .ret a, f => f a
  | .call op k, f => .call op (fun r => (k r).bind f)

instance : Monad (Prog Op Ans) where
  pure := .ret
  bind := Prog.bind

/-- Await one operation and return its answer. -/
def await (op : Op) : Prog Op Ans (Ans op) := .call op .ret

/-- The result of a program if every operation is answered by one function. -/
def answered (answer : (op : Op) → Ans op) : Prog Op Ans α → α
  | .ret a => a
  | .call op k => (k (answer op)).answered answer

/-- The operations it performs on the way, in order. -/
def asked (answer : (op : Op) → Ans op) : Prog Op Ans α → List Op
  | .ret _ => []
  | .call op k => op :: (k (answer op)).asked answer

/-- The operation a program is waiting for, if it has not returned. -/
def awaiting : Prog Op Ans α → Option Op
  | .ret _ => none
  | .call op _ => some op

@[simp] theorem pure_eq (a : α) : (pure a : Prog Op Ans α) = .ret a := rfl

@[simp] theorem ret_bind (a : α) (f : α → Prog Op Ans β) : (.ret a >>= f) = f a := rfl

@[simp] theorem call_bind (op : Op) (k : Ans op → Prog Op Ans α) (f : α → Prog Op Ans β) :
    (.call op k >>= f) = .call op (fun r => k r >>= f) := rfl

@[simp] theorem await_bind (op : Op) (f : Ans op → Prog Op Ans β) :
    (await op >>= f) = .call op f := rfl

theorem bind_assoc {γ : Type} (p : Prog Op Ans α) (f : α → Prog Op Ans β) (g : β → Prog Op Ans γ) :
    (p >>= f) >>= g = p >>= fun a => f a >>= g := by
  induction p with
  | ret a => rfl
  | call op k ih =>
    show Prog.call op _ = Prog.call op _
    congr 1
    funext r
    exact ih r

theorem answered_bind (answer : (op : Op) → Ans op) (p : Prog Op Ans α) (f : α → Prog Op Ans β) :
    (p >>= f).answered answer = (f (p.answered answer)).answered answer := by
  induction p with
  | ret a => rfl
  | call op k ih => exact ih (answer op)

theorem asked_bind (answer : (op : Op) → Ans op) (p : Prog Op Ans α) (f : α → Prog Op Ans β) :
    (p >>= f).asked answer = p.asked answer ++ (f (p.answered answer)).asked answer := by
  induction p with
  | ret a => rfl
  | call op k ih =>
    show op :: (k (answer op) >>= f).asked answer = _
    rw [ih]
    rfl

end Prog

/-! ## Traces -/

/-- An operation together with the answer it got. -/
abbrev Event (Op : Type) (Ans : Op → Type) := (op : Op) × Ans op

/-- The events of one program, newest first. -/
abbrev Trace (Op : Type) (Ans : Op → Type) := List (Event Op Ans)

/-! ## Contracts along a program -/

/-- Every event the program can still perform meets `Q` of its past, and every
    value it can return meets `R` of the whole trace. The last argument but
    one is the trace performed so far. -/
def Prog.Along (Q : Trace Op Ans → Event Op Ans → Prop) (R : Trace Op Ans → α → Prop) :
    Trace Op Ans → Prog Op Ans α → Prop
  | tr, .ret a => R tr a
  | tr, .call op k => ∀ a, Q tr ⟨op, a⟩ ∧ (k a).Along Q R (⟨op, a⟩ :: tr)

section along
variable {Q Q' : Trace Op Ans → Event Op Ans → Prop}

@[simp] theorem along_ret {R : Trace Op Ans → α → Prop} {tr : Trace Op Ans} {a : α} :
    (Prog.ret a : Prog Op Ans α).Along Q R tr ↔ R tr a := Iff.rfl

@[simp] theorem along_call {R : Trace Op Ans → α → Prop} {tr : Trace Op Ans} {op : Op}
    {k : Ans op → Prog Op Ans α} :
    (Prog.call op k).Along Q R tr ↔
      ∀ a, Q tr ⟨op, a⟩ ∧ (k a).Along Q R (⟨op, a⟩ :: tr) := Iff.rfl

/-- The rule for one awaited operation. -/
theorem along_await {S : Trace Op Ans → β → Prop} {tr : Trace Op Ans} {op : Op}
    {f : Ans op → Prog Op Ans β}
    (h : ∀ a, Q tr ⟨op, a⟩ ∧ (f a).Along Q S (⟨op, a⟩ :: tr)) :
    (Prog.await op >>= f).Along Q S tr := h

/-- The rule for sequencing: a contract of the first part whose results are
    what the second part starts from. -/
theorem along_bind {R : Trace Op Ans → α → Prop} {S : Trace Op Ans → β → Prop}
    {p : Prog Op Ans α} {f : α → Prog Op Ans β} {tr : Trace Op Ans}
    (hp : p.Along Q R tr) (hf : ∀ tr' a, R tr' a → (f a).Along Q S tr') :
    (p >>= f).Along Q S tr := by
  induction p generalizing tr with
  | ret a => exact hf tr a hp
  | call op k ih =>
    intro a
    exact ⟨(hp a).1, ih a (hp a).2⟩

/-- The rule for a conditional. -/
theorem along_ite {R : Trace Op Ans → α → Prop} {c : Prop} [Decidable c] {p q : Prog Op Ans α}
    {tr : Trace Op Ans} (hp : c → p.Along Q R tr) (hq : ¬ c → q.Along Q R tr) :
    (if c then p else q).Along Q R tr := by
  split
  · exact hp ‹_›
  · exact hq ‹_›

/-- What a segment of a program leaves behind: the trace before it, extended
    by events that meet `S` together with the result. -/
def After (tr : Trace Op Ans) (S : Trace Op Ans → α → Prop) (tr' : Trace Op Ans) (a : α) : Prop :=
  ∃ seg, tr' = seg ++ tr ∧ S seg a

/-- Contracts may be weakened. -/
theorem along_mono {R R' : Trace Op Ans → α → Prop} {p : Prog Op Ans α} {tr : Trace Op Ans}
    (hQ : ∀ tr e, Q tr e → Q' tr e) (hR : ∀ tr a, R tr a → R' tr a)
    (hp : p.Along Q R tr) : p.Along Q' R' tr := by
  induction p generalizing tr with
  | ret a => exact hR tr a hp
  | call op k ih =>
    intro a
    exact ⟨hQ _ _ (hp a).1, ih a (hp a).2⟩

theorem along_of_forall (h : ∀ tr e, Q tr e) (p : Prog Op Ans α) (tr : Trace Op Ans) :
    p.Along Q (fun _ _ => True) tr := by
  induction p generalizing tr with
  | ret a => trivial
  | call op k ih => exact fun a => ⟨h _ _, ih a _⟩

/-- A program only adds to its trace. -/
theorem along_grows {R : Trace Op Ans → α → Prop} {p : Prog Op Ans α} {tr : Trace Op Ans}
    (hp : p.Along Q R tr) : p.Along Q (fun tr' a => R tr' a ∧ tr <:+ tr') tr := by
  induction p generalizing tr with
  | ret a => exact ⟨hp, List.suffix_rfl⟩
  | call op k ih =>
    intro a
    refine ⟨(hp a).1, along_mono (fun _ _ h => h) ?_ (ih a (hp a).2)⟩
    rintro tr' b ⟨hR, hs⟩
    exact ⟨hR, (List.suffix_cons _ _).trans hs⟩

/-- If every event a program performs meets `P`, then so does everything it
    adds to its trace. -/
theorem along_collect {P : Event Op Ans → Prop} {R : Trace Op Ans → α → Prop} {p : Prog Op Ans α}
    {tr : Trace Op Ans} (hp : p.Along (fun _ e => P e) R tr) :
    p.Along (fun _ e => P e)
      (fun tr' a => R tr' a ∧ tr <:+ tr' ∧ ∀ e ∈ tr', e ∈ tr ∨ P e) tr := by
  induction p generalizing tr with
  | ret a => exact ⟨hp, List.suffix_rfl, fun e he => .inl he⟩
  | call op k ih =>
    intro a
    refine ⟨(hp a).1, along_mono (fun _ _ h => h) ?_ (ih a (hp a).2)⟩
    rintro tr' b ⟨hR, hs, hmem⟩
    refine ⟨hR, (List.suffix_cons _ _).trans hs, ?_⟩
    intro e he
    rcases hmem e he with he | he
    · rcases List.mem_cons.mp he with rfl | he
      · exact .inr (hp a).1
      · exact .inl he
    · exact .inr he

/-- A program that starts after `tr₀` performs everything after `tr₀`. -/
theorem along_suffix {tr₀ tr : Trace Op Ans} (h : tr₀ <:+ tr) (p : Prog Op Ans α) :
    p.Along (fun tr _ => tr₀ <:+ tr) (fun tr _ => tr₀ <:+ tr) tr := by
  induction p generalizing tr with
  | ret a => exact h
  | call op k ih => exact fun a => ⟨h, ih a (h.trans (List.suffix_cons _ _))⟩

end along

end Interleave
