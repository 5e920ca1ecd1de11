import AlitellmAuth.Framework.Pool

/-! # A handler that runs alone

    One handler on a world that nobody else touches. Everything the handler
    does not decide itself comes from outside: what the remote parties answer,
    which identifiers are drawn, and how much time passes before each
    operation. The run is a function of that, so a handler always ends.

    * `Outside`: the choices from outside, each a function of the past.
    * `alone`: the world, the trace and the result at the end.
    * `perform_answer`: each operation is one that the pool can perform, as
      far as the draw is one that it admits.
-/

namespace Interleave

section
variable {K Ext : Type} (Rec : K → Type) (Reply : Ext → Type)

/-- What is decided outside the handler. -/
structure Outside where
  reply : Trace (Op K Rec Ext) (Op.Ans Reply) → (e : Ext) → Reply e
  draw : Trace (Op K Rec Ext) (Op.Ans Reply) → Draw → String
  wait : Trace (Op K Rec Ext) (Op.Ans Reply) → Nat

/-- How a handler ends. -/
structure Ended (α : Type) where
  world : World K Rec
  trace : Trace (Op K Rec Ext) (Op.Ans Reply)
  result : α

end

variable {K Ext : Type} {Rec : K → Type} {Reply : Ext → Type} {α β : Type}

/-- Time passes. -/
def World.tick (w : World K Rec) (d : Nat) : World K Rec := { w with now := w.now + d }

variable [DecidableEq K]

/-- One operation of a handler that runs alone. -/
def Outside.answer (o : Outside Rec Reply) (tr : Trace (Op K Rec Ext) (Op.Ans Reply))
    (w : World K Rec) : (op : Op K Rec Ext) → op.Ans Reply × World K Rec
  | .get k key => (w.lookup k key, w)
  | .put k key v ttl =>
      ((), { w with store := update w.store k key (some (v, ttl.map (w.now + ·))) })
  | .pop k key => (w.lookup k key, { w with store := update w.store k key none })
  | .acquire name ttl =>
      if w.locked name then (false, w)
      else (true, { w with locks := Function.update w.locks name (some (w.now + ttl)) })
  | .release name => ((), { w with locks := Function.update w.locks name none })
  | .draw d => (o.draw tr d, { w with drawn := o.draw tr d :: w.drawn })
  | .time => (w.now, w)
  | .ext e => (o.reply tr e, w)

/-- Run a handler to its end. -/
def alone (o : Outside Rec Reply) :
    World K Rec → Trace (Op K Rec Ext) (Op.Ans Reply) → Prog (Op K Rec Ext) (Op.Ans Reply) α →
      Ended Rec Reply α
  | w, tr, .ret a => ⟨w, tr, a⟩
  | w, tr, .call op k =>
      let (a, w') := o.answer tr (w.tick (o.wait tr)) op
      alone o w' (⟨op, a⟩ :: tr) (k a)

variable {o : Outside Rec Reply} {w : World K Rec} {tr : Trace (Op K Rec Ext) (Op.Ans Reply)}

/-! ## The operations are those of the pool -/

/-- The choice of the environment that an operation stands for. -/
def Outside.choice (o : Outside Rec Reply) (tr : Trace (Op K Rec Ext) (Op.Ans Reply)) :
    Op K Rec Ext → Choice Ext Reply
  | .draw d => .draw (o.draw tr d)
  | .ext _ => .reply fun e => some (o.reply tr e)
  | _ => .auto

/-- A draw is one that the pool can make. -/
def Outside.Fits (o : Outside Rec Reply) (tr : Trace (Op K Rec Ext) (Op.Ans Reply))
    (w : World K Rec) : Op K Rec Ext → Prop
  | .draw d => d.admits (o.draw tr d) = true ∧ o.draw tr d ∉ w.drawn
  | _ => True

theorem perform_answer {op : Op K Rec Ext} (h : o.Fits tr w op) :
    w.perform (o.choice tr op) op = some (o.answer tr w op) := by
  cases op with
  | get | put | pop | release | time => rfl
  | acquire name ttl =>
    show (if w.locked name then some (false, w) else some (true, _)) =
      some (if w.locked name then (false, w) else (true, _))
    split
    · rfl
    · rfl
  | draw d =>
    obtain ⟨hadmits, hnew⟩ := h
    show (if d.admits (o.draw tr d) && !w.drawn.contains (o.draw tr d) then _ else none) = _
    rw [if_pos]
    · rfl
    · simp [hadmits, hnew]
  | ext e => rfl

/-! ## Rules -/

@[simp] theorem alone_ret (a : α) : alone o w tr (.ret a) = ⟨w, tr, a⟩ := rfl

section
variable {k : K} {key : String}

theorem alone_get {f : Option (Rec k) → Prog (Op K Rec Ext) (Op.Ans Reply) α} :
    alone o w tr (Prog.await (.get k key) >>= f) =
      alone o (w.tick (o.wait tr)) (⟨.get k key, (w.tick (o.wait tr)).lookup k key⟩ :: tr)
        (f ((w.tick (o.wait tr)).lookup k key)) := rfl

theorem alone_pop {f : Option (Rec k) → Prog (Op K Rec Ext) (Op.Ans Reply) α} :
    alone o w tr (Prog.await (.pop k key) >>= f) =
      alone o { w.tick (o.wait tr) with store := update w.store k key none }
        (⟨.pop k key, (w.tick (o.wait tr)).lookup k key⟩ :: tr)
        (f ((w.tick (o.wait tr)).lookup k key)) := rfl

theorem alone_put {v : Rec k} {ttl : Option Nat}
    {f : Unit → Prog (Op K Rec Ext) (Op.Ans Reply) α} :
    alone o w tr (Prog.await (.put k key v ttl) >>= f) =
      alone o { w.tick (o.wait tr) with
          store := update w.store k key (some (v, ttl.map ((w.tick (o.wait tr)).now + ·))) }
        (⟨.put k key v ttl, ()⟩ :: tr) (f ()) := rfl

theorem alone_ext {e : Ext} {f : Reply e → Prog (Op K Rec Ext) (Op.Ans Reply) α} :
    alone o w tr (Prog.await (.ext e) >>= f) =
      alone o (w.tick (o.wait tr)) (⟨.ext e, o.reply tr e⟩ :: tr) (f (o.reply tr e)) := rfl

end

/-- The second program goes on where the first one has ended. -/
theorem alone_bind (p : Prog (Op K Rec Ext) (Op.Ans Reply) α)
    (f : α → Prog (Op K Rec Ext) (Op.Ans Reply) β) :
    alone o w tr (p >>= f) =
      alone o (alone o w tr p).world (alone o w tr p).trace (f (alone o w tr p).result) := by
  induction p generalizing w tr with
  | ret a => rfl
  | call op k ih => exact ih _

/-- The trace grows. -/
theorem alone_suffix (p : Prog (Op K Rec Ext) (Op.Ans Reply) α) : tr <:+ (alone o w tr p).trace := by
  induction p generalizing w tr with
  | ret a => exact List.suffix_rfl
  | call op k ih => exact (List.suffix_cons _ _).trans (ih _)

theorem answer_now (op : Op K Rec Ext) : (o.answer tr w op).2.now = w.now := by
  cases op with
  | acquire name ttl =>
    show (if w.locked name then (false, w) else (true, _)).2.now = w.now
    split
    · rfl
    · rfl
  | get | put | pop | release | draw | time | ext => rfl

/-- Time does not go back. -/
theorem alone_now (p : Prog (Op K Rec Ext) (Op.Ans Reply) α) :
    w.now ≤ (alone o w tr p).world.now := by
  induction p generalizing w tr with
  | ret a => exact Nat.le_refl _
  | call op k ih =>
    calc w.now ≤ (w.tick (o.wait tr)).now := Nat.le_add_right _ _
      _ = (o.answer tr (w.tick (o.wait tr)) op).2.now := (answer_now op).symm
      _ ≤ (alone o w tr (.call op k)).world.now := ih _

/-- The first operation is no later than the end. -/
theorem alone_first {op : Op K Rec Ext} (f : op.Ans Reply → Prog (Op K Rec Ext) (Op.Ans Reply) α) :
    (w.tick (o.wait tr)).now ≤ (alone o w tr (Prog.await op >>= f)).world.now := by
  calc (w.tick (o.wait tr)).now = (o.answer tr (w.tick (o.wait tr)) op).2.now := (answer_now op).symm
    _ ≤ (alone o w tr (Prog.await op >>= f)).world.now := alone_now _

/-- A record that has not expired at the end had not expired before. -/
theorem live_mono {now now' : Nat} (hle : now ≤ now') {expiry : Option Nat}
    (h : live now' expiry = true) : live now expiry = true := by
  cases expiry with
  | none => rfl
  | some t =>
    have hlt : now' < t := of_decide_eq_true h
    exact decide_eq_true (Nat.lt_of_le_of_lt hle hlt)

end Interleave
