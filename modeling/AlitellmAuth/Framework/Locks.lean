import AlitellmAuth.Framework.Ledger

/-! # Locks that expire

    A lock of the store has no owner: `acquire` sets it if it is free, `release`
    deletes it, and it disappears by itself when its time is over. Whether it
    excludes anybody is therefore a property of the threads and of the clock.

    * `Holder`: a thread has acquired a lock and has not released it.
    * `Disciplined`: threads acquire locks for some time and release only what
      they hold.
    * `reach_exclusive`: if time never runs out on a lock that is set, then a
      lock has at most one holder.
-/

namespace Interleave

variable {K : Type} {Rec : K → Type} {Ext : Type} {Reply : Ext → Type} {Req Res : Type}

/-- Thread `i` has acquired the lock and not released it. -/
def Holder (log : List (Entry K Rec Reply)) (i : Nat) (name : String) : Prop :=
  (∃ ttl, (⟨.acquire name ttl, true⟩ : Event (Op K Rec Ext) (Op.Ans Reply)) ∈ traceOf i log) ∧
  (⟨.release name, ()⟩ : Event (Op K Rec Ext) (Op.Ans Reply)) ∉ traceOf i log

/-- Threads acquire locks for some time, and release only what they hold. -/
def Disciplined (log : List (Entry K Rec Reply)) : Prop :=
  Throughout (fun h e => (∀ name ttl a, e.ev = ⟨.acquire name ttl, a⟩ → 0 < ttl) ∧
    ∀ name, e.ev = ⟨.release name, ()⟩ → Holder h e.tid name) log

/-- When time passes, it does not run out on a lock that is set. -/
def LocksLast (c c' : Config K Rec Reply Req Res) : Prop :=
  c'.world.now ≠ c.world.now → ∀ name expiry, c.world.locks name = some expiry →
    c'.world.now < expiry

/-- A lock that has a holder is set and has time left, and it has one holder. -/
structure Excludes (c : Config K Rec Reply Req Res) : Prop where
  held : ∀ i name, Holder c.log i name →
    ∃ expiry, c.world.locks name = some expiry ∧ c.world.now < expiry
  one : ∀ i j name, Holder c.log i name → Holder c.log j name → i = j

section
variable {log : List (Entry K Rec Reply)} {i j : Nat} {name : String}
  {ev : Event (Op K Rec Ext) (Op.Ans Reply)}

/-- Holding a lock is not affected by what other threads do. -/
theorem holder_ne (h : j ≠ i) : Holder (⟨j, ev⟩ :: log) i name ↔ Holder log i name := by
  rw [Holder, Holder, traceOf_ne (e := ⟨j, ev⟩) h]

/-- A thread that holds a lock after an event held it before, or has just
    acquired it. -/
theorem holder_before (h : Holder (⟨j, ev⟩ :: log) i name) :
    Holder log i name ∨ (j = i ∧ ∃ ttl, ev = ⟨.acquire name ttl, true⟩) := by
  by_cases hj : j = i
  · subst hj
    rw [Holder, traceOf_self] at h
    obtain ⟨⟨ttl, hacq⟩, hrel⟩ := h
    rcases List.mem_cons.mp hacq with heq | hacq
    · exact .inr ⟨rfl, ttl, heq.symm⟩
    · exact .inl ⟨⟨ttl, hacq⟩, fun hmem => hrel (List.mem_cons_of_mem _ hmem)⟩
  · exact .inl ((holder_ne hj).mp h)

/-- A lock that has a holder cannot be acquired. -/
theorem Excludes.free {c : Config K Rec Reply Req Res} (h : Excludes c)
    (hfree : c.world.locked name = false) (i : Nat) : ¬ Holder c.log i name := by
  intro hi
  obtain ⟨expiry, hlock, hlive⟩ := h.held i name hi
  simp [World.locked, hlock, live, hlive] at hfree

end

section
variable [DecidableEq K] {handler : Req → Prog (Op K Rec Ext) (Op.Ans Reply) Res}
  {ok : Config K Rec Reply Req Res → Config K Rec Reply Req Res → Prop}
  {c c' : Config K Rec Reply Req Res}

/-- One operation keeps the clock. -/
theorem perform_now {w w' : World K Rec} {ch : Choice Ext Reply} {op : Op K Rec Ext}
    {a : op.Ans Reply} (hp : w.perform ch op = some (a, w')) : w'.now = w.now := by
  cases op with
  | get | put | pop | release | time => cases hp; rfl
  | acquire name ttl => obtain ⟨-, rfl⟩ | ⟨-, -, rfl⟩ := perform_acquire hp <;> rfl
  | draw d =>
    obtain ⟨-, -, rfl⟩ := perform_draw hp
    rfl
  | ext e => rw [perform_ext hp]

/-- One operation other than `acquire` and `release` keeps the locks. -/
theorem perform_locks {w w' : World K Rec} {ch : Choice Ext Reply} {op : Op K Rec Ext}
    {a : op.Ans Reply} (hp : w.perform ch op = some (a, w'))
    (hacq : ∀ name ttl, op ≠ .acquire name ttl) (hrel : ∀ name, op ≠ .release name) :
    w'.locks = w.locks := by
  cases op with
  | get | put | pop | time => cases hp; rfl
  | acquire name ttl => exact absurd rfl (hacq name ttl)
  | release name => exact absurd rfl (hrel name)
  | draw d =>
    obtain ⟨-, -, rfl⟩ := perform_draw hp
    rfl
  | ext e => rw [perform_ext hp]

/-- One operation keeps exclusion. -/
theorem Excludes.perform (h : Excludes c) {i : Nat} {ch : Choice Ext Reply} {op : Op K Rec Ext}
    {a : op.Ans Reply} {w : World K Rec} {threads : List (Thread K Rec Reply Req Res)}
    (hd : Disciplined (⟨i, ⟨op, a⟩⟩ :: c.log)) (hp : c.world.perform ch op = some (a, w)) :
    Excludes { world := w, threads, log := ⟨i, ⟨op, a⟩⟩ :: c.log } := by
  have hnow := perform_now hp
  by_cases hacq : ∃ name ttl, op = .acquire name ttl
  · obtain ⟨name, ttl, rfl⟩ := hacq
    cases a with
    | false =>
      -- a failed attempt changes nothing
      have hw : w = c.world := by
        obtain ⟨-, hw⟩ | ⟨htrue, -⟩ := perform_acquire hp
        · exact hw
        · cases htrue
      have hback : ∀ j n, Holder (⟨i, ⟨.acquire name ttl, false⟩⟩ :: c.log) j n →
          Holder c.log j n := by
        intro j n hj
        rcases holder_before hj with hj | ⟨-, ttl', heq⟩
        · exact hj
        · cases heq
      refine ⟨fun j n hj => ?_, fun j k n hj hk => h.one j k n (hback j n hj) (hback k n hk)⟩
      rw [hw]
      exact h.held j n (hback j n hj)
    | true =>
      -- the lock was free, so nobody held it
      obtain ⟨hfalse, -⟩ | ⟨-, hfree, rfl⟩ := perform_acquire hp
      · cases hfalse
      have hback : ∀ j n, Holder (⟨i, ⟨.acquire name ttl, true⟩⟩ :: c.log) j n →
          (n ≠ name ∧ Holder c.log j n) ∨ (n = name ∧ j = i) := by
        intro j n hj
        by_cases hn : n = name
        · subst hn
          rcases holder_before hj with hj | ⟨rfl, -⟩
          · exact absurd hj (h.free hfree j)
          · exact .inr ⟨rfl, rfl⟩
        · rcases holder_before hj with hj | ⟨rfl, ttl', heq⟩
          · exact .inl ⟨hn, hj⟩
          · cases heq
            exact absurd rfl hn
      have httl : 0 < ttl := hd.1.1 name ttl true rfl
      refine ⟨fun j n hj => ?_, fun j k n hj hk => ?_⟩
      · rcases hback j n hj with ⟨hn, hj⟩ | ⟨rfl, rfl⟩
        · obtain ⟨expiry, hlock, hlive⟩ := h.held j n hj
          exact ⟨expiry, by simpa [Function.update, hn] using hlock, hlive⟩
        · exact ⟨c.world.now + ttl, by simp, Nat.lt_add_of_pos_right httl⟩
      · rcases hback j n hj with ⟨hn, hj⟩ | ⟨rfl, rfl⟩ <;> rcases hback k n hk with ⟨hn', hk⟩ | ⟨hn', rfl⟩
        · exact h.one j k n hj hk
        · exact absurd hn' hn
        · exact absurd rfl hn'
        · rfl
  by_cases hrel : ∃ name, op = .release name
  · obtain ⟨name, rfl⟩ := hrel
    cases hp
    -- the thread releases its own lock, which nobody else holds
    have hmine : Holder c.log i name := hd.1.2 name rfl
    have hback : ∀ j n, Holder (⟨i, ⟨.release name, ()⟩⟩ :: c.log) j n →
        n ≠ name ∧ Holder c.log j n := by
      intro j n hj
      have hj' : Holder c.log j n := by
        rcases holder_before hj with hj | ⟨-, ttl', heq⟩
        · exact hj
        · cases heq
      refine ⟨?_, hj'⟩
      rintro rfl
      obtain rfl := h.one j i n hj' hmine
      exact hj.2 (by simp)
    refine ⟨fun j n hj => ?_, fun j k n hj hk => h.one j k n (hback j n hj).2 (hback k n hk).2⟩
    obtain ⟨hn, hj⟩ := hback j n hj
    obtain ⟨expiry, hlock, hlive⟩ := h.held j n hj
    exact ⟨expiry, by simpa [Function.update, hn] using hlock, hlive⟩
  · have hlocks := perform_locks hp (fun name ttl heq => hacq ⟨name, ttl, heq⟩)
      (fun name heq => hrel ⟨name, heq⟩)
    have hback : ∀ j n, Holder (⟨i, ⟨op, a⟩⟩ :: c.log) j n → Holder c.log j n := by
      intro j n hj
      rcases holder_before hj with hj | ⟨-, ttl, heq⟩
      · exact hj
      · cases heq
        exact absurd ⟨n, ttl, rfl⟩ hacq
    refine ⟨fun j n hj => ?_, fun j k n hj hk => h.one j k n (hback j n hj) (hback k n hk)⟩
    rw [hlocks, hnow]
    exact h.held j n (hback j n hj)

/-- If every log is disciplined and no time runs out on a set lock, then locks
    exclude. -/
theorem reach_exclusive (hd : ∀ c, Reach handler ok c → Disciplined c.log)
    (hok : ∀ c c', ok c c' → LocksLast c c') (h : Reach handler ok c) : Excludes c := by
  induction h with
  | init => exact ⟨fun i name hi => by simp [Holder, Config.init] at hi,
      fun i j name hi => by simp [Holder, Config.init] at hi⟩
  | @step c c' l hr hs hk ih =>
    have hd' := hd c' (.step hr hs hk)
    obtain ⟨r, rfl⟩ | ⟨d, rfl⟩ | ⟨i, ch, r, op, k, a, w, hi, hp, rfl⟩ := step_cases hs
    · exact ⟨ih.held, ih.one⟩
    · refine ⟨fun i name hi => ?_, ih.one⟩
      obtain ⟨expiry, hlock, hlive⟩ := ih.held i name hi
      refine ⟨expiry, hlock, ?_⟩
      by_cases hd0 : d = 0
      · simpa [hd0] using hlive
      · exact hok _ _ hk (by simp [hd0]) name expiry hlock
    · exact ih.perform hd' hp

end

end Interleave
