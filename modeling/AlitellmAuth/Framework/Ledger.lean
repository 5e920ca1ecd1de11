import AlitellmAuth.Framework.Pool

/-! # Reading a log

    What a log of a pool can look like. A property of runs is proved here in
    two halves that do not know of each other: what one handler does with the
    answers it gets (`Prog.Along`, no concurrency), and what the store can
    answer given everything that was done to it (`Ledger`, no handler). The
    theorem `reach_contracted` and `reach_ledger` put both in one log, and the
    rest of a proof is about that log.

    * `Throughout`: every entry of a log meets a condition on its past.
    * `contents`: the records a log leaves in the store, expiry aside.
    * `FreshKeyed`: kinds whose records are written under a just drawn key;
      such a record is written once (`put_new`) and popped once (`popped_gone`).
-/

namespace Interleave

variable {K : Type} {Rec : K → Type} {Ext : Type} {Reply : Ext → Type} {Req Res : Type}

/-! ## Conditions on every entry -/

/-- Every entry of the log meets `P` of the log before it. -/
def Throughout (P : List (Entry K Rec Reply) → Entry K Rec Reply → Prop) :
    List (Entry K Rec Reply) → Prop
  | [] => True
  | e :: h => P h e ∧ Throughout P h

theorem Throughout.suffix {P : List (Entry K Rec Reply) → Entry K Rec Reply → Prop}
    {h log : List (Entry K Rec Reply)} (hlog : Throughout P log) (hs : h <:+ log) :
    Throughout P h := by
  induction log with
  | nil => rw [List.suffix_nil.mp hs]; trivial
  | cons e log ih =>
    rcases List.suffix_cons_iff.mp hs with rfl | hs
    · exact hlog
    · exact ih hlog.2 hs

theorem Throughout.at {P : List (Entry K Rec Reply) → Entry K Rec Reply → Prop}
    {e : Entry K Rec Reply} {h log : List (Entry K Rec Reply)} (hlog : Throughout P log)
    (hs : e :: h <:+ log) : P h e :=
  (hlog.suffix hs).1

theorem Throughout.mono {P P' : List (Entry K Rec Reply) → Entry K Rec Reply → Prop}
    {log : List (Entry K Rec Reply)} (hlog : Throughout P log)
    (h : ∀ past e, P past e → P' past e) : Throughout P' log := by
  induction log with
  | nil => trivial
  | cons e log ih => exact ⟨h _ _ hlog.1, ih hlog.2⟩

/-- An entry of a log stands at some point of it. -/
theorem exists_suffix_of_mem {e : Entry K Rec Reply} {log : List (Entry K Rec Reply)}
    (h : e ∈ log) : ∃ past, e :: past <:+ log := by
  obtain ⟨later, past, rfl⟩ := List.append_of_mem h
  exact ⟨past, later, rfl⟩

/-- A member of a log or trace belongs to a given past or comes after it. -/
theorem mem_or_later {α : Type} {l past : List α} {a : α} (hs : past <:+ l) (ha : a ∈ l) :
    a ∈ past ∨ ∃ past', a :: past' <:+ l ∧ past <:+ past' := by
  obtain ⟨later, rfl⟩ := hs
  rcases List.mem_append.mp ha with ha | ha
  · obtain ⟨xs, ys, rfl⟩ := List.append_of_mem ha
    exact .inr ⟨ys ++ past, ⟨xs, by simp⟩, ys, rfl⟩
  · exact .inl ha

/-- Of two different points of a log, one is in the past of the other. -/
theorem suffix_total {α : Type} {a b : α} {past past' l : List α} (h : a :: past <:+ l)
    (h' : b :: past' <:+ l) (hne : a ≠ b) : a :: past <:+ past' ∨ b :: past' <:+ past := by
  rcases List.suffix_or_suffix_of_suffix h h' with hs | hs
  · rcases List.suffix_cons_iff.mp hs with heq | hs
    · exact absurd (List.cons.inj heq).1 hne
    · exact .inl hs
  · rcases List.suffix_cons_iff.mp hs with heq | hs
    · exact absurd (List.cons.inj heq).1.symm hne
    · exact .inr hs

/-- The past of an event in a thread's trace is the thread's trace of the past. -/
theorem exists_suffix_of_traceOf {i : Nat} {ev : Event (Op K Rec Ext) (Op.Ans Reply)}
    {tr : Trace (Op K Rec Ext) (Op.Ans Reply)} {log : List (Entry K Rec Reply)}
    (h : ev :: tr <:+ traceOf i log) :
    ∃ past, (⟨i, ev⟩ : Entry K Rec Reply) :: past <:+ log ∧ traceOf i past = tr := by
  induction log with
  | nil => simp at h
  | cons e log ih =>
    by_cases he : e.tid = i
    · obtain ⟨j, ev'⟩ := e
      obtain rfl : j = i := he
      rw [traceOf_self] at h
      rcases List.suffix_cons_iff.mp h with heq | hs
      · obtain ⟨rfl, rfl⟩ := List.cons.inj heq
        exact ⟨log, List.suffix_rfl, rfl⟩
      · obtain ⟨past, hp, ht⟩ := ih hs
        exact ⟨past, hp.trans (List.suffix_cons _ _), ht⟩
    · rw [traceOf_ne he] at h
      obtain ⟨past, hp, ht⟩ := ih h
      exact ⟨past, hp.trans (List.suffix_cons _ _), ht⟩

/-- Traces of a shorter log are tails of the traces of a longer one. -/
theorem traceOf_suffix {i : Nat} {h log : List (Entry K Rec Reply)} (hs : h <:+ log) :
    traceOf i h <:+ traceOf i log := by
  induction log with
  | nil =>
    have hnil := List.suffix_nil.mp hs
    subst hnil
    exact List.suffix_rfl
  | cons e log ih =>
    rcases List.suffix_cons_iff.mp hs with rfl | hs'
    · exact List.suffix_rfl
    · have htail := ih hs'
      by_cases he : e.tid = i
      · obtain ⟨j, ev⟩ := e
        obtain rfl : j = i := he
        rw [traceOf_self]
        exact htail.trans (List.suffix_cons _ _)
      · rw [traceOf_ne he]
        exact htail

/-- No event that meets `p` has another one in its past. -/
def Once (p : Event (Op K Rec Ext) (Op.Ans Reply) → Prop)
    (tr : Trace (Op K Rec Ext) (Op.Ans Reply)) : Prop :=
  ∀ ev past, ev :: past <:+ tr → p ev → ∀ e ∈ past, ¬ p e

/-- Then the trace has at most one such event. -/
theorem Once.eq {p : Event (Op K Rec Ext) (Op.Ans Reply) → Prop}
    {tr : Trace (Op K Rec Ext) (Op.Ans Reply)} (h : Once p tr)
    {e e' : Event (Op K Rec Ext) (Op.Ans Reply)} (he : e ∈ tr) (he' : e' ∈ tr) (hp : p e)
    (hp' : p e') : e = e' := by
  induction tr with
  | nil => cases he
  | cons ev tr ih =>
    rcases List.mem_cons.mp he with heq | hm <;> rcases List.mem_cons.mp he' with heq' | hm'
    · rw [heq, heq']
    · subst heq
      exact absurd hp' (h _ _ List.suffix_rfl hp _ hm')
    · subst heq'
      exact absurd hp (h _ _ List.suffix_rfl hp' _ hm)
    · exact ih (fun ev' past hs => h ev' past (hs.trans (List.suffix_cons _ _))) hm hm'

/-! ## What the store can answer -/

/-- The identifiers drawn in a log. -/
def draws : List (Entry K Rec Reply) → List String
  | [] => []
  | ⟨_, ⟨.draw _, s⟩⟩ :: h => s :: draws h
  | _ :: h => draws h

section
variable [DecidableEq K]

/-- The records a log leaves in the store, if none of them has expired. -/
def contents : List (Entry K Rec Reply) → (k : K) → String → Option (Rec k)
  | [] => fun _ _ => none
  | ⟨_, ⟨.put k key v _, _⟩⟩ :: h => update (contents h) k key (some v)
  | ⟨_, ⟨.pop k key, _⟩⟩ :: h => update (contents h) k key none
  | _ :: h => contents h

/-- What an answer says about the log before it: a record that is read or
    popped is the one last written, and a drawn identifier is new. -/
def Answered (h : List (Entry K Rec Reply)) (e : Entry K Rec Reply) : Prop :=
  match e.ev with
  | ⟨.get k key, a⟩ => ∀ v, a = some v → contents h k key = some v
  | ⟨.pop k key, a⟩ => ∀ v, a = some v → contents h k key = some v
  | ⟨.draw d, s⟩ => d.admits s = true ∧ s ∉ draws h
  | _ => True

/-- Every answer in the log is one the store could give. -/
abbrev Ledger (log : List (Entry K Rec Reply)) : Prop := Throughout Answered log

/-- An entry leaves a record alone unless it puts or pops it. -/
theorem contents_cons {e : Entry K Rec Reply} {log : List (Entry K Rec Reply)} {k : K}
    {key : String} (hput : ∀ v ttl, e.ev ≠ ⟨.put k key v ttl, ()⟩)
    (hpop : ∀ a, e.ev ≠ ⟨.pop k key, a⟩) : contents (e :: log) k key = contents log k key := by
  obtain ⟨j, op, a⟩ := e
  cases op with
  | put k' key' v' ttl =>
    rw [contents]
    by_cases hk : k = k'
    · subst hk
      refine update_key_ne _ _ _ ?_
      rintro rfl
      exact hput v' ttl rfl
    · exact update_kind_ne _ _ _ _ hk
  | pop k' key' =>
    rw [contents]
    by_cases hk : k = k'
    · subst hk
      refine update_key_ne _ _ _ ?_
      rintro rfl
      exact hpop a rfl
    · exact update_kind_ne _ _ _ _ hk
  | get | acquire | release | draw | time | ext => rfl

@[simp] theorem contents_put (j : Nat) (k : K) (key : String) (v : Rec k) (ttl : Option Nat)
    (u : Unit) (log : List (Entry K Rec Reply)) :
    contents (⟨j, ⟨.put k key v ttl, u⟩⟩ :: log) k key = some v := by
  simp [contents]

@[simp] theorem contents_pop (j : Nat) (k : K) (key : String) (a : Option (Rec k))
    (log : List (Entry K Rec Reply)) :
    contents ((⟨j, ⟨.pop k key, a⟩⟩ : Entry K Rec Reply) :: log) k key = none := by
  simp [contents]

/-- The entry puts or pops the record. -/
def Touches (k : K) (key : String) (e : Entry K Rec Reply) : Prop :=
  (∃ v ttl, e.ev = ⟨.put k key v ttl, ()⟩) ∨ ∃ a, e.ev = ⟨.pop k key, a⟩

/-- A record in the contents was put there, and nothing touched it since. -/
theorem contents_split {log : List (Entry K Rec Reply)} {k : K} {key : String} {v : Rec k}
    (h : contents log k key = some v) :
    ∃ i ttl later past, log = later ++ ⟨i, ⟨.put k key v ttl, ()⟩⟩ :: past ∧
      ∀ e ∈ later, ¬ Touches k key e := by
  induction log with
  | nil => simp [contents] at h
  | cons e log ih =>
    by_cases ht : Touches k key e
    · obtain ⟨j, ev⟩ := e
      obtain ⟨v', ttl, hev⟩ | ⟨a, hev⟩ := ht
      · obtain rfl : ev = ⟨.put k key v' ttl, ()⟩ := hev
        rw [contents_put] at h
        cases h
        exact ⟨j, ttl, [], log, rfl, by simp⟩
      · obtain rfl : ev = ⟨.pop k key, a⟩ := hev
        rw [contents_pop] at h
        cases h
    · rw [contents_cons (fun v' ttl hev => ht (.inl ⟨v', ttl, hev⟩))
        fun a hev => ht (.inr ⟨a, hev⟩)] at h
      obtain ⟨i, ttl, later, past, rfl, hlater⟩ := ih h
      refine ⟨i, ttl, e :: later, past, rfl, ?_⟩
      intro x hx
      rcases List.mem_cons.mp hx with rfl | hx
      · exact ht
      · exact hlater x hx

/-- What touched the record last is the put of what is there. -/
theorem put_after_touch {log : List (Entry K Rec Reply)} {k : K} {key : String} {v : Rec k}
    (h : contents log k key = some v) {e : Entry K Rec Reply} {before : List (Entry K Rec Reply)}
    (hs : e :: before <:+ log) (ht : Touches k key e) :
    ∃ i ttl past, (⟨i, ⟨.put k key v ttl, ()⟩⟩ : Entry K Rec Reply) :: past <:+ log ∧
      e :: before <:+ ⟨i, ⟨.put k key v ttl, ()⟩⟩ :: past := by
  obtain ⟨i, ttl, later, past, rfl, hlater⟩ := contents_split h
  refine ⟨i, ttl, past, ⟨later, rfl⟩, ?_⟩
  rcases List.suffix_or_suffix_of_suffix hs ⟨later, rfl⟩ with hle | ⟨l, hl⟩
  · exact hle
  · cases l with
    | nil => exact ⟨[], hl.symm⟩
    | cons x l =>
      -- the entry would stand among those that do not touch the record
      obtain ⟨rfl, rfl⟩ := List.cons.inj hl
      obtain ⟨l', hl'⟩ := hs
      have heq : (l' ++ x :: l) ++ ⟨i, ⟨.put k key v ttl, ()⟩⟩ :: past =
          later ++ ⟨i, ⟨.put k key v ttl, ()⟩⟩ :: past := by simpa using hl'
      exact absurd ht (hlater x (by simp [← List.append_cancel_right heq]))

/-- A record that was put and never popped is there. -/
theorem contents_kept {log : List (Entry K Rec Reply)} {k : K} {key : String} {i : Nat} {v : Rec k}
    {ttl : Option Nat} (hput : (⟨i, ⟨.put k key v ttl, ()⟩⟩ : Entry K Rec Reply) ∈ log)
    (hpop : ∀ j a, (⟨j, ⟨.pop k key, a⟩⟩ : Entry K Rec Reply) ∉ log) :
    ∃ w, contents log k key = some w := by
  induction log generalizing i v ttl with
  | nil => cases hput
  | cons e log ih =>
    by_cases hnew : ∃ w ttl', e.ev = ⟨.put k key w ttl', ()⟩
    · obtain ⟨w, ttl', hev⟩ := hnew
      obtain ⟨j, ev⟩ := e
      obtain rfl : ev = _ := hev
      exact ⟨w, contents_put _ _ _ _ _ _ _⟩
    · rw [contents_cons fun w ttl' hev => hnew ⟨w, ttl', hev⟩]
      · rcases List.mem_cons.mp hput with rfl | hput
        · exact absurd ⟨v, ttl, rfl⟩ hnew
        · exact ih hput fun j a hm => hpop j a (List.mem_cons_of_mem _ hm)
      · intro a hev
        obtain ⟨j, ev⟩ := e
        obtain rfl : ev = _ := hev
        exact hpop j a List.mem_cons_self

theorem put_of_contents {log : List (Entry K Rec Reply)} {k : K} {key : String} {v : Rec k}
    (h : contents log k key = some v) :
    ∃ i ttl past, (⟨i, ⟨.put k key v ttl, ()⟩⟩ : Entry K Rec Reply) :: past <:+ log := by
  obtain ⟨i, ttl, later, past, rfl, -⟩ := contents_split h
  exact ⟨i, ttl, past, later, rfl⟩

end

/-! ## Identifiers are drawn once -/

theorem mem_draws {log : List (Entry K Rec Reply)} {s : String} :
    s ∈ draws log ↔ ∃ i d, (⟨i, ⟨.draw d, s⟩⟩ : Entry K Rec Reply) ∈ log := by
  induction log with
  | nil => simp [draws]
  | cons e log ih =>
    obtain ⟨j, op, a⟩ := e
    cases op with
    | draw d =>
      constructor
      · intro h
        rcases List.mem_cons.mp h with rfl | h
        · exact ⟨j, d, List.mem_cons_self⟩
        · obtain ⟨i, d', h⟩ := ih.mp h
          exact ⟨i, d', List.mem_cons_of_mem _ h⟩
      · rintro ⟨i, d', h⟩
        rcases List.mem_cons.mp h with h | h
        · cases h; exact List.mem_cons_self
        · exact List.mem_cons_of_mem _ (ih.mpr ⟨i, d', h⟩)
    | get | put | pop | acquire | release | time | ext =>
      simp only [draws, ih, List.mem_cons]
      constructor
      · rintro ⟨i, d, h⟩; exact ⟨i, d, Or.inr h⟩
      · rintro ⟨i, d, h | h⟩
        · cases h
        · exact ⟨i, d, h⟩

section
variable [DecidableEq K]

/-- Two threads never draw the same identifier. -/
theorem drawn_by_one {log : List (Entry K Rec Reply)} (hl : Ledger log) {i j : Nat}
    {d d' : Draw} {s : String} (hi : (⟨i, ⟨.draw d, s⟩⟩ : Entry K Rec Reply) ∈ log)
    (hj : (⟨j, ⟨.draw d', s⟩⟩ : Entry K Rec Reply) ∈ log) : i = j := by
  induction log with
  | nil => simp at hi
  | cons e log ih =>
    rcases List.mem_cons.mp hi with hi' | hi' <;> rcases List.mem_cons.mp hj with hj' | hj'
    · exact congrArg Entry.tid (hi'.trans hj'.symm)
    · subst hi'; exact absurd (mem_draws.mpr ⟨j, d', hj'⟩) hl.1.2
    · subst hj'; exact absurd (mem_draws.mpr ⟨i, d, hi'⟩) hl.1.2
    · exact ih hl.2 hi' hj'

/-! ## Records under fresh keys -/

/-- Every record of kind `k` is put by a thread right after it has drawn the
    key of that record. -/
def FreshKeyed (k : K) (log : List (Entry K Rec Reply)) : Prop :=
  Throughout (fun h e => ∀ key v ttl, e.ev = ⟨.put k key v ttl, ()⟩ →
    ∃ d tr, traceOf e.tid h = ⟨.draw d, key⟩ :: tr) log

variable {k : K} {log : List (Entry K Rec Reply)}

omit [DecidableEq K] in
theorem FreshKeyed.drawn (hf : FreshKeyed k log) {i : Nat} {key : String} {v : Rec k}
    {ttl : Option Nat} (h : (⟨i, ⟨.put k key v ttl, ()⟩⟩ : Entry K Rec Reply) ∈ log) :
    ∃ d, (⟨i, ⟨.draw d, key⟩⟩ : Entry K Rec Reply) ∈ log := by
  obtain ⟨past, hs⟩ := exists_suffix_of_mem h
  obtain ⟨d, tr, ht⟩ := hf.at hs key v ttl rfl
  have hmem : (⟨.draw d, key⟩ : Event (Op K Rec Ext) (Op.Ans Reply)) ∈ traceOf i past := by
    rw [ht]; exact List.mem_cons_self
  exact ⟨d, hs.subset (List.mem_cons_of_mem _ (mem_traceOf.mp hmem))⟩

/-- As long as a thread has done nothing since it drew a key, nobody has put a
    record under that key. -/
theorem FreshKeyed.not_put (hl : Ledger log) (hf : FreshKeyed k log) {i : Nat} {d : Draw}
    {key : String} {tr : Trace (Op K Rec Ext) (Op.Ans Reply)}
    (ht : traceOf i log = ⟨.draw d, key⟩ :: tr) (j : Nat) (v : Rec k) (ttl : Option Nat) :
    (⟨j, ⟨.put k key v ttl, ()⟩⟩ : Entry K Rec Reply) ∉ log := by
  induction log with
  | nil => simp
  | cons e log ih =>
    intro hmem
    -- induction on the log; its head is the draw, or the put, or neither
    by_cases he : e.tid = i
    · obtain ⟨i', ev⟩ := e
      obtain rfl : i' = i := he
      rw [traceOf_self] at ht
      obtain ⟨rfl, -⟩ := List.cons.inj ht
      rcases List.mem_cons.mp hmem with hmem | hmem
      · cases hmem
      · have hf' : FreshKeyed k log := hf.2
        obtain ⟨d', hd⟩ := hf'.drawn hmem
        exact hl.1.2 (mem_draws.mpr ⟨j, d', hd⟩)
    · rw [traceOf_ne he] at ht
      rcases List.mem_cons.mp hmem with rfl | hmem
      · obtain ⟨d', tr', ht'⟩ := hf.1 key v ttl rfl
        -- somebody else's put has a draw of its own, of the same value
        have hi : (⟨i, ⟨.draw d, key⟩⟩ : Entry K Rec Reply) ∈ log := by
          rw [← mem_traceOf, ht]; exact List.mem_cons_self
        have hj : (⟨j, ⟨.draw d', key⟩⟩ : Entry K Rec Reply) ∈ log := by
          rw [← mem_traceOf, ht']; exact List.mem_cons_self
        exact he (drawn_by_one hl.2 hj hi)
      · exact ih hl.2 hf.2 ht hmem

/-- A record under a fresh key is put at most once. -/
theorem put_new (hl : Ledger log) (hf : FreshKeyed k log) {i : Nat} {key : String} {v : Rec k}
    {ttl : Option Nat} {past : List (Entry K Rec Reply)}
    (hs : (⟨i, ⟨.put k key v ttl, ()⟩⟩ : Entry K Rec Reply) :: past <:+ log)
    (j : Nat) (v' : Rec k) (ttl' : Option Nat) :
    (⟨j, ⟨.put k key v' ttl', ()⟩⟩ : Entry K Rec Reply) ∉ past := by
  obtain ⟨d, tr, ht⟩ := hf.at hs key v ttl rfl
  have hp : past <:+ log := (List.suffix_cons _ _).trans hs
  exact FreshKeyed.not_put (hl.suffix hp) (hf.suffix hp) ht j v' ttl'

/-- Two puts under one fresh key are one and the same log entry. -/
theorem put_unique (hl : Ledger log) (hf : FreshKeyed k log) {i j : Nat} {key : String}
    {v v' : Rec k} {ttl ttl' : Option Nat}
    (hi : (⟨i, ⟨.put k key v ttl, ()⟩⟩ : Entry K Rec Reply) ∈ log)
    (hj : (⟨j, ⟨.put k key v' ttl', ()⟩⟩ : Entry K Rec Reply) ∈ log) :
    i = j ∧ v = v' := by
  induction log with
  | nil => simp at hi
  | cons e log ih =>
    rcases List.mem_cons.mp hi with hi' | hi' <;> rcases List.mem_cons.mp hj with hj' | hj'
    · have heq := hi'.trans hj'.symm
      cases heq
      exact ⟨rfl, rfl⟩
    · subst hi'; exact absurd hj' (put_new hl hf List.suffix_rfl j v' ttl')
    · subst hj'; exact absurd hi' (put_new hl hf List.suffix_rfl i v ttl)
    · exact ih hl.2 hf.2 hi' hj'

/-- Once a record under a fresh key was put and its key was popped, the key is
    gone for good. -/
theorem gone_after_pop (hl : Ledger log) (hf : FreshKeyed k log) {i j : Nat} {key : String}
    {v : Rec k} {ttl : Option Nat} {a : Option (Rec k)} {past : List (Entry K Rec Reply)}
    (hs : (⟨i, ⟨.pop k key, a⟩⟩ : Entry K Rec Reply) :: past <:+ log)
    (hput : (⟨j, ⟨.put k key v ttl, ()⟩⟩ : Entry K Rec Reply) ∈ past) :
    contents log k key = none := by
  induction log with
  | nil => rfl
  | cons e log ih =>
    rcases List.suffix_cons_iff.mp hs with heq | hs
    · obtain ⟨rfl, -⟩ := List.cons.inj heq
      exact contents_pop _ _ _ _ _
    · have hgone := ih hl.2 hf.2 hs
      have hmem : (⟨j, ⟨.put k key v ttl, ()⟩⟩ : Entry K Rec Reply) ∈ log :=
        hs.subset (List.mem_cons_of_mem _ hput)
      by_cases hpop : ∃ a, e.ev = ⟨.pop k key, a⟩
      · obtain ⟨a, hpop⟩ := hpop
        obtain ⟨m, ev⟩ := e
        obtain rfl : ev = ⟨.pop k key, a⟩ := hpop
        exact contents_pop _ _ _ _ _
      · rw [contents_cons ?_ fun a ha => hpop ⟨a, ha⟩]
        · exact hgone
        · intro v' ttl' hev
          obtain ⟨m, ev⟩ := e
          obtain rfl : ev = ⟨.put k key v' ttl', ()⟩ := hev
          exact put_new hl hf List.suffix_rfl j v ttl hmem

/-- A record under a fresh key that was popped is gone for good. -/
theorem popped_gone (hl : Ledger log) (hf : FreshKeyed k log) {i : Nat} {key : String}
    {v : Rec k} (h : (⟨i, ⟨.pop k key, some v⟩⟩ : Entry K Rec Reply) ∈ log) :
    contents log k key = none := by
  obtain ⟨past, hs⟩ := exists_suffix_of_mem h
  obtain ⟨j, ttl, past', hput⟩ := put_of_contents (hl.at hs v rfl)
  exact gone_after_pop hl hf hs (hput.subset List.mem_cons_self)

/-- A record under a fresh key is popped at most once. -/
theorem popped_once (hl : Ledger log) (hf : FreshKeyed k log) {i j : Nat} {key : String}
    {v v' : Rec k} (hi : (⟨i, ⟨.pop k key, some v⟩⟩ : Entry K Rec Reply) ∈ log)
    (hj : (⟨j, ⟨.pop k key, some v'⟩⟩ : Entry K Rec Reply) ∈ log) : i = j ∧ v = v' := by
  induction log with
  | nil => simp at hi
  | cons e log ih =>
    rcases List.mem_cons.mp hi with hi' | hi' <;> rcases List.mem_cons.mp hj with hj' | hj'
    · have heq := hi'.trans hj'.symm
      cases heq
      exact ⟨rfl, rfl⟩
    · subst hi'
      have hgone := popped_gone hl.2 hf.2 hj'
      rw [hl.1 v rfl] at hgone
      cases hgone
    · subst hj'
      have hgone := popped_gone hl.2 hf.2 hi'
      rw [hl.1 v' rfl] at hgone
      cases hgone
    · exact ih hl.2 hf.2 hi' hj'

end

/-! ## The logs of a pool -/

section
variable [DecidableEq K] {handler : Req → Prog (Op K Rec Ext) (Op.Ans Reply) Res}
  {ok : Config K Rec Reply Req Res → Config K Rec Reply Req Res → Prop}
  {c c' : Config K Rec Reply Req Res}

/-- What one step can do. -/
theorem step_cases {l : Label Ext Reply Req} (h : c.step handler l = some c') :
    (∃ r, c' = { c with threads := c.threads ++ [⟨r, handler r⟩] }) ∨
    (∃ d, c' = { c with world := { c.world with now := c.world.now + d } }) ∨
    (∃ i ch r op k a w, c.threads[i]? = some ⟨r, .call op k⟩ ∧
      c.world.perform ch op = some (a, w) ∧
      c' = { world := w, threads := c.threads.set i ⟨r, k a⟩, log := ⟨i, ⟨op, a⟩⟩ :: c.log }) := by
  cases l with
  | spawn r => exact .inl ⟨r, (Option.some.inj h).symm⟩
  | tick d => exact .inr (.inl ⟨d, (Option.some.inj h).symm⟩)
  | perform i ch =>
    simp only [Config.step] at h
    split at h
    · next r op k hi =>
      obtain ⟨⟨a, w⟩, hp, rfl⟩ := Option.map_eq_some_iff.mp h
      exact .inr (.inr ⟨i, ch, r, op, k, a, w, hi, hp, rfl⟩)
    · cases h

/-- The store holds what the log says, expiry aside, and the drawn identifiers
    are the ones in the log. -/
structure Agrees (w : World K Rec) (log : List (Entry K Rec Reply)) : Prop where
  store : ∀ k key, (w.store k key).map Prod.fst = contents log k key
  drawn : w.drawn = draws log

theorem Agrees.lookup {w : World K Rec} {log : List (Entry K Rec Reply)} (h : Agrees w log)
    {k : K} {key : String} {v : Rec k} (hv : w.lookup k key = some v) :
    contents log k key = some v := by
  rw [← h.store]
  unfold World.lookup at hv
  split at hv
  · next v' expiry hs =>
    split at hv
    · cases hv; simp [hs]
    · cases hv
  · cases hv

theorem map_update_fst (st : (k : K) → String → Option (Rec k × Option Nat)) (k : K)
    (key : String) (v : Option (Rec k × Option Nat)) (k' : K) (key' : String) :
    (update st k key v k' key').map Prod.fst =
      update (fun k key => (st k key).map Prod.fst) k key (v.map Prod.fst) k' key' := by
  by_cases hk : k' = k
  · subst hk
    by_cases hkey : key' = key
    · subst hkey; simp
    · rw [update_key_ne _ _ _ hkey, update_key_ne _ _ _ hkey]
  · rw [update_kind_ne _ _ _ _ hk, update_kind_ne _ _ _ _ hk]

/-- One operation: its answer fits the log, and the world keeps agreeing. -/
theorem perform_agrees {w w' : World K Rec} {log : List (Entry K Rec Reply)} (h : Agrees w log)
    (i : Nat) {ch : Choice Ext Reply} {op : Op K Rec Ext} {a : op.Ans Reply}
    (hp : w.perform ch op = some (a, w')) :
    Answered log ⟨i, ⟨op, a⟩⟩ ∧ Agrees w' (⟨i, ⟨op, a⟩⟩ :: log) := by
  have hstore : (fun k key => (w.store k key).map Prod.fst) = contents log := by
    funext k key; exact h.store k key
  cases op with
  | get k key =>
    cases hp
    exact ⟨fun v hv => h.lookup hv, h.store, h.drawn⟩
  | put k key v ttl =>
    cases hp
    refine ⟨trivial, fun k' key' => ?_, h.drawn⟩
    rw [map_update_fst, hstore]; rfl
  | pop k key =>
    cases hp
    refine ⟨fun v hv => h.lookup hv, fun k' key' => ?_, h.drawn⟩
    rw [map_update_fst, hstore]; rfl
  -- the other operations leave the store alone
  | acquire name ttl =>
    obtain ⟨-, rfl⟩ | ⟨-, -, rfl⟩ := perform_acquire hp <;> exact ⟨trivial, h.store, h.drawn⟩
  | release name =>
    cases hp
    exact ⟨trivial, h.store, h.drawn⟩
  | draw d =>
    obtain ⟨hadmits, hnew, rfl⟩ := perform_draw hp
    exact ⟨⟨hadmits, h.drawn ▸ hnew⟩, h.store, congrArg (a :: ·) h.drawn⟩
  | time =>
    cases hp
    exact ⟨trivial, h.store, h.drawn⟩
  | ext e =>
    obtain rfl := perform_ext hp
    exact ⟨trivial, h.store, h.drawn⟩

/-- The world and the log of a reachable configuration agree. -/
theorem reach_agrees (h : Reach handler ok c) : Agrees c.world c.log := by
  induction h with
  | init => exact ⟨fun _ _ => rfl, rfl⟩
  | step _ hs _ ih =>
    obtain ⟨r, rfl⟩ | ⟨d, rfl⟩ | ⟨i, ch, r, op, k, a, w, -, hp, rfl⟩ := step_cases hs
    · exact ⟨ih.store, ih.drawn⟩
    · exact ⟨ih.store, ih.drawn⟩
    · exact (perform_agrees ih i hp).2

/-- The induction rule for logs: what every operation performed under the side
    condition meets, every entry of the log meets. -/
theorem reach_throughout {P : List (Entry K Rec Reply) → Entry K Rec Reply → Prop}
    (hP : ∀ c c' i ch r op k a w, Reach handler ok c → c.threads[i]? = some ⟨r, .call op k⟩ →
      c.world.perform ch op = some (a, w) → ok c c' →
      c' = { world := w, threads := c.threads.set i ⟨r, k a⟩, log := ⟨i, ⟨op, a⟩⟩ :: c.log } →
      P c.log ⟨i, ⟨op, a⟩⟩)
    (h : Reach handler ok c) : Throughout P c.log := by
  induction h with
  | init => trivial
  | step hr hs hok ih =>
    obtain ⟨r, rfl⟩ | ⟨d, rfl⟩ | ⟨i, ch, r, op, k, a, w, hi, hp, hc⟩ := step_cases hs
    · exact ih
    · exact ih
    · have hhead := hP _ _ i ch r op k a w hr hi hp hok hc
      subst hc
      exact ⟨hhead, ih⟩

/-- Every answer in the log of a pool is one the store could give. -/
theorem reach_ledger (h : Reach handler ok c) : Ledger c.log :=
  reach_throughout (fun _ _ i _ _ _ _ _ _ hr _ hp _ _ => (perform_agrees (reach_agrees hr) i hp).1) h

/-- Every shorter log was the log of a configuration on the way. -/
theorem reach_suffix (h : Reach handler ok c) {past : List (Entry K Rec Reply)}
    (hs : past <:+ c.log) : ∃ c₀, Reach handler ok c₀ ∧ c₀.log = past := by
  induction h with
  | init => exact ⟨.init, .init, (List.suffix_nil.mp hs).symm⟩
  | @step c c' l hr hstep hk ih =>
    obtain ⟨r, rfl⟩ | ⟨d, rfl⟩ | ⟨i, ch, r, op, k, a, w, hi, hp, rfl⟩ := step_cases hstep
    · exact ih hs
    · exact ih hs
    · rcases List.suffix_cons_iff.mp hs with rfl | hs
      · exact ⟨_, .step hr hstep hk, rfl⟩
      · exact ih hs

/-! ## When a record was written -/

/-- One configuration comes after another on a run. -/
inductive Leads (handler : Req → Prog (Op K Rec Ext) (Op.Ans Reply) Res)
    (ok : Config K Rec Reply Req Res → Config K Rec Reply Req Res → Prop) :
    Config K Rec Reply Req Res → Config K Rec Reply Req Res → Prop where
  | refl (c : Config K Rec Reply Req Res) : Leads handler ok c c
  | step {c d d' : Config K Rec Reply Req Res} {l : Label Ext Reply Req}
      (h : Leads handler ok c d) (hs : d.step handler l = some d') (hok : ok d d') :
      Leads handler ok c d'

theorem Leads.reach (h : Leads handler ok c c') (hc : Reach handler ok c) :
    Reach handler ok c' := by
  induction h with
  | refl => exact hc
  | step _ hs hok ih => exact .step ih hs hok

/-- A log only grows. -/
theorem Leads.log_suffix (h : Leads handler ok c c') : c.log <:+ c'.log := by
  induction h with
  | refl => exact List.suffix_rfl
  | step _ hs _ ih =>
    obtain ⟨r, rfl⟩ | ⟨d, rfl⟩ | ⟨i, ch, r, op, k, a, w, -, -, rfl⟩ := step_cases hs
    · exact ih
    · exact ih
    · exact ih.trans (List.suffix_cons _ _)

/-- A thread keeps its request. -/
theorem step_request {l : Label Ext Reply Req} (hs : c.step handler l = some c') {i : Nat} {r : Req}
    (hr : c.request i = some r) : c'.request i = some r := by
  simp only [Config.request, Option.map_eq_some_iff] at hr ⊢
  obtain ⟨th, hth, rfl⟩ := hr
  have hlt := (List.getElem?_eq_some_iff.mp hth).1
  obtain ⟨r, rfl⟩ | ⟨d, rfl⟩ | ⟨j, ch, r, op, k, a, w, hj, -, rfl⟩ := step_cases hs
  · exact ⟨th, by rw [List.getElem?_append_left hlt]; exact hth, rfl⟩
  · exact ⟨th, hth, rfl⟩
  · by_cases hij : i = j
    · subst hij
      rw [hth] at hj
      cases hj
      exact ⟨_, List.getElem?_set_self hlt, rfl⟩
    · exact ⟨th, by rw [List.getElem?_set_ne (Ne.symm hij)]; exact hth, rfl⟩

theorem Leads.request (h : Leads handler ok c c') {i : Nat} {r : Req} (hr : c.request i = some r) :
    c'.request i = some r := by
  induction h with
  | refl => exact hr
  | step _ hs _ ih => exact step_request hs ih

/-- A record is there because it was there before or because it was just put. -/
theorem perform_store {w w' : World K Rec} {ch : Choice Ext Reply} {op : Op K Rec Ext}
    {a : op.Ans Reply} (hp : w.perform ch op = some (a, w')) {k : K} {key : String} {v : Rec k}
    {expiry : Option Nat} (hs : w'.store k key = some (v, expiry)) :
    w.store k key = some (v, expiry) ∨
      ∃ ttl, op = .put k key v ttl ∧ expiry = ttl.map (w.now + ·) := by
  cases op with
  | get | time | release => cases hp; exact .inl hs
  | put k' key' v' ttl =>
    cases hp
    dsimp only at hs
    -- only a put under this very key can have stored something else
    by_cases hk : k = k'
    · subst hk
      by_cases hkey : key = key'
      · subst hkey
        rw [update_same] at hs
        cases hs
        exact .inr ⟨ttl, rfl, rfl⟩
      · rw [update_key_ne _ _ _ hkey] at hs
        exact .inl hs
    · rw [update_kind_ne _ _ _ _ hk] at hs
      exact .inl hs
  | pop k' key' =>
    cases hp
    dsimp only at hs
    by_cases hk : k = k'
    · subst hk
      by_cases hkey : key = key'
      · subst hkey
        rw [update_same] at hs
        cases hs
      · rw [update_key_ne _ _ _ hkey] at hs
        exact .inl hs
    · rw [update_kind_ne _ _ _ _ hk] at hs
      exact .inl hs
  | acquire name ttl =>
    obtain ⟨-, rfl⟩ | ⟨-, -, rfl⟩ := perform_acquire hp <;> exact .inl hs
  | draw d =>
    obtain ⟨-, -, rfl⟩ := perform_draw hp
    exact .inl hs
  | ext e =>
    obtain rfl := perform_ext hp
    exact .inl hs

/-- Every entry of the log was added by a step on the way. -/
theorem reach_logged (h : Reach handler ok c) {e : Entry K Rec Reply}
    {past : List (Entry K Rec Reply)} (hs : e :: past <:+ c.log) :
    ∃ c₀ c₁ l, Reach handler ok c₀ ∧ c₀.step handler l = some c₁ ∧ c₁.log = e :: c₀.log ∧
      Leads handler ok c₁ c := by
  induction h with
  | init => exact absurd hs.length_le (by simp [Config.init])
  | @step c c' l hr hstep hk ih =>
    have hcarry (hold : e :: past <:+ c.log) :
        ∃ c₀ c₁ l, Reach handler ok c₀ ∧ c₀.step handler l = some c₁ ∧ c₁.log = e :: c₀.log ∧
          Leads handler ok c₁ c' := by
      obtain ⟨c₀, c₁, l₀, hr₀, hs₀, hlog, hleads⟩ := ih hold
      exact ⟨c₀, c₁, l₀, hr₀, hs₀, hlog, .step hleads hstep hk⟩
    obtain ⟨r, rfl⟩ | ⟨d, rfl⟩ | ⟨i, ch, r, op, k, a, w, hi, hp, rfl⟩ := step_cases hstep
    · exact hcarry hs
    · exact hcarry hs
    · rcases List.suffix_cons_iff.mp hs with heq | hold
      · obtain ⟨rfl, rfl⟩ := List.cons.inj heq
        exact ⟨c, _, l, hr, hstep, rfl, .refl _⟩
      · exact hcarry hold

/-- A stored record was put by an earlier step, and expires as long after it as
    that step said. -/
theorem reach_written (h : Reach handler ok c) {k : K} {key : String} {v : Rec k}
    {expiry : Option Nat} (hs : c.world.store k key = some (v, expiry)) :
    ∃ c₀ c₁ l i ttl, Reach handler ok c₀ ∧ c₀.step handler l = some c₁ ∧
      c₁.log = ⟨i, ⟨.put k key v ttl, ()⟩⟩ :: c₀.log ∧ expiry = ttl.map (c₀.world.now + ·) ∧
      Leads handler ok c₁ c := by
  induction h with
  | init => cases hs
  | @step c c' l hr hstep hk ih =>
    have hcarry (hold : c.world.store k key = some (v, expiry)) :
        ∃ c₀ c₁ l i ttl, Reach handler ok c₀ ∧ c₀.step handler l = some c₁ ∧
          c₁.log = ⟨i, ⟨.put k key v ttl, ()⟩⟩ :: c₀.log ∧ expiry = ttl.map (c₀.world.now + ·) ∧
          Leads handler ok c₁ c' := by
      obtain ⟨c₀, c₁, l', i, ttl, hr₀, hs₀, hlog, hexp, hleads⟩ := ih hold
      exact ⟨c₀, c₁, l', i, ttl, hr₀, hs₀, hlog, hexp, .step hleads hstep hk⟩
    obtain ⟨r, rfl⟩ | ⟨d, rfl⟩ | ⟨i, ch, r, op, kk, a, w, hi, hp, rfl⟩ := step_cases hstep
    · exact hcarry hs
    · exact hcarry hs
    · rcases perform_store hp hs with hold | ⟨ttl, rfl, hexp⟩
      · exact hcarry hold
      · exact ⟨c, _, l, i, ttl, hr, hstep, rfl, hexp, .refl _⟩

/-- Every record of kind `k` is put without expiry. -/
def Permanent (k : K) (log : List (Entry K Rec Reply)) : Prop :=
  Throughout (fun _ e => ∀ key v ttl, e.ev = ⟨.put k key v ttl, ()⟩ → ttl = none) log

/-- Records without expiry are there as long as nobody pops them. -/
theorem reach_permanent {k : K} (h : Reach handler ok c) (hperm : Permanent k c.log)
    (key : String) : c.world.store k key = (contents c.log k key).map (·, none) := by
  induction h with
  | init => rfl
  | @step c c' l hr hstep hk ih =>
    obtain ⟨r, rfl⟩ | ⟨d, rfl⟩ | ⟨i, ch, r, op, kk, a, w, hi, hp, rfl⟩ := step_cases hstep
    · exact ih hperm
    · exact ih hperm
    -- one operation; an expiry comes from a put, and a permanent kind is put without one
    · have htail := ih hperm.2
      cases op with
      | get | time => cases hp; exact htail
      | put k' key' v ttl =>
        cases hp
        by_cases hkk : k = k'
        · subst hkk
          by_cases hkey : key = key'
          · subst hkey
            have httl : ttl = none := hperm.1 key v ttl rfl
            subst httl
            simp
          · simpa [contents, update_key_ne _ _ _ hkey] using htail
        · simpa [contents, update_kind_ne _ _ _ _ hkk] using htail
      | pop k' key' =>
        cases hp
        by_cases hkk : k = k'
        · subst hkk
          by_cases hkey : key = key'
          · subst hkey; simp
          · simpa [contents, update_key_ne _ _ _ hkey] using htail
        · simpa [contents, update_kind_ne _ _ _ _ hkk] using htail
      | acquire name ttl =>
        obtain ⟨-, rfl⟩ | ⟨-, -, rfl⟩ := perform_acquire hp <;> exact htail
      | release name => cases hp; exact htail
      | draw d =>
        obtain ⟨-, -, rfl⟩ := perform_draw hp
        exact htail
      | ext e =>
        obtain rfl := perform_ext hp
        exact htail

theorem reach_permanent_lookup {k : K} (h : Reach handler ok c) (hperm : Permanent k c.log)
    (key : String) : c.world.lookup k key = contents c.log k key := by
  rw [World.lookup, reach_permanent h hperm key]
  cases contents c.log k key <;> rfl

/-- A read of a record without expiry answers exactly what is there. -/
theorem reach_exact {k : K} (hperm : ∀ c, Reach handler ok c → Permanent k c.log)
    (h : Reach handler ok c) :
    Throughout (fun past e => ∀ key a, e.ev = ⟨.get k key, a⟩ → a = contents past k key) c.log := by
  refine reach_throughout ?_ h
  intro c c' i ch r op kk a w hr hi hp _ _ key a' hev
  cases hev
  cases hp
  exact reach_permanent_lookup hr (hperm c hr) key

/-- A log contains only operations of threads that exist. -/
theorem reach_tid_lt (h : Reach handler ok c) : ∀ e ∈ c.log, e.tid < c.threads.length := by
  induction h with
  | init => intro e he; cases he
  | step _ hs _ ih =>
    obtain ⟨r, rfl⟩ | ⟨d, rfl⟩ | ⟨i, ch, r, op, k, a, w, hi, hp, rfl⟩ := step_cases hs
    · intro e he
      have := ih e he
      simp only [List.length_append, List.length_singleton]
      omega
    · exact ih
    · intro e he
      simp only [List.length_set]
      rcases List.mem_cons.mp he with rfl | he
      · exact (List.getElem?_eq_some_iff.mp hi).1
      · exact ih e he

omit [DecidableEq K] in
theorem traceOf_eq_nil {i : Nat} {log : List (Entry K Rec Reply)} (h : ∀ e ∈ log, e.tid ≠ i) :
    traceOf i log = [] := by
  induction log with
  | nil => rfl
  | cons e log ih =>
    rw [traceOf_ne (h e List.mem_cons_self)]
    exact ih fun e' he' => h e' (List.mem_cons_of_mem _ he')

/-- The contract of a log: each entry meets the contract of its thread's
    request, in terms of that thread's own past. -/
def Contracted (req : Nat → Option Req)
    (Q : Req → Trace (Op K Rec Ext) (Op.Ans Reply) → Event (Op K Rec Ext) (Op.Ans Reply) → Prop) :
    List (Entry K Rec Reply) → Prop :=
  Throughout fun h e => ∃ r, req e.tid = some r ∧ Q r (traceOf e.tid h) e.ev

omit [DecidableEq K] in
theorem contracted_mono {req req' : Nat → Option Req}
    {Q : Req → Trace (Op K Rec Ext) (Op.Ans Reply) → Event (Op K Rec Ext) (Op.Ans Reply) → Prop}
    {log : List (Entry K Rec Reply)} (h : Contracted req Q log)
    (hreq : ∀ i r, req i = some r → req' i = some r) : Contracted req' Q log := by
  induction log with
  | nil => trivial
  | cons e log ih =>
    obtain ⟨⟨r, hr, hq⟩, htail⟩ := h
    exact ⟨⟨r, hreq _ _ hr, hq⟩, ih htail⟩

/-- If every handler meets its contract when run alone, then so does every
    thread of a pool, whatever the interleaving: the log is contracted, and
    what is left of each thread meets the rest of its contract. -/
theorem reach_contracted
    {Q : Req → Trace (Op K Rec Ext) (Op.Ans Reply) → Event (Op K Rec Ext) (Op.Ans Reply) → Prop}
    {R : Req → Trace (Op K Rec Ext) (Op.Ans Reply) → Res → Prop}
    (hQ : ∀ r, (handler r).Along (Q r) (R r) []) (h : Reach handler ok c) :
    Contracted c.request Q c.log ∧
    ∀ (i : Nat) (th : Thread K Rec Reply Req Res), c.threads[i]? = some th →
      th.prog.Along (Q th.req) (R th.req) (traceOf i c.log) := by
  induction h with
  | init => exact ⟨trivial, fun i th hi => by simp [Config.init] at hi⟩
  | @step c c' l hr hs _ ih =>
    obtain ⟨hlog, hthreads⟩ := ih
    replace hlog := contracted_mono hlog fun _ _ => step_request hs
    obtain ⟨r, rfl⟩ | ⟨d, rfl⟩ | ⟨i, ch, r, op, k, a, w, hi, hp, rfl⟩ := step_cases hs
    · -- a new thread starts with an empty trace; the others keep their index
      refine ⟨hlog, fun i th hi => ?_⟩
      rcases Nat.lt_or_ge i c.threads.length with hlt | hge
      · rw [List.getElem?_append_left hlt] at hi
        exact hthreads i th hi
      · rw [List.getElem?_append_right hge] at hi
        have hi0 : i - c.threads.length = 0 := by
          rcases Nat.eq_zero_or_pos (i - c.threads.length) with h0 | hpos
          · exact h0
          · rw [List.getElem?_eq_none (by simp; omega)] at hi; cases hi
        rw [hi0] at hi
        cases hi
        rw [traceOf_eq_nil]
        · exact hQ r
        · intro e he heq
          have := reach_tid_lt hr e he
          omega
    · exact ⟨hlog, hthreads⟩
    · have hlt := (List.getElem?_eq_some_iff.mp hi).1
      have hal := hthreads i _ hi a
      refine ⟨⟨⟨r, ?_, hal.1⟩, hlog⟩, fun j th hj => ?_⟩
      · simp [Config.request, List.getElem?_set_self hlt]
      · by_cases hji : j = i
        · subst hji
          rw [List.getElem?_set_self hlt] at hj
          cases hj
          rw [traceOf_self]
          exact hal.2
        · rw [List.getElem?_set_ne (Ne.symm hji)] at hj
          rw [traceOf_ne (Ne.symm hji)]
          exact hthreads j th hj

end

end Interleave
