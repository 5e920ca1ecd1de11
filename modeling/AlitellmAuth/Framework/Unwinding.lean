import Mathlib.Init

/-! # Unwinding

    Two runs of one machine that agree in some of their events, the ones an
    observer has a part in, and may differ in all others. A relation of states
    that is kept when both runs take the same observed step, and when either run
    takes another step alone, holds at the end of the runs.

    * `Unwinds`: the three conditions on a relation.
    * `unwind`: it holds at the end.
-/

namespace Unwinding

variable {State Event : Type} (step : State → Event → State) (own : Event → Bool)
  (allowed : Event → Prop) (R : State → State → Prop)

/-- A relation that no step breaks: an observed one of both runs, or another one
    of either run. -/
structure Unwinds : Prop where
  both : ∀ s s' e, own e = true → allowed e → R s s' → R (step s e) (step s' e)
  left : ∀ s s' e, own e = false → allowed e → R s s' → R (step s e) s'
  right : ∀ s s' e, own e = false → allowed e → R s s' → R s (step s' e)

variable {step own allowed R}

/-- Events that are not observed, of the second run. -/
theorem Unwinds.right_run (h : Unwinds step own allowed R) {s s' : State} (hR : R s s')
    {events : List Event} (hnone : events.filter own = []) (hallowed : ∀ e ∈ events, allowed e) :
    R s (events.foldl step s') := by
  induction events generalizing s' with
  | nil => exact hR
  | cons e events ih =>
    rw [List.filter_cons] at hnone
    split at hnone
    · cases hnone
    · next he =>
      rw [Bool.not_eq_true] at he
      rw [List.forall_mem_cons] at hallowed
      exact ih (h.right s s' e he hallowed.1 hR) hnone hallowed.2

/-- The second run up to its next observed event. -/
theorem split_at_own {events rest : List Event} {e : Event} (h : events.filter own = e :: rest) :
    ∃ before after, events = before ++ e :: after ∧ before.filter own = [] ∧
      after.filter own = rest := by
  induction events with
  | nil => cases h
  | cons e' events ih =>
    rw [List.filter_cons] at h
    split at h
    · obtain ⟨rfl, hrest⟩ := List.cons.inj h
      exact ⟨[], events, rfl, rfl, hrest⟩
    · next he' =>
      obtain ⟨before, after, rfl, hbefore, hafter⟩ := ih h
      refine ⟨e' :: before, after, rfl, ?_, hafter⟩
      rw [List.filter_cons, if_neg he', hbefore]

/-- The relation holds at the end of the runs. -/
theorem Unwinds.unwind (h : Unwinds step own allowed R) {s s' : State} (hR : R s s')
    {events events' : List Event} (hown : events.filter own = events'.filter own)
    (hallowed : ∀ e ∈ events, allowed e) (hallowed' : ∀ e ∈ events', allowed e) :
    R (events.foldl step s) (events'.foldl step s') := by
  induction events generalizing s s' events' with
  | nil => exact h.right_run hR hown.symm hallowed'
  | cons e events ih =>
    rw [List.forall_mem_cons] at hallowed
    rw [List.filter_cons] at hown
    split at hown
    · next he =>
      obtain ⟨before, after, rfl, hbefore, hafter⟩ := split_at_own hown.symm
      rw [List.forall_mem_append, List.forall_mem_cons] at hallowed'
      rw [List.foldl_append]
      have hreach := h.right_run hR hbefore hallowed'.1
      exact ih (h.both _ _ e he hallowed.1 hreach) hafter.symm hallowed.2 hallowed'.2.2
    · next he =>
      rw [Bool.not_eq_true] at he
      exact ih (h.left s s' e he hallowed.1 hR) hown hallowed.2 hallowed'

end Unwinding
