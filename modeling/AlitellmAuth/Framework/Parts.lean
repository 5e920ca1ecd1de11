import AlitellmAuth.Framework.Service

/-! # Parts of a system

    A program that talks to one party, run in a system that has others as well.

    * `Part`: the calls of one party among the calls of the system.
    * `Prog.embed`: the program as a program of the system.
    * `along_embed`: a contract of the program holds of its part of the trace.
    * `Service.anyone`: a service of which nothing is known, so that whatever
      holds of all its runs holds of the client.
-/

namespace Interleave

variable {Op Op' : Type} {Ans : Op → Type} {Ans' : Op' → Type} {α : Type}

/-- The calls of one party among the calls of a system. -/
structure Part (Op : Type) (Ans : Op → Type) (Op' : Type) (Ans' : Op' → Type) where
  into : Op → Op'
  back : (op : Op) → Ans' (into op) → Ans op
  seen : Event Op' Ans' → Option (Event Op Ans)
  seen_into : ∀ op a, seen ⟨into op, a⟩ = some ⟨op, back op a⟩

namespace Part

variable (part : Part Op Ans Op' Ans')

/-- The events of the party in a trace of the system. -/
def of (tr : Trace Op' Ans') : Trace Op Ans := tr.filterMap part.seen

theorem of_cons_into (tr : Trace Op' Ans') (op : Op) (a : Ans' (part.into op)) :
    part.of (⟨part.into op, a⟩ :: tr) = ⟨op, part.back op a⟩ :: part.of tr := by
  rw [of, List.filterMap_cons, part.seen_into]
  rfl

theorem of_suffix {tr tr' : Trace Op' Ans'} (h : tr <:+ tr') : part.of tr <:+ part.of tr' :=
  h.filterMap _

end Part

/-- A program of one party, as a program of the system. -/
def Prog.embed (part : Part Op Ans Op' Ans') : Prog Op Ans α → Prog Op' Ans' α
  | .ret a => .ret a
  | .call op k => .call (part.into op) fun a => (k (part.back op a)).embed part

section
variable {part : Part Op Ans Op' Ans'} {Q Q₁ Q₂ : Trace Op Ans → Event Op Ans → Prop}
  {R R₁ R₂ : Trace Op Ans → α → Prop}

/-- The contract of a program holds of what the system sees of it. -/
theorem along_embed {p : Prog Op Ans α} {tr : Trace Op' Ans'} (h : p.Along Q R (part.of tr)) :
    (p.embed part).Along (fun tr e => ∀ e', part.seen e = some e' → Q (part.of tr) e')
      (fun tr a => R (part.of tr) a) tr := by
  induction p generalizing tr with
  | ret a => exact h
  | call op k ih =>
    intro a
    obtain ⟨hevent, hrest⟩ := h (part.back op a)
    constructor
    · intro e' he'
      rw [part.seen_into] at he'
      rwa [← Option.some.inj he']
    · apply ih
      rwa [part.of_cons_into]

/-- Two contracts of one program hold together. -/
theorem along_both {p : Prog Op Ans α} {tr : Trace Op Ans} (h₁ : p.Along Q₁ R₁ tr)
    (h₂ : p.Along Q₂ R₂ tr) :
    p.Along (fun tr e => Q₁ tr e ∧ Q₂ tr e) (fun tr a => R₁ tr a ∧ R₂ tr a) tr := by
  induction p generalizing tr with
  | ret a => exact ⟨h₁, h₂⟩
  | call op k ih =>
    intro a
    exact ⟨⟨(h₁ a).1, (h₂ a).1⟩, ih a (h₁ a).2 (h₂ a).2⟩

end

/-- A service that may answer anything. -/
def Service.anyone : Service Op Ans Unit where
  effect _ s := s
  answers _ _ _ _ := True

end Interleave
