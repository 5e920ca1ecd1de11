import AlitellmAuth.Opencode.Config

/-! # The copy of the deployments

    `_capabilities` answers with a copy that is refreshed in the background: a
    caller waits only where there is no copy yet, and then not for long. Callers
    and refreshes run in one process, in any order.

    * `Process`, `act`: the state of the module, one event at a time.
    * `Mark`: what has happened, the last first.
    * `Sound`: what may happen after what has.
    * `capabilities_sound`: nothing else happens in any run.
-/

namespace AlitellmAuth.Opencode

variable {F : Type}

/-! ## The process -/

/-- Times are in milliseconds. -/
def CAPS_TTL : Nat := 3600 * 1000

def UPSTREAM_DEADLINE : Nat := 1500

/-- What has happened: a refresh has begun or ended, a caller has its answer. -/
inductive Mark (F : Type) where
  | started (time : Nat)
  | loaded (time : Nat) (caps : Caps F)
  | failed (time : Nat)
  | answered (entered time : Nat) (caps : Caps F)

/-- A caller that waits, for which refresh and since when. -/
structure Waiter where
  task : Nat
  entered : Nat

/-- `_caps`, with its time, and `_caps_task`. Refreshes have numbers; `running`
    are those that have not ended. -/
structure Process (F : Type) where
  now : Nat
  loaded_at : Option Nat
  caps : Caps F
  task : Option Nat
  running : List Nat
  next : Nat
  waiting : Nat → Option Waiter
  history : List (Mark F)

def Process.initial : Process F := ⟨0, none, .empty, none, [], 0, fun _ => none, []⟩

inductive Act (F : Type) where
  | tick (elapsed : Nat)
  /-- A caller enters `_capabilities`. -/
  | call (caller : Nat)
  /-- `_load_caps` ends. -/
  | load (task : Nat) (found : Option (Caps F))
  /-- The refresh that a caller waits for has ended. -/
  | wake (caller : Nat)
  /-- A caller has waited long enough. -/
  | expire (caller : Nat)

/-- `time.monotonic() - _caps["at"] <= CAPS_TTL`, if there is a copy. -/
def Process.fresh (s : Process F) : Bool :=
  match s.loaded_at with
  | some t => s.now ≤ t + CAPS_TTL
  | none => false

/-- `_caps_task is None or _caps_task.done()`. -/
def Process.free (s : Process F) : Bool :=
  match s.task with
  | some task => !s.running.contains task
  | none => true

/-- `asyncio.create_task(_load_caps(settings))`. -/
def Process.refresh (s : Process F) : Process F :=
  { s with
    task := some s.next
    running := s.next :: s.running
    next := s.next + 1
    history := .started s.now :: s.history }

/-- The answer is what is there now. -/
def Process.answer (s : Process F) (entered : Nat) : Process F :=
  { s with history := .answered entered s.now s.caps :: s.history }

/-- The caller waits no longer. -/
def Process.leave (s : Process F) (caller : Nat) : Process F :=
  { s with waiting := fun c => if c = caller then none else s.waiting c }

/-- The caller waits for the refresh. -/
def Process.wait (s : Process F) (caller : Nat) : Process F :=
  match s.task with
  | some task =>
      { s with waiting := fun c => if c = caller then some ⟨task, s.now⟩ else s.waiting c }
  | none => s

/-- `_capabilities`, up to where it waits. -/
def Process.capabilities (s : Process F) (caller : Nat) : Process F :=
  if s.fresh then s.answer s.now
  else
    let s := if s.free then s.refresh else s
    match s.loaded_at with
    | some _ => s.answer s.now
    | none => s.wait caller

def act (s : Process F) : Act F → Process F
  | .tick elapsed => { s with now := s.now + elapsed }
  | .call caller =>
      match s.waiting caller with
      | some _ => s
      | none => s.capabilities caller
  | .load task found =>
      if s.running.contains task then
        let s := { s with running := s.running.erase task }
        match found with
        | some caps =>
            { s with
              loaded_at := some s.now
              caps := caps
              history := .loaded s.now caps :: s.history }
        | none => { s with history := .failed s.now :: s.history }
      else s
  | .wake caller =>
      match s.waiting caller with
      | some waiter =>
          if s.running.contains waiter.task then s else (s.leave caller).answer waiter.entered
      | none => s
  | .expire caller =>
      match s.waiting caller with
      | some waiter =>
          if waiter.entered + UPSTREAM_DEADLINE ≤ s.now then (s.leave caller).answer waiter.entered
          else s
      | none => s

/-! ## What may happen -/

/-- The last copy, with its time. -/
def last_load : List (Mark F) → Option (Nat × Caps F)
  | [] => none
  | .loaded time caps :: _ => some (time, caps)
  | .started _ :: history => last_load history
  | .failed _ :: history => last_load history
  | .answered _ _ _ :: history => last_load history

/-- Has a refresh begun that has not ended? -/
def underway : List (Mark F) → Bool
  | [] => false
  | .started _ :: _ => true
  | .loaded _ _ :: _ => false
  | .failed _ :: _ => false
  | .answered _ _ _ :: history => underway history

/-- A copy to answer with. -/
def copy (history : List (Mark F)) : Caps F := ((last_load history).map (·.2)).getD .empty

/-- An answer is the last copy as a whole. A caller has waited only if there was
    no copy when it came; it leaves without one only if it has waited long enough
    or a refresh has failed meanwhile; and where it is content, without waiting,
    with a copy that is too old, a new one is on its way. -/
structure Answer (history : List (Mark F)) (entered time : Nat) (caps : Caps F) : Prop where
  whole : caps = copy history
  cold : entered < time → ∀ t caps, Mark.loaded t caps ∈ history → entered ≤ t
  empty : last_load history = none →
    entered + UPSTREAM_DEADLINE ≤ time ∨ ∃ t, Mark.failed t ∈ history ∧ entered ≤ t
  renewed : entered = time → ∀ t caps, last_load history = some (t, caps) → t + CAPS_TTL < time →
    underway history = true

/-- What may happen after what has. One refresh at a time is underway, and none
    begins while the copy is good. -/
inductive Sound : List (Mark F) → Prop where
  | nil : Sound []
  | started {history : List (Mark F)} {time : Nat} : Sound history → underway history = false →
      (∀ t caps, last_load history = some (t, caps) → t + CAPS_TTL < time) →
      Sound (.started time :: history)
  | loaded {history : List (Mark F)} {time : Nat} {caps : Caps F} : Sound history →
      underway history = true → Sound (.loaded time caps :: history)
  | failed {history : List (Mark F)} {time : Nat} : Sound history → underway history = true →
      Sound (.failed time :: history)
  | answered {history : List (Mark F)} {entered time : Nat} {caps : Caps F} : Sound history →
      Answer history entered time caps → Sound (.answered entered time caps :: history)

/-! ## The invariant -/

/-- The refresh a caller waits for, and what has happened since. -/
structure Waits (s : Process F) (waiter : Waiter) : Prop where
  entered : waiter.entered ≤ s.now
  cold : ∀ t caps, Mark.loaded t caps ∈ s.history → waiter.entered ≤ t
  ended : waiter.task ∉ s.running → (last_load s.history).isSome = true ∨
    ∃ t, Mark.failed t ∈ s.history ∧ waiter.entered ≤ t

structure Inv (s : Process F) : Prop where
  sound : Sound s.history
  loaded_at : s.loaded_at = (last_load s.history).map (·.1)
  caps : s.caps = copy s.history
  past : ∀ t caps, Mark.loaded t caps ∈ s.history → t ≤ s.now
  alone : if underway s.history then ∃ task, s.task = some task ∧ s.running = [task]
    else s.running = []
  waiting : ∀ caller waiter, s.waiting caller = some waiter → Waits s waiter

theorem last_load_mem {history : List (Mark F)} {t : Nat} {caps : Caps F}
    (h : last_load history = some (t, caps)) : Mark.loaded t caps ∈ history := by
  induction history with
  | nil => cases h
  | cons mark history ih =>
    cases mark with
    | loaded time caps' =>
      cases h
      exact List.mem_cons_self
    | started | failed | answered => exact List.mem_cons_of_mem _ (ih h)

theorem last_load_none {history : List (Mark F)} (h : last_load history = none) (t : Nat)
    (caps : Caps F) : Mark.loaded t caps ∉ history := by
  induction history with
  | nil => simp
  | cons mark history ih =>
    cases mark with
    | loaded => cases h
    | started | failed | answered =>
      rw [List.mem_cons]
      rintro (heq | hmem)
      · cases heq
      · exact ih h hmem

/-! ## One step -/

/-- No refresh is underway exactly if a new one may begin. -/
theorem Inv.free {s : Process F} (h : Inv s) : s.free = !underway s.history := by
  have halone := h.alone
  unfold Process.free
  cases hunder : underway s.history with
  | true =>
    rw [hunder, if_pos rfl] at halone
    obtain ⟨task, htask, hrunning⟩ := halone
    rw [htask, hrunning]
    simp
  | false =>
    rw [hunder] at halone
    have hrunning : s.running = [] := halone
    rw [hrunning]
    cases s.task <;> rfl

theorem Inv.refresh {s : Process F} (h : Inv s) (hfree : underway s.history = false)
    (hold : ∀ t caps, last_load s.history = some (t, caps) → t + CAPS_TTL < s.now) :
    Inv s.refresh := by
  have halone := h.alone
  rw [hfree] at halone
  have hrunning : s.running = [] := halone
  have hmem {t : Nat} {caps : Caps F} (hm : Mark.loaded t caps ∈ s.refresh.history) :
      Mark.loaded t caps ∈ s.history := by
    rcases List.mem_cons.mp hm with heq | hm
    · cases heq
    · exact hm
  refine ⟨.started h.sound hfree hold, h.loaded_at, h.caps, fun t caps hm => h.past t caps (hmem hm),
    ?_, ?_⟩
  · show ∃ task, some s.next = some task ∧ s.next :: s.running = [task]
    exact ⟨s.next, rfl, by rw [hrunning]⟩
  · intro caller waiter hwaiter
    have hw := h.waiting caller waiter hwaiter
    refine ⟨hw.entered, fun t caps hm => hw.cold t caps (hmem hm), fun hended => ?_⟩
    rcases hw.ended fun hrun => hended (List.mem_cons_of_mem _ hrun) with hload | ⟨t, ht, hle⟩
    · exact .inl hload
    · exact .inr ⟨t, List.mem_cons_of_mem _ ht, hle⟩

theorem Inv.answer {s : Process F} (h : Inv s) {entered : Nat}
    (hanswer : Answer s.history entered s.now s.caps) : Inv (s.answer entered) := by
  have hmem {t : Nat} {caps : Caps F} (hm : Mark.loaded t caps ∈ (s.answer entered).history) :
      Mark.loaded t caps ∈ s.history := by
    rcases List.mem_cons.mp hm with heq | hm
    · cases heq
    · exact hm
  refine ⟨.answered h.sound hanswer, h.loaded_at, h.caps, fun t caps hm => h.past t caps (hmem hm),
    h.alone, fun caller waiter hwaiter => ?_⟩
  have hw := h.waiting caller waiter hwaiter
  refine ⟨hw.entered, fun t caps hm => hw.cold t caps (hmem hm), fun hended => ?_⟩
  rcases hw.ended hended with hload | ⟨t, ht, hle⟩
  · exact .inl hload
  · exact .inr ⟨t, List.mem_cons_of_mem _ ht, hle⟩

theorem Inv.leave {s : Process F} (h : Inv s) (caller : Nat) : Inv (s.leave caller) := by
  refine ⟨h.sound, h.loaded_at, h.caps, h.past, h.alone, fun c waiter hwaiter => ?_⟩
  have hwaiter' : (if c = caller then none else s.waiting c) = some waiter := hwaiter
  split at hwaiter'
  · cases hwaiter'
  · have hw := h.waiting c waiter hwaiter'
    exact ⟨hw.entered, hw.cold, hw.ended⟩

/-- A caller begins to wait for the refresh that is underway. -/
theorem Inv.wait {s : Process F} (h : Inv s) (hcold : last_load s.history = none)
    (hunder : underway s.history = true) (caller : Nat) : Inv (s.wait caller) := by
  have halone := h.alone
  rw [hunder, if_pos rfl] at halone
  obtain ⟨task', htask', hrunning⟩ := halone
  unfold Process.wait
  split
  · next task htask =>
    refine ⟨h.sound, h.loaded_at, h.caps, h.past, h.alone, fun c waiter hwaiter => ?_⟩
    have hwaiter' : (if c = caller then some ⟨task, s.now⟩ else s.waiting c) = some waiter := hwaiter
    split at hwaiter'
    · rw [← Option.some.inj hwaiter']
      refine ⟨Nat.le_refl _, fun t caps hm => ?_, fun hended => ?_⟩
      · exact absurd hm (last_load_none hcold t caps)
      · refine absurd ?_ hended
        show task ∈ s.running
        rw [htask] at htask'
        rw [hrunning, Option.some.inj htask']
        exact List.mem_cons_self
    · have hw := h.waiting c waiter hwaiter'
      exact ⟨hw.entered, hw.cold, hw.ended⟩
  · exact h

/-- A caller that does not wait has the copy, and if it is old a refresh runs. -/
theorem answer_now {s : Process F} (h : Inv s) {t : Nat} {caps : Caps F}
    (hload : last_load s.history = some (t, caps))
    (hrenewed : t + CAPS_TTL < s.now → underway s.history = true) :
    Answer s.history s.now s.now s.caps := by
  refine ⟨h.caps, fun hlt => absurd hlt (Nat.lt_irrefl _), fun hnone => ?_, fun _ t' caps' hload' => ?_⟩
  · rw [hload] at hnone
    cases hnone
  · rw [hload] at hload'
    cases hload'
    exact hrenewed

theorem Inv.capabilities {s : Process F} (h : Inv s) (caller : Nat) : Inv (s.capabilities caller) := by
  have hloaded := h.loaded_at
  unfold Process.capabilities
  split
  · next hfresh =>
    unfold Process.fresh at hfresh
    split at hfresh
    · next t ht =>
      rw [ht] at hloaded
      obtain ⟨⟨t', caps⟩, hload, heq⟩ := Option.map_eq_some_iff.mp hloaded.symm
      have heq' : t' = t := heq
      refine h.answer (answer_now h hload fun hlt => ?_)
      have hle : s.now ≤ t + CAPS_TTL := by simpa using hfresh
      omega
    · cases hfresh
  · next hfresh =>
    -- The copy is missing or too old; after this a refresh is underway.
    have hold : ∀ t caps, last_load s.history = some (t, caps) → t + CAPS_TTL < s.now := by
      intro t caps hload
      rw [hload] at hloaded
      have ht : s.loaded_at = some t := hloaded
      unfold Process.fresh at hfresh
      rw [ht] at hfresh
      have hnot : ¬ s.now ≤ t + CAPS_TTL := by simpa using hfresh
      omega
    have hnext : ∃ s' : Process F, (if s.free then s.refresh else s) = s' ∧ Inv s' ∧
        underway s'.history = true ∧ s'.loaded_at = s.loaded_at ∧ s'.now = s.now ∧
        last_load s'.history = last_load s.history := by
      refine ⟨_, rfl, ?_⟩
      split
      · next hfree =>
        rw [h.free] at hfree
        exact ⟨h.refresh (by simpa using hfree) hold, rfl, rfl, rfl, rfl⟩
      · next hfree =>
        rw [h.free] at hfree
        exact ⟨h, by simpa using hfree, rfl, rfl, rfl⟩
    obtain ⟨s', heq, hinv, hunder, hloaded', hnow, hlast⟩ := hnext
    rw [heq]
    dsimp only
    cases hl : s'.loaded_at with
    | some t =>
      rw [hloaded', hloaded] at hl
      obtain ⟨⟨t', caps⟩, hload, -⟩ := Option.map_eq_some_iff.mp hl
      rw [← hlast] at hload
      exact hinv.answer (answer_now hinv hload fun _ => hunder)
    | none =>
      refine hinv.wait ?_ hunder caller
      rw [hlast]
      rw [hloaded', hloaded] at hl
      exact Option.map_eq_none_iff.mp hl

/-- The refresh ends, with a copy or without. -/
theorem Inv.load {s : Process F} (h : Inv s) {task : Nat} (htask : task ∈ s.running)
    (found : Option (Caps F)) : Inv (act s (.load task found)) := by
  have halone := h.alone
  -- a task is running, hence underway, hence the only one
  have hunder : underway s.history = true := by
    cases hunder : underway s.history with
    | true => rfl
    | false =>
      rw [hunder] at halone
      have hrunning : s.running = [] := halone
      rw [hrunning] at htask
      cases htask
  rw [hunder, if_pos rfl] at halone
  obtain ⟨task', htask', hrunning⟩ := halone
  have herase : s.running.erase task = [] := by
    rw [hrunning] at htask ⊢
    rw [List.mem_singleton.mp htask]
    simp
  rw [act, if_pos (by simpa using htask)]
  cases found with
  | some caps =>
    refine ⟨.loaded h.sound hunder, rfl, rfl, fun t caps' hm => ?_, herase, ?_⟩
    · rcases List.mem_cons.mp hm with heq | hm
      · cases heq
        exact Nat.le_refl _
      · exact h.past t caps' hm
    · intro caller waiter hwaiter
      have hw := h.waiting caller waiter hwaiter
      refine ⟨hw.entered, fun t caps' hm => ?_, fun _ => .inl rfl⟩
      rcases List.mem_cons.mp hm with heq | hm
      · cases heq
        exact hw.entered
      · exact hw.cold t caps' hm
  | none =>
    have hmem {t : Nat} {caps : Caps F} (hm : Mark.loaded t caps ∈ Mark.failed s.now :: s.history) :
        Mark.loaded t caps ∈ s.history := by
      rcases List.mem_cons.mp hm with heq | hm
      · cases heq
      · exact hm
    refine ⟨.failed h.sound hunder, h.loaded_at, h.caps, fun t caps hm => h.past t caps (hmem hm),
      herase, ?_⟩
    intro caller waiter hwaiter
    have hw := h.waiting caller waiter hwaiter
    exact ⟨hw.entered, fun t caps hm => hw.cold t caps (hmem hm),
      fun _ => .inr ⟨s.now, List.mem_cons_self, hw.entered⟩⟩

/-- A waiter leaves with what is there. -/
theorem Waits.answer {s : Process F} (h : Inv s) {waiter : Waiter} (hw : Waits s waiter)
    (hempty : last_load s.history = none → waiter.entered + UPSTREAM_DEADLINE ≤ s.now ∨
      ∃ t, Mark.failed t ∈ s.history ∧ waiter.entered ≤ t) :
    Answer s.history waiter.entered s.now s.caps := by
  refine ⟨h.caps, fun _ => hw.cold, hempty, fun hnow t caps hload hlt => ?_⟩
  have hcold := hw.cold t caps (last_load_mem hload)
  omega

theorem Inv.act {s : Process F} (h : Inv s) (e : Act F) : Inv (act s e) := by
  cases e with
  | tick elapsed =>
    refine ⟨h.sound, h.loaded_at, h.caps, fun t caps hm => ?_, h.alone, ?_⟩
    · exact Nat.le_add_right_of_le (h.past t caps hm)
    · intro caller waiter hwaiter
      have hw := h.waiting caller waiter hwaiter
      exact ⟨Nat.le_add_right_of_le hw.entered, hw.cold, hw.ended⟩
  | call caller =>
    rw [Opencode.act]
    split
    · exact h
    · exact h.capabilities caller
  | load task found =>
    by_cases htask : task ∈ s.running
    · exact h.load htask found
    · rw [Opencode.act, if_neg (by simpa using htask)]
      exact h
  | wake caller =>
    rw [Opencode.act]
    split
    · next waiter hwaiter =>
      have hw := h.waiting caller waiter hwaiter
      split
      · exact h
      · next hended =>
        refine (h.leave caller).answer (hw.answer h fun hnone => .inr ?_)
        -- the waiter wakes because there is a copy now, or because a refresh has failed
        rcases hw.ended (by simpa using hended) with hload | hfailed
        · rw [hnone] at hload
          cases hload
        · exact hfailed
    · exact h
  | expire caller =>
    rw [Opencode.act]
    split
    · next waiter hwaiter =>
      have hw := h.waiting caller waiter hwaiter
      split
      · next hlate => exact (h.leave caller).answer (hw.answer h fun _ => .inl hlate)
      · exact h
    · exact h

/-! ## Runs -/

theorem inv_initial : Inv (.initial : Process F) := by
  refine ⟨.nil, rfl, rfl, fun t caps hm => ?_, rfl, fun caller waiter hw => ?_⟩
  · cases hm
  · cases hw

theorem inv_run (events : List (Act F)) {s : Process F} (h : Inv s) : Inv (events.foldl act s) := by
  induction events generalizing s with
  | nil => exact h
  | cons e events ih => exact ih (h.act e)

/-- In each run of callers and refreshes, at most one refresh is underway, and
    none begins while there is a good copy; each answer is one whole copy, the
    last one; only callers who found none have waited, until there was one, or a
    refresh has failed, or the deadline; and whoever is content with an old copy
    leaves a refresh underway. -/
theorem capabilities_sound (events : List (Act F)) :
    Sound (events.foldl act (.initial : Process F)).history ∧
      (events.foldl act (.initial : Process F)).running.length ≤ 1 := by
  have h := inv_run events (inv_initial (F := F))
  refine ⟨h.sound, ?_⟩
  have halone := h.alone
  split at halone
  · obtain ⟨task, -, hrunning⟩ := halone
    rw [hrunning]
    exact Nat.le_refl _
  · rw [halone]
    exact Nat.zero_le _

end AlitellmAuth.Opencode
