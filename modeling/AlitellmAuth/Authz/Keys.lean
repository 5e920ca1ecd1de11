import Mathlib.Logic.Function.Basic
import Mathlib.Data.List.Basic

/-! # The key cache

    `keys.go`: the proxy asks the API for the key of a user and remembers it. A
    key that has expired is served all the same, and refreshed off the request
    path. Calls and refreshes run concurrently; what they do under the mutex is
    one step each, and so is the answer of the API.

    * `Proc`: a call of `KeyFor`, or a refresh that one has started.
    * `step`: one step of one of them, or of the clock.
    * `Effect`: what a step does, with everything it depends on.
    * `CacheInv`: the invariant of every reachable state.
-/

namespace AlitellmAuth.Authz.Keys

/-! ## The state -/

/-- `cacheEntry`. -/
structure CacheEntry where
  key : String
  exp : Int

/-- What the API answers: a transport error, a status, or a body. `none` is a
    body that cannot be decoded. -/
inductive ResolverAnswer where
  | error
  | status (code : Nat)
  | body (key : Option String)

/-- The key `fetch` makes of an answer; `status` is any other one than 200. -/
def ResolverAnswer.key : ResolverAnswer → Option String
  | .error => none
  | .status _ => none
  | .body none => none
  | .body (some key) => if key = "" then none else some key

/-- A call of `KeyFor`, or the goroutine that refreshes a key. -/
inductive ProcKind where
  | keyFor
  | refresh
  deriving DecidableEq

/-- Where a process is: before the first locked section, waiting for the API,
    before the locked section at the end of `fetch`, before the one that takes
    the subject out of `inflight`, and at the end. -/
inductive Phase where
  | looking
  | fetching
  | storing (key : String)
  | clearing
  | returned (result : Option String)
  | ended
  deriving DecidableEq

structure Proc where
  sub : String
  kind : ProcKind
  phase : Phase
  deriving DecidableEq

/-- What comes after `fetch`. -/
def ProcKind.after : ProcKind → Option String → Phase
  | .keyFor, result => .returned result
  | .refresh, _ => .clearing

/-- `cachedResolver`, its processes in the order they were started, the clock,
    and the keys the API has returned, with the subject of each request. -/
structure State where
  cache : String → Option CacheEntry
  inflight : String → Bool
  procs : List Proc
  now : Int
  answered : List (String × String)

/-- `NewResolver`. -/
def State.init (now : Int) : State where
  cache := fun _ => none
  inflight := fun _ => false
  procs := []
  now := now
  answered := []

/-- Process `i` goes on as `p`. -/
def State.move (s : State) (i : Nat) (p : Proc) : State :=
  { s with procs := s.procs.set i p }

def State.start (s : State) (p : Proc) : State := { s with procs := s.procs ++ [p] }

/-- The API has returned a key. -/
def State.learn (s : State) (sub key : String) : State :=
  { s with answered := (sub, key) :: s.answered }

def State.keep (s : State) (sub : String) (e : CacheEntry) : State :=
  { s with cache := Function.update s.cache sub (some e) }

def State.mark (s : State) (sub : String) (busy : Bool) : State :=
  { s with inflight := Function.update s.inflight sub busy }

/-! ## Steps -/

inductive Label where
  | call (sub : String)
  | look (i : Nat)
  | answer (i : Nat) (answer : ResolverAnswer)
  | store (i : Nat)
  | clear (i : Nat)
  | tick (d : Nat)

/-- The first locked section of `KeyFor`. -/
def look (s : State) (i : Nat) (sub : String) : State :=
  match s.cache sub with
  | some e =>
      let served := s.move i ⟨sub, .keyFor, .returned (some e.key)⟩
      if s.now < e.exp then served
      else if s.inflight sub then served
      else (served.mark sub true).start ⟨sub, .refresh, .fetching⟩
  | none => s.move i ⟨sub, .keyFor, .fetching⟩

/-- One step; `none` if the process is not there to take it. -/
def step (ttl : Int) (s : State) : Label → Option State
  | .call sub => some (s.start ⟨sub, .keyFor, .looking⟩)
  | .look i =>
      match s.procs[i]? with
      | some ⟨sub, .keyFor, .looking⟩ => some (look s i sub)
      | _ => none
  | .answer i answer =>
      match s.procs[i]? with
      | some ⟨sub, kind, .fetching⟩ =>
          match answer.key with
          | some key => some ((s.learn sub key).move i ⟨sub, kind, .storing key⟩)
          | none => some (s.move i ⟨sub, kind, kind.after none⟩)
      | _ => none
  | .store i =>
      match s.procs[i]? with
      | some ⟨sub, kind, .storing key⟩ =>
          some ((s.keep sub ⟨key, s.now + ttl⟩).move i ⟨sub, kind, kind.after (some key)⟩)
      | _ => none
  | .clear i =>
      match s.procs[i]? with
      | some ⟨sub, .refresh, .clearing⟩ => some ((s.mark sub false).move i ⟨sub, .refresh, .ended⟩)
      | _ => none
  | .tick d => some { s with now := s.now + d }

/-- Any number of steps. -/
inductive Steps (ttl : Int) : State → State → Prop where
  | refl (s : State) : Steps ttl s s
  | tail {s s₁ s₂ : State} {l : Label} (h : Steps ttl s s₁) (hstep : step ttl s₁ l = some s₂) :
      Steps ttl s s₂

/-- The states the proxy can be in. -/
def Reached (ttl : Int) (s : State) : Prop := ∃ now, Steps ttl (State.init now) s

/-! ## What a step does -/

inductive Effect (ttl : Int) (s : State) : State → Prop where
  | call (sub : String) : Effect ttl s (s.start ⟨sub, .keyFor, .looking⟩)
  | tick (d : Nat) : Effect ttl s { s with now := s.now + d }
  /-- The cache has an entry, and nothing is to be done or someone does it. -/
  | served {i : Nat} {sub : String} {e : CacheEntry}
      (hi : s.procs[i]? = some ⟨sub, .keyFor, .looking⟩) (he : s.cache sub = some e) :
      Effect ttl s (s.move i ⟨sub, .keyFor, .returned (some e.key)⟩)
  /-- The entry is stale and nobody refreshes it. -/
  | spawned {i : Nat} {sub : String} {e : CacheEntry}
      (hi : s.procs[i]? = some ⟨sub, .keyFor, .looking⟩) (he : s.cache sub = some e)
      (hidle : s.inflight sub = false) :
      Effect ttl s (((s.move i ⟨sub, .keyFor, .returned (some e.key)⟩).mark sub true).start
        ⟨sub, .refresh, .fetching⟩)
  | cold {i : Nat} {sub : String} (hi : s.procs[i]? = some ⟨sub, .keyFor, .looking⟩)
      (hnone : s.cache sub = none) : Effect ttl s (s.move i ⟨sub, .keyFor, .fetching⟩)
  | fetched {i : Nat} {sub : String} {kind : ProcKind} (key : String)
      (hi : s.procs[i]? = some ⟨sub, kind, .fetching⟩) :
      Effect ttl s ((s.learn sub key).move i ⟨sub, kind, .storing key⟩)
  | failed {i : Nat} {sub : String} {kind : ProcKind}
      (hi : s.procs[i]? = some ⟨sub, kind, .fetching⟩) :
      Effect ttl s (s.move i ⟨sub, kind, kind.after none⟩)
  | stored {i : Nat} {sub key : String} {kind : ProcKind}
      (hi : s.procs[i]? = some ⟨sub, kind, .storing key⟩) :
      Effect ttl s ((s.keep sub ⟨key, s.now + ttl⟩).move i ⟨sub, kind, kind.after (some key)⟩)
  | cleared {i : Nat} {sub : String} (hi : s.procs[i]? = some ⟨sub, .refresh, .clearing⟩) :
      Effect ttl s ((s.mark sub false).move i ⟨sub, .refresh, .ended⟩)

section
variable {ttl : Int} {s s' : State}

/-- A look marks and starts processes; the entries and the answers stay. -/
theorem look_keeps (s : State) (i : Nat) (sub : String) :
    (look s i sub).cache = s.cache ∧ (look s i sub).answered = s.answered := by
  unfold look
  split
  · dsimp only
    split
    · exact ⟨rfl, rfl⟩
    · split <;> exact ⟨rfl, rfl⟩
  · exact ⟨rfl, rfl⟩

theorem look_effect {i : Nat} {sub : String}
    (hi : s.procs[i]? = some ⟨sub, .keyFor, .looking⟩) : Effect ttl s (look s i sub) := by
  unfold look
  split
  · next e he =>
    dsimp only
    split
    · exact .served hi he
    · split
      · exact .served hi he
      · next hidle => exact .spawned hi he (Bool.not_eq_true _ ▸ hidle)
  · next hnone => exact .cold hi hnone

theorem step_effect {l : Label} (h : step ttl s l = some s') : Effect ttl s s' := by
  -- a step that its phase does not allow is none at all
  cases l with
  | call sub =>
    cases h
    exact .call sub
  | tick d =>
    cases h
    exact .tick d
  | look i =>
    simp only [step] at h
    split at h
    · next hi =>
      cases h
      exact look_effect hi
    · cases h
  | answer i answer =>
    simp only [step] at h
    split at h
    · next hi =>
      split at h
      · next key hkey =>
        cases h
        exact .fetched key hi
      · cases h
        exact .failed hi
    · cases h
  | store i =>
    simp only [step] at h
    split at h
    · next hi =>
      cases h
      exact .stored hi
    · cases h
  | clear i =>
    simp only [step] at h
    split at h
    · next hi =>
      cases h
      exact .cleared hi
    · cases h

end

/-! ## The invariant -/

/-- Process `i` is a refresh for `sub`, and still running. -/
def Refreshing (s : State) (sub : String) (i : Nat) : Prop :=
  ∃ p, s.procs[i]? = some p ∧ p.kind = .refresh ∧ p.sub = sub ∧ p.phase ≠ .ended

/-- The key a process has got hold of. -/
def Phase.key : Phase → Option String
  | .storing key => some key
  | .returned result => result
  | _ => none

structure CacheInv (s : State) : Prop where
  cached : ∀ sub e, s.cache sub = some e → (sub, e.key) ∈ s.answered
  held : ∀ (i : Nat) (p : Proc), s.procs[i]? = some p → ∀ key, p.phase.key = some key → (p.sub, key) ∈ s.answered
  inflight : ∀ sub, s.inflight sub = true ↔ ∃ i, Refreshing s sub i
  once : ∀ sub i j, Refreshing s sub i → Refreshing s sub j → i = j

section
variable {ttl : Int} {s s' : State} {i j : Nat} {p p' q : Proc} {sub : String}

theorem procs_move (hi : s.procs[i]? = some p) :
    (s.move i p').procs[j]? = some q ↔ j = i ∧ q = p' ∨ j ≠ i ∧ s.procs[j]? = some q := by
  obtain ⟨hlt, -⟩ := List.getElem?_eq_some_iff.mp hi
  show (s.procs.set i p')[j]? = some q ↔ _
  rw [List.getElem?_set]
  by_cases hj : i = j
  · subst hj
    simp [hlt, eq_comm]
  · simp [hj, Ne.symm hj]

theorem procs_start : (s.start p).procs[j]? = some q ↔
    s.procs[j]? = some q ∨ j = s.procs.length ∧ q = p := by
  show (s.procs ++ [p])[j]? = some q ↔ _
  rcases Nat.lt_trichotomy j s.procs.length with hj | hj | hj
  · simp [List.getElem?_append_left hj, Nat.ne_of_lt hj]
  · subst hj
    simp [eq_comm]
  · have hnone : s.procs[j]? = none := List.getElem?_eq_none (Nat.le_of_lt hj)
    have hnone' : (s.procs ++ [p])[j]? = none := List.getElem?_eq_none (by simp; omega)
    simp [hnone, hnone', Nat.ne_of_gt hj]

/-- A refresh that goes on is the same refresh. -/
theorem refreshing_move (hi : s.procs[i]? = some p) (hsub : p'.sub = p.sub) (hkind : p'.kind = p.kind)
    (hended : p'.phase = .ended ↔ p.phase = .ended) :
    Refreshing (s.move i p') sub j ↔ Refreshing s sub j := by
  constructor
  · rintro ⟨q, hq, hrest⟩
    rcases (procs_move hi).mp hq with ⟨rfl, rfl⟩ | ⟨-, hq⟩
    · exact ⟨p, hi, hkind ▸ hrest.1, hsub ▸ hrest.2.1, fun h => hrest.2.2 (hended.mpr h)⟩
    · exact ⟨q, hq, hrest⟩
  · rintro ⟨q, hq, hrest⟩
    by_cases hj : j = i
    · subst hj
      obtain rfl := Option.some.inj (hi.symm.trans hq)
      exact ⟨p', (procs_move hi).mpr (.inl ⟨rfl, rfl⟩), hkind ▸ hrest.1, hsub ▸ hrest.2.1,
        fun h => hrest.2.2 (hended.mp h)⟩
    · exact ⟨q, (procs_move hi).mpr (.inr ⟨hj, hq⟩), hrest⟩

theorem refreshing_start : Refreshing (s.start p) sub j ↔ Refreshing s sub j ∨
    j = s.procs.length ∧ p.kind = .refresh ∧ p.sub = sub ∧ p.phase ≠ .ended := by
  constructor
  · rintro ⟨q, hq, hrest⟩
    rcases procs_start.mp hq with hq | ⟨rfl, rfl⟩
    · exact .inl ⟨q, hq, hrest⟩
    · exact .inr ⟨rfl, hrest⟩
  · rintro (⟨q, hq, hrest⟩ | ⟨rfl, hrest⟩)
    · exact ⟨q, procs_start.mpr (.inl hq), hrest⟩
    · exact ⟨p, procs_start.mpr (.inr ⟨rfl, rfl⟩), hrest⟩

theorem cacheInv_init (now : Int) : CacheInv (State.init now) where
  cached := by
    intro sub e h
    cases h
  held := by
    intro i p h
    cases h
  inflight := by
    intro sub
    constructor
    · intro h
      cases h
    · rintro ⟨i, p, h, -⟩
      cases h
  once := by
    rintro sub i j ⟨p, h, -⟩
    cases h

/-- One process goes on, with a key it may have. -/
theorem inv_move (h : CacheInv s) (hi : s.procs[i]? = some p) (hsub : p'.sub = p.sub)
    (hkind : p'.kind = p.kind) (hended : p'.phase = .ended ↔ p.phase = .ended)
    (hkey : ∀ key, p'.phase.key = some key → (p'.sub, key) ∈ s.answered) :
    CacheInv (s.move i p') where
  cached := h.cached
  held := by
    intro j q hq key hq'
    rcases (procs_move hi).mp hq with ⟨-, rfl⟩ | ⟨-, hq⟩
    · exact hkey key hq'
    · exact h.held j q hq key hq'
  inflight := by
    intro sub
    simp only [refreshing_move hi hsub hkind hended]
    exact h.inflight sub
  once := by
    intro sub j k
    simp only [refreshing_move hi hsub hkind hended]
    exact h.once sub j k

theorem inv_call (h : CacheInv s) (sub : String) : CacheInv (s.start ⟨sub, .keyFor, .looking⟩) where
  cached := h.cached
  held := by
    intro j q hq key hkey
    rcases procs_start.mp hq with hq | ⟨-, rfl⟩
    · exact h.held j q hq key hkey
    · cases hkey
  inflight := by
    intro sub
    simp only [refreshing_start, reduceCtorEq, false_and, and_false, or_false]
    exact h.inflight sub
  once := by
    intro sub j k
    simp only [refreshing_start, reduceCtorEq, false_and, and_false, or_false]
    exact h.once sub j k

theorem inv_learn (h : CacheInv s) (sub key : String) : CacheInv (s.learn sub key) where
  cached := fun sub e he => List.mem_cons_of_mem _ (h.cached sub e he)
  held := fun j q hq key hkey => List.mem_cons_of_mem _ (h.held j q hq key hkey)
  inflight := h.inflight
  once := h.once

theorem inv_keep (h : CacheInv s) {e : CacheEntry} (he : (sub, e.key) ∈ s.answered) :
    CacheInv (s.keep sub e) where
  cached := by
    intro sub' e' hcache
    by_cases hsub : sub' = sub
    · subst hsub
      have hsame : Function.update s.cache sub' (some e) sub' = some e' := hcache
      rw [Function.update_self] at hsame
      cases hsame
      exact he
    · have hother : Function.update s.cache sub (some e) sub' = some e' := hcache
      rw [Function.update_of_ne hsub] at hother
      exact h.cached sub' e' hother
  held := h.held
  inflight := h.inflight
  once := h.once

/-- A refresh starts where there was none. -/
theorem inv_spawn (h : CacheInv s) (hidle : s.inflight sub = false) :
    CacheInv ((s.mark sub true).start ⟨sub, .refresh, .fetching⟩) where
  cached := h.cached
  held := by
    intro j q hq key hkey
    rcases procs_start.mp hq with hq | ⟨-, rfl⟩
    · exact h.held j q hq key hkey
    · cases hkey
  inflight := by
    intro sub'
    simp only [refreshing_start]
    show Function.update s.inflight sub true sub' = true ↔ _
    -- the mark of `sub` is new, those of the others stay
    by_cases hsub : sub' = sub
    · subst hsub
      rw [Function.update_self]
      refine ⟨fun _ => ⟨s.procs.length, .inr ?_⟩, fun _ => rfl⟩
      simp [State.mark]
    · rw [Function.update_of_ne hsub, h.inflight sub']
      refine exists_congr fun j => ⟨.inl, ?_⟩
      rintro (hj | ⟨-, -, heq, -⟩)
      · exact hj
      · exact absurd heq.symm hsub
  once := by
    -- no refresh of `sub` was underway, else it would have been marked
    have hfree : ∀ j, ¬ Refreshing s sub j := by
      intro j hj
      have hbusy := (h.inflight sub).mpr ⟨j, hj⟩
      rw [hidle] at hbusy
      cases hbusy
    intro sub' j k hj hk
    rcases refreshing_start.mp hj with hj | ⟨rfl, -, rfl, -⟩
    · rcases refreshing_start.mp hk with hk | ⟨rfl, -, rfl, -⟩
      · exact h.once sub' j k hj hk
      · exact absurd hj (hfree j)
    · rcases refreshing_start.mp hk with hk | ⟨rfl, -⟩
      · exact absurd hk (hfree k)
      · rfl

/-- The refresh of a subject ends. -/
theorem inv_clear (h : CacheInv s) (hi : s.procs[i]? = some ⟨sub, .refresh, .clearing⟩) :
    CacheInv ((s.mark sub false).move i ⟨sub, .refresh, .ended⟩) := by
  have hthis : Refreshing s sub i := ⟨_, hi, rfl, rfl, by simp⟩
  have hi' : (s.mark sub false).procs[i]? = some ⟨sub, .refresh, .clearing⟩ := hi
  -- the refreshes underway are the others
  have hleft : ∀ sub' j, Refreshing ((s.mark sub false).move i ⟨sub, .refresh, .ended⟩) sub' j ↔
      Refreshing s sub' j ∧ j ≠ i := by
    intro sub' j
    constructor
    · rintro ⟨q, hq, hrest⟩
      rcases (procs_move hi').mp hq with ⟨-, rfl⟩ | ⟨hj, hq⟩
      · exact absurd rfl hrest.2.2
      · exact ⟨⟨q, hq, hrest⟩, hj⟩
    · rintro ⟨⟨q, hq, hrest⟩, hj⟩
      exact ⟨q, (procs_move hi').mpr (.inr ⟨hj, hq⟩), hrest⟩
  refine ⟨h.cached, ?_, ?_, ?_⟩
  · intro j q hq key hkey
    rcases (procs_move hi').mp hq with ⟨-, rfl⟩ | ⟨-, hq⟩
    · cases hkey
    · exact h.held j q hq key hkey
  · intro sub'
    simp only [hleft]
    show Function.update s.inflight sub false sub' = true ↔ _
    -- there was only one of `sub`, and it has ended
    by_cases hsub : sub' = sub
    · subst hsub
      rw [Function.update_self]
      constructor
      · intro hfalse
        cases hfalse
      · rintro ⟨j, hj, hne⟩
        exact absurd (h.once sub' j i hj hthis) hne
    · rw [Function.update_of_ne hsub, h.inflight sub']
      refine exists_congr fun j => ⟨fun hj => ⟨hj, ?_⟩, And.left⟩
      rintro rfl
      obtain ⟨q, hq, -, hqsub, -⟩ := hj
      cases hi.symm.trans hq
      exact hsub hqsub.symm
  · intro sub' j k hj hk
    exact h.once sub' j k ((hleft sub' j).mp hj).1 ((hleft sub' k).mp hk).1

/-- No step breaks the invariant. -/
theorem effect_inv (h : CacheInv s) (he : Effect ttl s s') : CacheInv s' := by
  have hafter : ∀ (kind : ProcKind) (r : Option String), kind.after r ≠ .ended := by
    intro kind r
    cases kind <;> simp [ProcKind.after]
  cases he with
  | call sub => exact inv_call h sub
  | tick d => exact ⟨h.cached, h.held, h.inflight, h.once⟩
  | served hi hcache =>
    refine inv_move h hi rfl rfl (by simp) ?_
    intro key hkey
    cases hkey
    exact h.cached _ _ hcache
  | spawned hi hcache hidle =>
    refine inv_spawn (inv_move h hi rfl rfl (by simp) ?_) hidle
    intro key hkey
    cases hkey
    exact h.cached _ _ hcache
  | cold hi hnone =>
    refine inv_move h hi rfl rfl (by simp) ?_
    intro key hkey
    cases hkey
  -- the answer is recorded before the process holds the key
  | fetched key hi =>
    refine inv_move (inv_learn h _ key) hi rfl rfl (by simp) ?_
    intro key' hkey
    cases hkey
    exact List.mem_cons_self
  | @failed _ _ kind hi =>
    refine inv_move h hi rfl rfl (by simp [hafter]) ?_
    intro key hkey
    cases kind <;> cases hkey
  | @stored _ sub key kind hi =>
    -- what is stored was held, hence answered
    have hmem : (sub, key) ∈ s.answered := h.held _ _ hi key rfl
    refine inv_move (inv_keep h hmem) hi rfl rfl (by simp [hafter]) ?_
    intro key' hkey
    cases kind with
    | keyFor =>
      cases hkey
      exact hmem
    | refresh => cases hkey
  | cleared hi => exact inv_clear h hi

theorem steps_inv (h : Steps ttl s s') (hs : CacheInv s) : CacheInv s' := by
  induction h with
  | refl => exact hs
  | tail _ hstep ih => exact effect_inv ih (step_effect hstep)

theorem reached_inv (h : Reached ttl s) : CacheInv s := by
  obtain ⟨now, h⟩ := h
  exact steps_inv h (cacheInv_init now)

/-! ## An entry stays -/

/-- Since `s₀` there is an entry for the subject, and a call for it has looked
    before, has yet to look, or has got a key. -/
def Warm (s₀ : State) (sub : String) (s : State) : Prop :=
  (s.cache sub).isSome = true ∧
  ∀ (i : Nat) (p : Proc), s.procs[i]? = some p → p.kind = .keyFor → p.sub = sub →
    (∃ p₀, s₀.procs[i]? = some p₀ ∧ p₀.phase ≠ .looking) ∨ p.phase = .looking ∨
      ∃ key, p.phase = .returned (some key)

variable {s₀ : State}

theorem warm_refl (h : (s.cache sub).isSome = true) : Warm s sub s := by
  refine ⟨h, fun i p hp _ _ => ?_⟩
  by_cases hlook : p.phase = .looking
  · exact .inr (.inl hlook)
  · exact .inl ⟨p, hp, hlook⟩

theorem warm_move (h : Warm s₀ sub s) (hi : s.procs[i]? = some p)
    (hnew : p'.kind = .keyFor → p'.sub = sub →
      (∃ p₀, s₀.procs[i]? = some p₀ ∧ p₀.phase ≠ .looking) ∨ p'.phase = .looking ∨
        ∃ key, p'.phase = .returned (some key)) : Warm s₀ sub (s.move i p') := by
  refine ⟨h.1, fun j q hq hkind hsub => ?_⟩
  rcases (procs_move hi).mp hq with ⟨rfl, rfl⟩ | ⟨-, hq⟩
  · exact hnew hkind hsub
  · exact h.2 j q hq hkind hsub

theorem warm_start (h : Warm s₀ sub s) (hp : p.kind = .keyFor → p.phase = .looking) :
    Warm s₀ sub (s.start p) := by
  refine ⟨h.1, fun j q hq hkind hsub => ?_⟩
  rcases procs_start.mp hq with hq | ⟨-, rfl⟩
  · exact h.2 j q hq hkind hsub
  · exact .inr (.inl (hp hkind))

theorem warm_keep (h : Warm s₀ sub s) (sub' : String) (e : CacheEntry) :
    Warm s₀ sub (s.keep sub' e) := by
  refine ⟨?_, h.2⟩
  show (Function.update s.cache sub' (some e) sub).isSome = true
  by_cases hsub : sub = sub'
  · subst hsub
    rw [Function.update_self]
    rfl
  · rw [Function.update_of_ne hsub]
    exact h.1

/-- A call that is past its first look has looked before. -/
theorem Warm.looked (h : Warm s₀ sub s) (hi : s.procs[i]? = some p) (hkind : p.kind = .keyFor)
    (hsub : p.sub = sub) (hlook : p.phase ≠ .looking)
    (hreturned : ∀ key, p.phase ≠ .returned (some key)) :
    ∃ p₀, s₀.procs[i]? = some p₀ ∧ p₀.phase ≠ .looking := by
  rcases h.2 i p hi hkind hsub with hold | hphase | ⟨key, hphase⟩
  · exact hold
  · exact absurd hphase hlook
  · exact absurd hphase (hreturned key)

theorem effect_warm (h : Warm s₀ sub s) (he : Effect ttl s s') : Warm s₀ sub s' := by
  cases he with
  | call sub' => exact warm_start h fun _ => rfl
  | tick d => exact h
  | served hi hcache => exact warm_move h hi fun _ _ => .inr (.inr ⟨_, rfl⟩)
  | @spawned i sub' e hi hcache hidle =>
    have hmoved : Warm s₀ sub (s.move i ⟨sub', .keyFor, .returned (some e.key)⟩) :=
      warm_move h hi fun _ _ => .inr (.inr ⟨_, rfl⟩)
    exact warm_start (s := (s.move i _).mark sub' true) hmoved fun hkind => by cases hkind
  | cold hi hnone =>
    -- the call is for another subject, since this one has an entry
    refine warm_move h hi fun _ hsub => ?_
    have hsome := h.1
    rw [← hsub, hnone] at hsome
    cases hsome
  | fetched key hi =>
    exact warm_move (s := s.learn _ key) h hi fun hkind hsub =>
      .inl (h.looked hi hkind hsub (by simp) (by simp))
  | failed hi =>
    exact warm_move h hi fun hkind hsub => .inl (h.looked hi hkind hsub (by simp) (by simp))
  | stored hi =>
    exact warm_move (warm_keep h _ _) hi fun hkind hsub =>
      .inl (h.looked hi hkind hsub (by simp) (by simp))
  | cleared hi =>
    exact warm_move (s := s.mark _ false) h hi fun hkind _ => by cases hkind

theorem steps_warm (h : Steps ttl s s') (hs : (s.cache sub).isSome = true) : Warm s sub s' := by
  induction h with
  | refl => exact warm_refl hs
  | tail _ hstep ih => exact effect_warm ih (step_effect hstep)

/-! ## The guarantees -/

/-- Only a key that was fetched gets into the cache. -/
theorem cache_changed {l : Label} (h : step ttl s l = some s') (hne : s'.cache ≠ s.cache) :
    ∃ i sub kind key, l = .store i ∧ s.procs[i]? = some ⟨sub, kind, .storing key⟩ := by
  cases l with
  | call | tick =>
    cases h
    exact absurd rfl hne
  | look i =>
    simp only [step] at h
    split at h
    · cases h
      exact absurd (look_keeps s i _).1 hne
    · cases h
  | answer i answer =>
    simp only [step] at h
    split at h
    · split at h <;> cases h <;> exact absurd rfl hne
    · cases h
  | store i =>
    simp only [step] at h
    split at h
    · next hi => exact ⟨i, _, _, _, rfl, hi⟩
    · cases h
  | clear i =>
    simp only [step] at h
    split at h
    · cases h
      exact absurd rfl hne
    · cases h

/-- A failed fetch leaves the cache as it is, and is over. -/
theorem answer_failed {answer : ResolverAnswer} (h : step ttl s (.answer i answer) = some s')
    (hkey : answer.key = none) :
    s'.cache = s.cache ∧
      ∃ p, s'.procs[i]? = some p ∧ (p.phase = .returned none ∨ p.phase = .clearing) := by
  simp only [step] at h
  split at h
  · next sub kind hi =>
    rw [hkey] at h
    cases h
    refine ⟨rfl, _, (procs_move hi).mpr (.inl ⟨rfl, rfl⟩), ?_⟩
    cases kind
    · exact .inl rfl
    · exact .inr rfl
  · cases h

/-- In every state of the proxy: a key that `KeyFor` has returned is one the
    API has returned for that subject; a failed fetch changes nothing, and only
    a fetched key gets into the cache; `inflight` is the set of the subjects
    with a refresh under way, and there is one for each; and where there is an
    entry, no call that has yet to look for it will fail. -/
theorem key_cache (h : Reached ttl s) :
    (∀ (i : Nat) (sub key : String), s.procs[i]? = some ⟨sub, .keyFor, .returned (some key)⟩ →
      (sub, key) ∈ s.answered) ∧
    (∀ i answer s', step ttl s (.answer i answer) = some s' → answer.key = none →
      s'.cache = s.cache ∧
        ∃ p, s'.procs[i]? = some p ∧ (p.phase = .returned none ∨ p.phase = .clearing)) ∧
    (∀ l s', step ttl s l = some s' → s'.cache ≠ s.cache → ∃ i sub kind key,
      l = .store i ∧ s.procs[i]? = some ⟨sub, kind, .storing key⟩ ∧ (sub, key) ∈ s.answered) ∧
    (∀ sub, (s.inflight sub = true ↔ ∃ i, Refreshing s sub i) ∧
      ∀ i j, Refreshing s sub i → Refreshing s sub j → i = j) ∧
    ∀ sub, (s.cache sub).isSome = true → ∀ s', Steps ttl s s' → ∀ i : Nat,
      s'.procs[i]? = some ⟨sub, .keyFor, .returned none⟩ →
      ∃ p₀, s.procs[i]? = some p₀ ∧ p₀.phase ≠ .looking := by
  -- what a phase holds and who refreshes is the invariant; the rest is about a step or a run
  have hinv := reached_inv h
  refine ⟨?_, ?_, ?_, ?_, ?_⟩
  · intro i sub key hi
    exact hinv.held i _ hi key rfl
  · intro i answer s' hstep hkey
    exact answer_failed hstep hkey
  · intro l s' hstep hne
    obtain ⟨i, sub, kind, key, hl, hi⟩ := cache_changed hstep hne
    exact ⟨i, sub, kind, key, hl, hi, hinv.held i _ hi key rfl⟩
  · intro sub
    exact ⟨hinv.inflight sub, hinv.once sub⟩
  · intro sub hsome s' hsteps i hi
    exact (steps_warm hsteps hsome).looked hi rfl rfl (by simp) (by simp)

theorem steps_head {s₁ : State} {l : Label} (hstep : step ttl s l = some s₁)
    (h : Steps ttl s₁ s') : Steps ttl s s' := by
  induction h with
  | refl => exact .tail (.refl s) hstep
  | tail _ hlast ih => exact .tail ih hlast

theorem steps_of_run {ls : List Label} (h : ls.foldlM (step ttl) s = some s') : Steps ttl s s' := by
  induction ls generalizing s with
  | nil =>
    cases h
    exact .refl _
  | cons l ls ih =>
    obtain ⟨s₁, hstep, hrest⟩ := Option.bind_eq_some_iff.mp h
    exact steps_head hstep (ih hrest)

end

/-- A key is fetched, served while it is fresh, served when it is stale, and
    refreshed. -/
theorem key_cache_sample : ∃ s, Reached 300 s ∧
    s.procs[2]? = some ⟨"ann@example.com", .keyFor, .returned (some "sk-1")⟩ ∧
    ("ann@example.com", "sk-1") ∈ s.answered ∧ Refreshing s "ann@example.com" 3 := by
  have hrun := steps_of_run (show [.call "ann@example.com", .look 0, .answer 0 (.body (some "sk-1")),
    .store 0, .call "ann@example.com", .look 1, .tick 300, .call "ann@example.com",
    .look 2].foldlM (step 300) (State.init 0) = some _ from rfl)
  have hguarantees := key_cache ⟨0, hrun⟩
  exact ⟨_, ⟨0, hrun⟩, rfl, hguarantees.1 2 _ _ rfl, _, rfl, rfl, rfl, by decide⟩

/-- Two calls find no entry; one of them gets a key and stores it, and the
    other one fails after that. -/
theorem cold_call_fails_late : ∃ s s', Reached 300 s ∧
    (s.cache "ann@example.com").isSome = true ∧
    s.procs[1]? = some ⟨"ann@example.com", .keyFor, .fetching⟩ ∧
    step 300 s (.answer 1 .error) = some s' ∧
    s'.procs[1]? = some ⟨"ann@example.com", .keyFor, .returned none⟩ := by
  have hrun := steps_of_run (show [.call "ann@example.com", .call "ann@example.com", .look 0, .look 1,
    .answer 0 (.body (some "sk-1")), .store 0].foldlM (step 300) (State.init 0) = some _ from rfl)
  exact ⟨_, _, ⟨0, hrun⟩, rfl, rfl, rfl, rfl⟩

end AlitellmAuth.Authz.Keys
