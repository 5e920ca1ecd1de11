import Mathlib.Logic.Function.Basic
import Mathlib.Data.List.Basic
import AlitellmAuth.Framework.Prog

/-! # Handlers over a shared store

    A pool of request handlers that share a key/value store with expiry, named
    locks, a clock and a source of random identifiers, and that talk to remote
    parties whose answers the environment chooses. Any number of replicas of a
    service on one store are one pool: a replica adds nothing but more threads.

    * `Op`: what a handler may await.
    * `World`: the shared state, and `World.perform`, one atomic operation on it.
    * `Config`: the world, the threads, and the log of everything performed.
    * `Config.step`, `Reach`: one step, and every configuration reachable by
      steps that meet a side condition.

    The store is indexed by record kinds, and a kind fixes the type of its
    records. Logs are kept newest first, like traces.
-/

namespace Interleave

/-! ## Operations -/

/-- The random identifiers a handler may draw: `nbytes` random bytes in the
    URL-safe base64 alphabet, or `n` letters of an alphabet. -/
inductive Draw where
  | urlsafe (nbytes : Nat)
  | letters (alphabet : List Char) (n : Nat)
  deriving DecidableEq

/-- The characters of URL-safe base64. -/
def urlsafeChar (c : Char) : Bool := c.isAlphanum || c == '-' || c == '_'

/-- Which strings a draw can produce. Base64 without padding turns `n` bytes
    into the smallest number of six-bit digits that holds them. -/
def Draw.admits : Draw → String → Bool
  | .urlsafe n, s => s.toList.length == (4 * n + 2) / 3 && s.toList.all urlsafeChar
  | .letters alphabet n, s => s.toList.length == n && s.toList.all (alphabet.contains ·)

section
variable (K : Type) (Rec : K → Type) (Ext : Type)

/-- What a handler awaits: the store, a lock, a random identifier, the clock,
    or a remote party. -/
inductive Op where
  | get (k : K) (key : String)
  | put (k : K) (key : String) (v : Rec k) (ttl : Option Nat)
  | pop (k : K) (key : String)
  | acquire (name : String) (ttl : Nat)
  | release (name : String)
  | draw (d : Draw)
  | time
  | ext (e : Ext)

end

variable {K : Type} {Rec : K → Type} {Ext : Type}

/-- The answer of each operation; `Reply` gives the answers of remote parties. -/
abbrev Op.Ans (Reply : Ext → Type) : Op K Rec Ext → Type
  | .get k _ => Option (Rec k)
  | .put .. => Unit
  | .pop k _ => Option (Rec k)
  | .acquire .. => Bool
  | .release _ => Unit
  | .draw _ => String
  | .time => Nat
  | .ext e => Reply e

/-! ## The world -/

/-- The shared state: records with their expiry, locks with theirs, the clock,
    and every identifier drawn so far. -/
structure World (K : Type) (Rec : K → Type) where
  store : (k : K) → String → Option (Rec k × Option Nat)
  locks : String → Option Nat
  now : Nat
  drawn : List String

/-- The empty world. -/
def World.empty : World K Rec where
  store := fun _ _ => none
  locks := fun _ => none
  now := 0
  drawn := []

/-- A record without expiry is always live; otherwise it is gone from its
    expiry instant on. -/
def live (now : Nat) : Option Nat → Bool
  | none => true
  | some expiry => decide (now < expiry)

/-- The record a reader sees: the stored one while it is live. -/
def World.lookup (w : World K Rec) (k : K) (key : String) : Option (Rec k) :=
  match w.store k key with
  | some (v, expiry) => if live w.now expiry then some v else none
  | none => none

/-- Is the lock taken right now? -/
def World.locked (w : World K Rec) (name : String) : Bool :=
  match w.locks name with
  | some expiry => live w.now (some expiry)
  | none => false

/-- What the environment contributes to one step: nothing, the value of a
    random draw, or the answer of a remote party. -/
inductive Choice (Ext : Type) (Reply : Ext → Type) where
  | auto
  | draw (s : String)
  | reply (answer : (e : Ext) → Option (Reply e))

section
variable [DecidableEq K]

/-- Overwrite one record of a kind-indexed table. -/
def update {V : K → Type} (st : (k : K) → String → Option (V k)) (k : K) (key : String)
    (v : Option (V k)) : (k : K) → String → Option (V k) :=
  Function.update st k (Function.update (st k) key v)

@[simp] theorem update_same {V : K → Type} (st : (k : K) → String → Option (V k)) (k : K)
    (key : String) (v : Option (V k)) : update st k key v k key = v := by
  simp [update]

theorem update_key_ne {V : K → Type} (st : (k : K) → String → Option (V k)) (k : K)
    {key key' : String} (v : Option (V k)) (h : key' ≠ key) :
    update st k key v k key' = st k key' := by
  simp [update, h]

theorem update_kind_ne {V : K → Type} (st : (k : K) → String → Option (V k)) {k k' : K}
    (key key' : String) (v : Option (V k)) (h : k' ≠ k) :
    update st k key v k' key' = st k' key' := by
  simp [update, h]

/-- One atomic operation: its answer and the world after it, or `none` if the
    environment's choice does not fit the operation. A drawn identifier has
    never been drawn before. -/
def World.perform {Reply : Ext → Type} (w : World K Rec) (ch : Choice Ext Reply) :
    (op : Op K Rec Ext) → Option (op.Ans Reply × World K Rec)
  | .get k key => some (w.lookup k key, w)
  | .put k key v ttl =>
      some ((), { w with store := update w.store k key (some (v, ttl.map (w.now + ·))) })
  | .pop k key => some (w.lookup k key, { w with store := update w.store k key none })
  | .acquire name ttl =>
      if w.locked name then some (false, w)
      else some (true, { w with locks := Function.update w.locks name (some (w.now + ttl)) })
  | .release name => some ((), { w with locks := Function.update w.locks name none })
  | .draw d =>
      match ch with
      | .draw s =>
          if d.admits s && !w.drawn.contains s then some (s, { w with drawn := s :: w.drawn })
          else none
      | _ => none
  | .time => some (w.now, w)
  | .ext e =>
      match ch with
      | .reply answer => (answer e).map fun a => (a, w)
      | _ => none

/-! What the operations on locks, identifiers and remote parties do; those on
    records do what they say. -/

section
variable {Reply : Ext → Type} {w w' : World K Rec} {ch : Choice Ext Reply}

/-- A lock is taken if it is free, and else nothing happens. -/
theorem perform_acquire {name : String} {ttl : Nat} {a : Bool}
    (hp : w.perform ch (.acquire name ttl : Op K Rec Ext) = some (a, w')) :
    (a = false ∧ w' = w) ∨
      (a = true ∧ w.locked name = false ∧
        w' = { w with locks := Function.update w.locks name (some (w.now + ttl)) }) := by
  simp only [World.perform] at hp
  split at hp
  · cases hp
    exact .inl ⟨rfl, rfl⟩
  · next hfree =>
    cases hp
    exact .inr ⟨rfl, by simpa using hfree, rfl⟩

/-- A drawn identifier is new, and is remembered. -/
theorem perform_draw {d : Draw} {s : String}
    (hp : w.perform ch (.draw d : Op K Rec Ext) = some (s, w')) :
    d.admits s = true ∧ s ∉ w.drawn ∧ w' = { w with drawn := s :: w.drawn } := by
  simp only [World.perform] at hp
  split at hp
  · next s' =>
    split at hp
    · next hs =>
      have hnew : d.admits s' = true ∧ s' ∉ w.drawn := by simpa using hs
      cases hp
      exact ⟨hnew.1, hnew.2, rfl⟩
    · cases hp
  · cases hp

/-- The answer of a remote party changes nothing here. -/
theorem perform_ext {e : Ext} {a : Reply e}
    (hp : w.perform ch (.ext e : Op K Rec Ext) = some (a, w')) : w' = w := by
  simp only [World.perform] at hp
  split at hp
  · obtain ⟨a', -, heq⟩ := Option.map_eq_some_iff.mp hp
    cases heq
    rfl
  · cases hp

end

end

/-! ## Configurations -/

/-- One thread: the request it serves and what is left of its handler. -/
structure Thread (K : Type) (Rec : K → Type) {Ext : Type} (Reply : Ext → Type)
    (Req Res : Type) where
  req : Req
  prog : Prog (Op K Rec Ext) (Op.Ans Reply) Res

/-- One line of the log: the thread that performed an operation, and the
    operation with its answer. -/
structure Entry (K : Type) (Rec : K → Type) {Ext : Type} (Reply : Ext → Type) where
  tid : Nat
  ev : Event (Op K Rec Ext) (Op.Ans Reply)

/-- The world, the threads (a thread is named by its position) and the log of
    all operations performed, newest first. The log is a ghost: no handler
    reads it. -/
structure Config (K : Type) (Rec : K → Type) {Ext : Type} (Reply : Ext → Type)
    (Req Res : Type) where
  world : World K Rec
  threads : List (Thread K Rec Reply Req Res)
  log : List (Entry K Rec Reply)

/-- A scheduling decision: a new request arrives, a thread performs the
    operation it awaits, or time passes. -/
inductive Label (Ext : Type) (Reply : Ext → Type) (Req : Type) where
  | spawn (r : Req)
  | perform (i : Nat) (ch : Choice Ext Reply)
  | tick (d : Nat)

variable {Reply : Ext → Type} {Req Res : Type}

/-- No request has arrived yet and the store is empty. -/
def Config.init : Config K Rec Reply Req Res where
  world := .empty
  threads := []
  log := []

/-- The request thread `i` serves. -/
def Config.request (c : Config K Rec Reply Req Res) (i : Nat) : Option Req :=
  c.threads[i]?.map (·.req)

/-- What the response of thread `i` is, once it has returned. -/
def Config.response (c : Config K Rec Reply Req Res) (i : Nat) : Option Res :=
  match c.threads[i]? with
  | some ⟨_, .ret a⟩ => some a
  | _ => none

/-- The operation thread `i` is waiting for. -/
def Config.awaits (c : Config K Rec Reply Req Res) (i : Nat) : Option (Op K Rec Ext) :=
  c.threads[i]?.bind (·.prog.awaiting)

/-- The events of thread `i` in a log, newest first. -/
def traceOf (i : Nat) : List (Entry K Rec Reply) → Trace (Op K Rec Ext) (Op.Ans Reply)
  | [] => []
  | e :: h => if e.tid = i then e.ev :: traceOf i h else traceOf i h

@[simp] theorem traceOf_nil (i : Nat) :
    traceOf i ([] : List (Entry K Rec Reply)) = [] := rfl

@[simp] theorem traceOf_self (i : Nat) (ev : Event (Op K Rec Ext) (Op.Ans Reply))
    (h : List (Entry K Rec Reply)) : traceOf i (⟨i, ev⟩ :: h) = ev :: traceOf i h := by
  simp [traceOf]

theorem traceOf_ne {i : Nat} {e : Entry K Rec Reply} (hne : e.tid ≠ i)
    (h : List (Entry K Rec Reply)) : traceOf i (e :: h) = traceOf i h := by
  simp [traceOf, hne]

/-- A thread's trace holds exactly its own log entries. -/
theorem mem_traceOf {i : Nat} {ev : Event (Op K Rec Ext) (Op.Ans Reply)}
    {h : List (Entry K Rec Reply)} : ev ∈ traceOf i h ↔ (⟨i, ev⟩ : Entry K Rec Reply) ∈ h := by
  induction h with
  | nil => simp
  | cons e h ih =>
    obtain ⟨j, ev'⟩ := e
    by_cases hj : j = i
    · subst hj; simp [ih]
    · rw [traceOf_ne (e := ⟨j, ev'⟩) hj, ih]
      simp [Ne.symm hj]

section
variable [DecidableEq K] (handler : Req → Prog (Op K Rec Ext) (Op.Ans Reply) Res)

/-- One step of the pool, or `none` if the label does not fit. -/
def Config.step (c : Config K Rec Reply Req Res) :
    Label Ext Reply Req → Option (Config K Rec Reply Req Res)
  | .spawn r => some { c with threads := c.threads ++ [⟨r, handler r⟩] }
  | .perform i ch =>
      match c.threads[i]? with
      | some ⟨r, .call op k⟩ =>
          (c.world.perform ch op).map fun (a, w) =>
            { world := w, threads := c.threads.set i ⟨r, k a⟩, log := ⟨i, ⟨op, a⟩⟩ :: c.log }
      | _ => none
  | .tick d => some { c with world := { c.world with now := c.world.now + d } }

/-- A whole schedule, from a given configuration; it stops where a step does
    not pass the check. -/
def Config.run (check : Config K Rec Reply Req Res → Config K Rec Reply Req Res → Bool)
    (c : Config K Rec Reply Req Res) :
    List (Label Ext Reply Req) → Option (Config K Rec Reply Req Res)
  | [] => some c
  | l :: ls =>
      match c.step handler l with
      | some c' => if check c c' then c'.run check ls else none
      | none => none

/-- The configurations reachable from the empty one by steps that all meet
    the side condition `ok`. -/
inductive Reach (ok : Config K Rec Reply Req Res → Config K Rec Reply Req Res → Prop) :
    Config K Rec Reply Req Res → Prop where
  | init : Reach ok .init
  | step {c c' : Config K Rec Reply Req Res} {l : Label Ext Reply Req}
      (h : Reach ok c) (hs : c.step handler l = some c') (hok : ok c c') : Reach ok c'

/-- Reachable without any side condition. -/
def Reachable : Config K Rec Reply Req Res → Prop := Reach handler fun _ _ => True

variable {handler}

theorem reach_run {ok : Config K Rec Reply Req Res → Config K Rec Reply Req Res → Prop}
    {check : Config K Rec Reply Req Res → Config K Rec Reply Req Res → Bool}
    (hcheck : ∀ c c', check c c' = true → ok c c') {ls : List (Label Ext Reply Req)}
    {c c' : Config K Rec Reply Req Res} (hc : Reach handler ok c)
    (hrun : c.run handler check ls = some c') : Reach handler ok c' := by
  induction ls generalizing c with
  | nil => cases hrun; exact hc
  | cons l ls ih =>
    rw [Config.run] at hrun
    split at hrun
    · next d hd =>
      split at hrun
      · next hok => exact ih (.step hc hd (hcheck _ _ hok)) hrun
      · cases hrun
    · cases hrun

/-- A schedule that runs to its end, and ends in a configuration that passes a
    test, shows that such a configuration is reachable. -/
theorem exists_reach {ok : Config K Rec Reply Req Res → Config K Rec Reply Req Res → Prop}
    {check : Config K Rec Reply Req Res → Config K Rec Reply Req Res → Bool}
    {test : Config K Rec Reply Req Res → Bool} {ls : List (Label Ext Reply Req)}
    (hcheck : ∀ c c', check c c' = true → ok c c')
    (hrun : (Config.init.run handler check ls).any test = true) :
    ∃ c, Reach handler ok c ∧ test c = true := by
  obtain ⟨c, hc, htest⟩ := (Option.any_eq_true _ _).mp hrun
  exact ⟨c, reach_run hcheck .init hc, htest⟩

end

end Interleave
