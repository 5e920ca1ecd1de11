import Mathlib.Data.Rat.Defs
import Mathlib.Data.NNRat.Defs
import Mathlib.Algebra.Field.Rat
import Mathlib.Data.List.Basic
import Mathlib.Logic.Function.Basic
import AlitellmAuth.Framework.Json
import AlitellmAuth.Framework.Url

/-! # The two stores

    `store.py`: a store in memory, with a dictionary for each kind that is
    swept of expired records now and then, and a store on Redis, with one flat
    key for each record and the expiry left to the server.

    * `MemoryStore.step`, `RedisStore.step`: one operation on either.
    * `latest`, `answer`: what a store is for, as a function of the operations
      so far.
    * `MemorySim`, `RedisSim`: both stores show it.
-/

namespace AlitellmAuth.Stores

/-! ## Operations -/

abbrev Dict := List (String × Json)

/-- The operations of `Store`, and the clock. -/
inductive StoreOp where
  | get (kind key : String)
  | put (kind key : String) (value : Dict) (ttl : Option ℤ)
  | pop (kind key : String)
  | acquire (name : String) (ttl : ℤ)
  | release (name : String)
  | advance (d : ℚ≥0)

/-- What an operation returns: a record or none, nothing, whether a lock was
    acquired, or an exception. -/
inductive StoreResult where
  | record (value : Option Json)
  | done
  | locked (acquired : Bool)
  | raised

/-- What there is under a key at an instant: a record is gone from its expiry
    on. -/
def liveAt {V : Type} (t : ℚ) (cell : Option (V × Option ℚ)) : Option (V × Option ℚ) :=
  cell.filter fun (_, exp) => exp.all fun e => t < e

/-! ## In memory -/

structure MemoryStore where
  data : String → String → Option (Dict × Option ℚ)
  now : ℚ

namespace MemoryStore

def empty (now : ℚ) : MemoryStore := ⟨fun _ _ => none, now⟩

/-- `_expire`: drop the expired records of one kind. -/
def expire (m : MemoryStore) (kind : String) : MemoryStore :=
  { m with data := fun k key => if k = kind then liveAt m.now (m.data k key) else m.data k key }

def set (m : MemoryStore) (kind key : String) (cell : Option (Dict × Option ℚ)) : MemoryStore :=
  { m with data := fun k key' => if k = kind ∧ key' = key then cell else m.data k key' }

/-- The record under a key, as `get` and `pop` return it. -/
def hit (m : MemoryStore) (kind key : String) : StoreResult :=
  .record ((m.data kind key).map fun (value, _) => .obj value)

def put (m : MemoryStore) (kind key : String) (value : Dict) (ttl : Option ℤ) : MemoryStore :=
  m.set kind key (some (value, ttl.map fun n : ℤ => m.now + (n : ℚ)))

def step (m : MemoryStore) : StoreOp → MemoryStore × StoreResult
  | .get kind key => (m.expire kind, (m.expire kind).hit kind key)
  | .put kind key value ttl => (m.put kind key value ttl, .done)
  | .pop kind key => ((m.expire kind).set kind key none, (m.expire kind).hit kind key)
  | .acquire name ttl =>
      if ((m.expire "lock").data "lock" name).isSome then (m.expire "lock", .locked false)
      else ((m.expire "lock").put "lock" name [] (some ttl), .locked true)
  | .release name => (m.set "lock" name none, .done)
  | .advance d => ({ m with now := m.now + d }, .done)

end MemoryStore

/-! ## On Redis -/

/-- The server: the string under each key, and its expiry. -/
structure Redis where
  keys : String → Option (String × Option ℚ)
  now : ℚ

namespace Redis

def empty (now : ℚ) : Redis := ⟨fun _ => none, now⟩

/-- `GET`. -/
def get (r : Redis) (key : String) : Option String := (liveAt r.now (r.keys key)).map (·.1)

/-- `DEL`. -/
def del (r : Redis) (key : String) : Redis := { r with keys := Function.update r.keys key none }

/-- `SET` with an optional expiry, which is removed without one. -/
def set (r : Redis) (key value : String) (ex : Option ℤ) : Redis :=
  { r with keys := Function.update r.keys key (some (value, ex.map fun n : ℤ => r.now + (n : ℚ))) }

end Redis

/-- What is used of Python's `json`: `loads` answers `none` where it raises. -/
structure JsonModule where
  dumps : Json → String
  loads : String → Option Json

/-- The value is read back as it was written. -/
def JsonModule.RoundTrips (json : JsonModule) (value : Dict) : Prop :=
  json.dumps (.obj value) ≠ "" ∧ json.loads (json.dumps (.obj value)) = some (.obj value)

namespace RedisStore

/-- `_PREFIX`. -/
def PREFIX : String := "alitellm-auth:as"

/-- `_key`. -/
def key (kind key : String) : String := PREFIX ++ ":" ++ kind ++ ":" ++ key

/-- `json.loads(raw) if raw else None`. -/
def read (json : JsonModule) : Option String → StoreResult
  | none => .record none
  | some raw =>
      if raw = "" then .record none
      else match json.loads raw with
        | some value => .record (some value)
        | none => .raised

/-- An expiry the server refuses. -/
def refused : Option ℤ → Bool
  | none => false
  | some n => n ≤ 0

def step (json : JsonModule) (r : Redis) : StoreOp → Redis × StoreResult
  | .get kind k => (r, read json (r.get (key kind k)))
  | .put kind k value ttl =>
      if refused ttl then (r, .raised)
      else (r.set (key kind k) (json.dumps (.obj value)) ttl, .done)
  | .pop kind k => (r.del (key kind k), read json (r.get (key kind k)))
  | .acquire name ttl =>
      if refused (some ttl) then (r, .raised)
      else if (r.get (key "lock" name)).isSome then (r, .locked false)
      else (r.set (key "lock" name) "1" (some ttl), .locked true)
  | .release name => (r.del (key "lock" name), .done)
  | .advance d => ({ r with now := r.now + d }, .done)

end RedisStore

/-! ## What a store is for

    Everything in terms of the operations so far, newest first. -/

section
variable (t₀ : ℚ)

/-- The time it is. -/
def clock : List StoreOp → ℚ
  | [] => t₀
  | .advance d :: h => clock h + d
  | _ :: h => clock h

/-- The record that was written last and not taken since, with its expiry. A
    lock is a record of its own kind, written if there is none. -/
def latest : List StoreOp → String → String → Option (Dict × Option ℚ)
  | [], _, _ => none
  | .put k n value ttl :: h, kind, key =>
      if kind = k ∧ key = n then some (value, ttl.map fun n : ℤ => clock t₀ h + (n : ℚ)) else latest h kind key
  | .pop k n :: h, kind, key => if kind = k ∧ key = n then none else latest h kind key
  | .acquire n ttl :: h, kind, key =>
      if kind = "lock" ∧ key = n ∧ (liveAt (clock t₀ h) (latest h "lock" n)).isNone then
        some ([], some (clock t₀ h + ttl))
      else latest h kind key
  | .release n :: h, kind, key => if kind = "lock" ∧ key = n then none else latest h kind key
  | .get .. :: h, kind, key => latest h kind key
  | .advance _ :: h, kind, key => latest h kind key

/-- The record a reader finds. -/
def visible (h : List StoreOp) (kind key : String) : Option Dict :=
  (liveAt (clock t₀ h) (latest t₀ h kind key)).map (·.1)

/-- What an operation returns after the operations so far. -/
def answer (h : List StoreOp) : StoreOp → StoreResult
  | .get kind key => .record ((visible t₀ h kind key).map .obj)
  | .pop kind key => .record ((visible t₀ h kind key).map .obj)
  | .acquire name _ => .locked (visible t₀ h "lock" name).isNone
  | .put .. => .done
  | .release _ => .done
  | .advance _ => .done

/-- All that a sequence of operations returns. -/
def answers : List StoreOp → List StoreOp → List StoreResult
  | _, [] => []
  | h, op :: ops => answer t₀ h op :: answers (op :: h) ops

end

def results {σ : Type} (step : σ → StoreOp → σ × StoreResult) : σ → List StoreOp → List StoreResult
  | _, [] => []
  | s, op :: ops => (step s op).2 :: results step (step s op).1 ops

/-! ## In memory: a sweep is not seen -/

section
variable {t₀ t t' : ℚ} {h : List StoreOp}

@[simp] theorem liveAt_none {V : Type} : liveAt t (none : Option (V × Option ℚ)) = none := rfl

@[simp] theorem liveAt_forever {V : Type} (v : V) : liveAt t (some (v, none)) = some (v, none) := rfl

theorem liveAt_until {V : Type} (v : V) (e : ℚ) :
    liveAt t (some (v, some e)) = if t < e then some (v, some e) else none := by
  simp [liveAt, Option.filter]

/-- What is swept now would not be found later. -/
theorem liveAt_liveAt {V : Type} (htt : t ≤ t') (cell : Option (V × Option ℚ)) :
    liveAt t' (liveAt t cell) = liveAt t' cell := by
  match cell with
  | none => rfl
  | some (v, none) => rfl
  | some (v, some e) =>
    by_cases he : t < e
    · rw [liveAt_until v e, if_pos he]
    · have he' : ¬ t' < e := fun h => he (lt_of_le_of_lt htt h)
      rw [liveAt_until v e, if_neg he, liveAt_until v e, if_neg he', liveAt_none]

theorem clock_le_advance (d : ℚ≥0) : clock t₀ h ≤ clock t₀ (.advance d :: h) := by
  show clock t₀ h ≤ clock t₀ h + (d : ℚ)
  exact le_add_of_nonneg_right d.2

/-- The memory shows, from now on, the records that were written last. -/
def MemorySim (t₀ : ℚ) (h : List StoreOp) (m : MemoryStore) : Prop :=
  m.now = clock t₀ h ∧ ∀ kind key t, clock t₀ h ≤ t →
    liveAt t (m.data kind key) = liveAt t (latest t₀ h kind key)

variable {m : MemoryStore}

theorem MemorySim.expire (hm : MemorySim t₀ h m) (kind : String) : MemorySim t₀ h (m.expire kind) := by
  refine ⟨hm.1, fun k key t ht => ?_⟩
  show liveAt t (if k = kind then liveAt m.now (m.data k key) else m.data k key) = _
  split
  · rw [liveAt_liveAt (hm.1.le.trans ht)]
    exact hm.2 k key t ht
  · exact hm.2 k key t ht

/-- After a sweep, what is there is what a reader is to find. -/
theorem MemorySim.swept (hm : MemorySim t₀ h m) (kind key : String) :
    (m.expire kind).data kind key = liveAt (clock t₀ h) (latest t₀ h kind key) := by
  show (if kind = kind then liveAt m.now (m.data kind key) else m.data kind key) = _
  rw [if_pos rfl, hm.1]
  exact hm.2 kind key _ le_rfl

theorem MemorySim.hit (hm : MemorySim t₀ h m) (kind key : String) :
    (m.expire kind).hit kind key = .record ((visible t₀ h kind key).map .obj) := by
  rw [MemoryStore.hit, hm.swept kind key, visible, Option.map_map]
  rfl

/-- Writing one record. -/
theorem MemorySim.set {op : StoreOp} (hm : MemorySim t₀ h m) (kind key : String)
    (cell : Option (Dict × Option ℚ)) (hclock : clock t₀ (op :: h) = clock t₀ h)
    (hlatest : ∀ k key', latest t₀ (op :: h) k key' =
      if k = kind ∧ key' = key then cell else latest t₀ h k key') :
    MemorySim t₀ (op :: h) (m.set kind key cell) := by
  refine ⟨hm.1.trans hclock.symm, fun k key' t ht => ?_⟩
  show liveAt t (if k = kind ∧ key' = key then cell else m.data k key') = _
  rw [hlatest]
  split
  · rfl
  · exact hm.2 k key' t (hclock ▸ ht)

/-- One operation in memory. -/
theorem memory_step (hm : MemorySim t₀ h m) (op : StoreOp) :
    (m.step op).2 = answer t₀ h op ∧ MemorySim t₀ (op :: h) (m.step op).1 := by
  cases op with
  | get kind key => exact ⟨hm.hit kind key, hm.expire kind⟩
  | put kind key value ttl =>
    refine ⟨rfl, ?_⟩
    rw [MemoryStore.step, MemoryStore.put, hm.1]
    exact hm.set kind key _ rfl fun _ _ => rfl
  | pop kind key => exact ⟨hm.hit kind key, (hm.expire kind).set kind key none rfl fun _ _ => rfl⟩
  | acquire name ttl =>
    have hswept := hm.swept "lock" name
    rw [MemoryStore.step, hswept, answer, visible, Option.isNone_map]
    cases hlock : liveAt (clock t₀ h) (latest t₀ h "lock" name) with
    | some cell =>
      -- a lock that is held is not written
      have hlatest : ∀ kind key, latest t₀ (.acquire name ttl :: h) kind key = latest t₀ h kind key := by
        intro kind key
        rw [latest, hlock]
        simp
      refine ⟨rfl, hm.1, fun kind key t ht => ?_⟩
      rw [hlatest]
      exact (hm.expire "lock").2 kind key t ht
    | none =>
      refine ⟨rfl, ?_⟩
      show MemorySim t₀ (.acquire name ttl :: h) ((m.expire "lock").put "lock" name [] (some ttl))
      rw [MemoryStore.put, (hm.expire "lock").1]
      refine (hm.expire "lock").set "lock" name _ rfl fun kind key => ?_
      rw [latest, hlock]
      simp
  | release name => exact ⟨rfl, hm.set "lock" name none rfl fun _ _ => rfl⟩
  | advance d =>
    refine ⟨rfl, ?_, fun kind key t ht => ?_⟩
    · show m.now + (d : ℚ) = clock t₀ h + (d : ℚ)
      rw [hm.1]
    · exact hm.2 kind key t ((clock_le_advance d).trans ht)

theorem memory_results (hm : MemorySim t₀ h m) (ops : List StoreOp) :
    results MemoryStore.step m ops = answers t₀ h ops := by
  induction ops generalizing m h with
  | nil => rfl
  | cons op ops ih =>
    obtain ⟨hanswer, hnext⟩ := memory_step hm op
    rw [results, answers, hanswer, ih hnext]

end

/-! ## On Redis: a key is a kind and a key -/

section
variable {json : JsonModule} {t₀ t : ℚ} {h : List StoreOp} {r : Redis}

theorem key_toList (kind key : String) : (RedisStore.key kind key).toList =
    (RedisStore.PREFIX ++ ":").toList ++ (kind.toList ++ ':' :: key.toList) := by
  have hcolon : ":".toList = [':'] := by decide
  rw [RedisStore.key, String.toList_append, String.toList_append, String.toList_append, hcolon]
  simp only [List.append_assoc, List.singleton_append]

/-- Two records never share a key. -/
theorem key_inj {kind kind' key key' : String} (hkind : ':' ∉ kind.toList) (hkind' : ':' ∉ kind'.toList)
    (heq : RedisStore.key kind key = RedisStore.key kind' key') : kind = kind' ∧ key = key' := by
  have hchars := congrArg String.toList heq
  rw [key_toList, key_toList, List.append_right_inj] at hchars
  -- the kind ends at the first colon
  have hcut := Url.partition_append hkind key.toList
  rw [hchars, Url.partition_append hkind' key'.toList] at hcut
  simp only [Prod.mk.injEq, true_and] at hcut
  exact ⟨(String.toList_inj.mp hcut.1).symm, (String.toList_inj.mp hcut.2).symm⟩

theorem lock_no_colon : ':' ∉ "lock".toList := by decide

/-- The record in a string, and one that was written; those of locks are not
    compared. -/
def readable (json : JsonModule) (kind : String) : String × Option ℚ → Option Json × Option ℚ
  | (raw, exp) => (if kind = "lock" ∨ raw = "" then none else json.loads raw, exp)

def shown (kind : String) : Dict × Option ℚ → Option Json × Option ℚ
  | (value, exp) => (if kind = "lock" then none else some (.obj value), exp)

/-- The server shows, from now on, the records that were written last. -/
def RedisSim (json : JsonModule) (t₀ : ℚ) (h : List StoreOp) (r : Redis) : Prop :=
  r.now = clock t₀ h ∧ ∀ kind key t, ':' ∉ kind.toList → clock t₀ h ≤ t →
    (liveAt t (r.keys (RedisStore.key kind key))).map (readable json kind) =
      (liveAt t (latest t₀ h kind key)).map (shown kind)

/-- What a reader gets. -/
theorem RedisSim.read (hr : RedisSim json t₀ h r) {kind : String} (key : String)
    (hkind : ':' ∉ kind.toList) (hlock : kind ≠ "lock") :
    RedisStore.read json (r.get (RedisStore.key kind key)) =
      .record ((visible t₀ h kind key).map .obj) := by
  have hnow := hr.2 kind key r.now hkind hr.1.ge
  rw [hr.1] at hnow
  rw [Redis.get, hr.1, visible]
  cases hlive : liveAt (clock t₀ h) (latest t₀ h kind key) with
  | none =>
    rw [hlive, Option.map_none, Option.map_eq_none_iff] at hnow
    rw [hnow]
    rfl
  | some cell =>
    rw [hlive] at hnow
    obtain ⟨⟨raw, exp⟩, hcell, heq⟩ := Option.map_eq_some_iff.mp hnow
    rw [hcell]
    have hvalue := congrArg Prod.fst heq
    simp only [readable, shown, hlock, false_or, if_false] at hvalue
    -- the string is not empty, and holds the record
    split at hvalue
    · cases hvalue
    · next hraw => simp [RedisStore.read, hraw, hvalue]

/-- Whether there is a lock. -/
theorem RedisSim.lock (hr : RedisSim json t₀ h r) (name : String) :
    (r.get (RedisStore.key "lock" name)).isSome = (visible t₀ h "lock" name).isSome := by
  have hnow := congrArg Option.isSome (hr.2 "lock" name r.now lock_no_colon hr.1.ge)
  rw [hr.1] at hnow
  simp only [Option.isSome_map] at hnow
  rw [Redis.get, hr.1, visible, Option.isSome_map, Option.isSome_map, hnow]

/-- Writing one key. -/
theorem RedisSim.write (hr : RedisSim json t₀ h r) (op : StoreOp) {kind : String} (key : String)
    (hkind : ':' ∉ kind.toList) {raw : Option (String × Option ℚ)} {cell : Option (Dict × Option ℚ)}
    (hcell : ∀ t, (liveAt t raw).map (readable json kind) = (liveAt t cell).map (shown kind))
    (hclock : clock t₀ (op :: h) = clock t₀ h)
    (hlatest : ∀ k key', latest t₀ (op :: h) k key' =
      if k = kind ∧ key' = key then cell else latest t₀ h k key') :
    RedisSim json t₀ (op :: h)
      { r with keys := Function.update r.keys (RedisStore.key kind key) raw } := by
  refine ⟨hr.1.trans hclock.symm, fun k key' t hk ht => ?_⟩
  rw [hlatest]
  by_cases hsame : k = kind ∧ key' = key
  · obtain ⟨rfl, rfl⟩ := hsame
    rw [if_pos ⟨rfl, rfl⟩]
    show (liveAt t (Function.update r.keys _ raw _)).map _ = _
    rw [Function.update_self]
    exact hcell t
  · rw [if_neg hsame]
    show (liveAt t (Function.update r.keys _ raw _)).map _ = _
    rw [Function.update_of_ne]
    · exact hr.2 k key' t hk (hclock ▸ ht)
    · exact fun heq => hsame (key_inj hk hkind heq)

/-- A record and the string it is written as expire together. -/
theorem liveAt_written {kind raw : String} {value : Dict} (exp : Option ℚ)
    (hvalue : (readable json kind (raw, exp)).1 = (shown kind (value, exp)).1) (t : ℚ) :
    (liveAt t (some (raw, exp))).map (readable json kind) =
      (liveAt t (some (value, exp))).map (shown kind) := by
  have hpair : readable json kind (raw, exp) = shown kind (value, exp) := Prod.ext hvalue rfl
  cases exp with
  | none => simp only [liveAt_forever, Option.map_some, hpair]
  | some e =>
    rw [liveAt_until, liveAt_until]
    split
    · rw [Option.map_some, Option.map_some, hpair]
    · rfl

/-- The sequences on which the stores are to agree. Records of the kind `lock`
    are not read: there the stores keep their locks. -/
def Admissible : StoreOp → Prop
  | .get kind _ => ':' ∉ kind.toList ∧ kind ≠ "lock"
  | .pop kind _ => ':' ∉ kind.toList ∧ kind ≠ "lock"
  | .put kind _ _ ttl => ':' ∉ kind.toList ∧ ∀ n, ttl = some n → 1 ≤ n
  | .acquire _ ttl => 1 ≤ ttl
  | .release _ => True
  | .advance _ => True

/-- Values are read back as they were written. -/
def Faithful (json : JsonModule) : StoreOp → Prop
  | .put _ _ value _ => json.RoundTrips value
  | _ => True

/-- One operation on Redis. -/
theorem redis_step (hr : RedisSim json t₀ h r) {op : StoreOp} (hop : Admissible op)
    (hjson : Faithful json op) :
    (RedisStore.step json r op).2 = answer t₀ h op ∧
      RedisSim json t₀ (op :: h) (RedisStore.step json r op).1 := by
  cases op with
  | get kind key => exact ⟨hr.read key hop.1 hop.2, hr⟩
  | put kind key value ttl =>
    -- Redis refuses an expiry that is not positive; a record of ours has none such
    have hrefused : RedisStore.refused ttl = false := by
      cases ttl with
      | none => rfl
      | some n =>
        have := hop.2 n rfl
        simp only [RedisStore.refused, decide_eq_false_iff_not]
        omega
    rw [RedisStore.step, hrefused]
    refine ⟨rfl, ?_⟩
    refine hr.write (.put kind key value ttl) key hop.1 (fun t => ?_) rfl fun _ _ => rfl
    rw [hr.1]
    refine liveAt_written _ ?_ t
    simp only [readable, shown, hjson.1, or_false, hjson.2]
  | pop kind key =>
    exact ⟨hr.read key hop.1 hop.2, hr.write (.pop kind key) key hop.1 (fun _ => rfl) rfl fun _ _ => rfl⟩
  | acquire name ttl =>
    have hrefused : RedisStore.refused (some ttl) = false := by
      have : 1 ≤ ttl := hop
      simp only [RedisStore.refused, decide_eq_false_iff_not]
      omega
    rw [RedisStore.step, hrefused, hr.lock name, answer, ← Option.not_isSome]
    -- `SET NX` writes exactly where the lock is free
    have hlatest : ∀ kind key, latest t₀ (.acquire name ttl :: h) kind key =
        if kind = "lock" ∧ key = name ∧ (visible t₀ h "lock" name).isSome = false then
          some ([], some (clock t₀ h + ttl))
        else latest t₀ h kind key := by
      intro kind key
      rw [latest, visible, Option.isSome_map, ← Option.not_isSome]
      simp
    cases hlock : (visible t₀ h "lock" name).isSome with
    | true =>
      refine ⟨rfl, hr.1, fun kind key t hk ht => ?_⟩
      rw [hlatest, hlock]
      simp only [Bool.true_eq_false, and_false, if_false]
      exact hr.2 kind key t hk ht
    | false =>
      refine ⟨rfl, ?_⟩
      have hcell : ∀ t, (liveAt t (some ("1", some (r.now + (ttl : ℚ))))).map (readable json "lock") =
          (liveAt t (some ([], some (clock t₀ h + (ttl : ℚ))))).map (shown "lock") := by
        rw [hr.1]
        exact liveAt_written _ (by simp [readable, shown])
      refine hr.write (.acquire name ttl) name lock_no_colon hcell rfl fun kind key => ?_
      rw [hlatest, hlock]
      simp
  | release name => exact ⟨rfl, hr.write (.release name) name lock_no_colon (fun _ => rfl) rfl fun _ _ => rfl⟩
  | advance d =>
    refine ⟨rfl, ?_, fun kind key t hk ht => ?_⟩
    · show r.now + (d : ℚ) = clock t₀ h + (d : ℚ)
      rw [hr.1]
    · exact hr.2 kind key t hk ((clock_le_advance d).trans ht)

theorem redis_results (hr : RedisSim json t₀ h r) {ops : List StoreOp}
    (hops : ∀ op ∈ ops, Admissible op) (hjson : ∀ op ∈ ops, Faithful json op) :
    results (RedisStore.step json) r ops = answers t₀ h ops := by
  induction ops generalizing r h with
  | nil => rfl
  | cons op ops ih =>
    obtain ⟨hanswer, hnext⟩ := redis_step hr (hops op List.mem_cons_self) (hjson op List.mem_cons_self)
    rw [results, answers, hanswer, ih hnext]
    · exact fun op' h' => hops op' (List.mem_cons_of_mem _ h')
    · exact fun op' h' => hjson op' (List.mem_cons_of_mem _ h')

end

/-! ## Interchangeable -/

section
variable {t₀ : ℚ} {kind key : String}

/-- The operation writes or takes this record. -/
def Touches (kind key : String) : StoreOp → Prop
  | .put k n _ _ => kind = k ∧ key = n
  | .pop k n => kind = k ∧ key = n
  | _ => False

/-- Other operations do not matter to a record. -/
theorem latest_untouched (hlock : kind ≠ "lock") {mid : List StoreOp}
    (hmid : ∀ op ∈ mid, ¬ Touches kind key op) (h : List StoreOp) :
    latest t₀ (mid ++ h) kind key = latest t₀ h kind key := by
  induction mid with
  | nil => rfl
  | cons op mid ih =>
    have hrest := ih fun op' h' => hmid op' (List.mem_cons_of_mem _ h')
    have hop := hmid op List.mem_cons_self
    rw [List.cons_append]
    cases op with
    | get | advance => exact hrest
    | put | pop =>
      rw [latest, if_neg (show ¬ (_ ∧ _) from hop)]
      exact hrest
    | acquire | release =>
      rw [latest, if_neg fun heq => hlock heq.1]
      exact hrest

/-- A record is gone once it is popped, until it is written again. -/
theorem latest_popped (hlock : kind ≠ "lock") {mid : List StoreOp}
    (hmid : ∀ op ∈ mid, ∀ value ttl, op ≠ .put kind key value ttl) (h : List StoreOp) :
    latest t₀ (mid ++ .pop kind key :: h) kind key = none := by
  induction mid with
  | nil => simp [latest]
  | cons op mid ih =>
    have hrest := ih fun op' h' => hmid op' (List.mem_cons_of_mem _ h')
    have hop := hmid op List.mem_cons_self
    rw [List.cons_append]
    cases op with
    | get | advance => exact hrest
    | put k n value ttl =>
      rw [latest, if_neg]
      · exact hrest
      · rintro ⟨rfl, rfl⟩
        exact hop value ttl rfl
    | pop k n =>
      rw [latest]
      split
      · rfl
      · exact hrest
    | acquire | release =>
      rw [latest, if_neg fun heq => hlock heq.1]
      exact hrest

end

/-- On every admissible sequence the two stores return the same. A record is
    what was written last under exactly its kind and key, until it expires or
    the first pop takes it. -/
theorem stores_agree (json : JsonModule) (t₀ : ℚ) {ops : List StoreOp}
    (hops : ∀ op ∈ ops, Admissible op) (hjson : ∀ op ∈ ops, Faithful json op) :
    results MemoryStore.step (.empty t₀) ops = results (RedisStore.step json) (.empty t₀) ops ∧
    results MemoryStore.step (.empty t₀) ops = answers t₀ [] ops ∧
    (∀ kind key, kind ≠ "lock" → ∀ mid h value ttl, (∀ op ∈ mid, ¬ Touches kind key op) →
      visible t₀ (mid ++ .put kind key value ttl :: h) kind key =
        if ∀ n, ttl = some n → clock t₀ (mid ++ .put kind key value ttl :: h) < clock t₀ h + n then
          some value
        else none) ∧
    ∀ kind key, kind ≠ "lock" → ∀ mid h, (∀ op ∈ mid, ∀ value ttl, op ≠ .put kind key value ttl) →
      visible t₀ (mid ++ .pop kind key :: h) kind key = none := by
  -- both agree with the history, hence with each other
  have hmemory : results MemoryStore.step (.empty t₀) ops = answers t₀ [] ops :=
    memory_results ⟨rfl, fun _ _ _ _ => rfl⟩ ops
  have hredis : results (RedisStore.step json) (.empty t₀) ops = answers t₀ [] ops :=
    redis_results ⟨rfl, fun _ _ _ _ _ => rfl⟩ hops hjson
  refine ⟨hmemory.trans hredis.symm, hmemory, ?_, ?_⟩
  · intro kind key hlock mid h value ttl hmid
    have hlatest : latest t₀ (.put kind key value ttl :: h) kind key =
        some (value, ttl.map fun n : ℤ => clock t₀ h + (n : ℚ)) := by
      rw [latest, if_pos ⟨rfl, rfl⟩]
    rw [visible, latest_untouched hlock hmid, hlatest]
    cases ttl with
    | none => simp
    | some n =>
      rw [Option.map_some, liveAt_until]
      simp only [Option.some.injEq, forall_eq']
      split
      · rfl
      · rfl
  · intro kind key hlock mid h hmid
    rw [visible, latest_popped hlock hmid]
    rfl

/-- Python's `json` as far as the samples need it. -/
def sampleJson : JsonModule where
  dumps
    | .obj [("sub", .str "ann")] => "\x7b\"sub\": \"ann\"\x7d"
    | _ => "\x7b\x7d"
  loads raw :=
    if raw = "\x7b\"sub\": \"ann\"\x7d" then some (.obj [("sub", .str "ann")])
    else if raw = "\x7b\x7d" then some (.obj [])
    else if raw = "1" then some (.num 1)
    else none

/-- A code is issued, redeemed, and redeemed again. -/
def sampleOps : List StoreOp :=
  [.put "code" "c" [("sub", .str "ann")] (some 120), .advance 60, .pop "code" "c", .pop "code" "c"]

theorem stores_agree_sample :
    results MemoryStore.step (.empty 0) sampleOps =
      results (RedisStore.step sampleJson) (.empty 0) sampleOps := by
  refine (stores_agree sampleJson 0 ?_ ?_).1
  · simp only [sampleOps, List.forall_mem_cons]
    refine ⟨⟨by decide, fun n hn => ?_⟩, trivial, ⟨by decide, by decide⟩, ⟨by decide, by decide⟩, ?_⟩
    · cases hn
      decide
    · exact fun _ h => by cases h
  · simp only [sampleOps, List.forall_mem_cons]
    exact ⟨⟨by decide, rfl⟩, trivial, trivial, trivial, fun _ h => by cases h⟩

/-- A lock that is read as a record is an empty one in memory, and a number on
    Redis. -/
theorem locks_differ :
    results MemoryStore.step (.empty 0) [.acquire "x" 10, .get "lock" "x"] =
      [.locked true, .record (some (.obj []))] ∧
    results (RedisStore.step sampleJson) (.empty 0) [.acquire "x" 10, .get "lock" "x"] =
      [.locked true, .record (some (.num 1))] := by
  have hlive : (0 : ℚ) < 10 := by decide
  constructor
  · simp [results, MemoryStore.step, MemoryStore.empty, MemoryStore.expire, MemoryStore.put,
      MemoryStore.set, MemoryStore.hit, liveAt_until, hlive]
  · simp [results, RedisStore.step, RedisStore.refused, RedisStore.read, Redis.empty, Redis.get, Redis.set,
      liveAt_until, hlive, sampleJson]

end AlitellmAuth.Stores
