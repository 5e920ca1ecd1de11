import AlitellmAuth.Framework.PyText
import AlitellmAuth.Litellm.Client
import AlitellmAuth.Stats.TopKeys

/-! # The budget on two pages

    `session.py`: `/me` and `/stats` each read the budget of the user, from the
    user object and from the cap that LiteLLM enforces, and each shows it in its
    own way. The code calls a disagreement between the two a bug.

    * `get_team_budget`, `get_team_member_budget`: the cap, on either path.
    * `budget_block`: the figures both pages start from.
    * `session_me_budget`, `session_stats_budget`: what the pages show. A page
      that cannot be written as JSON is not served, nor is one whose figures
      cannot be computed.
    * `agree_iff`: when they show the same. `/me` merges the block over the
      limits of the user object only if there is something in the block, so a
      block that says "no budget" leaves the limit of the user object standing.
      And only `/stats` divides the spend by the limit.
-/

namespace AlitellmAuth.Session

open Litellm

/-- What the pages do with floats. -/
structure BudgetFloats (F : Type) where
  /-- `0.0`. -/
  zero : F
  /-- `float(n)`; none is an `OverflowError`. -/
  ofInt : Int → Option F
  /-- `float(text)`; none is a `ValueError`. -/
  ofText : PyStr → Option F
  /-- `x / y`, where `y` is no zero. -/
  div : F → F → F

/-- The fields of a dictionary. -/
abbrev Fields (F : Type) := List (PyStr × PyValue F)

/-! ## The cap -/

/-- An enforced budget. -/
structure Cap (F : Type) where
  max_budget : PyValue F
  current : F
  budget_duration : PyValue F

/-- `value is None`. -/
def is_none {F : Type} : PyValue F → Bool
  | .null => true
  | _ => false

section
variable {F : Type} (P : Printing F) (ops : BudgetFloats F)

/-- `float(value)`. -/
def py_float : PyValue F → Except PyError F
  | .float x => .ok x
  | .str s =>
      match ops.ofText s with
      | some x => .ok x
      | none => .error .value
  | value =>
      match value.asInt with
      | some n =>
          match ops.ofInt n with
          | some x => .ok x
          | none => .error .overflow
      | none => .error .type

/-- `float(value or 0)`. -/
def float_or_zero (value : PyValue F) : Except PyError F :=
  if value.truthy P.isZero then py_float ops value else .ok ops.zero

/-- `_team_info`: the team in a body, nested or flat; none for any failure. -/
def team_info : Option (PyValue F) → Option (Fields F)
  | some (.obj data) =>
      match PyValue.get data "team_info" with
      | .obj team => some team
      | _ => some data
  | _ => none

/-- `get_team_budget`, given the answer to `/team/info`. -/
def get_team_budget (answer : Option (PyValue F)) : Except PyError (Option (Cap F)) :=
  match team_info answer with
  | none => .ok none
  | some team =>
      if is_none (PyValue.get team "max_budget") && is_none (PyValue.get team "spend") then .ok none
      else do
        let current ← float_or_zero P ops (PyValue.get team "spend")
        return some
          { max_budget := PyValue.get team "max_budget", current
            budget_duration := PyValue.get team "budget_duration" }

/-- The membership of a user in a list of memberships. -/
def membership (email : String) (memberships : List (PyValue F)) : Option (Fields F) :=
  memberships.findSome? fun
    | .obj m => if (PyValue.get m "user_id").is email then some m else none
    | _ => none

/-- `budget_table if isinstance(budget_table, dict) else {}`. -/
def budget_table : PyValue F → Fields F
  | .obj table => table
  | _ => []

/-- `get_team_member_budget`, given the body of `/team/info`. -/
def get_team_member_budget (email : String) (data : PyValue F) :
    Except PyError (Option (Cap F)) :=
  match data with
  | .obj data =>
      let memberships := PyValue.get data "team_memberships"
      match if memberships.truthy P.isZero then memberships else .arr [] with
      | .arr memberships =>
          match membership email memberships with
          | none => .ok none
          | some member =>
              let table := budget_table (PyValue.get member "litellm_budget_table")
              if is_none (PyValue.get table "max_budget") && is_none (PyValue.get member "spend") then
                .ok none
              else do
                let current ← float_or_zero P ops (PyValue.get member "spend")
                return some
                  { max_budget := PyValue.get table "max_budget", current
                    budget_duration := PyValue.get table "budget_duration" }
      | _ => .ok none
  | _ => .ok none

/-! ## The block -/

inductive Source where
  | team
  | team_member
  | user
  | unknown
  deriving DecidableEq

/-- The text of a source. -/
def Source.text : Source → String
  | .team => "team"
  | .team_member => "team_member"
  | .user => "user"
  | .unknown => "unknown"

structure BudgetBlock (F : Type) where
  current : F
  max_budget : PyValue F
  budget_duration : PyValue F
  source : Source

/-- `a or b`. -/
def value_or (a b : PyValue F) : PyValue F := if a.truthy P.isZero then a else b

/-- `float(x or 0)` of a float. -/
def or_zero (x : F) : F := if P.isZero x then ops.zero else x

/-- The block of an enforced budget. -/
def cap_block (user : Fields F) (cap : Cap F) (source : Source) : BudgetBlock F :=
  { current := or_zero P ops cap.current
    max_budget := cap.max_budget
    budget_duration := value_or P cap.budget_duration (PyValue.get user "budget_duration")
    source }

/-- `_budget_block`. `user.get("spend", 0.0)` of a missing field and of `null`
    count as nothing alike. -/
def budget_block (user : Fields F) (member team : Option (Cap F)) :
    Except PyError (BudgetBlock F) :=
  match team, member with
  | some team, _ => .ok (cap_block P ops user team .team)
  | none, some member => .ok (cap_block P ops user member .team_member)
  | none, none => do
      let user_spend := PyValue.get user "spend"
      let has_user_data := !is_none (PyValue.get user "max_budget") || user_spend.truthy P.isZero
      let current ← if has_user_data then float_or_zero P ops user_spend else .ok ops.zero
      return {
        current
        max_budget := PyValue.get user "max_budget"
        budget_duration := PyValue.get user "budget_duration"
        source := if has_user_data then .user else .unknown }

/-! ## The pages -/

/-- What becomes of a read. -/
inductive Read (α : Type) where
  | answer (a : α)
  | failed

/-- The reads that both pages make. -/
structure Reads (F : Type) where
  get_litellm_user : String → Read (Fields F)
  get_team_budget : String → Read (Option (Cap F))
  get_team_member_budget : String → Read (Option (Cap F))

/-- The user object; none was found, or the read failed. -/
def Read.user : Read (Fields F) → Fields F
  | .answer user => user
  | .failed => []

/-- The cap; none is there, or the read failed. -/
def Read.cap : Read (Option (Cap F)) → Option (Cap F)
  | .answer cap => cap
  | .failed => none

/-- `JSONResponse`: a body with a float that is not finite, or with a text that
    cannot be encoded, is a `ValueError`. -/
def render_page {α : Type} (body : α → PyValue F) (page : α) : Except PyError α :=
  if (body page).renderable P then .ok page else .error .value

structure Limits (F : Type) where
  max_budget : PyValue F
  budget_duration : PyValue F
  tpm_limit : PyValue F
  rpm_limit : PyValue F

/-- `_build_limits`. -/
def build_limits (user : Fields F) : Option (Limits F) :=
  let limits : Limits F :=
    { max_budget := PyValue.get user "max_budget"
      budget_duration := PyValue.get user "budget_duration"
      tpm_limit := PyValue.get user "tpm_limit", rpm_limit := PyValue.get user "rpm_limit" }
  if is_none limits.max_budget && is_none limits.budget_duration && is_none limits.tpm_limit &&
      is_none limits.rpm_limit then none
  else some limits

/-- What `/me` shows of the budget. -/
structure MeBudget (F : Type) where
  limits : Option (Limits F)
  current : F
  source : Source

/-- The limits in a body. -/
def limits_value : Option (Limits F) → PyValue F
  | some limits => PyValue.dict
      [("tpm_limit", limits.tpm_limit), ("rpm_limit", limits.rpm_limit),
        ("max_budget", limits.max_budget), ("budget_duration", limits.budget_duration)]
  | none => .null

/-- The part of the body of `/me`. -/
def MeBudget.body (page : MeBudget F) : PyValue F :=
  PyValue.dict [("limits", limits_value page.limits),
    ("spend", PyValue.dict [("current", .float page.current),
      ("source", PyValue.text page.source.text)])]

/-- The block over the limits, if there is something in it. -/
def merge_limits (limits : Option (Limits F)) (block : BudgetBlock F) : Option (Limits F) :=
  if !is_none block.max_budget || !is_none block.budget_duration then
    let limits := limits.getD ⟨.null, .null, .null, .null⟩
    some { limits with max_budget := block.max_budget, budget_duration := block.budget_duration }
  else limits

/-- What `/me` makes of the block. -/
def me_page (user : Fields F) (block : BudgetBlock F) : Except PyError (MeBudget F) :=
  render_page P MeBudget.body
    { limits := merge_limits (build_limits user) block
      current := block.current
      source := block.source }

/-- The budget in `session_me`. -/
def session_me_budget (settings : LitellmSettings) (email : String) (reads : Reads F) :
    Except PyError (MeBudget F) := do
  let personal := settings.personal_teams_enabled
  let team_id := if personal then settings.personal_team_id email else settings.team_id
  let litellm_user := (reads.get_litellm_user email).user
  let budget := (if personal then reads.get_team_budget team_id
    else reads.get_team_member_budget email).cap
  let block ← budget_block P ops litellm_user (if personal then none else budget)
    (if personal then budget else none)
  me_page P litellm_user block

/-- `_safe_pct` with a whole number, which becomes a float to be divided by. -/
def whole_pct (current : F) (n : Int) : Except PyError (Option F) :=
  if n = 0 then .ok none
  else
    match ops.ofInt n with
    | some x => .ok (some (ops.div current x))
    | none => .error .overflow

/-- `_safe_pct(current_spend, max_budget)`, with a limit of any type. -/
def budget_pct (current : F) : PyValue F → Except PyError (Option F)
  | .null => .ok none
  | .float x => .ok (Stats.safe_pct P.isZero ops.div current x)
  | value =>
      match value.asInt with
      | some n => whole_pct ops current n
      | none => .error .type

/-- The budget block of `/stats`. -/
structure StatsBudget (F : Type) where
  current : F
  max_budget : PyValue F
  budget_duration : PyValue F
  source : Source
  pct : Option F
  has_budget : Bool

/-- A percentage in a body. -/
def pct_value (pct : Option F) : PyValue F := (pct.map PyValue.float).getD .null

/-- The part of the body of `/stats`. -/
def StatsBudget.body (page : StatsBudget F) : PyValue F :=
  PyValue.dict [("current", .float page.current), ("max_budget", page.max_budget),
    ("budget_duration", page.budget_duration), ("source", PyValue.text page.source.text),
    ("pct", pct_value page.pct), ("has_budget", .bool page.has_budget)]

/-- What `/stats` makes of the block. -/
def stats_page (block : BudgetBlock F) : Except PyError (StatsBudget F) := do
  let pct ← budget_pct P ops block.current block.max_budget
  render_page P StatsBudget.body
    { current := block.current
      max_budget := block.max_budget
      budget_duration := block.budget_duration
      source := block.source
      pct
      has_budget := !is_none block.max_budget }

/-- The budget in `session_stats`. -/
def session_stats_budget (settings : LitellmSettings) (email : String) (reads : Reads F) :
    Except PyError (StatsBudget F) := do
  let personal := settings.personal_teams_enabled
  let user_obj := (reads.get_litellm_user email).user
  let cap := (if personal then reads.get_team_budget (settings.personal_team_id email)
    else reads.get_team_member_budget email).cap
  let block ← budget_block P ops user_obj (if personal then none else cap)
    (if personal then cap else none)
  stats_page P ops block

/-! ## Agreement -/

/-- A field of the limits; without limits it is null. -/
def limit (key : Limits F → PyValue F) : Option (Limits F) → PyValue F
  | some limits => key limits
  | none => .null

/-- Both pages show the same figures, or neither of them any. -/
def Agree : Except PyError (MeBudget F) → Except PyError (StatsBudget F) → Prop
  | .ok me, .ok stats =>
      limit (·.max_budget) me.limits = stats.max_budget ∧
        limit (·.budget_duration) me.limits = stats.budget_duration ∧
          me.current = stats.current ∧ me.source = stats.source
  | .error _, .error _ => True
  | _, _ => False

/-- The cap that is read for a user. -/
def cap_read (settings : LitellmSettings) (email : String) (reads : Reads F) : Option (Cap F) :=
  if settings.personal_teams_enabled then
    (reads.get_team_budget (settings.personal_team_id email)).cap
  else (reads.get_team_member_budget email).cap

/-- The limit that counts: the cap's, or the user object's without a cap. -/
def limit_read (user : Fields F) : Option (Cap F) → PyValue F
  | some cap => cap.max_budget
  | none => PyValue.get user "max_budget"

/-- The duration that counts: the cap's if it has one. -/
def duration_read (user : Fields F) : Option (Cap F) → PyValue F
  | some cap => value_or P cap.budget_duration (PyValue.get user "budget_duration")
  | none => PyValue.get user "budget_duration"

/-- The spend that counts; the one of a user object may be no number. -/
def SpendIs (user : Fields F) (cap : Option (Cap F)) (current : F) : Prop :=
  match cap with
  | some cap => or_zero P ops cap.current = current
  | none => float_or_zero P ops (PyValue.get user "spend") = .ok current

/-- A value that JSON can be made of: its floats are finite, its texts can be
    encoded. -/
def Writes (value : PyValue F) : Prop := value.renderable P = true

/-- The figures that both pages show can be read and written. -/
structure Figures (user : Fields F) (cap : Option (Cap F)) (current : F) : Prop where
  spend : SpendIs P ops user cap current
  finite : P.isFinite current = true
  limit : Writes P (limit_read user cap)
  duration : Writes P (duration_read P user cap)

/-- A limit that the spend can be divided by: none, a zero, or a number for which
    the quotient is a finite float. -/
def Divides (current : F) : PyValue F → Prop
  | .null => True
  | .float x => P.isZero x = true ∨ P.isFinite (ops.div current x) = true
  | value => ∃ n, value.asInt = some n ∧
      (n = 0 ∨ ∃ x, ops.ofInt n = some x ∧ P.isFinite (ops.div current x) = true)

/-- The limit and the duration that count are both null. -/
def Silent (user : Fields F) (cap : Option (Cap F)) : Prop :=
  limit_read user cap = .null ∧ duration_read P user cap = .null

/-- What only `/me` shows can be written. -/
structure LimitsWrite (user : Fields F) (cap : Option (Cap F)) : Prop where
  tpm : Writes P (PyValue.get user "tpm_limit")
  rpm : Writes P (PyValue.get user "rpm_limit")
  hidden : Silent P user cap → Writes P (PyValue.get user "max_budget")

/-- When the pages agree, given that their common figures can be read and
    written, for else neither is served: `/stats` can divide by the limit just if
    `/me` can write its other limits, and an enforced budget that says nothing
    comes with a user object that has no limit of its own. -/
structure Agreeing (user : Fields F) (cap : Option (Cap F)) : Prop where
  served : ∀ current, Figures P ops user cap current →
    (LimitsWrite P user cap ↔ Divides P ops current (limit_read user cap))
  silent : ∀ current, Figures P ops user cap current → LimitsWrite P user cap →
    Silent P user cap → PyValue.get user "max_budget" = .null

end

/-! ## What is served -/

section
variable {F : Type} {P : Printing F} {ops : BudgetFloats F}

theorem is_none_iff (value : PyValue F) : is_none value = true ↔ value = .null := by
  cases value <;> simp [is_none]

/-- A page is served if its body can be written. -/
theorem render_page_cases {α : Type} (body : α → PyValue F) (page : α) :
    (render_page P body page = .ok page ∧ Writes P (body page)) ∨
      (render_page P body page = .error .value ∧ ¬ Writes P (body page)) := by
  unfold render_page Writes
  by_cases h : (body page).renderable P = true
  · exact .inl ⟨if_pos h, h⟩
  · exact .inr ⟨if_neg h, h⟩

theorem pct_none_writes : Writes P (pct_value none) := PyValue.renderable_null P

theorem pct_some_writes_iff (x : F) : Writes P (pct_value (some x)) ↔ P.isFinite x = true := by
  unfold Writes pct_value
  rw [Option.map_some, Option.getD_some, PyValue.renderable]

theorem whole_pct_iff (current : F) (n : Int) :
    (∃ pct, whole_pct ops current n = .ok pct ∧ Writes P (pct_value pct)) ↔
      n = 0 ∨ ∃ x, ops.ofInt n = some x ∧ P.isFinite (ops.div current x) = true := by
  unfold whole_pct
  by_cases hzero : n = 0
  · rw [if_pos hzero]
    exact iff_of_true ⟨none, rfl, pct_none_writes⟩ (.inl hzero)
  · rw [if_neg hzero]
    cases ops.ofInt n with
    | none => simp [hzero]
    | some x => simp [hzero, pct_some_writes_iff]

/-- There is a percentage that can be written, or none, if and only if the limit
    can be divided by. -/
theorem budget_pct_iff (current : F) (value : PyValue F) :
    (∃ pct, budget_pct P ops current value = .ok pct ∧ Writes P (pct_value pct)) ↔
      Divides P ops current value := by
  cases value with
  | null => exact iff_of_true ⟨none, rfl, pct_none_writes⟩ trivial
  | float x =>
    show (∃ pct, Except.ok (Stats.safe_pct P.isZero ops.div current x) = .ok pct ∧ _) ↔
      P.isZero x = true ∨ P.isFinite (ops.div current x) = true
    unfold Stats.safe_pct
    by_cases hzero : P.isZero x = true
    · rw [if_pos hzero]
      exact iff_of_true ⟨none, rfl, pct_none_writes⟩ (.inl hzero)
    · simp [hzero, pct_some_writes_iff]
  | bool b =>
    refine (whole_pct_iff current (if b then 1 else 0)).trans ?_
    simp [Divides, PyValue.asInt]
  | int n =>
    refine (whole_pct_iff current n).trans ?_
    simp [Divides, PyValue.asInt]
  | str | arr | obj =>
    -- no number at all
    refine iff_of_false ?_ ?_
    · intro ⟨pct, h, _⟩
      cases h
    · intro ⟨n, h, _⟩
      cases h

/-- `/stats` is served if and only if its figures can be written and divided. -/
def StatsServed (P : Printing F) (ops : BudgetFloats F) (block : BudgetBlock F) : Prop :=
  Divides P ops block.current block.max_budget ∧ P.isFinite block.current = true ∧
    Writes P block.max_budget ∧ Writes P block.budget_duration

theorem stats_body_writes_iff (page : StatsBudget F) : Writes P page.body ↔
    P.isFinite page.current = true ∧ Writes P page.max_budget ∧ Writes P page.budget_duration ∧
      Writes P (pct_value page.pct) := by
  simp [Writes, StatsBudget.body, PyValue.renderable]

theorem stats_page_cases (block : BudgetBlock F) :
    (∃ pct, stats_page P ops block = .ok ⟨block.current, block.max_budget, block.budget_duration,
        block.source, pct, !is_none block.max_budget⟩ ∧ StatsServed P ops block) ∨
      ((∃ e, stats_page P ops block = .error e) ∧ ¬ StatsServed P ops block) := by
  have hpct := @budget_pct_iff F P ops block.current block.max_budget
  unfold stats_page StatsServed
  cases hrun : budget_pct P ops block.current block.max_budget with
  | error e =>
    refine .inr ⟨⟨e, rfl⟩, ?_⟩
    rw [← hpct, hrun]
    simp
  | ok pct =>
    rw [hrun] at hpct
    have hdivides : Divides P ops block.current block.max_budget ↔ Writes P (pct_value pct) := by
      rw [← hpct]
      simp
    rw [hdivides]
    rcases @render_page_cases F P _ StatsBudget.body ⟨block.current, block.max_budget,
      block.budget_duration, block.source, pct, !is_none block.max_budget⟩ with ⟨hok, hw⟩ | ⟨herr, hw⟩
    · rw [stats_body_writes_iff] at hw
      exact .inl ⟨pct, hok, hw.2.2.2, hw.1, hw.2.1, hw.2.2.1⟩
    · rw [stats_body_writes_iff] at hw
      refine .inr ⟨⟨_, herr⟩, ?_⟩
      intro ⟨hwp, hfinite, hmax, hduration⟩
      exact hw ⟨hfinite, hmax, hduration, hwp⟩

/-! ## The merge -/

/-- The limits of a user object, with null for none of them. -/
theorem build_limits_eq (user : Fields F) :
    build_limits user = some ⟨PyValue.get user "max_budget", PyValue.get user "budget_duration",
        PyValue.get user "tpm_limit", PyValue.get user "rpm_limit"⟩ ∨
      build_limits user = none ∧ PyValue.get user "max_budget" = .null ∧
        PyValue.get user "budget_duration" = .null ∧ PyValue.get user "tpm_limit" = .null ∧
          PyValue.get user "rpm_limit" = .null := by
  unfold build_limits
  dsimp only
  split
  · next h =>
    simp only [Bool.and_eq_true, is_none_iff] at h
    exact .inr ⟨rfl, h.1.1.1, h.1.1.2, h.1.2, h.2⟩
  · exact .inl rfl

/-- Whatever is in a block is shown, beside the other limits. -/
theorem merge_limits_full (user : Fields F) {block : BudgetBlock F}
    (h : ¬ (block.max_budget = .null ∧ block.budget_duration = .null)) :
    merge_limits (build_limits user) block = some ⟨block.max_budget, block.budget_duration,
      PyValue.get user "tpm_limit", PyValue.get user "rpm_limit"⟩ := by
  have hsome : (!is_none block.max_budget || !is_none block.budget_duration) = true := by
    simpa [← is_none_iff, Bool.or_eq_true, imp_iff_not_or] using h
  unfold merge_limits
  rw [if_pos hsome]
  rcases build_limits_eq user with hbuild | ⟨hbuild, -, -, htpm, hrpm⟩
  · rw [hbuild]
    rfl
  · rw [hbuild, htpm, hrpm]
    rfl

/-- An empty block leaves the limits as they are. -/
theorem merge_limits_empty (limits : Option (Limits F)) {block : BudgetBlock F}
    (hmax : block.max_budget = .null) (hduration : block.budget_duration = .null) :
    merge_limits limits block = limits := by
  unfold merge_limits
  rw [hmax, hduration]
  rfl

theorem limits_value_writes_iff (limits : Limits F) : Writes P (limits_value (some limits)) ↔
    Writes P limits.max_budget ∧ Writes P limits.budget_duration ∧ Writes P limits.tpm_limit ∧
      Writes P limits.rpm_limit := by
  simp only [Writes, limits_value, PyValue.renderable_dict, List.all_cons, List.all_nil,
    Bool.and_eq_true, Bool.and_true]
  tauto
theorem build_limits_writes_iff (user : Fields F) : Writes P (limits_value (build_limits user)) ↔
    Writes P (PyValue.get user "max_budget") ∧ Writes P (PyValue.get user "budget_duration") ∧
      Writes P (PyValue.get user "tpm_limit") ∧ Writes P (PyValue.get user "rpm_limit") := by
  rcases build_limits_eq user with hbuild | ⟨hbuild, hmax, hduration, htpm, hrpm⟩
  · rw [hbuild, limits_value_writes_iff]
  · rw [hbuild, hmax, hduration, htpm, hrpm]
    have hnull : Writes P (.null : PyValue F) := PyValue.renderable_null P
    exact iff_of_true hnull ⟨hnull, hnull, hnull, hnull⟩

/-- A block that says nothing. -/
def BudgetBlock.Empty (block : BudgetBlock F) : Prop :=
  block.max_budget = .null ∧ block.budget_duration = .null

/-- What `/me` adds to the block can be written. -/
def RestWrites (P : Printing F) (user : Fields F) (block : BudgetBlock F) : Prop :=
  Writes P (PyValue.get user "tpm_limit") ∧ Writes P (PyValue.get user "rpm_limit") ∧
    (block.Empty → Writes P (PyValue.get user "max_budget"))

section
variable {user : Fields F} {block : BudgetBlock F}
  (hduration : block.budget_duration = .null → PyValue.get user "budget_duration" = .null)
include hduration

theorem merge_limits_writes_iff : Writes P (limits_value (merge_limits (build_limits user) block)) ↔
    Writes P block.max_budget ∧ Writes P block.budget_duration ∧ RestWrites P user block := by
  unfold RestWrites
  by_cases hempty : block.Empty
  · obtain ⟨hmax, hdur⟩ := hempty
    have hnull : Writes P (.null : PyValue F) := PyValue.renderable_null P
    rw [merge_limits_empty _ hmax hdur, build_limits_writes_iff, hduration hdur, hmax, hdur]
    constructor
    · intro ⟨hw, _, htpm, hrpm⟩
      exact ⟨hnull, hnull, htpm, hrpm, fun _ => hw⟩
    · intro ⟨_, _, htpm, hrpm, hw⟩
      exact ⟨hw ⟨hmax, hdur⟩, hnull, htpm, hrpm⟩
  · rw [merge_limits_full user hempty, limits_value_writes_iff]
    constructor
    · intro ⟨hmax, hdur, htpm, hrpm⟩
      exact ⟨hmax, hdur, htpm, hrpm, fun h => absurd h hempty⟩
    · intro ⟨hmax, hdur, htpm, hrpm, _⟩
      exact ⟨hmax, hdur, htpm, hrpm⟩

/-- The limits shown by `/me` are those of the block, unless the block is empty
    and the user object has a limit. -/
theorem merge_limits_same_iff :
    (limit (·.max_budget) (merge_limits (build_limits user) block) = block.max_budget ∧
      limit (·.budget_duration) (merge_limits (build_limits user) block) = block.budget_duration) ↔
    (block.Empty → PyValue.get user "max_budget" = .null) := by
  by_cases hempty : block.Empty
  · obtain ⟨hmax, hdur⟩ := hempty
    have hlimit : limit (·.max_budget) (build_limits user) = PyValue.get user "max_budget" ∧
        limit (·.budget_duration) (build_limits user) = PyValue.get user "budget_duration" := by
      rcases build_limits_eq user with hbuild | ⟨hbuild, hmax', hdur', -, -⟩
      · rw [hbuild]
        exact ⟨rfl, rfl⟩
      · rw [hbuild, hmax', hdur']
        exact ⟨rfl, rfl⟩
    rw [merge_limits_empty _ hmax hdur, hlimit.1, hlimit.2, hduration hdur, hmax, hdur]
    constructor
    · intro h _
      exact h.1
    · intro h
      exact ⟨h ⟨hmax, hdur⟩, rfl⟩
  · rw [merge_limits_full user hempty]
    exact iff_of_true ⟨rfl, rfl⟩ fun h => absurd h hempty

theorem me_page_cases :
    (me_page P user block = .ok ⟨merge_limits (build_limits user) block, block.current, block.source⟩ ∧
      P.isFinite block.current = true ∧ Writes P block.max_budget ∧
        Writes P block.budget_duration ∧ RestWrites P user block) ∨
      (me_page P user block = .error .value ∧
        ¬ (P.isFinite block.current = true ∧ Writes P block.max_budget ∧
          Writes P block.budget_duration ∧ RestWrites P user block)) := by
  have hbody : Writes P
      (⟨merge_limits (build_limits user) block, block.current, block.source⟩ : MeBudget F).body ↔
      P.isFinite block.current = true ∧ Writes P block.max_budget ∧
        Writes P block.budget_duration ∧ RestWrites P user block := by
    rw [← merge_limits_writes_iff hduration]
    simp [Writes, MeBudget.body, PyValue.renderable, and_comm]
  rcases @render_page_cases F P _ MeBudget.body ⟨merge_limits (build_limits user) block, block.current,
    block.source⟩ with ⟨hok, hw⟩ | ⟨herr, hw⟩
  · exact .inl ⟨hok, hbody.mp hw⟩
  · exact .inr ⟨herr, fun h => hw (hbody.mpr h)⟩

/-- From a block whose figures can be written, the pages agree if and only if both
    or none of them are served, and nothing stands behind an empty block. -/
theorem agree_block_iff : Agree (me_page P user block) (stats_page P ops block) ↔
    (P.isFinite block.current = true → Writes P block.max_budget → Writes P block.budget_duration →
      (RestWrites P user block ↔ Divides P ops block.current block.max_budget) ∧
        (RestWrites P user block → block.Empty → PyValue.get user "max_budget" = .null)) := by
  rcases @me_page_cases F P user block hduration with
    ⟨hme, hfinite, hmax, hdur, hrest⟩ | ⟨hme, hme'⟩ <;>
  rcases @stats_page_cases F P ops block with
    ⟨pct, hstats, hdivides, hfinite', hmax', hdur'⟩ | ⟨⟨e, hstats⟩, hstats'⟩
  -- both pages are served
  · rw [hme, hstats]
    constructor
    · intro ⟨hlimit, hduration', _, _⟩ _ _ _
      exact ⟨iff_of_true hrest hdivides, fun _ => (merge_limits_same_iff hduration).mp
        ⟨hlimit, hduration'⟩⟩
    · intro h
      obtain ⟨hlimit, hduration'⟩ := (merge_limits_same_iff hduration).mpr
        ((h hfinite hmax hdur).2 hrest)
      exact ⟨hlimit, hduration', rfl, rfl⟩
  -- one of the two fails: they differ
  · rw [hme, hstats]
    refine iff_of_false id ?_
    intro h
    exact hstats' ⟨(h hfinite hmax hdur).1.mp hrest, hfinite, hmax, hdur⟩
  · rw [hme, hstats]
    refine iff_of_false id ?_
    intro h
    exact hme' ⟨hfinite', hmax', hdur', (h hfinite' hmax' hdur').1.mpr hdivides⟩
  -- both fail, and there is nothing to compare
  · rw [hme, hstats]
    refine iff_of_true trivial ?_
    intro hfinite hmax hdur
    have hrest : ¬ RestWrites P user block := fun h => hme' ⟨hfinite, hmax, hdur, h⟩
    have hdivides : ¬ Divides P ops block.current block.max_budget :=
      fun h => hstats' ⟨h, hfinite, hmax, hdur⟩
    exact ⟨iff_of_false hrest hdivides, fun h => absurd h hrest⟩

end
/-! ## From the reads -/

/-- Both pages start from the block of the same two reads. -/
theorem pages_eq (settings : LitellmSettings) (email : String) (reads : Reads F) :
    (session_me_budget P ops settings email reads, session_stats_budget P ops settings email reads) =
      let user := (reads.get_litellm_user email).user
      let block := match cap_read settings email reads with
        | some c => .ok (cap_block P ops user c
            (if settings.personal_teams_enabled then .team else .team_member))
        | none => budget_block P ops user none none
      (block >>= me_page P user, block >>= stats_page P ops) := by
  unfold session_me_budget session_stats_budget cap_read
  cases settings.personal_teams_enabled with
  | true =>
    simp only [if_true]
    cases (reads.get_team_budget (settings.personal_team_id email)).cap with
    | some c => rfl
    | none => rfl
  | false =>
    simp only [Bool.false_eq_true, if_false]
    cases (reads.get_team_member_budget email).cap with
    | some c => rfl
    | none => rfl

theorem value_or_eq_null_iff (a b : PyValue F) :
    value_or P a b = .null ↔ a.truthy P.isZero = false ∧ b = .null := by
  unfold value_or
  by_cases h : a.truthy P.isZero = true
  · rw [if_pos h, h]
    constructor
    · intro hnull
      rw [hnull] at h
      cases h
    · intro hfalse
      cases hfalse.1
  · rw [if_neg h]
    simp [h]

/-- A block that both pages start from has the figures that count. -/
structure BlockOf (P : Printing F) (ops : BudgetFloats F) (user : Fields F) (cap : Option (Cap F))
    (block : BudgetBlock F) : Prop where
  spend : ∀ current, SpendIs P ops user cap current ↔ current = block.current
  limit : block.max_budget = limit_read user cap
  duration : block.budget_duration = duration_read P user cap

theorem cap_block_of (user : Fields F) (cap : Cap F) (source : Source) :
    BlockOf P ops user (some cap) (cap_block P ops user cap source) where
  spend _ := eq_comm
  limit := rfl
  duration := rfl

/-- The block of a user object alone: its own figures, or an error if its spend
    is no number. -/
theorem user_block_cases (user : Fields F) :
    (∃ block, budget_block P ops user none none = .ok block ∧ BlockOf P ops user none block) ∨
      ∃ e, budget_block P ops user none none = .error e ∧
        ∀ current, ¬ SpendIs P ops user none current := by
  unfold budget_block
  dsimp only
  by_cases hdata : (!is_none (PyValue.get user "max_budget") ||
      (PyValue.get user "spend").truthy P.isZero) = true
  · rw [if_pos hdata]
    cases hfloat : float_or_zero P ops (PyValue.get user "spend") with
    | error e =>
      refine .inr ⟨e, rfl, ?_⟩
      intro current h
      rw [SpendIs, hfloat] at h
      cases h
    | ok x =>
      refine .inl ⟨_, rfl, ?_, rfl, rfl⟩
      intro current
      rw [SpendIs, hfloat]
      exact ⟨fun h => (Except.ok.inj h).symm, fun h => congrArg Except.ok h.symm⟩
  · rw [if_neg hdata]
    -- a spend that is nothing is zero
    have hspend : (PyValue.get user "spend").truthy P.isZero = false := by
      simp only [Bool.or_eq_true, not_or, Bool.not_eq_true] at hdata
      exact hdata.2
    refine .inl ⟨_, rfl, ?_, rfl, rfl⟩
    intro current
    rw [SpendIs, float_or_zero, hspend]
    exact ⟨fun h => (Except.ok.inj h).symm, fun h => congrArg Except.ok h.symm⟩

/-- A block without a duration comes from a user object without one. -/
theorem BlockOf.duration_null {user : Fields F} {cap : Option (Cap F)} {block : BudgetBlock F}
    (h : BlockOf P ops user cap block) (hnull : block.budget_duration = .null) :
    PyValue.get user "budget_duration" = .null := by
  rw [h.duration] at hnull
  cases cap with
  | none => exact hnull
  | some cap => exact ((value_or_eq_null_iff _ _).mp hnull).2

/-- What makes the pages of a block agree, said of the reads. -/
theorem BlockOf.agreeing_iff {user : Fields F} {cap : Option (Cap F)} {block : BudgetBlock F}
    (h : BlockOf P ops user cap block) :
    Agree (me_page P user block) (stats_page P ops block) ↔ Agreeing P ops user cap := by
  have hsilent : block.Empty ↔ Silent P user cap := by
    unfold BudgetBlock.Empty Silent
    rw [h.limit, h.duration]
  have hrest : RestWrites P user block ↔ LimitsWrite P user cap := by
    unfold RestWrites
    rw [hsilent]
    exact ⟨fun ⟨htpm, hrpm, hidden⟩ => ⟨htpm, hrpm, hidden⟩,
      fun hw => ⟨hw.tpm, hw.rpm, hw.hidden⟩⟩
  rw [agree_block_iff h.duration_null, hrest, hsilent, h.limit, h.duration]
  constructor
  · intro hblock
    constructor
    · intro current hf
      obtain rfl := (h.spend current).mp hf.spend
      exact (hblock hf.finite hf.limit hf.duration).1
    · intro current hf
      obtain rfl := (h.spend current).mp hf.spend
      exact (hblock hf.finite hf.limit hf.duration).2
  · intro hagreeing hfinite hmax hduration
    have hf : Figures P ops user cap block.current :=
      ⟨(h.spend _).mpr rfl, hfinite, hmax, hduration⟩
    exact ⟨hagreeing.served _ hf, hagreeing.silent _ hf⟩

/-- Both pages tell the same budget if and only if no enforced budget without a
    limit hides a limit of the user object, and `/stats` can divide by the limit
    wherever `/me` can show it. -/
theorem agree_iff (P : Printing F) (ops : BudgetFloats F) (settings : LitellmSettings)
    (email : String) (reads : Reads F) :
    Agree (session_me_budget P ops settings email reads)
        (session_stats_budget P ops settings email reads) ↔
      Agreeing P ops (reads.get_litellm_user email).user (cap_read settings email reads) := by
  refine (iff_of_eq (congrArg (fun pages => Agree pages.1 pages.2)
    (pages_eq settings email reads))).trans ?_
  dsimp only
  generalize (reads.get_litellm_user email).user = user
  cases cap_read settings email reads with
  | some c => exact (cap_block_of user c _).agreeing_iff
  | none =>
    rcases @user_block_cases F P ops user with ⟨block, hblock, hof⟩ | ⟨e, hblock, hnone⟩
    · dsimp only
      rw [hblock]
      exact hof.agreeing_iff
    · -- neither page has a spend to show
      dsimp only
      rw [hblock]
      refine iff_of_true trivial ⟨?_, ?_⟩
      · intro current hf
        exact absurd hf.spend (hnone current)
      · intro current hf
        exact absurd hf.spend (hnone current)

end

/-! ## A limit on one page -/

/-- Exact arithmetic. -/
def exact_budget : BudgetFloats Rat where
  zero := 0
  ofInt n := some n
  ofText _ := none
  div x y := x / y

/-- Exact numbers are finite. -/
def exact_printing : Printing Rat where
  isZero x := x == 0
  isFinite _ := true
  repr _ := ""
  dumps _ := ""
  printable _ := true

/-- A user object with a limit, and a personal team with a spend and no limit. -/
def capless : Reads Rat where
  get_litellm_user _ := .answer [(lit "spend", .int 1), (lit "max_budget", .int 50)]
  get_team_budget _ := .answer (some ⟨.null, 1, .null⟩)
  get_team_member_budget _ := .failed

/-- Personal teams, with an empty configuration otherwise. -/
def personal_settings : LitellmSettings :=
  { litellm_default_team := "default", personal_teams_enabled := true
    personal_team_prefix := "team-", default_access_groups := [], user_access_groups := []
    sso_access_groups := [], factory := .null, loads := fun _ => none }

/-- `/me` shows a limit of 50, `/stats` shows none. -/
theorem limit_on_one_page :
    get_team_budget exact_printing exact_budget
        (some (.obj [(lit "spend", .int 1), (lit "max_budget", .null)])) =
      .ok (some ⟨.null, 1, .null⟩) ∧
    session_me_budget exact_printing exact_budget personal_settings "a@b.c" capless =
      .ok ⟨some ⟨.int 50, .null, .null, .null⟩, 1, .team⟩ ∧
    session_stats_budget exact_printing exact_budget personal_settings "a@b.c" capless =
      .ok ⟨1, .null, .null, .team, none, false⟩ ∧
    ¬ Agree (session_me_budget exact_printing exact_budget personal_settings "a@b.c" capless)
      (session_stats_budget exact_printing exact_budget personal_settings "a@b.c" capless) := by
  have hme : session_me_budget exact_printing exact_budget personal_settings "a@b.c" capless =
      .ok ⟨some ⟨.int 50, .null, .null, .null⟩, 1, .team⟩ := by rfl
  have hstats : session_stats_budget exact_printing exact_budget personal_settings "a@b.c" capless =
      .ok ⟨1, .null, .null, .team, none, false⟩ := by rfl
  refine ⟨by rfl, hme, hstats, ?_⟩
  rw [hme, hstats]
  intro h
  cases h.1

end AlitellmAuth.Session
