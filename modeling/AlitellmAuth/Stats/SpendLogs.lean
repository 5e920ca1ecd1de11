import AlitellmAuth.Stats.Latency

/-! # The spend logs

    `litellm_client.py` pages through the spend logs of a user, newest first,
    and labels the result as truncated unless it has seen the whole window.

    * `fetch_user_spend_logs`: the loop and its four ends.
    * `Serves`: a server that cuts a window into pages, and is free in all else
      it says.
    * `unlabelled_iff`: when an unlabelled result is the whole window. A page
      without a list of rows ends the loop without a label, and so does any
      number of pages the server reports that is not above the current one.
-/

namespace AlitellmAuth.Stats

/-! ## The loop -/

def SPEND_LOG_PAGE_SIZE : Nat := 100

def SPEND_LOG_MAX_PAGES : Nat := 5

def LEAN_SPEND_FIELDS : List String :=
  ["request_duration_ms", "status", "model_group", "model", "completion_tokens", "startTime",
    "completionStartTime", "endTime"]

/-- What becomes of the request for a page: no answer, or one with a status and
    a body, unless the body is not JSON. -/
inductive PageAnswer (F : Type) where
  | unreachable
  | response (status : Nat) (body : Option (PyValue F))

/-- What the loop raises: an error of the request or of its status, or the
    `ValueError` of a body that is not JSON. -/
inductive FetchError where
  | http
  | decode
  deriving DecidableEq

section
variable {F : Type}

/-- `_lean_spend_row`. -/
def lean_spend_row : PyValue F → Option (List (PyStr × PyValue F))
  | .obj row => some (LEAN_SPEND_FIELDS.map fun k => (lit k, PyValue.get row k))
  | _ => none

/-- `body.get("data")`, if it is a list. -/
def data_list : PyValue F → Option (List (PyValue F))
  | .obj fields =>
      match PyValue.get fields "data" with
      | .arr data => some data
      | _ => none
  | _ => none

/-- `body.get("total_pages")`, if it is an `int`. -/
def total_pages : PyValue F → Option Int
  | .obj fields => (PyValue.get fields "total_pages").asInt
  | _ => none

/-- `resp.is_success`. -/
def is_success (status : Nat) : Bool := 200 ≤ status && status ≤ 299

/-- The pages from one on, behind the rows so far; `left` pages are left of
    `range(1, max_pages + 1)`. -/
def fetch_pages (respond : Nat → PageAnswer F) (max_pages : Nat) :
    Nat → Nat → List (List (PyStr × PyValue F)) →
      Except FetchError (List (List (PyStr × PyValue F)) × Bool)
  | 0, _, rows => .ok (rows, false)
  | left + 1, page, rows =>
      match respond page with
      | .unreachable => .error .http
      | .response status answer =>
          if is_success status = false then .error .http
          else
            match answer with
            | none => .error .decode
            | some body =>
                match data_list body with
                | none => .ok (rows, false)
                | some data =>
                    let rows := rows ++ data.filterMap lean_spend_row
                    -- the server says that this is the last page
                    if (total_pages body).any (· ≤ (page : Int)) then .ok (rows, false)
                    else if max_pages ≤ page then
                      .ok (rows, (total_pages body).all ((max_pages : Int) < ·))
                    else fetch_pages respond max_pages left (page + 1) rows

/-- `fetch_user_spend_logs`, given what becomes of the request for each page. -/
def fetch_user_spend_logs (respond : Nat → PageAnswer F) (max_pages : Nat) :
    Except FetchError (List (List (PyStr × PyValue F)) × Bool) :=
  fetch_pages respond max_pages max_pages 1 []

/-! ## The server -/

/-- The rows in an answer. -/
def page_data : PageAnswer F → Option (List (PyValue F))
  | .response status (some body) => if is_success status then data_list body else none
  | _ => none

/-- The server cuts a window into pages: if there are rows in the answer for a
    page, they are the rows of this page. -/
def Serves (window : List (PyValue F)) (page_size : Nat) (respond : Nat → PageAnswer F) : Prop :=
  ∀ k data, page_data (respond (k + 1)) = some data →
    data = (window.drop (k * page_size)).take page_size

/-- The rows of a window. -/
def object_rows (window : List (PyValue F)) : List (List (PyStr × PyValue F)) :=
  window.filterMap lean_spend_row

/-- An unlabelled result is the whole window, and so is the sample of the latency
    page unless it is labelled. -/
structure Unlabelled (ops : Floats F) (fromisoformat : PyStr → Option DateTime)
    (window : List (PyValue F)) (respond : Nat → PageAnswer F) (max_pages : Nat) : Prop where
  complete : ∀ rows, fetch_user_spend_logs respond max_pages = .ok (rows, false) →
    rows = object_rows window
  sampled : ∀ rows truncated range c, window.length ≤ DEFAULT_ROW_CAP →
    fetch_user_spend_logs respond max_pages = .ok (rows, truncated) →
      compute_latency_contract ops fromisoformat (rows.map .obj) range DEFAULT_ROW_CAP truncated =
        .ok c → c.sampled = false → rows = object_rows window

/-- A JSON body without a list of rows. -/
def Malformed (a : PageAnswer F) : Prop :=
  ∃ status body, a = .response status (some body) ∧ is_success status = true ∧
    data_list body = none

/-- A page of rows whose answer reports no page beyond it. -/
def SaysLast (page : Nat) (a : PageAnswer F) : Prop :=
  ∃ status body data, a = .response status (some body) ∧ is_success status = true ∧
    data_list body = some data ∧ (total_pages body).any (· ≤ (page : Int)) = true

/-- A page of rows whose answer does not rule out a page beyond it. -/
def LeavesOpen (page : Nat) (a : PageAnswer F) : Prop :=
  ∃ status body data, a = .response status (some body) ∧ is_success status = true ∧
    data_list body = some data ∧ (total_pages body).any (· ≤ (page : Int)) = false

/-- The request for a page failed, or its status is no success. -/
def RequestFailed (a : PageAnswer F) : Prop :=
  a = .unreachable ∨ ∃ status body, a = .response status body ∧ is_success status = false

/-- A success whose body is not JSON. -/
def NotJson (a : PageAnswer F) : Prop :=
  ∃ status, a = .response status none ∧ is_success status = true

/-- Nothing is left out where the loop ends with the page behind `k` others: no
    more rows from a malformed page on, and none behind the last page. -/
def EndsWell (window : List (PyValue F)) (page_size : Nat) (respond : Nat → PageAnswer F) (k : Nat) :
    Prop :=
  (Malformed (respond (k + 1)) → object_rows (window.drop (k * page_size)) = []) ∧
    (SaysLast (k + 1) (respond (k + 1)) → object_rows (window.drop ((k + 1) * page_size)) = [])

/-- The loop ends well with every page that it reaches from the page behind `k`
    others on. -/
def NothingLeftOut (window : List (PyValue F)) (page_size : Nat) (respond : Nat → PageAnswer F)
    (max_pages k : Nat) : Prop :=
  ∀ n, k ≤ n → n < max_pages → (∀ j, k ≤ j → j < n → LeavesOpen (j + 1) (respond (j + 1))) →
    EndsWell window page_size respond n

/-! ## One page -/

variable {respond : Nat → PageAnswer F} {max_pages left page : Nat}
  {rows : List (List (PyStr × PyValue F))}

theorem Malformed.no_data {a : PageAnswer F} (h : Malformed a) : page_data a = none := by
  obtain ⟨status, body, rfl, hok, hlist⟩ := h
  show (if is_success status then data_list body else none) = none
  rw [if_pos hok, hlist]

theorem page_data_eq {status : Nat} {body : PyValue F} {data : List (PyValue F)}
    (hok : is_success status = true) (hlist : data_list body = some data) :
    page_data (.response status (some body)) = some data := by
  show (if is_success status then data_list body else none) = some data
  rw [if_pos hok, hlist]

theorem SaysLast.has_data {a : PageAnswer F} (h : SaysLast page a) : page_data a ≠ none := by
  obtain ⟨status, body, data, rfl, hok, hlist, _⟩ := h
  rw [page_data_eq hok hlist]
  exact Option.some_ne_none _

theorem LeavesOpen.has_data {a : PageAnswer F} (h : LeavesOpen page a) : page_data a ≠ none := by
  obtain ⟨status, body, data, rfl, hok, hlist, _⟩ := h
  rw [page_data_eq hok hlist]
  exact Option.some_ne_none _

theorem LeavesOpen.not_last {a : PageAnswer F} (h : LeavesOpen page a) : ¬ SaysLast page a := by
  obtain ⟨status, body, data, rfl, _, _, hopen⟩ := h
  intro ⟨_, _, _, heq, _, _, hlast⟩
  cases heq
  rw [hopen] at hlast
  cases hlast

/-- What a round of the loop does. -/
inductive PageCases (respond : Nat → PageAnswer F) (max_pages left page : Nat)
    (rows : List (List (PyStr × PyValue F))) :
    Except FetchError (List (List (PyStr × PyValue F)) × Bool) → Prop where
  | failed (e : FetchError) (hdata : page_data (respond page) = none)
      (h : ¬ Malformed (respond page)) (hhttp : e = .http → RequestFailed (respond page))
      (hdecode : e = .decode → NotJson (respond page)) :
      PageCases respond max_pages left page rows (.error e)
  | malformed (h : Malformed (respond page)) :
      PageCases respond max_pages left page rows (.ok (rows, false))
  | last (data : List (PyValue F)) (hdata : page_data (respond page) = some data)
      (h : SaysLast page (respond page)) :
      PageCases respond max_pages left page rows (.ok (rows ++ object_rows data, false))
  | capped (data : List (PyValue F)) (hdata : page_data (respond page) = some data)
      (h : LeavesOpen page (respond page)) (hcap : max_pages ≤ page) :
      PageCases respond max_pages left page rows (.ok (rows ++ object_rows data, true))
  | more (data : List (PyValue F)) (hdata : page_data (respond page) = some data)
      (h : LeavesOpen page (respond page)) (hcap : page < max_pages) :
      PageCases respond max_pages left page rows
        (fetch_pages respond max_pages left (page + 1) (rows ++ object_rows data))

theorem fetch_pages_cases (respond : Nat → PageAnswer F) (max_pages left page : Nat)
    (rows : List (List (PyStr × PyValue F))) :
    PageCases respond max_pages left page rows
      (fetch_pages respond max_pages (left + 1) page rows) := by
  unfold fetch_pages
  cases hanswer : respond page with
  | unreachable =>
    apply PageCases.failed
    · rw [hanswer]
      rfl
    · intro ⟨_, _, heq, _⟩
      rw [hanswer] at heq
      cases heq
    · exact fun _ => .inl hanswer
    · intro hdecode
      cases hdecode
  | response status answer =>
    dsimp only
    by_cases hsuccess : is_success status = false
    · rw [if_pos hsuccess]
      apply PageCases.failed
      · rw [hanswer]
        cases answer with
        | none => rfl
        | some body => exact if_neg (by simp [hsuccess])
      · intro ⟨_, _, heq, hok, _⟩
        rw [hanswer] at heq
        cases heq
        rw [hsuccess] at hok
        cases hok
      · exact fun _ => .inr ⟨status, answer, hanswer, hsuccess⟩
      · intro hdecode
        cases hdecode
    · rw [if_neg hsuccess]
      have hok : is_success status = true := by simpa using hsuccess
      cases answer with
      | none =>
        apply PageCases.failed
        · rw [hanswer]
          rfl
        · intro ⟨_, _, heq, _⟩
          rw [hanswer] at heq
          cases heq
        · intro hhttp
          cases hhttp
        · exact fun _ => ⟨status, hanswer, hok⟩
      | some body =>
        dsimp only
        cases hlist : data_list body with
        | none => exact .malformed ⟨status, body, hanswer, hok, hlist⟩
        | some data =>
          dsimp only
          have hdata : page_data (respond page) = some data := by
            rw [hanswer]
            exact page_data_eq hok hlist
          by_cases htotal : (total_pages body).any (· ≤ (page : Int)) = true
          · rw [if_pos htotal]
            exact .last data hdata ⟨status, body, data, hanswer, hok, hlist, htotal⟩
          · rw [if_neg htotal]
            have hopen : LeavesOpen page (respond page) :=
              ⟨status, body, data, hanswer, hok, hlist, by simpa using htotal⟩
            by_cases hcap : max_pages ≤ page
            · rw [if_pos hcap]
              -- a number of pages above this one is above the cap
              have hlabel : (total_pages body).all ((max_pages : Int) < ·) = true := by
                cases hpages : total_pages body with
                | none => rfl
                | some n =>
                  rw [hpages] at htotal
                  simp only [Option.any_some, decide_eq_true_eq] at htotal
                  simp only [Option.all_some, decide_eq_true_eq]
                  omega
              rw [hlabel]
              exact .capped data hdata hopen hcap
            · rw [if_neg hcap]
              exact .more data hdata hopen (by omega)

/-! ## All pages -/

theorem object_rows_append (window window' : List (PyValue F)) :
    object_rows (window ++ window') = object_rows window ++ object_rows window' :=
  List.filterMap_append

/-- The rows up to an index are the whole window if none is behind it. -/
theorem taken_iff_none_left (window : List (PyValue F)) (n : Nat) :
    object_rows (window.take n) = object_rows window ↔ object_rows (window.drop n) = [] := by
  have hsplit := object_rows_append (window.take n) (window.drop n)
  rw [List.take_append_drop] at hsplit
  rw [hsplit]
  exact List.self_eq_append_right

theorem nothingLeftOut_step {window : List (PyValue F)} {page_size k : Nat} (hk : k < max_pages) :
    NothingLeftOut window page_size respond max_pages k ↔
      EndsWell window page_size respond k ∧ (LeavesOpen (k + 1) (respond (k + 1)) →
        NothingLeftOut window page_size respond max_pages (k + 1)) := by
  constructor
  · intro h
    constructor
    · apply h k (le_refl k) hk
      intro j hkj hjk
      omega
    · intro hopen n hkn hn hreached
      apply h n (by omega) hn
      intro j hkj hjn
      by_cases hj : j = k
      · subst hj
        exact hopen
      · exact hreached j (by omega) hjn
  · intro ⟨hfirst, hrest⟩ n hkn hn hreached
    by_cases heq : n = k
    · subst heq
      exact hfirst
    · apply hrest (hreached k (le_refl k) (by omega)) n (by omega) hn
      intro j hkj hjn
      exact hreached j (by omega) hjn

/-- An unlabelled result of the loop from a page on is the whole window. -/
def CompleteFrom (window : List (PyValue F)) (page_size : Nat) (respond : Nat → PageAnswer F)
    (max_pages left k : Nat) : Prop :=
  ∀ rows, fetch_pages respond max_pages left (k + 1) (object_rows (window.take (k * page_size))) =
    .ok (rows, false) → rows = object_rows window

/-- One page. -/
theorem completeFrom_step {window : List (PyValue F)} {page_size : Nat}
    (hserves : Serves window page_size respond) {left k : Nat} (hk : k < max_pages)
    (hnext : k + 1 < max_pages →
      (CompleteFrom window page_size respond max_pages left (k + 1) ↔
        NothingLeftOut window page_size respond max_pages (k + 1))) :
    CompleteFrom window page_size respond max_pages (left + 1) k ↔
      NothingLeftOut window page_size respond max_pages k := by
  rw [nothingLeftOut_step hk]
  -- the rows of the page continue those before it
  have hpage {data : List (PyValue F)} (hdata : page_data (respond (k + 1)) = some data) :
      object_rows (window.take (k * page_size)) ++ object_rows data =
        object_rows (window.take ((k + 1) * page_size)) := by
    rw [hserves k data hdata, ← object_rows_append, Nat.succ_mul, List.take_add]
  unfold CompleteFrom
  have hcases := fetch_pages_cases respond max_pages left (k + 1)
    (object_rows (window.take (k * page_size)))
  generalize fetch_pages respond max_pages (left + 1) (k + 1)
    (object_rows (window.take (k * page_size))) = result at hcases ⊢
  cases hcases with
  | failed e hdata h _ _ =>
    apply iff_of_true
    · intro rows hok
      cases hok
    · exact ⟨⟨fun hbody => absurd hbody h, fun hlast => absurd hdata hlast.has_data⟩,
        fun hopen => absurd hdata hopen.has_data⟩
  | malformed h =>
    have hends : EndsWell window page_size respond k ↔
        object_rows (window.drop (k * page_size)) = [] := by
      constructor
      · intro hends
        exact hends.1 h
      · intro hnil
        exact ⟨fun _ => hnil, fun hlast => absurd h.no_data hlast.has_data⟩
    rw [hends, ← taken_iff_none_left]
    constructor
    · intro hcomplete
      exact ⟨hcomplete _ rfl, fun hopen => absurd h.no_data hopen.has_data⟩
    · intro ⟨hwhole, _⟩ rows hok
      cases hok
      exact hwhole
  | last data hdata h =>
    have hends : EndsWell window page_size respond k ↔
        object_rows (window.drop ((k + 1) * page_size)) = [] := by
      constructor
      · intro hends
        exact hends.2 h
      · intro hnil
        exact ⟨fun hbody => absurd hbody.no_data h.has_data, fun _ => hnil⟩
    rw [hends, ← taken_iff_none_left, hpage hdata]
    constructor
    · intro hcomplete
      exact ⟨hcomplete _ rfl, fun hopen => absurd h hopen.not_last⟩
    · intro ⟨hwhole, _⟩ rows hok
      cases hok
      exact hwhole
  | capped data hdata h hcap =>
    apply iff_of_true
    · intro rows hok
      cases hok
    · refine ⟨⟨fun hbody => absurd hbody.no_data h.has_data, fun hlast => absurd hlast h.not_last⟩,
        ?_⟩
      intro _ n hkn hn
      omega
  | more data hdata h hcap =>
    have hends : EndsWell window page_size respond k :=
      ⟨fun hbody => absurd hbody.no_data h.has_data, fun hlast => absurd hlast h.not_last⟩
    rw [hpage hdata]
    constructor
    · intro hcomplete
      exact ⟨hends, fun _ => (hnext hcap).mp hcomplete⟩
    · intro ⟨_, hrest⟩
      exact (hnext hcap).mpr (hrest h)

/-- The loop from a page on: an unlabelled result is the whole window if and
    only if nothing is left out where the loop ends. -/
theorem completeFrom_iff {window : List (PyValue F)} {page_size : Nat}
    (hserves : Serves window page_size respond) (left k : Nat) (hleft : k + left + 1 = max_pages) :
    CompleteFrom window page_size respond max_pages (left + 1) k ↔
      NothingLeftOut window page_size respond max_pages k := by
  induction left generalizing k with
  | zero =>
    apply completeFrom_step hserves (by omega)
    intro hk
    omega
  | succ left ih =>
    apply completeFrom_step hserves (by omega)
    intro _
    exact ih (k + 1) (by omega)

/-! ## Where the loop ends -/

/-- From the page behind `k` others on, the loop ends with the page behind `n`
    others: each page before leaves it open whether there are more, and so does
    this one only if it is the last that is asked for. -/
structure EndsAt (respond : Nat → PageAnswer F) (max_pages k n : Nat) : Prop where
  start : k ≤ n
  bound : n < max_pages
  through : ∀ j, k ≤ j → j < n → LeavesOpen (j + 1) (respond (j + 1))
  last : LeavesOpen (n + 1) (respond (n + 1)) → n + 1 = max_pages

/-- The rows of the pages from the one behind `k` others to the one behind `n`. -/
def pages_rows (respond : Nat → PageAnswer F) (k n : Nat) : List (List (PyStr × PyValue F)) :=
  (List.range' k (n + 1 - k)).flatMap fun j => object_rows ((page_data (respond (j + 1))).getD [])

/-- What the loop returns with its last page: the rows of all pages, unless the
    request failed or the body is not JSON. -/
inductive LoopResult (a : PageAnswer F) (rows : List (List (PyStr × PyValue F))) :
    Except FetchError (List (List (PyStr × PyValue F)) × Bool) → Prop where
  | http (h : RequestFailed a) : LoopResult a rows (.error .http)
  | decode (h : NotJson a) : LoopResult a rows (.error .decode)
  | rows (hanswered : ¬ RequestFailed a) (hjson : ¬ NotJson a) (truncated : Bool) :
      LoopResult a rows (.ok (rows, truncated))

/-- A success with a JSON body. -/
theorem answered_json {a : PageAnswer F} {status : Nat} {body : PyValue F}
    (h : a = .response status (some body)) (hok : is_success status = true) :
    ¬ RequestFailed a ∧ ¬ NotJson a := by
  subst h
  constructor
  · rintro (heq | ⟨_, _, heq, hbad⟩)
    · cases heq
    · cases heq
      rw [hok] at hbad
      cases hbad
  · rintro ⟨_, heq, _⟩
    cases heq

theorem RequestFailed.not_notJson {a : PageAnswer F} (h : RequestFailed a) : ¬ NotJson a := by
  rintro ⟨status, rfl, hok⟩
  rcases h with heq | ⟨_, _, heq, hbad⟩
  · cases heq
  · cases heq
    rw [hok] at hbad
    cases hbad

theorem Malformed.loopResult {a : PageAnswer F} (h : Malformed a)
    (rows : List (List (PyStr × PyValue F))) (truncated : Bool) :
    LoopResult a rows (.ok (rows, truncated)) := by
  obtain ⟨status, body, heq, hok, _⟩ := h
  obtain ⟨hanswered, hjson⟩ := answered_json heq hok
  exact .rows hanswered hjson truncated

theorem loopResult_of_data {a : PageAnswer F} {data : List (PyValue F)}
    (h : page_data a = some data) (rows : List (List (PyStr × PyValue F))) (truncated : Bool) :
    LoopResult a rows (.ok (rows, truncated)) := by
  match a with
  | .unreachable => cases h
  | .response status none => cases h
  | .response status (some body) =>
    have hok : is_success status = true := by
      by_contra hbad
      change (if is_success status then data_list body else none) = some data at h
      rw [if_neg hbad] at h
      cases h
    obtain ⟨hanswered, hjson⟩ := answered_json (a := .response status (some body)) rfl hok
    exact .rows hanswered hjson truncated

/-- The rows of one page. -/
theorem pages_rows_self (k : Nat) :
    pages_rows respond k k = object_rows ((page_data (respond (k + 1))).getD []) := by
  rw [pages_rows, Nat.add_sub_cancel_left, List.range'_one]
  simp

theorem pages_rows_step {k n : Nat} (h : k < n) : pages_rows respond k n =
    object_rows ((page_data (respond (k + 1))).getD []) ++ pages_rows respond (k + 1) n := by
  obtain ⟨m, rfl⟩ : ∃ m, n = k + 1 + m := ⟨n - (k + 1), by omega⟩
  have hlength : k + 1 + m + 1 - k = m + 1 + 1 := by omega
  have hrest : k + 1 + m + 1 - (k + 1) = m + 1 := by omega
  rw [pages_rows, pages_rows, hlength, hrest, List.range'_succ, List.flatMap_cons]

/-- From the page behind `k` others on, the loop ends with some page, and with the
    rows up to that page. -/
def EndsFrom (respond : Nat → PageAnswer F) (max_pages left k : Nat) : Prop :=
  ∀ rows, ∃ n, EndsAt respond max_pages k n ∧ LoopResult (respond (n + 1))
    (rows ++ pages_rows respond k n) (fetch_pages respond max_pages left (k + 1) rows)

/-- One page. -/
theorem endsFrom_step {left k : Nat} (hk : k < max_pages)
    (hnext : k + 1 < max_pages → EndsFrom respond max_pages left (k + 1)) :
    EndsFrom respond max_pages (left + 1) k := by
  intro rows
  have hnothing (hdata : page_data (respond (k + 1)) = none) : rows ++ pages_rows respond k k = rows := by
    rw [pages_rows_self, hdata]
    exact List.append_nil rows
  have hhere (hlast : LeavesOpen (k + 1) (respond (k + 1)) → k + 1 = max_pages) :
      EndsAt respond max_pages k k := ⟨le_refl k, hk, fun j hkj hjk => by omega, hlast⟩
  have hcases := fetch_pages_cases respond max_pages left (k + 1) rows
  generalize fetch_pages respond max_pages (left + 1) (k + 1) rows = result at hcases ⊢
  -- the loop ends at this page in every case but the last
  cases hcases with
  | failed e hdata h hhttp hdecode =>
    refine ⟨k, hhere fun hopen => absurd hdata hopen.has_data, ?_⟩
    cases e with
    | http => exact .http (hhttp rfl)
    | decode => exact .decode (hdecode rfl)
  | malformed h =>
    refine ⟨k, hhere fun hopen => absurd h.no_data hopen.has_data, ?_⟩
    rw [hnothing h.no_data]
    exact h.loopResult rows false
  | last data hdata h =>
    refine ⟨k, hhere fun hopen => absurd h hopen.not_last, ?_⟩
    rw [pages_rows_self, hdata]
    exact loopResult_of_data hdata _ false
  | capped data hdata h hcap =>
    refine ⟨k, hhere fun _ => by omega, ?_⟩
    rw [pages_rows_self, hdata]
    exact loopResult_of_data hdata _ true
  | more data hdata h hcap =>
    obtain ⟨n, hends, hresult⟩ := hnext hcap (rows ++ object_rows data)
    refine ⟨n, ⟨by have := hends.start; omega, hends.bound, ?_, hends.last⟩, ?_⟩
    · intro j hkj hjn
      by_cases hj : j = k
      · subst hj
        exact h
      · exact hends.through j (by omega) hjn
    · rw [pages_rows_step (by have := hends.start; omega), hdata, ← List.append_assoc]
      exact hresult

/-- The loop ends with some page, and with the rows up to that page. -/
theorem fetch_pages_end (left k : Nat) (hleft : k + left + 1 = max_pages) :
    EndsFrom respond max_pages (left + 1) k := by
  induction left generalizing k with
  | zero =>
    apply endsFrom_step (by omega)
    intro hk
    omega
  | succ left ih =>
    apply endsFrom_step (by omega)
    intro _
    exact ih (k + 1) (by omega)

/-- It ends once. -/
theorem EndsAt.unique {k n n' : Nat} (h : EndsAt respond max_pages k n)
    (h' : EndsAt respond max_pages k n') : n = n' := by
  rcases Nat.lt_trichotomy n n' with hlt | heq | hlt
  · have hlast := h.last (h'.through n h.start hlt)
    have := h'.bound
    omega
  · exact heq
  · have hlast := h'.last (h.through n' h'.start hlt)
    have := h.bound
    omega

theorem sampled_of_compute {ops : Floats F} {fromisoformat : PyStr → Option DateTime}
    {rows : List (PyValue F)} {range : WindowMeta} {row_cap : Nat} {truncated : Bool}
    {c : LatencyContract F}
    (h : compute_latency_contract ops fromisoformat rows range row_cap truncated = .ok c) :
    c.sampled = (truncated || decide (rows.length > row_cap)) := by
  unfold compute_latency_contract at h
  dsimp only at h
  cases hfold : fold_rows ops fromisoformat (capped row_cap rows) with
  | error e =>
    rw [hfold] at h
    cases h
  | ok acc =>
    rw [hfold] at h
    cases h
    rfl

/-- An unlabelled result is the whole window, and an unlabelled sample too, if
    and only if nothing is left out where the loop ends. -/
theorem unlabelled_iff (ops : Floats F) (fromisoformat : PyStr → Option DateTime)
    {window : List (PyValue F)} {page_size max_pages : Nat} {respond : Nat → PageAnswer F}
    (hserves : Serves window page_size respond) (hmax : 0 < max_pages) :
    Unlabelled ops fromisoformat window respond max_pages ↔
      NothingLeftOut window page_size respond max_pages 0 := by
  obtain ⟨left, rfl⟩ : ∃ left, max_pages = left + 1 := ⟨max_pages - 1, by omega⟩
  rw [← completeFrom_iff hserves left 0 (by omega)]
  unfold CompleteFrom
  rw [Nat.zero_mul]
  constructor
  · intro h
    exact h.complete
  · intro hcomplete
    refine ⟨hcomplete, ?_⟩
    intro rows truncated range c _ hfetch hcompute hsampled
    -- a truncated result is labelled as a sample
    rw [sampled_of_compute hcompute, Bool.or_eq_false_iff] at hsampled
    rw [hsampled.1] at hfetch
    exact hcomplete rows hfetch

end

/-- The first page has no list of rows. -/
def null_page (_ : Nat) : PageAnswer Rat :=
  .response 200 (some (.dict [("data", .null), ("total_pages", .int 1)]))

theorem rows_lost_unlabelled :
    Serves [.obj sample_row] SPEND_LOG_PAGE_SIZE null_page ∧
      fetch_user_spend_logs null_page SPEND_LOG_MAX_PAGES = .ok ([], false) ∧
      ¬ Unlabelled (exact fun _ => none) tenOClock [.obj sample_row] null_page
        SPEND_LOG_MAX_PAGES := by
  have hfetch : fetch_user_spend_logs null_page SPEND_LOG_MAX_PAGES = .ok ([], false) := by rfl
  refine ⟨?_, hfetch, ?_⟩
  · intro k data hdata
    cases hdata
  · intro h
    have hwhole := h.complete [] hfetch
    cases hwhole

/-- One page with the sample rows. -/
def one_page : Nat → PageAnswer Rat
  | 1 => .response 200 (some (.dict [("data", .arr (sample_rows.map .obj)), ("total_pages", .int 1)]))
  | _ => .unreachable

theorem unlabelled_iff_one_page :
    (Serves (sample_rows.map .obj) SPEND_LOG_PAGE_SIZE one_page ∧ 0 < SPEND_LOG_MAX_PAGES) ∧
      Unlabelled (exact fun _ => none) tenOClock (sample_rows.map .obj) one_page SPEND_LOG_MAX_PAGES := by
  have hmax : 0 < SPEND_LOG_MAX_PAGES := by decide
  have hserves : Serves (sample_rows.map .obj) SPEND_LOG_PAGE_SIZE one_page := by
    intro k data hdata
    cases k with
    | zero =>
      cases hdata
      rfl
    | succ k => cases hdata
  refine ⟨⟨hserves, hmax⟩, (unlabelled_iff _ _ hserves hmax).mpr ?_⟩
  rw [nothingLeftOut_step hmax]
  have hlast : SaysLast 1 (one_page 1) := ⟨200, _, _, rfl, rfl, rfl, rfl⟩
  refine ⟨⟨fun hbody => absurd hbody.no_data hlast.has_data, fun _ => rfl⟩, ?_⟩
  intro hopen
  exact absurd hlast hopen.not_last

end AlitellmAuth.Stats
