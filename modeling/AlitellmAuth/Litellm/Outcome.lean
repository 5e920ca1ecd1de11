import AlitellmAuth.Litellm.Sends

/-! # Results of the client

    A client function read as a function of LiteLLM's answers.

    * `outcome`: what it ends with, given the answer to each request.
    * one lemma for each way to take a result apart.
-/

namespace AlitellmAuth.Litellm

open Interleave

/-! ## Results -/

section
variable {α β : Type}

/-- What a client function ends with, given the answer to each request. -/
def outcome (answer : Call → HttpReply) (p : L α) : Except Failure α :=
  @Prog.answered Call HttpAns _ answer p.run

variable (answer : Call → HttpReply)

@[simp] theorem outcome_pure (a : α) : outcome answer (pure a : L α) = .ok a := rfl

@[simp] theorem outcome_throw (e : Failure) : outcome answer (throw e : L α) = .error e := rfl

theorem outcome_bind (p : L α) (f : α → L β) :
    outcome answer (p >>= f) =
      match outcome answer p with
      | .ok a => outcome answer (f a)
      | .error e => .error e := by
  unfold outcome
  show @Prog.answered Call HttpAns _ answer (p.run >>= _) = _
  rw [Prog.answered_bind]
  cases @Prog.answered Call HttpAns _ answer p.run with
  | ok a => rfl
  | error e => rfl

theorem outcome_bind_ok {p : L α} {f : α → L β} {a : α} (h : outcome answer p = .ok a) :
    outcome answer (p >>= f) = outcome answer (f a) := by
  rw [outcome_bind, h]

theorem outcome_bind_error {p : L α} {f : α → L β} {e : Failure} (h : outcome answer p = .error e) :
    outcome answer (p >>= f) = .error e := by
  rw [outcome_bind, h]

theorem outcome_request {call : Call} {resp : HttpResponse} (h : answer call = .response resp) :
    outcome answer (request call) = .ok resp := by
  show @Prog.answered Call HttpAns _ answer (.call call _) = _
  simp only [Prog.answered, h]
  rfl

theorem outcome_request_transport {call : Call} (h : answer call = .transport_error) :
    outcome answer (request call) = .error .transport := by
  show @Prog.answered Call HttpAns _ answer (.call call _) = _
  simp only [Prog.answered, h]
  rfl

variable {answer}

theorem outcome_bind_eq (p : L α) (f : α → L β) :
    outcome answer (p >>= f) = (outcome answer p).bind fun a => outcome answer (f a) := by
  rw [outcome_bind]
  cases outcome answer p with
  | ok a => rfl
  | error e => rfl

theorem outcome_bind_inv {p : L α} {f : α → L β} {b : β}
    (h : outcome answer (p >>= f) = .ok b) :
    ∃ a, outcome answer p = .ok a ∧ outcome answer (f a) = .ok b := by
  rw [outcome_bind] at h
  cases hp : outcome answer p with
  | ok a =>
    rw [hp] at h
    exact ⟨a, rfl, h⟩
  | error e =>
    rw [hp] at h
    cases h

theorem outcome_request_ok {call : Call} {resp : HttpResponse}
    (h : outcome answer (request call) = .ok resp) : answer call = .response resp := by
  change @Prog.answered Call HttpAns _ answer (.call call _) = _ at h
  cases hans : answer call with
  | transport_error =>
    simp only [Prog.answered, hans] at h
    cases h
  | response resp' =>
    simp only [Prog.answered, hans] at h
    cases h
    rfl

theorem outcome_parsed_ok {resp : HttpResponse} {body : Json}
    (h : outcome answer resp.parsed = .ok body) : resp.json = some body := by
  unfold HttpResponse.parsed at h
  cases hbody : resp.json with
  | none =>
    rw [hbody] at h
    cases h
  | some body' =>
    rw [hbody] at h
    cases h
    rfl

theorem dict_get_outcome {value default found : Json} {key : String}
    (h : outcome answer (dict_get value key default) = .ok found) :
    ∃ fields, value = .obj fields ∧ found = (fields.lookup key).getD default := by
  cases value with
  | obj fields =>
    cases h
    exact ⟨fields, rfl, rfl⟩
  | null | bool | num | str | arr => cases h

theorem dict_items_outcome {value : Json} {items : Dict}
    (h : outcome answer (dict_items value) = .ok items) : value = .obj items := by
  cases value with
  | obj fields =>
    cases h
    rfl
  | null | bool | num | str | arr => cases h

/-- A function that sends no request on which two runs differ. -/
theorem outcome_congr {answer' : Call → HttpReply} {p : L α} (h : Sends (fun call => answer call = answer' call) p) :
    outcome answer p = outcome answer' p := by
  have hall (q : Prog Call HttpAns (Except Failure α)) (tr : LTrace)
      (hq : q.Along (fun _ e => answer e.1 = answer' e.1) (fun _ _ => True) tr) :
      @Prog.answered Call HttpAns _ answer q = @Prog.answered Call HttpAns _ answer' q := by
    induction q generalizing tr with
    | ret a => rfl
    | call op k ih =>
      unfold Prog.answered
      rw [← (hq (answer op)).1]
      exact ih _ _ (hq (answer op)).2
  exact hall _ [] (h [])

end

end AlitellmAuth.Litellm
