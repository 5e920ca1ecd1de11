import AlitellmAuth.Litellm.Client

/-! # What the client sends

    Which requests a function of the client can send at all, whatever it is
    answered.

    * `Sends ok p`: every request that `p` sends meets `ok`.
    * one lemma for each function, in terms of the endpoints it calls.
-/

namespace AlitellmAuth.Litellm

open Interleave

/-- Every request of the program meets `ok`. -/
def Sends {α : Type} (ok : Call → Prop) (p : L α) : Prop :=
  ∀ tr, Prog.Along (fun _ e => ok e.1) (fun _ _ => True) tr p.run

section
variable {α β : Type} {ok : Call → Prop}

/-! ## Rules -/

theorem sends_still {p : L α} (h : Still p) : Sends ok p := by
  intro tr
  obtain ⟨res, hres⟩ := h
  rw [hres]
  trivial

theorem sends_pure (a : α) : Sends ok (pure a : L α) := sends_still (still_pure a)

theorem sends_throw (e : Failure) : Sends ok (throw e : L α) := sends_still (still_throw e)

theorem sends_bind {p : L α} {f : α → L β} (hp : Sends ok p) (hf : ∀ a, Sends ok (f a)) :
    Sends ok (p >>= f) :=
  fun tr => along_run_bind (hp tr) (fun tr' a _ => hf a tr') fun _ _ _ => trivial

theorem sends_catch {p : L α} {f : Failure → L α} (hp : Sends ok p) (hf : ∀ e, Sends ok (f e)) :
    Sends ok (tryCatch p f) :=
  fun tr => along_run_catch (hp tr) (fun _ _ _ => trivial) fun tr' e _ => hf e tr'

theorem sends_request {call : Call} (h : ok call) : Sends ok (request call) := by
  refine fun tr => fun reply => ⟨h, ?_⟩
  cases reply with
  | transport_error => trivial
  | response resp => trivial

theorem sends_ite {b : Prop} [Decidable b] {p q : L α} (hp : Sends ok p) (hq : Sends ok q) :
    Sends ok (if b then p else q) := by
  split
  · exact hp
  · exact hq

/-! ## Functions -/

variable {settings : LitellmSettings}

theorem sends_user_by_email (hlist : ∀ email, ok (.user_list email)) (email : String) :
    Sends ok (user_by_email settings email) := by
  refine sends_bind (sends_request (hlist _)) fun resp => ?_
  refine sends_bind (sends_still (still_expect _ _ _)) fun _ => ?_
  refine sends_bind (sends_still (still_parsed _)) fun payload => ?_
  refine sends_bind (sends_still (still_iterate _)) fun rows => ?_
  split
  · exact sends_throw _
  · exact sends_still (still_normalize_user _ _ _)

theorem sends_get_litellm_user (hinfo : ∀ id, ok (.user_info id)) (hlist : ∀ email, ok (.user_list email))
    (email : String) : Sends ok (get_litellm_user settings email) := by
  refine sends_bind (sends_request (hinfo _)) fun resp => ?_
  refine sends_bind (sends_still (still_user_info_of _)) fun info => ?_
  exact sends_ite (sends_user_by_email hlist email) (sends_still (still_normalize_user _ _ _))

theorem sends_backfill_existing (hinfo : ∀ id, ok (.user_info id))
    (hlist : ∀ email, ok (.user_list email)) (hupdate : ∀ body, ok (.user_update body))
    (existed : Bool) (email : String) (name : Option String) (factory : Json) :
    Sends ok (backfill_existing settings existed email name factory) := by
  refine sends_ite (sends_catch ?_ fun e => ?_) (sends_pure _)
  · refine sends_bind (sends_get_litellm_user hinfo hlist email) fun existing_user => ?_
    refine sends_bind (sends_still (still_factory_user factory)) fun user => ?_
    refine sends_ite (sends_pure _) ?_
    exact sends_bind (sends_request (hupdate _)) fun resp => sends_still (still_expect _ _ _)
  · cases e with
    | not_found => exact sends_pure _
    | status | transport | not_member | crashed => exact sends_throw _

theorem sends_ensure_shared_team (hnew : ∀ body, ok (.team_new body)) (team_id : String)
    (factory : Json) : Sends ok (ensure_shared_team settings team_id factory) := by
  refine sends_bind (sends_still (still_dict_get _ _ _)) fun team => ?_
  refine sends_bind (sends_still (still_dict_items _)) fun team_extra => ?_
  refine sends_bind (sends_still (still_dict_get _ _ _)) fun metadata => ?_
  refine sends_bind (sends_still (still_dict_items _)) fun team_meta_extra => ?_
  exact sends_bind (sends_request (hnew _)) fun resp => sends_still (still_expect _ _ _)

theorem sends_ensure_litellm_user (hnew : ∀ body, ok (.user_new body)) (email : String)
    (name team_id : Option String) (factory : Json) :
    Sends ok (ensure_litellm_user email name team_id factory) := by
  refine sends_bind (sends_still (still_factory_user factory)) fun user => ?_
  refine sends_bind (sends_request (hnew _)) fun resp => ?_
  refine sends_bind (sends_still (still_expect _ _ _)) fun _ => ?_
  exact sends_ite (sends_pure _) (sends_still (still_parsed _))

theorem sends_cap_new_member (hadd : ∀ t u b, ok (.member_add t u b))
    (hupdate : ∀ t u b, ok (.member_update t u b)) (personal existed : Bool) (email team_id : String)
    (budget : Json) : Sends ok (cap_new_member personal existed email team_id budget) := by
  refine sends_ite (sends_pure _) ?_
  refine sends_bind (sends_still (still_is_positive _)) fun positive => ?_
  refine sends_ite ?_ (sends_pure _)
  refine sends_bind (sends_request (hadd _ _ _)) fun resp => ?_
  refine sends_bind (sends_still (still_expect _ _ _)) fun _ => ?_
  exact sends_bind (sends_request (hupdate _ _ _)) fun resp => sends_still (still_expect _ _ _)

theorem sends_resolve_access_group_ids (hgroup : ok .access_group) (names : List String) :
    Sends ok (resolve_access_group_ids names) := by
  refine sends_ite (sends_pure _) ?_
  refine sends_bind (sends_request hgroup) fun resp => ?_
  refine sends_bind (sends_still (still_expect _ _ _)) fun _ => ?_
  refine sends_bind (sends_still (still_parsed _)) fun rows => ?_
  exact sends_bind (sends_still (still_named_groups _)) fun by_name => sends_pure _

theorem sends_attached_groups (hinfo : ∀ id, ok (.team_info id)) (team_id : String)
    (we_created_it : Bool) : Sends ok (attached_groups team_id we_created_it) := by
  refine sends_ite (sends_pure _) (sends_bind ?_ fun team => ?_)
  · -- `_team_info` swallows every failure
    refine fun tr reply => ⟨hinfo team_id, ?_⟩
    cases reply with
    | transport_error => trivial
    | response resp =>
      show Prog.Along _ _ _ (ExceptT.run (if !resp.is_success then _ else _))
      split
      · trivial
      · split
        · split
          · trivial
          · trivial
        · trivial
  · cases team with
    | none => exact sends_pure _
    | some team => exact sends_bind (sends_still (still_iterate _)) fun items => sends_pure _

end

end AlitellmAuth.Litellm
