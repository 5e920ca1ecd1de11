import AlitellmAuth.Framework.TwoRuns
import AlitellmAuth.Session.Modes

/-! # Two runs of the listing

    Two runs of `GET /api/session/keys` whose key lists differ only in the
    `token` and `key` fields, each a non-empty text in both.

    * `shade`: the fields with their texts replaced; `Twin` answers are equal
      once they are shaded.
    * `Alike`: dictionaries that differ in nothing else.
    * `related_key_rows`: one request for keys in two runs.
-/

namespace AlitellmAuth.Session

open Interleave Text Litellm TwoRuns

/-! ## Twins -/

/-- The fields that hold a key or its hash. -/
def secret (name : String) : Bool := name == "token" || name == "key"

/-- A text, and not the empty one. -/
def nonempty_text : Json → Bool
  | .str s => s != ""
  | _ => false

/-- One text for all. -/
def shade (c : String) (value : Json) : Json := if nonempty_text value then .str c else value

def shade_field (c : String) (f : String × Json) : String × Json :=
  (f.1, if secret f.1 then shade c f.2 else f.2)

def shade_row (c : String) : Json → Json
  | .obj k => .obj (k.map (shade_field c))
  | row => row

def shade_rows (c : String) : Json → Json
  | .arr rows => .arr (rows.map (shade_row c))
  | value => value

def shade_keys (c : String) (f : String × Json) : String × Json :=
  (f.1, if f.1 == "keys" then shade_rows c f.2 else f.2)

def shade_body (c : String) : Json → Json
  | .obj fields => .obj (fields.map (shade_keys c))
  | body => body

/-- The rows of `/key/list` are shaded, in the parsed body and in its text. -/
def shade_reply (c : String) : Call → HttpReply → HttpReply
  | .key_list .., .response resp =>
      .response { resp with text := "", json := resp.json.map (shade_body c) }
  | _, reply => reply

/-- Answers that differ only in non-empty tokens and keys. -/
def Twin (answer answer' : Call → HttpReply) : Prop :=
  ∀ call, shade_reply "*" call (answer call) = shade_reply "*" call (answer' call)

/-! ## Shading -/

section
variable {c d : String}

theorem nonempty_text_shade (hc : c ≠ "") (value : Json) :
    nonempty_text (shade c value) = nonempty_text value := by
  unfold shade
  cases hvalue : nonempty_text value with
  | true => simpa [nonempty_text] using hc
  | false => simpa using hvalue

theorem shade_shade (hd : d ≠ "") (value : Json) : shade c (shade d value) = shade c value := by
  rw [shade, nonempty_text_shade hd]
  unfold shade
  cases nonempty_text value <;> rfl

theorem shade_field_shade (hd : d ≠ "") (f : String × Json) :
    shade_field c (shade_field d f) = shade_field c f := by
  unfold shade_field
  dsimp only
  cases secret f.1 with
  | true => rw [if_pos rfl, if_pos rfl, if_pos rfl, shade_shade hd]
  | false => rfl

theorem shade_row_shade (hd : d ≠ "") (row : Json) :
    shade_row c (shade_row d row) = shade_row c row := by
  cases row with
  | obj k =>
    show Json.obj _ = Json.obj _
    rw [List.map_map]
    congr 1
    exact List.map_congr_left fun f _ => shade_field_shade hd f
  | null | bool | num | str | arr => rfl

theorem shade_rows_shade (hd : d ≠ "") (value : Json) :
    shade_rows c (shade_rows d value) = shade_rows c value := by
  cases value with
  | arr rows =>
    show Json.arr _ = Json.arr _
    rw [List.map_map]
    congr 1
    exact List.map_congr_left fun row _ => shade_row_shade hd row
  | null | bool | num | str | obj => rfl

theorem shade_keys_shade (hd : d ≠ "") (f : String × Json) :
    shade_keys c (shade_keys d f) = shade_keys c f := by
  unfold shade_keys
  dsimp only
  cases f.1 == "keys" with
  | true => rw [if_pos rfl, if_pos rfl, if_pos rfl, shade_rows_shade hd]
  | false => rfl

theorem shade_body_shade (hd : d ≠ "") (body : Json) :
    shade_body c (shade_body d body) = shade_body c body := by
  cases body with
  | obj fields =>
    show Json.obj _ = Json.obj _
    rw [List.map_map]
    congr 1
    exact List.map_congr_left fun f _ => shade_keys_shade hd f
  | null | bool | num | str | arr => rfl

theorem shade_reply_shade (hd : d ≠ "") (call : Call) (reply : HttpReply) :
    shade_reply c call (shade_reply d call reply) = shade_reply c call reply := by
  cases call with
  | key_list user_id team_id =>
    cases reply with
    | transport_error => rfl
    | response resp =>
      show HttpReply.response _ = HttpReply.response _
      dsimp only
      rw [Option.map_map]
      congr 2
      cases resp.json with
      | none => rfl
      | some body => exact congrArg some (shade_body_shade hd body)
  | _ => rfl

/-- Shaded answers are twins of the answers. -/
theorem twin_shade (hd : d ≠ "") (answer : Call → HttpReply) :
    Twin answer fun call => shade_reply d call (answer call) :=
  fun call => (shade_reply_shade hd call (answer call)).symm

/-- Looking up a field, after a change that keeps the names. -/
theorem lookup_map (g : String → Json → Json) (fields : Dict) (name : String) :
    (fields.map fun f => (f.1, g f.1 f.2)).lookup name = (fields.lookup name).map (g name) := by
  induction fields with
  | nil => rfl
  | cons f fields ih =>
    rw [List.map_cons, List.lookup_cons, List.lookup_cons, ih]
    cases hname : name == f.1 with
    | true =>
      rw [beq_iff_eq.mp hname]
      rfl
    | false => rfl

theorem lookup_shade_field (k : Dict) (name : String) :
    (k.map (shade_field c)).lookup name =
      (k.lookup name).map fun value => if secret name then shade c value else value :=
  lookup_map (fun name value => if secret name then shade c value else value) k name

theorem lookup_shade_keys (fields : Dict) :
    (fields.map (shade_keys c)).lookup "keys" = (fields.lookup "keys").map (shade_rows c) :=
  lookup_map (fun name value => if name == "keys" then shade_rows c value else value) fields "keys"

theorem field_shade (k : Dict) (name : String) :
    field (k.map (shade_field c)) name =
      if secret name then shade c (field k name) else field k name := by
  unfold field
  rw [lookup_shade_field]
  cases k.lookup name with
  | none => cases secret name <;> rfl
  | some value => rfl

/-- Twin answers are equal, except for the key lists. -/
theorem Twin.eq {answer answer' : Call → HttpReply} (h : Twin answer answer') {call : Call}
    (hlist : ∀ user_id team_id, call ≠ .key_list user_id team_id) : answer call = answer' call := by
  have hcall := h call
  cases call with
  | key_list user_id team_id => exact absurd rfl (hlist user_id team_id)
  | _ => exact hcall

end

/-! ## Alike rows -/

/-- The same key in two runs. -/
def RowTwin (row row' : Json) : Prop := shade_row "*" row = shade_row "*" row'

/-- The same dictionary, up to the fields under which a key is listed. -/
def Alike (k k' : Dict) : Prop :=
  ∀ name, name ∉ ["id", "key", "token"] → k.lookup name = k'.lookup name

theorem Alike.field {k k' : Dict} (h : Alike k k') (name : String)
    (hname : name ∉ ["id", "key", "token"]) : field k name = field k' name := by
  unfold Litellm.field
  rw [h name hname]

theorem alike_of_twin {k k' : Dict} (h : k.map (shade_field "*") = k'.map (shade_field "*")) :
    Alike k k' := by
  intro name hname
  have hpublic : secret name = false := by
    simp only [List.mem_cons, List.not_mem_nil, or_false, not_or] at hname
    simp [secret, hname]
  have hlookup := congrArg (List.lookup name) h
  rw [lookup_shade_field, lookup_shade_field, hpublic] at hlookup
  simpa using hlookup

/-- A secret field of twins: two texts, or one value. -/
theorem secret_of_twin {k k' : Dict} (h : k.map (shade_field "*") = k'.map (shade_field "*"))
    {name : String} (hname : secret name = true) :
    nonempty_text (field k name) = nonempty_text (field k' name) ∧
      (nonempty_text (field k name) = false → field k name = field k' name) := by
  have hfield : shade "*" (field k name) = shade "*" (field k' name) := by
    have := congrArg (field · name) h
    simpa only [field_shade, hname, if_true] using this
  have hnonempty : nonempty_text (field k name) = nonempty_text (field k' name) := by
    rw [← nonempty_text_shade (c := "*") (by decide) (field k name), hfield,
      nonempty_text_shade (by decide)]
  refine ⟨hnonempty, fun hnone => ?_⟩
  unfold shade at hfield
  rwa [hnone, ← hnonempty, hnone] at hfield

section
variable (settings : LitellmSettings) {k k' : Dict}

theorem Alike.metadata (h : Alike k k') : metadata_of settings k = metadata_of settings k' := by
  unfold metadata_of
  rw [h.field _ (by decide)]

theorem Alike.naming (h : Alike k k') (md : Dict) : naming k md = naming k' md := by
  unfold Litellm.naming
  rw [h.field _ (by decide)]

theorem Alike.named (h : Alike k k') : named settings k = named settings k' := by
  unfold Session.named
  rw [h.metadata settings, h.naming]

theorem Alike.readable (h : Alike k k') : Readable settings k ↔ Readable settings k' := by
  unfold Readable Namable
  simp only [h.field "metadata" (by decide), h.naming]

/-- A listed key without its id, as the browser would see it. -/
def nameless (row : SessionRow) : BrowserRow := { safe_key row with id := .null }

theorem Alike.nameless (h : Alike k k') (sha256 : String → String) :
    nameless (listed_row settings sha256 k) = nameless (listed_row settings sha256 k') := by
  unfold Session.nameless listed_row row_of safe_key
  simp only [h.metadata settings, h.field "key_alias" (by decide), h "spend" (by decide),
    h.field "tpm_limit" (by decide), h.field "rpm_limit" (by decide),
    h.field "models" (by decide), h.field "team_id" (by decide),
    h.field "created_at" (by decide), h.field "expires" (by decide),
    h.field "last_active" (by decide), h.field "blocked" (by decide)]

/-- A key that has no alias and no id field: its id is a hash. -/
def Unnamed (k : Dict) : Prop :=
  named settings k = false ∧ (field k "key_id").truthy = false ∧
    (field k "token_id").truthy = false

/-- The hash that such a key is listed under. -/
def hash_of (k : Dict) : Json :=
  if is_hash (field k "key") then field k "key"
  else if is_hash (field k "token") then field k "token"
  else .null

theorem unnamed_hash (h : Unnamed settings k) (sha256 : String → String) :
    (listed_row settings sha256 k).id = hash_of k := by
  rw [id_unnamed h.1, unnamed_id, h.2.1, h.2.2]
  rfl

/-- Alike keys have one id, unless it is a hash. -/
theorem Alike.id (h : Alike k k') (sha256 : String → String)
    (hhash : Unnamed settings k → hash_of k = hash_of k') :
    (listed_row settings sha256 k).id = (listed_row settings sha256 k').id := by
  cases hnamed : Session.named settings k with
  | true =>
    have hnamed' := hnamed
    rw [h.named settings] at hnamed'
    rw [id_named hnamed, id_named hnamed', h.metadata settings, h.naming]
  | false =>
    have hnamed' := hnamed
    rw [h.named settings] at hnamed'
    rw [id_unnamed hnamed, id_unnamed hnamed']
    unfold unnamed_id
    rw [← h.field "key_id" (by decide), ← h.field "token_id" (by decide)]
    cases hkey : (Litellm.field k "key_id").truthy with
    | true => rfl
    | false =>
      cases htoken : (Litellm.field k "token_id").truthy with
      | true => rfl
      | false => exact hhash ⟨hnamed, hkey, htoken⟩

end

/-! ## One request, twice -/

/-- Failures that the listing answers alike. -/
def SameFailure (e e' : Failure) : Prop :=
  bad_gateway "LiteLLM key listing failed" e = bad_gateway "LiteLLM key listing failed" e'

/-- The `keys` of a `/key/list` request. -/
def key_rows (answer : Call → HttpReply) (user_id team_id : Option String) : Except Failure Json :=
  outcome answer (request (.key_list user_id team_id) >>= listed)

section
variable {answer answer' : Call → HttpReply}

/-- One row in two runs. -/
theorem rowTwin_cases {row row' : Json} (h : RowTwin row row') :
    (∃ k k', row = .obj k ∧ row' = .obj k' ∧
        k.map (shade_field "*") = k'.map (shade_field "*")) ∨
      (row' = row ∧ ∀ k, row ≠ .obj k) := by
  unfold RowTwin at h
  cases row with
  | obj k =>
    cases row' with
    | obj k' => exact .inl ⟨k, k', rfl, rfl, Json.obj.inj h⟩
    | null | bool | num | str | arr => cases h
  | null | bool | num | str | arr =>
    cases row' with
    | obj k' => cases h
    | null | bool | num | str | arr => exact .inr ⟨h.symm, by simp⟩

/-- The same value, up to the secrets of its rows. -/
def RowsTwin (value value' : Json) : Prop := shade_rows "*" value = shade_rows "*" value'

theorem rowsTwin_cases {value value' : Json} (h : RowsTwin value value') :
    (∃ rows rows', value = .arr rows ∧ value' = .arr rows' ∧ List.Forall₂ RowTwin rows rows') ∨
      (value' = value ∧ ∀ rows, value ≠ .arr rows) := by
  unfold RowsTwin at h
  cases value with
  | arr rows =>
    cases value' with
    | arr rows' => exact .inl ⟨rows, rows', rfl, rfl, forall₂_of_map_eq (Json.arr.inj h)⟩
    | null | bool | num | str | obj => cases h
  | null | bool | num | str | obj =>
    cases value' with
    | arr rows' => cases h
    | null | bool | num | str | obj => exact .inr ⟨h.symm, by simp⟩

theorem related_listed {resp resp' : HttpResponse} (hstatus : resp.status_code = resp'.status_code)
    (hjson : resp.json.map (shade_body "*") = resp'.json.map (shade_body "*")) :
    Related SameFailure RowsTwin (outcome answer (listed resp)) (outcome answer' (listed resp')) := by
  have hok : resp.is_success = resp'.is_success := by
    unfold HttpResponse.is_success
    rw [hstatus]
  rw [outcome_listed_eq, outcome_listed_eq, ← hok]
  cases resp.is_success with
  | false => exact rfl
  | true =>
    rw [if_pos rfl, if_pos rfl]
    cases hbody : resp.json with
    | none =>
      cases hbody' : resp'.json with
      | none => exact rfl
      | some body' =>
        rw [hbody, hbody'] at hjson
        cases hjson
    | some body =>
      cases hbody' : resp'.json with
      | none =>
        rw [hbody, hbody'] at hjson
        cases hjson
      | some body' =>
        rw [hbody, hbody'] at hjson
        -- two bodies with one shade: both dictionaries, or the same
        have hshade : shade_body "*" body = shade_body "*" body' := Option.some.inj hjson
        cases body with
        | obj fields =>
          cases body' with
          | obj fields' =>
            have hkeys := congrArg (List.lookup "keys") (Json.obj.inj hshade)
            rw [lookup_shade_keys, lookup_shade_keys] at hkeys
            show RowsTwin _ _
            cases hvalue : fields.lookup "keys" with
            | none =>
              cases hvalue' : fields'.lookup "keys" with
              | none => rfl
              | some value' =>
                rw [hvalue, hvalue'] at hkeys
                cases hkeys
            | some value =>
              cases hvalue' : fields'.lookup "keys" with
              | none =>
                rw [hvalue, hvalue'] at hkeys
                cases hkeys
              | some value' =>
                rw [hvalue, hvalue'] at hkeys
                exact Option.some.inj hkeys
          | null | bool | num | str | arr => cases hshade
        | null | bool | num | str | arr =>
          cases body' with
          | obj fields' => cases hshade
          | null | bool | num | str | arr => exact rfl

/-- The key lists of twins fail alike, or have the same rows up to secrets. -/
theorem related_key_rows (htwin : Twin answer answer') (user_id team_id : Option String) :
    Related SameFailure RowsTwin (key_rows answer user_id team_id)
      (key_rows answer' user_id team_id) := by
  have hcall := htwin (.key_list user_id team_id)
  unfold key_rows
  cases hans : answer (.key_list user_id team_id) with
  | transport_error =>
    cases hans' : answer' (.key_list user_id team_id) with
    | transport_error =>
      rw [outcome_bind_error answer (outcome_request_transport answer hans),
        outcome_bind_error answer' (outcome_request_transport answer' hans')]
      exact rfl
    | response resp' =>
      rw [hans, hans'] at hcall
      cases hcall
  | response resp =>
    cases hans' : answer' (.key_list user_id team_id) with
    | transport_error =>
      rw [hans, hans'] at hcall
      cases hcall
    | response resp' =>
      rw [hans, hans'] at hcall
      -- one shade of the two replies, hence one status
      have hresp := HttpReply.response.inj hcall
      rw [HttpResponse.mk.injEq] at hresp
      rw [outcome_bind_ok answer (outcome_request answer hans),
        outcome_bind_ok answer' (outcome_request answer' hans')]
      exact related_listed hresp.1 hresp.2.2

end

end AlitellmAuth.Session
