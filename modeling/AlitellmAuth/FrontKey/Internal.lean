import AlitellmAuth.OauthAs.Routes

/-! # The front key

    `internal.py`: each user's own LiteLLM key, minted once under a per-user
    lock, kept in the store, and handed to the authorization proxy, to the
    session API and to the client configuration endpoint.
-/

namespace AlitellmAuth

open Interleave Text

def MINT_LOCK_TTL : Nat := 10

/-- `_key_alive`: false only when LiteLLM rejects the key. `none` where an
    exception escapes that is no HTTP error. -/
def key_alive : LitellmReply Unit → Option Bool
  | .ok _ => some true
  | .status_error code => some (500 ≤ code)
  | .transport_error => some true
  | .crashed => none

/-- How `resolve_front_key` ends: a key, `FrontKeyMintInProgress`,
    `FrontKeyUnavailable`, or another exception. -/
inductive FrontKeyResult where
  | key (key : String)
  | mint_in_progress
  | unavailable
  | crashed
  deriving DecidableEq

/-- What a call to LiteLLM that did not succeed turns a mint into. -/
def LitellmReply.failure {α : Type} : LitellmReply α → FrontKeyResult
  | .crashed => .crashed
  | _ => .unavailable

/-- The `try` block of `resolve_front_key`, run while the lock is held. A
    minted key that is no string cannot be encoded and raises. -/
def mint (sub : String) : P FrontKeyResult := do
  match ← Store.get .frontkey sub with
  | some record => return .key record.enc.plain
  | none =>
      match ← remote (.provision sub) with
      | .ok _ =>
          match ← remote (.key_generate sub) with
          | .ok minted =>
              match minted.key with
              | some key => do
                  Store.put .frontkey sub { enc := ⟨key⟩, id := minted.id } none
                  return .key key
              | none => return .crashed
          | reply => return reply.failure
      | reply => return reply.failure

/-- The name of a user's mint lock. -/
def mint_lock (sub : String) : String := "mint:" ++ sub

/-- `resolve_front_key` from the lock on: wait for a concurrent mint, or mint
    and release the lock however the mint ends. -/
def mint_locked (sub : String) : P FrontKeyResult := do
  let acquired ← Store.acquire (mint_lock sub) MINT_LOCK_TTL
  if !acquired then do
    remote .sleep
    match ← Store.get .frontkey sub with
    | some record => return .key record.enc.plain
    | none => return .mint_in_progress
  else do
    let result ← mint sub
    Store.release (mint_lock sub)
    return result

/-- `resolve_front_key`. -/
def resolve_front_key (sub : String) : P FrontKeyResult := do
  match ← Store.get .frontkey sub with
  | none => mint_locked sub
  | some record => do
      let reply ← remote (.get_key_info record.enc.plain)
      match key_alive reply with
      | none => return .crashed
      | some true => return .key record.enc.plain
      | some false => do
          let _ ← Store.pop .frontkey sub
          mint_locked sub

/-! ## The callers -/

/-- `_authorized`: `none` where `hmac.compare_digest` raises on text that is
    not ASCII. -/
def authorized (presented : Option String) (internal_token : String) : Option Bool :=
  let ascii (s : String) := s.toList.all fun c => c.toNat < 128
  if internal_token = "" then some false
  else if ascii (presented.getD "") && ascii internal_token then
    some (presented.getD "" == internal_token)
  else none

/-- `str(body.get("sub") or "")`; `none` if the body is no dictionary. -/
def body_sub (E : Env) : Option Json → Option String
  | some (.obj fields) =>
      match (Json.obj fields).get? "sub" with
      | some (.str s) => some s
      | some v => some (if v.truthy then E.str v else "")
      | none => some ""
  | _ => none

/-- `POST /api/internal/front-key`. -/
def front_key (E : Env) (presented : Option String) (body : Option Json) : P Response :=
  match authorized presented E.internal_token with
  | none => return .internal_error
  | some false => return .front_key_error 403 "forbidden"
  | some true =>
      match body_sub E body with
      | none => return .internal_error
      | some text =>
          if lower (strip text) = "" then return .front_key_error 400 "sub required"
          else do
            match ← resolve_front_key (lower (strip text)) with
            | .key key => return .front_key key
            | .mint_in_progress => return .front_key_error 503 "mint_in_progress"
            | .unavailable => return .front_key_error 502 "litellm_unavailable"
            | .crashed => return .internal_error

/-- `_user_key`, for the session's email. -/
def user_key (email : String) : P Response := do
  match ← resolve_front_key email with
  | .key key => return .front_key key
  | .mint_in_progress => return .front_key_error 503 "key is being created, retry"
  | .unavailable => return .front_key_error 502 "LiteLLM key unavailable"
  | .crashed => return .internal_error

/-- `GET /clients/opencode/config` as far as the caller's key is concerned:
    whatever goes wrong, the endpoint falls back to what it has cached. -/
def opencode_config (sub : String) : P Response := do
  match ← resolve_front_key sub with
  | .key key => return .front_key key
  | _ => return .front_key_error 200 "stale"

end AlitellmAuth
