import AlitellmAuth.Framework.Ledger
import AlitellmAuth.Framework.Json
import AlitellmAuth.Framework.PyText

/-! # The authorization server: records, parties, answers

    The record kinds of the store, the remote parties the handlers talk to
    (Dex, LiteLLM, the service brokers, the pods' grant projection) and the
    answers the handlers give. The handlers themselves follow in their own
    modules.
-/

namespace AlitellmAuth

open Interleave

/-! ## Settings -/

/-- One entry of `AS_SERVICES`: the pods' service name in Redis and the
    service's own authorization server. -/
structure Service where
  store : String
  broker : String
  deriving DecidableEq

/-- The settings the authorization server reads. -/
structure Settings where
  app_base_url : String
  as_issuer_url : String
  as_audience : String
  as_access_ttl_seconds : Nat
  as_refresh_ttl_seconds : Nat
  services : List (String × Service)
  oauth_scopes : String
  internal_token : String

/-- `str.rstrip("/")`. -/
def rstrip_slash (s : String) : String :=
  String.ofList (s.toList.reverse.dropWhile (· == '/')).reverse

/-- `Settings.as_issuer`. -/
def Settings.as_issuer (s : Settings) : String :=
  rstrip_slash (if s.as_issuer_url = "" then s.app_base_url else s.as_issuer_url)

/-- `scope in settings.services`. -/
def Settings.offers (s : Settings) (scope : String) : Bool := (s.services.lookup scope).isSome

/-! ## Records -/

/-- `client`: a registered public client. -/
structure Client where
  client_id : String
  redirect_uris : List String
  deriving DecidableEq

/-- What an `/oauth/authorize` request fixes, carried through the whole flow. -/
structure AuthRequest where
  client_id : String
  redirect_uri : String
  state : Option String
  code_challenge : String
  scopes : List String
  deriving DecidableEq

/-- `pending`: a request waiting for Dex. A device login carries the device
    code and the audience scope alone. -/
inductive Pending where
  | client (request : AuthRequest)
  | device (device_code : String) (scopes : List String)
  deriving DecidableEq

/-- `chain`: a request whose user is at a service broker. -/
structure Chain where
  request : AuthRequest
  sub : String
  todo : List String
  verifier : String
  deriving DecidableEq

/-- `code`: an authorization code. -/
structure Code where
  request : AuthRequest
  sub : String
  scope : String
  deriving DecidableEq

/-- `refresh`: a refresh token. -/
structure Refresh where
  sub : String
  client_id : String
  scope : String
  deriving DecidableEq

/-- `dexrt`: the user's Dex refresh token, keyed by email. -/
structure DexRt where
  rt : String
  deriving DecidableEq

inductive DeviceStatus where
  | pending
  | approved
  | denied
  deriving DecidableEq

/-- `device`: a device code; `sub` is set when the login is approved. -/
structure Device where
  client_id : String
  user_code : String
  status : DeviceStatus
  sub : Option String
  deriving DecidableEq

/-- `device_user`: the index from the displayed user code. -/
structure DeviceUser where
  device_code : String
  deriving DecidableEq

/-- What a broker answers, as Python reads it; a float is the text it is written
    as. -/
abbrev BrokerValue := PyValue String

/-- `brokerclient`: our client id at a broker, as the broker gave it. -/
structure BrokerClient where
  client_id : BrokerValue

/-- A Fernet ciphertext. Only this service holds the key, so the ciphertext
    is modelled by what it decrypts to. -/
structure Sealed where
  plain : String
  deriving DecidableEq

/-- `frontkey`: the user's encrypted LiteLLM key and its id. -/
structure FrontKey where
  enc : Sealed
  id : Option String
  deriving DecidableEq

/-- The record kinds of the store. -/
inductive Kind where
  | client
  | pending
  | chain
  | code
  | refresh
  | dexrt
  | device
  | device_user
  | brokerclient
  | frontkey
  deriving DecidableEq

/-- The records of each kind. -/
abbrev Kind.Rec : Kind → Type
  | .client => Client
  | .pending => Pending
  | .chain => Chain
  | .code => Code
  | .refresh => Refresh
  | .dexrt => DexRt
  | .device => Device
  | .device_user => DeviceUser
  | .brokerclient => BrokerClient
  | .frontkey => FrontKey

/-! ## Remote parties -/

/-- The claims Dex returns about a user. -/
structure UserInfo where
  email : Option String
  name : Option String
  groups : Json

/-- What Dex's token endpoint returns for an authorization code. -/
structure DexToken where
  userinfo : Option UserInfo
  refresh_token : Option String

/-- Dex's answer to a replayed refresh token. `status` is any status that is
    not a success; `malformed` is a success whose body is no JSON object. -/
inductive DexReply where
  | transport_error
  | status (code : Nat)
  | success (refresh_token : Option String)
  | malformed
  deriving DecidableEq

/-- How a call to LiteLLM ends for its caller: a result, a status error, a
    transport error, or an exception that is neither. -/
inductive LitellmReply (α : Type) where
  | ok (a : α)
  | status_error (code : Nat)
  | transport_error
  | crashed
  deriving DecidableEq

/-- A value of the grant projection: no value, text that is not JSON, or JSON. -/
inductive Projection where
  | absent
  | garbage
  | json (value : Json)

/-- The answer of a broker's registration endpoint; the body is `none` if it
    is not JSON. `invalid_url` is an address that httpx rejects before it sends
    anything, which is not an `httpx.HTTPError`. -/
inductive BrokerReply where
  | invalid_url
  | transport_error
  | response (status : Nat) (body : Option BrokerValue)

/-- A freshly minted LiteLLM key as `/key/generate` reports it. -/
structure Minted where
  key : Option String
  id : Option String
  deriving DecidableEq

/-- The calls to remote parties. -/
inductive Ext where
  /-- Authlib's code exchange at Dex for the callback with this state. -/
  | authorize_access_token (state : String)
  /-- A refresh token replayed at Dex. -/
  | dex_refresh (rt : String)
  | ensure_team_and_user (email : String) (name : Option String) (sso_groups : List String)
  | get_litellm_user (sub : String)
  /-- The projection key `oauth:{store}:state:{email}`. -/
  | projection (store email : String)
  | broker_register (broker : String)
  | get_key_info (key : String)
  /-- The provisioning half of `generate_litellm_key`. -/
  | provision (email : String)
  /-- The `/key/generate` request of `generate_litellm_key`. -/
  | key_generate (email : String)
  | sleep

/-- The answers of remote parties. The code exchange answers `none` when
    Authlib raises; a user lookup answers whether the user exists. -/
abbrev Ext.Reply : Ext → Type
  | .authorize_access_token _ => Option DexToken
  | .dex_refresh _ => DexReply
  | .ensure_team_and_user .. => LitellmReply Unit
  | .get_litellm_user _ => LitellmReply Bool
  | .projection .. => Projection
  | .broker_register _ => BrokerReply
  | .get_key_info _ => LitellmReply Unit
  | .provision _ => LitellmReply Unit
  | .key_generate _ => LitellmReply Minted
  | .sleep => Unit

/-! ## Programs of the authorization server -/

abbrev AsOp := Op Kind Kind.Rec Ext

abbrev AsAns : AsOp → Type := Op.Ans Ext.Reply

abbrev AsEvent := Event AsOp AsAns

abbrev AsTrace := Trace AsOp AsAns

abbrev AsEntry := Entry Kind Kind.Rec Ext.Reply

/-- A handler of the authorization server. -/
abbrev P (α : Type) := Prog AsOp AsAns α

/-- Await one operation. -/
abbrev call (op : AsOp) : P (AsAns op) := Prog.await op

namespace Store

/-- `store.get(kind, key)`. -/
abbrev get (k : Kind) (key : String) : P (Option k.Rec) := call (.get k key)

/-- `store.put(kind, key, value, ttl)`. -/
abbrev put (k : Kind) (key : String) (v : k.Rec) (ttl : Option Nat) : P Unit :=
  call (.put k key v ttl)

/-- `store.pop(kind, key)`. -/
abbrev pop (k : Kind) (key : String) : P (Option k.Rec) := call (.pop k key)

/-- `store.acquire(name, ttl)`. -/
abbrev acquire (name : String) (ttl : Nat) : P Bool := call (.acquire name ttl)

/-- `store.release(name)`. -/
abbrev release (name : String) : P Unit := call (.release name)

end Store

/-- `secrets.token_urlsafe(nbytes)`. -/
abbrev token_urlsafe (nbytes : Nat) : P String := call (.draw (.urlsafe nbytes))

/-- `time.time()`, in whole seconds. -/
abbrev time : P Nat := call .time

/-- A call to a remote party. -/
abbrev remote (e : Ext) : P e.Reply := call (.ext e)

/-! ## Answers -/

/-- The claims of a token signed by this server. -/
structure Claims where
  iss : String
  aud : String
  sub : String
  iat : Nat
  exp : Nat
  jti : String
  scope : String
  client_id : Json
  token_use : String

/-- The answers of the handlers. -/
inductive Response where
  /-- An OAuth error in JSON. -/
  | error (status : Nat) (error description : String)
  /-- An error page. -/
  | html_error (status : Nat) (message : String)
  /-- A redirect back to the client; the issuer is added to the parameters. -/
  | client_redirect (redirect_uri : String) (params : List (String × String))
  /-- A redirect to Dex. -/
  | dex_redirect (callback state scope : String)
  /-- A redirect to a service broker, with the signed hint it receives. -/
  | broker_redirect (broker scope state challenge : String) (client_id : BrokerValue)
      (login_hint : Claims)
  /-- A registered client. -/
  | registered (client : Client)
  /-- A token pair. -/
  | tokens (access : Claims) (refresh scope : String) (expires_in : Nat)
  | device_authorization (device_code user_code verification_uri : String)
      (expires_in interval : Nat)
  /-- The verification page. -/
  | device_page (code problem : String) (status : Nat) (done : Bool)
  /-- The front key of a user, or why there is none. -/
  | front_key (key : String)
  | front_key_error (status : Nat) (error : String)
  /-- An exception no handler catches. -/
  | internal_error

end AlitellmAuth
