import KiroTrust.Auth.Refresh
import KiroTrust.Net.Region
import KiroTrust.Protocol.Json
import KiroTrust.Shared.Walk

set_option autoImplicit false

namespace KiroTrust.Auth

open Net (Region RuntimeRegion)
open Walk (bind_ok)

/-! `db.rs`: the credential that the two tables hold. -/

def tokenKeys : List Str := ["kirocli:odic:token".toList, "kirocli:oidc:token".toList]

def socialKeys : List Str := ["kirocli:social:token".toList]

def registrationKeys : List Str :=
  ["kirocli:odic:device-registration".toList, "kirocli:oidc:device-registration".toList,
    "kirocli:odic:device_registration".toList, "kirocli:oidc:device_registration".toList]

inductive Cell where
  | text (bytes : List UInt8)
  | blob (bytes : List UInt8)
  | other

def textOrUtf8Blob : Cell → Option Str
  | .text bytes | .blob bytes => Str.fromUtf8 bytes
  | .other => none

/-- An open connection: the first row of a query by key, if there is one, and `PRAGMA query_only`. -/
structure KiroDb where
  authKv : Str → Option Cell
  state : Str → Option Cell
  queryOnly : Option Int

/-- What reading uses of other crates. -/
structure Readers where
  -- `serde_json::from_str`
  fromStr : Str → Option Value
  -- `parse_expires_at`, which computes in floating point
  parseExpiresAt : Option Value → Option Time
  -- `{:?}` of a string
  debug : Str → Str

def okOr {A : Type} (error : AuthError) : Option A → Except AuthError A
  | some value => .ok value
  | none => .error error

def pick (v : Value) (camel snake : Str) : Option Str :=
  (((v.get camel).or (v.get snake)).bind Value.asStr).filter (· ≠ [])

namespace KiroDb

variable (x : Readers) (db : KiroDb)

def isReadOnly : Bool := db.queryOnly.any (· ≠ 0)

def firstAuthKv (keys : List Str) : Option Str := keys.findSome? fun key => (db.authKv key).bind textOrUtf8Blob

def readState (key : Str) : Option Str :=
  ((db.state key).bind textOrUtf8Blob).map fun v =>
    match x.fromStr v with
    | some (.string s) => s
    | _ => v

/-- The ARN in the stored profile; a profile that is no object with one is the ARN itself. -/
def profileArn : Str :=
  let raw := (readState x db "api.codewhisperer.profile".toList).getD []
  (((x.fromStr raw).bind (Value.get "arn".toList)).bind Value.asStr).getD raw

def arnRegion (arn : Str) : Option Str := (arn.splitOn ':')[3]?.filter (· ≠ [])

def tokenJson : Except AuthError Str :=
  match db.firstAuthKv tokenKeys with
  | some t => .ok t
  | none =>
    if (db.firstAuthKv socialKeys).isSome then .error (.unsupported "social login".toList) else .error .noCredentials

def ssoRegion (stored : Option Str) : Except AuthError Region := do
  let region ← okOr .noSsoRegion stored
  (Region.parse region).mapError fun e => .region (e.display x.debug)

def runtimeRegion (candidates : List (Option Str)) : Except AuthError RuntimeRegion :=
  okOr .noRuntimeRegion ((candidates.filterMap id).findSome? fun c => (RuntimeRegion.parse c).toOption)

def readIdentityCenter : Except AuthError Credentials := do
  let tokenJson ← db.tokenJson
  let token ← okOr .badTokenJson (x.fromStr tokenJson)
  let access ← okOr .badTokenJson (pick token "accessToken".toList "access_token".toList)
  let refresh ← okOr .badTokenJson (pick token "refreshToken".toList "refresh_token".toList)
  let expiresAt :=
    (x.parseExpiresAt ((token.get "expiresAt".toList).or (token.get "expires_at".toList))).getD unixEpoch
  let tokenRegion := pick token "region".toList "region".toList
  let regJson ← okOr .missingDeviceRegistration (db.firstAuthKv registrationKeys)
  let reg ← okOr .missingDeviceRegistration (x.fromStr regJson)
  let clientId ← okOr .missingDeviceRegistration (pick reg "clientId".toList "client_id".toList)
  let clientSecret ← okOr .missingDeviceRegistration (pick reg "clientSecret".toList "client_secret".toList)
  let stateRegion := readState x db "auth.idc.region".toList
  let profileArn := profileArn x db
  let ssoRegion ← ssoRegion x (tokenRegion.or stateRegion)
  let runtimeRegion ← runtimeRegion [tokenRegion, arnRegion profileArn, stateRegion]
  return {
    accessToken := access
    refreshToken := refresh
    clientId
    clientSecret
    expiresAt
    ssoRegion := ssoRegion.str
    runtimeRegion := runtimeRegion.region.str
    profileArn }

end KiroDb

structure Credentials.Complete (c : Credentials) : Prop where
  accessToken : c.accessToken ≠ []
  refreshToken : c.refreshToken ≠ []
  clientId : c.clientId ≠ []
  clientSecret : c.clientSecret ≠ []
  ssoRegion : ∃ region : Region, c.ssoRegion = region.str
  runtimeRegion : ∃ served : RuntimeRegion, c.runtimeRegion = served.region.str

theorem okOr_ok {A : Type} {error : AuthError} {source : Option A} {value : A} :
    okOr error source = .ok value ↔ source = some value := by
  cases source <;> simp [okOr]

theorem pick_nonempty {v : Value} {camel snake found : Str} (picked : pick v camel snake = some found) :
    found ≠ [] := by
  simpa using (Option.filter_eq_some_iff.1 picked).2

namespace KiroDb

theorem read_complete {x : Readers} {db : KiroDb} {c : Credentials} (read : db.readIdentityCenter x = .ok c) :
    c.Complete := by
  simp only [readIdentityCenter, bind_ok, okOr_ok] at read
  obtain ⟨_, -, token, -, access, accessible, refresh, refreshable, _, -, reg, -, id, identified, secret, kept, sso, -,
    runtime, -, same⟩ := read
  cases same
  exact ⟨pick_nonempty accessible, pick_nonempty refreshable, pick_nonempty identified, pick_nonempty kept,
    ⟨sso, rfl⟩, ⟨runtime, rfl⟩⟩

end KiroDb

end KiroTrust.Auth
