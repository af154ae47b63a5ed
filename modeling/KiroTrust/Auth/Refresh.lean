import KiroTrust.Protocol.FrameDecoder

set_option autoImplicit false

namespace KiroTrust.Auth

open EventStream (decimal)

/-! Credentials, and the OIDC exchange that refreshes them. -/

/-- A `SystemTime`: nanoseconds since `UNIX_EPOCH`. -/
abbrev Time := Int

def unixEpoch : Time := 0

def second : Int := 1000000000

/-- The first instant that a `SystemTime` cannot hold. -/
def timeLimit : Time := 2 ^ 63 * second

structure Credentials where
  accessToken : Str
  refreshToken : Str
  clientId : Str
  clientSecret : Str
  expiresAt : Time
  ssoRegion : Str
  runtimeRegion : Str
  profileArn : Str
  deriving DecidableEq

inductive AuthError where
  | openDb (detail : Str)
  | query (detail : Str)
  | noCredentials
  | unsupported (what : Str)
  | badTokenJson
  | missingDeviceRegistration
  | noSsoRegion
  | noRuntimeRegion
  | region (detail : Str)
  | refresh (detail : Str)
  | refreshRejected (status : Nat)
  | net (detail : Str)
  | refreshIncomplete (detail : Str)
  | reauthRequired (detail : Str)
  deriving DecidableEq

def AuthError.display : AuthError → Str
  | .openDb detail => "cannot open the Kiro CLI database read-only: ".toList ++ detail
  | .query detail => "database query failed: ".toList ++ detail
  | .noCredentials =>
    "no Kiro CLI credentials found; run `kiro-cli login` with IAM Identity Center".toList
  | .unsupported what =>
    what ++ " is not supported by kiro-trust v0.1; only IAM Identity Center logins are".toList
  | .badTokenJson => "the token record is not valid JSON".toList
  | .missingDeviceRegistration =>
    "the device registration record is missing or incomplete (clientId/clientSecret)".toList
  | .noSsoRegion => "no SSO region is stored for this credential; check the Kiro CLI login".toList
  | .noRuntimeRegion =>
    ("no allowed runtime region could be derived from the credential; " ++
      "pass --runtime-region (spec 7.2)").toList
  | .region detail => "region rejected: ".toList ++ detail
  | .refresh detail => "token refresh failed: ".toList ++ detail
  | .refreshRejected status => "token refresh rejected with HTTP ".toList ++ decimal status
  | .net detail => "token refresh network error: ".toList ++ detail
  | .refreshIncomplete detail => "token refresh response was incomplete: ".toList ++ detail
  | .reauthRequired detail => detail ++ "; log in to Kiro CLI again".toList

structure TokenResponse where
  accessToken : Str
  refreshToken : Option Str
  expiresIn : Int

def maxExpiresInSecs : Int := 31536000

/-- How the request ends: by the deadline, without a response, or with a status. -/
inductive Response where
  | timedOut
  | net (detail : Str)
  | status (code : Nat)
  deriving DecidableEq

inductive Body where
  | timedOut
  | failed (detail : Str)
  | bytes (bytes : List UInt8)

def awaitStatus : Response → Except AuthError Unit
  -- `refresh` up to its status; it is past the 200 when this returns.
  | .timedOut => .error (.refresh "timed out".toList)
  | .net detail => .error (.net detail)
  | .status code => if code ≠ 200 then .error (.refreshRejected code) else .ok ()

def signedDecimal (value : Int) : Str :=
  if value < 0 then '-' :: decimal value.natAbs else decimal value.natAbs

def awaitBody (parse : List UInt8 → Option TokenResponse) (now : Time) (creds : Credentials) :
    Body → Except AuthError Credentials
  -- `refresh` from its status on.
  | .timedOut => .error (.refreshIncomplete "timed out".toList)
  | .failed detail => .error (.refreshIncomplete detail)
  | .bytes bytes =>
    match parse bytes with
    | none => .error (.refreshIncomplete "response was not the expected JSON".toList)
    | some parsed =>
      if parsed.accessToken = [] then .error (.refreshIncomplete "empty accessToken".toList)
      else if parsed.expiresIn ≤ 0 ∨ parsed.expiresIn > maxExpiresInSecs then
        .error (.refreshIncomplete ("invalid expiresIn ".toList ++ signedDecimal parsed.expiresIn))
      else if now + parsed.expiresIn * second ≥ timeLimit then
        .error (.refreshIncomplete "expiresIn out of range".toList)
      else
        .ok { creds with
          accessToken := parsed.accessToken
          refreshToken := (parsed.refreshToken.filter (· ≠ [])).getD creds.refreshToken
          expiresAt := now + parsed.expiresIn * second }

end KiroTrust.Auth
