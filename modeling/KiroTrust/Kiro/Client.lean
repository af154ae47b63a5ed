import KiroTrust.Auth.Refresh
import KiroTrust.Kiro.Error

set_option autoImplicit false

namespace KiroTrust.Kiro

open Auth (AuthError Time)
open EventStream (decimal)
open Server (UpstreamError UpstreamErrorKind)

/-! `client.rs`: one `generate_inner` call, as a machine that rests at its awaits. -/

/-! `headers.rs` -/

def maxAttempts : Nat := 3

def amzTarget : Str := "AmazonCodeWhispererStreamingService.GenerateAssistantResponse".toList

def contentType : Str := "application/x-amz-json-1.0".toList

def userAgent : Str :=
  ("aws-sdk-rust/1.3.15 ua/2.1 api/codewhispererstreaming/0.1.17593 os/macos lang/rust/1.92.0 " ++
    "md/appVersion-2.10.0 app/AmazonQ-For-CLI").toList

def amzUserAgent : Str :=
  ("aws-sdk-rust/1.3.15 ua/2.1 api/codewhispererstreaming/0.1.17593 os/macos lang/rust/1.92.0 " ++
    "m/F app/AmazonQ-For-CLI").toList

def u32Max : Nat := 2 ^ 32 - 1

def saturatingAdd (left right : Nat) : Nat := min (left + right) u32Max

/-- `AttemptProgress`, by what `completed` loads. -/
def recordCompleted (completed count : Nat) : Nat := saturatingAdd completed count

/-- Durations are nanoseconds. -/
def fromSecs (seconds : Nat) : Nat := seconds * 1000000000

inductive RetryDelay where
  | fallback
  | wait (delay : Nat)
  | stop (delay : Option Nat)
  deriving DecidableEq

def retryDelay (delay : Nat) : RetryDelay := if delay ≤ fromSecs 60 then .wait delay else .stop (some delay)

def number (digits : Str) : Nat := digits.foldl (fun total digit => 10 * total + (digit.toNat - '0'.toNat)) 0

inductive NetError where
  | build (detail : Str)
  | transport (host detail : Str)
  | redirect (status : Nat)
  -- The duration as `Debug` shows it.
  | headerTimeout (shown : Str)
  | body (detail : Str)
  | badPath (host : Str)
  | extraCa (detail : Str)
  | healthProbe

def NetError.display : NetError → Str
  | .build detail => "client build failed: ".toList ++ detail
  | .transport host detail => "transport error to ".toList ++ host ++ ": ".toList ++ detail
  | .redirect status => "upstream answered ".toList ++ decimal status ++ " redirect; redirects are rejected".toList
  | .headerTimeout shown => "no response headers within ".toList ++ shown
  | .body detail => "body read failed: ".toList ++ detail
  | .badPath host =>
    "request path would change the authority for ".toList ++ host ++
      "; paths must be absolute and carry no userinfo".toList
  | .extraCa detail => "extra CA rejected: ".toList ++ detail
  | .healthProbe => "loopback health probe failed".toList

/-- A response; of its headers, those that are read, as far as `to_str` admits them. -/
structure Response where
  status : Nat
  contentType : Option Str
  retryAfter : Option Str
  stream : List (Except NetError (List UInt8))

structure Identity where
  profileArn : Str
  runtimeRegion : Str
  ssoRegion : Str
  expiresAt : Time
  deriving DecidableEq

structure UpstreamStream where
  attempts : Nat
  bytes : List (Except UpstreamError (List UInt8))

/-- What the client uses of other crates, and how it was set up. -/
structure Externals where
  serde : Serde
  -- `serde_json::to_vec`
  encode : Payload → Except Str (List UInt8)
  -- `HeaderValue::from_str`
  headerValue : Str → Bool
  -- `httpdate::parse_http_date`
  httpDate : Str → Option Time
  shareContent : Bool

structure Post where
  region : Str
  headers : List (Str × Str)
  payload : Payload
  body : List UInt8

inductive Pause where
  -- The exponential backoff of an attempt, with its jitter.
  | backoff (attempt : Nat)
  | retryAfter (delay : Nat)

inductive Phase where
  | identity
  | headers (identity : Identity)
  | posting
  | exception
  | throttled (status : Nat) (delay : RetryDelay)
  | refused (status : Nat)
  | sleeping
  | returned (result : Except UpstreamError UpstreamStream)
  | cancelled

/-- The locals of `generate_inner` and the progress it shares. -/
structure Generate where
  payload : Payload
  body : List UInt8
  invocationId : Str
  attempts : Nat
  refreshed : Bool
  progress : Option Nat
  phase : Phase

/-- What an await yields, or that the future is dropped there. -/
inductive Input where
  | identity (result : Except AuthError Identity)
  | token (result : Except AuthError Str)
  | post (now : Time) (result : Except NetError Response)
  | bytes (result : Except NetError (List UInt8))
  | wake
  | cancel

inductive Observation where
  | post (post : Post)
  | completed (now : Time) (result : Except NetError Response)
  | exception (read : Except NetError (List UInt8))
  | throttled (status : Nat) (raw : List UInt8)
  | refused (raw : List UInt8)
  | invalidate
  | sleep (pause : Pause)

def Observation.isPost : Observation → Bool
  | .post _ => true
  | _ => false

def Observation.isCompleted : Observation → Bool
  | .completed _ _ => true
  | _ => false

def Observation.isInvalidate : Observation → Bool
  | .invalidate => true
  | _ => false

variable (x : Externals)

def retryAfter (header : Option Str) (now : Time) : RetryDelay :=
  match header with
  | none => .fallback
  | some value =>
    if value ≠ [] ∧ value.all Char.isDigit then
      if number value < 2 ^ 64 then retryDelay (fromSecs (number value)) else .stop none
    else
      match x.httpDate value with
      | some date => if now ≤ date then retryDelay (date - now).toNat else .fallback
      | none => .fallback

def authError (e : AuthError) (attempts : Nat) : UpstreamError := .new .auth none none attempts none e.display

def netError (e : NetError) (attempts : Nat) : UpstreamError := .new .transport none none attempts none e.display

def headers (token : Except AuthError Str) (attempt : Nat) (invocationId : Str) :
    Except UpstreamError (List (Str × Str)) :=
  match token with
  | .error e => .error (authError e 0)
  | .ok t =>
    if x.headerValue ("Bearer ".toList ++ t) then
      .ok [
        ("authorization".toList, "Bearer ".toList ++ t),
        ("content-type".toList, contentType),
        ("accept".toList, "*/*".toList),
        ("x-amz-target".toList, amzTarget),
        ("user-agent".toList, userAgent),
        ("x-amz-user-agent".toList, amzUserAgent),
        ("x-amzn-codewhisperer-optout".toList, if x.shareContent then "false".toList else "true".toList),
        ("amz-sdk-invocation-id".toList, invocationId),
        ("amz-sdk-request".toList,
          "attempt=".toList ++ decimal attempt ++ "; max=".toList ++ decimal maxAttempts)]
    else .error (.new .auth none none 0 none "token is not a valid header value".toList)

namespace Generate

def last (g : Generate) : Bool := g.attempts ≥ maxAttempts

def finish (g : Generate) (result : Except UpstreamError UpstreamStream) : Generate :=
  { g with phase := .returned result }

def fail (g : Generate) (error : UpstreamError) : Generate := g.finish (.error error)

/-- `continue`, after a pause. -/
def pause (g : Generate) (pause : Pause) : Generate × List Observation :=
  ({ g with phase := .sleeping }, [.sleep pause])

def onHeaders (g : Generate) (identity : Identity) (token : Except AuthError Str) : Generate × List Observation :=
  match headers x token (saturatingAdd g.attempts 1) g.invocationId with
  | .error error => (g.fail { error with attempts := g.attempts }, [])
  | .ok headers => ({ g with phase := .posting }, [.post ⟨identity.runtimeRegion, headers, g.payload, g.body⟩])

def onResponse (g : Generate) (now : Time) (resp : Response) : Generate × List Observation :=
  if resp.status = 200 then
    if isEventStreamContentType (resp.contentType.getD []) then
      let bytes := resp.stream.map (Except.mapError (netError · g.attempts))
      (g.finish (.ok { attempts := g.attempts, bytes }), [])
    else ({ g with phase := .exception }, [])
  else if resp.status = 403 then
    if !g.refreshed && !g.last then ({ g with refreshed := true, phase := .identity }, [.invalidate])
    else (g.fail (.new .auth (some 403) none g.attempts none "runtime rejected the credential".toList), [])
  else if resp.status = 429 ∨ 500 ≤ resp.status ∧ resp.status ≤ 599 then
    ({ g with phase := .throttled resp.status (retryAfter x resp.retryAfter now) }, [])
  else ({ g with phase := .refused resp.status }, [])

def onPost (g : Generate) (now : Time) (post : Except NetError Response) : Generate × List Observation :=
  let g := { g with
    attempts := saturatingAdd g.attempts 1
    progress := g.progress.map (recordCompleted · 1) }
  let after :=
    match post with
    | .ok resp => g.onResponse x now resp
    | .error (.redirect status) =>
      (g.fail (.new .transport (some status) none g.attempts none "redirect rejected".toList), [])
    | .error e => if g.last then (g.fail (netError e g.attempts), []) else g.pause (.backoff g.attempts)
  (after.1, .completed now post :: after.2)

/-- The kind of a 200 that is no event stream. -/
def exceptionKind (raw : List UInt8) : UpstreamErrorKind :=
  match parseExceptionType x.serde raw with
  | none => .protocol
  | some t =>
    if classifyThrottle 200 raw = .modelCapacity then .modelCapacity
    else if isAllowanceExhausted raw then .allowanceExhausted
    else if t = "ThrottlingException".toList ∨ t = "TooManyRequestsException".toList then .throttled
    else if isRetryableException t then .server
    else .client

def onException (g : Generate) (read : Except NetError (List UInt8)) : Generate × List Observation :=
  let after : Generate × List Observation :=
    match read with
    | .error e => (g.fail (netError e g.attempts), [])
    | .ok raw =>
      let ex := parseExceptionType x.serde raw
      let kind := exceptionKind x raw
      let retryable := kind = .modelCapacity || (kind ≠ .allowanceExhausted && ex.any isRetryableException)
      if retryable && !g.last then g.pause (.backoff g.attempts)
      else (g.fail (.new kind (some 200) ex g.attempts none (parseExceptionMessage x.serde raw)), [])
  (after.1, .exception read :: after.2)

def onThrottled (g : Generate) (status : Nat) (delay : RetryDelay) (read : Except NetError (List UInt8)) :
    Generate × List Observation :=
  let raw := read.toOption.getD []
  let ex := parseExceptionType x.serde raw
  let kind := classifyThrottle status raw
  let error (delay : Option Nat) : UpstreamError :=
    .new kind (some status) ex g.attempts delay (parseExceptionMessage x.serde raw)
  let after :=
    if kind = .allowanceExhausted then (g.fail (error none), [])
    else
      match delay with
      | .stop delay => (g.fail (error delay), [])
      | .wait delay => if g.last then (g.fail (error none), []) else g.pause (.retryAfter delay)
      | .fallback => if g.last then (g.fail (error none), []) else g.pause (.backoff g.attempts)
  (after.1, .throttled status raw :: after.2)

def onRefused (g : Generate) (status : Nat) (read : Except NetError (List UInt8)) : Generate × List Observation :=
  let raw := read.toOption.getD []
  let kind := if isAllowanceExhausted raw then UpstreamErrorKind.allowanceExhausted else .client
  (g.fail (.new kind (some status) (parseExceptionType x.serde raw) g.attempts none
    (parseExceptionMessage x.serde raw)), [.refused raw])

def start (payload : Payload) (invocationId : Str) (progress : Option Nat) : Generate :=
  let g : Generate := ⟨payload, [], invocationId, 0, false, progress, .identity⟩
  match x.encode payload with
  | .ok body => { g with body }
  | .error e => g.fail (.new .protocol none none 0 none e)

def ended (g : Generate) : Bool :=
  match g.phase with
  | .returned _ | .cancelled => true
  | _ => false

def step (g : Generate) : Input → Generate × List Observation
  -- An input that is not awaited does nothing.
  | .identity result =>
    match g.phase, result with
    | .identity, .ok identity => ({ g with phase := .headers identity }, [])
    | .identity, .error e => (g.fail (authError e g.attempts), [])
    | _, _ => (g, [])
  | .token result =>
    match g.phase with
    | .headers identity => g.onHeaders x identity result
    | _ => (g, [])
  | .post now result =>
    match g.phase with
    | .posting => g.onPost x now result
    | _ => (g, [])
  | .bytes result =>
    match g.phase with
    | .exception => g.onException x result
    | .throttled status delay => g.onThrottled x status delay result
    | .refused status => g.onRefused x status result
    | _ => (g, [])
  | .wake =>
    match g.phase with
    | .sleeping => ({ g with phase := .identity }, [])
    | _ => (g, [])
  | .cancel => (if g.ended then g else { g with phase := .cancelled }, [])

end Generate

end KiroTrust.Kiro
