import KiroTrust.Translate.Response

set_option autoImplicit false

namespace KiroTrust.Server

open Translate

/-! Upstream errors, and the error envelope that answers them. -/

inductive UpstreamErrorKind where
  | auth
  | throttled
  | modelCapacity
  | allowanceExhausted
  | server
  | transport
  | protocol
  | client
  deriving DecidableEq

structure UpstreamError where
  kind : UpstreamErrorKind
  status : Option Nat
  exceptionType : Option Str
  attempts : Nat
  -- Nanoseconds.
  retryAfter : Option Nat
  message : Str
  deriving DecidableEq

def UpstreamError.new (kind : UpstreamErrorKind) (status : Option Nat) (exceptionType : Option Str)
    (attempts : Nat) (retryAfter : Option Nat) (message : Str) : UpstreamError :=
  ⟨kind, status, exceptionType, attempts, retryAfter, cap message maxMessageBytes⟩

structure ApiError where
  status : Nat
  kind : Str
  message : Str
  retryAfter : Option Nat
  noRetry : Bool
  deriving DecidableEq

namespace ApiError

def new (status : Nat) (kind : String) (message : Str) : ApiError :=
  ⟨status, kind.toList, cap (scrubIdentifiers message) maxMessageBytes, none, false⟩

def authentication (m : Str) : ApiError := new 401 "authentication_error" m

def rateLimit (m : Str) : ApiError := new 429 "rate_limit_error" m

def rateLimitAfter (m : Str) (retryAfter : Nat) : ApiError := { rateLimit m with retryAfter := some retryAfter }

def allowanceExhausted (m : Str) : ApiError := { rateLimit m with noRetry := true }

def apiError (m : Str) : ApiError := new 502 "api_error" m

/-- `From<UpstreamError>` -/
def ofUpstream (e : UpstreamError) : ApiError :=
  let detail :=
    match e.exceptionType with
    | some t => if e.message ≠ [] then t ++ ": ".toList ++ e.message else t
    | none => e.message
  match e.kind with
  | .auth => authentication ("Kiro credential rejected: ".toList ++ detail)
  | .throttled | .modelCapacity =>
    let message :=
      match e.kind with
      | .modelCapacity => "model capacity unavailable: ".toList ++ detail
      | _ => "upstream throttled: ".toList ++ detail
    match e.retryAfter with
    | some retryAfter => rateLimitAfter message retryAfter
    | none => rateLimit message
  | .allowanceExhausted => allowanceExhausted ("Kiro monthly request allowance exhausted: ".toList ++ detail)
  | .server | .transport | .protocol | .client =>
    { apiError ("upstream error: ".toList ++ detail) with retryAfter := e.retryAfter }

end ApiError

def failureToError (f : Failure) : ApiError :=
  match f.kind with
  | .exception exceptionType =>
    if "INSUFFICIENT_MODEL_CAPACITY".toList <:+: f.message then
      .rateLimit ("model capacity unavailable: ".toList ++ f.message)
    else if exceptionType = "ThrottlingException".toList ∨ exceptionType = "TooManyRequestsException".toList then
      .rateLimit (exceptionType ++ ": ".toList ++ f.message)
    else .apiError (exceptionType ++ ": ".toList ++ f.message)
  | .invalidState reason => .apiError ("invalid state ".toList ++ reason ++ ": ".toList ++ f.message)

def retryableInvalidState : List Str :=
  ["CONTENT_LENGTH_EXCEEDS_THRESHOLD".toList, "INVALID_CONVERSATION_STATE".toList, "STALE_CONVERSATION".toList]

def retryable (f : Failure) : Bool :=
  match f.kind with
  | .invalidState reason => reason ∈ retryableInvalidState
  | .exception _ => false

end KiroTrust.Server
