import KiroTrust.Server.Error
import KiroTrust.Translate.Request

set_option autoImplicit false

namespace KiroTrust.Kiro

open Server (UpstreamErrorKind)

/-! Classification of upstream errors, `error.rs`. -/

def capacityMarker : List UInt8 := Str.bytes "INSUFFICIENT_MODEL_CAPACITY".toList

def allowanceMarker : List UInt8 := Str.bytes "MONTHLY_REQUEST_COUNT".toList

def contains (body marker : List UInt8) : Bool := decide (marker <:+: body)

def isAllowanceExhausted (body : List UInt8) : Bool := contains body allowanceMarker

def classifyThrottle (status : Nat) (body : List UInt8) : UpstreamErrorKind :=
  if contains body capacityMarker then .modelCapacity
  else if isAllowanceExhausted body then .allowanceExhausted
  else if status = 429 then .throttled
  else .server

def normalizeExceptionType (raw : Str) : Str :=
  let afterHash := (raw.reverse.takeWhile (· ≠ '#')).reverse
  afterHash.takeWhile (· ≠ ':')

def parseExceptionType (serde : Serde) (body : List UInt8) : Option Str := do
  let v ← serde.fromSlice body
  let raw ← ["__type", "type", "code"].findSome? fun k =>
    ((v.get k.toList).bind Value.asStr).filter fun s => s ≠ []
  return normalizeExceptionType raw

def parseExceptionMessage (serde : Serde) (body : List UInt8) : Str :=
  let raw := ((serde.fromSlice body).bind fun v => (v.get "message".toList).bind Value.asStr).getD []
  scrubIdentifiers raw

def isRetryableException (t : Str) : Bool :=
  t = "ThrottlingException".toList || t = "TooManyRequestsException".toList ||
    t = "ServiceUnavailableException".toList || t = "InternalServerException".toList ||
    t = "InternalFailureException".toList || t = "InternalServerError".toList

def isEventStreamContentType (ct : Str) : Bool :=
  let mt := Translate.trim (ct.takeWhile (· ≠ ';'))
  mt.map Char.toLower = "application/vnd.amazon.eventstream".toList

end KiroTrust.Kiro
