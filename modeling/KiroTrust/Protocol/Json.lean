import KiroTrust.Protocol.Text

set_option autoImplicit false

namespace KiroTrust

/-! `serde_json::Value` and the accessors the source calls on it. -/

inductive Number where
  | posInt (value : UInt64)
  | negInt (value : Int64)
  -- The bits of a finite `f64`.
  | float (bits : UInt64)
  deriving DecidableEq

inductive Value where
  | null
  | bool (value : Bool)
  | number (value : Number)
  | string (value : Str)
  | array (items : List Value)
  | object (entries : List (Str × Value))

namespace Value

def get (key : Str) : Value → Option Value
  | .object entries => (entries.find? (fun entry => entry.1 = key)).map Prod.snd
  | _ => none

def asStr : Value → Option Str
  | .string value => some value
  | _ => none

def asBool : Value → Option Bool
  | .bool value => some value
  | _ => none

def asU64 : Value → Option UInt64
  | .number (.posInt value) => some value
  | _ => none

def asNumber : Value → Option Number
  | .number value => some value
  | _ => none

end Value

/-- The parser and printer of `serde_json`, which lie outside the repository. -/
structure Serde where
  fromSlice : List UInt8 → Option Value
  fromStr : Str → Option Value
  print : Value → Str

end KiroTrust
