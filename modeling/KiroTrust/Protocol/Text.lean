import Mathlib.Data.List.Basic

set_option autoImplicit false

namespace KiroTrust

/-- A Rust `String`: its Unicode scalar values in order. -/
abbrev Str := List Char

instance : LawfulBEq Str := inferInstance

namespace Str

def bytes (text : Str) : List UInt8 := text.flatMap String.utf8EncodeChar

/-- `len()`, which counts UTF-8 bytes. -/
def byteLen (text : Str) : Nat := text.bytes.length

def fromUtf8 (data : List UInt8) : Option Str :=
  -- `std::str::from_utf8`
  data.toByteArray.utf8Decode?.map Array.toList

theorem forall_of_all {p : Char → Prop} [DecidablePred p] {text : Str} (all : text.all fun c => decide (p c)) :
    ∀ c ∈ text, p c := fun c inside => of_decide_eq_true (List.all_eq_true.1 all c inside)

@[simp] theorem bytes_nil : bytes [] = [] := rfl

theorem bytes_toByteArray (text : Str) : text.bytes.toByteArray = text.utf8Encode := rfl

theorem fromUtf8_bytes (text : Str) : fromUtf8 text.bytes = some text := by
  simp [fromUtf8, bytes_toByteArray, List.utf8Decode?_utf8Encode]

theorem bytes_fromUtf8 {data : List UInt8} {text : Str} (decoded : fromUtf8 data = some text) :
    text.bytes = data := by
  obtain ⟨chars, found, rfl⟩ := Option.map_eq_some_iff.1 decoded
  have valid : data.toByteArray.utf8Decode?.isSome := by simp [found]
  have back := ByteArray.utf8Encode_get_utf8Decode? (h := valid)
  simp only [found, Option.get_some, ← bytes_toByteArray] at back
  exact List.toByteArray_inj.1 back

theorem byteLen_cons (head : Char) (rest : Str) :
    byteLen (head :: rest) = head.utf8Size + byteLen rest := by
  simp [byteLen, bytes]

end Str

/-! `sanitize.rs` -/

def maxMessageBytes : Nat := 1024

def isAsciiWhitespace (char : Char) : Bool :=
  char = ' ' || char = '\t' || char = '\n' || char = '\x0c' || char = '\r'

def endsArn (char : Char) : Bool := isAsciiWhitespace char || char = '"' || char = '\''

def scrubIdentifiers (text : Str) : Str :=
  match text with
  | [] => []
  | head :: rest =>
    if "arn:".toList.isPrefixOf (head :: rest) then
      "arn:***".toList ++ scrubIdentifiers ((rest.drop 3).dropWhile (fun char => !endsArn char))
    else if head.isDigit then
      let digits := head :: rest.takeWhile Char.isDigit
      (if digits.length = 12 then "***".toList else digits) ++
        scrubIdentifiers (rest.dropWhile Char.isDigit)
    else
      head :: scrubIdentifiers rest
termination_by text.length
decreasing_by
  · have shorter := ((rest.drop 3).dropWhile_sublist (fun char => !endsArn char)).length_le
    have dropped := rest.length_drop (i := 3)
    simp only [List.length_cons]
    omega
  · have shorter := (rest.dropWhile_sublist Char.isDigit).length_le
    simp only [List.length_cons]
    omega
  · simp

def takeBytes : Nat → Str → Str
  | _, [] => []
  | limit, head :: rest =>
    if head.utf8Size ≤ limit then head :: takeBytes (limit - head.utf8Size) rest else []

def cap (text : Str) (limit : Nat) : Str :=
  if text.byteLen ≤ limit then text else takeBytes limit text

theorem takeBytes_byteLen (limit : Nat) (text : Str) : (takeBytes limit text).byteLen ≤ limit := by
  induction text generalizing limit with
  | nil => simp [takeBytes, Str.byteLen]
  | cons head rest ih =>
    rw [takeBytes]
    split
    next fits =>
      have inner := ih (limit - head.utf8Size)
      rw [Str.byteLen_cons]
      omega
    next => simp [Str.byteLen]

theorem cap_byteLen (text : Str) (limit : Nat) : (cap text limit).byteLen ≤ limit := by
  unfold cap
  split
  · assumption
  · exact takeBytes_byteLen limit text

end KiroTrust
