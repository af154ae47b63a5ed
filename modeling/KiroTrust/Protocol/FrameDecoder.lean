import KiroTrust.Protocol.Text
import KiroTrust.Shared.BigEndian
import KiroTrust.Shared.Chunked

set_option autoImplicit false

namespace KiroTrust.EventStream

def maxFrameBytes : Nat := 4 * 1024 * 1024
def maxToolInputBytes : Nat := 16 * 1024 * 1024
def maxHeadersBytes : Nat := 128 * 1024
def preludeLen : Nat := 12
def minFrameLen : Nat := 16

inductive HeaderValue where
  | bool (value : Bool)
  | byte (value : Int8)
  | short (value : Int16)
  | int (value : Int32)
  | long (value : Int64)
  | bytes (value : List UInt8)
  | string (value : Str)
  | timestamp (value : Int64)
  | uuid (value : Vector UInt8 16)
  deriving DecidableEq

structure Frame where
  headers : List (Str × HeaderValue)
  payload : List UInt8
  deriving DecidableEq

inductive FrameError where
  | preludeCrc (computed expected : UInt32)
  | messageCrc (computed expected : UInt32)
  | tooLarge (total max : Nat)
  | tooSmall (total : Nat)
  | headersOverrun (headers : Nat)
  | badHeader (offset : Nat)
  | truncated (pending : Nat)
  deriving DecidableEq

def decimal (value : Nat) : Str := Nat.toDigits 10 value

-- `{:08x}`
def hex8 (value : UInt32) : Str :=
  let digits := Nat.toDigits 16 value.toNat
  List.replicate (8 - digits.length) '0' ++ digits

def FrameError.display : FrameError → Str
  | .preludeCrc computed expected =>
    "prelude CRC mismatch: computed ".toList ++ hex8 computed ++ ", frame says ".toList ++ hex8 expected
  | .messageCrc computed expected =>
    "message CRC mismatch: computed ".toList ++ hex8 computed ++ ", frame says ".toList ++ hex8 expected
  | .tooLarge total max =>
    "frame total_length ".toList ++ decimal total ++ " exceeds ".toList ++ decimal max
  | .tooSmall total =>
    "frame total_length ".toList ++ decimal total ++ " is below the 16-byte minimum".toList
  | .headersOverrun headers =>
    "headers_length ".toList ++ decimal headers ++ " exceeds the frame body".toList
  | .badHeader offset => "malformed header at offset ".toList ++ decimal offset
  | .truncated pending =>
    "stream ended inside a frame with ".toList ++ decimal pending ++ " bytes pending".toList

def slice (data : List UInt8) (first last : Nat) : List UInt8 :=
  (data.drop first).take (last - first)

def u32At (data : List UInt8) (offset : Nat) : Nat :=
  BigEndian.ofBytes (slice data offset (offset + 4))

def take (offset : Nat) (rest : List UInt8) (count : Nat) :
    Except FrameError (List UInt8 × List UInt8) :=
  if rest.length < count then .error (.badHeader offset)
  else .ok (rest.take count, rest.drop count)

def parseValue (offset kind : Nat) (rest : List UInt8) :
    Except FrameError (HeaderValue × List UInt8) :=
  match kind with
  | 0 => .ok (.bool true, rest)
  | 1 => .ok (.bool false, rest)
  | 2 => do
    let (head, rest) ← take offset rest 1
    .ok (.byte (UInt8.ofNat (BigEndian.ofBytes head)).toInt8, rest)
  | 3 => do
    let (head, rest) ← take offset rest 2
    .ok (.short (UInt16.ofNat (BigEndian.ofBytes head)).toInt16, rest)
  | 4 => do
    let (head, rest) ← take offset rest 4
    .ok (.int (UInt32.ofNat (BigEndian.ofBytes head)).toInt32, rest)
  | 5 => do
    let (head, rest) ← take offset rest 8
    .ok (.long (UInt64.ofNat (BigEndian.ofBytes head)).toInt64, rest)
  | 6 => do
    let (head, rest) ← take offset rest 2
    let (bytes, rest) ← take offset rest (BigEndian.ofBytes head)
    .ok (.bytes bytes, rest)
  | 7 => do
    let (head, rest) ← take offset rest 2
    let (bytes, rest) ← take offset rest (BigEndian.ofBytes head)
    match Str.fromUtf8 bytes with
    | none => .error (.badHeader offset)
    | some text => .ok (.string text, rest)
  | 8 => do
    let (head, rest) ← take offset rest 8
    .ok (.timestamp (UInt64.ofNat (BigEndian.ofBytes head)).toInt64, rest)
  | 9 => do
    let (head, rest) ← take offset rest 16
    .ok (.uuid (Vector.ofFn fun index => head.getD index 0), rest)
  | _ => .error (.badHeader offset)

/-- One turn of the loop of `parse_headers`, on data that is not empty. -/
def parseHeader (offset : Nat) (data : List UInt8) :
    Except FrameError ((Str × HeaderValue) × List UInt8) :=
  let nameLen := (data.headD 0).toNat
  if data.length < 1 + nameLen + 1 then .error (.badHeader offset)
  else
    match Str.fromUtf8 (slice data 1 (1 + nameLen)) with
    | none => .error (.badHeader offset)
    | some name => do
      let kind := (data.getD (1 + nameLen) 0).toNat
      let (value, rest) ← parseValue offset kind (data.drop (2 + nameLen))
      .ok ((name, value), rest)

theorem take_suffix {offset count : Nat} {rest : List UInt8} {taken : List UInt8 × List UInt8}
    (parsed : take offset rest count = .ok taken) : taken.2 <:+ rest := by
  unfold take at parsed
  split at parsed
  · cases parsed
  · cases parsed
    exact List.drop_suffix count rest

theorem parseValue_suffix {offset kind : Nat} {rest : List UInt8}
    {result : HeaderValue × List UInt8} (parsed : parseValue offset kind rest = .ok result) :
    result.2 <:+ rest := by
  unfold parseValue at parsed
  split at parsed <;> try simp only [bind, Except.bind] at parsed
  case h_1 | h_2 => cases parsed; exact List.suffix_rfl
  case h_7 =>
    split at parsed
    · cases parsed
    next first =>
      split at parsed
      · cases parsed
      next second =>
        cases parsed
        exact (take_suffix second).trans (take_suffix first)
  case h_8 =>
    split at parsed
    · cases parsed
    next first =>
      split at parsed
      · cases parsed
      next second =>
        split at parsed
        · cases parsed
        · cases parsed
          exact (take_suffix second).trans (take_suffix first)
  case h_11 => cases parsed
  all_goals
    split at parsed
    · cases parsed
    next first => cases parsed; exact take_suffix first

theorem parseHeader_shorter {offset : Nat} {data rest : List UInt8} {entry : Str × HeaderValue}
    (parsed : parseHeader offset data = .ok (entry, rest)) : rest.length + 2 ≤ data.length := by
  simp only [parseHeader] at parsed
  split at parsed
  · cases parsed
  next fits =>
    split at parsed
    · cases parsed
    · simp only [bind, Except.bind] at parsed
      split at parsed
      · cases parsed
      next result value =>
        have bound := (parseValue_suffix value).length_le
        cases parsed
        rw [List.length_drop] at bound
        omega

def parseHeaders (offset : Nat) (data : List UInt8) :
    Except FrameError (List (Str × HeaderValue)) :=
  if data = [] then .ok []
  else
    match _parsed : parseHeader offset data with
    | .error error => .error error
    | .ok (entry, rest) => do
      let more ← parseHeaders (offset + (data.length - rest.length)) rest
      .ok (entry :: more)
termination_by data.length
decreasing_by
  have shorter := parseHeader_shorter _parsed
  omega

structure FrameDecoder where
  buf : List UInt8
  -- Bytes consumed from the front of `buf` but not yet drained.
  start : Nat
  deriving DecidableEq

/-- The checks `next_frame` makes on the 12-byte prelude: the frame's length and its header length. -/
def checkPrelude (crc : List UInt8 → UInt32) (prelude : List UInt8) :
    Except FrameError (Nat × Nat) :=
  let total := u32At prelude 0
  let headersLen := u32At prelude 4
  let expected := UInt32.ofNat (u32At prelude 8)
  let computed := crc (slice prelude 0 8)
  if computed ≠ expected then .error (.preludeCrc computed expected)
  else if total < minFrameLen then .error (.tooSmall total)
  else if total > maxFrameBytes then .error (.tooLarge total maxFrameBytes)
  else
    let bodyLen := total - preludeLen
    if headersLen > bodyLen - 4 then .error (.headersOverrun headersLen)
    else if headersLen > maxHeadersBytes then .error (.headersOverrun headersLen)
    else .ok (total, headersLen)

def readBody (crc : List UInt8 → UInt32) (frameBytes : List UInt8) (headersLen : Nat) :
    Except FrameError Frame := do
  let total := frameBytes.length
  let msgExpected := UInt32.ofNat (u32At frameBytes (total - 4))
  let msgComputed := crc (slice frameBytes 0 (total - 4))
  if msgComputed ≠ msgExpected then .error (.messageCrc msgComputed msgExpected)
  else
    let headers ← parseHeaders 0 (slice frameBytes preludeLen (preludeLen + headersLen))
    .ok ⟨headers, slice frameBytes (preludeLen + headersLen) (total - 4)⟩

/-- `next_frame` on the unread bytes: the frame and the number of bytes it takes. -/
def readFrame (crc : List UInt8 → UInt32) (data : List UInt8) :
    Except FrameError (Option (Frame × Nat)) :=
  if data.length < preludeLen then .ok none
  else do
    -- The prelude is checked before the rest of the frame has arrived.
    let (total, headersLen) ← checkPrelude crc (data.take preludeLen)
    if data.length < total then .ok none
    else
      let frame ← readBody crc (data.take total) headersLen
      .ok (some (frame, total))

namespace FrameDecoder

def new : FrameDecoder := ⟨[], 0⟩

def push (decoder : FrameDecoder) (bytes : List UInt8) : FrameDecoder :=
  if decoder.start > 0 ∧ decoder.start * 2 > decoder.buf.length then
    -- More than half of the buffer has been consumed: compact it.
    ⟨decoder.buf.drop decoder.start ++ bytes, 0⟩
  else
    ⟨decoder.buf ++ bytes, decoder.start⟩

def pending (decoder : FrameDecoder) : Nat := decoder.buf.length - decoder.start

def finish (decoder : FrameDecoder) : Except FrameError Unit :=
  match decoder.pending with
  | 0 => .ok ()
  | pending => .error (.truncated pending)

def unread (decoder : FrameDecoder) : List UInt8 := decoder.buf.drop decoder.start

def nextFrame (crc : List UInt8 → UInt32) (decoder : FrameDecoder) :
    FrameDecoder × Except FrameError (Option Frame) :=
  match readFrame crc decoder.unread with
  | .error error => (decoder, .error error)
  | .ok none => (decoder, .ok none)
  | .ok (some (frame, total)) => ({ decoder with start := decoder.start + total }, .ok (some frame))

-- Both branches of `push` keep the unread bytes: compaction drops only what was consumed.
@[simp] theorem unread_push (decoder : FrameDecoder) (bytes : List UInt8) :
    (decoder.push bytes).unread = decoder.unread ++ bytes := by
  unfold push unread
  split
  · simp
  next lazy =>
    have inside : decoder.start ≤ decoder.buf.length := by omega
    exact List.drop_append_of_le_length inside

@[simp] theorem unread_new : new.unread = [] := rfl

theorem pending_eq (decoder : FrameDecoder) : decoder.pending = decoder.unread.length := by
  simp [pending, unread]

theorem finish_eq (decoder : FrameDecoder) :
    decoder.finish = if decoder.unread = [] then .ok () else .error (.truncated decoder.unread.length) := by
  rw [finish, pending_eq]
  cases decoder.unread <;> rfl

end FrameDecoder

theorem checkPrelude_bounds {crc : List UInt8 → UInt32} {prelude : List UInt8} {total headersLen : Nat}
    (checked : checkPrelude crc prelude = .ok (total, headersLen)) :
    minFrameLen ≤ total ∧ total ≤ maxFrameBytes ∧ headersLen + minFrameLen ≤ total ∧
      headersLen ≤ maxHeadersBytes := by
  simp only [checkPrelude] at checked
  split_ifs at checked with crcBad small large overrun long
  cases checked
  simp only [minFrameLen, preludeLen] at *
  omega

theorem readFrame_item {crc : List UInt8 → UInt32} {data : List UInt8} {frame : Frame} {total : Nat} :
    readFrame crc data = .ok (some (frame, total)) ↔
      preludeLen ≤ data.length ∧ total ≤ data.length ∧
        ∃ headersLen, checkPrelude crc (data.take preludeLen) = .ok (total, headersLen) ∧
          readBody crc (data.take total) headersLen = .ok frame := by
  simp only [readFrame, bind, Except.bind]
  by_cases short : data.length < preludeLen
  · simp [short]
  · cases checked : checkPrelude crc (data.take preludeLen) with
    | error error => simp [short]
    | ok lengths =>
      by_cases missing : data.length < lengths.1
      · simp [short, missing]
        grind
      · cases body : readBody crc (data.take lengths.1) lengths.2 <;> simp [short, missing, body]
        all_goals grind

theorem readFrame_error {crc : List UInt8 → UInt32} {data : List UInt8} {error : FrameError} :
    readFrame crc data = .error error ↔
      preludeLen ≤ data.length ∧
        (checkPrelude crc (data.take preludeLen) = .error error ∨
          ∃ total headersLen, checkPrelude crc (data.take preludeLen) = .ok (total, headersLen) ∧
            total ≤ data.length ∧ readBody crc (data.take total) headersLen = .error error) := by
  simp only [readFrame, bind, Except.bind]
  by_cases short : data.length < preludeLen
  · simp [short]
  · cases checked : checkPrelude crc (data.take preludeLen) with
    | error error => simp [short]; grind
    | ok lengths =>
      by_cases missing : data.length < lengths.1
      · simp [short, missing]
        grind
      · cases body : readBody crc (data.take lengths.1) lengths.2 <;> simp [short, missing, body]
        all_goals grind

end KiroTrust.EventStream
