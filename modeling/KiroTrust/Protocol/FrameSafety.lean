import KiroTrust.Protocol.FrameChunking
import KiroTrust.Shared.Panics

set_option autoImplicit false

namespace KiroTrust.EventStream

open Panics

/-! The decoder with each bound that the source relies on: an index, a slice, a subtraction or an `unwrap` out of its
range is a panic. Its sums cannot overflow, as a `Vec` holds at most `isize::MAX` bytes. -/

namespace Panicking

def take (offset : Nat) (rest : List UInt8) (count : Nat) : Run FrameError (List UInt8 × List UInt8) :=
  if rest.length < count then throw (.badHeader offset) else bounded (splitAt rest count)

/-- `from_be_bytes(take(&mut rest, width)?.try_into().unwrap())`. -/
def takeUInt (offset : Nat) (rest : List UInt8) (width : Nat) : Run FrameError (Nat × List UInt8) := do
  let (head, rest) ← take offset rest width
  let array ← bounded (unwrapArray width head)
  return (BigEndian.ofBytes array.toList, rest)

def parseValue (offset kind : Nat) (rest : List UInt8) : Run FrameError (HeaderValue × List UInt8) :=
  match kind with
  | 0 => return (.bool true, rest)
  | 1 => return (.bool false, rest)
  | 2 => do
    let (head, rest) ← take offset rest 1
    let byte ← bounded (index head 0)
    return (.byte byte.toInt8, rest)
  | 3 => do
    let (value, rest) ← takeUInt offset rest 2
    return (.short (UInt16.ofNat value).toInt16, rest)
  | 4 => do
    let (value, rest) ← takeUInt offset rest 4
    return (.int (UInt32.ofNat value).toInt32, rest)
  | 5 => do
    let (value, rest) ← takeUInt offset rest 8
    return (.long (UInt64.ofNat value).toInt64, rest)
  | 6 => do
    let (len, rest) ← takeUInt offset rest 2
    let (bytes, rest) ← take offset rest len
    return (.bytes bytes, rest)
  | 7 => do
    let (len, rest) ← takeUInt offset rest 2
    let (bytes, rest) ← take offset rest len
    match Str.fromUtf8 bytes with
    | none => throw (.badHeader offset)
    | some text => return (.string text, rest)
  | 8 => do
    let (value, rest) ← takeUInt offset rest 8
    return (.timestamp (UInt64.ofNat value).toInt64, rest)
  | 9 => do
    let (head, rest) ← take offset rest 16
    let uuid ← bounded (unwrapArray 16 head)
    return (.uuid uuid, rest)
  | _ => throw (.badHeader offset)

/-- One turn of the loop of `parse_headers`. -/
def parseHeader (offset : Nat) (data : List UInt8) : Run FrameError ((Str × HeaderValue) × List UInt8) := do
  let first ← bounded (index data 0)
  let nameLen := first.toNat
  if data.length < 1 + nameLen + 1 then throw (.badHeader offset)
  else do
    let nameBytes ← bounded (Panics.slice data 1 (1 + nameLen))
    match Str.fromUtf8 nameBytes with
    | none => throw (.badHeader offset)
    | some name => do
      let kind ← bounded (index data (1 + nameLen))
      let rest ← bounded (sliceFrom data (2 + nameLen))
      let (value, rest) ← parseValue offset kind.toNat rest
      return ((name, value), rest)

theorem take_returns (offset : Nat) (rest : List UInt8) (count : Nat) :
    take offset rest count = returns (EventStream.take offset rest count) := by
  rw [take, EventStream.take]
  split
  next => rfl
  next enough => rw [splitAt_ok (Nat.le_of_not_lt enough)]; rfl

theorem take_length {offset count : Nat} {rest : List UInt8} {taken : List UInt8 × List UInt8}
    (parsed : EventStream.take offset rest count = .ok taken) : taken.1.length = count := by
  unfold EventStream.take at parsed
  split at parsed
  next => cases parsed
  next enough =>
    cases parsed
    exact List.length_take_of_le (Nat.le_of_not_lt enough)

theorem takeUInt_returns (offset : Nat) (rest : List UInt8) (width : Nat) :
    takeUInt offset rest width =
      returns (EventStream.take offset rest width >>= fun taken => .ok (BigEndian.ofBytes taken.1, taken.2)) := by
  rw [takeUInt, take_returns]
  cases taken : EventStream.take offset rest width with
  | error error => rfl
  | ok taken' =>
    obtain ⟨array, unwraps, same⟩ := unwrapArray_ok (take_length taken)
    rw [returns_bind]
    simp only [unwraps, bounded_bind, same]
    rfl

theorem ofBytes_single (byte : UInt8) : UInt8.ofNat (BigEndian.ofBytes [byte]) = byte := by
  simp [BigEndian.ofBytes]

theorem ofFn_getD (array : Vector UInt8 16) : (Vector.ofFn fun place => array.toList.getD place 0) = array := by
  ext place inside
  simp

theorem parseValue_returns (offset kind : Nat) (rest : List UInt8) :
    parseValue offset kind rest = returns (EventStream.parseValue offset kind rest) := by
  unfold parseValue EventStream.parseValue
  simp only [takeUInt_returns, take_returns]
  -- One case for each kind of value, in the order of the source; the last is every other kind.
  rcases kind with _ | _ | _ | _ | _ | _ | _ | _ | _ | _ | _
  · rfl
  · rfl
  · cases taken : EventStream.take offset rest 1 with
    | error error => rfl
    | ok result =>
      obtain ⟨byte, single⟩ := List.length_eq_one_iff.1 (take_length taken)
      simp only [returns_bind, single]
      rw [index_ok (show 0 < [byte].length from Nat.zero_lt_one), bounded_bind]
      simp only [bind, Except.bind, single, ofBytes_single]
      rfl
  · cases EventStream.take offset rest 2 <;> rfl
  · cases EventStream.take offset rest 4 <;> rfl
  · cases EventStream.take offset rest 8 <;> rfl
  · cases EventStream.take offset rest 2 with
    | error error => rfl
    | ok len =>
      change (returns (EventStream.take offset len.2 (BigEndian.ofBytes len.1)) >>= _) =
        returns (EventStream.take offset len.2 (BigEndian.ofBytes len.1) >>= _)
      cases EventStream.take offset len.2 (BigEndian.ofBytes len.1) <;> rfl
  · cases EventStream.take offset rest 2 with
    | error error => rfl
    | ok len =>
      change (returns (EventStream.take offset len.2 (BigEndian.ofBytes len.1)) >>= _) =
        returns (EventStream.take offset len.2 (BigEndian.ofBytes len.1) >>= _)
      cases EventStream.take offset len.2 (BigEndian.ofBytes len.1) with
      | error error => rfl
      | ok text =>
        simp only [returns_bind, ok_bind]
        cases Str.fromUtf8 text.1 <;> rfl
  · cases EventStream.take offset rest 8 <;> rfl
  · cases taken : EventStream.take offset rest 16 with
    | error error => rfl
    | ok result =>
      obtain ⟨uuid, unwraps, same⟩ := unwrapArray_ok (take_length taken)
      simp only [returns_bind, unwraps, bounded_bind]
      simp only [bind, Except.bind, ← same, ofFn_getD]
      rfl
  · rfl

theorem parseHeader_returns (offset : Nat) {data : List UInt8} (nonempty : data ≠ []) :
    parseHeader offset data = returns (EventStream.parseHeader offset data) := by
  obtain ⟨first, others, rfl⟩ := List.exists_cons_of_ne_nil nonempty
  rw [parseHeader, index_ok (show 0 < (first :: others).length by simp), bounded_bind]
  simp only [List.getElem_cons_zero]
  by_cases short : (first :: others).length < 1 + first.toNat + 1
  · have fails : EventStream.parseHeader offset (first :: others) = _ := if_pos short
    rw [if_pos short, fails]
    rfl
  have goesOn : EventStream.parseHeader offset (first :: others) = _ := if_neg short
  rw [if_neg short, goesOn, slice_ok (by omega) (by omega)]
  change (bounded (.ok (EventStream.slice (first :: others) 1 (1 + first.toNat))) >>= _) = _
  rw [bounded_bind]
  dsimp only [List.headD_cons]
  cases Str.fromUtf8 (EventStream.slice (first :: others) 1 (1 + first.toNat)) with
  | none => rfl
  | some name =>
    have kind : (first :: others).getD (1 + first.toNat) 0 = (first :: others)[1 + first.toNat] := by
      rw [List.getD_eq_getElem?_getD, List.getElem?_eq_getElem (by omega), Option.getD_some]
    dsimp only
    rw [index_ok (by omega), bounded_bind, sliceFrom_ok (by omega), bounded_bind, parseValue_returns, kind]
    cases EventStream.parseValue offset (first :: others)[1 + first.toNat].toNat
      ((first :: others).drop (2 + first.toNat)) <;> rfl

theorem parseHeader_shorter {offset : Nat} {data rest : List UInt8} {entry : Str × HeaderValue}
    (parsed : parseHeader offset data = returns (.ok (entry, rest))) : rest.length + 2 ≤ data.length := by
  by_cases empty : data = []
  · subst empty
    cases parsed
  · rw [parseHeader_returns offset empty] at parsed
    exact EventStream.parseHeader_shorter (Except.ok.inj parsed)

/-- `parse_headers`; the headers read so far are in `out`. -/
def parseHeaders (offset : Nat) (out : List (Str × HeaderValue)) (data : List UInt8) :
    Run FrameError (List (Str × HeaderValue)) :=
  if data = [] then return out
  else
    match _parsed : (parseHeader offset data).run with
    | .error panic => ExceptT.mk (.error panic)
    | .ok (.error error) => throw error
    | .ok (.ok (entry, rest)) => do
      let used ← bounded (sub data.length rest.length)
      parseHeaders (offset + used) (out ++ [entry]) rest
termination_by data.length
decreasing_by
  have shorter := parseHeader_shorter _parsed
  omega

theorem parseHeaders_returns (offset : Nat) (out : List (Str × HeaderValue)) (data : List UInt8) :
    parseHeaders offset out data = returns ((EventStream.parseHeaders offset data).map (out ++ ·)) := by
  induction length : data.length using Nat.strong_induction_on generalizing offset out data with
  | _ size ih =>
    subst length
    by_cases empty : data = []
    · subst empty
      rw [parseHeaders, EventStream.parseHeaders, if_pos rfl, if_pos rfl]
      exact congrArg (fun headers => returns (.ok headers)) (List.append_nil out).symm
    have same := parseHeader_returns offset empty
    rw [parseHeaders, EventStream.parseHeaders, if_neg empty, if_neg empty]
    split
    next panic panics => cases panics.symm.trans same
    next error fails =>
      have read := Except.ok.inj (fails.symm.trans same)
      split
      next other fails => cases read.trans fails; rfl
      next entry rest parsed => cases read.trans parsed
    next entry rest parses =>
      have read := Except.ok.inj (parses.symm.trans same)
      have shorter := parseHeader_shorter parses
      split
      next other fails => cases read.trans fails
      next entry' rest' parsed =>
        cases read.trans parsed
        rw [sub_ok (by omega), bounded_bind, ih rest.length (by omega) _ _ rest rfl]
        cases EventStream.parseHeaders (offset + (data.length - rest.length)) rest with
        | error error => rfl
        | ok more => exact congrArg (fun headers => returns (.ok headers)) (List.append_assoc out [entry] more)

/-- `u32::from_be_bytes` of the four bytes from `offset` on. -/
def u32At (data : List UInt8) (offset : Nat) : Except Panic Nat := do
  let b0 ← index data offset
  let b1 ← index data (offset + 1)
  let b2 ← index data (offset + 2)
  let b3 ← index data (offset + 3)
  return BigEndian.ofBytes [b0, b1, b2, b3]

def lastU32 (frameBytes : List UInt8) (total : Nat) : Except Panic Nat := do
  let b0 ← index frameBytes (← sub total 4)
  let b1 ← index frameBytes (← sub total 3)
  let b2 ← index frameBytes (← sub total 2)
  let b3 ← index frameBytes (← sub total 1)
  return BigEndian.ofBytes [b0, b1, b2, b3]

def checkPrelude (crc : List UInt8 → UInt32) (data : List UInt8) : Run FrameError (Nat × Nat) := do
  let total ← bounded (u32At data 0)
  let headersLen ← bounded (u32At data 4)
  let word ← bounded (u32At data 8)
  let expected := UInt32.ofNat word
  let checked ← bounded (Panics.slice data 0 8)
  let computed := crc checked
  if computed ≠ expected then throw (.preludeCrc computed expected)
  else if total < minFrameLen then throw (.tooSmall total)
  else if total > maxFrameBytes then throw (.tooLarge total maxFrameBytes)
  else do
    let bodyLen ← bounded (sub total preludeLen)
    let most ← bounded (sub bodyLen 4)
    if headersLen > most then throw (.headersOverrun headersLen)
    else if headersLen > maxHeadersBytes then throw (.headersOverrun headersLen)
    else return (total, headersLen)

def readBody (crc : List UInt8 → UInt32) (frameBytes : List UInt8) (total headersLen : Nat) :
    Run FrameError Frame := do
  let word ← bounded (lastU32 frameBytes total)
  let msgExpected := UInt32.ofNat word
  let stop ← bounded (sub total 4)
  let checked ← bounded (Panics.slice frameBytes 0 stop)
  let msgComputed := crc checked
  if msgComputed ≠ msgExpected then throw (.messageCrc msgComputed msgExpected)
  else do
    let headerBytes ← bounded (Panics.slice frameBytes preludeLen (preludeLen + headersLen))
    let headers ← parseHeaders 0 [] headerBytes
    let stop ← bounded (sub total 4)
    let payload ← bounded (Panics.slice frameBytes (preludeLen + headersLen) stop)
    return ⟨headers, payload⟩

def readFrame (crc : List UInt8 → UInt32) (data : List UInt8) : Run FrameError (Option (Frame × Nat)) :=
  if data.length < preludeLen then return none
  else do
    let (total, headersLen) ← checkPrelude crc data
    if data.length < total then return none
    else do
      let frameBytes ← bounded (Panics.slice data 0 total)
      let frame ← readBody crc frameBytes total headersLen
      return some (frame, total)

def nextFrame (crc : List UInt8 → UInt32) (decoder : FrameDecoder) :
    Except Panic (FrameDecoder × Except FrameError (Option Frame)) := do
  let data ← sliceFrom decoder.buf decoder.start
  match ← (readFrame crc data).run with
  | .error error => return (decoder, .error error)
  | .ok none => return (decoder, .ok none)
  | .ok (some (frame, total)) => return ({ decoder with start := decoder.start + total }, .ok (some frame))

def push (decoder : FrameDecoder) (bytes : List UInt8) : Except Panic FrameDecoder :=
  if decoder.start > 0 ∧ decoder.start * 2 > decoder.buf.length then do
    -- `drain(..start)`
    let buf ← sliceFrom decoder.buf decoder.start
    return ⟨buf ++ bytes, 0⟩
  else return ⟨decoder.buf ++ bytes, decoder.start⟩

def pending (decoder : FrameDecoder) : Except Panic Nat := sub decoder.buf.length decoder.start

theorem slice_take (data : List UInt8) {first last count : Nat} (inside : last ≤ count) :
    EventStream.slice (data.take count) first last = EventStream.slice data first last := by
  rw [EventStream.slice, EventStream.slice, List.drop_take, List.take_take, Nat.min_eq_left (by omega)]

theorem u32At_ok {data : List UInt8} {offset : Nat} (inside : offset + 4 ≤ data.length) :
    u32At data offset = .ok (EventStream.u32At data offset) := by
  have four : EventStream.slice data offset (offset + 4) =
      [data[offset], data[offset + 1], data[offset + 2], data[offset + 3]] := by
    rw [EventStream.slice, List.drop_eq_getElem_cons (by omega), List.drop_eq_getElem_cons (by omega),
      List.drop_eq_getElem_cons (by omega), List.drop_eq_getElem_cons (by omega), Nat.add_sub_cancel_left]
    rfl
  rw [u32At, index_ok (by omega), index_ok (by omega), index_ok (by omega), index_ok (by omega),
    EventStream.u32At, four]
  rfl

theorem lastU32_ok {frameBytes : List UInt8} (long : 4 ≤ frameBytes.length) :
    lastU32 frameBytes frameBytes.length = .ok (EventStream.u32At frameBytes (frameBytes.length - 4)) := by
  have second : frameBytes.length - 3 = frameBytes.length - 4 + 1 := by omega
  have third : frameBytes.length - 2 = frameBytes.length - 4 + 2 := by omega
  have fourth : frameBytes.length - 1 = frameBytes.length - 4 + 3 := by omega
  rw [← u32At_ok (by omega), lastU32, sub_ok long, sub_ok (by omega), sub_ok (by omega), sub_ok (by omega), second,
    third, fourth]
  rfl

theorem checkPrelude_returns (crc : List UInt8 → UInt32) {data : List UInt8} (long : preludeLen ≤ data.length) :
    checkPrelude crc data = returns (EventStream.checkPrelude crc (data.take preludeLen)) := by
  have word {offset : Nat} (inside : offset + 4 ≤ preludeLen) :
      u32At data offset = .ok (EventStream.u32At (data.take preludeLen) offset) := by
    rw [u32At_ok (by omega), EventStream.u32At, EventStream.u32At, slice_take data inside]
  have front : Panics.slice data 0 8 = .ok (EventStream.slice (data.take preludeLen) 0 8) := by
    rw [slice_take data (by decide)]
    exact slice_ok (Nat.zero_le 8) (le_trans (by decide) long)
  rw [checkPrelude, word (by decide), word (by decide), word (by decide), front, EventStream.checkPrelude]
  simp only [bounded_bind]
  generalize EventStream.u32At (data.take preludeLen) 0 = total
  generalize EventStream.u32At (data.take preludeLen) 4 = headersLen
  by_cases bad : crc (EventStream.slice (data.take preludeLen) 0 8) ≠
      UInt32.ofNat (EventStream.u32At (data.take preludeLen) 8)
  · rw [if_pos bad, if_pos bad]
    rfl
  rw [if_neg bad, if_neg bad]
  by_cases small : total < minFrameLen
  · rw [if_pos small, if_pos small]
    rfl
  rw [if_neg small, if_neg small]
  by_cases large : total > maxFrameBytes
  · rw [if_pos large, if_pos large]
    rfl
  -- The length has passed the check for the minimum, so neither subtraction underflows.
  have enough : preludeLen + 4 ≤ total := Nat.le_of_not_lt small
  rw [if_neg large, if_neg large, sub_ok (by omega), bounded_bind, sub_ok (by omega), bounded_bind]
  by_cases overrun : headersLen > total - preludeLen - 4
  · rw [if_pos overrun, if_pos overrun]
    rfl
  rw [if_neg overrun, if_neg overrun]
  by_cases long : headersLen > maxHeadersBytes
  · rw [if_pos long, if_pos long]
    rfl
  rw [if_neg long, if_neg long]
  rfl

theorem readBody_returns (crc : List UInt8 → UInt32) {frameBytes : List UInt8} {headersLen : Nat}
    (fits : headersLen + minFrameLen ≤ frameBytes.length) :
    readBody crc frameBytes frameBytes.length headersLen =
      returns (EventStream.readBody crc frameBytes headersLen) := by
  have sizes : preludeLen + 4 = minFrameLen := rfl
  have checked : Panics.slice frameBytes 0 (frameBytes.length - 4) =
      .ok (EventStream.slice frameBytes 0 (frameBytes.length - 4)) := slice_ok (Nat.zero_le _) (Nat.sub_le _ _)
  rw [readBody, lastU32_ok (by omega), bounded_bind, sub_ok (by omega), bounded_bind, checked, bounded_bind,
    EventStream.readBody]
  dsimp only
  by_cases bad : crc (EventStream.slice frameBytes 0 (frameBytes.length - 4)) ≠
      UInt32.ofNat (EventStream.u32At frameBytes (frameBytes.length - 4))
  · rw [if_pos bad, if_pos bad]
    rfl
  have payload : Panics.slice frameBytes (preludeLen + headersLen) (frameBytes.length - 4) =
      .ok (EventStream.slice frameBytes (preludeLen + headersLen) (frameBytes.length - 4)) :=
    slice_ok (by omega) (Nat.sub_le _ _)
  have headers : Panics.slice frameBytes preludeLen (preludeLen + headersLen) =
      .ok (EventStream.slice frameBytes preludeLen (preludeLen + headersLen)) := slice_ok (by omega) (by omega)
  rw [if_neg bad, if_neg bad, headers, bounded_bind, parseHeaders_returns]
  cases EventStream.parseHeaders 0 (EventStream.slice frameBytes preludeLen (preludeLen + headersLen)) with
  | error error => rfl
  | ok headers =>
    change (bounded (Panics.slice frameBytes (preludeLen + headersLen) (frameBytes.length - 4)) >>= fun _ => _) = _
    rw [payload]
    rfl

theorem readFrame_returns (crc : List UInt8 → UInt32) (data : List UInt8) :
    readFrame crc data = returns (EventStream.readFrame crc data) := by
  rw [readFrame, EventStream.readFrame]
  by_cases short : data.length < preludeLen
  · rw [if_pos short, if_pos short]
    rfl
  rw [if_neg short, if_neg short, checkPrelude_returns crc (Nat.le_of_not_lt short)]
  cases checked : EventStream.checkPrelude crc (data.take preludeLen) with
  | error error => rfl
  | ok lengths =>
    obtain ⟨total, headersLen⟩ := lengths
    obtain ⟨-, -, fits, -⟩ := checkPrelude_bounds checked
    change (if data.length < total then _ else _) = returns (if data.length < total then _ else _)
    by_cases missing : data.length < total
    · rw [if_pos missing, if_pos missing]
      rfl
    have length : (data.take total).length = total := List.length_take_of_le (Nat.le_of_not_lt missing)
    have whole : Panics.slice data 0 total = .ok (data.take total) :=
      slice_ok (Nat.zero_le _) (Nat.le_of_not_lt missing)
    have body : readBody crc (data.take total) (data.take total).length headersLen = _ :=
      readBody_returns crc (by rwa [length])
    rw [length] at body
    rw [if_neg missing, if_neg missing, whole, bounded_bind, body]
    cases EventStream.readBody crc (data.take total) headersLen <;> rfl

def call (crc : List UInt8 → UInt32) (decoder : FrameDecoder) :
    Call → Except Panic (FrameDecoder × List (Except FrameError (Option Frame)))
  | .push bytes => do
    let after ← push decoder bytes
    return (after, [])
  | .nextFrame => do
    let (after, result) ← nextFrame crc decoder
    return (after, [result])

def runAll (crc : List UInt8 → UInt32) :
    FrameDecoder → List Call → Except Panic (FrameDecoder × List (Except FrameError (Option Frame)))
  | decoder, [] => return (decoder, [])
  | decoder, input :: rest => do
    let (after, now) ← call crc decoder input
    let (last, later) ← runAll crc after rest
    return (last, now ++ later)

def Within (decoder : FrameDecoder) : Prop := decoder.start ≤ decoder.buf.length

theorem nextFrame_ok (crc : List UInt8 → UInt32) {decoder : FrameDecoder} (within : Within decoder) :
    nextFrame crc decoder = .ok (decoder.nextFrame crc) := by
  rw [nextFrame, sliceFrom_ok within, FrameDecoder.nextFrame, FrameDecoder.unread]
  change ((readFrame crc (decoder.buf.drop decoder.start)).run >>= fun _ => _) = _
  rw [readFrame_returns]
  cases EventStream.readFrame crc (decoder.buf.drop decoder.start) with
  | error error => rfl
  | ok read => cases read <;> rfl

theorem push_ok {decoder : FrameDecoder} (within : Within decoder) (bytes : List UInt8) :
    push decoder bytes = .ok (decoder.push bytes) := by
  rw [push, FrameDecoder.push, sliceFrom_ok within]
  split <;> rfl

theorem push_compact (decoder : FrameDecoder) (bytes : List UInt8) :
    2 * (decoder.push bytes).start ≤ (decoder.push bytes).buf.length := by
  unfold FrameDecoder.push
  split
  next => exact Nat.zero_le _
  next lazy =>
    rw [List.length_append]
    dsimp only
    omega

theorem nextFrame_within (crc : List UInt8 → UInt32) {decoder : FrameDecoder} (within : Within decoder) :
    Within (decoder.nextFrame crc).1 := by
  unfold FrameDecoder.nextFrame
  split
  next => exact within
  next => exact within
  next frame total read =>
    obtain ⟨-, enough, -⟩ := readFrame_item.1 read
    rw [FrameDecoder.unread, List.length_drop] at enough
    have within : decoder.start ≤ decoder.buf.length := within
    show decoder.start + total ≤ decoder.buf.length
    omega

theorem readFrame_none_length {crc : List UInt8 → UInt32} {data : List UInt8}
    (none : EventStream.readFrame crc data = .ok none) : data.length < maxFrameBytes := by
  unfold EventStream.readFrame at none
  by_cases short : data.length < preludeLen
  · exact lt_trans short (by decide)
  rw [if_neg short] at none
  cases checked : EventStream.checkPrelude crc (data.take preludeLen) with
  | error error =>
    rw [checked] at none
    cases none
  | ok lengths =>
    obtain ⟨-, bounded, -, -⟩ := checkPrelude_bounds checked
    by_cases missing : data.length < lengths.1
    · omega
    · rw [checked] at none
      simp only [bind, Except.bind, if_neg missing] at none
      cases body : EventStream.readBody crc (data.take lengths.1) lengths.2 <;> rw [body] at none <;> cases none

theorem nextFrame_none_pending {crc : List UInt8 → UInt32} {decoder after : FrameDecoder}
    (none : decoder.nextFrame crc = (after, .ok none)) : after.pending < maxFrameBytes := by
  unfold FrameDecoder.nextFrame at none
  split at none
  next => cases none
  next read =>
    cases none
    rw [FrameDecoder.pending_eq]
    exact readFrame_none_length read
  next => cases none

theorem drain_pending (crc : List UInt8 → UInt32) (decoder : FrameDecoder) :
    (∃ error, .error error ∈ (decoder.drain crc).2) ∨ (decoder.drain crc).1.pending < maxFrameBytes := by
  induction size : decoder.pending using Nat.strong_induction_on generalizing decoder with
  | _ size ih =>
    subst size
    rcases read : decoder.nextFrame crc with ⟨after, error | none | frame⟩
    · left
      rw [FrameDecoder.drain_error read]
      exact ⟨error, List.mem_cons_self⟩
    · right
      rw [FrameDecoder.drain_none read]
      exact nextFrame_none_pending read
    · rw [FrameDecoder.drain_frame read]
      obtain ⟨error, inside⟩ | less := ih after.pending (FrameDecoder.nextFrame_pending read) after rfl
      · exact .inl ⟨error, List.mem_cons_of_mem _ inside⟩
      · exact .inr less

theorem push_within (decoder : FrameDecoder) (bytes : List UInt8) : Within (decoder.push bytes) := by
  have compact := push_compact decoder bytes
  show (decoder.push bytes).start ≤ (decoder.push bytes).buf.length
  omega

theorem call_ok (crc : List UInt8 → UInt32) {decoder : FrameDecoder} (within : Within decoder) (input : Call) :
    call crc decoder input = .ok (decoder.call crc input) ∧ Within (decoder.call crc input).1 := by
  cases input with
  | push bytes =>
    refine ⟨?_, push_within decoder bytes⟩
    rw [call, push_ok within]
    rfl
  | nextFrame =>
    refine ⟨?_, nextFrame_within crc within⟩
    rw [call, nextFrame_ok crc within]
    rfl

theorem runAll_ok (crc : List UInt8 → UInt32) {decoder : FrameDecoder} (within : Within decoder) (calls : List Call) :
    runAll crc decoder calls = .ok (Emitter.runAll (FrameDecoder.call crc) decoder calls) ∧
      Within (Emitter.runAll (FrameDecoder.call crc) decoder calls).1 := by
  induction calls generalizing decoder with
  | nil => exact ⟨rfl, within⟩
  | cons input rest ih =>
    obtain ⟨now, stays⟩ := call_ok crc within input
    obtain ⟨later, ends⟩ := ih stays
    refine ⟨?_, ends⟩
    rw [runAll, now]
    change (runAll crc (decoder.call crc input).1 rest >>= fun _ => _) = _
    rw [later]
    rfl

end Panicking

/-- No run of calls panics. What has been consumed is in the buffer, and at most half of it after a push; what is
pending when there is no frame to read is less than the largest frame. -/
theorem decoder_safe (crc : List UInt8 → UInt32) (calls : List Call) :
    (∃ decoder results, Panicking.runAll crc .new calls = .ok (decoder, results) ∧
      decoder.start ≤ decoder.buf.length ∧
      (∀ bytes, ∃ pushed, Panicking.push decoder bytes = .ok pushed ∧ 2 * pushed.start ≤ pushed.buf.length) ∧
      (∀ bytes, (∃ error, .error error ∈ (decoder.feed crc bytes).2) ∨
        (decoder.feed crc bytes).1.pending < maxFrameBytes) ∧
      ∃ after result, Panicking.nextFrame crc decoder = .ok (after, result) ∧
        ∃ pending, Panicking.pending after = .ok pending ∧ (result = .ok none → pending < maxFrameBytes)) ∧
    ∀ data, (∃ result, Panicking.parseHeaders 0 [] data = returns result) ∧
      ∀ offset entry rest, Panicking.parseHeader offset data = returns (.ok (entry, rest)) →
        rest.length + 2 ≤ data.length := by
  constructor
  · have initial : Panicking.Within .new := Nat.le_refl 0
    obtain ⟨runs, within⟩ := Panicking.runAll_ok crc initial calls
    refine ⟨_, _, runs, within, ?_, ?_, ?_⟩
    · intro bytes
      exact ⟨_, Panicking.push_ok within bytes, Panicking.push_compact _ bytes⟩
    · intro bytes
      exact Panicking.drain_pending crc _
    · refine ⟨_, _, Panicking.nextFrame_ok crc within, _, sub_ok (Panicking.nextFrame_within crc within), ?_⟩
      intro none
      exact Panicking.nextFrame_none_pending (Prod.ext rfl none)
  · intro data
    exact ⟨⟨_, Panicking.parseHeaders_returns 0 [] data⟩, fun offset entry rest => Panicking.parseHeader_shorter⟩

end KiroTrust.EventStream
