import KiroTrust.Protocol.FrameChunking

set_option autoImplicit false

namespace KiroTrust.EventStream

open BigEndian

def valueBytes : HeaderValue → List UInt8
  | .bool true => [0]
  | .bool false => [1]
  | .byte value => [2, value.toUInt8]
  | .short value => 3 :: toBytes 2 value.toUInt16.toNat
  | .int value => 4 :: toBytes 4 value.toUInt32.toNat
  | .long value => 5 :: toBytes 8 value.toUInt64.toNat
  -- `as u16` keeps the low two bytes of the length.
  | .bytes value => 6 :: toBytes 2 value.length ++ value
  | .string value => 7 :: toBytes 2 value.byteLen ++ value.bytes
  | .timestamp value => 8 :: toBytes 8 value.toUInt64.toNat
  | .uuid value => 9 :: value.toList

def pushHeader (buf : List UInt8) (name : Str) (value : HeaderValue) : List UInt8 :=
  buf ++ UInt8.ofNat name.byteLen :: name.bytes ++ valueBytes value

def encodeFrame (crc : List UInt8 → UInt32) (headers payload : List UInt8) : List UInt8 :=
  let lengths := toBytes 4 (preludeLen + headers.length + payload.length + 4) ++ toBytes 4 headers.length
  let frame := lengths ++ toBytes 4 (crc lengths).toNat ++ headers ++ payload
  frame ++ toBytes 4 (crc frame).toNat

def pushHeaders (headers : List (Str × HeaderValue)) : List UInt8 :=
  headers.foldl (fun buf header => pushHeader buf header.1 header.2) []

def Frame.encode (crc : List UInt8 → UInt32) (frame : Frame) : List UInt8 :=
  encodeFrame crc (pushHeaders frame.headers) frame.payload

/-! The sizes within which the encoder's length fields hold what they should. -/

def HeaderValue.Fits : HeaderValue → Prop
  | .bytes value => value.length ≤ 65535
  | .string value => value.byteLen ≤ 65535
  | _ => True

instance : (value : HeaderValue) → Decidable value.Fits
  | .bytes value => inferInstanceAs (Decidable (value.length ≤ 65535))
  | .string value => inferInstanceAs (Decidable (value.byteLen ≤ 65535))
  | .bool _ | .byte _ | .short _ | .int _ | .long _ | .timestamp _ | .uuid _ =>
    inferInstanceAs (Decidable True)

def HeaderFits (header : Str × HeaderValue) : Prop := header.1.byteLen ≤ 255 ∧ header.2.Fits

instance (header : Str × HeaderValue) : Decidable (HeaderFits header) :=
  inferInstanceAs (Decidable (_ ∧ _))

structure Frame.Fits (frame : Frame) : Prop where
  each : ∀ header ∈ frame.headers, HeaderFits header
  block : (pushHeaders frame.headers).length ≤ maxHeadersBytes
  total : preludeLen + (pushHeaders frame.headers).length + frame.payload.length + 4 ≤ maxFrameBytes

/-! Headers: what `parse_headers` accepts is exactly what `push_header` writes. -/

theorem take_ok {offset count : Nat} {rest head tail : List UInt8} :
    take offset rest count = .ok (head, tail) ↔ rest = head ++ tail ∧ head.length = count := by
  unfold take
  by_cases short : rest.length < count
  · simp only [short, if_true, reduceCtorEq, false_iff]
    rintro ⟨rfl, rfl⟩
    simp at short
  · simp only [short, if_false, Except.ok.injEq, Prod.mk.injEq]
    constructor
    · rintro ⟨rfl, rfl⟩
      simp only [List.take_append_drop, List.length_take, true_and]
      omega
    · rintro ⟨rfl, rfl⟩
      simp

theorem take_append {offset count : Nat} {head : List UInt8} (tail : List UInt8)
    (length : head.length = count) : take offset (head ++ tail) count = .ok (head, tail) :=
  take_ok.2 ⟨rfl, length⟩

theorem take_toBytes (offset width value : Nat) (tail : List UInt8) :
    take offset (toBytes width value ++ tail) width = .ok (toBytes width value, tail) :=
  take_append tail (toBytes_length width value)

theorem bind_ok {A B : Type} {first : Except FrameError A} {rest : A → Except FrameError B} {result : B} :
    (first >>= rest) = .ok result ↔ ∃ value, first = .ok value ∧ rest value = .ok result := by
  cases first <;> simp [bind, Except.bind]

theorem bind_take {B : Type} {offset count : Nat} {rest : List UInt8}
    {next : List UInt8 × List UInt8 → Except FrameError B} {result : B}
    (read : (take offset rest count >>= next) = .ok result) :
    ∃ head tail, rest = head ++ tail ∧ head.length = count ∧ next (head, tail) = .ok result := by
  obtain ⟨⟨head, tail⟩, taken, later⟩ := bind_ok.1 read
  obtain ⟨whole, length⟩ := take_ok.1 taken
  exact ⟨head, tail, whole, length, later⟩

theorem toBytes_width {width : Nat} {bytes : List UInt8} (length : bytes.length = width) :
    toBytes width (ofBytes bytes) = bytes := by
  rw [← length, toBytes_ofBytes]

theorem ofBytes_width {width : Nat} {bytes : List UInt8} (length : bytes.length = width) :
    ofBytes bytes < 256 ^ width := by
  rw [← length]
  exact ofBytes_lt bytes

theorem uint16_ofBytes (value : UInt16) : UInt16.ofNat (ofBytes (toBytes 2 value.toNat)) = value := by
  rw [ofBytes_toBytes_of_lt value.toNat_lt, UInt16.ofNat_toNat]

theorem uint32_ofBytes (value : UInt32) : UInt32.ofNat (ofBytes (toBytes 4 value.toNat)) = value := by
  rw [ofBytes_toBytes_of_lt value.toNat_lt, UInt32.ofNat_toNat]

theorem uint64_ofBytes (value : UInt64) : UInt64.ofNat (ofBytes (toBytes 8 value.toNat)) = value := by
  rw [ofBytes_toBytes_of_lt value.toNat_lt, UInt64.ofNat_toNat]

theorem toBytes_uint16 {bytes : List UInt8} (length : bytes.length = 2) :
    toBytes 2 (UInt16.ofNat (ofBytes bytes)).toNat = bytes := by
  rw [UInt16.toNat_ofNat_of_lt' (ofBytes_width length), toBytes_width length]

theorem toBytes_uint32 {bytes : List UInt8} (length : bytes.length = 4) :
    toBytes 4 (UInt32.ofNat (ofBytes bytes)).toNat = bytes := by
  rw [UInt32.toNat_ofNat_of_lt' (ofBytes_width length), toBytes_width length]

theorem toBytes_uint64 {bytes : List UInt8} (length : bytes.length = 8) :
    toBytes 8 (UInt64.ofNat (ofBytes bytes)).toNat = bytes := by
  rw [UInt64.toNat_ofNat_of_lt' (ofBytes_width length), toBytes_width length]

theorem parseValue_complete (offset : Nat) (value : HeaderValue) (tail : List UInt8) (fits : value.Fits) :
    parseValue offset ((valueBytes value).headD 0).toNat ((valueBytes value).tail ++ tail) =
      .ok (value, tail) := by
  cases value with
  | bool value => cases value <;> rfl
  | byte value =>
    have read : take offset ([value.toUInt8] ++ tail) 1 = .ok ([value.toUInt8], tail) :=
      take_append tail rfl
    exact bind_ok.2 ⟨_, read, by simp [ofBytes]⟩
  | short value =>
    exact bind_ok.2 ⟨_, take_toBytes offset 2 _ tail, by simp only [uint16_ofBytes, Int16.toInt16_toUInt16]⟩
  | int value =>
    exact bind_ok.2 ⟨_, take_toBytes offset 4 _ tail, by simp only [uint32_ofBytes, Int32.toInt32_toUInt32]⟩
  | long value | timestamp value =>
    exact bind_ok.2 ⟨_, take_toBytes offset 8 _ tail, by simp only [uint64_ofBytes, Int64.toInt64_toUInt64]⟩
  | bytes value =>
    have same : ofBytes (toBytes 2 value.length) = value.length :=
      ofBytes_toBytes_of_lt (Nat.lt_succ_of_le fits)
    simp [valueBytes, parseValue, bind_ok, same, take_append]
  | string value =>
    have same : ofBytes (toBytes 2 value.byteLen) = value.byteLen :=
      ofBytes_toBytes_of_lt (Nat.lt_succ_of_le fits)
    have read : take offset (value.bytes ++ tail) value.byteLen = .ok (value.bytes, tail) :=
      take_append tail rfl
    simp [valueBytes, parseValue, take_toBytes, bind_ok, same, read, Str.fromUtf8_bytes]
  | uuid value =>
    have read : take offset (value.toList ++ tail) 16 = .ok (value.toList, tail) :=
      take_append tail value.length_toList
    simp [valueBytes, parseValue, bind_ok, read]

theorem parseValue_sound {offset : Nat} {kind : UInt8} {rest tail : List UInt8} {value : HeaderValue}
    (parsed : parseValue offset kind.toNat rest = .ok (value, tail)) :
    kind :: rest = valueBytes value ++ tail ∧ value.Fits := by
  have kindIs (number : UInt8) (same : kind.toNat = number.toNat) : kind = number :=
    UInt8.toNat_inj.1 same
  unfold parseValue at parsed
  split at parsed
  next same =>
    cases parsed
    simp [kindIs 0 same, valueBytes, HeaderValue.Fits]
  next same =>
    cases parsed
    simp [kindIs 1 same, valueBytes, HeaderValue.Fits]
  next same =>
    obtain ⟨head, back, rfl, width, built⟩ := bind_take parsed
    cases built
    obtain ⟨byte, rfl⟩ := List.length_eq_one_iff.1 width
    simp [kindIs 2 same, valueBytes, HeaderValue.Fits, ofBytes]
  next same =>
    obtain ⟨head, back, rfl, width, built⟩ := bind_take parsed
    cases built
    simp only [kindIs 3 same, valueBytes, HeaderValue.Fits, UInt16.toUInt16_toInt16, toBytes_uint16 width]
    trivial
  next same =>
    obtain ⟨head, back, rfl, width, built⟩ := bind_take parsed
    cases built
    simp only [kindIs 4 same, valueBytes, HeaderValue.Fits, UInt32.toUInt32_toInt32, toBytes_uint32 width]
    trivial
  next same =>
    obtain ⟨head, back, rfl, width, built⟩ := bind_take parsed
    cases built
    simp only [kindIs 5 same, valueBytes, HeaderValue.Fits, UInt64.toUInt64_toInt64, toBytes_uint64 width]
    trivial
  next same =>
    obtain ⟨head, back, rfl, width, built⟩ := bind_take parsed
    obtain ⟨bytes, after, rfl, length, builtBytes⟩ := bind_take built
    cases builtBytes
    have bound := ofBytes_width width
    simp only [kindIs 6 same, valueBytes, HeaderValue.Fits, length, toBytes_width width]
    exact ⟨by simp, by omega⟩
  next same =>
    obtain ⟨head, back, rfl, width, built⟩ := bind_take parsed
    obtain ⟨bytes, after, rfl, length, builtBytes⟩ := bind_take built
    simp only at builtBytes
    split at builtBytes
    next => cases builtBytes
    next text decoded =>
      cases builtBytes
      have bound := ofBytes_width width
      simp only [kindIs 7 same, valueBytes, HeaderValue.Fits, Str.byteLen, Str.bytes_fromUtf8 decoded,
        length, toBytes_width width]
      exact ⟨by simp, by omega⟩
  next same =>
    obtain ⟨head, back, rfl, width, built⟩ := bind_take parsed
    cases built
    simp only [kindIs 8 same, valueBytes, HeaderValue.Fits, UInt64.toUInt64_toInt64, toBytes_uint64 width]
    trivial
  next same =>
    obtain ⟨head, back, rfl, width, built⟩ := bind_take parsed
    cases built
    have whole : (Vector.ofFn fun index : Fin 16 => head.getD index 0).toList = head := by
      apply List.ext_getElem
      · simp [width]
      · intro index inside outside
        simp [outside]
    simp only [kindIs 9 same, valueBytes, HeaderValue.Fits, whole]
    trivial
  next => cases parsed

theorem pushHeader_eq (buf : List UInt8) (name : Str) (value : HeaderValue) :
    pushHeader buf name value = buf ++ pushHeader [] name value := by
  simp [pushHeader]

theorem valueBytes_eq (value : HeaderValue) :
    valueBytes value = (valueBytes value).headD 0 :: (valueBytes value).tail := by
  cases value with
  | bool value => cases value <;> rfl
  | _ => rfl

theorem parseHeader_shape (offset : Nat) {nameLen kind : UInt8} {name after : List UInt8}
    (length : name.length = nameLen.toNat) :
    parseHeader offset (nameLen :: (name ++ kind :: after)) =
      (match Str.fromUtf8 name with
      | none => .error (.badHeader offset)
      | some text => (do
        let (value, rest) ← parseValue offset kind.toNat after
        .ok ((text, value), rest))) := by
  have whole : ¬ (nameLen :: (name ++ kind :: after)).length < 1 + nameLen.toNat + 1 := by
    simp only [List.length_cons, List.length_append]
    omega
  have nameSlice : slice (nameLen :: (name ++ kind :: after)) 1 (1 + nameLen.toNat) = name := by
    simp [slice, ← length]
  have kindByte : (nameLen :: (name ++ kind :: after)).getD (1 + nameLen.toNat) 0 = kind := by
    simp [← length, Nat.add_comm 1]
  have tail : (nameLen :: (name ++ kind :: after)).drop (2 + nameLen.toNat) = after := by
    simp [← length, Nat.add_comm 2]
  cases text : Str.fromUtf8 name <;>
    simp only [parseHeader, List.headD_cons, whole, if_false, nameSlice, kindByte, tail, text]

theorem parseHeader_complete (offset : Nat) (header : Str × HeaderValue) (rest : List UInt8)
    (fits : HeaderFits header) :
    parseHeader offset (pushHeader [] header.1 header.2 ++ rest) = .ok (header, rest) := by
  obtain ⟨name, value⟩ := header
  obtain ⟨nameFits, valueFits⟩ := fits
  have nameLen : (UInt8.ofNat name.byteLen).toNat = name.byteLen :=
    UInt8.toNat_ofNat_of_lt' (Nat.lt_succ_of_le nameFits)
  have parsed := parseValue_complete offset value rest valueFits
  rw [pushHeader, valueBytes_eq, List.nil_append, List.cons_append, List.cons_append, List.append_assoc,
    List.cons_append, parseHeader_shape offset (by rw [nameLen]; rfl), Str.fromUtf8_bytes]
  exact bind_ok.2 ⟨_, parsed, rfl⟩

theorem parseHeader_sound {offset : Nat} {data rest : List UInt8} {header : Str × HeaderValue}
    (nonempty : data ≠ []) (parsed : parseHeader offset data = .ok (header, rest)) :
    data = pushHeader [] header.1 header.2 ++ rest ∧ HeaderFits header := by
  obtain ⟨first, body, rfl⟩ := List.exists_cons_of_ne_nil nonempty
  have long : first.toNat < body.length := by
    by_contra short
    have cut : (first :: body).length < 1 + first.toNat + 1 := by
      simp only [List.length_cons]
      omega
    simp only [parseHeader, List.headD_cons, cut, if_true] at parsed
    cases parsed
  -- The bytes split where `name_len` says.
  obtain ⟨name, kind, after, rfl, length⟩ :
      ∃ name kind after, body = name ++ kind :: after ∧ name.length = first.toNat := by
    refine ⟨body.take first.toNat, body[first.toNat], body.drop (first.toNat + 1), ?_, ?_⟩
    · rw [List.getElem_cons_drop, List.take_append_drop]
    · simp
      omega
  rw [parseHeader_shape offset length] at parsed
  split at parsed
  next => cases parsed
  next text decoded =>
    obtain ⟨⟨value, back⟩, readValue, built⟩ := bind_ok.1 parsed
    cases built
    obtain ⟨valueIs, valueFits⟩ := parseValue_sound readValue
    have nameIs := Str.bytes_fromUtf8 decoded
    have lengthIs : text.byteLen = first.toNat := by rw [Str.byteLen, nameIs, length]
    have small : text.byteLen ≤ 255 := by
      have byte := first.toNat_lt
      omega
    refine ⟨?_, small, valueFits⟩
    rw [pushHeader, valueIs, nameIs, lengthIs, UInt8.ofNat_toNat]
    simp

theorem pushHeaders_cons (header : Str × HeaderValue) (rest : List (Str × HeaderValue)) :
    pushHeaders (header :: rest) = pushHeader [] header.1 header.2 ++ pushHeaders rest := by
  -- The fold appends, whatever the buffer holds.
  have shift (headers : List (Str × HeaderValue)) (buf : List UInt8) :
      headers.foldl (fun buf header => pushHeader buf header.1 header.2) buf =
        buf ++ headers.foldl (fun buf header => pushHeader buf header.1 header.2) [] := by
    induction headers generalizing buf with
    | nil => simp
    | cons first later ih => rw [List.foldl_cons, List.foldl_cons, ih, ih (pushHeader [] _ _), pushHeader_eq,
        List.append_assoc]
  rw [pushHeaders, List.foldl_cons, shift]
  rfl

theorem parseHeaders_complete (offset : Nat) (headers : List (Str × HeaderValue))
    (fits : ∀ header ∈ headers, HeaderFits header) :
    parseHeaders offset (pushHeaders headers) = .ok headers := by
  induction headers generalizing offset with
  | nil => rw [parseHeaders]; rfl
  | cons header rest ih =>
    have first := parseHeader_complete offset header (pushHeaders rest) (fits header (by simp))
    have nonempty : pushHeader [] header.1 header.2 ++ pushHeaders rest ≠ [] := by simp [pushHeader]
    have later (offset : Nat) := ih offset fun other inside => fits other (by simp [inside])
    rw [pushHeaders_cons, parseHeaders, if_neg nonempty]
    split <;> simp_all [bind, Except.bind]

theorem parseHeaders_sound {offset : Nat} {data : List UInt8} {headers : List (Str × HeaderValue)}
    (parsed : parseHeaders offset data = .ok headers) :
    data = pushHeaders headers ∧ ∀ header ∈ headers, HeaderFits header := by
  fun_induction parseHeaders offset data generalizing headers with
  | case1 offset => cases parsed; simp [pushHeaders]
  | case2 offset data nonempty error found => cases parsed
  | case3 offset data nonempty header rest found ih =>
    obtain ⟨more, later, built⟩ := bind_ok.1 parsed
    cases built
    obtain ⟨dataIs, headerFits⟩ := parseHeader_sound nonempty found
    obtain ⟨restIs, restFits⟩ := ih later
    rw [pushHeaders_cons, ← restIs]
    simp_all

theorem slice_part {front part : List UInt8} (back : List UInt8) {first last : Nat}
    (start : front.length = first) (stop : first + part.length = last) :
    slice (front ++ (part ++ back)) first last = part := by
  subst start stop
  simp [slice]

theorem exists_split {data : List UInt8} {count : Nat} (inside : count ≤ data.length) :
    ∃ head tail, data = head ++ tail ∧ head.length = count := by
  refine ⟨data.take count, data.drop count, (List.take_append_drop _ _).symm, ?_⟩
  rw [List.length_take]
  omega

theorem checkPrelude_shape {crc : List UInt8 → UInt32} {total headers sum : List UInt8} {totalLen headersLen : Nat}
    (totalFour : total.length = 4) (headersFour : headers.length = 4) (sumFour : sum.length = 4) :
    checkPrelude crc (total ++ (headers ++ sum)) = .ok (totalLen, headersLen) ↔
      total = toBytes 4 totalLen ∧ headers = toBytes 4 headersLen ∧
        sum = toBytes 4 (crc (total ++ headers)).toNat ∧ headersLen + minFrameLen ≤ totalLen ∧
        totalLen ≤ maxFrameBytes ∧ headersLen ≤ maxHeadersBytes := by
  have totalSlice : slice ([] ++ (total ++ (headers ++ sum))) 0 4 = total :=
    slice_part _ rfl (by omega)
  have headersSlice : slice (total ++ (headers ++ sum)) 4 8 = headers :=
    slice_part _ totalFour (by omega)
  have sumSlice : slice ((total ++ headers) ++ (sum ++ [])) 8 12 = sum :=
    slice_part _ (by simp; omega) (by omega)
  have checked : slice ([] ++ ((total ++ headers) ++ sum)) 0 8 = total ++ headers :=
    slice_part _ rfl (by simp; omega)
  simp only [List.nil_append, List.append_nil, List.append_assoc] at totalSlice sumSlice checked
  simp only [checkPrelude, u32At, totalSlice, headersSlice, sumSlice, checked, minFrameLen, preludeLen]
  constructor
  · intro accepted
    split_ifs at accepted with crcBad small large overrun long
    cases accepted
    simp only [ne_eq, not_not] at crcBad
    refine ⟨(toBytes_width totalFour).symm, (toBytes_width headersFour).symm, ?_, by omega, by omega, by omega⟩
    rw [crcBad, toBytes_uint32 sumFour]
  · rintro ⟨totalIs, headersIs, sumIs, fits, small, short⟩
    have totalValue : ofBytes total = totalLen := by
      rw [totalIs, ofBytes_toBytes_of_lt]
      simp only [maxFrameBytes] at small
      omega
    have headersValue : ofBytes headers = headersLen := by
      rw [headersIs, ofBytes_toBytes_of_lt]
      simp only [maxHeadersBytes] at short
      omega
    rw [totalValue, headersValue, sumIs, uint32_ofBytes, if_neg (by simp), if_neg (by omega),
      if_neg (by omega), if_neg (by omega), if_neg (by omega)]

theorem readBody_shape {crc : List UInt8 → UInt32} {front headers payload sum : List UInt8} {frame : Frame}
    (frontTwelve : front.length = preludeLen) (sumFour : sum.length = 4) :
    readBody crc (front ++ (headers ++ (payload ++ sum))) headers.length = .ok frame ↔
      sum = toBytes 4 (crc (front ++ (headers ++ payload))).toNat ∧ headers = pushHeaders frame.headers ∧
        (∀ header ∈ frame.headers, HeaderFits header) ∧ frame.payload = payload := by
  have total : (front ++ (headers ++ (payload ++ sum))).length =
      preludeLen + headers.length + payload.length + 4 := by
    simp only [List.length_append]
    omega
  have sumSlice : slice ((front ++ headers ++ payload) ++ (sum ++ []))
      (preludeLen + headers.length + payload.length) (preludeLen + headers.length + payload.length + 4) = sum :=
    slice_part _ (by simp; omega) (by omega)
  have checked : slice ([] ++ ((front ++ headers ++ payload) ++ sum)) 0
      (preludeLen + headers.length + payload.length) = front ++ headers ++ payload :=
    slice_part _ rfl (by simp; omega)
  have headersSlice : slice (front ++ (headers ++ (payload ++ sum))) preludeLen (preludeLen + headers.length) = headers :=
    slice_part _ frontTwelve rfl
  have payloadSlice : slice ((front ++ headers) ++ (payload ++ sum)) (preludeLen + headers.length)
      (preludeLen + headers.length + payload.length) = payload :=
    slice_part _ (by simp; omega) rfl
  simp only [List.nil_append, List.append_nil, List.append_assoc] at sumSlice checked payloadSlice
  simp only [readBody, total, u32At, Nat.add_sub_cancel, sumSlice, checked, headersSlice, payloadSlice]
  constructor
  · intro read
    split_ifs at read with crcBad
    obtain ⟨parsed, headersOk, built⟩ := bind_ok.1 read
    cases built
    obtain ⟨headersIs, fits⟩ := parseHeaders_sound headersOk
    simp only [ne_eq, not_not] at crcBad
    refine ⟨?_, headersIs, fits, rfl⟩
    rw [crcBad, toBytes_uint32 sumFour]
  · rintro ⟨sumIs, headersIs, fits, payloadIs⟩
    have parsed := parseHeaders_complete 0 frame.headers fits
    rw [← headersIs] at parsed
    rw [sumIs, uint32_ofBytes, if_neg (by simp), parsed, ← payloadIs]
    rfl

theorem encode_length (crc : List UInt8 → UInt32) (frame : Frame) :
    (frame.encode crc).length = preludeLen + (pushHeaders frame.headers).length + frame.payload.length + 4 := by
  simp only [Frame.encode, encodeFrame, List.length_append, toBytes_length, preludeLen]

theorem readFrame_complete {crc : List UInt8 → UInt32} {frame : Frame} (fits : frame.Fits)
    (rest : List UInt8) :
    readFrame crc (frame.encode crc ++ rest) = .ok (some (frame, (frame.encode crc).length)) := by
  have length := encode_length crc frame
  have fitsTotal := fits.total
  let lengths := toBytes 4 (preludeLen + (pushHeaders frame.headers).length + frame.payload.length + 4) ++
    toBytes 4 (pushHeaders frame.headers).length
  let front := lengths ++ toBytes 4 (crc lengths).toNat
  let frameSum := toBytes 4 (crc (front ++ (pushHeaders frame.headers ++ frame.payload))).toNat
  -- The prelude, the headers, the payload and the sum over all of them.
  have layout : frame.encode crc = front ++ (pushHeaders frame.headers ++ (frame.payload ++ frameSum)) := by
    simp only [Frame.encode, encodeFrame, front, lengths, frameSum, List.append_assoc]
  have frontTwelve : front.length = preludeLen := by
    simp [front, lengths, preludeLen]
  rw [readFrame_item]
  refine ⟨by simp only [List.length_append]; omega, by simp, (pushHeaders frame.headers).length, ?_, ?_⟩
  · have prelude : (frame.encode crc ++ rest).take preludeLen = front := by
      rw [layout, List.append_assoc, ← frontTwelve, List.take_left]
    rw [prelude]
    simp only [front, lengths, List.append_assoc]
    rw [checkPrelude_shape (toBytes_length 4 _) (toBytes_length 4 _) (toBytes_length 4 _), length]
    exact ⟨rfl, rfl, rfl, by simp only [minFrameLen, preludeLen]; omega, fitsTotal, fits.block⟩
  · rw [List.take_left, layout, readBody_shape frontTwelve (toBytes_length 4 _)]
    exact ⟨rfl, rfl, fits.each, rfl⟩

theorem readFrame_sound {crc : List UInt8 → UInt32} {data : List UInt8} {frame : Frame} {total : Nat}
    (read : readFrame crc data = .ok (some (frame, total))) :
    frame.Fits ∧ data.take total = frame.encode crc ∧ total = (frame.encode crc).length := by
  obtain ⟨prelude, whole, headersLen, checked, body⟩ := readFrame_item.1 read
  have bounds := checkPrelude_bounds checked
  simp only [minFrameLen, preludeLen] at bounds prelude
  -- Cut the data into the six parts of the layout.
  obtain ⟨front, data, rfl, frontTwelve⟩ := exists_split prelude
  simp only [List.length_append] at whole
  obtain ⟨headers, data, rfl, headersLength⟩ := exists_split (show headersLen ≤ data.length by omega)
  simp only [List.length_append] at whole
  obtain ⟨payload, data, rfl, payloadLength⟩ :=
    exists_split (show total - 16 - headersLen ≤ data.length by omega)
  simp only [List.length_append] at whole
  obtain ⟨sum, rest, rfl, sumFour⟩ := exists_split (show 4 ≤ data.length by omega)
  obtain ⟨totalBytes, lengths, rfl, totalFour⟩ := exists_split (show 4 ≤ front.length by omega)
  simp only [List.length_append] at frontTwelve
  obtain ⟨headersBytes, preludeSum, rfl, headersFour⟩ := exists_split (show 4 ≤ lengths.length by omega)
  simp only [List.length_append] at frontTwelve
  subst headersLength
  have cut : (totalBytes ++ (headersBytes ++ preludeSum) ++ (headers ++ (payload ++ (sum ++ rest)))).take total =
      totalBytes ++ (headersBytes ++ preludeSum) ++ (headers ++ (payload ++ sum)) := by
    rw [← List.append_assoc payload, ← List.append_assoc headers, ← List.append_assoc (_ ++ (_ ++ _))]
    apply List.take_left'
    simp only [List.length_append]
    omega
  have front : (totalBytes ++ (headersBytes ++ preludeSum)).length = preludeLen := by
    simp only [List.length_append, preludeLen]
    omega
  rw [List.take_left' front, checkPrelude_shape totalFour headersFour (by omega)] at checked
  rw [cut, readBody_shape front sumFour] at body
  obtain ⟨totalIs, headersLenIs, preludeSumIs, _, small, short⟩ := checked
  obtain ⟨sumIs, headersIs, each, payloadIs⟩ := body
  have totalLength : preludeLen + headers.length + payload.length + 4 = total := by
    simp only [preludeLen]
    omega
  simp only [List.append_assoc] at sumIs
  have encoded : totalBytes ++ (headersBytes ++ preludeSum) ++ (headers ++ (payload ++ sum)) = frame.encode crc := by
    rw [Frame.encode, encodeFrame, ← headersIs, payloadIs, totalLength, ← totalIs, ← headersLenIs]
    simp only [← preludeSumIs, List.append_assoc, ← sumIs]
  refine ⟨⟨each, by rwa [← headersIs], by rwa [← headersIs, payloadIs, totalLength]⟩, ?_, ?_⟩
  · rw [cut, encoded]
  · rw [encode_length, ← headersIs, payloadIs, totalLength]

theorem drain_complete (crc : List UInt8 → UInt32) (frames : List Frame)
    (fits : ∀ frame ∈ frames, frame.Fits) :
    (frameReader crc).drain () (frames.flatMap (Frame.encode crc)) = (⟨(), [], none⟩, frames) := by
  induction frames with
  | nil =>
    have more : (frameReader crc).next () [] = .more := rfl
    exact Chunked.Decoder.drain_more more
  | cons frame rest ih =>
    have frameFits : frame.Fits := fits frame (by simp)
    have read : readFrame crc (frame.encode crc ++ rest.flatMap (Frame.encode crc)) =
        .ok (some (frame, (frame.encode crc).length)) := readFrame_complete frameFits _
    have found : (frameReader crc).next () ((frame :: rest).flatMap (Frame.encode crc)) =
        .item frame (frame.encode crc).length () := by
      simp only [frameReader, readNext_item, List.flatMap_cons, read]
    have later := ih fun other inside => fits other (by simp [inside])
    rw [Chunked.Decoder.drain_item found, List.flatMap_cons, List.drop_left, later]

theorem drain_sound (crc : List UInt8 → UInt32) (mode : Unit) (data : List UInt8) :
    ((frameReader crc).drain mode data).2.flatMap (Frame.encode crc) ++
      ((frameReader crc).drain mode data).1.rest = data := by
  induction mode, data using (frameReader crc).drain_induction with
  | more mode data found => simp [Chunked.Decoder.drain_more found]
  | fail mode data error found => simp [Chunked.Decoder.drain_fail found]
  | item mode data frame size after found ih =>
    have read : readFrame crc data = .ok (some (frame, size)) := readNext_item.1 found
    obtain ⟨_, consumed, _⟩ := readFrame_sound read
    rw [Chunked.Decoder.drain_item found, List.flatMap_cons, List.append_assoc, ih, ← consumed,
      List.take_append_drop]

def FrameDecoder.consumed (decoder : FrameDecoder) (pushed : List UInt8) : List UInt8 :=
  pushed.take (pushed.length - decoder.pending)

theorem FrameDecoder.reencode_yielded (crc : List UInt8 → UInt32) (chunks : List (List UInt8)) :
    let run := Emitter.runAll (feed crc) new chunks
    (yielded run.2).flatMap (Frame.encode crc) = run.1.consumed chunks.flatten := by
  obtain ⟨unread, frames, _⟩ := runAll_feed_new crc chunks
  have parts := drain_sound crc () chunks.flatten
  simp only [frames, consumed, pending_eq, unread]
  generalize (frameReader crc).drain () chunks.flatten = whole at parts
  rw [← parts]
  simp

theorem codec_round_trip (crc : List UInt8 → UInt32) :
    (∀ (frames : List Frame) (chunks : List (List UInt8)),
      (∀ frame ∈ frames, frame.Fits) → chunks.flatten = frames.flatMap (Frame.encode crc) →
        let run := Emitter.runAll (FrameDecoder.feed crc) FrameDecoder.new chunks
        FrameDecoder.yielded run.2 = frames ∧ FrameDecoder.firstError run.2 = none ∧ run.1.pending = 0) ∧
    (∀ chunks : List (List UInt8),
      let run := Emitter.runAll (FrameDecoder.feed crc) FrameDecoder.new chunks
      (FrameDecoder.yielded run.2).flatMap (Frame.encode crc) = run.1.consumed chunks.flatten) ∧
    ∀ left right : List (List UInt8),
      let leftRun := Emitter.runAll (FrameDecoder.feed crc) FrameDecoder.new left
      let rightRun := Emitter.runAll (FrameDecoder.feed crc) FrameDecoder.new right
      FrameDecoder.yielded leftRun.2 = FrameDecoder.yielded rightRun.2 →
        leftRun.1.consumed left.flatten = rightRun.1.consumed right.flatten := by
  refine ⟨?_, FrameDecoder.reencode_yielded crc, ?_⟩
  · intro frames chunks fits encoded
    -- However the frames are cut, the decoder reads what it would read in one piece.
    have followed := FrameDecoder.runAll_feed_new crc chunks
    rw [encoded, drain_complete crc frames fits] at followed
    refine ⟨followed.2.1, followed.2.2, ?_⟩
    rw [FrameDecoder.pending_eq, followed.1]
    rfl
  · intro left right leftRun rightRun same
    rw [← FrameDecoder.reencode_yielded crc left, ← FrameDecoder.reencode_yielded crc right, same]

def crc32Bit (crc : UInt32) : UInt32 :=
  if crc &&& 1 = 1 then (crc >>> 1) ^^^ 0xEDB88320 else crc >>> 1

/-- The IEEE CRC-32, bit by bit. -/
def crc32 (bytes : List UInt8) : UInt32 :=
  bytes.foldl (fun crc byte => Nat.iterate crc32Bit 8 (crc ^^^ byte.toUInt32)) 0xFFFFFFFF ^^^ 0xFFFFFFFF

example : crc32 (Str.bytes "123456789".toList) = 0xCBF43926 := by decide +kernel

def sampleFrame : Frame :=
  ⟨[(":event-type".toList, .string "x".toList), ("n".toList, .short (-2))], [0x7b, 0x7d]⟩

theorem sampleFrame_fits : sampleFrame.Fits := by
  constructor <;> decide

theorem codec_round_trip_sample :
    let run := Emitter.runAll (FrameDecoder.feed crc32) FrameDecoder.new
      [(sampleFrame.encode crc32).take 5, (sampleFrame.encode crc32).drop 5]
    FrameDecoder.yielded run.2 = [sampleFrame] ∧ FrameDecoder.firstError run.2 = none ∧ run.1.pending = 0 :=
  (codec_round_trip crc32).1 [sampleFrame] _ (by simpa using sampleFrame_fits) (by simp)

end KiroTrust.EventStream
