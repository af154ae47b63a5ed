import KiroTrust.Protocol.FrameDecoder

set_option autoImplicit false

namespace KiroTrust.EventStream

/-! `FrameDecoder` reads the same frames however its input is cut. -/

section Reader

variable {crc : List UInt8 → UInt32}

def readNext (crc : List UInt8 → UInt32) (_ : Unit) (data : List UInt8) : Chunked.Step Unit Frame FrameError :=
  match readFrame crc data with
  | .error error => .fail error
  | .ok none => .more
  | .ok (some (frame, total)) => .item frame total ()

theorem readNext_item {data : List UInt8} {frame : Frame} {total : Nat} :
    readNext crc () data = .item frame total () ↔ readFrame crc data = .ok (some (frame, total)) := by
  unfold readNext
  split <;> simp_all

theorem readNext_fail {data : List UInt8} {error : FrameError} :
    readNext crc () data = .fail error ↔ readFrame crc data = .error error := by
  unfold readNext
  split <;> simp_all

theorem readNext_pos {mode : Unit} {data : List UInt8} {frame : Frame} {size : Nat} {after : Unit}
    (found : readNext crc mode data = .item frame size after) : 0 < size := by
  obtain ⟨_, _, headersLen, checked, _⟩ := readFrame_item.1 (readNext_item.1 found)
  have bounds := checkPrelude_bounds checked
  simp only [minFrameLen] at bounds
  omega

theorem readNext_le {mode : Unit} {data : List UInt8} {frame : Frame} {size : Nat} {after : Unit}
    (found : readNext crc mode data = .item frame size after) : size ≤ data.length :=
  (readFrame_item.1 (readNext_item.1 found)).2.1

theorem readNext_append {mode : Unit} {data : List UInt8} {frame : Frame} {size : Nat} {after : Unit}
    (later : List UInt8) (found : readNext crc mode data = .item frame size after) :
    readNext crc mode (data ++ later) = .item frame size after := by
  obtain ⟨prelude, whole, headersLen, checked, body⟩ := readFrame_item.1 (readNext_item.1 found)
  rw [readNext_item, readFrame_item, List.take_append_of_le_length prelude,
    List.take_append_of_le_length whole, List.length_append]
  exact ⟨by omega, by omega, headersLen, checked, body⟩

theorem readNext_fail_append {mode : Unit} {data : List UInt8} {error : FrameError} (later : List UInt8)
    (found : readNext crc mode data = .fail error) : readNext crc mode (data ++ later) = .fail error := by
  obtain ⟨prelude, cause⟩ := readFrame_error.1 (readNext_fail.1 found)
  rw [readNext_fail, readFrame_error, List.take_append_of_le_length prelude, List.length_append]
  refine ⟨by omega, ?_⟩
  cases cause with
  | inl checked => exact .inl checked
  | inr cause =>
    obtain ⟨total, headersLen, checked, whole, body⟩ := cause
    have sameBody : (data ++ later).take total = data.take total := List.take_append_of_le_length whole
    exact .inr ⟨total, headersLen, checked, by omega, by rwa [sameBody]⟩

/-- The decoder under `FrameDecoder`, which works on the unread bytes alone. -/
def frameReader (crc : List UInt8 → UInt32) : Chunked.Decoder Unit UInt8 Frame FrameError where
  next := readNext crc
  item_pos := @readNext_pos crc
  item_le := @readNext_le crc
  item_append := @readNext_append crc
  fail_append := @readNext_fail_append crc

end Reader

theorem nextFrame_more {crc : List UInt8 → UInt32} {decoder : FrameDecoder}
    (found : (frameReader crc).next () decoder.unread = .more) :
    decoder.nextFrame crc = (decoder, .ok none) := by
  simp only [frameReader, readNext] at found
  split at found <;> cases found
  next read => simp [FrameDecoder.nextFrame, read]

theorem nextFrame_fail {crc : List UInt8 → UInt32} {decoder : FrameDecoder} {error : FrameError} :
    (frameReader crc).next () decoder.unread = .fail error ↔
      decoder.nextFrame crc = (decoder, .error error) := by
  simp only [frameReader, readNext_fail, FrameDecoder.nextFrame]
  split <;> simp_all

theorem nextFrame_item {crc : List UInt8 → UInt32} {decoder : FrameDecoder} {frame : Frame} {total : Nat}
    (found : (frameReader crc).next () decoder.unread = .item frame total ()) :
    decoder.nextFrame crc = ({ decoder with start := decoder.start + total }, .ok (some frame)) := by
  have read : readFrame crc decoder.unread = .ok (some (frame, total)) := readNext_item.1 found
  simp [FrameDecoder.nextFrame, read]

theorem nextFrame_unread {crc : List UInt8 → UInt32} {decoder after : FrameDecoder} {frame : Frame}
    (read : decoder.nextFrame crc = (after, .ok (some frame))) :
    ∃ total, (frameReader crc).next () decoder.unread = .item frame total () ∧
      after.unread = decoder.unread.drop total := by
  unfold FrameDecoder.nextFrame at read
  split at read <;> cases read
  next total found =>
    have step : (frameReader crc).next () decoder.unread = .item frame total () := by
      simp only [frameReader, readNext_item, found]
    exact ⟨total, step, by simp [FrameDecoder.unread]⟩

namespace FrameDecoder

variable {crc : List UInt8 → UInt32}

theorem nextFrame_pending {decoder after : FrameDecoder} {frame : Frame}
    (read : decoder.nextFrame crc = (after, .ok (some frame))) : after.pending < decoder.pending := by
  obtain ⟨total, found, unread⟩ := nextFrame_unread read
  have positive := (frameReader crc).item_pos found
  have bounded := (frameReader crc).item_le found
  rw [pending_eq, pending_eq, unread, List.length_drop]
  omega

/-- The callers' loop: `next_frame` until it returns `None` or an error. -/
def drain (crc : List UInt8 → UInt32) (decoder : FrameDecoder) :
    FrameDecoder × List (Except FrameError Frame) :=
  match _read : decoder.nextFrame crc with
  | (after, .error error) => (after, [.error error])
  | (after, .ok none) => (after, [])
  | (after, .ok (some frame)) =>
    let later := drain crc after
    (later.1, .ok frame :: later.2)
termination_by decoder.pending
decreasing_by exact nextFrame_pending _read

theorem drain_none {decoder after : FrameDecoder} (read : decoder.nextFrame crc = (after, .ok none)) :
    decoder.drain crc = (after, []) := by
  rw [drain]
  split <;> simp_all

theorem drain_error {decoder after : FrameDecoder} {error : FrameError}
    (read : decoder.nextFrame crc = (after, .error error)) : decoder.drain crc = (after, [.error error]) := by
  rw [drain]
  split <;> simp_all

theorem drain_frame {decoder after : FrameDecoder} {frame : Frame}
    (read : decoder.nextFrame crc = (after, .ok (some frame))) :
    decoder.drain crc = ((after.drain crc).1, .ok frame :: (after.drain crc).2) := by
  rw [drain]
  split <;> simp_all

def feed (crc : List UInt8 → UInt32) (decoder : FrameDecoder) (chunk : List UInt8) :
    FrameDecoder × List (Except FrameError Frame) :=
  (decoder.push chunk).drain crc

def yielded (results : List (Except FrameError Frame)) : List Frame :=
  results.filterMap Except.toOption

def firstError (results : List (Except FrameError Frame)) : Option FrameError :=
  results.findSome? fun
    | .error error => some error
    | .ok _ => none

def results (frames : List Frame) (error : Option FrameError) : List (Except FrameError Frame) :=
  frames.map .ok ++ error.toList.map .error

@[simp] theorem yielded_append (left right : List (Except FrameError Frame)) :
    yielded (left ++ right) = yielded left ++ yielded right := by
  simp [yielded]

@[simp] theorem yielded_results (frames : List Frame) (error : Option FrameError) :
    yielded (results frames error) = frames := by
  cases error <;> simp [yielded, results, Except.toOption, List.filterMap_map, Function.comp_def]

@[simp] theorem firstError_append (left right : List (Except FrameError Frame)) :
    firstError (left ++ right) = (firstError left).or (firstError right) := by
  simp [firstError, List.findSome?_append]

@[simp] theorem firstError_results (frames : List Frame) (error : Option FrameError) :
    firstError (results frames error) = error := by
  have noError : (frames.map Except.ok).findSome? (fun result : Except FrameError Frame =>
      match result with
      | .error error => some error
      | .ok _ => none) = none := by
    simp
  cases error <;> simp [firstError, results, List.findSome?_append, noError]

variable (crc)

theorem drain_correct (decoder : FrameDecoder) :
    (decoder.drain crc).1.unread = ((frameReader crc).drain () decoder.unread).1.rest ∧
      (decoder.drain crc).2 = results ((frameReader crc).drain () decoder.unread).2
        ((frameReader crc).drain () decoder.unread).1.error := by
  induction length : decoder.pending using Nat.strongRecOn generalizing decoder with
  | _ pending ih =>
    subst length
    cases found : (frameReader crc).next () decoder.unread with
    | more =>
      rw [Chunked.Decoder.drain_more found, drain_none (nextFrame_more found)]
      exact ⟨rfl, rfl⟩
    | fail error =>
      rw [Chunked.Decoder.drain_fail found, drain_error (nextFrame_fail.1 found)]
      exact ⟨rfl, rfl⟩
    | item frame total =>
      have read := nextFrame_item found
      have later := ih _ (nextFrame_pending read) _ rfl
      have unread : ({ decoder with start := decoder.start + total } : FrameDecoder).unread =
          decoder.unread.drop total := by
        simp [FrameDecoder.unread]
      rw [unread] at later
      rw [Chunked.Decoder.drain_item found, drain_frame read]
      simp [later, results]

theorem feed_correct (decoder : FrameDecoder) (chunk : List UInt8) :
    (decoder.feed crc chunk).1.unread =
        ((frameReader crc).drain () (decoder.unread ++ chunk)).1.rest ∧
      (decoder.feed crc chunk).2 = results ((frameReader crc).drain () (decoder.unread ++ chunk)).2
        ((frameReader crc).drain () (decoder.unread ++ chunk)).1.error := by
  have drained := drain_correct crc (decoder.push chunk)
  rwa [unread_push] at drained

theorem runAll_feed_correct (decoder : FrameDecoder) (position : Chunked.Position Unit UInt8 FrameError)
    (settled : (frameReader crc).Settled position) (same : decoder.unread = position.rest)
    (chunks : List (List UInt8)) :
    let run := Emitter.runAll (feed crc) decoder chunks
    let reader := Emitter.runAll (frameReader crc).feed position chunks
    run.1.unread = reader.1.rest ∧ yielded run.2 = reader.2 ∧
      position.error.or (firstError run.2) = reader.1.error := by
  induction chunks generalizing decoder position with
  | nil => simpa [yielded, firstError] using same
  | cons chunk rest ih =>
    have first := feed_correct crc decoder chunk
    rw [same] at first
    have settles := (frameReader crc).feed_additive.settles position chunk settled
    have later := ih (decoder.feed crc chunk).1 ((frameReader crc).feed position chunk).1 settles first.1
    simp only [Emitter.runAll_cons, yielded_append, firstError_append, first.2, yielded_results,
      firstError_results]
    refine ⟨later.1, ?_, ?_⟩
    · rw [later.2.1]
      rfl
    · cases failed : position.error with
      | none => exact later.2.2
      | some error =>
        -- The first error stays the first one.
        have kept := Chunked.Decoder.runAll_feed_failed settled failed (chunk :: rest)
        simpa only [Emitter.runAll_cons, Option.some_or] using kept.symm

theorem new_settled : (frameReader crc).Settled ⟨(), [], none⟩ := by
  have more : (frameReader crc).next () [] = .more := rfl
  exact Chunked.Decoder.drain_more more

theorem runAll_feed_new (crc : List UInt8 → UInt32) (chunks : List (List UInt8)) :
    let run := Emitter.runAll (feed crc) new chunks
    let whole := (frameReader crc).drain () chunks.flatten
    run.1.unread = whole.1.rest ∧ yielded run.2 = whole.2 ∧ firstError run.2 = whole.1.error := by
  have followed := runAll_feed_correct crc new _ (new_settled crc) rfl chunks
  rwa [(frameReader crc).feed_additive.runAll_flatten _ (new_settled crc)] at followed

end FrameDecoder

inductive Call where
  | push (bytes : List UInt8)
  | nextFrame

def FrameDecoder.call (crc : List UInt8 → UInt32) (decoder : FrameDecoder) :
    Call → FrameDecoder × List (Except FrameError (Option Frame))
  | .push bytes => (decoder.push bytes, [])
  | .nextFrame => ((decoder.nextFrame crc).1, [(decoder.nextFrame crc).2])

theorem FrameDecoder.call_failed {crc : List UInt8 → UInt32} {decoder : FrameDecoder} {error : FrameError}
    (failed : decoder.nextFrame crc = (decoder, .error error)) (input : Call) :
    (decoder.call crc input).1.nextFrame crc = ((decoder.call crc input).1, .error error) ∧
      ∀ result ∈ (decoder.call crc input).2, result = .error error := by
  cases input with
  | push bytes =>
    have stuck := (frameReader crc).fail_append bytes (nextFrame_fail.2 failed)
    refine ⟨?_, by simp [call]⟩
    rw [call, ← nextFrame_fail, unread_push]
    exact stuck
  | nextFrame => simp [call, failed]

theorem FrameDecoder.runAll_call_failed {crc : List UInt8 → UInt32} {decoder : FrameDecoder}
    {error : FrameError} (failed : decoder.nextFrame crc = (decoder, .error error)) (calls : List Call) :
    ∀ result ∈ (Emitter.runAll (FrameDecoder.call crc) decoder calls).2, result = .error error := by
  induction calls generalizing decoder with
  | nil => simp
  | cons input rest ih =>
    obtain ⟨stays, now⟩ := call_failed failed input
    intro result returned
    simp only [Emitter.runAll_cons, List.mem_append] at returned
    cases returned with
    | inl here => exact now result here
    | inr later => exact ih stays result later

theorem decoding_chunking_invariant (crc : List UInt8 → UInt32) (chunks : List (List UInt8)) :
    (∀ (decoder after : FrameDecoder) (error : FrameError), decoder.nextFrame crc = (after, .error error) →
      ∀ (calls : List Call), ∀ result ∈ (Emitter.runAll (FrameDecoder.call crc) after calls).2,
        result = .error error) ∧
      let split := Emitter.runAll (FrameDecoder.feed crc) FrameDecoder.new chunks
      let whole := FrameDecoder.new.feed crc chunks.flatten
      FrameDecoder.yielded split.2 = FrameDecoder.yielded whole.2 ∧
        FrameDecoder.firstError split.2 = FrameDecoder.firstError whole.2 ∧
        split.1.pending = whole.1.pending ∧
        split.1.finish = whole.1.finish := by
  constructor
  · intro decoder after error failed calls
    have stays : after = decoder := by
      unfold FrameDecoder.nextFrame at failed
      split at failed <;> cases failed
      rfl
    subst stays
    exact FrameDecoder.runAll_call_failed failed calls
  · have followed := FrameDecoder.runAll_feed_new crc chunks
    have whole := FrameDecoder.feed_correct crc .new chunks.flatten
    simp only [FrameDecoder.unread_new, List.nil_append] at whole
    have sameUnread := followed.1.trans whole.1.symm
    refine ⟨?_, ?_, ?_, ?_⟩
    · rw [followed.2.1, whole.2, FrameDecoder.yielded_results]
    · rw [followed.2.2, whole.2, FrameDecoder.firstError_results]
    · rw [FrameDecoder.pending_eq, FrameDecoder.pending_eq, sameUnread]
    · rw [FrameDecoder.finish_eq, FrameDecoder.finish_eq, sameUnread]

end KiroTrust.EventStream
