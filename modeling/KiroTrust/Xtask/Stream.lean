import KiroTrust.Protocol.EventParser
import KiroTrust.Protocol.FrameCodec
import KiroTrust.Shared.Walk
import KiroTrust.Xtask.Identity

set_option autoImplicit false

namespace KiroTrust.Xtask

open EventStream hiding bind_ok
open Walk

/-! `scrub_eventstream`: a recorded upstream is decoded, scrubbed frame by frame and encoded anew. -/

inductive Abort where
  | notJson (index : Nat) (eventType : Option Str)
  | malformed (index : Nat) (error : FrameError)
  | truncated (error : FrameError)
  deriving DecidableEq

structure Tool where
  serde : Serde
  crc : List UInt8 → UInt32
  isAlphanumeric : Char → Bool

variable (tool : Tool) (rules : ScrubRules)

def conversationKey : Str := "conversationId".toList
def utteranceKey : Str := "utteranceId".toList
def metadataType : Str := "messageMetadataEvent".toList

/-- `insert` of a key that is there. -/
def setEntry (key : Str) (value : Value) (m : List (Str × Value)) : List (Str × Value) :=
  m.map fun entry => if entry.1 = key then (key, value) else entry

def maskIds (eventType : Option Str) (v : Value) : Value :=
  match v with
  | .object m =>
    if eventType = some metadataType then
      .object ([conversationKey, utteranceKey].foldl (fun m key => setEntry key (.string fixtureConversationId) m) m)
    else v
  | v => v

def scrubFramePayload (index : Nat) (eventType : Option Str) (payload : List UInt8) : Except Abort (List UInt8) :=
  match tool.serde.fromSlice payload with
  | none => .error (.notJson index eventType)
  | some v => .ok (tool.serde.print (scrubValue tool.isAlphanumeric rules (maskIds eventType v))).bytes

/-- The loop of `scrub_eventstream`. -/
def scrubFrames (decoder : FrameDecoder) (out : List UInt8) (index : Nat) :
    Except Abort (FrameDecoder × List UInt8) :=
  match _read : decoder.nextFrame tool.crc with
  | (after, .ok (some frame)) => do
    let payload ← scrubFramePayload tool rules index frame.eventType frame.payload
    scrubFrames after (out ++ encodeFrame tool.crc (pushHeaders frame.headers) payload) (index + 1)
  | (after, .ok none) => .ok (after, out)
  | (_, .error e) => .error (.malformed index e)
termination_by decoder.pending
decreasing_by exact FrameDecoder.nextFrame_pending _read

def scrubEventstream (raw : List UInt8) (allowTruncated : Bool) : Except Abort (List UInt8) := do
  let (decoder, out) ← scrubFrames tool rules (FrameDecoder.new.push raw) [] 0
  match decoder.finish with
  | .ok () => .ok out
  | .error e => if allowTruncated then .ok out else .error (.truncated e)

def scrubFrame (index : Nat) (frame : Frame) : Except Abort (Frame × Nat) := do
  let payload ← scrubFramePayload tool rules index frame.eventType frame.payload
  return ({ frame with payload }, index + 1)

def Rewritten (frame scrubbed : Frame) : Prop :=
  scrubbed.headers = frame.headers ∧ ∃ v, tool.serde.fromSlice frame.payload = some v ∧
    scrubbed.payload = (tool.serde.print (scrubValue tool.isAlphanumeric rules (maskIds frame.eventType v))).bytes

theorem scrubFrames_frame {decoder after : FrameDecoder} {frame : Frame} (out : List UInt8) (index : Nat)
    (read : decoder.nextFrame tool.crc = (after, .ok (some frame))) :
    scrubFrames tool rules decoder out index =
      (scrubFrame tool rules index frame).bind fun scrubbed =>
        scrubFrames tool rules after (out ++ scrubbed.1.encode tool.crc) scrubbed.2 := by
  rw [scrubFrames]
  split <;> rename_i here <;> cases read.symm.trans here
  cases payload : scrubFramePayload tool rules index frame.eventType frame.payload with
  | error abort => simp [scrubFrame, payload, bind, Except.bind]
  | ok bytes => simp [scrubFrame, payload, bind, Except.bind, pure, Except.pure, Frame.encode]

theorem scrubFrames_none {decoder after : FrameDecoder} (out : List UInt8) (index : Nat)
    (read : decoder.nextFrame tool.crc = (after, .ok none)) :
    scrubFrames tool rules decoder out index = .ok (after, out) := by
  rw [scrubFrames]
  split <;> rename_i here <;> cases read.symm.trans here
  rfl

theorem scrubFrames_error {decoder after : FrameDecoder} {e : FrameError} (out : List UInt8) (index : Nat)
    (read : decoder.nextFrame tool.crc = (after, .error e)) :
    scrubFrames tool rules decoder out index = .error (.malformed index e) := by
  rw [scrubFrames]
  split <;> rename_i here <;> cases read.symm.trans here
  rfl

def ending (out : List UInt8) (index : Nat) (position : Chunked.Position Unit UInt8 FrameError) :
    Except Abort (List UInt8 × List UInt8) :=
  match position.error with
  | some e => .error (.malformed index e)
  | none => .ok (position.rest, out)

theorem scrubFrames_eq (decoder : FrameDecoder) (out : List UInt8) (index : Nat) :
    (scrubFrames tool rules decoder out index).map (fun result => (result.1.unread, result.2)) =
      (walk (scrubFrame tool rules) index ((frameReader tool.crc).drain () decoder.unread).2).bind fun scrubbed =>
        ending (out ++ scrubbed.1.flatMap (Frame.encode tool.crc)) scrubbed.2
          ((frameReader tool.crc).drain () decoder.unread).1 := by
  induction size : decoder.pending using Nat.strongRecOn generalizing decoder out index with
  | _ n ih =>
    subst size
    cases found : (frameReader tool.crc).next () decoder.unread with
    | more =>
      rw [scrubFrames_none tool rules out index (nextFrame_more found), Chunked.Decoder.drain_more found]
      simp [walk, Except.map, Except.bind, ending]
    | fail e =>
      rw [scrubFrames_error tool rules out index (nextFrame_fail.1 found), Chunked.Decoder.drain_fail found]
      simp [walk, Except.map, Except.bind, ending]
    | item frame total mode =>
      have read := nextFrame_item found
      obtain ⟨total', found', unread⟩ := nextFrame_unread read
      cases found.symm.trans found'
      rw [scrubFrames_frame tool rules out index read, Chunked.Decoder.drain_item found]
      cases scrubbed : scrubFrame tool rules index frame with
      | error abort => simp [walk, scrubbed, Except.map, Except.bind, bind]
      | ok first =>
        obtain ⟨first, next⟩ := first
        have later := ih _ (FrameDecoder.nextFrame_pending read) _ (out ++ first.encode tool.crc) next rfl
        simp only [Except.bind] at later ⊢
        rw [later, unread]
        simp only [walk, scrubbed, bind, Except.bind]
        cases walk (scrubFrame tool rules) next ((frameReader tool.crc).drain () (decoder.unread.drop total)).2 with
        | error abort => rfl
        | ok rest => simp [pure, Except.pure, List.append_assoc]

section Reading

variable (crc : List UInt8 → UInt32)

theorem next_more {data : List UInt8} : (frameReader crc).next () data = .more ↔ readFrame crc data = .ok none := by
  simp only [frameReader, readNext]
  split <;> simp_all

theorem drain_fits (data : List UInt8) : ∀ frame ∈ ((frameReader crc).drain () data).2, frame.Fits := by
  have all (mode : Unit) : ∀ frame ∈ ((frameReader crc).drain mode data).2, frame.Fits := by
    induction mode, data using (frameReader crc).drain_induction with
    | more mode data found => simp [Chunked.Decoder.drain_more found]
    | fail mode data error found => simp [Chunked.Decoder.drain_fail found]
    | item mode data frame size after found ih =>
      rw [Chunked.Decoder.drain_item found]
      exact List.forall_mem_cons.2 ⟨(readFrame_sound (readNext_item.1 found)).1, ih⟩
  exact all ()

theorem drain_stops (data : List UInt8) (clean : ((frameReader crc).drain () data).1.error = none) :
    readFrame crc ((frameReader crc).drain () data).1.rest = .ok none := by
  have stops (mode : Unit) : ((frameReader crc).drain mode data).1.error = none →
      readFrame crc ((frameReader crc).drain mode data).1.rest = .ok none := by
    clear clean
    induction mode, data using (frameReader crc).drain_induction with
    | more mode data found =>
      rw [Chunked.Decoder.drain_more found]
      exact fun _ => (next_more crc).1 found
    | fail mode data error found => simp [Chunked.Decoder.drain_fail found]
    | item mode data frame size after found ih =>
      rw [Chunked.Decoder.drain_item found]
      exact ih
  exact stops () clean

theorem drain_frames (frames : List Frame) (fits : ∀ frame ∈ frames, frame.Fits) {tail : List UInt8}
    (partly : readFrame crc tail = .ok none) :
    (frameReader crc).drain () (frames.flatMap (Frame.encode crc) ++ tail) = (⟨(), tail, none⟩, frames) := by
  induction frames with
  | nil => exact Chunked.Decoder.drain_more ((next_more crc).2 partly)
  | cons frame rest ih =>
    have read : readFrame crc (frame.encode crc ++ (rest.flatMap (Frame.encode crc) ++ tail)) =
        .ok (some (frame, (frame.encode crc).length)) := readFrame_complete (fits frame List.mem_cons_self) _
    have found : (frameReader crc).next () ((frame :: rest).flatMap (Frame.encode crc) ++ tail) =
        .item frame (frame.encode crc).length () := by
      simp only [frameReader, readNext_item, List.flatMap_cons, List.append_assoc, read]
    have later := ih fun other inside => fits other (List.mem_cons_of_mem _ inside)
    rw [Chunked.Decoder.drain_item found, List.flatMap_cons, List.append_assoc, List.drop_left, later]

end Reading

theorem scrubFrame_ok {index next : Nat} {frame scrubbed : Frame} :
    scrubFrame tool rules index frame = .ok (scrubbed, next) ↔ Rewritten tool rules frame scrubbed ∧ next = index + 1 := by
  rw [scrubFrame, bind_ok]
  constructor
  · rintro ⟨payload, written, built⟩
    cases built
    unfold scrubFramePayload at written
    split at written
    next => cases written
    next v parsed =>
      cases written
      exact ⟨⟨rfl, v, parsed, rfl⟩, rfl⟩
  · rintro ⟨⟨same, v, parsed, written⟩, rfl⟩
    refine ⟨scrubbed.payload, by simp [scrubFramePayload, parsed, written], ?_⟩
    rw [← same]
    rfl

theorem walk_scrubFrame {index last : Nat} {frames scrubbed : List Frame} :
    walk (scrubFrame tool rules) index frames = .ok (scrubbed, last) ↔
      List.Forall₂ (Rewritten tool rules) frames scrubbed ∧ last = index + frames.length := by
  induction frames generalizing index scrubbed with
  | nil => simp [walk, List.forall₂_nil_left_iff, eq_comm]
  | cons frame rest ih =>
    rw [walk_cons]
    constructor
    · rintro ⟨first, next, later, written, walked, rfl⟩
      obtain ⟨rewritten, rfl⟩ := (scrubFrame_ok tool rules).1 written
      obtain ⟨all, rfl⟩ := ih.1 walked
      exact ⟨.cons rewritten all, by simp; omega⟩
    · rintro ⟨all, rfl⟩
      cases all with
      | cons rewritten all =>
        exact ⟨_, _, _, (scrubFrame_ok tool rules).2 ⟨rewritten, rfl⟩, ih.2 ⟨all, by simp; omega⟩, rfl⟩

theorem scrubEventstream_ends {raw out : List UInt8} {allowTruncated : Bool} :
    scrubEventstream tool rules raw allowTruncated = .ok out ↔
      ∃ tail, (walk (scrubFrame tool rules) 0 ((frameReader tool.crc).drain () raw).2).bind (fun scrubbed =>
        ending (scrubbed.1.flatMap (Frame.encode tool.crc)) scrubbed.2 ((frameReader tool.crc).drain () raw).1) =
          .ok (tail, out) ∧ (tail = [] ∨ allowTruncated = true) := by
  have loop := scrubFrames_eq tool rules (FrameDecoder.new.push raw) [] 0
  simp only [FrameDecoder.unread_push, FrameDecoder.unread_new, List.nil_append] at loop
  rw [← loop, scrubEventstream, bind_ok]
  constructor
  · rintro ⟨⟨decoder, written⟩, scrubs, finishes⟩
    simp only [FrameDecoder.finish_eq] at finishes
    by_cases whole : decoder.unread = []
    · simp only [whole, if_true] at finishes
      cases finishes
      exact ⟨_, map_ok.2 ⟨_, scrubs, rfl⟩, .inl whole⟩
    · simp only [whole, if_false] at finishes
      split_ifs at finishes with allowed
      cases finishes
      exact ⟨_, map_ok.2 ⟨_, scrubs, rfl⟩, .inr allowed⟩
  · rintro ⟨tail, scrubs, allowed⟩
    obtain ⟨⟨decoder, written⟩, looped, same⟩ := map_ok.1 scrubs
    cases same
    refine ⟨_, looped, ?_⟩
    simp only [FrameDecoder.finish_eq]
    by_cases whole : decoder.unread = []
    · simp [whole]
    · simp [whole, allowed.resolve_left whole]

theorem scrubEventstream_shape {raw out : List UInt8} {allowTruncated : Bool}
    (scrubs : scrubEventstream tool rules raw allowTruncated = .ok out) :
    ∃ frames scrubbed tail, raw = frames.flatMap (Frame.encode tool.crc) ++ tail ∧
      (∀ frame ∈ frames, frame.Fits) ∧ readFrame tool.crc tail = .ok none ∧ (tail = [] ∨ allowTruncated = true) ∧
        List.Forall₂ (Rewritten tool rules) frames scrubbed ∧ out = scrubbed.flatMap (Frame.encode tool.crc) := by
  obtain ⟨tail, scrubs, allowed⟩ := (scrubEventstream_ends tool rules).1 scrubs
  obtain ⟨⟨scrubbed, last⟩, walked, stops⟩ := bind_ok.1 scrubs
  obtain ⟨rewritten, -⟩ := (walk_scrubFrame tool rules).1 walked
  simp only [ending] at stops
  split at stops
  next => cases stops
  next clean =>
    cases stops
    exact ⟨_, scrubbed, _, (drain_sound tool.crc () raw).symm, drain_fits tool.crc raw,
      drain_stops tool.crc raw clean, allowed, rewritten, rfl⟩

theorem scrubEventstream_frames {frames scrubbed : List Frame} {tail : List UInt8} {allowTruncated : Bool}
    (fits : ∀ frame ∈ frames, frame.Fits) (partly : readFrame tool.crc tail = .ok none)
    (allowed : tail = [] ∨ allowTruncated = true) (rewritten : List.Forall₂ (Rewritten tool rules) frames scrubbed) :
    scrubEventstream tool rules (frames.flatMap (Frame.encode tool.crc) ++ tail) allowTruncated =
      .ok (scrubbed.flatMap (Frame.encode tool.crc)) := by
  refine (scrubEventstream_ends tool rules).2 ⟨tail, ?_, allowed⟩
  rw [drain_frames tool.crc frames fits partly]
  exact bind_ok.2 ⟨_, (walk_scrubFrame tool rules).2 ⟨rewritten, rfl⟩, rfl⟩

/-- A scrub succeeds exactly on whole frames of JSON, with at most a cut frame behind them that is allowed; what it
writes is these frames, each with its headers and its scrubbed payload, and nothing of the cut one. -/
theorem scrubEventstream_iff (raw out : List UInt8) (allowTruncated : Bool) :
    scrubEventstream tool rules raw allowTruncated = .ok out ↔
      ∃ frames scrubbed tail, raw = frames.flatMap (Frame.encode tool.crc) ++ tail ∧
        (∀ frame ∈ frames, frame.Fits) ∧ readFrame tool.crc tail = .ok none ∧ (tail = [] ∨ allowTruncated = true) ∧
          List.Forall₂ (Rewritten tool rules) frames scrubbed ∧ out = scrubbed.flatMap (Frame.encode tool.crc) := by
  constructor
  · exact scrubEventstream_shape tool rules
  · rintro ⟨frames, scrubbed, tail, rfl, fits, partly, allowed, rewritten, rfl⟩
    exact scrubEventstream_frames tool rules fits partly allowed rewritten

/-- `serde_json` reads back what it writes of a value that it has read. -/
def Tool.Faithful (tool : Tool) (rules : ScrubRules) : Prop :=
  ∀ eventType payload v, tool.serde.fromSlice payload = some v →
    let scrubbed := scrubValue tool.isAlphanumeric rules (maskIds eventType v)
    tool.serde.fromSlice (tool.serde.print scrubbed).bytes = some scrubbed

end KiroTrust.Xtask
