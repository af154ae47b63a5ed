import KiroTrust.Protocol.EventParser
import KiroTrust.Protocol.FrameChunking
import KiroTrust.Server.Error
import KiroTrust.Translate.Limits

set_option autoImplicit false

namespace KiroTrust.Server

open Emitter EventStream Translate

/-! One upstream stream through decode, parse and translate. -/

/-- What the pump uses of other crates: the checksum, the JSON reader and fresh ids. -/
structure Externals where
  crc : List UInt8 → UInt32
  serde : Serde
  uuid : Nat → Str

def primingDeadline : Nat := 120

inductive Primed where
  | ready (events : List StreamEvent)
  | ended (events : List StreamEvent)
  | failed (failure : Failure)
  | broken (error : UpstreamError)

inductive Chunk where
  | events (events : List StreamEvent)
  | failed (events : List StreamEvent) (failure : Failure)
  | broken (events : List StreamEvent) (error : UpstreamError)
  | done

structure Intake where
  parser : EventParser
  translator : ResponseTranslator
  frames : Nat
  broken : Option UpstreamError

structure Pump extends Intake where
  -- What the upstream body still yields; after the last item it ends cleanly.
  bytes : List (Except UpstreamError (List UInt8))
  decoder : FrameDecoder
  ended : Bool

def protocol (msg : Str) : UpstreamError := .new .protocol none none 0 none msg

def primingTimeout : UpstreamError :=
  .new .transport none none 0 none
    ("no output within the ".toList ++ decimal primingDeadline ++ "s priming deadline".toList)

/-- The `for` over the events of one frame; an error is an early return of `next`. -/
def pushEvents (out : List StreamEvent) (t : ResponseTranslator) :
    List Event → ResponseTranslator × Except Chunk (List StreamEvent)
  | [] => (t, .ok out)
  | ev :: rest =>
    let pushed := t.push ev
    let out := out ++ pushed.2
    match pushed.1.failure with
    | some f => (pushed.1, .error (.failed out f))
    | none =>
      -- After a local stop the rest of the frame is not pushed.
      if pushed.1.stopped then (pushed.1, .error (.events out)) else pushEvents out pushed.1 rest

namespace Pump

variable (x : Externals)

def new (bytes : List (Except UpstreamError (List UInt8))) (opts : ResponseOptions) : Pump where
  bytes
  decoder := .new
  parser := .new
  translator := .new opts
  frames := 0
  ended := false
  broken := none

def endedOrStopped (p : Pump) : Bool := p.ended || p.translator.stopped

def ready (p : Pump) : Option Chunk :=
  -- A failure or a broken stream is reported by every further call.
  match p.translator.failure with
  | some f => some (.failed [] f)
  | none =>
    match p.broken with
    | some e => some (.broken [] e)
    | none => if p.endedOrStopped then some .done else none

def closeStream (p : Pump) : Pump × Chunk :=
  let p := { p with ended := true }
  match p.decoder.finish with
  | .error e =>
    let err := protocol e.display
    ({ p with broken := some err }, .broken [] err)
  | .ok () =>
    let (parser, last) := p.parser.finish
    let pushed :=
      match last with
      | some ev => p.translator.push ev
      | none => (p.translator, [])
    let finished := pushed.1.finish
    ({ p with parser, translator := finished.1 }, .events (pushed.2 ++ finished.2))

/-- The `loop` over the frames that are complete. -/
def readFrames (p : Pump) (out : List StreamEvent) : Pump × Chunk :=
  match _read : p.decoder.nextFrame x.crc with
  | (decoder, .ok none) => ({ p with decoder }, .events out)
  | (decoder, .error e) =>
    -- What the frames before the bad one have yielded is handed out with the error.
    let err := protocol e.display
    ({ p with decoder, broken := some err }, .broken out err)
  | (decoder, .ok (some frame)) =>
    let p := { p with decoder, frames := p.frames + 1 }
    match p.parser.parse x.serde x.uuid frame with
    | (parser, .error e) =>
      let err := protocol e.display
      ({ p with parser, broken := some err }, .broken out err)
    | (parser, .ok events) =>
      match pushEvents out p.translator events with
      | (translator, .error chunk) => ({ p with parser, translator }, chunk)
      | (translator, .ok out) => readFrames { p with parser, translator } out
termination_by p.decoder.pending
decreasing_by exact FrameDecoder.nextFrame_pending _read

def next (p : Pump) : Pump × Chunk :=
  match p.ready with
  | some chunk => (p, chunk)
  | none =>
    match p.bytes with
    | [] => p.closeStream
    | .error e :: rest => ({ p with bytes := rest, broken := some e }, .broken [] e)
    | .ok chunk :: rest => readFrames x { p with bytes := rest, decoder := p.decoder.push chunk } []

end Pump

def haltsPushing (t : ResponseTranslator) : Bool := t.failure.isSome || t.stopped

theorem haltsPushing_eq_false_iff {t : ResponseTranslator} :
    haltsPushing t = false ↔ t.failure = none ∧ t.stopped = false := by
  simp [haltsPushing]

def accept (t : ResponseTranslator) (ev : Event) : ResponseTranslator × List StreamEvent :=
  -- The early returns of the loop become states that take nothing in.
  if haltsPushing t then (t, []) else t.push ev

theorem runAll_accept_halted {t : ResponseTranslator} (halted : haltsPushing t = true) (events : List Event) :
    runAll accept t events = (t, []) := by
  induction events with
  | nil => rfl
  | cons ev rest ih => simp [runAll_cons, accept, halted, ih]

def verdict (t : ResponseTranslator) (out : List StreamEvent) : Except Chunk (List StreamEvent) :=
  match t.failure with
  | some f => .error (.failed out f)
  | none => if t.stopped then .error (.events out) else .ok out

theorem pushEvents_eq {t : ResponseTranslator} (running : haltsPushing t = false) (out : List StreamEvent)
    (events : List Event) :
    pushEvents out t events =
      ((runAll accept t events).1, verdict (runAll accept t events).1 (out ++ (runAll accept t events).2)) := by
  induction events generalizing t out with
  | nil =>
    obtain ⟨working, still⟩ := haltsPushing_eq_false_iff.1 running
    simp [pushEvents, verdict, working, still]
  | cons ev rest ih =>
    have accepted : accept t ev = t.push ev := by simp [accept, running]
    simp only [runAll_cons, accepted, pushEvents]
    cases halted : haltsPushing (t.push ev).1 with
    | true =>
      -- What would have come after the event is not taken in.
      rw [runAll_accept_halted halted, List.append_nil]
      unfold verdict
      simp only [haltsPushing, Bool.or_eq_true] at halted
      split <;> simp_all
    | false =>
      have later := ih halted (out ++ (t.push ev).2)
      obtain ⟨working, still⟩ := haltsPushing_eq_false_iff.1 halted
      simp [working, still, later]

namespace Intake

variable (x : Externals)

def halted (s : Intake) : Bool := haltsPushing s.translator || s.broken.isSome

theorem halted_eq_false_iff {s : Intake} :
    s.halted = false ↔ s.translator.failure = none ∧ s.translator.stopped = false ∧ s.broken = none := by
  simp [halted, haltsPushing_eq_false_iff, and_assoc]

def chunk (s : Intake) (out : List StreamEvent) : Chunk :=
  match s.translator.failure with
  | some f => .failed out f
  | none =>
    match s.broken with
    | some e => .broken out e
    | none => .events out

theorem verdict_chunk {s : Intake} (unbroken : s.broken = none) (out : List StreamEvent) :
    verdict s.translator out = if haltsPushing s.translator then .error (s.chunk out) else .ok out := by
  unfold verdict chunk haltsPushing
  split <;> simp_all

def absorb (s : Intake) (reading : Except FrameError Frame) : Intake × List StreamEvent :=
  if s.halted then (s, [])
  else
    match reading with
    | .error e => ({ s with broken := some (protocol e.display) }, [])
    | .ok frame =>
      let parsed := s.parser.parse x.serde x.uuid frame
      let s := { s with frames := s.frames + 1, parser := parsed.1 }
      match parsed.2 with
      | .error e => ({ s with broken := some (protocol e.display) }, [])
      | .ok events =>
        let pushed := runAll accept s.translator events
        ({ s with translator := pushed.1 }, pushed.2)

theorem absorb_halted {s : Intake} (halted : s.halted = true) : Chunked.Decoder.Deaf (absorb x) s := by
  intro reading
  simp [absorb, halted]

theorem absorb_badFrame {s : Intake} {frame : Frame} {parser : EventParser} {e : EventError}
    (running : s.halted = false) (parsed : s.parser.parse x.serde x.uuid frame = (parser, .error e)) :
    absorb x s (.ok frame) =
      ({ s with frames := s.frames + 1, parser, broken := some (protocol e.display) }, []) := by
  simp [absorb, running, parsed]

theorem absorb_frame {s : Intake} {frame : Frame} {parser : EventParser} {events : List Event}
    (running : s.halted = false) (parsed : s.parser.parse x.serde x.uuid frame = (parser, .ok events)) :
    absorb x s (.ok frame) =
      ({ s with frames := s.frames + 1, parser, translator := (runAll accept s.translator events).1 },
        (runAll accept s.translator events).2) := by
  simp [absorb, running, parsed]

theorem absorb_error (s : Intake) (e : FrameError) : (absorb x s (.error e)).1.halted = true := by
  unfold absorb
  split
  · assumption
  · simp [halted]

end Intake

namespace Pump

variable (x : Externals)

theorem readFrames_none {p : Pump} {decoder : FrameDecoder} (out : List StreamEvent)
    (read : p.decoder.nextFrame x.crc = (decoder, .ok none)) :
    p.readFrames x out = ({ p with decoder }, .events out) := by
  rw [readFrames]
  split <;> simp_all

theorem readFrames_error {p : Pump} {decoder : FrameDecoder} {e : FrameError} (out : List StreamEvent)
    (read : p.decoder.nextFrame x.crc = (decoder, .error e)) :
    p.readFrames x out =
      ({ p with decoder, broken := some (protocol e.display) }, .broken out (protocol e.display)) := by
  rw [readFrames]
  split <;> simp_all

theorem readFrames_frame {p : Pump} {decoder : FrameDecoder} {frame : Frame} (out : List StreamEvent)
    (read : p.decoder.nextFrame x.crc = (decoder, .ok (some frame))) :
    p.readFrames x out =
      let taken := { p with decoder, frames := p.frames + 1, parser := (p.parser.parse x.serde x.uuid frame).1 }
      match (p.parser.parse x.serde x.uuid frame).2 with
      | .error e => ({ taken with broken := some (protocol e.display) }, .broken out (protocol e.display))
      | .ok events =>
        let pushed := pushEvents out p.translator events
        match pushed.2 with
        | .error chunk => ({ taken with translator := pushed.1 }, chunk)
        | .ok out => readFrames x { taken with translator := pushed.1 } out := by
  rw [readFrames]
  split
  · simp_all
  · simp_all
  · next decoder' frame' read' =>
    obtain ⟨rfl, rfl⟩ : decoder' = decoder ∧ frame' = frame := by simpa [read] using read'.symm
    rcases parsed : p.parser.parse x.serde x.uuid frame' with ⟨parser, _ | events⟩
    · simp only [parsed]
    · rcases pushed : pushEvents out p.translator events with ⟨translator, _ | more⟩ <;>
        simp only [parsed, pushed]

theorem readFrames_eq (p : Pump) (running : p.toIntake.halted = false) (out : List StreamEvent) :
    let run := runAll (Intake.absorb x) p.toIntake (p.decoder.drain x.crc).2
    ∃ decoder, p.readFrames x out = ({ p with toIntake := run.1, decoder }, run.1.chunk (out ++ run.2)) ∧
      (run.1.halted = false → decoder = (p.decoder.drain x.crc).1) := by
  -- The loop goes on only with a frame, which leaves fewer bytes pending.
  induction pending : p.decoder.pending using Nat.strongRecOn generalizing p out with
  | _ n ih =>
    subst pending
    obtain ⟨flowing, notStopped, unbroken⟩ := Intake.halted_eq_false_iff.1 running
    rcases read : p.decoder.nextFrame x.crc with ⟨decoder, e | _ | frame⟩
    · refine ⟨decoder, ?_, ?_⟩
      · rw [readFrames_error x out read, FrameDecoder.drain_error read]
        simp [runAll_cons, Intake.absorb, running, Intake.chunk, flowing]
      · rw [FrameDecoder.drain_error read]
        simp
    · refine ⟨decoder, ?_, ?_⟩
      · rw [readFrames_none x out read, FrameDecoder.drain_none read]
        simp [Intake.chunk, flowing, unbroken]
      · rw [FrameDecoder.drain_none read]
        simp
    · have shorter := FrameDecoder.nextFrame_pending read
      rw [readFrames_frame x out read, FrameDecoder.drain_frame read]
      rcases parsed : p.parser.parse x.serde x.uuid frame with ⟨parser, e | events⟩
      · -- The rest of the chunk stays unread, and the machine ignores it.
        have broken : Intake.halted { p.toIntake with
            frames := p.frames + 1, parser, broken := some (protocol e.display) } = true := by
          simp [Intake.halted]
        have deaf := Chunked.Decoder.runAll_deaf (Intake.absorb_halted x broken) (decoder.drain x.crc).2
        rw [runAll_cons, Intake.absorb_badFrame x running parsed, deaf]
        exact ⟨decoder, by simp [Intake.chunk, flowing], by simp [broken]⟩
      · have calm := haltsPushing_eq_false_iff.2 ⟨flowing, notStopped⟩
        rw [runAll_cons, Intake.absorb_frame x running parsed]
        simp only [pushEvents_eq calm]
        let pushed := runAll accept p.translator events
        let taken : Intake := { p.toIntake with frames := p.frames + 1, parser, translator := pushed.1 }
        have result := Intake.verdict_chunk (s := taken) unbroken (out ++ pushed.2)
        cases halts : haltsPushing pushed.1 with
        | true =>
          have halted : taken.halted = true := by simp [Intake.halted, taken, halts]
          have deaf := Chunked.Decoder.runAll_deaf (Intake.absorb_halted x halted) (decoder.drain x.crc).2
          simp only [taken, halts, if_true] at result
          simp only [result, deaf, taken, pushed, List.append_nil]
          exact ⟨decoder, rfl, by simp [← halted, taken, pushed]⟩
        | false =>
          have still : taken.halted = false := by simp [Intake.halted, taken, halts, unbroken]
          have later := ih decoder.pending shorter { p with toIntake := taken, decoder } still
            (out ++ pushed.2) rfl
          simp only [taken, halts, Bool.false_eq_true, if_false] at result
          simp only [pushed] at result
          simp only [result, ← List.append_assoc]
          exact later

theorem ready_none {p : Pump} : p.ready = none ↔ p.toIntake.halted = false ∧ p.ended = false := by
  unfold ready endedOrStopped Intake.halted haltsPushing
  split
  · simp_all
  · split <;> simp_all [and_comm]

theorem ready_events {p : Pump} {out : List StreamEvent} : p.ready ≠ some (.events out) := by
  unfold ready
  split
  · simp
  · split
    · simp
    · split <;> simp

theorem next_end {p : Pump} (running : p.ready = none) (atEnd : p.bytes = []) : p.next x = p.closeStream := by
  simp [next, running, atEnd]

theorem next_error {p : Pump} {e : UpstreamError} {rest : List (Except UpstreamError (List UInt8))}
    (running : p.ready = none) (failed : p.bytes = .error e :: rest) :
    p.next x = ({ p with bytes := rest, broken := some e }, .broken [] e) := by
  simp [next, running, failed]

theorem next_chunk {p : Pump} {chunk : List UInt8} {rest : List (Except UpstreamError (List UInt8))}
    (running : p.ready = none) (arrives : p.bytes = .ok chunk :: rest) :
    let fed := p.decoder.feed x.crc chunk
    let run := runAll (Intake.absorb x) p.toIntake fed.2
    ∃ decoder, p.next x = ({ p with toIntake := run.1, bytes := rest, decoder }, run.1.chunk run.2) ∧
      (run.1.halted = false → decoder = fed.1) := by
  have calm := (ready_none.1 running).1
  have taken := readFrames_eq x { p with bytes := rest, decoder := p.decoder.push chunk } calm []
  simp only [next, running, arrives]
  exact taken

theorem closeStream_ended (p : Pump) : p.closeStream.1.ended = true := by
  simp only [closeStream]
  split <;> rfl

theorem next_shrinks {p : Pump} {out : List StreamEvent} (returns : (p.next x).2 = .events out)
    (going : (p.next x).1.endedOrStopped = false) : (p.next x).1.bytes.length < p.bytes.length := by
  cases running : p.ready with
  | some chunk =>
    simp only [next, running] at returns
    exact (ready_events (by rw [running, returns])).elim
  | none =>
    rcases arrives : p.bytes with _ | ⟨e | chunk, rest⟩
    · simp [next_end x running arrives, endedOrStopped, closeStream_ended] at going
    · simp [next_error x running arrives] at returns
    · obtain ⟨decoder, same, -⟩ := next_chunk x running arrives
      simp [same]

/-- Read until output has started, a clean end, or a failure, with every usage that is observed.

`expires turn` says that the deadline runs out while `next` waits for the upstream in this turn; a
timeout drops `next` at its only await, before it has changed anything. -/
def prime (streaming : Bool) (expires : Nat → Bool) (turn : Nat) (p : Pump) (buffered : List StreamEvent) :
    Pump × Primed × List UsageSnapshot :=
  if p.translator.started = false ∧ expires turn = true ∧ p.ready = none then
    ({ p with broken := some primingTimeout }, .broken primingTimeout, [])
  else
    let after := (p.next x).1
    let seen := [after.translator.usageSnapshot]
    match _returns : (p.next x).2 with
    | .events ev =>
      let buffered := if streaming then buffered ++ ev else buffered
      if _over : after.endedOrStopped then (after, .ended buffered, seen)
      else if streaming ∧ buffered ≠ [] then (after, .ready buffered, seen)
      else
        let later := prime streaming expires (turn + 1) after buffered
        (later.1, later.2.1, seen ++ later.2.2)
    | .failed ev f =>
      let buffered := if streaming then buffered ++ ev else buffered
      if streaming = false ∨ buffered = [] then (after, .failed f, seen) else (after, .ready buffered, seen)
    | .broken ev e =>
      let buffered := if streaming then buffered ++ ev else buffered
      if streaming = false ∨ buffered = [] then (after, .broken e, seen) else (after, .ready buffered, seen)
    | .done => (after, .ended buffered, seen)
termination_by p.bytes.length
decreasing_by exact next_shrinks x _returns (by simpa using _over)

end Pump

end KiroTrust.Server
