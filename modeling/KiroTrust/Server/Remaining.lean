import KiroTrust.Server.Pump

set_option autoImplicit false

namespace KiroTrust.Server

open Emitter EventStream Translate

/-! What a pump has still to hand out, whichever calls fetch it. -/

inductive Refusal where
  | failed (failure : Failure)
  | broken (error : UpstreamError)

def Refusal.error : Refusal → ApiError
  | .failed f => failureToError f
  | .broken e => .ofUpstream e

def Chunk.out : Chunk → List StreamEvent
  | .events out | .failed out _ | .broken out _ => out
  | .done => []

namespace Intake

def refusal (s : Intake) : Option Refusal :=
  match s.translator.failure with
  | some f => some (.failed f)
  | none => s.broken.map .broken

theorem chunk_eq (s : Intake) (out : List StreamEvent) :
    s.chunk out =
      match s.refusal with
      | none => .events out
      | some (.failed f) => .failed out f
      | some (.broken e) => .broken out e := by
  cases flowing : s.translator.failure with
  | some f => simp [chunk, refusal, flowing]
  | none => cases unbroken : s.broken <;> simp [chunk, refusal, flowing, unbroken]

@[simp] theorem chunk_out (s : Intake) (out : List StreamEvent) : (s.chunk out).out = out := by
  unfold chunk
  split
  · rfl
  · split <;> rfl

theorem refusal_eq_none_iff {s : Intake} : s.refusal = none ↔ s.translator.failure = none ∧ s.broken = none := by
  cases flowing : s.translator.failure <;> simp [refusal, flowing]

theorem refusal_of_running {s : Intake} (running : s.halted = false) : s.refusal = none := by
  obtain ⟨flowing, -, unbroken⟩ := halted_eq_false_iff.1 running
  exact refusal_eq_none_iff.2 ⟨flowing, unbroken⟩

theorem halted_of_refusal {s : Intake} (refused : s.refusal ≠ none) : s.halted = true := by
  cases running : s.halted with
  | true => rfl
  | false => exact (refused (refusal_of_running running)).elim

def conclude (s : Intake) (unread : List UInt8) : Intake × List StreamEvent :=
  if unread = [] then
    let last := s.parser.finish
    let pushed := runAll ResponseTranslator.push s.translator last.2.toList
    let finished := pushed.1.finish
    ({ s with parser := last.1, translator := finished.1 }, pushed.2 ++ finished.2)
  else ({ s with broken := some (protocol (FrameError.truncated unread.length).display) }, [])

theorem finish_reports {parser : EventParser} {ev : Event} (last : parser.finish.2 = some ev) :
    ResponseTranslator.reportedFailure ev = none := by
  unfold EventParser.finish at last
  split at last
  · cases last
  · cases last
    rfl

theorem conclude_failure (s : Intake) (unread : List UInt8) :
    (s.conclude unread).1.translator.failure = s.translator.failure := by
  simp only [conclude]
  split
  · cases last : s.parser.finish.2 with
    | none => exact ResponseTranslator.finish_failure s.translator
    | some ev =>
      have quiet := finish_reports last
      have pushed : (s.translator.push ev).1.failure = s.translator.failure := by
        obtain same | ⟨failure, reports, -⟩ := s.translator.push_failure ev
        · exact same
        · simp [quiet] at reports
      exact (ResponseTranslator.finish_failure _).trans pushed
  · rfl

end Intake

abbrev Tap := Chunked.Position Unit UInt8 FrameError × Intake

variable (x : Externals)

/-- All that the rest of a body leads to. -/
def remaining : Tap → List (Except UpstreamError (List UInt8)) → Intake × List StreamEvent
  | s, [] => if s.2.halted then (s.2, []) else s.2.conclude s.1.rest
  | s, .error e :: _ => if s.2.halted then (s.2, []) else ({ s.2 with broken := some e }, [])
  | s, .ok chunk :: rest =>
    let fed := (frameReader x.crc).pipe (Intake.absorb x) s chunk
    let later := remaining fed.1 rest
    (later.1, fed.2 ++ later.2)

theorem remaining_halted {s : Tap} (halted : s.2.halted = true)
    (bytes : List (Except UpstreamError (List UInt8))) : remaining x s bytes = (s.2, []) := by
  induction bytes generalizing s with
  | nil => simp [remaining, halted]
  | cons item rest ih =>
    cases item with
    | error e => simp [remaining, halted]
    | ok chunk =>
      -- A halted machine takes nothing in, though the decoder reads on.
      have deaf := Chunked.Decoder.runAll_deaf (Intake.absorb_halted x halted)
      have later := ih (s := (((frameReader x.crc).feed s.1 chunk).1, s.2)) halted
      simp only [remaining, Chunked.Decoder.pipe, deaf, later, List.append_nil]

namespace Pump

def tap (p : Pump) : Tap := (⟨(), p.decoder.unread, none⟩, p.toIntake)

def remaining (p : Pump) : Intake × List StreamEvent :=
  if p.ended then (p.toIntake, []) else Server.remaining x p.tap p.bytes

theorem remaining_of_ready {p : Pump} (ready : p.ready ≠ none) : p.remaining x = (p.toIntake, []) := by
  by_cases ended : p.ended = true
  · simp [remaining, ended]
  · have halted : p.toIntake.halted = true := by
      by_contra running
      simp only [Bool.not_eq_true] at running ended
      exact ready (ready_none.2 ⟨running, ended⟩)
    simp only [remaining, ended, Bool.false_eq_true, if_false]
    exact remaining_halted x (s := p.tap) halted p.bytes

theorem ready_out {p : Pump} {chunk : Chunk} (ready : p.ready = some chunk) : chunk.out = [] := by
  unfold Pump.ready at ready
  split at ready
  · cases ready
    rfl
  · split at ready
    · cases ready
      rfl
    · split at ready <;> cases ready
      rfl

theorem closeStream_eq {p : Pump} (running : p.toIntake.halted = false) :
    let run := p.toIntake.conclude p.decoder.unread
    p.closeStream = ({ p with toIntake := run.1, ended := true }, run.1.chunk run.2) := by
  obtain ⟨flowing, -, unbroken⟩ := Intake.halted_eq_false_iff.1 running
  have kept := p.toIntake.conclude_failure p.decoder.unread
  simp only [closeStream, FrameDecoder.finish_eq]
  by_cases atEnd : p.decoder.unread = []
  · simp only [Intake.conclude, atEnd, if_true] at kept ⊢
    cases last : p.parser.finish.2 <;> simp_all [Intake.chunk, runAll_cons]
  · simp [Intake.conclude, atEnd, Intake.chunk, flowing]

theorem runAll_readings_failed (s : Intake) {read : Chunked.Position Unit UInt8 FrameError × List Frame}
    {e : FrameError} (failed : read.1.error = some e) :
    (runAll (Intake.absorb x) s (Chunked.Decoder.readings read)).1.halted = true := by
  simp only [Chunked.Decoder.readings, failed, Option.toList_some, List.map_cons, List.map_nil,
    runAll_append, runAll_cons, runAll_nil]
  exact Intake.absorb_error x _ e

theorem tap_remaining {s : Pump} (position : Chunked.Position Unit UInt8 FrameError) {intake : Intake}
    (same : s.toIntake = intake) (going : s.ended = false)
    (reads : intake.halted = false → s.decoder.unread = position.rest ∧ position.error = none) :
    s.remaining x = Server.remaining x (position, intake) s.bytes := by
  subst same
  cases halted : s.toIntake.halted with
  | true =>
    have here := remaining_halted x (s := s.tap) halted s.bytes
    have there := remaining_halted x (s := (position, s.toIntake)) halted s.bytes
    simp only [remaining, going, here, there]
    rfl
  | false =>
    obtain ⟨unread, clean⟩ := reads halted
    have sameTap : s.tap = (position, s.toIntake) := by
      cases position
      simp_all [tap]
    simp [remaining, going, sameTap]

theorem next_remaining (p : Pump) :
    p.remaining x = (((p.next x).1.remaining x).1, (p.next x).2.out ++ ((p.next x).1.remaining x).2) := by
  cases running : p.ready with
  | some chunk =>
    have nothing := ready_out running
    simp [next, running, nothing]
  | none =>
    -- The call reads: by what the body yields next.
    obtain ⟨calm, going⟩ := ready_none.1 running
    rcases arrives : p.bytes with _ | ⟨e | chunk, rest⟩
    · have closed := closeStream_eq calm
      rw [next_end x running arrives, closed]
      simp [remaining, going, arrives, Server.remaining, tap, calm]
    · have broken : ({ p with bytes := rest, broken := some e } : Pump).ready ≠ none := by
        rw [Ne, ready_none]
        simp [Intake.halted]
      rw [next_error x running arrives, remaining_of_ready x broken]
      simp [remaining, going, arrives, Server.remaining, tap, calm, Chunk.out]
    · obtain ⟨decoder, taken, reads⟩ := next_chunk x running arrives
      let read := (frameReader x.crc).feed ⟨(), p.decoder.unread, none⟩ chunk
      obtain ⟨unread, readings⟩ : (p.decoder.feed x.crc chunk).1.unread = read.1.rest ∧
          (p.decoder.feed x.crc chunk).2 = Chunked.Decoder.readings read :=
        FrameDecoder.feed_correct x.crc p.decoder chunk
      rw [readings] at taken reads
      -- The decoder may lag behind the reader only where nothing is taken in any more.
      have later := tap_remaining x (s := (p.next x).1) read.1 (by rw [taken])
        (by rw [taken]; exact going) fun still => by
          refine ⟨by rw [taken, reads still, unread], ?_⟩
          by_contra failed
          obtain ⟨e, failed⟩ := Option.ne_none_iff_exists'.1 failed
          have halts := runAll_readings_failed x p.toIntake failed
          rw [halts] at still
          contradiction
      rw [taken] at later ⊢
      rw [later]
      simp only [remaining, going, arrives, Server.remaining, tap, Chunked.Decoder.pipe, Intake.chunk_out]
      rfl

theorem next_result (p : Pump) :
    (p.next x = (p, .done) ∧ p.toIntake.refusal = none ∧ p.endedOrStopped = true) ∨
      ∃ out, (p.next x).2 = (p.next x).1.toIntake.chunk out := by
  cases running : p.ready with
  | some chunk =>
    have returns : p.next x = (p, chunk) := by simp [next, running]
    rw [returns]
    cases flowing : p.translator.failure with
    | some f =>
      obtain rfl : chunk = .failed [] f := by simpa [ready, flowing] using running.symm
      exact .inr ⟨[], by simp [Intake.chunk, flowing]⟩
    | none =>
      cases unbroken : p.broken with
      | some e =>
        obtain rfl : chunk = .broken [] e := by simpa [ready, flowing, unbroken] using running.symm
        exact .inr ⟨[], by simp [Intake.chunk, flowing, unbroken]⟩
      | none =>
        obtain ⟨atEnd, rfl⟩ : p.endedOrStopped = true ∧ .done = chunk := by
          simpa [ready, flowing, unbroken] using running
        exact .inl ⟨rfl, Intake.refusal_eq_none_iff.2 ⟨flowing, unbroken⟩, atEnd⟩
  | none =>
    obtain ⟨calm, -⟩ := ready_none.1 running
    right
    rcases arrives : p.bytes with _ | ⟨e | chunk, rest⟩
    · rw [next_end x running arrives, closeStream_eq calm]
      exact ⟨_, rfl⟩
    · have flowing := (Intake.halted_eq_false_iff.1 calm).1
      rw [next_error x running arrives]
      exact ⟨[], by simp [Intake.chunk, flowing]⟩
    · obtain ⟨decoder, taken, -⟩ := next_chunk x running arrives
      rw [taken]
      exact ⟨_, rfl⟩

theorem next_reports (p : Pump) :
    match (p.next x).2 with
    | .events _ => (p.next x).1.toIntake.refusal = none
    | .failed _ f => (p.next x).1.toIntake.refusal = some (.failed f)
    | .broken _ e => (p.next x).1.toIntake.refusal = some (.broken e)
    | .done => (p.next x).1 = p ∧ p.toIntake.refusal = none ∧ p.endedOrStopped = true := by
  obtain ⟨returns, unrefused, atEnd⟩ | ⟨out, returns⟩ := next_result x p
  · rw [returns]
    exact ⟨rfl, unrefused, atEnd⟩
  · rw [returns, Intake.chunk_eq]
    cases refused : (p.next x).1.toIntake.refusal with
    | none => rfl
    | some refusal => cases refusal <;> rfl

theorem remaining_of_refusal {p : Pump} (refused : p.toIntake.refusal ≠ none) :
    p.remaining x = (p.toIntake, []) := by
  apply remaining_of_ready
  intro running
  have halted := Intake.halted_of_refusal refused
  simp [(ready_none.1 running).1] at halted

theorem remaining_of_over {p : Pump} (atEnd : p.endedOrStopped = true) : p.remaining x = (p.toIntake, []) := by
  apply remaining_of_ready
  intro running
  obtain ⟨calm, going⟩ := ready_none.1 running
  simp [endedOrStopped, going, (Intake.halted_eq_false_iff.1 calm).2.1] at atEnd

def Foretells (streaming : Bool) (p after : Pump) : Primed → Prop
  | .ready first =>
    streaming = true ∧ first ≠ [] ∧
      p.remaining x = ((after.remaining x).1, first ++ (after.remaining x).2)
  | .ended first =>
    after.toIntake.refusal = none ∧ after.endedOrStopped = true ∧ (p.remaining x).1 = after.toIntake ∧
      (streaming = true → (p.remaining x).2 = first)
  | .failed f => (p.remaining x).1.refusal = some (.failed f) ∧ (streaming = true → (p.remaining x).2 = [])
  | .broken e => (p.remaining x).1.refusal = some (.broken e) ∧ (streaming = true → (p.remaining x).2 = [])

theorem Foretells.of_later {streaming : Bool} {p later after : Pump} {primed : Primed}
    (foretold : Foretells x streaming later after primed) (leads : (p.remaining x).1 = (later.remaining x).1)
    (silent : streaming = true → p.remaining x = later.remaining x) :
    Foretells x streaming p after primed := by
  cases primed with
  | ready first =>
    obtain ⟨streams, emitted, parts⟩ := foretold
    exact ⟨streams, emitted, (silent streams).trans parts⟩
  | ended first =>
    obtain ⟨unrefused, atEnd, last, shown⟩ := foretold
    exact ⟨unrefused, atEnd, leads.trans last, fun streams => by rw [silent streams, shown streams]⟩
  | failed f => exact ⟨by rw [leads, foretold.1], fun streams => by rw [silent streams, foretold.2 streams]⟩
  | broken e => exact ⟨by rw [leads, foretold.1], fun streams => by rw [silent streams, foretold.2 streams]⟩

theorem prime_foretells (streaming : Bool) (expires : Nat → Bool) (turn : Nat) (p : Pump) :
    let run := p.prime x streaming expires turn []
    (run.2.1 = .broken primingTimeout ∧ ∃ late, expires late = true) ∨ Foretells x streaming p run.1 run.2.1 := by
  -- A turn that goes around has read a chunk, so the body gets shorter.
  induction size : p.bytes.length using Nat.strongRecOn generalizing turn p with
  | _ n ih =>
    subst size
    have remains := next_remaining x p
    have reports := next_reports x p
    rw [prime]
    split
    -- The timeout drops `next` before it has changed anything.
    next late => exact .inl ⟨rfl, turn, late.2.1⟩
    next =>
      split
      next ev returns =>
        rw [returns] at remains reports
        cases atEnd : (p.next x).1.endedOrStopped with
        | true =>
          have last := remaining_of_over x atEnd
          right
          cases streaming <;> simp_all [Foretells, Chunk.out]
        | false =>
          by_cases starts : streaming = true ∧ ev ≠ []
          · right
            simp_all [Foretells, Chunk.out]
          · -- Nothing is buffered, and the loop goes around again.
            have nothing : (if streaming = true then [] ++ ev else []) = [] := by
              cases streaming <;> simp_all
            have later := ih _ (next_shrinks x returns atEnd) (turn + 1) (p.next x).1 rfl
            simp only [nothing, atEnd, ne_eq, not_true_eq_false, and_false, if_false, dite_false,
              Bool.false_eq_true]
            refine later.imp_right fun foretold => ?_
            apply foretold.of_later
            · rw [remains]
            · intro streams
              have quiet : ev = [] := by simpa [streams] using starts
              rw [remains, quiet]
              rfl
      next ev f returns =>
        rw [returns] at remains reports
        have atEnd := remaining_of_refusal x (p := (p.next x).1) (by rw [reports]; simp)
        right
        cases streaming <;> by_cases empty : ev = [] <;> simp_all [Foretells, Chunk.out]
      next ev e returns =>
        rw [returns] at remains reports
        have atEnd := remaining_of_refusal x (p := (p.next x).1) (by rw [reports]; simp)
        right
        cases streaming <;> by_cases empty : ev = [] <;> simp_all [Foretells, Chunk.out]
      next returns =>
        rw [returns] at remains reports
        obtain ⟨same, unrefused, atEnd⟩ := reports
        have last := remaining_of_over x atEnd
        right
        simp_all [Foretells]

end Pump

end KiroTrust.Server
