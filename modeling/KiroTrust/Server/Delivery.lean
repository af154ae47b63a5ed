import KiroTrust.Server.Messages
import KiroTrust.Translate.StreamShape

set_option autoImplicit false

namespace KiroTrust.Server

open Emitter EventStream Translate

/-! A streaming response ends in exactly one way. -/

/-- A stream that may still go on: `message_start`, whole blocks, and at most one open block. -/
def PrefixWellFormed (events : List StreamEvent) : Prop :=
  ∃ message blocks, events = .messageStart message :: renderBlocks wrap 0 blocks ∨
    ∃ last : Block, events = .messageStart message :: renderBlocks wrap 0 blocks ++
      opening (wrap blocks.length) last.start last.deltas

/-- One terminal, and nothing after it: the end of a message, or one error. -/
def EndsOnce (events : List StreamEvent) : Prop :=
  ResponseTranslator.Complete events ∨
    ∃ front error, PrefixWellFormed front ∧ events = front ++ [.error error]

theorem prefixWellFormed_of_begun {t : ResponseTranslator} {out : List StreamEvent} (begun : t.Begun out) :
    PrefixWellFormed out := by
  cases begun with
  | inl between =>
    obtain ⟨message, blocks, -, emitted⟩ := between
    exact ⟨message, blocks, .inl emitted⟩
  | inr inside =>
    obtain ⟨kind, message, blocks, deltas, -, fits, emitted⟩ := inside
    exact ⟨message, blocks, .inr ⟨⟨_, deltas, fits⟩, emitted⟩⟩

structure Flowing (t : ResponseTranslator) (out : List StreamEvent) : Prop where
  streamed : t.Streamed out
  limited : t.Limited
  stops : t.finished = true → t.stopped = true
  fails : t.failure.isSome = true → t.finished = false

theorem Flowing.unfinished {t : ResponseTranslator} {out : List StreamEvent} (flowing : Flowing t out)
    (running : t.stopped = false) : t.finished = false := by
  by_contra finished
  have stopped := flowing.stops (by simpa using finished)
  simp [running] at stopped

theorem Flowing.running {t : ResponseTranslator} {out : List StreamEvent} (flowing : Flowing t out)
    (unfinished : t.finished = false) : t.stopped = false := by
  simp [ResponseTranslator.stopped, (flowing.limited unfinished).1]

theorem push_flowing {t : ResponseTranslator} {out : List StreamEvent} (flowing : Flowing t out)
    (calm : haltsPushing t = false) (ev : Event) : Flowing (t.push ev).1 (out ++ (t.push ev).2) := by
  obtain ⟨working, running⟩ := haltsPushing_eq_false_iff.1 calm
  have unfinished := flowing.unfinished running
  have streamed := ResponseTranslator.call_ended ResponseTranslator.streamed_rules (.push ev) t out
    flowing.streamed
  have limited := ResponseTranslator.call_limited flowing.limited (.push ev)
  refine ⟨streamed, limited, ResponseTranslator.push_finished unfinished ev, fun failed => ?_⟩
  obtain same | ⟨failure, -, pushed⟩ := t.push_failure ev
  · simp [same, working] at failed
  · simpa [pushed] using unfinished

theorem accept_flowing (ev : Event) : Preserves Flowing (fun t => accept t ev) := by
  intro t out flowing
  cases halts : haltsPushing t with
  | true => simpa [accept, halts] using flowing
  | false => simpa [accept, halts] using push_flowing flowing halts ev

namespace Intake

structure Sound (s : Intake) (out : List StreamEvent) : Prop where
  flowing : Flowing s.translator out
  breaks : s.broken.isSome = true → s.translator.finished = false

theorem Sound.unfinished {s : Intake} {out : List StreamEvent} (sound : s.Sound out)
    (running : s.halted = false) : s.translator.finished = false :=
  sound.flowing.unfinished (halted_eq_false_iff.1 running).2.1

theorem Sound.unfinished_of_refusal {s : Intake} {out : List StreamEvent} (sound : s.Sound out)
    (refused : s.refusal ≠ none) : s.translator.finished = false := by
  cases failed : s.translator.failure with
  | some f => exact sound.flowing.fails (by simp [failed])
  | none =>
    have broken : s.broken ≠ none := by simpa [refusal, failed] using refused
    exact sound.breaks (Option.isSome_iff_ne_none.2 broken)

variable (x : Externals)

theorem absorb_sound (reading : Except FrameError Frame) : Preserves Sound (fun s => s.absorb x reading) := by
  intro s out sound
  cases running : s.halted with
  | true => simpa [absorb, running] using sound
  | false =>
    have unfinished := sound.unfinished running
    cases reading with
    | error e => simpa [absorb, running] using ⟨sound.flowing, fun _ => unfinished⟩
    | ok frame =>
      rcases parsed : s.parser.parse x.serde x.uuid frame with ⟨parser, e | events⟩
      · simp only [absorb_badFrame x running parsed, List.append_nil]
        exact ⟨sound.flowing, fun _ => unfinished⟩
      · have pushed := Preserves.runAll accept_flowing events s.translator out sound.flowing
        simp only [absorb_frame x running parsed]
        refine ⟨pushed, fun broken => ?_⟩
        simp [(halted_eq_false_iff.1 running).2.2] at broken

structure Concluded (s : Intake) (out : List StreamEvent) : Prop where
  streamed : s.translator.Streamed out
  finishes : s.translator.finished = s.refusal.isNone

theorem Sound.concluded {s : Intake} {out : List StreamEvent} (sound : s.Sound out)
    (halted : s.halted = true) : s.Concluded out := by
  refine ⟨sound.flowing.streamed, ?_⟩
  cases refused : s.refusal with
  | some refusal => simpa using sound.unfinished_of_refusal (by simp [refused])
  | none =>
    -- A translator that still runs without a refusal would not be halted.
    by_contra unfinished
    have running := sound.flowing.running (by simpa using unfinished)
    obtain ⟨unfailed, unbroken⟩ := refusal_eq_none_iff.1 refused
    have calm := halted_eq_false_iff.2 ⟨unfailed, running, unbroken⟩
    simp [calm] at halted

theorem Sound.conclude {s : Intake} {out : List StreamEvent} (sound : s.Sound out)
    (running : s.halted = false) (unread : List UInt8) :
    (s.conclude unread).1.Concluded (out ++ (s.conclude unread).2) := by
  have unfinished := sound.unfinished running
  have kept := s.conclude_failure unread
  have flags := refusal_eq_none_iff.1 (refusal_of_running running)
  by_cases atEnd : unread = []
  · simp only [Intake.conclude, atEnd, if_true] at kept ⊢
    have pushed : Preserves ResponseTranslator.Streamed fun t =>
        runAll ResponseTranslator.push t s.parser.finish.2.toList :=
      Preserves.runAll (fun ev => ResponseTranslator.call_ended ResponseTranslator.streamed_rules (.push ev)) _
    have finished := ResponseTranslator.call_ended ResponseTranslator.streamed_rules .finish
    have streamed := pushed.seq finished s.translator out sound.flowing.streamed
    refine ⟨streamed, ?_⟩
    simp [refusal, kept, flags, ResponseTranslator.finish_finished]
  · simp only [Intake.conclude, atEnd, if_false, List.append_nil]
    exact ⟨sound.flowing.streamed, by simp [refusal, flags, unfinished]⟩

theorem conclude_refused {s : Intake} (running : s.halted = false) (unread : List UInt8)
    (refused : (s.conclude unread).1.refusal ≠ none) : (s.conclude unread).2 = [] := by
  have kept := s.conclude_failure unread
  have flags := refusal_eq_none_iff.1 (refusal_of_running running)
  by_cases atEnd : unread = []
  · simp only [Intake.conclude, atEnd, if_true] at kept refused
    simp [refusal, kept, flags] at refused
  · simp [Intake.conclude, atEnd]

end Intake

variable (x : Externals)

theorem remaining_concluded {s : Tap} {out : List StreamEvent} (sound : s.2.Sound out)
    (bytes : List (Except UpstreamError (List UInt8))) :
    (remaining x s bytes).1.Concluded (out ++ (remaining x s bytes).2) := by
  induction bytes generalizing s out with
  | nil =>
    cases running : s.2.halted with
    | true => simpa [remaining, running] using sound.concluded running
    | false => simpa [remaining, running] using sound.conclude running s.1.rest
  | cons item rest ih =>
    cases item with
    | error e =>
      cases running : s.2.halted with
      | true => simpa [remaining, running] using sound.concluded running
      | false =>
        have unfinished := sound.unfinished running
        have flowing := (Intake.halted_eq_false_iff.1 running).1
        simp only [remaining, running, Bool.false_eq_true, if_false, List.append_nil]
        exact ⟨sound.flowing.streamed, by simp [Intake.refusal, flowing, unfinished]⟩
    | ok chunk =>
      have fed := Preserves.runAll (Intake.absorb_sound x)
        (Chunked.Decoder.readings ((frameReader x.crc).feed s.1 chunk)) s.2 out sound
      have later := ih (s := ((frameReader x.crc).pipe (Intake.absorb x) s chunk).1) fed
      simpa [remaining, Chunked.Decoder.pipe] using later

namespace Pump

theorem new_sound (bytes : List (Except UpstreamError (List UInt8))) (opts : ResponseOptions) :
    (new bytes opts).toIntake.Sound [] where
  flowing :=
    { streamed := ResponseTranslator.new_streamed opts
      limited := fun _ => ResponseTranslator.new_open opts
      stops := fun finished => by cases finished
      fails := fun failed => by cases failed }
  breaks := fun broken => by cases broken

theorem next_sound {p : Pump} {out : List StreamEvent} (going : p.ended = false) (sound : p.toIntake.Sound out) :
    (p.next x).1.ended = false ∧ (p.next x).1.toIntake.Sound (out ++ (p.next x).2.out) ∨
      (p.next x).1.ended = true ∧ ((p.next x).1.toIntake.refusal ≠ none → (p.next x).2.out = []) := by
  cases running : p.ready with
  | some chunk =>
    have nothing := ready_out running
    left
    simpa [next, running, nothing] using ⟨going, sound⟩
  | none =>
    obtain ⟨calm, -⟩ := ready_none.1 running
    rcases arrives : p.bytes with _ | ⟨e | chunk, rest⟩
    · right
      have failing := Intake.conclude_refused calm p.decoder.unread
      rw [next_end x running arrives, closeStream_eq calm]
      simpa using failing
    · left
      have unfinished := sound.unfinished calm
      rw [next_error x running arrives]
      simpa [Chunk.out, going] using ⟨sound.flowing, fun _ => unfinished⟩
    · left
      obtain ⟨decoder, taken, -⟩ := next_chunk x running arrives
      have fed := Preserves.runAll (Intake.absorb_sound x) (p.decoder.feed x.crc chunk).2 p.toIntake out sound
      rw [taken]
      simpa [going] using fed

theorem prime_going (streaming : Bool) (expires : Nat → Bool) (turn : Nat) {p : Pump}
    {out first : List StreamEvent} (going : p.ended = false) (sound : p.toIntake.Sound out)
    (ready : (p.prime x streaming expires turn []).2.1 = .ready first) :
    (p.prime x streaming expires turn []).1.endedOrStopped = false := by
  induction size : p.bytes.length using Nat.strongRecOn generalizing turn p out with
  | _ n ih =>
    subst size
    have after := next_sound x going sound
    have reports := next_reports x p
    -- An error that comes with events comes before the body has ended.
    have refuses {refusal : Refusal} (emitted : (p.next x).2.out ≠ [])
        (refused : (p.next x).1.toIntake.refusal = some refusal) : (p.next x).1.endedOrStopped = false := by
      obtain ⟨still, sound⟩ | ⟨-, silent⟩ := after
      · have unfinished := sound.unfinished_of_refusal (by simp [refused])
        simp [endedOrStopped, still, sound.flowing.running unfinished]
      · exact (emitted (silent (by simp [refused]))).elim
    revert ready
    rw [prime]
    split
    next => simp
    next =>
      split
      next ev returns =>
        intro ready
        cases atEnd : (p.next x).1.endedOrStopped with
        | true => simp [atEnd] at ready
        | false =>
          by_cases starts : streaming = true ∧ ev ≠ []
          · simp_all
          · have nothing : (if streaming = true then [] ++ ev else []) = [] := by
              cases streaming <;> simp_all
            simp only [nothing, atEnd, ne_eq, not_true_eq_false, and_false, if_false, dite_false,
              Bool.false_eq_true] at ready ⊢
            obtain ⟨still, sound⟩ | ⟨ended, -⟩ := after
            · exact ih _ (next_shrinks x returns atEnd) (turn + 1) still sound ready rfl
            · simp [endedOrStopped, ended] at atEnd
      next ev f returns =>
        rw [returns] at reports refuses
        by_cases shown : streaming = true ∧ ev ≠ []
        · have atEnd := refuses shown.2 reports
          simp [shown, atEnd]
        · cases streaming <;> simp_all
      next ev e returns =>
        rw [returns] at reports refuses
        by_cases shown : streaming = true ∧ ev ≠ []
        · have atEnd := refuses shown.2 reports
          simp [shown, atEnd]
        · cases streaming <;> simp_all
      next returns => simp

end Pump

theorem respond_stream {expires : Nat → Bool} {bytes : List (Except UpstreamError (List UInt8))}
    {opts : ResponseOptions} {body : Body}
    (streams : respond x true expires (Pump.new bytes opts) = .ok (.stream body)) :
    body.remaining x = Body.left x (Pump.new bytes opts) ∧
      (((Pump.new bytes opts).remaining x).1.refusal ≠ none → ((Pump.new bytes opts).remaining x).2 ≠ []) ∧
      ∃ first, body.initial = some first ∧ body.finished = false ∧
        ∀ refusal, body.pump.toIntake.refusal = some refusal →
          body.remaining x = first ++ [sseError refusal.error] := by
  have foretells := Pump.prime_foretells x true expires 0 (Pump.new bytes opts)
  have going (first : List StreamEvent) := fun ready : _ = Primed.ready first =>
    Pump.prime_going x true expires 0 rfl (Pump.new_sound bytes opts) ready
  rcases primed : (Pump.new bytes opts).prime x true expires 0 [] with ⟨after, outcome, seen⟩
  simp only [respond, primed] at streams foretells going
  cases outcome with
  | ready first =>
    cases streams
    obtain ⟨⟨⟩, -⟩ | ⟨-, emitted, parts⟩ := foretells
    have running := going first rfl
    have whole : (streamResponse first after).remaining x = first ++ Body.left x after := by
      simp [Body.remaining, streamResponse, running]
    refine ⟨?_, ?_, first, rfl, rfl, ?_⟩
    · simp [whole, Body.left, parts]
    · simp [parts, emitted]
    · intro refusal refused
      rw [whole, Body.left_refused x (p := after) refused]
  | ended first =>
    cases streams
    obtain ⟨⟨⟩, -⟩ | ⟨unrefused, atEnd, last, shown⟩ := foretells
    refine ⟨?_, ?_, first, rfl, rfl, ?_⟩
    · simp [Body.remaining, streamResponse, atEnd, Body.left, last, shown, Body.ending, unrefused]
    · simp [last, unrefused]
    · simp [streamResponse, unrefused]
  | failed f => cases streams
  | broken e => cases streams

theorem respond_message {expires : Nat → Bool} {p : Pump} {folded : Except Refusal OutMessage} :
    respond x true expires p ≠ .ok (.message folded) := by
  unfold respond
  simp only [if_true]
  split <;> simp

theorem left_endsOnce {bytes : List (Except UpstreamError (List UInt8))} {opts : ResponseOptions}
    (emits : ((Pump.new bytes opts).remaining x).1.refusal ≠ none →
      ((Pump.new bytes opts).remaining x).2 ≠ []) :
    EndsOnce (Body.left x (Pump.new bytes opts)) := by
  have concluded := remaining_concluded x (s := (Pump.new bytes opts).tap) (Pump.new_sound bytes opts) bytes
  have same : (Pump.new bytes opts).remaining x = remaining x (Pump.new bytes opts).tap bytes := rfl
  rw [← same, List.nil_append] at concluded
  have streamed := concluded.streamed
  cases refused : ((Pump.new bytes opts).remaining x).1.refusal with
  | none =>
    -- Not refused: the translator has finished, and its stream is complete.
    have finished := concluded.finishes
    simp only [refused, Option.isNone_none] at finished
    simp only [ResponseTranslator.Streamed, ResponseTranslator.Ended, finished, if_true] at streamed
    left
    simpa [Body.left, Body.ending, refused] using streamed.1
  | some refusal =>
    -- Refused: what was shown is a front of a stream, and the error ends it.
    have unfinished := concluded.finishes
    simp only [refused, Option.isNone_some] at unfinished
    simp only [ResponseTranslator.Streamed, ResponseTranslator.Ended, unfinished] at streamed
    have begun := streamed.begun (emits (by simp [refused]))
    right
    exact ⟨_, _, prefixWellFormed_of_begun begun, by simp [Body.left, Body.ending, refused]; rfl⟩

theorem postMessages_stream (generate : Bool → Except UpstreamError Attempt) (replayed : Bool) :
    (∃ error, postMessages x true generate replayed = .error error) ∨
      ∃ (attempt : Attempt) (body : Body), postMessages x true generate replayed = .stream body ∧
        respond x true attempt.expires (Pump.new attempt.bytes attempt.opts) = .ok (.stream body) := by
  -- The loop replays at most once.
  induction replays : (!replayed).toNat using Nat.strongRecOn generalizing replayed with
  | _ n ih =>
    subst replays
    rw [postMessages]
    cases generate replayed with
    | error e => exact .inl ⟨_, rfl⟩
    | ok attempt =>
      simp only
      split
      next body streams => exact .inr ⟨attempt, body, rfl, streams⟩
      next streams => exact (respond_message x streams).elim
      next streams => exact (respond_message x streams).elim
      next refusal refused =>
        split
        next again => exact ih _ (by simp [again.1]) true rfl
        next => exact .inl ⟨_, rfl⟩

/-- Each streaming response is an error without an event, or a body that ends in exactly one way:
whatever the polls and their keep-alives, it hands out the same events, and it ends only after all of them. -/
theorem streaming_response_ends_once (generate : Bool → Except UpstreamError Attempt) :
    (∃ error, postMessages x true generate false = .error error) ∨
      ∃ body first whole, postMessages x true generate false = .stream body ∧ EndsOnce whole ∧
        body.initial = some first ∧ first <+: whole ∧
        (∀ refusal, body.pump.toIntake.refusal = some refusal → whole = first ++ [sseError refusal.error]) ∧
        ∀ schedule : List Bool,
          let run := runAll (Body.step x) body schedule
          (∃ later, whole = Body.shown run.2 ++ later ∧ (run.1.finished = true → later = [])) ∧
            (body.size ≤ schedule.count false → run.1.finished = true) := by
  obtain error | ⟨attempt, body, streams, responds⟩ := postMessages_stream x generate false
  · exact .inl error
  · obtain ⟨whole, emits, first, initial, unfinished, surfaced⟩ := respond_stream x responds
    have once := left_endsOnce x emits
    rw [← whole] at once
    refine .inr ⟨body, first, body.remaining x, streams, once, initial, ?_, surfaced, fun schedule => ?_⟩
    · cases atEnd : body.pump.endedOrStopped <;> simp [Body.remaining, unfinished, initial, atEnd]
    · have remains := Body.run_remaining x body schedule
      have shrinks := Body.run_size x body schedule
      refine ⟨⟨_, remains, fun finished => by simp [Body.remaining, finished]⟩, fun enough => ?_⟩
      rw [← Body.size_zero]
      omega

end KiroTrust.Server
