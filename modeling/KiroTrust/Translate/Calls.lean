import KiroTrust.Translate.Accumulation

set_option autoImplicit false

namespace KiroTrust.Translate.ResponseTranslator

/-! A rule for `push`: what its parts keep until a local stop finishes the stream. -/

open Emitter

/-- `Start` holds between calls of a running translator, `Mid` inside one, `After` when it returns. -/
structure PushRules (Start Mid After : ResponseTranslator → List StreamEvent → Prop) : Prop where
  parsed : ∀ delta t out, Start t out → Start (t.parseTags delta).1 out
  signed : ∀ signature t out, Start t out → Start (t.takeSignature signature) out
  counted : ∀ uncached output cacheRead cacheWrite t out, Start t out →
    Start (t.takeMetadata uncached output cacheRead cacheWrite) out
  metered : ∀ input output t out, Start t out → Start (t.takeMetering input output) out
  failed : ∀ failure t out, Start t out → Start { t with failure := failure } out
  enters : ∀ t out, Start t out → Mid t out
  thinking : ∀ thought, Preserves Mid (deliverThinking thought)
  text : ∀ textOut, Preserves Mid (deliverText textOut)
  signature : ∀ signature, Preserves Mid (emitSignature signature)
  redacted : ∀ data, Preserves Mid (deliverRedacted data)
  toolUse : ∀ toolUseId name input, Preserves Mid (deliverToolUse toolUseId name input)
  stays : ∀ t out, Start t out → After t out
  settles : ∀ t out, t.localStop = none → Mid t out → After t out
  finishes : Triple Mid finish After

namespace PushRules

variable {Start Mid After : ResponseTranslator → List StreamEvent → Prop} (rules : PushRules Start Mid After)

include rules

theorem idle {t : ResponseTranslator} {out : List StreamEvent} (start : Start t out) : After t (out ++ []) := by
  rw [List.append_nil]
  exact rules.stays t out start

theorem finishIfStopped : Triple Mid finishIfStopped After := by
  intro t out mid
  unfold ResponseTranslator.finishIfStopped
  split
  · exact rules.finishes t out mid
  next running =>
    rw [List.append_nil]
    exact rules.settles t out (by simpa using running) mid

theorem reasoning (text : Str) : Preserves Mid (deliverReasoning text) := by
  intro t out mid
  unfold deliverReasoning
  split
  · exact rules.thinking text t out mid
  · simpa using mid

theorem pushAssistantResponse (content : Str) : Triple Start (pushAssistantResponse content) After := by
  intro t out start
  simp only [ResponseTranslator.pushAssistantResponse]
  split
  · exact rules.idle start
  · have parsed := rules.enters _ out (rules.parsed content t out start)
    exact (rules.thinking _).seq ((rules.text _).seq rules.finishIfStopped) _ out parsed

theorem pushReasoningContent (text : Str) (signature redactedContent : Option Str) :
    Triple Start (pushReasoningContent text signature redactedContent) After := by
  intro t out start
  have signed := rules.signed signature t out start
  have mid := rules.enters _ out signed
  cases redactedContent with
  | some data => exact (rules.redacted data).seq rules.finishIfStopped _ out mid
  | none =>
    simp only [ResponseTranslator.pushReasoningContent]
    split
    · exact rules.idle signed
    · exact (rules.reasoning text).seq ((rules.signature signature).seq rules.finishIfStopped) _ out mid

theorem pushToolUse (toolUseId name input : Str) : Triple Start (pushToolUse toolUseId name input) After := by
  intro t out start
  simp only [ResponseTranslator.pushToolUse]
  split
  · exact rules.idle start
  · exact (rules.toolUse toolUseId name input).seq rules.finishIfStopped t out (rules.enters t out start)

theorem push (ev : Event) : Triple Start (fun t => t.push ev) After := by
  intro t out start
  simp only [ResponseTranslator.push]
  split
  · exact rules.idle start
  · cases ev with
    | assistantResponse content => exact rules.pushAssistantResponse content t out start
    | reasoningContent text signature redacted =>
      exact rules.pushReasoningContent text signature redacted t out start
    | toolUse toolUseId name input => exact rules.pushToolUse toolUseId name input t out start
    | metadata uncached output total cacheRead cacheWrite =>
      exact rules.idle (rules.counted uncached output cacheRead cacheWrite t out start)
    | metering credits input output => exact rules.idle (rules.metered input output t out start)
    | invalidState reason message | exception exceptionType message =>
      exact rules.idle (rules.failed _ t out start)
    | ignored eventType => exact rules.idle start

end PushRules

inductive Call where
  | push (ev : Event)
  | finish

def call (t : ResponseTranslator) : Call → ResponseTranslator × List StreamEvent
  | .push ev => t.push ev
  | .finish => t.finish

theorem call_finished {t : ResponseTranslator} (finished : t.finished = true) (input : Call) :
    t.call input = (t, []) := by
  cases input <;> simp [call, push, finish, finished]

theorem runAll_call_finished {t : ResponseTranslator} (finished : t.finished = true) (calls : List Call) :
    runAll call t calls = (t, []) := by
  induction calls with
  | nil => rfl
  | cons input rest ih => simp [runAll_cons, call_finished finished, ih]

theorem finished_after_finish (opts : ResponseOptions) (events : List Event) (later : List Call) :
    (runAll call (new opts) (events.map .push ++ .finish :: later)).1.finished = true := by
  have ended (t : ResponseTranslator) : (t.call .finish).1.finished = true := finish_finished t
  rw [runAll_append, runAll_cons]
  simp only [runAll_call_finished (ended _), ended]

def Ended (Running Final : ResponseTranslator → List StreamEvent → Prop) (t : ResponseTranslator)
    (out : List StreamEvent) : Prop :=
  if t.finished then Final t out else Running t out

theorem call_ended {Running Mid Final : ResponseTranslator → List StreamEvent → Prop}
    (rules : PushRules (fun t out => t.finished = false ∧ Running t out) Mid (Ended Running Final))
    (input : Call) : Preserves (Ended Running Final) (fun t => t.call input) := by
  intro t out ended
  cases finished : t.finished with
  | true => simpa [call_finished finished] using ended
  | false =>
    have start : t.finished = false ∧ Running t out := ⟨finished, by simpa [Ended, finished] using ended⟩
    cases input with
    | push ev => exact rules.push ev t out start
    | finish => exact rules.finishes t out (rules.enters t out start)

def unbooked (t : ResponseTranslator) : ResponseTranslator :=
  { t with
    signature := none
    hasMetadata := false
    inputTokens := 0
    outputTokens := 0
    cacheRead := 0
    cacheWrite := 0
    tagInside := false
    tagBuf := []
    suppressReasoning := false
    failure := none }

theorem parseTags_unbooked (t : ResponseTranslator) (delta : Str) :
    (t.parseTags delta).1.unbooked = t.unbooked :=
  (congrArg unbooked (parseTags_eq t delta) :)

theorem takeMetadata_unbooked (uncached output cacheRead cacheWrite : Nat) (t : ResponseTranslator) :
    (t.takeMetadata uncached output cacheRead cacheWrite).unbooked = t.unbooked := by
  simp only [takeMetadata]
  split <;> rfl

theorem takeMetering_unbooked (input output : Nat) (t : ResponseTranslator) :
    (t.takeMetering input output).unbooked = t.unbooked := by
  simp only [takeMetering]
  split <;> rfl

theorem KeepsFrame.running {change : ResponseTranslator → ResponseTranslator × List StreamEvent}
    {Mid : ResponseTranslator → List StreamEvent → Prop} (keepsFrame : KeepsFrame change)
    (keeps : Preserves Mid change) : Preserves (fun t out => t.finished = false ∧ Mid t out) change := by
  intro t out running
  exact ⟨(keepsFrame.finished t).trans running.1, keeps t out running.2⟩

theorem PushRules.ofParts {Running Mid Final : ResponseTranslator → List StreamEvent → Prop}
    (books : ∀ t out, Running t out ↔ Running t.unbooked out) (enters : ∀ t out, Running t out → Mid t out)
    (thinking : ∀ thought, Preserves Mid (deliverThinking thought))
    (text : ∀ textOut, Preserves Mid (deliverText textOut))
    (signature : ∀ signature, Preserves Mid (emitSignature signature))
    (redacted : ∀ data, Preserves Mid (deliverRedacted data))
    (toolUse : ∀ toolUseId name input, Preserves Mid (deliverToolUse toolUseId name input))
    (settles : ∀ t out, t.localStop = none → Mid t out → Running t out)
    (finishes : ∀ t out, t.finished = false → Mid t out → Final t.finish.1 (out ++ t.finish.2)) :
    PushRules (fun t out => t.finished = false ∧ Running t out) (fun t out => t.finished = false ∧ Mid t out)
      (Ended Running Final) where
  parsed delta t out start := by
    refine ⟨(congrArg finished (parseTags_eq t delta)).trans start.1, ?_⟩
    rw [books, parseTags_unbooked, ← books]
    exact start.2
  signed signature t out start := ⟨start.1, (books _ out).2 ((books t out).1 start.2)⟩
  counted uncached output cacheRead cacheWrite t out start := by
    have same := takeMetadata_unbooked uncached output cacheRead cacheWrite t
    refine ⟨(congrArg finished same :).trans start.1, ?_⟩
    rw [books, same, ← books]
    exact start.2
  metered input output t out start := by
    have same := takeMetering_unbooked input output t
    refine ⟨(congrArg finished same :).trans start.1, ?_⟩
    rw [books, same, ← books]
    exact start.2
  failed failure t out start := ⟨start.1, (books _ out).2 ((books t out).1 start.2)⟩
  enters t out start := ⟨start.1, enters t out start.2⟩
  thinking thought := (deliverThinking_frame thought).running (thinking thought)
  text textOut := (deliverText_frame textOut).running (text textOut)
  signature sig := (emitSignature_content sig).frame.running (signature sig)
  redacted data := (deliverRedacted_frame data).running (redacted data)
  toolUse toolUseId name input :=
    (deliverToolUse_frame toolUseId name input).running (toolUse toolUseId name input)
  stays t out start := by simpa [Ended, start.1] using start.2
  settles t out running mid := by simpa [Ended, mid.1] using settles t out running mid.2
  finishes t out mid := by simpa [Ended, finish_finished] using finishes t out mid.1 mid.2

theorem call_running {Running Mid : ResponseTranslator → Prop}
    (books : ∀ t, Running t ↔ Running t.unbooked) (enters : ∀ t, Running t → Mid t)
    (thinking : ∀ thought {t}, Mid t → Mid (deliverThinking thought t).1)
    (text : ∀ textOut {t}, Mid t → Mid (deliverText textOut t).1)
    (redacted : ∀ data {t}, Mid t → Mid (deliverRedacted data t).1)
    (toolUse : ∀ toolUseId name input {t}, Mid t → Mid (deliverToolUse toolUseId name input t).1)
    (settles : ∀ t, t.localStop = none → Mid t → Running t) {t : ResponseTranslator}
    (holds : t.finished = false → Running t) (input : Call) (running : (t.call input).1.finished = false) :
    Running (t.call input).1 := by
  -- A delivery that latches a stop may break the invariant: `finish` follows, and it is not
  -- claimed there.
  have signature (sig : Option Str) : Preserves (fun t _ => Mid t) (emitSignature sig) := by
    intro t _ mid
    rw [emitSignature_fst]
    exact mid
  have rules : PushRules (fun t _ => t.finished = false ∧ Running t) (fun t _ => t.finished = false ∧ Mid t)
      (Ended (fun t _ => Running t) fun _ _ => True) :=
    .ofParts (fun t _ => books t) (fun t _ => enters t) (fun thought _ _ => thinking thought)
      (fun textOut _ _ => text textOut) signature (fun data _ _ => redacted data)
      (fun toolUseId name input _ _ => toolUse toolUseId name input) (fun t _ => settles t) fun _ _ _ _ => trivial
  have ended : Ended (fun t _ => Running t) (fun _ _ => True) t [] := by
    cases finished : t.finished <;> simp [Ended, finished, holds]
  simpa [Ended, running] using call_ended rules input t [] ended

def reportedFailure : Event → Option Failure
  | .invalidState reason message => some ⟨.invalidState reason, message⟩
  | .exception exceptionType message => some ⟨.exception exceptionType, message⟩
  | _ => none

structure Flags where
  failure : Option Failure
  finished : Bool

def flags (t : ResponseTranslator) : Flags := ⟨t.failure, t.finished⟩

theorem push_cases (t : ResponseTranslator) (ev : Event) :
    (∃ failure, reportedFailure ev = some failure ∧ t.push ev = ({ t with failure := some failure }, [])) ∨
      (t.push ev).1.flags = t.flags ∨
      ∃ parts start, KeepsFrame parts ∧ start.flags = t.flags ∧ t.push ev = seq parts finishIfStopped start := by
  simp only [push]
  split
  · exact .inr (.inl rfl)
  · cases ev with
    | assistantResponse content =>
      simp only [pushAssistantResponse]
      split
      · exact .inr (.inl rfl)
      · have parsed : (t.parseTags content).1.flags = t.flags := by
          unfold parseTags
          split <;> rfl
        have parts := (deliverThinking_frame (t.parseTags content).2.2).seq
          (deliverText_frame (t.parseTags content).2.1)
        exact .inr (.inr ⟨_, _, parts, parsed, by simp [seq]⟩)
    | reasoningContent text signature redacted =>
      cases redacted with
      | some data => exact .inr (.inr ⟨_, takeSignature signature t, deliverRedacted_frame data, rfl, rfl⟩)
      | none =>
        simp only [pushReasoningContent]
        split
        · exact .inr (.inl rfl)
        · have parts := (deliverReasoning_frame text).seq (emitSignature_content signature).frame
          exact .inr (.inr ⟨_, takeSignature signature t, parts, rfl, by simp [seq]⟩)
    | toolUse toolUseId name input =>
      simp only [pushToolUse]
      split
      · exact .inr (.inl rfl)
      · exact .inr (.inr ⟨_, _, deliverToolUse_frame toolUseId name input, rfl, rfl⟩)
    | metadata uncached output total cacheRead cacheWrite =>
      simp only [takeMetadata]
      split <;> exact .inr (.inl rfl)
    | metering credits input output =>
      simp only [takeMetering]
      split <;> exact .inr (.inl rfl)
    | invalidState reason message => exact .inl ⟨_, rfl, rfl⟩
    | exception exceptionType message => exact .inl ⟨_, rfl, rfl⟩
    | ignored eventType => exact .inr (.inl rfl)

theorem finishIfStopped_failure (t : ResponseTranslator) : t.finishIfStopped.1.failure = t.failure := by
  unfold finishIfStopped
  split
  · exact finish_failure t
  · rfl

theorem push_failure (t : ResponseTranslator) (ev : Event) :
    (t.push ev).1.failure = t.failure ∨
      ∃ failure, reportedFailure ev = some failure ∧ t.push ev = ({ t with failure := some failure }, []) := by
  obtain ⟨failure, reports, pushed⟩ | same | ⟨parts, start, keeps, same, pushed⟩ := push_cases t ev
  · exact .inr ⟨failure, reports, pushed⟩
  · exact .inl (congrArg Flags.failure same :)
  · have kept : (parts start).1.failure = start.failure := (congrArg failure (keeps start) :)
    have started : start.failure = t.failure := (congrArg Flags.failure same :)
    left
    rw [pushed]
    exact (finishIfStopped_failure (parts start).1).trans (kept.trans started)

end KiroTrust.Translate.ResponseTranslator
