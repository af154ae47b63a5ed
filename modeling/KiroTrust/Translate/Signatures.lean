import KiroTrust.Translate.UsageResolution

set_option autoImplicit false

namespace KiroTrust.Translate

open Emitter

/-! The signature of the thinking: streamed as it arrives, and folded at the end. -/

theorem lastOf_append {X Y : Type} (f : X → Option Y) (left right : List X) :
    lastOf f (left ++ right) = (lastOf f right).or (lastOf f left) := by
  simp only [lastOf, List.filterMap_append, List.getLast?_append]

theorem lastOf_single {X Y : Type} (f : X → Option Y) (input : X) : lastOf f [input] = f input := by
  cases found : f input <;> simp only [lastOf, List.filterMap_cons, List.filterMap_nil, found] <;> rfl

def signatureDelta : StreamEvent → Option Str
  | .contentBlockDelta _ (.signatureDelta signature) => some signature
  | _ => none

def foldedSignatures (content : List OutBlock) : List (Option Str) :=
  content.filterMap fun
    | .thinking _ signature => some signature
    | _ => none

theorem gather_signature (out : List StreamEvent) (g : Gathered) :
    (out.foldl gather g).signature = (lastOf signatureDelta out).or g.signature := by
  induction out using List.reverseRecOn with
  | nil => rfl
  | append_singleton out last ih =>
    rw [List.foldl_append, lastOf_concat, Option.or_assoc, ← ih]
    cases last with
    | contentBlockDelta index delta => cases delta <;> rfl
    | contentBlockStart index contentBlock => cases contentBlock <;> rfl
    | messageStart message | contentBlockStop index | messageDelta delta usage | messageStop | error error => rfl

namespace ResponseTranslator

def Unsigned (change : ResponseTranslator → ResponseTranslator × List StreamEvent) : Prop :=
  ∀ t, (change t).1.signature = t.signature ∧ ∀ g, ((change t).2.foldl gather g).signature = g.signature

theorem Unsigned.seq {first second : ResponseTranslator → ResponseTranslator × List StreamEvent}
    (front : Unsigned first) (back : Unsigned second) : Unsigned (Emitter.seq first second) := by
  intro t
  obtain ⟨kept, shown⟩ := front t
  obtain ⟨last, more⟩ := back (first t).1
  refine ⟨last.trans kept, fun g => ?_⟩
  simp only [Emitter.seq, List.foldl_append, more, shown]

theorem Unsigned.idle : Unsigned fun t => (t, []) := fun _ => ⟨rfl, fun _ => rfl⟩

theorem Unsigned.branch {p : ResponseTranslator → Prop} [DecidablePred p]
    {left right : ResponseTranslator → ResponseTranslator × List StreamEvent} (yes : Unsigned left)
    (no : Unsigned right) : Unsigned fun t => if p t then left t else right t := by
  intro t
  by_cases holds : p t
  · simpa only [if_pos holds] using yes t
  · simpa only [if_neg holds] using no t

theorem quiet_unsigned {change : ResponseTranslator → ResponseTranslator × List StreamEvent}
    (keeps : KeepsContent change) (shows : Gathers change id) : Unsigned change :=
  fun t => ⟨(congrArg signature (keeps t) :), fun g => congrArg Gathered.signature (shows t g)⟩

theorem deliverThinking_unsigned (thought : Str) : Unsigned (deliverThinking thought) :=
  fun t => ⟨(congrArg signature (deliverThinking_frame thought t) :),
    fun g => (congrArg Gathered.signature (deliverThinking_gathers thought t g) :)⟩

theorem deliverText_unsigned (textOut : Str) : Unsigned (deliverText textOut) :=
  fun t => ⟨(congrArg signature (deliverText_frame textOut t) :),
    fun g => (congrArg Gathered.signature (deliverText_gathers textOut t g) :)⟩

theorem deliverRedacted_unsigned (data : Str) : Unsigned (deliverRedacted data) :=
  fun t => ⟨(congrArg signature (deliverRedacted_frame data t) :),
    fun g => (congrArg Gathered.signature (deliverRedacted_gathers data t g) :)⟩

theorem deliverToolUse_unsigned (toolUseId name input : Str) : Unsigned (deliverToolUse toolUseId name input) :=
  fun t => ⟨(congrArg signature (deliverToolUse_frame toolUseId name input t) :),
    fun g => (congrArg Gathered.signature (deliverToolUse_gathers toolUseId name input t g) :)⟩

theorem flushTag_unsigned : Unsigned flushTag := by
  intro t
  have flushes : Unsigned fun u => if u.tagInside then _ else if u.localStop.isNone then _ else (u, []) :=
    .branch (deliverThinking_unsigned t.tagBuf) (.branch (deliverText_unsigned t.tagBuf) .idle)
  exact flushes { t with tagBuf := [] }

theorem flushPending_unsigned : Unsigned flushPending :=
  fun t => ⟨(congrArg signature (flushPending_frame t) :),
    fun g => (congrArg Gathered.signature (flushPending_gathers t g) :)⟩

theorem finish_unsigned : Unsigned finish := by
  have begins : Unsigned begin :=
    fun t => quiet_unsigned ensureStarted_content ensureStarted_gathers { t with finished := true }
  have closes : Unsigned closeActive := quiet_unsigned closeActive_content closeActive_gathers
  have ends : Unsigned closing := fun _ => ⟨rfl, fun _ => rfl⟩
  exact .branch .idle (begins.seq (flushTag_unsigned.seq (flushPending_unsigned.seq (closes.seq ends))))

theorem finishIfStopped_unsigned : Unsigned finishIfStopped := .branch finish_unsigned .idle

theorem pushAssistantResponse_unsigned (content : Str) : Unsigned (pushAssistantResponse content) := by
  intro t
  simp only [pushAssistantResponse]
  split
  · exact ⟨rfl, fun _ => rfl⟩
  · have parsed : (t.parseTags content).1.signature = t.signature := (congrArg signature (parseTags_eq t content) :)
    have delivers := (deliverThinking_unsigned (t.parseTags content).2.2).seq
      ((deliverText_unsigned (t.parseTags content).2.1).seq finishIfStopped_unsigned)
    obtain ⟨kept, shown⟩ := delivers (t.parseTags content).1
    exact ⟨kept.trans parsed, shown⟩

theorem pushToolUse_unsigned (toolUseId name input : Str) : Unsigned (pushToolUse toolUseId name input) :=
  .branch .idle ((deliverToolUse_unsigned toolUseId name input).seq finishIfStopped_unsigned)

/-- Whether the signature of a reasoning event meets an open thinking block. -/
def ShowsSignature (t : ResponseTranslator) (text : Str) (redactedContent : Option Str) : Prop :=
  redactedContent = none ∧ t.suppressReasoning = false ∧ (text ≠ [] ∨ t.active = some .thinking)

instance (t : ResponseTranslator) (text : Str) (redactedContent : Option Str) :
    Decidable (t.ShowsSignature text redactedContent) :=
  inferInstanceAs (Decidable (_ ∧ _))

theorem deliverReasoning_active {t : ResponseTranslator} (opened : t.Open) (text : Str) :
    (deliverReasoning text t).1.active = some .thinking ↔ text ≠ [] ∨ t.active = some .thinking := by
  have running : t.localStop.isNone = true := by simp [opened.1]
  simp only [deliverReasoning, running, if_true]
  by_cases empty : text = []
  · simp [deliverThinking, empty]
  · have delivers : text.take t.remaining ≠ [] := fun cut => empty ((take_remaining opened text).1 cut)
    simp [deliverThinking_active delivers, empty]

theorem emitSignature_gathers (sig : Option Str) (t : ResponseTranslator) (g : Gathered) :
    ((emitSignature sig t).2.foldl gather g).signature =
      (if t.active = some .thinking then sig else none).or g.signature := by
  cases sig with
  | none => simp [emitSignature]
  | some sig => by_cases thinking : t.active = some .thinking <;> simp [emitSignature, thinking, emitDelta, gather]

theorem pushReasoningContent_signs {t : ResponseTranslator} (opened : t.Open) (text : Str)
    (signature redactedContent : Option Str) :
    (pushReasoningContent text signature redactedContent t).1.signature = signature.or t.signature ∧
      ∀ g, ((pushReasoningContent text signature redactedContent t).2.foldl gather g).signature =
        (if t.ShowsSignature text redactedContent then signature else none).or g.signature := by
  cases redactedContent with
  | some data =>
    obtain ⟨kept, shown⟩ := (deliverRedacted_unsigned data).seq finishIfStopped_unsigned (t.takeSignature signature)
    have hidden : ¬ t.ShowsSignature text (some data) := by
      rintro ⟨plain, -⟩
      cases plain
    simp only [hidden, if_false, Option.none_or]
    exact ⟨kept, shown⟩
  | none =>
    cases suppressed : t.suppressReasoning with
    | true => simp [pushReasoningContent, takeSignature, suppressed, ShowsSignature]
    | false =>
      have reasons : Unsigned (deliverReasoning text) := .branch (deliverThinking_unsigned text) .idle
      have opens := deliverReasoning_active (t := t.takeSignature signature) opened text
      obtain ⟨kept, shown⟩ := reasons (t.takeSignature signature)
      obtain ⟨last, quiet⟩ := finishIfStopped_unsigned (deliverReasoning text (t.takeSignature signature)).1
      have unsuppressed : (t.takeSignature signature).suppressReasoning = false := suppressed
      simp only [pushReasoningContent, unsuppressed, seq, emitSignature_fst]
      refine ⟨last.trans kept, fun g => ?_⟩
      have meets : (text ≠ [] ∨ (t.takeSignature signature).active = some .thinking) ↔
          t.ShowsSignature text none := by
        simp [ShowsSignature, suppressed, takeSignature]
      simp only [Bool.false_eq_true, if_false, List.foldl_append, quiet, emitSignature_gathers, shown, opens, meets]

def arriving : ResponseTranslator × Call → Option Str
  | (t, .push (.reasoningContent _ signature _)) => if t.finished ∨ t.failure.isSome then none else signature
  | _ => none

def showing : ResponseTranslator × Call → Option Str
  | (t, .push (.reasoningContent text signature redactedContent)) =>
    if t.ShowsSignature text redactedContent then arriving (t, .push (.reasoningContent text signature redactedContent))
    else none
  | _ => none

/-- The last signature that arrives is shown, or repeats the last one shown. -/
def LastShown (visits : List (ResponseTranslator × Call)) : Prop :=
  ∀ signature, lastOf arriving visits = some signature → lastOf showing visits = some signature

theorem arriving_of_showing {visit : ResponseTranslator × Call} {signature : Str}
    (shown : showing visit = some signature) : arriving visit = some signature := by
  obtain ⟨t, ⟨ev⟩ | _⟩ := visit
  · cases ev with
    | reasoningContent text sig redactedContent =>
      simp only [showing] at shown
      split at shown
      · exact shown
      · cases shown
    | assistantResponse content | toolUse toolUseId name input
    | metadata uncached output total cacheRead cacheWrite | metering credits input output
    | invalidState reason message | exception exceptionType message | ignored eventType => cases shown
  · cases shown

theorem call_signs {t : ResponseTranslator} (limited : t.Limited) (input : Call) :
    (t.call input).1.signature = (arriving (t, input)).or t.signature ∧
      ∀ g, ((t.call input).2.foldl gather g).signature = (showing (t, input)).or g.signature := by
  cases input with
  | finish => exact finish_unsigned t
  | push ev =>
    simp only [call, push]
    by_cases ended : t.finished ∨ t.failure.isSome
    · rw [if_pos ended]
      cases ev <;> simp [arriving, showing, ended]
    · have unfinished : t.finished = false := by simpa using fun finished => ended (.inl finished)
      rw [if_neg ended]
      cases ev with
      | reasoningContent text sig redactedContent =>
        simpa only [arriving, showing, ended, if_false] using
          pushReasoningContent_signs (limited unfinished) text sig redactedContent
      | assistantResponse content => exact pushAssistantResponse_unsigned content t
      | toolUse toolUseId name input => exact pushToolUse_unsigned toolUseId name input t
      | metadata uncached output total cacheRead cacheWrite =>
        exact ⟨(congrArg signature (takeMetadata_withCounts uncached output cacheRead cacheWrite t) :), fun _ => rfl⟩
      | metering credits input output =>
        exact ⟨(congrArg signature (takeMetering_withCounts input output t) :), fun _ => rfl⟩
      | invalidState reason message | exception exceptionType message | ignored eventType =>
        exact ⟨rfl, fun _ => rfl⟩

theorem run_signs {t : ResponseTranslator} (limited : t.Limited) (calls : List Call) :
    (runAll call t calls).1.signature = (lastOf arriving (visits call t calls)).or t.signature ∧
      ∀ g, ((runAll call t calls).2.foldl gather g).signature =
        (lastOf showing (visits call t calls)).or g.signature := by
  induction calls generalizing t with
  | nil => exact ⟨rfl, fun _ => rfl⟩
  | cons input rest ih =>
    obtain ⟨stored, streamed⟩ := call_signs limited input
    obtain ⟨last, more⟩ := ih (call_limited limited input)
    have visited : visits call t (input :: rest) = [(t, input)] ++ visits call (t.call input).1 rest := rfl
    rw [runAll_cons, visited, lastOf_append, lastOf_append, lastOf_single, lastOf_single]
    refine ⟨by rw [last, stored, Option.or_assoc], fun g => ?_⟩
    rw [List.foldl_append, more, streamed, Option.or_assoc]

theorem lastShown_iff (visits : List (ResponseTranslator × Call)) :
    lastOf arriving visits = lastOf showing visits ↔ LastShown visits := by
  constructor
  · intro same signature arrived
    rw [← same]
    exact arrived
  · intro shown
    cases arrived : lastOf arriving visits with
    | some signature => exact (shown signature arrived).symm
    | none =>
      cases streamed : lastOf showing visits with
      | none => rfl
      | some signature =>
        -- What is shown has arrived.
        obtain ⟨visit, among, shows⟩ := lastOf_some streamed
        have inside := List.mem_filterMap.2 ⟨visit, among, arriving_of_showing shows⟩
        rw [lastOf, List.getLast?_eq_none_iff] at arrived
        rw [arrived] at inside
        cases inside

theorem intoMessage_signature (serde : Serde) {t : ResponseTranslator} (finished : t.finished = true)
    (thought : t.thinking ≠ []) : foldedSignatures (t.intoMessage serde).content = [t.signature] := by
  simp only [intoMessage, finished, if_true]
  by_cases noText : t.text = [] <;>
    simp [foldedSignatures, noText, thought, ToolCall.toBlock, List.filterMap_map, Function.comp_def]

/-- The folded thinking carries the last signature streamed exactly when the last one to arrive was streamed. -/
theorem signatures_agree_iff (serde : Serde) (opts : ResponseOptions) (events : List Event)
    (thought : (reply opts events).1.thinking ≠ []) :
    foldedSignatures ((reply opts events).1.intoMessage serde).content =
        [lastOf signatureDelta (reply opts events).2] ↔
      LastShown (visits call (new opts) (toTheEnd events)) := by
  have finished : (reply opts events).1.finished = true := finished_after_finish opts events []
  obtain ⟨stored, streamed⟩ := run_signs (fun _ => new_open opts) (toTheEnd events)
  have shown : lastOf signatureDelta (reply opts events).2 =
      lastOf showing (visits call (new opts) (toTheEnd events)) := by
    have gathers := gather_signature (reply opts events).2 Gathered.empty
    rw [reply, streamed Gathered.empty] at gathers
    simp only [Gathered.empty, Option.or_none] at gathers
    exact gathers.symm
  have arrived : (reply opts events).1.signature = lastOf arriving (visits call (new opts) (toTheEnd events)) :=
    stored.trans Option.or_none
  rw [intoMessage_signature serde finished thought, shown, arrived, List.singleton_inj, lastShown_iff]

theorem signatures_agree_sample :
    let serde : Serde := ⟨fun _ => none, fun _ => none, fun _ => []⟩
    let opts : ResponseOptions := ⟨"m".toList, "msg".toList, [], 0, fun _ => none, 7⟩
    let events : List Event :=
      [.reasoningContent "let me".toList none none, .reasoningContent [] (some "sig".toList) none]
    foldedSignatures ((reply opts events).1.intoMessage serde).content =
        [lastOf signatureDelta (reply opts events).2] ↔
      LastShown (visits call (new opts) (toTheEnd events)) :=
  signatures_agree_iff _ _ _ (by decide +kernel)

/-- The signature comes when the thinking block has given way to text: it is folded, not streamed. -/
theorem signature_folded_only :
    let serde : Serde := ⟨fun _ => none, fun _ => none, fun _ => []⟩
    let opts : ResponseOptions := ⟨"m".toList, "msg".toList, [], 0, fun _ => none, 7⟩
    let events : List Event := [.reasoningContent "let me".toList none none, .assistantResponse "Hi".toList,
      .reasoningContent [] (some "sig".toList) none]
    (reply opts events).1.thinking ≠ [] ∧
      foldedSignatures ((reply opts events).1.intoMessage serde).content = [some "sig".toList] ∧
      lastOf signatureDelta (reply opts events).2 = none ∧
      foldedSignatures ((reply opts events).1.intoMessage serde).content ≠
        [lastOf signatureDelta (reply opts events).2] := by
  refine ⟨?_, ?_, ?_, ?_⟩ <;> decide +kernel

end ResponseTranslator

end KiroTrust.Translate
