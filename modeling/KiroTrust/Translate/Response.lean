import Mathlib.Algebra.Group.Int.Defs
import Mathlib.Algebra.Group.Nat.Defs
import KiroTrust.Protocol.Events
import KiroTrust.Shared.Emitter
import KiroTrust.Shared.Search

set_option autoImplicit false

namespace KiroTrust.Translate

def openTag : Str := "<thinking>".toList
def closeTag : Str := "</thinking>".toList

theorem openTag_length : openTag.length = 10 := rfl

theorem closeTag_length : closeTag.length = 11 := rfl

structure ReportedTokens where
  input : Nat
  output : Nat
  cacheRead : Nat
  cacheWrite : Nat
  deriving DecidableEq

structure EstimatedTokens where
  input : Nat
  output : Nat
  deriving DecidableEq

structure UsageSnapshot where
  reported : ReportedTokens
  estimated : EstimatedTokens
  deriving DecidableEq

def absoluteMaxTokens : Nat := 2000000

structure ResponseOptions where
  model : Str
  messageId : Str
  stopSequences : List Str
  maxTokens : UInt32
  -- Short to original tool names.
  toolNames : Str → Option Str
  estimatedInputTokens : Nat

inductive FailureKind where
  | invalidState (reason : Str)
  | exception (exceptionType : Str)
  deriving DecidableEq

structure Failure where
  kind : FailureKind
  message : Str
  deriving DecidableEq

inductive Active where
  | text
  | thinking
  deriving DecidableEq

structure ToolCall where
  id : Str
  name : Str
  input : Str
  deriving DecidableEq

structure ResponseTranslator where
  opts : ResponseOptions
  -- accumulated
  text : Str
  thinking : Str
  toolCalls : List ToolCall
  redacted : List Str
  signature : Option Str
  hasMetadata : Bool
  inputTokens : Nat
  outputTokens : Nat
  cacheRead : Nat
  cacheWrite : Nat
  -- limits
  localStop : Option (StopReason × Option Str)
  stopSequences : List Str
  stopMaxKeep : Nat
  stopPending : Str
  outputChars : Nat
  -- thinking tags
  tagInside : Bool
  tagBuf : Str
  suppressReasoning : Bool
  -- emitter
  started : Bool
  blockIndex : Int
  active : Option Active
  visible : Bool
  finished : Bool
  failure : Option Failure

/-- Longest suffix of `s` that is a proper prefix of `tag`, both counted in characters. -/
def partialTagSuffix (s tag : Str) : Nat :=
  let max := min (tag.length - 1) s.length
  ((List.range' 1 max).reverse.find? fun n => s.drop (s.length - n) = tag.take n).getD 0

/-- What `parse_tags` takes from the tag buffer, and what it leaves there. -/
structure TagSplit where
  text : Str
  think : Str
  inside : Bool
  buf : Str
  opened : Bool
  deriving DecidableEq

def splitTags (inside : Bool) (buf : Str) : TagSplit :=
  if _empty : buf = [] then ⟨[], [], inside, [], false⟩
  else if inside then
    match Search.find closeTag buf with
    | some idx =>
      let later := splitTags false (buf.drop (idx + closeTag.length))
      { later with think := buf.take idx ++ later.think }
    | none =>
      -- What may be the beginning of the tag stays in the buffer.
      let cut := buf.length - partialTagSuffix buf closeTag
      ⟨[], buf.take cut, true, buf.drop cut, false⟩
  else
    match Search.find openTag buf with
    | some idx =>
      let later := splitTags true (buf.drop (idx + openTag.length))
      { later with text := buf.take idx ++ later.text, opened := true }
    | none =>
      let cut := buf.length - partialTagSuffix buf openTag
      ⟨buf.take cut, [], false, buf.drop cut, false⟩
termination_by buf.length
decreasing_by
  all_goals
    have nonempty := List.length_pos_iff.2 _empty
    simp only [List.length_drop, openTag_length, closeTag_length]
    omega

def firstMatch (sequences : List Str) (pending : Str) : Option (Nat × Str) :=
  sequences.findSome? fun s => (Search.find s pending).map fun idx => (idx, s)

namespace ResponseTranslator

def new (opts : ResponseOptions) : ResponseTranslator :=
  let stopSequences := opts.stopSequences.filter (· ≠ [])
  { opts
    text := []
    thinking := []
    toolCalls := []
    redacted := []
    signature := none
    hasMetadata := false
    inputTokens := 0
    outputTokens := 0
    cacheRead := 0
    cacheWrite := 0
    localStop := none
    stopSequences
    stopMaxKeep := (stopSequences.map fun s => s.length - 1).foldr max 0
    stopPending := []
    outputChars := 0
    tagInside := false
    tagBuf := []
    suppressReasoning := false
    started := false
    blockIndex := -1
    active := none
    visible := false
    finished := false
    failure := none }

def stopped (t : ResponseTranslator) : Bool := t.localStop.isSome

/-! Accumulation. -/

def latch (t : ResponseTranslator) (reason : StopReason) (seq : Option Str) : ResponseTranslator :=
  if t.localStop.isNone then { t with localStop := some (reason, seq) } else t

def effectiveMaxTokens (t : ResponseTranslator) : Nat :=
  let requested := t.opts.maxTokens.toNat
  if requested = 0 then absoluteMaxTokens else min requested absoluteMaxTokens

def applyMaxTokens (t : ResponseTranslator) (delta : Str) : ResponseTranslator × Str :=
  let budget := t.effectiveMaxTokens
  let n := delta.length
  if (t.outputChars + n) / 4 < budget then
    ({ t with outputChars := t.outputChars + n }, delta)
  else
    let remaining := budget * 4 - t.outputChars
    -- The budget is reached: what is left of it is still delivered.
    if remaining = 0 then (t.latch .maxTokens none, [])
    else if n > remaining then
      (({ t with outputChars := t.outputChars + remaining }).latch .maxTokens none, delta.take remaining)
    else
      let t := { t with outputChars := t.outputChars + n }
      if t.outputChars / 4 ≥ budget then (t.latch .maxTokens none, delta) else (t, delta)

def accountOpaque (t : ResponseTranslator) (content : Str) : ResponseTranslator :=
  -- Counted, but never cut.
  let t := { t with outputChars := t.outputChars + content.length }
  if t.localStop.isNone ∧ t.outputChars / 4 ≥ t.effectiveMaxTokens then t.latch .maxTokens none else t

def applyStopFilter (t : ResponseTranslator) (delta : Str) : ResponseTranslator × Str :=
  let pending := t.stopPending ++ delta
  match firstMatch t.stopSequences pending with
  -- The first sequence of the list that occurs is taken, wherever it occurs.
  | some (idx, s) => (({ t with stopPending := [] }).latch .stopSequence (some s), pending.take idx)
  | none =>
    let count := pending.length
    if count ≤ t.stopMaxKeep then ({ t with stopPending := pending }, [])
    else
      let splitAt := count - t.stopMaxKeep
      ({ t with stopPending := pending.drop splitAt }, pending.take splitAt)

def parseTags (t : ResponseTranslator) (delta : Str) : ResponseTranslator × Str × Str :=
  -- Without a `<` there is nothing to look for.
  if t.tagBuf = [] ∧ t.tagInside = false ∧ '<' ∉ delta then (t, delta, [])
  else
    let split := splitTags t.tagInside (t.tagBuf ++ delta)
    ({ t with
        tagBuf := split.buf
        tagInside := split.inside
        suppressReasoning := t.suppressReasoning || split.opened }, split.text, split.think)

def takeThinking (t : ResponseTranslator) (thought : Str) : ResponseTranslator × Str :=
  let (t, out) := t.applyMaxTokens thought
  ({ t with thinking := t.thinking ++ out }, out)

def filterText (t : ResponseTranslator) (textOut : Str) : ResponseTranslator × Str :=
  if t.stopSequences ≠ [] then t.applyStopFilter textOut else (t, textOut)

def budgetText (t : ResponseTranslator) (out : Str) : ResponseTranslator × Str :=
  -- Text in front of a stop sequence is not counted.
  if out ≠ [] ∧ t.localStop.isNone then t.applyMaxTokens out else (t, out)

def takeText (t : ResponseTranslator) (textOut : Str) : ResponseTranslator × Str :=
  let filtered := t.filterText textOut
  let taken := filtered.1.budgetText filtered.2
  ({ taken.1 with text := taken.1.text ++ taken.2 }, taken.2)

/-- `self.block_index as u32` -/
def index (t : ResponseTranslator) : Nat := (t.blockIndex % 2 ^ 32).toNat

def ensureStarted (t : ResponseTranslator) : ResponseTranslator × List StreamEvent :=
  if t.started then (t, [])
  else
    ({ t with started := true },
      [.messageStart
        { id := t.opts.messageId
          kind := "message".toList
          role := "assistant".toList
          content := []
          model := t.opts.model
          stopReason := none
          stopSequence := none
          usage := Usage.zero }])

def closeActive (t : ResponseTranslator) : ResponseTranslator × List StreamEvent :=
  match t.active with
  | some _ => ({ t with active := none }, [.contentBlockStop t.index])
  | none => (t, [])

def openBlock (kind : Active) (t : ResponseTranslator) : ResponseTranslator × List StreamEvent :=
  let t := { t with blockIndex := t.blockIndex + 1, active := some kind }
  -- A block starts out empty; its deltas fill it.
  let contentBlock :=
    match kind with
    | .text => BlockStart.text []
    | .thinking => BlockStart.thinking [] none
  (t, [.contentBlockStart t.index contentBlock])

def switchBlock (kind : Active) (t : ResponseTranslator) : ResponseTranslator × List StreamEvent :=
  if t.active = some kind then (t, []) else Emitter.seq closeActive (openBlock kind) t

def emitDelta (delta : Delta) (t : ResponseTranslator) : ResponseTranslator × List StreamEvent :=
  (t, [.contentBlockDelta t.index delta])

def emitText (text : Str) (t : ResponseTranslator) : ResponseTranslator × List StreamEvent :=
  if text = [] then (t, [])
  else
    Emitter.seq ensureStarted
      (Emitter.seq (Emitter.quiet fun t => { t with visible := true })
        (Emitter.seq (switchBlock .text) (emitDelta (.textDelta text)))) t

def emitThinking (thinking : Str) (t : ResponseTranslator) : ResponseTranslator × List StreamEvent :=
  if thinking = [] then (t, [])
  else
    Emitter.seq ensureStarted
      (Emitter.seq (switchBlock .thinking) (emitDelta (.thinkingDelta thinking))) t

def stopReason (t : ResponseTranslator) : StopReason × Option Str :=
  match t.localStop with
  | some (reason, seq) => (reason, seq)
  -- Without a local stop the tool calls decide.
  | none => if t.toolCalls ≠ [] then (.toolUse, none) else (.endTurn, none)

def estimatedOutput (t : ResponseTranslator) : Nat :=
  if t.outputChars = 0 then 0 else max (t.outputChars / 4) 1

def usage (t : ResponseTranslator) : Usage :=
  let (input, output) :=
    if t.inputTokens > 0 ∨ t.outputTokens > 0 then (t.inputTokens, t.outputTokens)
    -- The upstream has reported no counts.
    else (t.opts.estimatedInputTokens, t.estimatedOutput)
  { inputTokens := input
    outputTokens := output
    cacheReadInputTokens := t.cacheRead
    cacheCreationInputTokens := t.cacheWrite }

def usageSnapshot (t : ResponseTranslator) : UsageSnapshot :=
  if t.inputTokens > 0 ∨ t.outputTokens > 0 then
    ⟨⟨t.inputTokens, t.outputTokens, t.cacheRead, t.cacheWrite⟩, ⟨0, 0⟩⟩
  else
    ⟨⟨0, 0, t.cacheRead, t.cacheWrite⟩, ⟨t.opts.estimatedInputTokens, t.estimatedOutput⟩⟩

/-! `finish`, in the order of its parts. -/

def deliverThinking (thought : Str) (t : ResponseTranslator) : ResponseTranslator × List StreamEvent :=
  if thought = [] then (t, [])
  else
    let (t, out) := t.takeThinking thought
    t.emitThinking out

def deliverText (textOut : Str) (t : ResponseTranslator) : ResponseTranslator × List StreamEvent :=
  if textOut = [] then (t, [])
  else
    let (t, out) := t.takeText textOut
    t.emitText out

def begin (t : ResponseTranslator) : ResponseTranslator × List StreamEvent :=
  ensureStarted { t with finished := true }

def flushTag (t : ResponseTranslator) : ResponseTranslator × List StreamEvent :=
  let remaining := t.tagBuf
  let t := { t with tagBuf := [] }
  -- A tag that never closed leaves a thought, one that never opened leaves text.
  if t.tagInside then deliverThinking remaining t
  else if t.localStop.isNone then deliverText remaining t
  else (t, [])

def flushPending (t : ResponseTranslator) : ResponseTranslator × List StreamEvent :=
  let pending := t.stopPending
  let t := { t with stopPending := [] }
  if pending ≠ [] ∧ t.localStop.isNone then
    let (t, out) := t.applyMaxTokens pending
    emitText out { t with text := t.text ++ out }
  else (t, [])

def closing (t : ResponseTranslator) : ResponseTranslator × List StreamEvent :=
  let (stopReason, stopSequence) := t.stopReason
  (t, [.messageDelta ⟨stopReason, stopSequence⟩ t.usage, .messageStop])

def finish (t : ResponseTranslator) : ResponseTranslator × List StreamEvent :=
  if t.finished then (t, [])
  else
    Emitter.seq begin
      (Emitter.seq flushTag (Emitter.seq flushPending (Emitter.seq closeActive closing))) t

/-! `push`, one definition for each kind of event. -/

def finishIfStopped (t : ResponseTranslator) : ResponseTranslator × List StreamEvent :=
  if t.localStop.isSome then t.finish else (t, [])

def pushAssistantResponse (content : Str) (t : ResponseTranslator) :
    ResponseTranslator × List StreamEvent :=
  if content = [] ∨ t.localStop.isSome then (t, [])
  else
    let (t, textOut, thinkOut) := t.parseTags content
    Emitter.seq (deliverThinking thinkOut) (Emitter.seq (deliverText textOut) finishIfStopped) t

def takeSignature (signature : Option Str) (t : ResponseTranslator) : ResponseTranslator :=
  { t with signature := signature.or t.signature }

def emitBlock (start : BlockStart) (deltas : List Delta) (t : ResponseTranslator) :
    ResponseTranslator × List StreamEvent :=
  let t := { t with blockIndex := t.blockIndex + 1 }
  (t, .contentBlockStart t.index start :: deltas.map (.contentBlockDelta t.index) ++
    [.contentBlockStop t.index])

def deliverRedacted (data : Str) (t : ResponseTranslator) : ResponseTranslator × List StreamEvent :=
  let t := ({ t with redacted := t.redacted ++ [data] }).accountOpaque data
  Emitter.seq ensureStarted (Emitter.seq closeActive (emitBlock (.redactedThinking data) [])) t

def deliverReasoning (text : Str) (t : ResponseTranslator) : ResponseTranslator × List StreamEvent :=
  if t.localStop.isNone then deliverThinking text t else (t, [])

def emitSignature (signature : Option Str) (t : ResponseTranslator) :
    ResponseTranslator × List StreamEvent :=
  match signature with
  | some sig => if t.active = some .thinking then emitDelta (.signatureDelta sig) t else (t, [])
  | none => (t, [])

def pushReasoningContent (text : Str) (signature redactedContent : Option Str)
    (t : ResponseTranslator) : ResponseTranslator × List StreamEvent :=
  let t := t.takeSignature signature
  match redactedContent with
  | some data => Emitter.seq (deliverRedacted data) finishIfStopped t
  | none =>
    -- Thinking tags in the text have taken over.
    if t.suppressReasoning then (t, [])
    else
      Emitter.seq (deliverReasoning text) (Emitter.seq (emitSignature signature) finishIfStopped) t

def deliverToolUse (toolUseId name input : Str) (t : ResponseTranslator) :
    ResponseTranslator × List StreamEvent :=
  let name := (t.opts.toolNames name).getD name
  let t := t.accountOpaque input
  let t := { t with toolCalls := t.toolCalls ++ [⟨toolUseId, name, input⟩] }
  Emitter.seq ensureStarted
    (Emitter.seq (Emitter.quiet fun t => { t with visible := true })
      (Emitter.seq closeActive (emitBlock (.toolUse toolUseId name []) [.inputJsonDelta input]))) t

def pushToolUse (toolUseId name input : Str) (t : ResponseTranslator) :
    ResponseTranslator × List StreamEvent :=
  if t.localStop.isSome then (t, [])
  else Emitter.seq (deliverToolUse toolUseId name input) finishIfStopped t

def saturatingAdd (left right : Nat) : Nat := min (left + right) (2 ^ 64 - 1)

def takeMetadata (uncachedInputTokens outputTokens cacheReadInputTokens cacheWriteInputTokens : Nat)
    (t : ResponseTranslator) : ResponseTranslator :=
  let input := saturatingAdd uncachedInputTokens cacheReadInputTokens
  if input > 0 ∨ outputTokens > 0 then
    { t with
      hasMetadata := true
      inputTokens := input
      outputTokens := outputTokens
      cacheRead := cacheReadInputTokens
      cacheWrite := cacheWriteInputTokens }
  else
    -- A report without counts may still raise the cache counters.
    { t with
      cacheRead := max t.cacheRead cacheReadInputTokens
      cacheWrite := max t.cacheWrite cacheWriteInputTokens }

def takeMetering (inputTokens outputTokens : Nat) (t : ResponseTranslator) : ResponseTranslator :=
  -- Metadata outranks metering, in either order.
  if t.hasMetadata = false ∧ (inputTokens > 0 ∨ outputTokens > 0) then
    { t with inputTokens := inputTokens, outputTokens := outputTokens }
  else t

def push (t : ResponseTranslator) (ev : Event) : ResponseTranslator × List StreamEvent :=
  if t.finished ∨ t.failure.isSome then (t, [])
  else
    match ev with
    | .assistantResponse content => pushAssistantResponse content t
    | .reasoningContent text signature redactedContent =>
      pushReasoningContent text signature redactedContent t
    | .toolUse toolUseId name input => pushToolUse toolUseId name input t
    | .metadata uncached output _ cacheRead cacheWrite =>
      (t.takeMetadata uncached output cacheRead cacheWrite, [])
    | .metering _ input output => (t.takeMetering input output, [])
    | .invalidState reason message => ({ t with failure := some ⟨.invalidState reason, message⟩ }, [])
    | .exception exceptionType message =>
      ({ t with failure := some ⟨.exception exceptionType, message⟩ }, [])
    | .ignored _ => (t, [])

def errorEvent (kind message : Str) : StreamEvent := .error ⟨kind, message⟩

end ResponseTranslator

def keepLongest : List ToolCall → ToolCall → List ToolCall
  | [], call => [call]
  | existing :: rest, call =>
    -- A repeated id keeps its place, with the longer input.
    if existing.id = call.id then
      (if call.input.byteLen > existing.input.byteLen then call else existing) :: rest
    else existing :: keepLongest rest call

def normalizedInput (serde : Serde) (input : Str) : Str :=
  match serde.fromStr input with
  | some value => serde.print value
  | none => input

def dropRepeats (serde : Serde) : List (Str × Str) → List ToolCall → List ToolCall
  | _, [] => []
  | seen, call :: rest =>
    -- Calls with one name and the same input are one call.
    let key := (call.name, normalizedInput serde call.input)
    if key ∈ seen then dropRepeats serde seen rest
    else call :: dropRepeats serde (seen ++ [key]) rest

def dedupeToolCalls (serde : Serde) (calls : List ToolCall) : List ToolCall :=
  dropRepeats serde [] (calls.foldl keepLongest [])

def ToolCall.toBlock (serde : Serde) (call : ToolCall) : OutBlock :=
  .toolUse call.id call.name ((serde.fromStr call.input).getD (.object []))

def ResponseTranslator.intoMessage (serde : Serde) (t : ResponseTranslator) : OutMessage :=
  -- A translator that has not finished is finished here.
  let t := if t.finished then t else t.finish.1
  let content :=
    (if t.thinking ≠ [] then [OutBlock.thinking t.thinking t.signature] else []) ++
      (if t.text ≠ [] then [OutBlock.text t.text] else []) ++
      (dedupeToolCalls serde t.toolCalls).map (ToolCall.toBlock serde) ++
      t.redacted.map OutBlock.redactedThinking
  let (stopReason, stopSequence) := t.stopReason
  { id := t.opts.messageId
    kind := "message".toList
    role := "assistant".toList
    content
    model := t.opts.model
    stopReason := some stopReason
    stopSequence
    usage := t.usage }

end KiroTrust.Translate
