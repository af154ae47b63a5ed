import KiroTrust.Protocol.Json

set_option autoImplicit false

namespace KiroTrust

/-- A decoded upstream event; `credits` keeps the JSON number the source converts to `f64`. -/
inductive Event where
  | assistantResponse (content : Str)
  | reasoningContent (text : Str) (signature redactedContent : Option Str)
  | toolUse (toolUseId name input : Str)
  | metadata (uncachedInputTokens outputTokens totalTokens cacheReadInputTokens
      cacheWriteInputTokens : Nat)
  | metering (credits : Number) (inputTokens outputTokens : Nat)
  | invalidState (reason message : Str)
  | exception (exceptionType message : Str)
  | ignored (eventType : Str)
  deriving DecidableEq

/-! The output side of `anthropic.rs`. -/

structure Usage where
  inputTokens : Nat
  outputTokens : Nat
  cacheReadInputTokens : Nat
  cacheCreationInputTokens : Nat
  deriving DecidableEq

def Usage.zero : Usage := ⟨0, 0, 0, 0⟩

inductive StopReason where
  | endTurn
  | toolUse
  | maxTokens
  | stopSequence
  deriving DecidableEq

inductive OutBlock where
  | thinking (thinking : Str) (signature : Option Str)
  | redactedThinking (data : Str)
  | text (text : Str)
  | toolUse (id name : Str) (input : Value)

structure OutMessage where
  id : Str
  kind : Str
  role : Str
  content : List OutBlock
  model : Str
  stopReason : Option StopReason
  stopSequence : Option Str
  usage : Usage

inductive BlockStart where
  | text (text : Str)
  | thinking (thinking : Str) (signature : Option Str)
  | redactedThinking (data : Str)
  | toolUse (id name : Str) (input : List (Str × Value))

inductive Delta where
  | textDelta (text : Str)
  | thinkingDelta (thinking : Str)
  | signatureDelta (signature : Str)
  | inputJsonDelta (partialJson : Str)
  deriving DecidableEq

structure MessageDeltaBody where
  stopReason : StopReason
  stopSequence : Option Str
  deriving DecidableEq

/-- The `error` object of an SSE error event. -/
structure StreamError where
  kind : Str
  message : Str
  deriving DecidableEq

inductive StreamEvent where
  | messageStart (message : OutMessage)
  | contentBlockStart (index : Nat) (contentBlock : BlockStart)
  | contentBlockDelta (index : Nat) (delta : Delta)
  | contentBlockStop (index : Nat)
  | messageDelta (delta : MessageDeltaBody) (usage : Usage)
  | messageStop
  | error (error : StreamError)

end KiroTrust
