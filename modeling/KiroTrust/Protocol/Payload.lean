import KiroTrust.Protocol.Json

set_option autoImplicit false

namespace KiroTrust.Kiro

/-! The request payload of `kiro.rs`. -/

def originKiroCli : Str := "KIRO_CLI".toList
def chatTriggerManual : Str := "MANUAL".toList
def agentTaskVibe : Str := "vibe".toList
def toolResultSuccess : Str := "success".toList
def toolResultError : Str := "error".toList

structure CachePoint where
  kind : Str

structure ImageSource where
  bytes : Str

structure Image where
  format : Str
  source : ImageSource

structure ToolResultContent where
  text : Option Str
  json : Option (List (Str × Value))

structure ToolResult where
  toolUseId : Str
  status : Str
  content : List ToolResultContent

structure InputSchema where
  json : List (Str × Value)

structure ToolSpecification where
  name : Str
  description : Str
  inputSchema : InputSchema

inductive ToolEntry where
  | toolSpecification (specification : ToolSpecification)
  | cachePoint (cachePoint : CachePoint)

structure EnvState where
  operatingSystem : Option Str
  currentWorkingDirectory : Option Str
  deriving DecidableEq

structure UserInputMessageContext where
  envState : Option EnvState
  tools : List ToolEntry
  toolResults : List ToolResult

structure UserInputMessage where
  content : Str
  modelId : Option Str
  origin : Option Str
  userInputMessageContext : Option UserInputMessageContext
  images : List Image
  cachePoint : Option CachePoint

structure HistoryToolUse where
  toolUseId : Str
  name : Str
  input : Value

structure HistoryUserInputMessage where
  content : Str
  modelId : Option Str
  origin : Option Str
  userInputMessageContext : Option UserInputMessageContext
  images : List Image
  cachePoint : Option CachePoint

structure AssistantResponseMessage where
  messageId : Option Str
  content : Str
  toolUses : List HistoryToolUse
  cachePoint : Option CachePoint

inductive HistoryEntry where
  | userInputMessage (message : HistoryUserInputMessage)
  | assistantResponseMessage (message : AssistantResponseMessage)

structure ConversationState where
  conversationId : Option Str
  chatTriggerType : Str
  agentTaskType : Str
  -- `current_message.user_input_message`
  currentMessage : UserInputMessage
  history : List HistoryEntry

structure Payload where
  conversationState : ConversationState
  profileArn : Option Str
  -- `additional_model_request_fields.output_config.effort`
  effort : Option Str

end KiroTrust.Kiro
