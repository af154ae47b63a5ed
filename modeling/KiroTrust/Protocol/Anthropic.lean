import KiroTrust.Protocol.Json

set_option autoImplicit false

namespace KiroTrust.Anthropic

/-! The request side of `anthropic.rs`: what the translation of a request reads. -/

inductive Role where
  | user
  | assistant
  -- Any other role string.
  | other
  deriving DecidableEq

structure ImageSource where
  kind : Str
  mediaType : Str
  data : Str
  deriving DecidableEq

inductive ToolResultContent (Block : Type) where
  | text (text : Str)
  | blocks (blocks : List Block)

/-- One content block; the kind is open, so that unknown kinds survive. -/
structure ContentBlock where
  kind : Str
  text : Option Str := none
  id : Option Str := none
  name : Option Str := none
  input : Option Value := none
  toolUseId : Option Str := none
  content : Option (ToolResultContent ContentBlock) := none
  isError : Bool := false
  source : Option ImageSource := none

def ContentBlock.isToolUse (b : ContentBlock) : Bool :=
  b.kind = "tool_use".toList || b.kind = "server_tool_use".toList

def ContentBlock.isToolResult (b : ContentBlock) : Bool :=
  b.kind = "tool_result".toList || b.kind = "tool_search_tool_result".toList

inductive MessageContent where
  | text (text : Str)
  | blocks (blocks : List ContentBlock)

structure Message where
  role : Role
  content : MessageContent

structure SystemBlock where
  kind : Str
  text : Str

inductive SystemPrompt where
  | text (text : Str)
  | blocks (blocks : List SystemBlock)

structure CacheControl where
  kind : Str

structure Tool where
  kind : Option Str := none
  name : Str
  description : Str
  inputSchema : Option (List (Str × Value)) := none
  cacheControl : Option CacheControl := none

def Tool.isServerTool (tool : Tool) : Bool :=
  match tool.kind with
  | some kind => "tool_search_tool_".toList.isPrefixOf kind || "advisor_".toList.isPrefixOf kind
  | none => false

structure Request where
  messages : List Message
  system : Option SystemPrompt
  tools : List Tool

def Request.systemText (req : Request) : Str :=
  match req.system with
  | none => []
  | some (.text text) => text
  | some (.blocks blocks) =>
    List.intercalate "\n".toList
      ((blocks.filter fun b => b.kind = "text".toList && !b.text.isEmpty).map SystemBlock.text)

end KiroTrust.Anthropic
