import KiroTrust.Protocol.Events
import KiroTrust.Protocol.FrameDecoder

set_option autoImplicit false

namespace KiroTrust.EventStream

/-! Kiro events from frames. -/

namespace Frame

def headerStr (frame : Frame) (name : Str) : Option Str :=
  frame.headers.findSome? fun (key, value) =>
    match value with
    -- Headers of another type do not count, whatever their name.
    | .string text => if key = name then some text else none
    | _ => none

def messageType (frame : Frame) : Option Str := frame.headerStr ":message-type".toList

def eventType (frame : Frame) : Option Str := frame.headerStr ":event-type".toList

def exceptionType (frame : Frame) : Option Str := frame.headerStr ":exception-type".toList

end Frame

inductive EventError where
  | badJson (eventType : Str)
  | toolInputTooLarge (toolUseId : Str) (max : Nat)
  deriving DecidableEq

def EventError.display : EventError → Str
  | .badJson eventType => eventType ++ " payload is not valid JSON".toList
  | .toolInputTooLarge toolUseId max =>
    "tool input for ".toList ++ toolUseId ++ " exceeds ".toList ++ decimal max ++ " bytes".toList

structure ToolUseAccumulator where
  id : Str
  name : Str
  input : Str
  deriving DecidableEq

def ToolUseAccumulator.empty : ToolUseAccumulator := ⟨[], [], []⟩

def ToolUseAccumulator.take (tool : ToolUseAccumulator) : Event := .toolUse tool.id tool.name tool.input

structure EventParser where
  tool : ToolUseAccumulator
  -- How many ids have been drawn from the supply of `Uuid::new_v4`.
  drawn : Nat
  deriving DecidableEq

def u64Field (v : Value) (key : String) : Nat :=
  match (v.get key.toList).bind Value.asU64 with
  | some value => value.toNat
  | none => 0

def strField (v : Value) (key : String) : Option Str :=
  -- An empty string counts as absent.
  ((v.get key.toList).bind Value.asStr).filter (· ≠ [])

namespace EventParser

variable (serde : Serde) (uuid : Nat → Str)

def new : EventParser := ⟨.empty, 0⟩

def rejectToolInput (parser : EventParser) : EventParser × Except EventError (List Event) :=
  -- What the frame has closed before it is lost with it.
  ({ parser with tool := .empty }, .error (.toolInputTooLarge parser.tool.id maxToolInputBytes))

def opens (parser : EventParser) (v : Value) : Option EventParser :=
  -- The call that a tool frame opens, if it opens one.
  let currentId := (strField v "toolUseId").getD []
  -- An id that changes opens a call, and so does a name while no call is open.
  if currentId ≠ [] ∧ currentId ≠ parser.tool.id then
    some { parser with tool := ⟨currentId, [], []⟩ }
  else if currentId = [] ∧ parser.tool.id = [] ∧ (v.get "name".toList).isSome then
    some ⟨⟨uuid parser.drawn, [], []⟩, parser.drawn + 1⟩
  else none

def takeName (parser : EventParser) (v : Value) : EventParser :=
  match strField v "name" with
  | some name => { parser with tool := { parser.tool with name } }
  | none => parser

def takeInput (parser : EventParser) (v : Value) : Option EventParser :=
  match v.get "input".toList with
  -- A string is a fragment, any other JSON value is the whole input.
  | some (.string s) =>
    if parser.tool.input.byteLen + s.byteLen > maxToolInputBytes then none
    else some { parser with tool := { parser.tool with input := parser.tool.input ++ s } }
  | none | some .null => some parser
  | some other =>
    let serialized := serde.print other
    if serialized.byteLen > maxToolInputBytes then none
    else some { parser with tool := { parser.tool with input := serialized } }

def toolUse (parser : EventParser) (v : Value) : EventParser × Except EventError (List Event) :=
  let opened := parser.opens uuid v
  -- The call in flight is closed by the one that opens.
  let out := if opened.isSome ∧ parser.tool.id ≠ [] then [parser.tool.take] else []
  let named := (opened.getD parser).takeName v
  match named.takeInput serde v with
  | none => named.rejectToolInput
  | some parser =>
    if (v.get "stop".toList).bind Value.asBool = some true then
      ({ parser with tool := .empty }, .ok (out ++ [parser.tool.take]))
    else (parser, .ok out)

def parse (parser : EventParser) (frame : Frame) : EventParser × Except EventError (List Event) :=
  let json := serde.fromSlice frame.payload
  if frame.messageType = some "exception".toList then
    let v := json.getD .null
    (parser, .ok [.exception (frame.exceptionType.getD []) ((strField v "message").getD [])])
  else
    match frame.eventType with
    | none => (parser, .ok [])
    | some eventType =>
      -- A payload that is no JSON is an error for some events, and is passed over for the others.
      if eventType = "assistantResponseEvent".toList then
        match json with
        | none => (parser, .error (.badJson eventType))
        | some v => (parser, .ok [.assistantResponse ((strField v "content").getD [])])
      else if eventType = "reasoningContentEvent".toList then
        match json with
        | none => (parser, .error (.badJson eventType))
        | some v =>
          (parser, .ok [.reasoningContent ((strField v "text").getD []) (strField v "signature")
            (strField v "redactedContent")])
      else if eventType = "toolUseEvent".toList then
        match json with
        | none => (parser, .ok [])
        | some v => parser.toolUse serde uuid v
      else if eventType = "metadataEvent".toList then
        match json with
        | none => (parser, .ok [])
        | some v =>
          let tu := (v.get "tokenUsage".toList).getD .null
          (parser, .ok [.metadata (u64Field tu "uncachedInputTokens") (u64Field tu "outputTokens")
            (u64Field tu "totalTokens") (u64Field tu "cacheReadInputTokens")
            (u64Field tu "cacheWriteInputTokens")])
      else if eventType = "meteringEvent".toList then
        match json with
        | none => (parser, .ok [])
        | some v =>
          let credits := ((v.get "usage".toList).bind Value.asNumber).getD (.float 0)
          (parser, .ok [.metering credits (u64Field v "inputTokens") (u64Field v "outputTokens")])
      else if eventType = "invalidStateEvent".toList then
        match json with
        | none => (parser, .error (.badJson eventType))
        | some v => (parser, .ok [.invalidState ((strField v "reason").getD []) ((strField v "message").getD [])])
      else (parser, .ok [.ignored eventType])

def finish (parser : EventParser) : EventParser × Option Event :=
  if parser.tool.id = [] then (parser, none)
  else ({ parser with tool := .empty }, some parser.tool.take)

end EventParser

end KiroTrust.EventStream
