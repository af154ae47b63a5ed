import KiroTrust.Shared.Search
import KiroTrust.Translate.Normalize
import KiroTrust.Translate.Tools

set_option autoImplicit false

namespace KiroTrust.Translate

open Anthropic
open Kiro (EnvState HistoryEntry HistoryToolUse ToolEntry Payload)
open Walk

/-! `env_state.rs` -/

/-- `char::is_whitespace` -/
def isWhitespace (char : Char) : Bool :=
  (9 ≤ char.toNat && char.toNat ≤ 13) || char.toNat = 0x20 || char.toNat = 0x85 || char.toNat = 0xa0 ||
    char.toNat = 0x1680 || (0x2000 ≤ char.toNat && char.toNat ≤ 0x200a) || char.toNat = 0x2028 ||
    char.toNat = 0x2029 || char.toNat = 0x202f || char.toNat = 0x205f || char.toNat = 0x3000

def trim (text : Str) : Str := ((text.dropWhile isWhitespace).reverse.dropWhile isWhitespace).reverse

def chomp (line : Str) : Str := if line.getLast? = some '\r' then line.dropLast else line

def linesFrom (line : Str) : Str → List Str
  | [] => if line = [] then [] else [line]
  | '\n' :: rest => chomp line :: linesFrom [] rest
  | char :: rest => linesFrom (line ++ [char]) rest

/-- `str::lines` -/
def lines (text : Str) : List Str := linesFrom [] text

def stripPrefix (front text : Str) : Option Str :=
  if front.isPrefixOf text then some (text.drop front.length) else none

def normalizePlatform (p : Str) : Str :=
  if p = "darwin".toList then "macos".toList
  else if p = "win32".toList ∨ p = "windows".toList then "windows".toList
  else p

def readEnvLine (env : EnvState) (line : Str) : EnvState :=
  match stripPrefix "Working directory:".toList line with
  | some v => if trim v ≠ [] then { env with currentWorkingDirectory := some (trim v) } else env
  | none =>
    match stripPrefix "Platform:".toList line with
    | some v => if trim v ≠ [] then { env with operatingSystem := some (normalizePlatform (trim v)) } else env
    | none => env

def parseEnvState (system : Str) : Option EnvState := do
  let start ← Search.find "<env>".toList system
  let inner := system.drop (start + "<env>".toList.length)
  let stop ← Search.find "</env>".toList inner
  let env := (lines (inner.take stop)).foldl readEnvLine ⟨none, none⟩
  if env.operatingSystem.isNone && env.currentWorkingDirectory.isNone then none else some env

/-! `history.rs` -/

def syntheticAck : Str :=
  ("I will fully incorporate this information when generating my responses, and explicitly acknowledge " ++
    "relevant parts of the summary when answering questions.").toList

section

variable (prims : Primitives)

def renameToolUse (names : ToolNameMap) (t : HistoryToolUse) : ToolNameMap × List HistoryToolUse :=
  let (names, name) := names.shorten prims t.name
  (names, [{ t with name }])

structure HistoryState where
  previous : Option Message
  names : ToolNameMap
  counter : Nat

def userEntry (content : Str) (context : Option Kiro.UserInputMessageContext) : HistoryEntry :=
  -- The images of a history entry are counted, and then dropped.
  .userInputMessage
    { content, modelId := none, origin := some Kiro.originKiroCli, userInputMessageContext := context, images := [],
      cachePoint := none }

def resultContext (results : List Kiro.ToolResult) : Option Kiro.UserInputMessageContext :=
  if results = [] then none else some { envState := none, tools := [], toolResults := results }

def assistantEntry (names : ToolNameMap) (content : MessageContent) : ToolNameMap × HistoryEntry :=
  let text := extractText content
  let (names, toolUses) := Emitter.runAll (renameToolUse prims) names (extractToolUses content)
  let seed := "assistant-msg:".toList ++ text ++ toolUses.flatMap fun t => ":".toList ++ t.toolUseId
  (names, .assistantResponseMessage
    { messageId := some (prims.v5 seed), content := text, toolUses, cachePoint := none })

def previousIds (previous : Option Message) : List Str :=
  match previous with
  | some ⟨.assistant, content⟩ => extractToolUseIds content
  | _ => []

def historyEntry (state : HistoryState) (m : Message) : Except ImageError (HistoryEntry × HistoryState) :=
  match m.role with
  | .user | .other => do
    let ((results, _), counter) ← extractToolResults prims m.content state.counter
    let results := reorderToolResults results (previousIds state.previous)
    return (userEntry (extractText m.content) (resultContext results), { state with previous := some m, counter })
  | .assistant =>
    let (names, entry) := assistantEntry prims state.names m.content
    .ok (entry, { state with previous := some m, names })

def buildHistory (msgs : List Message) (names : ToolNameMap) (counter : Nat) :
    Except ImageError (List HistoryEntry × ToolNameMap × Nat) := do
  let (history, state) ← walk (historyEntry prims) ⟨none, names, counter⟩ msgs
  return (history, state.names, state.counter)

def placeSystemPrompt (system : Str) (history : List HistoryEntry) : List HistoryEntry :=
  if system = [] then history
  else
    userEntry system none ::
      .assistantResponseMessage
        { messageId := some (prims.v5 ("synthetic-ack:".toList ++ syntheticAck)), content := syntheticAck,
          toolUses := [], cachePoint := none } :: history

/-! `request.rs` -/

structure BuildOptions where
  profileArn : Option Str
  modelId : Str
  conversationId : Option Str
  effort : Option Str

structure Built where
  payload : Payload
  toolNames : ToolNameMap

def splitMessages (msgs : List Message) : List Message × Message :=
  match msgs.getLast? with
  | none => ([], ⟨.user, .text []⟩)
  | some last =>
    -- After a trailing assistant message the user asks to go on.
    if last.role = .assistant then (msgs, ⟨.user, .text syntheticContinue⟩) else (msgs.dropLast, last)

def toolEntries (tools : List Tool) : ToolNameMap × List ToolEntry :=
  if tools.isEmpty then (.empty, [])
  else
    let (names, entries) := convertTools prims .empty tools
    (names, applyToolCachePoints tools entries)

def currentContext (envState : Option EnvState) (tools : List ToolEntry) (toolResults : List Kiro.ToolResult) :
    Option Kiro.UserInputMessageContext :=
  if envState.isSome ∨ tools ≠ [] ∨ toolResults ≠ [] then some { envState, tools, toolResults } else none

def buildPayload (req : Request) (opts : BuildOptions) : Except ImageError Built := do
  let system := req.systemText
  let (names, tools) := toolEntries prims (callableTools req.tools)
  let msgs := normalizeMessages prims.serde req.messages (!tools.isEmpty)
  let (historyMsgs, last) := splitMessages msgs
  let (history, names, imageCount) ← buildHistory prims historyMsgs names 0
  let (scanned, _) ← scanCurrentMessage prims last.content imageCount
  let toolResults := reorderToolResults scanned.toolResults (previousIds historyMsgs.getLast?)
  let content := extractText last.content
  let current : Kiro.UserInputMessage :=
    { content := if content = [] ∧ toolResults = [] then syntheticContinue else content
      modelId := some opts.modelId
      origin := some Kiro.originKiroCli
      userInputMessageContext := currentContext (parseEnvState system) tools toolResults
      images := scanned.images
      cachePoint := none }
  return {
    payload :=
      { conversationState :=
          { conversationId := opts.conversationId
            chatTriggerType := Kiro.chatTriggerManual
            agentTaskType := Kiro.agentTaskVibe
            currentMessage := current
            history := placeSystemPrompt prims system history }
        profileArn := opts.profileArn
        effort := opts.effort }
    toolNames := names }

def preparedMessages (req : Request) : List Message :=
  normalizeMessages prims.serde req.messages (!(toolEntries prims (callableTools req.tools)).2.isEmpty)

structure Parts (req : Request) (opts : BuildOptions) (built : Built) where
  history : List HistoryEntry
  counter : Nat
  scanned : Scanned
  later : Nat
  historyBuilt : buildHistory prims (splitMessages (preparedMessages prims req)).1
    (toolEntries prims (callableTools req.tools)).1 0 = .ok (history, built.toolNames, counter)
  currentScanned :
    scanCurrentMessage prims (splitMessages (preparedMessages prims req)).2.content counter = .ok (scanned, later)
  placed : built.payload.conversationState.history = placeSystemPrompt prims req.systemText history
  context : built.payload.conversationState.currentMessage.userInputMessageContext =
    currentContext (parseEnvState req.systemText) (toolEntries prims (callableTools req.tools)).2
      (reorderToolResults scanned.toolResults
        (previousIds (splitMessages (preparedMessages prims req)).1.getLast?))
  images : built.payload.conversationState.currentMessage.images = scanned.images
  conversationId : built.payload.conversationState.conversationId = opts.conversationId
  profileArn : built.payload.profileArn = opts.profileArn

variable {prims}

theorem buildPayload_parts {req : Request} {opts : BuildOptions} {built : Built}
    (ok : buildPayload prims req opts = .ok built) : Nonempty (Parts prims req opts built) := by
  obtain ⟨⟨history, names, counter⟩, historyBuilt, continues⟩ := bind_ok.1 ok
  obtain ⟨⟨scanned, later⟩, currentScanned, returned⟩ := bind_ok.1 continues
  cases returned
  exact ⟨{
    history
    counter
    scanned
    later
    historyBuilt
    currentScanned
    placed := rfl
    context := rfl
    images := rfl
    conversationId := rfl
    profileArn := rfl }⟩

end

end KiroTrust.Translate
