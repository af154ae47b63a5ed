import KiroTrust.Translate.Content

set_option autoImplicit false

namespace KiroTrust.Translate

open Anthropic

/-! `normalize.rs`, in the order of its passes. -/

def syntheticEmpty : Str := "(empty)".toList

def syntheticContinue : Str := "Continue".toList

def textBlock (text : Str) : ContentBlock := { kind := "text".toList, text := some text }

def toolUseText (serde : Serde) (b : ContentBlock) : Str :=
  let input := (b.input.map serde.print).getD "null".toList
  "[Tool: ".toList ++ b.name.getD [] ++ " (".toList ++ b.id.getD [] ++ ")]\n".toList ++ input

def toolResultText (b : ContentBlock) : Str :=
  "[Tool Result (".toList ++ b.toolUseId.getD [] ++ ")]\n".toList ++ extractToolResultText b

def textualizeBlock (serde : Serde) (b : ContentBlock) : ContentBlock :=
  if b.isToolUse then textBlock (toolUseText serde b)
  else if b.isToolResult then textBlock (toolResultText b)
  else b

def textualizeAllToolContent (serde : Serde) (msgs : List Message) : List Message :=
  msgs.map fun m =>
    match m.content with
    | .text _ => m
    | .blocks blocks => { role := m.role, content := .blocks (blocks.map (textualizeBlock serde)) }

def answerable (previous : Option Message) : List Str :=
  match previous with
  | some ⟨.assistant, .blocks blocks⟩ => (blocks.filter ContentBlock.isToolUse).filterMap ContentBlock.id
  | _ => []

def textualizeOrphan (ids : List Str) (b : ContentBlock) : ContentBlock :=
  if b.isToolResult ∧ b.toolUseId.getD [] ∉ ids then textBlock (toolResultText b) else b

def withoutOrphans (previous : Option Message) (m : Message) : Message :=
  match m.content with
  | .text _ => m
  | .blocks blocks =>
    if m.role ≠ .user then m
    else { role := m.role, content := .blocks (blocks.map (textualizeOrphan (answerable previous))) }

def textualizeOrphanToolResults (previous : Option Message) : List Message → List Message
  | [] => []
  | m :: rest => withoutOrphans previous m :: textualizeOrphanToolResults (some m) rest

def normalizeRole (m : Message) : Message := if m.role = .other then { m with role := .user } else m

def normalizeRoles (msgs : List Message) : List Message := msgs.map normalizeRole

def isPlainText : MessageContent → Bool
  | .text _ => true
  | .blocks blocks => blocks.all fun b => b.kind = "text".toList

def joinRun (first : Message) (run : List Message) : Message :=
  if run = [] then first
  else
    { role := first.role
      content := .text (List.intercalate "\n".toList ((first :: run).map fun m => extractText m.content)) }

/-- The messages from `first` on; `run` holds what follows it in its group. -/
def mergeFrom (first : Message) (run : List Message) : List Message → List Message
  | [] => [joinRun first run]
  | m :: rest =>
    if isPlainText first.content ∧ m.role = first.role ∧ isPlainText m.content then
      mergeFrom first (run ++ [m]) rest
    else joinRun first run :: mergeFrom m [] rest

def mergeAdjacentSameRole : List Message → List Message
  | [] => []
  | first :: rest => mergeFrom first [] rest

def emptyMessage (role : Role) : Message := { role, content := .text syntheticEmpty }

def ensureStartsWithUser (msgs : List Message) : List Message :=
  match msgs with
  | [] => []
  | first :: _ => if first.role ≠ .user then emptyMessage .user :: msgs else msgs

def opposite (role : Role) : Role := if role = .assistant then .user else .assistant

/-- `last` is the role of the message in front. -/
def alternateAfter (last : Option Role) : List Message → List Message
  | [] => []
  | m :: rest =>
    if last = some m.role then emptyMessage (opposite m.role) :: m :: alternateAfter (some m.role) rest
    else m :: alternateAfter (some m.role) rest

def ensureAlternatingRoles (msgs : List Message) : List Message := alternateAfter none msgs

def normalizeMessages (serde : Serde) (msgs : List Message) (hasTools : Bool) : List Message :=
  let msgs := if hasTools then textualizeOrphanToolResults none msgs else textualizeAllToolContent serde msgs
  ensureAlternatingRoles (ensureStartsWithUser (mergeAdjacentSameRole (normalizeRoles msgs)))

end KiroTrust.Translate
