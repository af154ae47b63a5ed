import Mathlib.Data.List.Perm.Basic
import KiroTrust.Protocol.Anthropic
import KiroTrust.Protocol.Payload
import KiroTrust.Shared.Walk

set_option autoImplicit false

namespace KiroTrust.Translate

open Anthropic
open Kiro (ToolResult HistoryToolUse Image)
open Walk

/-- What the translation of a request calls outside the repository. -/
structure Primitives where
  -- `base64::engine::general_purpose::STANDARD`
  decodeBase64 : Str → Option (List UInt8)
  -- `Uuid::new_v5` in the URL namespace, printed
  v5 : Str → Str
  sha256 : List UInt8 → Vector UInt8 32
  serde : Serde

def skipped : List Str :=
  ["thinking".toList, "redacted_thinking".toList, "tool_use".toList, "tool_result".toList, "image".toList,
    "tool_reference".toList, "server_tool_use".toList, "tool_search_tool_result".toList]

def maxImagesPerRequest : Nat := 10

def maxImageBytes : Nat := 10 * 1024 * 1024

def imageFormats : List Str := ["gif".toList, "jpeg".toList, "png".toList, "webp".toList]

inductive ImageError where
  | unsupportedMediaType (mediaType : Str)
  | invalidBase64
  | tooLarge (decodedBytes : Nat)
  | tooMany (count : Nat)
  deriving DecidableEq

def blockText (b : ContentBlock) : Option Str :=
  if b.kind = "text".toList then some (b.text.getD [])
  else if b.kind ∈ skipped then none
  else
    -- A kind that nothing handles is shown by its name.
    let ident := (b.name.or b.id).getD []
    if ident = [] then some ("[".toList ++ b.kind ++ "]".toList)
    else some ("[".toList ++ b.kind ++ ": ".toList ++ ident ++ "]".toList)

def extractText : MessageContent → Str
  | .text text => text
  | .blocks blocks => List.intercalate " ".toList (blocks.filterMap blockText)

def extractToolResultText (b : ContentBlock) : Str :=
  match b.content with
  | none => []
  | some (.text text) => text
  | some (.blocks blocks) =>
    List.intercalate "\n".toList
      ((blocks.filter fun cb => cb.kind = "text".toList).map fun cb => cb.text.getD [])

def resultJson (text : Str) (isError : Bool) : List (Str × Value) :=
  [("exit_status".toList, .string (if isError then "1".toList else "0".toList)),
    ("stdout".toList, .string text), ("stderr".toList, .string [])]

def toolResult (b : ContentBlock) (text : Str) : ToolResult :=
  let text := if text = [] then "(empty result)".toList else text
  { toolUseId := b.toolUseId.getD []
    status := if b.isError then Kiro.toolResultError else Kiro.toolResultSuccess
    content := [{ text := none, json := some (resultJson text b.isError) }] }

section Images

variable (prims : Primitives)

def convertImage (counter : Nat) (b : ContentBlock) : Except ImageError (Option Image × Nat) :=
  match b.source with
  | none => .ok (none, counter)
  | some src =>
    if src.kind ≠ "base64".toList then .ok (none, counter)
    else
      -- What follows the last slash.
      let format := (src.mediaType.reverse.takeWhile (· ≠ '/')).reverse
      if format ∉ imageFormats then .error (.unsupportedMediaType src.mediaType)
      else
        match prims.decodeBase64 src.data with
        | none => .error .invalidBase64
        | some decoded =>
          if decoded.length > maxImageBytes then .error (.tooLarge decoded.length)
          else if counter + 1 > maxImagesPerRequest then .error (.tooMany (counter + 1))
          else .ok (some { format, source := { bytes := src.data } }, counter + 1)

def promoteToolResultImages (counter : Nat) (b : ContentBlock) : Except ImageError (List Image × Nat) :=
  match b.content with
  | some (.blocks inner) => do
    let (images, counter) ← walk (convertImage prims) counter (inner.filter fun cb => cb.kind = "image".toList)
    return (images.filterMap id, counter)
  | _ => .ok ([], counter)

def scanToolResult (counter : Nat) (b : ContentBlock) : Except ImageError ((ToolResult × List Image) × Nat) := do
  let text := extractToolResultText b
  let (promoted, counter) ← promoteToolResultImages prims counter b
  let notice := "[".toList ++ (toString promoted.length).toList ++
    " image(s) from this tool result attached to the message]".toList
  let text :=
    if promoted.isEmpty then text
    else if text = [] then notice
    else text ++ "\n".toList ++ notice
  return ((toolResult b text, promoted), counter)

def extractToolResults (content : MessageContent) (counter : Nat) :
    Except ImageError ((List ToolResult × List Image) × Nat) :=
  match content with
  | .text _ => .ok (([], []), counter)
  | .blocks blocks => do
    let (scanned, counter) ← walk (scanToolResult prims) counter (blocks.filter ContentBlock.isToolResult)
    return ((scanned.map Prod.fst, scanned.flatMap Prod.snd), counter)

structure Scanned where
  toolResults : List ToolResult
  images : List Image

def scanBlock (counter : Nat) (b : ContentBlock) : Except ImageError ((Option ToolResult × List Image) × Nat) :=
  if b.isToolResult then do
    let ((result, promoted), counter) ← scanToolResult prims counter b
    return ((some result, promoted), counter)
  else if b.kind = "image".toList then do
    let (image, counter) ← convertImage prims counter b
    return ((none, image.toList), counter)
  else .ok ((none, []), counter)

def scanCurrentMessage (content : MessageContent) (counter : Nat) : Except ImageError (Scanned × Nat) :=
  match content with
  | .text _ => .ok (⟨[], []⟩, counter)
  | .blocks blocks => do
    let (scanned, counter) ← walk (scanBlock prims) counter blocks
    return (⟨scanned.filterMap Prod.fst, scanned.flatMap Prod.snd⟩, counter)

end Images

def extractToolUses : MessageContent → List HistoryToolUse
  | .text _ => []
  | .blocks blocks =>
    (blocks.filter ContentBlock.isToolUse).map fun b =>
      { toolUseId := b.id.getD [], name := b.name.getD [], input := b.input.getD (.object []) }

def extractToolUseIds (content : MessageContent) : List Str :=
  (extractToolUses content).map HistoryToolUse.toolUseId

def reorderBy : List Str → List ToolResult → List ToolResult
  | [], rest => rest
  | id :: ids, rest =>
    match rest.find? fun r => r.toolUseId = id with
    | some r => r :: reorderBy ids (rest.eraseP fun r => r.toolUseId = id)
    | none => reorderBy ids rest

def reorderToolResults (results : List ToolResult) (ids : List Str) : List ToolResult :=
  if results.length ≤ 1 ∨ ids = [] then results else reorderBy ids results

def resultIds : MessageContent → List Str
  | .text _ => []
  | .blocks blocks => (blocks.filter ContentBlock.isToolResult).map fun b => b.toolUseId.getD []

theorem scanToolResult_id {prims : Primitives} {counter next : Nat} {b : ContentBlock}
    {scanned : ToolResult × List Image} (ok : scanToolResult prims counter b = .ok (scanned, next)) :
    scanned.1.toolUseId = b.toolUseId.getD [] := by
  obtain ⟨promoted, -, returned⟩ := bind_ok.1 ok
  cases returned
  rfl

theorem extractToolResults_ids {prims : Primitives} {content : MessageContent} {counter next : Nat}
    {results : List ToolResult} {images : List Image}
    (ok : extractToolResults prims content counter = .ok ((results, images), next)) :
    results.map ToolResult.toolUseId = resultIds content := by
  cases content with
  | text text =>
    cases ok
    rfl
  | blocks blocks =>
    obtain ⟨⟨scanned, last⟩, walked, returned⟩ := bind_ok.1 ok
    cases returned
    have ids : scanned.map (fun part => part.1.toolUseId) = _ :=
      walk_map (fun counter b output next ok => scanToolResult_id ok) walked
    rw [List.map_map]
    exact ids

theorem scanBlock_id {prims : Primitives} {counter next : Nat} {b : ContentBlock}
    {scanned : Option ToolResult × List Image} (ok : scanBlock prims counter b = .ok (scanned, next)) :
    scanned.1.map ToolResult.toolUseId = if b.isToolResult then some (b.toolUseId.getD []) else none := by
  unfold scanBlock at ok
  split at ok
  next isResult =>
    obtain ⟨⟨result, last⟩, scans, returned⟩ := bind_ok.1 ok
    cases returned
    simp [isResult, scanToolResult_id scans]
  next notResult =>
    split at ok
    · obtain ⟨image, -, returned⟩ := bind_ok.1 ok
      cases returned
      simp [notResult]
    · cases ok
      simp [notResult]

theorem scanCurrentMessage_ids {prims : Primitives} {content : MessageContent} {counter next : Nat}
    {scanned : Scanned} (ok : scanCurrentMessage prims content counter = .ok (scanned, next)) :
    scanned.toolResults.map ToolResult.toolUseId = resultIds content := by
  cases content with
  | text text =>
    cases ok
    rfl
  | blocks blocks =>
    obtain ⟨⟨parts, last⟩, walked, returned⟩ := bind_ok.1 ok
    cases returned
    have each : parts.map (fun part => part.1.map ToolResult.toolUseId) = _ :=
      walk_map (fun counter b output next ok => scanBlock_id ok) walked
    have collected := congrArg (List.filterMap fun part => part) each
    rw [List.filterMap_map, List.filterMap_map] at collected
    rw [List.map_filterMap, resultIds, ← List.filterMap_eq_map', List.filterMap_filter]
    exact collected

theorem find?_eraseP_perm {results : List ToolResult} {id : Str} {r : ToolResult}
    (found : (results.find? fun r => r.toolUseId = id) = some r) :
    (r :: results.eraseP fun r => r.toolUseId = id).Perm results := by
  obtain ⟨matching, front, back, rfl, none⟩ := List.find?_eq_some_iff_append.1 found
  have passes (other : ToolResult) (inFront : other ∈ front) : ¬ decide (other.toolUseId = id) = true := by
    simpa using none other inFront
  rw [List.eraseP_append_right _ passes, List.eraseP_cons, matching]
  exact List.perm_middle.symm

theorem reorderBy_perm (ids : List Str) (results : List ToolResult) : (reorderBy ids results).Perm results := by
  induction ids generalizing results with
  | nil => exact .refl results
  | cons id ids ih =>
    rw [reorderBy]
    split
    next r found => exact ((ih _).cons r).trans (find?_eraseP_perm found)
    next => exact ih results

theorem reorderToolResults_perm (results : List ToolResult) (ids : List Str) :
    (reorderToolResults results ids).Perm results := by
  unfold reorderToolResults
  split
  · exact .refl results
  · exact reorderBy_perm ids results

end KiroTrust.Translate
