import KiroTrust.Server.Handling
import KiroTrust.Server.Pipeline
import KiroTrust.Shared.EventSource

set_option autoImplicit false

namespace KiroTrust.Server

open Emitter EventSource

/-! What a client reads from the text of a streaming response. -/

/-- Compact JSON escapes the control characters of its strings, and has no line break of its own. -/
def Printer.Compact (print : Printer) : Prop := ∀ e, Inline (print.event e)

namespace Printer

variable (print : Printer)

def wire (e : StreamEvent) : Message := ⟨eventName e, print.event e⟩

def items : Piece → List Item
  | .events events => events.map fun e => .message (eventName e) (print.event e)
  | .keepAlive => [.comment " keep-alive".toList]

omit print in
theorem lines_joined {eventLine dataLine ending eventField dataField colon : Str} (event data : Str)
    (first : eventLine = eventField ++ colon) (second : dataLine = '\n' :: (dataField ++ colon))
    (last : ending = ['\n', '\n']) :
    eventLine ++ event ++ dataLine ++ data ++ ending =
      (eventField ++ colon ++ event ++ ['\n']) ++ ((dataField ++ colon ++ data ++ ['\n']) ++ ['\n']) := by
  subst first second last
  simp only [List.append_assoc, List.cons_append, List.nil_append]

theorem encode_item (e : StreamEvent) : print.encode e = (Item.message (eventName e) (print.event e)).text :=
  lines_joined (eventName e) (print.event e) rfl rfl rfl

theorem text_items (piece : Piece) : print.text piece = (print.items piece).flatMap Item.text := by
  cases piece with
  | events events =>
    rw [text, items, List.flatMap_map]
    exact List.flatMap_congr fun e _ => print.encode_item e
  | keepAlive =>
    rw [items, List.flatMap_singleton]
    rfl

theorem items_messages (piece : Piece) : (print.items piece).flatMap Item.messages = piece.out.map print.wire := by
  cases piece with
  | events events =>
    rw [items, List.flatMap_map]
    exact List.flatMap_pure_eq_map _ _
  | keepAlive => rfl

def Named (name : Str) : Prop := name ≠ [] ∧ Inline name

instance (name : Str) : Decidable (Named name) := inferInstanceAs (Decidable (_ ∧ _))

omit print in
theorem eventName_named : (e : StreamEvent) → Named (eventName e)
  | .messageStart _ => (by decide : Named "message_start".toList)
  | .contentBlockStart _ _ => (by decide : Named "content_block_start".toList)
  | .contentBlockDelta _ _ => (by decide : Named "content_block_delta".toList)
  | .contentBlockStop _ => (by decide : Named "content_block_stop".toList)
  | .messageDelta _ _ => (by decide : Named "message_delta".toList)
  | .messageStop => (by decide : Named "message_stop".toList)
  | .error _ => (by decide : Named "error".toList)

theorem items_clean (compact : print.Compact) (piece : Piece) : ∀ item ∈ print.items piece, item.Clean := by
  intro item inside
  cases piece with
  | events events =>
    obtain ⟨e, -, rfl⟩ := List.mem_map.1 inside
    obtain ⟨named, inline⟩ := eventName_named e
    exact ⟨named, inline, compact e⟩
  | keepAlive =>
    obtain rfl := List.mem_singleton.1 inside
    exact (by decide : Inline " keep-alive".toList)

theorem read_pieces (compact : print.Compact) (pieces : List Piece) :
    read (pieces.flatMap print.text) = (Body.shown pieces).map print.wire := by
  have text : pieces.flatMap print.text = (pieces.flatMap print.items).flatMap Item.text := by
    rw [List.flatMap_assoc]
    exact List.flatMap_congr fun piece _ => print.text_items piece
  have messages : (pieces.flatMap print.items).flatMap Item.messages = (Body.shown pieces).map print.wire := by
    rw [List.flatMap_assoc, Body.shown, List.map_flatMap]
    exact List.flatMap_congr fun piece _ => print.items_messages piece
  rw [text, read_items _ fun item inside => ?_, messages]
  obtain ⟨piece, -, here⟩ := List.mem_flatMap.1 inside
  exact print.items_clean compact piece item here

end Printer

variable (x : Externals)

/-- However the body is polled, and wherever the connection is cut, the messages read are a front of the whole;
of all that has been sent, the reader gets all of the events, and of a body that has ended the whole. -/
def ReadBack (print : Printer) (body : Body) (whole : List StreamEvent) : Prop :=
  ∀ (schedule : List Bool) (received : EventSource.Text),
    let run := runAll (Body.step x) body schedule
    let text := run.2.flatMap print.text
    received <+: text →
      read received <+: whole.map print.wire ∧
        (received = text → read received = (Body.shown run.2).map print.wire) ∧
        (received = text → run.1.finished = true → read received = whole.map print.wire)

theorem body_readBack (print : Printer) (compact : print.Compact) (body : Body) :
    ReadBack x print body (body.remaining x) := by
  intro schedule received run text arrives
  have remains := Body.run_remaining x body schedule
  have reads : read text = _ := print.read_pieces compact run.2
  refine ⟨?_, fun all => all ▸ reads, fun all finished => ?_⟩
  · -- What has arrived is a front of the text, and the text so far a front of the whole stream.
    have front := read_prefix arrives
    rw [reads] at front
    refine front.trans ?_
    rw [remains, List.map_append]
    exact List.prefix_append _ _
  · have drained : run.1.remaining x = [] := by simp [Body.remaining, finished]
    rw [all, reads, remains, drained, List.append_nil]

theorem client_reads_response (print : Printer) (compact : print.Compact)
    (generate : Bool → Except UpstreamError Attempt) :
    (∃ error, postMessages x true generate false = .error error) ∨
      ∃ body whole, postMessages x true generate false = .stream body ∧ EndsOnce whole ∧
        ReadBack x print body whole := by
  obtain error | ⟨attempt, body, streams, responds⟩ := postMessages_stream x generate false
  · exact .inl error
  obtain ⟨whole, emits, -⟩ := respond_stream x responds
  have once := left_endsOnce x emits
  rw [← whole] at once
  exact .inr ⟨body, body.remaining x, streams, once, body_readBack x print compact body⟩

def linesUsage (inputTokens outputTokens : Str) : Str :=
  "\"usage\":\x7b\"input_tokens\":".toList ++ inputTokens ++ ",\"output_tokens\":".toList ++ outputTokens ++
    ",\"cache_read_input_tokens\":0,".toList ++ "\"cache_creation_input_tokens\":0\x7d".toList

def linesStart : Str :=
  "\x7b\"type\":\"message_start\",".toList ++ "\"message\":\x7b\"id\":\"msg_1\",".toList ++
    "\"type\":\"message\",".toList ++ "\"role\":\"assistant\",".toList ++ "\"content\":[],".toList ++
    "\"model\":\"claude-sonnet-4-6\",".toList ++ "\"stop_reason\":null,".toList ++
    "\"stop_sequence\":null,".toList ++ linesUsage "0".toList "0".toList ++ "\x7d\x7d".toList

def linesBlockStart : Str :=
  "\x7b\"type\":\"content_block_start\",".toList ++ "\"index\":0,\"content_block\":".toList ++
    "\x7b\"type\":\"text\",\"text\":\"\"\x7d\x7d".toList

def linesBlockStop : Str := "\x7b\"type\":\"content_block_stop\",".toList ++ "\"index\":0\x7d".toList

def linesDelta : Str :=
  "\x7b\"type\":\"message_delta\",".toList ++ "\"delta\":\x7b\"stop_reason\":\"end_turn\",".toList ++
    "\"stop_sequence\":null\x7d,".toList ++ linesUsage "3".toList "1".toList ++ "\x7d".toList

def linesStop : Str := "\x7b\"type\":\"message_stop\"\x7d".toList

def escape (c : Char) : Str :=
  if c = '\n' then "\\n".toList
  else if c = '\r' then "\\r".toList
  else if c = '"' ∨ c = '\\' then ['\\', c]
  else [c]

def printedText (text : Str) : Str :=
  "\x7b\"type\":\"content_block_delta\",".toList ++ "\"index\":0,\"delta\":".toList ++
    "\x7b\"type\":\"text_delta\",\"text\":\"".toList ++ text.flatMap escape ++ "\"\x7d\x7d".toList

def linesPrinter : Printer where
  event
    | .messageStart _ => linesStart
    | .contentBlockStart _ _ => linesBlockStart
    | .contentBlockDelta _ delta =>
      match delta with
      | .textDelta text => printedText text
      | _ => "null".toList
    | .contentBlockStop _ => linesBlockStop
    | .messageDelta _ _ => linesDelta
    | .messageStop => linesStop
    | .error _ => "null".toList
  message _ := "null".toList

theorem escape_inline (c : Char) : Inline (escape c) := by
  unfold escape
  split_ifs with lineFeed carriageReturn special
  · decide
  · decide
  · rcases special with rfl | rfl <;> decide
  · intro d inside
    cases List.mem_singleton.1 inside
    exact ⟨lineFeed, carriageReturn⟩

set_option maxRecDepth 4096 in
theorem printedText_inline (text : Str) : Inline (printedText text) := by
  have escaped : Inline (text.flatMap escape) := by
    intro d inside
    obtain ⟨c, -, within⟩ := List.mem_flatMap.1 inside
    exact escape_inline c d within
  have front : Inline ("\x7b\"type\":\"content_block_delta\",".toList ++ "\"index\":0,\"delta\":".toList ++
      "\x7b\"type\":\"text_delta\",\"text\":\"".toList) := by decide +kernel
  exact (front.append escaped).append (by decide)

set_option maxRecDepth 4096 in
theorem linesPrinter_compact : linesPrinter.Compact := by
  have start : Inline linesStart := by decide +kernel
  have blockStart : Inline linesBlockStart := by decide +kernel
  have blockStop : Inline linesBlockStop := by decide +kernel
  have delta : Inline linesDelta := by decide +kernel
  have stop : Inline linesStop := by decide +kernel
  have other : Inline "null".toList := by decide
  intro e
  cases e with
  | messageStart => exact start
  | contentBlockStart => exact blockStart
  | contentBlockDelta index block =>
    cases block with
    | textDelta text => exact printedText_inline text
    | thinkingDelta | signatureDelta | inputJsonDelta => exact other
  | contentBlockStop => exact blockStop
  | messageDelta => exact delta
  | messageStop => exact stop
  | error => exact other

def linesAttempt : Attempt := ⟨cut [linesBytes] none, linesOptions, fun _ => false⟩

def streamedBody : Response → Option Body
  | .stream body => some body
  | .message _ | .error _ => none

def polledTexts (body : Body) : List Str :=
  (Body.shown (runAll (Body.step linesExternals) body [true, true, true]).2).filterMap textDelta

set_option maxRecDepth 4096 in
theorem lines_streamed :
    (streamedBody (postMessages linesExternals true (fun _ => .ok linesAttempt) false)).map polledTexts =
      some ["a\nb".toList] := by decide +kernel

theorem client_reads_lines :
    ∃ body whole, postMessages linesExternals true (fun _ => .ok linesAttempt) false = .stream body ∧
      EndsOnce whole ∧ ReadBack linesExternals linesPrinter body whole ∧ polledTexts body = ["a\nb".toList] := by
  have streamed := lines_streamed
  obtain ⟨error, refused⟩ | ⟨body, whole, streams, once, back⟩ :=
    client_reads_response linesExternals linesPrinter linesPrinter_compact fun _ => .ok linesAttempt
  · rw [refused] at streamed
    cases streamed
  · rw [streams] at streamed
    exact ⟨body, whole, streams, once, back, Option.some.inj streamed⟩

end KiroTrust.Server
