import KiroTrust.Protocol.FrameCodec
import KiroTrust.Server.Delivery

set_option autoImplicit false

namespace KiroTrust.Server

open Emitter EventStream Translate

/-! A response depends on the bytes of the upstream body, and not on how they are cut into chunks. -/

def cut (chunks : List (List UInt8)) (ending : Option UpstreamError) :
    List (Except UpstreamError (List UInt8)) :=
  chunks.map .ok ++ ending.toList.map .error

variable (x : Externals)

theorem remaining_cut (s : Tap) (chunks : List (List UInt8)) (ending : Option UpstreamError) :
    let fed := runAll ((frameReader x.crc).pipe (Intake.absorb x)) s chunks
    let last := remaining x fed.1 (cut [] ending)
    remaining x s (cut chunks ending) = (last.1, fed.2 ++ last.2) := by
  induction chunks generalizing s with
  | nil => simp
  | cons chunk rest ih =>
    have later := ih ((frameReader x.crc).pipe (Intake.absorb x) s chunk).1
    simp only [cut, List.map_cons, List.cons_append, remaining, runAll_cons] at later ⊢
    rw [later]
    simp

theorem remaining_flatten (chunks : List (List UInt8)) (ending : Option UpstreamError) (opts : ResponseOptions) :
    (Pump.new (cut chunks ending) opts).remaining x = (Pump.new (cut [chunks.flatten] ending) opts).remaining x := by
  have additive : Chunked.Additive ((frameReader x.crc).pipe (Intake.absorb x)) _ :=
    (frameReader x.crc).pipe_additive fun s e => Intake.absorb_halted x (Intake.absorb_error x s e)
  let start : Tap := (⟨(), [], none⟩, (Pump.new [] opts).toIntake)
  have whole := additive.runAll_flatten start ⟨FrameDecoder.new_settled x.crc, by simp [start]⟩
  have parts := remaining_cut x start chunks ending
  have joined := remaining_cut x start [chunks.flatten] ending
  simp only [whole, List.flatten_cons, List.flatten_nil, List.append_nil] at parts joined
  exact parts.trans joined.symm

/-- What a client gets of one upstream stream, whose priming does not run out of time. -/
def outcome (streaming : Bool) (p : Pump) : Except Refusal (List StreamEvent ⊕ OutMessage) :=
  match respond x streaming (fun _ => false) p with
  | .error refusal => .error refusal
  | .ok (.stream body) => .ok (.inl (body.read x))
  | .ok (.message folded) => folded.map .inr

def told (streaming : Bool) (whole : Intake × List StreamEvent) : Except Refusal (List StreamEvent ⊕ OutMessage) :=
  match whole.1.refusal with
  | some refusal =>
    if streaming ∧ whole.2 ≠ [] then .ok (.inl (whole.2 ++ [sseError refusal.error])) else .error refusal
  | none =>
    if streaming then .ok (.inl whole.2) else .ok (.inr (whole.1.translator.intoMessage x.serde))

theorem read_told {bytes : List (Except UpstreamError (List UInt8))} {opts : ResponseOptions} {body : Body}
    (streams : respond x true (fun _ => false) (Pump.new bytes opts) = .ok (.stream body)) :
    .ok (.inl (body.read x)) = told x true ((Pump.new bytes opts).remaining x) := by
  obtain ⟨whole, emits, -⟩ := respond_stream x streams
  rw [Body.read_remaining, whole]
  cases refused : ((Pump.new bytes opts).remaining x).1.refusal with
  | none => simp [told, Body.left, Body.ending, refused]
  | some refusal =>
    have emitted := emits (by simp [refused])
    simp [told, Body.left, Body.ending, refused, emitted]

theorem foldResponse_over {p : Pump} (atEnd : p.endedOrStopped = true) :
    foldResponse x p = .ok (p.translator.intoMessage x.serde) := by
  rw [foldResponse]
  simp [atEnd]

theorem outcome_told (streaming : Bool) (bytes : List (Except UpstreamError (List UInt8)))
    (opts : ResponseOptions) :
    outcome x streaming (Pump.new bytes opts) = told x streaming ((Pump.new bytes opts).remaining x) := by
  obtain ⟨-, late, ⟨⟩⟩ | foretells :=
    Pump.prime_foretells x streaming (fun _ => false) 0 (Pump.new bytes opts)
  rcases primed : (Pump.new bytes opts).prime x streaming (fun _ => false) 0 [] with ⟨after, first, seen⟩
  simp only [primed] at foretells
  cases first with
  | failed f =>
    obtain ⟨refused, silent⟩ := foretells
    cases streaming <;> simp_all [outcome, respond, told]
  | broken e =>
    obtain ⟨refused, silent⟩ := foretells
    cases streaming <;> simp_all [outcome, respond, told]
  | ready first =>
    obtain ⟨rfl, -⟩ := foretells
    have streams : respond x true (fun _ => false) (Pump.new bytes opts) =
        .ok (.stream (streamResponse first after)) := by
      simp [respond, primed]
    rw [← read_told x streams, outcome, streams]
  | ended first =>
    obtain ⟨unrefused, atEnd, last, -⟩ := foretells
    cases streaming with
    | true =>
      have streams : respond x true (fun _ => false) (Pump.new bytes opts) =
          .ok (.stream (streamResponse first after)) := by
        simp [respond, primed]
      rw [← read_told x streams, outcome, streams]
    | false =>
      have folds : respond x false (fun _ => false) (Pump.new bytes opts) = .ok (.message (foldResponse x after)) := by
        simp [respond, primed]
      rw [outcome, folds, foldResponse_over x atEnd]
      simp [told, last, unrefused, Except.map]

theorem response_chunking_invariant (left right : List (List UInt8)) (same : left.flatten = right.flatten)
    (ending : Option UpstreamError) (opts : ResponseOptions) (streaming : Bool) :
    outcome x streaming (Pump.new (cut left ending) opts) =
      outcome x streaming (Pump.new (cut right ending) opts) := by
  rw [outcome_told, outcome_told, remaining_flatten x left, remaining_flatten x right, same]

def linesJson : Str := "\x7b\"content\":\"a\\nb\"\x7d".toList

def linesFrame : Frame :=
  ⟨[(":message-type".toList, .string "event".toList), (":event-type".toList, .string "assistantResponseEvent".toList)],
    linesJson.bytes⟩

def linesBytes : List UInt8 := linesFrame.encode crc32

def linesExternals : Externals where
  crc := crc32
  serde :=
    { fromSlice := fun payload =>
        if payload = linesJson.bytes then some (.object [("content".toList, .string "a\nb".toList)]) else none
      fromStr := fun _ => none
      print := fun _ => [] }
  uuid := fun _ => []

def linesOptions : ResponseOptions := ⟨"claude-sonnet-4-6".toList, "msg_1".toList, [], 64, fun _ => none, 3⟩

def textDelta : StreamEvent → Option Str
  | .contentBlockDelta _ (.textDelta text) => some text
  | _ => none

def streamedTexts : Except Refusal (List StreamEvent ⊕ OutMessage) → List Str
  | .ok (.inl events) => events.filterMap textDelta
  | _ => []

set_option maxRecDepth 4096 in
theorem response_chunking_invariant_sample :
    let whole := outcome linesExternals true (Pump.new (cut [linesBytes] none) linesOptions)
    let parts := [linesBytes.take 5, [], linesBytes.drop 5]
    outcome linesExternals true (Pump.new (cut parts none) linesOptions) = whole ∧
      streamedTexts whole = ["a\nb".toList] := by
  intro whole parts
  have same : parts.flatten = [linesBytes].flatten := by simp [parts]
  exact ⟨response_chunking_invariant linesExternals parts [linesBytes] same none linesOptions true, by decide +kernel⟩

end KiroTrust.Server
