import KiroTrust.Server.Messages
import KiroTrust.Server.Usage

set_option autoImplicit false

namespace KiroTrust.Server

open Translate
open Tracking (RequestUsageGuard UsageErrorKind Outcome Transition noUsage)

/-! One `/v1/messages` request from its payload on: the replay loop, and its usage guard. -/

/-! `sse.rs` -/

def keepAliveText : Str := ": keep-alive\n\n".toList

def eventName : StreamEvent → Str
  | .messageStart _ => "message_start".toList
  | .contentBlockStart _ _ => "content_block_start".toList
  | .contentBlockDelta _ _ => "content_block_delta".toList
  | .contentBlockStop _ => "content_block_stop".toList
  | .messageDelta _ _ => "message_delta".toList
  | .messageStop => "message_stop".toList
  | .error _ => "error".toList

/-- What the route uses of other crates: `serde_json` over the derived forms of events and messages. -/
structure Printer where
  event : StreamEvent → Str
  message : OutMessage → Str

def Printer.encode (print : Printer) (e : StreamEvent) : Str :=
  "event: ".toList ++ eventName e ++ "\ndata: ".toList ++ print.event e ++ "\n\n".toList

def Printer.text (print : Printer) : Piece → Str
  | .events events => events.flatMap print.encode
  | .keepAlive => keepAliveText

/-! `messages.rs` -/

def failureUsageKind (failure : Failure) : UsageErrorKind :=
  match failure.kind with
  | .invalidState _ => .invalidState
  | .exception exceptionType =>
    if "INSUFFICIENT_MODEL_CAPACITY".toList <:+: failure.message then .modelCapacity
    else if exceptionType = "ThrottlingException".toList ∨ exceptionType = "TooManyRequestsException".toList then
      .transientThrottle
    else .upstreamServer

def upstreamUsageKind (error : UpstreamError) : UsageErrorKind :=
  match error.kind with
  | .auth => .authentication
  | .throttled => .transientThrottle
  | .modelCapacity => .modelCapacity
  | .allowanceExhausted => .allowanceExhausted
  | .transport => .transport
  | .protocol => .protocol
  | .server | .client => .upstreamServer

def Refusal.usageKind : Refusal → UsageErrorKind
  | .failed f => failureUsageKind f
  | .broken e => upstreamUsageKind e

def withoutConversation (payload : Kiro.Payload) : Kiro.Payload :=
  { payload with conversationState := { payload.conversationState with conversationId := none } }

/-- What does not change while a request is handled; `attempt` is what is made anew for each attempt. -/
structure Route where
  kiro : Kiro.Externals
  server : Externals
  print : Printer
  streaming : Bool
  invocationId : Bool → Str
  opts : Bool → ResponseOptions

inductive Stage where
  -- `generate_with_progress` awaits something.
  | generating (g : Kiro.Generate)
  | priming (pump : Pump) (buffered : List StreamEvent)
  | folding (pump : Pump)
  | body (b : Body) (outputBytes : Nat)
  | ended

structure Handling where
  payload : Kiro.Payload
  replayed : Bool
  usage : RequestUsageGuard
  stage : Stage

/-- `elapsed` is what the clock of the guard shows; `late`, that a deadline passes while `next` waits. -/
inductive Turn where
  | upstream (elapsed : Nat) (input : Kiro.Input)
  | pump (elapsed : Nat) (late : Bool)
  | drop (elapsed : Nat)

inductive Seen where
  | generate (payload : Kiro.Payload)
  | client (o : Kiro.Observation)
  | primed (primed : Primed)
  | answer (response : Response)
  | piece (piece : Piece)
  | settled (t : Transition)

/-- A `transition` that gets the lock at once. -/
def settle (g : RequestUsageGuard) (outcome : Outcome) (elapsed : Nat) : RequestUsageGuard × List Seen :=
  match g.transition outcome elapsed false with
  | .locking g t _ => (g, [.settled t])
  | _ => (g, [])

namespace Pump

variable (x : Externals)

/-- One turn of the loop of `prime`: its result, or what is buffered by then, and what is observed. -/
def primeTurn (streaming late : Bool) (p : Pump) (buffered : List StreamEvent) :
    Pump × Except Primed (List StreamEvent) × Option UsageSnapshot :=
  if p.translator.started = false ∧ late = true ∧ p.ready = none then
    ({ p with broken := some primingTimeout }, .error (.broken primingTimeout), none)
  else
    let after := (p.next x).1
    let seen := some after.translator.usageSnapshot
    match (p.next x).2 with
    | .events ev =>
      let buffered := if streaming then buffered ++ ev else buffered
      if after.endedOrStopped then (after, .error (.ended buffered), seen)
      else if streaming ∧ buffered ≠ [] then (after, .error (.ready buffered), seen)
      else (after, .ok buffered, seen)
    | .failed ev f =>
      let buffered := if streaming then buffered ++ ev else buffered
      if streaming = false ∨ buffered = [] then (after, .error (.failed f), seen)
      else (after, .error (.ready buffered), seen)
    | .broken ev e =>
      let buffered := if streaming then buffered ++ ev else buffered
      if streaming = false ∨ buffered = [] then (after, .error (.broken e), seen)
      else (after, .error (.ready buffered), seen)
    | .done => (after, .error (.ended buffered), seen)

end Pump

namespace Handling

/-- Before an attempt: nothing is awaited, and `completed` posts have been counted. -/
def new (payload : Kiro.Payload) (replayed : Bool) (modelIndex : Tracking.ModelIndex) (completed : Nat) : Handling where
  payload
  replayed
  usage := { modelIndex, usage := noUsage, outputBytes := 0, progress := completed, terminal := false }
  stage := .ended

variable (r : Route)

/-- `generate_with_progress` has moved; its counter is the one of the guard. -/
def proceed (h : Handling) (elapsed : Nat) (g : Kiro.Generate) : Handling × List Seen :=
  let h := { h with usage := { h.usage with progress := g.progress.getD h.usage.progress } }
  match g.phase with
  | .returned (.ok upstream) => ({ h with stage := .priming (.new upstream.bytes (r.opts h.replayed)) [] }, [])
  | .returned (.error e) =>
    let settled := settle h.usage (.failed (upstreamUsageKind e)) elapsed
    ({ h with usage := settled.1, stage := .ended }, settled.2 ++ [.answer (.error (.ofUpstream e))])
  | _ => ({ h with stage := .generating g }, [])

def call (h : Handling) (elapsed : Nat) : Handling × List Seen :=
  let g := Kiro.Generate.start r.kiro h.payload (r.invocationId h.replayed) (some h.usage.progress)
  let after := h.proceed r elapsed g
  (after.1, .generate h.payload :: after.2)

def refuse (h : Handling) (elapsed : Nat) (pump : Pump) (refusal : Refusal) : Handling × List Seen :=
  let usage := h.usage.update pump.translator.usageSnapshot 0
  let settled := settle usage (.failed refusal.usageKind) elapsed
  ({ h with usage := settled.1, stage := .ended }, settled.2 ++ [.answer (.error refusal.error)])

def finishMessage (h : Handling) (elapsed : Nat) (pump : Pump) : Handling × List Seen :=
  let msg := pump.translator.intoMessage r.server.serde
  let outputBytes := min (r.print.message msg).byteLen Tracking.u64Max
  let usage := h.usage.update pump.translator.usageSnapshot outputBytes
  let settled := settle usage .completed elapsed
  ({ h with usage := settled.1, stage := .ended }, settled.2 ++ [.answer (.message msg)])

/-- The `match` on what `prime` returns. -/
def onPrimed (h : Handling) (elapsed : Nat) (pump : Pump) (primed : Primed) : Handling × List Seen :=
  match primed with
  | .failed f =>
    if !h.replayed && retryable f then
      let h := { h with
        replayed := true
        payload := withoutConversation h.payload
        usage := h.usage.update noUsage 0 }
      h.call r elapsed
    else h.refuse elapsed pump (.failed f)
  | .broken e => h.refuse elapsed pump (.broken e)
  | .ready first | .ended first =>
    if r.streaming then
      let initialBytes := Str.byteLen (first.flatMap r.print.encode)
      let usage := h.usage.update pump.translator.usageSnapshot (min initialBytes Tracking.u64Max)
      let b := streamResponse first pump
      ({ h with usage, stage := .body b initialBytes }, [.answer (.stream b)])
    else if pump.endedOrStopped then h.finishMessage r elapsed pump
    else ({ h with stage := .folding pump }, [])

/-- `prime` goes on, or returns. -/
def onTurn (h : Handling) (elapsed : Nat) (pump : Pump) (turn : Except Primed (List StreamEvent)) :
    Handling × List Seen :=
  match turn with
  | .ok buffered => ({ h with stage := .priming pump buffered }, [])
  | .error primed =>
    let after := h.onPrimed r elapsed pump primed
    (after.1, .primed primed :: after.2)

def onPriming (h : Handling) (elapsed : Nat) (late : Bool) (pump : Pump) (buffered : List StreamEvent) :
    Handling × List Seen :=
  let turn := pump.primeTurn r.server r.streaming late buffered
  let h :=
    match turn.2.2 with
    | some snapshot => { h with usage := h.usage.update snapshot 0 }
    | none => h
  h.onTurn r elapsed turn.1 turn.2.1

/-- One turn of the non-streaming `while`. -/
def onFolding (h : Handling) (elapsed : Nat) (pump : Pump) : Handling × List Seen :=
  let after := (pump.next r.server).1
  match (pump.next r.server).2 with
  | .events _ =>
    let h := { h with usage := h.usage.update after.translator.usageSnapshot 0 }
    if after.endedOrStopped then h.finishMessage r elapsed after else ({ h with stage := .folding after }, [])
  | .failed _ f => h.refuse elapsed after (.failed f)
  | .broken _ e => h.refuse elapsed after (.broken e)
  | .done => h.finishMessage r elapsed after

def account (usage : RequestUsageGuard) (elapsed : Nat) (late : Bool) (b : Body) (outputBytes : Nat) (piece : Piece) :
    (RequestUsageGuard × List Seen) × Nat :=
  match b.initial with
  | some _ => (if b.pump.endedOrStopped then settle usage .completed elapsed else (usage, []), outputBytes)
  | none =>
    if late = true ∧ b.pump.ready = none then ((usage, []), outputBytes)
    else
      let pump := (b.pump.next r.server).1
      let outputBytes := min (outputBytes + (r.print.text piece).byteLen) Tracking.u64Max
      let usage := usage.update pump.translator.usageSnapshot outputBytes
      (match (b.pump.next r.server).2 with
        | .events _ => if pump.endedOrStopped then settle usage .completed elapsed else (usage, [])
        | .failed _ f => settle usage (.failed (failureUsageKind f)) elapsed
        | .broken _ e => settle usage (.failed (upstreamUsageKind e)) elapsed
        | .done => settle usage .completed elapsed, outputBytes)

def onBody (h : Handling) (elapsed : Nat) (late : Bool) (b : Body) (outputBytes : Nat) : Handling × List Seen :=
  match b.poll r.server late with
  | none => (h, [])
  | some (piece, after) =>
    let accounted := account r h.usage elapsed late b outputBytes piece
    ({ h with usage := accounted.1.1, stage := .body after accounted.2 }, accounted.1.2 ++ [.piece piece])

def step (h : Handling) : Turn → Handling × List Seen
  -- A turn that is not awaited does nothing, and only whole requests are dropped.
  | .upstream elapsed input =>
    match h.stage, input with
    | _, .cancel => (h, [])
    | .generating g, input =>
      let moved := g.step r.kiro input
      let after := h.proceed r elapsed moved.1
      (after.1, moved.2.map .client ++ after.2)
    | _, _ => (h, [])
  | .pump elapsed late =>
    match h.stage with
    | .priming pump buffered => h.onPriming r elapsed late pump buffered
    | .folding pump => h.onFolding r elapsed pump
    | .body b outputBytes => h.onBody r elapsed late b outputBytes
    | .generating _ | .ended => (h, [])
  | .drop elapsed =>
    match h.stage with
    | .ended => (h, [])
    | _ =>
      let settled := settle h.usage .cancelled elapsed
      ({ h with usage := settled.1, stage := .ended }, settled.2)

def handle (h : Handling) (elapsed : Nat) (turns : List Turn) : Handling × List Seen :=
  let first := h.call r elapsed
  let later := Emitter.runAll (step r) first.1 turns
  (later.1, first.2 ++ later.2)

end Handling

end KiroTrust.Server
