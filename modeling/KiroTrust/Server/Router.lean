import KiroTrust.Protocol.Resolve
import KiroTrust.Server.Handling
import KiroTrust.Shared.Permits
import KiroTrust.Translate.Request

set_option autoImplicit false

namespace KiroTrust.Server

open Auth (AuthError)
open EventStream (decimal)
open Translate (ImageError Primitives buildPayload trim)
open Tracking (RequestUsageGuard UsageErrorKind UsageReport UsageSummary)

/-! The routes, the local token that guards them, and `post_messages` up to its upstream call. -/

/-! `error.rs` -/

namespace ApiError

def invalidRequest (m : Str) : ApiError := new 400 "invalid_request_error" m

def notFound (m : Str) : ApiError := new 404 "not_found_error" m

def methodNotAllowed : ApiError := new 405 "invalid_request_error" "method not allowed".toList

def requestTooLarge (m : Str) : ApiError := new 413 "request_too_large" m

end ApiError

/-- `ImageError`, as it is printed. -/
def imageErrorText : ImageError → Str
  | .unsupportedMediaType mediaType =>
    "image media type ".toList ++ mediaType ++
      " is not one of the accepted formats: image/gif, image/jpeg, image/png, image/webp".toList
  | .invalidBase64 => "image data is not valid base64".toList
  | .tooLarge decodedBytes =>
    "image exceeds the ".toList ++ decimal Translate.maxImageBytes ++ " byte limit: decoded to ".toList ++
      decimal decodedBytes ++ " bytes".toList
  | .tooMany count =>
    "request exceeds the limit of ".toList ++ decimal Translate.maxImagesPerRequest ++ " images: ".toList ++
      decimal count

inductive Method where
  | get
  | head
  | post
  | other

/-- A `HeaderMap`: names are in lower case. -/
abbrev Headers := List (Str × List UInt8)

namespace Headers

def getAll (headers : Headers) (name : Str) : List (List UInt8) :=
  (headers.filter fun header => header.1 = name).map Prod.snd

def get (headers : Headers) (name : Str) : Option (List UInt8) := (headers.getAll name).head?

end Headers

/-- `HeaderValue::to_str` -/
def toStr (value : List UInt8) : Option Str :=
  if value.all fun b => (32 ≤ b && b < 127) || b = 9 then some (value.map fun b => Char.ofNat b.toNat) else none

/-- What arrives of a body, and whether it ends as it should. -/
structure Received where
  bytes : List UInt8
  ends : Bool

structure Incoming where
  method : Method
  path : Str
  headers : Headers
  body : Received

def maxBodyBytes : Nat := 32 * 1024 * 1024

/-- The `Bytes` extractor, and `From<BytesRejection>`. -/
def Received.extract (body : Received) : Except ApiError (List UInt8) :=
  if maxBodyBytes < body.bytes.length then
    .error (.requestTooLarge ("request body exceeds the ".toList ++ decimal maxBodyBytes ++ "-byte limit".toList))
  else if body.ends then .ok body.bytes
  else .error (.invalidRequest "failed to read request body".toList)

/-! `anthropic::Request`, as far as the routes read it. -/

structure MessagesRequest where
  model : Str
  content : Anthropic.Request
  maxTokens : UInt32
  stopSequences : List Str
  stream : Bool
  -- `type` of `thinking`, and `effort` of `output_config`.
  thinking : Option Str
  effort : Option Str

def MessagesRequest.thinkingEnabled (req : MessagesRequest) : Bool :=
  req.thinking = some "enabled".toList || req.thinking = some "adaptive".toList

structure Service where
  kiro : Kiro.Externals
  server : Externals
  prims : Primitives
  print : Printer
  -- `serde_json::from_slice`; an error comes as it is printed.
  parse : List UInt8 → Except Str MessagesRequest
  -- `Uuid::new_v5` in the namespace of the salt, printed
  sessionId : Str → Str
  -- `estimate::count_tokens`
  estimate : MessagesRequest → Nat
  localToken : Str

structure Fresh where
  conversationId : Str
  messageId : Bool → Str
  invocationId : Bool → Str
  uuid : Nat → Str
  -- Seconds since the epoch.
  now : Nat

variable (x : Service)

/-! `mod.rs` -/

def authorization : Str := "authorization".toList

def apiKey : Str := "x-api-key".toList

def bearer : Str := "Bearer ".toList

def stripBearer (value : Str) : Option Str :=
  if bearer.isPrefixOf value then some (value.drop bearer.length) else none

def presentedToken (headers : Headers) : Option Str :=
  match ((headers.get authorization).bind toStr).bind stripBearer with
  | some t => if trim t = [] then none else some (trim t)
  | none => (((headers.get apiKey).bind toStr).map trim).filter fun t => t ≠ []

def healthPath : Str := "/health".toList

/-- `require_token` lets the request through. -/
def admits (incoming : Incoming) : Bool :=
  incoming.path = healthPath || presentedToken incoming.headers = some x.localToken

def unauthorized : ApiError := .authentication "missing or invalid local token".toList

inductive Endpoint where
  | health
  | models
  | usage
  | messages
  | countTokens
  deriving DecidableEq

namespace Endpoint

def path : Endpoint → Str
  | .health => healthPath
  | .models => "/v1/models".toList
  | .usage => "/v1/usage".toList
  | .messages => "/v1/messages".toList
  | .countTokens => "/v1/messages/count_tokens".toList

def all : List Endpoint := [.health, .models, .usage, .messages, .countTokens]

/-- `get` takes `HEAD` as well. -/
def takes : Endpoint → Method → Bool
  | .health, .get | .health, .head | .models, .get | .models, .head | .usage, .get | .usage, .head => true
  | .messages, .post | .countTokens, .post => true
  | _, _ => false

end Endpoint

def route (incoming : Incoming) : Except ApiError Endpoint :=
  match Endpoint.all.find? fun endpoint => endpoint.path = incoming.path with
  | some endpoint => if endpoint.takes incoming.method then .ok endpoint else .error .methodNotAllowed
  | none => .error (.notFound "no such route".toList)

/-! `messages.rs` -/

def maxMessages : Nat := 4096

def maxTools : Nat := 512

def sessionHeader : Str := "x-claude-code-session-id".toList

def betaHeader : Str := "anthropic-beta".toList

def contextBeta : Str := "context-1m".toList

def conversationId (fresh : Fresh) (session : Option Str) : Str :=
  match session with
  | some s => if s ≠ [] then x.sessionId s else fresh.conversationId
  | none => fresh.conversationId

def hasContext1mBeta (headers : Headers) : Bool :=
  (((headers.getAll betaHeader).filterMap toStr).flatMap fun v => v.splitOn ',').any fun b =>
    contextBeta.isPrefixOf (trim b)

def parseRequest (body : List UInt8) : Except ApiError MessagesRequest := do
  let req ← (x.parse body).mapError fun e => ApiError.invalidRequest ("invalid request body: ".toList ++ e)
  if req.content.messages = [] then throw (.invalidRequest "messages must not be empty".toList)
  if maxMessages < req.content.messages.length then
    throw (.invalidRequest ("messages exceed the limit of ".toList ++ decimal maxMessages))
  if maxTools < req.content.tools.length then
    throw (.invalidRequest ("tools exceed the limit of ".toList ++ decimal maxTools))
  return req

/-- `catalog::resolve`, and its error as the routes answer it. -/
def resolveModel (model : Str) (beta : Bool) : Except ApiError Catalog.Resolved :=
  (Catalog.resolve model beta).mapError fun named =>
    .invalidRequest ("model ".toList ++ named ++ " is not in the kiro-trust catalog".toList)

/-- A request that `post_messages` has found to be valid. -/
structure Valid where
  req : MessagesRequest
  resolved : Catalog.Resolved
  session : Option Str
  fresh : Fresh

def validate (incoming : Incoming) (fresh : Fresh) : Except ApiError Valid := do
  let body ← incoming.body.extract
  let req ← parseRequest x body
  if req.maxTokens = 0 then throw (.invalidRequest "max_tokens is required".toList)
  let resolved ← resolveModel req.model (hasContext1mBeta incoming.headers)
  return { req, resolved, session := (incoming.headers.get sessionHeader).bind toStr, fresh }

namespace Valid

def effort (v : Valid) : Option Str :=
  Catalog.resolveEffort v.resolved v.req.effort (v.req.thinkingEnabled || v.resolved.thinking)

def buildOptions (v : Valid) (identity : Kiro.Identity) : Translate.BuildOptions where
  profileArn := some identity.profileArn
  modelId := v.resolved.kiroModel
  conversationId := some (conversationId x v.fresh v.session)
  effort := v.effort

def responseOptions (v : Valid) (toolNames : Str → Option Str) (replayed : Bool) : Translate.ResponseOptions where
  model := v.resolved.anthropicModel
  messageId := "msg_".toList ++ (v.fresh.messageId replayed).take 24
  stopSequences := v.req.stopSequences
  maxTokens := v.req.maxTokens
  toolNames
  estimatedInputTokens := x.estimate v.req

def route (v : Valid) (toolNames : Str → Option Str) : Route where
  kiro := x.kiro
  server := { x.server with uuid := v.fresh.uuid }
  print := x.print
  streaming := v.req.stream
  invocationId := v.fresh.invocationId
  opts := v.responseOptions x toolNames

end Valid

/-- How far a call of `post_messages` is. -/
inductive Progress where
  -- `begin` has returned; `try_acquire_owned` comes next.
  | acquiring (v : Valid) (usage : RequestUsageGuard)
  | identifying (v : Valid) (usage : RequestUsageGuard)
  | handling (r : Route) (h : Handling)
  | gone

structure Call where
  progress : Progress
  permit : Bool

inductive Input where
  | acquire (elapsed : Nat)
  | identity (elapsed : Nat) (result : Except AuthError Kiro.Identity)
  | turn (turn : Turn)

def busy : ApiError := .rateLimitAfter "too many concurrent requests".toList (Kiro.fromSecs 1)

namespace Call

def new (v : Valid) : Call := ⟨.acquiring v (.new v.resolved.key), false⟩

def fail (usage : RequestUsageGuard) (kind : UsageErrorKind) (elapsed : Nat) (error : ApiError) : Call × List Seen :=
  (⟨.gone, false⟩, (settle usage (.failed kind) elapsed).2 ++ [.answer (.error error)])

/-- The permit goes with the handler, or with the state of the body: a body gives it back when it yields its end. -/
def keeps (before : Stage) (turn : Turn) (after : Stage) : Bool :=
  match after with
  | .ended => false
  | .body _ _ =>
    match before, turn with
    | .body b _, .pump _ _ => !b.finished
    | _, _ => true
  | .generating _ | .priming _ _ | .folding _ => true

def begins : Stage → Bool
  | .ended => false
  | _ => true

def step (free : Bool) (c : Call) (input : Input) : Call × List Seen :=
  match c.progress, input with
  | .acquiring v usage, .acquire elapsed =>
    if free then (⟨.identifying v usage, true⟩, []) else fail usage .localConcurrency elapsed busy
  | .identifying _ usage, .identity elapsed (.error e) => fail usage .authentication elapsed (.authentication e.display)
  | .identifying v usage, .identity elapsed (.ok identity) =>
    match buildPayload x.prims v.req.content (v.buildOptions x identity) with
    | .error e => fail usage .invalidRequest elapsed (.invalidRequest (imageErrorText e))
    | .ok built =>
      let r := v.route x built.toolNames.reverseMap
      let called := (Handling.new built.payload false usage.modelIndex 0).call r elapsed
      (⟨.handling r called.1, c.permit && begins called.1.stage⟩, called.2)
  | .handling r h, .turn turn =>
    let moved := h.step r turn
    (⟨.handling r moved.1, c.permit && keeps h.stage turn moved.1.stage⟩, moved.2)
  -- Whole requests are dropped before they are handled, too.
  | .acquiring _ usage, .turn (.drop elapsed) | .identifying _ usage, .turn (.drop elapsed) =>
    (⟨.gone, false⟩, (settle usage .cancelled elapsed).2)
  | _, _ => (c, [])

def clients : Permits.Clients Call Input Seen := ⟨Call.permit, step x⟩

def modelIndex (c : Call) : Option Tracking.ModelIndex :=
  match c.progress with
  | .acquiring _ usage | .identifying _ usage => some usage.modelIndex
  | .handling _ h => some h.usage.modelIndex
  | .gone => none

end Call

/-- What is answered without `post_messages` going on. -/
inductive Direct where
  | health
  | models (created : Nat) (listing : List Catalog.ModelListing)
  | usage (report : UsageReport)
  | tokens (inputTokens : Nat)
  | error (error : ApiError)

structure AppState where
  usage : UsageSummary
  calls : Permits.Pool Call

inductive Action where
  | request (incoming : Incoming) (fresh : Fresh)
  | input (call : Nat) (input : Input)

inductive Shown where
  | direct (incoming : Incoming) (answer : Direct)
  | call (call : Nat) (seen : Seen)

namespace AppState

def maxConcurrent : Nat := 32

def new (since : Str) : AppState := ⟨.new since, ⟨maxConcurrent, []⟩⟩

def count (usage : UsageSummary) (model : Tracking.ModelIndex) (out : List Seen) : UsageSummary :=
  out.foldl (fun usage seen =>
    match seen with
    | .settled t => { usage with state := usage.state.terminal model t }
    | _ => usage) usage

def countTokens (incoming : Incoming) : Except ApiError Nat := do
  let body ← incoming.body.extract
  let req ← parseRequest x body
  let _ ← resolveModel req.model false
  return x.estimate req

def receive (s : AppState) (incoming : Incoming) (fresh : Fresh) : AppState × List Shown :=
  let answer (direct : Direct) : AppState × List Shown := (s, [.direct incoming direct])
  if admits x incoming then
    match route incoming with
    | .error e => answer (.error e)
    | .ok .health => answer .health
    | .ok .models => answer (.models fresh.now Catalog.listModels)
    | .ok .usage => answer (.usage s.usage.snapshot)
    | .ok .countTokens =>
      match countTokens x incoming with
      | .error e => answer (.error e)
      | .ok n => answer (.tokens n)
    | .ok .messages =>
      match validate x incoming fresh with
      | .error e => answer (.error e)
      | .ok v =>
        ({ usage := { s.usage with state := s.usage.state.begin (RequestUsageGuard.new v.resolved.key).modelIndex }
           calls := (s.calls.step (Call.clients x) (.join (.new v))).1 }, [])
  else answer (.error unauthorized)

def step (s : AppState) : Action → AppState × List Shown
  | .request incoming fresh => s.receive x incoming fresh
  | .input call input =>
    let moved := s.calls.step (Call.clients x) (.turn call input)
    let usage :=
      match (s.calls.clients[call]?).bind Call.modelIndex with
      | some model => count s.usage model (moved.2.map Prod.snd)
      | none => s.usage
    (⟨usage, moved.1⟩, moved.2.map fun shown => .call shown.1 shown.2)

end AppState

end KiroTrust.Server
