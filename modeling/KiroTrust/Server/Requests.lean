import KiroTrust.Auth.Source
import KiroTrust.Kiro.Client
import KiroTrust.Translate.Request

set_option autoImplicit false

namespace KiroTrust.Server

open Auth (AuthError Credentials World)
open Kiro (Generate Identity)
open Translate (Primitives buildPayload)

/-! Any number of `post_messages` calls over one `KiroClient` and one `TokenSource`. -/

/-- What `post_messages` has made of a request when it asks for the identity. -/
structure Admission where
  req : Anthropic.Request
  modelId : Str
  conversationId : Option Str
  effort : Option Str
  invocationId : Str

/-- `call` is the call of `current` that a request awaits. -/
inductive Handler where
  | idle
  | identifying (admission : Admission) (call : Option Nat)
  | generating (replayed : Bool) (call : Option Nat) (g : Generate)
  | ended

def Handler.call : Handler → Option Nat
  | .identifying _ call | .generating _ call _ => call
  | .idle | .ended => none

structure System where
  tokens : Auth.State
  -- The calls of `current` that were made for a request.
  owner : Nat → Option Nat
  requests : Nat → Handler

inductive Act where
  | arrive (request : Nat) (admission : Admission)
  | ask (request : Nat) (call : Nat)
  | resume (request : Nat) (w : World)
  | input (request : Nat) (input : Kiro.Input)
  -- The stream that `generate` returned is primed, or asks for the one replay.
  | primed (request : Nat)
  | replay (request : Nat) (invocationId : Str)
  | drop (request : Nat)
  -- Everything else that uses the token source.
  | other (action : Auth.Action)

inductive Happening where
  | credential (request : Nat) (creds : Credentials)
  | client (request : Nat) (o : Kiro.Observation)

def identityOf (c : Credentials) : Identity := ⟨c.profileArn, c.runtimeRegion, c.ssoRegion, c.expiresAt⟩

variable (parse : List UInt8 → Option Auth.TokenResponse) (prims : Primitives) (x : Kiro.Externals)

namespace Handler

/-- `generate` has moved; an error of it ends the request. -/
def goOn (replayed : Bool) (g : Generate) : Handler :=
  match g.phase with
  | .returned (.error _) | .cancelled => .ended
  | _ => .generating replayed none g

def deliver (h : Handler) (result : Except AuthError Credentials) : Handler × List Kiro.Observation :=
  match h with
  | .identifying admission _ =>
    match result with
    | .error _ => (.ended, [])
    | .ok c =>
      match buildPayload prims admission.req
          ⟨some (identityOf c).profileArn, admission.modelId, admission.conversationId, admission.effort⟩ with
      | .error _ => (.ended, [])
      | .ok built => (goOn false (.start x built.payload admission.invocationId (some 0)), [])
  | .generating replayed _ g =>
    let moved :=
      match g.phase with
      | .identity => g.step x (.identity (result.map identityOf))
      | _ => g.step x (.token (result.map Credentials.accessToken))
    (goOn replayed moved.1, moved.2)
  | .idle | .ended => (h, [])

/-- Whether the request is about to await a call of `current`. -/
def wants : Handler → Bool
  | .identifying _ none => true
  | .generating _ none g =>
    match g.phase with
    | .identity | .headers _ => true
    | _ => false
  | _ => false

def await (call : Nat) : Handler → Handler
  | .identifying admission _ => .identifying admission (some call)
  | .generating replayed _ g => .generating replayed (some call) g
  | h => h

def replay (invocationId : Str) : Handler → Handler
  | .generating false none g =>
    match g.phase with
    | .returned (.ok _) =>
      let state := { g.payload.conversationState with conversationId := none }
      goOn true (.start x { g.payload with conversationState := state } invocationId g.progress)
    | _ => .generating false none g
  | h => h

end Handler

namespace System

def new (source : Auth.TokenSource) : System := ⟨.new source, fun _ => none, fun _ => .idle⟩

def put (s : System) (request : Nat) (h : Handler) (out : List Kiro.Observation) : System × List Happening :=
  let tokens := if out.any Kiro.Observation.isInvalidate then (s.tokens.step parse .invalidate).1 else s.tokens
  ({ s with tokens, requests := Function.update s.requests request h }, out.map (.client request))

def step (s : System) : Act → System × List Happening
  -- An action that is not possible does nothing.
  | .arrive request admission =>
    match s.requests request with
    | .idle => s.put parse request (.identifying admission none) []
    | _ => (s, [])
  | .ask request call =>
    match s.tokens.calls call with
    | .idle =>
      if (s.requests request).wants then
        let s := { s with
          tokens := (s.tokens.step parse (.call call)).1
          owner := Function.update s.owner call (some request) }
        s.put parse request ((s.requests request).await call) []
      else (s, [])
    | _ => (s, [])
  | .resume request w =>
    match (s.requests request).call with
    | some call =>
      let tokens := (s.tokens.step parse (.resume call w)).1
      match s.tokens.calls call, tokens.calls call with
      -- What a call returns is delivered at once.
      | .returned _, _ => (s, [])
      | _, .returned result =>
        let delivered := (s.requests request).deliver prims x result
        let after := { s with tokens }.put parse request delivered.1 delivered.2
        (after.1, (result.toOption.map (.credential request)).toList ++ after.2)
      | _, _ => ({ s with tokens }, [])
    | none => (s, [])
  | .input request input =>
    match s.requests request with
    | .generating replayed none g =>
      match input with
      -- Credentials come from the token source, and only whole requests are dropped.
      | .identity _ | .token _ | .cancel => (s, [])
      | .post _ _ | .bytes _ | .wake =>
        let moved := g.step x input
        s.put parse request (.goOn replayed moved.1) moved.2
    | _ => (s, [])
  | .primed request =>
    match s.requests request with
    | .generating _ none g =>
      match g.phase with
      | .returned _ => s.put parse request .ended []
      | _ => (s, [])
    | _ => (s, [])
  | .replay request invocationId => s.put parse request ((s.requests request).replay x invocationId) []
  | .drop request =>
    match (s.requests request).call with
    | some call =>
      -- The call is dropped with the request, at one of its awaits.
      match Auth.dropped s.tokens.source (s.tokens.calls call) with
      | some _ =>
        let s := { s with tokens := (s.tokens.step parse (.cancel call)).1 }
        s.put parse request .ended []
      | none => (s, [])
    | none => s.put parse request .ended []
  | .other action =>
    match action with
    | .call call | .resume call _ | .cancel call =>
      if (s.owner call).isNone then ({ s with tokens := (s.tokens.step parse action).1 }, []) else (s, [])
    | .invalidate => ({ s with tokens := (s.tokens.step parse .invalidate).1 }, [])

end System

end KiroTrust.Server
