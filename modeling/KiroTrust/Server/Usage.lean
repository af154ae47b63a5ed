import KiroTrust.Kiro.Client
import KiroTrust.Protocol.Catalog
import KiroTrust.Shared.Emitter

set_option autoImplicit false

namespace KiroTrust.Server.Tracking

open Catalog (ModelKey)
open Translate (UsageSnapshot)
open Translate.ResponseTranslator (saturatingAdd)

/-! `usage.rs`: the counters of all requests, and any number of guards that move them. -/

inductive UsageErrorKind where
  | localConcurrency
  | authentication
  | modelCapacity
  | transientThrottle
  | upstreamServer
  | transport
  | protocol
  | invalidState
  | invalidRequest
  | cancelled
  | allowanceExhausted
  deriving DecidableEq

namespace UsageErrorKind

def all : List UsageErrorKind := [
  .localConcurrency, .authentication, .modelCapacity, .transientThrottle, .upstreamServer, .transport,
  .protocol, .invalidState, .invalidRequest, .cancelled, .allowanceExhausted]

def index : UsageErrorKind → Fin 11
  | .localConcurrency => 0
  | .authentication => 1
  | .modelCapacity => 2
  | .transientThrottle => 3
  | .upstreamServer => 4
  | .transport => 5
  | .protocol => 6
  | .invalidState => 7
  | .invalidRequest => 8
  | .cancelled => 9
  | .allowanceExhausted => 10

theorem index_injective (kind other : UsageErrorKind) : kind.index = other.index ↔ kind = other := by
  cases kind <;> cases other <;> decide

theorem all_nodup : all.Nodup := by decide

theorem mem_all (kind : UsageErrorKind) : kind ∈ all := by cases kind <;> decide

end UsageErrorKind

structure RequestCounts where
  started : Nat
  completed : Nat
  failed : Nat
  cancelled : Nat
  inFlight : Nat

structure DurationCounts where
  total : Nat
  max : Nat

structure ErrorCount where
  kind : UsageErrorKind
  count : Nat

structure UsageTotals where
  requests : RequestCounts
  tokens : UsageSnapshot
  durationMs : DurationCounts
  retries : Nat
  errors : List ErrorCount

structure ModelUsageReport where
  id : Str
  totals : UsageTotals

structure UsageReport where
  object : Str
  since : Str
  totals : UsageTotals
  models : List ModelUsageReport

inductive Outcome where
  | completed
  | failed (kind : UsageErrorKind)
  | cancelled

structure Counters where
  requests : RequestCounts
  tokens : UsageSnapshot
  durationMs : DurationCounts
  retries : Nat
  errors : Vector Nat 11

abbrev ModelIndex := Fin Catalog.models.length

def u64Max : Nat := 2 ^ 64 - 1

def noUsage : UsageSnapshot := ⟨⟨0, 0, 0, 0⟩, ⟨0, 0⟩⟩

def addSnapshot (total value : UsageSnapshot) : UsageSnapshot where
  reported := {
    input := saturatingAdd total.reported.input value.reported.input
    output := saturatingAdd total.reported.output value.reported.output
    cacheRead := saturatingAdd total.reported.cacheRead value.reported.cacheRead
    cacheWrite := saturatingAdd total.reported.cacheWrite value.reported.cacheWrite }
  estimated := {
    input := saturatingAdd total.estimated.input value.estimated.input
    output := saturatingAdd total.estimated.output value.estimated.output }

namespace Counters

def default : Counters := ⟨⟨0, 0, 0, 0, 0⟩, noUsage, ⟨0, 0⟩, 0, Vector.replicate 11 0⟩

def begin (c : Counters) : Counters :=
  { c with requests := { c.requests with
      started := saturatingAdd c.requests.started 1
      inFlight := saturatingAdd c.requests.inFlight 1 } }

def countError (c : Counters) (kind : UsageErrorKind) : Counters :=
  { c with errors := c.errors.set kind.index (saturatingAdd c.errors[kind.index] 1) }

def settle (c : Counters) : Outcome → Counters
  | .completed => { c with requests := { c.requests with completed := saturatingAdd c.requests.completed 1 } }
  | .failed kind =>
    countError { c with requests := { c.requests with failed := saturatingAdd c.requests.failed 1 } } kind
  | .cancelled =>
    countError { c with requests := { c.requests with cancelled := saturatingAdd c.requests.cancelled 1 } } .cancelled

def terminal (c : Counters) (outcome : Outcome) (usage : UsageSnapshot) (durationMs retries : Nat) : Counters :=
  let c := settle { c with requests := { c.requests with inFlight := c.requests.inFlight - 1 } } outcome
  { c with
    tokens := addSnapshot c.tokens usage
    durationMs := ⟨saturatingAdd c.durationMs.total durationMs, max c.durationMs.max durationMs⟩
    retries := saturatingAdd c.retries retries }

def report (c : Counters) : UsageTotals where
  requests := c.requests
  tokens := c.tokens
  durationMs := c.durationMs
  retries := c.retries
  errors := UsageErrorKind.all.filterMap fun kind =>
    if c.errors[kind.index] > 0 then some ⟨kind, c.errors[kind.index]⟩ else none

end Counters

inductive Counter where
  | started
  | completed
  | failed
  | cancelled
  | reportedInput
  | reportedOutput
  | cacheRead
  | cacheWrite
  | estimatedInput
  | estimatedOutput
  | duration
  | retries
  | error (kind : UsageErrorKind)

def Counters.get (c : Counters) : Counter → Nat
  | .started => c.requests.started
  | .completed => c.requests.completed
  | .failed => c.requests.failed
  | .cancelled => c.requests.cancelled
  | .reportedInput => c.tokens.reported.input
  | .reportedOutput => c.tokens.reported.output
  | .cacheRead => c.tokens.reported.cacheRead
  | .cacheWrite => c.tokens.reported.cacheWrite
  | .estimatedInput => c.tokens.estimated.input
  | .estimatedOutput => c.tokens.estimated.output
  | .duration => c.durationMs.total
  | .retries => c.retries
  | .error kind => c.errors[kind.index]

structure State where
  total : Counters
  models : Vector Counters Catalog.models.length

structure UsageSummary where
  since : Str
  state : State

namespace UsageSummary

def new (since : Str) : UsageSummary := ⟨since, ⟨.default, Vector.replicate _ .default⟩⟩

def snapshot (u : UsageSummary) : UsageReport where
  object := "usage_summary".toList
  since := u.since
  totals := u.state.total.report
  models := (u.state.models.toList.zip Catalog.models).filterMap fun (counter, model) =>
    if counter.requests.started > 0 then some ⟨model.id, counter.report⟩ else none

theorem snapshot_models (u : UsageSummary) :
    u.snapshot.models = (u.state.models.toList.zip Catalog.models).filterMap fun (counter, model) =>
      if counter.requests.started > 0 then some ⟨model.id, counter.report⟩ else none := rfl

end UsageSummary

structure RequestUsageGuard where
  modelIndex : ModelIndex
  usage : UsageSnapshot
  outputBytes : Nat
  -- What `completed` loads of the progress that the guard shares.
  progress : Nat
  terminal : Bool

/-- What `transition` has read before it takes the lock. -/
structure Transition where
  outcome : Outcome
  usage : UsageSnapshot
  durationMs : Nat
  retries : Nat

inductive Slot where
  | held (guard : RequestUsageGuard)
  -- Inside `transition`, which borrows the guard; `dropping` when `drop` calls it.
  | locking (guard : RequestUsageGuard) (t : Transition) (dropping : Bool)
  | dropped

/-- The summary, and the guards that `begin` has handed out. -/
structure Tracker where
  summary : UsageSummary
  guards : List Slot

/-- `elapsed` is what the clock of the guard shows, in milliseconds. -/
inductive Action where
  | begin (model : ModelKey)
  | update (guard : Nat) (usage : UsageSnapshot) (outputBytes : Nat)
  | complete (guard : Nat) (elapsed : Nat)
  | fail (guard : Nat) (kind : UsageErrorKind) (elapsed : Nat)
  | drop (guard : Nat) (elapsed : Nat)
  -- `transition` gets the lock.
  | lock (guard : Nat)
  -- The client records attempts in the progress it shares with the guard.
  | record (guard : Nat) (count : Nat)

inductive Counted where
  | begun (guard : Nat) (model : ModelIndex)
  | terminal (guard : Nat) (model : ModelIndex) (t : Transition)

namespace RequestUsageGuard

def new (model : ModelKey) : RequestUsageGuard where
  modelIndex := ⟨model.catalogIndex, model.catalogIndex_lt⟩
  usage := noUsage
  outputBytes := 0
  progress := 0
  terminal := false

def update (g : RequestUsageGuard) (usage : UsageSnapshot) (outputBytes : Nat) : RequestUsageGuard :=
  { g with usage, outputBytes }

def transition (g : RequestUsageGuard) (outcome : Outcome) (elapsed : Nat) (dropping : Bool) : Slot :=
  if g.terminal then .held g
  else .locking { g with terminal := true } ⟨outcome, g.usage, min elapsed u64Max, g.progress - 1⟩ dropping

def drop (g : RequestUsageGuard) (elapsed : Nat) : Slot :=
  if g.terminal then .dropped else g.transition .cancelled elapsed true

end RequestUsageGuard

namespace State

def begin (s : State) (model : ModelIndex) : State where
  total := s.total.begin
  models := s.models.set model s.models[model].begin

def terminal (s : State) (model : ModelIndex) (t : Transition) : State where
  total := s.total.terminal t.outcome t.usage t.durationMs t.retries
  models := s.models.set model (s.models[model].terminal t.outcome t.usage t.durationMs t.retries)

end State

/-- All counters, or those of one model. -/
abbrev Scope := Option ModelIndex

def Scope.covers : Scope → ModelIndex → Bool
  | none, _ => true
  | some model, other => other = model

def State.counters (s : State) : Scope → Counters
  | none => s.total
  | some model => s.models[model]

def State.move (s : State) (model : ModelIndex) (f : Counters → Counters) : State where
  total := f s.total
  models := s.models.set model (f s.models[model])

namespace Tracker

def new (since : Str) : Tracker := ⟨.new since, []⟩

def put (u : Tracker) (guard : Nat) (slot : Slot) : Tracker := { u with guards := u.guards.set guard slot }

def onGuard (u : Tracker) (guard : Nat) (f : RequestUsageGuard → Slot) : Tracker :=
  match u.guards[guard]? with
  | some (.held g) => u.put guard (f g)
  | _ => u

def step (u : Tracker) : Action → Tracker × List Counted
  | .begin model =>
    let g := RequestUsageGuard.new model
    ({ u with
        summary := { u.summary with state := u.summary.state.begin g.modelIndex }
        guards := u.guards ++ [.held g] }, [.begun u.guards.length g.modelIndex])
  | .update guard usage outputBytes => (u.onGuard guard fun g => .held (g.update usage outputBytes), [])
  | .complete guard elapsed => (u.onGuard guard fun g => g.transition .completed elapsed false, [])
  | .fail guard kind elapsed => (u.onGuard guard fun g => g.transition (.failed kind) elapsed false, [])
  | .drop guard elapsed => (u.onGuard guard fun g => g.drop elapsed, [])
  | .lock guard =>
    match u.guards[guard]? with
    | some (.locking g t dropping) =>
      ({ u with
          summary := { u.summary with state := u.summary.state.terminal g.modelIndex t }
          guards := u.guards.set guard (if dropping then .dropped else .held g) },
        [.terminal guard g.modelIndex t])
    | _ => (u, [])
  | .record guard count =>
    match u.guards[guard]? with
    | some (.held g) => (u.put guard (.held { g with progress := Kiro.recordCompleted g.progress count }), [])
    | some (.locking g t dropping) =>
      (u.put guard (.locking { g with progress := Kiro.recordCompleted g.progress count } t dropping), [])
    | _ => (u, [])

end Tracker

end KiroTrust.Server.Tracking
