import KiroTrust.Server.Usage
import KiroTrust.Shared.Tally

set_option autoImplicit false

namespace KiroTrust.Server.Tracking

open Tally
open Translate.ResponseTranslator (saturatingAdd)

/-! One set of counters is a tally of what was counted, as long as none saturates. -/

def UsageTotals.get (totals : UsageTotals) : Counter → Nat
  | .started => totals.requests.started
  | .completed => totals.requests.completed
  | .failed => totals.requests.failed
  | .cancelled => totals.requests.cancelled
  | .reportedInput => totals.tokens.reported.input
  | .reportedOutput => totals.tokens.reported.output
  | .cacheRead => totals.tokens.reported.cacheRead
  | .cacheWrite => totals.tokens.reported.cacheWrite
  | .estimatedInput => totals.tokens.estimated.input
  | .estimatedOutput => totals.tokens.estimated.output
  | .duration => totals.durationMs.total
  | .retries => totals.retries
  | .error kind => total (fun count => if kind = count.kind then count.count else 0) totals.errors

def Outcome.errorKind : Outcome → Option UsageErrorKind
  | .completed => none
  | .failed kind => some kind
  | .cancelled => some .cancelled

namespace Counted

def guard : Counted → Nat
  | .begun guard _ | .terminal guard _ _ => guard

def model : Counted → ModelIndex
  | .begun _ model | .terminal _ model _ => model

def durationMs : Counted → Nat
  | .begun _ _ => 0
  | .terminal _ _ t => t.durationMs

def ends (guard : Nat) : Counted → Bool
  | .begun _ _ => false
  | .terminal other _ _ => guard = other

end Counted

namespace Counter

def addsOutcome : Counter → Outcome → Nat
  | .completed, .completed => 1
  | .failed, .failed _ => 1
  | .cancelled, .cancelled => 1
  | .error kind, outcome => if outcome.errorKind = some kind then 1 else 0
  | _, _ => 0

def adds (counter : Counter) : Counted → Nat
  | .begun _ _ =>
    match counter with
    | .started => 1
    | _ => 0
  | .terminal _ _ t =>
    match counter with
    | .reportedInput => t.usage.reported.input
    | .reportedOutput => t.usage.reported.output
    | .cacheRead => t.usage.reported.cacheRead
    | .cacheWrite => t.usage.reported.cacheWrite
    | .estimatedInput => t.usage.estimated.input
    | .estimatedOutput => t.usage.estimated.output
    | .duration => t.durationMs
    | .retries => t.retries
    | counter => counter.addsOutcome t.outcome

end Counter

theorem saturatingAdd_fits {left right : Nat} (fits : left + right ≤ u64Max) : saturatingAdd left right = left + right :=
  Nat.min_eq_left fits

namespace Counters

def Fits (c : Counters) (o : Counted) : Prop := ∀ counter : Counter, c.get counter + counter.adds o ≤ u64Max

variable {c : Counters}

theorem begin_get {guard : Nat} {model : ModelIndex} (fits : c.Fits (.begun guard model)) (counter : Counter) :
    c.begin.get counter = c.get counter + counter.adds (.begun guard model) := by
  cases counter with
  | started => exact saturatingAdd_fits (fits .started)
  | _ => rfl

theorem countError_get (c : Counters) (kind other : UsageErrorKind) :
    (c.countError kind).get (.error other) =
      if kind = other then saturatingAdd (c.get (.error other)) 1 else c.get (.error other) := by
  by_cases same : kind = other
  · subst same
    simp [countError, get]
  · have apart : (kind.index : Nat) ≠ other.index := by
      intro equal
      exact same ((UsageErrorKind.index_injective kind other).1 (Fin.ext equal))
    simp [countError, get, same, apart]

theorem settle_tokens (c : Counters) (outcome : Outcome) : (c.settle outcome).tokens = c.tokens := by
  cases outcome <;> rfl

theorem settle_durationMs (c : Counters) (outcome : Outcome) : (c.settle outcome).durationMs = c.durationMs := by
  cases outcome <;> rfl

theorem settle_retries (c : Counters) (outcome : Outcome) : (c.settle outcome).retries = c.retries := by
  cases outcome <;> rfl

theorem settle_inFlight (c : Counters) (outcome : Outcome) :
    (c.settle outcome).requests.inFlight = c.requests.inFlight := by
  cases outcome <;> rfl

theorem countError_fits {kind other : UsageErrorKind}
    (fits : c.get (.error other) + (if kind = other then 1 else 0) ≤ u64Max) :
    (c.countError kind).get (.error other) = c.get (.error other) + if kind = other then 1 else 0 := by
  rw [countError_get]
  by_cases same : kind = other
  · simp only [same, if_true] at fits ⊢
    exact saturatingAdd_fits fits
  · simp only [same, if_false]
    rfl

theorem settle_get (c : Counters) (outcome : Outcome) (counter : Counter)
    (fits : c.get counter + counter.addsOutcome outcome ≤ u64Max) :
    (c.settle outcome).get counter = c.get counter + counter.addsOutcome outcome := by
  cases outcome with
  | completed =>
    cases counter with
    | completed => exact saturatingAdd_fits fits
    | _ => rfl
  | failed kind =>
    cases counter with
    | failed => exact saturatingAdd_fits fits
    | error other =>
      simp only [Counter.addsOutcome, Outcome.errorKind, Option.some.injEq] at fits ⊢
      exact countError_fits fits
    | _ => rfl
  | cancelled =>
    cases counter with
    | cancelled => exact saturatingAdd_fits fits
    | error other =>
      simp only [Counter.addsOutcome, Outcome.errorKind, Option.some.injEq] at fits ⊢
      exact countError_fits fits
    | _ => rfl

theorem terminal_get {guard : Nat} {model : ModelIndex} {t : Transition} (fits : c.Fits (.terminal guard model t))
    (counter : Counter) :
    (c.terminal t.outcome t.usage t.durationMs t.retries).get counter =
      c.get counter + counter.adds (.terminal guard model t) := by
  let left : Counters := { c with requests := { c.requests with inFlight := c.requests.inFlight - 1 } }
  have room := fits counter
  cases counter with
  | started => exact left.settle_get t.outcome .started room
  | completed => exact left.settle_get t.outcome .completed room
  | failed => exact left.settle_get t.outcome .failed room
  | cancelled => exact left.settle_get t.outcome .cancelled room
  | error kind => exact left.settle_get t.outcome (.error kind) room
  | duration =>
    simp only [get, terminal, settle_durationMs]
    exact saturatingAdd_fits room
  | retries =>
    simp only [get, terminal, settle_retries]
    exact saturatingAdd_fits room
  | _ =>
    simp only [get, terminal, settle_tokens]
    exact saturatingAdd_fits room

theorem terminal_inFlight (c : Counters) (t : Transition) :
    (c.terminal t.outcome t.usage t.durationMs t.retries).requests.inFlight = c.requests.inFlight - 1 := by
  simp only [terminal, settle_inFlight]

theorem terminal_max (c : Counters) (t : Transition) :
    (c.terminal t.outcome t.usage t.durationMs t.retries).durationMs.max = max c.durationMs.max t.durationMs := by
  simp only [terminal, settle_durationMs]

structure Tallies (c : Counters) (history : List Counted) : Prop where
  sums : ∀ counter : Counter, c.get counter = total counter.adds history
  peak : c.durationMs.max = peak Counted.durationMs history

theorem default_tallies : default.Tallies [] where
  sums := by
    intro counter
    cases counter with
    | error kind => simp [get, default]
    | _ => rfl
  peak := rfl

theorem Tallies.begin {history : List Counted} {guard : Nat} {model : ModelIndex} (tallies : c.Tallies history)
    (fits : c.Fits (.begun guard model)) : c.begin.Tallies (history ++ [.begun guard model]) where
  sums := by
    intro counter
    rw [begin_get fits, tallies.sums, total_append]
    simp
  peak := by
    rw [peak_concat, ← tallies.peak]
    exact (Nat.max_zero _).symm

theorem Tallies.terminal {history : List Counted} {guard : Nat} {model : ModelIndex} {t : Transition}
    (tallies : c.Tallies history) (fits : c.Fits (.terminal guard model t)) :
    (c.terminal t.outcome t.usage t.durationMs t.retries).Tallies (history ++ [.terminal guard model t]) where
  sums := by
    intro counter
    rw [terminal_get fits, tallies.sums, total_append]
    simp
  peak := by
    rw [terminal_max, peak_concat, ← tallies.peak]
    rfl

end Counters

end KiroTrust.Server.Tracking
