import KiroTrust.Server.Replay
import KiroTrust.Server.Router

set_option autoImplicit false

namespace KiroTrust.Server

open Emitter Translate
open Tracking (RequestUsageGuard Outcome)

/-! One answer for each request, and one entry in the usage summary. -/

def Seen.isAnswer : Seen → Bool
  | .answer _ => true
  | _ => false

def Seen.isSettled : Seen → Bool
  | .settled _ => true
  | _ => false

def answers (out : List Seen) : Nat := out.countP Seen.isAnswer

def settlements (out : List Seen) : Nat := out.countP Seen.isSettled

@[simp] theorem answers_append (left right : List Seen) : answers (left ++ right) = answers left + answers right :=
  List.countP_append

@[simp] theorem settlements_append (left right : List Seen) :
    settlements (left ++ right) = settlements left + settlements right := List.countP_append

@[simp] theorem answers_client (out : List Kiro.Observation) : answers (out.map .client) = 0 := by
  induction out with
  | nil => rfl
  | cons o rest ih => exact ih

@[simp] theorem settlements_client (out : List Kiro.Observation) : settlements (out.map .client) = 0 := by
  induction out with
  | nil => rfl
  | cons o rest ih => exact ih

def Stage.waits : Stage → Bool
  | .generating _ | .priming _ _ | .folding _ => true
  | .body _ _ | .ended => false

def Stage.settled : Stage → Bool
  | .generating _ | .priming _ _ | .folding _ => false
  | .body b _ => b.finished
  | .ended => true

structure Once (terminal waits : Bool) (moved : Handling × List Seen) : Prop where
  answered : answers moved.2 + moved.1.stage.waits.toNat = waits.toNat
  settled : settlements moved.2 + terminal.toNat = moved.1.usage.terminal.toNat
  fits : moved.1.usage.terminal = moved.1.stage.settled

theorem settle_open {g : RequestUsageGuard} (going : g.terminal = false) (outcome : Outcome) (elapsed : Nat) :
    ∃ t, settle g outcome elapsed = ({ g with terminal := true }, [.settled t]) := by
  rw [settle_eq, going]
  exact ⟨_, rfl⟩

theorem Once.waiting {h : Handling} {out : List Seen} (going : h.usage.terminal = false) (waits : h.stage.waits = true)
    (unanswered : answers out = 0) (unsettled : settlements out = 0) : Once false true (h, out) where
  answered := by rw [unanswered, waits, Nat.zero_add]
  settled := by rw [unsettled, going, Nat.zero_add]
  fits := by
    rw [going]
    revert waits
    cases h.stage <;> simp [Stage.waits, Stage.settled]

theorem Once.noted {terminal waits : Bool} {moved : Handling × List Seen} (once : Once terminal waits moved)
    (first : List Seen) (unanswered : answers first = 0) (unsettled : settlements first = 0) :
    Once terminal waits (moved.1, first ++ moved.2) where
  answered := by rw [answers_append, unanswered, Nat.zero_add, once.answered]
  settled := by rw [settlements_append, unsettled, Nat.zero_add, once.settled]
  fits := once.fits

namespace Handling

variable {r : Route} {h : Handling}

theorem refuse_once (going : h.usage.terminal = false) (elapsed : Nat) (pump : Pump) (refusal : Refusal) :
    Once false true (h.refuse elapsed pump refusal) := by
  have still : (h.usage.update pump.translator.usageSnapshot 0).terminal = false := going
  obtain ⟨t, settles⟩ := settle_open still (.failed refusal.usageKind) elapsed
  simp only [refuse, settles]
  exact ⟨rfl, rfl, rfl⟩

theorem finishMessage_once (going : h.usage.terminal = false) (elapsed : Nat) (pump : Pump) :
    Once false true (h.finishMessage r elapsed pump) := by
  have still (bytes : Nat) : (h.usage.update pump.translator.usageSnapshot bytes).terminal = false := going
  simp only [finishMessage]
  obtain ⟨t, settles⟩ := settle_open (still _) .completed elapsed
  rw [settles]
  exact ⟨rfl, rfl, rfl⟩

theorem onFolding_once (going : h.usage.terminal = false) (elapsed : Nat) (pump : Pump) :
    Once false true (h.onFolding r elapsed pump) := by
  unfold onFolding
  split
  next =>
    simp only
    split
    next => exact finishMessage_once going elapsed _
    next => exact .waiting going rfl rfl rfl
  next => exact refuse_once going elapsed _ _
  next => exact refuse_once going elapsed _ _
  next => exact finishMessage_once going elapsed _

theorem proceed_once (going : h.usage.terminal = false) (elapsed : Nat) (g : Kiro.Generate) :
    Once false true (h.proceed r elapsed g) := by
  unfold proceed
  simp only
  split
  next => exact .waiting going rfl rfl rfl
  next e _ =>
    have still : ({ h.usage with progress := g.progress.getD h.usage.progress } : RequestUsageGuard).terminal = false :=
      going
    obtain ⟨t, settles⟩ := settle_open still (.failed (upstreamUsageKind e)) elapsed
    simp only [settles]
    exact ⟨rfl, rfl, rfl⟩
  next => exact .waiting going rfl rfl rfl

theorem call_once (going : h.usage.terminal = false) (elapsed : Nat) : Once false true (h.call r elapsed) := by
  unfold call
  exact (proceed_once going elapsed _).noted [.generate h.payload] rfl rfl

theorem onPrimed_once (going : h.usage.terminal = false) (elapsed : Nat) (pump : Pump) (primed : Primed) :
    Once false true (h.onPrimed r elapsed pump primed) := by
  cases primed with
  | failed f =>
    simp only [onPrimed]
    split
    · exact call_once (by exact going) elapsed
    · exact refuse_once going elapsed _ _
  | broken e => exact refuse_once going elapsed _ _
  | ready first | ended first =>
    simp only [onPrimed]
    split
    · exact ⟨rfl, by simp [settlements, going, RequestUsageGuard.update, Seen.isSettled], going⟩
    · split
      · exact finishMessage_once going elapsed _
      · exact .waiting going rfl rfl rfl

theorem onPriming_once (going : h.usage.terminal = false) (elapsed : Nat) (late : Bool) (pump : Pump)
    (buffered : List StreamEvent) : Once false true (h.onPriming r elapsed late pump buffered) := by
  have turns (h : Handling) (going : h.usage.terminal = false) (pump : Pump) (turn : Except Primed (List StreamEvent)) :
      Once false true (h.onTurn r elapsed pump turn) := by
    cases turn with
    | ok buffered => exact .waiting going rfl rfl rfl
    | error primed => exact (onPrimed_once going elapsed pump primed).noted [.primed primed] rfl rfl
  unfold onPriming
  simp only
  split
  · exact turns _ (by exact going) _ _
  · exact turns _ going _ _

theorem account_once {usage : RequestUsageGuard} {b after : Body} {late : Bool} {piece : Piece} (elapsed outputBytes : Nat)
    (fits : usage.terminal = b.finished) (polled : b.poll r.server late = some (piece, after)) :
    let accounted := (account r usage elapsed late b outputBytes piece).1
    answers accounted.2 = 0 ∧ accounted.1.terminal = after.finished ∧
      settlements accounted.2 + usage.terminal.toNat = after.finished.toNat := by
  have unfinished : b.finished = false := by
    by_contra finished
    rw [Body.poll_finished r.server late (by simpa using finished)] at polled
    cases polled
  have going : usage.terminal = false := fits.trans unfinished
  have settles (snapshot : UsageSnapshot) (bytes : Nat) (outcome : Outcome) :
      let settled := settle (usage.update snapshot bytes) outcome elapsed
      answers settled.2 = 0 ∧ settled.1.terminal = true ∧ settlements settled.2 + usage.terminal.toNat = 1 := by
    obtain ⟨t, same⟩ := settle_open (show (usage.update snapshot bytes).terminal = false from going) outcome elapsed
    rw [same, going]
    exact ⟨rfl, rfl, rfl⟩
  have open' (snapshot : UsageSnapshot) (bytes : Nat) :
      answers [] = 0 ∧ (usage.update snapshot bytes).terminal = false ∧ settlements [] + usage.terminal.toNat = 0 := by
    rw [going]
    exact ⟨rfl, going, rfl⟩
  simp only [Body.poll, unfinished, Bool.false_eq_true, if_false] at polled
  unfold account
  cases primed : b.initial with
  | some first =>
    simp only [primed] at polled
    cases polled
    simp only
    split
    next gone =>
      rw [gone]
      obtain ⟨t, same⟩ := settle_open going .completed elapsed
      rw [same, going]
      exact ⟨rfl, rfl, rfl⟩
    next gone =>
      rw [show b.pump.endedOrStopped = false by simpa using gone]
      exact ⟨rfl, going, by rw [going]; rfl⟩
  | none =>
    simp only [primed] at polled ⊢
    split
    next waits =>
      simp only [waits] at polled
      cases polled
      exact ⟨rfl, going, by rw [going]; rfl⟩
    next inTime =>
      simp only [inTime, if_false] at polled
      simp only
      cases returns : (b.pump.next r.server).2 with
      | events out =>
        simp only [returns] at polled
        cases polled
        simp only
        split
        next gone =>
          rw [gone]
          exact settles _ _ _
        next gone =>
          rw [show (b.pump.next r.server).1.endedOrStopped = false by simpa using gone]
          exact open' _ _
      | failed out f =>
        simp only [returns] at polled
        cases polled
        exact settles _ _ _
      | broken out e =>
        simp only [returns] at polled
        cases polled
        exact settles _ _ _
      | done =>
        simp only [returns] at polled
        cases polled
        exact settles _ _ _

theorem onBody_once {b : Body} {outputBytes : Nat} (stage : h.stage = .body b outputBytes)
    (fits : h.usage.terminal = b.finished) (elapsed : Nat) (late : Bool) :
    Once h.usage.terminal false (h.onBody r elapsed late b outputBytes) := by
  unfold onBody
  split
  next => exact ⟨by rw [stage]; rfl, Nat.zero_add _, by rw [stage]; exact fits⟩
  next piece after polled =>
    obtain ⟨unanswered, terminal, settled⟩ := account_once elapsed outputBytes fits polled
    refine ⟨?_, ?_, terminal⟩
    · rw [answers_append, unanswered]
      rfl
    · rw [settlements_append, terminal, ← settled]
      rfl

theorem drop_once (fits : h.usage.terminal = h.stage.settled) (elapsed : Nat) :
    let moved := h.step r (.drop elapsed)
    answers moved.2 = 0 ∧ moved.1.stage = .ended ∧ moved.1.usage.terminal = true ∧
      settlements moved.2 + h.usage.terminal.toNat = 1 := by
  simp only [step]
  split
  next stage =>
    rw [stage] at fits
    exact ⟨rfl, stage, fits, by rw [fits]; rfl⟩
  next =>
    simp only [settle_eq]
    cases terminal : h.usage.terminal with
    | false => exact ⟨rfl, trivial, rfl, rfl⟩
    | true => exact ⟨rfl, trivial, terminal, rfl⟩

theorem step_once (fits : h.usage.terminal = h.stage.settled) (turn : Turn) (kept : ∀ elapsed, turn ≠ .drop elapsed) :
    Once h.usage.terminal h.stage.waits (h.step r turn) := by
  have still : Once h.usage.terminal h.stage.waits (h, []) := ⟨Nat.zero_add _, Nat.zero_add _, fits⟩
  cases turn with
  | drop elapsed => exact absurd rfl (kept elapsed)
  | upstream elapsed input =>
    simp only [step]
    split
    next => exact still
    next _ g stage _ =>
      rw [stage] at fits ⊢
      rw [fits]
      exact (proceed_once fits elapsed _).noted _ (answers_client _) (settlements_client _)
    next => exact still
  | pump elapsed late =>
    simp only [step]
    split
    next pump buffered stage =>
      rw [stage] at fits ⊢
      rw [fits]
      exact onPriming_once fits elapsed late pump buffered
    next pump stage =>
      rw [stage] at fits ⊢
      rw [fits]
      exact onFolding_once fits elapsed pump
    next b outputBytes stage =>
      rw [stage] at fits ⊢
      exact onBody_once stage fits elapsed late
    next => exact still
    next => exact still

end Handling

end KiroTrust.Server
