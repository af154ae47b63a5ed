import KiroTrust.Server.Capacity
import KiroTrust.Server.Counting

set_option autoImplicit false

namespace KiroTrust.Server

open Emitter
open Tracking (Counters Outcome RequestUsageGuard Transition UsageSummary u64Max)
open Translate.ResponseTranslator (saturatingAdd)

/-! `/v1/usage` and the calls it tells of. -/

structure Tells (requests : Tracking.RequestCounts) (calls gone : Nat) : Prop where
  started : requests.started = calls
  inFlight : requests.inFlight + gone = calls
  ended : requests.completed + requests.failed + requests.cancelled = gone

namespace Tells

variable {c : Counters} {calls gone : Nat}

theorem begin (tells : Tells c.requests calls gone) (few : calls + 1 ≤ u64Max) : Tells c.begin.requests (calls + 1) gone := by
  obtain ⟨started, inFlight, ended⟩ := tells
  have fits (n : Nat) (bound : n + 1 ≤ u64Max) : saturatingAdd n 1 = n + 1 := Tracking.saturatingAdd_fits bound
  refine ⟨?_, ?_, ended⟩
  · change saturatingAdd c.requests.started 1 = calls + 1
    rw [started, fits _ few]
  · change saturatingAdd c.requests.inFlight 1 + gone = calls + 1
    rw [fits _ (by omega)]
    omega

theorem terminal (tells : Tells c.requests calls gone) (few : calls ≤ u64Max) (unsettled : gone < calls) (t : Transition) :
    Tells (c.terminal t.outcome t.usage t.durationMs t.retries).requests calls (gone + 1) := by
  obtain ⟨started, inFlight, ended⟩ := tells
  have fits (n : Nat) (bound : n < calls) : saturatingAdd n 1 = n + 1 := Tracking.saturatingAdd_fits (by omega)
  cases outcome : t.outcome with
  | completed =>
    refine ⟨started, ?_, ?_⟩
    · change c.requests.inFlight - 1 + (gone + 1) = calls
      omega
    · change saturatingAdd c.requests.completed 1 + c.requests.failed + c.requests.cancelled = gone + 1
      rw [fits _ (by omega)]
      omega
  | failed kind =>
    refine ⟨started, ?_, ?_⟩
    · change c.requests.inFlight - 1 + (gone + 1) = calls
      omega
    · change c.requests.completed + saturatingAdd c.requests.failed 1 + c.requests.cancelled = gone + 1
      rw [fits _ (by omega)]
      omega
  | cancelled =>
    refine ⟨started, ?_, ?_⟩
    · change c.requests.inFlight - 1 + (gone + 1) = calls
      omega
    · change c.requests.completed + c.requests.failed + saturatingAdd c.requests.cancelled 1 = gone + 1
      rw [fits _ (by omega)]
      omega

end Tells

theorem Call.modelIndex_some (c : Call) (unsettled : c.settled = false) : ∃ model, c.modelIndex = some model := by
  obtain ⟨progress, permit⟩ := c
  cases progress with
  | gone => cases unsettled
  | acquiring v usage | identifying v usage | handling r h => exact ⟨_, rfl⟩

namespace AppState

variable {x : Service}

theorem count_quiet (usage : UsageSummary) (model : Tracking.ModelIndex) {out : List Seen} (quiet : settlements out = 0) :
    count usage model out = usage := by
  induction out generalizing usage with
  | nil => rfl
  | cons seen rest ih =>
    cases seen with
    | settled t => exact absurd ((List.countP_cons_of_pos rfl).symm.trans quiet) (Nat.succ_ne_zero _)
    | _ => exact ih usage quiet

theorem count_single (usage : UsageSummary) (model : Tracking.ModelIndex) {out : List Seen} (single : settlements out = 1) :
    ∃ t : Transition, count usage model out = { usage with state := usage.state.terminal model t } := by
  induction out generalizing usage with
  | nil => cases single
  | cons seen rest ih =>
    cases seen with
    | settled t =>
      have quiet : settlements rest = 0 := Nat.succ.inj ((List.countP_cons_of_pos rfl).symm.trans single)
      exact ⟨t, count_quiet _ model quiet⟩
    | _ => exact ih usage single

theorem receive_usage (s : AppState) (incoming : Incoming) (fresh : Fresh) :
    (s.receive x incoming fresh).1 = s ∨ ∃ (v : Valid) (model : Tracking.ModelIndex), s.receive x incoming fresh =
      (⟨{ s.usage with state := s.usage.state.begin model },
        { s.calls with clients := s.calls.clients ++ [Call.new v] }⟩, []) := by
  unfold receive
  split
  next =>
    cases route incoming with
    | error e => exact .inl rfl
    | ok endpoint =>
      cases endpoint with
      | health | models | usage => exact .inl rfl
      | countTokens =>
        simp only
        split <;> exact .inl rfl
      | messages =>
        simp only
        split
        · exact .inl rfl
        · exact .inr ⟨_, _, rfl⟩
  next => exact .inl rfl

def settledCalls (s : AppState) : Nat := s.calls.clients.countP Call.settled

def Balanced (s : AppState) : Prop := Tells s.usage.state.total.requests s.calls.clients.length s.settledCalls

theorem input_usage {s : AppState} (sound : ∀ c ∈ s.calls.clients, c.Sound) (few : s.calls.clients.length ≤ u64Max)
    (told : s.Balanced) (call : Nat) (given : Input) : (s.step x (.input call given)).1.Balanced := by
  cases there : s.calls.clients[call]? with
  | none => simpa [step, Permits.Pool.step, there] using told
  | some c =>
    obtain ⟨inside, found⟩ := List.getElem?_eq_some_iff.1 there
    have moves := Call.step_moves (x := x) (sound c (List.mem_of_getElem? there)) s.calls.free given
    have settles := moves.settled
    generalize moved : c.step x s.calls.free given = after at settles
    have calls : (s.step x (.input call given)).1.calls.clients = s.calls.clients.set call after.1 := by
      simp [step, Permits.Pool.step, there, Call.clients, moved, Permits.Pool.put]
    have usage : (s.step x (.input call given)).1.usage =
        c.modelIndex.elim s.usage fun model => count s.usage model after.2 := by
      cases index : c.modelIndex <;>
        simp [step, Permits.Pool.step, there, Call.clients, moved, index, Function.comp_def]
    have counted : (s.step x (.input call given)).1.settledCalls =
        s.settledCalls - c.settled.toNat + after.1.settled.toNat := by
      rw [settledCalls, calls, List.countP_set inside, found, settledCalls]
      cases c.settled <;> cases after.1.settled <;> rfl
    unfold Balanced at told ⊢
    rw [calls, usage, counted, List.length_set]
    cases before : c.settled with
    | true =>
      have stays : after.1.settled = true := by
        rw [before] at settles
        cases later : after.1.settled with
        | true => rfl
        | false => simp [later] at settles
      have among : 0 < s.settledCalls := List.countP_pos_iff.2 ⟨c, List.mem_of_getElem? there, before⟩
      have quiet : settlements after.2 = 0 := by
        rw [before, stays] at settles
        exact Nat.add_right_cancel (settles.trans (Nat.zero_add _).symm)
      have same : s.settledCalls - true.toNat + true.toNat = s.settledCalls := Nat.sub_add_cancel among
      rw [stays, same]
      cases c.modelIndex with
      | none => exact told
      | some model =>
        simp only [Option.elim_some, count_quiet s.usage model quiet]
        exact told
    | false =>
      obtain ⟨model, index⟩ := c.modelIndex_some before
      have open' : s.settledCalls < s.calls.clients.length := by
        refine lt_of_le_of_ne List.countP_le_length fun all => ?_
        have settled := List.countP_eq_length.1 all c (List.mem_of_getElem? there)
        rw [before] at settled
        cases settled
      simp only [index, Option.elim_some]
      cases later : after.1.settled with
      | false =>
        rw [before, later] at settles
        rw [count_quiet s.usage model settles]
        exact told
      | true =>
        rw [before, later] at settles
        obtain ⟨t, ends⟩ := count_single s.usage model settles
        rw [ends]
        exact told.terminal few open' t

theorem input_length (s : AppState) (call : Nat) (given : Input) :
    (s.step x (.input call given)).1.calls.clients.length = s.calls.clients.length :=
  Permits.Pool.step_length (.turn call given)

theorem step_grows (s : AppState) (action : Action) :
    s.calls.clients.length ≤ (s.step x action).1.calls.clients.length := by
  cases action with
  | input call given => exact (input_length s call given).ge
  | request incoming fresh =>
    obtain same | ⟨v, model, same⟩ := receive_usage (x := x) s incoming fresh
    · rw [step, same]
    · simp [step, same]

theorem run_grows (s : AppState) (actions : List Action) :
    s.calls.clients.length ≤ (runAll (step x) s actions).1.calls.clients.length := by
  induction actions generalizing s with
  | nil => exact Nat.le_refl _
  | cons action rest ih => exact (step_grows s action).trans (ih _)

theorem run_balanced {s : AppState} (sound : ∀ c ∈ s.calls.clients, c.Sound) (balanced : s.Balanced)
    {actions : List Action} (few : (runAll (step x) s actions).1.calls.clients.length ≤ u64Max) :
    (runAll (step x) s actions).1.Balanced := by
  induction actions generalizing s with
  | nil => exact balanced
  | cons action rest ih =>
    have fits := (run_grows (s.step x action).1 rest).trans few
    cases action with
    | input call given =>
      rw [input_length] at fits
      exact ih (step_sound sound _) (input_usage sound fits balanced call given) few
    | request incoming fresh =>
      obtain same | ⟨v, model, same⟩ := receive_usage (x := x) s incoming fresh
      · have still : (s.step x (.request incoming fresh)).1 = s := same
        rw [runAll_cons, still] at few ⊢
        exact ih sound balanced few
      · refine ih (step_sound sound _) ?_ few
        have appended : (s.calls.clients ++ [Call.new v]).length = s.calls.clients.length + 1 := List.length_append
        have unsettled : (s.calls.clients ++ [Call.new v]).countP Call.settled = s.settledCalls :=
          List.countP_append.trans (Nat.add_zero _)
        simp only [step, same, appended] at fits
        simp only [step, same, Balanced, settledCalls, appended, unsettled]
        exact balanced.begin fits

/-- As long as fewer calls have come than a counter can hold, the summary tells of every call once: under way, or in
one of the three ways a call ends. -/
theorem usage_counts_calls (since : Str) (actions : List Action)
    (few : (runAll (step x) (new since) actions).1.calls.clients.length ≤ u64Max) :
    let s := (runAll (step x) (new since) actions).1
    let requests := s.usage.snapshot.totals.requests
    requests.started = s.calls.clients.length ∧
      requests.inFlight = s.calls.clients.countP (fun c => !c.settled) ∧
      requests.completed + requests.failed + requests.cancelled = s.calls.clients.countP Call.settled := by
  intro s requests
  have balanced : s.Balanced := run_balanced (List.forall_mem_nil _) ⟨rfl, rfl, rfl⟩ few
  obtain ⟨started, inFlight, ended⟩ := balanced
  refine ⟨started, ?_, ended⟩
  have parts : s.calls.clients.length = s.settledCalls + s.calls.clients.countP fun c => !c.settled := by
    simpa [settledCalls] using List.length_eq_countP_add_countP Call.settled (l := s.calls.clients)
  have total : requests.inFlight + s.settledCalls = s.calls.clients.length := inFlight
  omega

def sampleMessages : MessagesRequest where
  model := "claude-sonnet-4-6".toList
  content := ⟨[⟨.user, .text "hi".toList⟩], none, []⟩
  maxTokens := 64
  stopSequences := []
  stream := true
  thinking := none
  effort := none

def sampleService : Service where
  kiro := ⟨⟨fun _ => none, fun _ => none, fun _ => []⟩, fun _ => .ok [], fun _ => true, fun _ => none, false⟩
  server := ⟨fun _ => 0, ⟨fun _ => none, fun _ => none, fun _ => []⟩, fun _ => []⟩
  prims := ⟨fun _ => none, fun name => name, fun _ => Vector.replicate 32 0, ⟨fun _ => none, fun _ => none, fun _ => []⟩⟩
  print := ⟨fun _ => [], fun _ => []⟩
  parse := fun _ => .ok sampleMessages
  sessionId := fun session => session
  estimate := fun _ => 4
  localToken := "local".toList

def samplePost : Incoming where
  method := .post
  path := "/v1/messages".toList
  headers := [(authorization, Str.bytes "Bearer local".toList)]
  body := ⟨Str.bytes "\x7b\x7d".toList, true⟩

def sampleFresh : Fresh := ⟨[], fun _ => [], fun _ => [], fun _ => [], 0⟩

def sampleActions : List Action := [.request samplePost sampleFresh, .input 0 (.turn (.drop 7))]

theorem usage_counts_calls_sample :
    let s := (runAll (step sampleService) (new []) sampleActions).1
    let requests := s.usage.snapshot.totals.requests
    requests.started = 1 ∧ requests.inFlight = 0 ∧ requests.completed + requests.failed + requests.cancelled = 1 := by
  obtain ⟨started, inFlight, ended⟩ := usage_counts_calls (x := sampleService) [] sampleActions (by decide +kernel)
  exact ⟨started.trans (by decide +kernel), inFlight.trans (by decide +kernel), ended.trans (by decide +kernel)⟩

end AppState

end KiroTrust.Server
