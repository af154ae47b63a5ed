import KiroTrust.Server.Calls

set_option autoImplicit false

namespace KiroTrust.Server

open Emitter
open Permits (Pool)
open Permits.Pool (shownBy)

/-! Runs of the server: its permits, and one answer for each call. -/

variable (x : Service)

/-- The request leads to a call of `post_messages` that goes on. -/
def accepted (incoming : Incoming) (fresh : Fresh) : Option Valid :=
  if admits x incoming then
    match route incoming with
    | .ok .messages => (validate x incoming fresh).toOption
    | _ => none
  else none

def Action.event : Action → Option (Permits.Event Call Input)
  | .request incoming fresh => (accepted x incoming fresh).map fun v => .join (.new v)
  | .input call given => some (.turn call given)

def Action.inputTo (call : Nat) : Action → Option Input
  | .request _ _ => none
  | .input other given => if other = call then some given else none

def Shown.ofCall : Shown → Option (Nat × Seen)
  | .direct _ _ => none
  | .call index seen => some (index, seen)

namespace AppState

variable {x}

theorem receive_calls (s : AppState) (incoming : Incoming) (fresh : Fresh) :
    (s.receive x incoming fresh).2.filterMap Shown.ofCall = [] ∧
      (s.receive x incoming fresh).1.calls =
        match accepted x incoming fresh with
        | some v => (s.calls.step (Call.clients x) (.join (.new v))).1
        | none => s.calls := by
  unfold receive accepted
  split
  next =>
    cases route incoming with
    | error e => exact ⟨rfl, rfl⟩
    | ok endpoint =>
      cases endpoint with
      | health | models | usage => exact ⟨rfl, rfl⟩
      | countTokens =>
        simp only
        split <;> exact ⟨rfl, rfl⟩
      | messages =>
        simp only
        cases validate x incoming fresh <;> exact ⟨rfl, rfl⟩
  next => exact ⟨rfl, rfl⟩

theorem input_calls (s : AppState) (call : Nat) (input : Input) :
    (s.step x (.input call input)).1.calls = (s.calls.step (Call.clients x) (.turn call input)).1 ∧
      (s.step x (.input call input)).2.filterMap Shown.ofCall = (s.calls.step (Call.clients x) (.turn call input)).2 := by
  refine ⟨rfl, ?_⟩
  simp [step, List.filterMap_map, Function.comp_def, Shown.ofCall]

theorem run_calls (s : AppState) (actions : List Action) :
    let run := runAll (step x) s actions
    let pool := runAll (Pool.step (Call.clients x)) s.calls (actions.filterMap (Action.event x))
    run.1.calls = pool.1 ∧ run.2.filterMap Shown.ofCall = pool.2 := by
  induction actions generalizing s with
  | nil => exact ⟨rfl, rfl⟩
  | cons action rest ih =>
    obtain ⟨moved, shown⟩ := ih (s.step x action).1
    simp only [runAll_cons, List.filterMap_append, List.filterMap_cons, moved, shown]
    cases action with
    | input call input =>
      obtain ⟨calls, out⟩ := input_calls (x := x) s call input
      simp only [Action.event, runAll_cons, calls, out]
      exact ⟨trivial, trivial⟩
    | request incoming fresh =>
      obtain ⟨quiet, calls⟩ := receive_calls (x := x) s incoming fresh
      simp only [step, quiet, Action.event, List.nil_append]
      rw [calls]
      cases accepted x incoming fresh with
      | none => exact ⟨rfl, rfl⟩
      | some v => exact ⟨rfl, rfl⟩

theorem events_allowed (actions : List Action) :
    ∀ e ∈ actions.filterMap (Action.event x), e.Allowed fun c => ∃ v, c = Call.new v := by
  intro e inside
  obtain ⟨action, -, brings⟩ := List.mem_filterMap.1 inside
  cases action with
  | input call input =>
    cases brings
    trivial
  | request incoming fresh =>
    obtain ⟨v, -, rfl⟩ := Option.map_eq_some_iff.1 brings
    exact ⟨v, rfl⟩

theorem run_full (since : Str) (actions : List Action) :
    (runAll (step x) (new since) actions).1.calls.Full (Call.clients x) maxConcurrent := by
  rw [(run_calls (new since) actions).1]
  exact Pool.run_full Call.honest rfl (events_allowed actions)

theorem step_sound {s : AppState} (sound : ∀ c ∈ s.calls.clients, c.Sound) (action : Action) :
    ∀ c ∈ (s.step x action).1.calls.clients, c.Sound := by
  have starts : ∀ c : Call, (∃ v, c = .new v) → c.Sound := by
    rintro c ⟨v, rfl⟩
    exact Call.new_sound v
  have keeps (free : Bool) (c : Call) (given : Input) (sound : c.Sound) : (c.step x free given).1.Sound :=
    (Call.step_moves sound free given).sound
  have step (e : Permits.Event Call Input) (allowed : e.Allowed fun c => ∃ v, c = .new v) :=
    Pool.step_clients (m := Call.clients x) starts keeps sound allowed
  cases action with
  | input call given => exact step (.turn call given) trivial
  | request incoming fresh =>
    rw [AppState.step, (receive_calls s incoming fresh).2]
    cases accepted x incoming fresh with
    | none => exact sound
    | some v => exact step (.join (.new v)) ⟨v, rfl⟩

theorem run_sound {s : AppState} (sound : ∀ c ∈ s.calls.clients, c.Sound) (actions : List Action) :
    ∀ c ∈ (runAll (step x) s actions).1.calls.clients, c.Sound := by
  induction actions generalizing s with
  | nil => exact sound
  | cons action rest ih => exact ih (step_sound sound action)

def dropAll (s : AppState) (elapsed : Nat) : List Action :=
  (List.range s.calls.clients.length).map fun call => .input call (.turn (.drop elapsed))

theorem dropAll_events (s : AppState) (elapsed : Nat) :
    (s.dropAll elapsed).filterMap (Action.event x) =
      (List.range s.calls.clients.length).map (Permits.Event.turn · (.turn (.drop elapsed))) := by
  simp [dropAll, List.filterMap_map, Function.comp_def, Action.event]

/-- In every run the permits are those of the limiter: each is free or with one call, at most so many calls work on
an answer, one that asks in vain finds all of them given out, and the last call to go leaves all of them. -/
theorem permits_conserved (since : Str) (actions : List Action) :
    let s := (runAll (step x) (new since) actions).1
    s.calls.available + s.calls.clients.countP Call.permit = maxConcurrent ∧
      s.calls.clients.countP Call.working ≤ maxConcurrent ∧
      (∀ (call : Nat) (c : Call) (v : Valid) (usage : Tracking.RequestUsageGuard) (elapsed : Nat),
        s.calls.clients[call]? = some c → c.progress = .acquiring v usage →
          (.call call (.answer (.error busy)) ∈ (s.step x (.input call (.acquire elapsed))).2 ↔
            s.calls.clients.countP Call.permit = maxConcurrent)) ∧
      ∀ elapsed, (runAll (step x) s (s.dropAll elapsed)).1.calls.available = maxConcurrent := by
  intro s
  have full : s.calls.Full (Call.clients x) maxConcurrent := run_full since actions
  have sound : ∀ c ∈ s.calls.clients, c.Sound := run_sound (List.forall_mem_nil _) actions
  refine ⟨full, full.count_le fun c inside => (sound c inside).holds, ?_, fun elapsed => ?_⟩
  · rintro call ⟨progress, permit⟩ v usage elapsed there rfl
    have spent : s.calls.free = false ↔ s.calls.clients.countP Call.permit = maxConcurrent := full.spent
    rw [← spent]
    have unsettled := (sound _ (List.mem_of_getElem? there)).1
    obtain ⟨t, settles⟩ := settle_open unsettled (.failed .localConcurrency) elapsed
    cases free : s.calls.free <;>
      simp [step, Pool.step, there, Call.clients, Call.step, free, Call.fail, settles]
  · rw [(run_calls s (s.dropAll elapsed)).1, dropAll_events]
    exact Pool.run_everyone Call.honest full sound (.turn (.drop elapsed))
      fun free c sound => Call.drop_leaves free sound elapsed

theorem inputs_events (call : Nat) (actions : List Action) :
    Pool.inputsOf call (actions.filterMap (Action.event x)) = actions.filterMap (Action.inputTo call) := by
  rw [Pool.inputsOf, List.filterMap_filterMap]
  refine List.filterMap_congr fun action _ => ?_
  cases action with
  | input other given => rfl
  | request incoming fresh =>
    simp only [Action.event, Action.inputTo]
    cases accepted x incoming fresh <;> rfl

theorem run_alone (since : Str) (actions : List Action) (index : Nat) {c : Call}
    (there : (runAll (step x) (new since) actions).1.calls.clients[index]? = some c) :
    ∃ front incoming fresh v back turns, actions = front ++ .request incoming fresh :: back ∧
      accepted x incoming fresh = some v ∧ turns.map Prod.snd = back.filterMap (Action.inputTo index) ∧
        let alone := runAll (fun c (turn : Bool × Input) => c.step x turn.1 turn.2) (.new v) turns
        c = alone.1 ∧ shownBy index ((runAll (step x) (new since) actions).2.filterMap Shown.ofCall) = alone.2 := by
  obtain ⟨calls, out⟩ := run_calls (x := x) (new since) actions
  rw [calls] at there
  rw [out]
  obtain ⟨first, early, late, turns, split, inputs, same, shown⟩ := Pool.run_joined (Nat.zero_le index) there
  obtain ⟨front, after, rfl, -, brings⟩ := List.filterMap_eq_append_iff.1 split
  obtain ⟨quiet, action, back, rfl, -, joins, rfl⟩ := List.filterMap_eq_cons_iff.1 brings
  cases action with
  | input call given => cases joins
  | request incoming fresh =>
    obtain ⟨v, valid, joined⟩ := Option.map_eq_some_iff.1 joins
    cases joined
    refine ⟨front ++ quiet, incoming, fresh, v, back, turns, by simp, valid, ?_, same, shown⟩
    rw [inputs, inputs_events]

/-- In every run, each call behaves as it does alone on its own inputs: it is answered once, unless it is dropped
before, it is counted once when it ends, and it asks the upstream twice at the most. -/
theorem calls_answered_once (since : Str) (actions : List Action) :
    let run := runAll (step x) (new since) actions
    ∀ index : Fin run.1.calls.clients.length, ∃ front incoming fresh v back turns,
      actions = front ++ .request incoming fresh :: back ∧ accepted x incoming fresh = some v ∧
      turns.map Prod.snd = back.filterMap (Action.inputTo index) ∧
        let alone := runAll (fun c (turn : Bool × Input) => c.step x turn.1 turn.2) (.new v) turns
        run.1.calls.clients[index] = alone.1 ∧ shownBy index (run.2.filterMap Shown.ofCall) = alone.2 ∧
          answers alone.2 + alone.1.waits.toNat ≤ 1 ∧
          ((∀ turn ∈ turns, turn.2.drops = false) → answers alone.2 + alone.1.waits.toNat = 1) ∧
          settlements alone.2 = alone.1.settled.toNat ∧ (Server.calls alone.2).length ≤ 2 := by
  intro run index
  obtain ⟨front, incoming, fresh, v, back, turns, split, valid, inputs, same, shown⟩ :=
    run_alone (x := x) since actions index (List.getElem?_eq_getElem index.2)
  have moves := Call.run_moves (x := x) (Call.new_sound v) turns
  refine ⟨front, incoming, fresh, v, back, turns, split, valid, inputs, same, shown, moves.answered, fun kept => ?_, ?_, ?_⟩
  · exact moves.kept (List.any_eq_false.2 fun turn inside => by simp [kept turn inside])
  · exact moves.settled
  · exact (Nat.le_add_right _ _).trans moves.calls

end AppState

end KiroTrust.Server
