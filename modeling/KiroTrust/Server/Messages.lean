import KiroTrust.Server.Remaining

set_option autoImplicit false

namespace KiroTrust.Server

open Emitter Translate

/-! `post_messages` from the upstream call on, and the body of a streaming response. -/

def sseError (e : ApiError) : StreamEvent := ResponseTranslator.errorEvent e.kind e.message

/-- One item of a streaming body: events as `sse::encode` writes them, or the keep-alive comment. -/
inductive Piece where
  | events (events : List StreamEvent)
  | keepAlive

def Piece.out : Piece → List StreamEvent
  | .events out => out
  | .keepAlive => []

structure Body where
  initial : Option (List StreamEvent)
  pump : Pump
  finished : Bool

def streamResponse (first : List StreamEvent) (pump : Pump) : Body := ⟨some first, pump, false⟩

inductive Reply where
  | stream (body : Body)
  | message (folded : Except Refusal OutMessage)

inductive Response where
  | error (error : ApiError)
  | stream (body : Body)
  | message (message : OutMessage)

/-- A stream that `generate` returns, the options made for it, and when its priming runs out of time. -/
structure Attempt where
  bytes : List (Except UpstreamError (List UInt8))
  opts : ResponseOptions
  expires : Nat → Bool

variable (x : Externals)

/-- The body yields its next piece; `timeout` says that the keep-alive period runs out while `next` waits. -/
def Body.poll (timeout : Bool) (b : Body) : Option (Piece × Body) :=
  if b.finished then none
  else
    match b.initial with
    | some events => some (.events events, ⟨none, b.pump, b.pump.endedOrStopped⟩)
    | none =>
      -- The timeout drops a `next` that has changed nothing yet.
      if timeout = true ∧ b.pump.ready = none then some (.keepAlive, ⟨none, b.pump, false⟩)
      else
        let pump := (b.pump.next x).1
        match (b.pump.next x).2 with
        | .events events => some (.events events, ⟨none, pump, pump.endedOrStopped⟩)
        | .failed events f => some (.events (events ++ [sseError (failureToError f)]), ⟨none, pump, true⟩)
        | .broken events e => some (.events (events ++ [sseError (.ofUpstream e)]), ⟨none, pump, true⟩)
        | .done => some (.events [], ⟨none, pump, true⟩)

/-- The non-streaming `while` over `next`, and the message at its end. -/
def foldResponse (p : Pump) : Except Refusal OutMessage :=
  if p.endedOrStopped then .ok (p.translator.intoMessage x.serde)
  else
    let after := (p.next x).1
    match _returns : (p.next x).2 with
    -- The events themselves are dropped: only the accumulators count.
    | .events _ =>
      if _over : after.endedOrStopped then .ok (after.translator.intoMessage x.serde) else foldResponse after
    | .failed _ f => .error (.failed f)
    | .broken _ e => .error (.broken e)
    | .done => .ok (after.translator.intoMessage x.serde)
termination_by p.bytes.length
decreasing_by exact Pump.next_shrinks x _returns (by simpa using _over)

def respond (streaming : Bool) (expires : Nat → Bool) (p : Pump) : Except Refusal Reply :=
  let primed := p.prime x streaming expires 0 []
  match primed.2.1 with
  | .failed f => .error (.failed f)
  | .broken e => .error (.broken e)
  | .ready first | .ended first =>
    if streaming then .ok (.stream (streamResponse first primed.1))
    else .ok (.message (foldResponse x primed.1))

def Refusal.retryable : Refusal → Bool
  | .failed f => Server.retryable f
  | .broken _ => false

/-- The loop of `post_messages`; `generate` gets a payload without a conversation id once replayed. -/
def postMessages (streaming : Bool) (generate : Bool → Except UpstreamError Attempt) (replayed : Bool) :
    Response :=
  match generate replayed with
  | .error e => .error (.ofUpstream e)
  | .ok attempt =>
    match respond x streaming attempt.expires (Pump.new attempt.bytes attempt.opts) with
    | .ok (.stream body) => .stream body
    | .ok (.message (.ok message)) => .message message
    | .ok (.message (.error refusal)) => .error refusal.error
    | .error refusal =>
      if _again : replayed = false ∧ refusal.retryable = true then postMessages streaming generate true
      else .error refusal.error
termination_by (!replayed).toNat
decreasing_by simp [_again.1]

namespace Body

def size (b : Body) : Nat :=
  if b.finished then 0 else b.initial.toList.length + b.pump.bytes.length + 1

def ending (s : Intake) : List StreamEvent :=
  match s.refusal with
  | some refusal => [sseError refusal.error]
  | none => []

def left (p : Pump) : List StreamEvent := (p.remaining x).2 ++ ending (p.remaining x).1

def remaining (b : Body) : List StreamEvent :=
  if b.finished then []
  else
    match b.initial with
    | some first => if b.pump.endedOrStopped then first else first ++ left x b.pump
    | none => left x b.pump

theorem left_over {p : Pump} (atEnd : p.endedOrStopped = true) (unrefused : p.toIntake.refusal = none) :
    left x p = [] := by
  simp [left, p.remaining_of_over x atEnd, ending, unrefused]

theorem left_refused {p : Pump} {refusal : Refusal} (refused : p.toIntake.refusal = some refusal) :
    left x p = [sseError refusal.error] := by
  simp [left, p.remaining_of_refusal x (by simp [refused]), ending, refused]

theorem left_next (p : Pump) : left x p = (p.next x).2.out ++ left x (p.next x).1 := by
  simp [left, p.next_remaining x]

theorem poll_finished (timeout : Bool) {b : Body} (finished : b.finished = true) : b.poll x timeout = none := by
  simp [poll, finished]

theorem poll_initial (timeout : Bool) {b : Body} {first : List StreamEvent} (unfinished : b.finished = false)
    (primed : b.initial = some first) :
    b.poll x timeout = some (.events first, ⟨none, b.pump, b.pump.endedOrStopped⟩) := by
  simp [poll, unfinished, primed]

theorem poll_late {b : Body} (unfinished : b.finished = false) (flushed : b.initial = none)
    (waits : b.pump.ready = none) : b.poll x true = some (.keepAlive, b) := by
  obtain ⟨initial, pump, finished⟩ := b
  simp_all [poll]

theorem poll_next {timeout : Bool} {b : Body} (unfinished : b.finished = false) (flushed : b.initial = none)
    (inTime : ¬(timeout = true ∧ b.pump.ready = none)) :
    ∃ out finished, b.poll x timeout = some (.events out, ⟨none, (b.pump.next x).1, finished⟩) ∧
      left x b.pump = out ++ (if finished then [] else left x (b.pump.next x).1) ∧
      (finished = false → (b.pump.next x).1.bytes.length < b.pump.bytes.length) := by
  -- One case for each result of `next`; the errors bring their own event along.
  have brings := left_next x b.pump
  have reports := b.pump.next_reports x
  simp only [poll, unfinished, flushed, inTime, Bool.false_eq_true, if_false]
  split
  next out returns =>
    rw [returns] at brings reports
    refine ⟨out, _, rfl, ?_, Pump.next_shrinks x returns⟩
    cases atEnd : (b.pump.next x).1.endedOrStopped with
    | true => simpa [left_over x atEnd reports, Chunk.out] using brings
    | false => simpa [Chunk.out] using brings
  next out f returns =>
    rw [returns] at brings reports
    rw [left_refused x reports] at brings
    exact ⟨_, true, rfl, by simpa [Chunk.out, Refusal.error] using brings, by simp⟩
  next out e returns =>
    rw [returns] at brings reports
    rw [left_refused x reports] at brings
    exact ⟨_, true, rfl, by simpa [Chunk.out, Refusal.error] using brings, by simp⟩
  next returns =>
    rw [returns] at reports
    obtain ⟨same, unrefused, atEnd⟩ := reports
    exact ⟨[], true, rfl, by simpa using left_over x atEnd unrefused, by simp⟩

theorem poll_cases {timeout : Bool} {b after : Body} {piece : Piece}
    (polled : b.poll x timeout = some (piece, after)) :
    b.remaining x = piece.out ++ after.remaining x ∧
      (after.size < b.size ∨ timeout = true ∧ piece = .keepAlive ∧ after = b) := by
  have unfinished : b.finished = false := by
    by_contra finished
    rw [poll_finished x timeout (by simpa using finished)] at polled
    cases polled
  cases primed : b.initial with
  | some first =>
    rw [poll_initial x timeout unfinished primed] at polled
    cases polled
    constructor
    · cases atEnd : b.pump.endedOrStopped <;> simp [remaining, unfinished, primed, atEnd, Piece.out]
    · left
      simp only [size, unfinished, primed]
      split <;> simp
  | none =>
    by_cases late : timeout = true ∧ b.pump.ready = none
    · rw [late.1, poll_late x unfinished primed late.2] at polled
      cases polled
      exact ⟨rfl, .inr ⟨late.1, rfl, rfl⟩⟩
    · obtain ⟨out, finished, polls, brings, shrinks⟩ := poll_next x unfinished primed late
      rw [polls] at polled
      cases polled
      constructor
      · cases finished <;> simpa [remaining, unfinished, primed, Piece.out] using brings
      · left
        cases finished <;> simp_all [size]

theorem poll_none {timeout : Bool} {b : Body} (polled : b.poll x timeout = none) : b.finished = true := by
  by_contra unfinished
  simp only [Bool.not_eq_true] at unfinished
  cases primed : b.initial with
  | some first => simp [poll_initial x timeout unfinished primed] at polled
  | none =>
    by_cases late : timeout = true ∧ b.pump.ready = none
    · simp [late.1, poll_late x unfinished primed late.2] at polled
    · obtain ⟨out, finished, polls, -⟩ := poll_next x unfinished primed late
      simp [polls] at polled

def read (b : Body) : List StreamEvent :=
  match _polled : b.poll x false with
  | none => []
  | some (piece, after) => piece.out ++ read after
termination_by b.size
decreasing_by
  have progress := (poll_cases x _polled).2
  simpa using progress

theorem read_remaining (b : Body) : b.read x = b.remaining x := by
  induction size : b.size using Nat.strongRecOn generalizing b with
  | _ n ih =>
    subst size
    rw [read]
    split
    next polled => simp [remaining, poll_none x polled]
    next piece after polled =>
      obtain ⟨brings, progress⟩ := poll_cases x polled
      have shorter : after.size < b.size := by simpa using progress
      rw [brings, ih _ shorter after rfl]

def step (b : Body) (timeout : Bool) : Body × List Piece :=
  match b.poll x timeout with
  | none => (b, [])
  | some (piece, after) => (after, [piece])

def shown (pieces : List Piece) : List StreamEvent := pieces.flatMap Piece.out

theorem step_remaining (b : Body) (timeout : Bool) :
    b.remaining x = shown (b.step x timeout).2 ++ (b.step x timeout).1.remaining x := by
  unfold step
  split
  next => simp [shown]
  next piece after polled => simpa [shown] using (poll_cases x polled).1

theorem run_remaining (b : Body) (schedule : List Bool) :
    b.remaining x = shown (runAll (step x) b schedule).2 ++ (runAll (step x) b schedule).1.remaining x := by
  induction schedule generalizing b with
  | nil => simp [shown]
  | cons timeout rest ih =>
    have first := step_remaining x b timeout
    have later := ih (b.step x timeout).1
    rw [first, later]
    simp [shown, runAll_cons]

theorem step_size (b : Body) (timeout : Bool) : (b.step x timeout).1.size ≤ b.size - (!timeout).toNat := by
  unfold step
  split
  next polled => simp [size, poll_none x polled]
  next piece after polled =>
    obtain shorter | ⟨late, -, rfl⟩ := (poll_cases x polled).2
    · cases timeout <;> simp <;> omega
    · simp [late]

theorem run_size (b : Body) (schedule : List Bool) :
    (runAll (step x) b schedule).1.size ≤ b.size - schedule.count false := by
  induction schedule generalizing b with
  | nil => simp
  | cons timeout rest ih =>
    have first := step_size x b timeout
    have later := ih (b.step x timeout).1
    have counts : (timeout :: rest).count false = rest.count false + (!timeout).toNat := by
      cases timeout <;> simp
    simp only [runAll_cons, counts]
    omega

theorem size_zero {b : Body} : b.size = 0 ↔ b.finished = true := by
  unfold size
  split <;> simp_all

end Body

end KiroTrust.Server
