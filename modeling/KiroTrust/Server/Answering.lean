import KiroTrust.Server.Untraced

set_option autoImplicit false

namespace KiroTrust.Server

open Emitter Translate
open Tracking (RequestUsageGuard)

/-! `postMessages` by its attempts. -/

def folded : Except Refusal OutMessage → Response
  | .ok message => .message message
  | .error refusal => .error refusal.error

def answerOf (x : Externals) (streaming : Bool) (pump : Pump) : Primed → Response
  | .failed f => .error (Refusal.failed f).error
  | .broken e => .error (Refusal.broken e).error
  | .ready first | .ended first =>
    if streaming then .stream (streamResponse first pump) else folded (foldResponse x pump)

def answerTo : Except Refusal Reply → Response
  | .ok (.stream body) => .stream body
  | .ok (.message message) => folded message
  | .error refusal => .error refusal.error

theorem respond_eq (x : Externals) (streaming : Bool) (expires : Nat → Bool) (pump : Pump) :
    let primed := pump.prime x streaming expires 0 []
    answerTo (respond x streaming expires pump) = answerOf x streaming primed.1 primed.2.1 := by
  unfold respond
  simp only
  cases (pump.prime x streaming expires 0 []).2.1 with
  | failed f | broken e => rfl
  | ready first | ended first => cases streaming <;> rfl

def Attempt.pump (attempt : Attempt) : Pump := .new attempt.bytes attempt.opts

def attemptAnswer (x : Externals) (streaming : Bool) : Except UpstreamError Attempt → Response
  | .error e => .error (.ofUpstream e)
  | .ok attempt => answerTo (respond x streaming attempt.expires attempt.pump)

def Last (x : Externals) (streaming : Bool) (replayed : Bool) (attempt : Except UpstreamError Attempt) : Prop :=
  ∀ made refusal, attempt = .ok made → respond x streaming made.expires made.pump = .error refusal →
    replayed = true ∨ refusal.retryable = false

theorem postMessages_last {x : Externals} {streaming replayed : Bool} {generate : Bool → Except UpstreamError Attempt}
    (last : Last x streaming replayed (generate replayed)) :
    postMessages x streaming generate replayed = attemptAnswer x streaming (generate replayed) := by
  rw [postMessages]
  cases made : generate replayed with
  | error e => rfl
  | ok attempt =>
    simp only [attemptAnswer]
    change _ = answerTo (respond x streaming attempt.expires (.new attempt.bytes attempt.opts))
    cases responds : respond x streaming attempt.expires (.new attempt.bytes attempt.opts) with
    | ok reply =>
      cases reply with
      | stream body => rfl
      | message message => cases message <;> rfl
    | error refusal =>
      have never : ¬(replayed = false ∧ refusal.retryable = true) := by
        obtain again | final := last attempt refusal made responds
        · simp [again]
        · simp [final]
      simp only [dif_neg never]
      rfl

theorem postMessages_again {x : Externals} {streaming : Bool} {generate : Bool → Except UpstreamError Attempt}
    {attempt : Attempt} {refusal : Refusal} (made : generate false = .ok attempt)
    (refused : respond x streaming attempt.expires attempt.pump = .error refusal) (again : refusal.retryable = true) :
    postMessages x streaming generate false = postMessages x streaming generate true := by
  rw [postMessages]
  simp only [made]
  rw [show respond x streaming attempt.expires (.new attempt.bytes attempt.opts) = .error refusal from refused]
  simp only
  rw [dif_pos ⟨trivial, again⟩]

/-! Turn by turn, a request comes to the answer of `postMessages`. -/

namespace Pump

variable (x : Externals)

theorem prime_turn (streaming : Bool) (expires : Nat → Bool) (turn : Nat) (p : Pump) (buffered : List StreamEvent) :
    p.prime x streaming expires turn buffered =
      let first := p.primeTurn x streaming (expires turn) buffered
      match first.2.1 with
      | .error primed => (first.1, primed, first.2.2.toList)
      | .ok buffered =>
        let later := first.1.prime x streaming expires (turn + 1) buffered
        (later.1, later.2.1, first.2.2.toList ++ later.2.2) := by
  rw [prime]
  unfold primeTurn
  split
  next => rfl
  next =>
    split
    next ev returns =>
      simp only [returns]
      generalize (if streaming then buffered ++ ev else buffered) = buffered
      split
      next => rfl
      next =>
        split
        next => rfl
        next => rfl
    next ev f returns =>
      simp only [returns]
      generalize (if streaming then buffered ++ ev else buffered) = buffered
      split <;> rfl
    next ev e returns =>
      simp only [returns]
      generalize (if streaming then buffered ++ ev else buffered) = buffered
      split <;> rfl
    next returns =>
      simp only [returns]
      rfl

theorem primeTurn_cases (streaming late : Bool) (p : Pump) (buffered : List StreamEvent) :
    (∃ pump primed seen, p.primeTurn x streaming late buffered = (pump, .error primed, seen)) ∨
      ∃ more seen, p.primeTurn x streaming late buffered = ((p.next x).1, .ok more, seen) ∧
        (p.next x).1.bytes.length < p.bytes.length := by
  unfold primeTurn
  split
  next => exact .inl ⟨_, _, _, rfl⟩
  next =>
    split
    next ev returns =>
      simp only
      generalize (if streaming then buffered ++ ev else buffered) = buffered
      split
      next => exact .inl ⟨_, _, _, rfl⟩
      next atEnd =>
        split
        next => exact .inl ⟨_, _, _, rfl⟩
        next => exact .inr ⟨_, _, rfl, next_shrinks x returns (by simpa using atEnd)⟩
    next ev f returns =>
      simp only
      generalize (if streaming then buffered ++ ev else buffered) = buffered
      split
      next => exact .inl ⟨_, _, _, rfl⟩
      next => exact .inl ⟨_, _, _, rfl⟩
    next ev e returns =>
      simp only
      generalize (if streaming then buffered ++ ev else buffered) = buffered
      split
      next => exact .inl ⟨_, _, _, rfl⟩
      next => exact .inl ⟨_, _, _, rfl⟩
    next => exact .inl ⟨_, _, _, rfl⟩

end Pump

namespace Handling

variable {r : Route}

def observed (usage : RequestUsageGuard) (seen : List UsageSnapshot) : RequestUsageGuard :=
  seen.foldl (fun usage snapshot => usage.update snapshot 0) usage

theorem onPriming_eq (h : Handling) (elapsed : Nat) (late : Bool) (pump : Pump) (buffered : List StreamEvent) :
    let turn := pump.primeTurn r.server r.streaming late buffered
    h.onPriming r elapsed late pump buffered =
      { h with usage := observed h.usage turn.2.2.toList }.onTurn r elapsed turn.1 turn.2.1 := by
  unfold onPriming
  simp only
  cases (pump.primeTurn r.server r.streaming late buffered).2.2 with
  | none => rfl
  | some snapshot => rfl

theorem priming_runs {h : Handling} {pump : Pump} {buffered : List StreamEvent} (stage : h.stage = .priming pump buffered)
    (elapsed : Nat) (expires : Nat → Bool) (turn : Nat) :
    let primed := pump.prime r.server r.streaming expires turn buffered
    ∃ n stage, runAll (step r) h ((List.range' turn n).map fun i => .pump elapsed (expires i)) =
      let after := onPrimed r { h with usage := observed h.usage primed.2.2, stage } elapsed primed.1 primed.2.1
      (after.1, .primed primed.2.1 :: after.2) := by
  induction size : pump.bytes.length using Nat.strongRecOn generalizing h pump buffered turn with
  | _ size ih =>
    subst size
    have moved : h.step r (.pump elapsed (expires turn)) = h.onPriming r elapsed (expires turn) pump buffered := by
      simp only [step, stage]
    rw [onPriming_eq] at moved
    rw [Pump.prime_turn]
    obtain ⟨after, primed, seen, turned⟩ | ⟨more, seen, turned, shorter⟩ :=
      pump.primeTurn_cases r.server r.streaming (expires turn) buffered
    · rw [turned] at moved ⊢
      refine ⟨1, h.stage, ?_⟩
      rw [List.range'_one, List.map_singleton, runAll_cons, moved]
      simp only [runAll_nil, List.append_nil]
      rfl
    · rw [turned] at moved ⊢
      simp only
      let next : Handling := { h with
        usage := observed h.usage seen.toList, stage := .priming (pump.next r.server).1 more }
      obtain ⟨n, stage, later⟩ := ih _ shorter (h := next) rfl (turn + 1) rfl
      refine ⟨n + 1, stage, ?_⟩
      rw [List.range'_succ, List.map_cons, runAll_cons, moved]
      have seenAll : observed (observed h.usage seen.toList)
          ((pump.next r.server).1.prime r.server r.streaming expires (turn + 1) more).2.2 =
          observed h.usage (seen.toList ++
            ((pump.next r.server).1.prime r.server r.streaming expires (turn + 1) more).2.2) :=
        List.foldl_append.symm
      rw [← seenAll]
      simp only [onTurn, List.nil_append]
      exact later

def Answers (out : List Seen) (response : Response) : Prop := ∃ before, out = before ++ [.answer response]

theorem Answers.after {out : List Seen} {response : Response} (answers : Answers out response) (before : List Seen) :
    Answers (before ++ out) response := by
  obtain ⟨middle, rfl⟩ := answers
  exact ⟨before ++ middle, (List.append_assoc _ _ _).symm⟩

theorem refuse_answers (h : Handling) (elapsed : Nat) (pump : Pump) (refusal : Refusal) :
    Answers (h.refuse elapsed pump refusal).2 (.error refusal.error) := ⟨_, rfl⟩

theorem finishMessage_answers (h : Handling) (elapsed : Nat) (pump : Pump) :
    Answers (h.finishMessage r elapsed pump).2 (.message (pump.translator.intoMessage r.server.serde)) := ⟨_, rfl⟩

theorem folding_answers {h : Handling} {pump : Pump} (stage : h.stage = .folding pump)
    (going : pump.endedOrStopped = false) (elapsed : Nat) :
    ∃ turns, Answers (runAll (step r) h turns).2 (folded (foldResponse r.server pump)) := by
  induction size : pump.bytes.length using Nat.strongRecOn generalizing h pump with
  | _ size ih =>
    subst size
    have moved : h.step r (.pump elapsed false) = h.onFolding r elapsed pump := by
      simp only [step, stage]
    have once {response : Response} (answers : Answers (h.onFolding r elapsed pump).2 response) :
        ∃ turns, Answers (runAll (step r) h turns).2 response := by
      refine ⟨[.pump elapsed false], ?_⟩
      rw [runAll_cons, moved]
      simpa only [runAll_nil, List.append_nil] using answers
    unfold onFolding at moved once
    rw [foldResponse, if_neg (by simp [going])]
    split
    next out returns =>
      simp only [returns] at moved once
      by_cases atEnd : (pump.next r.server).1.endedOrStopped = true
      · rw [if_pos atEnd] at once
        rw [dif_pos atEnd]
        exact once (finishMessage_answers _ elapsed _)
      · rw [if_neg atEnd] at moved
        rw [dif_neg atEnd]
        have shorter := Pump.next_shrinks r.server returns (by simpa using atEnd)
        have later : (h.step r (.pump elapsed false)).1.stage = .folding (pump.next r.server).1 := by rw [moved]
        obtain ⟨turns, answers⟩ := ih _ shorter later (by simpa using atEnd) rfl
        refine ⟨.pump elapsed false :: turns, ?_⟩
        rw [runAll_cons]
        exact answers.after _
    next out f returns =>
      simp only [returns] at once
      exact once (refuse_answers h elapsed _ _)
    next out e returns =>
      simp only [returns] at once
      exact once (refuse_answers h elapsed _ _)
    next returns =>
      simp only [returns] at once
      exact once (finishMessage_answers h elapsed _)

theorem primed_answers (h : Handling) (elapsed : Nat) (pump : Pump) (primed : Primed)
    (last : ∀ f, primed = .failed f → h.replayed = true ∨ retryable f = false) :
    ∃ turns, Answers ((h.onPrimed r elapsed pump primed).2 ++
      (runAll (step r) (h.onPrimed r elapsed pump primed).1 turns).2)
      (answerOf r.server r.streaming pump primed) := by
  cases primed with
  | failed f =>
    have never : ¬((!h.replayed && retryable f) = true) := by
      obtain replayed | final := last f rfl
      · simp [replayed]
      · simp [final]
    refine ⟨[], ?_⟩
    simp only [onPrimed, if_neg never, runAll_nil, List.append_nil]
    exact refuse_answers h elapsed pump _
  | broken e =>
    refine ⟨[], ?_⟩
    simp only [onPrimed, runAll_nil, List.append_nil]
    exact refuse_answers h elapsed pump _
  | ready first | ended first =>
    simp only [onPrimed, answerOf]
    split
    next => exact ⟨[], [], rfl⟩
    next =>
      split
      next atEnd =>
        refine ⟨[], ?_⟩
        rw [foldResponse, if_pos atEnd, runAll_nil, List.append_nil]
        exact finishMessage_answers h elapsed pump
      next more =>
        obtain ⟨turns, answers⟩ := folding_answers (h := { h with stage := .folding pump }) rfl (by simpa using more) elapsed
        exact ⟨turns, answers⟩

theorem respond_answers {h : Handling} {pump : Pump} (stage : h.stage = .priming pump []) (elapsed : Nat)
    (expires : Nat → Bool)
    (last : ∀ refusal, respond r.server r.streaming expires pump = .error refusal →
      h.replayed = true ∨ refusal.retryable = false) :
    ∃ turns, Answers (runAll (step r) h turns).2 (answerTo (respond r.server r.streaming expires pump)) := by
  obtain ⟨n, stage, run⟩ := priming_runs (r := r) stage elapsed expires 0
  simp only at run
  let primed := pump.prime r.server r.streaming expires 0 []
  obtain ⟨turns, answers⟩ := primed_answers (r := r)
    { h with usage := observed h.usage primed.2.2, stage } elapsed primed.1 primed.2.1 (by
      intro f failed
      refine last (.failed f) ?_
      unfold respond
      simp only [primed] at failed
      simp only [failed])
  rw [respond_eq]
  let priming : List Turn := (List.range' 0 n).map fun i => .pump elapsed (expires i)
  refine ⟨priming ++ turns, ?_⟩
  rw [runAll_append, run]
  exact answers.after [.primed primed.2.1]

theorem respond_replays {h : Handling} {pump : Pump} (stage : h.stage = .priming pump []) (elapsed : Nat)
    (expires : Nat → Bool) {refusal : Refusal} (refused : respond r.server r.streaming expires pump = .error refusal)
    (first : h.replayed = false) (again : refusal.retryable = true) :
    ∃ turns out, ∃ next : Handling, next.replayed = true ∧ next.payload = withoutConversation h.payload ∧
      runAll (step r) h turns = ((next.call r elapsed).1, out ++ (next.call r elapsed).2) := by
  obtain ⟨n, stage, run⟩ := priming_runs (r := r) stage elapsed expires 0
  simp only at run
  cases refusal with
  | broken e => cases again
  | failed f =>
    have failed : (pump.prime r.server r.streaming expires 0 []).2.1 = .failed f := by
      unfold respond at refused
      simp only at refused
      cases found : (pump.prime r.server r.streaming expires 0 []).2.1 with
      | failed g =>
        rw [found] at refused
        cases refused
        rfl
      | broken e =>
        rw [found] at refused
        cases refused
      | ready events | ended events =>
        rw [found] at refused
        cases streaming : r.streaming <;> simp [streaming] at refused
    rw [failed] at run
    simp only [onPrimed, first, Bool.not_false, Bool.true_and] at run
    rw [if_pos (show retryable f = true from again)] at run
    exact ⟨_, [_], _, rfl, rfl, run⟩

theorem returned_stays {g : Kiro.Generate} {result : Except UpstreamError Kiro.UpstreamStream}
    (returned : g.phase = .returned result) (inputs : List Kiro.Input) :
    (runAll (Kiro.Generate.step r.kiro) g inputs).1.phase = .returned result := by
  induction inputs generalizing g with
  | nil => exact returned
  | cons input rest ih =>
    have stays : (g.step r.kiro input).1 = g := by
      cases input with
      | identity result => cases result <;> simp only [Kiro.Generate.step, returned]
      | cancel => simp only [Kiro.Generate.step, Kiro.Generate.ended, returned, if_true]
      | _ => simp only [Kiro.Generate.step, returned]
    rw [runAll_cons, stays]
    exact ih returned

theorem proceed_runs (h : Handling) (elapsed : Nat) (g : Kiro.Generate) {inputs : List Kiro.Input}
    {result : Except UpstreamError Kiro.UpstreamStream} (uncancelled : .cancel ∉ inputs)
    (returns : (runAll (Kiro.Generate.step r.kiro) g inputs).1.phase = .returned result) :
    ∃ turns out usage stage last, last.phase = .returned result ∧
      let now := h.proceed r elapsed g
      let later := runAll (step r) now.1 turns
      let after := proceed r { h with usage, stage } elapsed last
      later.1 = after.1 ∧ now.2 ++ later.2 = out ++ after.2 := by
  induction inputs generalizing h g with
  | nil => exact ⟨[], [], h.usage, h.stage, g, returns, rfl, List.append_nil _⟩
  | cons input rest ih =>
    by_cases settled : ∃ result, g.phase = .returned result
    · obtain ⟨other, returned⟩ := settled
      rw [returned_stays returned] at returns
      rw [returns] at returned
      exact ⟨[], [], h.usage, h.stage, g, returned, rfl, List.append_nil _⟩
    · let waiting : Handling := { h with
        usage := { h.usage with progress := g.progress.getD h.usage.progress }, stage := .generating g }
      have waits : h.proceed r elapsed g = (waiting, []) := by
        unfold proceed
        split
        next found => exact absurd ⟨_, found⟩ settled
        next found => exact absurd ⟨_, found⟩ settled
        next => rfl
      have moved : waiting.step r (.upstream elapsed input) =
          ((waiting.proceed r elapsed (g.step r.kiro input).1).1,
            (g.step r.kiro input).2.map .client ++ (waiting.proceed r elapsed (g.step r.kiro input).1).2) := by
        cases input with
        | cancel => exact absurd List.mem_cons_self uncancelled
        | _ => rfl
      obtain ⟨turns, out, usage, stage, last, returned, same, seen⟩ :=
        ih waiting (g.step r.kiro input).1 (fun inside => uncancelled (List.mem_cons_of_mem _ inside)) returns
      refine ⟨.upstream elapsed input :: turns, (g.step r.kiro input).2.map .client ++ out, usage, stage, last,
        returned, ?_⟩
      simp only [waits, runAll_cons, moved, List.nil_append, List.append_assoc]
      exact ⟨same, congrArg _ seen⟩

/-- What `generate` comes to when the awaits of an attempt yield these inputs. -/
structure Generates (r : Route) (payload : Kiro.Payload) (generate : Bool → Except UpstreamError Attempt)
    (inputs : Bool → List Kiro.Input) : Prop where
  uncancelled : ∀ replayed, .cancel ∉ inputs replayed
  returns : ∀ replayed progress, ∃ result,
    (runAll (Kiro.Generate.step r.kiro)
      (.start r.kiro (if replayed then withoutConversation payload else payload) (r.invocationId replayed) progress)
      (inputs replayed)).1.phase = .returned result ∧
    result.map Kiro.UpstreamStream.bytes = (generate replayed).map Attempt.bytes
  opts : ∀ replayed attempt, generate replayed = .ok attempt → attempt.opts = r.opts replayed

variable {payload : Kiro.Payload} {generate : Bool → Except UpstreamError Attempt} {inputs : Bool → List Kiro.Input}

theorem call_runs (generates : Generates r payload generate inputs) {h : Handling} (elapsed : Nat)
    (same : h.payload = if h.replayed then withoutConversation payload else payload) :
    ∃ turns, let later := runAll (step r) (h.call r elapsed).1 turns
      match generate h.replayed with
      | .error e => Answers ((h.call r elapsed).2 ++ later.2) (.error (.ofUpstream e))
      | .ok attempt => later.1.stage = .priming attempt.pump [] ∧ later.1.replayed = h.replayed ∧
          later.1.payload = h.payload := by
  obtain ⟨result, returns, outcome⟩ := generates.returns h.replayed (some h.usage.progress)
  rw [← same] at returns
  obtain ⟨turns, out, usage, stage, last, returned, states, seen⟩ :=
    proceed_runs h elapsed _ (generates.uncancelled h.replayed) returns
  refine ⟨turns, ?_⟩
  simp only [call]
  rw [states, List.cons_append, seen]
  cases made : generate h.replayed with
  | error e =>
    rw [made] at outcome
    cases result with
    | ok upstream => cases outcome
    | error other =>
      cases outcome
      simp only [proceed, returned]
      exact Answers.after ⟨_, rfl⟩ (.generate h.payload :: out)
  | ok attempt =>
    rw [made] at outcome
    cases result with
    | error e => cases outcome
    | ok upstream =>
      have bytes : upstream.bytes = attempt.bytes := Except.ok.inj outcome
      simp only [proceed, returned, Attempt.pump, bytes, generates.opts h.replayed attempt made]
      exact ⟨trivial, trivial, trivial⟩

theorem call_answers (generates : Generates r payload generate inputs) {h : Handling} (elapsed : Nat)
    (same : h.payload = if h.replayed then withoutConversation payload else payload)
    (last : Last r.server r.streaming h.replayed (generate h.replayed)) :
    ∃ turns, Answers ((h.call r elapsed).2 ++ (runAll (step r) (h.call r elapsed).1 turns).2)
      (postMessages r.server r.streaming generate h.replayed) := by
  obtain ⟨turns, comes⟩ := call_runs generates elapsed same
  rw [postMessages_last last]
  cases made : generate h.replayed with
  | error e =>
    simp only [made] at comes
    exact ⟨turns, comes⟩
  | ok attempt =>
    simp only [made] at comes
    obtain ⟨stage, replayed, -⟩ := comes
    obtain ⟨more, answers⟩ := respond_answers (r := r) stage elapsed attempt.expires (by
      intro refusal refused
      rw [replayed]
      exact last attempt refusal made refused)
    refine ⟨turns ++ more, ?_⟩
    rw [runAll_append, ← List.append_assoc]
    exact answers.after _

theorem handle_answers (generates : Generates r payload generate inputs) (modelIndex : Tracking.ModelIndex)
    (elapsed : Nat) :
    ∃ turns, Answers (handle r (new payload false modelIndex 0) elapsed turns).2
      (postMessages r.server r.streaming generate false) := by
  by_cases last : Last r.server r.streaming false (generate false)
  · exact call_answers generates elapsed (h := new payload false modelIndex 0) rfl last
  · simp only [Last, not_forall, not_or] at last
    obtain ⟨attempt, refusal, made, refused, -, again⟩ := last
    rw [postMessages_again made refused (by simpa using again)]
    let first := new payload false modelIndex 0
    have here : generate first.replayed = .ok attempt := made
    obtain ⟨turns, comes⟩ := call_runs generates (h := first) elapsed rfl
    simp only [here] at comes
    obtain ⟨stage, replayed, kept⟩ := comes
    obtain ⟨priming, out, next, replaying, without, run⟩ :=
      respond_replays (r := r) stage elapsed attempt.expires refused replayed (by simpa using again)
    have ends : Last r.server r.streaming next.replayed (generate next.replayed) := fun _ _ _ _ => .inl replaying
    obtain ⟨more, answers⟩ := call_answers generates (h := next) elapsed (by rw [without, kept, replaying]; rfl) ends
    rw [replaying] at answers
    refine ⟨turns ++ (priming ++ more), ?_⟩
    simp only [handle, runAll_append]
    rw [run, List.append_assoc]
    exact ((answers.after out).after _).after _

end Handling

end KiroTrust.Server
