import KiroTrust.Auth.Adoption

set_option autoImplicit false

namespace KiroTrust.Auth

open Emitter

/-! The cycle of a call: what it reads, sends and is told, in this order. -/

variable (parse : List UInt8 → Option TokenResponse)

inductive CycleEvent where
  | read (row : Except AuthError Credentials)
  | sent (seed : Credentials)
  | failed (error : AuthError)
  | reread (row : Except AuthError Credentials)

def CycleEvent.seed : CycleEvent → Option Credentials
  | .sent seed => some seed
  | _ => none

def Observation.sentBy (call : Nat) : Observation → Option Credentials
  | .sent other seed => if other = call then some seed else none
  | _ => none

def Phase.events (t : TokenSource) (w : World) : Phase → List CycleEvent
  | .reading _ => [.read (t.readDb w.row)]
  | .trying _ seed => if t.isBurned seed.expiresAt then [] else [.sent seed]
  | .posted _ _ =>
    match awaitStatus w.response with
    | .ok () => []
    | .error e => [.failed e]
  | .accepted _ seed =>
    match awaitBody parse w.now seed w.body with
    | .ok _ => []
    | .error e => [.failed e]
  | .failed (.first _) _ => [.reread (t.readDb w.row)]
  | _ => []

def State.events (s : State) (call : Nat) : Action → List CycleEvent
  | .resume other w => if other = call then (s.calls call).events parse s.source w else []
  | _ => []

def cycle (source : TokenSource) (actions : List Action) (call : Nat) : List CycleEvent :=
  (visits (State.step parse) (State.new source) actions).flatMap fun visit => visit.1.events parse call visit.2

def seeds (events : List CycleEvent) : List Credentials := events.filterMap CycleEvent.seed

def OnRecord (t : TokenSource) (events : List CycleEvent) : Phase → Prop
  | .idle | .entered | .fastPath | .waiting | .locked | .recheck _ | .reading _ => events = []
  | .rule1 _ dbCreds | .bound _ dbCreds _ => events = [.read (.ok dbCreds)]
  | .trying (.first seedExpiresAt) seed => ∃ dbCreds, events = [.read (.ok dbCreds)] ∧
    dbCreds.expiresAt = seedExpiresAt ∧ seed = TokenSource.chainSeed (t.cached.map Cached.creds) dbCreds
  | .posted (.first seedExpiresAt) seed | .accepted (.first seedExpiresAt) seed => ∃ dbCreds,
    events = [.read (.ok dbCreds), .sent seed] ∧ dbCreds.expiresAt = seedExpiresAt
  | .failed (.first seedExpiresAt) e => ∃ dbCreds seed,
    events = [.read (.ok dbCreds), .sent seed, .failed e] ∧ dbCreds.expiresAt = seedExpiresAt
  | .trying (.second firstErr) newer => ∃ dbCreds seed,
    events = [.read (.ok dbCreds), .sent seed, .failed firstErr, .reread (.ok newer)] ∧
      dbCreds.expiresAt ≠ unixEpoch ∧ newer.expiresAt ≠ dbCreds.expiresAt
  | .posted (.second firstErr) newer | .accepted (.second firstErr) newer => ∃ dbCreds seed,
    events = [.read (.ok dbCreds), .sent seed, .failed firstErr, .reread (.ok newer), .sent newer]
  | .failed (.second _) _ | .returned _ | .cancelled => (seeds events).length ≤ 2

theorem OnRecord.seeds_le {t : TokenSource} {events : List CycleEvent} {phase : Phase}
    (record : OnRecord t events phase) : (seeds events).length ≤ 2 := by
  cases phase with
  | trying attempt seed | posted attempt seed | accepted attempt seed | failed attempt e =>
    cases attempt with
    | first top =>
      first
        | obtain ⟨_, rfl, -⟩ := record; simp [seeds, List.filterMap_cons, CycleEvent.seed]
        | obtain ⟨_, _, rfl, -⟩ := record; simp [seeds, List.filterMap_cons, CycleEvent.seed]
    | second firstErr =>
      first
        | exact record
        | obtain ⟨_, _, rfl, -⟩ := record; simp [seeds, List.filterMap_cons, CycleEvent.seed]
  | returned | cancelled => exact record
  | rule1 | bound => cases record; simp [seeds, List.filterMap_cons, CycleEvent.seed]
  | _ => cases record; simp [seeds]

theorem reread_some {t : TokenSource} {row : Except AuthError Credentials} {seedExpiresAt : Time} {newer : Credentials}
    (found : ((t.readDb row).toOption.filter fun c => seedExpiresAt ≠ unixEpoch && c.expiresAt ≠ seedExpiresAt) =
      some newer) :
    t.readDb row = .ok newer ∧ seedExpiresAt ≠ unixEpoch ∧ newer.expiresAt ≠ seedExpiresAt := by
  obtain ⟨read, differs⟩ := Option.filter_eq_some_iff.1 found
  refine ⟨?_, by simpa using differs⟩
  cases same : t.readDb row with
  | error e => simp [same, Except.toOption] at read
  | ok c => simpa [same, Except.toOption] using read

theorem onRecord_failed {t after : TokenSource} {events : List CycleEvent} {attempt : Attempt} {seed : Credentials}
    {e : AuthError} {phase : Phase} (flying : phase = .posted attempt seed ∨ phase = .accepted attempt seed)
    (record : OnRecord t events phase) : OnRecord after (events ++ [.failed e]) (.failed attempt e) := by
  have shape : OnRecord t events (.posted attempt seed) := by
    rcases flying with rfl | rfl
    · exact record
    · cases attempt <;> exact record
  cases attempt with
  | first seedExpiresAt =>
    obtain ⟨dbCreds, rfl, top⟩ := shape
    exact ⟨dbCreds, seed, rfl, top⟩
  | second firstErr =>
    obtain ⟨dbCreds, first, rfl⟩ := shape
    simp [OnRecord, seeds, List.filterMap_cons, CycleEvent.seed]

theorem onRecord_silent {t after : TokenSource} (call : Nat) {w : World} {phase next : Phase}
    {events : List CycleEvent} (silent : phase.events parse t w = []) (record : OnRecord after events next) :
    OnRecord after (events ++ phase.events parse t w) next ∧
      [].filterMap (Observation.sentBy call) = seeds (phase.events parse t w) := by
  rw [silent, List.append_nil]
  exact ⟨record, rfl⟩

theorem advance_onRecord {t after : TokenSource} {call : Nat} {w : World} {phase next : Phase} {out : List Observation}
    {events : List CycleEvent} (record : OnRecord t events phase)
    (snapshot : ∀ forced dbCreds cached, phase = .bound forced dbCreds cached → cached = t.cached)
    (moves : advance parse t call w phase = some (after, next, out)) :
    OnRecord after (events ++ phase.events parse t w) next ∧
      out.filterMap (Observation.sentBy call) = seeds (phase.events parse t w) := by
  cases phase with
  | idle | waiting | returned | cancelled => cases moves
  | entered =>
    simp only [advance] at moves
    cases record
    split at moves <;> cases moves <;> exact ⟨rfl, rfl⟩
  | locked =>
    cases record
    cases moves
    exact ⟨rfl, rfl⟩
  | fastPath | recheck =>
    simp only [advance] at moves
    cases record
    split at moves <;> cases moves
    · exact ⟨Nat.zero_le _, rfl⟩
    · exact ⟨rfl, rfl⟩
  | reading forced =>
    simp only [advance] at moves
    cases record
    split at moves
    next dbCreds read =>
      cases moves
      simp [Phase.events, read, OnRecord, seeds, List.filterMap_cons, CycleEvent.seed]
    next e read =>
      cases moves
      simp [Phase.events, read, OnRecord, seeds, List.filterMap_cons, CycleEvent.seed]
  | rule1 forced dbCreds =>
    simp only [advance] at moves
    cases record
    split at moves <;> cases moves <;> exact ⟨by simp [Phase.events, OnRecord, seeds, List.filterMap_cons, CycleEvent.seed], rfl⟩
  | bound forced dbCreds cached =>
    obtain rfl := snapshot _ _ _ rfl
    simp only [advance] at moves
    cases record
    split at moves <;> cases moves
    · exact ⟨by simp [Phase.events, OnRecord, seeds, List.filterMap_cons, CycleEvent.seed], rfl⟩
    · exact ⟨⟨dbCreds, rfl, rfl, rfl⟩, rfl⟩
  | trying attempt seed =>
    simp only [advance] at moves
    split at moves
    next burned =>
      cases moves
      exact onRecord_silent parse call (if_pos burned) record.seeds_le
    next fresh =>
      cases moves
      have sends : Phase.events parse t w (.trying attempt seed) = [.sent seed] := if_neg fresh
      rw [sends]
      refine ⟨?_, by simp [Observation.sentBy, seeds, CycleEvent.seed]⟩
      cases attempt with
      | first seedExpiresAt =>
        obtain ⟨dbCreds, rfl, top, -⟩ := record
        exact ⟨dbCreds, rfl, top⟩
      | second firstErr =>
        obtain ⟨dbCreds, first, rfl, -⟩ := record
        exact ⟨dbCreds, first, rfl⟩
  | posted attempt seed =>
    simp only [advance] at moves
    split at moves
    next answered =>
      cases moves
      refine onRecord_silent parse call (by simp [Phase.events, answered]) ?_
      cases attempt <;> exact record
    next e answered =>
      cases moves
      have fails : Phase.events parse t w (.posted attempt seed) = [.failed e] := by simp [Phase.events, answered]
      rw [fails]
      exact ⟨onRecord_failed (Or.inl rfl) record, rfl⟩
  | accepted attempt seed =>
    simp only [advance] at moves
    split at moves
    next c answered =>
      cases moves
      exact onRecord_silent parse call (by simp [Phase.events, answered]) record.seeds_le
    next e answered =>
      cases moves
      have fails : Phase.events parse t w (.accepted attempt seed) = [.failed e] := by simp [Phase.events, answered]
      rw [fails]
      exact ⟨onRecord_failed (Or.inr rfl) record, rfl⟩
  | failed attempt e =>
    cases attempt with
    | second firstErr =>
      cases moves
      exact onRecord_silent parse call rfl record
    | first seedExpiresAt =>
      simp only [advance] at moves
      obtain ⟨dbCreds, seed, rfl, top⟩ := record
      split at moves
      next newer found =>
        cases moves
        obtain ⟨reread, parses, differs⟩ := reread_some found
        rw [Phase.events, reread]
        exact ⟨⟨dbCreds, seed, rfl, top ▸ parses, top ▸ differs⟩, rfl⟩
      next =>
        cases moves
        exact ⟨by simp [Phase.events, OnRecord, seeds, List.filterMap_cons, CycleEvent.seed], rfl⟩

theorem advance_sentBy {t after : TokenSource} {call other : Nat} {w : World} {phase next : Phase}
    {out : List Observation} (different : call ≠ other) (moves : advance parse t call w phase = some (after, next, out)) :
    out.filterMap (Observation.sentBy other) = [] := by
  cases phase with
  | idle | waiting | returned | cancelled => cases moves
  | failed attempt e =>
    cases attempt with
    | first top =>
      simp only [advance] at moves
      split at moves <;> cases moves <;> rfl
    | second firstErr => cases moves; rfl
  | entered | locked => cases moves; rfl
  | trying attempt seed =>
    simp only [advance] at moves
    split at moves <;> cases moves
    · rfl
    · simp [Observation.sentBy, different]
  | _ =>
    simp only [advance] at moves
    split at moves <;> cases moves <;> rfl

theorem advance_idle {t : TokenSource} {call : Nat} {w : World} {phase : Phase}
    (stays : advance parse t call w phase = none) : phase.events parse t w = [] := by
  cases phase with
  | idle | waiting | returned | cancelled => rfl
  | failed attempt e =>
    cases attempt with
    | first top =>
      simp only [advance] at stays
      split at stays <;> cases stays
    | second firstErr => cases stays
  | entered | locked => cases stays
  | _ =>
    simp only [advance] at stays
    split at stays <;> cases stays

theorem OnRecord.frame {t after : TokenSource} {events : List CycleEvent} {phase : Phase}
    (record : OnRecord t events phase) (kept : after.cached = t.cached ∨ phase.holdsGate = false) :
    OnRecord after events phase := by
  cases phase with
  | trying attempt seed =>
    cases attempt with
    | first seedExpiresAt =>
      obtain same | released := kept
      · obtain ⟨dbCreds, rfl, top, chained⟩ := record
        exact ⟨dbCreds, rfl, top, by rw [same]; exact chained⟩
      · cases released
    | second firstErr => exact record
  | posted attempt seed | accepted attempt seed | failed attempt e => cases attempt <;> exact record
  | _ => exact record

namespace State

theorem put_onRecord {s : State} {call : Nat} {source : TokenSource} {phase : Phase}
    {events : Nat → List CycleEvent} (later : Nat → List CycleEvent) (gated : s.Gated)
    (record : ∀ other, OnRecord s.source (events other) (s.calls other))
    (kept : source.cached = s.source.cached ∨ (s.calls call).holdsGate = true)
    (own : OnRecord source (later call) phase) (others : ∀ other, other ≠ call → later other = events other) :
    ∀ other, OnRecord (s.put call source phase).source (later other) ((s.put call source phase).calls other) := by
  intro other
  by_cases same : other = call
  · subst same
    simp only [put, Function.update_self]
    exact own
  · simp only [put, Function.update_of_ne same]
    rw [others other same]
    refine (record other).frame ?_
    obtain same' | holds := kept
    · exact .inl same'
    · -- Two calls would hold the gate.
      refine .inr (Bool.eq_false_iff.2 fun theirs => same ?_)
      exact Option.some.inj (((gated other).1 theirs).symm.trans ((gated call).1 holds))

theorem quiet_onRecord {s after : State} {call : Nat} {events : Nat → List CycleEvent} {action : Action}
    (quiet : ∀ call, s.events parse call action = [])
    (record : ∀ other, OnRecord after.source (events other) (after.calls other)) :
    OnRecord after.source (events call ++ s.events parse call action) (after.calls call) := by
  rw [quiet, List.append_nil]
  exact record call

theorem events_other {s : State} {call other : Nat} (different : other ≠ call) (w : World) :
    s.events parse call (.resume other w) = [] := if_neg different

theorem advanced_onRecord {s : State} {events : Nat → List CycleEvent} (faithful : s.Faithful)
    (record : ∀ call, OnRecord s.source (events call) (s.calls call)) {other : Nat} {w : World} {source : TokenSource}
    {phase : Phase} {out : List Observation}
    (moves : advance parse s.source other w (s.calls other) = some (source, phase, out)) (call : Nat) :
    OnRecord (s.put other source phase).source (events call ++ s.events parse call (.resume other w))
        ((s.put other source phase).calls call) ∧
      out.filterMap (Observation.sentBy call) = seeds (s.events parse call (.resume other w)) := by
  obtain ⟨own, sends⟩ := advance_onRecord parse (record other) (faithful.snapshots other) moves
  have kept : source.cached = s.source.cached ∨ (s.calls other).holdsGate = true := by
    obtain ⟨adopted, kept⟩ := advance_cached parse moves
    cases adopts : s.source.adopts parse w (s.calls other) with
    | none => exact .inl (kept adopts)
    | some c => exact .inr (adopted c adopts).1
  have mine : s.events parse other (.resume other w) = (s.calls other).events parse s.source w := if_pos rfl
  refine ⟨put_onRecord (fun call => events call ++ s.events parse call (.resume other w))
    faithful.gated record kept (by rw [mine]; exact own) ?_ call, ?_⟩
  · intro call different
    rw [events_other parse (Ne.symm different), List.append_nil]
  · by_cases same : other = call
    · subst same
      rw [mine]
      exact sends
    · rw [events_other parse same]
      exact advance_sentBy parse same moves

theorem step_onRecord {s : State} {events : Nat → List CycleEvent} (faithful : s.Faithful)
    (record : ∀ call, OnRecord s.source (events call) (s.calls call)) (action : Action) (call : Nat) :
    let next := s.step parse action
    OnRecord next.1.source (events call ++ s.events parse call action) (next.1.calls call) ∧
      next.2.filterMap (Observation.sentBy call) = seeds (s.events parse call action) := by
  cases action with
  | call other =>
    simp only [step]
    refine ⟨quiet_onRecord parse (fun _ => rfl) ?_, by split <;> rfl⟩
    split
    next idle =>
      have clear := record other
      rw [idle] at clear
      exact put_onRecord _ faithful.gated record (.inl rfl) clear fun _ _ => rfl
    next => exact record
  | cancel other =>
    simp only [step]
    refine ⟨quiet_onRecord parse (fun _ => rfl) ?_, by split <;> rfl⟩
    split
    next source dropping =>
      exact put_onRecord _ faithful.gated record (.inl (dropped_cached dropping)) (record other).seeds_le fun _ _ => rfl
    next => exact record
  | invalidate =>
    exact ⟨quiet_onRecord parse (fun _ => rfl) fun other => (record other).frame (.inl rfl), rfl⟩
  | resume other w =>
    simp only [step]
    split
    next waits =>
      have silent : ∀ call, s.events parse call (.resume other w) = [] := by
        intro call
        by_cases same : other = call
        · subst same
          simp [State.events, waits, Phase.events]
        · exact events_other parse same w
      rw [silent call]
      refine ⟨?_, by split <;> rfl⟩
      rw [List.append_nil]
      split
      next =>
        have clear : OnRecord s.source (events other) .locked := by
          have clear := record other
          rw [waits] at clear
          exact clear
        exact put_onRecord _ faithful.gated record (.inl rfl) clear (fun _ _ => rfl) call
      next => exact record call
    next =>
      cases moves : advance parse s.source other w (s.calls other) with
      | none =>
        have silent : s.events parse call (.resume other w) = [] := by
          by_cases same : other = call
          · subst same
            exact (if_pos rfl).trans (advance_idle parse moves)
          · exact events_other parse same w
        rw [silent, List.append_nil]
        exact ⟨record call, rfl⟩
      | some next =>
        obtain ⟨source, phase, out⟩ := next
        exact advanced_onRecord parse faithful record moves call

end State

theorem cycle_append (source : TokenSource) (earlier : List Action) (action : Action) (call : Nat) :
    cycle parse source (earlier ++ [action]) call =
      cycle parse source earlier call ++
        (runAll (State.step parse) (State.new source) earlier).1.events parse call action := by
  simp [cycle, visits_append, visits]

structure Recorded (source : TokenSource) (actions : List Action) : Prop where
  faithful : (runAll (State.step parse) (State.new source) actions).1.Faithful
  onRecord : ∀ call, OnRecord (runAll (State.step parse) (State.new source) actions).1.source
    (cycle parse source actions call) ((runAll (State.step parse) (State.new source) actions).1.calls call)
  sent : ∀ call, (runAll (State.step parse) (State.new source) actions).2.filterMap (Observation.sentBy call) =
    seeds (cycle parse source actions call)

theorem run_recorded (source : TokenSource) (actions : List Action) : Recorded parse source actions := by
  induction actions using List.reverseRecOn with
  | nil => exact ⟨State.new_faithful source, fun _ => rfl, fun _ => rfl⟩
  | append_singleton earlier action ih =>
    have next := State.step_onRecord parse ih.faithful ih.onRecord action
    constructor
    · rw [runAll_append]
      simp only [runAll_cons, runAll_nil]
      exact State.stepped_faithful parse ih.faithful (State.step_stepped parse _ action)
    · intro call
      rw [cycle_append, runAll_append]
      simp only [runAll_cons, runAll_nil]
      exact (next call).1
    · intro call
      rw [cycle_append, runAll_append]
      simp only [runAll_cons, runAll_nil, List.append_nil, List.filterMap_append, ih.sent call, (next call).2, seeds]

theorem mem_sentBy {call : Nat} {seed : Credentials} {out : List Observation} :
    seed ∈ out.filterMap (Observation.sentBy call) ↔ .sent call seed ∈ out := by
  rw [List.mem_filterMap]
  constructor
  · rintro ⟨observation, inside, found⟩
    cases observation with
    | sent other sent =>
      simp only [Observation.sentBy] at found
      split at found
      next same =>
        cases found
        exact same ▸ inside
      next => cases found
    | _ => cases found
  · exact fun inside => ⟨_, inside, if_pos rfl⟩

theorem sent_step {s : State} {events : Nat → List CycleEvent} (faithful : s.Faithful)
    (record : ∀ call, OnRecord s.source (events call) (s.calls call)) {action : Action} {call : Nat} {seed : Credentials}
    (sends : .sent call seed ∈ (s.step parse action).2) :
    ∃ w attempt, action = .resume call w ∧ s.calls call = .trying attempt seed ∧
      s.source.isBurned seed.expiresAt = false := by
  rw [← mem_sentBy, (State.step_onRecord parse faithful record action call).2] at sends
  cases action with
  | call | cancel | invalidate => cases sends
  | resume other w =>
    by_cases same : other = call
    · subst same
      have mine : s.events parse other (.resume other w) = (s.calls other).events parse s.source w := if_pos rfl
      rw [mine] at sends
      cases phase : s.calls other with
      | trying attempt tried =>
        rw [phase] at sends
        simp only [Phase.events] at sends
        split at sends
        next => cases sends
        next fresh =>
          obtain rfl : seed = tried := by simpa [seeds, CycleEvent.seed] using sends
          exact ⟨w, attempt, rfl, rfl, Bool.eq_false_iff.2 fresh⟩
      | posted attempt tried =>
        rw [phase] at sends
        simp only [Phase.events] at sends
        split at sends <;> cases sends
      | accepted attempt tried =>
        rw [phase] at sends
        simp only [Phase.events] at sends
        split at sends <;> cases sends
      | failed attempt e =>
        rw [phase] at sends
        cases attempt <;> cases sends
      | _ =>
        rw [phase] at sends
        cases sends
    · have silent : s.events parse call (.resume other w) = [] := if_neg same
      rw [silent] at sends
      cases sends

/-- What rule 3 asks of the second request of a cycle. -/
def SendsProperly (source : TokenSource) (earlier : List Action) (action : Action) (call : Nat) : Prop :=
  let run := runAll (State.step parse) (State.new source) earlier
  ∀ seed, .sent call seed ∈ (run.1.step parse action).2 →
    (∀ sent, .sent call sent ∉ run.2) ∨
      ∃ dbCreds first firstErr,
        cycle parse source earlier call =
          [.read (.ok dbCreds), .sent first, .failed firstErr, .reread (.ok seed)] ∧
        dbCreds.expiresAt ≠ unixEpoch ∧ seed.expiresAt ≠ unixEpoch ∧ seed.expiresAt ≠ dbCreds.expiresAt ∧
        run.1.source.isBurned seed.expiresAt = false

structure RetriesOnce (source : TokenSource) (actions : List Action) (call : Nat) : Prop where
  atMost : ((runAll (State.step parse) (State.new source) actions).2.filterMap (Observation.sentBy call)).length ≤ 2
  each : ∀ earlier action later, actions = earlier ++ action :: later → SendsProperly parse source earlier action call

/-- The re-read of a cycle whose first row had an expiry does not find the sentinel, or that is burned. -/
def State.SafeReread (s : State) : Action → Prop
  | .resume call w => ∀ seedExpiresAt firstErr c, s.calls call = .failed (.first seedExpiresAt) firstErr →
    seedExpiresAt ≠ unixEpoch → s.source.readDb w.row = .ok c → c.expiresAt = unixEpoch →
      s.source.burnedUnparsable = true
  | _ => True

def State.Wary (s : State) : Prop := ∀ call firstErr newer, s.calls call = .trying (.second firstErr) newer →
  newer.expiresAt = unixEpoch → s.source.burnedUnparsable = true

theorem burn_unparsable {t : TokenSource} (e : Time) (burned : t.burnedUnparsable = true) :
    (t.burn e).burnedUnparsable = true := by
  unfold TokenSource.burn
  split
  next => rfl
  next => exact burned

theorem advance_unparsable {t after : TokenSource} {call : Nat} {w : World} {phase next : Phase}
    {out : List Observation} (moves : advance parse t call w phase = some (after, next, out))
    (burned : t.burnedUnparsable = true) : after.burnedUnparsable = true := by
  cases phase with
  | accepted attempt seed =>
    simp only [advance] at moves
    split at moves <;> cases moves <;> exact burn_unparsable _ burned
  | failed attempt e =>
    cases attempt with
    | first top =>
      simp only [advance] at moves
      split at moves <;> cases moves <;> exact burned
    | second firstErr => cases moves; exact burned
  | idle | waiting | returned | cancelled => cases moves
  | entered | locked => cases moves; exact burned
  | _ =>
    simp only [advance] at moves
    split at moves <;> cases moves <;> exact burned

theorem advance_retries {t after : TokenSource} {call : Nat} {w : World} {phase next : Phase} {out : List Observation}
    {firstErr : AuthError} {newer : Credentials} (moves : advance parse t call w phase = some (after, next, out))
    (retries : next = .trying (.second firstErr) newer) :
    ∃ seedExpiresAt, phase = .failed (.first seedExpiresAt) firstErr ∧ seedExpiresAt ≠ unixEpoch ∧
      t.readDb w.row = .ok newer ∧ after = t := by
  subst retries
  cases phase with
  | failed attempt e =>
    cases attempt with
    | first top =>
      simp only [advance] at moves
      split at moves
      next newer found =>
        cases moves
        obtain ⟨reread, parses, -⟩ := reread_some found
        exact ⟨top, rfl, parses, reread, rfl⟩
      next => cases moves
    | second firstErr => cases moves
  | entered =>
    simp only [advance] at moves
    split at moves <;> cases moves
  | idle | waiting | returned | cancelled | locked => cases moves
  | _ =>
    simp only [advance] at moves
    split at moves <;> cases moves

theorem stepped_wary {s after : State} {action : Action} {out : List Observation} (wary : s.Wary)
    (safe : s.SafeReread action) (stepped : s.Stepped parse action after out) : after.Wary := by
  have puts {call : Nat} {source : TokenSource} {phase : Phase}
      (kept : s.source.burnedUnparsable = true → source.burnedUnparsable = true)
      (own : ∀ firstErr newer, phase = .trying (.second firstErr) newer → newer.expiresAt = unixEpoch →
        source.burnedUnparsable = true) : (s.put call source phase).Wary := by
    intro other firstErr newer trying sentinel
    by_cases same : other = call
    · subst same
      simp only [State.put, Function.update_self] at trying
      exact own firstErr newer trying sentinel
    · simp only [State.put, Function.update_of_ne same] at trying
      exact kept (wary other firstErr newer trying sentinel)
  cases stepped with
  | still => exact wary
  | forces => exact wary
  | starts | locks => exact puts id fun _ _ other => by cases other
  | advances moves =>
    refine puts (advance_unparsable parse moves) ?_
    intro firstErr newer retries sentinel
    obtain ⟨seedExpiresAt, failed, parses, read, rfl⟩ := advance_retries parse moves retries
    exact safe seedExpiresAt firstErr newer failed parses read sentinel
  | @drops call source dropping =>
    refine puts (fun burned => ?_) fun _ _ other => by cases other
    cases phase : s.calls call with
    | accepted attempt seed =>
      rw [phase] at dropping
      cases dropping
      exact burn_unparsable _ burned
    | _ =>
      rw [phase] at dropping
      cases dropping <;> exact burned

theorem run_wary (source : TokenSource) (actions : List Action)
    (safe : ∀ visit ∈ visits (State.step parse) (State.new source) actions, visit.1.SafeReread visit.2) :
    (runAll (State.step parse) (State.new source) actions).1.Wary := by
  induction actions using List.reverseRecOn with
  | nil => exact fun _ _ _ => nofun
  | append_singleton earlier action ih =>
    rw [visits_append] at safe
    obtain ⟨before, here⟩ := List.forall_mem_append.1 safe
    rw [runAll_append]
    simp only [runAll_cons, runAll_nil]
    exact stepped_wary parse (ih before) (here (_, action) (List.mem_singleton_self _)) (State.step_stepped parse _ action)

theorem sends_properly {source : TokenSource} {earlier : List Action}
    (wary : (runAll (State.step parse) (State.new source) earlier).1.Wary) (action : Action) (call : Nat) :
    SendsProperly parse source earlier action call := by
  intro seed sends
  have recorded := run_recorded parse source earlier
  obtain ⟨w, attempt, -, trying, fresh⟩ := sent_step parse recorded.faithful recorded.onRecord sends
  have record := recorded.onRecord call
  rw [trying] at record
  cases attempt with
  | first seedExpiresAt =>
    obtain ⟨dbCreds, events, -⟩ := record
    refine .inl fun sent among => ?_
    have none := recorded.sent call
    rw [events] at none
    have inside := mem_sentBy.2 among
    rw [none] at inside
    cases inside
  | second firstErr =>
    obtain ⟨dbCreds, first, events, parses, differs⟩ := record
    refine .inr ⟨dbCreds, first, firstErr, events, parses, fun sentinel => ?_, differs, fresh⟩
    have burned := wary call firstErr seed trying sentinel
    rw [TokenSource.isBurned, if_pos sentinel, burned] at fresh
    cases fresh

structure State.Slips (s : State) (call : Nat) : Prop where
  trying : ∃ firstErr newer, s.calls call = .trying (.second firstErr) newer ∧ newer.expiresAt = unixEpoch
  unburned : s.source.burnedUnparsable = false

theorem slip_sends {source : TokenSource} {earlier : List Action} {call : Nat}
    (slips : (runAll (State.step parse) (State.new source) earlier).1.Slips call) (w : World) :
    ¬ SendsProperly parse source earlier (.resume call w) call := by
  intro proper
  obtain ⟨⟨firstErr, newer, trying, sentinel⟩, unburned⟩ := slips
  have recorded := run_recorded parse source earlier
  have record := recorded.onRecord call
  have sent := recorded.sent call
  unfold SendsProperly at proper
  generalize runAll (State.step parse) (State.new source) earlier = run at *
  have fresh : run.1.source.isBurned newer.expiresAt = false := by
    rw [TokenSource.isBurned, if_pos sentinel, unburned]
  have sends : .sent call newer ∈ (run.1.step parse (.resume call w)).2 := by
    simp [State.step, trying, advance, fresh]
  rw [trying] at record
  obtain ⟨dbCreds, first, events, -⟩ := record
  obtain never | ⟨_, _, _, -, -, parses, -⟩ := proper newer sends
  · refine never first (mem_sentBy.1 ?_)
    rw [sent, events]
    exact List.mem_singleton_self _
  · exact parses sentinel

theorem reread_slips {s : State} {call : Nat} {w : World} {seedExpiresAt : Time} {firstErr : AuthError}
    {c : Credentials} (failed : s.calls call = .failed (.first seedExpiresAt) firstErr)
    (parses : seedExpiresAt ≠ unixEpoch) (read : s.source.readDb w.row = .ok c) (sentinel : c.expiresAt = unixEpoch)
    (unburned : s.source.burnedUnparsable = false) : (s.step parse (.resume call w)).1.Slips call := by
  have differs : c.expiresAt ≠ seedExpiresAt := by rw [sentinel]; exact Ne.symm parses
  have found : ((s.source.readDb w.row).toOption.filter fun c =>
      seedExpiresAt ≠ unixEpoch && c.expiresAt ≠ seedExpiresAt) = some c := by
    rw [read]
    exact Option.filter_eq_some_iff.2 ⟨rfl, by simp [parses, differs]⟩
  have moves : advance parse s.source call w (.failed (.first seedExpiresAt) firstErr) =
      some (s.source, .trying (.second firstErr) c, []) := by
    simp only [advance]
    rw [found]
  have stepped : s.step parse (.resume call w) = (s.put call s.source (.trying (.second firstErr) c), []) := by
    simp only [State.step, failed, moves]
  rw [stepped]
  exact ⟨⟨firstErr, c, by simp [State.put], sentinel⟩, unburned⟩

theorem stepped_slips {s after : State} {action : Action} {out : List Observation} {call : Nat} (gated : s.Gated)
    (slips : s.Slips call) (other : ∀ w, action ≠ .resume call w) (stepped : s.Stepped parse action after out) :
    after.Slips call := by
  obtain ⟨⟨firstErr, newer, trying, sentinel⟩, unburned⟩ := slips
  have own : s.gate = some call := (gated call).1 (by rw [trying]; rfl)
  have outside {second : Nat} (different : second ≠ call) : (s.calls second).holdsGate = false := by
    rw [Bool.eq_false_iff, Ne, gated second, own]
    exact fun same => different (Option.some.inj same).symm
  have puts {second : Nat} {phase : Phase} (different : second ≠ call) : (s.put second s.source phase).Slips call := by
    refine ⟨⟨firstErr, newer, ?_, sentinel⟩, unburned⟩
    simp only [State.put, Function.update_of_ne (Ne.symm different)]
    exact trying
  cases stepped with
  | still | forces => exact ⟨⟨firstErr, newer, trying, sentinel⟩, unburned⟩
  | starts idle => exact puts fun same => by rw [same, trying] at idle; cases idle
  | locks w waits free => exact puts fun same => by rw [same, trying] at waits; cases waits
  | @advances second w source phase out moves =>
    have different : second ≠ call := fun same => other w (by rw [same])
    obtain ⟨rfl, -, -⟩ := advance_outside parse (outside different) moves
    exact puts different
  | @drops second source dropping =>
    have different : second ≠ call := fun same => by rw [same, trying] at dropping; cases dropping
    obtain rfl := dropped_outside (outside different) dropping
    exact puts different

theorem slip_found {source : TokenSource} {earlier : List Action} {call : Nat} (w : World) (later : List Action)
    (slips : (runAll (State.step parse) (State.new source) earlier).1.Slips call) :
    ∃ front action back, later ++ [.resume call w] = front ++ action :: back ∧
      ¬ SendsProperly parse source (earlier ++ front) action call := by
  induction later generalizing earlier with
  | nil => exact ⟨[], .resume call w, [], rfl, by rw [List.append_nil]; exact slip_sends parse slips w⟩
  | cons action rest ih =>
    by_cases mine : ∃ w', action = .resume call w'
    · obtain ⟨w', rfl⟩ := mine
      exact ⟨[], .resume call w', rest ++ [.resume call w], rfl, by rw [List.append_nil]; exact slip_sends parse slips w'⟩
    · have next : (runAll (State.step parse) (State.new source) (earlier ++ [action])).1.Slips call := by
        rw [runAll_append]
        simp only [runAll_cons, runAll_nil]
        exact stepped_slips parse (run_recorded parse source earlier).faithful.gated slips
          (fun w' same => mine ⟨w', same⟩) (State.step_stepped parse _ action)
      obtain ⟨front, sending, back, split, slipped⟩ := ih next
      refine ⟨action :: front, sending, back, by rw [List.cons_append, split, List.cons_append], ?_⟩
      rwa [List.append_assoc] at slipped

/-- Rule 3 holds in a run and in whatever step comes next exactly if no re-read slipped. -/
theorem retries_once_iff (source : TokenSource) (actions : List Action) :
    (∀ call w, RetriesOnce parse source (actions ++ [.resume call w]) call) ↔
      ∀ visit ∈ visits (State.step parse) (State.new source) actions, visit.1.SafeReread visit.2 := by
  constructor
  · intro retries visit visited
    obtain ⟨before, after, rfl, reached⟩ := mem_visits visited
    obtain ⟨state, action⟩ := visit
    subst reached
    cases action with
    | call | cancel | invalidate => trivial
    | resume call w =>
      intro seedExpiresAt firstErr c failed parses read sentinel
      by_contra unburned
      have slips : (runAll (State.step parse) (State.new source) (before ++ [.resume call w])).1.Slips call := by
        rw [runAll_append]
        simp only [runAll_cons, runAll_nil]
        exact reread_slips parse failed parses read sentinel (Bool.eq_false_iff.2 unburned)
      obtain ⟨front, action, back, split, slipped⟩ := slip_found parse w after slips
      refine slipped ((retries call w).each (before ++ [.resume call w] ++ front) action back ?_)
      simp only [List.append_assoc, List.cons_append, List.nil_append, split]
  · intro safe call w
    refine ⟨?_, ?_⟩
    · rw [(run_recorded parse source _).sent call]
      exact ((run_recorded parse source _).onRecord call).seeds_le
    · intro earlier action later split
      obtain ⟨rest, rfl⟩ : earlier <+: actions := by
        obtain rfl | ⟨front, last, rfl⟩ := List.eq_nil_or_concat later
        · exact ⟨[], by simpa using (List.append_inj' split rfl).1.symm⟩
        · refine ⟨action :: front, ?_⟩
          have parts : actions ++ [.resume call w] = (earlier ++ action :: front) ++ [last] := by simpa using split
          exact (List.append_inj' parts rfl).1.symm
      rw [visits_append] at safe
      exact sends_properly parse (run_wary parse source earlier (List.forall_mem_append.1 safe).1) action call

def expiredRow : Credentials := ⟨"stored".toList, "refresh".toList, [], [], 5, [], [], []⟩

def unparsableRow : Credentials := ⟨"later".toList, "other".toList, [], [], unixEpoch, [], [], []⟩

theorem sentinel_retried :
    let earlier := Action.call 0 :: List.replicate 10 (.resume 0 ⟨9, .ok expiredRow, .status 500, .timedOut⟩) ++
      [.resume 0 ⟨9, .ok unparsableRow, .timedOut, .timedOut⟩]
    let action := Action.resume 0 ⟨9, .ok unparsableRow, .timedOut, .timedOut⟩
    let source := TokenSource.new none
    (runAll (State.step fun _ => none) (State.new source) (earlier ++ [action])).2 =
        [.sent 0 expiredRow, .sent 0 unparsableRow] ∧
      ¬ RetriesOnce (fun _ => none) source (earlier ++ [action]) 0 := by
  refine ⟨by decide +kernel, fun retries => ?_⟩
  obtain never | ⟨_, _, _, -, -, parses, -⟩ := retries.each _ _ [] rfl unparsableRow (by decide +kernel)
  · exact never expiredRow (by decide +kernel)
  · exact parses rfl

end KiroTrust.Auth
