import KiroTrust.Auth.Source
import KiroTrust.Shared.Ledger

set_option autoImplicit false

namespace KiroTrust.Auth

open Emitter Ledger

/-! Exactly the spent seeds are burned: `TokenSource` keeps a ledger of them. -/

theorem isBurned_burn (t : TokenSource) (spent e : Time) :
    (t.burn spent).isBurned e = (decide (e = spent) || t.isBurned e) := by
  unfold TokenSource.burn
  split
  next same =>
    subst same
    by_cases parses : e = unixEpoch <;> simp [TokenSource.isBurned, parses]
  next parses =>
    by_cases here : e = unixEpoch
    · simp [TokenSource.isBurned, here, Ne.symm parses]
    · simp [TokenSource.isBurned, here, BurnedSeeds.insert]

/-- What a call owes to the burned seeds: its request got a 200, and its guard has not dropped. -/
def Phase.owes : Phase → Option Time
  | .accepted _ seed => some seed.expiresAt
  | _ => none

def Phase.inFlight : Phase → Bool
  | .posted _ _ | .accepted _ _ => true
  | _ => false

theorem owes_of_idleGate {phase : Phase} (released : phase.holdsGate = false) : phase.owes = none := by
  cases phase <;> simp_all [Phase.holdsGate, Phase.owes]

theorem owes_of_quiet {phase : Phase} (quiet : phase.inFlight = false) : phase.owes = none := by
  cases phase <;> simp_all [Phase.inFlight, Phase.owes]

def Observation.entry : Observation → Entry Time
  | .sent _ seed => .sent seed.expiresAt
  | .accepted _ seed => .accepted seed.expiresAt
  | .refused _ seed => .refused seed.expiresAt

def TokenSource.book (t : TokenSource) (owed : Option Time) : Book Time := ⟨{e | t.isBurned e = true}, owed⟩

variable (parse : List UInt8 → Option TokenResponse)

theorem advance_outside {t after : TokenSource} {call : Nat} {w : World} {phase next : Phase}
    {out : List Observation} (outside : phase.holdsGate = false)
    (moves : advance parse t call w phase = some (after, next, out)) :
    after = t ∧ out = [] ∧ next.holdsGate = false := by
  cases phase with
  | entered =>
    simp only [advance] at moves
    cases moves
    refine ⟨rfl, rfl, ?_⟩
    split <;> rfl
  | fastPath =>
    simp only [advance] at moves
    split at moves <;> cases moves <;> exact ⟨rfl, rfl, rfl⟩
  | idle | waiting | returned result | cancelled => cases moves
  | _ => cases outside

theorem book_burn (t : TokenSource) (spent : Time) :
    (t.burn spent).book none = ⟨insert spent (t.book none).spent, none⟩ := by
  have same : {e | (t.burn spent).isBurned e = true} = insert spent {e | t.isBurned e = true} := by
    ext e
    simp [isBurned_burn]
  simp [TokenSource.book, same]

theorem settle_burn (t : TokenSource) (spent : Time) : Move (t.book (some spent)) [] ((t.burn spent).book none) := by
  rw [book_burn]
  exact .settle _ spent rfl

theorem advance_moves {t after : TokenSource} {call : Nat} {w : World} {phase next : Phase}
    {out : List Observation} (moves : advance parse t call w phase = some (after, next, out)) :
    Move (t.book phase.owes) (out.map Observation.entry) (after.book next.owes) := by
  cases phase with
  | entered =>
    simp only [advance] at moves
    cases moves
    split <;> exact .quiet _
  | fastPath | recheck forced | reading forced | rule1 forced dbCreds | bound forced dbCreds cached =>
    simp only [advance] at moves
    split at moves <;> cases moves <;> exact .quiet _
  | locked =>
    simp only [advance] at moves
    cases moves
    exact .quiet _
  | trying attempt seed =>
    simp only [advance] at moves
    split at moves
    next burned =>
      cases moves
      exact .refuse _ seed.expiresAt burned
    next fresh =>
      cases moves
      exact .send _ seed.expiresAt fresh rfl
  | posted attempt seed =>
    simp only [advance] at moves
    split at moves <;> cases moves
    · exact .accept _ seed.expiresAt rfl
    · exact .quiet _
  | accepted attempt seed =>
    -- The guard drops with the body, whatever the body is.
    simp only [advance] at moves
    split at moves <;> cases moves <;> exact settle_burn t seed.expiresAt
  | failed attempt error =>
    cases attempt with
    | first seedExpiresAt =>
      simp only [advance] at moves
      split at moves <;> cases moves <;> exact .quiet _
    | second firstErr =>
      simp only [advance] at moves
      cases moves
      exact .quiet _
  | idle | waiting | returned result | cancelled => cases moves

theorem dropped_outside {t after : TokenSource} {phase : Phase} (outside : phase.holdsGate = false)
    (drops : dropped t phase = some after) : after = t := by
  cases phase <;> simp_all [Phase.holdsGate, dropped]

theorem dropped_moves {t after : TokenSource} {phase : Phase} (drops : dropped t phase = some after) :
    Move (t.book phase.owes) [] (after.book none) := by
  cases phase with
  | accepted attempt seed =>
    cases drops
    exact settle_burn t seed.expiresAt
  | entered | waiting | posted attempt seed =>
    cases drops
    exact .quiet _
  | _ => cases drops

namespace State

def Gated (s : State) : Prop := ∀ call, (s.calls call).holdsGate = true ↔ s.gate = some call

def owed (s : State) : Option Time := s.gate.bind fun call => (s.calls call).owes

def book (s : State) : Book Time := s.source.book s.owed

theorem put_gated {s : State} {call : Nat} {phase : Phase} (source : TokenSource) (gated : s.Gated)
    (takes : phase.holdsGate = true → s.gate = none ∨ s.gate = some call) :
    (s.put call source phase).Gated := by
  intro other
  have before := gated other
  by_cases same : other = call
  · subst same
    simp only [put, Function.update_self]
    split <;> simp_all
  · simp only [put, Function.update_of_ne same, before]
    cases holds : phase.holdsGate with
    | true =>
      obtain free | own := takes holds
      · simp [free, Ne.symm same]
      · simp [own, Ne.symm same]
    | false =>
      by_cases own : s.gate = some call
      · simp [own, Ne.symm same]
      · simp [own]

theorem put_outside {s : State} {call : Nat} (phase : Phase) (gated : s.Gated)
    (outside : (s.calls call).holdsGate = false) (clear : phase.owes = none)
    (takes : phase.holdsGate = true → s.gate = none) :
    (s.put call s.source phase).book = s.book ∧ (s.put call s.source phase).Gated := by
  have other : s.gate ≠ some call := by
    rw [Ne, ← gated call, outside]
    simp
  refine ⟨?_, put_gated s.source gated fun holds => .inl (takes holds)⟩
  -- The call that holds the gate, if there is one, is another call.
  have same : (s.put call s.source phase).owed = s.owed := by
    cases holds : phase.holdsGate with
    | true => simp [owed, put, holds, takes holds, clear]
    | false =>
      cases gate : s.gate with
      | none => simp [owed, put, holds, gate]
      | some holder =>
        have apart : holder ≠ call := fun here => other (by rw [gate, here])
        simp [owed, put, holds, gate, apart]
  simp only [book, same]
  rfl

theorem put_inside {s : State} {call : Nat} (source : TokenSource) (phase : Phase) (gated : s.Gated)
    (inside : (s.calls call).holdsGate = true) :
    s.book = s.source.book (s.calls call).owes ∧
      (s.put call source phase).book = source.book phase.owes ∧ (s.put call source phase).Gated := by
  have own := (gated call).1 inside
  refine ⟨by simp [book, owed, own], ?_, put_gated source gated fun _ => .inr own⟩
  have same : (s.put call source phase).owed = phase.owes := by
    cases holds : phase.holdsGate with
    | true => simp [owed, put, holds]
    | false => simp [owed, put, holds, own, owes_of_idleGate holds]
  simp only [book, same]
  rfl

theorem stepped_moves {s after : State} {action : Action} {out : List Observation} (gated : s.Gated)
    (stepped : s.Stepped parse action after out) :
    Move s.book (out.map Observation.entry) after.book ∧ after.Gated := by
  cases stepped with
  | still | forces => exact ⟨.quiet _, gated⟩
  | starts idle =>
    obtain ⟨same, after⟩ := put_outside .entered gated (by rw [idle]; rfl) rfl nofun
    rw [same]
    exact ⟨.quiet _, after⟩
  | locks w waits free =>
    obtain ⟨same, after⟩ := put_outside .locked gated (by rw [waits]; rfl) rfl fun _ => free
    rw [same]
    exact ⟨.quiet _, after⟩
  | @advances call w source phase out moves =>
    cases holds : (s.calls call).holdsGate with
    | true =>
      obtain ⟨before, after, still⟩ := put_inside source phase gated holds
      rw [before, after]
      exact ⟨advance_moves parse moves, still⟩
    | false =>
      obtain ⟨rfl, rfl, outside⟩ := advance_outside parse holds moves
      obtain ⟨same, after⟩ := put_outside phase gated holds (owes_of_idleGate outside) (by simp [outside])
      rw [same]
      exact ⟨.quiet _, after⟩
  | @drops call source dropping =>
    cases holds : (s.calls call).holdsGate with
    | true =>
      obtain ⟨before, after, still⟩ := put_inside source .cancelled gated holds
      rw [before, after]
      exact ⟨dropped_moves dropping, still⟩
    | false =>
      obtain rfl := dropped_outside holds dropping
      obtain ⟨same, after⟩ := put_outside .cancelled gated holds rfl nofun
      rw [same]
      exact ⟨.quiet _, after⟩

structure Kept (s : State) (history : List Observation) : Prop where
  gated : s.Gated
  balanced : Balanced s.book (history.map Observation.entry)
  honest : Honest (history.map Observation.entry)

theorem step_kept (action : Action) : Preserves Kept fun s => step parse s action := by
  intro s history kept
  obtain ⟨moves, gated⟩ := stepped_moves parse kept.gated (step_stepped parse s action)
  refine ⟨gated, ?_, ?_⟩
  · rw [List.map_append]
    exact moves.balanced kept.balanced
  · rw [List.map_append]
    exact moves.honest kept.balanced kept.honest

theorem new_kept {source : TokenSource} (unspent : source.burned.times = ∅)
    (clear : source.burnedUnparsable = false) : (new source).Kept [] where
  gated := by
    intro call
    simp [new, Phase.holdsGate]
  balanced := by
    intro key
    simp [new, book, owed, TokenSource.book, TokenSource.isBurned, unspent, clear]
  honest := always_nil _

end State

theorem accepted_entry {history : List Observation} {e : Time} :
    .accepted e ∈ history.map Observation.entry ↔
      ∃ call seed, Observation.accepted call seed ∈ history ∧ seed.expiresAt = e := by
  constructor
  · intro entered
    obtain ⟨observed, among, same⟩ := List.mem_map.1 entered
    cases observed with
    | accepted call seed => exact ⟨call, seed, among, by simpa [Observation.entry] using same⟩
    | sent call seed | refused call seed => cases same
  · rintro ⟨call, seed, among, rfl⟩
    exact List.mem_map_of_mem among

theorem owed_none {s : State} (quiet : ∀ call, (s.calls call).inFlight = false) : s.owed = none := by
  cases gate : s.gate with
  | none => simp [State.owed, gate]
  | some call => simp [State.owed, gate, owes_of_quiet (quiet call)]

/-- In every run: a seed that got a 200 is never sent again, only such a seed is refused, and between
refreshes exactly the seeds that got a 200 are burned. -/
theorem burned_seeds_never_resent (runtimeOverride : Option Str) (buffer : Int) (actions : List Action) :
    let source := (TokenSource.new runtimeOverride).withValidityBuffer buffer
    let run := runAll (State.step parse) (State.new source) actions
    (∀ earlier call seed later, run.2 = earlier ++ .accepted call seed :: later →
        ∀ other again, .sent other again ∈ later → again.expiresAt ≠ seed.expiresAt) ∧
      (∀ earlier call seed later, run.2 = earlier ++ .refused call seed :: later →
        ∃ other spent, .accepted other spent ∈ earlier ∧ spent.expiresAt = seed.expiresAt) ∧
      ((∀ call, (run.1.calls call).inFlight = false) →
        (∀ e, e ∈ run.1.source.burned.times ↔
          e ≠ unixEpoch ∧ ∃ call seed, .accepted call seed ∈ run.2 ∧ seed.expiresAt = e) ∧
        (run.1.source.burnedUnparsable = true ↔
          ∃ call seed, .accepted call seed ∈ run.2 ∧ seed.expiresAt = unixEpoch)) := by
  intro source run
  have kept : run.1.Kept run.2 :=
    Preserves.runAll (State.step_kept parse) actions (State.new source) [] (State.new_kept rfl rfl)
  refine ⟨?_, ?_, ?_⟩
  · intro earlier call seed later split other again resent same
    -- In the ledger the later request would be sent on a spent key.
    have accepted : run.2.map Observation.entry =
        earlier.map Observation.entry ++ .accepted seed.expiresAt :: later.map Observation.entry := by
      simp [split, Observation.entry]
    have sent : Entry.sent seed.expiresAt ∈ later.map Observation.entry := by
      rw [← same]
      exact List.mem_map_of_mem resent
    exact kept.honest.never_resent accepted sent
  · intro earlier call seed later split
    have justified := kept.honest (earlier.map Observation.entry) (.refused seed.expiresAt)
      (later.map Observation.entry) (by simp [split, Observation.entry])
    exact accepted_entry.1 justified
  · intro quiet
    -- With nothing owed, the burned seeds are the accepted ones.
    have spent (e : Time) : run.1.source.isBurned e = true ↔
        ∃ call seed, .accepted call seed ∈ run.2 ∧ seed.expiresAt = e := by
      have balanced := kept.balanced e
      rw [accepted_entry] at balanced
      simpa [State.book, TokenSource.book, owed_none quiet] using balanced.symm
    constructor
    · intro e
      rw [← spent e]
      by_cases parses : e = unixEpoch
      · simp [parses, run.1.source.burned.parsable]
      · simp [TokenSource.isBurned, parses]
    · rw [← spent unixEpoch]
      simp [TokenSource.isBurned]

-- A call that is cancelled after its 200, and the next call on the same row.
example :
    let c : Credentials := ⟨[], [], [], [], 5, [], [], []⟩
    let w : World := ⟨9, .ok c, .status 200, .timedOut⟩
    let actions := .call 0 :: List.replicate 10 (.resume 0 w) ++ [.cancel 0, .call 1] ++
      List.replicate 9 (.resume 1 w)
    (runAll (State.step fun _ => none) (State.new (TokenSource.new none)) actions).2 =
      [.sent 0 c, .accepted 0 c, .refused 1 c] := by
  decide

end KiroTrust.Auth
