import KiroTrust.Auth.Cycle

set_option autoImplicit false

namespace KiroTrust.Auth

open Emitter

/-! What `current` may return, and what it may change. -/

variable (parse : List UInt8 → Option TokenResponse)

inductive Justified (t after : TokenSource) (w : World) (events : List CycleEvent) (c : Credentials) : Prop where
  | cached (held : t.holds c) (valid : t.valid w.now c = true) (kept : after.cached = t.cached)
  | row (read : .read (.ok c) ∈ events) (valid : t.valid w.now c = true)
    (newer : ∀ held, t.cached = some held → held.creds.expiresAt < c.expiresAt) (stored : after.holds c)
  | minted (seed : Credentials) (sent : .sent seed ∈ events) (answered : awaitBody parse w.now seed w.body = .ok c)
    (stored : after.holds c)

/-- The later-expiring of what is cached and a row; what is cached on a tie. -/
structure LaterSeed (cached : Option Cached) (row seed : Credentials) : Prop where
  ofCache : ∀ held, cached = some held → row.expiresAt ≤ held.creds.expiresAt → seed = held.creds
  ofRow : (∀ held, cached = some held → held.creds.expiresAt < row.expiresAt) → seed = row

def Action.caller : Action → Option Nat
  | .call n | .resume n _ | .cancel n => some n
  | .invalidate => none

theorem valid_of_cachedValid {t : TokenSource} {now : Time} {c : Credentials} (found : t.cachedValid now = some c) :
    t.valid now c = true := by
  obtain ⟨cached, filtered, rfl⟩ := Option.map_eq_some_iff.1 found
  exact (Option.filter_eq_some_iff.1 filtered).2

theorem chainSeed_later (cached : Option Cached) (row : Credentials) :
    LaterSeed cached row (TokenSource.chainSeed (cached.map Cached.creds) row) := by
  constructor
  · rintro held rfl later
    exact if_pos later
  · intro older
    cases cached with
    | none => rfl
    | some held => exact if_neg (not_le.2 (older held rfl))

theorem sent_of_record {t : TokenSource} {events : List CycleEvent} {attempt : Attempt} {seed : Credentials}
    (record : OnRecord t events (.accepted attempt seed)) : .sent seed ∈ events := by
  cases attempt with
  | first seedExpiresAt =>
    obtain ⟨dbCreds, rfl, -⟩ := record
    simp
  | second firstErr =>
    obtain ⟨dbCreds, first, rfl⟩ := record
    simp

theorem advance_justified {t after : TokenSource} {call : Nat} {w : World} {phase next : Phase} {c : Credentials}
    {out : List Observation} {events : List CycleEvent} (record : OnRecord t events phase)
    (snapshot : ∀ forced dbCreds cached, phase = .bound forced dbCreds cached → cached = t.cached)
    (moves : advance parse t call w phase = some (after, next, out)) (returns : next = .returned (.ok c)) :
    Justified parse t after w events c := by
  have held := advance_returns parse snapshot moves returns
  subst returns
  cases phase with
  | fastPath =>
    simp only [advance] at moves
    split at moves <;> cases moves
    next found => exact .cached held (valid_of_cachedValid found) rfl
  | recheck forced =>
    simp only [advance] at moves
    split at moves <;> cases moves
    next found =>
      cases forced with
      | true => cases found
      | false => exact .cached held (valid_of_cachedValid found) rfl
  | bound forced dbCreds cached =>
    simp only [advance] at moves
    split at moves <;> cases moves
    next again found =>
      have fits := (Option.filter_eq_some_iff.1 found).2
      simp only [Bool.and_eq_true] at fits
      exact .cached held fits.2 rfl
  | rule1 forced dbCreds =>
    simp only [advance] at moves
    split at moves <;> cases moves
    next adopts =>
      cases record
      obtain ⟨valid, newer⟩ := Bool.and_eq_true_iff.1 adopts
      refine .row (List.mem_singleton_self _) valid (fun before cached => ?_) held
      simpa [TokenSource.dbIsNewer, cached] using newer
  | accepted attempt seed =>
    simp only [advance] at moves
    split at moves <;> cases moves
    next answered => exact .minted seed (sent_of_record record) answered held
  | entered =>
    simp only [advance] at moves
    split at moves <;> cases moves
  | failed attempt error =>
    cases attempt with
    | first seedExpiresAt =>
      simp only [advance] at moves
      split at moves <;> cases moves
    | second firstErr => cases moves
  | reading | trying | posted =>
    simp only [advance] at moves
    split at moves <;> cases moves
  | idle | waiting | locked | returned | cancelled => cases moves

namespace State

theorem stepped_justified {s after : State} {action : Action} {out : List Observation} {call : Nat} {c : Credentials}
    {events : List CycleEvent} (faithful : s.Faithful) (record : OnRecord s.source events (s.calls call))
    (stepped : s.Stepped parse action after out) (returned : after.calls call = .returned (.ok c))
    (fresh : s.calls call ≠ .returned (.ok c)) :
    ∃ w, action = .resume call w ∧ Justified parse s.source after.source w events c := by
  have puts {other : Nat} {source : TokenSource} {phase : Phase}
      (returned : (s.put other source phase).calls call = .returned (.ok c)) : call = other ∧ phase = .returned (.ok c) := by
    by_cases same : call = other
    · subst same
      simp only [put, Function.update_self] at returned
      exact ⟨rfl, returned⟩
    · simp only [put, Function.update_of_ne same] at returned
      exact absurd returned fresh
  cases stepped with
  | still | forces => exact absurd returned fresh
  | starts | locks | drops => cases (puts returned).2
  | @advances other w source phase out moves =>
    obtain ⟨rfl, ends⟩ := puts returned
    exact ⟨w, rfl, advance_justified parse record (faithful.snapshots call) moves ends⟩

theorem stepped_returned {s after : State} {action : Action} {out : List Observation} {call : Nat}
    {result : Except AuthError Credentials} (returned : s.calls call = .returned result)
    (stepped : s.Stepped parse action after out) : after.calls call = .returned result := by
  have puts {other : Nat} {source : TokenSource} {phase : Phase} (different : call ≠ other) :
      (s.put other source phase).calls call = .returned result := by
    simp only [put, Function.update_of_ne different]
    exact returned
  cases stepped with
  | still | forces => exact returned
  | starts idle => exact puts fun same => by rw [← same, returned] at idle; cases idle
  | locks w waits free => exact puts fun same => by rw [← same, returned] at waits; cases waits
  | advances moves => exact puts fun same => by rw [← same, returned] at moves; cases moves
  | drops dropping => exact puts fun same => by rw [← same, returned] at dropping; cases dropping

theorem run_returned_stays {s : State} {call : Nat} {result : Except AuthError Credentials}
    (returned : s.calls call = .returned result) (actions : List Action) :
    (runAll (step parse) s actions).1.calls call = .returned result := by
  induction actions generalizing s with
  | nil => exact returned
  | cons action rest ih =>
    rw [runAll_cons]
    exact ih (stepped_returned parse returned (step_stepped parse s action))

theorem stepped_keeps {s after : State} {action : Action} {out : List Observation} {call : Nat}
    (mine : action.caller = some call) (stepped : s.Stepped parse action after out) :
    after.source.cached = s.source.cached ∨ ∃ c, after.calls call = .returned (.ok c) := by
  cases stepped with
  | still | forces | starts | locks => exact .inl rfl
  | drops dropping => exact .inl (dropped_cached dropping)
  | @advances other w source phase out moves =>
    obtain rfl : other = call := Option.some.inj mine
    obtain ⟨adopted, kept⟩ := advance_cached parse moves
    cases adopts : s.source.adopts parse w (s.calls other) with
    | none => exact .inl (kept adopts)
    | some c => exact .inr ⟨c, by simp [put, (adopted c adopts).2.1]⟩

end State

theorem current_contract (source : TokenSource) (actions : List Action) (call : Nat) :
    (∀ earlier action later, actions = earlier ++ action :: later →
      let run := runAll (State.step parse) (State.new source) earlier
      let next := run.1.step parse action
      let events := cycle parse source earlier call
      (∀ c, next.1.calls call = .returned (.ok c) → run.1.calls call ≠ .returned (.ok c) →
        ∃ w, action = .resume call w ∧ Justified parse run.1.source next.1.source w events c) ∧
      ∀ seed, .sent call seed ∈ next.2 → (∀ sent, .sent call sent ∉ run.2) →
        ∃ row, .read (.ok row) ∈ events ∧ LaterSeed run.1.source.cached row seed) ∧
    ((∀ c, (runAll (State.step parse) (State.new source) actions).1.calls call ≠ .returned (.ok c)) →
      ∀ earlier action later, actions = earlier ++ action :: later → action.caller = some call →
        let s := (runAll (State.step parse) (State.new source) earlier).1
        (s.step parse action).1.source.cached = s.source.cached) := by
  constructor
  · intro earlier action later _ run next events
    have recorded := run_recorded parse source earlier
    refine ⟨fun c returned fresh => ?_, fun seed sends first => ?_⟩
    · exact State.stepped_justified parse recorded.faithful (recorded.onRecord call)
        (State.step_stepped parse run.1 action) returned fresh
    · obtain ⟨w, attempt, -, trying, -⟩ := sent_step parse recorded.faithful recorded.onRecord sends
      have record := recorded.onRecord call
      rw [trying] at record
      cases attempt with
      | first seedExpiresAt =>
        obtain ⟨row, read, -, rfl⟩ := record
        have there : .read (.ok row) ∈ cycle parse source earlier call := by
          rw [read]
          exact List.mem_singleton_self _
        exact ⟨row, there, chainSeed_later _ row⟩
      | second firstErr =>
        obtain ⟨dbCreds, sent, cycled, -⟩ := record
        refine absurd (mem_sentBy.1 ?_) (first sent)
        rw [recorded.sent call, cycled]
        exact List.mem_singleton_self _
  · intro unreturned earlier action later split mine s
    obtain kept | ⟨c, returned⟩ := State.stepped_keeps parse mine (State.step_stepped parse s action)
    · exact kept
    · refine absurd ?_ (unreturned c)
      rw [split, runAll_append, runAll_cons]
      exact State.run_returned_stays parse returned later

theorem current_contract_sample :
    let parse : List UInt8 → Option TokenResponse := fun _ => some ⟨"minted".toList, none, 3600⟩
    let w : World := ⟨9, .ok expiredRow, .status 200, .bytes []⟩
    let source := TokenSource.new none
    let earlier := Action.call 0 :: List.replicate 10 (.resume 0 w)
    let s := (runAll (State.step parse) (State.new source) earlier).1
    ∃ c, (s.step parse (.resume 0 w)).1.calls 0 = .returned (.ok c) ∧
      ∃ w, Justified parse s.source (s.step parse (.resume 0 w)).1.source w (cycle parse source earlier 0) c := by
  intro parse w source earlier s
  have before : (match s.calls 0 with | .returned _ => false | _ => true) = true := by decide +kernel
  have ended : (match (s.step parse (.resume 0 w)).1.calls 0 with | .returned (.ok _) => true | _ => false) = true := by
    decide +kernel
  have contract := (current_contract parse source (earlier ++ [.resume 0 w]) 0).1 earlier (.resume 0 w) [] rfl
  clear_value earlier
  split at ended
  next c returned =>
    refine ⟨c, returned, ?_⟩
    obtain ⟨w', same, justified⟩ := contract.1 c returned fun already => by
      rw [show s.calls 0 = _ from already] at before
      cases before
    cases same
    exact ⟨w, justified⟩
  next => cases ended

end KiroTrust.Auth
