import KiroTrust.Auth.Progress
import KiroTrust.Auth.Serving

set_option autoImplicit false

namespace KiroTrust.Auth

open Emitter

/-! However many calls find no valid credential, one of them refreshes it for all. -/

/-- What `read_db` makes of a row. -/
def TokenSource.stored (t : TokenSource) (row : Credentials) : Credentials :=
  match t.runtimeOverride with
  | some r => { row with runtimeRegion := r }
  | none => row

def TokenSource.seed (t : TokenSource) (row : Credentials) : Credentials :=
  TokenSource.chainSeed (t.cached.map Cached.creds) (t.stored row)

structure Expired (source : TokenSource) (row : Credentials) (began : Time) : Prop where
  unforced : source.forced = false
  uncached : source.cachedValid began = none
  stale : source.valid began row = false
  unburned : source.isBurned (source.seed row).expiresAt = false

def World.Reads (w : World) (row : Credentials) (began : Time) : Prop := w.row = .ok row ∧ began ≤ w.now

def Observation.isSent : Observation → Bool
  | .sent _ _ => true
  | .accepted _ _ | .refused _ _ => false

def requests (out : List Observation) : Nat := out.countP Observation.isSent

variable (parse : List UInt8 → Option TokenResponse)

/-- An exchange ends with a credential that is valid for the rest of the run. -/
def Lasts (source : TokenSource) (later : List Action) : Except AuthError Credentials → Prop
  | .ok m => ∀ action ∈ later, ∀ w ∈ action.world, source.valid w.now m = true
  | .error _ => False

instance (source : TokenSource) (later : List Action) : DecidablePred (Lasts source later)
  | .ok m => inferInstanceAs (Decidable (∀ action ∈ later, ∀ w ∈ action.world, source.valid w.now m = true))
  | .error _ => inferInstanceAs (Decidable False)

/-- What the endpoint answers when its answer is awaited. -/
def Answers (source : TokenSource) (later : List Action) (w : World) : Phase → Prop
  | .posted _ _ => w.response = .status 200
  | .accepted _ seed => Lasts source later (awaitBody parse w.now seed w.body)
  | _ => True

instance (source : TokenSource) (later : List Action) (w : World) (phase : Phase) :
    Decidable (Answers parse source later w phase) :=
  match phase with
  | .posted _ _ => inferInstanceAs (Decidable (w.response = .status 200))
  | .accepted _ seed => inferInstanceAs (Decidable (Lasts source later (awaitBody parse w.now seed w.body)))
  | .idle | .entered | .fastPath | .waiting | .locked | .recheck _ | .reading _ | .rule1 _ _ | .bound _ _ _
  | .trying _ _ | .failed _ _ | .returned _ | .cancelled => inferInstanceAs (Decidable True)

def ActionAnswered (s : State) (later : List Action) : Action → Prop
  | .resume call w => Answers parse s.source later w (s.calls call)
  | .call _ | .cancel _ | .invalidate => True

instance (s : State) (later : List Action) (action : Action) : Decidable (ActionAnswered parse s later action) :=
  match action with
  | .resume call w => inferInstanceAs (Decidable (Answers parse s.source later w (s.calls call)))
  | .call _ | .cancel _ | .invalidate => inferInstanceAs (Decidable True)

def AlwaysAnswers : State → List Action → Prop
  | _, [] => True
  | s, action :: later => ActionAnswered parse s later action ∧ AlwaysAnswers (s.step parse action).1 later

instance decideAlwaysAnswers : (s : State) → (actions : List Action) → Decidable (AlwaysAnswers parse s actions)
  | _, [] => inferInstanceAs (Decidable True)
  | s, action :: later =>
    have := decideAlwaysAnswers (s.step parse action).1 later
    inferInstanceAs (Decidable (ActionAnswered parse s later action ∧ AlwaysAnswers parse (s.step parse action).1 later))

def Phase.Seeks (t : TokenSource) (row : Credentials) : Phase → Prop
  | .idle | .entered | .fastPath | .waiting | .locked => True
  | .recheck forced | .reading forced => forced = false
  | .rule1 forced dbCreds => forced = false ∧ dbCreds = t.stored row
  | .bound forced dbCreds cached => forced = false ∧ dbCreds = t.stored row ∧ cached = t.cached
  | .trying _ seed | .posted _ seed | .accepted _ seed => seed = t.seed row
  | .failed _ _ | .returned _ | .cancelled => False

section

variable {t : TokenSource} {row : Credentials} {began : Time}

theorem valid_earlier {c : Credentials} {now : Time} (later : began ≤ now) (stale : t.valid began c = false) :
    t.valid now c = false := by
  simp only [TokenSource.valid, gt_iff_lt, decide_eq_false_iff_not, not_lt] at stale ⊢
  exact stale.trans (Int.add_le_add_right later _)

theorem Expired.stored (expired : Expired t row began) {now : Time} (later : began ≤ now) :
    t.valid now (t.stored row) = false := by
  have expires : (t.stored row).expiresAt = row.expiresAt := by
    unfold TokenSource.stored
    split <;> rfl
  have stale := valid_earlier later expired.stale
  simpa only [TokenSource.valid, expires] using stale

theorem Expired.cached (expired : Expired t row began) {now : Time} (later : began ≤ now) :
    t.cachedValid now = none := by
  have uncached := expired.uncached
  cases cached : t.cached with
  | none => simp [TokenSource.cachedValid, cached]
  | some c =>
    have stale : t.valid began c.creds = false := by simpa [TokenSource.cachedValid, cached] using uncached
    simp [TokenSource.cachedValid, cached, valid_earlier later stale]

theorem advance_seeks {after : TokenSource} {call : Nat} {w : World} {phase next : Phase} {later : List Action}
    {out : List Observation} (expired : Expired t row began) (reads : w.Reads row began) (seeks : phase.Seeks t row)
    (answers : Answers parse t later w phase) (waits : ∀ attempt seed, phase ≠ .accepted attempt seed)
    (moves : advance parse t call w phase = some (after, next, out)) :
    after = t ∧ next.Seeks t row ∧
      (requests out = 0 ∧ next.inFlight = phase.inFlight ∨
        requests out = 1 ∧ phase.holdsGate = true ∧ phase.inFlight = false ∧ next.inFlight = true) := by
  obtain ⟨stored, later⟩ := reads
  cases phase with
  | entered =>
    simp only [advance, expired.unforced, Bool.false_eq_true, if_false] at moves
    cases moves
    exact ⟨rfl, trivial, .inl ⟨rfl, rfl⟩⟩
  | fastPath =>
    simp only [advance, expired.cached later] at moves
    cases moves
    exact ⟨rfl, trivial, .inl ⟨rfl, rfl⟩⟩
  | locked =>
    cases moves
    refine ⟨?_, expired.unforced, .inl ⟨rfl, rfl⟩⟩
    rw [← expired.unforced]
  | recheck forced =>
    obtain rfl : forced = false := seeks
    simp only [advance, Bool.false_eq_true, if_false, expired.cached later] at moves
    cases moves
    exact ⟨rfl, rfl, .inl ⟨rfl, rfl⟩⟩
  | reading forced =>
    have read : t.readDb w.row = .ok (t.stored row) := by
      rw [stored]
      rfl
    simp only [advance, read] at moves
    cases moves
    exact ⟨rfl, ⟨seeks, rfl⟩, .inl ⟨rfl, rfl⟩⟩
  | rule1 forced dbCreds =>
    obtain ⟨unforced, rfl⟩ := seeks
    simp only [advance, expired.stored later, Bool.false_and, Bool.false_eq_true, if_false] at moves
    cases moves
    exact ⟨rfl, ⟨unforced, rfl, rfl⟩, .inl ⟨rfl, rfl⟩⟩
  | bound forced dbCreds cached =>
    obtain ⟨rfl, rfl, rfl⟩ := seeks
    have kept : (t.cached.filter fun _ => false) = none := by cases t.cached <;> rfl
    simp only [advance, Bool.false_and, kept] at moves
    cases moves
    exact ⟨rfl, rfl, .inl ⟨rfl, rfl⟩⟩
  | trying attempt seed =>
    obtain rfl : seed = t.seed row := seeks
    simp only [advance, expired.unburned, Bool.false_eq_true, if_false] at moves
    cases moves
    exact ⟨rfl, rfl, .inr ⟨rfl, rfl, rfl, rfl⟩⟩
  | posted attempt seed =>
    have status : awaitStatus w.response = .ok () := by
      rw [answers]
      rfl
    simp only [advance, status] at moves
    cases moves
    exact ⟨rfl, seeks, .inl ⟨rfl, rfl⟩⟩
  | accepted attempt seed => exact absurd rfl (waits attempt seed)
  | failed | returned | cancelled => cases seeks
  | idle | waiting => cases moves

end

theorem minted_of_answers {source : TokenSource} {later : List Action} {w : World} {attempt : Attempt}
    {seed : Credentials} (answers : Answers parse source later w (.accepted attempt seed)) :
    ∃ m, awaitBody parse w.now seed w.body = .ok m ∧
      ∀ action ∈ later, ∀ w' ∈ action.world, source.valid w'.now m = true := by
  change Lasts source later (awaitBody parse w.now seed w.body) at answers
  cases minted : awaitBody parse w.now seed w.body with
  | ok m =>
    rw [minted] at answers
    exact ⟨m, rfl, answers⟩
  | error e =>
    rw [minted] at answers
    cases answers

theorem burn_buffer (t : TokenSource) (e : Time) : (t.burn e).validityBuffer = t.validityBuffer := by
  unfold TokenSource.burn
  split <;> rfl

theorem advance_uncancelled {t after : TokenSource} {call : Nat} {w : World} {phase next : Phase}
    {out : List Observation} (moves : advance parse t call w phase = some (after, next, out)) : next ≠ .cancelled := by
  cases phase with
  | entered =>
    simp only [advance] at moves
    cases moves
    split <;> exact Phase.noConfusion
  | locked =>
    cases moves
    exact Phase.noConfusion
  | failed attempt error =>
    cases attempt with
    | first seedExpiresAt =>
      simp only [advance] at moves
      split at moves <;> cases moves <;> exact Phase.noConfusion
    | second firstErr =>
      cases moves
      exact Phase.noConfusion
  | idle | waiting | returned | cancelled => cases moves
  | _ =>
    simp only [advance] at moves
    split at moves <;> cases moves <;> exact Phase.noConfusion

namespace State

def InFlight (s : State) : Prop := ∃ call, (s.calls call).inFlight = true

structure Seeking (source : TokenSource) (row : Credentials) (s : State) (out : List Observation) : Prop where
  gated : s.Gated
  same : s.source = source
  seeks : ∀ call, (s.calls call).Seeks source row
  flight : ¬ s.InFlight ∧ requests out = 0 ∨ s.InFlight ∧ requests out = 1

structure Minted (m : Credentials) (s : State) (out : List Observation) : Prop where
  cached : s.source.cached = some ⟨m, true⟩
  ready : ∀ call, (s.calls call).Serves m
  results : ∀ call result, s.calls call = .returned result → result = .ok m
  once : requests out = 1

theorem put_inFlight_other {s : State} {call : Nat} {phase : Phase} (source : TokenSource)
    (same : phase.inFlight = (s.calls call).inFlight) : (s.put call source phase).InFlight ↔ s.InFlight := by
  apply exists_congr
  intro other
  by_cases here : other = call
  · subst here
    simp only [put, Function.update_self, same]
  · simp only [put, Function.update_of_ne here]

theorem gate_of_inFlight {phase : Phase} (flying : phase.inFlight = true) : phase.holdsGate = true := by
  cases phase with
  | posted | accepted => rfl
  | _ => cases flying

theorem put_seeking {source : TokenSource} {row : Credentials} {s : State} {before out : List Observation} {call : Nat}
    {phase : Phase} (seeking : s.Seeking source row before) (gated : (s.put call s.source phase).Gated)
    (seeks : phase.Seeks source row)
    (counted : requests out = 0 ∧ phase.inFlight = (s.calls call).inFlight ∨
      requests out = 1 ∧ (s.calls call).holdsGate = true ∧ (s.calls call).inFlight = false ∧ phase.inFlight = true) :
    (s.put call s.source phase).Seeking source row (before ++ out) where
  gated
  same := seeking.same
  seeks := by
    intro other
    by_cases same : other = call
    · simpa only [put, same, Function.update_self] using seeks
    · simpa only [put, Function.update_of_ne same] using seeking.seeks other
  flight := by
    have total : requests (before ++ out) = requests before + requests out := List.countP_append
    obtain ⟨none, same⟩ | ⟨one, holds, grounded, flies⟩ := counted
    · rw [put_inFlight_other s.source same, total, none]
      exact seeking.flight
    · -- The call held the gate, so that no other one was in flight.
      have alone : ¬ s.InFlight := by
        rintro ⟨other, flying⟩
        have own := (seeking.gated call).1 holds
        have theirs := (seeking.gated other).1 (gate_of_inFlight flying)
        obtain rfl : call = other := Option.some.inj (own.symm.trans theirs)
        rw [grounded] at flying
        cases flying
      have nothing : requests before = 0 := by
        obtain ⟨-, nothing⟩ | ⟨flying, -⟩ := seeking.flight
        · exact nothing
        · exact absurd flying alone
      exact .inr ⟨⟨call, by simpa only [put, Function.update_self] using flies⟩, by omega⟩

theorem stepped_seeking {source : TokenSource} {row : Credentials} {began : Time} {s after : State} {action : Action}
    {later : List Action} {before out : List Observation} (expired : Expired source row began)
    (reads : ∀ w ∈ action.world, w.Reads row began)
    (answers : ActionAnswered parse s later action)
    (uncancelled : ∀ call, action ≠ .cancel call) (peaceful : action ≠ .invalidate)
    (seeking : s.Seeking source row before) (stepped : s.Stepped parse action after out) :
    after.Seeking source row (before ++ out) ∨
      ∃ m, after.Minted m (before ++ out) ∧ after.source.validityBuffer = source.validityBuffer ∧
        ∀ next ∈ later, ∀ w ∈ next.world, source.valid w.now m = true := by
  have gated := (stepped_moves parse seeking.gated stepped).2
  cases stepped with
  | still =>
    rw [List.append_nil]
    exact .inl seeking
  | starts idle =>
    refine .inl (put_seeking seeking gated trivial (.inl ⟨rfl, ?_⟩))
    rw [idle]
    rfl
  | locks w waits free =>
    refine .inl (put_seeking seeking gated trivial (.inl ⟨rfl, ?_⟩))
    rw [waits]
    rfl
  | @advances call w _ phase _ moves =>
    have answered : Answers parse s.source later w (s.calls call) := answers
    rw [seeking.same] at answered moves
    by_cases exchanging : ∃ attempt seed, s.calls call = .accepted attempt seed
    · obtain ⟨attempt, seed, accepted⟩ := exchanging
      rw [accepted] at answered moves
      obtain ⟨m, minted, lasts⟩ := minted_of_answers parse answered
      simp only [advance, minted] at moves
      cases moves
      have flying : requests before = 1 := by
        obtain ⟨grounded, -⟩ | ⟨-, one⟩ := seeking.flight
        · exact absurd ⟨call, by rw [accepted]; rfl⟩ grounded
        · exact one
      have there := minted_ready parse seeking.gated accepted minted
      simp only [step, accepted, advance, minted, seeking.same] at there
      refine .inr ⟨m, ⟨there.1, there.2, fun other result returned => ?_, ?_⟩, burn_buffer source _, lasts⟩
      · by_cases same : other = call
        · simp only [put, same, Function.update_self, Phase.returned.injEq] at returned
          exact returned.symm
        · simp only [put, Function.update_of_ne same] at returned
          have seeks := seeking.seeks other
          rw [returned] at seeks
          cases seeks
      · rw [List.append_nil, flying]
    · have waits : ∀ attempt seed, s.calls call ≠ .accepted attempt seed :=
        fun attempt seed accepted => exchanging ⟨attempt, seed, accepted⟩
      obtain ⟨rfl, seeks, counted⟩ :=
        advance_seeks parse expired (reads w rfl) (seeking.seeks call) answered waits moves
      rw [← seeking.same] at gated ⊢
      rw [← seeking.same] at seeks
      exact .inl (put_seeking (seeking.same ▸ seeking) gated seeks counted)
  | @drops call => exact absurd rfl (uncancelled call)
  | forces => exact absurd rfl peaceful

theorem reads_older {source : TokenSource} {row m : Credentials} {began : Time} {w : World}
    (expired : Expired source row began) (reads : w.Reads row began) (valid : source.valid w.now m = true) :
    source.Lasting m w := by
  have stale := valid_earlier reads.2 expired.stale
  simp only [TokenSource.valid, gt_iff_lt, decide_eq_false_iff_not, not_lt, decide_eq_true_eq] at stale valid
  exact ⟨by simpa [TokenSource.valid] using valid, row, reads.1, stale.trans (Int.le_of_lt valid)⟩

theorem run_minted {source : TokenSource} {row m : Credentials} {began : Time} {s : State} {actions : List Action}
    {before : List Observation} (expired : Expired source row began)
    (reads : ∀ action ∈ actions, ∀ w ∈ action.world, w.Reads row began)
    (lasts : ∀ action ∈ actions, ∀ w ∈ action.world, source.valid w.now m = true)
    (buffer : s.source.validityBuffer = source.validityBuffer) (minted : s.Minted m before) :
    (runAll (step parse) s actions).1.Minted m (before ++ (runAll (step parse) s actions).2) := by
  have lasting : ∀ action ∈ actions, ∀ w ∈ action.world, s.source.Lasting m w := by
    intro action inside w among
    have here := reads_older expired (reads action inside w among) (lasts action inside w among)
    simpa only [TokenSource.Lasting, TokenSource.valid, buffer] using here
  have serving := run_serving parse minted.cached minted.ready lasting
  obtain ⟨forced, same⟩ := serving.alike
  refine ⟨(congrArg TokenSource.cached same).trans minted.cached, serving.ready, ?_, ?_⟩
  · intro call result returned
    obtain earlier | now := serving.results call result returned
    · exact minted.results call result earlier
    · exact now
  · rw [serving.silent, List.append_nil]
    exact minted.once

theorem run_seeking {source : TokenSource} {row : Credentials} {began : Time} {s : State} {actions : List Action}
    {before : List Observation} (expired : Expired source row began)
    (reads : ∀ action ∈ actions, ∀ w ∈ action.world, w.Reads row began) (answers : AlwaysAnswers parse s actions)
    (uncancelled : ∀ call, .cancel call ∉ actions) (peaceful : .invalidate ∉ actions)
    (seeking : s.Seeking source row before) :
    let after := runAll (step parse) s actions
    after.1.Seeking source row (before ++ after.2) ∨ ∃ m, after.1.Minted m (before ++ after.2) := by
  induction actions generalizing s before with
  | nil => exact .inl (by simpa using seeking)
  | cons action rest ih =>
    obtain ⟨answered, answersLater⟩ := answers
    obtain ⟨readsNow, readsLater⟩ := List.forall_mem_cons.1 reads
    have goesOn (call : Nat) : action ≠ .cancel call := fun same => uncancelled call (by simp [same])
    have calm : action ≠ .invalidate := fun same => peaceful (by simp [same])
    intro after
    simp only [after, runAll_cons, ← List.append_assoc]
    obtain still | ⟨m, minted, buffer, lasts⟩ :=
      stepped_seeking parse expired readsNow answered goesOn calm seeking (step_stepped parse s action)
    · exact ih readsLater answersLater (fun call later => uncancelled call (.tail _ later))
        (fun later => peaceful (.tail _ later)) still
    · exact .inr ⟨m, run_minted parse expired readsLater lasts buffer minted⟩

theorem new_seeking (source : TokenSource) (row : Credentials) : (new source).Seeking source row [] where
  gated := by
    intro call
    simp [new, Phase.holdsGate]
  same := rfl
  seeks := fun _ => trivial
  flight := .inl ⟨nofun, rfl⟩

theorem Seeking.requests_le {source : TokenSource} {row : Credentials} {s : State} {out : List Observation}
    (seeking : s.Seeking source row out) : requests out ≤ 1 := by
  obtain ⟨-, none⟩ | ⟨-, one⟩ := seeking.flight <;> omega

theorem run_uncancelled (source : TokenSource) {actions : List Action} (uncancelled : ∀ call, .cancel call ∉ actions)
    (call : Nat) : (runAll (step parse) (new source) actions).1.calls call ≠ .cancelled := by
  have keeps : ∀ action ∈ actions,
      Preserves (fun (s : State) (_ : List Observation) => ∀ call, s.calls call ≠ .cancelled)
        fun s => step parse s action := by
    intro action inside s _ fresh call
    have put {number : Nat} {source : TokenSource} {phase : Phase} (goesOn : phase ≠ .cancelled) :
        (s.put number source phase).calls call ≠ .cancelled := by
      by_cases same : call = number
      · simpa only [State.put, same, Function.update_self] using goesOn
      · simpa only [State.put, Function.update_of_ne same] using fresh call
    have stepped := step_stepped parse s action
    generalize (s.step parse action).1 = after, (s.step parse action).2 = out at stepped ⊢
    cases stepped with
    | still | forces => exact fresh call
    | starts idle | locks w waits free => exact put Phase.noConfusion
    | advances moves => exact put (advance_uncancelled parse moves)
    | @drops number => exact absurd inside (uncancelled number)
  exact Preserves.runAllOf keeps (new source) [] (fun _ => Phase.noConfusion) call

theorem run_returned (source : TokenSource) {actions : List Action} (uncancelled : ∀ call, .cancel call ∉ actions)
    {call : Nat} (ended : ((runAll (step parse) (new source) actions).1.calls call).rank = 0) :
    ∃ result, (runAll (step parse) (new source) actions).1.calls call = .returned result :=
  (Phase.ended ended).resolve_right (run_uncancelled parse source uncancelled call)

end State

/-- Of any calls that find an expired row and no valid credential, one refreshes; every call returns what it minted,
and every call returns once each has been served often enough. -/
theorem refresh_single_flight (source : TokenSource) (row : Credentials) (began : Time) (n : Nat)
    (actions : List Action) (expired : Expired source row began) (callers : ∀ action ∈ actions, action.by n)
    (uncancelled : ∀ call, .cancel call ∉ actions)
    (reads : ∀ action ∈ actions, ∀ w ∈ action.world, w.Reads row began)
    (answers : AlwaysAnswers parse (State.new source) actions) :
    let run := runAll (State.step parse) (State.new source) actions
    requests run.2 ≤ 1 ∧
      (∃ m, ∀ call result, run.1.calls call = .returned result →
        result = .ok m ∧ run.1.source.cached = some ⟨m, true⟩ ∧ requests run.2 = 1) ∧
      ∀ (front : List Action) (rounds : List (List Action)), actions = front ++ rounds.flatten →
        (∀ round ∈ rounds, FairRound n round) → 17 * n ≤ rounds.length →
          ∃ m, ∀ call < n, run.1.calls call = .returned (.ok m) ∧ requests run.2 = 1 := by
  intro run
  have peaceful : .invalidate ∉ actions := fun inside => callers _ inside
  have outcome := State.run_seeking parse expired reads answers uncancelled peaceful (State.new_seeking source row)
  have found : ∃ m, ∀ call result, run.1.calls call = .returned result →
      result = .ok m ∧ run.1.source.cached = some ⟨m, true⟩ ∧ requests run.2 = 1 := by
    obtain seeking | ⟨m, minted⟩ := outcome
    · refine ⟨row, fun call result returned => ?_⟩
      have seeks := seeking.seeks call
      rw [returned] at seeks
      cases seeks
    · exact ⟨m, fun call result returned => ⟨minted.results call result returned, minted.cached, minted.once⟩⟩
  refine ⟨?_, found, ?_⟩
  · obtain seeking | ⟨m, minted⟩ := outcome
    · exact seeking.requests_le
    · exact Nat.le_of_eq minted.once
  · intro front rounds split fair enough
    obtain ⟨m, results⟩ := found
    refine ⟨m, fun call below => ?_⟩
    have finished := State.fair_finishes parse source callers split fair enough call below
    obtain ⟨result, returned⟩ := State.run_returned parse source uncancelled finished
    obtain ⟨rfl, -, once⟩ := results call result returned
    exact ⟨returned, once⟩

theorem refresh_single_flight_sample :
    let parse : List UInt8 → Option TokenResponse := fun _ => some ⟨"minted".toList, none, 3600⟩
    let row : Credentials := ⟨"stored".toList, "refresh".toList, [], [], 5, [], [], []⟩
    let w : World := ⟨9, .ok row, .status 200, .bytes []⟩
    let source := TokenSource.new none
    let actions := [.call 0, .call 1] ++ (List.replicate 14 [.resume 0 w, .resume 1 w]).flatten
    let run := runAll (State.step parse) (State.new source) actions
    ∃ m, run.1.calls 0 = .returned (.ok m) ∧ run.1.calls 1 = .returned (.ok m) ∧ requests run.2 = 1 := by
  intro parse row w source actions run
  have expired : Expired source row 9 := ⟨rfl, rfl, rfl, rfl⟩
  have each : ∀ action ∈ actions, action.by 2 ∧ (∀ call, action ≠ .cancel call) ∧ ∀ w' ∈ action.world, w' = w := by
    simp [actions, Action.by, Action.world, eq_comm]
  have answers : AlwaysAnswers parse (State.new source) actions := by decide
  have first : (run.1.calls 0).rank = 0 := by decide
  have second : (run.1.calls 1).rank = 0 := by decide
  clear_value actions
  have uncancelled : ∀ call, .cancel call ∉ actions := fun call inside => (each _ inside).2.1 call rfl
  obtain ⟨-, ⟨m, results⟩, -⟩ := refresh_single_flight parse source row 9 2 actions expired
    (fun action inside => (each action inside).1) uncancelled
    (fun action inside w' among => (each action inside).2.2 w' among ▸ ⟨rfl, Int.le_refl 9⟩) answers
  have returns (call : Nat) (ended : (run.1.calls call).rank = 0) :
      run.1.calls call = .returned (.ok m) ∧ requests run.2 = 1 := by
    obtain ⟨result, returned⟩ := State.run_returned parse source uncancelled ended
    obtain ⟨rfl, -, once⟩ := results call result returned
    exact ⟨returned, once⟩
  exact ⟨m, (returns 0 first).1, returns 1 second⟩

end KiroTrust.Auth
