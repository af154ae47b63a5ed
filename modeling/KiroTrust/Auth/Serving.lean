import KiroTrust.Auth.Burned

set_option autoImplicit false

namespace KiroTrust.Auth

open Emitter

/-! While a credential that a refresh minted stays valid, it is what every call returns. -/

def Action.world : Action → Option World
  | .resume _ w => some w
  | .call _ | .cancel _ | .invalidate => none

def Phase.Serves (m : Credentials) : Phase → Prop
  | .idle | .entered | .fastPath | .waiting | .locked | .recheck _ | .returned _ | .cancelled => True
  | .reading forced => forced = true
  | .rule1 forced dbCreds => forced = true ∧ dbCreds.expiresAt ≤ m.expiresAt
  | .bound forced _ cached => forced = true ∧ cached = some ⟨m, true⟩
  | .trying _ _ | .posted _ _ | .accepted _ _ | .failed _ _ => False

/-- The credential is valid at this time, and the database has nothing later. -/
def TokenSource.Lasting (t : TokenSource) (m : Credentials) (w : World) : Prop :=
  t.valid w.now m = true ∧ ∃ row, w.row = .ok row ∧ row.expiresAt ≤ m.expiresAt

variable (parse : List UInt8 → Option TokenResponse)

theorem readDb_expiresAt {t : TokenSource} {row : Except AuthError Credentials} {creds : Credentials}
    (read : t.readDb row = .ok creds) : ∃ stored, row = .ok stored ∧ creds.expiresAt = stored.expiresAt := by
  cases row with
  | error e => cases read
  | ok stored =>
    simp only [TokenSource.readDb, Except.map, Except.ok.injEq] at read
    refine ⟨stored, rfl, ?_⟩
    subst read
    split <;> rfl

theorem cachedValid_minted {t : TokenSource} {m : Credentials} {now : Time} (cached : t.cached = some ⟨m, true⟩)
    (valid : t.valid now m = true) : t.cachedValid now = some m := by
  simp [TokenSource.cachedValid, cached, valid]

def TokenSource.Alike (t after : TokenSource) : Prop := ∃ forced, after = { t with forced }

theorem TokenSource.Alike.refl (t : TokenSource) : t.Alike t := ⟨t.forced, rfl⟩

theorem TokenSource.Alike.trans {t middle after : TokenSource} (first : t.Alike middle) (second : middle.Alike after) :
    t.Alike after := by
  obtain ⟨_, rfl⟩ := first
  obtain ⟨forced, rfl⟩ := second
  exact ⟨forced, rfl⟩

theorem advance_serves {t after : TokenSource} {call : Nat} {w : World} {phase next : Phase} {m : Credentials}
    {out : List Observation} (cached : t.cached = some ⟨m, true⟩) (lasting : t.Lasting m w) (serves : phase.Serves m)
    (moves : advance parse t call w phase = some (after, next, out)) :
    t.Alike after ∧ next.Serves m ∧ (∀ result, next = .returned result → result = .ok m) ∧ out = [] := by
  obtain ⟨valid, row, stored, older⟩ := lasting
  have served : t.cachedValid w.now = some m := cachedValid_minted cached valid
  cases phase with
  | entered =>
    simp only [advance] at moves
    cases moves
    refine ⟨.refl t, ?_, ?_, rfl⟩ <;> split <;> simp [Phase.Serves]
  | fastPath =>
    simp only [advance, served] at moves
    cases moves
    exact ⟨.refl t, trivial, by simp, rfl⟩
  | locked =>
    cases moves
    exact ⟨⟨false, rfl⟩, trivial, by simp, rfl⟩
  | recheck forced =>
    cases forced with
    | true =>
      cases moves
      exact ⟨.refl t, rfl, by simp, rfl⟩
    | false =>
      simp only [advance, served, Bool.false_eq_true, if_false] at moves
      cases moves
      exact ⟨.refl t, trivial, by simp, rfl⟩
  | reading forced =>
    cases read : t.readDb w.row with
    | error e =>
      rw [stored] at read
      cases read
    | ok dbCreds =>
      simp only [advance, read] at moves
      cases moves
      obtain ⟨found, same, expires⟩ := readDb_expiresAt read
      obtain rfl := Except.ok.inj (stored.symm.trans same)
      exact ⟨.refl t, ⟨serves, expires ▸ older⟩, by simp, rfl⟩
  | rule1 forced dbCreds =>
    obtain ⟨isForced, notLater⟩ := serves
    have old : t.dbIsNewer dbCreds = false := by simpa [TokenSource.dbIsNewer, cached] using notLater
    simp only [advance, old, Bool.and_false, Bool.false_eq_true, if_false] at moves
    cases moves
    exact ⟨.refl t, ⟨isForced, cached⟩, by simp, rfl⟩
  | bound forced dbCreds held =>
    -- The cycle is forced, and the credential is valid and minted.
    obtain ⟨rfl, rfl⟩ := serves
    simp only [advance, Option.filter, Bool.and_self, valid, if_true] at moves
    cases moves
    exact ⟨.refl t, trivial, by simp, rfl⟩
  | trying | posted | accepted | failed => cases serves
  | idle | waiting | returned | cancelled => cases moves

theorem dropped_serves {t after : TokenSource} {phase : Phase} {m : Credentials} (serves : phase.Serves m)
    (dropping : dropped t phase = some after) : after = t := by
  cases phase with
  | entered | waiting =>
    cases dropping
    rfl
  | posted | accepted => cases serves
  | _ => cases dropping

namespace State

structure Serving (m : Credentials) (s start : State) (out : List Observation) : Prop where
  alike : start.source.Alike s.source
  ready : ∀ call, (s.calls call).Serves m
  results : ∀ call result, s.calls call = .returned result →
    start.calls call = .returned result ∨ result = .ok m
  silent : out = []

theorem put_serving {m : Credentials} {start s : State} {out : List Observation} {source : TokenSource} {call : Nat}
    {phase : Phase} (serving : s.Serving m start out) (alike : s.source.Alike source) (serves : phase.Serves m)
    (result : ∀ result, phase = .returned result → result = .ok m) :
    (s.put call source phase).Serving m start out where
  alike := serving.alike.trans alike
  ready := by
    intro other
    by_cases same : other = call
    · simpa only [put, same, Function.update_self] using serves
    · simpa only [put, Function.update_of_ne same] using serving.ready other
  results := by
    intro other value returned
    by_cases same : other = call
    · simp only [put, same, Function.update_self] at returned
      exact .inr (result value returned)
    · simp only [put, Function.update_of_ne same] at returned
      exact serving.results other value returned
  silent := serving.silent

theorem stepped_serving {m : Credentials} {start s after : State} {action : Action} {before out : List Observation}
    (cached : start.source.cached = some ⟨m, true⟩) (lasting : ∀ w ∈ action.world, start.source.Lasting m w)
    (serving : s.Serving m start before) (stepped : s.Stepped parse action after out) :
    after.Serving m start (before ++ out) := by
  obtain ⟨forced, source⟩ := serving.alike
  have stillCached : s.source.cached = some ⟨m, true⟩ := by rw [source, cached]
  cases stepped with
  | still =>
    rw [List.append_nil]
    exact serving
  | starts idle =>
    rw [List.append_nil]
    exact put_serving serving (.refl _) trivial (by simp)
  | locks w waits free =>
    rw [List.append_nil]
    exact put_serving serving (.refl _) trivial (by simp)
  | @advances call w =>
    next moves =>
    have now : s.source.Lasting m w := by
      rw [source]
      exact lasting w rfl
    obtain ⟨alike, serves, result, rfl⟩ := advance_serves parse stillCached now (serving.ready call) moves
    rw [List.append_nil]
    exact put_serving serving alike serves result
  | @drops call source dropping =>
    rw [List.append_nil, dropped_serves (serving.ready call) dropping]
    exact put_serving serving (.refl _) trivial (by simp)
  | forces =>
    rw [List.append_nil]
    exact ⟨serving.alike.trans ⟨true, rfl⟩, serving.ready, serving.results, serving.silent⟩

theorem run_serving {m : Credentials} {start : State} {actions : List Action}
    (cached : start.source.cached = some ⟨m, true⟩) (ready : ∀ call, (start.calls call).Serves m)
    (lasting : ∀ action ∈ actions, ∀ w ∈ action.world, start.source.Lasting m w) :
    (runAll (step parse) start actions).1.Serving m start (runAll (step parse) start actions).2 := by
  have keeps : ∀ action ∈ actions, Preserves (fun s out => s.Serving m start out) fun s => step parse s action :=
    fun action inside s _ serving => stepped_serving parse cached (lasting action inside) serving (step_stepped parse s action)
  exact Preserves.runAllOf keeps start [] ⟨.refl _, ready, fun _ _ returned => .inl returned, rfl⟩

theorem minted_ready {s : State} {call : Nat} {w : World} {attempt : Attempt} {seed m : Credentials} (gated : s.Gated)
    (exchanging : s.calls call = .accepted attempt seed) (answered : awaitBody parse w.now seed w.body = .ok m) :
    let after := (s.step parse (.resume call w)).1
    after.source.cached = some ⟨m, true⟩ ∧ ∀ other, (after.calls other).Serves m := by
  have stepped : s.step parse (.resume call w) =
      (s.put call ((s.source.burn seed.expiresAt).setCached m true) (.returned (.ok m)), []) := by
    simp [step, exchanging, advance, answered]
  simp only [stepped]
  refine ⟨rfl, fun other => ?_⟩
  have own : s.gate = some call := (gated call).1 (by rw [exchanging]; rfl)
  by_cases same : other = call
  · simp [put, same, Phase.Serves]
  · have outside : (s.calls other).holdsGate = false := by
      rw [Bool.eq_false_iff, Ne, gated other, own]
      simpa using Ne.symm same
    simp only [put, Function.update_of_ne same]
    cases phase : s.calls other with
    | idle | entered | fastPath | waiting | returned | cancelled => trivial
    | _ => simp [phase, Phase.holdsGate] at outside

end State

/-- While it lasts, a minted credential stays cached and is what every call returns, without a request. -/
theorem minted_credential_kept (start : State) (m : Credentials) (actions : List Action)
    (cached : start.source.cached = some ⟨m, true⟩) (ready : ∀ call, (start.calls call).Serves m)
    (lasting : ∀ action ∈ actions, ∀ w ∈ action.world, start.source.Lasting m w) :
    let run := runAll (State.step parse) start actions
    (∀ call seed, Observation.sent call seed ∉ run.2) ∧
      (∀ call result, run.1.calls call = .returned result → start.calls call = .returned result ∨ result = .ok m) ∧
      run.1.source.cached = some ⟨m, true⟩ := by
  intro run
  have serving := State.run_serving parse cached ready lasting
  obtain ⟨forced, source⟩ := serving.alike
  refine ⟨fun call seed => ?_, serving.results, ?_⟩
  · rw [serving.silent]
    exact List.not_mem_nil
  · exact (congrArg TokenSource.cached source).trans cached

theorem minted_credential_kept_sample :
    let m : Credentials := ⟨"minted".toList, [], [], [], 400 * second, [], [], []⟩
    let row : Credentials := ⟨"stored".toList, [], [], [], 5, [], [], []⟩
    let w : World := ⟨9, .ok row, .timedOut, .timedOut⟩
    let start := State.new { TokenSource.new none with cached := some ⟨m, true⟩ }
    let actions := [.invalidate, .call 0, .call 1] ++ List.replicate 8 (.resume 0 w) ++ [.invalidate, .cancel 1]
    let run := runAll (State.step fun _ => none) start actions
    (∀ call seed, Observation.sent call seed ∉ run.2) ∧ run.1.calls 0 = .returned (.ok m) := by
  intro m row w start actions run
  have lasts : start.source.Lasting m w := ⟨by decide, row, rfl, by decide⟩
  have worlds : ∀ action ∈ actions, action.world = none ∨ action.world = some w := by
    simp [actions, Action.world]
  obtain ⟨silent, results, -⟩ := minted_credential_kept (fun _ => none) start m actions rfl (fun _ => trivial) (by
    intro action inside w' among
    obtain absent | same := worlds action inside
    · simp [absent] at among
    · obtain rfl : w = w' := by simpa [same] using among
      exact lasts)
  have ended : (match run.1.calls 0 with | .returned _ => true | _ => false) = true := by decide +kernel
  clear_value actions
  split at ended
  next result returned =>
    obtain early | rfl := results 0 result returned
    · cases early
    · exact ⟨silent, returned⟩
  next => cases ended

end KiroTrust.Auth
