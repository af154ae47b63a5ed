import KiroTrust.Auth.Burned

set_option autoImplicit false

namespace KiroTrust.Auth

/-! What is cached, and that a call returns just that. -/

variable (parse : List UInt8 → Option TokenResponse)

def TokenSource.adopts (t : TokenSource) (w : World) : Phase → Option Credentials
  | .rule1 _ dbCreds => if t.valid w.now dbCreds && t.dbIsNewer dbCreds then some dbCreds else none
  | .accepted _ seed => (awaitBody parse w.now seed w.body).toOption
  | _ => none

def TokenSource.holds (t : TokenSource) (c : Credentials) : Prop := ∃ mintedByRefresh, t.cached = some ⟨c, mintedByRefresh⟩

theorem keeps_of_none {adopted : Option Credentials} {adopts : Credentials → Prop} {keeps : Prop} (none : adopted = .none)
    (kept : keeps) : (∀ c, adopted = some c → adopts c) ∧ (adopted = .none → keeps) := by
  subst none
  exact ⟨fun _ same => absurd same.symm (Option.some_ne_none _), fun _ => kept⟩

theorem adopts_of_some {c : Credentials} {adopts : Credentials → Prop} {keeps : Prop} (adopted : adopts c) :
    (∀ other, some c = some other → adopts other) ∧ (some c = none → keeps) := by
  refine ⟨fun other same => ?_, fun none => absurd none (Option.some_ne_none c)⟩
  cases same
  exact adopted

theorem advance_cached {t after : TokenSource} {call : Nat} {w : World} {phase next : Phase} {out : List Observation}
    (moves : advance parse t call w phase = some (after, next, out)) :
    (∀ c, t.adopts parse w phase = some c → phase.holdsGate = true ∧ next = .returned (.ok c) ∧ after.holds c) ∧
      (t.adopts parse w phase = none → after.cached = t.cached) := by
  cases phase with
  | rule1 forced dbCreds =>
    simp only [advance] at moves
    simp only [TokenSource.adopts]
    split at moves
    next adopts =>
      cases moves
      rw [if_pos adopts]
      exact adopts_of_some ⟨rfl, rfl, false, rfl⟩
    next keeps =>
      cases moves
      rw [if_neg keeps]
      exact keeps_of_none rfl rfl
  | accepted attempt seed =>
    simp only [advance] at moves
    simp only [TokenSource.adopts]
    split at moves
    next c answered =>
      cases moves
      rw [answered]
      exact adopts_of_some ⟨rfl, rfl, true, rfl⟩
    next e answered =>
      cases moves
      rw [answered]
      refine keeps_of_none rfl ?_
      unfold TokenSource.burn
      split <;> rfl
  | entered =>
    simp only [advance] at moves
    cases moves
    exact keeps_of_none rfl rfl
  | locked =>
    cases moves
    exact keeps_of_none rfl rfl
  | failed attempt error =>
    cases attempt with
    | first seedExpiresAt =>
      simp only [advance] at moves
      split at moves <;> cases moves <;> exact keeps_of_none rfl rfl
    | second firstErr =>
      cases moves
      exact keeps_of_none rfl rfl
  | fastPath | recheck | reading | bound | trying | posted =>
    simp only [advance] at moves
    split at moves <;> cases moves <;> exact keeps_of_none rfl rfl
  | idle | waiting | returned | cancelled => cases moves

theorem holds_of_cachedValid {t : TokenSource} {now : Time} {c : Credentials} (found : t.cachedValid now = some c) :
    t.holds c := by
  obtain ⟨cached, filtered, rfl⟩ := Option.map_eq_some_iff.1 found
  obtain ⟨there, -⟩ := Option.filter_eq_some_iff.1 filtered
  exact ⟨cached.mintedByRefresh, there⟩

theorem advance_returns {t after : TokenSource} {call : Nat} {w : World} {phase next : Phase} {c : Credentials}
    {out : List Observation}
    (snapshot : ∀ forced dbCreds cached, phase = .bound forced dbCreds cached → cached = t.cached)
    (moves : advance parse t call w phase = some (after, next, out)) (returns : next = .returned (.ok c)) :
    after.holds c := by
  subst returns
  cases phase with
  | fastPath =>
    simp only [advance] at moves
    split at moves
    next found =>
      cases moves
      exact holds_of_cachedValid found
    next => cases moves
  | recheck forced =>
    simp only [advance] at moves
    split at moves
    next found =>
      cases moves
      cases forced with
      | true => cases found
      | false => exact holds_of_cachedValid found
    next => cases moves
  | bound forced dbCreds cached =>
    obtain rfl := snapshot _ _ _ rfl
    simp only [advance] at moves
    split at moves
    next again found =>
      cases moves
      obtain ⟨there, -⟩ := Option.filter_eq_some_iff.1 found
      exact ⟨again.mintedByRefresh, there⟩
    next => cases moves
  | rule1 forced dbCreds =>
    simp only [advance] at moves
    split at moves <;> cases moves
    exact ⟨false, rfl⟩
  | accepted attempt seed =>
    simp only [advance] at moves
    split at moves <;> cases moves
    exact ⟨true, rfl⟩
  | entered =>
    simp only [advance] at moves
    split at moves <;> cases moves
  | failed attempt error =>
    cases attempt with
    | first seedExpiresAt =>
      simp only [advance] at moves
      split at moves <;> cases moves
    | second firstErr => cases moves
  | reading | trying | posted =>
    simp only [advance] at moves
    split at moves <;> cases moves
  | idle | waiting | locked | returned | cancelled => cases moves

theorem dropped_cached {t after : TokenSource} {phase : Phase} (dropping : dropped t phase = some after) :
    after.cached = t.cached := by
  cases phase with
  | entered | waiting | posted =>
    cases dropping
    rfl
  | accepted attempt seed =>
    cases dropping
    unfold TokenSource.burn
    split <;> rfl
  | _ => cases dropping

namespace State

structure Faithful (s : State) : Prop where
  gated : s.Gated
  snapshots : ∀ call forced dbCreds cached,
    s.calls call = .bound forced dbCreds cached → cached = s.source.cached

theorem new_faithful (source : TokenSource) : (new source).Faithful where
  gated := by
    intro call
    simp [new, Phase.holdsGate]
  snapshots := fun _ _ _ _ => nofun

theorem put_snapshots {s : State} {call : Nat} {source : TokenSource} {phase : Phase} (faithful : s.Faithful)
    (kept : source.cached = s.source.cached ∨ (s.calls call).holdsGate = true)
    (own : ∀ forced dbCreds cached, phase = .bound forced dbCreds cached → cached = source.cached) :
    ∀ other forced dbCreds cached,
      (s.put call source phase).calls other = .bound forced dbCreds cached → cached = source.cached := by
  intro other forced dbCreds cached bound
  by_cases same : other = call
  · subst same
    simp only [put, Function.update_self] at bound
    exact own forced dbCreds cached bound
  · simp only [put, Function.update_of_ne same] at bound
    obtain still | holds := kept
    · rw [still]
      exact faithful.snapshots other forced dbCreds cached bound
    · -- Two calls would hold the gate.
      have theirs := (faithful.gated other).1 (by rw [bound]; rfl)
      have mine := (faithful.gated call).1 holds
      exact absurd (Option.some.inj (theirs.symm.trans mine)) same

theorem advance_snapshot {t after : TokenSource} {call : Nat} {w : World} {phase next : Phase} {out : List Observation}
    (moves : advance parse t call w phase = some (after, next, out)) :
    ∀ forced dbCreds cached, next = .bound forced dbCreds cached → cached = after.cached := by
  intro forced dbCreds cached bound
  subst bound
  cases phase with
  | rule1 =>
    simp only [advance] at moves
    split at moves <;> cases moves
    rfl
  | entered =>
    simp only [advance] at moves
    split at moves <;> cases moves
  | failed attempt error =>
    cases attempt with
    | first seedExpiresAt =>
      simp only [advance] at moves
      split at moves <;> cases moves
    | second firstErr => cases moves
  | locked | idle | waiting | returned | cancelled => cases moves
  | _ =>
    simp only [advance] at moves
    split at moves <;> cases moves

theorem stepped_faithful {s after : State} {action : Action} {out : List Observation} (faithful : s.Faithful)
    (stepped : s.Stepped parse action after out) : after.Faithful := by
  refine ⟨(stepped_moves parse faithful.gated stepped).2, ?_⟩
  cases stepped with
  | still | forces => exact faithful.snapshots
  | starts idle | locks w waits free => exact put_snapshots faithful (.inl rfl) nofun
  | @advances call w source phase out moves =>
    refine put_snapshots faithful ?_ (advance_snapshot parse moves)
    obtain ⟨adopted, kept⟩ := advance_cached parse moves
    cases adopts : s.source.adopts parse w (s.calls call) with
    | none => exact .inl (kept adopts)
    | some c => exact .inr (adopted c adopts).1
  | drops dropping => exact put_snapshots faithful (.inl (dropped_cached dropping)) nofun

theorem stepped_cached {s after : State} {action : Action} {out : List Observation}
    (stepped : s.Stepped parse action after out) :
    after.source.cached = s.source.cached ∨
      ∃ call w c, action = .resume call w ∧ s.source.adopts parse w (s.calls call) = some c ∧ after.source.holds c := by
  cases stepped with
  | still | starts | locks | forces => exact .inl rfl
  | @advances call w source phase out moves =>
    obtain ⟨adopted, kept⟩ := advance_cached parse moves
    cases adopts : s.source.adopts parse w (s.calls call) with
    | none => exact .inl (kept adopts)
    | some c => exact .inr ⟨call, w, c, rfl, adopts, (adopted c adopts).2.2⟩
  | drops dropping => exact .inl (dropped_cached dropping)

theorem stepped_returns {s after : State} {call : Nat} {w : World} {out : List Observation} {c : Credentials}
    (faithful : s.Faithful) (stepped : s.Stepped parse (.resume call w) after out)
    (fresh : ∀ result, s.calls call ≠ .returned result) (returned : after.calls call = .returned (.ok c)) :
    after.source.holds c := by
  cases stepped with
  | still => exact absurd returned (fresh _)
  | locks w waits free => simp [put] at returned
  | advances moves =>
    simp only [put, Function.update_self] at returned
    exact advance_returns parse (faithful.snapshots call) moves returned

end State

end KiroTrust.Auth
