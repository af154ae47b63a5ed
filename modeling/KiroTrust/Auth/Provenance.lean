import KiroTrust.Auth.Source

set_option autoImplicit false

namespace KiroTrust.Auth

/-! What every row has that is read, every credential has that is cached, exchanged or returned. -/

variable (P : Credentials → Prop) (override : Option Str)

/-- A refresh changes the tokens and the expiry alone. -/
def Enduring : Prop :=
  ∀ c accessToken refreshToken expiresAt, P c → P { c with accessToken, refreshToken, expiresAt }

def overridden (c : Credentials) : Credentials :=
  match override with
  | some r => { c with runtimeRegion := r }
  | none => c

structure TokenSource.Within (t : TokenSource) : Prop where
  override : t.runtimeOverride = override
  cached : ∀ held, t.cached = some held → P held.creds

def Phase.Within : Phase → Prop
  | .rule1 _ dbCreds => P dbCreds
  | .bound _ dbCreds cached => P dbCreds ∧ ∀ held, cached = some held → P held.creds
  | .trying _ seed | .posted _ seed | .accepted _ seed => P seed
  | .returned (.ok c) => P c
  | .returned (.error _) => True
  | .idle | .entered | .fastPath | .waiting | .locked | .recheck _ | .reading _ | .failed _ _ | .cancelled => True

structure State.Within (s : State) : Prop where
  source : s.source.Within P override
  calls : ∀ call, (s.calls call).Within P

def Action.Reads : Action → Prop
  | .resume _ w => ∀ c, w.row = .ok c → P (overridden override c)
  | _ => True

def Observation.seed : Observation → Credentials
  | .sent _ seed | .accepted _ seed | .refused _ seed => seed

variable {P} {override}

theorem Enduring.awaitBody {parse : List UInt8 → Option TokenResponse} {now : Time} {seed c : Credentials} {body : Body}
    (enduring : Enduring P) (holds : P seed) (answered : awaitBody parse now seed body = .ok c) : P c := by
  cases body with
  | timedOut | failed => cases answered
  | bytes bytes =>
    simp only [Auth.awaitBody] at answered
    split at answered
    next => cases answered
    next parsed _ =>
      split_ifs at answered
      cases answered
      exact enduring seed _ _ _ holds

namespace TokenSource.Within

variable {t : TokenSource}

theorem setCached (within : t.Within P override) {c : Credentials} (holds : P c) (minted : Bool) :
    (t.setCached c minted).Within P override where
  override := within.override
  cached held there := by
    cases there
    exact holds

theorem burn (within : t.Within P override) (expiresAt : Time) : (t.burn expiresAt).Within P override := by
  unfold TokenSource.burn
  split
  · exact ⟨within.override, within.cached⟩
  · exact ⟨within.override, within.cached⟩

theorem ofCachedValid (within : t.Within P override) {now : Time} {c : Credentials}
    (found : t.cachedValid now = some c) : P c := by
  obtain ⟨held, filtered, rfl⟩ := Option.map_eq_some_iff.1 found
  exact within.cached held (Option.filter_eq_some_iff.1 filtered).1

theorem readDb (within : t.Within P override) {row : Except AuthError Credentials}
    (reads : ∀ c, row = .ok c → P (overridden override c)) {c : Credentials} (read : t.readDb row = .ok c) : P c := by
  cases row with
  | error e => cases read
  | ok stored =>
    have same : overridden override stored = c := by
      simp only [TokenSource.readDb, within.override, Except.map, Except.ok.injEq] at read
      exact read
    exact same ▸ reads stored rfl

end TokenSource.Within

theorem chainSeed_within {cached : Option Cached} {db : Credentials} (stored : P db)
    (held : ∀ c, cached = some c → P c.creds) : P (TokenSource.chainSeed (cached.map Cached.creds) db) := by
  cases cached with
  | none => exact stored
  | some c =>
    simp only [Option.map_some, TokenSource.chainSeed]
    split
    · exact held c rfl
    · exact stored

variable {parse : List UInt8 → Option TokenResponse}

theorem advance_within (enduring : Enduring P) {t after : TokenSource} {call : Nat} {w : World} {phase next : Phase}
    {out : List Observation} (within : t.Within P override)
    (reads : ∀ c, w.row = .ok c → P (overridden override c)) (inPhase : phase.Within P)
    (moves : advance parse t call w phase = some (after, next, out)) :
    after.Within P override ∧ next.Within P ∧ ∀ o ∈ out, P o.seed := by
  have none : ∀ o ∈ ([] : List Observation), P o.seed := List.forall_mem_nil _
  cases phase with
  | entered =>
    simp only [advance] at moves
    split at moves <;> cases moves <;> exact ⟨within, trivial, none⟩
  | fastPath =>
    simp only [advance] at moves
    split at moves
    next found =>
      cases moves
      exact ⟨within, within.ofCachedValid found, none⟩
    next =>
      cases moves
      exact ⟨within, trivial, none⟩
  | locked =>
    cases moves
    exact ⟨⟨within.override, within.cached⟩, trivial, none⟩
  | recheck forced =>
    simp only [advance] at moves
    split at moves
    next found =>
      cases moves
      cases forced with
      | true => cases found
      | false => exact ⟨within, within.ofCachedValid found, none⟩
    next =>
      cases moves
      exact ⟨within, trivial, none⟩
  | reading forced =>
    simp only [advance] at moves
    split at moves
    next read =>
      cases moves
      exact ⟨within, within.readDb reads read, none⟩
    next =>
      cases moves
      exact ⟨within, trivial, none⟩
  | rule1 forced dbCreds =>
    simp only [advance] at moves
    split at moves
    next =>
      cases moves
      exact ⟨within.setCached inPhase false, inPhase, none⟩
    next =>
      cases moves
      exact ⟨within, ⟨inPhase, within.cached⟩, none⟩
  | bound forced dbCreds cached =>
    obtain ⟨stored, held⟩ := inPhase
    simp only [advance] at moves
    split at moves
    next again found =>
      cases moves
      exact ⟨within, held again (Option.filter_eq_some_iff.1 found).1, none⟩
    next =>
      cases moves
      exact ⟨within, chainSeed_within stored held, none⟩
  | trying attempt seed =>
    simp only [advance] at moves
    split at moves <;> cases moves
    · exact ⟨within, trivial, List.forall_mem_singleton.2 inPhase⟩
    · exact ⟨within, inPhase, List.forall_mem_singleton.2 inPhase⟩
  | posted attempt seed =>
    simp only [advance] at moves
    split at moves <;> cases moves
    · exact ⟨within, inPhase, List.forall_mem_singleton.2 inPhase⟩
    · exact ⟨within, trivial, none⟩
  | accepted attempt seed =>
    simp only [advance] at moves
    split at moves
    next c answered =>
      cases moves
      have minted := enduring.awaitBody inPhase answered
      exact ⟨(within.burn _).setCached minted true, minted, none⟩
    next =>
      cases moves
      exact ⟨within.burn _, trivial, none⟩
  | failed attempt error =>
    cases attempt with
    | first seedExpiresAt =>
      simp only [advance] at moves
      split at moves
      next newer found =>
        cases moves
        obtain ⟨read, -⟩ := Option.filter_eq_some_iff.1 found
        cases row : t.readDb w.row with
        | error e => simp [row, Except.toOption] at read
        | ok c =>
          rw [row] at read
          cases read
          exact ⟨within, within.readDb reads row, none⟩
      next =>
        cases moves
        exact ⟨within, trivial, none⟩
    | second firstErr =>
      cases moves
      exact ⟨within, trivial, none⟩
  | idle | waiting | returned | cancelled => cases moves

theorem dropped_within {t after : TokenSource} {phase : Phase} (within : t.Within P override)
    (dropping : dropped t phase = some after) : after.Within P override := by
  cases phase with
  | entered | waiting | posted =>
    cases dropping
    exact within
  | accepted attempt seed =>
    cases dropping
    exact within.burn _
  | _ => cases dropping

namespace State

theorem put_within {s : State} (within : s.Within P override) (call : Nat) {source : TokenSource} {phase : Phase}
    (sources : source.Within P override) (inPhase : phase.Within P) : (s.put call source phase).Within P override where
  source := sources
  calls other := by
    by_cases same : other = call
    · simpa only [put, same, Function.update_self] using inPhase
    · simpa only [put, Function.update_of_ne same] using within.calls other

theorem stepped_within (enduring : Enduring P) {s after : State} {action : Action} {out : List Observation}
    (within : s.Within P override) (reads : action.Reads P override) (stepped : s.Stepped parse action after out) :
    after.Within P override ∧ ∀ o ∈ out, P o.seed := by
  have none : ∀ o ∈ ([] : List Observation), P o.seed := List.forall_mem_nil _
  cases stepped with
  | still => exact ⟨within, none⟩
  | starts idle => exact ⟨put_within within _ within.source trivial, none⟩
  | locks w waits free => exact ⟨put_within within _ within.source trivial, none⟩
  | advances moves =>
    obtain ⟨sources, inPhase, seeds⟩ := advance_within enduring within.source reads (within.calls _) moves
    exact ⟨put_within within _ sources inPhase, seeds⟩
  | drops dropping => exact ⟨put_within within _ (dropped_within within.source dropping) trivial, none⟩
  | forces => exact ⟨⟨⟨within.source.override, within.source.cached⟩, within.calls⟩, none⟩

theorem new_within (override : Option Str) : (new (TokenSource.new override)).Within P override where
  source := ⟨rfl, fun _ there => absurd there (Option.some_ne_none _).symm⟩
  calls _ := trivial

end State

end KiroTrust.Auth
