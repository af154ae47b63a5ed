import Mathlib.Data.Finset.Insert
import Mathlib.Logic.Function.Basic
import KiroTrust.Auth.Refresh
import KiroTrust.Shared.Emitter

set_option autoImplicit false

namespace KiroTrust.Auth

/-! `TokenSource`, and any number of callers of `current` that interleave between its steps. -/

def validityBuffer : Int := 300 * second

structure Cached where
  creds : Credentials
  mintedByRefresh : Bool

/-- `UNIX_EPOCH` cannot identify one credential, and is never a member. -/
structure BurnedSeeds where
  times : Finset Time
  parsable : unixEpoch ∉ times

def BurnedSeeds.insert (burned : BurnedSeeds) (expiresAt : Time) (parses : expiresAt ≠ unixEpoch) :
    BurnedSeeds where
  times := Insert.insert expiresAt burned.times
  parsable := by simp [burned.parsable, parses.symm]

structure TokenSource where
  runtimeOverride : Option Str
  cached : Option Cached
  validityBuffer : Int
  forced : Bool
  burned : BurnedSeeds
  burnedUnparsable : Bool

namespace TokenSource

def new (runtimeOverride : Option Str) : TokenSource where
  runtimeOverride
  cached := none
  validityBuffer := Auth.validityBuffer
  forced := false
  burned := ⟨∅, by simp⟩
  burnedUnparsable := false

def withValidityBuffer (t : TokenSource) (buffer : Int) : TokenSource := { t with validityBuffer := buffer }

def valid (t : TokenSource) (now : Time) (c : Credentials) : Bool := c.expiresAt > now + t.validityBuffer

def cachedValid (t : TokenSource) (now : Time) : Option Credentials :=
  (t.cached.filter fun c => t.valid now c.creds).map Cached.creds

def setCached (t : TokenSource) (creds : Credentials) (mintedByRefresh : Bool) : TokenSource :=
  { t with cached := some ⟨creds, mintedByRefresh⟩ }

def readDb (t : TokenSource) (row : Except AuthError Credentials) : Except AuthError Credentials :=
  -- `row` is what `read_identity_center` returns.
  row.map fun creds =>
    match t.runtimeOverride with
    | some r => { creds with runtimeRegion := r }
    | none => creds

def chainSeed (cached : Option Credentials) (db : Credentials) : Credentials :=
  match cached with
  | some c => if c.expiresAt ≥ db.expiresAt then c else db
  | none => db

def dbIsNewer (t : TokenSource) (dbCreds : Credentials) : Bool :=
  -- Rule 1: the database wins only when it is strictly newer than what is cached.
  match t.cached with
  | some c => dbCreds.expiresAt > c.creds.expiresAt
  | none => true

def isBurned (t : TokenSource) (expiresAt : Time) : Bool :=
  if expiresAt = unixEpoch then t.burnedUnparsable else expiresAt ∈ t.burned.times

def burn (t : TokenSource) (expiresAt : Time) : TokenSource :=
  -- `BurnGuard::drop` past a 200.
  if parses : expiresAt = unixEpoch then { t with burnedUnparsable := true }
  else { t with burned := t.burned.insert expiresAt parses }

end TokenSource

/-- Which refresh of its cycle a request is: what the row read first expired at, or the first error. -/
inductive Attempt where
  | first (seedExpiresAt : Time)
  | second (firstErr : AuthError)

inductive Phase where
  | idle
  | entered
  | fastPath
  | waiting
  | locked
  | recheck (forced : Bool)
  | reading (forced : Bool)
  | rule1 (forced : Bool) (dbCreds : Credentials)
  | bound (forced : Bool) (dbCreds : Credentials) (cached : Option Cached)
  | trying (attempt : Attempt) (seed : Credentials)
  -- The request is on its way, and no status has come.
  | posted (attempt : Attempt) (seed : Credentials)
  -- The status was 200, and the body has not come.
  | accepted (attempt : Attempt) (seed : Credentials)
  | failed (attempt : Attempt) (error : AuthError)
  | returned (result : Except AuthError Credentials)
  | cancelled

def Phase.holdsGate : Phase → Bool
  | .locked | .recheck _ | .reading _ | .rule1 _ _ | .bound _ _ _ | .trying _ _ | .posted _ _
  | .accepted _ _ | .failed _ _ => true
  | .idle | .entered | .fastPath | .waiting | .returned _ | .cancelled => false

/-- What surrounds a step: the clock, the database row, and what the endpoint answers. -/
structure World where
  now : Time
  row : Except AuthError Credentials
  response : Response
  body : Body

inductive Observation where
  | sent (call : Nat) (seed : Credentials)
  | accepted (call : Nat) (seed : Credentials)
  | refused (call : Nat) (seed : Credentials)
  deriving DecidableEq

variable (parse : List UInt8 → Option TokenResponse)

def advance (t : TokenSource) (call : Nat) (w : World) : Phase → Option (TokenSource × Phase × List Observation)
  | .entered => some (t, if t.forced then .waiting else .fastPath, [])
  | .fastPath =>
    match t.cachedValid w.now with
    | some c => some (t, .returned (.ok c), [])
    | none => some (t, .waiting, [])
  -- The flag is taken under the gate, so that one call alone is forced.
  | .locked => some ({ t with forced := false }, .recheck t.forced, [])
  -- Another call may have refreshed while this one waited.
  | .recheck forced =>
    match if forced then none else t.cachedValid w.now with
    | some c => some (t, .returned (.ok c), [])
    | none => some (t, .reading forced, [])
  | .reading forced =>
    match t.readDb w.row with
    | .ok dbCreds => some (t, .rule1 forced dbCreds, [])
    | .error e => some (t, .returned (.error e), [])
  | .rule1 forced dbCreds =>
    if t.valid w.now dbCreds && t.dbIsNewer dbCreds then
      some (t.setCached dbCreds false, .returned (.ok dbCreds), [])
    else some (t, .bound forced dbCreds t.cached, [])
  -- A forced call keeps a valid token that a refresh minted since.
  | .bound forced dbCreds cached =>
    let again := cached.filter fun c => forced && c.mintedByRefresh && t.valid w.now c.creds
    match again with
    | some c => some (t, .returned (.ok c.creds), [])
    | none =>
      some (t, .trying (.first dbCreds.expiresAt) (TokenSource.chainSeed (cached.map Cached.creds) dbCreds), [])
  | .trying attempt seed =>
    if t.isBurned seed.expiresAt then
      let detail :=
        match attempt with
        | .first _ => "the refresh token was already exchanged in this session".toList
        | .second firstErr => firstErr.display
      some (t, .returned (.error (.reauthRequired detail)), [.refused call seed])
    else some (t, .posted attempt seed, [.sent call seed])
  | .posted attempt seed =>
    match awaitStatus w.response with
    | .ok () => some (t, .accepted attempt seed, [.accepted call seed])
    | .error e => some (t, .failed attempt e, [])
  | .accepted attempt seed =>
    let t := t.burn seed.expiresAt
    match awaitBody parse w.now seed w.body with
    | .ok newCreds => some (t.setCached newCreds true, .returned (.ok newCreds), [])
    | .error e => some (t, .failed attempt e, [])
  -- Rule 3: a row that has changed since is tried once more.
  | .failed (.first seedExpiresAt) firstErr =>
    let newer := (t.readDb w.row).toOption.filter fun c =>
      seedExpiresAt ≠ unixEpoch && c.expiresAt ≠ seedExpiresAt
    match newer with
    | some newer => some (t, .trying (.second firstErr) newer, [])
    | none => some (t, .returned (.error (.reauthRequired firstErr.display)), [])
  | .failed (.second _) e => some (t, .returned (.error (.reauthRequired e.display)), [])
  | .idle | .waiting | .returned _ | .cancelled => none

/-- The future of a call is dropped: at once, or at one of its awaits. -/
def dropped (t : TokenSource) : Phase → Option TokenSource
  | .entered | .waiting | .posted _ _ => some t
  | .accepted _ seed => some (t.burn seed.expiresAt)
  | _ => none

structure State where
  source : TokenSource
  -- The call that holds `refresh_gate`.
  gate : Option Nat
  calls : Nat → Phase

inductive Action where
  -- A call of `current`, which `with_token` and `identity` only await and map.
  | call (call : Nat)
  | resume (call : Nat) (w : World)
  | cancel (call : Nat)
  | invalidate

namespace State

def new (source : TokenSource) : State := ⟨source, none, fun _ => .idle⟩

def put (s : State) (call : Nat) (source : TokenSource) (phase : Phase) : State where
  -- The gate goes with the guard that the call holds.
  source
  gate := if phase.holdsGate then some call else if s.gate = some call then none else s.gate
  calls := Function.update s.calls call phase

def step (s : State) : Action → State × List Observation
  -- An action that is not possible does nothing.
  | .call call =>
    match s.calls call with
    | .idle => (s.put call s.source .entered, [])
    | _ => (s, [])
  | .resume call w =>
    match s.calls call with
    | .waiting => if s.gate.isNone then (s.put call s.source .locked, []) else (s, [])
    | phase =>
      match advance parse s.source call w phase with
      | some (source, phase, out) => (s.put call source phase, out)
      | none => (s, [])
  | .cancel call =>
    match dropped s.source (s.calls call) with
    | some source => (s.put call source .cancelled, [])
    | none => (s, [])
  | .invalidate => ({ s with source := { s.source with forced := true } }, [])

inductive Stepped (s : State) : Action → State → List Observation → Prop where
  | still (action : Action) : Stepped s action s []
  | starts {call : Nat} (idle : s.calls call = .idle) : Stepped s (.call call) (s.put call s.source .entered) []
  | locks {call : Nat} (w : World) (waits : s.calls call = .waiting) (free : s.gate = none) :
    Stepped s (.resume call w) (s.put call s.source .locked) []
  | advances {call : Nat} {w : World} {source : TokenSource} {phase : Phase} {out : List Observation}
      (moves : advance parse s.source call w (s.calls call) = some (source, phase, out)) :
    Stepped s (.resume call w) (s.put call source phase) out
  | drops {call : Nat} {source : TokenSource} (dropping : dropped s.source (s.calls call) = some source) :
    Stepped s (.cancel call) (s.put call source .cancelled) []
  | forces : Stepped s .invalidate { s with source := { s.source with forced := true } } []

theorem step_stepped (s : State) (action : Action) :
    s.Stepped parse action (s.step parse action).1 (s.step parse action).2 := by
  cases action with
  | call call =>
    simp only [step]
    split
    next idle => exact .starts idle
    next => exact .still _
  | resume call w =>
    simp only [step]
    split
    next waits =>
      split
      next free => exact .locks w waits (by simpa using free)
      next => exact .still _
    next =>
      split
      next moves => exact .advances moves
      next => exact .still _
  | cancel call =>
    simp only [step]
    split
    next dropping => exact .drops dropping
    next => exact .still _
  | invalidate => exact .forces

end State

end KiroTrust.Auth
