import KiroTrust.Cli.Audit
import KiroTrust.Server.Router

set_option autoImplicit false

namespace KiroTrust.Server

open Emitter
open Permits (Clients Honest Pool)

/-! `listener.rs`: the cap on connections, and the deadline for the first request on each of them. -/

/-- `io::ErrorKind`, as far as the listener and its connections tell the kinds apart. -/
inductive ErrorKind where
  | connectionRefused
  | connectionAborted
  | connectionReset
  | timedOut
  | other
  deriving DecidableEq

def isConnectionError : ErrorKind → Bool
  | .connectionRefused | .connectionAborted | .connectionReset => true
  | .timedOut | .other => false

/-- `Poll<io::Result<_>>` -/
inductive Poll (A : Type) where
  | pending
  | ready (result : Except ErrorKind A)

structure HeaderDeadline where
  armed : Bool

def HeaderDeadline.new : HeaderDeadline := ⟨true⟩

def HeaderDeadline.disarm (_ : HeaderDeadline) : HeaderDeadline := ⟨false⟩

structure GuardedIo where
  peer : Str
  deadline : HeaderDeadline
  -- Where on the clock `timer` is through, in milliseconds.
  timer : Nat

def GuardedIo.new (peer : Str) (now headerTimeout : Nat) : GuardedIo where
  peer := peer
  deadline := .new
  timer := now + headerTimeout

/-- `stream` is what a poll of the socket itself yields. -/
def GuardedIo.pollRead (io : GuardedIo) (now : Nat) (stream : Poll (List UInt8)) : Poll (List UInt8) :=
  if io.deadline.armed && decide (io.timer ≤ now) then .ready (.error .timedOut) else stream

def GuardedIo.pollWrite (_ : GuardedIo) (stream : Poll Nat) : Poll Nat := stream

/-- `headers_received` of `mod.rs`, which a request that has been parsed comes through first. -/
def GuardedIo.headersReceived (io : GuardedIo) : GuardedIo := { io with deadline := io.deadline.disarm }

/-- A call of `accept`, and then the connection that it returns. -/
inductive Connection where
  | acquiring
  | accepting
  -- Behind an error that is not the connection's own.
  | sleeping (till : Nat)
  | serving (io : GuardedIo)
  | closed

inductive ConnectionInput where
  | permit
  | accepted (now : Nat) (result : Except ErrorKind Str)
  | wake (now : Nat)
  | read (now : Nat) (stream : Poll (List UInt8))
  | write (stream : Poll Nat)
  | request (incoming : Incoming)
  | drop

inductive ConnectionSeen where
  | opened (peer : Str)
  | read (outcome : Poll (List UInt8))
  | written (outcome : Poll Nat)
  -- A request on its way to the routes.
  | request (incoming : Incoming)

namespace Connection

def isAccepting : Connection → Bool
  | .accepting => true
  | .acquiring | .sleeping _ | .serving _ | .closed => false

def isOpen : Connection → Bool
  | .serving _ => true
  | .acquiring | .accepting | .sleeping _ | .closed => false

def permit (c : Connection) : Bool := c.isAccepting || c.isOpen

def waits : Connection → Bool
  | .acquiring | .sleeping _ => true
  | .accepting | .serving _ | .closed => false

def inAccept (c : Connection) : Bool := c.isAccepting || c.waits

def step (headerTimeout : Nat) (free : Bool) : Connection → ConnectionInput → Connection × List ConnectionSeen
  | .acquiring, .permit => (if free then .accepting else .acquiring, [])
  | .accepting, .accepted now (.ok peer) => (.serving (.new peer now headerTimeout), [.opened peer])
  -- The permit is given back before the error is looked at.
  | .accepting, .accepted now (.error kind) =>
    (if isConnectionError kind then .acquiring else .sleeping (now + 1000), [])
  | .sleeping till, .wake now => (if till ≤ now then .acquiring else .sleeping till, [])
  | .serving io, .read now stream => (.serving io, [.read (io.pollRead now stream)])
  | .serving io, .write stream => (.serving io, [.written (io.pollWrite stream)])
  | .serving io, .request incoming => (.serving io.headersReceived, [.request incoming])
  | .acquiring, .drop | .accepting, .drop | .sleeping _, .drop | .serving _, .drop => (.closed, [])
  | c, _ => (c, [])

def clients (headerTimeout : Nat) : Clients Connection ConnectionInput ConnectionSeen where
  holds := permit
  turn := step headerTimeout

end Connection

inductive ListenerAction where
  | accept
  | input (connection : Nat) (given : ConnectionInput)

def ListenerAction.inputTo (connection : Nat) : ListenerAction → Option ConnectionInput
  | .accept => none
  | .input other given => if other = connection then some given else none

structure GuardedListener where
  connections : Pool Connection
  headerTimeout : Nat

namespace GuardedListener

def new (maxConnections headerTimeout : Nat) : GuardedListener where
  connections := ⟨maxConnections, []⟩
  headerTimeout := headerTimeout

/-- `accept` takes `&mut self`: while one call of it is under way there is no other. -/
def step (l : GuardedListener) : ListenerAction → GuardedListener × List (Nat × ConnectionSeen)
  | .accept =>
    if l.connections.clients.any Connection.inAccept then (l, [])
    else ({ l with connections := (l.connections.step (Connection.clients l.headerTimeout) (.join .acquiring)).1 }, [])
  | .input connection given =>
    let moved := l.connections.step (Connection.clients l.headerTimeout) (.turn connection given)
    ({ l with connections := moved.1 }, moved.2)

/-- The listener of `serve`. -/
def ofServe : GuardedListener := new Cli.maxConnections (1000 * Cli.headerReadTimeoutSecs)

end GuardedListener

namespace Connection

theorem permit_split (c : Connection) : c.permit.toNat = c.isAccepting.toNat + c.isOpen.toNat := by cases c <;> rfl

theorem inAccept_split (c : Connection) : c.inAccept.toNat = c.isAccepting.toNat + c.waits.toNat := by cases c <;> rfl

theorem countP_split {whole left right : Connection → Bool}
    (split : ∀ c, (whole c).toNat = (left c).toNat + (right c).toNat) (connections : List Connection) :
    connections.countP whole = connections.countP left + connections.countP right := by
  induction connections with
  | nil => rfl
  | cons c rest ih =>
    have number (b : Bool) : (if b = true then 1 else 0) = b.toNat := by cases b <;> rfl
    simp only [List.countP_cons, number, ih, split c]
    omega

variable {headerTimeout : Nat}

theorem honest : Honest (clients headerTimeout) (· = .acquiring) where
  turn := by
    intro free c input
    simp only [clients]
    cases c with
    | acquiring =>
      cases input with
      | permit =>
        intro held
        cases free with
        | true => exact .inr rfl
        | false => exact .inl held
      | accepted now result => exact .inl
      | wake now => exact .inl
      | read now stream => exact .inl
      | write stream => exact .inl
      | request incoming => exact .inl
      | drop => exact .inl
    | accepting => exact fun _ => .inl rfl
    | sleeping till =>
      intro held
      cases input <;> simp only [step] at held
      case wake now => split at held <;> cases held
      all_goals cases held
    | serving io => exact fun _ => .inl rfl
    | closed => exact .inl
  join := by
    rintro c rfl
    rfl

theorem step_inAccept (free : Bool) (c : Connection) (input : ConnectionInput)
    (later : (c.step headerTimeout free input).1.inAccept = true) : c.inAccept = true := by
  cases c with
  | acquiring | accepting | sleeping till => rfl
  | serving io => cases input <;> cases later
  | closed => cases input <;> cases later

theorem drop_permit (free : Bool) (c : Connection) : (c.step headerTimeout free .drop).1.permit = false := by
  cases c <;> rfl

end Connection

namespace GuardedListener

/-- No permit is lost, and one call of `accept` is under way at the most. -/
structure Sound (maxConnections headerTimeout : Nat) (l : GuardedListener) : Prop where
  timeout : l.headerTimeout = headerTimeout
  full : l.connections.Full (Connection.clients headerTimeout) maxConnections
  alone : l.connections.clients.countP Connection.inAccept ≤ 1

variable {maxConnections headerTimeout : Nat} {l : GuardedListener}

theorem step_sound (sound : l.Sound maxConnections headerTimeout) (action : ListenerAction) :
    (l.step action).1.Sound maxConnections headerTimeout := by
  obtain ⟨rfl, full, alone⟩ := sound
  cases action with
  | accept =>
    simp only [step]
    split
    next => exact ⟨rfl, full, alone⟩
    next quiet =>
      refine ⟨rfl, Pool.step_full Connection.honest full rfl, ?_⟩
      have none : l.connections.clients.countP Connection.inAccept = 0 := by
        rw [List.countP_eq_zero]
        intro c inside pending
        exact quiet (List.any_eq_true.2 ⟨c, inside, pending⟩)
      simp only [Pool.step, List.countP_append, none]
      exact Nat.le_refl 1
  | input connection given =>
    refine ⟨rfl, Pool.step_full Connection.honest full trivial, ?_⟩
    simp only [step, Pool.step]
    split
    next c there =>
      obtain ⟨inside, found⟩ := List.getElem?_eq_some_iff.1 there
      refine Nat.le_trans ?_ alone
      simp only [Pool.put, List.countP_set inside, found]
      cases later : (c.step l.headerTimeout l.connections.free given).1.inAccept with
      | false => simp [Connection.clients, later]
      | true =>
        have here := Connection.step_inAccept _ c given later
        have among := List.countP_pos_iff.2 ⟨c, List.mem_of_getElem? there, here⟩
        simp only [Connection.clients, later, here, if_true]
        omega
    next => exact alone

theorem run_sound (actions : List ListenerAction) :
    (runAll step (new maxConnections headerTimeout) actions).1.Sound maxConnections headerTimeout := by
  have starts : (new maxConnections headerTimeout).Sound maxConnections headerTimeout := ⟨rfl, rfl, Nat.zero_le 1⟩
  generalize new maxConnections headerTimeout = l at starts
  induction actions generalizing l with
  | nil => exact starts
  | cons action rest ih => exact ih _ (step_sound starts action)

theorem Sound.waiting (sound : l.Sound maxConnections headerTimeout) {c : Connection}
    (inside : c ∈ l.connections.clients) (waits : c.waits = true) :
    l.connections.clients.countP Connection.permit = l.connections.clients.countP Connection.isOpen := by
  have held := Connection.countP_split Connection.permit_split l.connections.clients
  have pending := Connection.countP_split Connection.inAccept_split l.connections.clients
  have here := List.countP_pos_iff.2 ⟨c, inside, waits⟩
  have alone := sound.alone
  omega

def dropAll (l : GuardedListener) : List ListenerAction :=
  (List.range l.connections.clients.length).map (.input · .drop)

theorem run_inputs (l : GuardedListener) (inputs : List (Nat × ConnectionInput)) :
    (runAll step l (inputs.map fun given => .input given.1 given.2)).1.connections =
      (runAll (Pool.step (Connection.clients l.headerTimeout)) l.connections
        (inputs.map fun given => .turn given.1 given.2)).1 := by
  induction inputs generalizing l with
  | nil => rfl
  | cons given rest ih => exact ih _

/-- In every run the permits of the listener are free, with its one call of `accept`, or with open connections, of
which there are never more than it has permits. The next connection waits exactly as long as there are so many, and
no permit stays behind with a connection that is gone. -/
theorem connections_capped (maxConnections headerTimeout : Nat) (actions : List ListenerAction) :
    let l := (runAll step (new maxConnections headerTimeout) actions).1
    let connections := l.connections.clients
    l.connections.available + connections.countP Connection.permit = maxConnections ∧
      connections.countP Connection.isOpen ≤ maxConnections ∧ connections.countP Connection.inAccept ≤ 1 ∧
      (∀ index, connections[index]? = some .acquiring →
        ((l.step (.input index .permit)).1.connections.clients[index]? = some .accepting ↔
          connections.countP Connection.isOpen < maxConnections)) ∧
      (runAll step l l.dropAll).1.connections.available = maxConnections := by
  intro l connections
  have sound : l.Sound maxConnections headerTimeout := run_sound actions
  have full := sound.full
  have holding : ∀ c ∈ connections, c.isOpen = true → (Connection.clients headerTimeout).holds c = true :=
    fun c _ isOpen => Bool.or_eq_true_iff.2 (.inr isOpen)
  refine ⟨full, full.count_le holding, sound.alone, fun index there => ?_, ?_⟩
  · have waiting : connections.countP Connection.permit = connections.countP Connection.isOpen :=
      sound.waiting (List.mem_of_getElem? there) rfl
    have granted : (l.step (.input index .permit)).1.connections.clients[index]? =
        some (if l.connections.free then .accepting else .acquiring) := by
      have there : l.connections.clients[index]? = some .acquiring := there
      have inside : index < l.connections.clients.length := (List.getElem?_eq_some_iff.1 there).1
      simp only [step, Pool.step, there, Pool.put]
      exact List.getElem?_set_self inside
    have capacity : l.connections.available + connections.countP Connection.permit = maxConnections := full
    rw [granted]
    cases free : l.connections.free with
    | true =>
      have some : 0 < l.connections.available := of_decide_eq_true free
      simp only [if_true, true_iff]
      omega
    | false =>
      have none : ¬ 0 < l.connections.available := of_decide_eq_false free
      simp only [Bool.false_eq_true, if_false, Option.some.injEq, reduceCtorEq, false_iff]
      omega
  · have drops : l.dropAll = ((List.range connections.length).map (·, ConnectionInput.drop)).map
        fun given => .input given.1 given.2 := by
      rw [List.map_map]
      rfl
    rw [drops, run_inputs, List.map_map, sound.timeout]
    exact Pool.run_everyone Connection.honest full (fun _ _ => trivial) .drop
      fun free c _ => Connection.drop_permit free c

end GuardedListener

def ConnectionInput.isRequest : ConnectionInput → Bool
  | .request _ => true
  | .permit | .accepted _ _ | .wake _ | .read _ _ | .write _ | .drop => false

def Connection.Told (headerTimeout : Nat) (c : Connection) (inputs : List ConnectionInput) : Prop :=
  ∀ io, c = .serving io → ∃ front opened peer back, inputs = front ++ .accepted opened (.ok peer) :: back ∧
    io = ⟨peer, ⟨!back.any ConnectionInput.isRequest⟩, opened + headerTimeout⟩

namespace Connection

variable {headerTimeout : Nat}

theorem step_told (free : Bool) {c : Connection} {inputs : List ConnectionInput} (told : c.Told headerTimeout inputs)
    (input : ConnectionInput) : (c.step headerTimeout free input).1.Told headerTimeout (inputs ++ [input]) := by
  intro io later
  cases c with
  | acquiring =>
    cases input <;> simp only [step] at later
    case permit => split at later <;> cases later
    all_goals cases later
  | accepting =>
    cases input <;> simp only [step] at later
    case accepted now result =>
      cases result with
      | error kind =>
        dsimp only at later
        split at later <;> cases later
      | ok peer =>
        cases later
        exact ⟨inputs, now, peer, [], rfl, rfl⟩
    all_goals cases later
  | sleeping till =>
    cases input <;> simp only [step] at later
    case wake now => split at later <;> cases later
    all_goals cases later
  | serving before =>
    obtain ⟨front, opened, peer, back, rfl, rfl⟩ := told before rfl
    refine ⟨front, opened, peer, back ++ [input], by simp, ?_⟩
    cases input <;> cases later <;> simp [GuardedIo.headersReceived, HeaderDeadline.disarm, ConnectionInput.isRequest]
  | closed => cases input <;> cases later

end Connection

namespace GuardedListener

variable {maxConnections headerTimeout : Nat}

theorem step_told {l : GuardedListener} (timeout : l.headerTimeout = headerTimeout) {index : Nat}
    {inputs : List ConnectionInput}
    (told : ∀ c, l.connections.clients[index]? = some c → c.Told headerTimeout inputs) (action : ListenerAction) :
    ∀ c, (l.step action).1.connections.clients[index]? = some c →
      c.Told headerTimeout (inputs ++ [action].filterMap (ListenerAction.inputTo index)) := by
  subst timeout
  intro c there
  cases action with
  | accept =>
    simp only [List.filterMap_cons, ListenerAction.inputTo, List.filterMap_nil, List.append_nil]
    simp only [step] at there
    split at there
    next => exact told c there
    next =>
      simp only [Pool.step, List.getElem?_append] at there
      split at there
      next => exact told c there
      next =>
        obtain rfl := List.mem_singleton.1 (List.mem_of_getElem? there)
        intro io serving
        cases serving
  | input other given =>
    simp only [step, Pool.step] at there
    by_cases same : other = index
    · subst same
      simp only [List.filterMap_cons, ListenerAction.inputTo, if_true, List.filterMap_nil]
      split at there
      next before here =>
        have inside : other < l.connections.clients.length := (List.getElem?_eq_some_iff.1 here).1
        rw [Pool.put, List.getElem?_set_self inside] at there
        cases there
        exact Connection.step_told _ (told before here) given
      next absent =>
        rw [absent] at there
        cases there
    · simp only [List.filterMap_cons, ListenerAction.inputTo, same, if_false, List.filterMap_nil, List.append_nil]
      split at there
      next =>
        rw [Pool.put, List.getElem?_set_ne same] at there
        exact told c there
      next => exact told c there

theorem run_told (actions : List ListenerAction) (index : Nat) :
    let l := (runAll step (new maxConnections headerTimeout) actions).1
    ∀ c, l.connections.clients[index]? = some c →
      c.Told headerTimeout (actions.filterMap (ListenerAction.inputTo index)) := by
  induction actions using List.reverseRecOn with
  | nil =>
    intro l c there
    cases there
  | append_singleton front action ih =>
    have sound : (runAll step (new maxConnections headerTimeout) front).1.Sound maxConnections headerTimeout :=
      run_sound front
    simp only [runAll_append, runAll_cons, runAll_nil, List.filterMap_append]
    exact step_told sound.timeout ih action

/-- A read of an open connection fails by the deadline if and only if no request has come over the connection since it
was accepted, and that was so long ago; otherwise it is a read of the socket. Nothing that is written, and nothing that
goes on at other connections, has a part in this. -/
theorem header_deadline (maxConnections headerTimeout : Nat) (actions : List ListenerAction) (index : Nat)
    (io : GuardedIo) :
    let l := (runAll step (new maxConnections headerTimeout) actions).1
    l.connections.clients[index]? = some (.serving io) →
      ∃ front opened back,
        actions.filterMap (ListenerAction.inputTo index) = front ++ .accepted opened (.ok io.peer) :: back ∧
        ∀ now stream, (l.step (.input index (.read now stream))).2 =
          [(index, .read (if back.any ConnectionInput.isRequest = false ∧ opened + headerTimeout ≤ now then
            .ready (.error .timedOut) else stream))] := by
  intro l there
  obtain ⟨front, opened, peer, back, inputs, rfl⟩ := run_told actions index _ there io rfl
  refine ⟨front, opened, back, inputs, fun now stream => ?_⟩
  simp [step, Pool.step, there, Connection.clients, Connection.step, GuardedIo.pollRead]

def sampleActions : List ListenerAction :=
  let opens (connection now : Nat) (peer : Str) : List ListenerAction :=
    [.accept, .input connection .permit, .input connection (.accepted now (.ok peer))]
  opens 0 0 "127.0.0.1:50000".toList ++ opens 1 10 "127.0.0.1:50001".toList ++
    [.input 1 (.request ⟨.get, healthPath, [], ⟨[], true⟩⟩)]

theorem header_deadline_sample :
    let l := (runAll step ofServe sampleActions).1
    (l.step (.input 0 (.read 15000 .pending))).2 = [(0, .read (.ready (.error .timedOut)))] := by
  intro l
  let io : GuardedIo := ⟨"127.0.0.1:50000".toList, ⟨true⟩, 15000⟩
  obtain ⟨front, opened, back, inputs, reads⟩ :=
    header_deadline Cli.maxConnections (1000 * Cli.headerReadTimeoutSecs) sampleActions 0 io rfl
  have inputs : [.permit, .accepted 0 (.ok "127.0.0.1:50000".toList)] =
      front ++ .accepted opened (.ok "127.0.0.1:50000".toList) :: back := inputs
  have due : back.any ConnectionInput.isRequest = false ∧ opened + 1000 * Cli.headerReadTimeoutSecs ≤ 15000 := by
    match front, inputs with
    | [_], inputs =>
      cases inputs
      decide
    | _ :: _ :: _, inputs => simp at inputs
  exact (reads 15000 .pending).trans (by rw [if_pos due])

end GuardedListener

end KiroTrust.Server
