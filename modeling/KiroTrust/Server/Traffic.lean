import KiroTrust.Auth.Provenance
import KiroTrust.Cli.Audit
import KiroTrust.Server.OneCredential

set_option autoImplicit false

namespace KiroTrust.Server

open Auth (AuthError Credentials World)
open Cli (Host ServeArgs ServeConfig auditReport hosts readCredentials reportAt runtimeLine)
open Emitter
open Kiro (Generate)
open Net (Destination Region RuntimeRegion authority url)
open Translate (Primitives)

/-! Where requests go, against what `audit` reports. -/

/-- A request that leaves: a refresh of `refresh.rs`, or a post of `client.rs`. -/
inductive Contact where
  | oidc (ssoRegion : Str)
  | runtime (region : Str)

def Contact.path : Contact → Str
  | .oidc _ => "/token".toList
  | .runtime _ => "/".toList

theorem Contact.path_allowed (contact : Contact) : Net.pathAllowed contact.path = true := by
  cases contact <;> rfl

def Contact.To : Contact → Destination → Prop
  | .oidc ssoRegion, .oidc region => region.str = ssoRegion
  | .runtime region, .runtime served => served.region.str = region
  | _, _ => False

def sentTo : Auth.Observation → Option Contact
  | .sent _ seed => some (.oidc seed.ssoRegion)
  | .accepted _ _ | .refused _ _ => none

def postedTo : Happening → Option Contact
  | .client _ (.post p) => some (.runtime p.region)
  | _ => none

variable (parse : List UInt8 → Option Auth.TokenResponse) (prims : Primitives) (x : Kiro.Externals)

namespace System

def exchanges (s : System) : Act → List Auth.Observation
  | .resume request w =>
    match (s.requests request).call with
    | some call => (s.tokens.step parse (.resume call w)).2
    | none => []
  | .other (.resume call w) => if (s.owner call).isNone then (s.tokens.step parse (.resume call w)).2 else []
  | _ => []

def contacts (s : System) (act : Act) : List Contact :=
  (s.exchanges parse act).filterMap sentTo ++ (s.step parse prims x act).2.filterMap postedTo

end System

def Act.row : Act → Option (Except AuthError Credentials)
  | .resume _ w | .other (.resume _ w) => some w.row
  | _ => none

variable (P : Credentials → Prop) (override : Option Str)

def Contact.Of (c : Credentials) : Contact → Prop
  | .oidc ssoRegion => c.ssoRegion = ssoRegion
  | .runtime region => c.runtimeRegion = region

def Handler.Within : Handler → Prop
  | .generating _ _ g => ∀ identity, g.phase = .headers identity → ∃ c, P c ∧ c.runtimeRegion = identity.runtimeRegion
  | _ => True

structure System.Within (s : System) : Prop where
  tokens : s.tokens.Within P override
  requests : ∀ request, (s.requests request).Within P

def Act.Reads (act : Act) : Prop := ∀ row ∈ act.row, ∀ c, row = .ok c → P (Auth.overridden override c)

variable {parse} {prims} {x} {P} {override}

theorem goOn_within {replayed : Bool} {g : Generate} (silent : Generate.awaitsToken g.phase = false) :
    (Handler.goOn replayed g).Within P := by
  unfold Handler.goOn
  split
  · trivial
  · trivial
  · exact fun identity phase => absurd phase (Generate.not_headers silent identity)

theorem start_silent (payload : Kiro.Payload) (invocationId : Str) (progress : Option Nat) :
    Generate.awaitsToken (Generate.start x payload invocationId progress).phase = false := by
  unfold Generate.start
  split <;> rfl

variable (prims) (x) in
theorem deliver_within {h : Handler} {result : Except AuthError Credentials} (within : h.Within P)
    (returned : ∀ c, result = .ok c → P c) :
    (h.deliver prims x result).1.Within P ∧
      ∀ p, .post p ∈ (h.deliver prims x result).2 → ∃ c, P c ∧ c.runtimeRegion = p.region := by
  cases h with
  | idle | ended => exact ⟨trivial, no_posts⟩
  | identifying admission call =>
    cases result with
    | error e => exact ⟨trivial, no_posts⟩
    | ok c =>
      simp only [Handler.deliver]
      split
      next => exact ⟨trivial, no_posts⟩
      next => exact ⟨goOn_within (start_silent _ _ _), no_posts⟩
  | generating replayed call g =>
    simp only [Handler.deliver]
    cases phase : g.phase with
    | identity =>
      simp only
      cases result with
      | error e =>
        simp only [Except.map, Generate.step, phase]
        exact ⟨goOn_within (Generate.fail_quiet g _).phase, no_posts⟩
      | ok c =>
        simp only [Except.map, Generate.step, phase, Handler.goOn]
        refine ⟨fun identity read => ?_, no_posts⟩
        cases read
        exact ⟨c, returned c rfl, rfl⟩
    | headers identity =>
      simp only [Generate.step, phase]
      have silent := (Generate.onHeaders_payload (x := x) g identity (result.map Credentials.accessToken)).2
      refine ⟨goOn_within silent, fun p posted => ?_⟩
      obtain ⟨region, -⟩ := Generate.onHeaders_posts posted
      rw [region]
      exact within identity phase
    | _ =>
      simp only [Generate.step, phase]
      exact ⟨goOn_within (by simp [phase, Generate.awaitsToken]), no_posts⟩

theorem goOn_kept {replayed : Bool} {call : Option Nat} {g : Generate}
    (within : (Handler.generating replayed call g).Within P) : (Handler.goOn replayed g).Within P := by
  unfold Handler.goOn
  split
  · trivial
  · trivial
  · exact within

theorem network_within {replayed : Bool} {call : Option Nat} {g : Generate} {moved : Generate × List Kiro.Observation}
    (within : (Handler.generating replayed call g).Within P) (moves : moved = (g, []) ∨ g.Quiet moved) :
    (Handler.goOn replayed moved.1).Within P ∧ ∀ p, .post p ∉ moved.2 := by
  obtain rfl | quiet := moves
  · exact ⟨goOn_kept within, no_posts⟩
  · exact ⟨goOn_within quiet.phase, quiet.noPosts⟩

theorem replay_within {h : Handler} (within : h.Within P) (invocationId : Str) :
    (h.replay x invocationId).Within P := by
  unfold Handler.replay
  split
  next g =>
    split
    · exact goOn_within (start_silent _ _ _)
    · exact within
  next => exact within

theorem await_within {h : Handler} (within : h.Within P) (call : Nat) : (h.await call).Within P := by
  cases h <;> exact within

namespace System

variable (P) (override) in
structure Moves (moved : System × List Happening) (sent : List Auth.Observation) : Prop where
  within : moved.1.Within P override
  seeds : ∀ o ∈ sent, P o.seed
  posts : ∀ request p, .client request (.post p) ∈ moved.2 → ∃ c, P c ∧ c.runtimeRegion = p.region

theorem still_moves {s : System} (within : s.Within P override) : Moves P override (s, []) [] :=
  ⟨within, List.forall_mem_nil _, fun _ _ inside => absurd inside List.not_mem_nil⟩

variable (parse) in
theorem put_moves {s : System} {sent : List Auth.Observation} (moves : Moves P override (s, []) sent) (request : Nat)
    {h : Handler} (handler : h.Within P) {out : List Kiro.Observation}
    (posts : ∀ p, .post p ∈ out → ∃ c, P c ∧ c.runtimeRegion = p.region) :
    Moves P override (s.put parse request h out) sent where
  within := by
    refine ⟨?_, fun other => ?_⟩
    · simp only [put]
      split
      · exact ⟨⟨moves.within.tokens.source.override, moves.within.tokens.source.cached⟩, moves.within.tokens.calls⟩
      · exact moves.within.tokens
    · by_cases here : other = request
      · simpa only [put, here, Function.update_self] using handler
      · simpa only [put, Function.update_of_ne here] using moves.within.requests other
  seeds := moves.seeds
  posts other p inside := by
    obtain ⟨o, posted, same⟩ := List.mem_map.1 inside
    cases same
    exact posts p posted

variable (parse) in
theorem tokens_moves (enduring : Auth.Enduring P) {s : System} (within : s.Within P override) (owner : Nat → Option Nat)
    {action : Auth.Action} (reads : action.Reads P override) :
    Moves P override ({ s with tokens := (s.tokens.step parse action).1, owner }, []) (s.tokens.step parse action).2 := by
  obtain ⟨tokens, seeds⟩ :=
    Auth.State.stepped_within enduring within.tokens reads (Auth.State.step_stepped parse s.tokens action)
  exact ⟨⟨tokens, within.requests⟩, seeds, fun _ _ inside => absurd inside List.not_mem_nil⟩

theorem Moves.told {s : System} {sent : List Auth.Observation} (moves : Moves P override (s, []) sent)
    (result : Except AuthError Credentials) {request : Nat} {out : List Happening}
    (posts : ∀ request p, .client request (.post p) ∈ out → ∃ c, P c ∧ c.runtimeRegion = p.region) :
    Moves P override (s, (result.toOption.map (.credential request)).toList ++ out) sent where
  within := moves.within
  seeds := moves.seeds
  posts other p inside := by
    obtain told | posted := List.mem_append.1 inside
    · cases result <;> simp [Except.toOption] at told
    · exact posts other p posted

theorem resume_moves (enduring : Auth.Enduring P) {s : System} (within : s.Within P override) (request : Nat) (w : World)
    (reads : (Act.resume request w).Reads P override) :
    Moves P override (s.step parse prims x (.resume request w)) (s.exchanges parse (.resume request w)) := by
  simp only [step, exchanges]
  cases awaits : (s.requests request).call with
  | none => exact still_moves within
  | some call =>
    simp only
    have moved := tokens_moves parse enduring within s.owner
      (show (Auth.Action.resume call w).Reads P override from reads w.row rfl)
    split
    next result returned =>
      exact ⟨within, moved.seeds, fun _ _ inside => absurd inside List.not_mem_nil⟩
    next result returned fresh =>
      have good : ∀ c, result = .ok c → P c := by
        rintro c rfl
        have inPhase := moved.within.tokens.calls call
        rw [returned] at inPhase
        exact inPhase
      obtain ⟨handler, posts⟩ := deliver_within prims x (within.requests request) good
      have put := put_moves parse moved request handler posts
      exact Moves.told ⟨put.within, put.seeds, fun _ _ inside => absurd inside List.not_mem_nil⟩ result put.posts
    next => exact moved

theorem input_moves {s : System} (within : s.Within P override) (request : Nat) (input : Kiro.Input) :
    Moves P override (s.step parse prims x (.input request input)) [] := by
  simp only [step]
  split
  next replayed g generating =>
    have handler := within.requests request
    rw [generating] at handler
    have network (moves : g.step x input = (g, []) ∨ g.Quiet (g.step x input)) :
        Moves P override (s.put parse request (.goOn replayed (g.step x input).1) (g.step x input).2) [] := by
      obtain ⟨kept, silent⟩ := network_within handler moves
      exact put_moves parse (still_moves within) request kept fun p posted => absurd posted (silent p)
    cases input with
    | identity result | token result | cancel => exact still_moves within
    | post now result =>
      refine network ?_
      simp only [Generate.step]
      split
      · exact .inr (Generate.onPost_quiet g now result)
      · exact .inl rfl
    | bytes result =>
      refine network ?_
      simp only [Generate.step]
      split
      · exact .inr (Generate.onException_quiet g result)
      · exact .inr (Generate.onThrottled_quiet g _ _ result)
      · exact .inr (Generate.onRefused_quiet g _ result)
      · exact .inl rfl
    | wake =>
      refine network ?_
      simp only [Generate.step]
      split
      · exact .inr ⟨rfl, rfl, rfl⟩
      · exact .inl rfl
  next => exact still_moves within

theorem step_moves (enduring : Auth.Enduring P) {s : System} (within : s.Within P override) {act : Act}
    (reads : act.Reads P override) : Moves P override (s.step parse prims x act) (s.exchanges parse act) := by
  have put (request : Nat) {h : Handler} (handler : h.Within P) : Moves P override (s.put parse request h []) [] :=
    put_moves parse (still_moves within) request handler no_posts
  cases act with
  | resume request w => exact resume_moves enduring within request w reads
  | input request input => exact input_moves within request input
  | arrive request admission =>
    simp only [step, exchanges]
    split
    · exact put request trivial
    · exact still_moves within
  | ask request call =>
    simp only [step, exchanges]
    split
    · split
      · have moved := tokens_moves parse enduring within (Function.update s.owner call (some request))
          (show (Auth.Action.call call).Reads P override from trivial)
        have asked := put_moves parse moved request (await_within (within.requests request) call) no_posts
        exact ⟨asked.within, List.forall_mem_nil _, asked.posts⟩
      · exact still_moves within
    · exact still_moves within
  | primed request =>
    simp only [step, exchanges]
    split
    · split
      · exact put request trivial
      · exact still_moves within
    · exact still_moves within
  | replay request invocationId => exact put request (replay_within (within.requests request) invocationId)
  | drop request =>
    simp only [step, exchanges]
    split
    next call awaits =>
      split
      · have moved := tokens_moves parse enduring within s.owner
          (show (Auth.Action.cancel call).Reads P override from trivial)
        have ended := put_moves parse moved request (h := .ended) trivial no_posts
        exact ⟨ended.within, List.forall_mem_nil _, ended.posts⟩
      · exact still_moves within
    next => exact put request trivial
  | other action =>
    cases action with
    | resume call w =>
      simp only [step, exchanges]
      split
      · exact tokens_moves parse enduring within s.owner (show (Auth.Action.resume call w).Reads P override from reads w.row rfl)
      · exact still_moves within
    | call call =>
      simp only [step, exchanges]
      split
      · have moved := tokens_moves parse enduring within s.owner
          (show (Auth.Action.call call).Reads P override from trivial)
        exact ⟨moved.within, List.forall_mem_nil _, moved.posts⟩
      · exact still_moves within
    | cancel call =>
      simp only [step, exchanges]
      split
      · have moved := tokens_moves parse enduring within s.owner
          (show (Auth.Action.cancel call).Reads P override from trivial)
        exact ⟨moved.within, List.forall_mem_nil _, moved.posts⟩
      · exact still_moves within
    | invalidate =>
      have moved := tokens_moves parse enduring within s.owner
        (show Auth.Action.invalidate.Reads P override from trivial)
      exact ⟨moved.within, List.forall_mem_nil _, moved.posts⟩

theorem run_moves (enduring : Auth.Enduring P) {s : System} (within : s.Within P override) {acts : List Act}
    (reads : ∀ act ∈ acts, act.Reads P override) :
    ∀ visit ∈ visits (step parse prims x) s acts,
      Moves P override (visit.1.step parse prims x visit.2) (visit.1.exchanges parse visit.2) := by
  induction acts generalizing s with
  | nil => exact List.forall_mem_nil _
  | cons act rest ih =>
    obtain ⟨now, later⟩ := List.forall_mem_cons.1 reads
    have moves : Moves P override (s.step parse prims x act) (s.exchanges parse act) := step_moves enduring within now
    exact List.forall_mem_cons.2 ⟨moves, ih moves.within later⟩

theorem new_within (override : Option Str) : (new (.new override)).Within P override :=
  ⟨Auth.State.new_within override, fun _ => trivial⟩

theorem Moves.contacts {s : System} {act : Act}
    (moves : Moves P override (s.step parse prims x act) (s.exchanges parse act)) {contact : Contact}
    (made : contact ∈ s.contacts parse prims x act) : ∃ c, P c ∧ contact.Of c := by
  obtain sent | posted := List.mem_append.1 made
  · obtain ⟨o, inside, leads⟩ := List.mem_filterMap.1 sent
    cases o with
    | sent call seed =>
      cases leads
      exact ⟨seed, moves.seeds _ inside, rfl⟩
    | accepted call seed | refused call seed => cases leads
  · obtain ⟨happening, inside, leads⟩ := List.mem_filterMap.1 posted
    unfold postedTo at leads
    split at leads
    next request p =>
      cases leads
      exact moves.posts request p inside
    next => cases leads

end System

/-- A report of `audit`, on one of these contents, has the host; and no text of the request leads elsewhere. -/
def Audited (host : Host) (args : ServeArgs) (json : Bool) (seen : List (Str → Except Str Auth.KiroDb))
    (contact : Contact) : Prop :=
  ∃ dest, contact.To dest ∧ authority (url .production dest contact.path) = some dest.host ∧
    ∃ contents ∈ seen, ∃ r, auditReport (host.holding contents) (args.audit json) = .ok r ∧
      dest.host ∈ r.allowedOutbound

def Stored (host : Host) (cfg : ServeConfig) (seen : List (Str → Except Str Auth.KiroDb)) (c : Credentials) : Prop :=
  ∃ contents ∈ seen, ∃ stored, readCredentials (host.holding contents) cfg.dbPath = .ok stored ∧
    c.ssoRegion = stored.ssoRegion ∧
      c.runtimeRegion = (Auth.overridden (cfg.runtimeRegion.map fun r => r.region.str) stored).runtimeRegion

variable {host : Host} {args : ServeArgs} {cfg : ServeConfig} {seen : List (Str → Except Str Auth.KiroDb)}

theorem stored_enduring : Auth.Enduring (Stored host cfg seen) := fun _ _ _ _ holds => holds

theorem overridden_sso (override : Option Str) (c : Credentials) :
    (Auth.overridden override c).ssoRegion = c.ssoRegion := by
  cases override <;> rfl

theorem runtimeLine_region (started : ServeConfig.fromArgs host args = .ok cfg) (c : Credentials) :
    (runtimeLine (args.runtimeRegion.map RuntimeRegion.parse) c).region =
      (Auth.overridden (cfg.runtimeRegion.map fun r => r.region.str) c).runtimeRegion := by
  obtain ⟨_, region, _, _, _, -, served, -, -, -, rfl⟩ := Cli.fromArgs_ok.1 started
  cases given : args.runtimeRegion with
  | none =>
    rw [given] at served
    cases served
    rfl
  | some text =>
    rw [given] at served
    obtain ⟨r, parsed, rfl⟩ := Walk.map_ok.1 served
    simp only [Option.map_some, parsed]
    rfl

theorem runtime_served (override : Option RuntimeRegion) {c : Credentials} (complete : c.Complete) :
    ∃ served : RuntimeRegion,
      (Auth.overridden (override.map fun r => r.region.str) c).runtimeRegion = served.region.str := by
  cases override with
  | none => exact complete.runtimeRegion
  | some r => exact ⟨r, rfl⟩

theorem stored_audited (started : ServeConfig.fromArgs host args = .ok cfg) (json : Bool) {c : Credentials}
    (stored : Stored host cfg seen c) {contact : Contact} (names : contact.Of c) :
    Audited host args json seen contact := by
  obtain ⟨contents, inside, row, read, sso, runtime⟩ := stored
  obtain ⟨db, -, identity⟩ := Walk.bind_ok.1 read
  have complete := Auth.KiroDb.read_complete identity
  have located : Cli.Located (host.holding contents) args cfg.dbPath cfg.tokenFile := by
    obtain ⟨_, _, _, _, _, -, -, -, path, file, rfl⟩ := Cli.fromArgs_ok.1 started
    exact ⟨path, file⟩
  have report := Cli.auditReport_located located json
  have outbound : (reportAt (host.holding contents) (args.audit json) cfg.dbPath).allowedOutbound =
      hosts row.ssoRegion (Auth.overridden (cfg.runtimeRegion.map fun r => r.region.str) row).runtimeRegion := by
    rw [← runtimeLine_region started row]
    exact Cli.reportAt_outbound read
  cases contact with
  | oidc ssoRegion =>
    obtain ⟨region, same⟩ := complete.ssoRegion
    refine ⟨.oidc region, same.symm.trans (sso.symm.trans names), Net.authority_url _ (Contact.path_allowed _), contents, inside, _,
      report, ?_⟩
    rw [outbound, same]
    exact List.mem_cons_self
  | runtime text =>
    obtain ⟨served, same⟩ := runtime_served cfg.runtimeRegion complete
    refine ⟨.runtime served, same.symm.trans (runtime.symm.trans names), Net.authority_url _ (Contact.path_allowed _), contents,
      inside, _, report, ?_⟩
    rw [outbound, same]
    exact List.mem_cons_of_mem _ List.mem_cons_self

/-- Wherever a server sends something, for any number of requests and however they interleave, `audit` says so: its
report on one of the contents that the database has had lists the host. -/
theorem traffic_audited (started : ServeConfig.fromArgs host args = .ok cfg) (json : Bool) (acts : List Act)
    (reads : ∀ act ∈ acts, ∀ row ∈ act.row, ∃ contents ∈ seen, row = readCredentials (host.holding contents) cfg.dbPath) :
    let source := Auth.TokenSource.new (cfg.runtimeRegion.map fun r => r.region.str)
    ∀ visit ∈ visits (System.step parse prims x) (System.new source) acts,
      ∀ contact ∈ visit.1.contacts parse prims x visit.2, Audited host args json seen contact := by
  intro source visit visited contact made
  have good : ∀ act ∈ acts, act.Reads (Stored host cfg seen) (cfg.runtimeRegion.map fun r => r.region.str) := by
    rintro act inside row there c rfl
    obtain ⟨contents, among, read⟩ := reads act inside _ there
    exact ⟨contents, among, c, read.symm, overridden_sso _ c, rfl⟩
  have moves := System.run_moves (x := x) stored_enduring (System.new_within _) good visit visited
  obtain ⟨c, stored, names⟩ := moves.contacts made
  exact stored_audited started json stored names

def sampleTokenText : Str :=
  "\x7b\"accessToken\":\"a\",\"refreshToken\":\"b\",\"expiresAt\":1000,\"region\":\"us-east-1\"\x7d".toList

def sampleRegistrationText : Str := "\x7b\"clientId\":\"c\",\"clientSecret\":\"d\"\x7d".toList

def sampleToken : Value :=
  .object [("accessToken".toList, .string "a".toList), ("refreshToken".toList, .string "b".toList),
    ("expiresAt".toList, .number (.posInt 1000)), ("region".toList, .string "us-east-1".toList)]

def sampleRegistration : Value :=
  .object [("clientId".toList, .string "c".toList), ("clientSecret".toList, .string "d".toList)]

def sampleReaders : Auth.Readers where
  fromStr text :=
    if text = sampleTokenText then some sampleToken
    else if text = sampleRegistrationText then some sampleRegistration
    else none
  parseExpiresAt
    | some (.number (.posInt seconds)) => some (seconds.toNat * Auth.second)
    | _ => none
  debug := id

def sampleDb : Auth.KiroDb where
  authKv key :=
    if key = "kirocli:odic:token".toList then some (.text sampleTokenText.bytes)
    else if key = "kirocli:odic:device-registration".toList then some (.text sampleRegistrationText.bytes)
    else none
  state _ := none
  queryOnly := some 1

def sampleStored : Credentials :=
  ⟨"a".toList, "b".toList, "c".toList, "d".toList, 1000 * Auth.second, "us-east-1".toList, "us-east-1".toList, []⟩

theorem sampleDb_token : sampleDb.tokenJson = .ok sampleTokenText := by
  have found : sampleDb.authKv "kirocli:odic:token".toList = some (.text sampleTokenText.bytes) := rfl
  simp only [Auth.KiroDb.tokenJson, Auth.KiroDb.firstAuthKv, Auth.tokenKeys, List.findSome?_cons, found,
    Option.bind_some, Auth.textOrUtf8Blob, Str.fromUtf8_bytes]

theorem sampleDb_registration : sampleDb.firstAuthKv Auth.registrationKeys = some sampleRegistrationText := by
  have found : sampleDb.authKv "kirocli:odic:device-registration".toList = some (.text sampleRegistrationText.bytes) :=
    rfl
  simp only [Auth.KiroDb.firstAuthKv, Auth.registrationKeys, List.findSome?_cons, found, Option.bind_some,
    Auth.textOrUtf8Blob, Str.fromUtf8_bytes]

theorem sampleDb_read : sampleDb.readIdentityCenter sampleReaders = .ok sampleStored := by
  simp only [Auth.KiroDb.readIdentityCenter, sampleDb_token, sampleDb_registration]
  decide +kernel

def sampleHost : Host where
  readers := sampleReaders
  socketAddr text := if text = "127.0.0.1:3456".toList then some ⟨text, true⟩ else none
  defaultDbPath := some "/home/user/.local/share/kiro-cli/data.sqlite3".toList
  defaultTokenFile := some "/run/user/1000/kiro-trust/token".toList
  readFile _ := .error "No such file or directory (os error 2)".toList
  pemBlocks _ := []
  openDb _ := .error "unable to open database file".toList
  tokenVar := none
  abbreviatePath := id
  abbreviateMessage := id
  rfc3339 _ := none
  version := "0.3.0".toList
  commit := "unknown".toList
  captureCompiled := false
  testEndpointsCompiled := false

def sampleArgs : ServeArgs := ⟨"127.0.0.1:3456".toList, none, none, none, "info".toList, false, none⟩

def sampleConfig : ServeConfig :=
  ⟨⟨"127.0.0.1:3456".toList, true⟩, "/home/user/.local/share/kiro-cli/data.sqlite3".toList, none,
    "/run/user/1000/kiro-trust/token".toList, none, "info".toList, false, none, none⟩

def sampleContents : Str → Except Str Auth.KiroDb := fun _ => .ok sampleDb

theorem sampleContents_read (path : Str) : readCredentials (sampleHost.holding sampleContents) path = .ok sampleStored := by
  have opened : Cli.openReadOnly (sampleHost.holding sampleContents) path = .ok sampleDb := rfl
  have readers : (sampleHost.holding sampleContents).readers = sampleReaders := rfl
  simp only [readCredentials, opened, readers, bind, Except.bind, sampleDb_read]

theorem sampleActs_rows (stored : Credentials) :
    ∀ act ∈ sampleActs stored, ∀ row ∈ act.row, row = .ok stored := by
  simp [sampleActs, Act.row]

theorem sampleConfig_started : ServeConfig.fromArgs sampleHost sampleArgs = .ok sampleConfig := rfl

theorem traffic_audited_sample :
    let acts := sampleActs sampleStored
    let visited := visits (System.step (fun _ => none) samplePrimitives sampleExternals)
      (System.new (Auth.TokenSource.new none)) acts
    ∃ visit ∈ visited, ∃ contact ∈ visit.1.contacts (fun _ => none) samplePrimitives sampleExternals visit.2,
      Audited sampleHost sampleArgs true [sampleContents] contact := by
  intro acts visited
  have reads : ∀ act ∈ acts, ∀ row ∈ act.row, ∃ contents ∈ [sampleContents],
      row = readCredentials (sampleHost.holding contents) sampleConfig.dbPath := by
    intro act inside row there
    refine ⟨sampleContents, List.mem_cons_self, ?_⟩
    rw [sampleActs_rows sampleStored act inside row there, sampleContents_read]
  have some : (visited.any fun visit =>
      !(visit.1.contacts (fun _ => none) samplePrimitives sampleExternals visit.2).isEmpty) = true := by decide +kernel
  obtain ⟨visit, visiting, contacts⟩ := List.any_eq_true.1 some
  obtain ⟨contact, made⟩ := List.exists_mem_of_ne_nil _ (by simpa using contacts)
  exact ⟨visit, visiting, contact, made, traffic_audited sampleConfig_started true acts reads visit visiting contact made⟩

end KiroTrust.Server
