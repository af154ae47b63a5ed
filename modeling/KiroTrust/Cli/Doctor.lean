import KiroTrust.Cli.Audit
import KiroTrust.Server.Router

set_option autoImplicit false

namespace KiroTrust.Cli

open Auth (AuthError Credentials KiroDb Time)
open Net (RuntimeRegion)
open Walk (bind_ok map_ok)

/-! `doctor.rs`, and the health probe of `client.rs`. -/

inductive DoctorCheckName where
  | configuration
  | database
  | credentialExpiry
  | localToken
  | listener
  deriving DecidableEq

inductive DoctorStatus where
  | ok
  | warning
  | error
  | skipped
  deriving DecidableEq

inductive DoctorDetail where
  | valid
  | invalidConfiguration
  | readOnly
  | databaseUnavailable
  | credentialInvalid
  | refreshRequired
  | expired
  | credentialUnavailable
  | explicitTokenConfigured
  | privateFile
  | tokenFileMissing
  | tokenMetadataUnreadable
  | unsafeTokenFile
  | aclNotVerified
  | networkDisabled
  | healthy
  | healthProbeFailed
  deriving DecidableEq

structure DoctorCheck where
  name : DoctorCheckName
  status : DoctorStatus
  detail : DoctorDetail
  deriving DecidableEq

structure DoctorPaths where
  database : Option Str
  tokenFile : Option Str
  extraCa : Option Str

structure DoctorReport where
  version : Str
  paths : DoctorPaths
  checks : List DoctorCheck

structure DoctorArgs where
  json : Bool
  network : Bool
  listen : Str
  kiroDb : Option Str
  runtimeRegion : Option Str
  tokenFile : Option Str
  extraCa : Option Str

def ServeArgs.doctor (args : ServeArgs) (json network : Bool) : DoctorArgs :=
  ⟨json, network, args.listen, args.kiroDb, args.runtimeRegion, args.tokenFile, args.extraCa⟩

/-- What `symlink_metadata` tells of the token file. -/
structure Metadata where
  regularFile : Bool
  mode : Nat

inductive MetadataError where
  | notFound
  | other

structure HealthResponse where
  status : Nat
  contentType : Option (List UInt8)
  chunks : List (Option (List UInt8))

structure Findings where
  now : Time
  tokenFile : Str → Except MetadataError Metadata
  health : Option HealthResponse

def healthProbeMaxBody : Nat := 256

def healthBody : Str := "\x7b\"status\":\"ok\"\x7d".toList

def readProbe (body : List UInt8) : List (Option (List UInt8)) → Option (List UInt8)
  | [] => some body
  | none :: _ => none
  | some chunk :: rest =>
    if body.length + chunk.length > healthProbeMaxBody then none else readProbe (body ++ chunk) rest

def probeLoopbackHealth (addr : SocketAddr) (health : Option HealthResponse) : Bool :=
  addr.loopback &&
    match health with
    | none => false
    | some response =>
      response.status = 200 &&
        (response.contentType.bind Server.toStr).map Translate.trim = some "application/json".toList &&
        readProbe [] response.chunks = some healthBody.bytes

/-- On Unix. -/
def tokenFileCheck (host : Host) (metadata : Except MetadataError Metadata) : DoctorCheck :=
  if host.tokenVar.isSome then ⟨.localToken, .ok, .explicitTokenConfigured⟩
  else
    match metadata with
    | .ok file =>
      if !file.regularFile then ⟨.localToken, .error, .unsafeTokenFile⟩
      else if file.mode &&& 0o077 ≠ 0 then ⟨.localToken, .error, .unsafeTokenFile⟩
      else ⟨.localToken, .ok, .privateFile⟩
    | .error .notFound => ⟨.localToken, .warning, .tokenFileMissing⟩
    | .error .other => ⟨.localToken, .error, .tokenMetadataUnreadable⟩

def expiryCheck (now : Time) (c : Credentials) : DoctorCheck :=
  if c.expiresAt < now then ⟨.credentialExpiry, .warning, .expired⟩
  else if c.expiresAt - now > 300 * Auth.second then ⟨.credentialExpiry, .ok, .valid⟩
  else ⟨.credentialExpiry, .warning, .refreshRequired⟩

def databaseChecks (host : Host) (now : Time) (database : Except ConfigError Str) : DoctorCheck × DoctorCheck :=
  match database with
  | .error _ => (⟨.database, .skipped, .invalidConfiguration⟩, ⟨.credentialExpiry, .skipped, .invalidConfiguration⟩)
  | .ok path =>
    let unavailable : DoctorCheck := ⟨.credentialExpiry, .skipped, .credentialUnavailable⟩
    match openReadOnly host path with
    | .error _ => (⟨.database, .error, .databaseUnavailable⟩, unavailable)
    | .ok db =>
      if !db.isReadOnly then (⟨.database, .error, .credentialInvalid⟩, unavailable)
      else
        match db.readIdentityCenter host.readers with
        | .error _ => (⟨.database, .error, .credentialInvalid⟩, unavailable)
        | .ok c => (⟨.database, .ok, .readOnly⟩, expiryCheck now c)

def listenerCheck (args : DoctorArgs) (found : Findings) (listen : Except ConfigError SocketAddr) : DoctorCheck :=
  match listen with
  | .error _ => ⟨.listener, .skipped, .invalidConfiguration⟩
  | .ok addr =>
    if !args.network then ⟨.listener, .skipped, .networkDisabled⟩
    else if probeLoopbackHealth addr found.health then ⟨.listener, .ok, .healthy⟩
    else ⟨.listener, .error, .healthProbeFailed⟩

def doctorReport (host : Host) (found : Findings) (args : DoctorArgs) : DoctorReport :=
  let listen := parseListen host args.listen
  let runtimeRegion := parseRegion args.runtimeRegion
  let database := resolveDbPath host args.kiroDb
  let tokenFile := resolveTokenFile host args.tokenFile
  let extraCa := readExtraCa host args.extraCa
  let configurationOk :=
    listen.isOk && runtimeRegion.isOk && database.isOk && tokenFile.isOk && extraCa.isOk
  let configuration : DoctorCheck :=
    if configurationOk then ⟨.configuration, .ok, .valid⟩ else ⟨.configuration, .error, .invalidConfiguration⟩
  let credential := databaseChecks host found.now database
  let localToken : DoctorCheck :=
    match tokenFile with
    | .ok path => tokenFileCheck host (found.tokenFile path)
    | .error _ => ⟨.localToken, .skipped, .invalidConfiguration⟩
  { version := host.version
    paths :=
      ⟨database.toOption.map host.abbreviatePath, tokenFile.toOption.map host.abbreviatePath,
        args.extraCa.map host.abbreviatePath⟩
    checks := [configuration, credential.1, credential.2, localToken, listenerCheck args found listen] }

def DoctorReport.exitCode (report : DoctorReport) : Nat :=
  if report.checks.any fun check => check.status = .error then 1 else 0

theorem readProbe_iff (body whole : List UInt8) (fits : body.length ≤ healthProbeMaxBody)
    (chunks : List (Option (List UInt8))) :
    readProbe body chunks = some whole ↔
      ∃ read : List (List UInt8), chunks = read.map some ∧ whole = body ++ read.flatten ∧ whole.length ≤ healthProbeMaxBody := by
  induction chunks generalizing body with
  | nil =>
    simp only [readProbe, Option.some.injEq]
    constructor
    · rintro rfl
      exact ⟨[], rfl, by simp, fits⟩
    · rintro ⟨read, none, rfl, -⟩
      simp [List.map_eq_nil_iff.1 none.symm]
  | cons chunk rest ih =>
    cases chunk with
    | none =>
      simp only [readProbe, reduceCtorEq, false_iff]
      rintro ⟨read, same, -⟩
      cases read <;> simp at same
    | some chunk =>
      simp only [readProbe]
      split
      next long =>
        simp only [reduceCtorEq, false_iff]
        rintro ⟨read, same, rfl, short⟩
        obtain ⟨first, later, rfl, here, -⟩ := List.map_eq_cons_iff.1 same.symm
        cases here
        simp at short
        omega
      next short =>
        have longer : (body ++ chunk).length ≤ healthProbeMaxBody := by
          rw [List.length_append]
          exact Nat.not_lt.1 short
        rw [ih (body ++ chunk) longer]
        constructor
        · rintro ⟨read, rfl, whole, fits⟩
          exact ⟨chunk :: read, rfl, by simpa using whole, fits⟩
        · rintro ⟨read, same, whole, fits⟩
          obtain ⟨first, later, rfl, same, rfl⟩ := List.map_eq_cons_iff.1 same.symm
          cases same
          exact ⟨later, rfl, by simpa using whole, fits⟩

theorem probe_iff (addr : SocketAddr) (health : Option HealthResponse) :
    probeLoopbackHealth addr health = true ↔
      addr.loopback = true ∧ ∃ (response : HealthResponse) (read : List (List UInt8)), health = some response ∧ response.status = 200 ∧
        (response.contentType.bind Server.toStr).map Translate.trim = some "application/json".toList ∧
          response.chunks = read.map some ∧ read.flatten = healthBody.bytes := by
  have room : ([] : List UInt8).length ≤ healthProbeMaxBody := Nat.zero_le _
  have short : healthBody.bytes.length ≤ healthProbeMaxBody := by decide
  cases health with
  | none => simp [probeLoopbackHealth]
  | some response =>
    simp only [probeLoopbackHealth, Bool.and_eq_true, decide_eq_true_eq, readProbe_iff [] _ room, List.nil_append]
    constructor
    · rintro ⟨loopback, ⟨status, json⟩, read, chunks, whole, -⟩
      exact ⟨loopback, response, read, rfl, status, json, chunks, whole.symm⟩
    · rintro ⟨loopback, _, read, here, status, json, chunks, whole⟩
      cases here
      exact ⟨loopback, ⟨status, json⟩, read, chunks, whole.symm, short⟩

theorem isOk_iff {E A : Type} {source : Except E A} : source.isOk = true ↔ ∃ value, source = .ok value := by
  cases source <;> simp [Except.isOk, Except.toBool]

variable {host : Host} {args : ServeArgs}

variable (host) (args) in
structure Ready (cfg : ServeConfig) (db : KiroDb) (c : Credentials) : Prop where
  config : ServeConfig.fromArgs host args = .ok cfg
  opened : openReadOnly host cfg.dbPath = .ok db
  readOnly : db.isReadOnly = true
  read : db.readIdentityCenter host.readers = .ok c

theorem listenerLine_clean (listen : Str) :
    (listenerLine host listen).2 = [] ↔ ∃ addr, parseListen host listen = .ok addr := by
  unfold listenerLine
  split <;> simp [*]

theorem regionProblems_clean (region : Option Str) :
    regionProblems host (region.map RuntimeRegion.parse) = [] ↔ ∃ r, parseRegion region = .ok r := by
  cases region with
  | none => simp [regionProblems, parseRegion]
  | some region =>
    cases parsed : RuntimeRegion.parse region <;> simp [regionProblems, parseRegion, parsed, Except.map]

theorem extraCaLine_clean (path : Option Str) :
    (extraCaLine host path).2 = [] ↔ ∃ ca, readExtraCa host path = .ok ca := by
  unfold extraCaLine
  split <;> simp [*]

theorem modeLine_clean (opened : Except AuthError KiroDb) :
    (modeLine opened).2 = [] ↔ ∀ db, opened = .ok db → db.isReadOnly = true := by
  cases opened with
  | error e =>
    refine iff_of_true rfl fun db same => ?_
    cases same
  | ok db =>
    by_cases readOnly : db.isReadOnly = true
    · have line : modeLine (.ok db) = ("read-only, authorizer enforced".toList, []) := if_pos readOnly
      rw [line]
      refine iff_of_true rfl fun other same => ?_
      cases same
      exact readOnly
    · have line : modeLine (.ok db) = (_, [_]) := if_neg readOnly
      rw [line]
      exact iff_of_false (List.cons_ne_nil _ _) fun each => readOnly (each db rfl)

theorem credentialLines_clean (regionArg : Option (Except Net.RegionError RuntimeRegion))
    (creds : Except AuthError Credentials) :
    (credentialLines host regionArg creds).2 = [] ↔ ∃ c, creds = .ok c := by
  cases creds with
  | ok c => exact iff_of_true rfl ⟨c, rfl⟩
  | error e =>
    refine iff_of_false (List.cons_ne_nil _ _) ?_
    rintro ⟨c, same⟩
    cases same

theorem problemsAt_clean (json : Bool) (dbPath : Str) :
    problemsAt host (args.audit json) dbPath = [] ↔ features host = [] ∧
      (∃ addr, parseListen host args.listen = .ok addr) ∧ (∃ r, parseRegion args.runtimeRegion = .ok r) ∧
        (∃ ca, readExtraCa host args.extraCa = .ok ca) ∧
          (∀ db, openReadOnly host dbPath = .ok db → db.isReadOnly = true) ∧
            ∃ c, readCredentials host dbPath = .ok c := by
  simp only [problemsAt, ServeArgs.audit, List.append_eq_nil_iff, List.map_eq_nil_iff, listenerLine_clean,
    regionProblems_clean, extraCaLine_clean, modeLine_clean, credentialLines_clean]
  constructor
  · rintro ⟨⟨⟨⟨⟨addr, region⟩, ca⟩, mode⟩, creds⟩, plain⟩
    exact ⟨plain, addr, region, ca, mode, creds⟩
  · rintro ⟨plain, addr, region, ca, mode, creds⟩
    exact ⟨⟨⟨⟨⟨addr, region⟩, ca⟩, mode⟩, creds⟩, plain⟩

theorem ready_located {cfg : ServeConfig} {db : KiroDb} {c : Credentials} (ready : Ready host args cfg db c) :
    Located host args cfg.dbPath cfg.tokenFile := by
  obtain ⟨listen, region, ca, dbPath, tokenFile, -, -, -, path, file, same⟩ := fromArgs_ok.1 ready.config
  rw [same]
  exact ⟨path, file⟩

theorem audit_code (json : Bool) :
    auditRun host (args.audit json) = 0 ↔
      ∃ r, auditReport host (args.audit json) = .ok r ∧ r.problems = [] := by
  unfold auditRun
  cases auditReport host (args.audit json) <;> simp [AuditReport.exitCode]

theorem audit_clean (json : Bool) :
    auditRun host (args.audit json) = 0 ↔ features host = [] ∧ ∃ cfg db c, Ready host args cfg db c := by
  rw [audit_code]
  constructor
  · rintro ⟨r, reports, clean⟩
    obtain ⟨dbPath, tokenFile, located, rfl⟩ := auditReport_ok reports
    obtain ⟨plain, ⟨addr, listens⟩, ⟨region, served⟩, ⟨ca, anchors⟩, mode, c, read⟩ :=
      (problemsAt_clean json dbPath).1 clean
    obtain ⟨db, opened, credential⟩ := bind_ok.1 read
    have config := fromArgs_ok.2 ⟨addr, region, ca, dbPath, tokenFile, listens, served, anchors, located.1, located.2, rfl⟩
    exact ⟨plain, _, db, c, config, opened, mode db opened, credential⟩
  · rintro ⟨plain, cfg, db, c, ready⟩
    refine ⟨_, auditReport_located (ready_located ready) json, (problemsAt_clean json cfg.dbPath).2 ?_⟩
    obtain ⟨listen, region, ca, path, file, address, served, anchors, -, -, -⟩ := fromArgs_ok.1 ready.config
    refine ⟨plain, ⟨listen, address⟩, ⟨region, served⟩, ⟨ca, anchors⟩, fun other opened => ?_, c, ?_⟩
    · obtain rfl := Except.ok.inj (opened.symm.trans ready.opened)
      exact ready.readOnly
    · exact bind_ok.2 ⟨db, ready.opened, ready.read⟩

theorem expiry_mild (now : Time) (database : Except ConfigError Str) :
    (databaseChecks host now database).2.status ≠ .error := by
  have mild (c : Credentials) : (expiryCheck now c).status ≠ .error := by
    unfold expiryCheck
    split_ifs <;> decide
  have skipped : DoctorStatus.skipped ≠ .error := by decide
  unfold databaseChecks
  cases database with
  | error e => exact skipped
  | ok path =>
    simp only
    cases openReadOnly host path with
    | error e => exact skipped
    | ok db =>
      simp only
      split
      next => exact skipped
      next =>
        cases db.readIdentityCenter host.readers with
        | error e => exact skipped
        | ok c => exact mild c

theorem databaseChecks_clean (now : Time) (path : Str) :
    (databaseChecks host now (.ok path)).1.status ≠ .error ↔
      ∃ db c, openReadOnly host path = .ok db ∧ db.isReadOnly = true ∧ db.readIdentityCenter host.readers = .ok c := by
  simp only [databaseChecks]
  cases openReadOnly host path with
  | error e => simp
  | ok db =>
    cases readOnly : db.isReadOnly with
    | false => simp [readOnly]
    | true => cases read : db.readIdentityCenter host.readers <;> simp [readOnly, read]

variable (args) in
theorem listenerCheck_clean (json network : Bool) (found : Findings) (addr : SocketAddr) :
    (listenerCheck (args.doctor json network) found (.ok addr)).status ≠ .error ↔
      (network = true → probeLoopbackHealth addr found.health = true) := by
  simp only [listenerCheck, ServeArgs.doctor]
  cases network with
  | false => simp
  | true => cases probeLoopbackHealth addr found.health <;> simp

theorem doctor_code (found : Findings) (doctor : DoctorArgs) :
    (doctorReport host found doctor).exitCode = 0 ↔
      ∀ check ∈ (doctorReport host found doctor).checks, check.status ≠ .error := by
  simp [DoctorReport.exitCode]

theorem doctor_clean (json network : Bool) (found : Findings) :
    (doctorReport host found (args.doctor json network)).exitCode = 0 ↔
      ∃ cfg db c, Ready host args cfg db c ∧
        (tokenFileCheck host (found.tokenFile cfg.tokenFile)).status ≠ .error ∧
          (network = true → probeLoopbackHealth cfg.listen found.health = true) := by
  rw [doctor_code]
  simp only [doctorReport, List.forall_mem_cons, expiry_mild, ne_eq, not_false_eq_true, true_and]
  constructor
  · rintro ⟨config, database, token, listener, -⟩
    have all : (parseListen host args.listen).isOk ∧ (parseRegion args.runtimeRegion).isOk ∧
        (resolveDbPath host args.kiroDb).isOk ∧ (resolveTokenFile host args.tokenFile).isOk ∧
          (readExtraCa host args.extraCa).isOk := by
      split at config
      next fine => simpa [ServeArgs.doctor, and_assoc] using fine
      next => exact absurd rfl config
    simp only [isOk_iff] at all
    obtain ⟨⟨addr, listens⟩, ⟨region, served⟩, ⟨dbPath, path⟩, ⟨tokenFile, file⟩, ca, anchors⟩ := all
    have config := fromArgs_ok.2 ⟨addr, region, ca, dbPath, tokenFile, listens, served, anchors, path, file, rfl⟩
    simp only [ServeArgs.doctor, path] at database
    obtain ⟨db, c, opened, readOnly, read⟩ := (databaseChecks_clean found.now dbPath).1 database
    simp only [ServeArgs.doctor, file] at token
    simp only [ServeArgs.doctor, listens] at listener
    exact ⟨_, db, c, ⟨config, opened, readOnly, read⟩, token, (listenerCheck_clean args json network found addr).1 listener⟩
  · rintro ⟨cfg, db, c, ⟨config, opened, readOnly, read⟩, token, listener⟩
    obtain ⟨addr, region, ca, dbPath, tokenFile, listens, served, anchors, path, file, rfl⟩ := fromArgs_ok.1 config
    have fine : ((parseListen host args.listen).isOk && (parseRegion args.runtimeRegion).isOk &&
        (resolveDbPath host args.kiroDb).isOk && (resolveTokenFile host args.tokenFile).isOk &&
          (readExtraCa host args.extraCa).isOk) = true := by
      rw [listens, served, path, file, anchors]
      rfl
    refine ⟨?_, ?_, ?_, ?_, List.forall_mem_nil _⟩
    · simp only [ServeArgs.doctor, fine, if_true]
      decide
    · simp only [ServeArgs.doctor, path]
      exact (databaseChecks_clean found.now dbPath).2 ⟨db, c, opened, readOnly, read⟩
    · simp only [ServeArgs.doctor, file]
      exact token
    · have answers := (listenerCheck_clean args json network found addr).2 listener
      simp only [ServeArgs.doctor, listens] at answers ⊢
      exact answers

/-- The exit codes of both diagnoses tell whether `serve` could start with these flags: `audit` besides that nothing
of the development build is in, `doctor` besides that the token file is private and that a listener that is asked is
healthy. Only `audit` knows a third code, where a path does not resolve. -/
theorem diagnoses_agree (host : Host) (args : ServeArgs) (json network : Bool) (found : Findings) :
    (auditRun host (args.audit json) = 0 ↔ features host = [] ∧ ∃ cfg db c, Ready host args cfg db c) ∧
      ((doctorReport host found (args.doctor json network)).exitCode = 0 ↔
        ∃ cfg db c, Ready host args cfg db c ∧
          (tokenFileCheck host (found.tokenFile cfg.tokenFile)).status ≠ .error ∧
            (network = true → probeLoopbackHealth cfg.listen found.health = true)) ∧
      (auditRun host (args.audit json) = 2 ↔ ∀ dbPath tokenFile, ¬ Located host args dbPath tokenFile) := by
  refine ⟨audit_clean json, doctor_clean json network found, ?_⟩
  unfold auditRun
  cases reports : auditReport host (args.audit json) with
  | ok r =>
    obtain ⟨dbPath, tokenFile, located, -⟩ := auditReport_ok reports
    refine iff_of_false ?_ fun lost => lost dbPath tokenFile located
    simp only [AuditReport.exitCode]
    split <;> decide
  | error e =>
    refine iff_of_true rfl fun dbPath tokenFile located => ?_
    rw [auditReport_located located] at reports
    cases reports

end KiroTrust.Cli
