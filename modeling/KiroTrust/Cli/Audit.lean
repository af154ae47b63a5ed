import KiroTrust.Cli.Config
import KiroTrust.Net.Url

set_option autoImplicit false

namespace KiroTrust.Cli

open Auth (AuthError Credentials KiroDb)
open EventStream (decimal)
open Net (RegionError RuntimeRegion)
open Walk (bind_ok)

/-! `audit.rs`, with the flags of `serve`. -/

structure AuditArgs where
  json : Bool
  listen : Str
  kiroDb : Option Str
  runtimeRegion : Option Str
  tokenFile : Option Str
  shareContent : Bool
  extraCa : Option Str

def ServeArgs.audit (args : ServeArgs) (json : Bool) : AuditArgs :=
  ⟨json, args.listen, args.kiroDb, args.runtimeRegion, args.tokenFile, args.shareContent, args.extraCa⟩

structure CredentialSource where
  path : Str
  mode : Str

structure Authentication where
  kind : Str
  ssoRegion : Str
  tokenExpires : Str

structure Runtime where
  region : Str
  source : Str

structure AuditReport where
  version : Str
  commit : Str
  credentialSource : CredentialSource
  authentication : Authentication
  runtime : Runtime
  allowedOutbound : List Str
  tlsRoots : Str
  extraCa : Str
  httpProxy : Str
  redirects : Str
  localListener : Str
  localAuthentication : Str
  connectionLimits : Str
  telemetry : Str
  contentSharing : Str
  requestBodyLogging : Str
  doctorNetwork : Str
  dynamicModelDiscovery : Str
  automaticUpdates : Str
  buildFeatures : List Str
  problems : List Str

def maxConnections : Nat := 32

def headerReadTimeoutSecs : Nat := 15

abbrev Noted (A : Type) := A × List Str

variable (host : Host)

def listenerLine (listen : Str) : Noted Str :=
  match parseListen host listen with
  | .ok addr => (addr.shown, [])
  | .error e => (listen, [e.display host.readers.debug])

def regionProblems : Option (Except RegionError RuntimeRegion) → List Str
  | some (.error e) => [e.display host.readers.debug]
  | _ => []

def extraCaLine (path : Option Str) : Noted Str :=
  match readExtraCa host path with
  | .ok none => ("none".toList, [])
  | .ok (some _) => (host.abbreviatePath (path.getD []), [])
  | .error e => (host.abbreviatePath (path.getD []), [host.abbreviateMessage (e.display host.readers.debug)])

def modeLine : Except AuthError KiroDb → Noted Str
  | .ok db =>
    if db.isReadOnly then ("read-only, authorizer enforced".toList, [])
    else
      ("NOT read-only (query_only pragma unset)".toList,
        ["database connection is not read-only: PRAGMA query_only reports false".toList])
  | .error _ => ("unavailable (could not open the database)".toList, [])

/-- `Destination::host` of both destinations; a credential keeps its regions as they are printed. -/
def hosts (ssoRegion runtimeRegion : Str) : List Str :=
  ["oidc.".toList ++ ssoRegion ++ ".amazonaws.com".toList, "runtime.".toList ++ runtimeRegion ++ ".kiro.dev".toList]

def runtimeLine (regionArg : Option (Except RegionError RuntimeRegion)) (c : Credentials) : Runtime :=
  match regionArg with
  | some (.ok r) => ⟨r.region.str, "from --runtime-region".toList⟩
  | some (.error _) | none => ⟨c.runtimeRegion, "from profile".toList⟩

def credentialLines (regionArg : Option (Except RegionError RuntimeRegion)) (creds : Except AuthError Credentials) :
    Noted (Authentication × Runtime × List Str) :=
  match creds with
  | .ok c =>
    let runtime := runtimeLine regionArg c
    let expires := (host.rfc3339 c.expiresAt).getD "unknown".toList
    ((⟨"AWS IAM Identity Center".toList, c.ssoRegion, expires ++ " (refresh on demand)".toList⟩, runtime,
      hosts c.ssoRegion runtime.region), [])
  | .error e =>
    ((⟨"unavailable".toList, "-".toList, "-".toList⟩, ⟨"-".toList, "-".toList⟩, []),
      [host.abbreviateMessage ("credential: ".toList ++ e.display)])

def features : List Str :=
  (if host.captureCompiled then ["capture".toList] else []) ++
    if host.testEndpointsCompiled then ["test-endpoints".toList] else []

def problemsAt (args : AuditArgs) (dbPath : Str) : List Str :=
  let regionArg := args.runtimeRegion.map RuntimeRegion.parse
  (listenerLine host args.listen).2 ++ regionProblems host regionArg ++ (extraCaLine host args.extraCa).2 ++
    (modeLine (openReadOnly host dbPath)).2 ++ (credentialLines host regionArg (readCredentials host dbPath)).2 ++
      (features host).map fun f => "development feature ".toList ++ f ++ " is compiled in".toList

def reportAt (args : AuditArgs) (dbPath : Str) : AuditReport :=
  let regionArg := args.runtimeRegion.map RuntimeRegion.parse
  let credential := (credentialLines host regionArg (readCredentials host dbPath)).1
  { version := host.version
    commit := host.commit
    credentialSource := ⟨host.abbreviatePath dbPath, (modeLine (openReadOnly host dbPath)).1⟩
    authentication := credential.1
    runtime := credential.2.1
    allowedOutbound := credential.2.2
    tlsRoots := "webpki-roots (compiled in)".toList
    extraCa := (extraCaLine host args.extraCa).1
    httpProxy := "disabled (environment ignored)".toList
    redirects := "rejected".toList
    localListener := (listenerLine host args.listen).1
    localAuthentication := "required (token file 0600)".toList
    connectionLimits :=
      decimal maxConnections ++ " connections, ".toList ++ decimal headerReadTimeoutSecs ++
        "s header read timeout".toList
    telemetry := "none".toList
    contentSharing :=
      if args.shareContent then "enabled (--share-content)".toList
      else "opted out (x-amzn-codewhisperer-optout: true)".toList
    requestBodyLogging := "disabled (no flag exists)".toList
    doctorNetwork := "explicit unauthenticated GET /health to configured loopback".toList
    dynamicModelDiscovery := "disabled".toList
    automaticUpdates := "disabled".toList
    buildFeatures := features host
    problems := problemsAt host args dbPath }

/-- `report` -/
def auditReport (args : AuditArgs) : Except Str AuditReport := do
  let dbPath ← (resolveDbPath host args.kiroDb).mapError (·.display host.readers.debug)
  -- The token file is resolved, and never shown.
  let _ ← (resolveTokenFile host args.tokenFile).mapError (·.display host.readers.debug)
  return reportAt host args dbPath

def AuditReport.exitCode (r : AuditReport) : Nat := if r.problems = [] then 0 else 1

/-- The exit code of `audit`. -/
def auditRun (args : AuditArgs) : Nat :=
  match auditReport host args with
  | .ok r => r.exitCode
  | .error _ => 2

theorem mapError_ok {E F A : Type} {source : Except E A} {f : E → F} {value : A} :
    source.mapError f = .ok value ↔ source = .ok value := by
  cases source <;> simp [Except.mapError]

variable {host} {args : ServeArgs}

theorem fromArgs_ok {cfg : ServeConfig} :
    ServeConfig.fromArgs host args = .ok cfg ↔
      ∃ listen runtimeRegion extraCa dbPath tokenFile, parseListen host args.listen = .ok listen ∧
        parseRegion args.runtimeRegion = .ok runtimeRegion ∧ readExtraCa host args.extraCa = .ok extraCa ∧
          resolveDbPath host args.kiroDb = .ok dbPath ∧ resolveTokenFile host args.tokenFile = .ok tokenFile ∧
            cfg = ⟨listen, dbPath, runtimeRegion, tokenFile, (host.tokenVar.bind Str.fromUtf8).filter (· ≠ []),
              args.logLevel, args.shareContent, args.extraCa, extraCa⟩ := by
  simp only [ServeConfig.fromArgs, bind_ok, mapError_ok, pure, Except.pure, Except.ok.injEq]
  constructor
  · rintro ⟨listen, address, region, served, ca, anchors, db, path, token, file, rfl⟩
    exact ⟨listen, region, ca, db, token, address, served, anchors, path, file, rfl⟩
  · rintro ⟨listen, region, ca, db, token, address, served, anchors, path, file, rfl⟩
    exact ⟨listen, address, region, served, ca, anchors, db, path, token, file, rfl⟩

def Located (host : Host) (args : ServeArgs) (dbPath tokenFile : Str) : Prop :=
  resolveDbPath host args.kiroDb = .ok dbPath ∧ resolveTokenFile host args.tokenFile = .ok tokenFile

theorem auditReport_located {dbPath tokenFile : Str} (located : Located host args dbPath tokenFile) (json : Bool) :
    auditReport host (args.audit json) = .ok (reportAt host (args.audit json) dbPath) := by
  obtain ⟨db, token⟩ := located
  exact bind_ok.2 ⟨dbPath, mapError_ok.2 db, bind_ok.2 ⟨tokenFile, mapError_ok.2 token, rfl⟩⟩

theorem reportAt_outbound {json : Bool} {dbPath : Str} {c : Credentials} (read : readCredentials host dbPath = .ok c) :
    (reportAt host (args.audit json) dbPath).allowedOutbound =
      hosts c.ssoRegion (runtimeLine (args.runtimeRegion.map RuntimeRegion.parse) c).region := by
  have outbound : (reportAt host (args.audit json) dbPath).allowedOutbound =
      (credentialLines host (args.runtimeRegion.map RuntimeRegion.parse) (readCredentials host dbPath)).1.2.2 := rfl
  rw [outbound, read]
  rfl

theorem auditReport_ok {json : Bool} {r : AuditReport} (reports : auditReport host (args.audit json) = .ok r) :
    ∃ dbPath tokenFile, Located host args dbPath tokenFile ∧ r = reportAt host (args.audit json) dbPath := by
  obtain ⟨dbPath, db, rest⟩ := bind_ok.1 reports
  obtain ⟨tokenFile, token, same⟩ := bind_ok.1 rest
  exact ⟨dbPath, tokenFile, ⟨mapError_ok.1 db, mapError_ok.1 token⟩, (Except.ok.inj same).symm⟩

end KiroTrust.Cli
