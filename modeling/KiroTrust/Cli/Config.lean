import KiroTrust.Auth.Database
import KiroTrust.Kiro.Client

set_option autoImplicit false

namespace KiroTrust.Cli

open Auth (AuthError Credentials KiroDb Readers Time)
open EventStream (decimal)
open Net (RegionError RuntimeRegion)

/-! `config.rs`, and the extra trust anchors of `policy.rs`. -/

def maxExtraCaCertificates : Nat := 16

inductive ExtraCaError where
  | malformedPem
  | noCertificateFound
  | notATrustAnchor
  | tooManyCertificates (count : Nat)
  deriving DecidableEq

def ExtraCaError.display : ExtraCaError → Str
  | .malformedPem => "input is not valid PEM".toList
  | .noCertificateFound => "PEM contained no certificate".toList
  | .notATrustAnchor => "certificate is not a usable trust anchor".toList
  | .tooManyCertificates count =>
    "too many certificates: ".toList ++ decimal count ++ " exceeds the limit of ".toList ++
      decimal maxExtraCaCertificates ++
      (", which would exhaust the TLS verifier's signature budget and stop trusted hosts from " ++
        "verifying").toList

/-- A block of a PEM file; a certificate with whether `RootCertStore::add` takes it. -/
inductive PemBlock where
  | malformed
  | certificate (usable : Bool)
  deriving DecidableEq

structure ExtraCa where
  count : Nat
  bounded : 0 < count ∧ count ≤ maxExtraCaCertificates

def addCertificates (count : Nat) : List PemBlock → Except ExtraCaError Nat
  | [] => .ok count
  | .malformed :: _ => .error .malformedPem
  | .certificate false :: _ => .error .notATrustAnchor
  | .certificate true :: rest =>
    if count + 1 > maxExtraCaCertificates then .error (.tooManyCertificates (count + 1))
    else addCertificates (count + 1) rest

theorem addCertificates_iff (count total : Nat) (fits : count ≤ maxExtraCaCertificates) (blocks : List PemBlock) :
    addCertificates count blocks = .ok total ↔
      (∀ block ∈ blocks, block = .certificate true) ∧ total = count + blocks.length ∧
        total ≤ maxExtraCaCertificates := by
  induction blocks generalizing count with
  | nil =>
    simp only [addCertificates, Except.ok.injEq, List.length_nil, Nat.add_zero]
    constructor
    · rintro rfl
      exact ⟨fun _ inside => absurd inside List.not_mem_nil, rfl, fits⟩
    · exact fun ⟨_, same, _⟩ => same.symm
  | cons block rest ih =>
    cases block with
    | malformed => simp [addCertificates]
    | certificate usable =>
      cases usable with
      | false => simp [addCertificates]
      | true =>
        simp only [addCertificates]
        split
        next many => simp; omega
        next few =>
          rw [ih (count + 1) (Nat.not_lt.1 few)]
          simp [Nat.add_assoc, Nat.add_comm 1]

def ExtraCa.fromPem (blocks : List PemBlock) : Except ExtraCaError ExtraCa :=
  match added : addCertificates 0 blocks with
  | .error e => .error e
  | .ok count =>
    if found : 0 < count then
      .ok ⟨count, found, ((addCertificates_iff 0 count (Nat.zero_le _) blocks).1 added).2.2⟩
    else .error .noCertificateFound

/-- A `SocketAddr`, as it is printed. -/
structure SocketAddr where
  shown : Str
  loopback : Bool
  deriving DecidableEq

inductive ConfigError where
  | notLoopback (addr : SocketAddr)
  | badListen (s : Str)
  | region (e : RegionError)
  | noDbPath
  | noTokenDir
  | extraCa (path reason : Str)

def ConfigError.display (debug : Str → Str) : ConfigError → Str
  | .notLoopback addr =>
    "--listen ".toList ++ addr.shown ++
      " is not a loopback address; kiro-trust binds 127.0.0.0/8 or ::1 only (spec 6.3)".toList
  | .badListen s => "--listen ".toList ++ debug s ++ " is not a socket address like 127.0.0.1:3456".toList
  | .region e => e.display debug
  | .noDbPath => "cannot determine the Kiro CLI database path; pass --kiro-db".toList
  | .noTokenDir => "cannot determine a runtime directory for the token file; pass --token-file".toList
  | .extraCa path reason => "--extra-ca ".toList ++ path ++ ": ".toList ++ reason

/-- What the commands use of the system they run on and of other crates. -/
structure Host where
  readers : Readers
  -- `SocketAddr::from_str`
  socketAddr : Str → Option SocketAddr
  defaultDbPath : Option Str
  defaultTokenFile : Option Str
  readFile : Str → Except Str (List UInt8)
  -- `CertificateDer::pem_slice_iter`
  pemBlocks : List UInt8 → List PemBlock
  -- The connection that `open_read_only` sets up.
  openDb : Str → Except Str KiroDb
  -- `KIRO_TRUST_TOKEN`
  tokenVar : Option (List UInt8)
  -- `abbreviate_home_path` and `abbreviate_home_in_message`
  abbreviatePath : Str → Str
  abbreviateMessage : Str → Str
  -- A time as RFC 3339 writes it.
  rfc3339 : Time → Option Str
  version : Str
  commit : Str
  captureCompiled : Bool
  testEndpointsCompiled : Bool

def Host.holding (host : Host) (contents : Str → Except Str KiroDb) : Host := { host with openDb := contents }

structure ServeArgs where
  listen : Str
  kiroDb : Option Str
  runtimeRegion : Option Str
  tokenFile : Option Str
  logLevel : Str
  shareContent : Bool
  extraCa : Option Str

structure ServeConfig where
  listen : SocketAddr
  dbPath : Str
  runtimeRegion : Option RuntimeRegion
  tokenFile : Str
  explicitToken : Option Str
  logLevel : Str
  shareContent : Bool
  extraCaPath : Option Str
  extraCa : Option ExtraCa

variable (host : Host)

def validateLoopback (addr : SocketAddr) : Except ConfigError Unit :=
  if addr.loopback then .ok () else .error (.notLoopback addr)

def parseListen (s : Str) : Except ConfigError SocketAddr :=
  match host.socketAddr s with
  | none => .error (.badListen s)
  | some addr => (validateLoopback addr).map fun _ => addr

def resolvePath (missing : ConfigError) (explicit default : Option Str) : Except ConfigError Str :=
  match explicit.or default with
  | some path => .ok path
  | none => .error missing

def resolveDbPath (explicit : Option Str) : Except ConfigError Str := resolvePath .noDbPath explicit host.defaultDbPath

def resolveTokenFile (explicit : Option Str) : Except ConfigError Str :=
  resolvePath .noTokenDir explicit host.defaultTokenFile

def readExtraCa : Option Str → Except ConfigError (Option ExtraCa)
  | none => .ok none
  | some path => do
    let bytes ← (host.readFile path).mapError (.extraCa path)
    let ca ← (ExtraCa.fromPem (host.pemBlocks bytes)).mapError fun e =>
      .extraCa path (Kiro.NetError.extraCa e.display).display
    return some ca

def parseRegion : Option Str → Except RegionError (Option RuntimeRegion)
  | none => .ok none
  | some region => (RuntimeRegion.parse region).map some

def ServeConfig.fromArgs (args : ServeArgs) : Except ConfigError ServeConfig := do
  let listen ← parseListen host args.listen
  let runtimeRegion ← (parseRegion args.runtimeRegion).mapError .region
  let explicitToken := (host.tokenVar.bind Str.fromUtf8).filter (· ≠ [])
  let extraCa ← readExtraCa host args.extraCa
  let dbPath ← resolveDbPath host args.kiroDb
  let tokenFile ← resolveTokenFile host args.tokenFile
  return {
    listen
    dbPath
    runtimeRegion
    tokenFile
    explicitToken
    logLevel := args.logLevel
    shareContent := args.shareContent
    extraCaPath := args.extraCa
    extraCa }

def openReadOnly (path : Str) : Except AuthError KiroDb := (host.openDb path).mapError .openDb

def readCredentials (path : Str) : Except AuthError Credentials := do
  let db ← openReadOnly host path
  db.readIdentityCenter host.readers

end KiroTrust.Cli
