import OufGateway.Lib.Except
import OufGateway.Lib.Host
import OufGateway.Lib.PyAccess
import OufGateway.Lib.PyDict
import OufGateway.Lib.Text

/-!
# Preparing the R4a candidate

`prepare_r4a_runtime.py`: the checks on the private snapshot, on the two running
containers and on the mounted APISIX configuration, and then the candidate
directory with the two environments, the key and the configuration. `loads` is
`json.loads`, without a value where it raises, and `inspected` is what
`docker inspect` of the two containers printed.

A name the function does not bind is looked up in the globals of the module, when
the expression it stands in is evaluated.
-/

namespace OufGateway.PrepareRuntime

open Lib PyAccess

abbrev Env := List (String × String)

/-- The texts the module binds. -/
def globals : Env :=
  [("SEARCH_KEY", "OUF_UDP_SEARCH_OWNER_KEY"),
    ("UDP_KEY_FILE", "/run/secrets/udp-search-owner.key"),
    ("UDP_POLICY_TOKEN_FILE", "/run/ouf-udp-auth/token"),
    ("AUTH_REFRESH_SECONDS", "30"),
    ("AUTH_MAX_STALENESS_SECONDS", "300")]

def searchKey : String := "OUF_UDP_SEARCH_OWNER_KEY"

/-- A global name. -/
def name (globals : Env) (id : String) : Run String :=
  orElse (PyDict.get? globals id) (.nameError id)

def isNameStart (c : Char) : Bool := c.isAlpha || c = '_'

/-- `[A-Za-z_][A-Za-z_0-9]*`, all of the text. -/
def isEnvName : List Char → Bool
  | [] => false
  | c :: cs => isNameStart c && cs.all fun d => isNameStart d || d.isDigit

def breaksLine (s : List Char) : Bool := s.any fun c => c = '\n' || c = '\r'

/-! ## The files -/

def statOf (h : Host) (p : Path) : Run Node := orElse (h.stat p) .osError

/-- `path.read_text(encoding='utf-8')`. -/
def readText (h : Host) (p : Path) : Run (List Char) := do
  let node ← statOf h p
  match node.kind with
  | .file (some s) => .ok (Text.universal s)
  | .file none => .error (.valueError "'utf-8' codec can't decode")
  | _ => .error .osError

def decode (loads : List Char → Option Json) (s : List Char) : Run Json :=
  orElse (loads s) (.valueError "Expecting value")

def isPrivate (h : Host) (path : Path) (mode : Nat) : Run Unit := do
  let metadata ← statOf h path
  blockIf (metadata.uid ≠ 0 || metadata.mode ≠ mode) "expected root ownership and mode"

/-! ## The environment of a container -/

def envEntries : List Json → Env → Run Env
  | [], result => .ok result
  | entry :: rest, result => do
    let parts := Text.partition '=' (← text entry).toList
    let name := String.ofList parts.1
    if parts.2.1 = false || !isEnvName parts.1 || (PyDict.get? result name).isSome ||
        breaksLine parts.2.2 then
      .error (.valueError "invalid existing Docker environment")
    else envEntries rest (result ++ [(name, String.ofList parts.2.2)])

def envOf (container : Json) : Run Env := do
  envEntries (← iterate (← item (← item container "Config") "Env")) []

/-- `any(test(x) for x in xs)`. -/
def anyItem (test : Json → Run Bool) : List Json → Run Bool
  | [] => .ok false
  | x :: xs => do if ← test x then .ok true else anyItem test xs

/-- `all(test(x) for x in xs)`. -/
def allItems (test : Json → Run Bool) : List Json → Run Bool
  | [] => .ok true
  | x :: xs => do if ← test x then allItems test xs else .ok false

def isStr (value : Json) (s : String) : Bool := value.eqv (.str s)

/-- `m['RW'] is False`. -/
def isFalse : Json → Bool
  | .bool b => !b
  | _ => false

def isConfigMount (config : Path) (m : Json) : Run Bool := do
  if !isStr (← item m "Source") config.text then return false
  if !isStr (← item m "Destination") "/usr/local/apisix/conf/config.yaml" then return false
  return isFalse (← item m "RW")

/-! ## The checks -/

structure Input where
  snapshot : Path
  config : Path
  projection : Path
  tenant : String
  /-- What `docker inspect ouf-udp ouf-apisix` printed, if it did not fail. -/
  inspected : Option (List Char)
  /-- `secrets.token_hex(32)`. -/
  key : String
  /-- What `mkdtemp` adds to `candidate-`. -/
  unique : String

/-- What `prepare` has when its last check has passed. -/
structure Reviewed where
  snapshot : Path
  config : Path
  apisixEnv : Env
  udpEnv : Env
  issuer : String
  audience : String
  workload : String
  candidate : List Char
deriving DecidableEq

def marker : List Char := "  - GATEWAY_SUMMARY_RECEIPT_KEY\n".toList

/-- The line that is added. -/
def added : List Char := "  - ".toList ++ searchKey.toList ++ "\n".toList

/-- `isinstance(v, str) and v and '\n' not in v and '\r' not in v`. -/
def projected (v : Json) : Run String :=
  match v with
  | .str s =>
    if s = "" || breaksLine s.toList then .error (.valueError "invalid installation projection") else .ok s
  | _ => .error (.valueError "invalid installation projection")

/-- The two containers of the snapshot, by their names. -/
def containersOf (i : Input) (data : Json) : Run Entries := do
  let containers ← dictOf (fun c => item c "Name") .ok (← iterate data) []
  blockIf (!keysAre containers ["/ouf-udp", "/ouf-apisix"] || i.tenant = "" ||
    128 < i.tenant.length || i.tenant.toList.any Text.isSpace) "invalid snapshot or tenant"
  return containers

/-- The running containers are those of the snapshot. -/
def checkLive (loads : List Char → Option Json) (i : Input) (containers : Entries) : Run Unit := do
  let live ← decode loads (← orElse i.inspected .calledProcessError)
  let now ← dictOf (fun c => item c "Name") (fun c => item c "Id") (← iterate live) []
  let before ← containers.mapM fun e => do return (e.1, ← item e.2 "Id")
  blockIf (!sameEntries now before) "container changed since private snapshot"
  let running ← allItems (fun c => do return (← item (← item c "State") "Running").truthy)
    (← iterate live)
  blockIf (!running) "both original containers must still be running"

/-- The environments of APISIX and of UDP. -/
def checkContainers (config : Path) (containers : Entries) : Run (Env × Env) := do
  let apisix ← lookup containers "/ouf-apisix"
  let udp ← lookup containers "/ouf-udp"
  let mounted ← anyItem (isConfigMount config) (← iterate (← item apisix "Mounts"))
  blockIf (!mounted) "APISIX config path is not the mounted read-only source"
  blockIf (!isStr (← item (← item udp "Config") "User") "10004:10004")
    "UDP service identity differs from file owner 10004:10004"
  let apisixEnv ← envOf apisix
  let udpEnv ← envOf udp
  blockIf ((PyDict.get? apisixEnv searchKey).isSome ||
    udpEnv.any fun e => Text.startsWith "OUF_UDP_SEARCH_" e.1) "search binding already configured"
  return (apisixEnv, udpEnv)

/-- `issuer`, `audience` and `workload`. -/
def checkProjection (p : Json) : Run (String × String × String) := do
  let issuer ← item (← item p "gateway") "issuerUrl"
  let audience ← item (← item p "gateway") "requiredAudience"
  let workload ← item (← item (← item p "iam") "workloadClients") "mcpServer"
  return (← projected issuer, ← projected audience, ← projected workload)

/-- The configuration with the name of the key under the marker. -/
def checkConfig (original : List Char) : Run (List Char) := do
  blockIf (Text.count "nginx_config:\n  envs:\n".toList original ≠ 1 || Text.count marker original ≠ 1 ||
    Text.contains searchKey.toList original) "unexpected APISIX env configuration"
  let candidate := Text.replaceFirst marker (marker ++ added) original
  blockIf (Text.replaceFirst added [] candidate ≠ original) "APISIX config changed beyond new env name"
  return candidate

/-- `prepare` up to its last check. -/
def review (loads : List Char → Option Json) (h : Host) (i : Input) : Run Reviewed := do
  let snapshot ← orElse (h.resolve i.snapshot) .osError
  let config ← orElse (h.resolve i.config) .osError
  isPrivate h snapshot.parent 0o700
  isPrivate h snapshot 0o600
  let containers ← containersOf i (← decode loads (← readText h snapshot))
  checkLive loads i containers
  let (apisixEnv, udpEnv) ← checkContainers config containers
  let (issuer, audience, workload) ← checkProjection (← decode loads (← readText h i.projection))
  let candidate ← checkConfig (← readText h config)
  blockIf (apisixEnv.any fun e => e.2 = i.key) "new key collides with existing secret"
  return ⟨snapshot, config, apisixEnv, udpEnv, issuer, audience, workload, candidate⟩

/-! ## The candidate -/

/-- The arguments of `udp_env.update`, from left to right. -/
def additions (globals : Env) (i : Input) (r : Reviewed) : Run Env := do
  let keyFile ← name globals "UDP_KEY_FILE"
  let registryUrl ← name globals "registry_url"
  let tokenFile ← name globals "UDP_POLICY_TOKEN_FILE"
  let refresh ← name globals "AUTH_REFRESH_SECONDS"
  let staleness ← name globals "AUTH_MAX_STALENESS_SECONDS"
  return [("OUF_UDP_SEARCH_TENANT_ID", i.tenant), ("OUF_UDP_SEARCH_ISSUER", r.issuer),
    ("OUF_UDP_SEARCH_AUDIENCE", r.audience), ("OUF_UDP_SEARCH_WORKLOAD", r.workload),
    ("OUF_UDP_SEARCH_OWNER_KEY_FILE", keyFile), ("OUF_AUTHORIZATION_REGISTRY_URL", registryUrl),
    ("OUF_AUTHORIZATION_REGISTRY_TOKEN_FILE", tokenFile),
    ("OUF_AUTHORIZATION_REFRESH_SECONDS", refresh),
    ("OUF_AUTHORIZATION_MAX_STALENESS_SECONDS", staleness)]

/-- `d.update(e)`. -/
def update (d e : Env) : Env := e.foldl (fun d m => PyDict.set d m.1 m.2) d

/-- `''.join(f'\x7bk\x7d=\x7bv\x7d\n' for k, v in env.items())`. -/
def envText (env : Env) : List Char :=
  env.flatMap fun m => m.1.toList ++ '=' :: m.2.toList ++ ['\n']

def write (h : Host) (path : Path) (content : List Char) (uid gid mode : Nat) : Run Host :=
  orElse (h.create path ⟨uid, gid, mode, (content.map Char.utf8Size).sum, .file (some content)⟩) .osError

/-- The directory, the files in it, and the host with them. -/
def writeCandidate (h : Host) (i : Input) (r : Reviewed) (apisixEnv udpEnv : Env) :
    Run (Path × Host) := do
  let target := r.snapshot.parent.child ("candidate-" ++ i.unique)
  let h ← orElse (h.create target ⟨0, 0, 0o700, 4096, .directory⟩) .osError
  let h ← write h (target.child "apisix.env") (envText apisixEnv) 0 0 0o600
  let h ← write h (target.child "udp.env") (envText udpEnv) 0 0 0o600
  let h ← write h (target.child "udp-search-owner.key") (i.key.toList ++ ['\n']) 10004 10004 0o400
  let source ← statOf h r.config
  let h ← write h (target.child "apisix-config.yaml") r.candidate source.uid source.gid source.mode
  return (target, h)

def prepareIn (globals : Env) (loads : List Char → Option Json) (h : Host) (i : Input) :
    Run (Path × Host) := do
  let r ← review loads h i
  let more ← additions globals i r
  writeCandidate h i r (PyDict.set r.apisixEnv searchKey i.key) (update r.udpEnv more)

def prepare : (List Char → Option Json) → Host → Input → Run (Path × Host) := prepareIn globals

/-- What `main` reports as `R4A_PREPARATION_BLOCKED`. -/
def caught : PyError → Bool
  | .osError => true
  | .valueError _ => true
  | .keyError => true
  | .calledProcessError => true
  | _ => false

end OufGateway.PrepareRuntime
