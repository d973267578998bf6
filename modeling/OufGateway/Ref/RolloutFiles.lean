import OufGateway.Ref.PrepareRuntime

/-!
# The candidate as the rollout reads it

`snapshot_and_candidate` of `rollout_r4a_runtime.py`: the private snapshot, the
candidate directory next to it, the directory of the runtime token, and the mounted
configuration. It has an `env_map` and a `private` of its own.
-/

namespace OufGateway.RolloutFiles

open Lib PyAccess
open PrepareRuntime (Env isEnvName breaksLine readText statOf decode isStr)

/-! ## Environments -/

def envItems : List (List Char) → Env → Run Env
  | [], out => .ok out
  | entry :: rest, out =>
    let parts := Text.partition '=' entry
    let name := String.ofList parts.1
    if parts.2.1 = false || !isEnvName parts.1 || (PyDict.get? out name).isSome ||
        breaksLine parts.2.2 then
      .error (.valueError "invalid environment format")
    else envItems rest (out ++ [(name, String.ofList parts.2.2)])

def envMap (entries : List (List Char)) : Run Env := envItems entries []

/-- `env_map(data.splitlines())`. -/
def envOfFile (data : List Char) : Run Env := envMap (Text.splitlines data)

/-- `env_map` of what a document has, whose items may be no texts. -/
def envMapOf (entries : List Json) : Run Env := do envMap (← entries.mapM fun e => do return (← text e).toList)

/-- `a == b`. -/
def sameEnv (a b : Env) : Bool :=
  a.length = b.length && a.all fun m => PyDict.get? b m.1 = some m.2

/-- `set(a) == set(b)`. -/
def sameKeys (a b : List String) : Bool := a.all (· ∈ b) && b.all (· ∈ a)

inductive Service
  | udp | apisix
deriving DecidableEq

def Service.text : Service → String
  | .udp => "udp"
  | .apisix => "apisix"

def additions : Service → List String
  | .udp =>
    ["OUF_UDP_SEARCH_TENANT_ID", "OUF_UDP_SEARCH_ISSUER", "OUF_UDP_SEARCH_AUDIENCE",
      "OUF_UDP_SEARCH_WORKLOAD", "OUF_UDP_SEARCH_OWNER_KEY_FILE", "OUF_AUTHORIZATION_REGISTRY_URL",
      "OUF_AUTHORIZATION_REGISTRY_TOKEN_FILE", "OUF_AUTHORIZATION_REFRESH_SECONDS",
      "OUF_AUTHORIZATION_MAX_STALENESS_SECONDS"]
  | .apisix => ["OUF_UDP_SEARCH_OWNER_KEY"]

/-- `now[key] != value` raises. -/
def requireValue (now : Env) (key value problem : String) : Run Unit := do
  blockIf ((← orElse (PyDict.get? now key) .keyError) ≠ value) problem

/-! ## The files -/

def checkPrivate (h : Host) (path : Path) (mode uid gid : Nat) : Run Unit := do
  let st ← statOf h path
  blockIf ((st.uid, st.gid, st.mode) ≠ (uid, gid, mode) || h.isLink path)
    "private file ownership or mode mismatch"

/-- The environment file of a service, against the environment of the snapshot. -/
def checkEnv (h : Host) (candidate : Path) (service : Service) (original : Json) : Run Unit := do
  let f := candidate.child (service.text ++ ".env")
  checkPrivate h f 0o600 0 0
  let data ← readText h f
  blockIf (data.getLast? ≠ some '\n') "incomplete env file"
  let now ← envOfFile data
  let previous ← envMapOf (← iterate (← item (← item original "Config") "Env"))
  blockIf (!sameKeys ((now.map (·.1)).filter fun k => (PyDict.get? previous k).isNone)
      (additions service) ||
    !sameEnv (now.filter fun m => m.1 ∉ additions service) previous) "existing environment changed"
  if service = .udp then
    requireValue now "OUF_UDP_SEARCH_OWNER_KEY_FILE" "/run/secrets/udp-search-owner.key"
      "unexpected UDP key target"
    requireValue now "OUF_AUTHORIZATION_REGISTRY_TOKEN_FILE" "/run/ouf-udp-auth/token"
      "unexpected UDP policy token target"
    requireValue now "OUF_AUTHORIZATION_REFRESH_SECONDS" "30"
      "unexpected UDP authorization refresh bounds"
    requireValue now "OUF_AUTHORIZATION_MAX_STALENESS_SECONDS" "300"
      "unexpected UDP authorization refresh bounds"

def tokenDir : Path := ["run", "ouf-udp-auth"]

/-- The runtime directory of the policy token. -/
def checkToken (h : Host) : Run Unit := do
  let tokenFile := tokenDir.child "token"
  blockIf (!h.isDir tokenDir || h.isLink tokenDir) "UDP policy token runtime directory missing"
  let dir ← statOf h tokenDir
  let token ← statOf h tokenFile
  blockIf ((dir.uid, dir.gid, dir.mode) ≠ (0, 10004, 0o750))
    "UDP policy token directory ownership or mode mismatch"
  blockIf (h.isLink tokenFile || (token.uid, token.gid, token.mode) ≠ (0, 10004, 0o440))
    "UDP policy token file ownership or mode mismatch"
  blockIf (token.size ≤ 0 || 16384 < token.size) "UDP policy token file size invalid"

/-- `[a-f0-9]{64}`, all of the text. -/
def isKey (s : String) : Bool :=
  s.length = 64 && s.toList.all fun c => c.isDigit || ('a' ≤ c && c ≤ 'f')

def isAscii (s : List Char) : Bool := s.all fun c => c.toNat < 128

/-- The key file, and the key of APISIX. -/
def checkKey (h : Host) (candidate : Path) : Run Unit := do
  let key := candidate.child "udp-search-owner.key"
  checkPrivate h key 0o400 10004 10004
  let content ← readText h key
  blockIf (!isAscii content) "'ascii' codec can't decode"
  let secret := Text.strip (String.ofList content)
  blockIf (!isKey secret) "candidate keys differ"
  let apisix ← envOfFile (← readText h (candidate.child "apisix.env"))
  requireValue apisix "OUF_UDP_SEARCH_OWNER_KEY" secret "candidate keys differ"

/-- `Path(text)` of an absolute path. -/
def pathOf (s : String) : Path :=
  ((Text.pieces (· = '/') s.toList).filter fun cs => cs ≠ [] && cs ≠ ['.']).map String.ofList

/-- The candidate configuration, against the mounted one. -/
def checkYaml (h : Host) (candidate : Path) (original : Json) : Run Unit := do
  match ← item original "Mounts" with
  | .arr [m] =>
    blockIf (!isStr (← item m "Destination") "/usr/local/apisix/conf/config.yaml")
      "unexpected original APISIX bind"
    blockIf (← item m "RW").truthy "unexpected original APISIX bind"
    let yaml := candidate.child "apisix-config.yaml"
    let source := pathOf (← text (← item m "Source"))
    let st ← statOf h yaml
    let oldSt ← statOf h source
    blockIf ((st.uid, st.gid, st.mode) ≠ (oldSt.uid, oldSt.gid, oldSt.mode))
      "YAML permissions changed"
    let previous ← readText h source
    blockIf (Text.count PrepareRuntime.marker previous ≠ 1 ||
      Text.contains "OUF_UDP_SEARCH_OWNER_KEY".toList previous) "candidate YAML differs beyond one env name"
    blockIf ((← readText h yaml) ≠ Text.replaceFirst PrepareRuntime.marker
      (PrepareRuntime.marker ++ "  - OUF_UDP_SEARCH_OWNER_KEY\n".toList) previous)
      "candidate YAML differs beyond one env name"
  | _ => .error (.valueError "unexpected original APISIX bind")

/-- `c['Name'][1:]`. -/
def serviceName (c : Json) : Run Json := do
  return .str (String.ofList ((← text (← item c "Name")).toList.drop 1))

def snapshotAndCandidate (loads : List Char → Option Json) (h : Host) (snapshot candidate : Path) :
    Run Entries := do
  checkPrivate h snapshot.parent 0o700 0 0
  checkPrivate h snapshot 0o600 0 0
  checkPrivate h candidate 0o700 0 0
  blockIf (candidate.parent ≠ snapshot.parent || !Text.startsWith "candidate-" candidate.name)
    "candidate is not adjacent to snapshot"
  let old ← dictOf serviceName .ok (← iterate (← decode loads (← readText h snapshot))) []
  blockIf (!keysAre old ["ouf-udp", "ouf-apisix"]) "unexpected snapshot"
  checkEnv h candidate .udp (← lookup old "ouf-udp")
  checkEnv h candidate .apisix (← lookup old "ouf-apisix")
  checkToken h
  checkKey h candidate
  checkYaml h candidate (← lookup old "ouf-apisix")
  return old

end OufGateway.RolloutFiles
