import Mathlib
import OufGateway.Lib.Json
import OufGateway.Ref.Incidents

/-!
# Publication

`Publisher.publish` over a file store and a control plane. The control plane
is a record of its five operations on a state of its own; each answers a value
or raises, and what it did to that state stays done when it raises. So does
what the store has written: `record` writes up to three files, each of them
atomically, and can stop before any of them.

Everything before the control plane is asked for its health is `prepare`. What
the governance checks, `compile_config` and the input hashes give for the
configuration root is an input of the call; so are the texts of the clock.
-/

namespace OufGateway.Publication

open Lib

inductive Exn
  | publication (text : String)
  | raised
deriving DecidableEq

inductive Status
  | compiled | applying | verified | active | failed | rolledBack
deriving DecidableEq, Repr

structure Manifest where
  publicationId : String
  environment : String
  sourceRevisionRef : String
  artifactSetHash : String
  status : Status
  createdAt : String
  activatedAt : Option String
  verification : Json
  previousActivePublicationId : Option String
  controlPlaneRevision : Json
  inputHashes : List (String × String)

/-! ## The manifest schema -/

def endsInNewline (s : String) : Bool := s.toList.getLast? == some '\n'

/-- `^[first][rest]{0,n}$` as `re.search` reads it: `$` also matches before a
final newline. -/
def matchesPattern (first rest : Char → Bool) (least most : Nat) (s : String) : Bool :=
  match if endsInNewline s then s.toList.dropLast else s.toList with
  | [] => false
  | c :: cs => first c && cs.all rest && least ≤ cs.length && cs.length ≤ most

def isIdChar (c : Char) : Bool := c.isAlphanum || ['.', '_', '-'].contains c

def isHexChar (c : Char) : Bool := c.isDigit || ('a' ≤ c && c ≤ 'f')

def isSha256 : String → Bool := matchesPattern isHexChar isHexChar 63 63

def isEnvironment : String → Bool :=
  matchesPattern (fun c => c.isLower || c.isDigit) (fun c => c.isLower || c.isDigit || c = '-') 0 62

/-- `re.fullmatch` of the identity, which admits no final newline. -/
def isPublicationId (s : String) : Bool :=
  matchesPattern Char.isAlphanum isIdChar 0 127 s && !endsInNewline s

/-- `type` `string` or `null`. -/
def isTextOrNull : Json → Bool
  | .null => true
  | .str _ => true
  | _ => false

/-- `type` `object` or `null`. -/
def isObjOrNull : Json → Bool
  | .null => true
  | v => v.isObj

/-- The properties of the schema whose values are texts of the call. -/
def Manifest.governed (m : Manifest) : Bool :=
  matchesPattern Char.isAlphanum isIdChar 0 127 m.publicationId && isEnvironment m.environment &&
    m.sourceRevisionRef ≠ "" && isSha256 m.artifactSetHash && m.inputHashes.all fun h => isSha256 h.2

/-- `_validate`. -/
def Manifest.valid (m : Manifest) : Bool :=
  m.governed && isTextOrNull m.controlPlaneRevision && isObjOrNull m.verification

/-! ## The store -/

/-- The manifests and artifacts by name, and every text `active.json` has had,
the current one first. -/
structure Store where
  manifests : List (String × Manifest)
  artifacts : List (String × Json)
  active : List Manifest

namespace Store

def empty : Store := ⟨[], [], []⟩

def activeManifest (s : Store) : Option Manifest := s.active.head?

def contains (s : Store) (publicationId : String) : Bool := s.manifests.any (·.1 = publicationId)

def findArtifact (s : Store) (hash : String) : Option Json :=
  (s.artifacts.find? (·.1 = hash)).map (·.2)

/-- Another artifact is stored under the hash. -/
def collides (s : Store) (hash : String) (artifact : Json) : Bool :=
  (s.findArtifact hash).any fun old => !old.eqv artifact

def writeArtifact (s : Store) (hash : String) (artifact : Json) : Store :=
  { s with artifacts := s.artifacts ++ [(hash, artifact)] }

def writeManifest (s : Store) (m : Manifest) : Store :=
  { s with manifests := s.manifests ++ [(m.publicationId, m)] }

def writeActive (s : Store) (m : Manifest) : Store := { s with active := m :: s.active }

/-- A sequence of file writes. `stop` is how many of them are made before the
file system raises, if it does, the last place being after all of them; a value
that cannot be serialized raises in its place. -/
def perform : Option Nat → List (Option (Store → Store)) → Store → Except Exn Unit × Store
  | none, [], s => (.ok (), s)
  | some _, [], s => (.error .raised, s)
  | some 0, _, s => (.error .raised, s)
  | _, none :: _, s => (.error .raised, s)
  | stop, some f :: rest, s => perform (stop.map (· - 1)) rest (f s)

/-- The writes `record` makes. -/
def writes (s : Store) (m : Manifest) (artifact : Json) (activate : Bool) :
    List (Option (Store → Store)) :=
  (if (s.findArtifact m.artifactSetHash).isSome then []
    else [some (writeArtifact · m.artifactSetHash artifact)]) ++
  [if m.verification.serializable then some (writeManifest · m) else none] ++
  if activate then [some (writeActive · m)] else []

def record (s : Store) (m : Manifest) (artifact : Json) (activate : Bool) (stop : Option Nat) :
    Except Exn Unit × Store :=
  if s.contains m.publicationId then
    (.error (.publication "publication manifest is immutable"), s)
  else if s.collides m.artifactSetHash artifact then
    (.error (.publication "artifact hash collision"), s)
  else perform stop (s.writes m artifact activate) s

end Store

/-! ## The control plane -/

/-- The control plane port on a state `π`. -/
structure Plane (π : Type) where
  healthy : π → Except Exn Json × π
  stage : Json → π → Except Exn Json × π
  verify : Json → Json → π → Except Exn Json × π
  activate : Json → π → Except Exn Unit × π
  rollback : Json → π → Except Exn Unit × π

/-! ## The publisher -/

def requiredChecks : List String :=
  ["health", "routeBinding", "authorizationNegativePath", "upstreamReachability", "convergence"]

def incidentKey : String := "gateway:publication:blocked"

/-- What governance, the compiler and the input files give. -/
structure Compiled where
  artifact : Json
  configurationSha256 : String
  inputHashes : List (String × String)

/-- One call, with what it meets: the compiler's result, the two clock texts,
the store's failure, and the identifier and time of an incident. -/
structure Call where
  environment : String
  sourceRevision : String
  publicationId : String
  compiled : Except Unit Compiled
  createdAt : String
  activatedAt : String
  stop : Option Nat
  incidentId : String
  incidentNow : String

structure State (π : Type) where
  plane : π
  store : Store
  incidents : Option Incidents.Tables

def zeroHash : String := String.ofList (List.replicate 64 '0')

/-- The part of `_publish` before the control plane: the manifest to go on
with, and the compiled artifact. -/
def prepare (c : Call) (store : Store) : Except Exn (Manifest × Json) :=
  if !isPublicationId c.publicationId then
    .error (.publication "invalid publication manifest: unsafe publicationId")
  else if store.contains c.publicationId then
    .error (.publication "publication manifest is immutable")
  else
    let pre : Manifest :=
      { publicationId := c.publicationId, environment := c.environment
        sourceRevisionRef := c.sourceRevision, artifactSetHash := zeroHash, status := .compiled
        createdAt := c.createdAt, activatedAt := none, verification := .null
        previousActivePublicationId := store.activeManifest.map (·.publicationId)
        controlPlaneRevision := .null, inputHashes := [] }
    if !pre.valid then .error (.publication "invalid publication manifest")
    else
      match c.compiled with
      | .error _ => .error (.publication "validation/compile failed")
      | .ok compiled =>
        let m := { pre with
          artifactSetHash := compiled.configurationSha256, inputHashes := compiled.inputHashes }
        if !m.valid then .error (.publication "invalid publication manifest")
        else .ok (m, compiled.artifact)

/-- `all(verification.get(check) is True for check in REQUIRED_CHECKS)`; only a
dictionary has `get`. -/
def passes (verification : Json) : Except Exn Bool :=
  if verification.isObj then
    .ok (requiredChecks.all fun check => (verification.get? check).any (·.isTrue))
  else .error .raised

/-- How an exit is reported. -/
structure Exit where
  errorCode : String
  impact : String
  severity : String := "ERROR"

def unhealthy : Exit :=
  { errorCode := "CONTROL_PLANE_UNHEALTHY"
    impact := "Gateway configuration publication is blocked because the control plane is " ++
      "unavailable."
    severity := "CRITICAL" }

def stageFailed : Exit :=
  { errorCode := "PUBLICATION_STAGE_FAILED"
    impact := "Gateway configuration staging failed; no new configuration was activated." }

def verificationFailed : Exit :=
  { errorCode := "PUBLICATION_VERIFICATION_FAILED"
    impact := "Gateway configuration verification failed and the staged revision was " ++
      "rolled back." }

def activationFailed : Exit :=
  { errorCode := "PUBLICATION_ACTIVATION_FAILED"
    impact := "Gateway configuration activation failed and the previous active " ++
      "configuration was preserved." }

/-- `_incident`; without a sink it does nothing. -/
def openBlocked (c : Call) (exit : Exit) (sink : Option Incidents.Tables) :
    Except Exn Unit × Option Incidents.Tables :=
  match sink with
  | none => (.ok (), none)
  | some t =>
    match Incidents.openIncident t c.incidentId c.incidentNow
        { dedupKey := incidentKey, eventType := "GATEWAY_PUBLICATION_BLOCKED"
          severity := exit.severity, errorCode := some exit.errorCode
          impactSummary := exit.impact, correlationId := some c.publicationId
          endpointRef := some "gateway://control-plane/publication", actionRequired := true } with
    | .ok (t', _) => (.ok (), some t')
    | .error _ => (.error .raised, some t)

variable {π : Type}

/-- `_record`. -/
def recordManifest (c : Call) (m : Manifest) (artifact : Json) (activate : Bool) (s : State π) :
    Except Exn Unit × State π :=
  if !m.valid then (.error (.publication "invalid publication manifest"), s)
  else
    let (r, store) := s.store.record m artifact activate c.stop
    (r, { s with store := store })

/-- The end of every exit but the last: record, raise the incident, return. -/
def conclude (c : Call) (m : Manifest) (artifact : Json) (exit : Exit) (s : State π) :
    Except Exn Manifest × State π :=
  match recordManifest c m artifact false s with
  | (.error e, s) => (.error e, s)
  | (.ok _, s) =>
    let (r, sink) := openBlocked c exit s.incidents
    (r.map fun _ => m, { s with incidents := sink })

/-- The two exits that roll the staged revision back first. -/
def rollBack (plane : Plane π) (c : Call) (revision : Json) (m : Manifest) (artifact : Json)
    (exit : Exit) (s : State π) : Except Exn Manifest × State π :=
  match plane.rollback revision s.plane with
  | (.error e, p) => (.error e, { s with plane := p })
  | (.ok _, p) => conclude c { m with status := .rolledBack } artifact exit { s with plane := p }

/-- The manifest of the last exit. -/
def Manifest.activated (m : Manifest) (c : Call) : Manifest :=
  { m with status := .active, activatedAt := some c.activatedAt }

/-- The last exit: record as active, resolve the incident, return. -/
def complete (c : Call) (m : Manifest) (artifact : Json) (s : State π) :
    Except Exn Manifest × State π :=
  match recordManifest c (m.activated c) artifact true s with
  | (.error e, s) => (.error e, s)
  | (.ok _, s) =>
    (.ok (m.activated c), { s with
      incidents := s.incidents.map fun t =>
        (Incidents.resolveIncident t c.incidentNow incidentKey
          "Gateway configuration publication recovered; the verified revision is ACTIVE.").1 })

/-- An answer, or what an `except Exception` puts in its place. -/
def orElse (answer : Except Exn Json) (fallback : Json) : Json :=
  match answer with
  | .ok v => v
  | .error _ => fallback

/-- `_publish` from `activate` on. -/
def activateStaged (plane : Plane π) (c : Call) (revision : Json) (m : Manifest) (artifact : Json)
    (s : State π) : Except Exn Manifest × State π :=
  match plane.activate revision s.plane with
  | (.error _, p) =>
    rollBack plane c revision
      { m with verification := m.verification.setItem "activation" (.bool false) } artifact
      activationFailed { s with plane := p }
  | (.ok _, p) => complete c m artifact { s with plane := p }

/-- `_publish` from `verify` on. -/
def verifyStaged (plane : Plane π) (c : Call) (revision : Json) (m : Manifest) (artifact : Json)
    (s : State π) : Except Exn Manifest × State π :=
  let answer := plane.verify revision artifact s.plane
  let verification := orElse answer.1 (.obj [("verification", .bool false)])
  let m := { m with controlPlaneRevision := revision, verification := verification }
  let s := { s with plane := answer.2 }
  match passes verification with
  | .error e => (.error e, s)
  | .ok false => rollBack plane c revision m artifact verificationFailed s
  | .ok true => activateStaged plane c revision m artifact s

/-- `_publish` from the first call of the control plane on. -/
def apply (plane : Plane π) (c : Call) (m : Manifest) (artifact : Json) (s : State π) :
    Except Exn Manifest × State π :=
  let health := plane.healthy s.plane
  let s := { s with plane := health.2 }
  if (orElse health.1 (.bool false)).truthy then
    match plane.stage artifact s.plane with
    | (.error _, p) =>
      conclude c { m with status := .failed, verification := .obj [("stage", .bool false)] } artifact
        stageFailed { s with plane := p }
    | (.ok revision, p) => verifyStaged plane c revision m artifact { s with plane := p }
  else
    conclude c { m with status := .failed, verification := .obj [("health", .bool false)] } artifact
      unhealthy s

/-- `publish`, under the store's exclusive lock. -/
def publish (plane : Plane π) (c : Call) (s : State π) : Except Exn Manifest × State π :=
  match prepare c s.store with
  | .error e => (.error e, s)
  | .ok (m, artifact) => apply plane c m artifact s

end OufGateway.Publication
