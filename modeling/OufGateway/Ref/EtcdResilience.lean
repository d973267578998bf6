import OufGateway.Lib.Text
import OufGateway.Ref.Incidents

/-!
# The etcd safety gate

`PublicationResilienceGate`: whether what was measured of etcd allows a publication, with
an incident for as long as it does not, and whether a restored state is the one that was
desired. The sink is the incident store, or there is none. A call of the store may raise,
and then the check raises that. The text of the clock and the identifier that `uuid4`
draws are arguments, as they are for the store.
-/

namespace OufGateway.EtcdResilience

open Lib
open Incidents (OpenArgs StoreError Tables openIncident resolveIncident)

/-- `EtcdSafetyError` with its code, the `ValueError` of the constructor, or what the sink raises. -/
inductive GateError
  | safety (code : String)
  | value (text : String)
  | sink (e : StoreError)
deriving DecidableEq

structure EtcdHealth where
  quorum : Bool
  storageSlow : Bool
  pendingProposals : Int
  leaderChanges : Int

structure DesiredState where
  revision : String
  routes : List String
  upstreams : List String

structure RestoredState where
  activeRevision : Option String
  routes : List String
  upstreams : List String

/-- A gate, as its constructor leaves it. -/
structure PublicationResilienceGate where
  allowedUpstreams : List String
  maxPendingProposals : Int
  nonempty : allowedUpstreams ≠ []
  positive : 1 ≤ maxPendingProposals

/-- `__init__`. -/
def init (allowedUpstreams : List String) (maxPendingProposals : Option Int) :
    Except GateError PublicationResilienceGate :=
  let max := maxPendingProposals.getD 64
  if hallowed : allowedUpstreams = [] then .error (.value "allowed_upstreams must be non-empty")
  else if hmax : max < 1 then .error (.value "max_pending_proposals must be positive")
  else .ok ⟨allowedUpstreams, max, hallowed, by omega⟩

variable (g : PublicationResilienceGate)

def publicationAllowed (h : EtcdHealth) : Bool :=
  h.quorum && !h.storageSlow && h.pendingProposals ≤ g.maxPendingProposals

/-! ## Checks -/

/-- `INCIDENT_KEY`. -/
def incidentKey : String := "gateway:etcd:publication-blocked"

/-- What `_incident` is called with. -/
structure Obstacle where
  errorCode : String
  severity : String
  impactSummary : String
deriving DecidableEq

def quorumUnavailable : Obstacle :=
  ⟨"ETCD_QUORUM_UNAVAILABLE", "CRITICAL",
    "Gateway publication is blocked because the etcd quorum is unavailable."⟩

def storageSlow : Obstacle :=
  ⟨"ETCD_STORAGE_SLOW", "ERROR", "Gateway publication is blocked because etcd storage latency is degraded."⟩

def backpressureRequired : Obstacle :=
  ⟨"ETCD_BACKPRESSURE_REQUIRED", "WARNING",
    "Gateway publication is throttled because etcd pending proposals exceed the governed threshold."⟩

def recovered : String :=
  "Gateway etcd publication safety recovered; quorum, storage and proposal backlog are within governed limits."

/-- What `_incident` gives the sink. -/
def Obstacle.args (o : Obstacle) : OpenArgs :=
  { dedupKey := incidentKey, eventType := "GATEWAY_ETCD_DEGRADED", severity := o.severity
    errorCode := some o.errorCode, impactSummary := o.impactSummary
    endpointRef := some "gateway://control-plane/etcd", actionRequired := true }

/-- `_incident`. -/
def incident (sink : Option Tables) (uuid now : String) (o : Obstacle) : Except GateError (Option Tables) :=
  match sink with
  | none => .ok none
  | some t =>
    match openIncident t uuid now o.args with
    | .ok (t', _) => .ok (some t')
    | .error e => .error (.sink e)

/-- `_incident`, and then `EtcdSafetyError`. -/
def block (sink : Option Tables) (uuid now : String) (o : Obstacle) : Option Tables × Except GateError Unit :=
  match incident sink uuid now o with
  | .ok sink => (sink, .error (.safety o.errorCode))
  | .error e => (sink, .error e)

def requirePublicationAllowed (sink : Option Tables) (uuid now : String) (h : EtcdHealth) :
    Option Tables × Except GateError Unit :=
  if !h.quorum then block sink uuid now quorumUnavailable
  else if h.storageSlow then block sink uuid now storageSlow
  else if g.maxPendingProposals < h.pendingProposals then block sink uuid now backpressureRequired
  else (sink.map fun t => (resolveIncident t now incidentKey recovered).1, .ok ())

/-! ## Restores -/

/-- `tuple(sorted(..))`. -/
def sorted (texts : List String) : List String := texts.mergeSort fun a b => decide (a ≤ b)

def verifyRestore (desired : DesiredState) (restored : RestoredState) : Except GateError Unit :=
  if restored.activeRevision ≠ some desired.revision then .error (.safety "RESTORE_REVISION_MISMATCH")
  else if sorted restored.routes ≠ sorted desired.routes then .error (.safety "RESTORE_PARTIAL_OR_EXTRA_ROUTES")
  else if sorted restored.upstreams ≠ sorted desired.upstreams then
    .error (.safety "RESTORE_PARTIAL_OR_EXTRA_UPSTREAMS")
  else if restored.upstreams.any fun u => !g.allowedUpstreams.contains u then
    .error (.safety "RESTORE_UNALLOWLISTED_UPSTREAM")
  else if restored.routes.any (Text.hasChar '*') then .error (.safety "RESTORE_WILDCARD_ROUTE")
  else if restored.upstreams.any (Text.hasChar '*') then .error (.safety "RESTORE_WILDCARD_UPSTREAM")
  else .ok ()

/-! ## Runs -/

/-- A check of the gate, or a write of somebody else to the store. -/
inductive Step
  | check (uuid now : String) (h : EtcdHealth)
  | other (w : Incidents.Write)

/-- The key that a write is for. -/
def keyOf : Incidents.Write → Option String
  | .openIncident _ _ a => some a.dedupKey
  | .recovering _ key _ => some key
  | .resolveIncident _ key _ => some key
  | .startHistory _ => none

/-- What a check was asked and what it answered. -/
structure Checked where
  health : EtcdHealth
  answer : Except GateError Unit

/-- The store after some steps, and the checks among them in their order. -/
def run : Tables → List Step → Tables × List Checked
  | t, [] => (t, [])
  | t, .check uuid now h :: steps =>
    let checked := requirePublicationAllowed g (some t) uuid now h
    let rest := run (checked.1.getD t) steps
    (rest.1, ⟨h, checked.2⟩ :: rest.2)
  | t, .other w :: steps => run (t.write w) steps

end OufGateway.EtcdResilience
