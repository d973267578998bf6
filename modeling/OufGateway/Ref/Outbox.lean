import Mathlib
import OufGateway.Lib.Table
import OufGateway.Lib.Trace
import OufGateway.Lib.Sha256
import OufGateway.Ref.Incidents

/-!
# The alert outbox

`AlertOutbox` keeps its destinations, deliveries and budget sessions in the
incident store's database. Each `begin immediate` block is one atomic step
here: a function from the tables to the new tables, or to the exception that
rolled it back. Between two such steps a call holds no lock, so a call is a
program counter with the locals it still needs (`Worker`), and every worker
of the system moves on its own.

What the code does not decide is an input of the step that meets it
(`Oracle`): the answer of the authorization port, what the clock reads, the
identifiers `uuid4` draws, what the transport answers and the jitter. A
worker can stop anywhere. Clock readings and durations are exact rationals.
-/

namespace OufGateway.Outbox

open Lib

def profile : String := "ouf.alert-delivery.finite.v1"

def backoff : List ℚ := [5, 15, 60, 300, 900]

/-- What a call can raise: `AlertBlocked` with its code, an SQL integrity
error, a `TypeError`, or whatever an injected port raised. -/
inductive Exn
  | blocked (code : String)
  | integrity
  | typeError
  | raised
deriving DecidableEq

inductive State
  | pending | inFlight | unknown | exhausted | paused | accepted
deriving DecidableEq, Repr

inductive SessionState
  | active | unknown | exhausted | paused | accepted | inFlight
deriving DecidableEq, Repr

/-- `'ACTIVE' if state=='PENDING' else state`. -/
def State.session : State → SessionState
  | .pending => .active
  | .inFlight => .inFlight
  | .unknown => .unknown
  | .exhausted => .exhausted
  | .paused => .paused
  | .accepted => .accepted

inductive Phase
  | critical | problem | recovery
deriving DecidableEq, Repr

def Phase.text : Phase → String
  | .critical => "CRITICAL"
  | .problem => "PROBLEM"
  | .recovery => "RECOVERY"

/-- `case phase when 'CRITICAL' then 0 when 'PROBLEM' then 1 else 2 end`. -/
def Phase.rank : Phase → Nat
  | .critical => 0
  | .problem => 1
  | .recovery => 2

structure AlertDestination where
  destinationRef : String
  recipientRef : String
  transportRef : String
  transportSecretRef : String
  policyRef : String
  minimumSeverity : String := "ERROR"
deriving DecidableEq

/-- A row of `gateway_alert_destination`; the settings stand for the JSON
text of the `config` column. -/
structure Destination where
  settings : AlertDestination
  configHash : String
  authorityTenant : String
deriving DecidableEq

def Destination.destinationRef (d : Destination) : String := d.settings.destinationRef

structure Delivery where
  deliveryId : String
  incidentId : String
  destinationRef : String
  episode : Nat
  phase : Phase
  payload : String
  configHash : String
  state : State
  version : Nat
  totalAttempts : Nat
  nextDue : ℚ
  leaseUntil : Option ℚ
  claimToken : Option String
  receiptRef : Option String
  activeSession : String
  reconciliationAttempts : Nat
deriving DecidableEq

structure Session where
  sessionId : String
  deliveryId : String
  actor : String
  actorType : String
  tenantId : String
  reason : String
  decisionRef : String
  profile : String
  startedAt : ℚ
  deadline : ℚ
  maxAttempts : Nat
  attempts : Nat
  state : SessionState
deriving DecidableEq

structure ConfigAudit where
  eventId : String
  destinationRef : String
  principal : String
  decisionRef : String
  policyRef : String
  tenantId : String
  occurredAt : ℚ
deriving DecidableEq

structure Tables where
  destinations : Table Destination.destinationRef
  receipts : List (String × Nat)
  deliveries : Table Delivery.deliveryId
  sessions : Table Session.sessionId
  audit : Table ConfigAudit.eventId

def Tables.empty : Tables := ⟨.empty, [], .empty, .empty, .empty⟩

/-! ## Authorization -/

/-- What the injected authorization port does when it is called. -/
inductive Decision
  | absent
  | raised
  | answered (grant : Json)

/-- What `_authorize` has checked of an answer before it returns it. -/
structure Grant where
  principal : String
  human : Bool
  tenant : String
  decisionRef : String
  policyRef : String
deriving DecidableEq

def Grant.actor (g : Grant) : String := if g.human then "HUMAN" else "SERVICE"

def resource (destination : String) (delivery : Option String) : Json :=
  .obj [("module", .str "GATEWAY"), ("scope", .str "PLATFORM"),
    ("destinationRef", .str destination), ("deliveryRef", Json.ofOption delivery),
    ("detailLevel", .str "RESTRICTED_OPERATIONAL")]

/-- A text of 1 to 200 characters. -/
def shortText? : Json → Option String
  | .str s => if 1 ≤ s.length ∧ s.length ≤ 200 then some s else none
  | _ => none

/-- `grant.get('actor')` when it is in `{'HUMAN','SERVICE'}`. -/
def actor? : Json → Except Exn Bool
  | .str s =>
    if s = "HUMAN" then .ok true
    else if s = "SERVICE" then .ok false
    else .error (.blocked "ALERT_OWNER_AUTHORIZATION_DENIED")
  -- A list or a dictionary has no hash to look up in the set.
  | .arr _ => .error .typeError
  | .obj _ => .error .typeError
  | _ => .error (.blocked "ALERT_OWNER_AUTHORIZATION_DENIED")

def authorize (t : Tables) (destination : String) (delivery : Option String) (human : Bool) :
    Decision → Except Exn Grant
  | .absent => .error (.blocked "ALERT_OWNER_AUTHORIZATION_UNAVAILABLE")
  | .raised => .error .raised
  | .answered grant =>
    let get (key : String) : Json := (grant.get? key).getD .null
    if ¬ (grant.isObj ∧ (get "allowed").isTrue ∧
        (get "resource").eqv (resource destination delivery) ∧
        (get "decisionRef").truthy ∧ (get "principal").truthy ∧ (get "policyRef").truthy) then
      .error (.blocked "ALERT_OWNER_AUTHORIZATION_DENIED")
    else do
      let isHuman ← actor? (get "actor")
      match shortText? (get "tenant"), shortText? (get "principal"),
          shortText? (get "decisionRef"), shortText? (get "policyRef") with
      | some tenant, some principal, some decisionRef, some policyRef =>
        if ∃ d ∈ t.destinations.find? destination, d.authorityTenant ≠ tenant then
          .error (.blocked "ALERT_TENANT_CONTEXT_MISMATCH")
        else if human && !isHuman then .error (.blocked "ALERT_HUMAN_REQUIRED")
        else .ok ⟨principal, isHuman, tenant, decisionRef, policyRef⟩
      | _, _, _, _ => .error (.blocked "ALERT_VERIFIED_IDENTITY_UNPROVEN")

/-! ## Configuration -/

/-- `[a-z][a-z0-9+.-]*://[A-Za-z0-9/_:.~-]+`: no scheme character is a colon,
so the scheme ends at the first one. -/
def isReference (s : String) : Bool :=
  let schemeChar (c : Char) : Bool := c.isLower || c.isDigit || "+.-".contains c
  let pathChar (c : Char) : Bool := c.isAlphanum || "/_:.~-".contains c
  match s.toList with
  | [] => false
  | c :: cs =>
    c.isLower &&
      match cs.dropWhile schemeChar with
      | ':' :: '/' :: '/' :: path => !path.isEmpty && path.all pathChar
      | _ => false

def AlertDestination.fields (d : AlertDestination) : List (String × String) :=
  [("destination_ref", d.destinationRef), ("recipient_ref", d.recipientRef),
    ("transport_ref", d.transportRef), ("transport_secret_ref", d.transportSecretRef),
    ("policy_ref", d.policyRef), ("minimum_severity", d.minimumSeverity)]

/-- `sort_keys=True, separators=(',',':')`. -/
def compact : Json.Format :=
  { itemSeparator := ",", keySeparator := ":", sortKeys := true }

def AlertDestination.fingerprint (d : AlertDestination) : String :=
  Sha256.ofText (Json.dumps compact (.obj (d.fields.map fun kv => (kv.1, .str kv.2))))

/-- The checks of `configure` on its argument, which is `none` when it is not
an `AlertDestination` of texts. -/
def checkDestination : Option AlertDestination → Except Exn AlertDestination
  | none => .error (.blocked "ALERT_DESTINATION_INVALID")
  | some d =>
    if (∃ kv ∈ d.fields, kv.2.length < 1 ∨ 200 < kv.2.length) ∨
        d.minimumSeverity ∉ ["WARNING", "ERROR", "CRITICAL"] then
      .error (.blocked "ALERT_DESTINATION_INVALID")
    else if ∃ ref ∈ [d.destinationRef, d.recipientRef, d.transportRef, d.transportSecretRef],
        isReference ref = false then
      .error (.blocked "ALERT_REFERENCE_REQUIRED")
    else .ok d

/-- The transaction of `configure`. -/
def configure (t : Tables) (d : AlertDestination) (grant : Grant) (uuid : String) (now : ℚ) :
    Except Exn Tables :=
  match t.destinations.find? d.destinationRef with
  | some old =>
    if old.configHash ≠ d.fingerprint then
      .error (.blocked "ALERT_DESTINATION_INTENT_CONFLICT")
    else .ok t
  | none =>
    if 32 ≤ t.destinations.rows.length then .error (.blocked "ALERT_DESTINATION_CAPACITY")
    else
      match t.destinations.insert? ⟨d, d.fingerprint, grant.tenant⟩,
          t.audit.insert? ⟨uuid, d.destinationRef, grant.principal, grant.decisionRef,
            grant.policyRef, grant.tenant, now⟩ with
      | some destinations, some audit =>
        .ok { t with destinations := destinations, audit := audit }
      | _, _ => .error .integrity

/-! ## Reconciliation of owner transitions -/

/-- What the insert of one delivery draws. -/
structure Draw where
  delivery : String
  session : String
  now : ℚ

/-- The lifecycle crossings into `RESOLVED`, not the repeated metadata. -/
def closures : Option Incidents.Lifecycle → List Incidents.Lifecycle → Nat
  | _, [] => 0
  | previous, s :: rest =>
    (if s = .resolved ∧ previous ≠ some .resolved then 1 else 0) + closures (some s) rest

def payload (item : Incidents.Incident) (episode : Nat) (phase : Phase) : String :=
  Json.dumps compact (.obj [("module", .str "GATEWAY"), ("incidentRef", .str item.incidentId),
    ("episode", .int episode), ("phase", .str phase.text),
    ("severity", .str item.severity.text), ("errorCode", Json.ofOption item.errorCode),
    ("impactSummary", .str item.impactSummary), ("requiresCurrentAuthorization", .bool true)])

def rankOf (severity : String) : Nat :=
  ((Incidents.Severity.ofText? severity).map (·.rank)).getD 0

def Delivery.same (incident destination : String) (episode : Nat) (d : Delivery) : Bool :=
  d.incidentId = incident && d.destinationRef = destination && d.episode = episode

/-- The two inserts of `_enqueue_current`. -/
def insertDelivery (t : Tables) (d : Delivery) (b : Session) : Except Exn Tables :=
  match t.deliveries.insert? d, t.sessions.insert? b with
  | some deliveries, some sessions => .ok { t with deliveries := deliveries, sessions := sessions }
  | _, _ => .error .integrity

def episodeOf (incidents : Incidents.Tables) (item : Incidents.Incident) : Nat :=
  let closed := closures none ((incidents.transitions.filter
    (·.incidentId = item.incidentId)).map (·.body.lifecycleState))
  if item.lifecycleState = .resolved then closed else closed + 1

def phaseOf (item : Incidents.Incident) : Phase :=
  if item.lifecycleState = .resolved then .recovery
  else if item.severity = .critical then .critical
  else .problem

/-- `_enqueue_current`. -/
def enqueueCurrent (incidents : Incidents.Tables) (t : Tables) (item : Incidents.Incident)
    (config : Destination) (grant : Grant) (draw : Draw) : Except Exn Tables :=
  let episode := episodeOf incidents item
  let phase := phaseOf item
  let same := Delivery.same item.incidentId config.destinationRef episode
  if phase = .recovery ∧ (t.deliveries.rows.any fun d => same d && d.phase ≠ .recovery) = false then
    .ok t
  else if phase ≠ .recovery ∧ item.severity.rank < rankOf config.settings.minimumSeverity then .ok t
  else if t.deliveries.rows.any fun d => same d && d.phase = phase then .ok t
  else
    let live (d : Delivery) : Bool := d.state ≠ .accepted
    if 4096 ≤ t.deliveries.rows.length ∨ 1024 ≤ t.deliveries.count live ∨
        128 ≤ t.deliveries.count fun d => d.destinationRef = config.destinationRef && live d then
      .error (.blocked "ALERT_OUTBOX_CAPACITY")
    else
      let encoded := payload item episode phase
      if 4096 < encoded.utf8ByteSize then .error (.blocked "ALERT_PAYLOAD_CAPACITY")
      else
        insertDelivery t
          { deliveryId := draw.delivery, incidentId := item.incidentId
            destinationRef := config.destinationRef, episode := episode, phase := phase
            payload := encoded, configHash := config.configHash, state := .pending, version := 0
            totalAttempts := 0, nextDue := draw.now, leaseUntil := none, claimToken := none
            receiptRef := none, activeSession := draw.session, reconciliationAttempts := 0 }
          { sessionId := draw.session, deliveryId := draw.delivery, actor := grant.principal
            actorType := grant.actor, tenantId := grant.tenant
            reason := "OWNER_INCIDENT_TRANSITION", decisionRef := grant.decisionRef
            profile := profile, startedAt := draw.now, deadline := draw.now + 86400
            maxAttempts := 128, attempts := 0, state := .active }

/-- The revisions of the ledger the destination has no receipt for. -/
def unreceipted (incidents : Incidents.Tables) (t : Tables) (destination : String) :
    List Incidents.Transition :=
  incidents.transitions.filter fun r => (destination, r.revision) ∉ t.receipts

/-- The groups of the query in its order: unresolved first, then by severity,
then by revision; each with its least revision and its incident. -/
def pendingGroups (incidents : Incidents.Tables) (t : Tables) (destination : String)
    (limit : Nat) : List (Nat × Incidents.Incident) :=
  let groups := incidents.incidents.filterMap fun i =>
    ((((unreceipted incidents t destination).filter (·.incidentId = i.incidentId)).map
      (·.revision)).min?).map (·, i)
  let key (g : Nat × Incidents.Incident) : Nat ×ₗ Nat ×ₗ Nat :=
    toLex (if g.2.lifecycleState = .resolved then 1 else 0, toLex (4 - g.2.severity.rank, g.1))
  (groups.mergeSort fun a b => decide (key a ≤ key b)).take limit

/-- The loop over the groups; the delivery of the `k`-th one is drawn `k`-th. -/
def enqueueGroups (incidents : Incidents.Tables) (config : Destination) (grant : Grant)
    (draws : Nat → Draw) : Nat → List (Nat × Incidents.Incident) → Tables → Except Exn Tables
  | _, [], t => .ok t
  | k, (revision, item) :: rest, t =>
    match enqueueCurrent incidents t item config grant (draws k) with
    | .error e => .error e
    | .ok t' =>
      enqueueGroups incidents config grant draws (k + 1) rest
        { t' with receipts := t'.receipts ++ [(config.destinationRef, revision)] }

/-- The transaction of `reconcile_owner_transitions`: the new tables, the
number of groups processed and whether transitions are left. -/
def reconcileOwnerTransitions (incidents : Incidents.Tables) (t : Tables) (destination : String)
    (limit : Nat) (grant : Grant) (draws : Nat → Draw) : Except Exn (Tables × Nat × Bool) :=
  match t.destinations.find? destination with
  | none => .error (.blocked "ALERT_DESTINATION_UNCONFIGURED")
  | some config =>
    if 200000 < t.receipts.length + limit then .error (.blocked "ALERT_RECEIPT_CAPACITY")
    else
      let groups := pendingGroups incidents t destination limit
      match enqueueGroups incidents config grant draws 0 groups t with
      | .error e => .error e
      | .ok t' => .ok (t', groups.length, !(unreceipted incidents t' destination).isEmpty)

/-! ## Dispatch -/

/-- The order of both dispatch queries. -/
def Delivery.before (a b : Delivery) : Bool :=
  if a.phase.rank ≠ b.phase.rank then a.phase.rank < b.phase.rank else decide (a.nextDue ≤ b.nextDue)

/-- The read before the claim. -/
def preview (t : Tables) (destination : String) (now : ℚ) : Option Delivery :=
  ((t.deliveries.rows.filter fun d =>
    d.destinationRef = destination && d.state = .pending && d.nextDue ≤ now).mergeSort
      Delivery.before).head?

/-- An attempt a worker has committed: what it still needs of the row. -/
structure Claim where
  deliveryId : String
  token : String
  version : Nat
  number : Nat
  payload : String
  recipientRef : String
  transportSecretRef : String
deriving DecidableEq

/-- A worker whose lease is over is lost, and its attempt ambiguous. -/
def expireLeases (t : Tables) (now : ℚ) : Tables :=
  { t with
    deliveries := t.deliveries.update
      (fun d => d.state = .inFlight && d.leaseUntil.any (· ≤ now))
      (fun d => { d with state := .unknown, version := d.version + 1, claimToken := none })
      fun _ => rfl }

def Session.spent (b : Session) (now : ℚ) : Bool := b.deadline ≤ now || b.maxAttempts ≤ b.attempts

def exhaustBudgets (t : Tables) (now : ℚ) : Tables :=
  { t with
    deliveries := t.deliveries.update
      (fun d => d.state = .pending &&
        t.sessions.rows.any fun b => b.sessionId = d.activeSession && b.spent now)
      (fun d => { d with state := .exhausted, version := d.version + 1 })
      fun _ => rfl }

/-- `update gateway_alert_budget_session set state=... where session_id
in(select active_session from gateway_alert_delivery where state=...)`. -/
def markSessions (t : Tables) (s : State) : Tables :=
  { t with
    sessions := t.sessions.update
      (fun b => t.deliveries.rows.any fun d => d.state = s && d.activeSession = b.sessionId)
      (fun b => { b with state := s.session })
      fun _ => rfl }

/-- The four updates every dispatch begins with. -/
def sweep (t : Tables) (now : ℚ) : Tables :=
  markSessions (markSessions (exhaustBudgets (expireLeases t now) now) .exhausted) .unknown

def exhaust (t : Tables) (delivery : String) : Tables :=
  { t with
    deliveries := t.deliveries.modify delivery
      (fun d => { d with state := .exhausted, version := d.version + 1 })
      fun _ => rfl }

/-- The two updates that commit an attempt. -/
def claim (t : Tables) (d : Delivery) (token : String) (lease : ℚ) : Tables :=
  { t with
    deliveries := t.deliveries.modify d.deliveryId
      (fun d => { d with
        state := .inFlight, version := d.version + 1, totalAttempts := d.totalAttempts + 1
        claimToken := some token, leaseUntil := some lease })
      fun _ => rfl
    sessions := t.sessions.modify d.activeSession
      (fun b => { b with attempts := b.attempts + 1 })
      fun _ => rfl }

inductive Dispatch
  | capacityPaused | noEligibleDelivery | exhausted | claimed (c : Claim)

/-- The claim transaction of `send_once`; `now` is the reading made before
the preview. -/
def claimNext (t : Tables) (destination : String) (transportRef : Option String) (now : ℚ)
    (token : String) (previewed : Option String) : Except Exn (Tables × Dispatch) :=
  match t.destinations.find? destination with
  | none => .error (.blocked "ALERT_DESTINATION_UNCONFIGURED")
  | some config =>
    if transportRef ≠ some config.settings.transportRef then
      .error (.blocked "ALERT_TRANSPORT_UNPROVEN")
    else
      let t := sweep t now
      if 16 ≤ t.deliveries.count (fun d => d.state = .inFlight) ∨
          2 ≤ t.deliveries.count fun d => d.state = .inFlight && d.destinationRef = destination then
        .ok (t, .capacityPaused)
      else
        match (t.deliveries.find? (previewed.getD "")).filter fun d =>
            d.destinationRef = destination && d.state = .pending && d.nextDue ≤ now with
        | none => .ok (t, .noEligibleDelivery)
        | some row =>
          match t.sessions.find? row.activeSession with
          | none => .ok (t, .noEligibleDelivery)
          | some budget =>
            if row.configHash ≠ config.configHash ∨ budget.deadline - now < 5 then
              .ok (exhaust t row.deliveryId, .exhausted)
            else
              .ok (claim t row token (min (now + 10) budget.deadline),
                .claimed ⟨row.deliveryId, token, row.version + 1, row.totalAttempts + 1, row.payload,
                  config.settings.recipientRef, config.settings.transportSecretRef⟩)

/-! ## Outcomes -/

inductive Kind
  | accepted | transientNotAccepted | permanent | unknown
deriving DecidableEq, Repr

def Kind.text : Kind → String
  | .accepted => "ACCEPTED"
  | .transientNotAccepted => "TRANSIENT_NOT_ACCEPTED"
  | .permanent => "PERMANENT"
  | .unknown => "UNKNOWN"

def Kind.ofText? (s : String) : Option Kind :=
  [Kind.accepted, .transientNotAccepted, .permanent, .unknown].find? (·.text = s)

/-- What `transport.send` or `transport.query` does; the fields of an
`AlertOutcome` are not checked when it is built. -/
inductive TransportAnswer
  | raised
  | other
  | outcome (kind receiptRef retryAfterSeconds : Json)

structure AlertOutcome where
  kind : Kind
  receiptRef : String := ""
  retryAfterSeconds : Nat := 0
deriving DecidableEq

/-- `outcome.kind` when it is in the set of the four kinds. -/
def kind? : Json → Except Exn (Option Kind)
  | .str s => .ok (Kind.ofText? s)
  | .arr _ => .error .typeError
  | .obj _ => .error .typeError
  | _ => .ok none

/-- Anything `send_once` cannot trust is an `UNKNOWN` outcome. -/
def normalize : TransportAnswer → Except Exn AlertOutcome
  | .raised => .ok { kind := .unknown }
  | .other => .ok { kind := .unknown }
  | .outcome kind receipt retry =>
    match kind? kind with
    | .error e => .error e
    | .ok none => .ok { kind := .unknown }
    | .ok (some k) =>
      match retry, receipt with
      | .int seconds, .str ref =>
        if 0 ≤ seconds ∧ seconds ≤ 86400 ∧ ref.length ≤ 200 ∧ ¬ (k = .accepted ∧ ref = "") then
          .ok ⟨k, ref, seconds.toNat⟩
        else .ok { kind := .unknown }
      | _, _ => .ok { kind := .unknown }

/-- `BACKOFF[min(attempts-1,len(BACKOFF)-1)]`; index -1 is the last entry. -/
def backoffOf (attempts : Nat) : ℚ :=
  if attempts = 0 then 900 else backoff.getD (min (attempts - 1) 4) 900

/-- The state and due time `_finish` gives an outcome. The jitter is `none`
when it is not a number. -/
def settle (budget : Session) (outcome : AlertOutcome) (now : ℚ) (jitter : Option ℚ) :
    Except Exn (State × ℚ) :=
  match outcome.kind with
  | .accepted => .ok (.accepted, now)
  | .permanent => .ok (.paused, now)
  | .unknown => .ok (.unknown, now)
  | .transientNotAccepted =>
    match jitter.filter fun f => 4 / 5 ≤ f ∧ f ≤ 6 / 5 with
    | none => .error (.blocked "ALERT_JITTER_INVALID")
    | some factor =>
      let due := now + max (backoffOf budget.attempts * factor) outcome.retryAfterSeconds
      if budget.maxAttempts ≤ budget.attempts ∨ budget.deadline ≤ due + 5 then
        .ok (.exhausted, due)
      else .ok (.pending, due)

/-- The two updates of `_finish`; a retry leaves the session as it is. -/
def writeOutcome (t : Tables) (d : Delivery) (s : State) (due : ℚ) (receipt : String) : Tables :=
  { t with
    deliveries := t.deliveries.modify d.deliveryId
      (fun d => { d with
        state := s, version := d.version + 1, nextDue := due, claimToken := none
        leaseUntil := none, receiptRef := some receipt })
      fun _ => rfl
    sessions :=
      if s = .pending then t.sessions
      else t.sessions.modify d.activeSession (fun b => { b with state := s.session }) fun _ => rfl }

/-- `_finish`. -/
def finish (t : Tables) (c : Claim) (outcome : AlertOutcome) (now : ℚ) (jitter : Option ℚ) :
    Except Exn (Tables × State) :=
  match t.deliveries.find? c.deliveryId with
  | none => .error (.blocked "ALERT_STALE_DISPATCH_RESULT")
  | some row =>
    match t.sessions.find? row.activeSession with
    | none => .error (.blocked "ALERT_STALE_DISPATCH_RESULT")
    | some budget =>
      if row.state ≠ .inFlight ∨ row.claimToken ≠ some c.token ∨ row.version ≠ c.version then
        .error (.blocked "ALERT_STALE_DISPATCH_RESULT")
      else
        match row.leaseUntil with
        | none => .error .typeError
        | some lease =>
          if lease ≤ now then .error (.blocked "ALERT_STALE_DISPATCH_RESULT")
          else
            match settle budget outcome now jitter with
            | .error e => .error e
            | .ok (s, due) => .ok (writeOutcome t row s due outcome.receiptRef, s)

/-! ## Renewal -/

/-- The session a renewal leaves behind is marked. -/
def retire (t : Tables) (d : Delivery) : Tables :=
  { t with
    sessions := t.sessions.modify d.activeSession (fun b => { b with state := .exhausted })
      fun _ => rfl }

/-- The delivery runs on the new session. -/
def activate (t : Tables) (delivery : String) (b : Session) : Tables :=
  { t with
    deliveries := t.deliveries.modify delivery
      (fun d => { d with
        activeSession := b.sessionId, state := .pending, nextDue := b.startedAt
        version := d.version + 1 })
      fun _ => rfl }

/-- The three updates of a renewal. -/
def openSession (t : Tables) (d : Delivery) (b : Session) : Except Exn Tables :=
  match (retire t d).sessions.insert? b with
  | none => .error .integrity
  | some sessions => .ok (activate { t with sessions := sessions } d.deliveryId b)

/-- The transaction of `renew_exhausted_budget`. -/
def renew (t : Tables) (delivery : String) (expectedVersion : Int) (reason : String)
    (grant : Grant) (sid : String) (now : ℚ) : Except Exn Tables :=
  match t.deliveries.find? delivery with
  | none => .error .typeError
  | some row =>
    if row.state ≠ .exhausted ∨ (row.version : Int) ≠ expectedVersion then
      .error (.blocked "ALERT_RECOVERY_CONFLICT")
    else
      openSession t row
        { sessionId := sid, deliveryId := delivery, actor := grant.principal
          actorType := grant.actor, tenantId := grant.tenant, reason := reason
          decisionRef := grant.decisionRef, profile := profile, startedAt := now
          deadline := now + 86400, maxAttempts := 128, attempts := 0, state := .active }

/-! ## Reconciliation of an ambiguous delivery -/

/-- The allowance a query needs; it does not move the version. -/
def allow (t : Tables) (delivery : String) : Tables :=
  { t with
    deliveries := t.deliveries.modify delivery
      (fun d => { d with reconciliationAttempts := d.reconciliationAttempts + 1 })
      fun _ => rfl }

/-- The guarded update before the query, with the number of the allowance. -/
def takeAllowance (t : Tables) (delivery : String) (expectedVersion : Int) :
    Except Exn (Tables × Nat) :=
  match (t.deliveries.find? delivery).filter fun d =>
      (d.version : Int) = expectedVersion && d.state = .unknown && d.reconciliationAttempts < 8 with
  | none => .error (.blocked "ALERT_RECONCILIATION_CONTROL_EXHAUSTED")
  | some row => .ok (allow t delivery, row.reconciliationAttempts + 1)

/-- What a query can prove: accepted, with the receipt, or not accepted, with
whatever the receipt field holds. -/
inductive Proof
  | accepted (receipt : Json)
  | notAccepted (receipt : Json)

/-- `len` of a receipt that is not empty or zero. -/
def length? : Json → Except Exn Nat
  | .str s => .ok s.length
  | .arr items => .ok items.length
  | .obj members => .ok members.length
  | _ => .error .typeError

/-- The checks on the answer of `transport.query`; `none` leaves `UNKNOWN`. -/
def proof? : TransportAnswer → Except Exn (Option Proof)
  | .raised => .ok none
  | .other => .ok none
  | .outcome kind receipt _ =>
    match kind? kind with
    | .error e => .error e
    | .ok (some .accepted) =>
      if receipt.truthy then
        match length? receipt with
        | .error e => .error e
        | .ok n => .ok (if 200 < n then none else some (.accepted receipt))
      else .ok none
    | .ok (some .transientNotAccepted) => .ok (some (.notAccepted receipt))
    | .ok _ => .ok none

/-- What SQLite stores for a bound value in a text column. -/
def bindText : Json → Except Exn (Option String)
  | .null => .ok none
  | .str s => .ok (some s)
  | .bool b => .ok (some (if b then "1" else "0"))
  | .int n =>
    -- SQLite integers are 64 bits wide.
    if -2 ^ 63 ≤ n ∧ n < 2 ^ 63 then .ok (some (toString n)) else .error .typeError
  | .float _ digits => .ok (some digits)
  | .arr _ => .error .typeError
  | .obj _ => .error .typeError
  | .object _ => .error .typeError

/-- The two updates that commit what the query proved. -/
def writeProof (t : Tables) (d : Delivery) (s : State) (due : ℚ) (receipt : Option String) :
    Tables :=
  { t with
    deliveries := t.deliveries.modify d.deliveryId
      (fun d => { d with
        state := s, version := d.version + 1, nextDue := due, receiptRef := receipt })
      fun _ => rfl
    sessions := t.sessions.modify d.activeSession (fun b => { b with state := s.session })
      fun _ => rfl }

/-- The state a proof gives; a delivery that was not accepted resumes within
the budget it has left. -/
def Proof.state (p : Proof) (budget : Session) (now : ℚ) : State :=
  match p with
  | .accepted _ => .accepted
  | .notAccepted _ =>
    if budget.attempts < budget.maxAttempts ∧ now + 5 < budget.deadline then .pending
    else .exhausted

def Proof.receipt : Proof → Json
  | .accepted receipt => receipt
  | .notAccepted receipt => receipt

def Proof.kind : Proof → Kind
  | .accepted _ => .accepted
  | .notAccepted _ => .transientNotAccepted

/-- The last transaction of `reconcile_ambiguous_delivery`, which reads the
clock twice. -/
def commitProof (t : Tables) (delivery : String) (expectedVersion : Int) (p : Proof)
    (now later : ℚ) : Except Exn (Tables × State) :=
  match t.deliveries.find? delivery with
  | none => .error .typeError
  | some row =>
    match t.sessions.find? row.activeSession with
    | none => .error .typeError
    | some budget =>
      if row.state ≠ .unknown ∨ (row.version : Int) ≠ expectedVersion then
        .error (.blocked "ALERT_RECONCILIATION_CONFLICT")
      else
        match bindText p.receipt with
        | .error e => .error e
        | .ok receipt =>
          let s := p.state budget now
          .ok (writeProof t row s later receipt, s)

/-! ## Workers -/

/-- What a call answers. -/
inductive Reply
  | configured
  | enqueued (processedTransitions : Nat) (ownerTransitionsPending : Bool)
  /-- `providerCalls` is 0. -/
  | notSent (status : String)
  /-- `providerCalls` is 1. -/
  | finished (status : State)
  | renewed (newBudgetSession : String) (deadline : ℚ)
  | ambiguous
  | reconciled (status : State)
deriving DecidableEq

/-- Where a worker stands in its call, with the locals the rest needs. -/
inductive Worker
  | idle
  | done (result : Except Exn Reply)
  -- `configure`
  | configureStart (destination : AlertDestination)
  | configureCommit (destination : AlertDestination) (grant : Grant)
  -- `reconcile_owner_transitions`
  | enqueueStart (destination : String) (limit : Nat)
  | enqueueCommit (destination : String) (limit : Nat) (grant : Grant)
  -- `send_once`, and `_finish` from `finishing` on
  | sendStart (destination : String) (transportRef : Option String)
  | sendPreview (destination : String) (transportRef : Option String)
  | sendAuthorize (destination : String) (transportRef : Option String) (now : ℚ)
      (token delivery : String)
  | sendCommit (destination : String) (transportRef : Option String) (now : ℚ) (token : String)
      (previewed : Option String)
  | holding (c : Claim)
  | sending (c : Claim)
  | finishing (c : Claim) (outcome : AlertOutcome)
  | finishCommit (c : Claim) (outcome : AlertOutcome) (now : ℚ)
  -- `renew_exhausted_budget`
  | renewStart (delivery : String) (expectedVersion reason : Json)
  | renewAuthorize (delivery destination : String) (expectedVersion reason : Json)
  | renewCommit (delivery : String) (expectedVersion : Int) (reason : String) (grant : Grant)
  -- `reconcile_ambiguous_delivery`
  | reconcileStart (delivery : String) (expectedVersion : Json) (transportRef : Option String)
  | reconcileAuthorize (row : Delivery) (expectedVersion : Json) (transportRef : Option String)
  | reconcileCheck (row : Delivery) (expectedVersion : Json) (transportRef : Option String)
  | reconcileAllow (delivery : String) (expectedVersion : Int)
  | allowed (delivery : String) (expectedVersion : Int) (number : Nat)
  | querying (delivery : String) (expectedVersion : Int)
  | reconcileCommit (delivery : String) (expectedVersion : Int) (p : Proof)

/-- The public operations, with their untyped arguments as they arrive. -/
inductive Call
  | configure (destination : Option AlertDestination)
  | reconcileOwnerTransitions (destination : String) (limit : Json)
  | sendOnce (destination : String) (transportRef : Option String)
  | renewExhaustedBudget (delivery : String) (expectedVersion reason : Json)
  | reconcileAmbiguousDelivery (delivery : String) (expectedVersion : Json)
      (transportRef : Option String)

/-- What the code leaves open in one step of a worker. -/
structure Oracle where
  decision : Decision
  now : ℚ
  later : ℚ
  uuid : String
  draws : Nat → Draw
  answer : TransportAnswer
  jitter : Option ℚ

/-- What a step makes visible. The number of a claim is the delivery's
`total_attempts` after it, and that of an allowance its
`reconciliation_attempts`. -/
inductive Event
  | claimed (delivery : String) (number : Nat)
  | sent (delivery : String) (number : Nat)
  | finished (delivery : String) (number : Nat) (kind : Kind) (state : State) (now : ℚ)
  | renewed (delivery : String)
  | allowed (delivery : String) (number : Nat)
  | queried (delivery : String) (number : Nat)
  | reconciled (delivery : String) (kind : Kind) (state : State)
deriving DecidableEq

def fail (e : Exn) : Worker := .done (.error e)

/-- A call begins with the checks that need nothing from outside. -/
def begin : Call → Worker
  | .configure destination =>
    match checkDestination destination with
    | .error e => fail e
    | .ok d => .configureStart d
  | .reconcileOwnerTransitions destination limit =>
    match limit with
    | .int n =>
      if 1 ≤ n ∧ n ≤ 64 then .enqueueStart destination n.toNat
      else fail (.blocked "ALERT_RECONCILE_LIMIT")
    | _ => fail (.blocked "ALERT_RECONCILE_LIMIT")
  | .sendOnce destination transportRef => .sendStart destination transportRef
  | .renewExhaustedBudget delivery v reason => .renewStart delivery v reason
  | .reconcileAmbiguousDelivery delivery v transportRef => .reconcileStart delivery v transportRef

/-- A transaction commits, or its exception ends the call. -/
def transact {α : Type} (t : Tables) (x : Except Exn (Tables × α)) (k : α → Worker × List Event) :
    Tables × Worker × List Event :=
  match x with
  | .ok (t', a) => (t', k a)
  | .error e => (t, fail e, [])

/-- A step that reads the tables and writes nothing. -/
def proceed (x : Except Exn Worker) : Worker :=
  match x with
  | .ok w => w
  | .error e => fail e

def reply (r : Reply) : Worker := .done (.ok r)

/-- The steps of a call that only read the tables. -/
def observe (t : Tables) (o : Oracle) : Worker → Worker
  | .configureStart d => proceed do
      let grant ← authorize t d.destinationRef none true o.decision
      if grant.policyRef ≠ d.policyRef then .error (.blocked "ALERT_DESTINATION_POLICY_UNPROVEN")
      else .ok (.configureCommit d grant)
  | .enqueueStart destination limit => proceed do
      let grant ← authorize t destination none false o.decision
      .ok (.enqueueCommit destination limit grant)
  | .sendStart destination transportRef => proceed do
      let _ ← authorize t destination none false o.decision
      .ok (.sendPreview destination transportRef)
  | .sendPreview destination transportRef =>
    match preview t destination o.now with
    | none => .sendCommit destination transportRef o.now o.uuid none
    | some d => .sendAuthorize destination transportRef o.now o.uuid d.deliveryId
  | .sendAuthorize destination transportRef now token delivery => proceed do
      let _ ← authorize t destination (some delivery) false o.decision
      .ok (.sendCommit destination transportRef now token (some delivery))
  | .sending c =>
    match normalize o.answer with
    | .error e => fail e
    | .ok outcome => .finishing c outcome
  | .finishing c outcome => .finishCommit c outcome o.now
  | .renewStart delivery v reason =>
    match t.deliveries.find? delivery with
    | none => fail (.blocked "ALERT_DELIVERY_NOT_FOUND")
    | some row => .renewAuthorize delivery row.destinationRef v reason
  | .renewAuthorize delivery destination v reason => proceed do
      let grant ← authorize t destination (some delivery) true o.decision
      match v, reason with
      | .int n, .str s =>
        if 1 ≤ s.length ∧ s.length ≤ 1000 then .ok (.renewCommit delivery n s grant)
        else .error (.blocked "ALERT_RECOVERY_INTENT_INVALID")
      | _, _ => .error (.blocked "ALERT_RECOVERY_INTENT_INVALID")
  | .reconcileStart delivery v transportRef =>
    match t.deliveries.find? delivery with
    | none => fail (.blocked "ALERT_DELIVERY_NOT_FOUND")
    | some row => .reconcileAuthorize row v transportRef
  | .reconcileAuthorize row v transportRef => proceed do
      let _ ← authorize t row.destinationRef (some row.deliveryId) false o.decision
      .ok (.reconcileCheck row v transportRef)
  | .reconcileCheck row v transportRef =>
    if (t.destinations.find? row.destinationRef).all fun d =>
        transportRef ≠ some d.settings.transportRef then
      fail (.blocked "ALERT_TRANSPORT_UNPROVEN")
    else
      match v with
      | .int n =>
        if row.state ≠ .unknown ∨ (row.version : Int) ≠ n then
          fail (.blocked "ALERT_RECONCILIATION_CONFLICT")
        else .reconcileAllow row.deliveryId n
      | _ => fail (.blocked "ALERT_RECONCILIATION_CONFLICT")
  | .querying delivery v =>
    match proof? o.answer with
    | .error e => fail e
    | .ok none => reply .ambiguous
    | .ok (some p) => .reconcileCommit delivery v p
  | w => w

/-- One step of a worker: a transaction, a call of the transport, or a step
that only reads. -/
def advance (incidents : Incidents.Tables) (t : Tables) (o : Oracle) (w : Worker) :
    Tables × Worker × List Event :=
  match w with
  | .configureCommit d grant =>
    transact t ((configure t d grant o.uuid o.now).map (·, ())) fun _ => (reply .configured, [])
  | .enqueueCommit destination limit grant =>
    transact t (reconcileOwnerTransitions incidents t destination limit grant o.draws) fun r =>
      (reply (.enqueued r.1 r.2), [])
  | .sendCommit destination transportRef now token previewed =>
    transact t (claimNext t destination transportRef now token previewed) fun
      | .capacityPaused => (reply (.notSent "CAPACITY_PAUSED"), [])
      | .noEligibleDelivery => (reply (.notSent "NO_ELIGIBLE_DELIVERY"), [])
      | .exhausted => (reply (.notSent "EXHAUSTED"), [])
      | .claimed c => (.holding c, [.claimed c.deliveryId c.number])
  | .holding c => (t, .sending c, [.sent c.deliveryId c.number])
  | .finishCommit c outcome now =>
    transact t (finish t c outcome now o.jitter) fun s =>
      (reply (.finished s), [.finished c.deliveryId c.number outcome.kind s now])
  | .renewCommit delivery v reason grant =>
    transact t ((renew t delivery v reason grant o.uuid o.now).map (·, ())) fun _ =>
      (reply (.renewed o.uuid (o.now + 86400)), [.renewed delivery])
  | .reconcileAllow delivery v =>
    transact t (takeAllowance t delivery v) fun n =>
      (.allowed delivery v n, [.allowed delivery n])
  | .allowed delivery v n => (t, .querying delivery v, [.queried delivery n])
  | .reconcileCommit delivery v p =>
    transact t (commitProof t delivery v p o.now o.later) fun s =>
      (reply (.reconciled s), [.reconciled delivery p.kind s])
  | w => (t, observe t o w, [])

/-! ## The system -/

structure World where
  incidents : Incidents.Tables
  tables : Tables
  workers : Nat → Worker

inductive Input
  | incident (w : Incidents.Write)
  | call (worker : Nat) (c : Call)
  | step (worker : Nat) (o : Oracle)
  | crash (worker : Nat)

/-- A worker in a call takes no other; one that stops drops its locals. -/
def World.next (w : World) : Input → World × List Event
  | .incident write => ({ w with incidents := w.incidents.write write }, [])
  | .call i c =>
    match w.workers i with
    | .idle => ({ w with workers := Function.update w.workers i (begin c) }, [])
    | .done _ => ({ w with workers := Function.update w.workers i (begin c) }, [])
    | _ => (w, [])
  | .step i o =>
    let (t, worker, events) := advance w.incidents w.tables o (w.workers i)
    ({ w with tables := t, workers := Function.update w.workers i worker }, events)
  | .crash i => ({ w with workers := Function.update w.workers i .idle }, [])

def system : Machine World Input Event where
  step w i := (w.next i).1
  emit w i := (w.next i).2

/-- An outbox over an incident store, before its first call. -/
def World.initial (incidents : Incidents.Tables) : World :=
  ⟨incidents, .empty, fun _ => .idle⟩

end OufGateway.Outbox
