import Mathlib
import OufGateway.Lib.Json

/-!
# The incident store and its transition ledger

`SQLiteOperationalIncidentStore` keeps one row per deduplication key; the
triggers `OwnerIncidentCursor` installs append the new row to an immutable
ledger on every insert and update, in the same transaction. A write below is
one such transaction: it answers the new tables, or the error that rolled it
back. Timestamps are the texts the source stores, compared as text; the text a
write reads from the clock and the identifier it draws are arguments.
-/

namespace OufGateway.Incidents

open Lib

inductive Lifecycle
  | opened | recovering | resolved
deriving DecidableEq, Repr

inductive Severity
  | info | warning | error | critical
deriving DecidableEq, Repr

def Lifecycle.text : Lifecycle → String
  | .opened => "OPEN"
  | .recovering => "RECOVERING"
  | .resolved => "RESOLVED"

def Severity.text : Severity → String
  | .info => "INFO"
  | .warning => "WARNING"
  | .error => "ERROR"
  | .critical => "CRITICAL"

def Severity.ofText? (s : String) : Option Severity :=
  [Severity.info, .warning, .error, .critical].find? (·.text = s)

def Lifecycle.ofText? (s : String) : Option Lifecycle :=
  [Lifecycle.opened, .recovering, .resolved].find? (·.text = s)

/-- `case severity when 'CRITICAL' then 4 ... end`. -/
def Severity.rank : Severity → Nat
  | .info => 1
  | .warning => 2
  | .error => 3
  | .critical => 4

/-- A row of `gateway_operational_incident`; the ledger's bodies project it
on the same sixteen columns. -/
structure Incident where
  incidentId : String
  dedupKey : String
  module : String
  eventType : String
  lifecycleState : Lifecycle
  severity : Severity
  firstSeenAt : String
  lastSeenAt : String
  resolvedAt : Option String
  correlationId : Option String
  endpointRef : Option String
  errorCode : Option String
  impactSummary : String
  actionRequired : Bool
  occurrenceCount : Nat
  visibilityClass : String
deriving DecidableEq

/-- A row of `gateway_incident_transition`. -/
structure Transition where
  revision : Nat
  incidentId : String
  body : Incident
deriving DecidableEq

structure Tables where
  incidents : List Incident
  /-- `gateway_incident_history_baseline.created_at`. -/
  baseline : Option String
  transitions : List Transition
deriving DecidableEq

inductive StoreError
  | value (text : String)
  | integrity
deriving DecidableEq

/-- `coalesce(max(revision),0)`. -/
def maxRevision (ts : List Transition) : Nat := (ts.map (·.revision)).foldl max 0

/-- The trigger: the new row goes to the end of the ledger. -/
def Tables.append (t : Tables) (body : Incident) : Tables :=
  { t with transitions := t.transitions ++
      [⟨maxRevision t.transitions + 1, body.incidentId, body⟩] }

/-- `update ... where dedup_key=?` and its trigger. -/
def Tables.replace (t : Tables) (row : Incident) : Tables :=
  let rows := t.incidents.map fun i : Incident => if i.dedupKey = row.dedupKey then row else i
  Tables.append { t with incidents := rows } row

def findKey (t : Tables) (dedupKey : String) : Option Incident :=
  t.incidents.find? (·.dedupKey = dedupKey)

structure OpenArgs where
  dedupKey : String
  eventType : String
  severity : String
  errorCode : Option String
  impactSummary : String
  correlationId : Option String := none
  endpointRef : Option String := none
  actionRequired : Bool := true
  visibilityClass : String := "RESTRICTED_OPERATIONAL"

def openIncident (t : Tables) (uuid now : String) (a : OpenArgs) :
    Except StoreError (Tables × Incident) :=
  match Severity.ofText? a.severity with
  | none => .error (.value "invalid severity")
  | some severity =>
    if a.dedupKey = "" ∨ a.eventType = "" ∨ a.impactSummary = "" then
      .error (.value "incident identity and safe impact summary are required")
    else if a.visibilityClass ≠ "RESTRICTED_OPERATIONAL" then
      .error (.value "reference store accepts platform operational incidents only")
    else if t.incidents.any (·.incidentId = uuid) then .error .integrity
    else match findKey t a.dedupKey with
      | none =>
        let row : Incident :=
          { incidentId := uuid, dedupKey := a.dedupKey, module := "GATEWAY"
            eventType := a.eventType, lifecycleState := .opened, severity := severity
            firstSeenAt := now, lastSeenAt := now, resolvedAt := none
            correlationId := a.correlationId, endpointRef := a.endpointRef
            errorCode := a.errorCode, impactSummary := a.impactSummary
            actionRequired := a.actionRequired, occurrenceCount := 1
            visibilityClass := a.visibilityClass }
        .ok (Tables.append { t with incidents := t.incidents ++ [row] } row, row)
      | some old =>
        let row : Incident :=
          { old with
            eventType := a.eventType, lifecycleState := .opened, severity := severity
            lastSeenAt := max old.lastSeenAt now, resolvedAt := none
            correlationId := a.correlationId.or old.correlationId
            endpointRef := a.endpointRef.or old.endpointRef
            errorCode := a.errorCode, impactSummary := a.impactSummary
            actionRequired := a.actionRequired
            occurrenceCount := old.occurrenceCount + 1
            visibilityClass := a.visibilityClass }
        .ok (t.replace row, row)

def recovering (t : Tables) (now dedupKey impactSummary : String) :
    Tables × Option Incident :=
  match findKey t dedupKey with
  | none => (t, none)
  | some old =>
    let row : Incident :=
      { old with
        lifecycleState := .recovering, lastSeenAt := max old.lastSeenAt now
        resolvedAt := none, impactSummary := impactSummary, actionRequired := false }
    (t.replace row, some row)

def resolveIncident (t : Tables) (now dedupKey impactSummary : String) :
    Tables × Option Incident :=
  match findKey t dedupKey with
  | none => (t, none)
  | some old =>
    let row : Incident :=
      { old with
        lifecycleState := .resolved, lastSeenAt := max old.lastSeenAt now
        resolvedAt := some (max old.lastSeenAt now), impactSummary := impactSummary
        actionRequired := false }
    (t.replace row, some row)

/-- The first start over a file admits the baseline: every row that is
already there goes to the ledger as it is. -/
def startHistory (t : Tables) (now : String) : Tables :=
  match t.baseline with
  | some _ => t
  | none => t.incidents.foldl Tables.append { t with baseline := some now }

/-! ## Runs -/

/-- One write of the store, with the clock text and the identifier it draws. -/
inductive Write
  | openIncident (uuid now : String) (args : OpenArgs)
  | recovering (now dedupKey impactSummary : String)
  | resolveIncident (now dedupKey impactSummary : String)
  | startHistory (now : String)

/-- A write that raises is rolled back. -/
def Tables.write (t : Tables) : Write → Tables
  | .openIncident uuid now args =>
    match Incidents.openIncident t uuid now args with
    | .ok (t', _) => t'
    | .error _ => t
  | .recovering now key impact => (Incidents.recovering t now key impact).1
  | .resolveIncident now key impact => (Incidents.resolveIncident t now key impact).1
  | .startHistory now => Incidents.startHistory t now

/-! ## Reads -/

/-- The order of `list_incidents`. -/
def Incident.before (a b : Incident) : Bool :=
  let key (i : Incident) : Nat × Nat × Nat :=
    (if i.lifecycleState = .resolved then 1 else 0, 4 - i.severity.rank,
      if i.actionRequired then 0 else 1)
  if key a ≠ key b then
    decide (toLex ((key a).1, toLex ((key a).2.1, (key a).2.2)) <
      toLex ((key b).1, toLex ((key b).2.1, (key b).2.2)))
  else if a.lastSeenAt ≠ b.lastSeenAt then decide (b.lastSeenAt < a.lastSeenAt)
  else decide (a.incidentId ≤ b.incidentId)

/-- `list_incidents` on normalized arguments. -/
def listIncidents (t : Tables) (lifecycleState : Option Lifecycle) (limit : Nat)
    (since : Option String) : Except StoreError (List Incident) :=
  if limit < 1 ∨ 200 < limit then .error (.value "limit must be between 1 and 200")
  else
    .ok (((t.incidents.filter fun i =>
        (∀ s ∈ lifecycleState, i.lifecycleState = s) ∧
          (∀ s ∈ since, s ≤ i.lastSeenAt)).mergeSort Incident.before).take limit)

end OufGateway.Incidents
