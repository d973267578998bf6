import Mathlib
import OufGateway.Lib.Trace
import OufGateway.Lib.JsonParse
import OufGateway.Ref.Incidents

/-!
# The ledger as it lies in the file

`gateway_incident_transition` holds text: the body of a row is the JSON the
triggers build with `json_object`, or, for the rows that were there before the
first start, the JSON `json.dumps` writes. `Incidents.Tables` has these bodies
decoded; here they are as they are stored. The statements of a write act on the
incident table alone, and the rows they hand to the triggers are those a write
puts into an empty ledger.

An attempt is one transaction. A crash, a failed commit or a `rollback` leaves
the file as the attempt found it.
-/

namespace OufGateway.Incidents

open Lib

/-! ## What a call commits -/

inductive Operation
  | openIncident | recovering | resolveIncident
deriving DecidableEq, Repr

/-- A call that wrote a row: the key it was called with and the row it returns. -/
structure Committed where
  operation : Operation
  dedupKey : String
  row : Incident
deriving DecidableEq

def Tables.committed (t : Tables) : Write → List Committed
  | .openIncident uuid now args =>
    match Incidents.openIncident t uuid now args with
    | .ok (_, row) => [⟨.openIncident, args.dedupKey, row⟩]
    | .error _ => []
  | .recovering now key impact =>
    (Incidents.recovering t now key impact).2.toList.map (⟨.recovering, key, ·⟩)
  | .resolveIncident now key impact =>
    (Incidents.resolveIncident t now key impact).2.toList.map (⟨.resolveIncident, key, ·⟩)
  | .startHistory _ => []

def store : Machine Tables Write Committed where
  step := Tables.write
  emit := Tables.committed

/-- A file before anything was written to it. -/
def Tables.empty : Tables := ⟨[], none, []⟩

/-! ## The sixteen fields -/

/-- The fixed projection of a row, in its order. -/
def Incident.fields (i : Incident) : List (String × Json) :=
  [("incident_id", .str i.incidentId), ("dedup_key", .str i.dedupKey),
    ("module", .str i.module), ("event_type", .str i.eventType),
    ("lifecycle_state", .str i.lifecycleState.text), ("severity", .str i.severity.text),
    ("first_seen_at", .str i.firstSeenAt), ("last_seen_at", .str i.lastSeenAt),
    ("resolved_at", .ofOption i.resolvedAt), ("correlation_id", .ofOption i.correlationId),
    ("endpoint_ref", .ofOption i.endpointRef), ("error_code", .ofOption i.errorCode),
    ("impact_summary", .str i.impactSummary), ("action_required", .bool i.actionRequired),
    ("occurrence_count", .int i.occurrenceCount), ("visibility_class", .str i.visibilityClass)]

/-- How `json_object` writes: no blanks, and no escapes but the necessary ones. -/
def jsonObject : Json.Format :=
  { itemSeparator := ",", keySeparator := ":", ensureAscii := false }

/-- The `body` the triggers insert. -/
def triggerBody (i : Incident) : String := Json.dumps jsonObject (.obj i.fields)

/-- The `body` the baseline inserts, `json.dumps(item)`. -/
def baselineBody (i : Incident) : String := Json.dumps {} (.obj i.fields)

/-! ## The file -/

/-- A row of `gateway_incident_transition` as it is stored. -/
structure Entry where
  revision : Nat
  incidentId : String
  body : String
deriving DecidableEq

structure File where
  incidents : List Incident
  baseline : Option String
  transitions : List Entry
deriving DecidableEq

/-- `integer primary key autoincrement`. -/
def nextRevision (es : List Entry) : Nat := (es.map (·.revision)).foldl max 0 + 1

def File.append (body : Incident → String) (f : File) (i : Incident) : File :=
  { f with transitions := f.transitions ++ [⟨nextRevision f.transitions, i.incidentId, body i⟩] }

/-- Who fills the ledger during a write: the baseline at a start, else the triggers. -/
def Write.body : Write → Incident → String
  | .startHistory _ => baselineBody
  | _ => triggerBody

/-- The tables without their ledger, which no statement of a write reads. -/
def File.rows (f : File) : Tables := ⟨f.incidents, f.baseline, []⟩

def File.write (f : File) (w : Write) : File :=
  let t := f.rows.write w
  (t.transitions.map (·.body)).foldl (File.append w.body)
    { f with incidents := t.incidents, baseline := t.baseline }

/-! ## Attempts -/

structure Attempt where
  write : Write
  commits : Bool

def history : Machine File Attempt Committed where
  step f a := if a.commits then f.write a.write else f
  emit f a := if a.commits then f.rows.committed a.write else []

/-- The rows an incident table can hold: `incident_id` is its primary key and
`dedup_key` is unique. -/
structure Inventory where
  rows : List Incident
  ids : (rows.map Incident.incidentId).Nodup
  keys : (rows.map Incident.dedupKey).Nodup

/-- A file from before the ledger. -/
def Inventory.file (v : Inventory) : File := ⟨v.rows, none, []⟩

end OufGateway.Incidents
