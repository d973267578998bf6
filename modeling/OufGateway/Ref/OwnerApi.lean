import Mathlib
import OufGateway.Lib.Json
import OufGateway.Lib.Program
import OufGateway.Ref.Incidents
import OufGateway.Ref.Cursor
import OufGateway.Ref.Bookmarks
import OufGateway.Ref.OwnerQuery

/-!
# The owner API

`GatewayOperationalOwnerAPI.handle`: the trusted headers, the query, the decision on the
collection, and then one of the modes the query chooses. A plain list and a summary read
the incident table, the other modes go to the snapshots and the bookmarks, and all of
them ask for a decision on each item again before it is shown. Whatever fails on the way
becomes an answer here, so a request always has one.

A decision is whatever the injected callback answers; `grant` is what the source makes of
it. The headers are the dictionary as the server has it, and the first member of a name
is the member.
-/

namespace OufGateway.Owner

open Lib Incidents
open Lib.JsonText (Points points Value)

structure Api where
  py : Interpreter
  /-- Whether `owner_authorize` was injected. -/
  authorizer : Bool

abbrev Headers := List (String × String)

namespace Headers

def get? (headers : Headers) (name : String) : Option String :=
  (headers.find? (·.1 = name)).map (·.2)

/-- A header that is there and not empty. -/
def text? (headers : Headers) (name : String) : Option String := (headers.get? name).filter (· ≠ "")

end Headers

def incidentsPath : String := "/api/internal/v1/gateway/operations/incidents"

def summaryPath : String := "/api/internal/v1/gateway/operations/summary"

def capabilityOf (incidents : Bool) : String :=
  if incidents then "ouf.gateway.operations.incidents" else "ouf.gateway.operations.summary"

/-! ## Answers -/

/-- What a plain list or a summary shows. -/
structure Listing where
  items : List Incident
  isPartial : Bool
  truncated : Bool
  redacted : Bool
  status : Option String
deriving DecidableEq

inductive Reply
  | page (p : Page)
  | listing (l : Listing)
  | refused (status : Nat) (code : String) (retryable : Option Bool)
deriving DecidableEq

/-- `asdict`. -/
def asdict (i : Incident) : Json :=
  .obj [("incident_id", .str i.incidentId), ("module", .str i.module),
    ("event_type", .str i.eventType), ("lifecycle_state", .str i.lifecycleState.text),
    ("severity", .str i.severity.text), ("first_seen_at", .str i.firstSeenAt),
    ("last_seen_at", .str i.lastSeenAt), ("resolved_at", .ofOption i.resolvedAt),
    ("correlation_id", .ofOption i.correlationId), ("endpoint_ref", .ofOption i.endpointRef),
    ("error_code", .ofOption i.errorCode), ("impact_summary", .str i.impactSummary),
    ("action_required", .bool i.actionRequired), ("dedup_key", .str i.dedupKey),
    ("occurrence_count", .int i.occurrenceCount), ("visibility_class", .str i.visibilityClass)]

def Listing.json (l : Listing) : Json :=
  let status : List (String × Json) := l.status.toList.map fun s => ("status", .str s)
  let unavailable : List (String × Json) :=
    if l.redacted then [("unavailable", .arr [.obj [("module", .str "GATEWAY"),
      ("reason", .str "REDACTED_BY_CURRENT_POLICY")]])] else []
  .obj (("module", .str "GATEWAY") :: ("items", .arr (l.items.map asdict)) ::
    ("partial", .bool l.isPartial) :: ("truncated", .bool l.truncated) ::
    ("priorityProfile", .str "ouf.incident-priority.v1") :: (status ++ unavailable))

namespace Reply

def status : Reply → Nat
  | .refused status _ _ => status
  | _ => 200

def items : Reply → List Incident
  | .page p => p.items
  | .listing l => l.items
  | .refused _ _ _ => []

def json : Reply → Json
  | .page p => p.json
  | .listing l => l.json
  | .refused _ code retryable =>
    .obj (("code", .str code) :: retryable.toList.map fun b => ("retryable", .bool b))

end Reply

/-- The answer of the `except` clauses. -/
def Failure.reply : Failure → Reply
  | .rejected status code => .refused status code none
  | .operational => .refused 503 "OPERATIONAL_STORE_UNAVAILABLE" (some true)
  | _ => .refused 503 "OPERATIONAL_OWNER_UNAVAILABLE" (some false)

def Refusal.failure : Refusal → Failure
  | .rejected code => .rejected 400 code
  | _ => .raised

/-- The last check of an answer. -/
def sized (r : Reply) : Except Failure Reply :=
  if maxBytes < (Json.dumps { ensureAscii := false } r.json).utf8ByteSize then
    reject 503 "OPERATIONAL_RESPONSE_CAPACITY"
  else .ok r

/-! ## Decisions -/

/-- The resource a decision is asked for. -/
def resourceOf (tenant : String) (incidentId endpointRef : Option String) : Json :=
  let endpoint : List (String × Json) :=
    (endpointRef.filter (· ≠ "")).toList.map fun e => ("endpointRef", .str e)
  .obj [("type", .str "operational"), ("id", .ofOption incidentId), ("tenant", .str tenant),
    ("attributes", .obj (("module", .str "GATEWAY") :: ("incidentScope", .str "PLATFORM") ::
      ("detailLevel", .str "RESTRICTED_OPERATIONAL") :: endpoint))]

def text? : Json → Option String
  | .str s => some s
  | _ => none

/-- A dictionary with a principal and a tenant that are texts. -/
def Identity.of? (json : Json) : Option Identity :=
  match hp : json.get? "principal", ht : json.get? "tenant" with
  | some (.str principal), some (.str tenant) => some ⟨json, principal, tenant, hp, ht⟩
  | _, _ => none

/-- A list or a dictionary is in no set, and asking raises. -/
def isUnhashable : Json → Bool
  | .arr _ => true
  | .obj _ => true
  | _ => false

/-- What `_decision` makes of the answer it gets. -/
def grant (principal tenant : String) (resource d : Json) : Except Failure (Identity × String) :=
  if (d.get? "allowed").any Json.isTrue = false then reject 403 "OWNER_CAPABILITY_DENIED"
  else
    match ((d.get? "identity").bind Identity.of?).filter fun i =>
        i.principal = principal && i.tenant = tenant with
    | none => reject 403 "OWNER_IDENTITY_UNPROVEN"
    | some identity =>
      let actor := (identity.json.get? "actor").getD .null
      if isUnhashable actor then .error .typeError
      else if isActor actor = false then reject 403 "OWNER_IDENTITY_UNPROVEN"
      else if (d.get? "resource").any (Json.eqv · resource) = false ∨
          (d.get? "permittedDetailLevel").bind text? ≠ some "RESTRICTED_OPERATIONAL" then
        reject 403 "OWNER_RESOURCE_GRANT_UNPROVEN"
      else
        match ((d.get? "policyRef").bind text?).filter (· ≠ "") with
        | none => reject 403 "OWNER_RESOURCE_GRANT_UNPROVEN"
        | some policy => .ok (identity, policy)

/-- Who asks, for what, and of whom. -/
structure Context where
  api : Api
  headers : Headers
  incidents : Bool

namespace Context

variable (c : Context)

def capability : String := capabilityOf c.incidents

/-- `_decision`. -/
def decision (incidentId endpointRef : Option String) : Request (Identity × String) :=
  if c.api.authorizer = false then .fail (.rejected 503 "OWNER_LOCAL_AUTHORIZATION_UNAVAILABLE")
  else
    match c.headers.text? "X-OUF-Tenant-ID" with
    | none => .fail (.rejected 403 "TENANT_CONTEXT_REQUIRED")
    | some tenant => do
      let resource := resourceOf tenant incidentId endpointRef
      let d ← consult c.capability resource
      .ofExcept (grant ((c.headers.get? "X-OUF-Principal-ID").getD "") tenant resource d)

/-- A later decision that is not the one the request began with ends it. -/
def unchanged (identity : Identity) (policy : String) (fresh : Identity × String) : Request Json :=
  if Json.eqv fresh.1.json identity.json = false ∨ fresh.2 ≠ policy then
    .fail (.rejected 409 "OPERATIONAL_POLICY_CHANGED")
  else .done (.bool true)

/-- The decision on an item; a rejection with status 403 hides it. -/
def rowDecision (i : Incident) : Request (Option (Identity × String)) :=
  ((c.decision (some i.incidentId) i.endpointRef).bind fun d => .done (some d)).handle fun e =>
    match e with
    | .rejected 403 _ => .done none
    | e => .fail e

def visible (identity : Identity) (policy : String) (i : Incident) : Request Json := do
  match ← c.rowDecision i with
  | none => .done (.bool false)
  | some fresh => unchanged identity policy fresh

/-- The callback of the bookmarks. -/
def collection (identity : Identity) (policy : String) : Request Json := do
  let fresh ← c.decision none none
  unchanged identity policy fresh

end Context

/-! ## Modes -/

namespace Dict

def limit (q : Dict) : Nat := q.limit?.getD 50

def state (q : Dict) : Option Lifecycle := (q.get? "state").bind lifecycle?

/-- `query[key]`, for a key whose value is a text that Unicode has. -/
def text (q : Dict) (key : String) : String :=
  match q.get? key with
  | some (.str s) => String.ofList (s.map Char.ofNat)
  | _ => ""

def query (q : Dict) : Query :=
  { limit := q.limit, state := q.state, since := (q.get? "since").map fun _ => q.text "since" }

end Dict

/-- `list_incidents`; what it raises is no rejection. -/
def listSince (t : Tables) (state : Option Lifecycle) (limit : Nat) (since : Option Value) :
    Except Failure (List Incident) :=
  let listed (since : Option String) : Except Failure (List Incident) :=
    match listIncidents t state limit since with
    | .error _ => .error .raised
    | .ok items => .ok items
  match since with
  | none => listed none
  | some v =>
    match readSince v with
    | .error _ => .error .raised
    | .ok text => listed (some text)

/-- The status of a summary over the items it shows. -/
def summaryStatus (items : List Incident) : String :=
  if items.any (·.lifecycleState = .opened) then "DEGRADED"
  else if items.any (·.lifecycleState = .recovering) then "RECOVERING"
  else "HEALTHY"

namespace Context

variable (c : Context) (identity : Identity) (policy : String)

/-- A plain list or a summary. -/
def list (q : Dict) : Request Reply := do
  let rows ← select fun db _ =>
    listSince db.incidents (if c.incidents then q.state else none) (q.limit + 1) (q.get? "since")
  let original := rows.take q.limit
  let truncated := decide (q.limit < rows.length)
  let items ← Program.filter (fun i => do return (← c.visible identity policy i).truthy) original
  let redacted := decide (items.length ≠ original.length)
  .done (.listing
    { items := items, truncated := truncated, redacted := redacted
      isPartial := redacted || (!c.incidents && truncated)
      status := if c.incidents then none
        else some (if redacted || truncated then "UNKNOWN" else summaryStatus items) })

/-- A snapshot, or a page of one. -/
def pages (q : Dict) : Request Page :=
  match q.get? "cursor" with
  | some (.str s) =>
    match Uuid.read? s with
    | none => .fail (.rejected 400 "CURSOR_INVALID")
    | some token => pageAt token identity policy (c.visible identity policy)
  | _ => do
    let token ← capture q.query identity policy none
    pageAt token identity policy (c.visible identity policy)

/-- A coverage start, a coverage page or a resume. -/
def coverage (q : Dict) : Request Page :=
  let seen := c.visible identity policy
  if q.has "resumeFrom" then
    resume (some c.collection) (q.text "resumeFrom") identity policy seen q.limit
  else if q.has "cursor" then
    coverageText (some c.collection) (q.text "cursor") identity policy seen
  else start (some c.collection) q.query identity policy seen

def mode (q : Dict) : Request Reply :=
  if (q.get? "coverage").any isTrue || q.has "resumeFrom" then do
    return .page (← c.coverage identity policy q)
  else if (q.get? "snapshot").any isTrue || q.has "cursor" then do
    return .page (← c.pages identity policy q)
  else c.list identity policy q

/-- The request from its query on. -/
def answer (q : Dict) : Request Reply := do
  let (identity, policy) ← c.decision none none
  let reply ← c.mode identity policy q
  .ofExcept (sized reply)

/-- The `try` of `handle`. -/
def attempt (body : Body) : Request Reply :=
  match readQuery c.api.py body c.incidents with
  | .error e => .fail e.failure
  | .ok q => c.answer q

end Context

def handle (api : Api) (path : String) (headers : Headers) (body : Body) : Request Reply :=
  if headers.get? "X-OUF-Gateway-Verified" ≠ some "true" then
    .done (.refused 401 "TRUSTED_GATEWAY_CONTEXT_REQUIRED" none)
  else if headers.text? "X-OUF-Principal-ID" = none ∨
      headers.text? "X-OUF-Authorization-Decision-Ref" = none then
    .done (.refused 403 "VERIFIED_AUTHORIZATION_CONTEXT_REQUIRED" none)
  else if path ≠ incidentsPath ∧ path ≠ summaryPath then
    .done (.refused 404 "OWNER_OPERATION_NOT_FOUND" none)
  else
    (Context.attempt ⟨api, headers, path = incidentsPath⟩ body).handle fun e => .done e.reply

end OufGateway.Owner
