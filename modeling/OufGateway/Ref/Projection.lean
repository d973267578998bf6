import Mathlib
import OufGateway.Lib.Json
import OufGateway.Lib.Sha256
import OufGateway.Lib.Text
import OufGateway.Ref.CompileConfig

/-!
# The installation projection

`apply_projection` on an artifact of the compiler. The projection is the JSON value an
installation supplies, whatever is in it; what is not a dictionary has no members, and
only a dictionary has `get`. The routes of the artifact are walked once. A list of
service identities is resolved entry by entry and then checked; the audience, the
backend service and the mediation of a route are each replaced where they are exactly
what is looked for. The deep copy is the value itself here.
-/

namespace OufGateway.Projection

open Lib CompileConfig

/-- `raised` is what Python raises by itself, for a value without `get` or one that
`json.dumps` cannot write. -/
inductive ProjectionError
  | text (message : String)
  | raised
deriving DecidableEq

/-- `INSTALLATION_MCP_REF` is the compiler's `mcpServerRef`. -/
def ingestionRef : String := "installation://iam.workloadClients.ingestion"

def udpRef : String := "installation://iam.workloadClients.udp"

def semanticRef : String := "installation://iam.workloadClients.semantic"

def audienceRef : String := "installation://iam.gatewayAudience"

/-! ## The fields of a projection -/

/-- `path`, as the messages have it. -/
def dotted (path : List String) : String := ".".intercalate path

/-- `_require` from a value on, `rest` being the parts that are left of the path. -/
def requireFrom (path : List String) : Json → List String → Except ProjectionError String
  | .str s, [] =>
    if Text.strip s = "" then .error (.text ("invalid projection field " ++ dotted path)) else .ok s
  | _, [] => .error (.text ("invalid projection field " ++ dotted path))
  | current, part :: rest =>
    match current.get? part with
    | none => .error (.text ("missing projection field " ++ dotted path))
    | some next => requireFrom path next rest

def require (projection : Json) (path : List String) : Except ProjectionError String :=
  requireFrom path projection path

/-- The fields that are required before the routes. -/
structure Fields where
  mcp : String
  ingestion : String
  udp : String
  semantic : String
  audience : String
  issuer : String
  apiBase : String

def readFields (projection : Json) : Except ProjectionError Fields := do
  let mcp ← require projection ["iam", "workloadClients", "mcpServer"]
  let ingestion ← require projection ["iam", "workloadClients", "ingestion"]
  let udp ← require projection ["iam", "workloadClients", "udp"]
  let semantic ← require projection ["iam", "workloadClients", "semantic"]
  let projected ← require projection ["mcp", "environment", "MCP_OIDC_CLIENT_ID"]
  if projected ≠ mcp then
    .error (.text "mcp workload identity disagrees with iam.workloadClients.mcpServer")
  else do
    let audience ← require projection ["gateway", "requiredAudience"]
    let issuer ← require projection ["gateway", "issuerUrl"]
    let apiBase ← require projection ["gateway", "publicApiBaseUrl"]
    return ⟨mcp, ingestion, udp, semantic, audience, issuer, apiBase⟩

/-- `services.bindings`, and no bindings where a value on the way is falsy. -/
def readBindings (projection : Json) : Except ProjectionError (List (String × Json)) :=
  match (projection.get? "services").filter Json.truthy with
  | none => .ok []
  | some services =>
    if !services.isObj then .error .raised
    else
      match (services.get? "bindings").filter Json.truthy with
      | none => .ok []
      | some (.obj bindings) => .ok bindings
      | some _ => .error (.text "invalid projection field services.bindings")

/-! ## Routes -/

def isReference (value : String) : Bool := Text.startsWith "installation://" value

def resolveIdentity (f : Fields) (value : String) : String :=
  if value = mcpServerRef then f.mcp
  else if value = ingestionRef then f.ingestion
  else if value = udpRef then f.udp
  else if value = semanticRef then f.semantic
  else value

def resolveAllowed (f : Fields) : Option (List String) →
    Except ProjectionError (Option (List String))
  | none => .ok none
  | some allowed =>
    let resolved := allowed.map (resolveIdentity f)
    if resolved.any isReference then .error (.text "unresolved installation service identity")
    else .ok (some resolved)

def resolveAudience (f : Fields) (audience : String) : String :=
  if audience = audienceRef then f.audience else audience

def bindService (bindings : List (String × Json)) :
    Option BackendBinding → Except ProjectionError (Option BackendBinding)
  | none => .ok none
  | some b =>
    match Json.ofLookup bindings b.service with
    | none => .ok (some b)
    | some (.str s) =>
      if Text.strip s = "" then .error (.text ("invalid service binding for " ++ b.service))
      else .ok (some { b with service := Text.strip s })
    | some _ => .error (.text ("invalid service binding for " ++ b.service))

/-- A route of the result: `serviceIdentity` is the member its mediation gets. -/
structure ProjectedRoute where
  route : CompiledRoute
  serviceIdentity : Option String

def ProjectedRoute.toJson (p : ProjectedRoute) : Json :=
  match p.route.mediation, p.serviceIdentity with
  | some m, some s =>
    p.route.toJson.setItem "x-ouf-mediation" (m.toJson.setItem "serviceIdentity" (.str s))
  | _, _ => p.route.toJson

/-- One turn of the loop over the routes. -/
def projectRoute (f : Fields) (bindings : List (String × Json)) (r : CompiledRoute) :
    Except ProjectionError ProjectedRoute := do
  let allowed ← resolveAllowed f r.policy.allowedServiceIdentities
  let backend ← bindService bindings r.backendBinding
  return {
    route := { r with
      policy := { r.policy with
        allowedServiceIdentities := allowed
        requiredAudience := r.policy.requiredAudience.map (resolveAudience f) }
      backendBinding := backend }
    serviceIdentity :=
      (r.mediation.filter (·.serviceIdentityRef = mcpServerRef)).map fun _ => f.mcp }

def projectRoutes (f : Fields) (bindings : List (String × Json)) :
    List CompiledRoute → Except ProjectionError (List ProjectedRoute)
  | [] => .ok []
  | r :: routes => do
    let p ← projectRoute f bindings r
    let rest ← projectRoutes f bindings routes
    return p :: rest

/-! ## The result -/

/-- `x-ouf-installation`. -/
structure Installation where
  installationId : String
  revision : Json
  checksum : String
  fields : Fields
  serviceBindings : List (String × Json)

def Installation.toJson (i : Installation) : Json :=
  .obj [("installationId", .str i.installationId), ("revision", i.revision),
    ("checksum", .str i.checksum), ("issuerUrl", .str i.fields.issuer),
    ("gatewayAudience", .str i.fields.audience), ("publicApiBaseUrl", .str i.fields.apiBase),
    ("mcpServiceIdentity", .str i.fields.mcp), ("ingestionServiceIdentity", .str i.fields.ingestion),
    ("udpServiceIdentity", .str i.fields.udp), ("semanticServiceIdentity", .str i.fields.semantic),
    ("serviceBindings", .obj i.serviceBindings)]

structure Projected where
  routes : List ProjectedRoute
  installation : Installation
  configurationSha256 : String

/-- `base`. -/
def baseJson (routes : List ProjectedRoute) (i : Installation) : Json :=
  .obj [("formatVersion", .str "1.0"), ("apisixVersion", .str "3.18.x"),
    ("routes", .arr (routes.map (·.toJson))), ("x-ouf-installation", i.toJson)]

def applyProjection (compiled : Artifact) (projection : Json) :
    Except ProjectionError Projected := do
  let f ← readFields projection
  let bindings ← readBindings projection
  let routes ← projectRoutes f bindings compiled.routes
  let installationId ← require projection ["installationId"]
  let checksum ← require projection ["checksum"]
  let installation : Installation :=
    ⟨installationId, (projection.get? "revision").getD .null, checksum, f,
      bindings.mergeSort fun a b => decide (a.1 ≤ b.1)⟩
  let base := baseJson routes installation
  if base.serializable then
    return ⟨routes, installation, Sha256.ofText (canonical base)⟩
  else .error .raised

end OufGateway.Projection
