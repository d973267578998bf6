import OufGateway.Ref.Executors
import OufGateway.Ref.Projection
import OufGateway.Ref.TrustedIdentity

/-!
# The mediation routes

The materializers that put an executor behind a route. Each picks the bindings of its
capabilities from a projected runtime, compares them with what its reviewed profile
has, and copies one template, the route of the system status, with the function, the
path and the owner of the capability in it. A member that is missing is refused like
one that differs; where Python raises `KeyError` for it, the model has the message of
the comparison.

Of a route the model has what decides who is let through and where to: the labels that
come from the ingress route and the tags of `request-id` are left out, and so are the
routes of human surfaces, which have no executor. Of the schema of a body it has the
constant for `CapabilityID`; the rest of the schema can only refuse more. `urlsplit` and
what `str` makes of a revision are parameters.
-/

namespace OufGateway.Mediation

open OufGateway.Lib
open CompileConfig (CompiledRoute Method OperationType)
open Executors (Forwarded Kind Request Worker isTrusted)
open Headers (Lines clearWhere)
open Lua (Bytes)
open MaterializeM2M (MaterializationError OpenidConnect ensure isNodeChar nodeOf require requireText)
open Projection (Installation Projected ProjectedRoute)
open TrustedIdentity (McpRoute SplitResult bytes claim materializeMcpRoute requireHttpsUrl)

/-! ## Functions -/

/-- `operational_binding`. -/
structure OwnerBinding where
  capability : String
  owner : String
  scope : String

/-- An entry of `CAPABILITIES` of the operational materializer. -/
structure Operational where
  capability : String
  owner : String
  service : String
  port : Nat
  path : String
  scope : String
  timeout : Nat

def operationalCapabilities : List Operational :=
  [⟨"ouf.operations.summary", "mcp", "ouf-mcp-server", 8080, "/api/internal/v1/mcp/operations/summary",
      "operations.status.read", 5⟩,
    ⟨"ouf.operations.incidents", "mcp", "ouf-mcp-server", 8080, "/api/internal/v1/mcp/operations/incidents",
      "operations.incident.read", 5⟩,
    ⟨"ouf.ingestion.operations.summary", "ingestion", "ouf-ingestion-runtime", 8080,
      "/api/internal/v1/ingestion/operations/summary", "operations.status.read", 3⟩,
    ⟨"ouf.ingestion.operations.incidents", "ingestion", "ouf-ingestion-runtime", 8080,
      "/api/internal/v1/ingestion/operations/incidents", "operations.incident.read", 3⟩,
    ⟨"ouf.gateway.operations.summary", "gateway", "ouf-gateway-control-plane", 8081,
      "/api/internal/v1/gateway/operations/summary", "operations.status.read", 3⟩,
    ⟨"ouf.gateway.operations.incidents", "gateway", "ouf-gateway-control-plane", 8081,
      "/api/internal/v1/gateway/operations/incidents", "operations.incident.read", 3⟩]

/-- An entry of `CAPABILITIES` of the semantic materializer. -/
structure SemanticProposal where
  capability : String
  mode : String
  operation : OperationType
  scope : String

def semanticCapabilities : List SemanticProposal :=
  [⟨"ouf.semantic.propose", "create", .command, "ouf.semantic.propose"⟩,
    ⟨"ouf.semantic.review.prepare", "validate", .command, "ouf.semantic.review.prepare"⟩,
    ⟨"ouf.semantic.approval.request", "review", .command, "ouf.semantic.approval.request"⟩,
    ⟨"ouf.semantic.proposal.read", "read", .read, "ouf.semantic.proposal.read"⟩]

/-- `kind`, with the binding where one is taken. -/
inductive Source
  | issueDelegation
  | executeStatus
  | executePermissions
  | executeOperational (b : OwnerBinding)
  | executeSemanticProposals (b : OwnerBinding)
  | executeObjectSearch
  | executeManagedFile
  | executeManagedUpload
  | executeSemanticRead

/-- The kinds that need the key of an owner. -/
def Source.signs : Source → Bool
  | issueDelegation | executeStatus | executeOperational _ => false
  | _ => true

/-- A function: the executor it is, if it is one, and the constants in front of it. -/
structure Function where
  kind : Option Kind
  values : List (String × String)

/-- `[A-Z][A-Z0-9_]{0,127}`. -/
def isKeyEnv (name : String) : Bool :=
  (name.toList.head?.any fun c => c.isUpper) && name.toList.all (fun c => c.isUpper || c.isDigit || c = '_')
    && name.length ≤ 128

/-- `values`. -/
def settingValues (i : Installation) (keyEnv : String) : List (String × String) :=
  [("DELEGATION_KEY_ENV", keyEnv), ("ISSUER", Text.rstrip '/' i.fields.issuer), ("AUDIENCE", i.fields.audience),
    ("MCP_WORKLOAD", i.fields.mcp)]

def ownerKeyValues (source : Source) (ownerKeyEnv : Option String) :
    Except MaterializationError (List (String × String)) :=
  if source.signs then do
    let name ← require (ownerKeyEnv.filter isKeyEnv) "owner receipt key environment required"
    return [("OWNER_KEY_ENV", name)]
  else .ok []

def semanticPath (mode : String) : String := "/api/semantic/v1/proposal-commands/" ++ mode

/-- The executor with the constants of a capability. -/
def capabilityValues : Source → Except MaterializationError (Option Kind × List (String × String))
  | .executeSemanticProposals b => do
    let expected ← require (semanticCapabilities.find? (·.capability = b.capability)) "semantic binding is not approved"
    ensure (b.owner = "semantic" ∧ b.scope = expected.scope) "semantic binding is not approved"
    return (some (.semanticProposals (bytes b.capability) (bytes expected.scope) expected.operation.text
        (bytes (semanticPath expected.mode))),
      [("CAPABILITY", b.capability), ("REQUIRED_SCOPE", expected.scope), ("OPERATION", expected.operation.text),
        ("OWNER_PATH", semanticPath expected.mode)])
  | .executeOperational b => do
    let expected ← require (operationalCapabilities.find? (·.capability = b.capability))
      "operational binding is not approved"
    ensure (b.owner = expected.owner ∧ b.scope = expected.scope) "operational binding is not approved"
    return (some (.operational (bytes b.capability) expected.owner (bytes expected.scope)),
      [("CAPABILITY", b.capability), ("OWNER", expected.owner), ("REQUIRED_SCOPE", expected.scope)])
  | .issueDelegation => .ok (none, [])
  | .executeStatus => .ok (some .status, [])
  | .executePermissions => .ok (some .permissions, [])
  | .executeObjectSearch => .ok (some .objectSearch, [])
  | .executeManagedFile => .ok (some .managedFile, [])
  | .executeManagedUpload => .ok (some .managedUpload, [])
  | .executeSemanticRead => .ok (some .semanticRead, [])

def function (source : Source) (i : Installation) (keyEnv : String) (ownerKeyEnv : Option String) :
    Except MaterializationError Function := do
  ensure (isKeyEnv keyEnv) "invalid delegation key environment name"
  ensure (∀ v ∈ settingValues i keyEnv, Text.strip v.2 ≠ "" ∧ ¬ Text.startsWith "installation://" v.2)
    "resolved delegation settings required"
  let owner ← ownerKeyValues source ownerKeyEnv
  let capability ← capabilityValues source
  return ⟨capability.1, settingValues i keyEnv ++ owner ++ capability.2⟩

/-! ### Loading -/

/-- `constants`, with the line break behind them. -/
def Function.text (f : Function) : Encoding.Points :=
  GeneratedLua.constants (f.values.map fun v => (v.1, PyJson.points v.2))

/-- What a function has once Lua has read its constants. -/
structure Loaded where
  settings : DelegationProof.Settings
  keyEnv : Bytes
  ownerKeyEnv : Option Bytes

/-- The constants as Lua reads them; a text that is no Lua does not load. -/
def Function.load (f : Function) : Option Loaded := do
  let (read, _) ← GeneratedLua.readConstants (f.values.map (·.1)) (Encoding.encode f.text)
  let constant (name : String) := ((f.values.map (·.1)).zip read).lookup name
  let issuer ← constant "ISSUER"
  let audience ← constant "AUDIENCE"
  let mcpWorkload ← constant "MCP_WORKLOAD"
  let keyEnv ← constant "DELEGATION_KEY_ENV"
  some ⟨⟨issuer, audience, mcpWorkload⟩, keyEnv, constant "OWNER_KEY_ENV"⟩

/-! ## Routes -/

/-- `request-validation`. -/
structure Validation where
  maxReqBodySize : Nat
  /-- The constant that `body_schema` has for `CapabilityID`. -/
  capability : String

structure Plugins where
  openidConnect : Option OpenidConnect := none
  /-- `count` of `limit-count`. -/
  limitCount : Option Nat := none
  requestValidation : Option Validation := none
  /-- What the functions of the phase `rewrite` leave of the headers. -/
  serverlessPreFunction : Option (Lines → Lines) := none
  /-- The function of the phase `access`. -/
  serverlessPostFunction : Option Function := none
  proxyRewrite : Option String := none
  /-- `max_body_size` of `client-control`. -/
  clientControl : Option Nat := none
  /-- `request_buffering` of `proxy-control`. -/
  requestBuffering : Bool := true

structure Timeout where
  connect : Nat
  send : Nat
  read : Nat

structure Upstream where
  scheme : String
  nodes : List (String × Nat)
  retries : Nat
  timeout : Timeout

structure Route where
  id : Option String
  uri : Option String
  methods : List Method
  serviceId : Option String := none
  /-- `ouf-mediation` of the labels. -/
  mediation : Option String
  plugins : Plugins
  upstream : Upstream

def executeUri : String := "/internal/capabilities/v1/execute"

/-- A route that is copied from a template, for one capability. -/
def Route.mediates (template : Route) (id uri mediation capability path : String) (f : Function) : Route :=
  { template with
    id := some id
    uri := some uri
    mediation := some mediation
    plugins :=
      { template.plugins with
        requestValidation := template.plugins.requestValidation.map fun v => { v with capability := capability }
        serverlessPostFunction := some f
        proxyRewrite := some path } }

def Route.sendsTo (route : Route) (node : String) : Route :=
  { route with upstream := { route.upstream with nodes := [(node, 1)] } }

/-! ### What a route does with a request -/

/-- Where a request goes, and what is sent. -/
structure Delivered where
  nodes : List (String × Nat)
  path : Bytes
  sent : Forwarded

/-- A worker of the gateway and its environment. -/
structure Host where
  worker : Worker
  env : Bytes → Option Bytes

/-- The worker, with the keys a function names. -/
def Host.at (host : Host) (l : Loaded) : Worker :=
  { host.worker with key := host.env l.keyEnv, ownerKey := l.ownerKeyEnv.bind host.env }

/-- What is known of the validation of a body. -/
def Validation.check (host : Host) (v : Validation) (r : Request) : Except Nat Unit := do
  let body ← DelegationProof.require 400 r.body
  DelegationProof.ensure 413 (body.length ≤ v.maxReqBodySize)
  DelegationProof.ensure 400 ((claim (host.worker.cjson.decode body) "CapabilityID").isString (bytes v.capability))

/-- The request as it is after the phase `rewrite`. -/
def Route.rewrite (route : Route) (r : Request) : Request :=
  { r with headers := (route.plugins.serverlessPreFunction.getD fun hs => hs) r.headers }

def Route.validate (route : Route) (host : Host) (r : Request) : Except Nat Unit :=
  match route.plugins.requestValidation with
  | some v => v.check host r
  | none => .ok ()

def Route.serve (route : Route) (host : Host) (r : Request) (now : Nat) : Except Nat Delivered := do
  route.validate host r
  let f ← DelegationProof.require 500 route.plugins.serverlessPostFunction
  let l ← DelegationProof.require 500 f.load
  let k ← DelegationProof.require 500 f.kind
  let sent ← k.run (host.at l) l.settings (route.rewrite r) now
  return ⟨route.upstream.nodes, (route.plugins.proxyRewrite.map bytes).getD r.uri, sent⟩

/-! ## Bindings -/

/-- The one member there has to be. -/
def only {α : Type} (message : String) : List α → Except MaterializationError α
  | [a] => .ok a
  | _ => .error ⟨message⟩

/-- The internal routes of a capability. -/
def candidates (runtime : Projected) (capability : String) : List ProjectedRoute :=
  runtime.routes.filter fun p =>
    (p.route.capability.any fun c => c.capabilityId = capability) && p.route.labels.exposure = .internal

/-- What a profile wants of the capability and the policy of a binding. -/
structure Profile where
  owner : String
  operation : OperationType
  toolEligible : Bool := true
  scope : String
  actors : List String := ["HUMAN"]
  maxRequestBytes : Nat := 65536
  timeout : Nat := 3

namespace Profile

variable (f : Profile)

def fitsCapability (b : CompiledRoute) : Bool :=
  b.capability.any fun c => c.owner = f.owner && c.operationType = f.operation && !c.humanRequired
    && c.toolEligible = f.toolEligible

/-- The identity, the services and the scope, with `workload` among the services. -/
def fitsAccess (workload : String) (b : CompiledRoute) : Bool :=
  b.policy.identity = .m2m && (b.policy.allowedServiceIdentities.getD []).contains workload
    && b.policy.requiredScope = some f.scope

def fitsLimits (b : CompiledRoute) : Bool :=
  b.policy.maxRequestBytes = f.maxRequestBytes && b.policy.timeoutSeconds = f.timeout

/-- The comparisons that are the same in most materializers. -/
def fits (workload : String) (b : CompiledRoute) : Bool :=
  f.fitsCapability b && f.fitsAccess workload b && b.policy.allowedActorTypes = some f.actors && f.fitsLimits b

end Profile

/-- The services are the workload and no other. -/
def onlyWorkload (workload : String) (b : CompiledRoute) : Bool :=
  b.policy.allowedServiceIdentities = some [workload]

/-! ## The system status -/

/-- Python's own. -/
structure Python where
  urlsplit : String → Option SplitResult
  str : Json → String

variable (py : Python)

/-- The result of the status materializer: the ingress with the function that issues delegations, and the route of
the status. -/
structure StatusRuntime where
  ingress : McpRoute
  issues : Function
  execute : Route

/-- `materialize` of the ingress, as far as the MCP route. -/
def materializeIngress (runtime : Projected) (oidcSecretRef : String) : Except MaterializationError McpRoute := do
  let i := runtime.installation
  let p ← only "expected exactly one public MCP endpoint"
    (runtime.routes.filter fun p => p.route.trustedIdentity.isSome && p.route.labels.exposure = .toPublic)
  materializeMcpRoute py.urlsplit p.route
    ⟨some i.installationId, some i.fields.issuer, some i.fields.apiBase, py.str i.revision⟩ oidcSecretRef

/-- The pre-function of the template. -/
def stripsOuf (kept : List String) (hs : Lines) : Lines :=
  clearWhere (fun lower => lower.take 6 = bytes "x-ouf-" && !(kept.any fun name => lower = bytes name)) hs

def statusPath : String := "/api/internal/v1/mcp/operations/status"

def statusProfile : Profile where
  owner := "mcp"
  operation := .read
  scope := "operations.status.read"

def statusRuntime (runtime : Projected) (oidcSecretRef delegationKeyEnv : String) :
    Except MaterializationError StatusRuntime := do
  let i := runtime.installation
  let _ ← requireHttpsUrl py.urlsplit (some i.fields.issuer) "issuerUrl" false
  let _ ← requireText (some i.fields.audience) "gatewayAudience"
  let workload ← requireText (some i.fields.mcp) "mcpServiceIdentity"
  let m ← only "exactly one POST execute binding required" (runtime.routes.filter fun p => p.route.uri = executeUri)
  ensure (m.route.methods = [.post]) "exactly one POST execute binding required"
  ensure (m.route.policy.identity = .m2m ∧ m.serviceIdentity = some workload)
    "execute workload binding is unresolved or invalid"
  let b ← only "exactly one internal system status binding required" (candidates runtime "ouf.system.status")
  ensure (statusProfile.fitsCapability b.route) "status capability is not delegable READ"
  ensure (statusProfile.fitsAccess workload b.route ∧ (b.route.policy.allowedActorTypes.getD []).contains "HUMAN")
    "status service/scope/actor policy mismatch"
  ensure (statusProfile.fitsLimits b.route) "status profile limits changed; review materialization"
  ensure (b.route.serviceId = some "ouf-mcp-server" ∧ b.route.proxyRewrite = some statusPath)
    "unexpected status owner binding"
  let ingress ← materializeIngress py runtime oidcSecretRef
  let issues ← function .issueDelegation i delegationKeyEnv none
  let f ← function .executeStatus i delegationKeyEnv none
  return {
    ingress := ingress
    issues := issues
    execute := {
      id := some m.route.id
      uri := some m.route.uri
      methods := [.post]
      mediation := some "status-execute-v1"
      plugins := {
        openidConnect := some { ingress.openidConnect with requiredScopes := [] }
        limitCount := some ingress.limit
        requestValidation := some ⟨65536, "ouf.system.status"⟩
        serverlessPreFunction := some (stripsOuf ["x-ouf-delegation"])
        serverlessPostFunction := some f
        proxyRewrite := some statusPath }
      upstream := ⟨"http", [("ouf-mcp-server:8080", 1)], 0, ⟨3, 3, 3⟩⟩ } }

/-! ## Permissions -/

/-- A result, with the mediation routes it has. -/
structure Result where
  status : StatusRuntime
  routes : List Route

/-- The names of environment variables that have keys. -/
structure Keys where
  delegation : String
  owner : String

/-- An entry of `CAPS`. -/
structure PermissionCapability where
  capability : String
  mode : String
  operation : OperationType

def permissionCapabilities : List PermissionCapability :=
  [⟨"authorization.permissions.read", "read", .read⟩, ⟨"authorization.permissions.propose", "propose", .command⟩,
    ⟨"authorization.proposal.read", "status", .read⟩]

def permissionRoute (runtime : Projected) (keys : Keys) (template : Route) (c : PermissionCapability) :
    Except MaterializationError Route := do
  let i := runtime.installation
  let b ← only ("exact permission binding required: " ++ c.capability) (candidates runtime c.capability)
  let path := "/api/internal/v1/authorization/permissions/" ++ c.mode
  ensure (b.route.serviceId = some "ouf-onboarding" ∧ b.route.proxyRewrite = some path
      ∧ Profile.fits { owner := "authorization", operation := c.operation, scope := c.capability } i.fields.mcp b.route)
    ("permission binding mismatch: " ++ c.capability)
  let f ← function .executePermissions i keys.delegation (some keys.owner)
  return (template.mediates ("mcp-permissions-" ++ c.mode) (executeUri ++ "/authorization/" ++ c.mode)
    "permission-proposals-v1" c.capability path f).sendsTo "ouf-onboarding:8080"

def permissionRuntime (runtime : Projected) (oidcSecretRef : String) (keys : Keys) :
    Except MaterializationError Result := do
  let status ← statusRuntime py runtime oidcSecretRef keys.delegation
  let routes ← permissionCapabilities.mapM (permissionRoute runtime keys status.execute)
  return ⟨status, status.execute :: routes⟩

/-! ## Operations -/

def operationalActors (owner : String) : List String :=
  if owner = "mcp" then ["HUMAN_USER", "MCP_SERVER"] else ["MCP_SERVER"]

def dashed (capability : String) : String :=
  String.ofList (capability.toList.map fun c => if c = '.' then '-' else c)

def operationalRoute (runtime : Projected) (delegationKeyEnv : String) (template : Route) (o : Operational) :
    Except MaterializationError Route := do
  let i := runtime.installation
  let b ← only ("exact operational binding required: " ++ o.capability) (candidates runtime o.capability)
  ensure (b.route.serviceId = some o.service ∧ b.route.proxyRewrite = some o.path
      ∧ onlyWorkload i.fields.mcp b.route
      ∧ Profile.fits { owner := o.owner, operation := .read, toolEligible := o.owner = "mcp", scope := o.scope
                       actors := operationalActors o.owner, timeout := o.timeout } i.fields.mcp b.route)
    ("operational binding drift: " ++ o.capability)
  let f ← function (.executeOperational ⟨o.capability, o.owner, o.scope⟩) i delegationKeyEnv none
  let route := template.mediates ("operational-execute-" ++ dashed o.capability) (executeUri ++ "/" ++ o.capability)
    "operational-execute-v1" o.capability o.path f
  return { route with
    upstream := ⟨"http", [(nodeOf o.service o.port, 1)], 0, ⟨o.timeout, o.timeout, o.timeout⟩⟩ }

/-- What the operational materializer starts from. -/
def operationalBase (runtime : Projected) (oidcSecretRef delegationKeyEnv : String) :
    Option String → Except MaterializationError Result
  | none => do
    let status ← statusRuntime py runtime oidcSecretRef delegationKeyEnv
    return ⟨status, [status.execute]⟩
  | some ownerKeyEnv => permissionRuntime py runtime oidcSecretRef ⟨delegationKeyEnv, ownerKeyEnv⟩

def operationalRuntime (runtime : Projected) (oidcSecretRef delegationKeyEnv : String) (ownerKeyEnv : Option String) :
    Except MaterializationError Result := do
  let base ← operationalBase py runtime oidcSecretRef delegationKeyEnv ownerKeyEnv
  let routes ← operationalCapabilities.mapM (operationalRoute runtime delegationKeyEnv base.status.execute)
  return { base with routes := base.routes ++ routes }

/-! ## The search for objects -/

def searchPath : String := "/api/udp/v1/objects/search"

def objectSearchRuntime (runtime : Projected) (oidcSecretRef : String) (keys : Keys) (udpKeyEnv : String) :
    Except MaterializationError Result := do
  let i := runtime.installation
  ensure ([keys.delegation, keys.owner, udpKeyEnv].Nodup ∧ isKeyEnv udpKeyEnv)
    "three distinct named signing keys required"
  let base ← operationalRuntime py runtime oidcSecretRef keys.delegation (some keys.owner)
  let b ← only "exact UDP search binding required" (candidates runtime "urban.object.search")
  ensure (b.route.serviceId = some "ouf-udp-object-resolution" ∧ b.route.proxyRewrite = some searchPath
      ∧ b.route.methods = [.post]
      ∧ Profile.fits { owner := "udp", operation := .search, scope := "urban.object.search" } i.fields.mcp b.route)
    "UDP search binding mismatch"
  let f ← function .executeObjectSearch i keys.delegation (some udpKeyEnv)
  let route := (base.status.execute.mediates "execute-urban-object-search" (executeUri ++ "/urban.object.search")
    "udp-search-execute-v1" "urban.object.search" searchPath f).sendsTo "ouf-udp-object-resolution:8080"
  return { base with routes := base.routes ++ [route] }

/-! ## Managed files -/

/-- An entry of `MODES`. -/
structure FileMode where
  mode : String
  capability : String
  operation : OperationType

def fileModes : List FileMode :=
  [⟨"profile", "ouf.managed-source.file.profile", .command⟩, ⟨"preview", "ouf.managed-source.preview", .read⟩,
    ⟨"create", "ouf.managed-source.onboarding.create", .command⟩,
    ⟨"handoff", "ouf.managed-source.file.upload", .command⟩]

def fileUri (mode : String) : String := executeUri ++ "/managed.file/" ++ mode

def filePath (mode : String) : String := "/api/internal/v1/onboarding/managed-file-mcp/" ++ mode

/-- The mode of the binding: the hand-off is a status operation of the upload. -/
def boundMode (mode : String) : String := if mode = "handoff" then "upload" else mode

def withId (runtime : Projected) (id : String) : List ProjectedRoute := runtime.routes.filter fun p => p.route.id = id

def isOnboarding (b : CompiledRoute) : Bool :=
  b.serviceId = some "ouf-onboarding"
    && b.backendBinding.any fun n => n.service = "ouf-onboarding" && n.port = 8080

def fileProfile (m : FileMode) : Profile where
  owner := "onboarding"
  operation := m.operation
  scope := m.capability
  maxRequestBytes := if m.mode = "handoff" then 10485760 else 65536
  timeout := if m.mode = "handoff" then 30 else 3

def fileRoute (runtime : Projected) (keys : Keys) (template : Route) (m : FileMode) :
    Except MaterializationError Route := do
  let i := runtime.installation
  let b ← only ("exact managed-file binding required: " ++ m.mode)
    (withId runtime ("mcp-managed-file-" ++ boundMode m.mode))
  ensure (b.route.uri = fileUri (boundMode m.mode) ∧ isOnboarding b.route
      ∧ b.route.proxyRewrite = some (filePath (boundMode m.mode)) ∧ b.route.methods = [.post]
      ∧ (b.route.capability.any fun c => c.capabilityId = m.capability)
      ∧ (fileProfile m).fits i.fields.mcp b.route)
    ("managed-file binding mismatch: " ++ m.mode)
  let f ← function .executeManagedFile i keys.delegation (some keys.owner)
  return (template.mediates ("mcp-managed-file-" ++ m.mode) (fileUri m.mode) "managed-file-delegation-v1" m.capability
    (filePath m.mode) f).sendsTo "ouf-onboarding:8080"

def fileRuntime (runtime : Projected) (oidcSecretRef : String) (keys : Keys) : Except MaterializationError Result := do
  let base ← permissionRuntime py runtime oidcSecretRef keys
  let routes ← fileModes.mapM (fileRoute runtime keys base.status.execute)
  return { base with routes := base.routes ++ routes }

/-! ## The upload -/

def uploadMode : FileMode := ⟨"upload", "ouf.managed-source.file.upload", .command⟩

def uploadProfile : Profile where
  owner := "onboarding"
  operation := .command
  scope := "ouf.managed-source.file.upload"
  maxRequestBytes := 10485760
  timeout := 30

/-- The one route of the upload. -/
def uploadRoute (runtime : Projected) (oidcSecretRef : String) (keys : Keys) : Except MaterializationError Route := do
  let i := runtime.installation
  let base ← permissionRuntime py runtime oidcSecretRef keys
  let b ← only "exact delegated upload binding required" (withId runtime "mcp-managed-file-upload")
  ensure (b.route.uri = fileUri "upload" ∧ isOnboarding b.route ∧ b.route.proxyRewrite = some (filePath "upload")
      ∧ b.route.methods = [.post]
      ∧ (b.route.capability.any fun c => c.capabilityId = uploadMode.capability)
      ∧ uploadProfile.fits i.fields.mcp b.route)
    "delegated upload binding mismatch"
  let f ← function .executeManagedUpload i keys.delegation (some keys.owner)
  let template := base.status.execute
  return {
    id := some "mcp-managed-file-upload"
    uri := some (fileUri "upload")
    methods := template.methods
    mediation := some "managed-file-streaming-upload-v1"
    plugins := {
      template.plugins with
      requestValidation := none
      serverlessPreFunction := some (stripsOuf ["x-ouf-delegation", "x-ouf-file-id"])
      clientControl := some 10485760
      requestBuffering := false
      serverlessPostFunction := some f
      proxyRewrite := some (filePath "upload") }
    upstream := { template.upstream with nodes := [("ouf-onboarding:8080", 1)], timeout := ⟨10, 30, 30⟩ } }

/-! ## Layers over an installation

These take the routes that are there, whatever else is among them. -/

/-- The one template there has to be, with its plugins. -/
def established (message : String) (existing : List Route) : Except MaterializationError Route := do
  let template ← only message (existing.filter fun r => r.uri = some executeUri)
  ensure (template.plugins.openidConnect.isSome ∧ template.plugins.limitCount.isSome
      ∧ template.plugins.requestValidation.isSome ∧ template.plugins.serverlessPreFunction.isSome) message
  return template

/-- One more route, with an identifier and a URI that nothing has yet. -/
def appendNew (message : String) (routes : List Route) (route : Route) : Except MaterializationError (List Route) := do
  ensure (¬ routes.any fun r => r.id = route.id || r.uri = route.uri) message
  return routes ++ [route]

/-- The routes of a profile, each appended to what there is by then. -/
def layer {α : Type} (append : List Route → Route → Except MaterializationError (List Route))
    (make : α → Except MaterializationError Route) : List Route → List α → Except MaterializationError (List Route)
  | routes, [] => .ok routes
  | routes, a :: as => do
    let route ← make a
    let routes ← append routes route
    layer append make routes as

def semanticActors (mode : String) : List String :=
  if mode = "read" then ["HUMAN"] else ["HUMAN", "AI_AGENT", "SERVICE"]

def semanticRoute (runtime : Projected) (keys : Keys) (template : Route) (c : SemanticProposal) :
    Except MaterializationError Route := do
  let i := runtime.installation
  let b ← only ("exact semantic proposal binding required: " ++ c.capability) (candidates runtime c.capability)
  let path := semanticPath c.mode
  ensure (b.route.serviceId = some "ouf-semantic-registry" ∧ b.route.proxyRewrite = some path
      ∧ onlyWorkload i.fields.mcp b.route
      ∧ Profile.fits { owner := "semantic", operation := c.operation, scope := c.scope
                       actors := semanticActors c.mode } i.fields.mcp b.route)
    ("semantic proposal binding mismatch: " ++ c.capability)
  let f ← function (.executeSemanticProposals ⟨c.capability, "semantic", c.scope⟩) i keys.delegation (some keys.owner)
  let route := template.mediates ("semantic-proposal-" ++ c.mode) (executeUri ++ "/semantic/" ++ c.mode)
    "semantic-proposal-v1" c.capability path f
  return { route with upstream := ⟨"http", [("ouf-semantic-registry:8080", 1)], 0, ⟨3, 3, 3⟩⟩ }

/-- `add_to_existing`. -/
def addSemanticProposals (existing : List Route) (runtime : Projected) (keys : Keys) :
    Except MaterializationError (List Route) := do
  ensure (keys.delegation ≠ keys.owner) "distinct delegation and semantic owner signing keys required"
  let template ← established "one established execute template required" existing
  ensure ((existing.map (·.id)).Nodup) "existing route IDs must be unique"
  layer (appendNew "semantic proposal route already exists; reconcile before materialization")
    (semanticRoute runtime keys template) existing semanticCapabilities

/-- What the semantic reads have of their own. -/
structure ReadMode where
  name : String
  capability : String

/-- The constants of the two schemas. -/
def readModes : List ReadMode := [⟨"search", "ouf.semantic.search"⟩, ⟨"get", "ouf.semantic.consultation.read"⟩]

/-- `route_ids`. -/
structure RouteIds where
  search : String
  get : String

def RouteIds.of (ids : RouteIds) (name : String) : String := if name = "search" then ids.search else ids.get

def consultationPath (name : String) : String := "/api/internal/v1/semantic/consultation/" ++ name

def semanticReadRoute (i : Installation) (keys : Keys) (upstream : Upstream) (ids : RouteIds) (template : Route)
    (existing : List Route) (m : ReadMode) : Except MaterializationError Route := do
  let uri := executeUri ++ "/semantic/" ++ m.name
  ensure (¬ existing.any fun r => r.id = some (ids.of m.name) || r.uri = some uri)
    "semantic route already exists; reconcile before materialization"
  let f ← function .executeSemanticRead i keys.delegation (some keys.owner)
  return {
    id := some (ids.of m.name)
    uri := some uri
    methods := [.post]
    mediation := some "semantic-read-v1"
    plugins := {
      template.plugins with
      requestValidation := some ⟨65536, m.capability⟩
      serverlessPostFunction := some f
      proxyRewrite := some (consultationPath m.name) }
    upstream := { upstream with retries := 0, timeout := ⟨3, 3, 3⟩ } }

def addSemanticReads (existing : List Route) (i : Installation) (keys : Keys) (upstream : Upstream) (ids : RouteIds) :
    Except MaterializationError (List Route) := do
  ensure (keys.delegation ≠ keys.owner) "distinct delegation and semantic owner signing keys required"
  ensure (ids.search ≠ ids.get ∧ ids.search ≠ "" ∧ ids.get ≠ "") "two distinct installation-owned route IDs required"
  let template ← established "one established execute template required" existing
  ensure ((upstream.scheme = "http" ∨ upstream.scheme = "https") ∧ upstream.nodes ≠ [])
    "resolved semantic upstream binding required"
  let routes ← readModes.mapM (semanticReadRoute i keys upstream ids template existing)
  return existing ++ routes

/-- The two modes of a review. -/
def reviewModes : List FileMode :=
  [⟨"review-prepare", "ouf.managed-source.onboarding.review.prepare", .command⟩,
    ⟨"review-read", "ouf.managed-source.onboarding.read", .read⟩]

def reviewTimeout (mode : String) : Nat := if mode = "review-prepare" then 10 else 3

def reviewRoute (runtime : Projected) (keys : Keys) (template : Route) (m : FileMode) :
    Except MaterializationError Route := do
  let i := runtime.installation
  let b ← only "exact onboarding review binding required" (withId runtime ("mcp-managed-file-" ++ m.mode))
  ensure (b.route.uri = fileUri m.mode ∧ b.route.methods = [.post] ∧ isOnboarding b.route
      ∧ (b.route.backendBinding.any fun n => n.path = filePath m.mode)
      ∧ b.route.proxyRewrite = some (filePath m.mode)
      ∧ (b.route.capability.any fun c => c.capabilityId = m.capability) ∧ onlyWorkload i.fields.mcp b.route
      ∧ Profile.fits { owner := "onboarding", operation := m.operation, scope := m.capability
                       timeout := reviewTimeout m.mode } i.fields.mcp b.route)
    "onboarding review binding mismatch"
  let f ← function .executeManagedFile i keys.delegation (some keys.owner)
  return {
    id := some ("mcp-managed-file-" ++ m.mode)
    uri := some (fileUri m.mode)
    methods := [.post]
    serviceId := template.serviceId
    mediation := some "onboarding-review-v1"
    plugins := {
      template.plugins with
      requestValidation := some ⟨65536, m.capability⟩
      serverlessPostFunction := some f
      proxyRewrite := some (filePath m.mode) }
    upstream := ⟨"http", [("ouf-onboarding:8080", 1)], 0, ⟨3, reviewTimeout m.mode, reviewTimeout m.mode⟩⟩ }

/-- `_append`: a URI may be there for other methods. -/
def appendReview (routes : List Route) (route : Route) : Except MaterializationError (List Route) := do
  ensure (¬ routes.any fun r => r.id = route.id || r.uri = route.uri && r.methods.any route.methods.contains)
    "review route already exists; reconcile before materialization"
  return routes ++ [route]

/-- The routes of the review; those of the human surfaces and of two owners come after them, and may still refuse. -/
def addReviews (existing : List Route) (runtime : Projected) (keys : Keys) :
    Except MaterializationError (List Route) := do
  ensure (keys.delegation ≠ keys.owner) "distinct delegation and owner signing keys required"
  let template ← established "one authenticated bounded execute template required" existing
  layer appendReview (reviewRoute runtime keys template) existing reviewModes

end OufGateway.Mediation
