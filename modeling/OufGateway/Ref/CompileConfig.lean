import Mathlib
import OufGateway.Lib.Except
import OufGateway.Lib.Json
import OufGateway.Lib.Sha256
import OufGateway.Lib.Text

/-!
# The configuration compiler

`load_documents` and `compile_config`. A configuration root is the list of its
files in the order of their paths, each with what `yaml.safe_load` gives for
it: a document with the members its kind's schema names, a document that has
others, or something of no supported kind. What the schemas say about the
values of the members is `Document.valid`; the text of a schema error is the
validator's, and only the file it is about is kept.

The three kinds of bindings are compiled in three walks over the documents, and
the walks share the matches seen so far.
-/

namespace OufGateway.CompileConfig

open Lib

/-- `raised` is what `json.dumps` raises for a query contract it cannot write. -/
inductive ConfigError
  | schema (path : String)
  | text (message : String)
  | raised
deriving DecidableEq

/-! ## Documents -/

inductive Kind
  | capability | sourceRuntimeProfile | extractionRuntimeProfile
  | routeBinding | mcpEndpointBinding | mcpMediationBinding
deriving DecidableEq

def Kind.text : Kind → String
  | capability => "Capability"
  | sourceRuntimeProfile => "SourceRuntimeProfile"
  | extractionRuntimeProfile => "ExtractionRuntimeProfile"
  | routeBinding => "RouteBinding"
  | mcpEndpointBinding => "McpEndpointBinding"
  | mcpMediationBinding => "McpMediationBinding"

inductive Method
  | get | post | put | delete
deriving DecidableEq

def Method.text : Method → String
  | get => "GET"
  | post => "POST"
  | put => "PUT"
  | delete => "DELETE"

inductive Exposure
  | toPublic | internal
deriving DecidableEq

def Exposure.text : Exposure → String
  | toPublic => "public"
  | internal => "internal"

inductive Identity
  | oidc | m2m | mtlsService
deriving DecidableEq

def Identity.text : Identity → String
  | oidc => "OIDC"
  | m2m => "M2M"
  | mtlsService => "MTLS_SERVICE"

inductive OperationType
  | read | search | status | command
deriving DecidableEq

def OperationType.text : OperationType → String
  | read => "READ"
  | search => "SEARCH"
  | status => "STATUS"
  | command => "COMMAND"

inductive Mode
  | execution | recovery
deriving DecidableEq

def Mode.text : Mode → String
  | execution => "EXECUTION"
  | recovery => "RECOVERY"

structure Metadata where
  id : String
  version : String

/-- `ref`. -/
def Metadata.ref (m : Metadata) : String := m.id ++ "@" ++ m.version

structure BackendBinding where
  service : String
  port : Nat
  path : String
deriving DecidableEq

structure Capability where
  metadata : Metadata
  owner : String
  operationType : OperationType
  scope : String
  toolEligible : Bool
  humanRequired : Option Bool

structure SourceRuntimeProfile where
  metadata : Metadata
  endpointRef : String
  ownerOutcomePath : Option String

structure ExtractionRuntimeProfile where
  metadata : Metadata
  sourceRef : String

structure RouteBinding where
  metadata : Metadata
  exposure : Exposure
  capabilityRef : String
  sourceRef : String
  extractionProfileRef : Option String
  method : Method
  path : String
  uriRegex : Option String
  query : Option Json
  backendBinding : BackendBinding
  identity : Identity
  allowedServiceIdentities : Option (List String)
  allowedActorTypes : Option (List String)
  maxRequestBytes : Nat
  timeoutSeconds : Nat

structure McpEndpointBinding where
  metadata : Metadata
  exposure : Exposure
  sourceRef : String
  method : Method
  path : String
  backendBinding : BackendBinding
  identity : Identity
  requiredAudience : String
  requiredScope : String
  allowedActorTypes : List String
  maxRequestBytes : Nat
  timeoutSeconds : Nat
  stripClientHeaders : List String
  claimProjection : List (String × String)

structure McpMediationBinding where
  metadata : Metadata
  mode : Mode
  method : Method
  path : String
  identity : Identity
  serviceIdentityRef : String
  requiredScope : Option String
  maxRequestBytes : Nat
  timeoutSeconds : Nat

inductive Document
  | capability (d : Capability)
  | sourceRuntimeProfile (d : SourceRuntimeProfile)
  | extractionRuntimeProfile (d : ExtractionRuntimeProfile)
  | routeBinding (d : RouteBinding)
  | mcpEndpointBinding (d : McpEndpointBinding)
  | mcpMediationBinding (d : McpMediationBinding)

namespace Document

def kind : Document → Kind
  | capability _ => .capability
  | sourceRuntimeProfile _ => .sourceRuntimeProfile
  | extractionRuntimeProfile _ => .extractionRuntimeProfile
  | routeBinding _ => .routeBinding
  | mcpEndpointBinding _ => .mcpEndpointBinding
  | mcpMediationBinding _ => .mcpMediationBinding

def metadata : Document → Metadata
  | capability d => d.metadata
  | sourceRuntimeProfile d => d.metadata
  | extractionRuntimeProfile d => d.metadata
  | routeBinding d => d.metadata
  | mcpEndpointBinding d => d.metadata
  | mcpMediationBinding d => d.metadata

def ref (d : Document) : String := d.metadata.ref

end Document

/-! ## The schemas -/

def isLowerAlnum (c : Char) : Bool := c.isLower || c.isDigit

def isNameChar (c : Char) : Bool := isLowerAlnum c || ['.', '_', '-'].contains c

def isServiceChar (c : Char) : Bool := isLowerAlnum c || c = '-'

/-- `^[0-9]+\.[0-9]+\.[0-9]+$`. -/
def isVersion (s : String) : Bool :=
  let parts := (Text.body s).splitOn '.'
  parts.length = 3 && parts.all (Text.nonempty Char.isDigit)

def isSchemeChar (c : Char) : Bool := isLowerAlnum c || ['+', '.', '-'].contains c

/-- `^[a-z][a-z0-9+.-]*://[^/\s]+(?:/[^\s]*)?$`. -/
def isEndpointRef (s : String) : Bool :=
  let scheme := s.toList.takeWhile (· ≠ ':')
  let rest := (s.toList.drop scheme.length).drop 3
  let target := if rest.getLast? == some '\n' then rest.dropLast else rest
  let authority := target.takeWhile (· ≠ '/')
  scheme.head?.any Char.isLower && scheme.all isSchemeChar &&
    (s.toList.drop scheme.length).take 3 == [':', '/', '/'] &&
    !authority.isEmpty && target.all (!Text.isSpace ·)

def isOutcomeChar (c : Char) : Bool :=
  c.isAlphanum || ['_', '.', '/', '\x7b', '\x7d', '-'].contains c

/-- `^/internal/[A-Za-z0-9_./{}-]+\{backendRequestId\}[A-Za-z0-9_./{}-]*$`. -/
def isOutcomePath (s : String) : Bool :=
  let rest := (Text.body s).drop 10
  Text.startsWith "/internal/" s && rest.all isOutcomeChar &&
    ((rest.drop 1).tails.any fun t => "\x7bbackendRequestId\x7d".toList.isPrefixOf t)

def between (least most n : Nat) : Bool := least ≤ n && n ≤ most

def unique (l : List String) : Bool := decide l.Nodup

def BackendBinding.valid (b : BackendBinding) : Bool :=
  Text.wholly isServiceChar b.service && between 1 65535 b.port && Text.startsWith "/" b.path

def Capability.valid (d : Capability) : Bool :=
  Text.wholly isNameChar d.metadata.id && isVersion d.metadata.version &&
    Text.wholly isNameChar d.owner && d.scope ≠ ""

def SourceRuntimeProfile.valid (d : SourceRuntimeProfile) : Bool :=
  isEndpointRef d.endpointRef && d.ownerOutcomePath.all isOutcomePath

def routeActorTypes : List String :=
  ["HUMAN", "SERVICE", "AI_AGENT", "HUMAN_USER", "MCP_SERVER", "SERVICE_IDENTITY"]

def RouteBinding.valid (d : RouteBinding) : Bool :=
  Text.startsWith "/" d.path &&
    (d.uriRegex.all fun r => Text.startsWith "^/" r && r.length ≤ 256) &&
    d.query.all Json.isObj && d.backendBinding.valid && d.allowedServiceIdentities.all unique &&
    (d.allowedActorTypes.all fun l => unique l && l.all routeActorTypes.contains) &&
    between 1 10485760 d.maxRequestBytes && between 1 60 d.timeoutSeconds

/-- The members of a claim projection and the values each may have. -/
def claimSources : List (String × List String) :=
  [("X-OUF-Service-Principal", ["client_id", "azp"]), ("X-OUF-Principal-ID", ["ouf_subject", "sub"]),
    ("X-OUF-Tenant-ID", ["tenant_id"]), ("X-OUF-Actor-Type", ["ouf_actor_type"]),
    ("X-OUF-Authentication-Context-Ref", ["acr"]), ("X-OUF-Token-Issuer", ["iss"]),
    ("X-OUF-Token-Audience", ["aud"]), ("X-OUF-Granted-Scopes", ["scope"])]

def projectionValid (projection : List (String × String)) : Bool :=
  unique (projection.map (·.1)) && (claimSources.all fun s => (projection.map (·.1)).contains s.1) &&
    projection.all fun p => claimSources.any fun s => s.1 = p.1 && s.2.contains p.2

def McpEndpointBinding.valid (d : McpEndpointBinding) : Bool :=
  d.exposure = .toPublic && d.method = .post && d.path = "/mcp" && d.backendBinding.valid &&
    d.backendBinding.path = "/mcp" && d.identity = .oidc && d.requiredAudience ≠ "" &&
    d.requiredScope ≠ "" && !d.allowedActorTypes.isEmpty && unique d.allowedActorTypes &&
    d.allowedActorTypes.all ["HUMAN", "SERVICE", "AI_AGENT"].contains &&
    between 1 1048576 d.maxRequestBytes && between 1 60 d.timeoutSeconds &&
    !d.stripClientHeaders.isEmpty && unique d.stripClientHeaders &&
    d.stripClientHeaders.all (· ≠ "") && projectionValid d.claimProjection

def mcpServerRef : String := "installation://iam.workloadClients.mcpServer"

/-- What the schema fixes for a mode: the path and the scope. -/
def Mode.fixed : Mode → String × Option String
  | execution => ("/internal/capabilities/v1/execute", none)
  | recovery => ("/internal/capabilities/v1/recovery", some "mcp.attempt.recover")

/-- In `RECOVERY` the schema only speaks of a scope that is there. -/
def McpMediationBinding.valid (d : McpMediationBinding) : Bool :=
  d.method = .post && d.path = d.mode.fixed.1 && d.identity = .m2m &&
    d.serviceIdentityRef = mcpServerRef && between 1 1048576 d.maxRequestBytes &&
    between 1 60 d.timeoutSeconds && (d.requiredScope.all fun s => some s = d.mode.fixed.2)

def Document.valid : Document → Bool
  | capability d => d.valid
  | sourceRuntimeProfile d => d.valid
  | extractionRuntimeProfile _ => true
  | routeBinding d => d.valid
  | mcpEndpointBinding d => d.valid
  | mcpMediationBinding d => d.valid

/-! ## Loading -/

inductive Loaded
  | document (d : Document)
  | malformed
  | unsupported (kind : String)

abbrev Documents := List (String × Document)

/-- `load_documents`. -/
def loadDocuments : List (String × Loaded) → Except ConfigError Documents
  | [] => .ok []
  | (path, .unsupported kind) :: _ => .error (.text (path ++ ": unsupported kind " ++ kind))
  | (path, .malformed) :: _ => .error (.schema path)
  | (path, .document d) :: files =>
    if d.valid then (loadDocuments files).map ((path, d) :: ·) else .error (.schema path)

/-! ## Compiled routes -/

/-- `x-ouf-policy`. The three kinds of routes have different members of it. -/
structure Policy where
  identity : Identity
  allowedServiceIdentities : Option (List String)
  allowedActorTypes : Option (List String)
  requiredAudience : Option String
  requiredScope : Option String
  maxRequestBytes : Nat
  timeoutSeconds : Nat

/-- `x-ouf-capability`. -/
structure CapabilityView where
  capabilityId : String
  version : String
  owner : String
  operationType : OperationType
  toolEligible : Bool
  humanRequired : Bool

/-- `x-ouf-recovery-binding`. -/
structure RecoveryBinding where
  owner : String
  service : String
  pathTemplate : String

/-- `x-ouf-trusted-identity`. -/
structure TrustedHeaders where
  stripClientHeaders : List String
  claimProjection : List (String × String)

/-- `x-ouf-mediation`. -/
structure Mediation where
  mode : Mode
  serviceIdentityRef : String

structure Labels where
  protocol : Option String := none
  capability : Option String := none
  source : Option String := none
  mediation : Option String := none
  exposure : Exposure

structure CompiledRoute where
  id : String
  uri : String
  methods : List Method
  vars : Option String
  upstreamId : Option String
  serviceId : Option String
  labels : Labels
  backendBinding : Option BackendBinding
  limit : Nat
  proxyRewrite : Option String
  trustedIdentity : Option TrustedHeaders
  mediation : Option Mediation
  policy : Policy
  capability : Option CapabilityView
  queryContract : Json
  recoveryBinding : Option RecoveryBinding

structure Artifact where
  routes : List CompiledRoute
  configurationSha256 : String

/-! ## The artifact as JSON -/

def strings (l : List String) : Json := .arr (l.map .str)

/-- The members that are there. -/
def present (members : List (Option (String × Json))) : Json := .obj (members.filterMap id)

def orNull (v : Option Json) : Json := v.getD .null

def BackendBinding.toJson (b : BackendBinding) : Json :=
  .obj [("service", .str b.service), ("port", .int b.port), ("path", .str b.path)]

def Labels.toJson (l : Labels) : Json :=
  present [l.protocol.map (("protocol", .str ·)), l.capability.map (("capability", .str ·)),
    l.source.map (("source", .str ·)), l.mediation.map (("mediation", .str ·)),
    some ("exposure", .str l.exposure.text)]

def CapabilityView.toJson (c : CapabilityView) : Json :=
  .obj [("capabilityId", .str c.capabilityId), ("version", .str c.version), ("owner", .str c.owner),
    ("operationType", .str c.operationType.text), ("toolEligible", .bool c.toolEligible),
    ("humanRequired", .bool c.humanRequired)]

def RecoveryBinding.toJson (r : RecoveryBinding) : Json :=
  .obj [("owner", .str r.owner), ("service", .str r.service), ("pathTemplate", .str r.pathTemplate)]

def TrustedHeaders.toJson (t : TrustedHeaders) : Json :=
  .obj [("stripClientHeaders", strings t.stripClientHeaders),
    ("claimProjection", .obj (t.claimProjection.map fun p => (p.1, .str p.2))),
    ("injectAfterVerification", .obj [("X-OUF-Gateway-Verified", .str "true")])]

def Mediation.toJson (m : Mediation) : Json :=
  .obj [("mode", .str m.mode.text), ("serviceIdentityRef", .str m.serviceIdentityRef)]

/-- `requiredScope` is a member of all three kinds, `null` where there is none. -/
def Policy.toJson (p : Policy) : Json :=
  present [some ("identity", .str p.identity.text),
    p.allowedServiceIdentities.map (("allowedServiceIdentities", strings ·)),
    p.requiredAudience.map (("requiredAudience", .str ·)),
    some ("requiredScope", .ofOption p.requiredScope),
    p.allowedActorTypes.map (("allowedActorTypes", strings ·)),
    some ("maxRequestBytes", .int p.maxRequestBytes), some ("timeoutSeconds", .int p.timeoutSeconds)]

def mcpProtocol : Json :=
  .obj [("name", .str "MCP"), ("transport", .str "STREAMABLE_HTTP"), ("stateless", .bool true),
    ("protocolVersion", .str "2026-07-28")]

def pluginsJson (limit : Nat) (rewrite : Option String) : Json :=
  present [
    some ("request-id", .obj [("header_name", .str "X-Correlation-ID"),
      ("include_in_response", .bool true), ("algorithm", .str "uuid")]),
    some ("limit-count", .obj [("count", .int limit), ("time_window", .int 60),
      ("rejected_code", .int 429)]),
    rewrite.map fun uri => ("proxy-rewrite", .obj [("uri", .str uri)])]

def CompiledRoute.toJson (r : CompiledRoute) : Json :=
  present [some ("id", .str r.id), some ("uri", .str r.uri),
    some ("methods", strings (r.methods.map (·.text))),
    r.vars.map fun x => ("vars", .arr [strings ["uri", "~~", x]]),
    some ("upstream_id", .ofOption r.upstreamId), some ("service_id", .ofOption r.serviceId),
    some ("labels", r.labels.toJson),
    r.backendBinding.map fun b => ("x-ouf-backend-binding", b.toJson),
    some ("plugins", pluginsJson r.limit r.proxyRewrite),
    r.trustedIdentity.map fun _ => ("x-ouf-protocol", mcpProtocol),
    r.mediation.map fun m => ("x-ouf-mediation", m.toJson),
    some ("x-ouf-policy", r.policy.toJson),
    r.trustedIdentity.map fun t => ("x-ouf-trusted-identity", t.toJson),
    some ("x-ouf-capability", orNull (r.capability.map (·.toJson))),
    some ("x-ouf-query-contract", r.queryContract),
    some ("x-ouf-recovery-binding", orNull (r.recoveryBinding.map (·.toJson)))]

/-- `output` before its own hash is added. -/
def outputJson (routes : List CompiledRoute) : List (String × Json) :=
  [("formatVersion", .str "1.0"), ("apisixVersion", .str "3.18.x"),
    ("routes", .arr (routes.map (·.toJson)))]

def canonicalFormat : Json.Format := ⟨",", ":", true, true⟩

/-- `canonical`. -/
def canonical (value : Json) : String := Json.dumps canonicalFormat value

def Artifact.toJson (a : Artifact) : Json :=
  .obj (outputJson a.routes ++ [("configurationSha256", .str a.configurationSha256)])

/-! ## References -/

/-- A document of the kind with the reference; `indexed.get((kind, ref))`. -/
def lookup (docs : Documents) (kind : Kind) (ref : String) : Option Document :=
  (docs.find? fun d => d.2.kind = kind && d.2.ref = ref).map (·.2)

def capabilityOf (docs : Documents) (ref : String) : Option Capability :=
  match lookup docs .capability ref with
  | some (.capability d) => some d
  | _ => none

def sourceOf (docs : Documents) (ref : String) : Option SourceRuntimeProfile :=
  match lookup docs .sourceRuntimeProfile ref with
  | some (.sourceRuntimeProfile d) => some d
  | _ => none

def extractionOf (docs : Documents) (ref : String) : Option ExtractionRuntimeProfile :=
  match lookup docs .extractionRuntimeProfile ref with
  | some (.extractionRuntimeProfile d) => some d
  | _ => none

/-- The loop that fills `indexed`. -/
def checkUnique : List (Kind × String) → Documents → Except ConfigError Unit
  | _, [] => .ok ()
  | seen, (_, d) :: docs =>
    if (d.kind, d.ref) ∈ seen then .error (.text ("duplicate " ++ d.kind.text ++ " " ++ d.ref))
    else checkUnique ((d.kind, d.ref) :: seen) docs

/-- The loop over the extraction profiles; `indexed` has all documents. -/
def checkExtractions (docs : Documents) : Documents → Except ConfigError Unit
  | [] => .ok ()
  | (path, .extractionRuntimeProfile d) :: rest =>
    if (sourceOf docs d.sourceRef).isNone then
      .error (.text (path ++ ": unresolved sourceRef " ++ d.sourceRef))
    else checkExtractions docs rest
  | _ :: rest => checkExtractions docs rest

/-! ## Bindings -/

/-- `matches` and `selected_matches`. -/
structure Seen where
  plain : List (Method × String) := []
  selected : List (Method × String × String) := []

def Seen.hasSelected (s : Seen) (key : Method × String) : Bool :=
  s.selected.any fun item => (item.1, item.2.1) = key

def duplicate (path : String) (key : Method × String) : ConfigError :=
  .text (path ++ ": duplicate route match " ++ key.1.text ++ " " ++ key.2)

/-- The match of a binding that can have an expression. -/
def Seen.add (s : Seen) (path : String) (key : Method × String) (uriRegex : Option String) :
    Except ConfigError Seen :=
  if key ∈ s.plain then .error (duplicate path key)
  else match uriRegex with
    | none =>
      if s.hasSelected key then .error (duplicate path key)
      else .ok { s with plain := key :: s.plain }
    | some x =>
      if (key.1, key.2, x) ∈ s.selected then .error (duplicate path key)
      else .ok { s with selected := (key.1, key.2, x) :: s.selected }

def governedSchemes : List String := ["service://", "object://", "registry://"]

/-- The checks on the capability, the sources and the policy of a route. -/
def checkRoute (docs : Documents) (path : String) (d : RouteBinding) :
    Except ConfigError (Capability × SourceRuntimeProfile) :=
  match capabilityOf docs d.capabilityRef with
  | none => .error (.text (path ++ ": unresolved capabilityRef " ++ d.capabilityRef))
  | some capability =>
    match sourceOf docs d.sourceRef with
    | none => .error (.text (path ++ ": unresolved sourceRef " ++ d.sourceRef))
    | some source =>
      let profile := d.extractionProfileRef.getD ""
      let allowed := d.allowedServiceIdentities.getD []
      if profile ≠ "" ∧ (extractionOf docs profile).isNone then
        .error (.text (path ++ ": unresolved extractionProfileRef " ++ profile))
      else if d.exposure = .internal ∧ allowed = [] then
        .error (.text (path ++ ": internal route requires explicit service identities"))
      else if d.exposure = .toPublic ∧ d.identity ≠ .oidc ∧ d.identity ≠ .m2m then
        .error (.text (path ++ ": public route requires token identity"))
      else if governedSchemes.all fun scheme => !Text.startsWith scheme source.endpointRef then
        .error (.text (path ++ ": endpointRef must use a governed logical scheme"))
      else .ok (capability, source)

def isWildcard (path : String) : Bool := Text.hasChar '*' path

/-- `match["path"][:-1]`. -/
def namespaceOf (path : String) : String := String.ofList path.toList.dropLast

/-- The checks on a wildcard path and on the expression that narrows it. -/
def checkNamespace (path : String) (d : RouteBinding) : Except ConfigError Unit :=
  if isWildcard d.path ∧ (¬ Text.endsWith "/*" d.path ∨ Text.countChar '*' d.path ≠ 1 ∨
      d.backendBinding.path ≠ d.path) then
    .error (.text (path ++ ": wildcard route must preserve its exact bounded namespace"))
  else match d.uriRegex with
    | none => .ok ()
    | some x =>
      if x ≠ "" ∧ (¬ isWildcard d.path ∨ ¬ Text.startsWith ("^" ++ namespaceOf d.path) x ∨
          ¬ Text.endsWith "$" x ∨ 256 < x.length) then
        .error (.text (path ++ ": URI regex must be anchored within the wildcard namespace"))
      else .ok ()

def emitRoute (d : RouteBinding) (capability : Capability) (source : SourceRuntimeProfile) :
    CompiledRoute where
  id := d.metadata.id
  uri := d.path
  methods := [d.method]
  vars := d.uriRegex.filter (· ≠ "")
  upstreamId := some d.sourceRef
  serviceId := some d.backendBinding.service
  labels :=
    { capability := some d.capabilityRef, source := some d.sourceRef, exposure := d.exposure }
  backendBinding := some d.backendBinding
  limit := 100
  proxyRewrite := if isWildcard d.path then none else some d.backendBinding.path
  trustedIdentity := none
  mediation := none
  policy :=
    { identity := d.identity
      allowedServiceIdentities := some (d.allowedServiceIdentities.getD [])
      allowedActorTypes := some (d.allowedActorTypes.getD [])
      requiredAudience := none, requiredScope := some capability.scope
      maxRequestBytes := d.maxRequestBytes, timeoutSeconds := d.timeoutSeconds }
  capability := some
    { capabilityId := capability.metadata.id, version := capability.metadata.version
      owner := capability.owner, operationType := capability.operationType
      toolEligible := capability.toolEligible, humanRequired := capability.humanRequired.getD false }
  queryContract := d.query.getD (.obj [])
  recoveryBinding := (source.ownerOutcomePath.filter (· ≠ "")).map fun path =>
    { owner := capability.owner, service := d.backendBinding.service, pathTemplate := path }

def bindRoute (docs : Documents) (seen : Seen) (path : String) :
    Document → Except ConfigError (Option CompiledRoute × Seen)
  | .routeBinding d => do
    let found ← checkRoute docs path d
    let seen ← seen.add path (d.method, d.path) d.uriRegex
    checkNamespace path d
    return (some (emitRoute d found.1 found.2), seen)
  | _ => .ok (none, seen)

def requiredTrusted : List String :=
  ["X-OUF-Gateway-Verified", "X-OUF-Service-Principal", "X-OUF-Principal-ID", "X-OUF-Tenant-ID",
    "X-OUF-Actor-Type", "X-OUF-Authentication-Context-Ref", "X-OUF-Token-Issuer",
    "X-OUF-Token-Audience", "X-OUF-Granted-Scopes"]

/-- The match of a binding without an expression. -/
def Seen.addPlain (s : Seen) (path : String) (key : Method × String) : Except ConfigError Seen :=
  s.add path key none

/-- `set(projected) == required_trusted - {"X-OUF-Gateway-Verified"}`. -/
def projectsAll (projection : List (String × String)) : Bool :=
  (projection.all fun p => (requiredTrusted.drop 1).contains p.1) &&
    (requiredTrusted.drop 1).all (projection.map (·.1)).contains

def checkTrusted (path : String) (d : McpEndpointBinding) : Except ConfigError Unit :=
  if requiredTrusted.any fun name => !d.stripClientHeaders.contains name then
    .error (.text (path ++ ": all trusted identity headers must be stripped from client input"))
  else if !projectsAll d.claimProjection then
    .error (.text (path ++ ": trusted identity claim projection is incomplete"))
  else .ok ()

def emitEndpoint (d : McpEndpointBinding) : CompiledRoute where
  id := d.metadata.id
  uri := d.path
  methods := [d.method]
  vars := none
  upstreamId := some d.sourceRef
  serviceId := some d.backendBinding.service
  labels := { protocol := some "MCP", source := some d.sourceRef, exposure := d.exposure }
  backendBinding := some d.backendBinding
  limit := 60
  proxyRewrite := some d.backendBinding.path
  trustedIdentity := some
    ⟨d.stripClientHeaders.mergeSort fun a b => decide (a ≤ b), d.claimProjection⟩
  mediation := none
  policy :=
    { identity := d.identity, allowedServiceIdentities := none
      allowedActorTypes := some d.allowedActorTypes, requiredAudience := some d.requiredAudience
      requiredScope := some d.requiredScope, maxRequestBytes := d.maxRequestBytes
      timeoutSeconds := d.timeoutSeconds }
  capability := none
  queryContract := .obj []
  recoveryBinding := none

def bindEndpoint (docs : Documents) (seen : Seen) (path : String) :
    Document → Except ConfigError (Option CompiledRoute × Seen)
  | .mcpEndpointBinding d =>
    match sourceOf docs d.sourceRef with
    | none => .error (.text (path ++ ": unresolved sourceRef " ++ d.sourceRef))
    | some source =>
      if !Text.startsWith "service://" source.endpointRef then
        .error (.text (path ++ ": MCP endpoint source must use service://"))
      else do
        let seen ← seen.addPlain path (d.method, d.path)
        checkTrusted path d
        return (some (emitEndpoint d), seen)
  | _ => .ok (none, seen)

def emitMediation (d : McpMediationBinding) : CompiledRoute where
  id := d.metadata.id
  uri := d.path
  methods := [d.method]
  vars := none
  upstreamId := none
  serviceId := none
  labels := { protocol := some "MCP", mediation := some d.mode.text, exposure := .internal }
  backendBinding := none
  limit := 120
  proxyRewrite := none
  trustedIdentity := none
  mediation := some ⟨d.mode, d.serviceIdentityRef⟩
  policy :=
    { identity := d.identity, allowedServiceIdentities := none, allowedActorTypes := none
      requiredAudience := none, requiredScope := d.requiredScope
      maxRequestBytes := d.maxRequestBytes, timeoutSeconds := d.timeoutSeconds }
  capability := none
  queryContract := .obj []
  recoveryBinding := none

def bindMediation (seen : Seen) (path : String) :
    Document → Except ConfigError (Option CompiledRoute × Seen)
  | .mcpMediationBinding d => do
    let seen ← seen.addPlain path (d.method, d.path)
    return (some (emitMediation d), seen)
  | _ => .ok (none, seen)

/-! ## The compiler -/

/-- One walk over the documents. -/
def walk (bind : Seen → String → Document → Except ConfigError (Option CompiledRoute × Seen)) :
    Documents → Seen → Except ConfigError (List CompiledRoute × Seen)
  | [], seen => .ok ([], seen)
  | (path, d) :: docs, seen => do
    let first ← bind seen path d
    let rest ← walk bind docs first.2
    return (first.1.toList ++ rest.1, rest.2)

/-- `sorted(routes, key=lambda r: r["id"])`. -/
def byId (routes : List CompiledRoute) : List CompiledRoute :=
  routes.mergeSort fun a b => decide (a.id ≤ b.id)

/-- `output` with its hash. -/
def sealed (routes : List CompiledRoute) : Artifact :=
  ⟨routes, Sha256.ofText (canonical (.obj (outputJson routes)))⟩

def sealRoutes (routes : List CompiledRoute) : Except ConfigError Artifact :=
  if routes.all fun r => r.queryContract.serializable then .ok (sealed (byId routes))
  else .error .raised

/-- `compile_config` from the documents on. -/
def compileDocuments (docs : Documents) : Except ConfigError Artifact := do
  checkUnique [] docs
  checkExtractions docs docs
  let routes ← walk (bindRoute docs) docs {}
  let endpoints ← walk (bindEndpoint docs) docs routes.2
  let mediations ← walk bindMediation docs endpoints.2
  sealRoutes (routes.1 ++ endpoints.1 ++ mediations.1)

/-- `compile_config`. -/
def compileConfig (files : List (String × Loaded)) : Except ConfigError Artifact := do
  let docs ← loadDocuments files
  compileDocuments docs

end OufGateway.CompileConfig
