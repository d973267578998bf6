import Mathlib
import OufGateway.Ref.CompileConfig

/-!
# The MCP dispatcher

`MCPDispatcher`: a registry of the compiled routes a tool call may take, and
`dispatch`, which checks an envelope against its route, against the request's
headers and against the identity the gateway has verified, and makes one
upstream call. `vet` is everything before that call.

`json.loads` on the body, the validator's check of the `uuid` format and the
text of its errors are what the dispatcher is given from outside; the rest of
the schema is `Envelope.ofJson?`. The upstream is a function on a state of its
own, and may raise.
-/

namespace OufGateway.Dispatch

open Lib CompileConfig

inductive Failure
  | dispatch (status : Nat) (code detail : String)
  | raised
deriving DecidableEq

structure TrustedIdentity where
  servicePrincipalId : String
  principalId : String
  tenantId : String
  actorType : String
  authenticationContextRef : String
  authorizationDecisionRef : String
  scopes : List String

structure BackendResponse where
  status : Nat
  body : List UInt8
  headers : List (String × String)

/-- The arguments of `upstream.execute`. -/
structure UpstreamCall where
  service : String
  path : String
  body : String
  headers : List (String × String)
  timeoutSeconds : Nat
deriving DecidableEq

/-- What is not under `src`: the parser of the body, and the validator's own parts. -/
structure Outside where
  loads : List UInt8 → Option Json
  isUuid : String → Bool
  message : Json → String

/-- `str.lower`, as far as a comparison with an ASCII name can tell: the only other
character with an ASCII lower case is the Kelvin sign. -/
def lower (s : String) : String :=
  String.ofList (s.toList.map fun c => if c.toNat = 8490 then 'k' else c.toLower)

/-! ## The envelope -/

structure BodyIdentity where
  servicePrincipalId : String
  principalId : String
  tenantId : String
  actorType : String
  authenticationContextRef : String
deriving DecidableEq

structure Envelope where
  gatewayBindingRef : String
  capabilityId : String
  owner : String
  operationClass : String
  arguments : Json
  identity : BodyIdentity
  authorizationDecisionRef : String
  correlationId : String
  idempotencyKey : String
  attemptId : String

def string? (accepts : String → Bool) : Json → Option String
  | .str s => if accepts s then some s else none
  | _ => none

/-- `type` `integer` with bounds; a float that is whole is one. -/
def isIntegerBetween (least most : Int) : Json → Bool
  | .int n => least ≤ n && n ≤ most
  | .float q _ => q.den = 1 && least ≤ q.num && q.num ≤ most
  | _ => false

/-- An object has the required members, and no others than those named; each meets its
check. -/
def hasMembers (required : List String) (checks : List (String × (Json → Bool))) (v : Json) :
    Bool :=
  match v with
  | .obj members =>
    (required.all fun k => (v.get? k).isSome) &&
      members.all fun m => checks.any fun c => c.1 = m.1 && c.2 m.2
  | _ => false

def meets (accepts : String → Bool) (v : Json) : Bool := (string? accepts v).isSome

def anyString : Json → Bool := meets fun _ => true

def isTargets : Json → Bool
  | .arr items =>
    between 1 10 items.length && items.all anyString &&
      decide (items.filterMap (string? fun _ => true)).Nodup
  | _ => false

/-- The arguments of a related search. -/
def isRelatedSearch (o : Outside) : Json → Bool :=
  hasMembers
    ["anchorObjectId", "anchorTypeCode", "relationIri", "direction", "targetTypeCodes", "limit"]
    [("anchorObjectId", meets o.isUuid), ("anchorTypeCode", anyString), ("relationIri", anyString),
      ("direction", meets ["OUTBOUND", "INBOUND"].contains), ("targetTypeCodes", isTargets),
      ("limit", isIntegerBetween 1 200), ("applicationSessionRef", anyString)]

/-- The arguments of a search by type. -/
def isTypeSearch : Json → Bool :=
  hasMembers ["type"]
    [("type", meets fun s => between 1 128 s.length &&
        Text.fullmatch (fun c => c ≠ '%' && c ≠ '*') s),
      ("pageSize", isIntegerBetween 1 100), ("cursor", meets fun s => between 1 128 s.length)]

def nonempty (s : String) : Bool := s ≠ ""

def bodyActorTypes : List String :=
  ["HUMAN", "HUMAN_USER", "AI_AGENT", "MCP_SERVER", "SERVICE_IDENTITY"]

def BodyIdentity.ofJson? (v : Json) : Option BodyIdentity :=
  if hasMembers
      ["ServicePrincipalID", "PrincipalID", "TenantID", "ActorType", "AuthenticationContextRef"]
      [("ServicePrincipalID", anyString), ("PrincipalID", anyString), ("TenantID", anyString),
        ("ActorType", anyString), ("AuthenticationContextRef", anyString)] v then do
    let servicePrincipalId ← (v.get? "ServicePrincipalID").bind (string? nonempty)
    let principalId ← (v.get? "PrincipalID").bind (string? nonempty)
    let tenantId ← (v.get? "TenantID").bind (string? nonempty)
    let actorType ← (v.get? "ActorType").bind (string? bodyActorTypes.contains)
    let authenticationContextRef ← (v.get? "AuthenticationContextRef").bind (string? nonempty)
    return ⟨servicePrincipalId, principalId, tenantId, actorType, authenticationContextRef⟩
  else none

def envelopeMembers : List String :=
  ["GatewayBindingRef", "CapabilityID", "Owner", "OperationClass", "Arguments", "Identity",
    "AuthorizationDecisionRef", "CorrelationID", "IdempotencyKey", "AttemptID", "RequestHash",
    "MaxResultBytes"]

/-- `^capability://[a-z0-9._-]+$`. -/
def isBindingRef (s : String) : Bool :=
  Text.startsWith "capability://" s &&
    Text.wholly isNameChar (Text.removeLead "capability://" s)

/-- `^[0-9a-f]{64}$`. -/
def isRequestHash (s : String) : Bool :=
  (Text.body s).length = 64 && (Text.body s).all fun c => c.isDigit || ('a' ≤ c && c ≤ 'f')

/-- The schema of the envelope, with the values of its members. -/
def Envelope.ofJson? (o : Outside) (v : Json) : Option Envelope :=
  if hasMembers envelopeMembers (envelopeMembers.map fun k => (k, fun _ => true)) v then do
    let gatewayBindingRef ← (v.get? "GatewayBindingRef").bind (string? isBindingRef)
    let capabilityId ← (v.get? "CapabilityID").bind (string? (Text.wholly isNameChar))
    let owner ← (v.get? "Owner").bind (string? (Text.wholly isNameChar))
    let operationClass ← (v.get? "OperationClass").bind
      (string? ["READ", "SEARCH", "STATUS", "COMMAND"].contains)
    let arguments ← (v.get? "Arguments").filter fun a => isRelatedSearch o a ^^ isTypeSearch a
    let identity ← (v.get? "Identity").bind BodyIdentity.ofJson?
    let authorizationDecisionRef ← (v.get? "AuthorizationDecisionRef").bind (string? nonempty)
    let correlationId ← (v.get? "CorrelationID").bind (string? nonempty)
    let idempotencyKey ← (v.get? "IdempotencyKey").bind (string? nonempty)
    let attemptId ← (v.get? "AttemptID").bind (string? o.isUuid)
    let _ ← (v.get? "RequestHash").bind (string? isRequestHash)
    let _ ← (v.get? "MaxResultBytes").filter (isIntegerBetween 1 1048576)
    return ⟨gatewayBindingRef, capabilityId, owner, operationClass, arguments, identity,
      authorizationDecisionRef, correlationId, idempotencyKey, attemptId⟩
  else none

/-! ## The registry -/

def installationMcpRef : String := "installation://iam.workloadClients.mcpServer"

/-- `is_mcp_route`. -/
def isMcpRoute (serviceIdentity : String) (r : CompiledRoute) : Bool :=
  let allowed := r.policy.allowedServiceIdentities.getD []
  (r.capability.any (·.toolEligible)) && r.labels.exposure = .internal &&
    r.policy.identity = .m2m && (serviceIdentity ∈ allowed || installationMcpRef ∈ allowed)

abbrev Registry := List (String × CompiledRoute)

def Registry.get? (registry : Registry) (capabilityId : String) : Option CompiledRoute :=
  (registry.find? (·.1 = capabilityId)).map (·.2)

/-- The loop of `__init__`. -/
def register (serviceIdentity : String) : List CompiledRoute → Registry → Except Failure Registry
  | [], registry => .ok registry
  | r :: rest, registry =>
    match r.capability with
    | some view =>
      if isMcpRoute serviceIdentity r then
        if (registry.get? view.capabilityId).isSome then
          .error (.dispatch 503 "AMBIGUOUS_CAPABILITY_BINDING" view.capabilityId)
        else register serviceIdentity rest (registry ++ [(view.capabilityId, r)])
      else register serviceIdentity rest registry
    | none => register serviceIdentity rest registry

structure Dispatcher where
  outside : Outside
  serviceIdentity : String
  registry : Registry

/-- `MCPDispatcher(compiled, upstream, service_identity)`. -/
def init (outside : Outside) (compiled : Artifact) (serviceIdentity : String) :
    Except Failure Dispatcher :=
  (register serviceIdentity compiled.routes []).map fun registry =>
    ⟨outside, serviceIdentity, registry⟩

/-! ## The checks -/

def forwardedResponseHeaders : List String := ["content-type", "retry-after", "x-backend-request-id"]

def requiredHeaders : List String := ["X-Correlation-ID", "Idempotency-Key", "X-Tool-Attempt-ID"]

/-- `headers.get(name.lower())`: of the names that are one in lower case the last. -/
def header? (requestHeaders : List (String × String)) (name : String) : Option String :=
  (requestHeaders.reverse.find? fun h => lower h.1 = lower name).map (·.2)

def refuse {α : Type} (status : Nat) (code detail : String) : Except Failure α :=
  .error (.dispatch status code detail)

/-- The envelope of a body. -/
def readEnvelope (o : Outside) (rawBody : List UInt8) : Except Failure Envelope :=
  match o.loads rawBody with
  | none => refuse 400 "INVALID_MCP_GATEWAY_REQUEST" "invalid JSON"
  | some v =>
    match Envelope.ofJson? o v with
    | none => refuse 400 "INVALID_MCP_GATEWAY_REQUEST" (o.message v)
    | some envelope => .ok envelope

def Envelope.mismatched (e : Envelope) : Bool :=
  e.capabilityId = "urban.object.search" && (e.arguments.get? "type").isNone ||
    e.capabilityId = "urban.object.related_search" &&
      (e.arguments.get? "anchorObjectId").isNone

/-- The registry route of the envelope, with its capability. -/
def findRoute (d : Dispatcher) (e : Envelope) : Except Failure (CompiledRoute × CapabilityView) :=
  match d.registry.get? e.capabilityId with
  | none => refuse 404 "CAPABILITY_BINDING_NOT_FOUND" e.capabilityId
  | some route =>
    if e.mismatched then
      refuse 400 "INVALID_MCP_GATEWAY_REQUEST" "arguments do not match the bound capability"
    else match route.capability with
      | none => .error .raised
      | some capability => .ok (route, capability)

def checkBinding (route : CompiledRoute) (capability : CapabilityView) (size : Nat) (e : Envelope) :
    Except Failure Unit :=
  if route.policy.maxRequestBytes < size then
    refuse 413 "REQUEST_TOO_LARGE" "request exceeds route limit"
  else if e.gatewayBindingRef ≠ "capability://" ++ capability.capabilityId then
    refuse 409 "CAPABILITY_BINDING_MISMATCH" "logical binding does not match capability"
  else if e.operationClass ≠ capability.operationType.text then
    refuse 409 "CAPABILITY_BINDING_MISMATCH" "operation class does not match published capability"
  else if e.owner ≠ capability.owner then
    refuse 409 "CAPABILITY_BINDING_MISMATCH" "owner does not match published capability"
  else .ok ()

/-- `allowed_services`: the installation's reference stands for this dispatcher. -/
def allowedServices (serviceIdentity : String) (allowed : List String) : List String :=
  allowed.map fun value => if value = installationMcpRef then serviceIdentity else value

def TrustedIdentity.claims (i : TrustedIdentity) : BodyIdentity :=
  ⟨i.servicePrincipalId, i.principalId, i.tenantId, i.actorType, i.authenticationContextRef⟩

def checkIdentity (d : Dispatcher) (route : CompiledRoute) (capability : CapabilityView)
    (e : Envelope) (i : TrustedIdentity) : Except Failure Unit :=
  match route.policy.allowedServiceIdentities, route.policy.allowedActorTypes with
  | some services, some actors =>
    if i.servicePrincipalId ∉ allowedServices d.serviceIdentity services then
      refuse 403 "CAPABILITY_ACCESS_DENIED" "service identity is not allowed"
    else if actors ≠ [] ∧ i.actorType ∉ actors then
      refuse 403 "CAPABILITY_ACCESS_DENIED" "actor type is not allowed"
    else if capability.humanRequired ∧ i.actorType ≠ "HUMAN_USER" then
      refuse 403 "TRUSTED_HUMAN_REQUIRED" "MCP identities cannot invoke this capability"
    else if ∀ scope ∈ route.policy.requiredScope, scope ∉ i.scopes then
      refuse 403 "CAPABILITY_ACCESS_DENIED" "required scope is absent"
    else if e.identity ≠ i.claims then
      refuse 403 "IDENTITY_CONTEXT_MISMATCH" "body identity differs from authenticated context"
    else if e.authorizationDecisionRef ≠ i.authorizationDecisionRef then
      refuse 403 "AUTHORIZATION_CONTEXT_MISMATCH"
        "decision reference differs from authenticated context"
    else .ok ()
  | _, _ => .error .raised

/-- The loop over the required headers. -/
def checkPresent (requestHeaders : List (String × String)) : List String → Except Failure Unit
  | [] => .ok ()
  | name :: names =>
    if (header? requestHeaders name).getD "" = "" then refuse 400 "MISSING_GOVERNANCE_HEADER" name
    else checkPresent requestHeaders names

def checkHeaders (requestHeaders : List (String × String)) (e : Envelope) : Except Failure Unit :=
  if header? requestHeaders "X-Correlation-ID" ≠ some e.correlationId ∨
      header? requestHeaders "Idempotency-Key" ≠ some e.idempotencyKey ∨
      header? requestHeaders "X-Tool-Attempt-ID" ≠ some e.attemptId then
    refuse 409 "GOVERNANCE_CONTEXT_MISMATCH" "headers and admitted attempt differ"
  else .ok ()

/-! ## The call -/

def argumentsFormat : Json.Format := ⟨",", ":", false, true⟩

def downstreamHeaders (capability : CapabilityView) (e : Envelope) (i : TrustedIdentity) :
    List (String × String) :=
  [("Content-Type", "application/json"), ("X-Correlation-ID", e.correlationId),
    ("Idempotency-Key", e.idempotencyKey), ("X-Tool-Attempt-ID", e.attemptId),
    ("X-OUF-Capability-ID", capability.capabilityId), ("X-OUF-Actor-Type", i.actorType),
    ("X-OUF-Principal-ID", i.principalId), ("X-OUF-Tenant-ID", i.tenantId),
    ("X-OUF-Authorization-Decision-Ref", e.authorizationDecisionRef)]

/-- The arguments of `execute`; a route without a service or a rewrite has no such key. -/
def prepareCall (route : CompiledRoute) (capability : CapabilityView) (e : Envelope)
    (i : TrustedIdentity) : Except Failure UpstreamCall :=
  match route.serviceId, route.proxyRewrite with
  | some service, some path =>
    .ok ⟨service, path, Json.dumps argumentsFormat e.arguments, downstreamHeaders capability e i,
      route.policy.timeoutSeconds⟩
  | _, _ => .error .raised

/-- `dispatch` up to the call. -/
def vet (d : Dispatcher) (rawBody : List UInt8) (requestHeaders : List (String × String))
    (i : TrustedIdentity) : Except Failure UpstreamCall := do
  let e ← readEnvelope d.outside rawBody
  let bound ← findRoute d e
  checkBinding bound.1 bound.2 rawBody.length e
  checkIdentity d bound.1 bound.2 e i
  checkPresent requestHeaders requiredHeaders
  checkHeaders requestHeaders e
  prepareCall bound.1 bound.2 e i

/-- `upstream.execute`, on the upstream's own state. -/
abbrev Upstream (σ : Type) := UpstreamCall → σ → Except Unit BackendResponse × σ

/-- What a dispatch answers, leaves of the upstream, and has called. -/
structure Outcome (σ : Type) where
  answer : Except Failure BackendResponse
  upstream : σ
  calls : List UpstreamCall

def safeHeaders (headers : List (String × String)) : List (String × String) :=
  headers.filter fun h => lower h.1 ∈ forwardedResponseHeaders

/-- `dispatch`. -/
def dispatch {σ : Type} (d : Dispatcher) (execute : Upstream σ) (s : σ) (rawBody : List UInt8)
    (requestHeaders : List (String × String)) (i : TrustedIdentity) : Outcome σ :=
  match vet d rawBody requestHeaders i with
  | .error f => ⟨.error f, s, []⟩
  | .ok call =>
    match execute call s with
    | (.error _, s) => ⟨.error .raised, s, [call]⟩
    | (.ok r, s) => ⟨.ok { r with headers := safeHeaders r.headers }, s, [call]⟩

end OufGateway.Dispatch
