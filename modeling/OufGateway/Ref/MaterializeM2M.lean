import Mathlib
import OufGateway.Lib.LuaLiteral
import OufGateway.Ref.CompileConfig

/-!
# The internal M2M materializer

`materialize_route` turns a compiled route into a governed APISIX route, and
`workload_guard` writes the Lua of its access phase. A literal of that Lua is what
`json.dumps` gives, and the guard is here as the literals spliced into it: what
the guard does with a token is `WorkloadGuard.passes`, and a guard one of whose
literals is not Lua does not load, so nothing passes it.

What the emitted route does with a request is the chain of its plugins: the route
matches, `openid-connect` verifies the bearer token, the guard reads the claims of
the same token, and the request goes to the one node of the upstream. The plugin
itself is not part of the repository; `verifies` stands for it, on the claims of a
token whose signature and times are good. The route sets no limit on the body and
no timeout, so its own settings bound neither.
-/

namespace OufGateway.MaterializeM2M

open Lib CompileConfig

structure MaterializationError where
  message : String
deriving DecidableEq

def ensure (p : Prop) [Decidable p] (message : String) : Except MaterializationError Unit :=
  if p then .ok () else .error ⟨message⟩

def require {α : Type} (value : Option α) (message : String) : Except MaterializationError α :=
  match value with
  | some a => .ok a
  | none => .error ⟨message⟩

/-- `require_text`: a member that is missing, or no text, is `none`. -/
def requireText (value : Option String) (key : String) : Except MaterializationError String := do
  let text ← require value ("missing or invalid " ++ key)
  ensure (Text.strip text ≠ "") ("missing or invalid " ++ key)
  return Text.strip text

/-- `x-ouf-installation`; the revision is what `str` makes of it. -/
structure Installation where
  installationId : Option String
  issuerUrl : Option String
  gatewayAudience : Option String
  revision : String

def trustedHeaders : List String :=
  ["X-OUF-Gateway-Verified", "X-OUF-Service-Principal", "X-OUF-Principal-ID", "X-OUF-Tenant-ID",
    "X-OUF-Actor-Type", "X-OUF-Authentication-Context-Ref", "X-OUF-Token-Issuer",
    "X-OUF-Token-Audience", "X-OUF-Granted-Scopes"]

def luaQuote (value : String) : String := Json.quote true value

/-- The literals of the guard's two tables. -/
structure WorkloadGuard where
  allowedServices : List String
  allowedActors : List String

def workloadGuard (allowedServices allowedActors : List String) : WorkloadGuard :=
  ⟨allowedServices.map luaQuote, allowedActors.map luaQuote⟩

structure OpenidConnect where
  clientId : String
  clientSecret : String
  discovery : String
  requiredScopes : List String

structure EmittedRoute where
  id : String
  uri : String
  methods : List Method
  labels : List (String × String)
  limit : Nat
  strippedHeaders : List String
  openidConnect : OpenidConnect
  workloadGuard : WorkloadGuard
  proxyRewrite : Option String
  node : String

def isNodeChar (c : Char) : Bool := c.isAlphanum || ['.', '_', '-'].contains c

def nodeOf (service : String) (port : Nat) : String := service ++ ":" ++ toString port

def materializeRoute (route : CompiledRoute) (installation : Installation)
    (oidcSecretRef : String) : Except MaterializationError EmittedRoute := do
  ensure (route.labels.exposure = .internal) "only internal routes are supported"
  let identity ← requireText (some route.policy.identity.text) "identity"
  ensure (identity = "M2M") "internal materializer requires M2M identity"
  let backend ← require route.backendBinding "compiled backend binding is required"
  let capability ← require route.capability "governed capability metadata is required"
  let allowedServices := route.policy.allowedServiceIdentities.getD []
  ensure (allowedServices ≠ [] ∧ ∀ v ∈ allowedServices, v ≠ "")
    "allowed service identities are required"
  ensure (∀ v ∈ allowedServices, ¬ Text.startsWith "installation://" v)
    "installation service identities must be projected before materialization"
  let allowedActors := route.policy.allowedActorTypes.getD []
  ensure (allowedActors = ["SERVICE"]) "internal workload route must allow only SERVICE actor"
  let scope ← requireText route.policy.requiredScope "requiredScope"
  ensure (Text.startsWith "$ENV://" oidcSecretRef ∨ Text.startsWith "$secret://" oidcSecretRef)
    "OIDC client secret must be an APISIX secret reference"
  let issuerUrl ← requireText installation.issuerUrl "issuerUrl"
  let audience ← requireText installation.gatewayAudience "gatewayAudience"
  let service ← requireText (some backend.service) "service"
  let backendPath ← requireText (some backend.path) "path"
  let uri ← requireText (some route.uri) "uri"
  ensure (1 ≤ backend.port ∧ backend.port ≤ 65535) "invalid backend port"
  ensure (Text.fullmatch isNodeChar service) "invalid backend service"
  ensure (route.id = "onboarding-managed-file-read" →
      service = "ouf-onboarding" ∧ backend.port = 8080)
    "managed-file remote upstream requires a verified transport profile"
  ensure (route.methods.length = 1) "exactly one supported method is required"
  ensure (isWildcard uri →
      Text.endsWith "/*" uri ∧ Text.countChar '*' uri = 1 ∧ backendPath = uri)
    "wildcard route must preserve exact bounded namespace"
  let id ← requireText (some route.id) "id"
  let installationId ← requireText installation.installationId "installationId"
  let capabilityId ← requireText (some capability.capabilityId) "capabilityId"
  return {
    id := id, uri := uri, methods := route.methods
    labels :=
      [("ouf-managed", "true"), ("ouf-installation", installationId),
        ("ouf-installation-revision", installation.revision), ("ouf-capability", capabilityId),
        ("ouf-exposure", "internal")]
    limit := route.limit
    strippedHeaders := trustedHeaders.map luaQuote
    openidConnect :=
      { clientId := audience, clientSecret := oidcSecretRef
        discovery := Text.rstrip '/' issuerUrl ++ "/.well-known/openid-configuration"
        requiredScopes := [scope] }
    workloadGuard := workloadGuard allowedServices allowedActors
    proxyRewrite := if isWildcard uri then none else some backendPath
    node := nodeOf service backend.port }

/-! ## What the routes do with a request -/

/-- A request, with the claims of its bearer token, and how long the upstream takes
to answer it. -/
structure Request where
  method : Method
  uri : String
  bodyBytes : Nat
  claims : Json
  upstreamSeconds : Nat

/-- The route matching of APISIX: a star stands for any rest. -/
def uriMatches (pattern uri : String) : Bool :=
  if isWildcard pattern then Text.startsWith (Text.before '*' pattern) uri else pattern == uri

/-- The node and the path a request is forwarded to. -/
structure Target where
  node : String
  path : String
deriving DecidableEq

/-- `claims['client_id'] or claims['azp']`. -/
def serviceOf (claims : Json) : Option Json :=
  match claims.get? "client_id" with
  | none => claims.get? "azp"
  | some (.bool false) => claims.get? "azp"
  | some value => some value

/-- `claims[k]==nil or tostring(claims[k])==''` is the negation of this. -/
def stated (claims : Json) (key : String) : Bool :=
  match claims.get? key with
  | none => false
  | some (.str s) => s ≠ ""
  | some _ => true

/-- An item `table.concat` takes. -/
def concatenable : Json → Bool
  | .str _ => true
  | .int _ => true
  | .float _ _ => true
  | _ => false

/-- What `table.concat` writes for the items is empty. -/
def blank : List Json → Bool
  | [] => true
  | [.str s] => s = ""
  | _ => false

/-- The audience of the claims is there, and is not empty when written out. A list of
anything but texts and numbers raises in `table.concat`. -/
def audienceStated (claims : Json) : Bool :=
  match claims.get? "aud" with
  | none => false
  | some (.str s) => s ≠ ""
  | some (.arr items) => items.all concatenable && !blank items
  | some (.obj _) => false
  | some _ => true

/-- The text a claim is, and whether a list has it. -/
def listed (allowed : List String) : Option Json → Bool
  | some (.str s) => allowed.contains s
  | _ => false

def WorkloadGuard.passes (g : WorkloadGuard) (claims : Json) : Bool :=
  match g.allowedServices.mapM LuaLiteral.literal, g.allowedActors.mapM LuaLiteral.literal with
  | some services, some actors =>
    listed actors (claims.get? "ouf_actor_type") && listed services (serviceOf claims) &&
      ["sub", "tenant_id", "acr", "iss", "scope"].all (stated claims) && audienceStated claims
  | _, _ => false

def EmittedRoute.forwards (verifies : OpenidConnect → Json → Bool) (e : EmittedRoute)
    (q : Request) : Option Target :=
  if e.methods.contains q.method && uriMatches e.uri q.uri &&
      (e.strippedHeaders.mapM LuaLiteral.literal).isSome &&
      verifies e.openidConnect q.claims && e.workloadGuard.passes q.claims then
    some ⟨e.node, e.proxyRewrite.getD q.uri⟩
  else none

/-- The scopes a token grants. -/
def scopesOf (claims : Json) : List String :=
  match claims.get? "scope" with
  | some (.str s) => Text.words s
  | _ => []

/-- What a compiled route asks of a request; `regex` is the match of a `vars` selector. -/
structure Admitted (regex : String → String → Bool) (r : CompiledRoute) (q : Request) : Prop where
  method : q.method ∈ r.methods
  uri : uriMatches r.uri q.uri = true
  vars : ∀ x, r.vars = some x → regex x q.uri = true
  scope : ∃ s, r.policy.requiredScope = some s ∧ s ∈ scopesOf q.claims
  service : listed (r.policy.allowedServiceIdentities.getD []) (serviceOf q.claims) = true
  actor : listed (r.policy.allowedActorTypes.getD []) (q.claims.get? "ouf_actor_type") = true
  body : q.bodyBytes ≤ r.policy.maxRequestBytes
  time : q.upstreamSeconds ≤ r.policy.timeoutSeconds

/-- Where a compiled route sends a request. -/
def targetOf (r : CompiledRoute) (q : Request) : Option Target :=
  r.backendBinding.map fun b =>
    ⟨nodeOf b.service b.port, if isWildcard r.uri then q.uri else b.path⟩

end OufGateway.MaterializeM2M
