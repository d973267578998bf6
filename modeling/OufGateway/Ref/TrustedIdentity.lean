import OufGateway.Ref.Delegation
import OufGateway.Ref.GeneratedLua
import OufGateway.Ref.MaterializeM2M

/-!
# The identity the gateway vouches for

What the generated functions do with the claims of a verified token, and
`materialize_mcp_route`, which puts them on the public MCP route. The claims are the
table `cjson.decode` gives for the payload, with `cjson.null` among the values that
are `other`. A function returns, leaves with a status, or raises. `urlsplit` is a
parameter: all that matters of a URL is whether it passes. The check of the verified
marker is left out, as a compiled route always has that marker.
-/

namespace OufGateway.TrustedIdentity

open OufGateway.Lib
open CompileConfig (CompiledRoute BackendBinding)
open Encoding (Points encode)
open GeneratedLua (trustedPreFunction trustedPostFunction loadPreFunction loadPostFunction loadGuard)
open Lua (Bytes Value Printer)
open MaterializeM2M (MaterializationError ensure require requireText isNodeChar nodeOf OpenidConnect)
open PyJson (points)

/-! ## The functions -/

inductive Stop
  | exit (status : Nat)
  | raised

def bytes (s : String) : Bytes := encode (points s)

instance : LawfulBEq Bytes := inferInstance

inductive HeaderOp
  | set (name : String) (value : Bytes)
  | clear (name : String)

/-- What a request has in a header after some operations on a request that has nothing there. -/
def headerOf (ops : List HeaderOp) (name : String) : Option Bytes :=
  ops.foldl (fun value op =>
    match op with
    | .set n v => if n = name then some v else value
    | .clear n => if n = name then none else value) none

def claim (claims : Value) (name : String) : Value := claims.field (bytes name)

def isTable : Value → Bool
  | .table _ _ => true
  | _ => false

def isNil : Value → Bool
  | .nil => true
  | _ => false

variable (p : Printer)

/-- `v==nil or tostring(v)==''`. -/
def missing (v : Value) : Bool := isNil v || p.tostring v = []

def required : List String := ["sub", "tenant_id", "acr", "iss", "scope"]

def actorOf (allowed : List Bytes) (claims : Value) : Except Stop Bytes :=
  match claim claims "ouf_actor_type" with
  | .string actor => if actor ∈ allowed then .ok actor else .error (.exit 403)
  | _ => .error (.exit 403)

def checkRequired (claims : Value) : Except Stop Unit :=
  if required.any fun k => missing p (claim claims k) then .error (.exit 401) else .ok ()

def audienceOf (claims : Value) : Except Stop Bytes :=
  match claim claims "aud" with
  | .table entries length =>
    match p.concat entries length with
    | none => .error .raised
    | some aud => if aud = [] then .error (.exit 401) else .ok aud
  | aud => if missing p aud then .error (.exit 401) else .ok (p.tostring aud)

/-- The headers a post function sets, and the one it clears. -/
def projected (claims : Value) (actor aud : Bytes) : List HeaderOp :=
  let sp := ((claim claims "azp").or (claim claims "client_id")).or (.string [])
  [.set "X-OUF-Gateway-Verified" (bytes "true"),
    .set "X-OUF-Service-Principal" (p.tostring sp),
    .set "X-OUF-Principal-ID" (p.tostring (claim claims "sub")),
    .set "X-OUF-Tenant-ID" (p.tostring (claim claims "tenant_id")),
    .set "X-OUF-Actor-Type" actor,
    .set "X-OUF-Authentication-Context-Ref" (p.tostring (claim claims "acr")),
    .set "X-OUF-Token-Issuer" (p.tostring (claim claims "iss")),
    .set "X-OUF-Token-Audience" aud,
    .set "X-OUF-Granted-Scopes" (p.tostring (claim claims "scope")),
    .clear "Authorization"]

/-- The function of `trusted_post_function`, from the claims on. -/
def postFunction (allowed : List Bytes) (claims : Value) : Except Stop (List HeaderOp) :=
  if !isTable claims then .error (.exit 401)
  else do
    let actor ← actorOf allowed claims
    checkRequired p claims
    let aud ← audienceOf p claims
    return projected p claims actor aud

/-- `claims['client_id'] or claims['azp']`. -/
def serviceOf (claims : Value) : Value := (claim claims "client_id").or (claim claims "azp")

/-- `type(service)~='string' or not allowed_services[service]` does not stop the guard. -/
def admitsService (allowed : List Bytes) (claims : Value) : Bool :=
  match serviceOf claims with
  | .string service => service ∈ allowed
  | _ => false

/-- The function of `workload_guard`, from the claims on. -/
def guardFunction (services actors : List Bytes) (claims : Value) : Except Stop Unit :=
  if !isTable claims then .error (.exit 401)
  else do
    let _ ← actorOf actors claims
    if !admitsService services claims then .error (.exit 403)
    else do
      checkRequired p claims
      let _ ← audienceOf p claims
      return ()

/-- What the function a text stands for does with the service of a token. -/
def guardAdmits (text : Points) (claims : Value) : Bool :=
  match loadGuard text with
  | none => false
  | some (services, _) => admitsService services claims

/-! ## The public MCP route -/

structure SplitResult where
  scheme : String
  path : String
  query : String
  fragment : String
  hostname : Option String
  username : Option String
  password : Option String

/-- `x-ouf-installation`; the revision is what `str` makes of it. -/
structure Installation where
  installationId : Option String
  issuerUrl : Option String
  publicApiBaseUrl : Option String
  revision : String

/-- `require_https_url`; where `urlsplit` raises, it is `none`. -/
def requireHttpsUrl (urlsplit : String → Option SplitResult) (value : Option String) (key : String)
    (originOnly : Bool) : Except MaterializationError String := do
  let text ← requireText value key
  let url := Text.rstrip '/' text
  let parsed ← require (urlsplit url) "ValueError"
  ensure (parsed.scheme = "https" ∧ parsed.hostname.getD "" ≠ "" ∧ parsed.username = none ∧ parsed.password = none
      ∧ parsed.query = "" ∧ parsed.fragment = "" ∧ (originOnly → parsed.path = "" ∨ parsed.path = "/"))
    (key ++ " must be a canonical HTTPS URL")
  return url

def protectedResourceMetadataPath : String := "/.well-known/oauth-protected-resource"

structure McpRoute where
  id : String
  uri : String
  methods : List CompileConfig.Method
  labels : List (String × String)
  limit : Nat
  maxReqBodySize : Nat
  proxyRewrite : String
  /-- The text of the function in the phase `rewrite`. -/
  serverlessPreFunction : Points
  openidConnect : OpenidConnect
  wwwAuthenticate : String
  /-- The text of the function in the phase `access`. -/
  serverlessPostFunction : Points
  node : String

/-- `sorted(set(stripped))`. -/
def sortedSet (stripped : List String) : List String := stripped.dedup.mergeSort fun a b => decide (a ≤ b)

def materializeMcpRoute (urlsplit : String → Option SplitResult) (route : CompiledRoute) (installation : Installation)
    (oidcSecretRef : String) : Except MaterializationError McpRoute := do
  ensure (route.uri = "/mcp") "MCP endpoint materializer only accepts /mcp"
  ensure (route.methods = [.post]) "/mcp must be POST-only"
  let trusted ← require route.trustedIdentity "missing governed MCP route metadata"
  let backend ← require route.backendBinding "missing governed MCP route metadata"
  let identity ← requireText (some route.policy.identity.text) "identity"
  ensure (identity = "OIDC") "/mcp requires OIDC"
  let audience ← requireText route.policy.requiredAudience "requiredAudience"
  let requiredScope ← requireText route.policy.requiredScope "requiredScope"
  let allowedActors := route.policy.allowedActorTypes.getD []
  ensure (allowedActors ≠ [] ∧ ∀ v ∈ allowedActors, v ≠ "") "missing MCP allowedActorTypes"
  let issuer ← requireHttpsUrl urlsplit installation.issuerUrl "issuerUrl" false
  let publicApiBase ← requireHttpsUrl urlsplit installation.publicApiBaseUrl "publicApiBaseUrl" true
  let service ← requireText (some backend.service) "service"
  let path ← requireText (some backend.path) "path"
  ensure (path = "/mcp") "MCP backend path must remain /mcp"
  ensure (1 ≤ backend.port ∧ backend.port ≤ 65535) "invalid MCP backend port"
  ensure (Text.fullmatch isNodeChar service) "invalid MCP backend service"
  ensure (trusted.stripClientHeaders ≠ []) "trusted header strip list is required"
  ensure (Text.startsWith "$ENV://" oidcSecretRef ∨ Text.startsWith "$secret://" oidcSecretRef)
    "OIDC client secret must be an APISIX secret reference"
  let id ← requireText (some route.id) "id"
  let installationId ← requireText installation.installationId "installationId"
  return {
    id := id, uri := "/mcp", methods := [.post]
    labels :=
      [("ouf-managed", "true"), ("ouf-installation", installationId),
        ("ouf-installation-revision", installation.revision), ("ouf-protocol", "MCP")]
    limit := route.limit
    maxReqBodySize := route.policy.maxRequestBytes
    proxyRewrite := "/mcp"
    serverlessPreFunction := trustedPreFunction ((sortedSet trusted.stripClientHeaders).map points)
    openidConnect :=
      { clientId := audience, clientSecret := oidcSecretRef
        discovery := issuer ++ "/.well-known/openid-configuration", requiredScopes := [requiredScope] }
    wwwAuthenticate :=
      "Bearer resource_metadata=\"" ++ publicApiBase ++ protectedResourceMetadataPath ++ "\", scope=\"" ++
        requiredScope ++ "\""
    serverlessPostFunction := trustedPostFunction (allowedActors.map points)
    node := nodeOf service backend.port }

/-- The headers the route clears before the token is verified. A function that does not load lets no request
pass. -/
def McpRoute.clears (e : McpRoute) : Option (List Bytes) := loadPreFunction e.serverlessPreFunction

/-- What the route does to the headers after that. -/
def McpRoute.after (e : McpRoute) (claims : Value) : Except Stop (List HeaderOp) :=
  match loadPostFunction e.serverlessPostFunction with
  | none => .error .raised
  | some allowed => postFunction p allowed claims

end OufGateway.TrustedIdentity
