import OufGateway.Lib.Headers
import OufGateway.Lib.Sha256
import OufGateway.Ref.DelegationProof
import OufGateway.Ref.ReadArguments

/-!
# The executors

The eight functions `execute_*.lua`, each behind the helpers of `delegation.lua`. Seven
of them read an envelope: they check the bearer of the workload, the delegated proof,
the identity in the envelope, what it asks for and the correlation headers, then clear
what an owner trusts, and send either the identity in headers or a signed receipt. The
eighth streams an upload and looks at headers only.

A function that calls `fail` is left with its status, and one that raises with 500.
`get_headers()` reads a hundred headers and `get_headers(0)` all of them, so its `err`
is never set. `ngx.time()` is the same wherever a function reads it, as none of them
waits in between. `cjson`, the HMAC, the environment, and what `set_header` writes for
a value that is not a string are parameters.
-/

namespace OufGateway.Executors

open OufGateway.Lib
open Delegation
open DelegationProof (Settings Hmac ensure require numberOf sign isHexByte)
open Headers (Lines entry clear set clearWhere)
open Lua (Bytes Number Value isSpace)
open TrustedIdentity (bytes claim isTable)

/-! ## A request -/

structure Request where
  /-- `ngx.var.http_authorization`. -/
  authorization : Option Bytes
  headers : Lines
  /-- `ngx.var.uri`. -/
  uri : Bytes
  /-- `ngx.req.get_body_data()`. -/
  body : Option Bytes

/-- What goes to the owner: the headers, and the body where it was set. -/
structure Forwarded where
  headers : Lines
  body : Option Bytes

/-- What is not under `src`, and the environment. -/
structure Worker extends DelegationProof.Runtime where
  /-- `cjson.encode`; nothing where it gives an error. -/
  encode : Value → Option Bytes
  /-- What `set_header` writes for a value that is neither `nil` nor a string; nothing where it raises. -/
  written : Value → Option (List Bytes)
  /-- What the environment has for `OWNER_KEY_ENV`. -/
  ownerKey : Option Bytes

variable (w : Worker) (s : Settings)

/-- `ngx.req.get_headers()[name]`. -/
def header (r : Request) (name : String) : Value := entry (r.headers.take 100) (bytes name)

/-! ## The bearer -/

/-- `auth:match('^[Bb]earer%s+([^%s]+)$')`. -/
def bearerToken (auth : Bytes) : Option Bytes :=
  let token := (auth.drop 6).dropWhile isSpace
  if (auth.take 6 = bytes "Bearer" ∨ auth.take 6 = bytes "bearer") ∧ (auth.drop 6).head?.any isSpace
      ∧ token ≠ [] ∧ token.all (fun b => !isSpace b) then some token
  else none

/-- `token:match('^[^.]+%.([^.]+)%.[^.]+$')`. -/
def tokenPayload (token : Bytes) : Option Bytes :=
  match token.splitOn 46 with
  | [a, b, c] => if a ≠ [] ∧ b ≠ [] ∧ c ≠ [] then some b else none
  | _ => none

/-- `jwt_claims`. -/
def jwtClaims (authorization : Option Bytes) : Value :=
  ((((authorization.bind bearerToken).bind tokenPayload).bind decode64).map w.cjson.decode).getD .nil

/-- The claims of the bearer, which is the MCP workload's. -/
def caller (r : Request) (now : Nat) : Except Nat Value := do
  let claims := jwtClaims w r.authorization
  ensure 403 (isTable claims ∧ (claim claims "iss").isString s.issuer ∧ audienceHas (claim claims "aud") s.audience
    ∧ (claim claims "ouf_actor_type").isString (bytes "SERVICE")
    ∧ ((claim claims "azp").or (claim claims "client_id")).isString s.mcpWorkload)
  let exp ← require 403 (numberOf (claim claims "exp"))
  ensure 403 (¬ exp.le (.finite now))
  return claims

/-! ## The proof -/

/-- What executors want of a proof in different ways. -/
structure ProofRules where
  actors : List String := ["HUMAN"]
  /-- `p.exp <= p.iat` is refused. -/
  rising : Bool := false
  /-- `scope_has(p.scope, wanted)`, along with the times. -/
  scope : Option Bytes := none
  /-- What is decoded for a payload that is not in base 64. -/
  blank : Value := .nil

/-- A proof that has passed. -/
structure Verified where
  proof : Bytes
  p : Value
  exp : Number
  roles : Bytes

/-- From the header on to the roles. -/
def checkProof (rules : ProofRules) (tenantId : Value) (now : Nat) (delegation : Value) : Except Nat Verified := do
  let proof ← require 403 (match delegation with
    | .string proof => if proof.length ≤ 16384 then some proof else none
    | _ => none)
  let (payload, signature) ← require 403 (splitProof proof)
  let expected ← require 503 (sign w.toRuntime payload)
  ensure 403 ((decode64 signature).any fun mac => same expected mac)
  let p := ((decode64 payload).map w.cjson.decode).getD rules.blank
  ensure 403 (isTable p ∧ (claim p "v").isNat 1 ∧ (claim p "purpose").isString (bytes "mcp-execute")
    ∧ (claim p "iss").isString s.issuer ∧ (claim p "aud").isString s.audience
    ∧ (claim p "workload").isString s.mcpWorkload ∧ rules.actors.any fun a => (claim p "actor").isString (bytes a))
  let iat ← require 403 (numberOf (claim p "iat"))
  let exp ← require 403 (numberOf (claim p "exp"))
  ensure 403 (¬ Number.lt (.finite now) iat ∧ ¬ exp.le (.finite now) ∧ ¬ (rules.rising ∧ exp.le iat)
    ∧ ¬ Number.lt (.finite 60) (exp.sub iat))
  ensure 403 ((claim p "tenant").same tenantId ∧ rules.scope.all fun wanted => scopeHas (claim p "scope") wanted)
  ensure 403 (["principal", "tenant", "acr", "client", "scope"].all fun k => (text (claim p k)).isSome)
  let roles ← require 403 (roleHeader (claim p "roles"))
  return ⟨proof, p, exp, roles⟩

/-! ## The envelope -/

/-- What executors want of an envelope in different ways. -/
structure Checks where
  rules : ProofRules := {}
  /-- `type(e.Arguments) ~= 'table'` is refused with the identity. -/
  arguments : Bool := false
  /-- `ServicePrincipalID` may be the workload. -/
  orWorkload : Bool := false
  /-- The checks between the identity and the correlation headers, of the URI, the scope and the envelope. -/
  binding : Bytes → Value → Value → Except Nat Unit

/-- What is known once all checks have passed. -/
structure Admitted where
  now : Nat
  verified : Verified
  uri : Bytes
  body : Bytes
  e : Value

namespace Admitted

/-- A field of the proof. -/
def proven (a : Admitted) (name : String) : Value := claim a.verified.p name

/-- A field of the envelope. -/
def envelope (a : Admitted) (name : String) : Value := claim a.e name

end Admitted

def readEnvelope (arguments : Bool) (body : Bytes) : Except Nat Value := do
  let e := w.cjson.decode body
  ensure 400 (isTable e ∧ isTable (claim e "Identity") ∧ (arguments → isTable (claim e "Arguments")))
  return e

def checkIdentity (orWorkload : Bool) (p e : Value) : Except Nat Unit :=
  let i := claim e "Identity"
  ensure 403 ((claim i "PrincipalID").same (claim p "principal") ∧ (claim i "TenantID").same (claim p "tenant")
    ∧ (claim i "ActorType").same (claim p "actor") ∧ (claim i "AuthenticationContextRef").same (claim p "acr")
    ∧ ((claim i "ServicePrincipalID").same (claim p "client")
      ∨ orWorkload ∧ (claim i "ServicePrincipalID").isString s.mcpWorkload))

def checkCorrelation (r : Request) (e : Value) : Except Nat Unit :=
  ensure 409 ((header r "x-correlation-id").same (claim e "CorrelationID")
    ∧ (header r "idempotency-key").same (claim e "IdempotencyKey")
    ∧ (header r "x-tool-attempt-id").same (claim e "AttemptID"))

def vouch (c : Checks) (r : Request) (now : Nat) : Except Nat Admitted := do
  let claims ← caller w s r now
  let v ← checkProof w s c.rules (claim claims "tenant_id") now (header r "x-ouf-delegation")
  let body ← require 413 (r.body.filter fun body => body.length ≤ 65536)
  let e ← readEnvelope w c.arguments body
  checkIdentity s c.orWorkload v.p e
  c.binding r.uri (claim v.p "scope") e
  checkCorrelation r e
  return ⟨now, v, r.uri, body, e⟩

/-! ## What an owner trusts -/

/-- What the loop over all headers clears. -/
def isTrusted (lower : Bytes) : Bool :=
  lower.take 6 = bytes "x-ouf-" ||
    ["authorization", "cookie", "x-access-token", "x-id-token", "x-userinfo"].any fun name => lower = bytes name

/-- The values `set_header` writes. -/
def headerValues : Value → Option (List Bytes)
  | .nil => some []
  | .string v => some [v]
  | v => w.written v

def setHeaders (hs : Lines) : List (String × Value) → Except Nat Lines
  | [] => .ok hs
  | (name, v) :: rest => do
    let vs ← require 500 (headerValues w v)
    setHeaders (set hs (bytes name) vs) rest

/-- `if roles ~= '' then ngx.req.set_header('X-OUF-External-Role-Refs', roles) end`. -/
def setRoles (roles : Bytes) (hs : Lines) : Lines :=
  if roles = [] then hs else set hs (bytes "X-OUF-External-Role-Refs") [roles]

/-- `downstream`; `pairs` goes through it in any order, and no two have one name. -/
def downstream (a : Admitted) (capability : Value) : List (String × Value) :=
  [("X-OUF-Gateway-Verified", .string (bytes "true")), ("X-OUF-Service-Principal", .string s.mcpWorkload),
    ("X-OUF-Principal-ID", a.proven "principal"), ("X-OUF-Tenant-ID", a.proven "tenant"),
    ("X-OUF-Actor-Type", a.proven "actor"), ("X-OUF-Authentication-Context-Ref", a.proven "acr"),
    ("X-OUF-Token-Issuer", a.proven "iss"), ("X-OUF-Token-Audience", a.proven "aud"),
    ("X-OUF-Granted-Scopes", a.proven "scope"), ("X-OUF-Capability-ID", capability),
    ("X-OUF-Authorization-Decision-Ref", a.envelope "AuthorizationDecisionRef")]

def setJson (hs : Lines) : Lines := set hs (bytes "Content-Type") [bytes "application/json"]

/-! ## Receipts -/

def isOwnerKey (key : Bytes) : Bool := key.length = 64 && key.all isHexByte

/-- `os.getenv(OWNER_KEY_ENV)`, checked. -/
def ownerKeyOf : Except Nat Bytes := require 503 (w.ownerKey.filter isOwnerKey)

/-- A table under these names; what is `nil` is not in it. -/
def record (fields : List (String × Value)) : Value :=
  .table ((fields.filter fun f => !TrustedIdentity.isNil f.2).map fun f => (.string (bytes f.1), f.2)) 0

/-- `encoded..'.'..encode64(signed)`; `ngx.encode_base64` takes `nil` for an empty string. -/
def signReceipt (label : String) (key : Bytes) (receipt : Value) : Except Nat Bytes := do
  let encoded := encode64 ((w.encode receipt).getD [])
  let signed ← require 503 (w.hmac key (bytes label ++ encoded))
  return encoded ++ 46 :: encode64 signed

/-- `require('resty.string').to_hex(digest:final(body))`. -/
def bodyHash (body : Bytes) : Bytes := bytes (Sha256.hexdigest body)

/-- `math.min(p.exp, now+30)`. -/
def receiptExpiry (exp : Number) (now : Nat) : Number := exp.min (.finite (now + 30))

/-- What every receipt says. -/
def receiptFields (purpose : String) (path : Bytes) (capability : Value) (now : Nat) (v : Verified) :
    List (String × Value) :=
  [("v", Lua.ofNat 1), ("purpose", .string (bytes purpose)), ("method", .string (bytes "POST")),
    ("path", .string path), ("capability", capability), ("iat", Lua.ofNat now),
    ("exp", .number (receiptExpiry v.exp now)), ("issuer", claim v.p "iss"), ("audience", claim v.p "aud"),
    ("workload", .string s.mcpWorkload), ("subject", claim v.p "principal"), ("tenant", claim v.p "tenant"),
    ("acr", claim v.p "acr"), ("roles", .string v.roles), ("scope", claim v.p "scope")]

/-- A receipt over the body that is sent. -/
structure Receipt where
  label : String
  header : String
  fields : Admitted → List (String × Value)
  /-- The body; the status where there is none to send. -/
  args : Admitted → Except Nat Bytes

def sendReceipt (d : Receipt) (a : Admitted) (hs : Lines) : Except Nat Forwarded := do
  let key ← ownerKeyOf w
  let args ← d.args a
  let receipt := record (d.fields a ++ [("bodyHash", .string (bodyHash args))])
  let sealed ← signReceipt w d.label key receipt
  return ⟨setJson (set hs (bytes d.header) [sealed]), some args⟩

/-! ## The executors -/

/-- An executor that reads an envelope. -/
structure Executor where
  checks : Checks
  finish : Admitted → Lines → Except Nat Forwarded

def Executor.run (x : Executor) (r : Request) (now : Nat) : Except Nat Forwarded := do
  let a ← vouch w s x.checks r now
  x.finish a (clearWhere isTrusted r.headers)

/-- What an envelope has to name: a capability and its binding, the owner and the class of operation. -/
def names (e : Value) (capability : Bytes) (owner operation : String) : Bool :=
  (claim e "CapabilityID").isString capability
    && (claim e "GatewayBindingRef").isString (bytes "capability://" ++ capability)
    && (claim e "Owner").isString (bytes owner) && (claim e "OperationClass").isString (bytes operation)

/-- `44136fa355b3678a1146ad16f7e8649e94fb4fc21fe77e8310c060f61caaff8a`. -/
def emptyRequestHash : String := "44136fa355b3678a1146ad16f7e8649e94fb4fc21fe77e8310c060f61caaff8a"

def executeStatus : Executor where
  checks :=
    { rules := { scope := some (bytes "operations.status.read") }
      binding := fun _ _ e =>
        ensure 403 (names e (bytes "ouf.system.status") "mcp" "READ"
          ∧ (claim e "RequestHash").isString (bytes emptyRequestHash)) }
  finish := fun a hs => do
    let hs ← setHeaders w hs (downstream s a (a.envelope "CapabilityID"))
    return ⟨setJson (setRoles a.verified.roles hs), some (bytes "\x7b\x7d")⟩

/-- Only the aggregate MCP owner is given the proof. -/
def setDelegation (owner : String) (proof : Bytes) (hs : Lines) : Except Nat Lines :=
  if owner = "mcp" then
    setHeaders w hs [("X-OUF-Delegation", .string proof),
      ("X-OUF-Delegation-Verified", .string (bytes "mcp-operational-aggregate-v1"))]
  else .ok hs

def executeOperational (capability : Bytes) (owner : String) (requiredScope : Bytes) : Executor where
  checks :=
    { rules := { scope := some requiredScope }, arguments := true, orWorkload := true
      binding := fun _ _ e => ensure 403 (names e capability owner "READ") }
  finish := fun a hs => do
    let hs ← setHeaders w hs (downstream s a (.string capability))
    let hs ← setDelegation w owner a.verified.proof (setRoles a.verified.roles hs)
    let body ← require 500 (w.encode (a.envelope "Arguments"))
    return ⟨setJson hs, some body⟩

/-- The entry of a table of operations that an executor finds. -/
structure Operation where
  name : String
  capability : String
  operation : String
  /-- What `operation[3]` has. -/
  scope : Option String := none
deriving DecidableEq

namespace Operation

def required (o : Operation) : Bytes := bytes (o.scope.getD o.capability)

/-- `not operation or ... or not scope_has(...)` does not refuse. -/
def admits (o : Operation) (owner : String) (scope e : Value) : Bool :=
  names e (bytes o.capability) owner o.operation && scopeHas scope o.required

end Operation

def permissionModes : List Operation :=
  [⟨"read", "authorization.permissions.read", "READ", none⟩,
    ⟨"propose", "authorization.permissions.propose", "COMMAND", none⟩,
    ⟨"status", "authorization.proposal.read", "READ", none⟩]

/-- `modes[e.CapabilityID]`. -/
def permissionMode (e : Value) : Option Operation :=
  permissionModes.find? fun o => (claim e "CapabilityID").isString (bytes o.capability)

def executePermissions : Executor where
  checks :=
    { binding := fun _ scope e => ensure 403 ((permissionMode e).any fun o => o.admits "authorization" scope e) }
  finish := sendReceipt w
    { label := "ouf-authorization-owner-v1.", header := "X-OUF-Authorization-Receipt"
      fields := fun a =>
        receiptFields s "authorization-proposal-owner"
          (bytes "/api/internal/v1/authorization/permissions/" ++
            ((permissionMode a.e).map fun o => bytes o.name).getD [])
          (a.envelope "CapabilityID") a.now a.verified ++ [("idempotencyKey", a.envelope "IdempotencyKey")]
      args := fun a => .ok a.body }

def executeSemanticProposals (capability requiredScope : Bytes) (operation : String) (ownerPath : Bytes) :
    Executor where
  checks :=
    { rules := { actors := ["HUMAN", "AI_AGENT", "SERVICE"], rising := true, scope := some requiredScope }
      arguments := true, orWorkload := true
      binding := fun _ _ e => do
        ensure 403 (names e capability "semantic" operation)
        ensure 409 (operation = "COMMAND" → (claim (claim e "Arguments") "commandKey").same (claim e "IdempotencyKey")) }
  finish := sendReceipt w
    { label := "ouf-semantic-proposal-owner-v1.", header := "X-OUF-Semantic-Proposal-Receipt"
      fields := fun a =>
        receiptFields s "semantic-proposal-owner" ownerPath (.string requiredScope) a.now a.verified ++
          [("actor", a.proven "actor"), ("idempotencyKey", a.envelope "IdempotencyKey")]
      args := fun a => .ok a.body }

def objectSearchPath : Bytes := bytes "/api/udp/v1/objects/search"

def executeObjectSearch : Executor where
  checks :=
    { binding := fun _ scope e => do
        ensure 403 (names e (bytes "urban.object.search") "udp" "SEARCH"
          ∧ scopeHas scope (bytes "urban.object.search"))
        ensure 400 (ReadArguments.objectSearchAccepts (claim e "Arguments")) }
  finish := sendReceipt w
    { label := "ouf-udp-search-owner-v1.", header := "X-OUF-UDP-Search-Receipt"
      fields := fun a =>
        receiptFields s "udp-object-search-owner" objectSearchPath (a.envelope "CapabilityID") a.now a.verified ++
          [("correlationId", a.envelope "CorrelationID"), ("client", a.proven "client"),
            ("requestHash", a.envelope "RequestHash")]
      args := fun a => require 413 ((w.encode (a.envelope "Arguments")).filter fun args => args.length ≤ 65536) }

/-- `uri:match`, of a slash and one character at least of a class up to the end. -/
def lastSegment (member : UInt8 → Bool) (uri : Bytes) : Option Bytes :=
  let name := (uri.reverse.takeWhile (· ≠ 47)).reverse
  if name ≠ [] ∧ name.all member ∧ name.length < uri.length then some name else none

def isSmall (b : UInt8) : Bool := 97 ≤ b && b ≤ 122

/-- `name and operations[name]`. -/
def operationOf (operations : List Operation) (name : Option Bytes) : Option Operation :=
  name.bind fun name => operations.find? fun o => bytes o.name = name

def managedFileOperations : List Operation :=
  [⟨"profile", "ouf.managed-source.file.profile", "COMMAND", none⟩,
    ⟨"preview", "ouf.managed-source.preview", "READ", none⟩,
    ⟨"create", "ouf.managed-source.onboarding.create", "COMMAND", none⟩,
    ⟨"handoff", "ouf.managed-source.file.upload", "COMMAND", none⟩,
    ⟨"review-prepare", "ouf.managed-source.onboarding.review.prepare", "COMMAND", none⟩,
    ⟨"review-read", "ouf.managed-source.onboarding.read", "READ", none⟩]

/-- `uri:match('/([a-z-]+)$')`. -/
def managedFileName (uri : Bytes) : Option Bytes := lastSegment (fun b => isSmall b || b = 45) uri

def executeManagedFile : Executor where
  checks :=
    { binding := fun uri scope e => do
        let name := managedFileName uri
        ensure 403 ((operationOf managedFileOperations name).any fun o => o.admits "onboarding" scope e)
        ensure 409 (name = some (bytes "review-prepare") →
          isTable (claim e "Arguments") ∧ (claim (claim e "Arguments") "commandKey").same (claim e "IdempotencyKey")) }
  finish := sendReceipt w
    { label := "ouf-managed-file-owner-v1.", header := "X-OUF-Managed-File-Receipt"
      fields := fun a =>
        receiptFields s "managed-file-owner"
          (bytes "/api/internal/v1/onboarding/managed-file-mcp/" ++ (managedFileName a.uri).getD [])
          (a.envelope "CapabilityID") a.now a.verified ++ [("idempotencyKey", a.envelope "IdempotencyKey")]
      args := fun a => .ok a.body }

def semanticReadOperations : List Operation :=
  [⟨"search", "ouf.semantic.search", "READ", none⟩,
    ⟨"get", "ouf.semantic.consultation.read", "READ", some "ouf.semantic.read"⟩]

/-- `uri:match('/([a-z]+)$')`. -/
def semanticReadName (uri : Bytes) : Option Bytes := lastSegment isSmall uri

def executeSemanticRead : Executor where
  checks :=
    { binding := fun uri scope e => do
        let name := semanticReadName uri
        ensure 403 ((operationOf semanticReadOperations name).any fun o => o.admits "semantic" scope e)
        ensure 400 (if name = some (bytes "search") then ReadArguments.semanticSearchAccepts (claim e "Arguments")
          else ReadArguments.semanticGetAccepts (claim e "Arguments")) }
  finish := sendReceipt w
    { label := "ouf-semantic-read-owner-v1.", header := "X-OUF-Semantic-Read-Receipt"
      fields := fun a =>
        receiptFields s "semantic-read-owner"
          (bytes "/api/internal/v1/semantic/consultation/" ++ (semanticReadName a.uri).getD [])
          (a.envelope "CapabilityID") a.now a.verified
      args := fun a => .ok a.body }

/-! ## The upload -/

def isDigit (b : UInt8) : Bool := 48 ≤ b && b ≤ 57

/-- `tonumber`, of digits. -/
def numeral (ds : Bytes) : Nat := ds.foldl (fun n d => n * 10 + (d.toNat - 48)) 0

/-- `s:match` of a text to begin with and one character at least of a class. -/
def led (lead : String) (member : UInt8 → Bool) (v : Bytes) : Bool :=
  v.take (bytes lead).length = bytes lead && v.drop (bytes lead).length ≠ [] && (v.drop (bytes lead).length).all member

/-- A string that a check lets through. -/
def stringWhere (check : Bytes → Bool) : Value → Option Bytes
  | .string v => if check v then some v else none
  | _ => none

/-- `[1-9][0-9]*`, of no more than 8 digits, and up to 10485760. -/
def isLength (v : Bytes) : Bool :=
  (v.head?.any fun d => isDigit d && d ≠ 48) && v.all isDigit && v.length ≤ 8 && numeral v ≤ 10485760

def isContentHash (v : Bytes) : Bool :=
  led "sha256:" (fun b => isDigit b || 97 ≤ b && b ≤ 102) v && v.length = 71

/-- A letter or a digit. -/
def isAlnum (b : UInt8) : Bool := isDigit b || 65 ≤ b && b ≤ 90 || 97 ≤ b && b ≤ 122

def isFileId (v : Bytes) : Bool := led "file_" (fun b => isAlnum b || b = 95 || b = 45) v && v.length ≤ 133

/-- `[A-Za-z0-9_.:-]+`. -/
def isUploadKey (v : Bytes) : Bool :=
  v ≠ [] && v.all (fun b => isAlnum b || b = 95 || b = 46 || b = 58 || b = 45) && v.length ≤ 128

def uploadCapability : Bytes := bytes "ouf.managed-source.file.upload"

def uploadPath : Bytes := bytes "/api/internal/v1/onboarding/managed-file-mcp/upload"

def uploadRoute : Bytes := bytes "/internal/capabilities/v1/execute/managed.file/upload"

/-- What is known once all checks have passed. -/
structure Upload where
  now : Nat
  verified : Verified
  length : Bytes
  hash : Bytes
  fileId : Bytes
  key : Bytes

def admitUpload (r : Request) (now : Nat) : Except Nat Upload := do
  let claims ← caller w s r now
  let all (name : String) := entry r.headers (bytes name)
  let v ← checkProof w s { blank := w.cjson.decode [] } (claim claims "tenant_id") now (all "x-ouf-delegation")
  ensure 403 (scopeHas (claim v.p "scope") uploadCapability)
  ensure 403 (r.uri = uploadRoute ∨ r.uri = uploadPath)
  let length ← require 400 (stringWhere isLength (all "content-length"))
  let hash ← require 400 (stringWhere isContentHash (all "x-content-sha256"))
  let fileId ← require 400 (stringWhere isFileId (all "x-ouf-file-id"))
  let key ← require 400 (stringWhere isUploadKey (all "idempotency-key"))
  ensure 400 ((all "content-type").isString (bytes "text/csv"))
  return ⟨now, v, length, hash, fileId, key⟩

def uploadFields (u : Upload) : List (String × Value) :=
  receiptFields s "managed-file-upload-owner" uploadPath (.string uploadCapability) u.now u.verified ++
    [("expectedHash", .string u.hash), ("expectedLength", Lua.ofNat (numeral u.length)),
      ("fileId", .string u.fileId), ("idempotencyKey", .string u.key)]

def finishUpload (u : Upload) (hs : Lines) : Except Nat Lines := do
  let key ← ownerKeyOf w
  let sealed ← signReceipt w "ouf-managed-file-upload-v1." key (record (uploadFields s u))
  return clear (set hs (bytes "X-OUF-Managed-File-Receipt") [sealed]) (bytes "X-OUF-File-ID")

/-- The body is not read. -/
def executeManagedUpload (r : Request) (now : Nat) : Except Nat Forwarded := do
  let u ← admitUpload w s r now
  let headers ← finishUpload w s u (clearWhere isTrusted r.headers)
  return ⟨headers, r.body⟩

/-! ## All of them -/

/-- `kind` of `delegation_functions.function`, with the constants of one capability where it has them. -/
inductive Kind
  | status
  | operational (capability : Bytes) (owner : String) (requiredScope : Bytes)
  | permissions
  | semanticProposals (capability requiredScope : Bytes) (operation : String) (ownerPath : Bytes)
  | objectSearch
  | managedFile
  | semanticRead
  | managedUpload

namespace Kind

/-- The executor that reads an envelope. -/
def executor : Kind → Option Executor
  | status => some (executeStatus w s)
  | operational capability owner requiredScope => some (executeOperational w s capability owner requiredScope)
  | permissions => some (executePermissions w s)
  | semanticProposals capability requiredScope operation ownerPath =>
    some (executeSemanticProposals w s capability requiredScope operation ownerPath)
  | objectSearch => some (executeObjectSearch w s)
  | managedFile => some (executeManagedFile w s)
  | semanticRead => some (executeSemanticRead w s)
  | managedUpload => none

def run (k : Kind) (r : Request) (now : Nat) : Except Nat Forwarded :=
  match k.executor w s with
  | some x => x.run w s r now
  | none => executeManagedUpload w s r now

end Kind

end OufGateway.Executors
