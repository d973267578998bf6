import OufGateway.Ref.TrustedIdentity

/-!
# Delegation proofs

`issue_delegation.lua`, from the claims of the bearer on, and the part of
`execute_status.lua` that checks a proof, from the header to the roles. The values of
`cjson.decode`, of the request headers and of the other bearer's claims are any
values. Time is a whole number, and what is added to it and compared with it is exact.

`cjson` is a parameter: how it writes a string and a number, in which order it goes
through a table, and what it decodes. Numbers come back rounded, as `cjson` writes no
more than 14 digits of them. A number that is infinite or none is not written at all,
and then there is nothing to encode.
-/

namespace OufGateway.DelegationProof

open OufGateway.Lib
open Delegation
open Lua (Bytes Number Value)
open TrustedIdentity (bytes claim isTable)

/-! ## What is not under `src` -/

inductive Scalar
  | text (s : Bytes)
  | number (q : ℚ)

abbrev Fields := List (Bytes × Scalar)

structure Cjson where
  quoted : Bytes → Bytes
  numeral : ℚ → Bytes
  order : Fields → Fields
  decode : Bytes → Value
  rounded : ℚ → ℚ

/-- Items with commas between them. -/
def commas : List Bytes → Bytes
  | [] => []
  | [s] => s
  | s :: ss => s ++ 44 :: commas ss

namespace Cjson

variable (c : Cjson)

def written : Scalar → Bytes
  | .text s => c.quoted s
  | .number q => c.numeral q

/-- What is decoded where this was written. -/
def read : Scalar → Value
  | .text s => .string s
  | .number q => .number (.finite (c.rounded q))

def member (f : Bytes × Scalar) : Bytes := c.quoted f.1 ++ 58 :: c.written f.2

/-- `cjson.encode`, of a table of strings and numbers. -/
def encode (fields : Fields) : Bytes := 123 :: commas ((c.order fields).map c.member) ++ [125]

end Cjson

/-- `resty.openssl.hmac`, which may give nothing. -/
abbrev Hmac := Bytes → Bytes → Option Bytes

structure Runtime where
  cjson : Cjson
  hmac : Hmac
  /-- What the environment has for a key. -/
  key : Option Bytes

structure Settings where
  issuer : Bytes
  audience : Bytes
  mcpWorkload : Bytes

def require {α : Type} (status : Nat) : Option α → Except Nat α
  | some a => .ok a
  | none => .error status

def ensure (status : Nat) (p : Prop) [Decidable p] : Except Nat Unit :=
  if p then .ok () else .error status

variable (r : Runtime) (s : Settings)

def isHexByte (b : UInt8) : Bool := 48 ≤ b && b ≤ 57 || 97 ≤ b && b ≤ 102 || 65 ≤ b && b ≤ 70

def sign (payload : Bytes) : Option Bytes :=
  match r.key with
  | some key =>
    if key.length = 64 ∧ key.all isHexByte then r.hmac key (bytes "ouf-mcp-delegation-v1." ++ payload) else none
  | none => none

/-! ## Issuing -/

def numberOf : Value → Option Number
  | .number x => some x
  | _ => none

/-- `math.min(claims.exp, now+60)`. -/
def expiry (exp : Number) (now : Nat) : Number := exp.min (.finite (now + 60))

/-- The checked claims that go into a proof. -/
structure Subject where
  principal : Bytes
  tenant : Bytes
  acr : Bytes
  scope : Bytes
  actor : Bytes
  client : Bytes
  roles : Bytes

def fields (b : Subject) (now : Nat) (exp : ℚ) : Fields :=
  [(bytes "v", .number 1), (bytes "purpose", .text (bytes "mcp-execute")), (bytes "aud", .text s.audience),
    (bytes "iss", .text s.issuer), (bytes "workload", .text s.mcpWorkload), (bytes "iat", .number now),
    (bytes "exp", .number exp), (bytes "principal", .text b.principal), (bytes "tenant", .text b.tenant),
    (bytes "actor", .text b.actor), (bytes "acr", .text b.acr), (bytes "client", .text b.client),
    (bytes "scope", .text b.scope), (bytes "roles", .text b.roles)]

/-- The encoded proof: `ngx.encode_base64` takes nothing for an empty string. -/
def payload (b : Subject) (now : Nat) : Number → Bytes
  | .finite exp => encode64 (r.cjson.encode (fields s b now exp))
  | _ => encode64 []

/-- The claims of a bearer, checked. -/
def subject (claims : Value) (now : Nat) : Except Nat (Subject × Number) := do
  ensure 401 (isTable claims ∧ (claim claims "iss").isString s.issuer ∧ audienceHas (claim claims "aud") s.audience)
  let exp ← require 401 (numberOf (claim claims "exp"))
  ensure 401 (¬ exp.le (.finite now))
  let client ← require 401 (text ((claim claims "azp").or (claim claims "client_id")))
  let roles ← require 401 (roleRefs (claim claims "externalRoleRefs"))
  let principal ← require 401 (text (claim claims "sub"))
  let tenant ← require 401 (text (claim claims "tenant_id"))
  let acr ← require 401 (text (claim claims "acr"))
  let scope ← require 401 (text (claim claims "scope"))
  let actor ← require 401 (text (claim claims "ouf_actor_type"))
  return (⟨principal, tenant, acr, scope, actor, client, roles⟩, exp)

/-- The headers that are set. -/
structure Issued where
  delegation : Bytes
  externalRoleRefs : Option Bytes

/-- `issue_delegation`. -/
def issue (claims : Value) (now : Nat) : Except Nat Issued := do
  let (b, exp) ← subject s claims now
  let payload := payload r s b now (expiry exp now)
  let mac ← require 503 (sign r payload)
  return ⟨payload ++ 46 :: encode64 mac, if b.roles = [] then none else some b.roles⟩

/-! ## Checking -/

/-- `execute_status`, from the header on until it reads the body: the decoded proof, and its roles. -/
def verify (tenantId : Value) (now : Nat) (header : Value) : Except Nat (Value × Bytes) := do
  let proof ← require 403 (match header with
    | .string proof => if proof.length ≤ 16384 then some proof else none
    | _ => none)
  let (payload, signature) ← require 403 (splitProof proof)
  let expected ← require 503 (sign r payload)
  ensure 403 ((decode64 signature).any fun mac => same expected mac)
  let p := ((decode64 payload).map r.cjson.decode).getD .nil
  ensure 403 (isTable p ∧ (claim p "v").isNat 1 ∧ (claim p "purpose").isString (bytes "mcp-execute")
    ∧ (claim p "iss").isString s.issuer ∧ (claim p "aud").isString s.audience
    ∧ (claim p "workload").isString s.mcpWorkload ∧ (claim p "actor").isString (bytes "HUMAN"))
  let iat ← require 403 (numberOf (claim p "iat"))
  let exp ← require 403 (numberOf (claim p "exp"))
  ensure 403 (¬ Number.lt (.finite now) iat ∧ ¬ exp.le (.finite now) ∧ ¬ Number.lt (.finite 60) (exp.sub iat))
  ensure 403 ((claim p "tenant").same tenantId ∧ scopeHas (claim p "scope") (bytes "operations.status.read"))
  ensure 403 (["principal", "tenant", "acr", "client", "scope"].all fun k => (text (claim p k)).isSome)
  let roles ← require 403 (roleHeader (claim p "roles"))
  return (p, roles)

end OufGateway.DelegationProof
