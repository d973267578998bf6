import Mathlib
import OufGateway.Lib.PyJson
import OufGateway.Lib.Text
import OufGateway.Lib.UrlPath
import OufGateway.Ref.Dispatch

/-!
# Recovery of an outcome

`MCPRecoveryMediator`: a registry of the compiled routes whose owner tells outcomes, and
`recover`, which asks the owner what became of a request and brings the answer into one
form. `prepare` is everything before the call, `normalizeAnswer` everything after it.

The owner may answer anything, so the checks meet values of any type before they know it.
What Python raises there is `Raised`: a `DispatchError`, one of the two errors of a value
that is not what was expected, or what the reader raises that is no `JSONDecodeError`.
The text of the validator's errors is the mediator's, from outside.
-/

namespace OufGateway.Recovery

open Lib CompileConfig
open Dispatch (TrustedIdentity BackendResponse lower)
open PyJson (Value Floats Fault points)
open Encoding (Points)

deriving instance DecidableEq for RecoveryBinding, Policy

inductive Raised
  | dispatch (status : Nat) (code detail : String)
  | typeError
  | attributeError
  | reader (fault : Fault)
deriving DecidableEq

def refuse {α : Type} (status : Nat) (code detail : String) : Except Raised α :=
  .error (.dispatch status code detail)

/-! ## The registry -/

abbrev Bindings := List (String × RecoveryBinding × Policy)

def Bindings.get? (bindings : Bindings) (capabilityId : String) :
    Option (RecoveryBinding × Policy) :=
  (bindings.find? (·.1 = capabilityId)).map (·.2)

/-- The loop of `__init__`. -/
def register : List CompiledRoute → Bindings → Except Raised Bindings
  | [], bindings => .ok bindings
  | r :: rest, bindings =>
    match r.recoveryBinding, r.capability with
    | some binding, some capability =>
      if capability.toolEligible then
        match bindings.get? capability.capabilityId with
        | some candidate =>
          if candidate = (binding, r.policy) then register rest bindings
          else refuse 503 "AMBIGUOUS_RECOVERY_BINDING" capability.capabilityId
        | none => register rest (bindings ++ [(capability.capabilityId, binding, r.policy)])
      else register rest bindings
    -- `route.get` finds the key, and nothing under it.
    | some _, none => .error .attributeError
    | none, _ => register rest bindings

/-- The mediator, with the interpreter it runs in. -/
structure Mediator (F : Type) where
  floats : Floats F
  recursionLimit : Nat
  message : Value F → String
  serviceIdentity : String
  bindings : Bindings

/-! ## The request -/

def isIdChar (c : Char) : Bool := c.isAlphanum || ['.', '_', ':', '-'].contains c

/-- `^[A-Za-z0-9._:-]{1,128}$`. -/
def isBackendRequestId (s : String) : Bool :=
  Text.wholly isIdChar s && (Text.body s).length ≤ 128

/-- A letter and some more characters. -/
def isName (p : Char → Bool) (least most : Nat) (s : String) : Bool :=
  match Text.body s with
  | [] => false
  | c :: cs => c.isLower && cs.all p && between least most cs.length

/-- `^[a-z][a-z0-9-]{0,62}$`. -/
def isOwner : String → Bool := isName isServiceChar 0 62

/-- `^[a-z][a-z0-9_.-]{2,127}$`. -/
def isCapabilityId : String → Bool := isName isNameChar 2 127

structure Request where
  backendRequestId : String
  owner : String
  capabilityId : String
  correlationId : String

/-- The characters of a string; half a surrogate pair is none, and none of the patterns
takes what stands for it. -/
def text (s : Points) : String := String.ofList (s.map Char.ofNat)

section

variable {F : Type}

def get? (members : List (Points × Value F)) (key : String) : Option (Value F) :=
  (members.find? (·.1 = points key)).map (·.2)

def string? (accepts : String → Bool) : Value F → Option String
  | .str s => if accepts (text s) then some (text s) else none
  | _ => none

def requestMembers : List String := ["BackendRequestID", "Owner", "CapabilityID", "CorrelationID"]

/-- The schema of a request, with the values of its members. -/
def Request.ofValue? : Value F → Option Request
  | .obj members =>
    if members.all fun m => requestMembers.any fun k => points k = m.1 then do
      let backendRequestId ← (get? members "BackendRequestID").bind (string? isBackendRequestId)
      let owner ← (get? members "Owner").bind (string? isOwner)
      let capabilityId ← (get? members "CapabilityID").bind (string? isCapabilityId)
      let correlationId ← (get? members "CorrelationID").bind (string? isBackendRequestId)
      return ⟨backendRequestId, owner, capabilityId, correlationId⟩
    else none
  | _ => none

def readRequest (m : Mediator F) (rawBody : List UInt8) : Except Raised Request :=
  match PyJson.loads m.floats m.recursionLimit rawBody with
  | .error .notJson => refuse 400 "INVALID_RECOVERY_REQUEST" "invalid JSON"
  | .error fault => .error (.reader fault)
  | .ok v =>
    match Request.ofValue? v with
    | none => refuse 400 "INVALID_RECOVERY_REQUEST" (m.message v)
    | some request => .ok request

/-! ## The call -/

def placeholder : List Char := "\x7bbackendRequestId\x7d".toList

/-- `pathTemplate.replace("{backendRequestId}", quote(id, safe=""))`. -/
def recoveryPath (b : RecoveryBinding) (id : String) : List Char :=
  UrlPath.replace placeholder (UrlPath.quote id.toList) b.pathTemplate.toList

/-- The arguments of `upstream.recover`. -/
structure RecoveryCall where
  service : String
  path : List Char
  headers : List (String × String)
  timeoutSeconds : Nat

def correlationOf (requestHeaders : List (String × String)) : String :=
  ((requestHeaders.find? fun h => lower h.1 = "x-correlation-id").map (·.2)).getD ""

/-- `recover` up to the call. -/
def prepare (m : Mediator F) (rawBody : List UInt8) (requestHeaders : List (String × String))
    (i : TrustedIdentity) : Except Raised (Request × RecoveryCall) :=
  if i.servicePrincipalId ≠ m.serviceIdentity ∨ "mcp.attempt.recover" ∉ i.scopes then
    refuse 403 "RECOVERY_ACCESS_DENIED" "MCP recovery workload identity is not authorized"
  else do
    let request ← readRequest m rawBody
    match m.bindings.get? request.capabilityId with
    | none => refuse 404 "RECOVERY_BINDING_NOT_FOUND" request.capabilityId
    | some (binding, policy) =>
      let correlation := correlationOf requestHeaders
      if request.owner ≠ binding.owner then
        refuse 409 "RECOVERY_BINDING_MISMATCH" "owner does not match the capability registry"
      else if correlation = "" ∨ correlation ≠ request.correlationId then
        refuse 409 "GOVERNANCE_CONTEXT_MISMATCH" "correlation header and recovery request differ"
      else
        .ok (request, ⟨binding.service, recoveryPath binding request.backendRequestId,
          [("Accept", "application/json"), ("X-Correlation-ID", correlation),
            ("X-OUF-Capability-ID", request.capabilityId),
            ("X-OUF-Recovery-For", request.backendRequestId)], policy.timeoutSeconds⟩)

/-! ## The answer -/

def invalid {α : Type} (detail : String) : Except Raised α :=
  refuse 502 "INVALID_OWNER_EVIDENCE" detail

def allowed : List String :=
  ["BackendRequestID", "Outcome", "OutcomeCode", "ResultRef", "ActualToolCalls",
    "ActualResultBytes"]

def isAllowed (s : Points) : Bool := allowed.any fun k => points k = s

def hashable : Value F → Bool
  | .arr _ => false
  | .obj _ => false
  | _ => true

def isAllowedString : Value F → Bool
  | .str s => isAllowed s
  | _ => false

/-- `set(evidence) - allowed`, as a condition: a string is the set of its characters, a
list that of its items, and a dictionary that of its keys. -/
def hasOthers : Value F → Except Raised Bool
  | .str s => .ok (s ≠ [])
  | .arr items =>
    if items.all hashable then .ok (items.any fun x => !isAllowedString x) else .error .typeError
  | .obj members => .ok (members.any fun m => !isAllowed m.1)
  | _ => .error .typeError

def isString (s : String) : Option (Value F) → Bool
  | some (.str t) => points s = t
  | _ => false

/-- The evidence is a dictionary for the request. -/
def matching (id : String) (v : Value F) : Except Raised (List (Points × Value F)) := do
  let others ← hasOthers v
  if others then invalid "owner evidence does not match backend request"
  else match v with
    | .obj members =>
      if isString id (get? members "BackendRequestID") then .ok members
      else invalid "owner evidence does not match backend request"
    | _ => .error .attributeError

def knownOutcomes : List String := ["SUCCEEDED", "FAILED", "NOT_DISPATCHED", "UNKNOWN"]

/-- `not in` a set asks for the hash first. -/
def outcomeOf (members : List (Points × Value F)) : Except Raised Points :=
  match get? members "Outcome" with
  | some (.str s) =>
    if knownOutcomes.any fun k => points k = s then .ok s
    else invalid "owner outcome is not recognized"
  | some (.arr _) => .error .typeError
  | some (.obj _) => .error .typeError
  | _ => invalid "owner outcome is not recognized"

/-- A field of metadata, or its default. -/
def metadataOf (members : List (Points × Value F)) (field : String) : Except Raised Points :=
  match get? members field with
  | none => .ok []
  | some (.str s) =>
    if 512 < s.length then invalid "owner evidence metadata is invalid" else .ok s
  | some _ => invalid "owner evidence metadata is invalid"

/-- A cost, or its default; a boolean is none, although it is an `int`. -/
def costOf (members : List (Points × Value F)) (field : String) : Except Raised Int :=
  match get? members field with
  | none => .ok 0
  | some (.int n) => if n < 0 then invalid "owner cost is invalid" else .ok n
  | some _ => invalid "owner cost is invalid"

structure Evidence where
  backendRequestId : Points
  outcome : Points
  outcomeCode : Points
  resultRef : Points
  actualToolCalls : Int
  actualResultBytes : Int

def Evidence.free (e : Evidence) : Bool := e.actualToolCalls = 0 && e.actualResultBytes = 0

/-- The two outcomes that go with no cost. -/
def checkOutcome (e : Evidence) : Except Raised Unit :=
  if e.outcome = points "NOT_DISPATCHED" ∧
      ¬ (e.outcomeCode = points "OWNER_PROVES_NO_DISPATCH" ∧ e.free = true) then
    invalid "no-dispatch outcome lacks authoritative zero-cost proof"
  else if e.outcome = points "UNKNOWN" ∧ ¬ e.free = true then
    invalid "unknown outcome cannot assert actual cost"
  else .ok ()

def evidenceOf (id : String) (v : Value F) : Except Raised Evidence := do
  let members ← matching id v
  let outcome ← outcomeOf members
  let outcomeCode ← metadataOf members "OutcomeCode"
  let resultRef ← metadataOf members "ResultRef"
  let actualToolCalls ← costOf members "ActualToolCalls"
  let actualResultBytes ← costOf members "ActualResultBytes"
  let e : Evidence := ⟨points id, outcome, outcomeCode, resultRef, actualToolCalls, actualResultBytes⟩
  checkOutcome e
  .ok e

/-- `normalized`. -/
def Evidence.members (e : Evidence) : List (Points × Value F) :=
  [(points "BackendRequestID", .str e.backendRequestId), (points "Outcome", .str e.outcome),
    (points "OutcomeCode", .str e.outcomeCode), (points "ResultRef", .str e.resultRef),
    (points "ActualToolCalls", .int e.actualToolCalls),
    (points "ActualResultBytes", .int e.actualResultBytes)]

def Evidence.body (floats : Floats F) (e : Evidence) : List UInt8 :=
  Encoding.encode (PyJson.write floats PyJson.compact 0 (.obj e.members))

/-- `recover` behind the call. -/
def normalizeAnswer (m : Mediator F) (id : String) (response : BackendResponse) :
    Except Raised BackendResponse :=
  if response.status ≠ 200 then
    refuse 503 "OWNER_RECOVERY_UNAVAILABLE" "owner outcome is not authoritatively available"
  else if 65536 < response.body.length then
    invalid "owner evidence exceeds the bounded response size"
  else
    match PyJson.loads m.floats m.recursionLimit response.body with
    | .error .notJson => invalid "owner returned invalid JSON"
    | .error fault => .error (.reader fault)
    | .ok v => (evidenceOf id v).map fun e =>
        ⟨200, e.body m.floats, [("Content-Type", "application/json")]⟩

/-- `recover`, with an owner that answers. -/
def recover (m : Mediator F) (owner : RecoveryCall → BackendResponse) (rawBody : List UInt8)
    (requestHeaders : List (String × String)) (i : TrustedIdentity) :
    Except Raised BackendResponse := do
  let (request, call) ← prepare m rawBody requestHeaders i
  normalizeAnswer m request.backendRequestId (owner call)

/-- `MCPRecoveryMediator(compiled, upstream, service_identity)`. -/
def init (floats : Floats F) (recursionLimit : Nat) (message : Value F → String)
    (compiled : Artifact) (serviceIdentity : String) : Except Raised (Mediator F) :=
  (register compiled.routes []).map fun bindings =>
    ⟨floats, recursionLimit, message, serviceIdentity, bindings⟩

end

end OufGateway.Recovery
