import Mathlib
import OufGateway.Ref.Recovery

/-!
# Evidence on its way to the inbox

`MCPEvidenceIngressMediator`: an owner's workload hands in evidence, and `ingest` forwards
it in one canonical text, under the owner the workload belongs to. `vet` is everything
before the call.

The schema lets more than one spelling of a value through: a whole float is an integer
for it, and a text is a list of code points, halves of surrogate pairs among them. So a
count is an `int` or a float, as it was read, and `whole` is what Python knows of a float's
value here: the integer it is, if it is one.
-/

namespace OufGateway.EvidenceIngress

open Lib CompileConfig
open Dispatch (TrustedIdentity BackendResponse)
open Recovery (Raised refuse get? string? text correlationOf)
open PyJson (Value Floats points)
open Encoding (Points)

/-- `OWNER_BY_SERVICE`. -/
def ownerByService : List (String × String) :=
  [("ouf-udp-object-resolution", "udp-object-resolution")]

def mcpService : String := "ouf-mcp-server"

def mcpPath : String := "/internal/evidence/v1/owner-results"

def requiredScope : String := "mcp.evidence.submit"

def ownerOf (i : TrustedIdentity) : Option String :=
  (ownerByService.find? (·.1 = i.servicePrincipalId)).map (·.2)

/-! ## The schema -/

inductive Kind
  | ownerResult
  | ownerProvesNoDispatch
deriving DecidableEq

def Kind.text : Kind → String
  | ownerResult => "OWNER_RESULT"
  | ownerProvesNoDispatch => "OWNER_PROVES_NO_DISPATCH"

inductive TerminalState
  | succeeded
  | failed
deriving DecidableEq

def TerminalState.text : TerminalState → String
  | succeeded => "SUCCEEDED"
  | failed => "FAILED"

/-- `^[A-Za-z0-9._:-]{1,256}$`. -/
def isBackendRequestId (s : String) : Bool :=
  Text.wholly Recovery.isIdChar s && (Text.body s).length ≤ 256

def isDigestChar (c : Char) : Bool := c.isAlphanum || c = '_' || c = '-'

def isDigest (cs : List Char) : Bool := cs.all isDigestChar && between 32 512 cs.length

def digestMarks : List (List Char) := [":hmac-sha256:".toList, ":hmac-sha384:".toList]

/-- `^v[0-9]+:(hmac-sha256|hmac-sha384):[A-Za-z0-9_-]{32,512}$`. -/
def isObjectHash (s : String) : Bool :=
  match Text.body s with
  | [] => false
  | c :: cs =>
    c = 'v' && cs.takeWhile Char.isDigit ≠ [] &&
      digestMarks.any fun mark =>
        mark.isPrefixOf (cs.dropWhile Char.isDigit) &&
          isDigest ((cs.dropWhile Char.isDigit).drop mark.length)

section

variable {F : Type}

/-- `ActualDistinctObjects`, as it was read. -/
inductive Count (F : Type)
  | int (n : Int)
  | float (x : F)

/-- The number it is. -/
def Count.whole? (whole : F → Option Int) : Count F → Option Int
  | int n => some n
  | float x => whole x

structure Submission (F : Type) where
  backendOwner : Option Points
  backendRequestId : Points
  kind : Kind
  terminalState : TerminalState
  outcomeCode : Points
  resultRef : Option Points
  actualDistinctObjects : Count F
  objectHashes : List Points

/-- A string of so many code points. -/
def stringBetween (least most : Nat) : Value F → Option Points
  | .str s => if between least most s.length then some s else none
  | _ => none

def stringMatching (accepts : String → Bool) : Value F → Option Points
  | .str s => if accepts (text s) then some s else none
  | _ => none

/-- A member that may be absent. -/
def optional {α : Type} (read : Value F → Option α) : Option (Value F) → Option (Option α)
  | none => some none
  | some v => (read v).map some

def kind? : Value F → Option Kind
  | .str s => [Kind.ownerResult, .ownerProvesNoDispatch].find? fun k => points k.text = s
  | _ => none

def terminalState? : Value F → Option TerminalState
  | .str s => [TerminalState.succeeded, .failed].find? fun k => points k.text = s
  | _ => none

/-- `type` `integer`, with the minimum 0. -/
def count? (whole : F → Option Int) : Value F → Option (Count F)
  | .int n => if 0 ≤ n then some (.int n) else none
  | .float x => ((whole x).filter fun n => 0 ≤ n).map fun _ => .float x
  | _ => none

def objectHashes? : Value F → Option (List Points)
  | .arr items => do
    let hashes ← items.mapM (stringMatching isObjectHash)
    if items.length ≤ 10000 ∧ hashes.Nodup then some hashes else none
  | _ => none

def submissionMembers : List String :=
  ["BackendOwner", "BackendRequestID", "Kind", "TerminalState", "OutcomeCode", "ResultRef",
    "ActualDistinctObjects", "ObjectHashes"]

/-- The schema, with the values of its members. -/
def Submission.ofValue? (whole : F → Option Int) : Value F → Option (Submission F)
  | .obj members =>
    if members.all fun m => submissionMembers.any fun k => points k = m.1 then do
      let backendOwner ← optional (stringBetween 1 128) (get? members "BackendOwner")
      let backendRequestId ←
        (get? members "BackendRequestID").bind (stringMatching isBackendRequestId)
      let kind ← (get? members "Kind").bind kind?
      let terminalState ← (get? members "TerminalState").bind terminalState?
      let outcomeCode ← (get? members "OutcomeCode").bind (stringBetween 1 128)
      let resultRef ← optional (stringBetween 0 512) (get? members "ResultRef")
      let actualDistinctObjects ← (get? members "ActualDistinctObjects").bind (count? whole)
      let objectHashes ← (get? members "ObjectHashes").bind objectHashes?
      return ⟨backendOwner, backendRequestId, kind, terminalState, outcomeCode, resultRef,
        actualDistinctObjects, objectHashes⟩
    else none
  | _ => none

/-! ## The mediator -/

/-- The mediator, with the interpreter it runs in. -/
structure Mediator (F : Type) where
  floats : Floats F
  whole : F → Option Int
  recursionLimit : Nat
  message : Value F → String

def readSubmission (m : Mediator F) (rawBody : List UInt8) : Except Raised (Submission F) :=
  match PyJson.loads m.floats m.recursionLimit rawBody with
  | .error .notJson => refuse 400 "INVALID_EVIDENCE" "invalid JSON"
  | .error fault => .error (.reader fault)
  | .ok v =>
    match Submission.ofValue? m.whole v with
    | none => refuse 400 "INVALID_EVIDENCE" (m.message v)
    | some s => .ok s

def checkOwner (owner : String) (s : Submission F) : Except Raised Unit :=
  if (s.backendOwner.getD (points owner)) ≠ points owner then
    refuse 409 "EVIDENCE_OWNER_MISMATCH" "payload owner differs from trusted workload identity"
  else .ok ()

/-- `value.get("ResultRef", "")`. -/
def Submission.reference (s : Submission F) : Points := s.resultRef.getD []

def checkKind (m : Mediator F) (s : Submission F) : Except Raised Unit :=
  match s.kind with
  | .ownerProvesNoDispatch =>
    if s.terminalState ≠ .failed ∨ s.outcomeCode ≠ points "DISPATCH_NOT_STARTED" ∨
        s.actualDistinctObjects.whole? m.whole ≠ some 0 ∨ s.objectHashes ≠ [] ∨
        s.reference ≠ [] then
      refuse 400 "INVALID_EVIDENCE" "no-dispatch evidence must be canonical zero-cost proof"
    else .ok ()
  | .ownerResult =>
    if s.reference = [] then refuse 400 "INVALID_EVIDENCE" "owner result requires ResultRef"
    else .ok ()

/-- `item.split(":", 1)[0]`. -/
def version (item : Points) : Points := item.takeWhile (· ≠ ':'.toNat)

def checkVersions (s : Submission F) : Except Raised Unit :=
  if ∃ item ∈ s.objectHashes, version item ≠ points "v1" then
    refuse 400 "UNSUPPORTED_OBJECT_HASH_VERSION" "object hash version is not admitted"
  else .ok ()

/-- `sorted`, by code points. -/
def sorted (items : List Points) : List Points := items.mergeSort fun a b => decide (a ≤ b)

def Count.toValue : Count F → Value F
  | int n => .int n
  | float x => .float x

/-- `canonical`, in the order of its keys. -/
def canonical (owner : String) (s : Submission F) : Value F :=
  .obj [(points "ActualDistinctObjects", s.actualDistinctObjects.toValue),
    (points "BackendRequestID", .str s.backendRequestId),
    (points "ClaimedOwner", .str (points owner)), (points "Kind", .str (points s.kind.text)),
    (points "ObjectHashes", .arr ((sorted s.objectHashes).map .str)),
    (points "OutcomeCode", .str s.outcomeCode), (points "ResultRef", .str s.reference),
    (points "TerminalState", .str (points s.terminalState.text))]

/-- The arguments of `inbox.ingest`. -/
structure EvidenceCall where
  service : String
  path : String
  body : List UInt8
  headers : List (String × String)
  timeoutSeconds : Nat

/-- `ingest` up to the call. -/
def vet (m : Mediator F) (rawBody : List UInt8) (requestHeaders : List (String × String))
    (i : TrustedIdentity) : Except Raised EvidenceCall :=
  match (ownerOf i).filter fun _ => requiredScope ∈ i.scopes with
  | none =>
    refuse 403 "EVIDENCE_ACCESS_DENIED" "owner workload is not authorized for evidence ingress"
  | some owner =>
    if 1048576 < rawBody.length then
      refuse 413 "EVIDENCE_TOO_LARGE" "evidence payload exceeds ingress bound"
    else do
      let s ← readSubmission m rawBody
      checkOwner owner s
      checkKind m s
      checkVersions s
      let correlation := correlationOf requestHeaders
      if correlation = "" then
        refuse 400 "MISSING_CORRELATION_ID" "correlation id is required"
      else
        .ok ⟨mcpService, mcpPath,
          Encoding.encode (PyJson.write m.floats PyJson.compact 0 (canonical owner s)),
          [("Content-Type", "application/json"), ("Accept", "application/json"),
            ("X-Correlation-ID", correlation), ("X-OUF-Trusted-Backend-Owner", owner),
            ("X-OUF-Source-Service", i.servicePrincipalId)], 3⟩

/-- `ingest`, with an inbox that answers. -/
def ingest (m : Mediator F) (inbox : EvidenceCall → BackendResponse) (rawBody : List UInt8)
    (requestHeaders : List (String × String)) (i : TrustedIdentity) :
    Except Raised BackendResponse := do
  let call ← vet m rawBody requestHeaders i
  let response := inbox call
  if response.status ∈ [200, 201, 409] then .ok response
  else refuse 503 "EVIDENCE_INBOX_UNAVAILABLE" "MCP Evidence Inbox unavailable"

end

end OufGateway.EvidenceIngress
