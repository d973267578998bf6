import Mathlib
import OufGateway.Lib.Except
import OufGateway.Lib.Json
import OufGateway.Lib.Sha256
import OufGateway.Ref.Publication

/-!
# The APISIX control plane

`APISIXControlPlane` over an admin port, and the port a truthful APISIX gives.
The port is a record of its seven operations on a state of its own. Revisions
are content addressed: `revisionFor` is the digest of the artifact's canonical
text, so two publications of one artifact share a revision.

One call of `publish` calls each operation of the control plane at most once,
and each of these calls an operation of the port at most once. A `Plan` gives
every operation of the control plane the behaviour of the port while it runs, so
a plan of faults has a fault of its own for each single request.
-/

namespace OufGateway.ControlPlane

open Lib Publication

structure AdminPort (α : Type) where
  health : α → Except Exn Json × α
  putRevision : String → Json → α → Except Exn Unit × α
  readRevision : String → α → Except Exn Json × α
  probeRevision : String → α → Except Exn Json × α
  activateRevision : String → α → Except Exn Unit × α
  activeRevision : α → Except Exn Json × α
  deleteRevision : String → α → Except Exn Unit × α

/-! ## `APISIXControlPlane` -/

/-- `separators=(",", ":"), sort_keys=True`. -/
def compact : Json.Format := { itemSeparator := ",", keySeparator := ":", sortKeys := true }

def revisionFor (artifact : Json) : Except Exn String :=
  if artifact.serializable then .ok ("sha256:" ++ Sha256.ofText (artifact.dumps compact))
  else .error .raised

section Operations

variable {α : Type} (admin : AdminPort α)

def healthy (p : α) : Except Exn Json × α :=
  match admin.health p with
  | (.ok answer, p) => (.ok (.bool answer.isTrue), p)
  | (.error _, p) => (.ok (.bool false), p)

def stage (artifact : Json) (p : α) : Except Exn Json × α :=
  match revisionFor artifact with
  | .error e => (.error e, p)
  | .ok revision =>
    andThen (admin.putRevision revision artifact p) fun _ p =>
      andThen (admin.readRevision revision p) fun found p =>
        if found.eqv artifact then (.ok (.str revision), p) else (.error .raised, p)

def integrityLost : Json := .obj [("artifactIntegrity", .bool false)]

/-- `checks.get(name) is True` for every required check; only a dictionary has
`get`. -/
def report (checks : Json) : Except Exn Json :=
  if checks.isObj then
    .ok (.obj ((requiredChecks.map fun check =>
      (check, .bool ((checks.get? check).any (·.isTrue)))) ++ [("artifactIntegrity", .bool true)]))
  else .error .raised

def verify (revision : String) (artifact : Json) (p : α) : Except Exn Json × α :=
  match revisionFor artifact with
  | .error e => (.error e, p)
  | .ok expected =>
    if revision ≠ expected then (.ok integrityLost, p)
    else
      andThen (admin.readRevision revision p) fun found p =>
        if !found.eqv artifact then (.ok integrityLost, p)
        else andThen (admin.probeRevision revision p) fun checks p => (report checks, p)

def activate (revision : String) (p : α) : Except Exn Unit × α :=
  andThen (admin.activateRevision revision p) fun _ p =>
    andThen (admin.activeRevision p) fun active p =>
      if active.eqv (.str revision) then (.ok (), p) else (.error .raised, p)

def rollback (revision : String) (p : α) : Except Exn Unit × α :=
  andThen (admin.activeRevision p) fun active p =>
    if active.eqv (.str revision) then (.error .raised, p) else admin.deleteRevision revision p

end Operations

/-! ## The control plane of one call -/

/-- One value for each operation of the control plane. -/
structure Plan (φ : Type) where
  healthy : φ
  stage : φ
  verify : φ
  activate : φ
  rollback : φ

/-- `stage` answers nothing but texts, so no other revision comes back. -/
def ofText {α β : Type} (op : String → α → Except Exn β × α) (revision : Json) (p : α) :
    Except Exn β × α :=
  match revision with
  | .str r => op r p
  | _ => (.error .raised, p)

def plane {α φ : Type} (port : φ → AdminPort α) (plan : Plan φ) : Plane α where
  healthy := healthy (port plan.healthy)
  stage := stage (port plan.stage)
  verify revision artifact := ofText (verify (port plan.verify) · artifact) revision
  activate := ofText (activate (port plan.activate))
  rollback := ofText (rollback (port plan.rollback))

/-! ## A truthful admin -/

/-- A request is answered, or raises before or after it has taken effect. -/
inductive Fault
  | clean | before | after
deriving DecidableEq

def Fault.attempt {α β : Type} (f : Fault) (act : α → Except Exn β × α) (p : α) :
    Except Exn β × α :=
  match f with
  | .clean => act p
  | .before => (.error .raised, p)
  | .after => (.error .raised, (act p).2)

structure Admin where
  revisions : String → Option Json
  active : Option String

/-- What each operation of the port meets. -/
structure Faults where
  health : Except Exn Json := .ok (.bool true)
  putRevision : Fault := .clean
  readRevision : Fault := .clean
  probe : Except Exn Json := .ok (.obj [])
  activateRevision : Fault := .clean
  activeRevision : Fault := .clean
  deleteRevision : Fault := .clean

def Admin.port (f : Faults) : AdminPort Admin where
  health a := (f.health, a)
  putRevision revision artifact := f.putRevision.attempt fun a =>
    (.ok (), { a with revisions := Function.update a.revisions revision (some artifact) })
  readRevision revision := f.readRevision.attempt fun a =>
    match a.revisions revision with
    | some artifact => (.ok artifact, a)
    | none => (.error .raised, a)
  probeRevision _ a := (f.probe, a)
  activateRevision revision := f.activateRevision.attempt fun a =>
    (.ok (), { a with active := some revision })
  activeRevision := f.activeRevision.attempt fun a => (.ok (Json.ofOption a.active), a)
  deleteRevision revision := f.deleteRevision.attempt fun a =>
    (.ok (), { a with revisions := Function.update a.revisions revision none })

end OufGateway.ControlPlane
