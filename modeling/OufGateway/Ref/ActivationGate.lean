import Mathlib
import OufGateway.Ref.CompileConfig
import OufGateway.Ref.Publication

/-!
# The activation gate

`validate_route_activation`, and `_validate_repository_governance`, which asks
it about every route binding before the compiler is called. The authorization
gate is an outside party: it answers each question from all it was asked
before, or raises. What it was asked, with its answers, is the result of the
governance.

The governance indexes the documents by a dictionary comprehension, so of two
documents with one key it sees the last, where the compiler refuses them.
-/

namespace OufGateway.ActivationGate

open Lib CompileConfig

inductive Rejection
  | capabilityReferenceMismatch | sourceRuntimeReferenceMismatch | extractionReferenceMismatch
  | extractionSourceMismatch | backendSourceBindingMismatch | authorizationBindingMissing
deriving DecidableEq

def Rejection.text : Rejection → String
  | capabilityReferenceMismatch => "CAPABILITY_REFERENCE_MISMATCH"
  | sourceRuntimeReferenceMismatch => "SOURCE_RUNTIME_REFERENCE_MISMATCH"
  | extractionReferenceMismatch => "EXTRACTION_REFERENCE_MISMATCH"
  | extractionSourceMismatch => "EXTRACTION_SOURCE_MISMATCH"
  | backendSourceBindingMismatch => "BACKEND_SOURCE_BINDING_MISMATCH"
  | authorizationBindingMissing => "AUTHORIZATION_BINDING_MISSING"

inductive Failure
  | rejected (r : Rejection)
  | publication (text : String)
  | config (e : ConfigError)
  | raised
deriving DecidableEq

/-- One `binding_exists` and its answer. -/
structure Asked where
  capabilityRef : String
  requiredScope : String
  granted : Bool
deriving DecidableEq

/-- What `binding_exists(capability_ref, required_scope)` answers after the
questions of the list, the last one first. -/
abbrev Gate := List Asked → String → String → Except Unit Bool

structure ActivationEvidence where
  capabilityRef : String
  sourceRef : String
  extractionRef : Option String
  backendService : String
  authorizationChecked : Bool

/-- The service a `service://` reference names. -/
def serviceOf (endpointRef : String) : String :=
  Text.before '/' (Text.removeLead "service://" endpointRef)

def checkReferences (route : RouteBinding) (capability : Capability)
    (source : SourceRuntimeProfile) (extraction : Option ExtractionRuntimeProfile) :
    Except Failure Unit :=
  if capability.metadata.ref ≠ route.capabilityRef then
    .error (.rejected .capabilityReferenceMismatch)
  else if source.metadata.ref ≠ route.sourceRef then
    .error (.rejected .sourceRuntimeReferenceMismatch)
  else if route.extractionProfileRef.getD "" = "" then .ok ()
  else match extraction with
    | none => .error (.rejected .extractionReferenceMismatch)
    | some e =>
      if some e.metadata.ref ≠ route.extractionProfileRef then
        .error (.rejected .extractionReferenceMismatch)
      else if e.sourceRef ≠ route.sourceRef then .error (.rejected .extractionSourceMismatch)
      else .ok ()

def askGate (gate : Option Gate) (asked : List Asked) (capabilityRef scope : String) :
    Except Failure (List Asked) :=
  match gate with
  | none => .ok asked
  | some answer =>
    match answer asked capabilityRef scope with
    | .error _ => .error .raised
    | .ok granted =>
      if granted then .ok (⟨capabilityRef, scope, true⟩ :: asked)
      else .error (.rejected .authorizationBindingMissing)

def validateRouteActivation (gate : Option Gate) (asked : List Asked) (route : RouteBinding)
    (capability : Capability) (source : SourceRuntimeProfile)
    (extraction : Option ExtractionRuntimeProfile) :
    Except Failure (ActivationEvidence × List Asked) := do
  checkReferences route capability source extraction
  let backend := route.backendBinding.service
  if Text.startsWith "service://" source.endpointRef ∧ serviceOf source.endpointRef ≠ backend then
    .error (.rejected .backendSourceBindingMismatch)
  else do
    let asked ← askGate gate asked route.capabilityRef capability.scope
    return (⟨route.capabilityRef, route.sourceRef, route.extractionProfileRef, backend,
      gate.isSome⟩, asked)

/-! ## The governance of the repository -/

structure Bounds where
  minimum : Int
  maximum : Int

/-- What the governance reads beside the configuration root. A value of the
overlay that is no integer is `none`. -/
structure Repository where
  entries : List (String × Bounds)
  rejectUnknownGeneration : Bool
  overlays : List (String × List (String × Option Int))

def Repository.overlay? (r : Repository) (environment : String) :
    Option (List (String × Option Int)) :=
  if environment ∈ ["dev", "test", "prod"] then
    (r.overlays.find? (·.1 = environment)).map (·.2)
  else none

def checkSettings (entries : List (String × Bounds)) :
    List (String × Option Int) → Except Failure Unit
  | [] => .ok ()
  | (name, value) :: rest =>
    match entries.find? (·.1 = name) with
    | none => .error (.publication ("unknown runtime setting " ++ name))
    | some (_, bounds) =>
      if (value.all fun v => v < bounds.minimum || bounds.maximum < v) then
        .error (.publication ("runtime setting " ++ name ++ " outside catalog bounds"))
      else checkSettings entries rest

/-- `indexed.get((kind, ref))` of the comprehension. -/
def lastOf (docs : Documents) (kind : Kind) (ref : String) : Option Document :=
  lookup docs.reverse kind ref

/-- The loop over the route bindings. -/
def validateRoutes (gate : Option Gate) (docs : Documents) :
    Documents → List Asked → Except Failure (List Asked)
  | [], asked => .ok asked
  | (_, .routeBinding route) :: rest, asked =>
    match capabilityOf docs.reverse route.capabilityRef, sourceOf docs.reverse route.sourceRef with
    | some capability, some source => do
      let extraction :=
        if route.extractionProfileRef.getD "" = "" then none
        else extractionOf docs.reverse (route.extractionProfileRef.getD "")
      let found ← validateRouteActivation gate asked route capability source extraction
      validateRoutes gate docs rest found.2
    | _, _ => .error (.publication "activation reference missing")
  | _ :: rest, asked => validateRoutes gate docs rest asked

/-- `_validate_repository_governance`. -/
def validateRepositoryGovernance (repository : Repository) (gate : Option Gate)
    (environment : String) (files : List (String × Loaded)) : Except Failure (List Asked) :=
  match repository.overlay? environment with
  | none => .error (.publication "environment overlay is not governed")
  | some overlay => do
    checkSettings repository.entries overlay
    if repository.rejectUnknownGeneration ≠ true then
      .error (.publication "compatibility policy must reject unknown generations")
    else match loadDocuments files with
      | .error e => .error (.config e)
      | .ok docs => validateRoutes gate docs docs []

/-- The part of `_publish` that reads the configuration: governance, then the
compiler. Whatever either raises, the call is refused. -/
def compileRoot (repository : Repository) (gate : Option Gate) (environment : String)
    (files : List (String × Loaded)) (inputHashes : List (String × String)) :
    Except Unit Publication.Compiled :=
  match validateRepositoryGovernance repository gate environment files with
  | .error _ => .error ()
  | .ok _ =>
    match compileConfig files with
    | .error _ => .error ()
    | .ok artifact => .ok ⟨artifact.toJson, artifact.configurationSha256, inputHashes⟩

/-- One `publish` of a configuration root whose files do not change meanwhile, with
what it meets. -/
structure Attempt (π : Type) where
  plane : Publication.Plane π
  repository : Repository
  gate : Option Gate
  files : List (String × Loaded)
  inputHashes : List (String × String)
  environment : String
  sourceRevision : String
  publicationId : String
  createdAt : String
  activatedAt : String
  stop : Option Nat
  incidentId : String
  incidentNow : String

namespace Attempt

variable {π : Type}

def call (t : Attempt π) : Publication.Call where
  environment := t.environment
  sourceRevision := t.sourceRevision
  publicationId := t.publicationId
  compiled := compileRoot t.repository t.gate t.environment t.files t.inputHashes
  createdAt := t.createdAt
  activatedAt := t.activatedAt
  stop := t.stop
  incidentId := t.incidentId
  incidentNow := t.incidentNow

def publish (t : Attempt π) (s : Publication.State π) :
    Except Publication.Exn Publication.Manifest × Publication.State π :=
  Publication.publish t.plane t.call s

end Attempt

/-- An attempt with the control plane and the incidents its process finds. -/
structure Started (π : Type) where
  attempt : Attempt π
  plane : π
  incidents : Option Incidents.Tables

/-- One attempt after another over one root, each by a process of its own. -/
def publishAll {π : Type} (store : Publication.Store) (ts : List (Started π)) : Publication.Store :=
  ts.foldl (fun store t => (t.attempt.publish ⟨t.plane, store, t.incidents⟩).2.store) store

end OufGateway.ActivationGate
