import OufGateway.Ref.CompileConfig
import OufGateway.Lib.PyObjectStored

/-!
# Artifacts on their way to storage

What a document holds is checked by its schema down to every string and number,
but for `match.query` of a route, which is any object. It goes into the artifact
as YAML loaded it, with keys that are no strings, tuples (`!!omap`, `!!pairs`),
special floats and strings with single halves of surrogate pairs. So a file is a
document here with its query apart, and an artifact is a Python object.

The artifact is hashed and written by `json.dumps` and compared with what
`json.loads` gives again: by the file store when it is published another time,
and by the control plane after it staged it.
-/

namespace OufGateway.StoredArtifact

open OufGateway.CompileConfig
open OufGateway.Lib
open OufGateway.Lib.PyJson (Value Fault Layout compact indented write loads points)
open OufGateway.Lib.PyObject
open Encoding (Points)

variable {F : Type} (numbers : Numbers F)

/-- A file of the configuration. `loaded` is without `match.query`, which is `{}` where it is
not there, in every document but a route. -/
structure ConfigFile where
  path : String
  loaded : Loaded
  query : List (Key F × Object F)
  wellFormed : WellFormed numbers (.dict query)
  ofRoute : query = [] ∨ ∃ d, loaded = .document (.routeBinding d)
  apart : ∀ d, loaded = .document (.routeBinding d) → d.query = none

/-- The objects in a route that no query is in; there are no floats and no other objects. -/
def ofJson : Json → Object F
  | .null => .none
  | .bool b => .bool b
  | .int n => .int n
  | .float _ _ => .none
  | .str s => .str (points s)
  | .arr items => .list (ofItems items)
  | .obj members => .dict (ofMembers members)
  | .object _ => .none
where
  ofItems : List Json → List (Object F)
    | [] => []
    | x :: xs => ofJson x :: ofItems xs
  ofMembers : List (String × Json) → List (Key F × Object F)
    | [] => []
    | (k, x) :: ms => (.str (points k), ofJson x) :: ofMembers ms

/-- A route with its query contract. -/
abbrev FreeRoute (F : Type) := CompiledRoute × Object F

/-- The members of a route; its contract is the object the query is. -/
def routeMembers (r : FreeRoute F) : List (Key F × Object F) :=
  match r.1.toJson with
  | .obj members => members.map fun m =>
    (.str (points m.1), if m.1 = "x-ouf-query-contract" then r.2 else ofJson m.2)
  | _ => []

/-- `output` before its own hash is added. -/
def output (routes : List (FreeRoute F)) : List (Key F × Object F) :=
  [(.str (points "formatVersion"), .str (points "1.0")),
    (.str (points "apisixVersion"), .str (points "3.18.x")),
    (.str (points "routes"), .list (routes.map fun r => .dict (routeMembers r)))]

structure Artifact (F : Type) where
  routes : List (FreeRoute F)
  configurationSha256 : String

def Artifact.object (a : Artifact F) : Object F :=
  .dict (output a.routes ++
    [(.str (points "configurationSha256"), .str (points a.configurationSha256))])

/-! ## `compile_config` -/

section

variable {numbers}

/-- One walk over the documents, with the files they are of. -/
def walkFiles (bind : Seen → String → Document → Except ConfigError (Option CompiledRoute × Seen)) :
    List (ConfigFile numbers × String × Document) → Seen →
      Except ConfigError (List (FreeRoute F) × Seen)
  | [], seen => .ok ([], seen)
  | (f, path, d) :: rest, seen => do
    let first ← bind seen path d
    let others ← walkFiles bind rest first.2
    return (first.1.toList.map (·, .dict f.query) ++ others.1, others.2)

/-- `sorted(routes, key=lambda r: r["id"])`. -/
def sortRoutes (routes : List (FreeRoute F)) : List (FreeRoute F) :=
  routes.mergeSort fun a b => decide (a.1.id ≤ b.1.id)

end

/-- `canonical`, and what an `APISIXControlPlane` hashes for a revision. -/
def canonicalText (j : Value F) : String :=
  String.ofList ((write numbers.toFloats compact 0 j).map Char.ofNat)

def digest (j : Value F) : String := Sha256.ofText (canonicalText numbers j)

/-- `output` with its hash, if it can be written. -/
def sealFiles (limit : Nat) (routes : List (FreeRoute F)) : Except ConfigError (Artifact F) :=
  match encode numbers limit (.dict (output routes)) with
  | none => .error .raised
  | some j => .ok ⟨routes, digest numbers j⟩

variable {numbers} in
def compileFiles (limit : Nat) (files : List (ConfigFile numbers)) :
    Except ConfigError (Artifact F) := do
  let docs ← loadDocuments (files.map fun f => (f.path, f.loaded))
  checkUnique [] docs
  checkExtractions docs docs
  let routes ← walkFiles (bindRoute docs) (files.zip docs) {}
  let endpoints ← walkFiles (bindEndpoint docs) (files.zip docs) routes.2
  let mediations ← walkFiles bindMediation (files.zip docs) endpoints.2
  sealFiles numbers limit (sortRoutes (routes.1 ++ endpoints.1 ++ mediations.1))

/-! ## The file store and the control plane -/

inductive StoreError where
  | collision
  | unreadable (f : Fault)
  | unwritable
deriving DecidableEq

/-- The bytes that `write_text` and `json.dumps` leave in a file. -/
def fileOf (l : Layout) (j : Value F) (tail : Points) : List UInt8 :=
  Encoding.encode (write numbers.toFloats l 0 j ++ tail)

/-- `FilePublicationStore.record` up to its artifact, which has a file or not; the file that is
there then. -/
def record (limit : Nat) (file : Option (List UInt8)) (artifact : Object F) :
    Except StoreError (List UInt8) :=
  match file with
  | some bytes =>
    match loads numbers.toFloats limit bytes with
    | .error f => .error (.unreadable f)
    | .ok w => if (ofValue w).eqv numbers artifact then .ok bytes else .error .collision
  | none =>
    match encode numbers limit artifact with
    | none => .error .unwritable
    | some j => .ok (fileOf numbers indented j [10])

inductive PlaneError where
  | readAfterWrite
  | unreadable (f : Fault)
  | unwritable
deriving DecidableEq

/-- `admin.read_revision` after `admin.put_revision`, of an admin that stores JSON in its layout. -/
def stored (limit : Nat) (l : Layout) (artifact : Object F) : Except PlaneError (Value F) :=
  match encode numbers limit artifact with
  | none => .error .unwritable
  | some j =>
    match loads numbers.toFloats limit (fileOf numbers l j []) with
    | .error f => .error (.unreadable f)
    | .ok w => .ok w

/-- `APISIXControlPlane.revision_for`. -/
def revisionFor (limit : Nat) (artifact : Object F) : Except PlaneError String :=
  match encode numbers limit artifact with
  | none => .error .unwritable
  | some j => .ok ("sha256:" ++ digest numbers j)

def stage (limit : Nat) (l : Layout) (artifact : Object F) : Except PlaneError String := do
  let revision ← revisionFor numbers limit artifact
  let w ← stored numbers limit l artifact
  if (ofValue w).eqv numbers artifact then .ok revision else .error .readAfterWrite

/-- `artifactIntegrity` of `verify`. -/
def verify (limit : Nat) (l : Layout) (revision : String) (artifact : Object F) :
    Except PlaneError Bool := do
  let expected ← revisionFor numbers limit artifact
  if revision ≠ expected then .ok false
  else do
    let w ← stored numbers limit l artifact
    .ok ((ofValue w).eqv numbers artifact)

end OufGateway.StoredArtifact
