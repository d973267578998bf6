import Mathlib
import OufGateway.Lib.Json
import OufGateway.Ref.ControlPlane

/-!
# The Admin API client

`APISIXAdminHTTP` over a server that keeps the plugin metadata. A resource is
either the metadata of a revision, `ouf-publication-` and the quoted revision, or
the pointer `ouf-active-publication`; quoting is injective and the two kinds of
name have no name in common. The client keeps every state the server has had
after a request, so that a statement about each of them speaks about each step.

A request can fail with `APISIXAdminError` whether or not the server has carried
it out. How often `activate_revision` polls before its deadline is the length of
a list of faults, one for each poll. What `probe_revision` answers is arbitrary.
-/

namespace OufGateway.AdminHttp

open Lib Publication ControlPlane

inductive Resource
  | revision (r : String)
  | active
deriving DecidableEq

structure Server where
  metadata : Resource → Option Json

namespace Server

/-- A stored body comes back as the `value` of the answer. -/
def get (k : Resource) (s : Server) : Except Exn Json × Server :=
  match s.metadata k with
  | some body => (.ok (.obj [("value", body)]), s)
  | none => (.error .raised, s)

def put (k : Resource) (body : Json) (s : Server) : Except Exn Json × Server :=
  (.ok (.obj [("value", body)]), ⟨Function.update s.metadata k (some body)⟩)

def delete (k : Resource) (s : Server) : Except Exn Json × Server :=
  match s.metadata k with
  | some _ => (.ok (.obj []), ⟨Function.update s.metadata k none⟩)
  | none => (.error .raised, s)

end Server

structure Client where
  server : Server
  /-- The server after each request, the latest first. -/
  log : List Server

/-- `_request`. -/
def request (f : Fault) (act : Server → Except Exn Json × Server) (h : Client) :
    Except Exn Json × Client :=
  let r := f.attempt act h.server
  (r.1, { server := r.2, log := r.2 :: h.log })

/-! ## Reading an answer -/

/-- `value.get(key, default)`. -/
def getOr (value : Json) (key : String) (default : Json) : Except Exn Json :=
  if value.isObj then .ok ((value.get? key).getD default) else .error .raised

/-- `value.get("value",value).get("value",value.get("value",value))`. -/
def node (value : Json) : Except Exn Json := do
  let inner ← getOr value "value" value
  getOr inner "value" inner

/-- `node["artifact"]` of a dictionary that has one. -/
def artifactOf (value : Json) : Except Exn Json := do
  match (← node value).get? "artifact" with
  | some artifact => .ok artifact
  | none => .error .raised

/-- `node.get("revision")` of a dictionary, else `None`. -/
def revisionOf (value : Json) : Except Exn Json := do
  return ((← node value).get? "revision").getD .null

/-! ## The operations -/

/-- What the requests of one operation of the control plane meet. -/
structure Faults where
  health : Fault := .clean
  put : Fault := .clean
  read : Fault := .clean
  probe : Except Exn Json := .ok (.obj [])
  activate : Fault := .clean
  polls : List Fault := [.clean]
  active : Fault := .clean
  delete : Fault := .clean

def health (f : Fault) (h : Client) : Except Exn Json × Client :=
  match request f (fun s => (.ok (.obj []), s)) h with
  | (.ok _, h) => (.ok (.bool true), h)
  | (.error _, h) => (.ok (.bool false), h)

def putRevision (f : Fault) (revision : String) (artifact : Json) (h : Client) :
    Except Exn Unit × Client :=
  let r := request f (Server.put (.revision revision)
    (.obj [("value", .obj [("revision", .str revision), ("artifact", artifact)])])) h
  (r.1.map fun _ => (), r.2)

def readRevision (f : Fault) (revision : String) (h : Client) : Except Exn Json × Client :=
  andThen (request f (Server.get (.revision revision)) h) fun value h => (artifactOf value, h)

/-- A failed request is answered with `None`. -/
def activeRevision (f : Fault) (h : Client) : Except Exn Json × Client :=
  match request f (Server.get .active) h with
  | (.ok value, h) => (revisionOf value, h)
  | (.error _, h) => (.ok .null, h)

/-- The loop of `activate_revision`. -/
def converge (revision : String) : List Fault → Client → Except Exn Unit × Client
  | [], h => (.error .raised, h)
  | f :: polls, h =>
    andThen (activeRevision f h) fun active h =>
      if active.eqv (.str revision) then (.ok (), h) else converge revision polls h

def activateRevision (f : Fault) (polls : List Fault) (revision : String) (h : Client) :
    Except Exn Unit × Client :=
  andThen (request f (Server.put .active
      (.obj [("value", .obj [("revision", .str revision)])])) h) fun _ h =>
    converge revision polls h

def deleteRevision (f : Fault) (revision : String) (h : Client) : Except Exn Unit × Client :=
  let r := request f (Server.delete (.revision revision)) h
  (r.1.map fun _ => (), r.2)

/-- `APISIXAdminHTTP`, its probes apart. -/
def port (f : Faults) : AdminPort Client where
  health := health f.health
  putRevision := putRevision f.put
  readRevision := readRevision f.read
  probeRevision _ h := (f.probe, h)
  activateRevision := activateRevision f.activate f.polls
  activeRevision := activeRevision f.active
  deleteRevision := deleteRevision f.delete

end OufGateway.AdminHttp
