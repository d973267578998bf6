import OufGateway.Lib.Json
import OufGateway.Lib.PyDict
import OufGateway.Lib.Script

/-!
# Deploying routes

`apply_routes` of `deploy_status_execute.py`, `apply` of
`deploy_internal_m2m_routes.py` and `install` of `deploy_semantic_human.py`, as
scripts that talk to the Admin API, to the gateway and to the file of the
snapshot. All three read the routes that are there, save them, write and read
back, probe, and restore the snapshot when any of this raises. A request says
whether it is one that restores.

The table of the Admin API has for each id what `route_value` shows of its route.
-/

namespace OufGateway.RouteDeploy

open Lib

inductive Raised
  /-- `RuntimeError` or `ValueError`. -/
  | error (text : String)
  /-- Any other `Exception`. -/
  | exception
  /-- A `BaseException` that is no `Exception`. -/
  | interrupt

abbrev Route := List (String × Json)

/-- `previous`: the routes that were there, and `None` where there was none. -/
abbrev Snapshot := List (String × Option Route)

inductive Command
  | get (id : String)
  | put (id : String) (route : Route)
  | delete (id : String)
  | save (previous : Snapshot)
  | curl (path method : String) (data : Option Json)

structure Request where
  command : Command
  restoring : Bool

/-- The status code and the body. -/
abbrev Answer := Int × Json

abbrev Deploy := Script Request Answer Raised

def send (command : Command) : Deploy Answer := Script.send ⟨command, false⟩

/-! ## Routes -/

def plain (m : String × Json) : Bool := m.1 ≠ "create_time" && m.1 ≠ "update_time"

def routeValue : Json → Except Raised Route
  | .obj doc =>
    match (Json.ofLookup doc "value").getD (.obj doc) with
    | .obj value =>
      match Json.ofLookup value "value" with
      | some (.obj inner) => .ok (inner.filter plain)
      | _ => .ok (value.filter plain)
    | _ => .error .exception
  | _ => .error .exception

/-- `any(actual.get(k) != v for k, v in route.items())`. -/
def differs (route actual : Route) : Bool :=
  route.any fun m => !((Json.ofLookup actual m.1).getD .null).eqv m.2

/-- `route["id"]`, where it goes into a path. -/
def idOf (route : Json) : Except Raised String :=
  match route.get? "id" with
  | some (.str id) => .ok id
  | _ => .error .exception

def membersOf : Json → Route
  | .obj members => members
  | _ => []

def uriOf (route : Json) : Except Raised String :=
  match route.get? "uri" with
  | some (.str uri) => .ok uri
  | _ => .error .exception

/-- `route["methods"][0]`. -/
def methodOf (route : Json) : Except Raised String :=
  match route.get? "methods" with
  | some (.arr (.str method :: _)) => .ok method
  | some (.str s) => ((s.toList.head?).map fun c => Except.ok (String.ofList [c])).getD (.error .exception)
  | _ => .error .exception

/-! ## The snapshot -/

def heldAt (text : Int → String) (id : String) : Deploy (Option Route) :=
  (send (.get id)).bind fun answer =>
    if answer.1 ∉ [200, 404] then .raise (.error (text answer.1))
    else if answer.1 = 200 then (Script.ofExcept (routeValue answer.2)).bind fun route => .done (some route)
    else .done none

/-- The loop over what it takes the ids from, and the dictionary it fills. -/
def snapshotEach (text : String → Int → String) :
    List (Except Raised String) → Snapshot → Deploy Snapshot
  | [], previous => .done previous
  | item :: rest, previous =>
    (Script.ofExcept item).bind fun id =>
      (heldAt (text id) id).bind fun held => snapshotEach text rest (PyDict.set previous id held)

def save (previous : Snapshot) : Deploy Snapshot :=
  (send (.save previous)).bind fun _ => .done previous

def sorted (ids : List String) : List String := ids.insertionSort (· ≤ ·)

/-- `snapshot(route_ids, admin)`. -/
def snapshot (routeIds : List String) : Deploy Snapshot :=
  (snapshotEach (fun id code => s!"snapshot HTTP {code} for {id}") ((sorted routeIds).map .ok) []).bind save

/-! ## Restoring it -/

/-- `previous[route_id]`. -/
def heldIn (previous : Snapshot) (id : String) : Except Raised (Option Route) :=
  match PyDict.get? previous id with
  | some held => .ok held
  | none => .error .exception

/-- `"PUT" if old else "DELETE"`. -/
def undo (id : String) : Option Route → Command
  | some (m :: ms) => .put id (m :: ms)
  | _ => .delete id

/-- Whether a restoring request counts as done. -/
def counts : Except Raised Answer → Except Raised Bool
  | .ok answer => .ok (decide (answer.1 ∈ [200, 201, 204, 404]))
  | .error .interrupt => .error .interrupt
  | .error _ => .ok false

/-- The loop over the ids, with its failures. -/
def restoreEach (previous : Snapshot) : List String → List String → Deploy (List String)
  | [], failures => .done failures
  | id :: ids, failures =>
    (Script.ofExcept (heldIn previous id)).bind fun old =>
      (Script.attempt (Script.send ⟨undo id old, true⟩)).bind fun result =>
        (Script.ofExcept (counts result)).bind fun ok =>
          restoreEach previous ids (if ok then failures else failures ++ [id])

/-- `if failures: raise`. -/
def refuse (text : String) (failures : List String) : Deploy Unit :=
  if failures = [] then .done () else .raise (.error (text ++ ",".intercalate failures))

/-- `restore(previous, admin)`. -/
def restore (previous : Snapshot) : Deploy Unit :=
  (restoreEach previous (sorted (previous.map (·.1))) []).bind (refuse "rollback incomplete: ")

/-! ## `apply_routes` -/

/-- A route is written and read back. -/
def writeRoute (text : Int → String) (readback : String) (id : String) (route : Route) : Deploy Unit :=
  (send (.put id route)).bind fun written =>
    if written.1 ∉ [200, 201] then .raise (.error (text written.1))
    else (send (.get id)).bind fun answer =>
      (if answer.1 = 200 then Script.ofExcept (routeValue answer.2) else .done []).bind fun actual =>
        if differs route actual then .raise (.error readback) else .done ()

/-- The loop under `try`: the ids attempted, and how it ended. -/
def writeEach : List Json → List String → Deploy (List String × Except Raised Unit)
  | [], attempted => .done (attempted, .ok ())
  | route :: rest, attempted =>
    match idOf route with
    | .error e => .done (attempted, .error e)
    | .ok id =>
      (Script.attempt (writeRoute (fun code => s!"write HTTP {code}") "route readback differs" id
          (membersOf route))).bind fun
        | .error e => .done (attempted ++ [id], .error e)
        | .ok () => writeEach rest (attempted ++ [id])

/-- The body of the execute probe. -/
def executeProbe : Json := .obj
  [("GatewayBindingRef", .str "capability://ouf.system.status"),
    ("CapabilityID", .str "ouf.system.status"), ("Owner", .str "mcp"), ("OperationClass", .str "READ"),
    ("Arguments", .obj []),
    ("Identity", .obj [("ServicePrincipalID", .str "probe"), ("PrincipalID", .str "probe"),
      ("TenantID", .str "probe"), ("ActorType", .str "HUMAN"), ("AuthenticationContextRef", .str "1")]),
    ("AuthorizationDecisionRef", .str "probe"), ("CorrelationID", .str "probe"),
    ("IdempotencyKey", .str "probe"), ("AttemptID", .str "11111111-1111-4111-8111-111111111111"),
    ("RequestHash", .str "44136fa355b3678a1146ad16f7e8649e94fb4fc21fe77e8310c060f61caaff8a"),
    ("MaxResultBytes", .int 262144)]

def checkPublic : Deploy Unit :=
  (send (.curl "/mcp" "POST" (some (.obj [])))).bind fun mcp =>
    if mcp.1 ≠ 401 then .raise (.error s!"unauthenticated MCP HTTP {mcp.1}")
    else (send (.curl "/.well-known/oauth-protected-resource" "GET" none)).bind fun metadata =>
      if metadata.1 ≠ 200 then .raise (.error s!"metadata HTTP {metadata.1}")
      else (send (.curl "/internal/capabilities/v1/execute" "POST" (some executeProbe))).bind fun execute =>
        if execute.1 ≠ 401 then .raise (.error s!"unauthenticated execute HTTP {execute.1}")
        else .done ()

/-- What is done once the `try` block has ended. -/
def finish (previous : Snapshot) (attempted : List String) : Except Raised Unit → Deploy Unit
  | .ok () => .done ()
  | .error e =>
    ((restoreEach previous attempted.reverse []).bind
      (refuse "rollback incomplete; use saved snapshot for: ")).bind fun _ => .raise e

def applyRoutes (routes : List Json) : Deploy Unit :=
  (snapshotEach (fun _ code => s!"snapshot HTTP {code}") (routes.map idOf) []).bind fun previous =>
    (save previous).bind fun previous =>
      (writeEach routes []).bind fun written =>
        (Script.attempt ((Script.ofExcept written.2).bind fun _ => checkPublic)).bind
          (finish previous written.1)

/-! ## `apply` -/

/-- `value or {}`. -/
def orEmpty : Option Json → Json
  | some v => if v.truthy then v else .obj []
  | none => .obj []

/-- `key in value`. -/
def contains (key : String) : Json → Except Raised Bool
  | .obj members => .ok ((Json.ofLookup members key).isSome)
  | .arr items => .ok (items.any fun v => v.eqv (.str key))
  | .str s => .ok (decide (key.toList <:+: s.toList))
  | _ => .error .exception

def isRouteIdChar (c : Char) : Bool := c.isAlphanum || ['.', '_', '-'].contains c

def validId : Option Json → Except Raised String
  | some (.str id) =>
    if id ≠ "" ∧ id.toList.all isRouteIdChar = true then .ok id else .error (.error "invalid route id")
  | _ => .error (.error "invalid route id")

def labelled (labels : Json) (key value : String) : Except Raised Bool :=
  match labels with
  | .obj members => .ok (((Json.ofLookup members key).getD .null).eqv (.str value))
  | _ => .error .exception

def internal (labels : Json) : Except Raised Bool := do
  if ← labelled labels "ouf-managed" "true" then labelled labels "ouf-exposure" "internal"
  else return false

def rooted : Option Json → Bool
  | some (.str uri) => uri.toList.head? = some '/'
  | _ => false

def oneMethod : Option Json → Bool
  | some (.arr methods) => methods.length = 1
  | _ => false

def requirePlugins (plugins : Json) : List String → Except Raised Unit
  | [] => .ok ()
  | required :: rest => do
    if ← contains required plugins then requirePlugins plugins rest
    else .error (.error ("missing required plugin: " ++ required))

def requiredPlugins : List String :=
  ["openid-connect", "serverless-pre-function", "serverless-post-function", "request-id", "limit-count"]

/-- `if not c: raise ValueError(text)`. -/
def check (c : Bool) (text : String) : Except Raised Unit :=
  if c then .ok () else .error (.error text)

def validateEach : List Json → List String → Except Raised (List String)
  | [], ids => .ok ids
  | route :: rest, ids => do
    check route.isObj "route must be an object"
    let id ← validId (route.get? "id")
    check (id ∉ ids) "duplicate route id"
    let governed ← internal (orEmpty (route.get? "labels"))
    check governed "route is not a governed internal materialization"
    check (rooted (route.get? "uri")) "invalid route uri"
    check (oneMethod (route.get? "methods")) "route must contain exactly one method"
    requirePlugins (orEmpty (route.get? "plugins")) requiredPlugins
    validateEach rest (ids ++ [id])

def validateRoutes (routes : List Json) : Except Raised (List String) :=
  if routes = [] then .error (.error "materialization must contain routes") else validateEach routes []

def probePath (uri : String) : String :=
  if ['/', '*'] <:+ uri.toList then String.ofList uri.toList.dropLast ++ "probe" else uri

def writeAll : List Json → Deploy Unit
  | [] => .done ()
  | route :: rest =>
    (Script.ofExcept (idOf route)).bind fun id =>
      (writeRoute (fun code => s!"write HTTP {code} for {id}") ("route readback differs for " ++ id) id
        (membersOf route)).bind fun _ => writeAll rest

/-- The data of a probe, if there is a function that makes it. -/
def probeData (probe : Option (Json → Except Raised Json)) (route : Json) :
    Except Raised (Option Json) :=
  match probe with
  | none => .ok none
  | some f => (f route).map some

def probeAll (probe : Option (Json → Except Raised Json)) : List Json → Deploy Unit
  | [] => .done ()
  | route :: rest =>
    (Script.ofExcept (do
      let uri ← uriOf route
      let method ← methodOf route
      let data ← probeData probe route
      return Command.curl (probePath uri) method data)).bind fun command =>
      (send command).bind fun answer =>
        if answer.1 ∉ [401, 403] then
          (Script.ofExcept (idOf route)).bind fun id =>
            .raise (.error s!"anonymous protected route HTTP {answer.1} for {id}")
        else probeAll probe rest

/-- `except BaseException: restore(previous, admin); raise`. -/
def guarded (previous : Snapshot) (p : Deploy Unit) : Deploy Unit :=
  p.handle fun e => (restore previous).bind fun _ => .raise e

def apply (routes : List Json) (probe : Option (Json → Except Raised Json)) : Deploy Unit :=
  (Script.ofExcept (validateRoutes routes)).bind fun ids =>
    (snapshot ids).bind fun previous =>
      guarded previous ((writeAll routes).bind fun _ => probeAll probe routes)

/-! ## `install` -/

/-- The keys of `ROUTES`. -/
def semanticRoutes : List String :=
  ["semantic-artifact-propose", "semantic-rdf-import", "semantic-revision-validate",
    "semantic-approval-request", "semantic-human-card", "semantic-human-decision",
    "semantic-human-publish", "semantic-artifact-search"]

def sampleId : String := "00000000-0000-0000-0000-000000000000"

def sampleUri (uri id : String) : String :=
  String.ofList (uri.toList.flatMap fun c => if c = '*' then sampleId.toList else [c]) ++
    (if id = "semantic-revision-validate" then ":validate"
      else if id = "semantic-human-decision" then "/decision"
      else if id = "semantic-human-publish" then "/publish" else "")

def checkDrift (previous : Snapshot) : List Json → Except Raised Unit
  | [] => .ok ()
  | route :: rest => do
    let id ← idOf route
    match ← heldIn previous id with
    | some old =>
      if differs (membersOf route) old then .error (.error ("EXISTING_SEMANTIC_ROUTE_DRIFT:" ++ id))
      else checkDrift previous rest
    | none => checkDrift previous rest

/-- A route that is not there is written. -/
def writeAbsent (id : String) (route : Route) : Option Route → Deploy Unit
  | some _ => .done ()
  | none =>
    (send (.put id route)).bind fun answer =>
      if answer.1 ∉ [200, 201] then .raise (.error ("SEMANTIC_ROUTE_WRITE_FAILED:" ++ id)) else .done ()

def installEach (previous : Snapshot) : List Json → Deploy Unit
  | [] => .done ()
  | route :: rest =>
    (Script.ofExcept (idOf route)).bind fun id =>
      (Script.ofExcept (heldIn previous id)).bind fun old =>
        (writeAbsent id (membersOf route) old).bind fun _ =>
          (send (.get id)).bind fun answer =>
            (if answer.1 = 200 then
              (Script.ofExcept (routeValue answer.2)).bind fun actual =>
                .done (differs (membersOf route) actual)
            else .done true).bind fun failed =>
              if failed then .raise (.error ("SEMANTIC_ROUTE_READBACK_FAILED:" ++ id))
              else installEach previous rest

def denyAll : List Json → Deploy Unit
  | [] => .done ()
  | route :: rest =>
    (Script.ofExcept (do
      let uri ← uriOf route
      let id ← idOf route
      let method ← methodOf route
      return (Command.curl (sampleUri uri id) method none, id))).bind fun item =>
      (send item.1).bind fun answer =>
        if answer.1 ∉ [401, 403] then
          .raise (.error s!"SEMANTIC_ANONYMOUS_NOT_DENIED:{item.2}:{answer.1}")
        else denyAll rest

def install (routes : List Json) : Deploy Unit :=
  (snapshot semanticRoutes).bind fun previous =>
    (Script.ofExcept (checkDrift previous routes)).bind fun _ =>
      guarded previous ((installEach previous routes).bind fun _ => denyAll routes)

/-! ## The Admin API -/

abbrev Table := String → Option Route

/-- What a request that took effect leaves. -/
def written (t : Table) : Command → Table
  | .put id route => fun i => if i = id then some (route.filter plain) else t i
  | .delete id => fun i => if i = id then none else t i
  | _ => t

/-- What may be answered where `took` says whether the request took effect. -/
def honestAnswer (t : Table) (took : Bool) (answer : Answer) : Command → Prop
  | .get id => (answer.1 = 200 → ∃ route, t id = some route ∧ routeValue answer.2 = .ok route) ∧
      (answer.1 = 404 → t id = none)
  | .put _ _ => answer.1 ∈ [200, 201, 204] → took = true
  | .delete id => (answer.1 ∈ [200, 201, 204] → took = true) ∧ (answer.1 = 404 → t id = none)
  | _ => True

/-- An Admin API that is honest about success. -/
def admin : Party Table Request Answer Raised where
  effect t e := if e.reply.took then written t e.request.command else t
  honest t e := ∀ answer, e.reply.result = .ok answer →
    honestAnswer t e.reply.took answer e.request.command

end OufGateway.RouteDeploy
