import OufGateway.Lib.PyJsonReread
import OufGateway.Proofs.Dispatch
import OufGateway.Ref.DispatchBody

/-!
# What escapes a dispatch

A check of the chain refuses or lets through, if the route has the members the check
reads. A registry route has them: it comes from a route binding, which gives it a
capability, both lists of its policy and a service. The one member it may not have is
the rewrite, which a wildcard route goes without; there the dispatch gets to the end
of the checks and raises. So what escapes is what the parser and the validator let
escape, and the requests that a wildcard route admits.
-/

namespace OufGateway.Dispatch

open Lib CompileConfig

variable {d : Dispatcher} {rawBody : List UInt8} {requestHeaders : List (String × String)}
  {i : TrustedIdentity} {e : Envelope} {route : CompiledRoute} {capability : CapabilityView}

/-! ## The checks -/

theorem readEnvelope_not_raised {o : Outside} : readEnvelope o rawBody ≠ .error .raised := by
  unfold readEnvelope refuse
  split
  · simp
  · split <;> simp

theorem checkBinding_not_raised {size : Nat} : checkBinding route capability size e ≠ .error .raised := by
  unfold checkBinding refuse
  split_ifs <;> simp

theorem checkPresent_not_raised {names : List String} :
    checkPresent requestHeaders names ≠ .error .raised := by
  induction names with
  | nil => simp [checkPresent]
  | cons name names ih =>
      unfold checkPresent refuse
      split
      · simp
      · exact ih

theorem checkHeaders_not_raised : checkHeaders requestHeaders e ≠ .error .raised := by
  unfold checkHeaders refuse
  split <;> simp

/-- A route has what the checks read of it. -/
structure Readable (route : CompiledRoute) : Prop where
  capability : ∃ view, route.capability = some view
  services : ∃ services, route.policy.allowedServiceIdentities = some services
  actors : ∃ actors, route.policy.allowedActorTypes = some actors

theorem checkIdentity_not_raised (h : Readable route) :
    checkIdentity d route capability e i ≠ .error .raised := by
  obtain ⟨services, hservices⟩ := h.services
  obtain ⟨actors, hactors⟩ := h.actors
  simp only [checkIdentity, hservices, hactors, refuse]
  split_ifs <;> simp

theorem findRoute_not_raised (h : ∀ id r, d.registry.get? id = some r → Readable r) :
    findRoute d e ≠ .error .raised := by
  unfold findRoute refuse
  cases hroute : d.registry.get? e.capabilityId with
  | none => simp
  | some r =>
      obtain ⟨view, hview⟩ := (h _ r hroute).capability
      simp only [hview]
      split <;> simp

/-- Of the chain only the call can raise. -/
theorem vet_raised_iff (h : ∀ id r, d.registry.get? id = some r → Readable r) :
    vet d rawBody requestHeaders i = .error .raised ↔
      ∃ e route capability, Admitted d rawBody requestHeaders i e route capability ∧
        prepareCall route capability e i = .error .raised := by
  constructor
  · intro hraised
    simp only [vet] at hraised
    obtain hread | ⟨e, he, hraised⟩ := bind_eq_error.mp hraised
    · exact absurd hread readEnvelope_not_raised
    obtain hfind | ⟨bound, hbound, hraised⟩ := bind_eq_error.mp hraised
    · exact absurd hfind (findRoute_not_raised h)
    obtain ⟨route, capability⟩ := bound
    obtain ⟨hroute, harguments, hview⟩ := findRoute_ok.mp hbound
    obtain hbinding | ⟨_, hbinding, hraised⟩ := bind_eq_error.mp hraised
    · exact absurd hbinding checkBinding_not_raised
    obtain hidentity | ⟨_, hidentity, hraised⟩ := bind_eq_error.mp hraised
    · exact absurd hidentity (checkIdentity_not_raised (h _ route hroute))
    obtain hpresent | ⟨_, hpresent, hraised⟩ := bind_eq_error.mp hraised
    · exact absurd hpresent checkPresent_not_raised
    obtain hheaders | ⟨_, hheaders, hraised⟩ := bind_eq_error.mp hraised
    · exact absurd hheaders checkHeaders_not_raised
    obtain ⟨hsize, href, hoperation, howner⟩ := checkBinding_ok.mp hbinding
    obtain ⟨hservice, hactor, hhuman, hscope, hsame, hdecision⟩ := checkIdentity_ok.mp hidentity
    obtain ⟨hcorrelation, hidempotency, hattempt⟩ := checkHeaders_ok.mp hheaders
    exact ⟨e, route, capability, ⟨readEnvelope_ok.mp he, hroute, hview, harguments, hsize, href, hoperation, howner,
      hservice, hactor, hhuman, hscope, hsame, hdecision, checkPresent_ok.mp hpresent, hcorrelation, hidempotency,
      hattempt⟩, hraised⟩
  · rintro ⟨e, route, capability, hadmitted, hraised⟩
    simp only [vet, bind_eq_error]
    refine .inr ⟨e, readEnvelope_ok.mpr hadmitted.envelope, .inr ⟨(route, capability),
      findRoute_ok.mpr ⟨hadmitted.bound, hadmitted.arguments, hadmitted.view⟩, .inr ⟨(),
      checkBinding_ok.mpr ⟨hadmitted.size, hadmitted.binding, hadmitted.operation, hadmitted.owner⟩, .inr ⟨(),
      checkIdentity_ok.mpr ⟨hadmitted.service, hadmitted.actor, hadmitted.human, hadmitted.scope, hadmitted.identity,
        hadmitted.decision⟩, .inr ⟨(), checkPresent_ok.mpr hadmitted.present, .inr ⟨(),
      checkHeaders_ok.mpr ⟨hadmitted.correlation, hadmitted.idempotency, hadmitted.attempt⟩, hraised⟩⟩⟩⟩⟩⟩

/-! ## The routes of a registry -/

/-- A compiled route with a capability is the route of a route binding. -/
theorem route_of_binding {docs : Documents} {a : Artifact} (c : Compiled docs a) (hroute : route ∈ a.routes)
    (hcapability : route.capability = some capability) :
    ∃ b capability' source, route = emitRoute b capability' source := by
  obtain ⟨doc, -, hdoc⟩ := c.mem_routes.mp hroute
  rcases hdoc with hdoc | hdoc | hdoc
  · cases hkind : doc.2 with
    | routeBinding b =>
        rw [hkind, routeOf] at hdoc
        obtain ⟨capability', -, hsource⟩ := Option.bind_eq_some_iff.mp hdoc
        obtain ⟨source, -, rfl⟩ := Option.map_eq_some_iff.mp hsource
        exact ⟨b, capability', source, rfl⟩
    | _ =>
        rw [hkind] at hdoc
        cases hdoc
  · cases hkind : doc.2 with
    | mcpEndpointBinding b =>
        rw [hkind] at hdoc
        cases hdoc
        cases hcapability
    | _ =>
        rw [hkind] at hdoc
        cases hdoc
  · cases hkind : doc.2 with
    | mcpMediationBinding b =>
        rw [hkind] at hdoc
        cases hdoc
        cases hcapability
    | _ =>
        rw [hkind] at hdoc
        cases hdoc

theorem prepareCall_emitRoute {b : RouteBinding} {capability' : Capability} {source : SourceRuntimeProfile} :
    prepareCall (emitRoute b capability' source) capability e i = .error .raised ↔ isWildcard b.path = true := by
  unfold prepareCall emitRoute
  by_cases h : isWildcard b.path <;> simp [h]

/-! ## A dispatch -/

theorem Reading.dispatch_of_loads {F σ : Type} {p : Reading F} {execute : Upstream σ} {s : σ} {v : Json}
    (hloads : p.loads rawBody = .ok v) (hexhausts : p.exhausts v = false) :
    p.dispatch d execute s rawBody requestHeaders i = Dispatch.dispatch d execute s rawBody requestHeaders i := by
  simp [Reading.dispatch, hloads, hexhausts]

section

variable {σ : Type} {execute : UpstreamCall → σ → BackendResponse × σ} {s : σ}

/-- A response, or an error of the dispatcher's own. -/
def Contained (o : Outcome σ) : Prop :=
  (∃ r, o.answer = .ok r) ∨ ∃ status code detail, o.answer = .error (.dispatch status code detail)

theorem contained_iff {o : Outcome σ} : Contained o ↔ o.answer ≠ .error .raised := by
  unfold Contained
  cases o.answer with
  | ok r => simp
  | error f => cases f <;> simp

theorem dispatch_raised_iff :
    (dispatch d (returning execute) s rawBody requestHeaders i).answer = .error .raised ↔
      vet d rawBody requestHeaders i = .error .raised := by
  unfold dispatch
  cases vet d rawBody requestHeaders i with
  | error f => simp
  | ok call => simp [returning]

end

/-- For every accepted configuration and every request: what is no response and no error of the dispatcher's own comes
from the parser, from the validator, or from a wildcard route that has admitted the request. -/
theorem dispatch_contained_iff {F σ : Type} {p : Reading F} {files : List (String × Loaded)} {a : Artifact}
    {serviceIdentity : String} (hcompile : compileConfig files = .ok a)
    (hinit : init p.outside a serviceIdentity = .ok d) (execute : UpstreamCall → σ → BackendResponse × σ) (s : σ)
    (rawBody : List UInt8) (requestHeaders : List (String × String)) (i : TrustedIdentity) :
    Contained (p.dispatch d (returning execute) s rawBody requestHeaders i) ↔
      p.loads rawBody ≠ .error .tooManyDigits ∧ p.loads rawBody ≠ .error .tooDeep
        ∧ (∀ v, p.loads rawBody = .ok v → p.exhausts v = false)
        ∧ ∀ e route capability, Admitted d rawBody requestHeaders i e route capability →
            isWildcard route.uri = false := by
  obtain ⟨docs, -, hdocs⟩ := compileConfig_ok hcompile
  obtain ⟨c⟩ := compileDocuments_ok hdocs
  have hbinding : ∀ id r, d.registry.get? id = some r →
      ∃ b capability' source, r = emitRoute b capability' source := by
    intro id r hr
    obtain ⟨hmem, -, view, hview, -⟩ := registered hinit hr
    exact route_of_binding c hmem hview
  have hreadable : ∀ id r, d.registry.get? id = some r → Readable r := by
    intro id r hr
    obtain ⟨b, capability', source, rfl⟩ := hbinding id r hr
    exact ⟨⟨_, rfl⟩, ⟨_, rfl⟩, ⟨_, rfl⟩⟩
  have hvet : vet d rawBody requestHeaders i ≠ .error .raised ↔
      ∀ e route capability, Admitted d rawBody requestHeaders i e route capability → isWildcard route.uri = false := by
    rw [Ne, vet_raised_iff hreadable]
    push Not
    refine forall₃_congr fun e route capability => imp_congr_right fun hadmitted => ?_
    obtain ⟨b, capability', source, rfl⟩ := hbinding _ _ hadmitted.bound
    rw [Ne, prepareCall_emitRoute, Bool.not_eq_true]
    rfl
  rw [contained_iff, Reading.dispatch]
  cases hloads : p.loads rawBody with
  | error f =>
      cases f with
      | notJson => simp [dispatch_raised_iff, hvet]
      | tooManyDigits => simp
      | tooDeep => simp
  | ok v =>
      by_cases hexhausts : p.exhausts v
      · simp [hexhausts]
      · simp [hexhausts, dispatch_raised_iff, hvet]

/-! ## A wildcard route for a tool -/

def wildcardBinding : RouteBinding where
  metadata := ⟨"object-search", "1.0.0"⟩
  exposure := .internal
  capabilityRef := "urban.object.search@1.0.0"
  sourceRef := "udp@1.0.0"
  extractionProfileRef := none
  method := .post
  path := "/internal/v1/objects/*"
  uriRegex := none
  query := none
  backendBinding := ⟨"ouf-udp", 8080, "/internal/v1/objects/*"⟩
  identity := .m2m
  allowedServiceIdentities := some [installationMcpRef]
  allowedActorTypes := some ["AI_AGENT"]
  maxRequestBytes := 4096
  timeoutSeconds := 3

def searchCapability : Capability :=
  ⟨⟨"urban.object.search", "1.0.0"⟩, "udp", .search, "urban.search", true, none⟩

def objectSource : SourceRuntimeProfile := ⟨⟨"udp", "1.0.0"⟩, "service://ouf-udp/objects", none⟩

def wildcardFiles : List (String × Loaded) :=
  [("capability.yaml", .document (.capability searchCapability)),
    ("route.yaml", .document (.routeBinding wildcardBinding)),
    ("source.yaml", .document (.sourceRuntimeProfile objectSource))]

def wildcardRoute : CompiledRoute := emitRoute wildcardBinding searchCapability objectSource

theorem compile_wildcard : compileConfig wildcardFiles = .ok (sealed (byId [wildcardRoute])) := rfl

mutual

/-- The value of a body without floats, its texts as characters. -/
def plainJson : PyJson.Value Unit → Json
  | .null => .null
  | .bool b => .bool b
  | .int n => .int n
  | .float _ => .null
  | .str s => .str (String.ofList (s.map Char.ofNat))
  | .arr items => .arr (plainItems items)
  | .obj members => .obj (plainMembers members)

def plainItems : List (PyJson.Value Unit) → List Json
  | [] => []
  | v :: vs => plainJson v :: plainItems vs

def plainMembers : List (List Nat × PyJson.Value Unit) → List (String × Json)
  | [] => []
  | (k, v) :: members => (String.ofList (k.map Char.ofNat), plainJson v) :: plainMembers members

end

def plainReading : Reading Unit where
  floats := ⟨fun _ => (), (), (), (), fun _ => []⟩
  limit := 900
  json := plainJson
  isUuid s := s.length = 36
  message _ := "invalid"
  exhausts _ := false

/-- The envelope of a search by type. -/
def searchValue : PyJson.Value Unit :=
  .obj [(PyJson.points "GatewayBindingRef", .str (PyJson.points "capability://urban.object.search")),
    (PyJson.points "CapabilityID", .str (PyJson.points "urban.object.search")),
    (PyJson.points "Owner", .str (PyJson.points "udp")),
    (PyJson.points "OperationClass", .str (PyJson.points "SEARCH")),
    (PyJson.points "Arguments", .obj [(PyJson.points "type", .str (PyJson.points "tree"))]),
    (PyJson.points "Identity", .obj [(PyJson.points "ServicePrincipalID", .str (PyJson.points "mcp")),
      (PyJson.points "PrincipalID", .str (PyJson.points "agent-1")),
      (PyJson.points "TenantID", .str (PyJson.points "tenant-1")),
      (PyJson.points "ActorType", .str (PyJson.points "AI_AGENT")),
      (PyJson.points "AuthenticationContextRef", .str (PyJson.points "authn-1"))]),
    (PyJson.points "AuthorizationDecisionRef", .str (PyJson.points "decision-1")),
    (PyJson.points "CorrelationID", .str (PyJson.points "c1")),
    (PyJson.points "IdempotencyKey", .str (PyJson.points "k1")),
    (PyJson.points "AttemptID", .str (PyJson.points "11111111-1111-4111-8111-111111111111")),
    (PyJson.points "RequestHash",
      .str (PyJson.points "0000000000000000000000000000000000000000000000000000000000000000")),
    (PyJson.points "MaxResultBytes", .int 1024)]

def searchBody : List UInt8 :=
  Encoding.encode (PyJson.write plainReading.floats PyJson.compact 0 searchValue)

def searchHeaders : List (String × String) :=
  [("x-correlation-id", "c1"), ("IDEMPOTENCY-KEY", "k1"),
    ("X-Tool-Attempt-ID", "11111111-1111-4111-8111-111111111111")]

def searchDispatcher : Dispatcher :=
  ⟨plainReading.outside, "mcp", [("urban.object.search", wildcardRoute)]⟩

theorem init_wildcard : init plainReading.outside (sealed (byId [wildcardRoute])) "mcp" = .ok searchDispatcher := by
  have hroutes : byId [wildcardRoute] = [wildcardRoute] := List.mergeSort_singleton wildcardRoute
  rw [hroutes]
  rfl

theorem fits_texts {limit : Nat} (members : List (String × String)) (h : (members.map (·.1)).Nodup) :
    PyJson.Fits (PyJson.FloatText plainReading.floats) (limit + 1) (.obj
      (members.map fun m => (PyJson.points m.1, .str (PyJson.points m.2)))) := by
  refine .obj (fun m hm => ?_) ?_ fun m hm => ?_
  · obtain ⟨m', -, rfl⟩ := List.mem_map.mp hm
    exact PyJson.valid_points _
  · have hinj := h.map (f := PyJson.points) fun a b hab => PyJson.points_inj hab
    simpa [List.map_map, Function.comp_def] using hinj
  · obtain ⟨m', -, rfl⟩ := List.mem_map.mp hm
    exact .str (PyJson.valid_points _)

theorem loads_searchBody : plainReading.loads searchBody =
    .ok (plainJson (PyJson.stored plainReading.floats searchValue)) := by
  have hfits : PyJson.Fits (PyJson.FloatText plainReading.floats) 900 searchValue := by
    refine .obj (fun m hm => ?_) (by decide) fun m hm => ?_
    · simp only [List.mem_cons, List.not_mem_nil, or_false] at hm
      rcases hm with rfl | rfl | rfl | rfl | rfl | rfl | rfl | rfl | rfl | rfl | rfl | rfl <;>
        exact PyJson.valid_points _
    · simp only [List.mem_cons, List.not_mem_nil, or_false] at hm
      rcases hm with rfl | rfl | rfl | rfl | rfl | rfl | rfl | rfl | rfl | rfl | rfl | rfl
      case inr.inr.inr.inr.inl => exact fits_texts [("type", "tree")] (by decide)
      case inr.inr.inr.inr.inr.inl =>
        exact fits_texts [("ServicePrincipalID", "mcp"), ("PrincipalID", "agent-1"), ("TenantID", "tenant-1"),
          ("ActorType", "AI_AGENT"), ("AuthenticationContextRef", "authn-1")] (by decide)
      case inr.inr.inr.inr.inr.inr.inr.inr.inr.inr.inr => exact .int (by decide)
      all_goals exact .str (PyJson.valid_points _)
  have hlimit : plainReading.limit = 900 := rfl
  rw [Reading.loads, searchBody, hlimit, PyJson.loads_write plainReading.floats PyJson.blanks_compact hfits]
  rfl

def treeSearch : Envelope where
  gatewayBindingRef := "capability://urban.object.search"
  capabilityId := "urban.object.search"
  owner := "udp"
  operationClass := "SEARCH"
  arguments := .obj [("type", .str "tree")]
  identity := ⟨"mcp", "agent-1", "tenant-1", "AI_AGENT", "authn-1"⟩
  authorizationDecisionRef := "decision-1"
  correlationId := "c1"
  idempotencyKey := "k1"
  attemptId := "11111111-1111-4111-8111-111111111111"

def searchView : CapabilityView := ⟨"urban.object.search", "1.0.0", "udp", .search, true, false⟩

set_option maxRecDepth 40000 in
theorem read_search : Envelope.ofJson? plainReading.outside
    (plainJson (PyJson.stored plainReading.floats searchValue)) = some treeSearch := rfl

/-- Every check lets the search through. -/
theorem admitted_search :
    Admitted searchDispatcher searchBody searchHeaders agent treeSearch wildcardRoute searchView := by
  have hloads : searchDispatcher.outside.loads searchBody =
      some (plainJson (PyJson.stored plainReading.floats searchValue)) := by
    have houtside : ∀ rawBody, searchDispatcher.outside.loads rawBody = (plainReading.loads rawBody).toOption :=
      fun _ => rfl
    rw [houtside, loads_searchBody, Except.toOption]
  constructor
  case envelope => exact ⟨_, hloads, read_search⟩
  case bound => rfl
  case view => rfl
  case arguments => decide +kernel
  case size => decide +kernel
  case binding => decide +kernel
  case operation => decide +kernel
  case owner => rfl
  case service => exact ⟨_, rfl, by decide +kernel⟩
  case actor => exact ⟨_, rfl, by decide +kernel⟩
  case human => decide
  case scope => exact ⟨_, rfl, by decide +kernel⟩
  case identity => rfl
  case decision => rfl
  case present => decide +kernel
  case correlation => decide +kernel
  case idempotency => decide +kernel
  case attempt => decide +kernel

theorem search_contained_iff :
    Contained (plainReading.dispatch searchDispatcher (returning fun _ s => (⟨200, [], []⟩, s)) () searchBody
      searchHeaders agent) ↔
    plainReading.loads searchBody ≠ .error .tooManyDigits ∧ plainReading.loads searchBody ≠ .error .tooDeep
      ∧ (∀ v, plainReading.loads searchBody = .ok v → plainReading.exhausts v = false)
      ∧ ∀ e route capability, Admitted searchDispatcher searchBody searchHeaders agent e route capability →
          isWildcard route.uri = false :=
  dispatch_contained_iff compile_wildcard init_wildcard _ () searchBody searchHeaders agent

/-- The configuration is accepted, the request is right, and there is no rewrite to read. -/
theorem wildcard_search_escapes :
    ∃ a d, compileConfig wildcardFiles = .ok a ∧ init plainReading.outside a "mcp" = .ok d
      ∧ ¬ Contained (plainReading.dispatch d (returning fun _ s => (⟨200, [], []⟩, s)) () searchBody searchHeaders
          agent) := by
  refine ⟨_, _, compile_wildcard, init_wildcard, ?_⟩
  have hreadable : ∀ id r, searchDispatcher.registry.get? id = some r → Readable r := by
    intro id r hr
    obtain ⟨hmem, -⟩ := registered init_wildcard hr
    obtain rfl := List.mem_singleton.mp (List.mem_mergeSort.mp hmem)
    exact ⟨⟨_, rfl⟩, ⟨_, rfl⟩, ⟨_, rfl⟩⟩
  have hvet : vet searchDispatcher searchBody searchHeaders agent = .error .raised :=
    (vet_raised_iff hreadable).mpr ⟨_, _, _, admitted_search, prepareCall_emitRoute.mpr (by decide)⟩
  rw [contained_iff, not_not, Reading.dispatch_of_loads loads_searchBody rfl]
  exact dispatch_raised_iff.mpr hvet

end OufGateway.Dispatch
