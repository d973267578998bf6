import Mathlib
import OufGateway.Proofs.Compiler
import OufGateway.Ref.Dispatch

/-!
# The dispatcher cannot be steered

`vet` is a chain of checks, and `Admitted` is what they say when all of them
have passed, written once without their order: `vet_iff` reads the chain
both ways. What is then called is `prepareCall`, which takes the service, the
path and the timeout from the registry route, the identity from the gateway,
and from the request the arguments and the governance triple only. So two
admitted requests that agree on these make one call.

A route is in the registry under the identifier of its own capability, and it
is an internal M2M route of the artifact that admits this service.
-/

namespace OufGateway.Dispatch

open Lib CompileConfig

variable {d : Dispatcher} {rawBody : List UInt8} {requestHeaders : List (String × String)}
  {i : TrustedIdentity} {e : Envelope} {route : CompiledRoute} {capability : CapabilityView}
  {call : UpstreamCall}

/-! ## The registry -/

theorem register_ok {serviceIdentity : String} {routes : List CompiledRoute}
    {registry registry' : Registry} (h : register serviceIdentity routes registry = .ok registry') :
    ∀ entry ∈ registry', entry ∈ registry ∨ entry.2 ∈ routes ∧
      isMcpRoute serviceIdentity entry.2 = true ∧
        ∃ view, entry.2.capability = some view ∧ view.capabilityId = entry.1 := by
  induction routes generalizing registry with
  | nil =>
      obtain rfl := Except.ok.inj h
      exact fun _ hentry => Or.inl hentry
  | cons r routes ih =>
      rw [register] at h
      have hrest : ∀ {registry}, register serviceIdentity routes registry = .ok registry' →
          ∀ entry ∈ registry', entry ∈ registry ∨ entry.2 ∈ r :: routes ∧
            isMcpRoute serviceIdentity entry.2 = true ∧
              ∃ view, entry.2.capability = some view ∧ view.capabilityId = entry.1 :=
        fun h entry hentry => (ih h entry hentry).imp_right fun hmem =>
          ⟨List.mem_cons_of_mem _ hmem.1, hmem.2⟩
      split at h
      · next view hview =>
        split at h
        · next hmcp =>
          split at h
          · cases h
          · intro entry hentry
            rcases hrest h entry hentry with hold | hnew
            · rcases List.mem_append.mp hold with hold | hold
              · exact Or.inl hold
              · obtain rfl := List.mem_singleton.mp hold
                exact Or.inr ⟨List.mem_cons_self, hmcp, view, hview, rfl⟩
            · exact Or.inr hnew
        · exact hrest h
      · exact hrest h

/-- What a registry route is, of the artifact the dispatcher was made from. -/
theorem registered {outside : Outside} {a : Artifact} {serviceIdentity : String}
    (h : init outside a serviceIdentity = .ok d) {capabilityId : String}
    (hroute : d.registry.get? capabilityId = some route) :
    route ∈ a.routes ∧ isMcpRoute serviceIdentity route = true ∧
      ∃ view, route.capability = some view ∧ view.capabilityId = capabilityId := by
  unfold init at h
  cases hregister : register serviceIdentity a.routes [] with
  | error f =>
      rw [hregister] at h
      cases h
  | ok registry =>
      rw [hregister] at h
      obtain rfl := Except.ok.inj h
      obtain ⟨entry, hentry, rfl⟩ := Option.map_eq_some_iff.mp hroute
      have hkey : entry.1 = capabilityId := by simpa using List.find?_some hentry
      subst hkey
      rcases register_ok hregister entry (List.mem_of_find?_eq_some hentry) with hnone | hentry
      · cases hnone
      · exact hentry

/-! ## The checks -/

/-- All that has been checked of an admitted request. -/
structure Admitted (d : Dispatcher) (rawBody : List UInt8)
    (requestHeaders : List (String × String)) (i : TrustedIdentity) (e : Envelope)
    (route : CompiledRoute) (capability : CapabilityView) : Prop where
  envelope : ∃ v, d.outside.loads rawBody = some v ∧ Envelope.ofJson? d.outside v = some e
  bound : d.registry.get? e.capabilityId = some route
  view : route.capability = some capability
  arguments : e.mismatched = false
  size : rawBody.length ≤ route.policy.maxRequestBytes
  binding : e.gatewayBindingRef = "capability://" ++ capability.capabilityId
  operation : e.operationClass = capability.operationType.text
  owner : e.owner = capability.owner
  service : ∃ services, route.policy.allowedServiceIdentities = some services ∧
    i.servicePrincipalId ∈ allowedServices d.serviceIdentity services
  actor : ∃ actors, route.policy.allowedActorTypes = some actors ∧
    (actors ≠ [] → i.actorType ∈ actors)
  human : capability.humanRequired = true → i.actorType = "HUMAN_USER"
  scope : ∃ scope, route.policy.requiredScope = some scope ∧ scope ∈ i.scopes
  identity : e.identity = i.claims
  decision : e.authorizationDecisionRef = i.authorizationDecisionRef
  present : ∀ name ∈ requiredHeaders, (header? requestHeaders name).getD "" ≠ ""
  correlation : header? requestHeaders "X-Correlation-ID" = some e.correlationId
  idempotency : header? requestHeaders "Idempotency-Key" = some e.idempotencyKey
  attempt : header? requestHeaders "X-Tool-Attempt-ID" = some e.attemptId

theorem readEnvelope_ok {o : Outside} : readEnvelope o rawBody = .ok e ↔
    ∃ v, o.loads rawBody = some v ∧ Envelope.ofJson? o v = some e := by
  unfold readEnvelope refuse
  cases o.loads rawBody with
  | none => simp
  | some v => cases h : Envelope.ofJson? o v <;> simp [h]

theorem findRoute_ok : findRoute d e = .ok (route, capability) ↔
    d.registry.get? e.capabilityId = some route ∧ e.mismatched = false ∧
      route.capability = some capability := by
  unfold findRoute refuse
  cases d.registry.get? e.capabilityId with
  | none => simp
  | some r =>
      simp only [guard_eq_ok, Option.some.injEq, Bool.not_eq_true]
      cases hc : r.capability with
      | none =>
          constructor
          · rintro ⟨-, h⟩
            cases h
          · rintro ⟨rfl, -, h⟩
            rw [hc] at h
            cases h
      | some c =>
          constructor
          · rintro ⟨hmismatched, h⟩
            cases h
            exact ⟨rfl, hmismatched, hc⟩
          · rintro ⟨rfl, hmismatched, h⟩
            rw [hc] at h
            cases h
            exact ⟨hmismatched, rfl⟩

theorem checkBinding_ok {size : Nat} : checkBinding route capability size e = .ok () ↔
    size ≤ route.policy.maxRequestBytes ∧
      e.gatewayBindingRef = "capability://" ++ capability.capabilityId ∧
        e.operationClass = capability.operationType.text ∧ e.owner = capability.owner := by
  unfold checkBinding refuse
  simp only [guard_eq_ok, not_lt, not_not, and_true]

theorem checkIdentity_ok : checkIdentity d route capability e i = .ok () ↔
    (∃ services, route.policy.allowedServiceIdentities = some services ∧
      i.servicePrincipalId ∈ allowedServices d.serviceIdentity services) ∧
    (∃ actors, route.policy.allowedActorTypes = some actors ∧
      (actors ≠ [] → i.actorType ∈ actors)) ∧
    (capability.humanRequired = true → i.actorType = "HUMAN_USER") ∧
    (∃ scope, route.policy.requiredScope = some scope ∧ scope ∈ i.scopes) ∧
    e.identity = i.claims ∧ e.authorizationDecisionRef = i.authorizationDecisionRef := by
  unfold checkIdentity refuse
  cases route.policy.allowedServiceIdentities with
  | none => simp
  | some services =>
      cases route.policy.allowedActorTypes with
      | none => simp
      | some actors =>
          simp only [guard_eq_ok, not_not, not_and, not_forall, Option.mem_def, exists_prop,
            and_true, Option.some.injEq, exists_eq_left', ne_eq]

theorem checkPresent_ok {names : List String} : checkPresent requestHeaders names = .ok () ↔
    ∀ name ∈ names, (header? requestHeaders name).getD "" ≠ "" := by
  induction names with
  | nil => simp [checkPresent]
  | cons name names ih =>
      unfold checkPresent refuse
      rw [guard_eq_ok, ih, List.forall_mem_cons]

theorem checkHeaders_ok : checkHeaders requestHeaders e = .ok () ↔
    header? requestHeaders "X-Correlation-ID" = some e.correlationId ∧
      header? requestHeaders "Idempotency-Key" = some e.idempotencyKey ∧
        header? requestHeaders "X-Tool-Attempt-ID" = some e.attemptId := by
  unfold checkHeaders refuse
  simp only [guard_eq_ok, not_or, not_not, and_true]

/-- The chain of checks, both ways. -/
theorem vet_iff : vet d rawBody requestHeaders i = .ok call ↔
    ∃ e route capability, Admitted d rawBody requestHeaders i e route capability ∧
      prepareCall route capability e i = .ok call := by
  simp only [vet, bind_eq_ok, readEnvelope_ok]
  constructor
  · rintro ⟨e, henvelope, ⟨route, capability⟩, hroute, _, hbinding, _, hidentity, _, hpresent, _,
      hheaders, hcall⟩
    obtain ⟨hbound, harguments, hview⟩ := findRoute_ok.mp hroute
    obtain ⟨hsize, href, hoperation, howner⟩ := checkBinding_ok.mp hbinding
    obtain ⟨hservice, hactor, hhuman, hscope, hsame, hdecision⟩ := checkIdentity_ok.mp hidentity
    obtain ⟨hcorrelation, hidempotency, hattempt⟩ := checkHeaders_ok.mp hheaders
    exact ⟨e, route, capability, ⟨henvelope, hbound, hview, harguments, hsize, href, hoperation,
      howner, hservice, hactor, hhuman, hscope, hsame, hdecision, checkPresent_ok.mp hpresent,
      hcorrelation, hidempotency, hattempt⟩, hcall⟩
  · rintro ⟨e, route, capability, h, hcall⟩
    exact ⟨e, h.envelope, (route, capability), findRoute_ok.mpr ⟨h.bound, h.arguments, h.view⟩,
      (), checkBinding_ok.mpr ⟨h.size, h.binding, h.operation, h.owner⟩,
      (), checkIdentity_ok.mpr ⟨h.service, h.actor, h.human, h.scope, h.identity, h.decision⟩,
      (), checkPresent_ok.mpr h.present,
      (), checkHeaders_ok.mpr ⟨h.correlation, h.idempotency, h.attempt⟩, hcall⟩

/-! ## The call -/

/-- What an admitted request makes of the upstream call. -/
structure Forwards (route : CompiledRoute) (e : Envelope) (i : TrustedIdentity)
    (call : UpstreamCall) : Prop where
  service : route.serviceId = some call.service
  path : route.proxyRewrite = some call.path
  timeout : call.timeoutSeconds = route.policy.timeoutSeconds
  body : call.body = Json.dumps argumentsFormat e.arguments
  names : call.headers.map (·.1) = ["Content-Type", "X-Correlation-ID", "Idempotency-Key",
    "X-Tool-Attempt-ID", "X-OUF-Capability-ID", "X-OUF-Actor-Type", "X-OUF-Principal-ID",
    "X-OUF-Tenant-ID", "X-OUF-Authorization-Decision-Ref"]
  capability : ("X-OUF-Capability-ID", e.capabilityId) ∈ call.headers
  actor : ("X-OUF-Actor-Type", i.actorType) ∈ call.headers
  principal : ("X-OUF-Principal-ID", i.principalId) ∈ call.headers
  tenant : ("X-OUF-Tenant-ID", i.tenantId) ∈ call.headers
  decision : ("X-OUF-Authorization-Decision-Ref", i.authorizationDecisionRef) ∈ call.headers

theorem prepareCall_ok (h : prepareCall route capability e i = .ok call) :
    ∃ service path, route.serviceId = some service ∧ route.proxyRewrite = some path ∧
      call = ⟨service, path, Json.dumps argumentsFormat e.arguments,
        downstreamHeaders capability e i, route.policy.timeoutSeconds⟩ := by
  unfold prepareCall at h
  split at h
  · next service path hservice hpath =>
    exact ⟨service, path, hservice, hpath, (Except.ok.inj h).symm⟩
  · cases h

theorem forwards_of_admitted (h : Admitted d rawBody requestHeaders i e route capability)
    (hid : capability.capabilityId = e.capabilityId)
    (hcall : prepareCall route capability e i = .ok call) : Forwards route e i call := by
  obtain ⟨service, path, hservice, hpath, rfl⟩ := prepareCall_ok hcall
  refine ⟨hservice, hpath, rfl, rfl, rfl, ?_, ?_, ?_, ?_, ?_⟩
  all_goals
    simp only [downstreamHeaders, ← hid, ← h.decision, List.mem_cons, true_or, or_true]

/-- Admitted requests that agree on the capability, the arguments, the governance triple
and the identity make one call. -/
theorem prepareCall_congr {e' : Envelope} {capability' : CapabilityView} {call' : UpstreamCall}
    (hview : route.capability = some capability) (hview' : route.capability = some capability')
    (harguments : e.arguments = e'.arguments) (hcorrelation : e.correlationId = e'.correlationId)
    (hidempotency : e.idempotencyKey = e'.idempotencyKey) (hattempt : e.attemptId = e'.attemptId)
    (hdecision : e.authorizationDecisionRef = e'.authorizationDecisionRef)
    (h : prepareCall route capability e i = .ok call)
    (h' : prepareCall route capability' e' i = .ok call') : call = call' := by
  obtain rfl := Option.some.inj (hview.symm.trans hview')
  obtain ⟨service, path, hservice, hpath, rfl⟩ := prepareCall_ok h
  obtain ⟨service', path', hservice', hpath', rfl⟩ := prepareCall_ok h'
  obtain rfl := Option.some.inj (hservice.symm.trans hservice')
  obtain rfl := Option.some.inj (hpath.symm.trans hpath')
  simp only [downstreamHeaders, harguments, hcorrelation, hidempotency, hattempt, hdecision]

/-! ## One dispatch -/

section Upstream

variable {σ : Type} {execute : Upstream σ} {s : σ}

theorem dispatch_calls : (dispatch d execute s rawBody requestHeaders i).calls =
    (vet d rawBody requestHeaders i).toOption.toList := by
  unfold dispatch
  cases vet d rawBody requestHeaders i with
  | error f => rfl
  | ok call =>
      simp only []
      split <;> rfl

theorem dispatch_answer {r : BackendResponse}
    (h : (dispatch d execute s rawBody requestHeaders i).answer = .ok r) :
    ∃ call backend, (execute call s).1 = .ok backend ∧ r.status = backend.status ∧
      r.body = backend.body ∧ r.headers = safeHeaders backend.headers := by
  unfold dispatch at h
  split at h
  · cases h
  · next call _ =>
    split at h
    · cases h
    · next backend s' hexecute =>
      obtain rfl := Except.ok.inj h
      exact ⟨call, backend, by rw [hexecute], rfl, rfl, rfl⟩

end Upstream

/-- For every artifact: a dispatch calls the upstream at most once, after all checks have
passed, with what the registry route, the identity and the arguments say; requests that
agree on these make one call; and of the response's headers only those to be forwarded
come back. -/
theorem dispatch_not_steered {outside : Outside} {a : Artifact} {serviceIdentity : String}
    (h : init outside a serviceIdentity = .ok d) (σ : Type) (execute : Upstream σ) :
    (∀ s rawBody requestHeaders i,
      (dispatch d execute s rawBody requestHeaders i).calls = [] ∨
        ∃ e route capability call, Admitted d rawBody requestHeaders i e route capability ∧
          route ∈ a.routes ∧ isMcpRoute serviceIdentity route = true ∧
          capability.capabilityId = e.capabilityId ∧ Forwards route e i call ∧
          (dispatch d execute s rawBody requestHeaders i).calls = [call]) ∧
    (∀ s s' rawBody rawBody' requestHeaders requestHeaders' i e e' call call',
      (dispatch d execute s rawBody requestHeaders i).calls = [call] →
      (dispatch d execute s' rawBody' requestHeaders' i).calls = [call'] →
      readEnvelope outside rawBody = .ok e → readEnvelope outside rawBody' = .ok e' →
      e.capabilityId = e'.capabilityId → e.arguments = e'.arguments →
      e.correlationId = e'.correlationId → e.idempotencyKey = e'.idempotencyKey →
      e.attemptId = e'.attemptId → call = call') ∧
    ∀ s rawBody requestHeaders i r,
      (dispatch d execute s rawBody requestHeaders i).answer = .ok r →
        ∀ header ∈ r.headers, lower header.1 ∈ forwardedResponseHeaders := by
  have houtside : d.outside = outside := by
    unfold init at h
    cases hregister : register serviceIdentity a.routes [] with
    | error f =>
        rw [hregister] at h
        cases h
    | ok registry =>
        rw [hregister] at h
        obtain rfl := Except.ok.inj h
        rfl
  refine ⟨?_, ?_, ?_⟩
  · intro s rawBody requestHeaders i
    rw [dispatch_calls]
    cases hvet : vet d rawBody requestHeaders i with
    | error f => exact Or.inl rfl
    | ok call =>
        obtain ⟨e, route, capability, hadmitted, hcall⟩ := vet_iff.mp hvet
        obtain ⟨hmem, hmcp, view, hview, hid⟩ := registered h hadmitted.bound
        obtain rfl := Option.some.inj (hadmitted.view.symm.trans hview)
        exact Or.inr ⟨e, route, capability, call, hadmitted, hmem, hmcp, hid,
          forwards_of_admitted hadmitted hid hcall, rfl⟩
  · intro s s' rawBody rawBody' requestHeaders requestHeaders' i e e' call call' hcalls hcalls'
      he he' hcapability harguments hcorrelation hidempotency hattempt
    rw [dispatch_calls] at hcalls hcalls'
    cases hvet : vet d rawBody requestHeaders i with
    | error f =>
        rw [hvet] at hcalls
        cases hcalls
    | ok c =>
        cases hvet' : vet d rawBody' requestHeaders' i with
        | error f =>
            rw [hvet'] at hcalls'
            cases hcalls'
        | ok c' =>
            rw [hvet] at hcalls
            rw [hvet'] at hcalls'
            obtain rfl : c = call := (List.cons.inj hcalls).1
            obtain rfl : c' = call' := (List.cons.inj hcalls').1
            obtain ⟨e₁, route, capability, hadmitted, hcall⟩ := vet_iff.mp hvet
            obtain ⟨e₂, route', capability', hadmitted', hcall'⟩ := vet_iff.mp hvet'
            have he₁ := readEnvelope_ok.mpr (houtside ▸ hadmitted.envelope)
            have he₂ := readEnvelope_ok.mpr (houtside ▸ hadmitted'.envelope)
            obtain rfl : e = e₁ := Except.ok.inj (he.symm.trans he₁)
            obtain rfl : e' = e₂ := Except.ok.inj (he'.symm.trans he₂)
            have hbound := hadmitted'.bound
            rw [← hcapability, hadmitted.bound] at hbound
            obtain rfl := Option.some.inj hbound
            exact prepareCall_congr hadmitted.view hadmitted'.view harguments hcorrelation
              hidempotency hattempt (hadmitted.decision.trans hadmitted'.decision.symm) hcall hcall'
  · intro s rawBody requestHeaders i r hanswer header hheader
    obtain ⟨-, backend, -, -, -, hheaders⟩ := dispatch_answer hanswer
    rw [hheaders, safeHeaders, List.mem_filter] at hheader
    exact of_decide_eq_true hheader.2

/-! ## A tool call -/

def searchRoute : CompiledRoute where
  id := "object-search"
  uri := "/internal/v1/objects/search"
  methods := [.post]
  vars := none
  upstreamId := some "udp@1.0.0"
  serviceId := some "ouf-udp"
  labels :=
    { capability := some "urban.object.search@1.0.0", source := some "udp@1.0.0"
      exposure := .internal }
  backendBinding := some ⟨"ouf-udp", 8080, "/internal/v1/objects/search"⟩
  limit := 100
  proxyRewrite := some "/internal/v1/objects/search"
  trustedIdentity := none
  mediation := none
  policy := ⟨.m2m, some [installationMcpRef], some ["AI_AGENT"], none, some "urban.search", 4096, 3⟩
  capability := some ⟨"urban.object.search", "1.0.0", "udp", .search, true, false⟩
  queryContract := .obj []
  recoveryBinding := none

def searchEnvelope : Json :=
  .obj [("GatewayBindingRef", .str "capability://urban.object.search"),
    ("CapabilityID", .str "urban.object.search"), ("Owner", .str "udp"),
    ("OperationClass", .str "SEARCH"), ("Arguments", .obj [("type", .str "tree")]),
    ("Identity", .obj [("ServicePrincipalID", .str "mcp"), ("PrincipalID", .str "agent-1"),
      ("TenantID", .str "tenant-1"), ("ActorType", .str "AI_AGENT"),
      ("AuthenticationContextRef", .str "authn-1")]),
    ("AuthorizationDecisionRef", .str "decision-1"), ("CorrelationID", .str "c1"),
    ("IdempotencyKey", .str "k1"), ("AttemptID", .str "a1"),
    ("RequestHash", .str (String.ofList (List.replicate 64 '0'))), ("MaxResultBytes", .int 1024)]

def agent : TrustedIdentity :=
  ⟨"mcp", "agent-1", "tenant-1", "AI_AGENT", "authn-1", "decision-1", ["urban.search"]⟩

def outside : Outside := ⟨fun _ => some searchEnvelope, fun _ => true, fun _ => ""⟩

def tripleHeaders : List (String × String) :=
  [("x-correlation-id", "c1"), ("IDEMPOTENCY-KEY", "k1"), ("X-Tool-Attempt-ID", "a1")]

/-- The call of a search goes to the route's service in the agent's name. -/
theorem dispatch_search : ∃ call, (dispatch ⟨outside, "mcp", [("urban.object.search", searchRoute)]⟩
      (fun _ s => (.error (), s)) () [] tripleHeaders agent).calls = [call] ∧
    call.service = "ouf-udp" ∧ ("X-OUF-Principal-ID", "agent-1") ∈ call.headers := by
  have hinit : init outside (sealed [searchRoute]) "mcp" =
      .ok ⟨outside, "mcp", [("urban.object.search", searchRoute)]⟩ := rfl
  have hcalls : (dispatch ⟨outside, "mcp", [("urban.object.search", searchRoute)]⟩
      (fun _ s => (.error (), s)) () [] tripleHeaders agent).calls.length = 1 := by decide +kernel
  rcases (dispatch_not_steered hinit Unit fun _ s => (.error (), s)).1 () [] tripleHeaders agent with
    hnone | ⟨e, route, capability, call, -, hroute, -, -, hforwards, hcall⟩
  · rw [hnone] at hcalls
    cases hcalls
  · obtain rfl := List.mem_singleton.mp hroute
    exact ⟨call, hcall, (Option.some.inj hforwards.service).symm, hforwards.principal⟩
end OufGateway.Dispatch
