import Mathlib
import OufGateway.Lib.Except
import OufGateway.Ref.Projection
import OufGateway.Proofs.Compiler

/-!
# What a projection leaves unresolved

Of the values a projection replaces, only the service identities of a route are checked
once they are replaced. The audience is compared with one reference and is left alone if
it is another, and what it is replaced by is not looked at; neither is the identity a
mediation gets. So a projection that is applied resolves every reference if and only if
the audiences of the artifact and the two fields of the projection that go in unchecked
do not stand in the way; what else is in the artifact is always left as it was.
-/

namespace OufGateway.Projection

open Lib CompileConfig

variable {f : Fields} {bindings : List (String × Json)} {projection : Json} {a : Artifact}
  {out : Projected} {r : CompiledRoute} {p : ProjectedRoute}

/-! ## The claim of a projection -/

/-- No reference of the installation is left where one is resolved. -/
structure Resolved (p : ProjectedRoute) : Prop where
  allowed : ∀ l, p.route.policy.allowedServiceIdentities = some l → ∀ v ∈ l, isReference v = false
  audience : ∀ v, p.route.policy.requiredAudience = some v → isReference v = false
  mediation : ∀ m, p.route.mediation = some m → isReference m.serviceIdentityRef = true →
    ∃ s, p.serviceIdentity = some s ∧ isReference s = false

/-- A route without the values a projection may replace. -/
def blank (r : CompiledRoute) : CompiledRoute :=
  { r with
    policy := { r.policy with allowedServiceIdentities := none, requiredAudience := none }
    backendBinding := none }

/-- What is no reference stays. -/
def Stays (v w : String) : Prop := isReference v = false → w = v

/-- A service that is not mapped stays, and so does the rest of its binding. -/
def Bound (bindings : List (String × Json)) (b b' : BackendBinding) : Prop :=
  { b' with service := b.service } = b ∧ (Json.ofLookup bindings b.service = none → b' = b)

structure Framed (bindings : List (String × Json)) (r : CompiledRoute) (p : ProjectedRoute) :
    Prop where
  rest : blank p.route = blank r
  allowed : Option.Rel (List.Forall₂ Stays) r.policy.allowedServiceIdentities
    p.route.policy.allowedServiceIdentities
  audience : Option.Rel Stays r.policy.requiredAudience p.route.policy.requiredAudience
  backend : Option.Rel (Bound bindings) r.backendBinding p.route.backendBinding

/-! ## The steps -/

theorem resolveIdentity_stays (v : String) : Stays v (resolveIdentity f v) := by
  intro hv
  unfold resolveIdentity
  have hne : ∀ ref, isReference ref = true → v ≠ ref := by
    rintro ref href rfl
    rw [hv] at href
    cases href
  rw [if_neg (hne _ (by decide)), if_neg (hne _ (by decide)), if_neg (hne _ (by decide)),
    if_neg (hne _ (by decide))]

theorem resolveAllowed_ok {allowed resolved : Option (List String)}
    (h : resolveAllowed f allowed = .ok resolved) :
    Option.Rel (List.Forall₂ Stays) allowed resolved ∧
      ∀ l, resolved = some l → ∀ v ∈ l, isReference v = false := by
  cases allowed with
  | none =>
      obtain rfl := Except.ok.inj h
      exact ⟨.none, fun l hl => by cases hl⟩
  | some allowed =>
      simp only [resolveAllowed, guard_eq_ok] at h
      obtain ⟨hnone, h⟩ := h
      obtain rfl := Except.ok.inj h
      refine ⟨.some ?_, fun l hl v hv => ?_⟩
      · rw [List.forall₂_map_right_iff]
        exact List.forall₂_same.mpr fun v _ => resolveIdentity_stays v
      · obtain rfl := Option.some.inj hl
        rw [← Bool.not_eq_true]
        exact fun href => hnone (List.any_eq_true.mpr ⟨v, hv, href⟩)

theorem resolveAudience_stays (v : String) : Stays v (resolveAudience f v) := by
  intro hv
  refine if_neg ?_
  rintro rfl
  exact absurd hv (by decide)

theorem bindService_ok {b b' : Option BackendBinding} (h : bindService bindings b = .ok b') :
    Option.Rel (Bound bindings) b b' := by
  cases b with
  | none =>
      obtain rfl := Except.ok.inj h
      exact .none
  | some b =>
      unfold bindService at h
      simp only [] at h
      split at h
      · obtain rfl := Except.ok.inj h
        exact .some ⟨rfl, fun _ => rfl⟩
      · next s hs =>
        simp only [guard_eq_ok] at h
        obtain ⟨-, h⟩ := h
        obtain rfl := Except.ok.inj h
        exact .some ⟨rfl, fun hnone => by rw [hs] at hnone; cases hnone⟩
      · cases h

/-- The step of the loop. -/
theorem projectRoute_ok (h : projectRoute f bindings r = .ok p) :
    Framed bindings r p ∧
      (∀ l, p.route.policy.allowedServiceIdentities = some l → ∀ v ∈ l, isReference v = false) ∧
      p.route.policy.requiredAudience = r.policy.requiredAudience.map (resolveAudience f) ∧
      p.route.mediation = r.mediation ∧
      p.serviceIdentity = (r.mediation.filter (·.serviceIdentityRef = mcpServerRef)).map fun _ => f.mcp := by
  simp only [projectRoute, bind_eq_ok] at h
  obtain ⟨allowed, hallowed, backend, hbackend, h⟩ := h
  obtain rfl := Except.ok.inj h
  obtain ⟨hstays, hresolved⟩ := resolveAllowed_ok hallowed
  refine ⟨⟨rfl, hstays, ?_, bindService_ok hbackend⟩, hresolved, rfl, rfl, rfl⟩
  cases r.policy.requiredAudience with
  | none => exact .none
  | some v => exact .some (resolveAudience_stays v)

/-- Every route of the result comes from the route in its place. -/
theorem projectRoutes_ok {routes : List CompiledRoute} {ps : List ProjectedRoute}
    (h : projectRoutes f bindings routes = .ok ps) :
    List.Forall₂ (fun r p => projectRoute f bindings r = .ok p) routes ps := by
  induction routes generalizing ps with
  | nil =>
      obtain rfl := Except.ok.inj h
      exact .nil
  | cons r routes ih =>
      simp only [projectRoutes, bind_eq_ok] at h
      obtain ⟨p, hp, rest, hrest, h⟩ := h
      obtain rfl := Except.ok.inj h
      exact .cons hp (ih hrest)

theorem readFields_ok (h : readFields projection = .ok f) :
    require projection ["iam", "workloadClients", "mcpServer"] = .ok f.mcp ∧
      require projection ["gateway", "requiredAudience"] = .ok f.audience := by
  simp only [readFields, bind_eq_ok] at h
  obtain ⟨mcp, hmcp, ingestion, -, udp, -, semantic, -, projected, -, h⟩ := h
  simp only [guard_eq_ok, bind_eq_ok] at h
  obtain ⟨-, audience, haudience, issuer, -, apiBase, -, h⟩ := h
  obtain rfl := Except.ok.inj h
  exact ⟨hmcp, haudience⟩

theorem applyProjection_ok (h : applyProjection a projection = .ok out) :
    ∃ f bindings, readFields projection = .ok f ∧ readBindings projection = .ok bindings ∧
      projectRoutes f bindings a.routes = .ok out.routes := by
  simp only [applyProjection, bind_eq_ok] at h
  obtain ⟨f, hf, bindings, hbindings, routes, hroutes, installationId, -, checksum, -, h⟩ := h
  split at h
  · obtain rfl := Except.ok.inj h
    exact ⟨f, bindings, hf, hbindings, hroutes⟩
  · cases h

/-! ## The condition -/

/-- The values that go into the result unchecked are no references. -/
structure Resolvable (a : Artifact) (projection : Json) : Prop where
  other : ∀ r ∈ a.routes, ∀ v, r.policy.requiredAudience = some v → v ≠ audienceRef →
    isReference v = false
  audience : ∀ r ∈ a.routes, r.policy.requiredAudience = some audienceRef →
    ∀ s, require projection ["gateway", "requiredAudience"] = .ok s → isReference s = false
  mcp : ∀ r ∈ a.routes, r.mediation.isSome = true →
    ∀ s, require projection ["iam", "workloadClients", "mcpServer"] = .ok s → isReference s = false

/-- The schema fixes the reference of a mediation. -/
theorem mediation_ref {files : List (String × Loaded)} (h : compileConfig files = .ok a)
    (hr : r ∈ a.routes) {m : Mediation} (hm : r.mediation = some m) :
    m.serviceIdentityRef = mcpServerRef := by
  obtain ⟨docs, hload, hcompile⟩ := compileConfig_ok h
  obtain ⟨-, hvalid⟩ := loadDocuments_ok hload
  obtain ⟨c⟩ := compileDocuments_ok hcompile
  obtain ⟨⟨path, d⟩, hd, hroute⟩ := c.mem_routes.mp hr
  rcases hroute with hroute | hroute | hroute
  · cases d with
    | routeBinding b =>
        simp only [routeOf, Option.bind_eq_some_iff, Option.map_eq_some_iff] at hroute
        obtain ⟨capability, -, source, -, rfl⟩ := hroute
        cases hm
    | _ => cases hroute
  · cases d with
    | mcpEndpointBinding b =>
        obtain rfl := Option.some.inj hroute
        cases hm
    | _ => cases hroute
  · cases d with
    | mcpMediationBinding b =>
        obtain rfl := Option.some.inj hroute
        obtain rfl := Option.some.inj hm
        have hb := hvalid _ hd
        simp only [Document.valid, McpMediationBinding.valid, Bool.and_eq_true,
          decide_eq_true_eq] at hb
        exact hb.1.1.1.2
    | _ => cases hroute

/-- What one route of the result has, given the field that went into it. -/
theorem resolved_iff (hp : projectRoute f bindings r = .ok p)
    (hm : ∀ m, r.mediation = some m → m.serviceIdentityRef = mcpServerRef) :
    Resolved p ↔
      (∀ v, r.policy.requiredAudience = some v → isReference (resolveAudience f v) = false) ∧
        (r.mediation.isSome = true → isReference f.mcp = false) := by
  obtain ⟨-, hallowed, haudience, hmediation, hidentity⟩ := projectRoute_ok hp
  have hreference : isReference mcpServerRef = true := by decide
  constructor
  · intro h
    refine ⟨fun v hv => h.audience _ (by rw [haudience, hv, Option.map_some]), fun hsome => ?_⟩
    obtain ⟨m, hrm⟩ := Option.isSome_iff_exists.mp hsome
    obtain ⟨s, hs, href⟩ := h.mediation m (hmediation.trans hrm) (hm m hrm ▸ hreference)
    rw [hidentity, hrm, Option.filter_some, if_pos (decide_eq_true (hm m hrm)), Option.map_some,
      Option.some.injEq] at hs
    rw [hs]
    exact href
  · rintro ⟨hleft, hmcp⟩
    refine ⟨hallowed, fun w hw => ?_, fun m hrm _ => ?_⟩
    · rw [haudience, Option.map_eq_some_iff] at hw
      obtain ⟨v, hv, rfl⟩ := hw
      exact hleft v hv
    · rw [hmediation] at hrm
      refine ⟨f.mcp, ?_, hmcp (by rw [hrm]; rfl)⟩
      rw [hidentity, hrm, Option.filter_some, if_pos (decide_eq_true (hm m hrm)), Option.map_some]

theorem resolvable_iff (hf : readFields projection = .ok f) : Resolvable a projection ↔
    ∀ r ∈ a.routes,
      (∀ v, r.policy.requiredAudience = some v → isReference (resolveAudience f v) = false) ∧
        (r.mediation.isSome = true → isReference f.mcp = false) := by
  obtain ⟨hmcp, haudience⟩ := readFields_ok hf
  constructor
  · intro h r hr
    refine ⟨fun v hv => ?_, fun hsome => h.mcp r hr hsome _ hmcp⟩
    unfold resolveAudience
    split
    · next heq => exact h.audience r hr (heq ▸ hv) _ haudience
    · next hne => exact h.other r hr v hv hne
  · intro h
    refine ⟨fun r hr v hv hne => ?_, fun r hr hv s hs => ?_, fun r hr hsome s hs => ?_⟩
    · have hstays := (h r hr).1 v hv
      rwa [resolveAudience, if_neg hne] at hstays
    · have hreplaced := (h r hr).1 _ hv
      rw [resolveAudience, if_pos rfl] at hreplaced
      obtain rfl := Except.ok.inj (haudience.symm.trans hs)
      exact hreplaced
    · obtain rfl := Except.ok.inj (hmcp.symm.trans hs)
      exact (h r hr).2 hsome

theorem forall_resolved_iff {routes : List CompiledRoute} {ps : List ProjectedRoute}
    (h : List.Forall₂ (fun r p => projectRoute f bindings r = .ok p) routes ps)
    (hrefs : ∀ r ∈ routes, ∀ m, r.mediation = some m → m.serviceIdentityRef = mcpServerRef) :
    (∀ p ∈ ps, Resolved p) ↔ ∀ r ∈ routes,
      (∀ v, r.policy.requiredAudience = some v → isReference (resolveAudience f v) = false) ∧
        (r.mediation.isSome = true → isReference f.mcp = false) := by
  induction h with
  | nil => simp
  | cons hp hrest ih =>
      rw [List.forall_mem_cons, List.forall_mem_cons, resolved_iff hp (hrefs _ List.mem_cons_self),
        ih fun r hr => hrefs r (List.mem_cons_of_mem _ hr)]

/-- A projection that is applied leaves everything else as it was, and it resolves every
reference exactly when the values it does not check are none. -/
theorem applyProjection_iff {files : List (String × Loaded)} (hcompile : compileConfig files = .ok a)
    (h : applyProjection a projection = .ok out) :
    ((∃ bindings, readBindings projection = .ok bindings ∧
        List.Forall₂ (Framed bindings) a.routes out.routes) ∧ ∀ p ∈ out.routes, Resolved p) ↔
      Resolvable a projection := by
  obtain ⟨f, bindings, hf, hbindings, hroutes⟩ := applyProjection_ok h
  have hsteps := projectRoutes_ok hroutes
  have hframed : List.Forall₂ (Framed bindings) a.routes out.routes :=
    hsteps.imp fun r p hp => (projectRoute_ok hp).1
  rw [resolvable_iff hf, ← forall_resolved_iff hsteps fun r hr m hm => mediation_ref hcompile hr hm]
  exact ⟨fun hboth => hboth.2, fun hall => ⟨⟨bindings, hbindings, hframed⟩, hall⟩⟩

/-! ## An audience of another name -/

/-- A client of the workloads, an audience, and what else a projection must have. -/
def labProjection : Json :=
  .obj [
    ("installationId", .str "lab"), ("revision", .int 1), ("checksum", .str "c0"),
    ("iam", .obj [("workloadClients", .obj [("mcpServer", .str "mcp"),
      ("ingestion", .str "ingestion"), ("udp", .str "udp"), ("semantic", .str "semantic")])]),
    ("mcp", .obj [("environment", .obj [("MCP_OIDC_CLIENT_ID", .str "mcp")])]),
    ("gateway", .obj [("requiredAudience", .str "gateway"), ("issuerUrl", .str "issuer"),
      ("publicApiBaseUrl", .str "api")])]

def labEndpoint (audience : String) : McpEndpointBinding where
  metadata := ⟨"mcp", "1.0.0"⟩
  exposure := .toPublic
  sourceRef := "mcp-server@1.0.0"
  method := .post
  path := "/mcp"
  backendBinding := ⟨"mcp-server", 8080, "/mcp"⟩
  identity := .oidc
  requiredAudience := audience
  requiredScope := "mcp.use"
  allowedActorTypes := ["HUMAN"]
  maxRequestBytes := 1024
  timeoutSeconds := 5
  stripClientHeaders := requiredTrusted
  claimProjection := claimSources.map fun s => (s.1, s.2.head!)

def labFiles (audience : String) : List (String × Loaded) :=
  [("endpoint.yaml", .document (.mcpEndpointBinding (labEndpoint audience))),
    ("server.yaml", .document (.sourceRuntimeProfile
      ⟨⟨"mcp-server", "1.0.0"⟩, "service://mcp-server/mcp", none⟩))]

def labArtifact (audience : String) : Artifact := sealed (byId [emitEndpoint (labEndpoint audience)])

def labFields : Fields := ⟨"mcp", "ingestion", "udp", "semantic", "gateway", "issuer", "api"⟩

def labInstallation : Installation := ⟨"lab", .int 1, "c0", labFields, []⟩

/-- The endpoint with the audience that is compared and put in its place. -/
def labRoute (audience : String) : ProjectedRoute where
  route := { emitEndpoint (labEndpoint audience) with
    policy := { (emitEndpoint (labEndpoint audience)).policy with
      requiredAudience := some (resolveAudience labFields audience) } }
  serviceIdentity := none

theorem serializable_strings (l : List String) : (strings l).serializable = true := by
  unfold strings Json.serializable
  induction l with
  | nil => rfl
  | cons s l ih =>
      simp only [List.map_cons, Json.serializableList, ih, Json.serializable, Bool.and_self]

theorem serializable_labRoute (audience : String) :
    (baseJson [labRoute audience] labInstallation).serializable = true := by
  have hinstallation : labInstallation.toJson.serializable = true := rfl
  simp [baseJson, Json.serializable, Json.serializableMembers, Json.serializableList, hinstallation,
    labRoute, ProjectedRoute.toJson, emitEndpoint, CompiledRoute.toJson, present,
    serializable_strings, TrustedHeaders.toJson, Policy.toJson, mcpProtocol, orNull, pluginsJson,
    Labels.toJson, BackendBinding.toJson, labEndpoint, claimSources, Json.ofOption]

theorem applyProjection_labArtifact (audience : String) :
    applyProjection (labArtifact audience) labProjection =
      .ok ⟨[labRoute audience], labInstallation,
        Sha256.ofText (canonical (baseJson [labRoute audience] labInstallation))⟩ := by
  have hsealed : labArtifact audience = sealed [emitEndpoint (labEndpoint audience)] := by
    rw [labArtifact, byId, List.mergeSort_singleton]
  have hfields : readFields labProjection = .ok labFields := rfl
  have hbindings : readBindings labProjection = .ok [] := rfl
  have hid : require labProjection ["installationId"] = .ok "lab" := rfl
  have hchecksum : require labProjection ["checksum"] = .ok "c0" := rfl
  have hroutes : projectRoutes labFields [] (sealed [emitEndpoint (labEndpoint audience)]).routes =
      .ok [labRoute audience] := rfl
  have hrevision : (labProjection.get? "revision").getD .null = .int 1 := rfl
  rw [hsealed]
  simp only [applyProjection, hfields, hbindings, hid, hchecksum, hroutes, hrevision, bind_eq_ok,
    Except.ok.injEq, exists_eq_left', List.mergeSort_nil]
  exact if_pos (serializable_labRoute audience)

/-- The reference of another audience is in the result as it was. -/
theorem projected_otherAudience : ∃ a out,
    compileConfig (labFiles "installation://iam.otherAudience") = .ok a ∧
      applyProjection a labProjection = .ok out ∧ ¬ ∀ p ∈ out.routes, Resolved p := by
  refine ⟨labArtifact _, _, rfl, applyProjection_labArtifact _, fun h => ?_⟩
  have hleft := (h _ (List.mem_singleton_self _)).audience _ rfl
  exact absurd hleft (by decide)

theorem projected_gatewayAudience : ((∃ bindings, readBindings labProjection = .ok bindings ∧
      List.Forall₂ (Framed bindings) (labArtifact audienceRef).routes [labRoute audienceRef]) ∧
    ∀ p ∈ [labRoute audienceRef], Resolved p) ↔ Resolvable (labArtifact audienceRef) labProjection := by
  have hcompile : compileConfig (labFiles audienceRef) = .ok (labArtifact audienceRef) := rfl
  exact applyProjection_iff hcompile (applyProjection_labArtifact audienceRef)

end OufGateway.Projection
