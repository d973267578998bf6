import Mathlib
import OufGateway.Proofs.PublicationStore

/-!
# What was governed and what was published

The activation gate walks the route bindings and the compiler all bindings, each
over an index of its own. On documents the compiler accepts the two indexes
agree, because no two documents have one key. So what the gate checked of a
route binding holds of the route the compiler made of it: the backend is the
service of its source, its extraction profile is of its source, and its
capability and scope are what the authorization gate was asked about.

The route of an MCP endpoint has a backend too, and nothing has compared it with
its source. An artifact that ends active is as it was governed exactly when the
configuration's MCP endpoints name the services of their sources.
-/

namespace OufGateway.Publication

open Lib

theorem isSha256_ofText (s : String) : isSha256 (Sha256.ofText s) = true := by
  have hlength := Sha256.length_hexdigest s.toUTF8.toList
  have hdigit : ∀ n < 16, isHexChar ("0123456789abcdef".toList.getD n '0') = true ∧
      "0123456789abcdef".toList.getD n '0' ≠ '\n' := by decide
  have hhex : ∀ c ∈ (Sha256.ofText s).toList, isHexChar c = true ∧ c ≠ '\n' := by
    intro c hc
    obtain ⟨n, hn, rfl⟩ := Sha256.mem_hexdigest hc
    exact hdigit n hn
  have hnewline : endsInNewline (Sha256.ofText s) = false := by
    unfold endsInNewline
    cases hlast : (Sha256.ofText s).toList.getLast? with
    | none => rfl
    | some c => simpa using (hhex c (List.mem_of_getLast? hlast)).2
  unfold isSha256 matchesPattern
  rw [hnewline]
  change (Sha256.ofText s).toList.length = 64 at hlength
  generalize (Sha256.ofText s).toList = cs at hlength hhex
  cases cs with
  | nil => cases hlength
  | cons c cs =>
      rw [List.length_cons] at hlength
      have hall : cs.all isHexChar = true :=
        List.all_eq_true.mpr fun d hd => (hhex d (List.mem_cons_of_mem _ hd)).1
      simp [hall, (hhex c List.mem_cons_self).1]
      omega

end OufGateway.Publication

namespace OufGateway.ActivationGate

open Lib CompileConfig

variable {π : Type} {docs ds : Documents} {gate : Option Gate} {asked asked' : List Asked}

/-! ## The two indexes -/

def keys (docs : Documents) : List (Kind × String) := docs.map fun d => (d.2.kind, d.2.ref)

theorem checkUnique_ok {seen : List (Kind × String)} (h : checkUnique seen ds = .ok ()) :
    (keys ds).Nodup ∧ ∀ k ∈ keys ds, k ∉ seen := by
  induction ds generalizing seen with
  | nil => exact ⟨List.nodup_nil, fun k hk => absurd hk List.not_mem_nil⟩
  | cons d ds ih =>
      simp only [checkUnique, guard_eq_ok] at h
      obtain ⟨hnodup, hseen⟩ := ih h.2
      refine ⟨List.nodup_cons.mpr ⟨fun hmem => ?_, hnodup⟩, fun k hk => ?_⟩
      · exact hseen _ hmem List.mem_cons_self
      · rcases List.mem_cons.mp hk with rfl | hk
        · exact h.1
        · exact fun hmem => hseen k hk (List.mem_cons_of_mem _ hmem)

/-- With distinct keys a lookup finds the document there is. -/
theorem lookup_iff (h : (keys docs).Nodup) {kind : Kind} {ref : String} {d : Document} :
    lookup docs kind ref = some d ↔ ∃ path, (path, d) ∈ docs ∧ d.kind = kind ∧ d.ref = ref := by
  unfold lookup
  constructor
  · intro hfind
    obtain ⟨e, he, rfl⟩ := Option.map_eq_some_iff.mp hfind
    have hkey := List.find?_some he
    rw [Bool.and_eq_true, decide_eq_true_eq, decide_eq_true_eq] at hkey
    exact ⟨e.1, List.mem_of_find?_eq_some he, hkey⟩
  · rintro ⟨path, hmem, rfl, rfl⟩
    cases hfind : docs.find? fun e => e.2.kind = d.kind && e.2.ref = d.ref with
    | none =>
        have := List.find?_eq_none.mp hfind _ hmem
        simp at this
    | some e =>
        have hkey := List.find?_some hfind
        rw [Bool.and_eq_true, decide_eq_true_eq, decide_eq_true_eq] at hkey
        have he : e = (path, d) := List.inj_on_of_nodup_map h (List.mem_of_find?_eq_some hfind) hmem
          (Prod.ext hkey.1 hkey.2)
        rw [he, Option.map_some]

/-- The last document with a key is the first. -/
theorem lookup_reverse (h : (keys docs).Nodup) (kind : Kind) (ref : String) :
    lookup docs.reverse kind ref = lookup docs kind ref := by
  have hreverse : (keys docs.reverse).Nodup := by
    rw [keys, List.map_reverse]
    exact List.nodup_reverse.mpr h
  ext d
  rw [lookup_iff hreverse, lookup_iff h]
  simp only [List.mem_reverse]

theorem capabilityOf_reverse (h : (keys docs).Nodup) (ref : String) :
    capabilityOf docs.reverse ref = capabilityOf docs ref := by
  rw [capabilityOf, lookup_reverse h, ← capabilityOf]

theorem sourceOf_reverse (h : (keys docs).Nodup) (ref : String) :
    sourceOf docs.reverse ref = sourceOf docs ref := by
  rw [sourceOf, lookup_reverse h, ← sourceOf]

theorem extractionOf_reverse (h : (keys docs).Nodup) (ref : String) :
    extractionOf docs.reverse ref = extractionOf docs ref := by
  rw [extractionOf, lookup_reverse h, ← extractionOf]

theorem capabilityOf_ref (h : (keys docs).Nodup) {ref : String} {d : Capability}
    (hd : capabilityOf docs ref = some d) : d.metadata.ref = ref := by
  unfold capabilityOf at hd
  split at hd
  · next e he =>
    obtain rfl := Option.some.inj hd
    obtain ⟨-, -, -, href⟩ := (lookup_iff h).mp he
    exact href
  · cases hd

/-! ## The gate -/

theorem askGate_ok {ref scope : String} (h : askGate gate asked ref scope = .ok asked') :
    asked ⊆ asked' ∧ (gate.isSome = true → ⟨ref, scope, true⟩ ∈ asked') := by
  unfold askGate at h
  split at h
  · obtain rfl := Except.ok.inj h
    exact ⟨List.Subset.refl _, fun hsome => by cases hsome⟩
  · split at h
    · cases h
    · split at h
      · obtain rfl := Except.ok.inj h
        exact ⟨List.subset_cons_self _ _, fun _ => List.mem_cons_self⟩
      · cases h

/-- What the gate has checked of a route binding, of the documents it saw. -/
structure Activated (docs : Documents) (gate : Option Gate) (asked : List Asked)
    (b : RouteBinding) (capability : Capability) (source : SourceRuntimeProfile) : Prop where
  foundCapability : capabilityOf docs b.capabilityRef = some capability
  foundSource : sourceOf docs b.sourceRef = some source
  backend : Text.startsWith "service://" source.endpointRef = true →
    serviceOf source.endpointRef = b.backendBinding.service
  extraction : ∀ ref, b.extractionProfileRef = some ref → ref ≠ "" →
    ∃ e, extractionOf docs ref = some e ∧ e.sourceRef = b.sourceRef
  authorized : gate.isSome = true → ⟨b.capabilityRef, capability.scope, true⟩ ∈ asked

theorem checkReferences_ok {b : RouteBinding} {capability : Capability}
    {source : SourceRuntimeProfile} {extraction : Option ExtractionRuntimeProfile}
    (h : checkReferences b capability source extraction = .ok ()) {ref : String}
    (href : b.extractionProfileRef = some ref) (hne : ref ≠ "") :
    ∃ e, extraction = some e ∧ e.sourceRef = b.sourceRef := by
  simp only [checkReferences, guard_eq_ok, href, Option.getD_some, if_neg hne] at h
  cases extraction with
  | none => cases h.2.2
  | some e =>
      simp only [guard_eq_ok] at h
      exact ⟨e, rfl, not_not.mp h.2.2.2.1⟩

/-- The walk of the gate has checked every route binding. -/
theorem validateRoutes_ok (h : validateRoutes gate docs ds asked = .ok asked') :
    asked ⊆ asked' ∧ ∀ path b, (path, Document.routeBinding b) ∈ ds →
      ∃ capability source, Activated docs.reverse gate asked' b capability source := by
  induction ds generalizing asked with
  | nil =>
      obtain rfl := Except.ok.inj h
      exact ⟨List.Subset.refl _, fun path b hb => absurd hb List.not_mem_nil⟩
  | cons d ds ih =>
      obtain ⟨path, d⟩ := d
      cases d with
      | routeBinding b =>
          rw [validateRoutes] at h
          split at h
          · next capability source hcapability hsource =>
            simp only [bind_eq_ok] at h
            obtain ⟨found, hfound, hrest⟩ := h
            simp only [validateRouteActivation, bind_eq_ok, guard_eq_ok] at hfound
            obtain ⟨_, hreferences, hservice, asked'', hasked, hfound⟩ := hfound
            obtain rfl := Except.ok.inj hfound
            obtain ⟨hsub, hauthorized⟩ := askGate_ok hasked
            obtain ⟨hsub', hrest⟩ := ih hrest
            refine ⟨List.Subset.trans hsub hsub', fun path' b' hb => ?_⟩
            rcases List.mem_cons.mp hb with heq | hb
            · cases heq
              refine ⟨capability, source, hcapability, hsource, ?_, ?_, ?_⟩
              · intro hstarts
                by_contra hne
                exact hservice ⟨hstarts, hne⟩
              · intro ref href hne
                obtain ⟨e, he, hbound⟩ := checkReferences_ok hreferences href hne
                rw [href, Option.getD_some, if_neg hne] at he
                exact ⟨e, he, hbound⟩
              · exact fun hsome => hsub' (hauthorized hsome)
            · exact hrest path' b' hb
          · cases h
      | _ =>
          obtain ⟨hsub, hrest⟩ := ih h
          refine ⟨hsub, fun path' b' hb => ?_⟩
          rcases List.mem_cons.mp hb with heq | hb
          · cases heq
          · exact hrest path' b' hb

theorem governance_ok {repository : Repository} {environment : String}
    {files : List (String × Loaded)}
    (h : validateRepositoryGovernance repository gate environment files = .ok asked) :
    ∃ docs, loadDocuments files = .ok docs ∧ validateRoutes gate docs docs [] = .ok asked := by
  unfold validateRepositoryGovernance at h
  split at h
  · cases h
  · simp only [bind_eq_ok, guard_eq_ok] at h
    obtain ⟨_, -, -, h⟩ := h
    split at h
    · cases h
    · next docs hload => exact ⟨docs, hload, h⟩

/-- On the documents of an accepted configuration. -/
theorem activated {a : Artifact} (w : CompileConfig.Compiled docs a)
    (h : validateRoutes gate docs docs [] = .ok asked) {path : String} {b : RouteBinding}
    (hb : (path, Document.routeBinding b) ∈ docs) :
    ∃ capability source, Activated docs gate asked b capability source := by
  obtain ⟨hnodup, -⟩ := checkUnique_ok w.unique
  obtain ⟨capability, source, hactivated⟩ := (validateRoutes_ok h).2 path b hb
  refine ⟨capability, source, ?_, ?_, hactivated.backend, ?_, hactivated.authorized⟩
  · rw [← capabilityOf_reverse hnodup]
    exact hactivated.foundCapability
  · rw [← sourceOf_reverse hnodup]
    exact hactivated.foundSource
  · intro ref href hne
    rw [← extractionOf_reverse hnodup]
    exact hactivated.extraction ref href hne

/-! ## What is published -/

/-- The routes of the artifact are as the governance has them: a backend that its
source names, a capability and a scope the authorization gate granted, extraction
profiles of the route's own source. -/
structure Governed (docs : Documents) (gate : Option Gate) (asked : List Asked) (a : Artifact) :
    Prop where
  backend : ∀ r ∈ a.routes, ∀ b sourceRef source, r.backendBinding = some b →
    r.upstreamId = some sourceRef → sourceOf docs sourceRef = some source →
      ∀ service rest, '/' ∉ service.toList → (source.endpointRef = "service://" ++ service ∨
        source.endpointRef = "service://" ++ service ++ "/" ++ rest) →
          r.serviceId = some service ∧ b.service = service
  authorized : ∀ r ∈ a.routes, ∀ view, r.capability = some view → gate.isSome = true →
    ∃ scope, r.labels.capability = some (view.capabilityId ++ "@" ++ view.version) ∧
      r.policy.requiredScope = some scope ∧
        ⟨view.capabilityId ++ "@" ++ view.version, scope, true⟩ ∈ asked
  extraction : ∀ path b, (path, Document.routeBinding b) ∈ docs → ∀ ref,
    b.extractionProfileRef = some ref → ref ≠ "" →
      ∃ e, extractionOf docs ref = some e ∧ e.sourceRef = b.sourceRef

/-- Every MCP endpoint forwards to the service of its source. -/
def EndpointsBound (docs : Documents) : Prop :=
  ∀ path d source, (path, Document.mcpEndpointBinding d) ∈ docs →
    sourceOf docs d.sourceRef = some source → serviceOf source.endpointRef = d.backendBinding.service

theorem serviceOf_eq {service rest endpointRef : String} (h : '/' ∉ service.toList)
    (hendpoint : endpointRef = "service://" ++ service ∨
      endpointRef = "service://" ++ service ++ "/" ++ rest) : serviceOf endpointRef = service := by
  rw [serviceOf]
  rcases hendpoint with rfl | rfl
  · rw [Text.removeLead_append, Text.before_of_notMem h]
  · rw [String.append_assoc, String.append_assoc, Text.removeLead_append, ← String.append_assoc]
    exact Text.before_append rest h

/-- A `service://` reference is of the two forms. -/
theorem serviceOf_forms {endpointRef : String} (h : Text.startsWith "service://" endpointRef = true) :
    ∃ rest, endpointRef = "service://" ++ serviceOf endpointRef ∨
      endpointRef = "service://" ++ serviceOf endpointRef ++ "/" ++ rest := by
  have hlead := Text.eq_append_removeLead h
  rcases Text.eq_before '/' (Text.removeLead "service://" endpointRef) with hbefore | ⟨rest, hrest⟩
  · exact ⟨"", Or.inl (hlead.trans (congrArg ("service://" ++ ·) hbefore))⟩
  · refine ⟨rest, Or.inr (hlead.trans ?_)⟩
    rw [String.append_assoc] at hrest
    rw [String.append_assoc, String.append_assoc]
    exact congrArg ("service://" ++ ·) hrest

/-- The gate's walk and the compiler's agree on everything but the MCP endpoints. -/
theorem governed_iff {a : Artifact} (w : CompileConfig.Compiled docs a)
    (h : validateRoutes gate docs docs [] = .ok asked) :
    Governed docs gate asked a ↔ EndpointsBound docs := by
  constructor
  · intro hgoverned path d source hd hsource
    obtain ⟨seen, first, hfirst⟩ := walk_bound w.walkEndpoints hd
    obtain ⟨source', -, hsource', hstarts, -⟩ := bindEndpoint_ok hfirst
    obtain rfl : source' = source := Option.some.inj (hsource'.symm.trans hsource)
    obtain ⟨rest, hform⟩ := serviceOf_forms hstarts
    have hmem : emitEndpoint d ∈ a.routes := w.mem_routes.mpr ⟨_, hd, Or.inr (Or.inl rfl)⟩
    exact (hgoverned.backend _ hmem _ _ _ rfl rfl hsource _ rest (Text.notMem_before _ _) hform).2.symm
  · intro hendpoints
    refine ⟨?_, ?_, ?_⟩
    · intro r hr b sourceRef source hb hupstream hsource service rest hslash hform
      have hservice := serviceOf_eq hslash hform
      have hstarts : Text.startsWith "service://" source.endpointRef = true := by
        rcases hform with hform | hform
        · rw [hform]
          exact Text.startsWith_append _ _
        · rw [hform, String.append_assoc, String.append_assoc]
          exact Text.startsWith_append _ _
      obtain ⟨⟨path, d⟩, hd, hroute | hroute | hroute⟩ := w.mem_routes.mp hr
      · cases d with
        | routeBinding d =>
            obtain ⟨found, -, hfound⟩ := w.bound hd
            obtain rfl := Option.some.inj (hfound.symm.trans hroute)
            obtain ⟨capability, source', hactivated⟩ := activated w h hd
            obtain rfl := Option.some.inj hb
            obtain rfl : d.sourceRef = sourceRef := Option.some.inj hupstream
            obtain rfl : source' = source :=
              Option.some.inj (hactivated.foundSource.symm.trans hsource)
            have := hservice.symm.trans (hactivated.backend hstarts)
            exact ⟨congrArg some this.symm, this.symm⟩
        | _ => cases hroute
      · cases d with
        | mcpEndpointBinding d =>
            obtain rfl := Option.some.inj hroute
            obtain rfl := Option.some.inj hb
            obtain rfl : d.sourceRef = sourceRef := Option.some.inj hupstream
            have := hservice.symm.trans (hendpoints path d source hd hsource)
            exact ⟨congrArg some this.symm, this.symm⟩
        | _ => cases hroute
      · cases d with
        | mcpMediationBinding d =>
            obtain rfl := Option.some.inj hroute
            cases hb
        | _ => cases hroute
    · intro r hr view hview hgate
      obtain ⟨⟨path, d⟩, hd, hroute | hroute | hroute⟩ := w.mem_routes.mp hr
      · cases d with
        | routeBinding d =>
            obtain ⟨found, hfound, hroute'⟩ := w.bound hd
            obtain rfl := Option.some.inj (hroute'.symm.trans hroute)
            obtain ⟨capability, source, hactivated⟩ := activated w h hd
            obtain rfl : found.1 = capability :=
              Option.some.inj ((checkRoute_ok hfound).1.symm.trans hactivated.foundCapability)
            obtain rfl := Option.some.inj hview
            have href := capabilityOf_ref (checkUnique_ok w.unique).1 hactivated.foundCapability
            refine ⟨found.1.scope, congrArg some href.symm, rfl, ?_⟩
            have := hactivated.authorized hgate
            rwa [← href] at this
        | _ => cases hroute
      · cases d with
        | mcpEndpointBinding d =>
            obtain rfl := Option.some.inj hroute
            cases hview
        | _ => cases hroute
      · cases d with
        | mcpMediationBinding d =>
            obtain rfl := Option.some.inj hroute
            cases hview
        | _ => cases hroute
    · intro path b hb ref href hne
      obtain ⟨capability, source, hactivated⟩ := activated w h hb
      exact hactivated.extraction ref href hne

/-- A publication that ends active has published what it governed exactly when every
MCP endpoint of the configuration forwards to the service of its source. -/
theorem published_as_governed_iff {t : Attempt π} {s s' : Publication.State π}
    {m : Publication.Manifest} (h : t.publish s = (.ok m, s')) (hactive : m.status = .active) :
    ∃ docs asked a, loadDocuments t.files = .ok docs ∧
      validateRepositoryGovernance t.repository t.gate t.environment t.files = .ok asked ∧
      compileConfig t.files = .ok a ∧ (m.publicationId, m) ∈ s'.store.manifests ∧
      (∃ stored, s'.store.findArtifact m.artifactSetHash = some stored ∧
        (stored = a.toJson ∨ stored.eqv a.toJson = true)) ∧
      (Governed docs t.gate asked a ↔ EndpointsBound docs) := by
  rcases Publication.publish_records t.plane t.call s with
    ⟨e, -, hpublish⟩ | ⟨m₀, artifact, hprepare, m', activate, hid, hhash, -, hiff, -, hreturned⟩
  · rw [Attempt.publish, hpublish] at h
    cases h
  · rw [Attempt.publish] at h
    rw [h] at hreturned
    obtain ⟨rfl, hrecord⟩ := hreturned m rfl
    obtain rfl := hiff.mpr hactive
    obtain ⟨hcollides, hstore⟩ := Publication.record_ok hrecord
    obtain ⟨k, hk, rfl, hm⟩ := Publication.prepare_compiled hprepare
    change compileRoot _ _ _ _ _ = .ok k at hk
    unfold compileRoot at hk
    split at hk
    · cases hk
    · next asked hgovernance =>
      split at hk
      · cases hk
      · next a hcompile =>
        obtain rfl := Except.ok.inj hk
        obtain ⟨docs, hload, hroutes⟩ := governance_ok hgovernance
        obtain ⟨docs', hload', hdocuments⟩ := compileConfig_ok hcompile
        obtain rfl : docs = docs' := Except.ok.inj (hload.symm.trans hload')
        obtain ⟨w⟩ := compileDocuments_ok hdocuments
        refine ⟨docs, asked, a, hload, hgovernance, hcompile, ?_, ?_, governed_iff w hroutes⟩
        · rw [hstore]
          exact List.mem_append_right _ (List.mem_singleton_self _)
        · rw [hstore]
          exact Publication.ensure_same hcollides

/-! ## An endpoint of another service -/

def mcpCore : SourceRuntimeProfile := ⟨⟨"mcp", "1.0.0"⟩, "service://mcp-core/mcp", none⟩

def mcpEndpoint (service : String) : McpEndpointBinding where
  metadata := ⟨"mcp-endpoint", "1.0.0"⟩
  exposure := .toPublic
  sourceRef := "mcp@1.0.0"
  method := .post
  path := "/mcp"
  backendBinding := ⟨service, 8080, "/mcp"⟩
  identity := .oidc
  requiredAudience := "ouf-api-gateway"
  requiredScope := "mcp"
  allowedActorTypes := ["HUMAN"]
  maxRequestBytes := 1024
  timeoutSeconds := 5
  stripClientHeaders := requiredTrusted
  claimProjection := claimSources.map fun s => (s.1, s.2.headD "")

def goodChecks : Json := .obj (Publication.requiredChecks.map fun check => (check, .bool true))

/-- Every answer of the control plane is the good one. -/
def willing : Publication.Plane Unit where
  healthy _ := (.ok (.bool true), ())
  stage _ _ := (.ok (.str "sha256:0"), ())
  verify _ _ _ := (.ok goodChecks, ())
  activate _ _ := (.ok (), ())
  rollback _ _ := (.ok (), ())

def mcpAttempt (service : String) : Attempt Unit where
  plane := willing
  repository := ⟨[], true, [("dev", [])]⟩
  gate := none
  files := [("endpoint.yaml", .document (.mcpEndpointBinding (mcpEndpoint service))),
    ("source.yaml", .document (.sourceRuntimeProfile mcpCore))]
  inputHashes := []
  environment := "dev"
  sourceRevision := "r1"
  publicationId := "p1"
  createdAt := "2026-01-01T00:00:00Z"
  activatedAt := "2026-01-01T00:00:01Z"
  stop := none
  incidentId := "i1"
  incidentNow := "2026-01-01T00:00:01+00:00"

def freshRoot : Publication.State Unit := ⟨(), .empty, none⟩

theorem willing_apply (c : Publication.Call) (m : Publication.Manifest) (artifact : Json) :
    Publication.apply willing c m artifact freshRoot = Publication.complete c
      { m with controlPlaneRevision := .str "sha256:0", verification := goodChecks } artifact
      freshRoot := by
  rfl

theorem complete_returns {c : Publication.Call} {m : Publication.Manifest} {artifact : Json}
    {s s' : Publication.State Unit}
    (h : Publication.recordManifest c (m.activated c) artifact true s = (.ok (), s')) :
    ∃ s'', Publication.complete c m artifact s = (.ok (m.activated c), s'') := by
  unfold Publication.complete
  revert h
  rcases Publication.recordManifest c (m.activated c) artifact true s with ⟨_ | _, s''⟩
  · intro h
    cases h
  · intro _
    exact ⟨_, rfl⟩

/-- Whatever it has compiled, the attempt ends active. -/
theorem publish_active {service text : String} {artifact : Json}
    (h : (mcpAttempt service).call.compiled = .ok ⟨artifact, Sha256.ofText text, []⟩) :
    ∃ m s', (mcpAttempt service).publish freshRoot = (.ok m, s') ∧ m.status = .active := by
  have hcall : (mcpAttempt service).call =
      { Publication.plainCall with compiled := .ok ⟨artifact, Sha256.ofText text, []⟩ } := by
    rw [← h]
    rfl
  have hzero : Publication.isSha256 Publication.zeroHash = true := by decide +kernel
  have hid : Publication.matchesPattern Char.isAlphanum Publication.isIdChar 0 127 "p1" = true := by
    decide
  have henvironment : Publication.isEnvironment "dev" = true := by decide
  have hprepare : ∃ m, Publication.prepare (mcpAttempt service).call .empty = .ok (m, artifact) ∧
      m.governed = true := by
    rw [hcall]
    simp [Publication.prepare, Publication.plainCall, Publication.Manifest.valid,
      Publication.Manifest.governed, hzero, Publication.isSha256_ofText, hid, henvironment,
      show Publication.isPublicationId "p1" = true by decide, Publication.isTextOrNull,
      Publication.isObjOrNull, Publication.Store.empty, Publication.Store.contains]
  obtain ⟨m, hprepare, hgoverned⟩ := hprepare
  have hrecordable : Publication.Recordable (mcpAttempt service).call
      (m.activatedAs (mcpAttempt service).call (.str "sha256:0", goodChecks)) artifact freshRoot := by
    refine ⟨?_, rfl, rfl, rfl, (by decide : goodChecks.serializable = true)⟩
    show (m.governed && true && true) = true
    rw [hgoverned]
    rfl
  obtain ⟨s', hrecord, -⟩ := Publication.recordManifest_ok true hrecordable
  obtain ⟨s'', hcomplete⟩ := complete_returns (m := { m with
    controlPlaneRevision := .str "sha256:0", verification := goodChecks }) hrecord
  refine ⟨m.activatedAs (mcpAttempt service).call (.str "sha256:0", goodChecks), s'', ?_, rfl⟩
  rw [Attempt.publish, Publication.publish, show freshRoot.store = .empty from rfl, hprepare]
  exact (willing_apply _ m artifact).trans hcomplete

def mcpDocuments (service : String) : Documents :=
  [("endpoint.yaml", .mcpEndpointBinding (mcpEndpoint service)),
    ("source.yaml", .sourceRuntimeProfile mcpCore)]

/-- The source of the endpoint is `mcp-core`, and its backend another service. -/
theorem endpoint_elsewhere :
    ∃ m s' asked a, (mcpAttempt "elsewhere").publish freshRoot = (.ok m, s') ∧
      m.status = .active ∧
      validateRepositoryGovernance (mcpAttempt "elsewhere").repository none "dev"
        (mcpAttempt "elsewhere").files = .ok asked ∧
      loadDocuments (mcpAttempt "elsewhere").files = .ok (mcpDocuments "elsewhere") ∧
      compileConfig (mcpAttempt "elsewhere").files = .ok a ∧
      ¬ Governed (mcpDocuments "elsewhere") none asked a := by
  obtain ⟨m, s', hpublish, hactive⟩ := @publish_active "elsewhere" _ _ rfl
  have hcompile : compileDocuments (mcpDocuments "elsewhere") =
      .ok (sealed (byId [emitEndpoint (mcpEndpoint "elsewhere")])) := rfl
  obtain ⟨w⟩ := compileDocuments_ok hcompile
  refine ⟨m, s', [], _, hpublish, hactive, rfl, rfl, hcompile, fun hgoverned => ?_⟩
  have hbound := (governed_iff w rfl).mp hgoverned
  exact absurd (hbound _ _ mcpCore List.mem_cons_self rfl) (by decide)

/-- The same endpoint, of the source's own service. -/
theorem endpoint_at_home :
    ∃ docs asked a, compileConfig (mcpAttempt "mcp-core").files = .ok a ∧
      Governed docs none asked a := by
  obtain ⟨m, s', hpublish, hactive⟩ := @publish_active "mcp-core" _ _ rfl
  obtain ⟨docs, asked, a, hload, -, hcompile, -, -, hiff⟩ :=
    published_as_governed_iff hpublish hactive
  obtain rfl : mcpDocuments "mcp-core" = docs := Except.ok.inj hload
  refine ⟨_, asked, a, hcompile, hiff.mpr fun path d source hd hsource => ?_⟩
  rcases List.mem_pair.mp hd with hd | hd
  · cases hd
    obtain rfl : mcpCore = source := Option.some.inj hsource
    decide
  · cases hd
end OufGateway.ActivationGate
