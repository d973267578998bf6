import OufGateway.Lib.PyObjectStored
import OufGateway.Proofs.Compiler
import OufGateway.Proofs.Mediation
import OufGateway.Proofs.Projection

/-!
# From a document to a delivered request

A request that a mediation route delivers has come a long way: a governed document was
compiled, an installation was projected into it, a materializer compared it with its
profile and wrote a function, and the function was run on the request. At the end of it
stands what the document says: the capability, its owner and its class are what the
envelope names, its scope is in the delegation, the workload is one the document admits,
the body and the time are within its bounds, and the request goes to its service. What
an owner is told of the path and the capability is where the request goes and what it
was let through for.
-/

namespace OufGateway.Mediation

open OufGateway.Lib
open CompileConfig (Artifact Capability CompiledRoute Documents RouteBinding capabilityOf compileConfig)
open Delegation (scopeHas)
open Executors (Announced Authorized Kind Proven Receipted Request Telling Told Uploads Verified Worker Workload names
  uploadCapability uploadPath)
open Lua (Bytes Value)
open MaterializeM2M (nodeOf)
open Projection (Projected ProjectedRoute applyProjection resolveIdentity)
open TrustedIdentity (bytes claim)

section Documents

variable {py : Python} {runtime : Projected} {route : Route} {b : ProjectedRoute} {host : Host} {r : Request}
  {now : Nat} {d : Delivered} {k : Kind} {capability uri path : String} {p : Profile}
  {files : List (String × CompileConfig.Loaded)} {doc : RouteBinding} {cap : Capability} {w : Worker}
  {s : DelegationProof.Settings} {v : Verified}

/-! ## Where a binding comes from -/

/-- A route document, and the capability document it names. -/
structure Names (files : List (String × CompileConfig.Loaded)) (doc : RouteBinding) (cap : Capability) : Prop where
  binding : ∃ file, (file, CompileConfig.Loaded.document (.routeBinding doc)) ∈ files
  capability : ∃ file, (file, CompileConfig.Loaded.document (.capability cap)) ∈ files
  ref : cap.metadata.ref = doc.capabilityRef

/-- The documents behind a binding of a runtime. -/
structure Origin (files : List (String × CompileConfig.Loaded)) (runtime : Projected) (b : CompiledRoute)
    (doc : RouteBinding) (cap : Capability) : Prop where
  names : Names files doc cap
  view : ∀ c, b.capability = some c → c.capabilityId = cap.metadata.id ∧ c.owner = cap.owner ∧
    c.operationType = cap.operationType ∧ c.humanRequired = cap.humanRequired.getD false
  scope : b.policy.requiredScope = some cap.scope
  size : b.policy.maxRequestBytes = doc.maxRequestBytes
  timeout : b.policy.timeoutSeconds = doc.timeoutSeconds
  service : b.serviceId = some doc.backendBinding.service
  path : ∀ p, b.proxyRewrite = some p → p = doc.backendBinding.path
  services : ∀ id ∈ b.policy.allowedServiceIdentities.getD [],
    ∃ ref ∈ doc.allowedServiceIdentities.getD [], resolveIdentity runtime.installation.fields ref = id

theorem capabilityOf_ok {docs : Documents} {ref : String} (h : capabilityOf docs ref = some cap) :
    (∃ file, (file, CompileConfig.Document.capability cap) ∈ docs) ∧ cap.metadata.ref = ref := by
  unfold capabilityOf at h
  split at h
  · next c hlookup =>
    obtain rfl := Option.some.inj h
    obtain ⟨⟨file, found⟩, hfind, hfound⟩ := Option.map_eq_some_iff.mp hlookup
    obtain rfl : found = .capability c := hfound
    have hkey := List.find?_some hfind
    simp only [Bool.and_eq_true, decide_eq_true_eq] at hkey
    exact ⟨⟨file, List.mem_of_find?_eq_some hfind⟩, hkey.2⟩
  · cases h

theorem resolved_service {f : Projection.Fields} {allowed resolved : Option (List String)}
    (h : Projection.resolveAllowed f allowed = .ok resolved) {id : String} (hid : id ∈ resolved.getD []) :
    ∃ ref ∈ allowed.getD [], resolveIdentity f ref = id := by
  cases allowed with
  | none =>
      obtain rfl := Except.ok.inj h
      cases hid
  | some allowed =>
      simp only [Projection.resolveAllowed, guard_eq_ok] at h
      obtain ⟨-, h⟩ := h
      obtain rfl := Except.ok.inj h
      exact List.mem_map.mp hid

/-- A route of a projection is a route of the artifact with the fields of the installation in it. -/
theorem mem_projected {artifact : Artifact} {projection : Json} (h : applyProjection artifact projection = .ok runtime)
    (hb : b ∈ runtime.routes) : ∃ c ∈ artifact.routes, ∃ bindings,
      Projection.projectRoute runtime.installation.fields bindings c = .ok b := by
  simp only [applyProjection, bind_eq_ok] at h
  obtain ⟨f, -, bindings, -, routes, hroutes, installationId, -, checksum, -, h⟩ := h
  split at h
  · obtain rfl := Except.ok.inj h
    obtain ⟨c, hc, hstep⟩ := PyObject.Forall₂.right (Projection.projectRoutes_ok hroutes) hb
    exact ⟨c, hc, bindings, hstep⟩
  · cases h

theorem origin {artifact : Artifact} {projection : Json} (hcompile : compileConfig files = .ok artifact)
    (hproject : applyProjection artifact projection = .ok runtime) (hb : b ∈ runtime.routes)
    (hcap : b.route.capability.isSome = true) : ∃ doc cap, Origin files runtime b.route doc cap := by
  obtain ⟨c, hc, bindings, hstep⟩ := mem_projected hproject hb
  obtain ⟨docs, hload, hdocs⟩ := CompileConfig.compileConfig_ok hcompile
  obtain ⟨rfl, -⟩ := CompileConfig.loadDocuments_ok hload
  obtain ⟨walked⟩ := CompileConfig.compileDocuments_ok hdocs
  obtain ⟨⟨file, document⟩, hdocument, hroute⟩ := walked.mem_routes.mp hc
  simp only [Projection.projectRoute, bind_eq_ok] at hstep
  obtain ⟨allowed, hallowed, backend, -, hstep⟩ := hstep
  obtain rfl := Except.ok.inj hstep
  have hmem : ∀ {file : String} {document : CompileConfig.Document}, (file, document) ∈ docs →
      (file, CompileConfig.Loaded.document document) ∈ docs.map fun d => (d.1, CompileConfig.Loaded.document d.2) :=
    fun h => List.mem_map_of_mem h
  rcases hroute with hroute | hroute | hroute
  · cases document with
    | routeBinding doc =>
        obtain ⟨cap, hcapability, hroute⟩ := Option.bind_eq_some_iff.mp hroute
        obtain ⟨source, -, rfl⟩ := Option.map_eq_some_iff.mp hroute
        obtain ⟨⟨file', hfile'⟩, href⟩ := capabilityOf_ok hcapability
        refine ⟨doc, cap, ⟨⟨file, hmem hdocument⟩, ⟨file', hmem hfile'⟩, href⟩, fun c hview => ?_, rfl, rfl, rfl, rfl,
          fun q hq => ?_, fun id hid => resolved_service hallowed hid⟩
        · obtain rfl := Option.some.inj hview
          exact ⟨rfl, rfl, rfl, rfl⟩
        · have hq : (if CompileConfig.isWildcard doc.path then none else some doc.backendBinding.path) = some q := hq
          split at hq
          · cases hq
          · exact (Option.some.inj hq).symm
    | _ => cases hroute
  · cases document with
    | mcpEndpointBinding doc =>
        obtain rfl := Option.some.inj hroute
        cases hcap
    | _ => cases hroute
  · cases document with
    | mcpMediationBinding doc =>
        obtain rfl := Option.some.inj hroute
        cases hcap
    | _ => cases hroute

/-! ## Serving -/

/-- A request that is served has run the executor of the function, with the settings that were read. -/
theorem serve_ok {f : Function} (hf : route.plugins.serverlessPostFunction = some f) (hk : f.kind = some k)
    (h : route.serve host r now = .ok d) :
    ∃ l, f.load = some l ∧ k.run (host.at l) l.settings (route.rewrite r) now = .ok d.sent ∧
      d.nodes = route.upstream.nodes ∧ d.path = (route.plugins.proxyRewrite.map bytes).getD r.uri ∧
      route.validate host r = .ok () := by
  simp only [Route.serve, bind_eq_ok, DelegationProof.require_ok] at h
  obtain ⟨u, hvalid, f', hf', l, hl, k', hk', sent, hsent, h⟩ := h
  obtain rfl := Except.ok.inj h
  obtain rfl := Option.some.inj (hf.symm.trans hf')
  obtain rfl := Option.some.inj (hk.symm.trans hk')
  exact ⟨l, hl, hsent, rfl, rfl, hvalid⟩

/-- The body names the capability of the schema. -/
theorem validate_ok {c : Validation} (hv : route.plugins.requestValidation = some c)
    (h : route.validate host r = .ok ()) :
    ∃ body, r.body = some body ∧
      claim (host.worker.cjson.decode body) "CapabilityID" = .string (bytes c.capability) := by
  unfold Route.validate at h
  rw [hv] at h
  simp only [Validation.check, bind_eq_ok, DelegationProof.require_ok, DelegationProof.ensure_ok] at h
  obtain ⟨body, hbody, -, -, hcapability⟩ := h
  exact ⟨body, hbody, DelegationProof.isString_iff.mp hcapability⟩

/-! ## What a delivered request has -/

/-- What is asked for is what the documents have, within the size they allow. -/
inductive Asked (w : Worker) (doc : RouteBinding) (cap : Capability) (r : Request) : Prop
  | envelope {body : Bytes} (hbody : r.body = some body) (hsize : body.length ≤ doc.maxRequestBytes)
      (hnames : names (w.cjson.decode body) (bytes cap.metadata.id) cap.owner cap.operationType.text = true)
  | upload {ds : Bytes} (hlength : Headers.entry r.headers (bytes "content-length") = .string ds)
      (hsize : Executors.numeral ds ≤ doc.maxRequestBytes) (hid : cap.metadata.id = uploadProfile.scope)

/-- The owner is told of the caller, and where there is a receipt also of the path and the capability. -/
inductive Informed (w : Worker) (s : DelegationProof.Settings) (r : Request) (now : Nat) (v : Verified)
    (capability : Bytes) (d : Delivered) : Prop
  | headers (h : Told v capability d.sent.headers)
  | receipt {label header : String} {receipt : Value}
      (h : Receipted w s v now label header d.path (.string capability) d.sent receipt)
  | upload {u : Executors.Upload} {receipt : Value} (hu : u.verified = v) (h : Announced w s r u d.sent.headers receipt)
      (hpath : d.path = uploadPath) (hcapability : capability = uploadCapability)

/-- What has been checked of a request before it is delivered. -/
structure Vetted (doc : RouteBinding) (cap : Capability) (w : Worker) (s : DelegationProof.Settings) (r : Request)
    (now : Nat) (v : Verified) (d : Delivered) : Prop where
  caller : ∃ claims rules delegation, Workload w s r now claims ∧
    Proven w s rules (claim claims "tenant_id") now delegation v
  scope : scopeHas (claim v.p "scope") (bytes cap.scope) = true
  asked : Asked w doc cap r
  informed : Informed w s r now v (bytes cap.metadata.id) d

/-- A request that is delivered, by the documents its route goes back to. The hand-off goes back to those of the
upload. -/
structure Documented (runtime : Projected) (doc : RouteBinding) (cap : Capability) (route : Route) (w : Worker)
    (r : Request) (now : Nat) (v : Verified) (d : Delivered) : Prop where
  vetted : Vetted doc cap w (settingsOf runtime.installation) r now v d
  service : ∃ ref ∈ doc.allowedServiceIdentities.getD [],
    resolveIdentity runtime.installation.fields ref = runtime.installation.fields.mcp ∨
      resolveIdentity runtime.installation.fields ref = Text.strip runtime.installation.fields.mcp
  human : cap.humanRequired.getD false = false
  node : ∃ port, d.nodes = [(nodeOf doc.backendBinding.service port, 1)]
  path : d.path = bytes doc.backendBinding.path ∨
    d.path = bytes (filePath "handoff") ∧ doc.backendBinding.path = filePath "upload"
  timeout : route.upstream.timeout.read ≤ doc.timeoutSeconds

/-- An executor that reads an envelope, behind a route that follows a binding. -/
theorem vetted_envelope (hf : Follows runtime b route k capability p uri path)
    (ho : Origin files runtime b.route doc cap) {l : Loaded} {x : Executors.Executor}
    (hx : k.executor (host.at l) l.settings = some x)
    (hrun : k.run (host.at l) l.settings (route.rewrite r) now = .ok d.sent) (hpath : d.path = bytes path)
    {c : Validation} (hvalidation : route.plugins.requestValidation = some c) (hc : c.capability = capability)
    (hvalid : route.validate host r = .ok ())
    (hserves : Serves k capability uri path ⟨bytes capability, bytes p.scope, p.owner, p.operation.text⟩)
    (huri : r.uri = bytes uri ∨ r.uri = bytes path) (hsize : 65536 ≤ doc.maxRequestBytes) :
    ∃ v, Vetted doc cap (host.at l) l.settings (route.rewrite r) now v d := by
  obtain ⟨workload, hfits, -⟩ := hf.fits
  obtain ⟨view, hview, hid, howner, hoperation, -⟩ := hfits.capability
  obtain ⟨hid', howner', hoperation', -⟩ := ho.view view hview
  obtain ⟨a, g, ha⟩ := Executors.run_authorized hx hrun
  obtain ⟨claims, hworkload, hproven⟩ := ha.vouched.caller
  obtain ⟨body, hbody, hnamed⟩ := validate_ok hvalidation hvalid
  obtain rfl := Option.some.inj (hbody.symm.trans ha.vouched.body.1)
  -- the body is one and the same, so the capability of the schema is the one of the envelope
  have he : claim a.e "CapabilityID" = .string (bytes capability) := by
    rw [ha.vouched.envelope, ← hc]
    exact hnamed
  obtain ⟨rfl, hat⟩ := hserves _ huri a.e he g ha.grant
  have hscope : p.scope = cap.scope := Option.some.inj (hfits.scope.symm.trans ho.scope)
  have hcapability : capability = cap.metadata.id := hid.symm.trans hid'
  refine ⟨a.verified, ⟨claims, _, _, hworkload, hproven⟩, ?_, ?_, ?_⟩
  · rw [← hscope]
    exact ha.granted.scope
  · refine .envelope ha.vouched.body.1 (ha.vouched.body.2.trans hsize) ?_
    rw [← hcapability, ← howner', ← hoperation', howner, hoperation, ← ha.vouched.envelope]
    exact ha.granted.named
  · have htells := ha.tells
    have htold : At (bytes path) (bytes capability)
        (k.telling (route.rewrite r).uri a.e ⟨bytes capability, bytes p.scope, p.owner, p.operation.text⟩) := hat
    rw [← hcapability]
    generalize k.telling (route.rewrite r).uri a.e ⟨bytes capability, bytes p.scope, p.owner, p.operation.text⟩ = t
      at htells htold
    cases t with
    | headers => exact .headers htells
    | receipt label header p c =>
        obtain ⟨rfl, rfl⟩ := htold
        obtain ⟨receipt, hreceipt⟩ := htells
        exact .receipt (hpath ▸ hreceipt)

theorem bytes_uploadCapability : bytes "ouf.managed-source.file.upload" = uploadCapability := rfl

theorem bytes_uploadPath : bytes (filePath "upload") = uploadPath := by
  decide

/-- The upload, whose headers announce what no schema sees. -/
theorem vetted_upload
    (hf : Follows runtime b route .managedUpload "ouf.managed-source.file.upload" uploadProfile uri path)
    (ho : Origin files runtime b.route doc cap) {l : Loaded}
    (hrun : Kind.managedUpload.run (host.at l) l.settings (route.rewrite r) now = .ok d.sent)
    (hpath : d.path = bytes (filePath "upload")) :
    ∃ v, Vetted doc cap (host.at l) l.settings (route.rewrite r) now v d := by
  obtain ⟨workload, hfits, -⟩ := hf.fits
  obtain ⟨view, hview, hid, -⟩ := hfits.capability
  obtain ⟨hid', -⟩ := ho.view view hview
  obtain ⟨u, hu⟩ := Executors.upload_uploads hrun
  obtain ⟨claims, blank, hworkload, hproven⟩ := hu.caller
  obtain ⟨receipt, hreceipt⟩ := hu.announced
  obtain ⟨ds, hlength, -, hshort⟩ := hreceipt.length
  have hscope : uploadProfile.scope = cap.scope := Option.some.inj (hfits.scope.symm.trans ho.scope)
  have hcapability : cap.metadata.id = "ouf.managed-source.file.upload" := hid'.symm.trans hid
  have hsize : doc.maxRequestBytes = 10485760 := ho.size.symm.trans hfits.size
  refine ⟨u.verified, ⟨claims, _, _, hworkload, hproven⟩, ?_, ?_, ?_⟩
  · rw [← hscope]
    exact hu.scope
  · exact .upload hlength (hsize ▸ hshort) hcapability
  · exact .upload rfl hreceipt (hpath.trans bytes_uploadPath) (by rw [hcapability, bytes_uploadCapability])

/-- A route that follows a binding does with a request what the documents of the binding say. -/
theorem documented (hf : Follows runtime b route k capability p uri path) (ho : Origin files runtime b.route doc cap)
    (huri : r.uri = bytes uri ∨ r.uri = bytes path) (h : route.serve host r now = .ok d) :
    ∃ f l v, route.plugins.serverlessPostFunction = some f ∧ f.load = some l ∧
      Documented runtime doc cap route (host.at l) (route.rewrite r) now v d := by
  obtain ⟨f, hfunction, hkind, hsettings⟩ := hf.function
  obtain ⟨l, hl, hrun, hnodes, hpath, hvalid⟩ := serve_ok hfunction hkind h
  rw [hf.rewrite] at hpath
  have hpath : d.path = bytes path := hpath
  obtain ⟨workload, hfits, hworkload⟩ := hf.fits
  obtain ⟨view, hview, -, -, -, hhuman⟩ := hfits.capability
  obtain ⟨-, -, -, hhuman'⟩ := ho.view view hview
  have hsettings : l.settings = settingsOf runtime.installation := hsettings l hl
  have hsize : p.maxRequestBytes = doc.maxRequestBytes := hfits.size.symm.trans ho.size
  have htimeout : p.timeout = doc.timeoutSeconds := hfits.timeout.symm.trans ho.timeout
  have hvetted : ∃ v, Vetted doc cap (host.at l) l.settings (route.rewrite r) now v d := by
    rcases hf.serves with ⟨c, hvalidation, hc, hbound, hkind, hserves⟩ | ⟨rfl, rfl, rfl, rfl⟩
    · cases hx : k.executor (host.at l) l.settings with
      | some x =>
          exact vetted_envelope hf ho hx hrun hpath hvalidation hc hvalid hserves huri (hsize ▸ hbound)
      | none =>
          exact absurd (Executors.executor_eq_none hx) hkind
    · exact vetted_upload hf ho hrun hpath
  obtain ⟨v, hv⟩ := hvetted
  refine ⟨f, l, v, hfunction, hl, hsettings ▸ hv, ?_, ?_, ?_, ?_, ?_⟩
  · obtain ⟨ref, href, hresolved⟩ := ho.services workload hfits.service
    exact ⟨ref, href, hworkload.imp hresolved.trans hresolved.trans⟩
  · exact hhuman'.symm.trans hhuman
  · obtain ⟨service, port, hservice, hnode⟩ := hf.node
    obtain rfl := Option.some.inj (hservice.symm.trans ho.service)
    exact ⟨port, hnodes.trans hnode⟩
  · rcases hf.bound with hbound | ⟨rfl, hbound⟩
    · exact .inl (hpath.trans (congrArg bytes (ho.path _ hbound)))
    · exact .inr ⟨hpath, (ho.path _ hbound).symm⟩
  · exact hf.read.trans htimeout.le

end Documents

/-! ## A review that is read -/

section Sample

open CompileConfig (byId emitRoute mcpServerRef sealed)
open Delegation (decode64 decode64_encode64 encode64 encode64_isWord encode64_ne_nil length_encode64 same same_iff
  splitProof splitProof_append)
open Projection (baseJson labFields labInstallation labProjection)

/-- A mode of the review, with the time it is given. -/
structure ReviewMode where
  mode : FileMode
  timeout : Nat

namespace ReviewMode

variable (m : ReviewMode)

def capability : Capability where
  metadata := ⟨m.mode.capability, "1.0.0"⟩
  owner := "onboarding"
  operationType := m.mode.operation
  scope := m.mode.capability
  toolEligible := true
  humanRequired := some false

def binding : RouteBinding where
  metadata := ⟨"mcp-managed-file-" ++ m.mode.mode, "1.0.0"⟩
  exposure := .internal
  capabilityRef := m.mode.capability ++ "@1.0.0"
  sourceRef := "onboarding-managed-files@1.0.0"
  extractionProfileRef := none
  method := .post
  path := fileUri m.mode.mode
  uriRegex := none
  query := none
  backendBinding := ⟨"ouf-onboarding", 8080, filePath m.mode.mode⟩
  identity := .m2m
  allowedServiceIdentities := some [mcpServerRef]
  allowedActorTypes := some ["HUMAN"]
  maxRequestBytes := 65536
  timeoutSeconds := m.timeout

def emitted (source : CompileConfig.SourceRuntimeProfile) : CompiledRoute := emitRoute m.binding m.capability source

/-- The binding for the workload of an installation. -/
def projected (source : CompileConfig.SourceRuntimeProfile) : ProjectedRoute where
  route := { m.emitted source with
    policy := { (m.emitted source).policy with allowedServiceIdentities := some ["mcp"] } }
  serviceIdentity := none

end ReviewMode

def prepareMode : ReviewMode :=
  ⟨⟨"review-prepare", "ouf.managed-source.onboarding.review.prepare", .command⟩, 10⟩

def readMode : ReviewMode := ⟨⟨"review-read", "ouf.managed-source.onboarding.read", .read⟩, 3⟩

def managedFiles : CompileConfig.SourceRuntimeProfile :=
  ⟨⟨"onboarding-managed-files", "1.0.0"⟩, "service://ouf-onboarding", none⟩

def reviewFiles : List (String × CompileConfig.Loaded) :=
  [("prepare.yaml", .document (.capability prepareMode.capability)),
    ("read.yaml", .document (.capability readMode.capability)),
    ("managed-files.yaml", .document (.sourceRuntimeProfile managedFiles)),
    ("review-prepare.yaml", .document (.routeBinding prepareMode.binding)),
    ("review-read.yaml", .document (.routeBinding readMode.binding))]

def reviewArtifact : Artifact := sealed (byId [prepareMode.emitted managedFiles, readMode.emitted managedFiles])

theorem compile_review : compileConfig reviewFiles = .ok reviewArtifact := rfl

def reviewRoutes : List ProjectedRoute := [prepareMode.projected managedFiles, readMode.projected managedFiles]

def reviewRuntime : Projected where
  routes := reviewRoutes
  installation := labInstallation
  configurationSha256 := Sha256.ofText (CompileConfig.canonical (baseJson reviewRoutes labInstallation))

theorem serializable_review : (baseJson reviewRoutes labInstallation).serializable = true := rfl

theorem project_review : applyProjection reviewArtifact labProjection = .ok reviewRuntime := by
  have hsorted : [prepareMode.emitted managedFiles, readMode.emitted managedFiles].Pairwise
      (fun a b => decide (a.id ≤ b.id) = true) := by
    simp only [List.pairwise_cons, List.mem_singleton, forall_eq, List.not_mem_nil, IsEmpty.forall_iff, implies_true,
      List.Pairwise.nil, and_true]
    decide
  have hfields : Projection.readFields labProjection = .ok labFields := rfl
  have hbindings : Projection.readBindings labProjection = .ok [] := rfl
  have hid : Projection.require labProjection ["installationId"] = .ok "lab" := rfl
  have hchecksum : Projection.require labProjection ["checksum"] = .ok "c0" := rfl
  have hroutes : Projection.projectRoutes labFields []
      (sealed [prepareMode.emitted managedFiles, readMode.emitted managedFiles]).routes = .ok reviewRoutes := rfl
  have hrevision : (labProjection.get? "revision").getD .null = .int 1 := rfl
  rw [reviewArtifact, byId, List.mergeSort_of_pairwise hsorted]
  simp only [applyProjection, hfields, hbindings, hid, hchecksum, hroutes, hrevision, bind_eq_ok, Except.ok.injEq,
    exists_eq_left', List.mergeSort_nil]
  exact if_pos serializable_review

/-- The route of the status, as a template. -/
def reviewTemplate : Route where
  id := some "mcp-capability-execute"
  uri := some executeUri
  methods := [.post]
  mediation := some "status-execute-v1"
  plugins := {
    openidConnect := some ⟨"gateway", "$ENV://OIDC", "issuer/.well-known/openid-configuration", []⟩
    limitCount := some 100
    requestValidation := some ⟨65536, "ouf.system.status"⟩
    serverlessPreFunction := some (stripsOuf ["x-ouf-delegation"])
    proxyRewrite := some statusPath }
  upstream := ⟨"http", [("ouf-mcp-server:8080", 1)], 0, ⟨3, 3, 3⟩⟩

def reviewKeys : Keys := ⟨"DELEGATION_KEY", "OWNER_KEY"⟩

/-- The function of both modes. -/
def reviewFunction : Function where
  kind := some .managedFile
  values := [("DELEGATION_KEY_ENV", "DELEGATION_KEY"), ("ISSUER", "issuer"), ("AUDIENCE", "gateway"),
    ("MCP_WORKLOAD", "mcp"), ("OWNER_KEY_ENV", "OWNER_KEY")]

def ReviewMode.route (m : ReviewMode) : Route where
  id := some ("mcp-managed-file-" ++ m.mode.mode)
  uri := some (fileUri m.mode.mode)
  methods := [.post]
  mediation := some "onboarding-review-v1"
  plugins := {
    reviewTemplate.plugins with
    requestValidation := some ⟨65536, m.mode.capability⟩
    serverlessPostFunction := some reviewFunction
    proxyRewrite := some (filePath m.mode.mode) }
  upstream := ⟨"http", [("ouf-onboarding:8080", 1)], 0, ⟨3, m.timeout, m.timeout⟩⟩

theorem add_review : addReviews [reviewTemplate] reviewRuntime reviewKeys =
    .ok [reviewTemplate, prepareMode.route, readMode.route] := rfl

theorem load_review : reviewFunction.load =
    some ⟨settingsOf labInstallation, bytes "DELEGATION_KEY", some (bytes "OWNER_KEY")⟩ := by
  have hread := read_constants reviewFunction.values
  have hlegible : (reviewFunction.values.all fun v => (PyJson.points v.2).all LuaString.legible) = true := by decide
  simp only [Function.load, Function.text, hread, if_pos hlegible]
  rfl

/-! ### The request -/

def callerText : Bytes :=
  bytes "\x7b\"iss\":\"issuer\",\"aud\":\"gateway\",\"exp\":2000,\"azp\":\"mcp\"," ++
    bytes "\"ouf_actor_type\":\"SERVICE\",\"tenant_id\":\"a\"\x7d"

def callerTable : Value :=
  DelegationProof.record
    [(bytes "iss", .string (bytes "issuer")), (bytes "aud", .string (bytes "gateway")), (bytes "exp", Lua.ofNat 2000),
      (bytes "azp", .string (bytes "mcp")), (bytes "ouf_actor_type", .string (bytes "SERVICE")),
      (bytes "tenant_id", .string (bytes "a"))]

def proofText : Bytes :=
  bytes "\x7b\"v\":1,\"purpose\":\"mcp-execute\",\"iss\":\"issuer\",\"aud\":\"gateway\",\"workload\":\"mcp\"," ++
    bytes "\"actor\":\"HUMAN\",\"iat\":1000,\"exp\":1060,\"principal\":\"a\",\"tenant\":\"a\",\"acr\":\"a\"," ++
    bytes "\"client\":\"a\",\"scope\":\"ouf.managed-source.onboarding.read\",\"roles\":\"reader\"\x7d"

def proofTable : Value :=
  DelegationProof.record
    [(bytes "v", Lua.ofNat 1), (bytes "purpose", .string (bytes "mcp-execute")),
      (bytes "iss", .string (bytes "issuer")),
      (bytes "aud", .string (bytes "gateway")), (bytes "workload", .string (bytes "mcp")),
      (bytes "actor", .string (bytes "HUMAN")), (bytes "iat", Lua.ofNat 1000), (bytes "exp", Lua.ofNat 1060),
      (bytes "principal", .string (bytes "a")), (bytes "tenant", .string (bytes "a")),
      (bytes "acr", .string (bytes "a")), (bytes "client", .string (bytes "a")),
      (bytes "scope", .string (bytes "ouf.managed-source.onboarding.read")), (bytes "roles", .string (bytes "reader"))]

def askedText : Bytes :=
  bytes "\x7b\"Identity\":\x7b\"PrincipalID\":\"a\",\"TenantID\":\"a\",\"ActorType\":\"HUMAN\"," ++
    bytes "\"AuthenticationContextRef\":\"a\",\"ServicePrincipalID\":\"a\"\x7d,\"CapabilityID\":" ++
    bytes "\"ouf.managed-source.onboarding.read\",\"GatewayBindingRef\":" ++
    bytes "\"capability://ouf.managed-source.onboarding.read\",\"Owner\":\"onboarding\"," ++
    bytes "\"OperationClass\":\"READ\",\"CorrelationID\":\"c\",\"IdempotencyKey\":\"k\",\"AttemptID\":\"t\"\x7d"

def askedTable : Value :=
  DelegationProof.record
    [(bytes "Identity", DelegationProof.record
        [(bytes "PrincipalID", .string (bytes "a")), (bytes "TenantID", .string (bytes "a")),
          (bytes "ActorType", .string (bytes "HUMAN")), (bytes "AuthenticationContextRef", .string (bytes "a")),
          (bytes "ServicePrincipalID", .string (bytes "a"))]),
      (bytes "CapabilityID", .string (bytes "ouf.managed-source.onboarding.read")),
      (bytes "GatewayBindingRef", .string (bytes "capability://ouf.managed-source.onboarding.read")),
      (bytes "Owner", .string (bytes "onboarding")), (bytes "OperationClass", .string (bytes "READ")),
      (bytes "CorrelationID", .string (bytes "c")), (bytes "IdempotencyKey", .string (bytes "k")),
      (bytes "AttemptID", .string (bytes "t"))]

def reviewDecode (raw : Bytes) : Value :=
  if raw = callerText then callerTable
  else if raw = proofText then proofTable
  else if raw = askedText then askedTable
  else .nil

def reviewHost : Host where
  worker := { Executors.sampleWorker with cjson := { Executors.sampleWorker.cjson with decode := reviewDecode } }
  env name :=
    if name = bytes "DELEGATION_KEY" then some (List.replicate 64 97)
    else if name = bytes "OWNER_KEY" then some (List.replicate 64 98)
    else none

/-- The worker behind the function. -/
def reviewWorker : Worker :=
  { reviewHost.worker with key := some (List.replicate 64 97), ownerKey := some (List.replicate 64 98) }

theorem decode_caller : reviewDecode callerText = callerTable := if_pos rfl

theorem decode_worker (raw : Bytes) : reviewWorker.cjson.decode raw = reviewDecode raw := rfl

theorem decode_proof : reviewWorker.cjson.decode proofText = proofTable := by
  have hne : proofText ≠ callerText := by
    intro h
    have h3 := congrArg (fun raw => raw.take 3) h
    revert h3
    decide
  rw [decode_worker, reviewDecode, if_neg hne, if_pos rfl]

theorem decode_asked : reviewWorker.cjson.decode askedText = askedTable := by
  have hcaller : askedText ≠ callerText := by
    intro h
    have h3 := congrArg (fun raw => raw.take 3) h
    revert h3
    decide
  have hproof : askedText ≠ proofText := by
    intro h
    have h3 := congrArg (fun raw => raw.take 3) h
    revert h3
    decide
  rw [decode_worker, reviewDecode, if_neg hcaller, if_neg hproof, if_pos rfl]

/-- The code of the delegation key for the payload. -/
def proofCode : Bytes :=
  DelegationProof.hmacSha256 (List.replicate 64 97) (bytes "ouf-mcp-delegation-v1." ++ encode64 proofText)

def reviewProof : Bytes := encode64 proofText ++ 46 :: encode64 proofCode

def reviewRequest : Request where
  authorization := some (bytes "Bearer " ++ (bytes "a" ++ 46 :: (encode64 callerText ++ 46 :: bytes "c")))
  headers :=
    [(bytes "X-OUF-Delegation", reviewProof), (bytes "X-Correlation-Id", bytes "c"),
      (bytes "Idempotency-Key", bytes "k"),
      (bytes "X-Tool-Attempt-Id", bytes "t")]
  uri := bytes (fileUri "review-read")
  body := some askedText

theorem caller_review :
    Executors.caller reviewWorker (settingsOf labInstallation) reviewRequest 1059 = .ok callerTable := by
  have hclaims : Executors.jwtClaims reviewWorker reviewRequest.authorization = callerTable := by
    have hread : Executors.jwtClaims reviewWorker reviewRequest.authorization = reviewDecode callerText :=
      Executors.jwtClaims_bearer ⟨by decide, by decide⟩ ⟨by decide, by decide⟩ (by decide)
    rw [hread, decode_caller]
  simp only [Executors.caller, hclaims, bind_eq_ok, DelegationProof.ensure_ok, DelegationProof.require_ok,
    DelegationProof.numberOf_eq_some]
  refine ⟨(), by decide, .finite 2000, rfl, (), by decide, rfl⟩

/-- A payload that is decoded to the table of the proof, with the code that is made for it. -/
theorem checkProof_signed {w : Worker} {text mac : Bytes} (hdecode : w.cjson.decode text = proofTable)
    (htext : text ≠ [] ∧ text.length ≤ 1000) (hmac : mac.length = 32)
    (hsign : DelegationProof.sign w.toRuntime (encode64 text) = some mac) :
    Executors.checkProof w (settingsOf labInstallation) {} (.string (bytes "a")) 1059
      (.string (encode64 text ++ 46 :: encode64 mac)) =
        .ok ⟨encode64 text ++ 46 :: encode64 mac, proofTable, .finite 1060, bytes "reader"⟩ := by
  have hlength : (encode64 text ++ 46 :: encode64 mac).length ≤ 16384 := by
    rw [List.length_append, List.length_cons, length_encode64, length_encode64]
    omega
  have hne : mac ≠ [] := by
    intro h
    rw [h] at hmac
    cases hmac
  have hsplit := splitProof_append (encode64_ne_nil htext.1)
    (encode64_ne_nil hne) (encode64_isWord text) (encode64_isWord mac)
  have hsame : (decode64 (encode64 mac)).any (fun m => same mac m) = true := by
    rw [decode64_encode64]
    exact same_iff.mpr rfl
  have hdecoded : ((decode64 (encode64 text)).map w.cjson.decode).getD .nil = proofTable := by
    rw [decode64_encode64]
    exact hdecode
  simp only [Executors.checkProof, bind_eq_ok, DelegationProof.ensure_ok, DelegationProof.require_ok,
    DelegationProof.numberOf_eq_some]
  refine ⟨_, if_pos hlength, _, hsplit, mac, hsign, (), hsame, ?_⟩
  rw [hdecoded]
  have htimes : ¬ Lua.Number.lt (.finite (1059 : Nat)) (.finite 1000) = true ∧
      ¬ Lua.Number.le (.finite 1060) (.finite (1059 : Nat)) = true ∧
      ¬ (false = true ∧ Lua.Number.le (.finite 1060) (.finite 1000) = true) ∧
      ¬ Lua.Number.lt (.finite 60) (Lua.Number.sub (.finite 1060) (.finite 1000)) = true := by
    norm_num [Lua.Number.lt, Lua.Number.le, Lua.Number.sub]
  exact ⟨(), by decide, .finite 1000, rfl, .finite 1060, rfl, (), htimes, (), by decide, (), by decide,
    bytes "reader", by decide, rfl⟩

theorem sign_review (x : Bytes) : DelegationProof.sign reviewWorker.toRuntime x =
    some (DelegationProof.hmacSha256 (List.replicate 64 97) (bytes "ouf-mcp-delegation-v1." ++ x)) := by
  have hkey : (List.replicate 64 (97 : UInt8)).length = 64 ∧
      (List.replicate 64 97).all DelegationProof.isHexByte = true := by decide
  unfold DelegationProof.sign
  dsimp only [reviewWorker, reviewHost, Executors.sampleWorker, DelegationProof.sampleRuntime]
  rw [if_pos hkey]

theorem checkProof_review :
    Executors.checkProof reviewWorker (settingsOf labInstallation) {} (claim callerTable "tenant_id")
    1059 (.string reviewProof) = .ok ⟨reviewProof, proofTable, .finite 1060, bytes "reader"⟩ := by
  have htenant : claim callerTable "tenant_id" = .string (bytes "a") := rfl
  have hshort : proofText ≠ [] ∧ proofText.length ≤ 1000 := by
    refine ⟨fun h => absurd (congrArg (fun raw => raw.take 1) h) (by decide), ?_⟩
    simp only [proofText, List.length_append]
    decide
  have hcode : proofCode.length = 32 := Sha256.length_digest _
  have hsign : DelegationProof.sign reviewWorker.toRuntime (encode64 proofText) = some proofCode :=
    sign_review (encode64 proofText)
  rw [htenant]
  exact checkProof_signed decode_proof hshort hcode hsign

theorem admit_review : Executors.vouch reviewWorker (settingsOf labInstallation)
    (Executors.executeManagedFile reviewWorker (settingsOf labInstallation)).checks reviewRequest 1059 =
      .ok ⟨1059, ⟨reviewProof, proofTable, .finite 1060, bytes "reader"⟩, bytes (fileUri "review-read"), askedText,
        askedTable⟩ := by
  have hbody : DelegationProof.require 413 (reviewRequest.body.filter fun body => body.length ≤ 65536) =
      .ok askedText := by
    refine DelegationProof.require_ok.mpr (Option.filter_eq_some_iff.mpr ⟨rfl, ?_⟩)
    simp only [askedText, List.length_append]
    decide
  have hidentity : Executors.checkIdentity (settingsOf labInstallation) false proofTable askedTable = .ok () :=
    DelegationProof.ensure_ok.mpr (by decide)
  have hbinding : (Executors.executeManagedFile reviewWorker (settingsOf labInstallation)).checks.binding
      reviewRequest.uri (claim proofTable "scope") askedTable = .ok () := by
    simp only [Executors.executeManagedFile, bind_eq_ok, DelegationProof.ensure_ok]
    exact ⟨(), by decide, by decide⟩
  have hcorrelation : Executors.checkCorrelation reviewRequest askedTable = .ok () :=
    DelegationProof.ensure_ok.mpr ⟨rfl, rfl, rfl⟩
  have hheader : Executors.header reviewRequest "x-ouf-delegation" = .string reviewProof := rfl
  unfold Executors.vouch
  rw [caller_review, hheader]
  simp only [bind_eq_ok]
  refine ⟨_, rfl, ⟨reviewProof, proofTable, .finite 1060, bytes "reader"⟩, checkProof_review, _, hbody, askedTable, ?_,
    (), hidentity, (), hbinding, (), hcorrelation, rfl⟩
  simp only [Executors.readEnvelope, decode_asked, bind_eq_ok, DelegationProof.ensure_ok]
  exact ⟨(), ⟨rfl, rfl, fun h => by cases h⟩, rfl⟩

theorem finish_review (hs : Headers.Lines) :
    ∃ out, (Executors.executeManagedFile reviewWorker (settingsOf labInstallation)).finish
      ⟨1059, ⟨reviewProof, proofTable, .finite 1060, bytes "reader"⟩, bytes (fileUri "review-read"), askedText,
        askedTable⟩ hs = .ok out := by
  have hkey : Executors.ownerKeyOf reviewWorker = .ok (List.replicate 64 98) :=
    DelegationProof.require_ok.mpr (Option.filter_eq_some_iff.mpr ⟨rfl, by decide⟩)
  simp only [Executors.executeManagedFile, Executors.sendReceipt, Executors.signReceipt, hkey, bind_eq_ok,
    Except.ok.injEq, exists_eq_left', DelegationProof.require_ok]
  exact ⟨_, _, ⟨_, rfl, rfl⟩, rfl⟩

/-- The request is delivered. -/
theorem serve_review : ∃ d, readMode.route.serve reviewHost reviewRequest 1059 = .ok d := by
  obtain ⟨out, hout⟩ := finish_review (Headers.clearWhere Executors.isTrusted reviewRequest.headers)
  have hshort : askedText.length ≤ 65536 := by
    simp only [askedText, List.length_append]
    decide
  have hnamed : (claim (reviewHost.worker.cjson.decode askedText) "CapabilityID").isString
      (bytes "ouf.managed-source.onboarding.read") = true := by
    have hdecode : reviewHost.worker.cjson.decode askedText = askedTable := decode_asked
    rw [hdecode]
    decide
  have hvalid : readMode.route.validate reviewHost reviewRequest = .ok () := by
    have hcheck : Validation.check reviewHost ⟨65536, "ouf.managed-source.onboarding.read"⟩ reviewRequest = .ok () := by
      simp only [Validation.check, bind_eq_ok, DelegationProof.require_ok, DelegationProof.ensure_ok]
      exact ⟨askedText, rfl, (), hshort, hnamed⟩
    exact hcheck
  have hrun : Kind.managedFile.run reviewWorker (settingsOf labInstallation) reviewRequest 1059 = .ok out :=
    bind_eq_ok.mpr ⟨_, admit_review, hout⟩
  refine ⟨⟨readMode.route.upstream.nodes, bytes (filePath "review-read"), out⟩, ?_⟩
  simp only [Route.serve, bind_eq_ok, DelegationProof.require_ok]
  exact ⟨(), hvalid, reviewFunction, rfl, _, load_review, .managedFile, rfl, out, hrun, rfl⟩

end Sample

end OufGateway.Mediation
