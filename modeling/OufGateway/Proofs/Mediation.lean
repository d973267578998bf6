import OufGateway.Proofs.Delegated
import OufGateway.Proofs.GeneratedLua
import OufGateway.Proofs.Materialize
import OufGateway.Ref.Mediation

/-!
# What a mediation route enforces

Every materializer compares a binding with its profile and then writes a route whose
function has the profile's constants; nothing in the route points back to the binding.
That the two say the same is proved here once for all profiles. `Serves` is what ties
them together: for a request to the route, under its own URI or the rewritten one, the
grant an executor selects and the path it signs are those of the profile. With it a
request that a route delivers has passed what its binding asks, and no more is left to
each profile than its table.
-/

namespace OufGateway.Mediation

open OufGateway.Lib
open CompileConfig (CompiledRoute Method OperationType)
open Delegation (scopeHas)
open Executors (Authorized Forwarded Grant Kind Request Telling Uploads Verified Worker Workload)
open Lua (Bytes Value)
open MaterializeM2M (MaterializationError ensure_ok require_ok nodeOf)
open Projection (Installation Projected ProjectedRoute)
open TrustedIdentity (bytes claim)

variable {py : Python} {runtime : Projected} {i : Installation} {keyEnv : String} {ownerKeyEnv : Option String}
  {source : Source} {f : Function} {route template : Route} {b : ProjectedRoute} {keys : Keys} {workload : String}

/-! ## Functions -/

/-- What Lua reads of the settings of an installation. -/
def settingsOf (i : Installation) : DelegationProof.Settings :=
  ⟨bytes (Text.rstrip '/' i.fields.issuer), bytes i.fields.audience, bytes i.fields.mcp⟩

theorem function_ok (h : function source i keyEnv ownerKeyEnv = .ok f) :
    ∃ owner capability, ownerKeyValues source ownerKeyEnv = .ok owner ∧ capabilityValues source = .ok capability ∧
      f = ⟨capability.1, settingValues i keyEnv ++ owner ++ capability.2⟩ := by
  simp only [function, bind_eq_ok] at h
  obtain ⟨-, -, -, -, owner, howner, capability, hcapability, h⟩ := h
  exact ⟨owner, capability, howner, hcapability, (Except.ok.inj h).symm⟩

/-- The constants by their names, as Lua reads them. -/
theorem read_constants (values : List (String × String)) :
    GeneratedLua.readConstants (values.map (·.1))
        (Encoding.encode (GeneratedLua.constants (values.map fun v => (v.1, PyJson.points v.2)))) =
      if values.all (fun v => (PyJson.points v.2).all LuaString.legible) then some (values.map (bytes ·.2), [])
      else none := by
  have hread := GeneratedLua.readConstants_constants (values.map fun v => (v.1, PyJson.points v.2)) []
  rw [List.append_nil, List.map_map, List.map_map, List.all_map] at hread
  exact hread

/-- A function that loads has the settings it was given and the key it names. -/
theorem load_function (h : function source i keyEnv ownerKeyEnv = .ok f) {l : Loaded} (hl : f.load = some l) :
    l.settings = settingsOf i ∧ l.keyEnv = bytes keyEnv := by
  obtain ⟨owner, capability, -, -, rfl⟩ := function_ok h
  have hread := read_constants (settingValues i keyEnv ++ owner ++ capability.2)
  simp only [Function.load, Function.text, hread] at hl
  split at hl
  · next hlegible =>
    rw [List.append_assoc] at hl
    simp [settingValues, List.lookup] at hl
    obtain rfl := hl
    exact ⟨rfl, rfl⟩
  · cases hl

theorem function_kind {k : Kind} {values : List (String × String)} (h : function source i keyEnv ownerKeyEnv = .ok f)
    (hk : capabilityValues source = .ok (some k, values)) : f.kind = some k := by
  obtain ⟨owner, capability, -, hcapability, rfl⟩ := function_ok h
  rw [hk] at hcapability
  obtain rfl := Except.ok.inj hcapability
  rfl

theorem kind_operational {o : Operational} (ho : o ∈ operationalCapabilities)
    (h : function (.executeOperational ⟨o.capability, o.owner, o.scope⟩) i keyEnv ownerKeyEnv = .ok f) :
    f.kind = some (.operational (bytes o.capability) o.owner (bytes o.scope)) := by
  simp only [operationalCapabilities, List.mem_cons, List.not_mem_nil, or_false] at ho
  rcases ho with rfl | rfl | rfl | rfl | rfl | rfl <;> exact function_kind h rfl

theorem kind_semanticProposals {c : SemanticProposal} (hc : c ∈ semanticCapabilities)
    (h : function (.executeSemanticProposals ⟨c.capability, "semantic", c.scope⟩) i keyEnv ownerKeyEnv = .ok f) :
    f.kind = some (.semanticProposals (bytes c.capability) (bytes c.scope) c.operation.text
      (bytes (semanticPath c.mode))) := by
  simp only [semanticCapabilities, List.mem_cons, List.not_mem_nil, or_false] at hc
  rcases hc with rfl | rfl | rfl | rfl <;> exact function_kind h rfl

/-! ## What an executor answers to -/

theorem bytes_append (a b : String) : bytes (a ++ b) = bytes a ++ bytes b := by
  unfold bytes PyJson.points Encoding.encode
  rw [String.toList_append, List.map_append, List.map_append]

/-- The last segment of a path is found whatever is before it. -/
theorem lastSegment_append {member : UInt8 → Bool} {name : Bytes} (hne : name ≠ []) (hall : name.all member = true)
    (hslash : 47 ∉ name) (lead : Bytes) : Executors.lastSegment member (lead ++ 47 :: name) = some name := by
  have htake : (((lead ++ 47 :: name).reverse.takeWhile (· ≠ 47)).reverse) = name := by
    have hkeep : ∀ b ∈ name.reverse, decide (b ≠ 47) = true := by
      intro b hb
      exact decide_eq_true fun h => hslash (h ▸ List.mem_reverse.mp hb)
    rw [List.reverse_append, List.reverse_cons, List.append_assoc, List.takeWhile_append_of_pos hkeep]
    simp
  unfold Executors.lastSegment
  have hshort : name.length < (lead ++ 47 :: name).length := by
    rw [List.length_append, List.length_cons]
    omega
  rw [htake, if_pos ⟨hne, hall, hshort⟩]

/-- What an owner is told is at a path and of a capability, if it is told of them. -/
def At (path capability : Bytes) : Telling → Prop
  | .headers => True
  | .receipt _ _ p c => p = path ∧ c = capability

/-- Under a URI or the one it is rewritten to, and with the capability of the schema, there is one grant, and what
is signed is the path the request goes to. -/
def Serves (k : Kind) (schema uri path : String) (g : Grant) : Prop :=
  ∀ u, u = bytes uri ∨ u = bytes path → ∀ e, claim e "CapabilityID" = .string (bytes schema) →
    ∀ g', k.grant u e = some g' → g' = g ∧ At (bytes path) g.capability (k.telling u e g')

theorem serves_status (uri : String) : Serves .status "ouf.system.status" uri statusPath
    ⟨bytes "ouf.system.status", bytes "operations.status.read", "mcp", "READ"⟩ := by
  intro u _ e _ g hg
  exact ⟨(Option.some.inj hg).symm, trivial⟩

theorem serves_operational (o : Operational) (uri : String) :
    Serves (.operational (bytes o.capability) o.owner (bytes o.scope)) o.capability uri o.path
      ⟨bytes o.capability, bytes o.scope, o.owner, "READ"⟩ := by
  intro u _ e _ g hg
  exact ⟨(Option.some.inj hg).symm, trivial⟩

theorem serves_semanticProposals {c : SemanticProposal} (hc : c ∈ semanticCapabilities) (uri : String) :
    Serves (.semanticProposals (bytes c.capability) (bytes c.scope) c.operation.text (bytes (semanticPath c.mode)))
      c.capability uri (semanticPath c.mode) ⟨bytes c.capability, bytes c.scope, "semantic", c.operation.text⟩ := by
  intro u _ e _ g hg
  obtain rfl := Option.some.inj hg
  have hscope : c.scope = c.capability := by
    simp only [semanticCapabilities, List.mem_cons, List.not_mem_nil, or_false] at hc
    rcases hc with rfl | rfl | rfl | rfl <;> rfl
  exact ⟨rfl, rfl, congrArg bytes hscope⟩

theorem serves_objectSearch (uri : String) : Serves .objectSearch "urban.object.search" uri searchPath
    ⟨bytes "urban.object.search", bytes "urban.object.search", "udp", "SEARCH"⟩ := by
  intro u _ e _ g hg
  obtain rfl := Option.some.inj hg
  exact ⟨rfl, rfl, rfl⟩

/-- The capability of the schema is what selects the mode of a permission. -/
theorem serves_permissions {c : PermissionCapability} (hc : c ∈ permissionCapabilities) (uri : String) :
    Serves .permissions c.capability uri ("/api/internal/v1/authorization/permissions/" ++ c.mode)
      ⟨bytes c.capability, bytes c.capability, "authorization", c.operation.text⟩ := by
  intro u _ e he g hg
  have hmode : Executors.permissionMode e = some ⟨c.mode, c.capability, c.operation.text, none⟩ := by
    unfold Executors.permissionMode
    rw [he]
    simp only [permissionCapabilities, List.mem_cons, List.not_mem_nil, or_false] at hc
    rcases hc with rfl | rfl | rfl <;> decide
  simp only [Executors.Kind.grant, hmode, Option.map_some, Option.some.injEq] at hg
  obtain rfl := hg
  refine ⟨rfl, ?_, rfl⟩
  rw [hmode, bytes_append]
  rfl

/-- A name that the pattern of `execute_managed_file` matches, and the operation under it. -/
structure FileOperation (m : FileMode) : Prop where
  nonempty : bytes m.mode ≠ []
  matched : ((bytes m.mode).all fun b => Executors.isSmall b || b = 45) = true
  slash : 47 ∉ bytes m.mode
  operation : Executors.operationOf Executors.managedFileOperations (some (bytes m.mode)) =
    some ⟨m.mode, m.capability, m.operation.text, none⟩

theorem fileOperation {m : FileMode} (hm : m ∈ fileModes ++ reviewModes) : FileOperation m := by
  simp only [fileModes, reviewModes, List.cons_append, List.nil_append, List.mem_cons, List.not_mem_nil, or_false] at hm
  rcases hm with rfl | rfl | rfl | rfl | rfl | rfl <;> constructor <;> decide

theorem bytes_fileUri (mode : String) :
    bytes (fileUri mode) = bytes executeUri ++ bytes "/managed.file" ++ 47 :: bytes mode := by
  have hslash : bytes "/managed.file/" = bytes "/managed.file" ++ [47] := by
    decide
  rw [fileUri, bytes_append _ mode, bytes_append executeUri, hslash]
  simp only [List.append_assoc, List.cons_append, List.nil_append]

/-- The path in front of a mode, without its last slash. -/
def fileRoot : Bytes := bytes "/api/internal/v1/onboarding/managed-file-mcp"

theorem bytes_filePath (mode : String) : bytes (filePath mode) = fileRoot ++ 47 :: bytes mode := by
  have hslash : bytes "/api/internal/v1/onboarding/managed-file-mcp/" = fileRoot ++ [47] := by
    decide
  calc bytes (filePath mode)
      = bytes "/api/internal/v1/onboarding/managed-file-mcp/" ++ bytes mode := bytes_append _ mode
    _ = fileRoot ++ [47] ++ bytes mode := by rw [hslash]
    _ = fileRoot ++ 47 :: bytes mode := by rw [List.append_assoc, List.singleton_append]

theorem serves_managedFile {m : FileMode} (hm : m ∈ fileModes ++ reviewModes) :
    Serves .managedFile m.capability (fileUri m.mode) (filePath m.mode)
      ⟨bytes m.capability, bytes m.capability, "onboarding", m.operation.text⟩ := by
  intro u hu e _ g hg
  have ho := fileOperation hm
  have hlast : Executors.managedFileName u = some (bytes m.mode) := by
    unfold Executors.managedFileName
    rcases hu with rfl | rfl
    · rw [bytes_fileUri]
      exact lastSegment_append ho.nonempty ho.matched ho.slash _
    · rw [bytes_filePath]
      exact lastSegment_append ho.nonempty ho.matched ho.slash _
  simp only [Executors.Kind.grant, hlast, ho.operation, Option.map_some, Option.some.injEq] at hg
  obtain rfl := hg
  refine ⟨rfl, ?_, rfl⟩
  rw [hlast]
  exact (bytes_append _ m.mode).symm

/-- The scope of a semantic read where it is not its capability. -/
def ownScope (name : String) : Option String := if name = "get" then some "ouf.semantic.read" else none

structure ReadOperation (m : ReadMode) : Prop where
  nonempty : bytes m.name ≠ []
  matched : (bytes m.name).all Executors.isSmall = true
  slash : 47 ∉ bytes m.name
  operation : Executors.operationOf Executors.semanticReadOperations (some (bytes m.name)) =
    some ⟨m.name, m.capability, "READ", ownScope m.name⟩

theorem readOperation {m : ReadMode} (hm : m ∈ readModes) : ReadOperation m := by
  simp only [readModes, List.mem_cons, List.not_mem_nil, or_false] at hm
  rcases hm with rfl | rfl <;> constructor <;> decide

def readRoot : Bytes := bytes "/api/internal/v1/semantic/consultation"

theorem bytes_consultationPath (name : String) : bytes (consultationPath name) = readRoot ++ 47 :: bytes name := by
  have hslash : bytes "/api/internal/v1/semantic/consultation/" = readRoot ++ [47] := by
    decide
  calc bytes (consultationPath name)
      = bytes "/api/internal/v1/semantic/consultation/" ++ bytes name := bytes_append _ name
    _ = readRoot ++ [47] ++ bytes name := by rw [hslash]
    _ = readRoot ++ 47 :: bytes name := by rw [List.append_assoc, List.singleton_append]

theorem bytes_readUri (name : String) :
    bytes (executeUri ++ "/semantic/" ++ name) = bytes executeUri ++ bytes "/semantic" ++ 47 :: bytes name := by
  have hslash : bytes "/semantic/" = bytes "/semantic" ++ [47] := by
    decide
  rw [bytes_append _ name, bytes_append executeUri, hslash]
  simp only [List.append_assoc, List.cons_append, List.nil_append]

theorem serves_semanticRead {m : ReadMode} (hm : m ∈ readModes) :
    Serves .semanticRead m.capability (executeUri ++ "/semantic/" ++ m.name) (consultationPath m.name)
      ⟨bytes m.capability, bytes ((ownScope m.name).getD m.capability), "semantic", "READ"⟩ := by
  intro u hu e _ g hg
  have ho := readOperation hm
  have hlast : Executors.semanticReadName u = some (bytes m.name) := by
    unfold Executors.semanticReadName
    rcases hu with rfl | rfl
    · rw [bytes_readUri]
      exact lastSegment_append ho.nonempty ho.matched ho.slash _
    · rw [bytes_consultationPath]
      exact lastSegment_append ho.nonempty ho.matched ho.slash _
  simp only [Executors.Kind.grant, hlast, ho.operation, Option.map_some, Option.some.injEq] at hg
  obtain rfl := hg
  refine ⟨rfl, ?_, rfl⟩
  rw [hlast]
  exact (bytes_append _ m.name).symm

/-! ## Bindings -/

theorem only_ok {α : Type} {message : String} {l : List α} {a : α} : only message l = .ok a ↔ l = [a] := by
  unfold only
  split
  · next b => simp
  · next h => exact ⟨fun hok => (by cases hok), fun hl => absurd hl (h a)⟩

theorem mem_of_only {α : Type} {message : String} {l : List α} {a : α} (h : only message l = .ok a) : a ∈ l := by
  rw [only_ok.mp h]
  exact List.mem_singleton_self a

theorem mem_candidates {capability : String} (h : b ∈ candidates runtime capability) :
    b ∈ runtime.routes ∧ ∃ c, b.route.capability = some c ∧ c.capabilityId = capability := by
  obtain ⟨hb, hc⟩ := List.mem_filter.mp h
  obtain ⟨c, hsome, hid⟩ := (Option.any_eq_true _ _).mp (Bool.and_eq_true_iff.mp hc).1
  exact ⟨hb, c, hsome, of_decide_eq_true hid⟩

/-- A binding of a capability that fits a profile, with some service for the workload. -/
structure Fitting (runtime : Projected) (b : ProjectedRoute) (capability : String) (p : Profile) (workload : String) :
    Prop where
  member : b ∈ runtime.routes
  capability : ∃ c, b.route.capability = some c ∧ c.capabilityId = capability ∧ c.owner = p.owner ∧
    c.operationType = p.operation ∧ c.humanRequired = false
  identity : b.route.policy.identity = .m2m
  service : workload ∈ b.route.policy.allowedServiceIdentities.getD []
  scope : b.route.policy.requiredScope = some p.scope
  size : b.route.policy.maxRequestBytes = p.maxRequestBytes
  timeout : b.route.policy.timeoutSeconds = p.timeout

theorem fitting {capability : String} {p : Profile} (hb : b ∈ runtime.routes)
    (hc : ∃ c, b.route.capability = some c ∧ c.capabilityId = capability)
    (hcapability : p.fitsCapability b.route = true) (haccess : p.fitsAccess workload b.route = true)
    (hlimits : p.fitsLimits b.route = true) : Fitting runtime b capability p workload := by
  obtain ⟨c, hsome, hid⟩ := hc
  simp only [Profile.fitsCapability, hsome, Option.any_some, Bool.and_eq_true, decide_eq_true_eq, Bool.not_eq_true']
    at hcapability
  simp only [Profile.fitsAccess, Bool.and_eq_true, decide_eq_true_eq, List.contains_iff_mem] at haccess
  simp only [Profile.fitsLimits, Bool.and_eq_true, decide_eq_true_eq] at hlimits
  obtain ⟨⟨⟨howner, hoperation⟩, hhuman⟩, -⟩ := hcapability
  obtain ⟨⟨hidentity, hservice⟩, hscope⟩ := haccess
  exact ⟨hb, ⟨c, hsome, hid, howner, hoperation, hhuman⟩, hidentity, hservice, hscope, hlimits.1, hlimits.2⟩

theorem fits_ok {capability : String} {p : Profile} (hb : b ∈ runtime.routes)
    (hc : ∃ c, b.route.capability = some c ∧ c.capabilityId = capability) (h : p.fits workload b.route = true) :
    Fitting runtime b capability p workload := by
  simp only [Profile.fits, Bool.and_eq_true] at h
  exact fitting hb hc h.1.1.1 h.1.1.2 h.2

/-! ## Routes and their bindings -/

/-- What a route has to be for its requests to obey a binding. The hand-off is bound by the upload. -/
structure Follows (runtime : Projected) (b : ProjectedRoute) (route : Route) (k : Kind) (capability : String)
    (p : Profile) (uri path : String) : Prop where
  fits : ∃ workload, Fitting runtime b capability p workload ∧
    (workload = runtime.installation.fields.mcp ∨ workload = Text.strip runtime.installation.fields.mcp)
  function : ∃ f, route.plugins.serverlessPostFunction = some f ∧ f.kind = some k ∧
    ∀ l, f.load = some l → l.settings = settingsOf runtime.installation
  listens : route.uri = some uri
  rewrite : route.plugins.proxyRewrite = some path
  bound : b.route.proxyRewrite = some path ∨ path = filePath "handoff" ∧ b.route.proxyRewrite = some (filePath "upload")
  node : ∃ service port, b.route.serviceId = some service ∧ route.upstream.nodes = [(nodeOf service port, 1)]
  read : route.upstream.timeout.read ≤ p.timeout
  serves : (∃ v, route.plugins.requestValidation = some v ∧ v.capability = capability ∧ 65536 ≤ p.maxRequestBytes ∧
      k ≠ .managedUpload ∧ Serves k capability uri path ⟨bytes capability, bytes p.scope, p.owner, p.operation.text⟩) ∨
    k = .managedUpload ∧ p = uploadProfile ∧ capability = "ouf.managed-source.file.upload" ∧ path = filePath "upload"

theorem nodes_of {node service : String} {port : Nat} (h : node = nodeOf service port) :
    [(node, 1)] = [(nodeOf service port, 1)] := by
  rw [h]

/-! ### The status -/

theorem status_follows {oidcSecretRef : String} {out : StatusRuntime}
    (h : statusRuntime py runtime oidcSecretRef keyEnv = .ok out) :
    (∃ b, Follows runtime b out.execute .status "ouf.system.status" statusProfile executeUri statusPath) ∧
      out.execute.upstream.timeout.read = 3 ∧
      out.execute.plugins.requestValidation = some ⟨65536, "ouf.system.status"⟩ := by
  simp only [statusRuntime, bind_eq_ok, ensure_ok] at h
  obtain ⟨-, -, -, -, workload, hworkload, m, hm, -, -, -, -, b, hb, -, hcapability, -, ⟨haccess, -⟩, -, hlimits, -,
    ⟨hservice, hpath⟩, ingress, -, issues, -, f, hf, h⟩ := h
  obtain rfl := Except.ok.inj h
  obtain ⟨s, hs, hstrip, -⟩ := MaterializeM2M.requireText_ok.mp hworkload
  obtain rfl := Option.some.inj hs
  obtain ⟨hmember, hc⟩ := mem_candidates (mem_of_only hb)
  obtain ⟨-, huri⟩ := List.mem_filter.mp (mem_of_only hm)
  refine ⟨⟨b, ?_⟩, rfl, rfl⟩
  exact {
    fits := ⟨workload, fitting hmember hc hcapability haccess hlimits, .inr hstrip⟩
    function := ⟨f, rfl, function_kind hf rfl, fun l hl => (load_function hf hl).1⟩
    listens := congrArg some (of_decide_eq_true huri)
    rewrite := rfl
    bound := .inl hpath
    node := ⟨"ouf-mcp-server", 8080, hservice, nodes_of (by decide)⟩
    read := le_rfl
    serves := .inl ⟨_, rfl, rfl, le_rfl, (fun h => by cases h), serves_status _⟩ }

/-! ### The other profiles

The template is the route of the status, or one that is established with a schema. -/

theorem mem_mapM {α β ε : Type} {make : α → Except ε β} {as : List α} {bs : List β} (h : as.mapM make = .ok bs)
    {b : β} (hb : b ∈ bs) : ∃ a ∈ as, make a = .ok b := by
  induction as generalizing bs with
  | nil =>
      obtain rfl := Except.ok.inj h
      cases hb
  | cons a as ih =>
      simp only [List.mapM_cons, bind_eq_ok] at h
      obtain ⟨x, hx, xs, hxs, h⟩ := h
      obtain rfl := Except.ok.inj h
      rcases List.mem_cons.mp hb with rfl | hb
      · exact ⟨a, List.mem_cons_self, hx⟩
      · obtain ⟨a', ha', hmake⟩ := ih hxs hb
        exact ⟨a', List.mem_cons_of_mem _ ha', hmake⟩

/-- The validation of the template, for another capability. -/
theorem validation_mediates {v : Validation} (hv : template.plugins.requestValidation = some v) (capability : String) :
    (template.plugins.requestValidation.map fun v => { v with capability := capability }) =
      some { v with capability := capability } := by
  rw [hv, Option.map_some]

theorem permission_follows {c : PermissionCapability} (hc : c ∈ permissionCapabilities)
    (hv : template.plugins.requestValidation.isSome = true) (hread : template.upstream.timeout.read = 3)
    (h : permissionRoute runtime keys template c = .ok route) :
    ∃ b p uri path, Follows runtime b route .permissions c.capability p uri path := by
  simp only [permissionRoute, bind_eq_ok, ensure_ok] at h
  obtain ⟨b, hb, -, ⟨hservice, hpath, hfits⟩, f, hf, h⟩ := h
  obtain rfl := Except.ok.inj h
  obtain ⟨v, hv⟩ := Option.isSome_iff_exists.mp hv
  obtain ⟨hmember, hid⟩ := mem_candidates (mem_of_only hb)
  exact ⟨b, _, _, _, {
    fits := ⟨_, fits_ok hmember hid hfits, .inl rfl⟩
    function := ⟨f, rfl, function_kind hf rfl, fun l hl => (load_function hf hl).1⟩
    listens := rfl
    rewrite := rfl
    bound := .inl hpath
    node := ⟨"ouf-onboarding", 8080, hservice, nodes_of (by decide)⟩
    read := hread.le
    serves := .inl ⟨{ v with capability := c.capability }, validation_mediates hv _, rfl, le_rfl, (fun h => by cases h),
      serves_permissions hc _⟩ }⟩

theorem operational_follows {o : Operational} (ho : o ∈ operationalCapabilities)
    (hv : template.plugins.requestValidation.isSome = true)
    (h : operationalRoute runtime keyEnv template o = .ok route) :
    ∃ b k p uri path, Follows runtime b route k o.capability p uri path := by
  simp only [operationalRoute, bind_eq_ok, ensure_ok] at h
  obtain ⟨b, hb, -, ⟨hservice, hpath, -, hfits⟩, f, hf, h⟩ := h
  obtain rfl := Except.ok.inj h
  obtain ⟨v, hv⟩ := Option.isSome_iff_exists.mp hv
  obtain ⟨hmember, hid⟩ := mem_candidates (mem_of_only hb)
  exact ⟨b, _, _, _, _, {
    fits := ⟨_, fits_ok hmember hid hfits, .inl rfl⟩
    function := ⟨f, rfl, kind_operational ho hf, fun l hl => (load_function hf hl).1⟩
    listens := rfl
    rewrite := rfl
    bound := .inl hpath
    node := ⟨o.service, o.port, hservice, rfl⟩
    read := le_rfl
    serves := .inl ⟨{ v with capability := o.capability }, validation_mediates hv _, rfl, le_rfl, (fun h => by cases h),
      serves_operational o _⟩ }⟩

theorem semantic_follows {c : SemanticProposal} (hc : c ∈ semanticCapabilities)
    (hv : template.plugins.requestValidation.isSome = true)
    (h : semanticRoute runtime keys template c = .ok route) :
    ∃ b k p uri path, Follows runtime b route k c.capability p uri path := by
  simp only [semanticRoute, bind_eq_ok, ensure_ok] at h
  obtain ⟨b, hb, -, ⟨hservice, hpath, -, hfits⟩, f, hf, h⟩ := h
  obtain rfl := Except.ok.inj h
  obtain ⟨v, hv⟩ := Option.isSome_iff_exists.mp hv
  obtain ⟨hmember, hid⟩ := mem_candidates (mem_of_only hb)
  exact ⟨b, _, _, _, _, {
    fits := ⟨_, fits_ok hmember hid hfits, .inl rfl⟩
    function := ⟨f, rfl, kind_semanticProposals hc hf, fun l hl => (load_function hf hl).1⟩
    listens := rfl
    rewrite := rfl
    bound := .inl hpath
    node := ⟨"ouf-semantic-registry", 8080, hservice, nodes_of (by decide)⟩
    read := le_rfl
    serves := .inl ⟨{ v with capability := c.capability }, validation_mediates hv _, rfl, le_rfl, (fun h => by cases h),
      serves_semanticProposals hc _⟩ }⟩

theorem isOnboarding_ok (h : isOnboarding b.route = true) : b.route.serviceId = some "ouf-onboarding" :=
  of_decide_eq_true (Bool.and_eq_true_iff.mp h).1

theorem mem_withId {id : String} (h : b ∈ withId runtime id) : b ∈ runtime.routes := List.mem_of_mem_filter h

theorem file_follows {m : FileMode} (hm : m ∈ fileModes) (hv : template.plugins.requestValidation.isSome = true)
    (hread : template.upstream.timeout.read = 3) (h : fileRoute runtime keys template m = .ok route) :
    ∃ b p uri path, Follows runtime b route .managedFile m.capability p uri path := by
  simp only [fileRoute, bind_eq_ok, ensure_ok] at h
  obtain ⟨b, hb, -, ⟨-, honboarding, hrewrite, -, hid, hfits⟩, f, hf, h⟩ := h
  obtain rfl := Except.ok.inj h
  have hpath : b.route.proxyRewrite = some (filePath m.mode) ∨
      filePath m.mode = filePath "handoff" ∧ b.route.proxyRewrite = some (filePath "upload") := by
    unfold boundMode at hrewrite
    split at hrewrite
    · next hmode => exact .inr ⟨by rw [hmode], hrewrite⟩
    · exact .inl hrewrite
  obtain ⟨v, hv⟩ := Option.isSome_iff_exists.mp hv
  obtain ⟨c, hc, hid⟩ := (Option.any_eq_true _ _).mp hid
  have hlimits : 3 ≤ (fileProfile m).timeout ∧ 65536 ≤ (fileProfile m).maxRequestBytes := by
    unfold fileProfile
    constructor
    · show 3 ≤ (if m.mode = "handoff" then 30 else 3)
      split <;> omega
    · show 65536 ≤ (if m.mode = "handoff" then 10485760 else 65536)
      split <;> omega
  exact ⟨b, _, _, _, {
    fits := ⟨_, fits_ok (mem_withId (mem_of_only hb)) ⟨c, hc, of_decide_eq_true hid⟩ hfits, .inl rfl⟩
    function := ⟨f, rfl, function_kind hf rfl, fun l hl => (load_function hf hl).1⟩
    listens := rfl
    rewrite := rfl
    bound := hpath
    node := ⟨"ouf-onboarding", 8080, isOnboarding_ok honboarding, nodes_of (by decide)⟩
    read := hread.le.trans hlimits.1
    serves := .inl ⟨{ v with capability := m.capability }, validation_mediates hv _, rfl, hlimits.2,
      (fun h => by cases h), serves_managedFile (List.mem_append_left _ hm)⟩ }⟩

theorem review_follows {m : FileMode} (hm : m ∈ reviewModes) (h : reviewRoute runtime keys template m = .ok route) :
    ∃ b p uri path, Follows runtime b route .managedFile m.capability p uri path := by
  simp only [reviewRoute, bind_eq_ok, ensure_ok] at h
  obtain ⟨b, hb, -, ⟨-, -, honboarding, -, hpath, hid, -, hfits⟩, f, hf, h⟩ := h
  obtain rfl := Except.ok.inj h
  obtain ⟨c, hc, hid⟩ := (Option.any_eq_true _ _).mp hid
  exact ⟨b, _, _, _, {
    fits := ⟨_, fits_ok (mem_withId (mem_of_only hb)) ⟨c, hc, of_decide_eq_true hid⟩ hfits, .inl rfl⟩
    function := ⟨f, rfl, function_kind hf rfl, fun l hl => (load_function hf hl).1⟩
    listens := rfl
    rewrite := rfl
    bound := .inl hpath
    node := ⟨"ouf-onboarding", 8080, isOnboarding_ok honboarding, nodes_of (by decide)⟩
    read := le_rfl
    serves := .inl ⟨_, rfl, rfl, le_rfl, (fun h => by cases h), serves_managedFile (List.mem_append_right _ hm)⟩ }⟩

theorem search_follows {oidcSecretRef udpKeyEnv : String} {out base : Result}
    (hv : base.status.execute.plugins.requestValidation.isSome = true)
    (hread : base.status.execute.upstream.timeout.read = 3)
    (hbase : operationalRuntime py runtime oidcSecretRef keys.delegation (some keys.owner) = .ok base)
    (h : objectSearchRuntime py runtime oidcSecretRef keys udpKeyEnv = .ok out) :
    ∃ route, out.routes = base.routes ++ [route] ∧ out.status = base.status ∧
      ∃ b p uri path, Follows runtime b route .objectSearch "urban.object.search" p uri path := by
  simp only [objectSearchRuntime, bind_eq_ok, ensure_ok, hbase, Except.ok.injEq, exists_eq_left'] at h
  obtain ⟨-, -, b, hb, -, ⟨hservice, hpath, -, hfits⟩, f, hf, h⟩ := h
  obtain rfl := Except.ok.inj h
  obtain ⟨v, hv⟩ := Option.isSome_iff_exists.mp hv
  obtain ⟨hmember, hid⟩ := mem_candidates (mem_of_only hb)
  refine ⟨_, rfl, rfl, b, _, _, _, {
    fits := ⟨_, fits_ok hmember hid hfits, .inl rfl⟩
    function := ⟨f, rfl, function_kind hf rfl, fun l hl => (load_function hf hl).1⟩
    listens := rfl
    rewrite := rfl
    bound := .inl hpath
    node := ⟨"ouf-udp-object-resolution", 8080, hservice, nodes_of (by decide)⟩
    read := hread.le
    serves := .inl ⟨_, validation_mediates hv _, rfl, le_rfl, (fun h => by cases h), serves_objectSearch _⟩ }⟩

theorem upload_follows {oidcSecretRef : String} (h : uploadRoute py runtime oidcSecretRef keys = .ok route) :
    ∃ b uri, Follows runtime b route .managedUpload "ouf.managed-source.file.upload" uploadProfile uri
      (filePath "upload") := by
  simp only [uploadRoute, bind_eq_ok, ensure_ok] at h
  obtain ⟨base, -, b, hb, -, ⟨-, honboarding, hpath, -, hid, hfits⟩, f, hf, h⟩ := h
  obtain rfl := Except.ok.inj h
  obtain ⟨c, hc, hid⟩ := (Option.any_eq_true _ _).mp hid
  exact ⟨b, _, {
    fits := ⟨_, fits_ok (mem_withId (mem_of_only hb)) ⟨c, hc, of_decide_eq_true hid⟩ hfits, .inl rfl⟩
    function := ⟨f, rfl, function_kind hf rfl, fun l hl => (load_function hf hl).1⟩
    listens := rfl
    rewrite := rfl
    bound := .inl hpath
    node := ⟨"ouf-onboarding", 8080, isOnboarding_ok honboarding, nodes_of (by decide)⟩
    read := le_rfl
    serves := .inr ⟨rfl, rfl, rfl, rfl⟩ }⟩

/-! ## Layers -/

/-- A layer adds routes of its profile behind what is there. -/
theorem layer_ok {α : Type} {append : List Route → Route → Except MaterializationError (List Route)}
    {make : α → Except MaterializationError Route}
    (happend : ∀ routes route out, append routes route = .ok out → out = routes ++ [route]) {routes out : List Route}
    {as : List α} (h : layer append make routes as = .ok out) :
    ∃ added, out = routes ++ added ∧ ∀ r ∈ added, ∃ a ∈ as, make a = .ok r := by
  induction as generalizing routes with
  | nil =>
      obtain rfl := Except.ok.inj h
      exact ⟨[], (List.append_nil _).symm, fun r hr => absurd hr List.not_mem_nil⟩
  | cons a as ih =>
      simp only [layer, bind_eq_ok] at h
      obtain ⟨route, hroute, routes', hroutes', h⟩ := h
      obtain rfl := happend _ _ _ hroutes'
      obtain ⟨added, rfl, hadded⟩ := ih h
      refine ⟨route :: added, by rw [List.append_assoc, List.singleton_append], fun r hr => ?_⟩
      rcases List.mem_cons.mp hr with rfl | hr
      · exact ⟨a, List.mem_cons_self, hroute⟩
      · obtain ⟨a', ha', hmake⟩ := hadded r hr
        exact ⟨a', List.mem_cons_of_mem _ ha', hmake⟩

theorem appendNew_ok {message : String} (routes : List Route) (route : Route) (out : List Route)
    (h : appendNew message routes route = .ok out) : out = routes ++ [route] := by
  simp only [appendNew, bind_eq_ok] at h
  obtain ⟨-, -, h⟩ := h
  exact (Except.ok.inj h).symm

theorem appendReview_ok (routes : List Route) (route : Route) (out : List Route)
    (h : appendReview routes route = .ok out) : out = routes ++ [route] := by
  simp only [appendReview, bind_eq_ok] at h
  obtain ⟨-, -, h⟩ := h
  exact (Except.ok.inj h).symm

theorem established_ok {message : String} {existing : List Route} (h : established message existing = .ok template) :
    template.plugins.requestValidation.isSome = true := by
  simp only [established, bind_eq_ok, ensure_ok] at h
  obtain ⟨t, -, -, ⟨-, -, hvalidation, -⟩, h⟩ := h
  obtain rfl := Except.ok.inj h
  exact hvalidation

/-! ## The routes that are emitted -/

/-- A mediation route that some materializer writes for a binding of the runtime. -/
inductive Emitted (py : Python) (runtime : Projected) : Route → Prop
  | status {oidcSecretRef keyEnv : String} {out : StatusRuntime}
      (h : statusRuntime py runtime oidcSecretRef keyEnv = .ok out) : Emitted py runtime out.execute
  | permissions {oidcSecretRef : String} {keys : Keys} {out : Result}
      (h : permissionRuntime py runtime oidcSecretRef keys = .ok out) {route : Route} (hr : route ∈ out.routes) :
      Emitted py runtime route
  | operational {oidcSecretRef keyEnv : String} {ownerKeyEnv : Option String} {out : Result}
      (h : operationalRuntime py runtime oidcSecretRef keyEnv ownerKeyEnv = .ok out) {route : Route}
      (hr : route ∈ out.routes) : Emitted py runtime route
  | objectSearch {oidcSecretRef : String} {keys : Keys} {udpKeyEnv : String} {out : Result}
      (h : objectSearchRuntime py runtime oidcSecretRef keys udpKeyEnv = .ok out) {route : Route}
      (hr : route ∈ out.routes) : Emitted py runtime route
  | files {oidcSecretRef : String} {keys : Keys} {out : Result}
      (h : fileRuntime py runtime oidcSecretRef keys = .ok out) {route : Route} (hr : route ∈ out.routes) :
      Emitted py runtime route
  | upload {oidcSecretRef : String} {keys : Keys} {route : Route}
      (h : uploadRoute py runtime oidcSecretRef keys = .ok route) : Emitted py runtime route
  | proposals {existing out : List Route} {keys : Keys} (h : addSemanticProposals existing runtime keys = .ok out)
      {route : Route} (hr : route ∈ out.drop existing.length) : Emitted py runtime route
  | reviews {existing out : List Route} {keys : Keys} (h : addReviews existing runtime keys = .ok out)
      {route : Route} (hr : route ∈ out.drop existing.length) : Emitted py runtime route

/-- There is a binding that the route follows. -/
def FollowsSome (runtime : Projected) (route : Route) : Prop :=
  ∃ b k capability p uri path, Follows runtime b route k capability p uri path

/-- The template of a result, and that its routes follow bindings. -/
structure Sound (runtime : Projected) (out : Result) : Prop where
  read : out.status.execute.upstream.timeout.read = 3
  validation : out.status.execute.plugins.requestValidation.isSome = true
  routes : ∀ route ∈ out.routes, FollowsSome runtime route

variable {oidcSecretRef : String} {out : Result}

theorem sound_status {s : StatusRuntime} (h : statusRuntime py runtime oidcSecretRef keyEnv = .ok s) :
    Sound runtime ⟨s, [s.execute]⟩ := by
  obtain ⟨⟨b, hb⟩, hread, hvalidation⟩ := status_follows h
  refine ⟨hread, by rw [hvalidation]; rfl, fun route hroute => ?_⟩
  obtain rfl := List.mem_singleton.mp hroute
  exact ⟨b, _, _, _, _, _, hb⟩

theorem sound_permissions (h : permissionRuntime py runtime oidcSecretRef keys = .ok out) : Sound runtime out := by
  simp only [permissionRuntime, bind_eq_ok] at h
  obtain ⟨s, hs, routes, hroutes, h⟩ := h
  obtain rfl := Except.ok.inj h
  have hstatus := sound_status hs
  refine ⟨hstatus.read, hstatus.validation, fun route hroute => ?_⟩
  rcases List.mem_cons.mp hroute with rfl | hroute
  · exact hstatus.routes _ (List.mem_singleton_self _)
  · obtain ⟨c, hc, hmake⟩ := mem_mapM hroutes hroute
    obtain ⟨b, p, uri, path, hfollows⟩ := permission_follows hc hstatus.validation hstatus.read hmake
    exact ⟨b, _, _, p, uri, path, hfollows⟩

theorem sound_operational (h : operationalRuntime py runtime oidcSecretRef keyEnv ownerKeyEnv = .ok out) :
    Sound runtime out := by
  simp only [operationalRuntime, bind_eq_ok] at h
  obtain ⟨base, hbase, routes, hroutes, h⟩ := h
  obtain rfl := Except.ok.inj h
  have hsound : Sound runtime base := by
    cases ownerKeyEnv with
    | none =>
        simp only [operationalBase, bind_eq_ok] at hbase
        obtain ⟨s, hs, hbase⟩ := hbase
        obtain rfl := Except.ok.inj hbase
        exact sound_status hs
    | some ownerKeyEnv => exact sound_permissions hbase
  refine ⟨hsound.read, hsound.validation, fun route hroute => ?_⟩
  rcases List.mem_append.mp hroute with hroute | hroute
  · exact hsound.routes route hroute
  · obtain ⟨o, ho, hmake⟩ := mem_mapM hroutes hroute
    obtain ⟨b, k, p, uri, path, hfollows⟩ := operational_follows ho hsound.validation hmake
    exact ⟨b, k, _, p, uri, path, hfollows⟩

theorem sound_search {udpKeyEnv : String} (h : objectSearchRuntime py runtime oidcSecretRef keys udpKeyEnv = .ok out) :
    Sound runtime out := by
  have hrun := h
  simp only [objectSearchRuntime, bind_eq_ok] at hrun
  obtain ⟨-, -, base, hbase, -⟩ := hrun
  have hsound := sound_operational hbase
  obtain ⟨route, hroutes, hstatus, b, p, uri, path, hfollows⟩ := search_follows hsound.validation hsound.read hbase h
  refine ⟨hstatus ▸ hsound.read, hstatus ▸ hsound.validation, fun r hr => ?_⟩
  rw [hroutes] at hr
  rcases List.mem_append.mp hr with hr | hr
  · exact hsound.routes r hr
  · obtain rfl := List.mem_singleton.mp hr
    exact ⟨b, _, _, p, uri, path, hfollows⟩

theorem sound_files (h : fileRuntime py runtime oidcSecretRef keys = .ok out) : Sound runtime out := by
  simp only [fileRuntime, bind_eq_ok] at h
  obtain ⟨base, hbase, routes, hroutes, h⟩ := h
  obtain rfl := Except.ok.inj h
  have hsound := sound_permissions hbase
  refine ⟨hsound.read, hsound.validation, fun route hroute => ?_⟩
  rcases List.mem_append.mp hroute with hroute | hroute
  · exact hsound.routes route hroute
  · obtain ⟨m, hm, hmake⟩ := mem_mapM hroutes hroute
    obtain ⟨b, p, uri, path, hfollows⟩ := file_follows hm hsound.validation hsound.read hmake
    exact ⟨b, _, _, p, uri, path, hfollows⟩

theorem emitted_follows (h : Emitted py runtime route) : FollowsSome runtime route := by
  cases h with
  | status h => exact (sound_status h).routes _ (List.mem_singleton_self _)
  | permissions h hr => exact (sound_permissions h).routes _ hr
  | operational h hr => exact (sound_operational h).routes _ hr
  | objectSearch h hr => exact (sound_search h).routes _ hr
  | files h hr => exact (sound_files h).routes _ hr
  | upload h =>
      obtain ⟨b, uri, hfollows⟩ := upload_follows h
      exact ⟨b, _, _, _, uri, _, hfollows⟩
  | proposals h hr =>
      simp only [addSemanticProposals, bind_eq_ok] at h
      obtain ⟨-, -, template, htemplate, -, -, h⟩ := h
      obtain ⟨added, rfl, hadded⟩ := layer_ok appendNew_ok h
      rw [List.drop_left] at hr
      obtain ⟨c, hc, hmake⟩ := hadded _ hr
      obtain ⟨b, k, p, uri, path, hfollows⟩ := semantic_follows hc (established_ok htemplate) hmake
      exact ⟨b, k, _, p, uri, path, hfollows⟩
  | reviews h hr =>
      simp only [addReviews, bind_eq_ok] at h
      obtain ⟨-, -, template, -, h⟩ := h
      obtain ⟨added, rfl, hadded⟩ := layer_ok appendReview_ok h
      rw [List.drop_left] at hr
      obtain ⟨m, hm, hmake⟩ := hadded _ hr
      obtain ⟨b, p, uri, path, hfollows⟩ := review_follows hm hmake
      exact ⟨b, _, _, p, uri, path, hfollows⟩

end OufGateway.Mediation
