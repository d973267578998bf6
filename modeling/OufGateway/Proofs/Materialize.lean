import Mathlib
import OufGateway.Ref.MaterializeM2M

/-!
# What the internal M2M materializer keeps

`Materialized` is what an accepted route has been checked for and what was emitted
for it, read off `materialize_route` once. Of the eight restrictions of a compiled
route the emitted one carries five: the method, the URI, the scope, the service
identity and the actor. The selector, the limit on the body and the timeout are
not emitted, so a request that the emitted route forwards is admitted by the
compiled one exactly when it meets those three (`admitted_iff`). A body above the
limit can always be sent, unless the emitted route forwards nothing at all: its
guard does not load, or its scope is not one word. That is the only way the
emitted route refines the compiled one (`m2m_refines_iff`).
-/

namespace OufGateway.MaterializeM2M

open Lib CompileConfig

variable {r : CompiledRoute} {inst : Installation} {ref : String} {e : EmittedRoute}
  {q : Request} {t : Target} {verifies : OpenidConnect → Json → Bool}
  {regex : String → String → Bool}

theorem ensure_ok {p : Prop} [Decidable p] {message : String} {a : Unit} :
    ensure p message = .ok a ↔ p := by
  unfold ensure
  split <;> simp_all

theorem require_ok {α : Type} {value : Option α} {message : String} {a : α} :
    require value message = .ok a ↔ value = some a := by
  cases value <;> simp [require]

theorem requireText_ok {value : Option String} {key text : String} :
    requireText value key = .ok text ↔
      ∃ s, value = some s ∧ text = Text.strip s ∧ text ≠ "" := by
  simp only [requireText, bind_eq_ok, require_ok, ensure_ok]
  constructor
  · rintro ⟨s, hs, _, hne, htext⟩
    obtain rfl := Except.ok.inj htext
    exact ⟨s, hs, rfl, hne⟩
  · rintro ⟨s, hs, rfl, hne⟩
    exact ⟨s, hs, (), hne, rfl⟩

/-- The services a compiled route allows. -/
def services (r : CompiledRoute) : List String := r.policy.allowedServiceIdentities.getD []

/-- What `materialize_route` has checked of a route, and what it has emitted. -/
structure Materialized (r : CompiledRoute) (e : EmittedRoute) : Prop where
  uri : e.uri = Text.strip r.uri
  methods : e.methods = r.methods
  method : ∃ m, r.methods = [m]
  services_ne_nil : services r ≠ []
  service_ne : ∀ v ∈ services r, v ≠ ""
  actors : r.policy.allowedActorTypes.getD [] = ["SERVICE"]
  guard : e.workloadGuard = workloadGuard (services r) ["SERVICE"]
  stripped : e.strippedHeaders = trustedHeaders.map luaQuote
  audience : e.openidConnect.clientId ≠ ""
  scope : ∃ s, r.policy.requiredScope = some s ∧ Text.strip s ≠ "" ∧
    e.openidConnect.requiredScopes = [Text.strip s]
  target : ∃ b, r.backendBinding = some b ∧ e.node = nodeOf (Text.strip b.service) b.port ∧
    e.proxyRewrite = if isWildcard e.uri then none else some (Text.strip b.path)

theorem materializeRoute_ok (h : materializeRoute r inst ref = .ok e) : Materialized r e := by
  simp only [materializeRoute, bind_eq_ok, ensure_ok, require_ok, requireText_ok] at h
  obtain ⟨_, -, _, -, _, -, b, hb, _, -, _, ⟨hne, hnonempty⟩, _, -, _, hactors,
    _, ⟨s, hs, rfl, hscope⟩, _, -, _, -, audience, ⟨_, -, -, haudience⟩,
    _, ⟨_, hservice, rfl, -⟩, _, ⟨_, hpath, rfl, -⟩, _, ⟨_, huri, rfl, -⟩,
    _, -, _, -, _, -, _, hmethods, _, -, _, -, _, -, _, -, he⟩ := h
  obtain rfl := Except.ok.inj he
  obtain rfl := Option.some.inj hservice
  obtain rfl := Option.some.inj hpath
  obtain rfl := Option.some.inj huri
  refine ⟨rfl, rfl, List.length_eq_one_iff.mp hmethods, hne, hnonempty, hactors, ?_, rfl,
    haudience, ⟨s, hs, hscope, rfl⟩, ⟨b, hb, rfl, ?_⟩⟩
  · exact congrArg (workloadGuard _) hactors
  · dsimp only

/-! ## What the emitted route forwards -/

/-- The guard is Lua, and the scope is one word. -/
def Serves (r : CompiledRoute) : Prop :=
  (∀ v ∈ services r, ∀ c ∈ v.toList, LuaLiteral.legible c = true) ∧
    ∀ s, r.policy.requiredScope = some s → ∀ c ∈ (Text.strip s).toList, Text.isSpace c = false

/-- What `openid-connect` is documented to do with the claims of a good token: those
of the issuer, for this client and with the scopes, are let through, and no token
without the scopes is. -/
structure Documented (verifies : OpenidConnect → Json → Bool) : Prop where
  accepts : ∀ conf, ∃ issuer ≠ "", ∀ claims, claims.get? "iss" = some (.str issuer) →
    claims.get? "aud" = some (.str conf.clientId) →
    (∀ s ∈ conf.requiredScopes, s ∈ scopesOf claims) → verifies conf claims = true
  scopes : ∀ conf claims, verifies conf claims = true →
    ∀ s ∈ conf.requiredScopes, s ∈ scopesOf claims

theorem stripped_load (w : Materialized r e) :
    (e.strippedHeaders.mapM LuaLiteral.literal).isSome = true := by
  have hall : trustedHeaders.all (fun s => s.toList.all LuaLiteral.legible) = true := by
    decide +kernel
  rw [w.stripped]
  change ((trustedHeaders.map (Json.quote true)).mapM LuaLiteral.literal).isSome = true
  rw [LuaLiteral.mapM_literal, if_pos hall]
  rfl

theorem workloadGuard_passes (l actors : List String) (claims : Json) :
    (workloadGuard l actors).passes claims = true ↔
      (∀ v ∈ l, ∀ c ∈ v.toList, LuaLiteral.legible c = true) ∧
      (∀ v ∈ actors, ∀ c ∈ v.toList, LuaLiteral.legible c = true) ∧
      listed actors (claims.get? "ouf_actor_type") = true ∧ listed l (serviceOf claims) = true ∧
      ["sub", "tenant_id", "acr", "iss", "scope"].all (stated claims) = true ∧
      audienceStated claims = true := by
  have hload : ∀ texts : List String, (texts.map luaQuote).mapM LuaLiteral.literal =
      if ∀ v ∈ texts, ∀ c ∈ v.toList, LuaLiteral.legible c = true then some texts else none := by
    intro texts
    change (texts.map (Json.quote true)).mapM LuaLiteral.literal = _
    rw [LuaLiteral.mapM_literal]
    simp only [List.all_eq_true]
  unfold WorkloadGuard.passes workloadGuard
  rw [hload l, hload actors]
  by_cases hl : ∀ v ∈ l, ∀ c ∈ v.toList, LuaLiteral.legible c = true
  · by_cases ha : ∀ v ∈ actors, ∀ c ∈ v.toList, LuaLiteral.legible c = true
    · rw [if_pos hl, if_pos ha]
      simp only [Bool.and_eq_true, and_assoc]
      exact ⟨fun h => ⟨hl, ha, h⟩, fun h => h.2.2⟩
    · rw [if_neg ha]
      exact ⟨fun h => by split at h <;> simp_all, fun h => absurd h.2.1 ha⟩
  · rw [if_neg hl]
    exact ⟨fun h => by simp at h, fun h => absurd h.1 hl⟩

theorem service_legible : ∀ v ∈ ["SERVICE"], ∀ c ∈ v.toList, LuaLiteral.legible c = true := by
  have hall : "SERVICE".toList.all LuaLiteral.legible = true := by decide +kernel
  intro v hv
  rw [List.mem_singleton.mp hv]
  exact List.all_eq_true.mp hall

theorem forwards_iff (w : Materialized r e) :
    e.forwards verifies q = some t ↔
      q.method ∈ r.methods ∧ uriMatches e.uri q.uri = true ∧
      verifies e.openidConnect q.claims = true ∧
      (∀ v ∈ services r, ∀ c ∈ v.toList, LuaLiteral.legible c = true) ∧
      listed ["SERVICE"] (q.claims.get? "ouf_actor_type") = true ∧
      listed (services r) (serviceOf q.claims) = true ∧
      (["sub", "tenant_id", "acr", "iss", "scope"].all (stated q.claims) = true ∧
        audienceStated q.claims = true) ∧
      t = ⟨e.node, e.proxyRewrite.getD q.uri⟩ := by
  unfold EmittedRoute.forwards
  rw [stripped_load w, w.guard, w.methods, Bool.and_true]
  split
  · next h =>
    simp only [Bool.and_eq_true, List.contains_iff_mem, workloadGuard_passes] at h
    obtain ⟨⟨⟨hm, hu⟩, hv⟩, hl, -, ha, hs, hst, haud⟩ := h
    constructor
    · exact fun ht => ⟨hm, hu, hv, hl, ha, hs, ⟨hst, haud⟩, (Option.some.inj ht).symm⟩
    · rintro ⟨-, -, -, -, -, -, -, rfl⟩
      rfl
  · next h =>
    refine ⟨fun ht => (by cases ht), ?_⟩
    rintro ⟨hm, hu, hv, hl, ha, hs, ⟨hst, haud⟩, -⟩
    refine absurd ?_ h
    simp only [Bool.and_eq_true, List.contains_iff_mem, workloadGuard_passes]
    exact ⟨⟨⟨hm, hu⟩, hv⟩, hl, service_legible, ha, hs, hst, haud⟩

/-! ## The five restrictions that are kept, and the three that are not -/

/-- No text the materializer strips has white space around it. -/
structure Trimmed (r : CompiledRoute) : Prop where
  uri : Text.strip r.uri = r.uri
  scope : ∀ s, r.policy.requiredScope = some s → Text.strip s = s
  backend : ∀ b, r.backendBinding = some b →
    Text.strip b.service = b.service ∧ Text.strip b.path = b.path

/-- What the emitted route asks for nothing about. -/
structure Dropped (regex : String → String → Bool) (r : CompiledRoute) (q : Request) : Prop where
  vars : ∀ x, r.vars = some x → regex x q.uri = true
  body : q.bodyBytes ≤ r.policy.maxRequestBytes
  time : q.upstreamSeconds ≤ r.policy.timeoutSeconds

theorem admitted_iff (hplugin : Documented verifies) (w : Materialized r e) (htrim : Trimmed r)
    (h : e.forwards verifies q = some t) :
    Admitted regex r q ∧ targetOf r q = some t ↔ Dropped regex r q := by
  obtain ⟨hm, hu, hv, -, ha, hs, -, rfl⟩ := (forwards_iff w).mp h
  constructor
  · rintro ⟨hadmitted, -⟩
    exact ⟨hadmitted.vars, hadmitted.body, hadmitted.time⟩
  · intro hdropped
    have huri : e.uri = r.uri := w.uri.trans htrim.uri
    obtain ⟨s, hscope, -, hrequired⟩ := w.scope
    obtain ⟨b, hb, hnode, hpath⟩ := w.target
    refine ⟨⟨hm, huri ▸ hu, hdropped.vars, ⟨s, hscope, ?_⟩, hs, ?_, hdropped.body,
      hdropped.time⟩, ?_⟩
    · have hgranted := hplugin.scopes _ _ hv (Text.strip s) (by rw [hrequired]; simp)
      rwa [htrim.scope s hscope] at hgranted
    · rw [w.actors]
      exact ha
    · rw [targetOf, hb, hnode, hpath, huri, (htrim.backend b hb).1, (htrim.backend b hb).2,
        Option.map_some]
      split <;> rfl

/-- The claims of a workload that meets every check the emitted route makes. -/
def workloadClaims (issuer audience scope service : String) : Json :=
  .obj [("iss", .str issuer), ("aud", .str audience), ("scope", .str scope),
    ("client_id", .str service), ("ouf_actor_type", .str "SERVICE"), ("sub", .str "workload"),
    ("tenant_id", .str "tenant"), ("acr", .str "service")]

theorem uriMatches_itself (pattern : String) :
    uriMatches pattern (if isWildcard pattern then Text.before '*' pattern else pattern) = true := by
  unfold uriMatches
  split
  · exact List.isPrefixOf_iff_prefix.mpr (List.prefix_refl _)
  · exact beq_self_eq_true _

/-- Some workload can send a body of any length. -/
theorem forwards_any_body (hplugin : Documented verifies) (w : Materialized r e) (hserves : Serves r)
    (n : Nat) : ∃ q t, e.forwards verifies q = some t ∧ q.bodyBytes = n := by
  obtain ⟨issuer, hissuer, haccepts⟩ := hplugin.accepts e.openidConnect
  obtain ⟨m, hm⟩ := w.method
  obtain ⟨v, hv⟩ := List.exists_mem_of_ne_nil _ w.services_ne_nil
  obtain ⟨s, hs, hne, hrequired⟩ := w.scope
  let claims := workloadClaims issuer e.openidConnect.clientId (Text.strip s) v
  have hscopes : scopesOf claims = [Text.strip s] :=
    Text.words_of_none hne (hserves.2 s hs)
  have hverified : verifies e.openidConnect claims = true :=
    haccepts claims rfl rfl fun x hx => by rwa [hscopes, ← hrequired]
  have hservice : listed (services r) (serviceOf claims) = true := List.contains_iff_mem.mpr hv
  have hstated : ["sub", "tenant_id", "acr", "iss", "scope"].all (stated claims) = true := by
    simp [claims, workloadClaims, stated, Json.get?, Json.ofLookup, hissuer, hne]
  have haudience : audienceStated claims = true := by
    simp [claims, workloadClaims, audienceStated, Json.get?, Json.ofLookup, w.audience]
  exact ⟨⟨m, if isWildcard e.uri then Text.before '*' e.uri else e.uri, n, claims, 0⟩, _,
    (forwards_iff w).mpr ⟨by simp [hm], uriMatches_itself e.uri, hverified, hserves.1, rfl,
      hservice, ⟨hstated, haudience⟩, rfl⟩, rfl⟩

theorem forwards_none (hplugin : Documented verifies) (w : Materialized r e)
    (hserves : ¬ Serves r) : e.forwards verifies q ≠ some t := by
  intro h
  obtain ⟨-, -, hv, hlegible, -⟩ := (forwards_iff w).mp h
  obtain ⟨s, hs, -, hrequired⟩ := w.scope
  refine hserves ⟨hlegible, fun s' hs' => ?_⟩
  obtain rfl := Option.some.inj (hs.symm.trans hs')
  -- A scope the plugin has found is a word of the claim.
  have hword := hplugin.scopes _ _ hv (Text.strip s) (by rw [hrequired]; simp)
  unfold scopesOf at hword
  split at hword
  · exact Text.none_of_mem_words hword
  · exact absurd hword List.not_mem_nil

/-- Whatever the emitted route forwards is admitted by the compiled one, and goes where
it sends it. -/
def Refines (verifies : OpenidConnect → Json → Bool) (regex : String → String → Bool)
    (r : CompiledRoute) (e : EmittedRoute) : Prop :=
  ∀ q t, e.forwards verifies q = some t → Admitted regex r q ∧ targetOf r q = some t

/-- A materialized route refines its compiled one only when it forwards nothing; a
request it does forward is admitted exactly when it meets what was dropped. -/
theorem m2m_refines_iff (hplugin : Documented verifies)
    (h : materializeRoute r inst ref = .ok e) :
    (Refines verifies regex r e ↔ ¬ Serves r) ∧
      (Trimmed r → ∀ q t, e.forwards verifies q = some t →
        (Admitted regex r q ∧ targetOf r q = some t ↔ Dropped regex r q)) := by
  have w := materializeRoute_ok h
  refine ⟨⟨fun hrefines hserves => ?_, fun hserves q t ht => ?_⟩,
    fun htrim q t ht => admitted_iff hplugin w htrim ht⟩
  · obtain ⟨q, t, ht, hbody⟩ := forwards_any_body hplugin w hserves (r.policy.maxRequestBytes + 1)
    have hmost := (hrefines q t ht).1.body
    omega
  · exact absurd ht (forwards_none hplugin w hserves)

/-! ## A route whose limit does not hold -/

/-- The scopes and the audience of the token, and nothing else. -/
def plainVerifies (conf : OpenidConnect) (claims : Json) : Bool :=
  conf.requiredScopes.all (scopesOf claims).contains

theorem plainVerifies_documented : Documented plainVerifies := by
  refine ⟨fun conf => ⟨"https://auth.example", by decide, fun claims _ _ h => ?_⟩,
    fun conf claims h s hs => ?_⟩
  · exact List.all_eq_true.mpr fun s hs => List.contains_iff_mem.mpr (h s hs)
  · exact List.contains_iff_mem.mp (List.all_eq_true.mp h s hs)

def readRoute : CompiledRoute where
  id := "publication-resolution"
  uri := "/api/publications"
  methods := [.get]
  vars := none
  upstreamId := some "onboarding"
  serviceId := some "ouf-onboarding"
  labels := { exposure := .internal }
  backendBinding := some ⟨"ouf-onboarding", 8080, "/publications"⟩
  limit := 100
  proxyRewrite := some "/publications"
  trustedIdentity := none
  mediation := none
  policy := ⟨.m2m, some ["ouf-udp"], some ["SERVICE"], none, some "ouf.read", 10, 3⟩
  capability := some ⟨"ouf.read", "1.0.0", "onboarding", .read, false, false⟩
  queryContract := .obj []
  recoveryBinding := none

def labInstallation : Installation :=
  ⟨some "lab", some "https://auth.example", some "ouf-api-gateway", "3"⟩

def readEmitted : EmittedRoute where
  id := "publication-resolution"
  uri := "/api/publications"
  methods := [.get]
  labels :=
    [("ouf-managed", "true"), ("ouf-installation", "lab"), ("ouf-installation-revision", "3"),
      ("ouf-capability", "ouf.read"), ("ouf-exposure", "internal")]
  limit := 100
  strippedHeaders := trustedHeaders.map luaQuote
  openidConnect :=
    ⟨"ouf-api-gateway", "$ENV://OIDC", "https://auth.example/.well-known/openid-configuration",
      ["ouf.read"]⟩
  workloadGuard := workloadGuard ["ouf-udp"] ["SERVICE"]
  proxyRewrite := some "/publications"
  node := "ouf-onboarding:8080"

theorem readRoute_emitted :
    materializeRoute readRoute labInstallation "$ENV://OIDC" = .ok readEmitted := by
  rfl

theorem read_serves : Serves readRoute := by
  have hservice : "ouf-udp".toList.all LuaLiteral.legible = true := by decide +kernel
  have hscope : (Text.strip "ouf.read").toList.all (fun c => !Text.isSpace c) = true := by
    decide +kernel
  refine ⟨fun v hv => ?_, fun s hs c hc => ?_⟩
  · rw [List.mem_singleton.mp hv]
    exact List.all_eq_true.mp hservice
  · obtain rfl := Option.some.inj hs
    simpa using List.all_eq_true.mp hscope c hc

theorem read_refines_iff :
    ¬ Refines plainVerifies (fun _ _ => false) readRoute readEmitted :=
  fun h => (m2m_refines_iff plainVerifies_documented readRoute_emitted).1.mp h read_serves

/-- A body of eleven bytes, where the policy allows ten. -/
def longRead : Request where
  method := .get
  uri := "/api/publications"
  bodyBytes := 11
  claims := workloadClaims "https://auth.example" "ouf-api-gateway" "ouf.read" "ouf-udp"
  upstreamSeconds := 1

theorem longRead_forwarded :
    materializeRoute readRoute labInstallation "$ENV://OIDC" = .ok readEmitted ∧
      readEmitted.forwards plainVerifies longRead =
        some ⟨"ouf-onboarding:8080", "/publications"⟩ ∧
      readRoute.policy.maxRequestBytes = 10 ∧
      ∀ regex, ¬ Admitted regex readRoute longRead :=
  ⟨readRoute_emitted, by decide +kernel, rfl, fun _ h => absurd h.body (by decide)⟩

end OufGateway.MaterializeM2M
