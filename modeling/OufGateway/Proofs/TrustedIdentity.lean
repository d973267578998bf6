import OufGateway.Proofs.Compiler
import OufGateway.Proofs.GeneratedLua
import OufGateway.Proofs.Materialize

/-!
# What the trusted headers say

A post function that returns has found an allowed actor, the five claims it requires
and an audience, none of them empty when written out (`postFunction_ok`), and sets
each header to one of them; that is all it looks at. So a claim that is no string is
written out like one, and a token without a service passes with an empty service
(`identity_is_projected_iff`). The names of the claims are in its text, whatever the
binding names: what a binding declares holds of a token whose claims happen to agree
(`projection_is_declared_iff`), and of no binding for every token.
-/

namespace OufGateway.TrustedIdentity

open OufGateway.Lib
open CompileConfig (CompiledRoute McpEndpointBinding emitEndpoint compileConfig compileConfig_ok compileDocuments_ok
  loadDocuments_ok claimSources projectionValid Loaded Artifact)
open Encoding (Points encode)
open GeneratedLua (loadPreFunction_trusted loadPostFunction_trusted)
open Lua (Bytes Value Printer join)
open LuaString (legible utf8 utf8_legible)
open MaterializeM2M (MaterializationError ensure_ok require_ok requireText_ok)
open PyJson (points)

variable {p : Printer} {claims : Value}

/-! ## A function that returns -/

/-- What the audience of a token is written as. -/
def audienceText (p : Printer) : Value → Option Bytes
  | .table entries length => p.concat entries length
  | v => if isNil v then none else some (p.tostring v)

/-- The tests of the function, with what it has read then. -/
structure Passes (p : Printer) (allowed : List Bytes) (claims : Value) (actor aud : Bytes) : Prop where
  table : isTable claims = true
  actor_claim : claim claims "ouf_actor_type" = .string actor
  allowed : actor ∈ allowed
  required : ∀ k ∈ required, missing p (claim claims k) = false
  audience : audienceText p (claim claims "aud") = some aud
  stated : aud ≠ []

theorem actorOf_ok {allowed : List Bytes} {actor : Bytes} :
    actorOf allowed claims = .ok actor ↔ claim claims "ouf_actor_type" = .string actor ∧ actor ∈ allowed := by
  unfold actorOf
  split
  · next a ha =>
      rw [ha]
      split
      · next hin =>
          constructor
          · rintro ⟨⟩
            exact ⟨rfl, hin⟩
          · rintro ⟨⟨⟩, -⟩
            rfl
      · next hout =>
          refine iff_of_false (by rintro ⟨⟩) ?_
          rintro ⟨⟨⟩, hin⟩
          exact hout hin
  · next hno =>
      refine iff_of_false (by rintro ⟨⟩) ?_
      rintro ⟨ha, -⟩
      exact hno actor ha

theorem checkRequired_ok {u : Unit} :
    checkRequired p claims = .ok u ↔ ∀ k ∈ required, missing p (claim claims k) = false := by
  unfold checkRequired
  split
  · next hany =>
      refine iff_of_false (by rintro ⟨⟩) fun h => ?_
      obtain ⟨k, hk, hmissing⟩ := List.any_eq_true.mp hany
      rw [h k hk] at hmissing
      cases hmissing
  · next hnone =>
      refine iff_of_true rfl fun k hk => ?_
      rw [← Bool.not_eq_true]
      exact fun hmissing => hnone (List.any_eq_true.mpr ⟨k, hk, hmissing⟩)

theorem stated_ok {v : Value} {aud : Bytes} :
    (if missing p v then .error (.exit 401) else .ok (p.tostring v) : Except Stop Bytes) = .ok aud ↔
      (if isNil v then none else some (p.tostring v)) = some aud ∧ aud ≠ [] := by
  rw [missing]
  by_cases hnil : isNil v
  · simp [hnil]
  · by_cases hempty : p.tostring v = []
    · simp only [hnil, hempty, Bool.false_or, decide_true, if_true, Bool.false_eq_true, if_false, Option.some.injEq]
      refine iff_of_false (by rintro ⟨⟩) ?_
      rintro ⟨rfl, hne⟩
      exact hne rfl
    · simp only [hnil, hempty, Bool.false_or, decide_false, Bool.false_eq_true, if_false, Option.some.injEq,
        Except.ok.injEq]
      constructor
      · rintro rfl
        exact ⟨rfl, hempty⟩
      · exact And.left

theorem audienceOf_ok {aud : Bytes} :
    audienceOf p claims = .ok aud ↔ audienceText p (claim claims "aud") = some aud ∧ aud ≠ [] := by
  unfold audienceOf
  cases claim claims "aud" with
  | table entries length =>
      rw [audienceText]
      cases hconcat : p.concat entries length with
      | none =>
          simp only [hconcat]
          exact iff_of_false (by rintro ⟨⟩) (by rintro ⟨⟨⟩, -⟩)
      | some text =>
          simp only [hconcat, Option.some.injEq]
          split
          · next hempty =>
              refine iff_of_false (by rintro ⟨⟩) ?_
              rintro ⟨rfl, hne⟩
              exact hne hempty
          · next hne =>
              constructor
              · rintro ⟨⟩
                exact ⟨rfl, hne⟩
              · rintro ⟨rfl, -⟩
                rfl
  | nil => exact stated_ok
  | bool b => exact stated_ok
  | number x => exact stated_ok
  | string s => exact stated_ok
  | other => exact stated_ok

theorem postFunction_ok {allowed : List Bytes} {ops : List HeaderOp} :
    postFunction p allowed claims = .ok ops ↔
      ∃ actor aud, Passes p allowed claims actor aud ∧ ops = projected p claims actor aud := by
  unfold postFunction
  split
  · next htable =>
      refine iff_of_false (by rintro ⟨⟩) ?_
      rintro ⟨actor, aud, h, -⟩
      rw [h.table] at htable
      cases htable
  · next htable =>
      have htable : isTable claims = true := by simpa using htable
      simp only [bind_eq_ok, actorOf_ok, checkRequired_ok, audienceOf_ok]
      constructor
      · rintro ⟨actor, ⟨hactor, hallowed⟩, _, hrequired, aud, ⟨haud, hstated⟩, ⟨⟩⟩
        exact ⟨actor, aud, ⟨htable, hactor, hallowed, hrequired, haud, hstated⟩, rfl⟩
      · rintro ⟨actor, aud, h, rfl⟩
        exact ⟨actor, ⟨h.actor_claim, h.allowed⟩, (), h.required, aud, ⟨h.audience, h.stated⟩, rfl⟩

/-! ## An emitted route -/

section

variable {urlsplit : String → Option SplitResult} {route : CompiledRoute} {inst : Installation} {ref : String} {e : McpRoute}

def actorsOf (route : CompiledRoute) : List String := route.policy.allowedActorTypes.getD []

theorem materializeMcpRoute_ok (h : materializeMcpRoute urlsplit route inst ref = .ok e) :
    e.serverlessPostFunction = GeneratedLua.trustedPostFunction ((actorsOf route).map points) ∧
      ∃ trusted, route.trustedIdentity = some trusted ∧
        e.serverlessPreFunction = GeneratedLua.trustedPreFunction ((sortedSet trusted.stripClientHeaders).map points) := by
  simp only [materializeMcpRoute, bind_eq_ok, ensure_ok, require_ok] at h
  obtain ⟨_, -, _, -, trusted, htrusted, _, -, _, -, _, -, _, -, _, -, _, -, _, -, _, -, _, -, _, -, _, -, _, -, _, -,
    _, -, _, -, _, -, _, -, he⟩ := h
  obtain rfl := Except.ok.inj he
  exact ⟨rfl, trusted, htrusted, rfl⟩

/-- The route's function loads, and a token passes its tests. -/
def Admits (p : Printer) (route : CompiledRoute) (claims : Value) : Prop :=
  (actorsOf route).all (fun a => (points a).all legible) = true ∧
    ∃ actor aud, Passes p ((actorsOf route).map bytes) claims actor aud

theorem after_ok (h : materializeMcpRoute urlsplit route inst ref = .ok e) {ops : List HeaderOp} :
    e.after p claims = .ok ops ↔ (actorsOf route).all (fun a => (points a).all legible) = true ∧
      ∃ actor aud, Passes p ((actorsOf route).map bytes) claims actor aud ∧ ops = projected p claims actor aud := by
  have hload := loadPostFunction_trusted ((actorsOf route).map points)
  rw [← (materializeMcpRoute_ok h).1, List.all_map, List.map_map] at hload
  rw [McpRoute.after, hload]
  by_cases hall : (actorsOf route).all (fun a => (points a).all legible) = true
  · have hall' : (actorsOf route).all ((fun x => x.all legible) ∘ points) = true := hall
    simp only [hall', if_true, hall, true_and]
    exact postFunction_ok
  · have hall' : ¬ (actorsOf route).all ((fun x => x.all legible) ∘ points) = true := hall
    rw [if_neg hall']
    exact iff_of_false (by rintro ⟨⟩) fun h => hall h.1

/-! ## The headers and their claims -/

theorem headerOf_projected (p : Printer) (claims : Value) (actor aud : Bytes) :
    headerOf (projected p claims actor aud) "X-OUF-Principal-ID" = some (p.tostring (claim claims "sub"))
      ∧ headerOf (projected p claims actor aud) "X-OUF-Tenant-ID" = some (p.tostring (claim claims "tenant_id"))
      ∧ headerOf (projected p claims actor aud) "X-OUF-Actor-Type" = some actor
      ∧ headerOf (projected p claims actor aud) "X-OUF-Authentication-Context-Ref" =
          some (p.tostring (claim claims "acr"))
      ∧ headerOf (projected p claims actor aud) "X-OUF-Token-Issuer" = some (p.tostring (claim claims "iss"))
      ∧ headerOf (projected p claims actor aud) "X-OUF-Token-Audience" = some aud
      ∧ headerOf (projected p claims actor aud) "X-OUF-Granted-Scopes" = some (p.tostring (claim claims "scope"))
      ∧ headerOf (projected p claims actor aud) "X-OUF-Service-Principal" =
          some (p.tostring (((claim claims "azp").or (claim claims "client_id")).or (.string []))) := by
  simp [headerOf, projected]

/-- The headers that a text of the token is due in, and its claim. -/
def textClaims : List (String × String) :=
  [("X-OUF-Principal-ID", "sub"), ("X-OUF-Tenant-ID", "tenant_id"), ("X-OUF-Authentication-Context-Ref", "acr"),
    ("X-OUF-Token-Issuer", "iss"), ("X-OUF-Granted-Scopes", "scope")]

theorem headerOf_text (p : Printer) (claims : Value) (actor aud : Bytes) {h : String × String} (hh : h ∈ textClaims) :
    h.2 ∈ required ∧ headerOf (projected p claims actor aud) h.1 = some (p.tostring (claim claims h.2)) := by
  obtain ⟨hsub, htenant, -, hacr, hiss, -, hscope, -⟩ := headerOf_projected p claims actor aud
  simp only [textClaims, List.mem_cons, List.not_mem_nil, or_false] at hh
  rcases hh with rfl | rfl | rfl | rfl | rfl
  · exact ⟨by simp [required], hsub⟩
  · exact ⟨by simp [required], htenant⟩
  · exact ⟨by simp [required], hacr⟩
  · exact ⟨by simp [required], hiss⟩
  · exact ⟨by simp [required], hscope⟩

/-! ## What the token says -/

/-- A text, or a list of texts joined. -/
def IsAudience (v : Value) (text : Bytes) : Prop :=
  v = .string text ∨ ∃ entries length ss, v = .table entries length ∧ Value.items entries length = ss.map .string ∧
    text = join ss

/-- The claims have the types that are due. -/
structure Typed (claims : Value) : Prop where
  texts : ∀ h ∈ textClaims, ∃ s, claim claims h.2 = .string s
  service : ∃ s, (claim claims "azp").or (claim claims "client_id") = .string s ∧ s ≠ []
  audience : ∃ text, IsAudience (claim claims "aud") text

/-- Each header is the text of its claim. -/
structure Faithful (claims : Value) (ops : List HeaderOp) : Prop where
  texts : ∀ h ∈ textClaims, ∃ s, claim claims h.2 = .string s ∧ s ≠ [] ∧ headerOf ops h.1 = some s
  service : ∃ s, (claim claims "azp").or (claim claims "client_id") = .string s ∧ s ≠ [] ∧
    headerOf ops "X-OUF-Service-Principal" = some s
  audience : ∃ text, IsAudience (claim claims "aud") text ∧ headerOf ops "X-OUF-Token-Audience" = some text

theorem mapM_piece (ss : List Bytes) : (ss.map Value.string).mapM p.piece = some ss := by
  induction ss with
  | nil => rfl
  | cons s ss ih =>
      rw [List.map_cons, List.mapM_cons, ih]
      rfl

theorem audienceText_of_isAudience {v : Value} {text : Bytes} (h : IsAudience v text) :
    audienceText p v = some text := by
  rcases h with rfl | ⟨entries, length, ss, rfl, hitems, rfl⟩
  · rfl
  · rw [audienceText, Printer.concat, hitems, mapM_piece]
    rfl

theorem faithful_of_typed {actor aud : Bytes} {allowed : List Bytes} (h : Passes p allowed claims actor aud)
    (htyped : Typed claims) : Faithful claims (projected p claims actor aud) := by
  obtain ⟨-, -, -, -, -, haud, -, hservice⟩ := headerOf_projected p claims actor aud
  constructor
  · intro header hheader
    obtain ⟨s, hs⟩ := htyped.texts header hheader
    obtain ⟨hrequired, hvalue⟩ := headerOf_text p claims actor aud hheader
    have hstated := h.required header.2 hrequired
    rw [hs] at hstated hvalue
    refine ⟨s, hs, ?_, hvalue⟩
    rintro rfl
    cases hstated
  · obtain ⟨s, hs, hne⟩ := htyped.service
    rw [hs] at hservice
    exact ⟨s, hs, hne, hservice⟩
  · obtain ⟨text, htext⟩ := htyped.audience
    have haudience := h.audience
    rw [audienceText_of_isAudience htext] at haudience
    cases haudience
    exact ⟨_, htext, haud⟩

/-- The headers are what the token says, on the tokens that fail a test of the function or have the types that are
due. -/
theorem identity_is_projected_iff (h : materializeMcpRoute urlsplit route inst ref = .ok e) (p : Printer)
    (claims : Value) :
    (∀ ops, e.after p claims = .ok ops → Faithful claims ops) ↔ (Admits p route claims → Typed claims) := by
  simp only [after_ok h]
  constructor
  · rintro hfaithful ⟨hall, actor, aud, hpasses⟩
    obtain ⟨htexts, ⟨s, hs, hne, -⟩, text, htext, -⟩ := hfaithful _ ⟨hall, actor, aud, hpasses, rfl⟩
    refine ⟨fun header hheader => ?_, ⟨s, hs, hne⟩, text, htext⟩
    obtain ⟨t, ht, -⟩ := htexts header hheader
    exact ⟨t, ht⟩
  · rintro htyped ops ⟨hall, actor, aud, hpasses, rfl⟩
    exact faithful_of_typed hpasses (htyped ⟨hall, actor, aud, hpasses⟩)

/-! ## What the binding declares -/

/-- A claim as it is written out, if it is there. -/
def claimText (p : Printer) (name : String) (v : Value) : Option Bytes :=
  if name = "aud" then audienceText p v else if isNil v then none else some (p.tostring v)

/-- The binding's headers have the texts of the claims it names for them, and these are there. -/
def Enforced (p : Printer) (projection : List (String × String)) (e : McpRoute) (claims : Value) : Prop :=
  ∀ ops, e.after p claims = .ok ops →
    ∀ m ∈ projection, ∃ text, claimText p m.2 (claim claims m.2) = some text ∧ headerOf ops m.1 = some text

/-- The binding's headers are cleared. -/
def Clears (headers : List String) (e : McpRoute) : Prop :=
  ∃ names, e.clears = some names ∧ ∀ h ∈ headers, ∃ name ∈ names, utf8 (points h) = some name

/-- The claims the binding names for the principal and the service read as those the function takes. -/
def Agrees (p : Printer) (projection : List (String × String)) (claims : Value) : Prop :=
  ∀ m ∈ projection,
    (m.1 = "X-OUF-Principal-ID" → claimText p m.2 (claim claims m.2) = some (p.tostring (claim claims "sub")))
      ∧ (m.1 = "X-OUF-Service-Principal" → claimText p m.2 (claim claims m.2) =
          some (p.tostring (((claim claims "azp").or (claim claims "client_id")).or (.string []))))

def fixedClaims : List (String × String) :=
  [("X-OUF-Tenant-ID", "tenant_id"), ("X-OUF-Actor-Type", "ouf_actor_type"),
    ("X-OUF-Authentication-Context-Ref", "acr"), ("X-OUF-Token-Issuer", "iss"), ("X-OUF-Token-Audience", "aud"),
    ("X-OUF-Granted-Scopes", "scope")]

theorem mem_projection {projection : List (String × String)} (h : projectionValid projection = true)
    {m : String × String} (hm : m ∈ projection) :
    m.1 = "X-OUF-Service-Principal" ∨ m.1 = "X-OUF-Principal-ID" ∨ m ∈ fixedClaims := by
  simp only [projectionValid, Bool.and_eq_true] at h
  obtain ⟨source, hsource, hnamed⟩ := List.any_eq_true.mp (List.all_eq_true.mp h.2 m hm)
  simp only [Bool.and_eq_true, decide_eq_true_eq, List.contains_iff_mem] at hnamed
  obtain ⟨header, name⟩ := m
  obtain ⟨rfl, hname⟩ := hnamed
  simp only [claimSources, List.mem_cons, List.not_mem_nil, or_false] at hsource
  rcases hsource with rfl | rfl | rfl | rfl | rfl | rfl | rfl | rfl
  · exact .inl rfl
  · exact .inr (.inl rfl)
  all_goals
    simp only [List.mem_singleton] at hname
    subst hname
    exact .inr (.inr (by simp [fixedClaims]))

theorem service_declared {projection : List (String × String)} (h : projectionValid projection = true) :
    ∃ name, (name = "client_id" ∨ name = "azp") ∧ ("X-OUF-Service-Principal", name) ∈ projection := by
  simp only [projectionValid, Bool.and_eq_true] at h
  have hkey := List.all_eq_true.mp h.1.2 ("X-OUF-Service-Principal", ["client_id", "azp"]) List.mem_cons_self
  simp only [List.contains_iff_mem] at hkey
  obtain ⟨m, hm, hheader⟩ := List.mem_map.mp hkey
  obtain ⟨source, hsource, hnamed⟩ := List.any_eq_true.mp (List.all_eq_true.mp h.2 m hm)
  simp only [Bool.and_eq_true, decide_eq_true_eq, List.contains_iff_mem] at hnamed
  obtain ⟨header, name⟩ := m
  obtain rfl : header = "X-OUF-Service-Principal" := hheader
  simp only [claimSources, List.mem_cons, List.not_mem_nil, or_false] at hsource
  rcases hsource with rfl | rfl | rfl | rfl | rfl | rfl | rfl | rfl
  · exact ⟨name, by simpa using hnamed.2, hm⟩
  all_goals
    exact absurd hnamed.1 (by simp)

theorem claimText_fixed {allowed : List Bytes} {actor aud : Bytes} (h : Passes p allowed claims actor aud)
    {m : String × String} (hm : m ∈ fixedClaims) :
    claimText p m.2 (claim claims m.2) = headerOf (projected p claims actor aud) m.1 := by
  obtain ⟨-, htenant, hactor, hacr, hiss, haud, hscope, -⟩ := headerOf_projected p claims actor aud
  have hstated : ∀ k ∈ required, claimText p k (claim claims k) = some (p.tostring (claim claims k)) := by
    intro k hk
    have hmissing := h.required k hk
    simp only [missing, Bool.or_eq_false_iff] at hmissing
    have hk : k ≠ "aud" := by
      rintro rfl
      exact absurd hk (by decide)
    rw [claimText, if_neg hk, if_neg (by simp [hmissing.1])]
  simp only [fixedClaims, List.mem_cons, List.not_mem_nil, or_false] at hm
  rcases hm with rfl | rfl | rfl | rfl | rfl | rfl
  · rw [htenant]; exact hstated _ (by simp [required])
  · rw [hactor, h.actor_claim]
    rfl
  · rw [hacr]; exact hstated _ (by simp [required])
  · rw [hiss]; exact hstated _ (by simp [required])
  · rw [haud, ← h.audience]
    rfl
  · rw [hscope]; exact hstated _ (by simp [required])

theorem enforced_iff (h : materializeMcpRoute urlsplit route inst ref = .ok e) {projection : List (String × String)}
    (hvalid : projectionValid projection = true) :
    Enforced p projection e claims ↔ (Admits p route claims → Agrees p projection claims) := by
  simp only [Enforced, after_ok h]
  constructor
  · rintro henforced ⟨hall, actor, aud, hpasses⟩ m hm
    obtain ⟨text, htext, hheader⟩ := henforced _ ⟨hall, actor, aud, hpasses, rfl⟩ m hm
    obtain ⟨hsub, -, -, -, -, -, -, hservice⟩ := headerOf_projected p claims actor aud
    constructor
    · intro hname
      rw [htext, ← hheader, hname, hsub]
    · intro hname
      rw [htext, ← hheader, hname, hservice]
  · rintro hagrees ops ⟨hall, actor, aud, hpasses, rfl⟩ m hm
    obtain ⟨hprincipal, hservice⟩ := hagrees ⟨hall, actor, aud, hpasses⟩ m hm
    obtain ⟨hsub, htenant, hactor, hacr, hiss, haud, hscope, hsp⟩ :=
      headerOf_projected p claims actor aud
    rcases mem_projection hvalid hm with hname | hname | hfixed
    · exact ⟨_, hservice hname, by rw [hname, hsp]⟩
    · exact ⟨_, hprincipal hname, by rw [hname, hsub]⟩
    · have hvalue : ∃ text, headerOf (projected p claims actor aud) m.1 = some text := by
        simp only [fixedClaims, List.mem_cons, List.not_mem_nil, or_false] at hfixed
        rcases hfixed with rfl | rfl | rfl | rfl | rfl | rfl
        exacts [⟨_, htenant⟩, ⟨_, hactor⟩, ⟨_, hacr⟩, ⟨_, hiss⟩, ⟨_, haud⟩, ⟨_, hscope⟩]
      obtain ⟨text, htext⟩ := hvalue
      exact ⟨text, by rw [claimText_fixed hpasses hfixed, htext], htext⟩

end

/-! ## A binding -/

theorem mem_sortedSet {hs : List String} {h : String} : h ∈ sortedSet hs ↔ h ∈ hs := by
  rw [sortedSet, (List.mergeSort_perm _ _).mem_iff, List.mem_dedup]

section

variable {urlsplit : String → Option SplitResult} {inst : Installation} {ref : String} {e : McpRoute}
  {d : McpEndpointBinding}

theorem clears_iff (h : materializeMcpRoute urlsplit (emitEndpoint d) inst ref = .ok e) :
    Clears d.stripClientHeaders e ↔ d.stripClientHeaders.all (fun h => (points h).all legible) = true := by
  obtain ⟨-, trusted, htrusted, hpre⟩ := materializeMcpRoute_ok h
  obtain rfl := Option.some.inj htrusted
  have hload := loadPreFunction_trusted ((sortedSet (d.stripClientHeaders.mergeSort fun a b => decide (a ≤ b))).map points)
  rw [← hpre] at hload
  have hmem : ∀ h, h ∈ sortedSet (d.stripClientHeaders.mergeSort fun a b => decide (a ≤ b)) ↔ h ∈ d.stripClientHeaders :=
    fun h => mem_sortedSet.trans (List.mergeSort_perm _ _).mem_iff
  have hall : ((sortedSet (d.stripClientHeaders.mergeSort fun a b => decide (a ≤ b))).map points).all (·.all legible) = true
      ↔ d.stripClientHeaders.all (fun h => (points h).all legible) = true := by
    rw [List.all_map, List.all_eq_true, List.all_eq_true]
    exact forall_congr' fun h => imp_congr_left (hmem h)
  rw [Clears, McpRoute.clears, hload, ← hall]
  constructor
  · rintro ⟨names, hnames, -⟩
    split at hnames
    · next hlegible => exact hlegible
    · cases hnames
  · intro hlegible
    refine ⟨_, if_pos hlegible, fun h hh => ⟨encode (points h), ?_, ?_⟩⟩
    · exact List.mem_map_of_mem (List.mem_map_of_mem ((hmem h).mpr hh))
    · exact utf8_legible (List.all_eq_true.mp (hall.mp hlegible) h hh)

/-- The claims of a token, with some that come before them. -/
def tokenWith (extra : List (Value × Value)) (actor : String) : Value :=
  .table (extra ++ [(.string (bytes "ouf_actor_type"), .string (bytes actor)), (.string (bytes "sub"), .string [115]),
    (.string (bytes "tenant_id"), .string [116]), (.string (bytes "acr"), .string [49]),
    (.string (bytes "iss"), .string [105]), (.string (bytes "scope"), .string [120]),
    (.string (bytes "aud"), .string [97])]) 0

/-- It names no service. -/
def serviceless (actor : String) : Value := tokenWith [] actor

theorem serviceless_claims (actor : String) :
    claim (serviceless actor) "ouf_actor_type" = .string (bytes actor) ∧ claim (serviceless actor) "aud" = .string [97]
      ∧ (∀ k ∈ required, ∃ b, claim (serviceless actor) k = .string [b])
      ∧ claim (serviceless actor) "client_id" = .nil ∧ claim (serviceless actor) "azp" = .nil := by
  refine ⟨rfl, rfl, ?_, rfl, rfl⟩
  simp only [required, List.forall_mem_cons, List.not_mem_nil, false_implies, implies_true, and_true]
  exact ⟨⟨_, rfl⟩, ⟨_, rfl⟩, ⟨_, rfl⟩, ⟨_, rfl⟩, ⟨_, rfl⟩⟩

theorem serviceless_passes (p : Printer) {allowed : List Bytes} {actor : String} (h : bytes actor ∈ allowed) :
    Passes p allowed (serviceless actor) (bytes actor) [97] := by
  obtain ⟨hactor, haud, hrequired, -, -⟩ := serviceless_claims actor
  refine ⟨rfl, hactor, h, fun k hk => ?_, by rw [haud]; rfl, List.cons_ne_nil _ _⟩
  obtain ⟨b, hb⟩ := hrequired k hk
  rw [hb]
  rfl

theorem valid_endpoint (h : d.valid = true) :
    projectionValid d.claimProjection = true ∧ (actorsOf (emitEndpoint d)).all (fun a => (points a).all legible) = true
      ∧ ∃ actor, actor ∈ actorsOf (emitEndpoint d) := by
  simp only [McpEndpointBinding.valid, Bool.and_eq_true] at h
  obtain ⟨⟨⟨⟨⟨⟨⟨⟨⟨-, hne⟩, -⟩, hactors⟩, -⟩, -⟩, -⟩, -⟩, -⟩, hprojection⟩ := h
  refine ⟨hprojection, List.all_eq_true.mpr fun a ha => ?_, ?_⟩
  · have hknown := List.all_eq_true.mp hactors a ha
    simp only [List.contains_iff_mem, List.mem_cons, List.not_mem_nil, or_false] at hknown
    rcases hknown with rfl | rfl | rfl <;> decide
  · cases hlist : d.allowedActorTypes with
    | nil => simp [hlist] at hne
    | cons actor actors => exact ⟨actor, by simp [actorsOf, emitEndpoint, hlist]⟩

/-- What a binding declares holds of a token that the function refuses or whose claims agree; there is no binding it
holds of for every token. -/
theorem projection_is_declared_iff {files : List (String × Loaded)} {a : Artifact} {path : String}
    (hcompile : compileConfig files = .ok a) (hd : (path, .document (.mcpEndpointBinding d)) ∈ files)
    (h : materializeMcpRoute urlsplit (emitEndpoint d) inst ref = .ok e) (p : Printer) :
    emitEndpoint d ∈ a.routes
      ∧ (Clears d.stripClientHeaders e ↔ d.stripClientHeaders.all (fun h => (points h).all legible) = true)
      ∧ (∀ claims, Enforced p d.claimProjection e claims ↔
          (Admits p (emitEndpoint d) claims → Agrees p d.claimProjection claims))
      ∧ ¬ ∀ claims, Enforced p d.claimProjection e claims := by
  obtain ⟨docs, hload, hdocs⟩ := compileConfig_ok hcompile
  obtain ⟨hfiles, hvalid⟩ := loadDocuments_ok hload
  obtain ⟨c⟩ := compileDocuments_ok hdocs
  have hmem : (path, .mcpEndpointBinding d) ∈ docs := by
    rw [hfiles] at hd
    obtain ⟨doc, hdoc, heq⟩ := List.mem_map.mp hd
    obtain ⟨path', d'⟩ := doc
    cases heq
    exact hdoc
  obtain ⟨hprojection, hlegible, actor, hactor⟩ := valid_endpoint (hvalid _ hmem)
  refine ⟨c.mem_routes.mpr ⟨_, hmem, .inr (.inl rfl)⟩, clears_iff h, fun claims => enforced_iff h hprojection, ?_⟩
  intro henforced
  obtain ⟨name, hname, hdeclared⟩ := service_declared hprojection
  have hadmits : Admits p (emitEndpoint d) (serviceless actor) :=
    ⟨hlegible, _, _, serviceless_passes p (List.mem_map_of_mem hactor)⟩
  have hagrees := ((enforced_iff h hprojection).mp (henforced (serviceless actor)) hadmits _ hdeclared).2 rfl
  obtain ⟨-, -, -, hclient, hazp⟩ := serviceless_claims actor
  rcases hname with rfl | rfl
  · rw [hclient] at hagrees
    cases hagrees
  · rw [hazp] at hagrees
    cases hagrees

end

/-! ## The repository's binding, with the other subject -/

def labBinding : McpEndpointBinding where
  metadata := ⟨"public-mcp-endpoint", "1.0.0"⟩
  exposure := .toPublic
  sourceRef := "mcp-server-operations@1.0.0"
  method := .post
  path := "/mcp"
  backendBinding := ⟨"ouf-mcp-server", 8080, "/mcp"⟩
  identity := .oidc
  requiredAudience := "ouf-api-gateway"
  requiredScope := "mcp.connect"
  allowedActorTypes := ["HUMAN", "AI_AGENT", "SERVICE"]
  maxRequestBytes := 1048576
  timeoutSeconds := 30
  stripClientHeaders := CompileConfig.requiredTrusted
  claimProjection := ("X-OUF-Service-Principal", "azp") :: ("X-OUF-Principal-ID", "ouf_subject") :: fixedClaims

def labFiles : List (String × Loaded) :=
  [("mcp-endpoint.yaml", .document (.mcpEndpointBinding labBinding)),
    ("mcp-server.yaml", .document (.sourceRuntimeProfile
      ⟨⟨"mcp-server-operations", "1.0.0"⟩, "service://ouf-mcp-server/mcp", none⟩))]

def labInstallation : Installation :=
  ⟨some "lab", some "https://auth.example", some "https://api.example", "3"⟩

/-- What `urlsplit` gives for a secure origin. -/
def originSplit (url : String) : Option SplitResult :=
  some ⟨"https", "", "", "", some (String.ofList (url.toList.drop 8)), none, none⟩

def nullPrinter : Printer := ⟨fun _ => bytes "userdata: NULL", fun _ => by decide⟩

def labRoute : Except MaterializationError McpRoute :=
  materializeMcpRoute originSplit (emitEndpoint labBinding) labInstallation "$ENV://OIDC"

theorem labRoute_emitted : ∃ e, labRoute = .ok e := by
  have hne : (labBinding.stripClientHeaders.mergeSort fun a b => decide (a ≤ b)) ≠ [] := by
    intro hempty
    have hlength := congrArg List.length hempty
    rw [List.length_mergeSort] at hlength
    cases hlength
  simp only [labRoute, materializeMcpRoute, bind_eq_ok, ensure_ok, require_ok]
  refine ⟨_, (), rfl, (), rfl, _, rfl, _, rfl, _, rfl, (), rfl, _, rfl, _, rfl, (), by decide, _, rfl, _, rfl, _, rfl,
    _, rfl, (), rfl, (), by decide, (), rfl, (), hne, (), by decide, _, rfl, _, rfl, rfl⟩

theorem labFiles_compile : ∃ a, compileConfig labFiles = .ok a := ⟨_, rfl⟩

/-- The claims of a token whose subject is `null`. -/
def nullSubject : Value :=
  tokenWith [(.string (bytes "sub"), .other), (.string (bytes "azp"), .string [122])] "HUMAN"

/-- The claims of a token with two subjects. -/
def twoSubjects : Value :=
  tokenWith [(.string (bytes "ouf_subject"), .string [111]), (.string (bytes "azp"), .string [122])] "HUMAN"

theorem admits_lab {claims : Value} {actor aud : Bytes}
    (h : Passes nullPrinter ((actorsOf (emitEndpoint labBinding)).map bytes) claims actor aud) :
    Admits nullPrinter (emitEndpoint labBinding) claims :=
  ⟨by decide, actor, aud, h⟩

theorem nullSubject_passes :
    Passes nullPrinter ((actorsOf (emitEndpoint labBinding)).map bytes) nullSubject (bytes "HUMAN") [97] := by
  refine ⟨rfl, rfl, List.mem_cons_self, ?_, rfl, List.cons_ne_nil _ _⟩
  simp only [required, List.forall_mem_cons, List.not_mem_nil, false_implies, implies_true, and_true]
  exact ⟨rfl, rfl, rfl, rfl, rfl⟩

theorem lab_identity_iff :
    ∃ e, labRoute = .ok e ∧
      ((∀ ops, e.after nullPrinter (serviceless "HUMAN") = .ok ops → Faithful (serviceless "HUMAN") ops) ↔
        (Admits nullPrinter (emitEndpoint labBinding) (serviceless "HUMAN") → Typed (serviceless "HUMAN"))) := by
  obtain ⟨e, he⟩ := labRoute_emitted
  exact ⟨e, he, identity_is_projected_iff he nullPrinter (serviceless "HUMAN")⟩

/-- A token whose subject is `null` is let through as the principal `userdata: NULL`. -/
theorem null_is_a_principal :
    ∃ e ops, labRoute = .ok e ∧ e.after nullPrinter nullSubject = .ok ops
      ∧ claim nullSubject "sub" = .other ∧ headerOf ops "X-OUF-Principal-ID" = some (bytes "userdata: NULL")
      ∧ ¬ Faithful nullSubject ops := by
  obtain ⟨e, he⟩ := labRoute_emitted
  have hadmits := admits_lab nullSubject_passes
  refine ⟨e, _, he, (after_ok he).mpr ⟨hadmits.1, _, _, nullSubject_passes, rfl⟩, rfl, ?_, fun hfaithful => ?_⟩
  · rw [(headerOf_projected _ _ _ _).1]
    rfl
  · obtain ⟨s, hs, -⟩ := hfaithful.texts ("X-OUF-Principal-ID", "sub") List.mem_cons_self
    cases hs

theorem twoSubjects_passes :
    Passes nullPrinter ((actorsOf (emitEndpoint labBinding)).map bytes) twoSubjects (bytes "HUMAN") [97] := by
  refine ⟨rfl, rfl, List.mem_cons_self, ?_, rfl, List.cons_ne_nil _ _⟩
  simp only [required, List.forall_mem_cons, List.not_mem_nil, false_implies, implies_true, and_true]
  exact ⟨rfl, rfl, rfl, rfl, rfl⟩

theorem lab_projection_iff :
    ∃ e, ∃ a : Artifact, labRoute = .ok e ∧ emitEndpoint labBinding ∈ a.routes
      ∧ ¬ ∀ claims, Enforced nullPrinter labBinding.claimProjection e claims := by
  obtain ⟨e, he⟩ := labRoute_emitted
  obtain ⟨a, ha⟩ := labFiles_compile
  obtain ⟨hmem, -, -, hnever⟩ := projection_is_declared_iff ha List.mem_cons_self he nullPrinter
  exact ⟨e, a, he, hmem, hnever⟩

/-- The binding names `ouf_subject` for the principal, and a token that has one is let through as its `sub`. -/
theorem subject_is_not_declared :
    ∃ e ops, labRoute = .ok e ∧ e.after nullPrinter twoSubjects = .ok ops
      ∧ ("X-OUF-Principal-ID", "ouf_subject") ∈ labBinding.claimProjection
      ∧ claim twoSubjects "ouf_subject" = .string [111] ∧ headerOf ops "X-OUF-Principal-ID" = some [115]
      ∧ ¬ Enforced nullPrinter labBinding.claimProjection e twoSubjects := by
  obtain ⟨e, he⟩ := labRoute_emitted
  have hadmits := admits_lab twoSubjects_passes
  have hafter := (after_ok he).mpr ⟨hadmits.1, _, _, twoSubjects_passes, rfl⟩
  have hdeclared : ("X-OUF-Principal-ID", "ouf_subject") ∈ labBinding.claimProjection := by
    simp [labBinding]
  have hheader : headerOf (projected nullPrinter twoSubjects (bytes "HUMAN") [97]) "X-OUF-Principal-ID" = some [115] := by
    rw [(headerOf_projected _ _ _ _).1]
    rfl
  refine ⟨e, _, he, hafter, hdeclared, rfl, hheader, fun henforced => ?_⟩
  obtain ⟨text, htext, hvalue⟩ := henforced _ hafter _ hdeclared
  rw [hheader] at hvalue
  cases hvalue
  cases htext

end OufGateway.TrustedIdentity
