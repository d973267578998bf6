import Mathlib
import OufGateway.Ref.CompileConfig

/-!
# What an accepted configuration went through

One lemma for each function of the compiler that reads its contract off an
`ok`. A walk binds every document, in order, and what it emits is what its
documents give one by one; which documents give a route, and which route, does
not depend on the matches seen on the way. So the routes of an accepted
configuration are a permutation of three lists that are read off the documents
directly.
-/

namespace OufGateway.CompileConfig

open Lib

variable {docs ds : Documents} {seen : Seen} {path : String} {files : List (String × Loaded)}

/-! ## Loading -/

theorem loadDocuments_ok (h : loadDocuments files = .ok docs) :
    files = docs.map (fun d => (d.1, Loaded.document d.2)) ∧ ∀ d ∈ docs, d.2.valid = true := by
  induction files generalizing docs with
  | nil =>
      obtain rfl : [] = docs := Except.ok.inj h
      exact ⟨rfl, fun d hd => absurd hd List.not_mem_nil⟩
  | cons file files ih =>
      obtain ⟨path, loaded⟩ := file
      cases loaded with
      | unsupported kind => cases h
      | malformed => cases h
      | document d =>
          rw [loadDocuments] at h
          split at h
          · next hvalid =>
            cases hrest : loadDocuments files with
            | error e => rw [hrest] at h; cases h
            | ok rest =>
                rw [hrest] at h
                obtain rfl : (path, d) :: rest = docs := Except.ok.inj h
                obtain ⟨hfiles, hall⟩ := ih hrest
                refine ⟨by rw [hfiles, List.map_cons], fun e he => ?_⟩
                rcases List.mem_cons.mp he with rfl | he
                · exact hvalid
                · exact hall e he
          · cases h

/-! ## One binding -/

theorem checkRoute_ok {d : RouteBinding} {found : Capability × SourceRuntimeProfile}
    (h : checkRoute docs path d = .ok found) :
    capabilityOf docs d.capabilityRef = some found.1 ∧ sourceOf docs d.sourceRef = some found.2 := by
  unfold checkRoute at h
  split at h
  · cases h
  · next hcapability =>
    split at h
    · cases h
    · next hsource =>
      simp only [guard_eq_ok] at h
      obtain ⟨-, -, -, -, h⟩ := h
      obtain rfl := Except.ok.inj h
      exact ⟨hcapability, hsource⟩

theorem bindRoute_ok {d : RouteBinding} {r : Option CompiledRoute × Seen}
    (h : bindRoute docs seen path (.routeBinding d) = .ok r) :
    ∃ found seen', checkRoute docs path d = .ok found ∧
      seen.add path (d.method, d.path) d.uriRegex = .ok seen' ∧ checkNamespace path d = .ok () ∧
      r = (some (emitRoute d found.1 found.2), seen') := by
  simp only [bindRoute, bind_eq_ok] at h
  obtain ⟨found, hfound, seen', hseen, _, hspace, h⟩ := h
  exact ⟨found, seen', hfound, hseen, hspace, (Except.ok.inj h).symm⟩

theorem bindEndpoint_ok {d : McpEndpointBinding} {r : Option CompiledRoute × Seen}
    (h : bindEndpoint docs seen path (.mcpEndpointBinding d) = .ok r) :
    ∃ source seen', sourceOf docs d.sourceRef = some source ∧
      Text.startsWith "service://" source.endpointRef = true ∧
      seen.addPlain path (d.method, d.path) = .ok seen' ∧ checkTrusted path d = .ok () ∧
      r = (some (emitEndpoint d), seen') := by
  simp only [bindEndpoint] at h
  split at h
  · cases h
  · next source hsource =>
    split at h
    · cases h
    · next hservice =>
      simp only [bind_eq_ok] at h
      obtain ⟨seen', hseen, _, htrusted, h⟩ := h
      have hservice : Text.startsWith "service://" source.endpointRef = true := by
        simpa using hservice
      exact ⟨source, seen', hsource, hservice, hseen, htrusted, (Except.ok.inj h).symm⟩

theorem bindMediation_ok {d : McpMediationBinding} {r : Option CompiledRoute × Seen}
    (h : bindMediation seen path (.mcpMediationBinding d) = .ok r) :
    ∃ seen', seen.addPlain path (d.method, d.path) = .ok seen' ∧
      r = (some (emitMediation d), seen') := by
  simp only [bindMediation, bind_eq_ok] at h
  obtain ⟨seen', hseen, h⟩ := h
  exact ⟨seen', hseen, (Except.ok.inj h).symm⟩

/-! ## The routes of the documents -/

def routeOf (docs : Documents) : Document → Option CompiledRoute
  | .routeBinding d =>
    (capabilityOf docs d.capabilityRef).bind fun capability =>
      (sourceOf docs d.sourceRef).map (emitRoute d capability)
  | _ => none

def endpointOf : Document → Option CompiledRoute
  | .mcpEndpointBinding d => some (emitEndpoint d)
  | _ => none

def mediationOf : Document → Option CompiledRoute
  | .mcpMediationBinding d => some (emitMediation d)
  | _ => none

theorem bindRoute_route {d : Document} {r : Option CompiledRoute × Seen}
    (h : bindRoute docs seen path d = .ok r) : r.1 = routeOf docs d := by
  cases d with
  | routeBinding d =>
      obtain ⟨found, seen', hfound, -, -, rfl⟩ := bindRoute_ok h
      obtain ⟨hcapability, hsource⟩ := checkRoute_ok hfound
      rw [routeOf, hcapability, Option.bind_some, hsource, Option.map_some]
  | _ =>
      obtain rfl := Except.ok.inj h
      rfl

theorem bindEndpoint_route {d : Document} {r : Option CompiledRoute × Seen}
    (h : bindEndpoint docs seen path d = .ok r) : r.1 = endpointOf d := by
  cases d with
  | mcpEndpointBinding d =>
      obtain ⟨-, -, -, -, -, -, rfl⟩ := bindEndpoint_ok h
      rfl
  | _ =>
      obtain rfl := Except.ok.inj h
      rfl

theorem bindMediation_route {d : Document} {r : Option CompiledRoute × Seen}
    (h : bindMediation seen path d = .ok r) : r.1 = mediationOf d := by
  cases d with
  | mcpMediationBinding d =>
      obtain ⟨-, -, rfl⟩ := bindMediation_ok h
      rfl
  | _ =>
      obtain rfl := Except.ok.inj h
      rfl

/-! ## Walks -/

section Walk

variable {bind : Seen → String → Document → Except ConfigError (Option CompiledRoute × Seen)}
  {r : List CompiledRoute × Seen}

theorem walk_cons_ok {d : String × Document} (h : walk bind (d :: ds) seen = .ok r) :
    ∃ first rest, bind seen d.1 d.2 = .ok first ∧ walk bind ds first.2 = .ok rest ∧
      r = (first.1.toList ++ rest.1, rest.2) := by
  simp only [walk, bind_eq_ok] at h
  obtain ⟨first, hfirst, rest, hrest, h⟩ := h
  exact ⟨first, rest, hfirst, hrest, (Except.ok.inj h).symm⟩

/-- Every document of a walk was bound. -/
theorem walk_bound (h : walk bind ds seen = .ok r) {d : String × Document} (hd : d ∈ ds) :
    ∃ seen' first, bind seen' d.1 d.2 = .ok first := by
  induction ds generalizing seen r with
  | nil => cases hd
  | cons e ds ih =>
      obtain ⟨first, rest, hfirst, hrest, -⟩ := walk_cons_ok h
      rcases List.mem_cons.mp hd with rfl | hd
      · exact ⟨seen, first, hfirst⟩
      · exact ih hrest hd

/-- A walk emits what its documents give one by one. -/
theorem walk_routes {f : Document → Option CompiledRoute}
    (hbind : ∀ {seen path d first}, bind seen path d = .ok first → first.1 = f d)
    (h : walk bind ds seen = .ok r) : r.1 = ds.filterMap fun d => f d.2 := by
  induction ds generalizing seen r with
  | nil =>
      obtain rfl := Except.ok.inj h
      rfl
  | cons d ds ih =>
      obtain ⟨first, rest, hfirst, hrest, rfl⟩ := walk_cons_ok h
      rw [List.filterMap_cons, ← hbind hfirst, ← ih hrest]
      cases first.1 <;> rfl

/-- What binding a document keeps of the routes so far and the matches seen, a walk keeps. -/
theorem walk_keeps {P : List CompiledRoute → Seen → Prop} {acc : List CompiledRoute}
    (hstep : ∀ {seen d first acc}, d ∈ ds → bind seen d.1 d.2 = .ok first → P acc seen →
      P (acc ++ first.1.toList) first.2)
    (h : walk bind ds seen = .ok r) (hacc : P acc seen) : P (acc ++ r.1) r.2 := by
  induction ds generalizing seen r acc with
  | nil =>
      obtain rfl := Except.ok.inj h
      rw [List.append_nil]
      exact hacc
  | cons d ds ih =>
      obtain ⟨first, rest, hfirst, hrest, rfl⟩ := walk_cons_ok h
      have hd := hstep List.mem_cons_self hfirst hacc
      have := ih (fun hd => hstep (List.mem_cons_of_mem _ hd)) hrest hd
      rwa [List.append_assoc] at this

end Walk

/-! ## An accepted configuration -/

/-- The three walks of a compilation that answered. -/
structure Compiled (docs : Documents) (a : Artifact) where
  routes : List CompiledRoute × Seen
  endpoints : List CompiledRoute × Seen
  mediations : List CompiledRoute × Seen
  unique : checkUnique [] docs = .ok ()
  extractions : checkExtractions docs docs = .ok ()
  walkRoutes : walk (bindRoute docs) docs {} = .ok routes
  walkEndpoints : walk (bindEndpoint docs) docs routes.2 = .ok endpoints
  walkMediations : walk bindMediation docs endpoints.2 = .ok mediations
  sealed : a = CompileConfig.sealed (byId (routes.1 ++ endpoints.1 ++ mediations.1))
  serializable : ∀ r ∈ a.routes, r.queryContract.serializable = true

theorem compileDocuments_ok {a : Artifact} (h : compileDocuments docs = .ok a) :
    Nonempty (Compiled docs a) := by
  simp only [compileDocuments, bind_eq_ok] at h
  obtain ⟨_, hunique, _, hextractions, r, hr, e, he, m, hm, h⟩ := h
  unfold sealRoutes at h
  split at h
  · next hall =>
    obtain rfl := Except.ok.inj h
    refine ⟨⟨r, e, m, hunique, hextractions, hr, he, hm, rfl, fun s hs => ?_⟩⟩
    exact List.all_eq_true.mp hall s ((List.mergeSort_perm _ _).mem_iff.mp hs)
  · cases h

theorem compileConfig_ok {a : Artifact} (h : compileConfig files = .ok a) :
    ∃ docs, loadDocuments files = .ok docs ∧ compileDocuments docs = .ok a := by
  simp only [compileConfig, bind_eq_ok] at h
  exact h

namespace Compiled

variable {a : Artifact} (c : Compiled docs a)
include c

theorem routes_eq : c.routes.1 = docs.filterMap fun d => routeOf docs d.2 :=
  walk_routes bindRoute_route c.walkRoutes

theorem endpoints_eq : c.endpoints.1 = docs.filterMap fun d => endpointOf d.2 :=
  walk_routes bindEndpoint_route c.walkEndpoints

theorem mediations_eq : c.mediations.1 = docs.filterMap fun d => mediationOf d.2 :=
  walk_routes bindMediation_route c.walkMediations

theorem perm : a.routes.Perm (c.routes.1 ++ c.endpoints.1 ++ c.mediations.1) := by
  have hroutes : a.routes = byId (c.routes.1 ++ c.endpoints.1 ++ c.mediations.1) :=
    congrArg Artifact.routes c.sealed
  rw [hroutes]
  exact List.mergeSort_perm _ _

/-- A route is one that a document gives. -/
theorem mem_routes {r : CompiledRoute} :
    r ∈ a.routes ↔ ∃ d ∈ docs, routeOf docs d.2 = some r ∨ endpointOf d.2 = some r ∨
      mediationOf d.2 = some r := by
  rw [c.perm.mem_iff, List.mem_append, List.mem_append, c.routes_eq, c.endpoints_eq,
    c.mediations_eq, List.mem_filterMap, List.mem_filterMap, List.mem_filterMap, or_assoc,
    ← exists_or, ← exists_or]
  simp only [← and_or_left]

theorem bound {d : RouteBinding} {path : String} (hd : (path, .routeBinding d) ∈ docs) :
    ∃ found, checkRoute docs path d = .ok found ∧
      routeOf docs (.routeBinding d) = some (emitRoute d found.1 found.2) := by
  obtain ⟨seen, first, hfirst⟩ := walk_bound c.walkRoutes hd
  obtain ⟨found, seen', hfound, -, -, rfl⟩ := bindRoute_ok hfirst
  exact ⟨found, hfound, (bindRoute_route hfirst).symm⟩

end Compiled

end OufGateway.CompileConfig
