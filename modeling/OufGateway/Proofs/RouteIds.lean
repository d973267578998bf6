import Mathlib
import OufGateway.Proofs.Compiler
import OufGateway.Proofs.RouteTable

/-!
# Route ids

A route has the metadata id of the document it comes from, and the compiler compares
documents by kind, id and version together, and routes by method, path and expression.
So two routes of an accepted configuration are never equal, but they may have one id:
two versions of a route binding on different paths are enough. The materializers index
the artifact by id, and of such routes the dictionary keeps the last.
-/

namespace OufGateway.CompileConfig

open Lib

variable {docs : Documents} {files : List (String × Loaded)} {a : Artifact}
  {routes : List CompiledRoute}

/-- The metadata id of a document that gives a route. -/
def bindingId : Document → Option String
  | .routeBinding d => some d.metadata.id
  | .mcpEndpointBinding d => some d.metadata.id
  | .mcpMediationBinding d => some d.metadata.id
  | _ => none

/-- The ids of the documents that give a route. -/
def bindingIds (files : List (String × Loaded)) : List String :=
  files.filterMap fun f => match f.2 with
    | .document d => bindingId d
    | _ => none

/-- `{r["id"]: r for r in routes}`, looked up: the last route with an id is kept. -/
def indexed (routes : List CompiledRoute) (id : String) : Option CompiledRoute :=
  routes.reverse.find? (·.id = id)

/-! ## The routes, document by document -/

/-- Two passes that take different items are one pass, up to the order. -/
theorem filterMap_append_perm {α β : Type} {f g : α → Option β} (l : List α)
    (h : ∀ x ∈ l, f x = none ∨ g x = none) :
    (l.filterMap f ++ l.filterMap g).Perm (l.filterMap fun x => f x <|> g x) := by
  induction l with
  | nil => exact List.Perm.refl []
  | cons x l ih =>
      have hl := ih fun y hy => h y (List.mem_cons_of_mem _ hy)
      rcases h x List.mem_cons_self with hf | hg
      · rw [List.filterMap_cons_none hf]
        cases hx : g x with
        | none =>
            rw [List.filterMap_cons_none hx, List.filterMap_cons_none (by rw [hf, hx]; rfl)]
            exact hl
        | some y =>
            rw [List.filterMap_cons_some hx, List.filterMap_cons_some (by rw [hf, hx]; rfl)]
            exact List.perm_middle.trans (hl.cons y)
      · rw [List.filterMap_cons_none hg]
        cases hx : f x with
        | none =>
            rw [List.filterMap_cons_none hx, List.filterMap_cons_none (by rw [hg, hx]; rfl)]
            exact hl
        | some y =>
            rw [List.filterMap_cons_some hx, List.filterMap_cons_some (by rw [hx]; rfl)]
            exact hl.cons y

/-- The route of a document, whichever walk emits it. -/
def emitted (docs : Documents) (d : Document) : Option CompiledRoute :=
  (routeOf docs d <|> endpointOf d) <|> mediationOf d

/-- Every document that gives a route gives one with its id. -/
theorem Compiled.emitted_id (c : Compiled docs a) {d : String × Document} (hd : d ∈ docs) :
    (emitted docs d.2).map (·.id) = bindingId d.2 := by
  obtain ⟨path, d⟩ := d
  cases d with
  | routeBinding b =>
      obtain ⟨found, -, hr⟩ := c.bound hd
      simp only [emitted, hr, bindingId]
      rfl
  | _ => rfl

/-- What the three walks emit is what the documents give, up to the order. -/
theorem perm_walks : ((docs.filterMap fun d => routeOf docs d.2) ++
      (docs.filterMap fun d => endpointOf d.2) ++ docs.filterMap fun d => mediationOf d.2).Perm
    (docs.filterMap fun d => emitted docs d.2) := by
  have hfirst : ∀ d ∈ docs, routeOf docs d.2 = none ∨ endpointOf d.2 = none := by
    rintro ⟨path, d⟩ -
    cases d <;> simp [routeOf, endpointOf]
  have hsecond : ∀ d ∈ docs, (routeOf docs d.2 <|> endpointOf d.2) = none ∨ mediationOf d.2 = none := by
    rintro ⟨path, d⟩ -
    cases d <;> simp [routeOf, endpointOf, mediationOf]
  exact ((filterMap_append_perm docs hfirst).append_right _).trans
    (filterMap_append_perm docs hsecond)

theorem Compiled.perm_emitted (c : Compiled docs a) :
    a.routes.Perm (docs.filterMap fun d => emitted docs d.2) := by
  refine c.perm.trans ?_
  rw [c.routes_eq, c.endpoints_eq, c.mediations_eq]
  exact perm_walks

/-- The ids of the routes are those of the documents that give one. -/
theorem perm_bindingIds (h : compileConfig files = .ok a) :
    (a.routes.map (·.id)).Perm (bindingIds files) := by
  obtain ⟨docs, hload, hcompile⟩ := compileConfig_ok h
  obtain ⟨hfiles, -⟩ := loadDocuments_ok hload
  obtain ⟨c⟩ := compileDocuments_ok hcompile
  refine (c.perm_emitted.map _).trans ?_
  rw [List.map_filterMap, bindingIds, hfiles, List.filterMap_map]
  refine (List.filterMap_congr fun d hd => ?_) ▸ List.Perm.refl _
  exact (c.emitted_id hd).symm

/-! ## Indexing -/

/-- Routes that are pairwise apart are all kept if and only if their ids differ. -/
theorem indexed_iff (h : routes.Pairwise Apart) :
    (∀ r ∈ routes, indexed routes r.id = some r) ↔ (routes.map (·.id)).Nodup := by
  have hnodup : routes.Nodup := h.imp fun {r s} hapart heq => by
    subst heq
    obtain ⟨x, y, hx, hy, hne⟩ := hapart rfl rfl
    exact hne (Option.some.inj (hx.symm.trans hy))
  constructor
  · intro hkept
    refine hnodup.map_on fun r hr s hs heq => ?_
    have hs' := hkept s hs
    rw [← heq, hkept r hr] at hs'
    exact Option.some.inj hs'
  · intro hids r hr
    obtain ⟨s, hs⟩ := Option.isSome_iff_exists.mp (List.find?_isSome.mpr
      ⟨r, List.mem_reverse.mpr hr, decide_eq_true rfl⟩ :
        (routes.reverse.find? (·.id = r.id)).isSome = true)
    have hmem := List.mem_reverse.mp (List.mem_of_find?_eq_some hs)
    have hid := List.find?_some hs
    rw [indexed, hs, List.inj_on_of_nodup_map hids hmem hr (of_decide_eq_true hid)]

theorem compiled_apart (h : compileConfig files = .ok a) : a.routes.Pairwise Apart := by
  obtain ⟨docs, hload, hcompile⟩ := compileConfig_ok h
  obtain ⟨-, hvalid⟩ := loadDocuments_ok hload
  obtain ⟨c⟩ := compileDocuments_ok hcompile
  exact (c.perm.pairwise_iff Apart.symm).mpr (c.apart hvalid)

/-- The routes of an accepted configuration have ids of their own, and an index by id has
all of them, exactly when the documents that give routes have ids of their own. -/
theorem route_ids_iff (h : compileConfig files = .ok a) :
    ((a.routes.map (·.id)).Nodup ∧ ∀ r ∈ a.routes, indexed a.routes r.id = some r) ↔
      (bindingIds files).Nodup := by
  rw [indexed_iff (compiled_apart h), and_self, (perm_bindingIds h).nodup_iff]

/-! ## Two versions of one route -/

/-- The route binding `oak` in a version, on a path of its own. -/
def oakRoute (version path : String) : RouteBinding where
  metadata := ⟨"oak", version⟩
  exposure := .toPublic
  capabilityRef := "parks.read@1.0.0"
  sourceRef := "parks@1.0.0"
  extractionProfileRef := none
  method := .get
  path := path
  uriRegex := none
  query := none
  backendBinding := ⟨"parks", 8080, path⟩
  identity := .oidc
  allowedServiceIdentities := none
  allowedActorTypes := none
  maxRequestBytes := 1024
  timeoutSeconds := 5

def twoVersions : List (String × Loaded) :=
  [("oak-1.yaml", .document (.routeBinding (oakRoute "1.0.0" "/oaks"))),
    ("oak-2.yaml", .document (.routeBinding (oakRoute "2.0.0" "/parks/oaks"))),
    ("parks.yaml", .document (.sourceRuntimeProfile parks)),
    ("read.yaml", .document (.capability readParks))]

/-- Both versions are compiled, under one id. -/
theorem compiled_twoVersions :
    ∃ a, compileConfig twoVersions = .ok a ∧ a.routes.length = 2 ∧
      ¬ (a.routes.map (·.id)).Nodup ∧ ¬ ∀ r ∈ a.routes, indexed a.routes r.id = some r := by
  have hcompile : compileConfig twoVersions =
      .ok (sealed (byId [emitRoute (oakRoute "1.0.0" "/oaks") readParks parks,
        emitRoute (oakRoute "2.0.0" "/parks/oaks") readParks parks])) := rfl
  have hids := (perm_bindingIds hcompile).nodup_iff.not.mpr (by decide)
  refine ⟨_, hcompile, ?_, hids, (indexed_iff (compiled_apart hcompile)).not.mpr hids⟩
  exact (List.mergeSort_perm _ _).length_eq

theorem route_ids_twoSelectors :
    ((twoRoutes "^/parks/oak$" "^/parks/elm$").routes.map (·.id)).Nodup ∧
      ∀ r ∈ (twoRoutes "^/parks/oak$" "^/parks/elm$").routes,
        indexed (twoRoutes "^/parks/oak$" "^/parks/elm$").routes r.id = some r :=
  have hcompile : compileConfig (twoSelectors "^/parks/oak$" "^/parks/elm$") =
      .ok (twoRoutes "^/parks/oak$" "^/parks/elm$") := rfl
  (route_ids_iff hcompile).mpr (by decide)

end OufGateway.CompileConfig
