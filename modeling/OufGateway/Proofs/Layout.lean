import Mathlib
import OufGateway.Proofs.Compiler
import OufGateway.Proofs.RouteTable
import OufGateway.Proofs.RouteIds

/-!
# The layout of the files

The compiler visits documents in the order of their paths, and what it has seen on the
way decides what it still takes. None of that is in the result. References are resolved
over all documents at once, so they do not know the order; a match is refused if it
clashes with one seen before, and `Clash` is symmetric, so a set of matches is taken in
every order or in none. What a configuration must satisfy to be compiled is therefore
`Acceptable`, which speaks of its documents only; the routes are then the routes of the
documents, and a list of routes with ids of their own has one order by id.
-/

namespace OufGateway.CompileConfig

open Lib

variable {docs docs' ds : Documents} {files files' : List (String × Loaded)} {seen s : Seen}
  {path : String} {a : Artifact}

/-! ## Matches -/

/-- A method and a path, and the expression that narrows them. -/
abbrev Match := (Method × String) × Option String

def Clash (m n : Match) : Prop := m.1 = n.1 ∧ (m.2 = none ∨ n.2 = none ∨ m.2 = n.2)

theorem Clash.symm {m n : Match} (h : Clash m n) : Clash n m := by
  obtain ⟨hkey, hexpr⟩ := h
  refine ⟨hkey.symm, ?_⟩
  rcases hexpr with h | h | h
  · exact Or.inr (Or.inl h)
  · exact Or.inl h
  · exact Or.inr (Or.inr h.symm)

/-- `matches` and `selected_matches` after these matches, the last one first. -/
def Seen.of (ms : List Match) : Seen where
  plain := ms.filterMap fun m => if m.2 = none then some m.1 else none
  selected := ms.filterMap fun m => m.2.map fun x => (m.1.1, m.1.2, x)

theorem Seen.mem_plain {ms : List Match} {key : Method × String} :
    key ∈ (Seen.of ms).plain ↔ (key, none) ∈ ms := by
  simp only [Seen.of, List.mem_filterMap, Option.ite_none_right_eq_some, Option.some.injEq]
  constructor
  · rintro ⟨⟨k, x⟩, hm, rfl, rfl⟩
    exact hm
  · exact fun h => ⟨_, h, rfl, rfl⟩

theorem Seen.mem_selected {ms : List Match} {key : Method × String} {x : String} :
    (key.1, key.2, x) ∈ (Seen.of ms).selected ↔ (key, some x) ∈ ms := by
  simp only [Seen.of, List.mem_filterMap, Option.map_eq_some_iff, Prod.mk.injEq]
  constructor
  · rintro ⟨⟨⟨method, path⟩, y⟩, hm, x', rfl, rfl, rfl, rfl⟩
    exact hm
  · exact fun h => ⟨_, h, x, rfl, rfl, rfl, rfl⟩

theorem Seen.hasSelected_iff {ms : List Match} {key : Method × String} :
    (Seen.of ms).hasSelected key = true ↔ ∃ x, (key, some x) ∈ ms := by
  unfold Seen.hasSelected
  simp only [List.any_eq_true, decide_eq_true_eq]
  constructor
  · rintro ⟨⟨method, path, x⟩, hm, rfl⟩
    exact ⟨x, Seen.mem_selected.mp hm⟩
  · rintro ⟨x, hm⟩
    exact ⟨_, Seen.mem_selected.mpr hm, rfl⟩

/-- A match is taken exactly when it clashes with none before it. -/
theorem Seen.add_eq_ok {ms : List Match} {key : Method × String} {uriRegex : Option String} :
    (Seen.of ms).add path key uriRegex = .ok s ↔
      (∀ m ∈ ms, ¬ Clash m (key, uriRegex)) ∧ s = Seen.of ((key, uriRegex) :: ms) := by
  have hclash : (∀ m ∈ ms, ¬ Clash m (key, uriRegex)) ↔ (key, none) ∉ ms ∧
      ∀ x, (key, some x) ∈ ms → uriRegex ≠ none ∧ uriRegex ≠ some x := by
    constructor
    · intro h
      refine ⟨fun hm => h _ hm ⟨rfl, Or.inl rfl⟩, fun x hm => ⟨?_, ?_⟩⟩
      · rintro rfl
        exact h _ hm ⟨rfl, Or.inr (Or.inl rfl)⟩
      · rintro rfl
        exact h _ hm ⟨rfl, Or.inr (Or.inr rfl)⟩
    · rintro ⟨hplain, hselected⟩ ⟨k, y⟩ hm ⟨hkey, hexpr⟩
      obtain rfl : k = key := hkey
      cases y with
      | none => exact hplain hm
      | some y =>
          obtain ⟨hnone, hsome⟩ := hselected y hm
          rcases hexpr with h | h | h
          · cases h
          · exact hnone h
          · exact hsome h.symm
  rw [hclash]
  unfold Seen.add
  simp only [Seen.mem_plain]
  split
  · next hplain => simp [hplain]
  · next hplain =>
    cases uriRegex with
    | none =>
        simp only []
        split
        · next hselected =>
          obtain ⟨x, hx⟩ := Seen.hasSelected_iff.mp hselected
          simp only [reduceCtorEq, false_iff]
          exact fun h => (h.1.2 x hx).1 rfl
        · next hselected =>
          have hnone : ∀ x, (key, some x) ∉ ms := fun x hx =>
            hselected (Seen.hasSelected_iff.mpr ⟨x, hx⟩)
          simp [hplain, hnone, Seen.of, eq_comm]
    | some y =>
        simp only [Seen.mem_selected]
        split
        · next hselected =>
          simp only [reduceCtorEq, false_iff]
          exact fun h => (h.1.2 y hselected).2 rfl
        · next hselected =>
          have hother : ∀ x, (key, some x) ∈ ms → y ≠ x := fun x hx heq => hselected (heq ▸ hx)
          simp only [Except.ok.injEq]
          constructor
          · rintro rfl
            refine ⟨⟨hplain, fun x hx => ⟨by simp, fun heq => hother x hx (Option.some.inj heq)⟩⟩, ?_⟩
            simp [Seen.of]
          · rintro ⟨-, rfl⟩
            simp [Seen.of]

/-! ## Walks -/

/-- No two of the matches clash. -/
def Free (ms : List Match) : Prop := ms.Pairwise fun m n => ¬ Clash m n

theorem Free.perm {ms ms' : List Match} (h : Free ms) (hperm : ms.Perm ms') : Free ms' := by
  have hsymm : ∀ {m n : Match}, ¬ Clash m n → ¬ Clash n m := fun hmn hnm => hmn hnm.symm
  exact (hperm.pairwise_iff hsymm).mp h

theorem Free.of_append {ms ms' : List Match} (h : Free (ms ++ ms')) : Free ms' :=
  (List.pairwise_append.mp h).2.1

/-- A binding is taken when it fits by itself and its match clashes with none before it. -/
def Binds (bind : Seen → String → Document → Except ConfigError (Option CompiledRoute × Seen))
    (claim : Document → Option Match) (fits : Document → Prop) : Prop :=
  ∀ ms path d s, Free ms → ((∃ r, bind (Seen.of ms) path d = .ok (r, s)) ↔
    fits d ∧ Free ((claim d).toList ++ ms) ∧ s = Seen.of ((claim d).toList ++ ms))

/-- The matches of the documents. -/
def claims (claim : Document → Option Match) (ds : Documents) : List Match :=
  ds.flatMap fun d => (claim d.2).toList

variable {bind : Seen → String → Document → Except ConfigError (Option CompiledRoute × Seen)}
  {claim : Document → Option Match} {fits : Document → Prop}

theorem walk_cons_iff {d : String × Document} {s₀ : Seen} :
    (∃ rs, walk bind (d :: ds) s₀ = .ok (rs, s)) ↔
      ∃ s', (∃ r, bind s₀ d.1 d.2 = .ok (r, s')) ∧ ∃ rs, walk bind ds s' = .ok (rs, s) := by
  constructor
  · rintro ⟨rs, h⟩
    obtain ⟨first, rest, hfirst, hrest, heq⟩ := walk_cons_ok h
    cases heq
    exact ⟨first.2, ⟨first.1, hfirst⟩, rest.1, hrest⟩
  · rintro ⟨s', ⟨r, hr⟩, rs, hrs⟩
    refine ⟨r.toList ++ rs, ?_⟩
    simp only [walk, bind_eq_ok]
    exact ⟨_, hr, _, hrs, rfl⟩

theorem claims_cons_append {d : String × Document} {ms : List Match} :
    (claims claim (d :: ds)).reverse ++ ms =
      (claims claim ds).reverse ++ ((claim d.2).toList ++ ms) := by
  have hone : (claim d.2).toList.reverse = (claim d.2).toList := by
    cases claim d.2 <;> rfl
  rw [claims, List.flatMap_cons, List.reverse_append, hone, List.append_assoc]
  rfl

/-- What a walk takes, and what it has seen at its end. -/
theorem Binds.walk_iff (hbind : Binds bind claim fits) {ms : List Match} (hms : Free ms) :
    (∃ rs, walk bind ds (Seen.of ms) = .ok (rs, s)) ↔
      (∀ d ∈ ds, fits d.2) ∧ Free ((claims claim ds).reverse ++ ms) ∧
        s = Seen.of ((claims claim ds).reverse ++ ms) := by
  induction ds generalizing ms with
  | nil => simp [walk, claims, hms, eq_comm]
  | cons d ds ih =>
      rw [walk_cons_iff, claims_cons_append]
      constructor
      · rintro ⟨s', hfirst, hrest⟩
        obtain ⟨hfits, hfree, rfl⟩ := (hbind ms d.1 d.2 s' hms).mp hfirst
        obtain ⟨hall, hrest⟩ := (ih hfree).mp hrest
        refine ⟨fun e he => ?_, hrest⟩
        rcases List.mem_cons.mp he with rfl | he
        · exact hfits
        · exact hall e he
      · rintro ⟨hall, hrest⟩
        have hfree := hrest.1.of_append
        refine ⟨_, (hbind ms d.1 d.2 _ hms).mpr ⟨hall d List.mem_cons_self, hfree, rfl⟩, ?_⟩
        exact (ih hfree).mpr ⟨fun e he => hall e (List.mem_cons_of_mem _ he), hrest⟩

/-! ## The three kinds of bindings -/

def routeClaim : Document → Option Match
  | .routeBinding d => some ((d.method, d.path), d.uriRegex)
  | _ => none

def endpointClaim : Document → Option Match
  | .mcpEndpointBinding d => some ((d.method, d.path), none)
  | _ => none

def mediationClaim : Document → Option Match
  | .mcpMediationBinding d => some ((d.method, d.path), none)
  | _ => none

/-- What a route binding must satisfy by itself, with the references resolved. -/
def RouteFits (docs : Documents) : Document → Prop
  | .routeBinding d => (∃ found, checkRoute docs "" d = .ok found) ∧ checkNamespace "" d = .ok ()
  | _ => True

def EndpointFits (docs : Documents) : Document → Prop
  | .mcpEndpointBinding d =>
    (∃ source, sourceOf docs d.sourceRef = some source ∧
      Text.startsWith "service://" source.endpointRef = true) ∧ checkTrusted "" d = .ok ()
  | _ => True

theorem checkRoute_path {d : RouteBinding} {found : Capability × SourceRuntimeProfile} :
    checkRoute docs path d = .ok found ↔ checkRoute docs "" d = .ok found := by
  unfold checkRoute
  cases capabilityOf docs d.capabilityRef with
  | none => simp
  | some capability =>
      cases sourceOf docs d.sourceRef with
      | none => simp
      | some source => simp only [guard_eq_ok]

theorem checkNamespace_path {d : RouteBinding} :
    checkNamespace path d = .ok () ↔ checkNamespace "" d = .ok () := by
  unfold checkNamespace
  cases d.uriRegex with
  | none => simp only [guard_eq_ok]
  | some x => simp only [guard_eq_ok]

theorem checkTrusted_path {d : McpEndpointBinding} :
    checkTrusted path d = .ok () ↔ checkTrusted "" d = .ok () := by
  simp only [checkTrusted, guard_eq_ok]

/-- A match that is added to free ones. -/
theorem add_iff {ms : List Match} (hms : Free ms) {key : Method × String} {x : Option String} :
    (Seen.of ms).add path key x = .ok s ↔
      Free ((key, x) :: ms) ∧ s = Seen.of ((key, x) :: ms) := by
  rw [Seen.add_eq_ok, Free, List.pairwise_cons]
  have hsymm : (∀ m ∈ ms, ¬ Clash m (key, x)) ↔ ∀ m ∈ ms, ¬ Clash (key, x) m :=
    forall₂_congr fun m _ => not_congr ⟨Clash.symm, Clash.symm⟩
  rw [hsymm]
  exact and_congr_left' ⟨fun h => ⟨h, hms⟩, fun h => h.1⟩

/-- A document without a match passes. -/
theorem binds_other {ms : List Match} (hms : Free ms) :
    (∃ r : Option CompiledRoute,
        (Except.ok (none, Seen.of ms) : Except ConfigError (Option CompiledRoute × Seen)) =
          .ok (r, s)) ↔
      True ∧ Free ((none : Option Match).toList ++ ms) ∧
        s = Seen.of ((none : Option Match).toList ++ ms) := by
  simp [hms, eq_comm]

theorem binds_route : Binds (bindRoute docs) routeClaim (RouteFits docs) := by
  intro ms path d s hms
  cases d with
  | routeBinding d =>
      simp only [bindRoute, bind_eq_ok, add_iff hms, RouteFits, routeClaim, Option.toList_some,
        List.singleton_append]
      constructor
      · rintro ⟨r, found, hfound, seen', ⟨hfree, rfl⟩, u, hspace, heq⟩
        cases heq
        exact ⟨⟨⟨found, checkRoute_path.mp hfound⟩, checkNamespace_path.mp hspace⟩, hfree, rfl⟩
      · rintro ⟨⟨⟨found, hfound⟩, hspace⟩, hfree, rfl⟩
        exact ⟨_, found, checkRoute_path.mpr hfound, _, ⟨hfree, rfl⟩, (),
          checkNamespace_path.mpr hspace, rfl⟩
  | _ => exact binds_other hms

theorem binds_endpoint : Binds (bindEndpoint docs) endpointClaim (EndpointFits docs) := by
  intro ms path d s hms
  cases d with
  | mcpEndpointBinding d =>
      constructor
      · rintro ⟨r, h⟩
        obtain ⟨source, seen', hsource, hservice, hadd, htrusted, heq⟩ := bindEndpoint_ok h
        cases heq
        obtain ⟨hfree, rfl⟩ := (add_iff hms).mp hadd
        exact ⟨⟨⟨source, hsource, hservice⟩, checkTrusted_path.mp htrusted⟩, hfree, rfl⟩
      · rintro ⟨⟨⟨source, hsource, hservice⟩, htrusted⟩, hfree, rfl⟩
        have hadd : (Seen.of ms).add path (d.method, d.path) none = .ok _ :=
          (add_iff hms).mpr ⟨hfree, rfl⟩
        refine ⟨some (emitEndpoint d), ?_⟩
        simp only [bindEndpoint, hsource, hservice, Bool.not_true, if_neg Bool.false_ne_true,
          bind_eq_ok, Seen.addPlain]
        exact ⟨_, hadd, (), checkTrusted_path.mpr htrusted, rfl⟩
  | _ => exact binds_other hms

theorem binds_mediation : Binds bindMediation mediationClaim fun _ => True := by
  intro ms path d s hms
  cases d with
  | mcpMediationBinding d =>
      simp only [bindMediation, bind_eq_ok, Seen.addPlain, add_iff hms, mediationClaim,
        Option.toList_some, List.singleton_append, true_and]
      constructor
      · rintro ⟨r, seen', ⟨hfree, rfl⟩, heq⟩
        cases heq
        exact ⟨hfree, rfl⟩
      · rintro ⟨hfree, rfl⟩
        exact ⟨_, _, ⟨hfree, rfl⟩, rfl⟩
  | _ => exact binds_other hms

/-! ## References -/

/-- What `indexed` is keyed by. -/
def Document.key (d : Document) : Kind × String := (d.kind, d.ref)

theorem checkUnique_iff {keys : List (Kind × String)} (hkeys : keys.Nodup) :
    checkUnique keys ds = .ok () ↔ ((ds.map (·.2.key)).reverse ++ keys).Nodup := by
  induction ds generalizing keys with
  | nil => simp [checkUnique, hkeys]
  | cons d ds ih =>
      have hsplit : ((d :: ds).map (·.2.key)).reverse ++ keys =
          (ds.map (·.2.key)).reverse ++ (d.2.key :: keys) := by simp
      rw [hsplit]
      unfold checkUnique
      split
      · next hseen =>
        simp only [reduceCtorEq, false_iff]
        exact fun h => (List.nodup_cons.mp h.of_append_right).1 hseen
      · next hnew => exact ih (List.nodup_cons.mpr ⟨hnew, hkeys⟩)

/-- What an extraction profile must satisfy. -/
def ExtractionFits (docs : Documents) : Document → Prop
  | .extractionRuntimeProfile d => (sourceOf docs d.sourceRef).isSome = true
  | _ => True

theorem checkExtractions_iff :
    checkExtractions docs ds = .ok () ↔ ∀ d ∈ ds, ExtractionFits docs d.2 := by
  induction ds with
  | nil => simp [checkExtractions]
  | cons d ds ih =>
      obtain ⟨path, d⟩ := d
      rw [List.forall_mem_cons, ← ih]
      cases d with
      | extractionRuntimeProfile d =>
          simp only [checkExtractions, guard_eq_ok, ExtractionFits, Option.isNone_iff_eq_none,
            Option.isSome_iff_ne_none]
      | _ => simp [checkExtractions, ExtractionFits]

/-- Documents with keys of their own are found wherever they are. -/
theorem lookup_eq_some (h : (docs.map (·.2.key)).Nodup) {kind : Kind} {ref : String} {d : Document} :
    lookup docs kind ref = some d ↔ d ∈ docs.map (·.2) ∧ d.kind = kind ∧ d.ref = ref := by
  unfold lookup
  rw [Option.map_eq_some_iff]
  constructor
  · rintro ⟨e, he, rfl⟩
    have hkey := List.find?_some he
    rw [Bool.and_eq_true, decide_eq_true_eq, decide_eq_true_eq] at hkey
    exact ⟨List.mem_map_of_mem (List.mem_of_find?_eq_some he), hkey⟩
  · rintro ⟨hmem, hkind, href⟩
    obtain ⟨e, he, rfl⟩ := List.mem_map.mp hmem
    have hsome : (docs.find? fun d => d.2.kind = kind && d.2.ref = ref).isSome = true :=
      List.find?_isSome.mpr ⟨e, he, by simp [hkind, href]⟩
    obtain ⟨e', he'⟩ := Option.isSome_iff_exists.mp hsome
    have hkey := List.find?_some he'
    rw [Bool.and_eq_true, decide_eq_true_eq, decide_eq_true_eq] at hkey
    have hsame : e'.2.key = e.2.key := by
      rw [Document.key, Document.key, hkey.1, hkey.2, hkind, href]
    exact ⟨e', he', by rw [List.inj_on_of_nodup_map h (List.mem_of_find?_eq_some he') he hsame]⟩

theorem lookup_perm (h : (docs.map (·.2.key)).Nodup)
    (hperm : (docs.map (·.2)).Perm (docs'.map (·.2))) : lookup docs = lookup docs' := by
  have h' : (docs'.map (·.2.key)).Nodup := by
    have hkeys := hperm.map Document.key
    rw [List.map_map, List.map_map] at hkeys
    exact hkeys.nodup_iff.mp h
  funext kind ref
  ext d
  rw [lookup_eq_some h, lookup_eq_some h', hperm.mem_iff]

theorem sourceOf_congr (h : lookup docs = lookup docs') : sourceOf docs = sourceOf docs' := by
  funext ref
  rw [sourceOf, sourceOf, h]

theorem capabilityOf_congr (h : lookup docs = lookup docs') :
    capabilityOf docs = capabilityOf docs' := by
  funext ref
  rw [capabilityOf, capabilityOf, h]

theorem extractionOf_congr (h : lookup docs = lookup docs') :
    extractionOf docs = extractionOf docs' := by
  funext ref
  rw [extractionOf, extractionOf, h]

theorem checkRoute_congr (h : lookup docs = lookup docs') : checkRoute docs = checkRoute docs' := by
  funext path d
  unfold checkRoute
  rw [capabilityOf_congr h, sourceOf_congr h, extractionOf_congr h]

/-! ## Acceptable documents -/

/-- What a configuration must satisfy to be compiled, without the order of its files. -/
structure Acceptable (docs : Documents) : Prop where
  unique : (docs.map (·.2.key)).Nodup
  extractions : ∀ d ∈ docs, ExtractionFits docs d.2
  routes : ∀ d ∈ docs, RouteFits docs d.2
  endpoints : ∀ d ∈ docs, EndpointFits docs d.2
  free : Free (claims routeClaim docs ++ claims endpointClaim docs ++ claims mediationClaim docs)
  serializable : ∀ r ∈ docs.filterMap fun d => emitted docs d.2, r.queryContract.serializable = true

/-- The order of the three walks. -/
theorem claims_perm : ((claims mediationClaim docs).reverse ++ ((claims endpointClaim docs).reverse ++
      ((claims routeClaim docs).reverse ++ []))).Perm
    (claims routeClaim docs ++ claims endpointClaim docs ++ claims mediationClaim docs) := by
  have hreverse : (claims mediationClaim docs).reverse ++ ((claims endpointClaim docs).reverse ++
      ((claims routeClaim docs).reverse ++ [])) =
      (claims routeClaim docs ++ claims endpointClaim docs ++ claims mediationClaim docs).reverse := by
    simp only [List.append_nil, List.reverse_append]
  rw [hreverse]
  exact List.reverse_perm _

theorem acceptable_of_compiled (c : Compiled docs a) : Acceptable docs := by
  obtain ⟨hroutes, hfree, hseen⟩ := (binds_route.walk_iff List.Pairwise.nil).mp
    ⟨c.routes.1, c.walkRoutes⟩
  have hwalk := c.walkEndpoints
  rw [hseen] at hwalk
  obtain ⟨hendpoints, hfree, hseen⟩ := (binds_endpoint.walk_iff hfree).mp ⟨c.endpoints.1, hwalk⟩
  have hwalk := c.walkMediations
  rw [hseen] at hwalk
  obtain ⟨-, hfree, -⟩ := (binds_mediation.walk_iff hfree).mp ⟨c.mediations.1, hwalk⟩
  refine ⟨?_, checkExtractions_iff.mp c.extractions, hroutes, hendpoints, hfree.perm claims_perm, ?_⟩
  · have hunique := (checkUnique_iff List.nodup_nil).mp c.unique
    rw [List.append_nil, List.nodup_reverse] at hunique
    exact hunique
  · exact fun r hr => c.serializable r (c.perm_emitted.mem_iff.mpr hr)

theorem compiled_of_acceptable (h : Acceptable docs) : ∃ a, compileDocuments docs = .ok a := by
  have hfree := h.free.perm claims_perm.symm
  have hunique : checkUnique [] docs = .ok () := by
    refine (checkUnique_iff List.nodup_nil).mpr ?_
    rw [List.append_nil, List.nodup_reverse]
    exact h.unique
  obtain ⟨routes, hroutes⟩ := (binds_route.walk_iff List.Pairwise.nil).mpr
    ⟨h.routes, hfree.of_append.of_append, rfl⟩
  obtain ⟨endpoints, hendpoints⟩ := (binds_endpoint.walk_iff hfree.of_append.of_append).mpr
    ⟨h.endpoints, hfree.of_append, rfl⟩
  obtain ⟨mediations, hmediations⟩ := (binds_mediation.walk_iff hfree.of_append).mpr
    ⟨fun _ _ => trivial, hfree, rfl⟩
  have hrouted := walk_routes (f := routeOf docs) bindRoute_route hroutes
  have hended := walk_routes (f := endpointOf) bindEndpoint_route hendpoints
  have hmediated := walk_routes (f := mediationOf) bindMediation_route hmediations
  simp only [] at hrouted hended hmediated
  have hquery : ((routes ++ endpoints ++ mediations).all fun r => r.queryContract.serializable) = true := by
    refine List.all_eq_true.mpr fun r hr => h.serializable r ?_
    rw [hrouted, hended, hmediated] at hr
    exact perm_walks.mem_iff.mp hr
  refine ⟨sealed (byId (routes ++ endpoints ++ mediations)), ?_⟩
  simp only [compileDocuments, bind_eq_ok]
  refine ⟨(), hunique, (), checkExtractions_iff.mpr h.extractions, _, hroutes, _, hendpoints, _,
    hmediations, ?_⟩
  rw [sealRoutes, if_pos hquery]

theorem emitted_congr (h : lookup docs = lookup docs') : emitted docs = emitted docs' := by
  funext d
  cases d with
  | routeBinding d => simp only [emitted, routeOf, capabilityOf_congr h, sourceOf_congr h]
  | _ => rfl

/-- A property of the documents alone. -/
theorem forall_perm {P : Document → Prop} (hperm : (docs.map (·.2)).Perm (docs'.map (·.2)))
    (h : ∀ d ∈ docs, P d.2) : ∀ d ∈ docs', P d.2 := by
  intro d hd
  obtain ⟨e, he, heq⟩ := List.mem_map.mp (hperm.mem_iff.mpr (List.mem_map_of_mem hd))
  exact heq ▸ h e he

theorem perm_claims (hperm : (docs.map (·.2)).Perm (docs'.map (·.2))) :
    (claims claim docs).Perm (claims claim docs') := by
  have hmap : ∀ ds : Documents, claims claim ds = (ds.map (·.2)).flatMap fun d => (claim d).toList := by
    intro ds
    rw [List.flatMap_map, claims]
  rw [hmap, hmap]
  exact hperm.flatMap_right _

theorem perm_emitted (hlookup : lookup docs = lookup docs')
    (hperm : (docs.map (·.2)).Perm (docs'.map (·.2))) :
    (docs.filterMap fun d => emitted docs d.2).Perm
      (docs'.filterMap fun d => emitted docs' d.2) := by
  have hmap : ∀ ds : Documents, (ds.filterMap fun d => emitted docs d.2) =
      (ds.map (·.2)).filterMap (emitted docs) := by
    intro ds
    rw [List.filterMap_map]
    rfl
  rw [← emitted_congr hlookup, hmap, hmap]
  exact hperm.filterMap _

theorem Acceptable.perm (h : Acceptable docs)
    (hperm : (docs.map (·.2)).Perm (docs'.map (·.2))) : Acceptable docs' := by
  have hlookup := lookup_perm h.unique hperm
  have hkeys := hperm.map Document.key
  rw [List.map_map, List.map_map] at hkeys
  refine ⟨hkeys.nodup_iff.mp h.unique, ?_, ?_, ?_, ?_, ?_⟩
  · refine forall_perm hperm fun d hd => ?_
    have hfits := h.extractions d hd
    unfold ExtractionFits at hfits ⊢
    rwa [← sourceOf_congr hlookup]
  · refine forall_perm hperm fun d hd => ?_
    have hfits := h.routes d hd
    unfold RouteFits at hfits ⊢
    rwa [← checkRoute_congr hlookup]
  · refine forall_perm hperm fun d hd => ?_
    have hfits := h.endpoints d hd
    unfold EndpointFits at hfits ⊢
    rwa [← sourceOf_congr hlookup]
  · exact h.free.perm (((perm_claims hperm).append (perm_claims hperm)).append (perm_claims hperm))
  · exact fun r hr => h.serializable r ((perm_emitted hlookup hperm).mem_iff.mpr hr)

/-! ## The order of the routes -/

/-- Routes with ids of their own have one order by id. -/
theorem byId_eq_of_perm {routes routes' : List CompiledRoute} (hids : (routes.map (·.id)).Nodup)
    (hperm : routes.Perm routes') : byId routes = byId routes' := by
  have htrans : ∀ r s t : CompiledRoute, decide (r.id ≤ s.id) = true →
      decide (s.id ≤ t.id) = true → decide (r.id ≤ t.id) = true := by
    intro r s t hrs hst
    exact decide_eq_true (le_trans (of_decide_eq_true hrs) (of_decide_eq_true hst))
  have htotal : ∀ r s : CompiledRoute, (decide (r.id ≤ s.id) || decide (s.id ≤ r.id)) = true := by
    intro r s
    rw [Bool.or_eq_true, decide_eq_true_eq, decide_eq_true_eq]
    exact le_total r.id s.id
  have hleft := List.mergeSort_perm routes fun r s => decide (r.id ≤ s.id)
  have hright := List.mergeSort_perm routes' fun r s => decide (r.id ≤ s.id)
  refine List.Perm.eq_of_pairwise (fun r s hr hs hrs hsr => ?_)
    (List.pairwise_mergeSort htrans htotal routes) (List.pairwise_mergeSort htrans htotal routes')
    (hleft.trans (hperm.trans hright.symm))
  have hmem := hperm.mem_iff.mpr (hright.mem_iff.mp hs)
  exact List.inj_on_of_nodup_map hids (hleft.mem_iff.mp hr) hmem
    (le_antisymm (of_decide_eq_true hrs) (of_decide_eq_true hsr))

/-! ## The compiler -/

theorem loadDocuments_of_valid (h : ∀ d ∈ docs, d.2.valid = true) :
    loadDocuments (docs.map fun d => (d.1, Loaded.document d.2)) = .ok docs := by
  induction docs with
  | nil => rfl
  | cons d docs ih =>
      rw [List.map_cons, loadDocuments, if_pos (h d List.mem_cons_self),
        ih fun e he => h e (List.mem_cons_of_mem _ he)]
      rfl

/-- The document of a file that is one. -/
def payload? : Loaded → Option Document
  | .document d => some d
  | _ => none

/-- The files of a configuration that was loaded, in another layout. -/
theorem loadDocuments_perm (hperm : (files.map (·.2)).Perm (files'.map (·.2)))
    (h : loadDocuments files = .ok docs) :
    ∃ docs', loadDocuments files' = .ok docs' ∧ (docs.map (·.2)).Perm (docs'.map (·.2)) := by
  obtain ⟨rfl, hvalid⟩ := loadDocuments_ok h
  have hdocument : ∀ f ∈ files', ∃ d, f.2 = Loaded.document d ∧ d.valid = true := by
    intro f hf
    have hmem := hperm.mem_iff.mpr (List.mem_map_of_mem hf)
    simp only [List.map_map, List.mem_map, Function.comp_apply] at hmem
    obtain ⟨d, hd, heq⟩ := hmem
    exact ⟨d.2, heq.symm, hvalid d hd⟩
  obtain ⟨docs', rfl⟩ : ∃ docs' : Documents, files' = docs'.map fun d => (d.1, Loaded.document d.2) := by
    clear hperm h
    induction files' with
    | nil => exact ⟨[], rfl⟩
    | cons f files' ih =>
        obtain ⟨path, loaded⟩ := f
        obtain ⟨d, hd, -⟩ := hdocument _ List.mem_cons_self
        obtain ⟨docs', rfl⟩ := ih fun f hf => hdocument f (List.mem_cons_of_mem _ hf)
        obtain rfl : loaded = .document d := hd
        exact ⟨(path, d) :: docs', rfl⟩
  refine ⟨docs', loadDocuments_of_valid fun d hd => ?_, ?_⟩
  · obtain ⟨e, he, hvalid⟩ := hdocument _ (List.mem_map_of_mem hd)
    obtain rfl := Loaded.document.inj he
    exact hvalid
  · rw [List.map_map, List.map_map] at hperm
    have hpayload := hperm.filterMap payload?
    simpa [List.filterMap_map, Function.comp_def, List.filterMap_eq_map, payload?] using hpayload

/-- One direction: what is compiled in one layout is compiled to the same in every other. -/
theorem compileConfig_perm (hperm : (files.map (·.2)).Perm (files'.map (·.2)))
    (hids : (bindingIds files).Nodup) (h : compileConfig files = .ok a) :
    compileConfig files' = .ok a := by
  obtain ⟨docs, hload, hcompile⟩ := compileConfig_ok h
  obtain ⟨c⟩ := compileDocuments_ok hcompile
  obtain ⟨docs', hload', hdocs⟩ := loadDocuments_perm hperm hload
  have hacceptable := acceptable_of_compiled c
  obtain ⟨a', hcompile'⟩ := compiled_of_acceptable (hacceptable.perm hdocs)
  obtain ⟨c'⟩ := compileDocuments_ok hcompile'
  have hroutes : a.routes.Perm a'.routes :=
    c.perm_emitted.trans ((perm_emitted (lookup_perm hacceptable.unique hdocs) hdocs).trans
      c'.perm_emitted.symm)
  have hnodup := (perm_bindingIds h).nodup_iff.mpr hids
  have hsame : byId (c.routes.1 ++ c.endpoints.1 ++ c.mediations.1) =
      byId (c'.routes.1 ++ c'.endpoints.1 ++ c'.mediations.1) := by
    refine byId_eq_of_perm (((c.perm.map _).nodup_iff).mp hnodup) ?_
    exact c.perm.symm.trans (hroutes.trans c'.perm)
  have heq : a' = a := by
    rw [c.sealed, c'.sealed, hsame]
  simp only [compileConfig, bind_eq_ok]
  exact ⟨docs', hload', heq ▸ hcompile'⟩

/-- Two layouts of the same documents are refused both or give one artifact, if the
documents that give routes have ids of their own. -/
theorem compileConfig_layout (hperm : (files.map (·.2)).Perm (files'.map (·.2)))
    (hids : (bindingIds files).Nodup) (a : Artifact) :
    compileConfig files = .ok a ↔ compileConfig files' = .ok a := by
  have hids' : (bindingIds files').Nodup := by
    have hbinding : ∀ fs : List (String × Loaded), bindingIds fs =
        (fs.map (·.2)).filterMap fun l => (payload? l).bind bindingId := by
      intro fs
      rw [bindingIds, List.filterMap_map]
      refine List.filterMap_congr fun f _ => ?_
      obtain ⟨path, loaded⟩ := f
      cases loaded <;> rfl
    rw [hbinding] at hids ⊢
    exact (hperm.filterMap _).nodup_iff.mp hids
  exact ⟨compileConfig_perm hperm hids, compileConfig_perm hperm.symm hids'⟩

/-- The files of `twoSelectors`, visited the other way round. -/
def movedSelectors : List (String × Loaded) :=
  (twoSelectors "^/parks/oak$" "^/parks/elm$").reverse.map fun f => ("moved/" ++ f.1, f.2)

theorem compileConfig_movedSelectors :
    compileConfig movedSelectors = .ok (twoRoutes "^/parks/oak$" "^/parks/elm$") := by
  have hperm : ((twoSelectors "^/parks/oak$" "^/parks/elm$").map (·.2)).Perm
      (movedSelectors.map (·.2)) := by
    rw [movedSelectors, List.map_map]
    exact ((List.reverse_perm _).map _).symm
  exact (compileConfig_layout hperm (by decide) _).mp rfl

end OufGateway.CompileConfig
