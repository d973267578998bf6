import OufGateway.Proofs.Mediated

/-!
# Layers over an installation

The semantic proposals, the semantic reads and the review are each added to the routes
that an installation has, by a materializer that looks at identifiers and URIs only. That
is enough: a layer changes no route that is there and takes no request from it, a request
for an added route is for that route alone, and two layers give the same routes in either
order. What carries this is that no layer adds a route under the URI of the template, so
the template is the same for each of them.
-/

namespace OufGateway.Mediation

open OufGateway.Lib
open CompileConfig (Method)
open MaterializeM2M (MaterializationError ensure ensure_ok)
open Projection (Installation Projected)

section Layers

variable {runtime : Projected} {routes mid out added : List Route} {template r s : Route} {message : String}
  {method : Method} {uri : String}

/-! ## Requests -/

/-- The routes that a request with a method for a URI is for. -/
def answers (routes : List Route) (method : Method) (uri : String) : List Route :=
  routes.filter fun r => decide (r.uri = some uri) && r.methods.contains method

theorem mem_answers : r ∈ answers routes method uri ↔ r ∈ routes ∧ r.uri = some uri ∧ method ∈ r.methods := by
  simp [answers, List.mem_filter]

theorem answers_append : answers (routes ++ added) method uri = answers routes method uri ++ answers added method uri :=
  List.filter_append _ _

/-- Two routes with identifiers of their own and no request in common. -/
structure Beside (s r : Route) : Prop where
  id : s.id ≠ r.id
  requests : ∀ method ∈ s.methods, method ∈ r.methods → s.uri ≠ r.uri

/-- Two routes with identifiers and URIs of their own. -/
structure OwnUri (s r : Route) : Prop where
  id : s.id ≠ r.id
  uri : s.uri ≠ r.uri

theorem OwnUri.beside (h : OwnUri s r) : Beside s r := ⟨h.id, fun _ _ _ => h.uri⟩

theorem OwnUri.symm (h : OwnUri s r) : OwnUri r s := ⟨h.id.symm, h.uri.symm⟩

theorem Beside.symm (h : Beside s r) : Beside r s :=
  ⟨h.id.symm, fun method hr hs huri => h.requests method hs hr huri.symm⟩

/-- Routes that are beside one another and beside what is there. -/
structure Fresh (routes added : List Route) : Prop where
  beside : ∀ s ∈ routes, ∀ r ∈ added, Beside s r
  pairwise : added.Pairwise Beside

theorem Fresh.append {more : List Route} (h : Fresh routes added) (h' : Fresh (routes ++ added) more) :
    Fresh routes (added ++ more) := by
  refine ⟨fun s hs r hr => ?_, List.pairwise_append.mpr ⟨h.pairwise, h'.pairwise, fun s hs r hr => ?_⟩⟩
  · rcases List.mem_append.mp hr with hr | hr
    · exact h.beside s hs r hr
    · exact h'.beside s (List.mem_append_left _ hs) r hr
  · exact h'.beside s (List.mem_append_right _ hs) r hr

theorem Beside.not_both (h : Beside s r) (hs : s ∈ answers routes method uri) (hr : r ∈ answers added method uri) :
    False := by
  obtain ⟨-, hsuri, hsmethod⟩ := mem_answers.mp hs
  obtain ⟨-, hruri, hrmethod⟩ := mem_answers.mp hr
  exact h.requests method hsmethod hrmethod (hsuri.trans hruri.symm)

/-- What was answered before is answered by the same routes. -/
theorem Fresh.answers_kept (h : Fresh routes added) (hs : answers routes method uri ≠ []) :
    answers (routes ++ added) method uri = answers routes method uri := by
  obtain ⟨s, hs⟩ := List.exists_mem_of_ne_nil _ hs
  have hnone : answers added method uri = [] := by
    refine List.eq_nil_iff_forall_not_mem.mpr fun r hr => ?_
    exact (h.beside s (mem_answers.mp hs).1 r (mem_answers.mp hr).1).not_both hs hr
  rw [answers_append, hnone, List.append_nil]

theorem answers_pairwise (h : added.Pairwise Beside) (hr : r ∈ answers added method uri) :
    answers added method uri = [r] := by
  induction added with
  | nil => cases hr
  | cons a added ih =>
      obtain ⟨hhead, htail⟩ := List.pairwise_cons.mp h
      have hsplit : answers (a :: added) method uri = answers [a] method uri ++ answers added method uri :=
        List.filter_append [a] added
      have hmem := hsplit ▸ hr
      rw [hsplit]
      clear hr
      rcases List.mem_append.mp hmem with hr | hr
      · have ha : r = a := List.mem_singleton.mp (mem_answers.mp hr).1
        subst ha
        have hnone : answers added method uri = [] :=
          List.eq_nil_iff_forall_not_mem.mpr fun q hq => (hhead q (mem_answers.mp hq).1).not_both hr hq
        obtain ⟨-, huri, hmethod⟩ := mem_answers.mp hr
        rw [hnone, List.append_nil]
        exact List.filter_cons_of_pos (by simp [huri, hmethod])
      · have hnone : answers [a] method uri = [] := by
          refine List.eq_nil_iff_forall_not_mem.mpr fun q hq => ?_
          have hqa : q = a := List.mem_singleton.mp (mem_answers.mp hq).1
          exact (hhead r (mem_answers.mp hr).1).not_both (hqa ▸ hq) hr
        rw [hnone, List.nil_append, ih htail hr]

/-- A request for an added route is for that route alone. -/
theorem Fresh.answers_added (h : Fresh routes added) (hr : r ∈ answers added method uri) :
    answers (routes ++ added) method uri = [r] := by
  have hnone : answers routes method uri = [] := by
    refine List.eq_nil_iff_forall_not_mem.mpr fun s hs => ?_
    exact (h.beside s (mem_answers.mp hs).1 r (mem_answers.mp hr).1).not_both hs hr
  rw [answers_append, hnone, List.nil_append, answers_pairwise h.pairwise hr]

/-! ## One layer -/

/-- A layer, with what it is given. -/
inductive Layer
  | proposals (keys : Keys)
  | reads (i : Installation) (keys : Keys) (upstream : Upstream) (ids : RouteIds)
  | reviews (keys : Keys)

namespace Layer

def add (runtime : Projected) (routes : List Route) : Layer → Except MaterializationError (List Route)
  | .proposals keys => addSemanticProposals routes runtime keys
  | .reads i keys upstream ids => addSemanticReads routes i keys upstream ids
  | .reviews keys => addReviews routes runtime keys

/-- One layer after the other. -/
def addAll (runtime : Projected) : List Route → List Layer → Except MaterializationError (List Route)
  | routes, [] => .ok routes
  | routes, l :: ls => do
    let routes ← l.add runtime routes
    addAll runtime routes ls

/-- What a layer makes of a template, before it looks at what is there. -/
def Makes (runtime : Projected) (template : Route) (added : List Route) : Layer → Prop
  | .proposals keys =>
    keys.delegation ≠ keys.owner ∧ semanticCapabilities.mapM (semanticRoute runtime keys template) = .ok added
  | .reads i keys upstream ids =>
    keys.delegation ≠ keys.owner ∧ (ids.search ≠ ids.get ∧ ids.search ≠ "" ∧ ids.get ≠ "") ∧
      ((upstream.scheme = "http" ∨ upstream.scheme = "https") ∧ upstream.nodes ≠ []) ∧
        readModes.mapM (semanticReadRoute i keys upstream ids template []) = .ok added
  | .reviews keys =>
    keys.delegation ≠ keys.owner ∧ reviewModes.mapM (reviewRoute runtime keys template) = .ok added

/-- What a layer asks of a route that is there and of one it adds. -/
def Apart (s r : Route) : Layer → Prop
  | .reviews _ => Beside s r
  | _ => OwnUri s r

/-- What a layer asks of the routes that are there. -/
def Ready (routes : List Route) : Layer → Prop
  | .proposals _ => (routes.map (·.id)).Nodup
  | _ => True

end Layer

theorem Layer.Apart.beside {l : Layer} (h : l.Apart s r) : Beside s r := by
  cases l with
  | reviews keys => exact h
  | proposals keys => exact OwnUri.beside h
  | reads i keys upstream ids => exact OwnUri.beside h

/-! ### What the materializers ask -/

/-- The one route under the URI of the template, with its plugins. -/
structure Template (routes : List Route) (template : Route) : Prop where
  only : routes.filter (fun r => r.uri = some executeUri) = [template]
  plugins : template.plugins.openidConnect.isSome ∧ template.plugins.limitCount.isSome ∧
    template.plugins.requestValidation.isSome ∧ template.plugins.serverlessPreFunction.isSome

theorem established_iff : established message routes = .ok template ↔ Template routes template := by
  simp only [established, bind_eq_ok, ensure_ok, only_ok]
  constructor
  · rintro ⟨t, honly, u, hplugins, h⟩
    obtain rfl := Except.ok.inj h
    exact ⟨honly, hplugins⟩
  · intro h
    exact ⟨template, h.only, (), h.plugins, rfl⟩

theorem appendNew_iff : appendNew message routes r = .ok out ↔ (∀ s ∈ routes, OwnUri s r) ∧ out = routes ++ [r] := by
  simp only [appendNew, bind_eq_ok, ensure_ok]
  constructor
  · rintro ⟨u, hclash, h⟩
    refine ⟨fun s hs => ⟨fun hid => ?_, fun huri => ?_⟩, (Except.ok.inj h).symm⟩
    · exact hclash (List.any_eq_true.mpr ⟨s, hs, by simp [hid]⟩)
    · exact hclash (List.any_eq_true.mpr ⟨s, hs, by simp [huri]⟩)
  · rintro ⟨hown, rfl⟩
    refine ⟨(), fun hany => ?_, rfl⟩
    obtain ⟨s, hs, hboth⟩ := List.any_eq_true.mp hany
    simp only [Bool.or_eq_true, decide_eq_true_eq] at hboth
    exact hboth.elim (hown s hs).id (hown s hs).uri

theorem appendReview_iff : appendReview routes r = .ok out ↔ (∀ s ∈ routes, Beside s r) ∧ out = routes ++ [r] := by
  simp only [appendReview, bind_eq_ok, ensure_ok]
  constructor
  · rintro ⟨u, hclash, h⟩
    refine ⟨fun s hs => ⟨fun hid => ?_, fun method hsm hrm huri => ?_⟩, (Except.ok.inj h).symm⟩
    · exact hclash (List.any_eq_true.mpr ⟨s, hs, by simp [hid]⟩)
    · refine hclash (List.any_eq_true.mpr ⟨s, hs, ?_⟩)
      simp only [Bool.or_eq_true, Bool.and_eq_true, decide_eq_true_eq, List.any_eq_true, List.contains_iff_mem]
      exact .inr ⟨huri, method, hsm, hrm⟩
  · rintro ⟨hbeside, rfl⟩
    refine ⟨(), fun hany => ?_, rfl⟩
    obtain ⟨s, hs, hboth⟩ := List.any_eq_true.mp hany
    simp only [Bool.or_eq_true, Bool.and_eq_true, decide_eq_true_eq, List.any_eq_true, List.contains_iff_mem] at hboth
    rcases hboth with hid | ⟨huri, method, hsm, hrm⟩
    · exact (hbeside s hs).id hid
    · exact (hbeside s hs).requests method hsm hrm huri

/-- A layer that appends its routes one by one has made all of them first. -/
theorem layer_iff {α : Type} {append : List Route → Route → Except MaterializationError (List Route)}
    {make : α → Except MaterializationError Route} {apart : Route → Route → Prop}
    (happend : ∀ routes r out, append routes r = .ok out ↔ (∀ s ∈ routes, apart s r) ∧ out = routes ++ [r])
    {as : List α} :
    layer append make routes as = .ok out ↔ ∃ added, as.mapM make = .ok added ∧
      (∀ s ∈ routes, ∀ r ∈ added, apart s r) ∧ added.Pairwise apart ∧ out = routes ++ added := by
  induction as generalizing routes with
  | nil =>
      constructor
      · intro h
        obtain rfl := Except.ok.inj h
        exact ⟨[], rfl, fun _ _ _ hr => absurd hr List.not_mem_nil, .nil, (List.append_nil _).symm⟩
      · rintro ⟨added, hadded, -, -, rfl⟩
        have hnil : [] = added := Except.ok.inj hadded
        rw [← hnil, List.append_nil]
        rfl
  | cons a as ih =>
      simp only [layer, bind_eq_ok, List.mapM_cons, happend, ih]
      constructor
      · rintro ⟨r, hr, mid, ⟨hapart, rfl⟩, added, hadded, hmid, hpairwise, rfl⟩
        refine ⟨r :: added, ⟨r, hr, added, hadded, rfl⟩, fun s hs q hq => ?_, ?_, by
          rw [List.append_assoc, List.singleton_append]⟩
        · rcases List.mem_cons.mp hq with rfl | hq
          · exact hapart s hs
          · exact hmid s (List.mem_append_left _ hs) q hq
        · exact .cons (fun q hq => hmid r (List.mem_append_right _ (List.mem_singleton_self r)) q hq) hpairwise
      · rintro ⟨added, ⟨r, hr, rest, hrest, h⟩, hapart, hpairwise, rfl⟩
        obtain rfl := Except.ok.inj h
        obtain ⟨hhead, htail⟩ := List.pairwise_cons.mp hpairwise
        refine ⟨r, hr, routes ++ [r], ⟨fun s hs => hapart s hs r List.mem_cons_self, rfl⟩, rest, hrest,
          fun s hs q hq => ?_, htail, by rw [List.append_assoc, List.singleton_append]⟩
        rcases List.mem_append.mp hs with hs | hs
        · exact hapart s hs q (List.mem_cons_of_mem _ hq)
        · obtain rfl := List.mem_singleton.mp hs
          exact hhead q hq

theorem layer_new_iff {α : Type} {make : α → Except MaterializationError Route} {as : List α} :
    layer (appendNew message) make routes as = .ok out ↔ ∃ added, as.mapM make = .ok added ∧
      (∀ s ∈ routes, ∀ r ∈ added, OwnUri s r) ∧ added.Pairwise OwnUri ∧ out = routes ++ added :=
  layer_iff fun _ _ _ => appendNew_iff

theorem layer_review_iff {α : Type} {make : α → Except MaterializationError Route} {as : List α} :
    layer appendReview make routes as = .ok out ↔ ∃ added, as.mapM make = .ok added ∧
      (∀ s ∈ routes, ∀ r ∈ added, Beside s r) ∧ added.Pairwise Beside ∧ out = routes ++ added :=
  layer_iff fun _ _ _ => appendReview_iff

section Reads

variable {i : Installation} {keys : Keys} {upstream : Upstream} {ids : RouteIds}

theorem readRoute_iff {m : ReadMode} : semanticReadRoute i keys upstream ids template routes m = .ok r ↔
    semanticReadRoute i keys upstream ids template [] m = .ok r ∧ ∀ s ∈ routes, OwnUri s r := by
  simp only [semanticReadRoute, bind_eq_ok, ensure_ok]
  constructor
  · rintro ⟨u, hclash, f, hf, h⟩
    obtain rfl := Except.ok.inj h
    refine ⟨⟨(), by simp, f, hf, rfl⟩, fun s hs => ⟨fun hid => ?_, fun huri => ?_⟩⟩
    · exact hclash (List.any_eq_true.mpr ⟨s, hs, by simp [hid]⟩)
    · exact hclash (List.any_eq_true.mpr ⟨s, hs, by simp [huri]⟩)
  · rintro ⟨⟨u, -, f, hf, h⟩, hclash⟩
    obtain rfl := Except.ok.inj h
    refine ⟨(), fun hany => ?_, f, hf, rfl⟩
    obtain ⟨s, hs, hboth⟩ := List.any_eq_true.mp hany
    simp only [Bool.or_eq_true, decide_eq_true_eq] at hboth
    exact hboth.elim (hclash s hs).id (hclash s hs).uri

theorem readRoutes_iff {ms : List ReadMode} :
    ms.mapM (semanticReadRoute i keys upstream ids template routes) = .ok added ↔
      ms.mapM (semanticReadRoute i keys upstream ids template []) = .ok added ∧
        ∀ s ∈ routes, ∀ r ∈ added, OwnUri s r := by
  induction ms generalizing added with
  | nil =>
      constructor
      · intro h
        obtain rfl := Except.ok.inj h
        exact ⟨rfl, fun _ _ _ hr => absurd hr List.not_mem_nil⟩
      · exact fun h => h.1
  | cons m ms ih =>
      simp only [List.mapM_cons, bind_eq_ok]
      constructor
      · rintro ⟨r, hr, rest, hrest, h⟩
        obtain rfl := Except.ok.inj h
        obtain ⟨hr, hapart⟩ := readRoute_iff.mp hr
        obtain ⟨hrest, hothers⟩ := ih.mp hrest
        refine ⟨⟨r, hr, rest, hrest, rfl⟩, fun s hs q hq => ?_⟩
        rcases List.mem_cons.mp hq with rfl | hq
        · exact hapart s hs
        · exact hothers s hs q hq
      · rintro ⟨⟨r, hr, rest, hrest, h⟩, hapart⟩
        obtain rfl := Except.ok.inj h
        exact ⟨r, readRoute_iff.mpr ⟨hr, fun s hs => hapart s hs r List.mem_cons_self⟩, rest,
          ih.mpr ⟨hrest, fun s hs q hq => hapart s hs q (List.mem_cons_of_mem _ hq)⟩, rfl⟩

/-- The two reads have the two identifiers, and URIs of their own. -/
theorem reads_pairwise (hids : ids.search ≠ ids.get)
    (h : readModes.mapM (semanticReadRoute i keys upstream ids template []) = .ok added) : added.Pairwise OwnUri := by
  simp only [readModes, List.mapM_cons, List.mapM_nil, semanticReadRoute, bind_eq_ok, ensure_ok] at h
  obtain ⟨search, ⟨-, -, f, -, hsearch⟩, rest, ⟨get, ⟨-, -, f', -, hget⟩, last, hnil, hrest⟩, h⟩ := h
  obtain rfl := Except.ok.inj hnil
  obtain rfl := Except.ok.inj hrest
  obtain rfl := Except.ok.inj h
  obtain rfl := Except.ok.inj hsearch
  obtain rfl := Except.ok.inj hget
  refine List.pairwise_pair.mpr ⟨fun hid => hids (Option.some.inj hid), fun huri => ?_⟩
  exact absurd (Option.some.inj huri) (by decide)

end Reads

/-- A layer is what it makes of the template, behind routes that it is apart from. -/
theorem add_iff {l : Layer} : l.add runtime routes = .ok out ↔ ∃ template added, Template routes template ∧
    l.Makes runtime template added ∧ l.Ready routes ∧ (∀ s ∈ routes, ∀ r ∈ added, l.Apart s r) ∧
      added.Pairwise (fun s r => l.Apart s r) ∧ out = routes ++ added := by
  cases l with
  | proposals keys =>
      simp only [Layer.add, addSemanticProposals, Layer.Makes, bind_eq_ok, ensure_ok, established_iff,
        layer_new_iff]
      constructor
      · rintro ⟨u, hkeys, template, ht, u', hready, added, hmade, hapart, hpairwise, rfl⟩
        exact ⟨template, added, ht, ⟨hkeys, hmade⟩, hready, hapart, hpairwise, rfl⟩
      · rintro ⟨template, added, ht, ⟨hkeys, hmade⟩, hready, hapart, hpairwise, rfl⟩
        exact ⟨(), hkeys, template, ht, (), hready, added, hmade, hapart, hpairwise, rfl⟩
  | reads i keys upstream ids =>
      simp only [Layer.add, addSemanticReads, Layer.Makes, bind_eq_ok, ensure_ok, established_iff]
      constructor
      · rintro ⟨u, hkeys, u', hids, template, ht, u'', hupstream, added, hadded, h⟩
        obtain rfl := Except.ok.inj h
        obtain ⟨hmade, hapart⟩ := readRoutes_iff.mp hadded
        exact ⟨template, added, ht, ⟨hkeys, hids, hupstream, hmade⟩, trivial, hapart,
          reads_pairwise hids.1 hmade, rfl⟩
      · rintro ⟨template, added, ht, ⟨hkeys, hids, hupstream, hmade⟩, -, hapart, -, rfl⟩
        exact ⟨(), hkeys, (), hids, template, ht, (), hupstream, added, readRoutes_iff.mpr ⟨hmade, hapart⟩, rfl⟩
  | reviews keys =>
      simp only [Layer.add, addReviews, Layer.Makes, bind_eq_ok, ensure_ok, established_iff,
        layer_review_iff]
      constructor
      · rintro ⟨u, hkeys, template, ht, added, hmade, hapart, hpairwise, rfl⟩
        exact ⟨template, added, ht, ⟨hkeys, hmade⟩, trivial, hapart, hpairwise, rfl⟩
      · rintro ⟨template, added, ht, ⟨hkeys, hmade⟩, -, hapart, hpairwise, rfl⟩
        exact ⟨(), hkeys, template, ht, added, hmade, hapart, hpairwise, rfl⟩

theorem add_fresh {l : Layer} (h : l.add runtime routes = .ok out) :
    ∃ added, out = routes ++ added ∧ Fresh routes added := by
  obtain ⟨template, added, -, -, -, hapart, hpairwise, rfl⟩ := add_iff.mp h
  exact ⟨added, rfl, fun s hs r hr => (hapart s hs r hr).beside, hpairwise.imp Layer.Apart.beside⟩

theorem addAll_fresh {ls : List Layer} (h : Layer.addAll runtime routes ls = .ok out) :
    ∃ added, out = routes ++ added ∧ Fresh routes added := by
  induction ls generalizing routes with
  | nil =>
      obtain rfl := Except.ok.inj h
      exact ⟨[], (List.append_nil _).symm, fun _ _ _ hr => absurd hr List.not_mem_nil, .nil⟩
  | cons l ls ih =>
      obtain ⟨mid, hmid, h⟩ := bind_eq_ok.mp h
      obtain ⟨added, rfl, hadded⟩ := add_fresh hmid
      obtain ⟨more, rfl, hmore⟩ := ih h
      exact ⟨added ++ more, List.append_assoc _ _ _, hadded.append hmore⟩

def proposalUris : List String := semanticCapabilities.map fun c => executeUri ++ "/semantic/" ++ c.mode

def readUris : List String := readModes.map fun m => executeUri ++ "/semantic/" ++ m.name

def reviewUris : List String := reviewModes.map fun m => fileUri m.mode

/-- The URIs of the routes a layer adds. -/
def Layer.uris : Layer → List String
  | .proposals _ => proposalUris
  | .reads _ _ _ _ => readUris
  | .reviews _ => reviewUris

theorem makes_uri {l : Layer} (h : l.Makes runtime template added) (hr : r ∈ added) :
    ∃ u ∈ l.uris, r.uri = some u := by
  cases l with
  | proposals keys =>
      obtain ⟨c, hc, hmake⟩ := mem_mapM h.2 hr
      simp only [semanticRoute, bind_eq_ok] at hmake
      obtain ⟨b, -, -, -, f, -, hmake⟩ := hmake
      obtain rfl := Except.ok.inj hmake
      exact ⟨_, List.mem_map_of_mem hc, rfl⟩
  | reads i keys upstream ids =>
      obtain ⟨m, hm, hmake⟩ := mem_mapM h.2.2.2 hr
      simp only [semanticReadRoute, bind_eq_ok] at hmake
      obtain ⟨-, -, f, -, hmake⟩ := hmake
      obtain rfl := Except.ok.inj hmake
      exact ⟨_, List.mem_map_of_mem hm, rfl⟩
  | reviews keys =>
      obtain ⟨m, hm, hmake⟩ := mem_mapM h.2 hr
      simp only [reviewRoute, bind_eq_ok] at hmake
      obtain ⟨b, -, -, -, f, -, hmake⟩ := hmake
      obtain rfl := Except.ok.inj hmake
      exact ⟨_, List.mem_map_of_mem hm, rfl⟩

theorem uris_apart : ∀ u ∈ proposalUris ++ readUris ++ reviewUris, u ≠ executeUri := by
  decide

theorem semantic_apart : ∀ u ∈ proposalUris ++ readUris, ∀ v ∈ reviewUris, u ≠ v := by
  decide

theorem makes_not_template {l : Layer} (h : l.Makes runtime template added) : ∀ r ∈ added, r.uri ≠ some executeUri := by
  intro r hr huri
  obtain ⟨u, hu, hr⟩ := makes_uri h hr
  have hmem : u ∈ proposalUris ++ readUris ++ reviewUris := by
    cases l with
    | proposals keys => exact List.mem_append_left _ (List.mem_append_left _ hu)
    | reads i keys upstream ids => exact List.mem_append_left _ (List.mem_append_right _ hu)
    | reviews keys => exact List.mem_append_right _ hu
  exact uris_apart u hmem (Option.some.inj (hr.symm.trans huri))

theorem template_append_iff (hadded : ∀ r ∈ added, r.uri ≠ some executeUri) :
    Template (routes ++ added) template ↔ Template routes template := by
  have hnone : added.filter (fun r => r.uri = some executeUri) = [] :=
    List.filter_eq_nil_iff.mpr fun r hr => by simpa using hadded r hr
  have hfilter : (routes ++ added).filter (fun r => r.uri = some executeUri) =
      routes.filter fun r => r.uri = some executeUri := by
    rw [List.filter_append, hnone, List.append_nil]
  exact ⟨fun h => ⟨hfilter ▸ h.only, h.plugins⟩, fun h => ⟨hfilter.trans h.only, h.plugins⟩⟩

theorem Template.unique {other : Route} (h : Template routes template) (h' : Template routes other) :
    template = other :=
  List.singleton_inj.mp (h.only.symm.trans h'.only)

theorem OwnUri.apart {l : Layer} (h : OwnUri s r) : l.Apart s r := by
  cases l with
  | reviews keys => exact h.beside
  | proposals keys => exact h
  | reads i keys upstream ids => exact h

/-- What one layer has asked of the routes of another is what the other would have asked of its routes. -/
theorem Layer.Apart.swap {a b : Layer} (h : b.Apart r s) (hr : ∃ u ∈ a.uris, r.uri = some u)
    (hs : ∃ u ∈ b.uris, s.uri = some u) : a.Apart s r := by
  cases b with
  | proposals keys => exact (OwnUri.symm h).apart
  | reads i keys upstream ids => exact (OwnUri.symm h).apart
  | reviews keys =>
      obtain ⟨u, hu, hr⟩ := hr
      obtain ⟨v, hv, hs⟩ := hs
      -- the review asks less, but its URIs are not those of the semantic routes
      have happart (hmem : u ∈ proposalUris ++ readUris) : OwnUri s r := by
        refine ⟨(Beside.id h).symm, fun huri => semantic_apart u hmem v hv ?_⟩
        exact Option.some.inj (hr.symm.trans (huri.symm.trans hs))
      cases a with
      | reviews keys' => exact Beside.symm h
      | proposals keys' => exact happart (List.mem_append_left _ hu)
      | reads i keys' upstream ids => exact happart (List.mem_append_right _ hu)

theorem Layer.Ready.append {l : Layer} (h : l.Ready routes) (hfresh : Fresh routes added) :
    l.Ready (routes ++ added) := by
  cases l with
  | proposals keys =>
      show ((routes ++ added).map (·.id)).Nodup
      rw [List.map_append, List.nodup_append]
      refine ⟨h, ?_, fun x hx y hy => ?_⟩
      · exact List.pairwise_map.mpr (hfresh.pairwise.imp Beside.id)
      · obtain ⟨s, hs, rfl⟩ := List.mem_map.mp hx
        obtain ⟨r, hr, rfl⟩ := List.mem_map.mp hy
        exact (hfresh.beside s hs r hr).id
  | reads i keys upstream ids => trivial
  | reviews keys => trivial

theorem Layer.Ready.of_append {l : Layer} (h : l.Ready (routes ++ added)) : l.Ready routes := by
  cases l with
  | proposals keys =>
      have hnodup : ((routes ++ added).map (·.id)).Nodup := h
      rw [List.map_append] at hnodup
      exact hnodup.of_append_left
  | reads i keys upstream ids => trivial
  | reviews keys => trivial

/-- Two layers in the other order. -/
theorem add_swap {a b : Layer} (ha : a.add runtime routes = .ok mid) (hb : b.add runtime mid = .ok out) :
    ∃ mid' out', b.add runtime routes = .ok mid' ∧ a.add runtime mid' = .ok out' ∧ out'.Perm out := by
  obtain ⟨template, as, ht, hmade, hready, hapart, hpairwise, rfl⟩ := add_iff.mp ha
  obtain ⟨template', bs, ht', hmade', hready', hapart', hpairwise', rfl⟩ := add_iff.mp hb
  have hnot := makes_not_template hmade
  have ht' := (template_append_iff hnot).mp ht'
  obtain rfl := ht.unique ht'
  have hfresh : Fresh routes bs :=
    ⟨fun s hs r hr => (hapart' s (List.mem_append_left _ hs) r hr).beside, hpairwise'.imp Layer.Apart.beside⟩
  refine ⟨routes ++ bs, routes ++ bs ++ as, add_iff.mpr ?_, add_iff.mpr ?_, ?_⟩
  · exact ⟨template, bs, ht, hmade', hready'.of_append, fun s hs => hapart' s (List.mem_append_left _ hs), hpairwise',
      rfl⟩
  · refine ⟨template, as, (template_append_iff (makes_not_template hmade')).mpr ht, hmade, hready.append hfresh,
      fun s hs r hr => ?_, hpairwise, rfl⟩
    rcases List.mem_append.mp hs with hs | hs
    · exact hapart s hs r hr
    · exact (hapart' r (List.mem_append_right _ hr) s hs).swap (makes_uri hmade hr) (makes_uri hmade' hs)
  · rw [List.append_assoc, List.append_assoc]
    exact (List.perm_append_comm).append_left routes

/-- A layer adds to routes in another order what it adds to these. -/
theorem add_perm {l : Layer} {routes' : List Route} (hperm : routes.Perm routes') (h : l.add runtime routes = .ok out) :
    ∃ out', l.add runtime routes' = .ok out' ∧ out.Perm out' := by
  obtain ⟨template, added, ht, hmade, hready, hapart, hpairwise, rfl⟩ := add_iff.mp h
  refine ⟨routes' ++ added, add_iff.mpr ⟨template, added, ⟨?_, ht.plugins⟩, hmade, ?_,
    fun s hs => hapart s (hperm.mem_iff.mpr hs), hpairwise, rfl⟩, hperm.append_right added⟩
  · exact List.perm_singleton.mp (ht.only ▸ (hperm.filter _).symm)
  · cases l with
    | proposals keys => exact (hperm.map _).nodup_iff.mp hready
    | reads i keys upstream ids => trivial
    | reviews keys => trivial

theorem addAll_perm {ls : List Layer} {routes' : List Route} (hperm : routes.Perm routes')
    (h : Layer.addAll runtime routes ls = .ok out) :
    ∃ out', Layer.addAll runtime routes' ls = .ok out' ∧ out.Perm out' := by
  induction ls generalizing routes routes' with
  | nil =>
      obtain rfl := Except.ok.inj h
      exact ⟨routes', rfl, hperm⟩
  | cons l ls ih =>
      obtain ⟨mid, hmid, h⟩ := bind_eq_ok.mp h
      obtain ⟨mid', hmid', hmidperm⟩ := add_perm hperm hmid
      obtain ⟨out', hout', houtperm⟩ := ih hmidperm h
      exact ⟨out', bind_eq_ok.mpr ⟨mid', hmid', hout'⟩, houtperm⟩

end Layers

/-! ## A review and the reads -/

section Sample

open Projection (labInstallation)

def semanticReads : Layer :=
  .reads labInstallation reviewKeys ⟨"http", [("ouf-semantic-registry:8080", 1)], 0, ⟨3, 3, 3⟩⟩
    ⟨"mcp-semantic-search", "mcp-semantic-get"⟩

theorem add_both : ∃ out, Layer.addAll reviewRuntime [reviewTemplate] [.reviews reviewKeys, semanticReads] = .ok out :=
  ⟨_, rfl⟩

end Sample

end OufGateway.Mediation
