import Mathlib
import OufGateway.Lib.Regex
import OufGateway.Proofs.Compiler

/-!
# Which routes share a request

Two routes with the same method and the same uri are told apart by their
selectors only, and the compiler compares those as texts. What its `matches`
and `selected_matches` do guarantee is `Apart`: of such a pair both have an
expression, and the expressions differ. Every walk keeps it, because the routes
emitted so far are all booked in the matches seen (`Booked`).

So a route without an expression never shares its namespace, and an overlap is
always one of two different expressions that match a common URI. Whether there
is one is a question about the expressions, which the compiler does not ask:
the routes of an accepted configuration are disjoint exactly when the
expressions of its route bindings are. `find` is the matcher of the data plane.
-/

namespace OufGateway.CompileConfig

open Lib

variable {docs : Documents} {files : List (String × Loaded)} {seen : Seen} {path : String}

/-! ## Selection -/

/-- The URIs of a path: its namespace, if it is a wildcard. -/
def onPath (path uri : String) : Bool :=
  if isWildcard path then Text.startsWith (namespaceOf path) uri else uri = path

/-- Whether the route selects the URI. -/
def CompiledRoute.selects (find : String → String → Bool) (r : CompiledRoute) (uri : String) :
    Bool :=
  match r.vars with
  | none => onPath r.uri uri
  | some x => find x uri

/-- No URI is selected by both, if they share the method and the uri. -/
def Disjoint (find : String → String → Bool) (r s : CompiledRoute) : Prop :=
  r.methods = s.methods → r.uri = s.uri → ∀ uri,
    ¬ (r.selects find uri = true ∧ s.selects find uri = true)

theorem Disjoint.symm {find : String → String → Bool} {r s : CompiledRoute}
    (h : Disjoint find r s) : Disjoint find s r :=
  fun hmethods huri uri hboth => h hmethods.symm huri.symm uri hboth.symm

/-! ## What the compiler compares -/

/-- Two routes that share the method and the uri both have an expression, and not
the same. -/
def Apart (r s : CompiledRoute) : Prop :=
  r.methods = s.methods → r.uri = s.uri → ∃ x y, r.vars = some x ∧ s.vars = some y ∧ x ≠ y

theorem Apart.symm {r s : CompiledRoute} (h : Apart r s) : Apart s r := by
  intro hmethods huri
  obtain ⟨x, y, hx, hy, hne⟩ := h hmethods.symm huri.symm
  exact ⟨y, x, hy, hx, hne.symm⟩

/-- A route with a match, as the compiler books it. -/
structure Entry (r : CompiledRoute) (key : Method × String) (uriRegex : Option String) : Prop where
  methods : r.methods = [key.1]
  uri : r.uri = key.2
  vars : r.vars = uriRegex

/-- The route's match is among those seen. -/
def Held (seen : Seen) (r : CompiledRoute) : Prop :=
  ∃ key, Entry r key r.vars ∧ (r.vars = none → key ∈ seen.plain) ∧
    ∀ x, r.vars = some x → (key.1, key.2, x) ∈ seen.selected

structure Booked (routes : List CompiledRoute) (seen : Seen) : Prop where
  apart : routes.Pairwise Apart
  held : ∀ r ∈ routes, Held seen r

theorem Seen.hasSelected_of_mem {key : Method × String} {x : String}
    (h : (key.1, key.2, x) ∈ seen.selected) : seen.hasSelected key = true :=
  List.any_eq_true.mpr ⟨_, h, decide_eq_true rfl⟩

/-- A match that is accepted is of no route booked before, unless both have an
expression. -/
theorem Seen.add_ok {key : Method × String} {uriRegex : Option String} {seen' : Seen}
    (h : seen.add path key uriRegex = .ok seen') :
    key ∉ seen.plain ∧ (uriRegex = none → seen.hasSelected key = false) ∧
      (∀ x, uriRegex = some x → (key.1, key.2, x) ∉ seen.selected) ∧
      (uriRegex = none → key ∈ seen'.plain) ∧
      (∀ x, uriRegex = some x → (key.1, key.2, x) ∈ seen'.selected) ∧
      (∀ k ∈ seen.plain, k ∈ seen'.plain) ∧ ∀ k ∈ seen.selected, k ∈ seen'.selected := by
  unfold Seen.add at h
  split at h
  · cases h
  · next hplain =>
    cases uriRegex with
    | none =>
        simp only [] at h
        split at h
        · cases h
        · next hselected =>
          obtain rfl := Except.ok.inj h
          exact ⟨hplain, fun _ => by simpa using hselected, fun _ hx => (by cases hx),
            fun _ => List.mem_cons_self, fun _ hx => (by cases hx),
            fun _ hk => List.mem_cons_of_mem _ hk, fun _ hk => hk⟩
    | some y =>
        simp only [] at h
        split at h
        · cases h
        · next hselected =>
          obtain rfl := Except.ok.inj h
          refine ⟨hplain, fun hy => (by cases hy), ?_, fun hy => (by cases hy), ?_,
            fun _ hk => hk, fun _ hk => List.mem_cons_of_mem _ hk⟩
          · intro x hx
            obtain rfl := Option.some.inj hx
            exact hselected
          · intro x hx
            obtain rfl := Option.some.inj hx
            exact List.mem_cons_self

theorem Held.mono {seen seen' : Seen} {r : CompiledRoute} (h : Held seen r)
    (hplain : ∀ k ∈ seen.plain, k ∈ seen'.plain)
    (hselected : ∀ k ∈ seen.selected, k ∈ seen'.selected) : Held seen' r := by
  obtain ⟨key, hentry, hnone, hsome⟩ := h
  exact ⟨key, hentry, fun hvars => hplain _ (hnone hvars), fun x hx => hselected _ (hsome x hx)⟩

/-- The step of every walk: a route with an accepted match is apart from those booked. -/
theorem Booked.add {routes : List CompiledRoute} {r : CompiledRoute} {key : Method × String}
    {uriRegex : Option String} {seen' : Seen} (hbooked : Booked routes seen)
    (hentry : Entry r key uriRegex) (hadd : seen.add path key uriRegex = .ok seen') :
    Booked (routes ++ [r]) seen' := by
  obtain ⟨hplain, hnone, hsome, hnone', hsome', hmono, hmono'⟩ := Seen.add_ok hadd
  refine ⟨List.pairwise_append.mpr ⟨hbooked.apart, List.pairwise_singleton _ _, ?_⟩, ?_⟩
  · intro old hold new hnew hmethods huri
    obtain rfl := List.mem_singleton.mp hnew
    obtain ⟨key', hentry', hheld, hheld'⟩ := hbooked.held old hold
    have hkey : key' = key := by
      have hmethod : [key'.1] = [key.1] := by
        rw [← hentry'.methods, ← hentry.methods, hmethods]
      have huri : key'.2 = key.2 := by
        rw [← hentry'.uri, ← hentry.uri, huri]
      exact Prod.ext (List.cons.inj hmethod).1 huri
    subst hkey
    cases hold : old.vars with
    | none => exact absurd (hheld hold) hplain
    | some x =>
        have hx := hheld' x hold
        cases hnew : uriRegex with
        | none =>
            have := hnone hnew
            rw [Seen.hasSelected_of_mem hx] at this
            cases this
        | some y =>
            refine ⟨x, y, rfl, by rw [hentry.vars, hnew], fun hxy => ?_⟩
            exact hsome y hnew (hxy ▸ hx)
  · intro s hs
    rcases List.mem_append.mp hs with hs | hs
    · exact (hbooked.held s hs).mono hmono hmono'
    · obtain rfl := List.mem_singleton.mp hs
      have hvars := hentry.vars
      refine ⟨key, ⟨hentry.methods, hentry.uri, rfl⟩, fun h => hnone' (hvars ▸ h), fun x hx => ?_⟩
      exact hsome' x (hvars ▸ hx)

/-! ## The walks keep it -/

theorem booked_nil : Booked [] {} := ⟨List.Pairwise.nil, fun _ h => absurd h List.not_mem_nil⟩

/-- The expressions the schema admits are not empty. -/
theorem uriRegex_filter {d : RouteBinding} (h : d.valid = true) :
    d.uriRegex.filter (· ≠ "") = d.uriRegex := by
  cases hx : d.uriRegex with
  | none => rfl
  | some x =>
      have hne : x ≠ "" := by
        rintro rfl
        simp [RouteBinding.valid, hx, Text.startsWith] at h
      rw [Option.filter_some, if_pos (decide_eq_true hne)]

theorem bindRoute_booked {d : Document} {first : Option CompiledRoute × Seen}
    {acc : List CompiledRoute} (hvalid : d.valid = true)
    (h : bindRoute docs seen path d = .ok first) (hacc : Booked acc seen) :
    Booked (acc ++ first.1.toList) first.2 := by
  cases d with
  | routeBinding d =>
      obtain ⟨found, seen', -, hadd, -, rfl⟩ := bindRoute_ok h
      exact hacc.add ⟨rfl, rfl, uriRegex_filter hvalid⟩ hadd
  | _ =>
      obtain rfl := Except.ok.inj h
      simpa using hacc

theorem bindEndpoint_booked {d : Document} {first : Option CompiledRoute × Seen}
    {acc : List CompiledRoute} (h : bindEndpoint docs seen path d = .ok first)
    (hacc : Booked acc seen) : Booked (acc ++ first.1.toList) first.2 := by
  cases d with
  | mcpEndpointBinding d =>
      obtain ⟨-, seen', -, -, hadd, -, rfl⟩ := bindEndpoint_ok h
      exact hacc.add ⟨rfl, rfl, rfl⟩ hadd
  | _ =>
      obtain rfl := Except.ok.inj h
      simpa using hacc

theorem bindMediation_booked {d : Document} {first : Option CompiledRoute × Seen}
    {acc : List CompiledRoute} (h : bindMediation seen path d = .ok first)
    (hacc : Booked acc seen) : Booked (acc ++ first.1.toList) first.2 := by
  cases d with
  | mcpMediationBinding d =>
      obtain ⟨seen', hadd, rfl⟩ := bindMediation_ok h
      exact hacc.add ⟨rfl, rfl, rfl⟩ hadd
  | _ =>
      obtain rfl := Except.ok.inj h
      simpa using hacc

namespace Compiled

variable {a : Artifact} (c : Compiled docs a)
include c

theorem apart (hvalid : ∀ d ∈ docs, d.2.valid = true) :
    (c.routes.1 ++ c.endpoints.1 ++ c.mediations.1).Pairwise Apart := by
  have hroutes := walk_keeps (fun hd h hacc => bindRoute_booked (hvalid _ hd) h hacc)
    c.walkRoutes booked_nil
  have hendpoints := walk_keeps (fun _ h hacc => bindEndpoint_booked h hacc)
    c.walkEndpoints hroutes
  exact (walk_keeps (fun _ h hacc => bindMediation_booked h hacc) c.walkMediations hendpoints).apart

end Compiled

/-! ## Disjoint routes -/

section Disjoint

variable {find : String → String → Bool}

theorem Apart.disjoint {r s : CompiledRoute} (h : Apart r s) (hs : s.vars = none) :
    Disjoint find r s := by
  intro hmethods huri
  obtain ⟨x, y, -, hy, -⟩ := h hmethods huri
  rw [hs] at hy
  cases hy

/-- A route without an expression shares its match with no other, so only the rest counts. -/
theorem pairwise_disjoint_append {routes others : List CompiledRoute}
    (hothers : ∀ r ∈ others, r.vars = none) (h : (routes ++ others).Pairwise Apart) :
    (routes ++ others).Pairwise (Disjoint find) ↔ routes.Pairwise (Disjoint find) := by
  refine ⟨fun hall => (List.pairwise_append.mp hall).1, fun hroutes => ?_⟩
  obtain ⟨-, hothers', hbetween⟩ := List.pairwise_append.mp h
  refine List.pairwise_append.mpr ⟨hroutes, ?_, fun r hr s hs => ?_⟩
  · exact hothers'.imp_of_mem fun _ hs hapart => hapart.disjoint (hothers _ hs)
  · exact (hbetween r hr s hs).disjoint (hothers s hs)

theorem selects_of_vars {r : CompiledRoute} {x : String} (h : r.vars = some x) (uri : String) :
    r.selects find uri = find x uri := by
  unfold CompiledRoute.selects
  rw [h]

/-- No two route bindings with the same method and path have different expressions
that match a common URI. -/
def SelectorsDisjoint (find : String → String → Bool) (files : List (String × Loaded)) : Prop :=
  files.Pairwise fun f g => ∀ b c, f.2 = .document (.routeBinding b) →
    g.2 = .document (.routeBinding c) → b.method = c.method → b.path = c.path →
      ∀ x y, b.uriRegex = some x → c.uriRegex = some y → x ≠ y →
        ∀ uri, ¬ (find x uri = true ∧ find y uri = true)

/-- The route of a binding, and what the compiler looks at in it. -/
theorem routeOf_some {d : Document} {r : CompiledRoute} (hvalid : d.valid = true)
    (h : routeOf docs d = some r) :
    ∃ b, d = .routeBinding b ∧ r.methods = [b.method] ∧ r.uri = b.path ∧ r.vars = b.uriRegex := by
  cases d with
  | routeBinding b =>
      simp only [routeOf, Option.bind_eq_some_iff, Option.map_eq_some_iff] at h
      obtain ⟨capability, -, source, -, rfl⟩ := h
      exact ⟨b, rfl, rfl, rfl, uriRegex_filter hvalid⟩
  | _ => cases h

/-- Of two documents: their routes are disjoint as soon as their expressions are. -/
theorem disjoint_of_selectors {d e : Document} (hd : d.valid = true) (he : e.valid = true)
    {r s : CompiledRoute} (hr : routeOf docs d = some r) (hs : routeOf docs e = some s)
    (hapart : Apart r s)
    (h : ∀ b c, d = .routeBinding b → e = .routeBinding c → b.method = c.method → b.path = c.path →
      ∀ x y, b.uriRegex = some x → c.uriRegex = some y → x ≠ y →
        ∀ uri, ¬ (find x uri = true ∧ find y uri = true)) :
    Disjoint find r s := by
  obtain ⟨b, hb, hmethod, hpath, hvars⟩ := routeOf_some hd hr
  obtain ⟨c, hc, hmethod', hpath', hvars'⟩ := routeOf_some he hs
  intro hmethods huri uri
  obtain ⟨x, y, hx, hy, hne⟩ := hapart hmethods huri
  rw [selects_of_vars hx, selects_of_vars hy]
  have hm : [b.method] = [c.method] := by rw [← hmethod, ← hmethod', hmethods]
  exact h b c hb hc (List.cons.inj hm).1 (by rw [← hpath, ← hpath', huri]) x y (hvars ▸ hx)
    (hvars' ▸ hy) hne uri

end Disjoint

/-! ## Two selectors of one namespace -/

def parks : SourceRuntimeProfile := ⟨⟨"parks", "1.0.0"⟩, "service://parks/api", none⟩

def readParks : Capability :=
  ⟨⟨"parks.read", "1.0.0"⟩, "parks", .read, "parks.read", false, none⟩

def parkRoute (id expression : String) : RouteBinding where
  metadata := ⟨id, "1.0.0"⟩
  exposure := .toPublic
  capabilityRef := "parks.read@1.0.0"
  sourceRef := "parks@1.0.0"
  extractionProfileRef := none
  method := .get
  path := "/parks/*"
  uriRegex := some expression
  query := none
  backendBinding := ⟨"parks", 8080, "/parks/*"⟩
  identity := .oidc
  allowedServiceIdentities := none
  allowedActorTypes := none
  maxRequestBytes := 1024
  timeoutSeconds := 5

def twoSelectors (x y : String) : List (String × Loaded) :=
  [("parks.yaml", .document (.sourceRuntimeProfile parks)),
    ("read.yaml", .document (.capability readParks)),
    ("route-1.yaml", .document (.routeBinding (parkRoute "park-1" x))),
    ("route-2.yaml", .document (.routeBinding (parkRoute "park-2" y)))]

/-- What `twoSelectors` compiles to, when it does. -/
def twoRoutes (x y : String) : Artifact :=
  sealed (byId [emitRoute (parkRoute "park-1" x) readParks parks,
    emitRoute (parkRoute "park-2" y) readParks parks])

theorem selectorsDisjoint_two {find : String → String → Bool} {x y : String}
    (h : ∀ uri, ¬ (find x uri = true ∧ find y uri = true)) :
    SelectorsDisjoint find (twoSelectors x y) := by
  refine .cons (fun _ _ b c hb => by cases hb) (.cons (fun _ _ b c hb => by cases hb) ?_)
  refine List.pairwise_pair.mpr fun b c hb hc _ _ x' y' hx hy _ => ?_
  cases hb
  cases hc
  obtain rfl := Option.some.inj hx
  obtain rfl := Option.some.inj hy
  exact h

end OufGateway.CompileConfig
