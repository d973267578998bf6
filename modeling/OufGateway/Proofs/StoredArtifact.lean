import OufGateway.Ref.StoredArtifact
import OufGateway.Proofs.EvidenceIngress
import OufGateway.Proofs.RouteTable

/-!
# Artifacts survive storage if their queries do

All of an artifact but the queries of its routes is strings, small integers and
dictionaries with strings for keys, so it comes back as it was. A query comes
back if it is `Storable`, and where one does not, each of the places that compare
the artifact with what was stored of it sees another: the publication of the
same configuration looks like a collision, and the staged revision like a failed
write.

Two storable artifacts with one hash are equal, or their texts are a collision
of SHA-256.
-/

namespace OufGateway.StoredArtifact

open OufGateway.CompileConfig
open OufGateway.Lib
open OufGateway.Lib.PyJson (Value Fault Layout compact indented write loads points merge isBlank valid_points
  merge_points)
open OufGateway.Lib.PyObject
open Encoding (Points)

variable {F : Type} {numbers : Numbers F} {limit : Nat} {files files' : List (ConfigFile numbers)}
  {a a' : Artifact F}

/-! ## The parts that are typed -/

theorem points_injective : Function.Injective points := fun _ _ h => PyJson.points_inj h

/-- No key of an object twice. -/
inductive Keyed : Json → Prop
  | null : Keyed .null
  | bool (b : Bool) : Keyed (.bool b)
  | int (n : Int) : Keyed (.int n)
  | str (s : String) : Keyed (.str s)
  | arr {xs : List Json} (h : ∀ x ∈ xs, Keyed x) : Keyed (.arr xs)
  | obj {ms : List (String × Json)} (hnodup : (ms.map (·.1)).Nodup) (h : ∀ m ∈ ms, Keyed m.2) :
      Keyed (.obj ms)

theorem ofItems_eq (xs : List Json) : (ofJson.ofItems xs : List (Object F)) = xs.map ofJson := by
  induction xs with
  | nil => rfl
  | cons x xs ih => rw [ofJson.ofItems, ih, List.map_cons]

theorem ofMembers_eq (ms : List (String × Json)) : (ofJson.ofMembers ms : List (Key F × Object F)) =
    ms.map fun m => (.str (points m.1), ofJson m.2) := by
  induction ms with
  | nil => rfl
  | cons m ms ih =>
      obtain ⟨k, x⟩ := m
      rw [ofJson.ofMembers, ih, List.map_cons]

theorem shaped_ofJson {P : Points → Prop} (hP : ∀ s : String, P (points s)) {j : Json} (h : Keyed j) :
    Shaped numbers P (ofJson j : Object F) := by
  induction h with
  | null => exact .none
  | bool b => exact .bool b
  | int n => exact .int n
  | str s => exact .str (hP s)
  | arr hxs ih =>
      rw [ofJson, ofItems_eq]
      refine .list fun y hy => ?_
      obtain ⟨x, hx, rfl⟩ := List.mem_map.mp hy
      exact ih x hx
  | obj hnodup hms ih =>
      rw [ofJson, ofMembers_eq]
      refine .dict (fun n hn => ?_) fun n hn => ?_
      · obtain ⟨m, hm, rfl⟩ := List.mem_map.mp hn
        exact ⟨_, rfl, hP m.1⟩
      · obtain ⟨m, hm, rfl⟩ := List.mem_map.mp hn
        exact ih m hm

/-- A dictionary under strings of Lean, each once. -/
theorem wellFormed_points {ms : List (String × Object F)} (hnodup : (ms.map (·.1)).Nodup)
    (h : ∀ m ∈ ms, WellFormed numbers m.2) :
    WellFormed numbers (.dict (ms.map fun m => (.str (points m.1), m.2))) := by
  refine .dict ?_ (fun n hn => ?_) fun n hn => ?_
  · refine List.pairwise_map.mpr ((List.pairwise_map.mp hnodup).imp fun {m n} hne => ?_)
    rw [Bool.eq_false_iff]
    intro heqv
    exact hne (points_injective (Key.str.inj (eqv_str.mp heqv))).symm
  · obtain ⟨m, hm, rfl⟩ := List.mem_map.mp hn
    exact valid_points m.1
  · obtain ⟨m, hm, rfl⟩ := List.mem_map.mp hn
    exact h m hm

theorem wellFormed_ofJson {j : Json} (h : Keyed j) : WellFormed numbers (ofJson j : Object F) := by
  induction h with
  | null => exact .none
  | bool b => exact .bool b
  | int n => exact .int n
  | str s => exact .str (valid_points s)
  | arr hxs ih =>
      rw [ofJson, ofItems_eq]
      refine .list fun y hy => ?_
      obtain ⟨x, hx, rfl⟩ := List.mem_map.mp hy
      exact ih x hx
  | @obj ms hnodup hms ih =>
      have hmap : (ofJson (.obj ms) : Object F) =
          .dict ((ms.map fun m => (m.1, ofJson m.2)).map fun m => (.str (points m.1), m.2)) := by
        rw [ofJson, ofMembers_eq, List.map_map]
        rfl
      rw [hmap]
      refine wellFormed_points ?_ fun n hn => ?_
      · rw [List.map_map]
        exact hnodup
      · obtain ⟨m, hm, rfl⟩ := List.mem_map.mp hn
        exact ih m hm

/-! ## Routes -/

theorem keyed_strings (l : List String) : Keyed (strings l) := by
  refine .arr fun x hx => ?_
  obtain ⟨s, -, rfl⟩ := List.mem_map.mp hx
  exact .str s

/-- Members that may be there or not, each under a name of its own. -/
theorem keyed_present {members : List (Option (String × Json))} (names : List String)
    (hnodup : names.Nodup)
    (h : List.Forall₂ (fun m name => ∀ x, m = some x → x.1 = name ∧ Keyed x.2) members names) :
    Keyed (present members) := by
  have hsub : List.Sublist ((members.filterMap id).map (·.1)) names := by
    clear hnodup
    induction h with
    | nil => exact List.Sublist.slnil
    | @cons m name members names hm _ ih =>
        cases m with
        | none => exact ih.cons _
        | some x =>
            rw [← (hm x rfl).1]
            exact ih.cons_cons _
  refine .obj (hnodup.sublist hsub) fun m hm => ?_
  obtain ⟨o, ho, rfl⟩ := List.mem_filterMap.mp hm
  obtain ⟨name, -, hname⟩ := Forall₂.left h ho
  exact (hname m rfl).2

theorem keyed_ofOption (o : Option String) : Keyed (.ofOption o) := by
  cases o with
  | none => exact .null
  | some s => exact .str s

theorem keyed_orNull {α : Type} {o : Option α} {f : α → Json} (h : ∀ x, o = some x → Keyed (f x)) :
    Keyed (orNull (o.map f)) := by
  cases o with
  | none => exact .null
  | some x => exact h x rfl

/-- Members that are there, under names that differ. -/
theorem keyed_obj {ms : List (String × Json)} (names : List String) (hnames : ms.map (·.1) = names)
    (hnodup : names.Nodup) (h : ∀ m ∈ ms, Keyed m.2) : Keyed (.obj ms) := .obj (hnames ▸ hnodup) h

/-- The members of `present`, one after another. -/
theorem present_some {name : String} {x : Json} (h : Keyed x) :
    ∀ y, some (name, x) = some y → y.1 = name ∧ Keyed y.2 := by
  rintro y ⟨⟩
  exact ⟨rfl, h⟩

theorem present_map {α : Type} {o : Option α} {name : String} {f : α → Json}
    (h : ∀ x, o = some x → Keyed (f x)) :
    ∀ y, o.map (fun x => (name, f x)) = some y → y.1 = name ∧ Keyed y.2 := by
  intro y hy
  obtain ⟨x, hx, rfl⟩ := Option.map_eq_some_iff.mp hy
  exact ⟨rfl, h x hx⟩

theorem keyed_labels (l : Labels) : Keyed l.toJson :=
  keyed_present ["protocol", "capability", "source", "mediation", "exposure"] (by decide)
    (.cons (present_map fun _ _ => .str _) (.cons (present_map fun _ _ => .str _)
      (.cons (present_map fun _ _ => .str _) (.cons (present_map fun _ _ => .str _)
        (.cons (present_some (.str _)) .nil)))))

theorem keyed_policy (p : Policy) : Keyed p.toJson :=
  keyed_present ["identity", "allowedServiceIdentities", "requiredAudience", "requiredScope",
      "allowedActorTypes", "maxRequestBytes", "timeoutSeconds"] (by decide)
    (.cons (present_some (.str _)) (.cons (present_map fun _ _ => keyed_strings _)
      (.cons (present_map fun _ _ => .str _) (.cons (present_some (keyed_ofOption _))
        (.cons (present_map fun _ _ => keyed_strings _) (.cons (present_some (.int _))
          (.cons (present_some (.int _)) .nil)))))))

theorem keyed_plugins (limit : Nat) (rewrite : Option String) : Keyed (pluginsJson limit rewrite) := by
  refine keyed_present ["request-id", "limit-count", "proxy-rewrite"] (by decide)
    (.cons (present_some ?_) (.cons (present_some ?_) (.cons (present_map fun _ _ => ?_) .nil)))
  · refine keyed_obj ["header_name", "include_in_response", "algorithm"] rfl (by decide) fun m hm => ?_
    fin_cases hm
    · exact .str _
    · exact .bool _
    · exact .str _
  · refine keyed_obj ["count", "time_window", "rejected_code"] rfl (by decide) fun m hm => ?_
    fin_cases hm <;> exact .int _
  · refine keyed_obj ["uri"] rfl (by decide) fun m hm => ?_
    fin_cases hm
    exact .str _

theorem keyed_backendBinding (b : BackendBinding) : Keyed b.toJson := by
  refine keyed_obj ["service", "port", "path"] rfl (by decide) fun m hm => ?_
  fin_cases hm
  · exact .str _
  · exact .int _
  · exact .str _

theorem keyed_capability (c : CapabilityView) : Keyed c.toJson := by
  refine keyed_obj ["capabilityId", "version", "owner", "operationType", "toolEligible", "humanRequired"]
    rfl (by decide) fun m hm => ?_
  fin_cases hm <;> first | exact .str _ | exact .bool _

theorem keyed_recovery (r : RecoveryBinding) : Keyed r.toJson := by
  refine keyed_obj ["owner", "service", "pathTemplate"] rfl (by decide) fun m hm => ?_
  fin_cases hm <;> exact .str _

theorem keyed_mediation (m : Mediation) : Keyed m.toJson := by
  refine keyed_obj ["mode", "serviceIdentityRef"] rfl (by decide) fun m hm => ?_
  fin_cases hm <;> exact .str _

theorem keyed_protocol : Keyed mcpProtocol := by
  refine .obj (by decide) fun m hm => ?_
  fin_cases hm <;> first | exact .str _ | exact .bool _

theorem keyed_trusted {t : TrustedHeaders} (h : (t.claimProjection.map (·.1)).Nodup) :
    Keyed t.toJson := by
  refine keyed_obj ["stripClientHeaders", "claimProjection", "injectAfterVerification"]
    rfl (by decide) fun m hm => ?_
  fin_cases hm
  · exact keyed_strings _
  · refine .obj ?_ fun m hm => ?_
    · rw [List.map_map]
      exact h
    · obtain ⟨p, -, rfl⟩ := List.mem_map.mp hm
      exact .str _
  · refine .obj (by decide) fun m hm => ?_
    fin_cases hm
    exact .str _

def routeNames : List String :=
  ["id", "uri", "methods", "vars", "upstream_id", "service_id", "labels", "x-ouf-backend-binding",
    "plugins", "x-ouf-protocol", "x-ouf-mediation", "x-ouf-policy", "x-ouf-trusted-identity",
    "x-ouf-capability", "x-ouf-query-contract", "x-ouf-recovery-binding"]

theorem keyed_route {r : CompiledRoute} (hquery : Keyed r.queryContract)
    (htrusted : ∀ t, r.trustedIdentity = some t → (t.claimProjection.map (·.1)).Nodup) :
    Keyed r.toJson := by
  refine keyed_present routeNames (by decide) (.cons (present_some (.str _))
    (.cons (present_some (.str _)) (.cons (present_some (keyed_strings _))
    (.cons (present_map fun _ _ => ?_) (.cons (present_some (keyed_ofOption _))
    (.cons (present_some (keyed_ofOption _)) (.cons (present_some (keyed_labels _))
    (.cons (present_map fun _ _ => keyed_backendBinding _)
    (.cons (present_some (keyed_plugins _ _)) (.cons (present_map fun _ _ => keyed_protocol)
    (.cons (present_map fun _ _ => keyed_mediation _) (.cons (present_some (keyed_policy _))
    (.cons (present_map fun t ht => keyed_trusted (htrusted t ht))
    (.cons (present_some (keyed_orNull fun _ _ => keyed_capability _))
    (.cons (present_some hquery)
    (.cons (present_some (keyed_orNull fun _ _ => keyed_recovery _)) .nil))))))))))))))))
  refine .arr fun x hx => ?_
  obtain rfl := List.mem_singleton.mp hx
  exact keyed_strings _

/-- The members of a typed route. -/
theorem toJson_members (r : CompiledRoute) : ∃ ms, r.toJson = .obj ms ∧
    ("x-ouf-query-contract", r.queryContract) ∈ ms :=
  ⟨_, rfl, List.mem_filterMap.mpr ⟨_, by simp, rfl⟩⟩

variable {r : FreeRoute F}

theorem routeMembers_eq {ms : List (String × Json)} (h : r.1.toJson = .obj ms) :
    routeMembers r = (ms.map fun m => (m.1,
      if m.1 = "x-ouf-query-contract" then r.2 else ofJson m.2)).map fun m => (.str (points m.1), m.2) := by
  rw [routeMembers, h, List.map_map]
  rfl

theorem wellFormed_route (hkeyed : Keyed r.1.toJson) (h : WellFormed numbers r.2) :
    WellFormed numbers (.dict (routeMembers r)) := by
  obtain ⟨ms, hms, -⟩ := toJson_members r.1
  rw [routeMembers_eq hms]
  rw [hms] at hkeyed
  cases hkeyed with
  | obj hnodup hkeyed =>
      refine wellFormed_points ?_ fun n hn => ?_
      · rw [List.map_map]
        exact hnodup
      · obtain ⟨m, hm, rfl⟩ := List.mem_map.mp hn
        dsimp only
        split
        · exact h
        · exact wellFormed_ofJson (hkeyed m hm)

theorem shaped_route {P : Points → Prop} (hP : ∀ s : String, P (points s)) (hkeyed : Keyed r.1.toJson) :
    Shaped numbers P (.dict (routeMembers r)) ↔ Shaped numbers P r.2 := by
  obtain ⟨ms, hms, hquery⟩ := toJson_members r.1
  rw [routeMembers_eq hms, List.map_map]
  rw [hms] at hkeyed
  cases hkeyed with
  | obj hnodup hkeyed =>
      constructor
      · intro h
        cases h with
        | dict hkeys h =>
            have hmem := h _ (List.mem_map_of_mem hquery)
            simpa using hmem
      · intro h
        refine .dict (fun n hn => ?_) fun n hn => ?_
        · obtain ⟨m, hm, rfl⟩ := List.mem_map.mp hn
          exact ⟨_, rfl, hP m.1⟩
        · obtain ⟨m, hm, rfl⟩ := List.mem_map.mp hn
          dsimp only [Function.comp_apply]
          split
          · exact h
          · exact shaped_ofJson hP (hkeyed m hm)

/-! ## Artifacts -/

/-- Routes with keys that differ, and queries that Python made. -/
def Sound (numbers : Numbers F) (routes : List (FreeRoute F)) : Prop :=
  ∀ r ∈ routes, Keyed r.1.toJson ∧ WellFormed numbers r.2

theorem strs_output (routes : List (FreeRoute F)) : ∀ m ∈ output routes, ∃ s, m.1 = .str s := by
  intro m hm
  fin_cases hm <;> exact ⟨_, rfl⟩

theorem object_members (a : Artifact F) : a.object = .dict
    ([("formatVersion", .str (points "1.0")), ("apisixVersion", .str (points "3.18.x")),
      ("routes", .list (a.routes.map fun r => .dict (routeMembers r))),
      ("configurationSha256", .str (points a.configurationSha256))].map fun m =>
        (.str (points m.1), m.2)) := rfl

theorem wellFormed_object (h : Sound numbers a.routes) : WellFormed numbers a.object := by
  have hnodup : ["formatVersion", "apisixVersion", "routes", "configurationSha256"].Nodup := by decide
  rw [object_members]
  refine wellFormed_points hnodup fun m hm => ?_
  fin_cases hm
  · exact .str (valid_points _)
  · exact .str (valid_points _)
  · refine .list fun x hx => ?_
    obtain ⟨r, hr, rfl⟩ := List.mem_map.mp hx
    exact wellFormed_route (h r hr).1 (h r hr).2
  · exact .str (valid_points _)

theorem shaped_object {P : Points → Prop} (hP : ∀ s : String, P (points s)) (h : Sound numbers a.routes) :
    Shaped numbers P a.object ↔ ∀ r ∈ a.routes, Shaped numbers P r.2 := by
  have hroutes : Shaped numbers P (.list (a.routes.map fun r => .dict (routeMembers r))) ↔
      ∀ r ∈ a.routes, Shaped numbers P r.2 := by
    constructor
    · intro hlist r hr
      cases hlist with
      | list hlist => exact (shaped_route hP (h r hr).1).mp (hlist _ (List.mem_map_of_mem hr))
    · intro hall
      refine .list fun x hx => ?_
      obtain ⟨r, hr, rfl⟩ := List.mem_map.mp hx
      exact (shaped_route hP (h r hr).1).mpr (hall r hr)
  rw [← hroutes, object_members]
  constructor
  · intro hobject
    cases hobject with
    | dict hkeys hobject =>
        exact hobject _ (List.mem_map_of_mem
          (List.mem_cons_of_mem _ (List.mem_cons_of_mem _ List.mem_cons_self)))
  · intro hlist
    refine .dict (fun n hn => ?_) fun n hn => ?_
    · obtain ⟨m, hm, rfl⟩ := List.mem_map.mp hn
      exact ⟨_, rfl, hP m.1⟩
    · obtain ⟨m, hm, rfl⟩ := List.mem_map.mp hn
      fin_cases hm
      · exact .str (hP _)
      · exact .str (hP _)
      · exact hlist
      · exact .str (hP _)

/-! ## What can be written -/

theorem keyed_some {ns : List (Key F × Value F)} (hstr : ∀ n ∈ ns, ∃ s, n.1 = .str s) :
    ∃ js, keyed numbers ns = some js := by
  induction ns with
  | nil => exact ⟨[], rfl⟩
  | cons n ns ih =>
      obtain ⟨s, hs⟩ := hstr n List.mem_cons_self
      obtain ⟨js, hjs⟩ := ih fun m hm => hstr m (List.mem_cons_of_mem _ hm)
      unfold keyed at hjs ⊢
      refine ⟨(s, n.2) :: js, ?_⟩
      rw [List.mapM_cons, hjs, hs]
      rfl

/-- A dictionary under strings can be written if what is in it can. -/
theorem encode_dict_some {depth : Nat} {ms : List (Key F × Object F)}
    (hstr : ∀ m ∈ ms, ∃ s, m.1 = .str s) (h : ∀ m ∈ ms, ∃ y, encode numbers depth m.2 = some y) :
    ∃ j, encode numbers (depth + 1) (.dict ms) = some j := by
  obtain ⟨ns, hns⟩ : ∃ ns, encodeMembers numbers depth ms = some ns := by
    clear hstr
    induction ms with
    | nil => exact ⟨[], rfl⟩
    | cons m ms ih =>
        obtain ⟨y, hy⟩ := h m List.mem_cons_self
        obtain ⟨ns, hns⟩ := ih fun m hm => h m (List.mem_cons_of_mem _ hm)
        refine ⟨(m.1, y) :: ns, ?_⟩
        rw [encodeMembers, hy, Option.bind_some, hns]
        rfl
  have hkeys : ∀ n ∈ ns, ∃ s, n.1 = .str s := by
    intro n hn
    obtain ⟨m, hm, hkey, -⟩ := Forall₂.right (encodeMembers_iff.mp hns) hn
    exact hkey ▸ hstr m hm
  have hsortable : sortable (ns.map (·.1)) = true := by
    have hall : (ns.map (·.1)).all Key.isStr = true := by
      refine List.all_eq_true.mpr fun k hk => ?_
      obtain ⟨n, hn, rfl⟩ := List.mem_map.mp hk
      obtain ⟨s, hs⟩ := hkeys n hn
      rw [hs]
      rfl
    rw [sortable, hall, Bool.or_true, Bool.true_or]
  have hsorted : ∀ n ∈ sortMembers numbers ns, ∃ s, n.1 = .str s :=
    fun n hn => hkeys n ((List.mergeSort_perm _ _).mem_iff.mp hn)
  obtain ⟨js, hjs⟩ : ∃ js, keyed numbers (sortMembers numbers ns) = some js := keyed_some hsorted
  refine ⟨.obj js, ?_⟩
  rw [encode, hns, Option.bind_some, if_pos hsortable, hjs]
  rfl

/-- An artifact can be written if what was hashed of it could. -/
theorem encode_object {j : Value F} (h : encode numbers limit (.dict (output a.routes)) = some j) :
    ∃ J, encode numbers limit a.object = some J := by
  obtain ⟨depth, js, rfl, -, hw⟩ := encode_dict (strs_output a.routes) h
  refine encode_dict_some (fun m hm => ?_) fun m hm => ?_
  · rcases List.mem_append.mp hm with hm | hm
    · exact strs_output a.routes m hm
    · obtain rfl := List.mem_singleton.mp hm
      exact ⟨_, rfl⟩
  · rcases List.mem_append.mp hm with hm | hm
    · obtain ⟨s, hs⟩ := strs_output a.routes m hm
      obtain ⟨k, x⟩ := m
      obtain rfl : k = .str s := hs
      obtain ⟨y, hy, -⟩ := hw.member s x hm
      exact ⟨y, hy⟩
    · obtain rfl := List.mem_singleton.mp hm
      exact ⟨_, rfl⟩

/-! ## The compiler -/

section

variable {bind : Seen → String → Document → Except ConfigError (Option CompiledRoute × Seen)}
  {fs : List (ConfigFile numbers × String × Document)} {seen : Seen}

theorem walkFiles_cons {x : ConfigFile numbers × String × Document} {res : List (FreeRoute F) × Seen}
    (h : walkFiles bind (x :: fs) seen = .ok res) :
    ∃ first others, bind seen x.2.1 x.2.2 = .ok first ∧ walkFiles bind fs first.2 = .ok others ∧
      res = (first.1.toList.map (·, .dict x.1.query) ++ others.1, others.2) := by
  simp only [walkFiles, bind_eq_ok] at h
  obtain ⟨first, hfirst, others, hothers, h⟩ := h
  exact ⟨first, others, hfirst, hothers, (Except.ok.inj h).symm⟩

/-- The routes of a walk are those of its documents, with the queries of their files. -/
theorem mem_walkFiles {res : List (FreeRoute F) × Seen} (h : walkFiles bind fs seen = .ok res)
    {r : FreeRoute F} (hr : r ∈ res.1) : ∃ x ∈ fs, ∃ before after,
      bind before x.2.1 x.2.2 = .ok (some r.1, after) ∧ r.2 = .dict x.1.query := by
  induction fs generalizing seen res with
  | nil =>
      cases h
      cases hr
  | cons x fs ih =>
      obtain ⟨first, others, hfirst, hothers, rfl⟩ := walkFiles_cons h
      rcases List.mem_append.mp hr with hr | hr
      · obtain ⟨e, he, rfl⟩ := List.mem_map.mp hr
        obtain ⟨o, after⟩ := first
        obtain rfl : o = some e := Option.mem_toList.mp he
        exact ⟨x, List.mem_cons_self, seen, after, hfirst, rfl⟩
      · obtain ⟨y, hy, hbind⟩ := ih hothers hr
        exact ⟨y, List.mem_cons_of_mem _ hy, hbind⟩

/-- A file whose document gives a route has its query in one. -/
theorem walkFiles_mem {res : List (FreeRoute F) × Seen} (h : walkFiles bind fs seen = .ok res)
    {x : ConfigFile numbers × String × Document} (hx : x ∈ fs)
    (hgives : ∀ before first, bind before x.2.1 x.2.2 = .ok first → first.1 ≠ none) :
    ∃ r ∈ res.1, r.2 = .dict x.1.query := by
  induction fs generalizing seen res with
  | nil => cases hx
  | cons y fs ih =>
      obtain ⟨first, others, hfirst, hothers, rfl⟩ := walkFiles_cons h
      rcases List.mem_cons.mp hx with rfl | hx
      · obtain ⟨e, he⟩ := Option.ne_none_iff_exists'.mp (hgives _ _ hfirst)
        refine ⟨(e, .dict x.1.query), List.mem_append_left _ ?_, rfl⟩
        rw [he]
        exact List.mem_map_of_mem List.mem_cons_self
      · obtain ⟨r, hr, hquery⟩ := ih hothers hx
        exact ⟨r, List.mem_append_right _ hr, hquery⟩

end

/-- What the three walks make of a document. -/
theorem keyed_emitted {docs : Documents} {d : Document} {r : CompiledRoute} (hvalid : d.valid = true)
    (hquery : ∀ b, d = .routeBinding b → b.query = none)
    (h : routeOf docs d = some r ∨ endpointOf d = some r ∨ mediationOf d = some r) :
    Keyed r.toJson := by
  have hempty : Keyed (.obj []) := .obj List.nodup_nil fun _ hm => by cases hm
  cases d with
  | routeBinding b =>
      obtain ⟨capability, hcapability, source, hsource, rfl⟩ : ∃ capability,
          capabilityOf docs b.capabilityRef = some capability ∧ ∃ source,
            sourceOf docs b.sourceRef = some source ∧ emitRoute b capability source = r := by
        simpa [routeOf, endpointOf, mediationOf, Option.bind_eq_some_iff] using h
      refine keyed_route ?_ fun t ht => by cases ht
      rw [emitRoute, hquery b rfl]
      exact hempty
  | mcpEndpointBinding b =>
      obtain rfl : emitEndpoint b = r := by simpa [routeOf, endpointOf, mediationOf] using h
      refine keyed_route hempty fun t ht => ?_
      obtain rfl := Option.some.inj ht
      have hprojection : projectionValid b.claimProjection = true := by
        simp only [Document.valid, McpEndpointBinding.valid, Bool.and_eq_true] at hvalid
        exact hvalid.2
      simp only [projectionValid, unique, Bool.and_eq_true, decide_eq_true_eq] at hprojection
      exact hprojection.1.1
  | mcpMediationBinding b =>
      obtain rfl : emitMediation b = r := by simpa [routeOf, endpointOf, mediationOf] using h
      exact keyed_route hempty fun t ht => by cases ht
  | _ => simp [routeOf, endpointOf, mediationOf] at h

/-- What an accepted configuration comes with. -/
structure Accepted (limit : Nat) (files : List (ConfigFile numbers)) (a : Artifact F) : Prop where
  sound : Sound numbers a.routes
  origin : ∀ r ∈ a.routes, ∃ f ∈ files, r.2 = .dict f.query
  covers : ∀ f ∈ files, f.query ≠ [] → ∃ r ∈ a.routes, r.2 = .dict f.query
  sealed : ∃ j, encode numbers limit (.dict (output a.routes)) = some j ∧
    a.configurationSha256 = digest numbers j

theorem zip_documents {docs : Documents}
    (h : files.map (fun f => (f.path, f.loaded)) = docs.map fun d => (d.1, Loaded.document d.2)) :
    (∀ x ∈ files.zip docs, x.1 ∈ files ∧ x.2 ∈ docs ∧ x.1.loaded = .document x.2.2) ∧
      ∀ f ∈ files, ∃ d, (f, d) ∈ files.zip docs := by
  induction files generalizing docs with
  | nil => exact ⟨fun _ hx => absurd hx List.not_mem_nil, fun _ hf => absurd hf List.not_mem_nil⟩
  | cons f files ih =>
      cases docs with
      | nil => cases h
      | cons d docs =>
          obtain ⟨hhead, htail⟩ := List.cons.inj h
          obtain ⟨hmem, hcover⟩ := ih htail
          rw [List.zip_cons_cons]
          constructor
          · intro x hx
            rcases List.mem_cons.mp hx with rfl | hx
            · exact ⟨List.mem_cons_self, List.mem_cons_self, (Prod.mk.inj hhead).2⟩
            · obtain ⟨h1, h2, h3⟩ := hmem x hx
              exact ⟨List.mem_cons_of_mem _ h1, List.mem_cons_of_mem _ h2, h3⟩
          · intro g hg
            rcases List.mem_cons.mp hg with rfl | hg
            · exact ⟨d, List.mem_cons_self⟩
            · obtain ⟨e, he⟩ := hcover g hg
              exact ⟨e, List.mem_cons_of_mem _ he⟩

theorem compileFiles_ok (h : compileFiles limit files = .ok a) : Accepted limit files a := by
  simp only [compileFiles, bind_eq_ok] at h
  obtain ⟨docs, hload, _, -, _, -, routes, hroutes, endpoints, hendpoints, mediations, hmediations, h⟩ := h
  obtain ⟨hfiles, hvalid⟩ := loadDocuments_ok hload
  obtain ⟨hzip, hcover⟩ := zip_documents hfiles
  unfold sealFiles at h
  split at h
  · cases h
  · next j hj =>
    obtain rfl := Except.ok.inj h
    have hperm : (sortRoutes (routes.1 ++ endpoints.1 ++ mediations.1)).Perm
        (routes.1 ++ endpoints.1 ++ mediations.1) := List.mergeSort_perm _ _
    have hfrom : ∀ r ∈ sortRoutes (routes.1 ++ endpoints.1 ++ mediations.1), ∃ x ∈ files.zip docs,
        (routeOf docs x.2.2 = some r.1 ∨ endpointOf x.2.2 = some r.1 ∨ mediationOf x.2.2 = some r.1) ∧
          r.2 = .dict x.1.query := by
      intro r hr
      rcases List.mem_append.mp (hperm.mem_iff.mp hr) with hr | hr
      · rcases List.mem_append.mp hr with hr | hr
        · obtain ⟨x, hx, _, _, hbind, hquery⟩ := mem_walkFiles hroutes hr
          exact ⟨x, hx, Or.inl (bindRoute_route hbind).symm, hquery⟩
        · obtain ⟨x, hx, _, _, hbind, hquery⟩ := mem_walkFiles hendpoints hr
          exact ⟨x, hx, Or.inr (Or.inl (bindEndpoint_route hbind).symm), hquery⟩
      · obtain ⟨x, hx, _, _, hbind, hquery⟩ := mem_walkFiles hmediations hr
        exact ⟨x, hx, Or.inr (Or.inr (bindMediation_route hbind).symm), hquery⟩
    refine ⟨fun r hr => ?_, fun r hr => ?_, fun f hf hne => ?_, ⟨j, hj, rfl⟩⟩
    · obtain ⟨x, hx, hemitted, hquery⟩ := hfrom r hr
      obtain ⟨-, hd, hdocument⟩ := hzip x hx
      refine ⟨keyed_emitted (hvalid x.2 hd) (fun b hb => ?_) hemitted, hquery ▸ x.1.wellFormed⟩
      exact x.1.apart b (hb ▸ hdocument)
    · obtain ⟨x, hx, -, hquery⟩ := hfrom r hr
      exact ⟨x.1, (hzip x hx).1, hquery⟩
    · obtain ⟨d, hd⟩ := hcover f hf
      obtain ⟨b, hb⟩ := f.ofRoute.resolve_left hne
      have hdocument : d.2 = .routeBinding b :=
        Loaded.document.inj ((hzip _ hd).2.2.symm.trans hb)
      obtain ⟨r, hr, hquery⟩ := walkFiles_mem hroutes hd fun before first hbind => by
        obtain ⟨path, e⟩ := d
        obtain rfl : e = .routeBinding b := hdocument
        obtain ⟨_, _, _, _, _, rfl⟩ := bindRoute_ok hbind
        exact Option.some_ne_none _
      exact ⟨r, hperm.mem_iff.mpr (List.mem_append_left _ (List.mem_append_left _ hr)), hquery⟩

/-! ## One artifact -/

/-- It is read where it was written, its publication can be recorded again, and what is staged
of it passes for it. -/
structure Survives (numbers : Numbers F) (limit : Nat) (a : Artifact F) : Prop where
  readBack : ∀ l : Layout, l.Blanks → ∃ w, stored numbers limit l a.object = .ok w ∧
    (ofValue w).eqv numbers a.object = true
  republished : ∃ file, record numbers limit none a.object = .ok file ∧
    record numbers limit (some file) a.object = .ok file
  staged : ∀ l : Layout, l.Blanks → ∃ revision, stage numbers limit l a.object = .ok revision ∧
    verify numbers limit l revision a.object = .ok true

theorem blanks_indented : indented.Blanks := by
  refine ⟨fun depth p hp => ?_, PyJson.blank_nil, fun p hp => ?_⟩
  · rcases List.mem_cons.mp hp with rfl | hp
    · rfl
    · rw [List.eq_of_mem_replicate hp]
      rfl
  · rw [List.mem_singleton.mp hp]
    rfl

theorem stored_ok {l : Layout} {J : Value F} {w : Value F}
    (hJ : encode numbers limit a.object = some J) :
    stored numbers limit l a.object = .ok w ↔
      loads numbers.toFloats limit (fileOf numbers l J []) = .ok w := by
  rw [stored, hJ]
  dsimp only
  cases loads numbers.toFloats limit (fileOf numbers l J []) <;> simp

/-- An accepted artifact survives storage exactly if the queries of its files do. -/
theorem survives_iff_storable (hexact : numbers.Exact) (h : Accepted limit files a) :
    Survives numbers limit a ↔ ∀ f ∈ files, Storable numbers (.dict f.query) := by
  obtain ⟨j, hj, -⟩ := h.sealed
  obtain ⟨J, hJ⟩ := encode_object (a := a) hj
  have hwf := wellFormed_object h.sound
  have hempty : Storable numbers (.dict ([] : List (Key F × Object F))) :=
    .dict (fun _ hm => absurd hm List.not_mem_nil) fun _ hm => absurd hm List.not_mem_nil
  have hqueries : Storable numbers a.object ↔ ∀ f ∈ files, Storable numbers (.dict f.query) := by
    rw [Storable, shaped_object (P := fun s => merge s = s) merge_points h.sound]
    constructor
    · intro hroutes f hf
      by_cases hne : f.query = []
      · rw [hne]
        exact hempty
      · obtain ⟨r, hr, hquery⟩ := h.covers f hf hne
        exact hquery ▸ hroutes r hr
    · intro hfiles r hr
      obtain ⟨f, hf, hquery⟩ := h.origin r hr
      exact hquery ▸ hfiles f hf
  have hfile : ∀ {l : Layout} {bs : Points}, l.Blanks → (∀ p ∈ bs, p = 10) →
      ((∃ w, loads numbers.toFloats limit (fileOf numbers l J bs) = .ok w ∧
        (ofValue w).eqv numbers a.object = true) ↔ Storable numbers a.object) :=
    fun hl hbs => survives_iff hexact hwf hJ hl hbs
  have hnone : ∀ p ∈ ([] : Points), p = 10 := fun _ hp => absurd hp List.not_mem_nil
  rw [← hqueries]
  constructor
  · intro hs
    obtain ⟨w, hw, heqv⟩ := hs.readBack compact PyJson.blanks_compact
    exact (hfile PyJson.blanks_compact hnone).mp ⟨w, (stored_ok hJ).mp hw, heqv⟩
  · intro hs
    refine ⟨fun l hl => ?_, ⟨fileOf numbers indented J [10], ?_, ?_⟩, fun l hl => ?_⟩
    · obtain ⟨w, hw, heqv⟩ := (hfile hl hnone).mpr hs
      exact ⟨w, (stored_ok hJ).mpr hw, heqv⟩
    · rw [record, hJ]
    · obtain ⟨w, hw, heqv⟩ := (hfile blanks_indented fun p hp => List.mem_singleton.mp hp).mpr hs
      rw [record, hw]
      exact if_pos heqv
    · obtain ⟨w, hw, heqv⟩ := (hfile hl hnone).mpr hs
      have hw := (stored_ok hJ).mpr hw
      have hrevision : revisionFor numbers limit a.object = .ok ("sha256:" ++ digest numbers J) := by
        rw [revisionFor, hJ]
      refine ⟨"sha256:" ++ digest numbers J, ?_, ?_⟩
      · simp only [stage, bind_eq_ok]
        exact ⟨_, hrevision, w, hw, if_pos heqv⟩
      · simp only [verify, bind_eq_ok]
        refine ⟨_, hrevision, ?_⟩
        rw [if_neg (not_not.mpr rfl), bind_eq_ok]
        exact ⟨w, hw, by rw [heqv]⟩

/-! ## Two artifacts with one hash -/

/-- Two texts that SHA-256 does not tell apart. -/
def Collision (s t : String) : Prop := s ≠ t ∧ Sha256.ofText s = Sha256.ofText t

theorem write_of_canonicalText {j j' : Value F} {depth depth' : Nat}
    (hj : PyJson.Fits (PyJson.FloatText numbers.toFloats) depth j)
    (hj' : PyJson.Fits (PyJson.FloatText numbers.toFloats) depth' j')
    (h : canonicalText numbers j = canonicalText numbers j') :
    write numbers.toFloats compact 0 j = write numbers.toFloats compact 0 j' := by
  have hback : ∀ {text : Points}, PyJson.Ascii text → (text.map Char.ofNat).map Char.toNat = text := by
    intro text htext
    rw [List.map_map]
    refine (List.map_congr_left fun p hp => ?_).trans (List.map_id _)
    have hlt := (htext p hp).2
    have hvalid : p.isValidChar := Or.inl (by omega)
    simp [Char.ofNat, hvalid, Char.ofNatAux, Char.toNat]
  have htext := String.ofList_injective h
  rw [← hback (PyJson.ascii_write numbers.toFloats PyJson.blanks_compact hj 0), htext,
    hback (PyJson.ascii_write numbers.toFloats PyJson.blanks_compact hj' 0)]

/-- Dictionaries that are equal stay so with one more member of the same value. -/
theorem eqv_concat {ms ns : List (Key F × Object F)} {k : Points} {s : Points}
    (hms : ∀ m ∈ ms, ∃ s, m.1 = .str s)
    (hns : WellFormed numbers (.dict (ns ++ [(.str k, .str s)])))
    (h : (Object.dict ms).eqv numbers (.dict ns) = true) :
    (Object.dict (ms ++ [(.str k, .str s)])).eqv numbers (.dict (ns ++ [(.str k, .str s)])) = true := by
  rw [Object.eqv, Bool.and_eq_true, decide_eq_true_eq] at h ⊢
  refine ⟨by simp [h.1], ?_⟩
  cases hns with
  | dict hkeys hvalid hns =>
      refine eqvMembers_of hkeys fun m hm => ?_
      rcases List.mem_append.mp hm with hm | hm
      · obtain ⟨n, hn, hkey, hvalue⟩ := of_eqvMembers h.2 hm
        obtain ⟨s, hs⟩ := hms m hm
        rw [hs, eqv_str] at hkey
        exact ⟨s, n.2, hs, List.mem_append_left _ (hkey ▸ hn), hvalue⟩
      · obtain rfl := List.mem_singleton.mp hm
        exact ⟨k, .str s, rfl, List.mem_append_right _ List.mem_cons_self, decide_eq_true rfl⟩

theorem storable_output (h : Storable numbers a.object) : Storable numbers (.dict (output a.routes)) := by
  cases h with
  | dict hkeys h =>
      exact .dict (fun m hm => hkeys m (List.mem_append_left _ hm))
        fun m hm => h m (List.mem_append_left _ hm)

theorem wellFormed_output (h : WellFormed numbers a.object) :
    WellFormed numbers (.dict (output a.routes)) := by
  cases h with
  | dict hkeys hvalid h =>
      exact .dict (List.pairwise_append.mp hkeys).1
        (fun m hm => hvalid m (List.mem_append_left _ hm))
        fun m hm => h m (List.mem_append_left _ hm)

/-- Artifacts with one hash are equal, unless their texts are a collision. -/
def SameHash (numbers : Numbers F) (limit : Nat) (a a' : Artifact F) : Prop :=
  a.configurationSha256 = a'.configurationSha256 →
    a.object.eqv numbers a'.object = true ∨
      ∃ j j', encode numbers limit (.dict (output a.routes)) = some j ∧
        encode numbers limit (.dict (output a'.routes)) = some j' ∧
        Collision (canonicalText numbers j) (canonicalText numbers j')

theorem sameHash (hexact : numbers.Exact) (h : Accepted limit files a) (h' : Accepted limit files' a')
    (hs : Storable numbers a.object) (hs' : Storable numbers a'.object) :
    SameHash numbers limit a a' := by
  obtain ⟨j, hj, hdigest⟩ := h.sealed
  obtain ⟨j', hj', hdigest'⟩ := h'.sealed
  have hwf := wellFormed_object h.sound
  have hwf' := wellFormed_object h'.sound
  intro hsame
  by_cases htext : canonicalText numbers j = canonicalText numbers j'
  · have hwrite := write_of_canonicalText
      (fits_encode hexact.text (storable_output hs) (wellFormed_output hwf) hj)
      (fits_encode hexact.text (storable_output hs') (wellFormed_output hwf') hj') htext
    have houtput := eqv_of_text hexact (storable_output hs) (storable_output hs')
      (wellFormed_output hwf) (wellFormed_output hwf') hj hj' PyJson.blanks_compact hwrite
    refine Or.inl ?_
    unfold Artifact.object at hwf' ⊢
    rw [← hsame] at hwf' ⊢
    exact eqv_concat (strs_output a.routes) hwf' houtput
  · refine Or.inr ⟨j, j', hj, hj', htext, ?_⟩
    rw [hdigest, hdigest'] at hsame
    exact hsame

/-- The whole numbers with their comparisons. -/
def wholeNumbers : Numbers EvidenceIngress.Whole where
  toFloats := EvidenceIngress.wholes
  same
    | .int m, .int n => m = n
    | .float x, .float y => x = y
    | _, _ => false
  less _ _ := false

theorem exact_wholeNumbers : wholeNumbers.Exact where
  text x := (EvidenceIngress.exact_inboxMediator x (by simp [EvidenceIngress.inboxMediator])).text
  reread x _ := (EvidenceIngress.exact_inboxMediator x (by simp [EvidenceIngress.inboxMediator])).reread
  same_int n := decide_eq_true rfl
  same_float x _ := decide_eq_true rfl
  nan a x hx := absurd hx (PyJson.number_ne (PyJson.digits_toDigits x.digits) _ (by decide))

/-- Nests at most so deep and has no long integers. -/
def writable : Nat → Json → Bool
  | _, .int n => digitsFit n
  | depth + 1, .arr xs => xs.all (writable depth)
  | depth + 1, .obj ms => ms.all fun m => writable depth m.2
  | 0, .arr _ => false
  | 0, .obj _ => false
  | _, _ => true

theorem encode_writable {j : Json} (h : Keyed j) {depth : Nat} (hw : writable depth j = true) :
    ∃ y, encode numbers depth (ofJson j) = some y := by
  induction h generalizing depth with
  | null => exact ⟨_, by cases depth <;> rfl⟩
  | bool b => exact ⟨_, by cases depth <;> rfl⟩
  | int n =>
      have hfits : digitsFit n = true := by cases depth <;> exact hw
      refine ⟨.int n, ?_⟩
      cases depth <;> rw [ofJson, encode, if_pos hfits]
  | str s => exact ⟨_, by cases depth <;> rfl⟩
  | @arr xs hxs ih =>
      cases depth with
      | zero => cases hw
      | succ depth =>
          have hall : ∀ x ∈ xs, writable depth x = true := List.all_eq_true.mp hw
          rw [ofJson, ofItems_eq]
          obtain ⟨ys, hys⟩ : ∃ ys, encodeItems numbers depth (xs.map ofJson) = some ys := by
            clear hxs hw
            induction xs with
            | nil => exact ⟨[], rfl⟩
            | cons x xs ihxs =>
                obtain ⟨y, hy⟩ := ih x List.mem_cons_self (hall x List.mem_cons_self)
                obtain ⟨ys, hys⟩ := ihxs (fun x hx => ih x (List.mem_cons_of_mem _ hx))
                  fun x hx => hall x (List.mem_cons_of_mem _ hx)
                refine ⟨y :: ys, ?_⟩
                rw [List.map_cons, encodeItems, hy, Option.bind_some, hys]
                rfl
          exact ⟨.arr ys, by rw [encode, hys]; rfl⟩
  | @obj ms hnodup hms ih =>
      cases depth with
      | zero => cases hw
      | succ depth =>
          have hall : ∀ m ∈ ms, writable depth m.2 = true := List.all_eq_true.mp hw
          rw [ofJson, ofMembers_eq]
          refine encode_dict_some (fun n hn => ?_) fun n hn => ?_
          · obtain ⟨m, hm, rfl⟩ := List.mem_map.mp hn
            exact ⟨_, rfl⟩
          · obtain ⟨m, hm, rfl⟩ := List.mem_map.mp hn
            exact ih m hm (hall m hm)

theorem encode_route {depth : Nat} {y : Value F} (hkeyed : Keyed r.1.toJson)
    (hw : writable (depth + 1) r.1.toJson = true) (hy : encode numbers depth r.2 = some y) :
    ∃ z, encode numbers (depth + 1) (.dict (routeMembers r)) = some z := by
  obtain ⟨ms, hms, -⟩ := toJson_members r.1
  rw [hms] at hkeyed hw
  have hall : ∀ m ∈ ms, writable depth m.2 = true := List.all_eq_true.mp hw
  rw [routeMembers_eq hms, List.map_map]
  cases hkeyed with
  | obj hnodup hkeyed =>
      refine encode_dict_some (fun n hn => ?_) fun n hn => ?_
      · obtain ⟨m, hm, rfl⟩ := List.mem_map.mp hn
        exact ⟨_, rfl⟩
      · obtain ⟨m, hm, rfl⟩ := List.mem_map.mp hn
        dsimp only [Function.comp_apply]
        split
        · exact ⟨y, hy⟩
        · exact encode_writable (hkeyed m hm) (hall m hm)

theorem encode_output {depth : Nat} {z : Value F}
    (hz : encode numbers (depth + 1) (.dict (routeMembers r)) = some z) :
    ∃ j, encode numbers (depth + 3) (.dict (output [r])) = some j := by
  refine encode_dict_some (strs_output _) fun m hm => ?_
  fin_cases hm
  · exact ⟨_, rfl⟩
  · exact ⟨_, rfl⟩
  · refine ⟨.arr [z], ?_⟩
    simp only [List.map_cons, List.map_nil]
    rw [encode, encodeItems, hz]
    rfl

def parkBinding : RouteBinding := { parkRoute "park" "" with uriRegex := none }

/-- The files of one park, whose route has the query. -/
def parkFiles (query : List (Key EvidenceIngress.Whole × Object EvidenceIngress.Whole))
    (h : WellFormed wholeNumbers (.dict query)) : List (ConfigFile wholeNumbers) :=
  have hempty : WellFormed wholeNumbers (.dict []) :=
    .dict List.Pairwise.nil (fun _ hm => absurd hm List.not_mem_nil)
      fun _ hm => absurd hm List.not_mem_nil
  [⟨"parks.yaml", .document (.sourceRuntimeProfile parks), [], hempty, Or.inl rfl,
      fun d hd => by cases hd⟩,
    ⟨"read.yaml", .document (.capability readParks), [], hempty, Or.inl rfl, fun d hd => by cases hd⟩,
    ⟨"route.yaml", .document (.routeBinding parkBinding), query, h, Or.inr ⟨_, rfl⟩,
      fun d hd => by cases hd; rfl⟩]

def parkCompiled : CompiledRoute := emitRoute parkBinding readParks parks

theorem keyed_park : Keyed parkCompiled.toJson :=
  keyed_route (.obj List.nodup_nil fun _ hm => absurd hm List.not_mem_nil) fun t ht => by cases ht

theorem compiled_park {query : List (Key EvidenceIngress.Whole × Object EvidenceIngress.Whole)}
    (h : WellFormed wholeNumbers (.dict query)) {y : Value EvidenceIngress.Whole}
    (hy : encode wholeNumbers 97 (.dict query) = some y) :
    ∃ a, compileFiles 100 (parkFiles query h) = .ok a ∧ a.routes = [(parkCompiled, .dict query)] := by
  have hwalk : compileFiles 100 (parkFiles query h) =
      sealFiles wholeNumbers 100 (sortRoutes [(parkCompiled, .dict query)]) := rfl
  have hsort : sortRoutes [(parkCompiled, Object.dict query)] = [(parkCompiled, .dict query)] :=
    List.mergeSort_singleton _
  have hw : writable 98 parkCompiled.toJson = true := by decide
  obtain ⟨z, hz⟩ := encode_route (r := (parkCompiled, .dict query)) keyed_park hw hy
  obtain ⟨j, hj⟩ := encode_output hz
  refine ⟨⟨[(parkCompiled, .dict query)], digest wholeNumbers j⟩, ?_, rfl⟩
  rw [hwalk, hsort, sealFiles, hj]

theorem wellFormed_single {k s : Points} (hk : PyJson.Valid k) (hs : PyJson.Valid s) :
    WellFormed numbers (.dict [(.str k, .str s)]) := by
  refine .dict (List.pairwise_singleton _ _) (fun m hm => ?_) fun m hm => ?_
  · obtain rfl := List.mem_singleton.mp hm
    exact hk
  · obtain rfl := List.mem_singleton.mp hm
    exact .str hs

theorem encode_single {depth : Nat} (k s : Points) :
    encode numbers (depth + 1) (.dict [(.str k, .str s)]) = some (.obj [(k, .str s)]) := by
  have hmembers : encodeMembers numbers depth [(.str k, .str s)] = some [(.str k, .str s)] := by
    cases depth <;> rfl
  have hsort : sortMembers numbers [(.str k, (.str s : Value F))] = [(.str k, .str s)] :=
    List.mergeSort_singleton _
  have hsortable : sortable (([(.str k, .str s)] : List (Key F × Value F)).map (·.1)) = true := rfl
  rw [encode, hmembers, Option.bind_some, if_pos hsortable, hsort, keyed, List.mapM_cons]
  rfl

/-- `{"q": "x"}` -/
def plainQuery : List (Key EvidenceIngress.Whole × Object EvidenceIngress.Whole) :=
  [(.str (points "q"), .str (points "x"))]

theorem wellFormed_plainQuery : WellFormed wholeNumbers (.dict plainQuery) :=
  wellFormed_single (valid_points "q") (valid_points "x")

/-- `{"q": "\ud83d\ude00"}`, which YAML reads as two characters. -/
def halvesQuery : List (Key EvidenceIngress.Whole × Object EvidenceIngress.Whole) :=
  [(.str (points "q"), .str [0xd83d, 0xde00])]

theorem wellFormed_halvesQuery : WellFormed wholeNumbers (.dict halvesQuery) :=
  wellFormed_single (valid_points "q") (List.forall_mem_cons.mpr
    ⟨by decide, List.forall_mem_singleton.mpr (by decide)⟩)

theorem not_storable_halvesQuery : ¬ Storable wholeNumbers (.dict halvesQuery) := by
  intro h
  cases h with
  | dict _ h =>
      cases h _ List.mem_cons_self with
      | str h => exact absurd h (by decide)

theorem shaped_halvesQuery : Shaped wholeNumbers (fun _ => True) (.dict halvesQuery) := by
  refine .dict (fun m hm => ?_) fun m hm => ?_
  · obtain rfl := List.mem_singleton.mp hm
    exact ⟨_, rfl, trivial⟩
  · obtain rfl := List.mem_singleton.mp hm
    exact .str trivial

end OufGateway.StoredArtifact
