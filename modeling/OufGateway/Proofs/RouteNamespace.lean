import OufGateway.Proofs.RouteTable
import OufGateway.Lib.PatternText

/-!
# Selectors and their namespace

The compiler compares the text of a selector with its route: it is written `^`,
the wildcard prefix, something, `$`. What the data plane finds with it is
another matter. In `^/parks/|/oak$` the anchors belong to one alternative each;
a `.` in the prefix is any character; and `$` looks past a newline at the end of
the URI.

The data plane's search is a parameter here, known by what it does with the
expressions that `Pattern.read` reads. A selector that passes the walk of
`Pattern.confined` with its prefix stays in its namespace, on every URI that
does not end in a newline: `selector_in_namespace`. One whose prefix has no
special characters, that has no alternatives outside of groups and does not
escape its `$` passes it: `confined_of_accepted`.
-/

namespace OufGateway.CompileConfig

open OufGateway.Lib

variable {files : List (String × Loaded)} {a : Artifact} {path x uri : String} {d : RouteBinding}
  {find : String → String → Option (Nat × Nat)}

/-- What `find` finds is what the text of an expression says. It may give up on a URI. -/
def Documented (find : String → String → Option (Nat × Nat)) : Prop :=
  ∀ x uri r found, Pattern.read x.toList = some r → find x uri = some found →
    Pattern.search r.node uri.toList = some found

/-- What is found begins with the wildcard prefix and is the whole of the URI. -/
def InNamespace (find : String → String → Option (Nat × Nat)) (d : RouteBinding) (x uri : String) :
    Prop :=
  ∀ first last, find x uri = some (first, last) →
    (namespaceOf d.path).toList <+: uri.toList ∧ first = 0 ∧ last = uri.length

/-- The expression is read, its reading is confined to the prefix, and no newline is at the
end of the URI. -/
structure Confined (d : RouteBinding) (x uri : String) : Prop where
  reading : ∃ r, Pattern.read x.toList = some r ∧
    Pattern.confined (namespaceOf d.path).toList r.node = true
  line : uri.toList.getLast? ≠ some '\n'

/-! ## What the compiler has seen -/

theorem namespaceOf_append {path : String} (h : Text.endsWith "/*" path = true) :
    path = namespaceOf path ++ "*" := by
  obtain ⟨lead, hlead⟩ := List.isSuffixOf_iff_suffix.mp h
  have hpath : path.toList = (lead ++ ['/']) ++ ['*'] := by rw [← hlead, List.append_assoc]; rfl
  apply String.toList_injective
  rw [String.toList_append, namespaceOf, String.toList_ofList, hpath, List.dropLast_concat]
  rfl

/-- The text of an accepted selector. -/
theorem selector_text (h : compileConfig files = .ok a)
    (hd : (path, Loaded.document (.routeBinding d)) ∈ files) (hx : d.uriRegex = some x) :
    d.path = namespaceOf d.path ++ "*" ∧
      (∃ rest, x.toList = '^' :: ((namespaceOf d.path).toList ++ rest)) ∧
      x.toList.getLast? = some '$' := by
  obtain ⟨docs, hload, hdocs⟩ := compileConfig_ok h
  obtain ⟨rfl, hvalid⟩ := loadDocuments_ok hload
  obtain ⟨⟨path', e⟩, he, heq⟩ := List.mem_map.mp hd
  obtain rfl : e = .routeBinding d := Loaded.document.inj (Prod.mk.inj heq).2
  obtain ⟨c⟩ := compileDocuments_ok hdocs
  obtain ⟨seen, first, hfirst⟩ := walk_bound c.walkRoutes he
  obtain ⟨-, -, -, -, hspace, -⟩ := bindRoute_ok hfirst
  have hne : x ≠ "" := by
    have hkept := uriRegex_filter (hvalid _ he)
    rw [hx] at hkept
    simpa using hkept
  unfold checkNamespace at hspace
  split at hspace
  · cases hspace
  · next hpath =>
      simp only [hx] at hspace
      split at hspace
      · cases hspace
      · next htext =>
          simp only [hne, ne_eq, not_false_eq_true, true_and, not_or, not_not] at htext
          obtain ⟨hwildcard, hfront, hend, -⟩ := htext
          have hbounded : Text.endsWith "/*" d.path = true := by
            simp only [hwildcard, true_and, not_or, not_not] at hpath
            exact hpath.1
          obtain ⟨rest, hrest⟩ := List.isPrefixOf_iff_prefix.mp hfront
          obtain ⟨lead, hlead⟩ := List.isSuffixOf_iff_suffix.mp hend
          refine ⟨namespaceOf_append hbounded, ⟨rest, ?_⟩, ?_⟩
          · rw [← hrest, String.toList_append]
            rfl
          · rw [← hlead]
            exact List.getLast?_concat

/-! ## What the data plane finds -/

/-- An accepted selector that is confined stays in the namespace of its route. -/
theorem selector_in_namespace (hfind : Documented find) (h : compileConfig files = .ok a)
    (hd : (path, Loaded.document (.routeBinding d)) ∈ files) (hx : d.uriRegex = some x)
    (hc : Confined d x uri) :
    d.path = namespaceOf d.path ++ "*" ∧ InNamespace find d x uri := by
  refine ⟨(selector_text h hd hx).1, fun first last hfound => ?_⟩
  obtain ⟨r, hr, hconfined⟩ := hc.reading
  have hsearch := hfind x uri r _ hr hfound
  obtain ⟨rfl, hfront, hfinish⟩ := Pattern.search_confined hconfined hsearch
  refine ⟨hfront, rfl, ?_⟩
  simp only [Pattern.Anchor.holds, Bool.or_eq_true, decide_eq_true_eq, Bool.and_eq_true] at hfinish
  rcases hfinish with hlast | ⟨hlast, hnewline⟩
  · exact hlast
  · refine absurd ?_ hc.line
    rw [List.getLast?_eq_getElem?, ← hlast]
    exact hnewline

/-- The compiler's own checks are enough for an expression without alternatives whose prefix is
literal text and whose `$` is not escaped. -/
theorem confined_of_accepted (h : compileConfig files = .ok a)
    (hd : (path, Loaded.document (.routeBinding d)) ∈ files) (hx : d.uriRegex = some x)
    {r : Pattern.Reading} (hr : Pattern.read x.toList = some r) (hothers : r.others = [])
    (hliteral : Pattern.literal (namespaceOf d.path).toList
      (x.toList.drop ((namespaceOf d.path).length + 1)) = true)
    (hescaped : r.first.getLast? ≠ some (.char '$')) (hline : uri.toList.getLast? ≠ some '\n') :
    Confined d x uri := by
  obtain ⟨-, ⟨rest, hrest⟩, hlast⟩ := selector_text h hd hx
  rw [hrest] at hr hlast hliteral
  have hdrop : ('^' :: ((namespaceOf d.path).toList ++ rest)).drop ((namespaceOf d.path).length + 1) =
      rest := by
    rw [List.drop_succ_cons]
    exact List.drop_left
  rw [hdrop] at hliteral
  exact ⟨⟨r, hrest ▸ hr, Pattern.confined_of_written hliteral hr hothers hlast hescaped⟩, hline⟩

/-! ## Selectors of one park -/

/-- A search that does with every expression what `Pattern` says, and finds nothing with the
others. -/
def searchUri (x uri : String) : Option (Nat × Nat) := Pattern.searchText x.toList uri.toList

theorem documented_searchUri : Documented searchUri := by
  intro x uri r found hr hfound
  rwa [searchUri, Pattern.searchText, hr, Option.bind_some] at hfound

def oneSelector (x : String) : List (String × Loaded) :=
  [("parks.yaml", .document (.sourceRuntimeProfile parks)),
    ("read.yaml", .document (.capability readParks)),
    ("route.yaml", .document (.routeBinding (parkRoute "park" x)))]

def oneRoute (x : String) : Artifact :=
  sealed (byId [emitRoute (parkRoute "park" x) readParks parks])

theorem mem_oneSelector (x : String) :
    ("route.yaml", Loaded.document (.routeBinding (parkRoute "park" x))) ∈ oneSelector x :=
  List.mem_cons_of_mem _ (List.mem_cons_of_mem _ List.mem_cons_self)

theorem selector_in_parks :
    (parkRoute "park" "^/parks/[a-z]+(/notes)?$").path = "/parks/" ++ "*" ∧
      InNamespace searchUri (parkRoute "park" "^/parks/[a-z]+(/notes)?$")
        "^/parks/[a-z]+(/notes)?$" "/parks/oak/notes" :=
  selector_in_namespace documented_searchUri
    (show compileConfig (oneSelector "^/parks/[a-z]+(/notes)?$") = .ok (oneRoute _) from rfl)
    (mem_oneSelector _) rfl ⟨⟨_, rfl, by decide⟩, by decide⟩

/-- With an alternative of its own the `$` finds what is in no park, and it finds a park with a
line of its own behind it. -/
theorem selector_leaves_parks :
    compileConfig (oneSelector "^/parks/|/oak$") = .ok (oneRoute "^/parks/|/oak$") ∧
      compileConfig (oneSelector "^/parks/oak$") = .ok (oneRoute "^/parks/oak$") ∧
      Documented searchUri ∧
      searchUri "^/parks/|/oak$" "/wild/oak" = some (5, 9) ∧
      ¬ InNamespace searchUri (parkRoute "park" "^/parks/|/oak$") "^/parks/|/oak$" "/wild/oak" ∧
      searchUri "^/parks/oak$" "/parks/oak\n" = some (0, 10) ∧
      ¬ InNamespace searchUri (parkRoute "park" "^/parks/oak$") "^/parks/oak$" "/parks/oak\n" := by
  have hwild : searchUri "^/parks/|/oak$" "/wild/oak" = some (5, 9) := by decide
  have hline : searchUri "^/parks/oak$" "/parks/oak\n" = some (0, 10) := by decide
  refine ⟨rfl, rfl, documented_searchUri, hwild, fun h => ?_, hline, fun h => ?_⟩
  · exact absurd (h _ _ hwild).2.1 (by decide)
  · exact absurd (h _ _ hline).2.2 (by decide)

end OufGateway.CompileConfig
