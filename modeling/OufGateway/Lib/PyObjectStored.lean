import OufGateway.Lib.PyObject

/-!
# What is left of a Python object that was written and read

Two inductions. Going out, an object without numbers for keys, tuples and NaNs
is written with the members of its dictionaries in order, and two objects that
are written alike are equal (`eqv_of_encode`). Coming back, an object that equals
a value that was read has none of these in it (`shaped_of_eqv`): a key that is
no string equals none of the strings the dictionary was read with, and there are
as many of them. What is left is surrogate halves, which are together in what
was read. The two meet in `survives_iff`.
-/

namespace OufGateway.Lib.PyObject

open OufGateway.Lib.PyJson
open Encoding (Points)

variable {F : Type} (numbers : Numbers F)

def Key.Valid : Key F → Prop
  | .str s => PyJson.Valid s
  | _ => True

/-- Strings of code points, and no two keys of a dictionary that are equal. -/
inductive WellFormed : Object F → Prop
  | none : WellFormed .none
  | bool (b : Bool) : WellFormed (.bool b)
  | int (n : Int) : WellFormed (.int n)
  | float (x : F) : WellFormed (.float x)
  | str {s : Points} (h : PyJson.Valid s) : WellFormed (.str s)
  | list {xs : List (Object F)} (h : ∀ x ∈ xs, WellFormed x) : WellFormed (.list xs)
  | tuple {xs : List (Object F)} (h : ∀ x ∈ xs, WellFormed x) : WellFormed (.tuple xs)
  | dict {ms : List (Key F × Object F)}
      (hkeys : ms.Pairwise fun m n => m.1.eqv numbers n.1 = false)
      (hvalid : ∀ m ∈ ms, m.1.Valid) (h : ∀ m ∈ ms, WellFormed m.2) : WellFormed (.dict ms)
  | other (tag : Nat) : WellFormed (.other tag)

/-- Only strings for keys, no tuples and no NaNs; and strings with a property. -/
inductive Shaped (P : Points → Prop) : Object F → Prop
  | none : Shaped P .none
  | bool (b : Bool) : Shaped P (.bool b)
  | int (n : Int) : Shaped P (.int n)
  | float {x : F} (h : numbers.text x ≠ "NaN".toList) : Shaped P (.float x)
  | str {s : Points} (h : P s) : Shaped P (.str s)
  | list {xs : List (Object F)} (h : ∀ x ∈ xs, Shaped P x) : Shaped P (.list xs)
  | dict {ms : List (Key F × Object F)} (hkeys : ∀ m ∈ ms, ∃ s, m.1 = .str s ∧ P s)
      (h : ∀ m ∈ ms, Shaped P m.2) : Shaped P (.dict ms)

/-- Its strings are not changed by being written and read either. -/
abbrev Storable (v : Object F) : Prop := Shaped numbers (fun s => merge s = s) v

/-- Floats that are read where they were written, and equal themselves if they are no NaN. -/
structure Numbers.Exact (numbers : Numbers F) : Prop where
  text : ∀ x, FloatText numbers.toFloats x
  reread : ∀ x, numbers.text x ≠ "NaN".toList → reread numbers.toFloats x = x
  same_int : ∀ n, numbers.same (.int n) (.int n) = true
  same_float : ∀ x, numbers.text x ≠ "NaN".toList → numbers.same (.float x) (.float x) = true
  nan : ∀ a x, numbers.text x = "NaN".toList → numbers.same a (.float x) = false

variable {numbers}

/-! ## Keys -/

theorem eqv_str {s : Points} {k : Key F} : (Key.str s).eqv numbers k = true ↔ k = .str s := by
  cases k with
  | str t =>
      rw [Key.eqv, decide_eq_true_eq, Key.str.injEq]
      exact eq_comm
  | _ => simp [Key.eqv, sameNumber, Key.number?]

/-- A key is looked up where it is. -/
theorem find_str {ms : List (Key F × Object F)} {s : Points} {x : Object F}
    (hkeys : ms.Pairwise fun m n => m.1.eqv numbers n.1 = false) (h : (.str s, x) ∈ ms) :
    ms.find? (fun m => (Key.str s).eqv numbers m.1) = some (.str s, x) := by
  induction ms with
  | nil => cases h
  | cons m ms ih =>
      obtain ⟨hm, hrest⟩ := List.pairwise_cons.mp hkeys
      rcases List.mem_cons.mp h with rfl | h
      · exact List.find?_cons_of_pos (eqv_str.mpr rfl)
      · have hne : ¬ (Key.str s).eqv numbers m.1 = true := by
          intro heq
          have hself := hm _ h
          rw [eqv_str.mp heq, eqv_str.mpr rfl] at hself
          cases hself
        simp only [List.find?_cons, hne]
        exact ih hrest h

/-- The members of a dictionary that has them all, under strings. -/
theorem eqvMembers_of {ms ns : List (Key F × Object F)}
    (hkeys : ns.Pairwise fun m n => m.1.eqv numbers n.1 = false)
    (h : ∀ m ∈ ms, ∃ s y, m.1 = .str s ∧ (.str s, y) ∈ ns ∧ m.2.eqv numbers y = true) :
    eqvMembers numbers ms ns = true := by
  induction ms with
  | nil => rfl
  | cons m ms ih =>
      obtain ⟨k, x⟩ := m
      obtain ⟨s, y, rfl, hmem, hy⟩ := h _ List.mem_cons_self
      have hy : x.eqv numbers y = true := hy
      rw [eqvMembers, find_str hkeys hmem, ih fun m hm => h m (List.mem_cons_of_mem _ hm)]
      simp only [hy, Bool.and_self]

theorem of_eqvMembers {ms ns : List (Key F × Object F)} (h : eqvMembers numbers ms ns = true)
    {m : Key F × Object F} (hm : m ∈ ms) :
    ∃ n ∈ ns, m.1.eqv numbers n.1 = true ∧ m.2.eqv numbers n.2 = true := by
  induction ms with
  | nil => cases hm
  | cons m' ms ih =>
      obtain ⟨k, x⟩ := m'
      rw [eqvMembers, Bool.and_eq_true] at h
      rcases List.mem_cons.mp hm with rfl | hm
      · cases hfind : ns.find? fun n => k.eqv numbers n.1 with
        | none => simp [hfind] at h
        | some n =>
            rw [hfind] at h
            have hkey := List.find?_some hfind
            exact ⟨n, List.mem_of_find?_eq_some hfind, hkey, h.1⟩
      · exact ih h.2 hm

theorem eqvItems_iff {xs ys : List (Object F)} :
    eqvItems numbers xs ys = true ↔ List.Forall₂ (fun x y => x.eqv numbers y = true) xs ys := by
  induction xs generalizing ys with
  | nil => cases ys <;> simp [eqvItems]
  | cons x xs ih => cases ys <;> simp [eqvItems, ih]

/-! ## What is written of a shaped object -/

theorem encodeItems_iff {depth : Nat} {xs : List (Object F)} {ys : List (Value F)} :
    encodeItems numbers depth xs = some ys ↔
      List.Forall₂ (fun x y => encode numbers depth x = some y) xs ys := by
  induction xs generalizing ys with
  | nil => cases ys <;> simp [encodeItems]
  | cons x xs ih =>
      rw [encodeItems]
      simp only [Option.bind_eq_some_iff, Option.map_eq_some_iff, List.forall₂_cons_left_iff, ih]
      constructor
      · rintro ⟨y, hy, ys, hys, rfl⟩
        exact ⟨y, ys, hy, hys, rfl⟩
      · rintro ⟨y, ys, hy, hys, rfl⟩
        exact ⟨y, hy, ys, hys, rfl⟩

theorem encodeMembers_iff {depth : Nat} {ms : List (Key F × Object F)} {ns : List (Key F × Value F)} :
    encodeMembers numbers depth ms = some ns ↔
      List.Forall₂ (fun m n => n.1 = m.1 ∧ encode numbers depth m.2 = some n.2) ms ns := by
  induction ms generalizing ns with
  | nil => cases ns <;> simp [encodeMembers]
  | cons m ms ih =>
      obtain ⟨k, x⟩ := m
      rw [encodeMembers]
      simp only [Option.bind_eq_some_iff, Option.map_eq_some_iff, List.forall₂_cons_left_iff, ih]
      constructor
      · rintro ⟨y, hy, ns, hns, rfl⟩
        exact ⟨(k, y), ns, ⟨rfl, hy⟩, hns, rfl⟩
      · rintro ⟨⟨_, y⟩, ns, ⟨rfl, hy⟩, hns, rfl⟩
        exact ⟨y, hy, ns, hns, rfl⟩

/-- A member under its key, as an object has it. -/
def tagged (m : Points × Value F) : Key F × Value F := (.str m.1, m.2)

theorem keyed_str {ns : List (Key F × Value F)} {js : List (Points × Value F)}
    (hstr : ∀ n ∈ ns, ∃ s, n.1 = .str s) (h : keyed numbers ns = some js) : ns = js.map tagged := by
  induction ns generalizing js with
  | nil =>
      obtain rfl := Option.some.inj h
      rfl
  | cons n ns ih =>
      obtain ⟨k, x⟩ := n
      obtain ⟨s, rfl : k = .str s⟩ := hstr _ List.mem_cons_self
      unfold keyed at ih h
      simp only [List.mapM_cons, Key.text?, Option.map_some, Option.bind_eq_bind, Option.bind_some,
        Option.bind_eq_some_iff, Option.pure_def, Option.some.injEq] at h
      obtain ⟨js', hjs, rfl⟩ := h
      rw [List.map_cons, ← ih (fun n hn => hstr n (List.mem_cons_of_mem _ hn)) hjs]
      rfl

theorem Forall₂.left {α β : Type} {R : α → β → Prop} {xs : List α} {ys : List β}
    (h : List.Forall₂ R xs ys) {x : α} (hx : x ∈ xs) : ∃ y ∈ ys, R x y := by
  induction h with
  | nil => cases hx
  | cons hxy _ ih =>
      rcases List.mem_cons.mp hx with rfl | hx
      · exact ⟨_, List.mem_cons_self, hxy⟩
      · obtain ⟨y, hy, hr⟩ := ih hx
        exact ⟨y, List.mem_cons_of_mem _ hy, hr⟩

theorem Forall₂.right {α β : Type} {R : α → β → Prop} {xs : List α} {ys : List β}
    (h : List.Forall₂ R xs ys) {y : β} (hy : y ∈ ys) : ∃ x ∈ xs, R x y :=
  Forall₂.left h.flip hy

theorem Forall₂.turn {α β : Type} {R : α → β → Prop} {S : β → α → Prop} {xs : List α} {ys : List β}
    (h : List.Forall₂ R xs ys) (himp : ∀ x ∈ xs, ∀ y, R x y → S y x) : List.Forall₂ S ys xs := by
  induction h with
  | nil => exact .nil
  | cons hxy _ ih =>
      exact .cons (himp _ List.mem_cons_self _ hxy)
        (ih fun x hx => himp x (List.mem_cons_of_mem _ hx))

/-- The members that are written of a dictionary whose keys are strings. -/
structure Written (numbers : Numbers F) (depth : Nat) (ms : List (Key F × Object F))
    (js : List (Points × Value F)) : Prop where
  member : ∀ s x, (.str s, x) ∈ ms → ∃ y, encode numbers depth x = some y ∧ (s, y) ∈ js
  origin : ∀ s y, (s, y) ∈ js → ∃ x, (.str s, x) ∈ ms ∧ encode numbers depth x = some y
  keys : (js.map fun j => Key.str j.1).Perm (ms.map (·.1))

theorem encode_dict {depth : Nat} {ms : List (Key F × Object F)} {v : Value F}
    (hstr : ∀ m ∈ ms, ∃ s, m.1 = .str s) (h : encode numbers depth (.dict ms) = some v) :
    ∃ rest js, depth = rest + 1 ∧ v = .obj js ∧ Written numbers rest ms js := by
  cases depth with
  | zero => cases h
  | succ depth =>
      simp only [encode, Option.bind_eq_some_iff, Option.ite_none_right_eq_some,
        Option.map_eq_some_iff] at h
      obtain ⟨ns, hns, -, js, hjs, rfl⟩ := h
      have hpairs := encodeMembers_iff.mp hns
      have hperm : (sortMembers numbers ns).Perm ns := List.mergeSort_perm _ _
      have hkeys : ∀ n ∈ sortMembers numbers ns, ∃ s, n.1 = .str s := by
        intro n hn
        obtain ⟨m, hm, hkey, -⟩ := Forall₂.right hpairs (hperm.mem_iff.mp hn)
        rw [hkey]
        exact hstr m hm
      have hsorted := keyed_str hkeys hjs
      rw [hsorted] at hperm
      refine ⟨depth, js, rfl, rfl, fun s x hx => ?_, fun s y hy => ?_, ?_⟩
      · obtain ⟨⟨k, y⟩, hn, hkey, hy⟩ := Forall₂.left hpairs hx
        obtain ⟨⟨s', y'⟩, hj, heq⟩ := List.mem_map.mp (hperm.mem_iff.mpr hn)
        obtain ⟨rfl, rfl⟩ := Prod.mk.inj heq
        obtain rfl := Key.str.inj hkey
        exact ⟨_, hy, hj⟩
      · obtain ⟨⟨k, x⟩, hm, hkey, hx⟩ := Forall₂.right hpairs (hperm.mem_iff.mp (List.mem_map_of_mem hy))
        obtain rfl : Key.str s = k := hkey
        exact ⟨x, hm, hx⟩
      · have hmap : ns.map (·.1) = ms.map (·.1) := by
          have heq : List.Forall₂ (fun m n => m.1 = n.1) ms ns := hpairs.imp fun m n h => h.1.symm
          have hall : List.Forall₂ Eq (ms.map (·.1)) (ns.map (·.1)) :=
            List.forall₂_map_left_iff.mpr (List.forall₂_map_right_iff.mpr heq)
          rw [List.forall₂_eq_eq_eq] at hall
          exact hall.symm
        rw [← hmap]
        simpa [List.map_map, Function.comp_def, tagged] using hperm.map (·.1)

theorem storedItems_eq {floats : Floats F} {xs : List (Value F)}
    (h : ∀ x ∈ xs, stored floats x = x) : storedItems floats xs = xs := by
  induction xs with
  | nil => rfl
  | cons x xs ih =>
      rw [storedItems, h x List.mem_cons_self, ih fun y hy => h y (List.mem_cons_of_mem _ hy)]

theorem storedMembers_eq {floats : Floats F} {ms : List (Points × Value F)}
    (h : ∀ m ∈ ms, merge m.1 = m.1 ∧ stored floats m.2 = m.2) : storedMembers floats ms = ms := by
  induction ms with
  | nil => rfl
  | cons m ms ih =>
      obtain ⟨hkey, hvalue⟩ := h m List.mem_cons_self
      rw [storedMembers, hkey, hvalue, ih fun n hn => h n (List.mem_cons_of_mem _ hn)]

section

variable {P : Points → Prop} {depth : Nat} {v : Object F} {j : Value F}

theorem strs (hkeys : ∀ m ∈ (ms : List (Key F × Object F)), ∃ s, m.1 = .str s ∧ P s) :
    ∀ m ∈ ms, ∃ s, m.1 = .str s := fun m hm => (hkeys m hm).imp fun _ h => h.1

theorem nodup_keys {ms : List (Key F × Object F)} (hstr : ∀ m ∈ ms, ∃ s, m.1 = .str s)
    (hkeys : ms.Pairwise fun m n => m.1.eqv numbers n.1 = false) : (ms.map (·.1)).Nodup := by
  refine List.pairwise_map.mpr (hkeys.imp_of_mem fun {m n} hm _ hdistinct heq => ?_)
  obtain ⟨s, hs⟩ := hstr m hm
  rw [← heq, hs, eqv_str.mpr rfl] at hdistinct
  cases hdistinct

theorem map_str (js : List (Points × Value F)) :
    (js.map fun j => (Key.str j.1 : Key F)) = (js.map (·.1)).map .str :=
  (List.map_map ..).symm

/-- The keys that are written are those of the dictionary, each once. -/
theorem Written.nodup {ms : List (Key F × Object F)} {js : List (Points × Value F)}
    (h : Written numbers depth ms js) (hstr : ∀ m ∈ ms, ∃ s, m.1 = .str s)
    (hkeys : ms.Pairwise fun m n => m.1.eqv numbers n.1 = false) : (js.map (·.1)).Nodup := by
  have hjs := h.keys.nodup_iff.mpr (nodup_keys hstr hkeys)
  rw [map_str] at hjs
  exact hjs.of_map

/-- What a shaped object is written as. -/
inductive Encodes (numbers : Numbers F) : Nat → Object F → Value F → Prop
  | none {depth : Nat} : Encodes numbers depth .none .null
  | bool {depth : Nat} (b : Bool) : Encodes numbers depth (.bool b) (.bool b)
  | int {depth : Nat} {n : Int} (h : digitsFit n = true) : Encodes numbers depth (.int n) (.int n)
  | float {depth : Nat} (x : F) : Encodes numbers depth (.float x) (.float x)
  | str {depth : Nat} (s : Points) : Encodes numbers depth (.str s) (.str s)
  | list {depth : Nat} {xs : List (Object F)} {ys : List (Value F)}
      (h : List.Forall₂ (fun x y => encode numbers depth x = some y) xs ys) :
      Encodes numbers (depth + 1) (.list xs) (.arr ys)
  | dict {depth : Nat} {ms : List (Key F × Object F)} {js : List (Points × Value F)}
      (h : Written numbers depth ms js) : Encodes numbers (depth + 1) (.dict ms) (.obj js)

theorem encodes (hv : Shaped numbers P v) (h : encode numbers depth v = some j) :
    Encodes numbers depth v j := by
  cases hv with
  | none =>
      obtain rfl := Option.some.inj h
      exact .none
  | bool b =>
      obtain rfl := Option.some.inj h
      exact .bool b
  | int n =>
      simp only [encode, Option.ite_none_right_eq_some, Option.some.injEq] at h
      obtain ⟨hn, rfl⟩ := h
      exact .int hn
  | float hx =>
      obtain rfl := Option.some.inj h
      exact .float _
  | str hs =>
      obtain rfl := Option.some.inj h
      exact .str _
  | list hxs =>
      cases depth with
      | zero => cases h
      | succ depth =>
          simp only [encode, Option.map_eq_some_iff, encodeItems_iff] at h
          obtain ⟨ys, hys, rfl⟩ := h
          exact .list hys
  | dict hkeys hms =>
      obtain ⟨depth, js, rfl, rfl, hw⟩ := encode_dict (strs hkeys) h
      exact .dict hw

theorem fits_encode {Q : F → Prop} (hfloat : ∀ x, Q x) (hv : Shaped numbers P v)
    (hwf : WellFormed numbers v) (h : encode numbers depth v = some j) : Fits Q depth j := by
  induction hv generalizing depth j with
  | none =>
      cases encodes (P := P) .none h
      exact .null
  | bool b =>
      cases encodes (P := P) (.bool b) h
      exact .bool b
  | int n =>
      cases encodes (P := P) (.int n) h with
      | int hn => exact .int (of_decide_eq_true hn)
  | float hx =>
      cases encodes (P := P) (.float hx) h
      exact .float (hfloat _)
  | str hs =>
      cases encodes (.str hs) h
      cases hwf with
      | str hvalid => exact .str hvalid
  | list hxs ih =>
      cases hwf with
      | list hwf =>
      cases encodes (.list hxs) h with
      | list hys =>
          refine .arr fun y hy => ?_
          obtain ⟨x, hx, hxy⟩ := Forall₂.right hys hy
          exact ih x hx (hwf x hx) hxy
  | dict hkeys hms ih =>
      cases hwf with
      | dict hdistinct hvalid hwf =>
      cases encodes (.dict hkeys hms) h with
      | dict hw =>
          refine .obj (fun m hm => ?_) (hw.nodup (strs hkeys) hdistinct) fun m hm => ?_
          · obtain ⟨x, hx, -⟩ := hw.origin m.1 m.2 hm
            exact hvalid _ hx
          · obtain ⟨x, hx, hy⟩ := hw.origin m.1 m.2 hm
            exact ih _ hx (hwf _ hx) hy

/-- What is read of a storable object is what was written. -/
theorem stored_encode (hexact : numbers.Exact) (hv : Storable numbers v)
    (hwf : WellFormed numbers v) (h : encode numbers depth v = some j) :
    stored numbers.toFloats j = j := by
  induction hv generalizing depth j with
  | none =>
      cases encodes (P := fun _ => True) .none h
      rfl
  | bool b =>
      cases encodes (P := fun _ => True) (.bool b) h
      rfl
  | int n =>
      cases encodes (P := fun _ => True) (.int n) h
      rfl
  | float hx =>
      cases encodes (P := fun _ => True) (.float hx) h
      rw [stored, hexact.reread _ hx]
  | str hs =>
      cases encodes (P := fun _ => True) (.str trivial) h
      rw [stored, hs]
  | list hxs ih =>
      cases hwf with
      | list hwf =>
      cases encodes (.list hxs) h with
      | list hys =>
          rw [stored, storedItems_eq fun y hy => ?_]
          obtain ⟨x, hx, hxy⟩ := Forall₂.right hys hy
          exact ih x hx (hwf x hx) hxy
  | dict hkeys hms ih =>
      cases hwf with
      | dict hdistinct hvalid hwf =>
      cases encodes (.dict hkeys hms) h with
      | dict hw =>
          rw [stored, storedMembers_eq fun m hm => ?_, dict_of_nodup (hw.nodup (strs hkeys) hdistinct)]
          obtain ⟨x, hx, hy⟩ := hw.origin m.1 m.2 hm
          obtain ⟨s, hs, hmerge⟩ := hkeys _ hx
          obtain rfl := Key.str.inj hs
          exact ⟨hmerge, ih _ hx (hwf _ hx) hy⟩

/-- Two lists that are written alike, item by item. -/
theorem eqvItems_of_encode {xs us : List (Object F)} {ys : List (Value F)}
    (h : List.Forall₂ (fun x y => encode numbers depth x = some y) xs ys)
    (h' : List.Forall₂ (fun u y => encode numbers depth u = some y) us ys)
    (heqv : ∀ x ∈ xs, ∀ u ∈ us, ∀ y, encode numbers depth x = some y →
      encode numbers depth u = some y → x.eqv numbers u = true) :
    eqvItems numbers xs us = true := by
  induction h generalizing us with
  | nil =>
      cases h'
      rfl
  | @cons x y xs ys hx hxs ih =>
      obtain ⟨u, us', hu, hus, rfl⟩ := List.forall₂_cons_right_iff.mp h'
      rw [eqvItems, heqv x List.mem_cons_self u List.mem_cons_self y hx hu,
        ih hus fun x hx u hu => heqv x (List.mem_cons_of_mem _ hx) u (List.mem_cons_of_mem _ hu)]
      rfl

/-- Two objects that are written alike are equal. -/
theorem eqv_of_encode (hexact : numbers.Exact) {Q : Points → Prop} {u : Object F}
    (hv : Shaped numbers P v) (hu : Shaped numbers Q u) (hwf : WellFormed numbers u)
    (h : encode numbers depth v = some j) (h' : encode numbers depth u = some j) :
    v.eqv numbers u = true := by
  induction hv generalizing depth j u with
  | none =>
      cases encodes (P := P) .none h
      cases encodes hu h'
      rfl
  | bool b =>
      cases encodes (P := P) (.bool b) h
      cases encodes hu h'
      exact hexact.same_int _
  | int n =>
      cases encodes (P := P) (.int n) h
      cases encodes hu h'
      exact hexact.same_int n
  | float hx =>
      cases encodes (P := P) (.float hx) h
      cases encodes hu h'
      exact hexact.same_float _ hx
  | str hs =>
      cases encodes (.str hs) h
      cases encodes hu h'
      exact decide_eq_true rfl
  | list hxs ih =>
      cases encodes (.list hxs) h with
      | list hys =>
      cases encodes hu h' with
      | list hus =>
      cases hu with
      | list hu =>
      cases hwf with
      | list hwf =>
          exact eqvItems_of_encode hys hus fun x hx u hmem y hxy huy =>
            ih x hx (hu u hmem) (hwf u hmem) hxy huy
  | dict hkeys hms ih =>
      cases encodes (.dict hkeys hms) h with
      | dict hw =>
      cases encodes hu h' with
      | dict hw' =>
      cases hu with
      | dict hukeys hu =>
      cases hwf with
      | dict hdistinct hvalid hwf =>
          have hlength := hw.keys.length_eq.symm.trans hw'.keys.length_eq
          simp only [List.length_map] at hlength
          rw [Object.eqv, hlength, eqvMembers_of hdistinct fun m hm => ?_]
          · simp
          · obtain ⟨s, hs, -⟩ := hkeys m hm
            obtain ⟨k, x⟩ := m
            obtain rfl : k = .str s := hs
            obtain ⟨y, hxy, hy⟩ := hw.member s x hm
            obtain ⟨u, hmem, huy⟩ := hw'.origin s y hy
            exact ⟨s, u, rfl, hmem, ih _ hm (hu _ hmem) (hwf _ hmem) hxy huy⟩

theorem ofItems_eq (ys : List (Value F)) : ofItems ys = ys.map ofValue := by
  induction ys with
  | nil => rfl
  | cons y ys ih => rw [ofItems, ih, List.map_cons]

theorem ofMembers_eq (js : List (Points × Value F)) :
    ofMembers js = js.map fun j => (.str j.1, ofValue j.2) := by
  induction js with
  | nil => rfl
  | cons j js ih =>
      obtain ⟨k, x⟩ := j
      rw [ofMembers, ih, List.map_cons]

/-- What was written equals what it was written of. -/
theorem eqv_encode (hexact : numbers.Exact) (hv : Shaped numbers P v)
    (hwf : WellFormed numbers v) (h : encode numbers depth v = some j) :
    (ofValue j).eqv numbers v = true := by
  induction hv generalizing depth j with
  | none =>
      cases encodes (P := P) .none h
      rfl
  | bool b =>
      cases encodes (P := P) (.bool b) h
      exact hexact.same_int _
  | int n =>
      cases encodes (P := P) (.int n) h
      exact hexact.same_int n
  | float hx =>
      cases encodes (P := P) (.float hx) h
      exact hexact.same_float _ hx
  | str hs =>
      cases encodes (.str hs) h
      exact decide_eq_true rfl
  | list hxs ih =>
      cases hwf with
      | list hwf =>
      cases encodes (.list hxs) h with
      | list hys =>
          rw [ofValue, Object.eqv, ofItems_eq, eqvItems_iff, List.forall₂_map_left_iff]
          exact Forall₂.turn hys fun x hx y hxy => ih x hx (hwf x hx) hxy
  | dict hkeys hms ih =>
      cases hwf with
      | dict hdistinct hvalid hwf =>
      cases encodes (.dict hkeys hms) h with
      | dict hw =>
          have hlength := hw.keys.length_eq
          simp only [List.length_map] at hlength
          rw [ofValue, Object.eqv, ofMembers_eq, eqvMembers_of hdistinct fun m hm => ?_]
          · simp [hlength]
          · obtain ⟨⟨s, y⟩, hy, rfl⟩ := List.mem_map.mp hm
            obtain ⟨x, hx, hxy⟩ := hw.origin s y hy
            exact ⟨s, x, rfl, hx, ih _ hx (hwf _ hx) hxy⟩

/-! ## What equals a value that was read -/

/-- Strings with a property, in keys and elsewhere, and no key twice. -/
inductive Texts (P : Points → Prop) : Value F → Prop
  | null : Texts P .null
  | bool (b : Bool) : Texts P (.bool b)
  | int (n : Int) : Texts P (.int n)
  | float (x : F) : Texts P (.float x)
  | str {s : Points} (h : P s) : Texts P (.str s)
  | arr {xs : List (Value F)} (h : ∀ x ∈ xs, Texts P x) : Texts P (.arr xs)
  | obj {ms : List (Points × Value F)} (hkeys : ∀ m ∈ ms, P m.1) (hnodup : (ms.map (·.1)).Nodup)
      (h : ∀ m ∈ ms, Texts P m.2) : Texts P (.obj ms)

theorem texts_of_fits {Q : F → Prop} (h : Fits Q depth j) : Texts (fun _ => True) j := by
  induction h with
  | null => exact .null
  | bool b => exact .bool b
  | int hn => exact .int _
  | float hx => exact .float _
  | str hs => exact .str trivial
  | arr hxs ih => exact .arr ih
  | obj hkeys hnodup hms ih => exact .obj (fun _ _ => trivial) hnodup ih

theorem merge_merge {s : Points} (hs : PyJson.Valid s) (hm : PyJson.Valid (merge s)) :
    merge (merge s) = merge s :=
  (quote_eq_iff hm hs).mp (quote_merge hs)

theorem shaped_number {a : Number F} {u : Object F} (hexact : numbers.Exact)
    (h : sameNumber numbers (some a) u.number? = true) : Shaped numbers P u := by
  cases u with
  | bool b => exact .bool b
  | int n => exact .int n
  | float x =>
      refine .float fun hnan => ?_
      rw [Object.number?, sameNumber, hexact.nan a x hnan] at h
      cases h
  | _ => cases h

/-- An object that equals a value that was read has strings for keys, and no tuples and NaNs. -/
theorem shaped_of_eqv (hexact : numbers.Exact) (hj : Texts P j) (hwf : WellFormed numbers v)
    (h : (ofValue j).eqv numbers v = true) : Shaped numbers P v := by
  induction hj generalizing v with
  | null =>
      cases v with
      | none => exact .none
      | _ => cases h
  | bool b => exact shaped_number hexact (a := ofBool b) (by cases v <;> exact h)
  | int n => exact shaped_number hexact (a := .int n) (by cases v <;> exact h)
  | float x => exact shaped_number hexact (a := .float x) (by cases v <;> exact h)
  | str hs =>
      cases v with
      | str s =>
          obtain rfl := of_decide_eq_true h
          exact .str hs
      | _ => cases h
  | arr hxs ih =>
      cases v with
      | list us =>
          cases hwf with
          | list hwf =>
          rw [ofValue, Object.eqv, ofItems_eq, eqvItems_iff, List.forall₂_map_left_iff] at h
          refine .list fun u hu => ?_
          obtain ⟨x, hx, hxu⟩ := Forall₂.right h hu
          exact ih x hx (hwf u hu) hxu
      | _ => cases h
  | @obj ms hkeys hnodup hms ih =>
      cases v with
      | dict ns =>
          cases hwf with
          | dict hdistinct hvalid hwf =>
          rw [ofValue, Object.eqv, ofMembers_eq, Bool.and_eq_true, decide_eq_true_eq] at h
          obtain ⟨hlength, hmembers⟩ := h
          have hmem : ∀ m ∈ ms, ∃ n ∈ ns, n.1 = .str m.1 ∧ (ofValue m.2).eqv numbers n.2 = true := by
            intro m hm
            obtain ⟨n, hn, hkey, hvalue⟩ := of_eqvMembers hmembers (List.mem_map_of_mem hm)
            exact ⟨n, hn, eqv_str.mp hkey, hvalue⟩
          -- The keys that were read are among those of the dictionary, which has no more of them.
          have hperm : (ms.map fun m => (Key.str m.1 : Key F)).Perm (ns.map (·.1)) := by
            have hstr : (ms.map fun m => (Key.str m.1 : Key F)).Nodup := by
              rw [map_str]
              exact hnodup.map fun _ _ h => Key.str.inj h
            refine (List.subperm_of_subset hstr fun k hk => ?_).perm_of_length_le ?_
            · obtain ⟨m, hm, rfl⟩ := List.mem_map.mp hk
              obtain ⟨n, hn, hkey, -⟩ := hmem m hm
              exact hkey ▸ List.mem_map_of_mem hn
            · simpa using hlength.ge
          have horigin : ∀ n ∈ ns, ∃ m ∈ ms, n.1 = .str m.1 := by
            intro n hn
            obtain ⟨m, hm, hkey⟩ := List.mem_map.mp (hperm.mem_iff.mpr (List.mem_map_of_mem hn))
            exact ⟨m, hm, hkey.symm⟩
          refine .dict (fun n hn => ?_) fun n hn => ?_
          · obtain ⟨m, hm, hkey⟩ := horigin n hn
            exact ⟨m.1, hkey, hkeys m hm⟩
          · obtain ⟨m, hm, hkey⟩ := horigin n hn
            obtain ⟨n', hn', hkey', hvalue⟩ := hmem m hm
            have hstrs : ∀ n ∈ ns, ∃ s, n.1 = .str s := fun n hn =>
              (horigin n hn).imp' Prod.fst fun _ h => h.2
            have hsame : n' = n := by
              have hinj := List.inj_on_of_nodup_map (nodup_keys hstrs hdistinct)
              exact hinj hn' hn (hkey'.trans hkey.symm)
            exact ih m hm (hwf n hn) (hsame ▸ hvalue)
      | _ => cases h

theorem valid_merge {s : Points} (hs : PyJson.Valid s) : PyJson.Valid (merge s) := by
  induction s using merge.induct with
  | case1 => exact hs
  | case2 p => exact hs
  | case3 p q s hpair ih =>
      obtain ⟨hp, hq⟩ := Bool.and_eq_true_iff.mp hpair
      rw [merge, if_pos hpair]
      intro r hr
      rcases List.mem_cons.mp hr with hr | hr
      · rw [hr]
        exact combine_lt hp hq
      · exact ih (fun t ht => hs t (by simp [ht])) r hr
  | case4 p q s hpair ih =>
      rw [merge, if_neg hpair]
      intro r hr
      rcases List.mem_cons.mp hr with rfl | hr
      · exact hs r List.mem_cons_self
      · exact ih (fun t ht => hs t (List.mem_cons_of_mem _ ht)) r hr

theorem mem_storedItems {floats : Floats F} {xs : List (Value F)} {y : Value F}
    (h : y ∈ storedItems floats xs) : ∃ x ∈ xs, y = stored floats x := by
  induction xs with
  | nil => cases h
  | cons x xs ih =>
      rcases List.mem_cons.mp h with rfl | h
      · exact ⟨x, List.mem_cons_self, rfl⟩
      · obtain ⟨x, hx, hy⟩ := ih h
        exact ⟨x, List.mem_cons_of_mem _ hx, hy⟩

theorem mem_storedMembers {floats : Floats F} {ms : List (Points × Value F)} {n : Points × Value F}
    (h : n ∈ storedMembers floats ms) : ∃ m ∈ ms, n = (merge m.1, stored floats m.2) := by
  induction ms with
  | nil => cases h
  | cons m ms ih =>
      rcases List.mem_cons.mp h with rfl | h
      · exact ⟨m, List.mem_cons_self, rfl⟩
      · obtain ⟨m, hm, hn⟩ := ih h
        exact ⟨m, List.mem_cons_of_mem _ hm, hn⟩

/-- The halves of surrogate pairs are together in what was read. -/
theorem texts_stored {floats : Floats F} {Q : F → Prop} (h : Fits Q depth j) :
    Texts (fun s => merge s = s) (stored floats j) := by
  induction h with
  | null => exact .null
  | bool b => exact .bool b
  | int hn => exact .int _
  | float hx => exact .float _
  | str hs => exact .str (merge_merge hs (valid_merge hs))
  | arr hxs ih =>
      refine .arr fun y hy => ?_
      obtain ⟨x, hx, rfl⟩ := mem_storedItems hy
      exact ih x hx
  | obj hkeys hnodup hms ih =>
      refine .obj (fun n hn => ?_) (nodup_dict _) fun n hn => ?_
      · obtain ⟨m, hm, rfl⟩ := mem_storedMembers (mem_dict hn)
        exact merge_merge (hkeys m hm) (valid_merge (hkeys m hm))
      · obtain ⟨m, hm, rfl⟩ := mem_storedMembers (mem_dict hn)
        exact ih m hm

/-- `json.loads` of a file that holds the text of a value, with blanks behind it. -/
theorem loads_written (floats : Floats F) {l : Layout} (hl : l.Blanks)
    (hj : Fits (FloatText floats) depth j) {bs : Points} (hbs : ∀ p ∈ bs, p = 10) :
    loads floats depth (Encoding.encode (write floats l 0 j ++ bs)) = .ok (stored floats j) := by
  have hblank : Blank bs := fun p hp => by rw [hbs p hp]; rfl
  have hascii : Ascii (write floats l 0 j ++ bs) := by
    intro p hp
    rcases List.mem_append.mp hp with hp | hp
    · exact ascii_write floats hl hj 0 p hp
    · rw [hbs p hp]
      decide
  rw [loads, Encoding.decode_encode hascii]
  exact loadsText_write floats hl hj hblank

/-- An object equals what is read where it was written exactly if it is storable. -/
theorem survives_iff (hexact : numbers.Exact) (hwf : WellFormed numbers v)
    (h : encode numbers depth v = some j) {l : Layout} (hl : l.Blanks) {bs : Points}
    (hbs : ∀ p ∈ bs, p = 10) :
    (∃ w, loads numbers.toFloats depth (Encoding.encode (write numbers.toFloats l 0 j ++ bs)) = .ok w ∧
      (ofValue w).eqv numbers v = true) ↔ Storable numbers v := by
  have hloads : ∀ {P : Points → Prop}, Shaped numbers P v →
      Fits (FloatText numbers.toFloats) depth j := fun hv => fits_encode hexact.text hv hwf h
  constructor
  · rintro ⟨w, hw, heqv⟩
    have hshaped := shaped_of_eqv hexact (texts_of_fits (readable_of_loads hw)) hwf heqv
    have hfits := hloads hshaped
    obtain rfl := Except.ok.inj ((loads_written numbers.toFloats hl hfits hbs).symm.trans hw)
    exact shaped_of_eqv hexact (texts_stored hfits) hwf heqv
  · intro hv
    refine ⟨j, ?_, eqv_encode hexact hv hwf h⟩
    rw [loads_written numbers.toFloats hl (hloads hv) hbs, stored_encode hexact hv hwf h]

/-- Storable objects that are written in the same text are equal. -/
theorem eqv_of_text (hexact : numbers.Exact) {u : Object F} {j' : Value F}
    (hv : Storable numbers v) (hu : Storable numbers u) (hwf : WellFormed numbers v)
    (hwf' : WellFormed numbers u) (h : encode numbers depth v = some j)
    (h' : encode numbers depth u = some j') {l : Layout} (hl : l.Blanks)
    (htext : write numbers.toFloats l 0 j = write numbers.toFloats l 0 j') :
    v.eqv numbers u = true := by
  have hread := loads_write numbers.toFloats hl (fits_encode hexact.text hv hwf h)
  rw [htext, loads_write numbers.toFloats hl (fits_encode hexact.text hu hwf' h'),
    stored_encode hexact hv hwf h, stored_encode hexact hu hwf' h'] at hread
  obtain rfl := Except.ok.inj hread
  exact eqv_of_encode hexact hv hu hwf' h h'

end

end OufGateway.Lib.PyObject
