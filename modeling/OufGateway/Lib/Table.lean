import Mathlib

/-!
# Tables with a primary key

A `Table key` is a list of rows no two of which have the same key: the
primary key constraint is a field, so a table that breaks it cannot be
built. An insert answers `none` when the key is taken, and an update must
leave the key alone.

What a program reads goes through `find?`, and each operation has one
equation saying what `find?` answers after it. `sum` adds a number up over the
rows; it stands for `count(*)` and for every total kept over a table, and it
has one equation for each operation too.
-/

namespace OufGateway.Lib

structure Table {ρ κ : Type*} (key : ρ → κ) where
  rows : List ρ
  nodup : (rows.map key).Nodup

namespace Table

variable {ρ κ : Type*} {key : ρ → κ} {t t' : Table key} {p : ρ → Bool} {f : ρ → ρ}
  {hf : ∀ r, key (f r) = key r} {g : ρ → Nat}

def empty : Table key := ⟨[], List.nodup_nil⟩

/-- `update ... set f where p`. -/
def update (t : Table key) (p : ρ → Bool) (f : ρ → ρ) (hf : ∀ r, key (f r) = key r) :
    Table key where
  rows := t.rows.map fun r => if p r then f r else r
  nodup := by
    rw [List.map_map]
    have h : (key ∘ fun r => if p r then f r else r) = key := by
      funext r
      simp only [Function.comp]
      split
      · exact hf r
      · rfl
    rw [h]
    exact t.nodup

/-- `delete ... where not p`. -/
def filter (t : Table key) (p : ρ → Bool) : Table key where
  rows := t.rows.filter p
  nodup := t.nodup.sublist (List.filter_sublist.map key)

def sum (t : Table key) (g : ρ → Nat) : Nat := (t.rows.map g).sum

def count (t : Table key) (p : ρ → Bool) : Nat := t.rows.countP p

@[simp] theorem sum_empty : (empty : Table key).sum g = 0 := rfl

theorem sum_update (hf : ∀ r, key (f r) = key r) (h : ∀ r, p r = true → g (f r) = g r) :
    (t.update p f hf).sum g = t.sum g := by
  show (List.map g (List.map _ _)).sum = _
  rw [List.map_map]
  congr 2
  funext r
  simp only [Function.comp]
  split
  · next hp => exact h r hp
  · rfl

theorem sum_eq_zero (h : ∀ r ∈ t.rows, g r = 0) : t.sum g = 0 :=
  List.sum_eq_zero (by simpa using h)

theorem sum_le_mul {c : Nat} {u : ρ → Nat} (h : ∀ r ∈ t.rows, g r ≤ c * u r) :
    t.sum g ≤ c * t.sum u := by
  unfold sum
  rw [← List.sum_map_mul_left]
  exact List.sum_le_sum h

/-! ## Counts after a write -/

variable {q : ρ → Bool}

theorem length_update (hf : ∀ r, key (f r) = key r) : (t.update p f hf).rows.length = t.rows.length := List.length_map _

theorem length_filter_le : (t.filter p).rows.length ≤ t.rows.length := List.length_filter_le p t.rows

theorem count_filter_le : (t.filter p).count q ≤ t.count q := List.filter_sublist.countP_le

theorem sum_filter_le : (t.filter p).sum g ≤ t.sum g :=
  (List.filter_sublist.map g).sum_le_sum fun _ _ => Nat.zero_le _

theorem count_eq_sum : t.count q = t.sum fun r => if q r then 1 else 0 := by
  unfold count sum
  induction t.rows with
  | nil => rfl
  | cons x xs ih => rw [List.countP_cons, List.map_cons, List.sum_cons, ih, Nat.add_comm]

/-- An update that finds no row leaves the table. -/
theorem update_eq_self (hf : ∀ r, key (f r) = key r) (h : ∀ r ∈ t.rows, p r = false) : t.update p f hf = t := by
  obtain ⟨rows, hnodup⟩ := t
  have hrows : rows.map (fun r => if p r then f r else r) = rows := by
    refine (List.map_congr_left fun r hr => ?_).trans (List.map_id rows)
    rw [h r hr]
    rfl
  simp only [Table.update, Table.mk.injEq]
  exact hrows

/-- An update that makes no row count leaves no more of them. -/
theorem count_update_le (hf : ∀ r, key (f r) = key r)
    (h : ∀ r ∈ t.rows, p r = true → q (f r) = true → q r = true) :
    (t.update p f hf).count q ≤ t.count q := by
  unfold count
  show (t.rows.map _).countP q ≤ _
  rw [List.countP_map]
  refine List.countP_mono_left fun r hr hq => ?_
  simp only [Function.comp] at hq
  split at hq
  · next hp => exact h r hr hp hq
  · exact hq

section Keyed

variable [DecidableEq κ]

/-- The row with a key. -/
def find? (t : Table key) (k : κ) : Option ρ := t.rows.find? fun r => key r = k

/-- `update ... set f where key=k`. -/
def modify (t : Table key) (k : κ) (f : ρ → ρ) (hf : ∀ r, key (f r) = key r) : Table key :=
  t.update (fun r => key r = k) f hf

/-- `insert`, refused when the key is taken. -/
def insert? (t : Table key) (r : ρ) : Option (Table key) :=
  if h : key r ∈ t.rows.map key then none
  else some ⟨t.rows ++ [r], by
    rw [List.map_append, List.nodup_append]
    refine ⟨t.nodup, List.nodup_singleton _, fun a ha b hb => ?_⟩
    rintro rfl
    rw [List.map_singleton, List.mem_singleton] at hb
    exact h (hb ▸ ha)⟩

/-! ## Reading after a write -/

@[simp] theorem find?_empty (k : κ) : (empty : Table key).find? k = none := rfl

theorem find?_key {k : κ} {r : ρ} (h : t.find? k = some r) : key r = k := by
  simpa using List.find?_some h

theorem mem_of_find? {k : κ} {r : ρ} (h : t.find? k = some r) : r ∈ t.rows :=
  List.mem_of_find?_eq_some h

theorem find?_of_mem {r : ρ} (h : r ∈ t.rows) : t.find? (key r) = some r := by
  obtain ⟨rows, nodup⟩ := t
  unfold find?
  induction rows with
  | nil => simp at h
  | cons x xs ih =>
      rw [List.map_cons, List.nodup_cons] at nodup
      rcases List.mem_cons.1 h with rfl | h
      · simp
      · have hne : key x ≠ key r := by
          intro he
          exact nodup.1 (he ▸ List.mem_map_of_mem h)
        rw [List.find?_cons_of_neg (by simpa using hne)]
        exact ih nodup.2 h

theorem find?_update (k : κ) :
    (t.update p f hf).find? k = (t.find? k).map fun r => if p r then f r else r := by
  show List.find? _ (List.map _ _) = _
  rw [List.find?_map]
  congr 2
  funext r
  simp only [Function.comp]
  split
  · rw [hf]
  · rfl

theorem find?_modify (k j : κ) :
    (t.modify k f hf).find? j = if j = k then (t.find? j).map f else t.find? j := by
  rw [modify, find?_update]
  rcases h : t.find? j with _ | r
  · simp
  · have hk := find?_key h
    by_cases hj : j = k
    · simp [hk, hj]
    · simp [hk, hj]

theorem find?_modify_self (k : κ) : (t.modify k f hf).find? k = (t.find? k).map f := by
  rw [find?_modify, if_pos rfl]

theorem find?_modify_ne {k j : κ} (h : j ≠ k) : (t.modify k f hf).find? j = t.find? j := by
  rw [find?_modify, if_neg h]

theorem rows_insert? {r : ρ} (h : t.insert? r = some t') : t'.rows = t.rows ++ [r] := by
  unfold insert? at h
  split at h
  · cases h
  · cases h
    rfl

theorem exists_insert? {r : ρ} (h : t.find? (key r) = none) : ∃ t', t.insert? r = some t' := by
  have hfree : key r ∉ t.rows.map key := by
    intro hmem
    obtain ⟨x, hx, hkey⟩ := List.mem_map.mp hmem
    rw [← hkey, find?_of_mem hx] at h
    cases h
  exact ⟨_, dif_neg hfree⟩

theorem insert?_fresh {r : ρ} (h : t.insert? r = some t') : t.find? (key r) = none := by
  unfold insert? at h
  split at h
  · simp at h
  · next hn =>
    refine List.find?_eq_none.2 fun x hx => ?_
    have hne : key x ≠ key r := fun he => hn (he ▸ List.mem_map_of_mem hx)
    simpa using hne

theorem find?_insert? {r : ρ} (h : t.insert? r = some t') (k : κ) :
    t'.find? k = if key r = k then some r else t.find? k := by
  have hfresh := insert?_fresh h
  unfold insert? at h
  split at h
  · simp at h
  · injection h with h
    subst h
    show List.find? _ (t.rows ++ [r]) = _
    rw [List.find?_append]
    show (t.find? k).or _ = _
    by_cases hk : key r = k
    · subst hk
      rw [hfresh]
      simp
    · simp [hk]

theorem find?_insert?_self {r : ρ} (h : t.insert? r = some t') : t'.find? (key r) = some r := by
  rw [find?_insert? h, if_pos rfl]

/-- The rows an insert leaves are the new one and the old ones. -/
theorem find?_insert?_cases {r x : ρ} {k : κ} (h : t.insert? r = some t')
    (hk : t'.find? k = some x) :
    (k = key r ∧ x = r) ∨ (k ≠ key r ∧ t.find? k = some x) := by
  rw [find?_insert? h] at hk
  split at hk
  · next he =>
    injection hk with hk
    exact Or.inl ⟨he.symm, hk.symm⟩
  · next he => exact Or.inr ⟨Ne.symm he, hk⟩

theorem find?_insert?_old {r x : ρ} {k : κ} (h : t.insert? r = some t')
    (hk : t.find? k = some x) : t'.find? k = some x := by
  rw [find?_insert? h, if_neg]
  · exact hk
  · intro he
    rw [← he, insert?_fresh h] at hk
    cases hk

theorem find?_filter_some {k : κ} {r : ρ} (h : (t.filter p).find? k = some r) :
    t.find? k = some r := by
  have hmem : r ∈ t.rows := List.mem_of_mem_filter (mem_of_find? h)
  rw [← find?_key h]
  exact find?_of_mem hmem

theorem find?_filter_none {k : κ} (h : t.find? k = none) : (t.filter p).find? k = none := by
  cases hf : (t.filter p).find? k with
  | none => rfl
  | some r =>
      rw [find?_filter_some hf] at h
      cases h

theorem find?_filter_kept {k : κ} {r : ρ} (h : t.find? k = some r) (hp : p r = true) :
    (t.filter p).find? k = some r := by
  rw [← find?_key h]
  exact find?_of_mem (List.mem_filter.mpr ⟨mem_of_find? h, hp⟩)

theorem find?_eq_none_iff {k : κ} : t.find? k = none ↔ ∀ r ∈ t.rows, key r ≠ k := by
  rw [find?, List.find?_eq_none]
  exact forall₂_congr fun r _ => by rw [decide_eq_true_eq]

/-! ## Totals after a write -/

theorem sum_insert? {r : ρ} (h : t.insert? r = some t') : t'.sum g = t.sum g + g r := by
  unfold insert? at h
  split at h
  · simp at h
  · injection h with h
    subst h
    simp [sum]

theorem length_insert? {r : ρ} (h : t.insert? r = some t') :
    t'.rows.length = t.rows.length + 1 := by
  rw [rows_insert? h, List.length_append, List.length_singleton]

theorem count_insert? {r : ρ} (h : t.insert? r = some t') :
    t'.count q = t.count q + if q r then 1 else 0 := by
  unfold count
  rw [rows_insert? h, List.countP_append, List.countP_singleton]


theorem sum_modify (hf : ∀ r, key (f r) = key r) {k : κ} {r : ρ} (h : t.find? k = some r) :
    (t.modify k f hf).sum g + g r = t.sum g + g (f r) := by
  have hmem := mem_of_find? h
  have hkey := find?_key h
  obtain ⟨rows, nodup⟩ := t
  clear h
  simp only [modify, update, sum] at *
  induction rows with
  | nil => simp at hmem
  | cons x xs ih =>
      simp only [List.map_cons, List.nodup_cons, List.sum_cons] at *
      rcases List.mem_cons.1 hmem with rfl | hmem
      · have hrest : xs.map (fun x => if decide (key x = k) = true then f x else x) = xs := by
          conv_rhs => rw [← List.map_id xs]
          refine List.map_congr_left fun y hy => ?_
          have hne : key y ≠ k := fun he => nodup.1 (hkey ▸ he ▸ List.mem_map_of_mem hy)
          simp [hne]
        rw [hrest, if_pos (by simpa using hkey)]
        omega
      · have hne : key x ≠ k := fun he => nodup.1 (he ▸ hkey ▸ List.mem_map_of_mem hmem)
        have hsum := ih nodup.2 hmem
        rw [if_neg (by simpa using hne)]
        omega

/-- Only one row changes, so at most one more counts. -/
theorem count_modify_le (hf : ∀ r, key (f r) = key r) {k : κ} :
    (t.modify k f hf).count q ≤ t.count q + 1 := by
  cases h : t.find? k with
  | none =>
      refine (count_update_le hf fun r hr hp _ => ?_).trans (Nat.le_succ _)
      exact absurd (of_decide_eq_true hp) (find?_eq_none_iff.mp h r hr)
  | some r =>
      have hsum := sum_modify (g := fun r => if q r then 1 else 0) hf h
      rw [← count_eq_sum, ← count_eq_sum] at hsum
      split at hsum <;> split at hsum <;> omega

/-- The rows with a key, each with its number. -/
theorem sum_key (k : κ) : (t.sum fun r => if key r = k then g r else 0) = (t.find? k).elim 0 g := by
  obtain ⟨rows, nodup⟩ := t
  simp only [sum, find?] at *
  induction rows with
  | nil => rfl
  | cons x xs ih =>
      rw [List.map_cons, List.nodup_cons] at nodup
      rw [List.map_cons, List.sum_cons]
      by_cases hx : key x = k
      · have hrest : ∀ r ∈ xs, ¬ key r = k := fun r hr he =>
          nodup.1 (List.mem_map.mpr ⟨r, hr, he.trans hx.symm⟩)
        have hzero : (xs.map fun r => if key r = k then g r else 0).sum = 0 := by
          refine List.sum_eq_zero fun n hn => ?_
          obtain ⟨r, hr, rfl⟩ := List.mem_map.mp hn
          exact if_neg (hrest r hr)
        have hfind : (x :: xs).find? (fun r => decide (key r = k)) = some x :=
          List.find?_cons_of_pos (by rw [decide_eq_true_eq]; exact hx)
        rw [if_pos hx, hzero, hfind]
        rfl
      · have hfind : (x :: xs).find? (fun r => decide (key r = k)) =
            xs.find? fun r => decide (key r = k) :=
          List.find?_cons_of_neg (by rw [decide_eq_true_eq]; exact hx)
        rw [if_neg hx, Nat.zero_add, ih nodup.2, hfind]

/-- References to the rows with `p`, counted one by one and row by row. -/
theorem countP_references {β : Type*} (items : List β) (ref : β → κ) (p : ρ → Bool) :
    (items.countP fun b => (t.find? (ref b)).any p) =
      t.sum fun r => if p r then items.countP (fun b => ref b = key r) else 0 := by
  induction items with
  | nil =>
      rw [List.countP_nil]
      exact (sum_eq_zero fun r _ => by rw [List.countP_nil, ite_self]).symm
  | cons b items ih =>
      have hone : (if (t.find? (ref b)).any p then 1 else 0) =
          t.sum fun r => if key r = ref b then (if p r then 1 else 0) else 0 := by
        rw [sum_key]
        cases t.find? (ref b) <;> rfl
      rw [List.countP_cons, ih, hone]
      unfold sum
      rw [← List.sum_map_add]
      congr 2
      funext r
      simp only [List.countP_cons, decide_eq_true_eq]
      by_cases hp : p r = true
      · simp only [hp, if_true, eq_comm]
      · simp only [hp]
        simp

end Keyed

end Table

end OufGateway.Lib
