import OufGateway.Lib.PyDict

/-!
# The newest of each key

Of items with a key and a rank, what is left when each item replaces the one that
is held under its key if its rank is greater. `Newest xs x` says which one that is
of its key in `xs`: everything before it with its key has a smaller rank, nothing
after it has a greater one. There is one at most (`Newest.unique`), and what is
the newest of two lists together is the newest of one of them (`newest_append`).
That is all that dropping the others needs: a list of the newest items stands for
the whole list in front of more (`newest_stage`).

The items are held in a dictionary. `Holds` is the invariant of the loop, and
`holds_fold` says that it is kept.
-/

namespace OufGateway.Lib.Latest

open PyDict (get? mem_of_get? mem_set nodup_set)

/-! ## The newest item -/

variable {α κ σ : Type*} [LinearOrder σ] {key : α → κ} {rank : α → σ} {xs ys : List α} {x y : α}

variable (key rank) in
/-- The first of the items with its key that have the greatest rank of them. -/
def Newest (xs : List α) (x : α) : Prop :=
  ∃ before after, xs = before ++ x :: after ∧
    (∀ y ∈ before, key y = key x → rank y < rank x) ∧ ∀ y ∈ after, key y = key x → rank y ≤ rank x

theorem Newest.mem (h : Newest key rank xs x) : x ∈ xs := by
  obtain ⟨before, after, rfl, -, -⟩ := h
  exact List.mem_append_right _ List.mem_cons_self

theorem Newest.rank_le (h : Newest key rank xs x) (hy : y ∈ xs) (hkey : key y = key x) :
    rank y ≤ rank x := by
  obtain ⟨before, after, rfl, hbefore, hafter⟩ := h
  rcases List.mem_append.mp hy with hy | hy
  · exact (hbefore y hy hkey).le
  · rcases List.mem_cons.mp hy with rfl | hy
    · exact le_rfl
    · exact hafter y hy hkey

theorem newest_append : Newest key rank (xs ++ ys) x ↔
    (Newest key rank xs x ∧ ∀ y ∈ ys, key y = key x → rank y ≤ rank x) ∨
      ((∀ y ∈ xs, key y = key x → rank y < rank x) ∧ Newest key rank ys x) := by
  constructor
  · rintro ⟨before, after, h, hbefore, hafter⟩
    rcases List.append_eq_append_iff.mp h with ⟨mid, rfl, rfl⟩ | ⟨mid, rfl, hsplit⟩
    · rw [List.forall_mem_append] at hbefore
      exact Or.inr ⟨hbefore.1, mid, after, rfl, hbefore.2, hafter⟩
    · cases mid with
      | nil =>
          obtain rfl : x :: after = ys := hsplit
          refine Or.inr ⟨by simpa using hbefore, [], after, rfl, by simp, hafter⟩
      | cons z mid =>
          obtain ⟨rfl, rfl⟩ := List.cons.inj hsplit
          have hafter := List.forall_mem_append.mp hafter
          exact Or.inl ⟨⟨before, mid, rfl, hbefore, hafter.1⟩, hafter.2⟩
  · rintro (⟨⟨before, after, rfl, hbefore, hafter⟩, hys⟩ | ⟨hxs, before, after, rfl, hbefore, hafter⟩)
    · exact ⟨before, after ++ ys, by simp, hbefore, List.forall_mem_append.mpr ⟨hafter, hys⟩⟩
    · exact ⟨xs ++ before, after, by simp, List.forall_mem_append.mpr ⟨hxs, hbefore⟩, hafter⟩

theorem newest_singleton : Newest key rank [y] x ↔ x = y := by
  constructor
  · intro h
    exact List.mem_singleton.mp h.mem
  · rintro rfl
    exact ⟨[], [], rfl, by simp, by simp⟩

theorem Newest.unique (hx : Newest key rank xs x) (hy : Newest key rank xs y)
    (hkey : key x = key y) : x = y := by
  obtain ⟨before, after, rfl, hbefore, hafter⟩ := hx
  rcases newest_append.mp hy with ⟨hy, hall⟩ | ⟨hall, hy⟩
  · -- `y` stands before `x`, where every rank is smaller
    have hlt := hbefore y hy.mem hkey.symm
    exact absurd (hall x List.mem_cons_self hkey) (not_le.mpr hlt)
  · obtain ⟨front, rest, hsplit, hfront, -⟩ := hy
    cases front with
    | nil => exact (List.cons.inj hsplit).1
    | cons z front =>
        obtain ⟨rfl, rfl⟩ := List.cons.inj hsplit
        have hlt := hfront x List.mem_cons_self hkey
        exact absurd (hafter y (List.mem_append_right _ List.mem_cons_self) hkey.symm) (not_le.mpr hlt)

variable (key rank) in
/-- Every key that there is has a newest item. -/
theorem exists_newest (hx : x ∈ xs) : ∃ y, Newest key rank xs y ∧ key y = key x := by
  induction xs using List.reverseRecOn generalizing x with
  | nil => cases hx
  | append_singleton xs z ih =>
      by_cases hheld : ∃ y ∈ xs, key y = key x
      · obtain ⟨y, hy, hkey⟩ := hheld
        obtain ⟨w, hw, hwkey⟩ := ih hy
        by_cases hbeats : key z = key w ∧ rank w < rank z
        · refine ⟨z, newest_append.mpr (Or.inr ⟨fun v hv hvkey => ?_, newest_singleton.mpr rfl⟩),
            hbeats.1.trans (hwkey.trans hkey)⟩
          exact (hw.rank_le hv (hvkey.trans hbeats.1)).trans_lt hbeats.2
        · refine ⟨w, newest_append.mpr (Or.inl ⟨hw, fun v hv hvkey => ?_⟩), hwkey.trans hkey⟩
          obtain rfl := List.mem_singleton.mp hv
          exact not_lt.mp fun hlt => hbeats ⟨hvkey, hlt⟩
      · obtain rfl : x = z := by
          rcases List.mem_append.mp hx with hx | hx
          · exact absurd ⟨x, hx, rfl⟩ hheld
          · exact List.mem_singleton.mp hx
        refine ⟨x, newest_append.mpr (Or.inr ⟨fun v hv hvkey => ?_, newest_singleton.mpr rfl⟩), rfl⟩
        exact absurd ⟨v, hv, hvkey⟩ hheld

/-- The newest items of a list, in any order, stand for it in front of another list. -/
theorem newest_stage {ks : List α} (hks : ∀ y, y ∈ ks ↔ Newest key rank xs y)
    (hdistinct : (ks.map key).Nodup) :
    Newest key rank (ks ++ ys) x ↔ Newest key rank (xs ++ ys) x := by
  have honly : ∀ y, Newest key rank ks y ↔ Newest key rank xs y := by
    intro y
    rw [← hks]
    refine ⟨Newest.mem, fun hy => ?_⟩
    obtain ⟨z, hz, hkey⟩ := exists_newest key rank hy
    rwa [← List.inj_on_of_nodup_map hdistinct hz.mem hy hkey]
  have hbelow : (∀ y ∈ ks, key y = key x → rank y < rank x) ↔
      ∀ y ∈ xs, key y = key x → rank y < rank x := by
    constructor
    · intro h y hy hkey
      obtain ⟨z, hz, hzkey⟩ := exists_newest key rank hy
      exact (hz.rank_le hy hzkey.symm).trans_lt (h z ((hks z).mpr hz) (hzkey.trans hkey))
    · intro h y hy hkey
      exact h y ((hks y).mp hy).mem hkey
  rw [newest_append, newest_append, honly, hbelow]

/-- Where no two items have the same key and rank, their order does not matter. -/
theorem newest_of_distinct (h : (xs.map fun x => (key x, rank x)).Nodup) :
    Newest key rank xs x ↔ x ∈ xs ∧ ∀ y ∈ xs, key y = key x → rank y ≤ rank x := by
  refine ⟨fun hx => ⟨hx.mem, fun y hy => hx.rank_le hy⟩, ?_⟩
  rintro ⟨hx, hle⟩
  obtain ⟨y, hy, hkey⟩ := exists_newest key rank hx
  have hrank : rank y = rank x := le_antisymm (hle y hy.mem hkey) (hy.rank_le hx hkey.symm)
  have hsame : y = x := List.inj_on_of_nodup_map h hy.mem hx (Prod.ext hkey hrank)
  exact hsame ▸ hy

/-! ## The loop -/

variable {d : List (κ × α)}

variable (key rank) in
/-- After `xs`, the newest items are held, each under its key. -/
structure Holds (xs : List α) (d : List (κ × α)) : Prop where
  nodup : (d.map (·.1)).Nodup
  newest : ∀ k x, (k, x) ∈ d ↔ k = key x ∧ Newest key rank xs x

theorem holds_nil : Holds key rank [] [] where
  nodup := List.nodup_nil
  newest k x := by
    refine ⟨fun h => absurd h List.not_mem_nil, fun h => absurd h.2.mem List.not_mem_nil⟩

theorem Holds.mem_values (h : Holds key rank xs d) : x ∈ d.map (·.2) ↔ Newest key rank xs x := by
  rw [List.mem_map]
  constructor
  · rintro ⟨e, he, rfl⟩
    exact ((h.newest e.1 e.2).mp he).2
  · intro hx
    exact ⟨(key x, x), (h.newest _ x).mpr ⟨rfl, hx⟩, rfl⟩

theorem Holds.keys_values (h : Holds key rank xs d) : (d.map (·.2)).map key = d.map (·.1) := by
  rw [List.map_map]
  exact List.map_congr_left fun e he => ((h.newest e.1 e.2).mp he).1.symm

variable [DecidableEq κ]

variable (key rank) in
/-- One turn: `x` replaces what is held under its key if it has a greater rank. -/
def keep (d : List (κ × α)) (x : α) : List (κ × α) :=
  match get? d (key x) with
  | none => PyDict.set d (key x) x
  | some y => if rank y < rank x then PyDict.set d (key x) x else d

theorem Holds.get?_eq_none (h : Holds key rank xs d) (hx : get? d (key x) = none) :
    ∀ y ∈ xs, key y ≠ key x := by
  intro y hy hkey
  obtain ⟨z, hz, hzkey⟩ := exists_newest key rank hy
  exact PyDict.get?_eq_none.mp hx _ ((h.newest _ z).mpr ⟨rfl, hz⟩) (hzkey.trans hkey)

theorem Holds.set (h : Holds key rank xs d) (hx : ∀ y ∈ xs, key y = key x → rank y < rank x) :
    Holds key rank (xs ++ [x]) (PyDict.set d (key x) x) where
  nodup := nodup_set h.nodup
  newest k y := by
    rw [mem_set, newest_append, newest_singleton, h.newest, Prod.mk.injEq, List.forall_mem_singleton]
    constructor
    · rintro (⟨rfl, rfl⟩ | ⟨⟨rfl, hy⟩, hne⟩)
      · exact ⟨rfl, Or.inr ⟨hx, rfl⟩⟩
      · exact ⟨rfl, Or.inl ⟨hy, fun hkey => absurd hkey.symm hne⟩⟩
    · rintro ⟨rfl, ⟨hy, hle⟩ | ⟨-, rfl⟩⟩
      · refine Or.inr ⟨⟨rfl, hy⟩, fun hkey => ?_⟩
        exact absurd (hle hkey.symm) (not_le.mpr (hx y hy.mem hkey))
      · exact Or.inl ⟨rfl, rfl⟩

theorem Holds.keep (h : Holds key rank xs d) (x : α) :
    Holds key rank (xs ++ [x]) (keep key rank d x) := by
  unfold Latest.keep
  split
  · next hnone => exact h.set fun y hy hkey => absurd hkey (h.get?_eq_none hnone y hy)
  · next y hget =>
    obtain ⟨hkey, hy⟩ := (h.newest _ y).mp (mem_of_get? hget)
    split
    · next hlt => exact h.set fun z hz hz' => (hy.rank_le hz (hz'.trans hkey)).trans_lt hlt
    · next hle =>
      refine ⟨h.nodup, fun k z => ?_⟩
      rw [h.newest, newest_append, newest_singleton, List.forall_mem_singleton]
      refine and_congr_right fun _ => ⟨fun hz => Or.inl ⟨hz, fun hzkey => ?_⟩, ?_⟩
      · obtain rfl := hz.unique hy (hzkey.symm.trans hkey)
        exact not_lt.mp hle
      · rintro (⟨hz, -⟩ | ⟨hall, rfl⟩)
        · exact hz
        · exact absurd (hall y hy.mem hkey.symm) hle

theorem holds_fold (xs : List α) : Holds key rank xs (xs.foldl (keep key rank) []) := by
  induction xs using List.reverseRecOn with
  | nil => exact holds_nil
  | append_singleton xs x ih =>
      rw [List.foldl_append, List.foldl_cons, List.foldl_nil]
      exact ih.keep x

/-- There is one entry for each key. -/
theorem Holds.length (h : Holds key rank xs d) : d.length = (xs.map key).toFinset.card := by
  rw [← List.length_map (·.1), ← List.toFinset_card_of_nodup h.nodup]
  congr 1
  ext k
  simp only [List.mem_toFinset, List.mem_map]
  constructor
  · rintro ⟨e, he, rfl⟩
    obtain ⟨hkey, hx⟩ := (h.newest e.1 e.2).mp he
    exact ⟨e.2, hx.mem, hkey.symm⟩
  · rintro ⟨x, hx, rfl⟩
    obtain ⟨y, hy, hkey⟩ := exists_newest key rank hx
    exact ⟨(key y, y), (h.newest _ y).mpr ⟨rfl, hy⟩, hkey⟩

end OufGateway.Lib.Latest
