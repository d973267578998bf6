import Mathlib

/-!
# Dictionaries

The entries of a Python dictionary in the order of their first insertions: an
old key keeps its place.
-/

namespace OufGateway.Lib.PyDict

variable {κ α : Type*} [DecidableEq κ] {d : List (κ × α)} {k : κ} {x : α}

def get? (d : List (κ × α)) (k : κ) : Option α := (d.find? fun e => e.1 = k).map (·.2)

/-- `d[k] = x`. -/
def set (d : List (κ × α)) (k : κ) (x : α) : List (κ × α) :=
  match get? d k with
  | none => d ++ [(k, x)]
  | some _ => d.map fun e => if e.1 = k then (k, x) else e

theorem get?_eq_none : get? d k = none ↔ ∀ e ∈ d, e.1 ≠ k := by
  simp [get?, List.find?_eq_none]

theorem mem_of_get? (h : get? d k = some x) : (k, x) ∈ d := by
  obtain ⟨e, he, rfl⟩ := Option.map_eq_some_iff.mp h
  have hkey : e.1 = k := by simpa using List.find?_some he
  exact hkey ▸ List.mem_of_find?_eq_some he

theorem keys_set : (set d k x).map (·.1) = if get? d k = none then d.map (·.1) ++ [k] else d.map (·.1) := by
  unfold set
  split
  · next h => simp [h]
  · next y h =>
    rw [if_neg (by simp [h]), List.map_map]
    refine List.map_congr_left fun e _ => ?_
    dsimp only [Function.comp_apply]
    split
    · next hkey => exact hkey.symm
    · rfl

theorem nodup_set (h : (d.map (·.1)).Nodup) : ((set d k x).map (·.1)).Nodup := by
  rw [keys_set]
  split
  · next hnone =>
    refine List.nodup_append.mpr ⟨h, List.nodup_singleton k, ?_⟩
    intro j hj i hi
    obtain rfl := List.mem_singleton.mp hi
    obtain ⟨e, he, rfl⟩ := List.mem_map.mp hj
    exact get?_eq_none.mp hnone e he
  · exact h

theorem mem_set {e : κ × α} : e ∈ set d k x ↔ e = (k, x) ∨ (e ∈ d ∧ e.1 ≠ k) := by
  unfold set
  split
  · next h =>
    have hfresh := get?_eq_none.mp h
    rw [List.mem_append, List.mem_singleton, or_comm]
    exact or_congr_right ⟨fun he => ⟨he, hfresh e he⟩, And.left⟩
  · next y h =>
    have hheld := mem_of_get? h
    rw [List.mem_map]
    constructor
    · rintro ⟨a, ha, rfl⟩
      split
      · exact Or.inl rfl
      · next hkey => exact Or.inr ⟨ha, hkey⟩
    · rintro (rfl | ⟨he, hkey⟩)
      · exact ⟨(k, y), hheld, if_pos rfl⟩
      · exact ⟨e, he, if_neg hkey⟩

theorem get?_of_mem (hnodup : (d.map (·.1)).Nodup) (h : (k, x) ∈ d) : get? d k = some x := by
  cases hget : get? d k with
  | none => exact absurd rfl (get?_eq_none.mp hget _ h)
  | some y =>
      have hsame := List.inj_on_of_nodup_map hnodup (mem_of_get? hget) h rfl
      exact congrArg some (Prod.mk.inj hsame).2

theorem get?_nil : get? ([] : List (κ × α)) k = none := rfl

theorem get?_set {j : κ} : get? (set d k x) j = if j = k then some x else get? d j := by
  unfold set
  split
  · next h =>
    rw [get?, List.find?_append, Option.map_or]
    by_cases hjk : j = k
    · subst hjk
      rw [← get?, h, if_pos rfl]
      simp
    · rw [if_neg hjk, ← get?]
      simp [Ne.symm hjk]
  · next y h =>
    rw [get?, List.find?_map, Option.map_map]
    by_cases hjk : j = k
    · subst hjk
      have hfind : d.find? ((fun e => decide (e.1 = j)) ∘ fun e => if e.1 = j then (j, x) else e) =
          d.find? fun e => decide (e.1 = j) := by
        congr 1
        funext e
        by_cases he : e.1 = j <;> simp [he]
      rw [if_pos rfl, hfind]
      obtain ⟨e, he, -⟩ := Option.map_eq_some_iff.mp h
      have hkey : e.1 = j := by simpa using List.find?_some he
      simp [he, hkey]
    · have hfind : d.find? ((fun e => decide (e.1 = j)) ∘ fun e => if e.1 = k then (k, x) else e) =
          d.find? fun e => decide (e.1 = j) := by
        congr 1
        funext e
        by_cases he : e.1 = k
        · simp [he, Ne.symm hjk]
        · simp [he]
      rw [if_neg hjk, hfind, get?]
      cases he : d.find? fun e => decide (e.1 = j) with
      | none => rfl
      | some e =>
          have hkey : e.1 = j := by simpa using List.find?_some he
          simp [hkey, hjk]

end OufGateway.Lib.PyDict
