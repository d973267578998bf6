import OufGateway.Lib.Lua

/-!
# Request headers

The headers of a request, as OpenResty reads, clears and sets them: a list in the order
they came in, under names that are compared without their case. A table of headers has
a string for a name that is there once, a list for one that is there more often, and
nothing for the others. `get_headers` stops after a number of headers, and only the
names of those can be found in its table.
-/

namespace OufGateway.Lib.Headers

open Lua (Bytes Value)

abbrev Lines := List (Bytes × Bytes)

def lowerByte (b : UInt8) : UInt8 := if 65 ≤ b ∧ b ≤ 90 then b + 32 else b

/-- `s:lower()`. -/
def lower (s : Bytes) : Bytes := s.map lowerByte

/-- All values of a header. -/
def values (hs : Lines) (name : Bytes) : List Bytes := (hs.filter fun h => lower h.1 = lower name).map (·.2)

/-- What a table of headers has for a name. -/
def entry (hs : Lines) (name : Bytes) : Value :=
  match values hs name with
  | [] => .nil
  | [v] => .string v
  | vs => Lua.list (vs.map .string)

/-- `ngx.req.clear_header`. -/
def clear (hs : Lines) (name : Bytes) : Lines := hs.filter fun h => lower h.1 ≠ lower name

/-- `ngx.req.set_header`, of a value or of the values of a list. -/
def set (hs : Lines) (name : Bytes) (vs : List Bytes) : Lines := clear hs name ++ vs.map (name, ·)

/-- A loop over the names of a table of headers that clears the ones it picks, by their small letters. -/
def clearWhere (pick : Bytes → Bool) (hs : Lines) : Lines :=
  (hs.map (·.1)).foldl (fun rest name => if pick (lower name) then clear rest name else rest) hs

variable {hs : Lines} {name other v : Bytes} {vs : List Bytes} {pick : Bytes → Bool}

/-! ## Names -/

theorem lowerByte_lowerByte (b : UInt8) : lowerByte (lowerByte b) = lowerByte b := by
  unfold lowerByte
  by_cases h : 65 ≤ b ∧ b ≤ 90
  · rw [if_pos h, if_neg]
    have hb := UInt8.le_iff_toNat_le.mp h.1
    have hb' := UInt8.le_iff_toNat_le.mp h.2
    have h65 : (65 : UInt8).toNat = 65 := rfl
    have h90 : (90 : UInt8).toNat = 90 := rfl
    have h32 : (b + 32).toNat = b.toNat + 32 := by
      rw [UInt8.toNat_add]
      have hsmall : (32 : UInt8).toNat = 32 := rfl
      rw [hsmall]
      omega
    intro hlow
    have hle := UInt8.le_iff_toNat_le.mp hlow.2
    omega
  · rw [if_neg h, if_neg h]

theorem lower_lower (s : Bytes) : lower (lower s) = lower s := by
  unfold lower
  rw [List.map_map]
  exact List.map_congr_left fun b _ => lowerByte_lowerByte b

/-! ## Clearing -/

theorem values_clear_self : values (clear hs name) name = [] := by
  unfold values clear
  rw [List.filter_filter, List.map_eq_nil_iff, List.filter_eq_nil_iff]
  intro h _ hboth
  simp at hboth

theorem values_clear_of_ne (h : lower other ≠ lower name) : values (clear hs name) other = values hs other := by
  unfold values clear
  rw [List.filter_filter]
  congr 1
  refine List.filter_congr fun e _ => ?_
  by_cases he : lower e.1 = lower other
  · simp [he, h]
  · simp [he]

theorem clearFold_eq (names : List Bytes) :
    ∀ hs : Lines, names.foldl (fun rest name => if pick (lower name) then clear rest name else rest) hs =
      hs.filter fun h => !(pick (lower h.1) && names.any fun n => lower n = lower h.1) := by
  induction names with
  | nil =>
      intro hs
      simp
  | cons n names ih =>
      intro hs
      rw [List.foldl_cons, ih]
      by_cases hpick : pick (lower n) = true
      · rw [if_pos hpick, clear, List.filter_filter]
        refine List.filter_congr fun h _ => ?_
        by_cases hn : lower n = lower h.1
        · simp [← hn, hpick]
        · simp [hn, Ne.symm hn]
      · rw [if_neg hpick]
        refine List.filter_congr fun h _ => ?_
        by_cases hn : lower n = lower h.1
        · simp [← hn, hpick]
        · simp [hn]

/-- The loop leaves the headers it does not pick, and no others. -/
theorem clearWhere_eq : clearWhere pick hs = hs.filter fun h => !pick (lower h.1) := by
  rw [clearWhere, clearFold_eq]
  refine List.filter_congr fun h hh => ?_
  have hany : ((hs.map (·.1)).any fun n => lower n = lower h.1) = true :=
    List.any_eq_true.mpr ⟨h.1, List.mem_map_of_mem hh, decide_eq_true rfl⟩
  rw [hany, Bool.and_true]

theorem values_clearWhere_of_pick (h : pick (lower name) = true) : values (clearWhere pick hs) name = [] := by
  rw [clearWhere_eq, values, List.filter_filter, List.map_eq_nil_iff, List.filter_eq_nil_iff]
  intro e _ hboth
  simp only [Bool.and_eq_true, decide_eq_true_eq] at hboth
  rw [hboth.1, h] at hboth
  simp at hboth

/-! ## Setting -/

theorem values_set_self : values (set hs name vs) name = vs := by
  have hold : values (clear hs name) name = [] := values_clear_self
  unfold values at hold ⊢
  rw [set, List.filter_append, List.map_append, hold, List.nil_append, List.filter_eq_self.mpr]
  · simp
  · intro e he
    obtain ⟨v, -, rfl⟩ := List.mem_map.mp he
    exact decide_eq_true rfl

theorem values_set_of_ne (h : lower other ≠ lower name) : values (set hs name vs) other = values hs other := by
  have hclear : values (clear hs name) other = values hs other := values_clear_of_ne h
  rw [← hclear]
  unfold values
  rw [set, List.filter_append, List.map_append]
  have hnone : (vs.map (name, ·)).filter (fun e => lower e.1 = lower other) = [] := by
    rw [List.filter_eq_nil_iff]
    intro e he hlow
    obtain ⟨v, -, rfl⟩ := List.mem_map.mp he
    exact h (of_decide_eq_true hlow).symm
  rw [hnone, List.map_nil, List.append_nil]

/-! ## Tables -/

theorem entry_eq_string (h : entry hs name = .string v) : values hs name = [v] := by
  unfold entry at h
  split at h
  · cases h
  · next hvalues => rw [hvalues, Value.string.inj h]
  · cases h

/-- A header that is found alone among the first ones is the first of all. -/
theorem head_of_entry {n : Nat} (h : entry (hs.take n) name = .string v) : (values hs name).head? = some v := by
  have htaken := entry_eq_string h
  unfold values at htaken ⊢
  have hprefix : (hs.take n).filter (fun e => lower e.1 = lower name) <+: hs.filter fun e => lower e.1 = lower name :=
    (List.take_prefix n hs).filter _
  obtain ⟨rest, hrest⟩ := hprefix
  rw [← hrest, List.map_append, htaken]
  rfl

end OufGateway.Lib.Headers
