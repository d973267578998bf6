import Mathlib

/-!
# Tickets: issued once, used at most once

A right to do something one time is a ticket. It is issued to one holder,
who either uses it or drops it, and nobody uses a ticket he does not hold.
Then every use was issued and none happens twice, so no class of tickets is
used more often than it was issued, whatever the holders do in between.
-/

namespace OufGateway.Lib

variable {τ ω : Type*}

structure Tickets (issued used : List τ) (held : ω → Option τ) : Prop where
  issued_nodup : issued.Nodup
  used_nodup : used.Nodup
  used_issued : ∀ t ∈ used, t ∈ issued
  held_issued : ∀ w t, held w = some t → t ∈ issued
  held_unused : ∀ w t, held w = some t → t ∉ used
  held_once : ∀ w w' t, held w = some t → held w' = some t → w = w'

namespace Tickets

variable {issued used : List τ} {held : ω → Option τ}

theorem none_held : Tickets ([] : List τ) [] fun _ : ω => none where
  issued_nodup := List.nodup_nil
  used_nodup := List.nodup_nil
  used_issued := by simp
  held_issued := by simp
  held_unused := by simp
  held_once := by simp

/-- No class of tickets is used more often than it was issued. -/
theorem countP_used_le (h : Tickets issued used held) (p : τ → Bool) :
    used.countP p ≤ issued.countP p :=
  (List.subperm_of_subset h.used_nodup h.used_issued).countP_le p

variable [DecidableEq ω]

theorem drop (h : Tickets issued used held) (w : ω) :
    Tickets issued used (Function.update held w none) where
  issued_nodup := h.issued_nodup
  used_nodup := h.used_nodup
  used_issued := h.used_issued
  held_issued := by
    intro v t hv
    by_cases hw : v = w
    · simp [hw] at hv
    · exact h.held_issued v t (by rwa [Function.update_of_ne hw] at hv)
  held_unused := by
    intro v t hv
    by_cases hw : v = w
    · simp [hw] at hv
    · exact h.held_unused v t (by rwa [Function.update_of_ne hw] at hv)
  held_once := by
    intro v v' t hv hv'
    by_cases hw : v = w
    · simp [hw] at hv
    · by_cases hw' : v' = w
      · simp [hw'] at hv'
      · rw [Function.update_of_ne hw] at hv
        rw [Function.update_of_ne hw'] at hv'
        exact h.held_once v v' t hv hv'

theorem issue (h : Tickets issued used held) {t : τ} (ht : t ∉ issued) (w : ω) :
    Tickets (issued ++ [t]) used (Function.update held w (some t)) where
  issued_nodup := by
    rw [List.nodup_append]
    refine ⟨h.issued_nodup, List.nodup_singleton _, fun a ha b hb => ?_⟩
    rintro rfl
    exact ht (List.mem_singleton.1 hb ▸ ha)
  used_nodup := h.used_nodup
  used_issued := fun s hs => List.mem_append_left _ (h.used_issued s hs)
  held_issued := by
    intro v s hv
    by_cases hw : v = w
    · simp only [hw, Function.update_self, Option.some.injEq] at hv
      simp [hv]
    · rw [Function.update_of_ne hw] at hv
      exact List.mem_append_left _ (h.held_issued v s hv)
  held_unused := by
    intro v s hv
    by_cases hw : v = w
    · simp only [hw, Function.update_self, Option.some.injEq] at hv
      exact fun hs => ht (hv ▸ h.used_issued s hs)
    · rw [Function.update_of_ne hw] at hv
      exact h.held_unused v s hv
  held_once := by
    intro v v' s hv hv'
    by_cases hw : v = w <;> by_cases hw' : v' = w
    · rw [hw, hw']
    · simp only [hw, Function.update_self, Option.some.injEq] at hv
      rw [Function.update_of_ne hw'] at hv'
      exact absurd (h.held_issued v' s hv') (hv ▸ ht)
    · simp only [hw', Function.update_self, Option.some.injEq] at hv'
      rw [Function.update_of_ne hw] at hv
      exact absurd (h.held_issued v s hv) (hv' ▸ ht)
    · rw [Function.update_of_ne hw] at hv
      rw [Function.update_of_ne hw'] at hv'
      exact h.held_once v v' s hv hv'

theorem use (h : Tickets issued used held) {w : ω} {t : τ} (hw : held w = some t) :
    Tickets issued (used ++ [t]) (Function.update held w none) where
  issued_nodup := h.issued_nodup
  used_nodup := by
    rw [List.nodup_append]
    refine ⟨h.used_nodup, List.nodup_singleton _, fun a ha b hb => ?_⟩
    rintro rfl
    exact h.held_unused w t hw (List.mem_singleton.1 hb ▸ ha)
  used_issued := by
    intro s hs
    rcases List.mem_append.1 hs with hs | hs
    · exact h.used_issued s hs
    · exact List.mem_singleton.1 hs ▸ h.held_issued w t hw
  held_issued := (h.drop w).held_issued
  held_unused := by
    intro v s hv hs
    rcases List.mem_append.1 hs with hs | hs
    · exact (h.drop w).held_unused v s hv hs
    · obtain rfl := List.mem_singleton.1 hs
      by_cases hvw : v = w
      · simp [hvw] at hv
      · rw [Function.update_of_ne hvw] at hv
        exact hvw (h.held_once v w s hv hw)
  held_once := (h.drop w).held_once

end Tickets

end OufGateway.Lib
