import Mathlib

/-!
# Reading a list page by page

A reader takes `limit` entries from a position and goes on where they end, as long as
something is left there. `Pages` is the list of what such a reader gets: it has the
shape of the reads, so that a property of all of them is an induction on it. The pages
in a row are the rest of the list, no page is larger than the limit, and there are as
many of them as the division demands, one at least.
-/

namespace OufGateway.Lib

inductive Pages {α : Type*} (l : List α) (limit : Nat) : Nat → List (List α) → Prop
  | last {position : Nat} (h : ¬ position + limit < l.length) :
      Pages l limit position [(l.drop position).take limit]
  | next {position : Nat} {rest : List (List α)} (h : position + limit < l.length)
      (hrest : Pages l limit (position + limit) rest) :
      Pages l limit position ((l.drop position).take limit :: rest)

namespace Pages

variable {α : Type*} {l : List α} {limit position : Nat} {ps : List (List α)}

theorem flatten (h : Pages l limit position ps) : ps.flatten = l.drop position := by
  induction h with
  | last h =>
      rw [List.flatten_singleton]
      refine List.take_of_length_le ?_
      rw [List.length_drop]
      omega
  | next h _ ih =>
      rw [List.flatten_cons, ih, ← List.drop_drop]
      exact List.take_append_drop limit _

theorem length_le (h : Pages l limit position ps) : ∀ p ∈ ps, p.length ≤ limit := by
  induction h with
  | last h =>
      intro p hp
      rw [List.mem_singleton.mp hp]
      exact List.length_take_le _ _
  | next h _ ih =>
      intro p hp
      rcases List.mem_cons.mp hp with rfl | hp
      · exact List.length_take_le _ _
      · exact ih p hp

theorem length (h : Pages l limit position ps) (hlimit : 1 ≤ limit) :
    ps.length = max 1 ((l.length - position + limit - 1) / limit) := by
  induction h with
  | @last position h =>
      have hle : (l.length - position + limit - 1) / limit ≤ 1 :=
        Nat.lt_succ_iff.mp ((Nat.div_lt_iff_lt_mul hlimit).mpr (by omega))
      rw [List.length_singleton, max_eq_left hle]
  | @next position rest h hrest ih =>
      have hpeel : l.length - position + limit - 1 =
          l.length - (position + limit) + limit - 1 + limit := by omega
      have hpos : 1 ≤ (l.length - (position + limit) + limit - 1) / limit :=
        (Nat.le_div_iff_mul_le hlimit).mpr (by omega)
      rw [List.length_cons, ih, hpeel, Nat.add_div_right _ hlimit, max_eq_right hpos,
        max_eq_right (Nat.le_succ_of_le hpos)]

end Pages

end OufGateway.Lib
