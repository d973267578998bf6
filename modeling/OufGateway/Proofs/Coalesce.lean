import OufGateway.Lib.Latest
import OufGateway.Ref.Coalesce

/-!
# Coalescing keeps the latest

The loop holds the newest change of each object (`Latest.Holds`), so what
`coalesce` returns is the one list in strict order of the references that has
exactly the newest changes (`Coalesced`). Stages and reorderings have the same
newest changes, and so the same result.
-/

namespace OufGateway.Publication

open OufGateway.Lib OufGateway.Lib.Latest

variable {P : Type} {changes others out : List (Change P)} {maximum : Int} {c : Change P}

/-- The first change of the list among those of its object with the greatest sequence. -/
abbrev IsLatest (changes : List (Change P)) (c : Change P) : Prop :=
  Newest Change.objectRef Change.sequence changes c

/-- The objects that changed. -/
def objects (changes : List (Change P)) : Finset String := (changes.map Change.objectRef).toFinset

theorem latestWith_eq : (latestWith : List (String × Change P) → Change P → _) =
    keep Change.objectRef Change.sequence := by
  funext latest change
  unfold latestWith keep
  cases PyDict.get? latest change.objectRef with
  | none => rfl
  | some current => exact if_congr gt_iff_lt rfl rfl

theorem holds_latest (changes : List (Change P)) :
    Holds Change.objectRef Change.sequence changes (latest changes) := by
  rw [latest, latestWith_eq]
  exact holds_fold changes

theorem length_latest (changes : List (Change P)) : (latest changes).length = (objects changes).card :=
  (holds_latest changes).length

/-- What there is to return of a list of changes. -/
structure Coalesced (changes out : List (Change P)) : Prop where
  ordered : out.Pairwise fun a b => a.objectRef < b.objectRef
  latest : ∀ c, c ∈ out ↔ IsLatest changes c

theorem Coalesced.distinct (h : Coalesced changes out) : (out.map Change.objectRef).Nodup :=
  List.pairwise_map.mpr (h.ordered.imp fun hlt => hlt.ne)

theorem Coalesced.unique (h : Coalesced changes out) {out' : List (Change P)}
    (h' : Coalesced changes out') : out = out' := by
  have hperm : out.Perm out' :=
    (List.perm_ext_iff_of_nodup h.distinct.of_map h'.distinct.of_map).mpr
      fun c => (h.latest c).trans (h'.latest c).symm
  exact hperm.eq_of_pairwise (fun a b _ _ hab hba => absurd hab (lt_asymm hba)) h.ordered h'.ordered

theorem Coalesced.objects (h : Coalesced changes out) : objects out = objects changes := by
  ext r
  simp only [Publication.objects, List.mem_toFinset, List.mem_map]
  constructor
  · rintro ⟨c, hc, rfl⟩
    exact ⟨c, ((h.latest c).mp hc).mem, rfl⟩
  · rintro ⟨c, hc, rfl⟩
    obtain ⟨d, hd, href⟩ := exists_newest Change.objectRef Change.sequence hc
    exact ⟨d, (h.latest d).mpr hd, href⟩

/-- The values of the dictionary in the order of their references. -/
theorem coalesced_sorted (changes : List (Change P)) : Coalesced changes
    (((latest changes).map (·.2)).mergeSort fun a b => decide (a.objectRef ≤ b.objectRef)) := by
  have hperm := List.mergeSort_perm ((latest changes).map (·.2))
    fun a b => decide (a.objectRef ≤ b.objectRef)
  have hholds := holds_latest changes
  refine ⟨?_, fun c => hperm.mem_iff.trans hholds.mem_values⟩
  have hsorted := @List.pairwise_mergeSort (Change P) (fun a b => decide (a.objectRef ≤ b.objectRef))
    (fun a b c hab hbc => by simp only [decide_eq_true_eq] at *; exact hab.trans hbc)
    (fun a b => by simpa using le_total a.objectRef b.objectRef) ((latest changes).map (·.2))
  have hdistinct : ((((latest changes).map (·.2)).mergeSort
      fun a b => decide (a.objectRef ≤ b.objectRef)).map Change.objectRef).Nodup := by
    rw [(hperm.map Change.objectRef).nodup_iff, hholds.keys_values]
    exact hholds.nodup
  refine (hsorted.and (List.pairwise_map.mp hdistinct)).imp fun hab => ?_
  exact lt_of_le_of_ne (of_decide_eq_true hab.1) hab.2

/-- A batch is returned exactly if it is within its maximum. -/
theorem coalesce_ok_iff (hmax : 1 ≤ maximum) : coalesce changes maximum = .ok out ↔
    (objects changes).card ≤ maximum ∧ Coalesced changes out := by
  unfold coalesce
  rw [if_neg (by omega), length_latest]
  split
  · next hover => exact ⟨fun h => (by cases h), fun h => absurd h.1 (by omega)⟩
  · next hfits =>
    rw [Except.ok.injEq]
    constructor
    · rintro rfl
      exact ⟨by omega, coalesced_sorted changes⟩
    · rintro ⟨-, hout⟩
      exact (coalesced_sorted changes).unique hout

/-- Of two batches with the same newest changes. -/
theorem coalesce_congr (hobjects : objects changes = objects others)
    (h : ∀ c, IsLatest changes c ↔ IsLatest others c) :
    coalesce changes maximum = coalesce others maximum := by
  have hsame : ∀ out, Coalesced changes out ↔ Coalesced others out := fun out =>
    ⟨fun hc => ⟨hc.ordered, fun c => (hc.latest c).trans (h c)⟩,
      fun hc => ⟨hc.ordered, fun c => (hc.latest c).trans (h c).symm⟩⟩
  have hsorted := (coalesced_sorted changes).unique ((hsame _).mpr (coalesced_sorted others))
  unfold coalesce
  rw [length_latest, length_latest, hobjects, hsorted]

theorem coalesce_latest (changes : List (Change P)) (maximum : Int) (hmax : 1 ≤ maximum) :
    ((∃ e, coalesce changes maximum = .error e) ↔ maximum < (objects changes).card) ∧
      (∀ out, coalesce changes maximum = .ok out →
        out.Pairwise (fun a b => a.objectRef < b.objectRef) ∧ objects out = objects changes ∧
          ∀ c ∈ out, IsLatest changes c) ∧
      (∀ more out all, coalesce changes maximum = .ok out →
        coalesce (changes ++ more) maximum = .ok all → coalesce (out ++ more) maximum = .ok all) ∧
      ∀ others, others.Perm changes →
        (changes.map fun c => (c.objectRef, c.sequence)).Nodup →
          coalesce others maximum = coalesce changes maximum := by
  refine ⟨?_, fun out h => ?_, fun more out all h hall => ?_, fun others hperm hdistinct => ?_⟩
  · cases h : coalesce changes maximum with
    | ok out =>
        have hfits := ((coalesce_ok_iff hmax).mp h).1
        exact ⟨fun he => (by obtain ⟨e, he⟩ := he; cases he), fun hover => absurd hover (by omega)⟩
    | error e =>
        refine ⟨fun _ => ?_, fun _ => ⟨e, rfl⟩⟩
        by_contra hfits
        rw [(coalesce_ok_iff hmax).mpr ⟨not_lt.mp hfits, coalesced_sorted changes⟩] at h
        cases h
  · obtain ⟨-, hout⟩ := (coalesce_ok_iff hmax).mp h
    exact ⟨hout.ordered, hout.objects, fun c hc => (hout.latest c).mp hc⟩
  · obtain ⟨-, hout⟩ := (coalesce_ok_iff hmax).mp h
    rw [← hall]
    refine coalesce_congr ?_ fun c => newest_stage hout.latest hout.distinct
    have hobjects : objects out = objects changes := hout.objects
    unfold objects at hobjects ⊢
    rw [List.map_append, List.map_append, List.toFinset_append, List.toFinset_append, hobjects]
  · refine coalesce_congr (List.toFinset_eq_of_perm _ _ (hperm.map _)) fun c => ?_
    have hothers : (others.map fun c => (c.objectRef, c.sequence)).Nodup :=
      ((hperm.map _).nodup_iff).mpr hdistinct
    rw [IsLatest, IsLatest, newest_of_distinct hothers, newest_of_distinct hdistinct, hperm.mem_iff]
    exact and_congr_right fun _ => forall_congr' fun y => by rw [hperm.mem_iff]

/-- Two changes of one route and one of another. -/
def batch : List (Change Nat) := [⟨"route:a", 1, 1⟩, ⟨"route:b", 1, 1⟩, ⟨"route:a", 2, 2⟩]

theorem batch_fits : ∃ out, coalesce batch 2 = .ok out ∧ objects out = {"route:a", "route:b"} ∧
    ∀ c ∈ out, IsLatest batch c := by
  obtain ⟨hraises, hout, -, -⟩ := coalesce_latest batch 2 (by decide)
  have hobjects : objects batch = {"route:a", "route:b"} := by decide
  cases h : coalesce batch 2 with
  | error e =>
      have hover := hraises.mp ⟨e, h⟩
      rw [hobjects] at hover
      exact absurd hover (by decide)
  | ok out =>
      obtain ⟨-, hsame, hnewest⟩ := hout out h
      exact ⟨out, rfl, hsame.trans hobjects, hnewest⟩

end OufGateway.Publication
