import Mathlib
import Mathlib

/-!
# Continuous evidence in a timed log

A log is a list of entries in the order of their times. `Fresh` says that
from a given entry on every entry is good and no two neighbours are further
apart than a bound. The two rules are what a monitor needs: a good entry
begins a stretch, and a good entry close to the last one extends it.

A `Stretch` is the same seen from the end of the log: its last entries are good
and close to each other. The `MaximalStretch` is the one that cannot begin
earlier, which is what a monitor's timer marks.
-/

namespace OufGateway.Lib

variable {α K : Type*} [LinearOrder K]

/-- The entries from `t₀` on. -/
def since (time : α → K) (t₀ : K) (log : List α) : List α :=
  log.filter fun x => decide (t₀ ≤ time x)

variable {time : α → K} {t₀ : K} {log : List α} {x : α}

theorem since_snoc (h : t₀ ≤ time x) :
    since time t₀ (log ++ [x]) = since time t₀ log ++ [x] := by
  simp [since, h]

theorem since_eq_nil (h : ∀ y ∈ log, time y < t₀) : since time t₀ log = [] := by
  rw [since, List.filter_eq_nil_iff]
  intro y hy
  simpa using h y hy

variable [Sub K]

/-- The log has an entry at `t₀`, and from there on only good entries, each
within `gap` of the one before. -/
structure Fresh (time : α → K) (good : α → Prop) (gap t₀ : K) (log : List α) :
    Prop where
  start : ∃ x ∈ log, time x = t₀
  good : ∀ x ∈ since time t₀ log, good x
  close : (since time t₀ log).IsChain fun a b => time b - time a ≤ gap

variable {good : α → Prop} {gap : K}

theorem Fresh.begin (hlt : ∀ y ∈ log, time y < time x) (hx : good x) :
    Fresh time good gap (time x) (log ++ [x]) := by
  have hw : since time (time x) (log ++ [x]) = [x] := by
    rw [since_snoc le_rfl, since_eq_nil hlt, List.nil_append]
  refine ⟨⟨x, by simp, rfl⟩, ?_, ?_⟩
  · rw [hw]
    intro y hy
    rw [List.mem_singleton.mp hy]
    exact hx
  · rw [hw]
    exact List.isChain_singleton x

theorem Fresh.extend {last : α} (h : Fresh time good gap t₀ log)
    (hlast : log.getLast? = some last) (hge : t₀ ≤ time last)
    (hx : good x) (hle : t₀ ≤ time x) (hgap : time x - time last ≤ gap) :
    Fresh time good gap t₀ (log ++ [x]) := by
  obtain ⟨⟨y, hy, hyt⟩, hgood, hclose⟩ := h
  obtain ⟨init, rfl⟩ := List.getLast?_eq_some_iff.mp hlast
  refine ⟨⟨y, by simp at hy ⊢; tauto, hyt⟩, ?_, ?_⟩
  · rw [since_snoc hle]
    intro z hz
    rcases List.mem_append.mp hz with hz | hz
    · exact hgood z hz
    · rw [List.mem_singleton.mp hz]
      exact hx
  · rw [since_snoc hle, List.isChain_append]
    refine ⟨hclose, List.isChain_singleton x, ?_⟩
    intro a ha b hb
    rw [since_snoc hge] at ha
    obtain rfl : last = a := by simpa using ha
    obtain rfl : x = b := by simpa using hb
    exact hgap

/-! ## Stretches at the end of a log -/

/-- Good entries, each within `gap` of the one before. -/
structure Unbroken (time : α → K) (good : α → Prop) (gap : K) (run : List α) : Prop where
  good : ∀ x ∈ run, good x
  close : run.IsChain fun a b => time b - time a ≤ gap

/-- The log ends with an unbroken stretch that begins at `t₀`. -/
def Stretch (time : α → K) (good : α → Prop) (gap t₀ : K) (log : List α) : Prop :=
  ∃ pre head tail, log = pre ++ head :: tail ∧ time head = t₀ ∧
    Unbroken time good gap (head :: tail)

/-- The same, and what comes before the stretch breaks it. -/
def MaximalStretch (time : α → K) (good : α → Prop) (gap t₀ : K) (log : List α) : Prop :=
  ∃ pre head tail, log = pre ++ head :: tail ∧ time head = t₀ ∧
    Unbroken time good gap (head :: tail) ∧
    ∀ z ∈ pre.getLast?, ¬ good z ∨ gap < time head - time z

theorem MaximalStretch.stretch (h : MaximalStretch time good gap t₀ log) :
    Stretch time good gap t₀ log := by
  obtain ⟨pre, head, tail, hlog, ht, hrun, -⟩ := h
  exact ⟨pre, head, tail, hlog, ht, hrun⟩

theorem MaximalStretch.begin (hx : good x)
    (hbreak : ∀ z ∈ log.getLast?, ¬ good z ∨ gap < time x - time z) :
    MaximalStretch time good gap (time x) (log ++ [x]) := by
  refine ⟨log, x, [], rfl, rfl, ⟨fun y hy => ?_, List.isChain_singleton x⟩, hbreak⟩
  rw [List.mem_singleton.mp hy]
  exact hx

theorem MaximalStretch.extend (h : MaximalStretch time good gap t₀ log) (hx : good x)
    (hclose : ∀ z ∈ log.getLast?, time x - time z ≤ gap) :
    MaximalStretch time good gap t₀ (log ++ [x]) := by
  obtain ⟨pre, head, tail, rfl, ht, ⟨hgood, hchain⟩, hbreak⟩ := h
  refine ⟨pre, head, tail ++ [x], by simp, ht, ⟨fun y hy => ?_, ?_⟩, hbreak⟩
  · rw [← List.cons_append] at hy
    rcases List.mem_append.mp hy with hy | hy
    · exact hgood y hy
    · rw [List.mem_singleton.mp hy]
      exact hx
  · rw [← List.cons_append, List.isChain_append]
    refine ⟨hchain, List.isChain_singleton x, fun a ha b hb => ?_⟩
    obtain rfl : x = b := by simpa using hb
    refine hclose a ?_
    rw [List.getLast?_append_of_ne_nil _ (List.cons_ne_nil head tail)]
    exact ha

/-- No stretch begins before the maximal one. -/
theorem MaximalStretch.le {t₁ : K} (h : MaximalStretch time good gap t₀ log)
    (h' : Stretch time good gap t₁ log)
    (hsorted : log.Pairwise fun a b => time a < time b) : t₀ ≤ t₁ := by
  obtain ⟨pre, head, tail, rfl, rfl, hrun, hbreak⟩ := h
  obtain ⟨pre', head', tail', heq, rfl, hrun'⟩ := h'
  rcases List.append_eq_append_iff.mp heq with ⟨mid, rfl, hrest⟩ | ⟨mid, rfl, hrest⟩
  · -- The stretch begins inside the maximal one.
    rcases List.cons_eq_append_iff.mp hrest with ⟨-, hcons⟩ | ⟨mid', -, htail⟩
    · injection hcons with hhead
      rw [hhead]
    · have hmem : head' ∈ tail := by
        rw [htail]
        simp
      have hpair := (List.pairwise_append.mp hsorted).2.1
      exact (List.rel_of_pairwise_cons hpair hmem).le
  · rcases List.eq_nil_or_concat mid with rfl | ⟨mid', z, rfl⟩
    · rw [List.nil_append] at hrest
      injection hrest with hhead
      rw [hhead]
    · -- It would contain the entry that breaks the maximal one.
      exfalso
      have hlast : z ∈ (pre' ++ (mid'.concat z)).getLast? := by simp
      have hmem : z ∈ head' :: tail' := by
        rw [hrest]
        simp
      rcases hbreak z hlast with hbad | hgap
      · exact hbad (hrun'.good z hmem)
      · have hchain := hrun'.close
        rw [hrest, List.concat_eq_append, List.append_assoc, List.isChain_append] at hchain
        have hclose := (List.isChain_cons_cons.mp hchain.2.1).1
        exact absurd hclose (not_le.mpr hgap)

end OufGateway.Lib
