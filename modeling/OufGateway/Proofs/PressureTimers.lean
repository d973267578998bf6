import Mathlib
import OufGateway.Lib.Window
import OufGateway.Ref.Pressure
import OufGateway.Proofs.PressureRows

/-!
# Timers and hysteresis

What one accepted observation owes the observations before it, read off the row
invariant on both of its sides: the timers mark the maximal stretches, a pause
is left only into `PROBE` and only after 120 seconds of low evidence that all
lies after the pause, 90 seconds of high evidence end in a pause, and the eight
slots come back no earlier than 210 seconds after any pause.
-/

namespace OufGateway.Pressure

open Lib

variable {f f' : Frame} {s : Sample} {fp : String} {evs : List Accepted}

/-- The timer marks where the maximal stretch that ends with the sample began,
and is null when the sample is not good. -/
def Marks (good : Sample → Prop) (timer : Option ℚ) (s : Sample) (log : List Sample) : Prop :=
  (good s → ∃ t, timer = some t ∧ MaximalStretch Sample.observed good freshSeconds t log) ∧
    (¬ good s → timer = none)

theorem marks_of_timerOk {good : Sample → Prop} {timer : Option ℚ} {log : List Sample}
    (h : TimerOk good timer (log ++ [s])) : Marks good timer s (log ++ [s]) := by
  rcases h with ⟨hnone, hbad⟩ | ⟨t, ht, hmax⟩
  · refine ⟨fun hs => absurd hs (hbad s (by simp)), fun _ => hnone⟩
  · refine ⟨fun _ => ⟨t, ht, hmax⟩, fun hs => ?_⟩
    obtain ⟨pre, head, tail, heq, -, hrun, -⟩ := hmax
    refine absurd (hrun.good s ?_) hs
    have hlast : (log ++ [s]).getLast? = (head :: tail).getLast? := by
      rw [heq, List.getLast?_append_of_ne_nil _ (List.cons_ne_nil head tail)]
    rw [List.getLast?_concat] at hlast
    exact List.mem_of_getLast? hlast.symm

/-- What the accepted observation `e` owes the observations `before` it, of its
own scope. -/
structure Disciplined (before : List Accepted) (e : Accepted) : Prop where
  low : Marks Sample.low e.after.lowSince e.sample ((before ++ [e]).map Accepted.sample)
  high : Marks Sample.high e.after.highSince e.sample ((before ++ [e]).map Accepted.sample)
  leave : e.before.mode = .paused → e.after.mode ≠ .paused →
    e.after.mode = .probe ∧ e.after.slots = 1 ∧
      ∃ t, t + 120 ≤ e.sample.observed ∧
        Stretch Sample.observed Sample.low freshSeconds t ((before ++ [e]).map Accepted.sample) ∧
        ∀ p ∈ before, p.pauses → p.sample.observed < t
  sustained : ∀ t, t + 90 ≤ e.sample.observed →
    Stretch Sample.observed Sample.high freshSeconds t ((before ++ [e]).map Accepted.sample) →
    e.after.mode = .paused ∧ e.after.slots = 0
  regrant : e.after.slots = 8 →
    ∀ p ∈ before, p.pauses → p.sample.observed + 210 ≤ e.sample.observed

/-- The accepted observations of a scope come in the order of their times. -/
theorem Row.ordered (h : Row f evs) :
    (evs.map Accepted.sample).Pairwise fun a b => a.observed < b.observed := by
  rw [List.pairwise_map]
  have hchain : evs.IsChain fun a b : Accepted => a.sample.observed < b.sample.observed :=
    h.linked.imp fun _ _ hab => hab.2
  have : IsTrans Accepted fun a b => a.sample.observed < b.sample.observed :=
    ⟨fun _ _ _ => lt_trans⟩
  exact List.isChain_iff_pairwise.mp hchain

/-- A pause is left through a low sample on a timer of 120 seconds. -/
theorem decided_leaves (hm : f.mode = .paused) (h : (f.decided s).mode ≠ .paused) :
    f.decided s = ⟨.probe, 1, some s.observed⟩ ∧ s.low ∧
      held (f.nextLowSince s) 120 s.observed = true := by
  unfold Frame.decided at h ⊢
  split at h
  · exact absurd rfl h
  · next hp =>
    rw [if_neg hp]
    split at h
    · next hh =>
      rw [if_neg fun hne => hne.1 hm] at h
      exact absurd hm h
    · next hh =>
      rw [if_neg hh, hm]
      simp only [hm] at h ⊢
      split at h
      · next hcond => exact ⟨if_pos hcond, hcond⟩
      · exact absurd hm h

theorem disciplined (hf : Row f evs) (hf' : Row f' (evs ++ [⟨f, s, f'⟩]))
    (hadv : advance f s fp = .ok f') : Disciplined evs ⟨f, s, f'⟩ := by
  have hlow := hf'.low
  have hhigh := hf'.high
  rw [List.map_append] at hlow hhigh
  have hord := hf'.ordered
  rw [advance_written hf.ladder] at hadv
  obtain rfl : f.written s fp = f' := Except.ok.inj hadv
  refine ⟨?_, ?_, fun hm hleft => ?_, fun t ht hrun => ?_, fun hslots p hp hpause => ?_⟩
  · rw [List.map_append]
    exact marks_of_timerOk hlow
  · rw [List.map_append]
    exact marks_of_timerOk hhigh
  · obtain ⟨heq, hl, hheld⟩ := decided_leaves hm hleft
    refine ⟨congrArg Stage.mode heq, congrArg Stage.slots heq, ?_⟩
    obtain ⟨t, ht, hmax⟩ := (marks_of_timerOk hlow).1 hl
    have htimer : f.nextLowSince s = some t := ht
    rw [htimer, held, Option.any_some, decide_eq_true_eq] at hheld
    refine ⟨t, by show t + 120 ≤ s.observed; linarith, ?_, fun p hp hpause => ?_⟩
    · rw [List.map_append]
      exact hmax.stretch
    · obtain ⟨⟨last, hlast, hle, -⟩, hafter⟩ := hf.pauses p hp hpause
      -- The row before is still paused, so its low timer began after the pause.
      unfold Frame.nextLowSince at htimer
      rw [if_neg (not_not.mpr hl)] at htimer
      split at htimer
      · obtain rfl : s.observed = t := Option.some.inj htimer
        have hord' := hord
        rw [List.map_append, List.pairwise_append] at hord'
        exact hord'.2.2 p.sample (List.mem_map_of_mem hp) s (by simp)
      · exact hafter hm t htimer
  · obtain ⟨t₀, ht₀, hmax⟩ : ∃ t₀, f.nextHighSince s = some t₀ ∧
        MaximalStretch Sample.observed Sample.high freshSeconds t₀
          ((evs ++ [(⟨f, s, f.written s fp⟩ : Accepted)]).map Accepted.sample) := by
      have hmark := marks_of_timerOk hhigh
      by_cases hs : s.high
      · obtain ⟨t₀, h₀, hmax⟩ := hmark.1 hs
        rw [List.map_append]
        exact ⟨t₀, h₀, hmax⟩
      · exfalso
        obtain ⟨pre, head, tail, heq, -, hrun'⟩ := hrun
        refine hs (hrun'.good s ?_)
        have hlast := congrArg List.getLast? heq
        rw [List.map_append, List.getLast?_append_of_ne_nil _ (List.cons_ne_nil head tail)] at hlast
        exact List.mem_of_getLast? (by rw [← hlast]; simp)
    have hle : t₀ ≤ t := hmax.le hrun hord
    have hs : s.high := by
      by_contra hs
      unfold Frame.nextHighSince at ht₀
      rw [if_pos hs] at ht₀
      cases ht₀
    have hsus : f.sustained s := by
      refine ⟨hs, t₀, ht₀, ?_⟩
      have : t + 90 ≤ s.observed := ht
      linarith
    have hstage : f.decided s = ⟨.paused, 0, none⟩ := if_pos (Or.inr hsus)
    exact ⟨congrArg Stage.mode hstage, congrArg Stage.slots hstage⟩
  · obtain ⟨⟨last, hlast, -, hafter⟩, -⟩ := hf'.pauses p (by simp [hp]) hpause
    obtain rfl : s.observed = last := Option.some.inj hlast
    have hladder := hf'.ladder
    unfold Stage.After at hafter
    unfold Stage.Ladder at hladder
    have h8 : (f.written s fp).stage.slots = 8 := hslots
    rw [h8] at hladder
    cases hm : (f.written s fp).stage.mode <;> simp only [hm] at hladder hafter
    · exact hafter
    all_goals omega

/-- Every accepted observation of a trace, against those before it of its own
scope. -/
def Everywhere (P : List Accepted → Accepted → Prop) (tr : List Accepted) : Prop :=
  ∀ pre e post, tr = pre ++ e :: post → P (accepted e.before.scopeRef pre) e

end OufGateway.Pressure
