import Mathlib.Tactic.Linarith
import OufGateway.Lib.Except
import OufGateway.Lib.Window
import OufGateway.Ref.Pressure

/-!
# What a promotion out of a pause rests on

`stage_since` is the timer of a probing or recovering scope. The argument
here is that it marks the start of a stretch of fresh evidence: every
accepted observation since then was low and none came more than
`FRESH_SECONDS` after the one before. A promotion asks for 30 seconds on that
timer, so it rests on 30 seconds of such evidence.

The mode branches are read back once, as the constructors of `Moves`, and the
invariant is carried over an accepted observation by cases on them. Two
constructors break it, both in `PROBE`: an observation that is high by its
failure rate alone leaves the stage as it is, and so does a low one that
comes after a gap. `Handled` names the observations that take neither, and
`promotion_needs_fresh_evidence` is stated for the runs made of those;
`isolated_samples_promote` is a run that takes the second.
-/

namespace OufGateway.Pressure

open Lib

variable {f f' : Frame} {s : Sample} {g : Stage} {fp : String}

/-- A probing or recovering scope. -/
def Frame.inStage (f : Frame) : Prop := f.mode = .probe ∨ f.mode = .recovering

instance : Decidable f.inStage := inferInstanceAs (Decidable (_ ∨ _))

/-- Everything one observation can do to mode, slots and stage timer. -/
inductive Moves (f : Frame) (s : Sample) : Stage → Prop
  | pause (h : s.hard ∨ f.sustained s) : Moves f s ⟨.paused, 0, none⟩
  | caution (h : s.high) (hp : f.mode ≠ .paused) (hq : f.mode ≠ .probe) :
      Moves f s ⟨.cautious, 2, none⟩
  | ignore (hn : ¬ (s.hard ∨ f.sustained s)) (h : s.high)
      (hm : f.mode = .paused ∨ f.mode = .probe) : Moves f s f.stage
  | probe (hm : f.mode = .paused) (h : s.low) : Moves f s ⟨.probe, 1, some s.observed⟩
  | probeFail (hm : f.mode = .probe) (h : ¬ s.low) : Moves f s ⟨.paused, 0, none⟩
  | probePass {since : ℚ} (hm : f.mode = .probe) (h : s.low) (hg : ¬ f.gap s)
      (hs : f.stageSince = some since) (ht : 30 ≤ s.observed - since) :
      Moves f s ⟨.recovering, 2, some s.observed⟩
  | probeGap (hm : f.mode = .probe) (h : s.low) (hg : f.gap s) : Moves f s f.stage
  | recoverFail (hm : f.mode = .recovering) (h : ¬ s.low) : Moves f s ⟨.cautious, 2, none⟩
  | recoverGap (hm : f.mode = .recovering) (h : s.low) (hg : f.gap s) :
      Moves f s ⟨f.mode, f.slots, some s.observed⟩
  | recoverPass {since : ℚ} (hm : f.mode = .recovering) (h : s.low) (hg : ¬ f.gap s)
      (hs : f.stageSince = some since) (ht : 30 ≤ s.observed - since) (m : Mode) :
      Moves f s ⟨m, min businessSlots (f.slots * 2), some s.observed⟩
  | resume (hm : f.mode = .cautious) (h : s.low) :
      Moves f s ⟨.recovering, 2, some s.observed⟩
  | wait (hm : f.mode = .probe ∨ f.mode = .recovering) (h : s.low) (hg : ¬ f.gap s) :
      Moves f s f.stage
  | stay (hp : f.mode ≠ .probe) (hr : f.mode ≠ .recovering) : Moves f s f.stage

/-- The timer arithmetic of `observe`, read back. -/
theorem elapsed_bind {t : ℚ} {o : Option ℚ} {k : ℚ → Except PressureError Stage}
    (h : (elapsed t o >>= k) = .ok g) : ∃ since, o = some since ∧ k (t - since) = .ok g := by
  obtain ⟨held, he, h⟩ := bind_eq_ok.mp h
  cases o with
  | none => cases he
  | some since => cases he; exact ⟨since, rfl, h⟩

theorem nextStage_moves (h : nextStage f s = .ok g) : Moves f s g := by
  unfold nextStage at h
  split at h
  · next hp => injection h with h; exact h ▸ .pause hp
  · next hp =>
      split at h
      · next hh =>
          split at h
          · next hm => injection h with h; exact h ▸ .caution hh hm.1 hm.2
          · next hm =>
              injection h with h
              exact h ▸ .ignore hp hh (by tauto)
      · next hh =>
          split at h
          · next hm =>
              split at h
              · next hl =>
                  obtain ⟨since, -, h⟩ := elapsed_bind h
                  split at h <;> injection h with h
                  · exact h ▸ .probe hm hl
                  · exact h ▸ .stay (by simp [hm]) (by simp [hm])
              · injection h with h
                exact h ▸ .stay (by simp [hm]) (by simp [hm])
          · next hm =>
              split at h
              · next hl => injection h with h; exact h ▸ .probeFail hm hl
              · next hl =>
                  rw [not_not] at hl
                  split at h
                  · next hg =>
                      obtain ⟨since, hs, h⟩ := elapsed_bind h
                      split at h <;> injection h with h
                      · next ht => exact h ▸ .probePass hm hl hg hs ht.1
                      · exact h ▸ .wait (.inl hm) hl hg
                  · next hg => injection h with h; exact h ▸ .probeGap hm hl (not_not.mp hg)
          · next hm =>
              split at h
              · next hl => injection h with h; exact h ▸ .recoverFail hm hl
              · next hl =>
                  rw [not_not] at hl
                  split at h
                  · next hg => injection h with h; exact h ▸ .recoverGap hm hl hg
                  · next hg =>
                      obtain ⟨since, hs, h⟩ := elapsed_bind h
                      split at h <;> injection h with h
                      · next ht => exact h ▸ .recoverPass hm hl hg hs ht.1 _
                      · exact h ▸ .wait (.inr hm) hl hg
          · next hm =>
              split at h
              · next hl =>
                  obtain ⟨since, -, h⟩ := elapsed_bind h
                  split at h <;> injection h with h
                  · exact h ▸ .resume hm hl
                  · exact h ▸ .stay (by simp [hm]) (by simp [hm])
              · injection h with h
                exact h ▸ .stay (by simp [hm]) (by simp [hm])
          · next hm => injection h with h; exact h ▸ .stay (by simp [hm]) (by simp [hm])

/-- What an accepted observation writes besides the stage. -/
theorem advance_spec (h : advance f s fp = .ok f') :
    Moves f s f'.stage ∧ f'.scopeRef = f.scopeRef ∧ f'.version = f.version + 1 ∧
      f'.lastObservedAt = some s.observed := by
  obtain ⟨g, hg, h⟩ := bind_eq_ok.mp h
  cases h
  exact ⟨nextStage_moves hg, rfl, rfl, rfl⟩

/-- A low sample is not a high one. -/
theorem low_not_high (h : s.low) : ¬ s.high := by
  obtain ⟨hc, hb, hd, hr⟩ := h
  rintro ((hc' | hd' | ⟨hb', -⟩) | ⟨-, hr'⟩)
  · linarith
  · omega
  · omega
  · linarith

/-! ## The claim's vocabulary -/

/-- An observation `PROBE` does not let pass unanswered: it is not high by
its failure rate alone, and not low after a gap. -/
def Handled (e : Accepted) : Prop :=
  ¬ (e.before.mode = .probe ∧
    ((e.sample.high ∧ ¬ (e.sample.hard ∨ e.before.sustained e.sample)) ∨
      (e.sample.low ∧ e.before.gap e.sample)))

/-- The accepted observations of one scope, oldest first. -/
def history (scopeRef : String) (tr : List Accepted) : List Sample :=
  (tr.filter (·.before.scopeRef = scopeRef)).map (·.sample)

/-- Fresh low evidence since `t₀`. -/
abbrev FreshLow (t₀ : ℚ) (log : List Sample) : Prop :=
  Fresh Sample.observed Sample.low freshSeconds t₀ log

/-- A raise of the slots in `PROBE` or `RECOVERING`. -/
def Accepted.promotes (e : Accepted) : Prop :=
  e.before.inStage ∧ e.before.slots < e.after.slots

instance (e : Accepted) : Decidable e.promotes := inferInstanceAs (Decidable (_ ∧ _))

/-- What the accepted observation `e` owes the observations before it: a
promotion ends at least 30 seconds of a stage made of fresh low evidence, and
a non-low sample or a gap restarts the stage or ends it. -/
structure Sound (log : List Sample) (e : Accepted) : Prop where
  promotion : e.promotes → ∃ t₀, e.before.stageSince = some t₀ ∧
    t₀ + 30 ≤ e.sample.observed ∧ FreshLow t₀ (log ++ [e.sample])
  restart : e.before.inStage → ¬ e.sample.low ∨ e.before.gap e.sample →
    ¬ e.after.inStage ∨ e.after.stageSince = some e.sample.observed

/-! ## The invariant of one row -/

/-- A row against the observations accepted for it so far. -/
structure RowInv (f : Frame) (log : List Sample) : Prop where
  last : f.lastObservedAt = log.getLast?.map Sample.observed
  before : ∀ last ∈ f.lastObservedAt, ∀ x ∈ log, x.observed ≤ last
  slots : f.mode = .recovering → 2 ≤ f.slots
  stage : f.inStage → ∃ t₀, f.stageSince = some t₀ ∧ FreshLow t₀ log

theorem rowInv_registered (scopeRef : String) : RowInv (Frame.registered scopeRef) [] :=
  ⟨rfl, by simp, by simp [Frame.registered], by simp [Frame.inStage, Frame.registered]⟩

variable {log : List Sample}

theorem exists_last {x : Sample} (hf : RowInv f log) (hx : x ∈ log) :
    ∃ last ∈ f.lastObservedAt, x.observed ≤ last := by
  obtain ⟨z, hz⟩ := Option.isSome_iff_exists.mp
    (List.getLast?_isSome.mpr (List.ne_nil_of_mem hx))
  have hl : z.observed ∈ f.lastObservedAt := by rw [hf.last, hz]; rfl
  exact ⟨z.observed, hl, hf.before _ hl x hx⟩

/-- A low sample without a gap extends the stretch. -/
theorem FreshLow.extend {t₀ : ℚ} (h : FreshLow t₀ log) (hf : RowInv f log)
    (hlow : s.low) (hgap : ¬ f.gap s) (hlt : ∀ last ∈ f.lastObservedAt, last < s.observed) :
    FreshLow t₀ (log ++ [s]) := by
  simp only [Frame.gap, not_forall, not_lt] at hgap
  obtain ⟨last, hlast, hgap⟩ := hgap
  have hle : t₀ ≤ last := by
    obtain ⟨x, hx, rfl⟩ := h.start
    exact hf.before last hlast x hx
  have hs := hlt last hlast
  rw [hf.last] at hlast
  obtain ⟨x, hx, rfl⟩ := Option.map_eq_some_iff.mp hlast
  exact Fresh.extend h hx hle hlow (hle.trans hs.le) hgap

/-- A low sample begins a stretch of its own. -/
theorem freshLow_begin (hf : RowInv f log) (hlow : s.low)
    (hlt : ∀ last ∈ f.lastObservedAt, last < s.observed) :
    FreshLow s.observed (log ++ [s]) := by
  refine Fresh.begin (fun y hy => ?_) hlow
  obtain ⟨last, hlast, hle⟩ := exists_last hf hy
  exact hle.trans_lt (hlt last hlast)

/-- What the new row owes, given its stage. -/
theorem rowInv_snoc (hf : RowInv f log) (hlast : f'.lastObservedAt = some s.observed)
    (hlt : ∀ last ∈ f.lastObservedAt, last < s.observed)
    (hslots : f'.mode = .recovering → 2 ≤ f'.slots)
    (hstage : f'.inStage → ∃ t₀, f'.stageSince = some t₀ ∧ FreshLow t₀ (log ++ [s])) :
    RowInv f' (log ++ [s]) where
  last := by rw [hlast]; simp
  before := by
    intro last hl x hx
    rw [hlast] at hl
    obtain rfl : s.observed = last := by simpa using hl
    rcases List.mem_append.mp hx with hx | hx
    · obtain ⟨last, hlast, hle⟩ := exists_last hf hx
      exact hle.trans (hlt last hlast).le
    · rw [List.mem_singleton.mp hx]
  slots := hslots
  stage := hstage

theorem stage_eq {m : Mode} {n : Nat} {o : Option ℚ} :
    f.stage = ⟨m, n, o⟩ ↔ f.mode = m ∧ f.slots = n ∧ f.stageSince = o := by
  simp [Frame.stage]

/-- The step lemma: an accepted observation keeps the invariant and is sound,
unless it is one of the two `Handled` leaves out. -/
theorem advance_sound (h : advance f s fp = .ok f') (hf : RowInv f log)
    (hlt : ∀ last ∈ f.lastObservedAt, last < s.observed) (hok : Handled ⟨f, s, f'⟩) :
    RowInv f' (log ++ [s]) ∧ Sound log ⟨f, s, f'⟩ := by
  obtain ⟨hmoves, -, -, hlast⟩ := advance_spec h
  have hrow : (f'.mode = .recovering → 2 ≤ f'.slots) →
      (f'.inStage → ∃ t₀, f'.stageSince = some t₀ ∧ FreshLow t₀ (log ++ [s])) →
      RowInv f' (log ++ [s]) := rowInv_snoc hf hlast hlt
  have hbegin := fun hl : s.low => freshLow_begin hf hl hlt
  -- A stage that was left alone by a low sample without a gap goes on.
  have hextend : s.low → ¬ f.gap s → f.inStage →
      ∃ t₀, f.stageSince = some t₀ ∧ FreshLow t₀ (log ++ [s]) := fun hl hg hi => by
    obtain ⟨t₀, ht, hfr⟩ := hf.stage hi
    exact ⟨t₀, ht, hfr.extend hf hl hg hlt⟩
  generalize hst : f'.stage = g at hmoves
  -- The observation left stage and slots as they were.
  have hkeep : g = f.stage → f'.mode = f.mode ∧ f'.slots = f.slots ∧
      f'.stageSince = f.stageSince := fun hg => stage_eq.mp (hst.trans hg)
  cases hmoves with
  | pause hp =>
      obtain ⟨hm, hn, ho⟩ := stage_eq.mp hst
      have hout : ¬ f'.inStage := by simp [Frame.inStage, hm]
      exact ⟨hrow (by simp [hm]) (absurd · hout),
        ⟨fun hpr => absurd hpr.2 (by simp [hn]), fun _ _ => .inl hout⟩⟩
  | caution hh hp hq =>
      obtain ⟨hm, hn, ho⟩ := stage_eq.mp hst
      have hout : ¬ f'.inStage := by simp [Frame.inStage, hm]
      refine ⟨hrow (by simp [hm]) (absurd · hout), ⟨fun hpr => ?_, fun _ _ => .inl hout⟩⟩
      have := hf.slots (hpr.1.resolve_left hq)
      have := hpr.2
      simp only [hn] at this
      omega
  | ignore hn hh hm =>
      obtain ⟨hm', hn', ho⟩ := hkeep rfl
      have hp : f.mode = .paused := hm.resolve_right fun hq =>
        hok ⟨hq, .inl ⟨hh, hn⟩⟩
      have hout : ¬ f'.inStage := by simp [Frame.inStage, hm', hp]
      exact ⟨hrow (by simp [hm', hp]) (absurd · hout),
        ⟨fun hpr => absurd hpr.2 (by simp [hn']), fun _ _ => .inl hout⟩⟩
  | probe hm hl =>
      obtain ⟨hm', hn, ho⟩ := stage_eq.mp hst
      refine ⟨hrow (by simp [hm']) fun _ => ⟨_, ho, hbegin hl⟩, ⟨fun hpr => ?_, fun _ _ => .inr ho⟩⟩
      exact absurd hpr.1 (by simp [Frame.inStage, hm])
  | probeFail hm hl =>
      obtain ⟨hm', hn, ho⟩ := stage_eq.mp hst
      have hout : ¬ f'.inStage := by simp [Frame.inStage, hm']
      exact ⟨hrow (by simp [hm']) (absurd · hout),
        ⟨fun hpr => absurd hpr.2 (by simp [hn]), fun _ _ => .inl hout⟩⟩
  | @probePass t hm hl hg hs ht =>
      obtain ⟨hm', hn, ho⟩ := stage_eq.mp hst
      refine ⟨hrow (by simp [hn]) fun _ => ⟨_, ho, hbegin hl⟩, ⟨fun _ => ?_, fun _ _ => .inr ho⟩⟩
      obtain ⟨t₀, ht₀, hfr⟩ := hextend hl hg (.inl hm)
      obtain rfl : t = t₀ := Option.some.inj (hs.symm.trans ht₀)
      exact ⟨t, hs, by linarith, hfr⟩
  | probeGap hm hl hg => exact absurd ⟨hm, .inr ⟨hl, hg⟩⟩ hok
  | recoverFail hm hl =>
      obtain ⟨hm', hn, ho⟩ := stage_eq.mp hst
      have hout : ¬ f'.inStage := by simp [Frame.inStage, hm']
      refine ⟨hrow (by simp [hm']) (absurd · hout), ⟨fun hpr => ?_, fun _ _ => .inl hout⟩⟩
      have := hf.slots hm
      have := hpr.2
      simp only [hn] at this
      omega
  | recoverGap hm hl hg =>
      obtain ⟨hm', hn, ho⟩ := stage_eq.mp hst
      exact ⟨hrow (fun _ => hn ▸ hf.slots hm) fun _ => ⟨_, ho, hbegin hl⟩,
        ⟨fun hpr => absurd hpr.2 (by simp [hn]), fun _ _ => .inr ho⟩⟩
  | @recoverPass t hm hl hg hs ht m =>
      obtain ⟨hm', hn, ho⟩ := stage_eq.mp hst
      have hslots : 2 ≤ f'.slots := by
        have := hf.slots hm
        rw [hn, businessSlots]
        omega
      refine ⟨hrow (fun _ => hslots) fun _ => ⟨_, ho, hbegin hl⟩, ⟨fun _ => ?_, fun _ _ => .inr ho⟩⟩
      obtain ⟨t₀, ht₀, hfr⟩ := hextend hl hg (.inr hm)
      obtain rfl : t = t₀ := Option.some.inj (hs.symm.trans ht₀)
      exact ⟨t, hs, by linarith, hfr⟩
  | resume hm hl =>
      obtain ⟨hm', hn, ho⟩ := stage_eq.mp hst
      refine ⟨hrow (by simp [hn]) fun _ => ⟨_, ho, hbegin hl⟩, ⟨fun hpr => ?_, fun _ _ => .inr ho⟩⟩
      exact absurd hpr.1 (by simp [Frame.inStage, hm])
  | wait hm hl hg =>
      obtain ⟨hm', hn, ho⟩ := hkeep rfl
      refine ⟨hrow (fun hr => hn ▸ hf.slots (hm' ▸ hr)) fun _ => ho ▸ hextend hl hg hm,
        ⟨fun hpr => absurd hpr.2 (by simp [hn]), fun _ hbad => ?_⟩⟩
      exact absurd hbad (by tauto)
  | stay hp hr =>
      obtain ⟨hm', hn, ho⟩ := hkeep rfl
      have hout : ¬ f'.inStage := by simp [Frame.inStage, hm', hp, hr]
      exact ⟨hrow (by simp [hm', hr]) (absurd · hout),
        ⟨fun hpr => absurd hpr.2 (by simp [hn]), fun _ _ => .inl hout⟩⟩

/-- The two observations `Handled` leaves out do not touch the stage. -/
theorem nextStage_of_not_handled (h : ¬ Handled ⟨f, s, f'⟩) :
    f.mode = .probe ∧ (¬ s.low ∨ f.gap s) ∧ nextStage f s = .ok f.stage := by
  simp only [Handled, not_not] at h
  obtain ⟨hm, ⟨hh, hn⟩ | ⟨hl, hg⟩⟩ := h
  · refine ⟨hm, .inl fun hl => low_not_high hl hh, ?_⟩
    simp [nextStage, hn, hh, hm]
  · have hh := low_not_high hl
    have hn : ¬ (s.hard ∨ f.sustained s) :=
      fun hp => hh (hp.elim Or.inl And.left)
    refine ⟨hm, .inr hg, ?_⟩
    simp [nextStage, hn, hh, hm, hl, hg]

/-- So neither of them is sound: the stage timer stays where it was. -/
theorem handled_of_sound (h : advance f s fp = .ok f') (hf : RowInv f log)
    (hlt : ∀ last ∈ f.lastObservedAt, last < s.observed) (hs : Sound log ⟨f, s, f'⟩) :
    Handled ⟨f, s, f'⟩ := by
  by_contra hn
  obtain ⟨hm, hbad, hnext⟩ := nextStage_of_not_handled hn
  obtain ⟨g, hg, h⟩ := bind_eq_ok.mp h
  rw [hnext] at hg
  cases hg
  cases h
  obtain ⟨t₀, ht₀, hfr⟩ := hf.stage (.inl hm)
  obtain ⟨x, hx, rfl⟩ := hfr.start
  obtain ⟨last, hlast, hle⟩ := exists_last hf hx
  rcases hs.restart (.inl hm) hbad with hout | hst
  · exact hout (.inl hm)
  · have heq : x.observed = s.observed := Option.some.inj (ht₀.symm.trans hst)
    have := hlt last hlast
    linarith

/-! ## The table, and runs -/

theorem lookup_scopeRef {t : List Frame} {scopeRef : String}
    (h : lookup t scopeRef = some f) : f.scopeRef = scopeRef := by
  simpa using List.find?_some h

theorem lookup_store {t : List Frame} {v : Int} {row : Frame}
    (h : lookup t row.scopeRef = some f) (hv : (f.version : Int) = v) :
    lookup (store t v row) row.scopeRef = some row := by
  induction t with
  | nil => cases h
  | cons x t ih =>
      simp only [lookup, store, List.map_cons, List.find?_cons] at h ih ⊢
      by_cases hx : x.scopeRef = row.scopeRef
      · simp only [hx, decide_true, Option.some.injEq] at h
        subst h
        simp [hx, hv]
      · simp only [hx, decide_false, false_and, if_false] at h ⊢
        exact ih h

theorem lookup_store_of_ne {t : List Frame} {v : Int} {row : Frame} {scopeRef : String}
    (h : scopeRef ≠ row.scopeRef) : lookup (store t v row) scopeRef = lookup t scopeRef := by
  induction t with
  | nil => rfl
  | cons x t ih =>
      simp only [lookup, store, List.map_cons, List.find?_cons] at ih ⊢
      by_cases hx : x.scopeRef = row.scopeRef ∧ (x.version : Int) = v
      · have hne : ¬ row.scopeRef = scopeRef := fun he => h he.symm
        have hxne : ¬ x.scopeRef = scopeRef := fun he => h (he.symm.trans hx.1)
        simp only [hx, and_self, if_true, hne, decide_false]
        rw [ih]
      · simp only [hx, if_false]
        rw [ih]

variable {digest : PressureObservation → String}

/-- Everything one call of `observe` can do to the table. -/
theorem observe_cases {t t' : List Frame} {scopeRef : String}
    {o : Option PressureObservation} {v : Int} {now : ℚ} {r : Observed}
    (h : observe digest t scopeRef o v now = .ok (r, t')) :
    (r = .duplicate ∧ t' = t) ∨
      ∃ f s f' fp, r = .accepted f s f' ∧ t' = store t v f' ∧
        lookup t scopeRef = some f ∧ (f.version : Int) = v ∧
        advance f s fp = .ok f' ∧ ∀ last ∈ f.lastObservedAt, last < s.observed := by
  obtain ⟨-, h⟩ := guard_eq_ok.mp h
  obtain ⟨s, -, h⟩ := bind_eq_ok.mp h
  cases hl : lookup t scopeRef with
  | none => simp [hl] at h
  | some f =>
      simp only [hl] at h
      obtain ⟨-, h⟩ := guard_eq_ok.mp h
      split at h
      · cases h
        exact .inl ⟨rfl, rfl⟩
      · obtain ⟨hconf, h⟩ := guard_eq_ok.mp h
        obtain ⟨f', hadv, h⟩ := bind_eq_ok.mp h
        cases h
        push Not at hconf
        exact .inr ⟨f, s, f', _, rfl, rfl, rfl, hconf.1, hadv, hconf.2⟩

/-- Every registered row against the observations accepted for its scope. -/
def TableInv (t : List Frame) (tr : List Accepted) : Prop :=
  ∀ scopeRef, (∀ f, lookup t scopeRef = some f → RowInv f (history scopeRef tr)) ∧
    (lookup t scopeRef = none → history scopeRef tr = [])

theorem history_snoc (scopeRef : String) (tr : List Accepted) (e : Accepted) :
    history scopeRef (tr ++ [e]) =
      if e.before.scopeRef = scopeRef then history scopeRef tr ++ [e.sample]
      else history scopeRef tr := by
  by_cases h : e.before.scopeRef = scopeRef <;> simp [history, List.filter_append, h]

theorem tableInv_register {t t' : List Frame} {tr : List Accepted} {scopeRef : String}
    (h : registerScope t scopeRef = .ok t') (ht : TableInv t tr) : TableInv t' tr := by
  obtain ⟨-, h⟩ := guard_eq_ok.mp h
  cases hl : lookup t scopeRef with
  | some f =>
      simp only [hl] at h
      obtain ⟨-, h⟩ := guard_eq_ok.mp h
      cases h
      exact ht
  | none =>
      simp only [hl] at h
      obtain ⟨-, h⟩ := guard_eq_ok.mp h
      cases h
      intro sc
      have hlk : lookup (t ++ [Frame.registered scopeRef]) sc =
          (lookup t sc).or (lookup [Frame.registered scopeRef] sc) := List.find?_append
      refine ⟨fun f hf => ?_, fun hn => ?_⟩
      · rw [hlk] at hf
        rcases Option.or_eq_some_iff.mp hf with hf | ⟨hn, hf⟩
        · exact (ht sc).1 f hf
        · rw [(ht sc).2 hn]
          obtain rfl : Frame.registered scopeRef = f := by
            simpa using List.mem_of_find?_eq_some hf |> List.mem_singleton.mp |>.symm
          exact rowInv_registered scopeRef
      · rw [hlk] at hn
        exact (ht sc).2 (Option.or_eq_none_iff.mp hn).1

theorem tableInv_accept {t : List Frame} {tr : List Accepted} {v : Int}
    (hf : lookup t f.scopeRef = some f) (hv : (f.version : Int) = v)
    (hadv : advance f s fp = .ok f') (hlt : ∀ last ∈ f.lastObservedAt, last < s.observed)
    (hok : Handled ⟨f, s, f'⟩) (ht : TableInv t tr) :
    TableInv (store t v f') (tr ++ [⟨f, s, f'⟩]) := by
  obtain ⟨hrow, -⟩ := advance_sound hadv ((ht f.scopeRef).1 f hf) hlt hok
  obtain ⟨-, hsc, -, -⟩ := advance_spec hadv
  intro sc
  rw [history_snoc]
  by_cases heq : sc = f'.scopeRef
  · subst heq
    rw [lookup_store (hsc ▸ hf) hv, if_pos hsc.symm]
    refine ⟨fun g hg => ?_, fun hn => by cases hn⟩
    cases hg
    exact hsc ▸ hrow
  · rw [lookup_store_of_ne heq, if_neg fun h => heq (h.symm.trans hsc.symm)]
    exact ht sc

/-- Every accepted observation of the trace is sound. -/
def AllSound (tr : List Accepted) : Prop :=
  ∀ pre e post, tr = pre ++ e :: post → Sound (history e.before.scopeRef pre) e

theorem allSound_nil : AllSound [] := by
  intro pre e post h
  simp at h

theorem allSound_snoc {tr : List Accepted} {e : Accepted} :
    AllSound (tr ++ [e]) ↔ AllSound tr ∧ Sound (history e.before.scopeRef tr) e := by
  refine ⟨fun h => ⟨fun pre x post hx => ?_, h tr e [] (by simp)⟩, ?_⟩
  · exact h pre x (post ++ [e]) (by simp [hx])
  · rintro ⟨h, he⟩ pre x post heq
    rcases snoc_eq_split heq with ⟨rfl, rfl, -⟩ | ⟨post', -, hpre⟩
    · exact he
    · exact h pre x post' hpre

/-- The run lemma: along a run the rows keep their invariant exactly as long
as every observation is handled, and exactly as long as every one is sound. -/
theorem run_inv (calls : List Call) :
    let tr := (controller digest).trace [] calls
    (AllSound tr ↔ ∀ e ∈ tr, Handled e) ∧
      (AllSound tr → TableInv ((controller digest).run [] calls) tr) := by
  refine (controller digest).invariant (P := fun t tr =>
    (AllSound tr ↔ ∀ e ∈ tr, Handled e) ∧ (AllSound tr → TableInv t tr)) ?_ ?_ calls
  · refine ⟨by simp [allSound_nil], fun _ sc => ⟨fun f hf => ?_, fun _ => rfl⟩⟩
    cases hf
  · intro t tr c ⟨hiff, ht⟩
    cases c with
    | register scopeRef =>
        simp only [controller, List.append_nil]
        refine ⟨hiff, fun ha => ?_⟩
        cases h : registerScope t scopeRef with
        | error e => exact ht ha
        | ok t' => exact tableInv_register h (ht ha)
    | observe scopeRef o v now =>
        simp only [controller]
        cases h : observe digest t scopeRef o v now with
        | error e => simpa using ⟨hiff, ht⟩
        | ok r =>
            obtain ⟨r, t'⟩ := r
            rcases observe_cases h with ⟨rfl, rfl⟩ | ⟨f, s, f', fp, rfl, rfl, hf, hv, hadv, hlt⟩
            · simpa using ⟨hiff, ht⟩
            · have hsc := lookup_scopeRef hf
              subst hsc
              -- The one new observation is sound exactly if it is handled.
              have hnew : AllSound tr →
                  (Sound (history f.scopeRef tr) ⟨f, s, f'⟩ ↔ Handled ⟨f, s, f'⟩) :=
                fun ha => ⟨handled_of_sound hadv ((ht ha f.scopeRef).1 f hf) hlt,
                  fun hok => (advance_sound hadv ((ht ha f.scopeRef).1 f hf) hlt hok).2⟩
              simp only [allSound_snoc, List.forall_mem_append, List.forall_mem_singleton]
              refine ⟨?_, fun ⟨ha, hs⟩ =>
                tableInv_accept hf hv hadv hlt ((hnew ha).mp hs) (ht ha)⟩
              rw [← hiff]
              exact and_congr_right hnew

/-- A sample at `t` seconds with every signal low but the capacity. -/
def sampleAt (t capacity : ℚ) : PressureObservation :=
  ⟨some t, .int 300, .int 10, .int 0, .int 0, .float capacity, .int 0⟩

/-- One observation of the scope at its own time. -/
def observeAt (t capacity : ℚ) (version : Int) : Call :=
  .observe "service://dependency" (some (sampleAt t capacity)) version t

/-- A pause, 120 seconds of low evidence up to the probe at 150, nothing for
31 seconds, and two samples one second apart. -/
def isolatedSamples : List Call :=
  [.register "service://dependency", observeAt 0 1 0, observeAt 30 0 1, observeAt 60 0 2,
    observeAt 90 0 3, observeAt 120 0 4, observeAt 150 0 5, observeAt 181 0 6,
    observeAt 182 0 7]

/-- A digest that tells the samples of `isolatedSamples` apart. -/
def sampleDigest (o : PressureObservation) : String :=
  String.ofList (List.replicate (o.observedAt.getD 0).num.natAbs 'x')

theorem isolatedSamples_accepted :
    (controller sampleDigest).trace [] isolatedSamples ≠ [] := by decide +kernel

end OufGateway.Pressure
