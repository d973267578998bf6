import Mathlib
import OufGateway.Ref.Pressure
import OufGateway.Proofs.PressurePromotion
import OufGateway.Proofs.PressureRows

/-!
# Worse evidence, fewer slots

Two observations of one frame that agree on time and attempts are compared
signal by signal. Every threshold of `observe` moves with the signals: what is
hard, sustained or high about the milder sample is so about the worse one, and
what is low about the worse one is low about the milder. The two timers see no
difference, since a sample counts for them only by being high or low.

So the slots could go the wrong way only where two branches of one mode disagree,
and that is `PROBE`: a sample that is merely not low pauses the scope, while one
that is high by its failure rate falls to the branch for high samples, which leaves
`PROBE` alone. `Frame.Inverts` is that pair of samples, and the theorem says that it
is the only one.
-/

namespace OufGateway.Pressure

open Lib

variable {f : Frame} {m w : Sample}

/-- `m` is at most as bad as `w` in every signal, at the same time and volume. -/
structure Sample.Milder (m w : Sample) : Prop where
  observed : m.observed = w.observed
  attempts : m.attempts = w.attempts
  failures : m.failures ≤ w.failures
  dependency : m.dependencyUnavailableSeconds ≤ w.dependencyUnavailableSeconds
  capacity : m.capacityFraction ≤ w.capacityFraction
  backlog : m.oldestBacklogSeconds ≤ w.oldestBacklogSeconds

/-- The frame is probing, the worse sample is high by its failure rate alone and
not for long, and the milder one is neither high nor low. -/
def Frame.Inverts (f : Frame) (w m : Sample) : Prop :=
  f.mode = .probe ∧ (w.high ∧ ¬ w.hard ∧ ¬ f.sustained w) ∧ ¬ m.high ∧ ¬ m.low

instance : Decidable (f.Inverts w m) := inferInstanceAs (Decidable (_ ∧ _ ∧ _ ∧ _))

/-! ## The signals -/

namespace Sample.Milder

theorem rate (h : m.Milder w) : m.rate ≤ w.rate := by
  have hfail : (m.failures : ℚ) ≤ w.failures := by exact_mod_cast h.failures
  unfold Sample.rate
  rw [h.attempts]
  split
  · exact le_rfl
  · gcongr

theorem hard (h : m.Milder w) (hm : m.hard) : w.hard := by
  rcases hm with hc | hd | ⟨hb, hc⟩
  · exact Or.inl (hc.trans h.capacity)
  · exact Or.inr (Or.inl (hd.trans h.dependency))
  · exact Or.inr (Or.inr ⟨hb.trans h.backlog, hc.trans h.capacity⟩)

theorem high (h : m.Milder w) (hm : m.high) : w.high := by
  rcases hm with hm | ⟨hn, hr⟩
  · exact Or.inl (h.hard hm)
  · exact Or.inr ⟨h.attempts ▸ hn, hr.trans h.rate⟩

theorem low (h : m.Milder w) (hw : w.low) : m.low := by
  obtain ⟨hc, hb, hd, hr⟩ := hw
  have hdep := h.dependency
  have hback := h.backlog
  exact ⟨h.capacity.trans hc, by omega, by omega, h.rate.trans hr⟩

theorem gap (h : m.Milder w) : f.gap m ↔ f.gap w := by
  unfold Frame.gap
  rw [h.observed]

theorem sustained (h : m.Milder w) (hm : f.sustained m) : f.sustained w := by
  obtain ⟨hhigh, since, hs, hheld⟩ := hm
  have hw := h.high hhigh
  refine ⟨hw, since, ?_, h.observed ▸ hheld⟩
  unfold Frame.nextHighSince at hs ⊢
  rw [if_neg (not_not.mpr hhigh)] at hs
  rw [if_neg (not_not.mpr hw), ← h.observed]
  simpa only [h.gap] using hs

theorem nextLowSince (h : m.Milder w) (hw : w.low) : f.nextLowSince m = f.nextLowSince w := by
  unfold Frame.nextLowSince
  rw [if_neg (not_not.mpr (h.low hw)), if_neg (not_not.mpr hw), h.observed]
  simp only [h.gap]

theorem promotable (h : m.Milder w) (hw : f.promotable w) : f.promotable m := by
  obtain ⟨hheld, hn, hfail⟩ := hw
  have hle := h.failures
  exact ⟨h.observed ▸ hheld, h.attempts ▸ hn, by omega⟩

end Sample.Milder

/-! ## The branches -/

variable {s : Sample}

theorem decided_pausing (h : s.hard ∨ f.sustained s) : (f.decided s).slots = 0 := by
  unfold Frame.decided
  rw [if_pos h]

theorem decided_high (h : ¬ (s.hard ∨ f.sustained s)) (hh : s.high) :
    f.decided s = if f.mode ≠ .paused ∧ f.mode ≠ .probe then ⟨.cautious, 2, none⟩
      else f.stage := by
  unfold Frame.decided
  rw [if_neg h, if_pos hh]

/-- The slots of a sample that is not high, mode by mode. -/
theorem decided_calm (h : ¬ (s.hard ∨ f.sustained s)) (hh : ¬ s.high) :
    (f.decided s).slots =
      match f.mode with
      | .normal => f.slots
      | .paused => if s.low ∧ held (f.nextLowSince s) 120 s.observed then 1 else f.slots
      | .probe => if ¬ s.low then 0 else if ¬ f.gap s ∧ f.promotable s then 2 else f.slots
      | .recovering =>
        if ¬ s.low then 2 else if f.gap s then f.slots
        else if f.promotable s then min businessSlots (f.slots * 2) else f.slots
      | .cautious =>
        if s.low ∧ held (f.nextLowSince s) 120 s.observed then 2 else f.slots := by
  unfold Frame.decided
  rw [if_neg h, if_neg hh]
  cases f.mode with
  | normal => rfl
  | paused => simp only []; split <;> rfl
  | probe => simp only []; split <;> [rfl; (split <;> rfl)]
  | recovering => simp only []; split <;> [rfl; (split <;> [rfl; (split <;> rfl)])]
  | cautious => simp only []; split <;> rfl

/-- The slots a frame has in each mode. -/
theorem ladder_slots (hf : f.stage.Ladder) :
    match f.mode with
    | .normal => f.slots = 8
    | .cautious => f.slots = 2
    | .paused => f.slots = 0
    | .probe => f.slots = 1
    | .recovering => f.slots = 2 ∨ f.slots = 4 := by
  unfold Stage.Ladder Frame.stage at hf
  cases hm : f.mode <;> simp only [hm] at hf
  · exact hf
  · exact hf
  · exact hf
  · exact hf.1
  · exact hf.1

/-! ## The comparison -/

/-- Two samples that are both not high never go the wrong way, outside `PROBE`
because no branch for a low sample grants less than the branch beside it, and in
`PROBE` because the milder one is low if the worse one is. -/
theorem decided_calm_le (hf : f.stage.Ladder) (h : m.Milder w)
    (hm : ¬ (m.hard ∨ f.sustained m)) (hmh : ¬ m.high)
    (hw : ¬ (w.hard ∨ f.sustained w)) (hwh : ¬ w.high) :
    (f.decided w).slots ≤ (f.decided m).slots := by
  have hslots := ladder_slots hf
  rw [decided_calm hw hwh, decided_calm hm hmh]
  cases hmode : f.mode with
  | normal => exact le_rfl
  | paused =>
      simp only [hmode] at hslots ⊢
      split
      · next hc =>
        rw [if_pos ⟨h.low hc.1, by rw [h.nextLowSince hc.1, h.observed]; exact hc.2⟩]
      · rw [hslots]
        exact Nat.zero_le _
  | cautious =>
      simp only [hmode] at hslots ⊢
      rw [hslots]
      split <;> split <;> omega
  | probe =>
      simp only [hmode] at hslots ⊢
      split
      · exact Nat.zero_le _
      · next hl =>
        have hml : m.low := h.low (not_not.mp hl)
        rw [if_neg (not_not.mpr hml)]
        split
        · next hc => rw [if_pos ⟨h.gap.not.mpr hc.1, h.promotable hc.2⟩]
        · rw [hslots]
          split <;> omega
  | recovering =>
      simp only [hmode] at hslots ⊢
      have hdouble : f.slots ≤ min businessSlots (f.slots * 2) := by
        simp only [businessSlots]
        omega
      by_cases hl : w.low
      · have hml : m.low := h.low hl
        rw [if_neg (not_not.mpr hl), if_neg (not_not.mpr hml)]
        by_cases hg : f.gap w
        · rw [if_pos hg, if_pos (h.gap.mpr hg)]
        · rw [if_neg hg, if_neg (h.gap.not.mpr hg)]
          by_cases hp : f.promotable w
          · rw [if_pos hp, if_pos (h.promotable hp)]
          · rw [if_neg hp]
            split <;> omega
      · rw [if_pos hl]
        split
        · exact le_rfl
        · split
          · omega
          · split <;> omega

/-- A worse sample that is high leaves at most two slots, and in `PAUSED` and
`PROBE` the slots the frame has. -/
theorem decided_high_le (hf : f.stage.Ladder)
    (hm : ¬ (m.hard ∨ f.sustained m)) (hw : ¬ (w.hard ∨ f.sustained w)) (hwh : w.high)
    (hi : ¬ f.Inverts w m) : (f.decided w).slots ≤ (f.decided m).slots := by
  have hslots := ladder_slots hf
  rw [decided_high hw hwh]
  by_cases hmh : m.high
  · rw [decided_high hm hmh]
  · rw [decided_calm hm hmh]
    cases hmode : f.mode with
    | normal =>
        simp only [hmode] at hslots
        rw [hslots]
        show 2 ≤ 8
        omega
    | paused =>
        simp only [hmode] at hslots
        show f.slots ≤ _
        omega
    | cautious =>
        simp only [hmode] at hslots ⊢
        show 2 ≤ _
        split <;> omega
    | probe =>
        have hml : m.low := by
          by_contra hml
          exact hi ⟨hmode, ⟨hwh, not_or.mp hw⟩, hmh, hml⟩
        simp only [hmode] at hslots ⊢
        show f.slots ≤ _
        rw [if_neg (not_not.mpr hml), hslots]
        split <;> omega
    | recovering =>
        simp only [hmode] at hslots ⊢
        show 2 ≤ _
        simp only [businessSlots]
        split
        · exact le_rfl
        · split
          · omega
          · split <;> omega

theorem decided_le (hf : f.stage.Ladder) (h : m.Milder w) (hi : ¬ f.Inverts w m) :
    (f.decided w).slots ≤ (f.decided m).slots := by
  by_cases hw : w.hard ∨ f.sustained w
  · rw [decided_pausing hw]
    exact Nat.zero_le _
  · have hm : ¬ (m.hard ∨ f.sustained m) := fun hm => hw (hm.imp h.hard h.sustained)
    by_cases hwh : w.high
    · exact decided_high_le hf hm hw hwh hi
    · exact decided_calm_le hf h hm (fun hmh => hwh (h.high hmh)) hw hwh

theorem decided_inverts (hf : f.stage.Ladder) (h : m.Milder w) (hi : f.Inverts w m) :
    (f.decided m).slots < (f.decided w).slots := by
  obtain ⟨hmode, ⟨hwh, hw⟩, hmh, hml⟩ := hi
  have hw' : ¬ (w.hard ∨ f.sustained w) := not_or.mpr hw
  have hm : ¬ (m.hard ∨ f.sustained m) := fun hm => hw' (hm.imp h.hard h.sustained)
  have hslots := ladder_slots hf
  rw [decided_high hw' hwh, decided_calm hm hmh]
  simp only [hmode] at hslots ⊢
  show _ < f.slots
  rw [if_pos hml, hslots]
  exact Nat.zero_lt_one

/-! ## Two observations of a reachable frame -/

variable {digest : PressureObservation → String}

/-- What an accepted observation stores in a reachable table. -/
theorem observe_stores {calls : List Call} {t' : List Frame} {scopeRef : String}
    {o : Option PressureObservation} {v : Int} {now : ℚ} {f' : Frame}
    (h : observe digest ((controller digest).run [] calls) scopeRef o v now =
      .ok (.accepted f s f', t')) :
    lookup ((controller digest).run [] calls) scopeRef = some f ∧ f.stage.Ladder ∧
      lookup t' scopeRef = some f' ∧ f'.slots = (f.decided s).slots := by
  rcases observe_cases h with ⟨hne, -⟩ | ⟨g, s', g', fp, heq, rfl, hg, hv, hadv, -⟩
  · cases hne
  · cases heq
    have hladder := ((rows_run digest calls).row scopeRef f hg).ladder
    obtain ⟨-, hsc, -, -⟩ := advance_spec hadv
    have hlook := lookup_scopeRef hg
    subst hlook
    refine ⟨hg, hladder, hsc ▸ lookup_store (hsc.symm ▸ hg) hv, ?_⟩
    rw [advance_written hladder] at hadv
    cases hadv
    rfl

/-- A pause and 120 seconds of low evidence up to the probe at 150. -/
def probing : List Call :=
  [.register "service://dependency", observeAt 0 1 0, observeAt 30 0 1, observeAt 60 0 2,
    observeAt 90 0 3, observeAt 120 0 4, observeAt 150 0 5]

/-- The row the probe of `probing` leaves. -/
def probingFrame : Frame :=
  ⟨"service://dependency", profile, 6, .probe, 1, some 150,
    some (sampleDigest (sampleAt 150 0)), none, some 30, some 150⟩

/-- Ten seconds into the probe, twenty attempts with `n` failures and every other
signal low. -/
def probedWith (n : Fin 21) : PressureObservation :=
  ⟨some 160, .int 300, .int 20, .int n, .int 0, .float 0, .int 0⟩

def probedSample (n : Fin 21) : Sample :=
  ⟨160, 20, n, 0, 0, 0, n.is_le, le_rfl, zero_le_one⟩

theorem probedSample_milder {n n' : Fin 21} (h : n ≤ n') :
    (probedSample n).Milder (probedSample n') :=
  ⟨rfl, rfl, h, le_rfl, le_rfl, le_rfl⟩

/-- The row and the table `n` failures leave. -/
def probedFrame (n : Fin 21) : Frame :=
  probingFrame.written (probedSample n) (sampleDigest (probedWith n))

def probedTable (n : Fin 21) : List Frame :=
  store ((controller sampleDigest).run [] probing) 6 (probedFrame n)

theorem probed_accepted : ∀ n : Fin 21,
    observe sampleDigest ((controller sampleDigest).run [] probing) "service://dependency"
      (some (probedWith n)) 6 160 =
        .ok (.accepted probingFrame (probedSample n) (probedFrame n), probedTable n) := by
  decide +kernel

end OufGateway.Pressure
