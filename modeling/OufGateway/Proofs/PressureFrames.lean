import OufGateway.Proofs.PressureRows

/-!
# The columns of a pressure row fit together

The mode, the slots and the three timers of a row are written apart, and what they
have to do with each other is stated nowhere in the code. `decided_cases` says what
an observation can make of the first two and the stage timer: nothing, a pause, a
caution, or a stage that begins with it. The other timers begin with an observation
or go on, and never both, as no sample is high and low. So the row that was fit
stays fit (`WellFormed.written`), over every run of registrations and observations,
and no branch meets a timer that is null.
-/

namespace OufGateway.Pressure

open Lib

variable {f f' : Frame} {s : Sample} {fp : String}

/-! ## A row -/

/-- The slots of each mode. -/
def Frame.SlotsFit (f : Frame) : Prop :=
  match f.mode with
  | .normal => f.slots = 8
  | .cautious => f.slots = 2
  | .paused => f.slots = 0
  | .probe => f.slots = 1
  | .recovering => f.slots = 2 ∨ f.slots = 4

/-- The last observation is not before this time. -/
def Frame.Seen (f : Frame) (since : ℚ) : Prop := ∃ last, f.lastObservedAt = some last ∧ since ≤ last

structure Frame.WellFormed (f : Frame) : Prop where
  slots : f.SlotsFit
  staged : f.mode = .probe ∨ f.mode = .recovering → f.stageSince ≠ none
  unstaged : f.mode = .cautious ∨ f.mode = .paused → f.stageSince = none
  stage : ∀ since, f.stageSince = some since → f.Seen since
  apart : f.highSince = none ∨ f.lowSince = none
  high : ∀ since, f.highSince = some since → f.Seen since
  low : ∀ since, f.lowSince = some since → f.Seen since

theorem ladder_iff : f.stage.Ladder ↔
    f.SlotsFit ∧ (f.mode = .probe ∨ f.mode = .recovering → f.stageSince ≠ none) := by
  unfold Stage.Ladder Frame.SlotsFit Frame.stage
  cases f.mode <;> simp [Option.ne_none_iff_exists']

/-! ## An observation -/

/-- What an observation can make of a stage. -/
theorem decided_cases (f : Frame) (s : Sample) :
    f.decided s = f.stage ∨ f.decided s = ⟨.paused, 0, none⟩ ∨ f.decided s = ⟨.cautious, 2, none⟩
      ∨ ∃ mode slots, f.decided s = ⟨mode, slots, some s.observed⟩ ∧ mode ≠ .cautious ∧ mode ≠ .paused := by
  unfold Frame.decided
  split
  · exact .inr (.inl rfl)
  · split
    · split
      · exact .inr (.inr (.inl rfl))
      · exact .inl rfl
    · cases f.mode with
      | normal => exact .inl rfl
      | paused =>
          simp only []
          split
          · exact .inr (.inr (.inr ⟨_, _, rfl, by simp, by simp⟩))
          · exact .inl rfl
      | cautious =>
          simp only []
          split
          · exact .inr (.inr (.inr ⟨_, _, rfl, by simp, by simp⟩))
          · exact .inl rfl
      | probe =>
          simp only []
          split
          · exact .inr (.inl rfl)
          · split
            · exact .inr (.inr (.inr ⟨_, _, rfl, by simp, by simp⟩))
            · exact .inl rfl
      | recovering =>
          simp only []
          split
          · exact .inr (.inr (.inl rfl))
          · split
            · exact .inr (.inr (.inr ⟨_, _, rfl, by simp, by simp⟩))
            · split
              · refine .inr (.inr (.inr ⟨_, _, rfl, ?_, ?_⟩)) <;> split <;> simp
              · exact .inl rfl

/-- A timer that went on or began is not ahead of the observation. -/
theorem next_le {good : Prop} [Decidable good] {gap : Prop} [Decidable gap] {timer : Option ℚ} {observed since : ℚ}
    (htimer : ∀ t, timer = some t → t ≤ observed)
    (h : (if ¬ good then none else if gap ∨ timer = none then some observed else timer) = some since) :
    since ≤ observed := by
  split at h
  · cases h
  · split at h
    · exact (Option.some.inj h).ge
    · exact htimer since h

theorem next_apart : f.nextHighSince s = none ∨ f.nextLowSince s = none := by
  by_cases hl : s.low
  · have hh : ¬ s.high := low_not_high hl
    exact .inl (if_pos hh)
  · exact .inr (if_pos hl)

/-- The step lemma. -/
theorem Frame.WellFormed.written (hf : f.WellFormed) (hlt : ∀ last ∈ f.lastObservedAt, last < s.observed) :
    (f.written s fp).WellFormed := by
  have hstage : (f.written s fp).stage.Ladder := decided_ladder (ladder_iff.mpr ⟨hf.slots, hf.staged⟩)
  have hladder := ladder_iff.mp hstage
  have hpast : ∀ since, f.Seen since → since ≤ s.observed := by
    rintro since ⟨last, hlast, hle⟩
    exact hle.trans (hlt last hlast).le
  have hseen : ∀ since, since ≤ s.observed → (f.written s fp).Seen since := fun since h => ⟨_, rfl, h⟩
  refine ⟨hladder.1, hladder.2, fun hmode => ?_, fun since hsince => hseen since ?_, next_apart,
    fun since hsince => hseen since (next_le (fun t ht => hpast t (hf.high t ht)) hsince),
    fun since hsince => hseen since (next_le (fun t ht => hpast t (hf.low t ht)) hsince)⟩
  · change (f.decided s).mode = .cautious ∨ (f.decided s).mode = .paused at hmode
    change (f.decided s).since = none
    rcases decided_cases f s with h | h | h | ⟨mode, slots, h, hcautious, hpaused⟩
    · rw [h] at hmode ⊢
      exact hf.unstaged hmode
    · rw [h]
    · rw [h]
    · rw [h] at hmode
      exact absurd hmode (not_or.mpr ⟨hcautious, hpaused⟩)
  · change (f.decided s).since = some since at hsince
    rcases decided_cases f s with h | h | h | ⟨mode, slots, h, -, -⟩
    · rw [h] at hsince
      exact hpast since (hf.stage since hsince)
    · rw [h] at hsince
      cases hsince
    · rw [h] at hsince
      cases hsince
    · rw [h] at hsince
      exact (Option.some.inj hsince).ge

theorem wellFormed_registered (scopeRef : String) : (Frame.registered scopeRef).WellFormed where
  slots := rfl
  staged := by simp [Frame.registered]
  unstaged := by simp [Frame.registered]
  stage := by simp [Frame.registered]
  apart := .inl rfl
  high := by simp [Frame.registered]
  low := by simp [Frame.registered]

/-! ## Runs -/

theorem lookup_register {t t' : List Frame} {scopeRef sc : String} (h : registerScope t scopeRef = .ok t')
    (hf : lookup t' sc = some f) : lookup t sc = some f ∨ f = Frame.registered scopeRef := by
  obtain ⟨-, h⟩ := guard_eq_ok.mp h
  cases hl : lookup t scopeRef with
  | some g =>
      simp only [hl] at h
      obtain ⟨-, h⟩ := guard_eq_ok.mp h
      cases h
      exact .inl hf
  | none =>
      simp only [hl] at h
      obtain ⟨-, h⟩ := guard_eq_ok.mp h
      cases h
      rw [lookup, List.find?_append] at hf
      rcases Option.or_eq_some_iff.mp hf with hf | ⟨-, hf⟩
      · exact .inl hf
      · exact .inr (List.mem_singleton.mp (List.mem_of_find?_eq_some hf))

/-- What holds of a new row and of what an observation makes of one holds of the rows of every run. -/
theorem frames_run (digest : PressureObservation → String) {P : Frame → Prop}
    (hnew : ∀ scopeRef, P (Frame.registered scopeRef))
    (hstep : ∀ f s fp f', P f → (∀ last ∈ f.lastObservedAt, last < s.observed) → advance f s fp = .ok f' → P f')
    (calls : List Call) : ∀ scopeRef f, lookup ((controller digest).run [] calls) scopeRef = some f → P f := by
  refine (controller digest).invariant (P := fun t _ => ∀ scopeRef f, lookup t scopeRef = some f → P f) ?_ ?_ calls
  · intro scopeRef f h
    cases h
  · intro t _ c ht
    cases c with
    | register scopeRef =>
        simp only [controller]
        cases h : registerScope t scopeRef with
        | error e => exact ht
        | ok t' =>
            intro sc f hf
            rcases lookup_register h hf with hf | rfl
            · exact ht sc f hf
            · exact hnew _
    | observe scopeRef o v now =>
        simp only [controller]
        cases h : observe digest t scopeRef o v now with
        | error e => exact ht
        | ok r =>
            obtain ⟨r, t'⟩ := r
            rcases observe_cases h with ⟨rfl, rfl⟩ | ⟨f, s, f', fp, rfl, rfl, hf, hv, hadv, hlt⟩
            · exact ht
            · intro sc g hg
              obtain ⟨-, hsc, -, -⟩ := advance_spec hadv
              have hfirst := lookup_scopeRef hf
              by_cases heq : sc = f'.scopeRef
              · subst heq
                rw [lookup_store ((hsc.trans hfirst) ▸ hf) hv] at hg
                cases hg
                exact hstep f s fp f' (ht _ f hf) hlt hadv
              · rw [lookup_store_of_ne heq] at hg
                exact ht sc g hg

theorem count_error {x : Scalar} {e : PressureError} (h : x.count = .error e) : e = observationInvalid := by
  unfold Scalar.count at h
  split at h
  · split at h
    · cases h
    · exact (Except.error.inj h).symm
  · exact (Except.error.inj h).symm

theorem finite_error {x : Scalar} {e : PressureError} (h : x.finite = .error e) : e = observationInvalid := by
  cases x with
  | int n => cases h
  | float q => cases h
  | nonfinite => exact (Except.error.inj h).symm
  | other => exact (Except.error.inj h).symm

/-- A sample is refused with a `ValueError`. -/
theorem validate_error {sample : Option PressureObservation} {now : ℚ} {e : PressureError}
    (h : validate sample now = .error e) : ∃ code, e = .value code := by
  unfold validate at h
  split at h
  · exact ⟨_, (Except.error.inj h).symm⟩
  · split at h
    · exact ⟨_, (Except.error.inj h).symm⟩
    · split at h
      · exact ⟨_, (Except.error.inj h).symm⟩
      · obtain h | ⟨_, -, h⟩ := bind_eq_error.mp h
        · exact ⟨_, count_error h⟩
        obtain h | ⟨_, -, h⟩ := bind_eq_error.mp h
        · exact ⟨_, count_error h⟩
        obtain h | ⟨_, -, h⟩ := bind_eq_error.mp h
        · exact ⟨_, count_error h⟩
        obtain h | ⟨_, -, h⟩ := bind_eq_error.mp h
        · exact ⟨_, count_error h⟩
        obtain h | ⟨_, -, h⟩ := bind_eq_error.mp h
        · exact ⟨_, count_error h⟩
        obtain h | ⟨_, -, h⟩ := bind_eq_error.mp h
        · exact ⟨_, finite_error h⟩
        split at h
        · cases h
        · exact ⟨_, (Except.error.inj h).symm⟩

theorem observe_no_typeError {digest : PressureObservation → String} {t : List Frame} {scopeRef : String}
    {observation : Option PressureObservation} {v : Int} {now : ℚ}
    (h : ∀ f, lookup t scopeRef = some f → f.stage.Ladder) :
    observe digest t scopeRef observation v now ≠ .error .typeError := by
  intro herror
  unfold observe at herror
  split at herror
  · cases herror
  · obtain hvalid | ⟨s, -, herror⟩ := bind_eq_error.mp herror
    · obtain ⟨code, hcode⟩ := validate_error hvalid
      cases hcode
    · cases hf : lookup t scopeRef with
      | none =>
          simp only [hf] at herror
          cases herror
      | some f =>
          simp only [hf, advance_written (h f hf)] at herror
          split at herror
          · cases herror
          · split at herror
            · cases herror
            · split at herror <;> cases herror

/-- Every row of every run is well formed, and no observation meets a null timer in it. -/
theorem frames_well_formed (digest : PressureObservation → String) (calls : List Call) :
    (∀ scopeRef f, lookup ((controller digest).run [] calls) scopeRef = some f → f.WellFormed)
      ∧ ∀ scopeRef observation v now,
          observe digest ((controller digest).run [] calls) scopeRef observation v now ≠ .error .typeError := by
  have hrows : ∀ scopeRef f, lookup ((controller digest).run [] calls) scopeRef = some f → f.WellFormed := by
    refine frames_run digest wellFormed_registered (fun f s fp f' hf hlt hadv => ?_) calls
    rw [advance_written (ladder_iff.mpr ⟨hf.slots, hf.staged⟩)] at hadv
    obtain rfl := Except.ok.inj hadv
    exact hf.written hlt
  refine ⟨hrows, fun scopeRef observation v now => observe_no_typeError fun f hf => ?_⟩
  have hf := hrows scopeRef f hf
  exact ladder_iff.mpr ⟨hf.slots, hf.staged⟩

end OufGateway.Pressure
