import Mathlib
import OufGateway.Lib.Except
import OufGateway.Lib.Window
import OufGateway.Ref.Pressure
import OufGateway.Proofs.PressurePromotion

/-!
# What every accepted observation leaves in its row

The invariant here holds of every run, whatever the observations: slots go by
the mode, the two timers mark the maximal stretches of low and of high evidence,
and the accepted observations of a scope form one chain, each starting from the
row the one before it wrote. For every observation that moved the scope into
`PAUSED` the row also remembers how far it has come since: `Stage.After` gives
the least time, counted from the pause, at which a row of its mode can have been
written. `PROBE` is 120 seconds away, each further stage another 30, and `NORMAL`
with its eight slots is the last.

The mode branches are read off a total function, `Frame.decided`: on a row whose
slots go by its mode no branch meets a null timer, and `nextStage` answers what
`decided` says.
-/

namespace OufGateway.Pressure

open Lib

variable {f f' : Frame} {s : Sample} {g : Stage} {fp : String}

/-! ## The decision without its exceptions -/

/-- `observed - since >= seconds`, of a timer that runs. -/
def held (timer : Option ℚ) (seconds observed : ℚ) : Bool :=
  timer.any fun since => seconds ≤ observed - since

/-- What a promotion asks of one sample. -/
def Frame.promotable (f : Frame) (s : Sample) : Prop :=
  held f.stageSince 30 s.observed = true ∧ 0 < s.attempts ∧ s.failures = 0

instance : Decidable (f.promotable s) := inferInstanceAs (Decidable (_ ∧ _ ∧ _))

def Frame.decided (f : Frame) (s : Sample) : Stage :=
  if s.hard ∨ f.sustained s then ⟨.paused, 0, none⟩
  else if s.high then
    if f.mode ≠ .paused ∧ f.mode ≠ .probe then ⟨.cautious, 2, none⟩ else f.stage
  else match f.mode with
    | .normal => f.stage
    | .paused =>
      if s.low ∧ held (f.nextLowSince s) 120 s.observed then ⟨.probe, 1, some s.observed⟩
      else f.stage
    | .probe =>
      if ¬ s.low then ⟨.paused, 0, none⟩
      else if ¬ f.gap s ∧ f.promotable s then ⟨.recovering, 2, some s.observed⟩
      else f.stage
    | .recovering =>
      if ¬ s.low then ⟨.cautious, 2, none⟩
      else if f.gap s then ⟨.recovering, f.slots, some s.observed⟩
      else if f.promotable s then
        ⟨if min businessSlots (f.slots * 2) = businessSlots then .normal else .recovering,
          min businessSlots (f.slots * 2), some s.observed⟩
      else f.stage
    | .cautious =>
      if s.low ∧ held (f.nextLowSince s) 120 s.observed then ⟨.recovering, 2, some s.observed⟩
      else f.stage

/-- Slots by mode; a stage with a timer has one. -/
def Stage.Ladder (g : Stage) : Prop :=
  match g.mode with
  | .normal => g.slots = 8
  | .cautious => g.slots = 2
  | .paused => g.slots = 0
  | .probe => g.slots = 1 ∧ ∃ since, g.since = some since
  | .recovering => (g.slots = 2 ∨ g.slots = 4) ∧ ∃ since, g.since = some since

theorem nextLowSince_some (hl : s.low) : ∃ since, f.nextLowSince s = some since := by
  unfold Frame.nextLowSince
  rw [if_neg (not_not.mpr hl)]
  split
  · exact ⟨_, rfl⟩
  · next h =>
    push Not at h
    exact Option.ne_none_iff_exists'.mp h.2

theorem nextStage_decided (hf : f.stage.Ladder) : nextStage f s = .ok (f.decided s) := by
  unfold nextStage Frame.decided
  split
  · rfl
  · split
    · split <;> rfl
    · cases hm : f.mode with
      | normal => rfl
      | paused =>
          by_cases hl : s.low
          · obtain ⟨since, hs⟩ := nextLowSince_some (f := f) hl
            simp only [hl, hs, held, elapsed, Option.any_some, decide_eq_true_eq, true_and, if_true]
            show (if _ then _ else _) = _
            split <;> rfl
          · simp [hl]
      | cautious =>
          by_cases hl : s.low
          · obtain ⟨since, hs⟩ := nextLowSince_some (f := f) hl
            simp only [hl, hs, held, elapsed, Option.any_some, decide_eq_true_eq, true_and, if_true]
            show (if _ then _ else _) = _
            split <;> rfl
          · simp [hl]
      | probe =>
          obtain ⟨since, hs⟩ : ∃ since, f.stageSince = some since := by
            simp only [Stage.Ladder, Frame.stage, hm] at hf
            exact hf.2
          by_cases hl : s.low
          · by_cases hg : f.gap s
            · simp [hl, hg]
            · simp only [hl, hg, Frame.promotable, hs, held, elapsed, Option.any_some,
                decide_eq_true_eq, not_true_eq_false, not_false_eq_true, true_and, if_true, if_false]
              show (if _ then _ else _) = _
              split <;> rfl
          · simp [hl]
      | recovering =>
          obtain ⟨since, hs⟩ : ∃ since, f.stageSince = some since := by
            simp only [Stage.Ladder, Frame.stage, hm] at hf
            exact hf.2
          by_cases hl : s.low
          · by_cases hg : f.gap s
            · simp [hl, hg]
            · simp only [hl, hg, Frame.promotable, hs, held, elapsed, Option.any_some,
                decide_eq_true_eq, not_true_eq_false, if_false]
              show (if _ then _ else _) = _
              split <;> rfl
          · simp [hl]

theorem decided_ladder (hf : f.stage.Ladder) : (f.decided s).Ladder := by
  unfold Frame.decided
  split
  · rfl
  · split
    · split
      · rfl
      · exact hf
    · cases hm : f.mode with
      | normal => exact hf
      | paused =>
          simp only []
          split
          · exact ⟨rfl, _, rfl⟩
          · exact hf
      | cautious =>
          simp only []
          split
          · exact ⟨Or.inl rfl, _, rfl⟩
          · exact hf
      | probe =>
          simp only []
          split
          · rfl
          · split
            · exact ⟨Or.inl rfl, _, rfl⟩
            · exact hf
      | recovering =>
          have hslots : f.slots = 2 ∨ f.slots = 4 := by
            simp only [Stage.Ladder, Frame.stage, hm] at hf
            exact hf.1
          simp only []
          split
          · rfl
          · split
            · exact ⟨hslots, _, rfl⟩
            · split
              · rcases hslots with h | h
                · rw [h]
                  exact ⟨Or.inr rfl, _, rfl⟩
                · rw [h]
                  rfl
              · exact hf

/-- A new pause, or one that goes on through a low sample, was one before. -/
theorem decided_paused (h : (f.decided s).mode = .paused) : f.mode = .paused ∨ ¬ s.low := by
  unfold Frame.decided at h
  split at h
  · next hp => exact Or.inr fun hl => low_not_high hl (hp.elim Or.inl And.left)
  · split at h
    · next hh => exact Or.inr fun hl => low_not_high hl hh
    · split at h
      · next hm => exact Or.inl h
      · next hm => exact Or.inl hm
      · split at h
        · next hl => exact Or.inr hl
        · split at h
          · cases h
          · exact Or.inl h
      · split at h
        · cases h
        · split at h
          · cases h
          · split at h
            · split at h <;> cases h
            · exact Or.inl h
      · split at h
        · cases h
        · exact Or.inl h

/-! ## How far from a pause -/

/-- The least time a row of this stage can have, counted from a pause at `t`:
by its stage timer while it has one, else by its last observation. -/
def Stage.After (g : Stage) (t last : ℚ) : Prop :=
  match g.mode with
  | .normal => t + 210 ≤ last
  | .cautious => t + 150 ≤ last
  | .paused => True
  | .probe => ∃ since, g.since = some since ∧ since ≤ last ∧ t + 120 ≤ since
  | .recovering => ∃ since, g.since = some since ∧ since ≤ last ∧
      (g.slots = 2 ∧ t + 150 ≤ since ∨ g.slots = 4 ∧ t + 180 ≤ since)

/-- A row some time after a pause at `t`. -/
structure Frame.AfterPause (f : Frame) (t : ℚ) : Prop where
  reached : ∃ last, f.lastObservedAt = some last ∧ t ≤ last ∧ f.stage.After t last
  low : f.mode = .paused → ∀ since ∈ f.lowSince, t < since

theorem Stage.After.mono {t last last' : ℚ} (h : g.After t last) (hle : last ≤ last') :
    g.After t last' := by
  unfold Stage.After at h ⊢
  cases hm : g.mode <;> simp only [hm] at h ⊢
  · linarith
  · linarith
  · obtain ⟨since, hs, hlast, ht⟩ := h
    exact ⟨since, hs, hlast.trans hle, ht⟩
  · obtain ⟨since, hs, hlast, ht⟩ := h
    exact ⟨since, hs, hlast.trans hle, ht⟩

theorem nextLowSince_after {t last : ℚ} (hp : f.mode = .paused → ∀ since ∈ f.lowSince, t < since)
    (hm : f.mode = .paused) (hlast : t ≤ last) (hlt : last < s.observed) :
    ∀ since ∈ f.nextLowSince s, t < since := by
  intro since hs
  unfold Frame.nextLowSince at hs
  split at hs
  · cases hs
  · split at hs
    · obtain rfl : s.observed = since := by simpa using hs
      linarith
    · exact hp hm since hs

/-- The step lemma for the distance from a pause. -/
theorem decided_after {t last : ℚ} (h : f.stage.After t last)
    (hlow : f.mode = .paused → ∀ since ∈ f.lowSince, t < since) (hlast : t ≤ last)
    (hlt : last < s.observed) : (f.decided s).After t s.observed := by
  have hstay : f.stage.After t s.observed := h.mono hlt.le
  unfold Frame.decided
  split
  · trivial
  · split
    · split
      · next hm =>
        -- Neither paused nor probing, so at least 150 seconds have gone by.
        show t + 150 ≤ s.observed
        unfold Stage.After Frame.stage at h
        cases hmode : f.mode <;> simp only [hmode] at h hm
        · linarith
        · linarith
        · exact absurd rfl hm.1
        · exact absurd rfl hm.2
        · obtain ⟨since, -, hle, ⟨-, ht⟩ | ⟨-, ht⟩⟩ := h <;> linarith
      · exact hstay
    · cases hm : f.mode with
      | normal => exact hstay
      | paused =>
          simp only []
          split
          · next hcond =>
            obtain ⟨hl, hheld⟩ := hcond
            obtain ⟨since, hs⟩ := nextLowSince_some (f := f) hl
            have hafter := nextLowSince_after hlow hm hlast hlt since hs
            rw [hs, held, Option.any_some, decide_eq_true_eq] at hheld
            exact ⟨_, rfl, le_rfl, by linarith⟩
          · exact hstay
      | cautious =>
          simp only []
          split
          · have h150 : t + 150 ≤ last := by
              simpa only [Stage.After, Frame.stage, hm] using h
            exact ⟨_, rfl, le_rfl, Or.inl ⟨rfl, by linarith⟩⟩
          · exact hstay
      | probe =>
          simp only []
          split
          · trivial
          · split
            · next hcond =>
              obtain ⟨-, hheld, -⟩ := hcond
              obtain ⟨since, hs, -, ht⟩ : ∃ since, f.stageSince = some since ∧ since ≤ last ∧
                  t + 120 ≤ since := by simpa only [Stage.After, Frame.stage, hm] using h
              rw [hs, held, Option.any_some, decide_eq_true_eq] at hheld
              exact ⟨_, rfl, le_rfl, Or.inl ⟨rfl, by linarith⟩⟩
            · exact hstay
      | recovering =>
          obtain ⟨since, hs, hle, hslots⟩ : ∃ since, f.stageSince = some since ∧ since ≤ last ∧
              (f.slots = 2 ∧ t + 150 ≤ since ∨ f.slots = 4 ∧ t + 180 ≤ since) := by
            simpa only [Stage.After, Frame.stage, hm] using h
          simp only []
          split
          · show t + 150 ≤ s.observed
            rcases hslots with ⟨-, ht⟩ | ⟨-, ht⟩ <;> linarith
          · split
            · refine ⟨_, rfl, le_rfl, ?_⟩
              rcases hslots with ⟨hn, ht⟩ | ⟨hn, ht⟩
              · exact Or.inl ⟨hn, by linarith⟩
              · exact Or.inr ⟨hn, by linarith⟩
            · split
              · next hcond =>
                have hheld := hcond.1
                rw [hs, held, Option.any_some, decide_eq_true_eq] at hheld
                rcases hslots with ⟨hn, ht⟩ | ⟨hn, ht⟩
                · rw [hn]
                  exact ⟨_, rfl, le_rfl, Or.inr ⟨rfl, by linarith⟩⟩
                · rw [hn]
                  show t + 210 ≤ s.observed
                  linarith
              · exact hstay

/-! ## The timers -/

/-- The timer runs exactly while the last sample is good, and marks where the
maximal stretch that ends with it began. -/
def TimerOk (good : Sample → Prop) (timer : Option ℚ) (log : List Sample) : Prop :=
  (timer = none ∧ ∀ z ∈ log.getLast?, ¬ good z) ∨
    ∃ t, timer = some t ∧ MaximalStretch Sample.observed good freshSeconds t log

/-- How `observe` moves either timer. -/
theorem timerOk_snoc {good : Sample → Prop} [Decidable (good s)] {timer : Option ℚ}
    {log : List Sample} (h : TimerOk good timer log)
    (hlast : f.lastObservedAt = log.getLast?.map Sample.observed) :
    TimerOk good (if ¬ good s then none
      else if f.gap s ∨ timer = none then some s.observed else timer) (log ++ [s]) := by
  by_cases hs : good s
  · rw [if_neg (not_not.mpr hs)]
    by_cases hg : f.gap s
    · rw [if_pos (Or.inl hg)]
      refine Or.inr ⟨_, rfl, MaximalStretch.begin hs fun z hz => Or.inr (hg _ ?_)⟩
      rw [hlast]
      exact Option.mem_map_of_mem _ hz
    · rcases h with ⟨hnone, hbad⟩ | ⟨t, ht, hmax⟩
      · rw [if_pos (Or.inr hnone)]
        exact Or.inr ⟨_, rfl, MaximalStretch.begin hs fun z hz => Or.inl (hbad z hz)⟩
      · rw [if_neg (by rw [ht]; simp [hg])]
        refine Or.inr ⟨t, ht, hmax.extend hs fun z hz => ?_⟩
        simp only [Frame.gap, not_forall, not_lt] at hg
        obtain ⟨last, hmem, hle⟩ := hg
        rw [hlast, Option.mem_map] at hmem
        obtain ⟨z', hz', rfl⟩ := hmem
        rw [Option.mem_def] at hz hz'
        rw [hz'] at hz
        cases hz
        exact hle
  · rw [if_pos hs]
    refine Or.inl ⟨rfl, fun z hz => ?_⟩
    obtain rfl : s = z := by simpa using hz
    exact hs

/-! ## The invariant of one row -/

/-- The row `observe` writes. -/
def Frame.written (f : Frame) (s : Sample) (fp : String) : Frame :=
  { f with
    version := f.version + 1, mode := (f.decided s).mode, slots := (f.decided s).slots
    lastObservedAt := some s.observed, lastDigest := some fp
    highSince := f.nextHighSince s, lowSince := f.nextLowSince s
    stageSince := (f.decided s).since }

theorem advance_written (hf : f.stage.Ladder) : advance f s fp = .ok (f.written s fp) := by
  unfold advance
  rw [nextStage_decided hf]
  rfl

/-- An accepted observation starts from the row the one before it wrote. -/
def Linked (a b : Accepted) : Prop :=
  a.after = b.before ∧ a.sample.observed < b.sample.observed

/-- The observation moves its scope into `PAUSED`. -/
def Accepted.pauses (e : Accepted) : Prop := e.before.mode ≠ .paused ∧ e.after.mode = .paused

/-- A row against the observations accepted for it so far. -/
structure Row (f : Frame) (evs : List Accepted) : Prop where
  current : (evs.getLast?.map Accepted.after).getD (Frame.registered f.scopeRef) = f
  linked : evs.IsChain Linked
  versions : ∀ e ∈ evs, e.after.version = e.before.version + 1
  last : f.lastObservedAt = (evs.map Accepted.sample).getLast?.map Sample.observed
  low : TimerOk Sample.low f.lowSince (evs.map Accepted.sample)
  high : TimerOk Sample.high f.highSince (evs.map Accepted.sample)
  ladder : f.stage.Ladder
  pauses : ∀ e ∈ evs, e.pauses → f.AfterPause e.sample.observed

theorem row_registered (scopeRef : String) : Row (Frame.registered scopeRef) [] where
  current := rfl
  linked := List.isChain_nil
  versions := by simp
  last := rfl
  low := Or.inl ⟨rfl, by simp⟩
  high := Or.inl ⟨rfl, by simp⟩
  ladder := rfl
  pauses := by simp

variable {evs : List Accepted}

/-- The step lemma: an accepted observation keeps the invariant. -/
theorem row_snoc (hf : Row f evs) (hadv : advance f s fp = .ok f')
    (hlt : ∀ last ∈ f.lastObservedAt, last < s.observed) :
    Row f' (evs ++ [⟨f, s, f'⟩]) := by
  rw [advance_written hf.ladder] at hadv
  obtain rfl : f.written s fp = f' := Except.ok.inj hadv
  refine ⟨by simp, ?_, ?_, by simp [Frame.written], ?_, ?_, decided_ladder hf.ladder, ?_⟩
  · rw [List.isChain_append]
    refine ⟨hf.linked, List.isChain_singleton _, fun a ha b hb => ?_⟩
    obtain rfl : (⟨f, s, f.written s fp⟩ : Accepted) = b := by simpa using hb
    have hcur := hf.current
    have hlast := hf.last
    rw [Option.mem_def] at ha
    rw [ha] at hcur
    rw [List.getLast?_map, ha] at hlast
    exact ⟨hcur, hlt _ hlast⟩
  · intro e he
    rcases List.mem_append.mp he with he | he
    · exact hf.versions e he
    · rw [List.mem_singleton.mp he]
      rfl
  · rw [List.map_append]
    exact timerOk_snoc hf.low hf.last
  · rw [List.map_append]
    exact timerOk_snoc hf.high hf.last
  · intro e he hp
    rcases List.mem_append.mp he with he | he
    · obtain ⟨⟨last, hlast, hle, hafter⟩, hlow⟩ := hf.pauses e he hp
      have hnew := hlt last hlast
      refine ⟨⟨_, rfl, by linarith, decided_after hafter hlow hle hnew⟩, fun hm => ?_⟩
      rcases decided_paused hm with hm | hl
      · exact nextLowSince_after hlow hm hle hnew
      · show ∀ since ∈ f.nextLowSince s, _
        rw [Frame.nextLowSince, if_pos hl]
        simp
    · obtain rfl := List.mem_singleton.mp he
      have hl : ¬ s.low := (decided_paused hp.2).resolve_left hp.1
      refine ⟨⟨_, rfl, le_rfl, ?_⟩, fun _ => ?_⟩
      · have hm : (f.decided s).mode = .paused := hp.2
        show (f.decided s).After _ _
        unfold Stage.After
        rw [hm]
        trivial
      · show ∀ since ∈ f.nextLowSince s, _
        rw [Frame.nextLowSince, if_pos hl]
        simp

/-! ## Runs -/

/-- The accepted observations of one scope, oldest first. -/
def accepted (scopeRef : String) (tr : List Accepted) : List Accepted :=
  tr.filter (·.before.scopeRef = scopeRef)

theorem accepted_snoc (scopeRef : String) (tr : List Accepted) (e : Accepted) :
    accepted scopeRef (tr ++ [e]) =
      if e.before.scopeRef = scopeRef then accepted scopeRef tr ++ [e]
      else accepted scopeRef tr := by
  by_cases h : e.before.scopeRef = scopeRef <;> simp [accepted, List.filter_append, h]

/-- Every registered row against the observations accepted for its scope, and
every observation against those before it. -/
structure Rows (t : List Frame) (tr : List Accepted) : Prop where
  row : ∀ scopeRef f, lookup t scopeRef = some f → Row f (accepted scopeRef tr)
  unregistered : ∀ scopeRef, lookup t scopeRef = none → accepted scopeRef tr = []
  each : ∀ pre e post, tr = pre ++ e :: post →
    Row e.before (accepted e.before.scopeRef pre) ∧
      Row e.after (accepted e.before.scopeRef pre ++ [e]) ∧
      ∃ fp, advance e.before e.sample fp = .ok e.after

theorem rows_register {t t' : List Frame} {tr : List Accepted} {scopeRef : String}
    (h : registerScope t scopeRef = .ok t') (ht : Rows t tr) : Rows t' tr := by
  obtain ⟨-, h⟩ := guard_eq_ok.mp h
  cases hl : lookup t scopeRef with
  | some f =>
      simp only [hl] at h
      obtain ⟨-, h⟩ := guard_eq_ok.mp h
      cases h
      exact ht
  | none =>
      simp only [hl] at h
      obtain ⟨-, h⟩ := guard_eq_ok.mp h
      cases h
      have hlk : ∀ sc, lookup (t ++ [Frame.registered scopeRef]) sc =
          (lookup t sc).or (lookup [Frame.registered scopeRef] sc) := fun _ => List.find?_append
      refine ⟨fun sc f hf => ?_, fun sc hn => ?_, ht.each⟩
      · rw [hlk] at hf
        rcases Option.or_eq_some_iff.mp hf with hf | ⟨hn, hf⟩
        · exact ht.row sc f hf
        · rw [ht.unregistered sc hn]
          obtain rfl : f = Frame.registered scopeRef :=
            List.mem_singleton.mp (List.mem_of_find?_eq_some hf)
          exact row_registered scopeRef
      · rw [hlk] at hn
        exact ht.unregistered sc (Option.or_eq_none_iff.mp hn).1

theorem rows_accept {t : List Frame} {tr : List Accepted} {v : Int}
    (hf : lookup t f.scopeRef = some f) (hv : (f.version : Int) = v)
    (hadv : advance f s fp = .ok f') (hlt : ∀ last ∈ f.lastObservedAt, last < s.observed)
    (ht : Rows t tr) : Rows (store t v f') (tr ++ [⟨f, s, f'⟩]) := by
  have hbefore := ht.row f.scopeRef f hf
  have hafter := row_snoc hbefore hadv hlt
  obtain ⟨-, hsc, -, -⟩ := advance_spec hadv
  refine ⟨fun sc g hg => ?_, fun sc hn => ?_, fun pre e post heq => ?_⟩
  · rw [accepted_snoc]
    by_cases heq : sc = f'.scopeRef
    · subst heq
      rw [lookup_store (hsc ▸ hf) hv] at hg
      rw [if_pos hsc.symm]
      cases hg
      exact hsc ▸ hafter
    · rw [lookup_store_of_ne heq] at hg
      rw [if_neg fun h => heq (h.symm.trans hsc.symm)]
      exact ht.row sc g hg
  · rw [accepted_snoc]
    by_cases heq : sc = f'.scopeRef
    · subst heq
      rw [lookup_store (hsc ▸ hf) hv] at hn
      cases hn
    · rw [lookup_store_of_ne heq] at hn
      rw [if_neg fun h => heq (h.symm.trans hsc.symm)]
      exact ht.unregistered sc hn
  · rcases snoc_eq_split heq with ⟨rfl, rfl, -⟩ | ⟨post', -, hpre⟩
    · exact ⟨hbefore, hafter, _, hadv⟩
    · exact ht.each pre e post' hpre

/-- The run lemma. -/
theorem rows_run (digest : PressureObservation → String) (calls : List Call) :
    Rows ((controller digest).run [] calls) ((controller digest).trace [] calls) := by
  refine (controller digest).invariant (P := Rows) ?_ ?_ calls
  · refine ⟨fun sc f hf => ?_, fun _ _ => rfl, fun pre e post heq => ?_⟩
    · cases hf
    · simp at heq
  · intro t tr c ht
    cases c with
    | register scopeRef =>
        simp only [controller, List.append_nil]
        cases h : registerScope t scopeRef with
        | error e => exact ht
        | ok t' => exact rows_register h ht
    | observe scopeRef o v now =>
        simp only [controller]
        cases h : observe digest t scopeRef o v now with
        | error e => simpa using ht
        | ok r =>
            obtain ⟨r, t'⟩ := r
            rcases observe_cases h with ⟨rfl, rfl⟩ | ⟨f, s, f', fp, rfl, rfl, hf, hv, hadv, hlt⟩
            · simpa using ht
            · have hsc := lookup_scopeRef hf
              subst hsc
              exact rows_accept hf hv hadv hlt ht

end OufGateway.Pressure
