import Mathlib
import OufGateway.Lib.Except
import OufGateway.Ref.Pressure
import OufGateway.Proofs.PressureRows

/-!
# One accepted history per scope

A call of `observe` is one transaction, so any interleaving of workers is a list
of calls with arbitrary arguments: what a worker has read before shows in the
version it expects and in nothing else. The accepted observations of a scope then
form one chain, in which each starts from the row the one before it wrote, and
the row that is there is the one the last of them wrote. Every other call leaves
the table as it was: a call that raises is rolled back, and the last accepted
observation is recognised by its time and its digest before its version is
looked at.
-/

namespace OufGateway.Pressure

open Lib

variable {digest : PressureObservation → String} {t : List Frame} {f : Frame}

/-- The scope a call is about. -/
def Call.scope : Call → String
  | .register scopeRef => scopeRef
  | .observe scopeRef _ _ _ => scopeRef

/-- The row is what the last accepted observation `o` left. -/
def Frame.Remembers (digest : PressureObservation → String) (f : Frame)
    (o : PressureObservation) : Prop :=
  f.lastObservedAt = o.observedAt ∧ f.lastDigest = some (digest o)

theorem validate_observed {o : PressureObservation} {now : ℚ} {s : Sample}
    (h : validate (some o) now = .ok s) : o.observedAt = some s.observed := by
  unfold validate at h
  simp only [] at h
  split at h
  · cases h
  · next observed hobs =>
    obtain ⟨-, h⟩ := guard_eq_ok.mp h
    obtain ⟨-, -, h⟩ := bind_eq_ok.mp h
    obtain ⟨attempts, -, h⟩ := bind_eq_ok.mp h
    obtain ⟨failures, -, h⟩ := bind_eq_ok.mp h
    obtain ⟨dependency, -, h⟩ := bind_eq_ok.mp h
    obtain ⟨backlog, -, h⟩ := bind_eq_ok.mp h
    obtain ⟨capacity, -, h⟩ := bind_eq_ok.mp h
    split at h
    · cases h
      exact hobs
    · cases h

theorem advance_digest {f' : Frame} {s : Sample} {fp : String} (h : advance f s fp = .ok f') :
    f'.lastObservedAt = some s.observed ∧ f'.lastDigest = some fp := by
  obtain ⟨g, -, h⟩ := bind_eq_ok.mp h
  cases h
  exact ⟨rfl, rfl⟩

/-- The accepted observation is remembered in the row it wrote. -/
theorem observe_remembers {t' : List Frame} {scopeRef : String} {o : PressureObservation} {v : Int}
    {now : ℚ} {s : Sample} {f' : Frame}
    (h : observe digest t scopeRef (some o) v now = .ok (.accepted f s f', t')) :
    lookup t' scopeRef = some f' ∧ f'.Remembers digest o := by
  obtain ⟨-, h⟩ := guard_eq_ok.mp h
  obtain ⟨s', hs, h⟩ := bind_eq_ok.mp h
  cases hl : lookup t scopeRef with
  | none => simp [hl] at h
  | some f₀ =>
      simp only [hl] at h
      obtain ⟨-, h⟩ := guard_eq_ok.mp h
      split at h
      · cases h
      · obtain ⟨hconf, h⟩ := guard_eq_ok.mp h
        obtain ⟨f₁, hadv, h⟩ := bind_eq_ok.mp h
        cases h
        push Not at hconf
        obtain ⟨hlast, hdig⟩ := advance_digest hadv
        obtain ⟨-, hsc, -, -⟩ := advance_spec hadv
        have hscope := (hsc.trans (lookup_scopeRef hl)).symm
        refine ⟨?_, hlast.trans (validate_observed hs).symm, hdig⟩
        rw [hscope]
        exact lookup_store (hscope ▸ hl) hconf.1

/-- Whatever version is expected, an observation the row remembers changes
nothing. -/
theorem step_repeat {scopeRef : String} {o : PressureObservation}
    (hl : lookup t scopeRef = some f) (hf : f.Remembers digest o) (v : Int) (now : ℚ) :
    (controller digest).step t (.observe scopeRef (some o) v now) = t := by
  simp only [controller]
  cases h : observe digest t scopeRef (some o) v now with
  | error e => rfl
  | ok r =>
      obtain ⟨r, t'⟩ := r
      obtain ⟨-, h⟩ := guard_eq_ok.mp h
      obtain ⟨s, hs, h⟩ := bind_eq_ok.mp h
      simp only [hl] at h
      obtain ⟨-, h⟩ := guard_eq_ok.mp h
      rw [if_pos ⟨hf.1.trans (validate_observed hs), hf.2⟩] at h
      cases h
      rfl

/-- A call about one scope leaves the row of any other as it is. -/
theorem step_other {c : Call} {scopeRef : String} (h : c.scope ≠ scopeRef) :
    lookup ((controller digest).step t c) scopeRef = lookup t scopeRef := by
  cases c with
  | register sc =>
      simp only [controller]
      cases hr : registerScope t sc with
      | error e => rfl
      | ok t' =>
          obtain ⟨-, hr⟩ := guard_eq_ok.mp hr
          cases hl : lookup t sc with
          | some f =>
              simp only [hl] at hr
              obtain ⟨-, hr⟩ := guard_eq_ok.mp hr
              cases hr
              rfl
          | none =>
              simp only [hl] at hr
              obtain ⟨-, hr⟩ := guard_eq_ok.mp hr
              cases hr
              have hne : (Frame.registered sc).scopeRef ≠ scopeRef := h
              show lookup (t ++ [Frame.registered sc]) scopeRef = _
              unfold lookup
              rw [List.find?_append, List.find?_singleton, if_neg (by simpa using hne), Option.or_none]
  | observe sc o v now =>
      simp only [controller]
      cases ho : observe digest t sc o v now with
      | error e => rfl
      | ok r =>
          obtain ⟨r, t'⟩ := r
          rcases observe_cases ho with ⟨-, rfl⟩ | ⟨f, s, f', fp, -, rfl, hf, -, hadv, -⟩
          · rfl
          · obtain ⟨-, hsc, -, -⟩ := advance_spec hadv
            refine lookup_store_of_ne fun heq => h ?_
            rw [heq, hsc]
            exact (lookup_scopeRef hf).symm

/-- While no observation of the scope is accepted, its row stays. -/
theorem run_unaccepted {scopeRef : String} (calls : List Call) (hl : lookup t scopeRef = some f)
    (h : accepted scopeRef ((controller digest).trace t calls) = []) :
    lookup ((controller digest).run t calls) scopeRef = some f := by
  induction calls generalizing t with
  | nil => exact hl
  | cons c calls ih =>
      rw [Machine.trace_cons, accepted, List.filter_append, List.append_eq_nil_iff] at h
      refine ih ?_ h.2
      by_cases hc : c.scope = scopeRef
      · cases c with
        | register sc =>
            simp only [controller]
            cases hr : registerScope t sc with
            | error e => exact hl
            | ok t' =>
                obtain ⟨-, hr⟩ := guard_eq_ok.mp hr
                rw [show sc = scopeRef from hc, hl] at hr
                obtain ⟨-, hr⟩ := guard_eq_ok.mp hr
                cases hr
                exact hl
        | observe sc o v now =>
            have hemit := h.1
            simp only [controller] at hemit ⊢
            cases ho : observe digest t sc o v now with
            | error e => exact hl
            | ok r =>
                obtain ⟨r, t'⟩ := r
                rcases observe_cases ho with ⟨-, rfl⟩ | ⟨g, s, f', fp, rfl, rfl, hg, -, -, -⟩
                · exact hl
                · rw [ho] at hemit
                  have hscope : g.scopeRef = scopeRef := (lookup_scopeRef hg).trans hc
                  simp [hscope] at hemit
      · rw [step_other hc]
        exact hl

/-- In every run of the controller the accepted observations of each scope form
one chain of strictly later observations, each of which raises the version by
one and starts from the row the one before it wrote, and the scope's row is the
last one written; a call that raises changes no row, nor does a repetition of the
scope's last accepted observation, and no call changes the row of another scope. -/
theorem observations_linearized (digest : PressureObservation → String) (calls : List Call) :
    (∀ scopeRef,
      (accepted scopeRef ((controller digest).trace [] calls)).IsChain Linked ∧
      (∀ e ∈ accepted scopeRef ((controller digest).trace [] calls),
        e.after.version = e.before.version + 1) ∧
      ∀ f, lookup ((controller digest).run [] calls) scopeRef = some f →
        ((accepted scopeRef ((controller digest).trace [] calls)).getLast?.map
          Accepted.after).getD (Frame.registered scopeRef) = f) ∧
    (∀ scopeRef o v now e,
      observe digest ((controller digest).run [] calls) scopeRef o v now = .error e →
      (controller digest).step ((controller digest).run [] calls) (.observe scopeRef o v now) =
        (controller digest).run [] calls) ∧
    (∀ scopeRef o v now f s f' t' later v' now',
      observe digest ((controller digest).run [] calls) scopeRef (some o) v now =
        .ok (.accepted f s f', t') →
      accepted scopeRef ((controller digest).trace t' later) = [] →
      (controller digest).step ((controller digest).run t' later)
        (.observe scopeRef (some o) v' now') = (controller digest).run t' later) ∧
    ∀ c scopeRef, c.scope ≠ scopeRef →
      lookup ((controller digest).step ((controller digest).run [] calls) c) scopeRef =
        lookup ((controller digest).run [] calls) scopeRef := by
  have hrows := rows_run digest calls
  refine ⟨fun scopeRef => ?_, fun scopeRef o v now e h => ?_,
    fun scopeRef o v now f s f' t' later v' now' h hquiet => ?_, fun c scopeRef h => step_other h⟩
  · cases hl : lookup ((controller digest).run [] calls) scopeRef with
    | none =>
        rw [hrows.unregistered scopeRef hl]
        exact ⟨List.isChain_nil, by simp, by simp⟩
    | some f =>
        have hf := hrows.row scopeRef f hl
        refine ⟨hf.linked, hf.versions, fun g hg => ?_⟩
        obtain rfl : f = g := Option.some.inj hg
        have hcur := hf.current
        rw [lookup_scopeRef hl] at hcur
        exact hcur
  · simp only [controller] at h ⊢
    rw [h]
  · obtain ⟨hl, hrem⟩ := observe_remembers h
    exact step_repeat (run_unaccepted later hl hquiet) hrem v' now'

end OufGateway.Pressure
