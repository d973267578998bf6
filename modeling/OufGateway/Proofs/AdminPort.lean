import Mathlib
import OufGateway.Lib.Except
import OufGateway.Ref.ControlPlane

/-!
# The control plane over any admin port

What can be said of an operation of `APISIXControlPlane` without knowing the
port. An operation keeps what the requests it makes keep. A verification of
the revision the artifact has, over a port that reads back what was stored,
passes exactly when the read and the probes come back and every required check
is `True`; when it does not pass it never raises out of `passes`.
-/

namespace OufGateway.ControlPlane

open Lib Publication

/-! ## What an operation keeps, over any port -/

section Keeps

variable {α : Type} {admin : AdminPort α} {P : α → Prop} {artifact : Json} {r : String} {p : α}

theorem stage_keeps
    (hput : ∀ r p, revisionFor artifact = .ok r → P p → P (admin.putRevision r artifact p).2)
    (hread : ∀ r p, P p → P (admin.readRevision r p).2) (hp : P p) :
    P (stage admin artifact p).2 := by
  unfold stage
  split
  · exact hp
  · next r hr =>
    refine andThen_keeps (hput r p hr hp) fun _ q hq => andThen_keeps (hread r q hq) fun _ t ht => ?_
    split <;> exact ht

theorem verify_keeps (hread : ∀ r p, P p → P (admin.readRevision r p).2)
    (hprobe : ∀ r p, P p → P (admin.probeRevision r p).2) (hp : P p) :
    P (verify admin r artifact p).2 := by
  unfold verify
  split
  · exact hp
  · split
    · exact hp
    · refine andThen_keeps (hread r p hp) fun _ q hq => ?_
      split
      · exact hq
      · exact andThen_keeps (hprobe r q hq) fun _ t ht => ht

theorem rollback_keeps (hactive : ∀ p, P p → P (admin.activeRevision p).2)
    (hdelete : ∀ p, P p → P (admin.deleteRevision r p).2) (hp : P p) :
    P (rollback admin r p).2 := by
  unfold rollback
  refine andThen_keeps (hactive p hp) fun _ q hq => ?_
  split
  · exact hq
  · exact hdelete q hq

end Keeps

section Attempts

theorem attempt_keeps {α β : Type} {P : α → Prop} {x : Fault} {act : α → Except Exn β × α} {p : α}
    (h : P (act p).2) (hp : P p) : P (x.attempt act p).2 := by
  cases x with
  | clean => exact h
  | before => exact hp
  | after => exact h

theorem attempt_ok {α β : Type} {x : Fault} {act : α → Except Exn β × α} {p : α} {b : β} :
    (x.attempt act p).1 = .ok b ↔ x = .clean ∧ (act p).1 = .ok b := by
  cases x <;> simp [Fault.attempt]

end Attempts

/-! ## Staging -/

section Stage

variable {α : Type} {admin : AdminPort α} {artifact : Json} {r : String} {p : α}

theorem stage_eq (admin : AdminPort α) {found : Json} (hr : revisionFor artifact = .ok r)
    (hput : (admin.putRevision r artifact p).1 = .ok ())
    (hread : (admin.readRevision r (admin.putRevision r artifact p).2).1 = .ok found)
    (heqv : found.eqv artifact = true) :
    stage admin artifact p =
      (.ok (.str r), (admin.readRevision r (admin.putRevision r artifact p).2).2) := by
  unfold stage
  rw [hr]
  rcases hp : admin.putRevision r artifact p with ⟨_ | u, q⟩
  · rw [hp] at hput
    cases hput
  · rw [hp] at hread
    rcases hq : admin.readRevision r q with ⟨_ | v, t⟩
    · rw [hq] at hread
      cases hread
    · rw [hq] at hread
      cases hread
      simp only [hp, hq, andThen_ok, heqv, if_true]

theorem stage_returns {v : Json} (h : (stage admin artifact p).1 = .ok v) :
    ∃ r, revisionFor artifact = .ok r ∧ (admin.putRevision r artifact p).1 = .ok () ∧
      ∃ found, (admin.readRevision r (admin.putRevision r artifact p).2).1 = .ok found ∧
        found.eqv artifact = true := by
  unfold stage at h
  rcases hr : revisionFor artifact with e | r
  · rw [hr] at h
    cases h
  · rw [hr] at h
    obtain ⟨⟨⟩, hput, h⟩ := andThen_eq_ok.1 h
    obtain ⟨found, hread, h⟩ := andThen_eq_ok.1 h
    refine ⟨r, rfl, hput, found, hread, ?_⟩
    by_contra hne
    rw [if_neg hne] at h
    cases h

end Stage

/-! ## Verification -/

/-- Every required check is `True` in the probes. -/
def allTrue (checks : Json) : Bool := requiredChecks.all fun check => (checks.get? check).any (·.isTrue)

theorem report_ok {checks : Json} (h : checks.isObj = true) :
    ∃ v, report checks = .ok v ∧ v.isObj = true ∧ v.serializable = true ∧
      passes v = .ok (allTrue checks) := by
  refine ⟨_, if_pos h, rfl, ?_, ?_⟩
  · simp [requiredChecks, Json.serializable, Json.serializableMembers]
  · simp [passes, allTrue, requiredChecks, Json.isObj, Json.get?, Json.ofLookup, Json.isTrue]

section Verify

variable {α : Type} {admin : AdminPort α} {artifact : Json} {r : String} {p : α}

theorem verify_ok (admin : AdminPort α) {checks : Json} (hr : revisionFor artifact = .ok r)
    (heqv : artifact.eqv artifact = true) (hread : (admin.readRevision r p).1 = .ok artifact)
    (hprobe : (admin.probeRevision r (admin.readRevision r p).2).1 = .ok checks)
    (hobj : checks.isObj = true) (hall : allTrue checks = true) :
    ∃ v, (verify admin r artifact p).1 = .ok v ∧ v.isObj = true ∧ v.serializable = true ∧
      passes v = .ok true := by
  obtain ⟨v, hv, hvobj, hser, hpass⟩ := report_ok hobj
  refine ⟨v, ?_, hvobj, hser, by rw [hpass, hall]⟩
  unfold verify
  rw [hr]
  simp only [ne_eq, not_true_eq_false, if_false]
  rw [andThen_eq_ok]
  refine ⟨artifact, hread, ?_⟩
  rw [heqv]
  simp only [Bool.not_true, Bool.false_eq_true, if_false]
  rw [andThen_eq_ok]
  exact ⟨checks, hprobe, hv⟩

theorem verify_not_ok (admin : AdminPort α) (hr : revisionFor artifact = .ok r) (heqv : artifact.eqv artifact = true)
    (h : ∀ v, (admin.readRevision r p).1 = .ok v → v = artifact ∧
      ∀ checks, (admin.probeRevision r (admin.readRevision r p).2).1 = .ok checks →
        checks.isObj = true → ¬ allTrue checks = true) :
    passes (orElse (verify admin r artifact p).1 (.obj [("verification", .bool false)])) =
      .ok false := by
  have hstub : passes (.obj [("verification", .bool false)]) = .ok false := by decide +kernel
  unfold verify
  rw [hr]
  simp only [ne_eq, not_true_eq_false, if_false]
  rcases hread : admin.readRevision r p with ⟨_ | found, q⟩
  · exact hstub
  · obtain ⟨rfl, hprobes⟩ := h found (by rw [hread])
    rw [hread] at hprobes
    simp only [andThen_ok, heqv, Bool.not_true, Bool.false_eq_true, if_false]
    rcases hprobe : admin.probeRevision r q with ⟨_ | checks, t⟩
    · exact hstub
    · by_cases hobj : checks.isObj = true
      · obtain ⟨v, hv, -, -, hpass⟩ := report_ok hobj
        have hall : allTrue checks = false := by
          rw [← Bool.not_eq_true]
          exact hprobes checks (by rw [hprobe]) hobj
        rw [andThen_ok, hv]
        show passes v = _
        rw [hpass, hall]
      · rw [andThen_ok, show report checks = .error .raised from if_neg hobj]
        exact hstub

end Verify

end OufGateway.ControlPlane
