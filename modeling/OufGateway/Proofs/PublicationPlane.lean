import Mathlib
import OufGateway.Ref.Publication
import OufGateway.Proofs.PublicationEvidence

/-!
# What a call leaves of its control plane and its store

The two halves of a publication do not look at each other. What the control
plane has been asked depends on its own answers alone, so its state at the end
is a function of them, `planeAfter`; and the store's `active.json` is only ever
written by the last exit, which `activated` says is reached.
-/

namespace OufGateway.Publication

open Lib

variable {π : Type} {plane : Plane π} {c : Call} {m : Manifest} {artifact revision : Json}
  {exit : Exit} {s : State π}

/-! ## The control plane -/

/-- The state of the control plane from `verify` on. -/
def verifyAfter (plane : Plane π) (revision artifact : Json) (p : π) : π :=
  let answer := plane.verify revision artifact p
  match passes (orElse answer.1 (.obj [("verification", .bool false)])) with
  | .error _ => answer.2
  | .ok false => (plane.rollback revision answer.2).2
  | .ok true =>
    match plane.activate revision answer.2 with
    | (.error _, p) => (plane.rollback revision p).2
    | (.ok _, p) => p

/-- The state of the control plane after a call that got past `prepare`. -/
def planeAfter (plane : Plane π) (artifact : Json) (p : π) : π :=
  let health := plane.healthy p
  if (orElse health.1 (.bool false)).truthy then
    match plane.stage artifact health.2 with
    | (.error _, p) => p
    | (.ok revision, p) => verifyAfter plane revision artifact p
  else health.2

theorem recordManifest_plane {activate : Bool} :
    (recordManifest c m artifact activate s).2.plane = s.plane := by
  unfold recordManifest
  split <;> rfl

theorem conclude_plane : (conclude c m artifact exit s).2.plane = s.plane := by
  have hrec : (recordManifest c m artifact false s).2.plane = s.plane := recordManifest_plane
  rw [← hrec]
  unfold conclude
  rcases recordManifest c m artifact false s with ⟨_ | _, s'⟩ <;> rfl

theorem rollBack_plane :
    (rollBack plane c revision m artifact exit s).2.plane =
      (plane.rollback revision s.plane).2 := by
  unfold rollBack
  rcases plane.rollback revision s.plane with ⟨_ | _, p⟩
  · rfl
  · exact conclude_plane

theorem complete_plane : (complete c m artifact s).2.plane = s.plane := by
  have hrec : (recordManifest c (m.activated c) artifact true s).2.plane = s.plane :=
    recordManifest_plane
  rw [← hrec]
  unfold complete
  rcases recordManifest c (m.activated c) artifact true s with ⟨_ | _, s'⟩ <;> rfl

theorem verifyStaged_plane :
    (verifyStaged plane c revision m artifact s).2.plane =
      verifyAfter plane revision artifact s.plane := by
  unfold verifyStaged verifyAfter
  simp only []
  rcases passes (orElse (plane.verify revision artifact s.plane).1
    (.obj [("verification", .bool false)])) with _ | _ | _
  · rfl
  · exact rollBack_plane
  · unfold activateStaged
    rcases plane.activate revision (plane.verify revision artifact s.plane).2 with ⟨_ | _, p⟩
    · exact rollBack_plane
    · exact complete_plane

theorem apply_plane :
    (apply plane c m artifact s).2.plane = planeAfter plane artifact s.plane := by
  unfold apply planeAfter
  simp only []
  split
  · rcases plane.stage artifact (plane.healthy s.plane).2 with ⟨_ | _, p⟩
    · exact conclude_plane
    · exact verifyStaged_plane
  · exact conclude_plane

/-! ## The store -/

/-- The revision and the verification, when the activation comes and returns. -/
def verifyActivated (plane : Plane π) (revision artifact : Json) (p : π) : Option (Json × Json) :=
  let answer := plane.verify revision artifact p
  let verification := orElse answer.1 (.obj [("verification", .bool false)])
  match passes verification with
  | .ok true =>
    if (plane.activate revision answer.2).1.isOk then some (revision, verification) else none
  | _ => none

/-- The same, of the whole call. -/
def activated (plane : Plane π) (artifact : Json) (p : π) : Option (Json × Json) :=
  let health := plane.healthy p
  if (orElse health.1 (.bool false)).truthy then
    match plane.stage artifact health.2 with
    | (.error _, _) => none
    | (.ok revision, p) => verifyActivated plane revision artifact p
  else none

/-- The manifest such a call records. -/
def Manifest.activatedAs (m : Manifest) (c : Call) (ans : Json × Json) : Manifest :=
  Manifest.activated { m with controlPlaneRevision := ans.1, verification := ans.2 } c

theorem perform_active {stop : Option Nat} {ws : List (Option (Store → Store))} {st : Store}
    (h : ∀ f, some f ∈ ws → ∀ st, (f st).active = st.active) :
    (Store.perform stop ws st).2.active = st.active := by
  induction ws generalizing stop st with
  | nil => cases stop <;> rfl
  | cons w ws ih =>
      have htail : ∀ f, some f ∈ ws → ∀ st, (f st).active = st.active :=
        fun f hf => h f (List.mem_cons_of_mem _ hf)
      cases w with
      | none => rcases stop with _ | _ | k <;> rfl
      | some f =>
          have hf : (f st).active = st.active := h f List.mem_cons_self st
          rcases stop with _ | _ | k
          · exact (ih htail).trans hf
          · rfl
          · exact (ih htail).trans hf

/-- Only a record made to activate writes `active.json`. -/
theorem record_active {st : Store} {stop : Option Nat} :
    (st.record m artifact false stop).2.active = st.active := by
  unfold Store.record
  split
  · rfl
  · split
    · rfl
    · refine perform_active fun f hf st => ?_
      unfold Store.writes at hf
      rcases List.mem_append.1 hf with hf | hf
      · rcases List.mem_append.1 hf with hf | hf
        · split at hf
          · cases hf
          · rw [List.mem_singleton, Option.some.injEq] at hf
            rw [hf]
            rfl
        · rw [List.mem_singleton] at hf
          split at hf
          · rw [Option.some.injEq] at hf
            rw [hf]
            rfl
          · cases hf
      · cases hf

theorem recordManifest_active :
    (recordManifest c m artifact false s).2.store.active = s.store.active := by
  unfold recordManifest
  split
  · rfl
  · exact record_active

theorem conclude_active : (conclude c m artifact exit s).2.store.active = s.store.active := by
  have hrec : (recordManifest c m artifact false s).2.store.active = s.store.active :=
    recordManifest_active
  rw [← hrec]
  unfold conclude
  rcases recordManifest c m artifact false s with ⟨_ | _, s'⟩ <;> rfl

theorem rollBack_active :
    (rollBack plane c revision m artifact exit s).2.store.active = s.store.active := by
  unfold rollBack
  rcases plane.rollback revision s.plane with ⟨_ | _, p⟩
  · rfl
  · exact conclude_active

/-- What the last exit makes of a store. -/
def Store.afterActive (st : Store) (c : Call) (m : Manifest) (artifact : Json) : Store :=
  if m.valid then (st.record m artifact true c.stop).2 else st

theorem complete_store :
    (complete c m artifact s).2.store = s.store.afterActive c (m.activated c) artifact := by
  have hrec : (recordManifest c (m.activated c) artifact true s).2.store =
      s.store.afterActive c (m.activated c) artifact := by
    unfold recordManifest Store.afterActive
    cases (m.activated c).valid <;> rfl
  rw [← hrec]
  unfold complete
  rcases recordManifest c (m.activated c) artifact true s with ⟨_ | _, s'⟩ <;> rfl

/-- `active.json` after a call that got past `prepare`. -/
theorem apply_active :
    (apply plane c m artifact s).2.store.active =
      match activated plane artifact s.plane with
      | none => s.store.active
      | some ans => (s.store.afterActive c (m.activatedAs c ans) artifact).active := by
  unfold apply activated
  simp only []
  split
  · rcases plane.stage artifact (plane.healthy s.plane).2 with ⟨_ | revision, p⟩
    · exact conclude_active
    · simp only [verifyStaged, verifyActivated]
      rcases passes (orElse (plane.verify revision artifact p).1
        (.obj [("verification", .bool false)])) with _ | _ | _
      · rfl
      · exact rollBack_active
      · simp only [activateStaged]
        rcases plane.activate revision (plane.verify revision artifact p).2 with ⟨_ | _, p'⟩
        · exact rollBack_active
        · simp only [complete_store]
          rfl
  · exact conclude_active

/-- The last exit gets as far as `active.json`: no other artifact is in the way,
and the file system makes all the writes. -/
def Store.advances (st : Store) (hash : String) (artifact : Json) (stop : Option Nat) : Bool :=
  !st.collides hash artifact &&
    stop.all fun made => (if (st.findArtifact hash).isSome then 2 else 3) ≤ made

theorem afterActive_active {st : Store} (ans : Json × Json) (hp : Prepared c st m)
    (hrev : isTextOrNull ans.1 = true) (hobj : ans.2.isObj = true)
    (hser : ans.2.serializable = true) :
    (st.afterActive c (m.activatedAs c ans) artifact).active =
      if st.advances m.artifactSetHash artifact c.stop then m.activatedAs c ans :: st.active
      else st.active := by
  have hvalid : (m.activatedAs c ans).valid = true := by
    show (m.governed && isTextOrNull ans.1 && isObjOrNull ans.2) = true
    rw [hp.governed, hrev, isObjOrNull_of_isObj hobj]
    rfl
  unfold Store.afterActive Store.record Store.advances
  rw [if_pos hvalid, show st.contains (m.activatedAs c ans).publicationId = false from hp.fresh,
    show (m.activatedAs c ans).artifactSetHash = m.artifactSetHash from rfl]
  simp only [Bool.false_eq_true, if_false]
  cases st.collides m.artifactSetHash artifact with
  | true => rfl
  | false =>
      -- Two or three writes, by whether the artifact is there, and where they stop.
      unfold Store.writes
      rw [show (m.activatedAs c ans).verification.serializable = true from hser,
        show (m.activatedAs c ans).artifactSetHash = m.artifactSetHash from rfl]
      by_cases ha : (st.findArtifact m.artifactSetHash).isSome = true <;>
        rcases c.stop with _ | _ | _ | _ | k <;>
        simp [ha, Store.perform, Store.writeManifest, Store.writeArtifact, Store.writeActive]

theorem prepare_compiled {st : Store} (h : prepare c st = .ok (m, artifact)) :
    ∃ compiled, c.compiled = .ok compiled ∧ compiled.artifact = artifact ∧
      m.artifactSetHash = compiled.configurationSha256 := by
  unfold prepare at h
  split at h
  · cases h
  · split at h
    · cases h
    · simp only [] at h
      split at h
      · cases h
      · split at h
        · cases h
        · next compiled hc =>
          split at h
          · cases h
          · injection h with h
            injection h with hm ha
            exact ⟨compiled, hc, ha, by rw [← hm]⟩

end OufGateway.Publication
