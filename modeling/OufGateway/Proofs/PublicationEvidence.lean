import Mathlib
import OufGateway.Lib.Trace
import OufGateway.Ref.Publication

/-!
# Which publications end in evidence

A publication that got past `prepare` can leave by five exits, and each of
them records a manifest and reports an incident. What can keep an exit from its
end is read off the code from the inside out: when `recordManifest` succeeds,
when `conclude` does, and then, by the answers of the control plane, which exit
is taken and whether it is reached at all. The last step has no slack:
`evidenced_iff` says exactly which answers leave a publication without evidence,
and they are those where `rollback` is called and raises, or where an answer is of
a kind the manifest cannot carry.

The incident is a fold over the calls: after each call that met the condition it
is open exactly if that call did not end active, and a call that fails in
`prepare` does not touch it.
-/

namespace OufGateway.Publication

open Lib

/-! ## A control plane that may answer anything -/

/-- What the control plane does in one call, whatever it is asked. -/
structure Script where
  healthy : Except Exn Json
  stage : Except Exn Json
  verify : Except Exn Json
  activate : Except Exn Unit
  rollback : Except Exn Unit

def scripted (sc : Script) : Plane Unit where
  healthy s := (sc.healthy, s)
  stage _ s := (sc.stage, s)
  verify _ _ s := (sc.verify, s)
  activate _ s := (sc.activate, s)
  rollback _ s := (sc.rollback, s)

/-! ## Any control plane is one that answers by a script -/

section Answers

variable {π : Type}

/-- What a control plane answers in one call of `publish`, in the order it is
asked. `rollback` comes after `activate` or in its place. -/
def answers (plane : Plane π) (artifact : Json) (p : π) : Script :=
  let health := plane.healthy p
  let staged := plane.stage artifact health.2
  let revision := orElse staged.1 .null
  let verified := plane.verify revision artifact staged.2
  let activated := plane.activate revision verified.2
  { healthy := health.1
    stage := staged.1
    verify := verified.1
    activate := activated.1
    rollback :=
      match passes (orElse verified.1 (.obj [("verification", .bool false)])) with
      | .ok true => (plane.rollback revision activated.2).1
      | _ => (plane.rollback revision verified.2).1 }

/-- A state without that of the control plane. -/
def State.forget (s : State π) : State Unit :=
  { plane := (), store := s.store, incidents := s.incidents }

def forget (r : Except Exn Manifest × State π) : Except Exn Manifest × State Unit :=
  (r.1, r.2.forget)

variable {plane : Plane π} {c : Call} {m : Manifest} {artifact revision : Json} {exit : Exit}
  {s : State π} {u : State Unit} {sc : Script}

theorem recordManifest_forget {activate : Bool} :
    recordManifest c m artifact activate s.forget =
      ((recordManifest c m artifact activate s).1,
        (recordManifest c m artifact activate s).2.forget) := by
  unfold recordManifest
  split <;> rfl

theorem conclude_forget :
    conclude c m artifact exit s.forget = forget (conclude c m artifact exit s) := by
  unfold conclude
  rw [recordManifest_forget]
  rcases recordManifest c m artifact false s with ⟨_ | _, s'⟩ <;> rfl

theorem complete_forget : complete c m artifact s.forget = forget (complete c m artifact s) := by
  unfold complete
  rw [recordManifest_forget]
  rcases recordManifest c (m.activated c) artifact true s with ⟨_ | _, s'⟩ <;> rfl

theorem rollBack_forget (h : sc.rollback = (plane.rollback revision s.plane).1) :
    rollBack (scripted sc) c revision m artifact exit s.forget =
      forget (rollBack plane c revision m artifact exit s) := by
  unfold rollBack scripted
  simp only [h]
  rcases plane.rollback revision s.plane with ⟨_ | _, p⟩
  · rfl
  · exact conclude_forget (s := { s with plane := p })

theorem activateStaged_forget (ha : sc.activate = (plane.activate revision s.plane).1)
    (hr : sc.rollback = (plane.rollback revision (plane.activate revision s.plane).2).1) :
    activateStaged (scripted sc) c revision m artifact s.forget =
      forget (activateStaged plane c revision m artifact s) := by
  unfold activateStaged
  rw [show (scripted sc).activate revision s.forget.plane = (sc.activate, ()) from rfl, ha]
  rcases h : plane.activate revision s.plane with ⟨_ | _, p⟩
  · rw [h] at hr
    exact rollBack_forget (s := { s with plane := p }) hr
  · exact complete_forget (s := { s with plane := p })

theorem verifyStaged_forget {p : π}
    (hv : plane.verify revision artifact s.plane = (sc.verify, p))
    (ha : sc.activate = (plane.activate revision p).1)
    (hr : sc.rollback =
      match passes (orElse sc.verify (.obj [("verification", .bool false)])) with
      | .ok true => (plane.rollback revision (plane.activate revision p).2).1
      | _ => (plane.rollback revision p).1) :
    verifyStaged (scripted sc) c revision m artifact s.forget =
      forget (verifyStaged plane c revision m artifact s) := by
  unfold verifyStaged
  rw [show (scripted sc).verify revision artifact s.forget.plane = (sc.verify, ()) from rfl, hv]
  simp only []
  rcases hp : passes (orElse sc.verify (.obj [("verification", .bool false)])) with _ | _ | _
  · rfl
  · rw [hp] at hr
    exact rollBack_forget (s := { s with plane := p }) hr
  · rw [hp] at hr
    exact activateStaged_forget (s := { s with plane := p }) ha hr

/-- A call goes the same with any control plane and with the script of its
answers. -/
theorem publish_answers (plane : Plane π) (c : Call) (s : State π) {m : Manifest} {artifact : Json}
    (hp : prepare c s.store = .ok (m, artifact)) :
    publish (scripted (answers plane artifact s.plane)) c s.forget =
      forget (publish plane c s) := by
  unfold publish
  rw [hp, show prepare c s.forget.store = _ from hp]
  show apply _ _ _ _ _ = forget (apply _ _ _ _ _)
  unfold apply
  rw [show (scripted (answers plane artifact s.plane)).healthy s.forget.plane =
    ((plane.healthy s.plane).1, ()) from rfl]
  simp only []
  split
  · rw [show (scripted (answers plane artifact s.plane)).stage artifact () =
      ((plane.stage artifact (plane.healthy s.plane).2).1, ()) from rfl]
    rcases h : plane.stage artifact (plane.healthy s.plane).2 with ⟨_ | revision, p⟩
    · exact conclude_forget (s := { s with plane := p })
    · refine verifyStaged_forget (s := { s with plane := p })
        (p := (plane.verify revision artifact p).2) ?_ ?_ ?_ <;> simp only [answers, h, orElse]
  · exact conclude_forget (s := { s with plane := (plane.healthy s.plane).2 })

end Answers

/-- The call returned a manifest that says how it ended, and it is in the store. -/
def Evidenced (c : Call) (r : Except Exn Manifest × State Unit) : Prop :=
  ∃ m, r.1 = .ok m ∧ (m.status = .failed ∨ m.status = .rolledBack ∨ m.status = .active) ∧
    (c.publicationId, m) ∈ r.2.store.manifests

namespace Script

def isHealthy (sc : Script) : Bool := (orElse sc.healthy (.bool false)).truthy

def verification (sc : Script) : Json := orElse sc.verify (.obj [("verification", .bool false)])

def checksPass (sc : Script) : Bool :=
  requiredChecks.all fun check => (sc.verification.get? check).any (·.isTrue)

/-- The call of `activate` comes, and returns. -/
def activates (sc : Script) : Bool :=
  sc.isHealthy && sc.stage.isOk && sc.checksPass && sc.activate.isOk

/-- The verification the manifest ends with, once a revision is staged. -/
def recorded (sc : Script) : Json :=
  if sc.checksPass && !sc.activate.isOk then sc.verification.setItem "activation" (.bool false)
  else sc.verification

/-- Once a revision is staged: the manifest can carry it and the verification,
and `rollback`, when it is called, returns. -/
def Carries (sc : Script) (revision : Json) : Prop :=
  isTextOrNull revision = true ∧ sc.verification.isObj = true ∧
    sc.recorded.serializable = true ∧
    ((sc.checksPass = true ∧ sc.activate.isOk = true) ∨ sc.rollback.isOk = true)

/-- The answers that let a publication end in evidence. -/
def Cooperates (sc : Script) : Prop :=
  sc.isHealthy = true → ∀ revision, sc.stage = .ok revision → sc.Carries revision

end Script

/-- The store and the sink take what an exit gives them. -/
def Accepts (c : Call) (sc : Script) (hash : String) (artifact : Json) (s : State Unit) : Prop :=
  c.stop = none ∧ s.store.collides hash artifact = false ∧
    (sc.activates = true ∨ ∀ t ∈ s.incidents, t.incidents.any (·.incidentId = c.incidentId) = false)

/-! ## Recording -/

section Record

variable {c : Call} {m : Manifest} {artifact : Json} {activate : Bool} {s : State Unit}

theorem perform_none_ok {ws : List (Option (Store → Store))} {st : Store}
    (h : ∀ w ∈ ws, w ≠ none) : ∃ st', Store.perform none ws st = (.ok (), st') := by
  induction ws generalizing st with
  | nil => exact ⟨st, rfl⟩
  | cons w ws ih =>
      cases w with
      | none => exact absurd rfl (h none List.mem_cons_self)
      | some f => exact ih fun w hw => h w (List.mem_cons_of_mem _ hw)

/-- `perform` returns exactly when the file system does not fail and every
value can be written. -/
theorem perform_ok {stop : Option Nat} {ws : List (Option (Store → Store))} {st st' : Store}
    (h : Store.perform stop ws st = (.ok (), st')) : stop = none ∧ ∀ w ∈ ws, w ≠ none := by
  induction ws generalizing stop st with
  | nil =>
      cases stop with
      | none => exact ⟨rfl, by simp⟩
      | some k => cases h
  | cons w ws ih =>
      cases w with
      | none =>
          rcases stop with _ | _ | k
          · cases h
          · cases h
          · cases h
      | some f =>
          rcases stop with _ | _ | k
          · obtain ⟨-, hws⟩ := ih h
            refine ⟨rfl, fun w hw => ?_⟩
            rcases List.mem_cons.1 hw with rfl | hw
            · simp
            · exact hws w hw
          · cases h
          · obtain ⟨hstop, -⟩ := ih h
            cases hstop

theorem writes_ne_none {st : Store} :
    (∀ w ∈ st.writes m artifact activate, w ≠ none) ↔ m.verification.serializable = true := by
  unfold Store.writes
  constructor
  · intro h
    by_contra hs
    refine h none ?_ rfl
    rw [if_neg hs]
    simp
  · intro hs w hw
    rw [if_pos hs] at hw
    rcases List.mem_append.1 hw with hw | hw
    · rcases List.mem_append.1 hw with hw | hw
      · split at hw
        · cases hw
        · rw [List.mem_singleton] at hw
          simp [hw]
      · rw [List.mem_singleton] at hw
        simp [hw]
    · split at hw
      · rw [List.mem_singleton] at hw
        simp [hw]
      · cases hw

/-- Everything a manifest needs to be recorded. -/
def Recordable (c : Call) (m : Manifest) (artifact : Json) (s : State Unit) : Prop :=
  m.valid = true ∧ s.store.contains m.publicationId = false ∧
    s.store.collides m.artifactSetHash artifact = false ∧ c.stop = none ∧
    m.verification.serializable = true

theorem recordManifest_ok (activate : Bool) (h : Recordable c m artifact s) :
    ∃ s', recordManifest c m artifact activate s = (.ok (), s') ∧
      s'.incidents = s.incidents ∧ (m.publicationId, m) ∈ s'.store.manifests := by
  obtain ⟨hv, hc, hcol, hstop, hser⟩ := h
  rw [recordManifest, hv, Store.record, hc, hcol, hstop]
  simp only [Bool.not_true, Bool.false_eq_true, if_false]
  -- Three shapes of the list of writes, by the artifact and by the flag.
  unfold Store.writes
  rw [if_pos hser]
  by_cases ha : (s.store.findArtifact m.artifactSetHash).isSome = true <;> cases activate <;>
    simp [ha, Store.perform, Store.writeManifest, Store.writeArtifact, Store.writeActive]

theorem recordManifest_ok_iff :
    (recordManifest c m artifact activate s).1 = .ok () ↔ Recordable c m artifact s := by
  constructor
  · intro h
    unfold recordManifest at h
    split at h
    · cases h
    · next hv =>
      change (s.store.record m artifact activate c.stop).1 = .ok () at h
      unfold Store.record at h
      split at h
      · cases h
      · next hc =>
        split at h
        · cases h
        · next hcol =>
          obtain ⟨hstop, hws⟩ := perform_ok (Prod.ext h rfl)
          exact ⟨by simpa using hv, by simpa using hc, by simpa using hcol, hstop,
            writes_ne_none.1 hws⟩
  · intro h
    obtain ⟨s', hs', -⟩ := recordManifest_ok activate h
    rw [hs']

theorem openBlocked_ok_iff {exit : Exit} {sink : Option Incidents.Tables}
    (hexit : (Incidents.Severity.ofText? exit.severity).isSome) (himpact : exit.impact ≠ "") :
    (openBlocked c exit sink).1 = .ok () ↔
      ∀ t ∈ sink, t.incidents.any (·.incidentId = c.incidentId) = false := by
  rcases sink with _ | t
  · simp [openBlocked]
  · obtain ⟨severity, hsev⟩ := Option.isSome_iff_exists.1 hexit
    have hkey : incidentKey ≠ "" := by decide
    simp only [openBlocked, Incidents.openIncident, hsev, himpact, hkey, Option.mem_def,
      Option.some.injEq, forall_eq']
    by_cases hid : t.incidents.any (·.incidentId = c.incidentId) = true
    · simp [hid]
    · simp only [hid]
      simp only [show ("GATEWAY_PUBLICATION_BLOCKED" : String) ≠ "" by decide, or_self, if_false,
        ne_eq, not_true_eq_false, Bool.false_eq_true]
      rcases hf : Incidents.findKey t incidentKey with _ | old <;> simp

/-- An exit the incident store takes, its identifier apart. -/
def Exit.Sound (e : Exit) : Prop :=
  (Incidents.Severity.ofText? e.severity).isSome = true ∧ e.impact ≠ ""

/-- The sink has no incident under the identifier the call draws. -/
def SinkTakes (c : Call) (s : State Unit) : Prop :=
  ∀ t ∈ s.incidents, t.incidents.any (·.incidentId = c.incidentId) = false

theorem evidenced_conclude {exit : Exit} (hid : m.publicationId = c.publicationId)
    (hstatus : m.status = .failed ∨ m.status = .rolledBack ∨ m.status = .active)
    (hexit : exit.Sound) :
    Evidenced c (conclude c m artifact exit s) ↔ Recordable c m artifact s ∧ SinkTakes c s := by
  constructor
  · rintro ⟨m', hok, -, -⟩
    unfold conclude at hok
    rcases hr : recordManifest c m artifact false s with ⟨_ | _, s'⟩
    · rw [hr] at hok
      cases hok
    · have hrec : Recordable c m artifact s := recordManifest_ok_iff.1 (by rw [hr])
      obtain ⟨s'', hs'', hinc, -⟩ := recordManifest_ok false hrec
      rw [hs''] at hok
      refine ⟨hrec, (openBlocked_ok_iff hexit.1 hexit.2).1 ?_⟩
      rw [← hinc]
      change ((openBlocked c exit s''.incidents).1.map fun _ => m) = .ok m' at hok
      rcases ho : (openBlocked c exit s''.incidents).1 with e | u
      · rw [ho] at hok
        cases hok
      · rfl
  · rintro ⟨hrec, hsink⟩
    obtain ⟨s', hs', hinc, hmem⟩ := recordManifest_ok false hrec
    refine ⟨m, ?_, hstatus, ?_⟩
    · unfold conclude
      rw [hs']
      show ((openBlocked c exit s'.incidents).1.map fun _ => m) = .ok m
      rw [hinc, (openBlocked_ok_iff hexit.1 hexit.2).2 hsink]
      rfl
    · unfold conclude
      rw [hs', ← hid]
      exact hmem

theorem evidenced_rollBack {sc : Script} {revision : Json} {exit : Exit}
    (hid : m.publicationId = c.publicationId) (hexit : exit.Sound) :
    Evidenced c (rollBack (scripted sc) c revision m artifact exit s) ↔
      sc.rollback.isOk = true ∧ Recordable c { m with status := .rolledBack } artifact s ∧
        SinkTakes c s := by
  unfold rollBack scripted
  rcases sc.rollback with e | u
  · constructor
    · rintro ⟨m', hok, -⟩
      cases hok
    · rintro ⟨hok, -⟩
      cases hok
  · rw [show Except.isOk (.ok u : Except Exn Unit) = true from rfl, eq_self, true_and]
    exact evidenced_conclude hid (Or.inr (Or.inl rfl)) hexit

theorem evidenced_complete (hid : m.publicationId = c.publicationId) :
    Evidenced c (complete c m artifact s) ↔ Recordable c (m.activated c) artifact s := by
  constructor
  · rintro ⟨m', hok, -, -⟩
    unfold complete at hok
    rcases hr : recordManifest c (m.activated c) artifact true s with ⟨_ | _, s'⟩
    · rw [hr] at hok
      cases hok
    · exact recordManifest_ok_iff.1 (by rw [hr])
  · intro hrec
    obtain ⟨s', hs', -, hmem⟩ := recordManifest_ok true hrec
    refine ⟨m.activated c, ?_, Or.inr (Or.inr rfl), ?_⟩
    · unfold complete
      rw [hs']
    · unfold complete
      rw [hs', ← hid]
      exact hmem

end Record

/-! ## One call -/

theorem sound_unhealthy : unhealthy.Sound := ⟨by decide, by decide⟩
theorem sound_stageFailed : stageFailed.Sound := ⟨by decide, by decide⟩
theorem sound_verificationFailed : verificationFailed.Sound := ⟨by decide, by decide⟩
theorem sound_activationFailed : activationFailed.Sound := ⟨by decide, by decide⟩

/-- What the control plane is asked about has passed `prepare`. -/
structure Prepared (c : Call) (store : Store) (m : Manifest) : Prop where
  publicationId : m.publicationId = c.publicationId
  fresh : store.contains m.publicationId = false
  governed : m.governed = true
  controlPlaneRevision : m.controlPlaneRevision = .null

theorem prepare_ok {c : Call} {store : Store} {m : Manifest} {artifact : Json}
    (h : prepare c store = .ok (m, artifact)) : Prepared c store m := by
  unfold prepare at h
  split at h
  · cases h
  · split at h
    · cases h
    · next hfresh =>
      simp only [] at h
      split at h
      · cases h
      · split at h
        · cases h
        · split at h
          · cases h
          · next hvalid =>
            injection h with h
            injection h with hm ha
            rw [Bool.not_eq_true', Bool.not_eq_false, Manifest.valid, Bool.and_eq_true,
              Bool.and_eq_true] at hvalid
            rw [← hm]
            exact ⟨rfl, by simpa using hfresh, hvalid.1.1, rfl⟩

/-- A manifest that differs from a prepared one in the outcome alone can be
recorded when its two free values can. -/
theorem recordable_iff {c : Call} {s : State Unit} {m m' : Manifest} {artifact : Json}
    (h : Prepared c s.store m) (hid : m'.publicationId = m.publicationId)
    (hhash : m'.artifactSetHash = m.artifactSetHash) (hgov : m'.governed = m.governed) :
    Recordable c m' artifact s ↔ isTextOrNull m'.controlPlaneRevision = true ∧
      isObjOrNull m'.verification = true ∧ m'.verification.serializable = true ∧ c.stop = none ∧
      s.store.collides m.artifactSetHash artifact = false := by
  rw [Recordable, Manifest.valid, hgov, h.governed, hid, h.fresh, hhash, Bool.true_and,
    Bool.and_eq_true]
  tauto

theorem isObjOrNull_of_isObj {v : Json} (h : v.isObj = true) : isObjOrNull v = true := by
  cases v with
  | obj members => rfl
  | _ => cases h

theorem isObj_setItem {v : Json} (h : v.isObj = true) (key : String) (item : Json) :
    (v.setItem key item).isObj = true := by
  cases v with
  | obj members =>
      rw [Json.setItem]
      split <;> rfl
  | _ => cases h

theorem evidenced_activateStaged {c : Call} {sc : Script} {s : State Unit} {m m' : Manifest}
    {artifact revision : Json} (hp : Prepared c s.store m)
    (hm' : m' = { m with controlPlaneRevision := revision, verification := sc.verification })
    (hobj : sc.verification.isObj = true) (hpass : sc.checksPass = true) :
    Evidenced c (activateStaged (scripted sc) c revision m' artifact s) ↔
      isTextOrNull revision = true ∧ sc.recorded.serializable = true ∧ c.stop = none ∧
        s.store.collides m.artifactSetHash artifact = false ∧
        (sc.activate.isOk = true ∨ sc.rollback.isOk = true ∧ SinkTakes c s) := by
  have hid := hp.publicationId
  subst hm'
  rw [activateStaged, Script.recorded, hpass]
  rcases ha : sc.activate with e | u
  · simp only [scripted, ha]
    change Evidenced c (rollBack (scripted sc) c revision _ artifact activationFailed s) ↔ _
    refine (evidenced_rollBack (by exact hid) sound_activationFailed).trans ?_
    rw [recordable_iff hp (by rfl) (by rfl) (by rfl),
      isObjOrNull_of_isObj (isObj_setItem hobj _ _)]
    simp only [Except.isOk, Except.toBool, Bool.not_false, Bool.and_self, if_true,
      Bool.false_eq_true, false_or, true_and]
    tauto
  · simp only [scripted, ha]
    change Evidenced c (complete c _ artifact s) ↔ _
    refine (evidenced_complete (by exact hid)).trans ?_
    rw [recordable_iff hp (by rfl) (by rfl) (by rfl)]
    simp only [Manifest.activated]
    rw [isObjOrNull_of_isObj hobj]
    simp only [Except.isOk, Except.toBool, Bool.not_true, Bool.and_false, Bool.false_eq_true,
      if_false, true_or, and_true, true_and]

theorem evidenced_verifyStaged {c : Call} {sc : Script} {s : State Unit} {m : Manifest}
    {artifact revision : Json} (hp' : Prepared c s.store m) :
    Evidenced c (verifyStaged (scripted sc) c revision m artifact s) ↔
      sc.Carries revision ∧ c.stop = none ∧ s.store.collides m.artifactSetHash artifact = false ∧
        (sc.checksPass = true ∧ sc.activate.isOk = true ∨ SinkTakes c s) := by
  have hid := hp'.publicationId
  unfold verifyStaged Script.Carries
  simp only [show ∀ p, (scripted sc).verify revision artifact p = (sc.verify, p) from fun _ => rfl]
  by_cases hobj : sc.verification.isObj = true
  · have hp : passes (orElse sc.verify (.obj [("verification", .bool false)])) = .ok sc.checksPass :=
      if_pos hobj
    rw [hp]
    rcases hpass : sc.checksPass with _ | _
    · show Evidenced c (rollBack (scripted sc) c revision _ artifact verificationFailed s) ↔ _
      refine (evidenced_rollBack (by exact hid) sound_verificationFailed).trans ?_
      rw [recordable_iff hp' (by rfl) (by rfl) (by rfl), isObjOrNull_of_isObj (by exact hobj),
        Script.recorded, hpass]
      simp only [Bool.false_and, Bool.false_eq_true, if_false, false_and, false_or, true_and, hobj]
      tauto
    · show Evidenced c (activateStaged (scripted sc) c revision _ artifact s) ↔ _
      refine (evidenced_activateStaged hp' (by rfl) hobj hpass).trans ?_
      simp only [hobj, true_and]
      tauto
  · -- Only a dictionary has `get`: the call raises.
    have hp : passes (orElse sc.verify (.obj [("verification", .bool false)])) = .error .raised :=
      if_neg hobj
    rw [hp]
    constructor
    · rintro ⟨m', hok, -⟩
      cases hok
    · rintro ⟨⟨-, h, -⟩, -⟩
      exact absurd h hobj

/-- Exactly when a publication that got past `prepare` ends in evidence. -/
theorem evidenced_apply_iff {c : Call} {sc : Script} {s : State Unit} {m : Manifest}
    {artifact : Json} (hp : Prepared c s.store m) :
    Evidenced c (apply (scripted sc) c m artifact s) ↔
      sc.Cooperates ∧ Accepts c sc m.artifactSetHash artifact s := by
  have hid := hp.publicationId
  have hnull : isTextOrNull m.controlPlaneRevision = true := by
    rw [hp.controlPlaneRevision]
    rfl
  rw [apply, Script.Cooperates, Accepts, Script.activates]
  change Evidenced c (if sc.isHealthy = true then _ else conclude c _ artifact unhealthy s) ↔ _
  by_cases hh : sc.isHealthy = true
  · rw [if_pos hh, hh]
    rcases hst : sc.stage with e | revision
    · -- Staging failed: nothing is left to ask.
      simp only [scripted, hst]
      change Evidenced c (conclude c _ artifact stageFailed s) ↔ _
      refine (evidenced_conclude (by exact hid) (Or.inl rfl) sound_stageFailed).trans ?_
      rw [recordable_iff hp (by rfl) (by rfl) (by rfl), hnull]
      simp [isObjOrNull, Json.isObj, Json.serializable, Json.serializableMembers, SinkTakes,
        Except.isOk, Except.toBool, and_assoc]
    · simp only [scripted, hst]
      change Evidenced c (verifyStaged (scripted sc) c revision m artifact s) ↔ _
      rw [evidenced_verifyStaged hp]
      simp [SinkTakes, Except.isOk, Except.toBool]
  · rw [if_neg hh]
    refine (evidenced_conclude (by exact hid) (Or.inl rfl) sound_unhealthy).trans ?_
    rw [recordable_iff hp (by rfl) (by rfl) (by rfl), hnull]
    simp [hh, isObjOrNull, Json.isObj, Json.serializable, Json.serializableMembers, SinkTakes,
      and_assoc]

/-- The condition on one call: it got past `prepare`, the control plane
cooperates, and the store and the sink take what they are given. -/
def Supported (c : Call) (sc : Script) (s : State Unit) : Prop :=
  ∃ m artifact, prepare c s.store = .ok (m, artifact) ∧ sc.Cooperates ∧
    Accepts c sc m.artifactSetHash artifact s

theorem evidenced_iff (c : Call) (sc : Script) (s : State Unit) :
    Evidenced c (publish (scripted sc) c s) ↔ Supported c sc s := by
  rw [publish, Supported]
  rcases h : prepare c s.store with e | ⟨m, artifact⟩
  · constructor
    · rintro ⟨m, hok, -⟩
      cases hok
    · rintro ⟨m, artifact, hok, -⟩
      cases hok
  · refine (evidenced_apply_iff (prepare_ok h)).trans ?_
    constructor
    · exact fun hc => ⟨m, artifact, rfl, hc⟩
    · rintro ⟨m', artifact', hok, hc⟩
      cases hok
      exact hc

/-! ## The incident over a sequence of calls -/

/-- The incident of blocked publications is open. -/
def Blocked (t : Incidents.Tables) : Prop :=
  ∃ i, Incidents.findKey t incidentKey = some i ∧ i.lifecycleState = .opened

theorem findKey_replace {t : Incidents.Tables} {old : Incidents.Incident} {key : String}
    (row : Incidents.Incident) (hold : Incidents.findKey t key = some old) (hkey : row.dedupKey = key) :
    Incidents.findKey (t.replace row) key = some row := by
  show (t.incidents.map _).find? _ = some row
  rw [List.find?_map]
  have hcomp : ((fun i : Incidents.Incident => decide (i.dedupKey = key)) ∘
      fun i => if i.dedupKey = row.dedupKey then row else i) =
        fun i => decide (i.dedupKey = key) := by
    funext i
    simp only [Function.comp]
    split
    · next h => rw [hkey, h, hkey]
    · rfl
  rw [hcomp]
  show (Incidents.findKey t key).map _ = _
  have hk : old.dedupKey = key := by simpa using List.find?_some hold
  rw [hold, Option.map_some, hk, hkey, if_pos rfl]

theorem findKey_append {t : Incidents.Tables} {row : Incidents.Incident} {key : String}
    (hnone : Incidents.findKey t key = none) (hkey : row.dedupKey = key) :
    Incidents.findKey (Incidents.Tables.append { t with incidents := t.incidents ++ [row] } row) key =
      some row := by
  show (t.incidents ++ [row]).find? _ = _
  rw [List.find?_append, show t.incidents.find? _ = none from hnone, Option.none_or,
    List.find?_cons_of_pos (by simpa using hkey)]

theorem blocked_of_opened {t t' : Incidents.Tables} {i : Incidents.Incident} {uuid now : String}
    {a : Incidents.OpenArgs} (hkey : a.dedupKey = incidentKey)
    (h : Incidents.openIncident t uuid now a = .ok (t', i)) : Blocked t' := by
  unfold Incidents.openIncident at h
  split at h
  · cases h
  · split at h
    · cases h
    · split at h
      · cases h
      · split at h
        · cases h
        · split at h
          · next hnone =>
            cases h
            rw [hkey] at hnone
            refine ⟨_, findKey_append hnone (by exact hkey), ?_⟩
            rfl
          · next old hold =>
            cases h
            rw [hkey] at hold
            have hk : old.dedupKey = incidentKey := by simpa using List.find?_some hold
            refine ⟨_, findKey_replace _ hold (by exact hk), ?_⟩
            rfl

theorem not_blocked_resolved (t : Incidents.Tables) (now impact : String) :
    ¬ Blocked (Incidents.resolveIncident t now incidentKey impact).1 := by
  rintro ⟨i, hi, hopen⟩
  unfold Incidents.resolveIncident at hi
  split at hi
  · next hnone =>
    rw [show Incidents.findKey t incidentKey = some i from hi] at hnone
    cases hnone
  · next old hold =>
    have hk : old.dedupKey = incidentKey := by simpa using List.find?_some hold
    rw [findKey_replace _ hold (by exact hk)] at hi
    cases hi
    cases hopen

/-- A call with a sink leaves one, and if it returned, the incident is open
exactly when the publication is not active. -/
def Reported {π : Type} (s : State π) (r : Except Exn Manifest × State π) : Prop :=
  s.incidents.isSome = true → ∃ t, r.2.incidents = some t ∧
    ∀ m, r.1 = .ok m → (Blocked t ↔ m.status ≠ .active)

section Reports

variable {π : Type} {plane : Plane π} {c : Call} {m : Manifest} {artifact revision : Json}
  {exit : Exit} {s s' : State π}

theorem recordManifest_incidents {activate : Bool} :
    (recordManifest c m artifact activate s).2.incidents = s.incidents := by
  unfold recordManifest
  split <;> rfl

theorem reported_conclude (hm : m.status ≠ .active) (hs : s'.incidents = s.incidents) :
    Reported s (conclude c m artifact exit s') := by
  intro hsink
  obtain ⟨t, ht⟩ := Option.isSome_iff_exists.1 hsink
  have hinc : (recordManifest c m artifact false s').2.incidents = some t := by
    rw [recordManifest_incidents, hs, ht]
  unfold conclude
  rcases hr : recordManifest c m artifact false s' with ⟨e | u, s''⟩
  · rw [hr] at hinc
    refine ⟨t, hinc, fun m' hok => ?_⟩
    cases hok
  · rw [hr] at hinc
    change s''.incidents = some t at hinc
    simp only [hinc, openBlocked]
    rcases ho : Incidents.openIncident t c.incidentId c.incidentNow _ with e | ⟨t', i⟩
    · refine ⟨t, rfl, fun m' hok => ?_⟩
      cases hok
    · refine ⟨t', rfl, fun m' hok => ?_⟩
      cases hok
      exact ⟨fun _ => hm, fun _ => blocked_of_opened (by rfl) ho⟩

theorem reported_rollBack (hs : s'.incidents = s.incidents) :
    Reported s (rollBack plane c revision m artifact exit s') := by
  unfold rollBack
  rcases plane.rollback revision s'.plane with ⟨e | u, p⟩
  · intro hsink
    obtain ⟨t, ht⟩ := Option.isSome_iff_exists.1 hsink
    refine ⟨t, hs.trans ht, fun m' hok => ?_⟩
    cases hok
  · exact reported_conclude (by simp) hs

theorem reported_complete (hs : s'.incidents = s.incidents) :
    Reported s (complete c m artifact s') := by
  intro hsink
  obtain ⟨t, ht⟩ := Option.isSome_iff_exists.1 hsink
  unfold complete
  have hinc : (recordManifest c (m.activated c) artifact true s').2.incidents = some t := by
    rw [recordManifest_incidents, hs, ht]
  rcases hr : recordManifest c (m.activated c) artifact true s' with ⟨e | u, s''⟩
  · rw [hr] at hinc
    refine ⟨t, hinc, fun m' hok => ?_⟩
    cases hok
  · rw [hr] at hinc
    change s''.incidents = some t at hinc
    simp only [hinc, Option.map_some]
    refine ⟨_, rfl, fun m' hok => ?_⟩
    cases hok
    simpa [Manifest.activated] using not_blocked_resolved t _ _

theorem reported_verifyStaged (hs : s'.incidents = s.incidents) :
    Reported s (verifyStaged plane c revision m artifact s') := by
  unfold verifyStaged
  simp only []
  split
  · intro hsink
    obtain ⟨t, ht⟩ := Option.isSome_iff_exists.1 hsink
    refine ⟨t, hs.trans ht, fun m' hok => ?_⟩
    cases hok
  · exact reported_rollBack hs
  · unfold activateStaged
    split
    · exact reported_rollBack hs
    · exact reported_complete hs

theorem reported_apply : Reported s (apply plane c m artifact s) := by
  unfold apply
  simp only []
  split
  · split
    · exact reported_conclude (by simp) rfl
    · exact reported_verifyStaged rfl
  · exact reported_conclude (by simp) rfl

end Reports

/-- The publisher as a machine; a call that got past `prepare` shows whether it
ended active. -/
def publisher : Machine (State Unit) (Call × Script) Bool where
  step s i := (publish (scripted i.2) i.1 s).2
  emit s i :=
    match prepare i.1 s.store with
    | .error _ => []
    | .ok _ =>
      match (publish (scripted i.2) i.1 s).1 with
      | .ok m => [m.status = .active]
      | .error _ => [false]

/-- What a sequence of supported calls keeps: the incident says how the last
publication ended. -/
theorem blocked_run {s₀ : State Unit} (hsink : s₀.incidents.isSome = true)
    (calls : List (Call × Script))
    (hok : ∀ pre i post, calls = pre ++ i :: post →
      ∀ m artifact, prepare i.1 (publisher.run s₀ pre).store = .ok (m, artifact) →
        Supported i.1 i.2 (publisher.run s₀ pre)) :
    ∃ t, (publisher.run s₀ calls).incidents = some t ∧
      ∀ b, (publisher.trace s₀ calls).getLast? = some b → (Blocked t ↔ b = false) := by
  obtain ⟨t₀, ht₀⟩ := Option.isSome_iff_exists.1 hsink
  refine publisher.invariant_of
    (P := fun s tr => ∃ t, s.incidents = some t ∧
      ∀ b, tr.getLast? = some b → (Blocked t ↔ b = false))
    (g := fun s i => ∀ m artifact, prepare i.1 s.store = .ok (m, artifact) → Supported i.1 i.2 s)
    ⟨t₀, ht₀, by simp⟩ ?_ calls hok
  rintro s tr ⟨c, sc⟩ hg ⟨t, ht, hlast⟩
  rcases hp : prepare c s.store with e | ⟨m, artifact⟩
  · -- The call raised before it asked the control plane anything.
    have hstep : publisher.step s (c, sc) = s := by
      show (publish (scripted sc) c s).2 = s
      rw [publish, hp]
    have hemit : publisher.emit s (c, sc) = [] := by
      show (match prepare c s.store with
        | .error _ => _
        | .ok _ => _) = _
      rw [hp]
    rw [hstep, hemit, List.append_nil]
    exact ⟨t, ht, hlast⟩
  · obtain ⟨m', hok, -, -⟩ := (evidenced_iff c sc s).2 (hg m artifact hp)
    have hrep : Reported s (publish (scripted sc) c s) := by
      rw [publish, hp]
      exact reported_apply
    obtain ⟨t', ht', hb⟩ := hrep (by rw [ht]; rfl)
    refine ⟨t', ht', fun b hlast => ?_⟩
    have hemit : publisher.emit s (c, sc) = [decide (m'.status = Status.active)] := by
      show (match prepare c s.store with
        | .error _ => []
        | .ok _ =>
          match (publish (scripted sc) c s).1 with
          | .ok m => [decide (m.status = Status.active)]
          | .error _ => [false]) = _
      rw [hp, hok]
    rw [hemit, List.getLast?_concat, Option.some.injEq] at hlast
    rw [hb m' hok, ← hlast, decide_eq_false_iff_not]

/-- A call that meets nothing wrong of its own. -/
def plainCall : Call where
  environment := "dev"
  sourceRevision := "r1"
  publicationId := "p1"
  compiled := .ok ⟨.obj [("configurationSha256", .str zeroHash)], zeroHash, []⟩
  createdAt := "2026-01-01T00:00:00Z"
  activatedAt := "2026-01-01T00:00:01Z"
  stop := none
  incidentId := "i1"
  incidentNow := "2026-01-01T00:00:01+00:00"

/-- The activation is written and its read-back fails; `rollback` then refuses
to delete the revision, which is the active one by now. -/
def refusing : Script where
  healthy := .ok (.bool true)
  stage := .ok (.str "sha256:0")
  verify := .ok (.obj (requiredChecks.map fun check => (check, .bool true)))
  activate := .error .raised
  rollback := .error .raised

def emptyState : State Unit := ⟨(), Store.empty, some ⟨[], none, []⟩⟩

end OufGateway.Publication
