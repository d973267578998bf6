import Mathlib
import OufGateway.Lib.Trace
import OufGateway.Ref.ControlPlane
import OufGateway.Proofs.PublicationPlane
import OufGateway.Proofs.AdminPort

/-!
# Last known good at the control plane

Between the write that moves the admin's pointer and the write of `active.json`
there are three places where a publication can still stop: the activation
request may raise after it took effect, the pointer may not be readable, and
the store may fail. `rollback` cannot move the pointer back: it deletes or
refuses. So a call keeps the pointer unless it activates, and it activates
exactly when `Reaches` holds and the request is not lost; what is left is
whether `active.json` follows.
-/

namespace OufGateway.ControlPlane

open Lib Publication

/-! ## The operations on a truthful admin -/

section Operations

variable {f : Faults} {artifact : Json} {a : Admin} {r : String}

theorem readRevision_eq : ((Admin.port f).readRevision r a).2 = a := by
  refine attempt_keeps (P := (· = a)) ?_ rfl
  split <;> rfl

theorem activeRevision_eq : ((Admin.port f).activeRevision a).2 = a :=
  attempt_keeps (P := (· = a)) rfl rfl

theorem stage_active : (stage (Admin.port f) artifact a).2.active = a.active :=
  stage_keeps (P := fun b : Admin => b.active = a.active) 
    (fun _ _ _ hp => attempt_keeps (P := fun b : Admin => b.active = a.active) hp hp)
    (fun r p hp => by rw [readRevision_eq]; exact hp) rfl

theorem verify_active : (verify (Admin.port f) r artifact a).2.active = a.active :=
  verify_keeps (P := fun b : Admin => b.active = a.active) (fun r p hp => by rw [readRevision_eq]; exact hp)
    (fun _ _ hp => hp) rfl

theorem rollback_active : (rollback (Admin.port f) r a).2.active = a.active :=
  rollback_keeps (P := fun b : Admin => b.active = a.active) (fun p hp => by rw [activeRevision_eq]; exact hp)
    (fun _ hp => attempt_keeps (P := fun b : Admin => b.active = a.active) hp hp) rfl

/-- What lets `stage` return. -/
def Faults.Stages (f : Faults) (artifact : Json) : Prop :=
  artifact.serializable = true ∧ f.putRevision = .clean ∧ f.readRevision = .clean ∧
    artifact.eqv artifact = true

theorem stage_ok (h : f.Stages artifact) (hr : revisionFor artifact = .ok r) :
    stage (Admin.port f) artifact a =
      (.ok (.str r), { a with revisions := Function.update a.revisions r (some artifact) }) := by
  obtain ⟨-, hput, hread, heqv⟩ := h
  simp [stage, hr, Admin.port, hput, hread, heqv, Fault.attempt]

theorem stages_of_ok {v : Json} (h : (stage (Admin.port f) artifact a).1 = .ok v) :
    f.Stages artifact := by
  by_cases hser : artifact.serializable = true
  · have hr : revisionFor artifact = .ok ("sha256:" ++ Sha256.ofText (artifact.dumps compact)) :=
      if_pos hser
    unfold stage at h
    rw [hr] at h
    unfold Faults.Stages
    cases hp : f.putRevision <;> cases hq : f.readRevision <;>
      simp [Admin.port, Fault.attempt, hp, hq] at h
    split at h
    · next heqv => exact ⟨hser, rfl, rfl, heqv⟩
    · cases h
  · unfold stage revisionFor at h
    rw [if_neg hser] at h
    cases h

/-- What lets the verification pass. -/
def Faults.Verifies (f : Faults) : Prop :=
  f.readRevision = .clean ∧ ∃ checks, f.probe = .ok checks ∧ checks.isObj = true ∧
    allTrue checks = true

theorem readRevision_isOk (hst : a.revisions r = some artifact) :
    ((Admin.port f).readRevision r a).1 =
      if f.readRevision = .clean then .ok artifact else .error .raised := by
  unfold Admin.port Fault.attempt
  cases h : f.readRevision <;> simp [hst]

theorem verify_passes (h : f.Verifies) (hr : revisionFor artifact = .ok r)
    (hst : a.revisions r = some artifact) (heqv : artifact.eqv artifact = true) :
    ∃ v, (verify (Admin.port f) r artifact a).1 = .ok v ∧ v.isObj = true ∧
      v.serializable = true ∧ passes v = .ok true := by
  obtain ⟨hread, checks, hprobe, hobj, hall⟩ := h
  refine verify_ok _ hr heqv ?_ hprobe hobj hall
  rw [readRevision_isOk hst, if_pos hread]

theorem verify_refuses (h : ¬ f.Verifies) (hr : revisionFor artifact = .ok r)
    (hst : a.revisions r = some artifact) (heqv : artifact.eqv artifact = true) :
    passes (orElse (verify (Admin.port f) r artifact a).1 (.obj [("verification", .bool false)])) =
      .ok false := by
  refine verify_not_ok _ hr heqv fun v hread => ?_
  rw [readRevision_isOk hst] at hread
  split at hread
  · next hclean =>
    cases hread
    exact ⟨rfl, fun checks hprobe hobj hall => h ⟨hclean, checks, hprobe, hobj, hall⟩⟩
  · cases hread

/-- The pointer after `activate`. -/
theorem activate_active : (activate (Admin.port f) r a).2.active =
    if f.activateRevision = .before then a.active else some r := by
  cases h : f.activateRevision <;> cases h' : f.activeRevision <;>
    simp [activate, Admin.port, Fault.attempt, h, h', Json.ofOption, Json.eqv]

theorem activate_isOk : (activate (Admin.port f) r a).1.isOk = true ↔
    f.activateRevision = .clean ∧ f.activeRevision = .clean := by
  cases h : f.activateRevision <;> cases h' : f.activeRevision <;>
    simp [activate, Admin.port, Fault.attempt, h, h', Json.ofOption, Json.eqv, Except.isOk,
      Except.toBool]

end Operations

/-! ## One call -/

/-- The control plane of a call, with its faults. -/
abbrev apisix (plan : Plan Faults) : Plane Admin := plane Admin.port plan

/-- The activation request is sent. -/
def Plan.Reaches (plan : Plan Faults) (artifact : Json) : Prop :=
  (orElse plan.healthy.health (.bool false)).isTrue = true ∧ plan.stage.Stages artifact ∧
    plan.verify.Verifies

/-- The activation request is answered, and so is the read-back. -/
def Plan.Confirms (plan : Plan Faults) : Prop :=
  plan.activate.activateRevision = .clean ∧ plan.activate.activeRevision = .clean

instance (plan : Plan Faults) : Decidable plan.Confirms := inferInstanceAs (Decidable (_ ∧ _))

section Call

variable {plan : Plan Faults} {artifact : Json} {a : Admin} {r : String}

theorem healthy_eq {f : Faults} : healthy (Admin.port f) a =
    (.ok (.bool (orElse f.health (.bool false)).isTrue), a) := by
  unfold healthy Admin.port
  cases f.health <;> rfl

theorem planeAfter_apisix : planeAfter (apisix plan) artifact a =
    if (orElse plan.healthy.health (.bool false)).isTrue then
      match stage (Admin.port plan.stage) artifact a with
      | (.error _, p) => p
      | (.ok revision, p) => verifyAfter (apisix plan) revision artifact p
    else a := by
  unfold planeAfter
  rw [show (apisix plan).healthy a = healthy (Admin.port plan.healthy) a from rfl, healthy_eq,
    show (apisix plan).stage = stage (Admin.port plan.stage) from rfl]
  simp only [orElse, Json.truthy]
  rcases stage (Admin.port plan.stage) artifact a with ⟨_ | _, p⟩ <;> rfl

theorem activated_apisix : activated (apisix plan) artifact a =
    if (orElse plan.healthy.health (.bool false)).isTrue then
      match stage (Admin.port plan.stage) artifact a with
      | (.error _, _) => none
      | (.ok revision, p) => verifyActivated (apisix plan) revision artifact p
    else none := by
  unfold activated
  rw [show (apisix plan).healthy a = healthy (Admin.port plan.healthy) a from rfl, healthy_eq,
    show (apisix plan).stage = stage (Admin.port plan.stage) from rfl]
  simp only [orElse, Json.truthy]
  rcases stage (Admin.port plan.stage) artifact a with ⟨_ | _, p⟩ <;> rfl

/-- What a call leaves when it does not reach the activation: nothing was
activated, and the pointer stays. -/
theorem stops (h : ¬ plan.Reaches artifact) :
    (planeAfter (apisix plan) artifact a).active = a.active ∧
      activated (apisix plan) artifact a = none := by
  rw [planeAfter_apisix, activated_apisix]
  by_cases hh : (orElse plan.healthy.health (.bool false)).isTrue = true
  · rw [if_pos hh, if_pos hh]
    by_cases hst : plan.stage.Stages artifact
    · have hv : ¬ plan.verify.Verifies := fun hv => h ⟨hh, hst, hv⟩
      obtain ⟨r, hr⟩ : ∃ r, revisionFor artifact = .ok r := ⟨_, if_pos hst.1⟩
      rw [stage_ok hst hr]
      simp only [verifyAfter, verifyActivated]
      have hpass := verify_refuses (a := { a with
        revisions := Function.update a.revisions r (some artifact) }) hv hr (by simp) hst.2.2.2
      simp only [show (apisix plan).verify (.str r) artifact =
        verify (Admin.port plan.verify) r artifact from rfl, hpass]
      refine ⟨?_, trivial⟩
      show (rollback (Admin.port plan.rollback) r _).2.active = _
      rw [rollback_active, verify_active]
    · have hactive : (stage (Admin.port plan.stage) artifact a).2.active = a.active := stage_active
      have hfails : ∀ v, (stage (Admin.port plan.stage) artifact a).1 ≠ .ok v :=
        fun v hv => hst (stages_of_ok hv)
      rcases hs : stage (Admin.port plan.stage) artifact a with ⟨e | revision, p⟩
      · rw [hs] at hactive
        exact ⟨hactive, rfl⟩
      · rw [hs] at hfails
        exact absurd rfl (hfails revision)
  · rw [if_neg hh, if_neg hh]
    exact ⟨rfl, rfl⟩

/-- What it leaves when it does. -/
theorem reaches (h : plan.Reaches artifact) (hr : revisionFor artifact = .ok r) :
    ((planeAfter (apisix plan) artifact a).active =
      if plan.activate.activateRevision = .before then a.active else some r) ∧
      ∃ v, v.isObj = true ∧ v.serializable = true ∧ activated (apisix plan) artifact a =
        if plan.Confirms then some (.str r, v) else none := by
  obtain ⟨hh, hst, hv⟩ := h
  rw [planeAfter_apisix, activated_apisix, if_pos hh, if_pos hh, stage_ok hst hr]
  simp only [verifyAfter, verifyActivated]
  obtain ⟨v, hok, hobj, hser, hpass⟩ := verify_passes (a := { a with
    revisions := Function.update a.revisions r (some artifact) }) hv hr (by simp) hst.2.2.2
  have hver : (verify (Admin.port plan.verify) r artifact { a with
      revisions := Function.update a.revisions r (some artifact) }).2.active = a.active :=
    verify_active
  simp only [show (apisix plan).verify (.str r) artifact =
    verify (Admin.port plan.verify) r artifact from rfl, hok, orElse, hpass,
    show (apisix plan).activate (.str r) = activate (Admin.port plan.activate) r from rfl]
  set p := (verify (Admin.port plan.verify) r artifact { a with
    revisions := Function.update a.revisions r (some artifact) }).2
  have hact := activate_active (f := plan.activate) (r := r) (a := p)
  rw [hver] at hact
  constructor
  · rcases hp : activate (Admin.port plan.activate) r p with ⟨_ | _, q⟩
    · rw [hp] at hact
      show (rollback (Admin.port plan.rollback) r q).2.active = _
      rw [rollback_active]
      exact hact
    · rw [hp] at hact
      exact hact
  · refine ⟨v, hobj, hser, ?_⟩
    simp only [activate_isOk]
    rfl

end Call

/-! ## Runs -/

/-- A call that did not advance `active.json` left the pointer where it was. -/
def Kept (s s' : State Admin) : Prop :=
  s'.store.active = s.store.active → s'.plane.active = s.plane.active

/-- The revision of the active manifest is the one the pointer names. -/
def Agree (s : State Admin) : Prop :=
  s.store.activeManifest.map (·.controlPlaneRevision) = s.plane.active.map Json.str

/-- If the call moves the pointer, the read-back is answered and the store
gets as far as `active.json`. -/
def Settles (c : Call) (plan : Plan Faults) (s : State Admin) : Prop :=
  ∀ m artifact r, prepare c s.store = .ok (m, artifact) → revisionFor artifact = .ok r →
    plan.Reaches artifact → plan.activate.activateRevision ≠ .before → s.plane.active ≠ some r →
    plan.Confirms ∧ s.store.advances m.artifactSetHash artifact c.stop = true

section Runs

variable {plan : Plan Faults} {c : Call} {s : State Admin} {m : Manifest} {artifact : Json}
  {r : String}

theorem publish_eq (hp : prepare c s.store = .ok (m, artifact)) :
    publish (apisix plan) c s = apply (apisix plan) c m artifact s := by
  unfold publish
  rw [hp]

theorem publish_error {e : Exn} (hp : prepare c s.store = .error e) :
    (publish (apisix plan) c s).2 = s := by
  unfold publish
  rw [hp]

/-- A call that does not reach the activation changes neither side. -/
theorem publish_stops (hp : prepare c s.store = .ok (m, artifact)) (h : ¬ plan.Reaches artifact) :
    (publish (apisix plan) c s).2.plane.active = s.plane.active ∧
      (publish (apisix plan) c s).2.store.active = s.store.active := by
  obtain ⟨hplane, hact⟩ := stops (a := s.plane) h
  rw [publish_eq hp, apply_plane, apply_active, hact]
  exact ⟨hplane, rfl⟩

/-- One that does moves the pointer unless the request is lost, and then
`active.json` if it is confirmed and the store gets that far. -/
theorem publish_reaches (hp : prepare c s.store = .ok (m, artifact)) (h : plan.Reaches artifact)
    (hr : revisionFor artifact = .ok r) :
    ((publish (apisix plan) c s).2.plane.active =
      if plan.activate.activateRevision = .before then s.plane.active else some r) ∧
      ∃ m' : Manifest, m'.controlPlaneRevision = .str r ∧
        (plan.Confirms ∧ s.store.advances m.artifactSetHash artifact c.stop = true →
          (publish (apisix plan) c s).2.store.active = m' :: s.store.active) ∧
        (¬ (plan.Confirms ∧ s.store.advances m.artifactSetHash artifact c.stop = true) →
          (publish (apisix plan) c s).2.store.active = s.store.active) := by
  obtain ⟨hplane, v, hobj, hser, hact⟩ := reaches (a := s.plane) h hr
  rw [publish_eq hp, apply_plane, apply_active, hact]
  refine ⟨hplane, m.activatedAs c (.str r, v), rfl, ?_, ?_⟩
  · rintro ⟨hconf, hadv⟩
    rw [if_pos hconf]
    show (s.store.afterActive c (m.activatedAs c (.str r, v)) artifact).active = _
    rw [afterActive_active (.str r, v) (prepare_ok hp) rfl hobj hser, if_pos hadv]
  · intro hnot
    by_cases hconf : plan.Confirms
    · rw [if_pos hconf]
      have hadv : ¬ s.store.advances m.artifactSetHash artifact c.stop = true :=
        fun hadv => hnot ⟨hconf, hadv⟩
      show (s.store.afterActive c (m.activatedAs c (.str r, v)) artifact).active = _
      rw [afterActive_active (.str r, v) (prepare_ok hp) rfl hobj hser, if_neg hadv]
    · rw [if_neg hconf]

theorem kept_iff : Kept s (publish (apisix plan) c s).2 ↔ Settles c plan s := by
  rcases hp : prepare c s.store with e | ⟨m, artifact⟩
  · rw [publish_error hp]
    refine ⟨fun _ m artifact r hok => ?_, fun _ _ => rfl⟩
    rw [hp] at hok
    cases hok
  · by_cases h : plan.Reaches artifact
    · obtain ⟨r, hr⟩ : ∃ r, revisionFor artifact = .ok r := ⟨_, if_pos h.2.1.1⟩
      obtain ⟨hplane, m', -, hadv, hsame⟩ := publish_reaches hp h hr
      constructor
      · intro hkept m₁ artifact₁ r₁ hok hr₁ _ hsent hne
        rw [hp] at hok
        cases hok
        rw [hr] at hr₁
        cases hr₁
        by_contra hnot
        have hptr := hkept (hsame hnot)
        rw [hplane, if_neg hsent] at hptr
        exact hne hptr.symm
      · intro hset hunchanged
        rw [hplane]
        split
        · rfl
        · next hsent =>
          by_contra hne
          have hdone := hset m artifact r hp hr h hsent fun heq => hne heq.symm
          rw [hadv hdone] at hunchanged
          exact List.cons_ne_self _ _ hunchanged
    · obtain ⟨hplane, hstore⟩ := publish_stops hp h
      refine ⟨fun _ m₁ artifact₁ r hok hr hreach => ?_, fun _ _ => hplane⟩
      rw [hp] at hok
      cases hok
      exact absurd hreach h

theorem agree_publish (hset : Settles c plan s) (ha : Agree s) :
    Agree (publish (apisix plan) c s).2 := by
  have hkept := kept_iff.2 hset
  by_cases hsame : (publish (apisix plan) c s).2.store.active = s.store.active
  · unfold Agree Store.activeManifest
    rw [hsame, hkept hsame]
    exact ha
  · -- The store moved, so the call was confirmed and its revision is on both sides.
    rcases hp : prepare c s.store with e | ⟨m, artifact⟩
    · rw [publish_error hp] at hsame
      exact absurd rfl hsame
    · by_cases h : plan.Reaches artifact
      · obtain ⟨r, hr⟩ : ∃ r, revisionFor artifact = .ok r := ⟨_, if_pos h.2.1.1⟩
        obtain ⟨hplane, m', hrev, hadv, hnot⟩ := publish_reaches hp h hr
        by_cases hdone : plan.Confirms ∧ s.store.advances m.artifactSetHash artifact c.stop = true
        · have hsent : plan.activate.activateRevision ≠ .before := by
            rw [hdone.1.1]
            decide
          unfold Agree Store.activeManifest
          rw [hadv hdone, hplane, if_neg hsent, List.head?_cons, Option.map_some, hrev,
            Option.map_some]
        · exact absurd (hnot hdone) hsame
      · exact absurd (publish_stops hp h).2 hsame

end Runs

/-- Calls of `publish` one after another, each with its faults. -/
def publisher : Machine (State Admin) (Call × Plan Faults) Empty where
  step s i := (publish (apisix i.2) i.1 s).2
  emit _ _ := []

/-- A call keeps the pointer, unless it advances `active.json`, exactly when it
settles; and a run whose calls all settle keeps it at every call, and keeps the
store and the admin in agreement. -/
theorem last_known_good_iff (c : Call) (plan : Plan Faults) (s : State Admin) :
    (Kept s (publish (apisix plan) c s).2 ↔ Settles c plan s) ∧
    ∀ (s₀ : State Admin) (calls : List (Call × Plan Faults)),
      (∀ pre i post, calls = pre ++ i :: post → Settles i.1 i.2 (publisher.run s₀ pre)) →
      (∀ pre i post, calls = pre ++ i :: post →
        Kept (publisher.run s₀ pre) (publisher.run s₀ (pre ++ [i]))) ∧
      (Agree s₀ → ∀ pre post, calls = pre ++ post → Agree (publisher.run s₀ pre)) := by
  refine ⟨kept_iff, fun s₀ calls hset => ⟨fun pre i post heq => ?_, ?_⟩⟩
  · rw [publisher.run_snoc]
    exact kept_iff.2 (hset pre i post heq)
  · intro ha pre post heq
    refine publisher.invariant_of (P := fun s _ => Agree s)
      (g := fun s i => Settles i.1 i.2 s) ha (fun s _ i hs hagree => agree_publish hs hagree) pre ?_
    intro pre' i post' heq'
    exact hset pre' i (post' ++ post) (by rw [heq, heq', List.append_assoc, List.cons_append])

/-- All checks pass, the activation is carried out, and the read-back fails. -/
def unread : Plan Faults where
  healthy := {}
  stage := {}
  verify := { probe := .ok (.obj (requiredChecks.map fun check => (check, .bool true))) }
  activate := { activeRevision := .before }
  rollback := {}

def freshState : State Admin := ⟨⟨fun _ => none, none⟩, Store.empty, none⟩

theorem unread_moves_pointer :
    Agree freshState ∧ ¬ Kept freshState (publish (apisix unread) plainCall freshState).2 ∧
      ¬ Agree (publisher.run freshState [(plainCall, unread)]) := by
  have hok : (prepare plainCall freshState.store).isOk = true := by decide +kernel
  rcases hp : prepare plainCall freshState.store with e | ⟨m, artifact⟩
  · rw [hp] at hok
    cases hok
  obtain ⟨compiled, hc, rfl, -⟩ := prepare_compiled hp
  cases hc
  have hreach : unread.Reaches (.obj [("configurationSha256", .str zeroHash)]) :=
    ⟨rfl, ⟨rfl, rfl, rfl, by decide +kernel⟩, rfl, _, rfl, rfl, by decide +kernel⟩
  obtain ⟨hplane, -, -, -, hsame⟩ := publish_reaches hp hreach rfl
  have hconf : ¬ unread.Confirms := by
    rintro ⟨-, hread⟩
    cases hread
  have hstore := hsame fun h => hconf h.1
  refine ⟨rfl, fun hkept => ?_, fun hagree => ?_⟩
  · have hptr := hkept hstore
    rw [hplane] at hptr
    cases hptr
  · have hagree' : Agree (publish (apisix unread) plainCall freshState).2 := hagree
    unfold Agree Store.activeManifest at hagree'
    rw [hstore, hplane] at hagree'
    cases hagree'

end OufGateway.ControlPlane
