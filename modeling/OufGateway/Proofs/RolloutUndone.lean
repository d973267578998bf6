import OufGateway.Proofs.RolloutKept

/-!
# The rollout is undone

A `--rollback` in which docker answers every command, a lookup of a name nobody has
excepted, ends with the original under its name, running and with its policy, if the
backup name was free when the record was written. `--rollback` of UDP looks first
whether APISIX is the container of its record; the handler of `--apply` does not, so
that there it has to be so before the record of UDP is written.
-/

namespace OufGateway.RolloutRuntime

open Lib PyAccess
open Lib.Script hiding send
open RolloutFiles (Service checkPrivate)

variable {site : Site} {s t : Service} {id : String} {d : Docker} {w : World} {name : String}
  {command : Command} {undo : Option Service} {I : World → Prop}

/-! ## A rollback that is answered -/

/-- The failures of a rollback in which docker does what it is asked. -/
def Excused (w : World) (x : Raised) : Command → Prop
  | .inspect name => w.containers name = none ∧ x = .py .calledProcessError
  | .probe _ => True
  | .readState t => (∀ content, w.files t ≠ some (some content)) ∧ (w.files t = none → x = .fileNotFound)
  | _ => False

def Smooth (w : World) (e : Event Request Answer Raised) : Prop :=
  ∀ x, e.reply.result = .error x → Excused w x e.request.command

/-- The original has its name, runs, and starts again when docker does. -/
def Restored (s : Service) (id : String) (w : World) : Prop :=
  ∃ k, w.containers (nameOf s) = some k ∧ k.id = id ∧ k.running = true ∧ k.restart = "unless-stopped"

/-- APISIX was not staged, or it is back. -/
def ApisixBack (w : World) : Prop :=
  w.files .apisix = none ∨ ∃ content, w.files .apisix = some (some content) ∧
    Has w (nameOf .apisix) content.oldId

/-- Both events of a rollback that is answered. -/
def Answered (d : Docker) (w : World) (e : Event Request Answer Raised) : Prop :=
  (engine d).honest w e ∧ Smooth w e

theorem answered_honest (w : World) (e : Event Request Answer Raised) (h : Answered d w e) :
    (engine d).honest w e := h.1

/-- A command that is not excused is answered, and has done what it says. -/
theorem answered_docker {Q : World → Prop} (hstrict : ∀ v x, ¬ Excused v x command)
    (htells : ∀ answer, ¬ tells w false answer command)
    (hQ : possible d w command → Q (performed d w command)) :
    (engine d).Keeps (Answered d) (fun _ => True) (fun v x => (∃ u, x = .ok u) ∧ Q v)
      (docker undo command) w := by
  refine keeps_docker trivial fun reply hreply => ⟨trivial, ?_⟩
  obtain ⟨⟨hpossible, hanswer, -⟩, hsmooth⟩ := hreply
  dsimp only [engine] at hpossible hanswer ⊢
  cases hresult : reply.result with
  | error x => exact absurd (hsmooth x hresult) (hstrict _ _)
  | ok answer =>
      have htook : reply.took = true := by
        cases htook : reply.took with
        | true => rfl
        | false => exact absurd (htook ▸ hanswer answer hresult) (htells answer)
      rw [if_pos htook]
      exact ⟨⟨(), rfl⟩, hQ (hpossible htook)⟩

theorem answered_inspect {k : Container} (hk : w.containers name = some k) :
    (engine d).Keeps (Answered d) (fun _ => True) (fun v x => v = w ∧ x = .ok k)
      (inspect undo name) w := by
  refine keeps_inspect answered_honest trivial (fun j hj => ⟨rfl, ?_⟩) fun reply x hreply hx => ?_
  · rw [Option.some.inj (hj.symm.trans hk)]
  · have hnone := (hreply.2 x hx).1
    rw [hk] at hnone
    cases hnone

/-- A lookup says what there is. -/
theorem answered_find : (engine d).Keeps (Answered d) (fun _ => True)
    (fun v x => v = w ∧ x = .ok (w.containers name)) (find undo name) w := by
  refine keeps_find answered_honest trivial (fun k hk => ⟨rfl, congrArg _ hk.symm⟩)
    (fun reply hreply hx => ⟨rfl, ?_⟩) fun reply x hreply hx hne => ?_
  · have hnone : w.containers name = none := (hreply.2 _ hx).1
    rw [hnone]
  · exact absurd (hreply.2 x hx).2 hne

/-- At home, or away and the name is free. -/
def Clear (site : Site) (s : Service) (id : String) (w : World) : Prop :=
  Home True site s id w ∨ (Away site s id w ∧ w.containers (nameOf s) = none)

theorem answered_clear (hw : Staged True site s id w) :
    (engine d).Keeps (Answered d) (fun _ => True) (fun v x => (∃ u, x = .ok u) ∧ Clear site s id v)
      (clear s id (w.containers (nameOf s))) w := by
  cases hname : w.containers (nameOf s) with
  | none =>
      refine ⟨trivial, ⟨(), rfl⟩, Or.inr ⟨hw.resolve_left fun hhome => ?_, hname⟩⟩
      obtain ⟨k, hk, -⟩ := hhome.has
      rw [hname] at hk
      cases hk
  | some live =>
      unfold clear
      dsimp only
      split
      · next hid => exact ⟨trivial, ⟨(), rfl⟩, Or.inl (hw.home hname hid)⟩
      · next hne =>
        have haway := hw.away hname hne
        have hupdate : (engine d).Keeps (Answered d) (fun _ => True)
            (fun v x => (∃ u, x = .ok u) ∧ Away site s id v)
            (docker (some s) (.update "no" (nameOf s))) w :=
          answered_docker (fun _ _ h => h) (fun _ h => by cases h) fun _ => haway.gentle (.update _)
        refine hupdate.bind (fun v _ _ hv => ?_) fun v e he => by
          obtain ⟨⟨u, hu⟩, -⟩ := he
          cases hu
        have hstop : (engine d).Keeps (Answered d) (fun _ => True)
            (fun v x => (∃ u, x = .ok u) ∧ Away site s id v)
            (if live.running then docker (some s) (.stop (nameOf s)) else .done ()) v := by
          split
          · exact answered_docker (fun _ _ h => h) (fun _ h => by cases h) fun _ => hv.2.gentle .stop
          · exact ⟨trivial, ⟨(), rfl⟩, hv.2⟩
        refine hstop.bind (fun v _ _ hv => ?_) fun v e he => by
          obtain ⟨⟨u, hu⟩, -⟩ := he
          cases hu
        exact answered_docker (fun _ _ h => h) (fun _ h => by cases h)
          fun _ => Or.inr ⟨hv.2.rm, set_same _ _ _⟩

theorem answered_giveBack {service : Service} (hw : Clear site s id w) :
    (engine d).Keeps (Answered d) (fun _ => True)
      (fun v x => (∃ u, x = .ok u) ∧ Home True site s id v)
      (giveBack s ⟨service, id, backupOf s⟩ (w.containers (backupOf s))) w := by
  rcases hw with hhome | ⟨haway, -⟩
  · rw [hhome.free trivial]
    exact ⟨trivial, ⟨(), rfl⟩, hhome⟩
  · obtain ⟨k, hk, hid⟩ := haway.has
    rw [hk]
    unfold giveBack
    dsimp only
    rw [if_neg (not_not.mpr hid)]
    exact answered_docker (fun _ _ h => h) (fun _ h => by cases h) fun _ => haway.back

theorem answered_restart (hw : Home True site s id w) :
    (engine d).Keeps (Answered d) (fun _ => True) (fun v _ => Restored s id v) (restart s id) w := by
  obtain ⟨k, hk, hid⟩ := hw.has
  refine (answered_inspect hk).bind (fun v restored _ h => ?_) fun v e he => by cases he.2
  obtain ⟨rfl, hrestored⟩ := h
  obtain rfl := Except.ok.inj hrestored
  rw [if_neg (not_not.mpr hid)]
  have hstart : (engine d).Keeps (Answered d) (fun _ => True) (fun v x => (∃ u, x = .ok u) ∧
      ∃ j, v.containers (nameOf s) = some j ∧ j.id = id ∧ j.running = true)
      (if restored.running then .done () else docker (some s) (.start (nameOf s))) v := by
    split
    · next hrunning => exact ⟨trivial, ⟨(), rfl⟩, restored, hk, hid, hrunning⟩
    · refine answered_docker (fun _ _ h => h) (fun _ h => by cases h) fun _ => ?_
      exact ⟨_, (set_same _ _ _).trans (congrArg _ hk), hid, rfl⟩
  refine hstart.bind (fun v _ _ h => ?_) fun v e he => by
    obtain ⟨⟨u, hu⟩, -⟩ := he
    cases hu
  obtain ⟨-, j, hj, hid, hrunning⟩ := h
  have hpolicy : Restored s id (performed d v (.update "unless-stopped" (nameOf s))) :=
    ⟨_, (set_same _ _ _).trans (congrArg _ hj), hid, hrunning, rfl⟩
  have hupdate : (engine d).Keeps (Answered d) (fun _ => True)
      (fun v x => (∃ u, x = .ok u) ∧ Restored s id v)
      (docker (some s) (.update "unless-stopped" (nameOf s))) v :=
    answered_docker (fun _ _ h => h) (fun _ h => by cases h) fun _ => hpolicy
  refine hupdate.bind (fun v _ _ hv => ?_) fun v e he => by
    obtain ⟨⟨u, hu⟩, -⟩ := he
    cases hu
  have hrestored := hv.2
  obtain ⟨c, hc, -, hcrunning, -⟩ := hv.2
  refine (answered_inspect hc).bind (fun v' live _ h => ?_) fun v e he => by cases he.2
  obtain ⟨rfl, hlive⟩ := h
  obtain rfl := Except.ok.inj hlive
  rw [if_pos hcrunning]
  split
  · exact keeps_waitUdpReady trivial fun _ => hrestored
  · exact ⟨trivial, hrestored⟩

theorem answered_rollback {service : Service} (hw : Staged True site s id w) :
    (engine d).Keeps (Answered d) (fun _ => True) (fun v _ => Restored s id v)
      (rollback s ⟨service, id, backupOf s⟩) w := by
  refine answered_find.bind (fun v current _ h => ?_) fun v e he => by cases he.2
  obtain ⟨rfl, hcurrent⟩ := h
  obtain rfl := Except.ok.inj hcurrent
  refine (answered_clear hw).bind (fun v _ _ hv => ?_) fun v e he => by
    obtain ⟨⟨u, hu⟩, -⟩ := he
    cases hu
  refine answered_find.bind (fun v' original _ h => ?_) fun v e he => by cases he.2
  obtain ⟨rfl, horiginal⟩ := h
  obtain rfl := Except.ok.inj horiginal
  refine (answered_giveBack hv.2).bind (fun v _ _ hv => answered_restart hv.2) fun v e he => by
    obtain ⟨⟨u, hu⟩, -⟩ := he
    cases hu

theorem answered_readState : (engine d).Keeps (Answered d) (fun _ => True)
    (fun v x => v = w ∧ ((∃ content, x = .ok content ∧ w.files t = some (some content)) ∨
      ∃ e, x = .error e ∧ (∀ content, w.files t ≠ some (some content)) ∧
        (w.files t = none → e = .fileNotFound))) (readState t) w := by
  refine ⟨trivial, fun reply hreply => ?_⟩
  rw [effect_quiet (.readState t)]
  cases hresult : reply.result with
  | error e => exact ⟨trivial, rfl, Or.inr ⟨e, rfl, hreply.2 e hresult⟩⟩
  | ok answer =>
      obtain ⟨content, rfl, hfile⟩ := hreply.1.2.1 answer hresult
      exact ⟨trivial, rfl, Or.inl ⟨content, rfl, hfile⟩⟩

theorem answered_apisixFirst (hw : ApisixBack w) :
    (engine d).Keeps (Answered d) (fun _ => True) (fun v x => v = w ∧ x = .ok ()) apisixFirst w := by
  have hbody : (engine d).Keeps (Answered d) (fun _ => True)
      (fun v x => v = w ∧ (x = .ok () ∨ x = .error .fileNotFound))
      ((readState .apisix).bind fun api => (inspect none (nameOf .apisix)).bind fun live =>
        if live.id ≠ api.oldId then .raise (blocked "rollback APISIX before UDP") else .done ()) w := by
    refine answered_readState.bind (fun v api _ h => ?_) fun v e h => ?_
    · obtain ⟨rfl, ⟨content, hx, hfile⟩ | ⟨e, hx, -⟩⟩ := h
      · obtain rfl := Except.ok.inj hx
        rcases hw with hnone | ⟨content, hcontent, k, hk, hid⟩
        · rw [hnone] at hfile
          cases hfile
        · obtain rfl := Option.some.inj (Option.some.inj (hfile.symm.trans hcontent))
          refine (answered_inspect hk).bind (fun v' live _ h => ?_) fun v e he => by cases he.2
          obtain ⟨rfl, hlive⟩ := h
          obtain rfl := Except.ok.inj hlive
          rw [if_neg (not_not.mpr hid)]
          exact ⟨trivial, rfl, Or.inl rfl⟩
      · cases hx
    · obtain ⟨rfl, ⟨content, hx, -⟩ | ⟨e', hx, hincomplete, hnone⟩⟩ := h
      · cases hx
      · obtain rfl := Except.error.inj hx
        rcases hw with hfile | ⟨content, hcontent, -⟩
        · exact ⟨rfl, Or.inr (congrArg _ (hnone hfile))⟩
        · exact absurd hcontent (hincomplete content)
  refine hbody.handle (fun v u h => ⟨h.1, rfl⟩) fun v e _ h => ?_
  obtain ⟨rfl, hx | hx⟩ := h
  · cases hx
  · obtain rfl := Except.error.inj hx
    exact ⟨trivial, rfl, rfl⟩

theorem Pristine.restored (h : Pristine True s id w) : Restored s id w := by
  obtain ⟨k, hk, hid, hrunning, hpolicy⟩ := h.live
  exact ⟨k, hk, hid, hrunning, hpolicy trivial⟩

theorem answered_takeBack (hw : Kept True site s id w) (hback : s = .udp → ApisixBack w) :
    (engine d).Keeps (Answered d) (fun _ => True) (fun v _ => Restored s id v) (takeBack site s) w := by
  -- without a record nothing was changed, so that a rollback that is refused is one that is done
  have hrefused : (∀ content, w.files s ≠ some (some content)) → Restored s id w := by
    intro hnone
    rcases hw with h | h | h
    · exact h.restored
    · exact absurd h.file (hnone _)
    · exact absurd h.file (hnone _)
  have hready : (engine d).Keeps (Answered d) (fun _ => True)
      (fun v x => v = w ∧ ∀ e, x = .error e → Restored s id w)
      (compute (checkPrivate site.host site.candidate 0o700 0 0)) w := by
    refine Party.keeps_ofExcept trivial ⟨rfl, fun e he => hw.elim Pristine.restored fun h => ?_⟩
    have hok := h.elim (fun h => h.ready) fun h => h.ready
    rw [hok] at he
    cases he
  refine hready.bind (fun v _ _ h => ?_) fun v e h => h.1 ▸ h.2 e rfl
  obtain ⟨rfl, -⟩ := h
  refine answered_readState.bind (fun v' content _ h => ?_) fun v' e h => ?_
  · obtain ⟨rfl, ⟨content', hx, hfile⟩ | ⟨e, hx, -⟩⟩ := h
    · obtain rfl := Except.ok.inj hx
      have hstaged := hw.resolve_left fun h => h.file _ hfile
      have hrecord := hstaged.elim (fun h => h.file) fun h => h.file
      obtain rfl := Option.some.inj (Option.some.inj (hfile.symm.trans hrecord))
      dsimp only
      rw [if_neg (not_not.mpr rfl)]
      have hfirst : (engine d).Keeps (Answered d) (fun _ => True) (fun v x => v = v' ∧ x = .ok ())
          (if s = .udp then apisixFirst else .done ()) v' := by
        split
        · next hudp => exact answered_apisixFirst (hback hudp)
        · exact ⟨trivial, rfl, rfl⟩
      refine hfirst.bind (fun v _ _ h => ?_) fun v e h => by cases h.2
      obtain ⟨rfl, -⟩ := h
      exact answered_rollback hstaged
    · cases hx
  · obtain ⟨rfl, ⟨_, hx, -⟩ | ⟨_, -, hincomplete, -⟩⟩ := h
    · cases hx
    · exact hrefused hincomplete

theorem answered_main (hw : Kept True site s id w) (hback : s = .udp → ApisixBack w) :
    (engine d).Keeps (Answered d) (fun _ => True) (fun v _ => Restored s id v)
      (main site 0 s .rollback) w := by
  unfold main
  rw [if_neg (by decide)]
  exact (answered_takeBack hw hback).handle (fun _ _ h => h) fun v e _ h => ⟨trivial, h⟩

/-! ## UDP after APISIX -/

/-- APISIX is the container of its record, where there is one. -/
def ApisixKept (w : World) : Prop :=
  ∀ content, w.files .apisix = some (some content) → Has w (nameOf .apisix) content.oldId

/-- APISIX is so before the record of UDP is written, and docker is there when `--rollback` looks. -/
def Ordered (mode : Mode) (w : World) (e : Event Request Answer Raised) : Prop :=
  (e.request.command = .openState .udp → ApisixKept w) ∧
    (mode = .rollback → e.request = ⟨.inspect (nameOf .apisix), none⟩ →
      e.reply.result ≠ .error .fileNotFound)

/-- No command of a rollback of UDP comes where APISIX is another container. -/
def InOrder (w : World) (e : Event Request Answer Raised) : Prop :=
  e.request.undo = some .udp → ApisixKept w

theorem ApisixKept.frame {v : World} (h : ApisixKept v) (hf : Frame .apisix v w) : ApisixKept w := by
  intro content hcontent
  obtain ⟨k, hk, hid⟩ := h content (hf.file ▸ hcontent)
  exact ⟨k, hf.name.trans hk, hid⟩

section

variable {P : Request → Prop}

theorem sends_validate {original : Json} {changes : Bool}
    (hP : ∀ command, Quiet command → P ⟨command, none⟩) :
    Sends P (validate site t original changes) := by
  refine (sends_inspect (hP _ (.inspect _))).bind fun current => sends_compute.bind fun _ =>
    Sends.bind ?_ fun _ => sends_compute.bind fun _ => Sends.bind ?_ fun image =>
      sends_compute.bind fun _ => sends_compute.bind fun args => .done _
  · split
    · exact (sends_inspect (hP _ (.inspect _))).bind fun udp => sends_compute
    · exact .done _
  · refine Sends.bind (.send (hP _ (.imageInspect _))) fun answer => ?_
    cases answer with
    | image id config => exact .done _
    | _ => exact .raise _

theorem sends_apply {changes : Bool} (hnone : ∀ r, Own t none r → P r)
    (hcreate : ∀ args, P ⟨.create args, none⟩) (hundo : ∀ r, Own t (some t) r → P r) :
    Sends P (apply site t changes) := by
  refine sends_compute.bind fun original => (sends_validate fun _ h => hnone _ ⟨.quiet h, rfl⟩).bind
    fun launch => Sends.bind (.send (hnone _ ⟨.quiet (.stateExists t), rfl⟩)) fun answer => ?_
  split
  · split
    · refine (sends_checkBackup.mono hnone).bind fun _ => sends_compute.bind fun oldId =>
        ((sends_saveState rfl).mono hnone).bind fun _ =>
          (sends_replace hnone (hcreate _)).handle fun e => ?_
      split
      · exact (sends_rollback hundo (hundo _ ⟨.back, rfl⟩)).bind fun _ => .raise _
      · exact .raise _
    · exact .done _
  · exact .raise _
  · exact .raise _

theorem sends_takeBack (hnone : ∀ r, Quiet r.command ∧ r.undo = none → P r)
    (hundo : ∀ r, Own t (some t) r → P r) (hback : ∀ backup, P ⟨.rename backup (nameOf t), some t⟩) :
    Sends P (takeBack site t) := by
  refine sends_compute.bind fun _ => (sends_readState.mono hnone).bind fun content => ?_
  split
  · exact .raise _
  · refine Sends.bind ?_ fun _ => sends_rollback hundo (hback _)
    split
    · exact sends_apisixFirst.mono hnone
    · exact .done _

theorem sends_main {euid : Nat} {mode : Mode} (hnone : ∀ r, Own t none r → P r)
    (hcreate : ∀ args, P ⟨.create args, none⟩) (hundo : ∀ r, Own t (some t) r → P r)
    (hback : ∀ backup, P ⟨.rename backup (nameOf t), some t⟩) :
    Sends P (main site euid t mode) := by
  unfold main
  split
  · exact .raise _
  · refine Sends.handle ?_ fun e => .raise _
    cases mode with
    | rollback => exact sends_takeBack (fun r h => hnone r ⟨.quiet h.1, h.2⟩) hundo hback
    | apply => exact sends_apply hnone hcreate hundo
    | dryRun => exact sends_apply hnone hcreate hundo

end

/-- A run removes what has the name of its service. -/
theorem rm_main {euid : Nat} {mode : Mode} :
    Sends (fun r => ∀ n, r.command = .rm n → n = nameOf t) (main site euid t mode) := by
  have hwithin : ∀ {undo : Option Service} (r : Request), Own t undo r →
      ∀ n, r.command = .rm n → n = nameOf t := by
    intro undo r h n hn
    have hown := h.1
    rw [hn] at hown
    cases hown with
    | quiet h => cases h
    | gentle h => cases h
    | rm => rfl
  exact sends_main hwithin (fun _ _ h => by cases h) hwithin fun _ _ h => by cases h

/-- What keeps the records named does it in every run. -/
theorem named_main {euid : Nat} {mode : Mode} {A : World → Event Request Answer Raised → Prop}
    (hA : ∀ w e, A w e → (engine d).honest w e)
    (hw : ∀ t content, w.files t = some (some content) → content.backup = backupOf t) :
    (engine d).Keeps A (fun w => ∀ t content, w.files t = some (some content) →
      content.backup = backupOf t) (fun _ _ => True) (main site euid s mode) w := by
  have hother : ∃ t : Service, s ≠ t := by
    cases s
    · exact ⟨.apisix, by decide⟩
    · exact ⟨.udp, by decide⟩
  obtain ⟨t, ht⟩ := hother
  exact keeps_other hA ht (fun _ _ h hf => hf.named h) (fun _ h => h s) hw

section

variable {mode : Mode}

/-- What docker and the files answer, in an order that is asked for. -/
def Asked (d : Docker) (mode : Mode) (w : World) (e : Event Request Answer Raised) : Prop :=
  (engine d).honest w e ∧ Ordered mode w e

theorem asked_honest (w : World) (e : Event Request Answer Raised) (h : Asked d mode w e) :
    (engine d).honest w e := h.1

/-- Where APISIX is kept, a rollback of UDP keeps it so. -/
theorem inOrder_rollback {state : State} (hbackup : state.backup = backupOf .udp) (hw : ApisixKept w) :
    (engine d).Guards (Asked d mode) InOrder (rollback .udp state) w := by
  have hback : Own .udp (some .udp) ⟨.rename state.backup (nameOf .udp), some .udp⟩ := by
    rw [hbackup]
    exact ⟨.back, rfl⟩
  have hkeeps : (engine d).Keeps (Asked d mode) ApisixKept (fun _ _ => True) (rollback .udp state) w :=
    keeps_frame (by decide) (sends_rollback (fun _ h => h) hback) (fun _ _ h hf => h.frame hf) hw
  exact hkeeps.guards fun _ _ h _ => h

/-- What no rollback sends is in order. -/
theorem inOrder_ahead {α : Type} {p : Work α} (hp : Sends (fun r => r.undo = none) p) :
    (engine d).Guards (Asked d mode) InOrder p w := by
  refine Party.guards_of_sends hp fun v e hnone hundo => ?_
  rw [hnone] at hundo
  cases hundo

theorem kept_apisixFirst (hmode : mode = .rollback) :
    (engine d).Keeps (Asked d mode) (fun _ => True) (fun v x => v = w ∧ (x = .ok () → ApisixKept w))
      apisixFirst w := by
  have hbody : (engine d).Keeps (Asked d mode) (fun _ => True)
      (fun v x => v = w ∧ (x = .ok () ∨ x = .error .fileNotFound → ApisixKept w))
      ((readState .apisix).bind fun api => (inspect none (nameOf .apisix)).bind fun live =>
        if live.id ≠ api.oldId then .raise (blocked "rollback APISIX before UDP") else .done ()) w := by
    have hread : (engine d).Keeps (Asked d mode) (fun _ => True) (fun v x => v = w ∧
        (∀ content, x = .ok content → w.files .apisix = some (some content)) ∧
        (x = .error .fileNotFound → w.files .apisix = none)) (readState .apisix) w := by
      refine ⟨trivial, fun reply hreply => ?_⟩
      rw [effect_quiet (.readState .apisix)]
      cases hresult : reply.result with
      | error e =>
          refine ⟨trivial, rfl, fun _ h => by (cases h), fun he => ?_⟩
          exact hreply.1.2.2 .apisix rfl (hresult.trans (congrArg _ (Except.error.inj he)))
      | ok answer =>
          obtain ⟨content, rfl, hfile⟩ := hreply.1.2.1 answer hresult
          refine ⟨trivial, rfl, fun c hc => ?_, fun h => by cases h⟩
          obtain rfl := Except.ok.inj hc
          exact hfile
    refine hread.bind (fun v api _ h => ?_) fun v e h => ?_
    · obtain ⟨rfl, hfile, -⟩ := h
      have hfile := hfile api rfl
      have hlive : (engine d).Keeps (Asked d mode) (fun _ => True) (fun v' x => v' = v ∧
          (∀ k, x = .ok k → v.containers (nameOf .apisix) = some k) ∧ x ≠ .error .fileNotFound)
          (inspect none (nameOf .apisix)) v := by
        refine keeps_inspect asked_honest trivial (fun k hk => ⟨rfl, fun j hj => ?_, fun h => by cases h⟩)
          fun reply e hreply he => ⟨rfl, fun _ h => by (cases h), fun h => ?_⟩
        · obtain rfl := Except.ok.inj hj
          exact hk
        · exact hreply.2.2 hmode rfl (he.trans (congrArg _ (Except.error.inj h)))
      refine hlive.bind (fun v' live _ h => ?_) fun v' e h => ?_
      · obtain ⟨rfl, hlive, -⟩ := h
        split
        · exact ⟨trivial, rfl, fun h => by rcases h with h | h <;> cases h⟩
        · next hid =>
          refine ⟨trivial, rfl, fun _ content hcontent => ?_⟩
          obtain rfl := Option.some.inj (Option.some.inj (hfile.symm.trans hcontent))
          exact ⟨live, hlive live rfl, not_not.mp hid⟩
      · refine ⟨h.1, fun hx => ?_⟩
        rcases hx with hx | hx
        · cases hx
        · obtain rfl := Except.error.inj hx
          exact absurd rfl h.2.2
    · refine ⟨h.1, fun hx content hcontent => ?_⟩
      rcases hx with hx | hx
      · cases hx
      · obtain rfl := Except.error.inj hx
        rw [h.2.2 rfl] at hcontent
        cases hcontent
  refine hbody.handle (fun v u h => ⟨h.1, fun _ => h.2 (Or.inl rfl)⟩) fun v e _ h => ?_
  split
  · next he =>
    subst he
    exact ⟨trivial, h.1, fun _ => h.2 (Or.inr rfl)⟩
  · exact ⟨trivial, h.1, fun h => by cases h⟩

theorem inOrder_takeBack (hmode : mode = .rollback)
    (hnamed : ∀ t content, w.files t = some (some content) → content.backup = backupOf t) :
    (engine d).Guards (Asked d mode) InOrder (takeBack site .udp) w := by
  refine (inOrder_ahead sends_compute).bind (keeps_compute (I := fun _ => True) trivial) fun v _ h => ?_
  obtain ⟨rfl, -⟩ := h
  refine (inOrder_ahead (sends_readState.mono fun _ h => h.2)).bind
    (keeps_readState asked_honest (I := fun _ => True) trivial) fun v' content h => ?_
  obtain ⟨rfl, hfile⟩ := h
  have hbackup := hnamed .udp content (hfile content rfl)
  split
  · exact inOrder_ahead (.raise _)
  · rw [if_pos rfl]
    refine (inOrder_ahead (sends_apisixFirst.mono fun _ h => h.2)).bind (kept_apisixFirst hmode)
      fun v u h => ?_
    obtain ⟨rfl, hkept⟩ := h
    exact inOrder_rollback hbackup (hkept rfl)

theorem inOrder_apply {changes : Bool} :
    (engine d).Guards (Asked d mode) InOrder (apply site .udp changes) w := by
  have hframe : ∀ {p : Work Unit} {undo : Option Service} {v : World}, ApisixKept v →
      Sends (Own .udp undo) p → (engine d).Keeps (Asked d mode) ApisixKept (fun v _ => ApisixKept v) p v :=
    fun hv hp => (keeps_frame (by decide) hp (fun _ _ h hf => h.frame hf) hv).mono (fun _ h => h)
      fun _ _ h _ => h
  refine (inOrder_ahead sends_compute).bind (Party.keeps_true _) fun v original _ => ?_
  refine (inOrder_ahead (sends_validate fun _ _ => rfl)).bind
    (keeps_validate asked_honest (I := fun _ => True) trivial) fun v launch h => ?_
  have hargs := (h.2 launch rfl).2
  refine (inOrder_ahead (.send rfl)).bind (Party.keeps_true _) fun v answer _ => ?_
  split
  · split
    · have hchecked : Sends (fun r => r.undo = none) (checkBackup .udp) :=
        sends_checkBackup.mono fun _ (h : Own .udp none _) => h.2
      refine (inOrder_ahead hchecked).bind (Party.keeps_true _) fun v _ _ => ?_
      refine (inOrder_ahead sends_compute).bind (Party.keeps_true _) fun v oldId _ => ?_
      -- the record is opened where APISIX is kept, and that frames the rest
      have hsaved : (engine d).Keeps (Asked d mode) (fun _ => True) (fun v x => ∀ u, x = .ok u → ApisixKept v)
          (saveState .udp ⟨.udp, oldId, backupOf .udp⟩) v := by
        have hopened : (engine d).Keeps (Asked d mode) (fun _ => True) (fun v _ => ApisixKept v)
            (docker none (.openState .udp)) v := by
          refine keeps_docker trivial fun reply hreply => ⟨trivial, ?_⟩
          exact (hreply.2.1 rfl).frame (frame_effect (t := .udp) (by decide) .openState)
        refine hopened.bind (fun v _ _ hv => ?_) fun _ _ _ _ h => by cases h
        exact (hframe hv (sends_docker (P := Own .udp none) ⟨.writeState rfl, rfl⟩)).mono
          (fun _ _ => trivial) fun _ _ _ h _ _ => h
      have hsave : Sends (fun r => r.undo = none) (saveState .udp ⟨.udp, oldId, backupOf .udp⟩) :=
        (sends_saveState rfl).mono fun _ h => h.2
      refine (inOrder_ahead hsave).bind hsaved fun v _ hkept => ?_
      have hreplace : Sends (Own .udp none) (replace .udp launch.1 launch.2) :=
        sends_replace (fun _ h => h) ⟨.create hargs, rfl⟩
      refine (inOrder_ahead (hreplace.mono fun _ h => h.2)).handle (hframe (hkept () rfl) hreplace)
        fun v e hv => ?_
      split
      · exact (inOrder_rollback rfl hv).bind (hframe hv (sends_rollback (fun _ h => h) ⟨.back, rfl⟩))
          fun v _ _ => inOrder_ahead (.raise _)
      · exact inOrder_ahead (.raise _)
    · exact inOrder_ahead (.done _)
  · exact inOrder_ahead (.raise _)
  · exact inOrder_ahead (.raise _)

theorem inOrder_main {euid : Nat}
    (hnamed : ∀ t content, w.files t = some (some content) → content.backup = backupOf t) :
    (engine d).Guards (Asked d mode) InOrder (main site euid t mode) w := by
  cases t with
  | apisix =>
      have hsends : Sends (fun r => r.undo ≠ some .udp) (main site euid .apisix mode) := by
        refine sends_main (fun r h hundo => ?_) (fun _ h => by cases h) (fun r h hundo => ?_)
          fun _ h => by cases h
        · rw [h.2] at hundo
          cases hundo
        · rw [h.2] at hundo
          cases hundo
      exact Party.guards_of_sends hsends fun _ _ hne hundo => absurd hundo hne
  | udp =>
      unfold main
      split
      · exact inOrder_ahead (.raise _)
      · refine Party.Guards.handle ?_ (Party.keeps_true _) fun _ _ _ => inOrder_ahead (.raise _)
        cases mode with
        | rollback => exact inOrder_takeBack rfl hnamed
        | apply => exact inOrder_apply
        | dryRun => exact inOrder_apply

end

/-! ## Runs one after the other -/

structure Invocation where
  service : Service
  euid : Nat
  mode : Mode
  replies : List (Reply Answer Raised)

def Invocation.events (run : Invocation) (site : Site) : Log :=
  ((main site run.euid run.service run.mode).run run.replies).1

def Invocation.result (run : Invocation) (site : Site) : Option (Except Raised Unit) :=
  ((main site run.euid run.service run.mode).run run.replies).2

theorem Invocation.runs (run : Invocation) (site : Site) :
    Runs (main site run.euid run.service run.mode) (run.events site) (run.result site) :=
  runs_run _ run.replies

/-- The world after these runs on the candidate. -/
def session (d : Docker) (site : Site) (w : World) (runs : List Invocation) : World :=
  runs.foldl (fun w run => (engine d).after w (run.events site)) w

/-- Each event of the session is met in a world where this holds of it. -/
def Through (d : Docker) (site : Site) (P : Invocation → World → Event Request Answer Raised → Prop) :
    World → List Invocation → Prop
  | _, [] => True
  | w, run :: runs => (engine d).Along (P run) w (run.events site) ∧
      Through d site P ((engine d).after w (run.events site)) runs

def Honest (d : Docker) (site : Site) : World → List Invocation → Prop :=
  Through d site fun _ => (engine d).honest

variable {P Q : Invocation → World → Event Request Answer Raised → Prop} {runs : List Invocation}

theorem along_and {log : Log} {G H : World → Event Request Answer Raised → Prop}
    (h : (engine d).Along G w log) (h' : (engine d).Along H w log) :
    (engine d).Along (fun v e => G v e ∧ H v e) w log := by
  induction log generalizing w with
  | nil => trivial
  | cons e log ih => exact ⟨⟨h.1, h'.1⟩, ih h.2 h'.2⟩

theorem Through.and (h : Through d site P w runs) (h' : Through d site Q w runs) :
    Through d site (fun run v e => P run v e ∧ Q run v e) w runs := by
  induction runs generalizing w with
  | nil => trivial
  | cons run runs ih => exact ⟨along_and h.1 h'.1, ih h.2 h'.2⟩

theorem through_append {before after : List Invocation} (h : Through d site P w (before ++ after)) :
    Through d site P w before ∧ Through d site P (session d site w before) after := by
  induction before generalizing w with
  | nil => exact ⟨trivial, h⟩
  | cons run before ih =>
      obtain ⟨hbefore, hafter⟩ := ih h.2
      exact ⟨⟨h.1, hbefore⟩, hafter⟩

/-- What every run keeps, a session does. -/
theorem keeps_session (hmain : ∀ run v, I v →
      (engine d).Keeps (P run) I (fun _ _ => True) (main site run.euid run.service run.mode) v)
    (hw : I w) (h : Through d site P w runs) : I (session d site w runs) := by
  induction runs generalizing w with
  | nil => exact hw
  | cons run runs ih => exact ih ((hmain run w hw).sound (run.runs site) h.1).1 h.2

/-- What `validate` asks of the containers and of the snapshot, where no record is written yet. -/
structure Accepted (site : Site) (s : Service) (id : String) (w : World) : Prop where
  launch : ∃ original k, originalOf site s = .ok original ∧ w.containers (nameOf s) = some k ∧
    k.id = id ∧ checkLive original k = .ok () ∧ reviewLaunch s original = .ok ()
  file : ∀ content, w.files s ≠ some (some content)
  named : ∀ t content, w.files t = some (some content) → content.backup = backupOf t
  created : w.created = []
  removed : w.removed = []

/-- The live container has the policy that the snapshot has. -/
def Policy (s : Service) (w : World) : Prop :=
  ∀ k, w.containers (nameOf s) = some k → k.restart = "unless-stopped"

theorem Accepted.kept {strict : Prop} (h : Accepted site s id w) (hpolicy : strict → Policy s w) :
    Kept strict site s id w := by
  obtain ⟨original, k, -, hk, hid, hlive, -⟩ := h.launch
  refine Or.inl ⟨⟨h.named, fun n gone hgone => ?_⟩, h.file, k, hk, hid, (id_of_checkLive hlive).2,
    fun hs => hpolicy hs k hk⟩
  rw [h.removed] at hgone
  cases hgone

theorem kept_session {strict : Prop} (hw : Kept strict site s id w) (hhonest : Honest d site w runs)
    (hlooks : strict → Through d site (fun _ => Looks s) w runs) :
    Kept strict site s id (session d site w runs) := by
  by_cases hstrict : strict
  · refine keeps_session (fun run v hv => kept_main (fun _ _ h => h.1) (fun _ _ h _ => h.2) hv) hw
      (hhonest.and (hlooks hstrict))
  · exact keeps_session (fun run v hv => kept_main (fun _ _ h => h) (fun _ _ _ h => absurd h hstrict) hv)
      hw hhonest

theorem inOrder_session (hnamed : ∀ t content, w.files t = some (some content) →
    content.backup = backupOf t) (h : Through d site (fun run => Asked d run.mode) w runs) :
    Through d site (fun _ => InOrder) w runs := by
  induction runs generalizing w with
  | nil => trivial
  | cons run runs ih =>
      refine ⟨inOrder_main hnamed _ _ (run.runs site) h.1, ih ?_ h.2⟩
      exact ((named_main asked_honest hnamed).sound (run.runs site) h.1).1

/-- Whatever fails and wherever it stops, the original is there and only what was created is
removed. If the backup name was free and docker is as the snapshot says, a rollback that is
answered gives the original back; and UDP goes back after APISIX. -/
theorem rollout_is_undone (h : Accepted site s id w) (hhonest : Honest d site w runs) :
    (Has (session d site w runs) (nameOf s) id ∨ Has (session d site w runs) (backupOf s) id) ∧
    Spares s id (session d site w runs) ∧
    (Policy s w → Through d site (fun _ => Looks s) w runs →
      ∀ before run after, runs = before ++ run :: after → run.service = s → run.euid = 0 →
      run.mode = .rollback → run.result site ≠ none →
      (engine d).Along Smooth (session d site w before) (run.events site) →
      (s = .udp → ApisixBack (session d site w before)) →
        Restored s id (session d site w (before ++ [run])) ∧
          ∀ e ∈ run.events site, ∀ n, e.request.command = .rm n → n = nameOf s) ∧
    (Through d site (fun run => Ordered run.mode) w runs → Through d site (fun _ => InOrder) w runs) := by
  have hkept : Kept False site s id (session d site w runs) :=
    kept_session (h.kept fun hs => hs.elim) hhonest fun hs => hs.elim
  refine ⟨hkept.has, hkept.sound.spares, fun hpolicy hlooks before run after hruns hservice heuid hmode
    hend hsmooth hback => ?_, fun hordered => inOrder_session h.named (hhonest.and hordered)⟩
  subst hruns
  obtain ⟨hbefore, hhonest, -⟩ := through_append hhonest
  have hstaged : Kept True site s id (session d site w before) :=
    kept_session (h.kept fun _ => hpolicy) hbefore fun _ => (through_append hlooks).1
  obtain ⟨x, hx⟩ := Option.ne_none_iff_exists'.mp hend
  have hrun := run.runs site
  rw [hservice, heuid, hmode, hx] at hrun
  refine ⟨?_, hrun.sent rm_main⟩
  rw [session, List.foldl_append]
  exact ((answered_main hstaged hback).sound hrun (along_and hhonest hsmooth)).2 x rfl

/-! ## Two sessions -/

/-- The entry of UDP in the snapshot. -/
def udpOriginal : Json :=
  .obj [("Name", .str "/ouf-udp"), ("Id", .str "a1"),
    ("Config", .obj [("User", .str "10004:10004"), ("Env", .arr [.str "A=1"])]),
    ("HostConfig", .obj [("NetworkMode", .str "ouf-backend"), ("Memory", .int 2147483648),
      ("MemorySwap", .int 4294967296), ("RestartPolicy", .obj [("Name", .str "unless-stopped")]),
      ("LogConfig", .obj [("Type", .str "json-file")]), ("IpcMode", .str "private"),
      ("ShmSize", .int 67108864)]),
    ("NetworkSettings", .obj [("Networks", .obj [("ouf-backend", .obj [])])]), ("Mounts", .arr [])]

def apisixOriginal : Json :=
  .obj [("Name", .str "/ouf-apisix"), ("Id", .str "b1"), ("Config", .obj [("Env", .arr [])]),
    ("Mounts", .arr [.obj [("Source", .str "/opt/config.yaml"),
      ("Destination", .str "/usr/local/apisix/conf/config.yaml"), ("RW", .bool false)]])]

/-- What the snapshot reads, of which the files have the text. -/
def snapshotText : List Char :=
  ["[\x7b\"Name\":\"/ouf-udp\",\"Id\":\"a1\",\"Config\":", "\x7b\"User\":\"10004:10004\",\"Env\":[\"A=1\"]\x7d,",
    "\"HostConfig\":\x7b\"NetworkMode\":\"ouf-backend\",", "\"Memory\":2147483648,\"MemorySwap\":4294967296,",
    "\"RestartPolicy\":\x7b\"Name\":\"unless-stopped\"\x7d,", "\"LogConfig\":\x7b\"Type\":\"json-file\"\x7d,",
    "\"IpcMode\":\"private\",\"ShmSize\":67108864\x7d,", "\"NetworkSettings\":\x7b\"Networks\":",
    "\x7b\"ouf-backend\":\x7b\x7d\x7d\x7d,\"Mounts\":[]\x7d,", "\x7b\"Name\":\"/ouf-apisix\",\"Id\":\"b1\",",
    "\"Config\":\x7b\"Env\":[]\x7d,\"Mounts\":[", "\x7b\"Source\":\"/opt/config.yaml\",",
    "\"Destination\":", "\"/usr/local/apisix/conf/config.yaml\",", "\"RW\":false\x7d]\x7d]"].flatMap
    String.toList

def sampleKey : String := String.ofList (List.replicate 64 'a')

def sampleUdpEnv : PrepareRuntime.Env :=
  [("A", "1"), ("OUF_UDP_SEARCH_TENANT_ID", "t"), ("OUF_UDP_SEARCH_ISSUER", "i"),
    ("OUF_UDP_SEARCH_AUDIENCE", "a"), ("OUF_UDP_SEARCH_WORKLOAD", "w"),
    ("OUF_UDP_SEARCH_OWNER_KEY_FILE", "/run/secrets/udp-search-owner.key"),
    ("OUF_AUTHORIZATION_REGISTRY_URL", "u"),
    ("OUF_AUTHORIZATION_REGISTRY_TOKEN_FILE", "/run/ouf-udp-auth/token"),
    ("OUF_AUTHORIZATION_REFRESH_SECONDS", "30"), ("OUF_AUTHORIZATION_MAX_STALENESS_SECONDS", "300")]

def sampleConfig : List Char := "nginx_config:\n  envs:\n".toList ++ PrepareRuntime.marker

def node (uid gid mode : Nat) (text : List Char) : Node := ⟨uid, gid, mode, 1, .file (some text)⟩

def directory (gid mode : Nat) : Node := ⟨0, gid, mode, 4096, .directory⟩

def sampleHost : Host :=
  ⟨[(["opt"], directory 0 0o755), (["opt", "r4a"], directory 0 0o700),
    (["opt", "r4a", "snapshot.json"], node 0 0 0o600 snapshotText),
    (["opt", "config.yaml"], node 0 0 0o644 sampleConfig),
    (["opt", "r4a", "candidate-x"], directory 0 0o700),
    (["opt", "r4a", "candidate-x", "udp.env"], node 0 0 0o600 (PrepareRuntime.envText sampleUdpEnv)),
    (["opt", "r4a", "candidate-x", "apisix.env"],
      node 0 0 0o600 (PrepareRuntime.envText [(PrepareRuntime.searchKey, sampleKey)])),
    (["opt", "r4a", "candidate-x", "udp-search-owner.key"], node 10004 10004 0o400 sampleKey.toList),
    (["opt", "r4a", "candidate-x", "apisix-config.yaml"],
      node 0 0 0o644 (sampleConfig ++ PrepareRuntime.added)),
    (["run"], directory 0 0o755), (["run", "ouf-udp-auth"], directory 10004 0o750),
    (["run", "ouf-udp-auth", "token"], node 0 10004 0o440 ['t'])]⟩

/-- `json.loads` on the one document that is read. -/
def sample : Site :=
  ⟨fun _ => some (.arr [udpOriginal, apisixOriginal]), sampleHost, ["opt", "r4a", "snapshot.json"],
    ["opt", "r4a", "candidate-x"], fun
      | .int n => toString n
      | _ => ""⟩

def sampleImage : Json := .obj [("User", .str "10004:10004")]

def udpLive : Container := ⟨"a1", "sha256:old", true, "unless-stopped"⟩

/-- All that an apply of UDP computes. -/
def computed (site : Site) (s : Service) (live : Container) (id : String) (config : Json) :
    Run String := do
  let original ← originalOf site s
  checkLive original live
  reviewLaunch s original
  reviewImage s original id config
  let _ ← createArgs site s original
  text (← item original "Id")

theorem computed_sample :
    computed sample .udp udpLive (images .udp).2 sampleImage = .ok "a1" := by
  decide +kernel

def ok : Reply Answer Raised := ⟨.ok .done, true⟩

def failed : Reply Answer Raised := ⟨.error (.py .calledProcessError), false⟩

def shows (c : Container) : Reply Answer Raised := ⟨.ok (.live c), false⟩

/-- What every apply of UDP is answered first. -/
def begins : List (Reply Answer Raised) :=
  [shows udpLive, ⟨.ok (.image (images .udp).2 sampleImage), false⟩, ⟨.ok (.flag false), false⟩, failed,
    ok, ok]

def record : State := ⟨.udp, "a1", "ouf-udp-r4a-original"⟩

/-- What it sends for that. -/
def beginsLog : Log :=
  [⟨⟨.inspect "ouf-udp", none⟩, shows udpLive⟩,
    ⟨⟨.imageInspect (images .udp).1, none⟩, .ok (.image (images .udp).2 sampleImage), false⟩,
    ⟨⟨.stateExists .udp, none⟩, .ok (.flag false), false⟩,
    ⟨⟨.inspect "ouf-udp-r4a-original", none⟩, failed⟩, ⟨⟨.openState .udp, none⟩, ok⟩,
    ⟨⟨.writeState .udp record, none⟩, ok⟩]

theorem compute_ok {α : Type} {x : Run α} {a : α} (h : x = .ok a) : compute x = (.done a : Work α) := by
  rw [h]
  rfl

theorem sample_parts : ∃ original args, originalOf sample .udp = .ok original ∧
    checkLive original udpLive = .ok () ∧ reviewLaunch .udp original = .ok () ∧
    reviewImage .udp original (images .udp).2 sampleImage = .ok () ∧
    createArgs sample .udp original = .ok args ∧ (do text (← item original "Id")) = .ok "a1" := by
  obtain ⟨original, horiginal, h⟩ := bind_eq_ok.mp computed_sample
  obtain ⟨_, hlive, h⟩ := bind_eq_ok.mp h
  obtain ⟨_, hlaunch, h⟩ := bind_eq_ok.mp h
  obtain ⟨_, himage, h⟩ := bind_eq_ok.mp h
  obtain ⟨args, hargs, h⟩ := bind_eq_ok.mp h
  exact ⟨original, args, horiginal, hlive, hlaunch, himage, hargs, h⟩

/-- After these answers the candidate is staged. -/
theorem run_begins (replies : List (Reply Answer Raised)) : ∃ args : List String,
    (apply sample .udp true).run (begins ++ replies) =
      (beginsLog ++ ((stage .udp record args (images .udp).2).run replies).1,
        ((stage .udp record args (images .udp).2).run replies).2) := by
  obtain ⟨original, args, horiginal, hlive, hlaunch, himage, hargs, hid⟩ := sample_parts
  refine ⟨args, ?_⟩
  unfold apply
  rw [compute_ok horiginal]
  simp only [begins, validate, inspect, inspectImage, shows, Script.bind, Script.send, Script.ofExcept,
    Script.run, List.cons_append, List.nil_append, compute_ok hlive, compute_ok hlaunch,
    compute_ok himage, compute_ok hargs, compute_ok hid, reduceCtorEq, false_and, if_false, if_true]
  rfl

def stopped : Container := ⟨"a1", "sha256:old", false, "no"⟩

/-- `docker stop` fails and has stopped the original, and the process dies. -/
def stopFails : Invocation :=
  ⟨.udp, 0, .apply, begins ++ [ok, ⟨.error (.py .calledProcessError), true⟩]⟩

def takesBack : Invocation :=
  ⟨.udp, 0, .rollback, [⟨.ok (.state record), false⟩, ⟨.error .fileNotFound, false⟩, shows stopped, failed,
    shows stopped, ok, ok, shows udpLive, ok]⟩

theorem run_main_apply (replies : List (Reply Answer Raised)) : ∃ args : List String,
    (main sample 0 .udp .apply).run (begins ++ replies) =
      (beginsLog ++ ((stage .udp record args (images .udp).2).run replies).1,
        ((stage .udp record args (images .udp).2).run replies).2.map fun r => r.mapError Raised.reported) := by
  obtain ⟨args, hrun⟩ := run_begins replies
  refine ⟨args, ?_⟩
  unfold main
  rw [if_neg (by decide), run_handle_raise, hrun]

theorem events_stopFails : stopFails.events sample = beginsLog ++
    [⟨⟨.update "no" "ouf-udp", none⟩, ok⟩,
      ⟨⟨.stop "ouf-udp", none⟩, .error (.py .calledProcessError), true⟩] := by
  obtain ⟨args, hrun⟩ := run_main_apply [ok, ⟨.error (.py .calledProcessError), true⟩]
  exact congrArg Prod.fst hrun

theorem sample_ready : checkPrivate sample.host sample.candidate 0o700 0 0 = .ok () := by
  obtain ⟨original, args, horiginal, -⟩ := sample_parts
  exact ready_of_originalOf horiginal

theorem run_takeBack (replies : List (Reply Answer Raised)) :
    (main sample 0 .udp .rollback).run replies =
      let p : Work Unit := (readState .udp).bind fun state =>
        if state.service ≠ .udp then .raise (blocked "rollback state differs from service")
        else apisixFirst.bind fun _ => rollback .udp state
      ((p.run replies).1, (p.run replies).2.map fun r => r.mapError Raised.reported) := by
  unfold main takeBack
  rw [if_neg (by decide), run_handle_raise, compute_ok sample_ready]
  rfl

theorem events_takesBack : takesBack.events sample =
    [⟨⟨.readState .udp, none⟩, .ok (.state record), false⟩,
      ⟨⟨.readState .apisix, none⟩, .error .fileNotFound, false⟩,
      ⟨⟨.inspect "ouf-udp", some .udp⟩, shows stopped⟩,
      ⟨⟨.inspect "ouf-udp-r4a-original", some .udp⟩, failed⟩,
      ⟨⟨.inspect "ouf-udp", some .udp⟩, shows stopped⟩, ⟨⟨.start "ouf-udp", some .udp⟩, ok⟩,
      ⟨⟨.update "unless-stopped" "ouf-udp", some .udp⟩, ok⟩,
      ⟨⟨.inspect "ouf-udp", some .udp⟩, shows udpLive⟩, ⟨⟨.probe "ouf-udp", some .udp⟩, ok⟩] := by
  unfold Invocation.events takesBack
  dsimp only
  rw [run_takeBack]
  rfl

def foreign : Container := ⟨"c3", "sha256:other", true, "no"⟩

/-- The lookup of the backup name fails although the name is taken. -/
def lookupFails : Invocation :=
  ⟨.udp, 0, .apply, begins ++ [ok, ok, failed, shows stopped, shows foreign]⟩

def refuses : Invocation :=
  ⟨.udp, 0, .rollback,
    [⟨.ok (.state record), false⟩, ⟨.error .fileNotFound, false⟩, shows stopped, shows foreign]⟩

theorem events_lookupFails : lookupFails.events sample = beginsLog ++
    [⟨⟨.update "no" "ouf-udp", none⟩, ok⟩, ⟨⟨.stop "ouf-udp", none⟩, ok⟩,
      ⟨⟨.rename "ouf-udp" "ouf-udp-r4a-original", none⟩, failed⟩,
      ⟨⟨.inspect "ouf-udp", some .udp⟩, shows stopped⟩,
      ⟨⟨.inspect "ouf-udp-r4a-original", some .udp⟩, shows foreign⟩] := by
  obtain ⟨args, hrun⟩ := run_main_apply [ok, ok, failed, shows stopped, shows foreign]
  exact congrArg Prod.fst hrun

theorem events_refuses : refuses.events sample =
    [⟨⟨.readState .udp, none⟩, .ok (.state record), false⟩,
      ⟨⟨.readState .apisix, none⟩, .error .fileNotFound, false⟩,
      ⟨⟨.inspect "ouf-udp", some .udp⟩, shows stopped⟩,
      ⟨⟨.inspect "ouf-udp-r4a-original", some .udp⟩, shows foreign⟩] := by
  unfold Invocation.events refuses
  dsimp only
  rw [run_takeBack]
  rfl

/-- Only the two originals. -/
def bothLive : World :=
  ⟨fun name => if name = "ouf-udp" then some udpLive else none, fun _ => none, [], []⟩

/-- The backup name is taken. -/
def occupied : World :=
  ⟨fun name => if name = "ouf-udp" then some udpLive
    else if name = "ouf-udp-r4a-original" then some foreign else none, fun _ => none, [], []⟩

def anyDocker : Docker := ⟨fun _ => "new", fun _ => "sha256:new"⟩

theorem accepted_of_live (w : World) (hlive : w.containers "ouf-udp" = some udpLive)
    (hfiles : ∀ s, w.files s = none) (hcreated : w.created = []) (hremoved : w.removed = []) :
    Accepted sample .udp "a1" w := by
  obtain ⟨original, args, horiginal, hcheck, hlaunch, -⟩ := sample_parts
  refine ⟨⟨original, udpLive, horiginal, hlive, rfl, hcheck, hlaunch⟩, fun c hc => ?_, fun t c hc => ?_,
    hcreated, hremoved⟩
  · rw [hfiles] at hc
    cases hc
  · rw [hfiles] at hc
    cases hc

theorem policy_of_live (w : World) (hlive : w.containers "ouf-udp" = some udpLive) : Policy .udp w := by
  intro k hk
  obtain rfl := Option.some.inj (hlive.symm.trans hk)
  rfl

theorem honest_error {request : Request} {x : Raised} (h : x = .fileNotFound → ∀ s,
    request.command = .readState s → w.files s = none) :
    (engine d).honest w ⟨request, .error x, false⟩ := by
  refine ⟨fun h => by (cases h), fun _ h => by (cases h), fun s hs hx => ?_⟩
  exact h (Except.error.inj hx) s hs

theorem honest_failed {request : Request} : (engine d).honest w ⟨request, failed⟩ :=
  honest_error fun h => by cases h

theorem honest_answer {request : Request} {answer : Answer} (h : tells w false answer request.command) :
    (engine d).honest w ⟨request, .ok answer, false⟩ := by
  refine ⟨fun h => by (cases h), fun a ha => ?_, fun _ _ h => by cases h⟩
  obtain rfl := Except.ok.inj ha
  exact h

theorem honest_ok {request : Request} (hpossible : possible d w request.command)
    (h : tells w true .done request.command) : (engine d).honest w ⟨request, ok⟩ := by
  refine ⟨fun _ => hpossible, fun a ha => ?_, fun _ _ h => by cases h⟩
  obtain rfl := Except.ok.inj ha
  exact h

/-- The world with the record. -/
def World.recorded (w : World) : World := (w.setFile .udp none).setFile .udp (some record)

theorem honest_begins {rest : Log} (hlive : w.containers "ouf-udp" = some udpLive)
    (hfiles : ∀ s, w.files s = none) (h : (engine d).Honest w.recorded rest) :
    (engine d).Honest w (beginsLog ++ rest) := by
  refine ⟨honest_answer ⟨udpLive, rfl, hlive⟩, honest_answer ⟨_, _, rfl⟩, honest_answer ?_, honest_failed,
    honest_ok (hfiles .udp) rfl, honest_ok trivial rfl, h⟩
  show Answer.flag false = .flag (w.files .udp).isSome
  rw [hfiles]
  rfl

theorem honest_stopFails : Honest anyDocker sample bothLive [stopFails, takesBack] := by
  refine ⟨?_, ?_, trivial⟩
  · rw [events_stopFails]
    exact honest_begins rfl (fun _ => rfl) ⟨honest_ok rfl rfl, ⟨fun _ => rfl, fun _ h => by (cases h),
      fun _ h => by cases h⟩, trivial⟩
  · rw [events_stopFails, events_takesBack]
    exact ⟨honest_answer ⟨record, rfl, rfl⟩, honest_error fun _ s hs => by (cases hs; rfl),
      honest_answer ⟨stopped, rfl, rfl⟩, honest_failed, honest_answer ⟨stopped, rfl, rfl⟩,
      honest_ok rfl rfl, honest_ok rfl rfl, honest_answer ⟨udpLive, rfl, rfl⟩, honest_ok trivial rfl,
      trivial⟩

theorem result_takesBack : takesBack.result sample = some (.ok ()) := by
  unfold Invocation.result takesBack
  dsimp only
  rw [run_takeBack]
  rfl

theorem result_refuses :
    refuses.result sample = some (.error (.exit "R4A_ROLLOUT_BLOCKED: rollback container identity mismatch")) := by
  unfold Invocation.result refuses
  dsimp only
  rw [run_takeBack]
  rfl

theorem honest_refuses : Honest anyDocker sample occupied [lookupFails, refuses] := by
  refine ⟨?_, ?_, trivial⟩
  · rw [events_lookupFails]
    exact honest_begins rfl (fun _ => rfl) ⟨honest_ok rfl rfl, honest_ok rfl rfl, honest_failed,
      honest_answer ⟨stopped, rfl, rfl⟩, honest_answer ⟨foreign, rfl, rfl⟩, trivial⟩
  · rw [events_lookupFails, events_refuses]
    exact ⟨honest_answer ⟨record, rfl, rfl⟩, honest_error fun _ s hs => by (cases hs; rfl),
      honest_answer ⟨stopped, rfl, rfl⟩, honest_answer ⟨foreign, rfl, rfl⟩, trivial⟩

/-- What is answered is smooth. -/
theorem smooth_answer {e : Event Request Answer Raised} {answer : Answer} (h : e.reply.result = .ok answer) :
    Smooth w e := by
  intro x hx
  rw [h] at hx
  cases hx

theorem looks_answer {e : Event Request Answer Raised} {answer : Answer} (h : e.reply.result = .ok answer) :
    Looks s w e := by
  intro _ hx
  rw [h] at hx
  cases hx

theorem looks_begins {rest : Log} (hfree : w.containers "ouf-udp-r4a-original" = none)
    (h : (engine d).Along (Looks .udp) w.recorded rest) :
    (engine d).Along (Looks .udp) w (beginsLog ++ rest) :=
  ⟨looks_answer rfl, looks_answer rfl, looks_answer rfl, fun _ _ => hfree, looks_answer rfl,
    looks_answer rfl, h⟩

theorem looks_stopFails : Through anyDocker sample (fun _ => Looks .udp) bothLive [stopFails, takesBack] := by
  refine ⟨?_, ?_, trivial⟩
  · rw [events_stopFails]
    exact looks_begins rfl ⟨looks_answer rfl, fun h => by (cases h), trivial⟩
  · rw [events_takesBack]
    exact ⟨looks_answer rfl, fun h => by (cases h), looks_answer rfl, fun h => by (cases h),
      looks_answer rfl, looks_answer rfl, looks_answer rfl, looks_answer rfl, looks_answer rfl, trivial⟩

theorem smooth_noRecord (hfile : w.files t = none) :
    Smooth w ⟨⟨.readState t, none⟩, .error .fileNotFound, false⟩ := by
  intro x hx
  obtain rfl := Except.error.inj hx
  refine ⟨fun content hcontent => ?_, fun _ => rfl⟩
  rw [hfile] at hcontent
  cases hcontent

theorem smooth_free (hfree : w.containers name = none) : Smooth w ⟨⟨.inspect name, undo⟩, failed⟩ := by
  intro x hx
  obtain rfl := Except.error.inj hx
  exact ⟨hfree, rfl⟩

theorem smooth_takesBack :
    (engine anyDocker).Along Smooth (session anyDocker sample bothLive [stopFails])
      (takesBack.events sample) := by
  rw [events_takesBack]
  unfold session
  rw [List.foldl_cons, List.foldl_nil, events_stopFails]
  exact ⟨smooth_answer rfl, smooth_noRecord rfl, smooth_answer rfl, smooth_free rfl, smooth_answer rfl,
    smooth_answer rfl, smooth_answer rfl, smooth_answer rfl, smooth_answer rfl, trivial⟩

/-- `docker stop` fails, the process dies, and a rollback brings the container back. -/
theorem stopFails_is_undone : Restored .udp "a1" (session anyDocker sample bothLive [stopFails, takesBack]) := by
  refine ((rollout_is_undone (accepted_of_live bothLive rfl (fun _ => rfl) rfl rfl)
    honest_stopFails).2.2.1 (policy_of_live bothLive rfl) looks_stopFails [stopFails] takesBack [] rfl rfl rfl
    rfl ?_ smooth_takesBack fun _ => Or.inl ?_).1
  · rw [result_takesBack]
    exact Option.some_ne_none _
  · unfold session
    rw [List.foldl_cons, List.foldl_nil, events_stopFails]
    rfl

theorem smooth_refuses :
    (engine anyDocker).Along Smooth (session anyDocker sample occupied [lookupFails])
      (refuses.events sample) := by
  rw [events_refuses]
  unfold session
  rw [List.foldl_cons, List.foldl_nil, events_lookupFails]
  exact ⟨smooth_answer rfl, smooth_noRecord rfl, smooth_answer rfl, smooth_answer rfl, trivial⟩

/-- The lookup of a backup name that is taken fails, `docker rename` is refused, and no rollback
starts the container again. -/
theorem lookupFails_stays_stopped :
    Accepted sample .udp "a1" occupied ∧ Policy .udp occupied ∧
      Honest anyDocker sample occupied [lookupFails, refuses] ∧ refuses.mode = .rollback ∧
      refuses.result sample ≠ none ∧
      (engine anyDocker).Along Smooth (session anyDocker sample occupied [lookupFails])
        (refuses.events sample) ∧
      ApisixBack (session anyDocker sample occupied [lookupFails]) ∧
      ¬ Restored .udp "a1" (session anyDocker sample occupied [lookupFails, refuses]) := by
  refine ⟨accepted_of_live occupied rfl (fun _ => rfl) rfl rfl, policy_of_live occupied rfl, honest_refuses,
    rfl, ?_, smooth_refuses, Or.inl ?_, ?_⟩
  · rw [result_refuses]
    exact Option.some_ne_none _
  · unfold session
    rw [List.foldl_cons, List.foldl_nil, events_lookupFails]
    rfl
  · rintro ⟨k, hk, -, hrunning, -⟩
    unfold session at hk
    rw [List.foldl_cons, List.foldl_cons, List.foldl_nil, events_lookupFails, events_refuses] at hk
    obtain rfl := Option.some.inj hk
    cases hrunning

end OufGateway.RolloutRuntime
