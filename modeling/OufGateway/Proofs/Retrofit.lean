import OufGateway.Ref.Retrofit

/-!
# The retrofit and the original container

The commands name containers, and what a name stands for depends on how far the
run came. Once the original has the backup name (`Away`) nothing a run does to
`ouf-udp` reaches it, and the recovery gives it its name back. Before that it is
`ouf-udp` itself (`Home`), and the handler of `--apply` removes it: a failed
`docker update` is enough. `Lands` says of an event that it does not get there,
and then the original is under one of the two names after every command
(`Kept`), over any number of runs.

A `--rollback` that finds the original under `ouf-udp` is done, also where an
earlier run stopped it; that is what `Found` leaves out.
-/

namespace OufGateway.Retrofit

open Lib
open Lib.Script hiding send

abbrev Log := List (Event Request Answer Raised)

variable {ids : Nat → String} {c : Candidate} {w : World} {log : Log} {name id : String}

/-! ## Names -/

def Has (w : World) (name id : String) : Prop := ∃ k, w.containers name = some k ∧ k.id = id

/-- A file that can be read is the one `--apply` writes. -/
def FileOk (c : Candidate) (w : World) : Prop :=
  ∀ s, w.file = some (some s) → s = ⟨c.prepared.oldId, backupName c⟩

structure Home (c : Candidate) (w : World) : Prop where
  has : Has w udp c.prepared.oldId
  file : FileOk c w

structure Away (c : Candidate) (w : World) : Prop where
  has : Has w (backupName c) c.prepared.oldId
  file : FileOk c w

def Kept (c : Candidate) (w : World) : Prop := Home c w ∨ Away c w

theorem backupName_ne : backupName c ≠ udp := by
  intro h
  have htext : "ouf-udp-preauth-".toList <+: udp.toList := by
    rw [← h, backupName, String.toList_append]
    exact List.prefix_append _ _
  exact absurd htext (by decide)

theorem set_same (w : World) (name : String) (k : Option Container) :
    (w.set name k).containers name = k := if_pos rfl

theorem set_other {other : String} {k : Option Container} (h : name ≠ other) :
    (w.set other k).containers name = w.containers name := if_neg h

/-- The commands on `ouf-udp` other than a rename. -/
inductive OnUdp (c : Candidate) : Command → Prop
  | inspect (name : String) : OnUdp c (.inspect name)
  | update (restart : String) : OnUdp c (.update restart udp)
  | stop : OnUdp c (.stop udp)
  | create : OnUdp c (.create (createArgs c))
  | start : OnUdp c (.start udp)
  | rm : OnUdp c (.rm udp)
  | probe : OnUdp c (.probe udp)
  | readState : OnUdp c .readState

theorem OnUdp.away {command : Command} (h : OnUdp c command) (hw : Away c w) :
    Away c (performed ids w command) := by
  have hname : nameOf (createArgs c) = udp := rfl
  cases h with
  | inspect => exact hw
  | probe => exact hw
  | readState => exact hw
  | create =>
      refine ⟨?_, hw.file⟩
      obtain ⟨k, hk, hid⟩ := hw.has
      refine ⟨k, ?_, hid⟩
      have hne : backupName c ≠ nameOf (createArgs c) := hname.symm ▸ backupName_ne
      dsimp only [performed, World.set]
      rw [if_neg hne]
      exact hk
  | _ =>
      obtain ⟨k, hk, hid⟩ := hw.has
      exact ⟨⟨k, (set_other backupName_ne).trans hk, hid⟩, hw.file⟩

/-- `docker update`, `stop` and `start` of the original leave it where it is. -/
inductive Gentle : Command → Prop
  | inspect (name : String) : Gentle (.inspect name)
  | update (restart : String) : Gentle (.update restart udp)
  | stop : Gentle (.stop udp)
  | start : Gentle (.start udp)
  | probe : Gentle (.probe udp)
  | stateExists : Gentle .stateExists
  | readState : Gentle .readState
  | openState : Gentle .openState

theorem Gentle.home {command : Command} (h : Gentle command) (hw : Home c w) :
    Home c (performed ids w command) := by
  cases h with
  | inspect => exact hw
  | probe => exact hw
  | stateExists => exact hw
  | readState => exact hw
  | openState => exact ⟨hw.has, fun s hs => by cases hs⟩
  | _ =>
      obtain ⟨k, hk, hid⟩ := hw.has
      refine ⟨⟨_, (set_same _ _ _).trans (congrArg _ hk), hid⟩, hw.file⟩

theorem effect_home (ids : Nat → String) {e : Event Request Answer Raised} (h : Gentle e.request.command) (hw : Home c w) :
    Home c ((engine ids).effect w e) := by
  dsimp only [engine]
  split
  · exact h.home hw
  · exact hw

theorem effect_away {e : Event Request Answer Raised} (h : OnUdp c e.request.command) (hw : Away c w) :
    Away c ((engine ids).effect w e) := by
  dsimp only [engine]
  split
  · exact h.away hw
  · exact hw

/-! ## Events -/

/-- It failed with an `Exception`. -/
def Failed (e : Event Request Answer Raised) : Prop :=
  ∃ x, e.reply.result = .error x ∧ x.isException = true

/-- Up to the rename, no failure that the handler of `--apply` meets leaves the original where it
is: `update` and `stop` do not fail so, and a rename that does took effect. -/
def Lands (e : Event Request Answer Raised) : Prop :=
  e.request.recovering = false → Failed e →
    (∀ restart name, e.request.command ≠ .update restart name) ∧ (∀ name, e.request.command ≠ .stop name) ∧
      ∀ name new, e.request.command = .rename name new → e.reply.took = true

/-- What the events of a run are like. -/
def Calm (ids : Nat → String) (w : World) (e : Event Request Answer Raised) : Prop :=
  (engine ids).honest w e ∧ Lands e

variable {A : World → Event Request Answer Raised → Prop} {I : World → Prop}
  {recovering : Bool} {command : Command}

theorem keeps_docker {Q : World → Except Raised Unit → Prop} (hw : I w)
    (h : ∀ reply, A w ⟨⟨command, recovering⟩, reply⟩ →
      I ((engine ids).effect w ⟨⟨command, recovering⟩, reply⟩) ∧
        Q ((engine ids).effect w ⟨⟨command, recovering⟩, reply⟩) (reply.result.map fun _ => ())) :
    (engine ids).Keeps A I Q (docker recovering command) w := by
  refine (Party.keeps_send (Q := fun s x => Q s (x.map fun _ => ())) hw h).bind (fun s x hs hx => ?_)
    fun s e he => he
  exact ⟨hs, hx⟩

/-- An answer that shows a container shows the one that has the name. -/
theorem keeps_inspect {Q : World → Except Raised Container → Prop}
    (hA : ∀ w e, A w e → (engine ids).honest w e) (hw : I w)
    (h : ∀ reply, A w ⟨⟨.inspect name, recovering⟩, reply⟩ →
      (∀ k, reply.result = .ok (.live k) → w.containers name = some k → Q w (.ok k)) ∧
        ∀ e, reply.result = .error e → Q w (.error e)) :
    (engine ids).Keeps A I Q (inspect recovering name) w := by
  refine ⟨hw, fun reply hreply => ?_⟩
  have heffect : (engine ids).effect w ⟨⟨.inspect name, recovering⟩, reply⟩ = w := by
    dsimp only [engine]
    split <;> rfl
  obtain ⟨hok, herror⟩ := h reply hreply
  rw [heffect]
  cases hresult : reply.result with
  | error e => exact ⟨hw, herror e hresult⟩
  | ok answer =>
      obtain ⟨k, rfl, hk⟩ := (hA _ _ hreply).2 answer hresult
      exact ⟨hw, hok k hresult hk⟩

/-- Probes change nothing, and the loop raises what they do or that UDP is not ready. -/
theorem keeps_waitReady {Q : World → Except Raised Unit → Prop} {turns : Nat} (hw : I w)
    (hok : Q w (.ok ())) (hother : Q w (.error .other))
    (herror : ∀ reply, A w ⟨⟨.probe name, recovering⟩, reply⟩ →
      ∀ e, reply.result = .error e → Q w (.error e)) :
    (engine ids).Keeps A I Q (waitReady recovering name turns) w := by
  induction turns with
  | zero => exact ⟨hw, hother⟩
  | succ turns ih =>
      refine ⟨hw, fun reply hreply => ?_⟩
      have heffect : (engine ids).effect w ⟨⟨.probe name, recovering⟩, reply⟩ = w := by
        dsimp only [engine]
        split <;> rfl
      rw [heffect]
      cases hresult : reply.result with
      | ok answer => exact ⟨hw, hok⟩
      | error e =>
          cases e with
          | called => exact ih
          | other => exact ⟨hw, hother⟩
          | interrupt => exact ⟨hw, herror reply hreply _ hresult⟩
          | exit text => exact ⟨hw, herror reply hreply _ hresult⟩

/-! ## The original is kept -/

theorem away_docker (hcommand : OnUdp c command) (hw : Away c w) :
    (engine ids).Keeps A (Away c) (fun _ _ => True) (docker recovering command) w :=
  keeps_docker hw fun _ _ => ⟨effect_away hcommand hw, trivial⟩

theorem away_remove {live : Container} (hw : Away c w) :
    (engine ids).Keeps A (Away c) (fun _ _ => True) (remove recovering live) w := by
  refine (away_docker (.update _) hw).bind (fun w _ hw _ => ?_) fun _ _ _ => trivial
  refine Party.Keeps.bind (Q := fun _ _ => True) ?_ (fun w _ hw _ => away_docker .rm hw) fun _ _ _ => trivial
  split
  · exact away_docker .stop hw
  · exact ⟨hw, trivial⟩

theorem home_docker (hcommand : Gentle command) (hw : Home c w) :
    (engine ids).Keeps A (Home c) (fun _ _ => True) (docker recovering command) w :=
  keeps_docker hw fun _ _ => ⟨effect_home ids hcommand hw, trivial⟩

section

variable (hA : ∀ w e, A w e → Calm ids w e)

/-- A rename that took effect moves the original. -/
theorem home_of_rename (ids : Nat → String) (hw : Away c w) :
    Home c (performed ids w (.rename (backupName c) udp)) := by
  obtain ⟨k, hk, hid⟩ := hw.has
  refine ⟨⟨k, ?_, hid⟩, hw.file⟩
  exact (set_other backupName_ne.symm).trans ((set_same _ _ _).trans hk)

theorem away_of_rename (ids : Nat → String) (hw : Home c w) :
    Away c (performed ids w (.rename udp (backupName c))) := by
  obtain ⟨k, hk, hid⟩ := hw.has
  refine ⟨⟨k, ?_, hid⟩, hw.file⟩
  exact (set_other backupName_ne).trans ((set_same _ _ _).trans hk)

include hA in
theorem kept_giveBack (hw : Away c w) :
    (engine ids).Keeps A (Kept c) (fun _ _ => True) (giveBack (backupName c)) w := by
  have hrename : (engine ids).Keeps A (Kept c) (fun w x => ∀ u, x = .ok u → Home c w)
      (docker true (.rename (backupName c) udp)) w := by
    refine keeps_docker (Or.inr hw) fun reply hreply => ?_
    obtain ⟨⟨-, htells⟩, -⟩ := hA _ _ hreply
    dsimp only [engine] at htells ⊢
    split
    · next htook =>
      have hhome := home_of_rename ids hw
      exact ⟨Or.inl hhome, fun _ _ => hhome⟩
    · next htook =>
      refine ⟨Or.inr hw, fun u hu => ?_⟩
      cases hresult : reply.result with
      | ok answer => exact absurd (htells answer hresult) htook
      | error e =>
          rw [hresult] at hu
          cases hu
  refine hrename.bind (fun w u _ hhome => ?_) fun _ _ _ => trivial
  have hhome := hhome u rfl
  refine Party.Keeps.mono (I := Home c) (Q := fun _ _ => True) ?_ (fun _ h => Or.inl h) fun _ _ _ _ => trivial
  refine (home_docker (.update _) hhome).bind (fun w _ hw _ => ?_) fun _ _ _ => trivial
  refine (home_docker .start hw).bind (fun w _ hw _ => ?_) fun _ _ _ => trivial
  exact keeps_waitReady hw trivial trivial fun _ _ _ _ => trivial

include hA in
theorem kept_recover (hw : Away c w) :
    (engine ids).Keeps A (Kept c) (fun _ _ => True) (recover (backupName c)) w := by
  have hremove : (engine ids).Keeps A (Away c) (fun _ _ => True) ((inspect true udp).bind (remove true)) w :=
    (keeps_inspect (Q := fun _ _ => True) (fun w e h => (hA w e h).1) hw
      fun _ _ => ⟨fun _ _ _ => trivial, fun _ _ => trivial⟩).bind
      (fun w live hw _ => away_remove hw) fun _ _ _ => trivial
  have hhandled : (engine ids).Keeps A (Away c) (fun _ _ => True)
      (((inspect true udp).bind (remove true)).handle fun e =>
        if e.isException then .done () else .raise e) w := by
    refine hremove.handle (fun _ _ _ => trivial) fun w e hw _ => ?_
    split
    · exact ⟨hw, trivial⟩
    · exact ⟨hw, trivial⟩
  -- the handler ends away from `ouf-udp`, whatever it came to
  have hany : (engine ids).Keeps A (Kept c) (fun w (_ : Except Raised Unit) => Away c w)
      (((inspect true udp).bind (remove true)).handle fun e =>
        if e.isException then .done () else .raise e) w :=
    hhandled.mono (fun _ h => Or.inr h) fun _ _ h _ => h
  exact hany.bind (fun w _ _ hw => kept_giveBack hA hw) fun _ _ _ => trivial

include hA in
/-- Before the rename the original is `ouf-udp`, and an error that the handler takes up comes after. -/
theorem away_replace (hw : Home c w) : (engine ids).Keeps A (Kept c)
    (fun w x => ∀ e, x = .error e → e.isException = true → Away c w) (replace c) w := by
  have hgentle : ∀ {w : World} {command : Command}, Home c w → Gentle command →
      ((∃ restart, command = .update restart udp) ∨ command = .stop udp) →
      (engine ids).Keeps A (Kept c) (fun w x => (∀ u, x = .ok u → Home c w) ∧
        ∀ e, x = .error e → e.isException = true → Away c w) (docker false command) w := by
    intro w command hw hcommand hkind
    refine keeps_docker (Or.inl hw) fun reply hreply => ?_
    have hhome := effect_home ids (e := ⟨⟨command, false⟩, reply⟩) hcommand hw
    refine ⟨Or.inl hhome, fun _ _ => hhome, fun e he hexception => ?_⟩
    cases hresult : reply.result with
    | ok answer =>
        rw [hresult] at he
        cases he
    | error x =>
        rw [hresult] at he
        obtain rfl := Except.error.inj he
        obtain ⟨hupdate, hstop, -⟩ := (hA _ _ hreply).2 rfl ⟨x, hresult, hexception⟩
        rcases hkind with ⟨restart, rfl⟩ | rfl
        · exact absurd rfl (hupdate restart udp)
        · exact absurd rfl (hstop udp)
  have hrename : ∀ {w : World}, Home c w → (engine ids).Keeps A (Kept c)
      (fun w x => (∀ u, x = .ok u → Away c w) ∧ ∀ e, x = .error e → e.isException = true → Away c w)
      (docker false (.rename udp (backupName c))) w := by
    intro w hw
    refine keeps_docker (Or.inl hw) fun reply hreply => ?_
    obtain ⟨⟨-, htells⟩, hlands⟩ := hA _ _ hreply
    dsimp only [engine] at htells ⊢
    split
    · have haway := away_of_rename ids hw
      exact ⟨Or.inr haway, fun _ _ => haway, fun _ _ _ => haway⟩
    · next htook =>
      refine ⟨Or.inl hw, fun u hu => ?_, fun e he hexception => ?_⟩
      · cases hresult : reply.result with
        | ok answer => exact absurd (htells answer hresult) htook
        | error e =>
            rw [hresult] at hu
            cases hu
      · cases hresult : reply.result with
        | ok answer =>
            rw [hresult] at he
            cases he
        | error x =>
            rw [hresult] at he
            obtain rfl := Except.error.inj he
            obtain ⟨-, -, htakes⟩ := hlands rfl ⟨x, hresult, hexception⟩
            exact absurd (htakes _ _ rfl) htook
  refine (hgentle hw (.update _) (Or.inl ⟨_, rfl⟩)).bind (fun w u _ hx => ?_) fun _ e hx => fun e' he => hx.2 e' he
  refine (hgentle (hx.1 u rfl) .stop (Or.inr rfl)).bind (fun w u _ hx => ?_) fun _ e hx => fun e' he => hx.2 e' he
  refine (hrename (hx.1 u rfl)).bind (fun w u _ hx => ?_) fun _ e hx => fun e' he => hx.2 e' he
  -- from here on the original has the backup name
  refine Party.Keeps.mono (I := Away c) (Q := fun _ _ => True) ?_ (fun _ h => Or.inr h) fun w x h _ _ _ _ => h
  refine (away_docker .create (hx.1 u rfl)).bind (fun w _ hw _ => ?_) fun _ _ _ => trivial
  refine (away_docker .start hw).bind (fun w _ hw _ => ?_) fun _ _ _ => trivial
  refine Party.Keeps.bind (Q := fun _ _ => True)
    (keeps_waitReady hw trivial trivial fun _ _ _ _ => trivial) (fun w _ hw _ => ?_) fun _ _ _ => trivial
  refine Party.Keeps.bind (Q := fun _ _ => True) (keeps_inspect (fun w e h => (hA w e h).1) hw
    fun _ _ => ⟨fun _ _ _ => trivial, fun _ _ => trivial⟩) (fun w live hw _ => ?_) fun _ _ _ => trivial
  split
  · exact ⟨hw, trivial⟩
  · exact ⟨hw, trivial⟩

include hA in
theorem home_prepare (hw : Home c w) :
    (engine ids).Keeps A (Home c) (fun _ _ => True) (prepare c) w := by
  have hexists : (engine ids).Keeps A (Home c) (fun _ _ => True) (Script.send ⟨.stateExists, false⟩) w :=
    Party.keeps_send hw fun _ _ => ⟨effect_home ids .stateExists hw, trivial⟩
  refine hexists.bind (fun w answer hw _ => ?_) fun _ _ _ => trivial
  split
  · refine Party.Keeps.attempt_bind (Q := fun _ _ => True) (keeps_inspect (fun w e h => (hA w e h).1) hw
      fun _ _ => ⟨fun _ _ _ => trivial, fun _ _ => trivial⟩) fun w x hw _ => ?_
    split
    · exact ⟨hw, trivial⟩
    · refine (home_docker .openState hw).bind (fun w _ hw _ => ?_) fun _ _ _ => trivial
      refine keeps_docker hw fun reply _ => ⟨?_, trivial⟩
      dsimp only [engine]
      split
      · refine ⟨hw.has, fun s hs => ?_⟩
        exact (Option.some.inj (Option.some.inj hs)).symm
      · exact hw
    · exact ⟨hw, trivial⟩
  · exact ⟨hw, trivial⟩
  · exact ⟨hw, trivial⟩

theorem Kept.file (h : Kept c w) : FileOk c w := h.elim Home.file Away.file

theorem validateLive_id {live : Container} (h : validateLive c live = .ok ()) :
    live.id = c.prepared.oldId := by
  simp only [validateLive, bind_eq_ok] at h
  obtain ⟨_, hcheck, -⟩ := h
  unfold check at hcheck
  split at hcheck
  · next hall =>
    simp only [Bool.and_eq_true, decide_eq_true_eq] at hall
    exact hall.1.1
  · cases hcheck

include hA in
/-- What `validate` accepts is the original under its own name. -/
theorem kept_validate (hw : Kept c w) :
    (engine ids).Keeps A (Kept c) (fun w x => x = .ok () → Home c w) (validate c) w := by
  have hfiles : (engine ids).Keeps A (Kept c) (fun _ _ => True)
      (Script.ofExcept (validateFiles c)) w := Party.keeps_ofExcept hw trivial
  refine hfiles.bind (fun w _ hw _ => ?_) fun _ _ _ => by intro h; cases h
  have hinspect : (engine ids).Keeps A (Kept c)
      (fun w x => ∀ k, x = .ok k → w.containers udp = some k) (inspect false udp) w := by
    refine keeps_inspect (fun w e h => (hA w e h).1) hw fun reply _ => ⟨fun k _ hk j hj => ?_, fun e _ j hj => ?_⟩
    · obtain rfl := Except.ok.inj hj
      exact hk
    · cases hj
  refine hinspect.bind (fun w live hw hlive => ?_) fun _ _ _ => by intro h; cases h
  exact Party.keeps_ofExcept hw fun hok => ⟨⟨live, hlive live rfl, validateLive_id hok⟩, hw.file⟩

include hA in
theorem kept_rollback (hw : Kept c w) :
    (engine ids).Keeps A (Kept c) (fun _ _ => True) rollback w := by
  have hread : (engine ids).Keeps A (Kept c)
      (fun w x => ∀ s, x = .ok (.rollout s) → w.file = some (some s)) (Script.send ⟨.readState, true⟩) w := by
    refine Party.keeps_send hw fun reply hreply => ?_
    have heffect : (engine ids).effect w ⟨⟨.readState, true⟩, reply⟩ = w := by
      dsimp only [engine]
      split <;> rfl
    rw [heffect]
    refine ⟨hw, fun s hs => ?_⟩
    obtain ⟨s', hs', hfile⟩ := (hA _ _ hreply).1.2 _ hs
    obtain rfl := Answer.rollout.inj hs'
    exact hfile
  refine hread.bind (fun w answer hw hfile => ?_) fun _ _ _ => trivial
  cases answer with
  | rollout s =>
      obtain rfl := hw.file s (hfile s rfl)
      have hinspect : (engine ids).Keeps A (Kept c)
          (fun w x => ∀ k, x = .ok k → w.containers udp = some k) (inspect true udp) w := by
        refine keeps_inspect (fun w e h => (hA w e h).1) hw
          fun reply _ => ⟨fun k _ hk j hj => ?_, fun e _ j hj => ?_⟩
        · obtain rfl := Except.ok.inj hj
          exact hk
        · cases hj
      refine hinspect.bind (fun w live hw hlive => ?_) fun _ _ _ => trivial
      dsimp only
      split
      · exact ⟨hw, trivial⟩
      · next hother =>
        -- `ouf-udp` is another container, so that the original has the backup name
        have haway : Away c w := by
          refine hw.resolve_left fun hhome => ?_
          obtain ⟨k, hk, hid⟩ := hhome.has
          obtain rfl := Option.some.inj ((hlive live rfl).symm.trans hk)
          exact hother hid
        have hremove : (engine ids).Keeps A (Kept c) (fun w (_ : Except Raised Unit) => Away c w)
            (remove true live) w := (away_remove haway).mono (fun _ h => Or.inr h) fun _ _ h _ => h
        refine hremove.bind (fun w _ _ hw => ?_) fun _ _ _ => trivial
        have hbackup : (engine ids).Keeps A (Kept c) (fun w (_ : Except Raised Container) => Away c w)
            (inspect true (backupName c)) w :=
          keeps_inspect (fun w e h => (hA w e h).1) (Or.inr hw) fun _ _ => ⟨fun _ _ _ => hw, fun _ _ => hw⟩
        refine hbackup.bind (fun w backup _ hw => ?_) fun _ _ _ => trivial
        split
        · exact ⟨Or.inr hw, trivial⟩
        · exact kept_giveBack hA hw
  | _ => exact ⟨hw, trivial⟩

include hA in
theorem kept_apply (hw : Kept c w) : (engine ids).Keeps A (Kept c) (fun _ _ => True) (apply c) w := by
  refine (kept_validate hA hw).bind (fun w _ _ hw => ?_) fun _ _ _ => trivial
  have hprepare : (engine ids).Keeps A (Kept c) (fun w (_ : Except Raised Unit) => Home c w) (prepare c) w :=
    (home_prepare hA (hw rfl)).mono (fun _ h => Or.inl h) fun _ _ h _ => h
  refine hprepare.bind (fun w _ _ hw => ?_) fun _ _ _ => trivial
  refine (away_replace hA hw).handle (fun _ _ _ => trivial) fun w e hw haway => ?_
  split
  · next hexception =>
    exact (kept_recover hA (haway e rfl hexception)).bind (fun w _ hw _ => ⟨hw, trivial⟩) fun _ _ _ => trivial
  · exact ⟨hw, trivial⟩

include hA in
/-- One run keeps the original, wherever it stops. -/
theorem kept_main {euid : Nat} {mode : Mode} (hw : Kept c w) :
    (engine ids).Keeps A (Kept c) (fun _ _ => True) (main c euid mode) w := by
  unfold main
  split
  · exact ⟨hw, trivial⟩
  · cases mode with
    | dryRun => exact (kept_validate hA hw).mono (fun _ h => h) fun _ _ _ _ => trivial
    | apply => exact kept_apply hA hw
    | rollback => exact kept_rollback hA hw

end

/-! ## The original is given back -/

/-- The commands that may fail in a recovery that succeeds: a probe of a loop, and in the handler
of `--apply` those that remove a container that need not be there. -/
def tolerated : Mode → Command → Prop
  | _, .probe _ => True
  | .apply, .inspect _ => True
  | .apply, .update restart _ => restart = "no"
  | .apply, .stop _ => True
  | .apply, .rm _ => True
  | _, _ => False

def Succeeds (mode : Mode) (e : Event Request Answer Raised) : Prop :=
  (∃ answer, e.reply.result = .ok answer) ∨ (Failed e ∧ tolerated mode e.request.command)

/-- Where a recovery finds the original under its own name, it runs. -/
def Found (c : Candidate) (e : Event Request Answer Raised) : Prop :=
  e.request = ⟨.inspect udp, true⟩ → ∀ k, e.reply.result = .ok (.live k) →
    k.id = c.prepared.oldId → k.running = true

/-- The original has its name and was started. -/
def Restored (c : Candidate) (w : World) : Prop :=
  ∃ k, w.containers udp = some k ∧ k.id = c.prepared.oldId ∧ k.running = true

structure Clean (ids : Nat → String) (c : Candidate) (mode : Mode) (w : World)
    (e : Event Request Answer Raised) : Prop where
  calm : Calm ids w e
  succeeds : e.request.recovering = true → Succeeds mode e
  found : Found c e

section

variable {mode : Mode} (hA : ∀ w e, A w e → Clean ids c mode w e)

include hA in
/-- A recovery command that must not fail is answered, and has done what it says. -/
theorem restoring_docker {Q : World → Prop} (hstrict : ¬ tolerated mode command) (htells : ∀ w answer,
    tells w false answer command → False) (hQ : Q (performed ids w command)) :
    (engine ids).Keeps A (fun _ => True) (fun w x => (∃ u, x = .ok u) ∧ Q w) (docker true command) w := by
  refine keeps_docker trivial fun reply hreply => ⟨trivial, ?_⟩
  have hclean := hA _ _ hreply
  rcases hclean.succeeds rfl with ⟨answer, hresult⟩ | ⟨-, h⟩
  · have htook : reply.took = true := by
      cases htook : reply.took with
      | true => rfl
      | false =>
          have htold := hclean.calm.1.2 answer hresult
          dsimp only at htold
          rw [htook] at htold
          exact (htells _ _ htold).elim
    dsimp only [engine]
    rw [if_pos htook]
    exact ⟨⟨(), by rw [hresult]; rfl⟩, hQ⟩
  · exact absurd h hstrict

include hA in
theorem restores_giveBack (hw : Away c w) :
    (engine ids).Keeps A (fun _ => True) (fun w _ => Restored c w) (giveBack (backupName c)) w := by
  have htook : ∀ {w : World} {answer : Answer} {command : Command}, tells w false answer command →
      command = .rename (backupName c) udp ∨ command = .update "unless-stopped" udp ∨
        command = .start udp → False := by
    rintro w answer command h (rfl | rfl | rfl) <;> cases h
  have hstrict : ∀ {command : Command}, command = .rename (backupName c) udp ∨
      command = .update "unless-stopped" udp ∨ command = .start udp → ¬ tolerated mode command := by
    rintro command (rfl | rfl | rfl) h
    · cases mode <;> exact h
    · cases mode with
      | apply =>
          have htext : "unless-stopped" = "no" := h
          exact absurd htext (by decide)
      | _ => exact h
    · cases mode <;> exact h
  refine (restoring_docker hA (Q := Home c) (hstrict (Or.inl rfl)) (fun _ _ h => htook h (Or.inl rfl))
    (home_of_rename ids hw)).bind (fun w _ _ hw => ?_) fun w e hx => by obtain ⟨⟨u, hu⟩, -⟩ := hx; cases hu
  refine (restoring_docker hA (Q := Home c) (hstrict (Or.inr (Or.inl rfl)))
    (fun _ _ h => htook h (Or.inr (Or.inl rfl))) ((Gentle.update _).home hw.2)).bind (fun w _ _ hw => ?_)
    fun w e hx => by obtain ⟨⟨u, hu⟩, -⟩ := hx; cases hu
  have hstarted : Restored c (performed ids w (.start udp)) := by
    obtain ⟨k, hk, hid⟩ := hw.2.has
    exact ⟨_, (set_same _ _ _).trans (congrArg _ hk), hid, rfl⟩
  refine (restoring_docker hA (Q := Restored c) (hstrict (Or.inr (Or.inr rfl)))
    (fun _ _ h => htook h (Or.inr (Or.inr rfl))) hstarted).bind (fun w _ _ hw => ?_)
    fun w e hx => by obtain ⟨⟨u, hu⟩, -⟩ := hx; cases hu
  exact keeps_waitReady trivial hw.2 hw.2 fun _ _ _ _ => hw.2

/-- How a step that removes may end: well, or in `--apply` with an error its handler takes up. -/
def Mild (mode : Mode) {α : Type} (x : Except Raised α) : Prop :=
  ∀ e, x = .error e → mode = .apply ∧ e.isException = true

include hA in
theorem mild_of_reply {command : Command} {reply : Reply Answer Raised}
    (hreply : A w ⟨⟨command, true⟩, reply⟩) (htolerated : tolerated mode command → mode = .apply) :
    Mild mode reply.result := by
  intro e he
  rcases (hA _ _ hreply).succeeds rfl with ⟨answer, hanswer⟩ | ⟨⟨x, hx, hexception⟩, h⟩
  · cases hanswer.symm.trans he
  · obtain rfl := Except.error.inj (hx.symm.trans he)
    exact ⟨htolerated h, hexception⟩

theorem Mild.map {α β : Type} {f : α → β} {x : Except Raised α} (h : Mild mode x) : Mild mode (x.map f) := by
  intro e he
  cases x with
  | ok x => cases he
  | error y =>
      obtain rfl := Except.error.inj he
      exact h _ rfl

theorem mild_ok {α : Type} {x : α} : Mild mode (.ok x : Except Raised α) := fun _ h => by cases h

include hA in
theorem mild_remove {live : Container} (hw : Away c w) :
    (engine ids).Keeps A (Away c) (fun _ x => Mild mode x) (remove true live) w := by
  have hmild : ∀ {w : World} {command : Command}, Away c w → OnUdp c command →
      (tolerated mode command → mode = .apply) →
      (engine ids).Keeps A (Away c) (fun _ x => Mild mode x) (docker true command) w :=
    fun hw hcommand htolerated => keeps_docker hw fun reply hreply =>
      ⟨effect_away hcommand hw, (mild_of_reply hA hreply htolerated).map⟩
  have hupdate : tolerated mode (.update "no" udp) → mode = .apply := by cases mode <;> simp [tolerated]
  have hstop : tolerated mode (.stop udp) → mode = .apply := by cases mode <;> simp [tolerated]
  have hrm : tolerated mode (.rm udp) → mode = .apply := by cases mode <;> simp [tolerated]
  refine (hmild hw (.update _) hupdate).bind (fun w _ hw _ => ?_) fun _ e h => by
    intro x hx
    obtain rfl := Except.error.inj hx
    exact h _ rfl
  refine Party.Keeps.bind (Q := fun _ x => Mild mode x) ?_ (fun w _ hw _ => hmild hw .rm hrm) fun _ e h => by
    intro x hx
    obtain rfl := Except.error.inj hx
    exact h _ rfl
  split
  · exact hmild hw .stop hstop
  · exact ⟨hw, mild_ok⟩

end

theorem restores_recover (ids : Nat → String) (hA : ∀ w e, A w e → Clean ids c .apply w e) (hw : Away c w) :
    (engine ids).Keeps A (fun _ => True) (fun w _ => Restored c w) (recover (backupName c)) w := by
  have hinspect : (engine ids).Keeps A (Away c) (fun _ x => Mild .apply x) (inspect true udp) w := by
    refine keeps_inspect (fun w e h => (hA w e h).calm.1) hw fun reply hreply => ⟨fun _ _ _ => mild_ok, ?_⟩
    intro e he x hx
    obtain rfl := Except.error.inj hx
    exact mild_of_reply hA hreply (fun _ => rfl) _ he
  have hremove : (engine ids).Keeps A (Away c) (fun _ x => Mild .apply x)
      ((inspect true udp).bind (remove true)) w := by
    refine hinspect.bind (fun w live hw _ => mild_remove hA hw) fun _ e h x hx => ?_
    obtain rfl := Except.error.inj hx
    exact h _ rfl
  have hhandled : (engine ids).Keeps A (Away c) (fun w x => (∃ u, x = .ok u) ∧ Away c w)
      (((inspect true udp).bind (remove true)).handle fun e =>
        if e.isException then .done () else .raise e) w := by
    refine Party.Keeps.handle (Q := fun w x => Mild .apply x ∧ Away c w)
      (hremove.mono (fun _ h => h) fun _ _ hw h => ⟨h, hw⟩) (fun w u h => ⟨⟨u, rfl⟩, h.2⟩) fun w e hw h => ?_
    rw [if_pos (h.1 e rfl).2]
    exact ⟨hw, ⟨(), rfl⟩, hw⟩
  have hany := hhandled.mono (J := fun _ => True) (fun _ _ => trivial) fun _ _ _ h => h
  exact hany.bind (fun w u _ h => restores_giveBack hA h.2) fun w e h => by
    obtain ⟨⟨u, hu⟩, -⟩ := h
    cases hu

theorem restores_rollback (hA : ∀ w e, A w e → Clean ids c .rollback w e) (hw : Kept c w) :
    (engine ids).Keeps A (fun _ => True) (fun w _ => Restored c w) rollback w := by
  have hanswered : ∀ {w : World} {command : Command} {reply : Reply Answer Raised} {e : Raised},
      A w ⟨⟨command, true⟩, reply⟩ → reply.result = .error e → ¬ tolerated .rollback command → False := by
    intro w command reply e hreply he hstrict
    rcases (hA _ _ hreply).succeeds rfl with ⟨answer, hanswer⟩ | ⟨-, h⟩
    · cases hanswer.symm.trans he
    · exact hstrict h
  have hread : (engine ids).Keeps A (fun _ => True)
      (fun w x => ∃ s, x = .ok (.rollout s) ∧ w.file = some (some s) ∧ Kept c w)
      (Script.send ⟨.readState, true⟩) w := by
    refine Party.keeps_send trivial fun reply hreply => ⟨trivial, ?_⟩
    have heffect : (engine ids).effect w ⟨⟨.readState, true⟩, reply⟩ = w := by
      dsimp only [engine]
      split <;> rfl
    rw [heffect]
    cases hresult : reply.result with
    | error e => exact (hanswered hreply hresult id).elim
    | ok answer =>
        obtain ⟨s, rfl, hfile⟩ := (hA _ _ hreply).calm.1.2 _ hresult
        exact ⟨s, rfl, hfile, hw⟩
  refine hread.bind (fun w answer _ h => ?_) fun w e h => by
    obtain ⟨_, he, -⟩ := h
    cases he
  obtain ⟨s, hs, hfile, hw⟩ := h
  obtain rfl := Except.ok.inj hs
  obtain rfl := hw.file s hfile
  have hinspect : (engine ids).Keeps A (fun _ => True) (fun w x => ∃ k, x = .ok k ∧
      w.containers udp = some k ∧ (k.id = c.prepared.oldId → k.running = true) ∧ Kept c w)
      (inspect true udp) w := by
    refine keeps_inspect (fun w e h => (hA w e h).calm.1) trivial fun reply hreply => ⟨fun k hk hlive => ?_, ?_⟩
    · exact ⟨k, rfl, hlive, (hA _ _ hreply).found rfl k hk, hw⟩
    · exact fun e he => (hanswered hreply he id).elim
  refine hinspect.bind (fun w live _ h => ?_) fun w e h => by
    obtain ⟨_, he, -⟩ := h
    cases he
  obtain ⟨k, hk, hlive, hruns, hw⟩ := h
  obtain rfl := Except.ok.inj hk
  dsimp only
  split
  · next hid => exact ⟨trivial, live, hlive, hid, hruns hid⟩
  · next hother =>
    have haway : Away c w := by
      refine hw.resolve_left fun hhome => ?_
      obtain ⟨j, hj, hid⟩ := hhome.has
      obtain rfl := Option.some.inj (hlive.symm.trans hj)
      exact hother hid
    have hremove : (engine ids).Keeps A (fun _ => True) (fun w x => Mild .rollback x ∧ Away c w)
        (remove true live) w :=
      (mild_remove hA haway).mono (fun _ _ => trivial) fun _ _ hw h => ⟨h, hw⟩
    refine hremove.bind (fun w _ _ h => ?_) fun w e h => by
      obtain ⟨hmode, -⟩ := h.1 e rfl
      cases hmode
    have hbackup : (engine ids).Keeps A (fun _ => True)
        (fun w x => ∃ k, x = .ok k ∧ w.containers (backupName c) = some k ∧ Away c w)
        (inspect true (backupName c)) w := by
      refine keeps_inspect (fun w e h => (hA w e h).calm.1) trivial fun reply hreply => ⟨fun k _ hlive => ?_, ?_⟩
      · exact ⟨k, rfl, hlive, h.2⟩
      · exact fun e he => (hanswered hreply he id).elim
    refine hbackup.bind (fun w backup _ h => ?_) fun w e h => by
      obtain ⟨_, he, -⟩ := h
      cases he
    obtain ⟨k, hk, hlive, haway⟩ := h
    obtain rfl := Except.ok.inj hk
    split
    · next hmismatch =>
      obtain ⟨j, hj, hid⟩ := haway.has
      obtain rfl := Option.some.inj (hlive.symm.trans hj)
      exact absurd hid hmismatch
    · exact restores_giveBack hA haway

/-! ## What comes before a recovery -/

abbrev Ahead (req : Request) : Prop := req.recovering = false

theorem sends_docker : Sends Ahead (docker false command) :=
  Sends.bind (.send rfl) fun _ => .done _

theorem sends_inspect : Sends Ahead (inspect false name) := by
  refine Sends.bind (.send rfl) fun answer => ?_
  cases answer with
  | live k => exact .done k
  | _ => exact .raise _

theorem sends_waitReady {turns : Nat} : Sends Ahead (waitReady false name turns) := by
  induction turns with
  | zero => exact .raise _
  | succ turns ih =>
      refine Sends.bind (Sends.attempt (.send rfl)) fun result => ?_
      split
      · exact .done _
      · exact ih
      · exact .raise _

theorem sends_validate : Sends Ahead (validate c) :=
  (Sends.ofExcept _).bind fun _ => sends_inspect.bind fun _ => .ofExcept _

theorem sends_prepare : Sends Ahead (prepare c) := by
  refine Sends.bind (.send rfl) fun answer => ?_
  split
  · refine Sends.bind sends_inspect.attempt fun result => ?_
    split
    · exact .raise _
    · exact sends_docker.bind fun _ => sends_docker
    · exact .raise _
  · exact .raise _
  · exact .raise _

theorem sends_replace : Sends Ahead (replace c) := by
  refine sends_docker.bind fun _ => sends_docker.bind fun _ => sends_docker.bind fun _ =>
    sends_docker.bind fun _ => sends_docker.bind fun _ => sends_waitReady.bind fun _ =>
      sends_inspect.bind fun live => ?_
  split
  · exact .raise _
  · exact .done _

/-- Some command of the log is one of a recovery. -/
def Recovers (log : Log) : Prop := ∃ e ∈ log, e.request.recovering = true

theorem not_recovers {α : Type} {p : Work α} {r : Option (Except Raised α)} (hp : Sends Ahead p)
    (h : Runs p log r) : ¬ Recovers log := by
  rintro ⟨e, he, hrecovering⟩
  have hahead : e.request.recovering = false := h.sent hp e he
  rw [hahead] at hrecovering
  cases hrecovering

theorem recovers_append {first second : Log} (h : Recovers (first ++ second)) (hfirst : ¬ Recovers first) :
    Recovers second := by
  obtain ⟨e, he, hrecovering⟩ := h
  rcases List.mem_append.mp he with he | he
  · exact absurd ⟨e, he, hrecovering⟩ hfirst
  · exact ⟨e, he, hrecovering⟩

theorem restores_apply {x : Except Raised Unit} (hw : Kept c w) (h : Runs (apply c) log (some x))
    (hlog : (engine ids).Along (Clean ids c .apply) w log) (hrecovers : Recovers log) :
    Restored c ((engine ids).after w log) := by
  have hcalm : ∀ w e, Clean ids c .apply w e → Calm ids w e := fun _ _ h => h.calm
  -- the recovery starts where the commands under `try` have failed
  rcases runs_bind h with ⟨hv, -⟩ | ⟨e, hv, -⟩ | ⟨u, first, second, rfl, hv, hrest⟩
  · exact absurd hrecovers (not_recovers sends_validate hv)
  · exact absurd hrecovers (not_recovers sends_validate hv)
  obtain ⟨hfirst, hsecond⟩ := Party.along_append.mp hlog
  have hrecovers := recovers_append hrecovers (not_recovers sends_validate hv)
  have hhome := ((kept_validate hcalm hw).sound hv hfirst).2 _ rfl rfl
  rw [Party.after_append]
  rcases runs_bind hrest with ⟨hp, -⟩ | ⟨e, hp, -⟩ | ⟨u, front, back, rfl, hp, hrest⟩
  · exact absurd hrecovers (not_recovers sends_prepare hp)
  · exact absurd hrecovers (not_recovers sends_prepare hp)
  obtain ⟨hfront, hback⟩ := Party.along_append.mp hsecond
  have hrecovers := recovers_append hrecovers (not_recovers sends_prepare hp)
  have hhome := ((home_prepare hcalm hhome).sound hp hfront).1
  rw [Party.after_append]
  rcases runs_handle hrest with ⟨hr, -⟩ | ⟨y, hr, -⟩ | ⟨e, tried, handled, rfl, hr, hhandler⟩
  · exact absurd hrecovers (not_recovers sends_replace hr)
  · exact absurd hrecovers (not_recovers sends_replace hr)
  obtain ⟨htried, hhandled⟩ := Party.along_append.mp hback
  have haway := ((away_replace hcalm hhome).sound hr htried).2 _ rfl e rfl
  have hrecovers := recovers_append hrecovers (not_recovers sends_replace hr)
  rw [Party.after_append]
  split at hhandler
  · next hexception =>
    have hrecover := restores_recover ids (A := Clean ids c .apply) (fun _ _ h => h) (haway hexception)
    have hraises : (engine ids).Keeps (Clean ids c .apply) (fun _ => True) (fun w _ => Restored c w)
        ((recover (backupName c)).bind fun _ => (.raise e : Work Unit)) _ :=
      hrecover.bind (fun w _ _ h => ⟨trivial, h⟩) fun _ _ h => h
    exact (hraises.sound hhandler hhandled).2 _ rfl
  · obtain ⟨rfl, -⟩ := runs_raise hhandler
    obtain ⟨_, he, -⟩ := hrecovers
    cases he

/-- A run whose recovery commands succeed gives the original back. -/
theorem restores_main {euid : Nat} {mode : Mode} {x : Except Raised Unit} (hw : Kept c w)
    (h : Runs (main c euid mode) log (some x)) (hlog : (engine ids).Along (Clean ids c mode) w log)
    (hrecovers : Recovers log) : Restored c ((engine ids).after w log) := by
  unfold main at h
  split at h
  · obtain ⟨rfl, -⟩ := runs_raise h
    obtain ⟨_, he, -⟩ := hrecovers
    cases he
  · cases mode with
    | dryRun => exact absurd hrecovers (not_recovers sends_validate h)
    | apply => exact restores_apply hw h hlog hrecovers
    | rollback => exact ((restores_rollback (fun _ _ h => h) hw).sound h hlog).2 x rfl

/-! ## Runs one after the other -/

structure Run where
  euid : Nat
  mode : Mode
  replies : List (Reply Answer Raised)

def Run.events (run : Run) (c : Candidate) : Log := ((main c run.euid run.mode).run run.replies).1

def Run.result (run : Run) (c : Candidate) : Option (Except Raised Unit) :=
  ((main c run.euid run.mode).run run.replies).2

/-- The world after these runs on the candidate. -/
def session (ids : Nat → String) (c : Candidate) (w : World) (runs : List Run) : World :=
  runs.foldl (fun w run => (engine ids).after w (run.events c)) w

/-- Docker is honest in all of them. -/
def HonestSession (ids : Nat → String) (c : Candidate) : World → List Run → Prop
  | _, [] => True
  | w, run :: runs => (engine ids).Honest w (run.events c) ∧
      HonestSession ids c ((engine ids).after w (run.events c)) runs

/-- What `validate` accepts. -/
def Accepted (c : Candidate) (w : World) : Prop :=
  validateFiles c = .ok () ∧ ∃ k, w.containers udp = some k ∧ validateLive c k = .ok ()

theorem kept_session {runs : List Run} (hw : Kept c w) (hhonest : HonestSession ids c w runs)
    (hlands : ∀ run ∈ runs, ∀ e ∈ run.events c, Lands e) : Kept c (session ids c w runs) := by
  induction runs generalizing w with
  | nil => exact hw
  | cons run runs ih =>
      have hruns := runs_run (main c run.euid run.mode) run.replies
      have hlog := hhonest.1.and (hlands run List.mem_cons_self)
      have hkept := ((kept_main (A := Calm ids) (fun _ _ h => h) hw).sound hruns hlog).1
      exact ih hkept hhonest.2 fun r hr => hlands r (List.mem_cons_of_mem _ hr)

theorem honestSession_append {before after : List Run} (h : HonestSession ids c w (before ++ after)) :
    HonestSession ids c w before ∧ HonestSession ids c (session ids c w before) after := by
  induction before generalizing w with
  | nil => exact ⟨trivial, h⟩
  | cons run before ih =>
      obtain ⟨hbefore, hafter⟩ := ih h.2
      exact ⟨⟨h.1, hbefore⟩, hafter⟩

/-- If no failure leads the handler to the original, it is there after any number of runs, and a
recovery whose commands succeed, and which does not find it stopped, gives it back. -/
theorem original_is_kept (hfile : FileOk c w) (haccepted : Accepted c w) (runs : List Run)
    (hhonest : HonestSession ids c w runs) (hlands : ∀ run ∈ runs, ∀ e ∈ run.events c, Lands e) :
    (Has (session ids c w runs) udp c.prepared.oldId ∨
      Has (session ids c w runs) (backupName c) c.prepared.oldId) ∧
    ∀ before run after, runs = before ++ run :: after → run.result c ≠ none → Recovers (run.events c) →
      (∀ e ∈ run.events c, e.request.recovering = true → Succeeds run.mode e) →
      (∀ e ∈ run.events c, Found c e) → Restored c (session ids c w (before ++ [run])) := by
  have hw : Kept c w := by
    obtain ⟨-, k, hk, hlive⟩ := haccepted
    exact Or.inl ⟨⟨k, hk, validateLive_id hlive⟩, hfile⟩
  refine ⟨(kept_session hw hhonest hlands).imp Home.has Away.has, ?_⟩
  rintro before run after rfl hend hrecovers hsucceeds hfound
  obtain ⟨hbefore, hhonest, -⟩ := honestSession_append hhonest
  have hkept := kept_session hw hbefore fun r hr => hlands r (List.mem_append_left _ hr)
  obtain ⟨x, hx⟩ := Option.ne_none_iff_exists'.mp hend
  have hruns : Runs (main c run.euid run.mode) (run.events c) (some x) := hx ▸ runs_run _ run.replies
  have hlog : (engine ids).Along (Clean ids c run.mode) (session ids c w before) (run.events c) := by
    refine (hhonest.and (P := fun e => Lands e ∧ (e.request.recovering = true → Succeeds run.mode e) ∧
      Found c e) fun e he => ⟨hlands run (List.mem_append_right _ List.mem_cons_self) e he,
        hsucceeds e he, hfound e he⟩).mono fun w e h => ?_
    exact ⟨⟨h.1, h.2.1⟩, h.2.2.1, h.2.2.2⟩
  rw [session, List.foldl_append]
  exact restores_main hkept hruns hlog hrecovers

/-! ## Two runs that fail -/

def keyMount : Mount := ⟨"/run/secrets/udp-search-owner.key", "/opt/ouf/udp-search-owner.key", false⟩

/-- A candidate that adds the environment and nothing else. -/
def sample : Candidate where
  path := "/opt/ouf/backup/udp"
  owner := 0
  mode := 0o700
  old := ⟨"0123456789abcdef", ["A=1"], "10004:10004", "ouf-backend", "unless-stopped", 67108864, 0, 0,
    [("ouf-backend", [])], [keyMount]⟩
  prepared := ⟨"0123456789abcdef", "sha256:new", "/opt/ouf/udp-search-owner.key"⟩
  env := ["A=1", "OUF_AUTHORIZATION_REGISTRY_URL=https://gateway/bundle",
    "OUF_AUTHORIZATION_REGISTRY_TOKEN_FILE=/run/ouf-udp-auth/token",
    "OUF_AUTHORIZATION_REFRESH_SECONDS=30", "OUF_AUTHORIZATION_MAX_STALENESS_SECONDS=300"]

def original : Container := ⟨"0123456789abcdef", "sha256:old", true, "unless-stopped"⟩

/-- Only the original, which runs. -/
def live : World := ⟨fun name => if name = udp then some original else none, 0, none⟩

theorem accepted_live : Accepted sample live := ⟨rfl, original, rfl, rfl⟩

def ok : Reply Answer Raised := ⟨.ok .done, true⟩

def failed : Reply Answer Raised := ⟨.error .called, false⟩

/-- `docker create` fails, and the original gets its name back. -/
def createFails : Run := ⟨0, .apply,
  [⟨.ok (.live original), false⟩, ⟨.ok (.flag false), false⟩, failed, ok, ok, ok, ok, ok, failed,
    failed, ok, ok, ok, ok]⟩

/-- `docker update` fails, and the handler goes on. -/
def updateFails : Run := ⟨0, .apply,
  [⟨.ok (.live original), false⟩, ⟨.ok (.flag false), false⟩, failed, ok, ok, failed,
    ⟨.ok (.live original), false⟩, ok, ok, ok, failed]⟩

def backupOfSample : String := "ouf-udp-preauth-0123456789ab"

/-- What every apply of the sample sends first, with these replies. -/
def begins : Log :=
  [⟨⟨.inspect udp, false⟩, .ok (.live original), false⟩, ⟨⟨.stateExists, false⟩, .ok (.flag false), false⟩,
    ⟨⟨.inspect backupOfSample, false⟩, failed⟩, ⟨⟨.openState, false⟩, ok⟩,
    ⟨⟨.writeState ⟨"0123456789abcdef", backupOfSample⟩, false⟩, ok⟩]

theorem events_createFails : createFails.events sample = begins ++
    [⟨⟨.update "no" udp, false⟩, ok⟩, ⟨⟨.stop udp, false⟩, ok⟩, ⟨⟨.rename udp backupOfSample, false⟩, ok⟩,
      ⟨⟨.create (createArgs sample), false⟩, failed⟩, ⟨⟨.inspect udp, true⟩, failed⟩,
      ⟨⟨.rename backupOfSample udp, true⟩, ok⟩, ⟨⟨.update "unless-stopped" udp, true⟩, ok⟩,
      ⟨⟨.start udp, true⟩, ok⟩, ⟨⟨.probe udp, true⟩, ok⟩] := rfl

theorem events_updateFails : updateFails.events sample = begins ++
    [⟨⟨.update "no" udp, false⟩, failed⟩, ⟨⟨.inspect udp, true⟩, .ok (.live original), false⟩,
      ⟨⟨.update "no" udp, true⟩, ok⟩, ⟨⟨.stop udp, true⟩, ok⟩, ⟨⟨.rm udp, true⟩, ok⟩,
      ⟨⟨.rename backupOfSample udp, true⟩, failed⟩] := rfl

theorem honest_failed {request : Request} : (engine ids).honest w ⟨request, failed⟩ :=
  ⟨fun h => (by cases h), fun _ h => (by cases h)⟩

theorem honest_answer {request : Request} {answer : Answer} (h : tells w false answer request.command) :
    (engine ids).honest w ⟨request, .ok answer, false⟩ := by
  refine ⟨fun h => (by cases h), fun a ha => ?_⟩
  obtain rfl := Except.ok.inj ha
  exact h

theorem honest_done {request : Request} (hpossible : possible w request.command)
    (h : tells w true .done request.command) : (engine ids).honest w ⟨request, ok⟩ := by
  refine ⟨fun _ => hpossible, fun a ha => ?_⟩
  obtain rfl := Except.ok.inj ha
  exact h

theorem honest_begins {rest : Log} (h : (engine ids).Honest ⟨live.containers, 0,
    some (some ⟨"0123456789abcdef", backupOfSample⟩)⟩ rest) : (engine ids).Honest live (begins ++ rest) :=
  ⟨honest_answer ⟨original, rfl, rfl⟩, honest_answer rfl, honest_failed, honest_done rfl rfl,
    honest_done trivial rfl, h⟩

theorem honest_createFails : HonestSession ids sample live [createFails] := by
  refine ⟨?_, trivial⟩
  rw [events_createFails]
  exact honest_begins ⟨honest_done rfl rfl, honest_done rfl rfl, honest_done ⟨rfl, rfl⟩ rfl, honest_failed,
    honest_failed, honest_done ⟨rfl, rfl⟩ rfl, honest_done rfl rfl, honest_done rfl rfl,
    honest_done trivial rfl, trivial⟩

theorem lands_createFails : ∀ e ∈ createFails.events sample, Lands e := by
  rw [events_createFails]
  intro e he hahead hfailed
  obtain ⟨x, hx, -⟩ := hfailed
  simp only [begins, List.cons_append, List.nil_append, List.mem_cons, List.not_mem_nil, or_false] at he
  rcases he with rfl | rfl | rfl | rfl | rfl | rfl | rfl | rfl | rfl | rfl | rfl | rfl | rfl | rfl
  -- only the lookup of the backup name and the create fail before the recovery
  all_goals first
    | (cases hx; done)
    | (cases hahead; done)
    | exact ⟨fun _ _ h => (by cases h), fun _ h => (by cases h), fun _ _ h => (by cases h)⟩

theorem createFails_gives_back : Restored sample (session (fun _ => "new") sample live [createFails]) := by
  have hkept := @original_is_kept (fun _ => "new") _ _ (fun s hs => by cases hs) accepted_live [createFails]
    honest_createFails (fun run hrun => List.mem_singleton.mp hrun ▸ lands_createFails)
  have hall : ∀ e ∈ createFails.events sample, (e.request.recovering = true → Succeeds .apply e) ∧
      Found sample e := by
    rw [events_createFails]
    intro e he
    simp only [begins, List.cons_append, List.nil_append, List.mem_cons, List.not_mem_nil, or_false] at he
    rcases he with rfl | rfl | rfl | rfl | rfl | rfl | rfl | rfl | rfl | rfl | rfl | rfl | rfl | rfl
    all_goals refine ⟨fun h => ?_, fun h k hk => ?_⟩
    all_goals first
      | (cases h; done)
      | cases hk
      | exact Or.inl ⟨_, rfl⟩
      | exact Or.inr ⟨⟨_, rfl, rfl⟩, trivial⟩
  refine hkept.2 [] createFails [] rfl (by decide) ?_ (fun e he => (hall e he).1) fun e he => (hall e he).2
  rw [events_createFails]
  exact ⟨_, List.mem_append_right _ (.tail _ (.tail _ (.tail _ (.tail _ (.head _))))), rfl⟩

/-- The original is gone: it was `ouf-udp` when the handler removed that. -/
theorem updateFails_destroys : Accepted sample live ∧
    HonestSession (fun _ => "new") sample live [updateFails] ∧
    ∀ name, (session (fun _ => "new") sample live [updateFails]).containers name = none := by
  refine ⟨accepted_live, ⟨?_, trivial⟩, fun name => ?_⟩
  · rw [events_updateFails]
    exact honest_begins ⟨honest_failed, honest_answer ⟨original, rfl, rfl⟩, honest_done rfl rfl,
      honest_done rfl rfl, honest_done ⟨_, rfl, rfl⟩ rfl, honest_failed, trivial⟩
  · show ((engine _).after live (updateFails.events sample)).containers name = none
    rw [events_updateFails]
    by_cases hname : name = udp
    · rw [hname]
      rfl
    · simp [begins, Party.after, engine, performed, World.set, live, ok, failed, hname]

end OufGateway.Retrofit
