import OufGateway.Ref.RolloutRuntime

/-!
# The rollout and the original container

Until the record is written nothing is changed (`Pristine`). From then on the
original has its own name (`Home`) or the backup name (`Away`), and what has its name
while it is away was created by a run. Every command keeps that, whether it is
answered or fails and whatever it did: `rollback` removes what it has seen not to be
the original, and a rename takes the original from the one name to the other or does
nothing. Runs of the other service have names and a record of their own.

What follows of the backup name needs more: that it was free when the record was
written. `--apply` takes any failure of `docker inspect` for that. Where it was not
(`strict` says it was), the original stays, but it is stopped and stays stopped.
-/

namespace OufGateway.RolloutRuntime

open Lib PyAccess
open Lib.Script hiding send
open RolloutFiles (Service checkPrivate)

abbrev Log := List (Event Request Answer Raised)

variable {strict : Prop} {site : Site} {s t : Service} {id : String} {d : Docker} {w : World}
  {name : String} {command : Command} {undo : Option Service}

/-! ## Names -/

@[simp] theorem nameOf_ne_backupOf : nameOf s ≠ backupOf t := by
  cases s <;> cases t <;> decide

@[simp] theorem backupOf_ne_nameOf : backupOf s ≠ nameOf t := nameOf_ne_backupOf.symm

theorem nameOf_inj : nameOf s = nameOf t ↔ s = t := by
  cases s <;> cases t <;> decide

theorem backupOf_inj : backupOf s = backupOf t ↔ s = t := by
  cases s <;> cases t <;> decide

def Has (w : World) (name id : String) : Prop := ∃ k, w.containers name = some k ∧ k.id = id

theorem set_same (w : World) (name : String) (k : Option Container) :
    (w.set name k).containers name = k := if_pos rfl

theorem set_other {other : String} {k : Option Container} (h : name ≠ other) :
    (w.set other k).containers name = w.containers name := if_neg h

theorem setFile_same (w : World) (s : Service) (content : Option State) :
    (w.setFile s content).files s = some content := if_pos rfl

theorem setFile_other {content : Option State} (h : t ≠ s) :
    (w.setFile s content).files t = w.files t := if_neg h

/-! ## Commands -/

/-- They change nothing. -/
inductive Quiet : Command → Prop
  | inspect (name : String) : Quiet (.inspect name)
  | imageInspect (image : String) : Quiet (.imageInspect image)
  | probe (name : String) : Quiet (.probe name)
  | stateExists (s : Service) : Quiet (.stateExists s)
  | readState (s : Service) : Quiet (.readState s)

theorem effect_quiet {e : Event Request Answer Raised} (h : Quiet e.request.command) :
    (engine d).effect w e = w := by
  dsimp only [engine]
  split
  · cases h' : e.request.command <;> rw [h'] at h <;> first | rfl | cases h
  · rfl

/-- They change a container and leave it under its name. -/
inductive Gentle (s : Service) : Command → Prop
  | update (restart : String) : Gentle s (.update restart (nameOf s))
  | stop : Gentle s (.stop (nameOf s))
  | start : Gentle s (.start (nameOf s))
  | connect (network : String) : Gentle s (.connect network (nameOf s))

/-- What the commands of a service name and write. -/
inductive Within (s : Service) : Command → Prop
  | quiet {command : Command} (h : Quiet command) : Within s command
  | gentle {command : Command} (h : Gentle s command) : Within s command
  | give : Within s (.rename (nameOf s) (backupOf s))
  | back : Within s (.rename (backupOf s) (nameOf s))
  | create {args : List String} (h : nameIn args = nameOf s) : Within s (.create args)
  | rm : Within s (.rm (nameOf s))
  | openState : Within s (.openState s)
  | writeState {content : State} (h : content.backup = backupOf s) : Within s (.writeState s content)

/-! ## The invariant -/

/-- What was removed under another name than that of the other service. -/
def Spares (s : Service) (id : String) (w : World) : Prop :=
  ∀ n gone, (n, gone) ∈ w.removed → (∃ t ≠ s, n = nameOf t) ∨
    (n = nameOf s ∧ gone ≠ id ∧ gone ∈ w.created)

structure Sound (s : Service) (id : String) (w : World) : Prop where
  /-- The records are as `--apply` writes them. -/
  named : ∀ t content, w.files t = some (some content) → content.backup = backupOf t
  spares : Spares s id w

/-- The record is not written, and nothing has changed. -/
structure Pristine (strict : Prop) (s : Service) (id : String) (w : World) : Prop where
  sound : Sound s id w
  file : ∀ content, w.files s ≠ some (some content)
  live : ∃ k, w.containers (nameOf s) = some k ∧ k.id = id ∧ k.running = true ∧
    (strict → k.restart = "unless-stopped")

/-- The record is written, in a directory that is private. -/
structure Recorded (site : Site) (s : Service) (id : String) (w : World) : Prop where
  sound : Sound s id w
  file : w.files s = some (some ⟨s, id, backupOf s⟩)
  ready : checkPrivate site.host site.candidate 0o700 0 0 = .ok ()

structure Home (strict : Prop) (site : Site) (s : Service) (id : String) (w : World) : Prop
    extends Recorded site s id w where
  has : Has w (nameOf s) id
  free : strict → w.containers (backupOf s) = none

structure Away (site : Site) (s : Service) (id : String) (w : World) : Prop
    extends Recorded site s id w where
  has : Has w (backupOf s) id
  other : ∀ k, w.containers (nameOf s) = some k → k.id ≠ id ∧ k.id ∈ w.created

def Staged (strict : Prop) (site : Site) (s : Service) (id : String) (w : World) : Prop :=
  Home strict site s id w ∨ Away site s id w

def Kept (strict : Prop) (site : Site) (s : Service) (id : String) (w : World) : Prop :=
  Pristine strict s id w ∨ Staged strict site s id w

theorem Kept.sound (h : Kept strict site s id w) : Sound s id w :=
  h.elim Pristine.sound fun h => h.elim (fun h => h.sound) fun h => h.sound

theorem Kept.has (h : Kept strict site s id w) : Has w (nameOf s) id ∨ Has w (backupOf s) id := by
  rcases h with h | h | h
  · obtain ⟨k, hk, hid, -⟩ := h.live
    exact Or.inl ⟨k, hk, hid⟩
  · exact Or.inl h.has
  · exact Or.inr h.has

/-! ## What a command does to it -/

theorem Has.gentle (h : Has w (nameOf s) id) (hcommand : Gentle s command) :
    Has (performed d w command) (nameOf s) id := by
  obtain ⟨k, hk, hid⟩ := h
  cases hcommand with
  | connect => exact ⟨k, hk, hid⟩
  | _ => exact ⟨_, (set_same _ _ _).trans (congrArg _ hk), hid⟩

theorem gentle_other (hcommand : Gentle s command) (hname : name ≠ nameOf s) :
    (performed d w command).containers name = w.containers name := by
  cases hcommand with
  | connect => rfl
  | _ => exact set_other hname

/-- Under the name is the container that was there. -/
theorem gentle_same {j : Container} (hcommand : Gentle s command)
    (hj : (performed d w command).containers (nameOf s) = some j) :
    ∃ c, w.containers (nameOf s) = some c ∧ c.id = j.id := by
  cases hcommand with
  | connect => exact ⟨j, hj, rfl⟩
  | _ =>
      obtain ⟨c, hc, hmap⟩ := Option.map_eq_some_iff.mp ((set_same _ _ _).symm.trans hj)
      exact ⟨c, hc, hmap ▸ rfl⟩

theorem gentle_created (hcommand : Gentle s command) :
    (performed d w command).created = w.created := by
  cases hcommand <;> rfl

theorem Recorded.gentle (h : Recorded site s id w) (hcommand : Gentle s command) :
    Recorded site s id (performed d w command) := by
  cases hcommand <;> exact ⟨⟨h.sound.named, h.sound.spares⟩, h.file, h.ready⟩

theorem Home.gentle (h : Home strict site s id w) (hcommand : Gentle s command) :
    Home strict site s id (performed d w command) :=
  ⟨h.toRecorded.gentle hcommand, h.has.gentle hcommand,
    fun hs => (gentle_other hcommand backupOf_ne_nameOf).trans (h.free hs)⟩

theorem Away.gentle (h : Away site s id w) (hcommand : Gentle s command) :
    Away site s id (performed d w command) := by
  obtain ⟨k, hk, hid⟩ := h.has
  refine ⟨h.toRecorded.gentle hcommand,
    ⟨k, (gentle_other hcommand backupOf_ne_nameOf).trans hk, hid⟩, fun j hj => ?_⟩
  obtain ⟨c, hc, hcid⟩ := gentle_same hcommand hj
  rw [gentle_created hcommand, ← hcid]
  exact h.other c hc

/-- What is created gets an id of its own. -/
theorem Away.create {args : List String} (h : Away site s id w) (hargs : nameIn args = nameOf s)
    (hpossible : possible d w (.create args)) : Away site s id (performed d w (.create args)) := by
  obtain ⟨k, hk, hid⟩ := h.has
  obtain ⟨-, hfresh⟩ := hpossible
  refine ⟨⟨⟨h.sound.named, fun n gone hgone => ?_⟩, h.file, h.ready⟩, ⟨k, ?_, hid⟩, fun j hj => ?_⟩
  · exact (h.sound.spares n gone hgone).imp_right fun hmem =>
      ⟨hmem.1, hmem.2.1, List.mem_cons_of_mem _ hmem.2.2⟩
  · refine Eq.trans (set_other ?_) hk
    rw [hargs]
    exact backupOf_ne_nameOf
  · dsimp only [performed] at hj
    rw [hargs] at hj
    obtain rfl := Option.some.inj ((set_same _ _ _).symm.trans hj)
    exact ⟨fun heq => hfresh _ k hk (hid.trans heq.symm), List.mem_cons_self⟩

theorem Away.rm (h : Away site s id w) : Away site s id (performed d w (.rm (nameOf s))) := by
  obtain ⟨k, hk, hid⟩ := h.has
  refine ⟨⟨⟨h.sound.named, fun n gone hgone => ?_⟩, h.file, h.ready⟩,
    ⟨k, (set_other backupOf_ne_nameOf).trans hk, hid⟩, fun j hj => ?_⟩
  · rcases List.mem_append.mp hgone with hnew | hold
    · obtain ⟨c, hc, heq⟩ := Option.map_eq_some_iff.mp (Option.mem_toList.mp hnew)
      obtain ⟨rfl, rfl⟩ := Prod.mk.inj heq
      exact Or.inr ⟨rfl, h.other c hc⟩
    · exact h.sound.spares n gone hold
  · have hnone : (performed d w (.rm (nameOf s))).containers (nameOf s) = none := set_same _ _ _
    rw [hnone] at hj
    cases hj

theorem Home.give (h : Home strict site s id w) :
    Away site s id (performed d w (.rename (nameOf s) (backupOf s))) := by
  obtain ⟨k, hk, hid⟩ := h.has
  refine ⟨⟨⟨h.sound.named, h.sound.spares⟩, h.file, h.ready⟩, ⟨k, ?_, hid⟩, fun j hj => ?_⟩
  · exact (set_other backupOf_ne_nameOf).trans ((set_same _ _ _).trans hk)
  · have hnone : (performed d w (.rename (nameOf s) (backupOf s))).containers (nameOf s) = none :=
      set_same _ _ _
    rw [hnone] at hj
    cases hj

theorem Away.back (h : Away site s id w) :
    Home strict site s id (performed d w (.rename (backupOf s) (nameOf s))) := by
  obtain ⟨k, hk, hid⟩ := h.has
  refine ⟨⟨⟨h.sound.named, h.sound.spares⟩, h.file, h.ready⟩, ⟨k, ?_, hid⟩, fun _ => set_same _ _ _⟩
  exact (set_other nameOf_ne_backupOf).trans ((set_same _ _ _).trans hk)

/-! ## Events -/

/-- Before the record is written, a lookup of the backup name fails only where the name is free. -/
def Looks (s : Service) (w : World) (e : Event Request Answer Raised) : Prop :=
  e.request = ⟨.inspect (backupOf s), none⟩ → e.reply.result = .error (.py .calledProcessError) →
    w.containers (backupOf s) = none

variable {A : World → Event Request Answer Raised → Prop} {I : World → Prop}

theorem keeps_docker {Q : World → Except Raised Unit → Prop} (hw : I w)
    (h : ∀ reply, A w ⟨⟨command, undo⟩, reply⟩ → I ((engine d).effect w ⟨⟨command, undo⟩, reply⟩) ∧
      Q ((engine d).effect w ⟨⟨command, undo⟩, reply⟩) (reply.result.map fun _ => ())) :
    (engine d).Keeps A I Q (docker undo command) w := by
  refine (Party.keeps_send (Q := fun s x => Q s (x.map fun _ => ())) hw h).bind (fun s x hs hx => ?_)
    fun s e he => he
  exact ⟨hs, hx⟩

/-- A command that took effect is in one state, one that did not in the other. -/
theorem keeps_took {Q : World → Prop} {I : World → Prop} (hA : ∀ w e, A w e → (engine d).honest w e)
    (hw : I w) (htells : ∀ answer, ¬ tells w false answer command)
    (h : possible d w command → I (performed d w command) ∧ Q (performed d w command)) :
    (engine d).Keeps A I (fun w x => ∀ u, x = .ok u → Q w) (docker undo command) w := by
  refine keeps_docker hw fun reply hreply => ?_
  obtain ⟨hpossible, hanswer, -⟩ := hA _ _ hreply
  dsimp only [engine] at hpossible hanswer ⊢
  split
  · next htook =>
    obtain ⟨hI, hQ⟩ := h (hpossible htook)
    exact ⟨hI, fun _ _ => hQ⟩
  · next htook =>
    refine ⟨hw, fun u hu => ?_⟩
    cases hresult : reply.result with
    | ok answer =>
        rw [Bool.not_eq_true] at htook
        exact absurd (htook ▸ hanswer answer hresult) (htells answer)
    | error e =>
        rw [hresult] at hu
        cases hu

/-- A command that keeps an invariant whether or not it takes effect. -/
theorem keeps_either (hA : ∀ w e, A w e → (engine d).honest w e) (hw : I w)
    (h : possible d w command → I (performed d w command)) :
    (engine d).Keeps A I (fun _ _ => True) (docker undo command) w := by
  refine keeps_docker hw fun reply hreply => ⟨?_, trivial⟩
  dsimp only [engine]
  split
  · next htook => exact h ((hA _ _ hreply).1 htook)
  · exact hw

/-- An answer that shows a container shows the one that has the name. -/
theorem keeps_inspect {Q : World → Except Raised Container → Prop}
    (hA : ∀ w e, A w e → (engine d).honest w e) (hw : I w)
    (hok : ∀ k, w.containers name = some k → Q w (.ok k))
    (herror : ∀ reply e, A w ⟨⟨.inspect name, undo⟩, reply⟩ → reply.result = .error e → Q w (.error e)) :
    (engine d).Keeps A I Q (inspect undo name) w := by
  refine ⟨hw, fun reply hreply => ?_⟩
  rw [effect_quiet (.inspect name)]
  cases hresult : reply.result with
  | error e => exact ⟨hw, herror reply e hreply hresult⟩
  | ok answer =>
      obtain ⟨k, rfl, hk⟩ := (hA _ _ hreply).2.1 answer hresult
      exact ⟨hw, hok k hk⟩

/-- A lookup shows the container that has the name, or nothing. -/
theorem keeps_find {Q : World → Except Raised (Option Container) → Prop}
    (hA : ∀ w e, A w e → (engine d).honest w e) (hw : I w)
    (hok : ∀ k, w.containers name = some k → Q w (.ok (some k)))
    (hnone : ∀ reply, A w ⟨⟨.inspect name, undo⟩, reply⟩ →
      reply.result = .error (.py .calledProcessError) → Q w (.ok none))
    (herror : ∀ reply e, A w ⟨⟨.inspect name, undo⟩, reply⟩ → reply.result = .error e →
      e ≠ .py .calledProcessError → Q w (.error e)) :
    (engine d).Keeps A I Q (find undo name) w := by
  have hinspect : (engine d).Keeps A I (fun v x => v = w ∧ ((∃ k, x = .ok k ∧
      w.containers name = some k) ∨ ∃ reply e, A w ⟨⟨.inspect name, undo⟩, reply⟩ ∧
      reply.result = .error e ∧ x = .error e)) (inspect undo name) w :=
    keeps_inspect hA hw (fun k hk => ⟨rfl, Or.inl ⟨k, rfl, hk⟩⟩)
      fun reply e hreply he => ⟨rfl, Or.inr ⟨reply, e, hreply, he, rfl⟩⟩
  refine hinspect.attempt_bind fun v x hv hx => ?_
  obtain ⟨rfl, ⟨k, rfl, hk⟩ | ⟨reply, e, hreply, he, rfl⟩⟩ := hx
  · exact ⟨hv, hok k hk⟩
  · by_cases hcalled : e = .py .calledProcessError
    · subst hcalled
      exact ⟨hv, hnone reply hreply he⟩
    · have hraise := herror reply e hreply he hcalled
      split
      · next h => cases h
      · next h => exact absurd (Except.error.inj h) hcalled
      · next h =>
        obtain rfl := Except.error.inj h
        exact ⟨hv, hraise⟩

theorem sends_waitUdpReady {attempts : Nat} :
    Sends (fun r => Quiet r.command ∧ r.undo = undo) (waitUdpReady undo name attempts) := by
  induction attempts with
  | zero => exact .done _
  | succ attempts ih =>
      refine Sends.bind (Sends.attempt (.send ⟨.probe name, rfl⟩)) fun result => ?_
      split
      · exact .done _
      · split
        · exact .raise _
        · exact ih
      · exact .raise _

theorem keeps_quiet {α : Type} {p : Work α} (hp : Sends (fun r => Quiet r.command) p) (hw : I w) :
    (engine d).Keeps A I (fun v _ => v = w) p w :=
  Party.keeps_still hp (fun _ _ h => effect_quiet h) hw

/-- Whatever it is asked for holds of the state that a quiet script leaves as it is. -/
theorem keeps_of_quiet {α : Type} {p : Work α} {Q : World → Except Raised α → Prop}
    (hp : Sends (fun r => Quiet r.command) p) (hw : I w) (hQ : ∀ x, Q w x) :
    (engine d).Keeps A I Q p w :=
  (keeps_quiet hp hw).mono (fun _ h => h) fun _ x _ h => h ▸ hQ x

theorem keeps_waitUdpReady {Q : World → Except Raised Unit → Prop} {attempts : Nat} (hw : I w)
    (hQ : ∀ x, Q w x) : (engine d).Keeps A I Q (waitUdpReady undo name attempts) w :=
  keeps_of_quiet (sends_waitUdpReady.mono fun _ h => h.1) hw hQ

theorem keeps_found (hA : ∀ w e, A w e → (engine d).honest w e) (hw : I w) :
    (engine d).Keeps A I (fun v x => ∀ k, x = .ok (some k) → v.containers name = some k)
      (find undo name) w := by
  refine keeps_find hA hw (fun k hk j hj => ?_) (fun _ _ _ j hj => ?_) fun _ _ _ _ _ j hj => ?_
  · obtain rfl := Option.some.inj (Except.ok.inj hj)
    exact hk
  · cases hj
  · cases hj

/-! ## `rollback` keeps the original -/

section

variable (hA : ∀ w e, A w e → (engine d).honest w e)

include hA in
theorem away_docker {undo : Option Service} (hw : Away site s id w)
    (hcommand : Gentle s command ∨ command = .rm (nameOf s)) :
    (engine d).Keeps A (Away site s id) (fun _ _ => True) (docker undo command) w := by
  refine keeps_either hA hw fun _ => ?_
  rcases hcommand with hgentle | rfl
  · exact hw.gentle hgentle
  · exact hw.rm

include hA in
theorem home_docker {undo : Option Service} (hw : Home strict site s id w) (hcommand : Gentle s command) :
    (engine d).Keeps A (Home strict site s id) (fun _ _ => True) (docker undo command) w :=
  keeps_either hA hw fun _ => hw.gentle hcommand

/-- A container that has the name and is another is there while the original is away. -/
theorem Staged.away {k : Container} (hw : Staged strict site s id w)
    (hk : w.containers (nameOf s) = some k) (hne : k.id ≠ id) : Away site s id w := by
  refine hw.resolve_left fun hhome => ?_
  obtain ⟨j, hj, hid⟩ := hhome.has
  obtain rfl := Option.some.inj (hk.symm.trans hj)
  exact hne hid

theorem Staged.home {k : Container} (hw : Staged strict site s id w)
    (hk : w.containers (nameOf s) = some k) (hid : k.id = id) : Home strict site s id w :=
  hw.resolve_right fun haway => (haway.other k hk).1 hid

include hA in
theorem staged_clear {current : Option Container} (hw : Staged strict site s id w)
    (hcurrent : ∀ k, current = some k → w.containers (nameOf s) = some k) :
    (engine d).Keeps A (Staged strict site s id) (fun _ _ => True) (clear s id current) w := by
  unfold clear
  split
  · exact ⟨hw, trivial⟩
  · next live =>
    split
    · exact ⟨hw, trivial⟩
    · next hne =>
      have haway := hw.away (hcurrent live rfl) hne
      refine Party.Keeps.mono (I := Away site s id) (Q := fun _ _ => True) ?_ (fun _ h => Or.inr h)
        fun _ _ _ h => h
      refine (away_docker hA haway (Or.inl (.update _))).bind (fun w _ hw _ => ?_) fun _ _ _ => trivial
      refine Party.Keeps.bind (Q := fun _ _ => True) ?_
        (fun w _ hw _ => away_docker hA hw (Or.inr rfl)) fun _ _ _ => trivial
      split
      · exact away_docker hA hw (Or.inl .stop)
      · exact ⟨hw, trivial⟩

include hA in
/-- The rename takes effect only where the name is free, and then the original is away. -/
theorem staged_giveBack {service : Service} {original : Option Container}
    (hw : Staged strict site s id w) :
    (engine d).Keeps A (Staged strict site s id) (fun _ _ => True)
      (giveBack s ⟨service, id, backupOf s⟩ original) w := by
  unfold giveBack
  split
  · exact ⟨hw, trivial⟩
  · split
    · exact ⟨hw, trivial⟩
    · refine keeps_either hA hw fun hpossible => ?_
      rcases hw with hhome | haway
      · obtain ⟨k, hk, -⟩ := hhome.has
        rw [hpossible.2] at hk
        cases hk
      · exact Or.inl haway.back

include hA in
theorem staged_restart (hw : Staged strict site s id w) :
    (engine d).Keeps A (Staged strict site s id) (fun _ _ => True) (restart s id) w := by
  have hinspect : ∀ {v : World}, Staged strict site s id v → (engine d).Keeps A (Staged strict site s id)
      (fun v x => ∀ k, x = .ok k → v.containers (nameOf s) = some k) (inspect (some s) (nameOf s)) v := by
    intro v hv
    refine keeps_inspect hA hv (fun k hk j hj => ?_) fun _ _ _ _ j hj => ?_
    · obtain rfl := Except.ok.inj hj
      exact hk
    · cases hj
  refine (hinspect hw).bind (fun w restored hw hrestored => ?_) fun _ _ _ => trivial
  split
  · exact ⟨hw, trivial⟩
  · next hid =>
    have hhome := hw.home (hrestored restored rfl) (not_not.mp hid)
    refine Party.Keeps.mono (I := Home strict site s id) (Q := fun _ _ => True) ?_ (fun _ h => Or.inl h)
      fun _ _ _ h => h
    have hstart : (engine d).Keeps A (Home strict site s id) (fun _ _ => True)
        (if restored.running then .done () else docker (some s) (.start (nameOf s))) w := by
      split
      · exact ⟨hhome, trivial⟩
      · exact home_docker hA hhome .start
    refine hstart.bind (fun w _ hw _ => ?_) fun _ _ _ => trivial
    refine (home_docker hA hw (.update _)).bind (fun w _ hw _ => ?_) fun _ _ _ => trivial
    refine Party.Keeps.bind (Q := fun _ _ => True) (keeps_inspect hA hw (fun _ _ => trivial)
      fun _ _ _ _ => trivial) (fun w live hw _ => ?_) fun _ _ _ => trivial
    split
    · split
      · exact keeps_waitUdpReady hw fun _ => trivial
      · exact ⟨hw, trivial⟩
    · exact ⟨hw, trivial⟩

include hA in
theorem staged_rollback {service : Service} (hw : Staged strict site s id w) :
    (engine d).Keeps A (Staged strict site s id) (fun _ _ => True)
      (rollback s ⟨service, id, backupOf s⟩) w := by
  refine (keeps_found hA hw).bind (fun w current hw hcurrent => ?_) fun _ _ _ => trivial
  refine (staged_clear hA hw fun k hk => hcurrent k (congrArg _ hk)).bind (fun w _ hw _ => ?_)
    fun _ _ _ => trivial
  refine (keeps_found hA hw).bind (fun w original hw _ => ?_) fun _ _ _ => trivial
  exact (staged_giveBack hA hw).bind (fun w _ hw _ => staged_restart hA hw) fun _ _ _ => trivial

/-! ## `--apply` keeps it -/

include hA in
/-- Up to the rename the original is at home, and after it away. -/
theorem staged_replace {args : List String} {digest : String} (hargs : nameIn args = nameOf s)
    (hw : Home strict site s id w) :
    (engine d).Keeps A (Staged strict site s id) (fun _ _ => True) (replace s args digest) w := by
  have hgentle : ∀ {v : World} {command : Command}, Home strict site s id v → Gentle s command →
      (∀ answer, ¬ tells v false answer command) → (engine d).Keeps A (Staged strict site s id)
        (fun v x => ∀ u, x = .ok u → Home strict site s id v) (docker none command) v := by
    intro v command hv hcommand htells
    refine (keeps_docker (Q := fun v _ => Home strict site s id v) hv fun reply _ => ?_).mono
      (fun _ h => Or.inl h) fun _ _ _ h _ _ => h
    have hhome : Home strict site s id ((engine d).effect v ⟨⟨command, none⟩, reply⟩) := by
      dsimp only [engine]
      split
      · exact hv.gentle hcommand
      · exact hv
    exact ⟨hhome, hhome⟩
  refine (hgentle hw (.update _) fun _ h => by cases h).bind (fun w u _ hw => ?_) fun _ _ _ => trivial
  refine (hgentle (hw u rfl) .stop fun _ h => by cases h).bind (fun w u _ hw => ?_) fun _ _ _ => trivial
  have hrename : (engine d).Keeps A (Staged strict site s id)
      (fun v x => ∀ u, x = .ok u → Away site s id v)
      (docker none (.rename (nameOf s) (backupOf s))) w :=
    keeps_took hA (Or.inl (hw u rfl)) (fun _ h => by cases h)
      fun _ => ⟨Or.inr (hw u rfl).give, (hw u rfl).give⟩
  refine hrename.bind (fun w u _ hw => ?_) fun _ _ _ => trivial
  refine Party.Keeps.mono (I := Away site s id) (Q := fun _ _ => True) ?_ (fun _ h => Or.inr h)
    fun _ _ _ h => h
  refine (keeps_either hA (hw u rfl) fun h => (hw u rfl).create hargs h).bind (fun w _ hw _ => ?_)
    fun _ _ _ => trivial
  have hconnect : (engine d).Keeps A (Away site s id) (fun _ _ => True)
      (if s = .apisix then docker none (.connect "ouf-backend" (nameOf s)) else .done ()) w := by
    split
    · exact away_docker hA hw (Or.inl (.connect _))
    · exact ⟨hw, trivial⟩
  refine hconnect.bind (fun w _ hw _ => ?_) fun _ _ _ => trivial
  refine (away_docker hA hw (Or.inl .start)).bind (fun w _ hw _ => ?_) fun _ _ _ => trivial
  refine Party.Keeps.bind (Q := fun _ _ => True) (keeps_inspect hA hw (fun _ _ => trivial)
    fun _ _ _ _ => trivial) (fun w current hw _ => ?_) fun _ _ _ => trivial
  split
  · exact ⟨hw, trivial⟩
  · split
    · exact keeps_waitUdpReady hw fun _ => trivial
    · exact ⟨hw, trivial⟩

include hA in
theorem staged_stage {service : Service} {args : List String} {digest : String}
    (hargs : nameIn args = nameOf s) (hw : Home strict site s id w) :
    (engine d).Keeps A (Staged strict site s id) (fun _ _ => True)
      (stage s ⟨service, id, backupOf s⟩ args digest) w := by
  refine (staged_replace hA hargs hw).handle (fun _ _ _ => trivial) fun w e hw _ => ?_
  split
  · exact (staged_rollback hA hw).bind (fun w _ hw _ => ⟨hw, trivial⟩) fun _ _ _ => trivial
  · exact ⟨hw, trivial⟩

end

/-! ### What is computed -/

theorem mapError_eq_ok {ε ε' α : Type} {f : ε → ε'} {x : Except ε α} {a : α} :
    x.mapError f = .ok a ↔ x = .ok a := by
  cases x <;> simp [Except.mapError]

/-- What is computed leaves the state as it is. -/
theorem keeps_compute {α : Type} {x : Run α} (hw : I w) :
    (engine d).Keeps A I (fun v y => v = w ∧ ∀ a, y = .ok a → x = .ok a) (compute x) w :=
  Party.keeps_ofExcept hw ⟨rfl, fun _ ha => mapError_eq_ok.mp ha⟩

theorem ready_of_originalOf {original : Json} (h : originalOf site s = .ok original) :
    checkPrivate site.host site.candidate 0o700 0 0 = .ok () := by
  obtain ⟨old, hold, -⟩ := bind_eq_ok.mp h
  obtain ⟨_, -, hold⟩ := bind_eq_ok.mp hold
  obtain ⟨_, -, hold⟩ := bind_eq_ok.mp hold
  obtain ⟨_, hready, -⟩ := bind_eq_ok.mp hold
  exact hready

theorem nameIn_createArgs {original : Json} {args : List String}
    (h : createArgs site s original = .ok args) : nameIn args = nameOf s := by
  simp only [createArgs, bind_eq_ok] at h
  obtain ⟨_, -, _, -, _, -, _, -, _, -, _, -, _, -, _, -, _, -, _, -, _, -, _, -, _, -, _, -, _, -, h⟩ := h
  obtain rfl := Except.ok.inj h
  rfl

theorem eqv_str {j : Json} {x : String} (h : j.eqv (.str x) = true) : j = .str x := by
  cases j <;> simp_all [Json.eqv, Json.number?]

theorem id_of_checkLive {original : Json} {k : Container} (h : checkLive original k = .ok ()) :
    item original "Id" = .ok (.str k.id) ∧ k.running = true := by
  obtain ⟨j, hj, h⟩ := bind_eq_ok.mp h
  unfold blockIf at h
  split at h
  · cases h
  · next hcond =>
    simp only [Bool.or_eq_true, Bool.not_eq_true', not_or, Bool.not_eq_false] at hcond
    exact ⟨hj.trans (congrArg _ (eqv_str hcond.1)), hcond.2⟩

section

variable (hA : ∀ w e, A w e → (engine d).honest w e)

include hA in
/-- What `validate` accepts is live, and the candidate is created under its name. -/
theorem keeps_validate {original : Json} {changes : Bool} (hw : I w) :
    (engine d).Keeps A I (fun v x => v = w ∧ ∀ launch, x = .ok launch →
      (∃ k, w.containers (nameOf s) = some k ∧ checkLive original k = .ok ()) ∧
        nameIn launch.1 = nameOf s) (validate site s original changes) w := by
  have hinspect : (engine d).Keeps A I (fun v x => v = w ∧ ∀ k, x = .ok k →
      w.containers (nameOf s) = some k) (inspect none (nameOf s)) w := by
    refine keeps_inspect hA hw (fun k hk => ⟨rfl, fun j hj => ?_⟩) fun _ _ _ _ => ⟨rfl, fun j hj => ?_⟩
    · obtain rfl := Except.ok.inj hj
      exact hk
    · cases hj
  refine hinspect.bind (fun v current hv hcurrent => ?_) fun v e he => ⟨he.1, by intro _ h; cases h⟩
  obtain ⟨rfl, hcurrent⟩ := hcurrent
  refine (keeps_compute hv).bind (fun v u hv hlive => ?_) fun v e he => ⟨he.1, by intro _ h; cases h⟩
  obtain ⟨rfl, hlive⟩ := hlive
  have hudp : (engine d).Keeps A I (fun v' _ => v' = v) (if s = .apisix ∧ changes then
      (inspect none (nameOf .udp)).bind fun udp => compute (checkUdp udp) else .done ()) v := by
    split
    · refine Party.Keeps.bind (Q := fun v' _ => v' = v) (keeps_inspect hA hv (fun _ _ => rfl)
        fun _ _ _ _ => rfl) (fun v' udp hv' h => ?_) fun _ _ h => h
      subst h
      exact (keeps_compute hv').mono (fun _ h => h) fun _ _ _ h => h.1
    · exact ⟨hv, rfl⟩
  refine hudp.bind (fun v' _ hv' h => ?_) fun v e he => ⟨he, by intro _ h; cases h⟩
  subst h
  refine (keeps_compute hv').bind (fun v u hv h => ?_) fun v e he => ⟨he.1, by intro _ h; cases h⟩
  obtain rfl := h.1
  have himage : (engine d).Keeps A I (fun v' _ => v' = v) (inspectImage (images s).1) v := by
    refine keeps_of_quiet ?_ hv fun _ => rfl
    refine Sends.bind (.send (.imageInspect _)) fun answer => ?_
    cases answer with
    | image id config => exact .done _
    | _ => exact .raise _
  refine himage.bind (fun v' image hv' h => ?_) fun v e he => ⟨he, by intro _ h; cases h⟩
  subst h
  refine (keeps_compute hv').bind (fun v u hv h => ?_) fun v e he => ⟨he.1, by intro _ h; cases h⟩
  obtain rfl := h.1
  refine (keeps_compute hv).bind (fun v args hv hargs => ?_) fun v e he => ⟨he.1, by intro _ h; cases h⟩
  obtain ⟨rfl, hargs⟩ := hargs
  refine ⟨hv, rfl, fun launch hlaunch => ?_⟩
  obtain rfl := Except.ok.inj hlaunch
  exact ⟨⟨current, hcurrent current rfl, hlive () rfl⟩, nameIn_createArgs (hargs args rfl)⟩

include hA in
/-- The record of a container that runs under its name. -/
theorem kept_saveState (hw : Pristine strict s id w)
    (hready : checkPrivate site.host site.candidate 0o700 0 0 = .ok ())
    (hfree : strict → w.containers (backupOf s) = none) :
    (engine d).Keeps A (Kept strict site s id) (fun v x => ∀ u, x = .ok u → Home strict site s id v)
      (saveState s ⟨s, id, backupOf s⟩) w := by
  have hopened : ∀ v, v = w ∨ v = w.setFile s none → Pristine strict s id v ∧
      (strict → v.containers (backupOf s) = none) := by
    intro v hv
    rcases hv with rfl | rfl
    · exact ⟨hw, hfree⟩
    · refine ⟨⟨⟨fun t content hc => ?_, hw.sound.spares⟩, fun content hc => ?_, hw.live⟩, hfree⟩
      · by_cases ht : t = s
        · subst ht
          rw [setFile_same] at hc
          cases hc
        · exact hw.sound.named t content ((setFile_other ht).symm.trans hc)
      · rw [setFile_same] at hc
        cases hc
  have hopen : (engine d).Keeps A (Kept strict site s id) (fun v _ => v = w ∨ v = w.setFile s none)
      (docker none (.openState s)) w := by
    refine keeps_docker (Or.inl hw) fun reply _ => ?_
    dsimp only [engine]
    split
    · exact ⟨Or.inl (hopened _ (Or.inr rfl)).1, Or.inr rfl⟩
    · exact ⟨Or.inl hw, Or.inl rfl⟩
  refine hopen.bind (fun v _ _ hv => ?_) fun v e _ u hu => by cases hu
  obtain ⟨hpristine, hbackup⟩ := hopened v hv
  refine keeps_took hA (Or.inl hpristine) (fun _ h => by cases h) fun _ => ?_
  have hhome : Home strict site s id (v.setFile s (some ⟨s, id, backupOf s⟩)) := by
    obtain ⟨k, hk, hid, -⟩ := hpristine.live
    refine ⟨⟨⟨fun t content hc => ?_, hpristine.sound.spares⟩, setFile_same _ _ _, hready⟩,
      ⟨k, hk, hid⟩, hbackup⟩
    by_cases ht : t = s
    · subst ht
      rw [setFile_same] at hc
      obtain rfl := Option.some.inj (Option.some.inj hc)
      rfl
    · exact hpristine.sound.named t content ((setFile_other ht).symm.trans hc)
  exact ⟨Or.inr (Or.inl hhome), hhome⟩

include hA in
theorem kept_checkBackup (hL : ∀ w e, A w e → strict → Looks s w e) (hw : I w) :
    (engine d).Keeps A I (fun v x => v = w ∧ ∀ u, x = .ok u → strict → w.containers (backupOf s) = none)
      (checkBackup s) w := by
  have hfind : (engine d).Keeps A I (fun v x => v = w ∧ (x = .ok none → strict →
      w.containers (backupOf s) = none)) (find none (backupOf s)) w := by
    refine keeps_find hA hw (fun k _ => ⟨rfl, fun h => by cases h⟩) (fun reply hreply hcalled =>
      ⟨rfl, fun _ hs => hL _ _ hreply hs rfl hcalled⟩) fun _ _ _ _ _ => ⟨rfl, fun h => by cases h⟩
  refine hfind.bind (fun v found hv h => ?_) fun v e he => ⟨he.1, by intro _ h; cases h⟩
  cases found with
  | none => exact ⟨hv, h.1, fun _ _ => h.2 rfl⟩
  | some k => exact ⟨hv, h.1, by intro _ h; cases h⟩

include hA in
theorem kept_apply {changes : Bool} (hL : ∀ w e, A w e → strict → Looks s w e)
    (hw : Kept strict site s id w) :
    (engine d).Keeps A (Kept strict site s id) (fun _ _ => True) (apply site s changes) w := by
  refine (keeps_compute hw).bind (fun v original hw horiginal => ?_) fun _ _ _ => trivial
  have hready := ready_of_originalOf (horiginal.2 original rfl)
  refine (keeps_validate hA hw).bind (fun v launch hw hlaunch => ?_) fun _ _ _ => trivial
  obtain ⟨rfl, hlaunch⟩ := hlaunch
  obtain ⟨⟨k, hk, hlive⟩, hargs⟩ := hlaunch launch rfl
  have hexists : (engine d).Keeps A (Kept strict site s id)
      (fun v' x => v' = v ∧ (x = .ok (.flag false) → v.files s = none))
      (Script.send ⟨.stateExists s, none⟩) v := by
    refine Party.keeps_send hw fun reply hreply => ?_
    rw [effect_quiet (.stateExists s)]
    refine ⟨hw, rfl, fun hresult => ?_⟩
    have hflag : Answer.flag false = .flag (v.files s).isSome := (hA _ _ hreply).2.1 _ hresult
    exact Option.isSome_eq_false_iff.mp (Answer.flag.inj hflag).symm |> Option.isNone_iff_eq_none.mp
  refine hexists.bind (fun v' answer hw h => ?_) fun _ _ _ => trivial
  obtain ⟨rfl, hfile⟩ := h
  split
  · split
    · have hnone := hfile rfl
      -- without a record the original is as it was found
      have hpristine : Pristine strict s id v' := by
        refine hw.resolve_right fun hstaged => ?_
        have hsome := hstaged.elim (fun h => h.file) fun h => h.file
        rw [hnone] at hsome
        cases hsome
      refine (kept_checkBackup hA hL hw).bind (fun v _ hw hfree => ?_) fun _ _ _ => trivial
      obtain ⟨rfl, hfree⟩ := hfree
      refine (keeps_compute hw).bind (fun v oldId hw hid => ?_) fun _ _ _ => trivial
      obtain ⟨rfl, hid⟩ := hid
      have hold : oldId = id := by
        obtain ⟨j, hj, htext⟩ := bind_eq_ok.mp (hid oldId rfl)
        obtain rfl := Except.ok.inj ((id_of_checkLive hlive).1.symm.trans hj)
        obtain ⟨c, hc, hcid, -⟩ := hpristine.live
        obtain rfl := Option.some.inj (hk.symm.trans hc)
        exact (Except.ok.inj htext).symm.trans hcid
      subst hold
      refine (kept_saveState hA hpristine hready fun hs => hfree () rfl hs).bind
        (fun v _ hw hhome => ?_) fun _ _ _ => trivial
      exact (staged_stage hA hargs (hhome () rfl)).mono (fun _ h => Or.inr h) fun _ _ _ h => h
    · exact ⟨hw, trivial⟩
  · exact ⟨hw, trivial⟩
  · exact ⟨hw, trivial⟩

end

/-! ## What a script of a service sends -/

/-- Commands of a service, sent by its `rollback` or not. -/
abbrev Own (t : Service) (undo : Option Service) (r : Request) : Prop :=
  Within t r.command ∧ r.undo = undo

variable {P : Request → Prop}

theorem sends_docker (h : P ⟨command, undo⟩) : Sends P (docker undo command) :=
  Sends.bind (.send h) fun _ => .done _

theorem sends_inspect (h : P ⟨.inspect name, undo⟩) : Sends P (inspect undo name) := by
  refine Sends.bind (.send h) fun answer => ?_
  cases answer with
  | live k => exact .done k
  | _ => exact .raise _

theorem sends_find (h : P ⟨.inspect name, undo⟩) : Sends P (find undo name) := by
  refine Sends.bind (sends_inspect h).attempt fun result => ?_
  split
  · exact .done _
  · exact .done _
  · exact .raise _

theorem sends_compute {α : Type} {x : Run α} : Sends P (compute x) := .ofExcept _

theorem sends_rollback {state : State} (hP : ∀ r, Own t (some t) r → P r)
    (hback : P ⟨.rename state.backup (nameOf t), some t⟩) : Sends P (rollback t state) := by
  have hquiet : ∀ n, P ⟨.inspect n, some t⟩ := fun n => hP _ ⟨.quiet (.inspect n), rfl⟩
  have hgentle : ∀ {command : Command}, Gentle t command → P ⟨command, some t⟩ :=
    fun h => hP _ ⟨.gentle h, rfl⟩
  refine (sends_find (hquiet _)).bind fun current => Sends.bind ?_ fun _ =>
    (sends_find (hquiet _)).bind fun original => Sends.bind ?_ fun _ =>
      (sends_inspect (hquiet _)).bind fun restored => ?_
  · unfold clear
    split
    · exact .done _
    · split
      · exact .done _
      · refine (sends_docker (hgentle (.update _))).bind fun _ => Sends.bind ?_ fun _ =>
          sends_docker (hP _ ⟨.rm, rfl⟩)
        split
        · exact sends_docker (hgentle .stop)
        · exact .done _
  · unfold giveBack
    split
    · exact .done _
    · split
      · exact .raise _
      · exact sends_docker hback
  · split
    · exact .raise _
    · refine Sends.bind ?_ fun _ => (sends_docker (hgentle (.update _))).bind fun _ =>
        (sends_inspect (hquiet _)).bind fun live => ?_
      · split
        · exact .done _
        · exact sends_docker (hgentle .start)
      · split
        · split
          · exact sends_waitUdpReady.mono fun r h => hP r ⟨.quiet h.1, h.2⟩
          · exact .done _
        · exact .raise _

theorem sends_replace {args : List String} {digest : String} (hP : ∀ r, Own t none r → P r)
    (hcreate : P ⟨.create args, none⟩) : Sends P (replace t args digest) := by
  have hgentle : ∀ {command : Command}, Gentle t command → P ⟨command, none⟩ :=
    fun h => hP _ ⟨.gentle h, rfl⟩
  refine (sends_docker (hgentle (.update _))).bind fun _ => (sends_docker (hgentle .stop)).bind fun _ =>
    (sends_docker (hP _ ⟨.give, rfl⟩)).bind fun _ => (sends_docker hcreate).bind fun _ =>
      Sends.bind ?_ fun _ => (sends_docker (hgentle .start)).bind fun _ =>
        (sends_inspect (hP _ ⟨.quiet (.inspect _), rfl⟩)).bind fun current => ?_
  · split
    · exact sends_docker (hgentle (.connect _))
    · exact .done _
  · split
    · exact .raise _
    · split
      · exact sends_waitUdpReady.mono fun r h => hP r ⟨.quiet h.1, h.2⟩
      · exact .done _

theorem sends_saveState {state : State} (h : state.backup = backupOf t) :
    Sends (Own t none) (saveState t state) :=
  (sends_docker ⟨.openState, rfl⟩).bind fun _ => sends_docker ⟨.writeState h, rfl⟩

theorem sends_checkBackup : Sends (Own t none) (checkBackup t) := by
  refine (sends_find ⟨.quiet (.inspect _), rfl⟩).bind fun found => ?_
  cases found with
  | none => exact .done _
  | some k => exact .raise _

theorem sends_readState {service : Service} :
    Sends (fun r => Quiet r.command ∧ r.undo = none) (readState service) := by
  refine Sends.bind (.send ⟨.readState service, rfl⟩) fun answer => ?_
  cases answer with
  | state content => exact .done _
  | _ => exact .raise _

theorem sends_apisixFirst : Sends (fun r => Quiet r.command ∧ r.undo = none) apisixFirst := by
  refine Sends.handle (sends_readState.bind fun api => ?_) fun e => ?_
  · refine (sends_inspect ⟨.inspect _, rfl⟩).bind fun live => ?_
    split
    · exact .raise _
    · exact .done _
  · split
    · exact .done _
    · exact .raise _

/-! ## The runs of the other service -/

/-- What the other service leaves as it is. -/
structure Frame (s : Service) (v w : World) : Prop where
  name : w.containers (nameOf s) = v.containers (nameOf s)
  backup : w.containers (backupOf s) = v.containers (backupOf s)
  file : w.files s = v.files s
  created : v.created ⊆ w.created
  removed : ∀ n gone, (n, gone) ∈ w.removed → (n, gone) ∈ v.removed ∨ ∃ t ≠ s, n = nameOf t
  named : (∀ t content, v.files t = some (some content) → content.backup = backupOf t) →
    ∀ t content, w.files t = some (some content) → content.backup = backupOf t

theorem frame_refl (w : World) : Frame s w w :=
  ⟨rfl, rfl, rfl, fun _ h => h, fun _ _ h => Or.inl h, fun h => h⟩

theorem frame_set {other : String} {k : Option Container} (hname : nameOf s ≠ other)
    (hbackup : backupOf s ≠ other) : Frame s w (w.set other k) :=
  ⟨set_other hname, set_other hbackup, rfl, fun _ h => h, fun _ _ h => Or.inl h, fun h => h⟩

theorem Frame.trans {u v w : World} (h : Frame s u v) (h' : Frame s v w) : Frame s u w := by
  refine ⟨h'.name.trans h.name, h'.backup.trans h.backup, h'.file.trans h.file,
    fun _ hx => h'.created (h.created hx), fun n gone hx => ?_, fun hn => h'.named (h.named hn)⟩
  exact (h'.removed n gone hx).elim (h.removed n gone) Or.inr

theorem frame_setFile {content : Option State} (ht : t ≠ s)
    (h : ∀ c, content = some c → c.backup = backupOf t) : Frame s w (w.setFile t content) := by
  refine ⟨rfl, rfl, setFile_other ht.symm, fun _ h => h, fun _ _ h => Or.inl h, fun hn u c hc => ?_⟩
  by_cases hu : u = t
  · subst hu
    rw [setFile_same] at hc
    exact h c (Option.some.inj hc)
  · exact hn u c ((setFile_other hu).symm.trans hc)

theorem frame_within (ht : t ≠ s) (h : Within t command) : Frame s w (performed d w command) := by
  have hname : nameOf s ≠ nameOf t := fun heq => ht (nameOf_inj.mp heq).symm
  have hbackup : backupOf s ≠ backupOf t := fun heq => ht (backupOf_inj.mp heq).symm
  have hset : ∀ {v : World} (k : Option Container), Frame s v (v.set (nameOf t) k) :=
    fun k => frame_set hname backupOf_ne_nameOf
  have hmoved : ∀ {v : World} (k : Option Container), Frame s v (v.set (backupOf t) k) :=
    fun k => frame_set nameOf_ne_backupOf hbackup
  cases h with
  | quiet h => cases h <;> exact frame_refl w
  | gentle h =>
      cases h with
      | connect => exact frame_refl w
      | _ => exact hset _
  | give => exact (hmoved _).trans (hset none)
  | back => exact (hset _).trans (hmoved none)
  | @create args h =>
      have hnew := hset (v := w) (some ⟨d.newId w, d.imageId (args.getLast?.getD ""), false,
        "unless-stopped"⟩)
      refine hnew.trans ?_
      dsimp only [performed]
      rw [h]
      exact ⟨rfl, rfl, rfl, fun _ => List.mem_cons_of_mem _, fun _ _ => Or.inl, fun h => h⟩
  | rm =>
      refine (hset none).trans ⟨rfl, rfl, rfl, fun _ h => h, fun n gone hgone => ?_, fun h => h⟩
      rcases List.mem_append.mp hgone with hnew | hold
      · obtain ⟨c, -, heq⟩ := Option.map_eq_some_iff.mp (Option.mem_toList.mp hnew)
        exact Or.inr ⟨t, ht, (Prod.mk.inj heq).1.symm⟩
      · exact Or.inl hold
  | openState => exact frame_setFile ht fun c hc => by cases hc
  | writeState h =>
      refine frame_setFile ht fun c hc => ?_
      obtain rfl := Option.some.inj hc
      exact h

theorem Sound.frame {v : World} (h : Sound s id v) (hf : Frame s v w) : Sound s id w := by
  refine ⟨hf.named h.named, fun n gone hgone => ?_⟩
  rcases hf.removed n gone hgone with hold | hother
  · exact (h.spares n gone hold).imp_right fun hx => ⟨hx.1, hx.2.1, hf.created hx.2.2⟩
  · exact Or.inl hother

theorem Kept.frame {v : World} (h : Kept strict site s id v) (hf : Frame s v w) :
    Kept strict site s id w := by
  have hhas : ∀ {n : String}, w.containers n = v.containers n → Has v n id → Has w n id := by
    intro n heq hn
    obtain ⟨k, hk, hid⟩ := hn
    exact ⟨k, heq.trans hk, hid⟩
  rcases h with h | h | h
  · obtain ⟨k, hk, hrest⟩ := h.live
    exact Or.inl ⟨h.sound.frame hf, fun c hc => h.file c (hf.file ▸ hc), k, hf.name.trans hk, hrest⟩
  · exact Or.inr (Or.inl ⟨⟨h.sound.frame hf, hf.file.trans h.file, h.ready⟩, hhas hf.name h.has,
      fun hs => hf.backup.trans (h.free hs)⟩)
  · refine Or.inr (Or.inr ⟨⟨h.sound.frame hf, hf.file.trans h.file, h.ready⟩, hhas hf.backup h.has,
      fun k hk => ?_⟩)
    obtain ⟨hne, hmem⟩ := h.other k (hf.name ▸ hk)
    exact ⟨hne, hf.created hmem⟩

theorem frame_effect {e : Event Request Answer Raised} (ht : t ≠ s) (h : Within t e.request.command) :
    Frame s w ((engine d).effect w e) := by
  dsimp only [engine]
  split
  · exact frame_within ht h
  · exact frame_refl w

/-- A script of the other service keeps what a frame keeps. -/
theorem keeps_frame {α : Type} {p : Work α} (ht : t ≠ s) (hp : Sends (Own t undo) p)
    (hI : ∀ v w, I v → Frame s v w → I w) (hw : I w) :
    (engine d).Keeps A I (fun _ _ => True) p w := by
  induction hp generalizing w with
  | done x => exact ⟨hw, trivial⟩
  | raise e => exact ⟨hw, trivial⟩
  | ask h _ ih => exact ⟨hw, fun reply _ => ih reply.result (hI _ _ hw (frame_effect ht h.1))⟩

/-! ## One run -/

section

variable (hA : ∀ w e, A w e → (engine d).honest w e)

include hA in
/-- A record that is read is the one that is there. -/
theorem keeps_readState (hw : I w) : (engine d).Keeps A I (fun v x => v = w ∧ ∀ content,
    x = .ok content → w.files s = some (some content)) (readState s) w := by
  refine ⟨hw, fun reply hreply => ?_⟩
  rw [effect_quiet (.readState s)]
  cases hresult : reply.result with
  | error e => exact ⟨hw, rfl, fun _ h => by cases h⟩
  | ok answer =>
      obtain ⟨content, rfl, hfile⟩ := (hA _ _ hreply).2.1 answer hresult
      refine ⟨hw, rfl, fun c hc => ?_⟩
      obtain rfl := Except.ok.inj hc
      exact hfile

include hA in
theorem kept_takeBack (hw : Kept strict site s id w) :
    (engine d).Keeps A (Kept strict site s id) (fun _ _ => True) (takeBack site s) w := by
  refine (keeps_compute hw).bind (fun v _ hw _ => ?_) fun _ _ _ => trivial
  refine (keeps_readState hA hw).bind (fun v content hw h => ?_) fun _ _ _ => trivial
  obtain ⟨rfl, hfile⟩ := h
  have hfile := hfile content rfl
  split
  · exact ⟨hw, trivial⟩
  · have hstaged : Staged strict site s id v := hw.resolve_left fun h => h.file content hfile
    have hrecord := hstaged.elim (fun h => h.file) fun h => h.file
    obtain rfl := Option.some.inj (Option.some.inj (hfile.symm.trans hrecord))
    have hfirst : (engine d).Keeps A (Staged strict site s id) (fun _ _ => True)
        (if s = .udp then apisixFirst else .done ()) v := by
      split
      · exact keeps_of_quiet (sends_apisixFirst.mono fun _ h => h.1) hstaged fun _ => trivial
      · exact ⟨hstaged, trivial⟩
    exact (hfirst.bind (fun v _ hw _ => staged_rollback hA hw) fun _ _ _ => trivial).mono
      (fun _ h => Or.inr h) fun _ _ _ h => h

include hA in
/-- A run of the other service keeps what a frame keeps, if it keeps the records as they are. -/
theorem keeps_other {euid : Nat} {mode : Mode} (ht : t ≠ s) (hI : ∀ v w, I v → Frame s v w → I w)
    (hnamed : ∀ w, I w → ∀ content, w.files t = some (some content) → content.backup = backupOf t)
    (hw : I w) : (engine d).Keeps A I (fun _ _ => True) (main site euid t mode) w := by
  have hframe : ∀ {α : Type} {p : Work α} {undo : Option Service} {v : World}, I v →
      Sends (Own t undo) p → (engine d).Keeps A I (fun _ _ => True) p v :=
    fun hv hp => keeps_frame ht hp hI hv
  have happly : ∀ changes, (engine d).Keeps A I (fun _ _ => True) (apply site t changes) w := by
    intro changes
    refine (keeps_compute hw).bind (fun v original hw _ => ?_) fun _ _ _ => trivial
    refine (keeps_validate hA hw).bind (fun v launch hw h => ?_) fun _ _ _ => trivial
    have hargs := (h.2 launch rfl).2
    have hexists : Sends (Own t none) (Script.send ⟨.stateExists t, none⟩ : Work Answer) :=
      .send ⟨.quiet (.stateExists t), rfl⟩
    refine (hframe hw hexists).bind (fun v answer hw _ => ?_) fun _ _ _ => trivial
    split
    · split
      · refine (hframe hw sends_checkBackup).bind (fun v _ hw _ => ?_) fun _ _ _ => trivial
        refine (keeps_compute hw).bind (fun v oldId hw _ => ?_) fun _ _ _ => trivial
        refine (hframe hw (sends_saveState rfl)).bind (fun v _ hw _ => ?_) fun _ _ _ => trivial
        refine (hframe hw (sends_replace (fun _ h => h) ⟨.create hargs, rfl⟩)).handle (fun _ _ _ => trivial) fun v e hw _ => ?_
        split
        · exact (hframe hw (sends_rollback (fun _ h => h) ⟨.back, rfl⟩)).bind
            (fun v _ hw _ => ⟨hw, trivial⟩) fun _ _ _ => trivial
        · exact ⟨hw, trivial⟩
      · exact ⟨hw, trivial⟩
    · exact ⟨hw, trivial⟩
    · exact ⟨hw, trivial⟩
  have htakeBack : (engine d).Keeps A I (fun _ _ => True) (takeBack site t) w := by
    refine (keeps_compute hw).bind (fun v _ hw _ => ?_) fun _ _ _ => trivial
    refine (keeps_readState hA hw).bind (fun v content hw h => ?_) fun _ _ _ => trivial
    have hbackup := hnamed v hw content (h.1 ▸ h.2 content rfl)
    split
    · exact ⟨hw, trivial⟩
    · have hfirst : (engine d).Keeps A I (fun _ _ => True)
          (if t = .udp then apisixFirst else .done ()) v := by
        split
        · exact keeps_of_quiet (sends_apisixFirst.mono fun _ h => h.1) hw fun _ => trivial
        · exact ⟨hw, trivial⟩
      have hback : Own t (some t) ⟨.rename content.backup (nameOf t), some t⟩ := by
        rw [hbackup]
        exact ⟨.back, rfl⟩
      exact hfirst.bind (fun v _ hw _ => hframe hw (sends_rollback (fun _ h => h) hback))
        fun _ _ _ => trivial
  unfold main
  split
  · exact ⟨hw, trivial⟩
  · refine Party.Keeps.handle (Q := fun _ _ => True) ?_ (fun _ _ _ => trivial)
      fun v e hw _ => ⟨hw, trivial⟩
    cases mode with
    | rollback => exact htakeBack
    | apply => exact happly true
    | dryRun => exact happly false

include hA in
/-- One run keeps the original, of whichever service it is and wherever it stops. -/
theorem kept_main {euid : Nat} {mode : Mode} (hL : ∀ w e, A w e → strict → Looks s w e)
    (hw : Kept strict site s id w) :
    (engine d).Keeps A (Kept strict site s id) (fun _ _ => True) (main site euid t mode) w := by
  by_cases ht : t = s
  · subst ht
    unfold main
    split
    · exact ⟨hw, trivial⟩
    · refine Party.Keeps.handle (Q := fun _ _ => True) ?_ (fun _ _ _ => trivial)
        fun v e hw _ => ⟨hw, trivial⟩
      cases mode with
      | rollback => exact kept_takeBack hA hw
      | apply => exact kept_apply hA hL hw
      | dryRun => exact kept_apply hA hL hw
  · exact keeps_other hA ht (fun _ _ h hf => h.frame hf) (fun _ h => h.sound.named t) hw

end

end OufGateway.RolloutRuntime
