import OufGateway.Lib.Except
import OufGateway.Ref.RouteDeploy

/-!
# A failed deployment restores

A deployment reads and saves before it writes: the part up to the snapshot only
sends GETs and the save, so that a write has all of it before it. What is saved is
then the table before the deployment, since nothing was written yet and a GET that
is answered 200 or 404 is honest.

A restore that ends without failures had every one of its requests counted as
done. A DELETE counts for what it is, but a PUT that is answered 404 counts too,
and says nothing about an honest API; a route without members is deleted where it
should be put back; and a restore can be interrupted. `Restorable` leaves these
three out, and then each route that is gone through holds its snapshot value.
-/

namespace OufGateway.RouteDeploy

open Lib
open Lib.Script hiding send

abbrev Log := List (Event Request Answer Raised)

variable {t : Table} {log first second : Log} {id : String} {previous : Snapshot}
  {text : String → Int → String} {r : Option (Except Raised Unit)}

/-! ## Writes -/

/-- The id a command may write. -/
def Command.writes : Command → Option String
  | .put id _ => some id
  | .delete id => some id
  | _ => none

def Writes (log : Log) (id : String) : Prop := ∃ e ∈ log, e.request.command.writes = some id

def Quiet (log : Log) : Prop := ∀ e ∈ log, e.request.command.writes = none

theorem writes_append : Writes (first ++ second) id ↔ Writes first id ∨ Writes second id := by
  simp only [Writes, List.mem_append, or_and_right, exists_or]

theorem written_of_ne {c : Command} (h : c.writes ≠ some id) : written t c id = t id := by
  cases c with
  | put i route => exact if_neg fun heq => h (congrArg some heq.symm)
  | delete i => exact if_neg fun heq => h (congrArg some heq.symm)
  | _ => rfl

/-- What no request may have written is as it was. -/
theorem after_frame (h : ¬ Writes log id) : admin.after t log id = t id := by
  refine Party.after_keeps (I := fun s : Table => s id = t id) rfl fun s hs e he => ?_
  dsimp only [admin]
  split
  · exact (written_of_ne fun hw => h ⟨e, he, hw⟩).trans hs
  · exact hs

theorem Quiet.frame (h : Quiet log) : admin.after t log = t := by
  funext id
  refine after_frame fun hw => ?_
  obtain ⟨e, he, hid⟩ := hw
  rw [h e he] at hid
  cases hid

/-! ## The snapshot -/

/-- What an honest API can show of an id. -/
def Shown (t : Table) (id : String) : Prop := ∀ route, t id = some route → route.filter plain = route

theorem routeValue_plain {body : Json} {route : Route} (h : routeValue body = .ok route) :
    route.filter plain = route := by
  have hidem : ∀ value : Route, (value.filter plain).filter plain = value.filter plain := by
    intro value
    rw [List.filter_filter]
    simp
  unfold routeValue at h
  split at h
  · split at h
    · split at h
      · obtain rfl := Except.ok.inj h
        exact hidem _
      · obtain rfl := Except.ok.inj h
        exact hidem _
    · cases h
  · cases h

theorem sends_heldAt {text : Int → String} :
    Sends (fun req => req.command = .get id) (heldAt text id) := by
  refine Sends.bind (.send rfl) fun answer => ?_
  split
  · exact .raise _
  · split
    · exact (Sends.ofExcept _).bind fun route => .done _
    · exact .done _

theorem heldAt_ok {text : Int → String} {held : Option Route}
    (h : Runs (heldAt text id) log (some (.ok held))) (hhonest : admin.Honest t log) :
    (∃ e ∈ log, e.request.command = .get id) ∧ held = t id ∧ Shown t id := by
  obtain ⟨answer, first, second, rfl, hsend, hrest⟩ := runs_bind_ok h
  obtain ⟨took, rfl⟩ := runs_send_end hsend
  refine ⟨⟨_, List.mem_cons_self, rfl⟩, ?_⟩
  obtain ⟨hfound, hgone⟩ := hhonest.1 answer rfl
  split at hrest
  · cases hrest
  · next hcode =>
    split at hrest
    · next h200 =>
      obtain ⟨route, hvalue, hdone⟩ := runs_ofExcept_bind_ok hrest
      obtain ⟨-, rfl⟩ := runs_done_ok hdone
      obtain ⟨there, hthere, hbody⟩ := hfound h200
      obtain rfl := Except.ok.inj (hvalue.symm.trans hbody)
      refine ⟨hthere.symm, fun route hroute => ?_⟩
      obtain rfl := Option.some.inj (hthere.symm.trans hroute)
      exact routeValue_plain hbody
    · next h200 =>
      obtain ⟨-, rfl⟩ := runs_done_ok hrest
      have habsent := hgone (by simp at hcode; omega)
      exact ⟨habsent.symm, fun route hroute => absurd (habsent.symm.trans hroute) (by simp)⟩

theorem sends_snapshotEach {items : List (Except Raised String)} :
    Sends (fun req => req.command.writes = none) (snapshotEach text items previous) := by
  induction items generalizing previous with
  | nil => exact .done _
  | cons item items ih =>
      refine (Sends.ofExcept item).bind fun id => Sends.bind ?_ fun held => ih
      exact sends_heldAt.mono fun req hreq => by rw [hreq]; rfl

theorem snapshotEach_ok {items : List (Except Raised String)} {before : Snapshot}
    (h : Runs (snapshotEach text items before) log (some (.ok previous)))
    (hhonest : admin.Honest t log) :
    (∀ item ∈ items, ∃ id, item = .ok id ∧ (∃ e ∈ log, e.request.command = .get id) ∧
      PyDict.get? previous id = some (t id) ∧ Shown t id) ∧
      ∀ id, .ok id ∉ items → PyDict.get? previous id = PyDict.get? before id := by
  induction items generalizing before log with
  | nil =>
      obtain ⟨-, rfl⟩ := runs_done_ok h
      exact ⟨fun _ hi => absurd hi List.not_mem_nil, fun _ _ => rfl⟩
  | cons item items ih =>
      obtain ⟨id, rfl, hbody⟩ := runs_ofExcept_bind_ok h
      obtain ⟨held, front, back, rfl, hheld, hrest⟩ := runs_bind_ok hbody
      obtain ⟨hfront, hback⟩ := Party.honest_append.mp hhonest
      have hquiet : Quiet front := by
        intro e he
        have hget : e.request.command = .get id := hheld.sent sends_heldAt e he
        rw [hget]
        rfl
      rw [hquiet.frame] at hback
      obtain ⟨⟨e, he, hget⟩, rfl, hshown⟩ := heldAt_ok hheld hfront
      obtain ⟨hitems, hothers⟩ := ih hrest hback
      refine ⟨List.forall_mem_cons.mpr ⟨⟨id, rfl, ⟨e, List.mem_append_left _ he, hget⟩, ?_, hshown⟩, ?_⟩, ?_⟩
      · by_cases hmem : .ok id ∈ items
        · obtain ⟨i, hi, -, hprevious, -⟩ := hitems _ hmem
          obtain rfl := Except.ok.inj hi
          exact hprevious
        · rw [hothers id hmem, PyDict.get?_set, if_pos rfl]
      · intro item hitem
        obtain ⟨i, hi, ⟨e, he, hget⟩, hrest⟩ := hitems item hitem
        exact ⟨i, hi, ⟨e, List.mem_append_right _ he, hget⟩, hrest⟩
      · intro i hi
        rw [List.mem_cons, not_or] at hi
        rw [hothers i hi.2, PyDict.get?_set, if_neg fun heq => hi.1 (congrArg _ heq)]

/-! ## Restoring -/

/-- No PUT that restores is answered 404 without effect, none of these requests is interrupted,
and no route they write back is without members. -/
structure Restorable (t : Table) (log : Log) : Prop where
  reported : ∀ e ∈ log, e.request.restoring = true → ∀ id route body,
    e.request.command = .put id route → e.reply.result = .ok (404, body) → e.reply.took = true
  finished : ∀ e ∈ log, e.request.restoring = true → e.reply.result ≠ .error .interrupt
  members : ∀ e ∈ log, e.request.restoring = true → ∀ id,
    e.request.command.writes = some id → t id ≠ some []

theorem Restorable.sublog (h : Restorable t log) (hsub : ∀ e ∈ first, e ∈ log) : Restorable t first where
  reported e he := h.reported e (hsub e he)
  finished e he := h.finished e (hsub e he)
  members e he := h.members e (hsub e he)

theorem undo_writes (old : Option Route) : (undo id old).writes = some id := by
  unfold undo
  split <;> rfl

theorem sends_restoreEach {ids failures : List String} :
    Sends (fun req => req.restoring = true ∧ ∃ id ∈ ids, req.command.writes = some id)
      (restoreEach previous ids failures) := by
  induction ids generalizing failures with
  | nil => exact .done _
  | cons id ids ih =>
      refine (Sends.ofExcept _).bind fun old => Sends.bind ?_ fun result =>
        (Sends.ofExcept _).bind fun ok => ih.mono ?_
      · exact (Sends.send ⟨rfl, id, List.mem_cons_self, undo_writes old⟩).attempt
      · rintro req ⟨hrestoring, i, hi, hwrites⟩
        exact ⟨hrestoring, i, List.mem_cons_of_mem _ hi, hwrites⟩

theorem counts_true {result : Except Raised Answer} (h : counts result = .ok true) :
    ∃ answer, result = .ok answer ∧ answer.1 ∈ [200, 201, 204, 404] := by
  cases result with
  | ok answer => exact ⟨answer, rfl, of_decide_eq_true (Except.ok.inj h)⟩
  | error e => cases e <;> cases h

/-- A request that counts puts back what was there. -/
theorem undo_effect {s : Table} {answer : Answer} {took : Bool}
    (hcode : answer.1 ∈ [200, 201, 204, 404]) (hshown : Shown t id)
    (hhonest : admin.honest s ⟨⟨undo id (t id), true⟩, .ok answer, took⟩)
    (hclean : Restorable t [⟨⟨undo id (t id), true⟩, .ok answer, took⟩]) :
    admin.effect s ⟨⟨undo id (t id), true⟩, .ok answer, took⟩ id = t id := by
  have hhonest := hhonest answer rfl
  have hmembers := hclean.members _ List.mem_cons_self rfl id (undo_writes (t id))
  have hreported := hclean.reported _ List.mem_cons_self rfl
  obtain ⟨code, body⟩ := answer
  dsimp only [admin] at hhonest ⊢
  rcases hheld : t id with _ | _ | ⟨m, ms⟩
  · -- absent: a DELETE, and 404 is honest
    rw [hheld] at hhonest
    cases took with
    | true => exact if_pos rfl
    | false =>
        refine hhonest.2 ?_
        by_contra hother
        exact absurd (hhonest.1 (by simp at hcode ⊢; omega)) (by decide)
  · exact absurd hheld hmembers
  · have hplain := hshown _ hheld
    rw [hheld] at hhonest hreported
    have htook : took = true := by
      by_cases h404 : code = 404
      · exact hreported id (m :: ms) body rfl (by rw [h404])
      · exact hhonest (by simp at hcode ⊢; omega)
    rw [htook]
    exact (if_pos rfl).trans (congrArg some hplain)

theorem restoreEach_ok {ids failures failed : List String} {s : Table}
    (h : Runs (restoreEach previous ids failures) log (some (.ok failed))) :
    (∃ more, failed = failures ++ more) ∧
      (failed = [] → admin.Honest s log → Restorable t log →
        (∀ id ∈ ids, PyDict.get? previous id = some (t id) ∧ Shown t id) →
          ∀ id ∈ ids, admin.after s log id = t id) := by
  induction ids generalizing failures log s with
  | nil =>
      obtain ⟨-, rfl⟩ := runs_done_ok h
      exact ⟨⟨[], (List.append_nil _).symm⟩, fun _ _ _ _ _ hid => absurd hid List.not_mem_nil⟩
  | cons id ids ih =>
      obtain ⟨old, hold, hsend⟩ := runs_ofExcept_bind_ok h
      obtain ⟨result, _, back, rfl, hattempt, hcounted⟩ := runs_bind_ok hsend
      obtain ⟨took, rfl⟩ := runs_send_end (runs_attempt_ok hattempt)
      obtain ⟨ok, hok, hrest⟩ := runs_ofExcept_bind_ok hcounted
      obtain ⟨⟨more, hmore⟩, -⟩ := ih (s := s) hrest
      refine ⟨?_, fun hnone hhonest hclean hprevious i hi => ?_⟩
      · split at hmore
        · exact ⟨more, hmore⟩
        · exact ⟨id :: more, by rw [hmore, List.append_assoc]; rfl⟩
      · have hok' : ok = true := by
          by_contra hfalse
          rw [if_neg hfalse, hnone] at hmore
          simp at hmore
        obtain ⟨answer, rfl, hcode⟩ := counts_true (hok' ▸ hok)
        obtain ⟨hget, hshown⟩ := hprevious id List.mem_cons_self
        obtain rfl : old = t id := by
          unfold heldIn at hold
          rw [hget] at hold
          exact (Except.ok.inj hold).symm
        have hback := (ih (s := admin.effect s _) hrest).2 hnone hhonest.2
          (hclean.sublog fun e he => List.mem_cons_of_mem _ he)
          fun i hi => hprevious i (List.mem_cons_of_mem _ hi)
        by_cases hmem : i ∈ ids
        · exact hback i hmem
        · obtain rfl : i = id := (List.mem_cons.mp hi).resolve_right hmem
          have hframe : ¬ Writes back i := by
            rintro ⟨e, he, hwrites⟩
            obtain ⟨-, j, hj, hj'⟩ := hrest.sent sends_restoreEach e he
            obtain rfl := Option.some.inj (hwrites.symm.trans hj')
            exact hmem hj
          refine (after_frame hframe).trans (undo_effect hcode hshown hhonest.1 ?_)
          exact hclean.sublog fun e he => List.mem_singleton.mp he ▸ List.mem_cons_self

/-- It only stops on the way if it is interrupted or knows nothing of an id. -/
theorem restoreEach_error {ids failures : List String} {e : Raised}
    (h : Runs (restoreEach previous ids failures) log (some (.error e))) :
    (∃ id ∈ ids, PyDict.get? previous id = none) ∨ ∃ ev ∈ log, ev.request.restoring = true ∧
      ev.reply.result = .error .interrupt := by
  induction ids generalizing failures log with
  | nil => cases h
  | cons id ids ih =>
      rcases runs_ofExcept_bind h with ⟨old, -, hsend⟩ | ⟨_, hold, -⟩
      · rcases runs_attempt_bind hsend with ⟨-, hr⟩ | ⟨result, first, back, rfl, hsent, hcounted⟩
        · cases hr
        · obtain ⟨took, rfl⟩ := runs_send_end hsent
          rcases runs_ofExcept_bind hcounted with ⟨ok, -, hrest⟩ | ⟨_, hraised, -⟩
          · rcases ih hrest with ⟨i, hi, hnone⟩ | ⟨ev, hev, hinterrupt⟩
            · exact Or.inl ⟨i, List.mem_cons_of_mem _ hi, hnone⟩
            · exact Or.inr ⟨ev, List.mem_cons_of_mem _ hev, hinterrupt⟩
          · refine Or.inr ⟨_, List.mem_cons_self, rfl, ?_⟩
            cases result with
            | ok answer => cases hraised
            | error x => cases x with
              | interrupt => rfl
              | error text => cases hraised
              | exception => cases hraised
      · refine Or.inl ⟨id, List.mem_cons_self, ?_⟩
        unfold heldIn at hold
        split at hold
        · cases hold
        · assumption

/-! ## Saying that it is incomplete -/

def Raised.saysIncomplete : Raised → Prop
  | .error text => "rollback incomplete".toList <+: text.toList
  | _ => False

/-- A restore after which the first error is raised again has no failures. -/
theorem restored_of_raise {ids : List String} {text : String} {e e' : Raised}
    (h : Runs (((restoreEach previous ids []).bind (refuse text)).bind fun _ => (.raise e : Deploy Unit)) log
      (some (.error e')))
    (htext : "rollback incomplete".toList <+: text.toList) (hsilent : ¬ e'.saysIncomplete)
    (hknown : ∀ id ∈ ids, PyDict.get? previous id ≠ none) (hclean : Restorable t log) :
    Runs (restoreEach previous ids []) log (some (.ok [])) := by
  rw [Script.bind_assoc] at h
  rcases runs_bind h with ⟨-, hr⟩ | ⟨x, hrestore, -⟩ | ⟨failures, first, second, rfl, hrestore, hrest⟩
  · cases hr
  · rcases restoreEach_error hrestore with ⟨id, hid, hnone⟩ | ⟨ev, hev, hrestoring, hinterrupt⟩
    · exact absurd hnone (hknown id hid)
    · exact absurd hinterrupt (hclean.finished ev hev hrestoring)
  · unfold refuse at hrest
    split at hrest
    · next hnone =>
      obtain ⟨rfl, -⟩ := runs_raise hrest
      subst hnone
      rwa [List.append_nil]
    · obtain ⟨-, hr | hr⟩ := runs_raise hrest
      · cases hr
      · obtain rfl := Except.error.inj (Option.some.inj hr)
        refine absurd ?_ hsilent
        show _ <+: (_ : String).toList
        rw [String.toList_append]
        exact htext.trans (List.prefix_append _ _)

/-- Every id of the list is saved as it was. -/
def Saved (t : Table) (previous : Snapshot) (ids : List String) : Prop :=
  ∀ id ∈ ids, PyDict.get? previous id = some (t id) ∧ Shown t id

/-- What is written before a restore of all of it, and by the restore, is as it was. -/
theorem restored {ids : List String} (hsaved : Saved t previous ids)
    (hfirst : ∀ id, Writes first id → id ∈ ids)
    (hrestore : Runs (restoreEach previous ids []) second (some (.ok [])))
    (hhonest : admin.Honest t (first ++ second)) (hclean : Restorable t (first ++ second))
    (hid : Writes (first ++ second) id) : admin.after t (first ++ second) id = t id := by
  have hmem : id ∈ ids := by
    rcases writes_append.mp hid with hid | ⟨e, he, hwrites⟩
    · exact hfirst id hid
    · obtain ⟨-, i, hi, hi'⟩ := hrestore.sent sends_restoreEach e he
      obtain rfl := Option.some.inj (hwrites.symm.trans hi')
      exact hi
  rw [Party.after_append]
  exact (restoreEach_ok hrestore).2 rfl (Party.honest_append.mp hhonest).2
    (hclean.sublog fun e he => List.mem_append_right _ he) hsaved id hmem

/-- What is left of a failure that does not say it is incomplete. -/
def Restores (t : Table) (log : Log) (r : Option (Except Raised Unit)) : Prop :=
  Restorable t log → ∀ e, r = some (.error e) → ¬ e.saysIncomplete →
    ∀ id, Writes log id → admin.after t log id = t id

theorem Quiet.restores (h : Quiet log) : Restores t log r := by
  rintro - - - - id ⟨e, he, hwrites⟩
  rw [h e he] at hwrites
  cases hwrites

theorem keys_known (hid : id ∈ previous.map (·.1)) : PyDict.get? previous id ≠ none := by
  intro hnone
  obtain ⟨e, he, rfl⟩ := List.mem_map.mp hid
  exact PyDict.get?_eq_none.mp hnone e he rfl

theorem mem_sorted {ids : List String} : id ∈ sorted ids ↔ id ∈ ids :=
  (List.perm_insertionSort _ _).mem_iff

theorem guarded_restores {p : Deploy Unit} (hsaved : Saved t previous (previous.map (·.1)))
    (hp : Sends (fun req => ∀ id, req.command.writes = some id → id ∈ previous.map (·.1)) p)
    (hhonest : admin.Honest t log) (h : Runs (guarded previous p) log r) : Restores t log r := by
  intro hclean e hr hsilent id hid
  rcases runs_handle h with ⟨-, rfl⟩ | ⟨x, -, rfl | rfl⟩ | ⟨e₀, first, second, rfl, hfirst, hsecond⟩
  · cases hr
  · cases hr
  · cases hr
  · rw [hr] at hsecond
    have hrestore := restored_of_raise hsecond (by decide) hsilent
      (fun i hi => keys_known (mem_sorted.mp hi))
      (hclean.sublog fun e he => List.mem_append_right _ he)
    refine restored (fun i hi => hsaved i (mem_sorted.mp hi)) (fun i hi => ?_) hrestore hhonest hclean hid
    obtain ⟨e, he, hwrites⟩ := hi
    exact mem_sorted.mpr (hfirst.sent hp e he i hwrites)

/-! ## Before the first write -/

/-- The snapshot of these ids is read and saved in the log. -/
structure Begun (t : Table) (ids : List String) (previous : Snapshot) (log : Log) : Prop where
  quiet : Quiet log
  saved : ∃ e ∈ log, e.request.command = .save previous ∧ ∃ answer, e.reply.result = .ok answer
  read : ∀ id ∈ ids, ∃ e ∈ log, e.request.command = .get id
  held : Saved t previous ids
  keys : ∀ id ∈ previous.map (·.1), id ∈ ids

theorem sends_snapshot {items : List (Except Raised String)} :
    Sends (fun req => req.command.writes = none) ((snapshotEach text items []).bind save) :=
  sends_snapshotEach.bind fun _ => Sends.bind (.send rfl) fun _ => .done _

theorem begun {ids : List String}
    (h : Runs ((snapshotEach text (ids.map .ok) []).bind save) log (some (.ok previous)))
    (hhonest : admin.Honest t log) : Begun t ids previous log := by
  have hquiet : Quiet log := h.sent sends_snapshot
  obtain ⟨read, first, second, rfl, hread, hsave⟩ := runs_bind_ok h
  obtain ⟨answer, front, back, rfl, hsend, hdone⟩ := runs_bind_ok hsave
  obtain ⟨took, rfl⟩ := runs_send_end hsend
  obtain ⟨rfl, rfl⟩ := runs_done_ok hdone
  obtain ⟨hitems, hothers⟩ := snapshotEach_ok hread (Party.honest_append.mp hhonest).1
  have hid : ∀ id ∈ ids, (∃ e ∈ first, e.request.command = .get id) ∧
      PyDict.get? read id = some (t id) ∧ Shown t id := by
    intro id hid
    obtain ⟨i, hi, hrest⟩ := hitems (.ok id) (List.mem_map_of_mem hid)
    obtain rfl := Except.ok.inj hi
    exact hrest
  refine ⟨hquiet, ⟨_, List.mem_append_right _ List.mem_cons_self, rfl, answer, rfl⟩, fun id h => ?_,
    fun id h => (hid id h).2, fun id h => ?_⟩
  · obtain ⟨e, he, hget⟩ := (hid id h).1
    exact ⟨e, List.mem_append_left _ he, hget⟩
  · by_contra hmem
    refine keys_known h ((hothers id fun hitem => hmem ?_).trans PyDict.get?_nil)
    obtain ⟨i, hi, heq⟩ := List.mem_map.mp hitem
    exact Except.ok.inj heq ▸ hi

theorem Begun.known {ids : List String} (h : Begun t ids previous log) :
    Saved t previous (previous.map (·.1)) := fun id hid => h.held id (h.keys id hid)

theorem Begun.mem_keys {ids : List String} (h : Begun t ids previous log) (hid : id ∈ ids) :
    id ∈ previous.map (·.1) :=
  List.mem_map_of_mem (f := (·.1)) (PyDict.mem_of_get? (h.held id hid).1)

theorem exists_ids {items : List (Except Raised String)} (h : ∀ item ∈ items, ∃ id, item = .ok id) :
    ∃ ids : List String, items = ids.map .ok := by
  induction items with
  | nil => exact ⟨[], rfl⟩
  | cons item items ih =>
      obtain ⟨id, rfl⟩ := h item List.mem_cons_self
      obtain ⟨ids, rfl⟩ := ih fun item hitem => h item (List.mem_cons_of_mem _ hitem)
      exact ⟨id :: ids, rfl⟩

/-- A log is quiet, or goes on from a snapshot of the ids. -/
theorem runs_snapshot {items : List (Except Raised String)} {body : Snapshot → Deploy Unit}
    (h : Runs (((snapshotEach text items []).bind save).bind body) log r)
    (hhonest : admin.Honest t log) : Quiet log ∨ ∃ ids previous first second,
      items = ids.map .ok ∧ log = first ++ second ∧ Begun t ids previous first ∧
        admin.Honest t second ∧ Runs (body previous) second r := by
  rcases runs_bind h with ⟨hread, -⟩ | ⟨e, hread, -⟩ | ⟨previous, first, second, rfl, hread, hbody⟩
  · exact Or.inl (hread.sent sends_snapshot)
  · exact Or.inl (hread.sent sends_snapshot)
  · obtain ⟨hfirst, hsecond⟩ := Party.honest_append.mp hhonest
    obtain ⟨ids, rfl⟩ : ∃ ids : List String, items = ids.map .ok := by
      obtain ⟨_, front, back, rfl, heach, -⟩ := runs_bind_ok hread
      refine exists_ids fun item hitem => ?_
      obtain ⟨id, hid, -⟩ := (snapshotEach_ok heach (Party.honest_append.mp hfirst).1).1 item hitem
      exact ⟨id, hid⟩
    have hbegun := begun hread hfirst
    rw [hbegun.quiet.frame] at hsecond
    exact Or.inr ⟨ids, previous, first, second, rfl, rfl, hbegun, hsecond, hbody⟩

theorem Restores.after {ids : List String} (hbegun : Begun t ids previous first)
    (h : Restores t second r) : Restores t (first ++ second) r := by
  intro hclean e hr hsilent id hid
  have hsecond : Writes second id := by
    refine (writes_append.mp hid).resolve_left ?_
    rintro ⟨ev, hev, hwrites⟩
    rw [hbegun.quiet ev hev] at hwrites
    cases hwrites
  rw [Party.after_append, hbegun.quiet.frame]
  exact h (hclean.sublog fun e he => List.mem_append_right _ he) e hr hsilent id hsecond

/-! ## What the three write -/

theorem sends_writeRoute {text : Int → String} {readback : String} {route : Route} :
    Sends (fun req => ∀ i, req.command.writes = some i → i = id) (writeRoute text readback id route) := by
  refine Sends.bind (.send fun i hi => (Option.some.inj hi).symm) fun answer => ?_
  split
  · exact .raise _
  · refine Sends.bind (.send fun i hi => by cases hi) fun answer => Sends.bind ?_ fun actual => ?_
    · split
      · exact .ofExcept _
      · exact .done _
    · split
      · exact .raise _
      · exact .done _

/-- The loop of `apply_routes` ends by itself, with the ids it may have written. -/
theorem writeEach_end {routes : List Json} {attempted : List String}
    {x : Except Raised (List String × Except Raised Unit)}
    (h : Runs (writeEach routes attempted) log (some x)) :
    ∃ more outcome, x = .ok (attempted ++ more, outcome) ∧ (∀ id, Writes log id → id ∈ more) ∧
      ∀ id ∈ more, ∃ route ∈ routes, idOf route = .ok id := by
  induction routes generalizing attempted log with
  | nil =>
      cases h
      exact ⟨[], _, by rw [List.append_nil], fun id ⟨_, he, _⟩ => absurd he List.not_mem_nil,
        fun _ hid => absurd hid List.not_mem_nil⟩
  | cons route routes ih =>
      unfold writeEach at h
      cases hid : idOf route with
      | error e =>
          simp only [hid] at h
          cases h
          exact ⟨[], _, by rw [List.append_nil], fun id ⟨_, he, _⟩ => absurd he List.not_mem_nil,
            fun _ hid => absurd hid List.not_mem_nil⟩
      | ok id =>
          simp only [hid] at h
          rcases runs_attempt_bind h with ⟨-, hr⟩ | ⟨outcome, front, back, rfl, hwrite, hrest⟩
          · cases hr
          have hfront : ∀ i, Writes front i → i = id := by
            rintro i ⟨e, he, hwrites⟩
            exact hwrite.sent sends_writeRoute e he i hwrites
          cases outcome with
          | error e =>
              cases hrest
              refine ⟨[id], _, rfl, fun i hi => ?_, fun i hi => ?_⟩
              · rw [List.append_nil] at hi
                exact List.mem_singleton.mpr (hfront i hi)
              · exact ⟨route, List.mem_cons_self, List.mem_singleton.mp hi ▸ hid⟩
          | ok _ =>
              obtain ⟨more, outcome, rfl, hmore, hroutes⟩ := ih hrest
              refine ⟨id :: more, outcome, by rw [List.append_assoc]; rfl, fun i hi => ?_, fun i hi => ?_⟩
              · rcases writes_append.mp hi with hi | hi
                · exact hfront i hi ▸ List.mem_cons_self
                · exact List.mem_cons_of_mem _ (hmore i hi)
              · rcases List.mem_cons.mp hi with rfl | hi
                · exact ⟨route, List.mem_cons_self, hid⟩
                · obtain ⟨route, hroute, hid⟩ := hroutes i hi
                  exact ⟨route, List.mem_cons_of_mem _ hroute, hid⟩

theorem sends_checkPublic : Sends (fun req => req.command.writes = none) checkPublic := by
  refine Sends.bind (.send rfl) fun mcp => ?_
  split
  · exact .raise _
  · refine Sends.bind (.send rfl) fun metadata => ?_
    split
    · exact .raise _
    · refine Sends.bind (.send rfl) fun execute => ?_
      split
      · exact .raise _
      · exact .done _

theorem sends_writeAll {routes : List Json} :
    Sends (fun req => ∀ i, req.command.writes = some i → ∃ route ∈ routes, idOf route = .ok i)
      (writeAll routes) := by
  induction routes with
  | nil => exact .done _
  | cons route routes ih =>
      refine .ofExcept_bind fun id hid => Sends.bind (sends_writeRoute.mono fun req hreq i hi => ?_)
        fun _ => ih.mono fun req hreq i hi => ?_
      · exact ⟨route, List.mem_cons_self, hreq i hi ▸ hid⟩
      · obtain ⟨route, hroute, hid⟩ := hreq i hi
        exact ⟨route, List.mem_cons_of_mem _ hroute, hid⟩

theorem sends_probeAll {probe : Option (Json → Except Raised Json)} {routes : List Json} :
    Sends (fun req => req.command.writes = none) (probeAll probe routes) := by
  induction routes with
  | nil => exact .done _
  | cons route routes ih =>
      refine .ofExcept_bind fun command hcommand => ?_
      simp only [bind_eq_ok] at hcommand
      obtain ⟨_, -, _, -, _, -, hcommand⟩ := hcommand
      obtain rfl := Except.ok.inj hcommand
      refine Sends.bind (.send rfl) fun answer => ?_
      split
      · exact (Sends.ofExcept _).bind fun id => .raise _
      · exact ih

theorem sends_installEach {routes : List Json} :
    Sends (fun req => ∀ i, req.command.writes = some i → i ∈ previous.map (·.1))
      (installEach previous routes) := by
  induction routes with
  | nil => exact .done _
  | cons route routes ih =>
      refine .ofExcept_bind fun id _ => .ofExcept_bind fun old hold => ?_
      have hkey : id ∈ previous.map (·.1) := by
        unfold heldIn at hold
        split at hold
        · next held hget => exact List.mem_map_of_mem (f := (·.1)) (PyDict.mem_of_get? hget)
        · cases hold
      refine Sends.bind ?_ fun _ => Sends.bind (Sends.send fun i hi => ?_) fun answer =>
        Sends.bind ?_ fun failed => ?_
      · cases old with
        | some old => exact .done _
        | none =>
            refine Sends.bind (Sends.send fun i hi => Option.some.inj hi ▸ hkey) fun answer => ?_
            split
            · exact .raise _
            · exact .done _
      · cases hi
      · split
        · exact (Sends.ofExcept _).bind fun actual => .done _
        · exact .done _
      · split
        · exact .raise _
        · exact ih

theorem sends_denyAll {routes : List Json} :
    Sends (fun req => req.command.writes = none) (denyAll routes) := by
  induction routes with
  | nil => exact .done _
  | cons route routes ih =>
      refine .ofExcept_bind fun item hitem => ?_
      simp only [bind_eq_ok] at hitem
      obtain ⟨_, -, _, -, _, -, hitem⟩ := hitem
      obtain rfl := Except.ok.inj hitem
      refine Sends.bind (.send rfl) fun answer => ?_
      split
      · exact .raise _
      · exact ih

/-! ## The deployments -/

inductive Deployment
  | applyRoutes (routes : List Json)
  | apply (routes : List Json) (probe : Option (Json → Except Raised Json))
  | install (routes : List Json)

namespace Deployment

def script : Deployment → Deploy Unit
  | .applyRoutes routes => RouteDeploy.applyRoutes routes
  | .apply routes probe => RouteDeploy.apply routes probe
  | .install routes => RouteDeploy.install routes

def routes : Deployment → List Json
  | .applyRoutes routes => routes
  | .apply routes _ => routes
  | .install routes => routes

end Deployment

/-- What a run is: nothing written, or a snapshot of all routes and then a part that restores. -/
def Deploys (t : Table) (routes : List Json) (log : Log) (r : Option (Except Raised Unit)) : Prop :=
  Quiet log ∨ ∃ ids previous first second, log = first ++ second ∧ Begun t ids previous first ∧
    (∀ route ∈ routes, ∃ id ∈ ids, idOf route = .ok id) ∧ Restores t second r

theorem finish_restores {attempted ids : List String} {outcome : Except Raised Unit}
    (hbegun : Begun t ids previous first) (hattempted : ∀ id ∈ attempted, id ∈ ids)
    (hlog : ∀ id, Writes log id → id ∈ attempted) (hhonest : admin.Honest t (log ++ second))
    (h : Runs (finish previous attempted outcome) second r) : Restores t (log ++ second) r := by
  intro hclean e hr hsilent id hid
  cases outcome with
  | ok u =>
      obtain ⟨-, rfl | rfl⟩ := runs_done h
      · cases hr
      · cases hr
  | error e₀ =>
      rw [hr] at h
      have hsaved : Saved t previous attempted.reverse := fun i hi =>
        hbegun.held i (hattempted i (List.mem_reverse.mp hi))
      have hrestore := restored_of_raise h (by decide) hsilent
        (fun i hi => by rw [(hsaved i hi).1]; exact Option.some_ne_none _)
        (hclean.sublog fun e he => List.mem_append_right _ he)
      exact restored hsaved (fun i hi => List.mem_reverse.mpr (hlog i hi)) hrestore hhonest hclean hid

theorem deploys_applyRoutes {routes : List Json} (h : Runs (applyRoutes routes) log r)
    (hhonest : admin.Honest t log) : Deploys t routes log r := by
  unfold applyRoutes at h
  rw [← Script.bind_assoc] at h
  rcases runs_snapshot h hhonest with hquiet | ⟨ids, previous, first, second, hids, rfl, hbegun, hhonest, hbody⟩
  · exact Or.inl hquiet
  have hroutes : ∀ route ∈ routes, ∃ id ∈ ids, idOf route = .ok id := by
    intro route hroute
    have hitem : idOf route ∈ ids.map Except.ok := hids ▸ List.mem_map_of_mem hroute
    obtain ⟨id, hid, heq⟩ := List.mem_map.mp hitem
    exact ⟨id, hid, heq.symm⟩
  refine Or.inr ⟨ids, previous, first, second, rfl, hbegun, hroutes, ?_⟩
  rcases runs_bind hbody with ⟨-, rfl⟩ | ⟨e, hwrite, -⟩ | ⟨written, front, back, rfl, hwrite, hrest⟩
  · intro _ e hr
    cases hr
  · obtain ⟨_, _, hx, -⟩ := writeEach_end hwrite
    cases hx
  obtain ⟨attempted, outcome, hx, hfront, hattempted⟩ := writeEach_end hwrite
  obtain rfl := Except.ok.inj hx
  have hmem : ∀ id ∈ [] ++ attempted, id ∈ ids := by
    intro id hid
    obtain ⟨route, hroute, hroute'⟩ := hattempted id hid
    obtain ⟨i, hi, heq⟩ := hroutes route hroute
    obtain rfl := Except.ok.inj (heq.symm.trans hroute')
    exact hi
  rcases runs_attempt_bind hrest with ⟨-, rfl⟩ | ⟨ended, probes, restores, rfl, hprobe, hfinish⟩
  · intro _ e hr
    cases hr
  have hprobes : Quiet probes := by
    refine hprobe.sent (Sends.bind (.ofExcept _) fun _ => sends_checkPublic)
  rw [← List.append_assoc] at hhonest ⊢
  refine finish_restores hbegun hmem (fun id hid => ?_) hhonest hfinish
  refine hfront id ((writes_append.mp hid).resolve_right ?_)
  rintro ⟨e, he, hwrites⟩
  rw [hprobes e he] at hwrites
  cases hwrites

/-- What `validate_routes` accepts has the ids it returns. -/
theorem validateEach_ok {routes : List Json} {before ids : List String}
    (h : validateEach routes before = .ok ids) :
    (∀ id ∈ before, id ∈ ids) ∧ ∀ route ∈ routes, ∃ id ∈ ids, idOf route = .ok id := by
  induction routes generalizing before with
  | nil =>
      obtain rfl := Except.ok.inj h
      exact ⟨fun _ hid => hid, fun _ hr => absurd hr List.not_mem_nil⟩
  | cons route routes ih =>
      simp only [validateEach, bind_eq_ok] at h
      obtain ⟨_, -, id, hvalid, _, -, _, -, _, -, _, -, _, -, _, -, hrest⟩ := h
      obtain ⟨hbefore, hroutes⟩ := ih hrest
      refine ⟨fun i hi => hbefore i (List.mem_append_left _ hi), List.forall_mem_cons.mpr ⟨⟨id, ?_, ?_⟩, hroutes⟩⟩
      · exact hbefore id (List.mem_append_right _ List.mem_cons_self)
      · unfold validId at hvalid
        split at hvalid
        · next i hget =>
          split at hvalid
          · obtain rfl := Except.ok.inj hvalid
            rw [idOf, hget]
          · cases hvalid
        · cases hvalid

theorem deploys_apply {routes : List Json} {probe : Option (Json → Except Raised Json)}
    (h : Runs (apply routes probe) log r) (hhonest : admin.Honest t log) : Deploys t routes log r := by
  rcases runs_ofExcept_bind h with ⟨ids, hvalid, hbody⟩ | ⟨_, -, rfl, -⟩
  · have hroutes : ∀ route ∈ routes, ∃ id ∈ ids, idOf route = .ok id := by
      unfold validateRoutes at hvalid
      split at hvalid
      · cases hvalid
      · exact (validateEach_ok hvalid).2
    rcases runs_snapshot hbody hhonest with
      hquiet | ⟨ids', previous, first, second, hids, rfl, hbegun, hhonest, hguarded⟩
    · exact Or.inl hquiet
    obtain rfl : ids' = sorted ids := List.map_injective_iff.mpr (fun _ _ => Except.ok.inj) hids.symm
    have hroutes' : ∀ route ∈ routes, ∃ id ∈ sorted ids, idOf route = .ok id := by
      intro route hroute
      obtain ⟨id, hid, heq⟩ := hroutes route hroute
      exact ⟨id, mem_sorted.mpr hid, heq⟩
    refine Or.inr ⟨_, previous, first, second, rfl, hbegun, hroutes', ?_⟩
    refine guarded_restores hbegun.known (Sends.bind (sends_writeAll.mono fun req hreq i hi => ?_) fun _ =>
      sends_probeAll.mono fun req hreq i hi => ?_) hhonest hguarded
    · obtain ⟨route, hroute, hid⟩ := hreq i hi
      obtain ⟨j, hj, heq⟩ := hroutes' route hroute
      obtain rfl := Except.ok.inj (heq.symm.trans hid)
      exact hbegun.mem_keys hj
    · rw [hreq] at hi
      cases hi
  · exact Or.inl fun e he => absurd he List.not_mem_nil

theorem checkDrift_ok {routes : List Json} (h : checkDrift previous routes = .ok ()) :
    ∀ route ∈ routes, ∃ id ∈ previous.map (·.1), idOf route = .ok id := by
  induction routes with
  | nil => exact fun _ hr => absurd hr List.not_mem_nil
  | cons route routes ih =>
      unfold checkDrift at h
      obtain ⟨id, hid, h⟩ := bind_eq_ok.mp h
      obtain ⟨old, hold, h⟩ := bind_eq_ok.mp h
      have hkey : id ∈ previous.map (·.1) := by
        unfold heldIn at hold
        split at hold
        · next held hget => exact List.mem_map_of_mem (f := (·.1)) (PyDict.mem_of_get? hget)
        · cases hold
      have hrest : checkDrift previous routes = .ok () := by
        split at h
        · split at h
          · cases h
          · exact h
        · exact h
      exact List.forall_mem_cons.mpr ⟨⟨id, hkey, hid⟩, ih hrest⟩

theorem deploys_install {routes : List Json} (h : Runs (install routes) log r)
    (hhonest : admin.Honest t log) : Deploys t routes log r := by
  rcases runs_snapshot h hhonest with hquiet | ⟨ids, previous, first, second, -, rfl, hbegun, hhonest, hbody⟩
  · exact Or.inl hquiet
  rcases runs_ofExcept_bind hbody with ⟨u, hdrift, hguarded⟩ | ⟨_, -, rfl, -⟩
  · refine Or.inr ⟨ids, previous, first, second, rfl, hbegun, fun route hroute => ?_, ?_⟩
    · obtain ⟨id, hid, heq⟩ := checkDrift_ok hdrift route hroute
      exact ⟨id, hbegun.keys id hid, heq⟩
    · refine guarded_restores hbegun.known (Sends.bind sends_installEach fun _ =>
        sends_denyAll.mono fun req hreq i hi => ?_) hhonest hguarded
      rw [hreq] at hi
      cases hi
  · rw [List.append_nil]
    exact Or.inl hbegun.quiet

theorem deploys (d : Deployment) (h : Runs d.script log r) (hhonest : admin.Honest t log) :
    Deploys t d.routes log r := by
  cases d with
  | applyRoutes routes => exact deploys_applyRoutes h hhonest
  | apply routes probe => exact deploys_apply h hhonest
  | install routes => exact deploys_install h hhonest

/-- The snapshot of every route is read and saved in the log. -/
def SavedFirst (t : Table) (routes : List Json) (log : Log) : Prop :=
  ∃ previous, (∃ e ∈ log, e.request.command = .save previous ∧ ∃ answer, e.reply.result = .ok answer) ∧
    ∀ route ∈ routes, ∃ id, idOf route = .ok id ∧ (∃ e ∈ log, e.request.command = .get id) ∧
      PyDict.get? previous id = some (t id)

/-- Nothing is written before the snapshot is saved, and a deployment that fails without a word
of its rollback leaves every id it may have written as it was. -/
theorem failed_deployment_restores (d : Deployment) (t : Table) (replies : List (Reply Answer Raised))
    (hhonest : admin.Honest t (d.script.run replies).1) :
    (∀ before e after, (d.script.run replies).1 = before ++ e :: after →
        e.request.command.writes ≠ none → SavedFirst t d.routes before) ∧
      (Restorable t (d.script.run replies).1 → ∀ e, (d.script.run replies).2 = some (.error e) →
        ¬ e.saysIncomplete → ∀ id, Writes (d.script.run replies).1 id →
          admin.after t (d.script.run replies).1 id = t id) := by
  have hruns := runs_run d.script replies
  generalize d.script.run replies = o at hruns hhonest ⊢
  obtain ⟨log, r⟩ := o
  rcases deploys d hruns hhonest with hquiet | ⟨ids, previous, first, second, rfl, hbegun, hroutes, hrestores⟩
  · refine ⟨fun before e after hlog hwrites => ?_, hquiet.restores⟩
    exact absurd (hquiet e (hlog ▸ List.mem_append_right _ List.mem_cons_self)) hwrites
  · refine ⟨fun before e after hlog hwrites => ?_, hrestores.after hbegun⟩
    obtain ⟨mid, rfl⟩ : ∃ mid, before = first ++ mid := by
      rcases List.append_eq_append_iff.mp hlog with ⟨mid, rfl, -⟩ | ⟨mid, rfl, hsplit⟩
      · exact ⟨mid, rfl⟩
      · cases mid with
        | nil => exact ⟨[], by simp⟩
        | cons x mid =>
            obtain ⟨rfl, -⟩ := List.cons.inj hsplit
            exact absurd (hbegun.quiet e (List.mem_append_right _ List.mem_cons_self)) hwrites
    obtain ⟨e, he, hsave⟩ := hbegun.saved
    refine ⟨previous, ⟨e, List.mem_append_left _ he, hsave⟩, fun route hroute => ?_⟩
    obtain ⟨id, hid, heq⟩ := hroutes route hroute
    obtain ⟨e, he, hget⟩ := hbegun.read id hid
    exact ⟨id, heq, ⟨e, List.mem_append_left _ he, hget⟩, (hbegun.held id hid).1⟩

/-! ## Two deployments that fail -/

theorem honest_ok {c : Command} {restoring took : Bool} {answer : Answer}
    (h : honestAnswer t took answer c) : admin.honest t ⟨⟨c, restoring⟩, .ok answer, took⟩ := by
  intro a ha
  obtain rfl := Except.ok.inj ha
  exact h

def oldFirst : Route := [("id", .str "first"), ("uri", .str "/old")]
def newFirst : Route := [("id", .str "first"), ("uri", .str "/new")]
def newSecond : Route := [("id", .str "second"), ("uri", .str "/second")]

/-- Only the first of the two routes is there. -/
def oneRoute : Table := fun id => if id = "first" then some oldFirst else none

/-- The second PUT is answered 500. -/
def halfDone : List (Reply Answer Raised) :=
  [⟨.ok (200, .obj [("value", .obj oldFirst)]), false⟩, ⟨.ok (404, .obj []), false⟩,
    ⟨.ok (0, .null), true⟩, ⟨.ok (200, .obj []), true⟩, ⟨.ok (200, .obj [("value", .obj newFirst)]), false⟩,
    ⟨.ok (500, .obj []), false⟩, ⟨.ok (204, .obj []), true⟩, ⟨.ok (200, .obj []), true⟩]

def halfDoneLog : Log :=
  [⟨⟨.get "first", false⟩, .ok (200, .obj [("value", .obj oldFirst)]), false⟩,
    ⟨⟨.get "second", false⟩, .ok (404, .obj []), false⟩,
    ⟨⟨.save [("first", some oldFirst), ("second", none)], false⟩, .ok (0, .null), true⟩,
    ⟨⟨.put "first" newFirst, false⟩, .ok (200, .obj []), true⟩,
    ⟨⟨.get "first", false⟩, .ok (200, .obj [("value", .obj newFirst)]), false⟩,
    ⟨⟨.put "second" newSecond, false⟩, .ok (500, .obj []), false⟩,
    ⟨⟨.delete "second", true⟩, .ok (204, .obj []), true⟩,
    ⟨⟨.put "first" oldFirst, true⟩, .ok (200, .obj []), true⟩]

theorem run_halfDone : (Deployment.applyRoutes [.obj newFirst, .obj newSecond]).script.run halfDone =
    (halfDoneLog, some (.error (.error "write HTTP 500"))) := rfl

theorem not_answered {code : Int} {codes : List Int} {P : Prop} (h : code ∉ codes) : code ∈ codes → P :=
  fun hmem => absurd hmem h

theorem honest_halfDone : admin.Honest oneRoute halfDoneLog := by
  refine ⟨honest_ok ⟨fun _ => ⟨oldFirst, rfl, rfl⟩, fun h => absurd h (by decide)⟩,
    honest_ok ⟨fun h => absurd h (by decide), fun _ => rfl⟩, honest_ok trivial, honest_ok fun _ => rfl,
    honest_ok ⟨fun _ => ⟨newFirst, rfl, rfl⟩, fun h => absurd h (by decide)⟩,
    honest_ok (not_answered (by decide)), honest_ok ⟨fun _ => rfl, fun h => absurd h (by decide)⟩,
    honest_ok fun _ => rfl, trivial⟩

theorem restoring_halfDone {e : Event Request Answer Raised} (he : e ∈ halfDoneLog)
    (h : e.request.restoring = true) :
    e = ⟨⟨.delete "second", true⟩, .ok (204, .obj []), true⟩ ∨
      e = ⟨⟨.put "first" oldFirst, true⟩, .ok (200, .obj []), true⟩ := by
  simp only [halfDoneLog, List.mem_cons, List.not_mem_nil, or_false] at he
  rcases he with rfl | rfl | rfl | rfl | rfl | rfl | hlast
  iterate 6 cases h
  exact hlast

theorem restorable_halfDone : Restorable oneRoute halfDoneLog where
  reported e he hrestoring id route body hput _ := by
    rcases restoring_halfDone he hrestoring with rfl | rfl <;> rfl
  finished e he hrestoring hinterrupt := by
    rcases restoring_halfDone he hrestoring with rfl | rfl <;> cases hinterrupt
  members e he hrestoring id hid := by
    rcases restoring_halfDone he hrestoring with rfl | rfl
    · obtain rfl := Option.some.inj hid
      exact fun h => by cases h
    · obtain rfl := Option.some.inj hid
      exact fun h => by cases h

theorem not_saysIncomplete_write : ¬ (Raised.error "write HTTP 500").saysIncomplete := by
  intro h
  have hpre : "rollback incomplete".toList <+: "write HTTP 500".toList := h
  exact absurd hpre (by decide)

/-- Both are as they were. -/
theorem halfDone_restores : admin.after oneRoute halfDoneLog "first" = some oldFirst ∧
    admin.after oneRoute halfDoneLog "second" = none := by
  have hrestored := (failed_deployment_restores (.applyRoutes [.obj newFirst, .obj newSecond]) oneRoute
    halfDone (by rw [run_halfDone]; exact honest_halfDone)).2
  rw [run_halfDone] at hrestored
  have hall := hrestored restorable_halfDone _ rfl not_saysIncomplete_write
  exact ⟨hall "first" ⟨_, .tail _ (.tail _ (.tail _ (.head _))), rfl⟩,
    hall "second" ⟨_, .tail _ (.tail _ (.tail _ (.tail _ (.tail _ (.head _))))), rfl⟩⟩

/-- The PUT is answered 500 and took effect; the one that restores is answered 404 and did not. -/
def lost : List (Reply Answer Raised) :=
  [⟨.ok (200, .obj [("value", .obj oldFirst)]), false⟩, ⟨.ok (0, .null), true⟩,
    ⟨.ok (500, .obj []), true⟩, ⟨.ok (404, .obj []), false⟩]

def lostLog : Log :=
  [⟨⟨.get "first", false⟩, .ok (200, .obj [("value", .obj oldFirst)]), false⟩,
    ⟨⟨.save [("first", some oldFirst)], false⟩, .ok (0, .null), true⟩,
    ⟨⟨.put "first" newFirst, false⟩, .ok (500, .obj []), true⟩,
    ⟨⟨.put "first" oldFirst, true⟩, .ok (404, .obj []), false⟩]

/-- The new route stays, and the error says nothing of a rollback. -/
theorem lost_restore : admin.Honest oneRoute lostLog ∧
    (Deployment.applyRoutes [.obj newFirst]).script.run lost =
      (lostLog, some (.error (.error "write HTTP 500"))) ∧
    ¬ (Raised.error "write HTTP 500").saysIncomplete ∧ Writes lostLog "first" ∧
    oneRoute "first" = some oldFirst ∧ admin.after oneRoute lostLog "first" = some newFirst ∧
    newFirst ≠ oldFirst := by
  refine ⟨⟨honest_ok ⟨fun _ => ⟨oldFirst, rfl, rfl⟩, fun h => absurd h (by decide)⟩, honest_ok trivial,
    honest_ok (not_answered (by decide)), honest_ok (not_answered (by decide)), trivial⟩, rfl,
    not_saysIncomplete_write, ⟨_, .tail _ (.tail _ (.head _)), rfl⟩, rfl, rfl, ?_⟩
  intro h
  have huri : some (Json.str "/new") = some (Json.str "/old") :=
    congrArg (fun r : Route => Json.ofLookup r "uri") h
  exact absurd (Json.str.inj (Option.some.inj huri)) (by decide)

end OufGateway.RouteDeploy
