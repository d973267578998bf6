import Mathlib
import OufGateway.Lib.Trace
import OufGateway.Proofs.OutboxSteps
import OufGateway.Proofs.OutboxRuns
import OufGateway.Proofs.OutboxSpecs

/-!
# Where a worker stands says what it has done

A worker that is in the middle of a call got there by steps of its own, and
`since_last` finds the one that brought it where it is: whatever holds of the worker
now, and of no worker between calls, became true in a step of that worker and has
held ever since. So the claim an attempt was made with, the query an outcome was
proved by and the reading a dispatch goes by can be looked up in the run.

A run also says what time it is. Every step reads the clock, or could have, and a
clock that never goes back makes the readings of a run an ascending list; what a
worker remembers of one is in that list.
-/

namespace OufGateway.Outbox

open Lib

variable {incidents : Incidents.Tables} {is : List Input} {j : Nat} {w : World} {c : Claim}
  {r : ℚ}

/-! ## Where a step goes -/

/-- From where to where one step of a worker leads, and what it has found on the way. -/
inductive Goes (t : Tables) (o : Oracle) : Worker → Worker → Prop
  | done {w : Worker} (x : Except Exn Reply) : Goes t o w (.done x)
  | idle : Goes t o .idle .idle
  | configure {d : AlertDestination} {g : Grant}
      (hauth : authorize t d.destinationRef none true o.decision = .ok g)
      (hpolicy : g.policyRef = d.policyRef) : Goes t o (.configureStart d) (.configureCommit d g)
  | enqueue {destination : String} {limit : Nat} (g : Grant) :
      Goes t o (.enqueueStart destination limit) (.enqueueCommit destination limit g)
  | dispatch {destination : String} {transportRef : Option String} :
      Goes t o (.sendStart destination transportRef) (.sendPreview destination transportRef)
  | pass {destination : String} {transportRef : Option String}
      (hnone : preview t destination o.now = none) :
      Goes t o (.sendPreview destination transportRef)
        (.sendCommit destination transportRef o.now o.uuid none)
  | choose {destination : String} {transportRef : Option String} {row : Delivery}
      (hrow : preview t destination o.now = some row) :
      Goes t o (.sendPreview destination transportRef)
        (.sendAuthorize destination transportRef o.now o.uuid row.deliveryId)
  | again {destination token delivery : String} {transportRef : Option String} {now : ℚ} :
      Goes t o (.sendAuthorize destination transportRef now token delivery)
        (.sendCommit destination transportRef now token (some delivery))
  | claim {destination token : String} {transportRef previewed : Option String} {now : ℚ} {t' : Tables}
      {c : Claim}
      (hclaim : claimNext t destination transportRef now token previewed = .ok (t', .claimed c)) :
      Goes t o (.sendCommit destination transportRef now token previewed) (.holding c)
  | send {c : Claim} : Goes t o (.holding c) (.sending c)
  | hear {c : Claim} {outcome : AlertOutcome} (hanswer : normalize o.answer = .ok outcome) :
      Goes t o (.sending c) (.finishing c outcome)
  | clock {c : Claim} {outcome : AlertOutcome} :
      Goes t o (.finishing c outcome) (.finishCommit c outcome o.now)
  | renew {delivery destination : String} {v reason : Json} :
      Goes t o (.renewStart delivery v reason) (.renewAuthorize delivery destination v reason)
  | grant {delivery destination reason : String} {v : Int} {v' reason' : Json} (g : Grant) :
      Goes t o (.renewAuthorize delivery destination v' reason') (.renewCommit delivery v reason g)
  | reconcile {delivery : String} {v : Json} {transportRef : Option String} {row : Delivery} :
      Goes t o (.reconcileStart delivery v transportRef) (.reconcileAuthorize row v transportRef)
  | check {row : Delivery} {v : Json} {transportRef : Option String} :
      Goes t o (.reconcileAuthorize row v transportRef) (.reconcileCheck row v transportRef)
  | allow {row : Delivery} {v : Json} {n : Int} {transportRef : Option String} :
      Goes t o (.reconcileCheck row v transportRef) (.reconcileAllow row.deliveryId n)
  | count {delivery : String} {v : Int} {n : Nat} :
      Goes t o (.reconcileAllow delivery v) (.allowed delivery v n)
  | query {delivery : String} {v : Int} {n : Nat} :
      Goes t o (.allowed delivery v n) (.querying delivery v)
  | prove {delivery : String} {v : Int} {p : Proof} (hproof : proof? o.answer = .ok (some p)) :
      Goes t o (.querying delivery v) (.reconcileCommit delivery v p)

variable {t : Tables} {o : Oracle} {worker : Worker}

theorem goes_transact {α : Type} {x : Except Exn (Tables × α)} {k : α → Worker × List Event}
    (h : ∀ t' a, x = .ok (t', a) → Goes t o worker (k a).1) :
    Goes t o worker (transact t x k).2.1 := by
  unfold transact
  split
  · exact h _ _ rfl
  · exact .done _

theorem goes_proceed {α : Type} {x : Except Exn α} {k : α → Except Exn Worker}
    (h : ∀ a worker', x = .ok a → k a = .ok worker' → Goes t o worker worker') :
    Goes t o worker (proceed (x >>= k)) := by
  cases hx : x >>= k with
  | error e => exact .done _
  | ok worker' =>
      obtain ⟨a, ha, hk⟩ := bind_eq_ok.mp hx
      exact h a worker' ha hk

theorem advance_goes (incidents : Incidents.Tables) (t : Tables) (o : Oracle) (worker : Worker) :
    Goes t o worker (advance incidents t o worker).2.1 := by
  cases worker with
  | idle => exact .idle
  | done x => exact .done x
  | configureStart d =>
      refine goes_proceed fun g worker' hauth hk => ?_
      split at hk
      · cases hk
      · next hpolicy =>
        cases hk
        exact .configure hauth (not_not.mp hpolicy)
  | configureCommit d g => exact goes_transact fun _ _ _ => .done _
  | enqueueStart destination limit =>
      refine goes_proceed fun g worker' _ hk => ?_
      cases hk
      exact .enqueue g
  | enqueueCommit destination limit g => exact goes_transact fun _ _ _ => .done _
  | sendStart destination transportRef =>
      refine goes_proceed fun g worker' _ hk => ?_
      cases hk
      exact .dispatch
  | sendPreview destination transportRef =>
      simp only [advance, observe]
      split
      · next hnone => exact .pass hnone
      · next row hrow => exact .choose hrow
  | sendAuthorize destination transportRef now token delivery =>
      refine goes_proceed fun g worker' _ hk => ?_
      cases hk
      exact .again
  | sendCommit destination transportRef now token previewed =>
      refine goes_transact fun t' r hclaim => ?_
      cases r with
      | claimed c => exact .claim hclaim
      | _ => exact .done _
  | holding c => exact .send
  | sending c =>
      simp only [advance, observe]
      split
      · exact .done _
      · next outcome hanswer => exact .hear hanswer
  | finishing c outcome => exact .clock
  | finishCommit c outcome now => exact goes_transact fun _ _ _ => .done _
  | renewStart delivery v reason =>
      simp only [advance, observe]
      split
      · exact .done _
      · exact .renew
  | renewAuthorize delivery destination v reason =>
      refine goes_proceed fun g worker' _ hk => ?_
      split at hk
      · split at hk
        · cases hk
          exact .grant g
        · cases hk
      · cases hk
  | renewCommit delivery v reason g => exact goes_transact fun _ _ _ => .done _
  | reconcileStart delivery v transportRef =>
      simp only [advance, observe]
      split
      · exact .done _
      · exact .reconcile
  | reconcileAuthorize row v transportRef =>
      refine goes_proceed fun g worker' _ hk => ?_
      cases hk
      exact .check
  | reconcileCheck row v transportRef =>
      simp only [advance, observe]
      split
      · exact .done _
      · split
        · split
          · exact .done _
          · exact .allow
        · exact .done _
  | reconcileAllow delivery v => exact goes_transact fun _ _ _ => .count
  | allowed delivery v n => exact .query
  | querying delivery v =>
      simp only [advance, observe]
      split
      · exact .done _
      · exact .done _
      · next p hproof => exact .prove hproof
  | reconcileCommit delivery v p => exact goes_transact fun _ _ _ => .done _

/-! ## Looking back -/

/-- What an input makes of one worker. -/
theorem next_worker (w : World) (i : Input) (j : Nat) :
    (w.next i).1.workers j = w.workers j ∨
      (∃ o, i = .step j o ∧
        (w.next i).1.workers j = (advance w.incidents w.tables o (w.workers j)).2.1) ∨
      (∃ c, i = .call j c ∧ (w.next i).1.workers j = begin c) ∨
      (w.next i).1.workers j = .idle := by
  cases i with
  | incident write => exact Or.inl rfl
  | call k c =>
      by_cases hk : j = k
      · subst hk
        simp only [World.next]
        split
        · exact Or.inr (Or.inr (Or.inl ⟨c, rfl, Function.update_self ..⟩))
        · exact Or.inr (Or.inr (Or.inl ⟨c, rfl, Function.update_self ..⟩))
        · exact Or.inl rfl
      · refine Or.inl ?_
        simp only [World.next]
        split
        · exact Function.update_of_ne hk ..
        · exact Function.update_of_ne hk ..
        · rfl
  | step k o =>
      by_cases hk : j = k
      · subst hk
        exact Or.inr (Or.inl ⟨o, rfl, Function.update_self ..⟩)
      · exact Or.inl (Function.update_of_ne hk ..)
  | crash k =>
      by_cases hk : j = k
      · subst hk
        exact Or.inr (Or.inr (Or.inr (Function.update_self ..)))
      · exact Or.inl (Function.update_of_ne hk ..)

/-- The step of a worker that brought it where it is. -/
theorem since_last {Q : Worker → Prop} (hidle : ¬ Q .idle) (hbegin : ∀ c, ¬ Q (begin c))
    (h : Q ((system.run (World.initial incidents) is).workers j)) :
    ∃ a o b, is = a ++ .step j o :: b ∧
      ¬ Q ((system.run (World.initial incidents) a).workers j) ∧
      Q (advance (system.run (World.initial incidents) a).incidents
        (system.run (World.initial incidents) a).tables o
        ((system.run (World.initial incidents) a).workers j)).2.1 ∧
      ∀ b', b' <+: b →
        Q ((system.run (World.initial incidents) (a ++ .step j o :: b')).workers j) := by
  induction is using List.reverseRecOn with
  | nil => exact absurd h hidle
  | append_singleton is i ih =>
      have hlast := h
      rw [system.run_snoc] at h
      by_cases hbefore : Q ((system.run (World.initial incidents) is).workers j)
      · -- It holds already, so the step lies further back.
        obtain ⟨a, o, b, rfl, hnot, hstep, hsince⟩ := ih hbefore
        refine ⟨a, o, b ++ [i], by simp, hnot, hstep, fun b' hb' => ?_⟩
        rcases List.prefix_concat_iff.mp hb' with rfl | hb'
        · simpa using hlast
        · exact hsince b' hb'
      · rcases next_worker (system.run (World.initial incidents) is) i j with
          hw | ⟨o, rfl, hw⟩ | ⟨c, rfl, hw⟩ | hw
        · exact absurd (hw ▸ h) hbefore
        · refine ⟨is, o, [], rfl, hbefore, hw ▸ h, fun b' hb' => ?_⟩
          obtain rfl := List.prefix_nil.mp hb'
          exact hlast
        · exact absurd (hw ▸ h) (hbegin c)
        · exact absurd (hw ▸ h) hidle

/-- A worker that stands where no step leads was brought there by its call. -/
theorem since_call {Q : Worker → Prop} (hidle : ¬ Q .idle)
    (hstep : ∀ incidents t o worker, Q (advance incidents t o worker).2.1 → Q worker)
    (h : Q ((system.run (World.initial incidents) is).workers j)) :
    ∃ a c b, is = a ++ .call j c :: b ∧ Q (begin c) ∧
      ∀ b', b' <+: b →
        Q ((system.run (World.initial incidents) (a ++ .call j c :: b')).workers j) := by
  induction is using List.reverseRecOn with
  | nil => exact absurd h hidle
  | append_singleton is i ih =>
      have hlast := h
      have hearlier : Q ((system.run (World.initial incidents) is).workers j) →
          ∃ a c b, is ++ [i] = a ++ .call j c :: b ∧ Q (begin c) ∧ ∀ b', b' <+: b →
            Q ((system.run (World.initial incidents) (a ++ .call j c :: b')).workers j) := by
        intro hbefore
        obtain ⟨a, c, b, rfl, hc, hsince⟩ := ih hbefore
        refine ⟨a, c, b ++ [i], by simp, hc, fun b' hb' => ?_⟩
        rcases List.prefix_concat_iff.mp hb' with rfl | hb'
        · simpa using hlast
        · exact hsince b' hb'
      rw [system.run_snoc] at h
      rcases next_worker (system.run (World.initial incidents) is) i j with
        hw | ⟨o, rfl, hw⟩ | ⟨c, rfl, hw⟩ | hw
      · exact hearlier (hw ▸ h)
      · exact hearlier (hstep _ _ _ _ (hw ▸ h))
      · refine ⟨is, c, [], rfl, hw ▸ h, fun b' hb' => ?_⟩
        obtain rfl := List.prefix_nil.mp hb'
        exact hlast
      · exact absurd (hw ▸ h) hidle

/-! ## Readings of the clock -/

/-- The clock at a step, and later in it. -/
def Input.readings : Input → List ℚ
  | .step _ o => [o.now, o.later]
  | _ => []

def readings (is : List Input) : List ℚ := is.flatMap Input.readings

/-- The clock never goes back. -/
def NeverBack (is : List Input) : Prop := (readings is).Pairwise (· ≤ ·)

theorem readings_append (is js : List Input) : readings (is ++ js) = readings is ++ readings js :=
  List.flatMap_append

theorem NeverBack.left {js : List Input} (h : NeverBack (is ++ js)) : NeverBack is := by
  rw [NeverBack, readings_append] at h
  exact (List.pairwise_append.mp h).1

/-- What was read before a step is no later than the step. -/
theorem NeverBack.le_now {post : List Input} {o : Oracle}
    (h : NeverBack (is ++ .step j o :: post)) (hr : r ∈ readings is) : r ≤ o.now := by
  rw [NeverBack, readings_append] at h
  refine (List.pairwise_append.mp h).2.2 r hr o.now ?_
  simp [readings, Input.readings]

/-- The reading a worker goes by. -/
def Worker.reading? : Worker → Option ℚ
  | .sendAuthorize _ _ now _ _ => some now
  | .sendCommit _ _ now _ _ => some now
  | .finishCommit _ _ now => some now
  | _ => none

theorem reading_begin (c : Call) : (begin c).reading? = none := by
  unfold begin
  split
  · split <;> rfl
  · split
    · split <;> rfl
    · rfl
  · rfl
  · rfl
  · rfl

/-- A step keeps the worker's reading, or takes a new one. -/
theorem reading_advance (h : (advance incidents t o worker).2.1.reading? = some r) :
    r = o.now ∨ worker.reading? = some r := by
  have hgoes := advance_goes incidents t o worker
  generalize (advance incidents t o worker).2.1 = worker' at h hgoes
  cases hgoes with
  | pass => exact Or.inl (Option.some.inj h).symm
  | choose => exact Or.inl (Option.some.inj h).symm
  | again => exact Or.inr h
  | clock => exact Or.inl (Option.some.inj h).symm
  | _ => cases h

/-- The reading a worker goes by was taken in the run. -/
theorem reading_mem
    (h : ((system.run (World.initial incidents) is).workers j).reading? = some r) :
    r ∈ readings is := by
  induction is using List.reverseRecOn with
  | nil => cases h
  | append_singleton is i ih =>
      rw [readings_append]
      rw [system.run_snoc] at h
      rcases next_worker (system.run (World.initial incidents) is) i j with
        hw | ⟨o, rfl, hw⟩ | ⟨c, rfl, hw⟩ | hw
      · exact List.mem_append_left _ (ih (hw ▸ h))
      · rcases reading_advance (hw ▸ h) with rfl | hold
        · exact List.mem_append_right _ (by simp [readings, Input.readings])
        · exact List.mem_append_left _ (ih hold)
      · change ((World.next _ _).1.workers j).reading? = some r at h
        rw [hw, reading_begin] at h
        cases h
      · change ((World.next _ _).1.workers j).reading? = some r at h
        rw [hw] at h
        cases h

end OufGateway.Outbox
