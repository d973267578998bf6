import Mathlib
import OufGateway.Proofs.OutboxBooks
import OufGateway.Proofs.OutboxSpecs

/-!
# What one step of a worker can do

`advance` has some thirty branches; only eleven kinds of them matter to the
tables. `Effect` lists those, each with the facts its transaction has checked,
and `advance_effect` reads them off the code, one `_ok` lemma a transaction.
Everything proved about runs goes by cases on `Effect` and never looks at a
transaction again.

Besides the tables an effect says what becomes of the four things a worker can
have in hand: a claim it has committed and not yet used (`claim?`), an allowance
for a query (`allowance?`), the attempt it may still try to finish (`attempt?`)
and the query it has made (`query?`).
-/

namespace OufGateway.Outbox

open Lib

def Worker.claim? : Worker → Option (String × Nat)
  | .holding c => some (c.deliveryId, c.number)
  | _ => none

def Worker.allowance? : Worker → Option (String × Nat)
  | .allowed d _ n => some (d, n)
  | _ => none

def Worker.attempt? : Worker → Option Claim
  | .holding c => some c
  | .sending c => some c
  | .finishing c _ => some c
  | .finishCommit c _ _ => some c
  | _ => none

def Worker.query? : Worker → Option String
  | .querying d _ => some d
  | .reconcileCommit d _ _ => some d
  | _ => none

/-- A worker with nothing in hand. -/
structure Worker.Free (w : Worker) : Prop where
  claim : w.claim? = none
  allowance : w.allowance? = none
  attempt : w.attempt? = none
  query : w.query? = none

theorem free_done (r : Except Exn Reply) : (Worker.done r).Free := ⟨rfl, rfl, rfl, rfl⟩

theorem free_idle : Worker.idle.Free := ⟨rfl, rfl, rfl, rfl⟩

/-- A delivery as `_enqueue_current` inserts it, with its session. -/
structure Fresh (d : Delivery) (b : Session) : Prop where
  state : d.state = .pending
  version : d.version = 0
  totalAttempts : d.totalAttempts = 0
  reconciliationAttempts : d.reconciliationAttempts = 0
  activeSession : d.activeSession = b.sessionId
  deliveryId : b.deliveryId = d.deliveryId
  attempts : b.attempts = 0
  maxAttempts : b.maxAttempts = 128

/-- What a call of `reconcile_owner_transitions` does to the two tables. -/
inductive Grown : Tables → Tables → Prop
  | refl (t : Tables) : Grown t t
  | insert {t t₁ t' : Tables} {d : Delivery} {b : Session} (hnew : Fresh d b)
      (hins : insertDelivery t d b = .ok t₁) (hrest : Grown t₁ t') : Grown t t'
  | other {t t₁ t' : Tables} (hrest : Grown t₁ t') (hd : t₁.deliveries = t.deliveries)
      (hs : t₁.sessions = t.sessions) : Grown t t'

/-- The state `_finish` gives an outcome of each kind. -/
def Settled : Kind → State → Prop
  | .accepted, s => s = .accepted
  | .permanent, s => s = .paused
  | .unknown, s => s = .unknown
  | .transientNotAccepted, s => s = .pending ∨ s = .exhausted

inductive Effect (t : Tables) (w : Worker) : List Event → Worker → Tables → Prop
  | quiet {w' : Worker} {t' : Tables} (hd : t'.deliveries = t.deliveries)
      (hs : t'.sessions = t.sessions) (hc : w'.claim? = none) (ha : w'.allowance? = none)
      (hat : ∀ c, w'.attempt? = some c → w.attempt? = some c)
      (hqu : ∀ d, w'.query? = some d → w.query? = some d) : Effect t w [] w' t'
  | grown {w' : Worker} {t' : Tables} (h : Grown t t') (hw' : w'.Free) : Effect t w [] w' t'
  | swept {w' : Worker} (now : ℚ) (hw' : w'.Free) : Effect t w [] w' (sweep t now)
  | exhausted {w' : Worker} (now : ℚ) {d : String} {row : Delivery}
      (hrow : (sweep t now).deliveries.find? d = some row) (hp : row.state = .pending)
      (hw' : w'.Free) : Effect t w [] w' (exhaust (sweep t now) d)
  | claimed (now : ℚ) {row : Delivery} {budget : Session} {c : Claim} (token : String) (lease : ℚ)
      (hrow : (sweep t now).deliveries.find? c.deliveryId = some row) (hp : row.state = .pending)
      (hb : (sweep t now).sessions.find? row.activeSession = some budget)
      (hv : c.version = row.version + 1) (hn : c.number = row.totalAttempts + 1) :
      Effect t w [.claimed c.deliveryId c.number] (.holding c) (claim (sweep t now) row token lease)
  | sent {c : Claim} (hw : w = .holding c) :
      Effect t w [.sent c.deliveryId c.number] (.sending c) t
  | finished {w' : Worker} {c : Claim} {row : Delivery} {kind : Kind} {s : State} {now lease : ℚ}
      (due : ℚ) (receipt : String) (hw : w.attempt? = some c)
      (hrow : t.deliveries.find? c.deliveryId = some row) (hf : row.state = .inFlight)
      (hv : row.version = c.version) (hl : row.leaseUntil = some lease) (hnow : now < lease)
      (hs : Settled kind s) (hw' : w'.Free) :
      Effect t w [.finished c.deliveryId c.number kind s now] w' (writeOutcome t row s due receipt)
  | renewed {w' : Worker} {t' : Tables} {d : String} {row : Delivery} {b : Session}
      (hrow : t.deliveries.find? d = some row) (he : row.state = .exhausted)
      (hb : b.deliveryId = d) (ha : b.attempts = 0) (hm : b.maxAttempts = 128)
      (hok : openSession t row b = .ok t') (hw' : w'.Free) : Effect t w [.renewed d] w' t'
  | allowed {d : String} {v : Int} {row : Delivery} (hrow : t.deliveries.find? d = some row)
      (hu : row.state = .unknown) (hlt : row.reconciliationAttempts < 8) :
      Effect t w [.allowed d (row.reconciliationAttempts + 1)]
        (.allowed d v (row.reconciliationAttempts + 1)) (allow t d)
  | queried {d : String} {v : Int} {n : Nat} (hw : w = .allowed d v n) :
      Effect t w [.queried d n] (.querying d v) t
  | reconciled {w' : Worker} {d : String} {row : Delivery} {kind : Kind} {s : State} (due : ℚ)
      (receipt : Option String) (hw : w.query? = some d)
      (hrow : t.deliveries.find? d = some row) (hu : row.state = .unknown) (hs : Settled kind s)
      (hk : kind = .accepted ∨ kind = .transientNotAccepted) (hw' : w'.Free) :
      Effect t w [.reconciled d kind s] w' (writeProof t row s due receipt)

/-! ## Transactions that committed -/

theorem configure_ok {t t' : Tables} {d : AlertDestination} {grant : Grant} {uuid : String}
    {now : ℚ} (hok : configure t d grant uuid now = .ok t') :
    t'.deliveries = t.deliveries ∧ t'.sessions = t.sessions := by
  cases configure_spec hok with
  | again => exact ⟨rfl, rfl⟩
  | first => exact ⟨rfl, rfl⟩

theorem enqueueCurrent_ok {incidents : Incidents.Tables} {t t' : Tables}
    {item : Incidents.Incident} {config : Destination} {grant : Grant} {draw : Draw}
    (hok : enqueueCurrent incidents t item config grant draw = .ok t') :
    t' = t ∨ ∃ d b, Fresh d b ∧ insertDelivery t d b = .ok t' := by
  unfold enqueueCurrent at hok
  simp only [] at hok
  split at hok
  · injection hok with hok
    exact Or.inl hok.symm
  · split at hok
    · injection hok with hok
      exact Or.inl hok.symm
    · split at hok
      · injection hok with hok
        exact Or.inl hok.symm
      · split at hok
        · cases hok
        · split at hok
          · cases hok
          · exact Or.inr ⟨_, _, ⟨rfl, rfl, rfl, rfl, rfl, rfl, rfl, rfl⟩, hok⟩

theorem enqueueGroups_ok {incidents : Incidents.Tables} {config : Destination} {grant : Grant}
    {draws : Nat → Draw} {groups : List (Nat × Incidents.Incident)} :
    ∀ {k : Nat} {t t' : Tables},
      enqueueGroups incidents config grant draws k groups t = .ok t' → Grown t t' := by
  induction groups with
  | nil =>
      intro k t t' hok
      injection hok with hok
      subst hok
      exact .refl _
  | cons g rest ih =>
      intro k t t' hok
      obtain ⟨revision, item⟩ := g
      rw [enqueueGroups] at hok
      split at hok
      · cases hok
      · next t₁ h1 =>
        -- The receipt is no part of the two tables.
        have hrest := ih hok
        rcases enqueueCurrent_ok h1 with rfl | ⟨d, b, hnew, hins⟩
        · exact .other hrest rfl rfl
        · exact .insert hnew hins (.other hrest rfl rfl)

theorem reconcileOwnerTransitions_ok {incidents : Incidents.Tables} {t t' : Tables}
    {destination : String} {limit : Nat} {grant : Grant} {draws : Nat → Draw} {r : Nat × Bool}
    (hok : reconcileOwnerTransitions incidents t destination limit grant draws = .ok (t', r)) :
    Grown t t' := by
  unfold reconcileOwnerTransitions at hok
  split at hok
  · cases hok
  · split at hok
    · cases hok
    · simp only [] at hok
      split at hok
      · cases hok
      · next t₁ h1 =>
        injection hok with hok
        injection hok with hok
        subst hok
        exact enqueueGroups_ok h1

theorem claimNext_ok {t t' : Tables} {destination : String} {transportRef : Option String}
    {now : ℚ} {token : String} {previewed : Option String} {r : Dispatch}
    (hok : claimNext t destination transportRef now token previewed = .ok (t', r)) :
    (t' = sweep t now ∧ ∀ c, r ≠ .claimed c) ∨
    (∃ d row, (sweep t now).deliveries.find? d = some row ∧ row.state = .pending ∧
      t' = exhaust (sweep t now) d ∧ ∀ c, r ≠ .claimed c) ∨
    ∃ row budget c lease, (sweep t now).deliveries.find? c.deliveryId = some row ∧
      row.state = .pending ∧ (sweep t now).sessions.find? row.activeSession = some budget ∧
      c.version = row.version + 1 ∧ c.number = row.totalAttempts + 1 ∧
      t' = claim (sweep t now) row token lease ∧ r = .claimed c := by
  unfold claimNext at hok
  split at hok
  · cases hok
  · split at hok
    · cases hok
    · simp only [] at hok
      split at hok
      · cases hok
        exact Or.inl ⟨rfl, by simp⟩
      · split at hok
        · cases hok
          exact Or.inl ⟨rfl, by simp⟩
        · next row hfound =>
          rw [Option.filter_eq_some_iff] at hfound
          obtain ⟨hrow, hcond⟩ := hfound
          have hp : row.state = .pending := by
            simp only [Bool.and_eq_true, decide_eq_true_eq] at hcond
            exact hcond.1.2
          rw [← Table.find?_key hrow] at hrow
          split at hok
          · cases hok
            exact Or.inl ⟨rfl, by simp⟩
          · next budget hb =>
            split at hok
            · cases hok
              exact Or.inr (Or.inl ⟨_, row, hrow, hp, rfl, by simp⟩)
            · cases hok
              exact Or.inr (Or.inr ⟨row, budget, _, _, hrow, hp, hb, rfl, rfl, rfl, rfl⟩)

theorem settle_ok {budget : Session} {outcome : AlertOutcome} {now : ℚ} {jitter : Option ℚ}
    {r : State × ℚ} (hok : settle budget outcome now jitter = .ok r) :
    Settled outcome.kind r.1 := by
  unfold settle at hok
  split at hok
  · next hk => cases hok; rw [hk]; rfl
  · next hk => cases hok; rw [hk]; rfl
  · next hk => cases hok; rw [hk]; rfl
  · next hk =>
    rw [hk]
    split at hok
    · cases hok
    · simp only [] at hok
      split at hok
      · cases hok
        exact Or.inr rfl
      · cases hok
        exact Or.inl rfl

theorem finish_ok {t t' : Tables} {c : Claim} {outcome : AlertOutcome} {now : ℚ}
    {jitter : Option ℚ} {s : State} (hok : finish t c outcome now jitter = .ok (t', s)) :
    ∃ row lease due, t.deliveries.find? c.deliveryId = some row ∧ row.state = .inFlight ∧
      row.version = c.version ∧ row.leaseUntil = some lease ∧ now < lease ∧
      Settled outcome.kind s ∧ t' = writeOutcome t row s due outcome.receiptRef := by
  unfold finish at hok
  split at hok
  · cases hok
  · next row hrow =>
    split at hok
    · cases hok
    · split at hok
      · cases hok
      · next hcheck =>
        push Not at hcheck
        obtain ⟨hf, -, hv⟩ := hcheck
        split at hok
        · cases hok
        · next lease hl =>
          split at hok
          · cases hok
          · next hnow =>
            split at hok
            · cases hok
            · next s' due hset =>
              cases hok
              exact ⟨row, lease, due, hrow, hf, hv, hl, not_le.1 hnow, settle_ok hset, rfl⟩

theorem renew_ok {t t' : Tables} {d : String} {v : Int} {reason : String} {grant : Grant}
    {sid : String} {now : ℚ} (hok : renew t d v reason grant sid now = .ok t') :
    ∃ row b, t.deliveries.find? d = some row ∧ row.state = .exhausted ∧ b.deliveryId = d ∧
      b.attempts = 0 ∧ b.maxAttempts = 128 ∧ openSession t row b = .ok t' := by
  unfold renew at hok
  split at hok
  · cases hok
  · next row hrow =>
    split at hok
    · cases hok
    · next hcheck =>
      push Not at hcheck
      exact ⟨row, _, hrow, hcheck.1, rfl, rfl, rfl, hok⟩

theorem takeAllowance_ok {t t' : Tables} {d : String} {v : Int} {n : Nat}
    (hok : takeAllowance t d v = .ok (t', n)) :
    ∃ row, t.deliveries.find? d = some row ∧ row.state = .unknown ∧
      row.reconciliationAttempts < 8 ∧ t' = allow t d ∧ n = row.reconciliationAttempts + 1 := by
  unfold takeAllowance at hok
  split at hok
  · cases hok
  · next row hfound =>
    rw [Option.filter_eq_some_iff] at hfound
    obtain ⟨hrow, hcond⟩ := hfound
    simp only [Bool.and_eq_true, decide_eq_true_eq] at hcond
    cases hok
    exact ⟨row, hrow, hcond.1.2, hcond.2, rfl, rfl⟩

theorem commitProof_ok {t t' : Tables} {d : String} {v : Int} {p : Proof} {now later : ℚ}
    {s : State} (hok : commitProof t d v p now later = .ok (t', s)) :
    ∃ row receipt, t.deliveries.find? d = some row ∧ row.state = .unknown ∧ Settled p.kind s ∧
      t' = writeProof t row s later receipt := by
  unfold commitProof at hok
  split at hok
  · cases hok
  · next row hrow =>
    split at hok
    · cases hok
    · next budget hb =>
      split at hok
      · cases hok
      · next hcheck =>
        push Not at hcheck
        split at hok
        · cases hok
        · next receipt hr =>
          cases hok
          refine ⟨row, receipt, hrow, hcheck.1, ?_, rfl⟩
          cases p with
          | accepted r => rfl
          | notAccepted r =>
              show _ = _ ∨ _ = _
              rw [Proof.state]
              split
              · exact Or.inl rfl
              · exact Or.inr rfl

/-! ## Steps that only read -/

theorem free_proceed {α : Type} (x : Except Exn α) (k : α → Except Exn Worker)
    (h : ∀ a w, k a = .ok w → w.Free) : (proceed (x >>= k)).Free := by
  cases hx : x >>= k with
  | error e => exact free_done _
  | ok w =>
      obtain ⟨a, -, hk⟩ := bind_eq_ok.1 hx
      exact h a w hk

/-- A step that only reads puts nothing in a worker's hand; the worker can
only keep the attempt it has. -/
theorem observe_quiet (t : Tables) (o : Oracle) (w : Worker) (hc : w.claim? = none)
    (ha : w.allowance? = none) :
    (observe t o w).claim? = none ∧ (observe t o w).allowance? = none ∧
      (∀ c, (observe t o w).attempt? = some c → w.attempt? = some c) ∧
      ∀ d, (observe t o w).query? = some d → w.query? = some d := by
  have of_free : ∀ w' : Worker, w'.Free → w'.claim? = none ∧ w'.allowance? = none ∧
      (∀ c, w'.attempt? = some c → w.attempt? = some c) ∧
      ∀ d, w'.query? = some d → w.query? = some d := by
    intro w' hw'
    refine ⟨hw'.claim, hw'.allowance, fun c h => ?_, fun d h => ?_⟩
    · rw [hw'.attempt] at h
      cases h
    · rw [hw'.query] at h
      cases h
  unfold observe
  split
  · refine of_free _ (free_proceed _ _ fun g w' h => ?_)
    split at h
    · cases h
    · cases h
      exact ⟨rfl, rfl, rfl, rfl⟩
  · refine of_free _ (free_proceed _ _ fun g w' h => ?_)
    cases h
    exact ⟨rfl, rfl, rfl, rfl⟩
  · refine of_free _ (free_proceed _ _ fun g w' h => ?_)
    cases h
    exact ⟨rfl, rfl, rfl, rfl⟩
  · split
    · exact of_free _ ⟨rfl, rfl, rfl, rfl⟩
    · exact of_free _ ⟨rfl, rfl, rfl, rfl⟩
  · refine of_free _ (free_proceed _ _ fun g w' h => ?_)
    cases h
    exact ⟨rfl, rfl, rfl, rfl⟩
  · split
    · exact of_free _ (free_done _)
    · exact ⟨rfl, rfl, fun _ h => h, fun _ h => h⟩
  · exact ⟨rfl, rfl, fun _ h => h, fun _ h => h⟩
  · split
    · exact of_free _ (free_done _)
    · exact of_free _ ⟨rfl, rfl, rfl, rfl⟩
  · refine of_free _ (free_proceed _ _ fun g w' h => ?_)
    split at h
    · split at h
      · cases h
        exact ⟨rfl, rfl, rfl, rfl⟩
      · cases h
    · cases h
  · split
    · exact of_free _ (free_done _)
    · exact of_free _ ⟨rfl, rfl, rfl, rfl⟩
  · refine of_free _ (free_proceed _ _ fun g w' h => ?_)
    cases h
    exact ⟨rfl, rfl, rfl, rfl⟩
  · split
    · exact of_free _ (free_done _)
    · split
      · split
        · exact of_free _ (free_done _)
        · exact of_free _ ⟨rfl, rfl, rfl, rfl⟩
      · exact of_free _ (free_done _)
  · split
    · exact of_free _ (free_done _)
    · exact of_free _ (free_done _)
    · exact ⟨rfl, rfl, fun _ h => h, fun _ h => h⟩
  · exact ⟨hc, ha, fun _ h => h, fun _ h => h⟩

/-! ## Every step -/

theorem effect_fail (t : Tables) (w : Worker) (e : Exn) : Effect t w [] (fail e) t :=
  .quiet rfl rfl rfl rfl (fun _ h => by cases h) fun _ h => by cases h

theorem effect_transact {α : Type} {t : Tables} {w : Worker} {x : Except Exn (Tables × α)}
    {k : α → Worker × List Event}
    (h : ∀ t' a, x = .ok (t', a) → Effect t w (k a).2 (k a).1 t') :
    Effect t w (transact t x k).2.2 (transact t x k).2.1 (transact t x k).1 := by
  unfold transact
  split
  · next t' a => exact h t' a rfl
  · next e => exact effect_fail t w e

theorem map_unit_eq_ok {x : Except Exn Tables} {t' : Tables} {u : Unit}
    (h : x.map (fun y => (y, ())) = .ok (t', u)) : x = .ok t' := by
  cases x with
  | error e => cases h
  | ok y => cases h; rfl

/-- One step of a worker is one of the effects. -/
theorem advance_effect (incidents : Incidents.Tables) (t : Tables) (o : Oracle) (w : Worker) :
    Effect t w (advance incidents t o w).2.2 (advance incidents t o w).2.1
      (advance incidents t o w).1 := by
  have quiet : w.claim? = none → w.allowance? = none → Effect t w [] (observe t o w) t := by
    intro hc ha
    obtain ⟨hc', ha', hat, hqu⟩ := observe_quiet t o w hc ha
    exact .quiet rfl rfl hc' ha' hat hqu
  unfold advance
  split
  · refine effect_transact fun t' _ hok => ?_
    obtain ⟨hd, hs⟩ := configure_ok (map_unit_eq_ok hok)
    exact .quiet hd hs rfl rfl (fun _ h => by cases h) fun _ h => by cases h
  · refine effect_transact fun t' _ hok => ?_
    exact .grown (reconcileOwnerTransitions_ok hok) (free_done _)
  · refine effect_transact fun t' r hok => ?_
    rcases claimNext_ok hok with ⟨rfl, hr⟩ | ⟨d, row, hrow, hp, rfl, hr⟩ |
      ⟨row, budget, c, lease, hrow, hp, hb, hv, hn, rfl, rfl⟩
    · cases r with
      | claimed c => exact absurd rfl (hr c)
      | _ => exact .swept _ (free_done _)
    · cases r with
      | claimed c => exact absurd rfl (hr c)
      | _ => exact .exhausted _ hrow hp (free_done _)
    · exact .claimed _ _ _ hrow hp hb hv hn
  · exact .sent rfl
  · refine effect_transact fun t' s hok => ?_
    obtain ⟨row, lease, due, hrow, hf, hv, hl, hnow, hs, rfl⟩ := finish_ok hok
    exact .finished due _ rfl hrow hf hv hl hnow hs (free_done _)
  · refine effect_transact fun t' _ hok => ?_
    obtain ⟨row, b, hrow, he, hb, ha, hm, hopen⟩ := renew_ok (map_unit_eq_ok hok)
    exact .renewed hrow he hb ha hm hopen (free_done _)
  · refine effect_transact fun t' n hok => ?_
    obtain ⟨row, hrow, hu, hlt, rfl, rfl⟩ := takeAllowance_ok hok
    exact .allowed hrow hu hlt
  · exact .queried rfl
  · next d v p =>
    refine effect_transact fun t' s hok => ?_
    obtain ⟨row, receipt, hrow, hu, hs, rfl⟩ := commitProof_ok hok
    refine .reconciled _ _ rfl hrow hu hs ?_ (free_done _)
    cases p with
    | accepted r => exact Or.inl rfl
    | notAccepted r => exact Or.inr rfl
  · cases w with
    | holding c => next _ _ _ h _ _ _ _ _ => exact absurd rfl (h c)
    | allowed d v n => next _ _ _ _ _ _ _ h _ => exact absurd rfl (h d v n)
    | _ => exact quiet rfl rfl

end OufGateway.Outbox
