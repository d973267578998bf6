import Mathlib
import OufGateway.Lib.Except
import OufGateway.Lib.Table
import OufGateway.Lib.Trace
import OufGateway.Ref.Outbox
import OufGateway.Proofs.OutboxBooks
import OufGateway.Proofs.OutboxSteps
import OufGateway.Proofs.Reconcile

/-!
# The capacity of the outbox

Four inserts and one claim are guarded by counts; everything else moves deliveries
between states and checks none. `Capacity` holds all the same, because the unguarded
moves go one way: nothing leaves `ACCEPTED`, and only a claim leads to `IN_FLIGHT`. The
file goes through the transactions with this in mind, first the updates, then the
guards, and ends with the calls that are turned away, which have written nothing.
-/

namespace OufGateway.Outbox

open Lib

/-- `state not in ('ACCEPTED','CANCELLED')`. -/
def Delivery.live (d : Delivery) : Bool := d.state ≠ .accepted

def Delivery.flying (d : Delivery) : Bool := d.state = .inFlight

structure Capacity (t : Tables) : Prop where
  destinations : t.destinations.rows.length ≤ 32
  deliveries : t.deliveries.rows.length ≤ 4096
  live : t.deliveries.count (·.live) ≤ 1024
  liveAt : ∀ d, (t.deliveries.count fun r => r.destinationRef = d && r.live) ≤ 128
  receipts : t.receipts.length ≤ 200000
  flying : t.deliveries.count (·.flying) ≤ 16
  flyingAt : ∀ d, (t.deliveries.count fun r => r.flying && r.destinationRef = d) ≤ 2

variable {t t' : Tables}

/-- What no step but an insert or a claim does. -/
structure Drains (t t' : Tables) : Prop where
  destinations : t'.destinations.rows.length = t.destinations.rows.length
  receipts : t'.receipts.length = t.receipts.length
  deliveries : t'.deliveries.rows.length = t.deliveries.rows.length
  live : t'.deliveries.count (·.live) ≤ t.deliveries.count (·.live)
  liveAt : ∀ d, (t'.deliveries.count fun r => r.destinationRef = d && r.live) ≤
    t.deliveries.count fun r => r.destinationRef = d && r.live
  flying : t'.deliveries.count (·.flying) ≤ t.deliveries.count (·.flying)
  flyingAt : ∀ d, (t'.deliveries.count fun r => r.flying && r.destinationRef = d) ≤
    t.deliveries.count fun r => r.flying && r.destinationRef = d

theorem Drains.rfl : Drains t t :=
  ⟨Eq.refl _, Eq.refl _, Eq.refl _, le_rfl, fun _ => le_rfl, le_rfl, fun _ => le_rfl⟩

theorem Drains.trans {t'' : Tables} (h : Drains t t') (h' : Drains t' t'') : Drains t t'' where
  destinations := h'.destinations.trans h.destinations
  receipts := h'.receipts.trans h.receipts
  deliveries := h'.deliveries.trans h.deliveries
  live := h'.live.trans h.live
  liveAt d := (h'.liveAt d).trans (h.liveAt d)
  flying := h'.flying.trans h.flying
  flyingAt d := (h'.flyingAt d).trans (h.flyingAt d)

theorem Capacity.drains (h : Capacity t) (hd : Drains t t') : Capacity t' where
  destinations := hd.destinations ▸ h.destinations
  deliveries := hd.deliveries ▸ h.deliveries
  live := hd.live.trans h.live
  liveAt d := (hd.liveAt d).trans (h.liveAt d)
  receipts := hd.receipts ▸ h.receipts
  flying := hd.flying.trans h.flying
  flyingAt d := (hd.flyingAt d).trans (h.flyingAt d)

theorem capacity_empty : Capacity .empty := by
  constructor <;> intros <;> exact Nat.zero_le _

/-! ## Updates -/

section Updates

variable {p : Delivery → Bool} {f : Delivery → Delivery}
  (hf : ∀ r, (f r).deliveryId = r.deliveryId)

/-- An update that brings nothing back to life and claims nothing. -/
theorem drains_update (hd : t'.deliveries = t.deliveries.update p f hf)
    (hdestinations : t'.destinations = t.destinations) (hreceipts : t'.receipts = t.receipts)
    (hdest : ∀ r, (f r).destinationRef = r.destinationRef)
    (hlive : ∀ r ∈ t.deliveries.rows, p r = true → r.live = true)
    (hflying : ∀ r, (f r).flying = false) : Drains t t' := by
  have hnot : ∀ r, (f r).flying = true → False := fun r h => by
    rw [hflying r] at h
    cases h
  constructor
  case destinations => rw [hdestinations]
  case receipts => rw [hreceipts]
  case deliveries =>
    rw [hd]
    exact Table.length_update hf
  case live =>
    rw [hd]
    exact Table.count_update_le hf fun r hr hp _ => hlive r hr hp
  case liveAt =>
    intro d
    rw [hd]
    refine Table.count_update_le hf fun r hr hp hq => ?_
    rw [hdest, Bool.and_eq_true] at hq
    rw [Bool.and_eq_true]
    exact ⟨hq.1, hlive r hr hp⟩
  case flying =>
    rw [hd]
    exact Table.count_update_le hf fun r _ _ hq => (hnot r hq).elim
  case flyingAt =>
    intro d
    rw [hd]
    refine Table.count_update_le hf fun r _ _ hq => ?_
    rw [Bool.and_eq_true] at hq
    exact (hnot r hq.1).elim

/-- The same for the one row a key has. -/
theorem drains_modify {row : Delivery} {k : String}
    (hd : t'.deliveries = t.deliveries.modify k f hf)
    (hdestinations : t'.destinations = t.destinations) (hreceipts : t'.receipts = t.receipts)
    (hrow : t.deliveries.find? k = some row) (hlive : row.state ≠ .accepted)
    (hdest : ∀ r, (f r).destinationRef = r.destinationRef)
    (hflying : ∀ r, (f r).flying = false) : Drains t t' := by
  refine drains_update hf hd hdestinations hreceipts hdest (fun r hr hp => ?_) hflying
  have hr := Table.find?_of_mem hr
  have hk : r.deliveryId = k := of_decide_eq_true hp
  rw [hk, hrow] at hr
  rw [← Option.some.inj hr]
  exact decide_eq_true hlive

end Updates

theorem live_of_state {r : Delivery} {s : State} {c : Bool}
    (h : (decide (r.state = s) && c) = true) (hs : s ≠ .accepted) : r.live = true := by
  rw [Bool.and_eq_true, decide_eq_true_eq] at h
  exact decide_eq_true (h.1 ▸ hs)

theorem drains_sweep (now : ℚ) : Drains t (sweep t now) := by
  have hleases : Drains t (expireLeases t now) :=
    drains_update (by exact fun _ => rfl) rfl rfl rfl (fun _ => rfl)
      (fun r _ hp => live_of_state hp (by decide)) fun _ => rfl
  have hbudgets : Drains (expireLeases t now) (exhaustBudgets (expireLeases t now) now) :=
    drains_update (by exact fun _ => rfl) rfl rfl rfl (fun _ => rfl)
      (fun r _ hp => live_of_state hp (by decide)) fun _ => rfl
  obtain ⟨h₁, h₂, h₃, h₄, h₅, h₆, h₇⟩ := hleases.trans hbudgets
  -- The sessions are marked in another table.
  exact ⟨h₁, h₂, h₃, h₄, h₅, h₆, h₇⟩

theorem drains_exhaust {d : String} {row : Delivery} (hrow : t.deliveries.find? d = some row)
    (hp : row.state = .pending) : Drains t (exhaust t d) :=
  drains_modify (by exact fun _ => rfl) rfl rfl rfl hrow (by rw [hp]; decide) (fun _ => rfl)
    fun _ => rfl

theorem settled_not_flying {kind : Kind} {s : State} (h : Settled kind s) : s ≠ .inFlight := by
  rintro rfl
  cases kind <;> simp [Settled] at h

theorem drains_writeOutcome {row : Delivery} {kind : Kind} {s : State} {due : ℚ}
    {receipt : String} (hrow : t.deliveries.find? row.deliveryId = some row)
    (hf : row.state = .inFlight) (hs : Settled kind s) :
    Drains t (writeOutcome t row s due receipt) :=
  drains_modify (by exact fun _ => rfl) rfl rfl rfl hrow (by rw [hf]; decide) (fun _ => rfl)
    fun _ => decide_eq_false (settled_not_flying hs)

theorem drains_openSession {row : Delivery} {b : Session}
    (hok : openSession t row b = .ok t') (hrow : t.deliveries.find? row.deliveryId = some row)
    (he : row.state = .exhausted) : Drains t t' := by
  obtain ⟨S, -, rfl⟩ := openSession_ok hok
  exact drains_modify (by exact fun _ => rfl) rfl rfl rfl hrow (by rw [he]; decide) (fun _ => rfl)
    fun _ => rfl

theorem drains_writeProof {row : Delivery} {kind : Kind} {s : State} {due : ℚ}
    {receipt : Option String} (hrow : t.deliveries.find? row.deliveryId = some row)
    (hu : row.state = .unknown) (hs : Settled kind s) : Drains t (writeProof t row s due receipt) :=
  drains_modify (by exact fun _ => rfl) rfl rfl rfl hrow (by rw [hu]; decide) (fun _ => rfl)
    fun _ => decide_eq_false (settled_not_flying hs)

/-- An allowance moves no delivery to another state. -/
theorem drains_allow (d : String) : Drains t (allow t d) := by
  have hcount : ∀ q : Delivery → Bool,
      (∀ r, q { r with reconciliationAttempts := r.reconciliationAttempts + 1 } = q r) →
      (allow t d).deliveries.count q ≤ t.deliveries.count q := by
    intro q hq
    unfold allow Table.modify
    refine Table.count_update_le (by exact fun _ => rfl) fun r _ _ h => ?_
    rw [hq] at h
    exact h
  exact ⟨rfl, rfl, Table.length_update (by exact fun _ => rfl), hcount _ fun _ => rfl,
    fun _ => hcount _ fun _ => rfl, hcount _ fun _ => rfl, fun _ => hcount _ fun _ => rfl⟩

/-! ## Guards -/

theorem capacity_configure {d : AlertDestination} {grant : Grant} {uuid : String} {now : ℚ}
    (h : Capacity t) (hok : configure t d grant uuid now = .ok t') : Capacity t' := by
  cases configure_spec hok with
  | again => exact h
  | first hnone hroom hrow haudit =>
      refine ⟨?_, h.deliveries, h.live, h.liveAt, h.receipts, h.flying, h.flyingAt⟩
      exact (Table.length_insert? hrow).trans_le hroom

/-- A new delivery waits, for the destination it is counted at. -/
theorem capacity_enqueueCurrent {incidents : Incidents.Tables} {item : Incidents.Incident}
    {config : Destination} {grant : Grant} {draw : Draw} (h : Capacity t)
    (hok : enqueueCurrent incidents t item config grant draw = .ok t') : Capacity t' := by
  unfold enqueueCurrent at hok
  simp only [] at hok
  split at hok
  · cases hok
    exact h
  split at hok
  · cases hok
    exact h
  split at hok
  · cases hok
    exact h
  split at hok
  · cases hok
  next hroom =>
  split at hok
  · cases hok
  obtain ⟨D, S, hD, -, rfl⟩ := insertDelivery_ok hok
  rw [not_or, not_or, Nat.not_le, Nat.not_le, Nat.not_le] at hroom
  obtain ⟨hall, hlive, hliveAt⟩ := hroom
  refine ⟨h.destinations, ?_, ?_, fun d => ?_, h.receipts, ?_, fun d => ?_⟩
  · show D.rows.length ≤ 4096
    rw [Table.length_insert? hD]
    omega
  · show D.count _ ≤ 1024
    rw [Table.count_insert? hD]
    exact Nat.succ_le_of_lt hlive
  · show D.count _ ≤ 128
    rw [Table.count_insert? hD]
    have hd := h.liveAt d
    split
    · next hhere =>
      rw [Bool.and_eq_true, decide_eq_true_eq] at hhere
      obtain rfl : config.destinationRef = d := hhere.1
      exact Nat.succ_le_of_lt hliveAt
    · exact hd
  · show D.count _ ≤ 16
    rw [Table.count_insert? hD]
    exact h.flying
  · show D.count _ ≤ 2
    rw [Table.count_insert? hD]
    exact h.flyingAt d

/-- The receipts are counted once for the whole batch. -/
theorem capacity_enqueueGroups {incidents : Incidents.Tables} {config : Destination}
    {grant : Grant} {draws : Nat → Draw} {groups : List (Nat × Incidents.Incident)} :
    ∀ {k : Nat} {t t' : Tables}, Capacity t → t.receipts.length + groups.length ≤ 200000 →
      enqueueGroups incidents config grant draws k groups t = .ok t' → Capacity t' := by
  induction groups with
  | nil =>
      intro k t t' h _ hok
      cases hok
      exact h
  | cons g rest ih =>
      intro k t t' h hroom hok
      obtain ⟨revision, item⟩ := g
      rw [enqueueGroups] at hok
      split at hok
      · cases hok
      · next t₁ h₁ =>
        have hone := capacity_enqueueCurrent h h₁
        have hreceipts := (enqueueCurrent_enqueued h₁).receipts
        rw [List.length_cons] at hroom
        have hreceipt : (t₁.receipts ++ [(config.destinationRef, revision)]).length =
            t.receipts.length + 1 := by
          rw [List.length_append, List.length_singleton, hreceipts]
        refine ih ?_ ?_ hok
        · refine ⟨hone.destinations, hone.deliveries, hone.live, hone.liveAt, ?_, hone.flying,
            hone.flyingAt⟩
          show (t₁.receipts ++ _).length ≤ 200000
          omega
        · show (t₁.receipts ++ _).length + rest.length ≤ 200000
          omega

theorem capacity_reconcile {incidents : Incidents.Tables} {destination : String} {limit : Nat}
    {grant : Grant} {draws : Nat → Draw} {r : Nat × Bool} (h : Capacity t)
    (hok : reconcileOwnerTransitions incidents t destination limit grant draws = .ok (t', r)) :
    Capacity t' := by
  unfold reconcileOwnerTransitions at hok
  split at hok
  · cases hok
  split at hok
  · cases hok
  next hroom =>
  simp only [] at hok
  split at hok
  · cases hok
  next t₁ h₁ =>
  cases hok
  have hgroups : (pendingGroups incidents t destination limit).length ≤ limit :=
    List.length_take_le _ _
  exact capacity_enqueueGroups h (by omega) h₁

/-- What a claim has counted. -/
theorem claimNext_room {destination : String} {transportRef : Option String} {now : ℚ}
    {token : String} {previewed : Option String} {c : Claim}
    (hok : claimNext t destination transportRef now token previewed = .ok (t', .claimed c)) :
    (sweep t now).deliveries.count (·.flying) < 16 ∧
      ∃ row lease, (sweep t now).deliveries.find? row.deliveryId = some row ∧
        row.state = .pending ∧ t' = claim (sweep t now) row token lease ∧
        ((sweep t now).deliveries.count fun r =>
          r.flying && r.destinationRef = row.destinationRef) < 2 := by
  unfold claimNext at hok
  split at hok
  · cases hok
  split at hok
  · cases hok
  simp only [] at hok
  split at hok
  · cases hok
  next hroom =>
  rw [not_or, Nat.not_le, Nat.not_le] at hroom
  split at hok
  · cases hok
  next row hfound =>
  obtain ⟨hrow, hcond⟩ := Option.filter_eq_some_iff.mp hfound
  simp only [Bool.and_eq_true, decide_eq_true_eq] at hcond
  rw [← Table.find?_key hrow] at hrow
  split at hok
  · cases hok
  split at hok
  · cases hok
  cases hok
  refine ⟨hroom.1, row, _, hrow, hcond.1.2, rfl, ?_⟩
  rw [hcond.1.1]
  exact hroom.2

theorem capacity_claim {row : Delivery} {token : String} {lease : ℚ} (h : Capacity t)
    (hrow : t.deliveries.find? row.deliveryId = some row) (hp : row.state = .pending)
    (hall : t.deliveries.count (·.flying) < 16)
    (hhere : (t.deliveries.count fun r => r.flying && r.destinationRef = row.destinationRef) < 2) :
    Capacity (claim t row token lease) := by
  have hmine : ∀ r ∈ t.deliveries.rows, decide (r.deliveryId = row.deliveryId) = true →
      r = row := by
    intro r hr hid
    have hfind := Table.find?_of_mem hr
    rw [of_decide_eq_true hid, hrow] at hfind
    exact (Option.some.inj hfind).symm
  have hlive : row.live = true := by
    unfold Delivery.live
    rw [hp]
    rfl
  refine ⟨h.destinations, ?_, ?_, fun d => ?_, h.receipts, ?_, fun d => ?_⟩
  · exact (Table.length_update (by exact fun _ => rfl)).trans_le h.deliveries
  · refine le_trans ?_ h.live
    unfold claim Table.modify
    refine Table.count_update_le (by exact fun _ => rfl) fun r hr hid _ => ?_
    rw [hmine r hr hid]
    exact hlive
  · refine le_trans ?_ (h.liveAt d)
    unfold claim Table.modify
    refine Table.count_update_le (by exact fun _ => rfl) fun r hr hid hq => ?_
    rw [Bool.and_eq_true] at hq
    rw [Bool.and_eq_true]
    refine ⟨hq.1, ?_⟩
    rw [hmine r hr hid]
    exact hlive
  · exact (Table.count_modify_le (by exact fun _ => rfl)).trans (Nat.succ_le_of_lt hall)
  · by_cases hd : row.destinationRef = d
    · rw [← hd]
      exact (Table.count_modify_le (by exact fun _ => rfl)).trans (Nat.succ_le_of_lt hhere)
    · refine le_trans ?_ (h.flyingAt d)
      unfold claim Table.modify
      refine Table.count_update_le (by exact fun _ => rfl) fun r hr hid hq => ?_
      rw [Bool.and_eq_true, decide_eq_true_eq] at hq
      obtain rfl := hmine r hr hid
      exact absurd hq.2 hd

/-! ## Steps and runs -/

theorem capacity_transact {α : Type} {x : Except Exn (Tables × α)} {k : α → Worker × List Event}
    (h : Capacity t) (hok : ∀ t' a, x = .ok (t', a) → Capacity t') :
    Capacity (transact t x k).1 := by
  unfold transact
  split
  · next t' a => exact hok t' a rfl
  · exact h

theorem capacity_advance (incidents : Incidents.Tables) (o : Oracle) (w : Worker)
    (h : Capacity t) : Capacity (advance incidents t o w).1 := by
  unfold advance
  split
  · exact capacity_transact h fun t' _ hok => capacity_configure h (map_unit_eq_ok hok)
  · exact capacity_transact h fun t' _ hok => capacity_reconcile h hok
  · refine capacity_transact h fun t' r hok => ?_
    cases r with
    | claimed c =>
        obtain ⟨hall, row, lease, hrow, hp, rfl, hhere⟩ := claimNext_room hok
        exact capacity_claim (h.drains (drains_sweep _)) hrow hp hall hhere
    | _ =>
        rcases claimNext_ok hok with ⟨rfl, -⟩ | ⟨d, row, hrow, hp, rfl, -⟩ |
          ⟨_, _, _, _, _, _, _, _, _, _, hr⟩
        · exact h.drains (drains_sweep _)
        · exact h.drains ((drains_sweep _).trans (drains_exhaust hrow hp))
        · cases hr
  · exact h
  · refine capacity_transact h fun t' s hok => ?_
    obtain ⟨row, lease, due, hrow, hf, -, -, -, hs, rfl⟩ := finish_ok hok
    rw [← Table.find?_key hrow] at hrow
    exact h.drains (drains_writeOutcome hrow hf hs)
  · refine capacity_transact h fun t' _ hok => ?_
    obtain ⟨row, b, hrow, he, -, -, -, hopen⟩ := renew_ok (map_unit_eq_ok hok)
    rw [← Table.find?_key hrow] at hrow
    exact h.drains (drains_openSession hopen hrow he)
  · refine capacity_transact h fun t' n hok => ?_
    obtain ⟨row, -, -, -, rfl, -⟩ := takeAllowance_ok hok
    exact h.drains (drains_allow _)
  · exact h
  · refine capacity_transact h fun t' s hok => ?_
    obtain ⟨row, receipt, hrow, hu, hs, rfl⟩ := commitProof_ok hok
    rw [← Table.find?_key hrow] at hrow
    exact h.drains (drains_writeProof hrow hu hs)
  · exact h

theorem capacity_next {w : World} (h : Capacity w.tables) (i : Input) :
    Capacity (w.next i).1.tables := by
  cases i with
  | incident write => exact h
  | call n c =>
      unfold World.next
      simp only []
      split <;> exact h
  | step n o => exact capacity_advance w.incidents o (w.workers n) h
  | crash n => exact h

theorem capacity_run (incidents : Incidents.Tables) (is : List Input) :
    Capacity (system.run (World.initial incidents) is).tables :=
  system.invariant (P := fun w _ => Capacity w.tables) capacity_empty
    (fun _ _ i h => capacity_next h i) is

/-! ## Calls that are turned away -/

/-- The codes of a call rejected for capacity. -/
def capacityCodes : List String :=
  ["ALERT_DESTINATION_CAPACITY", "ALERT_RECEIPT_CAPACITY", "ALERT_OUTBOX_CAPACITY",
    "ALERT_PAYLOAD_CAPACITY"]

def Exn.capacity : Exn → Bool
  | .blocked code => code ∈ capacityCodes
  | _ => false

/-- The call has not written yet, or was rejected for capacity. -/
def Worker.Unwritten : Worker → Prop
  | .done (.ok _) => False
  | .done (.error e) => e.capacity = true
  | .holding _ => False
  | .sending _ => False
  | .finishing _ _ => False
  | .finishCommit _ _ _ => False
  | .allowed _ _ _ => False
  | .querying _ _ => False
  | .reconcileCommit _ _ _ => False
  | _ => True

theorem kind?_not_capacity {v : Json} {e : Exn} (h : kind? v = .error e) : e.capacity = false := by
  cases v <;> cases h <;> rfl

theorem normalize_not_capacity {a : TransportAnswer} {e : Exn} (h : normalize a = .error e) :
    e.capacity = false := by
  unfold normalize at h
  split at h
  · cases h
  · cases h
  · split at h
    · next e' he =>
      cases h
      exact kind?_not_capacity he
    · cases h
    · split at h
      · split at h <;> cases h
      · cases h

theorem settle_not_capacity {budget : Session} {outcome : AlertOutcome} {now : ℚ}
    {jitter : Option ℚ} {e : Exn} (h : settle budget outcome now jitter = .error e) :
    e.capacity = false := by
  unfold settle at h
  split at h
  · cases h
  · cases h
  · cases h
  · split at h
    · cases h
      decide
    · simp only [] at h
      split at h <;> cases h

theorem finish_not_capacity {c : Claim} {outcome : AlertOutcome} {now : ℚ} {jitter : Option ℚ}
    {e : Exn} (h : finish t c outcome now jitter = .error e) : e.capacity = false := by
  unfold finish at h
  split at h
  · cases h
    decide
  split at h
  · cases h
    decide
  split at h
  · cases h
    decide
  split at h
  · cases h
    rfl
  split at h
  · cases h
    decide
  split at h
  · next e' he =>
    cases h
    exact settle_not_capacity he
  · cases h

theorem proof?_not_capacity {a : TransportAnswer} {e : Exn} (h : proof? a = .error e) :
    e.capacity = false := by
  unfold proof? at h
  split at h
  · cases h
  · cases h
  split at h
  · next e' he =>
    cases h
    exact kind?_not_capacity he
  · split at h
    · split at h
      · next v _ _ _ e' he =>
        cases h
        unfold length? at he
        split at he <;> cases he
        rfl
      · cases h
    · cases h
  · cases h
  · cases h

theorem bindText_not_capacity {v : Json} {e : Exn} (h : bindText v = .error e) : e.capacity = false := by
  unfold bindText at h
  split at h
  all_goals first
    | (cases h; rfl)
    | cases h
    | (split at h <;> cases h; rfl)

theorem commitProof_not_capacity {d : String} {v : Int} {p : Proof} {now later : ℚ} {e : Exn}
    (h : commitProof t d v p now later = .error e) : e.capacity = false := by
  unfold commitProof at h
  split at h
  · cases h
    rfl
  split at h
  · cases h
    rfl
  split at h
  · cases h
    decide
  split at h
  · next e' he =>
    cases h
    exact bindText_not_capacity he
  · cases h

/-- A transaction that leads on to a worker that has not written was rolled back. -/
theorem transact_unwritten {α : Type} {x : Except Exn (Tables × α)}
    {k : α → Worker × List Event} (hk : ∀ a, ¬ (k a).1.Unwritten)
    (h : (transact t x k).2.1.Unwritten) :
    (transact t x k).1 = t ∧ ∃ e, x = .error e ∧ e.capacity = true := by
  unfold transact at h ⊢
  split at h
  · next t' a => exact absurd h (hk a)
  · next e => exact ⟨rfl, e, rfl, h⟩

/-- Seen backwards, a call that has not written has not written before. -/
theorem advance_unwritten {incidents : Incidents.Tables} {o : Oracle} {w : Worker}
    (h : (advance incidents t o w).2.1.Unwritten) :
    (advance incidents t o w).1 = t ∧ w.Unwritten := by
  unfold advance at h ⊢
  split at h
  · exact ⟨(transact_unwritten (fun _ => id) h).1, trivial⟩
  · exact ⟨(transact_unwritten (fun _ => id) h).1, trivial⟩
  · refine ⟨(transact_unwritten (fun a => ?_) h).1, trivial⟩
    cases a <;> exact id
  · exact absurd h id
  · obtain ⟨-, e, he, hcap⟩ := transact_unwritten (fun _ => id) h
    rw [finish_not_capacity he] at hcap
    cases hcap
  · exact ⟨(transact_unwritten (fun _ => id) h).1, trivial⟩
  · exact ⟨(transact_unwritten (fun _ => id) h).1, trivial⟩
  · exact absurd h id
  · obtain ⟨-, e, he, hcap⟩ := transact_unwritten (fun _ => id) h
    rw [commitProof_not_capacity he] at hcap
    cases hcap
  · refine ⟨rfl, ?_⟩
    cases w with
    | sending c =>
        simp only [observe] at h
        split at h
        · next e he => exact absurd h (Bool.eq_false_iff.mp (normalize_not_capacity he))
        · exact absurd h id
    | querying d v =>
        simp only [observe] at h
        split at h
        · next e he => exact absurd h (Bool.eq_false_iff.mp (proof?_not_capacity he))
        · exact absurd h id
        · exact absurd h id
    | finishing c outcome => exact absurd h id
    | holding c => next hne _ _ _ _ _ => exact absurd rfl (hne c)
    | _ => first | exact h | trivial

/-- A call is taken by its own worker. -/
theorem workers_call {w : World} {m n : Nat} {c : Call} (hm : n ≠ m) :
    (w.next (.call m c)).1.workers n = w.workers n := by
  simp only [World.next]
  split
  · exact Function.update_of_ne hm ..
  · exact Function.update_of_ne hm ..
  · rfl

/-- In a part of a run in which a worker is in one call, a call that was rejected for
capacity wrote nothing in any step. -/
theorem rejected_wrote_nothing {n : Nat} {js : List Input} :
    ∀ {w : World}, (∀ c, .call n c ∉ js) → .crash n ∉ js →
      ((system.run w js).workers n).Unwritten → (w.workers n).Unwritten ∧
        ∀ js₁ o js₂, js = js₁ ++ .step n o :: js₂ →
          (system.run w (js₁ ++ [.step n o])).tables = (system.run w js₁).tables := by
  induction js with
  | nil =>
      intro w _ _ h
      refine ⟨h, fun js₁ o js₂ heq => ?_⟩
      simp at heq
  | cons j js ih =>
      intro w hcall hcrash h
      obtain ⟨hunwritten, hrest⟩ := ih (w := (w.next j).1)
        (fun c hc => hcall c (List.mem_cons_of_mem _ hc))
        (fun hc => hcrash (List.mem_cons_of_mem _ hc)) h
      -- Only the worker's own steps move it.
      have hfirst : (w.workers n).Unwritten ∧
          ∀ o, j = .step n o → (w.next j).1.tables = w.tables := by
        cases j with
        | incident write => exact ⟨hunwritten, fun o ho => by cases ho⟩
        | call m c =>
            have hm : n ≠ m := fun he => hcall c (he ▸ List.mem_cons_self ..)
            rw [workers_call hm] at hunwritten
            exact ⟨hunwritten, fun o ho => by cases ho⟩
        | crash m =>
            have hm : n ≠ m := fun he => hcrash (he ▸ List.mem_cons_self ..)
            refine ⟨?_, fun o ho => by cases ho⟩
            change (Function.update w.workers m Worker.idle n).Unwritten at hunwritten
            rwa [Function.update_of_ne hm] at hunwritten
        | step m o =>
            change (Function.update w.workers m (advance w.incidents w.tables o
              (w.workers m)).2.1 n).Unwritten at hunwritten
            by_cases hm : n = m
            · subst hm
              rw [Function.update_self] at hunwritten
              obtain ⟨htables, hbefore⟩ := advance_unwritten hunwritten
              exact ⟨hbefore, fun _ _ => htables⟩
            · rw [Function.update_of_ne hm] at hunwritten
              refine ⟨hunwritten, fun o' ho => ?_⟩
              cases ho
              exact absurd rfl hm
      refine ⟨hfirst.1, fun js₁ o js₂ heq => ?_⟩
      cases js₁ with
      | nil =>
          obtain ⟨hj, -⟩ := List.cons_eq_cons.mp heq
          rw [hj] at hfirst
          exact hfirst.2 o rfl
      | cons j₁ js₁ =>
          obtain ⟨hj, htail⟩ := List.cons_eq_cons.mp heq
          rw [← hj]
          exact hrest js₁ o js₂ htail

/-- A dispatch that finds the in-flight limits reached commits its sweep. -/
theorem claimNext_paused {destination : String} {transportRef : Option String} {now : ℚ}
    {token : String} {previewed : Option String}
    (hok : claimNext t destination transportRef now token previewed = .ok (t', .capacityPaused)) :
    t' = sweep t now := by
  unfold claimNext at hok
  split at hok
  · cases hok
  split at hok
  · cases hok
  simp only [] at hok
  split at hok
  · injection hok with hok
    exact (congrArg Prod.fst hok).symm
  split at hok
  · exact absurd (congrArg Prod.snd (Except.ok.inj hok)) (by intro h; injection h)
  split at hok
  · exact absurd (congrArg Prod.snd (Except.ok.inj hok)) (by intro h; injection h)
  split at hok
  · exact absurd (congrArg Prod.snd (Except.ok.inj hok)) (by intro h; injection h)
  · exact absurd (congrArg Prod.snd (Except.ok.inj hok)) (by intro h; injection h)

/-- In every state of every run the limits hold. A call that is rejected for capacity
has written nothing; a `send_once` that pauses for capacity is no such call, it has
swept. -/
theorem outbox_capacity (incidents : Incidents.Tables) (is : List Input) :
    Capacity (system.run (World.initial incidents) is).tables ∧
      (∀ n js code, code ∈ capacityCodes → (∀ c, .call n c ∉ js) → .crash n ∉ js →
        (system.run (World.initial incidents) (is ++ js)).workers n = fail (.blocked code) →
          ∀ js₁ o js₂, js = js₁ ++ .step n o :: js₂ →
            (system.run (World.initial incidents) (is ++ (js₁ ++ [.step n o]))).tables =
              (system.run (World.initial incidents) (is ++ js₁)).tables) ∧
      ∀ t t' destination transportRef now token previewed,
        claimNext t destination transportRef now token previewed = .ok (t', .capacityPaused) →
          t' = sweep t now := by
  refine ⟨capacity_run incidents is, fun n js code hcode hcall hcrash hfail js₁ o js₂ heq => ?_,
    fun _ _ _ _ _ _ _ => claimNext_paused⟩
  rw [system.run_append] at hfail
  rw [system.run_append _ is, system.run_append _ is]
  refine (rejected_wrote_nothing hcall hcrash ?_).2 js₁ o js₂ heq
  rw [hfail]
  exact decide_eq_true hcode

end OufGateway.Outbox
