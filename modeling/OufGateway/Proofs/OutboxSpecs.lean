import Mathlib
import OufGateway.Lib.Except
import OufGateway.Lib.Table
import OufGateway.Ref.Outbox

/-!
# What each transaction of the outbox has checked

One lemma a transaction, with everything it has checked and everything it has
written: which row it chose, from which budget, and with which clock reading. The
effects of a step leave most of this out, because the counts do not depend on it;
what depends on a clock or on a session's state starts here.
-/

namespace OufGateway.Outbox

open Lib

variable {incidents : Incidents.Tables} {t t' : Tables} {config : Destination}
  {item : Incidents.Incident} {grant : Grant} {draw : Draw} {row : Delivery} {budget : Session}
  {destination token uuid delivery : String} {transportRef previewed : Option String} {now : ℚ}

/-! ## Configuration -/

/-- The tables `configure` leaves: the ones it found, where the destination has this
intent already; or the ones with the destination and its audit row. -/
inductive Configures (t : Tables) (d : AlertDestination) (grant : Grant) (uuid : String) (now : ℚ) :
    Tables → Prop
  | again {row : Destination} (hrow : t.destinations.find? d.destinationRef = some row)
      (hintent : row.configHash = d.fingerprint) : Configures t d grant uuid now t
  | first {destinations : Table Destination.destinationRef} {audit : Table ConfigAudit.eventId}
      (hnone : t.destinations.find? d.destinationRef = none)
      (hroom : t.destinations.rows.length < 32)
      (hrow : t.destinations.insert? ⟨d, d.fingerprint, grant.tenant⟩ = some destinations)
      (haudit : t.audit.insert? ⟨uuid, d.destinationRef, grant.principal, grant.decisionRef,
        grant.policyRef, grant.tenant, now⟩ = some audit) :
      Configures t d grant uuid now { t with destinations := destinations, audit := audit }

theorem configure_spec {d : AlertDestination} (hok : configure t d grant uuid now = .ok t') :
    Configures t d grant uuid now t' := by
  unfold configure at hok
  split at hok
  · next row hrow =>
    split at hok
    · cases hok
    · next hintent =>
      cases hok
      exact .again hrow (not_not.mp hintent)
  · next hnone =>
    split at hok
    · cases hok
    · next hroom =>
      split at hok
      · next destinations audit hrow haudit =>
        cases hok
        exact .first hnone (not_le.mp hroom) hrow haudit
      · cases hok

/-! ## The claim -/

/-- The limits on attempts in flight are reached. -/
def Paused (t : Tables) (destination : String) : Prop :=
  16 ≤ t.deliveries.count (fun d => d.state = .inFlight) ∨
    2 ≤ t.deliveries.count fun d => d.state = .inFlight && d.destinationRef = destination

/-- What the claim transaction has found when it has a delivery to decide on. -/
structure Selected (t : Tables) (destination : String) (transportRef : Option String) (now : ℚ)
    (previewed : Option String) (config : Destination) (row : Delivery) (budget : Session) :
    Prop where
  configured : t.destinations.find? destination = some config
  transport : transportRef = some config.settings.transportRef
  room : ¬ Paused (sweep t now) destination
  found : (sweep t now).deliveries.find? (previewed.getD "") = some row
  own : row.destinationRef = destination
  pending : row.state = .pending
  due : row.nextDue ≤ now
  paid : (sweep t now).sessions.find? row.activeSession = some budget

/-- The delivery's configuration is not the present one, or its session has less than
an attempt left. -/
def Short (config : Destination) (row : Delivery) (budget : Session) (now : ℚ) : Prop :=
  row.configHash ≠ config.configHash ∨ budget.deadline - now < 5

/-- The attempt of a claim. -/
def attemptOf (config : Destination) (row : Delivery) (token : String) : Claim :=
  ⟨row.deliveryId, token, row.version + 1, row.totalAttempts + 1, row.payload,
    config.settings.recipientRef, config.settings.transportSecretRef⟩

theorem Selected.eligible (h : Selected t destination transportRef now previewed config row budget) :
    (((sweep t now).deliveries.find? (previewed.getD "")).filter fun d =>
      d.destinationRef = destination && d.state = .pending && d.nextDue ≤ now) = some row := by
  rw [h.found, Option.filter_some, if_pos]
  simp only [h.own, h.pending, h.due, decide_true, Bool.and_self]

theorem claimNext_short (h : Selected t destination transportRef now previewed config row budget)
    (hshort : Short config row budget now) :
    claimNext t destination transportRef now token previewed =
      .ok (exhaust (sweep t now) row.deliveryId, .exhausted) := by
  have htransport : ¬ transportRef ≠ some config.settings.transportRef := fun hne => hne h.transport
  have hroom := h.room
  rw [Paused] at hroom
  rw [Short] at hshort
  simp only [claimNext, h.configured, if_neg htransport, if_neg hroom, h.eligible, h.paid, if_pos hshort]

theorem claimNext_takes (h : Selected t destination transportRef now previewed config row budget)
    (hshort : ¬ Short config row budget now) :
    claimNext t destination transportRef now token previewed =
      .ok (claim (sweep t now) row token (min (now + 10) budget.deadline),
        .claimed (attemptOf config row token)) := by
  have htransport : ¬ transportRef ≠ some config.settings.transportRef := fun hne => hne h.transport
  have hroom := h.room
  rw [Paused] at hroom
  rw [Short] at hshort
  simp only [claimNext, h.configured, if_neg htransport, if_neg hroom, h.eligible, h.paid,
    if_neg hshort, attemptOf]

theorem claimNext_spec {r : Dispatch}
    (hok : claimNext t destination transportRef now token previewed = .ok (t', r)) :
    (t' = sweep t now ∧ (r = .capacityPaused ∨ r = .noEligibleDelivery)) ∨
      ∃ config row budget, Selected t destination transportRef now previewed config row budget ∧
        (Short config row budget now ∧ t' = exhaust (sweep t now) row.deliveryId ∧ r = .exhausted ∨
          ¬ Short config row budget now ∧
            t' = claim (sweep t now) row token (min (now + 10) budget.deadline) ∧
            r = .claimed (attemptOf config row token)) := by
  unfold claimNext at hok
  split at hok
  · cases hok
  · next config hconfig =>
    split at hok
    · cases hok
    · next htransport =>
      simp only [] at hok
      split at hok
      · cases hok
        exact Or.inl ⟨rfl, Or.inl rfl⟩
      · next hroom =>
        split at hok
        · cases hok
          exact Or.inl ⟨rfl, Or.inr rfl⟩
        · next row hfound =>
          obtain ⟨hrow, hcond⟩ := Option.filter_eq_some_iff.mp hfound
          simp only [Bool.and_eq_true, decide_eq_true_eq] at hcond
          split at hok
          · cases hok
            exact Or.inl ⟨rfl, Or.inr rfl⟩
          · next budget hbudget =>
            have hselected : Selected t destination transportRef now previewed config row budget :=
              ⟨hconfig, not_not.mp htransport, hroom, hrow, hcond.1.1, hcond.1.2, hcond.2, hbudget⟩
            split at hok
            · next hshort =>
              cases hok
              exact Or.inr ⟨config, row, budget, hselected, Or.inl ⟨hshort, rfl, rfl⟩⟩
            · next hshort =>
              cases hok
              exact Or.inr ⟨config, row, budget, hselected, Or.inr ⟨hshort, rfl, rfl⟩⟩

/-! ## Outcomes -/

/-- What `_finish` has found: the attempt is the one in flight, within its lease. -/
structure Held (t : Tables) (c : Claim) (now : ℚ) (row : Delivery) (budget : Session) (lease : ℚ) :
    Prop where
  found : t.deliveries.find? c.deliveryId = some row
  paid : t.sessions.find? row.activeSession = some budget
  inFlight : row.state = .inFlight
  token : row.claimToken = some c.token
  version : row.version = c.version
  leased : row.leaseUntil = some lease
  within : now < lease

theorem finish_spec {c : Claim} {outcome : AlertOutcome} {jitter : Option ℚ} {s : State}
    (hok : finish t c outcome now jitter = .ok (t', s)) :
    ∃ row budget lease due, Held t c now row budget lease ∧
      settle budget outcome now jitter = .ok (s, due) ∧
      t' = writeOutcome t row s due outcome.receiptRef := by
  unfold finish at hok
  split at hok
  · cases hok
  · next row hrow =>
    split at hok
    · cases hok
    · next budget hbudget =>
      split at hok
      · cases hok
      · next hcheck =>
        push Not at hcheck
        obtain ⟨hf, ht, hv⟩ := hcheck
        split at hok
        · cases hok
        · next lease hl =>
          split at hok
          · cases hok
          · next hnow =>
            split at hok
            · cases hok
            · next s' due hset =>
              cases hok
              exact ⟨row, budget, lease, due, ⟨hrow, hbudget, hf, ht, hv, hl, not_le.mp hnow⟩,
                hset, rfl⟩

/-- The due time of a transient outcome is no earlier than what it asked for, and a
delivery it leaves pending has an attempt left of its session. -/
theorem settle_transient {outcome : AlertOutcome} {jitter : Option ℚ} {s : State} {due : ℚ}
    (hok : settle budget outcome now jitter = .ok (s, due))
    (hkind : outcome.kind = .transientNotAccepted) :
    now + outcome.retryAfterSeconds ≤ due ∧
      (s = .exhausted ∨ s = .pending ∧ due + 5 < budget.deadline) := by
  unfold settle at hok
  rw [hkind] at hok
  simp only [] at hok
  split at hok
  · cases hok
  · next factor _ =>
    split at hok
    · cases hok
      exact ⟨by gcongr; exact le_max_right _ _, Or.inl rfl⟩
    · next hmore =>
      cases hok
      push Not at hmore
      exact ⟨by gcongr; exact le_max_right _ _, Or.inr ⟨rfl, hmore.2⟩⟩

/-- What is not accepted waits for its backoff when another attempt fits behind it. -/
theorem settle_delays {outcome : AlertOutcome} {factor : ℚ}
    (hkind : outcome.kind = .transientNotAccepted) (hfactor : 4 / 5 ≤ factor ∧ factor ≤ 6 / 5)
    (hleft : budget.attempts < budget.maxAttempts)
    (hfits : now + max (backoffOf budget.attempts * factor) outcome.retryAfterSeconds + 5 <
      budget.deadline) :
    settle budget outcome now (some factor) =
      .ok (.pending, now + max (backoffOf budget.attempts * factor) outcome.retryAfterSeconds) := by
  have hjitter : (some factor).filter (fun f => 4 / 5 ≤ f ∧ f ≤ 6 / 5) = some factor := by
    rw [Option.filter_some, if_pos (decide_eq_true hfactor)]
  have hmore : ¬ (budget.maxAttempts ≤ budget.attempts ∨ budget.deadline ≤
      now + max (backoffOf budget.attempts * factor) outcome.retryAfterSeconds + 5) :=
    not_or.mpr ⟨not_le.mpr hleft, not_le.mpr hfits⟩
  unfold settle
  rw [hkind, hjitter]
  simp only [if_neg hmore]

/-! ## Renewals and proofs -/

/-- The session a renewal opens. -/
def renewal (grant : Grant) (sid delivery reason : String) (now : ℚ) : Session where
  sessionId := sid
  deliveryId := delivery
  actor := grant.principal
  actorType := grant.actor
  tenantId := grant.tenant
  reason := reason
  decisionRef := grant.decisionRef
  profile := profile
  startedAt := now
  deadline := now + 86400
  maxAttempts := 128
  attempts := 0
  state := .active

theorem renew_spec {v : Int} {reason sid : String}
    (hok : renew t delivery v reason grant sid now = .ok t') :
    ∃ row, t.deliveries.find? delivery = some row ∧ row.state = .exhausted ∧
      (row.version : Int) = v ∧ openSession t row (renewal grant sid delivery reason now) = .ok t' := by
  unfold renew at hok
  split at hok
  · cases hok
  · next row hrow =>
    split at hok
    · cases hok
    · next hcheck =>
      push Not at hcheck
      exact ⟨row, hrow, hcheck.1, hcheck.2, hok⟩

theorem commitProof_spec {v : Int} {p : Proof} {later : ℚ} {s : State}
    (hok : commitProof t delivery v p now later = .ok (t', s)) :
    ∃ row budget receipt, t.deliveries.find? delivery = some row ∧
      t.sessions.find? row.activeSession = some budget ∧ row.state = .unknown ∧
      s = p.state budget now ∧ t' = writeProof t row s later receipt := by
  unfold commitProof at hok
  split at hok
  · cases hok
  · next row hrow =>
    split at hok
    · cases hok
    · next budget hbudget =>
      split at hok
      · cases hok
      · next hcheck =>
        push Not at hcheck
        split at hok
        · cases hok
        · next receipt _ =>
          cases hok
          exact ⟨row, budget, receipt, hrow, hbudget, hcheck.1, rfl, rfl⟩

/-! ## Deliveries that are enqueued -/

/-- The delivery `_enqueue_current` inserts. -/
def queued (incidents : Incidents.Tables) (item : Incidents.Incident) (config : Destination)
    (draw : Draw) : Delivery where
  deliveryId := draw.delivery
  incidentId := item.incidentId
  destinationRef := config.destinationRef
  episode := episodeOf incidents item
  phase := phaseOf item
  payload := payload item (episodeOf incidents item) (phaseOf item)
  configHash := config.configHash
  state := .pending
  version := 0
  totalAttempts := 0
  nextDue := draw.now
  leaseUntil := none
  claimToken := none
  receiptRef := none
  activeSession := draw.session
  reconciliationAttempts := 0

/-- And its session. -/
def queuedSession (grant : Grant) (draw : Draw) : Session where
  sessionId := draw.session
  deliveryId := draw.delivery
  actor := grant.principal
  actorType := grant.actor
  tenantId := grant.tenant
  reason := "OWNER_INCIDENT_TRANSITION"
  decisionRef := grant.decisionRef
  profile := profile
  startedAt := draw.now
  deadline := draw.now + 86400
  maxAttempts := 128
  attempts := 0
  state := .active

theorem enqueueCurrent_spec (hok : enqueueCurrent incidents t item config grant draw = .ok t') :
    t' = t ∨ insertDelivery t (queued incidents item config draw) (queuedSession grant draw) =
      .ok t' := by
  unfold enqueueCurrent at hok
  simp only [] at hok
  split at hok
  · exact Or.inl (Except.ok.inj hok).symm
  · split at hok
    · exact Or.inl (Except.ok.inj hok).symm
    · split at hok
      · exact Or.inl (Except.ok.inj hok).symm
      · split at hok
        · cases hok
        · split at hok
          · cases hok
          · exact Or.inr hok

/-- What a reconciliation keeps is what every delivery it enqueues keeps. -/
theorem reconcile_keeps {P : Tables → Prop} {limit : Nat} {draws : Nat → Draw} {r : Nat × Bool}
    (hok : reconcileOwnerTransitions incidents t destination limit grant draws = .ok (t', r))
    (hreceipts : ∀ t l, P t → P { t with receipts := l })
    (hinsert : ∀ config item draw t t', t.destinations.find? destination = some config →
      P t → insertDelivery t (queued incidents item config draw) (queuedSession grant draw) =
        .ok t' → P t')
    (h : P t) : P t' := by
  have hloop : ∀ (config : Destination) (groups : List (Nat × Incidents.Incident)) (k : Nat)
      (t t' : Tables), t.destinations.find? destination = some config → P t →
      enqueueGroups incidents config grant draws k groups t = .ok t' → P t' := by
    intro config groups
    induction groups with
    | nil =>
        intro k t t' _ h hok
        exact Except.ok.inj hok ▸ h
    | cons g rest ih =>
        intro k t t' hconfig h hok
        obtain ⟨revision, item⟩ := g
        rw [enqueueGroups] at hok
        split at hok
        · cases hok
        · next t₁ h1 =>
          rcases enqueueCurrent_spec h1 with rfl | hins
          · refine ih _ _ _ ?_ ?_ hok
            · exact hconfig
            · exact hreceipts _ _ h
          · refine ih _ _ _ ?_ ?_ hok
            swap
            · exact hreceipts _ _ (hinsert _ _ _ _ _ hconfig h hins)
            unfold insertDelivery at hins
            split at hins
            · cases hins
              exact hconfig
            · cases hins
  unfold reconcileOwnerTransitions at hok
  split at hok
  · cases hok
  · next config hconfig =>
    split at hok
    · cases hok
    · simp only [] at hok
      split at hok
      · cases hok
      · next t₁ h1 =>
        cases hok
        exact hloop config _ _ _ _ hconfig h h1

end OufGateway.Outbox
