import Mathlib
import OufGateway.Lib.Table
import OufGateway.Lib.Trace
import OufGateway.Ref.Incidents
import OufGateway.Ref.Outbox
import OufGateway.Proofs.Lifecycle
import OufGateway.Proofs.Ledger
import OufGateway.Proofs.OutboxBooks
import OufGateway.Proofs.OutboxSteps
import OufGateway.Proofs.OutboxKeys
import OufGateway.Proofs.Reconcile
import OufGateway.Proofs.OutboxComplete

/-!
# A batch commits whole or not at all

With room in the outbox and identifiers nobody has drawn before, one thing alone can
stop a batch: an incident in it whose notification is wanted and does not fit the
payload bound. The incidents of a batch are different ones, so what one of them wants
does not depend on those before it, and the condition can be read off the tables the
call finds. A batch without such an incident is committed and takes at least one
transition off the ledger, so as many calls as there are transitions left leave none;
a batch with one is rolled back, receipts and all.
-/

namespace OufGateway.Outbox

open Lib

variable {incidents : Incidents.Tables} {t t' : Tables} {config : Destination} {grant : Grant}
  {item : Incidents.Incident} {draw : Draw} {draws : Nat → Draw}

/-! ## One incident -/

/-- The current state of an incident asks for a notification that is not there. -/
structure Wanted (incidents : Incidents.Tables) (t : Tables) (config : Destination)
    (item : Incidents.Incident) : Prop where
  told : item.lifecycleState = .resolved → ∃ phase, phase ≠ .recovery ∧
    (item.incidentId, config.destinationRef, episodeOf incidents item, phase) ∈ t.keys
  grave : item.lifecycleState ≠ .resolved →
    rankOf config.settings.minimumSeverity ≤ item.severity.rank
  missing : dueKey incidents config.destinationRef item ∉ t.keys

/-- Its payload is within the bound. -/
def Fits (incidents : Incidents.Tables) (item : Incidents.Incident) : Prop :=
  (payload item (episodeOf incidents item) (phaseOf item)).utf8ByteSize ≤ 4096

/-- Room for so many more deliveries. -/
structure Room (t : Tables) (config : Destination) (n : Nat) : Prop where
  total : t.deliveries.rows.length + n ≤ 4096
  live : (t.deliveries.count fun d => d.state ≠ .accepted) + n ≤ 1024
  own : (t.deliveries.count fun d =>
    d.destinationRef = config.destinationRef && decide (d.state ≠ .accepted)) + n ≤ 128

/-- Two identifiers no row has. -/
def Unused (t : Tables) (draw : Draw) : Prop :=
  t.deliveries.find? draw.delivery = none ∧ t.sessions.find? draw.session = none

/-- One incident either leaves the tables, or gets the one delivery its call drew. -/
structure Added (t t' : Tables) (draw : Draw) : Prop where
  deliveries : t'.deliveries = t.deliveries ∨
    ∃ d : Delivery, d.deliveryId = draw.delivery ∧ t.deliveries.insert? d = some t'.deliveries
  sessions : t'.sessions = t.sessions ∨
    ∃ b : Session, b.sessionId = draw.session ∧ t.sessions.insert? b = some t'.sessions

/-- An incident nothing can stop but its payload. -/
theorem enqueueCurrent_fits (grant : Grant) (hroom : Room t config 1) (hdraw : Unused t draw)
    (hfits : Wanted incidents t config item → Fits incidents item) :
    ∃ t', enqueueCurrent incidents t item config grant draw = .ok t' ∧ Added t t' draw := by
  unfold enqueueCurrent
  simp only []
  split
  · exact ⟨t, rfl, Or.inl rfl, Or.inl rfl⟩
  · next htold =>
    split
    · exact ⟨t, rfl, Or.inl rfl, Or.inl rfl⟩
    · next hgrave =>
      split
      · exact ⟨t, rfl, Or.inl rfl, Or.inl rfl⟩
      · next hmissing =>
        have hwanted : Wanted incidents t config item := by
          refine ⟨fun hres => ?_, fun hopen => ?_, fun h => hmissing (any_phase_iff.mpr h)⟩
          · rw [not_and, Bool.not_eq_false] at htold
            exact any_other_iff.mp (htold (phaseOf_recovery.mpr hres))
          · rw [not_and, not_lt] at hgrave
            exact hgrave (phaseOf_recovery.not.mpr hopen)
        split
        · next hfull =>
          have h1 := hroom.total
          have h2 := hroom.live
          have h3 := hroom.own
          rcases hfull with h | h | h
          · omega
          · exact absurd h (by omega)
          · exact absurd h (by omega)
        · split
          · next hbig =>
            have hle := hfits hwanted
            unfold Fits at hle
            omega
          · let d : Delivery :=
              { deliveryId := draw.delivery, incidentId := item.incidentId
                destinationRef := config.destinationRef, episode := episodeOf incidents item
                phase := phaseOf item, payload := payload item (episodeOf incidents item) (phaseOf item)
                configHash := config.configHash, state := .pending, version := 0
                totalAttempts := 0, nextDue := draw.now, leaseUntil := none, claimToken := none
                receiptRef := none, activeSession := draw.session, reconciliationAttempts := 0 }
            let b : Session :=
              { sessionId := draw.session, deliveryId := draw.delivery, actor := grant.principal
                actorType := grant.actor, tenantId := grant.tenant
                reason := "OWNER_INCIDENT_TRANSITION", decisionRef := grant.decisionRef
                profile := profile, startedAt := draw.now, deadline := draw.now + 86400
                maxAttempts := 128, attempts := 0, state := .active }
            obtain ⟨deliveries, hd⟩ := Table.exists_insert? (r := d) hdraw.1
            obtain ⟨sessions, hs⟩ := Table.exists_insert? (r := b) hdraw.2
            refine ⟨{ t with deliveries := deliveries, sessions := sessions }, ?_,
              Or.inr ⟨d, rfl, hd⟩, Or.inr ⟨b, rfl, hs⟩⟩
            show insertDelivery t d b = _
            simp only [insertDelivery, hd, hs]

/-- An incident its payload does stop. -/
theorem enqueueCurrent_oversized (grant : Grant) (draw : Draw) (hwanted : Wanted incidents t config item)
    (hbig : ¬ Fits incidents item) :
    (∃ e, enqueueCurrent incidents t item config grant draw = .error e) ∧
      (Room t config 1 → enqueueCurrent incidents t item config grant draw =
        .error (.blocked "ALERT_PAYLOAD_CAPACITY")) := by
  unfold enqueueCurrent
  simp only []
  split
  · next hnone =>
    have hother := any_other_iff.mpr (hwanted.told (phaseOf_recovery.mp hnone.1))
    exact absurd (hnone.2.symm.trans hother) (by simp)
  · split
    · next hlow => exact absurd (hwanted.grave (phaseOf_recovery.not.mp hlow.1)) (by omega)
    · split
      · next hthere => exact absurd (any_phase_iff.mp hthere) hwanted.missing
      · split
        · next hfull =>
          refine ⟨⟨_, rfl⟩, fun hroom => ?_⟩
          have h1 := hroom.total
          have h2 := hroom.live
          have h3 := hroom.own
          rcases hfull with h | h | h
          · omega
          · exact absurd h (by omega)
          · exact absurd h (by omega)
        · split
          · exact ⟨⟨_, rfl⟩, fun _ => rfl⟩
          · next hle => exact absurd (Nat.le_of_not_lt hle) hbig

/-! ## What one incident leaves for the next -/

theorem count_insert_le {d : Delivery} {deliveries : Table Delivery.deliveryId}
    (h : t.deliveries.insert? d = some deliveries) (p : Delivery → Bool) :
    deliveries.count p ≤ t.deliveries.count p + 1 := by
  rw [Table.count, Table.rows_insert? h, List.countP_append]
  exact Nat.add_le_add_left List.countP_le_length _

theorem Added.room {n : Nat} (h : Added t t' draw) (hroom : Room t config (n + 1)) :
    Room t' config n := by
  have h1 := hroom.total
  have h2 := hroom.live
  have h3 := hroom.own
  rcases h.deliveries with hd | ⟨d, -, hd⟩
  · refine ⟨?_, ?_, ?_⟩
    all_goals rw [hd]
    all_goals omega
  · have hlen : t'.deliveries.rows.length = t.deliveries.rows.length + 1 := by
      rw [Table.rows_insert? hd, List.length_append, List.length_singleton]
    have hlive := count_insert_le hd fun d => decide (d.state ≠ .accepted)
    have hown := count_insert_le hd fun d =>
      decide (d.destinationRef = config.destinationRef) && decide (d.state ≠ .accepted)
    exact ⟨by omega, by omega, by omega⟩

theorem Added.unused {other : Draw} (h : Added t t' draw) (hother : Unused t other)
    (hd : draw.delivery ≠ other.delivery) (hs : draw.session ≠ other.session) : Unused t' other := by
  refine ⟨?_, ?_⟩
  · rcases h.deliveries with heq | ⟨d, hkey, hins⟩
    · rw [heq]
      exact hother.1
    · rw [Table.find?_insert? hins, if_neg (hkey ▸ hd)]
      exact hother.1
  · rcases h.sessions with heq | ⟨b, hkey, hins⟩
    · rw [heq]
      exact hother.2
    · rw [Table.find?_insert? hins, if_neg (hkey ▸ hs)]
      exact hother.2

/-- The identifiers of the draws from `k` on are new, and new to each other. -/
structure Drawn (t : Tables) (draws : Nat → Draw) (k n : Nat) : Prop where
  unused : ∀ j, k ≤ j → j < k + n → Unused t (draws j)
  apart : ∀ i j, k ≤ i → i < j → j < k + n →
    (draws i).delivery ≠ (draws j).delivery ∧ (draws i).session ≠ (draws j).session

theorem Added.drawn {k n : Nat} (h : Added t t' (draws k)) (hdraws : Drawn t draws k (n + 1)) :
    Drawn t' draws (k + 1) n := by
  refine ⟨fun j hk hj => ?_, fun i j hk hij hj => hdraws.apart i j (by omega) hij (by omega)⟩
  obtain ⟨hd, hs⟩ := hdraws.apart k j le_rfl (by omega) (by omega)
  exact h.unused (hdraws.unused j (by omega) (by omega)) hd hs

theorem Room.mono {m n : Nat} (h : Room t config n) (hle : m ≤ n) : Room t config m :=
  ⟨(Nat.add_le_add_left hle _).trans h.total, (Nat.add_le_add_left hle _).trans h.live,
    (Nat.add_le_add_left hle _).trans h.own⟩

/-- A receipt is no delivery and no session. -/
theorem Added.receipt (h : Added t t' draw) (receipts : List (String × Nat)) :
    Added t { t' with receipts := receipts } draw := ⟨h.deliveries, h.sessions⟩

/-- What an incident wants is read off its own notifications. -/
theorem wanted_congr (h : ∀ k : Key, k.1 = item.incidentId → (k ∈ t'.keys ↔ k ∈ t.keys)) :
    Wanted incidents t' config item ↔ Wanted incidents t config item := by
  have hphase := fun phase => h (item.incidentId, config.destinationRef,
    episodeOf incidents item, phase) rfl
  have hdue := h (dueKey incidents config.destinationRef item) rfl
  constructor
  · intro hw
    refine ⟨fun hres => ?_, hw.grave, hdue.not.mp hw.missing⟩
    obtain ⟨phase, hne, hmem⟩ := hw.told hres
    exact ⟨phase, hne, (hphase phase).mp hmem⟩
  · intro hw
    refine ⟨fun hres => ?_, hw.grave, hdue.not.mpr hw.missing⟩
    obtain ⟨phase, hne, hmem⟩ := hw.told hres
    exact ⟨phase, hne, (hphase phase).mpr hmem⟩

theorem Enqueued.wanted {other : Incidents.Incident} (h : Enqueued incidents config item t t')
    (hne : other.incidentId ≠ item.incidentId) (receipts : List (String × Nat)) :
    Wanted incidents { t' with receipts := receipts } config other ↔
      Wanted incidents t config other :=
  wanted_congr fun k hk => ⟨fun hmem => (h.own hmem).resolve_right fun hown =>
    hne (hk.symm.trans hown.1), h.kept k⟩

/-! ## A batch -/

theorem enqueueGroups_fits (grant : Grant) {groups : List (Nat × Incidents.Incident)} :
    ∀ {k : Nat} {t : Tables}, Room t config groups.length → Drawn t draws k groups.length →
      (groups.map (·.2.incidentId)).Nodup →
      (∀ g ∈ groups, Wanted incidents t config g.2 → Fits incidents g.2) →
        ∃ t', enqueueGroups incidents config grant draws k groups t = .ok t' := by
  induction groups with
  | nil => exact fun _ _ _ _ => ⟨_, rfl⟩
  | cons g rest ih =>
      intro k t hroom hdraws hids hfits
      obtain ⟨revision, item⟩ := g
      rw [List.map_cons, List.nodup_cons] at hids
      have hone : Room t config 1 := hroom.mono (Nat.succ_pos _)
      have hunused := hdraws.unused k le_rfl (Nat.lt_add_of_pos_right (Nat.succ_pos _))
      obtain ⟨t₁, h1, hadded⟩ := enqueueCurrent_fits grant hone hunused
        (hfits _ (List.mem_cons_self ..))
      have hq := enqueueCurrent_enqueued h1
      have hreceipt := hadded.receipt (t₁.receipts ++ [(config.destinationRef, revision)])
      rw [enqueueGroups, h1]
      refine ih (hreceipt.room hroom) (hreceipt.drawn hdraws) hids.2 fun g hg hw =>
        hfits g (List.mem_cons_of_mem _ hg) ?_
      exact (hq.wanted (fun heq => hids.1 (heq ▸ List.mem_map_of_mem hg)) _).mp hw

theorem enqueueGroups_oversized {groups : List (Nat × Incidents.Incident)} :
    ∀ {k : Nat} {t : Tables}, Room t config groups.length → Drawn t draws k groups.length →
      (groups.map (·.2.incidentId)).Nodup →
      (∃ g ∈ groups, Wanted incidents t config g.2 ∧ ¬ Fits incidents g.2) →
        enqueueGroups incidents config grant draws k groups t =
          .error (.blocked "ALERT_PAYLOAD_CAPACITY") := by
  induction groups with
  | nil =>
      intro k t _ _ _ h
      obtain ⟨g, hg, -⟩ := h
      cases hg
  | cons g rest ih =>
      intro k t hroom hdraws hids hbig
      obtain ⟨revision, item⟩ := g
      rw [List.map_cons, List.nodup_cons] at hids
      have hone : Room t config 1 := hroom.mono (Nat.succ_pos _)
      have hunused := hdraws.unused k le_rfl (Nat.lt_add_of_pos_right (Nat.succ_pos _))
      by_cases hfirst : Wanted incidents t config item ∧ ¬ Fits incidents item
      · rw [enqueueGroups, (enqueueCurrent_oversized grant _ hfirst.1 hfirst.2).2 hone]
      · rw [not_and, not_not] at hfirst
        obtain ⟨t₁, h1, hadded⟩ := enqueueCurrent_fits grant hone hunused hfirst
        have hq := enqueueCurrent_enqueued h1
        have hreceipt := hadded.receipt (t₁.receipts ++ [(config.destinationRef, revision)])
        rw [enqueueGroups, h1]
        refine ih (hreceipt.room hroom) (hreceipt.drawn hdraws) hids.2 ?_
        obtain ⟨g, hg, hw, hlarge⟩ := hbig
        rcases List.mem_cons.mp hg with rfl | hg
        · exact absurd (hfirst hw) hlarge
        · refine ⟨g, hg, (hq.wanted (fun heq => hids.1 (heq ▸ List.mem_map_of_mem hg)) _).mpr hw, ?_⟩
          exact hlarge

/-! ## A call -/

/-- One call of `reconcile_owner_transitions`: its limit, and what its two steps meet. -/
structure Round where
  limit : Nat
  ask : Oracle
  commit : Oracle

def Round.inputs (r : Round) (i : Nat) (destination : String) : List Input :=
  [.call i (.reconcileOwnerTransitions destination (.int r.limit)), .step i r.ask, .step i r.commit]

/-- What the call comes to when nothing else moves. -/
def Round.answer (r : Round) (w : World) (destination : String) :
    Except Exn (Tables × Nat × Bool) :=
  if 1 ≤ r.limit ∧ r.limit ≤ 64 then
    match authorize w.tables destination none false r.ask.decision with
    | .error e => .error e
    | .ok grant =>
      reconcileOwnerTransitions w.incidents w.tables destination r.limit grant r.commit.draws
  else .error (.blocked "ALERT_RECONCILE_LIMIT")

/-- A worker that can take a call. -/
def World.Free (w : World) (i : Nat) : Prop := w.workers i = .idle ∨ ∃ x, w.workers i = .done x

theorem next_call {w : World} {i : Nat} (h : w.Free i) (c : Call) :
    system.step w (.call i c) = { w with workers := Function.update w.workers i (begin c) } := by
  show (w.next (.call i c)).1 = _
  simp only [World.next]
  rcases h with h | ⟨x, h⟩
  · simp only [h]
  · simp only [h]

/-- The step of a worker that was just put where it is. -/
theorem next_step (incidents : Incidents.Tables) (t : Tables) (workers : Nat → Worker) (i : Nat)
    (worker : Worker) (o : Oracle) :
    system.step ⟨incidents, t, Function.update workers i worker⟩ (.step i o) =
      ⟨incidents, (advance incidents t o worker).1,
        Function.update (Function.update workers i worker) i
          (advance incidents t o worker).2.1⟩ := by
  have hworker : Function.update workers i worker i = worker := Function.update_self ..
  show (⟨incidents, (advance incidents t o (Function.update workers i worker i)).1,
    Function.update (Function.update workers i worker) i
      (advance incidents t o (Function.update workers i worker i)).2.1⟩ : World) = _
  rw [hworker]

/-- The three steps of a call leave the incidents, and the tables its answer. -/
theorem run_round {w : World} {i : Nat} (destination : String) (hfree : w.Free i) (r : Round) :
    (system.run w (r.inputs i destination)).incidents = w.incidents ∧
    (∀ e, r.answer w destination = .error e →
      (system.run w (r.inputs i destination)).tables = w.tables ∧
        (system.run w (r.inputs i destination)).workers i = .done (.error e)) ∧
    ∀ t' n pending, r.answer w destination = .ok (t', n, pending) →
      (system.run w (r.inputs i destination)).tables = t' ∧
        (system.run w (r.inputs i destination)).workers i = .done (.ok (.enqueued n pending)) := by
  have hrun : system.run w (r.inputs i destination) = system.step (system.step (system.step w
      (.call i (.reconcileOwnerTransitions destination (.int r.limit)))) (.step i r.ask))
        (.step i r.commit) := rfl
  rw [hrun, next_call hfree]
  by_cases hlimit : 1 ≤ r.limit ∧ r.limit ≤ 64
  · have hbegin : begin (.reconcileOwnerTransitions destination (.int r.limit)) =
        .enqueueStart destination r.limit := by
      have hint : (1 : Int) ≤ r.limit ∧ (r.limit : Int) ≤ 64 := by omega
      simp only [begin, if_pos hint, Int.toNat_natCast]
    rw [hbegin, next_step]
    rw [Round.answer, if_pos hlimit]
    cases hauth : authorize w.tables destination none false r.ask.decision with
    | error e =>
        have hasked : (advance w.incidents w.tables r.ask (.enqueueStart destination r.limit)) =
            (w.tables, fail e, []) := by
          show (w.tables, proceed (do
            let grant ← authorize w.tables destination none false r.ask.decision
            .ok (.enqueueCommit destination r.limit grant)), []) = _
          rw [hauth]
          rfl
        rw [hasked, next_step]
        refine ⟨rfl, fun e' he => ?_, fun t' n pending h => by cases h⟩
        cases he
        exact ⟨rfl, Function.update_self ..⟩
    | ok grant =>
        have hasked : (advance w.incidents w.tables r.ask (.enqueueStart destination r.limit)) =
            (w.tables, .enqueueCommit destination r.limit grant, []) := by
          show (w.tables, proceed (do
            let grant ← authorize w.tables destination none false r.ask.decision
            .ok (.enqueueCommit destination r.limit grant)), []) = _
          rw [hauth]
          rfl
        rw [hasked, next_step]
        refine ⟨rfl, fun e he => ?_, fun t' n pending hok => ?_⟩
        · simp only [advance, transact, he]
          exact ⟨trivial, Function.update_self ..⟩
        · simp only [advance, transact, hok]
          exact ⟨trivial, Function.update_self ..⟩
  · have hbegin : begin (.reconcileOwnerTransitions destination (.int r.limit)) =
        fail (.blocked "ALERT_RECONCILE_LIMIT") := by
      have hint : ¬ ((1 : Int) ≤ r.limit ∧ (r.limit : Int) ≤ 64) := by omega
      simp only [begin, if_neg hint]
    rw [hbegin, next_step]
    have hdone : advance w.incidents w.tables r.ask (fail (.blocked "ALERT_RECONCILE_LIMIT")) =
        (w.tables, fail (.blocked "ALERT_RECONCILE_LIMIT"), []) := rfl
    rw [hdone, next_step, Round.answer, if_neg hlimit]
    refine ⟨rfl, fun e he => ?_, fun t' n pending h => by cases h⟩
    cases he
    exact ⟨rfl, Function.update_self ..⟩

theorem free_round {w : World} {i : Nat} {destination : String} (hfree : w.Free i) (r : Round) :
    (system.run w (r.inputs i destination)).Free i := by
  obtain ⟨-, herror, hok⟩ := run_round destination hfree r
  cases h : r.answer w destination with
  | error e => exact Or.inr ⟨_, (herror e h).2⟩
  | ok x =>
      obtain ⟨t', n, pending⟩ := x
      exact Or.inr ⟨_, (hok t' n pending h).2⟩

/-! ## What stops a call -/

/-- The worker is free, the call is authorized and within its limits, the outbox has room for its batch and
the identifiers it draws are new. -/
structure Ready (w : World) (i : Nat) (destination : String) (r : Round) : Prop where
  free : w.Free i
  limit : 1 ≤ r.limit ∧ r.limit ≤ 64
  granted : ∃ grant, authorize w.tables destination none false r.ask.decision = .ok grant
  receipts : w.tables.receipts.length + r.limit ≤ 200000
  room : ∃ config, w.tables.destinations.find? destination = some config ∧
    Room w.tables config (pendingGroups w.incidents w.tables destination r.limit).length
  drawn : Drawn w.tables r.commit.draws 0
    (pendingGroups w.incidents w.tables destination r.limit).length

/-- An incident of the batch wants a notification that does not fit. -/
def Stuck (w : World) (destination : String) (limit : Nat) : Prop :=
  ∃ config, w.tables.destinations.find? destination = some config ∧
    ∃ g ∈ pendingGroups w.incidents w.tables destination limit,
      Wanted w.incidents w.tables config g.2 ∧ ¬ Fits w.incidents g.2

theorem answer_stuck {w : World} {i : Nat} {destination : String} {r : Round}
    (hl : Incidents.Ledgered w.incidents) (h : Ready w i destination r)
    (hstuck : Stuck w destination r.limit) :
    r.answer w destination = .error (.blocked "ALERT_PAYLOAD_CAPACITY") := by
  obtain ⟨grant, hgrant⟩ := h.granted
  obtain ⟨config, hfind, hroom⟩ := h.room
  obtain ⟨config', hfind', hbig⟩ := hstuck
  obtain rfl : config = config' := Option.some.inj (hfind.symm.trans hfind')
  have hcapacity : ¬ 200000 < w.tables.receipts.length + r.limit := not_lt.mpr h.receipts
  rw [Round.answer, if_pos h.limit, hgrant]
  simp only [reconcileOwnerTransitions, hfind, if_neg hcapacity]
  rw [enqueueGroups_oversized hroom h.drawn (pendingGroups_ids _ _ _ hl.toKeyed) hbig]

theorem answer_ready {w : World} {i : Nat} {destination : String} {r : Round}
    (hl : Incidents.Ledgered w.incidents) (h : Ready w i destination r)
    (hstuck : ¬ Stuck w destination r.limit) :
    ∃ t' n pending, r.answer w destination = .ok (t', n, pending) := by
  obtain ⟨grant, hgrant⟩ := h.granted
  obtain ⟨config, hfind, hroom⟩ := h.room
  have hcapacity : ¬ 200000 < w.tables.receipts.length + r.limit := not_lt.mpr h.receipts
  have hfits : ∀ g ∈ pendingGroups w.incidents w.tables destination r.limit,
      Wanted w.incidents w.tables config g.2 → Fits w.incidents g.2 := by
    intro g hg hw
    by_contra hbig
    exact hstuck ⟨config, hfind, g, hg, hw, hbig⟩
  obtain ⟨t', hok⟩ := enqueueGroups_fits grant hroom h.drawn
    (pendingGroups_ids _ _ _ hl.toKeyed) hfits
  rw [Round.answer, if_pos h.limit, hgrant]
  simp only [reconcileOwnerTransitions, hfind, if_neg hcapacity, hok]
  exact ⟨_, _, _, rfl⟩

/-- What a call answers, its transaction committed. -/
theorem answer_ok {w : World} {destination : String} {r : Round} {n : Nat} {pending : Bool}
    (hok : r.answer w destination = .ok (t', n, pending)) : ∃ grant,
      reconcileOwnerTransitions w.incidents w.tables destination r.limit grant r.commit.draws =
        .ok (t', n, pending) := by
  unfold Round.answer at hok
  split at hok
  · split at hok
    · cases hok
    · next grant _ => exact ⟨grant, hok⟩
  · cases hok

/-! ## Call after call -/

/-- The world after the first calls of a worker, with nothing in between. -/
def World.after (w : World) (i : Nat) (destination : String) (rounds : Nat → Round) (k : Nat) :
    World :=
  system.run w ((List.range k).flatMap fun j => (rounds j).inputs i destination)

variable {w : World} {i : Nat} {destination : String} {rounds : Nat → Round}

theorem after_succ (k : Nat) : w.after i destination rounds (k + 1) =
    system.run (w.after i destination rounds k) ((rounds k).inputs i destination) := by
  rw [World.after, World.after, List.range_succ, List.flatMap_append, Machine.run_append]
  simp

/-- What the calls so far have left, when none of them was stuck. -/
structure Drained (w : World) (i : Nat) (destination : String) (config : Destination)
    (w' : World) (k : Nat) : Prop where
  incidents : w'.incidents = w.incidents
  notified : Notified w'.incidents w'.tables
  found : w'.tables.destinations.find? destination = some config
  left : (unreceipted w'.incidents w'.tables destination).length + k ≤
    (unreceipted w.incidents w.tables destination).length ∨
      unreceipted w'.incidents w'.tables destination = []

theorem drained_round {w' : World} {k : Nat} {r : Round}
    (h : Drained w i destination config w' k) (hready : Ready w' i destination r)
    (hstuck : ¬ Stuck w' destination r.limit) :
    Drained w i destination config (system.run w' (r.inputs i destination)) (k + 1) := by
  obtain ⟨hincidents, -, hok⟩ := run_round destination hready.free r
  obtain ⟨t', n, pending, hanswer⟩ := answer_ready h.notified.ledger hready hstuck
  obtain ⟨htables, -⟩ := hok t' n pending hanswer
  obtain ⟨grant, hcommit⟩ := answer_ok hanswer
  obtain ⟨config', hfind, hb, -, -⟩ := reconcile_batch hcommit
  obtain rfl : config' = config := Option.some.inj (hfind.symm.trans h.found)
  obtain rfl : config'.destinationRef = destination := Table.find?_key hfind
  have hlen := hb.unreceipted h.notified.ledger
  refine ⟨hincidents.trans h.incidents, notified_from h.notified _, ?_, ?_⟩
  · rw [htables, hb.destinations]
    exact hfind
  · rw [htables, hincidents]
    rcases h.left with hleft | hnone
    · by_cases hempty : unreceipted w'.incidents w'.tables config'.destinationRef = []
      · rw [hempty] at hlen
        exact Or.inr (List.length_eq_zero_iff.mp (by simp only [List.length_nil] at hlen; omega))
      · -- One transition is left at least, and the batch takes it.
        obtain ⟨x, hx⟩ := List.exists_mem_of_ne_nil _ hempty
        obtain ⟨-, howner⟩ := h.notified.ledger.owned x (mem_unreceipted.mp hx).1
        have hsome := List.length_pos_iff.mpr (pendingGroups_ne_nil hready.limit.1 hx howner)
        exact Or.inl (by omega)
    · rw [hnone] at hlen
      exact Or.inr (List.length_eq_zero_iff.mp (by simp only [List.length_nil] at hlen; omega))

theorem drained_after (hw : Notified w.incidents w.tables)
    (hfind : w.tables.destinations.find? destination = some config) : ∀ k,
    (∀ j < k, Ready (w.after i destination rounds j) i destination (rounds j) ∧
      ¬ Stuck (w.after i destination rounds j) destination (rounds j).limit) →
      Drained w i destination config (w.after i destination rounds k) k := by
  intro k
  induction k with
  | zero => exact fun _ => ⟨rfl, hw, hfind, Or.inl le_rfl⟩
  | succ k ih =>
      intro hall
      obtain ⟨hready, hstuck⟩ := hall k (Nat.lt_succ_self k)
      rw [after_succ]
      exact drained_round (ih fun j hj => hall j (Nat.lt_succ_of_lt hj)) hready hstuck

/-- From every state a run reaches, over any rows the ledger started with. A call with a
free worker, an authorization, room and new identifiers raises the payload error and
leaves the tables exactly when an incident of its batch wants a notification that does
not fit; else it commits and every incident of the batch has its notification. And
as many calls as there are transitions without a receipt, whatever their limits, leave
every incident notified, provided none of them is stuck. -/
theorem calls_notify_unless_stuck (v : Incidents.Inventory) (start : String) (is : List Input)
    (i : Nat) (destination : String) :
    let w := system.run (World.initial (Incidents.startHistory v.tables start)) is
    (∀ r, Ready w i destination r →
      let w' := system.run w (r.inputs i destination)
      (Stuck w destination r.limit →
        w'.workers i = .done (.error (.blocked "ALERT_PAYLOAD_CAPACITY")) ∧
          w'.tables = w.tables) ∧
      (¬ Stuck w destination r.limit →
        ∃ n pending config, w'.workers i = .done (.ok (.enqueued n pending)) ∧
          w.tables.destinations.find? destination = some config ∧
          ∀ g ∈ pendingGroups w.incidents w.tables destination r.limit,
            Due w.incidents config w'.tables.keys g.2)) ∧
    ∀ (rounds : Nat → Round) (config : Destination),
      let m := (unreceipted w.incidents w.tables destination).length
      w.tables.destinations.find? destination = some config →
      (∀ k < m, Ready (w.after i destination rounds k) i destination (rounds k) ∧
        ¬ Stuck (w.after i destination rounds k) destination (rounds k).limit) →
      Complete w.incidents (w.after i destination rounds m).tables config := by
  intro w
  have hw : Notified w.incidents w.tables := notified_run v start is
  refine ⟨fun r hready => ⟨fun hstuck => ?_, fun hstuck => ?_⟩, fun rounds config => ?_⟩
  · obtain ⟨-, herror, -⟩ := run_round destination hready.free r
    exact (herror _ (answer_stuck hw.ledger hready hstuck)).symm
  · obtain ⟨-, -, hok⟩ := run_round destination hready.free r
    obtain ⟨t', n, pending, hanswer⟩ := answer_ready hw.ledger hready hstuck
    obtain ⟨htables, hdone⟩ := hok t' n pending hanswer
    obtain ⟨grant, hcommit⟩ := answer_ok hanswer
    obtain ⟨config, hfind, hb, -, -⟩ := reconcile_batch hcommit
    refine ⟨n, pending, config, hdone, hfind, ?_⟩
    rw [htables]
    exact hb.due (pendingGroups_ids _ _ _ hw.ledger.toKeyed)
  · intro m hfind hall
    have hd : Drained w i destination config (w.after i destination rounds m) m :=
      drained_after hw hfind m hall
    have hnone : unreceipted w.incidents (w.after i destination rounds m).tables destination = [] := by
      rcases hd.left with hleft | hnone
      · exact List.length_eq_zero_iff.mp (by rw [hd.incidents] at hleft; omega)
      · exact hd.incidents ▸ hnone
    obtain rfl : config.destinationRef = destination := Table.find?_key hfind
    exact complete_of_receipted (hd.incidents ▸ hd.notified) hd.found hnone

/-! ## The size of a payload -/

theorem arrange_payload (module incident episode phase severity code impact current : String) :
    Json.arrange compact
      [("module", module), ("incidentRef", incident), ("episode", episode), ("phase", phase),
        ("severity", severity), ("errorCode", code), ("impactSummary", impact),
        ("requiresCurrentAuthorization", current)] =
      [("episode", episode), ("errorCode", code), ("impactSummary", impact),
        ("incidentRef", incident), ("module", module), ("phase", phase),
        ("requiresCurrentAuthorization", current), ("severity", severity)] := by
  simp [Json.arrange, compact, List.mergeSort, List.MergeSort.Internal.splitInTwo]

/-- A payload in the order of its keys. -/
theorem payload_eq (item : Incidents.Incident) (episode : Nat) (phase : Phase) :
    payload item episode phase = "\x7b" ++ ",".intercalate
      ([("episode", toString (episode : Int)),
        ("errorCode", Json.dumps compact (.ofOption item.errorCode)),
        ("impactSummary", Json.quote true item.impactSummary),
        ("incidentRef", Json.quote true item.incidentId), ("module", Json.quote true "GATEWAY"),
        ("phase", Json.quote true phase.text), ("requiresCurrentAuthorization", "true"),
        ("severity", Json.quote true item.severity.text)].map (Json.render compact)) ++ "\x7d" := by
  show "\x7b" ++ ",".intercalate ((Json.arrange compact [_, _, _, _, _, _, _, _]).map _) ++ "\x7d" = _
  rw [arrange_payload]
  rfl

theorem impact_le_payload (item : Incidents.Incident) (episode : Nat) (phase : Phase) :
    (Json.quote true item.impactSummary).utf8ByteSize ≤
      (payload item episode phase).utf8ByteSize := by
  rw [payload_eq]
  simp only [List.map, String.intercalate_cons_cons, String.intercalate_singleton, Json.render,
    String.utf8ByteSize_append]
  omega

theorem size_quote_replicate (n : Nat) :
    (Json.quote true (String.ofList (List.replicate n 'x'))).utf8ByteSize = n + 2 := by
  have hjoin : (String.join (List.replicate n "x")).utf8ByteSize = n := by
    induction n with
    | zero => rfl
    | succ n ih =>
        rw [List.replicate_succ, String.join_cons, String.utf8ByteSize_append, ih, Nat.add_comm]
        rfl
  have hx : Json.escapeChar true 'x' = "x" := by decide
  have hmark : ("\"" : String).utf8ByteSize = 1 := by decide
  rw [Json.quote, String.toList_ofList, List.map_replicate, hx, String.utf8ByteSize_append,
    String.utf8ByteSize_append, hjoin, hmark]
  omega

/-! ## An incident that stops another -/

/-- Where the first incident of every batch is stuck, no call ever commits. -/
theorem after_stuck {w : World} {i : Nat} {destination : String} {config : Destination}
    (hfree : w.Free i) (hfind : w.tables.destinations.find? destination = some config)
    (hfirst : ∀ limit, 1 ≤ limit → ∃ g rest,
      pendingGroups w.incidents w.tables destination limit = g :: rest ∧
        Wanted w.incidents w.tables config g.2 ∧ ¬ Fits w.incidents g.2)
    (rounds : Nat → Round) (k : Nat) :
    (w.after i destination rounds k).Free i ∧
      (w.after i destination rounds k).incidents = w.incidents ∧
      (w.after i destination rounds k).tables = w.tables := by
  induction k with
  | zero => exact ⟨hfree, rfl, rfl⟩
  | succ k ih =>
      obtain ⟨hfree', hincidents, htables⟩ := ih
      have herror : ∃ e, (rounds k).answer (w.after i destination rounds k) destination = .error e := by
        unfold Round.answer
        split
        · next hlimit =>
          split
          · exact ⟨_, rfl⟩
          · next grant _ =>
            obtain ⟨⟨revision, item⟩, rest, hgroups, hwanted, hbig⟩ := hfirst _ hlimit.1
            obtain ⟨⟨e, he⟩, -⟩ := enqueueCurrent_oversized grant ((rounds k).commit.draws 0) hwanted hbig
            rw [hincidents, htables]
            simp only [reconcileOwnerTransitions, hfind, hgroups, enqueueGroups, he]
            split <;> exact ⟨_, rfl⟩
        · exact ⟨_, rfl⟩
      obtain ⟨e, he⟩ := herror
      obtain ⟨hincidents', hkept, -⟩ := run_round destination hfree' (rounds k)
      rw [after_succ]
      exact ⟨free_round hfree' _, hincidents'.trans hincidents, (hkept e he).1.trans htables⟩

def onCall : AlertDestination :=
  { destinationRef := "alert://on-call", recipientRef := "person://on-call"
    transportRef := "transport://pager", transportSecretRef := "secret://pager"
    policyRef := "policy-1" }

/-- Every decision allows; the operator is a human. -/
def permissive : Oracle where
  decision := .answered (.obj [("allowed", .bool true),
    ("resource", resource "alert://on-call" none), ("decisionRef", .str "decision-1"),
    ("principal", .str "operator-1"), ("policyRef", .str "policy-1"), ("actor", .str "HUMAN"),
    ("tenant", .str "tenant-1")])
  now := 0
  later := 0
  uuid := "audit-1"
  draws _ := ⟨"delivery-1", "session-1", 0⟩
  answer := .raised
  jitter := none

def outage (dedupKey severity text : String) : Incidents.OpenArgs :=
  { dedupKey := dedupKey, eventType := "OUTAGE", severity := severity, errorCode := none
    impactSummary := text }

/-- A destination, a critical incident with this summary, and another incident. -/
def twoOutages (text : String) : List Input :=
  [.call 0 (.configure (some onCall)), .step 0 permissive, .step 0 permissive,
    .incident (.openIncident "incident-1" "2026-01-01T00:00:00Z" (outage "cause-1" "CRITICAL" text)),
    .incident (.openIncident "incident-2" "2026-01-01T00:00:01Z" (outage "cause-2" "ERROR" "down"))]

def noIncidents : Incidents.Inventory := ⟨[], List.nodup_nil, List.nodup_nil⟩

def openRow (incident now dedupKey : String) (severity : Incidents.Severity) (text : String) :
    Incidents.Incident :=
  { incidentId := incident, dedupKey := dedupKey, module := "GATEWAY", eventType := "OUTAGE"
    lifecycleState := .opened, severity := severity, firstSeenAt := now, lastSeenAt := now
    resolvedAt := none, correlationId := none, endpointRef := none, errorCode := none
    impactSummary := text, actionRequired := true, occurrenceCount := 1
    visibilityClass := "RESTRICTED_OPERATIONAL" }

def loud (text : String) : Incidents.Incident :=
  openRow "incident-1" "2026-01-01T00:00:00Z" "cause-1" .critical text

def quiet : Incidents.Incident := openRow "incident-2" "2026-01-01T00:00:01Z" "cause-2" .error "down"

def twoIncidents (text : String) : Incidents.Tables :=
  ⟨[loud text, quiet], some "2026-01-01T00:00:00Z",
    [⟨1, "incident-1", loud text⟩, ⟨2, "incident-2", quiet⟩]⟩

theorem checkDestination_onCall : checkDestination (some onCall) = .ok onCall := by
  have href : ∀ ref ∈ [onCall.destinationRef, onCall.recipientRef, onCall.transportRef,
      onCall.transportSecretRef], isReference ref = true := by
    simp [onCall, isReference, String.contains_char_eq]
  have hshort : ¬ ((∃ kv ∈ onCall.fields, kv.2.length < 1 ∨ 200 < kv.2.length) ∨
      onCall.minimumSeverity ∉ ["WARNING", "ERROR", "CRITICAL"]) := by decide
  have hrefs : ¬ ∃ ref ∈ [onCall.destinationRef, onCall.recipientRef, onCall.transportRef,
      onCall.transportSecretRef], isReference ref = false := by
    intro h
    obtain ⟨ref, hmem, hfalse⟩ := h
    rw [href ref hmem] at hfalse
    cases hfalse
  rw [checkDestination, if_neg hshort, if_neg hrefs]

def operator : Grant := ⟨"operator-1", true, "tenant-1", "decision-1", "policy-1"⟩

theorem authorize_permissive :
    authorize .empty "alert://on-call" none true permissive.decision = .ok operator := by
  rfl

theorem configure_onCall : ∃ t', configure .empty onCall operator "audit-1" 0 = .ok t' ∧
    t'.destinations.find? "alert://on-call" = some ⟨onCall, onCall.fingerprint, "tenant-1"⟩ ∧
    t'.receipts = [] ∧ t'.deliveries = .empty ∧ t'.sessions = .empty :=
  ⟨_, rfl, rfl, rfl, rfl, rfl⟩

theorem advance_start {incidents : Incidents.Tables} {t : Tables} {o : Oracle} {g : Grant}
    (hok : authorize t "alert://on-call" none true o.decision = .ok g)
    (hpolicy : g.policyRef = "policy-1") :
    advance incidents t o (.configureStart onCall) = (t, .configureCommit onCall g, []) := by
  show (t, proceed (do
    let grant ← authorize t "alert://on-call" none true o.decision
    if grant.policyRef ≠ "policy-1" then .error (.blocked "ALERT_DESTINATION_POLICY_UNPROVEN")
    else .ok (.configureCommit onCall grant)), []) = _
  rw [hok]
  show (t, proceed (if g.policyRef ≠ "policy-1" then _ else _), []) = _
  rw [if_neg (not_not.mpr hpolicy)]
  rfl

theorem begin_onCall : begin (.configure (some onCall)) = .configureStart onCall := by
  simp only [begin, checkDestination_onCall]

theorem advance_commit {incidents : Incidents.Tables} {t t' : Tables} {o : Oracle} {g : Grant}
    (hok : configure t onCall g o.uuid o.now = .ok t') :
    advance incidents t o (.configureCommit onCall g) = (t', reply .configured, []) := by
  simp only [advance, transact, hok, Except.map]

theorem write_twoOutages {text : String} (htext : text ≠ "") :
    ((Incidents.startHistory noIncidents.tables "2026-01-01T00:00:00Z").write
      (.openIncident "incident-1" "2026-01-01T00:00:00Z" (outage "cause-1" "CRITICAL" text))).write
      (.openIncident "incident-2" "2026-01-01T00:00:01Z" (outage "cause-2" "ERROR" "down")) =
      twoIncidents text := by
  have hfirst : Incidents.Tables.write (Incidents.startHistory noIncidents.tables "2026-01-01T00:00:00Z")
      (.openIncident "incident-1" "2026-01-01T00:00:00Z" (outage "cause-1" "CRITICAL" text)) =
      ⟨[loud text], some "2026-01-01T00:00:00Z", [⟨1, "incident-1", loud text⟩]⟩ := by
    have hok : ¬ ((outage "cause-1" "CRITICAL" text).dedupKey = "" ∨
        (outage "cause-1" "CRITICAL" text).eventType = "" ∨
        (outage "cause-1" "CRITICAL" text).impactSummary = "") := by
      simp [outage, htext]
    have hsev : Incidents.Severity.ofText? (outage "cause-1" "CRITICAL" text).severity = some .critical :=
      rfl
    simp only [Incidents.Tables.write, Incidents.openIncident, hsev, if_neg hok]
    rfl
  rw [hfirst]
  rfl

/-- The world those inputs lead to. -/
theorem run_twoOutages {text : String} (htext : text ≠ "") :
    let w := system.run (World.initial
      (Incidents.startHistory noIncidents.tables "2026-01-01T00:00:00Z")) (twoOutages text)
    w.Free 0 ∧ w.incidents = twoIncidents text ∧
      w.tables.destinations.find? "alert://on-call" =
        some ⟨onCall, onCall.fingerprint, "tenant-1"⟩ ∧
      w.tables.receipts = [] ∧ w.tables.deliveries = .empty ∧ w.tables.sessions = .empty := by
  obtain ⟨t', hok, hfind, hreceipts, hdeliveries, hsessions⟩ := configure_onCall
  intro w
  have hw : w = ⟨twoIncidents text, t', Function.update (Function.update (Function.update
      (fun _ => .idle) 0 (.configureStart onCall)) 0 (.configureCommit onCall operator)) 0
        (reply .configured)⟩ := by
    show system.step (system.step (system.step (system.step (system.step (World.initial _) _) _) _)
      _) _ = _
    rw [next_call (Or.inl rfl), begin_onCall]
    show system.step (system.step (system.step (system.step ⟨_, .empty, _⟩ _) _) _) _ = _
    rw [next_step, advance_start authorize_permissive rfl, next_step, advance_commit hok,
      ← write_twoOutages htext]
    rfl
  rw [hw]
  exact ⟨Or.inr ⟨.ok .configured, rfl⟩, rfl, hfind, hreceipts, hdeliveries, hsessions⟩

theorem fits_quiet (text : String) : Fits (twoIncidents text) quiet := by
  have hepisode : episodeOf (twoIncidents text) quiet = 1 := rfl
  have hphase : phaseOf quiet = .problem := rfl
  rw [Fits, hepisode, hphase, payload_eq]
  decide +kernel

theorem pendingGroups_twoIncidents {text : String} {t : Tables} (h : t.receipts = []) (limit : Nat) :
    pendingGroups (twoIncidents text) t "alert://on-call" (limit + 1) =
      (1, loud text) :: List.take limit [(2, quiet)] := by
  have hall : unreceipted (twoIncidents text) t "alert://on-call" = (twoIncidents text).transitions := by
    rw [unreceipted, h]
    rfl
  have hsorted : ([(1, loud text), (2, quiet)] : List (Nat × Incidents.Incident)).Pairwise
      fun a b => decide ((toLex (if a.2.lifecycleState = .resolved then 1 else 0,
        toLex (4 - a.2.severity.rank, a.1)) : Nat ×ₗ Nat ×ₗ Nat) ≤
          toLex (if b.2.lifecycleState = .resolved then 1 else 0,
            toLex (4 - b.2.severity.rank, b.1))) = true :=
    List.pairwise_pair.mpr (decide_eq_true
      (show (toLex (0, toLex (0, 1)) : Nat ×ₗ Nat ×ₗ Nat) ≤ toLex (0, toLex (1, 2)) by decide))
  rw [pendingGroups, hall]
  show List.take (limit + 1) (List.mergeSort [(1, loud text), (2, quiet)] _) = _
  rw [List.mergeSort_of_pairwise hsorted, List.take_succ_cons]

/-- A summary of so many characters. -/
def noise (n : Nat) : String := String.ofList (List.replicate n 'x')

theorem noise_ne (n : Nat) : noise (n + 1) ≠ "" := by
  intro h
  have hlist := congrArg String.toList h
  rw [noise, String.toList_ofList, List.replicate_succ] at hlist
  cases hlist

/-- One incident whose summary is too long for a payload stops another for good: whatever
the calls after the two writes are allowed, draw and take for their limit, the
notification of the other incident, which is wanted and fits, never comes. -/
theorem oversized_incident_stops_others :
    let w := system.run (World.initial
      (Incidents.startHistory noIncidents.tables "2026-01-01T00:00:00Z")) (twoOutages (noise 4097))
    ∃ config, w.tables.destinations.find? "alert://on-call" = some config ∧
      Room w.tables config 128 ∧ quiet ∈ w.incidents.incidents ∧
      Wanted w.incidents w.tables config quiet ∧ Fits w.incidents quiet ∧
      ∀ rounds k, (w.after 0 "alert://on-call" rounds k).tables.keys = [] ∧
        (w.after 0 "alert://on-call" rounds k).tables.receipts = [] := by
  have hne : noise 4097 ≠ "" := noise_ne 4096
  intro w
  obtain ⟨hfree, hincidents, hfind, hreceipts, hdeliveries, hsessions⟩ := run_twoOutages hne
  have hkeys : w.tables.keys = [] := by
    rw [Tables.keys, hdeliveries]
    rfl
  have hwanted : ∀ item, item.lifecycleState ≠ .resolved → 3 ≤ item.severity.rank →
      Wanted w.incidents w.tables ⟨onCall, onCall.fingerprint, "tenant-1"⟩ item := by
    intro item hopen hrank
    refine ⟨fun h => absurd h hopen, fun _ => hrank, ?_⟩
    rw [hkeys]
    exact List.not_mem_nil
  have hbig : ¬ Fits w.incidents (loud (noise 4097)) := by
    intro hfits
    have hle := (impact_le_payload (loud (noise 4097)) _ _).trans hfits
    have hsize : (Json.quote true (loud (noise 4097)).impactSummary).utf8ByteSize = 4099 :=
      size_quote_replicate 4097
    omega
  refine ⟨_, hfind, ?_, ?_, hwanted quiet (by decide) (by decide), ?_, fun rounds k => ?_⟩
  · refine ⟨?_, ?_, ?_⟩
    all_goals rw [hdeliveries]
    all_goals decide
  · rw [hincidents]
    exact List.mem_cons_of_mem _ (List.mem_singleton_self _)
  · rw [hincidents]
    exact fits_quiet _
  · obtain ⟨-, -, htables⟩ := after_stuck hfree hfind (fun limit hlimit => by
      obtain ⟨n, rfl⟩ := Nat.exists_eq_add_of_le' hlimit
      rw [hincidents]
      refine ⟨_, _, pendingGroups_twoIncidents hreceipts n, ?_⟩
      rw [← hincidents]
      exact ⟨hwanted _ (by decide) (by decide), hbig⟩) rounds k
    rw [htables]
    exact ⟨hkeys, hreceipts⟩

end OufGateway.Outbox
