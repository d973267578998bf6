import Mathlib
import OufGateway.Proofs.OutboxSpecs
import OufGateway.Proofs.OutboxBatch
import OufGateway.Proofs.Episodes

/-!
# Calls that nobody interrupts

What a call of one worker does when no other worker moves between its steps: its
answer is a function of the tables it began with and of what its oracles say, as
`Round.answer` is for `reconcile_owner_transitions`. Any such run is a run of the
system, so this is where a run of several calls is put together from its calls.
-/

namespace OufGateway.Outbox

open Lib

variable {incidents : Incidents.Tables} {t t' : Tables} {w : World} {i : Nat} {worker : Worker}
  {o : Oracle} {now : ℚ}

/-- Where a world stands, as far as one worker is concerned. -/
structure Stands (w : World) (incidents : Incidents.Tables) (t : Tables) (i : Nat)
    (worker : Worker) : Prop where
  incidents : w.incidents = incidents
  tables : w.tables = t
  worker : w.workers i = worker

theorem Stands.step (h : Stands w incidents t i worker) (o : Oracle) :
    Stands (system.step w (.step i o)) incidents (advance incidents t o worker).1 i
      (advance incidents t o worker).2.1 := by
  obtain ⟨rfl, rfl, rfl⟩ := h
  exact ⟨rfl, rfl, Function.update_self ..⟩

theorem Stands.emit (h : Stands w incidents t i worker) (o : Oracle) :
    system.emit w (.step i o) = (advance incidents t o worker).2.2 := by
  obtain ⟨rfl, rfl, rfl⟩ := h
  rfl

theorem Stands.call {x : Except Exn Reply} (h : Stands w incidents t i (.done x)) (c : Call) :
    Stands (system.step w (.call i c)) incidents t i (begin c) := by
  obtain ⟨rfl, rfl, hworker⟩ := h
  rw [next_call (Or.inr ⟨x, hworker⟩)]
  exact ⟨rfl, rfl, Function.update_self ..⟩

theorem Stands.write (h : Stands w incidents t i worker) (write : Incidents.Write) :
    Stands (system.step w (.incident write)) (incidents.write write) t i worker := by
  obtain ⟨rfl, rfl, rfl⟩ := h
  exact ⟨rfl, rfl, rfl⟩

/-- A worker stands where it stood when another one moves. -/
theorem Stands.beside {i k : Nat} {worker' : Worker} (h : Stands w incidents t i worker)
    (hk : Stands w incidents t k worker') (hne : i ≠ k) (o : Oracle) :
    Stands (system.step w (.step k o)) incidents (advance incidents t o worker').1 i worker := by
  obtain ⟨rfl, rfl, rfl⟩ := h
  obtain ⟨-, -, rfl⟩ := hk
  exact ⟨rfl, rfl, Function.update_of_ne hne ..⟩

/-! ## A dispatch -/

/-- The steps of `send_once` up to its claim. -/
structure Dispatching where
  ask : Oracle
  look : Oracle
  again : Oracle
  commit : Oracle

def Dispatching.inputs (x : Dispatching) (i : Nat) (destination : String)
    (transportRef : Option String) : List Input :=
  [.call i (.sendOnce destination transportRef), .step i x.ask, .step i x.look, .step i x.again,
    .step i x.commit]

theorem stands_before_claim {x : Dispatching} {r : Except Exn Reply} {destination : String}
    {transportRef : Option String} {g g' : Grant} {d : Delivery}
    (h : Stands w incidents t i (.done r))
    (hask : authorize t destination none false x.ask.decision = .ok g)
    (hlook : preview t destination x.look.now = some d)
    (hagain : authorize t destination (some d.deliveryId) false x.again.decision = .ok g') :
    Stands (system.run w ((x.inputs i destination transportRef).take 4)) incidents t i
        (.sendCommit destination transportRef x.look.now x.look.uuid (some d.deliveryId)) ∧
      system.trace w ((x.inputs i destination transportRef).take 4) = [] := by
  have hcalled := h.call (.sendOnce destination transportRef)
  have hasked := hcalled.step x.ask
  have h1 : advance incidents t x.ask (begin (.sendOnce destination transportRef)) =
      (t, .sendPreview destination transportRef, []) := by
    show (t, proceed (do
      let _ ← authorize t destination none false x.ask.decision
      .ok (.sendPreview destination transportRef)), []) = _
    rw [hask]
    rfl
  have e1 := hcalled.emit x.ask
  rw [h1] at hasked e1
  have hlooked := hasked.step x.look
  have e2 := hasked.emit x.look
  have h2 : advance incidents t x.look (.sendPreview destination transportRef) =
      (t, .sendAuthorize destination transportRef x.look.now x.look.uuid d.deliveryId, []) := by
    simp only [advance, observe, hlook]
  rw [h2] at hlooked e2
  have hagained := hlooked.step x.again
  have e3 := hlooked.emit x.again
  have h3 : advance incidents t x.again
      (.sendAuthorize destination transportRef x.look.now x.look.uuid d.deliveryId) =
      (t, .sendCommit destination transportRef x.look.now x.look.uuid (some d.deliveryId), []) := by
    show (t, proceed (do
      let _ ← authorize t destination (some d.deliveryId) false x.again.decision
      .ok (.sendCommit destination transportRef x.look.now x.look.uuid (some d.deliveryId))), []) = _
    rw [hagain]
    rfl
  rw [h3] at hagained e3
  refine ⟨hagained, ?_⟩
  show system.emit _ _ ++ (system.emit _ _ ++ (system.emit _ _ ++ (system.emit _ _ ++ []))) = _
  rw [e1, e2, e3]
  show (w.next (.call i _)).2 ++ _ = _
  simp only [World.next]
  split <;> rfl

/-- The claim itself. -/
theorem stands_claimed {destination token : String} {transportRef previewed : Option String}
    {c : Claim} (h : Stands w incidents t i (.sendCommit destination transportRef now token previewed))
    (hclaim : claimNext t destination transportRef now token previewed = .ok (t', .claimed c)) :
    Stands (system.step w (.step i o)) incidents t' i (.holding c) := by
  have hstep := h.step o
  have hadvance : advance incidents t o (.sendCommit destination transportRef now token previewed) =
      (t', .holding c, [.claimed c.deliveryId c.number]) := by
    simp only [advance, transact, hclaim]
  rwa [hadvance] at hstep

/-! ## A send -/

/-- The steps of `send_once` after its claim. -/
structure Sending where
  send : Oracle
  hear : Oracle
  clock : Oracle
  commit : Oracle

def Sending.inputs (x : Sending) (i : Nat) : List Input :=
  [.step i x.send, .step i x.hear, .step i x.clock, .step i x.commit]

theorem finish_held {c : Claim} {row : Delivery} {budget : Session} {lease due : ℚ} {s : State}
    {outcome : AlertOutcome} {jitter : Option ℚ} (h : Held t c now row budget lease)
    (hsettle : settle budget outcome now jitter = .ok (s, due)) :
    finish t c outcome now jitter = .ok (writeOutcome t row s due outcome.receiptRef, s) := by
  have hcheck : ¬ (row.state ≠ .inFlight ∨ row.claimToken ≠ some c.token ∨ row.version ≠ c.version) := by
    push Not
    exact ⟨h.inFlight, h.token, h.version⟩
  simp only [finish, h.found, h.paid, if_neg hcheck, h.leased, if_neg (not_le.mpr h.within), hsettle]

theorem stands_finished {x : Sending} {c : Claim} {outcome : AlertOutcome} {s : State}
    (h : Stands w incidents t i (.holding c)) (hhear : normalize x.hear.answer = .ok outcome)
    (hcommit : finish t c outcome x.clock.now x.commit.jitter = .ok (t', s)) :
    Stands (system.run w (x.inputs i)) incidents t' i (reply (.finished s)) := by
  have hsent : Stands (system.step w (.step i x.send)) incidents t i (.sending c) := h.step x.send
  have hheard := hsent.step x.hear
  have h1 : advance incidents t x.hear (.sending c) = (t, .finishing c outcome, []) := by
    simp only [advance, observe, hhear]
  rw [h1] at hheard
  have hclocked : Stands (system.step (system.step (system.step w (.step i x.send))
      (.step i x.hear)) (.step i x.clock)) incidents t i (.finishCommit c outcome x.clock.now) :=
    hheard.step x.clock
  have hdone := hclocked.step x.commit
  have h2 : advance incidents t x.commit (.finishCommit c outcome x.clock.now) =
      (t', reply (.finished s), [.finished c.deliveryId c.number outcome.kind s x.clock.now]) := by
    simp only [advance, transact, hcommit]
  rw [h2] at hdone
  exact hdone

/-! ## A query -/

/-- The steps of `reconcile_ambiguous_delivery` up to its query. -/
structure Asking where
  look : Oracle
  ask : Oracle
  check : Oracle
  allow : Oracle
  query : Oracle

def Asking.inputs (x : Asking) (i : Nat) (delivery : String) (version : Int)
    (transportRef : Option String) : List Input :=
  [.call i (.reconcileAmbiguousDelivery delivery (.int version) transportRef), .step i x.look,
    .step i x.ask, .step i x.check, .step i x.allow, .step i x.query]

theorem stands_querying {x : Asking} {r : Except Exn Reply} {row : Delivery}
    {config : Destination} {g : Grant} (h : Stands w incidents t i (.done r))
    (hrow : t.deliveries.find? row.deliveryId = some row) (hunknown : row.state = .unknown)
    (hleft : row.reconciliationAttempts < 8)
    (hask : authorize t row.destinationRef (some row.deliveryId) false x.ask.decision = .ok g)
    (hconfig : t.destinations.find? row.destinationRef = some config) :
    Stands (system.run w (x.inputs i row.deliveryId row.version
        (some config.settings.transportRef))) incidents (allow t row.deliveryId) i
      (.querying row.deliveryId row.version) := by
  let transportRef : Option String := some config.settings.transportRef
  have hcalled := h.call (.reconcileAmbiguousDelivery row.deliveryId (.int row.version) transportRef)
  have hlooked := hcalled.step x.look
  have h1 : advance incidents t x.look
      (begin (.reconcileAmbiguousDelivery row.deliveryId (.int row.version) transportRef)) =
      (t, .reconcileAuthorize row (.int row.version) transportRef, []) := by
    simp only [begin, advance, observe, hrow]
  rw [h1] at hlooked
  have hasked := hlooked.step x.ask
  have h2 : advance incidents t x.ask (.reconcileAuthorize row (.int row.version) transportRef) =
      (t, .reconcileCheck row (.int row.version) transportRef, []) := by
    show (t, proceed (do
      let _ ← authorize t row.destinationRef (some row.deliveryId) false x.ask.decision
      .ok (.reconcileCheck row (.int row.version) transportRef)), []) = _
    rw [hask]
    rfl
  rw [h2] at hasked
  have hchecked := hasked.step x.check
  have h3 : advance incidents t x.check (.reconcileCheck row (.int row.version) transportRef) =
      (t, .reconcileAllow row.deliveryId row.version, []) := by
    simp [advance, observe, hconfig, hunknown, transportRef]
  rw [h3] at hchecked
  have hallowed := hchecked.step x.allow
  have hcounted : takeAllowance t row.deliveryId row.version =
      .ok (allow t row.deliveryId, row.reconciliationAttempts + 1) := by
    have hguard : ((t.deliveries.find? row.deliveryId).filter fun d =>
        (d.version : Int) = row.version && d.state = .unknown && d.reconciliationAttempts < 8) =
        some row := by
      rw [hrow, Option.filter_some, if_pos]
      simp [hunknown, hleft]
    simp only [takeAllowance, hguard]
  have h4 : advance incidents t x.allow (.reconcileAllow row.deliveryId row.version) =
      (allow t row.deliveryId, .allowed row.deliveryId row.version (row.reconciliationAttempts + 1),
        [.allowed row.deliveryId (row.reconciliationAttempts + 1)]) := by
    simp only [advance, transact, hcounted]
  rw [h4] at hallowed
  exact hallowed.step x.query

/-- The answer proves something. -/
theorem stands_heard {delivery : String} {v : Int} {p : Proof}
    (h : Stands w incidents t i (.querying delivery v)) (hhear : proof? o.answer = .ok (some p)) :
    Stands (system.step w (.step i o)) incidents t i (.reconcileCommit delivery v p) := by
  have hstep := h.step o
  have hadvance : advance incidents t o (.querying delivery v) =
      (t, .reconcileCommit delivery v p, []) := by
    simp only [advance, observe, hhear]
  rwa [hadvance] at hstep

/-- And is committed. -/
theorem stands_proved {delivery : String} {v : Int} {p : Proof} {s : State}
    (h : Stands w incidents t i (.reconcileCommit delivery v p))
    (hcommit : commitProof t delivery v p o.now o.later = .ok (t', s)) :
    Stands (system.step w (.step i o)) incidents t' i (reply (.reconciled s)) := by
  have hstep := h.step o
  have hadvance : advance incidents t o (.reconcileCommit delivery v p) =
      (t', reply (.reconciled s), [.reconciled delivery p.kind s]) := by
    simp only [advance, transact, hcommit]
  rwa [hadvance] at hstep

theorem commitProof_takes {delivery : String} {row : Delivery} {budget : Session} {p : Proof}
    {later : ℚ} {receipt : Option String} (hrow : t.deliveries.find? delivery = some row)
    (hbudget : t.sessions.find? row.activeSession = some budget) (hunknown : row.state = .unknown)
    (hreceipt : bindText p.receipt = .ok receipt) :
    commitProof t delivery row.version p now later =
      .ok (writeProof t row (p.state budget now) later receipt, p.state budget now) := by
  have hcheck : ¬ (row.state ≠ .unknown ∨ (row.version : Int) ≠ row.version) := by
    push Not
    exact ⟨hunknown, rfl⟩
  simp only [commitProof, hrow, hbudget, if_neg hcheck, hreceipt]

/-! ## A reconciliation of owner transitions -/

/-- The steps of `reconcile_owner_transitions`. -/
structure Enqueuing where
  ask : Oracle
  commit : Oracle

def Enqueuing.inputs (x : Enqueuing) (i : Nat) (destination : String) (limit : Nat) : List Input :=
  [.call i (.reconcileOwnerTransitions destination (.int limit)), .step i x.ask, .step i x.commit]

theorem stands_enqueued {x : Enqueuing} {r : Except Exn Reply} {destination : String} {limit n : Nat}
    {pending : Bool} {g : Grant} (h : Stands w incidents t i (.done r)) (hlimit : 1 ≤ limit ∧ limit ≤ 64)
    (hask : authorize t destination none false x.ask.decision = .ok g)
    (hcommit : reconcileOwnerTransitions incidents t destination limit g x.commit.draws =
      .ok (t', n, pending)) :
    Stands (system.run w (x.inputs i destination limit)) incidents t' i
      (reply (.enqueued n pending)) := by
  have hcalled := h.call (.reconcileOwnerTransitions destination (.int limit))
  have hbegin : begin (.reconcileOwnerTransitions destination (.int limit)) =
      .enqueueStart destination limit := by
    have hint : (1 : Int) ≤ limit ∧ (limit : Int) ≤ 64 := by omega
    simp only [begin, if_pos hint, Int.toNat_natCast]
  rw [hbegin] at hcalled
  have hasked := hcalled.step x.ask
  have h1 : advance incidents t x.ask (.enqueueStart destination limit) =
      (t, .enqueueCommit destination limit g, []) := by
    show (t, proceed (do
      let grant ← authorize t destination none false x.ask.decision
      .ok (.enqueueCommit destination limit grant)), []) = _
    rw [hask]
    rfl
  rw [h1] at hasked
  have hdone := hasked.step x.commit
  have h2 : advance incidents t x.commit (.enqueueCommit destination limit g) =
      (t', reply (.enqueued n pending), []) := by
    simp only [advance, transact, hcommit]
  rw [h2] at hdone
  exact hdone

/-! ## Sweeps with nothing to do -/

/-- No lease and no budget is over, and nothing is `EXHAUSTED` or `UNKNOWN`. -/
structure Calm (t : Tables) (now : ℚ) : Prop where
  leased : ∀ d ∈ t.deliveries.rows, d.state = .inFlight → ∀ lease ∈ d.leaseUntil, now < lease
  funded : ∀ d ∈ t.deliveries.rows, d.state = .pending → ∀ b ∈ t.sessions.rows,
    b.sessionId = d.activeSession → now < b.deadline ∧ b.attempts < b.maxAttempts
  open' : ∀ d ∈ t.deliveries.rows, d.state ≠ .exhausted ∧ d.state ≠ .unknown

theorem sweep_calm (h : Calm t now) : sweep t now = t := by
  have h1 : expireLeases t now = t := by
    have hrows : ∀ d ∈ t.deliveries.rows,
        (decide (d.state = .inFlight) && d.leaseUntil.any (· ≤ now)) = false := by
      intro d hd
      cases hstate : decide (d.state = .inFlight) with
      | false => rfl
      | true =>
          cases hlease : d.leaseUntil with
          | none => rfl
          | some lease => simpa using h.leased d hd (of_decide_eq_true hstate) lease hlease
    rw [expireLeases, Table.update_eq_self _ hrows]
  have h2 : exhaustBudgets t now = t := by
    have hrows : ∀ d ∈ t.deliveries.rows, (decide (d.state = .pending) &&
        t.sessions.rows.any fun b => b.sessionId = d.activeSession && b.spent now) = false := by
      intro d hd
      rw [Bool.and_eq_false_iff]
      by_cases hstate : d.state = .pending
      · refine Or.inr (List.any_eq_false.mpr fun b hb => ?_)
        rw [Bool.and_eq_true, decide_eq_true_eq]
        rintro ⟨hid, hspent⟩
        obtain ⟨hnow, hattempts⟩ := h.funded d hd hstate b hb hid
        simp only [Session.spent, Bool.or_eq_true, decide_eq_true_eq] at hspent
        rcases hspent with hover | hover
        · exact absurd hover (not_le.mpr hnow)
        · omega
      · exact Or.inl (decide_eq_false hstate)
    rw [exhaustBudgets, Table.update_eq_self _ hrows]
  have h3 : ∀ s, s = .exhausted ∨ s = .unknown → markSessions t s = t := by
    intro s hs
    have hrows : ∀ b ∈ t.sessions.rows,
        (t.deliveries.rows.any fun d => d.state = s && d.activeSession = b.sessionId) = false := by
      intro b _
      refine List.any_eq_false.mpr fun d hd => ?_
      obtain ⟨hne, hne'⟩ := h.open' d hd
      rcases hs with rfl | rfl
      · simp [hne]
      · simp [hne']
    rw [markSessions, Table.update_eq_self _ hrows]
  rw [sweep, h1, h2, h3 _ (Or.inl rfl), h3 _ (Or.inr rfl)]

/-! ## One outage -/

/-- An incident store that has just begun its history. -/
def started : Incidents.Tables := Incidents.startHistory noIncidents.tables "2026-01-01T00:00:00Z"

def destinationRow : Destination := ⟨onCall, onCall.fingerprint, "tenant-1"⟩

/-- The tables `configure` leaves for the first destination. -/
def configured : Tables :=
  { Tables.empty with
    destinations := ⟨[destinationRow], List.nodup_singleton _⟩
    audit := ⟨[⟨"audit-1", "alert://on-call", "operator-1", "decision-1", "policy-1", "tenant-1", 0⟩],
      List.nodup_singleton _⟩ }

theorem configure_configured :
    configure .empty onCall operator permissive.uuid permissive.now = .ok configured := rfl

def oneIncident : Incidents.Tables :=
  ⟨[loud "down"], some "2026-01-01T00:00:00Z", [⟨1, "incident-1", loud "down"⟩]⟩

/-- The delivery and the session of its first notification. -/
def firstDelivery : Delivery :=
  queued oneIncident (loud "down") destinationRow ⟨"delivery-1", "session-1", 0⟩

def firstSession : Session := queuedSession operator ⟨"delivery-1", "session-1", 0⟩

/-- One delivery with one session. -/
def single (d : Delivery) (b : Session) : Tables :=
  { configured with
    receipts := [("alert://on-call", 1)]
    deliveries := ⟨[d], List.nodup_singleton _⟩
    sessions := ⟨[b], List.nodup_singleton _⟩ }

def notified : Tables := single firstDelivery firstSession

/-- A destination is configured, an incident opened, and its notification enqueued. -/
def oneOutage : List Input :=
  [.call 0 (.configure (some onCall)), .step 0 permissive, .step 0 permissive,
    .incident (.openIncident "incident-1" "2026-01-01T00:00:00Z" (outage "cause-1" "CRITICAL" "down"))] ++
    Enqueuing.inputs ⟨permissive, permissive⟩ 0 "alert://on-call" 1

theorem fits_oneIncident : Fits oneIncident (loud "down") := by
  have hepisode : episodeOf oneIncident (loud "down") = 1 := rfl
  have hphase : phaseOf (loud "down") = .critical := rfl
  rw [Fits, hepisode, hphase, payload_eq]
  decide +kernel

theorem enqueueCurrent_oneIncident : enqueueCurrent oneIncident configured (loud "down")
    destinationRow operator ⟨"delivery-1", "session-1", 0⟩ = .ok { notified with receipts := [] } := by
  have hfits := fits_oneIncident
  have hphase : phaseOf (loud "down") = .critical := rfl
  rw [Fits] at hfits
  simp only [enqueueCurrent]
  rw [if_neg (by rw [hphase]; decide), if_neg (by decide), if_neg (by decide), if_neg (by decide),
    if_neg (by omega)]
  rfl

theorem stands_oneOutage : ∃ x, Stands (system.run (World.initial started) oneOutage) oneIncident
    notified 0 (.done x) := by
  have hcalled : Stands (system.step (World.initial started) (.call 0 (.configure (some onCall))))
      started .empty 0 (.configureStart onCall) := by
    rw [next_call (Or.inl rfl), begin_onCall]
    exact ⟨rfl, rfl, rfl⟩
  have hasked := hcalled.step permissive
  rw [advance_start authorize_permissive rfl] at hasked
  have hconfigured := hasked.step permissive
  rw [advance_commit configure_configured] at hconfigured
  have hopened := hconfigured.write
    (.openIncident "incident-1" "2026-01-01T00:00:00Z" (outage "cause-1" "CRITICAL" "down"))
  have h3 : started.write
      (.openIncident "incident-1" "2026-01-01T00:00:00Z" (outage "cause-1" "CRITICAL" "down")) =
      oneIncident := by
    decide +kernel
  rw [h3] at hopened
  have hcommit : ∃ n pending, reconcileOwnerTransitions oneIncident configured "alert://on-call" 1
      operator permissive.draws = .ok (notified, n, pending) := by
    have hgroups : pendingGroups oneIncident configured "alert://on-call" 1 = [(1, loud "down")] := by
      show List.take 1 (List.mergeSort [(1, loud "down")] _) = _
      rw [List.mergeSort_singleton]
      rfl
    have hfind : configured.destinations.find? "alert://on-call" = some destinationRow := rfl
    have hdraw : permissive.draws 0 = ⟨"delivery-1", "session-1", 0⟩ := rfl
    have hcap : ¬ 200000 < configured.receipts.length + 1 := by decide
    simp only [reconcileOwnerTransitions, hfind, if_neg hcap, hgroups, enqueueGroups, hdraw,
      enqueueCurrent_oneIncident]
    exact ⟨_, _, rfl⟩
  obtain ⟨n, pending, hcommit⟩ := hcommit
  rw [oneOutage, system.run_append]
  exact ⟨_, stands_enqueued hopened (by decide) (authorize_again rfl) hcommit⟩

/-! ## Dispatches of it -/

/-- A delivery that can be dispatched. -/
def eligible (destination : String) (now : ℚ) (d : Delivery) : Bool :=
  d.destinationRef = destination && d.state = .pending && d.nextDue ≤ now

/-- At `now` the sweep has nothing to do, nothing is in flight, and this is the delivery
to dispatch, on this session. -/
structure Dispatchable (t : Tables) (d : Delivery) (b : Session) (now : ℚ) : Prop where
  destinations : t.destinations = configured.destinations
  calm : Calm t now
  idle : ∀ x ∈ t.deliveries.rows, x.state ≠ .inFlight
  only : t.deliveries.rows.filter (eligible "alert://on-call" now) = [d]
  session : t.sessions.find? d.activeSession = some b

variable {d : Delivery} {b : Session}

theorem Dispatchable.eligible (h : Dispatchable t d b now) :
    d ∈ t.deliveries.rows ∧ d.destinationRef = "alert://on-call" ∧ d.state = .pending ∧
      d.nextDue ≤ now := by
  have hmem : d ∈ t.deliveries.rows.filter (Outbox.eligible "alert://on-call" now) := by
    rw [h.only]
    exact List.mem_singleton_self d
  obtain ⟨hd, hready⟩ := List.mem_filter.mp hmem
  simp only [Outbox.eligible, Bool.and_eq_true, decide_eq_true_eq] at hready
  exact ⟨hd, hready.1.1, hready.1.2, hready.2⟩

theorem Dispatchable.find (h : Dispatchable t d b now) :
    t.destinations.find? "alert://on-call" = some destinationRow := by
  rw [h.destinations]
  rfl

theorem Dispatchable.selected (h : Dispatchable t d b now) :
    Selected t "alert://on-call" (some "transport://pager") now (some d.deliveryId) destinationRow d
      b where
  configured := h.find
  transport := rfl
  room := by
    rw [sweep_calm h.calm]
    have hnone : ∀ p : Delivery → Bool, t.deliveries.count
        (fun d => decide (d.state = .inFlight) && p d) = 0 := by
      intro p
      refine List.countP_eq_zero.mpr fun x hx => ?_
      simp [h.idle x hx]
    have hall := hnone fun _ => true
    simp only [Bool.and_true] at hall
    rintro (hfull | hfull)
    · rw [hall] at hfull
      omega
    · rw [hnone] at hfull
      omega
  found := by
    rw [sweep_calm h.calm]
    exact Table.find?_of_mem h.eligible.1
  own := h.eligible.2.1
  pending := h.eligible.2.2.1
  due := h.eligible.2.2.2
  paid := by
    rw [sweep_calm h.calm]
    exact h.session

theorem Dispatchable.preview (h : Dispatchable t d b now) :
    Outbox.preview t "alert://on-call" now = some d := by
  show (List.mergeSort (t.deliveries.rows.filter (Outbox.eligible "alert://on-call" now))
    Delivery.before).head? = _
  rw [h.only, List.mergeSort_singleton]
  rfl

/-- A decision that allows one delivery. -/
def allowing (delivery : String) : Oracle :=
  { permissive with
    decision := .answered (.obj [("allowed", .bool true),
      ("resource", resource "alert://on-call" (some delivery)), ("decisionRef", .str "decision-1"),
      ("principal", .str "operator-1"), ("policyRef", .str "policy-1"), ("actor", .str "HUMAN"),
      ("tenant", .str "tenant-1")]) }

theorem authorize_allowing (delivery : String)
    (hfind : t.destinations.find? "alert://on-call" = some destinationRow) :
    authorize t "alert://on-call" (some delivery) false (allowing delivery).decision =
      .ok operator := by
  have hresource : (resource "alert://on-call" (some delivery)).eqv
      (resource "alert://on-call" (some delivery)) = true := by
    simp [resource, Json.eqv, Json.eqvMembers, Json.ofLookup, Json.ofOption]
  unfold authorize
  rw [hfind]
  simp only [allowing]
  rw [if_neg (not_not.mpr ⟨rfl, rfl, hresource, rfl, rfl, rfl⟩)]
  rfl

/-- A dispatch of a delivery, with the clock at some reading. -/
def dispatching (now : ℚ) (delivery : String) : Dispatching :=
  ⟨permissive, { permissive with now := now }, allowing delivery, permissive⟩

/-- It comes to its claim. -/
theorem stands_dispatching {x : Except Exn Reply} (h : Dispatchable t d b now)
    (hs : Stands w incidents t 0 (.done x)) :
    Stands (system.run w (((dispatching now d.deliveryId).inputs 0 "alert://on-call"
          (some "transport://pager")).take 4)) incidents t 0
        (.sendCommit "alert://on-call" (some "transport://pager") now "audit-1"
          (some d.deliveryId)) ∧
      system.trace w (((dispatching now d.deliveryId).inputs 0 "alert://on-call"
        (some "transport://pager")).take 4) = [] :=
  stands_before_claim hs (authorize_again h.find) h.preview (authorize_allowing d.deliveryId h.find)

/-- And to its attempt. -/
theorem stands_dispatched {x : Except Exn Reply} (h : Dispatchable t d b now)
    (hintent : d.configHash = onCall.fingerprint) (hlong : now + 10 ≤ b.deadline)
    (hs : Stands w incidents t 0 (.done x)) :
    Stands (system.run w ((dispatching now d.deliveryId).inputs 0 "alert://on-call"
        (some "transport://pager"))) incidents (claim t d "audit-1" (now + 10)) 0
      (.holding (attemptOf destinationRow d "audit-1")) := by
  have hshort : ¬ Short destinationRow d b now := by
    rintro (hne | hlate)
    · exact hne hintent
    · linarith
  have hclaim : claimNext t "alert://on-call" (some "transport://pager") now "audit-1"
      (some d.deliveryId) = _ := claimNext_takes h.selected hshort
  rw [sweep_calm h.calm, min_eq_left hlong] at hclaim
  exact stands_claimed (stands_dispatching h hs).1 hclaim

/-- A delivery that waits and can be dispatched at `now` on its session. -/
structure Waits (d : Delivery) (b : Session) (now : ℚ) : Prop where
  destination : d.destinationRef = "alert://on-call"
  state : d.state = .pending
  due : d.nextDue ≤ now
  session : d.activeSession = b.sessionId
  deadline : now < b.deadline
  attempts : b.attempts < b.maxAttempts

theorem dispatchable_single (h : Waits d b now) : Dispatchable (single d b) d b now where
  destinations := rfl
  calm :=
    { leased := fun x hx hstate => by
        obtain rfl := List.mem_singleton.mp hx
        rw [h.state] at hstate
        cases hstate
      funded := fun x _ _ b' hb _ => by
        obtain rfl := List.mem_singleton.mp hb
        exact ⟨h.deadline, h.attempts⟩
      open' := fun x hx => by
        obtain rfl := List.mem_singleton.mp hx
        rw [h.state]
        exact ⟨by decide, by decide⟩ }
  idle x hx := by
    obtain rfl := List.mem_singleton.mp hx
    rw [h.state]
    decide
  only := by
    refine List.filter_cons_of_pos ?_
    simp only [eligible, Bool.and_eq_true, decide_eq_true_eq]
    exact ⟨⟨h.destination, h.state⟩, h.due⟩
  session := by
    rw [h.session]
    exact Table.find?_of_mem (List.mem_singleton_self b)

theorem waits_notified {now : ℚ} (h0 : 0 ≤ now) (h : now < 86400) :
    Waits firstDelivery firstSession now where
  destination := rfl
  state := rfl
  due := h0
  session := rfl
  deadline := by show now < 0 + 86400; linarith
  attempts := show 0 < 128 by decide

/-- The attempt a dispatch at 0 commits. -/
def firstAttempt : Claim := attemptOf destinationRow firstDelivery "audit-1"

/-- The tables with that attempt in flight. -/
def attempted : Tables := claim notified firstDelivery "audit-1" 10

theorem stands_attempted {x : Except Exn Reply} (h : Stands w incidents notified 0 (.done x)) :
    Stands (system.run w ((dispatching 0 "delivery-1").inputs 0 "alert://on-call"
      (some "transport://pager"))) incidents attempted 0 (.holding firstAttempt) := by
  have hlong : (0 : ℚ) + 10 ≤ firstSession.deadline := by
    show (0 : ℚ) + 10 ≤ 0 + 86400
    norm_num
  have hdispatched := stands_dispatched (dispatchable_single (waits_notified le_rfl (by norm_num))) rfl
    hlong h
  rwa [zero_add] at hdispatched

end OufGateway.Outbox
