import Mathlib
import OufGateway.Proofs.OutboxLife
import OufGateway.Proofs.OutboxRuns
import OufGateway.Proofs.OutboxSpecs
import OufGateway.Proofs.OutboxCalls
import OufGateway.Proofs.OutboxHistory
import OufGateway.Proofs.NoBlindResend
import OufGateway.Proofs.Lifetimes

/-!
# Retry-After

The outcome that a provider did not take a delivery may say how long to wait. Two
transactions turn it into a new due time. `_finish` adds the larger of the backoff
and the wait to its clock, and gives the delivery up when no attempt would fit behind
that time. The last transaction of `reconcile_ambiguous_delivery` has the same outcome
in hand and drops its wait: the delivery is due at once.

What is due at `τ` or given up is not claimed with an earlier reading, whatever the
workers do, until it has been claimed or a human renews it: each step keeps the row as
it is, gives it up, or is one of these two (`Rested.next`). That is all the argument
needs on either path, and the transactions differ only in whether they leave such a row
(`proof_rests_iff`).
-/

namespace OufGateway.Outbox

open Lib

variable {incidents : Incidents.Tables} {t t' : Tables} {d : String} {row : Delivery}
  {budget : Session} {τ x D r now : ℚ} {c : Claim} {w : World} {j k : Nat} {o : Oracle} {s : State}

/-! ## Rows that rest -/

/-- The delivery is given up, or not due before `τ`. -/
def Rested (t : Tables) (d : String) (τ : ℚ) : Prop :=
  ∃ row, t.deliveries.find? d = some row ∧
    (row.state = .exhausted ∨ row.state = .pending ∧ τ ≤ row.nextDue)

/-- What a step makes of such a row. -/
theorem Rested.next {tr : List Event} (h : Rested w.tables d τ) (hw : Inv w tr) (i : Input) :
    Rested (system.step w i).tables d τ ∨ (∃ n, .claimed d n ∈ system.emit w i) ∨
      .renewed d ∈ system.emit w i := by
  obtain ⟨row, hrow, hrest⟩ := h
  obtain ⟨row', hrow', hlife⟩ := next_life hw i hrow
  generalize hevs : (w.next i).2 = evs at hlife
  change Rested (w.next i).1.tables d τ ∨ (∃ n, .claimed d n ∈ (w.next i).2) ∨
    .renewed d ∈ (w.next i).2
  rw [hevs]
  have given : ∀ {s : State}, row.state = s → s = .exhausted ∨ s = .pending := by
    rintro s rfl
    rcases hrest with h | ⟨h, -⟩
    · exact Or.inl h
    · exact Or.inr h
  cases hlife with
  | rest => exact Or.inl ⟨row, hrow', hrest⟩
  | lapse _ hs => exact absurd (given hs) (by simp)
  | exhaust _ _ hs' => exact Or.inl ⟨row', hrow', Or.inl hs'⟩
  | claim => exact Or.inr (Or.inl ⟨_, List.mem_singleton_self _⟩)
  | finish hs => exact absurd (given hs) (by simp)
  | renew => exact Or.inr (Or.inr (by simp))
  | allow hs => exact absurd (given hs) (by simp)
  | reconcile hs => exact absurd (given hs) (by simp)

/-- A claim of it goes by a reading from `τ` on. -/
theorem Rested.le_reading (h : Rested w.tables d τ) (hc : Committed w j c x D)
    (hd : c.deliveryId = d) : τ ≤ x := by
  obtain ⟨row, hrow, hrest⟩ := h
  obtain ⟨destination, transportRef, token, previewed, config, row', budget, -, hselected, -, rfl,
    -⟩ := hc
  have hfound := find?_of_sweep_pending hselected.found hselected.pending
  rw [← Table.find?_key hfound] at hfound
  change row'.deliveryId = d at hd
  rw [hd, hrow] at hfound
  obtain rfl := Option.some.inj hfound
  rcases hrest with hx | ⟨-, hdue⟩
  · rw [hselected.pending] at hx
    cases hx
  · exact hdue.trans hselected.due

/-- The step that shows a claim is one that commits it. -/
theorem committed_of_claimed {i : Input} {n : Nat} (h : .claimed d n ∈ system.emit w i) :
    ∃ j o c x D, i = .step j o ∧ Committed w j c x D ∧ c.deliveryId = d := by
  cases i with
  | step j o =>
      have heffect := advance_effect w.incidents w.tables o (w.workers j)
      change Event.claimed d n ∈ (advance w.incidents w.tables o (w.workers j)).2.2 at h
      generalize hevs : (advance w.incidents w.tables o (w.workers j)).2.2 = evs at h heffect
      generalize hafter : (advance w.incidents w.tables o (w.workers j)).2.1 = w' at heffect
      generalize (advance w.incidents w.tables o (w.workers j)).1 = t' at heffect
      cases heffect with
      | @claimed _ _ _ c =>
          obtain ⟨x, D, hcommitted⟩ := holding_of_advance hafter
          have hd : Event.claimed d n = .claimed c.deliveryId c.number := List.mem_singleton.mp h
          injection hd with hd
          exact ⟨j, o, c, x, D, rfl, hcommitted, hd.symm⟩
      | _ => simp at h
  | incident write => cases h
  | call k call =>
      change Event.claimed d n ∈ (w.next (.call k call)).2 at h
      simp only [World.next] at h
      split at h <;> cases h
  | crash k => cases h

/-! ## Until they are claimed -/

/-- From here on nothing claims the delivery before `τ`, unless its budget is renewed:
the next claim goes by a reading from `τ` on, and when the clock never goes back every
later claim is committed from `τ` on. -/
def Rests (incidents : Incidents.Tables) (before : List Input) (d : String) (τ : ℚ) : Prop :=
  ∀ (mid : List Input) (j : Nat) (o : Oracle) (c : Claim) (x D : ℚ),
    Committed (system.run (World.initial incidents) (before ++ mid)) j c x D → c.deliveryId = d →
    .renewed d ∉ system.trace (system.run (World.initial incidents) before) mid →
    ((∀ n, .claimed d n ∉ system.trace (system.run (World.initial incidents) before) mid) → τ ≤ x) ∧
      (NeverBack (before ++ mid ++ [.step j o]) → τ ≤ o.now)

theorem rests_of_rested {before : List Input}
    (h : Rested (system.run (World.initial incidents) before).tables d τ) :
    Rests incidents before d τ := by
  have hrun : ∀ mid : List Input,
      .renewed d ∈ system.trace (system.run (World.initial incidents) before) mid ∨
        Rested (system.run (World.initial incidents) (before ++ mid)).tables d τ ∨
        (∃ n, .claimed d n ∈ system.trace (system.run (World.initial incidents) before) mid) ∧
          ∃ y ∈ readings (before ++ mid), τ ≤ y := by
    intro mid
    induction mid using List.reverseRecOn with
    | nil => exact Or.inr (Or.inl (by rwa [List.append_nil]))
    | append_singleton mid i ih =>
        rw [system.trace_snoc, ← system.run_append, ← List.append_assoc, readings_append]
        rcases ih with hrenewed | hrested | ⟨⟨n, hn⟩, y, hy, hle⟩
        · exact Or.inl (List.mem_append_left _ hrenewed)
        · rw [system.run_snoc]
          rcases hrested.next (inv_run incidents (before ++ mid)) i with hrested' | ⟨n, hn⟩ | hrenewed
          · exact Or.inr (Or.inl hrested')
          · obtain ⟨j, o, c, x, D, rfl, hcommitted, hd⟩ := committed_of_claimed hn
            have hle := hrested.le_reading hcommitted hd
            obtain ⟨_, _, _, _, _, _, _, hworker, -⟩ := hcommitted
            exact Or.inr (Or.inr ⟨⟨n, List.mem_append_right _ hn⟩, x,
              List.mem_append_left _ (reading_mem (j := j) (by rw [hworker]; rfl)), hle⟩)
          · exact Or.inl (List.mem_append_right _ hrenewed)
        · exact Or.inr (Or.inr ⟨⟨n, List.mem_append_left _ hn⟩, y, List.mem_append_left _ hy, hle⟩)
  intro mid j o c x D hcommitted hd hrenewed
  rcases hrun mid with hnew | hrested | ⟨⟨n, hn⟩, y, hy, hle⟩
  · exact absurd hnew hrenewed
  · have hx := hrested.le_reading hcommitted hd
    refine ⟨fun _ => hx, fun hclock => hx.trans ?_⟩
    obtain ⟨_, _, _, _, _, _, _, hworker, -⟩ := hcommitted
    exact hclock.le_now (reading_mem (j := j) (by rw [hworker]; rfl))
  · exact ⟨fun hnone => absurd hn (hnone n), fun hclock => hle.trans (hclock.le_now hy)⟩

/-! ## The two transactions -/

/-- The step commits, at `t`, the outcome `TRANSIENT_NOT_ACCEPTED` with a wait of `r`
seconds: the worker has it from its send, or from its query. -/
inductive Proves (incidents : Incidents.Tables) (pre : List Input) (k : Nat) (o : Oracle) (d : String)
    (r t : ℚ) (s : State) : Prop
  | sent {c : Claim} {outcome : AlertOutcome} {t' : Tables}
      (worker : (system.run (World.initial incidents) pre).workers k = .finishCommit c outcome t)
      (kind : outcome.kind = .transientNotAccepted) (delivery : c.deliveryId = d)
      (wait : r = outcome.retryAfterSeconds)
      (commit : finish (system.run (World.initial incidents) pre).tables c outcome t o.jitter =
        .ok (t', s))
  | queried {a b : List Input} {o' : Oracle} {v : Int} {kind receipt : Json} {n : Int} {t' : Tables}
      (split : pre = a ++ .step k o' :: b)
      (asked : (system.run (World.initial incidents) a).workers k = .querying d v)
      (answer : o'.answer = .outcome kind receipt (.int n))
      (kind : kind? kind = .ok (some .transientNotAccepted)) (wait : r = n)
      (since : ∀ b', b' <+: b → (system.run (World.initial incidents)
        (a ++ .step k o' :: b')).workers k = .reconcileCommit d v (.notAccepted receipt))
      (time : t = o.now)
      (commit : commitProof (system.run (World.initial incidents) pre).tables d v
        (.notAccepted receipt) t o.later = .ok (t', s))

/-- `_finish` leaves the delivery at rest. -/
theorem finish_rests {outcome : AlertOutcome} {jitter : Option ℚ}
    (hok : finish t c outcome now jitter = .ok (t', s)) (hkind : outcome.kind = .transientNotAccepted) :
    Rested t' c.deliveryId (now + outcome.retryAfterSeconds) ∧
      ∀ row budget, t.deliveries.find? c.deliveryId = some row →
        t.sessions.find? row.activeSession = some budget →
        budget.deadline < now + outcome.retryAfterSeconds + 5 → s = .exhausted := by
  obtain ⟨row, budget, lease, due, hheld, hsettle, rfl⟩ := finish_spec hok
  obtain ⟨hdue, hcase⟩ := settle_transient hsettle hkind
  have hfound := hheld.found
  have hid := Table.find?_key hfound
  constructor
  · refine ⟨{ row with
      state := s, version := row.version + 1, nextDue := due, claimToken := none
      leaseUntil := none, receiptRef := some outcome.receiptRef }, ?_, ?_⟩
    · rw [← hid] at hfound ⊢
      show (writeOutcome _ _ _ _ _).deliveries.find? _ = _
      rw [writeOutcome, Table.find?_modify_self, hfound]
      rfl
    · rcases hcase with rfl | ⟨rfl, -⟩
      · exact Or.inl rfl
      · exact Or.inr ⟨rfl, hdue⟩
  · intro row' budget' hrow' hbudget' hlate
    obtain rfl := Option.some.inj (hfound.symm.trans hrow')
    obtain rfl := Option.some.inj (hheld.paid.symm.trans hbudget')
    rcases hcase with rfl | ⟨-, hleft⟩
    · rfl
    · linarith

/-- The last transaction of a reconciliation does when it gives the delivery up, or the
wait is over within it. -/
theorem proof_rests_iff {v : Int} {receipt : Json} {later : ℚ}
    (hrow : t.deliveries.find? d = some row) (hbudget : t.sessions.find? row.activeSession = some budget)
    (hok : commitProof t d v (.notAccepted receipt) now later = .ok (t', s)) :
    Rested t' d (now + r) ∧ (budget.deadline < now + r + 5 → s = .exhausted) ↔
      (budget.attempts < budget.maxAttempts → now + 5 < budget.deadline →
        now + r ≤ later ∧ now + r + 5 ≤ budget.deadline) := by
  obtain ⟨row', budget', receipt', hrow', hbudget', -, hs, rfl⟩ := commitProof_spec hok
  obtain rfl := Option.some.inj (hrow.symm.trans hrow')
  obtain rfl := Option.some.inj (hbudget.symm.trans hbudget')
  have hafter : (writeProof t row s later receipt').deliveries.find? d = some { row with
      state := s, version := row.version + 1, nextDue := later, receiptRef := receipt' } := by
    have hid := Table.find?_key hrow
    rw [← hid] at hrow ⊢
    show (writeProof _ _ _ _ _).deliveries.find? _ = _
    rw [writeProof, Table.find?_modify_self, hrow]
    rfl
  have hrested : Rested (writeProof t row s later receipt') d (now + r) ↔
      s = .exhausted ∨ s = .pending ∧ now + r ≤ later := by
    constructor
    · rintro ⟨x, hx, hcase⟩
      rw [hafter] at hx
      obtain rfl := Option.some.inj hx
      exact hcase
    · intro hcase
      exact ⟨_, hafter, hcase⟩
  rw [hrested]
  by_cases hleft : budget.attempts < budget.maxAttempts ∧ now + 5 < budget.deadline
  · obtain rfl : s = .pending := by
      rw [hs, Proof.state, if_pos hleft]
    constructor
    · rintro ⟨hcase, hlate⟩ - -
      refine ⟨?_, not_lt.mp fun h => by cases hlate h⟩
      rcases hcase with h | ⟨-, h⟩
      · cases h
      · exact h
    · intro h
      obtain ⟨hdue, hfits⟩ := h hleft.1 hleft.2
      exact ⟨Or.inr ⟨rfl, hdue⟩, fun hlate => absurd hfits (not_le.mpr hlate)⟩
  · obtain rfl : s = .exhausted := by
      rw [hs, Proof.state, if_neg hleft]
    exact iff_of_true ⟨Or.inl rfl, fun _ => rfl⟩ fun h1 h2 => absurd ⟨h1, h2⟩ hleft

/-- The step takes its outcome from a send; or the delivery has no attempt or time left;
or the wait is over between the two readings of the clock, and an attempt still fits. -/
def KeepsWait (w : World) (k : Nat) (o : Oracle) (budget : Session) (r t : ℚ) : Prop :=
  (∃ c outcome now, w.workers k = .finishCommit c outcome now) ∨
    (budget.attempts < budget.maxAttempts → t + 5 < budget.deadline →
      t + r ≤ o.later ∧ t + r + 5 ≤ budget.deadline)

/-- A step that commits a proved Retry-After of `r` seconds at `t` leaves the delivery
given up or not due before `t + r`, and given up when no attempt fits behind that time,
exactly when it keeps the wait; and then nothing claims the delivery before `t + r`
unless a human renews its budget. -/
theorem retry_after_respected (incidents : Incidents.Tables) :
    ∀ (pre : List Input) (k : Nat) (o : Oracle) (d : String) (r t : ℚ) (s : State) (row : Delivery)
      (budget : Session), Proves incidents pre k o d r t s →
      (system.run (World.initial incidents) pre).tables.deliveries.find? d = some row →
      (system.run (World.initial incidents) pre).tables.sessions.find? row.activeSession =
        some budget →
      (Rested (system.run (World.initial incidents) (pre ++ [.step k o])).tables d (t + r) ∧
          (budget.deadline < t + r + 5 → s = .exhausted) ↔
        KeepsWait (system.run (World.initial incidents) pre) k o budget r t) ∧
      (KeepsWait (system.run (World.initial incidents) pre) k o budget r t →
        Rests incidents (pre ++ [.step k o]) d (t + r)) := by
  intro pre k o d r t s row budget hproves hrow hbudget
  suffices h : Rested (system.run (World.initial incidents) (pre ++ [.step k o])).tables d (t + r) ∧
      (budget.deadline < t + r + 5 → s = .exhausted) ↔
        KeepsWait (system.run (World.initial incidents) pre) k o budget r t from
    ⟨h, fun hkeeps => rests_of_rested (h.mpr hkeeps).1⟩
  have htables : ∀ {worker : Worker},
      (system.run (World.initial incidents) pre).workers k = worker →
      (system.run (World.initial incidents) (pre ++ [.step k o])).tables =
        (advance (system.run (World.initial incidents) pre).incidents
          (system.run (World.initial incidents) pre).tables o worker).1 := by
    rintro worker rfl
    rw [system.run_snoc]
    rfl
  cases hproves with
  | sent worker kind delivery wait commit =>
      subst delivery wait
      obtain ⟨hrested, hlate⟩ := finish_rests commit kind
      refine iff_of_true ⟨?_, hlate row budget hrow hbudget⟩ (Or.inl ⟨_, _, _, worker⟩)
      rw [htables worker]
      simp only [advance, transact, commit]
      exact hrested
  | queried split asked answer kind wait since time commit =>
      have worker := since _ List.prefix_rfl
      rw [← split] at worker
      rw [htables worker, KeepsWait, or_iff_right]
      · subst time
        simp only [advance, transact, commit]
        exact proof_rests_iff hrow hbudget commit
      · rintro ⟨c, outcome, now, h⟩
        rw [worker] at h
        cases h

/-! ## A wait that is dropped -/

/-- The first attempt is not answered by 1. -/
def unanswered : Sending := ⟨permissive, permissive, { permissive with now := 1 }, permissive⟩

def asking : Asking := ⟨permissive, allowing "delivery-1", permissive, permissive, permissive⟩

/-- The provider has not taken the delivery, and wants an hour. -/
def hearing : Oracle :=
  { permissive with answer := .outcome (.str "TRANSIENT_NOT_ACCEPTED") (.str "") (.int 3600) }

def reconciling : Oracle := { permissive with now := 2, later := 2 }

def unknownDelivery : Delivery :=
  { firstDelivery with
    state := .unknown, version := 2, totalAttempts := 1, nextDue := 1, receiptRef := some "" }

def unknownSession : Session := { firstSession with attempts := 1, state := .unknown }

/-- What the allowance of the query and its last transaction leave. -/
def askedDelivery : Delivery := { unknownDelivery with reconciliationAttempts := 1 }

def resumedDelivery : Delivery := { askedDelivery with state := .pending, version := 3, nextDue := 2 }

def resumedSession : Session := { unknownSession with state := .active }

theorem stands_unanswered {x : Except Exn Reply} (h : Stands w incidents notified 0 (.done x)) :
    Stands (system.run w ((dispatching 0 "delivery-1").inputs 0 "alert://on-call" (some "transport://pager") ++
      unanswered.inputs 0)) incidents (single unknownDelivery unknownSession) 0
        (reply (.finished .unknown)) := by
  have hheld : Held attempted firstAttempt 1
      { firstDelivery with
        state := .inFlight, version := 1, totalAttempts := 1, claimToken := some "audit-1"
        leaseUntil := some 10 }
      { firstSession with attempts := 1 } 10 :=
    ⟨rfl, rfl, rfl, rfl, rfl, rfl, by norm_num⟩
  have hfinish : finish attempted firstAttempt { kind := .unknown } 1 none =
      .ok (single unknownDelivery unknownSession, .unknown) := finish_held hheld rfl
  rw [system.run_append]
  exact stands_finished (stands_attempted h) rfl hfinish

theorem allow_unknown : allow (single unknownDelivery unknownSession) "delivery-1" =
    single askedDelivery unknownSession := rfl

theorem stands_asking {x : Except Exn Reply}
    (h : Stands w incidents (single unknownDelivery unknownSession) 0 (.done x)) :
    Stands (system.run w (asking.inputs 0 "delivery-1" 2 (some "transport://pager"))) incidents
      (single askedDelivery unknownSession) 0 (.querying "delivery-1" 2) := by
  have hrow : (single unknownDelivery unknownSession).deliveries.find? unknownDelivery.deliveryId =
      some unknownDelivery := rfl
  have hconfig : (single unknownDelivery unknownSession).destinations.find?
      unknownDelivery.destinationRef = some destinationRow := rfl
  have hask : authorize (single unknownDelivery unknownSession) unknownDelivery.destinationRef
      (some unknownDelivery.deliveryId) false asking.ask.decision = .ok operator :=
    authorize_allowing "delivery-1" rfl
  have hquerying := stands_querying h hrow rfl (show 0 < 8 by decide) hask hconfig
  have hid : unknownDelivery.deliveryId = "delivery-1" := rfl
  have hversion : (unknownDelivery.version : Int) = 2 := rfl
  have href : destinationRow.settings.transportRef = "transport://pager" := rfl
  rwa [hid, hversion, href, allow_unknown] at hquerying

theorem commit_asked : commitProof (single askedDelivery unknownSession) "delivery-1" 2
    (.notAccepted (.str "")) 2 2 = .ok (single resumedDelivery resumedSession, .pending) := by
  have htakes : commitProof (single askedDelivery unknownSession) "delivery-1" askedDelivery.version
      (.notAccepted (.str "")) 2 2 = _ := commitProof_takes rfl rfl rfl rfl
  have hstate : (Proof.notAccepted (.str "")).state unknownSession 2 = .pending := by
    have hleft : unknownSession.attempts < unknownSession.maxAttempts ∧
        (2 : ℚ) + 5 < unknownSession.deadline := by
      refine ⟨show 1 < 128 by decide, ?_⟩
      show (2 : ℚ) + 5 < 0 + 86400
      norm_num
    rw [Proof.state, if_pos hleft]
  rw [hstate] at htakes
  exact htakes

theorem waits_resumed : Waits resumedDelivery resumedSession 3 where
  destination := rfl
  state := rfl
  due := by show (2 : ℚ) ≤ 3; norm_num
  session := rfl
  deadline := by show (3 : ℚ) < 0 + 86400; norm_num
  attempts := show 1 < 128 by decide

/-- The query of the delivery of an outage, up to its answer, and the answer. -/
def queriedOutage : List Input :=
  oneOutage ++ ((dispatching 0 "delivery-1").inputs 0 "alert://on-call" (some "transport://pager") ++
    unanswered.inputs 0) ++ asking.inputs 0 "delivery-1" 2 (some "transport://pager")

def droppedWait : List Input := queriedOutage ++ [.step 0 hearing]

theorem stands_queriedOutage : Stands (system.run (World.initial started) queriedOutage) oneIncident
    (single askedDelivery unknownSession) 0 (.querying "delivery-1" 2) := by
  obtain ⟨x, hnotified⟩ := stands_oneOutage
  have hasking := stands_asking (stands_unanswered hnotified)
  rwa [← system.run_append, ← system.run_append] at hasking

theorem stands_droppedWait : Stands (system.run (World.initial started) droppedWait) oneIncident
    (single askedDelivery unknownSession) 0
      (.reconcileCommit "delivery-1" 2 (.notAccepted (.str ""))) := by
  rw [droppedWait, system.run_snoc]
  exact stands_heard stands_queriedOutage rfl

theorem proves_droppedWait :
    Proves started droppedWait 0 reconciling "delivery-1" 3600 2 .pending := by
  have hheard := stands_droppedWait
  refine @Proves.queried started droppedWait 0 reconciling "delivery-1" 3600 2 .pending queriedOutage []
    hearing 2 (.str "TRANSIENT_NOT_ACCEPTED") (.str "") 3600 _ rfl stands_queriedOutage.worker rfl rfl
      (by norm_num) ?_ rfl (by rw [hheard.tables]; exact commit_asked)
  intro b' hb'
  obtain rfl := List.prefix_nil.mp hb'
  rw [droppedWait] at hheard
  exact hheard.worker

theorem retry_after_respected_droppedWait :
    (Rested (system.run (World.initial started) (droppedWait ++ [.step 0 reconciling])).tables
          "delivery-1" (2 + 3600) ∧ (unknownSession.deadline < 2 + 3600 + 5 → State.pending = .exhausted) ↔
        KeepsWait (system.run (World.initial started) droppedWait) 0 reconciling unknownSession 3600 2) ∧
      (KeepsWait (system.run (World.initial started) droppedWait) 0 reconciling unknownSession 3600 2 →
        Rests started (droppedWait ++ [.step 0 reconciling]) "delivery-1" (2 + 3600)) :=
  retry_after_respected started droppedWait 0 reconciling "delivery-1" 3600 2 .pending askedDelivery
    unknownSession proves_droppedWait (by rw [stands_droppedWait.tables]; rfl)
      (by rw [stands_droppedWait.tables]; rfl)

/-- The provider wants an hour at 2; the delivery is claimed again at 3. -/
theorem retry_after_dropped :
    ¬ ∀ (incidents : Incidents.Tables) (pre : List Input) (k : Nat) (o : Oracle) (d : String)
      (r t : ℚ) (s : State), Proves incidents pre k o d r t s →
        Rests incidents (pre ++ [.step k o]) d (t + r) := by
  intro h
  have hresumed : Stands (system.run (World.initial started) (droppedWait ++ [.step 0 reconciling]))
      oneIncident (single resumedDelivery resumedSession) 0 (reply (.reconciled .pending)) := by
    rw [system.run_snoc]
    exact stands_proved stands_droppedWait commit_asked
  -- The next dispatch reads the clock at 3.
  obtain ⟨hcommit, hquiet⟩ := stands_dispatching (dispatchable_single waits_resumed) hresumed
  rw [← system.run_append] at hcommit
  have hcommitted : Committed (system.run (World.initial started) (droppedWait ++ [.step 0 reconciling] ++
      ((dispatching 3 resumedDelivery.deliveryId).inputs 0 "alert://on-call" (some "transport://pager")).take 4)) 0
      (attemptOf destinationRow resumedDelivery "audit-1") 3 resumedSession.deadline := by
    refine ⟨_, _, _, _, _, _, _, hcommit.worker, ?_, ?_, rfl, rfl⟩
    · rw [hcommit.tables]
      exact (dispatchable_single waits_resumed).selected
    · rintro (hne | hlate)
      · exact hne rfl
      · have hdeadline : resumedSession.deadline = 0 + 86400 := rfl
        rw [hdeadline] at hlate
        norm_num at hlate
  have hwait := (h started droppedWait 0 reconciling "delivery-1" 3600 2 .pending proves_droppedWait
    (((dispatching 3 resumedDelivery.deliveryId).inputs 0 "alert://on-call" (some "transport://pager")).take 4) 0 permissive _ 3 _
    hcommitted rfl (by rw [hquiet]; simp)).1 (by rw [hquiet]; simp)
  norm_num at hwait

end OufGateway.Outbox
