import Mathlib
import OufGateway.Proofs.Lifecycle
import OufGateway.Proofs.OutboxKeys
import OufGateway.Proofs.OutboxRuns
import OufGateway.Proofs.OutboxSpecs
import OufGateway.Proofs.OutboxCalls
import OufGateway.Proofs.OutboxHistory
import OufGateway.Proofs.NoBlindResend
import OufGateway.Proofs.Episodes
import OufGateway.Proofs.Lifetimes

/-!
# The order of the phases

The phases of an episode are deliveries of their own, and the order of the dispatch
query only ranks those that are due. So a recovery can be sent while a problem waits
for its next attempt, and the problem is sent after it. What does hold is that a
recovery overtakes nothing that could be sent: when `send_once` chooses a recovery, a
problem of the same episode that is sent later was there already, and was not due, or
had an attempt that was still open (`recovery_overtakes_no_due_problem`).

That it was there already is a matter of the ledger. A recovery carries the number of
closures at its time, a problem one more, and closures only grow, so after the recovery
of an episode no problem of that episode is enqueued (`key_after`). That it was not due
is the order of the query (`preview_least`).
-/

namespace OufGateway.Outbox

open Lib

variable {incidents : Incidents.Tables} {t t' : Tables} {d : String} {k : Key} {w : World}
  {now : ℚ} {c : Claim} {j : Nat}

/-! ## A delivery keeps its key -/

/-- The key of the delivery with this identifier. -/
def Tables.keyOf (t : Tables) (d : String) : Option Key := (t.deliveries.find? d).map Delivery.key

theorem keyOf_update {p : Delivery → Bool} {f : Delivery → Delivery}
    (hrows : t'.deliveries.rows = t.deliveries.rows.map fun x => if p x then f x else x)
    (h : ∀ x, (f x).deliveryId = x.deliveryId ∧ (f x).key = x.key) : t'.keyOf d = t.keyOf d := by
  have hsame : ∀ x, (if p x then f x else x).deliveryId = x.deliveryId ∧
      (if p x then f x else x).key = x.key := by
    intro x
    split
    · exact h x
    · exact ⟨rfl, rfl⟩
  show (t'.deliveries.rows.find? _).map _ = (t.deliveries.rows.find? _).map _
  rw [hrows, List.find?_map, Option.map_map]
  have hpred : ((fun r : Delivery => decide (r.deliveryId = d)) ∘ fun x => if p x then f x else x) =
      fun r => decide (r.deliveryId = d) := by
    funext x
    simp only [Function.comp, (hsame x).1]
  rw [hpred]
  congr 1
  funext x
  exact (hsame x).2

theorem keyOf_sweep (t : Tables) (now : ℚ) : (sweep t now).keyOf d = t.keyOf d := by
  have hlapsed : (expireLeases t now).keyOf d = t.keyOf d := keyOf_update rfl fun _ => ⟨rfl, rfl⟩
  have hspent : (exhaustBudgets (expireLeases t now) now).keyOf d = (expireLeases t now).keyOf d :=
    keyOf_update rfl fun _ => ⟨rfl, rfl⟩
  exact hspent.trans hlapsed

theorem keyOf_exhaust (t : Tables) (delivery : String) : (exhaust t delivery).keyOf d = t.keyOf d :=
  keyOf_update rfl fun _ => ⟨rfl, rfl⟩

theorem keyOf_claim (t : Tables) (row : Delivery) (token : String) (lease : ℚ) :
    (claim t row token lease).keyOf d = t.keyOf d := keyOf_update rfl fun _ => ⟨rfl, rfl⟩

theorem keyOf_transact {α : Type} {x : Except Exn (Tables × α)} {f : α → Worker × List Event}
    (h : ∀ t' a, x = .ok (t', a) → t'.keyOf d = t.keyOf d) :
    (transact t x f).1.keyOf d = t.keyOf d := by
  unfold transact
  split
  · exact h _ _ rfl
  · rfl

/-- Only a reconciliation of owner transitions can change a key, from none to one. -/
theorem keyOf_advance (incidents : Incidents.Tables) (o : Oracle) {w : Worker}
    (hne : ∀ destination limit g, w ≠ .enqueueCommit destination limit g) :
    (advance incidents t o w).1.keyOf d = t.keyOf d := by
  unfold advance
  split
  · refine keyOf_transact fun t' _ hok => ?_
    rw [Tables.keyOf, (configure_ok (map_unit_eq_ok hok)).1, Tables.keyOf]
  · next destination limit g => exact absurd rfl (hne destination limit g)
  · refine keyOf_transact fun t' r hok => ?_
    rcases claimNext_spec hok with ⟨rfl, -⟩ |
      ⟨config, row, budget, -, ⟨-, rfl, -⟩ | ⟨-, rfl, -⟩⟩
    · exact keyOf_sweep t _
    · exact (keyOf_exhaust _ _).trans (keyOf_sweep t _)
    · exact (keyOf_claim _ _ _ _).trans (keyOf_sweep t _)
  · rfl
  · refine keyOf_transact fun t' s hok => ?_
    obtain ⟨row, budget, lease, due, -, -, rfl⟩ := finish_spec hok
    exact keyOf_update rfl fun _ => ⟨rfl, rfl⟩
  · refine keyOf_transact fun t' _ hok => ?_
    obtain ⟨row, -, -, -, hopen⟩ := renew_spec (map_unit_eq_ok hok)
    obtain ⟨S, -, rfl⟩ := openSession_ok hopen
    exact keyOf_update rfl fun _ => ⟨rfl, rfl⟩
  · refine keyOf_transact fun t' n hok => ?_
    obtain ⟨row, -, -, -, rfl, -⟩ := takeAllowance_ok hok
    exact keyOf_update rfl fun _ => ⟨rfl, rfl⟩
  · rfl
  · refine keyOf_transact fun t' s hok => ?_
    obtain ⟨row, budget, receipt, -, -, -, -, rfl⟩ := commitProof_spec hok
    exact keyOf_update rfl fun _ => ⟨rfl, rfl⟩
  · rfl

/-- The key of a notification of an incident as it stands. -/
def Issued (incidents : Incidents.Tables) (k : Key) : Prop :=
  ∃ (item : Incidents.Incident) (destination : String),
    k = (item.incidentId, destination, episodeOf incidents item, phaseOf item)

/-- A step leaves the key of a delivery, or issues it. -/
theorem keyOf_next (w : World) (i : Input) (d : String) :
    (system.step w i).tables.keyOf d = w.tables.keyOf d ∨
      w.tables.keyOf d = none ∧
        ∃ k, (system.step w i).tables.keyOf d = some k ∧ Issued w.incidents k := by
  cases i with
  | step j o =>
      show (advance w.incidents w.tables o (w.workers j)).1.keyOf d = _ ∨ _ ∧
        ∃ k, (advance w.incidents w.tables o (w.workers j)).1.keyOf d = some k ∧ _
      by_cases he : ∃ destination limit g, w.workers j = .enqueueCommit destination limit g
      · obtain ⟨destination, limit, g, hworker⟩ := he
        rw [hworker]
        simp only [advance, transact]
        split
        · next t' r hok =>
          refine reconcile_keeps (P := fun t' => t'.keyOf d = w.tables.keyOf d ∨
            w.tables.keyOf d = none ∧ ∃ k, t'.keyOf d = some k ∧ Issued w.incidents k) hok
            (fun _ _ h => h) (fun config item draw t t' _ h hins => ?_) (Or.inl rfl)
          obtain ⟨D, S, hD, -, rfl⟩ := insertDelivery_ok hins
          have hfind := Table.find?_insert? hD d
          have hkey : ({ t with deliveries := D, sessions := S } : Tables).keyOf d =
              if draw.delivery = d then some (queued w.incidents item config draw).key
              else t.keyOf d := by
            rw [Tables.keyOf, hfind]
            show Option.map _ (if draw.delivery = d then _ else _) = _
            split
            · rfl
            · rfl
          rw [hkey]
          split
          · next hid =>
            have hfresh : t.keyOf d = none := by
              have hnone := Table.insert?_fresh hD
              change t.deliveries.find? draw.delivery = none at hnone
              rw [Tables.keyOf, ← hid, hnone]
              rfl
            rcases h with h | ⟨hnone, k, hk, -⟩
            · exact Or.inr ⟨h.symm.trans hfresh, _, rfl, item, config.destinationRef, rfl⟩
            · rw [hfresh] at hk
              cases hk
          · exact h
        · exact Or.inl rfl
      · exact Or.inl (keyOf_advance w.incidents o fun a b c h => he ⟨a, b, c, h⟩)
  | incident write => exact Or.inl rfl
  | call j call =>
      left
      show (w.next (.call j call)).1.tables.keyOf d = _
      simp only [World.next]
      split <;> rfl
  | crash j => exact Or.inl rfl

theorem keyOf_run (h : w.tables.keyOf d = some k) (is : List Input) :
    (system.run w is).tables.keyOf d = some k := by
  induction is using List.reverseRecOn with
  | nil => exact h
  | append_singleton is i ih =>
      rw [system.run_snoc]
      rcases keyOf_next (system.run w is) i d with hsame | ⟨hnone, -⟩
      · rw [hsame, ih]
      · rw [ih] at hnone
        cases hnone

/-! ## Episodes that are over -/

/-- How often an incident has been closed, as the ledger has it. -/
def closuresOf (incidents : Incidents.Tables) (incident : String) : Nat :=
  closures none (statesOf incidents incident)

theorem closures_append_le (states more : List Incidents.Lifecycle) :
    closures none states ≤ closures none (states ++ more) := by
  induction more using List.reverseRecOn with
  | nil => rw [List.append_nil]
  | append_singleton more s ih =>
      rw [← List.append_assoc, closures_snoc]
      exact ih.trans (Nat.le_add_right _ _)

/-- The ledger only grows. -/
theorem transitions_write (incidents : Incidents.Tables) (write : Incidents.Write) :
    incidents.transitions <+: (incidents.write write).transitions := by
  have hfold : ∀ (rows : List Incidents.Incident) (s : Incidents.Tables),
      s.transitions <+: (rows.foldl Incidents.Tables.append s).transitions := by
    intro rows
    induction rows with
    | nil => exact fun s => List.prefix_rfl
    | cons row rows ih => exact fun s => (List.prefix_append _ [_]).trans (ih (s.append row))
  have hwrote := Incidents.write_wrote incidents write
  generalize incidents.committed write = es at hwrote
  generalize incidents.write write = after at hwrote
  cases hwrote with
  | nothing => exact List.prefix_rfl
  | baseline now _ => exact hfold incidents.incidents { incidents with baseline := some now }
  | inserted => exact List.prefix_append _ _
  | replaced => exact List.prefix_append _ _

theorem closuresOf_write (incidents : Incidents.Tables) (write : Incidents.Write) (incident : String) :
    closuresOf incidents incident ≤ closuresOf (incidents.write write) incident := by
  obtain ⟨more, hmore⟩ := transitions_write incidents write
  rw [closuresOf, closuresOf, statesOf, statesOf, ← hmore, List.filter_append, List.map_append]
  exact closures_append_le _ _

theorem closuresOf_next (w : World) (i : Input) (incident : String) :
    closuresOf w.incidents incident ≤ closuresOf (system.step w i).incidents incident := by
  cases i with
  | incident write => exact closuresOf_write w.incidents write incident
  | step j o => exact le_rfl
  | call j call =>
      show _ ≤ closuresOf (w.next (.call j call)).1.incidents incident
      simp only [World.next]
      split <;> exact le_rfl
  | crash j => exact le_rfl

theorem closuresOf_run (w : World) (is : List Input) (incident : String) :
    closuresOf w.incidents incident ≤ closuresOf (system.run w is).incidents incident := by
  induction is using List.reverseRecOn with
  | nil => exact le_rfl
  | append_singleton is i ih =>
      rw [system.run_snoc]
      exact ih.trans (closuresOf_next _ i incident)

/-- A recovery is of an episode that is over. -/
def Numbered (w : World) : Prop :=
  ∀ d k, w.tables.keyOf d = some k → k.2.2.2 = .recovery → k.2.2.1 ≤ closuresOf w.incidents k.1

theorem Issued.episode (h : Issued incidents k) :
    (k.2.2.2 = .recovery → k.2.2.1 = closuresOf incidents k.1) ∧
      (k.2.2.2 ≠ .recovery → k.2.2.1 = closuresOf incidents k.1 + 1) := by
  obtain ⟨item, destination, rfl⟩ := h
  show (phaseOf item = .recovery → episodeOf incidents item = closuresOf incidents item.incidentId) ∧
    (phaseOf item ≠ .recovery → episodeOf incidents item = closuresOf incidents item.incidentId + 1)
  constructor
  · intro h
    exact if_pos (phaseOf_recovery.mp h)
  · intro h
    exact if_neg (phaseOf_recovery.not.mp h)

theorem numbered_next (h : Numbered w) (i : Input) : Numbered (system.step w i) := by
  intro d k hk hphase
  refine le_trans ?_ (closuresOf_next w i k.1)
  rcases keyOf_next w i d with hsame | ⟨-, k', hk', hissued⟩
  · exact h d k (hsame ▸ hk) hphase
  · obtain rfl := Option.some.inj (hk'.symm.trans hk)
    exact (hissued.episode.1 hphase).le

theorem numbered_run (incidents : Incidents.Tables) (is : List Input) :
    Numbered (system.run (World.initial incidents) is) := by
  induction is using List.reverseRecOn with
  | nil =>
      intro d k hk
      cases hk
  | append_singleton is i ih =>
      rw [system.run_snoc]
      exact numbered_next ih i

/-- What is enqueued later is a recovery, or of an episode that is not over yet. -/
theorem key_after (hnone : w.tables.keyOf d = none) (is : List Input)
    (hk : (system.run w is).tables.keyOf d = some k) (hphase : k.2.2.2 ≠ .recovery) :
    closuresOf w.incidents k.1 < k.2.2.1 := by
  induction is using List.reverseRecOn with
  | nil =>
      rw [system.run_nil, hnone] at hk
      cases hk
  | append_singleton is i ih =>
      rw [system.run_snoc] at hk
      rcases keyOf_next (system.run w is) i d with hsame | ⟨-, k', hk', hissued⟩
      · exact ih (hsame ▸ hk)
      · obtain rfl := Option.some.inj (hk'.symm.trans hk)
        rw [hissued.episode.2 hphase]
        exact Nat.lt_succ_of_le (closuresOf_run w is _)

/-! ## The choice of a dispatch -/

theorem before_trans (a b c : Delivery) (hab : a.before b = true) (hbc : b.before c = true) :
    a.before c = true := by
  unfold Delivery.before at *
  grind

theorem before_total (a b : Delivery) : (a.before b || b.before a) = true := by
  unfold Delivery.before
  have hle := le_total a.nextDue b.nextDue
  grind

/-- The previewed delivery can be dispatched, and nothing that can be is of an earlier
phase. -/
theorem preview_least {destination : String} {row : Delivery}
    (h : preview t destination now = some row) :
    row ∈ t.deliveries.rows ∧ eligible destination now row = true ∧
      ∀ x ∈ t.deliveries.rows, eligible destination now x = true → row.phase.rank ≤ x.phase.rank := by
  change ((t.deliveries.rows.filter (eligible destination now)).mergeSort Delivery.before).head? =
    some row at h
  obtain ⟨rest, hsorted⟩ := List.head?_eq_some_iff.mp h
  have hmem : ∀ x, x ∈ row :: rest ↔ x ∈ t.deliveries.rows ∧ eligible destination now x = true := by
    intro x
    rw [← hsorted, List.mem_mergeSort, List.mem_filter]
  have hrow := (hmem row).mp (List.mem_cons_self ..)
  refine ⟨hrow.1, hrow.2, fun x hx hready => ?_⟩
  have hpairs := List.pairwise_mergeSort before_trans before_total
    (t.deliveries.rows.filter (eligible destination now))
  rw [hsorted, List.pairwise_cons] at hpairs
  rcases List.mem_cons.mp ((hmem x).mpr ⟨hx, hready⟩) with rfl | hlater
  · exact le_rfl
  · have hbefore := hpairs.1 x hlater
    unfold Delivery.before at hbefore
    grind

/-- The delivery a dispatch has chosen. -/
def Worker.chosen? : Worker → Option (String × Option String × ℚ × String × String)
  | .sendAuthorize destination transportRef now token delivery =>
      some (destination, transportRef, now, token, delivery)
  | .sendCommit destination transportRef now token (some delivery) =>
      some (destination, transportRef, now, token, delivery)
  | _ => none

theorem chosen_begin (call : Call) : (begin call).chosen? = none := by
  unfold begin
  split
  · split <;> rfl
  · split
    · split <;> rfl
    · rfl
  · rfl
  · rfl
  · rfl

/-- An attempt goes back to the preview that chose its delivery. -/
theorem chosen_of_holding {is : List Input} (hid : c.deliveryId ≠ "")
    (h : (system.run (World.initial incidents) is).workers j = .holding c) :
    ∃ a o b destination transportRef row, is = a ++ .step j o :: b ∧
      (system.run (World.initial incidents) a).workers j = .sendPreview destination transportRef ∧
      preview (system.run (World.initial incidents) a).tables destination o.now = some row ∧
      row.deliveryId = c.deliveryId := by
  have hbegin : ∀ call, begin call ≠ .holding c := by
    intro call hcall
    have hclaim := (free_begin call).claim
    rw [hcall] at hclaim
    cases hclaim
  obtain ⟨a, o, b, rfl, -, hstep, -⟩ :=
    since_last (Q := fun w => w = .holding c) (by simp) hbegin h
  obtain ⟨r, D, destination, transportRef, token, previewed, config, row, budget, hworker,
    hselected, -, rfl, -⟩ := holding_of_advance hstep
  obtain ⟨delivery, rfl, hdelivery⟩ : ∃ delivery, previewed = some delivery ∧
      row.deliveryId = delivery := by
    have hfound := Table.find?_key hselected.found
    cases previewed with
    | none => exact absurd hfound hid
    | some delivery => exact ⟨delivery, rfl, hfound⟩
  let x := (destination, transportRef, r, token, delivery)
  obtain ⟨a', o', b', rfl, hnot, hstep', -⟩ :=
    since_last (Q := fun w => w.chosen? = some x) (by simp [Worker.chosen?])
      (fun call => by rw [chosen_begin]; simp) (show Worker.chosen? _ = _ by rw [hworker]; rfl)
  have hgoes := advance_goes (system.run (World.initial incidents) a').incidents
    (system.run (World.initial incidents) a').tables o'
    ((system.run (World.initial incidents) a').workers j)
  generalize (advance (system.run (World.initial incidents) a').incidents
    (system.run (World.initial incidents) a').tables o'
    ((system.run (World.initial incidents) a').workers j)).2.1 = worker' at hstep' hgoes
  generalize hbefore : (system.run (World.initial incidents) a').workers j = worker at hnot hgoes
  cases hgoes with
  | choose hrow =>
      obtain ⟨rfl, rfl, rfl, rfl, hd⟩ : _ = destination ∧ _ = transportRef ∧ _ = r ∧ _ = token ∧
          _ = delivery := by simpa [Worker.chosen?, x] using hstep'
      exact ⟨a', o', b' ++ .step j o :: b, _, _, _, by simp, hbefore, hrow, hd.trans hdelivery.symm⟩
  | again => exact absurd hstep' hnot
  | _ => cases hstep'

/-- The step that commits an attempt shows its claim. -/
theorem Committed.claimed {r D : ℚ} (h : Committed w j c r D) (o : Oracle) :
    .claimed c.deliveryId c.number ∈ system.emit w (.step j o) := by
  obtain ⟨destination, transportRef, token, previewed, config, row, budget, hworker, hselected,
    hshort, rfl, rfl⟩ := h
  show _ ∈ (advance w.incidents w.tables o (w.workers j)).2.2
  rw [hworker]
  simp only [advance, transact, claimNext_takes hselected hshort, List.mem_singleton]

theorem claimed_of_holding {is : List Input}
    (h : (system.run (World.initial incidents) is).workers j = .holding c) :
    .claimed c.deliveryId c.number ∈ system.trace (World.initial incidents) is := by
  have hbegin : ∀ call, begin call ≠ .holding c := by
    intro call hcall
    have hclaim := (free_begin call).claim
    rw [hcall] at hclaim
    cases hclaim
  obtain ⟨a, o, b, rfl, -, hstep, -⟩ :=
    since_last (Q := fun w => w = .holding c) (by simp) hbegin h
  obtain ⟨r, D, hcommitted⟩ := holding_of_advance hstep
  rw [system.trace_append, system.trace_cons]
  exact List.mem_append_right _ (List.mem_append_left _ (hcommitted.claimed o))

/-- Given up, a delivery is not claimed before it is renewed. -/
theorem exhausted_move {r r' : Delivery} {evs : List Event} (hK : r.state = .exhausted)
    (h : Life d r evs r') : r'.state = .exhausted ∨ ∃ e ∈ evs, e = .renewed d := by
  cases h with
  | rest => exact Or.inl hK
  | renew => exact Or.inr ⟨_, List.mem_singleton_self _, rfl⟩
  | lapse _ hs => rw [hK] at hs; cases hs
  | exhaust _ hs => rw [hK] at hs; cases hs
  | claim hs => rw [hK] at hs; cases hs
  | finish hs => rw [hK] at hs; cases hs
  | allow hs => rw [hK] at hs; cases hs
  | reconcile hs => rw [hK] at hs; cases hs

/-! ## What a recovery overtakes -/

/-- The delivery was there and could not be dispatched at `now`, or one of its attempts
was open: in flight, ambiguous, or claimed and not sent. -/
def HeldBack (w : World) (tr : List Event) (c : Claim) (now : ℚ) : Prop :=
  ∃ row, w.tables.deliveries.find? c.deliveryId = some row ∧
    (row.state = .pending ∧ now < row.nextDue ∨ row.state = .inFlight ∨ row.state = .unknown ∨
      .claimed c.deliveryId c.number ∈ tr ∧ .sent c.deliveryId c.number ∉ tr)

/-- What is sent later could not be dispatched earlier, or had an open attempt. -/
theorem open_before_send {a rest : List Input} {c' : Claim} {k : Nat} {row : Delivery}
    (hsend : (system.run (World.initial incidents) (a ++ rest)).workers k = .holding c')
    (hrow : (system.run (World.initial incidents) a).tables.deliveries.find? c'.deliveryId = some row)
    (hkept : .renewed c'.deliveryId ∉ system.trace (World.initial incidents) (a ++ rest)) :
    row.state = .pending ∨ row.state = .inFlight ∨ row.state = .unknown ∨
      .claimed c'.deliveryId c'.number ∈ system.trace (World.initial incidents) a ∧
        .sent c'.deliveryId c'.number ∉ system.trace (World.initial incidents) a := by
  have hclaimed := claimed_of_holding hsend
  have hunsent : .sent c'.deliveryId c'.number ∉ system.trace (World.initial incidents) (a ++ rest) := by
    intro hsent
    refine (inv_run incidents (a ++ rest)).sends.held_unused k (c'.deliveryId, c'.number)
      (by rw [hsend]; rfl) ?_
    exact List.mem_filterMap.mpr ⟨_, hsent, rfl⟩
  rw [system.trace_append, List.mem_append] at hclaimed hunsent hkept
  push Not at hunsent hkept
  rcases hclaimed with hbefore | hafter
  · exact Or.inr (Or.inr (Or.inr ⟨hbefore, hunsent.1⟩))
  · obtain ⟨p, q, hsplit⟩ := List.append_of_mem hafter
    obtain ⟨-, -, -, -, -, hclaims⟩ := no_blind_resend incidents a c'.deliveryId
    obtain ⟨haccepted, hpaused, -, -⟩ := hclaims row hrow rest p q c'.number hsplit
    cases hstate : row.state with
    | pending => exact Or.inl rfl
    | inFlight => exact Or.inr (Or.inl rfl)
    | unknown => exact Or.inr (Or.inr (Or.inl rfl))
    | accepted => exact absurd hstate haccepted
    | paused => exact absurd hstate hpaused
    | exhausted =>
        obtain ⟨e, he, rfl⟩ := no_claim_before (K := fun r => r.state = .exhausted)
          (E := fun e => e = .renewed c'.deliveryId) (fun r hr => by rw [hr]; decide)
          (fun r evs r' hr hlife => exhausted_move hr hlife) (inv_run incidents a) hrow hstate rest hsplit
        refine absurd ?_ hkept.2
        rw [hsplit]
        exact List.mem_append_left _ he

/-- In a run without renewals, when a problem is sent after a recovery of the same
incident, destination and episode: at the clock reading by which `send_once` had chosen
the recovery, the problem was there, and it was not due or had an open attempt. -/
theorem recovery_overtakes_no_due_problem (incidents : Incidents.Tables) (is : List Input)
    (hkept : ∀ d, .renewed d ∉ system.trace (World.initial incidents) is) :
    ∀ (pre : List Input) (j : Nat) (o : Oracle) (mid : List Input) (k : Nat) (o' : Oracle)
      (post : List Input) (c c' : Claim) (incident destination : String) (episode : Nat)
      (phase : Phase), is = pre ++ .step j o :: mid ++ .step k o' :: post →
      (system.run (World.initial incidents) pre).workers j = .holding c → c.deliveryId ≠ "" →
      (system.run (World.initial incidents) pre).tables.keyOf c.deliveryId =
        some (incident, destination, episode, .recovery) →
      (system.run (World.initial incidents) (pre ++ .step j o :: mid)).workers k = .holding c' →
      (system.run (World.initial incidents) (pre ++ .step j o :: mid)).tables.keyOf c'.deliveryId =
        some (incident, destination, episode, phase) → phase ≠ .recovery →
      ∃ (a : List Input) (look : Oracle) (b : List Input) (transportRef : Option String)
        (row : Delivery), pre = a ++ .step j look :: b ∧
        (system.run (World.initial incidents) a).workers j = .sendPreview destination transportRef ∧
        preview (system.run (World.initial incidents) a).tables destination look.now = some row ∧
        row.deliveryId = c.deliveryId ∧
        HeldBack (system.run (World.initial incidents) a) (system.trace (World.initial incidents) a) c'
          look.now := by
  intro pre j o mid k o' post c c' incident destination episode phase his hholding hid hkey hholding'
    hkey' hphase
  obtain ⟨a, look, b, place, transportRef, row, rfl, hpreview, hchosen, hrowid⟩ :=
    chosen_of_holding hid hholding
  obtain ⟨hmem, heligible, hleast⟩ := preview_least hchosen
  simp only [eligible, Bool.and_eq_true, decide_eq_true_eq] at heligible
  -- The recovery has its key already.
  have hrowkey : (system.run (World.initial incidents) a).tables.keyOf c.deliveryId = some row.key := by
    rw [Tables.keyOf, ← hrowid, Table.find?_of_mem hmem]
    rfl
  have hsame := keyOf_run hrowkey (.step j look :: b)
  rw [← system.run_append, hkey] at hsame
  have hrec : row.key = (incident, destination, episode, .recovery) := (Option.some.inj hsame).symm
  obtain ⟨hri, hrd, hre, hrp⟩ : row.incidentId = incident ∧ row.destinationRef = destination ∧
      row.episode = episode ∧ row.phase = .recovery := by simpa [Delivery.key] using hrec
  obtain rfl : place = destination := heligible.1.1.symm.trans hrd
  have hover := numbered_run incidents a c.deliveryId _ hrowkey (by rw [hrec])
  rw [hrec] at hover
  -- So the problem is there too.
  have hrun : a ++ .step j look :: b ++ .step j o :: mid =
      a ++ (.step j look :: b ++ .step j o :: mid) := by simp
  rw [hrun] at hholding' hkey'
  have hthere : (system.run (World.initial incidents) a).tables.keyOf c'.deliveryId =
      some (incident, place, episode, phase) := by
    cases hnone : (system.run (World.initial incidents) a).tables.keyOf c'.deliveryId with
    | none =>
        rw [system.run_append] at hkey'
        have hlater := key_after hnone _ hkey' hphase
        exact absurd (hlater.trans_le hover) (lt_irrefl _)
    | some k =>
        rw [system.run_append, keyOf_run hnone] at hkey'
        rw [Option.some.inj hkey']
  obtain ⟨row', hrow', hrowkey'⟩ := Option.map_eq_some_iff.mp hthere
  obtain ⟨-, hd', -, hp'⟩ : row'.incidentId = incident ∧ row'.destinationRef = place ∧
      row'.episode = episode ∧ row'.phase = phase := by simpa [Delivery.key] using hrowkey'
  refine ⟨a, look, b, transportRef, row, rfl, hpreview, hchosen, hrowid, row', hrow', ?_⟩
  have hkept' : .renewed c'.deliveryId ∉ system.trace (World.initial incidents)
      (a ++ (.step j look :: b ++ .step j o :: mid)) := by
    intro hrenewed
    refine hkept c'.deliveryId ?_
    rw [his, hrun, system.trace_append]
    exact List.mem_append_left _ hrenewed
  rcases open_before_send hholding' hrow' hkept' with hpending | hopen
  · refine Or.inl ⟨hpending, not_le.mp fun hdue => ?_⟩
    have hrank := hleast row' (Table.mem_of_find? hrow') (by simp [eligible, hd', hpending, hdue])
    rw [hrp, hp'] at hrank
    cases phase with
    | recovery => exact hphase rfl
    | critical => cases hrank
    | problem => exact absurd hrank (by decide)
  · exact Or.inr hopen

/-! ## Runs without renewals -/

/-- The worker is in a call of `renew_exhausted_budget`. -/
def Worker.renewing : Worker → Bool
  | .renewStart .. => true
  | .renewAuthorize .. => true
  | .renewCommit .. => true
  | _ => false

theorem renewing_of_goes {o : Oracle} {worker worker' : Worker} (h : Goes t o worker worker')
    (hafter : worker'.renewing = true) : worker.renewing = true := by
  cases h with
  | renew => rfl
  | grant => rfl
  | _ => cases hafter

theorem events_transact {α : Type} {x : Except Exn (Tables × α)} {f : α → Worker × List Event}
    {e : Event} (h : e ∈ (transact t x f).2.2) : ∃ a, e ∈ (f a).2 := by
  unfold transact at h
  split at h
  · exact ⟨_, h⟩
  · cases h

theorem renewing_of_renewed {o : Oracle} {worker : Worker}
    (h : .renewed d ∈ (advance incidents t o worker).2.2) : worker.renewing = true := by
  unfold advance at h
  split at h
  · obtain ⟨a, ha⟩ := events_transact h
    cases ha
  · obtain ⟨a, ha⟩ := events_transact h
    cases ha
  · obtain ⟨a, ha⟩ := events_transact h
    cases a <;> simp at ha
  · simp at h
  · obtain ⟨a, ha⟩ := events_transact h
    simp at ha
  · rfl
  · obtain ⟨a, ha⟩ := events_transact h
    simp at ha
  · simp at h
  · obtain ⟨a, ha⟩ := events_transact h
    simp at ha
  · cases h

/-- Without a call of `renew_exhausted_budget` nothing is renewed. -/
theorem no_renewal {is : List Input}
    (hcalls : ∀ j delivery v reason, .call j (.renewExhaustedBudget delivery v reason) ∉ is) :
    (∀ j, ((system.run (World.initial incidents) is).workers j).renewing = false) ∧
      ∀ d, .renewed d ∉ system.trace (World.initial incidents) is := by
  induction is using List.reverseRecOn with
  | nil => exact ⟨fun _ => rfl, fun _ => List.not_mem_nil⟩
  | append_singleton is i ih =>
      obtain ⟨hidle, hnone⟩ := ih fun j delivery v reason h =>
        hcalls j delivery v reason (List.mem_append_left _ h)
      rw [system.run_snoc, system.trace_snoc]
      constructor
      · intro j
        show ((World.next _ i).1.workers j).renewing = false
        rcases next_worker (system.run (World.initial incidents) is) i j with
          hw | ⟨o, rfl, hw⟩ | ⟨call, rfl, hw⟩ | hw
        · rw [hw]
          exact hidle j
        · rw [hw]
          refine Bool.eq_false_iff.mpr fun hafter => ?_
          have hbefore := renewing_of_goes (advance_goes _ _ o _) hafter
          rw [hidle j] at hbefore
          cases hbefore
        · rw [hw]
          cases call with
          | renewExhaustedBudget delivery v reason =>
              exact absurd (List.mem_append_right _ (List.mem_singleton_self _))
                (hcalls j delivery v reason)
          | configure destination =>
              simp only [begin]
              split <;> rfl
          | reconcileOwnerTransitions destination limit =>
              simp only [begin]
              split
              · split <;> rfl
              · rfl
          | sendOnce destination transportRef => rfl
          | reconcileAmbiguousDelivery delivery v transportRef => rfl
        · rw [hw]
          rfl
      · intro d hd
        rcases List.mem_append.mp hd with hd | hd
        · exact hnone d hd
        · cases i with
          | step j o =>
              have hbefore := renewing_of_renewed hd
              rw [hidle j] at hbefore
              cases hbefore
          | incident write => cases hd
          | call j call =>
              change _ ∈ (World.next _ (.call j call)).2 at hd
              simp only [World.next] at hd
              split at hd <;> cases hd
          | crash j => cases hd

/-! ## A recovery that is not the last word -/

/-- The first attempt is not accepted; the next one is due at 5. -/
def refused : Sending :=
  ⟨permissive,
    { permissive with answer := .outcome (.str "TRANSIENT_NOT_ACCEPTED") (.str "") (.int 0) },
    permissive, { permissive with jitter := some 1 }⟩

def delayedDelivery : Delivery :=
  { firstDelivery with version := 2, totalAttempts := 1, nextDue := 5, receiptRef := some "" }

def delayedSession : Session := { firstSession with attempts := 1 }

theorem stands_refused {x : Except Exn Reply} (h : Stands w incidents notified 0 (.done x)) :
    Stands (system.run w ((dispatching 0 "delivery-1").inputs 0 "alert://on-call"
      (some "transport://pager") ++ refused.inputs 0)) incidents
        (single delayedDelivery delayedSession) 0 (reply (.finished .pending)) := by
  have hheld : Held attempted firstAttempt 0
      { firstDelivery with
        state := .inFlight, version := 1, totalAttempts := 1, claimToken := some "audit-1"
        leaseUntil := some 10 }
      { firstSession with attempts := 1 } 10 :=
    ⟨rfl, rfl, rfl, rfl, rfl, rfl, by norm_num⟩
  have hsettle : settle { firstSession with attempts := 1 }
      { kind := .transientNotAccepted } 0 (some 1) = .ok (.pending, 5) := by
    have hdue : (0 : ℚ) + max (backoffOf 1 * 1) ((0 : Nat) : ℚ) = 5 := by
      norm_num [backoffOf, backoff]
    rw [settle_delays rfl (by norm_num) (show (1 : ℕ) < 128 by decide)]
    · show Except.ok (State.pending, (0 : ℚ) + max (backoffOf 1 * 1) ((0 : Nat) : ℚ)) = _
      rw [hdue]
    · show (0 : ℚ) + max (backoffOf 1 * 1) ((0 : Nat) : ℚ) + 5 < 0 + 86400
      rw [hdue]
      norm_num
  have hfinish : finish attempted firstAttempt { kind := .transientNotAccepted } 0 (some 1) =
      .ok (single delayedDelivery delayedSession, .pending) := finish_held hheld hsettle
  rw [system.run_append]
  exact stands_finished (stands_attempted h) rfl hfinish

/-- The incident is closed, and its recovery enqueued. -/
def resolvedIncident : Incidents.Tables :=
  ⟨[closed], some "2026-01-01T00:00:00Z", [⟨1, "incident-1", loud "down"⟩, ⟨2, "incident-1", closed⟩]⟩

def recoveryDraw : Draw := ⟨"delivery-2", "session-2", 0⟩

def recoveryDelivery : Delivery := queued resolvedIncident closed destinationRow recoveryDraw

def recoverySession : Session := queuedSession operator recoveryDraw

/-- The delayed delivery and another one. -/
def both (d : Delivery) (b : Session) (hd : d.deliveryId = "delivery-2")
    (hb : b.sessionId = "session-2") : Tables :=
  { configured with
    receipts := [("alert://on-call", 1), ("alert://on-call", 2)]
    deliveries := ⟨[delayedDelivery, d], by
      show ["delivery-1", d.deliveryId].Nodup
      rw [hd]
      decide⟩
    sessions := ⟨[delayedSession, b], by
      show ["session-1", b.sessionId].Nodup
      rw [hb]
      decide⟩ }

theorem write_resolved : oneIncident.write (.resolveIncident "2026-01-01T00:00:02Z" "cause-1" "up") =
    resolvedIncident := by
  decide +kernel

theorem fits_resolved : Fits resolvedIncident closed := by
  have hepisode : episodeOf resolvedIncident closed = 1 := rfl
  have hphase : phaseOf closed = .recovery := rfl
  rw [Fits, hepisode, hphase, payload_eq]
  decide +kernel

theorem enqueueCurrent_resolved : enqueueCurrent resolvedIncident
    (single delayedDelivery delayedSession) closed destinationRow operator recoveryDraw =
      .ok { both recoveryDelivery recoverySession rfl rfl with
        receipts := [("alert://on-call", 1)] } := by
  have hfits := fits_resolved
  have hphase : phaseOf closed = .recovery := rfl
  rw [Fits] at hfits
  simp only [enqueueCurrent]
  rw [if_neg (by rw [hphase]; decide), if_neg (by rw [hphase]; simp), if_neg (by decide),
    if_neg (by decide), if_neg (by omega)]
  rfl

/-- The call that enqueues it. -/
def recovering : Enqueuing := ⟨permissive, { permissive with draws := fun _ => recoveryDraw }⟩

theorem stands_recovering {x : Except Exn Reply}
    (h : Stands w resolvedIncident (single delayedDelivery delayedSession) 0 (.done x)) :
    ∃ y, Stands (system.run w (recovering.inputs 0 "alert://on-call" 1)) resolvedIncident
      (both recoveryDelivery recoverySession rfl rfl) 0 (.done y) := by
  have hcommit : ∃ n pending, reconcileOwnerTransitions resolvedIncident
      (single delayedDelivery delayedSession) "alert://on-call" 1 operator recovering.commit.draws =
        .ok (both recoveryDelivery recoverySession rfl rfl, n, pending) := by
    have hgroups : pendingGroups resolvedIncident (single delayedDelivery delayedSession)
        "alert://on-call" 1 = [(2, closed)] := by
      have hleft : unreceipted resolvedIncident (single delayedDelivery delayedSession)
          "alert://on-call" = [⟨2, "incident-1", closed⟩] := by
        decide +kernel
      rw [pendingGroups, hleft]
      show List.take 1 (List.mergeSort [(2, closed)] _) = _
      rw [List.mergeSort_singleton]
      rfl
    have hfind : (single delayedDelivery delayedSession).destinations.find? "alert://on-call" =
        some destinationRow := rfl
    have hdraw : recovering.commit.draws 0 = recoveryDraw := rfl
    have hcap : ¬ 200000 < (single delayedDelivery delayedSession).receipts.length + 1 := by decide
    simp only [reconcileOwnerTransitions, hfind, if_neg hcap, hgroups, enqueueGroups, hdraw,
      enqueueCurrent_resolved]
    exact ⟨_, _, rfl⟩
  obtain ⟨n, pending, hcommit⟩ := hcommit
  exact ⟨_, stands_enqueued h (by decide) (authorize_again rfl) hcommit⟩

theorem dispatchable_recovery : Dispatchable (both recoveryDelivery recoverySession rfl rfl)
    recoveryDelivery recoverySession 1 where
  destinations := rfl
  calm :=
    { leased := fun x hx hstate => by
        rcases List.mem_pair.mp hx with rfl | rfl <;> cases hstate
      funded := fun x _ _ b hb _ => by
        rcases List.mem_pair.mp hb with rfl | rfl
        · exact ⟨show (1 : ℚ) < 0 + 86400 by norm_num, show 1 < 128 by decide⟩
        · exact ⟨show (1 : ℚ) < 0 + 86400 by norm_num, show 0 < 128 by decide⟩
      open' := fun x hx => by
        rcases List.mem_pair.mp hx with rfl | rfl
        · exact ⟨show State.pending ≠ .exhausted by decide, show State.pending ≠ .unknown by decide⟩
        · exact ⟨show State.pending ≠ .exhausted by decide, show State.pending ≠ .unknown by decide⟩ }
  idle x hx := by
    rcases List.mem_pair.mp hx with rfl | rfl
    · exact show State.pending ≠ .inFlight by decide
    · exact show State.pending ≠ .inFlight by decide
  only := by
    have hnot : ¬ eligible "alert://on-call" 1 delayedDelivery = true := by
      simp only [eligible, Bool.and_eq_true, decide_eq_true_eq]
      rintro ⟨-, hdue⟩
      have hlate : (5 : ℚ) ≤ 1 := hdue
      norm_num at hlate
    have hready : eligible "alert://on-call" 1 recoveryDelivery = true := by
      simp only [eligible, Bool.and_eq_true, decide_eq_true_eq]
      exact ⟨⟨rfl, rfl⟩, show (0 : ℚ) ≤ 1 by norm_num⟩
    show [delayedDelivery, recoveryDelivery].filter _ = _
    rw [List.filter_cons_of_neg hnot, List.filter_cons_of_pos hready, List.filter_nil]
  session := rfl

/-- The provider takes the recovery. -/
def accepted : Sending :=
  ⟨permissive,
    { permissive with answer := .outcome (.str "ACCEPTED") (.str "provider://1") (.int 0) },
    { permissive with now := 1 }, permissive⟩

def acceptedDelivery : Delivery :=
  { recoveryDelivery with
    state := .accepted, version := 2, totalAttempts := 1, nextDue := 1
    receiptRef := some "provider://1" }

def acceptedSession : Session := { recoverySession with attempts := 1, state := .accepted }

def recoveryAttempt : Claim := attemptOf destinationRow recoveryDelivery "audit-1"

theorem stands_recovery {x : Except Exn Reply}
    (h : Stands w resolvedIncident (both recoveryDelivery recoverySession rfl rfl) 0 (.done x)) :
    Stands (system.run w ((dispatching 1 "delivery-2").inputs 0 "alert://on-call"
      (some "transport://pager"))) resolvedIncident
        (claim (both recoveryDelivery recoverySession rfl rfl) recoveryDelivery "audit-1" (1 + 10)) 0
        (.holding recoveryAttempt) := by
  have hlong : (1 : ℚ) + 10 ≤ recoverySession.deadline := by
    show (1 : ℚ) + 10 ≤ 0 + 86400
    norm_num
  have hid : recoveryDelivery.deliveryId = "delivery-2" := rfl
  rw [← hid]
  exact stands_dispatched dispatchable_recovery rfl hlong h

theorem stands_accepted
    (h : Stands w resolvedIncident
      (claim (both recoveryDelivery recoverySession rfl rfl) recoveryDelivery "audit-1" (1 + 10)) 0
        (.holding recoveryAttempt)) :
    Stands (system.run w (accepted.inputs 0)) resolvedIncident
      (both acceptedDelivery acceptedSession rfl rfl) 0 (reply (.finished .accepted)) := by
  have hheld : Held
      (claim (both recoveryDelivery recoverySession rfl rfl) recoveryDelivery "audit-1" (1 + 10))
      recoveryAttempt 1
      { recoveryDelivery with
        state := .inFlight, version := 1, totalAttempts := 1, claimToken := some "audit-1"
        leaseUntil := some (1 + 10) }
      { recoverySession with attempts := 1 } (1 + 10) :=
    ⟨rfl, rfl, rfl, rfl, rfl, rfl, by norm_num⟩
  have hfinish : finish
      (claim (both recoveryDelivery recoverySession rfl rfl) recoveryDelivery "audit-1" (1 + 10))
      recoveryAttempt ⟨.accepted, "provider://1", 0⟩ 1 none =
        .ok (both acceptedDelivery acceptedSession rfl rfl, .accepted) := finish_held hheld rfl
  exact stands_finished h rfl hfinish

theorem dispatchable_delayed : Dispatchable (both acceptedDelivery acceptedSession rfl rfl)
    delayedDelivery delayedSession 5 where
  destinations := rfl
  calm :=
    { leased := fun x hx hstate => by
        rcases List.mem_pair.mp hx with rfl | rfl <;> cases hstate
      funded := fun x _ _ b hb _ => by
        rcases List.mem_pair.mp hb with rfl | rfl
        · exact ⟨show (5 : ℚ) < 0 + 86400 by norm_num, show 1 < 128 by decide⟩
        · exact ⟨show (5 : ℚ) < 0 + 86400 by norm_num, show 1 < 128 by decide⟩
      open' := fun x hx => by
        rcases List.mem_pair.mp hx with rfl | rfl
        · exact ⟨show State.pending ≠ .exhausted by decide, show State.pending ≠ .unknown by decide⟩
        · exact ⟨show State.accepted ≠ .exhausted by decide, show State.accepted ≠ .unknown by decide⟩ }
  idle x hx := by
    rcases List.mem_pair.mp hx with rfl | rfl
    · exact show State.pending ≠ .inFlight by decide
    · exact show State.accepted ≠ .inFlight by decide
  only := by
    have hready : eligible "alert://on-call" 5 delayedDelivery = true := by
      simp only [eligible, Bool.and_eq_true, decide_eq_true_eq]
      exact ⟨⟨rfl, rfl⟩, show (5 : ℚ) ≤ 5 by norm_num⟩
    have hnot : ¬ eligible "alert://on-call" 5 acceptedDelivery = true := by
      simp only [eligible, Bool.and_eq_true, decide_eq_true_eq]
      rintro ⟨⟨-, hpending⟩, -⟩
      cases hpending
    show [delayedDelivery, acceptedDelivery].filter _ = _
    rw [List.filter_cons_of_pos hready, List.filter_cons_of_neg hnot, List.filter_nil]
  session := rfl

/-- The run up to the send of the recovery, and from there to that of the problem. -/
def beforeRecovery : List Input :=
  oneOutage ++ ((dispatching 0 "delivery-1").inputs 0 "alert://on-call" (some "transport://pager") ++
    refused.inputs 0) ++
  [.incident (.resolveIncident "2026-01-01T00:00:02Z" "cause-1" "up")] ++
  recovering.inputs 0 "alert://on-call" 1 ++
  (dispatching 1 "delivery-2").inputs 0 "alert://on-call" (some "transport://pager")

def beforeProblem : List Input :=
  beforeRecovery ++ accepted.inputs 0 ++
    (dispatching 5 "delivery-1").inputs 0 "alert://on-call" (some "transport://pager")

theorem stands_beforeRecovery : Stands (system.run (World.initial started) beforeRecovery)
    resolvedIncident
    (claim (both recoveryDelivery recoverySession rfl rfl) recoveryDelivery "audit-1" (1 + 10)) 0
      (.holding recoveryAttempt) := by
  obtain ⟨x, hnotified⟩ := stands_oneOutage
  have hrefused := stands_refused hnotified
  rw [← system.run_append] at hrefused
  have hresolved := hrefused.write (.resolveIncident "2026-01-01T00:00:02Z" "cause-1" "up")
  rw [write_resolved, ← system.run_snoc] at hresolved
  obtain ⟨y, hrecovering⟩ := stands_recovering hresolved
  rw [← system.run_append] at hrecovering
  have hrecovery := stands_recovery hrecovering
  rwa [← system.run_append] at hrecovery

theorem stands_beforeProblem : ∃ t, t.keyOf "delivery-1" = some firstDelivery.key ∧
    Stands (system.run (World.initial started) beforeProblem) resolvedIncident t 0
      (.holding (attemptOf destinationRow delayedDelivery "audit-1")) := by
  have haccepted := stands_accepted stands_beforeRecovery
  rw [← system.run_append] at haccepted
  have hdispatched := stands_dispatched dispatchable_delayed rfl
    (show (5 : ℚ) + 10 ≤ 0 + 86400 by norm_num) haccepted
  have hid : delayedDelivery.deliveryId = "delivery-1" := rfl
  rw [hid, ← system.run_append] at hdispatched
  exact ⟨_, rfl, hdispatched⟩

/-- The steps between the two sends. -/
def betweenSends : List Input :=
  (accepted.inputs 0).tail ++
    (dispatching 5 "delivery-1").inputs 0 "alert://on-call" (some "transport://pager")

theorem beforeProblem_eq : beforeProblem = beforeRecovery ++ .step 0 permissive :: betweenSends := by
  rw [beforeProblem, List.append_assoc]
  rfl

theorem kept_beforeProblem : ∀ d, .renewed d ∉ system.trace (World.initial started)
    (beforeRecovery ++ .step 0 permissive :: betweenSends ++ [.step 0 permissive]) := by
  rw [← beforeProblem_eq]
  refine (no_renewal fun j delivery v reason hmem => ?_).2
  simp [beforeProblem, beforeRecovery, oneOutage, Dispatching.inputs, Sending.inputs,
    Enqueuing.inputs] at hmem

theorem recovery_overtakes_beforeProblem :
    ∃ (a : List Input) (look : Oracle) (b : List Input) (transportRef : Option String)
      (row : Delivery), beforeRecovery = a ++ .step 0 look :: b ∧
      (system.run (World.initial started) a).workers 0 = .sendPreview "alert://on-call" transportRef ∧
      preview (system.run (World.initial started) a).tables "alert://on-call" look.now = some row ∧
      row.deliveryId = recoveryAttempt.deliveryId ∧
      HeldBack (system.run (World.initial started) a) (system.trace (World.initial started) a)
        (attemptOf destinationRow delayedDelivery "audit-1") look.now := by
  have hrecovery := stands_beforeRecovery
  obtain ⟨t, hkey, hproblem⟩ := stands_beforeProblem
  rw [beforeProblem_eq] at hproblem
  exact recovery_overtakes_no_due_problem started _ kept_beforeProblem beforeRecovery 0 permissive
    betweenSends 0 permissive [] recoveryAttempt (attemptOf destinationRow delayedDelivery "audit-1")
    "incident-1" "alert://on-call" 1 .critical rfl hrecovery.worker (by decide)
    (by rw [hrecovery.tables]; rfl) hproblem.worker (by rw [hproblem.tables]; exact hkey) (by decide)

/-- The recovery is sent, and after it the problem. -/
theorem problem_after_recovery :
    ¬ ∀ (incidents : Incidents.Tables) (is : List Input),
      (∀ d, .renewed d ∉ system.trace (World.initial incidents) is) →
      ∀ (pre : List Input) (j : Nat) (o : Oracle) (mid : List Input) (k : Nat) (o' : Oracle)
        (post : List Input) (c c' : Claim) (incident destination : String) (episode : Nat)
        (phase : Phase), is = pre ++ .step j o :: mid ++ .step k o' :: post →
        (system.run (World.initial incidents) pre).workers j = .holding c → c.deliveryId ≠ "" →
        (system.run (World.initial incidents) pre).tables.keyOf c.deliveryId =
          some (incident, destination, episode, .recovery) →
        (system.run (World.initial incidents) (pre ++ .step j o :: mid)).workers k = .holding c' →
        (system.run (World.initial incidents) (pre ++ .step j o :: mid)).tables.keyOf c'.deliveryId =
          some (incident, destination, episode, phase) → phase = .recovery := by
  intro h
  have hrecovery := stands_beforeRecovery
  obtain ⟨t, hkey, hproblem⟩ := stands_beforeProblem
  rw [beforeProblem_eq] at hproblem
  have hphase := h started _ kept_beforeProblem beforeRecovery 0 permissive betweenSends 0 permissive []
    recoveryAttempt (attemptOf destinationRow delayedDelivery "audit-1") "incident-1" "alert://on-call"
    1 .critical rfl hrecovery.worker (by decide) (by rw [hrecovery.tables]; rfl) hproblem.worker
    (by rw [hproblem.tables]; exact hkey)
  cases hphase

end OufGateway.Outbox
