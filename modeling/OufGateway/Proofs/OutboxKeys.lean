import Mathlib
import OufGateway.Lib.Table
import OufGateway.Ref.Outbox
import OufGateway.Proofs.OutboxBooks
import OufGateway.Proofs.OutboxSteps

/-!
# What dispatch leaves alone

A delivery is one notification of one phase of one episode of an incident, to one
destination; those four columns are its key, and no dispatch, renewal or proof
changes them. Neither do these transactions touch a destination or a receipt. So for
what has been notified only three steps of the system count: an incident write, the
commit of a new destination and the commit of a reconciliation.
-/

namespace OufGateway.Outbox

open Lib

/-- `unique(incident_id,destination_ref,episode,phase)`. -/
abbrev Key := String × String × Nat × Phase

def Delivery.key (d : Delivery) : Key := (d.incidentId, d.destinationRef, d.episode, d.phase)

def Tables.keys (t : Tables) : List Key := t.deliveries.rows.map Delivery.key

/-- The destinations, the receipts and the keys of the deliveries are the same. -/
structure Same (t t' : Tables) : Prop where
  destinations : t'.destinations = t.destinations
  receipts : t'.receipts = t.receipts
  keys : t'.keys = t.keys

variable {t t' t'' : Tables}

theorem Same.refl (t : Tables) : Same t t := ⟨rfl, rfl, rfl⟩

theorem Same.trans (h : Same t t') (h' : Same t' t'') : Same t t'' :=
  ⟨h'.destinations.trans h.destinations, h'.receipts.trans h.receipts, h'.keys.trans h.keys⟩

/-- An update of the deliveries that leaves their keys. -/
theorem same_update {p : Delivery → Bool} {f : Delivery → Delivery}
    (hu : t'.deliveries.rows = t.deliveries.rows.map fun d => if p d then f d else d)
    (h : ∀ d, (f d).key = d.key) (hd : t'.destinations = t.destinations)
    (hr : t'.receipts = t.receipts) : Same t t' := by
  refine ⟨hd, hr, ?_⟩
  rw [Tables.keys, hu, List.map_map]
  refine List.map_congr_left fun d _ => ?_
  simp only [Function.comp]
  split
  · exact h d
  · rfl

theorem same_expireLeases (now : ℚ) : Same t (expireLeases t now) :=
  same_update rfl (fun _ => rfl) rfl rfl

theorem same_exhaustBudgets (now : ℚ) : Same t (exhaustBudgets t now) :=
  same_update rfl (fun _ => rfl) rfl rfl

theorem same_sweep (now : ℚ) : Same t (sweep t now) := by
  have h : Same t (exhaustBudgets (expireLeases t now) now) :=
    (same_expireLeases now).trans (same_exhaustBudgets now)
  exact ⟨h.destinations, h.receipts, h.keys⟩

theorem same_exhaust (d : String) : Same t (exhaust t d) := same_update rfl (fun _ => rfl) rfl rfl

theorem same_claim (d : Delivery) (token : String) (lease : ℚ) : Same t (claim t d token lease) :=
  same_update rfl (fun _ => rfl) rfl rfl

theorem same_writeOutcome (d : Delivery) (s : State) (due : ℚ) (receipt : String) :
    Same t (writeOutcome t d s due receipt) := same_update rfl (fun _ => rfl) rfl rfl

theorem same_writeProof (d : Delivery) (s : State) (due : ℚ) (receipt : Option String) :
    Same t (writeProof t d s due receipt) := same_update rfl (fun _ => rfl) rfl rfl

theorem same_allow (d : String) : Same t (allow t d) := same_update rfl (fun _ => rfl) rfl rfl

theorem same_openSession {d : Delivery} {b : Session} (h : openSession t d b = .ok t') :
    Same t t' := by
  obtain ⟨sessions, -, rfl⟩ := openSession_ok h
  exact same_update rfl (fun _ => rfl) rfl rfl

/-! ## Steps of a worker -/

theorem same_transact {α : Type} {x : Except Exn (Tables × α)} {k : α → Worker × List Event}
    (h : ∀ t' a, x = .ok (t', a) → Same t t') : Same t (transact t x k).1 := by
  unfold transact
  split
  · next t' a => exact h t' a rfl
  · exact .refl t

/-- Every step but two leaves the destinations, the receipts and the keys. -/
theorem advance_same (incidents : Incidents.Tables) (o : Oracle) {w : Worker}
    (hc : ∀ d g, w ≠ .configureCommit d g) (he : ∀ d l g, w ≠ .enqueueCommit d l g) :
    Same t (advance incidents t o w).1 := by
  unfold advance
  split
  · next d g => exact absurd rfl (hc d g)
  · next d l g => exact absurd rfl (he d l g)
  · refine same_transact fun t' r hok => ?_
    rcases claimNext_ok hok with ⟨rfl, -⟩ | ⟨d, row, -, -, rfl, -⟩ |
      ⟨row, budget, c, lease, -, -, -, -, -, rfl, -⟩
    · exact same_sweep _
    · exact (same_sweep _).trans (same_exhaust d)
    · exact (same_sweep _).trans (same_claim row _ lease)
  · exact .refl t
  · refine same_transact fun t' s hok => ?_
    obtain ⟨row, lease, due, -, -, -, -, -, -, rfl⟩ := finish_ok hok
    exact same_writeOutcome row s due _
  · refine same_transact fun t' _ hok => ?_
    obtain ⟨row, b, -, -, -, -, -, hopen⟩ := renew_ok (map_unit_eq_ok hok)
    exact same_openSession hopen
  · refine same_transact fun t' n hok => ?_
    obtain ⟨row, -, -, -, rfl, -⟩ := takeAllowance_ok hok
    exact same_allow _
  · exact .refl t
  · refine same_transact fun t' s hok => ?_
    obtain ⟨row, receipt, -, -, -, rfl⟩ := commitProof_ok hok
    exact same_writeProof row s _ receipt
  · exact .refl t

end OufGateway.Outbox
