import Mathlib
import OufGateway.Lib.Table
import OufGateway.Lib.Trace
import OufGateway.Ref.Incidents
import OufGateway.Ref.Outbox
import OufGateway.Proofs.Lifecycle
import OufGateway.Proofs.Ledger
import OufGateway.Proofs.OutboxBooks
import OufGateway.Proofs.OutboxSteps
import OufGateway.Proofs.OutboxKeys
import OufGateway.Proofs.Reconcile

/-!
# Nothing is missed once nothing is pending

A reconciliation receipts the oldest transition of an incident but notifies its
current state, so the older transitions of one incident may be receipted long before
anyone looks at them again. What makes this complete is a fact about the latest one: once
it has a receipt, the notification of the current state is there (`Notified`). An
incident write appends a transition no receipt knows, which takes the premise away
for its own incident and changes nothing for the others; a new destination has no
receipts; a batch notifies every incident it receipts anything of. The other steps
leave keys, receipts and destinations alone.
-/

namespace OufGateway.Outbox

open Lib

variable {incidents incidents' : Incidents.Tables} {t t' : Tables}

structure Notified (incidents : Incidents.Tables) (t : Tables) : Prop where
  ledger : Incidents.Ledgered incidents
  keys : t.keys.Nodup
  receipts : t.receipts.Nodup
  known : ∀ r ∈ t.receipts, (∃ config, t.destinations.find? r.1 = some config) ∧
    ∃ x ∈ incidents.transitions, x.revision = r.2
  due : ∀ config ∈ t.destinations.rows, ∀ item ∈ incidents.incidents, ∀ x,
    Incidents.Latest incidents.transitions x → x.incidentId = item.incidentId →
      (config.destinationRef, x.revision) ∈ t.receipts → Due incidents config t.keys item

/-! ## Incident writes -/

theorem episodeOf_congr {item row : Incidents.Incident}
    (ht : incidents'.transitions = (incidents.append row).transitions)
    (hne : item.incidentId ≠ row.incidentId) : episodeOf incidents' item = episodeOf incidents item := by
  have hnone : [(⟨Incidents.maxRevision incidents.transitions + 1, row.incidentId, row⟩ :
      Incidents.Transition)].filter (·.incidentId = item.incidentId) = [] :=
    List.filter_eq_nil_iff.mpr fun x hx => by
      rw [List.mem_singleton.mp hx, decide_eq_true_eq]
      exact hne.symm
  have hown : incidents'.transitions.filter (·.incidentId = item.incidentId) =
      incidents.transitions.filter (·.incidentId = item.incidentId) := by
    rw [ht]
    show (incidents.transitions ++ [_]).filter _ = _
    rw [List.filter_append, hnone, List.append_nil]
  rw [episodeOf, episodeOf, hown]

theorem Due.congr {config : Destination} {item : Incidents.Incident} {keys : List Key}
    (h : Due incidents config keys item)
    (he : episodeOf incidents' item = episodeOf incidents item) :
    Due incidents' config keys item := by
  unfold Due dueKey at *
  rw [he]
  exact h

theorem notified_write (h : Notified incidents t) (w : Incidents.Write) :
    Notified (incidents.write w) t := by
  have hwrote := Incidents.write_wrote incidents w
  obtain ⟨hl, -⟩ := Incidents.ledgered_wrote hwrote h.ledger
  rcases Incidents.wrote_last hwrote h.ledger with heq | ⟨row, ht, hothers⟩
  · rw [heq]
    exact h
  · have hmem : ∀ x, x ∈ (incidents.write w).transitions ↔ x ∈ incidents.transitions ∨
        x = ⟨Incidents.maxRevision incidents.transitions + 1, row.incidentId, row⟩ := by
      intro x
      rw [ht]
      exact Incidents.mem_append
    refine ⟨hl, h.keys, h.receipts, fun r hr => ?_, fun config hc item hi x hx hid hrec => ?_⟩
    · obtain ⟨hconf, x, hx, hrev⟩ := h.known r hr
      exact ⟨hconf, x, (hmem x).mpr (Or.inl hx), hrev⟩
    · obtain ⟨-, y, hy, hrev⟩ := h.known _ hrec
      have hold : x.revision ≤ Incidents.maxRevision incidents.transitions :=
        hrev.symm.le.trans (Incidents.revision_le_max hy)
      -- The new transition is above every receipt, so it is not of this incident.
      have hne : item.incidentId ≠ row.incidentId := by
        intro heq
        have hnew := hx.2 _ ((hmem _).mpr (Or.inr rfl)) (heq.symm.trans hid.symm)
        exact absurd hnew (by show ¬ _ + 1 ≤ _; omega)
      have hx' : Incidents.Latest incidents.transitions x := by
        refine ⟨((hmem x).mp hx.1).resolve_right fun heq => ?_, fun z hz hzid =>
          hx.2 z ((hmem z).mpr (Or.inl hz)) hzid⟩
        rw [heq] at hid
        exact hne hid.symm
      exact (h.due config hc item (hothers item hi hne) x hx' hid hrec).congr (episodeOf_congr ht hne)

/-! ## The outbox's own steps -/

theorem notified_same (h : Notified incidents t) (hs : Same t t') : Notified incidents t' := by
  refine ⟨h.ledger, hs.keys ▸ h.keys, hs.receipts ▸ h.receipts, fun r hr => ?_,
    fun config hc item hi x hx hid hrec => ?_⟩
  · rw [hs.destinations]
    exact h.known r (hs.receipts ▸ hr)
  · rw [hs.keys]
    exact h.due config (hs.destinations ▸ hc) item hi x hx hid (hs.receipts ▸ hrec)

theorem notified_configure {d : AlertDestination} {grant : Grant} {uuid : String} {now : ℚ}
    (h : Notified incidents t) (hok : configure t d grant uuid now = .ok t') :
    Notified incidents t' := by
  cases configure_spec hok with
  | again => exact h
  | first hnone hroom hrow haudit =>
      refine ⟨h.ledger, h.keys, h.receipts, fun r hr => ?_, fun config hc item hi x hx hid hrec => ?_⟩
      · obtain ⟨⟨config, hconf⟩, hx⟩ := h.known r hr
        exact ⟨⟨config, Table.find?_insert?_old hrow hconf⟩, hx⟩
      · rw [Table.rows_insert? hrow, List.mem_append, List.mem_singleton] at hc
        rcases hc with hc | rfl
        · exact h.due config hc item hi x hx hid hrec
        · -- A destination that was not there has no receipts.
          obtain ⟨⟨config, hconf⟩, -⟩ := h.known _ hrec
          exact absurd (hnone.symm.trans hconf) (by simp)

theorem notified_batch {config : Destination} {limit : Nat} (h : Notified incidents t)
    (hfind : t.destinations.find? config.destinationRef = some config)
    (hb : Batch incidents config (pendingGroups incidents t config.destinationRef limit) t t') :
    Notified incidents t' := by
  have hids := pendingGroups_ids t config.destinationRef limit h.ledger.toKeyed
  have hmem : ∀ g ∈ pendingGroups incidents t config.destinationRef limit,
      g.2 ∈ incidents.incidents ∧ ∃ x ∈ unreceipted incidents t config.destinationRef,
        x.incidentId = g.2.incidentId ∧ x.revision = g.1 := fun g hg => mem_pendingGroups hg
  have hreceipt : ∀ r, r ∈ t'.receipts ↔ r ∈ t.receipts ∨
      ∃ g ∈ pendingGroups incidents t config.destinationRef limit,
        (config.destinationRef, g.1) = r := by
    intro r
    rw [hb.receipts, List.mem_append, List.mem_map]
  refine ⟨h.ledger, hb.nodup h.keys, ?_, fun r hr => ?_, fun other hc item hi x hx hid hrec => ?_⟩
  · rw [hb.receipts]
    refine List.nodup_append.mpr ⟨h.receipts, ?_, fun r hr r' hr' heq => ?_⟩
    · have hrevs := pendingGroups_revisions t config.destinationRef limit h.ledger
      refine List.Nodup.map_on (fun g hg g' hg' heq => ?_) hrevs.of_map
      exact List.inj_on_of_nodup_map hrevs hg hg' (Prod.ext_iff.mp heq).2
    · obtain ⟨g, hg, rfl⟩ := List.mem_map.mp hr'
      obtain ⟨-, x, hx, -, hrev⟩ := hmem g hg
      refine (mem_unreceipted.mp hx).2 ?_
      rw [hrev, ← heq]
      exact hr
  · rw [hb.destinations]
    rcases (hreceipt r).mp hr with hr | ⟨g, hg, rfl⟩
    · exact h.known r hr
    · obtain ⟨-, x, hx, -, hrev⟩ := hmem g hg
      exact ⟨⟨config, hfind⟩, x, (mem_unreceipted.mp hx).1, hrev⟩
  · rw [hb.destinations] at hc
    by_cases hgroup : other.destinationRef = config.destinationRef ∧
        ∃ g ∈ pendingGroups incidents t config.destinationRef limit,
          g.2.incidentId = item.incidentId
    · -- The batch notified this incident as it is.
      obtain ⟨hdest, g, hg, hgid⟩ := hgroup
      have hother : other = config := by
        have hfound := Table.find?_of_mem hc
        rw [hdest, hfind] at hfound
        exact (Option.some.inj hfound).symm
      have hitem : g.2 = item :=
        List.inj_on_of_nodup_map h.ledger.ids (hmem g hg).1 hi hgid
      rw [hother, ← hitem]
      exact hb.due hids g hg
    · -- The receipt is an old one, and no new notification is about this incident here.
      rw [not_and, not_exists] at hgroup
      have hold : (other.destinationRef, x.revision) ∈ t.receipts := by
        rcases (hreceipt _).mp hrec with hold | ⟨g, hg, heq⟩
        · exact hold
        · obtain ⟨hdest, hrev⟩ := Prod.ext_iff.mp heq
          obtain ⟨-, y, hy, hyid, hyrev⟩ := hmem g hg
          have hxy : y = x := ordered_inj h.ledger.ordered y (mem_unreceipted.mp hy).1 x hx.1
            (hyrev.trans hrev)
          refine absurd ⟨hg, ?_⟩ (hgroup hdest.symm g)
          rw [← hyid, hxy]
          exact hid
      refine (h.due other hc item hi x hx hid hold).mono hb.kept fun k hk hkid hkdest => ?_
      refine (hb.own k hk).resolve_right ?_
      intro hown
      obtain ⟨g, hg, hgid, hgdest⟩ := hown
      exact hgroup (hkdest.symm.trans hgdest) g ⟨hg, hgid.symm.trans hkid⟩

/-! ## Runs -/

theorem notified_transact {α : Type} {x : Except Exn (Tables × α)} {k : α → Worker × List Event}
    (h : Notified incidents t) (hx : ∀ t' a, x = .ok (t', a) → Notified incidents t') :
    Notified incidents (transact t x k).1 := by
  unfold transact
  split
  · next t' a => exact hx t' a rfl
  · exact h

theorem notified_advance (h : Notified incidents t) (o : Oracle) (w : Worker) :
    Notified incidents (advance incidents t o w).1 := by
  by_cases hc : ∃ d g, w = .configureCommit d g
  · obtain ⟨d, g, rfl⟩ := hc
    exact notified_transact h fun t' _ hok => notified_configure h (map_unit_eq_ok hok)
  · by_cases he : ∃ d l g, w = .enqueueCommit d l g
    · obtain ⟨d, l, g, rfl⟩ := he
      refine notified_transact h fun t' r hok => ?_
      obtain ⟨config, hfind, hb, -, -⟩ := reconcile_batch hok
      obtain rfl : config.destinationRef = d := Table.find?_key hfind
      exact notified_batch h hfind hb
    · exact notified_same h (advance_same incidents o (fun d g heq => hc ⟨d, g, heq⟩)
        fun d l g heq => he ⟨d, l, g, heq⟩)

theorem notified_next {w : World} (h : Notified w.incidents w.tables) (i : Input) :
    Notified (w.next i).1.incidents (w.next i).1.tables := by
  cases i with
  | incident write => exact notified_write h write
  | call j c =>
      simp only [World.next]
      split <;> exact h
  | step j o => exact notified_advance h o (w.workers j)
  | crash j => exact h

theorem notified_initial (h : Incidents.Ledgered incidents) :
    Notified (World.initial incidents).incidents (World.initial incidents).tables where
  ledger := h
  keys := List.nodup_nil
  receipts := List.nodup_nil
  known _ hr := absurd hr List.not_mem_nil
  due _ hc := absurd hc List.not_mem_nil

theorem notified_from {w : World} (h : Notified w.incidents w.tables) (is : List Input) :
    Notified (system.run w is).incidents (system.run w is).tables :=
  system.invariant (P := fun w _ => Notified w.incidents w.tables) h
    (fun _ _ i h => notified_next h i) is

theorem notified_run (v : Incidents.Inventory) (start : String) (is : List Input) :
    Notified (system.run (World.initial (Incidents.startHistory v.tables start)) is).incidents
      (system.run (World.initial (Incidents.startHistory v.tables start)) is).tables :=
  notified_from (notified_initial (Incidents.ledgered_start v start).1) is

/-! ## Once nothing is pending -/

/-- What a call for a destination leaves that answers that nothing is pending. -/
structure Complete (incidents : Incidents.Tables) (t : Tables) (config : Destination) : Prop where
  unresolved : ∀ item ∈ incidents.incidents, item.lifecycleState ≠ .resolved →
    rankOf config.settings.minimumSeverity ≤ item.severity.rank →
      t.keys.count
        (item.incidentId, config.destinationRef, episodeOf incidents item, phaseOf item) = 1
  resolved : ∀ item ∈ incidents.incidents, item.lifecycleState = .resolved →
    (∃ phase, phase ≠ .recovery ∧
      (item.incidentId, config.destinationRef, episodeOf incidents item, phase) ∈ t.keys) →
      t.keys.count
        (item.incidentId, config.destinationRef, episodeOf incidents item, .recovery) = 1
  receipts : ∀ x ∈ incidents.transitions,
    t.receipts.count (config.destinationRef, x.revision) = 1

theorem complete_of_receipted {config : Destination} (h : Notified incidents t)
    (hfind : t.destinations.find? config.destinationRef = some config)
    (hnone : unreceipted incidents t config.destinationRef = []) :
    Complete incidents t config := by
  have hall : ∀ x ∈ incidents.transitions, (config.destinationRef, x.revision) ∈ t.receipts := by
    intro x hx
    by_contra hn
    have hmem := mem_unreceipted.mpr ⟨hx, hn⟩
    rw [hnone] at hmem
    cases hmem
  have hdue : ∀ item ∈ incidents.incidents, Due incidents config t.keys item := by
    intro item hi
    obtain ⟨x, hx, hid, -⟩ := h.ledger.current item hi
    exact h.due config (Table.mem_of_find? hfind) item hi x hx hid (hall x hx.1)
  refine ⟨fun item hi hopen hrank => ?_, fun item hi hres hother => ?_, fun x hx => ?_⟩
  · exact List.count_eq_one_of_mem h.keys ((hdue item hi).1 hopen hrank)
  · have hmem := (hdue item hi).2 hres hother
    rw [dueKey, phaseOf_recovery.mpr hres] at hmem
    exact List.count_eq_one_of_mem h.keys hmem
  · exact List.count_eq_one_of_mem h.receipts (hall x hx)

/-- A step of a worker ends its reconciliation for a destination with an answer. -/
def Returns (w : World) (i : Nat) (o : Oracle) (destination : String) (n : Nat) (pending : Bool) :
    Prop :=
  ∃ limit grant, w.workers i = .enqueueCommit destination limit grant ∧
    (system.step w (.step i o)).workers i = .done (.ok (.enqueued n pending))

/-- Such a step commits the transaction. -/
theorem Returns.committed {w : World} {i n : Nat} {o : Oracle} {destination : String}
    {pending : Bool} (h : Returns w i o destination n pending) :
    ∃ limit grant, reconcileOwnerTransitions w.incidents w.tables destination limit grant o.draws =
      .ok ((system.step w (.step i o)).tables, n, pending) := by
  obtain ⟨limit, grant, hcommit, hdone⟩ := h
  refine ⟨limit, grant, ?_⟩
  have hworker : (advance w.incidents w.tables o (w.workers i)).2.1 =
      .done (.ok (.enqueued n pending)) := by
    rw [← hdone]
    exact (Function.update_self (f := w.workers) ..).symm
  show _ = Except.ok ((advance w.incidents w.tables o (w.workers i)).1, n, pending)
  rw [hcommit] at hworker ⊢
  simp only [advance, transact] at hworker ⊢
  split at hworker
  · next t' r hok =>
    simp only [reply, Worker.done.injEq, Except.ok.injEq, Reply.enqueued.injEq] at hworker
    obtain ⟨rfl, rfl⟩ := hworker
    exact hok
  · cases hworker

/-- In every run of incident writes, calls of every kind and crashes, over any rows the
ledger started with: a reconciliation that commits takes as many transitions off the
unreceipted ones as it says it processed, and where it says that nothing is pending,
every incident as it then is has its notification exactly once and every transition
its receipt. -/
theorem outbox_complete (v : Incidents.Inventory) (start : String) (is : List Input) (i : Nat)
    (o : Oracle) (destination : String) :
    let w := system.run (World.initial (Incidents.startHistory v.tables start)) is
    let w' := system.step w (.step i o)
    (∀ n pending, Returns w i o destination n pending →
      (unreceipted w'.incidents w'.tables destination).length + n =
        (unreceipted w.incidents w.tables destination).length) ∧
    ∀ n, Returns w i o destination n false →
      ∃ config, w'.tables.destinations.find? destination = some config ∧
        Complete w'.incidents w'.tables config := by
  intro w w'
  have hw : Notified w.incidents w.tables := notified_run v start is
  have hw' : Notified w.incidents w'.tables := notified_next hw (.step i o)
  refine ⟨fun n pending h => ?_, fun n h => ?_⟩
  · obtain ⟨limit, grant, hok⟩ := h.committed
    obtain ⟨config, hfind, hb, hn, -⟩ := reconcile_batch hok
    obtain rfl : config.destinationRef = destination := Table.find?_key hfind
    rw [hn]
    exact hb.unreceipted hw.ledger
  · obtain ⟨limit, grant, hok⟩ := h.committed
    obtain ⟨config, hfind, hb, -, hpending⟩ := reconcile_batch hok
    obtain rfl : config.destinationRef = destination := Table.find?_key hfind
    have hfind' : w'.tables.destinations.find? config.destinationRef = some config :=
      hb.destinations.symm ▸ hfind
    have hempty := hpending.symm
    rw [Bool.not_eq_false'] at hempty
    exact ⟨config, hfind', complete_of_receipted hw' hfind' (List.isEmpty_iff.mp hempty)⟩

end OufGateway.Outbox
