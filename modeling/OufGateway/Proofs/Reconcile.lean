import Mathlib
import OufGateway.Lib.Table
import OufGateway.Ref.Outbox
import OufGateway.Proofs.Ledger
import OufGateway.Proofs.OutboxBooks
import OufGateway.Proofs.OutboxSteps
import OufGateway.Proofs.OutboxKeys

/-!
# One reconciliation

A call goes through its groups one after the other. For each it notifies the
incident as it is now and receipts the oldest transition that has no receipt yet, so
after the call every incident of the batch is `Due`: the notification its current
state asks for exists. An incident outside the batch keeps the notifications it had.
The groups belong to different incidents and so to different transitions, which is why
the transitions without a receipt become fewer by exactly the number of groups.
-/

namespace OufGateway.Outbox

open Lib

variable {incidents : Incidents.Tables} {t t' : Tables} {config : Destination} {grant : Grant}
  {item : Incidents.Incident} {keys keys' : List Key}

/-- The key under which the current state of an incident is notified. -/
def dueKey (incidents : Incidents.Tables) (destination : String) (item : Incidents.Incident) : Key :=
  (item.incidentId, destination, episodeOf incidents item, phaseOf item)

/-- The notification the current state of an incident asks for is there. -/
def Due (incidents : Incidents.Tables) (config : Destination) (keys : List Key)
    (item : Incidents.Incident) : Prop :=
  (item.lifecycleState ≠ .resolved →
    rankOf config.settings.minimumSeverity ≤ item.severity.rank →
      dueKey incidents config.destinationRef item ∈ keys) ∧
  (item.lifecycleState = .resolved →
    (∃ phase, phase ≠ .recovery ∧
      (item.incidentId, config.destinationRef, episodeOf incidents item, phase) ∈ keys) →
        dueKey incidents config.destinationRef item ∈ keys)

/-- More notifications, but none of this incident. -/
theorem Due.mono (h : Due incidents config keys item) (hkept : ∀ k ∈ keys, k ∈ keys')
    (hown : ∀ k ∈ keys', k.1 = item.incidentId → k.2.1 = config.destinationRef → k ∈ keys) :
    Due incidents config keys' item := by
  refine ⟨fun hopen hrank => hkept _ (h.1 hopen hrank), fun hres ⟨phase, hne, hmem⟩ => ?_⟩
  exact hkept _ (h.2 hres ⟨phase, hne, hown _ hmem rfl rfl⟩)

/-! ## One incident -/

theorem same_iff {incident destination : String} {episode : Nat} {d : Delivery} :
    Delivery.same incident destination episode d = true ↔
      d.key = (incident, destination, episode, d.phase) := by
  simp [Delivery.same, Delivery.key, and_assoc]

theorem any_phase_iff {incident destination : String} {episode : Nat} {phase : Phase} :
    (t.deliveries.rows.any fun d =>
      Delivery.same incident destination episode d && d.phase = phase) = true ↔
      (incident, destination, episode, phase) ∈ t.keys := by
  rw [List.any_eq_true, Tables.keys, List.mem_map]
  constructor
  · intro h
    obtain ⟨d, hd, h⟩ := h
    rw [Bool.and_eq_true, same_iff, decide_eq_true_eq] at h
    exact ⟨d, hd, h.2 ▸ h.1⟩
  · intro h
    obtain ⟨d, hd, h⟩ := h
    have hp : d.phase = phase := congrArg (·.2.2.2) h
    refine ⟨d, hd, ?_⟩
    rw [Bool.and_eq_true, same_iff, decide_eq_true_eq, hp]
    exact ⟨h, rfl⟩

theorem any_other_iff {incident destination : String} {episode : Nat} :
    (t.deliveries.rows.any fun d =>
      Delivery.same incident destination episode d && d.phase ≠ .recovery) = true ↔
      ∃ phase, phase ≠ .recovery ∧ (incident, destination, episode, phase) ∈ t.keys := by
  rw [List.any_eq_true, Tables.keys]
  constructor
  · intro h
    obtain ⟨d, hd, h⟩ := h
    rw [Bool.and_eq_true, same_iff, decide_eq_true_eq] at h
    exact ⟨d.phase, h.2, h.1 ▸ List.mem_map_of_mem hd⟩
  · intro h
    obtain ⟨phase, hne, hmem⟩ := h
    obtain ⟨d, hd, h⟩ := List.mem_map.mp hmem
    have hp : d.phase = phase := congrArg (·.2.2.2) h
    refine ⟨d, hd, ?_⟩
    rw [Bool.and_eq_true, same_iff, decide_eq_true_eq, hp]
    exact ⟨h, hne⟩

/-- What one incident of a batch leaves. -/
structure Enqueued (incidents : Incidents.Tables) (config : Destination)
    (item : Incidents.Incident) (t t' : Tables) : Prop where
  destinations : t'.destinations = t.destinations
  receipts : t'.receipts = t.receipts
  keys : t'.keys = t.keys ∨
    dueKey incidents config.destinationRef item ∉ t.keys ∧
      t'.keys = t.keys ++ [dueKey incidents config.destinationRef item]
  due : Due incidents config t'.keys item

theorem phaseOf_recovery : phaseOf item = .recovery ↔ item.lifecycleState = .resolved := by
  unfold phaseOf
  split
  · next h => simp [h]
  · next h => split <;> simp [h]

theorem enqueueCurrent_enqueued {draw : Draw}
    (hok : enqueueCurrent incidents t item config grant draw = .ok t') :
    Enqueued incidents config item t t' := by
  unfold enqueueCurrent at hok
  simp only [] at hok
  split at hok
  · next hnone =>
    cases hok
    obtain ⟨hrec, hany⟩ := hnone
    have hres := phaseOf_recovery.mp hrec
    refine ⟨rfl, rfl, Or.inl rfl, fun h => absurd hres h, fun _ hother => ?_⟩
    rw [any_other_iff.mpr hother] at hany
    cases hany
  · split at hok
    · next hlow =>
      cases hok
      have hres := phaseOf_recovery.not.mp hlow.1
      exact ⟨rfl, rfl, Or.inl rfl, fun _ hrank => absurd hlow.2 (by omega), fun h => absurd h hres⟩
    · split at hok
      · next hthere =>
        cases hok
        have hmem : dueKey incidents config.destinationRef item ∈ t.keys := any_phase_iff.mp hthere
        exact ⟨rfl, rfl, Or.inl rfl, fun _ _ => hmem, fun _ _ => hmem⟩
      · next hthere =>
        split at hok
        · cases hok
        · split at hok
          · cases hok
          · obtain ⟨deliveries, sessions, hd, -, rfl⟩ := insertDelivery_ok hok
            have hnew : dueKey incidents config.destinationRef item ∉ t.keys :=
              fun h => hthere (any_phase_iff.mpr h)
            have hkeys : Tables.keys { t with deliveries := deliveries, sessions := sessions } =
                t.keys ++ [dueKey incidents config.destinationRef item] := by
              rw [Tables.keys, Table.rows_insert? hd, List.map_append]
              rfl
            have hmem : dueKey incidents config.destinationRef item ∈
                Tables.keys { t with deliveries := deliveries, sessions := sessions } := by
              rw [hkeys]
              exact List.mem_append_right _ (List.mem_singleton_self _)
            exact ⟨rfl, rfl, Or.inr ⟨hnew, hkeys⟩, fun _ _ => hmem, fun _ _ => hmem⟩

theorem Enqueued.kept (h : Enqueued incidents config item t t') : ∀ k ∈ t.keys, k ∈ t'.keys := by
  intro k hk
  rcases h.keys with he | ⟨-, he⟩
  · rw [he]
    exact hk
  · rw [he]
    exact List.mem_append_left _ hk

theorem Enqueued.own (h : Enqueued incidents config item t t') {k : Key} (hk : k ∈ t'.keys) :
    k ∈ t.keys ∨ k.1 = item.incidentId ∧ k.2.1 = config.destinationRef := by
  rcases h.keys with he | ⟨-, he⟩
  · exact Or.inl (he ▸ hk)
  · rw [he, List.mem_append, List.mem_singleton] at hk
    rcases hk with hk | rfl
    · exact Or.inl hk
    · exact Or.inr ⟨rfl, rfl⟩

theorem Enqueued.nodup (h : Enqueued incidents config item t t') (hn : t.keys.Nodup) :
    t'.keys.Nodup := by
  rcases h.keys with he | ⟨hnew, he⟩
  · rw [he]
    exact hn
  · rw [he]
    exact List.nodup_append.mpr ⟨hn, List.nodup_singleton _, fun a ha b hb heq =>
      hnew (List.mem_singleton.mp hb ▸ heq ▸ ha)⟩

/-! ## A batch -/

/-- What a batch leaves. -/
structure Batch (incidents : Incidents.Tables) (config : Destination)
    (groups : List (Nat × Incidents.Incident)) (t t' : Tables) : Prop where
  destinations : t'.destinations = t.destinations
  receipts : t'.receipts = t.receipts ++ groups.map fun g => (config.destinationRef, g.1)
  nodup : t.keys.Nodup → t'.keys.Nodup
  kept : ∀ k ∈ t.keys, k ∈ t'.keys
  own : ∀ k ∈ t'.keys, k ∈ t.keys ∨
    ∃ g ∈ groups, k.1 = g.2.incidentId ∧ k.2.1 = config.destinationRef
  due : (groups.map (·.2.incidentId)).Nodup → ∀ g ∈ groups, Due incidents config t'.keys g.2

theorem enqueueGroups_batch {draws : Nat → Draw} {groups : List (Nat × Incidents.Incident)} :
    ∀ {k : Nat} {t t' : Tables}, enqueueGroups incidents config grant draws k groups t = .ok t' →
      Batch incidents config groups t t' := by
  induction groups with
  | nil =>
      intro k t t' hok
      cases hok
      exact ⟨rfl, by simp, id, fun _ h => h, fun _ h => Or.inl h, by simp⟩
  | cons g rest ih =>
      intro k t t' hok
      obtain ⟨revision, item⟩ := g
      rw [enqueueGroups] at hok
      split at hok
      · cases hok
      · next t₁ h1 =>
        have he := enqueueCurrent_enqueued h1
        have hb := ih hok
        refine ⟨hb.destinations.trans he.destinations, ?_, fun h => hb.nodup (he.nodup h),
          fun k hk => hb.kept k (he.kept k hk), fun k hk => ?_, fun hn g hg => ?_⟩
        · rw [hb.receipts]
          show (t₁.receipts ++ _) ++ _ = _
          rw [he.receipts, List.append_assoc]
          rfl
        · rcases hb.own k hk with hk | ⟨g, hg, hown⟩
          · rcases he.own hk with hk | hown
            · exact Or.inl hk
            · exact Or.inr ⟨_, List.mem_cons_self .., hown⟩
          · exact Or.inr ⟨g, List.mem_cons_of_mem _ hg, hown⟩
        · rw [List.map_cons, List.nodup_cons] at hn
          rcases List.mem_cons.mp hg with rfl | hg
          · -- No later group is about this incident.
            refine he.due.mono hb.kept fun k hk hid _ => (hb.own k hk).resolve_right ?_
            intro hown
            obtain ⟨g, hg, hgid, -⟩ := hown
            exact hn.1 (hid ▸ hgid ▸ List.mem_map_of_mem hg)
          · exact hb.due hn.2 g hg

/-! ## Which incidents a batch is about -/

/-- What keeps its row of a list in a `filterMap` keeps the order. -/
theorem filterMap_snd_sublist {α β : Type} (f : α → Option β) (l : List α) :
    List.Sublist ((l.filterMap fun a => (f a).map (·, a)).map Prod.snd) l := by
  induction l with
  | nil => exact .slnil
  | cons a l ih =>
      rw [List.filterMap_cons]
      cases f a with
      | none => exact ih.cons a
      | some b => exact ih.cons_cons a

variable {destination : String} {limit : Nat} {g : Nat × Incidents.Incident}

theorem mem_unreceipted {x : Incidents.Transition} :
    x ∈ unreceipted incidents t destination ↔
      x ∈ incidents.transitions ∧ (destination, x.revision) ∉ t.receipts := by
  rw [unreceipted, List.mem_filter, decide_eq_true_eq]

theorem mem_pendingGroups (h : g ∈ pendingGroups incidents t destination limit) :
    g.2 ∈ incidents.incidents ∧ ∃ x ∈ unreceipted incidents t destination,
      x.incidentId = g.2.incidentId ∧ x.revision = g.1 := by
  rw [pendingGroups] at h
  have hg := List.mem_mergeSort.mp (List.mem_of_mem_take h)
  obtain ⟨i, hi, hmin⟩ := List.mem_filterMap.mp hg
  obtain ⟨revision, hrev, rfl⟩ := Option.map_eq_some_iff.mp hmin
  obtain ⟨x, hx, hxrev⟩ := List.mem_map.mp (List.min?_mem hrev)
  rw [List.mem_filter, decide_eq_true_eq] at hx
  exact ⟨hi, x, hx.1, hx.2, hxrev⟩

theorem pendingGroups_ids (t : Tables) (destination : String) (limit : Nat)
    (hk : incidents.Keyed) :
    ((pendingGroups incidents t destination limit).map (·.2.incidentId)).Nodup := by
  rw [pendingGroups]
  refine List.Nodup.sublist ((List.take_sublist _ _).map _) ?_
  refine (List.Perm.nodup_iff ((List.mergeSort_perm _ _).map _)).mpr ?_
  have hids : (incidents.incidents.map Incidents.Incident.incidentId).Nodup := hk.ids
  refine List.Nodup.sublist ?_ hids
  have hsub := (filterMap_snd_sublist (fun i : Incidents.Incident =>
    ((((unreceipted incidents t destination).filter (·.incidentId = i.incidentId)).map
      (·.revision)).min?)) incidents.incidents).map Incidents.Incident.incidentId
  rwa [List.map_map] at hsub

/-- As long as the call may take a group there is one for every transition left. -/
theorem pendingGroups_ne_nil (hlimit : 0 < limit) {x : Incidents.Transition}
    (hx : x ∈ unreceipted incidents t destination)
    (howned : ∃ i ∈ incidents.incidents, i.incidentId = x.incidentId) :
    pendingGroups incidents t destination limit ≠ [] := by
  obtain ⟨i, hi, hid⟩ := howned
  intro hnil
  rw [pendingGroups] at hnil
  rcases List.take_eq_nil_iff.mp hnil with h0 | hsort
  · omega
  · have hgroups := (List.mergeSort_perm _ _).symm.trans (List.Perm.of_eq hsort)
    have hnone := List.filterMap_eq_nil_iff.mp hgroups.eq_nil i hi
    rw [Option.map_eq_none_iff, List.min?_eq_none_iff, List.map_eq_nil_iff] at hnone
    have hmem : x ∈ (unreceipted incidents t destination).filter (·.incidentId = i.incidentId) :=
      List.mem_filter.mpr ⟨hx, decide_eq_true hid.symm⟩
    rw [hnone] at hmem
    cases hmem

/-! ## What a batch takes off the ledger -/

theorem ordered_inj {ts : List Incidents.Transition} (h : Incidents.Ordered ts) :
    ∀ x ∈ ts, ∀ y ∈ ts, x.revision = y.revision → x = y := by
  have hnodup : (ts.map (·.revision)).Nodup :=
    List.Pairwise.map _ (fun _ _ => Nat.ne_of_lt) h
  exact fun x hx y hy => List.inj_on_of_nodup_map hnodup hx hy

theorem pendingGroups_revisions (t : Tables) (destination : String) (limit : Nat)
    (hl : Incidents.Ledgered incidents) :
    ((pendingGroups incidents t destination limit).map (·.1)).Nodup := by
  have hids := pendingGroups_ids t destination limit hl.toKeyed
  refine List.Nodup.map_on (fun g hg g' hg' heq => ?_) hids.of_map
  obtain ⟨-, x, hx, hxid, hxrev⟩ := mem_pendingGroups hg
  obtain ⟨-, y, hy, hyid, hyrev⟩ := mem_pendingGroups hg'
  have hxy : x = y := ordered_inj hl.ordered x (mem_unreceipted.mp hx).1 y (mem_unreceipted.mp hy).1
    (hxrev.trans (heq.trans hyrev.symm))
  exact List.inj_on_of_nodup_map hids hg hg' (hxid.symm.trans ((congrArg _ hxy).trans hyid))

/-- Taking some of the values a list has takes as many of its members, when no two of
these have one value. -/
theorem length_filter_not_mem {α β : Type} [DecidableEq β] {l : List α} {f : α → β}
    {taken : List β} (hl : (l.map f).Nodup) (htaken : taken.Nodup) (hsub : ∀ b ∈ taken, b ∈ l.map f) :
    (l.filter fun a => f a ∉ taken).length + taken.length = l.length := by
  have hperm : ((l.filter fun a => f a ∈ taken).map f).Perm taken := by
    refine (List.perm_ext_iff_of_nodup (hl.sublist (List.filter_sublist.map f)) htaken).mpr ?_
    intro b
    rw [List.mem_map]
    constructor
    · intro hmem
      obtain ⟨a, ha, hab⟩ := hmem
      rw [List.mem_filter, decide_eq_true_eq] at ha
      exact hab ▸ ha.2
    · intro hb
      obtain ⟨a, ha, hab⟩ := List.mem_map.mp (hsub b hb)
      exact ⟨a, List.mem_filter.mpr ⟨ha, decide_eq_true (hab ▸ hb)⟩, hab⟩
  have hlen := hperm.length_eq
  rw [List.length_map] at hlen
  have hsplit := List.length_eq_length_filter_add (l := l) fun a => decide (f a ∈ taken)
  have hnot : (l.filter fun a => decide (f a ∉ taken)) = l.filter fun a => !decide (f a ∈ taken) :=
    List.filter_congr fun a _ => decide_not
  rw [hnot]
  omega

theorem Batch.unreceipted {config : Destination}
    (h : Batch incidents config (pendingGroups incidents t config.destinationRef limit) t t')
    (hl : Incidents.Ledgered incidents) :
    (unreceipted incidents t' config.destinationRef).length +
        (pendingGroups incidents t config.destinationRef limit).length =
      (Outbox.unreceipted incidents t config.destinationRef).length := by
  have hleft : Outbox.unreceipted incidents t' config.destinationRef =
      (Outbox.unreceipted incidents t config.destinationRef).filter fun x =>
        x.revision ∉ (pendingGroups incidents t config.destinationRef limit).map (·.1) := by
    rw [Outbox.unreceipted, Outbox.unreceipted, List.filter_filter]
    refine List.filter_congr fun x _ => ?_
    rw [← Bool.decide_and]
    refine decide_eq_decide.mpr ?_
    rw [h.receipts, List.mem_append, not_or, and_comm]
    refine and_congr_left fun _ => not_congr ?_
    simp only [List.mem_map, Prod.mk.injEq, true_and]
  have hnodup : ((Outbox.unreceipted incidents t config.destinationRef).map (·.revision)).Nodup :=
    List.Nodup.sublist (List.filter_sublist.map _)
      (List.Pairwise.map _ (fun _ _ => Nat.ne_of_lt) hl.ordered)
  have hsub : ∀ n ∈ (pendingGroups incidents t config.destinationRef limit).map (·.1),
      n ∈ (Outbox.unreceipted incidents t config.destinationRef).map (·.revision) := by
    intro n hn
    obtain ⟨g, hg, rfl⟩ := List.mem_map.mp hn
    obtain ⟨-, x, hx, -, hrev⟩ := mem_pendingGroups hg
    exact List.mem_map.mpr ⟨x, hx, hrev⟩
  have hlen := length_filter_not_mem hnodup (pendingGroups_revisions t _ limit hl) hsub
  rw [List.length_map] at hlen
  rw [hleft]
  exact hlen

/-- A call that commits: its destination is there, the tables are those its batch
leaves, and it answers how many groups the batch had and whether any are left. -/
theorem reconcile_batch {draws : Nat → Draw} {n : Nat} {pending : Bool}
    (hok : reconcileOwnerTransitions incidents t destination limit grant draws =
      .ok (t', n, pending)) :
    ∃ config, t.destinations.find? destination = some config ∧
      Batch incidents config (pendingGroups incidents t destination limit) t t' ∧
      n = (pendingGroups incidents t destination limit).length ∧
      pending = !(unreceipted incidents t' destination).isEmpty := by
  unfold reconcileOwnerTransitions at hok
  split at hok
  · cases hok
  · next config hfind =>
    split at hok
    · cases hok
    · simp only [] at hok
      split at hok
      · cases hok
      · next t₁ h1 =>
        cases hok
        exact ⟨config, hfind, enqueueGroups_batch h1, rfl, rfl⟩

end OufGateway.Outbox
