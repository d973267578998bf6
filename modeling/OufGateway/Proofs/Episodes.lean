import Mathlib
import OufGateway.Lib.Table
import OufGateway.Lib.Trace
import OufGateway.Ref.Incidents
import OufGateway.Ref.Outbox
import OufGateway.Proofs.Lifecycle
import OufGateway.Proofs.Ledger
import OufGateway.Proofs.OutboxBooks
import OufGateway.Proofs.OutboxSteps
import OufGateway.Proofs.OutboxKeys
import OufGateway.Proofs.Reconcile
import OufGateway.Proofs.OutboxComplete
import OufGateway.Proofs.OutboxBatch

/-!
# Episodes

The outbox counts how often an incident was closed; what is meant is how often it was
opened again. The two counts go together as long as a closed incident is left for
`OPEN` only, and then the episode of an incident is one more than its RESOLVED to OPEN
crossings whatever state it is in. A `recovering` on a closed incident breaks the tie:
the closure before it and the one after it have no crossing between them, so the
incident is in an episode nothing opened. The last section shows such a run.
-/

namespace OufGateway.Outbox

open Lib

variable {incidents incidents' : Incidents.Tables} {t t' : Tables} {incident destination : String}

/-- The RESOLVED to OPEN crossings of a sequence of states. -/
def reopenings : List Incidents.Lifecycle → Nat
  | a :: b :: rest => (if a = .resolved ∧ b = .opened then 1 else 0) + reopenings (b :: rest)
  | _ => 0

/-- The states an incident had, as the ledger has them. -/
def statesOf (incidents : Incidents.Tables) (incident : String) : List Incidents.Lifecycle :=
  (incidents.transitions.filter (·.incidentId = incident)).map (·.body.lifecycleState)

def crossings (incidents : Incidents.Tables) (incident : String) : Nat :=
  reopenings (statesOf incidents incident)

/-- The episodes an incident has deliveries of. -/
def episodes (t : Tables) (incident destination : String) : Finset Nat :=
  ((t.keys.filter fun k => k.1 = incident ∧ k.2.1 = destination).map (·.2.2.1)).toFinset

theorem mem_episodes {n : Nat} :
    n ∈ episodes t incident destination ↔ ∃ phase, (incident, destination, n, phase) ∈ t.keys := by
  rw [episodes, List.mem_toFinset, List.mem_map]
  constructor
  · intro h
    obtain ⟨⟨i, d, m, phase⟩, hk, rfl⟩ := h
    rw [List.mem_filter, decide_eq_true_eq] at hk
    obtain ⟨hk, rfl, rfl⟩ := hk
    exact ⟨phase, hk⟩
  · intro h
    obtain ⟨phase, hk⟩ := h
    exact ⟨_, List.mem_filter.mpr ⟨hk, decide_eq_true ⟨rfl, rfl⟩⟩, rfl⟩

/-! ## Closures and crossings -/

theorem closures_snoc (states : List Incidents.Lifecycle) (s : Incidents.Lifecycle) :
    ∀ previous, closures previous (states ++ [s]) = closures previous states +
      if s = .resolved ∧ (states.getLast?.or previous) ≠ some .resolved then 1 else 0 := by
  induction states with
  | nil => exact fun previous => Nat.add_comm _ _
  | cons a states ih =>
      intro previous
      have hlast : ((a :: states).getLast?.or previous) = states.getLast?.or (some a) := by
        rw [List.getLast?_cons]
        cases states.getLast? <;> rfl
      rw [List.cons_append, closures, closures, ih, hlast, Nat.add_assoc]

theorem reopenings_snoc (states : List Incidents.Lifecycle) (s : Incidents.Lifecycle) :
    reopenings (states ++ [s]) = reopenings states +
      if states.getLast? = some .resolved ∧ s = .opened then 1 else 0 := by
  induction states with
  | nil => rfl
  | cons a states ih =>
      cases states with
      | nil =>
          simp only [List.getLast?_singleton, Option.some.injEq]
          exact Nat.add_comm _ _
      | cons b states =>
          rw [List.cons_append, List.cons_append, reopenings, reopenings, ← List.cons_append, ih,
            List.getLast?_cons_cons, Nat.add_assoc]

/-- As often closed as opened again, and once more while it is closed. -/
def Tied (states : List Incidents.Lifecycle) : Prop :=
  closures none states = reopenings states + if states.getLast? = some .resolved then 1 else 0

theorem tied_nil : Tied [] := rfl

theorem Tied.snoc {states : List Incidents.Lifecycle} {s : Incidents.Lifecycle} (h : Tied states)
    (hs : states.getLast? = some .resolved → s ≠ .recovering) : Tied (states ++ [s]) := by
  unfold Tied at *
  rw [closures_snoc, reopenings_snoc, h, List.getLast?_concat, Option.or_none]
  by_cases hlast : states.getLast? = some .resolved
  · cases s with
    | recovering => exact absurd rfl (hs hlast)
    | _ => simp [hlast]
  · cases s <;> simp [hlast]

theorem tied_of_length {states : List Incidents.Lifecycle} (h : states.length ≤ 1) :
    Tied states := by
  cases states with
  | nil => exact tied_nil
  | cons s rest =>
      have hrest : rest = [] := List.length_eq_zero_iff.mp (by
        rw [List.length_cons] at h
        omega)
      rw [hrest]
      exact tied_nil.snoc fun hlast => by cases hlast

/-! ## The ledger of one incident -/

/-- The write leaves no closed incident for `RECOVERING`. -/
def Direct (incidents : Incidents.Tables) (incident : String) : Incidents.Write → Prop
  | .recovering _ key _ => ∀ old, Incidents.findKey incidents key = some old →
      old.incidentId = incident → old.lifecycleState ≠ .resolved
  | _ => True

theorem statesOf_append (incidents : Incidents.Tables) (row : Incidents.Incident) :
    statesOf (incidents.append row) incident = statesOf incidents incident ++
      if row.incidentId = incident then [row.lifecycleState] else [] := by
  unfold statesOf
  show ((incidents.transitions ++ [_]).filter _).map _ = _
  rw [List.filter_append, List.map_append, List.filter_singleton]
  congr 1
  by_cases h : row.incidentId = incident
  · rw [decide_eq_true h, if_pos h]
    rfl
  · rw [decide_eq_false h, if_neg h]
    rfl

/-- The last state of the ledger is that of the table. -/
theorem getLast?_statesOf (hl : Incidents.Ledgered incidents) {item : Incidents.Incident}
    (hitem : item ∈ incidents.incidents) :
    (statesOf incidents item.incidentId).getLast? = some item.lifecycleState := by
  obtain ⟨x, ⟨hx, hmax⟩, hid, hbody⟩ := hl.current item hitem
  have hmem : x ∈ incidents.transitions.filter (·.incidentId = item.incidentId) :=
    List.mem_filter.mpr ⟨hx, decide_eq_true hid⟩
  have hordered := List.Pairwise.sublist
    (List.filter_sublist (p := (·.incidentId = item.incidentId))) hl.ordered
  obtain ⟨y, hy⟩ := Option.isSome_iff_exists.mp (List.getLast?_isSome.mpr (List.ne_nil_of_mem hmem))
  -- Nothing is above the latest, so the last one is the latest.
  have hyx : y = x := by
    have hymem := List.mem_of_getLast? hy
    obtain ⟨init, hinit⟩ := List.getLast?_eq_some_iff.mp hy
    rw [hinit] at hmem hordered
    rcases List.mem_append.mp hmem with hbefore | hlast
    · have hlt := (List.pairwise_append.mp hordered).2.2 x hbefore y (List.mem_singleton_self _)
      have hyin := List.mem_filter.mp hymem
      have hle := hmax y hyin.1 ((of_decide_eq_true hyin.2).trans hid.symm)
      omega
    · exact (List.mem_singleton.mp hlast).symm
  rw [statesOf, List.getLast?_map, hy, hyx, Option.map_some, hbody]

/-- What a write puts into the ledger. -/
theorem write_states (incidents : Incidents.Tables) (w : Incidents.Write)
    (hl : Incidents.Ledgered incidents) :
    (incidents.write w).transitions = incidents.transitions ∨
      ∃ row : Incidents.Incident,
        (incidents.write w).transitions = (incidents.append row).transitions ∧
          (row.lifecycleState = .recovering → ∃ now key impact old,
            w = .recovering now key impact ∧ Incidents.findKey incidents key = some old ∧
              old.incidentId = row.incidentId) := by
  cases w with
  | openIncident uuid now args =>
      simp only [Incidents.Tables.write, Incidents.openIncident]
      split
      · next t' row hok =>
        split at hok
        · cases hok
        split at hok
        · cases hok
        split at hok
        · cases hok
        split at hok
        · cases hok
        split at hok
        · cases hok
          exact Or.inr ⟨_, rfl, fun h => by cases h⟩
        · cases hok
          exact Or.inr ⟨_, rfl, fun h => by cases h⟩
      · exact Or.inl rfl
  | recovering now key impact =>
      simp only [Incidents.Tables.write, Incidents.recovering]
      split
      · exact Or.inl rfl
      · next old hold => exact Or.inr ⟨_, rfl, fun _ => ⟨now, key, impact, old, rfl, hold, rfl⟩⟩
  | resolveIncident now key impact =>
      simp only [Incidents.Tables.write, Incidents.resolveIncident]
      split
      · exact Or.inl rfl
      · exact Or.inr ⟨_, rfl, fun h => by cases h⟩
  | startHistory now =>
      refine Or.inl ?_
      simp only [Incidents.Tables.write, Incidents.startHistory]
      split
      · rfl
      · next hnone =>
        have hstarted := hl.started
        rw [hnone] at hstarted
        cases hstarted

theorem tied_write {w : Incidents.Write} (hl : Incidents.Ledgered incidents)
    (ht : Tied (statesOf incidents incident)) (hw : Direct incidents incident w) :
    Tied (statesOf (incidents.write w) incident) ∧
      crossings incidents incident ≤ crossings (incidents.write w) incident := by
  rcases write_states incidents w hl with hsame | ⟨row, hrow, hrec⟩
  · have hstates : statesOf (incidents.write w) incident = statesOf incidents incident := by
      rw [statesOf, hsame, statesOf]
    rw [crossings, crossings, hstates]
    exact ⟨ht, le_rfl⟩
  · have hstates : statesOf (incidents.write w) incident =
        statesOf (incidents.append row) incident := by
      rw [statesOf, hrow, statesOf]
    rw [crossings, crossings, hstates, statesOf_append]
    split
    · next hid =>
      refine ⟨ht.snoc fun hlast hstate => ?_, ?_⟩
      · obtain ⟨now, key, impact, old, rfl, hold, holdid⟩ := hrec hstate
        have hmem := getLast?_statesOf hl (Incidents.findKey_mem hold)
        rw [holdid, hid, hlast] at hmem
        exact hw old hold (holdid.trans hid) (Option.some.inj hmem).symm
      · rw [reopenings_snoc]
        exact Nat.le_add_right _ _
    · rw [List.append_nil]
      exact ⟨ht, le_rfl⟩

/-- Under the tie the episode counts the crossings, whatever the state. -/
theorem episodeOf_eq {item : Incidents.Incident} (hl : Incidents.Ledgered incidents)
    (hitem : item ∈ incidents.incidents) (ht : Tied (statesOf incidents item.incidentId)) :
    episodeOf incidents item = crossings incidents item.incidentId + 1 := by
  have hlast := getLast?_statesOf hl hitem
  unfold Tied at ht
  rw [hlast] at ht
  show (if item.lifecycleState = .resolved then closures none (statesOf incidents item.incidentId)
    else closures none (statesOf incidents item.incidentId) + 1) = _
  rw [ht, crossings]
  by_cases h : item.lifecycleState = .resolved
  · rw [if_pos h, if_pos (congrArg some h)]
  · rw [if_neg h, if_neg fun he => h (Option.some.inj he)]

/-! ## Steps -/

/-- Every notification a batch adds is due. -/
theorem enqueueGroups_keys {config : Destination} {grant : Grant} {draws : Nat → Draw}
    {groups : List (Nat × Incidents.Incident)} :
    ∀ {k : Nat} {t t' : Tables}, enqueueGroups incidents config grant draws k groups t = .ok t' →
      ∀ key ∈ t'.keys, key ∈ t.keys ∨
        ∃ g ∈ groups, key = dueKey incidents config.destinationRef g.2 := by
  induction groups with
  | nil =>
      intro k t t' hok key hkey
      cases hok
      exact Or.inl hkey
  | cons g rest ih =>
      intro k t t' hok key hkey
      obtain ⟨revision, item⟩ := g
      rw [enqueueGroups] at hok
      split at hok
      · cases hok
      · next t₁ h₁ =>
        rcases ih hok key hkey with hkey | ⟨g, hg, rfl⟩
        · change key ∈ t₁.keys at hkey
          rcases (enqueueCurrent_enqueued h₁).keys with hsame | ⟨-, hnew⟩
          · exact Or.inl (hsame ▸ hkey)
          · rw [hnew, List.mem_append, List.mem_singleton] at hkey
            exact hkey.imp_right fun heq => ⟨_, List.mem_cons_self .., heq⟩
        · exact Or.inr ⟨g, List.mem_cons_of_mem _ hg, rfl⟩

/-- A step of a worker adds no episode but that of the crossings. -/
theorem episodes_advance (hl : Incidents.Ledgered incidents)
    (ht : Tied (statesOf incidents incident)) (o : Oracle) (w : Worker) :
    episodes (advance incidents t o w).1 incident destination ⊆
      insert (crossings incidents incident + 1) (episodes t incident destination) := by
  have hsame : ∀ {t' : Tables}, t'.keys = t.keys → episodes t' incident destination ⊆
      insert (crossings incidents incident + 1) (episodes t incident destination) := by
    intro t' hkeys
    rw [episodes, hkeys]
    exact Finset.subset_insert _ _
  by_cases hc : ∃ d g, w = .configureCommit d g
  · obtain ⟨d, g, rfl⟩ := hc
    simp only [advance, transact]
    split
    · next hok =>
      refine hsame ?_
      rw [Tables.keys, (configure_ok (map_unit_eq_ok hok)).1, Tables.keys]
    · exact hsame rfl
  · by_cases he : ∃ d l g, w = .enqueueCommit d l g
    · obtain ⟨d, l, g, rfl⟩ := he
      simp only [advance, transact]
      split
      · next t' r hok =>
        unfold reconcileOwnerTransitions at hok
        split at hok
        · cases hok
        split at hok
        · cases hok
        simp only [] at hok
        split at hok
        · cases hok
        next t₁ h₁ =>
        cases hok
        intro n hn
        obtain ⟨phase, hkey⟩ := mem_episodes.mp hn
        rw [Finset.mem_insert]
        rcases enqueueGroups_keys h₁ _ hkey with hold | ⟨g, hg, hdue⟩
        · exact Or.inr (mem_episodes.mpr ⟨phase, hold⟩)
        · obtain ⟨hitem, -⟩ := mem_pendingGroups hg
          have hid : incident = g.2.incidentId := congrArg Prod.fst hdue
          have hn : n = episodeOf incidents g.2 := congrArg (·.2.2.1) hdue
          left
          rw [hn, hid, episodeOf_eq hl hitem (hid ▸ ht)]
      · exact hsame rfl
    · exact hsame (advance_same incidents o (fun d g heq => hc ⟨d, g, heq⟩)
        fun d l g heq => he ⟨d, l, g, heq⟩).keys

/-! ## Runs -/

/-- The input leaves no closed incident for `RECOVERING`. -/
def World.Direct (w : World) (incident : String) : Input → Prop
  | .incident write => Outbox.Direct w.incidents incident write
  | _ => True

structure Episodic (incident destination : String) (w : World) : Prop where
  ledger : Incidents.Ledgered w.incidents
  tied : Tied (statesOf w.incidents incident)
  within : ∀ n ∈ episodes w.tables incident destination,
    1 ≤ n ∧ n ≤ crossings w.incidents incident + 1

/-- What a part of a run leaves. -/
structure Follows (incident destination : String) (w w' : World) : Prop where
  crossings : crossings w.incidents incident ≤ crossings w'.incidents incident
  episodes : Outbox.crossings w.incidents incident = Outbox.crossings w'.incidents incident →
    episodes w'.tables incident destination ⊆
      insert (Outbox.crossings w.incidents incident + 1) (episodes w.tables incident destination)

theorem Follows.refl (w : World) : Follows incident destination w w :=
  ⟨le_rfl, fun _ => Finset.subset_insert _ _⟩

theorem Follows.trans {w₁ w₂ w₃ : World} (h : Follows incident destination w₁ w₂)
    (h' : Follows incident destination w₂ w₃) : Follows incident destination w₁ w₃ := by
  refine ⟨h.crossings.trans h'.crossings, fun heq => ?_⟩
  have hfirst : Outbox.crossings w₁.incidents incident = Outbox.crossings w₂.incidents incident :=
    le_antisymm h.crossings (heq ▸ h'.crossings)
  refine (h'.episodes (hfirst.symm.trans heq)).trans ?_
  rw [← hfirst]
  exact Finset.insert_subset (Finset.mem_insert_self _ _) (h.episodes hfirst)

theorem episodic_next {w : World} {i : Input} (hi : w.Direct incident i)
    (h : Episodic incident destination w) :
    Episodic incident destination (w.next i).1 ∧
      Follows incident destination w (w.next i).1 := by
  have hstay : ∀ workers, Episodic incident destination { w with workers := workers } ∧
      Follows incident destination w { w with workers := workers } := fun _ =>
    ⟨⟨h.ledger, h.tied, h.within⟩, le_rfl, fun _ => Finset.subset_insert _ _⟩
  cases i with
  | incident write =>
      obtain ⟨htied, hle⟩ := tied_write h.ledger h.tied hi
      refine ⟨⟨(Incidents.ledgered_wrote (Incidents.write_wrote _ write) h.ledger).1, htied,
        fun n hn => ?_⟩, hle, fun _ => Finset.subset_insert _ _⟩
      obtain ⟨hpos, hn⟩ := h.within n hn
      exact ⟨hpos, hn.trans (Nat.succ_le_succ hle)⟩
  | call n c =>
      simp only [World.next]
      split
      · exact hstay _
      · exact hstay _
      · exact hstay w.workers
  | step n o =>
      have hsub : episodes (advance w.incidents w.tables o (w.workers n)).1 incident destination ⊆
          insert (crossings w.incidents incident + 1) (episodes w.tables incident destination) :=
        episodes_advance h.ledger h.tied o (w.workers n)
      refine ⟨⟨h.ledger, h.tied, fun m hm => ?_⟩, le_rfl, fun _ => hsub⟩
      rcases Finset.mem_insert.mp (hsub hm) with rfl | hm
      · exact ⟨Nat.succ_pos _, le_rfl⟩
      · exact h.within m hm
  | crash n => exact hstay _

theorem episodic_run {w : World} (h : Episodic incident destination w) (is : List Input)
    (hdirect : ∀ pre i post, is = pre ++ i :: post → (system.run w pre).Direct incident i) :
    Episodic incident destination (system.run w is) ∧
      Follows incident destination w (system.run w is) :=
  system.invariant_of (g := fun w i => w.Direct incident i)
    (P := fun w' _ => Episodic incident destination w' ∧ Follows incident destination w w')
    ⟨h, .refl w⟩
    (fun _ _ _ hi h => ⟨(episodic_next hi h.1).1, h.2.trans (episodic_next hi h.1).2⟩) is hdirect

/-- The baseline has one transition of an incident at most. -/
theorem tied_start (v : Incidents.Inventory) (start incident : String) :
    Tied (statesOf (Incidents.startHistory v.tables start) incident) := by
  obtain ⟨hl, -⟩ := Incidents.ledgered_start v start
  have hbodies : (Incidents.startHistory v.tables start).transitions.map (·.body) = v.rows :=
    Incidents.foldl_append_bodies v.rows ⟨v.rows, some start, []⟩
  have hstates : statesOf (Incidents.startHistory v.tables start) incident =
      (v.rows.filter (·.incidentId = incident)).map (·.lifecycleState) := by
    rw [← hbodies, List.filter_map, List.map_map]
    unfold statesOf
    congr 1
    refine List.filter_congr fun x hx => ?_
    show _ = decide (x.body.incidentId = incident)
    rw [(hl.owned x hx).1]
  have hone : (v.rows.filter (·.incidentId = incident)).length ≤ 1 := by
    have hcount := List.nodup_iff_count_le_one.mp v.ids incident
    rw [List.count, List.countP_map, List.countP_eq_length_filter] at hcount
    refine le_of_eq_of_le (congrArg List.length (List.filter_congr fun i _ => ?_)) hcount
    rw [Function.comp, beq_eq_decide]
  rw [hstates]
  refine tied_of_length ?_
  rw [List.length_map]
  exact hone

theorem episodic_start (v : Incidents.Inventory) (start incident destination : String) :
    Episodic incident destination
      (World.initial (Incidents.startHistory v.tables start)) where
  ledger := (Incidents.ledgered_start v start).1
  tied := tied_start v start incident
  within _ hn := absurd hn (Finset.notMem_empty _)

theorem authorize_again (hfind : t.destinations.find? "alert://on-call" =
    some ⟨onCall, onCall.fingerprint, "tenant-1"⟩) :
    authorize t "alert://on-call" none false permissive.decision = .ok operator := by
  have hsame : authorize t "alert://on-call" none false permissive.decision =
      authorize { Tables.empty with destinations :=
        ⟨[⟨onCall, onCall.fingerprint, "tenant-1"⟩], List.nodup_singleton _⟩ }
        "alert://on-call" none false permissive.decision := by
    unfold authorize
    rw [hfind]
    rfl
  rw [hsame]
  rfl

/-- A call for one group, allowed and with these identifiers. -/
def notify (draw : Draw) : Round := ⟨1, permissive, { permissive with draws := fun _ => draw }⟩

/-- What such a call leaves when its incident fits. -/
theorem run_notify {w : World} {draw : Draw} {revision : Nat} {item : Incidents.Incident}
    (hfree : w.Free 0) (hfind : w.tables.destinations.find? "alert://on-call" =
      some ⟨onCall, onCall.fingerprint, "tenant-1"⟩)
    (hgroups : pendingGroups w.incidents w.tables "alert://on-call" 1 = [(revision, item)])
    (hreceipts : w.tables.receipts.length < 200000)
    (hroom : Room w.tables ⟨onCall, onCall.fingerprint, "tenant-1"⟩ 1)
    (hunused : Unused w.tables draw) (hfits : Fits w.incidents item) :
    let w' := system.run w ((notify draw).inputs 0 "alert://on-call")
    w'.Free 0 ∧ w'.incidents = w.incidents ∧ Added w.tables w'.tables draw ∧
      w'.tables.destinations = w.tables.destinations ∧
      w'.tables.receipts = w.tables.receipts ++ [("alert://on-call", revision)] ∧
      (∀ k ∈ w.tables.keys, k ∈ w'.tables.keys) ∧
      Due w.incidents ⟨onCall, onCall.fingerprint, "tenant-1"⟩ w'.tables.keys item := by
  have hwanted : Wanted w.incidents w.tables ⟨onCall, onCall.fingerprint, "tenant-1"⟩ item →
      Fits w.incidents item := fun _ => hfits
  obtain ⟨t₁, h₁, hadded⟩ := enqueueCurrent_fits operator hroom hunused hwanted
  have hone := enqueueCurrent_enqueued h₁
  have hcommit : ∃ n pending, reconcileOwnerTransitions w.incidents w.tables "alert://on-call" 1
      operator (fun _ => draw) = .ok
        ({ t₁ with receipts := t₁.receipts ++ [("alert://on-call", revision)] }, n, pending) := by
    have hcap : ¬ 200000 < w.tables.receipts.length + 1 := by omega
    simp only [reconcileOwnerTransitions, hfind, if_neg hcap, hgroups, enqueueGroups, h₁]
    exact ⟨_, _, rfl⟩
  obtain ⟨n, pending, hcommit⟩ := hcommit
  have hanswer : (notify draw).answer w "alert://on-call" = .ok
      ({ t₁ with receipts := t₁.receipts ++ [("alert://on-call", revision)] }, n, pending) := by
    have hlimit : 1 ≤ (notify draw).limit ∧ (notify draw).limit ≤ 64 :=
      ⟨le_rfl, Nat.le_of_ble_eq_true rfl⟩
    have hask : authorize w.tables "alert://on-call" none false (notify draw).ask.decision =
        .ok operator := authorize_again hfind
    rw [Round.answer, if_pos hlimit, hask]
    exact hcommit
  obtain ⟨hincidents, -, hok⟩ := run_round "alert://on-call" hfree (notify draw)
  obtain ⟨htables, hdone⟩ := hok _ _ _ hanswer
  intro w'
  have hw' : w'.tables = _ := htables
  rw [hw']
  refine ⟨Or.inr ⟨_, hdone⟩, hincidents, hadded.receipt _, hone.destinations, ?_, hone.kept,
    hone.due⟩
  show t₁.receipts ++ _ = _
  rw [hone.receipts]

/-! ## A closed incident that recovers -/

def closed : Incidents.Incident :=
  { loud "down" with
    lifecycleState := .resolved, lastSeenAt := "2026-01-01T00:00:02Z"
    resolvedAt := some "2026-01-01T00:00:02Z", impactSummary := "up", actionRequired := false }

def relapsed : Incidents.Incident :=
  { closed with
    lifecycleState := .recovering, lastSeenAt := "2026-01-01T00:00:03Z", resolvedAt := none
    impactSummary := "unsteady" }

/-- The first of two incidents is notified, closed, set to `RECOVERING` and notified. -/
def relapse : List Input :=
  twoOutages "down" ++ (notify ⟨"delivery-1", "session-1", 0⟩).inputs 0 "alert://on-call" ++
    [.incident (.resolveIncident "2026-01-01T00:00:02Z" "cause-1" "up"),
      .incident (.recovering "2026-01-01T00:00:03Z" "cause-1" "unsteady")] ++
    (notify ⟨"delivery-2", "session-2", 0⟩).inputs 0 "alert://on-call"

def relapsedIncidents : Incidents.Tables :=
  ⟨[relapsed, quiet], some "2026-01-01T00:00:00Z",
    [⟨1, "incident-1", loud "down"⟩, ⟨2, "incident-2", quiet⟩, ⟨3, "incident-1", closed⟩,
      ⟨4, "incident-1", relapsed⟩]⟩

theorem write_relapse :
    ((twoIncidents "down").write
      (.resolveIncident "2026-01-01T00:00:02Z" "cause-1" "up")).write
      (.recovering "2026-01-01T00:00:03Z" "cause-1" "unsteady") = relapsedIncidents := by
  decide +kernel

theorem pendingGroups_relapsed {t : Tables} (h : t.receipts = [("alert://on-call", 1)]) :
    pendingGroups relapsedIncidents t "alert://on-call" 1 = [(3, relapsed)] := by
  have hleft : unreceipted relapsedIncidents t "alert://on-call" =
      [⟨2, "incident-2", quiet⟩, ⟨3, "incident-1", closed⟩, ⟨4, "incident-1", relapsed⟩] := by
    rw [unreceipted, h]
    decide +kernel
  have hsorted : ([(3, relapsed), (2, quiet)] : List (Nat × Incidents.Incident)).Pairwise
      fun a b => decide ((toLex (if a.2.lifecycleState = .resolved then 1 else 0,
        toLex (4 - a.2.severity.rank, a.1)) : Nat ×ₗ Nat ×ₗ Nat) ≤
          toLex (if b.2.lifecycleState = .resolved then 1 else 0,
            toLex (4 - b.2.severity.rank, b.1))) = true :=
    List.pairwise_pair.mpr (decide_eq_true
      (show (toLex (0, toLex (0, 3)) : Nat ×ₗ Nat ×ₗ Nat) ≤ toLex (0, toLex (1, 2)) by decide))
  rw [pendingGroups, hleft]
  show List.take 1 (List.mergeSort [(3, relapsed), (2, quiet)] _) = _
  rw [List.mergeSort_of_pairwise hsorted]
  rfl

theorem fits_loud : Fits (twoIncidents "down") (loud "down") := by
  have hepisode : episodeOf (twoIncidents "down") (loud "down") = 1 := rfl
  have hphase : phaseOf (loud "down") = .critical := rfl
  rw [Fits, hepisode, hphase, payload_eq]
  decide +kernel

theorem fits_relapsed : Fits relapsedIncidents relapsed := by
  have hepisode : episodeOf relapsedIncidents relapsed = 2 := rfl
  have hphase : phaseOf relapsed = .critical := rfl
  rw [Fits, hepisode, hphase, payload_eq]
  decide +kernel

/-- Opened, closed and opened again. -/
def reopened : List Input :=
  [.incident (.openIncident "incident-1" "2026-01-01T00:00:00Z" (outage "cause-1" "ERROR" "down")),
    .incident (.resolveIncident "2026-01-01T00:00:01Z" "cause-1" "up"),
    .incident (.openIncident "incident-1" "2026-01-01T00:00:02Z" (outage "cause-1" "ERROR" "down"))]

end OufGateway.Outbox
