import Mathlib
import OufGateway.Ref.Incidents
import OufGateway.Ref.Cursor
import OufGateway.Proofs.Ledger

/-!
# One order for the table and the ledger

`list_incidents` sorts rows of the table and a capture sorts bodies of the ledger. Both
do it by `Incident.before`, which is the order of a key, so two lists with the same
incidents come out the same if no two of them share an identifier. The latest bodies
up to the last revision are the rows of the table, hence a capture that takes all of
them copies the listing.
-/

namespace OufGateway.Owner

open Lib Incidents

variable {a b c i : Incident} {t : Incidents.Tables} {ts : List Transition} {w : Nat} {q : Query}
  {lower : Option Nat}

/-! ## The order -/

/-- The three columns that come first, resolved incidents last. -/
def columns (i : Incident) : ℕ × ℕ × ℕ :=
  (if i.lifecycleState = .resolved then 1 else 0, 4 - i.severity.rank,
    if i.actionRequired then 0 else 1)

def priority (i : Incident) : ℕ ×ₗ ℕ ×ₗ ℕ :=
  toLex ((columns i).1, toLex ((columns i).2.1, (columns i).2.2))

/-- What `order by` compares, from left to right. -/
def rank (i : Incident) : (ℕ ×ₗ ℕ ×ₗ ℕ) ×ₗ Stringᵒᵈ ×ₗ String :=
  toLex (priority i, toLex (OrderDual.toDual i.lastSeenAt, i.incidentId))

theorem before_iff : Incident.before a b = true ↔ rank a ≤ rank b := by
  have hrank : rank a ≤ rank b ↔ priority a < priority b ∨ priority a = priority b ∧
      (b.lastSeenAt < a.lastSeenAt ∨ a.lastSeenAt = b.lastSeenAt ∧ a.incidentId ≤ b.incidentId) := by
    unfold rank
    rw [Prod.Lex.toLex_le_toLex, Prod.Lex.toLex_le_toLex]
    exact Iff.rfl
  have hpriority : priority a = priority b ↔ columns a = columns b := by
    refine ⟨fun h => ?_, fun h => by rw [priority, h, priority]⟩
    obtain ⟨hfirst, hrest⟩ := Prod.mk.inj (toLex_inj.mp h)
    exact Prod.ext hfirst (toLex_inj.mp hrest)
  rw [hrank]
  show (if columns a ≠ columns b then decide (priority a < priority b)
    else if a.lastSeenAt ≠ b.lastSeenAt then decide (b.lastSeenAt < a.lastSeenAt)
    else decide (a.incidentId ≤ b.incidentId)) = true ↔ _
  split
  · next hne =>
    rw [decide_eq_true_eq]
    exact ⟨Or.inl, fun h => h.resolve_right fun hsame => hne (hpriority.mp hsame.1)⟩
  · next heq =>
    have hsame := hpriority.mpr (not_not.mp heq)
    have hnot : ¬ priority a < priority b := fun hlt => absurd hsame hlt.ne
    split
    · next hne =>
      rw [decide_eq_true_eq]
      refine ⟨fun h => Or.inr ⟨hsame, Or.inl h⟩, fun h => ?_⟩
      exact (h.resolve_left hnot).2.resolve_right fun h => hne h.1
    · next heq =>
      rw [decide_eq_true_eq]
      refine ⟨fun h => Or.inr ⟨hsame, Or.inr ⟨not_not.mp heq, h⟩⟩, fun h => ?_⟩
      refine ((h.resolve_left hnot).2.resolve_left fun hlt => ?_).2
      exact hlt.ne (not_not.mp heq).symm

theorem before_trans (a b c : Incident) (hab : Incident.before a b = true)
    (hbc : Incident.before b c = true) : Incident.before a c = true :=
  before_iff.mpr ((before_iff.mp hab).trans (before_iff.mp hbc))

theorem before_total (a b : Incident) : (Incident.before a b || Incident.before b a) = true := by
  rw [Bool.or_eq_true]
  exact (le_total (rank a) (rank b)).imp before_iff.mpr before_iff.mpr

theorem before_antisymm (hab : Incident.before a b = true) (hba : Incident.before b a = true) :
    a.incidentId = b.incidentId := by
  have heq := le_antisymm (before_iff.mp hab) (before_iff.mp hba)
  exact (Prod.mk.inj (toLex_inj.mp (Prod.mk.inj (toLex_inj.mp heq)).2)).2

/-- Incidents with identifiers of their own have one order. -/
theorem mergeSort_eq_of_perm {l l' : List Incident} (hids : (l.map (·.incidentId)).Nodup)
    (hperm : l.Perm l') : l.mergeSort Incident.before = l'.mergeSort Incident.before := by
  have hleft := List.mergeSort_perm l Incident.before
  have hright := List.mergeSort_perm l' Incident.before
  refine List.Perm.eq_of_pairwise (fun a b ha hb hab hba => ?_)
    (List.pairwise_mergeSort before_trans before_total l)
    (List.pairwise_mergeSort before_trans before_total l')
    (hleft.trans (hperm.trans hright.symm))
  have hmem := hperm.mem_iff.mpr (hright.mem_iff.mp hb)
  exact List.inj_on_of_nodup_map hids (hleft.mem_iff.mp ha) hmem (before_antisymm hab hba)

/-! ## The latest bodies -/

theorem mem_latest {x : Transition} : x ∈ latest ts w ↔ x ∈ ts ∧ x.revision ≤ w ∧
    ∀ u ∈ ts, u.incidentId = x.incidentId → u.revision ≤ w → u.revision ≤ x.revision := by
  unfold latest
  rw [List.mem_filter, Bool.and_eq_true, decide_eq_true_eq, List.all_eq_true]
  simp only [decide_eq_true_eq]

theorem ordered_unique (ho : Ordered ts) {x y : Transition} (hx : x ∈ ts) (hy : y ∈ ts)
    (heq : x.revision = y.revision) : x = y := by
  have hnodup : (ts.map (·.revision)).Nodup :=
    List.pairwise_map.mpr (ho.imp fun hlt => Nat.ne_of_lt hlt)
  exact List.inj_on_of_nodup_map hnodup hx hy heq

/-- One transition of each incident is the latest. -/
theorem nodup_latest (ho : Ordered ts) (w : Nat) : ((latest ts w).map (·.incidentId)).Nodup := by
  have hnodup : (latest ts w).Nodup :=
    (ho.imp (S := fun x y => x ≠ y) fun hlt heq => by
      rw [heq] at hlt
      exact lt_irrefl _ hlt).filter _
  refine hnodup.map_on fun x hx y hy heq => ?_
  obtain ⟨hx, hxw, hxmax⟩ := mem_latest.mp hx
  obtain ⟨hy, hyw, hymax⟩ := mem_latest.mp hy
  exact ordered_unique ho hx hy (le_antisymm (hymax x hx heq hxw) (hxmax y hy heq.symm hyw))

/-- The filters of a query on a row. -/
def Query.admits (q : Query) (i : Incident) : Bool :=
  (q.state.all fun s => i.lifecycleState = s) && q.since.all fun since => decide (since ≤ i.lastSeenAt)

theorem selected_eq : selected ts w q lower = (((latest ts w).filter fun x =>
    q.admits x.body && lower.all fun l => decide (l < x.revision)).map (·.body)).mergeSort
      Incident.before := rfl

theorem mem_selected : i ∈ selected ts w q lower ↔ ∃ x ∈ latest ts w, x.body = i ∧
    q.admits i = true ∧ ∀ l ∈ lower, l < x.revision := by
  rw [selected_eq, (List.mergeSort_perm _ _).mem_iff, List.mem_map]
  refine exists_congr fun x => ?_
  rw [List.mem_filter, Bool.and_eq_true]
  constructor
  · rintro ⟨⟨hx, hadmits, hlower⟩, rfl⟩
    refine ⟨hx, rfl, hadmits, fun l hl => ?_⟩
    rw [hl] at hlower
    exact of_decide_eq_true hlower
  · rintro ⟨hx, rfl, hadmits, hlower⟩
    refine ⟨⟨hx, hadmits, ?_⟩, rfl⟩
    cases lower with
    | none => rfl
    | some l => exact decide_eq_true (hlower l rfl)

/-- A copy has each incident once. -/
theorem nodup_selected (hl : Ledgered t) (w : Nat) (q : Query) (lower : Option Nat) :
    ((selected t.transitions w q lower).map (·.incidentId)).Nodup := by
  rw [selected_eq, ((List.mergeSort_perm _ _).map _).nodup_iff, List.map_map]
  have hids : ∀ x ∈ (latest t.transitions w).filter fun x =>
      q.admits x.body && lower.all fun l => decide (l < x.revision),
      ((·.incidentId) ∘ (·.body)) x = x.incidentId := by
    intro x hx
    exact (hl.owned x (mem_latest.mp (List.mem_of_mem_filter hx)).1).1
  rw [List.map_congr_left hids]
  exact (nodup_latest hl.ordered w).sublist (List.filter_sublist.map _)

/-! ## The listing -/

/-- What `list_incidents` sorts, before it cuts. -/
def listed (t : Incidents.Tables) (q : Query) : List Incident :=
  (t.incidents.filter q.admits).mergeSort Incident.before

theorem listIncidents_eq {limit : Nat} (h : 1 ≤ limit) (h' : limit ≤ 200) :
    listIncidents t q.state limit q.since = .ok ((listed t q).take limit) := by
  have hvalid : ¬ (limit < 1 ∨ 200 < limit) := by omega
  unfold listIncidents listed
  rw [if_neg hvalid]
  congr 3
  refine List.filter_congr fun i _ => ?_
  rw [Bool.eq_iff_iff, decide_eq_true_eq]
  unfold Query.admits
  rw [Bool.and_eq_true]
  cases q.state <;> cases q.since <;> simp

/-- Up to the last revision the latest bodies are the rows. -/
theorem latest_bodies (hl : Ledgered t) :
    ((latest t.transitions (maxRevision t.transitions)).map (·.body)).Perm t.incidents := by
  have hids : ∀ x ∈ latest t.transitions (maxRevision t.transitions),
      x.body.incidentId = x.incidentId := fun x hx => (hl.owned x (mem_latest.mp hx).1).1
  have hnodup : ((latest t.transitions (maxRevision t.transitions)).map (·.body)).Nodup := by
    refine List.Nodup.of_map (·.incidentId) ?_
    rw [List.map_map, List.map_congr_left (g := (·.incidentId)) hids]
    exact nodup_latest hl.ordered _
  refine (List.perm_ext_iff_of_nodup hnodup (List.Nodup.of_map _ hl.ids)).mpr fun i => ?_
  rw [List.mem_map]
  constructor
  · rintro ⟨x, hx, rfl⟩
    obtain ⟨hmem, hw, hmax⟩ := mem_latest.mp hx
    obtain ⟨hbody, i, hi, hid⟩ := hl.owned x hmem
    obtain ⟨y, ⟨hy, hymax⟩, hyid, rfl⟩ := hl.current i hi
    have heq := hyid.trans hid
    have hsame := ordered_unique hl.ordered hy hmem
      (le_antisymm (hmax y hy heq (revision_le_max hy)) (hymax x hmem heq.symm))
    exact hsame ▸ hi
  · intro hi
    obtain ⟨x, ⟨hx, hmax⟩, -, hbody⟩ := hl.current i hi
    exact ⟨x, mem_latest.mpr ⟨hx, revision_le_max hx, fun u hu hid _ => hmax u hu hid⟩, hbody⟩

theorem selected_eq_listed (hl : Ledgered t) :
    selected t.transitions (maxRevision t.transitions) q none = listed t q := by
  have hadmits : ((latest t.transitions (maxRevision t.transitions)).filter fun x =>
      q.admits x.body && (none : Option Nat).all fun l => decide (l < x.revision)).map (·.body) =
      ((latest t.transitions (maxRevision t.transitions)).map (·.body)).filter q.admits := by
    rw [List.filter_map]
    congr 1
    exact List.filter_congr fun x _ => Bool.and_true _
  rw [selected_eq, hadmits, listed]
  have hperm := (latest_bodies hl).filter q.admits
  refine (mergeSort_eq_of_perm ?_ hperm.symm).symm
  exact hl.ids.sublist (List.filter_sublist.map _)

end OufGateway.Owner
