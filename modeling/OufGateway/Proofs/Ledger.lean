import Mathlib
import OufGateway.Lib.Trace
import OufGateway.Lib.JsonParse
import OufGateway.Ref.Incidents
import OufGateway.Ref.History
import OufGateway.Proofs.Lifecycle

/-!
# The ledger is the table

Two steps. On decoded bodies, every write appends what it changed: the row a
trigger sees goes behind the older ones with a revision above theirs, so the row of
an incident with the highest revision is the row the table has. Text comes second.
The file holds the JSON two different writers made, and both are read back as the
sixteen fields by the round trip of the JSON library; `Reads` says that of a file
and the tables it stands for, and every write keeps it.
-/

namespace OufGateway.Incidents

open Lib

variable {t t' : Tables} {f : File} {tr : List Committed} {i row : Incident}

/-! ## Revisions -/

theorem foldl_max_snoc (ns : List Nat) (n m : Nat) :
    (ns ++ [n]).foldl max m = max (ns.foldl max m) n := by
  rw [List.foldl_append]
  rfl

theorem le_foldl_max (ns : List Nat) : ∀ n ∈ ns, n ≤ ns.foldl max 0 := by
  induction ns using List.reverseRecOn with
  | nil => simp
  | append_singleton ns m ih =>
      intro n hn
      rw [foldl_max_snoc]
      rcases List.mem_append.mp hn with hn | hn
      · exact (ih n hn).trans (le_max_left _ _)
      · rw [List.mem_singleton.mp hn]
        exact le_max_right _ _

theorem revision_le_max {ts : List Transition} {x : Transition} (h : x ∈ ts) :
    x.revision ≤ maxRevision ts :=
  le_foldl_max _ _ (List.mem_map_of_mem h)

/-! ## The decoded ledger -/

/-- The transition of an incident with the highest revision. -/
def Latest (ts : List Transition) (x : Transition) : Prop :=
  x ∈ ts ∧ ∀ y ∈ ts, y.incidentId = x.incidentId → y.revision ≤ x.revision

/-- The ledger is in order, and its latest transition of `i` is `i`. -/
def Current (t : Tables) (i : Incident) : Prop :=
  ∃ x, Latest t.transitions x ∧ x.incidentId = i.incidentId ∧ x.body = i

def Ordered (ts : List Transition) : Prop := ts.Pairwise fun x y => x.revision < y.revision

theorem ordered_append (h : Ordered t.transitions) : Ordered (t.append row).transitions := by
  unfold Ordered at *
  show (t.transitions ++ [_]).Pairwise _
  rw [List.pairwise_append]
  refine ⟨h, List.pairwise_singleton _ _, fun x hx y hy => ?_⟩
  rw [List.mem_singleton.mp hy]
  exact Nat.lt_succ_of_le (revision_le_max hx)

theorem mem_append {x : Transition} : x ∈ (t.append row).transitions ↔
    x ∈ t.transitions ∨ x = ⟨maxRevision t.transitions + 1, row.incidentId, row⟩ := by
  show x ∈ t.transitions ++ [_] ↔ _
  rw [List.mem_append, List.mem_singleton]

theorem current_append_self : Current (t.append row) row := by
  refine ⟨⟨maxRevision t.transitions + 1, row.incidentId, row⟩,
    ⟨mem_append.mpr (Or.inr rfl), fun y hy _ => ?_⟩, rfl, rfl⟩
  rcases mem_append.mp hy with hy | rfl
  · exact Nat.le_succ_of_le (revision_le_max hy)
  · exact le_rfl

theorem current_append_other (h : Current t i) (hne : i.incidentId ≠ row.incidentId) :
    Current (t.append row) i := by
  obtain ⟨x, ⟨hx, hmax⟩, hid, hbody⟩ := h
  refine ⟨x, ⟨mem_append.mpr (Or.inl hx), fun y hy heq => ?_⟩, hid, hbody⟩
  rcases mem_append.mp hy with hy | rfl
  · exact hmax y hy heq
  · exact absurd (hid.symm.trans heq.symm) hne

/-- Only the ledger counts for `Current`. -/
theorem current_congr (ht : t.transitions = t'.transitions) (h : Current t i) : Current t' i := by
  obtain ⟨x, hx, hid, hbody⟩ := h
  exact ⟨x, ht ▸ hx, hid, hbody⟩

/-- The tables from the first start on. -/
structure Ledgered (t : Tables) : Prop extends Tables.Keyed t where
  started : t.baseline.isSome
  ordered : Ordered t.transitions
  current : ∀ i ∈ t.incidents, Current t i
  owned : ∀ x ∈ t.transitions, x.body.incidentId = x.incidentId ∧
    ∃ i ∈ t.incidents, i.incidentId = x.incidentId

/-- The step lemma: a write keeps the ledger the table, and appends one
transition for every row it writes. -/
theorem ledgered_wrote {es : List Committed} (h : Wrote t t' es) (hl : Ledgered t) :
    Ledgered t' ∧ t'.transitions.length = t.transitions.length + es.length := by
  have hk := keyed_wrote h hl.toKeyed
  cases h with
  | nothing => exact ⟨hl, rfl⟩
  | baseline now h =>
      have hstarted := hl.started
      rw [h] at hstarted
      cases hstarted
  | inserted e hs hop hone hnew hid =>
      refine ⟨⟨hk, hl.started, ordered_append hl.ordered, fun i hi => ?_, fun x hx => ?_⟩,
        by simp [Tables.append]⟩
      · rcases List.mem_append.mp hi with hi | hi
        · exact current_append_other (current_congr rfl (hl.current i hi)) (hid i hi)
        · rw [List.mem_singleton.mp hi]
          exact current_append_self
      · rcases mem_append.mp hx with hx | rfl
        · obtain ⟨hbody, i, hi, hid⟩ := hl.owned x hx
          exact ⟨hbody, i, List.mem_append_left _ hi, hid⟩
        · exact ⟨rfl, e.row, List.mem_append_right _ (List.mem_singleton_self _), rfl⟩
  | replaced e old hs hold hf =>
      have hmem := fun i => mem_replace (i := i) hold hs.key
      refine ⟨⟨hk, hl.started, ordered_append hl.ordered, fun i hi => ?_, fun x hx => ?_⟩,
        by simp [Tables.replace, Tables.append]⟩
      · rcases (hmem i).mp hi with rfl | ⟨hi', hne⟩
        · exact current_append_self
        · refine current_append_other (current_congr rfl (hl.current i hi')) fun heq => hne ?_
          have hrow := (hmem e.row).mpr (Or.inl rfl)
          rw [List.inj_on_of_nodup_map hk.ids hi hrow heq]
          exact hs.key
      · rcases mem_append.mp hx with hx | rfl
        · obtain ⟨hbody, i, hi, hid⟩ := hl.owned x hx
          refine ⟨hbody, ?_⟩
          by_cases heq : i.dedupKey = e.dedupKey
          · have hi' := findKey_of_mem hl.keys hi
            rw [heq, hold] at hi'
            refine ⟨e.row, (hmem _).mpr (Or.inl rfl), ?_⟩
            rw [hf.continues.id, Option.some.inj hi']
            exact hid
          · exact ⟨i, (hmem i).mpr (Or.inr ⟨hi, heq⟩), hid⟩
        · exact ⟨rfl, e.row, (hmem _).mpr (Or.inl rfl), rfl⟩

/-- A write appends the transition of one row, and the rows of the other incidents were
there before it. -/
theorem wrote_last {es : List Committed} (h : Wrote t t' es)
    (hl : Ledgered t) :
    t' = t ∨ ∃ row : Incident,
      t'.transitions = (t.append row).transitions ∧
      ∀ i ∈ t'.incidents, i.incidentId ≠ row.incidentId → i ∈ t.incidents := by
  cases h with
  | nothing => exact Or.inl rfl
  | baseline now h =>
      have hstarted := hl.started
      rw [h] at hstarted
      cases hstarted
  | inserted e hs hop hone hnew hid =>
      refine Or.inr ⟨e.row, rfl, fun i hi hne => ?_⟩
      rcases List.mem_append.mp hi with hi | hi
      · exact hi
      · exact absurd (congrArg _ (List.mem_singleton.mp hi)) hne
  | replaced e old hs hold hf =>
      refine Or.inr ⟨e.row, rfl, fun i hi hne => ?_⟩
      rcases (mem_replace hold hs.key).mp hi with rfl | ⟨hi, -⟩
      · exact absurd rfl hne
      · exact hi

/-! ## The baseline -/

/-- The rows that are there go to the ledger one after the other. -/
theorem baseline_rows (rows : List Incident) : ∀ t : Tables,
    (rows.map Incident.incidentId).Nodup → Ordered t.transitions →
    (∀ x ∈ t.transitions, x.body.incidentId = x.incidentId) →
      Ordered (rows.foldl Tables.append t).transitions ∧
      (∀ i ∈ rows, Current (rows.foldl Tables.append t) i) ∧
      (∀ i, Current t i → i.incidentId ∉ rows.map Incident.incidentId →
        Current (rows.foldl Tables.append t) i) ∧
      (∀ x ∈ (rows.foldl Tables.append t).transitions, x.body.incidentId = x.incidentId ∧
        (x ∈ t.transitions ∨ ∃ i ∈ rows, i.incidentId = x.incidentId)) ∧
      (rows.foldl Tables.append t).transitions.length = t.transitions.length + rows.length := by
  induction rows with
  | nil =>
      intro t _ ho hb
      exact ⟨ho, by simp, fun i h _ => h, fun x hx => ⟨hb x hx, Or.inl hx⟩, rfl⟩
  | cons row rows ih =>
      intro t hn ho hb
      rw [List.map_cons, List.nodup_cons] at hn
      have hb' : ∀ x ∈ (t.append row).transitions, x.body.incidentId = x.incidentId := by
        intro x hx
        rcases mem_append.mp hx with hx | rfl
        · exact hb x hx
        · rfl
      obtain ⟨hord, hcur, hkeep, hown, hlen⟩ := ih (t.append row) hn.2 (ordered_append ho) hb'
      refine ⟨hord, fun i hi => ?_, fun i hi hni => ?_, fun x hx => ?_, ?_⟩
      · rcases List.mem_cons.mp hi with rfl | hi
        · exact hkeep _ current_append_self hn.1
        · exact hcur i hi
      · rw [List.map_cons, List.mem_cons, not_or] at hni
        exact hkeep i (current_append_other hi hni.1) hni.2
      · obtain ⟨hbody, hx⟩ := hown x hx
        refine ⟨hbody, ?_⟩
        rcases hx with hx | ⟨i, hi, hid⟩
        · rcases mem_append.mp hx with hx | rfl
          · exact Or.inl hx
          · exact Or.inr ⟨row, List.mem_cons_self .., rfl⟩
        · exact Or.inr ⟨i, List.mem_cons_of_mem _ hi, hid⟩
      · rw [List.foldl_cons, hlen]
        simp only [Tables.append, List.length_append, List.length_cons, List.length_nil]
        omega

/-- The decoded tables of a file from before the ledger. -/
def Inventory.tables (v : Inventory) : Tables := ⟨v.rows, none, []⟩

theorem ledgered_start (v : Inventory) (now : String) :
    Ledgered (startHistory v.tables now) ∧
      (startHistory v.tables now).transitions.length = v.rows.length := by
  have hrows := foldl_append_incidents v.rows ⟨v.rows, some now, []⟩
  obtain ⟨hord, hcur, -, hown, hlen⟩ := baseline_rows v.rows ⟨v.rows, some now, []⟩ v.ids
    List.Pairwise.nil (by simp)
  show Ledgered (v.rows.foldl Tables.append ⟨v.rows, some now, []⟩) ∧
    (v.rows.foldl Tables.append ⟨v.rows, some now, []⟩).transitions.length = _
  refine ⟨⟨⟨?_, ?_⟩, ?_, hord, ?_, fun x hx => ?_⟩, ?_⟩
  · rw [hrows]
    exact v.keys
  · rw [hrows]
    exact v.ids
  · rw [foldl_append_baseline]
    rfl
  · rw [hrows]
    exact hcur
  · obtain ⟨hbody, hx⟩ := hown x hx
    rw [hrows]
    exact ⟨hbody, hx.resolve_left List.not_mem_nil⟩
  · rw [hlen]
    exact Nat.zero_add _

/-! ## The text of the bodies -/

theorem plain_jsonObject : jsonObject.Plain where
  unsorted := rfl
  item := ⟨[], by simp [jsonObject], by simp⟩
  key := ⟨[], by simp [jsonObject], by simp⟩

theorem plain_dumps : Json.Format.Plain {} where
  unsorted := rfl
  item := ⟨[' '], by simp, by simp [Json.blank]⟩
  key := ⟨[' '], by simp, by simp [Json.blank]⟩

theorem plain_ofOption (s : Option String) : Json.plain (.ofOption s) = true := by
  cases s <;> rfl

theorem plain_fields (i : Incident) : Json.plain (.obj i.fields) = true := by
  have hkeys : (i.fields.map (·.1)).Nodup := by
    simp only [Incident.fields, List.map_cons, List.map_nil]
    decide
  have hvalues : Json.plainMembers i.fields = true := by
    simp only [Incident.fields, Json.plainMembers, Json.plain, plain_ofOption, Bool.and_self]
  simp only [Json.plain, decide_eq_true hkeys, hvalues, Bool.and_self]

/-- Whoever wrote a body, it reads back as the sixteen fields. -/
theorem loads_body (w : Write) (i : Incident) : Json.loads (w.body i) = some (.obj i.fields) := by
  cases w with
  | startHistory now => exact Json.loads_dumps plain_dumps (plain_fields i)
  | openIncident uuid now a => exact Json.loads_dumps plain_jsonObject (plain_fields i)
  | recovering now key impact => exact Json.loads_dumps plain_jsonObject (plain_fields i)
  | resolveIncident now key impact => exact Json.loads_dumps plain_jsonObject (plain_fields i)

/-! ## The rows a write hands to the ledger -/

theorem foldl_append_bodies (rows : List Incident) (t : Tables) :
    (rows.foldl Tables.append t).transitions.map (·.body) =
      t.transitions.map (·.body) ++ rows := by
  induction rows generalizing t with
  | nil => rw [List.append_nil]; rfl
  | cons row rows ih =>
      rw [List.foldl_cons, ih]
      simp [Tables.append]

/-- No statement of a write reads the ledger, and what the write appends is what it
would put into an empty one. -/
theorem write_rows (t : Tables) (w : Write) :
    t.committed w = (⟨t.incidents, t.baseline, []⟩ : Tables).committed w ∧
      t.write w =
        (((⟨t.incidents, t.baseline, []⟩ : Tables).write w).transitions.map (·.body)).foldl
          Tables.append
          ⟨((⟨t.incidents, t.baseline, []⟩ : Tables).write w).incidents,
            ((⟨t.incidents, t.baseline, []⟩ : Tables).write w).baseline, t.transitions⟩ := by
  obtain ⟨rows, baseline, ledger⟩ := t
  cases w with
  | openIncident uuid now a =>
      simp only [Tables.committed, Tables.write, openIncident, findKey]
      cases Severity.ofText? a.severity with
      | none => exact ⟨rfl, rfl⟩
      | some severity =>
          by_cases hid : a.dedupKey = "" ∨ a.eventType = "" ∨ a.impactSummary = ""
          · simp only [if_pos hid]
            exact ⟨trivial, rfl⟩
          · by_cases hclass : a.visibilityClass ≠ "RESTRICTED_OPERATIONAL"
            · simp only [if_neg hid, if_pos hclass]
              exact ⟨trivial, rfl⟩
            · by_cases huuid : rows.any (·.incidentId = uuid) = true
              · simp only [if_neg hid, if_neg hclass, if_pos huuid]
                exact ⟨trivial, rfl⟩
              · simp only [if_neg hid, if_neg hclass, if_neg huuid]
                cases rows.find? (·.dedupKey = a.dedupKey) <;> exact ⟨rfl, rfl⟩
  | recovering now key impact =>
      simp only [Tables.committed, Tables.write, recovering, findKey]
      cases rows.find? (·.dedupKey = key) <;> exact ⟨rfl, rfl⟩
  | resolveIncident now key impact =>
      simp only [Tables.committed, Tables.write, resolveIncident, findKey]
      cases rows.find? (·.dedupKey = key) <;> exact ⟨rfl, rfl⟩
  | startHistory now =>
      cases baseline with
      | some b => exact ⟨rfl, rfl⟩
      | none =>
          refine ⟨rfl, ?_⟩
          show rows.foldl Tables.append ⟨rows, some now, ledger⟩ =
            ((rows.foldl Tables.append ⟨rows, some now, []⟩).transitions.map (·.body)).foldl
              Tables.append ⟨(rows.foldl Tables.append ⟨rows, some now, []⟩).incidents,
                (rows.foldl Tables.append ⟨rows, some now, []⟩).baseline, ledger⟩
          rw [foldl_append_bodies, foldl_append_incidents, foldl_append_baseline]
          rfl

/-! ## The file and the tables it stands for -/

/-- A stored transition and the decoded one. -/
structure Decodes (e : Entry) (x : Transition) : Prop where
  revision : e.revision = x.revision
  incidentId : e.incidentId = x.incidentId
  body : Json.loads e.body = some (.obj x.body.fields)

structure Reads (f : File) (t : Tables) : Prop where
  incidents : f.incidents = t.incidents
  baseline : f.baseline = t.baseline
  transitions : List.Forall₂ Decodes f.transitions t.transitions

theorem revisions_eq {es : List Entry} {xs : List Transition} (h : List.Forall₂ Decodes es xs) :
    es.map (·.revision) = xs.map (·.revision) := by
  induction h with
  | nil => rfl
  | cons hx _ ih => rw [List.map_cons, List.map_cons, ih, hx.revision]

theorem nextRevision_eq {es : List Entry} {xs : List Transition} (h : List.Forall₂ Decodes es xs) :
    nextRevision es = maxRevision xs + 1 := by
  rw [nextRevision, maxRevision, revisions_eq h]

theorem reads_append (h : Reads f t) (w : Write) (row : Incident) :
    Reads (f.append w.body row) (t.append row) := by
  refine ⟨h.incidents, h.baseline, List.rel_append h.transitions ?_⟩
  exact .cons ⟨nextRevision_eq h.transitions, rfl, loads_body w row⟩ .nil

theorem reads_foldl (w : Write) (rows : List Incident) : ∀ {f : File} {t : Tables}, Reads f t →
    Reads (rows.foldl (File.append w.body) f) (rows.foldl Tables.append t) := by
  induction rows with
  | nil => exact id
  | cons row rows ih => exact fun h => ih (reads_append h w row)

/-- Every write of the file is the write of the tables it stands for. -/
theorem reads_write (h : Reads f t) (w : Write) :
    Reads (f.write w) (t.write w) ∧ f.rows.committed w = t.committed w := by
  obtain ⟨hcom, hwrite⟩ := write_rows t w
  have hrows : f.rows = ⟨t.incidents, t.baseline, []⟩ := by
    rw [File.rows, h.incidents, h.baseline]
  rw [hwrite, hcom, ← hrows]
  exact ⟨reads_foldl w _ ⟨rfl, rfl, h.transitions⟩, rfl⟩

/-! ## Runs -/

theorem prefix_foldl (body : Incident → String) (rows : List Incident) (f : File) :
    f.transitions <+: (rows.foldl (File.append body) f).transitions := by
  induction rows generalizing f with
  | nil => exact List.prefix_rfl
  | cons row rows ih =>
      have hrow : f.transitions <+: (f.append body row).transitions := List.prefix_append _ _
      exact hrow.trans (ih (f.append body row))

theorem prefix_step (f : File) (a : Attempt) :
    f.transitions <+: (history.step f a).transitions := by
  simp only [history]
  split
  · exact prefix_foldl a.write.body ((f.rows.write a.write).transitions.map (·.body))
      ⟨(f.rows.write a.write).incidents, (f.rows.write a.write).baseline, f.transitions⟩
  · exact List.prefix_rfl

/-- Nothing that was in the ledger is changed or removed. -/
theorem prefix_run (f : File) (attempts : List Attempt) :
    f.transitions <+: (history.run f attempts).transitions :=
  history.run_rel (G := fun _ => True) (R := fun f f' => f.transitions <+: f'.transitions)
    (fun _ _ _ => trivial) (fun _ => List.prefix_rfl) List.IsPrefix.trans
    (fun f a _ => prefix_step f a) trivial attempts

/-- A file whose ledger is its table, after so many writes that touched a row. -/
def InStep (n : Nat) (f : File) (tr : List Committed) : Prop :=
  ∃ t, Reads f t ∧ Ledgered t ∧ t.transitions.length = n + tr.length

theorem inStep_step {n : Nat} (h : InStep n f tr) (a : Attempt) :
    InStep n (history.step f a) (tr ++ history.emit f a) := by
  obtain ⟨t, hr, hl, hlen⟩ := h
  simp only [history]
  split
  · obtain ⟨hr', hcom⟩ := reads_write hr a.write
    obtain ⟨hl', hlen'⟩ := ledgered_wrote (write_wrote t a.write) hl
    refine ⟨_, hr', hl', ?_⟩
    rw [hcom, List.length_append]
    omega
  · exact ⟨t, hr, hl, by rw [List.append_nil]; exact hlen⟩

theorem inStep_start (v : Inventory) (start : String) :
    InStep v.rows.length (history.step v.file ⟨.startHistory start, true⟩) [] := by
  obtain ⟨hl, hlen⟩ := ledgered_start v start
  have hr : Reads v.file v.tables := ⟨rfl, rfl, .nil⟩
  exact ⟨_, (reads_write hr (.startHistory start)).1, hl, hlen⟩

theorem inStep_run (v : Inventory) (start : String) (attempts : List Attempt) :
    InStep v.rows.length (history.run v.file (⟨.startHistory start, true⟩ :: attempts))
      (history.trace v.file (⟨.startHistory start, true⟩ :: attempts)) :=
  history.invariant (P := InStep v.rows.length) (inStep_start v start)
    (fun _ _ a h => inStep_step h a) attempts

/-- What a file in step looks like from outside. -/
theorem inStep_reads {n : Nat} (h : InStep n f tr) :
    (∀ i ∈ f.incidents, ∃ e ∈ f.transitions, e.incidentId = i.incidentId ∧
      (∀ e' ∈ f.transitions, e'.incidentId = i.incidentId → e'.revision ≤ e.revision) ∧
      Json.loads e.body = some (.obj i.fields)) ∧
    (∀ e ∈ f.transitions, ∃ i ∈ f.incidents, i.incidentId = e.incidentId) ∧
    (f.transitions.Pairwise fun e e' => e.revision < e'.revision) ∧
    f.transitions.length = n + tr.length := by
  obtain ⟨t, hr, hl, hlen⟩ := h
  have hleft : ∀ {e : Entry}, e ∈ f.transitions → ∃ x ∈ t.transitions, Decodes e x := by
    intro e he
    obtain ⟨k, hk, rfl⟩ := List.mem_iff_getElem.mp he
    have hk' : k < t.transitions.length := hr.transitions.length_eq ▸ hk
    exact ⟨_, List.getElem_mem hk', List.Forall₂.get hr.transitions hk hk'⟩
  have hright : ∀ {x : Transition}, x ∈ t.transitions → ∃ e ∈ f.transitions, Decodes e x := by
    intro x hx
    obtain ⟨k, hk, rfl⟩ := List.mem_iff_getElem.mp hx
    have hk' : k < f.transitions.length := hr.transitions.length_eq ▸ hk
    exact ⟨_, List.getElem_mem hk', List.Forall₂.get hr.transitions hk' hk⟩
  refine ⟨fun i hi => ?_, fun e he => ?_, ?_, ?_⟩
  · rw [hr.incidents] at hi
    obtain ⟨x, ⟨hx, hmax⟩, hid, rfl⟩ := hl.current i hi
    obtain ⟨e, he, hdec⟩ := hright hx
    refine ⟨e, he, hdec.incidentId.trans hid, fun e' he' heq => ?_, hdec.body⟩
    obtain ⟨x', hx', hdec'⟩ := hleft he'
    rw [hdec'.revision, hdec.revision]
    exact hmax x' hx' (hdec'.incidentId.symm.trans (heq.trans hid.symm))
  · obtain ⟨x, hx, hdec⟩ := hleft he
    obtain ⟨-, i, hi, hid⟩ := hl.owned x hx
    exact ⟨i, hr.incidents ▸ hi, hid.trans hdec.incidentId.symm⟩
  · have hord : (t.transitions.map (·.revision)).Pairwise (· < ·) :=
      List.pairwise_map.mpr hl.ordered
    rw [← revisions_eq hr.transitions] at hord
    exact List.pairwise_map.mp hord
  · rw [hr.transitions.length_eq, hlen]

/-- From the first start over any rows, whatever attempts commit or are rolled back and
whenever the store is started again: the highest transition of every incident reads
back as the sixteen fields of its row, and only incidents have transitions; revisions
rise in the order of commits, and what the ledger once held it holds unchanged; an
attempt that commits no row leaves the ledger as it was; and there is one transition
for every baseline row and every committed write of a row. -/
theorem ledger_is_table (v : Inventory) (start : String) (attempts : List Attempt) :
    let f := history.run v.file (⟨.startHistory start, true⟩ :: attempts)
    let tr := history.trace v.file (⟨.startHistory start, true⟩ :: attempts)
    (∀ i ∈ f.incidents, ∃ e ∈ f.transitions, e.incidentId = i.incidentId ∧
      (∀ e' ∈ f.transitions, e'.incidentId = i.incidentId → e'.revision ≤ e.revision) ∧
      Json.loads e.body = some (.obj i.fields)) ∧
    (∀ e ∈ f.transitions, ∃ i ∈ f.incidents, i.incidentId = e.incidentId) ∧
    (f.transitions.Pairwise fun e e' => e.revision < e'.revision) ∧
    (∀ later, f.transitions <+: (history.run f later).transitions) ∧
    (∀ a, history.emit f a = [] → (history.step f a).transitions = f.transitions) ∧
    f.transitions.length = v.rows.length + tr.length := by
  intro f tr
  have h : InStep v.rows.length f tr := inStep_run v start attempts
  obtain ⟨hlatest, howned, hord, hlen⟩ := inStep_reads h
  refine ⟨hlatest, howned, hord, prefix_run f, fun a ha => ?_, hlen⟩
  obtain ⟨-, -, -, hlen'⟩ := inStep_reads (inStep_step h a)
  rw [ha, List.append_nil] at hlen'
  exact ((prefix_step f a).eq_of_length (hlen.trans hlen'.symm)).symm

end OufGateway.Incidents
