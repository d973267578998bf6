import Mathlib
import OufGateway.Lib.Trace
import OufGateway.Ref.Incidents
import OufGateway.Ref.History

/-!
# One incident per cause

What a write can do to the tables is said once, by `Wrote`: nothing, admit the
baseline, insert the first row of a key, or replace the row a key has. The row it
writes is `Sound`, which is what its own call makes of it, and on a key that had a
row it `Follows` the old one, which is what the upsert and the two updates leave
alone or may only raise.

The invariant of a run pairs the table with the calls committed so far: a row is
the one its key's last call returned, and it has counted the calls that opened it.
What never changes about an incident is a relation between the two ends of a run.
-/

namespace OufGateway.Incidents

open Lib

variable {t t' : Tables} {tr : List Committed} {e : Committed} {old i j : Incident} {key : String}

/-! ## What one write does -/

/-- What a call makes of the row it returns. -/
structure Committed.Sound (e : Committed) : Prop where
  key : e.row.dedupKey = e.dedupKey
  resolved : e.row.resolvedAt.isSome ↔ e.row.lifecycleState = .resolved
  resolvedAt : ∀ r ∈ e.row.resolvedAt, e.row.lastSeenAt ≤ r
  action : e.operation ≠ .openIncident → e.row.actionRequired = false

/-- What becomes of a row in time. -/
structure Incident.Continues (i j : Incident) : Prop where
  key : j.dedupKey = i.dedupKey
  id : j.incidentId = i.incidentId
  first : j.firstSeenAt = i.firstSeenAt
  last : i.lastSeenAt ≤ j.lastSeenAt
  correlation : i.correlationId.isSome → j.correlationId.isSome
  endpoint : i.endpointRef.isSome → j.endpointRef.isSome

/-- A call on a key that has a row. -/
structure Committed.Follows (e : Committed) (old : Incident) : Prop where
  continues : old.Continues e.row
  count : e.row.occurrenceCount =
    old.occurrenceCount + if e.operation = .openIncident then 1 else 0

inductive Wrote (t : Tables) : Tables → List Committed → Prop
  | nothing : Wrote t t []
  | baseline (now : String) (h : t.baseline = none) :
      Wrote t (t.incidents.foldl Tables.append { t with baseline := some now }) []
  | inserted (e : Committed) (hs : e.Sound) (hop : e.operation = .openIncident)
      (hone : e.row.occurrenceCount = 1) (hnew : findKey t e.dedupKey = none)
      (hid : ∀ i ∈ t.incidents, i.incidentId ≠ e.row.incidentId) :
      Wrote t (Tables.append { t with incidents := t.incidents ++ [e.row] } e.row) [e]
  | replaced (e : Committed) (old : Incident) (hs : e.Sound)
      (hold : findKey t e.dedupKey = some old) (hf : e.Follows old) :
      Wrote t (t.replace e.row) [e]

theorem Wrote.insert {key : String} {row : Incident} (hs : Committed.Sound ⟨.openIncident, key, row⟩)
    (hone : row.occurrenceCount = 1) (hnew : findKey t key = none)
    (hid : ∀ i ∈ t.incidents, i.incidentId ≠ row.incidentId) :
    Wrote t (Tables.append { t with incidents := t.incidents ++ [row] } row)
      [⟨.openIncident, key, row⟩] :=
  .inserted ⟨.openIncident, key, row⟩ hs rfl hone hnew hid

theorem Wrote.replace {op : Operation} {key : String} {row : Incident}
    (hold : findKey t key = some old) (hs : Committed.Sound ⟨op, key, row⟩)
    (hf : Committed.Follows ⟨op, key, row⟩ old) : Wrote t (t.replace row) [⟨op, key, row⟩] :=
  .replaced ⟨op, key, row⟩ old hs hold hf

theorem findKey_key (h : findKey t key = some i) : i.dedupKey = key := by
  simpa using List.find?_some h

theorem findKey_mem (h : findKey t key = some i) : i ∈ t.incidents :=
  List.mem_of_find?_eq_some h

theorem isSome_or {α : Type} {a b : Option α} (h : b.isSome) : (a.or b).isSome := by
  cases a with
  | none => exact h
  | some a => rfl

/-- What a call returns that leaves its incident unresolved. -/
theorem sound_of_unresolved (hkey : e.row.dedupKey = e.dedupKey) (hnone : e.row.resolvedAt = none)
    (hstate : e.row.lifecycleState ≠ .resolved)
    (hact : e.operation ≠ .openIncident → e.row.actionRequired = false) : e.Sound where
  key := hkey
  resolved := by simp [hnone, hstate]
  resolvedAt := by simp [hnone]
  action := hact

theorem openIncident_wrote {uuid now : String} {a : OpenArgs} {row : Incident}
    (h : openIncident t uuid now a = .ok (t', row)) :
    Wrote t t' [⟨.openIncident, a.dedupKey, row⟩] := by
  unfold openIncident at h
  split at h
  · cases h
  · split at h
    · cases h
    · split at h
      · cases h
      · split at h
        · cases h
        · next hid =>
          rw [List.any_eq_true] at hid
          have hfresh : ∀ i ∈ t.incidents, i.incidentId ≠ uuid := fun i hi heq =>
            hid ⟨i, hi, by simpa using heq⟩
          split at h
          · next hnew =>
            cases h
            exact .insert (sound_of_unresolved rfl rfl (by simp) fun h => absurd rfl h) rfl hnew hfresh
          · next old hold =>
            cases h
            have hkey := findKey_key hold
            refine .replace hold ?_ ?_
            · exact sound_of_unresolved hkey rfl (by simp) fun h => absurd rfl h
            · exact ⟨⟨rfl, rfl, rfl, le_max_left _ _, isSome_or, isSome_or⟩, rfl⟩

theorem recovering_wrote (now key impact : String) :
    Wrote t (recovering t now key impact).1
      ((recovering t now key impact).2.toList.map (⟨.recovering, key, ·⟩)) := by
  unfold recovering
  split
  · exact .nothing
  · next old hold =>
    have hkey := findKey_key hold
    refine .replace hold ?_ ?_
    · exact sound_of_unresolved hkey rfl (by simp) fun _ => rfl
    · exact ⟨⟨rfl, rfl, rfl, le_max_left _ _, fun h => h, fun h => h⟩, rfl⟩

theorem resolveIncident_wrote (now key impact : String) :
    Wrote t (resolveIncident t now key impact).1
      ((resolveIncident t now key impact).2.toList.map (⟨.resolveIncident, key, ·⟩)) := by
  unfold resolveIncident
  split
  · exact .nothing
  · next old hold =>
    have hkey := findKey_key hold
    refine .replace hold ?_ ?_
    · exact ⟨hkey, ⟨fun _ => rfl, fun _ => rfl⟩, fun r hr => le_of_eq (Option.some.inj hr),
        fun _ => rfl⟩
    · exact ⟨⟨rfl, rfl, rfl, le_max_left _ _, fun h => h, fun h => h⟩, rfl⟩

/-- What one write does, whatever it is. -/
theorem write_wrote (t : Tables) (w : Write) : Wrote t (t.write w) (t.committed w) := by
  cases w with
  | openIncident uuid now a =>
      simp only [Tables.write, Tables.committed]
      cases ho : openIncident t uuid now a with
      | error x => exact .nothing
      | ok r => exact openIncident_wrote ho
  | recovering now key impact => exact recovering_wrote now key impact
  | resolveIncident now key impact => exact resolveIncident_wrote now key impact
  | startHistory now =>
      show Wrote t (startHistory t now) []
      unfold startHistory
      split
      · exact .nothing
      · next h => exact .baseline now h

/-! ## The incident table after a write -/

theorem foldl_append_incidents (rows : List Incident) (t : Tables) :
    (rows.foldl Tables.append t).incidents = t.incidents := by
  induction rows generalizing t with
  | nil => rfl
  | cons row rows ih => rw [List.foldl_cons, ih]; rfl

theorem foldl_append_baseline (rows : List Incident) (t : Tables) :
    (rows.foldl Tables.append t).baseline = t.baseline := by
  induction rows generalizing t with
  | nil => rfl
  | cons row rows ih => rw [List.foldl_cons, ih]; rfl

theorem findKey_of_mem (hk : (t.incidents.map Incident.dedupKey).Nodup) (hi : i ∈ t.incidents) :
    findKey t i.dedupKey = some i := by
  cases h : findKey t i.dedupKey with
  | none =>
      rw [findKey, List.find?_eq_none] at h
      exact absurd (decide_eq_true rfl) (h i hi)
  | some j =>
      rw [List.inj_on_of_nodup_map hk (findKey_mem h) hi (findKey_key h)]

/-- The rows after the row of a key was replaced. -/
theorem mem_replace {row : Incident} (hold : findKey t key = some old)
    (hkey : row.dedupKey = key) :
    i ∈ (t.replace row).incidents ↔ i = row ∨ (i ∈ t.incidents ∧ i.dedupKey ≠ key) := by
  show i ∈ t.incidents.map _ ↔ _
  rw [List.mem_map]
  constructor
  · intro ⟨x, hx, hxi⟩
    split at hxi
    · exact Or.inl hxi.symm
    · next hne => exact Or.inr (hxi ▸ ⟨hx, hkey ▸ hne⟩)
  · intro h
    rcases h with rfl | ⟨hi, hne⟩
    · exact ⟨old, findKey_mem hold, if_pos ((findKey_key hold).trans hkey.symm)⟩
    · exact ⟨i, hi, if_neg (hkey.symm ▸ hne)⟩

theorem map_replace {α : Type} {row : Incident} (g : Incident → α)
    (h : ∀ i ∈ t.incidents, i.dedupKey = row.dedupKey → g row = g i) :
    (t.replace row).incidents.map g = t.incidents.map g := by
  show (t.incidents.map _).map g = _
  rw [List.map_map]
  refine List.map_congr_left fun i hi => ?_
  simp only [Function.comp]
  split
  · next heq => exact h i hi heq
  · rfl

/-- Both keys of the table. -/
structure Tables.Keyed (t : Tables) : Prop where
  keys : (t.incidents.map Incident.dedupKey).Nodup
  ids : (t.incidents.map Incident.incidentId).Nodup

theorem nodup_snoc {α β : Type} {l : List α} {g : α → β} {a : α} (h : (l.map g).Nodup)
    (hnew : ∀ b ∈ l, g b ≠ g a) : ((l ++ [a]).map g).Nodup := by
  rw [List.map_append, List.nodup_append]
  refine ⟨h, List.nodup_singleton _, fun x hx y hy => ?_⟩
  obtain ⟨b, hb, rfl⟩ := List.mem_map.mp hx
  rw [List.mem_singleton.mp hy]
  exact hnew b hb

theorem keyed_wrote {es : List Committed} (h : Wrote t t' es) (hk : t.Keyed) : t'.Keyed := by
  cases h with
  | nothing => exact hk
  | baseline now h => exact ⟨by rw [foldl_append_incidents]; exact hk.keys,
      by rw [foldl_append_incidents]; exact hk.ids⟩
  | inserted e hs hop hone hnew hid =>
      refine ⟨nodup_snoc hk.keys fun i hi heq => ?_, nodup_snoc hk.ids hid⟩
      rw [findKey, List.find?_eq_none] at hnew
      exact hnew i hi (by simpa using heq.trans hs.key)
  | replaced e old hs hold hf =>
      refine ⟨?_, ?_⟩
      · rw [map_replace _ fun i _ heq => heq.symm]
        exact hk.keys
      · rw [map_replace _ fun i hi heq => ?_]
        · exact hk.ids
        · have hi' := findKey_of_mem hk.keys hi
          rw [heq, hs.key, hold] at hi'
          rw [← Option.some.inj hi']
          exact hf.continues.id

/-! ## The calls of a key -/

/-- The committed calls for a key, in their order. -/
def calls (key : String) (tr : List Committed) : List Committed := tr.filter (·.dedupKey = key)

/-- How many of them opened the incident. -/
def openings (key : String) (tr : List Committed) : Nat :=
  (calls key tr).countP (·.operation = .openIncident)

theorem calls_snoc_self : calls e.dedupKey (tr ++ [e]) = calls e.dedupKey tr ++ [e] := by
  simp [calls, List.filter_append]

theorem calls_snoc_other (h : key ≠ e.dedupKey) : calls key (tr ++ [e]) = calls key tr := by
  simp [calls, List.filter_append, h.symm]

theorem openings_snoc_self : openings e.dedupKey (tr ++ [e]) =
    openings e.dedupKey tr + if e.operation = .openIncident then 1 else 0 := by
  unfold openings
  rw [calls_snoc_self, List.countP_append, List.countP_singleton]
  simp

/-- The table against the calls committed so far. -/
structure Lives (t : Tables) (tr : List Committed) : Prop extends Tables.Keyed t where
  sound : ∀ e ∈ tr, e.Sound
  last : ∀ i ∈ t.incidents, (calls i.dedupKey tr).getLast?.map Committed.row = some i
  counted : ∀ i ∈ t.incidents, i.occurrenceCount = openings i.dedupKey tr
  unseen : ∀ key, findKey t key = none → calls key tr = []

theorem lives_empty : Lives Tables.empty [] where
  keys := List.nodup_nil
  ids := List.nodup_nil
  sound := by simp
  last := by simp [Tables.empty]
  counted := by simp [Tables.empty]
  unseen := fun _ _ => rfl

theorem sound_snoc (h : ∀ e ∈ tr, e.Sound) (he : e.Sound) : ∀ x ∈ tr ++ [e], x.Sound := by
  intro x hx
  rcases List.mem_append.mp hx with hx | hx
  · exact h x hx
  · exact List.mem_singleton.mp hx ▸ he

/-- The step lemma: a write keeps the table what its calls say. -/
theorem lives_wrote {es : List Committed} (h : Wrote t t' es) (hl : Lives t tr) :
    Lives t' (tr ++ es) := by
  have hk := keyed_wrote h hl.toKeyed
  cases h with
  | nothing => rwa [List.append_nil]
  | baseline now h =>
      rw [List.append_nil]
      have hrows := foldl_append_incidents t.incidents { t with baseline := some now }
      refine ⟨hk, hl.sound, ?_, ?_, fun key hn => hl.unseen key ?_⟩
      · rw [hrows]
        exact hl.last
      · rw [hrows]
        exact hl.counted
      · rwa [findKey, hrows] at hn
  | inserted e hs hop hone hnew hid =>
      have hnone := hl.unseen e.dedupKey hnew
      have hother : ∀ i ∈ t.incidents, i.dedupKey ≠ e.dedupKey := by
        intro i hi heq
        have hi' := findKey_of_mem hl.keys hi
        rw [heq, hnew] at hi'
        cases hi'
      refine ⟨hk, sound_snoc hl.sound hs, fun i hi => ?_, fun i hi => ?_, fun key hn => ?_⟩
      · rcases List.mem_append.mp hi with hi | hi
        · rw [calls_snoc_other (hother i hi)]
          exact hl.last i hi
        · rw [List.mem_singleton.mp hi, hs.key, calls_snoc_self, List.getLast?_concat]
          rfl
      · rcases List.mem_append.mp hi with hi | hi
        · rw [openings, calls_snoc_other (hother i hi)]
          exact hl.counted i hi
        · rw [List.mem_singleton.mp hi, hs.key, openings_snoc_self, openings, hnone, hone, hop]
          rfl
      · rw [findKey] at hn
        have hsplit := List.find?_eq_none.mp hn
        have hne : key ≠ e.dedupKey := by
          intro heq
          exact hsplit e.row (List.mem_append_right _ (List.mem_singleton_self _))
            (by simpa using hs.key.trans heq.symm)
        rw [calls_snoc_other hne]
        refine hl.unseen key ?_
        rw [findKey, List.find?_eq_none]
        exact fun i hi => hsplit i (List.mem_append_left _ hi)
  | replaced e old hs hold hf =>
      have hmem := fun i => mem_replace (i := i) hold hs.key
      refine ⟨hk, sound_snoc hl.sound hs, fun i hi => ?_, fun i hi => ?_, fun key hn => ?_⟩
      · rcases (hmem i).mp hi with rfl | ⟨hi, hne⟩
        · rw [hs.key, calls_snoc_self, List.getLast?_concat]
          rfl
        · rw [calls_snoc_other hne]
          exact hl.last i hi
      · rcases (hmem i).mp hi with rfl | ⟨hi, hne⟩
        · have hold' := hl.counted old (findKey_mem hold)
          rw [findKey_key hold] at hold'
          rw [hs.key, openings_snoc_self, hf.count, hold']
        · rw [openings, calls_snoc_other hne]
          exact hl.counted i hi
      · rw [findKey] at hn
        have hsplit := List.find?_eq_none.mp hn
        have hne : key ≠ e.dedupKey := by
          intro heq
          exact hsplit e.row ((hmem _).mpr (Or.inl rfl)) (by simpa using hs.key.trans heq.symm)
        rw [calls_snoc_other hne]
        refine hl.unseen key ?_
        rw [findKey, List.find?_eq_none]
        intro i hi heq
        have hik : i.dedupKey = key := by simpa using heq
        exact hsplit i ((hmem i).mpr (Or.inr ⟨hi, fun h => hne (hik.symm.trans h)⟩)) heq

/-! ## Runs -/

theorem lives_run (ws : List Write) :
    Lives (store.run Tables.empty ws) (store.trace Tables.empty ws) :=
  store.invariant (P := Lives) lives_empty (fun t _ w h => lives_wrote (write_wrote t w) h) ws

theorem Incident.Continues.refl (i : Incident) : i.Continues i :=
  ⟨rfl, rfl, rfl, le_rfl, fun h => h, fun h => h⟩

theorem Incident.Continues.trans {k : Incident} (h : i.Continues j) (h' : j.Continues k) :
    i.Continues k :=
  ⟨h'.key.trans h.key, h'.id.trans h.id, h'.first.trans h.first, h.last.trans h'.last,
    fun hi => h'.correlation (h.correlation hi), fun hi => h'.endpoint (h.endpoint hi)⟩

theorem continues_wrote {es : List Committed} (h : Wrote t t' es) (hk : t.Keyed)
    (hi : i ∈ t.incidents) : ∃ j ∈ t'.incidents, i.Continues j := by
  cases h with
  | nothing => exact ⟨i, hi, .refl i⟩
  | baseline now h => exact ⟨i, by rw [foldl_append_incidents]; exact hi, .refl i⟩
  | inserted e hs hop hone hnew hid => exact ⟨i, List.mem_append_left _ hi, .refl i⟩
  | replaced e old hs hold hf =>
      by_cases heq : i.dedupKey = e.dedupKey
      · have hi' := findKey_of_mem hk.keys hi
        rw [heq, hold] at hi'
        obtain rfl : old = i := Option.some.inj hi'
        exact ⟨e.row, (mem_replace hold hs.key).mpr (Or.inl rfl), hf.continues⟩
      · exact ⟨i, (mem_replace hold hs.key).mpr (Or.inr ⟨hi, heq⟩), .refl i⟩

/-- What a later state has made of every incident. -/
theorem continues_run (hk : t.Keyed) (ws : List Write) (hi : i ∈ t.incidents) :
    ∃ j ∈ (store.run t ws).incidents, i.Continues j := by
  refine store.run_rel (G := Tables.Keyed)
    (R := fun t t' => ∀ i ∈ t.incidents, ∃ j ∈ t'.incidents, i.Continues j)
    (fun t w => keyed_wrote (write_wrote t w)) (fun t i hi => ⟨i, hi, .refl i⟩)
    (fun h h' i hi => ?_) (fun t w hk i hi => continues_wrote (write_wrote t w) hk hi) hk ws i hi
  obtain ⟨j, hj, hij⟩ := h i hi
  obtain ⟨k, hk, hjk⟩ := h' j hj
  exact ⟨k, hk, hij.trans hjk⟩

/-- Whatever writes are interleaved, there is one row for a key. It has counted the
committed calls that opened it, it has a time of resolution exactly while it is
resolved and that time is not before it was last seen, and it asks for no action after
a recovery or a resolution; and nothing that happens later takes it away, changes its
identity or the time it was first seen, moves its last observation back, or clears its
correlation or its endpoint. -/
theorem identity_and_lifecycle (ws : List Write) :
    ((store.run Tables.empty ws).incidents.map Incident.dedupKey).Nodup ∧
    (∀ i ∈ (store.run Tables.empty ws).incidents,
      i.occurrenceCount = openings i.dedupKey (store.trace Tables.empty ws) ∧
      (i.resolvedAt.isSome ↔ i.lifecycleState = .resolved) ∧
      (∀ r ∈ i.resolvedAt, i.lastSeenAt ≤ r) ∧
      ∀ e ∈ (calls i.dedupKey (store.trace Tables.empty ws)).getLast?,
        e.operation ≠ .openIncident → i.actionRequired = false) ∧
    ∀ later, ∀ i ∈ (store.run Tables.empty ws).incidents,
      ∃ j ∈ (store.run Tables.empty (ws ++ later)).incidents, i.Continues j := by
  have hl := lives_run ws
  refine ⟨hl.keys, fun i hi => ⟨hl.counted i hi, ?_⟩, fun later i hi => ?_⟩
  · obtain ⟨e, he, rfl⟩ := Option.map_eq_some_iff.mp (hl.last i hi)
    have hs := hl.sound e (List.mem_of_mem_filter (List.mem_of_getLast? he))
    refine ⟨hs.resolved, hs.resolvedAt, fun x hx hop => hs.action ?_⟩
    rw [he] at hx
    obtain rfl : e = x := Option.some.inj hx
    exact hop
  · rw [Machine.run_append]
    exact continues_run hl.toKeyed later hi

end OufGateway.Incidents
