import Mathlib
import OufGateway.Lib.Alone
import OufGateway.Lib.IsoRoundTrip
import OufGateway.Ref.OwnerApi
import OufGateway.Proofs.StoredTimes
import OufGateway.Proofs.Listing
import OufGateway.Proofs.Requests
import OufGateway.Proofs.Quotas
import OufGateway.Proofs.OwnerModes
import OufGateway.Proofs.OwnerQueries
import OufGateway.Proofs.OwnerGrants

/-!
# Catching up from a time on

A list, a summary and a snapshot can be asked for what was seen since a time. The store
compares the text of that time, as it would have written it, with the texts of its rows,
and these are in the order of the times but for two in one second, of which one is whole
(`StoredTimes`). A row seen in the second of `since` is missed, or shown too early, just
then. Where every row of that second is whole as `since` is, or none is where it is not,
all three show what was seen then or later, and nothing that was seen before.

Every time a row has was written by the store: the clock of a write says which, and of two
the later text is one of them. So the rows of a run whose clocks write times have times
that are read back as they were written (`fromisoformat_isoformat`).
-/

namespace OufGateway.Owner

open Lib Incidents StoredTimes
open Lib.JsonText (Points points Value)

variable {t : Incidents.Tables} {i : Incident} {state : Option Lifecycle} {d : DateTime} {m : Int}

/-! ## Reading a stored time -/

theorem datePoints_ne_zulu : ∀ p ∈ IsoText.datePoints d, p ≠ 90 := by
  have hdigit : ∀ w n p, p ∈ IsoText.figures w n → p ≠ 90 := by
    intro w n p hp heq
    have h := IsoText.isDigit_figures hp
    rw [heq] at h
    cases h
  intro p hp
  simp only [IsoText.datePoints, List.mem_append, List.mem_cons] at hp
  rcases hp with hp | rfl | hp | rfl | hp
  · exact hdigit 4 _ p hp
  · decide
  · exact hdigit 2 _ p hp
  · decide
  · exact hdigit 2 _ p hp

theorem isoformat_ne_zulu : ∀ p ∈ d.isoformat.map Char.toNat, p ≠ 90 := by
  intro p hp
  rw [IsoText.map_isoformat] at hp
  rcases List.mem_append.mp hp with hp | hp
  · exact datePoints_ne_zulu p hp
  · rcases List.mem_cons.mp hp with rfl | hp
    · decide
    · intro heq
      have h := IsoText.isSign_clockPoints d p hp
      rw [heq] at h
      cases h

theorem zulu_of_ne {s : Points} (h : ∀ p ∈ s, p ≠ 90) : zulu s = s := by
  induction s with
  | nil => rfl
  | cons p s ih =>
      have hp := h p (List.mem_cons_self ..)
      have hs : zulu s = s := ih fun q hq => h q (List.mem_cons_of_mem _ hq)
      unfold zulu at hs ⊢
      rw [List.flatMap_cons, if_neg hp, hs]
      rfl

/-- A time the store wrote is read as it was written. -/
theorem moment?_stamp (d : DateTime) : moment? (.str (points (stamp d))) = some (d.instant : Int) := by
  have hpoints : points (stamp d) = d.isoformat.map Char.toNat ++ [90] := by
    simp [points, stamp]
  have hzulu : zulu (points (stamp d)) = d.isoformat.map Char.toNat ++ points "+00:00" := by
    rw [hpoints, zulu, List.flatMap_append]
    congr 1
    exact zulu_of_ne isoformat_ne_zulu
  rw [moment?, hzulu, IsoText.fromisoformat_isoformat]
  simp [IsoText.Stamp.moment?]

/-- `_since` accepts what has a date in UTC, and writes its moment. -/
theorem readSince_ok {v : Value} {text : String} (h : readSince v = .ok text) :
    ∃ d : DateTime, text = stamp d ∧ moment? v = some (d.instant : Int) := by
  unfold readSince at h
  split at h
  · cases h
  next m hm =>
  split at h
  · cases h
  next d hd =>
  cases h
  exact ⟨d, rfl, by rw [hm, DateTime.instant_ofInstant? hd]⟩

theorem readSince_of {v : Value} (hm : moment? v = some m) (hd : DateTime.ofInstant? m = some d) :
    readSince v = .ok (stamp d) := by
  unfold readSince
  rw [hm]
  simp only [hd]

theorem stamp_congr {a b : DateTime} (h : a.instant = b.instant) : stamp a = stamp b := by
  have hseconds : a.seconds = b.seconds := by rw [← DateTime.instant_div, h, DateTime.instant_div]
  have hmicro : a.microsecond = b.microsecond := by rw [← DateTime.instant_mod, h, DateTime.instant_mod]
  have hstem := DateTime.stem_eq_iff.mpr hseconds
  unfold stamp DateTime.isoformat DateTime.fraction
  rw [hstem, hmicro]

theorem instant_lt {n : Nat} (h : d.days < n) : (d.instant : Int) < n * 86400 * 1000000 := by
  have hhour := d.hhour
  have hminute := d.hminute
  have hsecond := d.hsecond
  have hmicro := d.hmicrosecond
  unfold DateTime.instant DateTime.seconds
  omega

/-- A time the store wrote stays as it is. -/
theorem readSince_stamp (d : DateTime) : readSince (.str (points (stamp d))) = .ok (stamp d) := by
  have hyear : d.year + 1 ≤ 10000 := Nat.lt_of_le_of_lt d.hyear.2 (by decide)
  have hdays : d.days < Calendar.daysBeforeYear 10000 :=
    d.days_lt_year.trans_le (Calendar.daysBeforeYear_mono hyear (Nat.le_add_left 1 _))
  obtain ⟨e, he⟩ := Option.isSome_iff_exists.mp
    (DateTime.ofInstant?_isSome (Int.natCast_nonneg _) (instant_lt hdays))
  rw [readSince_of (moment?_stamp d) he, stamp_congr (Nat.cast_inj.mp (DateTime.instant_ofInstant? he))]

/-! ## Due incidents -/

/-- The moment `last_seen_at` denotes. -/
def seenAt? (i : Incident) : Option Int := moment? (.str (points i.lastSeenAt))

/-- The incident was seen at the moment or after it, and is in the state asked for. -/
def due (m : Int) (state : Option Lifecycle) (i : Incident) : Bool :=
  state.all (fun s => i.lifecycleState = s) && (seenAt? i).any fun k => m ≤ k

/-- Not a whole second and another moment in it. -/
def Apart (m k : Int) : Prop := m / 1000000 = k / 1000000 → (m % 1000000 = 0 ↔ k % 1000000 = 0)

/-- What is shown of the rows: nothing that was seen earlier, and where `all` is true
everything that is due. -/
structure CaughtUp (rows : List Incident) (state : Option Lifecycle) (m : Int) (shown : List Incident)
    (all : Prop) : Prop where
  only : ∀ i ∈ shown, i ∈ rows ∧ due m state i = true
  every : all → ∀ i ∈ rows, due m state i = true → i ∈ shown

/-- The text is a time as the store writes it. -/
def Stamped (text : String) : Prop := ∃ d : DateTime, text = stamp d

theorem apart_iff {a b : DateTime} :
    Apart a.instant b.instant ↔ (a.seconds = b.seconds → (a.microsecond = 0 ↔ b.microsecond = 0)) := by
  have hdiv : ∀ d : DateTime, (d.instant : Int) / 1000000 = (d.seconds : Int) := fun d => by
    rw [← DateTime.instant_div d, Int.natCast_div]
    rfl
  have hmod : ∀ d : DateTime, (d.instant : Int) % 1000000 = (d.microsecond : Int) := fun d => by
    rw [← DateTime.instant_mod d, Int.natCast_mod]
    rfl
  unfold Apart
  rw [hdiv, hdiv, hmod, hmod, Nat.cast_inj, Nat.cast_eq_zero, Nat.cast_eq_zero]

theorem seenAt?_of_stamped {e : DateTime} (h : i.lastSeenAt = stamp e) : seenAt? i = some (e.instant : Int) := by
  rw [seenAt?, h, moment?_stamp]

/-- Apart from the other times of its second the text of a time is compared as the time. -/
theorem admits_eq_due {limit : Nat} (hi : Stamped i.lastSeenAt)
    (hapart : ∀ k, seenAt? i = some k → Apart d.instant k) :
    (Query.mk limit state (some (stamp d))).admits i = due d.instant state i := by
  obtain ⟨e, he⟩ := hi
  have hseen := seenAt?_of_stamped he
  have horder : stamp d ≤ stamp e ↔ (d.instant : Int) ≤ e.instant := by
    have hlt := stamp_lt_iff_instant.mpr fun h =>
      (apart_iff.mp (hapart _ hseen) h.symm).symm
    rw [← not_lt, hlt, not_lt, Nat.cast_le]
  unfold Query.admits due
  rw [hseen, he, Option.all_some, Option.any_some, decide_eq_decide.mpr horder]

/-! ## The rows of a run -/

/-- What a write reads from the clock. -/
def clockOf : Write → String
  | .openIncident _ now _ => now
  | .recovering now _ _ => now
  | .resolveIncident now _ _ => now
  | .startHistory now => now

/-- The writes of the run read times, as `_now` writes them. -/
def Clocked (ms : List (Move Ask Oracle Write)) : Prop := ∀ w, .outside w ∈ ms → Stamped (clockOf w)

def AllStamped (t : Incidents.Tables) : Prop := ∀ i ∈ t.incidents, Stamped i.lastSeenAt

theorem stamped_max {a b : String} (ha : Stamped a) (hb : Stamped b) : Stamped (max a b) := by
  rcases max_choice a b with h | h
  · rw [h]
    exact ha
  · rw [h]
    exact hb

theorem AllStamped.replace (h : AllStamped t) {row : Incident} (hrow : Stamped row.lastSeenAt) :
    AllStamped (t.replace row) := by
  intro i hi
  obtain ⟨j, hj, rfl⟩ := List.mem_map.mp hi
  split
  · exact hrow
  · exact h j hj

theorem AllStamped.started (h : AllStamped t) (now : String) : AllStamped (startHistory t now) := by
  unfold startHistory
  split
  · exact h
  · intro i hi
    rw [foldl_append_incidents] at hi
    exact h i hi

theorem AllStamped.found (h : AllStamped t) {key now : String} {old : Incident}
    (hold : findKey t key = some old) (hnow : Stamped now) : Stamped (max old.lastSeenAt now) :=
  stamped_max (h old (findKey_mem hold)) hnow

theorem AllStamped.opened (h : AllStamped t) {uuid now : String} {a : OpenArgs} {t' : Incidents.Tables}
    {row : Incident} (hnow : Stamped now) (hok : openIncident t uuid now a = .ok (t', row)) : AllStamped t' := by
  unfold openIncident at hok
  split at hok
  · cases hok
  split at hok
  · cases hok
  split at hok
  · cases hok
  split at hok
  · cases hok
  split at hok
  · cases hok
    intro i hi
    rcases List.mem_append.mp hi with hi | hi
    · exact h i hi
    · rw [List.mem_singleton.mp hi]
      exact hnow
  · next old hold =>
    cases hok
    exact h.replace (h.found hold hnow)

/-- The step lemma: a write leaves times, if it reads one. -/
theorem AllStamped.write (h : AllStamped t) {w : Write} (hw : Stamped (clockOf w)) :
    AllStamped (t.write w) := by
  cases w with
  | openIncident uuid now args =>
      simp only [Tables.write]
      split
      · next t' row hok => exact h.opened hw hok
      · exact h
  | recovering now key impact =>
      simp only [Tables.write, recovering]
      split
      · exact h
      · next old hold => exact h.replace (h.found hold hw)
  | resolveIncident now key impact =>
      simp only [Tables.write, resolveIncident]
      split
      · exact h
      · next old hold => exact h.replace (h.found hold hw)
  | startHistory now =>
      simp only [Tables.write]
      exact h.started now

theorem expireBookmark_incidents {db cleaned : Db} {now later : String}
    (h : db.expireBookmark now later = .ok cleaned) : cleaned.incidents = db.incidents := by
  unfold Db.expireBookmark at h
  split at h
  · cases h
    rfl
  · split at h
    · cases h
    · cases h
      rfl

theorem issueTables_incidents {frame : Session} {s : Scope} {identity : Identity} {policy : String}
    {db db' : Db} {o : Oracle} {es : List Event} {token : Uuid}
    (hok : issueTables frame s identity policy db o = .ok (db', es, token)) :
    db'.incidents = db.incidents := by
  unfold issueTables at hok
  split at hok
  · cases hok
  split at hok
  · cases hok
  split at hok
  · cases hok
  split at hok
  · cases hok
    rfl
  split at hok
  · cases hok
  simp only [] at hok
  split at hok
  · cases hok
    rfl
  split at hok
  · cases hok
  next cleaned hcleaned =>
  split at hok
  · cases hok
  split at hok
  · cases hok
  · have hincidents := expireBookmark_incidents hcleaned
    cases hok
    exact hincidents

/-- No request touches the incidents. -/
theorem settled_incidents (P : Incidents.Tables → Prop) : Settled fun db => P db.incidents where
  frame h hi _ _ := hi ▸ h
  captured h hok := by
    obtain ⟨s, first, L, hc, -⟩ := captureTables_ok hok
    obtain ⟨sessions, cursors, -, -, rfl⟩ := hc.db
    show P (Db.expire _ _).incidents
    rw [expire_incidents]
    exact h
  issued h hok := by
    rw [issueTables_incidents hok]
    exact h

/-- The run lemma. -/
theorem stamped_run {v : Inventory} (hv : ∀ i ∈ v.rows, Stamped i.lastSeenAt) (now : String)
    {ms : List (Move Ask Oracle Write)} (hms : Clocked ms) :
    AllStamped (system.run (World.initial v now) ms).shared.incidents := by
  have hstart : AllStamped (startHistory ⟨v.rows, none, []⟩ now) :=
    AllStamped.started (t := ⟨v.rows, none, []⟩) hv now
  exact Pool.keeps_run_of (P := fun db : Db => AllStamped db.incidents) hstart
    (keeps_request (settled_incidents AllStamped)) ms fun w hw db h => h.write (hms w hw)

/-! ## Lists -/

/-- What the rows have in common: their times are the store's, and none of them is in the
second of this moment but as this moment is. -/
structure Comparable (t : Incidents.Tables) (m : Int) : Prop where
  stamped : AllStamped t
  apart : ∀ i ∈ t.incidents, ∀ k, seenAt? i = some k → Apart m k

theorem Comparable.admits (h : Comparable t d.instant) (limit : Nat) (state : Option Lifecycle) :
    ∀ i ∈ t.incidents, (Query.mk limit state (some (stamp d))).admits i = due d.instant state i :=
  fun i hi => admits_eq_due (h.stamped i hi) (h.apart i hi)

theorem mem_listed {q : Query} : i ∈ listed t q ↔ i ∈ t.incidents ∧ q.admits i = true := by
  rw [listed, (List.mergeSort_perm _ _).mem_iff, List.mem_filter]

/-- How many incidents are due. -/
def dues (t : Incidents.Tables) (m : Int) (state : Option Lifecycle) : Nat :=
  (t.incidents.filter (due m state)).length

theorem length_listed {limit : Nat} (h : Comparable t d.instant) :
    (listed t (Query.mk limit state (some (stamp d)))).length = dues t d.instant state := by
  rw [listed, (List.mergeSort_perm _ _).length_eq, dues, List.filter_congr (h.admits limit state)]

/-- The first of what is listed. -/
theorem caughtUp_listed {limit n : Nat} (h : Comparable t d.instant) :
    CaughtUp t.incidents state d.instant ((listed t (Query.mk limit state (some (stamp d)))).take n)
      (dues t d.instant state ≤ n) where
  only i hi := by
    obtain ⟨hmem, hadmits⟩ := mem_listed.mp (List.mem_of_mem_take hi)
    exact ⟨hmem, h.admits limit state i hmem ▸ hadmits⟩
  every hfew i hi hdue := by
    rw [List.take_of_length_le (by rw [length_listed h]; exact hfew)]
    exact mem_listed.mpr ⟨hi, by rw [h.admits limit state i hi, hdue]⟩

theorem CaughtUp.sublist {rows shown shown' : List Incident} {all : Prop} (h : CaughtUp rows state m shown all)
    (hsub : shown'.Sublist shown) : CaughtUp rows state m shown' (all ∧ shown'.length = shown.length) where
  only i hi := h.only i (hsub.subset hi)
  every hall i hi hdue := by
    rw [hsub.eq_of_length hall.2]
    exact h.every hall.1 i hi hdue

/-- A list from a time on is the first of what is listed from the time `_since` makes of it. -/
theorem listSince_ok {since : Value} {limit : Nat} {rows : List Incident}
    (hok : listSince t state limit (some since) = .ok rows) :
    ∃ d : DateTime, moment? since = some (d.instant : Int) ∧ limit ≤ 200 ∧
      rows = (listed t (Query.mk limit state (some (stamp d)))).take limit := by
  unfold listSince at hok
  simp only [] at hok
  split at hok
  · cases hok
  next text htext =>
  obtain ⟨d, rfl, hd⟩ := readSince_ok htext
  split at hok
  · cases hok
  next items hitems =>
  cases hok
  by_cases hlimit : limit < 1 ∨ 200 < limit
  · rw [listIncidents, if_pos hlimit] at hitems
    cases hitems
  · rw [not_or, not_lt, not_lt] at hlimit
    have heq := listIncidents_eq (t := t) (q := ⟨limit, state, some (stamp d)⟩) hlimit.1 hlimit.2
    rw [hitems] at heq
    exact ⟨d, hd, hlimit.2, Except.ok.inj heq⟩

theorem caughtUp_listSince {since : Value} {limit : Nat} {rows : List Incident} (h : Comparable t m)
    (hm : moment? since = some m) (hok : listSince t state limit (some since) = .ok rows) :
    CaughtUp t.incidents state m rows (dues t m state ≤ limit) := by
  obtain ⟨d, hd, -, rfl⟩ := listSince_ok hok
  obtain rfl := Option.some.inj (hm.symm.trans hd)
  exact caughtUp_listed h

/-! ## Queries with a time -/

section Queries

variable {raw q : Dict} {key other : String} {v since : Value} {text : String}

theorem Dict.get?_set (raw : Dict) (key other : String) (v : Value) : (raw.set key v).get? other =
    (raw.get? other).map fun w => if other = key then v else w := by
  have hkeys : ((fun m : Points × Value => decide (m.1 = points other)) ∘
      fun m => if m.1 = points key then (m.1, v) else m) = fun m => decide (m.1 = points other) := by
    funext m
    simp only [Function.comp]
    split <;> rfl
  unfold Dict.get? Dict.set
  rw [List.find?_map, hkeys]
  cases hfind : raw.find? (fun m => decide (m.1 = points other)) with
  | none => rfl
  | some m =>
      have hm := List.find?_some hfind
      simp only [decide_eq_true_eq] at hm
      have hiff : m.1 = points key ↔ other = key := by
        rw [hm]
        exact ⟨points_inj, fun h => h ▸ rfl⟩
      simp only [Option.map_some, hiff]
      split <;> rfl

theorem Dict.get?_set_other (h : other ≠ key) : (raw.set key v).get? other = raw.get? other := by
  rw [Dict.get?_set]
  simp [h]

theorem Dict.has_of_set (raw : Dict) (key other : String) (v : Value) :
    (raw.set key v).has other = raw.has other := by
  rw [Dict.has, Dict.get?_set, Option.isSome_map]
  rfl

/-- A query with a time is a list, a summary or a snapshot. -/
theorem has_of_since {incidents : Bool} (hraw : raw.Distinct) (hmode : InMode Readable incidents raw)
    (hsince : raw.get? "since" = some since) :
    raw.has "resumeFrom" = false ∧ raw.has "cursor" = false ∧ raw.has "coverage" = false ∧
      (incidents = false → raw.has "state" = false) := by
  obtain ⟨m, hpath, hm⟩ := hmode
  have hkey := (hm.get? (k := .since) hraw hsince).1
  have hnot : ∀ k : Key, k ∉ m.required ++ m.optional → raw.has k.text = false := fun k => hm.hasNot hraw
  cases m with
  | summary =>
      exact ⟨hnot .resumeFrom (by decide), hnot .cursor (by decide), hnot .coverage (by decide),
        fun _ => hnot .state (by decide)⟩
  | plain =>
      refine ⟨hnot .resumeFrom (by decide), hnot .cursor (by decide), hnot .coverage (by decide), fun hno => ?_⟩
      rw [← hpath] at hno
      cases hno
  | _ => exact absurd hkey (by decide)

/-- The query that is read has the time as the store writes it, and is otherwise as it was. -/
structure Dated (incidents : Bool) (raw q : Dict) (d : DateTime) : Prop where
  since : q.get? "since" = some (.str (points (stamp d)))
  resume : q.has "resumeFrom" = false
  cursor : q.get? "cursor" = none
  coverage : q.get? "coverage" = none
  limit : q.limit = raw.limit
  state : q.state = raw.state
  summary : incidents = false → raw.state = none

theorem dated_of_readQuery {py : Interpreter} {body : Body} {incidents : Bool}
    (hload : body.load py = .ok raw) (hsince : raw.get? "since" = some since)
    (hread : readQuery py body incidents = .ok q) :
    ∃ d : DateTime, moment? since = some (d.instant : Int) ∧ Dated incidents raw q d := by
  obtain ⟨raw', hload', hchecked, hnormalized⟩ := readQuery_eq_ok.mp hread
  obtain rfl := Except.ok.inj (hload.symm.trans hload')
  rcases hnormalized with ⟨hnone, -⟩ | ⟨v, text, hv, htext, rfl⟩
  · rw [hsince] at hnone
    cases hnone
  obtain rfl := Option.some.inj (hsince.symm.trans hv)
  obtain ⟨d, rfl, hd⟩ := readSince_ok htext
  have hdistinct : raw.Distinct := by
    rcases says_of_load hload with ⟨-, rfl⟩ | hsays
    · exact List.nodup_nil
    · exact hsays.distinct
  obtain ⟨hresume, hcursor, hcoverage, hsummary⟩ := has_of_since hdistinct (hchecked.inMode hdistinct) hsince
  refine ⟨d, hd, ?_, ?_, ?_, ?_, ?_, ?_, fun hno => ?_⟩
  · rw [Dict.get?_set, hsince, Option.map_some, if_pos rfl]
  · rw [Dict.has_of_set, hresume]
  · rw [Dict.get?_eq_none, Dict.has_of_set, hcursor]
  · rw [Dict.get?_eq_none, Dict.has_of_set, hcoverage]
  · unfold Dict.limit Dict.limit?
    rw [Dict.get?_set_other (by decide)]
  · unfold Dict.state
    rw [Dict.get?_set_other (by decide)]
  · unfold Dict.state
    rw [Dict.get?_eq_none.mpr (hsummary hno)]
    rfl

theorem Dated.query {incidents : Bool} (h : Dated incidents raw q d) : q.query = ⟨raw.limit, raw.state, some (stamp d)⟩ := by
  have htext : q.text "since" = stamp d := by
    unfold Dict.text
    rw [h.since]
    exact congrArg String.ofList (Uuid.map_ofNat_points _) |>.trans (String.ofList_toList)
  rw [Dict.query, h.limit, h.state, h.since, htext]
  rfl

end Queries

/-! ## Requests -/

section Requests

variable {db : Db} {tr : List Event} {α : Type} {c : Context} {identity : Identity} {policy : String}
  {raw q : Dict}

theorem keeps_decision {P : Db → Prop} (incidentId endpointRef : Option String) :
    (c.decision incidentId endpointRef).Keeps P := by
  unfold Context.decision
  split
  · trivial
  split
  · trivial
  · exact Program.Keeps.bind (keeps_consult _ _) fun d => Program.keeps_ofExcept _

theorem good_decision (incidentId endpointRef : Option String) :
    (c.decision incidentId endpointRef).Good discipline (fun _ _ _ => True) db tr := by
  unfold Context.decision
  split
  · trivial
  split
  · trivial
  · exact Program.Good.bind (good_consult _ _) fun _ _ _ _ _ => Program.good_ofExcept fun _ _ => trivial

theorem good_visible (i : Incident) :
    (c.visible identity policy i).Good discipline (fun _ _ _ => True) db tr := by
  refine Program.Good.bind (q := fun _ _ _ => True) ?_ fun db₁ tr₁ fresh _ _ => ?_
  · refine Program.Good.handle ?_ fun db₁ tr₁ e => ?_
    · exact Program.Good.bind (good_decision _ _) fun _ _ _ _ _ => trivial
    · split <;> trivial
  · split
    · trivial
    · unfold Context.unchanged
      split <;> trivial

theorem ends_select {f : Db → Oracle → Except Failure α} {r : Db → List Event → Except Failure α → Prop}
    (h : ∀ o x, f db o = x → r db tr x) (hbusy : r db tr (.error .operational)) :
    Program.Ends r (select f) db tr := by
  refine Program.ends_read fun o x hx => ?_
  split at hx
  · exact hx ▸ hbusy
  · exact h o x hx

/-- The answer does not say that something was withheld. -/
def Reply.Whole : Reply → Prop
  | .page p => p.redacted = false
  | .listing l => l.redacted = false
  | .refused _ _ _ => False

/-- An answer over these incidents: what is due at this moment, up to the limit. -/
def Catches (t : Incidents.Tables) (state : Option Lifecycle) (m : Int) (limit : Nat) (reply : Reply) : Prop :=
  CaughtUp t.incidents state m reply.items (dues t m state ≤ limit ∧ reply.Whole)

theorem ends_list (h : Comparable db.incidents d.instant) (hq : Dated c.incidents raw q d) :
    Program.Ends (fun _ _ x => ∀ reply, x = .ok reply →
        Catches db.incidents raw.state d.instant raw.limit reply) (c.list identity policy q) db tr := by
  have hstate : (if c.incidents then q.state else none) = raw.state := by
    split
    · exact hq.state
    · next hno => exact (hq.summary (Bool.not_eq_true _ ▸ hno)).symm
  refine Program.Ends.bind (q := fun _ _ x => ∀ rows, x = .ok rows →
      listSince db.incidents raw.state (raw.limit + 1)
        (some (.str (points (stamp d)))) = .ok rows)
    (ends_select (fun o x hx rows hrows => ?_) fun rows hrows => by cases hrows)
    (fun db₁ tr₁ rows hrows => ?_) fun _ _ e _ reply hreply => by cases hreply
  · rw [← hrows, ← hx, hstate, hq.limit, hq.since]
  · refine Program.Ends.bind (Program.meets_sublist _ _ _).ends (fun db₂ tr₂ kept hkept => ?_)
      fun _ _ e _ reply hreply => by cases hreply
    intro reply hreply
    cases hreply
    obtain ⟨e, he, -, hlisted⟩ := listSince_ok (hrows rows rfl)
    rw [moment?_stamp, Option.some.injEq] at he
    rw [he] at h ⊢
    have horiginal : rows.take q.limit = (listed db.incidents
        ⟨raw.limit + 1, raw.state, some (stamp e)⟩).take raw.limit := by
      rw [hlisted, hq.limit, List.take_take, Nat.min_eq_left (Nat.le_succ _)]
    have hsub := hkept kept rfl
    rw [horiginal] at hsub
    have hcaught := (caughtUp_listed h).sublist hsub
    refine ⟨hcaught.only, fun hall => hcaught.every ⟨hall.1, ?_⟩⟩
    have hlength := of_decide_eq_false hall.2
    rw [not_not, horiginal] at hlength
    exact hlength

/-- The first page of a session that was captured is the first of what it copied. -/
theorem first_page {tr' : List Event} {query : Query} {token : Uuid} {s : Session} {L : List Incident} {p : Page}
    (hsnap : Snapshots db tr') (hcap : Event.captured s query none L ∈ tr')
    (hplaced : Event.placed ⟨token, s.sessionId, 0⟩ ∈ tr') (h : Fresh tr' identity policy token p) :
    p.items.Sublist (L.take s.pageLimit) ∧ (p.redacted = false → p.items = L.take s.pageLimit) := by
  obtain ⟨s', q', lower', L', position, hcap', -, -, hslice⟩ := h.read
  have hcursor := hslice.cursor
  rw [h.cursor] at hcursor
  have hsame := hsnap.placedOnce _ _ hcursor hplaced rfl
  obtain ⟨hid, rfl⟩ : s'.sessionId = s.sessionId ∧ position = 0 := by
    injection hsame with _ hid hposition
    exact ⟨hid, hposition⟩
  obtain ⟨rfl, -, -, rfl⟩ := hsnap.once _ _ _ _ _ _ _ _ hcap' hcap hid
  exact ⟨hslice.items, hslice.whole⟩

theorem ends_snapshot (hinv : discipline.inv db tr) (h : Comparable db.incidents d.instant) {limit : Nat}
    {seen : Incident → Request Json}
    (hseen : ∀ i db tr, (seen i).Good discipline (fun _ _ _ => True) db tr) :
    Program.Ends (fun _ _ x => ∀ p, x = .ok p → Catches db.incidents state d.instant limit (.page p))
      (do
        let token ← capture ⟨limit, state, some (stamp d)⟩ identity policy none
        pageAt token identity policy seen) db tr := by
  refine Program.Ends.bind (q := fun db₁ tr₁ x => ∀ token, x = .ok token → discipline.inv db₁ tr₁ ∧
      ∃ s, s.pageLimit = limit ∧ Event.placed ⟨token, s.sessionId, 0⟩ ∈ tr₁ ∧
        Event.captured s ⟨limit, state, some (stamp d)⟩ none
          (listed db.incidents ⟨limit, state, some (stamp d)⟩) ∈ tr₁)
    ?_ (fun db₁ tr₁ token htoken => ?_) fun _ _ e _ p hp => by cases hp
  · refine Program.ends_transaction (fun o db₁ es token hok token' htoken => ?_) fun o e _ token htoken => by
      cases htoken
    cases htoken
    split at hok
    · cases hok
    obtain ⟨s, first, L, hc, rfl, rfl⟩ := captureTables_ok hok
    have hL : L = listed db.incidents ⟨limit, state, some (stamp d)⟩ := by
      rw [hc.items, hc.watermark, selected_eq_listed hinv.1.ledger]
    have hfirst : first = ⟨first.token, s.sessionId, 0⟩ := by
      rw [← hc.cursor.1, ← hc.cursor.2]
    refine ⟨⟨hinv.1.captured hc, hinv.2.captured hinv.1 hc⟩, s, hc.limit.1, ?_, ?_⟩
    · rw [← hfirst]
      simp
    · rw [← hL]
      simp
  · obtain ⟨hinv₁, s, hlimit, hplaced, hcap⟩ := htoken token rfl
    have hpage : (pageAt token identity policy seen).Good discipline
        (fun _ tr p => Fresh tr identity policy token p) db₁ tr₁ := good_pageAt hseen
    have hgood := hpage.ends hinv₁
    have hgrow := (Program.meets_any (pageAt token identity policy seen) tr₁).grow.ends (s := db₁)
    refine (hgood.and hgrow).mono ?_
    rintro db₂ tr₂ x ⟨⟨hinv₂, hfresh⟩, hle, -⟩ p hp
    obtain ⟨hsub, hwhole⟩ := first_page hinv₂.1 (hle.subset hcap) (hle.subset hplaced) (hfresh p hp)
    rw [hlimit] at hsub hwhole
    have hcaught := (caughtUp_listed h).sublist hsub
    exact ⟨hcaught.only, fun hall => hcaught.every ⟨hall.1, by rw [hwhole hall.2]⟩⟩

theorem mode_eq (hq : Dated c.incidents raw q d) : c.mode identity policy q =
    if (q.get? "snapshot").any isTrue then do return .page (← c.pages identity policy q)
    else c.list identity policy q := by
  unfold Context.mode
  have hcursor : q.has "cursor" = false := Dict.get?_eq_none.mp hq.cursor
  simp only [hq.coverage, hq.resume, hcursor, Option.any_none, Bool.or_false, Bool.false_eq_true, if_false]

theorem ends_mode (hinv : discipline.inv db tr) (h : Comparable db.incidents d.instant)
    (hq : Dated c.incidents raw q d) :
    Program.Ends (fun _ _ x => ∀ reply, x = .ok reply →
        Catches db.incidents raw.state d.instant raw.limit reply) (c.mode identity policy q) db tr := by
  rw [mode_eq hq]
  split
  · have hpages : c.pages identity policy q =
        (capture ⟨raw.limit, raw.state, some (stamp d)⟩ identity policy none).bind fun token =>
          pageAt token identity policy (c.visible identity policy) := by
      unfold Context.pages
      rw [hq.cursor, hq.query]
      rfl
    rw [hpages]
    refine (ends_snapshot hinv h fun i db tr => good_visible i).bind (fun db₁ tr₁ p hp => ?_)
      fun _ _ e _ reply hreply => by cases hreply
    intro reply hreply
    cases hreply
    exact hp p rfl
  · exact ends_list h hq

theorem ends_answer (hinv : discipline.inv db tr) (h : Comparable db.incidents d.instant)
    (hq : Dated c.incidents raw q d) :
    Program.Ends (fun _ _ x => ∀ reply, x = .ok reply →
        Catches db.incidents raw.state d.instant raw.limit reply) (c.answer q) db tr := by
  have hkept : (c.decision none none).Keeps fun db' => db'.incidents = db.incidents := keeps_decision none none
  have hkeeps : Program.Ends (fun db' _ _ => db'.incidents = db.incidents) (c.decision none none) db tr :=
    hkept.ends rfl
  have hdecided : (c.decision none none).Good discipline (fun _ _ _ => True) db tr := good_decision none none
  have hgood := hdecided.ends hinv
  refine (hkeeps.and hgood).bind (fun db₁ tr₁ decision hd => ?_) fun _ _ e _ reply hreply => by cases hreply
  obtain ⟨hsame, hinv₁, -⟩ := hd
  rw [← hsame] at h ⊢
  refine (ends_mode hinv₁ h hq).bind (fun db₂ tr₂ reply hreply => ?_) fun _ _ e _ reply hreply => by
    cases hreply
  refine Program.ends_ofExcept fun reply' hreply' => ?_
  have heq : reply' = reply := by
    unfold sized at hreply'
    split at hreply'
    · cases hreply'
    · exact (Except.ok.inj hreply').symm
  exact heq ▸ hreply reply rfl

theorem catches_refused {t : Incidents.Tables} {limit : Nat} {reply : Reply} (hitems : reply.items = [])
    (hwhole : ¬ reply.Whole) : Catches t state m limit reply where
  only i hi := by
    rw [hitems] at hi
    cases hi
  every hall := absurd hall.2 hwhole

theorem ends_handle (hinv : discipline.inv db tr) (h : Comparable db.incidents m) {api : Api} {path : String}
    {headers : Headers} {body : Body} {since : Value} (hload : body.load api.py = .ok raw)
    (hsince : raw.get? "since" = some since) (hm : moment? since = some m) :
    Program.Ends (fun _ _ x => ∀ reply, x = .ok reply → Catches db.incidents raw.state m raw.limit reply)
      (handle api path headers body) db tr := by
  have hrefused : ∀ (status : Nat) (code : String) (retryable : Option Bool) (reply : Reply),
      (.ok (.refused status code retryable) : Except Failure Reply) = .ok reply →
        Catches db.incidents raw.state m raw.limit reply := by
    intro status code retryable reply hreply
    cases hreply
    exact catches_refused rfl id
  unfold handle
  split
  · exact hrefused _ _ _
  split
  · exact hrefused _ _ _
  split
  · exact hrefused _ _ _
  refine Program.Ends.handle (q := fun _ _ x => ∀ reply, x = .ok reply →
      Catches db.incidents raw.state m raw.limit reply) ?_ (fun _ _ _ h => h) fun _ _ e _ => ?_
  · unfold Context.attempt
    split
    · intro reply hreply
      cases hreply
    · next q hread =>
      obtain ⟨d, hd, hq⟩ := dated_of_readQuery hload hsince hread
      obtain rfl := Option.some.inj (hm.symm.trans hd)
      exact ends_answer hinv h hq
  · intro reply hreply
    cases hreply
    refine catches_refused (items_reply e) ?_
    cases e <;> exact id

end Requests

def nothingYet : Inventory := ⟨[], List.nodup_nil, List.nodup_nil⟩

def seenAtHalf : Move Ask Oracle Write :=
  .outside (.openIncident "first" (stamp newYearAndHalf)
    { dedupKey := "gateway:down", eventType := "GATEWAY_DOWN", severity := "ERROR", errorCode := none,
      impactSummary := "the gateway is down" })

def seenDb : Db := (system.run (World.initial nothingYet (stamp newYear)) [seenAtHalf]).shared

theorem clocked_seenAtHalf : Clocked [seenAtHalf] := by
  intro w hw
  have heq := List.mem_singleton.mp hw
  injection heq with heq
  exact ⟨newYearAndHalf, by rw [heq]; rfl⟩

theorem lastSeenAt_seenDb : ∀ i ∈ seenDb.incidents.incidents, i.lastSeenAt = stamp newYearAndHalf := by
  have hrows : seenDb.incidents.incidents.map (·.lastSeenAt) = [stamp newYearAndHalf] := rfl
  intro i hi
  have hmem := List.mem_map_of_mem (f := (·.lastSeenAt)) hi
  rw [hrows] at hmem
  exact List.mem_singleton.mp hmem

end OufGateway.Owner
