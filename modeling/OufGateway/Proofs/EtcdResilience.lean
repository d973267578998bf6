import Mathlib
import OufGateway.Lib.Except
import OufGateway.Proofs.Lifecycle
import OufGateway.Ref.EtcdResilience

/-!
# The incident of the etcd gate

The row that the store has under the key of the gate is all that an operator sees of its
checks. `Status` is what the checks alone say: the obstacle that the last blocked check
met, whether the last check was blocked, and how many were. However the checks and the
writes of others follow one another, the row is a picture of the status; a check whose
identifier the store refuses is the one kind that leaves no trace, and it blocks the
publication all the same.
-/

namespace OufGateway.EtcdResilience

open Lib
open Incidents (Committed Incident OpenArgs Severity StoreError Tables Wrote Write findKey openIncident resolveIncident)

variable {g : PublicationResilienceGate} {t t' : Tables} {row : Incident} {key uuid now : String} {h : EtcdHealth}
  {o : Obstacle} {es : List Committed} {c : Checked} {steps : List Step}

/-! ## The row of a key -/

theorem findKey_wrote {e : Committed} (h : Wrote t t' [e]) (hk : t.Keyed) : findKey t' e.dedupKey = some e.row := by
  have hkeyed := Incidents.keyed_wrote h hk
  have hrow : e.row ∈ t'.incidents ∧ e.row.dedupKey = e.dedupKey := by
    cases h with
    | inserted _ hs hop hone hnew hid => exact ⟨List.mem_append_right _ (List.mem_singleton_self _), hs.key⟩
    | replaced _ old hs hold hf => exact ⟨(Incidents.mem_replace hold hs.key).mpr (.inl rfl), hs.key⟩
  rw [← hrow.2]
  exact Incidents.findKey_of_mem hkeyed.keys hrow.1

theorem find_update {rows : List Incident} (hne : row.dedupKey ≠ key) :
    (rows.map fun i => if i.dedupKey = row.dedupKey then row else i).find? (fun i => i.dedupKey = key) =
      rows.find? fun i => i.dedupKey = key := by
  induction rows with
  | nil => rfl
  | cons i rows ih =>
      rw [List.map_cons, List.find?_cons, List.find?_cons, ih]
      by_cases hi : i.dedupKey = row.dedupKey
      · simp [hi, hne]
      · simp [hi]

/-- A write under other keys leaves the row of a key alone. -/
theorem findKey_other (h : Wrote t t' es) (hes : ∀ e ∈ es, e.dedupKey ≠ key) :
    findKey t' key = findKey t key := by
  cases h with
  | nothing => rfl
  | baseline now hnone =>
      unfold findKey
      rw [Incidents.foldl_append_incidents]
  | inserted e hs hop hone hnew hid =>
      have hne : e.row.dedupKey ≠ key := hs.key ▸ hes e (List.mem_singleton_self e)
      have hrow : [e.row].find? (fun i => i.dedupKey = key) = none := by simp [hne]
      show (t.incidents ++ [e.row]).find? (fun i => i.dedupKey = key) = _
      rw [List.find?_append, hrow, Option.or_none]
      rfl
  | replaced e old hs hold hf =>
      exact find_update (hs.key ▸ hes e (List.mem_singleton_self e))

/-! ## Calls of the sink -/

/-- What an opening puts into its row. -/
structure Opens (t : Tables) (a : OpenArgs) (row : Incident) : Prop where
  severity : Severity.ofText? a.severity = some row.severity
  state : row.lifecycleState = .opened
  code : row.errorCode = a.errorCode
  summary : row.impactSummary = a.impactSummary
  action : row.actionRequired = a.actionRequired
  count : row.occurrenceCount = ((findKey t a.dedupKey).map (·.occurrenceCount)).getD 0 + 1

theorem openIncident_opens {a : OpenArgs} (h : openIncident t uuid now a = .ok (t', row)) : Opens t a row := by
  unfold openIncident at h
  split at h
  · cases h
  · next severity hseverity =>
    split at h
    · cases h
    · split at h
      · cases h
      · split at h
        · cases h
        · split at h
          · next hnew =>
            cases h
            exact ⟨hseverity, rfl, rfl, rfl, rfl, by rw [hnew]; rfl⟩
          · next old hold =>
            cases h
            exact ⟨hseverity, rfl, rfl, rfl, rfl, by rw [hold]; rfl⟩

/-- With arguments that pass the checks of the store, only a taken identifier is refused. -/
theorem openIncident_error {a : OpenArgs} {e : StoreError} (h : openIncident t uuid now a = .error e)
    (hseverity : (Severity.ofText? a.severity).isSome = true)
    (htexts : ¬ (a.dedupKey = "" ∨ a.eventType = "" ∨ a.impactSummary = ""))
    (hclass : a.visibilityClass = "RESTRICTED_OPERATIONAL") : e = .integrity := by
  unfold openIncident at h
  split at h
  · next hnone =>
    rw [hnone] at hseverity
    cases hseverity
  · rw [if_neg htexts, if_neg (not_not_intro hclass)] at h
    split at h
    · cases h
      rfl
    · split at h <;> cases h

/-- What a resolution makes of the row that is there. -/
structure Resolves (old row : Incident) : Prop where
  code : row.errorCode = old.errorCode
  severity : row.severity = old.severity
  count : row.occurrenceCount = old.occurrenceCount
  state : row.lifecycleState = .resolved
  action : row.actionRequired = false
  summary : row.impactSummary = recovered

/-! ## The status -/

/-- What is in the way of a publication. -/
def obstacle (g : PublicationResilienceGate) (h : EtcdHealth) : Option Obstacle :=
  if !h.quorum then some quorumUnavailable
  else if h.storageSlow then some storageSlow
  else if g.maxPendingProposals < h.pendingProposals then some backpressureRequired
  else none

theorem obstacle_eq_none : obstacle g h = none ↔ publicationAllowed g h = true := by
  unfold obstacle publicationAllowed
  cases h.quorum with
  | false => simp
  | true =>
      cases h.storageSlow with
      | true => simp
      | false => simp

theorem require_of_none {sink : Option Tables} (ho : obstacle g h = none) :
    requirePublicationAllowed g sink uuid now h =
      (sink.map fun t => (resolveIncident t now incidentKey recovered).1, .ok ()) := by
  unfold obstacle at ho
  unfold requirePublicationAllowed
  split at ho
  · cases ho
  · split at ho
    · cases ho
    · split at ho
      · cases ho
      · next hquorum hslow hpending => rw [if_neg hquorum, if_neg hslow, if_neg hpending]

theorem require_of_some {sink : Option Tables} (ho : obstacle g h = some o) :
    requirePublicationAllowed g sink uuid now h = block sink uuid now o := by
  unfold obstacle at ho
  unfold requirePublicationAllowed
  split at ho
  · next hquorum =>
    obtain rfl := Option.some.inj ho
    rw [if_pos hquorum]
  · next hquorum =>
    rw [if_neg hquorum]
    split at ho
    · next hslow =>
      obtain rfl := Option.some.inj ho
      rw [if_pos hslow]
    · next hslow =>
      rw [if_neg hslow]
      split at ho
      · next hpending =>
        obtain rfl := Option.some.inj ho
        rw [if_pos hpending]
      · cases ho

/-- The three obstacles are arguments the store takes. -/
theorem obstacle_taken (ho : obstacle g h = some o) :
    (Severity.ofText? o.severity).isSome = true ∧ o.impactSummary ≠ "" := by
  have hmem : o ∈ [quorumUnavailable, storageSlow, backpressureRequired] := by
    unfold obstacle at ho
    split at ho
    · simp [Option.some.inj ho.symm]
    · split at ho
      · simp [Option.some.inj ho.symm]
      · split at ho
        · simp [Option.some.inj ho.symm]
        · cases ho
  simp only [List.mem_cons, List.not_mem_nil, or_false] at hmem
  rcases hmem with rfl | rfl | rfl <;> exact ⟨by decide, by decide⟩

structure Status where
  obstacle : Obstacle
  /-- The last check was blocked. -/
  blocked : Bool
  /-- How many checks were blocked, and written. -/
  count : Nat

/-- What one more check makes of a status. -/
def Status.after (g : PublicationResilienceGate) (s : Option Status) (c : Checked) : Option Status :=
  match c.answer with
  | .ok () => s.map fun s => { s with blocked := false }
  | .error (.safety _) => (EtcdResilience.obstacle g c.health).map fun o => ⟨o, true, (s.map (·.count)).getD 0 + 1⟩
  | .error _ => s

/-- A row with the status in it. -/
structure Shows (i : Incident) (s : Status) : Prop where
  code : i.errorCode = some s.obstacle.errorCode
  severity : Severity.ofText? s.obstacle.severity = some i.severity
  count : i.occurrenceCount = s.count
  state : i.lifecycleState = if s.blocked then .opened else .resolved
  action : i.actionRequired = s.blocked
  summary : i.impactSummary = if s.blocked then s.obstacle.impactSummary else recovered

/-- There is a row where there is a status, and it shows it. -/
inductive Mirrors : Option Incident → Option Status → Prop
  | absent : Mirrors none none
  | row {i : Incident} {s : Status} (h : Shows i s) : Mirrors (some i) (some s)

variable {s : Option Status}

theorem Mirrors.count {i : Option Incident} (h : Mirrors i s) :
    i.map (·.occurrenceCount) = s.map (·.count) := by
  cases h with
  | absent => rfl
  | row hs => exact congrArg some hs.count

/-- What is known of the answer to a check. -/
structure Answered (g : PublicationResilienceGate) (c : Checked) : Prop where
  passes : c.answer = .ok () ↔ publicationAllowed g c.health = true
  code : ∀ code, c.answer = .error (.safety code) → ∃ o, obstacle g c.health = some o ∧ o.errorCode = code
  sink : ∀ e, c.answer = .error (.sink e) → e = .integrity

theorem Answered.of_allowed (hallowed : obstacle g h = none) : Answered g ⟨h, .ok ()⟩ where
  passes := ⟨fun _ => obstacle_eq_none.mp hallowed, fun _ => rfl⟩
  code := fun _ hcode => by cases hcode
  sink := fun _ he => by cases he

theorem not_allowed (hblock : obstacle g h = some o) : ¬ publicationAllowed g h = true := by
  rw [← obstacle_eq_none, hblock]
  exact fun h => by cases h

theorem Answered.of_safety (hblock : obstacle g h = some o) :
    Answered g ⟨h, .error (.safety o.errorCode)⟩ where
  passes := ⟨fun h => (by cases h), fun h => absurd h (not_allowed hblock)⟩
  code := fun code hcode => by
    cases hcode
    exact ⟨o, hblock, rfl⟩
  sink := fun _ he => by cases he

theorem Answered.of_sink (hblock : obstacle g h = some o) :
    Answered g ⟨h, .error (.sink .integrity)⟩ where
  passes := ⟨fun h => (by cases h), fun h => absurd h (not_allowed hblock)⟩
  code := fun _ hcode => by cases hcode
  sink := fun _ he => by
    cases he
    rfl

theorem block_opened (hopen : openIncident t uuid now o.args = .ok (t', row)) :
    block (some t) uuid now o = (some t', .error (.safety o.errorCode)) := by
  unfold block incident
  dsimp only
  rw [hopen]

theorem block_refused {e : StoreError} (hopen : openIncident t uuid now o.args = .error e) :
    block (some t) uuid now o = (some t, .error (.sink e)) := by
  unfold block incident
  dsimp only
  rw [hopen]

/-- The store takes what it is given, and can only find the identifier taken. -/
theorem args_refused {e : StoreError} (hblock : obstacle g h = some o)
    (hopen : openIncident t uuid now o.args = .error e) : e = .integrity := by
  obtain ⟨hseverity, hsummary⟩ := obstacle_taken hblock
  refine openIncident_error hopen hseverity ?_ rfl
  rintro (hkey | hevent | hempty)
  · exact absurd (show incidentKey = "" from hkey) (by decide)
  · exact absurd (show "GATEWAY_ETCD_DEGRADED" = "" from hevent) (by decide)
  · exact hsummary hempty

/-! ## One check -/

theorem check_answered (sink : Option Tables) (uuid now : String) (h : EtcdHealth) :
    Answered g ⟨h, (requirePublicationAllowed g sink uuid now h).2⟩ := by
  cases ho : obstacle g h with
  | none =>
      rw [require_of_none ho]
      exact .of_allowed ho
  | some o =>
      rw [require_of_some ho]
      cases sink with
      | none => exact .of_safety ho
      | some t =>
          cases hopen : openIncident t uuid now o.args with
          | ok r =>
              rw [block_opened hopen]
              exact .of_safety ho
          | error e =>
              rw [block_refused hopen, args_refused ho hopen]
              exact .of_sink ho

theorem resolve_mirrors (now : String) (hk : t.Keyed) (hm : Mirrors (findKey t incidentKey) s) :
    Mirrors (findKey (resolveIncident t now incidentKey recovered).1 incidentKey)
      (s.map fun s => { s with blocked := false }) := by
  have hwrote := Incidents.resolveIncident_wrote (t := t) now incidentKey recovered
  cases hfind : findKey t incidentKey with
  | none =>
      rw [hfind] at hm
      cases hm
      have hsame : (resolveIncident t now incidentKey recovered).1 = t := by
        unfold resolveIncident
        rw [hfind]
      rw [hsame, hfind]
      exact .absent
  | some old =>
      rw [hfind] at hm
      obtain ⟨row, hrow, hrows⟩ : ∃ row, (resolveIncident t now incidentKey recovered).2 = some row ∧
          Resolves old row := by
        unfold resolveIncident
        rw [hfind]
        exact ⟨_, rfl, rfl, rfl, rfl, rfl, rfl, rfl⟩
      rw [hrow] at hwrote
      rw [findKey_wrote (e := ⟨.resolveIncident, incidentKey, row⟩) hwrote hk]
      cases hm with
      | row hs =>
          have hseverity : Severity.ofText? _ = some row.severity := hrows.severity ▸ hs.severity
          exact .row ⟨hrows.code.trans hs.code, hseverity, hrows.count.trans hs.count, hrows.state, hrows.action,
            hrows.summary⟩

theorem check_mirrors (uuid now : String) (h : EtcdHealth) (hk : t.Keyed)
    (hm : Mirrors (findKey t incidentKey) s) :
    ∃ t', (requirePublicationAllowed g (some t) uuid now h).1 = some t' ∧ t'.Keyed ∧
      Mirrors (findKey t' incidentKey)
        (Status.after g s ⟨h, (requirePublicationAllowed g (some t) uuid now h).2⟩) := by
  cases ho : obstacle g h with
  | none =>
      rw [require_of_none ho]
      refine ⟨_, rfl, Incidents.keyed_wrote (Incidents.resolveIncident_wrote now incidentKey recovered) hk, ?_⟩
      exact resolve_mirrors now hk hm
  | some o =>
      rw [require_of_some ho]
      cases hopen : openIncident t uuid now o.args with
      | error e =>
          rw [block_refused hopen]
          exact ⟨t, rfl, hk, hm⟩
      | ok r =>
          obtain ⟨t', row⟩ := r
          rw [block_opened hopen]
          have hwrote := Incidents.openIncident_wrote hopen
          have hopens := openIncident_opens hopen
          have hfind : findKey t' incidentKey = some row := findKey_wrote hwrote hk
          have hstatus : Status.after g s ⟨h, .error (.safety o.errorCode)⟩ =
              some ⟨o, true, (s.map (·.count)).getD 0 + 1⟩ := by
            show (obstacle g h).map _ = _
            rw [ho, Option.map_some]
          have hcount : row.occurrenceCount = (s.map (·.count)).getD 0 + 1 := by
            rw [← hm.count]
            exact hopens.count
          refine ⟨t', rfl, Incidents.keyed_wrote hwrote hk, ?_⟩
          rw [hstatus, hfind]
          exact .row ⟨hopens.code, hopens.severity, hcount, hopens.state, hopens.action, hopens.summary⟩

/-! ## A run -/

theorem committed_key {w : Write} {e : Committed} (he : e ∈ t.committed w) : keyOf w = some e.dedupKey := by
  cases w with
  | openIncident uuid now a =>
      simp only [Tables.committed] at he
      cases ho : openIncident t uuid now a with
      | error x =>
          rw [ho] at he
          cases he
      | ok r =>
          rw [ho] at he
          obtain rfl := List.mem_singleton.mp he
          rfl
  | recovering now key impact =>
      obtain ⟨row, -, rfl⟩ := List.mem_map.mp he
      rfl
  | resolveIncident now key impact =>
      obtain ⟨row, -, rfl⟩ := List.mem_map.mp he
      rfl
  | startHistory now => cases he

/-- A check, or a write under another key. -/
def Step.Elsewhere : Step → Prop
  | .check _ _ _ => True
  | .other w => keyOf w ≠ some incidentKey

theorem run_mirrors (hk : t.Keyed) (hsteps : ∀ st ∈ steps, st.Elsewhere) (hm : Mirrors (findKey t incidentKey) s) :
    Mirrors (findKey (run g t steps).1 incidentKey) ((run g t steps).2.foldl (Status.after g) s) := by
  induction steps generalizing t s with
  | nil => exact hm
  | cons st steps ih =>
      have htail : ∀ st ∈ steps, st.Elsewhere := fun st hst => hsteps st (List.mem_cons_of_mem _ hst)
      cases st with
      | check uuid now h =>
          obtain ⟨t', hsome, hk', hm'⟩ := check_mirrors (g := g) uuid now h hk hm
          have hget : (requirePublicationAllowed g (some t) uuid now h).1.getD t = t' := by rw [hsome, Option.getD_some]
          have hrest := ih hk' htail hm'
          rw [← hget] at hrest
          exact hrest
      | other w =>
          have hwrote := Incidents.write_wrote t w
          have hw : keyOf w ≠ some incidentKey := hsteps _ List.mem_cons_self
          have hfind : findKey (t.write w) incidentKey = findKey t incidentKey :=
            findKey_other hwrote fun e he heq => hw ((committed_key he).trans (congrArg some heq))
          exact ih (Incidents.keyed_wrote hwrote hk) htail (hfind ▸ hm)

theorem run_answered (hc : c ∈ (run g t steps).2) : Answered g c := by
  induction steps generalizing t with
  | nil => cases hc
  | cons st steps ih =>
      cases st with
      | check uuid now h =>
          rcases List.mem_cons.mp hc with rfl | hc
          · exact check_answered (some t) uuid now h
          · exact ih hc
      | other w => exact ih hc

def sampleGate : PublicationResilienceGate := ⟨["gateway"], 64, by decide, by decide⟩

/-- A quorum is lost, another incident opens, and the quorum is back. -/
def sampleSteps : List Step :=
  [.check "a" "2026-01-01T00:00:00Z" ⟨false, false, 0, 1⟩,
    .other (.recovering "2026-01-01T00:00:01Z" "gateway:other" "Another incident."),
    .check "b" "2026-01-01T00:00:02Z" ⟨true, false, 3, 1⟩]

theorem sample_elsewhere : ∀ st ∈ sampleSteps, st.Elsewhere := by
  have hother : (Step.other (.recovering "2026-01-01T00:00:01Z" "gateway:other" "Another incident.")).Elsewhere := by
    show some "gateway:other" ≠ some incidentKey
    decide
  intro st hst
  simp only [sampleSteps, List.mem_cons, List.not_mem_nil, or_false] at hst
  rcases hst with rfl | rfl | rfl
  · trivial
  · exact hother
  · trivial

theorem sorted_eq_iff {xs ys : List String} : sorted xs = sorted ys ↔ xs.Perm ys := by
  rw [← Multiset.coe_eq_coe]
  constructor
  · intro h
    have hx := Multiset.sort_eq (xs : Multiset String) (· ≤ ·)
    have hy := Multiset.sort_eq (ys : Multiset String) (· ≤ ·)
    rw [← hx, ← hy]
    exact congrArg _ h
  · exact fun h => congrArg (Multiset.sort · (· ≤ ·)) h

/-- A restored state that is the desired one, with nothing in it that is not governed. -/
structure Restored (g : PublicationResilienceGate) (desired : DesiredState) (restored : RestoredState) : Prop where
  revision : restored.activeRevision = some desired.revision
  routes : restored.routes.Perm desired.routes
  upstreams : restored.upstreams.Perm desired.upstreams
  allowed : ∀ u ∈ restored.upstreams, u ∈ g.allowedUpstreams
  wildcard : ∀ text ∈ restored.routes ++ restored.upstreams, '*' ∉ text.toList

theorem any_hasChar {a : Char} {texts : List String} :
    ¬ texts.any (Text.hasChar a) = true ↔ ∀ text ∈ texts, a ∉ text.toList := by
  simp [Text.hasChar]

theorem verifyRestore_iff {desired : DesiredState} {restored : RestoredState} :
    verifyRestore g desired restored = .ok () ↔ Restored g desired restored := by
  unfold verifyRestore
  rw [guard_eq_ok, guard_eq_ok, guard_eq_ok, guard_eq_ok, guard_eq_ok, guard_eq_ok, not_not, not_not, not_not,
    sorted_eq_iff, sorted_eq_iff, any_hasChar, any_hasChar]
  constructor
  · rintro ⟨hrevision, hroutes, hupstreams, hallowed, hroute, hupstream, -⟩
    refine ⟨hrevision, hroutes, hupstreams, fun u hu => ?_, fun text htext => ?_⟩
    · by_contra hnot
      exact hallowed (List.any_eq_true.mpr ⟨u, hu, by simp [hnot]⟩)
    · rcases List.mem_append.mp htext with h | h
      · exact hroute text h
      · exact hupstream text h
  · intro h
    have hallowed : ¬ (restored.upstreams.any fun u => !g.allowedUpstreams.contains u) = true := by
      rw [List.any_eq_true]
      rintro ⟨u, hu, hnot⟩
      simp [h.allowed u hu] at hnot
    exact ⟨h.revision, h.routes, h.upstreams, hallowed, fun text ht => h.wildcard text (List.mem_append_left _ ht),
      fun text ht => h.wildcard text (List.mem_append_right _ ht), rfl⟩

end OufGateway.EtcdResilience
