import Mathlib
import OufGateway.Proofs.OutboxSteps

/-!
# The life of one delivery

Every step of the system, seen from one delivery, is a move of a small state
machine: it rests, its lease lapses, its budget is exhausted, it is claimed,
finished, renewed, allowed a query or reconciled. `Life` is that machine. It
mentions no table, no session and no other delivery, and `effect_life` shows
that each effect refines it at every delivery.

A claim leaves `PENDING` and every other state leads back to `PENDING` or
`EXHAUSTED` only by a transient outcome that was committed for it. That
is read off `Life` by its eight cases, and the run-level results of the next
modules need nothing else about states.
-/

namespace OufGateway.Outbox

open Lib

/-- The events that change the row of a delivery. -/
def Event.moves (d : String) : Event → Bool
  | .claimed k _ => k = d
  | .sent _ _ => false
  | .finished k _ _ _ _ => k = d
  | .renewed k => k = d
  | .allowed k _ => k = d
  | .queried _ _ => false
  | .reconciled k _ _ => k = d

inductive Life (d : String) (r : Delivery) : List Event → Delivery → Prop
  | rest {evs : List Event} (hq : ∀ e ∈ evs, e.moves d = false) : Life d r evs r
  | lapse {evs : List Event} {r' : Delivery} (hq : ∀ e ∈ evs, e.moves d = false)
      (hs : r.state = .inFlight) (hs' : r'.state = .unknown) (hv : r'.version = r.version + 1)
      (ht : r'.totalAttempts = r.totalAttempts)
      (ha : r'.reconciliationAttempts = r.reconciliationAttempts) : Life d r evs r'
  | exhaust {evs : List Event} {r' : Delivery} (hq : ∀ e ∈ evs, e.moves d = false)
      (hs : r.state = .pending) (hs' : r'.state = .exhausted) (hv : r'.version = r.version + 1)
      (ht : r'.totalAttempts = r.totalAttempts)
      (ha : r'.reconciliationAttempts = r.reconciliationAttempts) : Life d r evs r'
  | claim {r' : Delivery} (hs : r.state = .pending) (hs' : r'.state = .inFlight)
      (hv : r'.version = r.version + 1) (ht : r'.totalAttempts = r.totalAttempts + 1)
      (ha : r'.reconciliationAttempts = r.reconciliationAttempts) :
      Life d r [.claimed d (r.totalAttempts + 1)] r'
  | finish {r' : Delivery} {kind : Kind} {s : State} {now lease : ℚ} (hs : r.state = .inFlight)
      (hl : r.leaseUntil = some lease) (hnow : now < lease) (hk : Settled kind s)
      (hs' : r'.state = s)
      (hv : r'.version = r.version + 1) (ht : r'.totalAttempts = r.totalAttempts)
      (ha : r'.reconciliationAttempts = r.reconciliationAttempts) :
      Life d r [.finished d r.totalAttempts kind s now] r'
  | renew {r' : Delivery} (hs : r.state = .exhausted) (hs' : r'.state = .pending)
      (hv : r'.version = r.version + 1) (ht : r'.totalAttempts = r.totalAttempts)
      (ha : r'.reconciliationAttempts = r.reconciliationAttempts) : Life d r [.renewed d] r'
  | allow {r' : Delivery} (hs : r.state = .unknown) (hs' : r'.state = .unknown)
      (hv : r'.version = r.version) (ht : r'.totalAttempts = r.totalAttempts)
      (ha : r'.reconciliationAttempts = r.reconciliationAttempts + 1) :
      Life d r [.allowed d (r.reconciliationAttempts + 1)] r'
  | reconcile {r' : Delivery} {kind : Kind} {s : State} (hs : r.state = .unknown)
      (hq : kind = .accepted ∨ kind = .transientNotAccepted) (hk : Settled kind s)
      (hs' : r'.state = s)
      (hv : r'.version = r.version + 1) (ht : r'.totalAttempts = r.totalAttempts)
      (ha : r'.reconciliationAttempts = r.reconciliationAttempts) :
      Life d r [.reconciled d kind s] r'

theorem Life.version_le {d : String} {r r' : Delivery} {evs : List Event} (h : Life d r evs r') :
    r.version ≤ r'.version := by
  cases h with
  | rest => exact le_rfl
  | allow _ _ hv => omega
  | _ => omega

theorem Life.total_le {d : String} {r r' : Delivery} {evs : List Event} (h : Life d r evs r') :
    r.totalAttempts ≤ r'.totalAttempts := by
  cases h with
  | rest => exact le_rfl
  | _ => omega

/-- A move that leaves the version where it was leaves the state and the
attempts where they were. -/
theorem Life.eq_of_version {d : String} {r r' : Delivery} {evs : List Event}
    (h : Life d r evs r') (hv : r'.version = r.version) :
    r'.state = r.state ∧ r'.totalAttempts = r.totalAttempts := by
  cases h with
  | rest => exact ⟨rfl, rfl⟩
  | allow hs hs' _ ht => exact ⟨hs'.trans hs.symm, ht⟩
  | _ => omega

/-! ## What a sweep does to a row -/

theorem find?_expireLeases {t : Tables} {now : ℚ} {d : String} {r : Delivery}
    (h : t.deliveries.find? d = some r) :
    (expireLeases t now).deliveries.find? d = some r ∨
      r.state = .inFlight ∧ (expireLeases t now).deliveries.find? d =
        some { r with state := .unknown, version := r.version + 1, claimToken := none } := by
  rw [expireLeases, Table.find?_update, h, Option.map_some]
  split
  · next hl =>
    rw [Bool.and_eq_true, decide_eq_true_iff] at hl
    exact Or.inr ⟨hl.1, rfl⟩
  · exact Or.inl rfl

theorem find?_exhaustBudgets {t : Tables} {now : ℚ} {d : String} {r : Delivery}
    (h : t.deliveries.find? d = some r) :
    ((exhaustBudgets t now).deliveries.find? d = some r ∧ (r.state = .pending →
      ∀ b ∈ t.sessions.rows, b.sessionId = r.activeSession → b.spent now = false)) ∨
      r.state = .pending ∧ (exhaustBudgets t now).deliveries.find? d =
        some { r with state := .exhausted, version := r.version + 1 } := by
  rw [exhaustBudgets, Table.find?_update, h, Option.map_some]
  split
  · next hl =>
    rw [Bool.and_eq_true, decide_eq_true_iff] at hl
    exact Or.inr ⟨hl.1, rfl⟩
  · next hl =>
    refine Or.inl ⟨rfl, fun hp b hb hs => ?_⟩
    by_contra hspent
    refine hl ?_
    rw [Bool.and_eq_true, decide_eq_true_iff, List.any_eq_true]
    refine ⟨hp, b, hb, ?_⟩
    rw [Bool.and_eq_true, decide_eq_true_iff]
    exact ⟨hs, by simpa using hspent⟩

/-- A sweep leaves a row alone, lapses it or exhausts it. -/
theorem find?_sweep {t : Tables} {now : ℚ} {d : String} {r : Delivery}
    (h : t.deliveries.find? d = some r) :
    ∃ r', (sweep t now).deliveries.find? d = some r' ∧
      (r' = r ∨
        r.state = .inFlight ∧
          r' = { r with state := .unknown, version := r.version + 1, claimToken := none } ∨
        r.state = .pending ∧ r' = { r with state := .exhausted, version := r.version + 1 }) := by
  show ∃ r', (exhaustBudgets (expireLeases t now) now).deliveries.find? d = some r' ∧ _
  rcases find?_expireLeases h with h1 | ⟨hf, h1⟩
  · rcases find?_exhaustBudgets h1 with ⟨h2, -⟩ | ⟨hp, h2⟩
    · exact ⟨_, h2, Or.inl rfl⟩
    · exact ⟨_, h2, Or.inr (Or.inr ⟨hp, rfl⟩)⟩
  · -- An unknown row is not pending, so the second update passes it over.
    rcases find?_exhaustBudgets h1 with ⟨h2, -⟩ | ⟨hp, -⟩
    · exact ⟨_, h2, Or.inr (Or.inl ⟨hf, rfl⟩)⟩
    · cases hp

theorem find?_sweep_none {t : Tables} {now : ℚ} {d : String}
    (h : t.deliveries.find? d = none) : (sweep t now).deliveries.find? d = none := by
  show (exhaustBudgets (expireLeases t now) now).deliveries.find? d = none
  rw [exhaustBudgets, Table.find?_update, expireLeases, Table.find?_update, h]
  rfl

/-- A row a sweep found pending, or made pending, was there before, as it is:
no sweep makes a row pending. -/
theorem find?_of_sweep_pending {t : Tables} {now : ℚ} {d : String} {r : Delivery}
    (h : (sweep t now).deliveries.find? d = some r) (hp : r.state = .pending) :
    t.deliveries.find? d = some r := by
  rcases h0 : t.deliveries.find? d with _ | r₀
  · rw [find?_sweep_none h0] at h
    cases h
  · obtain ⟨r', hr', hcase⟩ := find?_sweep h0
    rw [h] at hr'
    injection hr' with hr'
    subst hr'
    rcases hcase with rfl | ⟨-, rfl⟩ | ⟨-, rfl⟩
    · rfl
    · cases hp
    · cases hp

theorem life_sweep {t : Tables} (now : ℚ) {d : String} {r : Delivery} {evs : List Event}
    (h : t.deliveries.find? d = some r) (hq : ∀ e ∈ evs, e.moves d = false) :
    ∃ r', (sweep t now).deliveries.find? d = some r' ∧ Life d r evs r' := by
  obtain ⟨r', hr', hcase⟩ := find?_sweep h
  refine ⟨r', hr', ?_⟩
  rcases hcase with rfl | ⟨hs, rfl⟩ | ⟨hs, rfl⟩
  · exact .rest hq
  · exact .lapse hq hs rfl rfl rfl rfl
  · exact .exhaust hq hs rfl rfl rfl rfl

/-- What is pending after a sweep has budget left. -/
theorem unspent_of_sweep {t : Tables} {now : ℚ} {d : String} {row : Delivery} {b : Session}
    (h : (sweep t now).deliveries.find? d = some row) (hp : row.state = .pending)
    (hb : (sweep t now).sessions.find? row.activeSession = some b) :
    b.attempts < b.maxAttempts := by
  have h0 := find?_of_sweep_pending h hp
  have hunspent : ∀ b ∈ t.sessions.rows, b.sessionId = row.activeSession → b.spent now = false := by
    have h1 : (expireLeases t now).deliveries.find? d = some row := by
      rcases find?_expireLeases h0 with h1 | ⟨hf, -⟩
      · exact h1
      · rw [hp] at hf
        cases hf
    rcases find?_exhaustBudgets h1 with ⟨-, hs⟩ | ⟨-, h2⟩
    · exact hs hp
    · -- An exhausted row is not pending.
      change (sweep t now).deliveries.find? d = _ at h2
      rw [h] at h2
      injection h2 with h2
      rw [h2] at hp
      cases hp
  -- The session's numbers are those it had before.
  change (markSessions (markSessions _ _) _).sessions.find? _ = some b at hb
  rw [markSessions, Table.find?_update, Option.map_eq_some_iff] at hb
  obtain ⟨b₁, hb₁, rfl⟩ := hb
  rw [markSessions, Table.find?_update, Option.map_eq_some_iff] at hb₁
  obtain ⟨b₀, hb₀, rfl⟩ := hb₁
  have hspent := hunspent b₀ (Table.mem_of_find? hb₀) (Table.find?_key hb₀)
  have hlt : b₀.attempts < b₀.maxAttempts := by
    rw [Session.spent, Bool.or_eq_false_iff, decide_eq_false_iff_not, decide_eq_false_iff_not]
      at hspent
    omega
  split <;> split <;> exact hlt

/-! ## Every effect keeps the books -/

theorem keeps_other {t t' : Tables} (h : Books t) (hd : t'.deliveries = t.deliveries)
    (hs : t'.sessions = t.sessions) : Keeps t t' := by
  obtain ⟨_, _, D, S, _⟩ := t
  obtain ⟨_, _, D', S', _⟩ := t'
  obtain rfl : D' = D := hd
  obtain rfl : S' = S := hs
  exact ⟨⟨h.active, h.owned, h.within, h.retired, h.total, h.allowances⟩,
    fun _ _ hb hr => ⟨hb, hr⟩⟩

theorem keeps_grown {t t' : Tables} (hg : Grown t t') (h : Books t) : Keeps t t' := by
  induction hg with
  | refl t => exact .rfl h
  | insert hnew hins _ ih =>
      have h1 := keeps_insertDelivery h hins hnew.activeSession hnew.deliveryId hnew.totalAttempts
        hnew.reconciliationAttempts hnew.attempts hnew.maxAttempts
      exact h1.trans (ih h1.books)
  | other _ hd hs ih =>
      have h1 := keeps_other h hd hs
      exact h1.trans (ih h1.books)

theorem effect_keeps {t t' : Tables} {w w' : Worker} {evs : List Event}
    (he : Effect t w evs w' t') (h : Books t) : Keeps t t' := by
  cases he with
  | quiet hd hs => exact keeps_other h hd hs
  | grown hg => exact keeps_grown hg h
  | swept now => exact keeps_sweep h now
  | exhausted now =>
      have h1 := keeps_sweep h now
      exact h1.trans (keeps_exhaust h1.books _)
  | claimed now token lease hrow hp hb =>
      have h1 := keeps_sweep h now
      have hlt := unspent_of_sweep hrow hp hb
      rw [← Table.find?_key hrow] at hrow
      exact h1.trans (keeps_claim h1.books hrow hb hlt token lease)
  | sent => exact .rfl h
  | finished due receipt _ hrow =>
      rw [← Table.find?_key hrow] at hrow
      exact keeps_writeOutcome h hrow _ _ _
  | renewed hrow _ hb ha hm hok =>
      have hid := Table.find?_key hrow
      rw [← hid] at hrow
      exact keeps_openSession h hok hrow (hb.trans hid.symm) ha hm
  | allowed hrow _ hlt => exact keeps_allow h hrow hlt
  | queried => exact .rfl h
  | reconciled due receipt _ hrow =>
      rw [← Table.find?_key hrow] at hrow
      exact keeps_writeProof h hrow _ _ _

/-! ## Every effect is a move of every delivery -/

/-- What ties the attempt a worker holds to its delivery: the version has not
gone back, and while it has not moved the delivery waits for this attempt. -/
structure Current (t : Tables) (c : Claim) (row : Delivery) : Prop where
  stored : t.deliveries.find? c.deliveryId = some row
  version : c.version ≤ row.version
  number : c.number ≤ row.totalAttempts
  waiting : c.version = row.version → row.state = .inFlight ∧ c.number = row.totalAttempts

theorem life_grown {t t' : Tables} (hg : Grown t t') {d : String} {r : Delivery}
    (h : t.deliveries.find? d = some r) : t'.deliveries.find? d = some r := by
  induction hg with
  | refl t => exact h
  | insert _ hins _ ih =>
      obtain ⟨D, S, hD, -, rfl⟩ := insertDelivery_ok hins
      exact ih (Table.find?_insert?_old hD h)
  | other _ hd _ ih =>
      rw [← hd] at h
      exact ih h

/-- The row an update by key leaves: the new one there, the old ones elsewhere. -/
theorem life_modify {t : Tables} {j k d : String} {row r : Delivery} {f : Delivery → Delivery}
    {evs : List Event} (hf : ∀ r, (f r).deliveryId = r.deliveryId)
    (hrow : t.deliveries.find? k = some row) (hj : j = k) (h : t.deliveries.find? d = some r)
    (hq : d ≠ k → ∀ e ∈ evs, e.moves d = false) (hlife : Life k row evs (f row)) :
    ∃ r', (t.deliveries.modify j f hf).find? d = some r' ∧ Life d r evs r' := by
  subst hj
  by_cases hd : d = j
  · subst hd
    rw [hrow] at h
    injection h with h
    subst h
    exact ⟨f row, by rw [Table.find?_modify_self, hrow]; rfl, hlife⟩
  · exact ⟨r, by rw [Table.find?_modify_ne hd]; exact h, .rest (hq hd)⟩

theorem effect_life {t t' : Tables} {w w' : Worker} {evs : List Event}
    (he : Effect t w evs w' t')
    (hcur : ∀ c, w.attempt? = some c → ∃ row, Current t c row) {d : String} {r : Delivery}
    (h : t.deliveries.find? d = some r) :
    ∃ r', t'.deliveries.find? d = some r' ∧ Life d r evs r' := by
  have hnil : ∀ e ∈ ([] : List Event), e.moves d = false := by simp
  cases he with
  | quiet hd hs =>
      rw [hd]
      exact ⟨r, h, .rest hnil⟩
  | grown hg => exact ⟨r, life_grown hg h, .rest hnil⟩
  | swept now => exact life_sweep now h hnil
  | @exhausted _ now k row hrow hp =>
      by_cases hd : d = k
      · subst hd
        rw [find?_of_sweep_pending hrow hp] at h
        injection h with h
        subst h
        refine ⟨{ row with state := .exhausted, version := row.version + 1 }, ?_,
          .exhaust hnil hp rfl rfl rfl rfl⟩
        rw [exhaust, Table.find?_modify_self, hrow]
        rfl
      · obtain ⟨r', hr', hlife⟩ := life_sweep now h hnil
        exact ⟨r', by rw [exhaust, Table.find?_modify_ne hd]; exact hr', hlife⟩
  | @claimed now row budget c token lease hrow hp hb hv hn =>
      have hid := Table.find?_key hrow
      by_cases hd : d = c.deliveryId
      · subst hd
        rw [find?_of_sweep_pending hrow hp] at h
        injection h with h
        subst h
        rw [hn]
        refine ⟨{ row with
          state := .inFlight, version := row.version + 1, totalAttempts := row.totalAttempts + 1
          claimToken := some token, leaseUntil := some lease }, ?_, .claim hp rfl rfl rfl rfl⟩
        rw [claim, Table.find?_modify, if_pos hid.symm, hrow]
        rfl
      · have hq : ∀ e ∈ [Event.claimed c.deliveryId c.number], e.moves d = false := by
          simpa [Event.moves] using Ne.symm hd
        obtain ⟨r', hr', hlife⟩ := life_sweep now h hq
        refine ⟨r', ?_, hlife⟩
        rw [claim, hid, Table.find?_modify_ne hd]
        exact hr'
  | sent => exact ⟨r, h, .rest (by simp [Event.moves])⟩
  | @finished _ c row kind s now lease due receipt hw hrow hf hv hl hnow hs =>
      have hid := Table.find?_key hrow
      obtain ⟨row', hc⟩ := hcur c hw
      obtain rfl : row = row' := by
        have heq := hc.stored
        rw [hrow] at heq
        exact Option.some.inj heq
      rw [(hc.waiting hv.symm).2]
      refine life_modify ?_ hrow hid h (fun hd => ?_) ?_
      · exact fun _ => rfl
      · simpa [Event.moves] using Ne.symm hd
      · exact .finish hf hl hnow hs rfl rfl rfl rfl
  | @renewed _ _ k row b hrow hx hb ha hm hok =>
      have hid := Table.find?_key hrow
      obtain ⟨S, -, rfl⟩ := openSession_ok hok
      refine life_modify ?_ hrow hid h (fun hd => ?_) ?_
      · exact fun _ => rfl
      · simpa [Event.moves] using Ne.symm hd
      · exact .renew hx rfl rfl rfl rfl
  | @allowed k v row hrow hu hlt =>
      refine life_modify ?_ hrow rfl h (fun hd => ?_) ?_
      · exact fun _ => rfl
      · simpa [Event.moves] using Ne.symm hd
      · exact .allow hu hu rfl rfl rfl
  | queried => exact ⟨r, h, .rest (by simp [Event.moves])⟩
  | @reconciled _ k row kind s due receipt hw hrow hu hs hk =>
      have hid := Table.find?_key hrow
      refine life_modify ?_ hrow hid h (fun hd => ?_) ?_
      · exact fun _ => rfl
      · simpa [Event.moves] using Ne.symm hd
      · exact .reconcile hu hk hs rfl rfl rfl rfl

end OufGateway.Outbox
