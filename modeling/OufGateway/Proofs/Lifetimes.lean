import Mathlib
import OufGateway.Lib.Tickets
import OufGateway.Proofs.OutboxLife
import OufGateway.Proofs.OutboxRuns
import OufGateway.Proofs.OutboxSpecs
import OufGateway.Proofs.OutboxCalls
import OufGateway.Proofs.OutboxHistory
import OufGateway.Proofs.NoBlindResend
import OufGateway.Proofs.Budgets

/-!
# Attempts and their lifetime

`send_once` reads the clock once, before it asks for the delivery's authorization and
before it waits for the lock, and everything it decides and writes goes by that
reading: the session is to have five seconds left of it, and the lease is ten seconds
from it. Until the send the clock moves on. While the lease lasts nobody else can
touch the row: no sweep has a reading past the lease, no other worker has the attempt
to finish, and every other transaction wants another state. So at the send the
delivery is within its lifetime exactly when the clock has moved less than ten seconds
since the reading, and leaves five of the session (`sends_in_lifetime_iff`).
-/

namespace OufGateway.Outbox

open Lib

variable {t t' : Tables} {d : String} {row : Delivery} {b : Session} {now l D r : ℚ} {c : Claim}
  {incidents : Incidents.Tables} {j : Nat} {o : Oracle}

/-- At `now` the delivery is in flight for this attempt, its lease is not over, and an
attempt of five seconds ends within its active session. -/
def InLifetime (t : Tables) (c : Claim) (now : ℚ) : Prop :=
  ∃ row lease b, t.deliveries.find? c.deliveryId = some row ∧ row.state = .inFlight ∧
    row.claimToken = some c.token ∧ row.version = c.version ∧ row.leaseUntil = some lease ∧
    now < lease ∧ t.sessions.find? row.activeSession = some b ∧ now + 5 ≤ b.deadline

/-! ## Deadlines do not move -/

/-- A session keeps its deadline. -/
def Dated (t : Tables) (s : String) (D : ℚ) : Prop :=
  ∃ b, t.sessions.find? s = some b ∧ b.deadline = D

theorem dated_update {s : String} {p : Session → Bool} {f : Session → Session}
    {hf : ∀ b, (f b).sessionId = b.sessionId} (h : Dated t s D)
    (hkeep : ∀ b, (f b).deadline = b.deadline) :
    Dated { t with sessions := t.sessions.update p f hf } s D := by
  obtain ⟨b, hb, rfl⟩ := h
  refine ⟨if p b then f b else b, ?_, ?_⟩
  · show (t.sessions.update p f hf).find? s = _
    rw [Table.find?_update, hb]
    rfl
  · split
    · exact hkeep b
    · rfl

theorem dated_sweep {s : String} (h : Dated t s D) (now : ℚ) : Dated (sweep t now) s D := by
  have h2 : Dated (exhaustBudgets (expireLeases t now) now) s D := h
  exact dated_update (dated_update h2 fun _ => rfl) fun _ => rfl

theorem dated_grown {s : String} (hg : Grown t t') (h : Dated t s D) : Dated t' s D := by
  induction hg with
  | refl t => exact h
  | insert _ hins _ ih =>
      obtain ⟨_, S, -, hS, rfl⟩ := insertDelivery_ok hins
      obtain ⟨b, hb, hD⟩ := h
      exact ih ⟨b, Table.find?_insert?_old hS hb, hD⟩
  | other _ _ hs ih =>
      obtain ⟨b, hb, hD⟩ := h
      exact ih ⟨b, by rw [hs]; exact hb, hD⟩

theorem effect_dated {s : String} {w w' : Worker} {evs : List Event} (he : Effect t w evs w' t')
    (h : Dated t s D) : Dated t' s D := by
  cases he with
  | quiet _ hs =>
      obtain ⟨b, hb, hD⟩ := h
      exact ⟨b, by rw [hs]; exact hb, hD⟩
  | grown hg => exact dated_grown hg h
  | swept now => exact dated_sweep h now
  | exhausted now => exact dated_sweep h now
  | claimed now => exact dated_update (dated_sweep h now) fun _ => rfl
  | sent => exact h
  | finished due receipt =>
      unfold writeOutcome
      split
      · exact h
      · exact dated_update h fun _ => rfl
  | @renewed _ _ _ row _ _ _ _ _ _ hok =>
      obtain ⟨S, hS, rfl⟩ := openSession_ok hok
      have hretired : Dated (retire t row) s D := dated_update h fun _ => rfl
      obtain ⟨b, hb, hD⟩ := hretired
      exact ⟨b, Table.find?_insert?_old hS hb, hD⟩
  | allowed => exact h
  | queried => exact h
  | reconciled => exact dated_update h fun _ => rfl

theorem next_dated {w : World} {s : String} (h : Dated w.tables s D) (i : Input) :
    Dated (w.next i).1.tables s D := by
  rcases next_cases w i with ⟨ht, -, -⟩ | ⟨k, w', -, he⟩
  · rw [ht]
    exact h
  · exact effect_dated he h

/-! ## The claim of an attempt -/

/-- The step in which a worker committed the attempt: the reading it went by, and the
deadline of the session that paid for it. -/
def Committed (w : World) (j : Nat) (c : Claim) (r D : ℚ) : Prop :=
  ∃ destination transportRef token previewed config row budget,
    w.workers j = .sendCommit destination transportRef r token previewed ∧
      Selected w.tables destination transportRef r previewed config row budget ∧
      ¬ Short config row budget r ∧ c = attemptOf config row token ∧ budget.deadline = D

/-- A worker that holds an attempt after a step has just committed it. -/
theorem holding_of_advance {w : World} (h : (advance w.incidents w.tables o (w.workers j)).2.1 =
    .holding c) : ∃ r D, Committed w j c r D := by
  have hgoes := advance_goes w.incidents w.tables o (w.workers j)
  rw [h] at hgoes
  generalize hw : w.workers j = worker at hgoes
  cases hgoes with
  | @claim destination token transportRef previewed now t' c hclaim =>
      rcases claimNext_spec hclaim with ⟨-, hr | hr⟩ |
        ⟨config, row, budget, hselected, ⟨-, -, hr⟩ | ⟨hshort, -, hr⟩⟩
      · cases hr
      · cases hr
      · cases hr
      · cases hr
        exact ⟨now, _, destination, transportRef, token, previewed, config, row, budget, hw,
          hselected, hshort, rfl, rfl⟩

/-! ## Attempts that have been sent -/

/-- The attempt a worker has sent and has yet to finish. -/
def Worker.launched? : Worker → Option Claim
  | .sending c => some c
  | .finishing c _ => some c
  | .finishCommit c _ _ => some c
  | _ => none

theorem attempt_of_launched {w : Worker} (h : w.launched? = some c) : w.attempt? = some c := by
  cases w <;> first | exact h | cases h

theorem attempt_cases {w : Worker} (h : w.attempt? = some c) :
    w.launched? = some c ∨ w = .holding c := by
  cases w with
  | holding c' => exact Or.inr (congrArg _ (Option.some.inj h))
  | _ => exact Or.inl h

theorem launched_of_effect {w w' : Worker} {evs : List Event} (he : Effect t w evs w' t')
    (h : w'.launched? = some c) : w.launched? = some c ∨ w = .holding c := by
  have hattempt := attempt_of_launched h
  have free : w'.Free → w.launched? = some c ∨ w = .holding c := by
    intro hw'
    rw [hw'.attempt] at hattempt
    cases hattempt
  cases he with
  | quiet _ _ _ _ hat => exact attempt_cases (hat c hattempt)
  | grown _ hw' => exact free hw'
  | swept _ hw' => exact free hw'
  | exhausted _ _ _ hw' => exact free hw'
  | claimed => cases h
  | sent hw =>
      cases h
      exact Or.inr hw
  | finished _ _ _ _ _ _ _ _ _ hw' => exact free hw'
  | renewed _ _ _ _ _ _ hw' => exact free hw'
  | allowed => cases h
  | queried => cases h
  | reconciled _ _ _ _ _ _ _ hw' => exact free hw'

/-- An attempt a worker has launched was sent in the run. -/
theorem sent_of_launched {is : List Input}
    (h : ((system.run (World.initial incidents) is).workers j).launched? = some c) :
    .sent c.deliveryId c.number ∈ system.trace (World.initial incidents) is := by
  have hbegin : ∀ call, (begin call).launched? ≠ some c := by
    intro call hcall
    have hattempt := attempt_of_launched hcall
    rw [(free_begin call).attempt] at hattempt
    cases hattempt
  obtain ⟨a, o, b, rfl, hnot, hstep, -⟩ :=
    since_last (Q := fun w => w.launched? = some c) (by simp [Worker.launched?]) hbegin h
  rcases launched_of_effect (advance_effect _ _ o _) hstep with hbefore | hholding
  · exact absurd hbefore hnot
  · rw [system.trace_append, system.trace_cons]
    refine List.mem_append_right _ (List.mem_append_left _ ?_)
    show _ ∈ (World.next _ _).2
    simp only [World.next, hholding, advance, List.mem_singleton]

/-! ## While the lease lasts -/

/-- A sweep within the lease leaves the row. -/
theorem find?_sweep_leased (hrow : t.deliveries.find? d = some row) (hf : row.state = .inFlight)
    (hl : row.leaseUntil = some l) (hnow : now < l) :
    (sweep t now).deliveries.find? d = some row := by
  have hlive : ¬ (decide (row.state = .inFlight) && row.leaseUntil.any (· ≤ now)) = true := by
    rw [hl, hf]
    simpa using hnow
  have hwaits : ∀ p : Bool, ¬ (decide (row.state = .pending) && p) = true := by
    intro p
    rw [hf]
    simp
  show (exhaustBudgets (expireLeases t now) now).deliveries.find? d = _
  rw [exhaustBudgets, Table.find?_update, expireLeases, Table.find?_update, hrow, Option.map_some,
    Option.map_some, if_neg hlive, if_neg (hwaits _)]

/-- One step of any worker leaves the row of an attempt within its lease, unless it is
the attempt's own `_finish`. -/
theorem find?_advance_leased (hrow : t.deliveries.find? d = some row) (hf : row.state = .inFlight)
    (hl : row.leaseUntil = some l) (incidents : Incidents.Tables) (o : Oracle) {w : Worker}
    (hnow : ∀ r, w.reading? = some r → r < l)
    (hother : ∀ c, w.launched? = some c → c.deliveryId = d → row.version ≠ c.version) :
    (advance incidents t o w).1.deliveries.find? d = some row := by
  have other : ∀ {k : String} {x : Delivery}, t.deliveries.find? k = some x → x.state ≠ .inFlight →
      d ≠ k := by
    rintro k x hx hstate rfl
    rw [hrow] at hx
    exact hstate (Option.some.inj hx ▸ hf)
  have transacted : ∀ {α : Type} {x : Except Exn (Tables × α)} {k : α → Worker × List Event},
      (∀ t' a, x = .ok (t', a) → t'.deliveries.find? d = some row) →
      (transact t x k).1.deliveries.find? d = some row := by
    intro α x k h
    unfold transact
    split
    · exact h _ _ rfl
    · exact hrow
  unfold advance
  split
  · refine transacted fun t' _ hok => ?_
    rw [(configure_ok (map_unit_eq_ok hok)).1]
    exact hrow
  · exact transacted fun t' r hok => life_grown (reconcileOwnerTransitions_ok hok) hrow
  · next destination transportRef now token previewed =>
    have hswept := find?_sweep_leased hrow hf hl (hnow now rfl)
    refine transacted fun t' r hok => ?_
    rcases claimNext_spec hok with ⟨rfl, -⟩ |
      ⟨config, row', budget, hselected, ⟨-, rfl, -⟩ | ⟨-, rfl, -⟩⟩
    · exact hswept
    all_goals
      have hne : d ≠ row'.deliveryId := by
        intro heq
        have hfound := hselected.found
        rw [← Table.find?_key hfound, ← heq, hswept] at hfound
        have hpending := hselected.pending
        rw [← Option.some.inj hfound, hf] at hpending
        cases hpending
    · rw [exhaust, Table.find?_modify_ne hne]
      exact hswept
    · rw [claim, Table.find?_modify_ne hne]
      exact hswept
  · exact hrow
  · next c outcome now =>
    refine transacted fun t' s hok => ?_
    obtain ⟨row', budget, lease, due, hheld, -, rfl⟩ := finish_spec hok
    have hne : d ≠ row'.deliveryId := by
      intro heq
      have hfound := hheld.found
      have hid := Table.find?_key hfound
      rw [← hid, ← heq, hrow] at hfound
      obtain rfl := Option.some.inj hfound
      exact hother c rfl (hid.symm.trans heq.symm) hheld.version
    rw [writeOutcome, Table.find?_modify_ne hne]
    exact hrow
  · refine transacted fun t' _ hok => ?_
    obtain ⟨row', hrow', hx, -, hopen⟩ := renew_spec (map_unit_eq_ok hok)
    obtain ⟨S, -, rfl⟩ := openSession_ok hopen
    rw [← Table.find?_key hrow'] at hrow'
    rw [activate, Table.find?_modify_ne (other hrow' (by simp [hx]))]
    exact hrow
  · refine transacted fun t' n hok => ?_
    obtain ⟨row', hrow', hu, -, rfl, -⟩ := takeAllowance_ok hok
    rw [allow, Table.find?_modify_ne (other hrow' (by simp [hu]))]
    exact hrow
  · exact hrow
  · refine transacted fun t' s hok => ?_
    obtain ⟨row', receipt, hrow', hu, -, rfl⟩ := commitProof_ok hok
    rw [← Table.find?_key hrow'] at hrow'
    rw [writeProof, Table.find?_modify_ne (other hrow' (by simp [hu]))]
    exact hrow
  · exact hrow

/-! ## From the claim to the send -/

/-- The row and the session a claim leaves. -/
theorem committed_row {w : World} (h : Committed w j c r D) (o : Oracle) :
    ∃ row, (system.step w (.step j o)).tables.deliveries.find? c.deliveryId = some row ∧
      row.state = .inFlight ∧ row.claimToken = some c.token ∧ row.version = c.version ∧
      row.leaseUntil = some (min (r + 10) D) ∧
      Dated (system.step w (.step j o)).tables row.activeSession D ∧ r + 5 ≤ D := by
  obtain ⟨destination, transportRef, token, previewed, config, row, budget, hw, hselected, hshort,
    rfl, rfl⟩ := h
  have htables : (system.step w (.step j o)).tables =
      claim (sweep w.tables r) row token (min (r + 10) budget.deadline) := by
    show (World.next _ _).1.tables = _
    simp only [World.next, hw, advance, transact, claimNext_takes hselected hshort]
  have hfound := hselected.found
  rw [← Table.find?_key hfound] at hfound
  rw [htables]
  refine ⟨{ row with
    state := .inFlight, version := row.version + 1, totalAttempts := row.totalAttempts + 1
    claimToken := some token, leaseUntil := some (min (r + 10) budget.deadline) }, ?_, rfl, rfl, rfl,
    rfl, ?_, ?_⟩
  · show (claim _ _ _ _).deliveries.find? row.deliveryId = _
    rw [claim, Table.find?_modify_self, hfound]
    rfl
  · exact dated_update ⟨budget, hselected.paid, rfl⟩ fun _ => rfl
  · rw [Short, not_or, not_lt] at hshort
    linarith [hshort.2]

/-- An attempt in flight stays as it is until its version moves on. -/
theorem Life.inFlight {evs : List Event} {r r' : Delivery} (h : Life d r evs r')
    (hf : r.state = .inFlight) : r' = r ∨ r.version < r'.version := by
  cases h with
  | rest => exact Or.inl rfl
  | allow hs => rw [hf] at hs; cases hs
  | _ => exact Or.inr (by omega)

section Since

variable {a b : List Input} {o' : Oracle}

/-- What becomes of the row of a claim. -/
theorem row_kept_or_passed
    (hrow : (system.run (World.initial incidents) a).tables.deliveries.find? d = some row)
    (hf : row.state = .inFlight) : ∃ x, (system.run (World.initial incidents) (a ++ b)).tables.deliveries.find? d =
      some x ∧ (x = row ∨ row.version < x.version) := by
  induction b using List.reverseRecOn with
  | nil => exact ⟨row, by rw [List.append_nil]; exact hrow, Or.inl rfl⟩
  | append_singleton b i ih =>
      obtain ⟨x, hx, hcase⟩ := ih
      obtain ⟨x', hx', hlife⟩ := next_life (inv_run incidents (a ++ b)) i hx
      rw [← List.append_assoc, system.run_snoc]
      refine ⟨x', hx', ?_⟩
      rcases hcase with rfl | hlt
      · exact hlife.inFlight hf
      · exact Or.inr (hlt.trans_le hlife.version_le)

/-- While its worker holds the attempt and no reading passes the lease, the row stays. -/
theorem row_kept
    (hrow : (system.run (World.initial incidents) a).tables.deliveries.find? c.deliveryId = some row)
    (hf : row.state = .inFlight) (hv : row.version = c.version) (hl : row.leaseUntil = some l)
    (hheld : ∀ b', b' <+: b →
      (system.run (World.initial incidents) (a ++ b')).workers j = .holding c)
    (hread : ∀ r ∈ readings (a ++ b), r < l) :
    (system.run (World.initial incidents) (a ++ b)).tables.deliveries.find? c.deliveryId =
      some row := by
  induction b using List.reverseRecOn with
  | nil => rwa [List.append_nil]
  | append_singleton b i ih =>
      have hbefore := ih (fun b' hb' => hheld b' (hb'.trans (List.prefix_append _ _)))
        fun r hr => hread r (by
          rw [← List.append_assoc, readings_append]
          exact List.mem_append_left _ hr)
      have hinv := inv_run incidents (a ++ b)
      have hholds := hheld b (List.prefix_append _ _)
      rw [← List.append_assoc, system.run_snoc]
      cases i with
      | step k o =>
          refine find?_advance_leased hbefore hf hl _ o (fun r hr => ?_) fun c' hc' hid heq => ?_
          · refine hread r ?_
            rw [← List.append_assoc, readings_append]
            exact List.mem_append_left _ (reading_mem hr)
          · -- Another worker with this version would hold the same ticket, used.
            obtain ⟨x, hx⟩ := hinv.current k c' (attempt_of_launched hc')
            obtain ⟨y, hy⟩ := hinv.current j c (by rw [hholds]; rfl)
            have hxrow : x = row := Option.some.inj (hx.stored.symm.trans (hid ▸ hbefore))
            have hyrow : y = row := Option.some.inj (hy.stored.symm.trans hbefore)
            subst hxrow
            have hnumber : c'.number = c.number :=
              (hx.waiting heq.symm).2.trans (hyrow ▸ (hy.waiting (hyrow ▸ hv.symm)).2).symm
            refine hinv.sends.held_unused j (c.deliveryId, c.number) (by rw [hholds]; rfl) ?_
            exact List.mem_filterMap.mpr ⟨_, sent_of_launched hc', by
              rw [hid, hnumber]
              rfl⟩
      | incident write => exact hbefore
      | call k call =>
          show (World.next _ _).1.tables.deliveries.find? _ = _
          simp only [World.next]
          split <;> exact hbefore
      | crash k => exact hbefore

theorem dated_run {s : String}
    (h : Dated (system.run (World.initial incidents) a).tables s D) (b : List Input) :
    Dated (system.run (World.initial incidents) (a ++ b)).tables s D := by
  induction b using List.reverseRecOn with
  | nil => rwa [List.append_nil]
  | append_singleton b i ih =>
      rw [← List.append_assoc, system.run_snoc]
      exact next_dated ih i

end Since

/-- Every send of a run goes back to a claim its worker has held since: made by one
reading of the clock, on a session with some deadline. When the clock never goes back,
the delivery is within its lifetime at the send exactly when less than ten seconds have
passed since that reading and an attempt still ends by that deadline. -/
theorem sends_in_lifetime_iff (incidents : Incidents.Tables) (is : List Input)
    (hclock : NeverBack is) :
    ∀ (pre : List Input) (j : Nat) (o : Oracle) (post : List Input) (c : Claim),
      is = pre ++ .step j o :: post →
      (system.run (World.initial incidents) pre).workers j = .holding c →
      ∃ (a : List Input) (o' : Oracle) (b : List Input) (r D : ℚ), pre = a ++ .step j o' :: b ∧
        Committed (system.run (World.initial incidents) a) j c r D ∧
        (∀ b', b' <+: b → (system.run (World.initial incidents)
          (a ++ .step j o' :: b')).workers j = .holding c) ∧
        (InLifetime (system.run (World.initial incidents) pre).tables c o.now ↔
          o.now < r + 10 ∧ o.now + 5 ≤ D) := by
  intro pre j o post c his hsend
  subst his
  have hbegin : ∀ call, begin call ≠ .holding c := by
    intro call hcall
    have hclaim := (free_begin call).claim
    rw [hcall] at hclaim
    cases hclaim
  obtain ⟨a, o', b, rfl, -, hstep, hheld⟩ :=
    since_last (Q := fun w => w = .holding c) (by simp) hbegin hsend
  obtain ⟨r, D, hcommitted⟩ := holding_of_advance hstep
  obtain ⟨row, hrow, hf, htoken, hversion, hlease, hdated, hlong⟩ := committed_row hcommitted o'
  rw [← system.run_snoc] at hrow hdated
  have hsplit : ∀ b', a ++ .step j o' :: b' = a ++ [.step j o'] ++ b' := fun b' => by
    rw [List.append_assoc]
    rfl
  rw [hsplit] at hclock ⊢
  refine ⟨a, o', b, r, D, (hsplit b).symm ▸ rfl, hcommitted, hheld, ?_, ?_⟩
  · rintro ⟨x, lease, s, hx, -, -, hxv, hxl, hnow, hs, hdeadline⟩
    -- The row is still the one the claim wrote, for its version has not moved.
    obtain ⟨x', hx', hcase⟩ := row_kept_or_passed (b := b) hrow hf
    obtain rfl : x = x' := Option.some.inj (hx.symm.trans hx')
    rcases hcase with rfl | hlt
    · rw [hlease] at hxl
      obtain rfl := Option.some.inj hxl
      obtain ⟨s', hs', rfl⟩ := dated_run hdated b
      obtain rfl : s = s' := Option.some.inj (hs.symm.trans hs')
      exact ⟨hnow.trans_le (min_le_left _ _), hdeadline⟩
    · omega
  · rintro ⟨hten, hfive⟩
    have hwithin : o.now < min (r + 10) D := lt_min hten (by linarith)
    have hkept := row_kept hrow hf hversion hlease
      (fun b' hb' => by rw [← hsplit]; exact hheld b' hb')
      fun x hx => (hclock.le_now hx).trans_lt hwithin
    obtain ⟨s, hs, hD⟩ := dated_run hdated b
    exact ⟨row, _, s, hkept, hf, htoken, hversion, hlease, hwithin, hs, hD ▸ hfive⟩

/-- The notification of an outage is claimed at 0; the clock stands at 20 when it is sent. -/
def lateSend : List Input :=
  oneOutage ++ (dispatching 0 "delivery-1").inputs 0 "alert://on-call" (some "transport://pager") ++
    [.step 0 { permissive with now := 20, later := 20 }]

theorem neverBack_lateSend : NeverBack lateSend := by
  show (readings lateSend).Pairwise (· ≤ ·)
  decide +kernel

theorem sends_in_lifetime_lateSend :
    NeverBack lateSend ∧ ∀ (pre : List Input) (j : Nat) (o : Oracle) (post : List Input) (c : Claim),
      lateSend = pre ++ .step j o :: post →
      (system.run (World.initial started) pre).workers j = .holding c →
      ∃ (a : List Input) (o' : Oracle) (b : List Input) (r D : ℚ), pre = a ++ .step j o' :: b ∧
        Committed (system.run (World.initial started) a) j c r D ∧
        (∀ b', b' <+: b →
          (system.run (World.initial started) (a ++ .step j o' :: b')).workers j = .holding c) ∧
        (InLifetime (system.run (World.initial started) pre).tables c o.now ↔
          o.now < r + 10 ∧ o.now + 5 ≤ D) :=
  ⟨neverBack_lateSend, sends_in_lifetime_iff _ lateSend neverBack_lateSend⟩

/-- It is sent ten seconds after its lease. -/
theorem sent_after_lease :
    ¬ ∀ (is : List Input), NeverBack is → ∀ (pre : List Input) (j : Nat) (o : Oracle)
      (post : List Input) (c : Claim), is = pre ++ .step j o :: post →
      (system.run (World.initial started) pre).workers j = .holding c →
      InLifetime (system.run (World.initial started) pre).tables c o.now := by
  intro h
  obtain ⟨x, hnotified⟩ := stands_oneOutage
  have hheld := stands_attempted hnotified
  rw [← system.run_append] at hheld
  obtain ⟨row, lease, b, hrow, -, -, -, hlease, hnow, -, -⟩ :=
    h lateSend neverBack_lateSend _ 0 _ [] firstAttempt rfl hheld.worker
  rw [hheld.tables] at hrow
  have hclaimed : attempted.deliveries.find? firstAttempt.deliveryId = some { firstDelivery with
    state := .inFlight, version := 1, totalAttempts := 1, claimToken := some "audit-1"
    leaseUntil := some 10 } := rfl
  rw [hclaimed] at hrow
  obtain rfl := Option.some.inj hrow
  obtain rfl : (10 : ℚ) = lease := Option.some.inj hlease
  have hlate : (20 : ℚ) < 10 := hnow
  norm_num at hlate

end OufGateway.Outbox
