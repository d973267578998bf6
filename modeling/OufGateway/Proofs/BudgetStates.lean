import Mathlib
import OufGateway.Lib.Table
import OufGateway.Lib.Trace
import OufGateway.Proofs.OutboxBooks
import OufGateway.Proofs.OutboxLife
import OufGateway.Proofs.OutboxRuns
import OufGateway.Proofs.OutboxSpecs
import OufGateway.Proofs.OutboxCalls
import OufGateway.Proofs.Budgets

/-!
# The state of a delivery and the state of its session

A delivery and its active session change state in separate statements, and every
transaction but one changes both. The exception is the early return of `send_once`:
a delivery that has been selected with less than an attempt left of its session is
exhausted, and the session stays active until the next dispatch sweeps it. So the
two agree in every state of a run exactly when no dispatch of the run takes that
return (`sessions_agree_iff`).

A session is the active one of one delivery only, so an update of the sessions some
deliveries point to changes, for each delivery, its own (`find?_markSessions`). That
is what makes the sweep right for any tables whose other deliveries agree already.
-/

namespace OufGateway.Outbox

open Lib

variable {t t' : Tables} {d : String} {row : Delivery} {b : Session} {now : ℚ}

/-! ## Agreement -/

/-- The session is active exactly while the delivery waits or is in flight, and has the
delivery's state otherwise. -/
def Agrees (row : Delivery) (b : Session) : Prop :=
  (b.state = .active ↔ row.state = .pending ∨ row.state = .inFlight) ∧
    (row.state ≠ .pending → row.state ≠ .inFlight → b.state = row.state.session)

/-- Every delivery agrees with its active session, and no other session of it is
active. -/
def Agree (t : Tables) : Prop :=
  ∀ d row, t.deliveries.find? d = some row →
    ∃ b, t.sessions.find? row.activeSession = some b ∧ Agrees row b ∧
      ∀ s x, t.sessions.find? s = some x → x.deliveryId = d → s ≠ row.activeSession →
        x.state ≠ .active

/-- The state the session of a delivery is to have. -/
def State.budget : State → SessionState
  | .pending => .active
  | .inFlight => .active
  | .unknown => .unknown
  | .exhausted => .exhausted
  | .paused => .paused
  | .accepted => .accepted

theorem agrees_iff : Agrees row b ↔ b.state = row.state.budget := by
  unfold Agrees
  cases row.state <;> cases b.state <;> simp [State.budget, State.session]

def Matched (t : Tables) : Prop :=
  ∀ d row, t.deliveries.find? d = some row →
    ∃ b, t.sessions.find? row.activeSession = some b ∧ b.state = row.state.budget

theorem agree_iff (h : Books t) : Agree t ↔ Matched t := by
  constructor
  · intro ha d row hrow
    obtain ⟨b, hb, hagrees, -⟩ := ha d row hrow
    exact ⟨b, hb, agrees_iff.mp hagrees⟩
  · intro hm d row hrow
    obtain ⟨b, hb, hstate⟩ := hm d row hrow
    refine ⟨b, hb, agrees_iff.mpr hstate, fun s x hx hd hne => ?_⟩
    have hretired : Retired t x := by
      intro row' hrow'
      rw [hd, hrow] at hrow'
      obtain rfl := Option.some.inj hrow'
      rw [Table.find?_key hx]
      exact Ne.symm hne
    rw [h.retired s x hx hretired]
    simp

/-! ## Updates of one delivery and its session -/

/-- Another delivery has another session. -/
theorem Books.ne_session (h : Books t) {k : String} {other : Delivery}
    (hrow : t.deliveries.find? d = some row) (hother : t.deliveries.find? k = some other)
    (hne : k ≠ d) : other.activeSession ≠ row.activeSession := by
  intro heq
  obtain ⟨b, hb, hbd⟩ := h.active d row hrow
  have hk := h.owner hother (heq ▸ hb)
  exact hne (hk.symm.trans hbd)

/-- An update of one delivery and of its session: only that pair is to be looked at. -/
theorem matched_modify (h : Books t) (hm : Matched t) (hrow : t.deliveries.find? d = some row)
    {f : Delivery → Delivery} {hf : ∀ r, (f r).deliveryId = r.deliveryId}
    {g : Session → Session} {hg : ∀ b, (g b).sessionId = b.sessionId}
    (hact : (f row).activeSession = row.activeSession)
    (hnew : ∀ b, b.state = row.state.budget → (g b).state = (f row).state.budget) :
    Matched { t with
      deliveries := t.deliveries.modify d f hf
      sessions := t.sessions.modify row.activeSession g hg } := by
  intro k row' hrow'
  change (t.deliveries.modify d f hf).find? k = some row' at hrow'
  by_cases hk : k = d
  · subst hk
    rw [Table.find?_modify_self, hrow] at hrow'
    obtain rfl := Option.some.inj hrow'
    obtain ⟨b, hb, hstate⟩ := hm k row hrow
    refine ⟨g b, ?_, hnew b hstate⟩
    show (t.sessions.modify row.activeSession g hg).find? (f row).activeSession = _
    rw [hact, Table.find?_modify_self, hb]
    rfl
  · rw [Table.find?_modify_ne hk] at hrow'
    obtain ⟨b, hb, hstate⟩ := hm k row' hrow'
    refine ⟨b, ?_, hstate⟩
    show (t.sessions.modify row.activeSession g hg).find? row'.activeSession = _
    rw [Table.find?_modify_ne (h.ne_session hrow hrow' hk)]
    exact hb

/-- An update of one delivery that leaves what its session is to be. -/
theorem matched_delivery (hm : Matched t) (hrow : t.deliveries.find? d = some row)
    {f : Delivery → Delivery} {hf : ∀ r, (f r).deliveryId = r.deliveryId}
    (hact : (f row).activeSession = row.activeSession)
    (hnew : (f row).state.budget = row.state.budget) :
    Matched { t with deliveries := t.deliveries.modify d f hf } := by
  intro k row' hrow'
  change (t.deliveries.modify d f hf).find? k = some row' at hrow'
  by_cases hk : k = d
  · subst hk
    rw [Table.find?_modify_self, hrow] at hrow'
    obtain rfl := Option.some.inj hrow'
    obtain ⟨b, hb, hstate⟩ := hm k row hrow
    exact ⟨b, by rw [hact]; exact hb, hstate.trans hnew.symm⟩
  · rw [Table.find?_modify_ne hk] at hrow'
    exact hm k row' hrow'

/-! ## The sweep -/

/-- The sessions some deliveries point to are marked, seen from one delivery. -/
theorem find?_markSessions (h : Books t) (s : State) (hrow : t.deliveries.find? d = some row)
    (hb : t.sessions.find? row.activeSession = some b) :
    (markSessions t s).sessions.find? row.activeSession =
      some (if row.state = s then { b with state := s.session } else b) := by
  have hiff : (t.deliveries.rows.any fun r =>
      decide (r.state = s) && decide (r.activeSession = b.sessionId)) = true ↔ row.state = s := by
    rw [List.any_eq_true]
    constructor
    · rintro ⟨other, hother, hcond⟩
      rw [Bool.and_eq_true, decide_eq_true_iff, decide_eq_true_iff, Table.find?_key hb] at hcond
      by_cases hk : other.deliveryId = d
      · have hsame := Table.find?_of_mem hother
        rw [hk, hrow] at hsame
        obtain rfl := Option.some.inj hsame
        exact hcond.1
      · exact absurd hcond.2 (h.ne_session hrow (Table.find?_of_mem hother) hk)
    · intro hs
      refine ⟨row, Table.mem_of_find? hrow, ?_⟩
      rw [Bool.and_eq_true, decide_eq_true_iff, decide_eq_true_iff, Table.find?_key hb]
      exact ⟨hs, rfl⟩
  rw [markSessions, Table.find?_update, hb, Option.map_some]
  by_cases hs : row.state = s
  · rw [if_pos (hiff.mpr hs), if_pos hs]
  · rw [if_neg (hiff.not.mpr hs), if_neg hs]

/-- After a sweep every delivery agrees with its session, if those did that were not
exhausted. -/
theorem matched_sweep (h : Books t)
    (hm : ∀ d row, t.deliveries.find? d = some row → row.state ≠ .exhausted →
      ∃ b, t.sessions.find? row.activeSession = some b ∧ b.state = row.state.budget) (now : ℚ) :
    Matched (sweep t now) := by
  intro d row hrow
  have h2 : Books (exhaustBudgets (expireLeases t now) now) :=
    (keeps_exhaustBudgets (keeps_expireLeases h now).books now).books
  have h3 := (keeps_markSessions h2 .exhausted).books
  obtain ⟨b, hb, -⟩ := h2.active d row hrow
  have hfirst := find?_markSessions h2 .exhausted hrow hb
  have hsecond := find?_markSessions h3 .unknown hrow hfirst
  refine ⟨_, hsecond, ?_⟩
  by_cases hu : row.state = .unknown
  · rw [if_pos hu, hu]
    rfl
  · rw [if_neg hu]
    by_cases hx : row.state = .exhausted
    · rw [if_pos hx, hx]
      rfl
    · rw [if_neg hx]
      -- The row has not moved, so its session was right before.
      rcases hold : t.deliveries.find? d with _ | r
      · rw [find?_sweep_none hold] at hrow
        cases hrow
      · obtain ⟨r', hr', hcase⟩ := find?_sweep hold
        rw [hrow] at hr'
        obtain rfl := Option.some.inj hr'
        rcases hcase with rfl | ⟨-, rfl⟩ | ⟨-, rfl⟩
        · obtain ⟨b', hb', hstate⟩ := hm d row hold hx
          change t.sessions.find? _ = some b at hb
          rw [hb'] at hb
          obtain rfl := Option.some.inj hb
          exact hstate
        · exact absurd rfl hu
        · exact absurd rfl hx

theorem Matched.sweep (hm : Matched t) (h : Books t) (now : ℚ) :
    Matched (Outbox.sweep t now) :=
  matched_sweep h (fun d row hrow _ => hm d row hrow) now

/-! ## The other transactions -/

theorem matched_insertDelivery (hm : Matched t) {row : Delivery} {b : Session}
    (hok : insertDelivery t row b = .ok t') (hact : row.activeSession = b.sessionId)
    (hstate : b.state = row.state.budget) : Matched t' := by
  obtain ⟨D, S, hD, hS, rfl⟩ := insertDelivery_ok hok
  intro k row' hrow'
  rcases Table.find?_insert?_cases hD hrow' with ⟨-, rfl⟩ | ⟨-, hold⟩
  · exact ⟨b, by rw [hact]; exact Table.find?_insert?_self hS, hstate⟩
  · obtain ⟨x, hx, hxs⟩ := hm k row' hold
    exact ⟨x, Table.find?_insert?_old hS hx, hxs⟩

theorem matched_openSession (h : Books t) (hm : Matched t) (hrow : t.deliveries.find? d = some row)
    (hok : openSession t row b = .ok t') (hactive : b.state = .active) : Matched t' := by
  have hid := Table.find?_key hrow
  obtain ⟨S, hS, rfl⟩ := openSession_ok hok
  intro k row' hrow'
  obtain ⟨r, hr, -, -, hact⟩ := find?_activate hrow'
  by_cases hk : k = row.deliveryId
  · rw [if_pos hk] at hact
    subst hk
    rw [activate, Table.find?_modify_self] at hrow'
    obtain ⟨r', -, rfl⟩ := Option.map_eq_some_iff.mp hrow'
    exact ⟨b, Table.find?_insert?_self hS, hactive⟩
  · rw [if_neg hk] at hact
    rw [activate, Table.find?_modify_ne hk] at hrow'
    obtain ⟨x, hx, hxs⟩ := hm k row' hrow'
    refine ⟨x, Table.find?_insert?_old hS ?_, hxs⟩
    rw [retire, Table.find?_modify_ne (h.ne_session hrow hrow' (hid ▸ hk))]
    exact hx

/-- What `_finish` and a proof write agrees with the session they write. -/
theorem session_eq_budget {kind : Kind} {s : State} (h : Settled kind s) :
    (if s = .pending then .active else s.session) = s.budget := by
  cases kind with
  | accepted => rw [show s = _ from h]; rfl
  | permanent => rw [show s = _ from h]; rfl
  | unknown => rw [show s = _ from h]; rfl
  | transientNotAccepted =>
      rcases h with rfl | rfl
      · rfl
      · rfl

/-! ## One step -/

/-- A dispatch that takes the early return: the delivery it selects has less than an
attempt left of its session. -/
def CutsShort (t : Tables) (w : Worker) : Prop :=
  ∃ destination transportRef now token previewed config row budget,
    w = .sendCommit destination transportRef now token previewed ∧
      Selected t destination transportRef now previewed config row budget ∧
      Short config row budget now

theorem matched_transact {α : Type} {x : Except Exn (Tables × α)} {k : α → Worker × List Event}
    (hm : Matched t) (h : ∀ t' a, x = .ok (t', a) → Matched t') : Matched (transact t x k).1 := by
  unfold transact
  split
  · next t' a => exact h t' a rfl
  · exact hm

theorem advance_matched (h : Books t) (hm : Matched t) (incidents : Incidents.Tables) (o : Oracle)
    {w : Worker} (hcut : ¬ CutsShort t w) : Matched (advance incidents t o w).1 := by
  unfold advance
  split
  · refine matched_transact hm fun t' _ hok => ?_
    obtain ⟨hd, hs⟩ := configure_ok (map_unit_eq_ok hok)
    unfold Matched
    rw [hd, hs]
    exact hm
  · refine matched_transact hm fun t' r hok => ?_
    exact reconcile_keeps hok (fun _ _ h => h)
      (fun _ _ _ _ _ _ hm hins => matched_insertDelivery hm hins rfl rfl) hm
  · refine matched_transact hm fun t' r hok => ?_
    rcases claimNext_spec hok with ⟨rfl, -⟩ |
      ⟨config, row, budget, hselected, ⟨hshort, -, -⟩ | ⟨-, rfl, -⟩⟩
    · exact hm.sweep h _
    · exact absurd ⟨_, _, _, _, _, config, row, budget, rfl, hselected, hshort⟩ hcut
    · next _ _ now _ _ =>
      have hsweep := (keeps_sweep h now).books
      have hfound := hselected.found
      rw [← Table.find?_key hfound] at hfound
      refine matched_modify hsweep (hm.sweep h _) hfound rfl fun b hb => ?_
      rw [hselected.pending] at hb
      exact hb
  · exact hm
  · refine matched_transact hm fun t' s hok => ?_
    obtain ⟨row, budget, lease, due, hheld, hsettle, rfl⟩ := finish_spec hok
    have hfound := hheld.found
    rw [← Table.find?_key hfound] at hfound
    have hstate := session_eq_budget (settle_ok hsettle)
    unfold writeOutcome
    split
    · next hpending =>
      refine matched_delivery hm hfound rfl ?_
      rw [hheld.inFlight, hpending]
      rfl
    · next hpending =>
      refine matched_modify h hm hfound rfl fun b _ => ?_
      rw [if_neg hpending] at hstate
      exact hstate
  · refine matched_transact hm fun t' _ hok => ?_
    obtain ⟨row, hrow, -, -, hopen⟩ := renew_spec (map_unit_eq_ok hok)
    exact matched_openSession h hm hrow hopen rfl
  · refine matched_transact hm fun t' n hok => ?_
    obtain ⟨row, hrow, -, -, rfl, -⟩ := takeAllowance_ok hok
    exact matched_delivery hm hrow rfl rfl
  · exact hm
  · refine matched_transact hm fun t' s hok => ?_
    obtain ⟨row, receipt, hrow, hu, hs, rfl⟩ := commitProof_ok hok
    rw [← Table.find?_key hrow] at hrow
    have hstate := session_eq_budget hs
    refine matched_modify h hm hrow rfl fun b _ => ?_
    show s.session = s.budget
    rw [← hstate]
    split
    · next hpending => rw [hpending]; rfl
    · rfl
  · exact hm

/-- The early return leaves the session of its delivery active. -/
theorem advance_cutsShort (h : Books t) (hm : Matched t) (incidents : Incidents.Tables) (o : Oracle)
    {w : Worker} (hcut : CutsShort t w) : ¬ Matched (advance incidents t o w).1 := by
  obtain ⟨destination, transportRef, now, token, previewed, config, row, budget, rfl, hselected,
    hshort⟩ := hcut
  have hok : (advance incidents t o (.sendCommit destination transportRef now token previewed)).1 =
      exhaust (sweep t now) row.deliveryId := by
    simp only [advance, transact, claimNext_short hselected hshort]
  rw [hok]
  intro hafter
  have hfound := hselected.found
  rw [← Table.find?_key hfound] at hfound
  obtain ⟨b, hb, hstate⟩ := hm.sweep h now _ row hfound
  obtain ⟨b', hb', hstate'⟩ := hafter row.deliveryId
    { row with state := .exhausted, version := row.version + 1 } (by
      rw [exhaust, Table.find?_modify_self, hfound]
      rfl)
  change (sweep t now).sessions.find? row.activeSession = some b' at hb'
  rw [hb] at hb'
  obtain rfl := Option.some.inj hb'
  rw [hselected.pending] at hstate
  rw [hstate] at hstate'
  cases hstate'

/-! ## Every run -/

/-- The step is a dispatch that takes the early return. -/
def World.CutsShort (w : World) (i : Input) : Prop :=
  ∃ k o, i = .step k o ∧ Outbox.CutsShort w.tables (w.workers k)

theorem World.not_cutsShort (w : World) {i : Input} (h : ∀ k o, i ≠ .step k o) :
    ¬ w.CutsShort i := by
  rintro ⟨k, o, heq, -⟩
  exact h k o heq

theorem next_matched {w : World} (h : Books w.tables) (hm : Matched w.tables) (i : Input) :
    Matched (system.step w i).tables ↔ ¬ w.CutsShort i := by
  cases i with
  | step k o =>
      constructor
      · rintro hafter ⟨k', o', heq, hcut⟩
        cases heq
        exact advance_cutsShort h hm w.incidents o hcut hafter
      · intro hcut
        exact advance_matched h hm w.incidents o fun hc => hcut ⟨k, o, rfl, hc⟩
  | incident write => exact iff_of_true hm (w.not_cutsShort (by simp))
  | call k c =>
      refine iff_of_true ?_ (w.not_cutsShort (by simp))
      show Matched (w.next (.call k c)).1.tables
      simp only [World.next]
      split <;> exact hm
  | crash k => exact iff_of_true hm (w.not_cutsShort (by simp))

/-- In a run, deliveries and sessions agree in every state exactly when no dispatch
takes the early return. -/
theorem sessions_agree_iff (incidents : Incidents.Tables) (is : List Input) :
    (∀ pre : List Input, pre <+: is → Agree (system.run (World.initial incidents) pre).tables) ↔
      ∀ (pre : List Input) (i : Input) (post : List Input), is = pre ++ i :: post →
        ¬ (system.run (World.initial incidents) pre).CutsShort i := by
  have hbooks : ∀ pre, Books (system.run (World.initial incidents) pre).tables :=
    fun pre => (inv_run incidents pre).books
  constructor
  · intro hagree pre i post heq
    have hbefore := (agree_iff (hbooks pre)).mp (hagree pre ⟨i :: post, heq.symm⟩)
    have hafter := (agree_iff (hbooks (pre ++ [i]))).mp
      (hagree (pre ++ [i]) ⟨post, by rw [heq, List.append_assoc]; rfl⟩)
    rw [system.run_snoc] at hafter
    exact (next_matched (hbooks pre) hbefore i).mp hafter
  · intro hcut pre hpre
    rw [agree_iff (hbooks pre)]
    obtain ⟨rest, rfl⟩ := hpre
    induction pre using List.reverseRecOn generalizing rest with
    | nil =>
        intro d row hrow
        cases hrow
    | append_singleton pre i ih =>
        have hbefore := ih (i :: rest) (by rwa [List.append_assoc] at hcut)
        rw [system.run_snoc]
        exact (next_matched (hbooks pre) hbefore i).mpr
          (hcut pre i rest (by rw [List.append_assoc]; rfl))

/-- Four seconds before the end of its session a delivery is dispatched: it is
`EXHAUSTED`, and its session `ACTIVE`. -/
theorem exhausted_with_active_session :
    ¬ Agree (system.run (World.initial started) (oneOutage ++
      (dispatching 86396 "delivery-1").inputs 0 "alert://on-call" (some "transport://pager"))).tables := by
  let w := system.run (World.initial started) oneOutage
  let before := system.run w (((dispatching 86396 "delivery-1").inputs 0 "alert://on-call"
    (some "transport://pager")).take 4)
  obtain ⟨x, hnotified⟩ := stands_oneOutage
  have hcommit : Stands before oneIncident notified 0 (.sendCommit "alert://on-call"
      (some "transport://pager") 86396 "audit-1" (some "delivery-1")) :=
    (stands_dispatching (dispatchable_single (waits_notified (by norm_num) (by norm_num)))
      hnotified).1
  have hcut : CutsShort before.tables (before.workers 0) := by
    rw [hcommit.tables, hcommit.worker]
    refine ⟨_, _, _, _, _, _, _, _, rfl,
      (dispatchable_single (waits_notified (by norm_num) (by norm_num))).selected, Or.inr ?_⟩
    show (0 + 86400 : ℚ) - 86396 < 5
    norm_num
  have hrun : system.run (World.initial started) (oneOutage ++
        (dispatching 86396 "delivery-1").inputs 0 "alert://on-call" (some "transport://pager")) =
      system.step before (.step 0 permissive) := by
    rw [system.run_append]
    rfl
  have hbooks : ∀ is, Books (system.run (World.initial started) is).tables :=
    fun is => (inv_run _ is).books
  have hbefore : Books before.tables := by
    have h := hbooks (oneOutage ++ ((dispatching 86396 "delivery-1").inputs 0 "alert://on-call"
      (some "transport://pager")).take 4)
    rwa [system.run_append] at h
  have hmatched : Matched before.tables := by
    rw [hcommit.tables]
    intro d row hrow
    obtain ⟨rfl, rfl⟩ : row = firstDelivery ∧ d = "delivery-1" := by
      have hmem := List.mem_singleton.mp (Table.mem_of_find? hrow)
      exact ⟨hmem, by rw [← Table.find?_key hrow, hmem]; rfl⟩
    exact ⟨firstSession, rfl, rfl⟩
  rw [agree_iff (hbooks _), hrun]
  exact advance_cutsShort hbefore hmatched before.incidents permissive hcut

end OufGateway.Outbox
