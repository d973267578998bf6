import Mathlib
import OufGateway.Lib.Tickets
import OufGateway.Proofs.OutboxLife

/-!
# The invariant of every run

`Inv` ties the tables, the workers and the trace of a run together. Its parts
are what the two contracts of the outbox need: the claims of a delivery are
numbered 1, 2, ... up to its `total_attempts`; between two claims there is an
answer to the first; a delivery that is pending or exhausted has every claim
answered; a claim or an allowance is a ticket, held by one worker and used
once; and a worker's attempt is current exactly as long as the delivery's
version has not moved.

Each part is kept by an effect for its own reason, shown in a lemma of its
own; `inv_next` puts them together and `inv_run` is the induction.
-/

namespace OufGateway.Outbox

open Lib

/-! ## Reading a trace -/

def Event.claim? : Event → Option (String × Nat)
  | .claimed d n => some (d, n)
  | _ => none

def Event.send? : Event → Option (String × Nat)
  | .sent d n => some (d, n)
  | _ => none

def Event.allowance? : Event → Option (String × Nat)
  | .allowed d n => some (d, n)
  | _ => none

def Event.query? : Event → Option (String × Nat)
  | .queried d n => some (d, n)
  | _ => none

/-- The numbers a list of tickets has for a delivery, in order. -/
def numbers (d : String) (l : List (String × Nat)) : List Nat :=
  (l.filter fun t => t.1 = d).map (·.2)

theorem mem_numbers {d : String} {n : Nat} {l : List (String × Nat)} :
    n ∈ numbers d l ↔ (d, n) ∈ l := by
  simp [numbers]

theorem length_numbers (d : String) (l : List (String × Nat)) :
    (numbers d l).length = l.countP fun t => t.1 = d := by
  rw [numbers, List.length_map, List.countP_eq_length_filter]

def IsClaim (d : String) (e : Event) : Prop := ∃ n, e = .claimed d n

/-- What lets a delivery be claimed again: the claim's own `_finish`, or a
query, committed a transient outcome. -/
def Answers (d : String) (a b : Event) : Prop :=
  (∃ n s now, a = .claimed d n ∧ b = .finished d n .transientNotAccepted s now) ∨
    ∃ s, b = .reconciled d .transientNotAccepted s

theorem not_isClaim {d : String} {e : Event} (h : e.moves d = false) : ¬ IsClaim d e := by
  rintro ⟨n, rfl⟩
  simp [Event.moves] at h

/-! ## The invariant -/

def Tables.total (t : Tables) (d : String) : Nat :=
  ((t.deliveries.find? d).map (·.totalAttempts)).getD 0

def Tables.allowed (t : Tables) (d : String) : Nat :=
  ((t.deliveries.find? d).map (·.reconciliationAttempts)).getD 0

structure Inv (w : World) (tr : List Event) : Prop where
  books : Books w.tables
  current : ∀ i c, (w.workers i).attempt? = some c → ∃ row, Current w.tables c row
  claims : ∀ d, numbers d (tr.filterMap Event.claim?) = List.range' 1 (w.tables.total d)
  allowances : ∀ d, numbers d (tr.filterMap Event.allowance?) = List.range' 1 (w.tables.allowed d)
  separated : ∀ d, Separated (IsClaim d) (Answers d) tr
  ready : ∀ d row, w.tables.deliveries.find? d = some row →
    row.state = .pending ∨ row.state = .exhausted → Ready (IsClaim d) (Answers d) tr
  sends : Tickets (tr.filterMap Event.claim?) (tr.filterMap Event.send?)
    fun i => (w.workers i).claim?
  queries : Tickets (tr.filterMap Event.allowance?) (tr.filterMap Event.query?)
    fun i => (w.workers i).allowance?
  sessions : ∀ d, w.tables.sessionsOf d ≤ 1 + tr.count (.renewed d)
  queried : ∀ i d, (w.workers i).query? = some d → ∃ n, .queried d n ∈ tr
  asked : ∀ d kind s pre post, tr = pre ++ .reconciled d kind s :: post → ∃ n, .queried d n ∈ pre

theorem inv_initial (incidents : Incidents.Tables) : Inv (World.initial incidents) [] where
  books := books_empty
  current := by
    intro i c h
    cases h
  claims := fun _ => rfl
  allowances := fun _ => rfl
  separated := fun _ => separated_nil
  ready := by
    intro d row h
    cases h
  sends := .none_held
  queries := .none_held
  sessions := fun d => by
    show Tables.empty.sessionsOf d ≤ 1
    simp [Tables.sessionsOf, Tables.empty]
  queried := by
    intro i d h
    cases h
  asked := by
    intro d kind s pre post h
    simp at h

/-! ## What an effect does to a delivery that is not there -/

theorem grown_new {t t' : Tables} (hg : Grown t t') {d : String} {r' : Delivery}
    (h : t.deliveries.find? d = none) (h' : t'.deliveries.find? d = some r') :
    r'.state = .pending ∧ r'.totalAttempts = 0 ∧ r'.reconciliationAttempts = 0 := by
  induction hg with
  | refl t =>
      rw [h] at h'
      cases h'
  | @insert t t₁ t' row b hnew hins hrest ih =>
      obtain ⟨D, S, hD, -, rfl⟩ := insertDelivery_ok hins
      by_cases hd : row.deliveryId = d
      · subst hd
        have hself : D.find? row.deliveryId = some row := Table.find?_insert?_self hD
        rw [life_grown hrest hself] at h'
        injection h' with h'
        subst h'
        exact ⟨hnew.state, hnew.totalAttempts, hnew.reconciliationAttempts⟩
      · refine ih ?_ h'
        show D.find? d = none
        rw [Table.find?_insert? hD, if_neg hd]
        exact h
  | other _ hd _ ih =>
      rw [← hd] at h
      exact ih h h'

theorem effect_new {t t' : Tables} {w w' : Worker} {evs : List Event}
    (he : Effect t w evs w' t') {d : String} (h : t.deliveries.find? d = none) :
    (∀ e ∈ evs, e.moves d = false) ∧ ∀ r', t'.deliveries.find? d = some r' →
      r'.state = .pending ∧ r'.totalAttempts = 0 ∧ r'.reconciliationAttempts = 0 := by
  -- Nothing but the insert makes the delivery appear.
  have absent : ∀ {D : Option Delivery}, D = none → ∀ r', D = some r' →
      r'.state = .pending ∧ r'.totalAttempts = 0 ∧ r'.reconciliationAttempts = 0 := by
    intro D hD r' hr'
    rw [hD] at hr'
    cases hr'
  have hmod : ∀ {T : Table Delivery.deliveryId} {k f} (hf), T.find? d = none →
      (T.modify k f hf).find? d = none := by
    intro T k f hf hT
    rw [Table.find?_modify, hT]
    simp
  have hne : ∀ {k : String} {row : Delivery}, t.deliveries.find? k = some row → k ≠ d := by
    rintro k row hrow rfl
    rw [h] at hrow
    cases hrow
  cases he with
  | quiet hd hs => exact ⟨by simp, by rw [hd]; exact absent h⟩
  | grown hg => exact ⟨by simp, fun r' h' => grown_new hg h h'⟩
  | swept now => exact ⟨by simp, absent (find?_sweep_none h)⟩
  | exhausted now => exact ⟨by simp, absent (hmod (by exact fun _ => rfl) (find?_sweep_none h))⟩
  | claimed now token lease hrow hp =>
      refine ⟨?_, absent (hmod (by exact fun _ => rfl) (find?_sweep_none h))⟩
      simpa [Event.moves] using hne (find?_of_sweep_pending hrow hp)
  | sent => exact ⟨by simp [Event.moves], absent h⟩
  | finished due receipt hw hrow =>
      exact ⟨by simpa [Event.moves] using hne hrow, absent (hmod (by exact fun _ => rfl) h)⟩
  | renewed hrow hx hb ha hm hok =>
      obtain ⟨S, -, rfl⟩ := openSession_ok hok
      exact ⟨by simpa [Event.moves] using hne hrow, absent (hmod (by exact fun _ => rfl) h)⟩
  | allowed hrow => exact ⟨by simpa [Event.moves] using hne hrow, absent (hmod (by exact fun _ => rfl) h)⟩
  | queried => exact ⟨by simp [Event.moves], absent h⟩
  | reconciled due receipt _ hrow =>
      exact ⟨by simpa [Event.moves] using hne hrow, absent (hmod (by exact fun _ => rfl) h)⟩

/-- An effect shows at most one event. -/
theorem effect_short {t t' : Tables} {w w' : Worker} {evs : List Event}
    (he : Effect t w evs w' t') : evs = [] ∨ ∃ e, evs = [e] := by
  cases he with
  | quiet => exact Or.inl rfl
  | grown => exact Or.inl rfl
  | swept => exact Or.inl rfl
  | exhausted => exact Or.inl rfl
  | _ => exact Or.inr ⟨_, rfl⟩

/-! ## Numbers -/

theorem numbers_append (d : String) (l l' : List (String × Nat)) :
    numbers d (l ++ l') = numbers d l ++ numbers d l' := by
  simp [numbers]

theorem numbers_quiet {d : String} {f : Event → Option (String × Nat)} {evs : List Event}
    (hf : ∀ e n, f e = some (d, n) → e.moves d = true) (hq : ∀ e ∈ evs, e.moves d = false) :
    numbers d (evs.filterMap f) = [] := by
  rw [List.eq_nil_iff_forall_not_mem]
  intro n hn
  rw [mem_numbers, List.mem_filterMap] at hn
  obtain ⟨e, he, hfe⟩ := hn
  have hfalse := hq e he
  rw [hf e n hfe] at hfalse
  cases hfalse

theorem moves_of_claim {d : String} (e : Event) (n : Nat) (h : e.claim? = some (d, n)) :
    e.moves d = true := by
  cases e with
  | claimed k m =>
      cases h
      simp [Event.moves]
  | _ => cases h

theorem moves_of_allowance {d : String} (e : Event) (n : Nat) (h : e.allowance? = some (d, n)) :
    e.moves d = true := by
  cases e with
  | allowed k m =>
      cases h
      simp [Event.moves]
  | _ => cases h

theorem life_claims {d : String} {r r' : Delivery} {evs : List Event} (h : Life d r evs r') :
    List.range' 1 r.totalAttempts ++ numbers d (evs.filterMap Event.claim?) =
      List.range' 1 r'.totalAttempts := by
  have same : r'.totalAttempts = r.totalAttempts → numbers d (evs.filterMap Event.claim?) = [] →
      List.range' 1 r.totalAttempts ++ numbers d (evs.filterMap Event.claim?) =
        List.range' 1 r'.totalAttempts := by
    intro ht hn
    rw [ht, hn, List.append_nil]
  cases h with
  | rest hq => exact same rfl (numbers_quiet moves_of_claim hq)
  | lapse hq _ _ _ ht => exact same ht (numbers_quiet moves_of_claim hq)
  | exhaust hq _ _ _ ht => exact same ht (numbers_quiet moves_of_claim hq)
  | claim _ _ _ ht =>
      rw [ht, List.range'_1_concat, Nat.add_comm 1]
      simp [numbers, Event.claim?]
  | finish _ _ _ _ _ _ ht => exact same ht rfl
  | renew _ _ _ ht => exact same ht rfl
  | allow _ _ _ ht => exact same ht rfl
  | reconcile _ _ _ _ _ ht => exact same ht rfl

theorem life_allowances {d : String} {r r' : Delivery} {evs : List Event} (h : Life d r evs r') :
    List.range' 1 r.reconciliationAttempts ++ numbers d (evs.filterMap Event.allowance?) =
      List.range' 1 r'.reconciliationAttempts := by
  have same : r'.reconciliationAttempts = r.reconciliationAttempts →
      numbers d (evs.filterMap Event.allowance?) = [] →
      List.range' 1 r.reconciliationAttempts ++ numbers d (evs.filterMap Event.allowance?) =
        List.range' 1 r'.reconciliationAttempts := by
    intro ha hn
    rw [ha, hn, List.append_nil]
  cases h with
  | rest hq => exact same rfl (numbers_quiet moves_of_allowance hq)
  | lapse hq _ _ _ _ ha => exact same ha (numbers_quiet moves_of_allowance hq)
  | exhaust hq _ _ _ _ ha => exact same ha (numbers_quiet moves_of_allowance hq)
  | claim _ _ _ _ ha => exact same ha rfl
  | finish _ _ _ _ _ _ _ ha => exact same ha rfl
  | renew _ _ _ _ ha => exact same ha rfl
  | allow _ _ _ _ ha =>
      rw [ha, List.range'_1_concat, Nat.add_comm 1]
      simp [numbers, Event.allowance?]
  | reconcile _ _ _ _ _ _ ha => exact same ha rfl

/-- The last claim of a delivery carries its `total_attempts`. -/
theorem last_claim {d : String} {tr pre mid : List Event} {a : Event} {total : Nat}
    (hn : numbers d (tr.filterMap Event.claim?) = List.range' 1 total)
    (htr : tr = pre ++ a :: mid) (ha : IsClaim d a) (hlast : ∀ x ∈ mid, ¬ IsClaim d x) :
    a = .claimed d total := by
  obtain ⟨n, rfl⟩ := ha
  have hmid : numbers d (mid.filterMap Event.claim?) = [] := by
    rw [List.eq_nil_iff_forall_not_mem]
    intro m hm
    rw [mem_numbers, List.mem_filterMap] at hm
    obtain ⟨e, he, hc⟩ := hm
    refine hlast e he ⟨m, ?_⟩
    cases e with
    | claimed k j =>
        cases hc
        rfl
    | _ => cases hc
  have hself : numbers d ([Event.claimed d n].filterMap Event.claim?) = [n] := by
    simp [numbers, Event.claim?]
  rw [htr, List.filterMap_append, numbers_append, ← List.singleton_append, List.filterMap_append,
    numbers_append, hmid, hself, List.append_nil] at hn
  obtain ⟨m, rfl⟩ : ∃ m, total = m + 1 := by
    refine Nat.exists_eq_succ_of_ne_zero fun h0 => ?_
    rw [h0] at hn
    exact absurd hn (by simp)
  rw [List.range'_1_concat] at hn
  have hnm := List.singleton_inj.1 (List.append_inj' hn rfl).2
  rw [hnm, Nat.add_comm]

/-! ## What one effect keeps -/

section Step

variable {t t' : Tables} {w w' : Worker} {evs tr : List Event}

theorem step_claims (he : Effect t w evs w' t')
    (hcur : ∀ c, w.attempt? = some c → ∃ row, Current t c row)
    (h : ∀ d, numbers d (tr.filterMap Event.claim?) = List.range' 1 (t.total d)) (d : String) :
    numbers d ((tr ++ evs).filterMap Event.claim?) = List.range' 1 (t'.total d) := by
  rw [List.filterMap_append, numbers_append, h]
  rcases hd : t.deliveries.find? d with _ | r
  · obtain ⟨hq, hnew⟩ := effect_new he hd
    rw [numbers_quiet moves_of_claim hq, List.append_nil, Tables.total, Tables.total, hd]
    rcases hd' : t'.deliveries.find? d with _ | r'
    · rfl
    · simp [(hnew r' hd').2.1]
  · obtain ⟨r', hr', hlife⟩ := effect_life he hcur hd
    rw [Tables.total, Tables.total, hd, hr']
    exact life_claims hlife

theorem step_allowances (he : Effect t w evs w' t')
    (hcur : ∀ c, w.attempt? = some c → ∃ row, Current t c row)
    (h : ∀ d, numbers d (tr.filterMap Event.allowance?) = List.range' 1 (t.allowed d))
    (d : String) :
    numbers d ((tr ++ evs).filterMap Event.allowance?) = List.range' 1 (t'.allowed d) := by
  rw [List.filterMap_append, numbers_append, h]
  rcases hd : t.deliveries.find? d with _ | r
  · obtain ⟨hq, hnew⟩ := effect_new he hd
    rw [numbers_quiet moves_of_allowance hq, List.append_nil, Tables.allowed, Tables.allowed, hd]
    rcases hd' : t'.deliveries.find? d with _ | r'
    · rfl
    · simp [(hnew r' hd').2.2]
  · obtain ⟨r', hr', hlife⟩ := effect_life he hcur hd
    rw [Tables.allowed, Tables.allowed, hd, hr']
    exact life_allowances hlife

/-- A move of another kind than a claim keeps both halves of the alternation. -/
theorem alternation_append {d : String} (hsep : Separated (IsClaim d) (Answers d) tr)
    (hshort : evs = [] ∨ ∃ e, evs = [e]) (hq : ∀ e ∈ evs, ¬ IsClaim d e) :
    Separated (IsClaim d) (Answers d) (tr ++ evs) ∧
      (Ready (IsClaim d) (Answers d) tr → Ready (IsClaim d) (Answers d) (tr ++ evs)) := by
  rcases hshort with rfl | ⟨e, rfl⟩
  · rw [List.append_nil]
    exact ⟨hsep, id⟩
  · have hne := hq e List.mem_cons_self
    exact ⟨separated_snoc hsep fun h => absurd h hne, fun h => ready_snoc h hne⟩

/-- A transient outcome committed for a delivery answers its last claim. -/
theorem ready_of_answer {d : String} {total : Nat} {e : Event}
    (hsep : Separated (IsClaim d) (Answers d) tr)
    (hn : numbers d (tr.filterMap Event.claim?) = List.range' 1 total)
    (he : ¬ IsClaim d e) (hans : Answers d (.claimed d total) e) :
    Ready (IsClaim d) (Answers d) (tr ++ [e]) := by
  refine ready_of_snoc hsep he fun pre a mid htr ha hlast => ?_
  rw [last_claim hn htr ha hlast]
  exact hans

/-- The alternation along one move of a delivery. -/
theorem life_alternation {d : String} {r r' : Delivery} (h : Life d r evs r')
    (hshort : evs = [] ∨ ∃ e, evs = [e]) (hsep : Separated (IsClaim d) (Answers d) tr)
    (hn : numbers d (tr.filterMap Event.claim?) = List.range' 1 r.totalAttempts)
    (hready : r.state = .pending ∨ r.state = .exhausted → Ready (IsClaim d) (Answers d) tr) :
    Separated (IsClaim d) (Answers d) (tr ++ evs) ∧
      (r'.state = .pending ∨ r'.state = .exhausted →
        Ready (IsClaim d) (Answers d) (tr ++ evs)) := by
  have closed : ∀ {s : State}, r'.state = s → s ≠ .pending → s ≠ .exhausted →
      r'.state = .pending ∨ r'.state = .exhausted → Ready (IsClaim d) (Answers d) (tr ++ evs) := by
    rintro s rfl hp he (h | h)
    · exact absurd h hp
    · exact absurd h he
  cases h with
  | rest hq =>
      obtain ⟨h1, h2⟩ := alternation_append hsep hshort fun e he => not_isClaim (hq e he)
      exact ⟨h1, fun hs => h2 (hready hs)⟩
  | lapse hq hs hs' =>
      obtain ⟨h1, -⟩ := alternation_append hsep hshort fun e he => not_isClaim (hq e he)
      exact ⟨h1, closed hs' (by simp) (by simp)⟩
  | exhaust hq hs =>
      obtain ⟨h1, h2⟩ := alternation_append hsep hshort fun e he => not_isClaim (hq e he)
      exact ⟨h1, fun _ => h2 (hready (Or.inl hs))⟩
  | claim hs hs' =>
      refine ⟨separated_snoc hsep fun _ => hready (Or.inl hs), closed hs' (by simp) (by simp)⟩
  | @finish _ kind s now lease hs hl hnow hk hs' =>
      have hne : ¬ IsClaim d (.finished d r.totalAttempts kind s now) := by
        rintro ⟨n, h⟩
        cases h
      refine ⟨separated_snoc hsep fun h => absurd h hne, ?_⟩
      cases kind with
      | transientNotAccepted =>
          exact fun _ => ready_of_answer hsep hn hne (Or.inl ⟨_, _, _, rfl, rfl⟩)
      | accepted => exact closed (hs'.trans hk) (by simp) (by simp)
      | permanent => exact closed (hs'.trans hk) (by simp) (by simp)
      | unknown => exact closed (hs'.trans hk) (by simp) (by simp)
  | renew hs =>
      have hne : ¬ IsClaim d (.renewed d) := by
        rintro ⟨n, h⟩
        cases h
      exact ⟨separated_snoc hsep fun h => absurd h hne,
        fun _ => ready_snoc (hready (Or.inr hs)) hne⟩
  | allow hs hs' =>
      have hne : ¬ IsClaim d (.allowed d (r.reconciliationAttempts + 1)) := by
        rintro ⟨n, h⟩
        cases h
      exact ⟨separated_snoc hsep fun h => absurd h hne, closed hs' (by simp) (by simp)⟩
  | @reconcile _ kind s hs hkind hk hs' =>
      have hne : ¬ IsClaim d (.reconciled d kind s) := by
        rintro ⟨n, h⟩
        cases h
      refine ⟨separated_snoc hsep fun h => absurd h hne, ?_⟩
      rcases hkind with rfl | rfl
      · exact closed (hs'.trans hk) (by simp) (by simp)
      · exact fun _ => ready_of_answer hsep hn hne (Or.inr ⟨_, rfl⟩)

/-- What a worker has in hand stays current while its delivery moves. -/
theorem current_life {c : Claim} {r r' : Delivery} (h : Current t c r)
    (hr' : t'.deliveries.find? c.deliveryId = some r') (hlife : Life c.deliveryId r evs r') :
    Current t' c r' := by
  have hv := hlife.version_le
  have hn := hlife.total_le
  refine ⟨hr', h.version.trans hv, h.number.trans hn, fun heq => ?_⟩
  have hver : c.version = r.version := le_antisymm h.version (heq ▸ hv)
  obtain ⟨hs, ht⟩ := hlife.eq_of_version (heq.symm.trans hver)
  rw [hs, ht]
  exact h.waiting hver

theorem step_current {ws : Nat → Worker} {k : Nat} (he : Effect t (ws k) evs w' t')
    (h : ∀ i c, (ws i).attempt? = some c → ∃ row, Current t c row) (i : Nat) (c : Claim)
    (hc : (Function.update ws k w' i).attempt? = some c) : ∃ row, Current t' c row := by
  have old : ∀ {i : Nat}, (ws i).attempt? = some c → ∃ row, Current t' c row := by
    intro i hi
    obtain ⟨row, hrow⟩ := h i c hi
    obtain ⟨row', hrow', hlife⟩ := effect_life he (h k) hrow.stored
    exact ⟨row', current_life hrow hrow' hlife⟩
  by_cases hik : i = k
  · subst hik
    rw [Function.update_self] at hc
    have free : w'.Free → ∃ row, Current t' c row := by
      intro hw'
      rw [hw'.attempt] at hc
      cases hc
    cases he with
    | quiet _ _ _ _ hat => exact old (hat c hc)
    | grown _ hw' => exact free hw'
    | swept _ hw' => exact free hw'
    | exhausted _ _ _ hw' => exact free hw'
    | @claimed now row budget c' token lease hrow hp hb hv hn =>
        -- A fresh attempt: the row is the one its claim has just written.
        cases hc
        have hid := Table.find?_key hrow
        refine ⟨{ row with
          state := .inFlight, version := row.version + 1, totalAttempts := row.totalAttempts + 1
          claimToken := some token, leaseUntil := some lease }, ?_, hv.le, hn.le,
          fun _ => ⟨rfl, hn⟩⟩
        rw [claim, Table.find?_modify, if_pos hid.symm, hrow]
        rfl
    | sent hw =>
        cases hc
        exact old (by rw [hw]; rfl)
    | finished _ _ _ _ _ _ _ _ _ hw' => exact free hw'
    | renewed _ _ _ _ _ _ hw' => exact free hw'
    | allowed => cases hc
    | queried => cases hc
    | reconciled _ _ _ _ _ _ _ hw' => exact free hw'
  · rw [Function.update_of_ne hik] at hc
    exact old hc

theorem update_comp {α β : Type} (f : α → β) (ws : Nat → α) (k : Nat) (x : α) :
    (fun i => f (Function.update ws k x i)) = Function.update (fun i => f (ws i)) k (f x) := by
  funext i
  by_cases hik : i = k
  · simp [hik]
  · simp [hik]

theorem step_sends {ws : Nat → Worker} {k : Nat} (he : Effect t (ws k) evs w' t')
    (hn : ∀ d, numbers d (tr.filterMap Event.claim?) = List.range' 1 (t.total d))
    (h : Tickets (tr.filterMap Event.claim?) (tr.filterMap Event.send?) fun i => (ws i).claim?) :
    Tickets ((tr ++ evs).filterMap Event.claim?) ((tr ++ evs).filterMap Event.send?)
      fun i => (Function.update ws k w' i).claim? := by
  rw [update_comp, List.filterMap_append, List.filterMap_append]
  have dropped : w'.claim? = none → evs.filterMap Event.claim? = [] →
      evs.filterMap Event.send? = [] →
      Tickets (tr.filterMap Event.claim? ++ evs.filterMap Event.claim?)
        (tr.filterMap Event.send? ++ evs.filterMap Event.send?)
        (Function.update (fun i => (ws i).claim?) k w'.claim?) := by
    intro hw' h1 h2
    rw [hw', h1, h2, List.append_nil, List.append_nil]
    exact h.drop k
  cases he with
  | quiet _ _ hc => exact dropped hc rfl rfl
  | grown _ hw' => exact dropped hw'.claim rfl rfl
  | swept _ hw' => exact dropped hw'.claim rfl rfl
  | exhausted _ _ _ hw' => exact dropped hw'.claim rfl rfl
  | @claimed now row budget c token lease hrow hp hb hv hnum =>
      have hfresh : (c.deliveryId, c.number) ∉ tr.filterMap Event.claim? := by
        rw [← mem_numbers, hn, Tables.total, find?_of_sweep_pending hrow hp, hnum]
        simp only [Option.map_some, Option.getD_some, List.mem_range'_1]
        omega
      have hiss := h.issue hfresh k
      rw [← List.append_nil (tr.filterMap Event.send?)] at hiss
      exact hiss
  | @sent c hw =>
      have hheld : (fun i => (ws i).claim?) k = some (c.deliveryId, c.number) := by
        show (ws k).claim? = _
        rw [hw]
        rfl
      have huse := h.use hheld
      rw [← List.append_nil (tr.filterMap Event.claim?)] at huse
      exact huse
  | finished _ _ _ _ _ _ _ _ _ hw' => exact dropped hw'.claim rfl rfl
  | renewed _ _ _ _ _ _ hw' => exact dropped hw'.claim rfl rfl
  | allowed => exact dropped rfl rfl rfl
  | queried => exact dropped rfl rfl rfl
  | reconciled _ _ _ _ _ _ _ hw' => exact dropped hw'.claim rfl rfl

theorem step_queries {ws : Nat → Worker} {k : Nat} (he : Effect t (ws k) evs w' t')
    (hn : ∀ d, numbers d (tr.filterMap Event.allowance?) = List.range' 1 (t.allowed d))
    (h : Tickets (tr.filterMap Event.allowance?) (tr.filterMap Event.query?)
      fun i => (ws i).allowance?) :
    Tickets ((tr ++ evs).filterMap Event.allowance?) ((tr ++ evs).filterMap Event.query?)
      fun i => (Function.update ws k w' i).allowance? := by
  rw [update_comp, List.filterMap_append, List.filterMap_append]
  have dropped : w'.allowance? = none → evs.filterMap Event.allowance? = [] →
      evs.filterMap Event.query? = [] →
      Tickets (tr.filterMap Event.allowance? ++ evs.filterMap Event.allowance?)
        (tr.filterMap Event.query? ++ evs.filterMap Event.query?)
        (Function.update (fun i => (ws i).allowance?) k w'.allowance?) := by
    intro hw' h1 h2
    rw [hw', h1, h2, List.append_nil, List.append_nil]
    exact h.drop k
  cases he with
  | quiet _ _ _ ha => exact dropped ha rfl rfl
  | grown _ hw' => exact dropped hw'.allowance rfl rfl
  | swept _ hw' => exact dropped hw'.allowance rfl rfl
  | exhausted _ _ _ hw' => exact dropped hw'.allowance rfl rfl
  | claimed => exact dropped rfl rfl rfl
  | sent => exact dropped rfl rfl rfl
  | finished _ _ _ _ _ _ _ _ _ hw' => exact dropped hw'.allowance rfl rfl
  | renewed _ _ _ _ _ _ hw' => exact dropped hw'.allowance rfl rfl
  | @allowed d v row hrow hu hlt =>
      have hfresh : (d, row.reconciliationAttempts + 1) ∉ tr.filterMap Event.allowance? := by
        rw [← mem_numbers, hn, Tables.allowed, hrow]
        simp only [Option.map_some, Option.getD_some, List.mem_range'_1]
        omega
      have hiss := h.issue hfresh k
      rw [← List.append_nil (tr.filterMap Event.query?)] at hiss
      exact hiss
  | @queried d v n hw =>
      have hheld : (fun i => (ws i).allowance?) k = some (d, n) := by
        show (ws k).allowance? = _
        rw [hw]
        rfl
      have huse := h.use hheld
      rw [← List.append_nil (tr.filterMap Event.allowance?)] at huse
      exact huse
  | reconciled _ _ _ _ _ _ _ hw' => exact dropped hw'.allowance rfl rfl

theorem sessionsOf_none {t : Tables} (h : Books t) {d : String}
    (hd : t.deliveries.find? d = none) : t.sessionsOf d = 0 := by
  refine Table.sum_eq_zero fun b hb => if_neg ?_
  rintro rfl
  obtain ⟨row, hrow⟩ := h.owned _ b (Table.find?_of_mem hb)
  rw [hd] at hrow
  cases hrow

theorem grown_sessions {t t' : Tables} (hg : Grown t t') (h : Books t) {d : String} {n : Nat}
    (hle : t.sessionsOf d ≤ 1 + n) : t'.sessionsOf d ≤ 1 + n := by
  induction hg with
  | refl t => exact hle
  | insert hnew hins _ ih =>
      have h1 := keeps_insertDelivery h hins hnew.activeSession hnew.deliveryId hnew.totalAttempts
        hnew.reconciliationAttempts hnew.attempts hnew.maxAttempts
      refine ih h1.books ?_
      rw [sessionsOf_insertDelivery hins]
      split
      · next hd =>
        -- The delivery was not there, so it had no session.
        obtain ⟨D, S, hD, -, -⟩ := insertDelivery_ok hins
        have hfresh := Table.insert?_fresh hD
        rw [← hnew.deliveryId, hd] at hfresh
        rw [sessionsOf_none h hfresh]
        omega
      · omega
  | other _ hd hs ih =>
      refine ih (keeps_other h hd hs).books ?_
      rw [Tables.sessionsOf, hs]
      exact hle

theorem step_sessions (he : Effect t w evs w' t') (hb : Books t) (d : String)
    (h : t.sessionsOf d ≤ 1 + tr.count (.renewed d)) :
    t'.sessionsOf d ≤ 1 + (tr ++ evs).count (.renewed d) := by
  rw [List.count_append]
  have same : t'.sessionsOf d = t.sessionsOf d →
      t'.sessionsOf d ≤ 1 + (tr.count (.renewed d) + evs.count (.renewed d)) := by
    intro heq
    omega
  cases he with
  | quiet _ hs => exact same (by rw [Tables.sessionsOf, hs, Tables.sessionsOf])
  | grown hg => exact grown_sessions hg hb h
  | swept now => exact same (sessionsOf_sweep t now d)
  | exhausted now => exact same (sessionsOf_sweep t now d)
  | claimed now => exact same ((sessionsOf_claim _ _ _ _ d).trans (sessionsOf_sweep t now d))
  | sent => exact same rfl
  | finished => exact same (sessionsOf_writeOutcome _ _ _ _ _ d)
  | @renewed _ _ k row b hrow _ hbk _ _ hok =>
      rw [sessionsOf_openSession hok, hbk]
      split
      · next hk =>
        subst hk
        rw [List.count_singleton_self]
        omega
      · omega
  | allowed => exact same rfl
  | queried => exact same rfl
  | reconciled => exact same (sessionsOf_writeProof _ _ _ _ _ d)

theorem step_queried {ws : Nat → Worker} {k : Nat} (he : Effect t (ws k) evs w' t')
    (h : ∀ i d, (ws i).query? = some d → ∃ n, .queried d n ∈ tr) (i : Nat) (d : String)
    (hd : (Function.update ws k w' i).query? = some d) : ∃ n, .queried d n ∈ tr ++ evs := by
  have old : ∀ {i : Nat}, (ws i).query? = some d → ∃ n, .queried d n ∈ tr ++ evs := by
    intro i hi
    obtain ⟨n, hn⟩ := h i d hi
    exact ⟨n, List.mem_append_left _ hn⟩
  by_cases hik : i = k
  · subst hik
    rw [Function.update_self] at hd
    have free : w'.Free → ∃ n, .queried d n ∈ tr ++ evs := by
      intro hw'
      rw [hw'.query] at hd
      cases hd
    cases he with
    | quiet _ _ _ _ _ hqu => exact old (hqu d hd)
    | grown _ hw' => exact free hw'
    | swept _ hw' => exact free hw'
    | exhausted _ _ _ hw' => exact free hw'
    | claimed => cases hd
    | sent => cases hd
    | finished _ _ _ _ _ _ _ _ _ hw' => exact free hw'
    | renewed _ _ _ _ _ _ hw' => exact free hw'
    | allowed => cases hd
    | @queried d' v n hw =>
        cases hd
        exact ⟨n, by simp⟩
    | reconciled _ _ _ _ _ _ _ hw' => exact free hw'
  · rw [Function.update_of_ne hik] at hd
    exact old hd

theorem step_asked (he : Effect t w evs w' t')
    (hqu : ∀ d, w.query? = some d → ∃ n, .queried d n ∈ tr)
    (h : ∀ d kind s pre post, tr = pre ++ .reconciled d kind s :: post → ∃ n, .queried d n ∈ pre)
    (d : String) (kind : Kind) (s : State) (pre post : List Event)
    (hsplit : tr ++ evs = pre ++ .reconciled d kind s :: post) : ∃ n, .queried d n ∈ pre := by
  rcases effect_short he with rfl | ⟨e, rfl⟩
  · rw [List.append_nil] at hsplit
    exact h d kind s pre post hsplit
  · rcases snoc_eq_split hsplit with ⟨rfl, rfl, -⟩ | ⟨post', -, hpre⟩
    · cases he with
      | reconciled _ _ hw => exact hqu d hw
    · exact h d kind s pre post' hpre

end Step

/-! ## Every step of the system -/

theorem free_begin (c : Call) : (begin c).Free := by
  unfold begin
  split
  · split
    · exact free_done _
    · exact ⟨rfl, rfl, rfl, rfl⟩
  · split
    · split
      · exact ⟨rfl, rfl, rfl, rfl⟩
      · exact free_done _
    · exact free_done _
  · exact ⟨rfl, rfl, rfl, rfl⟩
  · exact ⟨rfl, rfl, rfl, rfl⟩
  · exact ⟨rfl, rfl, rfl, rfl⟩

/-- A step of the system is an effect of one worker, or changes no worker and
no table of the outbox. -/
theorem next_cases (w : World) (i : Input) :
    ((w.next i).1.tables = w.tables ∧ (w.next i).1.workers = w.workers ∧ (w.next i).2 = []) ∨
      ∃ k w', (w.next i).1.workers = Function.update w.workers k w' ∧
        Effect w.tables (w.workers k) (w.next i).2 w' (w.next i).1.tables := by
  have free : ∀ {k : Nat} {w' : Worker}, w'.Free →
      Effect w.tables (w.workers k) [] w' w.tables := by
    intro k w' hw'
    refine .quiet rfl rfl hw'.claim hw'.allowance (fun c hc => ?_) fun d hd => ?_
    · rw [hw'.attempt] at hc
      cases hc
    · rw [hw'.query] at hd
      cases hd
  cases i with
  | incident write => exact Or.inl ⟨rfl, rfl, rfl⟩
  | call k c =>
      simp only [World.next]
      split
      · exact Or.inr ⟨k, begin c, rfl, free (free_begin c)⟩
      · exact Or.inr ⟨k, begin c, rfl, free (free_begin c)⟩
      · exact Or.inl ⟨rfl, rfl, rfl⟩
  | step k o => exact Or.inr ⟨k, _, rfl, advance_effect w.incidents w.tables o (w.workers k)⟩
  | crash k => exact Or.inr ⟨k, .idle, rfl, free free_idle⟩

/-- What a step means for a delivery that is there. -/
theorem next_life {w : World} {tr : List Event} (h : Inv w tr) (i : Input) {d : String}
    {r : Delivery} (hr : w.tables.deliveries.find? d = some r) :
    ∃ r', (w.next i).1.tables.deliveries.find? d = some r' ∧ Life d r (w.next i).2 r' := by
  rcases next_cases w i with ⟨ht, -, he⟩ | ⟨k, w', -, he⟩
  · rw [ht, he]
    exact ⟨r, hr, .rest (by simp)⟩
  · exact effect_life he (h.current k) hr

theorem inv_next {w : World} {tr : List Event} (h : Inv w tr) (i : Input) :
    Inv (w.next i).1 (tr ++ (w.next i).2) := by
  rcases next_cases w i with ⟨ht, hws, he⟩ | ⟨k, w', hws, he⟩
  · rw [he, List.append_nil]
    refine ⟨?_, ?_, ?_, ?_, h.separated, ?_, ?_, ?_, ?_, ?_, h.asked⟩ <;> simp only [ht, hws]
    exacts [h.books, h.current, h.claims, h.allowances, h.ready, h.sends, h.queries, h.sessions,
      h.queried]
  · have halt : ∀ d, Separated (IsClaim d) (Answers d) (tr ++ (w.next i).2) ∧
        ∀ r', (w.next i).1.tables.deliveries.find? d = some r' →
          r'.state = .pending ∨ r'.state = .exhausted →
            Ready (IsClaim d) (Answers d) (tr ++ (w.next i).2) := by
      intro d
      rcases hd : w.tables.deliveries.find? d with _ | r
      · -- A delivery that appears has no claim behind it.
        obtain ⟨hq, -⟩ := effect_new he hd
        have hready : Ready (IsClaim d) (Answers d) tr := by
          rintro pre a mid rfl ⟨n, rfl⟩
          have hn := h.claims d
          rw [Tables.total, hd] at hn
          have hmem : n ∈ numbers d ((pre ++ Event.claimed d n :: mid).filterMap Event.claim?) := by
            rw [mem_numbers, List.mem_filterMap]
            exact ⟨.claimed d n, by simp, rfl⟩
          rw [hn] at hmem
          exact absurd hmem (by simp)
        obtain ⟨h1, h2⟩ := alternation_append (h.separated d) (effect_short he)
          fun e hmem => not_isClaim (hq e hmem)
        exact ⟨h1, fun _ _ _ => h2 hready⟩
      · obtain ⟨r', hr', hlife⟩ := effect_life he (h.current k) hd
        have hn := h.claims d
        rw [Tables.total, hd] at hn
        obtain ⟨h1, h2⟩ := life_alternation hlife (effect_short he) (h.separated d) hn
          (h.ready d r hd)
        refine ⟨h1, fun r'' hr'' => ?_⟩
        rw [hr'] at hr''
        injection hr'' with hr''
        subst hr''
        exact h2
    refine ⟨(effect_keeps he h.books).books, ?_, step_claims he (h.current k) h.claims,
      step_allowances he (h.current k) h.allowances, fun d => (halt d).1, fun d => (halt d).2,
      ?_, ?_, fun d => step_sessions he h.books d (h.sessions d), ?_,
      step_asked he (h.queried k) h.asked⟩
    · rw [hws]
      exact step_current he h.current
    · rw [hws]
      exact step_sends he h.claims h.sends
    · rw [hws]
      exact step_queries he h.allowances h.queries
    · rw [hws]
      exact step_queried he h.queried

/-- Every run of the system, from an outbox that is still empty. -/
theorem inv_run (incidents : Incidents.Tables) (is : List Input) :
    Inv (system.run (World.initial incidents) is) (system.trace (World.initial incidents) is) :=
  system.invariant (inv_initial incidents) (fun _ _ i h => inv_next h i) is

end OufGateway.Outbox
