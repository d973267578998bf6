import Mathlib
import OufGateway.Proofs.OutboxRuns

/-!
# No blind resend

The transport is only ever called with a claim that was committed for that
call, and a delivery is only claimed again after a transient outcome was
committed for the claim before. Both are read off the invariant of
`OutboxRuns`: a claim is a ticket, and the trace alternates.

The rest of the contract speaks about a state and what may follow it. A set of
rows that no claim can leave, and that every move either stays in or leaves
with a piece of evidence, keeps claims out until that evidence is in the trace
(`no_claim_before`). Accepted and paused rows have no way out at all; an
unknown row only leaves by a query that proved the delivery was not accepted;
a row in flight has one more way, the `_finish` of its own attempt, and only
with a clock reading before its lease is over.
-/

namespace OufGateway.Outbox

open Lib

theorem life_claimed {d : String} {r r' : Delivery} {evs : List Event} (h : Life d r evs r')
    {n : Nat} (hn : .claimed d n ∈ evs) : r.state = .pending ∧ r'.state = .inFlight := by
  cases h with
  | rest hq => exact absurd (hq _ hn) (by simp [Event.moves])
  | lapse hq => exact absurd (hq _ hn) (by simp [Event.moves])
  | exhaust hq => exact absurd (hq _ hn) (by simp [Event.moves])
  | claim hs hs' => exact ⟨hs, hs'⟩
  | _ => simp at hn

/-- Only the current attempt commits an outcome, and only within its lease. -/
theorem life_finished {d : String} {r r' : Delivery} {evs : List Event} (h : Life d r evs r')
    {n : Nat} {kind : Kind} {s : State} {now : ℚ} (hn : .finished d n kind s now ∈ evs) :
    r.state = .inFlight ∧ n = r.totalAttempts ∧ ∃ lease, r.leaseUntil = some lease ∧ now < lease := by
  cases h with
  | rest hq => exact absurd (hq _ hn) (by simp [Event.moves])
  | lapse hq => exact absurd (hq _ hn) (by simp [Event.moves])
  | exhaust hq => exact absurd (hq _ hn) (by simp [Event.moves])
  | finish hs hl hnow =>
      rw [List.mem_singleton] at hn
      cases hn
      exact ⟨hs, rfl, _, hl, hnow⟩
  | _ => simp at hn

theorem next_short (w : World) (i : Input) : (w.next i).2 = [] ∨ ∃ e, (w.next i).2 = [e] := by
  rcases next_cases w i with ⟨-, -, he⟩ | ⟨k, w', -, he⟩
  · exact Or.inl he
  · exact effect_short he

/-- No event of a delivery that is not there. -/
theorem next_absent (w : World) (i : Input) {d : String}
    (h : w.tables.deliveries.find? d = none) : ∀ e ∈ (w.next i).2, e.moves d = false := by
  rcases next_cases w i with ⟨-, -, he⟩ | ⟨k, w', -, he⟩
  · simp [he]
  · exact (effect_new he h).1

/-- While a delivery is in a set of rows no claim starts from, it is not
claimed; and if every move out of the set shows an `E` event, no claim of it
comes before an `E`. -/
theorem no_claim_before {d : String} {K : Delivery → Prop} {E : Event → Prop}
    (hclosed : ∀ r, K r → r.state ≠ .pending)
    (hmove : ∀ r evs r', K r → Life d r evs r' → K r' ∨ ∃ e ∈ evs, E e)
    {w : World} {tr : List Event} (h : Inv w tr) {r : Delivery}
    (hr : w.tables.deliveries.find? d = some r) (hK : K r) (js : List Input)
    {pre post : List Event} {n : Nat} (hsplit : system.trace w js = pre ++ .claimed d n :: post) :
    ∃ e ∈ pre, E e := by
  have hinv : Inv (system.run w js) (tr ++ system.trace w js) ∧
      (∀ pre n post, system.trace w js = pre ++ .claimed d n :: post → ∃ e ∈ pre, E e) ∧
      ((∃ e ∈ system.trace w js, E e) ∨
        ∃ r', (system.run w js).tables.deliveries.find? d = some r' ∧ K r') := by
    refine system.invariant (P := fun w' tr' => Inv w' (tr ++ tr') ∧
      (∀ pre n post, tr' = pre ++ .claimed d n :: post → ∃ e ∈ pre, E e) ∧
      ((∃ e ∈ tr', E e) ∨ ∃ r', w'.tables.deliveries.find? d = some r' ∧ K r')) ?_ ?_ js
    · refine ⟨by rw [List.append_nil]; exact h, fun pre n post hnil => ?_, Or.inr ⟨r, hr, hK⟩⟩
      simp at hnil
    · rintro w' tr' i ⟨hw', hpre, hor⟩
      refine ⟨by rw [← List.append_assoc]; exact inv_next hw' i, fun pre n post heq => ?_, ?_⟩
      · rcases next_short w' i with hnil | ⟨e, he⟩
        · change tr' ++ (w'.next i).2 = _ at heq
          rw [hnil, List.append_nil] at heq
          exact hpre pre n post heq
        · change tr' ++ (w'.next i).2 = _ at heq
          rw [he] at heq
          rcases snoc_eq_split heq with ⟨rfl, rfl, -⟩ | ⟨post', -, hold⟩
          · rcases hor with hE | ⟨r', hr', hK'⟩
            · exact hE
            · -- The row would have had to be pending.
              obtain ⟨r'', -, hlife⟩ := next_life hw' i hr'
              have hmem : Event.claimed d n ∈ (w'.next i).2 := by
                rw [he]
                exact List.mem_singleton_self _
              exact absurd (life_claimed hlife hmem).1 (hclosed r' hK')
          · exact hpre pre n post' hold
      · rcases hor with ⟨e, he, hE⟩ | ⟨r', hr', hK'⟩
        · exact Or.inl ⟨e, List.mem_append_left _ he, hE⟩
        · obtain ⟨r'', hr'', hlife⟩ := next_life hw' i hr'
          rcases hmove r' _ r'' hK' hlife with hK'' | ⟨e, he, hE⟩
          · exact Or.inr ⟨r'', hr'', hK''⟩
          · exact Or.inl ⟨e, List.mem_append_right _ he, hE⟩
  exact hinv.2.1 pre n post hsplit

/-! ## The sets of rows that keep claims out -/

/-- Accepted and paused are final. -/
theorem final_move {d : String} {r r' : Delivery} {evs : List Event}
    (hK : r.state = .accepted ∨ r.state = .paused) (h : Life d r evs r') :
    r'.state = .accepted ∨ r'.state = .paused := by
  have absurd_of : ∀ {s : State}, r.state = s → s ≠ .accepted → s ≠ .paused →
      r'.state = .accepted ∨ r'.state = .paused := by
    rintro s rfl ha hp
    rcases hK with hK | hK
    · exact absurd hK ha
    · exact absurd hK hp
  cases h with
  | rest => exact hK
  | lapse _ hs => exact absurd_of hs (by simp) (by simp)
  | exhaust _ hs => exact absurd_of hs (by simp) (by simp)
  | claim hs => exact absurd_of hs (by simp) (by simp)
  | finish hs => exact absurd_of hs (by simp) (by simp)
  | renew hs => exact absurd_of hs (by simp) (by simp)
  | allow hs => exact absurd_of hs (by simp) (by simp)
  | reconcile hs => exact absurd_of hs (by simp) (by simp)

/-- An unknown row leaves by a query: accepted for good, or with the evidence
that it was not. -/
theorem unknown_move {d : String} {r r' : Delivery} {evs : List Event}
    (hK : r.state = .unknown ∨ r.state = .accepted ∨ r.state = .paused) (h : Life d r evs r') :
    (r'.state = .unknown ∨ r'.state = .accepted ∨ r'.state = .paused) ∨
      ∃ e ∈ evs, ∃ s, e = .reconciled d .transientNotAccepted s := by
  rcases hK with hK | hK
  · have absurd_of : ∀ {P : Prop} {s : State}, r.state = s → s ≠ .unknown → P := by
      rintro P s rfl hs
      exact absurd hK hs
    cases h with
    | rest => exact Or.inl (Or.inl hK)
    | lapse _ hs => exact absurd_of hs (by simp)
    | exhaust _ hs => exact absurd_of hs (by simp)
    | claim hs => exact absurd_of hs (by simp)
    | finish hs => exact absurd_of hs (by simp)
    | renew hs => exact absurd_of hs (by simp)
    | allow _ hs' => exact Or.inl (Or.inl hs')
    | reconcile _ hq hk hs' =>
        rcases hq with rfl | rfl
        · exact Or.inl (Or.inr (Or.inl (hs'.trans hk)))
        · exact Or.inr ⟨_, List.mem_singleton_self _, _, rfl⟩
  · exact Or.inl (Or.inr (final_move hK h))

/-- A row in flight under a lease: it stays, lapses, is settled without a
retry, or its own attempt commits a transient outcome before the lease ends. -/
theorem inFlight_move {d : String} {lease : ℚ} {n : Nat} {r r' : Delivery} {evs : List Event}
    (hK : (r.state = .inFlight ∧ r.leaseUntil = some lease ∧ r.totalAttempts = n) ∨
      r.state = .unknown ∨ r.state = .accepted ∨ r.state = .paused) (h : Life d r evs r') :
    ((r'.state = .inFlight ∧ r'.leaseUntil = some lease ∧ r'.totalAttempts = n) ∨
      r'.state = .unknown ∨ r'.state = .accepted ∨ r'.state = .paused) ∨
      ∃ e ∈ evs, (∃ s, e = .reconciled d .transientNotAccepted s) ∨
        ∃ s now, now < lease ∧ e = .finished d n .transientNotAccepted s now := by
  rcases hK with ⟨hs₀, hl₀, hn₀⟩ | hK
  · have absurd_of : ∀ {P : Prop} {s : State}, r.state = s → s ≠ .inFlight → P := by
      rintro P s rfl hs
      exact absurd hs₀ hs
    cases h with
    | rest => exact Or.inl (Or.inl ⟨hs₀, hl₀, hn₀⟩)
    | lapse _ _ hs' => exact Or.inl (Or.inr (Or.inl hs'))
    | exhaust _ hs => exact absurd_of hs (by simp)
    | claim hs => exact absurd_of hs (by simp)
    | @finish _ kind s now lease' _ hl hnow hk hs' =>
        rw [hl₀] at hl
        injection hl with hl
        cases kind with
        | transientNotAccepted =>
            refine Or.inr ⟨_, List.mem_singleton_self _, Or.inr ⟨s, now, hl ▸ hnow, ?_⟩⟩
            rw [hn₀]
        | accepted => exact Or.inl (Or.inr (Or.inr (Or.inl (hs'.trans hk))))
        | permanent => exact Or.inl (Or.inr (Or.inr (Or.inr (hs'.trans hk))))
        | unknown => exact Or.inl (Or.inr (Or.inl (hs'.trans hk)))
    | renew hs => exact absurd_of hs (by simp)
    | allow hs => exact absurd_of hs (by simp)
    | reconcile hs => exact absurd_of hs (by simp)
  · rcases unknown_move hK h with hK' | ⟨e, he, hE⟩
    · exact Or.inl (Or.inr hK')
    · exact Or.inr ⟨e, he, Or.inl hE⟩

/-! ## The contract -/

theorem count_filterMap {τ : Type} [BEq τ] [LawfulBEq τ] {f : Event → Option τ} {e : Event} {x : τ}
    (hf : ∀ a, f a = some x ↔ a = e) (l : List Event) :
    (l.filterMap f).count x = l.count e := by
  induction l with
  | nil => rfl
  | cons a l ih =>
      by_cases ha : a = e
      · rw [List.filterMap_cons_some ((hf a).2 ha), ha, List.count_cons_self, List.count_cons_self,
          ih]
      · rw [List.count_cons_of_ne ha, ← ih]
        rcases hfa : f a with _ | y
        · rw [List.filterMap_cons_none hfa]
        · rw [List.filterMap_cons_some hfa]
          refine List.count_cons_of_ne fun hyx => ha ((hf a).1 ?_)
          rw [hfa, hyx]

theorem claim?_eq_some {d : String} {n : Nat} (e : Event) :
    e.claim? = some (d, n) ↔ e = .claimed d n := by
  cases e <;> simp [Event.claim?]

theorem send?_eq_some {d : String} {n : Nat} (e : Event) :
    e.send? = some (d, n) ↔ e = .sent d n := by
  cases e <;> simp [Event.send?]

theorem count_claimed_le {w : World} {tr : List Event} (h : Inv w tr) (d : String) (n : Nat) :
    tr.count (.claimed d n) ≤ 1 := by
  rw [← count_filterMap claim?_eq_some]
  exact List.nodup_iff_count_le_one.1 h.sends.issued_nodup _

theorem count_sent_le {w : World} {tr : List Event} (h : Inv w tr) (d : String) (n : Nat) :
    tr.count (.sent d n) ≤ 1 := by
  rw [← count_filterMap send?_eq_some]
  exact List.nodup_iff_count_le_one.1 h.sends.used_nodup _

/-- A send happens in the hand of the worker that committed the claim. -/
theorem claimed_of_sent {w : World} {tr : List Event} (h : Inv w tr) (i : Input) {d : String}
    {n : Nat} (hn : .sent d n ∈ (w.next i).2) : .claimed d n ∈ tr := by
  rcases next_cases w i with ⟨-, -, he⟩ | ⟨k, w', -, he⟩
  · rw [he] at hn
    cases hn
  · generalize (w.next i).2 = evs at he hn
    generalize (w.next i).1.tables = t' at he
    cases he with
    | @sent c hw =>
        rw [List.mem_singleton] at hn
        cases hn
        have hheld : (w.workers k).claim? = some (c.deliveryId, c.number) := by
          rw [hw]
          rfl
        obtain ⟨e, he, hc⟩ := List.mem_filterMap.1 (h.sends.held_issued k _ hheld)
        exact (claim?_eq_some e).1 hc ▸ he
    | _ => simp at hn

theorem claimed_before_sent (incidents : Incidents.Tables) (is : List Input) {d : String} {n : Nat}
    {pre post : List Event}
    (hsplit : system.trace (World.initial incidents) is = pre ++ .sent d n :: post) :
    .claimed d n ∈ pre := by
  have hinv : Inv (system.run (World.initial incidents) is)
        (system.trace (World.initial incidents) is) ∧
      ∀ pre post, system.trace (World.initial incidents) is = pre ++ .sent d n :: post →
        .claimed d n ∈ pre := by
    refine system.invariant (P := fun w tr => Inv w tr ∧
      ∀ pre post, tr = pre ++ .sent d n :: post → .claimed d n ∈ pre) ?_ ?_ is
    · exact ⟨inv_initial incidents, fun pre post hnil => by simp at hnil⟩
    · rintro w tr i ⟨hw, hold⟩
      refine ⟨inv_next hw i, fun pre post heq => ?_⟩
      change tr ++ (w.next i).2 = _ at heq
      rcases next_short w i with hnil | ⟨e, he⟩
      · rw [hnil, List.append_nil] at heq
        exact hold pre post heq
      · rw [he] at heq
        rcases snoc_eq_split heq with ⟨rfl, rfl, -⟩ | ⟨post', -, hpre⟩
        · exact claimed_of_sent hw i (by rw [he]; exact List.mem_singleton_self _)
        · exact hold pre post' hpre
  exact hinv.2 pre post hsplit

/-- In every run, whatever the workers interleave and whatever the transports
answer:

* a send of a delivery comes after its own claim, which is used once;
* a claim takes the delivery from `PENDING` to `IN_FLIGHT`, and an outcome is
  committed for the claim it is in flight with, within its lease, or not at all;
* between two claims a transient outcome was committed, by the `_finish` of
  the earlier one or by a reconciliation, and a reconciliation comes after a
  query;
* an accepted or paused delivery is never claimed again;
* an unknown one is not claimed again before a query proved it not accepted;
* one in flight is not either, unless its own `_finish` committed a
  transient outcome on a clock reading before the lease was over. -/
theorem no_blind_resend (incidents : Incidents.Tables) (is : List Input) (d : String) :
    let w : World := system.run (World.initial incidents) is
    let tr : List Event := system.trace (World.initial incidents) is
    (∀ (pre post : List Event) (n : Nat), tr = pre ++ Event.sent d n :: post →
      Event.claimed d n ∈ pre ∧ tr.count (.claimed d n) = 1 ∧ tr.count (.sent d n) = 1) ∧
    (∀ (i : Input) (n : Nat), Event.claimed d n ∈ system.emit w i →
      ∃ r r' : Delivery, w.tables.deliveries.find? d = some r ∧ r.state = .pending ∧
        (system.step w i).tables.deliveries.find? d = some r' ∧ r'.state = .inFlight) ∧
    (∀ (i : Input) (n : Nat) (kind : Kind) (s : State) (now : ℚ),
      Event.finished d n kind s now ∈ system.emit w i →
      ∃ r : Delivery, w.tables.deliveries.find? d = some r ∧ r.state = .inFlight ∧
        n = r.totalAttempts ∧ ∃ lease, r.leaseUntil = some lease ∧ now < lease) ∧
    (∀ (pre mid post : List Event) (n n' : Nat),
      tr = pre ++ Event.claimed d n :: mid ++ Event.claimed d n' :: post →
      (∃ s now, Event.finished d n .transientNotAccepted s now ∈ mid) ∨
        ∃ s, Event.reconciled d .transientNotAccepted s ∈ mid) ∧
    (∀ (pre post : List Event) (kind : Kind) (s : State),
      tr = pre ++ Event.reconciled d kind s :: post → ∃ n, Event.queried d n ∈ pre) ∧
    ∀ r : Delivery, w.tables.deliveries.find? d = some r →
      ∀ (js : List Input) (pre post : List Event) (n : Nat),
        system.trace w js = pre ++ Event.claimed d n :: post →
        r.state ≠ .accepted ∧ r.state ≠ .paused ∧
        (r.state = .unknown → ∃ s, Event.reconciled d .transientNotAccepted s ∈ pre) ∧
        ∀ lease : ℚ, r.state = .inFlight → r.leaseUntil = some lease →
          (∃ s, Event.reconciled d .transientNotAccepted s ∈ pre) ∨
            ∃ s now, now < lease ∧
              Event.finished d r.totalAttempts .transientNotAccepted s now ∈ pre := by
  intro w tr
  have hinv : Inv w tr := inv_run incidents is
  refine ⟨?_, ?_, ?_, ?_, fun pre post kind s => hinv.asked d kind s pre post, ?_⟩
  · intro pre post n hsplit
    have hclaim := claimed_before_sent incidents is hsplit
    refine ⟨hclaim, ?_, ?_⟩
    · refine le_antisymm (count_claimed_le hinv d n) (List.one_le_count_iff.2 ?_)
      show Event.claimed d n ∈ tr
      rw [hsplit]
      exact List.mem_append_left _ hclaim
    · refine le_antisymm (count_sent_le hinv d n) (List.one_le_count_iff.2 ?_)
      show Event.sent d n ∈ tr
      rw [hsplit]
      simp
  · intro i n hn
    change _ ∈ (w.next i).2 at hn
    rcases hd : w.tables.deliveries.find? d with _ | r
    · exact absurd (next_absent w i hd _ hn) (by simp [Event.moves])
    · obtain ⟨r', hr', hlife⟩ := next_life hinv i hd
      obtain ⟨hs, hs'⟩ := life_claimed hlife hn
      exact ⟨r, r', rfl, hs, hr', hs'⟩
  · intro i n kind s now hn
    change _ ∈ (w.next i).2 at hn
    rcases hd : w.tables.deliveries.find? d with _ | r
    · exact absurd (next_absent w i hd _ hn) (by simp [Event.moves])
    · obtain ⟨r', -, hlife⟩ := next_life hinv i hd
      exact ⟨r, rfl, life_finished hlife hn⟩
  · intro pre mid post n n' hsplit
    obtain ⟨b, hb, hans⟩ := hinv.separated d pre _ mid _ post hsplit ⟨n, rfl⟩ ⟨n', rfl⟩
    rcases hans with ⟨m, s, now, hm, rfl⟩ | ⟨s, rfl⟩
    · cases hm
      exact Or.inl ⟨s, now, hb⟩
    · exact Or.inr ⟨s, hb⟩
  · intro r hr js pre post n hsplit
    have final : ¬ (r.state = .accepted ∨ r.state = .paused) := by
      intro hK
      obtain ⟨e, -, hfalse⟩ := no_claim_before (E := fun _ => False)
        (fun r h => by rcases h with h | h <;> simp [h])
        (fun _ _ _ hK hlife => Or.inl (final_move hK hlife)) hinv hr hK js hsplit
      exact hfalse
    refine ⟨fun h => final (Or.inl h), fun h => final (Or.inr h), fun hu => ?_, ?_⟩
    · obtain ⟨e, he, s, rfl⟩ := no_claim_before
        (fun r h => by rcases h with h | h | h <;> simp [h])
        (fun _ _ _ hK hlife => unknown_move hK hlife) hinv hr (Or.inl hu) js hsplit
      exact ⟨s, he⟩
    · intro lease hs hl
      obtain ⟨e, he, hE⟩ := no_claim_before
        (fun r h => by rcases h with ⟨h, -⟩ | h | h | h <;> simp [h])
        (fun _ _ _ hK hlife => inFlight_move hK hlife) hinv hr (Or.inl ⟨hs, hl, rfl⟩) js hsplit
      rcases hE with ⟨s, rfl⟩ | ⟨s, now, hnow, rfl⟩
      · exact Or.inl ⟨s, he⟩
      · exact Or.inr ⟨s, now, hnow, he⟩

end OufGateway.Outbox
