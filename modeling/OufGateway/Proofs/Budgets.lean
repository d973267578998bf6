import Mathlib
import OufGateway.Proofs.OutboxRuns

/-!
# Finite budgets, exactly accounted

The bounds on a whole run are sums over the sessions of a delivery. A send
uses a claim's ticket, so there are no more sends than claims; the claims are
numbered up to `total_attempts`; that is the sum of the attempts of the
sessions, each at most 128; and there is one session, and one more for every
renewal. A query uses the ticket of an allowance in the same way, and a delivery
has at most eight of those.

A session that is retired is frozen by every step (`Keeps`), hence by every
run.
-/

namespace OufGateway.Outbox

open Lib

/-- The number of events of one kind a trace has for a delivery. -/
def countOf (f : Event → Option (String × Nat)) (d : String) (tr : List Event) : Nat :=
  (tr.filterMap f).countP fun x => x.1 = d

theorem claims_eq_total {w : World} {tr : List Event} (h : Inv w tr) (d : String) :
    countOf Event.claim? d tr = w.tables.total d := by
  rw [countOf, ← length_numbers, h.claims, List.length_range']

theorem allowances_eq_allowed {w : World} {tr : List Event} (h : Inv w tr) (d : String) :
    countOf Event.allowance? d tr = w.tables.allowed d := by
  rw [countOf, ← length_numbers, h.allowances, List.length_range']

theorem total_le_spentOn {t : Tables} (h : Books t) (d : String) : t.total d ≤ t.spentOn d := by
  rcases hd : t.deliveries.find? d with _ | row
  · rw [Tables.total, hd]
    exact Nat.zero_le _
  · rw [Tables.total, hd]
    exact (h.total d row hd).le

theorem spentOn_le {t : Tables} (h : Books t) (d : String) :
    t.spentOn d ≤ 128 * t.sessionsOf d := by
  refine Table.sum_le_mul fun b hb => ?_
  obtain ⟨hle, hmax⟩ := h.within _ b (Table.find?_of_mem hb)
  split
  · omega
  · exact Nat.zero_le _

theorem sends_le {w : World} {tr : List Event} (h : Inv w tr) (d : String) :
    countOf Event.send? d tr ≤ 128 * (1 + tr.count (.renewed d)) :=
  calc countOf Event.send? d tr
      ≤ countOf Event.claim? d tr := h.sends.countP_used_le _
    _ = w.tables.total d := claims_eq_total h d
    _ ≤ w.tables.spentOn d := total_le_spentOn h.books d
    _ ≤ 128 * w.tables.sessionsOf d := spentOn_le h.books d
    _ ≤ 128 * (1 + tr.count (.renewed d)) := Nat.mul_le_mul_left _ (h.sessions d)

theorem queries_le {w : World} {tr : List Event} (h : Inv w tr) (d : String) :
    countOf Event.query? d tr ≤ 8 := by
  have hle : countOf Event.query? d tr ≤ countOf Event.allowance? d tr :=
    h.queries.countP_used_le _
  rw [allowances_eq_allowed h] at hle
  refine hle.trans ?_
  rcases hd : w.tables.deliveries.find? d with _ | row
  · rw [Tables.allowed, hd]
    exact Nat.zero_le _
  · rw [Tables.allowed, hd]
    exact h.books.allowances d row hd

theorem next_keeps {w : World} (h : Books w.tables) (i : Input) :
    Keeps w.tables (w.next i).1.tables := by
  rcases next_cases w i with ⟨ht, -, -⟩ | ⟨k, w', -, he⟩
  · rw [ht]
    exact .rfl h
  · exact effect_keeps he h

/-- A run leaves retired sessions as they are. -/
theorem frozen_run {w : World} (h : Books w.tables) (js : List Input) :
    Frozen w.tables (system.run w js).tables := by
  refine system.run_rel (G := fun w => Books w.tables)
    (R := fun w w' => Frozen w.tables w'.tables) (fun w i hw => (next_keeps hw i).books)
    (fun w s b hb hr => ⟨hb, hr⟩) (fun {w₁ w₂ w₃} h12 h23 s b hb hr => ?_)
    (fun w i hw => (next_keeps hw i).frozen) h js
  obtain ⟨hb', hr'⟩ := h12 s b hb hr
  exact h23 s b hb' hr'

/-- In every state of every run: no session is overdrawn; the attempts of a
delivery are the sum over its sessions and the number of its claims; it is
sent at most 128 times for its first session and for every renewal, and queried
at most 8 times; and a session that is not the active one is exhausted and
stays as it is in every continuation of the run. -/
theorem budgets_accounted (incidents : Incidents.Tables) (is : List Input) :
    let w : World := system.run (World.initial incidents) is
    let tr : List Event := system.trace (World.initial incidents) is
    (∀ (s : String) (b : Session), w.tables.sessions.find? s = some b →
      b.attempts ≤ b.maxAttempts ∧ b.maxAttempts = 128) ∧
    (∀ (d : String) (row : Delivery), w.tables.deliveries.find? d = some row →
      row.totalAttempts = w.tables.spentOn d ∧
        row.totalAttempts = countOf Event.claim? d tr) ∧
    (∀ d : String, countOf Event.send? d tr ≤ 128 * (1 + tr.count (.renewed d)) ∧
      countOf Event.query? d tr ≤ 8) ∧
    ∀ (s : String) (b : Session), w.tables.sessions.find? s = some b → Retired w.tables b →
      b.state = .exhausted ∧ ∀ js : List Input,
        (system.run w js).tables.sessions.find? s = some b ∧
          Retired (system.run w js).tables b := by
  intro w tr
  have hinv : Inv w tr := inv_run incidents is
  refine ⟨hinv.books.within, fun d row hrow => ⟨hinv.books.total d row hrow, ?_⟩,
    fun d => ⟨sends_le hinv d, queries_le hinv d⟩, fun s b hb hr => ?_⟩
  · rw [claims_eq_total hinv, Tables.total, hrow]
    rfl
  · exact ⟨hinv.books.retired s b hb hr, fun js => frozen_run hinv.books js s b hb hr⟩

end OufGateway.Outbox
