import Mathlib
import OufGateway.Lib.Except
import OufGateway.Lib.Table
import OufGateway.Lib.Trace
import OufGateway.Proofs.OutboxSpecs
import OufGateway.Proofs.OutboxSteps
import OufGateway.Proofs.OutboxKeys
import OufGateway.Proofs.OutboxRuns
import OufGateway.Proofs.OutboxHistory
import OufGateway.Proofs.OutboxCalls

/-!
# Whose destination it is

`configure` asks for a grant, checks there that a destination that is stored already
belongs to the grant's tenant, and only then opens the transaction that reads or stores
the destination. The transaction compares intents and not tenants. So of two tenants
that find the reference free and send the same intent, the second is told that its
configuration stands, and it stands under the first one's authority.

Nothing but this transaction touches destinations and their audit rows, and it changes
no row it finds. A destination therefore keeps its settings and its tenant from the step
that stored it, each with the one audit row of that step (`Bound`), and what a call
finds at its end that it did not find at its check was stored in between.
-/

namespace OufGateway.Outbox

open Lib

variable {incidents : Incidents.Tables} {t t' : Tables} {is : List Input} {j : Nat} {w : World}
  {o : Oracle} {worker : Worker} {d : AlertDestination} {g : Grant} {ref uuid : String} {now : ℚ}
  {row : Destination}

/-! ## Who writes destinations -/

theorem authorize_tenant {delivery : Option String} {human : Bool} {decision : Decision}
    (hok : authorize t ref delivery human decision = .ok g)
    (hrow : t.destinations.find? ref = some row) : row.authorityTenant = g.tenant := by
  cases decision with
  | absent => cases hok
  | raised => cases hok
  | answered grant =>
      simp only [authorize] at hok
      split at hok
      · cases hok
      · obtain ⟨human', -, hok⟩ := bind_eq_ok.mp hok
        split at hok
        · next tenant principal decisionRef policyRef _ _ _ _ =>
          split at hok
          · cases hok
          · next hsame =>
            split at hok
            · cases hok
            · cases hok
              by_contra hne
              exact hsame ⟨row, hrow, hne⟩
        · cases hok

/-- The configuration as the other transactions leave it. -/
def SameConfig (t t' : Tables) : Prop := t'.destinations = t.destinations ∧ t'.audit = t.audit

theorem sameConfig_transact {α : Type} {x : Except Exn (Tables × α)} {k : α → Worker × List Event}
    (h : ∀ t' a, x = .ok (t', a) → SameConfig t t') : SameConfig t (transact t x k).1 := by
  unfold transact
  split
  · next t' a => exact h t' a rfl
  · exact ⟨rfl, rfl⟩

theorem advance_config (incidents : Incidents.Tables) (t : Tables) (o : Oracle)
    (hc : ∀ d g, worker ≠ .configureCommit d g) : SameConfig t (advance incidents t o worker).1 := by
  unfold advance
  split
  · next d g => exact absurd rfl (hc d g)
  · refine sameConfig_transact fun t' r hok => ?_
    refine reconcile_keeps (P := SameConfig t) hok (fun _ _ h => h) ?_ ⟨rfl, rfl⟩
    intro config item draw s s' _ h hins
    obtain ⟨deliveries, sessions, -, -, rfl⟩ := insertDelivery_ok hins
    exact h
  · refine sameConfig_transact fun t' r hok => ?_
    rcases claimNext_ok hok with ⟨rfl, -⟩ | ⟨d, row, -, -, rfl, -⟩ |
      ⟨row, budget, c, lease, -, -, -, -, -, rfl, -⟩
    · exact ⟨rfl, rfl⟩
    · exact ⟨rfl, rfl⟩
    · exact ⟨rfl, rfl⟩
  · exact ⟨rfl, rfl⟩
  · refine sameConfig_transact fun t' s hok => ?_
    obtain ⟨row, lease, due, -, -, -, -, -, -, rfl⟩ := finish_ok hok
    exact ⟨rfl, rfl⟩
  · refine sameConfig_transact fun t' _ hok => ?_
    obtain ⟨row, b, -, -, -, -, -, hopen⟩ := renew_ok (map_unit_eq_ok hok)
    obtain ⟨sessions, -, rfl⟩ := openSession_ok hopen
    exact ⟨rfl, rfl⟩
  · refine sameConfig_transact fun t' n hok => ?_
    obtain ⟨row, -, -, -, rfl, -⟩ := takeAllowance_ok hok
    exact ⟨rfl, rfl⟩
  · exact ⟨rfl, rfl⟩
  · refine sameConfig_transact fun t' s hok => ?_
    obtain ⟨row, receipt, -, -, -, rfl⟩ := commitProof_ok hok
    exact ⟨rfl, rfl⟩
  · exact ⟨rfl, rfl⟩

/-- A step of the system leaves the configuration, or is the commit of a `configure`. -/
theorem next_config (w : World) (i : Input) :
    SameConfig w.tables (system.step w i).tables ∨
      ∃ k o d g, i = .step k o ∧ w.workers k = .configureCommit d g ∧
        Configures w.tables d g o.uuid o.now (system.step w i).tables := by
  cases i with
  | incident write => exact Or.inl ⟨rfl, rfl⟩
  | call k c =>
      refine Or.inl ?_
      show SameConfig w.tables (w.next (.call k c)).1.tables
      simp only [World.next]
      split <;> exact ⟨rfl, rfl⟩
  | crash k => exact Or.inl ⟨rfl, rfl⟩
  | step k o =>
      by_cases hc : ∃ d g, w.workers k = .configureCommit d g
      · obtain ⟨d, g, hworker⟩ := hc
        have hstep : (system.step w (.step k o)).tables =
            (transact w.tables ((configure w.tables d g o.uuid o.now).map (·, ()))
              fun _ => (reply .configured, [])).1 := by
          show (advance w.incidents w.tables o (w.workers k)).1 = _
          rw [hworker]
          rfl
        cases hok : configure w.tables d g o.uuid o.now with
        | error e =>
            rw [hok] at hstep
            change (system.step w (.step k o)).tables = w.tables at hstep
            exact Or.inl ⟨congrArg Tables.destinations hstep, congrArg Tables.audit hstep⟩
        | ok t' =>
            rw [hok] at hstep
            change (system.step w (.step k o)).tables = t' at hstep
            exact Or.inr ⟨k, o, d, g, rfl, hworker, hstep ▸ configure_spec hok⟩
      · exact Or.inl (advance_config w.incidents w.tables o fun d g h => hc ⟨d, g, h⟩)

/-! ## Every destination and its one audit row -/

/-- The audit rows about a destination. -/
def Tables.auditOf (t : Tables) (ref : String) : List ConfigAudit :=
  t.audit.rows.filter (·.destinationRef = ref)

structure Bound (t : Tables) : Prop where
  intent : ∀ row ∈ t.destinations.rows, row.configHash = row.settings.fingerprint
  audited : ∀ row ∈ t.destinations.rows, ∃ a, t.auditOf row.destinationRef = [a] ∧
    a.tenantId = row.authorityTenant
  stored : ∀ a ∈ t.audit.rows, ∃ row, t.destinations.find? a.destinationRef = some row

theorem Bound.congr (h : Bound t) (hs : SameConfig t t') : Bound t' := by
  obtain ⟨hd, ha⟩ := hs
  refine ⟨hd ▸ h.intent, fun row hrow => ?_, fun a hmem => ?_⟩
  · rw [Tables.auditOf, ha]
    exact h.audited row (hd ▸ hrow)
  · rw [hd]
    exact h.stored a (ha ▸ hmem)

theorem Bound.configures (h : Bound t) (hc : Configures t d g uuid now t') : Bound t' := by
  cases hc with
  | again => exact h
  | @first destinations audit hnone _ hrow haudit =>
      have hold : t.auditOf d.destinationRef = [] := by
        refine List.filter_eq_nil_iff.mpr fun a ha hsame => ?_
        obtain ⟨row, hfound⟩ := h.stored a ha
        rw [of_decide_eq_true hsame, hnone] at hfound
        cases hfound
      refine ⟨fun row hmem => ?_, fun row hmem => ?_, fun a hmem => ?_⟩
      · rw [Table.rows_insert? hrow, List.mem_append, List.mem_singleton] at hmem
        rcases hmem with hmem | rfl
        · exact h.intent row hmem
        · rfl
      · rw [Tables.auditOf, Table.rows_insert? haudit, List.filter_append]
        rw [Table.rows_insert? hrow, List.mem_append, List.mem_singleton] at hmem
        rcases hmem with hmem | rfl
        · -- The new row is about another destination.
          have hne : d.destinationRef ≠ row.destinationRef :=
            fun heq => Table.find?_eq_none_iff.mp hnone row hmem heq.symm
          rw [List.filter_cons_of_neg (by simpa using hne), List.filter_nil, List.append_nil]
          exact h.audited row hmem
        · change ∃ a, t.auditOf d.destinationRef ++ _ = [a] ∧ _
          rw [hold, List.nil_append]
          exact ⟨_, List.filter_cons_of_pos (decide_eq_true rfl), rfl⟩
      · rw [Table.rows_insert? haudit, List.mem_append, List.mem_singleton] at hmem
        rcases hmem with hmem | rfl
        · obtain ⟨row, hfound⟩ := h.stored a hmem
          exact ⟨row, Table.find?_insert?_old hrow hfound⟩
        · exact ⟨_, Table.find?_insert?_self hrow⟩

theorem bound_run (incidents : Incidents.Tables) (is : List Input) :
    Bound (system.run (World.initial incidents) is).tables := by
  induction is using List.reverseRecOn with
  | nil =>
      refine ⟨fun row hmem => ?_, fun row hmem => ?_, fun a hmem => ?_⟩
      · cases hmem
      · cases hmem
      · cases hmem
  | append_singleton is i ih =>
      rw [system.run_snoc]
      rcases next_config (system.run (World.initial incidents) is) i with
        hsame | ⟨k, o, d, g, -, -, hc⟩
      · exact ih.congr hsame
      · exact ih.configures hc

/-! ## Destinations stay as they were stored -/

theorem stays_next (i : Input) (hrow : w.tables.destinations.find? ref = some row) :
    (system.step w i).tables.destinations.find? ref = some row := by
  rcases next_config w i with ⟨hd, -⟩ | ⟨k, o, d, g, -, -, hc⟩
  · rw [hd]
    exact hrow
  · generalize (system.step w i).tables = t' at hc
    cases hc with
    | again => exact hrow
    | first _ _ hinsert => exact Table.find?_insert?_old hinsert hrow

theorem stays_run (is : List Input) (hrow : w.tables.destinations.find? ref = some row) :
    (system.run w is).tables.destinations.find? ref = some row := by
  induction is using List.reverseRecOn with
  | nil => exact hrow
  | append_singleton is i ih =>
      rw [system.run_snoc]
      exact stays_next i ih

/-- The step stores a destination that was not there, for this tenant. -/
def Stores (w : World) (i : Input) (ref tenant : String) : Prop :=
  ∃ k o d g, i = .step k o ∧ w.workers k = .configureCommit d g ∧ d.destinationRef = ref ∧
    g.tenant = tenant ∧ w.tables.destinations.find? ref = none ∧
    (system.step w i).tables.destinations.find? ref ≠ none

/-- What it has stored is that tenant's. -/
theorem Stores.tenant {i : Input} {tenant : String} (h : Stores w i ref tenant)
    (hrow : (system.step w i).tables.destinations.find? ref = some row) :
    row.authorityTenant = tenant := by
  obtain ⟨k, o, d, g, rfl, hworker, rfl, rfl, hnone, -⟩ := h
  rcases next_config w (.step k o) with ⟨hd, -⟩ | ⟨k', o', d', g', hi, hworker', hc⟩
  · rw [hd, hnone] at hrow
    cases hrow
  · obtain ⟨rfl, rfl⟩ := Input.step.inj hi
    obtain ⟨rfl, rfl⟩ := Worker.configureCommit.inj (hworker.symm.trans hworker')
    generalize (system.step w (.step k o)).tables = t' at hrow hc
    cases hc with
    | again hfound =>
        rw [hnone] at hfound
        cases hfound
    | first _ _ hinsert =>
        obtain rfl := Option.some.inj ((Table.find?_insert?_self hinsert).symm.trans hrow)
        rfl

/-- What was not there and now is was stored in between. -/
theorem stored_between (hnone : w.tables.destinations.find? ref = none)
    (hrow : (system.run w is).tables.destinations.find? ref = some row) :
    ∃ a i b, is = a ++ i :: b ∧ Stores (system.run w a) i ref row.authorityTenant := by
  induction is using List.reverseRecOn with
  | nil =>
      rw [show (system.run w []) = w from rfl, hnone] at hrow
      cases hrow
  | append_singleton is i ih =>
      cases hbefore : (system.run w is).tables.destinations.find? ref with
      | some row' =>
          have hstays := stays_next i hbefore
          rw [system.run_snoc] at hrow
          obtain rfl := Option.some.inj (hstays.symm.trans hrow)
          obtain ⟨a, i', b, rfl, hstores⟩ := ih hbefore
          exact ⟨a, i', b ++ [i], by simp, hstores⟩
      | none =>
          rw [system.run_snoc] at hrow
          refine ⟨is, i, [], rfl, ?_⟩
          rcases next_config (system.run w is) i with ⟨hd, -⟩ | ⟨k, o, d, g, rfl, hworker, hc⟩
          · rw [hd, hbefore] at hrow
            cases hrow
          · have hafter := hrow
            generalize hw' : (system.step (system.run w is) (.step k o)).tables = t' at hrow hc
            cases hc with
            | again hfound =>
                rw [hbefore] at hrow
                cases hrow
            | first _ _ hinsert =>
                rcases Table.find?_insert?_cases hinsert hrow with ⟨rfl, rfl⟩ | ⟨-, hold⟩
                · exact ⟨k, o, d, g, rfl, hworker, rfl, rfl, hbefore, by rw [hafter]; simp⟩
                · rw [hbefore] at hold
                  cases hold

/-! ## What a call was granted -/

theorem call_of_start {c : Call} (h : begin c = .configureStart d) : c = .configure (some d) := by
  cases c with
  | configure destination =>
      cases destination with
      | none => cases h
      | some d' =>
          simp only [begin, checkDestination] at h
          split at h
          · cases h
          · next d'' hok =>
            split at hok
            · cases hok
            · split at hok
              · cases hok
              · cases hok
                cases h
                rfl
  | reconcileOwnerTransitions destination limit =>
      simp only [begin] at h
      split at h
      · split at h <;> cases h
      · cases h
  | sendOnce destination transportRef => cases h
  | renewExhaustedBudget delivery v reason => cases h
  | reconcileAmbiguousDelivery delivery v transportRef => cases h

theorem begin_not_commit (c : Call) : begin c ≠ .configureCommit d g := by
  intro h
  unfold begin at h
  split at h
  · split at h <;> cases h
  · split at h
    · split at h <;> cases h
    · cases h
  · cases h
  · cases h
  · cases h

theorem no_step_to_start (incidents : Incidents.Tables) (t : Tables) (o : Oracle) (worker : Worker)
    (h : (advance incidents t o worker).2.1 = .configureStart d) : worker = .configureStart d := by
  have hgoes := advance_goes incidents t o worker
  rw [h] at hgoes
  cases hgoes

/-- The call of `configure` with `d` that worker `j` is in at the end of `pre`: it began in
`a`, and its step after `a` obtained the grant `g`. -/
structure Granted (incidents : Incidents.Tables) (pre : List Input) (j : Nat) (d : AlertDestination)
    (g : Grant) (a : List Input) (o : Oracle) (b : List Input) : Prop where
  split : pre = a ++ .step j o :: b
  called : ∃ a₁ a₂, a = a₁ ++ .call j (.configure (some d)) :: a₂ ∧ ∀ a', a' <+: a₂ →
    (system.run (World.initial incidents) (a₁ ++ .call j (.configure (some d)) :: a')).workers j =
      .configureStart d
  granted : authorize (system.run (World.initial incidents) a).tables d.destinationRef none true
    o.decision = .ok g
  since : ∀ b', b' <+: b →
    (system.run (World.initial incidents) (a ++ .step j o :: b')).workers j = .configureCommit d g

theorem granted_of_commit
    (h : (system.run (World.initial incidents) is).workers j = .configureCommit d g) :
    ∃ a o b, Granted incidents is j d g a o b := by
  obtain ⟨a, o, b, rfl, -, hstep, hsince⟩ :=
    since_last (Q := fun worker => worker = .configureCommit d g) (by simp) begin_not_commit h
  have hgoes := advance_goes (system.run (World.initial incidents) a).incidents
    (system.run (World.initial incidents) a).tables o
    ((system.run (World.initial incidents) a).workers j)
  rw [hstep] at hgoes
  generalize hworker : (system.run (World.initial incidents) a).workers j = worker at hgoes
  cases hgoes with
  | configure hauth _ =>
      obtain ⟨a₁, c, a₂, ha, hc, hcalled⟩ := since_call (Q := fun worker => worker = .configureStart d)
        (by simp) no_step_to_start hworker
      obtain rfl := call_of_start hc
      exact ⟨a, o, b, rfl, ⟨a₁, a₂, ha, hcalled⟩, hauth, hsince⟩

/-- The reference was free when the grant was obtained, or stored for its tenant. -/
theorem Granted.free_or_own {pre a b : List Input} {o' : Oracle}
    (h : Granted incidents pre j d g a o' b)
    (hrow : (system.run (World.initial incidents) pre).tables.destinations.find? d.destinationRef =
      some row) :
    row.authorityTenant = g.tenant ∨ ∃ b₁ i b₂, b = b₁ ++ i :: b₂ ∧
      Stores (system.run (World.initial incidents) (a ++ .step j o' :: b₁)) i d.destinationRef
        row.authorityTenant := by
  obtain ⟨a₁, a₂, ha, hcalled⟩ := h.called
  have hstart : (system.run (World.initial incidents) a).workers j = .configureStart d := by
    rw [ha]
    exact hcalled a₂ List.prefix_rfl
  have hsplit : ∀ b', system.run (system.run (World.initial incidents) (a ++ [.step j o'])) b' =
      system.run (World.initial incidents) (a ++ .step j o' :: b') := by
    intro b'
    rw [← system.run_append, List.append_assoc]
    rfl
  cases hfound : (system.run (World.initial incidents) a).tables.destinations.find?
      d.destinationRef with
  | some row' =>
      have hstays := stays_run (.step j o' :: b) hfound
      rw [← system.run_append, ← h.split, hrow] at hstays
      obtain rfl := Option.some.inj hstays
      exact Or.inl (authorize_tenant h.granted hfound)
  | none =>
      have hnone : (system.run (World.initial incidents)
          (a ++ [.step j o'])).tables.destinations.find? d.destinationRef = none := by
        rw [system.run_snoc]
        show (advance _ _ o' (World.workers _ j)).1.destinations.find? _ = none
        rw [(advance_config _ _ o' fun d g => by rw [hstart]; simp).1]
        exact hfound
      rw [h.split, ← hsplit] at hrow
      obtain ⟨b₁, i, b₂, hb, hstores⟩ := stored_between hnone hrow
      rw [hsplit] at hstores
      exact Or.inr ⟨b₁, i, b₂, hb, hstores⟩

/-- What was stored since is still there. -/
theorem Granted.stored {pre a b b₁ b₂ : List Input} {o' : Oracle} {i : Input} {tenant : String}
    (h : Granted incidents pre j d g a o' b) (hb : b = b₁ ++ i :: b₂)
    (hs : Stores (system.run (World.initial incidents) (a ++ .step j o' :: b₁)) i ref tenant) :
    ∃ row, (system.run (World.initial incidents) pre).tables.destinations.find? ref = some row ∧
      row.authorityTenant = tenant := by
  have hafter := hs
  obtain ⟨_, _, _, _, _, _, _, _, _, hsome⟩ := hs
  obtain ⟨row, hrow⟩ := Option.ne_none_iff_exists'.mp hsome
  refine ⟨row, ?_, hafter.tenant hrow⟩
  have hstays := stays_run b₂ hrow
  rw [← system.run_snoc, ← system.run_append] at hstays
  rw [h.split, hb, ← hstays]
  simp

theorem configures_of_returns {pre : List Input}
    (hworker : (system.run (World.initial incidents) pre).workers j = .configureCommit d g)
    (h : (system.run (World.initial incidents) (pre ++ [.step j o])).workers j = reply .configured) :
    Configures (system.run (World.initial incidents) pre).tables d g o.uuid o.now
      (system.run (World.initial incidents) (pre ++ [.step j o])).tables := by
  rw [system.run_snoc] at h ⊢
  change Function.update _ j _ j = _ at h
  rw [Function.update_self] at h
  change Configures _ d g o.uuid o.now (advance _ _ o (World.workers _ j)).1
  rw [hworker] at h ⊢
  cases hok : configure (system.run (World.initial incidents) pre).tables d g o.uuid o.now with
  | error e =>
      simp only [transact, hok, Except.map] at h
      cases h
  | ok t' =>
      simp only [advance, transact, hok, Except.map]
      exact configure_spec hok

/-- Every stored destination has one audit row, with its tenant. A call of `configure`
that returns leaves its own argument stored, under the tenant of the grant it obtained,
exactly when no step since it obtained the grant stored the reference for another
tenant, and no other settings with the fingerprint of its argument are stored. -/
theorem configured_bound_iff (incidents : Incidents.Tables) :
    (∀ (is : List Input) (row : Destination),
      row ∈ (system.run (World.initial incidents) is).tables.destinations.rows →
      ∃ a, (system.run (World.initial incidents) is).tables.auditOf row.destinationRef = [a] ∧
        a.tenantId = row.authorityTenant) ∧
    ∀ (pre : List Input) (j : Nat) (o : Oracle) (d : AlertDestination) (g : Grant),
      (system.run (World.initial incidents) pre).workers j = .configureCommit d g →
      (system.run (World.initial incidents) (pre ++ [.step j o])).workers j = reply .configured →
      ∃ a o' b, Granted incidents pre j d g a o' b ∧
        ∃ row, (system.run (World.initial incidents)
            (pre ++ [.step j o])).tables.destinations.find? d.destinationRef = some row ∧
          (row.settings = d ∧ row.authorityTenant = g.tenant ↔
            (∀ b₁ i b₂ tenant, b = b₁ ++ i :: b₂ →
              Stores (system.run (World.initial incidents) (a ++ .step j o' :: b₁)) i
                d.destinationRef tenant → tenant = g.tenant) ∧
            ∀ old, (system.run (World.initial incidents) pre).tables.destinations.find?
                d.destinationRef = some old →
              old.settings.fingerprint = d.fingerprint → old.settings = d) := by
  refine ⟨fun is row hrow => (bound_run incidents is).audited row hrow,
    fun pre j o d g hworker hreturns => ?_⟩
  obtain ⟨a, o', b, hgranted⟩ := granted_of_commit hworker
  refine ⟨a, o', b, hgranted, ?_⟩
  have hc := configures_of_returns hworker hreturns
  generalize (system.run (World.initial incidents) (pre ++ [.step j o])).tables = t' at hc
  cases hc with
  | @again row hrow hintent =>
      have hunique : ∀ {old}, (system.run (World.initial incidents) pre).tables.destinations.find?
          d.destinationRef = some old → old = row :=
        fun hold => Option.some.inj (hold.symm.trans hrow)
      refine ⟨row, hrow, ⟨fun h => ⟨fun b₁ i b₂ tenant hb hs => ?_, fun old hold _ => ?_⟩,
        fun h => ⟨?_, ?_⟩⟩⟩
      · obtain ⟨old, hold, rfl⟩ := hgranted.stored hb hs
        rw [hunique hold]
        exact h.2
      · rw [hunique hold]
        exact h.1
      · refine h.2 row hrow ?_
        rw [← (bound_run incidents pre).intent row (Table.mem_of_find? hrow)]
        exact hintent
      · rcases hgranted.free_or_own hrow with hown | ⟨b₁, i, b₂, hb, hstores⟩
        · exact hown
        · exact h.1 b₁ i b₂ _ hb hstores
  | first hnone _ hinsert =>
      -- The call has stored it itself.
      refine ⟨_, Table.find?_insert?_self hinsert, iff_of_true ⟨rfl, rfl⟩
        ⟨fun b₁ i b₂ tenant hb hs => ?_, fun old hold _ => ?_⟩⟩
      · obtain ⟨old, hold, -⟩ := hgranted.stored hb hs
        rw [hnone] at hold
        cases hold
      · rw [hnone] at hold
        cases hold

/-! ## Two tenants, one intent -/

/-- The operator of another tenant. -/
def rival : Grant := ⟨"operator-2", true, "tenant-2", "decision-2", "policy-1"⟩

def rivalAllows : Oracle :=
  { permissive with
    decision := .answered (.obj [("allowed", .bool true),
      ("resource", resource "alert://on-call" none), ("decisionRef", .str "decision-2"),
      ("principal", .str "operator-2"), ("policyRef", .str "policy-1"), ("actor", .str "HUMAN"),
      ("tenant", .str "tenant-2")])
    uuid := "audit-2" }

/-- Two workers configure the same destination for two tenants; both are granted before
either commits, and the first one has committed. -/
def twoTenants : List Input :=
  [.call 0 (.configure (some onCall)), .call 1 (.configure (some onCall)), .step 0 permissive,
    .step 1 rivalAllows, .step 0 permissive]

theorem stands_twoTenants : Stands (system.run (World.initial started) twoTenants) started
    configured 1 (.configureCommit onCall rival) := by
  have hcalled : Stands (system.run (World.initial started) (twoTenants.take 2)) started .empty 0
        (.configureStart onCall) ∧
      Stands (system.run (World.initial started) (twoTenants.take 2)) started .empty 1
        (.configureStart onCall) := by
    rw [← begin_onCall]
    exact ⟨⟨rfl, rfl, rfl⟩, ⟨rfl, rfl, rfl⟩⟩
  obtain ⟨hfirst, hsecond⟩ := hcalled
  have hasked := hfirst.step permissive
  have hwaits := hsecond.beside hfirst (by decide) permissive
  rw [advance_start authorize_permissive rfl] at hasked hwaits
  have hgranted := hwaits.step rivalAllows
  have hholds := hasked.beside hwaits (by decide) rivalAllows
  rw [advance_start (g := rival) rfl rfl] at hgranted hholds
  have hcommit := hgranted.beside hholds (by decide) permissive
  rw [advance_commit configure_configured] at hcommit
  exact hcommit

/-- The second tenant's call returns, and the destination is the first one's. -/
theorem configured_for_another_tenant :
    (system.run (World.initial started) twoTenants).workers 1 = .configureCommit onCall rival ∧
    (system.run (World.initial started) (twoTenants ++ [.step 1 rivalAllows])).workers 1 =
      reply .configured ∧
    ∃ row, (system.run (World.initial started)
        (twoTenants ++ [.step 1 rivalAllows])).tables.destinations.find? "alert://on-call" =
        some row ∧
      row.settings = onCall ∧ row.authorityTenant = "tenant-1" ∧ rival.tenant = "tenant-2" := by
  have hafter := stands_twoTenants.step rivalAllows
  have hok : configure configured onCall rival rivalAllows.uuid rivalAllows.now = .ok configured := by
    have hfind : configured.destinations.find? onCall.destinationRef = some destinationRow := rfl
    have hintent : destinationRow.configHash = onCall.fingerprint := rfl
    simp only [configure, hfind, hintent, ne_eq, not_true, if_false]
  rw [advance_commit hok, ← system.run_snoc] at hafter
  refine ⟨stands_twoTenants.worker, hafter.worker, destinationRow, ?_, rfl, rfl, rfl⟩
  rw [hafter.tables]
  rfl

end OufGateway.Outbox
