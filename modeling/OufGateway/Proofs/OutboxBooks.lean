import Mathlib
import OufGateway.Lib.Except
import OufGateway.Ref.Outbox

/-!
# The two tables of the outbox agree

Attempts are counted twice: in `total_attempts` of the delivery and in
`attempts` of the budget session that paid for them. `Books` says what ties
the two tables together, and this file shows that every update of a
transaction keeps it. The one link everything rests on is that the active
session of a delivery belongs to that delivery, so no two deliveries share one
and an update "where session_id in (select active_session ...)" never reaches
a session that was retired.

The same updates leave every retired session alone (`Frozen`); the two facts
travel together as `Keeps`, which composes.

Updates that only move states, versions and times go through two general
lemmas, one a table. The claim, the allowance and the two inserts change what
is counted and have their own.
-/

namespace OufGateway.Outbox

open Lib

/-- The attempts of all sessions of a delivery. -/
def Tables.spentOn (t : Tables) (d : String) : Nat :=
  t.sessions.sum fun b => if b.deliveryId = d then b.attempts else 0

/-- The number of sessions of a delivery. -/
def Tables.sessionsOf (t : Tables) (d : String) : Nat :=
  t.sessions.sum fun b => if b.deliveryId = d then 1 else 0

/-- The session is not, or no longer, the active one of its delivery. -/
def Retired (t : Tables) (b : Session) : Prop :=
  ∀ row, t.deliveries.find? b.deliveryId = some row → row.activeSession ≠ b.sessionId

structure Books (t : Tables) : Prop where
  active : ∀ d row, t.deliveries.find? d = some row →
    ∃ b, t.sessions.find? row.activeSession = some b ∧ b.deliveryId = d
  owned : ∀ s b, t.sessions.find? s = some b → ∃ row, t.deliveries.find? b.deliveryId = some row
  within : ∀ s b, t.sessions.find? s = some b → b.attempts ≤ b.maxAttempts ∧ b.maxAttempts = 128
  retired : ∀ s b, t.sessions.find? s = some b → Retired t b → b.state = .exhausted
  total : ∀ d row, t.deliveries.find? d = some row → row.totalAttempts = t.spentOn d
  allowances : ∀ d row, t.deliveries.find? d = some row → row.reconciliationAttempts ≤ 8

/-- Retired sessions stay as they are, and stay retired. -/
def Frozen (t t' : Tables) : Prop :=
  ∀ s b, t.sessions.find? s = some b → Retired t b →
    t'.sessions.find? s = some b ∧ Retired t' b

structure Keeps (t t' : Tables) : Prop where
  books : Books t'
  frozen : Frozen t t'

theorem Keeps.rfl {t : Tables} (h : Books t) : Keeps t t :=
  ⟨h, fun _ _ hb hr => ⟨hb, hr⟩⟩

theorem Keeps.trans {t t' t'' : Tables} (h : Keeps t t') (h' : Keeps t' t'') : Keeps t t'' := by
  refine ⟨h'.books, fun s b hb hr => ?_⟩
  obtain ⟨hb', hr'⟩ := h.frozen s b hb hr
  exact h'.frozen s b hb' hr'

theorem books_empty : Books .empty := by
  constructor <;> intro k r h <;> exact absurd h (by simp [Tables.empty])

/-- The active session of a row, read through the row's own table. -/
theorem Books.owner {t : Tables} (h : Books t) {d : String} {row : Delivery} {b : Session}
    (hrow : t.deliveries.find? d = some row)
    (hb : t.sessions.find? row.activeSession = some b) : b.deliveryId = d := by
  obtain ⟨b', hb', hd⟩ := h.active d row hrow
  rw [hb] at hb'
  injection hb' with hb'
  rw [hb', hd]

/-- A session some row has for its active one is not retired. -/
theorem Books.not_retired {t : Tables} (h : Books t) {d : String} {row : Delivery} {s : String}
    {b : Session} (hrow : t.deliveries.find? d = some row) (hs : row.activeSession = s)
    (hb : t.sessions.find? s = some b) : ¬ Retired t b := by
  intro hr
  subst hs
  have hd := h.owner hrow hb
  subst hd
  exact hr row hrow (Table.find?_key hb).symm

/-! ## Updates that do not count -/

section Labels

variable {t : Tables} {p : Delivery → Bool} {f : Delivery → Delivery}
  {hf : ∀ r, (f r).deliveryId = r.deliveryId}

theorem keeps_deliveries (h : Books t)
    (hkeep : ∀ r, (f r).activeSession = r.activeSession ∧ (f r).totalAttempts = r.totalAttempts)
    (hrec : ∀ d r, t.deliveries.find? d = some r → p r = true →
      (f r).reconciliationAttempts ≤ 8) :
    Keeps t { t with deliveries := t.deliveries.update p f hf } := by
  -- Every row of the new table comes from a row with the same links.
  have hback : ∀ d row', (t.deliveries.update p f hf).find? d = some row' →
      ∃ row, t.deliveries.find? d = some row ∧ row'.activeSession = row.activeSession ∧
        row'.totalAttempts = row.totalAttempts ∧ row'.reconciliationAttempts ≤ 8 := by
    intro d row' hrow'
    rw [Table.find?_update, Option.map_eq_some_iff] at hrow'
    obtain ⟨row, hrow, rfl⟩ := hrow'
    refine ⟨row, hrow, ?_⟩
    split
    · next hp => exact ⟨(hkeep row).1, (hkeep row).2, hrec d row hrow hp⟩
    · exact ⟨rfl, rfl, h.allowances d row hrow⟩
  have hret : ∀ b, Retired t b ↔
      Retired { t with deliveries := t.deliveries.update p f hf } b := by
    intro b
    constructor
    · intro hr row' hrow'
      obtain ⟨row, hrow, ha, -⟩ := hback _ _ hrow'
      rw [ha]
      exact hr row hrow
    · intro hr row hrow
      have hrow' : (t.deliveries.update p f hf).find? b.deliveryId =
          some (if p row then f row else row) := by
        rw [Table.find?_update, hrow]
        rfl
      obtain ⟨row₀, hrow₀, ha, -⟩ := hback _ _ hrow'
      rw [hrow] at hrow₀
      injection hrow₀ with hrow₀
      subst hrow₀
      rw [← ha]
      exact hr _ hrow'
  refine ⟨⟨?_, ?_, h.within, ?_, ?_, ?_⟩, fun s b hb hr => ⟨hb, (hret b).1 hr⟩⟩
  · intro d row' hrow'
    obtain ⟨row, hrow, ha, -⟩ := hback d row' hrow'
    rw [ha]
    exact h.active d row hrow
  · intro s b hb
    obtain ⟨row, hrow⟩ := h.owned s b hb
    exact ⟨_, by show (t.deliveries.update p f hf).find? _ = _; rw [Table.find?_update, hrow]; rfl⟩
  · intro s b hb hr
    exact h.retired s b hb ((hret b).2 hr)
  · intro d row' hrow'
    obtain ⟨row, hrow, -, htot, -⟩ := hback d row' hrow'
    rw [htot]
    exact h.total d row hrow
  · intro d row' hrow'
    obtain ⟨-, -, -, -, hle⟩ := hback d row' hrow'
    exact hle

/-- The usual case: the allowances are not touched. -/
theorem keeps_labels (h : Books t)
    (hkeep : ∀ r, (f r).activeSession = r.activeSession ∧ (f r).totalAttempts = r.totalAttempts ∧
      (f r).reconciliationAttempts = r.reconciliationAttempts) :
    Keeps t { t with deliveries := t.deliveries.update p f hf } := by
  refine keeps_deliveries h (fun r => ⟨(hkeep r).1, (hkeep r).2.1⟩) fun d r hr _ => ?_
  rw [(hkeep r).2.2]
  exact h.allowances d r hr

variable {q : Session → Bool} {g : Session → Session} {hg : ∀ b, (g b).sessionId = b.sessionId}

theorem keeps_sessions (h : Books t)
    (hkeep : ∀ b, (g b).deliveryId = b.deliveryId ∧ (g b).attempts = b.attempts ∧
      (g b).maxAttempts = b.maxAttempts)
    (hactive : ∀ b, q b = true → ∃ d row, t.deliveries.find? d = some row ∧
      row.activeSession = b.sessionId) :
    Keeps t { t with sessions := t.sessions.update q g hg } := by
  have hback : ∀ s b', (t.sessions.update q g hg).find? s = some b' →
      ∃ b, t.sessions.find? s = some b ∧ b'.deliveryId = b.deliveryId ∧
        b'.attempts = b.attempts ∧ b'.maxAttempts = b.maxAttempts ∧ (Retired t b → b' = b) := by
    intro s b' hb'
    rw [Table.find?_update, Option.map_eq_some_iff] at hb'
    obtain ⟨b, hb, rfl⟩ := hb'
    refine ⟨b, hb, ?_⟩
    split
    · next hq =>
      obtain ⟨hd, hat, hmax⟩ := hkeep b
      refine ⟨hd, hat, hmax, fun hr => ?_⟩
      obtain ⟨d, row, hrow, hs⟩ := hactive b hq
      exact absurd hr (h.not_retired hrow (hs.trans (Table.find?_key hb)) hb)
    · exact ⟨rfl, rfl, rfl, fun _ => rfl⟩
  have hsum : ∀ d, ({ t with sessions := t.sessions.update q g hg } : Tables).spentOn d =
      t.spentOn d := by
    intro d
    show (t.sessions.update q g hg).sum _ = _
    refine Table.sum_update hg fun b _ => ?_
    rw [(hkeep b).1, (hkeep b).2.1]
  have hret : ∀ s b b', t.sessions.find? s = some b →
      (t.sessions.update q g hg).find? s = some b' → b'.deliveryId = b.deliveryId →
      Retired { t with sessions := t.sessions.update q g hg } b' → Retired t b := by
    intro s b b' hb hb' hd hr row hrow
    rw [Table.find?_key hb, ← Table.find?_key hb']
    exact hr row (by rw [hd]; exact hrow)
  refine ⟨⟨?_, ?_, ?_, ?_, ?_, h.allowances⟩, fun s b hb hr => ?_⟩
  · intro d row hrow
    obtain ⟨b, hb, hd⟩ := h.active d row hrow
    refine ⟨if q b then g b else b, ?_, ?_⟩
    · show (t.sessions.update q g hg).find? _ = _
      rw [Table.find?_update, hb]
      rfl
    · split
      · rw [(hkeep b).1, hd]
      · exact hd
  · intro s b' hb'
    obtain ⟨b, hb, hd, -⟩ := hback s b' hb'
    rw [hd]
    exact h.owned s b hb
  · intro s b' hb'
    obtain ⟨b, hb, -, hat, hmax, -⟩ := hback s b' hb'
    rw [hat, hmax]
    exact h.within s b hb
  · intro s b' hb' hr
    obtain ⟨b, hb, hd, -, -, heq⟩ := hback s b' hb'
    have hr' := hret s b b' hb hb' hd hr
    rw [heq hr']
    exact h.retired s b hb hr'
  · intro d row hrow
    rw [hsum]
    exact h.total d row hrow
  · have hb' : (t.sessions.update q g hg).find? s = some (if q b then g b else b) := by
      rw [Table.find?_update, hb]
      rfl
    obtain ⟨b₀, hb₀, -, -, -, heq⟩ := hback s _ hb'
    rw [hb] at hb₀
    injection hb₀ with hb₀
    subst hb₀
    rw [heq hr] at hb'
    exact ⟨hb', hr⟩

end Labels

theorem keeps_expireLeases {t : Tables} (h : Books t) (now : ℚ) : Keeps t (expireLeases t now) :=
  keeps_labels h fun _ => ⟨rfl, rfl, rfl⟩

theorem keeps_exhaustBudgets {t : Tables} (h : Books t) (now : ℚ) :
    Keeps t (exhaustBudgets t now) :=
  keeps_labels h fun _ => ⟨rfl, rfl, rfl⟩

theorem keeps_markSessions {t : Tables} (h : Books t) (s : State) : Keeps t (markSessions t s) := by
  refine keeps_sessions h (fun _ => ⟨rfl, rfl, rfl⟩) fun b hb => ?_
  obtain ⟨row, hrow, hcond⟩ := List.any_eq_true.1 hb
  rw [Bool.and_eq_true, decide_eq_true_iff, decide_eq_true_iff] at hcond
  exact ⟨row.deliveryId, row, Table.find?_of_mem hrow, hcond.2⟩

theorem keeps_sweep {t : Tables} (h : Books t) (now : ℚ) : Keeps t (sweep t now) := by
  have h1 := keeps_expireLeases h now
  have h2 := keeps_exhaustBudgets h1.books now
  have h3 := keeps_markSessions h2.books .exhausted
  have h4 := keeps_markSessions h3.books .unknown
  exact ((h1.trans h2).trans h3).trans h4

theorem keeps_exhaust {t : Tables} (h : Books t) (d : String) : Keeps t (exhaust t d) :=
  keeps_labels h fun _ => ⟨rfl, rfl, rfl⟩

theorem keeps_writeOutcome {t : Tables} (h : Books t) {d : Delivery}
    (hd : t.deliveries.find? d.deliveryId = some d) (s : State) (due : ℚ) (receipt : String) :
    Keeps t (writeOutcome t d s due receipt) := by
  unfold writeOutcome
  have h1 : Keeps t { t with
      sessions := t.sessions.modify d.activeSession (fun b => { b with state := s.session })
        fun _ => rfl } := by
    refine keeps_sessions h (fun _ => ⟨rfl, rfl, rfl⟩) fun b hb => ⟨_, d, hd, ?_⟩
    exact (decide_eq_true_iff.1 hb).symm
  split
  · exact keeps_labels h fun _ => ⟨rfl, rfl, rfl⟩
  · exact h1.trans (keeps_labels h1.books fun _ => ⟨rfl, rfl, rfl⟩)

theorem keeps_writeProof {t : Tables} (h : Books t) {d : Delivery}
    (hd : t.deliveries.find? d.deliveryId = some d) (s : State) (due : ℚ)
    (receipt : Option String) : Keeps t (writeProof t d s due receipt) := by
  unfold writeProof
  have h1 : Keeps t { t with
      sessions := t.sessions.modify d.activeSession (fun b => { b with state := s.session })
        fun _ => rfl } := by
    refine keeps_sessions h (fun _ => ⟨rfl, rfl, rfl⟩) fun b hb => ⟨_, d, hd, ?_⟩
    exact (decide_eq_true_iff.1 hb).symm
  exact h1.trans (keeps_labels h1.books fun _ => ⟨rfl, rfl, rfl⟩)

/-! ## Updates that count -/

theorem keeps_allow {t : Tables} (h : Books t) {d : String} {row : Delivery}
    (hrow : t.deliveries.find? d = some row) (hlt : row.reconciliationAttempts < 8) :
    Keeps t (allow t d) := by
  refine keeps_deliveries h (fun _ => ⟨rfl, rfl⟩) fun k r hr hk => ?_
  have hk : k = d := (Table.find?_key hr).symm.trans (decide_eq_true_iff.1 hk)
  rw [hk, hrow] at hr
  injection hr with hr
  subst hr
  exact hlt

/-- The claim counts one attempt in both tables. -/
theorem keeps_claim {t : Tables} (h : Books t) {d : Delivery} {b : Session}
    (hd : t.deliveries.find? d.deliveryId = some d)
    (hb : t.sessions.find? d.activeSession = some b) (hlt : b.attempts < b.maxAttempts)
    (token : String) (lease : ℚ) : Keeps t (claim t d token lease) := by
  have hown := h.owner hd hb
  have hrow : ∀ k row', (claim t d token lease).deliveries.find? k = some row' →
      ∃ row, t.deliveries.find? k = some row ∧ row'.activeSession = row.activeSession ∧
        row'.reconciliationAttempts = row.reconciliationAttempts ∧
        row'.totalAttempts = row.totalAttempts + if d.deliveryId = k then 1 else 0 := by
    intro k row' hrow'
    rw [claim, Table.find?_modify] at hrow'
    split at hrow'
    · next hk =>
      subst hk
      rw [hd] at hrow'
      injection hrow' with hrow'
      subst hrow'
      exact ⟨d, hd, rfl, rfl, by rw [if_pos rfl]⟩
    · next hk => exact ⟨row', hrow', rfl, rfl, by rw [if_neg (Ne.symm hk)]; rfl⟩
  have hfwd : ∀ k row, t.deliveries.find? k = some row →
      ∃ row', (claim t d token lease).deliveries.find? k = some row' ∧
        row'.activeSession = row.activeSession := by
    intro k row hrow₀
    rw [claim, Table.find?_modify, hrow₀]
    split
    · exact ⟨_, rfl, rfl⟩
    · exact ⟨_, rfl, rfl⟩
  have hses : ∀ s b', (claim t d token lease).sessions.find? s = some b' →
      (s = d.activeSession ∧ b' = { b with attempts := b.attempts + 1 }) ∨
        (s ≠ d.activeSession ∧ t.sessions.find? s = some b') := by
    intro s b' hb'
    rw [claim, Table.find?_modify] at hb'
    split at hb'
    · next hs =>
      subst hs
      rw [hb] at hb'
      injection hb' with hb'
      exact Or.inl ⟨rfl, hb'.symm⟩
    · next hs => exact Or.inr ⟨hs, hb'⟩
  have hsum : ∀ k, (claim t d token lease).spentOn k =
      t.spentOn k + if d.deliveryId = k then 1 else 0 := by
    intro k
    have hmod : (claim t d token lease).spentOn k + (if b.deliveryId = k then b.attempts else 0) =
        t.spentOn k + (if b.deliveryId = k then b.attempts + 1 else 0) := by
      refine Table.sum_modify ?_ hb
      exact fun _ => rfl
    rw [hown] at hmod
    split at hmod
    · next hk => rw [if_pos hk]; omega
    · next hk => rw [if_neg hk]; omega
  -- No row changes its active session.
  have hret : ∀ b, Retired t b ↔ Retired (claim t d token lease) b := by
    intro x
    constructor
    · intro hr row' hrow'
      obtain ⟨row, hrow₀, ha, -⟩ := hrow _ _ hrow'
      rw [ha]
      exact hr row hrow₀
    · intro hr row hrow₀
      obtain ⟨row', hrow', ha⟩ := hfwd _ row hrow₀
      rw [← ha]
      exact hr row' hrow'
  refine ⟨⟨?_, ?_, ?_, ?_, ?_, ?_⟩, ?_⟩
  · intro k row' hrow'
    obtain ⟨row, hrow₀, ha, -⟩ := hrow k row' hrow'
    obtain ⟨x, hx, hxd⟩ := h.active k row hrow₀
    rw [ha]
    by_cases hs : row.activeSession = d.activeSession
    · rw [hs, hb] at hx
      injection hx with hx
      subst hx
      refine ⟨{ b with attempts := b.attempts + 1 }, ?_, hxd⟩
      rw [claim, hs, Table.find?_modify_self, hb]
      rfl
    · exact ⟨x, by rw [claim, Table.find?_modify_ne hs]; exact hx, hxd⟩
  · intro s x hx
    have hdel : ∃ row, t.deliveries.find? x.deliveryId = some row := by
      rcases hses s x hx with ⟨-, rfl⟩ | ⟨-, hx⟩
      · exact ⟨d, hown ▸ hd⟩
      · exact h.owned s x hx
    obtain ⟨row, hrow₀⟩ := hdel
    obtain ⟨row', hrow', -⟩ := hfwd _ row hrow₀
    exact ⟨row', hrow'⟩
  · intro s x hx
    rcases hses s x hx with ⟨-, rfl⟩ | ⟨-, hx⟩
    · exact ⟨hlt, (h.within _ b hb).2⟩
    · exact h.within s x hx
  · intro s x hx hr
    rcases hses s x hx with ⟨rfl, rfl⟩ | ⟨-, hx⟩
    · exact absurd (show Retired t b from (hret _).2 hr) (h.not_retired hd rfl hb)
    · exact h.retired s x hx ((hret x).2 hr)
  · intro k row' hrow'
    obtain ⟨row, hrow₀, -, -, htot⟩ := hrow k row' hrow'
    rw [htot, hsum, h.total k row hrow₀]
  · intro k row' hrow'
    obtain ⟨row, hrow₀, -, hrec, -⟩ := hrow k row' hrow'
    rw [hrec]
    exact h.allowances k row hrow₀
  · intro s x hx hr
    have hs : s ≠ d.activeSession := by
      rintro rfl
      exact h.not_retired hd rfl hx hr
    exact ⟨by rw [claim, Table.find?_modify_ne hs]; exact hx, (hret x).1 hr⟩

/-- Nothing is booked on a delivery that is not there. -/
theorem Books.spentOn_none {t : Tables} (h : Books t) {d : String}
    (hd : t.deliveries.find? d = none) : t.spentOn d = 0 := by
  refine Table.sum_eq_zero fun b hb => if_neg ?_
  rintro rfl
  obtain ⟨row, hrow⟩ := h.owned _ b (Table.find?_of_mem hb)
  rw [hd] at hrow
  cases hrow

theorem insertDelivery_ok {t t' : Tables} {d : Delivery} {b : Session}
    (hok : insertDelivery t d b = .ok t') :
    ∃ D S, t.deliveries.insert? d = some D ∧ t.sessions.insert? b = some S ∧
      t' = { t with deliveries := D, sessions := S } := by
  unfold insertDelivery at hok
  split at hok
  · next D S hD hS =>
    injection hok with hok
    exact ⟨D, S, hD, hS, hok.symm⟩
  · cases hok

/-- A new delivery comes with its own session, which nothing was spent from. -/
theorem keeps_insertDelivery {t t' : Tables} (h : Books t) {d : Delivery} {b : Session}
    (hok : insertDelivery t d b = .ok t') (hs : d.activeSession = b.sessionId)
    (hd : b.deliveryId = d.deliveryId) (h0 : d.totalAttempts = 0)
    (hr0 : d.reconciliationAttempts = 0) (ha : b.attempts = 0) (hm : b.maxAttempts = 128) :
    Keeps t t' := by
  obtain ⟨D, S, hD, hS, rfl⟩ := insertDelivery_ok hok
  have hdfresh := Table.insert?_fresh hD
  have hsfresh := Table.insert?_fresh hS
  have hself := Table.find?_insert?_self hD
  have hsum : ∀ k, ({ t with deliveries := D, sessions := S } : Tables).spentOn k = t.spentOn k := by
    intro k
    show S.sum _ = _
    rw [Table.sum_insert? hS, ha, ite_self]
    rfl
  have hret : ∀ x, t.sessions.find? x.sessionId = some x → Retired t x →
      Retired { t with deliveries := D, sessions := S } x := by
    intro x hx hr row hk
    rcases Table.find?_insert?_cases hD hk with ⟨-, rfl⟩ | ⟨-, hk⟩
    · intro he
      rw [← he, hs, hsfresh] at hx
      cases hx
    · exact hr row hk
  refine ⟨⟨?_, ?_, ?_, ?_, ?_, ?_⟩, ?_⟩
  · intro k row hk
    rcases Table.find?_insert?_cases hD hk with ⟨rfl, rfl⟩ | ⟨-, hk⟩
    · exact ⟨b, by rw [hs]; exact Table.find?_insert?_self hS, hd⟩
    · obtain ⟨x, hx, hxd⟩ := h.active k row hk
      exact ⟨x, Table.find?_insert?_old hS hx, hxd⟩
  · intro s x hx
    rcases Table.find?_insert?_cases hS hx with ⟨-, rfl⟩ | ⟨-, hx⟩
    · exact ⟨d, hd ▸ hself⟩
    · obtain ⟨row, hk⟩ := h.owned s x hx
      exact ⟨row, Table.find?_insert?_old hD hk⟩
  · intro s x hx
    rcases Table.find?_insert?_cases hS hx with ⟨-, rfl⟩ | ⟨-, hx⟩
    · exact ⟨by omega, hm⟩
    · exact h.within s x hx
  · intro s x hx hr
    rcases Table.find?_insert?_cases hS hx with ⟨-, rfl⟩ | ⟨-, hx⟩
    · exact absurd hs (hr d (by rw [hd]; exact hself))
    · exact h.retired s x hx fun row hk => hr row (Table.find?_insert?_old hD hk)
  · intro k row hk
    rw [hsum]
    rcases Table.find?_insert?_cases hD hk with ⟨rfl, rfl⟩ | ⟨-, hk⟩
    · rw [h0, h.spentOn_none hdfresh]
    · exact h.total k row hk
  · intro k row hk
    rcases Table.find?_insert?_cases hD hk with ⟨-, rfl⟩ | ⟨-, hk⟩
    · omega
    · exact h.allowances k row hk
  · intro s x hx hr
    exact ⟨Table.find?_insert?_old hS hx, hret x (by rw [Table.find?_key hx]; exact hx) hr⟩

theorem openSession_ok {t t' : Tables} {d : Delivery} {b : Session}
    (hok : openSession t d b = .ok t') :
    ∃ S, (retire t d).sessions.insert? b = some S ∧
      t' = activate { t with sessions := S } d.deliveryId b := by
  unfold openSession at hok
  split at hok
  · cases hok
  · next S hS =>
    injection hok with hok
    exact ⟨S, hS, hok.symm⟩

theorem keeps_retire {t : Tables} (h : Books t) {d : Delivery}
    (hd : t.deliveries.find? d.deliveryId = some d) : Keeps t (retire t d) := by
  refine keeps_sessions h (fun _ => ⟨rfl, rfl, rfl⟩) fun x hx => ⟨_, d, hd, ?_⟩
  exact (decide_eq_true_iff.1 hx).symm

theorem find?_activate {t : Tables} {d k : String} {b : Session} {row' : Delivery}
    (hk : (activate t d b).deliveries.find? k = some row') :
    ∃ row, t.deliveries.find? k = some row ∧ row'.totalAttempts = row.totalAttempts ∧
      row'.reconciliationAttempts = row.reconciliationAttempts ∧
      row'.activeSession = if k = d then b.sessionId else row.activeSession := by
  rw [activate, Table.find?_modify] at hk
  split at hk
  · next he =>
    rw [Option.map_eq_some_iff] at hk
    obtain ⟨row, hrow, rfl⟩ := hk
    exact ⟨row, hrow, rfl, rfl, by rw [if_pos he]⟩
  · next he => exact ⟨row', hk, rfl, rfl, by rw [if_neg he]⟩

theorem find?_activate_of {t : Tables} {d k : String} {b : Session} {row : Delivery}
    (hk : t.deliveries.find? k = some row) :
    ∃ row', (activate t d b).deliveries.find? k = some row' ∧
      row'.activeSession = if k = d then b.sessionId else row.activeSession := by
  rw [activate, Table.find?_modify, hk]
  split
  · exact ⟨_, rfl, rfl⟩
  · exact ⟨_, rfl, rfl⟩

/-- A renewal retires the active session, exhausted, and activates a new one. -/
theorem keeps_openSession {t t' : Tables} (h : Books t) {d : Delivery} {b : Session}
    (hok : openSession t d b = .ok t') (hd : t.deliveries.find? d.deliveryId = some d)
    (hb : b.deliveryId = d.deliveryId) (ha : b.attempts = 0) (hm : b.maxAttempts = 128) :
    Keeps t t' := by
  obtain ⟨S, hS, rfl⟩ := openSession_ok hok
  have h1 := keeps_retire h hd
  have hfresh := Table.insert?_fresh hS
  obtain ⟨old, hold, -⟩ := h.active _ d hd
  have hold' : (retire t d).sessions.find? d.activeSession =
      some { old with state := .exhausted } := by
    rw [retire, Table.find?_modify_self, hold]
    rfl
  refine h1.trans ?_
  replace h := h1.books
  have hsum : ∀ k, (activate { t with sessions := S } d.deliveryId b).spentOn k =
      (retire t d).spentOn k := by
    intro k
    show S.sum _ = (retire t d).sessions.sum _
    rw [Table.sum_insert? hS, ha, ite_self]
    rfl
  refine ⟨⟨?_, ?_, ?_, ?_, ?_, ?_⟩, ?_⟩
  · intro k row' hk
    obtain ⟨row, hk₀, -, -, hact⟩ := find?_activate hk
    rw [hact]
    split
    · next he => exact ⟨b, Table.find?_insert?_self hS, by rw [hb, he]⟩
    · obtain ⟨x, hx, hxd⟩ := h.active k row hk₀
      exact ⟨x, Table.find?_insert?_old hS hx, hxd⟩
  · intro s x hx
    have hdel : ∃ row, t.deliveries.find? x.deliveryId = some row := by
      rcases Table.find?_insert?_cases hS hx with ⟨-, rfl⟩ | ⟨-, hx⟩
      · exact ⟨d, hb ▸ hd⟩
      · exact h.owned s x hx
    obtain ⟨row, hk⟩ := hdel
    obtain ⟨row', hk', -⟩ := find?_activate_of (b := b) (d := d.deliveryId) hk
    exact ⟨row', hk'⟩
  · intro s x hx
    rcases Table.find?_insert?_cases hS hx with ⟨-, rfl⟩ | ⟨-, hx⟩
    · exact ⟨by omega, hm⟩
    · exact h.within s x hx
  · intro s x hx hr
    rcases Table.find?_insert?_cases hS hx with ⟨-, rfl⟩ | ⟨-, hx⟩
    · obtain ⟨row', hk', hact⟩ := find?_activate_of (b := x) (d := d.deliveryId) hd
      rw [if_pos rfl] at hact
      exact absurd hact (hr row' (by rw [hb]; exact hk'))
    · -- It was retired before, or it is the one this renewal retired.
      by_cases he : x.deliveryId = d.deliveryId ∧ s = d.activeSession
      · rw [he.2, hold'] at hx
        injection hx with hx
        rw [← hx]
      · refine h.retired s x hx fun row hk => ?_
        obtain ⟨row', hk', hact⟩ := find?_activate_of (b := b) (d := d.deliveryId) hk
        have hne := hr row' hk'
        rw [hact] at hne
        split at hne
        · next hxd =>
          rw [hxd] at hk
          change t.deliveries.find? _ = _ at hk
          rw [hd] at hk
          injection hk with hk
          subst hk
          rw [Table.find?_key hx]
          exact fun hs => he ⟨hxd, hs.symm⟩
        · exact hne
  · intro k row' hk
    obtain ⟨row, hk₀, htot, -⟩ := find?_activate hk
    rw [htot, hsum]
    exact h.total k row hk₀
  · intro k row' hk
    obtain ⟨row, hk₀, -, hrec, -⟩ := find?_activate hk
    rw [hrec]
    exact h.allowances k row hk₀
  · intro s x hx hr
    refine ⟨Table.find?_insert?_old hS hx, fun row' hk => ?_⟩
    obtain ⟨row, hk₀, -, -, hact⟩ := find?_activate hk
    rw [hact]
    split
    · intro he
      change (retire t d).sessions.find? s = some x at hx
      rw [← Table.find?_key hx, ← he] at hx
      exact absurd hx (by rw [hfresh]; simp)
    · exact hr row hk₀

/-! ## The number of sessions -/

theorem sessionsOf_update (t : Tables) {q : Session → Bool} {g : Session → Session}
    {hg : ∀ b, (g b).sessionId = b.sessionId} (h : ∀ b, (g b).deliveryId = b.deliveryId)
    (d : String) : ({ t with sessions := t.sessions.update q g hg } : Tables).sessionsOf d =
      t.sessionsOf d := by
  show (t.sessions.update q g hg).sum _ = _
  refine Table.sum_update hg fun b _ => ?_
  rw [h]

theorem sessionsOf_markSessions (t : Tables) (s : State) (d : String) :
    (markSessions t s).sessionsOf d = t.sessionsOf d :=
  sessionsOf_update t (by exact fun _ => rfl) d

theorem sessionsOf_sweep (t : Tables) (now : ℚ) (d : String) :
    (sweep t now).sessionsOf d = t.sessionsOf d := by
  rw [sweep, sessionsOf_markSessions, sessionsOf_markSessions]
  rfl

theorem sessionsOf_claim (t : Tables) (row : Delivery) (token : String) (lease : ℚ)
    (d : String) : (claim t row token lease).sessionsOf d = t.sessionsOf d :=
  sessionsOf_update t (by exact fun _ => rfl) d

theorem sessionsOf_writeOutcome (t : Tables) (row : Delivery) (s : State) (due : ℚ)
    (receipt d : String) : (writeOutcome t row s due receipt).sessionsOf d = t.sessionsOf d := by
  unfold writeOutcome
  split
  · rfl
  · exact sessionsOf_update t (by exact fun _ => rfl) d

theorem sessionsOf_writeProof (t : Tables) (row : Delivery) (s : State) (due : ℚ)
    (receipt : Option String) (d : String) :
    (writeProof t row s due receipt).sessionsOf d = t.sessionsOf d :=
  sessionsOf_update t (by exact fun _ => rfl) d

theorem sessionsOf_insertDelivery {t t' : Tables} {row : Delivery} {b : Session}
    (hok : insertDelivery t row b = .ok t') (d : String) :
    t'.sessionsOf d = t.sessionsOf d + if b.deliveryId = d then 1 else 0 := by
  obtain ⟨D, S, -, hS, rfl⟩ := insertDelivery_ok hok
  exact Table.sum_insert? hS

theorem sessionsOf_openSession {t t' : Tables} {row : Delivery} {b : Session}
    (hok : openSession t row b = .ok t') (d : String) :
    t'.sessionsOf d = t.sessionsOf d + if b.deliveryId = d then 1 else 0 := by
  obtain ⟨S, hS, rfl⟩ := openSession_ok hok
  have hretire : (retire t row).sessionsOf d = t.sessionsOf d :=
    sessionsOf_update t (by exact fun _ => rfl) d
  rw [← hretire]
  exact Table.sum_insert? hS

end OufGateway.Outbox
