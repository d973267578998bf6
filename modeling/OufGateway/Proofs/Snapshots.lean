import Mathlib
import OufGateway.Lib.Table
import OufGateway.Lib.Program
import OufGateway.Ref.Incidents
import OufGateway.Ref.Cursor
import OufGateway.Ref.Bookmarks
import OufGateway.Proofs.Lifecycle
import OufGateway.Proofs.Ledger

/-!
# What a session is made of

Sessions, their items and their cursors come and go, but what they were is in the
events: a capture says once and for all which bodies its session copied and in which
order, and the event that places a cursor says which position its token stands for.
Identifiers are not given twice, so a session that is gone stays gone and a token
means the same in the whole run. `Snapshots` ties the tables to these events, and
every operation that touches a session, an item or a cursor keeps it.

A copy is stated over the ledger as it is now and not as it was at the capture. That
is the same, because the ledger only grows above every watermark taken so far.
-/

namespace OufGateway.Owner

open Lib Incidents

variable {db db' : Db} {tr tr' : List Event} {s s' : Session} {q q' : Query}
  {lower lower' : Option Nat} {L L' : List Incident} {ts ts' : List Transition} {w : Nat}

/-! ## Identifiers -/

theorem uuid4_fresh (drawn : List Uuid) (proposal : Uuid) : uuid4 drawn proposal ∉ drawn := by
  unfold uuid4
  split
  · intro h
    have hle := le_foldl_max drawn _ h
    omega
  · next h => exact fun hmem => h (Or.inr hmem)

/-! ## The ledger under a watermark -/

/-- The ledger went on, above everything it had. -/
structure Grown (ts ts' : List Transition) : Prop where
  kept : ∃ new, ts' = ts ++ new ∧ ∀ x ∈ new, maxRevision ts < x.revision

theorem Grown.refl (ts : List Transition) : Grown ts ts :=
  ⟨[], (List.append_nil ts).symm, fun _ h => absurd h List.not_mem_nil⟩

theorem init_le_foldl_max (ns : List Nat) : ∀ m, m ≤ ns.foldl max m := by
  induction ns with
  | nil => exact fun m => le_rfl
  | cons n ns ih => exact fun m => (le_max_left m n).trans (ih (max m n))

theorem Grown.max_le (h : Grown ts ts') : maxRevision ts ≤ maxRevision ts' := by
  obtain ⟨new, rfl, -⟩ := h.kept
  unfold maxRevision
  rw [List.map_append, List.foldl_append]
  exact init_le_foldl_max _ _

theorem Grown.trans {ts'' : List Transition} (h : Grown ts ts') (h' : Grown ts' ts'') :
    Grown ts ts'' := by
  have hle := h.max_le
  obtain ⟨new, rfl, hnew⟩ := h.kept
  obtain ⟨new', rfl, hnew'⟩ := h'.kept
  refine ⟨new ++ new', List.append_assoc .., fun x hx => ?_⟩
  rcases List.mem_append.mp hx with hx | hx
  · exact hnew x hx
  · exact hle.trans_lt (hnew' x hx)

theorem grown_write {t : Incidents.Tables} (hl : Ledgered t) (write : Write) :
    Grown t.transitions (t.write write).transitions := by
  rcases wrote_last (write_wrote t write) hl with heq | ⟨row, ht, -⟩
  · rw [heq]
    exact .refl _
  · refine ⟨[⟨maxRevision t.transitions + 1, row.incidentId, row⟩], ht, fun x hx => ?_⟩
    rw [List.mem_singleton.mp hx]
    exact Nat.lt_succ_self _

/-- What is latest up to an old watermark stays so. -/
theorem latest_grown (h : Grown ts ts') (hw : w ≤ maxRevision ts) : latest ts' w = latest ts w := by
  obtain ⟨new, rfl, hnew⟩ := h.kept
  have habove : ∀ x ∈ new, ¬ x.revision ≤ w := fun x hx => by
    have := hnew x hx
    omega
  have hnone : new.filter (fun t => decide (t.revision ≤ w) &&
      (ts ++ new).all fun u => decide (u.incidentId = t.incidentId → u.revision ≤ w →
        u.revision ≤ t.revision)) = [] := by
    refine List.filter_eq_nil_iff.mpr fun x hx => ?_
    rw [decide_eq_false (habove x hx), Bool.false_and]
    exact Bool.false_ne_true
  unfold latest
  rw [List.filter_append, hnone, List.append_nil]
  refine List.filter_congr fun t _ => ?_
  have hall : (new.all fun u => decide (u.incidentId = t.incidentId → u.revision ≤ w →
      u.revision ≤ t.revision)) = true := by
    refine List.all_eq_true.mpr fun u hu => decide_eq_true fun _ hle => ?_
    exact absurd hle (habove u hu)
  rw [List.all_append, hall, Bool.and_true]

/-- A copy up to an old watermark comes out the same. -/
theorem selected_grown (h : Grown ts ts') (hw : w ≤ maxRevision ts) :
    selected ts' w q lower = selected ts w q lower := by
  unfold selected
  rw [latest_grown h hw]

/-! ## Sessions, cursors and the events -/

/-- A position a page of the session starts at. -/
def OnGrid (s : Session) (position : Nat) : Prop :=
  ∃ k, position = k * s.pageLimit ∧ (k = 0 ∨ position < s.itemCount)

/-- What a capture says of its session. -/
structure Copied (db : Db) (s : Session) (q : Query) (lower : Option Nat) (L : List Incident) :
    Prop where
  drawn : s.sessionId ∈ db.drawn
  count : s.itemCount = L.length
  few : s.itemCount ≤ 20000
  limit : 1 ≤ s.pageLimit ∧ s.pageLimit ≤ 100
  items : L = selected db.incidents.transitions s.watermark q lower
  lower : ∀ l ∈ lower, l ≤ s.watermark
  watermark : s.watermark ≤ maxRevision db.incidents.transitions

structure Snapshots (db : Db) (tr : List Event) : Prop where
  ledger : Ledgered db.incidents
  copied : ∀ s q lower L, Event.captured s q lower L ∈ tr → Copied db s q lower L
  once : ∀ s q lower L s' q' lower' L', Event.captured s q lower L ∈ tr →
    Event.captured s' q' lower' L' ∈ tr → s.sessionId = s'.sessionId →
      s = s' ∧ q = q' ∧ lower = lower' ∧ L = L'
  placed : ∀ c, Event.placed c ∈ tr → c.token ∈ db.drawn ∧
    ∃ s q lower L, Event.captured s q lower L ∈ tr ∧ s.sessionId = c.sessionId ∧
      OnGrid s c.position
  placedOnce : ∀ c c', Event.placed c ∈ tr → Event.placed c' ∈ tr → c.token = c'.token → c = c'
  sessions : ∀ s ∈ db.sessions.rows, ∃ q lower L, Event.captured s q lower L ∈ tr ∧
    db.items.filter (·.sessionId = s.sessionId) = L.mapIdx fun k body => ⟨s.sessionId, k, body⟩
  cursors : ∀ c ∈ db.cursors.rows, Event.placed c ∈ tr ∧
    ∃ s ∈ db.sessions.rows, s.sessionId = c.sessionId
  kept : ∀ c, Event.placed c ∈ tr → db.sessions.find? c.sessionId ≠ none →
    db.cursors.find? c.token = some c
  items : ∀ r ∈ db.items, ∃ s ∈ db.sessions.rows, s.sessionId = r.sessionId

/-- What may become of the tables between two steps of a request. -/
structure Later (db : Db) (tr : List Event) (db' : Db) (tr' : List Event) : Prop where
  trace : tr <+: tr'
  drawn : ∀ u ∈ db.drawn, u ∈ db'.drawn
  grown : Grown db.incidents.transitions db'.incidents.transitions
  gone : ∀ u ∈ db.drawn, db.sessions.find? u = none → db'.sessions.find? u = none

theorem Later.refl (db : Db) (tr : List Event) : Later db tr db tr :=
  ⟨List.prefix_rfl, fun _ h => h, .refl _, fun _ _ h => h⟩

theorem Later.trans {db'' : Db} {tr'' : List Event} (h : Later db tr db' tr')
    (h' : Later db' tr' db'' tr'') : Later db tr db'' tr'' :=
  ⟨h.trace.trans h'.trace, fun u hu => h'.drawn u (h.drawn u hu), h.grown.trans h'.grown,
    fun u hu hnone => h'.gone u (h.drawn u hu) (h.gone u hu hnone)⟩

theorem Later.mem (h : Later db tr db' tr') {e : Event} (he : e ∈ tr) : e ∈ tr' :=
  h.trace.subset he

/-- A copy stays what it is. -/
theorem Copied.later (h : Copied db s q lower L) (hdrawn : ∀ u ∈ db.drawn, u ∈ db'.drawn)
    (hgrown : Grown db.incidents.transitions db'.incidents.transitions) :
    Copied db' s q lower L :=
  ⟨hdrawn _ h.drawn, h.count, h.few, h.limit, h.items.trans (selected_grown hgrown h.watermark).symm,
    h.lower, h.watermark.trans hgrown.max_le⟩

/-! ## What the operations keep -/

/-- Steps that leave sessions, items and cursors. -/
theorem Snapshots.frame (h : Snapshots db tr) (hi : db'.incidents = db.incidents)
    (hs : db'.sessions = db.sessions) (hr : db'.items = db.items) (hc : db'.cursors = db.cursors)
    (hd : ∀ u ∈ db.drawn, u ∈ db'.drawn)
    (hcap : ∀ s q lower L, Event.captured s q lower L ∈ tr' ↔ Event.captured s q lower L ∈ tr)
    (hpl : ∀ c, Event.placed c ∈ tr' ↔ Event.placed c ∈ tr) : Snapshots db' tr' where
  ledger := hi ▸ h.ledger
  copied s q lower L hmem :=
    (h.copied s q lower L ((hcap ..).mp hmem)).later hd (hi ▸ .refl _)
  once s q lower L s' q' lower' L' hmem hmem' :=
    h.once s q lower L s' q' lower' L' ((hcap ..).mp hmem) ((hcap ..).mp hmem')
  placed c hmem := by
    obtain ⟨htoken, s, q, lower, L, hcaptured, hid, hgrid⟩ := h.placed c ((hpl c).mp hmem)
    exact ⟨hd _ htoken, s, q, lower, L, (hcap ..).mpr hcaptured, hid, hgrid⟩
  placedOnce c c' hmem hmem' := h.placedOnce c c' ((hpl c).mp hmem) ((hpl c').mp hmem')
  sessions s hmem := by
    obtain ⟨q, lower, L, hcaptured, hitems⟩ := h.sessions s (hs ▸ hmem)
    exact ⟨q, lower, L, (hcap ..).mpr hcaptured, hr ▸ hitems⟩
  cursors c hmem := by
    obtain ⟨hplaced, s, hsession, hid⟩ := h.cursors c (hc ▸ hmem)
    exact ⟨(hpl c).mpr hplaced, s, hs ▸ hsession, hid⟩
  kept c hmem hsome := hc ▸ h.kept c ((hpl c).mp hmem) (hs ▸ hsome)
  items r hmem := by
    obtain ⟨s, hsession, hid⟩ := h.items r (hr ▸ hmem)
    exact ⟨s, hs ▸ hsession, hid⟩

theorem Snapshots.write (h : Snapshots db tr) (w : Write) : Snapshots (db.write w) tr where
  ledger := (ledgered_wrote (write_wrote db.incidents w) h.ledger).1
  copied s q lower L hmem :=
    (h.copied s q lower L hmem).later (fun _ hu => hu) (grown_write h.ledger w)
  once := h.once
  placed := h.placed
  placedOnce := h.placedOnce
  sessions := h.sessions
  cursors := h.cursors
  kept := h.kept
  items := h.items

theorem later_write (hl : Ledgered db.incidents) (w : Write) : Later db tr (db.write w) tr :=
  ⟨List.prefix_rfl, fun _ h => h, grown_write hl w, fun _ _ h => h⟩

theorem mem_filter_table {ρ κ : Type} {key : ρ → κ} {t : Table key} {p : ρ → Bool} {r : ρ} :
    r ∈ (t.filter p).rows ↔ r ∈ t.rows ∧ p r = true :=
  List.mem_filter

theorem Snapshots.dropSession (h : Snapshots db tr) (u : Uuid) :
    Snapshots (db.dropSession u) tr where
  ledger := h.ledger
  copied s q lower L hmem := (h.copied s q lower L hmem).later (fun _ hu => hu) (.refl _)
  once := h.once
  placed := h.placed
  placedOnce := h.placedOnce
  sessions s hmem := by
    obtain ⟨hmem, hne⟩ := mem_filter_table.mp hmem
    obtain ⟨q, lower, L, hcaptured, hitems⟩ := h.sessions s hmem
    refine ⟨q, lower, L, hcaptured, ?_⟩
    show (db.items.filter _).filter _ = _
    rw [← hitems, List.filter_filter]
    refine List.filter_congr fun r _ => ?_
    by_cases hr : r.sessionId = s.sessionId
    · rw [hr, hne, Bool.and_true]
    · rw [decide_eq_false hr, Bool.false_and]
  cursors c hmem := by
    obtain ⟨hmem, hne⟩ := mem_filter_table.mp hmem
    obtain ⟨hplaced, s, hsession, hid⟩ := h.cursors c hmem
    exact ⟨hplaced, s, mem_filter_table.mpr ⟨hsession, hid ▸ hne⟩, hid⟩
  kept c hmem hsome := by
    obtain ⟨s, hs⟩ := Option.ne_none_iff_exists'.mp hsome
    have hne := (mem_filter_table.mp (Table.mem_of_find? hs)).2
    rw [Table.find?_key hs] at hne
    refine Table.find?_filter_kept (h.kept c hmem ?_) hne
    rw [Table.find?_filter_some hs]
    exact Option.some_ne_none s
  items r hmem := by
    obtain ⟨hmem, hne⟩ := List.mem_filter.mp hmem
    obtain ⟨s, hsession, hid⟩ := h.items r hmem
    exact ⟨s, mem_filter_table.mpr ⟨hsession, hid ▸ hne⟩, hid⟩

theorem later_dropSession (u : Uuid) : Later db tr (db.dropSession u) tr :=
  ⟨List.prefix_rfl, fun _ h => h, .refl _, fun _ _ hnone => Table.find?_filter_none hnone⟩

theorem Snapshots.expire (h : Snapshots db tr) (now : String) : Snapshots (db.expire now) tr := by
  unfold Db.expire
  split
  · exact h
  · exact h.dropSession _

theorem later_expire (tr : List Event) (now : String) : Later db tr (db.expire now) tr := by
  unfold Db.expire
  split
  · exact .refl _ _
  · exact later_dropSession _

theorem expire_incidents (now : String) : (db.expire now).incidents = db.incidents := by
  unfold Db.expire
  split <;> rfl

theorem expire_drawn (now : String) : (db.expire now).drawn = db.drawn := by
  unfold Db.expire
  split <;> rfl

/-! ## A capture -/

/-- What a capture commits. -/
structure Captures (query : Query) (identity : Identity) (policyRef : String)
    (lower : Option Nat) (db : Db) (o : Oracle) (db' : Db) (s : Session) (first : Cursor)
    (L : List Incident) : Prop where
  session : s.sessionId = uuid4 db.drawn o.id
  token : first.token = uuid4 (s.sessionId :: db.drawn) o.token
  cursor : first.sessionId = s.sessionId ∧ first.position = 0
  items : L = selected db.incidents.transitions s.watermark query lower
  watermark : s.watermark = maxRevision db.incidents.transitions
  lower : ∀ l ∈ lower, l ≤ s.watermark
  count : s.itemCount = L.length
  few : s.itemCount ≤ 20000
  limit : s.pageLimit = query.limit ∧ 1 ≤ query.limit ∧ query.limit ≤ 100
  owner : s.principal = identity.principal ∧ s.tenant = identity.tenant ∧ s.policyRef = policyRef
  db : ∃ sessions cursors, (db.expire o.now).sessions.insert? s = some sessions ∧
    (db.expire o.now).cursors.insert? first = some cursors ∧
    db' = { db.expire o.now with
      sessions := sessions, cursors := cursors
      items := (db.expire o.now).items ++ L.mapIdx fun k body => ⟨s.sessionId, k, body⟩
      drawn := first.token :: s.sessionId :: db.drawn }

/-- `limit n+1` that brings no more than `n` rows has brought them all. -/
theorem take_of_few {α : Type} {l : List α} {n : Int} (hn : ¬ n < 0)
    (h : ¬ n < (l.take (n + 1).toNat).length) : l.take (n + 1).toNat = l := by
  rw [List.length_take] at h
  refine List.take_of_length_le ?_
  omega

theorem captureTables_ok {query : Query} {identity : Identity} {policyRef : String} {o : Oracle}
    {es : List Event} {token : Uuid}
    (hok : captureTables query identity policyRef lower db o = .ok (db', es, token)) :
    ∃ s first L, Captures query identity policyRef lower db o db' s first L ∧
      es = [.captured s query lower L, .placed first] ∧ token = first.token := by
  unfold captureTables at hok
  simp only [] at hok
  split at hok
  · cases hok
  split at hok
  · cases hok
  next hroom =>
  split at hok
  · cases hok
  split at hok
  · cases hok
  next hlower =>
  split at hok
  · cases hok
  next hfew =>
  split at hok
  · cases hok
  split at hok
  · cases hok
  next hlimit =>
  split at hok
  · next sessions cursors hs hc =>
    cases hok
    have hall := take_of_few hroom hfew
    have hbounds := not_or.mp hlimit
    refine ⟨_, _, _, ?_, rfl, rfl⟩
    exact {
      session := rfl
      token := rfl
      cursor := ⟨rfl, rfl⟩
      items := hall.trans (by rw [expire_incidents])
      watermark := by rw [expire_incidents]
      lower := fun l hl => by
        rw [hl] at hlower
        exact Nat.le_of_not_lt fun hlt => hlower (decide_eq_true hlt)
      count := rfl
      few := by
        have hmax : (db.expire o.now).available identity query.limit ≤ 20000 :=
          (min_le_left _ _).trans (min_le_left _ _)
        have hrows := Int.not_lt.mp hfew
        exact Int.ofNat_le.mp (hrows.trans hmax)
      limit := ⟨rfl, Nat.le_of_not_lt hbounds.1, Nat.le_of_not_lt hbounds.2⟩
      owner := ⟨rfl, rfl, rfl⟩
      db := ⟨sessions, cursors, hs, hc, by rw [expire_drawn]⟩ }
  · cases hok

theorem mem_insert? {ρ κ : Type} [DecidableEq κ] {key : ρ → κ} {t t' : Table key} {r x : ρ}
    (h : t.insert? r = some t') : x ∈ t'.rows ↔ x ∈ t.rows ∨ x = r := by
  rw [Table.rows_insert? h, List.mem_append, List.mem_singleton]

/-- The items of a new session are the copy, and those of the others are theirs. -/
theorem filter_copy (items : List PageItem) (u v : Uuid) (L : List Incident)
    (hu : ∀ r ∈ items, r.sessionId ≠ u) :
    (items ++ L.mapIdx fun k body => (⟨u, k, body⟩ : PageItem)).filter (·.sessionId = v) =
      if v = u then L.mapIdx fun k body => ⟨u, k, body⟩ else items.filter (·.sessionId = v) := by
  have hcopy : ∀ r ∈ L.mapIdx fun k body => (⟨u, k, body⟩ : PageItem), r.sessionId = u := by
    intro r hr
    obtain ⟨k, hk, rfl⟩ := List.mem_mapIdx.mp hr
    rfl
  rw [List.filter_append]
  split
  · next heq =>
    rw [heq, List.filter_eq_nil_iff.mpr fun r hr => by simpa using hu r hr, List.nil_append]
    exact List.filter_eq_self.mpr fun r hr => decide_eq_true (hcopy r hr)
  · next hne =>
    rw [List.filter_eq_nil_iff (l := L.mapIdx _).mpr fun r hr => by
      simpa [hcopy r hr] using Ne.symm hne, List.append_nil]

theorem later_captured {query : Query} {identity : Identity} {policyRef : String} {o : Oracle}
    {first : Cursor} {es : List Event}
    (hc : Captures query identity policyRef lower db o db' s first L) :
    Later db tr db' (tr ++ es) := by
  have hfresh := uuid4_fresh db.drawn o.id
  rw [← hc.session] at hfresh
  obtain ⟨sessions, cursors, hs, -, rfl⟩ := hc.db
  refine ⟨List.prefix_append _ _, fun u hu => ?_, ?_, fun u hu hnone => ?_⟩
  · exact List.mem_cons_of_mem _ (List.mem_cons_of_mem _ hu)
  · show Grown _ (db.expire o.now).incidents.transitions
    rw [expire_incidents]
    exact .refl _
  · show sessions.find? u = none
    rw [Table.find?_insert? hs, if_neg]
    · exact (later_expire tr o.now).gone u hu hnone
    · exact fun heq => hfresh (heq ▸ hu)

theorem Snapshots.captured {query : Query} {identity : Identity} {policyRef : String} {o : Oracle}
    {first : Cursor} (h : Snapshots db tr)
    (hc : Captures query identity policyRef lower db o db' s first L) :
    Snapshots db' (tr ++ [.captured s query lower L, .placed first]) := by
  have hfresh := uuid4_fresh db.drawn o.id
  rw [← hc.session] at hfresh
  have htoken := uuid4_fresh (s.sessionId :: db.drawn) o.token
  rw [← hc.token] at htoken
  have hlater : Later db tr db' (tr ++ [.captured s query lower L, .placed first]) :=
    later_captured hc
  have hexp := h.expire o.now
  have hcap : ∀ s' q' lower' L', Event.captured s' q' lower' L' ∈
      tr ++ [.captured s query lower L, .placed first] ↔
        Event.captured s' q' lower' L' ∈ tr ∨ s' = s ∧ q' = query ∧ lower' = lower ∧ L' = L := by
    intro s' q' lower' L'
    simp
  have hpl : ∀ c, Event.placed c ∈ tr ++ [.captured s query lower L, .placed first] ↔
      Event.placed c ∈ tr ∨ c = first := by
    intro c
    simp
  have hnew : ∀ s' q' lower' L', Event.captured s' q' lower' L' ∈ tr →
      s'.sessionId ≠ s.sessionId := by
    intro s' q' lower' L' hmem heq
    exact hfresh (heq ▸ (h.copied s' q' lower' L' hmem).drawn)
  have hitems : ∀ r ∈ (db.expire o.now).items, r.sessionId ≠ s.sessionId := by
    intro r hr heq
    obtain ⟨s', hsession, hid⟩ := hexp.items r hr
    obtain ⟨q', l', L', hcaptured, -⟩ := hexp.sessions s' hsession
    exact hnew s' q' l' L' hcaptured (hid.trans heq)
  obtain ⟨sessions, cursors, hs, hcur, hdb⟩ := hc.db
  have hinc : db'.incidents = db.incidents := by
    rw [hdb]
    exact expire_incidents _
  have hdrawn : db'.drawn = first.token :: s.sessionId :: db.drawn := by
    rw [hdb]
  constructor
  case ledger => exact hinc ▸ h.ledger
  case copied =>
    intro s' q' lower' L' hmem
    rcases (hcap ..).mp hmem with hmem | ⟨rfl, rfl, rfl, rfl⟩
    · exact (h.copied s' q' lower' L' hmem).later hlater.drawn hlater.grown
    · refine ⟨?_, hc.count, hc.few, hc.limit.1 ▸ hc.limit.2, ?_, hc.lower, ?_⟩
      · rw [hdrawn]
        exact List.mem_cons_of_mem _ (List.mem_cons_self ..)
      · rw [hinc]
        exact hc.items
      · rw [hinc]
        exact hc.watermark.le
  case once =>
    intro s₁ q₁ l₁ L₁ s₂ q₂ l₂ L₂ h₁ h₂ heq
    rcases (hcap ..).mp h₁ with hold₁ | ⟨rfl, rfl, rfl, rfl⟩
    · rcases (hcap ..).mp h₂ with hold₂ | ⟨rfl, rfl, rfl, rfl⟩
      · exact h.once s₁ q₁ l₁ L₁ s₂ q₂ l₂ L₂ hold₁ hold₂ heq
      · exact absurd heq (hnew s₁ q₁ l₁ L₁ hold₁)
    · rcases (hcap ..).mp h₂ with hold₂ | ⟨rfl, rfl, rfl, rfl⟩
      · exact absurd heq.symm (hnew s₂ q₂ l₂ L₂ hold₂)
      · exact ⟨rfl, rfl, rfl, rfl⟩
  case placed =>
    intro c hmem
    rcases (hpl c).mp hmem with hmem | rfl
    · obtain ⟨hdr, s', q', l', L', hcaptured, hid, hgrid⟩ := h.placed c hmem
      exact ⟨hlater.drawn _ hdr, s', q', l', L', (hcap ..).mpr (Or.inl hcaptured), hid, hgrid⟩
    · refine ⟨?_, s, query, lower, L, (hcap ..).mpr (Or.inr ⟨rfl, rfl, rfl, rfl⟩),
        hc.cursor.1.symm, 0, ?_, Or.inl rfl⟩
      · rw [hdrawn]
        exact List.mem_cons_self ..
      · rw [hc.cursor.2, Nat.zero_mul]
  case placedOnce =>
    have hold : ∀ c, Event.placed c ∈ tr → c.token ≠ first.token := by
      intro c hmem heq
      exact htoken (List.mem_cons_of_mem _ (heq ▸ (h.placed c hmem).1))
    intro c c' hmem hmem' heq
    rcases (hpl c).mp hmem with hbefore | rfl
    · rcases (hpl c').mp hmem' with hbefore' | rfl
      · exact h.placedOnce c c' hbefore hbefore' heq
      · exact absurd heq (hold c hbefore)
    · rcases (hpl c').mp hmem' with hbefore' | rfl
      · exact absurd heq.symm (hold c' hbefore')
      · rfl
  case sessions =>
    intro s' hmem
    rw [hdb] at hmem ⊢
    show ∃ q' lower' L', _ ∧ List.filter _ (_ ++ _) = _
    rcases (mem_insert? hs).mp hmem with hmem | rfl
    · obtain ⟨q', lower', L', hcaptured, hcopy⟩ := hexp.sessions s' hmem
      refine ⟨q', lower', L', (hcap ..).mpr (Or.inl hcaptured), ?_⟩
      rw [filter_copy _ _ _ _ hitems, if_neg (hnew s' q' lower' L' hcaptured)]
      exact hcopy
    · refine ⟨query, lower, L, (hcap ..).mpr (Or.inr ⟨rfl, rfl, rfl, rfl⟩), ?_⟩
      rw [filter_copy _ _ _ _ hitems, if_pos rfl]
  case cursors =>
    intro c hmem
    rw [hdb] at hmem ⊢
    rcases (mem_insert? hcur).mp hmem with hmem | rfl
    · obtain ⟨hplaced, s', hsession, hid⟩ := hexp.cursors c hmem
      exact ⟨(hpl c).mpr (Or.inl hplaced), s', (mem_insert? hs).mpr (Or.inl hsession), hid⟩
    · exact ⟨(hpl c).mpr (Or.inr rfl), s, (mem_insert? hs).mpr (Or.inr rfl), hc.cursor.1.symm⟩
  case kept =>
    intro c hmem hsome
    rw [hdb] at hsome ⊢
    rcases (hpl c).mp hmem with hbefore | rfl
    · obtain ⟨-, s', q', l', L', hcaptured, hid, -⟩ := h.placed c hbefore
      refine Table.find?_insert?_old hcur (hexp.kept c hbefore ?_)
      intro hnone
      refine hsome ?_
      show sessions.find? c.sessionId = none
      rw [Table.find?_insert? hs, if_neg, hnone]
      exact fun heq => hnew s' q' l' L' hcaptured (hid.trans heq.symm)
    · exact Table.find?_insert?_self hcur
  case items =>
    intro r hmem
    rw [hdb] at hmem ⊢
    rcases List.mem_append.mp hmem with hmem | hmem
    · obtain ⟨s', hsession, hid⟩ := hexp.items r hmem
      exact ⟨s', (mem_insert? hs).mpr (Or.inl hsession), hid⟩
    · obtain ⟨k, hk, rfl⟩ := List.mem_mapIdx.mp hmem
      exact ⟨s, (mem_insert? hs).mpr (Or.inr rfl), rfl⟩

/-! ## A page -/

/-- The session a key finds is the one that was captured under it. -/
theorem Snapshots.found (h : Snapshots db tr) (hcap : Event.captured s q lower L ∈ tr)
    (hfind : db.sessions.find? s.sessionId = some s') :
    s' = s ∧ db.items.filter (·.sessionId = s.sessionId) =
      L.mapIdx fun k body => ⟨s.sessionId, k, body⟩ := by
  obtain ⟨q', lower', L', hcap', hitems⟩ := h.sessions s' (Table.mem_of_find? hfind)
  obtain ⟨rfl, -, -, rfl⟩ :=
    h.once s' q' lower' L' s q lower L hcap' hcap (Table.find?_key hfind)
  exact ⟨rfl, hitems⟩

/-- The items of a copy from a position on. -/
theorem filter_positions (u : Uuid) (position : Nat) (L : List Incident) : ∀ start : Nat,
    (L.mapIdx fun k body => (⟨u, start + k, body⟩ : PageItem)).filter
        (fun r => decide (position ≤ r.position)) =
      (L.mapIdx fun k body => ⟨u, start + k, body⟩).drop (position - start) := by
  induction L with
  | nil => exact fun start => by rw [List.mapIdx_nil, List.filter_nil, List.drop_nil]
  | cons body L ih =>
      intro start
      have hshift : (fun k body => (⟨u, start + (k + 1), body⟩ : PageItem)) =
          fun k body => ⟨u, start + 1 + k, body⟩ := by
        funext k body
        rw [Nat.add_assoc, Nat.add_comm 1 k]
      rw [List.mapIdx_cons, hshift]
      by_cases hle : position ≤ start
      · have hall : ∀ r ∈ (L.mapIdx fun k body => (⟨u, start + 1 + k, body⟩ : PageItem)),
            decide (position ≤ r.position) = true := by
          intro r hr
          obtain ⟨k, hk, rfl⟩ := List.mem_mapIdx.mp hr
          exact decide_eq_true (by show position ≤ start + 1 + k; omega)
        rw [Nat.sub_eq_zero_of_le hle, List.drop_zero, List.filter_cons_of_pos (by simpa using hle),
          List.filter_eq_self.mpr hall]
      · have hstep : position - start = position - (start + 1) + 1 := by omega
        rw [List.filter_cons_of_neg (by simpa using hle), ih (start + 1), hstep,
          List.drop_succ_cons]

/-- A copy lies in the order of its positions. -/
theorem pairwise_positions (u : Uuid) (L : List Incident) :
    (L.mapIdx fun k body => (⟨u, k, body⟩ : PageItem)).Pairwise
      fun a b => decide (a.position ≤ b.position) = true := by
  rw [List.pairwise_iff_getElem]
  intro i j hi hj hij
  rw [List.getElem_mapIdx, List.getElem_mapIdx]
  exact decide_eq_true hij.le

/-- What a page reads of its session: a part of the copy, or nothing when the session is
gone. -/
theorem Snapshots.rows (h : Snapshots db tr) (hcap : Event.captured s q lower L ∈ tr)
    (position limit : Nat) :
    db.rows s.sessionId position limit = (L.drop position).take limit ∨
      db.rows s.sessionId position limit = [] ∧ db.sessions.find? s.sessionId = none := by
  cases hfind : db.sessions.find? s.sessionId with
  | some s' =>
      refine Or.inl ?_
      obtain ⟨-, hitems⟩ := h.found hcap hfind
      have hsplit : db.items.filter (fun r => r.sessionId = s.sessionId &&
          decide (position ≤ r.position)) =
          (L.mapIdx fun k body => ⟨s.sessionId, k, body⟩).drop position := by
        have hzero := filter_positions s.sessionId position L 0
        simp only [Nat.zero_add, Nat.sub_zero] at hzero
        rw [← hzero, ← hitems, List.filter_filter]
        exact List.filter_congr fun r _ => Bool.and_comm _ _
      have hsorted := (pairwise_positions s.sessionId L).drop (i := position)
      have hbodies : (L.mapIdx fun k body => (⟨s.sessionId, k, body⟩ : PageItem)).map (·.body) = L := by
        refine List.ext_getElem? fun i => ?_
        rw [List.getElem?_map, List.getElem?_mapIdx, Option.map_map]
        exact Option.map_id'
      unfold Db.rows
      rw [hsplit, List.mergeSort_of_pairwise hsorted, List.map_take, List.map_drop, hbodies]
  | none =>
      refine Or.inr ⟨?_, rfl⟩
      have hnone : db.items.filter (fun r => r.sessionId = s.sessionId &&
          decide (position ≤ r.position)) = [] := by
        refine List.filter_eq_nil_iff.mpr fun r hr hboth => ?_
        obtain ⟨s', hsession, hid⟩ := h.items r hr
        rw [Bool.and_eq_true, decide_eq_true_eq] at hboth
        exact Table.find?_eq_none_iff.mp hfind s' hsession (hid.trans hboth.1)
      unfold Db.rows
      rw [hnone, List.mergeSort_nil, List.take_nil, List.map_nil]

/-- A cursor is placed where a page of a session that is there starts. -/
theorem Snapshots.next {row : Cursor} {cursors : Table Cursor.token} (h : Snapshots db tr)
    (hcap : Event.captured s q lower L ∈ tr) (hid : s.sessionId = row.sessionId)
    (hgrid : OnGrid s row.position) (hsession : db.sessions.find? row.sessionId ≠ none)
    (hfresh : row.token ∉ db.drawn) (hinsert : db.cursors.insert? row = some cursors) :
    Snapshots { db with cursors := cursors, drawn := row.token :: db.drawn }
      (tr ++ [.placed row]) := by
  have hcaps : ∀ s' q' lower' L', Event.captured s' q' lower' L' ∈ tr ++ [.placed row] ↔
      Event.captured s' q' lower' L' ∈ tr := by
    intro s' q' lower' L'
    simp
  have hpl : ∀ c, Event.placed c ∈ tr ++ [.placed row] ↔ Event.placed c ∈ tr ∨ c = row := by
    intro c
    simp
  have hold : ∀ c, Event.placed c ∈ tr → c.token ≠ row.token := fun c hmem heq =>
    hfresh (heq ▸ (h.placed c hmem).1)
  constructor
  case ledger => exact h.ledger
  case copied =>
    intro s' q' lower' L' hmem
    exact (h.copied s' q' lower' L' ((hcaps ..).mp hmem)).later
      (fun _ hu => List.mem_cons_of_mem _ hu) (.refl _)
  case once =>
    intro s₁ q₁ l₁ L₁ s₂ q₂ l₂ L₂ h₁ h₂ heq
    exact h.once s₁ q₁ l₁ L₁ s₂ q₂ l₂ L₂ ((hcaps ..).mp h₁) ((hcaps ..).mp h₂) heq
  case placed =>
    intro c hmem
    rcases (hpl c).mp hmem with hmem | rfl
    · obtain ⟨hdr, s', q', l', L', hcaptured, hid, hgrid⟩ := h.placed c hmem
      exact ⟨List.mem_cons_of_mem _ hdr, s', q', l', L', (hcaps ..).mpr hcaptured, hid, hgrid⟩
    · exact ⟨List.mem_cons_self .., s, q, lower, L, (hcaps ..).mpr hcap, hid, hgrid⟩
  case placedOnce =>
    intro c c' hmem hmem' heq
    rcases (hpl c).mp hmem with hbefore | rfl
    · rcases (hpl c').mp hmem' with hbefore' | rfl
      · exact h.placedOnce c c' hbefore hbefore' heq
      · exact absurd heq (hold c hbefore)
    · rcases (hpl c').mp hmem' with hbefore' | rfl
      · exact absurd heq.symm (hold c' hbefore')
      · rfl
  case sessions =>
    intro s' hmem
    obtain ⟨q', l', L', hcaptured, hitems⟩ := h.sessions s' hmem
    exact ⟨q', l', L', (hcaps ..).mpr hcaptured, hitems⟩
  case cursors =>
    intro c hmem
    rcases (mem_insert? hinsert).mp hmem with hmem | rfl
    · obtain ⟨hplaced, hthere⟩ := h.cursors c hmem
      exact ⟨(hpl c).mpr (Or.inl hplaced), hthere⟩
    · obtain ⟨s', hs'⟩ := Option.ne_none_iff_exists'.mp hsession
      exact ⟨(hpl c).mpr (Or.inr rfl), s', Table.mem_of_find? hs', Table.find?_key hs'⟩
  case kept =>
    intro c hmem hsome
    rcases (hpl c).mp hmem with hbefore | rfl
    · exact Table.find?_insert?_old hinsert (h.kept c hbefore hsome)
    · exact Table.find?_insert?_self hinsert
  case items => exact h.items

end OufGateway.Owner
