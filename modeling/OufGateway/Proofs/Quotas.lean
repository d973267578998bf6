import Mathlib
import OufGateway.Lib.Table
import OufGateway.Lib.Program
import OufGateway.Ref.Incidents
import OufGateway.Ref.Cursor
import OufGateway.Ref.Bookmarks
import OufGateway.Proofs.Snapshots
import OufGateway.Proofs.Coverage
import OufGateway.Proofs.Requests

/-!
# The quotas of the owner store

A capture and an issue count before they insert, and only they insert, so the limits
hold in every state: no step of any request breaks `Quotas`, from whatever state it
starts. The steps of the requests are gone through once, for everything a capture and an
issue keep (`Settled`). The sums a capture reads are sums of the counts its rows declare. That they
are also the numbers of stored items is not said by the sums. It follows from the
copies, because a session's items are its whole copy and an item has its session.
-/

namespace OufGateway.Owner

open Lib Incidents

variable {db db' : Db} {tr : List Event}

/-- Every limit of a capture and of an issue. -/
structure Quotas (db : Db) : Prop where
  sessions : db.sessions.rows.length ≤ 4096
  tenant : ∀ t, db.sessions.count (·.tenant = t) ≤ 128
  principal : ∀ t p, (db.sessions.count fun s => s.tenant = t && s.principal = p) ≤ 16
  items : db.sessions.sum (·.itemCount) ≤ 200000
  tenantItems : ∀ t, (db.sessions.sum fun s => if s.tenant = t then s.itemCount else 0) ≤ 64000
  each : ∀ s ∈ db.sessions.rows, s.itemCount ≤ 20000 ∧ s.itemCount ≤ 200 * s.pageLimit
  bookmarks : db.bookmarks.rows.length ≤ 32768
  bookmarkTenant : ∀ t, db.bookmarks.count (·.tenant = t) ≤ 4096
  bookmarkPrincipal : ∀ t p, (db.bookmarks.count fun b => b.tenant = t && b.principal = p) ≤ 512

/-! ## The steps -/

theorem Quotas.dropSession (h : Quotas db) (u : Uuid) : Quotas (db.dropSession u) where
  sessions := Table.length_filter_le.trans h.sessions
  tenant t := Table.count_filter_le.trans (h.tenant t)
  principal t p := Table.count_filter_le.trans (h.principal t p)
  items := Table.sum_filter_le.trans h.items
  tenantItems t := Table.sum_filter_le.trans (h.tenantItems t)
  each s hs := h.each s (mem_filter_table.mp hs).1
  bookmarks := h.bookmarks
  bookmarkTenant := h.bookmarkTenant
  bookmarkPrincipal := h.bookmarkPrincipal

theorem Quotas.expire (h : Quotas db) (now : String) : Quotas (db.expire now) := by
  unfold Db.expire
  split
  · exact h
  · exact h.dropSession _

theorem Quotas.dropBookmarks (h : Quotas db) (p : Bookmark → Bool) :
    Quotas { db with bookmarks := db.bookmarks.filter p } :=
  { h with
    bookmarks := Table.length_filter_le.trans h.bookmarks
    bookmarkTenant := fun t => Table.count_filter_le.trans (h.bookmarkTenant t)
    bookmarkPrincipal := fun t p => Table.count_filter_le.trans (h.bookmarkPrincipal t p) }

/-- Steps that leave sessions and bookmarks. -/
theorem Quotas.frame (h : Quotas db) (hs : db'.sessions = db.sessions)
    (hb : db'.bookmarks = db.bookmarks) : Quotas db' where
  sessions := hs ▸ h.sessions
  tenant := hs ▸ h.tenant
  principal := hs ▸ h.principal
  items := hs ▸ h.items
  tenantItems := hs ▸ h.tenantItems
  each := hs ▸ h.each
  bookmarks := hb ▸ h.bookmarks
  bookmarkTenant := hb ▸ h.bookmarkTenant
  bookmarkPrincipal := hb ▸ h.bookmarkPrincipal

theorem expire_bookmarks (now : String) : (db.expire now).bookmarks = db.bookmarks := by
  unfold Db.expire
  split <;> rfl

/-- What a capture that commits has counted. -/
theorem captureTables_room {query : Query} {identity : Identity} {policyRef : String}
    {lower : Option Nat} {o : Oracle} {es : List Event} {token : Uuid}
    (hok : captureTables query identity policyRef lower db o = .ok (db', es, token)) :
    (db.expire o.now).full identity = false ∧
      ((selected db.incidents.transitions (maxRevision db.incidents.transitions) query
        lower).length : Int) ≤ (db.expire o.now).available identity query.limit := by
  unfold captureTables at hok
  simp only [] at hok
  split at hok
  · cases hok
  next hfull =>
  split at hok
  · cases hok
  next hroom =>
  split at hok
  · cases hok
  split at hok
  · cases hok
  split at hok
  · cases hok
  next hfew =>
  refine ⟨Bool.eq_false_iff.mpr hfull, ?_⟩
  have hall := take_of_few hroom hfew
  rw [hall, expire_incidents] at hfew
  exact Int.not_lt.mp hfew

/-- The session a capture adds takes the room that was counted. -/
theorem Quotas.captured {query : Query} {identity : Identity} {policyRef : String}
    {lower : Option Nat} {o : Oracle} {s : Session} {first : Cursor} {L : List Incident}
    (h : Quotas db) (hc : Captures query identity policyRef lower db o db' s first L)
    (hfull : (db.expire o.now).full identity = false)
    (hroom : (L.length : Int) ≤ (db.expire o.now).available identity query.limit) :
    Quotas db' := by
  have hexpired := h.expire o.now
  obtain ⟨sessions, cursors, hs, -, rfl⟩ := hc.db
  obtain ⟨hprincipal, htenant, -⟩ := hc.owner
  obtain ⟨hlimit, -⟩ := hc.limit
  unfold Db.full at hfull
  simp only [Bool.or_eq_false_iff, decide_eq_false_iff_not, Nat.not_le] at hfull
  obtain ⟨⟨htotal, hcount⟩, hcountBoth⟩ := hfull
  unfold Db.available maxItems at hroom
  rw [← hc.count] at hroom
  constructor
  case sessions =>
    show sessions.rows.length ≤ 4096
    rw [Table.length_insert? hs]
    omega
  case tenant =>
    intro t
    show sessions.count _ ≤ 128
    rw [Table.count_insert? hs]
    have := hexpired.tenant t
    split
    · next ht =>
      rw [decide_eq_true_eq] at ht
      rw [← ht, htenant]
      omega
    · omega
  case principal =>
    intro t p
    show sessions.count _ ≤ 16
    rw [Table.count_insert? hs]
    have := hexpired.principal t p
    split
    · next htp =>
      rw [Bool.and_eq_true, decide_eq_true_eq, decide_eq_true_eq] at htp
      rw [← htp.1, ← htp.2, htenant, hprincipal]
      omega
    · omega
  case items =>
    show sessions.sum _ ≤ 200000
    rw [Table.sum_insert? hs]
    omega
  case tenantItems =>
    intro t
    show sessions.sum _ ≤ 64000
    rw [Table.sum_insert? hs]
    have := hexpired.tenantItems t
    split
    · next ht =>
      rw [← ht, htenant]
      omega
    · omega
  case each =>
    intro r hr
    rcases (mem_insert? hs).mp hr with hr | rfl
    · exact hexpired.each r hr
    · rw [hlimit]
      omega
  case bookmarks => exact hexpired.bookmarks
  case bookmarkTenant => exact hexpired.bookmarkTenant
  case bookmarkPrincipal => exact hexpired.bookmarkPrincipal

/-- An issue answers a bookmark that is there, or adds one where there is room. -/
theorem Quotas.issued {frame : Session} {s : Scope} {identity : Identity} {policy : String}
    {o : Oracle} {es : List Event} {token : Uuid} (h : Quotas db)
    (hok : issueTables frame s identity policy db o = .ok (db', es, token)) : Quotas db' := by
  unfold issueTables at hok
  split at hok
  · cases hok
  split at hok
  · cases hok
  split at hok
  · cases hok
  split at hok
  · cases hok
    exact h
  split at hok
  · cases hok
  simp only [] at hok
  split at hok
  · cases hok
    exact h
  split at hok
  · cases hok
  next cleaned hcleaned =>
  split at hok
  · cases hok
  next hfull =>
  split at hok
  · cases hok
  next bookmarks hinsert =>
  cases hok
  have hclean : Quotas cleaned := by
    unfold Db.expireBookmark at hcleaned
    split at hcleaned
    · cases hcleaned
      exact h
    · split at hcleaned
      · cases hcleaned
      · cases hcleaned
        exact h.dropBookmarks _
  replace hfull := Bool.eq_false_iff.mpr hfull
  unfold Db.bookmarksFull at hfull
  simp only [Bool.or_eq_false_iff, decide_eq_false_iff_not, Nat.not_le] at hfull
  obtain ⟨⟨htotal, hcount⟩, hcountBoth⟩ := hfull
  refine { hclean with bookmarks := ?_, bookmarkTenant := fun t => ?_,
                       bookmarkPrincipal := fun t p => ?_ }
  · rw [Table.length_insert? hinsert]
    omega
  · rw [Table.count_insert? hinsert]
    have := hclean.bookmarkTenant t
    split
    · next ht =>
      obtain rfl : identity.tenant = t := of_decide_eq_true ht
      omega
    · omega
  · rw [Table.count_insert? hinsert]
    have := hclean.bookmarkPrincipal t p
    split
    · next htp =>
      rw [Bool.and_eq_true, decide_eq_true_eq, decide_eq_true_eq] at htp
      obtain ⟨rfl, rfl⟩ : identity.tenant = t ∧ identity.principal = p := htp
      omega
    · omega

/-! ## The requests -/

theorem keeps_block {α : Type} {P : Db → Prop}
    {f : Db → Oracle → Except Failure (Db × List Event × α)}
    (h : ∀ db o db' es a, P db → f db o = .ok (db', es, a) → P db') :
    (transaction f).Keeps P := by
  refine Program.keeps_transaction fun db o db' es a hdb hok => ?_
  split at hok
  · cases hok
  · exact h db o db' es a hdb hok

theorem keeps_select {α : Type} {P : Db → Prop} {f : Db → Oracle → Except Failure α} :
    (select f).Keeps P :=
  Program.keeps_read _

/-- What a capture and an issue keep, and what no other step of a request can touch. -/
structure Settled (P : Db → Prop) : Prop where
  frame : ∀ {db db' : Db}, P db → db'.incidents = db.incidents → db'.sessions = db.sessions →
    db'.bookmarks = db.bookmarks → P db'
  captured : ∀ {query identity policy lower db o db' es token}, P db →
    captureTables query identity policy lower db o = .ok (db', es, token) → P db'
  issued : ∀ {frame s identity policy db o db' es token}, P db →
    issueTables frame s identity policy db o = .ok (db', es, token) → P db'

variable {identity : Identity} {policy : String} {token : Uuid} {P : Db → Prop}

theorem keeps_capture (hP : Settled P) (query : Query) (lower : Option Nat) :
    (capture query identity policy lower).Keeps P :=
  keeps_block fun _ _ _ _ _ h hok => hP.captured h hok

theorem keeps_issue (hP : Settled P) (frame : Session) (s : Scope) :
    (issue frame s identity policy).Keeps P :=
  keeps_block fun _ _ _ _ _ h hok => hP.issued h hok

theorem keeps_nextCursor (hP : Settled P) (sessionId : Uuid) (position : Nat) :
    (nextCursor sessionId position).Keeps P := by
  refine keeps_block fun db o db' es c h hok => ?_
  simp only [] at hok
  split at hok
  · cases hok
    exact hP.frame h rfl rfl rfl
  split at hok
  · cases hok
  split at hok
  · cases hok
  · cases hok
    exact hP.frame h rfl rfl rfl

theorem keeps_scope (hP : Settled P) (filters : Option Lifecycle) (parent : Option Uuid)
    (parentWatermark : Option Nat) :
    (scope token filters parent parentWatermark).Keeps P := by
  refine Program.Keeps.bind keeps_select fun frame => ?_
  refine keeps_block fun db o db' es c h hok => ?_
  split at hok
  · cases hok
    exact h
  simp only [] at hok
  split at hok
  · cases hok
  · cases hok
    exact hP.frame h rfl rfl rfl

theorem keeps_pageAt (hP : Settled P) {authorizeItem : Incident → Request Json}
    (hitem : ∀ i, (authorizeItem i).Keeps P) :
    (pageAt token identity policy authorizeItem).Keeps P := by
  refine Program.Keeps.bind keeps_select fun frame => ?_
  refine Program.Keeps.bind keeps_select fun rows => ?_
  refine Program.Keeps.bind (Program.keeps_filter fun i => ?_) fun visible => ?_
  · exact Program.Keeps.bind (hitem i) fun _ => trivial
  simp only []
  split
  · exact Program.Keeps.bind (keeps_nextCursor hP _ _) fun _ => Program.keeps_ofExcept _
  · exact Program.keeps_ofExcept _

theorem keeps_cover (hP : Settled P) {exact : Bool} (p : Page) :
    (cover token exact identity policy p).Keeps P := by
  refine Program.Keeps.bind keeps_select fun row => ?_
  refine Program.Keeps.bind ?_ fun _ => ?_
  · refine keeps_block fun db o db' es a h hok => ?_
    split at hok
    · cases hok
    · cases hok
      exact hP.frame h rfl rfl rfl
  simp only []
  split
  · exact Program.keeps_ofExcept _
  · refine Program.Keeps.bind keeps_select fun complete => ?_
    split
    · exact Program.Keeps.bind (keeps_issue hP _ _) fun _ => Program.keeps_ofExcept _
    · exact Program.keeps_ofExcept _

/-- Callbacks that leave the tables alone. -/
theorem keeps_consult (capability : String) (resource : Json) :
    (consult capability resource).Keeps P := by
  refine fun db o => ⟨id, ?_⟩
  simp only []
  split <;> trivial

theorem keeps_authorize : (authorize consultCollection identity policy).Keeps P := by
  unfold authorize
  split
  · trivial
  · refine Program.Keeps.bind (keeps_consult _ _) fun answer => ?_
    split <;> trivial

theorem keeps_coveragePage (hP : Settled P) {exact : Bool} :
    (coveragePage consultCollection token exact identity policy consultItem).Keeps P := by
  refine Program.Keeps.bind keeps_authorize fun _ => ?_
  refine Program.Keeps.bind (keeps_pageAt hP fun i => ?_) fun p => keeps_cover hP p
  refine Program.Keeps.bind (keeps_consult _ _) fun answer => ?_
  split <;> trivial

theorem keeps_page (hP : Settled P) (a : Ask) : a.page.Keeps P := by
  have hplain : ∀ {token identity policy},
      (pageAt token identity policy consultItem).Keeps P :=
    keeps_pageAt hP fun i => keeps_consult _ _
  cases a with
  | snapshot query identity policy =>
      exact Program.Keeps.bind (keeps_capture hP query none) fun _ => hplain
  | cursor text identity policy =>
      simp only [Ask.page]
      split
      · trivial
      · exact hplain
  | start query identity policy =>
      refine Program.Keeps.bind keeps_authorize fun _ => ?_
      refine Program.Keeps.bind (Program.keeps_ofExcept _) fun filters => ?_
      refine Program.Keeps.bind (keeps_capture hP query none) fun token => ?_
      exact Program.Keeps.bind (keeps_scope hP _ _ _) fun _ => keeps_coveragePage hP
  | cover text identity policy =>
      simp only [Ask.page, coverageText]
      split
      · exact Program.Keeps.bind keeps_authorize fun _ => trivial
      · exact keeps_coveragePage hP
  | resume text identity policy limit =>
      refine Program.Keeps.bind keeps_authorize fun _ => ?_
      refine Program.Keeps.bind (Program.keeps_ofExcept _) fun _ => ?_
      split
      · trivial
      · refine Program.Keeps.bind keeps_select fun row => ?_
        refine Program.Keeps.bind keeps_select fun _ => ?_
        refine Program.Keeps.bind (keeps_capture hP _ _) fun token => ?_
        exact Program.Keeps.bind (keeps_scope hP _ _ _) fun _ => keeps_coveragePage hP

theorem keeps_request (hP : Settled P) (a : Ask) : a.request.Keeps P :=
  (Program.Keeps.bind (keeps_page hP a) fun _ => Program.keeps_announce _).handle fun _ =>
    Program.keeps_announce _

theorem settled_quotas : Settled Quotas where
  frame h _ hs hb := h.frame hs hb
  captured h hok := by
    obtain ⟨hfull, hroom⟩ := captureTables_room hok
    obtain ⟨s, first, L, hc, -⟩ := captureTables_ok hok
    refine h.captured hc hfull ?_
    rw [hc.items, hc.watermark]
    exact hroom
  issued h hok := h.issued hok

theorem quotas_start (v : Inventory) (now : String) : Quotas (World.initial v now).shared where
  sessions := Nat.zero_le _
  tenant _ := Nat.zero_le _
  principal _ _ := Nat.zero_le _
  items := Nat.zero_le _
  tenantItems _ := Nat.zero_le _
  each _ hs := absurd hs List.not_mem_nil
  bookmarks := Nat.zero_le _
  bookmarkTenant _ := Nat.zero_le _
  bookmarkPrincipal _ _ := Nat.zero_le _

theorem quotas_run (v : Inventory) (now : String) (ms : List (Move Ask Oracle Write)) :
    Quotas (system.run (World.initial v now) ms).shared :=
  have hwrite : ∀ (db : Db) (w : Write), Quotas db → Quotas (db.write w) :=
    fun _ _ h => h.frame rfl rfl
  Pool.keeps_run (quotas_start v now) (keeps_request settled_quotas) hwrite ms

/-! ## Items -/

/-- The stored items under their limits, and every session with its whole copy. -/
structure Filled (db : Db) (tr : List Event) : Prop where
  items : db.items.length ≤ 200000
  tenantItems : ∀ t, (db.items.countP fun r =>
    (db.sessions.find? r.sessionId).any fun s => s.tenant = t) ≤ 64000
  whole : ∀ s ∈ db.sessions.rows, ∃ query lower L, Event.captured s query lower L ∈ tr ∧
    L = selected db.incidents.transitions s.watermark query lower ∧
    s.pageLimit = query.limit ∧ s.itemCount = L.length ∧
    s.itemCount ≤ min 20000 (200 * query.limit) ∧
    db.items.filter (·.sessionId = s.sessionId) = L.mapIdx fun k body => ⟨s.sessionId, k, body⟩

/-- A session has as many items as it declares. -/
theorem count_items (hsnap : Snapshots db tr) {s : Session} (hs : s ∈ db.sessions.rows) :
    db.items.countP (fun r => r.sessionId = s.sessionId) = s.itemCount := by
  obtain ⟨q, lower, L, hcap, hitems⟩ := hsnap.sessions s hs
  rw [List.countP_eq_length_filter, hitems, List.length_mapIdx]
  exact (hsnap.copied s q lower L hcap).count.symm

theorem sum_items (hsnap : Snapshots db tr) (p : Session → Bool) :
    (db.items.countP fun r => (db.sessions.find? r.sessionId).any p) =
      db.sessions.sum fun s => if p s then s.itemCount else 0 := by
  rw [Table.countP_references]
  unfold Table.sum
  congr 1
  refine List.map_congr_left fun s hs => ?_
  rw [count_items hsnap hs]

/-- The limit of a session's pages is that of its query. -/
theorem limit_of_captured (v : Inventory) (now : String) (ms : List (Move Ask Oracle Write))
    {s : Session} {query : Query} {lower : Option Nat} {L : List Incident}
    (hcap : Event.captured s query lower L ∈ system.trace (World.initial v now) ms) :
    s.pageLimit = query.limit := by
  obtain ⟨pre, m, post, -, hemit⟩ := system.mem_trace hcap
  exact (worth_next v now pre m hemit).limit.1

theorem filled_run (v : Inventory) (now : String) (ms : List (Move Ask Oracle Write)) :
    Filled (system.run (World.initial v now) ms).shared
      (system.trace (World.initial v now) ms) := by
  have hquotas := quotas_run v now ms
  have hsnap := (disciplined_run v now ms).inv.1
  constructor
  case items =>
    have hall := sum_items hsnap fun _ => true
    rw [List.countP_eq_length.mpr fun r hr => ?_] at hall
    · rw [hall]
      exact hquotas.items
    · obtain ⟨s, hs, hid⟩ := hsnap.items r hr
      rw [← hid, Table.find?_of_mem hs]
      rfl
  case tenantItems =>
    intro t
    rw [sum_items hsnap]
    simp only [decide_eq_true_eq]
    exact hquotas.tenantItems t
  case whole =>
    intro s hs
    obtain ⟨q, lower, L, hcap, hitems⟩ := hsnap.sessions s hs
    have hcopied := hsnap.copied s q lower L hcap
    have hlimit := limit_of_captured v now ms hcap
    obtain ⟨hfew, hpages⟩ := hquotas.each s hs
    refine ⟨q, lower, L, hcap, hcopied.items, hlimit, hcopied.count, ?_, hitems⟩
    rw [← hlimit]
    exact le_min hfew hpages

/-- The quotas, over every run of any requests, other writers and crashes. -/
theorem owner_quotas (v : Inventory) (now : String) (ms : List (Move Ask Oracle Write)) :
    Quotas (system.run (World.initial v now) ms).shared ∧
      Filled (system.run (World.initial v now) ms).shared
        (system.trace (World.initial v now) ms) ∧
      (∀ query identity policy lower db o e,
        ((capture query identity policy lower).advance db o).2 = .fail e →
          ((capture query identity policy lower).advance db o).1 = db) ∧
      ∀ frame s identity policy db o e,
        ((issue frame s identity policy).advance db o).2 = .fail e →
          ((issue frame s identity policy).advance db o).1 = db :=
  ⟨quotas_run v now ms, filled_run v now ms, fun _ _ _ _ _ _ _ h => Program.advance_failed h,
    fun _ _ _ _ _ _ _ h => Program.advance_failed h⟩

end OufGateway.Owner
