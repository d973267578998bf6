import Mathlib
import OufGateway.Lib.Table
import OufGateway.Lib.Program
import OufGateway.Ref.Incidents
import OufGateway.Ref.Cursor
import OufGateway.Ref.Bookmarks
import OufGateway.Proofs.Ledger
import OufGateway.Proofs.Snapshots

/-!
# What a bookmark rests on

The scope of a session, the record of its pages and the bookmarks are tables too, and
`Covered` ties them to the events as `Snapshots` does for the capture. A scope is
written once and says which bookmark the session continues; a page row repeats the
last recorded read of its position, at a position where a page of the session can
start; a bookmark row keeps the watermark and the filters it was issued with for as
long as it is there, and its token comes back no more after that.

The code counts the complete pages and never looks at which they are. The count is
enough because the positions are all different and all of them starts of pages, of
which there are as many as the count demands.
-/

namespace OufGateway.Owner

open Lib Incidents

variable {db db' : Db} {tr tr' es : List Event} {s s' : Session} {q q' : Query}
  {lower : Option Nat} {L : List Incident} {sid : Uuid} {position : Nat}

/-! ## Recorded reads -/

/-- What an event records of a position: redactions and a gap in the history. -/
def Event.readAt (sid : Uuid) (position : Nat) : Event → Option (Bool × Bool)
  | .recorded u p redacted gap => if u = sid ∧ p = position then some (redacted, gap) else none
  | _ => none

/-- The last recorded read of a position. -/
def lastRead (tr : List Event) (sid : Uuid) (position : Nat) : Option (Bool × Bool) :=
  (tr.filterMap (Event.readAt sid position)).getLast?

theorem lastRead_append (tr es : List Event) (sid : Uuid) (position : Nat) :
    lastRead (tr ++ es) sid position = (lastRead es sid position).or (lastRead tr sid position) := by
  unfold lastRead
  rw [List.filterMap_append, List.getLast?_append]

/-- What says nothing of scopes, reads and bookmarks. -/
def Event.aside : Event → Prop
  | .scoped _ => False
  | .recorded .. => False
  | .issued .. => False
  | _ => True

theorem lastRead_aside (h : ∀ e ∈ es, e.aside) : lastRead (tr ++ es) sid position =
    lastRead tr sid position := by
  have hnone : es.filterMap (Event.readAt sid position) = [] := by
    refine List.filterMap_eq_nil_iff.mpr fun e he => ?_
    have haside := h e he
    cases e with
    | recorded u p redacted gap => exact haside.elim
    | _ => rfl
  rw [lastRead_append]
  unfold lastRead
  rw [hnone]
  rfl

/-! ## The invariant -/

/-- Where a scope comes from. -/
structure Lineage (tr : List Event) (r : Scope) : Prop where
  captured : ∃ s q L, Event.captured s q r.parentWatermark L ∈ tr ∧ s.sessionId = r.sessionId ∧
    q.state = r.filters ∧ q.since = none
  first : r.parentToken = none → r.parentWatermark = none
  next : ∀ b, r.parentToken = some b → ∃ f sc now, Event.issued f sc b now ∈ tr ∧
    r.parentWatermark = some f.watermark ∧ r.filters = sc.filters

theorem Lineage.mono {r : Scope} (h : Lineage tr r) (htr : ∀ e ∈ tr, e ∈ tr') : Lineage tr' r where
  captured := by
    obtain ⟨s, q, L, hcap, hrest⟩ := h.captured
    exact ⟨s, q, L, htr _ hcap, hrest⟩
  first := h.first
  next b hb := by
    obtain ⟨f, sc, now, hissued, hrest⟩ := h.next b hb
    exact ⟨f, sc, now, htr _ hissued, hrest⟩

/-- A bookmark is one of this session's owner, scope and boundary. -/
structure Carries (f : Session) (sc : Scope) (b : Bookmark) : Prop where
  principal : b.principal = f.principal
  tenant : b.tenant = f.tenant
  policyRef : b.policyRef = f.policyRef
  filters : b.filters = sc.filters
  watermark : b.watermark = f.watermark

structure Covered (db : Db) (tr : List Event) : Prop where
  scopes : ∀ r ∈ db.scopes.rows, Event.scoped r ∈ tr
  lineage : ∀ r, Event.scoped r ∈ tr → Lineage tr r
  kept : ∀ r, Event.scoped r ∈ tr → db.sessions.find? r.sessionId ≠ none →
    db.scopes.find? r.sessionId = some r
  scopedOnce : ∀ r r', Event.scoped r ∈ tr → Event.scoped r' ∈ tr →
    r.sessionId = r'.sessionId → r = r'
  pages : ∀ r ∈ db.pages, (∃ redacted gap, lastRead tr r.sessionId r.position =
      some (redacted, gap) ∧ r.complete = !(redacted || gap)) ∧
    ∃ s q lower L, Event.captured s q lower L ∈ tr ∧ s.sessionId = r.sessionId ∧
      OnGrid s r.position
  pagesOnce : (db.pages.map fun r => (r.sessionId, r.position)).Nodup
  bookmarks : ∀ b ∈ db.bookmarks.rows, b.token ∈ db.drawn ∧ ∃ f sc now,
    Event.issued f sc b.token now ∈ tr ∧ b.sessionId = f.sessionId ∧ Carries f sc b
  issued : ∀ f sc t now, Event.issued f sc t now ∈ tr → t ∈ db.drawn ∧
    (∃ q lower L, Event.captured f q lower L ∈ tr) ∧ Event.scoped sc ∈ tr ∧
      sc.sessionId = f.sessionId ∧
      ∀ b ∈ db.bookmarks.rows, b.token = t → b.watermark = f.watermark ∧ b.filters = sc.filters
  issuedOnce : ∀ f sc f' sc' t now now', Event.issued f sc t now ∈ tr →
    Event.issued f' sc' t now' ∈ tr → f.watermark = f'.watermark ∧ sc.filters = sc'.filters

/-! ## Steps beside it -/

theorem mem_aside {e : Event} (he : ¬ e.aside) (h : ∀ x ∈ es, x.aside) :
    e ∈ tr ++ es ↔ e ∈ tr := by
  rw [List.mem_append]
  exact or_iff_left fun hmem => he (h e hmem)

/-- Steps that leave scopes, page rows and bookmarks, and bring no scoped session back. -/
theorem Covered.frame (h : Covered db tr) (hscopes : db'.scopes = db.scopes)
    (hpages : db'.pages = db.pages) (hbookmarks : db'.bookmarks = db.bookmarks)
    (hdrawn : ∀ u ∈ db.drawn, u ∈ db'.drawn)
    (hback : ∀ r, Event.scoped r ∈ tr → db'.sessions.find? r.sessionId ≠ none →
      db.sessions.find? r.sessionId ≠ none)
    (hes : ∀ e ∈ es, e.aside) : Covered db' (tr ++ es) := by
  have hscoped : ∀ r, Event.scoped r ∈ tr ++ es ↔ Event.scoped r ∈ tr := fun r =>
    mem_aside (fun haside => haside) hes
  have hissued : ∀ f sc t now, Event.issued f sc t now ∈ tr ++ es ↔
      Event.issued f sc t now ∈ tr := fun f sc t now => mem_aside (fun haside => haside) hes
  have hsub : ∀ e ∈ tr, e ∈ tr ++ es := fun e he => List.mem_append_left _ he
  constructor
  case scopes => exact fun r hr => hsub _ (h.scopes r (hscopes ▸ hr))
  case lineage => exact fun r hr => (h.lineage r ((hscoped r).mp hr)).mono hsub
  case kept =>
    intro r hr hsome
    rw [hscopes]
    exact h.kept r ((hscoped r).mp hr) (hback r ((hscoped r).mp hr) hsome)
  case scopedOnce =>
    exact fun r r' hr hr' => h.scopedOnce r r' ((hscoped r).mp hr) ((hscoped r').mp hr')
  case pages =>
    intro r hr
    obtain ⟨hread, s, q, lower, L, hcap, hrest⟩ := h.pages r (hpages ▸ hr)
    rw [lastRead_aside hes]
    exact ⟨hread, s, q, lower, L, hsub _ hcap, hrest⟩
  case pagesOnce => exact hpages ▸ h.pagesOnce
  case bookmarks =>
    intro b hb
    obtain ⟨hdr, f, sc, now, hmem, hrest⟩ := h.bookmarks b (hbookmarks ▸ hb)
    exact ⟨hdrawn _ hdr, f, sc, now, hsub _ hmem, hrest⟩
  case issued =>
    intro f sc t now hmem
    obtain ⟨hdr, hcap, hsc, hrest⟩ := h.issued f sc t now ((hissued ..).mp hmem)
    rw [hbookmarks]
    obtain ⟨q, lower, L, hcap⟩ := hcap
    exact ⟨hdrawn _ hdr, ⟨q, lower, L, hsub _ hcap⟩, hsub _ hsc, hrest⟩
  case issuedOnce =>
    exact fun f sc f' sc' t now now' hmem hmem' =>
      h.issuedOnce f sc f' sc' t now now' ((hissued ..).mp hmem) ((hissued ..).mp hmem')

theorem Covered.dropSession (h : Covered db tr) (u : Uuid) : Covered (db.dropSession u) tr where
  scopes r hr := h.scopes r (mem_filter_table.mp hr).1
  lineage := h.lineage
  kept r hr hsome := by
    obtain ⟨s, hs⟩ := Option.ne_none_iff_exists'.mp hsome
    have hne := (mem_filter_table.mp (Table.mem_of_find? hs)).2
    rw [Table.find?_key hs] at hne
    refine Table.find?_filter_kept (h.kept r hr ?_) hne
    rw [Table.find?_filter_some hs]
    exact Option.some_ne_none s
  scopedOnce := h.scopedOnce
  pages r hr := h.pages r (List.mem_of_mem_filter hr)
  pagesOnce := h.pagesOnce.sublist (List.filter_sublist.map _)
  bookmarks := h.bookmarks
  issued := h.issued
  issuedOnce := h.issuedOnce

theorem Covered.expire (h : Covered db tr) (now : String) : Covered (db.expire now) tr := by
  unfold Db.expire
  split
  · exact h
  · exact h.dropSession _

theorem Covered.captured {query : Query} {identity : Identity} {policyRef : String} {o : Oracle}
    {first : Cursor} (hsnap : Snapshots db tr) (h : Covered db tr)
    (hc : Captures query identity policyRef lower db o db' s first L) :
    Covered db' (tr ++ [.captured s query lower L, .placed first]) := by
  have hfresh := uuid4_fresh db.drawn o.id
  rw [← hc.session] at hfresh
  obtain ⟨sessions, cursors, hs, -, rfl⟩ := hc.db
  refine (h.expire o.now).frame rfl rfl rfl (fun u hu => ?_) (fun r hr hsome => ?_) fun e he => ?_
  · rw [expire_drawn] at hu
    exact List.mem_cons_of_mem _ (List.mem_cons_of_mem _ hu)
  · obtain ⟨s', q', L', hcap, hid, -⟩ := (h.lineage r hr).captured
    have hne : s.sessionId ≠ r.sessionId := fun heq =>
      hfresh (heq ▸ hid ▸ (hsnap.copied s' q' _ L' hcap).drawn)
    intro hnone
    refine hsome ?_
    show sessions.find? r.sessionId = none
    rw [Table.find?_insert? hs, if_neg hne, hnone]
  · rcases List.mem_pair.mp he with rfl | rfl
    · trivial
    · trivial

/-! ## Scopes -/

theorem Covered.scope {row : Scope} {scopes : Table Scope.sessionId} (h : Covered db tr)
    (hlineage : Lineage tr row) (hsession : db.sessions.find? row.sessionId ≠ none)
    (hinsert : db.scopes.insert? row = some scopes) :
    Covered { db with scopes := scopes } (tr ++ [.scoped row]) := by
  have hscoped : ∀ r, Event.scoped r ∈ tr ++ [.scoped row] ↔ Event.scoped r ∈ tr ∨ r = row := by
    intro r
    simp
  have hissued : ∀ f sc t now, Event.issued f sc t now ∈ tr ++ [.scoped row] ↔
      Event.issued f sc t now ∈ tr := by
    intro f sc t now
    simp
  have hsub : ∀ e ∈ tr, e ∈ tr ++ [.scoped row] := fun e he => List.mem_append_left _ he
  have hnew : ∀ r, Event.scoped r ∈ tr → r.sessionId ≠ row.sessionId := by
    intro r hr heq
    have hkept := h.kept r hr (heq ▸ hsession)
    rw [heq, Table.insert?_fresh hinsert] at hkept
    cases hkept
  constructor
  case scopes =>
    intro r hr
    exact (hscoped r).mpr (((mem_insert? hinsert).mp hr).imp_left (h.scopes r))
  case lineage =>
    intro r hr
    rcases (hscoped r).mp hr with hold | rfl
    · exact (h.lineage r hold).mono hsub
    · exact hlineage.mono hsub
  case kept =>
    intro r hr hsome
    rcases (hscoped r).mp hr with hold | rfl
    · exact Table.find?_insert?_old hinsert (h.kept r hold hsome)
    · exact Table.find?_insert?_self hinsert
  case scopedOnce =>
    intro r r' hr hr' heq
    rcases (hscoped r).mp hr with hold | rfl
    · rcases (hscoped r').mp hr' with hold' | rfl
      · exact h.scopedOnce r r' hold hold' heq
      · exact absurd heq (hnew r hold)
    · rcases (hscoped r').mp hr' with hold' | rfl
      · exact absurd heq.symm (hnew r' hold')
      · rfl
  case pages =>
    intro r hr
    obtain ⟨hread, s, q, lower, L, hcap, hrest⟩ := h.pages r hr
    refine ⟨?_, s, q, lower, L, hsub _ hcap, hrest⟩
    rw [lastRead_append]
    exact hread
  case pagesOnce => exact h.pagesOnce
  case bookmarks =>
    intro b hb
    obtain ⟨hdr, f, sc, now, hmem, hrest⟩ := h.bookmarks b hb
    exact ⟨hdr, f, sc, now, hsub _ hmem, hrest⟩
  case issued =>
    intro f sc t now hmem
    obtain ⟨hdr, hcap, hsc, hrest⟩ := h.issued f sc t now ((hissued ..).mp hmem)
    obtain ⟨q, lower, L, hcap⟩ := hcap
    exact ⟨hdr, ⟨q, lower, L, hsub _ hcap⟩, hsub _ hsc, hrest⟩
  case issuedOnce =>
    exact fun f sc f' sc' t now now' hmem hmem' =>
      h.issuedOnce f sc f' sc' t now now' ((hissued ..).mp hmem) ((hissued ..).mp hmem')

/-! ## Page rows -/

theorem lastRead_recorded (redacted gap : Bool) (sid' : Uuid) (position' : Nat) :
    lastRead (tr ++ [.recorded sid position redacted gap]) sid' position' =
      if sid = sid' ∧ position = position' then some (redacted, gap)
      else lastRead tr sid' position' := by
  rw [lastRead_append]
  by_cases heq : sid = sid' ∧ position = position'
  · have hread : Event.readAt sid' position' (.recorded sid position redacted gap) =
        some (redacted, gap) := if_pos heq
    rw [if_pos heq, lastRead, List.filterMap_cons_some hread]
    rfl
  · have hread : Event.readAt sid' position' (.recorded sid position redacted gap) = none :=
      if_neg heq
    rw [if_neg heq, lastRead, List.filterMap_cons_none hread]
    rfl

/-- The rows after a record are the new one and those of the other positions. -/
theorem mem_record {rows : List PageRead} {r x : PageRead} (h : x ∈ record rows r) :
    x = r ∨ x ∈ rows ∧ ¬ (x.sessionId = r.sessionId ∧ x.position = r.position) := by
  unfold record at h
  split at h
  · obtain ⟨y, hy, rfl⟩ := List.mem_map.mp h
    split
    · exact Or.inl rfl
    · next hne => exact Or.inr ⟨hy, hne⟩
  · next hnone =>
    rcases List.mem_append.mp h with hx | hx
    · refine Or.inr ⟨hx, fun heq => hnone (List.any_eq_true.mpr ⟨x, hx, ?_⟩)⟩
      rw [heq.1, heq.2, decide_eq_true rfl, decide_eq_true rfl]
      rfl
    · exact Or.inl (List.mem_singleton.mp hx)

theorem nodup_record {rows : List PageRead} (r : PageRead)
    (h : (rows.map fun r => (r.sessionId, r.position)).Nodup) :
    ((record rows r).map fun r => (r.sessionId, r.position)).Nodup := by
  unfold record
  split
  · have hkeys : (rows.map fun x => if x.sessionId = r.sessionId ∧ x.position = r.position then r
        else x).map (fun r => (r.sessionId, r.position)) =
        rows.map fun r => (r.sessionId, r.position) := by
      rw [List.map_map]
      refine List.map_congr_left fun x _ => ?_
      simp only [Function.comp]
      split
      · next heq => rw [heq.1, heq.2]
      · rfl
    rw [hkeys]
    exact h
  · next hnone =>
    refine nodup_snoc h fun x hx heq => hnone (List.any_eq_true.mpr ⟨x, hx, ?_⟩)
    obtain ⟨hsid, hpos⟩ := Prod.mk.inj heq
    rw [hsid, hpos, decide_eq_true rfl, decide_eq_true rfl]
    rfl

theorem Covered.record (h : Covered db tr) (items : String) (redacted gap : Bool)
    (hcap : Event.captured s q lower L ∈ tr) (hgrid : OnGrid s position) :
    Covered
      { db with
        pages := Owner.record db.pages ⟨s.sessionId, position, items, !(redacted || gap)⟩ }
      (tr ++ [.recorded s.sessionId position redacted gap]) := by
  have hscoped : ∀ r, Event.scoped r ∈ tr ++ [.recorded s.sessionId position redacted gap] ↔
      Event.scoped r ∈ tr := by
    intro r
    simp
  have hissued : ∀ f sc t now, Event.issued f sc t now ∈
      tr ++ [.recorded s.sessionId position redacted gap] ↔ Event.issued f sc t now ∈ tr := by
    intro f sc t now
    simp
  have hsub : ∀ e ∈ tr, e ∈ tr ++ [.recorded s.sessionId position redacted gap] :=
    fun e he => List.mem_append_left _ he
  constructor
  case scopes => exact fun r hr => hsub _ (h.scopes r hr)
  case lineage => exact fun r hr => (h.lineage r ((hscoped r).mp hr)).mono hsub
  case kept => exact fun r hr => h.kept r ((hscoped r).mp hr)
  case scopedOnce =>
    exact fun r r' hr hr' => h.scopedOnce r r' ((hscoped r).mp hr) ((hscoped r').mp hr')
  case pages =>
    intro r hr
    rw [lastRead_recorded]
    rcases mem_record hr with rfl | ⟨hr, hne⟩
    · rw [if_pos ⟨rfl, rfl⟩]
      exact ⟨⟨redacted, gap, rfl, rfl⟩, s, q, lower, L, hsub _ hcap, rfl, hgrid⟩
    · obtain ⟨hread, s', q', lower', L', hcap', hrest⟩ := h.pages r hr
      rw [if_neg fun heq => hne ⟨heq.1.symm, heq.2.symm⟩]
      exact ⟨hread, s', q', lower', L', hsub _ hcap', hrest⟩
  case pagesOnce => exact nodup_record _ h.pagesOnce
  case bookmarks =>
    intro b hb
    obtain ⟨hdr, f, sc, now, hmem, hrest⟩ := h.bookmarks b hb
    exact ⟨hdr, f, sc, now, hsub _ hmem, hrest⟩
  case issued =>
    intro f sc t now hmem
    obtain ⟨hdr, hfrom, hsc, hrest⟩ := h.issued f sc t now ((hissued ..).mp hmem)
    obtain ⟨q', lower', L', hfrom⟩ := hfrom
    exact ⟨hdr, ⟨q', lower', L', hsub _ hfrom⟩, hsub _ hsc, hrest⟩
  case issuedOnce =>
    exact fun f sc f' sc' t now now' hmem hmem' =>
      h.issuedOnce f sc f' sc' t now now' ((hissued ..).mp hmem) ((hissued ..).mp hmem')

/-- The starts of the pages of a session. -/
def Session.starts (s : Session) : List Nat := (List.range s.pages).map (· * s.pageLimit)

theorem onGrid_mem_starts (hlimit : 1 ≤ s.pageLimit) (h : OnGrid s position) :
    position ∈ s.starts := by
  obtain ⟨k, rfl, hk⟩ := h
  refine List.mem_map.mpr ⟨k, List.mem_range.mpr ?_, rfl⟩
  unfold Session.pages
  rcases hk with rfl | hk
  · exact lt_of_lt_of_le Nat.zero_lt_one (le_max_left _ _)
  · refine lt_of_lt_of_le ?_ (le_max_right _ _)
    refine (Nat.le_div_iff_mul_le hlimit).mpr ?_
    rw [Nat.succ_mul]
    omega

/-- As many complete rows as pages: every start was last read whole. -/
theorem Covered.complete (hsnap : Snapshots db tr) (h : Covered db tr)
    (hcap : Event.captured s q lower L ∈ tr) (hcount : db.complete s.sessionId = s.pages)
    (hgrid : OnGrid s position) : lastRead tr s.sessionId position = some (false, false) := by
  have hlimit := (hsnap.copied s q lower L hcap).limit.1
  let rows := db.pages.filter fun r => r.sessionId = s.sessionId && r.complete
  have hrow : ∀ r ∈ rows, r ∈ db.pages ∧ r.sessionId = s.sessionId ∧ r.complete = true := by
    intro r hr
    obtain ⟨hmem, hboth⟩ := List.mem_filter.mp hr
    rw [Bool.and_eq_true, decide_eq_true_eq] at hboth
    exact ⟨hmem, hboth⟩
  have hnodup : (rows.map (·.position)).Nodup := by
    have hkeys : (rows.map fun r => (r.sessionId, r.position)).Nodup :=
      h.pagesOnce.sublist (List.filter_sublist.map _)
    refine (List.Nodup.of_map _ hkeys).map_on fun r hr r' hr' heq => ?_
    refine List.inj_on_of_nodup_map hkeys hr hr' ?_
    rw [(hrow r hr).2.1, (hrow r' hr').2.1, heq]
  have hsub : rows.map (·.position) ⊆ s.starts := by
    intro p hp
    obtain ⟨r, hr, rfl⟩ := List.mem_map.mp hp
    obtain ⟨hmem, hid, -⟩ := hrow r hr
    obtain ⟨-, s', q', lower', L', hcap', hid', hgrid'⟩ := h.pages r hmem
    obtain ⟨rfl, -⟩ := hsnap.once s' q' lower' L' s q lower L hcap' hcap (hid'.trans hid)
    exact onGrid_mem_starts hlimit hgrid'
  have hlength : s.starts.length = (rows.map (·.position)).length := by
    rw [Session.starts, List.length_map, List.length_map, List.length_range, ← hcount]
    exact List.countP_eq_length_filter
  have hall := (hnodup.subperm hsub).perm_of_length_le hlength.le
  obtain ⟨r, hr, hpos⟩ := List.mem_map.mp (hall.mem_iff.mpr (onGrid_mem_starts hlimit hgrid))
  obtain ⟨hmem, hid, hcomplete⟩ := hrow r hr
  obtain ⟨⟨redacted, gap, hread, hflag⟩, -⟩ := h.pages r hmem
  rw [hid, hpos] at hread
  rw [hcomplete] at hflag
  have hboth : (redacted || gap) = false := by
    rw [← Bool.not_eq_true', ← hflag]
  obtain ⟨rfl, rfl⟩ := Bool.or_eq_false_iff.mp hboth
  exact hread

/-! ## Bookmarks -/

theorem Covered.dropBookmarks (h : Covered db tr) (p : Bookmark → Bool) :
    Covered { db with bookmarks := db.bookmarks.filter p } tr where
  scopes := h.scopes
  lineage := h.lineage
  kept := h.kept
  scopedOnce := h.scopedOnce
  pages := h.pages
  pagesOnce := h.pagesOnce
  bookmarks b hb := h.bookmarks b (mem_filter_table.mp hb).1
  issued f sc t now hmem := by
    obtain ⟨hdr, hcap, hsc, hid, hrest⟩ := h.issued f sc t now hmem
    exact ⟨hdr, hcap, hsc, hid, fun b hb => hrest b (mem_filter_table.mp hb).1⟩
  issuedOnce := h.issuedOnce

/-- An issue of a bookmark to a session it fits: one that was there, or a new one. -/
theorem Covered.issue {f : Session} {sc : Scope} {b : Bookmark} {bookmarks : Table Bookmark.token}
    {drawn : List Uuid} (h : Covered db tr) (hcap : Event.captured f q lower L ∈ tr)
    (hsc : Event.scoped sc ∈ tr) (hid : sc.sessionId = f.sessionId) (hcarries : Carries f sc b)
    (hb : b ∈ bookmarks.rows)
    (hrows : ∀ x ∈ bookmarks.rows, x ∈ db.bookmarks.rows ∨ x = b ∧ b.sessionId = f.sessionId)
    (hknown : b ∈ db.bookmarks.rows ∨ b.token ∉ db.drawn)
    (hdrawn : ∀ u ∈ db.drawn, u ∈ drawn) (htoken : b.token ∈ drawn) (now : String) :
    Covered { db with bookmarks := bookmarks, drawn := drawn }
      (tr ++ [.issued f sc b.token now]) := by
  have hscoped : ∀ r, Event.scoped r ∈ tr ++ [.issued f sc b.token now] ↔
      Event.scoped r ∈ tr := by
    intro r
    simp
  have hissued : ∀ f' sc' t now', Event.issued f' sc' t now' ∈ tr ++ [.issued f sc b.token now] ↔
      Event.issued f' sc' t now' ∈ tr ∨ f' = f ∧ sc' = sc ∧ t = b.token ∧ now' = now := by
    intro f' sc' t now'
    simp
  have hsub : ∀ e ∈ tr, e ∈ tr ++ [.issued f sc b.token now] :=
    fun e he => List.mem_append_left _ he
  have hagree : ∀ f' sc' now', Event.issued f' sc' b.token now' ∈ tr →
      b.watermark = f'.watermark ∧ b.filters = sc'.filters := by
    intro f' sc' now' hmem
    rcases hknown with hthere | hfresh
    · exact (h.issued f' sc' b.token now' hmem).2.2.2.2 b hthere rfl
    · exact absurd (h.issued f' sc' b.token now' hmem).1 hfresh
  have hsame : ∀ x ∈ bookmarks.rows, x.token = b.token → x = b := fun x hx heq =>
    List.inj_on_of_nodup_map bookmarks.nodup hx hb heq
  constructor
  case scopes => exact fun r hr => hsub _ (h.scopes r hr)
  case lineage => exact fun r hr => (h.lineage r ((hscoped r).mp hr)).mono hsub
  case kept => exact fun r hr => h.kept r ((hscoped r).mp hr)
  case scopedOnce =>
    exact fun r r' hr hr' => h.scopedOnce r r' ((hscoped r).mp hr) ((hscoped r').mp hr')
  case pages =>
    intro r hr
    obtain ⟨hread, s, q, lower, L, hcap, hrest⟩ := h.pages r hr
    refine ⟨?_, s, q, lower, L, hsub _ hcap, hrest⟩
    rw [lastRead_append]
    exact hread
  case pagesOnce => exact h.pagesOnce
  case bookmarks =>
    intro x hx
    rcases hrows x hx with hold | ⟨rfl, hown⟩
    · obtain ⟨hdr, f', sc', now', hmem, hrest⟩ := h.bookmarks x hold
      exact ⟨hdrawn _ hdr, f', sc', now', hsub _ hmem, hrest⟩
    · exact ⟨htoken, f, sc, now, (hissued ..).mpr (Or.inr ⟨rfl, rfl, rfl, rfl⟩), hown, hcarries⟩
  case issued =>
    intro f' sc' t now' hmem
    rcases (hissued ..).mp hmem with hold | ⟨rfl, rfl, rfl, rfl⟩
    · obtain ⟨hdr, hfrom, hsc', hid', hrest⟩ := h.issued f' sc' t now' hold
      obtain ⟨q', lower', L', hfrom⟩ := hfrom
      refine ⟨hdrawn _ hdr, ⟨q', lower', L', hsub _ hfrom⟩, hsub _ hsc', hid', ?_⟩
      intro x hx heq
      rcases hrows x hx with hx | ⟨rfl, -⟩
      · exact hrest x hx heq
      · exact hagree f' sc' now' (heq ▸ hold)
    · refine ⟨htoken, ⟨q, lower, L, hsub _ hcap⟩, hsub _ hsc, hid, ?_⟩
      intro x hx heq
      exact (hsame x hx heq) ▸ ⟨hcarries.watermark, hcarries.filters⟩
  case issuedOnce =>
    have hnew : ∀ f' sc' now', Event.issued f' sc' b.token now' ∈ tr →
        f.watermark = f'.watermark ∧ sc.filters = sc'.filters := by
      intro f' sc' now' hmem
      obtain ⟨hwatermark, hfilters⟩ := hagree f' sc' now' hmem
      exact ⟨hcarries.watermark.symm.trans hwatermark, hcarries.filters.symm.trans hfilters⟩
    intro f₁ sc₁ f₂ sc₂ t now₁ now₂ h₁ h₂
    rcases (hissued ..).mp h₁ with hold₁ | ⟨rfl, rfl, rfl, -⟩
    · rcases (hissued ..).mp h₂ with hold₂ | ⟨rfl, rfl, rfl, -⟩
      · exact h.issuedOnce f₁ sc₁ f₂ sc₂ t now₁ now₂ hold₁ hold₂
      · obtain ⟨hwatermark, hfilters⟩ := hnew f₁ sc₁ now₁ hold₁
        exact ⟨hwatermark.symm, hfilters.symm⟩
    · rcases (hissued ..).mp h₂ with hold₂ | ⟨rfl, rfl, -, -⟩
      · exact hnew f₂ sc₂ now₂ hold₂
      · exact ⟨rfl, rfl⟩

/-! ## The block of an issue -/

/-- What an issue is worth at its commit. -/
structure Sound (db db' : Db) (tr : List Event) (f : Session) (sc : Scope) (t : Uuid)
    (now : String) : Prop where
  captured : ∃ q lower L, Event.captured f q lower L ∈ tr ∧ q.state = sc.filters ∧ q.since = none
  scope : Event.scoped sc ∈ tr ∧ sc.sessionId = f.sessionId
  session : db.sessions.find? f.sessionId = some f ∧ sc.frameDigest = some f.digest
  live : now < f.expiresAt
  read : ∀ k, k = 0 ∨ k * f.pageLimit < f.itemCount →
    lastRead tr f.sessionId (k * f.pageLimit) = some (false, false)
  bookmark : ∃ b ∈ db'.bookmarks.rows, b.token = t ∧ Carries f sc b ∧
    (b.sessionId = f.sessionId ∨ now < b.expiresAt ∧
      (sc.parentToken = none ∧ b.parentToken = none ∨ sc.parentToken = some b.token) ∧
      ∃ identity : Identity, identity.fingerprint = .ok f.fingerprint ∧
        identity.digest = .ok b.identityDigest)

/-- The requester is who the session was captured for. -/
structure Owns (identity : Identity) (policy : String) (f : Session) : Prop where
  principal : f.principal = identity.principal
  tenant : f.tenant = identity.tenant
  fingerprint : identity.fingerprint = .ok f.fingerprint
  policy : f.policyRef = policy

theorem first?_mem {α : Type} {before : α → α → Bool} {l : List α} {a : α}
    (h : first? before l = some a) : a ∈ l := by
  induction l generalizing a with
  | nil => cases h
  | cons b l ih =>
      unfold first? at h
      split at h
      · cases h
        exact List.mem_cons_self ..
      · next c hc =>
        split at h
        · cases h
          exact List.mem_cons_of_mem _ (ih hc)
        · cases h
          exact List.mem_cons_self ..

theorem expireBookmark_ok {now later : String} (h : db.expireBookmark now later = .ok db') :
    ∃ p, db' = { db with bookmarks := db.bookmarks.filter p } := by
  unfold Db.expireBookmark at h
  split at h
  · cases h
    refine ⟨fun _ => true, ?_⟩
    show db = { db with bookmarks := ⟨db.bookmarks.rows.filter fun _ => true, _⟩ }
    simp only [List.filter_true]
  · split at h
    · cases h
    · cases h
      exact ⟨_, rfl⟩

/-- The row of a session's own bookmark was made for its scope. -/
theorem Covered.own {f : Session} {sc : Scope} {b : Bookmark} (hsnap : Snapshots db tr)
    (h : Covered db tr) (hcap : Event.captured f q lower L ∈ tr) (hsc : Event.scoped sc ∈ tr)
    (hid : sc.sessionId = f.sessionId) (hb : b ∈ db.bookmarks.rows)
    (hown : b.sessionId = f.sessionId) : Carries f sc b := by
  obtain ⟨-, f', sc', now, hissued, hid', hcarries⟩ := h.bookmarks b hb
  obtain ⟨-, ⟨q', lower', L', hcap'⟩, hsc', hscid, -⟩ := h.issued f' sc' b.token now hissued
  have hsame := hid'.symm.trans hown
  obtain ⟨rfl, -⟩ := hsnap.once f' q' lower' L' f q lower L hcap' hcap hsame
  rw [h.scopedOnce sc sc' hsc hsc' (hid.trans hscid.symm)]
  exact hcarries

theorem Bookmark.equivalent_iff {f : Session} {sc : Scope} {identity : Identity}
    {identityDigest policy now : String} {b : Bookmark} (howns : Owns identity policy f) :
    b.equivalent f sc identity identityDigest policy now = true ↔
      Carries f sc b ∧ b.identityDigest = identityDigest ∧ now < b.expiresAt ∧
        (sc.parentToken = none ∧ b.parentToken = none ∨ sc.parentToken = some b.token) := by
  unfold Bookmark.equivalent
  simp only [Bool.and_eq_true, Bool.or_eq_true, decide_eq_true_eq, Option.isNone_iff_eq_none]
  rw [← howns.principal, ← howns.tenant, ← howns.policy]
  constructor
  · intro h
    obtain ⟨⟨⟨⟨⟨⟨⟨hprincipal, htenant⟩, hdigest⟩, hpolicy⟩, hfilters⟩, hwatermark⟩, hlive⟩, hparent⟩ := h
    exact ⟨⟨hprincipal, htenant, hpolicy, hfilters, hwatermark⟩, hdigest, hlive, hparent⟩
  · intro h
    obtain ⟨⟨hprincipal, htenant, hpolicy, hfilters, hwatermark⟩, hdigest, hlive, hparent⟩ := h
    exact ⟨⟨⟨⟨⟨⟨⟨hprincipal, htenant⟩, hdigest⟩, hpolicy⟩, hfilters⟩, hwatermark⟩, hlive⟩, hparent⟩

/-- What the block of an issue does, and keeps. -/
structure Issues (db db' : Db) (tr : List Event) (f : Session) (sc : Scope) (t : Uuid)
    (now : String) : Prop where
  covered : Covered db' (tr ++ [.issued f sc t now])
  sound : Sound db db' tr f sc t now
  rest : db'.incidents = db.incidents ∧ db'.sessions = db.sessions ∧ db'.items = db.items ∧
    db'.cursors = db.cursors
  drawn : ∀ u ∈ db.drawn, u ∈ db'.drawn

theorem issueTables_ok {f : Session} {sc : Scope} {identity : Identity} {policy : String}
    {o : Oracle} {t : Uuid} (hsnap : Snapshots db tr) (h : Covered db tr)
    (hcap : Event.captured f q lower L ∈ tr) (hsc : Event.scoped sc ∈ tr)
    (hid : sc.sessionId = f.sessionId) (howns : Owns identity policy f)
    (hok : issueTables f sc identity policy db o = .ok (db', es, t)) :
    es = [.issued f sc t o.now] ∧ Issues db db' tr f sc t o.now := by
  unfold issueTables at hok
  split at hok
  · cases hok
  next hcurrent =>
  split at hok
  · cases hok
  next hcount =>
  split at hok
  · cases hok
  next hlive =>
  have hsession : db.sessions.find? f.sessionId = some f ∧ sc.frameDigest = some f.digest := by
    cases hfind : db.sessions.find? f.sessionId with
    | none =>
        rw [hfind] at hcurrent
        exact absurd rfl hcurrent
    | some current =>
        obtain ⟨rfl, -⟩ := hsnap.found hcap hfind
        rw [hfind, Option.all_some, decide_eq_true_eq, not_not] at hcurrent
        exact ⟨rfl, hcurrent.symm⟩
  have hsound : ∀ {db'' : Db} {b : Bookmark}, b ∈ db''.bookmarks.rows → Carries f sc b →
      (b.sessionId = f.sessionId ∨ o.now < b.expiresAt ∧
        (sc.parentToken = none ∧ b.parentToken = none ∨ sc.parentToken = some b.token) ∧
        ∃ identity : Identity, identity.fingerprint = .ok f.fingerprint ∧
          identity.digest = .ok b.identityDigest) →
      Sound db db'' tr f sc b.token o.now := by
    intro db'' b hb hcarries hfit
    obtain ⟨s, q', L', hcap', hsid, hstate, hsince⟩ := (h.lineage sc hsc).captured
    obtain ⟨rfl, -⟩ := hsnap.once _ _ _ _ _ _ _ _ hcap' hcap (hsid.trans hid)
    exact {
      captured := ⟨q', _, L', hcap', hstate, hsince⟩
      scope := ⟨hsc, hid⟩
      session := hsession
      live := lt_of_not_ge hlive
      read := fun k hk => h.complete hsnap hcap (not_not.mp hcount) ⟨k, rfl, hk⟩
      bookmark := ⟨b, hb, rfl, hcarries, hfit⟩ }
  split at hok
  · -- a replay: the session has its bookmark
    next b hfind =>
    cases hok
    have hb := List.mem_of_find?_eq_some hfind
    have hown : b.sessionId = f.sessionId := by simpa using List.find?_some hfind
    have hcarries := h.own hsnap hcap hsc hid hb hown
    exact ⟨rfl, h.issue hcap hsc hid hcarries hb (fun x hx => Or.inl hx) (Or.inl hb)
      (fun u hu => hu) (h.bookmarks b hb).1 o.now, hsound hb hcarries (Or.inl hown),
      ⟨rfl, rfl, rfl, rfl⟩, fun u hu => hu⟩
  split at hok
  · cases hok
  next identityDigest hdigest =>
  split at hok
  · -- another session of the same scope stands at the same boundary
    next b hfirst =>
    cases hok
    obtain ⟨hb, hequivalent⟩ := List.mem_filter.mp (first?_mem hfirst)
    obtain ⟨hcarries, hdig, hfresh, hparent⟩ := (Bookmark.equivalent_iff howns).mp hequivalent
    have hfit := hsound hb hcarries
      (Or.inr ⟨hfresh, hparent, identity, howns.fingerprint, hdig ▸ hdigest⟩)
    exact ⟨rfl, h.issue hcap hsc hid hcarries hb (fun x hx => Or.inl hx) (Or.inl hb)
      (fun u hu => hu) (h.bookmarks b hb).1 o.now, hfit, ⟨rfl, rfl, rfl, rfl⟩, fun u hu => hu⟩
  split at hok
  · cases hok
  next db₁ hexpire =>
  obtain ⟨p, rfl⟩ := expireBookmark_ok hexpire
  split at hok
  · cases hok
  simp only [] at hok
  split at hok
  · cases hok
  next bookmarks hinsert =>
  cases hok
  have hmem := fun x => mem_insert? (x := x) hinsert
  have hfresh := uuid4_fresh db.drawn o.token
  have hcarries : Carries f sc
      { token := uuid4 db.drawn o.token, sessionId := f.sessionId, principal := identity.principal
        tenant := identity.tenant, identityDigest := identityDigest, policyRef := policy
        filters := sc.filters, watermark := f.watermark, parentToken := sc.parentToken
        createdAt := o.now, expiresAt := o.expiry } :=
    ⟨howns.principal.symm, howns.tenant.symm, howns.policy.symm, rfl, rfl⟩
  refine ⟨rfl, (h.dropBookmarks p).issue hcap hsc hid hcarries ((hmem _).mpr (Or.inr rfl))
    (fun x hx => ((hmem x).mp hx).imp_right fun heq => ⟨heq, rfl⟩) (Or.inr hfresh)
    (fun u hu => List.mem_cons_of_mem _ hu) (List.mem_cons_self ..) o.now, ?_,
    ⟨rfl, rfl, rfl, rfl⟩, fun u hu => List.mem_cons_of_mem _ hu⟩
  exact hsound ((hmem _).mpr (Or.inr rfl)) hcarries (Or.inl rfl)

end OufGateway.Owner
