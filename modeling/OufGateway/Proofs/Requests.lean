import Mathlib
import OufGateway.Lib.Table
import OufGateway.Lib.Program
import OufGateway.Ref.Incidents
import OufGateway.Ref.Cursor
import OufGateway.Ref.Bookmarks
import OufGateway.Proofs.Ledger
import OufGateway.Proofs.Snapshots
import OufGateway.Proofs.Coverage

/-!
# Requests between other requests

Every request of the two stores keeps `Snapshots` and `Covered`, whatever runs between
its steps, and what it shows is worth what `Worth` says: a capture copies the ledger
at its watermark, a page is a part of a copy, an issue is sound and a bookmark on a
page was issued to the page's session.

The lemmas follow the requests. A step that reads says what it found in terms of the
events, so that what it found is still true when the next step runs; only the rows
of a page can go between two steps, and then the next step fails.
-/

namespace OufGateway.Owner

open Lib Incidents

/-! ## The discipline -/

/-- A page as a part of the copy of its session. -/
structure Slice (tr : List Event) (s : Session) (L : List Incident) (position : Nat) (p : Page) :
    Prop where
  cursor : Event.placed ⟨p.cursor, s.sessionId, position⟩ ∈ tr
  snapshot : p.snapshotRef = s.sessionId
  items : p.items.Sublist ((L.drop position).take s.pageLimit)
  whole : p.redacted = false → p.items = (L.drop position).take s.pageLimit
  gap : p.historyGap = s.historyGap
  isPartial : p.isPartial = (p.redacted || p.historyGap)
  truncated : p.truncated = decide (position + s.pageLimit < s.itemCount)
  next : p.truncated = true → ∃ c, p.nextCursor = some c ∧
    Event.placed ⟨c, s.sessionId, position + s.pageLimit⟩ ∈ tr
  last : p.truncated = false → p.nextCursor = none

/-- A page of a session, read by its owner. -/
def Read (tr : List Event) (identity : Identity) (policy : String) (p : Page) : Prop :=
  ∃ s q lower L position, Event.captured s q lower L ∈ tr ∧ OnGrid s position ∧
    Owns identity policy s ∧ Slice tr s L position p

/-- A bookmark on a page was issued to the session of the page. -/
structure Marked (tr : List Event) (p : Page) (i : Issued) : Prop where
  whole : p.truncated = false ∧ p.isPartial = false
  issued : ∃ f sc now, Event.issued f sc i.publicationBookmark now ∈ tr ∧
    f.sessionId = p.snapshotRef ∧ i.parentBookmark = sc.parentToken ∧
    i.noPublicationProgress = decide (sc.parentWatermark = some f.watermark)

/-- The bytes of a page on the wire. -/
def Page.size (p : Page) : Nat := (Json.dumps { ensureAscii := false } p.json).utf8ByteSize

structure Answered (tr : List Event) (p : Page) : Prop where
  read : ∃ identity policy, Read tr identity policy p
  marked : ∀ i, p.issued = some i → Marked tr p i
  size : p.size ≤ maxBytes

/-- What a capture is worth at its commit. -/
structure Copies (db : Db) (s : Session) (q : Query) (lower : Option Nat) (L : List Incident) :
    Prop where
  ledger : Ledgered db.incidents
  items : L = selected db.incidents.transitions s.watermark q lower
  watermark : s.watermark = maxRevision db.incidents.transitions
  limit : s.pageLimit = q.limit ∧ 1 ≤ q.limit ∧ q.limit ≤ 100
  count : s.itemCount = L.length

def Worth (db : Db) (tr : List Event) (db' : Db) : Event → Prop
  | .captured s q lower L => Copies db s q lower L
  | .issued f sc t now => Sound db db' tr f sc t now
  | .answered (.ok p) => Answered tr p
  | _ => True

def discipline : Discipline Db Event where
  inv db tr := Snapshots db tr ∧ Covered db tr
  rel := Later
  worth := Worth
  refl := Later.refl
  trans := Later.trans

variable {db : Db} {tr tr' : List Event} {α : Type} {q : Db → List Event → α → Prop}
  {identity : Identity} {policy : String} {token : Uuid} {s : Session} {L : List Incident}

theorem good_block {f : Db → Oracle → Except Failure (Db × List Event × α)}
    (h : ∀ db₁ tr₁, Later db tr db₁ tr₁ → Snapshots db₁ tr₁ → Covered db₁ tr₁ →
      ∀ o db₂ es a, f db₁ o = .ok (db₂, es, a) →
        discipline.Keeps db₁ tr₁ db₂ es ∧ q db₂ (tr₁ ++ es) a) :
    (transaction f).Good discipline q db tr := by
  refine Program.good_transaction fun db₁ tr₁ hrel hinv o db₂ es a hok => ?_
  split at hok
  · cases hok
  · exact h db₁ tr₁ hrel hinv.1 hinv.2 o db₂ es a hok

theorem good_select {f : Db → Oracle → Except Failure α}
    (h : ∀ db₁ tr₁, Later db tr db₁ tr₁ → Snapshots db₁ tr₁ → Covered db₁ tr₁ →
      ∀ o a, f db₁ o = .ok a → q db₁ tr₁ a) :
    (select f).Good discipline q db tr := by
  refine Program.good_read fun db₁ tr₁ hrel hinv o a hok => ?_
  split at hok
  · cases hok
  · exact h db₁ tr₁ hrel hinv.1 hinv.2 o a hok

theorem Read.mono {p : Page} (h : Read tr identity policy p) (htr : ∀ e ∈ tr, e ∈ tr') :
    Read tr' identity policy p := by
  obtain ⟨s, q, lower, L, position, hcap, hgrid, howns, hslice⟩ := h
  refine ⟨s, q, lower, L, position, htr _ hcap, hgrid, howns, ?_⟩
  exact { hslice with
    cursor := htr _ hslice.cursor
    next := fun ht => by
      obtain ⟨c, hc, hplaced⟩ := hslice.next ht
      exact ⟨c, hc, htr _ hplaced⟩ }

/-! ## Capture -/

/-- The session a request has captured, by the token of its first page. -/
def First (tr : List Event) (query : Query) (lower : Option Nat) (token : Uuid) : Prop :=
  ∃ s L, Event.captured s query lower L ∈ tr ∧ Event.placed ⟨token, s.sessionId, 0⟩ ∈ tr

theorem good_capture (query : Query) (lower : Option Nat) :
    (capture query identity policy lower).Good discipline
      (fun _ tr token => First tr query lower token) db tr := by
  refine good_block fun db₁ tr₁ _ hsnap hcov o db₂ es token hok => ?_
  obtain ⟨s, first, L, hc, rfl, rfl⟩ := captureTables_ok hok
  refine ⟨⟨⟨hsnap.captured hc, hcov.captured hsnap hc⟩, later_captured hc, fun e he => ?_⟩, ?_⟩
  · rcases List.mem_pair.mp he with rfl | rfl
    · exact ⟨hsnap.ledger, hc.items, hc.watermark, hc.limit, hc.count⟩
    · trivial
  · have hfirst : first = ⟨first.token, s.sessionId, 0⟩ := by
      rw [← hc.cursor.1, ← hc.cursor.2]
    refine ⟨s, L, ?_, ?_⟩
    · simp
    · rw [← hfirst]
      simp

/-! ## Pages -/

/-- The frame a page works on. -/
structure Framed (tr : List Event) (identity : Identity) (policy : String) (token : Uuid)
    (frame : Session × Nat) : Prop where
  captured : ∃ q lower L, Event.captured frame.1 q lower L ∈ tr ∧ frame.1.itemCount = L.length
  placed : Event.placed ⟨token, frame.1.sessionId, frame.2⟩ ∈ tr
  grid : OnGrid frame.1 frame.2
  owns : Owns identity policy frame.1

/-- A cursor's row leads to the session it was placed for. -/
theorem frame?_some (hsnap : Snapshots db tr) {frame : Session × Nat}
    (h : db.frame? token = some frame) :
    (∃ q lower L, Event.captured frame.1 q lower L ∈ tr) ∧
      Event.placed ⟨token, frame.1.sessionId, frame.2⟩ ∈ tr ∧
      db.sessions.find? frame.1.sessionId = some frame.1 := by
  unfold Db.frame? at h
  cases hc : db.cursors.find? token with
  | none =>
      rw [hc] at h
      cases h
  | some c =>
      rw [hc] at h
      cases hs : db.sessions.find? c.sessionId with
      | none =>
          simp only [Option.bind_eq_bind, Option.bind_some, hs, Option.bind_none] at h
          cases h
      | some s =>
          simp only [Option.bind_eq_bind, Option.bind_some, hs] at h
          cases h
          obtain ⟨hplaced, -⟩ := hsnap.cursors c (Table.mem_of_find? hc)
          obtain ⟨q, lower, L, hcap, -⟩ := hsnap.sessions s (Table.mem_of_find? hs)
          have htoken := Table.find?_key hc
          have hid := Table.find?_key hs
          refine ⟨⟨q, lower, L, hcap⟩, ?_, ?_⟩
          · show Event.placed ⟨token, s.sessionId, c.position⟩ ∈ tr
            rw [hid, ← htoken]
            exact hplaced
          · show db.sessions.find? s.sessionId = some s
            rw [hid]
            exact hs

theorem good_readFrame : (readFrame token identity policy).Good discipline
    (fun _ tr frame => Framed tr identity policy token frame) db tr := by
  refine good_select fun db₁ tr₁ _ hsnap _ o frame hok => ?_
  split at hok
  · cases hok
  next found hfound =>
  split at hok
  · cases hok
  next howner =>
  split at hok
  · cases hok
  next fingerprint hfingerprint =>
  split at hok
  · cases hok
  next hsame =>
  split at hok
  · cases hok
  next hpolicy =>
  split at hok
  · cases hok
  cases hok
  obtain ⟨⟨q, lower, L, hcap⟩, hplaced, -⟩ := frame?_some hsnap hfound
  obtain ⟨-, s', q', lower', L', hcap', hid, hgrid⟩ := hsnap.placed _ hplaced
  obtain ⟨rfl, -⟩ := hsnap.once s' q' lower' L' frame.1 q lower L hcap' hcap hid
  obtain ⟨hprincipal, htenant⟩ := not_or.mp howner
  exact {
    captured := ⟨q, lower, L, hcap, (hsnap.copied _ q lower L hcap).count⟩
    placed := hplaced
    grid := hgrid
    owns := ⟨not_not.mp hprincipal, not_not.mp htenant, (not_not.mp hsame) ▸ hfingerprint,
      not_not.mp hpolicy⟩ }

/-- What a page has read of the copy `L`. -/
def RowsOf (db : Db) (frame : Session × Nat) (L : List Incident) (rows : List Incident) : Prop :=
  rows = (L.drop frame.2).take frame.1.pageLimit ∨
    rows = [] ∧ frame.1.sessionId ∈ db.drawn ∧ db.sessions.find? frame.1.sessionId = none

theorem good_readRows {frame : Session × Nat} {query : Query} {lower : Option Nat}
    (hcap : Event.captured frame.1 query lower L ∈ tr) :
    (readRows frame).Good discipline (fun db _ rows => RowsOf db frame L rows) db tr := by
  refine good_select fun db₁ tr₁ hrel hsnap _ o rows hok => ?_
  cases hok
  have hcap := hrel.mem hcap
  exact (hsnap.rows hcap frame.2 frame.1.pageLimit).imp_right fun h =>
    ⟨h.1, (hsnap.copied _ _ _ _ hcap).drawn, h.2⟩

theorem good_nextCursor {query : Query} {lower : Option Nat} {position : Nat}
    (hcap : Event.captured s query lower L ∈ tr) (hgrid : OnGrid s position) :
    (nextCursor s.sessionId position).Good discipline
      (fun db tr c => Event.placed ⟨c, s.sessionId, position⟩ ∈ tr ∧
        db.sessions.find? s.sessionId ≠ none) db tr := by
  refine good_block fun db₁ tr₁ hrel hsnap hcov o db₂ es c hok => ?_
  have hfresh := uuid4_fresh db₁.drawn o.token
  have hdrawn : ∀ u ∈ db₁.drawn, u ∈ uuid4 db₁.drawn o.token :: db₁.drawn :=
    fun u hu => List.mem_cons_of_mem _ hu
  simp only [] at hok
  split at hok
  · next row hfind =>
    -- somebody has placed the cursor before
    cases hok
    obtain ⟨hplaced, s', hs', hid⟩ := hsnap.cursors row (List.mem_of_find?_eq_some hfind)
    have hrow := List.find?_some hfind
    rw [Bool.and_eq_true, decide_eq_true_eq, decide_eq_true_eq] at hrow
    rw [List.append_nil]
    refine ⟨⟨⟨?_, ?_⟩, ⟨List.prefix_append _ _, hdrawn, .refl _, fun _ _ h => h⟩,
      fun e he => absurd he List.not_mem_nil⟩, ?_, ?_⟩
    · rw [List.append_nil]
      exact hsnap.frame rfl rfl rfl rfl hdrawn (fun _ _ _ _ => Iff.rfl) fun _ => Iff.rfl
    · exact hcov.frame rfl rfl rfl hdrawn (fun r hr h => h)
        fun e he => absurd he List.not_mem_nil
    · rw [← hrow.1, ← hrow.2]
      exact hplaced
    · rw [← hrow.1, ← hid]
      show db₁.sessions.find? s'.sessionId ≠ none
      rw [Table.find?_of_mem hs']
      exact Option.some_ne_none s'
  · split at hok
    · cases hok
    next hthere =>
    split at hok
    · cases hok
    next cursors hinsert =>
    cases hok
    have hsession : db₁.sessions.find? s.sessionId ≠ none := fun hnone =>
      hthere (Or.inl (Option.isNone_iff_eq_none.mpr hnone))
    refine ⟨⟨⟨hsnap.next (hrel.mem hcap) rfl hgrid hsession hfresh hinsert, ?_⟩,
      ⟨List.prefix_append _ _, hdrawn, .refl _, fun _ _ h => h⟩, fun e he => ?_⟩, ?_, hsession⟩
    · refine hcov.frame rfl rfl rfl hdrawn (fun r hr h => h) fun e he => ?_
      rw [List.mem_singleton.mp he]
      trivial
    · rw [List.mem_singleton.mp he]
      trivial
    · exact List.mem_append_right _ (List.mem_singleton_self _)

theorem within_ok {p p' : Page} (h : within p = .ok p') : p' = p ∧ p.size ≤ maxBytes := by
  unfold within at h
  split at h
  · cases h
  · next hsize =>
    cases h
    exact ⟨rfl, Nat.le_of_not_lt hsize⟩

/-- Where the page after this one starts, if there is one. -/
theorem onGrid_next {position : Nat} (hcount : s.itemCount = L.length)
    (hgrid : OnGrid s position) (hlt : position + ((L.drop position).take s.pageLimit).length <
      s.itemCount) :
    position + ((L.drop position).take s.pageLimit).length = position + s.pageLimit ∧
      OnGrid s (position + s.pageLimit) := by
  rw [List.length_take, List.length_drop] at hlt ⊢
  have hfull : min s.pageLimit (L.length - position) = s.pageLimit := by omega
  rw [hfull] at hlt ⊢
  obtain ⟨k, hk, -⟩ := hgrid
  refine ⟨rfl, k + 1, ?_, Or.inr hlt⟩
  rw [hk, Nat.succ_mul]

theorem onGrid_last {position : Nat} (hcount : s.itemCount = L.length)
    (hle : ¬ position + ((L.drop position).take s.pageLimit).length <
      s.itemCount) : ¬ position + s.pageLimit < s.itemCount := by
  rw [List.length_take, List.length_drop] at hle
  omega

/-- A page before anything is said of its coverage. -/
structure Fresh (tr : List Event) (identity : Identity) (policy : String) (token : Uuid)
    (p : Page) : Prop where
  read : Read tr identity policy p
  cursor : p.cursor = token
  issued : p.issued = none
  size : p.size ≤ maxBytes

theorem sublist_whole {α : Type} {l l' : List α} (h : l.Sublist l')
    (hlength : decide (l.length ≠ l'.length) = false) : l = l' :=
  h.eq_of_length (not_not.mp (of_decide_eq_false hlength))

theorem good_pageAt {authorizeItem : Incident → Request Json}
    (hitem : ∀ i db tr, (authorizeItem i).Good discipline (fun _ _ _ => True) db tr) :
    (pageAt token identity policy authorizeItem).Good discipline
      (fun _ tr p => Fresh tr identity policy token p) db tr := by
  refine Program.Good.bind good_readFrame fun db₁ tr₁ frame hrel₁ hframe => ?_
  obtain ⟨query, lower, L, hcap, hcount⟩ := hframe.captured
  refine Program.Good.bind (good_readRows hcap) fun db₂ tr₂ rows hrel₂ hrows => ?_
  refine Program.Good.bind (Program.good_filter fun i db tr => ?_)
    fun db₃ tr₃ visible hrel₃ hvisible => ?_
  · exact Program.Good.bind (hitem i db tr) fun _ _ _ _ _ => trivial
  have hrel : Later db₁ tr₁ db₃ tr₃ := hrel₂.trans hrel₃
  simp only []
  split
  · next hlt =>
    have hgrid : OnGrid frame.1 (frame.2 + rows.length) := by
      rcases hrows with rfl | ⟨rfl, -⟩
      · obtain ⟨heq, hgrid⟩ := onGrid_next hcount hframe.grid hlt
        rw [heq]
        exact hgrid
      · exact hframe.grid
    refine Program.Good.bind (good_nextCursor (hrel.mem hcap) hgrid)
      fun db₄ tr₄ c hrel₄ hc => ?_
    refine Program.good_ofExcept fun p hp => ?_
    obtain ⟨rfl, hsize⟩ := within_ok hp
    have hlater : Later db₁ tr₁ db₄ tr₄ := hrel.trans hrel₄
    -- a session that went before its rows were read leaves no place for the next cursor
    rcases hrows with rfl | ⟨-, hdrawn, hgone⟩
    · obtain ⟨heq, -⟩ := onGrid_next hcount hframe.grid hlt
      rw [heq] at hlt
      refine ⟨⟨frame.1, query, lower, L, frame.2, hlater.mem hcap, hframe.grid, hframe.owns, ?_⟩,
        rfl, rfl, hsize⟩
      exact {
        cursor := hlater.mem hframe.placed
        snapshot := rfl
        items := hvisible
        whole := sublist_whole hvisible
        gap := rfl
        isPartial := rfl
        truncated := by rw [heq]
        next := fun _ => ⟨c, rfl, heq ▸ hc.1⟩
        last := fun hno => absurd hlt (heq ▸ of_decide_eq_false hno) }
    · exact absurd ((hrel₃.trans hrel₄).gone _ hdrawn hgone) hc.2
  · next hle =>
    refine Program.good_ofExcept fun p hp => ?_
    obtain ⟨rfl, hsize⟩ := within_ok hp
    have hall : rows = (L.drop frame.2).take frame.1.pageLimit := by
      rcases hrows with hrows | ⟨rfl, -⟩
      · exact hrows
      · obtain ⟨k, hk, hzero⟩ := hframe.grid
        rw [List.length_nil, Nat.add_zero] at hle
        have hempty : L.drop frame.2 = [] := by
          refine List.drop_eq_nil_of_le ?_
          omega
        rw [hempty, List.take_nil]
    have hend : ¬ frame.2 + frame.1.pageLimit < frame.1.itemCount :=
      onGrid_last hcount (hall ▸ hle)
    refine ⟨⟨frame.1, query, lower, L, frame.2, hrel.mem hcap, hframe.grid, hframe.owns, ?_⟩,
      rfl, rfl, hsize⟩
    exact {
      cursor := hrel.mem hframe.placed
      snapshot := rfl
      items := hall ▸ hvisible
      whole := fun hno => (sublist_whole hvisible hno).trans hall
      gap := rfl
      isPartial := rfl
      truncated := (decide_eq_false hle).trans (decide_eq_false hend).symm
      next := fun hyes => absurd (of_decide_eq_true hyes) hle
      last := fun _ => rfl }

/-! ## Coverage -/

theorem good_scope {query : Query} {lower : Option Nat} {parent : Option Uuid}
    (hfirst : First tr query lower token) (hsince : query.since = none)
    (hroot : parent = none → lower = none)
    (hnext : ∀ b, parent = some b → ∃ f sc now, Event.issued f sc b now ∈ tr ∧
      lower = some f.watermark ∧ query.state = sc.filters) :
    (scope token query.state parent lower).Good discipline (fun _ _ _ => True) db tr := by
  refine Program.Good.bind (q := fun _ _ _ => True) (good_select fun _ _ _ _ _ _ _ _ => trivial)
    fun db₁ tr₁ frame hrel₁ _ => ?_
  refine good_block fun db₂ tr₂ hrel₂ hsnap hcov o db₃ es a hok => ?_
  have hrel : Later db tr db₂ tr₂ := Later.trans hrel₁ hrel₂
  split at hok
  · cases hok
    refine ⟨⟨?_, ?_, fun e he => absurd he List.not_mem_nil⟩, trivial⟩
    · rw [List.append_nil]
      exact ⟨hsnap, hcov⟩
    · rw [List.append_nil]
      exact .refl _ _
  next c hc =>
  simp only [] at hok
  split at hok
  · cases hok
  next scopes hinsert =>
  cases hok
  obtain ⟨hplaced, s', hs', hid'⟩ := hsnap.cursors c (Table.mem_of_find? hc)
  obtain ⟨s, L, hcap, hfirst⟩ := hfirst
  have hsame := hsnap.placedOnce c _ hplaced (hrel.mem hfirst) (Table.find?_key hc)
  have hlineage : Lineage tr₂ ⟨c.sessionId, query.state, parent, some frame.digest, lower⟩ := {
    captured := ⟨s, query, L, hrel.mem hcap, by rw [hsame], rfl, hsince⟩
    first := hroot
    next := fun b hb => by
      obtain ⟨f, sc, now, hissued, hrest⟩ := hnext b hb
      exact ⟨f, sc, now, hrel.mem hissued, hrest⟩ }
  have hthere : db₂.sessions.find? c.sessionId ≠ none := by
    rw [← hid', Table.find?_of_mem hs']
    exact Option.some_ne_none s'
  refine ⟨⟨⟨?_, hcov.scope hlineage hthere hinsert⟩, ⟨List.prefix_append _ _, fun _ h => h, .refl _,
    fun _ _ h => h⟩, fun e he => ?_⟩, trivial⟩
  · exact hsnap.frame rfl rfl rfl rfl (fun _ h => h) (fun _ _ _ _ => by simp) fun _ => by simp
  · rw [List.mem_singleton.mp he]
    trivial

theorem good_issue {query : Query} {lower : Option Nat} {sc : Scope}
    (hcap : Event.captured s query lower L ∈ tr) (hsc : Event.scoped sc ∈ tr)
    (hid : sc.sessionId = s.sessionId) (howns : Owns identity policy s) :
    (issue s sc identity policy).Good discipline
      (fun _ tr t => ∃ now, Event.issued s sc t now ∈ tr) db tr := by
  refine good_block fun db₁ tr₁ hrel hsnap hcov o db₂ es t hok => ?_
  obtain ⟨rfl, hissues⟩ := issueTables_ok hsnap hcov (hrel.mem hcap) (hrel.mem hsc) hid howns hok
  obtain ⟨hincidents, hsessions, hitems, hcursors⟩ := hissues.rest
  refine ⟨⟨⟨?_, hissues.covered⟩, ⟨List.prefix_append _ _, hissues.drawn, ?_, fun u _ hnone => ?_⟩,
    fun e he => ?_⟩, o.now, List.mem_append_right _ (List.mem_singleton_self _)⟩
  · exact hsnap.frame hincidents hsessions hitems hcursors hissues.drawn
      (fun _ _ _ _ => by simp) fun _ => by simp
  · rw [hincidents]
    exact .refl _
  · rw [hsessions]
    exact hnone
  · rw [List.mem_singleton.mp he]
    exact hissues.sound

/-- The join a coverage page reads is the page's session with its scope. -/
theorem covered?_some (hsnap : Snapshots db tr) (hcov : Covered db tr) {row : Session × Nat × Scope}
    (h : db.covered? token = some row) :
    (∃ q lower L, Event.captured row.1 q lower L ∈ tr) ∧
      Event.placed ⟨token, row.1.sessionId, row.2.1⟩ ∈ tr ∧
      Event.scoped row.2.2 ∈ tr ∧ row.2.2.sessionId = row.1.sessionId := by
  unfold Db.covered? at h
  cases hf : db.frame? token with
  | none =>
      rw [hf] at h
      cases h
  | some frame =>
      rw [hf] at h
      cases hs : db.scopes.find? frame.1.sessionId with
      | none =>
          simp only [Option.bind_eq_bind, Option.bind_some, hs, Option.bind_none] at h
          cases h
      | some sc =>
          simp only [Option.bind_eq_bind, Option.bind_some, hs] at h
          cases h
          obtain ⟨hcap, hplaced, -⟩ := frame?_some hsnap hf
          exact ⟨hcap, hplaced, hcov.scopes sc (Table.mem_of_find? hs), Table.find?_key hs⟩

/-- What is said of coverage leaves what was read. -/
theorem Read.label {p : Page} (h : Read tr identity policy p) (bookmarked : Bool)
    (issued : Option Issued) :
    Read tr identity policy { p with bookmarked := bookmarked, issued := issued } := by
  obtain ⟨s, q, lower, L, position, hcap, hgrid, howns, hslice⟩ := h
  exact ⟨s, q, lower, L, position, hcap, hgrid, howns, hslice.cursor, hslice.snapshot,
    hslice.items, hslice.whole, hslice.gap, hslice.isPartial, hslice.truncated, hslice.next,
    hslice.last⟩

theorem good_cover {spelled : Bool} {p : Page} (hp : Fresh tr identity policy token p) :
    (cover token spelled identity policy p).Good discipline (fun _ tr p => Answered tr p) db tr := by
  obtain ⟨hread, rfl, hnone, -⟩ := hp
  obtain ⟨s, q, lower, L, position, hcap, hgrid, howns, hslice⟩ := hread
  have hread : ∀ {tr'}, (∀ e ∈ tr, e ∈ tr') → Read tr' identity policy p := fun htr =>
    Read.mono ⟨s, q, lower, L, position, hcap, hgrid, howns, hslice⟩ htr
  refine Program.Good.bind (q := fun _ tr row => row.1 = s ∧ row.2.1 = position ∧
    Event.scoped row.2.2 ∈ tr ∧ row.2.2.sessionId = s.sessionId)
    (good_select fun db₁ tr₁ hrel hsnap hcov o row hok => ?_) fun db₁ tr₁ row hrel₁ hrow => ?_
  · split at hok
    · cases hok
    next found hfound =>
    split at hok
    · cases hok
    split at hok
    · cases hok
    cases hok
    obtain ⟨⟨q', lower', L', hcap'⟩, hplaced, hsc, hid⟩ := covered?_some hsnap hcov hfound
    have hsame := hsnap.placedOnce _ _ hplaced (hrel.mem hslice.cursor) rfl
    obtain ⟨hsid, hposition⟩ : row.1.sessionId = s.sessionId ∧ row.2.1 = position := by
      injection hsame with _ hsid hposition
      exact ⟨hsid, hposition⟩
    obtain ⟨heq, -⟩ := hsnap.once _ _ _ _ _ _ _ _ hcap' (hrel.mem hcap) hsid
    exact ⟨heq, hposition, hsc, hid.trans hsid⟩
  obtain ⟨frame, pos, sc⟩ := row
  obtain ⟨rfl, rfl, hsc, hid⟩ := hrow
  refine Program.Good.bind (q := fun _ _ _ => True)
    (good_block fun db₂ tr₂ hrel₂ hsnap hcov o db₃ es a hok => ?_) fun db₂ tr₂ _ hrel₂ _ => ?_
  · split at hok
    · cases hok
    cases hok
    have hrecord := hcov.record (digest (.arr (p.items.map fun i => .obj i.fields))) p.redacted
      p.historyGap ((Later.trans hrel₁ hrel₂).mem hcap) hgrid
    rw [← hslice.isPartial] at hrecord
    refine ⟨⟨⟨?_, hrecord⟩, ⟨List.prefix_append _ _, fun _ h => h, .refl _, fun _ _ h => h⟩,
      fun e he => ?_⟩, trivial⟩
    · exact hsnap.frame rfl rfl rfl rfl (fun _ h => h) (fun _ _ _ _ => by simp) fun _ => by simp
    · rw [List.mem_singleton.mp he]
      trivial
  have hrel : Later db tr db₂ tr₂ := Later.trans hrel₁ hrel₂
  have hplain : ∀ {db tr₃}, Later db₂ tr₂ db tr₃ → ∀ p', within { p with bookmarked := true } =
      .ok p' → Answered tr₃ p' := by
    intro db₃ tr₃ hrel₃ p' hok
    obtain ⟨rfl, hsize⟩ := within_ok hok
    refine ⟨⟨identity, policy, (hread fun _ => (Later.trans hrel hrel₃).mem).label true p.issued⟩,
      fun i hi => ?_, hsize⟩
    rw [show p.issued = some i from hi] at hnone
    cases hnone
  simp only []
  split
  · exact Program.good_ofExcept (hplain (.refl _ _))
  next hwhole =>
  rw [Bool.or_eq_true, not_or, Bool.not_eq_true, Bool.not_eq_true] at hwhole
  refine Program.Good.bind (q := fun _ _ _ => True) (good_select fun _ _ _ _ _ _ _ _ => trivial)
    fun db₃ tr₃ complete hrel₃ _ => ?_
  split
  · refine Program.Good.bind (good_issue ((Later.trans hrel hrel₃).mem hcap)
      ((Later.trans hrel₂ hrel₃).mem hsc) hid howns) fun db₄ tr₄ b hrel₄ hb => ?_
    refine Program.good_ofExcept fun p' hok => ?_
    obtain ⟨rfl, hsize⟩ := within_ok hok
    obtain ⟨now, hissued⟩ := hb
    have hlater : Later db tr db₄ tr₄ := Later.trans (Later.trans hrel hrel₃) hrel₄
    refine ⟨⟨identity, policy, (hread fun _ => hlater.mem).label true _⟩, fun i hi => ?_, hsize⟩
    cases hi
    exact ⟨hwhole, frame, sc, now, hissued, hslice.snapshot.symm, rfl, rfl⟩
  · exact Program.good_ofExcept (hplain hrel₃)

/-! ## Whole requests -/

/-- Callbacks that keep the discipline. -/
structure Tame (collection : Collection) (authorizeItem : Incident → Request Json) : Prop where
  collection : ∀ f ∈ collection, ∀ identity policy db tr,
    (f identity policy).Good discipline (fun _ _ _ => True) db tr
  item : ∀ i db tr, (authorizeItem i).Good discipline (fun _ _ _ => True) db tr

section Callbacks

variable {collection : Collection} {authorizeItem : Incident → Request Json}

theorem good_authorize (ht : Tame collection authorizeItem) : (authorize collection identity policy).Good discipline
    (fun _ _ _ => True) db tr := by
  unfold authorize
  split
  · trivial
  · split
    · trivial
    · next f =>
      refine Program.Good.bind (ht.collection f rfl identity policy db tr) fun _ _ answer _ _ => ?_
      split
      · trivial
      · trivial

theorem good_proven (ht : Tame collection authorizeItem) (i : Incident) :
    (proven authorizeItem i).Good discipline (fun _ _ _ => True) db tr := by
  refine Program.Good.bind (ht.item i db tr) fun _ _ answer _ _ => ?_
  split
  · trivial
  · trivial

theorem good_coveragePage (ht : Tame collection authorizeItem) {spelled : Bool} :
    (coveragePage collection token spelled identity policy authorizeItem).Good discipline
      (fun _ tr p => Answered tr p) db tr := by
  refine Program.Good.bind (good_authorize ht) fun db₁ tr₁ _ _ _ => ?_
  refine Program.Good.bind (good_pageAt fun i db tr => good_proven ht i) fun db₂ tr₂ p _ hp => ?_
  exact good_cover hp

theorem good_coverageText (ht : Tame collection authorizeItem) {text : String} :
    (coverageText collection text identity policy authorizeItem).Good discipline
      (fun _ tr p => Answered tr p) db tr := by
  unfold coverageText
  split
  · exact Program.Good.bind (good_authorize ht) fun _ _ _ _ _ => trivial
  · exact good_coveragePage ht

/-- What a coverage start checks of its query leaves a limit and a state. -/
theorem checkQuery_ok {query : Query} {filters : Option Lifecycle}
    (h : checkQuery query = .ok filters) : query.since = none ∧ query.state = filters := by
  unfold checkQuery at h
  split at h
  · cases h
  · next hvalid =>
    cases h
    refine ⟨?_, rfl⟩
    cases hsince : query.since with
    | none => rfl
    | some since => exact absurd (Or.inl (by rw [hsince]; rfl)) hvalid

theorem good_start (ht : Tame collection authorizeItem) {query : Query} :
    (start collection query identity policy authorizeItem).Good discipline
      (fun _ tr p => Answered tr p) db tr := by
  refine Program.Good.bind (good_authorize ht) fun db₁ tr₁ _ _ _ => ?_
  refine Program.Good.bind (q := fun _ _ filters => query.since = none ∧ query.state = filters)
    (Program.good_ofExcept fun _ => checkQuery_ok) fun db₂ tr₂ filters _ hfilters => ?_
  obtain ⟨hsince, rfl⟩ := hfilters
  refine Program.Good.bind (good_capture query none) fun db₃ tr₃ token _ hfirst => ?_
  refine Program.Good.bind (good_scope hfirst hsince (fun _ => rfl) fun b hb => by cases hb)
    fun db₄ tr₄ _ _ _ => ?_
  exact good_coveragePage ht

theorem good_readBookmark : (readBookmark token identity policy).Good discipline
    (fun _ tr b => ∃ f sc now, Event.issued f sc token now ∈ tr ∧ b.watermark = f.watermark ∧
      b.filters = sc.filters) db tr := by
  refine good_select fun db₁ tr₁ _ _ hcov o b hok => ?_
  split at hok
  · cases hok
  next row hfind =>
  split at hok
  · cases hok
  split at hok
  · cases hok
  split at hok
  · cases hok
  cases hok
  obtain ⟨-, f, sc, now, hissued, -, hcarries⟩ := hcov.bookmarks b (Table.mem_of_find? hfind)
  rw [Table.find?_key hfind] at hissued
  exact ⟨f, sc, now, hissued, hcarries.watermark, hcarries.filters⟩

theorem good_resume (ht : Tame collection authorizeItem) {text : String} {limit : Nat} :
    (resume collection text identity policy authorizeItem limit).Good discipline
      (fun _ tr p => Answered tr p) db tr := by
  refine Program.Good.bind (good_authorize ht) fun db₁ tr₁ _ _ _ => ?_
  refine Program.Good.bind (q := fun _ _ _ => True) (Program.good_ofExcept fun _ _ => trivial)
    fun db₂ tr₂ _ _ _ => ?_
  split
  · trivial
  next bookmark _ =>
  refine Program.Good.bind good_readBookmark fun db₃ tr₃ row _ hrow => ?_
  obtain ⟨f, sc, now, hissued, hwatermark, hfilters⟩ := hrow
  refine Program.Good.bind (q := fun _ _ _ => True) (good_select fun _ _ _ _ _ _ _ _ => trivial)
    fun db₄ tr₄ _ hrel₄ _ => ?_
  refine Program.Good.bind (good_capture { limit := limit, state := row.filters }
    (some row.watermark)) fun db₅ tr₅ token hrel₅ hfirst => ?_
  have hrel : Later db₃ tr₃ db₅ tr₅ := Later.trans hrel₄ hrel₅
  refine Program.Good.bind (good_scope hfirst rfl (fun h => by cases h) fun b hb => ?_)
    fun db₆ tr₆ _ _ _ => ?_
  · cases hb
    exact ⟨f, sc, now, hrel.mem hissued, by rw [hwatermark], hfilters⟩
  · exact good_coveragePage ht

end Callbacks

/-- What somebody outside says changes nothing of the tables. -/
def Event.quiet : Event → Prop
  | .decided .. => True
  | .answered _ => True
  | _ => False

theorem keeps_quiet {e : Event} (hinv : Snapshots db tr ∧ Covered db tr) (he : e.quiet)
    (hworth : Worth db tr db e) : discipline.Keeps db tr db [e] := by
  have haside : e.aside := by
    cases e <;> trivial
  have hcap : ∀ s q lower L, Event.captured s q lower L ≠ e := by
    intro s q lower L heq
    rw [← heq] at he
    exact he
  have hpl : ∀ c, Event.placed c ≠ e := by
    intro c heq
    rw [← heq] at he
    exact he
  refine ⟨⟨hinv.1.frame rfl rfl rfl rfl (fun _ h => h) (fun s q lower L => ?_) fun c => ?_,
    hinv.2.frame rfl rfl rfl (fun _ h => h) (fun _ _ h => h) fun x hx => ?_⟩,
    ⟨List.prefix_append _ _, fun _ h => h, .refl _, fun _ _ h => h⟩, fun x hx => ?_⟩
  · rw [List.mem_append, List.mem_singleton]
    exact or_iff_left (hcap s q lower L)
  · rw [List.mem_append, List.mem_singleton]
    exact or_iff_left (hpl c)
  · rw [List.mem_singleton.mp hx]
    exact haside
  · rw [List.mem_singleton.mp hx]
    exact hworth

theorem good_consult (capability : String) (resource : Json) :
    (consult capability resource).Good discipline (fun _ _ _ => True) db tr := by
  intro db₁ tr₁ hrel hinv o
  refine ⟨keeps_quiet hinv trivial trivial, ?_⟩
  simp only []
  split <;> trivial

theorem good_page (a : Ask) : a.page.Good discipline (fun _ tr p => Answered tr p) db tr := by
  have ht : Tame consultCollection consultItem := by
    refine ⟨fun f hf => ?_, fun i db tr => good_consult _ _⟩
    cases hf
    exact fun _ _ _ _ => good_consult _ _
  have hplain : ∀ {token identity policy db tr}, (pageAt token identity policy consultItem).Good
      discipline (fun _ tr p => Answered tr p) db tr := by
    intro token identity policy db tr
    refine (good_pageAt ht.item).mono fun _ tr p hp =>
      ⟨⟨identity, policy, hp.read⟩, fun i hi => ?_, hp.size⟩
    rw [hp.issued] at hi
    cases hi
  cases a with
  | snapshot query identity policy =>
      exact Program.Good.bind (good_capture query none) fun _ _ _ _ _ => hplain
  | cursor text identity policy =>
      simp only [Ask.page]
      split
      · trivial
      · exact hplain
  | start query identity policy => exact good_start ht
  | cover text identity policy => exact good_coverageText ht
  | resume text identity policy limit => exact good_resume ht

theorem good_request (a : Ask) : a.request.Good discipline (fun _ _ _ => True) db tr := by
  have hanswer : ∀ x db tr, (∀ p, x = .ok p → Answered tr p) →
      (Program.announce (.answered x) : Request Unit).Good discipline (fun _ _ _ => True) db tr := by
    intro x db tr hx
    refine Program.good_announce fun db₁ tr₁ hrel hinv => ⟨keeps_quiet hinv trivial ?_, trivial⟩
    cases x with
    | error e => trivial
    | ok p =>
        obtain ⟨⟨identity, policy, hread⟩, hmarked, hsize⟩ := hx p rfl
        refine ⟨⟨identity, policy, hread.mono fun _ => hrel.mem⟩, fun i hi => ?_, hsize⟩
        obtain ⟨hwhole, f, sc, now, hissued, hrest⟩ := hmarked i hi
        exact ⟨hwhole, f, sc, now, hrel.mem hissued, hrest⟩
  refine Program.Good.handle (Program.Good.bind (good_page a) fun db₁ tr₁ p _ hp => ?_)
    fun db₁ tr₁ e => ?_
  · refine hanswer _ _ _ fun p' hp' => ?_
    cases hp'
    exact hp
  · exact hanswer _ _ _ fun p' hp' => by cases hp'

/-! ## Runs -/

/-- The store over rows from before the ledger has no sessions yet. -/
theorem snapshots_start (v : Inventory) (now : String) :
    Snapshots (World.initial v now).shared [] where
  ledger := (ledgered_start v now).1
  copied _ _ _ _ hmem := absurd hmem List.not_mem_nil
  once _ _ _ _ _ _ _ _ hmem := absurd hmem List.not_mem_nil
  placed _ hmem := absurd hmem List.not_mem_nil
  placedOnce _ _ hmem := absurd hmem List.not_mem_nil
  sessions _ hmem := absurd hmem List.not_mem_nil
  cursors _ hmem := absurd hmem List.not_mem_nil
  kept _ hmem := absurd hmem List.not_mem_nil
  items _ hmem := absurd hmem List.not_mem_nil

theorem covered_start (v : Inventory) (now : String) :
    Covered (World.initial v now).shared [] where
  scopes _ hmem := absurd hmem List.not_mem_nil
  lineage _ hmem := absurd hmem List.not_mem_nil
  kept _ hmem := absurd hmem List.not_mem_nil
  scopedOnce _ _ hmem := absurd hmem List.not_mem_nil
  pages _ hmem := absurd hmem List.not_mem_nil
  pagesOnce := List.nodup_nil
  bookmarks _ hmem := absurd hmem List.not_mem_nil
  issued _ _ _ _ hmem := absurd hmem List.not_mem_nil
  issuedOnce _ _ _ _ _ _ _ hmem := absurd hmem List.not_mem_nil

theorem write_keeps (db : Db) (tr : List Event) (w : Write)
    (h : discipline.inv db tr) : discipline.inv (db.write w) tr ∧
      discipline.rel db tr (db.write w) tr := by
  have hcov : Covered (db.write w) (tr ++ []) :=
    h.2.frame rfl rfl rfl (fun _ h => h) (fun _ _ h => h) fun _ he => absurd he List.not_mem_nil
  rw [List.append_nil] at hcov
  exact ⟨⟨h.1.write w, hcov⟩, later_write h.1.ledger w⟩

/-- The run lemma: the tables say what the events say, after any moves. -/
theorem disciplined_run (v : Inventory) (now : String) (ms : List (Move Ask Oracle Write)) :
    Pool.Disciplined discipline (system.run (World.initial v now) ms)
      (system.trace (World.initial v now) ms) :=
  Pool.disciplined (d := discipline) ⟨snapshots_start v now, covered_start v now⟩
    (fun a _ _ _ => good_request a) write_keeps ms

/-- And what the next move shows is worth what it has to be. -/
theorem worth_next (v : Inventory) (now : String) (ms : List (Move Ask Oracle Write))
    (m : Move Ask Oracle Write) {e : Event}
    (he : e ∈ system.emit (system.run (World.initial v now) ms) m) :
    Worth (system.run (World.initial v now) ms).shared (system.trace (World.initial v now) ms)
      (system.step (system.run (World.initial v now) ms) m).shared e :=
  (Pool.disciplined_next (fun a _ _ _ => good_request a) write_keeps
    (disciplined_run v now ms) m).2.2 e he

/-- What one part of a run may have made of the tables the part before it left. -/
theorem later_run (v : Inventory) (now : String) (pre post : List (Move Ask Oracle Write)) :
    Later (system.run (World.initial v now) pre).shared (system.trace (World.initial v now) pre)
      (system.run (World.initial v now) (pre ++ post)).shared
      (system.trace (World.initial v now) (pre ++ post)) := by
  induction post using List.reverseRecOn with
  | nil =>
      rw [List.append_nil]
      exact .refl _ _
  | append_singleton post m ih =>
      have hstep := (Pool.disciplined_next (fun a _ _ _ => good_request a) write_keeps
        (disciplined_run v now (pre ++ post)) m).2.1
      rw [← List.append_assoc, system.run_snoc, system.trace_snoc]
      exact ih.trans hstep

/-- Coverage is sound: a bookmark is issued to a session only when every start of its
pages was last read whole, and a page carries only what was issued to its session. -/
theorem coverage_sound (v : Inventory) (now : String) (ms : List (Move Ask Oracle Write)) :
    (∀ f sc t issuedAt, Event.issued f sc t issuedAt ∈ system.trace (World.initial v now) ms →
      ∃ pre m post, ms = pre ++ m :: post ∧
        Sound (system.run (World.initial v now) pre).shared
          (system.run (World.initial v now) (pre ++ [m])).shared
          (system.trace (World.initial v now) pre) f sc t issuedAt) ∧
      ∀ p i, Event.answered (.ok p) ∈ system.trace (World.initial v now) ms → p.issued = some i →
        ∃ f sc issuedAt, Event.issued f sc i.publicationBookmark issuedAt ∈
            system.trace (World.initial v now) ms ∧
          f.sessionId = p.snapshotRef := by
  refine ⟨fun f sc t issuedAt hissued => ?_, fun p i hanswered hi => ?_⟩
  · obtain ⟨pre, m, post, rfl, hm⟩ := system.mem_trace hissued
    refine ⟨pre, m, post, rfl, ?_⟩
    rw [system.run_snoc]
    exact worth_next v now pre m hm
  · obtain ⟨pre, m, post, rfl, hm⟩ := system.mem_trace hanswered
    have hworth : Answered _ p := worth_next v now pre m hm
    obtain ⟨-, f, sc, issuedAt, hissued, hid, -⟩ := hworth.marked i hi
    refine ⟨f, sc, issuedAt, ?_, hid⟩
    rw [system.trace_append]
    exact List.mem_append_left _ hissued

end OufGateway.Owner
