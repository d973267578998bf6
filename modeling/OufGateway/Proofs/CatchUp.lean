import Mathlib
import OufGateway.Lib.Paging
import OufGateway.Lib.Program
import OufGateway.Ref.Incidents
import OufGateway.Ref.Cursor
import OufGateway.Ref.Bookmarks
import OufGateway.Proofs.Ledger
import OufGateway.Proofs.Snapshots
import OufGateway.Proofs.Coverage
import OufGateway.Proofs.Requests
import OufGateway.Proofs.Listing
import OufGateway.Proofs.PageChain

/-!
# Catching up

A reader takes a complete coverage start and from then on only what was published
since the last bookmark. `catchUp` is what it holds: the items of the start, overridden
by those of each resume. The links of such a chain are page chains read to the end, and
the session of each one continues the bookmark the one before it was given.

The induction is along the chain, and what it carries is that the reader holds the
latest bodies up to the watermark of its last session. A resume copies what is latest
up to its own watermark and above the bookmark's. An incident that changed in between
is in the copy, and no other is, so overriding moves the boundary and nothing else.
-/

namespace OufGateway.Owner

open Lib Incidents

variable {v : Inventory} {now : String} {ms : List (Move Ask Oracle Write)} {tr : List Event}
  {db : Db} {ts : List Transition} {w w' : Nat} {i : Incident} {q : Query}

/-! ## Overriding -/

def override (base new : List Incident) : List Incident :=
  base.filter (fun i => new.all fun j => decide (j.incidentId ≠ i.incidentId)) ++ new

theorem mem_override {base new : List Incident} : i ∈ override base new ↔
    i ∈ new ∨ i ∈ base ∧ ∀ j ∈ new, j.incidentId ≠ i.incidentId := by
  unfold override
  rw [List.mem_append, List.mem_filter, List.all_eq_true, or_comm]
  simp only [decide_eq_true_eq]

/-- Every incident with a transition has a latest one. -/
theorem exists_latest {x : Transition} (hx : x ∈ ts) (hw : x.revision ≤ w) :
    ∃ y ∈ latest ts w, y.incidentId = x.incidentId ∧ x.revision ≤ y.revision := by
  have hmem : ∀ u, u ∈ (ts.filter fun u => decide (u.incidentId = x.incidentId ∧
      u.revision ≤ w)).toFinset ↔ u ∈ ts ∧ u.incidentId = x.incidentId ∧ u.revision ≤ w := by
    intro u
    rw [List.mem_toFinset, List.mem_filter, decide_eq_true_eq]
  obtain ⟨y, hy, hmax⟩ := Finset.exists_max_image _ (fun u : Transition => u.revision)
    ⟨x, (hmem x).mpr ⟨hx, rfl, hw⟩⟩
  obtain ⟨hyts, hid, hyw⟩ := (hmem y).mp hy
  refine ⟨y, mem_latest.mpr ⟨hyts, hyw, fun u hu huid huw => ?_⟩, hid, ?_⟩
  · exact hmax u ((hmem u).mpr ⟨hu, huid.trans hid, huw⟩)
  · exact hmax x ((hmem x).mpr ⟨hx, rfl, hw⟩)

/-- The bodies up to the later watermark are those up to the earlier one, overridden by
what came between. -/
theorem override_latest {t : Incidents.Tables} (hl : Ledgered t) (hle : w ≤ w')
    {base : List Incident} (hbase : ∀ i, i ∈ base ↔ ∃ x ∈ latest t.transitions w, x.body = i)
    (hq : ∀ i, q.admits i = true) :
    i ∈ override base (selected t.transitions w' q (some w)) ↔
      ∃ x ∈ latest t.transitions w', x.body = i := by
  have hid : ∀ x ∈ t.transitions, x.body.incidentId = x.incidentId := fun x hx => (hl.owned x hx).1
  have hnew : ∀ j, j ∈ selected t.transitions w' q (some w) ↔
      ∃ y ∈ latest t.transitions w', y.body = j ∧ w < y.revision := by
    intro j
    rw [mem_selected]
    refine exists_congr fun y => and_congr_right fun _ => and_congr_right fun _ => ?_
    exact ⟨fun h => h.2 w rfl, fun h => ⟨hq j, fun l hl => Option.some.inj hl ▸ h⟩⟩
  rw [mem_override, hnew, hbase]
  constructor
  · rintro (⟨y, hy, hbody, -⟩ | ⟨⟨x, hx, rfl⟩, hother⟩)
    · exact ⟨y, hy, hbody⟩
    · -- nothing of this incident came between the watermarks
      obtain ⟨hxts, hxw, hxmax⟩ := mem_latest.mp hx
      refine ⟨x, mem_latest.mpr ⟨hxts, hxw.trans hle, fun u hu huid huw => ?_⟩, rfl⟩
      by_contra hlt
      obtain ⟨y, hy, hyid, hyrev⟩ := exists_latest hu huw
      have hyts := (mem_latest.mp hy).1
      have hbetween : w < y.revision := by
        by_contra hyw
        have := hxmax u hu huid (by omega)
        omega
      refine hother y.body ((hnew _).mpr ⟨y, hy, rfl, hbetween⟩) ?_
      rw [hid y hyts, hid x hxts, hyid, huid]
  · rintro ⟨x, hx, rfl⟩
    obtain ⟨hxts, hxw, hxmax⟩ := mem_latest.mp hx
    by_cases hbetween : w < x.revision
    · exact Or.inl ⟨x, hx, rfl, hbetween⟩
    · refine Or.inr ⟨⟨x, mem_latest.mpr ⟨hxts, Nat.le_of_not_lt hbetween,
        fun u hu huid huw => hxmax u hu huid (huw.trans hle)⟩, rfl⟩, fun j hj heq => ?_⟩
      obtain ⟨y, hy, rfl, hyw⟩ := (hnew j).mp hj
      obtain ⟨hyts, hyw', -⟩ := mem_latest.mp hy
      have := hxmax y hyts (by rw [← hid y hyts, heq, hid x hxts]) hyw'
      omega

/-! ## Chains of resumes -/

/-- A page chain read to the end, and the bookmark its last page brought. -/
structure Complete (tr : List Event) (pages : List Page) (b : Uuid) : Prop where
  chain : PageChain tr pages
  bookmark : ∃ p i, pages.getLast? = some p ∧ p.issued = some i ∧ i.publicationBookmark = b

/-- The session of these pages was scoped to continue `parent`. -/
def Continues (tr : List Event) (pages : List Page) (parent : Option Uuid) (sc : Scope) : Prop :=
  Event.scoped sc ∈ tr ∧ sc.parentToken = parent ∧ ∀ p ∈ pages, p.snapshotRef = sc.sessionId

/-- A complete unfiltered start and complete resumes, each from the bookmark before it. -/
inductive Resumes (tr : List Event) : List (List Page) → Uuid → Prop
  | start {pages : List Page} {b : Uuid} {sc : Scope} (hc : Complete tr pages b)
      (hs : Continues tr pages none sc) (hf : sc.filters = none) : Resumes tr [pages] b
  | resume {links : List (List Page)} {pages : List Page} {b b' : Uuid} {sc : Scope}
      (h : Resumes tr links b) (hc : Complete tr pages b') (hs : Continues tr pages (some b) sc) :
      Resumes tr (links ++ [pages]) b'

def itemsOf (pages : List Page) : List Incident := pages.flatMap (·.items)

/-- What the reader of the links holds. -/
def catchUp (links : List (List Page)) : List Incident :=
  links.foldl (fun held pages => override held (itemsOf pages)) []

/-- What one complete link says. -/
structure Linked (db : Db) (tr : List Event) (pages : List Page) (b : Uuid) (sc : Scope)
    (s : Session) (q : Query) (L : List Incident) : Prop where
  captured : Event.captured s q sc.parentWatermark L ∈ tr
  items : itemsOf pages = L
  query : q.state = sc.filters ∧ q.since = none
  refs : ∀ p ∈ pages, p.snapshotRef = s.sessionId
  issued : ∃ now, Event.issued s sc b now ∈ tr

theorem linked {pages : List Page} {b : Uuid} {parent : Option Uuid} {sc : Scope}
    (hc : Complete (system.trace (World.initial v now) ms) pages b)
    (hs : Continues (system.trace (World.initial v now) ms) pages parent sc) :
    ∃ s q L, Linked (system.run (World.initial v now) ms).shared
      (system.trace (World.initial v now) ms) pages b sc s q L := by
  obtain ⟨hsnap, hcov⟩ := (disciplined_run v now ms).inv
  obtain ⟨hscoped, -, hrefs⟩ := hs
  obtain ⟨s, q, lower, L, hcap, hsrefs, hpages⟩ := chain_reads hc.chain
  obtain ⟨p, i, hlast, hissued, rfl⟩ := hc.bookmark
  have hp := List.mem_of_getLast? hlast
  have hsid : s.sessionId = sc.sessionId := (hsrefs p hp).symm.trans (hrefs p hp)
  obtain ⟨s', q', L', hcap', hsid', hstate, hsince⟩ := (hcov.lineage sc hscoped).captured
  obtain ⟨rfl, rfl, rfl, rfl⟩ :=
    hsnap.once _ _ _ _ _ _ _ _ hcap hcap' (hsid.trans hsid'.symm)
  obtain ⟨-, f, sc', issuedAt, hmem, hfid, -⟩ :=
    (answered_run (hc.chain.answered p hp)).marked i hissued
  obtain ⟨-, ⟨qf, lf, Lf, hcapf⟩, hscf, hscid, -⟩ := hcov.issued f sc' _ issuedAt hmem
  obtain ⟨rfl, -⟩ := hsnap.once _ _ _ _ _ _ _ _ hcapf hcap (hfid.trans (hsrefs p hp))
  obtain rfl := hcov.scopedOnce sc' sc hscf hscoped (hscid.trans hsid)
  refine ⟨f, q, L, hcap, ?_, ⟨hstate, hsince⟩, hsrefs, issuedAt, hmem⟩
  rw [itemsOf, List.flatMap_def]
  exact hpages.flatten

/-- The reader of the links stands at the watermark of the last session. -/
structure Holds (v : Inventory) (now : String) (ms : List (Move Ask Oracle Write))
    (links : List (List Page)) (b : Uuid) (s : Session) (sc : Scope) : Prop where
  issued : ∃ issuedAt, Event.issued s sc b issuedAt ∈ system.trace (World.initial v now) ms
  unfiltered : sc.filters = none
  last : ∃ pages, links.getLast? = some pages ∧ ∀ p ∈ pages, p.snapshotRef = s.sessionId
  held : ∀ i, i ∈ catchUp links ↔ ∃ x ∈ latest
    (system.run (World.initial v now) ms).shared.incidents.transitions s.watermark, x.body = i
  once : ∀ pages ∈ links, ((itemsOf pages).map (·.incidentId)).Nodup

theorem admits_unfiltered (hstate : q.state = none) (hsince : q.since = none) (i : Incident) :
    q.admits i = true := by
  unfold Query.admits
  rw [hstate, hsince]
  rfl

/-- The step lemma: one resume moves the boundary to its own watermark. -/
theorem holds_resume {links : List (List Page)} {pages : List Page} {b b' : Uuid} {sc sc' : Scope}
    {s : Session} (h : Holds v now ms links b s sc)
    (hc : Complete (system.trace (World.initial v now) ms) pages b')
    (hs : Continues (system.trace (World.initial v now) ms) pages (some b) sc') :
    ∃ s', Holds v now ms (links ++ [pages]) b' s' sc' := by
  obtain ⟨hsnap, hcov⟩ := (disciplined_run v now ms).inv
  obtain ⟨s', q, L, hlinked⟩ := linked hc hs
  have hcopied := hsnap.copied _ _ _ _ hlinked.captured
  obtain ⟨issuedAt, hissued⟩ := h.issued
  obtain ⟨f, scf, issuedAt', hmem, hwatermark, hfilters⟩ := (hcov.lineage sc' hs.1).next b hs.2.1
  obtain ⟨hagree, hsame⟩ := hcov.issuedOnce _ _ _ _ _ _ _ hmem hissued
  have hparent : sc'.parentWatermark = some s.watermark := by rw [hwatermark, hagree]
  have hnone : sc'.filters = none := by rw [hfilters, hsame, h.unfiltered]
  have hitems := hcopied.items
  have hle := hcopied.lower s.watermark hparent
  rw [hparent] at hitems
  refine ⟨s', hlinked.issued, hnone, ⟨pages, List.getLast?_concat, hlinked.refs⟩, fun i => ?_,
    fun x hx => ?_⟩
  · rw [catchUp, List.foldl_append, List.foldl_cons, List.foldl_nil, hlinked.items, hitems]
    refine override_latest hsnap.ledger hle h.held (admits_unfiltered ?_ hlinked.query.2)
    rw [hlinked.query.1, hnone]
  · rcases List.mem_append.mp hx with hx | hx
    · exact h.once x hx
    · rw [List.mem_singleton.mp hx, hlinked.items, hcopied.items]
      exact nodup_selected hsnap.ledger _ _ _

theorem holds_start {pages : List Page} {b : Uuid} {sc : Scope}
    (hc : Complete (system.trace (World.initial v now) ms) pages b)
    (hs : Continues (system.trace (World.initial v now) ms) pages none sc)
    (hf : sc.filters = none) : ∃ s, Holds v now ms [pages] b s sc := by
  obtain ⟨hsnap, hcov⟩ := (disciplined_run v now ms).inv
  obtain ⟨s, q, L, hlinked⟩ := linked hc hs
  have hcopied := hsnap.copied _ _ _ _ hlinked.captured
  have hitems := hcopied.items
  rw [(hcov.lineage sc hs.1).first hs.2.1] at hitems
  refine ⟨s, hlinked.issued, hf, ⟨pages, rfl, hlinked.refs⟩, fun i => ?_, fun x hx => ?_⟩
  · have hadmits := admits_unfiltered (hlinked.query.1.trans hf) hlinked.query.2 i
    rw [catchUp, List.foldl_cons, List.foldl_nil, mem_override, hlinked.items, hitems, mem_selected]
    constructor
    · intro h
      rcases h with h | h
      · obtain ⟨x, hx, hbody, -⟩ := h
        exact ⟨x, hx, hbody⟩
      · cases h.1
    · intro h
      obtain ⟨x, hx, hbody⟩ := h
      exact Or.inl ⟨x, hx, hbody, hadmits, fun l hl => by cases hl⟩
  · rw [List.mem_singleton.mp hx, hlinked.items, hcopied.items]
    exact nodup_selected hsnap.ledger _ _ _

/-- The run lemma along the chain. -/
theorem holds {links : List (List Page)} {b : Uuid}
    (h : Resumes (system.trace (World.initial v now) ms) links b) :
    ∃ s sc, Holds v now ms links b s sc := by
  induction h with
  | @start pages b sc hc hs hf =>
      obtain ⟨s, hholds⟩ := holds_start hc hs hf
      exact ⟨s, sc, hholds⟩
  | @resume links pages b b' sc h hc hs ih =>
      obtain ⟨s, sc', hholds⟩ := ih
      obtain ⟨s', hholds'⟩ := holds_resume hholds hc hs
      exact ⟨s', sc, hholds'⟩

/-- The latest bodies up to a watermark were the rows when it was taken. -/
theorem latest_at_capture {pre post : List (Move Ask Oracle Write)} {m : Move Ask Oracle Write}
    {s : Session} {lower : Option Nat} {L : List Incident} (hms : ms = pre ++ m :: post)
    (hm : Event.captured s q lower L ∈ system.emit (system.run (World.initial v now) pre) m) :
    (∃ x ∈ latest (system.run (World.initial v now) ms).shared.incidents.transitions s.watermark,
      x.body = i) ↔ i ∈ (system.run (World.initial v now) pre).shared.incidents.incidents := by
  have hcopies : Copies _ s q lower L := worth_next v now pre m hm
  have hgrown := (later_run v now pre (m :: post)).grown
  rw [← hms] at hgrown
  rw [latest_grown hgrown hcopies.watermark.le, hcopies.watermark,
    ← (latest_bodies hcopies.ledger).mem_iff, List.mem_map]

/-- Catch-up reconstructs the current state: a complete unfiltered start, overridden by
any number of complete resumes, is the latest body of every incident up to the
watermark of the last session, that is the rows of the table when this session was
captured; and no link lists an incident twice. -/
theorem catch_up_is_current (v : Inventory) (now : String) (ms : List (Move Ask Oracle Write)) :
    (∀ links b, Resumes (system.trace (World.initial v now) ms) links b →
      ∃ pre m post s q lower L, ms = pre ++ m :: post ∧
        Event.captured s q lower L ∈ system.emit (system.run (World.initial v now) pre) m ∧
        (∃ pages, links.getLast? = some pages ∧ ∀ p ∈ pages, p.snapshotRef = s.sessionId) ∧
        (∀ i, i ∈ catchUp links ↔ ∃ x ∈ latest
          (system.run (World.initial v now) ms).shared.incidents.transitions s.watermark,
            x.body = i) ∧
        ∀ i, i ∈ catchUp links ↔
          i ∈ (system.run (World.initial v now) pre).shared.incidents.incidents) ∧
      ∀ links b, Resumes (system.trace (World.initial v now) ms) links b →
        ∀ pages ∈ links, ((itemsOf pages).map (·.incidentId)).Nodup := by
  refine ⟨fun links b h => ?_, fun links b h => ?_⟩
  · obtain ⟨s, sc, hholds⟩ := holds h
    obtain ⟨issuedAt, hissued⟩ := hholds.issued
    obtain ⟨-, ⟨q, lower, L, hcap⟩, -⟩ := (disciplined_run v now ms).inv.2.issued _ _ _ _ hissued
    obtain ⟨pre, m, post, hms, hm⟩ := system.mem_trace hcap
    exact ⟨pre, m, post, s, q, lower, L, hms, hm, hholds.last, hholds.held, fun i =>
      (hholds.held i).trans (latest_at_capture hms hm)⟩
  · obtain ⟨s, sc, hholds⟩ := holds h
    exact hholds.once

end OufGateway.Owner
