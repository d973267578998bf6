import Mathlib
import OufGateway.Lib.Json
import OufGateway.Lib.JsonSize
import OufGateway.Lib.Table
import OufGateway.Lib.Paging
import OufGateway.Lib.Program
import OufGateway.Ref.Incidents
import OufGateway.Ref.History
import OufGateway.Ref.Cursor
import OufGateway.Ref.Bookmarks
import OufGateway.Proofs.Ledger
import OufGateway.Proofs.Snapshots
import OufGateway.Proofs.Coverage
import OufGateway.Proofs.Requests
import OufGateway.Proofs.Listing

/-!
# Following a page chain

A reader starts at the first cursor of a session and follows `nextCursor` until
`truncated` is false. Every answered page is a part of the session's copy, at the
position its cursor stands for, so the pages a reader gets are the pages of that copy
in the sense of `Lib.Pages`, whatever else the store did between them. The copy is
what `list_incidents` would have said when the capture committed.

The other half is that a page is answered at all. A reader whose session is there and
live, whose steps find the lock free and whose rows are all authorized gets the page,
unless its text is larger than the store lets out.
-/

namespace OufGateway.Owner

open Lib Incidents

variable {v : Inventory} {now : String} {ms : List (Move Ask Oracle Write)} {tr : List Event}
  {db : Db} {s : Session} {q : Query} {lower : Option Nat} {L : List Incident} {position : Nat}

/-- Pages a reader got one after the other, all of them whole. -/
structure PageChain (tr : List Event) (pages : List Page) : Prop where
  answered : ∀ p ∈ pages, Event.answered (.ok p) ∈ tr
  whole : ∀ p ∈ pages, p.redacted = false
  first : ∃ p, pages.head? = some p ∧ Event.placed ⟨p.cursor, p.snapshotRef, 0⟩ ∈ tr
  linked : pages.IsChain fun p p' => p.nextCursor = some p'.cursor
  last : ∃ p, pages.getLast? = some p ∧ p.truncated = false

theorem answered_run {p : Page} (h : Event.answered (.ok p) ∈ system.trace (World.initial v now) ms) :
    Answered (system.trace (World.initial v now) ms) p := by
  obtain ⟨pre, m, post, rfl, hm⟩ := system.mem_trace h
  obtain ⟨⟨identity, policy, hread⟩, hmarked, hsize⟩ := worth_next v now pre m hm
  have hsub : ∀ e ∈ system.trace (World.initial v now) pre,
      e ∈ system.trace (World.initial v now) (pre ++ m :: post) := by
    intro e he
    rw [system.trace_append]
    exact List.mem_append_left _ he
  refine ⟨⟨identity, policy, hread.mono hsub⟩, fun i hi => ?_, hsize⟩
  obtain ⟨hwhole, f, sc, issuedAt, hissued, hrest⟩ := hmarked i hi
  exact ⟨hwhole, f, sc, issuedAt, hsub _ hissued, hrest⟩

/-- Two answered pages with one cursor are parts of one copy, at one position. -/
theorem slice_unique (hsnap : Snapshots db tr) {p : Page} {c : Cursor}
    (hcap : Event.captured s q lower L ∈ tr) (hplaced : Event.placed c ∈ tr)
    (hid : c.sessionId = s.sessionId) (hcursor : p.cursor = c.token) (hread : Answered tr p) :
    Slice tr s L c.position p := by
  obtain ⟨⟨identity, policy, s', q', lower', L', position, hcap', -, -, hslice⟩, -⟩ := hread
  have hsame := hsnap.placedOnce _ _ hslice.cursor hplaced hcursor
  obtain ⟨hsid, hposition⟩ : s'.sessionId = c.sessionId ∧ position = c.position := by
    rw [← hsame]
    exact ⟨rfl, rfl⟩
  obtain ⟨rfl, -, -, rfl⟩ := hsnap.once _ _ _ _ _ _ _ _ hcap' hcap (hsid.trans hid)
  exact hposition ▸ hslice

/-- The induction along the chain. -/
theorem chain_pages (hsnap : Snapshots db tr) (hcap : Event.captured s q lower L ∈ tr)
    (hcount : s.itemCount = L.length) : ∀ (pages : List Page) (c : Cursor) (p : Page),
      Event.placed c ∈ tr → c.sessionId = s.sessionId → p.cursor = c.token →
      (∀ x ∈ p :: pages, Answered tr x) → (∀ x ∈ p :: pages, x.redacted = false) →
      (p :: pages).IsChain (fun p p' => p.nextCursor = some p'.cursor) →
      (∃ x, (p :: pages).getLast? = some x ∧ x.truncated = false) →
      Pages L s.pageLimit c.position ((p :: pages).map (·.items)) ∧
        ∀ x ∈ p :: pages, x.snapshotRef = s.sessionId := by
  intro pages
  induction pages with
  | nil =>
      intro c p hplaced hid hcursor hread hwhole _ hlast
      have hslice := slice_unique hsnap hcap hplaced hid hcursor (hread p (List.mem_cons_self ..))
      obtain ⟨x, hx, htruncated⟩ := hlast
      rw [List.getLast?_singleton, Option.some.injEq] at hx
      subst hx
      have hend : ¬ c.position + s.pageLimit < L.length := by
        rw [hslice.truncated, decide_eq_false_iff_not, hcount] at htruncated
        exact htruncated
      refine ⟨?_, fun x hx => ?_⟩
      · rw [List.map_singleton, hslice.whole (hwhole p (List.mem_cons_self ..))]
        exact .last hend
      · rw [List.mem_singleton.mp hx]
        exact hslice.snapshot
  | cons p' pages ih =>
      intro c p hplaced hid hcursor hread hwhole hlinked hlast
      have hslice := slice_unique hsnap hcap hplaced hid hcursor (hread p (List.mem_cons_self ..))
      obtain ⟨hnext, hlinked⟩ := List.isChain_cons_cons.mp hlinked
      have htruncated : p.truncated = true := by
        cases ht : p.truncated with
        | true => rfl
        | false =>
            rw [hslice.last ht] at hnext
            cases hnext
      obtain ⟨c', hc', hplaced'⟩ := hslice.next htruncated
      have htoken : p'.cursor = c' := Option.some.inj (hnext.symm.trans hc')
      obtain ⟨hpages, hrefs⟩ := ih ⟨c', s.sessionId, c.position + s.pageLimit⟩ p' hplaced' rfl htoken
        (fun x hx => hread x (List.mem_cons_of_mem _ hx))
        (fun x hx => hwhole x (List.mem_cons_of_mem _ hx)) hlinked (by simpa using hlast)
      have hmore : c.position + s.pageLimit < L.length := by
        rw [hslice.truncated, decide_eq_true_eq, hcount] at htruncated
        exact htruncated
      refine ⟨?_, fun x hx => ?_⟩
      · rw [List.map_cons, hslice.whole (hwhole p (List.mem_cons_self ..))]
        exact .next hmore hpages
      · rcases List.mem_cons.mp hx with rfl | hx
        · exact hslice.snapshot
        · exact hrefs x hx

/-- A chain reads the copy of its session from end to end. -/
theorem chain_reads {pages : List Page}
    (h : PageChain (system.trace (World.initial v now) ms) pages) :
    ∃ s q lower L, Event.captured s q lower L ∈ system.trace (World.initial v now) ms ∧
      (∀ p ∈ pages, p.snapshotRef = s.sessionId) ∧
      Pages L s.pageLimit 0 (pages.map (·.items)) := by
  have hsnap := (disciplined_run v now ms).inv.1
  obtain ⟨first, hhead, hplaced⟩ := h.first
  obtain ⟨p, pages, rfl⟩ : ∃ p rest, pages = p :: rest :=
    List.exists_cons_of_ne_nil fun hnil => by
      rw [hnil] at hhead
      cases hhead
  cases hhead
  obtain ⟨⟨-, -, s, q, lower, L, position, hcap, -, -, hslice⟩, -⟩ :=
    answered_run (h.answered first (List.mem_cons_self ..))
  have hpages := chain_pages hsnap hcap (hsnap.copied s q lower L hcap).count pages
    ⟨first.cursor, first.snapshotRef, 0⟩ first hplaced hslice.snapshot rfl
    (fun x hx => answered_run (h.answered x hx)) h.whole h.linked h.last
  exact ⟨s, q, lower, L, hcap, hpages.2, hpages.1⟩

/-! ## The page comes -/

/-- What a step of a reader must find: the session, the lock, a clock before the expiry
and a grant. -/
structure Serves (s : Session) (db : Db) (o : Oracle) : Prop where
  session : db.sessions.find? s.sessionId ≠ none
  lock : o.busy = false
  live : o.now < s.expiresAt
  grant : ∃ v, o.answer = .value v ∧ v.truthy = true

/-- What the read of a page comes to: all of its items, or more bytes than go out. -/
def Comes (s : Session) (L : List Incident) (c : Cursor) : Except Failure Page → Prop
  | .ok p => p.cursor = c.token ∧ p.items = (L.drop c.position).take s.pageLimit
  | .error e => e = .rejected 503 "OPERATIONAL_RESPONSE_CAPACITY" ∧ ∃ p : Page,
      p.cursor = c.token ∧ p.items = (L.drop c.position).take s.pageLimit ∧
        maxBytes < p.size

variable {c : Cursor} {identity : Identity} {policy : String} {es : List Event}

theorem frame?_placed (hsnap : Snapshots db tr) (hcap : Event.captured s q lower L ∈ tr)
    (hplaced : Event.placed c ∈ tr) (hid : c.sessionId = s.sessionId)
    (hsession : db.sessions.find? s.sessionId ≠ none) :
    db.frame? c.token = some (s, c.position) := by
  obtain ⟨s', hs'⟩ := Option.ne_none_iff_exists'.mp hsession
  obtain ⟨rfl, -⟩ := hsnap.found hcap hs'
  unfold Db.frame?
  rw [hsnap.kept c hplaced (hid ▸ hsession)]
  simp only [Option.bind_eq_bind, Option.bind_some, hid, hs']

theorem lives_readFrame (hcap : Event.captured s q lower L ∈ tr) (hplaced : Event.placed c ∈ tr)
    (hid : c.sessionId = s.sessionId) (howns : Owns identity policy s) :
    (readFrame c.token identity policy).Lives discipline (Serves s)
      (fun _ x => x = .ok (s, c.position)) 1 db tr es := by
  refine Program.lives_read fun db₁ tr₁ o hrel hinv hserves => ?_
  have hframe := frame?_placed hinv.1 (hrel.mem hcap) (hrel.mem hplaced) hid hserves.session
  have hlive : ¬ s.expiresAt ≤ o.now := not_le_of_gt hserves.live
  simp only [hserves.lock, hframe, howns.principal, howns.tenant, howns.fingerprint, howns.policy,
    hlive, Bool.false_eq_true, if_false, ne_eq, not_true_eq_false, or_self]

theorem lives_readRows (hcap : Event.captured s q lower L ∈ tr) :
    (readRows (s, position)).Lives discipline (Serves s)
      (fun _ x => x = .ok ((L.drop position).take s.pageLimit)) 1 db tr es := by
  refine Program.lives_read fun db₁ tr₁ o hrel hinv hserves => ?_
  rcases hinv.1.rows (hrel.mem hcap) position s.pageLimit with hrows | ⟨-, hgone⟩
  · simp only [hserves.lock, Bool.false_eq_true, if_false, hrows]
  · exact absurd hgone hserves.session

theorem lives_consultItem (i : Incident) :
    (do return (← consultItem i).truthy : Request Bool).Lives discipline (Serves s)
      (fun _ x => x = .ok true) 1 db tr es := by
  intro db₁ tr₁ hrel hinv o hserves
  obtain ⟨v, hv, htruthy⟩ := hserves.grant
  simp only [hv]
  show Except.ok v.truthy = _
  rw [htruthy]

theorem lives_nextCursor (hfew : position ≤ 20000) :
    (nextCursor s.sessionId position).Lives discipline (Serves s)
      (fun _ x => ∃ c, x = .ok c) 1 db tr es := by
  refine Program.lives_transaction (fun _ _ _ _ _ c _ _ _ _ => ⟨c, rfl⟩)
    fun db₁ tr₁ o e hrel hinv hserves hfail => ?_
  have hfresh : db₁.cursors.find? (uuid4 db₁.drawn o.token) = none := by
    refine Table.find?_eq_none_iff.mpr fun row hrow heq => ?_
    exact uuid4_fresh db₁.drawn o.token (heq ▸ (hinv.1.placed row (hinv.1.cursors row hrow).1).1)
  obtain ⟨cursors, hinsert⟩ := Table.exists_insert? (t := db₁.cursors)
    (r := ⟨uuid4 db₁.drawn o.token, s.sessionId, position⟩) hfresh
  have hthere : ¬ ((db₁.sessions.find? s.sessionId).isNone = true ∨ 20000 < position) := by
    rw [Option.isNone_iff_eq_none, not_or]
    exact ⟨hserves.session, not_lt_of_ge hfew⟩
  simp only [hserves.lock, Bool.false_eq_true, if_false, hinsert, if_neg hthere] at hfail
  split at hfail <;> cases hfail

/-- A page that is whole goes out, if it is not too large. -/
theorem comes_within {p : Page} (hcursor : p.cursor = c.token)
    (hitems : p.items = (L.drop c.position).take s.pageLimit) : Comes s L c (within p) := by
  unfold within
  split
  · next hlarge => exact ⟨rfl, p, hcursor, hitems, hlarge⟩
  · exact ⟨hcursor, hitems⟩

theorem lives_pageAt (hinv : discipline.inv db tr) (hcap : Event.captured s q lower L ∈ tr)
    (hplaced : Event.placed c ∈ tr) (hid : c.sessionId = s.sessionId)
    (howns : Owns identity policy s) :
    (pageAt c.token identity policy consultItem).Lives discipline (Serves s)
      (fun _ x => Comes s L c x) (s.pageLimit + 3) db tr es := by
  have hcopied := hinv.1.copied s q lower L hcap
  have hgrid : OnGrid s c.position := by
    obtain ⟨-, s', q', lower', L', hcap', hid', hgrid⟩ := hinv.1.placed c hplaced
    obtain ⟨rfl, -⟩ := hinv.1.once _ _ _ _ _ _ _ _ hcap' hcap (hid'.trans hid)
    exact hgrid
  have hlength : ((L.drop c.position).take s.pageLimit).length ≤ s.pageLimit :=
    List.length_take_le _ _
  have hitem : ∀ i db tr, (do return (← consultItem i).truthy : Request Bool).Good discipline
      (fun _ _ _ => True) db tr :=
    fun i db tr => Program.Good.bind (good_consult _ _) fun _ _ _ _ _ => trivial
  refine Program.Lives.more (n := 1 + (1 + (((L.drop c.position).take s.pageLimit).length * 1 + 1)))
    ?_ (by omega)
  refine Program.Lives.bind good_readFrame (lives_readFrame hcap hplaced hid howns)
    (fun db₁ tr₁ es₁ frame hrel₁ _ hframe => ?_) fun _ e he => by cases he
  cases hframe
  refine Program.Lives.bind (good_readRows (hrel₁.mem hcap)) (lives_readRows (hrel₁.mem hcap))
    (fun db₂ tr₂ es₂ rows hrel₂ _ hrows => ?_) fun _ e he => by cases he
  cases hrows
  refine Program.Lives.bind (Program.good_filter hitem)
    (Program.lives_filter hitem fun i _ _ _ => lives_consultItem i)
    (fun db₃ tr₃ es₃ visible hrel₃ _ hvisible => ?_) fun _ e he => by cases he
  cases hvisible
  simp only []
  split
  · next hlt =>
    obtain ⟨heq, hnext⟩ := onGrid_next hcopied.count hgrid hlt
    have hlater : Later db tr db₃ tr₃ := Later.trans hrel₁ (Later.trans hrel₂ hrel₃)
    refine Program.Lives.bind (m := 0) (good_nextCursor (hlater.mem hcap) (heq ▸ hnext))
      (lives_nextCursor (hlt.le.trans hcopied.few)) (fun _ _ _ next _ _ _ => ?_)
      fun _ e he => absurd he fun h => by cases h.choose_spec
    exact Program.lives_ofExcept (comes_within rfl rfl)
  · exact (Program.lives_ofExcept (comes_within rfl rfl)).more (Nat.zero_le _)

/-- The whole request, in a store that went on in the meantime. -/
theorem lives_request {text : String} (es : List Event) (hinv : discipline.inv db tr)
    (hcap : Event.captured s q lower L ∈ tr) (hplaced : Event.placed c ∈ tr)
    (hid : c.sessionId = s.sessionId) (howns : Owns identity policy s)
    (htext : Uuid.parse? text = some c.token) :
    (Ask.request (.cursor text identity policy)).Lives discipline (Serves s)
      (fun es _ => ∃ x, Event.answered x ∈ es ∧ Comes s L c x) (s.pageLimit + 5) db tr es := by
  have hpage : (Ask.page (.cursor text identity policy)).Lives discipline (Serves s)
      (fun _ x => Comes s L c x) (s.pageLimit + 3) db tr es := by
    simp only [Ask.page, htext]
    exact lives_pageAt hinv hcap hplaced hid howns
  have hlast : ∀ {db tr es} {x : Except Failure Page}, Comes s L c x →
      (Program.announce (.answered x) : Request Unit).Lives discipline (Serves s)
        (fun es _ => ∃ x, Event.answered x ∈ es ∧ Comes s L c x) 1 db tr es := fun hx =>
    Program.lives_announce ⟨_, List.mem_append_right _ (List.mem_singleton_self _), hx⟩
  refine Program.Lives.handle (n := s.pageLimit + 3 + 1) (m := 1)
    (q := fun es x => (∃ y, Event.answered y ∈ es ∧ Comes s L c y) ∨
      ∃ e, x = .error e ∧ Comes s L c (.error e)) ?_ (fun es' a h => ?_)
    fun db' tr' es' e h => ?_
  · refine Program.Lives.bind (good_page _) hpage (fun _ _ _ p _ _ hp => ?_) fun _ e he =>
      Or.inr ⟨e, rfl, he⟩
    exact Program.lives_announce
      (Or.inl ⟨.ok p, List.mem_append_right _ (List.mem_singleton_self _), hp⟩)
  · refine h.resolve_right fun hfail => ?_
    obtain ⟨_, he, -⟩ := hfail
    cases he
  · rcases h with ⟨y, hy, hcomes⟩ | ⟨_, he, hcomes⟩
    · exact Program.lives_announce ⟨y, List.mem_append_left _ hy, hcomes⟩
    · cases he
      exact hlast hcomes

/-- The moves of a reader of the cursor `c` and of the others, up to its answer. -/
structure Reading (v : Inventory) (now : String) (ms : List (Move Ask Oracle Write)) (n : Nat)
    (s : Session) (c : Cursor) (ask : Ask) (ms' : List (Move Ask Oracle Write)) : Prop where
  request : ∃ text identity policy, ask = .cursor text identity policy ∧
    Uuid.parse? text = some c.token ∧ Owns identity policy s
  idle : (system.run (World.initial v now) ms).idle n = true
  alone : (∀ a, Move.start n a ∉ ms') ∧ Move.crash n ∉ ms'
  serves : ∀ pre o post, ms' = pre ++ .step n o :: post →
    Serves s (system.run (World.initial v now) (ms ++ .start n ask :: pre)).shared o
  enough : s.pageLimit + 5 ≤ ms'.countP (Pool.Move.own n)

theorem page_comes {ms' : List (Move Ask Oracle Write)} {n : Nat} {ask : Ask}
    (h : Reading v now ms n s c ask ms')
    (hcap : Event.captured s q lower L ∈ system.trace (World.initial v now) ms)
    (hplaced : Event.placed c ∈ system.trace (World.initial v now) ms)
    (hid : c.sessionId = s.sessionId) :
    ∃ x, Event.answered x ∈ Pool.shown Ask.request Db.write n
        (system.run (World.initial v now) (ms ++ [.start n ask])) ms' ∧ Comes s L c x := by
  obtain ⟨text, identity, policy, rfl, htext, howns⟩ := h.request
  have hd := disciplined_run v now (ms ++ [.start n (.cursor text identity policy)])
  have hsub : ∀ e ∈ system.trace (World.initial v now) ms, e ∈ system.trace (World.initial v now)
      (ms ++ [.start n (.cursor text identity policy)]) := by
    intro e he
    rw [system.trace_append]
    exact List.mem_append_left _ he
  have hworker : (system.run (World.initial v now) (ms ++
      [.start n (.cursor text identity policy)])).workers n =
      Ask.request (.cursor text identity policy) := by
    rw [system.run_snoc]
    show (Pool.next Ask.request Db.write _ _).1.workers n = _
    rw [Pool.next_start_of_idle h.idle]
    exact Function.update_self _ _ _
  have hlives := lives_request [] hd.inv (hsub _ hcap) (hsub _ hplaced) hid howns htext
  rw [← hworker] at hlives
  have hend := Pool.lives_run (fun a _ _ _ => good_request a) write_keeps ms' hd hlives
    h.alone.1 h.alone.2 fun pre o post hpre => ?_
  · rw [Nat.sub_eq_zero_of_le h.enough, List.nil_append] at hend
    obtain ⟨-, hx⟩ := hend.ended
    exact hx
  · have hserves := h.serves pre o post hpre
    rw [List.append_cons, system.run_append] at hserves
    exact hserves

theorem impact_le_page {p : Page} {i : Incident} (hi : i ∈ p.items) :
    i.impactSummary.length ≤ p.size := by
  have hsummary : ("impact_summary", Json.str i.impactSummary) ∈ i.fields := by simp [Incident.fields]
  have hpage : (Json.dumps { ensureAscii := false } (.arr (p.items.map fun i => .obj i.fields))).utf8ByteSize ≤
      (Json.dumps { ensureAscii := false } p.json).utf8ByteSize :=
    Json.size_member_le (List.mem_cons_of_mem ("module", Json.str "GATEWAY") (List.mem_cons_self ..))
  have hitem : (Json.dumps { ensureAscii := false } (.obj i.fields)).utf8ByteSize ≤
      (Json.dumps { ensureAscii := false } (.arr (p.items.map fun i => .obj i.fields))).utf8ByteSize :=
    Json.size_item_le (List.mem_map_of_mem hi)
  have hquote := Json.length_le_quote false i.impactSummary
  have hfield : (Json.quote false i.impactSummary).utf8ByteSize ≤
      (Json.dumps { ensureAscii := false } (.obj i.fields)).utf8ByteSize := by
    have := Json.size_member_le (f := { ensureAscii := false }) hsummary
    rw [Json.dumps] at this
    exact this
  exact ((hquote.trans hfield).trans hitem).trans hpage

/-- An incident from before the ledger with a summary of more than 512 KiB. -/
def heavy : Incident :=
  { incidentId := "incident-1", dedupKey := "cause-1", module := "GATEWAY", eventType := "OUTAGE"
    lifecycleState := .opened, severity := .critical, firstSeenAt := "2026-01-01T00:00:00Z"
    lastSeenAt := "2026-01-01T00:00:00Z", resolvedAt := none, correlationId := none
    endpointRef := none, errorCode := none
    impactSummary := String.ofList (List.replicate 524289 'x'), actionRequired := true
    occurrenceCount := 1, visibilityClass := "RESTRICTED_OPERATIONAL" }

def heavyRows : Inventory := ⟨[heavy], List.nodup_singleton _, List.nodup_singleton _⟩

def reader : Identity :=
  ⟨.obj [("principal", .str "operator-1"), ("tenant", .str "tenant-1")], "operator-1", "tenant-1",
    rfl, rfl⟩

/-- A step at a quiet hour, for a session of half an hour. -/
def quietHour : Oracle :=
  { busy := false, now := "2026-01-01T00:10:00Z", expiry := "2026-01-01T00:40:00Z"
    later := "2026-01-01T00:10:00Z", id := 1, token := 2, answer := .value (.bool true) }

def heavySession : Session :=
  { sessionId := 1, principal := "operator-1", tenant := "tenant-1"
    fingerprint := digest reader.json, policyRef := "policy-1", pageLimit := 1
    createdAt := "2026-01-01T00:10:00Z", expiresAt := "2026-01-01T00:40:00Z"
    historyGap := false, watermark := 1, itemCount := 1 }

theorem selected_heavy : selected [⟨1, "incident-1", heavy⟩] 1 { limit := 1 } none = [heavy] := by
  have hone : ((latest [⟨1, "incident-1", heavy⟩] 1).filter fun x =>
      ({ limit := 1 } : Query).admits x.body && (none : Option Nat).all fun l => decide (l < x.revision)).map
        (·.body) = [heavy] := rfl
  rw [selected_eq, hone, List.mergeSort_singleton]

/-- The other way round than `captureTables_ok`: what is enough for a capture to commit. -/
theorem captureTables_commits {query : Query} {policyRef fingerprint baseline : String} {o : Oracle}
    (hfull : (db.expire o.now).full identity = false)
    (hbaseline : (db.expire o.now).incidents.baseline = some baseline)
    (hlower : lower.any (maxRevision (db.expire o.now).incidents.transitions < ·) = false)
    (hrows : selected (db.expire o.now).incidents.transitions
      (maxRevision (db.expire o.now).incidents.transitions) query lower = L)
    (hroom : (L.length : Int) ≤ (db.expire o.now).available identity query.limit)
    (hfingerprint : identity.fingerprint = .ok fingerprint)
    (hlimit : 1 ≤ query.limit ∧ query.limit ≤ 100)
    (hsession : (db.expire o.now).sessions.find? (uuid4 db.drawn o.id) = none)
    (htoken : (db.expire o.now).cursors.find?
      (uuid4 (uuid4 db.drawn o.id :: db.drawn) o.token) = none) :
    ∃ db', captureTables query identity policyRef lower db o = .ok (db',
      [.captured
        { sessionId := uuid4 db.drawn o.id, principal := identity.principal
          tenant := identity.tenant, fingerprint := fingerprint, policyRef := policyRef
          pageLimit := query.limit, createdAt := o.now, expiresAt := o.expiry
          historyGap := query.since.any (· < baseline)
          watermark := maxRevision (db.expire o.now).incidents.transitions
          itemCount := L.length } query lower L,
        .placed ⟨uuid4 (uuid4 db.drawn o.id :: db.drawn) o.token, uuid4 db.drawn o.id, 0⟩],
      uuid4 (uuid4 db.drawn o.id :: db.drawn) o.token) := by
  have hwhole : L.take ((db.expire o.now).available identity query.limit + 1).toNat = L := by
    refine List.take_of_length_le ?_
    omega
  have hpositive : ¬ (db.expire o.now).available identity query.limit < 0 := by omega
  have hfew : ¬ (db.expire o.now).available identity query.limit < (L.length : Int) := by omega
  have hvalid : ¬ (query.limit < 1 ∨ 100 < query.limit) := by omega
  obtain ⟨sessions, hsessions⟩ := Table.exists_insert? (t := (db.expire o.now).sessions)
    (r := { sessionId := uuid4 db.drawn o.id, principal := identity.principal
            tenant := identity.tenant, fingerprint := fingerprint, policyRef := policyRef
            pageLimit := query.limit, createdAt := o.now, expiresAt := o.expiry
            historyGap := query.since.any (· < baseline)
            watermark := maxRevision (db.expire o.now).incidents.transitions
            itemCount := L.length }) hsession
  obtain ⟨cursors, hcursors⟩ := Table.exists_insert? (t := (db.expire o.now).cursors)
    (r := ⟨uuid4 (uuid4 db.drawn o.id :: db.drawn) o.token, uuid4 db.drawn o.id, 0⟩) htoken
  unfold captureTables
  simp only [hfull, hpositive, hbaseline, hlower, hrows, hwhole, hfew, hfingerprint, hvalid,
    hsessions, hcursors, Bool.false_eq_true, if_false]
  exact ⟨_, rfl⟩

theorem capture_heavy : ∃ db', captureTables { limit := 1 } reader "policy-1" none
    (World.initial heavyRows "2026-01-01T00:00:00Z").shared quietHour =
      .ok (db', [.captured heavySession { limit := 1 } none [heavy], .placed ⟨2, 1, 0⟩], 2) :=
  captureTables_commits (L := [heavy]) rfl rfl rfl selected_heavy (by decide) rfl
    ⟨le_rfl, by decide⟩ rfl rfl

/-- The snapshot of one incident, captured and never to be read. -/
def heavyMoves : List (Move Ask Oracle Write) :=
  [.start 0 (.snapshot { limit := 1 } reader "policy-1"), .step 0 quietHour]

theorem trace_heavy : system.trace (World.initial heavyRows "2026-01-01T00:00:00Z") heavyMoves =
    [.captured heavySession { limit := 1 } none [heavy], .placed ⟨2, 1, 0⟩] := by
  obtain ⟨db', hcapture⟩ := capture_heavy
  have hstart : system.step (World.initial heavyRows "2026-01-01T00:00:00Z")
      (.start 0 (.snapshot { limit := 1 } reader "policy-1")) =
      ⟨(World.initial heavyRows "2026-01-01T00:00:00Z").shared, Function.update
        (World.initial heavyRows "2026-01-01T00:00:00Z").workers 0
          (Ask.request (.snapshot { limit := 1 } reader "policy-1"))⟩ := rfl
  have hworker : Function.update (World.initial heavyRows "2026-01-01T00:00:00Z").workers 0
      (Ask.request (.snapshot { limit := 1 } reader "policy-1")) 0 =
      Ask.request (.snapshot { limit := 1 } reader "policy-1") := Function.update_self _ _ _
  rw [heavyMoves, Machine.trace_cons, Machine.trace_cons, Machine.trace_nil, hstart, List.append_nil]
  show [] ++ (Pool.next Ask.request Db.write _ (.step 0 quietHour)).2 = _
  rw [Pool.next_step_of_atomic hworker, List.nil_append]
  simp only [quietHour] at hcapture
  simp only [quietHour, Bool.false_eq_true, if_false]
  rw [hcapture]

end OufGateway.Owner
