import Mathlib
import OufGateway.Lib.Json
import OufGateway.Lib.Sha256
import OufGateway.Lib.Table
import OufGateway.Lib.Program
import OufGateway.Ref.Incidents
import OufGateway.Ref.History

/-!
# Owner snapshots and their pages

`OwnerIncidentCursor` lives in the incident store's database: a capture copies the
incidents that were latest at its watermark into a session, and a page reads a part of
the copy at the position its cursor stands for. A capture is one `begin immediate`
block; a page is a read of its frame, a read of its rows, the caller's decision on
every row and, where rows are left, the insert of the next cursor. These are the
atomic steps of a request, and between them other connections write.

What the code does not decide is an input of the step that meets it: whether another
connection holds the lock past the timeout, what the clock reads (as the texts the
source compares), what `uuid4` draws and what a callback answers. An identifier is the
number of its UUID. `uuid4` gives the number it is asked for, or, where that one was
given before, the next above all of these.
-/

namespace OufGateway.Owner

open Lib Incidents

def cursorProfile : String := "ouf.incident-owner-cursor.v1"

def maxItems : Int := 20000

def maxBytes : Nat := 512 * 1024

/-! ## Identifiers -/

abbrev Uuid := Nat

/-- `str(uuid)`. -/
def Uuid.text (u : Uuid) : String :=
  let digits := (List.range 32).map fun k => Json.hexDigit (u / 16 ^ (31 - k) % 16)
  let part (start length : Nat) : String := String.ofList ((digits.drop start).take length)
  part 0 8 ++ "-" ++ part 8 4 ++ "-" ++ part 12 4 ++ "-" ++ part 16 4 ++ "-" ++ part 20 12

/-- `text.replace(word,'')`, from behind `skipped` characters of a match. -/
def without (word : List Char) : Nat → List Char → List Char
  | _, [] => []
  | skipped + 1, _ :: cs => without word skipped cs
  | 0, c :: cs =>
    if word.isPrefixOf (c :: cs) then without word (word.length - 1) cs
    else c :: without word 0 cs

def isBrace (c : Char) : Bool := c = '\x7b' || c = '\x7d'

/-- `uuid.UUID(text)`: 32 hexadecimal digits; braces around them, hyphens and the
words of a URN are skipped. -/
def Uuid.parse? (text : String) : Option Uuid := do
  let cs := without "uuid:".toList 0 (without "urn:".toList 0 text.toList)
  let cs := ((cs.dropWhile isBrace).reverse.dropWhile isBrace).reverse.filter (· ≠ '-')
  if cs.length ≠ 32 then none
  else do
    let digits ← cs.mapM Json.hexValue?
    some (digits.foldl (fun n d => 16 * n + d) 0)

/-- `uuid4`, over the identifiers it has given so far. -/
def uuid4 (drawn : List Uuid) (proposal : Uuid) : Uuid :=
  if proposal = 0 ∨ proposal ∈ drawn then drawn.foldl max 0 + 1 else proposal

/-! ## The tables -/

structure Session where
  sessionId : Uuid
  principal : String
  tenant : String
  fingerprint : String
  policyRef : String
  pageLimit : Nat
  createdAt : String
  expiresAt : String
  historyGap : Bool
  watermark : Nat
  itemCount : Nat
deriving DecidableEq

/-- A row of `gateway_incident_page_item`, its body decoded. -/
structure PageItem where
  sessionId : Uuid
  position : Nat
  body : Incident
deriving DecidableEq

structure Cursor where
  token : Uuid
  sessionId : Uuid
  position : Nat
deriving DecidableEq

/-- A row of `gateway_bookmark_scope`; the filters stand for the JSON text of the
column. -/
structure Scope where
  sessionId : Uuid
  filters : Option Lifecycle
  parentToken : Option Uuid
  frameDigest : Option String
  parentWatermark : Option Nat
deriving DecidableEq

/-- A row of `gateway_bookmark_page`. -/
structure PageRead where
  sessionId : Uuid
  position : Nat
  digest : String
  complete : Bool
deriving DecidableEq

structure Bookmark where
  token : Uuid
  sessionId : Uuid
  principal : String
  tenant : String
  identityDigest : String
  policyRef : String
  filters : Option Lifecycle
  watermark : Nat
  parentToken : Option Uuid
  createdAt : String
  expiresAt : String
deriving DecidableEq

structure Db where
  incidents : Incidents.Tables
  sessions : Table Session.sessionId
  items : List PageItem
  cursors : Table Cursor.token
  scopes : Table Scope.sessionId
  pages : List PageRead
  bookmarks : Table Bookmark.token
  /-- `gateway_publication_history_floor.revision`. -/
  floor : Nat
  /-- What `uuid4` has given so far. -/
  drawn : List Uuid

def Db.initial (incidents : Incidents.Tables) : Db :=
  ⟨incidents, .empty, [], .empty, .empty, [], .empty, 0, []⟩

/-! ## Failures, inputs and events -/

/-- `CursorRejected` with its status and code, an SQLite error, a `TypeError`, or
whatever a callback raised. -/
inductive Failure
  | rejected (status : Nat) (code : String)
  | operational
  | integrity
  | typeError
  | raised
deriving DecidableEq

/-- What a callback does. -/
inductive Answer
  | value (v : Json)
  | rejected (status : Nat) (code : String)
  | operational
  | raised

structure Oracle where
  busy : Bool
  now : String
  expiry : String
  later : String
  id : Uuid
  token : Uuid
  answer : Answer

/-- What `bookmarks.page` adds to a page. -/
structure Issued where
  publicationBookmark : Uuid
  parentBookmark : Option Uuid
  noPublicationProgress : Bool
deriving DecidableEq

structure Page where
  items : List Incident
  isPartial : Bool
  truncated : Bool
  cursor : Uuid
  snapshotRef : Uuid
  snapshotAt : String
  expiresAt : String
  historyGap : Bool
  redacted : Bool
  nextCursor : Option Uuid
  bookmarked : Bool
  issued : Option Issued
deriving DecidableEq

structure Query where
  limit : Nat := 50
  state : Option Lifecycle := none
  since : Option String := none
deriving DecidableEq

inductive Event
  | captured (session : Session) (query : Query) (lower : Option Nat) (items : List Incident)
  | placed (cursor : Cursor)
  | scoped (scope : Scope)
  | recorded (sessionId : Uuid) (position : Nat) (redacted historyGap : Bool)
  | issued (frame : Session) (scope : Scope) (bookmark : Uuid) (now : String)
  | decided (capability : String) (resource : Json) (answer : Answer)
  | answered (result : Except Failure Page)

abbrev Request (α : Type) := Program Db Oracle Event Failure α

def reject {α : Type} (status : Nat) (code : String) : Except Failure α :=
  .error (.rejected status code)

/-- A block of statements that commits, or fails and is rolled back. -/
def transaction {α : Type} (f : Db → Oracle → Except Failure (Db × List Event × α)) : Request α :=
  .transaction fun db o => if o.busy then .error .operational else f db o

/-- A `select` of its own. -/
def select {α : Type} (f : Db → Oracle → Except Failure α) : Request α :=
  .read fun db o => if o.busy then .error .operational else f db o

/-! ## Digests -/

/-- `sort_keys=True, separators=(",", ":"), ensure_ascii=False`. -/
def canonical : Json.Format :=
  { itemSeparator := ",", keySeparator := ":", sortKeys := true, ensureAscii := false }

def digest (v : Json) : String := Sha256.ofText (Json.dumps canonical v)

/-- The identity an owner decision carries: a dictionary with these two texts. -/
structure Identity where
  json : Json
  principal : String
  tenant : String
  hprincipal : json.get? "principal" = some (.str principal)
  htenant : json.get? "tenant" = some (.str tenant)

/-- `digest(identity)`. -/
def Identity.fingerprint (i : Identity) : Except Failure String :=
  if i.json.serializable then .ok (digest i.json) else .error .typeError

/-! ## Capture -/

/-- `order by ... limit 1`; where nothing is before another the first. -/
def first? {α : Type} (before : α → α → Bool) : List α → Option α
  | [] => none
  | a :: rest =>
    match first? before rest with
    | none => some a
    | some b => if before b a then some b else some a

/-- `delete from gateway_incident_session`, with everything that cascades. -/
def Db.dropSession (db : Db) (sessionId : Uuid) : Db :=
  { db with
    sessions := db.sessions.filter (·.sessionId ≠ sessionId)
    items := db.items.filter (·.sessionId ≠ sessionId)
    cursors := db.cursors.filter (·.sessionId ≠ sessionId)
    scopes := db.scopes.filter (·.sessionId ≠ sessionId)
    pages := db.pages.filter (·.sessionId ≠ sessionId) }

/-- The cleanup of a capture: the one session that expired first. -/
def Db.expire (db : Db) (now : String) : Db :=
  match first? (fun a b : Session => decide (a.expiresAt < b.expiresAt))
      (db.sessions.rows.filter (·.expiresAt ≤ now)) with
  | none => db
  | some s => db.dropSession s.sessionId

def Db.full (db : Db) (identity : Identity) : Bool :=
  4096 ≤ db.sessions.rows.length ||
    128 ≤ db.sessions.count (·.tenant = identity.tenant) ||
    16 ≤ db.sessions.count fun s => s.tenant = identity.tenant && s.principal = identity.principal

/-- How many items a capture may still take. -/
def Db.available (db : Db) (identity : Identity) (limit : Nat) : Int :=
  min (min maxItems (limit * 200))
    (min (200000 - db.sessions.sum (·.itemCount))
      (64000 - db.sessions.sum fun s => if s.tenant = identity.tenant then s.itemCount else 0))

/-- The transitions that are the latest of their incident up to the watermark. -/
def latest (ts : List Transition) (watermark : Nat) : List Transition :=
  ts.filter fun t => decide (t.revision ≤ watermark) &&
    ts.all fun u => decide (u.incidentId = t.incidentId → u.revision ≤ watermark →
      u.revision ≤ t.revision)

/-- The bodies a capture copies, in their order. -/
def selected (ts : List Transition) (watermark : Nat) (query : Query) (lower : Option Nat) :
    List Incident :=
  (((latest ts watermark).filter fun t =>
      (query.state.all fun s => t.body.lifecycleState = s) &&
        (query.since.all fun since => decide (since ≤ t.body.lastSeenAt)) &&
        lower.all fun l => decide (l < t.revision)).map (·.body)).mergeSort Incident.before

/-- The block of `_capture`. -/
def captureTables (query : Query) (identity : Identity) (policyRef : String)
    (lower : Option Nat) (old : Db) (o : Oracle) : Except Failure (Db × List Event × Uuid) :=
  let sid := uuid4 old.drawn o.id
  let token := uuid4 (sid :: old.drawn) o.token
  let db := old.expire o.now
  if db.full identity then reject 503 "OPERATIONAL_SESSION_CAPACITY"
  else
    let available := db.available identity query.limit
    if available < 0 then reject 503 "OPERATIONAL_ITEM_CAPACITY"
    else
      let watermark := maxRevision db.incidents.transitions
      match db.incidents.baseline with
      | none => .error .typeError
      | some baseline =>
        if lower.any (watermark < ·) then reject 409 "BOOKMARK_PUBLICATION_CONFLICT"
        else
          let rows := (selected db.incidents.transitions watermark query lower).take
            (available + 1).toNat
          if available < rows.length then reject 503 "OPERATIONAL_ITEM_CAPACITY"
          else
            match identity.fingerprint with
            | .error e => .error e
            | .ok fingerprint =>
              if query.limit < 1 ∨ 100 < query.limit then .error .integrity
              else
                let session : Session :=
                  { sessionId := sid, principal := identity.principal, tenant := identity.tenant
                    fingerprint := fingerprint, policyRef := policyRef, pageLimit := query.limit
                    createdAt := o.now, expiresAt := o.expiry
                    historyGap := query.since.any (· < baseline)
                    watermark := watermark, itemCount := rows.length }
                let first : Cursor := ⟨token, sid, 0⟩
                match db.sessions.insert? session, db.cursors.insert? first with
                | some sessions, some cursors =>
                  .ok ({ db with
                    sessions := sessions, cursors := cursors
                    items := db.items ++ rows.mapIdx fun k body => ⟨sid, k, body⟩
                    drawn := token :: sid :: db.drawn },
                    [.captured session query lower rows, .placed first], token)
                | _, _ => .error .integrity

def capture (query : Query) (identity : Identity) (policyRef : String) (lower : Option Nat) :
    Request Uuid :=
  transaction (captureTables query identity policyRef lower)

/-! ## Pages -/

/-- The session and the position of a cursor. -/
def Db.frame? (db : Db) (token : Uuid) : Option (Session × Nat) := do
  let c ← db.cursors.find? token
  let s ← db.sessions.find? c.sessionId
  some (s, c.position)

/-- The frame of a page, and what is checked of it. -/
def readFrame (token : Uuid) (identity : Identity) (policyRef : String) :
    Request (Session × Nat) :=
  select fun db o =>
    match db.frame? token with
    | none => reject 404 "CURSOR_NOT_FOUND"
    | some frame =>
      if frame.1.principal ≠ identity.principal ∨ frame.1.tenant ≠ identity.tenant then
        reject 404 "CURSOR_NOT_FOUND"
      else
        match identity.fingerprint with
        | .error e => .error e
        | .ok fingerprint =>
          if frame.1.fingerprint ≠ fingerprint then reject 404 "CURSOR_NOT_FOUND"
          else if frame.1.policyRef ≠ policyRef then reject 409 "CURSOR_POLICY_CHANGED"
          else if frame.1.expiresAt ≤ o.now then reject 410 "CURSOR_EXPIRED"
          else .ok frame

def Db.rows (db : Db) (sessionId : Uuid) (position limit : Nat) : List Incident :=
  (((db.items.filter fun r => r.sessionId = sessionId && decide (position ≤ r.position)).mergeSort
    fun a b => decide (a.position ≤ b.position)).take limit).map (·.body)

def readRows (frame : Session × Nat) : Request (List Incident) :=
  select fun db _ => .ok (db.rows frame.1.sessionId frame.2 frame.1.pageLimit)

/-- The cursor of a position, made on the first demand. -/
def nextCursor (sessionId : Uuid) (position : Nat) : Request Uuid :=
  transaction fun db o =>
    let token := uuid4 db.drawn o.token
    let drawn := token :: db.drawn
    match db.cursors.rows.find? fun c => c.sessionId = sessionId && c.position = position with
    | some c => .ok ({ db with drawn := drawn }, [], c.token)
    | none =>
      if (db.sessions.find? sessionId).isNone ∨ 20000 < position then .error .integrity
      else
        let row : Cursor := ⟨token, sessionId, position⟩
        match db.cursors.insert? row with
        | none => .error .integrity
        | some cursors => .ok ({ db with cursors := cursors, drawn := drawn }, [.placed row], token)

/-- The members `bookmarks.page` adds to the coverage of a page. -/
def Page.coverage (p : Page) : List (String × Json) :=
  let kind : List (String × Json) :=
    if p.bookmarked then [("bookmarkKind", .str "READ_POSITION_NOT_OPERATOR_CONFIRMATION")] else []
  let lineage : List (String × Json) :=
    match p.issued with
    | none => []
    | some b => [("parentBookmark", .ofOption (b.parentBookmark.map Uuid.text)),
        ("noPublicationProgress", .bool b.noPublicationProgress)]
  kind.append lineage

/-- The members only some pages have. -/
def Page.extras (p : Page) : List (String × Json) :=
  let unavailable : List (String × Json) :=
    if p.redacted then [("unavailable", .arr [.obj [("module", .str "GATEWAY"),
      ("reason", .str "REDACTED_BY_CURRENT_POLICY")]])] else []
  let next : List (String × Json) :=
    p.nextCursor.toList.map fun c => ("nextCursor", .str c.text)
  let mark : List (String × Json) :=
    if p.bookmarked then [("bookmarkProfile", .str "ouf.owner-publication-bookmark.v1")] else []
  let bookmark : List (String × Json) :=
    p.issued.toList.map fun b => ("publicationBookmark", .str b.publicationBookmark.text)
  [unavailable, next, mark, bookmark].flatten

def Page.json (p : Page) : Json :=
  let items : Json := .arr (p.items.map fun i => .obj i.fields)
  .obj (("module", .str "GATEWAY") :: ("items", items) :: ("partial", .bool p.isPartial) ::
    ("truncated", .bool p.truncated) :: ("cursor", .str p.cursor.text) ::
    ("snapshotRef", .str p.snapshotRef.text) :: ("snapshotAt", .str p.snapshotAt) ::
    ("expiresAt", .str p.expiresAt) :: ("priorityProfile", .str "ouf.incident-priority.v1") ::
    ("cursorProfile", .str cursorProfile) :: ("itemsDigest", .str (digest items)) ::
    ("consultationRecorded", .bool false) ::
    ("coverage", .obj (("kind", .str "SQLITE_REFERENCE_PLATFORM") ::
      ("publicationLag", .bool false) :: ("historyGap", .bool p.historyGap) :: p.coverage)) ::
    p.extras)

/-- The last check of a page. -/
def within (p : Page) : Except Failure Page :=
  if maxBytes < (Json.dumps { ensureAscii := false } p.json).utf8ByteSize then
    reject 503 "OPERATIONAL_RESPONSE_CAPACITY"
  else .ok p

/-- `OwnerIncidentCursor.page` from its token on. -/
def pageAt (token : Uuid) (identity : Identity) (policyRef : String)
    (authorizeItem : Incident → Request Json) : Request Page := do
  let frame ← readFrame token identity policyRef
  let items ← readRows frame
  let visible ← Program.filter (fun i => do return (← authorizeItem i).truthy) items
  let next := frame.2 + items.length
  let p : Page :=
    { items := visible
      isPartial := decide (visible.length ≠ items.length) || frame.1.historyGap
      truncated := next < frame.1.itemCount, cursor := token, snapshotRef := frame.1.sessionId
      snapshotAt := frame.1.createdAt, expiresAt := frame.1.expiresAt
      historyGap := frame.1.historyGap, redacted := visible.length ≠ items.length
      nextCursor := none, bookmarked := false, issued := none }
  if next < frame.1.itemCount then do
    let c ← nextCursor frame.1.sessionId next
    .ofExcept (within { p with nextCursor := some c })
  else .ofExcept (within p)

end OufGateway.Owner
