import Mathlib
import OufGateway.Lib.Json
import OufGateway.Lib.Table
import OufGateway.Lib.Program
import OufGateway.Ref.Incidents
import OufGateway.Ref.Cursor

/-!
# Publication bookmarks

`PublicationBookmarks` records what was read of a captured page chain and, where every
page was read whole, issues the position the chain ends at. A coverage start is a
capture with a scope, a resume is a start that takes only what was published after its
bookmark, and a page is a page of the snapshot whose outcome is recorded before the
bookmark is considered.

The two callbacks, for the collection and for each item, are part of the request. At
the end of the file a request of the two stores runs to its answer, with every
callback answered from outside; requests of any number of connections, the writes of
the incident store and crashes between any two steps make up the system.
-/

namespace OufGateway.Owner

open Lib Incidents

/-- `_frame_digest`. -/
def Session.digest (s : Session) : String :=
  Owner.digest (.obj [("session_id", .str s.sessionId.text), ("principal", .str s.principal),
    ("tenant", .str s.tenant), ("fingerprint", .str s.fingerprint),
    ("policy_ref", .str s.policyRef), ("page_limit", .int s.pageLimit),
    ("created_at", .str s.createdAt), ("expires_at", .str s.expiresAt),
    ("history_gap", .int (if s.historyGap then 1 else 0)), ("watermark", .int s.watermark),
    ("item_count", .int s.itemCount)])

/-- `_identity`. -/
def Identity.digest (i : Identity) : Except Failure String :=
  let members := ["principal", "tenant", "actor", "servicePrincipal", "issuer", "audience"].map
    fun key => (key, (i.json.get? key).getD .null)
  if Json.serializable (.obj members) then .ok (Owner.digest (.obj members)) else .error .typeError

/-- The injected authorization of a collection, where there is one. -/
abbrev Collection := Option (Identity → String → Request Json)

def isActor (v : Json) : Bool :=
  match v with
  | .str s => s ∈ ["HUMAN", "SERVICE", "AI_AGENT"]
  | _ => false

/-- `_authorize`. -/
def authorize (collection : Collection) (identity : Identity) (policy : String) : Request Unit :=
  if identity.principal.length < 1 ∨ 200 < identity.principal.length ∨
      identity.tenant.length < 1 ∨ 200 < identity.tenant.length ∨
      isActor ((identity.json.get? "actor").getD .null) = false ∨
      policy.length < 1 ∨ 1024 < policy.length then
    .fail (.rejected 403 "BOOKMARK_IDENTITY_UNPROVEN")
  else
    match collection with
    | none => .fail (.rejected 503 "BOOKMARK_OWNER_AUTHORIZATION_UNAVAILABLE")
    | some authorizeCollection => do
      let answer ← authorizeCollection identity policy
      if answer.isTrue then .done ()
      else .fail (.rejected 403 "BOOKMARK_OWNER_AUTHORIZATION_DENIED")

/-- `_query`; what it leaves of the query is its state filter. -/
def checkQuery (query : Query) : Except Failure (Option Lifecycle) :=
  if query.since.isSome ∨ query.limit < 1 ∨ 100 < query.limit then
    reject 400 "BOOKMARK_QUERY_INVALID"
  else .ok query.state

/-! ## Scopes -/

/-- `_scope`: the frame is read before the row is written. -/
def scope (token : Uuid) (filters : Option Lifecycle) (parent : Option Uuid)
    (parentWatermark : Option Nat) : Request Unit := do
  let frame ← select fun db _ =>
    match db.frame? token with
    | none => .error .typeError
    | some frame => .ok frame.1
  transaction fun db _ =>
    match db.cursors.find? token with
    | none => .ok (db, [], ())
    | some c =>
      let row : Scope := ⟨c.sessionId, filters, parent, some frame.digest, parentWatermark⟩
      match db.scopes.insert? row with
      | none => .error .integrity
      | some scopes => .ok ({ db with scopes := scopes }, [.scoped row], ())

/-- `max(1, math.ceil(item_count / page_limit))`. -/
def Session.pages (s : Session) : Nat := max 1 ((s.itemCount + s.pageLimit - 1) / s.pageLimit)

/-- The pages of a session that were last read whole. -/
def Db.complete (db : Db) (sessionId : Uuid) : Nat :=
  db.pages.countP fun r => r.sessionId = sessionId && r.complete

/-! ## Issue -/

/-- The cleanup of an issue: the one bookmark that expired first. A trigger reads the
clock again and keeps a bookmark that is live by then. -/
def Db.expireBookmark (db : Db) (now later : String) : Except Failure Db :=
  match first? (fun a b : Bookmark => decide (a.expiresAt < b.expiresAt))
      (db.bookmarks.rows.filter (·.expiresAt ≤ now)) with
  | none => .ok db
  | some b =>
    if later < b.expiresAt then .error .integrity
    else .ok { db with bookmarks := db.bookmarks.filter (·.token ≠ b.token) }

def Db.bookmarksFull (db : Db) (identity : Identity) : Bool :=
  32768 ≤ db.bookmarks.rows.length ||
    4096 ≤ db.bookmarks.count (·.tenant = identity.tenant) ||
    512 ≤ db.bookmarks.count fun b =>
      b.tenant = identity.tenant && b.principal = identity.principal

/-- A live bookmark of the same scope at the same boundary. -/
def Bookmark.equivalent (frame : Session) (s : Scope) (identity : Identity)
    (identityDigest policy now : String) (b : Bookmark) : Bool :=
  b.principal = identity.principal && b.tenant = identity.tenant &&
    b.identityDigest = identityDigest && b.policyRef = policy && b.filters = s.filters &&
    b.watermark = frame.watermark && decide (now < b.expiresAt) &&
    ((s.parentToken.isNone && b.parentToken.isNone) || s.parentToken = some b.token)

/-- `order by created_at,token`. -/
def Bookmark.before (a b : Bookmark) : Bool :=
  decide (a.createdAt < b.createdAt) || (a.createdAt = b.createdAt && decide (a.token < b.token))

/-- The block of `_issue`. -/
def issueTables (frame : Session) (s : Scope) (identity : Identity) (policy : String)
    (db : Db) (o : Oracle) : Except Failure (Db × List Event × Uuid) :=
  if (db.sessions.find? frame.sessionId).all fun current => some current.digest ≠ s.frameDigest then
    reject 409 "BOOKMARK_CAPTURE_CHANGED"
  else if db.complete frame.sessionId ≠ frame.pages then
    reject 409 "BOOKMARK_COVERAGE_INCOMPLETE"
  else if frame.expiresAt ≤ o.now then reject 410 "BOOKMARK_SNAPSHOT_EXPIRED"
  else
    match db.bookmarks.rows.find? (·.sessionId = frame.sessionId) with
    | some b => .ok (db, [.issued frame s b.token o.now], b.token)
    | none =>
      match identity.digest with
      | .error e => .error e
      | .ok identityDigest =>
        match first? Bookmark.before (db.bookmarks.rows.filter
            (Bookmark.equivalent frame s identity identityDigest policy o.now)) with
        | some b => .ok (db, [.issued frame s b.token o.now], b.token)
        | none =>
          match db.expireBookmark o.now o.later with
          | .error e => .error e
          | .ok db =>
            if db.bookmarksFull identity then reject 503 "BOOKMARK_CAPACITY_UNAVAILABLE"
            else
              let token := uuid4 db.drawn o.token
              let row : Bookmark :=
                { token := token, sessionId := frame.sessionId, principal := identity.principal
                  tenant := identity.tenant, identityDigest := identityDigest, policyRef := policy
                  filters := s.filters, watermark := frame.watermark
                  parentToken := s.parentToken, createdAt := o.now, expiresAt := o.expiry }
              match db.bookmarks.insert? row with
              | none => .error .integrity
              | some bookmarks =>
                .ok ({ db with bookmarks := bookmarks, drawn := token :: db.drawn },
                  [.issued frame s token o.now], token)

def issue (frame : Session) (s : Scope) (identity : Identity) (policy : String) : Request Uuid :=
  transaction (issueTables frame s identity policy)

/-! ## Coverage pages -/

/-- The join of a cursor with its session and its scope. -/
def Db.covered? (db : Db) (token : Uuid) : Option (Session × Nat × Scope) := do
  let (session, position) ← db.frame? token
  let s ← db.scopes.find? session.sessionId
  some (session, position, s)

/-- `insert ... on conflict(session_id,position) do update`. -/
def record (rows : List PageRead) (r : PageRead) : List PageRead :=
  if rows.any fun x => x.sessionId = r.sessionId && x.position = r.position then
    rows.map fun x => if x.sessionId = r.sessionId ∧ x.position = r.position then r else x
  else rows ++ [r]

/-- The rest of `page` after the page of the snapshot. A token in another spelling finds
no row. -/
def cover (token : Uuid) (exact : Bool) (identity : Identity) (policy : String) (p : Page) :
    Request Page := do
  let (frame, position, s) ← select fun db _ =>
    match db.covered? token with
    | none => reject 404 "BOOKMARK_SCOPE_NOT_FOUND"
    | some row =>
      if exact = false then reject 404 "BOOKMARK_SCOPE_NOT_FOUND"
      else if row.2.2.frameDigest ≠ some row.1.digest then reject 409 "BOOKMARK_CAPTURE_CHANGED"
      else .ok row
  transaction fun db _ =>
    if (db.sessions.find? frame.sessionId).isNone then .error .integrity
    else
      let r : PageRead :=
        ⟨frame.sessionId, position, digest (.arr (p.items.map fun i => .obj i.fields)), !p.isPartial⟩
      .ok ({ db with pages := record db.pages r },
        [.recorded frame.sessionId position p.redacted p.historyGap], ())
  let p := { p with bookmarked := true }
  if p.truncated || p.isPartial then .ofExcept (within p)
  else do
    let complete ← select fun db _ => .ok (db.complete frame.sessionId)
    if complete = frame.pages then do
      let bookmark ← issue frame s identity policy
      .ofExcept (within { p with
        issued := some ⟨bookmark, s.parentToken, s.parentWatermark = some frame.watermark⟩ })
    else .ofExcept (within p)

/-- The wrapper of `page` around the decision on an item. -/
def proven (authorizeItem : Incident → Request Json) (i : Incident) : Request Json := do
  let answer ← authorizeItem i
  match answer with
  | .bool b => .done (.bool b)
  | _ => .fail (.rejected 503 "BOOKMARK_ROW_AUTHORIZATION_UNPROVEN")

def coveragePage (collection : Collection) (token : Uuid) (exact : Bool) (identity : Identity)
    (policy : String) (authorizeItem : Incident → Request Json) : Request Page := do
  authorize collection identity policy
  let p ← pageAt token identity policy (proven authorizeItem)
  cover token exact identity policy p

/-- `PublicationBookmarks.page` with the text it gets. -/
def coverageText (collection : Collection) (text : String) (identity : Identity) (policy : String)
    (authorizeItem : Incident → Request Json) : Request Page :=
  match Uuid.parse? text with
  | none => do
    authorize collection identity policy
    .fail (.rejected 400 "CURSOR_INVALID")
  | some token => coveragePage collection token (token.text = text) identity policy authorizeItem

def start (collection : Collection) (query : Query) (identity : Identity) (policy : String)
    (authorizeItem : Incident → Request Json) : Request Page := do
  authorize collection identity policy
  let filters ← Program.ofExcept (checkQuery query)
  let token ← capture query identity policy none
  scope token filters none none
  coveragePage collection token true identity policy authorizeItem

/-- The row of a bookmark, and what `resume` checks of it. -/
def readBookmark (token : Uuid) (identity : Identity) (policy : String) : Request Bookmark :=
  select fun db _ =>
    match db.bookmarks.find? token with
    | none => reject 404 "BOOKMARK_NOT_FOUND"
    | some row =>
      match identity.digest with
      | .error e => .error e
      | .ok identityDigest =>
        if row.identityDigest ≠ identityDigest then reject 404 "BOOKMARK_NOT_FOUND"
        else if row.policyRef ≠ policy then reject 409 "BOOKMARK_POLICY_CHANGED"
        else .ok row

def resume (collection : Collection) (text : String) (identity : Identity) (policy : String)
    (authorizeItem : Incident → Request Json) (limit : Nat) : Request Page := do
  authorize collection identity policy
  let _ ← Program.ofExcept (checkQuery { limit := limit })
  match (Uuid.parse? text).filter fun token => token.text = text && token ≠ 0 with
  | none => .fail (.rejected 400 "BOOKMARK_INVALID")
  | some bookmark =>
    let row ← readBookmark bookmark identity policy
    select fun db o =>
      if row.expiresAt ≤ o.now ∨ row.watermark < db.floor then reject 410 "BOOKMARK_HISTORY_GAP"
      else .ok ()
    let token ← capture { limit := limit, state := row.filters } identity policy
      (some row.watermark)
    scope token row.filters (some bookmark) (some row.watermark)
    coveragePage collection token true identity policy authorizeItem

/-! ## Requests -/

/-- A callback answers whatever it answers. -/
def consult (capability : String) (resource : Json) : Request Json :=
  .atomic (fun db _ => db) (fun _ o => [.decided capability resource o.answer]) fun _ o =>
    match o.answer with
    | .value v => .done v
    | .rejected status code => .fail (.rejected status code)
    | .operational => .fail .operational
    | .raised => .fail .raised

/-- The requests of the two stores. -/
inductive Ask
  | snapshot (query : Query) (identity : Identity) (policy : String)
  | cursor (text : String) (identity : Identity) (policy : String)
  | start (query : Query) (identity : Identity) (policy : String)
  | cover (text : String) (identity : Identity) (policy : String)
  | resume (text : String) (identity : Identity) (policy : String) (limit : Nat)

def consultItem (i : Incident) : Request Json := consult "item" (.obj i.fields)

def consultCollection : Collection :=
  some fun identity policy => consult "collection" (.arr [identity.json, .str policy])

def Ask.page : Ask → Request Page
  | .snapshot query identity policy => do
    let token ← capture query identity policy none
    pageAt token identity policy consultItem
  | .cursor text identity policy =>
    match Uuid.parse? text with
    | none => .fail (.rejected 400 "CURSOR_INVALID")
    | some token => pageAt token identity policy consultItem
  | .start query identity policy => Owner.start consultCollection query identity policy consultItem
  | .cover text identity policy => coverageText consultCollection text identity policy consultItem
  | .resume text identity policy limit =>
    Owner.resume consultCollection text identity policy consultItem limit

/-- A request up to its answer. -/
def Ask.request (a : Ask) : Request Unit :=
  (a.page.bind fun p => .announce (.answered (.ok p))).handle fun e =>
    .announce (.answered (.error e))

/-- Somebody else writes an incident. -/
def Db.write (db : Db) (w : Write) : Db := { db with incidents := db.incidents.write w }

abbrev World := Pool Db Oracle Event Failure

def system : Machine World (Move Ask Oracle Write) Event := Pool.system Ask.request Db.write

/-- The store over rows from before the ledger, at its first start. -/
def World.initial (v : Inventory) (now : String) : World :=
  Pool.initial (Db.initial (startHistory ⟨v.rows, none, []⟩ now))

end OufGateway.Owner
