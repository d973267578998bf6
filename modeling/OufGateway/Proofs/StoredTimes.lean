import OufGateway.Ref.Bookmarks
import OufGateway.Ref.OwnerQuery

/-!
# Stored times and their order

The store writes times as text and compares the texts: it keeps the greater of two as
`last_seen_at`, a session and a cursor are over when their `expires_at` is not after
now, and a trigger keeps a bookmark whose own is after it. The text of a whole second
has no fraction, so that it has a `Z` where the text of any other has a point, and a
point comes first. Of two times in one second, one of them whole, the texts are the
wrong way round, and of no others (`DateTime.isoformat_lt_iff_instant`).
-/

namespace OufGateway.StoredTimes

open Lib Incidents Owner

variable {a b : DateTime}

/-- The one that is not earlier. -/
def later (a b : DateTime) : DateTime := if a.instant ≤ b.instant then b else a

/-- A cursor of this caller, whatever the time is. -/
structure Found (db : Db) (token : Uuid) (identity : Identity) (policyRef : String) (frame : Session × Nat) : Prop where
  row : db.frame? token = some frame
  principal : frame.1.principal = identity.principal
  tenant : frame.1.tenant = identity.tenant
  fingerprint : identity.fingerprint = .ok frame.1.fingerprint
  policy : frame.1.policyRef = policyRef

/-- What the store does with the texts of two times. The first was stored, the second is now. -/
structure OrderedLikeTime (a b : DateTime) : Prop where
  before : stamp a < stamp b ↔ a.instant < b.instant
  after : stamp b < stamp a ↔ b.instant < a.instant
  seen : ∀ (t : Tables) (dedupKey impact : String) (old : Incident), findKey t dedupKey = some old →
    old.lastSeenAt = stamp a →
    (recovering t (stamp b) dedupKey impact).2.map (·.lastSeenAt) = some (stamp (later a b))
  expired : ∀ (db : Db) (o : Oracle) (token : Uuid) (identity : Identity) (policyRef : String)
    (frame : Session × Nat), o.busy = false → Found db token identity policyRef frame →
    frame.1.expiresAt = stamp a → o.now = stamp b →
    (readFrame token identity policyRef).advance db o =
      (db, if a.instant ≤ b.instant then .fail (.rejected 410 "CURSOR_EXPIRED") else .done frame)
  retained : ∀ (db : Db) (now : String) (row : Bookmark),
    first? (fun x y : Bookmark => decide (x.expiresAt < y.expiresAt))
      (db.bookmarks.rows.filter (·.expiresAt ≤ now)) = some row → row.expiresAt = stamp a →
    (db.expireBookmark now (stamp b) = .error .integrity ↔ b.instant < a.instant)

/-! ## The order of the texts -/

theorem stamp_lt_iff : stamp a < stamp b ↔ a.isoformat ++ ['Z'] < b.isoformat ++ ['Z'] := by
  rw [String.lt_iff_toList_lt]
  simp [stamp]

theorem stamp_lt_iff_instant : (stamp a < stamp b ↔ a.instant < b.instant) ↔
    (a.seconds = b.seconds → (a.microsecond = 0 ↔ b.microsecond = 0)) := by
  rw [stamp_lt_iff]
  exact DateTime.isoformat_lt_iff_instant (by decide)

theorem max_stamp (h : stamp b < stamp a ↔ b.instant < a.instant) : max (stamp a) (stamp b) = stamp (later a b) := by
  unfold later
  split
  · next hle =>
    refine max_eq_right (not_lt.mp fun hlt => ?_)
    exact absurd (h.mp hlt) (by omega)
  · next hlt =>
    exact max_eq_left (h.mpr (by omega)).le

theorem readFrame_advance {db : Db} {o : Oracle} {token : Uuid} {identity : Identity} {policyRef : String}
    {frame : Session × Nat} (hbusy : o.busy = false) (h : Found db token identity policyRef frame) :
    (readFrame token identity policyRef).advance db o =
      (db, if frame.1.expiresAt ≤ o.now then .fail (.rejected 410 "CURSOR_EXPIRED") else .done frame) := by
  have hframe := h.row
  simp only [readFrame, Owner.select, Program.read, Program.transaction, Program.advance, hbusy, hframe, h.principal,
    h.tenant, h.fingerprint, h.policy, reject]
  by_cases hexpired : frame.1.expiresAt ≤ o.now <;> simp [hexpired, Except.map]

/-- Every use of the texts is right just where the two have the whole second in common, or neither has it. -/
theorem stored_order_iff (a b : DateTime) :
    OrderedLikeTime a b ↔ (a.seconds = b.seconds → (a.microsecond = 0 ↔ b.microsecond = 0)) := by
  constructor
  · intro h
    exact stamp_lt_iff_instant.mp h.before
  · intro h
    have hbefore := stamp_lt_iff_instant.mpr h
    have hafter : stamp b < stamp a ↔ b.instant < a.instant :=
      stamp_lt_iff_instant.mpr fun hseconds => (h hseconds.symm).symm
    refine ⟨hbefore, hafter, fun t dedupKey impact old hold hseen => ?_,
      fun db o token identity policyRef frame hbusy hfound hexpires hnow => ?_, fun db now row hrow hexpires => ?_⟩
    · simp only [recovering, hold, Option.map_some, hseen, max_stamp hafter]
    · have hle : stamp a ≤ stamp b ↔ a.instant ≤ b.instant := by
        rw [← not_lt, hafter, not_lt]
      rw [readFrame_advance hbusy hfound, hexpires, hnow]
      simp only [hle]
    · simp only [Db.expireBookmark, hrow, hexpires, ← hafter]
      split
      · next hlt => simp [hlt]
      · next hlt => simp [hlt]

/-! ## Half a second -/

def newYear : DateTime where
  year := 2026
  month := 1
  day := 1
  hour := 0
  minute := 0
  second := 0
  microsecond := 0
  hyear := by decide
  hmonth := by decide
  hday := by decide
  hhour := by decide
  hminute := by decide
  hsecond := by decide
  hmicrosecond := by decide

def newYearAndHalf : DateTime := { newYear with microsecond := 500000, hmicrosecond := by decide }

/-- Half a second later is earlier. -/
theorem half_second_goes_back : newYear.instant < newYearAndHalf.instant ∧ stamp newYearAndHalf < stamp newYear
    ∧ ¬ OrderedLikeTime newYear newYearAndHalf := by
  have hinstant : newYear.instant < newYearAndHalf.instant := by decide +kernel
  have htext : stamp newYearAndHalf < stamp newYear := by decide +kernel
  refine ⟨hinstant, htext, fun h => ?_⟩
  exact absurd (h.after.mp htext) hinstant.asymm

end OufGateway.StoredTimes
