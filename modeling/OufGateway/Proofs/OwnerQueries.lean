import Mathlib
import OufGateway.Lib.JsonText
import OufGateway.Ref.OwnerQuery
import OufGateway.Ref.OwnerApi
import OufGateway.Proofs.Uuids
import OufGateway.Proofs.OwnerModes

/-!
# The grammar of owner queries

A body is a query when its text spells a dictionary in one of the modes of its path.
What is read is spelled, since the reader is sound, and what is spelled is read, since
every mode has flat members only, so that the depth of the reader does not matter to a
query that is in one of them. What is left is refused, and the last section is about the
two faults that are not.
-/

namespace OufGateway.Owner

open Lib Incidents
open Lib.JsonText (Points points Value IsText)

variable {q : Dict} {S : Value → Prop} {v : Value} {incidents : Bool}

/-! ## Timestamps -/

/-- `_since` accepts the value. -/
def Readable (v : Value) : Prop := ∃ text, readSince v = .ok text

/-- A timestamp with an offset whose moment lies outside the years 1 to 9999 of UTC. -/
def OffCalendar (v : Value) : Prop :=
  ∃ t, moment? v = some t ∧
    (t < 0 ∨ ((Calendar.daysBeforeYear 10000 * 86400 * 1000000 : Nat) : Int) ≤ t)

theorem str_of_moment? {t : Int} (h : moment? v = some t) : ∃ s, v = .str s := by
  unfold moment? at h
  split at h
  · exact ⟨_, rfl⟩
  · cases h

theorem Readable.str (h : Readable v) : ∃ s, v = .str s := by
  obtain ⟨text, htext⟩ := h
  unfold readSince at htext
  split at htext
  · cases htext
  · next hmoment => exact str_of_moment? hmoment

theorem OffCalendar.str (h : OffCalendar v) : ∃ s, v = .str s := by
  obtain ⟨t, ht, -⟩ := h
  exact str_of_moment? ht

theorem ofInstant?_eq_none {t : Int} : DateTime.ofInstant? t = none ↔
    t < 0 ∨ ((Calendar.daysBeforeYear 10000 * 86400 * 1000000 : Nat) : Int) ≤ t := by
  constructor
  · intro hnone
    by_contra hin
    rw [not_or, not_lt, not_le] at hin
    have hsome := DateTime.ofInstant?_isSome hin.1 (by exact_mod_cast hin.2)
    rw [hnone] at hsome
    cases hsome
  · intro hout
    unfold DateTime.ofInstant?
    refine if_neg fun hin => ?_
    push_cast at hout
    omega

theorem offCalendar_iff : OffCalendar v ↔ readSince v = .error .overflow := by
  unfold readSince OffCalendar
  cases moment? v with
  | none => simp
  | some t =>
      simp only [Option.some.injEq, exists_eq_left', ← ofInstant?_eq_none]
      cases DateTime.ofInstant? t <;> simp

/-! ## Bodies -/

/-- A body without a byte or a character. -/
def Body.IsEmpty (body : Body) : Prop :=
  body = .absent ∨ body = .bytes .empty ∨ body = .text []

/-- The body is a text in UTF-8, of at most 65536 bytes, and spells the dictionary. -/
def Body.Says (body : Body) (ms : Dict) : Prop :=
  ∃ s : String, body.decode = some s ∧ s.utf8ByteSize ≤ 65536 ∧ IsText s.toList (.obj ms)

/-- The body spells brackets inside each other deeper than the interpreter follows. -/
def Body.TooDeep (py : Interpreter) (body : Body) : Prop :=
  ∃ s : String, body.decode = some s ∧ s.utf8ByteSize ≤ 65536 ∧
    JsonText.loads py.depth s.toList = .error .recursion

/-- The query of a dictionary: its timestamp is written as the store writes it. -/
def Normalized (ms q : Dict) : Prop :=
  (ms.get? "since" = none ∧ q = ms) ∨
    ∃ v text, ms.get? "since" = some v ∧ readSince v = .ok text ∧
      q = ms.set "since" (.str (points text))

/-- The grammar: a body, and the query that is read from it. -/
def Accepted (incidents : Bool) (body : Body) (q : Dict) : Prop :=
  (body.IsEmpty ∧ q = []) ∨
    ∃ ms, body.Says ms ∧ InMode Readable incidents ms ∧ Normalized ms q

variable {py : Interpreter} {body : Body} {ms : Dict}

theorem decode_eq_empty : body.decode = some "" ↔ body.IsEmpty := by
  unfold Body.decode Body.IsEmpty
  cases body with
  | absent => simp
  | bytes b =>
      simp only [reduceCtorEq, Body.bytes.injEq, false_or, or_false]
      unfold String.fromUTF8?
      constructor
      · intro h
        split at h
        · have hbytes : b = "".toByteArray := congrArg String.toByteArray (Option.some.inj h)
          exact hbytes
        · cases h
      · rintro rfl
        rfl
  | text s =>
      simp only [reduceCtorEq, Body.text.injEq, false_or]
      constructor
      · intro h
        split at h
        · have hlist := congrArg String.toList (Option.some.inj h)
          simpa using hlist
        · cases h
      · rintro rfl
        rfl

theorem distinct_of_isText {cs : List Char} (h : IsText cs (.obj ms)) : Dict.Distinct ms := by
  obtain ⟨depth, rest, hspells, -⟩ := h
  generalize Json.skip cs = start at hspells
  cases depth with
  | zero => cases hspells
  | succ depth =>
      rcases hspells with hscalar | hnested
      · cases hscalar
      · cases hnested with
        | emptyObj h => exact List.nodup_nil
        | obj h hkeys => exact hkeys

theorem Body.Says.distinct (h : body.Says ms) : Dict.Distinct ms := by
  obtain ⟨s, -, -, htext⟩ := h
  exact distinct_of_isText htext

theorem not_isText_nil : ¬ IsText [] (.obj ms) := by
  rintro ⟨depth, rest, hspells, -⟩
  have hlength := (JsonText.spells_head hspells).2
  exact Nat.not_lt_zero _ hlength

/-- What is read of a body is what it spells. -/
theorem says_of_load (h : body.load py = .ok ms) : (body.IsEmpty ∧ ms = []) ∨ body.Says ms := by
  unfold Body.load at h
  split at h
  · cases h
  · next s hs =>
    split at h
    · next hempty => exact Or.inl ⟨decode_eq_empty.mp (hempty ▸ hs), (Except.ok.inj h).symm⟩
    · split at h
      · cases h
      · next hsize =>
        split at h
        · cases h
        · cases h
        · next members hloads =>
          cases h
          exact Or.inr ⟨s, hs, Nat.not_lt.mp hsize, JsonText.isText_of_loads hloads⟩
        · cases h

theorem load_of_says (h : body.Says ms) (hflat : ∀ e ∈ ms, e.2.flat = true) :
    body.load py = .ok ms := by
  obtain ⟨s, hs, hsize, htext⟩ := h
  have hne : s ≠ "" := by
    rintro rfl
    exact not_isText_nil htext
  unfold Body.load
  simp only [hs, if_neg hne, if_neg (Nat.not_lt.mpr hsize),
    JsonText.loads_flat htext hflat py.hdepth]

theorem load_of_isEmpty (h : body.IsEmpty) : body.load py = .ok [] := by
  unfold Body.load
  rw [decode_eq_empty.mpr h]
  rfl

theorem tooDeep_iff : body.TooDeep py ↔ body.load py = .error .recursion := by
  constructor
  · rintro ⟨s, hs, hsize, hloads⟩
    have hne : s ≠ "" := by
      rintro rfl
      have hempty : JsonText.loads py.depth "".toList = .error .value := by
        cases py.depth <;> rfl
      rw [hempty] at hloads
      cases hloads
    unfold Body.load
    simp only [hs, if_neg hne, if_neg (Nat.not_lt.mpr hsize), hloads]
  · intro h
    unfold Body.load at h
    split at h
    · cases h
    · next s hs =>
      split at h
      · cases h
      · split at h
        · cases h
        · next hsize =>
          split at h
          · next hloads => exact ⟨s, hs, Nat.not_lt.mp hsize, hloads⟩
          · cases h
          · cases h
          · cases h

/-! ## Queries -/

theorem state_check : ((q.get? "state").any fun v => (lifecycle? v).isNone) = false ↔
    ∀ v, q.get? "state" = some v → (lifecycle? v).isSome = true := by
  cases hv : q.get? "state" with
  | none => simp
  | some v => simp [Option.isSome_iff_ne_none]

theorem normalize_eq_ok {q' : Dict} : q.normalize = .ok q' ↔
    q.limit?.isSome = true ∧ (∀ v, q.get? "state" = some v → (lifecycle? v).isSome = true) ∧
      (∀ v, q.get? "since" = some v → Readable v) ∧ Normalized q q' := by
  rw [← state_check]
  unfold Dict.normalize Normalized Readable
  cases q.limit? with
  | none => simp
  | some n =>
      cases ((q.get? "state").any fun v => (lifecycle? v).isNone) with
      | true => simp
      | false =>
          cases q.get? "since" with
          | none => simp [eq_comm]
          | some v =>
              cases hread : readSince v with
              | ok text => simp [hread, eq_comm]
              | error e => cases e <;> simp [hread]

theorem normalize_eq_overflow : q.normalize = .error .overflow ↔
    q.limit?.isSome = true ∧ (∀ v, q.get? "state" = some v → (lifecycle? v).isSome = true) ∧
      ∃ v, q.get? "since" = some v ∧ OffCalendar v := by
  rw [← state_check]
  unfold Dict.normalize
  simp only [offCalendar_iff]
  cases q.limit? with
  | none => simp
  | some n =>
      cases ((q.get? "state").any fun v => (lifecycle? v).isNone) with
      | true => simp
      | false =>
          cases q.get? "since" with
          | none => simp
          | some v =>
              cases hread : readSince v with
              | ok text => simp [hread]
              | error e => cases e <;> simp [hread]

theorem normalize_ne_recursion : q.normalize ≠ .error .recursion := by
  unfold Dict.normalize
  cases q.limit? with
  | none => simp
  | some n =>
      cases ((q.get? "state").any fun v => (lifecycle? v).isNone) with
      | true => simp
      | false =>
          cases q.get? "since" with
          | none => simp
          | some v =>
              cases hread : readSince v with
              | ok text => simp [hread]
              | error e => cases e <;> simp [hread]

theorem readQuery_eq_ok : readQuery py body incidents = .ok q ↔
    ∃ ms, body.load py = .ok ms ∧ Checked Readable incidents ms ∧ Normalized ms q := by
  unfold readQuery
  cases body.load py with
  | error e => simp
  | ok ms =>
      simp only [Except.ok.injEq, exists_eq_left']
      constructor
      · intro h
        split at h
        · next hformed =>
          obtain ⟨hlimit, hstate, hsince, hq⟩ := normalize_eq_ok.mp h
          exact ⟨⟨hformed, hlimit, hstate, hsince⟩, hq⟩
        · cases h
      · rintro ⟨hchecked, hq⟩
        rw [if_pos hchecked.wellFormed]
        exact normalize_eq_ok.mpr ⟨hchecked.limit, hchecked.state, hchecked.since, hq⟩

theorem checked_nil : Checked S incidents [] := by
  refine ⟨?_, rfl, ?_, ?_⟩
  · cases incidents <;> decide
  · intro v hv
    cases hv
  · intro v hv
    cases hv

theorem accepted_of_readQuery (h : readQuery py body incidents = .ok q) :
    Accepted incidents body q := by
  obtain ⟨ms, hload, hchecked, hq⟩ := readQuery_eq_ok.mp h
  rcases says_of_load hload with ⟨hempty, rfl⟩ | hsays
  · rcases hq with ⟨-, rfl⟩ | ⟨v, text, hv, -⟩
    · exact Or.inl ⟨hempty, rfl⟩
    · cases hv
  · exact Or.inr ⟨ms, hsays, hchecked.inMode hsays.distinct, hq⟩

theorem readQuery_of_accepted (h : Accepted incidents body q) :
    readQuery py body incidents = .ok q := by
  rw [readQuery_eq_ok]
  rcases h with ⟨hempty, rfl⟩ | ⟨ms, hsays, hmode, hq⟩
  · exact ⟨[], load_of_isEmpty hempty, checked_nil, Or.inl ⟨rfl, rfl⟩⟩
  · obtain ⟨m, rfl, hm⟩ := hmode
    have hflat := hm.flat fun v hv => hv.str
    exact ⟨ms, load_of_says hsays fun e he => (hflat e he).2,
      hm.checked hsays.distinct fun v hv => hv.str, hq⟩

/-- `_query` reads a query of the grammar, and reads nothing else. -/
theorem readQuery_iff (py : Interpreter) (body : Body) (incidents : Bool) (q : Dict) :
    readQuery py body incidents = .ok q ↔ Accepted incidents body q :=
  ⟨accepted_of_readQuery, readQuery_of_accepted⟩

/-! ## Refusals -/

/-- The body spells a query with nothing wrong but a timestamp that has no date in UTC. -/
def Body.OffCalendar (incidents : Bool) (body : Body) : Prop :=
  ∃ ms, body.Says ms ∧ InMode Owner.OffCalendar incidents ms ∧ ms.has "since" = true

theorem readQuery_eq_recursion :
    readQuery py body incidents = .error .recursion ↔ body.TooDeep py := by
  rw [tooDeep_iff]
  unfold readQuery
  cases body.load py with
  | error e => simp
  | ok ms =>
      simp only [reduceCtorEq, iff_false]
      split
      · exact normalize_ne_recursion
      · simp

theorem load_ne_overflow : body.load py ≠ .error .overflow := by
  intro h
  unfold Body.load at h
  split at h
  · cases h
  · split at h
    · cases h
    · split at h
      · cases h
      · split at h <;> cases h

theorem readQuery_eq_overflow :
    readQuery py body incidents = .error .overflow ↔ body.OffCalendar incidents := by
  constructor
  · intro h
    unfold readQuery at h
    split at h
    · next e hload =>
      cases h
      exact absurd hload load_ne_overflow
    · next ms hload =>
      split at h
      · next hformed =>
        obtain ⟨hlimit, hstate, v, hv, hoff⟩ := normalize_eq_overflow.mp h
        rcases says_of_load hload with ⟨-, rfl⟩ | hsays
        · cases hv
        · have hsince : ∀ v', ms.get? "since" = some v' → Owner.OffCalendar v' := fun v' hv' =>
            Option.some.inj (hv.symm.trans hv') ▸ hoff
          refine ⟨ms, hsays, ?_, Option.isSome_iff_exists.mpr ⟨v, hv⟩⟩
          exact Checked.inMode ⟨hformed, hlimit, hstate, hsince⟩ hsays.distinct
      · cases h
  · rintro ⟨ms, hsays, ⟨m, rfl, hm⟩, hhas⟩
    have hflat := hm.flat fun v hv => hv.str
    have hchecked := hm.checked hsays.distinct fun v hv => hv.str
    obtain ⟨v, hv⟩ := Option.isSome_iff_exists.mp hhas
    have hload : body.load py = .ok ms := load_of_says hsays fun e he => (hflat e he).2
    unfold readQuery
    simp only [hload, if_pos hchecked.wellFormed]
    exact normalize_eq_overflow.mpr ⟨hchecked.limit, hchecked.state, v, hv, hchecked.since v hv⟩

variable {api : Api} {path : String} {headers : Headers}

/-- The headers pass the checks of the trusted context. -/
structure Trusted (headers : Headers) : Prop where
  verified : headers.get? "X-OUF-Gateway-Verified" = some "true"
  principal : headers.text? "X-OUF-Principal-ID" ≠ none
  decision : headers.text? "X-OUF-Authorization-Decision-Ref" ≠ none

theorem handle_of_trusted (h : Trusted headers) (hpath : path = incidentsPath ∨ path = summaryPath) :
    handle api path headers body =
      (Context.attempt ⟨api, headers, path = incidentsPath⟩ body).handle fun e => .done e.reply := by
  have hheaders : ¬ (headers.text? "X-OUF-Principal-ID" = none ∨
      headers.text? "X-OUF-Authorization-Decision-Ref" = none) :=
    not_or.mpr ⟨h.principal, h.decision⟩
  have hknown : ¬ (path ≠ incidentsPath ∧ path ≠ summaryPath) := by
    rintro ⟨h1, h2⟩
    exact hpath.elim h1 h2
  unfold handle
  rw [if_neg (not_not_intro h.verified), if_neg hheaders, if_neg hknown]

/-- A query that is not read is answered at once. -/
theorem handle_of_error (h : Trusted headers) (hpath : path = incidentsPath ∨ path = summaryPath)
    {e : Refusal} (he : readQuery api.py body (path = incidentsPath) = .error e) :
    handle api path headers body = .done e.failure.reply := by
  rw [handle_of_trusted h hpath, Context.attempt, he]
  rfl

/-- A body that is no query is answered with status 400 before anything is asked or read,
unless its brackets are too deep or its timestamp has no date in UTC. -/
theorem handle_refuses_iff (h : Trusted headers) (hpath : path = incidentsPath ∨ path = summaryPath)
    (hnone : ∀ q, ¬ Accepted (path = incidentsPath) body q) :
    (∃ code, handle api path headers body = .done (.refused 400 code none)) ↔
      ¬ body.TooDeep api.py ∧ ¬ body.OffCalendar (path = incidentsPath) := by
  cases he : readQuery api.py body (path = incidentsPath) with
  | ok q => exact absurd (accepted_of_readQuery he) (hnone q)
  | error e =>
      have hdeep : readQuery api.py body (path = incidentsPath) = .error .recursion ↔
          body.TooDeep api.py := readQuery_eq_recursion
      have hoff : readQuery api.py body (path = incidentsPath) = .error .overflow ↔
          body.OffCalendar (path = incidentsPath) := readQuery_eq_overflow
      rw [handle_of_error h hpath he, ← hdeep, ← hoff, he]
      cases e with
      | rejected code => simp [Refusal.failure, Failure.reply]
      | recursion => simp [Refusal.failure, Failure.reply]
      | overflow => simp [Refusal.failure, Failure.reply]

/-! An hour before the calendar begins. -/

def firstYear : Body := .text (points "\x7b\"since\":\"0001-01-01T00:00:00+01:00\"\x7d")

def openBracket : Body := .text (points "[")

/-- CPython's own limit is of this order. -/
def thousand : Interpreter := ⟨1000, by decide⟩

def trustedHeaders : Headers :=
  [("X-OUF-Gateway-Verified", "true"), ("X-OUF-Principal-ID", "operator"),
    ("X-OUF-Authorization-Decision-Ref", "decision")]

theorem trusted_trustedHeaders : Trusted trustedHeaders where
  verified := by decide
  principal := by decide
  decision := by decide

theorem handle_firstYear : Trusted trustedHeaders ∧ (∀ q, ¬ Accepted true firstYear q) ∧
    handle ⟨thousand, true⟩ incidentsPath trustedHeaders firstYear =
      .done (.refused 503 "OPERATIONAL_OWNER_UNAVAILABLE" (some false)) := by
  have hread : readQuery thousand firstYear true = .error .overflow := rfl
  refine ⟨trusted_trustedHeaders, fun q hq => ?_, ?_⟩
  · have hok : readQuery thousand firstYear true = .ok q := readQuery_of_accepted hq
    rw [hread] at hok
    cases hok
  · have hfault : readQuery (Api.mk thousand true).py firstYear (incidentsPath = incidentsPath) =
        .error .overflow := by
      rw [decide_eq_true (rfl : incidentsPath = incidentsPath)]
      exact hread
    exact handle_of_error trusted_trustedHeaders (Or.inl rfl) hfault

theorem handle_refuses_openBracket :
    (∃ code, handle ⟨thousand, true⟩ incidentsPath trustedHeaders openBracket =
      .done (.refused 400 code none)) ↔
      ¬ openBracket.TooDeep thousand ∧ ¬ openBracket.OffCalendar (incidentsPath = incidentsPath) := by
  refine handle_refuses_iff trusted_trustedHeaders (Or.inl rfl) fun q hq => ?_
  have hread : readQuery thousand openBracket true =
      .error (.rejected "OPERATIONAL_QUERY_INVALID") := rfl
  have hok : readQuery thousand openBracket (incidentsPath = incidentsPath) = .ok q :=
    readQuery_of_accepted hq
  rw [show decide (incidentsPath = incidentsPath) = true from decide_eq_true rfl, hread] at hok
  cases hok

end OufGateway.Owner
