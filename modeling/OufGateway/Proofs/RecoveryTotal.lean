import Mathlib
import OufGateway.Proofs.RecoveryAnswer

/-!
# What escapes a recovery

The tests of the mediator have answers that are no evidence, and each of them is an
object of scalars. The checks hold for those; but the first of them already makes a set
of whatever was read, and asks it for a member. A number, a boolean or `null` is no set,
an empty string or array has no members to ask for, an array may hold what a set refuses,
and the outcome may be such a thing too. The reader itself raises two errors that are not
caught, for too many digits and too many brackets.

The theorem has all of it: an answer is turned into evidence or into one of the two
refusals exactly when it is `Manageable`.
-/

namespace OufGateway.Recovery

open Lib CompileConfig PyJson
open Dispatch (TrustedIdentity BackendResponse)
open Encoding (Points)

variable {F : Type} {id : String} {v : Value F} {members : List (Points × Value F)}

/-- The refusal of an answer that was read. -/
def Refusal (f : Raised) : Prop := ∃ detail, f = .dispatch 502 "INVALID_OWNER_EVIDENCE" detail

theorem refusal_invalid {α : Type} {detail : String} {f : Raised}
    (h : (invalid detail : Except Raised α) = .error f) : Refusal f :=
  ⟨detail, (Except.error.inj h).symm⟩

theorem metadataOf_error {field : String} {f : Raised} (h : metadataOf members field = .error f) :
    Refusal f := by
  unfold metadataOf at h
  split at h
  · cases h
  · split at h
    · exact refusal_invalid h
    · cases h
  · exact refusal_invalid h

theorem costOf_error {field : String} {f : Raised} (h : costOf members field = .error f) :
    Refusal f := by
  unfold costOf at h
  split at h
  · cases h
  · split at h
    · exact refusal_invalid h
    · cases h
  · exact refusal_invalid h

theorem checkOutcome_error {e : Evidence} {f : Raised} (h : checkOutcome e = .error f) :
    Refusal f := by
  unfold checkOutcome at h
  split at h
  · exact refusal_invalid h
  · split at h
    · exact refusal_invalid h
    · cases h

/-- The outcome asks for a hash. -/
theorem outcomeOf_error {f : Raised} (h : outcomeOf members = .error f) :
    Refusal f ↔ ∀ x, get? members "Outcome" = some x → hashable x = true := by
  have htype : ¬ Refusal .typeError := by
    rintro ⟨detail, h⟩
    cases h
  unfold outcomeOf at h
  split at h
  · next s hs =>
    split at h
    · cases h
    · refine iff_of_true (refusal_invalid h) fun x hx => ?_
      obtain rfl := Option.some.inj (hs.symm.trans hx)
      rfl
  · next items hitems =>
    obtain rfl := Except.error.inj h
    exact iff_of_false htype fun hall => Bool.noConfusion (hall _ hitems)
  · next ms hms =>
    obtain rfl := Except.error.inj h
    exact iff_of_false htype fun hall => Bool.noConfusion (hall _ hms)
  · next hstr harr hobj =>
    refine iff_of_true (refusal_invalid h) fun x hx => ?_
    cases x with
    | arr items => exact absurd hx (harr items)
    | obj ms => exact absurd hx (hobj ms)
    | _ => rfl

/-- A value the checks get through. -/
def Manageable (id : String) : Value F → Prop
  | .str s => s ≠ []
  | .arr items => (∀ x ∈ items, hashable x = true) ∧ ∃ x ∈ items, isAllowedString x = false
  | .obj members => (∃ m ∈ members, isAllowed m.1 = false) ∨
      isString id (get? members "BackendRequestID") = false ∨
      ∀ x, get? members "Outcome" = some x → hashable x = true
  | _ => False

/-- Evidence, or the refusal. -/
def Decided (a : Except Raised Evidence) : Prop :=
  (∃ e, a = .ok e) ∨ ∃ f, a = .error f ∧ Refusal f

theorem decided_bind {α : Type} {x : Except Raised α} {k : α → Except Raised Evidence}
    (hx : ∀ f, x = .error f → Refusal f) (hk : ∀ a, x = .ok a → Decided (k a)) :
    Decided (x >>= k) := by
  cases h : x with
  | error f => exact Or.inr ⟨f, rfl, hx f h⟩
  | ok a => exact hk a h

theorem decided_error {f : Raised} : Decided (.error f) ↔ Refusal f := by
  constructor
  · rintro (⟨e, h⟩ | ⟨f', h, hf⟩)
    · cases h
    · obtain rfl := Except.error.inj h
      exact hf
  · exact fun h => Or.inr ⟨f, rfl, h⟩

theorem not_refusal {f : Raised} (h : f = .typeError ∨ f = .attributeError) : ¬ Refusal f := by
  rintro ⟨detail, hf⟩
  rcases h with rfl | rfl <;> cases hf

/-- What the checks make of a value they do not know to be an object. -/
theorem decided_of_matching {f : Raised} (h : matching id v = .error f) :
    Decided (evidenceOf id v) ↔ Refusal f := by
  have hevidence : evidenceOf id v = .error f := by
    unfold evidenceOf
    rw [h]
    rfl
  rw [hevidence, decided_error]

theorem matching_of_others (id : String) (h : hasOthers v = .ok true) :
    ∃ f, matching id v = .error f ∧ Refusal f := by
  have hmatching : matching id v = invalid "owner evidence does not match backend request" := by
    unfold matching
    rw [h]
    rfl
  exact ⟨_, hmatching, _, rfl⟩

theorem matching_of_type (h : hasOthers v = .error .typeError) :
    matching id v = .error .typeError := by
  unfold matching
  rw [h]
  rfl

/-- Behind the first check only the outcome can raise anything else. -/
theorem decided_members (hothers : ∀ m ∈ members, isAllowed m.1 = true)
    (hid : isString id (get? members "BackendRequestID") = true) :
    Decided (evidenceOf id (.obj members)) ↔
      ∀ x, get? members "Outcome" = some x → hashable x = true := by
  have hnone : hasOthers (.obj members) = .ok false := by
    refine congrArg Except.ok (List.any_eq_false.mpr fun m hm => ?_)
    rw [hothers m hm]
    decide
  have hmatching : matching id (.obj members) = .ok members := by
    unfold matching
    rw [hnone]
    exact if_pos hid
  have hrest : ∀ {outcome : Points}, outcomeOf members = .ok outcome →
      Decided (evidenceOf id (.obj members)) := by
    intro outcome houtcome
    unfold evidenceOf
    rw [hmatching]
    refine decided_bind (fun f h => by cases h) fun ms hms => ?_
    obtain rfl := Except.ok.inj hms
    refine decided_bind (fun f h => ?_) fun outcome _ => ?_
    · rw [houtcome] at h
      cases h
    refine decided_bind (fun f h => metadataOf_error h) fun code _ => ?_
    refine decided_bind (fun f h => metadataOf_error h) fun ref _ => ?_
    refine decided_bind (fun f h => costOf_error h) fun calls _ => ?_
    refine decided_bind (fun f h => costOf_error h) fun bytes _ => ?_
    exact decided_bind (fun f h => checkOutcome_error h) fun _ _ => Or.inl ⟨_, rfl⟩
  cases houtcome : outcomeOf members with
  | error f =>
      have hevidence : evidenceOf id (.obj members) = .error f := by
        unfold evidenceOf
        rw [hmatching]
        simp only [bind, Except.bind, houtcome]
      rw [hevidence, decided_error, outcomeOf_error houtcome]
  | ok outcome =>
      refine iff_of_true (hrest houtcome) fun x hx => ?_
      have hgiven := (outcomeOf_ok houtcome).1
      rw [hgiven] at hx
      obtain rfl := Option.some.inj hx
      rfl

theorem decided_iff (id : String) (v : Value F) : Decided (evidenceOf id v) ↔ Manageable id v := by
  have htype : ¬ Refusal .typeError := not_refusal (Or.inl rfl)
  have hattribute : ¬ Refusal .attributeError := not_refusal (Or.inr rfl)
  have hraised : ∀ {v : Value F}, hasOthers v = .error .typeError → ¬ Decided (evidenceOf id v) :=
    fun h => by rwa [decided_of_matching (matching_of_type h)]
  have hempty : ∀ {v : Value F}, hasOthers v = .ok false → (∀ ms, v ≠ .obj ms) →
      ¬ Decided (evidenceOf id v) := by
    intro v h hobj
    have hmatching : matching id v = .error .attributeError := by
      unfold matching
      rw [h]
      cases v with
      | obj ms => exact absurd rfl (hobj ms)
      | _ => rfl
    rwa [decided_of_matching hmatching]
  have hothers : ∀ {v : Value F}, hasOthers v = .ok true → Decided (evidenceOf id v) := by
    intro v h
    obtain ⟨f, hf, hrefusal⟩ := matching_of_others id h
    rwa [decided_of_matching hf]
  cases v with
  | null => exact iff_of_false (hraised rfl) fun h => h
  | bool b => exact iff_of_false (hraised rfl) fun h => h
  | int n => exact iff_of_false (hraised rfl) fun h => h
  | float x => exact iff_of_false (hraised rfl) fun h => h
  | str s =>
      by_cases hs : s = []
      · exact iff_of_false (hempty (congrArg Except.ok (decide_eq_false (not_not.mpr hs)))
          fun ms h => by cases h) (not_not.mpr hs)
      · exact iff_of_true (hothers (congrArg Except.ok (decide_eq_true hs))) hs
  | arr items =>
      by_cases hhash : items.all hashable = true
      · have hall := List.all_eq_true.mp hhash
        have hvalue : hasOthers (.arr items) = .ok (items.any fun x => !isAllowedString x) :=
          if_pos hhash
        cases hany : items.any fun x => !isAllowedString x with
        | true =>
            rw [hany] at hvalue
            obtain ⟨x, hx, hnot⟩ := List.any_eq_true.mp hany
            exact iff_of_true (hothers hvalue) ⟨hall, x, hx, by simpa using hnot⟩
        | false =>
            rw [hany] at hvalue
            refine iff_of_false (hempty hvalue fun ms h => by cases h) ?_
            rintro ⟨-, x, hx, hnot⟩
            have hallowed := List.any_eq_false.mp hany x hx
            rw [hnot] at hallowed
            exact hallowed rfl
      · refine iff_of_false (hraised (if_neg hhash)) ?_
        rintro ⟨hall, -⟩
        exact hhash (List.all_eq_true.mpr hall)
  | obj members =>
      cases hany : members.any fun m => !isAllowed m.1 with
      | true =>
          obtain ⟨m, hm, hnot⟩ := List.any_eq_true.mp hany
          exact iff_of_true (hothers (congrArg Except.ok hany)) (Or.inl ⟨m, hm, by simpa using hnot⟩)
      | false =>
          have hall : ∀ m ∈ members, isAllowed m.1 = true := fun m hm => by
            simpa using List.any_eq_false.mp hany m hm
          cases hid : isString id (get? members "BackendRequestID") with
          | false =>
              have hmatching : matching id (.obj members) =
                  invalid "owner evidence does not match backend request" := by
                have hvalue : hasOthers (.obj members) = .ok false := congrArg Except.ok hany
                unfold matching
                rw [hvalue]
                simp only [bind, Except.bind, Bool.false_eq_true, if_false, hid]
              refine iff_of_true ?_ (Or.inr (Or.inl hid))
              rw [decided_of_matching hmatching]
              exact ⟨_, rfl⟩
          | true =>
              rw [decided_members hall hid]
              refine ⟨fun h => Or.inr (Or.inr h), ?_⟩
              rintro (⟨m, hm, hnot⟩ | hother | hhash)
              · rw [hall m hm] at hnot
                cases hnot
              · rw [hid] at hother
                cases hother
              · exact hhash

/-! ## The whole answer -/

/-- What the caller is promised: evidence in normal form for its request, or one of the two
refusals. -/
def Promised (floats : Floats F) (id : String) (a : Except Raised BackendResponse) : Prop :=
  (∃ r e, a = .ok r ∧ r.status = 200 ∧ Evidence.Normal id e ∧ r.body = e.body floats) ∨
    ∃ status code detail, a = .error (.dispatch status code detail) ∧
      (code = "OWNER_RECOVERY_UNAVAILABLE" ∨ code = "INVALID_OWNER_EVIDENCE")

/-- An answer of 200 and of at most 65536 bytes is no JSON, or a value the checks get
through. -/
def Tractable (m : Mediator F) (id : String) (r : BackendResponse) : Prop :=
  r.status = 200 → r.body.length ≤ 65536 →
    (∀ fault, loads m.floats m.recursionLimit r.body = .error fault → fault = .notJson) ∧
      ∀ v, loads m.floats m.recursionLimit r.body = .ok v → Manageable id v

variable {m : Mediator F} {owner : RecoveryCall → BackendResponse} {rawBody : List UInt8}
  {requestHeaders : List (String × String)} {i : TrustedIdentity} {request : Request}
  {call : RecoveryCall}

theorem promised_refusal {floats : Floats F} {f : Raised} (h : Refusal f) :
    Promised floats id (.error f) := by
  obtain ⟨detail, rfl⟩ := h
  exact Or.inr ⟨_, _, _, rfl, Or.inr rfl⟩

/-- The checks raise the refusal or one of the two errors of types. -/
theorem evidenceOf_error {f : Raised} (h : evidenceOf id v = .error f) :
    Refusal f ∨ f = .typeError ∨ f = .attributeError := by
  have hmatching : ∀ {f : Raised}, matching id v = .error f →
      Refusal f ∨ f = .typeError ∨ f = .attributeError := by
    intro f h
    rcases bind_eq_error.mp h with h | ⟨others, -, h⟩
    · unfold hasOthers at h
      split at h
      · cases h
      · split at h
        · cases h
        · exact Or.inr (Or.inl (Except.error.inj h).symm)
      · cases h
      · exact Or.inr (Or.inl (Except.error.inj h).symm)
    · split at h
      · exact Or.inl (refusal_invalid h)
      · split at h
        · split at h
          · cases h
          · exact Or.inl (refusal_invalid h)
        · exact Or.inr (Or.inr (Except.error.inj h).symm)
  have houtcome : ∀ {ms : List (Points × Value F)} {f : Raised}, outcomeOf ms = .error f →
      Refusal f ∨ f = .typeError ∨ f = .attributeError := by
    intro ms f h
    unfold outcomeOf at h
    split at h
    · split at h
      · cases h
      · exact Or.inl (refusal_invalid h)
    · exact Or.inr (Or.inl (Except.error.inj h).symm)
    · exact Or.inr (Or.inl (Except.error.inj h).symm)
    · exact Or.inl (refusal_invalid h)
  rcases bind_eq_error.mp h with h | ⟨ms, -, h⟩
  · exact hmatching h
  rcases bind_eq_error.mp h with h | ⟨outcome, -, h⟩
  · exact houtcome h
  rcases bind_eq_error.mp h with h | ⟨code, -, h⟩
  · exact Or.inl (metadataOf_error h)
  rcases bind_eq_error.mp h with h | ⟨ref, -, h⟩
  · exact Or.inl (metadataOf_error h)
  rcases bind_eq_error.mp h with h | ⟨calls, -, h⟩
  · exact Or.inl (costOf_error h)
  rcases bind_eq_error.mp h with h | ⟨bytes, -, h⟩
  · exact Or.inl (costOf_error h)
  rcases bind_eq_error.mp h with h | ⟨_, -, h⟩
  · exact Or.inl (checkOutcome_error h)
  · cases h

theorem promised_evidence (floats : Floats F) (headers : List (String × String)) :
    Promised floats id ((evidenceOf id v).map fun e => ⟨200, e.body floats, headers⟩) ↔
      Decided (evidenceOf id v) := by
  cases h : evidenceOf id v with
  | ok e =>
      obtain ⟨_, -, -, hnormal⟩ := evidenceOf_ok h
      exact iff_of_true (Or.inl ⟨_, e, rfl, rfl, hnormal, rfl⟩) (Or.inl ⟨e, rfl⟩)
  | error f =>
      rw [decided_error]
      refine ⟨fun hpromised => ?_, fun hrefusal => promised_refusal hrefusal⟩
      rcases hpromised with ⟨r, e, hr, -⟩ | ⟨status, code, detail, hr, -⟩
      · cases hr
      · obtain rfl := Except.error.inj hr
        rcases evidenceOf_error h with hrefusal | hf | hf
        · exact hrefusal
        · cases hf
        · cases hf

/-- A recovery answers or refuses as it says exactly on the answers it can handle. -/
theorem recover_total_iff (h : prepare m rawBody requestHeaders i = .ok (request, call)) :
    Promised m.floats request.backendRequestId (recover m owner rawBody requestHeaders i) ↔
      Tractable m request.backendRequestId (owner call) := by
  rw [recover_eq h]
  unfold normalizeAnswer Tractable
  by_cases hstatus : (owner call).status = 200
  · rw [if_neg (not_not.mpr hstatus)]
    by_cases hlong : 65536 < (owner call).body.length
    · rw [if_pos hlong]
      exact iff_of_true (promised_refusal ⟨_, rfl⟩) fun _ hshort => absurd hlong (not_lt.mpr hshort)
    · rw [if_neg hlong]
      have hshort := not_lt.mp hlong
      cases hloads : loads m.floats m.recursionLimit (owner call).body with
      | error fault =>
          cases fault with
          | notJson =>
              refine iff_of_true (promised_refusal ⟨_, rfl⟩) fun _ _ => ⟨fun fault h => ?_, fun v h => ?_⟩
              · exact (Except.error.inj h).symm
              · cases h
          | tooManyDigits =>
              refine iff_of_false ?_ fun htractable => ?_
              · rintro (⟨r, e, hr, -⟩ | ⟨status, code, detail, hr, -⟩) <;> cases hr
              · exact Fault.noConfusion ((htractable hstatus hshort).1 _ rfl)
          | tooDeep =>
              refine iff_of_false ?_ fun htractable => ?_
              · rintro (⟨r, e, hr, -⟩ | ⟨status, code, detail, hr, -⟩) <;> cases hr
              · exact Fault.noConfusion ((htractable hstatus hshort).1 _ rfl)
      | ok v =>
          simp only []
          rw [promised_evidence, decided_iff]
          constructor
          · intro hmanageable _ _
            refine ⟨fun fault h => ?_, fun v' h => ?_⟩
            · cases h
            obtain rfl := Except.ok.inj h
            exact hmanageable
          · exact fun htractable => (htractable hstatus hshort).2 v rfl
  · rw [if_pos hstatus]
    exact iff_of_true (Or.inr ⟨_, _, _, rfl, Or.inl rfl⟩) fun h => absurd h hstatus

/-! ## An answer that escapes -/

def nullAnswer : BackendResponse := ⟨200, Encoding.encode (points "null"), []⟩

theorem recover_null :
    prepare searchMediator searchRequest correlated mcpServer =
        .ok (⟨"r1", "udp", "urban.search", "c1"⟩, searchCall) ∧
      recover searchMediator (fun _ => nullAnswer) searchRequest correlated mcpServer =
        .error .typeError ∧
      ¬ Promised searchMediator.floats "r1"
        (recover searchMediator (fun _ => nullAnswer) searchRequest correlated mcpServer) := by
  have hloads : loads searchMediator.floats searchMediator.recursionLimit nullAnswer.body =
      .ok .null := rfl
  have hraised : recover searchMediator (fun _ => nullAnswer) searchRequest correlated mcpServer =
      .error .typeError := by
    rw [recover_eq prepare_search]
    unfold normalizeAnswer
    rw [if_neg (by decide), if_neg (by decide), hloads]
    rfl
  refine ⟨prepare_search, hraised, ?_⟩
  rw [hraised]
  rintro (⟨r, e, hr, -⟩ | ⟨status, code, detail, hr, -⟩) <;> cases hr

theorem recover_total_noDispatch :
    Promised searchMediator.floats "r1"
        (recover searchMediator (fun _ => noDispatch) searchRequest correlated mcpServer) ↔
      Tractable searchMediator "r1" noDispatch :=
  recover_total_iff prepare_search

end OufGateway.Recovery
