import Mathlib
import OufGateway.Lib.Except
import OufGateway.Lib.PyJsonFits
import OufGateway.Ref.Recovery

/-!
# What an owner's answer becomes

`evidenceOf` is taken apart once (`evidenceOf_ok`): what it gives is in normal form, and
every member the owner's dictionary has is in it unchanged. The way back is a
computation, since a normal form passes every check it has passed before
(`evidenceOf_members`); only two halves of a surrogate pair next to each other come back
as one code point, and are written the same again.

Where `recover` does neither answer nor refuse with a code of its own, the checks have
met a value they were not made for: no object where one is indexed, or a list or an
object where a set asks for its hash; or the reader has raised something else than
`JSONDecodeError`.
-/

namespace OufGateway.Recovery

open Lib CompileConfig PyJson
open Dispatch (TrustedIdentity BackendResponse)
open Encoding (Points)

variable {F : Type} {id : String} {e : Evidence} {v : Value F} {members : List (Points × Value F)}

/-! ## The normal form -/

structure Evidence.Normal (id : String) (e : Evidence) : Prop where
  backendRequestId : e.backendRequestId = points id
  outcome : e.outcome ∈ knownOutcomes.map points
  outcomeCode : e.outcomeCode.length ≤ 512
  resultRef : e.resultRef.length ≤ 512
  actualToolCalls : 0 ≤ e.actualToolCalls
  actualResultBytes : 0 ≤ e.actualResultBytes
  notDispatched : e.outcome = points "NOT_DISPATCHED" →
    e.outcomeCode = points "OWNER_PROVES_NO_DISPATCH" ∧ e.actualToolCalls = 0 ∧
      e.actualResultBytes = 0
  unknown : e.outcome = points "UNKNOWN" → e.actualToolCalls = 0 ∧ e.actualResultBytes = 0

/-- A field has its value, or is not there and has its default. -/
def Field (members : List (Points × Value F)) (key : String) (x default : Value F) : Prop :=
  (get? members key = none ∧ x = default) ∨ get? members key = some x

/-- What the owner's dictionary says, with the defaults. -/
structure Says (members : List (Points × Value F)) (e : Evidence) : Prop where
  allowed : ∀ m ∈ members, isAllowed m.1 = true
  backendRequestId : get? members "BackendRequestID" = some (.str e.backendRequestId)
  outcome : get? members "Outcome" = some (.str e.outcome)
  outcomeCode : Field members "OutcomeCode" (.str e.outcomeCode) (.str [])
  resultRef : Field members "ResultRef" (.str e.resultRef) (.str [])
  actualToolCalls : Field members "ActualToolCalls" (.int e.actualToolCalls) (.int 0)
  actualResultBytes : Field members "ActualResultBytes" (.int e.actualResultBytes) (.int 0)

theorem matching_ok (h : matching id v = .ok members) : v = .obj members ∧
    (∀ m ∈ members, isAllowed m.1 = true) ∧
      get? members "BackendRequestID" = some (.str (points id)) := by
  obtain ⟨others, hothers, h⟩ := bind_eq_ok.mp h
  split at h
  · cases h
  · next hnone =>
    split at h
    · next members' =>
      split at h
      · next hid =>
        obtain rfl := Except.ok.inj h
        refine ⟨rfl, fun m hm => ?_, ?_⟩
        · obtain rfl := Except.ok.inj hothers
          by_contra hm'
          exact hnone (List.any_eq_true.mpr ⟨m, hm, by simpa using hm'⟩)
        · unfold isString at hid
          split at hid
          · next t ht => rw [ht, of_decide_eq_true hid]
          · cases hid
      · cases h
    · cases h

theorem outcomeOf_ok {s : Points} (h : outcomeOf members = .ok s) :
    get? members "Outcome" = some (.str s) ∧ s ∈ knownOutcomes.map points := by
  unfold outcomeOf at h
  split at h
  · next t ht =>
    split at h
    · next hknown =>
      obtain rfl := Except.ok.inj h
      obtain ⟨k, hk, heq⟩ := List.any_eq_true.mp hknown
      exact ⟨ht, List.mem_map.mpr ⟨k, hk, of_decide_eq_true heq⟩⟩
    · cases h
  · cases h
  · cases h
  · cases h

theorem metadataOf_ok {field : String} {s : Points} (h : metadataOf members field = .ok s) :
    s.length ≤ 512 ∧ Field members field (.str s) (.str []) := by
  unfold metadataOf at h
  split at h
  · next hnone =>
    obtain rfl := Except.ok.inj h
    exact ⟨Nat.zero_le _, Or.inl ⟨hnone, rfl⟩⟩
  · next t ht =>
    split at h
    · cases h
    · next hshort =>
      obtain rfl := Except.ok.inj h
      exact ⟨not_lt.mp hshort, Or.inr ht⟩
  · cases h

theorem costOf_ok {field : String} {n : Int} (h : costOf members field = .ok n) :
    0 ≤ n ∧ Field members field (.int n) (.int 0) := by
  unfold costOf at h
  split at h
  · next hnone =>
    obtain rfl := Except.ok.inj h
    exact ⟨le_rfl, Or.inl ⟨hnone, rfl⟩⟩
  · next m hm =>
    split at h
    · cases h
    · next hneg =>
      obtain rfl := Except.ok.inj h
      exact ⟨not_lt.mp hneg, Or.inr hm⟩
  · cases h

theorem checkOutcome_ok (h : checkOutcome e = .ok ()) :
    (e.outcome = points "NOT_DISPATCHED" →
      e.outcomeCode = points "OWNER_PROVES_NO_DISPATCH" ∧ e.free = true) ∧
    (e.outcome = points "UNKNOWN" → e.free = true) := by
  obtain ⟨hnot, h⟩ := guard_eq_ok.mp h
  obtain ⟨hunknown, -⟩ := guard_eq_ok.mp h
  exact ⟨fun ho => not_not.mp fun hn => hnot ⟨ho, hn⟩,
    fun ho => not_not.mp fun hn => hunknown ⟨ho, hn⟩⟩

theorem free_iff : e.free = true ↔ e.actualToolCalls = 0 ∧ e.actualResultBytes = 0 := by
  simp [Evidence.free]

theorem evidenceOf_ok (h : evidenceOf id v = .ok e) :
    ∃ members, v = .obj members ∧ Says members e ∧ e.Normal id := by
  obtain ⟨members, hmatching, h⟩ := bind_eq_ok.mp h
  obtain ⟨outcome, houtcome, h⟩ := bind_eq_ok.mp h
  obtain ⟨code, hcode, h⟩ := bind_eq_ok.mp h
  obtain ⟨ref, href, h⟩ := bind_eq_ok.mp h
  obtain ⟨calls, hcalls, h⟩ := bind_eq_ok.mp h
  obtain ⟨bytes, hbytes, h⟩ := bind_eq_ok.mp h
  obtain ⟨_, hcheck, h⟩ := bind_eq_ok.mp h
  obtain rfl := Except.ok.inj h
  obtain ⟨rfl, hallowed, hid⟩ := matching_ok hmatching
  obtain ⟨hgiven, hknown⟩ := outcomeOf_ok houtcome
  obtain ⟨hcodeShort, hcodeGiven⟩ := metadataOf_ok hcode
  obtain ⟨hrefShort, hrefGiven⟩ := metadataOf_ok href
  obtain ⟨hcallsPos, hcallsGiven⟩ := costOf_ok hcalls
  obtain ⟨hbytesPos, hbytesGiven⟩ := costOf_ok hbytes
  obtain ⟨hnot, hunknown⟩ := checkOutcome_ok hcheck
  refine ⟨members, rfl, ⟨hallowed, hid, hgiven, hcodeGiven, hrefGiven, hcallsGiven, hbytesGiven⟩,
    ⟨rfl, hknown, hcodeShort, hrefShort, hcallsPos, hbytesPos, fun ho => ?_, fun ho => ?_⟩⟩
  · obtain ⟨hproof, hfree⟩ := hnot ho
    exact ⟨hproof, free_iff.mp hfree⟩
  · exact free_iff.mp (hunknown ho)

/-! ## Members -/

theorem mem_of_get? {key : String} {x : Value F} (h : get? members key = some x) :
    (points key, x) ∈ members := by
  obtain ⟨m, hfind, rfl⟩ := Option.map_eq_some_iff.mp h
  have hkey := List.find?_some hfind
  have hmem := List.mem_of_find?_eq_some hfind
  rw [← of_decide_eq_true hkey]
  exact hmem

theorem get?_of_mem {key : String} {x : Value F} (hnodup : (members.map (·.1)).Nodup)
    (h : (points key, x) ∈ members) : get? members key = some x := by
  unfold get?
  obtain ⟨m, hm⟩ : ∃ m, members.find? (·.1 = points key) = some m := by
    rw [← Option.isSome_iff_exists, List.find?_isSome]
    exact ⟨_, h, decide_eq_true rfl⟩
  have hkey : m.1 = points key := of_decide_eq_true (List.find?_some hm :)
  have hsame : m = (points key, x) :=
    List.inj_on_of_nodup_map hnodup (List.mem_of_find?_eq_some hm) h hkey
  rw [hm, hsame]
  rfl

theorem Field.eq {key : String} {x y default : Value F} (h : Field members key x default)
    (hy : get? members key = some y) : y = x := by
  rcases h with ⟨hnone, -⟩ | hsome
  · rw [hnone] at hy
    cases hy
  · rw [hsome] at hy
    exact (Option.some.inj hy).symm

/-- Whatever the owner has given is there unchanged. -/
theorem Says.preserved (h : Says members e) (hnodup : (members.map (·.1)).Nodup) :
    ∀ m ∈ members, m ∈ (e.members : List (Points × Value F)) := by
  rintro ⟨key, x⟩ hm
  obtain ⟨k, hk, hkey⟩ := List.any_eq_true.mp (h.allowed _ hm)
  obtain rfl := of_decide_eq_true hkey
  have hget := get?_of_mem hnodup hm
  have hsame : ∀ {y : Value F}, get? members k = some y → x = y := by
    intro y hy
    rw [hget] at hy
    exact Option.some.inj hy
  simp only [Recovery.allowed, List.mem_cons, List.not_mem_nil, or_false] at hk
  rcases hk with rfl | rfl | rfl | rfl | rfl | rfl
  · rw [hsame h.backendRequestId]
    simp [Evidence.members]
  · rw [hsame h.outcome]
    simp [Evidence.members]
  · rw [h.outcomeCode.eq hget]
    simp [Evidence.members]
  · rw [h.resultRef.eq hget]
    simp [Evidence.members]
  · rw [h.actualToolCalls.eq hget]
    simp [Evidence.members]
  · rw [h.actualResultBytes.eq hget]
    simp [Evidence.members]

/-! ## The way back -/

theorem get?_members (e : Evidence) :
    get? (e.members : List (Points × Value F)) "BackendRequestID" = some (.str e.backendRequestId) ∧
      get? (e.members : List (Points × Value F)) "Outcome" = some (.str e.outcome) ∧
      get? (e.members : List (Points × Value F)) "OutcomeCode" = some (.str e.outcomeCode) ∧
      get? (e.members : List (Points × Value F)) "ResultRef" = some (.str e.resultRef) ∧
      get? (e.members : List (Points × Value F)) "ActualToolCalls" = some (.int e.actualToolCalls) ∧
      get? (e.members : List (Points × Value F)) "ActualResultBytes" =
        some (.int e.actualResultBytes) :=
  ⟨rfl, rfl, rfl, rfl, rfl, rfl⟩

theorem matching_members (h : e.Normal id) :
    matching id (.obj (e.members : List (Points × Value F))) = .ok e.members := by
  have hothers : hasOthers (.obj (e.members : List (Points × Value F))) = .ok false := rfl
  have hid : isString id (get? (e.members : List (Points × Value F)) "BackendRequestID") = true := by
    rw [(get?_members e).1, h.backendRequestId]
    exact decide_eq_true rfl
  unfold matching
  rw [hothers]
  simp only [bind, Except.bind, Bool.false_eq_true, if_false, hid, if_true]

theorem checkOutcome_normal (h : e.Normal id) : checkOutcome e = .ok () := by
  unfold checkOutcome
  rw [if_neg, if_neg]
  · rintro ⟨ho, hfree⟩
    exact hfree (free_iff.mpr (h.unknown ho))
  · rintro ⟨ho, hproof⟩
    obtain ⟨hcode, hcosts⟩ := h.notDispatched ho
    exact hproof ⟨hcode, free_iff.mpr hcosts⟩

/-- What is in normal form passes every check, and stays as it is. -/
theorem evidenceOf_members (h : e.Normal id) :
    evidenceOf id (.obj (e.members : List (Points × Value F))) = .ok e := by
  obtain ⟨-, hget, hcode, href, hcalls, hbytes⟩ := get?_members (F := F) e
  have houtcome : outcomeOf (e.members : List (Points × Value F)) = .ok e.outcome := by
    obtain ⟨k, hk, heq⟩ := List.mem_map.mp h.outcome
    unfold outcomeOf
    rw [hget]
    exact if_pos (List.any_eq_true.mpr ⟨k, hk, decide_eq_true heq⟩)
  have hmetadata : ∀ {field : String} {s : Points}, s.length ≤ 512 →
      get? (e.members : List (Points × Value F)) field = some (.str s) →
        metadataOf (e.members : List (Points × Value F)) field = .ok s := by
    intro field s hshort hfield
    unfold metadataOf
    rw [hfield]
    exact if_neg (not_lt.mpr hshort)
  have hcost : ∀ {field : String} {n : Int}, 0 ≤ n →
      get? (e.members : List (Points × Value F)) field = some (.int n) →
        costOf (e.members : List (Points × Value F)) field = .ok n := by
    intro field n hpos hfield
    unfold costOf
    rw [hfield]
    exact if_neg (not_lt.mpr hpos)
  unfold evidenceOf
  rw [matching_members h]
  simp only [bind, Except.bind, houtcome, hmetadata h.outcomeCode hcode, hmetadata h.resultRef href,
    hcost h.actualToolCalls hcalls, hcost h.actualResultBytes hbytes, ← h.backendRequestId]
  rw [checkOutcome_normal h]

/-- The evidence with the halves of pairs put together. -/
def Evidence.merged (e : Evidence) : Evidence :=
  { e with outcomeCode := merge e.outcomeCode, resultRef := merge e.resultRef }

theorem length_merge_le (s : Points) : (merge s).length ≤ s.length := by
  induction s using merge.induct with
  | case1 => exact Nat.le_refl _
  | case2 p => exact Nat.le_refl _
  | case3 p q s hpair ih =>
      rw [merge, if_pos hpair]
      simp only [List.length_cons]
      omega
  | case4 p q s hpair ih =>
      rw [merge, if_neg hpair]
      simp only [List.length_cons] at ih ⊢
      omega

theorem Evidence.Normal.merged (h : e.Normal id) : e.merged.Normal id where
  backendRequestId := h.backendRequestId
  outcome := h.outcome
  outcomeCode := (length_merge_le _).trans h.outcomeCode
  resultRef := (length_merge_le _).trans h.resultRef
  actualToolCalls := h.actualToolCalls
  actualResultBytes := h.actualResultBytes
  notDispatched ho := by
    obtain ⟨hcode, hcosts⟩ := h.notDispatched ho
    refine ⟨?_, hcosts⟩
    rw [Evidence.merged, hcode]
    exact merge_of_lt (by decide)
  unknown := h.unknown

/-- Strings and integers the writer takes. -/
structure Evidence.Written (e : Evidence) : Prop where
  backendRequestId : ∀ p ∈ e.backendRequestId, p < 55296
  outcome : ∀ p ∈ e.outcome, p < 55296
  outcomeCode : Valid e.outcomeCode
  resultRef : Valid e.resultRef
  actualToolCalls : (Nat.toDigits 10 e.actualToolCalls.natAbs).length ≤ 4300
  actualResultBytes : (Nat.toDigits 10 e.actualResultBytes.natAbs).length ≤ 4300

theorem keys_members (e : Evidence) :
    (e.members : List (Points × Value F)).map (·.1) = allowed.map points := rfl

theorem nodup_allowed : (allowed.map points).Nodup := by decide

theorem allowed_lt : ∀ k ∈ allowed.map points, ∀ p ∈ k, p < 55296 := by decide

theorem valid_of_lt {s : Points} (h : ∀ p ∈ s, p < 55296) : Valid s :=
  fun p hp => (h p hp).trans (by decide)

theorem fits_members {P : F → Prop} (h : e.Written) (depth : Nat) :
    Fits P (depth + 1) (.obj (e.members : List (Points × Value F))) := by
  refine .obj (fun m hm => ?_) (keys_members (F := F) e ▸ nodup_allowed) fun m hm => ?_
  · have hkey := List.mem_map_of_mem (f := (·.1)) hm
    rw [keys_members] at hkey
    exact valid_of_lt (allowed_lt _ hkey)
  · simp only [Evidence.members, List.mem_cons, List.not_mem_nil, or_false] at hm
    rcases hm with rfl | rfl | rfl | rfl | rfl | rfl
    · exact .str (valid_of_lt h.backendRequestId)
    · exact .str (valid_of_lt h.outcome)
    · exact .str h.outcomeCode
    · exact .str h.resultRef
    · exact .int h.actualToolCalls
    · exact .int h.actualResultBytes

theorem stored_members (floats : Floats F) (h : e.Written) :
    stored floats (.obj e.members) = .obj e.merged.members := by
  have hkey : ∀ {k : String}, k ∈ allowed → merge (points k) = points k :=
    fun hk => merge_of_lt (allowed_lt _ (List.mem_map_of_mem hk))
  have hmembers : storedMembers floats e.members = e.merged.members := by
    simp only [Evidence.members, storedMembers, stored, Evidence.merged,
      merge_of_lt h.backendRequestId, merge_of_lt h.outcome]
    rw [hkey (by decide), hkey (by decide), hkey (by decide), hkey (by decide), hkey (by decide),
      hkey (by decide)]
  rw [stored, hmembers, dict_of_nodup (keys_members (F := F) e.merged ▸ nodup_allowed)]

/-- Put together or not, the text is the same. -/
theorem body_merged (floats : Floats F) (h : e.Written) : e.merged.body floats = e.body floats := by
  simp only [Evidence.body, Evidence.members, write, writeMembers, Evidence.merged,
    quote_merge h.outcomeCode, quote_merge h.resultRef]

/-! ## How long it is -/

theorem length_quote_le (s : Points) : (quote s).length ≤ 12 * s.length + 2 := by
  have hflat : (s.flatMap escape).length ≤ 12 * s.length := by
    induction s with
    | nil => exact Nat.le_refl _
    | cons p s ih =>
        have hp := (length_escape p).2
        rw [List.flatMap_cons, List.length_append, List.length_cons]
        omega
  simp only [quote, List.length_append, List.length_cons, List.length_nil]
  omega

theorem length_int_le {n : Int} (h : (Nat.toDigits 10 n.natAbs).length ≤ 4300) :
    (points (toString n)).length ≤ 4301 := by
  have hsign : (JsonText.sign (decide (n < 0))).length ≤ 1 := by
    cases decide (n < 0) <;> decide
  rw [points, List.length_map, toList_int, List.length_append]
  omega

theorem length_body_le (floats : Floats F) (h : e.Written) (hnormal : e.Normal id)
    (hid : e.backendRequestId.length ≤ 129) : (e.body floats).length ≤ 65536 := by
  have hkey : ∀ k ∈ allowed.map points, (quote k).length ≤ 19 := by decide
  have houtcome : ∀ k ∈ knownOutcomes.map points, (quote k).length ≤ 16 := by decide
  have h1 := hkey (points "BackendRequestID") (by decide)
  have h2 := hkey (points "Outcome") (by decide)
  have h3 := hkey (points "OutcomeCode") (by decide)
  have h4 := hkey (points "ResultRef") (by decide)
  have h5 := hkey (points "ActualToolCalls") (by decide)
  have h6 := hkey (points "ActualResultBytes") (by decide)
  have hidLen := length_quote_le e.backendRequestId
  have houtcomeLen := houtcome e.outcome hnormal.outcome
  have hcodeLen := length_quote_le e.outcomeCode
  have hrefLen := length_quote_le e.resultRef
  have hcodeShort := hnormal.outcomeCode
  have hrefShort := hnormal.resultRef
  have hcallsLen := length_int_le h.actualToolCalls
  have hbytesLen := length_int_le h.actualResultBytes
  simp only [Evidence.body, Encoding.encode, List.length_map, write, writeMembers, Evidence.members,
    enclose, compact, commas, reduceCtorEq, if_false, List.nil_append, List.length_append,
    List.length_cons, List.length_nil]
  omega

/-! ## The request -/

variable {m : Mediator F} {owner : RecoveryCall → BackendResponse} {rawBody : List UInt8}
  {requestHeaders : List (String × String)} {i : TrustedIdentity} {r : BackendResponse}
  {request : Request} {call : RecoveryCall}

theorem string?_some {accepts : String → Bool} {s : String} (h : string? accepts v = some s) :
    accepts s = true := by
  unfold string? at h
  split at h
  · split at h
    · next haccepts =>
      obtain rfl := Option.some.inj h
      exact haccepts
    · cases h
  · cases h

theorem isBackendRequestId_of_prepare (h : prepare m rawBody requestHeaders i = .ok (request, call)) :
    isBackendRequestId request.backendRequestId = true := by
  obtain ⟨-, h⟩ := guard_eq_ok.mp h
  obtain ⟨request', hread, h⟩ := bind_eq_ok.mp h
  have hsame : request' = request := by
    split at h
    · cases h
    · obtain ⟨-, h⟩ := guard_eq_ok.mp h
      obtain ⟨-, h⟩ := guard_eq_ok.mp h
      exact (Prod.mk.inj (Except.ok.inj h)).1
  subst hsame
  unfold readRequest at hread
  split at hread
  · cases hread
  · cases hread
  · next v _ =>
    split at hread
    · cases hread
    · next request hvalue =>
      obtain rfl := Except.ok.inj hread
      unfold Request.ofValue? at hvalue
      split at hvalue
      · split at hvalue
        · obtain ⟨_, hid, hvalue⟩ := Option.bind_eq_some_iff.mp hvalue
          obtain ⟨_, -, hvalue⟩ := Option.bind_eq_some_iff.mp hvalue
          obtain ⟨_, -, hvalue⟩ := Option.bind_eq_some_iff.mp hvalue
          obtain ⟨_, -, hvalue⟩ := Option.bind_eq_some_iff.mp hvalue
          obtain rfl := Option.some.inj hvalue
          obtain ⟨_, -, hstring⟩ := Option.bind_eq_some_iff.mp hid
          exact string?_some hstring
        · cases hvalue
      · cases hvalue

theorem isIdChar_lt {c : Char} (h : isIdChar c = true) : c.toNat < 55296 := by
  rcases Bool.or_eq_true_iff.mp h with h | h
  · simp only [Char.isAlphanum, Char.isAlpha, Char.isUpper, Char.isLower, Char.isDigit,
      Bool.or_eq_true, Bool.and_eq_true, decide_eq_true_eq] at h
    rcases h with (h | h) | h
    · have hmost : c.toNat ≤ 90 := h.2
      omega
    · have hmost : c.toNat ≤ 122 := h.2
      omega
    · have hmost : c.toNat ≤ 57 := h.2
      omega
  · have hmem := List.contains_iff_mem.mp h
    simp only [List.mem_cons, List.not_mem_nil, or_false] at hmem
    rcases hmem with rfl | rfl | rfl | rfl <;> decide

/-- The characters of a text are those that `$` leaves, and a newline. -/
theorem mem_body {s : String} {c : Char} (h : c ∈ s.toList) : c ∈ Text.body s ∨ c = '\n' := by
  unfold Text.body
  split
  · next hlast =>
    have hsplit := List.dropLast_append_getLast? '\n' (by simpa using hlast)
    rw [← hsplit, List.mem_append] at h
    exact h.imp_right List.mem_singleton.mp
  · exact Or.inl h

theorem length_body (s : String) : s.toList.length ≤ (Text.body s).length + 1 := by
  unfold Text.body
  split
  · rw [List.length_dropLast]
    omega
  · omega

/-- An identifier is short, and in ASCII. -/
theorem points_id (h : isBackendRequestId id = true) :
    (points id).length ≤ 129 ∧ ∀ p ∈ points id, p < 55296 := by
  obtain ⟨hwholly, hshort⟩ := Bool.and_eq_true_iff.mp h
  have hshort := of_decide_eq_true hshort
  have hlength := length_body id
  have hall : ∀ c ∈ Text.body id, isIdChar c = true :=
    List.all_eq_true.mp (Bool.and_eq_true_iff.mp hwholly).2
  refine ⟨by rw [points, List.length_map]; omega, fun p hp => ?_⟩
  obtain ⟨c, hc, rfl⟩ := List.mem_map.mp hp
  rcases mem_body hc with hc | rfl
  · exact isIdChar_lt (hall c hc)
  · decide

/-! ## The round -/

theorem normalizeAnswer_ok (h : normalizeAnswer m id (owner call) = .ok r) :
    (owner call).status = 200 ∧ ∃ v e,
      loads m.floats m.recursionLimit (owner call).body = .ok v ∧ evidenceOf id v = .ok e ∧
        r = ⟨200, e.body m.floats, [("Content-Type", "application/json")]⟩ := by
  obtain ⟨hstatus, h⟩ := guard_eq_ok.mp h
  obtain ⟨-, h⟩ := guard_eq_ok.mp h
  split at h
  · cases h
  · cases h
  · next v hv =>
    cases he : evidenceOf id v with
    | error f =>
        rw [he] at h
        cases h
    | ok e =>
        rw [he] at h
        exact ⟨not_not.mp hstatus, v, e, hv, he, (Except.ok.inj h).symm⟩

theorem Field.written {P : Value F → Prop} {key : String} {x default : Value F}
    (h : Field members key x default) (hdefault : P default)
    (hmembers : ∀ m ∈ members, P m.2) : P x := by
  rcases h with ⟨-, rfl⟩ | hsome
  · exact hdefault
  · exact hmembers _ (mem_of_get? hsome)

/-- What was read is written without complaint. -/
theorem Says.written (h : Says members e) (hnormal : e.Normal id)
    (hid : isBackendRequestId id = true) {depth : Nat}
    (hmembers : ∀ m ∈ members, Readable depth m.2) : e.Written := by
  have hstring : ∀ {s : Points}, Readable (F := F) depth (.str s) → Valid s := by
    intro s hs
    cases hs with
    | str hs => exact hs
  have hint : ∀ {n : Int}, Readable (F := F) depth (.int n) →
      (Nat.toDigits 10 n.natAbs).length ≤ 4300 := by
    intro n hn
    cases hn with
    | int hn => exact hn
  have houtcome : ∀ k ∈ knownOutcomes.map points, ∀ p ∈ k, p < 55296 := by decide
  have hnil : Readable (F := F) depth (.str []) := .str fun p hp => absurd hp List.not_mem_nil
  have hzero : Readable (F := F) depth (.int 0) := .int (by decide)
  exact ⟨hnormal.backendRequestId ▸ (points_id hid).2, houtcome _ hnormal.outcome,
    hstring (h.outcomeCode.written hnil hmembers), hstring (h.resultRef.written hnil hmembers),
    hint (h.actualToolCalls.written hzero hmembers), hint (h.actualResultBytes.written hzero hmembers)⟩

theorem recover_eq (h : prepare m rawBody requestHeaders i = .ok (request, call)) :
    recover m owner rawBody requestHeaders i =
      normalizeAnswer m request.backendRequestId (owner call) := by
  unfold recover
  rw [h]
  rfl

theorem recover_ok (h : recover m owner rawBody requestHeaders i = .ok r) :
    ∃ request call, prepare m rawBody requestHeaders i = .ok (request, call) ∧
      normalizeAnswer m request.backendRequestId (owner call) = .ok r := by
  obtain ⟨⟨request, call⟩, hprepare, h⟩ := bind_eq_ok.mp h
  exact ⟨request, call, hprepare, h⟩

/-- Evidence in normal form that is sent back is accepted and comes out the same. -/
theorem normalizeAnswer_body (hnormal : e.Normal id) (hwritten : e.Written)
    (hid : isBackendRequestId id = true) (hlimit : 0 < m.recursionLimit) (hstatus : r.status = 200)
    (hbody : r.body = e.body m.floats) :
    loads m.floats m.recursionLimit r.body = .ok (.obj e.merged.members) ∧
      normalizeAnswer m id r =
        .ok ⟨200, e.body m.floats, [("Content-Type", "application/json")]⟩ := by
  obtain ⟨depth, hdepth⟩ := Nat.exists_eq_add_of_le' hlimit
  have hloads : loads m.floats m.recursionLimit r.body = .ok (.obj e.merged.members) := by
    rw [hbody, Evidence.body, hdepth, loads_write m.floats blanks_compact (fits_members hwritten depth),
      stored_members m.floats hwritten]
  have hlength : r.body.length ≤ 65536 := by
    rw [hbody]
    refine length_body_le m.floats hwritten hnormal ?_
    rw [hnormal.backendRequestId]
    exact (points_id hid).1
  refine ⟨hloads, ?_⟩
  unfold normalizeAnswer
  rw [if_neg (not_not.mpr hstatus), if_neg (not_lt.mpr hlength), hloads]
  simp only [evidenceOf_members hnormal.merged, Except.map, body_merged m.floats hwritten]

/-- Whatever `recover` answers is evidence in normal form, with every field the owner gave,
and the same bytes come out when the owner sends them back. -/
theorem recover_normal_form (h : recover m owner rawBody requestHeaders i = .ok r) :
    ∃ (request : Request) (call : RecoveryCall) (members : List (Points × Value F)) (e : Evidence),
      prepare m rawBody requestHeaders i = .ok (request, call) ∧
      loads m.floats m.recursionLimit (owner call).body = .ok (.obj members) ∧
      r = ⟨200, e.body m.floats, [("Content-Type", "application/json")]⟩ ∧
      e.Normal request.backendRequestId ∧ (∀ field ∈ members, field ∈ e.members) ∧
      loads m.floats m.recursionLimit r.body = .ok (.obj e.merged.members) ∧
      e.merged.Normal request.backendRequestId ∧
      ∀ owner' : RecoveryCall → BackendResponse, (owner' call).status = 200 →
        (owner' call).body = r.body → recover m owner' rawBody requestHeaders i = .ok r := by
  obtain ⟨request, call, hprepare, hanswer⟩ := recover_ok h
  have hid := isBackendRequestId_of_prepare hprepare
  obtain ⟨-, v, e, hloads, he, rfl⟩ := normalizeAnswer_ok hanswer
  obtain ⟨members, rfl, hsays, hnormal⟩ := evidenceOf_ok he
  obtain ⟨depth, hdepth, -, hnodup, hmembers⟩ := (readable_of_loads hloads).members
  have hwritten := hsays.written hnormal hid hmembers
  have hpos : 0 < m.recursionLimit := hdepth ▸ Nat.succ_pos depth
  have hback : ∀ {r' : BackendResponse}, r'.status = 200 → r'.body = e.body m.floats → _ :=
    fun hstatus hbody => normalizeAnswer_body hnormal hwritten hid hpos hstatus hbody
  refine ⟨request, call, members, e, hprepare, hloads, rfl, hnormal, hsays.preserved hnodup,
    (hback rfl rfl).1, hnormal.merged, fun owner' hstatus hbody => ?_⟩
  unfold recover
  rw [hprepare]
  exact (hback hstatus hbody).2

/-! ## A recovery -/

/-- Floats by their texts. -/
def byText : Floats (List Char) where
  ofText text := text
  nan := "NaN".toList
  inf := "Infinity".toList
  negInf := "-Infinity".toList
  text x := x

/-- A mediator with one binding. -/
def searchMediator : Mediator (List Char) where
  floats := byText
  recursionLimit := 200
  message _ := "'x' does not match"
  serviceIdentity := "ouf-mcp-server"
  bindings := [("urban.search",
    ⟨"udp", "ouf-udp", "/outcomes/\x7bbackendRequestId\x7d"⟩,
    ⟨.m2m, some ["ouf-mcp-server"], some [], none, none, 1024, 3⟩)]

def mcpServer : TrustedIdentity :=
  ⟨"ouf-mcp-server", "agent-1", "tenant-1", "MCP_SERVER", "authn-1", "decision-1",
    ["mcp.attempt.recover"]⟩

def searchRequest : List UInt8 := Encoding.encode (points
  ("\x7b\"BackendRequestID\":\"r1\",\"Owner\":\"udp\",\"CapabilityID\":\"urban.search\"," ++
    "\"CorrelationID\":\"c1\"\x7d"))

def correlated : List (String × String) := [("X-Correlation-ID", "c1")]

def searchCall : RecoveryCall where
  service := "ouf-udp"
  path := "/outcomes/r1".toList
  headers := [("Accept", "application/json"), ("X-Correlation-ID", "c1"),
    ("X-OUF-Capability-ID", "urban.search"), ("X-OUF-Recovery-For", "r1")]
  timeoutSeconds := 3

set_option maxRecDepth 20000 in
theorem loads_searchRequest : loads byText 200 searchRequest =
    .ok (.obj [(points "BackendRequestID", .str (points "r1")),
      (points "Owner", .str (points "udp")), (points "CapabilityID", .str (points "urban.search")),
      (points "CorrelationID", .str (points "c1"))]) := rfl

theorem prepare_search : prepare searchMediator searchRequest correlated mcpServer =
    .ok (⟨"r1", "udp", "urban.search", "c1"⟩, searchCall) := by
  have hread : readRequest searchMediator searchRequest =
      .ok ⟨"r1", "udp", "urban.search", "c1"⟩ := by
    unfold readRequest
    rw [show searchMediator.floats = byText from rfl,
      show searchMediator.recursionLimit = 200 from rfl, loads_searchRequest]
    rfl
  unfold prepare
  rw [if_neg (by decide), hread]
  rfl

/-- Proof of no dispatch, as the owner sends it. -/
def noDispatch : BackendResponse where
  status := 200
  body := Encoding.encode (points ("\x7b\"BackendRequestID\": \"r1\", " ++
    "\"Outcome\": \"NOT_DISPATCHED\", \"OutcomeCode\": \"OWNER_PROVES_NO_DISPATCH\"\x7d"))
  headers := []

def noDispatchEvidence : Evidence :=
  ⟨points "r1", points "NOT_DISPATCHED", points "OWNER_PROVES_NO_DISPATCH", [], 0, 0⟩

set_option maxRecDepth 20000 in
theorem loads_noDispatch : loads byText 200 noDispatch.body =
    .ok (.obj [(points "BackendRequestID", .str (points "r1")),
      (points "Outcome", .str (points "NOT_DISPATCHED")),
      (points "OutcomeCode", .str (points "OWNER_PROVES_NO_DISPATCH"))]) := rfl

theorem evidenceOf_noDispatch :
    evidenceOf (F := List Char) "r1" (.obj [(points "BackendRequestID", .str (points "r1")),
      (points "Outcome", .str (points "NOT_DISPATCHED")),
      (points "OutcomeCode", .str (points "OWNER_PROVES_NO_DISPATCH"))]) =
        .ok noDispatchEvidence := rfl

theorem normalizeAnswer_noDispatch : normalizeAnswer searchMediator "r1" noDispatch =
    .ok ⟨200, noDispatchEvidence.body byText, [("Content-Type", "application/json")]⟩ := by
  have hread : loads searchMediator.floats searchMediator.recursionLimit noDispatch.body =
      .ok (.obj _) := loads_noDispatch
  unfold normalizeAnswer
  rw [if_neg (by decide), if_neg (by decide), hread]
  simp only [evidenceOf_noDispatch, Except.map]
  rfl

theorem recover_noDispatch :
    recover searchMediator (fun _ => noDispatch) searchRequest correlated mcpServer =
      .ok ⟨200, noDispatchEvidence.body byText, [("Content-Type", "application/json")]⟩ := by
  rw [recover_eq prepare_search]
  exact normalizeAnswer_noDispatch

theorem recover_normal_noDispatch :
    ∃ (request : Request) (call : RecoveryCall) (members : List (Points × Value (List Char)))
      (e : Evidence),
      prepare searchMediator searchRequest correlated mcpServer = .ok (request, call) ∧
      loads searchMediator.floats searchMediator.recursionLimit noDispatch.body =
        .ok (.obj members) ∧
      (⟨200, noDispatchEvidence.body byText, [("Content-Type", "application/json")]⟩ :
          BackendResponse) =
        ⟨200, e.body searchMediator.floats, [("Content-Type", "application/json")]⟩ ∧
      e.Normal request.backendRequestId ∧ (∀ field ∈ members, field ∈ e.members) ∧
      loads searchMediator.floats searchMediator.recursionLimit (noDispatchEvidence.body byText) =
        .ok (.obj e.merged.members) ∧
      e.merged.Normal request.backendRequestId ∧
      ∀ owner' : RecoveryCall → BackendResponse, (owner' call).status = 200 →
        (owner' call).body = noDispatchEvidence.body byText →
          recover searchMediator owner' searchRequest correlated mcpServer =
            .ok ⟨200, noDispatchEvidence.body byText, [("Content-Type", "application/json")]⟩ :=
  recover_normal_form recover_noDispatch

end OufGateway.Recovery
