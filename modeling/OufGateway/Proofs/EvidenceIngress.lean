import Mathlib
import OufGateway.Proofs.RecoveryAnswer
import OufGateway.Ref.EvidenceIngress

/-!
# When two bodies of evidence are one

The inbox knows evidence by its bytes. What it reads in them is the submission again, but
for the halves of surrogate pairs that have come together (`stored_canonical`), so two
submissions have the same bytes exactly when they are `Alike`: the same fields, the same
hashes in any order, the count in the same type.

Whether two submissions are the same evidence is another question (`Same`), and it parts
from the first in two places. A count of `1` and one of `1.0` are the same number, and both
are integers for the schema; the mediator writes each as it was read. And two strings that
differ in nothing but halves of pairs, joined in one and not in the other, are written alike.
`Apart` says that neither happens. The owner in the text is the workload's in any case.
-/

namespace OufGateway.EvidenceIngress

open Lib CompileConfig PyJson
open Dispatch (TrustedIdentity BackendResponse)
open Recovery (Raised refuse get? text correlationOf mem_body)
open Encoding (Points)

variable {F : Type} {m : Mediator F} {s : Submission F} {v : Value F} {rawBody : List UInt8}
  {requestHeaders : List (String × String)} {i : TrustedIdentity} {call : EvidenceCall}

/-! ## What is forwarded -/

theorem vet_ok (h : vet m rawBody requestHeaders i = .ok call) :
    ∃ owner s, ownerOf i = some owner ∧ readSubmission m rawBody = .ok s ∧
      call.body = Encoding.encode (write m.floats compact 0 (canonical owner s)) := by
  unfold vet at h
  split at h
  · cases h
  · next owner howner =>
    obtain ⟨-, h⟩ := guard_eq_ok.mp h
    obtain ⟨s, hs, h⟩ := bind_eq_ok.mp h
    obtain ⟨_, -, h⟩ := bind_eq_ok.mp h
    obtain ⟨_, -, h⟩ := bind_eq_ok.mp h
    obtain ⟨_, -, h⟩ := bind_eq_ok.mp h
    obtain ⟨-, h⟩ := guard_eq_ok.mp h
    obtain rfl := Except.ok.inj h
    exact ⟨owner, s, (Option.filter_eq_some_iff.mp howner).1, hs, rfl⟩

/-! ## What was read -/

/-- Plain text: no half of a surrogate pair can be in it. -/
def Plain (s : Points) : Prop := ∀ p ∈ s, p < 55296

theorem Plain.merge {s : Points} (h : Plain s) : merge s = s := merge_of_lt h

theorem Plain.valid {s : Points} (h : Plain s) : Valid s := fun p hp => (h p hp).trans (by decide)

/-- A string is plain when its characters are, the one that stands for half a pair apart. -/
theorem plain_of_text {s : Points} (h : ∀ c ∈ (text s).toList, c.toNat < 55296 ∧ c ≠ '\x00') :
    Plain s := by
  intro p hp
  have hmem : Char.ofNat p ∈ (text s).toList := by
    rw [text, String.toList_ofList]
    exact List.mem_map_of_mem hp
  obtain ⟨hlt, hzero⟩ := h _ hmem
  by_cases hvalid : p.isValidChar
  · have hp' : (Char.ofNat p).toNat = p := by
      rw [Char.toNat_ofNat, if_pos hvalid]
    omega
  · refine absurd ?_ hzero
    rw [Char.ofNat, dif_neg hvalid]
    rfl

theorem plain_id {s : Points} (h : isBackendRequestId (text s) = true) : Plain s := by
  refine plain_of_text fun c hc => ?_
  have hall : ∀ c ∈ Text.body (text s), Recovery.isIdChar c = true :=
    List.all_eq_true.mp (Bool.and_eq_true_iff.mp (Bool.and_eq_true_iff.mp h).1).2
  rcases mem_body hc with hc | rfl
  · refine ⟨Recovery.isIdChar_lt (hall c hc), ?_⟩
    rintro rfl
    exact absurd (hall _ hc) (by decide)
  · decide

theorem isAlphanum_lt {c : Char} (h : c.isAlphanum = true) : c.toNat < 55296 ∧ c ≠ '\x00' := by
  have hid : Recovery.isIdChar c = true := by
    rw [Recovery.isIdChar, h, Bool.true_or]
  refine ⟨Recovery.isIdChar_lt hid, ?_⟩
  rintro rfl
  exact absurd h (by decide)

theorem isDigestChar_lt {c : Char} (h : isDigestChar c = true) : c.toNat < 55296 ∧ c ≠ '\x00' := by
  simp only [isDigestChar, Bool.or_eq_true, decide_eq_true_eq] at h
  rcases h with (h | rfl) | rfl
  · exact isAlphanum_lt h
  · decide
  · decide

theorem plain_hash {s : Points} (h : isObjectHash (text s) = true) : Plain s := by
  have hbody : ∀ c ∈ Text.body (text s), c.toNat < 55296 ∧ c ≠ '\x00' := by
    unfold isObjectHash at h
    split at h
    · cases h
    · next d cs hcs =>
      simp only [Bool.and_eq_true, decide_eq_true_eq, List.any_eq_true] at h
      obtain ⟨⟨rfl, -⟩, mark, hmark, hpre, hdigest⟩ := h
      obtain ⟨rest, hrest⟩ := List.isPrefixOf_iff_prefix.mp hpre
      have hdrop : (cs.dropWhile Char.isDigit).drop mark.length = rest := by
        rw [← hrest, List.drop_left]
      rw [hdrop] at hdigest
      have hall := List.all_eq_true.mp (Bool.and_eq_true_iff.mp hdigest).1
      have hmarks : (digestMarks.all fun mark => mark.all fun c => isDigestChar c || c = ':') =
          true := by decide
      intro c hc
      rw [hcs, List.mem_cons, ← List.takeWhile_append_dropWhile (p := Char.isDigit) (l := cs),
        List.mem_append, ← hrest, List.mem_append] at hc
      rcases hc with rfl | hc | hc | hc
      · decide
      · have hdigit : c.isDigit = true := List.mem_takeWhile_imp hc
        exact isAlphanum_lt (by rw [Char.isAlphanum, hdigit, Bool.or_true])
      · have hchar := List.all_eq_true.mp (List.all_eq_true.mp hmarks mark hmark) c hc
        rcases Bool.or_eq_true_iff.mp hchar with hchar | hcolon
        · exact isDigestChar_lt hchar
        · rw [of_decide_eq_true hcolon]
          decide
      · exact isDigestChar_lt (hall c hc)
  refine plain_of_text fun c hc => ?_
  rcases mem_body hc with hc | rfl
  · exact hbody c hc
  · decide

/-- What the schema says of a submission, and the reader. -/
structure Admitted (m : Mediator F) (s : Submission F) : Prop where
  backendRequestId : Plain s.backendRequestId
  outcomeCode : Valid s.outcomeCode
  reference : Valid s.reference
  objectHashes : ∀ item ∈ s.objectHashes, Plain item
  nodup : s.objectHashes.Nodup
  int : ∀ n, s.actualDistinctObjects = .int n → (Nat.toDigits 10 n.natAbs).length ≤ 4300
  float : ∀ x, s.actualDistinctObjects = .float x → (m.whole x).isSome = true
  limit : ∃ depth, m.recursionLimit = depth + 2

theorem stringMatching_some {accepts : String → Bool} {s : Points}
    (h : stringMatching accepts v = some s) : v = .str s ∧ accepts (text s) = true := by
  unfold stringMatching at h
  split at h
  · split at h
    · next haccepts =>
      obtain rfl := Option.some.inj h
      exact ⟨rfl, haccepts⟩
    · cases h
  · cases h

theorem stringBetween_some {least most : Nat} {s : Points} (h : stringBetween least most v = some s) :
    v = .str s := by
  unfold stringBetween at h
  split at h
  · split at h
    · obtain rfl := Option.some.inj h
      rfl
    · cases h
  · cases h

theorem valid_of_readable {limit : Nat} {s : Points} (h : Readable (F := F) limit (.str s)) :
    Valid s := by
  cases h with
  | str h => exact h

theorem optional_some {α : Type} {read : Value F → Option α} {x : Option (Value F)} {r : Option α}
    (h : optional read x = some r) :
    r = none ∨ ∃ v a, r = some a ∧ x = some v ∧ read v = some a := by
  cases x with
  | none =>
      obtain rfl := Option.some.inj h
      exact Or.inl rfl
  | some v =>
      obtain ⟨a, ha, rfl⟩ := Option.map_eq_some_iff.mp h
      exact Or.inr ⟨v, a, rfl, rfl, ha⟩

theorem count_some {whole : F → Option Int} {count : Count F} {limit : Nat}
    (h : count? whole v = some count) (hv : Readable limit v) :
    (∀ n, count = .int n → (Nat.toDigits 10 n.natAbs).length ≤ 4300) ∧
      ∀ x, count = .float x → (whole x).isSome = true := by
  unfold count? at h
  split at h
  · split at h
    · obtain rfl := Option.some.inj h
      refine ⟨fun n hn => ?_, fun x hx => ?_⟩
      · obtain rfl := Count.int.inj hn
        cases hv with
        | int hv => exact hv
      · cases hx
    · cases h
  · obtain ⟨n, hn, rfl⟩ := Option.map_eq_some_iff.mp h
    refine ⟨fun n hn => ?_, fun x hx => ?_⟩
    · cases hn
    · obtain rfl := Count.float.inj hx
      exact Option.isSome_of_mem (Option.filter_eq_some_iff.mp hn).1
  · cases h

theorem mapM_some {α β : Type} {f : α → Option β} {xs : List α} {ys : List β}
    (h : xs.mapM f = some ys) : ∀ y ∈ ys, ∃ x ∈ xs, f x = some y := by
  induction xs generalizing ys with
  | nil =>
      obtain rfl := Option.some.inj h
      exact fun y hy => absurd hy List.not_mem_nil
  | cons x xs ih =>
      rw [List.mapM_cons] at h
      obtain ⟨y, hy, h⟩ := Option.bind_eq_some_iff.mp h
      obtain ⟨ys', hys, h⟩ := Option.bind_eq_some_iff.mp h
      obtain rfl := Option.some.inj h
      intro z hz
      rcases List.mem_cons.mp hz with rfl | hz
      · exact ⟨x, List.mem_cons_self, hy⟩
      · obtain ⟨x', hx', hf⟩ := ih hys z hz
        exact ⟨x', List.mem_cons_of_mem x hx', hf⟩

theorem objectHashes_some {hashes : List Points} {limit : Nat} (h : objectHashes? v = some hashes)
    (hv : Readable limit v) :
    (∀ item ∈ hashes, Plain item) ∧ hashes.Nodup ∧ ∃ depth, limit = depth + 1 := by
  unfold objectHashes? at h
  split at h
  · obtain ⟨hashes', hmap, h⟩ := Option.bind_eq_some_iff.mp h
    split at h
    · next hlimits =>
      obtain rfl := Option.some.inj h
      refine ⟨fun item hitem => ?_, hlimits.2, ?_⟩
      · obtain ⟨x, -, hx⟩ := mapM_some hmap item hitem
        exact plain_hash (stringMatching_some hx).2
      · cases hv with
        | arr _ => exact ⟨_, rfl⟩
    · cases h
  · cases h

theorem admitted_of_read (h : readSubmission m rawBody = .ok s) : Admitted m s := by
  unfold readSubmission at h
  split at h
  · cases h
  · cases h
  · next v hv =>
    split at h
    · cases h
    · next s' hs =>
      obtain rfl := Except.ok.inj h
      unfold Submission.ofValue? at hs
      split at hs
      · next members =>
        split at hs
        · obtain ⟨depth, hdepth, -, -, hmembers⟩ := (readable_of_loads hv).members
          have hget : ∀ {key : String} {x : Value F}, get? members key = some x → Readable depth x :=
            fun h => hmembers _ (Recovery.mem_of_get? h)
          obtain ⟨owner, -, hs⟩ := Option.bind_eq_some_iff.mp hs
          obtain ⟨id, hid, hs⟩ := Option.bind_eq_some_iff.mp hs
          obtain ⟨kind, -, hs⟩ := Option.bind_eq_some_iff.mp hs
          obtain ⟨state, -, hs⟩ := Option.bind_eq_some_iff.mp hs
          obtain ⟨code, hcode, hs⟩ := Option.bind_eq_some_iff.mp hs
          obtain ⟨ref, href, hs⟩ := Option.bind_eq_some_iff.mp hs
          obtain ⟨count, hcount, hs⟩ := Option.bind_eq_some_iff.mp hs
          obtain ⟨hashes, hhashes, hs⟩ := Option.bind_eq_some_iff.mp hs
          obtain rfl := Option.some.inj hs
          obtain ⟨x, hx, hid⟩ := Option.bind_eq_some_iff.mp hid
          obtain ⟨y, hy, hcode⟩ := Option.bind_eq_some_iff.mp hcode
          obtain ⟨z, hz, hcount⟩ := Option.bind_eq_some_iff.mp hcount
          obtain ⟨w, hw, hhashes⟩ := Option.bind_eq_some_iff.mp hhashes
          obtain ⟨hall, hnodup, hdeep⟩ := objectHashes_some hhashes (hget hw)
          obtain ⟨hint, hfloat⟩ := count_some hcount (hget hz)
          have hreference : Valid (ref.getD []) := by
            rcases optional_some href with rfl | ⟨u, r, rfl, hu, hr⟩
            · exact fun p hp => absurd hp List.not_mem_nil
            · obtain rfl := stringBetween_some hr
              exact valid_of_readable (hget hu)
          refine ⟨plain_id (stringMatching_some hid).2, ?_, hreference, hall, hnodup, hint, hfloat, ?_⟩
          · obtain rfl := stringBetween_some hcode
            exact valid_of_readable (hget hy)
          · obtain ⟨inner, rfl⟩ := hdeep
            exact ⟨inner, hdepth⟩
        · cases hs
      · cases hs

/-! ## The canonical text -/

/-- The floats that are whole numbers are read again where they were written. -/
def Mediator.Exact (m : Mediator F) : Prop :=
  ∀ x, (m.whole x).isSome = true → RoundTrips m.floats x

theorem mem_sorted {items : List Points} {item : Points} : item ∈ sorted items ↔ item ∈ items :=
  List.mem_mergeSort

theorem fits_count (hexact : m.Exact) (h : Admitted m s) (limit : Nat) :
    Fits (FloatText m.floats) limit s.actualDistinctObjects.toValue := by
  cases hcount : s.actualDistinctObjects with
  | int n => exact .int (h.int n hcount)
  | float x => exact .float (hexact x (h.float x hcount)).text

theorem plain_points_of {t : String} (h : t.toList.all (fun c => c.toNat < 55296) = true) :
    Plain (points t) := by
  intro p hp
  obtain ⟨c, hc, rfl⟩ := List.mem_map.mp hp
  exact of_decide_eq_true (List.all_eq_true.mp h c hc)

theorem plain_kind (k : Kind) : Plain (points k.text) := by
  cases k <;> exact plain_points_of (by decide)

theorem plain_terminalState (t : TerminalState) : Plain (points t.text) := by
  cases t <;> exact plain_points_of (by decide)

theorem plain_owner {owner : String} (h : ownerOf i = some owner) : Plain (points owner) := by
  obtain ⟨e, he, rfl⟩ := Option.map_eq_some_iff.mp h
  have hmem := List.mem_of_find?_eq_some he
  simp only [ownerByService, List.mem_singleton] at hmem
  subst hmem
  exact plain_points_of (by decide)

def canonicalKeys : List String :=
  ["ActualDistinctObjects", "BackendRequestID", "ClaimedOwner", "Kind", "ObjectHashes",
    "OutcomeCode", "ResultRef", "TerminalState"]

theorem plain_keys : ∀ k ∈ canonicalKeys.map points, Plain k := by
  intro k hk
  obtain ⟨t, ht, rfl⟩ := List.mem_map.mp hk
  have hall : (canonicalKeys.all fun t => t.toList.all fun c => c.toNat < 55296) = true := by decide
  exact plain_points_of (List.all_eq_true.mp hall t ht)

theorem nodup_keys : (canonicalKeys.map points).Nodup := by decide

theorem fits_canonical (hexact : m.Exact) (h : Admitted m s) {owner : String}
    (howner : Plain (points owner)) :
    Fits (FloatText m.floats) m.recursionLimit (canonical owner s) := by
  obtain ⟨depth, hdepth⟩ := h.limit
  rw [hdepth]
  refine .obj (fun member hm => ?_) nodup_keys fun member hm => ?_
  · exact (plain_keys _ (List.mem_map_of_mem (f := (·.1)) hm)).valid
  · simp only [List.mem_cons, List.not_mem_nil, or_false] at hm
    rcases hm with rfl | rfl | rfl | rfl | rfl | rfl | rfl | rfl
    · exact fits_count hexact h _
    · exact .str h.backendRequestId.valid
    · exact .str howner.valid
    · exact .str (plain_kind s.kind).valid
    · refine .arr fun x hx => ?_
      obtain ⟨item, hitem, rfl⟩ := List.mem_map.mp hx
      exact .str (h.objectHashes item (mem_sorted.mp hitem)).valid
    · exact .str h.outcomeCode
    · exact .str h.reference
    · exact .str (plain_terminalState s.terminalState).valid

/-- What the inbox reads. -/
def received (owner : String) (s : Submission F) : Value F :=
  canonical owner { s with
    outcomeCode := merge s.outcomeCode
    resultRef := some (merge s.reference) }

theorem stored_count (hexact : m.Exact) (h : Admitted m s) :
    stored m.floats s.actualDistinctObjects.toValue = s.actualDistinctObjects.toValue := by
  cases hcount : s.actualDistinctObjects with
  | int n => rfl
  | float x =>
      rw [Count.toValue, stored, (hexact x (h.float x hcount)).reread]

theorem storedItems_plain (floats : Floats F) {items : List Points} (h : ∀ item ∈ items, Plain item) :
    storedItems floats (items.map .str) = items.map .str := by
  induction items with
  | nil => rfl
  | cons item items ih =>
      have hitem := (h item List.mem_cons_self).merge
      have hrest := ih fun x hx => h x (List.mem_cons_of_mem item hx)
      rw [List.map_cons, storedItems, stored, hitem, hrest]

theorem stored_canonical (hexact : m.Exact) (h : Admitted m s) {owner : String}
    (howner : Plain (points owner)) : stored m.floats (canonical owner s) = received owner s := by
  have hkey : ∀ {k : String}, k ∈ canonicalKeys → merge (points k) = points k :=
    fun hk => (plain_keys _ (List.mem_map_of_mem hk)).merge
  have hsorted : storedItems m.floats ((sorted s.objectHashes).map .str) =
      (sorted s.objectHashes).map .str :=
    storedItems_plain m.floats fun item hitem => h.objectHashes item (mem_sorted.mp hitem)
  unfold received canonical
  rw [stored]
  simp only [storedMembers, stored_count hexact h, stored, hsorted, h.backendRequestId.merge,
    howner.merge, (plain_kind s.kind).merge, (plain_terminalState s.terminalState).merge]
  rw [hkey (by decide), hkey (by decide), hkey (by decide), hkey (by decide), hkey (by decide),
    hkey (by decide), hkey (by decide), hkey (by decide)]
  exact congrArg Value.obj (dict_of_nodup nodup_keys)

theorem loads_body (hexact : m.Exact) (h : Admitted m s) {owner : String}
    (howner : Plain (points owner)) (hbody : call.body =
      Encoding.encode (write m.floats compact 0 (canonical owner s))) :
    loads m.floats m.recursionLimit call.body = .ok (received owner s) := by
  rw [hbody, loads_write m.floats blanks_compact (fits_canonical hexact h howner),
    stored_canonical hexact h howner]

/-! ## When two bodies are one -/

/-- The two submissions say the same, and their numbers are the same numbers. -/
structure Same (whole : F → Option Int) (a b : Submission F) : Prop where
  backendRequestId : a.backendRequestId = b.backendRequestId
  kind : a.kind = b.kind
  terminalState : a.terminalState = b.terminalState
  outcomeCode : a.outcomeCode = b.outcomeCode
  reference : a.reference = b.reference
  actualDistinctObjects : a.actualDistinctObjects.whole? whole = b.actualDistinctObjects.whole? whole
  objectHashes : a.objectHashes.Perm b.objectHashes

/-- The two submissions are written alike. -/
structure Alike (a b : Submission F) : Prop where
  backendRequestId : a.backendRequestId = b.backendRequestId
  kind : a.kind = b.kind
  terminalState : a.terminalState = b.terminalState
  outcomeCode : merge a.outcomeCode = merge b.outcomeCode
  reference : merge a.reference = merge b.reference
  actualDistinctObjects : a.actualDistinctObjects = b.actualDistinctObjects
  objectHashes : a.objectHashes.Perm b.objectHashes

theorem sorted_eq_iff {xs ys : List Points} : sorted xs = sorted ys ↔ xs.Perm ys := by
  have hleft := List.mergeSort_perm xs fun a b => decide (a ≤ b)
  have hright := List.mergeSort_perm ys fun a b => decide (a ≤ b)
  constructor
  · intro h
    exact hleft.symm.trans ((List.Perm.of_eq h).trans hright)
  · intro hperm
    have htrans : ∀ a b c : Points, decide (a ≤ b) = true → decide (b ≤ c) = true →
        decide (a ≤ c) = true := by
      intro a b c hab hbc
      exact decide_eq_true (le_trans (of_decide_eq_true hab) (of_decide_eq_true hbc))
    have htotal : ∀ a b : Points, (decide (a ≤ b) || decide (b ≤ a)) = true := by
      intro a b
      rw [Bool.or_eq_true, decide_eq_true_eq, decide_eq_true_eq]
      exact le_total a b
    refine List.Perm.eq_of_pairwise (fun a b _ _ hab hba => ?_)
      (List.pairwise_mergeSort htrans htotal xs) (List.pairwise_mergeSort htrans htotal ys)
      (hleft.trans (hperm.trans hright.symm))
    exact le_antisymm (of_decide_eq_true hab) (of_decide_eq_true hba)

theorem kind_text_inj {k k' : Kind} (h : points k.text = points k'.text) : k = k' := by
  have htext := points_inj h
  revert htext
  cases k <;> cases k' <;> decide

theorem terminalState_text_inj {t t' : TerminalState} (h : points t.text = points t'.text) :
    t = t' := by
  have htext := points_inj h
  revert htext
  cases t <;> cases t' <;> decide

theorem toValue_inj {c c' : Count F} (h : c.toValue = c'.toValue) : c = c' := by
  cases c with
  | int n =>
      cases c' with
      | int n' => rw [Value.int.inj h]
      | float x => cases h
  | float x =>
      cases c' with
      | int n => cases h
      | float x' => rw [Value.float.inj h]

theorem received_eq_iff (owner : String) {a b : Submission F} :
    received owner a = received owner b ↔ Alike a b := by
  constructor
  · intro h
    have hmembers := Value.obj.inj h
    simp only [List.cons.injEq, Prod.mk.injEq, true_and, and_true, Value.str.injEq,
      Value.arr.injEq] at hmembers
    obtain ⟨hcount, hid, hkind, hhashes, hcode, href, hstate⟩ := hmembers
    have hinj : Function.Injective (Value.str (F := F)) := fun s t h => Value.str.inj h
    exact ⟨hid, kind_text_inj hkind, terminalState_text_inj hstate, hcode, href, toValue_inj hcount,
      sorted_eq_iff.mp (hinj.list_map hhashes)⟩
  · intro h
    have hhashes := sorted_eq_iff.mpr h.objectHashes
    unfold received canonical
    simp only [h.backendRequestId, h.kind, h.terminalState, h.outcomeCode, h.reference,
      h.actualDistinctObjects, hhashes]
    rfl

/-- Put together or not, the text is the same. -/
theorem write_received (h : Admitted m s) (owner : String) :
    write m.floats compact 0 (received owner s) = write m.floats compact 0 (canonical owner s) := by
  have hreference : (Submission.reference ⟨s.backendOwner, s.backendRequestId, s.kind,
      s.terminalState, merge s.outcomeCode, some (merge s.reference), s.actualDistinctObjects,
      s.objectHashes⟩ : Points) = merge s.reference := rfl
  unfold received canonical
  simp only [hreference, write, writeMembers, quote_merge h.outcomeCode, quote_merge h.reference]

theorem write_eq_iff {a b : Submission F} {owner : String} (hexact : m.Exact) (ha : Admitted m a)
    (hb : Admitted m b) (howner : Plain (points owner)) :
    write m.floats compact 0 (canonical owner a) = write m.floats compact 0 (canonical owner b) ↔
      Alike a b := by
  rw [← received_eq_iff owner]
  constructor
  · intro h
    have hread := loads_write m.floats blanks_compact (fits_canonical hexact ha howner)
    rw [h, loads_write m.floats blanks_compact (fits_canonical hexact hb howner),
      stored_canonical hexact ha howner, stored_canonical hexact hb howner] at hread
    exact (Except.ok.inj hread).symm
  · intro h
    rw [← write_received ha, h, write_received hb]

/-- The same number is of one type, and strings that are written alike are one string. -/
structure Apart (whole : F → Option Int) (a b : Submission F) : Prop where
  number : Same whole a b → a.actualDistinctObjects = b.actualDistinctObjects
  text : Alike a b → a.outcomeCode = b.outcomeCode ∧ a.reference = b.reference

theorem apart_iff {whole : F → Option Int} {a b : Submission F} :
    (Alike a b ↔ Same whole a b) ↔ Apart whole a b := by
  constructor
  · intro h
    exact ⟨fun hsame => (h.mpr hsame).actualDistinctObjects,
      fun halike => ⟨(h.mp halike).outcomeCode, (h.mp halike).reference⟩⟩
  · intro h
    constructor
    · intro halike
      obtain ⟨hcode, href⟩ := h.text halike
      exact ⟨halike.backendRequestId, halike.kind, halike.terminalState, hcode, href,
        by rw [halike.actualDistinctObjects], halike.objectHashes⟩
    · intro hsame
      exact ⟨hsame.backendRequestId, hsame.kind, hsame.terminalState, by rw [hsame.outcomeCode],
        by rw [hsame.reference], h.number hsame, hsame.objectHashes⟩

/-- What is forwarded is read with the owner of the workload in it. -/
def ClaimsOwner (m : Mediator F) (i : TrustedIdentity) (call : EvidenceCall) : Prop :=
  ∃ owner members, ownerOf i = some owner ∧
    loads m.floats m.recursionLimit call.body = .ok (.obj members) ∧
    get? members "ClaimedOwner" = some (.str (points owner))

theorem claimsOwner (hexact : m.Exact) (h : vet m rawBody requestHeaders i = .ok call) :
    ClaimsOwner m i call := by
  obtain ⟨owner, s, howner, hread, hbody⟩ := vet_ok h
  have hloads := loads_body hexact (admitted_of_read hread) (plain_owner howner) hbody
  exact ⟨owner, _, howner, hloads, rfl⟩

variable {rawBody' : List UInt8} {requestHeaders' : List (String × String)} {i' : TrustedIdentity}
  {call' : EvidenceCall} {a b : Submission F}

/-- Two submissions of one workload are forwarded in the same bytes when they say the same,
and only then, exactly if they are `Apart`; and the owner is the workload's either way. -/
theorem evidence_canonical_iff (hexact : m.Exact) (hservice : i.servicePrincipalId = i'.servicePrincipalId)
    (ha : readSubmission m rawBody = .ok a) (hb : readSubmission m rawBody' = .ok b)
    (h : vet m rawBody requestHeaders i = .ok call)
    (h' : vet m rawBody' requestHeaders' i' = .ok call') :
    ((call.body = call'.body ↔ Same m.whole a b) ∧ ClaimsOwner m i call ∧ ClaimsOwner m i' call') ↔
      Apart m.whole a b := by
  obtain ⟨owner, s, howner, hs, hbody⟩ := vet_ok h
  obtain ⟨owner', s', howner', hs', hbody'⟩ := vet_ok h'
  obtain rfl := Except.ok.inj (ha.symm.trans hs)
  obtain rfl := Except.ok.inj (hb.symm.trans hs')
  have hadmitted := admitted_of_read hs
  have hadmitted' := admitted_of_read hs'
  obtain rfl : owner = owner' := by
    rw [ownerOf, hservice] at howner
    exact Option.some.inj (howner.symm.trans howner')
  have hplain := plain_owner howner
  have hascii : ∀ {s : Submission F}, Admitted m s →
      ∀ p ∈ write m.floats compact 0 (canonical owner s), p < 256 := fun hs p hp =>
    (ascii_write m.floats blanks_compact (fits_canonical hexact hs hplain) 0 p hp).2.trans (by decide)
  have hbytes : call.body = call'.body ↔ Alike a b := by
    rw [← write_eq_iff hexact hadmitted hadmitted' hplain, hbody, hbody']
    exact ⟨Encoding.encode_inj (hascii hadmitted) (hascii hadmitted'), fun h => by rw [h]⟩
  rw [hbytes, ← apart_iff]
  exact and_iff_left ⟨claimsOwner hexact h, claimsOwner hexact h'⟩

/-! ## One object -/

/-- The floats that are whole numbers, with their signs. -/
structure Whole where
  negative : Bool
  digits : Nat
deriving DecidableEq

def Whole.text (x : Whole) : List Char :=
  JsonText.sign x.negative ++ (Nat.toDigits 10 x.digits ++ (['.', '0'] ++ []))

def Whole.ofText (text : List Char) : Whole where
  negative := JsonText.isNegative text
  digits := JsonText.natural
    (JsonText.readDigits (if JsonText.isNegative text then text.tail else text)).1

def wholes : Floats Whole where
  ofText := Whole.ofText
  nan := ⟨false, 0⟩
  inf := ⟨false, 0⟩
  negInf := ⟨true, 0⟩
  text := Whole.text

def inboxMediator : Mediator Whole where
  floats := wholes
  whole x := some (if x.negative then -x.digits else x.digits)
  recursionLimit := 200
  message _ := "1.5 is not of type 'integer'"

theorem exact_inboxMediator : inboxMediator.Exact := by
  rintro ⟨negative, n⟩ -
  have hdigits := digits_toDigits n
  have hfraction : JsonText.Fraction ['.', '0'] := Or.inr ⟨['0'], by simp, by simp, rfl⟩
  have htext : wholes.text ⟨negative, n⟩ =
      JsonText.sign negative ++ (Nat.toDigits 10 n ++ (['.', '0'] ++ [])) := rfl
  refine ⟨.number hdigits hfraction (Or.inl rfl) (by simp) htext, ?_⟩
  obtain ⟨hneg, hunsigned⟩ := JsonText.sign_split negative hdigits (['.', '0'] ++ [])
  have hread : JsonText.readDigits (Nat.toDigits 10 n ++ (['.', '0'] ++ [])) =
      (Nat.toDigits 10 n, ['.', '0'] ++ []) :=
    JsonText.readDigits_of_digits hdigits fun c hc => by
      obtain rfl := Option.some.inj hc
      decide
  have hofText : Whole.ofText (wholes.text ⟨negative, n⟩) = ⟨negative, n⟩ := by
    rw [htext, Whole.ofText, hunsigned, hneg, hread, natural_toDigits]
  change reread wholes ⟨negative, n⟩ = _
  unfold reread
  rw [htext, if_neg (number_ne hdigits _ (by decide)), if_neg (number_ne hdigits _ (by decide)),
    if_neg (number_ne hdigits _ (by decide)), ← htext]
  exact hofText

/-- A result of one object, by how the one is spelled. -/
def oneObject (spelling : String) : List UInt8 := Encoding.encode (points
  ("\x7b\"BackendRequestID\":\"r1\",\"Kind\":\"OWNER_RESULT\"," ++
    "\"TerminalState\":\"SUCCEEDED\"," ++
    "\"OutcomeCode\":\"OK\",\"ResultRef\":\"x\",\"ActualDistinctObjects\":" ++ spelling ++
    ",\"ObjectHashes\":[]\x7d"))

def counted (count : Count Whole) : Submission Whole :=
  ⟨none, points "r1", .ownerResult, .succeeded, points "OK", some (points "x"), count, []⟩

def countedMembers (count : Value Whole) : List (Points × Value Whole) :=
  [(points "BackendRequestID", .str (points "r1")), (points "Kind", .str (points "OWNER_RESULT")),
    (points "TerminalState", .str (points "SUCCEEDED")), (points "OutcomeCode", .str (points "OK")),
    (points "ResultRef", .str (points "x")), (points "ActualDistinctObjects", count),
    (points "ObjectHashes", .arr [])]

def udpWorkload : TrustedIdentity :=
  ⟨"ouf-udp-object-resolution", "owner-worker", "tenant-internal", "SERVICE", "authn-owner",
    "decision-owner", [requiredScope]⟩

set_option maxRecDepth 40000 in
theorem loads_int : loads wholes 200 (oneObject "1") = .ok (.obj (countedMembers (.int 1))) := rfl

set_option maxRecDepth 40000 in
theorem loads_float :
    loads wholes 200 (oneObject "1.0") = .ok (.obj (countedMembers (.float ⟨false, 1⟩))) := rfl

theorem readSubmission_int : readSubmission inboxMediator (oneObject "1") = .ok (counted (.int 1)) := by
  have hread : loads inboxMediator.floats inboxMediator.recursionLimit (oneObject "1") = .ok (.obj _) :=
    loads_int
  unfold readSubmission
  rw [hread]
  rfl

theorem readSubmission_float :
    readSubmission inboxMediator (oneObject "1.0") = .ok (counted (.float ⟨false, 1⟩)) := by
  have hread : loads inboxMediator.floats inboxMediator.recursionLimit (oneObject "1.0") =
      .ok (.obj _) := loads_float
  unfold readSubmission
  rw [hread]
  rfl

/-- The call that forwards such a result. -/
def countedCall (count : Count Whole) : EvidenceCall where
  service := mcpService
  path := mcpPath
  body := Encoding.encode (write wholes compact 0 (canonical "udp-object-resolution" (counted count)))
  headers := [("Content-Type", "application/json"), ("Accept", "application/json"),
    ("X-Correlation-ID", "c1"), ("X-OUF-Trusted-Backend-Owner", "udp-object-resolution"),
    ("X-OUF-Source-Service", "ouf-udp-object-resolution")]
  timeoutSeconds := 3

theorem vet_counted {raw : List UInt8} {count : Count Whole} (hshort : raw.length ≤ 1048576)
    (h : readSubmission inboxMediator raw = .ok (counted count)) :
    vet inboxMediator raw Recovery.correlated udpWorkload = .ok (countedCall count) := by
  have howner : (ownerOf udpWorkload).filter (fun _ => requiredScope ∈ udpWorkload.scopes) =
      some "udp-object-resolution" := by decide
  unfold vet
  rw [howner]
  simp only []
  rw [if_neg (not_lt.mpr hshort), h]
  rfl

theorem length_oneObject (spelling : String) :
    (oneObject spelling).length ≤ 200 + spelling.length := by
  simp only [oneObject, Encoding.encode, points, List.length_map, String.length_toList,
    String.length_append]
  have hfront : ("\x7b\"BackendRequestID\":\"r1\",\"Kind\":\"OWNER_RESULT\"," ++
      "\"TerminalState\":\"SUCCEEDED\",").length ≤ 90 := by decide
  have hmiddle : "\"OutcomeCode\":\"OK\",\"ResultRef\":\"x\",\"ActualDistinctObjects\":".length ≤ 70 := by
    decide
  have hback : ",\"ObjectHashes\":[]\x7d".length ≤ 30 := by decide
  rw [String.length_append] at hfront
  omega

theorem short_int : (oneObject "1").length ≤ 1048576 :=
  (length_oneObject "1").trans (by decide)

theorem short_float : (oneObject "1.0").length ≤ 1048576 :=
  (length_oneObject "1.0").trans (by decide)

theorem evidence_canonical_one :
    ((countedCall (.int 1)).body = (countedCall (.float ⟨false, 1⟩)).body ↔
        Same inboxMediator.whole (counted (.int 1)) (counted (.float ⟨false, 1⟩))) ∧
      ClaimsOwner inboxMediator udpWorkload (countedCall (.int 1)) ∧
      ClaimsOwner inboxMediator udpWorkload (countedCall (.float ⟨false, 1⟩)) ↔
    Apart inboxMediator.whole (counted (.int 1)) (counted (.float ⟨false, 1⟩)) :=
  evidence_canonical_iff exact_inboxMediator rfl readSubmission_int readSubmission_float
    (vet_counted short_int readSubmission_int) (vet_counted short_float readSubmission_float)

/-- One object, as an integer and as a float: the same evidence in two bodies. -/
theorem evidence_two_bodies :
    vet inboxMediator (oneObject "1") Recovery.correlated udpWorkload = .ok (countedCall (.int 1)) ∧
      vet inboxMediator (oneObject "1.0") Recovery.correlated udpWorkload =
        .ok (countedCall (.float ⟨false, 1⟩)) ∧
      Same inboxMediator.whole (counted (.int 1)) (counted (.float ⟨false, 1⟩)) ∧
      (countedCall (.int 1)).body ≠ (countedCall (.float ⟨false, 1⟩)).body := by
  refine ⟨vet_counted short_int readSubmission_int, vet_counted short_float readSubmission_float,
    ⟨rfl, rfl, rfl, rfl, rfl, rfl, List.Perm.refl _⟩, fun hbody => ?_⟩
  have hplain : Plain (points "udp-object-resolution") := plain_points_of (by decide)
  have hint := admitted_of_read readSubmission_int
  have hfloat := admitted_of_read readSubmission_float
  have hint' : loads wholes 200 (countedCall (.int 1)).body = _ :=
    loads_body exact_inboxMediator hint hplain rfl
  have hfloat' : loads wholes 200 (countedCall (.float ⟨false, 1⟩)).body = _ :=
    loads_body exact_inboxMediator hfloat hplain rfl
  rw [hbody, hfloat'] at hint'
  have halike := (received_eq_iff "udp-object-resolution").mp (Except.ok.inj hint')
  cases halike.actualDistinctObjects

end OufGateway.EvidenceIngress
