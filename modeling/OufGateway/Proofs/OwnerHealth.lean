import Mathlib
import OufGateway.Lib.Program
import OufGateway.Ref.OwnerApi
import OufGateway.Proofs.OwnerQueries
import OufGateway.Proofs.OwnerGrants

/-!
# What a summary says of the store

A summary reads one row more than it shows, and it asks for a decision on each row it is
about to show. If the extra row was not there, the rows are the whole table; if no
decision took one away, the items are the rows. Only then does the status speak of the
store, and only then is the answer not partial. The table is the one the request finds in
its second step: the first is the decision on the collection, and what others write later
is not in the answer.
-/

namespace OufGateway.Owner

open Lib Incidents
open Lib.JsonText (Points points Value)

variable {c : Context} {identity : Identity} {policy : String} {q : Dict} {es : List Event}
  {found : Nat → Db × Oracle} {rows items : List Incident} {n : Nat}

/-! ## Honest answers -/

/-- The answer claims no more of the incidents than it has seen. -/
structure Honest (c : Context) (store : List Incident) (es : List Event) (reply : Reply) :
    Prop where
  known : reply.json.get? "partial" = some (.bool false) ↔
    ∃ s, reply.json.get? "status" = some (.str s) ∧ s ≠ "UNKNOWN"
  examined : reply.json.get? "partial" = some (.bool false) → ∀ i ∈ store, i ∈ reply.items
  granted : GrantedEach c es reply
  healthy : reply.json.get? "partial" = some (.bool false) →
    (reply.json.get? "status" = some (.str "HEALTHY") ↔
      ∀ i ∈ store, i.lifecycleState ≠ .opened ∧ i.lifecycleState ≠ .recovering)
  degraded : reply.json.get? "partial" = some (.bool false) →
    (reply.json.get? "status" = some (.str "DEGRADED") ↔ ∃ i ∈ store, i.lifecycleState = .opened)
  recovering : reply.json.get? "partial" = some (.bool false) →
    (reply.json.get? "status" = some (.str "RECOVERING") ↔
      (∃ i ∈ store, i.lifecycleState = .recovering) ∧ ∀ i ∈ store, i.lifecycleState ≠ .opened)

/-- The status over the items, and what of the store they are. -/
structure Summarizes (store : List Incident) (l : Listing) : Prop where
  whole : l.isPartial = false → l.items.Perm store
  status : l.status = some (if l.isPartial then "UNKNOWN" else summaryStatus l.items)

theorem summaryStatus_eq_degraded :
    summaryStatus items = "DEGRADED" ↔ ∃ i ∈ items, i.lifecycleState = .opened := by
  unfold summaryStatus
  split
  · next hany => simpa using hany
  · next hany =>
    have hnone : ¬ ∃ i ∈ items, i.lifecycleState = .opened := by simpa using hany
    split <;> simp [hnone]

theorem summaryStatus_eq_recovering : summaryStatus items = "RECOVERING" ↔
    (∃ i ∈ items, i.lifecycleState = .recovering) ∧ ∀ i ∈ items, i.lifecycleState ≠ .opened := by
  unfold summaryStatus
  split
  · next hany =>
    obtain ⟨i, hi, hopen⟩ := List.any_eq_true.mp hany
    refine ⟨fun h => absurd h (by decide), fun h => ?_⟩
    exact absurd (of_decide_eq_true hopen) (h.2 i hi)
  · next hany =>
    have hnone : ∀ i ∈ items, i.lifecycleState ≠ .opened := by simpa using hany
    split
    · next hrec => exact ⟨fun _ => ⟨by simpa using hrec, hnone⟩, fun _ => rfl⟩
    · next hrec =>
      refine ⟨fun h => absurd h (by decide), fun h => ?_⟩
      exact absurd h.1 (by simpa using hrec)

theorem summaryStatus_eq_healthy : summaryStatus items = "HEALTHY" ↔
    ∀ i ∈ items, i.lifecycleState ≠ .opened ∧ i.lifecycleState ≠ .recovering := by
  unfold summaryStatus
  split
  · next hany =>
    obtain ⟨i, hi, hopen⟩ := List.any_eq_true.mp hany
    refine ⟨fun h => absurd h (by decide), fun h => ?_⟩
    exact absurd (of_decide_eq_true hopen) (h i hi).1
  · next hopen =>
    split
    · next hany =>
      obtain ⟨i, hi, hrec⟩ := List.any_eq_true.mp hany
      refine ⟨fun h => absurd h (by decide), fun h => ?_⟩
      exact absurd (of_decide_eq_true hrec) (h i hi).2
    · next hrec =>
      refine ⟨fun _ i hi => ⟨fun h => hopen ?_, fun h => hrec ?_⟩, fun _ => rfl⟩
      · exact List.any_eq_true.mpr ⟨i, hi, decide_eq_true h⟩
      · exact List.any_eq_true.mpr ⟨i, hi, decide_eq_true h⟩

theorem summaryStatus_ne_unknown : summaryStatus items ≠ "UNKNOWN" := by
  unfold summaryStatus
  split
  · decide
  · split <;> decide

theorem get?_partially (l : Listing) :
    (Reply.listing l).json.get? "partial" = some (.bool l.isPartial) := rfl

theorem get?_status (l : Listing) : (Reply.listing l).json.get? "status" = l.status.map .str := by
  obtain ⟨items, isPartial, truncated, redacted, status⟩ := l
  cases status <;> cases redacted <;> rfl

theorem Summarizes.honest {store : List Incident} {l : Listing} (h : Summarizes store l)
    (hgranted : GrantedEach c es (.listing l)) : Honest c store es (.listing l) := by
  have hmem : l.isPartial = false → ∀ i, i ∈ l.items ↔ i ∈ store := fun hp i => (h.whole hp).mem_iff
  have hstatus : l.isPartial = false → ∀ s, (l.status = some s ↔ summaryStatus l.items = s) := by
    intro hp s
    rw [h.status, hp, if_neg Bool.false_ne_true, Option.some.injEq]
  constructor
  all_goals
    try simp only [get?_partially, get?_status, Option.some.injEq, Json.bool.injEq,
      Option.map_eq_some_iff, Json.str.injEq, exists_eq_right]
  · refine ⟨fun hp => ⟨_, (hstatus hp _).mpr rfl, summaryStatus_ne_unknown⟩, ?_⟩
    rintro ⟨s, hs, hne⟩
    rw [h.status, Option.some.injEq] at hs
    split at hs
    · exact absurd hs.symm hne
    · next hp => exact Bool.not_eq_true _ ▸ hp
  · exact fun hp i hi => (hmem hp i).mpr hi
  · exact hgranted
  · intro hp
    rw [hstatus hp, summaryStatus_eq_healthy]
    simp only [hmem hp]
  · intro hp
    rw [hstatus hp, summaryStatus_eq_degraded]
    simp only [hmem hp]
  · intro hp
    rw [hstatus hp, summaryStatus_eq_recovering]
    simp only [hmem hp]

/-! ## The request -/

theorem listSince_none {t : Tables} {limit : Nat} (h : limit ≤ 100)
    (hrows : listSince t none (limit + 1) none = .ok rows) :
    ∃ all : List Incident, all.Perm t.incidents ∧ rows = all.take (limit + 1) := by
  have hbounds : ¬ (limit + 1 < 1 ∨ 200 < limit + 1) := by omega
  simp only [listSince, listIncidents, if_neg hbounds, Except.ok.injEq] at hrows
  refine ⟨_, ?_, hrows.symm⟩
  refine (List.mergeSort_perm _ _).trans ?_
  simp

/-- The rows are the table, unless there was one more than the limit. -/
theorem summarizes_of_sublist {store all : List Incident} {limit : Nat} (hall : all.Perm store)
    (hsub : items.Sublist ((all.take (limit + 1)).take limit)) :
    Summarizes store
      (let original := (all.take (limit + 1)).take limit
       let truncated := decide (limit < (all.take (limit + 1)).length)
       let redacted := decide (items.length ≠ original.length)
       { items := items, truncated := truncated, redacted := redacted
         isPartial := redacted || truncated
         status := some (if redacted || truncated then "UNKNOWN" else summaryStatus items) }) := by
  refine ⟨fun hpart => ?_, rfl⟩
  simp only [Bool.or_eq_false_iff, decide_eq_false_iff_not, not_lt, not_not] at hpart
  obtain ⟨hlength, hshort⟩ := hpart
  have hfew : all.length ≤ limit := by
    rw [List.length_take] at hshort
    omega
  have hsame : (all.take (limit + 1)).take limit = all := by
    rw [List.take_take, List.take_of_length_le (by omega)]
  rw [hsame] at hsub hlength
  rw [hsub.eq_of_length hlength]
  exact hall

theorem follows_list (hlimit : q.limit ≤ 100) (hsince : q.get? "since" = none)
    (hincidents : c.incidents = false) :
    Program.Follows found (fun _ _ x => ∀ reply, x = .ok reply →
        ∃ l, reply = .listing l ∧ Summarizes (found n).1.incidents.incidents l)
      (c.list identity policy q) n es := by
  unfold Context.list
  rw [hincidents, hsince, if_neg Bool.false_ne_true]
  refine Program.Follows.bind (q := fun _ _ x => ∀ rows, x = .ok rows →
      listSince (found n).1.incidents none (q.limit + 1) none = .ok rows)
    (Program.follows_read ?_) (fun m es₁ rows hrows => ?_) fun m es₁ e _ reply hreply => by
      cases hreply
  · intro rows hrows
    split at hrows
    · cases hrows
    · exact hrows
  · obtain ⟨all, hall, rfl⟩ := listSince_none hlimit (hrows rows rfl)
    refine (Program.meets_sublist _ _ _).follows.bind (fun m es₂ items hitems => ?_)
      fun m es₂ e _ reply hreply => by cases hreply
    intro reply hreply
    cases hreply
    refine ⟨_, rfl, ?_⟩
    rw [if_neg Bool.false_ne_true]
    exact summarizes_of_sublist hall (hitems items rfl)

/-! ## Queries without a timestamp -/

theorem Dict.has_of_within {names : List String} {key : String} (h : q.within names = true)
    (hkey : key ∉ names) : q.has key = false := by
  unfold Dict.has Dict.get?
  rw [Option.isSome_map, Option.isSome_eq_false_iff, Option.isNone_iff_eq_none, List.find?_eq_none]
  intro m hm htext
  have hin := of_decide_eq_true (List.all_eq_true.mp h m hm)
  obtain ⟨name, hname, hpoints⟩ := List.mem_map.mp hin
  exact hkey (points_inj (hpoints.trans (of_decide_eq_true htext)) ▸ hname)

theorem Dict.has_set {key : String} {v : Value} : (q.set key v).has key = q.has key := by
  have hkeys : ∀ m : Points × Value, (if m.1 = points key then (m.1, v) else m).1 = m.1 := by
    intro m
    split <;> rfl
  unfold Dict.has Dict.get? Dict.set
  rw [Option.isSome_map, Option.isSome_map, List.find?_map, Option.isSome_map]
  simp only [Function.comp_def, hkeys]

/-- The summary path takes a limit, and no mode but its own. -/
structure Bare (q : Dict) : Prop where
  limit : q.limit ≤ 100
  since : q.get? "since" = none
  modes : ∀ key ∈ ["coverage", "resumeFrom", "snapshot", "cursor"], q.has key = false

theorem bare_of_readQuery {py : Interpreter} {body : Body} (h : readQuery py body false = .ok q)
    (hsince : q.has "since" = false) : Bare q := by
  obtain ⟨ms, -, hchecked, hq⟩ := readQuery_eq_ok.mp h
  obtain rfl : q = ms := by
    rcases hq with ⟨-, hq⟩ | ⟨v, text, hv, -, rfl⟩
    · exact hq
    · rw [Dict.has_set, Dict.has, hv] at hsince
      cases hsince
  have hwithin : q.within ["limit", "since"] = true := by
    have hformed := hchecked.wellFormed
    simp only [Dict.wellFormed, Bool.and_eq_true] at hformed
    exact hformed.1.1.1.1
  refine ⟨?_, Dict.get?_eq_none.mpr hsince, fun key hkey => ?_⟩
  · obtain ⟨n, hn⟩ := Option.isSome_iff_exists.mp hchecked.limit
    unfold Dict.limit
    rw [hn, Option.getD_some]
    unfold Dict.limit? at hn
    split at hn
    · cases hn
      decide
    · split at hn
      · cases hn
        omega
      · cases hn
    · cases hn
  · refine Dict.has_of_within hwithin ?_
    revert hkey
    revert key
    decide

theorem Bare.get? {key : String} (h : Bare q)
    (hkey : key ∈ ["coverage", "resumeFrom", "snapshot", "cursor"]) : q.get? key = none :=
  Dict.get?_eq_none.mpr (h.modes key hkey)

theorem mode_of_bare (h : Bare q) : c.mode identity policy q = c.list identity policy q := by
  unfold Context.mode
  rw [h.get? (by decide), h.get? (by decide), h.modes "resumeFrom" (by decide),
    h.modes "cursor" (by decide)]
  rfl

/-- A decision that is answered took one step. -/
theorem follows_decision (incidentId endpointRef : Option String) :
    Program.Follows found (fun m _ x => ∀ d, x = .ok d → m = n + 1)
      (c.decision incidentId endpointRef) n es := by
  unfold Context.decision
  split
  · intro d hd
    cases hd
  · split
    · intro d hd
      cases hd
    · refine Program.Follows.bind (q := fun m _ x => ∀ d, x = .ok d → m = n + 1) ?_
        (fun m es₁ d hm => ?_) fun m es₁ e _ d hd => by cases hd
      · unfold consult Program.Follows
        simp only []
        split
        all_goals
          intro d hd
          cases hd
        rfl
      · unfold Program.ofExcept
        split
        · intro d' hd
          exact hm d rfl
        · intro d' hd
          cases hd

theorem sized_ok {reply reply' : Reply} (h : sized reply = .ok reply') : reply' = reply := by
  unfold sized at h
  split at h
  · cases h
  · exact (Except.ok.inj h).symm

theorem follows_answer (h : Bare q) (hincidents : c.incidents = false) :
    Program.Follows found (fun _ _ x => ∀ reply, x = .ok reply →
        ∃ l, reply = .listing l ∧ Summarizes (found 1).1.incidents.incidents l)
      (c.answer q) 0 [] := by
  refine (follows_decision none none).bind (fun m es₁ d hm => ?_) fun m es₁ e _ reply hreply => by
    cases hreply
  obtain rfl := hm d rfl
  show Program.Follows found _ ((c.mode d.1 d.2 q).bind fun reply => .ofExcept (sized reply)) _ _
  rw [mode_of_bare h]
  refine (follows_list h.limit h.since hincidents).bind (fun m es₂ reply hreply => ?_)
    fun m es₂ e _ reply hreply => by cases hreply
  refine (Program.meets_ofExcept ?_).follows
  intro reply' hreply'
  obtain ⟨l, rfl, hl⟩ := hreply reply rfl
  exact ⟨l, sized_ok hreply', hl⟩

theorem honest_refused (c : Context) (store : List Incident) (es : List Event) (status : Nat)
    (code : String) (retryable : Option Bool) : Honest c store es (.refused status code retryable) := by
  have hpart : (Reply.refused status code retryable).json.get? "partial" = none := by
    cases retryable <;> rfl
  have hstatus : (Reply.refused status code retryable).json.get? "status" = none := by
    cases retryable <;> rfl
  constructor
  · simp [hpart, hstatus]
  · simp [hpart]
  · exact grantedEach_of_items rfl
  · simp [hpart]
  · simp [hpart]
  · simp [hpart]

end OufGateway.Owner
