import Mathlib
import OufGateway.Lib.JsonText
import OufGateway.Ref.OwnerQuery
import OufGateway.Proofs.Uuids

/-!
# The modes of an owner query

A query is in one of six closed modes. A mode has the keys it needs, the keys it takes
besides, and no others, and each key has its values; this is the grammar, and it is said
here without the order in which `_query` looks at the keys. `checked_iff` compares the
two on a dictionary, with the timestamps left open: the values `_since` accepts give the
queries that are read, and the values it gives up on give those that end in a server
fault.
-/

namespace OufGateway.Owner

open Lib Incidents
open Lib.JsonText (Points points Value)

/-! ## Modes -/

inductive Key
  | limit | since | state | snapshot | cursor | coverage | resumeFrom
deriving DecidableEq

def Key.text : Key → String
  | .limit => "limit"
  | .since => "since"
  | .state => "state"
  | .snapshot => "snapshot"
  | .cursor => "cursor"
  | .coverage => "coverage"
  | .resumeFrom => "resumeFrom"

inductive Mode
  | summary | plain | page | coverageStart | coveragePage | resume
deriving DecidableEq

namespace Mode

/-- Whether the mode is one of the incidents path. -/
def incidents : Mode → Bool
  | .summary => false
  | _ => true

def required : Mode → List Key
  | .summary => []
  | .plain => []
  | .page => [.cursor]
  | .coverageStart => [.snapshot, .coverage]
  | .coveragePage => [.cursor, .coverage]
  | .resume => [.resumeFrom]

def optional : Mode → List Key
  | .summary => [.limit, .since]
  | .plain => [.limit, .since, .state, .snapshot]
  | .page => []
  | .coverageStart => [.state, .limit]
  | .coveragePage => []
  | .resume => [.limit]

/-- The values of a key; `since` says which timestamps. -/
def Admits (since : Value → Prop) (m : Mode) (v : Value) : Key → Prop
  | .limit => ∃ n : Int, 1 ≤ n ∧ n ≤ 100 ∧ v = .int n
  | .since => since v
  | .state => ∃ l : Lifecycle, v = .str (points l.text)
  | .snapshot => ∃ b, v = .bool b ∧ (m = .coverageStart → b = true)
  | .cursor => if m = .page then ∃ s, v = .str s else NamesUuid v
  | .coverage => v = .bool true
  | .resumeFrom => NamesUuid v

structure Holds (since : Value → Prop) (m : Mode) (q : Dict) : Prop where
  required : ∀ k ∈ m.required, q.has k.text = true
  members : ∀ e ∈ q, ∃ k ∈ m.required ++ m.optional, e.1 = points k.text ∧ m.Admits since e.2 k

end Mode

/-- The dictionary is in a mode of the path. -/
def InMode (since : Value → Prop) (incidents : Bool) (q : Dict) : Prop :=
  ∃ m : Mode, m.incidents = incidents ∧ m.Holds since q

/-! ## Dictionaries -/

theorem points_inj {a b : String} (h : points a = points b) : a = b := by
  rw [← String.toList_inj, ← Uuid.map_ofNat_points, ← Uuid.map_ofNat_points, h]

namespace Dict

variable {q : Dict} {k : Key} {key : String} {v : Value}

/-- No key is there twice, as in every dictionary. -/
def Distinct (q : Dict) : Prop := (q.map (·.1)).Nodup

theorem get?_eq_some (hq : q.Distinct) : q.get? key = some v ↔ (points key, v) ∈ q := by
  unfold get?
  constructor
  · intro h
    obtain ⟨e, he, rfl⟩ := Option.map_eq_some_iff.mp h
    have hkey := List.find?_some he
    exact of_decide_eq_true hkey ▸ List.mem_of_find?_eq_some he
  · intro h
    have hsome : (q.find? (·.1 = points key)).isSome = true :=
      List.find?_isSome.mpr ⟨_, h, decide_eq_true rfl⟩
    obtain ⟨e, he⟩ := Option.isSome_iff_exists.mp hsome
    have hkey := List.find?_some he
    have heq : e = (points key, v) :=
      List.inj_on_of_nodup_map hq (List.mem_of_find?_eq_some he) h (of_decide_eq_true hkey)
    rw [he, heq]
    rfl

theorem has_iff (hq : q.Distinct) : q.has key = true ↔ ∃ v, (points key, v) ∈ q := by
  unfold has
  rw [Option.isSome_iff_exists]
  exact exists_congr fun v => get?_eq_some hq

theorem get?_eq_none : q.get? key = none ↔ q.has key = false := by
  unfold has
  rw [Option.isSome_eq_false_iff, Option.isNone_iff_eq_none]

end Dict

variable {q : Dict} {S : Value → Prop} {m : Mode} {k : Key} {v : Value} {incidents : Bool}

/-! ## A mode passes the checks -/

namespace Mode

theorem Holds.admits (h : m.Holds S q) (hmem : (points k.text, v) ∈ q) :
    k ∈ m.required ++ m.optional ∧ m.Admits S v k := by
  obtain ⟨k', hk', htext, hadmits⟩ := h.members _ hmem
  have heq : k = k' := by
    have htext := points_inj htext
    revert htext
    cases k <;> cases k' <;> decide
  exact heq ▸ ⟨hk', hadmits⟩

theorem Holds.get? (h : m.Holds S q) (hq : q.Distinct) (hv : q.get? k.text = some v) :
    k ∈ m.required ++ m.optional ∧ m.Admits S v k :=
  h.admits ((Dict.get?_eq_some hq).mp hv)

theorem Holds.hasNot (h : m.Holds S q) (hq : q.Distinct) (hk : k ∉ m.required ++ m.optional) :
    q.has k.text = false := by
  rw [← Bool.not_eq_true, Dict.has_iff hq]
  rintro ⟨v, hmem⟩
  exact hk (h.admits hmem).1

theorem Holds.within (h : m.Holds S q) {names : List String}
    (hnames : ∀ k ∈ m.required ++ m.optional, k.text ∈ names) : q.within names = true := by
  refine List.all_eq_true.mpr fun e he => decide_eq_true ?_
  obtain ⟨k, hk, htext, -⟩ := h.members e he
  exact List.mem_map.mpr ⟨k.text, hnames k hk, htext.symm⟩

/-- No value of a mode is `null`, and none is nested. -/
theorem Admits.flat (hS : ∀ v, S v → ∃ s, v = .str s) (h : m.Admits S v k) :
    isNull v = false ∧ v.flat = true := by
  have huuid : NamesUuid v → isNull v = false ∧ v.flat = true := by
    rintro ⟨u, -, -, rfl⟩
    exact ⟨rfl, rfl⟩
  cases k with
  | limit =>
      obtain ⟨n, -, -, rfl⟩ := h
      exact ⟨rfl, rfl⟩
  | since =>
      obtain ⟨s, rfl⟩ := hS v h
      exact ⟨rfl, rfl⟩
  | state =>
      obtain ⟨l, rfl⟩ := h
      exact ⟨rfl, rfl⟩
  | snapshot =>
      obtain ⟨b, rfl, -⟩ := h
      exact ⟨rfl, rfl⟩
  | coverage =>
      obtain rfl : v = .bool true := h
      exact ⟨rfl, rfl⟩
  | resumeFrom => exact huuid h
  | cursor =>
      simp only [Admits] at h
      split at h
      · obtain ⟨s, rfl⟩ := h
        exact ⟨rfl, rfl⟩
      · exact huuid h

theorem Holds.flat (h : m.Holds S q) (hS : ∀ v, S v → ∃ s, v = .str s) :
    ∀ e ∈ q, isNull e.2 = false ∧ e.2.flat = true := by
  intro e he
  obtain ⟨k, -, -, hadmits⟩ := h.members e he
  exact hadmits.flat hS

end Mode

/-- The checks of the source, with the timestamps left to `S`. -/
structure Checked (S : Value → Prop) (incidents : Bool) (q : Dict) : Prop where
  wellFormed : q.wellFormed incidents = true
  limit : q.limit?.isSome = true
  state : ∀ v, q.get? "state" = some v → (lifecycle? v).isSome = true
  since : ∀ v, q.get? "since" = some v → S v

theorem find?_lifecycle (l : Lifecycle) : lifecycle? (.str (points l.text)) = some l := by
  cases l <;> decide

/-- The keys of the mode decide which branch is taken, and its values pass there. -/
theorem Mode.Holds.branch (h : m.Holds S q) (hq : q.Distinct) :
    (if q.has "resumeFrom" then
      q.within ["resumeFrom", "limit"] && (q.get? "resumeFrom").any isCanonical
    else if q.has "cursor" then
      q.exactly (if q.has "coverage" then ["cursor", "coverage"] else ["cursor"]) &&
      (q.get? "cursor").any isString &&
      (!q.has "coverage" || (q.get? "cursor").any isCanonical)
    else if q.has "coverage" then
      (q.get? "snapshot").any isTrue && q.within ["snapshot", "coverage", "state", "limit"]
    else true) = true := by
  have hnot : ∀ k : Key, k ∉ m.required ++ m.optional → q.has k.text = false := fun k => h.hasNot hq
  have hhas : ∀ k ∈ m.required, q.has k.text = true ∧ ∃ v, q.get? k.text = some v ∧ m.Admits S v k := by
    intro k hk
    have hhas := h.required k hk
    obtain ⟨v, hv⟩ := Option.isSome_iff_exists.mp hhas
    exact ⟨hhas, v, hv, (h.get? hq hv).2⟩
  cases m with
  | summary =>
      have h1 := hnot .resumeFrom (by decide)
      have h2 := hnot .cursor (by decide)
      have h3 := hnot .coverage (by decide)
      simp only [Key.text] at h1 h2 h3
      simp [h1, h2, h3]
  | plain =>
      have h1 := hnot .resumeFrom (by decide)
      have h2 := hnot .cursor (by decide)
      have h3 := hnot .coverage (by decide)
      simp only [Key.text] at h1 h2 h3
      simp [h1, h2, h3]
  | page =>
      have h1 := hnot .resumeFrom (by decide)
      have h3 := hnot .coverage (by decide)
      obtain ⟨h2, v, hv, s, rfl⟩ := hhas .cursor (by decide)
      have hwithin : q.within ["cursor"] = true := h.within (by decide)
      simp only [Key.text] at h1 h2 h3 hv
      simp [h1, h2, h3, hv, Dict.exactly, hwithin, isString]
  | coverageStart =>
      have h1 := hnot .resumeFrom (by decide)
      have h2 := hnot .cursor (by decide)
      have h3 := (hhas .coverage (by decide)).1
      obtain ⟨-, v, hv, b, rfl, hb⟩ := hhas .snapshot (by decide)
      have hwithin : q.within ["snapshot", "coverage", "state", "limit"] = true := h.within (by decide)
      simp only [Key.text] at h1 h2 h3 hv
      simp [h1, h2, h3, hv, hwithin, isTrue, hb rfl]
  | coveragePage =>
      have h1 := hnot .resumeFrom (by decide)
      have h3 := (hhas .coverage (by decide)).1
      obtain ⟨h2, v, hv, hadmits⟩ := hhas .cursor (by decide)
      have huuid : NamesUuid v := hadmits
      have hcanonical := isCanonical_iff.mpr huuid
      have hwithin : q.within ["cursor", "coverage"] = true := h.within (by decide)
      obtain ⟨u, -, -, rfl⟩ := huuid
      simp only [Key.text] at h1 h2 h3 hv
      simp [h1, h2, h3, hv, Dict.exactly, hwithin, isString, hcanonical]
  | resume =>
      obtain ⟨h1, v, hv, hadmits⟩ := hhas .resumeFrom (by decide)
      have hcanonical := isCanonical_iff.mpr hadmits
      have hwithin : q.within ["resumeFrom", "limit"] = true := h.within (by decide)
      simp only [Key.text] at h1 hv
      simp [h1, hv, hwithin, hcanonical]

theorem Mode.Holds.checked (h : m.Holds S q) (hq : q.Distinct)
    (hS : ∀ v, S v → ∃ s, v = .str s) : Checked S m.incidents q where
  wellFormed := by
    have hkeys : q.within (if m.incidents then
          ["limit", "since", "state", "snapshot", "cursor", "coverage", "resumeFrom"]
        else ["limit", "since"]) = true := h.within (by cases m <;> decide)
    have hnull : q.all (fun e => !isNull e.2) = true := by
      refine List.all_eq_true.mpr fun e he => ?_
      rw [(h.flat hS e he).1]
      rfl
    have hcoverage : (q.get? "coverage").all isTrue = true := by
      refine (Option.all_eq_true _ _).mpr fun v hv => ?_
      obtain rfl : v = .bool true := (h.get? (k := .coverage) hq hv).2
      rfl
    have hsnapshot : (q.get? "snapshot").all isBool = true := by
      refine (Option.all_eq_true _ _).mpr fun v hv => ?_
      obtain ⟨b, rfl, -⟩ := (h.get? (k := .snapshot) hq hv).2
      rfl
    rw [Dict.wellFormed, hkeys, hnull, hcoverage, hsnapshot, h.branch hq]
    rfl
  limit := by
    unfold Dict.limit?
    cases hv : q.get? "limit" with
    | none => rfl
    | some v =>
        obtain ⟨n, h1, h2, rfl⟩ := (h.get? (k := .limit) hq hv).2
        simp [h1, h2]
  state := by
    intro v hv
    obtain ⟨l, rfl⟩ := (h.get? (k := .state) hq hv).2
    rw [find?_lifecycle]
    rfl
  since := fun v hv => (h.get? (k := .since) hq hv).2

/-! ## What passes the checks is in a mode -/

theorem lifecycle_of_isSome (h : (lifecycle? v).isSome = true) :
    ∃ l : Lifecycle, v = .str (points l.text) := by
  obtain ⟨l, hl⟩ := Option.isSome_iff_exists.mp h
  unfold lifecycle? at hl
  split at hl
  · next s =>
    have htext := List.find?_some hl
    exact ⟨l, congrArg Value.str (of_decide_eq_true htext).symm⟩
  · cases hl

theorem bool_of_isTrue (h : isTrue v = true) : v = .bool true := by
  unfold isTrue at h
  split at h
  · rw [h]
  · cases h

theorem bool_of_isBool (h : isBool v = true) : ∃ b, v = .bool b := by
  unfold isBool at h
  split at h
  · exact ⟨_, rfl⟩
  · cases h

theorem str_of_isString (h : isString v = true) : ∃ s, v = .str s := by
  unfold isString at h
  split at h
  · exact ⟨_, rfl⟩
  · cases h

theorem limit_of_isSome (h : q.limit?.isSome = true) (hv : q.get? "limit" = some v) :
    ∃ n : Int, 1 ≤ n ∧ n ≤ 100 ∧ v = .int n := by
  unfold Dict.limit? at h
  rw [hv] at h
  split at h
  · next heq => cases heq
  · next n heq =>
    obtain rfl := Option.some.inj heq
    split at h
    · next hn => exact ⟨n, hn.1, hn.2, rfl⟩
    · cases h
  · cases h

/-- The keys that are there are the mode's, and their values are. -/
theorem Mode.holds_of {names : List String} (hq : q.Distinct)
    (hrequired : ∀ k ∈ m.required, q.has k.text = true) (hwithin : q.within names = true)
    (hnames : ∀ name ∈ names, name ∈ (m.required ++ m.optional).map Key.text ∨ q.has name = false)
    (hvalues : ∀ k ∈ m.required ++ m.optional, ∀ v, q.get? k.text = some v → m.Admits S v k) :
    m.Holds S q := by
  refine ⟨hrequired, fun e he => ?_⟩
  obtain ⟨name, hname, htext⟩ := List.mem_map.mp (of_decide_eq_true (List.all_eq_true.mp hwithin e he))
  have hget : q.get? name = some e.2 := (Dict.get?_eq_some hq).mpr (htext ▸ he)
  rcases hnames name hname with hkey | hno
  · obtain ⟨k, hk, rfl⟩ := List.mem_map.mp hkey
    exact ⟨k, hk, htext.symm, hvalues k hk e.2 hget⟩
  · rw [Dict.has, hget] at hno
    cases hno

theorem Checked.inMode (h : Checked S incidents q) (hq : q.Distinct) : InMode S incidents q := by
  obtain ⟨⟨⟨⟨hkeys, -⟩, hcoverage⟩, hbranch⟩, hsnapshot⟩ : (((q.within (if incidents then
        ["limit", "since", "state", "snapshot", "cursor", "coverage", "resumeFrom"]
      else ["limit", "since"]) = true ∧ _) ∧ _) ∧ _) ∧ _ := by
    simpa only [Dict.wellFormed, Bool.and_eq_true] using h.wellFormed
  have hget : ∀ {key : String}, q.has key = true → ∃ v, q.get? key = some v :=
    Option.isSome_iff_exists.mp
  -- The values of the keys that are the same in every mode.
  have hlimit : ∀ v, q.get? "limit" = some v → ∃ n : Int, 1 ≤ n ∧ n ≤ 100 ∧ v = .int n :=
    fun v hv => limit_of_isSome h.limit hv
  have hstate : ∀ v, q.get? "state" = some v → ∃ l : Lifecycle, v = .str (points l.text) :=
    fun v hv => lifecycle_of_isSome (h.state v hv)
  have htrue : ∀ v, q.get? "coverage" = some v → v = .bool true := fun v hv =>
    bool_of_isTrue ((Option.all_eq_true _ _).mp hcoverage v hv)
  have hbool : ∀ v, q.get? "snapshot" = some v → ∃ b, v = .bool b := fun v hv =>
    bool_of_isBool ((Option.all_eq_true _ _).mp hsnapshot v hv)
  cases incidents with
  | false =>
      have hsummary : ∀ name ∈ ["limit", "since"],
          name ∈ (Mode.summary.required ++ Mode.summary.optional).map Key.text := by decide
      refine ⟨.summary, rfl, Mode.holds_of hq (fun k hk => by cases hk) hkeys
        (fun name hname => Or.inl (hsummary name hname)) ?_⟩
      intro k hk v hv
      cases k with
      | limit => exact hlimit v hv
      | since => exact h.since v hv
      | _ => exact absurd hk (by decide)
  | true =>
      split at hbranch
      · next hresume =>
        obtain ⟨hwithin, hcanonical⟩ := Bool.and_eq_true_iff.mp hbranch
        have hnames : ∀ name ∈ ["resumeFrom", "limit"],
            name ∈ (Mode.resume.required ++ Mode.resume.optional).map Key.text := by decide
        refine ⟨.resume, rfl, Mode.holds_of hq ?_ hwithin (fun name hname => Or.inl (hnames name hname))
          fun k hk v hv => ?_⟩
        · intro k hk
          obtain rfl := List.mem_singleton.mp hk
          exact hresume
        · cases k with
          | limit => exact hlimit v hv
          | resumeFrom =>
              obtain ⟨v', hv', hv''⟩ := (Option.any_eq_true _ _).mp hcanonical
              obtain rfl := Option.some.inj (hv.symm.trans hv')
              exact isCanonical_iff.mp hv''
          | _ => exact absurd hk (by decide)
      · next hresume =>
        split at hbranch
        · next hcursor =>
          obtain ⟨v₀, hv₀⟩ := hget hcursor
          rw [hv₀] at hbranch
          simp only [Bool.and_eq_true, Dict.exactly, Option.any_some, Bool.or_eq_true,
            Bool.not_eq_true'] at hbranch
          obtain ⟨⟨⟨hwithin, -⟩, hstring⟩, hcovered⟩ := hbranch
          by_cases hcov : q.has "coverage" = true
          · rw [if_pos hcov] at hwithin
            have hnames : ∀ name ∈ ["cursor", "coverage"],
                name ∈ (Mode.coveragePage.required ++ Mode.coveragePage.optional).map Key.text := by decide
            refine ⟨.coveragePage, rfl, Mode.holds_of hq ?_ hwithin (fun name hname => Or.inl (hnames name hname))
              fun k hk v hv => ?_⟩
            · intro k hk
              rcases List.mem_pair.mp hk with rfl | rfl
              · exact hcursor
              · exact hcov
            · cases k with
              | coverage => exact htrue v hv
              | cursor =>
                  obtain rfl := Option.some.inj (hv.symm.trans hv₀)
                  exact isCanonical_iff.mp (hcovered.resolve_left (by rw [hcov]; decide))
              | _ => exact absurd hk (by decide)
          · rw [if_neg hcov] at hwithin
            have hnames : ∀ name ∈ ["cursor"],
                name ∈ (Mode.page.required ++ Mode.page.optional).map Key.text := by decide
            refine ⟨.page, rfl, Mode.holds_of hq ?_ hwithin (fun name hname => Or.inl (hnames name hname))
              fun k hk v hv => ?_⟩
            · intro k hk
              obtain rfl := List.mem_singleton.mp hk
              exact hcursor
            · cases k with
              | cursor =>
                  obtain rfl := Option.some.inj (hv.symm.trans hv₀)
                  exact str_of_isString hstring
              | _ => exact absurd hk (by decide)
        · next hcursor =>
          split at hbranch
          · next hcov =>
            obtain ⟨hstart, hwithin⟩ := Bool.and_eq_true_iff.mp hbranch
            obtain ⟨v₀, hv₀, htrue₀⟩ := (Option.any_eq_true _ _).mp hstart
            have hnames : ∀ name ∈ ["snapshot", "coverage", "state", "limit"],
                name ∈ (Mode.coverageStart.required ++ Mode.coverageStart.optional).map Key.text := by decide
            refine ⟨.coverageStart, rfl, Mode.holds_of hq ?_ hwithin (fun name hname => Or.inl (hnames name hname))
              fun k hk v hv => ?_⟩
            · intro k hk
              rcases List.mem_pair.mp hk with rfl | rfl
              · exact Option.isSome_iff_exists.mpr ⟨v₀, hv₀⟩
              · exact hcov
            · cases k with
              | limit => exact hlimit v hv
              | state => exact hstate v hv
              | coverage => exact htrue v hv
              | snapshot =>
                  obtain rfl := Option.some.inj (hv.symm.trans hv₀)
                  exact ⟨true, bool_of_isTrue htrue₀, fun _ => rfl⟩
              | _ => exact absurd hk (by decide)
          · next hcov =>
            refine ⟨.plain, rfl, Mode.holds_of hq (fun k hk => by cases hk) hkeys ?_ fun k hk v hv => ?_⟩
            · intro name hname
              simp only [if_true, List.mem_cons, List.not_mem_nil, or_false] at hname
              rcases hname with rfl | rfl | rfl | rfl | rfl | rfl | rfl
              · exact Or.inl (by decide)
              · exact Or.inl (by decide)
              · exact Or.inl (by decide)
              · exact Or.inl (by decide)
              · exact Or.inr (Bool.not_eq_true _ ▸ hcursor)
              · exact Or.inr (Bool.not_eq_true _ ▸ hcov)
              · exact Or.inr (Bool.not_eq_true _ ▸ hresume)
            · cases k with
              | limit => exact hlimit v hv
              | since => exact h.since v hv
              | state => exact hstate v hv
              | snapshot =>
                  obtain ⟨b, rfl⟩ := hbool v hv
                  exact ⟨b, rfl, fun h => by cases h⟩
              | _ => exact absurd hk (by decide)

theorem checked_iff (hq : q.Distinct) (hS : ∀ v, S v → ∃ s, v = .str s) :
    Checked S incidents q ↔ InMode S incidents q := by
  constructor
  · exact fun h => h.inMode hq
  · rintro ⟨m, rfl, hm⟩
    exact hm.checked hq hS

end OufGateway.Owner
