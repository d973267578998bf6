import OufGateway.Ref.Delegation

/-!
# Role references have one form

`roleRefs` lists the strings of a table in order, each once, and `roleHeader` lets
through what it would list itself. Which table a list of names sits in makes no
difference: the loop sees the names in some order and `sort` has one result
(`roleRefs_lists`). What is listed is read back word by word, since a name that
passed has no space in it, and the words come back in the order they are to be in
(`roleRefs_words`); so the second pass of `roleHeader` over a result of the first is
the first over again.
-/

namespace OufGateway.Delegation

open OufGateway.Lib.Lua

/-! ## Names -/

/-- The strings among some values. -/
def names (vs : List Value) : List Bytes :=
  vs.filterMap fun v => if let .string s := v then some s else none

theorem names_strings (ns : List Bytes) : names (ns.map .string) = ns := by
  induction ns with
  | nil => rfl
  | cons n ns ih => exact congrArg (n :: ·) ih

theorem names_append (us vs : List Value) : names (us ++ vs) = names us ++ names vs := List.filterMap_append

/-- A name that `roleRefs` takes. -/
def Name (v : Value) : Prop := ∃ s, v = .string s ∧ validName s = true

theorem validName_isWord {s : Bytes} (h : validName s = true) : IsWord s := by
  simp only [validName, Bool.and_eq_true, decide_eq_true_eq] at h
  obtain ⟨⟨hlength, -⟩, hbytes⟩ := h
  refine ⟨?_, fun b hb => ?_⟩
  · rintro rfl
    simp at hlength
  · have hbyte : roleByte b = true := List.all_eq_true.mp hbytes b hb
    simp only [roleByte, Bool.or_eq_true, Bool.and_eq_true, decide_eq_true_eq, UInt8.le_iff_toNat_le,
      ← UInt8.toNat_inj] at hbyte
    simp only [isSpace, Bool.or_eq_false_iff, decide_eq_false_iff_not, Bool.and_eq_false_iff, UInt8.le_iff_toNat_le,
      ← UInt8.toNat_inj]
    simp at hbyte ⊢
    omega

theorem mem_names {vs : List Value} {s : Bytes} : s ∈ names vs ↔ .string s ∈ vs := by
  induction vs with
  | nil => simp [names]
  | cons v vs ih => cases v <;> simp_all [names]

theorem validName_of_mem {entries : List (Value × Value)} {n : Bytes} (h : ∀ e ∈ entries, Name e.2)
    (hn : n ∈ names (entries.map (·.2))) : validName n = true := by
  obtain ⟨e, he, hen⟩ := List.mem_map.mp (mem_names.mp hn)
  obtain ⟨m, hem, hm⟩ := h e he
  rw [hem] at hen
  cases hen
  exact hm

/-! ## The loop -/

theorem collect_some {entries : List (Value × Value)} {count : Nat} {roles : List Bytes} {r : Nat × List Bytes}
    (h : collect entries count roles = some r) (hroles : roles.Nodup) :
    (∀ e ∈ entries, indexKey e.1 = true) ∧ (∀ e ∈ entries, Name e.2)
      ∧ (roles ++ names (entries.map (·.2))).Nodup
      ∧ r = (count + entries.length, roles ++ names (entries.map (·.2))) := by
  induction entries generalizing count roles with
  | nil =>
      rw [collect, Option.some.injEq] at h
      refine ⟨by simp, by simp, by simpa [names] using hroles, by simp [← h, names]⟩
  | cons e rest ih =>
      obtain ⟨k, v⟩ := e
      cases v with
      | string v =>
          rw [collect] at h
          split at h
          · next hpasses =>
              simp only [Bool.and_eq_true, decide_eq_true_eq] at hpasses
              obtain ⟨⟨hkey, hname⟩, hnew⟩ := hpasses
              have hroles' : (roles ++ [v]).Nodup := List.nodup_append.mpr
                ⟨hroles, List.nodup_singleton v, fun a ha b hb hab => hnew (by
                  rw [List.mem_singleton] at hb
                  exact hb ▸ hab ▸ ha)⟩
              obtain ⟨hkeys, hnames, hnodup, hr⟩ := ih h hroles'
              have hcons : names (((k, Value.string v) :: rest).map (·.2)) = v :: names (rest.map (·.2)) := rfl
              rw [List.append_assoc] at hnodup
              refine ⟨?_, ?_, by rw [hcons]; exact hnodup, ?_⟩
              · intro e he
                rcases List.mem_cons.mp he with rfl | he
                · exact hkey
                · exact hkeys e he
              · intro e he
                rcases List.mem_cons.mp he with rfl | he
                · exact ⟨v, rfl, hname⟩
                · exact hnames e he
              · rw [hr, hcons, List.append_assoc, List.length_cons, Nat.add_assoc, Nat.add_comm 1]
                rfl
          · cases h
      | nil => cases h
      | bool b => cases h
      | number x => cases h
      | table es n => cases h
      | other => cases h

theorem collect_taken {entries : List (Value × Value)} {count : Nat} {roles : List Bytes}
    (hkeys : ∀ e ∈ entries, indexKey e.1 = true) (hnames : ∀ e ∈ entries, Name e.2)
    (hnodup : (roles ++ names (entries.map (·.2))).Nodup) :
    collect entries count roles = some (count + entries.length, roles ++ names (entries.map (·.2))) := by
  induction entries generalizing count roles with
  | nil => simp [collect, names]
  | cons e rest ih =>
      obtain ⟨k, v⟩ := e
      obtain ⟨s, rfl, hname⟩ : Name v := hnames _ List.mem_cons_self
      have hkey : indexKey k = true := hkeys _ List.mem_cons_self
      have hcons : names (((k, Value.string s) :: rest).map (·.2)) = s :: names (rest.map (·.2)) := rfl
      rw [hcons] at hnodup ⊢
      have hnew : s ∉ roles := fun hs => (List.nodup_append.mp hnodup).2.2 s hs s List.mem_cons_self rfl
      have hnodup' : ((roles ++ [s]) ++ names (rest.map (·.2))).Nodup := by
        rw [List.append_assoc]
        exact hnodup
      rw [collect, if_pos (by simp [hkey, hname, hnew]),
        ih (fun e he => hkeys e (List.mem_cons_of_mem _ he)) (fun e he => hnames e (List.mem_cons_of_mem _ he)) hnodup',
        List.append_assoc, List.length_cons, Nat.add_assoc, Nat.add_comm 1]
      rfl

/-- The table's entries and length are what `roleRefs` lists. -/
structure Listed (entries : List (Value × Value)) (length : Nat) (s : Bytes) : Prop where
  keys : ∀ e ∈ entries, indexKey e.1 = true
  values : ∀ e ∈ entries, Name e.2
  nodup : (names (entries.map (·.2))).Nodup
  count : entries.length = length
  few : length ≤ 32
  joined : s = join (sort (names (entries.map (·.2))))
  short : s.length ≤ 4096

theorem roleRefs_table {entries : List (Value × Value)} {length : Nat} {s : Bytes} :
    roleRefs (.table entries length) = some s ↔ Listed entries length s := by
  constructor
  · intro h
    simp only [roleRefs] at h
    cases hloop : collect entries 0 [] with
    | none => simp [hloop] at h
    | some r =>
        obtain ⟨hkeys, hnames, hnodup, rfl⟩ := collect_some hloop List.nodup_nil
        simp only [hloop, Nat.zero_add, List.nil_append] at h
        split at h
        · cases h
        · next hcount =>
            split at h
            · cases h
            · next hshort =>
                cases h
                exact ⟨hkeys, hnames, hnodup, by omega, by omega, rfl, by omega⟩
  · intro h
    have hcount := h.count
    have hfew := h.few
    have hshort := h.short
    rw [h.joined] at hshort
    have hloop : collect entries 0 [] = some (0 + entries.length, [] ++ names (entries.map (·.2))) :=
      collect_taken h.keys h.values h.nodup
    simp only [roleRefs, hloop, Nat.zero_add, List.nil_append]
    rw [if_neg (by omega), if_neg (by omega), h.joined]

/-! ## Lists -/

theorem indexKey_ofNat {n : Nat} : indexKey (ofNat n) = true ↔ 1 ≤ n ∧ n ≤ 32 := by
  have hone : (1 : ℚ) ≤ n ↔ 1 ≤ n := by exact_mod_cast Iff.rfl
  have hmany : (n : ℚ) ≤ 32 ↔ n ≤ 32 := by exact_mod_cast Iff.rfl
  simp [indexKey, ofNat, hone, hmany]

/-- What `roleRefs` makes of a table that lists some values. -/
structure ListedNames (vs : List Value) (s : Bytes) : Prop where
  values : ∀ v ∈ vs, Name v
  nodup : (names vs).Nodup
  few : vs.length ≤ 32
  joined : s = join (sort (names vs))
  short : s.length ≤ 4096

theorem roleRefs_lists {t : Value} {vs : List Value} (h : Lists t vs) {s : Bytes} :
    roleRefs t = some s ↔ ListedNames vs s := by
  obtain ⟨entries, rfl, hperm⟩ := h
  have hvalues : (entries.map (·.2)).Perm vs := by simpa [map_indexed] using hperm.map (·.2)
  have hnames : (names (entries.map (·.2))).Perm (names vs) := hvalues.filterMap _
  have hlength : entries.length = vs.length := by simpa using hvalues.length_eq
  have hall : (∀ e ∈ entries, Name e.2) ↔ ∀ v ∈ vs, Name v := by
    constructor
    · intro he v hv
      obtain ⟨e, he', rfl⟩ := List.mem_map.mp (hvalues.mem_iff.mpr hv)
      exact he e he'
    · exact fun hv e he => hv e.2 (hvalues.mem_iff.mp (List.mem_map_of_mem he))
  rw [roleRefs_table]
  constructor
  · intro h
    exact ⟨hall.mp h.values, hnames.nodup_iff.mp h.nodup, h.few, by rw [h.joined, sort_perm hnames], h.short⟩
  · intro h
    refine ⟨fun e he => ?_, hall.mpr h.values, hnames.nodup_iff.mpr h.nodup, hlength, h.few,
      by rw [h.joined, sort_perm hnames], h.short⟩
    obtain ⟨j, hj, hjn, hkey⟩ := mem_indexed (hperm.mem_iff.mp he)
    have hfew := h.few
    rw [hkey, indexKey_ofNat]
    omega

theorem ListedNames.perm {us vs : List Value} {s : Bytes} (h : ListedNames us s) (hperm : us.Perm vs) :
    ListedNames vs s := by
  have hnames : (names us).Perm (names vs) := hperm.filterMap _
  exact ⟨fun v hv => h.values v (hperm.mem_iff.mpr hv), hnames.nodup_iff.mp h.nodup, hperm.length_eq ▸ h.few,
    by rw [h.joined, sort_perm hnames], h.short⟩

theorem roleRefs_perm {t u : Value} {vs ws : List Value} (ht : Lists t vs) (hu : Lists u ws) (hperm : vs.Perm ws) :
    roleRefs t = roleRefs u := by
  refine Option.ext fun s => ?_
  rw [roleRefs_lists ht, roleRefs_lists hu]
  exact ⟨fun h => h.perm hperm, fun h => h.perm hperm.symm⟩

/-! ## Words -/

/-- In order, and none twice. -/
def Ascending (ns : List Bytes) : Prop := ns.Pairwise fun m n => le m n ∧ m ≠ n

theorem ascending_sort {ns : List Bytes} (h : ns.Nodup) : Ascending (sort ns) :=
  (sorted_sort ns).and ((perm_sort ns).nodup_iff.mpr h)

theorem Ascending.nodup {ns : List Bytes} (h : Ascending ns) : ns.Nodup := h.imp And.right

theorem Ascending.sort_eq {ns : List Bytes} (h : Ascending ns) : sort ns = ns :=
  (sort_unique (.refl ns) (h.imp And.left)).symm

/-- The one form of a list of role references. -/
structure Canonical (s : Bytes) : Prop where
  single_spaced : join (words s) = s
  ascending : Ascending (words s)
  valid : ∀ n ∈ words s, validName n = true
  few : (words s).length ≤ 32
  short : s.length ≤ 4096

theorem roleRefs_words {v : Value} {s : Bytes} (h : roleRefs v = some s) : Canonical s := by
  cases v with
  | nil =>
      cases h
      exact ⟨rfl, .nil, by simp [words, wordsFrom], by simp [words, wordsFrom], by simp⟩
  | table entries length =>
      obtain ⟨-, hvalues, hnodup, hcount, hfew, hjoined, hshort⟩ := roleRefs_table.mp h
      have hvalid : ∀ n ∈ sort (names (entries.map (·.2))), validName n = true :=
        fun n hn => validName_of_mem hvalues ((perm_sort _).mem_iff.mp hn)
      have hwords : words s = sort (names (entries.map (·.2))) := by
        rw [hjoined]
        exact words_join fun n hn => validName_isWord (hvalid n hn)
      have hlength : (sort (names (entries.map (·.2)))).length ≤ entries.length :=
        calc (sort (names (entries.map (·.2)))).length = (names (entries.map (·.2))).length := (perm_sort _).length_eq
          _ ≤ (entries.map (·.2)).length := List.length_filterMap_le _ _
          _ = entries.length := List.length_map _
      refine ⟨by rw [hwords, hjoined], ?_, ?_, ?_, hshort⟩
      · rw [hwords]
        exact ascending_sort hnodup
      · rw [hwords]
        exact hvalid
      · rw [hwords]
        omega
  | bool b => cases h
  | number x => cases h
  | string s => cases h
  | other => cases h

theorem roleRefs_of_canonical {s : Bytes} (h : Canonical s) :
    roleRefs (list ((words s).map .string)) = some s := by
  rw [roleRefs_lists (lists_list _)]
  refine ⟨fun v hv => ?_, ?_, by simpa using h.few, ?_, h.short⟩
  · obtain ⟨n, hn, rfl⟩ := List.mem_map.mp hv
    exact ⟨n, rfl, h.valid n hn⟩
  · rw [names_strings]
    exact h.ascending.nodup
  · rw [names_strings, h.ascending.sort_eq, h.single_spaced]

theorem roleHeader_string {s r : Bytes} : roleHeader (.string s) = some r ↔ r = s ∧ Canonical s := by
  constructor
  · intro h
    rw [roleHeader] at h
    split at h
    · next hempty =>
        cases h
        exact ⟨hempty.symm, hempty ▸ roleRefs_words (v := .nil) rfl⟩
    · split at h
      · cases h
      · by_cases hcanonical : roleRefs (list ((words s).map .string)) = some s
        · simp only [hcanonical, ne_eq, not_true_eq_false, if_false, Option.some.injEq] at h
          exact ⟨h.symm, roleRefs_words hcanonical⟩
        · simp [hcanonical] at h
  · rintro ⟨rfl, h⟩
    have hagain := roleRefs_of_canonical h
    rw [roleHeader]
    split
    · next hempty => rw [hempty]
    · have hshort := h.short
      rw [if_neg (by omega), if_neg (not_not.mpr hagain), hagain]

theorem roleRefs_refuses_or_lists (v : Value) :
    roleRefs v = none ∨ v = .nil ∧ roleRefs v = some []
      ∨ ∃ entries length, ∃ ns sorted : List Bytes, v = .table entries length ∧ entries.map (·.2) = ns.map .string
          ∧ (∀ n ∈ ns, validName n = true) ∧ sorted.Perm ns ∧ Ascending sorted ∧ roleRefs v = some (join sorted) := by
  cases hv : roleRefs v with
  | none => exact .inl rfl
  | some s =>
      refine .inr ?_
      cases v with
      | nil => exact .inl ⟨rfl, hv.symm⟩
      | table entries length =>
          have hlisted := roleRefs_table.mp hv
          have hstrings : ∀ es : List (Value × Value), (∀ e ∈ es, Name e.2) →
              es.map (·.2) = (names (es.map (·.2))).map .string := by
            intro es hes
            induction es with
            | nil => rfl
            | cons e es ih =>
                obtain ⟨s, hs, -⟩ := hes e List.mem_cons_self
                rw [List.map_cons, hs, ih fun e he => hes e (List.mem_cons_of_mem _ he)]
                simp [names]
          refine .inr ⟨entries, length, names (entries.map (·.2)), sort (names (entries.map (·.2))), rfl,
            hstrings entries hlisted.values, fun n hn => validName_of_mem hlisted.values hn, perm_sort _,
            ascending_sort hlisted.nodup, by rw [hlisted.joined]⟩
      | bool b => cases hv
      | number x => cases hv
      | string s => cases hv
      | other => cases hv

/-- `roleRefs` refuses a value or lists the names in it in order, whichever way they come; `roleHeader` leaves such
a listing as it is and lets through nothing else. -/
theorem role_names_have_one_form :
    (∀ v, roleRefs v = none ∨ v = .nil ∧ roleRefs v = some []
      ∨ ∃ entries length, ∃ ns sorted : List Bytes, v = .table entries length ∧ entries.map (·.2) = ns.map .string
          ∧ (∀ n ∈ ns, validName n = true) ∧ sorted.Perm ns ∧ Ascending sorted ∧ roleRefs v = some (join sorted))
      ∧ (∀ t u vs ws, Lists t vs → Lists u ws → vs.Perm ws → roleRefs t = roleRefs u)
      ∧ (∀ v s, roleRefs v = some s → roleHeader (.string s) = some s)
      ∧ (∀ v, roleHeader v ≠ none ↔ v = .nil ∨ v = .string [] ∨ ∃ u s, v = .string s ∧ roleRefs u = some s)
      ∧ ∀ s, roleHeader (.string s) ≠ none ↔ Canonical s := by
  have hstring : ∀ s, roleHeader (.string s) ≠ none ↔ Canonical s := by
    intro s
    rw [Option.ne_none_iff_exists']
    constructor
    · rintro ⟨r, hr⟩
      exact (roleHeader_string.mp hr).2
    · exact fun h => ⟨s, roleHeader_string.mpr ⟨rfl, h⟩⟩
  refine ⟨roleRefs_refuses_or_lists, fun t u vs ws ht hu => roleRefs_perm ht hu,
    fun v s hv => roleHeader_string.mpr ⟨rfl, roleRefs_words hv⟩, fun v => ?_, hstring⟩
  constructor
  · intro h
    cases v with
    | nil => exact .inl rfl
    | string s => exact .inr (.inr ⟨_, s, rfl, roleRefs_of_canonical ((hstring s).mp h)⟩)
    | bool b => exact absurd rfl h
    | number x => exact absurd rfl h
    | table entries length => exact absurd rfl h
    | other => exact absurd rfl h
  · rintro (rfl | rfl | ⟨u, s, rfl, hu⟩)
    · exact Option.some_ne_none _
    · exact Option.some_ne_none _
    · exact (hstring s).mpr (roleRefs_words hu)

end OufGateway.Delegation
