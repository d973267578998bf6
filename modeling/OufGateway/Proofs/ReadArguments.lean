import OufGateway.Ref.ReadArguments

/-!
# Arguments the schema admits

Of what a schema admits the executor refuses what has more bytes than it has code
points, and the few characters the two sides class differently: a delete character,
which is `%c` and not below `\x20`, and the line break that `$` looks past. Whole
numbers, kinds, UUIDs and the names of the members never differ. A byte below 128 in
a text is one of its characters (`mem_bytes`), and so what the executor looks for in
the bytes is looked for in the characters.
-/

namespace OufGateway.ReadArguments

open OufGateway.Lib
open Encoding (encode)
open Delegation (isWordByte)
open Lua (Bytes Value isControl)
open LuaString (utf8Point)

/-! ## Bytes and characters -/

theorem utf8Point_ascii {p : Nat} (h : p < 128) : utf8Point p = [UInt8.ofNat p] := by
  rw [utf8Point, if_pos h]
  rfl

/-- A character that is not ASCII has bytes from 128 on. -/
theorem le_of_mem_utf8Point {p : Nat} (hp : p < 1114112) (h : 128 ≤ p) : ∀ b ∈ utf8Point p, 128 ≤ b.toNat := by
  intro b hb
  rw [utf8Point, if_neg (by omega)] at hb
  split at hb
  · simp only [encode, List.map_cons, List.map_nil, List.mem_cons, List.not_mem_nil, or_false] at hb
    rcases hb with rfl | rfl <;> rw [UInt8.toNat_ofNat'] <;> omega
  · split at hb
    · simp only [encode, List.map_cons, List.map_nil, List.mem_cons, List.not_mem_nil, or_false] at hb
      rcases hb with rfl | rfl | rfl <;> rw [UInt8.toNat_ofNat'] <;> omega
    · simp only [encode, List.map_cons, List.map_nil, List.mem_cons, List.not_mem_nil, or_false] at hb
      rcases hb with rfl | rfl | rfl | rfl <;> rw [UInt8.toNat_ofNat'] <;> omega

theorem utf8Point_ne_nil (p : Nat) : utf8Point p ≠ [] := by
  unfold utf8Point
  split
  · exact List.cons_ne_nil _ _
  · split
    · exact List.cons_ne_nil _ _
    · split <;> exact List.cons_ne_nil _ _

theorem mem_bytes {s : String} {b : UInt8} (h : b.toNat < 128) : b ∈ bytes s ↔ ∃ c ∈ s.toList, c.toNat = b.toNat := by
  rw [bytes, List.mem_flatMap]
  refine exists_congr fun c => and_congr_right fun _ => ?_
  by_cases hc : c.toNat < 128
  · rw [utf8Point_ascii hc, List.mem_singleton, ← UInt8.toNat_inj, UInt8.toNat_ofNat']
    omega
  · constructor
    · intro hb
      have hle := le_of_mem_utf8Point (Json.toNat_lt c) (by omega) b hb
      omega
    · omega

theorem bytes_ascii {s : String} (h : ∀ c ∈ s.toList, c.toNat < 128) :
    bytes s = s.toList.map fun c => UInt8.ofNat c.toNat := by
  rw [bytes]
  generalize s.toList = cs at h ⊢
  induction cs with
  | nil => rfl
  | cons c cs ih =>
      rw [List.flatMap_cons, utf8Point_ascii (h c List.mem_cons_self), ih fun d hd => h d (List.mem_cons_of_mem _ hd)]
      rfl

theorem length_le_bytes (s : String) : s.length ≤ (bytes s).length := by
  rw [bytes, ← String.length_toList]
  induction s.toList with
  | nil => exact Nat.le_refl 0
  | cons c cs ih =>
      have hpos := List.length_pos_iff.mpr (utf8Point_ne_nil c.toNat)
      rw [List.flatMap_cons, List.length_append, List.length_cons]
      omega

/-- An ASCII name is the only text with its bytes. -/
theorem bytes_eq_iff {s name : String} (hname : ∀ c ∈ name.toList, c.toNat < 128) : bytes s = bytes name ↔ s = name := by
  constructor
  · intro h
    have hs : ∀ c ∈ s.toList, c.toNat < 128 := by
      intro c hc
      by_contra hlarge
      obtain ⟨b, hb⟩ := List.exists_mem_of_ne_nil _ (utf8Point_ne_nil c.toNat)
      have hle := le_of_mem_utf8Point (Json.toNat_lt c) (by omega) b hb
      have hin : b ∈ bytes s := List.mem_flatMap.mpr ⟨c, hc, hb⟩
      rw [h, bytes_ascii hname] at hin
      obtain ⟨d, hd, rfl⟩ := List.mem_map.mp hin
      have hsmall := hname d hd
      rw [UInt8.toNat_ofNat'] at hle
      omega
    rw [bytes_ascii hs, bytes_ascii hname] at h
    have hback : ∀ cs : List Char, (∀ c ∈ cs, c.toNat < 128) →
        (cs.map fun c => UInt8.ofNat c.toNat).map (fun b => Char.ofNat b.toNat) = cs := by
      intro cs hcs
      rw [List.map_map]
      refine (List.map_congr_left fun c hc => ?_).trans (List.map_id cs)
      have hmod : (UInt8.ofNat c.toNat).toNat = c.toNat := by
        have hsmall := hcs c hc
        rw [UInt8.toNat_ofNat']
        omega
      rw [Function.comp_apply, hmod, Char.ofNat_toNat]
      rfl
    rw [← String.toList_inj, ← hback s.toList hs, h, hback name.toList hname]
  · rintro rfl
    rfl

/-! ## Members -/

/-- The names of the members the executors know are ASCII. -/
def Plain (name : String) : Prop := ∀ c ∈ name.toList, c.toNat < 128

theorem isString_bytes {k name : String} (h : Plain name) :
    (Value.string (bytes k)).isString (bytes name) = decide (k = name) :=
  decide_eq_decide.mpr (bytes_eq_iff h)

theorem field_decoded (members : List (String × Json)) {name : String} (h : Plain name) :
    (decoded (.obj members)).field (bytes name) = ((Json.ofLookup members name).map decoded).getD .nil := by
  rw [decoded, Value.field, Value.lookup, Json.ofLookup]
  induction members with
  | nil => rfl
  | cons m members ih =>
      obtain ⟨k, v⟩ := m
      rw [decodedMembers, List.find?_cons, List.find?_cons, isString_bytes h]
      by_cases hk : k = name
      · simp [hk]
      · simpa [hk] using ih

theorem keyIn_bytes {names : List String} (h : ∀ name ∈ names, Plain name) (k : String) :
    keyIn names (.string (bytes k)) = decide (k ∈ names) := by
  induction names with
  | nil => rfl
  | cons name names ih =>
      have hrest := ih fun n hn => h n (List.mem_cons_of_mem _ hn)
      rw [keyIn] at hrest
      rw [keyIn, List.any_cons, isString_bytes (h name List.mem_cons_self), hrest]
      simp [List.mem_cons]

theorem all_decodedMembers {check : Value × Value → Bool} {members : List (String × Json)} :
    (decodedMembers members).all check = true ↔
      ∀ m ∈ members, check (.string (bytes m.1), decoded m.2) = true := by
  induction members with
  | nil => simp [decodedMembers]
  | cons m members ih =>
      obtain ⟨k, v⟩ := m
      simp [decodedMembers, ih]

theorem decoded_ne_nil (v : Json) : decoded v ≠ .nil := by
  cases v <;> simp [decoded, Lua.list]

theorem optional_field {check : Value → Bool} (o : Option Json) :
    optional check ((o.map decoded).getD .nil) = true ↔ ∀ v, o = some v → check (decoded v) = true := by
  cases o with
  | none => simp [optional]
  | some v =>
      have hne := decoded_ne_nil v
      simp only [Option.map_some, Option.getD_some, Option.some.injEq, forall_eq']
      cases hv : decoded v with
      | nil =>
          exact absurd hv hne
      | _ => rfl

/-- What an object schema says of the members. -/
structure Shaped (required : List String) (properties : List (String × (Json → Bool)))
    (members : List (String × Json)) : Prop where
  required : ∀ k ∈ required, ∃ v, Json.ofLookup members k = some v
  known : ∀ m ∈ members, ∃ check, (m.1, check) ∈ properties ∧ check m.2 = true

theorem object_spec {required : List String} {properties : List (String × (Json → Bool))} {a : Json}
    (h : object required properties a = true) : ∃ members, a = .obj members ∧ Shaped required properties members := by
  cases a with
  | obj members =>
      simp only [object, Bool.and_eq_true] at h
      refine ⟨members, rfl, fun k hk => ?_, fun m hm => ?_⟩
      · obtain ⟨m, hm, hmk⟩ := List.any_eq_true.mp (List.all_eq_true.mp h.1 k hk)
        have hsome : (members.find? (·.1 = k)).isSome = true := List.find?_isSome.mpr ⟨m, hm, hmk⟩
        obtain ⟨n, hn⟩ := Option.isSome_iff_exists.mp hsome
        exact ⟨n.2, by rw [Json.ofLookup, hn]; rfl⟩
      · obtain ⟨p, hp, hcheck⟩ := List.any_eq_true.mp (List.all_eq_true.mp h.2 m hm)
        simp only [Bool.and_eq_true, decide_eq_true_eq] at hcheck
        exact ⟨p.2, hcheck.1 ▸ hp, hcheck.2⟩
  | _ => cases h

theorem mem_of_ofLookup {members : List (String × Json)} {k : String} {v : Json} (h : Json.ofLookup members k = some v) :
    (k, v) ∈ members := by
  rw [Json.ofLookup, Option.map_eq_some_iff] at h
  obtain ⟨m, hm, rfl⟩ := h
  have hk : m.1 = k := by simpa using List.find?_some hm
  exact hk ▸ List.mem_of_find?_eq_some hm

/-! ## Values -/

theorem wholeTo100_decoded {v : Json} (h : integer 1 100 v = true) : wholeTo100 (decoded v) = true := by
  cases v with
  | int n =>
      simp only [integer, Bool.and_eq_true, decide_eq_true_eq] at h
      have hone : (1 : ℚ) ≤ n := by exact_mod_cast h.1
      have hmany : (n : ℚ) ≤ 100 := by exact_mod_cast h.2
      simp [decoded, wholeTo100, hone, hmany]
  | float q digits =>
      simp only [integer, Bool.and_eq_true, decide_eq_true_eq] at h
      obtain ⟨⟨hden, hone⟩, hmany⟩ := h
      push_cast at hone hmany
      simp [decoded, wholeTo100, hden, hone, hmany]
  | _ => cases h

theorem knownKind_decoded {v : Json} (h : kind v = true) : knownKind (decoded v) = true := by
  cases v with
  | str s =>
      rw [kind, List.contains_iff_mem] at h
      exact List.any_eq_true.mpr ⟨s, h, decide_eq_true rfl⟩
  | _ => cases h

theorem isHex_byte {c : Char} (h : isHex c = true) :
    c.toNat < 128 ∧ isHexByte (UInt8.ofNat c.toNat) = true := by
  simp only [isHex, Bool.or_eq_true, List.contains_iff_mem, List.mem_cons, List.not_mem_nil, or_false] at h
  rcases h with hdigit | rfl | rfl | rfl | rfl | rfl | rfl | rfl | rfl | rfl | rfl | rfl | rfl
  · have hrange : 48 ≤ c.toNat ∧ c.toNat ≤ 57 := by
      simp only [Char.isDigit, Bool.and_eq_true, decide_eq_true_eq, UInt32.le_iff_toNat_le] at hdigit
      exact hdigit
    have hbyte : (UInt8.ofNat c.toNat).toNat = c.toNat := by
      rw [UInt8.toNat_ofNat']
      omega
    refine ⟨by omega, ?_⟩
    simp only [isHexByte, Bool.or_eq_true, Bool.and_eq_true, decide_eq_true_eq, UInt8.le_iff_toNat_le, hbyte]
    exact .inl (.inl (.inl hrange))
  all_goals decide

theorem luaUuid_decoded {v : Json} (h : uuid v = true) : luaUuid (decoded v) = true := by
  cases v with
  | str s =>
      simp only [uuid, uuidFormat, Bool.and_eq_true, decide_eq_true_eq] at h
      obtain ⟨hlength, hall⟩ := h
      rw [← String.length_toList] at hlength
      have hat : ∀ i c, s.toList[i]? = some c → if [8, 13, 18, 23].contains i then c = '-' else isHex c = true := by
        intro i c hc
        have hpair := List.all_eq_true.mp hall (c, i) (List.mem_zipIdx_iff_getElem?.mpr hc)
        split <;> simp_all
      have hbytes : ∀ c ∈ s.toList, c.toNat < 128 ∧ isHexByte (UInt8.ofNat c.toNat) = true := by
        intro c hc
        obtain ⟨i, hi⟩ := List.mem_iff_getElem?.mp hc
        have hc := hat i c hi
        split at hc
        · rw [hc]
          decide
        · exact isHex_byte hc
      have htext := bytes_ascii fun c hc => (hbytes c hc).1
      simp only [decoded, luaUuid, htext, Bool.and_eq_true, decide_eq_true_eq, List.length_map, List.all_eq_true,
        List.mem_map]
      refine ⟨⟨hlength, ?_⟩, fun i hi => ?_⟩
      · rintro b ⟨c, hc, rfl⟩
        exact (hbytes c hc).2
      · have hlt : i < s.toList.length := by
          simp only [List.mem_cons, List.not_mem_nil, or_false] at hi
          omega
        have hc := hat i _ (List.getElem?_eq_getElem hlt)
        rw [if_pos (List.contains_iff_mem.mpr hi)] at hc
        rw [List.getElem?_map, List.getElem?_eq_getElem hlt, hc]
        rfl
  | _ => cases h

theorem sized_bytes {most : Nat} {rest : Bytes → Bool} {s : String} (h : 1 ≤ s.length) :
    sized most rest (.string (bytes s)) = true ↔ (bytes s).length ≤ most ∧ rest (bytes s) = true := by
  have hlength := length_le_bytes s
  have hone : 1 ≤ (bytes s).length := by omega
  simp [sized, hone]

theorem body_eq {s : String} (h : '\n' ∉ s.toList) : Text.body s = s.toList := by
  rw [Text.body, if_neg]
  intro hlast
  exact h (List.mem_of_getLast? (eq_of_beq hlast))

theorem mem_bytes_char {s : String} {c : Char} (hc : c.toNat < 128) (h : c ∈ s.toList) :
    UInt8.ofNat c.toNat ∈ bytes s := by
  have hbyte : (UInt8.ofNat c.toNat).toNat = c.toNat := by
    rw [UInt8.toNat_ofNat']
    omega
  exact (mem_bytes (by omega)).mpr ⟨c, h, hbyte.symm⟩

/-- The types the executor takes among those of the schema. -/
theorem type_accepted_iff {s : String} (hlength : 1 ≤ s.length) (h : typePattern s = true) :
    sized 128 (fun s => !s.any fun b => b = 42 || b = 37 || isControl b) (.string (bytes s)) = true ↔
      (bytes s).length ≤ 128 ∧ '\n' ∉ s.toList ∧ '\x7f' ∉ s.toList := by
  rw [sized_bytes hlength]
  refine and_congr_right fun _ => ?_
  have hfine : (!(bytes s).any fun b => b = 42 || b = 37 || isControl b) = true ↔
      ∀ b ∈ bytes s, ¬ (b = 42 || b = 37 || isControl b) = true := by
    rw [Bool.not_eq_true', ← Bool.not_eq_true, List.any_eq_true]
    push Not
    rfl
  rw [hfine]
  constructor
  · intro hbytes
    exact ⟨fun hline => hbytes _ (mem_bytes_char (by decide) hline) (by decide),
      fun hdelete => hbytes _ (mem_bytes_char (by decide) hdelete) (by decide)⟩
  · rintro ⟨hline, hdelete⟩ b hb hbad
    rw [typePattern, Text.wholly, body_eq hline, Text.nonempty, Bool.and_eq_true] at h
    simp only [isControl, Bool.or_eq_true, decide_eq_true_eq, UInt8.lt_iff_toNat_lt, ← UInt8.toNat_inj] at hbad
    have hsmall : b.toNat < 128 := by
      simp at hbad
      omega
    obtain ⟨c, hc, hcb⟩ := (mem_bytes hsmall).mp hb
    have hplain := List.all_eq_true.mp h.2 c hc
    simp only [Bool.and_eq_true, decide_eq_true_eq] at hplain
    obtain ⟨⟨hstar, hpercent⟩, hlow⟩ := hplain
    have hne : ∀ d : Char, c ≠ d → c.toNat ≠ d.toNat := fun d hcd heq => hcd (Char.toNat_inj.mp heq)
    have hstar := hne _ hstar
    have hpercent := hne _ hpercent
    have hdelete := hne '\x7f' fun heq => hdelete (heq ▸ hc)
    simp at hbad hstar hpercent hdelete
    omega

theorem isWord_byte {c : Char} (h : (c.isAlphanum || c = '_' || c = '-') = true) :
    c.toNat < 128 ∧ isWordByte (UInt8.ofNat c.toNat) = true := by
  simp only [Char.isAlphanum, Char.isAlpha, Char.isUpper, Char.isLower, Char.isDigit, Bool.or_eq_true,
    Bool.and_eq_true, decide_eq_true_eq, ge_iff_le, UInt32.le_iff_toNat_le] at h
  have hrange : c.toNat < 128 := by
    rcases h with (((h | h) | h) | rfl) | rfl
    · exact Nat.lt_of_le_of_lt h.2 (by decide)
    · exact Nat.lt_of_le_of_lt h.2 (by decide)
    · exact Nat.lt_of_le_of_lt h.2 (by decide)
    · decide
    · decide
  have hbyte : (UInt8.ofNat c.toNat).toNat = c.toNat := by
    rw [UInt8.toNat_ofNat']
    omega
  refine ⟨hrange, ?_⟩
  simp only [isWordByte, Bool.or_eq_true, Bool.and_eq_true, decide_eq_true_eq, UInt8.le_iff_toNat_le, hbyte]
  rcases h with (((h | h) | h) | rfl) | rfl
  · exact .inl (.inl (.inl (.inr h)))
  · exact .inl (.inl (.inr h))
  · exact .inl (.inl (.inl (.inl h)))
  · exact .inl (.inr rfl)
  · exact .inr rfl

/-- The cursors the executor takes among those of the schema. -/
theorem cursor_accepted_iff {s : String} (hlength : 1 ≤ s.length) (hmost : s.length ≤ 128) (h : cursorPattern s = true) :
    sized 128 (·.all isWordByte) (.string (bytes s)) = true ↔ '\n' ∉ s.toList := by
  rw [sized_bytes hlength]
  constructor
  · rintro ⟨-, hall⟩ hline
    have hbyte := List.all_eq_true.mp hall _ (mem_bytes_char (by decide) hline)
    revert hbyte
    decide
  · intro hline
    rw [cursorPattern, Text.wholly, body_eq hline, Text.nonempty, Bool.and_eq_true] at h
    have hplain : ∀ c ∈ s.toList, c.toNat < 128 ∧ isWordByte (UInt8.ofNat c.toNat) = true :=
      fun c hc => isWord_byte (List.all_eq_true.mp h.2 c hc)
    rw [bytes_ascii fun c hc => (hplain c hc).1, List.length_map, String.length_toList]
    refine ⟨hmost, List.all_eq_true.mpr fun b hb => ?_⟩
    obtain ⟨c, hc, rfl⟩ := List.mem_map.mp hb
    exact (hplain c hc).2

/-! ## Arguments -/

/-- The names the executors look members up by. -/
def memberNames : List String :=
  ["type", "pageSize", "cursor", "q", "limit", "namespace", "domain", "range", "semanticId", "revisionId",
    "publicationSetId"]

theorem plain_names : ∀ name ∈ memberNames, Plain name := by
  have hall : (memberNames.all fun name => name.toList.all fun c => decide (c.toNat < 128)) = true := by decide
  intro name hname c hc
  exact of_decide_eq_true (List.all_eq_true.mp (List.all_eq_true.mp hall name hname) c hc)

section

variable {members : List (String × Json)}

theorem objectSearchAccepts_obj :
    objectSearchAccepts (decoded (.obj members)) = true ↔
      sized 128 (fun s => !s.any fun b => b = 42 || b = 37 || isControl b)
          (((Json.ofLookup members "type").map decoded).getD .nil) = true
        ∧ (∀ v, Json.ofLookup members "pageSize" = some v → wholeTo100 (decoded v) = true)
        ∧ (∀ v, Json.ofLookup members "cursor" = some v → sized 128 (·.all isWordByte) (decoded v) = true)
        ∧ ∀ m ∈ members, m.1 ∈ ["type", "pageSize", "cursor"] := by
  have hentries : entriesOf (decoded (.obj members)) = some (decodedMembers members) := rfl
  have hin : ∀ name ∈ ["type", "pageSize", "cursor"], name ∈ memberNames := by decide
  have hnames := fun name h => plain_names name (hin name h)
  rw [objectSearchAccepts, hentries]
  simp only [field_decoded members (hnames _ (by simp : "type" ∈ _)),
    field_decoded members (hnames _ (by simp : "pageSize" ∈ _)),
    field_decoded members (hnames _ (by simp : "cursor" ∈ _)), Bool.and_eq_true, optional_field, all_decodedMembers,
    keyIn_bytes hnames, decide_eq_true_eq, and_assoc]

theorem semanticSearchAccepts_obj :
    semanticSearchAccepts (decoded (.obj members)) = true ↔
      sized 256 (fun _ => true) (((Json.ofLookup members "q").map decoded).getD .nil) = true
        ∧ (∀ v, Json.ofLookup members "limit" = some v → wholeTo100 (decoded v) = true)
        ∧ (∀ v, Json.ofLookup members "type" = some v → knownKind (decoded v) = true)
        ∧ ∀ m ∈ members, m.1 ∈ ["q", "limit", "type"] ∨
            ∃ size ∈ allowedSizes, m.1 = size.1 ∧ sized size.2 (fun _ => true) (decoded m.2) = true := by
  have hentries : entriesOf (decoded (.obj members)) = some (decodedMembers members) := rfl
  have hin : ∀ name ∈ ["q", "limit", "type"], name ∈ memberNames := by decide
  have hnames := fun name h => plain_names name (hin name h)
  have hknown : ∀ size ∈ allowedSizes, size.1 ∈ memberNames := by decide
  have hsizes := fun size h => plain_names size.1 (hknown size h)
  have hentry : ∀ m : String × Json, allowedEntry (.string (bytes m.1), decoded m.2) = true ↔
      m.1 ∈ ["q", "limit", "type"] ∨
        ∃ size ∈ allowedSizes, m.1 = size.1 ∧ sized size.2 (fun _ => true) (decoded m.2) = true := by
    intro m
    rw [allowedEntry, Bool.or_eq_true, keyIn_bytes hnames, decide_eq_true_eq, List.any_eq_true]
    refine or_congr_right (exists_congr fun size => and_congr_right fun hsize => ?_)
    rw [isString_bytes (hsizes size hsize), Bool.and_eq_true, decide_eq_true_eq]
  rw [semanticSearchAccepts, hentries]
  simp only [field_decoded members (hnames _ (by simp : "q" ∈ _)), field_decoded members (hnames _ (by simp : "limit" ∈ _)),
    field_decoded members (hnames _ (by simp : "type" ∈ _)), Bool.and_eq_true, optional_field, all_decodedMembers,
    hentry, and_assoc]

theorem semanticGetAccepts_obj :
    semanticGetAccepts (decoded (.obj members)) = true ↔
      sized 2048 (fun _ => true) (((Json.ofLookup members "semanticId").map decoded).getD .nil) = true
        ∧ luaUuid (((Json.ofLookup members "revisionId").map decoded).getD .nil) = true
        ∧ luaUuid (((Json.ofLookup members "publicationSetId").map decoded).getD .nil) = true
        ∧ ∀ m ∈ members, m.1 ∈ ["semanticId", "revisionId", "publicationSetId"] := by
  have hentries : entriesOf (decoded (.obj members)) = some (decodedMembers members) := rfl
  have hin : ∀ name ∈ ["semanticId", "revisionId", "publicationSetId"], name ∈ memberNames := by decide
  have hnames := fun name h => plain_names name (hin name h)
  rw [semanticGetAccepts, hentries]
  simp only [field_decoded members (hnames _ (by simp : "semanticId" ∈ _)),
    field_decoded members (hnames _ (by simp : "revisionId" ∈ _)),
    field_decoded members (hnames _ (by simp : "publicationSetId" ∈ _)), Bool.and_eq_true, all_decodedMembers,
    keyIn_bytes hnames, decide_eq_true_eq, and_assoc]

theorem string_spec {least most : Nat} {rest : String → Bool} {v : Json} (h : string least most rest v = true) :
    ∃ s, v = .str s ∧ least ≤ s.length ∧ s.length ≤ most ∧ rest s = true := by
  cases v with
  | str s =>
      simp only [string, Bool.and_eq_true, decide_eq_true_eq] at h
      exact ⟨s, rfl, h.1.1, h.1.2, h.2⟩
  | _ => cases h

end

/-- The texts have the bytes the executor allows, and no line break behind or delete character. -/
def FitsObjectSearch (a : Json) : Prop :=
  (∀ s, a.get? "type" = some (.str s) → (bytes s).length ≤ 128 ∧ '\n' ∉ s.toList ∧ '\x7f' ∉ s.toList) ∧
    ∀ s, a.get? "cursor" = some (.str s) → '\n' ∉ s.toList

/-- The texts have the bytes the executor allows. -/
def FitsSemanticSearch (a : Json) : Prop :=
  (∀ s, a.get? "q" = some (.str s) → (bytes s).length ≤ 256) ∧
    ∀ members, a = .obj members → ∀ size ∈ allowedSizes, ∀ s, (size.1, .str s) ∈ members → (bytes s).length ≤ size.2

def FitsSemanticGet (a : Json) : Prop := ∀ s, a.get? "semanticId" = some (.str s) → (bytes s).length ≤ 2048

theorem Shaped.value {required : List String} {properties : List (String × (Json → Bool))}
    {members : List (String × Json)} (h : Shaped required properties members) {k : String} {v : Json}
    (hv : Json.ofLookup members k = some v) : ∃ check, (k, check) ∈ properties ∧ check v = true :=
  h.known _ (mem_of_ofLookup hv)

theorem objectSearch_accepted_iff {a : Json} (h : objectSearchSchema a = true) :
    objectSearchAccepts (decoded a) = true ↔ FitsObjectSearch a := by
  obtain ⟨members, rfl, hshaped⟩ := object_spec h
  have hkeys : ∀ m ∈ members, m.1 ∈ ["type", "pageSize", "cursor"] := by
    intro m hm
    obtain ⟨check, hcheck, -⟩ := hshaped.known m hm
    exact List.mem_map_of_mem (f := Prod.fst) hcheck
  have hsize : ∀ v, Json.ofLookup members "pageSize" = some v → wholeTo100 (decoded v) = true := by
    intro v hv
    obtain ⟨check, hcheck, hvalid⟩ := hshaped.value hv
    obtain rfl : check = integer 1 100 := by simpa using hcheck
    exact wholeTo100_decoded hvalid
  have hcursor : ∀ v, Json.ofLookup members "cursor" = some v → ∃ s, v = .str s ∧
      (sized 128 (·.all isWordByte) (.string (bytes s)) = true ↔ '\n' ∉ s.toList) := by
    intro v hv
    obtain ⟨check, hcheck, hvalid⟩ := hshaped.value hv
    obtain rfl : check = string 1 128 cursorPattern := by simpa using hcheck
    obtain ⟨s, rfl, hleast, hmost, hpattern⟩ := string_spec hvalid
    exact ⟨s, rfl, cursor_accepted_iff hleast hmost hpattern⟩
  obtain ⟨v, hv⟩ := hshaped.required "type" (by simp)
  obtain ⟨check, hcheck, hvalid⟩ := hshaped.value hv
  obtain rfl : check = string 1 128 typePattern := by simpa using hcheck
  obtain ⟨s, rfl, hleast, -, hpattern⟩ := string_spec hvalid
  rw [objectSearchAccepts_obj, hv, FitsObjectSearch]
  simp only [Option.map_some, Option.getD_some, decoded, type_accepted_iff hleast hpattern, Json.get?, hv,
    Option.some.injEq, Json.str.injEq, forall_eq']
  refine and_congr_right fun _ => ?_
  constructor
  · rintro ⟨-, hall, -⟩ t ht
    obtain ⟨t', ht', hiff⟩ := hcursor _ ht
    cases ht'
    exact hiff.mp (hall _ ht)
  · intro hfits
    refine ⟨hsize, fun v hv => ?_, hkeys⟩
    obtain ⟨t, rfl, hiff⟩ := hcursor v hv
    exact hiff.mpr (hfits t hv)

theorem semanticSearch_accepted_iff {a : Json} (h : semanticSearchSchema a = true) :
    semanticSearchAccepts (decoded a) = true ↔ FitsSemanticSearch a := by
  obtain ⟨members, rfl, hshaped⟩ := object_spec h
  have hlimit : ∀ v, Json.ofLookup members "limit" = some v → wholeTo100 (decoded v) = true := by
    intro v hv
    obtain ⟨check, hcheck, hvalid⟩ := hshaped.value hv
    obtain rfl : check = integer 1 100 := by simpa using hcheck
    exact wholeTo100_decoded hvalid
  have hkind : ∀ v, Json.ofLookup members "type" = some v → knownKind (decoded v) = true := by
    intro v hv
    obtain ⟨check, hcheck, hvalid⟩ := hshaped.value hv
    obtain rfl : check = kind := by simpa using hcheck
    exact knownKind_decoded hvalid
  -- A member is one of the three that the loop passes over, or a text under one of the sizes.
  have hmember : ∀ m ∈ members, m.1 ∈ ["q", "limit", "type"] ∨ ∃ size ∈ allowedSizes, m.1 = size.1 ∧
      ∃ s, m.2 = .str s ∧ 1 ≤ s.length := by
    intro m hm
    obtain ⟨check, hcheck, hvalid⟩ := hshaped.known m hm
    obtain ⟨k, v⟩ := m
    simp only [List.mem_cons, List.not_mem_nil, or_false, Prod.mk.injEq] at hcheck
    rcases hcheck with ⟨rfl, rfl⟩ | ⟨rfl, rfl⟩ | ⟨rfl, rfl⟩ | ⟨rfl, rfl⟩ | ⟨rfl, rfl⟩ | ⟨rfl, rfl⟩
    · exact .inl (by simp)
    · exact .inl (by simp)
    · exact .inl (by simp)
    · obtain ⟨s, rfl, hleast, -⟩ := string_spec hvalid
      exact .inr ⟨("namespace", 512), by simp [allowedSizes], rfl, s, rfl, hleast⟩
    · obtain ⟨s, rfl, hleast, -⟩ := string_spec hvalid
      exact .inr ⟨("domain", 2048), by simp [allowedSizes], rfl, s, rfl, hleast⟩
    · obtain ⟨s, rfl, hleast, -⟩ := string_spec hvalid
      exact .inr ⟨("range", 2048), by simp [allowedSizes], rfl, s, rfl, hleast⟩
  have hapart : ∀ size ∈ allowedSizes, size.1 ∉ ["q", "limit", "type"] := by decide
  have hsame : ∀ size ∈ allowedSizes, ∀ size' ∈ allowedSizes, size.1 = size'.1 → size = size' := by decide
  obtain ⟨v, hv⟩ := hshaped.required "q" (by simp)
  obtain ⟨check, hcheck, hvalid⟩ := hshaped.value hv
  obtain rfl : check = string 1 256 fun _ => true := by simpa using hcheck
  obtain ⟨s, rfl, hleast, -⟩ := string_spec hvalid
  rw [semanticSearchAccepts_obj, hv, FitsSemanticSearch]
  simp only [Option.map_some, Option.getD_some, decoded, sized_bytes hleast, and_true, Json.get?, hv,
    Option.some.injEq, Json.str.injEq, forall_eq', Json.obj.injEq]
  refine and_congr_right fun _ => ?_
  constructor
  · rintro ⟨-, -, hall⟩ size hsize t ht
    rcases hall _ ht with hin | ⟨size', hsize', hname, hsized⟩
    · exact absurd hin (hapart size hsize)
    · obtain rfl := hsame size hsize size' hsize' hname
      simp only [decoded, sized, Bool.and_eq_true, decide_eq_true_eq] at hsized
      exact hsized.1.2
  · intro hfits
    refine ⟨hlimit, hkind, fun m hm => ?_⟩
    rcases hmember m hm with hin | ⟨size, hsize, hname, t, ht, hone⟩
    · exact .inl hin
    · refine .inr ⟨size, hsize, hname, ?_⟩
      rw [ht, decoded, sized_bytes hone]
      refine ⟨hfits size hsize t ?_, rfl⟩
      rw [← hname, ← ht]
      exact hm

theorem semanticGet_accepted_iff {a : Json} (h : semanticGetSchema a = true) :
    semanticGetAccepts (decoded a) = true ↔ FitsSemanticGet a := by
  obtain ⟨members, rfl, hshaped⟩ := object_spec h
  have hkeys : ∀ m ∈ members, m.1 ∈ ["semanticId", "revisionId", "publicationSetId"] := by
    intro m hm
    obtain ⟨check, hcheck, -⟩ := hshaped.known m hm
    exact List.mem_map_of_mem (f := Prod.fst) hcheck
  obtain ⟨r, hr⟩ := hshaped.required "revisionId" (by simp)
  obtain ⟨check, hcheck, hrevision⟩ := hshaped.value hr
  obtain rfl : check = uuid := by simpa using hcheck
  obtain ⟨p, hp⟩ := hshaped.required "publicationSetId" (by simp)
  obtain ⟨check, hcheck, hpublication⟩ := hshaped.value hp
  obtain rfl : check = uuid := by simpa using hcheck
  obtain ⟨v, hv⟩ := hshaped.required "semanticId" (by simp)
  obtain ⟨check, hcheck, hvalid⟩ := hshaped.value hv
  obtain rfl : check = string 1 2048 fun _ => true := by simpa using hcheck
  obtain ⟨s, rfl, hleast, -⟩ := string_spec hvalid
  rw [semanticGetAccepts_obj, hv, hr, hp, FitsSemanticGet]
  simp only [Option.map_some, Option.getD_some, luaUuid_decoded hrevision, luaUuid_decoded hpublication, true_and,
    Json.get?, hv, Option.some.injEq, Json.str.injEq, forall_eq']
  rw [decoded, sized_bytes hleast]
  exact ⟨fun haccepts => haccepts.1.1, fun hfits => ⟨⟨hfits, rfl⟩, hkeys⟩⟩

/-- Of the arguments the schemas admit, the executors accept those whose texts fit and refuse the others. -/
theorem admitted_is_accepted_iff (a : Json) :
    (objectSearchSchema a = true → (objectSearchAccepts (decoded a) = true ↔ FitsObjectSearch a))
      ∧ (semanticSearchSchema a = true → (semanticSearchAccepts (decoded a) = true ↔ FitsSemanticSearch a))
      ∧ (semanticGetSchema a = true → (semanticGetAccepts (decoded a) = true ↔ FitsSemanticGet a)) :=
  ⟨objectSearch_accepted_iff, semanticSearch_accepted_iff, semanticGet_accepted_iff⟩

def accents (n : Nat) : Json := .str (String.ofList (List.replicate n 'é'))

/-- A type that is a delete character, and a query of 129 characters and 258 bytes. -/
theorem admitted_and_refused :
    objectSearchSchema (.obj [("type", .str "\x7f")]) = true
      ∧ objectSearchAccepts (decoded (.obj [("type", .str "\x7f")])) = false
      ∧ semanticSearchSchema (.obj [("q", accents 129)]) = true
      ∧ semanticSearchAccepts (decoded (.obj [("q", accents 129)])) = false := by
  decide +kernel

end OufGateway.ReadArguments
