import Mathlib
import OufGateway.Lib.JsonParse
import OufGateway.Lib.PyJson

/-!
# What is written is read again

The reader gives back what the writer wrote, except that two halves of a surrogate pair
next to each other have become one code point (`merge`), which may make two keys of an
object the same. The proof goes from the inside out, with an arbitrary rest behind the
text: one point of a string, the string, a number, and then the values by induction.
Whatever blanks the layout puts between the tokens are skipped.

Two strings are written alike exactly when they merge to the same string
(`quote_eq_iff`), which is what a text can be compared by.
-/

namespace OufGateway.Lib.PyJson

open Encoding (Points combine isHigh isLow)
open JsonText (natural sign isNegative readDigits readFraction readExponent Digits Fraction Exponent)

/-- Halves of a pair next to each other become the pair. -/
def merge : Points → Points
  | [] => []
  | [p] => [p]
  | p :: q :: s => if isHigh p && isLow q then combine p q :: merge s else p :: merge (q :: s)

/-- The code points of a string. -/
def Valid (s : Points) : Prop := ∀ p ∈ s, p < 1114112

/-! ## One point -/

variable {n p q : Nat} {s t rest more : Points}

theorem valid_points (s : String) : Valid (points s) := by
  intro p hp
  obtain ⟨c, -, rfl⟩ := List.mem_map.mp hp
  exact Json.toNat_lt c

/-- A string of Lean has no halves of surrogate pairs in it. -/
theorem merge_points (s : String) : merge (points s) = points s := by
  have hwhole : ∀ cs : List Char, merge (cs.map Char.toNat) = cs.map Char.toNat := by
    intro cs
    induction cs with
    | nil => rfl
    | cons c cs ih =>
        cases cs with
        | nil => rfl
        | cons d cs =>
            have hhigh : isHigh c.toNat = false := (Json.not_surrogate c).1
            rw [List.map_cons, List.map_cons, merge, hhigh, Bool.false_and, if_neg Bool.false_ne_true]
            exact congrArg _ ih
  exact hwhole s.toList

theorem map_ofNat_points (s : String) : (points s).map Char.ofNat = s.toList := by
  rw [points, List.map_map]
  exact (List.map_congr_left fun c _ => Char.ofNat_toNat c).trans (List.map_id _)

theorem points_inj {s t : String} (h : points s = points t) : s = t := by
  have hlist := congrArg (List.map Char.ofNat) h
  rw [map_ofNat_points, map_ofNat_points] at hlist
  exact String.toList_inj.mp hlist

/-- The four digits an escape is written with. -/
def hexDigits (n : Nat) : Points :=
  [Json.hexDigit (n / 4096 % 16), Json.hexDigit (n / 256 % 16), Json.hexDigit (n / 16 % 16),
    Json.hexDigit (n % 16)].map Char.toNat

theorem points_hexEscape (n : Nat) :
    points (Json.hexEscape n) = '\\'.toNat :: 'u'.toNat :: hexDigits n := by
  rw [points, Json.toList_hexEscape]
  rfl

theorem readHex_hexDigits (hn : n < 65536) (rest : Points) :
    readHex (hexDigits n ++ rest) = some (n, rest) := by
  have hread := Json.readHex_digits hn []
  simp only [readHex, hexDigits, List.map_cons, List.map_nil, List.cons_append, List.nil_append,
    List.take_succ_cons, List.take_zero, List.drop_succ_cons, List.drop_zero, Char.ofNat_toNat,
    hread, Option.map_some]

theorem readLow_hexEscape (hn : n < 65536) (rest : Points) :
    readLow (points (Json.hexEscape n) ++ rest) = if isLow n then some (n, rest) else none := by
  have hpre : points "\\u" <+: points (Json.hexEscape n) ++ rest := by
    rw [points_hexEscape]
    exact ⟨_, rfl⟩
  have hdrop : (points (Json.hexEscape n) ++ rest).drop 2 = hexDigits n ++ rest := by
    rw [points_hexEscape]
    rfl
  rw [readLow, if_pos hpre, hdrop, readHex_hexDigits hn, Option.filter_some]

/-- The escape of a unit, by what stands behind it. -/
theorem readPoint_unit (hn : n < 65536) (rest : Points) :
    readPoint '\\'.toNat ('u'.toNat :: (hexDigits n ++ rest)) =
      some (match (readLow rest).filter fun _ => isHigh n with
        | some (low, rest) => (combine n low, rest)
        | none => (n, rest)) := by
  rw [readPoint, if_pos rfl, readEscape, if_pos rfl, readHex_hexDigits hn]
  simp only [Option.bind_eq_bind, Option.bind_some]
  cases (readLow rest).filter fun _ => isHigh n with
  | none => rfl
  | some r => rfl

/-- Half a pair has no other half behind it. -/
theorem readPoint_alone (hn : n < 65536) (h : isHigh n = true → readLow rest = none) :
    readPoint '\\'.toNat ('u'.toNat :: (hexDigits n ++ rest)) = some (n, rest) := by
  have hnone : (readLow rest).filter (fun _ => isHigh n) = none := by
    cases hhigh : isHigh n with
    | true => rw [h hhigh]; rfl
    | false => cases readLow rest <;> rfl
  rw [readPoint_unit hn, hnone]

theorem readPoint_pair (hp : isHigh p = true) (hq : isLow q = true) (rest : Points) :
    readPoint '\\'.toNat ('u'.toNat :: (hexDigits p ++ (points (Json.hexEscape q) ++ rest))) =
      some (combine p q, rest) := by
  have hplt : p < 65536 := by
    simp only [isHigh, Bool.and_eq_true, decide_eq_true_eq] at hp
    omega
  have hqlt : q < 65536 := by
    simp only [isLow, Bool.and_eq_true, decide_eq_true_eq] at hq
    omega
  have hsome : (readLow (points (Json.hexEscape q) ++ rest)).filter (fun _ => isHigh p) =
      some (q, rest) := by
    rw [readLow_hexEscape hqlt, if_pos hq, Option.filter_some, if_pos hp]
  rw [readPoint_unit hplt, hsome]

/-- The two halves of a point above the basic plane. -/
theorem halves (h : 65536 ≤ p) (hp : p < 1114112) :
    isHigh (55296 + (p - 65536) / 1024) = true ∧ isLow (56320 + (p - 65536) % 1024) = true ∧
      combine (55296 + (p - 65536) / 1024) (56320 + (p - 65536) % 1024) = p := by
  refine ⟨?_, ?_, ?_⟩
  · simp only [isHigh, Bool.and_eq_true, decide_eq_true_eq]
    omega
  · simp only [isLow, Bool.and_eq_true, decide_eq_true_eq]
    omega
  · unfold combine
    omega

/-- A written point is not the end of its string and reads back, unless it is the first
half of a pair and the other half is behind it. -/
theorem readPoint_escape (hp : p < 1114112) (h : isHigh p = true → readLow rest = none) :
    ∃ c cs, escape p ++ rest = c :: cs ∧ c ≠ '"'.toNat ∧ readPoint c cs = some (p, rest) := by
  unfold escape
  split
  · next hc => subst hc; exact ⟨_, _, rfl, by decide, rfl⟩
  · next hquote =>
    split
    · next hc => subst hc; exact ⟨_, _, rfl, by decide, rfl⟩
    · next hslash =>
      split
      · next hc => subst hc; exact ⟨_, _, rfl, by decide, rfl⟩
      · split
        · next hc => subst hc; exact ⟨_, _, rfl, by decide, rfl⟩
        · split
          · next hc => subst hc; exact ⟨_, _, rfl, by decide, rfl⟩
          · split
            · next hc => subst hc; exact ⟨_, _, rfl, by decide, rfl⟩
            · split
              · next hc => subst hc; exact ⟨_, _, rfl, by decide, rfl⟩
              · split
                · next hc =>
                  refine ⟨_, _, rfl, hquote, ?_⟩
                  rw [readPoint, if_neg hslash, if_neg (not_lt.mpr hc.1)]
                  rfl
                · split
                  · next hlt =>
                    rw [points_hexEscape]
                    exact ⟨_, _, rfl, by decide, readPoint_alone hlt h⟩
                  · next hge =>
                    obtain ⟨hhigh, hlow, hcombine⟩ := halves (not_lt.mp hge) hp
                    have hread := readPoint_pair hhigh hlow rest
                    rw [hcombine] at hread
                    rw [points_hexEscape (55296 + (p - 65536) / 1024), List.append_assoc]
                    exact ⟨_, _, rfl, by decide, hread⟩

/-- Behind the first half of a pair no other point is read as the second. -/
theorem readLow_escape (hq : isLow q = false) (hlt : q < 1114112) (rest : Points) :
    readLow (escape q ++ rest) = none := by
  have hshort : ∀ {c d : Nat} {cs : Points}, d ≠ 'u'.toNat → readLow (c :: d :: cs) = none := by
    intro c d cs hd
    refine if_neg fun hpre => hd ?_
    obtain ⟨cs', hcs⟩ := hpre
    have h2 := (List.cons.inj (List.cons.inj hcs).2).1
    exact h2.symm
  unfold escape
  split
  · exact hshort (by decide)
  · next hquote =>
    split
    · exact hshort (by decide)
    · next hslash =>
      split
      · exact hshort (by decide)
      · split
        · exact hshort (by decide)
        · split
          · exact hshort (by decide)
          · split
            · exact hshort (by decide)
            · split
              · exact hshort (by decide)
              · split
                · refine if_neg fun hpre => hslash ?_
                  obtain ⟨cs', hcs⟩ := hpre
                  exact (List.cons.inj hcs).1.symm
                · split
                  · next h => rw [readLow_hexEscape h, if_neg (by rw [hq]; decide)]
                  · next h =>
                    obtain ⟨hhigh, -, -⟩ := halves (not_lt.mp h) hlt
                    simp only [isHigh, Bool.and_eq_true, decide_eq_true_eq] at hhigh
                    rw [List.append_assoc, readLow_hexEscape (by omega), if_neg]
                    simp only [isLow, Bool.and_eq_true, decide_eq_true_eq]
                    omega

/-! ## Strings -/

theorem readString_cons {c : Nat} {cs : Points} (hc : c ≠ '"'.toNat)
    (hread : readPoint c cs = some (p, rest)) (h : readString n rest = some (s, more)) :
    readString (n + 1) (c :: cs) = some (p :: s, more) := by
  rw [readString, if_neg hc, hread]
  simp only [Option.bind_eq_bind, Option.bind_some, h]

theorem length_escape (p : Nat) : 1 ≤ (escape p).length ∧ (escape p).length ≤ 12 := by
  have hhex : ∀ n, (points (Json.hexEscape n)).length = 6 := by
    intro n
    rw [points_hexEscape]
    rfl
  unfold escape
  repeat' split
  all_goals first
    | exact ⟨by decide, by decide⟩
    | simp only [List.length_singleton]; omega
    | rw [List.length_append, hhex, hhex]; omega
    | rw [hhex]; omega

theorem escape_half (h : isHigh p = true ∨ isLow p = true) :
    escape p = points (Json.hexEscape p) := by
  simp only [isHigh, isLow, Bool.and_eq_true, decide_eq_true_eq] at h
  unfold escape
  rw [if_neg, if_neg, if_neg, if_neg, if_neg, if_neg, if_neg, if_neg, if_pos]
  all_goals first
    | omega
    | rintro rfl; revert h; decide

theorem escape_combine (hp : isHigh p = true) (hq : isLow q = true) :
    escape (combine p q) = points (Json.hexEscape p) ++ points (Json.hexEscape q) := by
  simp only [isHigh, isLow, Bool.and_eq_true, decide_eq_true_eq] at hp hq
  have hc : combine p q = 65536 + (p - 55296) * 1024 + (q - 56320) := rfl
  have hhigh : 55296 + (combine p q - 65536) / 1024 = p := by omega
  have hlow : 56320 + (combine p q - 65536) % 1024 = q := by omega
  have hquote : '"'.toNat = 34 := rfl
  have hslash : '\\'.toNat = 92 := rfl
  unfold escape
  rw [if_neg (by omega), if_neg (by omega), if_neg (by omega), if_neg (by omega),
    if_neg (by omega), if_neg (by omega), if_neg (by omega), if_neg (by omega),
    if_neg (by omega), hhigh, hlow]

theorem readString_written (hs : Valid s) (rest : Points) :
    ∀ n, (s.flatMap escape).length < n →
      readString n (s.flatMap escape ++ '"'.toNat :: rest) = some (merge s, rest) := by
  induction s using merge.induct with
  | case1 =>
      intro n hn
      obtain ⟨n, rfl⟩ := Nat.exists_eq_add_of_le' (Nat.one_le_of_lt hn)
      rfl
  | case2 p =>
      intro n hn
      obtain ⟨n, rfl⟩ := Nat.exists_eq_add_of_le' (Nat.one_le_of_lt hn)
      have hend : readLow ('"'.toNat :: rest) = none := by
        refine if_neg fun hpre => ?_
        obtain ⟨cs', hcs⟩ := hpre
        exact absurd (List.cons.inj hcs).1 (by decide)
      obtain ⟨c, cs, heq, hc, hread⟩ := readPoint_escape (hs p (by simp)) fun _ => hend
      have hclose : readString n ('"'.toNat :: rest) = some ([], rest) := by
        have hlen := (length_escape p).1
        rw [List.flatMap_singleton] at hn
        obtain ⟨m, rfl⟩ : ∃ m, n = m + 1 := Nat.exists_eq_add_of_le' (by omega)
        rfl
      rw [List.flatMap_singleton, heq]
      exact readString_cons hc hread hclose
  | case3 p q s hpair ih =>
      intro n hn
      obtain ⟨n, rfl⟩ := Nat.exists_eq_add_of_le' (Nat.one_le_of_lt hn)
      obtain ⟨hp, hq⟩ := Bool.and_eq_true_iff.mp hpair
      have hrest := ih (fun p' hp' => hs p' (by simp [hp'])) n (by
        rw [List.flatMap_cons, List.flatMap_cons, List.length_append, List.length_append] at hn
        have hlen := (length_escape p).1
        omega)
      rw [List.flatMap_cons, List.flatMap_cons, List.append_assoc, List.append_assoc,
        escape_half (Or.inl hp), escape_half (Or.inr hq), points_hexEscape p, merge, if_pos hpair]
      exact readString_cons (by decide) (readPoint_pair hp hq _) hrest
  | case4 p q s hpair ih =>
      intro n hn
      obtain ⟨n, rfl⟩ := Nat.exists_eq_add_of_le' (Nat.one_le_of_lt hn)
      have hnext : isHigh p = true →
          readLow ((q :: s).flatMap escape ++ '"'.toNat :: rest) = none := by
        intro hp
        rw [hp, Bool.true_and, Bool.not_eq_true] at hpair
        rw [List.flatMap_cons, List.append_assoc]
        exact readLow_escape hpair (hs q (by simp)) _
      obtain ⟨c, cs, heq, hc, hread⟩ := readPoint_escape (hs p (by simp)) hnext
      have hrest := ih (fun p' hp' => hs p' (List.mem_cons_of_mem p hp')) n (by
        rw [List.flatMap_cons, List.length_append] at hn
        have hlen := (length_escape p).1
        omega)
      rw [List.flatMap_cons, List.append_assoc, heq, merge, if_neg hpair]
      exact readString_cons hc hread hrest

theorem flatMap_escape_merge (hs : Valid s) : (merge s).flatMap escape = s.flatMap escape := by
  induction s using merge.induct with
  | case1 => rfl
  | case2 p => rfl
  | case3 p q s hpair ih =>
      obtain ⟨hp, hq⟩ := Bool.and_eq_true_iff.mp hpair
      have hrest := ih fun p' hp' => hs p' (by simp [hp'])
      rw [merge, if_pos hpair, List.flatMap_cons, List.flatMap_cons, List.flatMap_cons, hrest,
        escape_combine hp hq, escape_half (Or.inl hp), escape_half (Or.inr hq), List.append_assoc]
  | case4 p q s hpair ih =>
      have hrest := ih fun p' hp' => hs p' (List.mem_cons_of_mem p hp')
      rw [merge, if_neg hpair, List.flatMap_cons, hrest, ← List.flatMap_cons]

theorem flatMap_escape_eq_iff (hs : Valid s) (ht : Valid t) :
    s.flatMap escape = t.flatMap escape ↔ merge s = merge t := by
  constructor
  · intro h
    have hread := readString_written hs [] _ (Nat.lt_succ_self _)
    rw [h, readString_written ht [] _ (Nat.lt_succ_self _)] at hread
    exact (Prod.mk.inj (Option.some.inj hread)).1.symm
  · intro h
    rw [← flatMap_escape_merge hs, h, flatMap_escape_merge ht]

theorem quote_merge (hs : Valid s) : quote (merge s) = quote s := by
  rw [quote, flatMap_escape_merge hs, quote]

/-- Two strings are written alike when they merge to the same one, and only then. -/
theorem quote_eq_iff (hs : Valid s) (ht : Valid t) : quote s = quote t ↔ merge s = merge t := by
  rw [← flatMap_escape_eq_iff hs ht]
  unfold quote
  refine ⟨fun h => ?_, fun h => by rw [h]⟩
  exact List.append_cancel_right (List.cons.inj h).2

theorem merge_of_lt (h : ∀ p ∈ s, p < 55296) : merge s = s := by
  induction s using merge.induct with
  | case1 => rfl
  | case2 p => rfl
  | case3 p q s hpair ih =>
      have hp := h p (by simp)
      simp only [isHigh, isLow, Bool.and_eq_true, decide_eq_true_eq] at hpair
      omega
  | case4 p q s hpair ih =>
      rw [merge, if_neg hpair, ih fun p' hp' => h p' (List.mem_cons_of_mem p hp')]

/-! ## Numbers -/

/-- A number that ends here does not go on behind it. -/
def Ends (rest : Points) : Prop := JsonText.Ends (rest.map Char.ofNat)

/-- The text of an integer. -/
theorem toList_int (m : Int) :
    (toString m).toList = sign (decide (m < 0)) ++ Nat.toDigits 10 m.natAbs := by
  rw [Int.toString_eq_repr]
  cases m with
  | ofNat k =>
      have hpos : ¬ (Int.ofNat k < 0) := by simp
      rw [decide_eq_false hpos]
      exact Nat.toList_repr
  | negSucc k =>
      have hrepr : (Int.negSucc k).repr = "-" ++ (k + 1).repr := rfl
      rw [hrepr, String.toList_append, Nat.toList_repr, decide_eq_true (Int.negSucc_lt_zero k)]
      rfl

theorem head_toDigits (k : Nat) : (Nat.toDigits 10 k).head? = some '0' → k = 0 := by
  induction k using Nat.strongRecOn with
  | ind k ih =>
      intro h
      rw [Nat.toDigits_eq_if (by decide)] at h
      split at h
      · next hlt =>
        interval_cases k <;> first | rfl | exact absurd h (by decide)
      · next hge =>
        have hne : Nat.toDigits 10 (k / 10) ≠ [] := Nat.toDigits_ne_nil
        rw [List.head?_append, Option.or_of_isSome (List.isSome_head?.mpr hne)] at h
        have hzero := ih (k / 10) (by omega) h
        omega

theorem digits_toDigits (k : Nat) : Digits (Nat.toDigits 10 k) := by
  refine ⟨Nat.toDigits_ne_nil, fun c hc => ?_, fun h => ?_⟩
  · exact Nat.isDigit_of_mem_toDigits (by decide) (by decide) hc
  · rw [head_toDigits k h]
    rfl

theorem natural_toDigits (k : Nat) : natural (Nat.toDigits 10 k) = k :=
  Nat.ofDigitChars_ten_toDigits

section

variable {F : Type} (floats : Floats F) {ds fraction exponent : List Char} {negative : Bool}

theorem readNumber_parts (negative : Bool) (hds : Digits ds) (hf : Fraction fraction) (he : Exponent exponent)
    (hrest : Ends rest) :
    readNumber floats ((sign negative ++ (ds ++ (fraction ++ exponent))).map Char.toNat ++ rest) =
      if fraction ++ exponent = [] then
        if 4300 < ds.length then .error .tooManyDigits
        else .ok (.int (if negative then -natural ds else natural ds), rest)
      else .ok (.float (floats.ofText (sign negative ++ ds ++ fraction ++ exponent)), rest) := by
  have htext : ((sign negative ++ (ds ++ (fraction ++ exponent))).map Char.toNat ++ rest).map
      Char.ofNat = sign negative ++ (ds ++ (fraction ++ (exponent ++ rest.map Char.ofNat))) := by
    have hid : ∀ cs : List Char, (cs.map Char.toNat).map Char.ofNat = cs := fun cs => by
      rw [List.map_map]
      exact (List.map_congr_left fun c _ => Char.ofNat_toNat c).trans (List.map_id cs)
    rw [List.map_append, hid]
    simp only [List.append_assoc]
  have hdrop : ∀ w : Points, (w ++ rest).drop ((w ++ rest).length - rest.length) = rest := by
    intro w
    rw [List.length_append, Nat.add_sub_cancel, List.drop_left]
  obtain ⟨hneg, hunsigned⟩ :=
    JsonText.sign_split negative hds (fraction ++ (exponent ++ rest.map Char.ofNat))
  obtain ⟨hmore, hdigit⟩ := JsonText.mark_head hf he hrest
  simp only [readNumber]
  rw [htext, hunsigned, hneg, JsonText.readDigits_of_digits hds hdigit]
  simp only [JsonText.readFraction_of_fraction hf hmore, JsonText.readExponent_of_exponent he hrest,
    if_neg hds.1, List.length_map, hdrop]

omit floats in
theorem mark_ne {c d : Char} (hc : c = '-' ∨ c.isDigit = true) (hminus : d ≠ '-')
    (hdigit : d.isDigit = false) : c.toNat ≠ d.toNat := by
  intro h
  obtain rfl := Char.toNat_inj.mp h
  rcases hc with hc | hc
  · exact hminus hc
  · rw [hdigit] at hc
    cases hc

/-- A number is told by its first character. -/
theorem number_head (negative : Bool) (hds : Digits ds) (text : List Char) (rest : Points) :
    ∃ c cs, (sign negative ++ (ds ++ text)).map Char.toNat ++ rest = Char.toNat c :: cs ∧
      (c = '-' ∧ (∃ d cs', cs = Char.toNat d :: cs' ∧ d.isDigit = true) ∨ c.isDigit = true) := by
  obtain ⟨hne, hall, -⟩ := hds
  obtain ⟨d, ds, rfl⟩ := List.exists_cons_of_ne_nil hne
  have hd := hall d List.mem_cons_self
  cases negative with
  | true => exact ⟨'-', _, rfl, Or.inl ⟨rfl, d, _, rfl, hd⟩⟩
  | false => exact ⟨d, _, rfl, Or.inr hd⟩

theorem readScalar_number (negative : Bool) (hds : Digits ds) (text : List Char) (rest : Points) :
    readScalar floats ((sign negative ++ (ds ++ text)).map Char.toNat ++ rest) =
      readNumber floats ((sign negative ++ (ds ++ text)).map Char.toNat ++ rest) := by
  obtain ⟨c, cs, heq, hc⟩ := number_head negative hds text rest
  have hne : ∀ d : Char, d ≠ '-' → d.isDigit = false → Char.toNat c ≠ d.toNat :=
    fun d hminus hdigit => mark_ne (hc.imp_left And.left) hminus hdigit
  have hinf : ¬ points "-Infinity" <+: Char.toNat c :: cs := by
    rintro ⟨more, hmore⟩
    rcases hc with ⟨rfl, d, cs', rfl, hd⟩ | hc
    · have hI : 'I'.toNat = d.toNat := (List.cons.inj (List.cons.inj hmore).2).1
      rw [← Char.toNat_inj.mp hI] at hd
      cases hd
    · have hminus : '-'.toNat = c.toNat := (List.cons.inj hmore).1
      rw [← Char.toNat_inj.mp hminus] at hc
      cases hc
  rw [heq, readScalar, if_neg (hne _ (by decide) (by decide)), if_neg (hne _ (by decide) (by decide)),
    if_neg (hne _ (by decide) (by decide)), if_neg (hne _ (by decide) (by decide)),
    if_neg (hne _ (by decide) (by decide)), if_neg (hne _ (by decide) (by decide)), if_neg hinf]

/-! ## Scalars -/

/-- The text of a float is that of a number with a fraction or an exponent, or the name of
the constant it is. -/
inductive FloatText : F → Prop
  | nan {x : F} (h : floats.text x = "NaN".toList) : FloatText x
  | inf {x : F} (h : floats.text x = "Infinity".toList) : FloatText x
  | negInf {x : F} (h : floats.text x = "-Infinity".toList) : FloatText x
  | number {x : F} {negative : Bool} {ds fraction exponent : List Char} (hds : Digits ds)
      (hf : Fraction fraction) (he : Exponent exponent) (hne : fraction ++ exponent ≠ [])
      (h : floats.text x = sign negative ++ (ds ++ (fraction ++ exponent))) : FloatText x

/-- The float that is read where this one was written. -/
def reread (x : F) : F :=
  if floats.text x = "NaN".toList then floats.nan
  else if floats.text x = "Infinity".toList then floats.inf
  else if floats.text x = "-Infinity".toList then floats.negInf
  else floats.ofText (floats.text x)

/-- A float that is read again where it was written. -/
structure RoundTrips (x : F) : Prop where
  text : FloatText floats x
  reread : reread floats x = x

theorem readWord_written (word : String) (v : Value F) (rest : Points) :
    readWord word v (points word ++ rest) = .ok (v, rest) := by
  have hlen : word.length = (points word).length := by
    rw [points, List.length_map, String.length_toList]
  rw [readWord, if_pos (List.prefix_append _ _), hlen, List.drop_left]

theorem readScalar_int {m : Int} (hm : (Nat.toDigits 10 m.natAbs).length ≤ 4300) (hrest : Ends rest) :
    readScalar floats (points (toString m) ++ rest) = .ok (.int m, rest) := by
  have hvalue : (if decide (m < 0) = true then -(natural (Nat.toDigits 10 m.natAbs) : Int)
      else natural (Nat.toDigits 10 m.natAbs)) = m := by
    rw [natural_toDigits]
    split
    · next h =>
      have hneg := of_decide_eq_true h
      omega
    · next h =>
      have hpos : ¬ m < 0 := fun hneg => h (decide_eq_true hneg)
      omega
  have hparts := readNumber_parts floats (decide (m < 0)) (digits_toDigits m.natAbs) (Or.inl rfl)
    (Or.inl rfl) hrest
  simp only [List.append_nil, if_true, if_neg (not_lt.mpr hm), hvalue] at hparts
  have hscalar := readScalar_number floats (decide (m < 0)) (digits_toDigits m.natAbs) [] rest
  rw [List.append_nil] at hscalar
  rw [points, toList_int, hscalar, hparts]

omit floats in
/-- A number is no word. -/
theorem number_ne (hds : Digits ds) (text : List Char) {w : List Char}
    (hw : (if isNegative w then w.tail else w).head?.any Char.isDigit = false) :
    sign negative ++ (ds ++ text) ≠ w := by
  rintro rfl
  obtain ⟨hne, hall, -⟩ := id hds
  rw [(JsonText.sign_split negative hds text).2] at hw
  obtain ⟨d, ds, rfl⟩ := List.exists_cons_of_ne_nil hne
  have hd := hall d List.mem_cons_self
  rw [List.cons_append, List.head?_cons, Option.any_some, hd] at hw
  cases hw

theorem readScalar_float {x : F} (hx : FloatText floats x) (hrest : Ends rest) :
    readScalar floats ((floats.text x).map Char.toNat ++ rest) =
      .ok (.float (reread floats x), rest) := by
  cases hx with
  | nan h =>
      have hre : reread floats x = floats.nan := if_pos h
      rw [h, hre]
      exact readWord_written "NaN" _ rest
  | inf h =>
      have hre : reread floats x = floats.inf := by
        unfold reread
        rw [h]
        rfl
      rw [h, hre]
      exact readWord_written "Infinity" _ rest
  | negInf h =>
      have hre : reread floats x = floats.negInf := by
        unfold reread
        rw [h]
        rfl
      have hword : points "-Infinity" ++ rest =
          '-'.toNat :: (("Infinity".toList).map Char.toNat ++ rest) := rfl
      have hpre : points "-Infinity" <+: points "-Infinity" ++ rest := List.prefix_append _ _
      have hread := readWord_written "-Infinity" (.float floats.negInf) rest
      rw [hword] at hpre hread
      rw [h, hre]
      change readScalar floats (points "-Infinity" ++ rest) = _
      rw [hword, readScalar, if_neg (by decide), if_neg (by decide), if_neg (by decide),
        if_neg (by decide), if_neg (by decide), if_neg (by decide), if_pos hpre, hread]
  | @number negative ds fraction exponent hds hf he hne h =>
      have hre : reread floats x = floats.ofText (sign negative ++ ds ++ fraction ++ exponent) := by
        unfold reread
        rw [h, if_neg (number_ne hds _ (by decide)), if_neg (number_ne hds _ (by decide)),
          if_neg (number_ne hds _ (by decide))]
        simp only [List.append_assoc]
      rw [h, readScalar_number floats negative hds, readNumber_parts floats negative hds hf he hrest, if_neg hne, hre]

/-! ## Blanks -/

def Blank (bs : Points) : Prop := ∀ p ∈ bs, isBlank p = true

omit floats in
theorem blank_nil : Blank [] := fun _ hp => absurd hp List.not_mem_nil

/-- A layout puts in nothing but blanks. -/
structure Layout.Blanks (l : Layout) : Prop where
  indent : ∀ depth, Blank (l.indent depth)
  afterComma : Blank l.afterComma
  afterColon : Blank l.afterColon

omit floats in
theorem blanks_compact : compact.Blanks := ⟨fun _ => blank_nil, blank_nil, blank_nil⟩

omit floats in
theorem skip_blank {bs cs : Points} {c : Nat} (hbs : Blank bs) (hc : isBlank c = false) :
    skip (bs ++ c :: cs) = c :: cs := by
  rw [skip, List.dropWhile_append_of_pos hbs, List.dropWhile_cons_of_neg (by rw [hc]; decide)]

omit floats in
theorem ends_cons {c : Nat} {cs : Points} (hc : c = ','.toNat ∨ c = ']'.toNat ∨ c = '\x7d'.toNat ∨
    isBlank c = true) : Ends (c :: cs) := by
  refine JsonText.ends_cons ?_ _
  rcases hc with rfl | rfl | rfl | hc
  · decide
  · decide
  · decide
  · simp only [isBlank, Bool.or_eq_true, decide_eq_true_eq] at hc
    rcases hc with ((rfl | rfl) | rfl) | rfl <;> decide

omit floats in
theorem ends_blank {bs cs : Points} {c : Nat} (hbs : Blank bs)
    (hc : c = ','.toNat ∨ c = ']'.toNat ∨ c = '\x7d'.toNat) : Ends (bs ++ c :: cs) := by
  cases bs with
  | nil =>
      rcases hc with hc | hc | hc
      · exact ends_cons (Or.inl hc)
      · exact ends_cons (Or.inr (Or.inl hc))
      · exact ends_cons (Or.inr (Or.inr (Or.inl hc)))
  | cons b bs => exact ends_cons (Or.inr (Or.inr (Or.inr (hbs b List.mem_cons_self))))

/-! ## Values -/

/-- Strings of code points, integers `int` takes, floats with a property, dictionaries with
a key once, and brackets at most so deep. -/
inductive Fits (P : F → Prop) : Nat → Value F → Prop
  | null {depth : Nat} : Fits P depth .null
  | bool {depth : Nat} (b : Bool) : Fits P depth (.bool b)
  | int {depth : Nat} {m : Int} (h : (Nat.toDigits 10 m.natAbs).length ≤ 4300) :
      Fits P depth (.int m)
  | float {depth : Nat} {x : F} (h : P x) : Fits P depth (.float x)
  | str {depth : Nat} {s : Points} (h : Valid s) : Fits P depth (.str s)
  | arr {depth : Nat} {xs : List (Value F)} (h : ∀ x ∈ xs, Fits P depth x) :
      Fits P (depth + 1) (.arr xs)
  | obj {depth : Nat} {ms : List (Points × Value F)} (hkeys : ∀ m ∈ ms, Valid m.1)
      (hnodup : (ms.map (·.1)).Nodup) (h : ∀ m ∈ ms, Fits P depth m.2) :
      Fits P (depth + 1) (.obj ms)

omit floats in
theorem Fits.members {P : F → Prop} {limit : Nat} {ms : List (Points × Value F)}
    (h : Fits P limit (.obj ms)) : ∃ depth, limit = depth + 1 ∧ (∀ m ∈ ms, Valid m.1) ∧
      (ms.map (·.1)).Nodup ∧ ∀ m ∈ ms, Fits P depth m.2 := by
  cases h with
  | obj hkeys hnodup h => exact ⟨_, rfl, hkeys, hnodup, h⟩

mutual

/-- What is read where this value was written. -/
def stored : Value F → Value F
  | .null => .null
  | .bool b => .bool b
  | .int n => .int n
  | .float x => .float (reread floats x)
  | .str s => .str (merge s)
  | .arr xs => .arr (storedItems xs)
  | .obj ms => .obj (dict (storedMembers ms))

def storedItems : List (Value F) → List (Value F)
  | [] => []
  | x :: xs => stored x :: storedItems xs

def storedMembers : List (Points × Value F) → List (Points × Value F)
  | [] => []
  | (key, x) :: ms => (merge key, stored x) :: storedMembers ms

end

/-- The first character of a value that is not at its first place in brackets. -/
def Starts (c : Nat) : Prop := isBlank c = false ∧ c ≠ ']'.toNat ∧ c ≠ '\x7d'.toNat

instance (c : Nat) : Decidable (Starts c) := inferInstanceAs (Decidable (_ ∧ _))

theorem starts_number {c : Char} (hc : c = '-' ∨ c.isDigit = true) : Starts c.toNat := by
  have hne : ∀ d : Char, d ≠ '-' → d.isDigit = false → c.toNat ≠ d.toNat :=
    fun d hminus hdigit => mark_ne hc hminus hdigit
  refine ⟨?_, hne ']' (by decide) (by decide), hne '\x7d' (by decide) (by decide)⟩
  have hblank : ¬ (((c.toNat = 32 ∨ c.toNat = 9) ∨ c.toNat = 10) ∨ c.toNat = 13) := by
    rintro (((h | h) | h) | h)
    · exact hne ' ' (by decide) (by decide) h
    · exact hne '\t' (by decide) (by decide) h
    · exact hne '\n' (by decide) (by decide) h
    · exact hne '\r' (by decide) (by decide) h
  simpa [isBlank] using hblank

theorem write_cons {l : Layout} {limit : Nat} {v : Value F} (hv : Fits (FloatText floats) limit v)
    (depth : Nat) : ∃ c cs, write floats l depth v = c :: cs ∧ Starts c := by
  have henclose : ∀ {opening closing : Char} {texts : List Points}, Starts opening.toNat →
      ∃ c cs, enclose l depth opening closing texts = c :: cs ∧ Starts c := by
    intro opening closing texts h
    unfold enclose
    split
    · exact ⟨_, _, rfl, h⟩
    · exact ⟨_, _, rfl, h⟩
  have hnumber : ∀ {negative : Bool} {ds : List Char} (_ : Digits ds) (text : List Char),
      ∃ c cs, (sign negative ++ (ds ++ text)).map Char.toNat = c :: cs ∧ Starts c := by
    intro negative ds hds text
    obtain ⟨c, cs, heq, hc⟩ := number_head negative hds text []
    rw [List.append_nil] at heq
    exact ⟨c.toNat, cs, heq, starts_number (hc.imp_left And.left)⟩
  cases hv with
  | null => exact ⟨_, _, rfl, by decide⟩
  | bool b =>
      cases b with
      | true => exact ⟨_, _, rfl, by decide⟩
      | false => exact ⟨_, _, rfl, by decide⟩
  | int h =>
      rw [write, points, toList_int, ← List.append_nil (Nat.toDigits 10 _)]
      exact hnumber (digits_toDigits _) []
  | float h =>
      rw [write]
      cases h with
      | nan h => rw [h]; exact ⟨_, _, rfl, by decide⟩
      | inf h => rw [h]; exact ⟨_, _, rfl, by decide⟩
      | negInf h => rw [h]; exact ⟨_, _, rfl, by decide⟩
      | number hds hf he hne h => rw [h]; exact hnumber hds _
  | str h => exact ⟨_, _, rfl, by decide⟩
  | arr h => exact henclose (by decide)
  | obj hkeys hnodup h => exact henclose (by decide)

/-! ## Brackets -/

section

variable {l : Layout} (hl : l.Blanks) {value : Points → Except Fault (Value F × Points)}

omit floats in
theorem commas_cons_cons (depth : Nat) (x y : Points) (texts : List Points) :
    commas l depth (x :: y :: texts) =
      l.indent depth ++ (x ++ (','.toNat :: l.afterComma ++ commas l depth (y :: texts))) := rfl

include hl

theorem readItems_commas (depth : Nat) {xs : List (Value F)} (hne : xs ≠ [])
    (hvalue : ∀ x ∈ xs, (∃ c cs, write floats l depth x = c :: cs ∧ Starts c) ∧
      ∀ {rest}, Ends rest → value (write floats l depth x ++ rest) = .ok (stored floats x, rest))
    {n : Nat} (hn : xs.length ≤ n) {bs close : Points} (hbs : Blank bs) (hclose : Blank close)
    (rest : Points) :
    readItems value n (bs ++ (commas l depth (writeItems floats l depth xs) ++
      (close ++ ']'.toNat :: rest))) = .ok (storedItems floats xs, rest) := by
  induction xs generalizing n bs with
  | nil => exact absurd rfl hne
  | cons x xs ih =>
      obtain ⟨n, rfl⟩ := Nat.exists_eq_add_of_le' (Nat.one_le_of_lt hn)
      obtain ⟨⟨c, cs, hx, hc⟩, hread⟩ := hvalue x List.mem_cons_self
      have hskip : ∀ more, skip (bs ++ (l.indent depth ++ (write floats l depth x ++ more))) =
          write floats l depth x ++ more := by
        intro more
        rw [hx, List.cons_append, ← List.append_assoc]
        exact skip_blank (fun p hp => (List.mem_append.mp hp).elim (hbs p) (hl.indent depth p)) hc.1
      cases xs with
      | nil =>
          have hcs : bs ++ (commas l depth (writeItems floats l depth [x]) ++
              (close ++ ']'.toNat :: rest)) =
            bs ++ (l.indent depth ++ (write floats l depth x ++ (close ++ ']'.toNat :: rest))) := by
            rw [writeItems, writeItems, commas, List.append_assoc]
          rw [hcs, readItems, hskip, hread (ends_blank hclose (Or.inr (Or.inl rfl)))]
          simp only [bind, Except.bind]
          rw [skip_blank hclose (by decide)]
          rfl
      | cons y ys =>
          have hcs : bs ++ (commas l depth (writeItems floats l depth (x :: y :: ys)) ++
              (close ++ ']'.toNat :: rest)) =
            bs ++ (l.indent depth ++ (write floats l depth x ++ (','.toNat :: (l.afterComma ++
              (commas l depth (writeItems floats l depth (y :: ys)) ++
                (close ++ ']'.toNat :: rest)))))) := by
            rw [writeItems, writeItems, commas_cons_cons]
            simp only [List.append_assoc, List.cons_append]
          have hrest := ih (List.cons_ne_nil y ys) (fun z hz => hvalue z (List.mem_cons_of_mem x hz))
            (Nat.le_of_succ_le_succ hn) hl.afterComma
          rw [hcs, readItems, hskip, hread (ends_cons (Or.inl rfl))]
          simp only [bind, Except.bind]
          have hcomma : ∀ more, skip (','.toNat :: more) = ','.toNat :: more := fun more => rfl
          rw [hcomma]
          simp only [hrest]
          rfl

omit hl in
theorem readString_quote {s : Points} (hs : Valid s) (rest : Points) :
    quote s ++ rest = '"'.toNat :: (s.flatMap escape ++ '"'.toNat :: rest) ∧
      readString ((s.flatMap escape ++ '"'.toNat :: rest).length + 1)
        (s.flatMap escape ++ '"'.toNat :: rest) = some (merge s, rest) := by
  constructor
  · simp [quote]
  · refine readString_written hs rest _ ?_
    rw [List.length_append, List.length_cons]
    omega

omit hl in
theorem readKey_quote {key bs : Points} (hkey : Valid key) (hbs : Blank bs) (rest : Points) :
    readKey (bs ++ (quote key ++ ':'.toNat :: rest)) = .ok (merge key, rest) := by
  obtain ⟨hquote, hread⟩ := readString_quote hkey (':'.toNat :: rest)
  have hcolon : skip (':'.toNat :: rest) = ':'.toNat :: rest := rfl
  rw [hquote, readKey, skip_blank hbs (by decide)]
  simp only [if_true, hread, hcolon]

theorem readMembers_commas (depth : Nat) {ms : List (Points × Value F)} (hne : ms ≠ [])
    (hkeys : ∀ m ∈ ms, Valid m.1)
    (hvalue : ∀ m ∈ ms, (∃ c cs, write floats l depth m.2 = c :: cs ∧ Starts c) ∧
      ∀ {rest}, Ends rest →
        value (write floats l depth m.2 ++ rest) = .ok (stored floats m.2, rest))
    {n : Nat} (hn : ms.length ≤ n) {bs close : Points} (hbs : Blank bs) (hclose : Blank close)
    (rest : Points) :
    readMembers value n (bs ++ (commas l depth (writeMembers floats l depth ms) ++
      (close ++ '\x7d'.toNat :: rest))) = .ok (storedMembers floats ms, rest) := by
  induction ms generalizing n bs with
  | nil => exact absurd rfl hne
  | cons m ms ih =>
      obtain ⟨key, x⟩ := m
      obtain ⟨n, rfl⟩ := Nat.exists_eq_add_of_le' (Nat.one_le_of_lt hn)
      obtain ⟨⟨c, cs, hx, hc⟩, hread⟩ := hvalue (key, x) List.mem_cons_self
      have hreadKey : ∀ more, readKey (bs ++ (l.indent depth ++ (quote key ++ ':'.toNat :: more))) =
          .ok (merge key, more) := by
        intro more
        rw [← List.append_assoc]
        exact readKey_quote (hkeys _ List.mem_cons_self)
          (fun p hp => (List.mem_append.mp hp).elim (hbs p) (hl.indent depth p)) more
      have hskip : ∀ more, skip (l.afterColon ++ (write floats l depth x ++ more)) =
          write floats l depth x ++ more := by
        intro more
        simp only [] at hx
        rw [hx]
        exact skip_blank hl.afterColon hc.1
      cases ms with
      | nil =>
          have hcs : bs ++ (commas l depth (writeMembers floats l depth [(key, x)]) ++
              (close ++ '\x7d'.toNat :: rest)) =
            bs ++ (l.indent depth ++ (quote key ++ ':'.toNat :: (l.afterColon ++
              (write floats l depth x ++ (close ++ '\x7d'.toNat :: rest))))) := by
            rw [writeMembers, writeMembers, commas]
            simp only [List.append_assoc, List.cons_append]
          rw [hcs, readMembers, hreadKey]
          simp only [bind, Except.bind]
          rw [hskip, hread (ends_blank hclose (Or.inr (Or.inr rfl)))]
          simp only []
          rw [skip_blank hclose (by decide)]
          rfl
      | cons m ms =>
          obtain ⟨key', y⟩ := m
          have hcs : bs ++ (commas l depth (writeMembers floats l depth ((key, x) :: (key', y) :: ms)) ++
              (close ++ '\x7d'.toNat :: rest)) =
            bs ++ (l.indent depth ++ (quote key ++ ':'.toNat :: (l.afterColon ++
              (write floats l depth x ++ (','.toNat :: (l.afterComma ++
                (commas l depth (writeMembers floats l depth ((key', y) :: ms)) ++
                  (close ++ '\x7d'.toNat :: rest)))))))) := by
            rw [writeMembers, writeMembers, commas_cons_cons]
            simp only [List.append_assoc, List.cons_append]
          have hrest := ih (List.cons_ne_nil _ ms) (fun z hz => hkeys z (List.mem_cons_of_mem _ hz))
            (fun z hz => hvalue z (List.mem_cons_of_mem _ hz)) (Nat.le_of_succ_le_succ hn) hl.afterComma
          have hcomma : ∀ more, skip (','.toNat :: more) = ','.toNat :: more := fun more => rfl
          rw [hcs, readMembers, hreadKey]
          simp only [bind, Except.bind]
          rw [hskip, hread (ends_cons (Or.inl rfl))]
          simp only []
          rw [hcomma]
          simp only [hrest]
          rfl

omit hl in
/-- The texts between two brackets: each takes its place, and each begins a value or a key. -/
def Begins (texts : List Points) : Prop := ∀ t ∈ texts, ∃ c cs, t = c :: cs ∧ Starts c

omit hl in
theorem length_commas {depth : Nat} {texts : List Points} (h : Begins texts) :
    texts.length ≤ (commas l depth texts).length := by
  induction texts with
  | nil => exact Nat.zero_le _
  | cons t texts ih =>
      obtain ⟨c, cs, rfl, -⟩ := h t List.mem_cons_self
      have hrest := ih fun t' ht' => h t' (List.mem_cons_of_mem _ ht')
      cases texts with
      | nil =>
          simp only [commas, List.length_append, List.length_cons, List.length_nil]
          omega
      | cons t' texts =>
          rw [commas_cons_cons]
          simp only [List.length_append, List.length_cons] at hrest ⊢
          omega

theorem skip_commas {depth : Nat} {texts : List Points} (hne : texts ≠ []) (h : Begins texts)
    (more : Points) : ∃ c cs, skip (commas l depth texts ++ more) = c :: cs ∧ Starts c := by
  obtain ⟨t, texts, rfl⟩ := List.exists_cons_of_ne_nil hne
  obtain ⟨c, cs, rfl, hc⟩ := h t List.mem_cons_self
  have hcommas : ∃ cs', commas l depth ((c :: cs) :: texts) ++ more =
      l.indent depth ++ c :: cs' := by
    cases texts with
    | nil => exact ⟨cs ++ more, by rw [commas, List.append_assoc, List.cons_append]⟩
    | cons t texts =>
        refine ⟨cs ++ (','.toNat :: l.afterComma ++ commas l depth (t :: texts)) ++ more, ?_⟩
        rw [commas_cons_cons]
        simp only [List.append_assoc, List.cons_append]
  obtain ⟨cs', hcs'⟩ := hcommas
  exact ⟨c, cs', by rw [hcs', skip_blank (hl.indent depth) hc.1], hc⟩

end

variable {l : Layout} (hl : l.Blanks)

theorem length_writeItems (depth : Nat) (xs : List (Value F)) :
    (writeItems floats l depth xs).length = xs.length := by
  induction xs with
  | nil => rfl
  | cons x xs ih => rw [writeItems, List.length_cons, ih, List.length_cons]

theorem length_writeMembers (depth : Nat) (ms : List (Points × Value F)) :
    (writeMembers floats l depth ms).length = ms.length := by
  induction ms with
  | nil => rfl
  | cons m ms ih => rw [writeMembers, List.length_cons, ih, List.length_cons]

theorem begins_writeItems {depth limit : Nat} {xs : List (Value F)}
    (h : ∀ x ∈ xs, Fits (FloatText floats) limit x) : Begins (writeItems floats l depth xs) := by
  induction xs with
  | nil => exact fun t ht => absurd ht List.not_mem_nil
  | cons x xs ih =>
      intro t ht
      rcases List.mem_cons.mp ht with rfl | ht
      · exact write_cons floats (h x List.mem_cons_self) depth
      · exact ih (fun y hy => h y (List.mem_cons_of_mem x hy)) t ht

theorem begins_writeMembers {depth : Nat} {ms : List (Points × Value F)} :
    Begins (writeMembers floats l depth ms) := by
  induction ms with
  | nil => exact fun t ht => absurd ht List.not_mem_nil
  | cons m ms ih =>
      intro t ht
      rcases List.mem_cons.mp ht with rfl | ht
      · exact ⟨_, _, rfl, by decide⟩
      · exact ih t ht

theorem readValue_scalar {c : Nat} (hc : opens c = false) (limit : Nat) (cs : Points) :
    readValue floats limit (c :: cs) = readScalar floats (c :: cs) := by
  cases limit with
  | zero => rw [readValue, hc]; rfl
  | succ limit => rw [readValue, hc]; rfl

theorem readValue_number (limit : Nat) (negative : Bool) (hds : Digits ds) (text : List Char)
    (rest : Points) :
    readValue floats limit ((sign negative ++ (ds ++ text)).map Char.toNat ++ rest) =
      readScalar floats ((sign negative ++ (ds ++ text)).map Char.toNat ++ rest) := by
  obtain ⟨c, cs, heq, hc⟩ := number_head negative hds text rest
  have hmark := hc.imp_left And.left
  have hopens : opens c.toNat = false := by
    rw [opens, decide_eq_false (mark_ne hmark (by decide) (by decide)),
      decide_eq_false (mark_ne hmark (by decide) (by decide))]
    rfl
  rw [heq, readValue_scalar floats hopens]

omit floats in
theorem enclose_append (depth : Nat) (opening closing : Char) {texts : List Points}
    (hne : texts ≠ []) (rest : Points) : enclose l depth opening closing texts ++ rest =
      opening.toNat ::
        (commas l (depth + 1) texts ++ (l.indent depth ++ closing.toNat :: rest)) := by
  rw [enclose, if_neg hne]
  simp only [List.cons_append, List.append_assoc, List.nil_append]

include hl

/-- The commas and brackets of a list take a character each at least, and the first
character inside closes nothing. -/
theorem inside_commas (depth : Nat) {texts : List Points} (hne : texts ≠ []) (h : Begins texts)
    (more : Points) : texts.length ≤ (commas l depth texts ++ more).length ∧
      (skip (commas l depth texts ++ more)).head? ≠ some ']'.toNat ∧
      (skip (commas l depth texts ++ more)).head? ≠ some '\x7d'.toNat := by
  obtain ⟨c, cs, hskip, hc⟩ := skip_commas hl hne h more
  have hlen : texts.length ≤ (commas l depth texts).length := length_commas h
  rw [hskip, List.length_append, List.head?_cons]
  exact ⟨by omega, fun hsome => hc.2.1 (Option.some.inj hsome),
    fun hsome => hc.2.2 (Option.some.inj hsome)⟩

/-- What is written is read again, with brackets at most as deep as the reader goes. -/
theorem readValue_write {limit : Nat} {v : Value F} (hv : Fits (FloatText floats) limit v)
    (depth : Nat) {rest : Points} (hrest : Ends rest) :
    readValue floats limit (write floats l depth v ++ rest) = .ok (stored floats v, rest) := by
  have hbracket : opens '['.toNat = true := rfl
  have hbrace : opens '\x7b'.toNat = true := rfl
  induction hv generalizing depth rest with
  | null => exact (readValue_scalar floats rfl _ _).trans (readWord_written "null" _ rest)
  | bool b =>
      cases b with
      | true => exact (readValue_scalar floats rfl _ _).trans (readWord_written "true" _ rest)
      | false => exact (readValue_scalar floats rfl _ _).trans (readWord_written "false" _ rest)
  | @int limit m h =>
      have hvalue := readValue_number floats limit (decide (m < 0)) (digits_toDigits m.natAbs) [] rest
      have hread := readScalar_int floats h hrest
      rw [points, toList_int] at hread
      rw [List.append_nil] at hvalue
      rw [write, points, toList_int, hvalue, hread]
      rfl
  | @float limit x h =>
      have hread := readScalar_float floats h hrest
      rw [write, stored, ← hread]
      cases h with
      | nan h => rw [h]; exact readValue_scalar floats rfl _ _
      | inf h => rw [h]; exact readValue_scalar floats rfl _ _
      | negInf h => rw [h]; exact readValue_scalar floats rfl _ _
      | number hds hf he hne h => rw [h]; exact readValue_number floats limit _ hds _ rest
  | str h =>
      obtain ⟨hquote, hread⟩ := readString_quote h rest
      rw [write, hquote, readValue_scalar floats rfl, readScalar, if_pos rfl, hread]
      rfl
  | @arr limit xs h ih =>
      rw [write, stored]
      by_cases hxs : xs = []
      · subst hxs
        rfl
      · have hlen : (writeItems floats l (depth + 1) xs).length = xs.length := length_writeItems ..
        have hne : writeItems floats l (depth + 1) xs ≠ [] := by
          rw [← List.length_pos_iff, hlen]
          exact List.length_pos_iff.mpr hxs
        obtain ⟨hle, hopen, -⟩ := inside_commas hl (depth + 1) hne (begins_writeItems floats h)
          (l.indent depth ++ ']'.toNat :: rest)
        rw [hlen] at hle
        have hread := readItems_commas floats hl (depth + 1) hxs
          (fun x hx => ⟨write_cons floats (h x hx) (depth + 1), fun hrest => ih x hx (depth + 1) hrest⟩)
          hle blank_nil (hl.indent depth) rest
        rw [List.nil_append] at hread
        rw [enclose_append depth _ _ hne, readValue, hbracket, if_pos rfl, readNested, if_pos rfl,
          if_neg hopen, hread]
        rfl
  | @obj limit ms hkeys hnodup h ih =>
      rw [write, stored]
      by_cases hms : ms = []
      · subst hms
        rfl
      · have hlen : (writeMembers floats l (depth + 1) ms).length = ms.length :=
          length_writeMembers ..
        have hne : writeMembers floats l (depth + 1) ms ≠ [] := by
          rw [← List.length_pos_iff, hlen]
          exact List.length_pos_iff.mpr hms
        obtain ⟨hle, -, hopen⟩ := inside_commas hl (depth + 1) hne (begins_writeMembers floats)
          (l.indent depth ++ '\x7d'.toNat :: rest)
        rw [hlen] at hle
        have hread := readMembers_commas floats hl (depth + 1) hms hkeys
          (fun m hm => ⟨write_cons floats (h m hm) (depth + 1), fun hrest => ih m hm (depth + 1) hrest⟩)
          hle blank_nil (hl.indent depth) rest
        rw [List.nil_append] at hread
        rw [enclose_append depth _ _ hne, readValue, hbrace, if_pos rfl, readNested,
          if_neg (by decide), if_neg hopen, hread]
        rfl

/-- The whole text of a value, with blanks behind it. -/
theorem loadsText_write {limit : Nat} {v : Value F} (hv : Fits (FloatText floats) limit v)
    {bs : Points} (hbs : Blank bs) :
    loadsText floats limit (write floats l 0 v ++ bs) = .ok (stored floats v) := by
  obtain ⟨c, cs, hwrite, hc⟩ := write_cons floats hv 0 (l := l)
  have hskip : skip (write floats l 0 v ++ bs) = write floats l 0 v ++ bs := by
    rw [hwrite, List.cons_append]
    exact List.dropWhile_cons_of_neg (by rw [hc.1]; decide)
  have hends : Ends bs := by
    cases bs with
    | nil => exact fun c hc => by cases hc
    | cons b bs => exact ends_cons (Or.inr (Or.inr (Or.inr (hbs b List.mem_cons_self))))
  have hend : skip bs = [] := List.dropWhile_eq_nil_iff.mpr hbs
  rw [loadsText, hskip, readValue_write floats hl hv 0 hends]
  simp only [bind, Except.bind]
  rw [if_pos hend]

end

/-! ## Bytes -/

/-- ASCII without the zero. -/
def Ascii (s : Points) : Prop := ∀ p ∈ s, 0 < p ∧ p < 128

theorem ascii_cons {p : Nat} {s : Points} (hp : 0 < p ∧ p < 128) (hs : Ascii s) : Ascii (p :: s) := by
  intro q hq
  rcases List.mem_cons.mp hq with rfl | hq
  · exact hp
  · exact hs q hq

theorem ascii_append {s t : Points} (hs : Ascii s) (ht : Ascii t) : Ascii (s ++ t) :=
  fun p hp => (List.mem_append.mp hp).elim (hs p) (ht p)

theorem ascii_hexEscape (n : Nat) : Ascii (points (Json.hexEscape n)) := by
  have hdigit : ∀ m, 0 < (Json.hexDigit (m % 16)).toNat ∧ (Json.hexDigit (m % 16)).toNat < 128 := by
    intro m
    have hall : ∀ k < 16, 0 < (Json.hexDigit k).toNat ∧ (Json.hexDigit k).toNat < 128 := by decide
    exact hall _ (Nat.mod_lt _ (by decide))
  rw [points_hexEscape]
  refine ascii_cons (by decide) (ascii_cons (by decide) fun p hp => ?_)
  simp only [hexDigits, List.map_cons, List.map_nil, List.mem_cons, List.not_mem_nil, or_false] at hp
  rcases hp with rfl | rfl | rfl | rfl
  · exact hdigit _
  · exact hdigit _
  · exact hdigit _
  · exact hdigit _

/-- Text that is there to be looked at. -/
theorem ascii_of_all {s : Points} (h : s.all (fun p => 0 < p && p < 128) = true) : Ascii s := by
  intro p hp
  have hpoint := List.all_eq_true.mp h p hp
  simpa using hpoint

theorem ascii_escape (p : Nat) : Ascii (escape p) := by
  unfold escape
  split
  · exact ascii_of_all (by decide)
  · split
    · exact ascii_of_all (by decide)
    · split
      · exact ascii_of_all (by decide)
      · split
        · exact ascii_of_all (by decide)
        · split
          · exact ascii_of_all (by decide)
          · split
            · exact ascii_of_all (by decide)
            · split
              · exact ascii_of_all (by decide)
              · split
                · next h => exact ascii_cons (by omega) (ascii_of_all (by decide))
                · split
                  · exact ascii_hexEscape p
                  · exact ascii_append (ascii_hexEscape _) (ascii_hexEscape _)

theorem ascii_quote (s : Points) : Ascii (quote s) := by
  refine ascii_cons (by decide) (ascii_append (fun p hp => ?_) (ascii_cons (by decide) ?_))
  · obtain ⟨q, -, hq⟩ := List.mem_flatMap.mp hp
    exact ascii_escape q p hq
  · exact fun p hp => absurd hp List.not_mem_nil

theorem ascii_blank {bs : Points} (h : Blank bs) : Ascii bs := by
  intro p hp
  have hblank := h p hp
  simp only [isBlank, Bool.or_eq_true, decide_eq_true_eq] at hblank
  omega

section

variable {F : Type} (floats : Floats F) {l : Layout} (hl : l.Blanks) {ds : List Char}

omit floats in
theorem ascii_digits (hds : ∀ c ∈ ds, c.isDigit = true) : Ascii (ds.map Char.toNat) := by
  intro p hp
  obtain ⟨c, hc, rfl⟩ := List.mem_map.mp hp
  have hdigit := hds c hc
  simp only [Char.isDigit, Bool.and_eq_true, decide_eq_true_eq] at hdigit
  have hle : 48 ≤ c.toNat := hdigit.1
  have hge : c.toNat ≤ 57 := hdigit.2
  omega

omit floats in
theorem ascii_part {mark text : List Char} (hmark : Ascii (mark.map Char.toNat))
    (h : JsonText.Part mark text) : Ascii (text.map Char.toNat) := by
  obtain ⟨ds, -, hds, rfl⟩ := h
  rw [List.map_append]
  exact ascii_append hmark (ascii_digits hds)

omit floats in
theorem ascii_number {fraction exponent : List Char} (negative : Bool) (hds : Digits ds)
    (hf : Fraction fraction) (he : Exponent exponent) :
    Ascii ((sign negative ++ (ds ++ (fraction ++ exponent))).map Char.toNat) := by
  simp only [List.map_append]
  refine ascii_append ?_ (ascii_append (ascii_digits hds.2.1) (ascii_append ?_ ?_))
  · cases negative with
    | true => exact ascii_of_all (by decide)
    | false => exact ascii_of_all (by decide)
  · rcases hf with rfl | hpart
    · exact ascii_of_all (by decide)
    · exact ascii_part (ascii_of_all (by decide)) hpart
  · rcases he with rfl | ⟨e, hmem, sgn, hsgn, hpart⟩
    · exact ascii_of_all (by decide)
    · refine ascii_part ?_ hpart
      simp only [List.mem_cons, List.not_mem_nil, or_false] at hmem hsgn
      rcases hmem with rfl | rfl
      · rcases hsgn with rfl | rfl | rfl <;> exact ascii_of_all (by decide)
      · rcases hsgn with rfl | rfl | rfl <;> exact ascii_of_all (by decide)

theorem ascii_float {x : F} (h : FloatText floats x) : Ascii ((floats.text x).map Char.toNat) := by
  cases h with
  | nan h => rw [h]; exact ascii_of_all (by decide)
  | inf h => rw [h]; exact ascii_of_all (by decide)
  | negInf h => rw [h]; exact ascii_of_all (by decide)
  | number hds hf he hne h => rw [h]; exact ascii_number _ hds hf he

include hl

omit floats in
theorem ascii_commas {depth : Nat} {texts : List Points} (h : ∀ t ∈ texts, Ascii t) :
    Ascii (commas l depth texts) := by
  induction texts with
  | nil => exact fun p hp => absurd hp List.not_mem_nil
  | cons t texts ih =>
      have ht := h t List.mem_cons_self
      have hrest := ih fun t' ht' => h t' (List.mem_cons_of_mem t ht')
      cases texts with
      | nil => exact ascii_append (ascii_blank (hl.indent depth)) ht
      | cons t' texts =>
          exact ascii_append (ascii_blank (hl.indent depth)) (ascii_append ht
            (ascii_cons (by decide) (ascii_append (ascii_blank hl.afterComma) hrest)))

omit floats in
theorem ascii_enclose {depth : Nat} {opening closing : Char} {texts : List Points}
    (hopening : 0 < opening.toNat ∧ opening.toNat < 128)
    (hclosing : 0 < closing.toNat ∧ closing.toNat < 128) (h : ∀ t ∈ texts, Ascii t) :
    Ascii (enclose l depth opening closing texts) := by
  have hnil : Ascii [] := fun p hp => absurd hp List.not_mem_nil
  unfold enclose
  split
  · exact ascii_cons hopening (ascii_cons hclosing hnil)
  · exact ascii_append (ascii_cons hopening (ascii_commas hl h))
      (ascii_append (ascii_blank (hl.indent depth)) (ascii_cons hclosing hnil))

theorem ascii_write {limit : Nat} {v : Value F} (hv : Fits (FloatText floats) limit v) :
    ∀ depth, Ascii (write floats l depth v) := by
  induction hv with
  | null =>
      intro depth
      rw [write]
      exact ascii_of_all (by decide)
  | bool b =>
      intro depth
      rw [write]
      cases b with
      | true => exact ascii_of_all (by decide)
      | false => exact ascii_of_all (by decide)
  | @int _ m h =>
      intro depth
      have hnumber := ascii_number (decide (m < 0)) (digits_toDigits m.natAbs) (Or.inl rfl) (Or.inl rfl)
      rw [List.append_nil, List.append_nil] at hnumber
      rw [write, points, toList_int]
      exact hnumber
  | float h => exact fun _ => ascii_float floats h
  | @str _ s h => exact fun _ => ascii_quote s
  | @arr _ xs h ih =>
      intro depth
      have hitems : ∀ t ∈ writeItems floats l (depth + 1) xs, Ascii t := by
        clear h
        induction xs with
        | nil => exact fun t ht => absurd ht List.not_mem_nil
        | cons x xs ihxs =>
            intro t ht
            rcases List.mem_cons.mp ht with rfl | ht
            · exact ih x List.mem_cons_self _
            · exact ihxs (fun y hy => ih y (List.mem_cons_of_mem x hy)) t ht
      exact ascii_enclose hl (by decide) (by decide) hitems
  | @obj _ ms hkeys hnodup h ih =>
      intro depth
      have hmembers : ∀ t ∈ writeMembers floats l (depth + 1) ms, Ascii t := by
        clear hkeys hnodup h
        induction ms with
        | nil => exact fun t ht => absurd ht List.not_mem_nil
        | cons m ms ihms =>
            intro t ht
            rcases List.mem_cons.mp ht with rfl | ht
            · exact ascii_append (ascii_quote m.1) (ascii_cons (by decide)
                (ascii_append (ascii_blank hl.afterColon) (ih m List.mem_cons_self _)))
            · exact ihms (fun m' hm' => ih m' (List.mem_cons_of_mem m hm')) t ht
      exact ascii_enclose hl (by decide) (by decide) hmembers

/-- The bytes of a value. -/
theorem loads_write {limit : Nat} {v : Value F} (hv : Fits (FloatText floats) limit v) :
    loads floats limit (Encoding.encode (write floats l 0 v)) = .ok (stored floats v) := by
  have htext := loadsText_write floats hl hv blank_nil
  rw [List.append_nil] at htext
  rw [loads, Encoding.decode_encode (ascii_write floats hl hv 0)]
  exact htext

end

end OufGateway.Lib.PyJson
