import Mathlib
import OufGateway.Lib.JsonParse
import OufGateway.Ref.Cursor
import OufGateway.Ref.OwnerQuery

/-!
# The texts of identifiers

A text names an identifier canonically when it is the text of the identifier that is read
from it. The canonical texts are the texts of the identifiers below `2^128` and no
others: what `uuid.UUID` skips or takes for a digit, apart from the plain ones and the
hyphens, does not come back in `str`.

The reader works through the 32 digits from the left, so the proof is about the digits of
a number from its highest one down.
-/

namespace OufGateway.Owner

open Lib Lib.Json
open Lib.JsonText (Points points Value)

/-- The digits of an identifier, the highest first. -/
def Uuid.digits (u : Uuid) (n : Nat) : List Nat := (List.range n).map fun k => u / 16 ^ (n - 1 - k) % 16

namespace Uuid

variable {u v : Uuid} {n : Nat}

theorem digits_succ (u : Uuid) (n : Nat) : digits u (n + 1) = digits (u / 16) n ++ [u % 16] := by
  unfold digits
  rw [List.range_succ, List.map_append, List.map_singleton]
  congr 1
  · refine List.map_congr_left fun k hk => ?_
    have hlt := List.mem_range.mp hk
    rw [Nat.div_div_eq_div_mul, ← Nat.pow_succ', show n + 1 - 1 - k = n - 1 - k + 1 by omega]
  · simp

theorem foldl_digits (u : Uuid) (n : Nat) :
    (digits u n).foldl (fun m d => 16 * m + d) 0 = u % 16 ^ n := by
  induction n generalizing u with
  | zero => simp [digits, Nat.mod_one]
  | succ n ih =>
      rw [digits_succ, List.foldl_append, ih, List.foldl_cons, List.foldl_nil, Nat.pow_succ',
        Nat.mod_mul, Nat.add_comm]

theorem foldl_digits_lt {ds : List Nat} (h : ∀ d ∈ ds, d < 16) :
    ds.foldl (fun m d => 16 * m + d) 0 < 16 ^ ds.length := by
  induction ds using List.reverseRecOn with
  | nil => simp
  | append_singleton ds d ih =>
      have hds := ih fun e he => h e (List.mem_append_left _ he)
      have hd := h d (by simp)
      rw [List.foldl_append, List.foldl_cons, List.foldl_nil, List.length_append,
        List.length_singleton, Nat.pow_succ]
      omega

/-! ## From an identifier to its text -/

theorem lt_of_mem_digits : ∀ d ∈ digits u n, d < 16 := by
  intro d hd
  obtain ⟨k, -, rfl⟩ := List.mem_map.mp hd
  exact Nat.mod_lt _ (by omega)

theorem length_digits : (digits u n).length = n := by rw [digits, List.length_map, List.length_range]

/-- The characters of a text without its hyphens. -/
def chars (u : Uuid) : List Char := (digits u 32).map hexDigit

theorem toList_text (u : Uuid) : u.text.toList =
    (chars u).take 8 ++ '-' :: ((chars u).drop 8).take 4 ++ '-' :: ((chars u).drop 12).take 4 ++
      '-' :: ((chars u).drop 16).take 4 ++ '-' :: ((chars u).drop 20).take 12 := by
  have hchars : (List.range 32).map (fun k => hexDigit (u / 16 ^ (31 - k) % 16)) = chars u := by
    rw [chars, digits, List.map_map]
    rfl
  have hsep : ("-" : String).toList = ['-'] := rfl
  unfold text
  rw [hchars]
  simp [String.toList_append, hsep]

/-- What no digit is. -/
structure Plain (c : Char) : Prop where
  hyphen : c ≠ '-'
  brace : isBrace c = false
  space : isSpace c = false
  plus : c ≠ '+'
  base : c ≠ 'x' ∧ c ≠ 'X'
  underscore : c ≠ '_'
  u : c ≠ 'u'
  ascii : asciiDigit c = c

theorem plain_hexDigit : ∀ d < 16, Plain (hexDigit d) := by
  intro d hd
  have hall : ∀ d < 16, hexDigit d ≠ '-' ∧ isBrace (hexDigit d) = false ∧
      isSpace (hexDigit d) = false ∧ hexDigit d ≠ '+' ∧ (hexDigit d ≠ 'x' ∧ hexDigit d ≠ 'X') ∧
      hexDigit d ≠ '_' ∧ hexDigit d ≠ 'u' ∧ asciiDigit (hexDigit d) = hexDigit d := by
    decide +kernel
  obtain ⟨h1, h2, h3, h4, h5, h6, h7, h8⟩ := hall d hd
  exact ⟨h1, h2, h3, h4, h5, h6, h7, h8⟩

theorem plain_chars : ∀ c ∈ chars u, Plain c := by
  intro c hc
  obtain ⟨d, hd, rfl⟩ := List.mem_map.mp hc
  exact plain_hexDigit d (lt_of_mem_digits d hd)

theorem length_chars : (chars u).length = 32 := by rw [chars, List.length_map, length_digits]

/-- Every character of the text is a hyphen or one of the digits. -/
theorem mem_text {c : Char} (hc : c ∈ u.text.toList) : c = '-' ∨ c ∈ chars u := by
  rw [toList_text] at hc
  simp only [List.mem_append, List.mem_cons] at hc
  have htake : ∀ {i n : Nat}, c ∈ ((chars u).drop i).take n → c ∈ chars u := fun h =>
    List.mem_of_mem_drop (List.mem_of_mem_take h)
  rcases hc with (((hc | hc | hc) | hc | hc) | hc | hc) | hc | hc
  · exact Or.inr (List.mem_of_mem_take hc)
  all_goals first
    | exact Or.inl hc
    | exact Or.inr (htake hc)

theorem filter_text (u : Uuid) : u.text.toList.filter (· ≠ '-') = chars u := by
  have hkeep : ∀ {i n : Nat}, (((chars u).drop i).take n).filter (· ≠ '-') = ((chars u).drop i).take n :=
    fun {i n} => List.filter_eq_self.mpr fun c hc => by
      simpa using (plain_chars c (List.mem_of_mem_drop (List.mem_of_mem_take hc))).hyphen
  have hfirst : ((chars u).take 8).filter (· ≠ '-') = (chars u).take 8 := hkeep (i := 0) (n := 8)
  have hlast : ((chars u).drop 20).take 12 = (chars u).drop 20 := by
    rw [List.take_of_length_le]
    rw [List.length_drop, length_chars]
  have hcut : ∀ i n : Nat, ((chars u).drop i).take n ++ (chars u).drop (i + n) = (chars u).drop i := by
    intro i n
    rw [← List.drop_drop]
    exact List.take_append_drop n _
  have hhyphen : ∀ cs : List Char, ('-' :: cs).filter (· ≠ '-') = cs.filter (· ≠ '-') :=
    fun cs => List.filter_cons_of_neg (by simp)
  rw [toList_text, List.filter_append, List.filter_append, List.filter_append, List.filter_append,
    hhyphen, hhyphen, hhyphen, hhyphen, hfirst, hkeep, hkeep, hkeep, hkeep, hlast,
    List.append_assoc, List.append_assoc, List.append_assoc, hcut 16 4, hcut 12 4, hcut 8 4,
    List.take_append_drop]

/-! ## Reading it back -/

/-- A word that starts with a letter the text has not is not in the text. -/
theorem without_eq_self {w : Char} {word cs : List Char} (h : w ∉ cs) :
    without (w :: word) 0 cs = cs := by
  induction cs with
  | nil => rfl
  | cons c cs ih =>
      have hc : w ≠ c := fun heq => h (heq ▸ List.mem_cons_self)
      have hno : ¬ (w :: word).isPrefixOf (c :: cs) = true := by simp [List.isPrefixOf, hc]
      rw [without, if_neg hno, ih fun hm => h (List.mem_cons_of_mem c hm)]

theorem dropWhile_eq_self {p : Char → Bool} {cs : List Char} (h : ∀ c ∈ cs, p c = false) :
    cs.dropWhile p = cs := by
  cases cs with
  | nil => rfl
  | cons c cs => exact List.dropWhile_cons_of_neg (by simp [h c List.mem_cons_self])

theorem strip_eq_self {p : Char → Bool} {cs : List Char} (h : ∀ c ∈ cs, p c = false) :
    ((cs.dropWhile p).reverse.dropWhile p).reverse = cs := by
  rw [dropWhile_eq_self h, dropWhile_eq_self fun c hc => h c (List.mem_reverse.mp hc),
    List.reverse_reverse]

theorem hexDigits?_map {ds : List Nat} (hds : ds ≠ []) (h : ∀ d ∈ ds, d < 16) :
    hexDigits? (ds.map hexDigit) = some ds := by
  induction ds with
  | nil => exact absurd rfl hds
  | cons d ds ih =>
      have hd := hexValue?_hexDigit d (h d List.mem_cons_self)
      cases ds with
      | nil => simp [hexDigits?, hd]
      | cons e ds =>
          have he := (plain_hexDigit e (h e (by simp))).underscore
          have hrest := ih (by simp) fun d hd => h d (List.mem_cons_of_mem _ hd)
          rw [List.map_cons] at hrest
          rw [List.map_cons, List.map_cons, hexDigits?, hd]
          simp only [if_neg he, hrest, Option.map_some]

theorem dropBase_eq_self {cs : List Char} (h : ∀ c ∈ cs, c ≠ 'x' ∧ c ≠ 'X') : dropBase cs = cs := by
  unfold dropBase
  split
  · exact absurd rfl (h 'x' (by simp)).1
  · exact absurd rfl (h 'X' (by simp)).2
  · exact absurd rfl (h 'x' (by simp)).1
  · exact absurd rfl (h 'X' (by simp)).2
  · rfl

theorem hexInt?_chars (u : Uuid) : hexInt? (chars u) = some (u % 16 ^ 32) := by
  have hplus : ¬ (chars u).head? = some '+' := fun hhead =>
    (plain_chars '+' (List.mem_of_mem_head? hhead)).plus rfl
  have hascii : (chars u).map asciiDigit = chars u :=
    (List.map_congr_left fun c hc => (plain_chars c hc).ascii).trans (List.map_id' _)
  have hne : digits u 32 ≠ [] := by
    intro hnil
    have hlength := length_digits (u := u) (n := 32)
    rw [hnil] at hlength
    cases hlength
  simp only [hexInt?, strip_eq_self fun c hc => (plain_chars c hc).space, hascii, if_neg hplus,
    dropBase_eq_self fun c hc => (plain_chars c hc).base]
  rw [chars, hexDigits?_map hne lt_of_mem_digits, Option.map_some, foldl_digits]

theorem plain_text {c : Char} (hc : c ∈ u.text.toList) : isBrace c = false ∧ c ≠ 'u' := by
  rcases mem_text hc with rfl | hc
  · decide
  · exact ⟨(plain_chars c hc).brace, (plain_chars c hc).u⟩

theorem map_ofNat_points (s : String) : (points s).map Char.ofNat = s.toList := by
  rw [points, List.map_map]
  exact (List.map_congr_left fun c _ => Char.ofNat_toNat c).trans (List.map_id' _)

theorem read?_text (hu : u < 2 ^ 128) : read? (points u.text) = some u := by
  have hno : ∀ word, without ('u' :: word) 0 u.text.toList = u.text.toList := fun word =>
    without_eq_self fun hmem => (plain_text hmem).2 rfl
  have hurn : "urn:".toList = 'u' :: ['r', 'n', ':'] := rfl
  have huuid : "uuid:".toList = 'u' :: ['u', 'i', 'd', ':'] := rfl
  have hlt : u % 16 ^ 32 = u := Nat.mod_eq_of_lt (by rw [show 16 ^ 32 = 2 ^ 128 by norm_num]; exact hu)
  simp only [read?, map_ofNat_points, hurn, huuid, hno,
    strip_eq_self fun c hc => (plain_text hc).1, filter_text, length_chars, ne_eq,
    not_true_eq_false, if_false, hexInt?_chars, hlt]

/-! ## What is read is small -/

theorem lt_of_hexDigits? {cs : List Char} {ds : List Nat} (h : hexDigits? cs = some ds) :
    (∀ d ∈ ds, d < 16) ∧ ds.length ≤ cs.length := by
  have hvalue : ∀ {c : Char} {d : Nat}, hexValue? c = some d → d < 16 := by
    intro c d hc
    unfold hexValue? at hc
    split at hc
    · next hle =>
      obtain rfl := Option.some.inj hc
      have hle' : c.toNat ≤ 57 := hle.2
      omega
    · split at hc
      · next hle =>
        obtain rfl := Option.some.inj hc
        have hle' : c.toNat ≤ 102 := hle.2
        omega
      · split at hc
        · next hle =>
          obtain rfl := Option.some.inj hc
          have hle' : c.toNat ≤ 70 := hle.2
          omega
        · cases hc
  induction cs using hexDigits?.induct generalizing ds with
  | case1 => cases h
  | case2 c =>
      obtain ⟨d, hd, rfl⟩ := Option.map_eq_some_iff.mp h
      exact ⟨fun e he => List.mem_singleton.mp he ▸ hvalue hd, Nat.le_refl 1⟩
  | case3 c d rest hnone =>
      rw [hexDigits?, hnone] at h
      cases h
  | case4 c d rest n hn hskip hnext =>
      rw [hexDigits?, hn] at h
      obtain ⟨ds, hds, rfl⟩ := Option.map_eq_some_iff.mp h
      have hrest : (∀ e ∈ ds, e < 16) ∧ ds.length ≤ (d :: rest).length := by
        split at hds
        · exact ⟨(hskip hds).1, (hskip hds).2.trans (Nat.le_succ _)⟩
        · exact hnext hds
      refine ⟨fun e he => ?_, Nat.succ_le_succ hrest.2⟩
      rcases List.mem_cons.mp he with rfl | he
      · exact hvalue hn
      · exact hrest.1 e he

theorem length_strip (p : Char → Bool) (cs : List Char) :
    ((cs.dropWhile p).reverse.dropWhile p).reverse.length ≤ cs.length := by
  rw [List.length_reverse]
  refine (List.dropWhile_suffix p).length_le.trans ?_
  rw [List.length_reverse]
  exact (List.dropWhile_suffix p).length_le

theorem length_dropBase (cs : List Char) : (dropBase cs).length ≤ cs.length := by
  unfold dropBase
  split
  · simp only [List.length_cons]
    omega
  · simp only [List.length_cons]
    omega
  · simp only [List.length_cons]
    omega
  · simp only [List.length_cons]
    omega
  · exact Nat.le_refl _

theorem read?_lt {s : Points} (h : read? s = some u) : u < 2 ^ 128 := by
  simp only [read?] at h
  split at h
  · cases h
  · next hlength =>
    obtain ⟨ds, hds, rfl⟩ := Option.map_eq_some_iff.mp h
    obtain ⟨hlt, hle⟩ := lt_of_hexDigits? hds
    have htail : ∀ cs : List Char, (if cs.head? = some '+' then cs.tail else cs).length ≤ cs.length := by
      intro cs
      split
      · exact (List.tail_suffix cs).length_le
      · exact Nat.le_refl _
    refine (foldl_digits_lt hlt).trans_le ?_
    rw [show 2 ^ 128 = 16 ^ 32 by norm_num]
    refine Nat.pow_le_pow_right (by omega) (hle.trans ((length_dropBase _).trans ((htail _).trans ?_)))
    rw [List.length_map]
    exact (length_strip isSpace _).trans (by omega)

end Uuid

/-- The value is the text of an identifier that is not nil. -/
def NamesUuid (v : Value) : Prop := ∃ u : Uuid, 0 < u ∧ u < 2 ^ 128 ∧ v = .str (points u.text)

theorem isCanonical_iff {v : Value} : isCanonical v = true ↔ NamesUuid v := by
  constructor
  · intro h
    unfold isCanonical at h
    split at h
    · next s =>
      obtain ⟨u, hu, htext⟩ := (Option.any_eq_true _ _).mp h
      simp only [Bool.and_eq_true, decide_eq_true_eq] at htext
      exact ⟨u, Nat.pos_of_ne_zero htext.2, Uuid.read?_lt hu, congrArg Value.str htext.1.symm⟩
    · cases h
  · rintro ⟨u, hpos, hlt, rfl⟩
    simp [isCanonical, Uuid.read?_text hlt, Nat.ne_of_gt hpos]

end OufGateway.Owner
