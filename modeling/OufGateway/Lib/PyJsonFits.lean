import Mathlib
import OufGateway.Lib.Except
import OufGateway.Lib.PyJsonReread

/-!
# What is read can be written

A value the reader gives holds code points and no others, and integers of at most 4300
digits, and nests no deeper than the reader went; so the writer has nothing to refuse in
it. Each reader is followed with what it leaves behind, which is the end of what it was
given. With `readValue_write` this closes the circle: what was read can be written and
read again.
-/

namespace OufGateway.Lib.PyJson

open Encoding (Points combine isHigh isLow tail? atLeast readUtf8 readUtf16 readUtf32 word decodeAll
  Codec decode detectEncoding)
open JsonText (natural sign isNegative readDigits readFraction readExponent)

variable {n p : Nat} {cs s rest : Points}

/-! ## Decoding -/

/-- A unit that is a code point and leaves the end of the bytes. -/
def ReadsPoint (bytes : List Nat) (r : Nat × List Nat) : Prop := r.1 < 1114112 ∧ r.2 <:+ bytes

theorem atLeast_some {least : Nat} {r : Nat × List Nat} (h : atLeast least p rest = some r) :
    r.1 < 1114112 ∧ r.2 = rest := by
  unfold atLeast at h
  split at h
  · next hp =>
    cases h
    exact ⟨hp.2, rfl⟩
  · cases h

theorem readUtf8_point {bytes : List Nat} {r : Nat × List Nat} (h : readUtf8 bytes = some r) :
    ReadsPoint bytes r := by
  unfold readUtf8 at h
  split at h
  · cases h
  · next a rest =>
    split at h
    · next ha =>
      cases h
      exact ⟨ha.trans (by decide), List.suffix_cons a rest⟩
    · split at h
      · split at h
        · simp only [Option.bind_eq_bind, Option.bind_eq_some_iff] at h
          obtain ⟨_, -, h⟩ := h
          obtain ⟨hp, hrest⟩ := atLeast_some h
          exact ⟨hp, hrest ▸ ⟨[_, _], rfl⟩⟩
        · cases h
      · split at h
        · split at h
          · simp only [Option.bind_eq_bind, Option.bind_eq_some_iff] at h
            obtain ⟨_, -, _, -, h⟩ := h
            obtain ⟨hp, hrest⟩ := atLeast_some h
            exact ⟨hp, hrest ▸ ⟨[_, _, _], rfl⟩⟩
          · cases h
        · split at h
          · split at h
            · simp only [Option.bind_eq_bind, Option.bind_eq_some_iff] at h
              obtain ⟨_, -, _, -, _, -, h⟩ := h
              obtain ⟨hp, hrest⟩ := atLeast_some h
              exact ⟨hp, hrest ▸ ⟨[_, _, _, _], rfl⟩⟩
            · cases h
          · cases h

theorem word_pair_lt {bigEndian : Bool} {a b : Nat} (ha : a < 256) (hb : b < 256) :
    word bigEndian [a, b] < 65536 := by
  cases bigEndian with
  | true =>
      have hword : word true [a, b] = (0 * 256 + a) * 256 + b := rfl
      omega
  | false =>
      have hword : word false [a, b] = (0 * 256 + b) * 256 + a := rfl
      omega

theorem combine_lt {high low : Nat} (hhigh : isHigh high = true) (hlow : isLow low = true) :
    combine high low < 1114112 := by
  simp only [isHigh, isLow, Bool.and_eq_true, decide_eq_true_eq] at hhigh hlow
  unfold combine
  omega

theorem readUtf16_point {bigEndian : Bool} {bytes : List Nat} {r : Nat × List Nat}
    (hbytes : ∀ b ∈ bytes, b < 256) (h : readUtf16 bigEndian bytes = some r) :
    ReadsPoint bytes r := by
  unfold readUtf16 at h
  split at h
  · next a b rest =>
    have hword : word bigEndian [a, b] < 65536 :=
      word_pair_lt (hbytes a (by simp)) (hbytes b (by simp))
    simp only [] at h
    split at h
    · next c d rest' =>
      split at h
      · next hpair =>
        obtain rfl := Option.some.inj h
        obtain ⟨hhigh, hlow⟩ := Bool.and_eq_true_iff.mp hpair
        exact ⟨combine_lt hhigh hlow, ⟨[a, b, c, d], rfl⟩⟩
      · cases h
        exact ⟨hword.trans (by decide), ⟨[a, b], rfl⟩⟩
    · cases h
      exact ⟨hword.trans (by decide), ⟨[a, b], rfl⟩⟩
  · cases h

theorem readUtf32_point {bigEndian : Bool} {bytes : List Nat} {r : Nat × List Nat}
    (h : readUtf32 bigEndian bytes = some r) : ReadsPoint bytes r := by
  unfold readUtf32 at h
  split at h
  · next a b c d rest =>
    obtain ⟨hp, hrest⟩ := atLeast_some h
    exact ⟨hp, hrest ▸ ⟨[a, b, c, d], rfl⟩⟩
  · cases h

theorem codec_point {codec : Codec} {bytes : List Nat} {r : Nat × List Nat}
    (hbytes : ∀ b ∈ bytes, b < 256) (h : codec.read bytes = some r) : ReadsPoint bytes r := by
  cases codec with
  | utf8 => exact readUtf8_point h
  | utf16 bigEndian => exact readUtf16_point hbytes h
  | utf32 bigEndian => exact readUtf32_point h

theorem valid_decodeAll {codec : Codec} {bytes : List Nat} (hbytes : ∀ b ∈ bytes, b < 256)
    (h : decodeAll codec.read n bytes = some s) : Valid s := by
  induction n generalizing bytes s with
  | zero =>
      cases bytes with
      | nil =>
          cases h
          exact fun p hp => absurd hp List.not_mem_nil
      | cons b bytes => cases h
  | succ n ih =>
      cases bytes with
      | nil =>
          cases h
          exact fun p hp => absurd hp List.not_mem_nil
      | cons b bytes =>
          obtain ⟨r, hread, h⟩ := Option.bind_eq_some_iff.mp h
          obtain ⟨ps, hps, h⟩ := Option.bind_eq_some_iff.mp h
          cases h
          obtain ⟨hp, hsuffix⟩ := codec_point hbytes hread
          have hrest := ih (fun b' hb' => hbytes b' (hsuffix.subset hb')) hps
          intro q hq
          rcases List.mem_cons.mp hq with rfl | hq
          · exact hp
          · exact hrest q hq

theorem valid_decode {bytes : List UInt8} (h : decode bytes = some s) : Valid s := by
  refine valid_decodeAll (fun b hb => ?_) h
  obtain ⟨c, -, rfl⟩ := List.mem_map.mp (List.mem_of_mem_drop hb)
  exact c.toNat_lt

/-! ## Strings -/

theorem hexValue?_lt {c : Char} {v : Nat} (h : Json.hexValue? c = some v) : v < 16 := by
  have hle : ∀ {a b : Char}, a ≤ b → a.toNat ≤ b.toNat := fun h => h
  unfold Json.hexValue? at h
  split at h
  · next hc =>
    obtain rfl := Option.some.inj h
    have hmost := hle hc.2
    have h9 : '9'.toNat = 57 := rfl
    omega
  · split at h
    · next hc =>
      obtain rfl := Option.some.inj h
      have hmost := hle hc.2
      have hf : 'f'.toNat = 102 := rfl
      omega
    · split at h
      · next hc =>
        obtain rfl := Option.some.inj h
        have hmost := hle hc.2
        have hF : 'F'.toNat = 70 := rfl
        omega
      · cases h

theorem readHex_lt (h : readHex cs = some (p, rest)) : p < 65536 ∧ rest <:+ cs := by
  obtain ⟨r, hread, hr⟩ := Option.map_eq_some_iff.mp h
  obtain ⟨rfl, rfl⟩ := Prod.mk.inj hr
  refine ⟨?_, List.drop_suffix 4 cs⟩
  unfold Json.readHex at hread
  split at hread
  · simp only [Option.bind_eq_bind, Option.bind_eq_some_iff] at hread
    obtain ⟨a, ha, b, hb, c, hc, d, hd, hread⟩ := hread
    obtain rfl := Option.some.inj hread
    have ha' := hexValue?_lt ha
    have hb' := hexValue?_lt hb
    have hc' := hexValue?_lt hc
    have hd' := hexValue?_lt hd
    simp only []
    omega
  · cases hread

theorem readLow_low (h : readLow cs = some (p, rest)) : isLow p = true ∧ rest <:+ cs := by
  unfold readLow at h
  split at h
  · obtain ⟨hread, hlow⟩ := Option.filter_eq_some_iff.mp h
    exact ⟨hlow, (readHex_lt hread).2.trans (List.drop_suffix 2 cs)⟩
  · cases h

theorem readEscape_point (h : readEscape cs = some (p, rest)) : p < 1114112 ∧ rest <:+ cs := by
  unfold readEscape at h
  split at h
  · cases h
  · next c cs =>
    have hcons := List.suffix_cons c cs
    split at h
    · obtain ⟨⟨n, cs'⟩, hhex, h⟩ := Option.bind_eq_some_iff.mp h
      obtain ⟨hn, hsuffix⟩ := readHex_lt hhex
      simp only [] at h
      split at h
      · next low cs'' hlow =>
        obtain ⟨rfl, rfl⟩ := Prod.mk.inj (Option.some.inj h)
        obtain ⟨hlow, hhigh⟩ := Option.filter_eq_some_iff.mp hlow
        obtain ⟨hislow, hsuffix'⟩ := readLow_low hlow
        exact ⟨combine_lt hhigh hislow, (hsuffix'.trans hsuffix).trans hcons⟩
      · obtain ⟨rfl, rfl⟩ := Prod.mk.inj (Option.some.inj h)
        exact ⟨hn.trans (by decide), hsuffix.trans hcons⟩
    · obtain ⟨e, -, h⟩ := Option.map_eq_some_iff.mp h
      obtain ⟨rfl, rfl⟩ := Prod.mk.inj h
      exact ⟨Json.toNat_lt e, hcons⟩

theorem valid_readString (hcs : Valid cs) (h : readString n cs = some (s, rest)) :
    Valid s ∧ rest <:+ cs := by
  induction n generalizing cs s with
  | zero => cases h
  | succ n ih =>
      cases cs with
      | nil => cases h
      | cons c cs =>
          have hcons := List.suffix_cons c cs
          rw [readString] at h
          split at h
          · obtain ⟨rfl, rfl⟩ := Prod.mk.inj (Option.some.inj h)
            exact ⟨fun p hp => absurd hp List.not_mem_nil, hcons⟩
          · obtain ⟨⟨q, cs'⟩, hpoint, h⟩ := Option.bind_eq_some_iff.mp h
            obtain ⟨⟨s', rest'⟩, hread, h⟩ := Option.bind_eq_some_iff.mp h
            obtain ⟨rfl, rfl⟩ := Prod.mk.inj (Option.some.inj h)
            have hq : q < 1114112 ∧ cs' <:+ cs := by
              unfold readPoint at hpoint
              split at hpoint
              · exact readEscape_point hpoint
              · split at hpoint
                · cases hpoint
                · obtain ⟨rfl, rfl⟩ := Prod.mk.inj (Option.some.inj hpoint)
                  exact ⟨hcs _ List.mem_cons_self, List.suffix_rfl⟩
            obtain ⟨hs, hsuffix⟩ := ih (fun p hp => hcs p (hcons.subset (hq.2.subset hp))) hread
            refine ⟨fun p hp => ?_, (hsuffix.trans hq.2).trans hcons⟩
            rcases List.mem_cons.mp hp with rfl | hp
            · exact hq.1
            · exact hs p hp

/-! ## Scalars -/

section

variable {F : Type} {floats : Floats F} {v : Value F}

/-- Whatever float it is. -/
abbrev Readable (limit : Nat) (v : Value F) : Prop := Fits (fun _ => True) limit v

theorem natural_lt {ds : List Char} (h : ∀ c ∈ ds, c.isDigit = true) :
    natural ds < 10 ^ ds.length := by
  induction ds with
  | nil => exact Nat.one_pos
  | cons c ds ih =>
      have hrest := ih fun d hd => h d (List.mem_cons_of_mem c hd)
      have hc : c.toNat - '0'.toNat ≤ 9 := by
        have hdigit := h c List.mem_cons_self
        simp only [Char.isDigit, Bool.and_eq_true, decide_eq_true_eq] at hdigit
        have hle : c.toNat ≤ 57 := hdigit.2
        have hzero : '0'.toNat = 48 := rfl
        omega
      have hvalue : natural (c :: ds) = 10 ^ ds.length * (10 * 0 + (c.toNat - '0'.toNat)) + natural ds := by
        rw [natural, Nat.ofDigitChars_cons, Nat.ofDigitChars_eq_ofDigitChars_zero]
        rfl
      have hmul : 10 ^ ds.length * (10 * 0 + (c.toNat - '0'.toNat)) ≤ 10 ^ ds.length * 9 :=
        Nat.mul_le_mul_left _ (by omega)
      rw [hvalue, List.length_cons, pow_succ]
      omega

theorem readable_integer {negative : Bool} {ds : List Char} (hne : ds ≠ [])
    (hds : ∀ c ∈ ds, c.isDigit = true) (hshort : ds.length ≤ 4300) (limit : Nat) :
    Readable (F := F) limit (.int (if negative then -natural ds else natural ds)) := by
  have habs : ((if negative then -(natural ds : Int) else natural ds)).natAbs = natural ds := by
    split
    · rw [Int.natAbs_neg, Int.natAbs_natCast]
    · exact Int.natAbs_natCast _
  refine .int ?_
  rw [habs]
  refine le_trans ?_ hshort
  exact (Nat.length_toDigits_le_iff (by decide) (List.length_pos_iff.mpr hne)).mpr (natural_lt hds)

theorem readNumber_readable (h : readNumber floats cs = .ok (v, rest)) (limit : Nat) :
    Readable limit v ∧ rest <:+ cs := by
  simp only [readNumber] at h
  generalize (if isNegative (cs.map Char.ofNat) = true then (cs.map Char.ofNat).tail
    else cs.map Char.ofNat) = unsigned at h
  split at h
  · cases h
  · next hne =>
    obtain ⟨⟨-, hall, -⟩, -⟩ := JsonText.digits_of_readDigits hne
    split at h
    · split at h
      · cases h
      · next hshort =>
        obtain ⟨rfl, rfl⟩ := Prod.mk.inj (Except.ok.inj h)
        exact ⟨readable_integer hne hall (not_lt.mp hshort) limit, List.drop_suffix _ _⟩
    · obtain ⟨rfl, rfl⟩ := Prod.mk.inj (Except.ok.inj h)
      exact ⟨.float trivial, List.drop_suffix _ _⟩

theorem readWord_readable {word : String} {x : Value F} (hx : ∀ limit, Readable limit x)
    (h : readWord word x cs = .ok (v, rest)) (limit : Nat) : Readable limit v ∧ rest <:+ cs := by
  unfold readWord at h
  split at h
  · obtain ⟨rfl, rfl⟩ := Prod.mk.inj (Except.ok.inj h)
    exact ⟨hx limit, List.drop_suffix _ _⟩
  · cases h

theorem readScalar_readable (hcs : Valid cs) (h : readScalar floats cs = .ok (v, rest))
    (limit : Nat) : Readable limit v ∧ rest <:+ cs := by
  unfold readScalar at h
  split at h
  · cases h
  · next c cs =>
    split at h
    · split at h
      · cases h
      · next s rest' hread =>
        obtain ⟨rfl, rfl⟩ := Prod.mk.inj (Except.ok.inj h)
        have hcons := List.suffix_cons c cs
        obtain ⟨hs, hsuffix⟩ := valid_readString (fun p hp => hcs p (hcons.subset hp)) hread
        exact ⟨.str hs, hsuffix.trans hcons⟩
    · split at h
      · exact readWord_readable (fun _ => .null) h limit
      · split at h
        · exact readWord_readable (fun _ => .bool true) h limit
        · split at h
          · exact readWord_readable (fun _ => .bool false) h limit
          · split at h
            · exact readWord_readable (fun _ => .float trivial) h limit
            · split at h
              · exact readWord_readable (fun _ => .float trivial) h limit
              · split at h
                · exact readWord_readable (fun _ => .float trivial) h limit
                · exact readNumber_readable h limit

/-! ## Brackets -/

section

variable {value : Points → Except Fault (Value F × Points)} {limit : Nat}

/-- A reader of values that reads nothing the writer refuses. -/
def Reads (limit : Nat) (value : Points → Except Fault (Value F × Points)) : Prop :=
  ∀ {cs v rest}, Valid cs → value cs = .ok (v, rest) → Readable limit v ∧ rest <:+ cs

theorem valid_suffix {cs' : Points} (hcs : Valid cs) (h : cs' <:+ cs) : Valid cs' :=
  fun p hp => hcs p (h.subset hp)

theorem skip_suffix (cs : Points) : skip cs <:+ cs := List.dropWhile_suffix isBlank

/-- What is behind a mark that comes next. -/
theorem suffix_of_skip {c : Nat} {cs' : Points} (h : skip cs = c :: cs') : cs' <:+ cs :=
  (h ▸ List.suffix_cons c cs' : cs' <:+ skip cs).trans (skip_suffix cs)

theorem readItems_readable (hvalue : Reads limit value) {xs : List (Value F)} (hcs : Valid cs)
    (h : readItems value n cs = .ok (xs, rest)) :
    (∀ x ∈ xs, Readable limit x) ∧ rest <:+ cs := by
  induction n generalizing cs xs with
  | zero => cases h
  | succ n ih =>
      obtain ⟨⟨x, cs'⟩, hx, h⟩ := bind_eq_ok.mp h
      obtain ⟨hreadable, hsuffix⟩ := hvalue (valid_suffix hcs (skip_suffix cs)) hx
      have hsuffix := hsuffix.trans (skip_suffix cs)
      simp only [] at h
      split at h
      · cases h
      · next c cs'' hskip =>
        have hnext := (suffix_of_skip hskip).trans hsuffix
        split at h
        · obtain ⟨rfl, rfl⟩ := Prod.mk.inj (Except.ok.inj h)
          refine ⟨fun y hy => ?_, hnext⟩
          rw [List.mem_singleton.mp hy]
          exact hreadable
        · split at h
          · obtain ⟨⟨ys, rest'⟩, hys, h⟩ := bind_eq_ok.mp h
            obtain ⟨rfl, rfl⟩ := Prod.mk.inj (Except.ok.inj h)
            obtain ⟨hall, hsuffix'⟩ := ih (valid_suffix hcs hnext) hys
            refine ⟨fun y hy => ?_, hsuffix'.trans hnext⟩
            rcases List.mem_cons.mp hy with rfl | hy
            · exact hreadable
            · exact hall y hy
          · cases h

theorem readKey_valid {key : Points} (hcs : Valid cs) (h : readKey cs = .ok (key, rest)) :
    Valid key ∧ rest <:+ cs := by
  unfold readKey at h
  split at h
  · cases h
  · next c cs' hskip =>
    have hnext := suffix_of_skip hskip
    split at h
    · split at h
      · cases h
      · next s rest' hread =>
        obtain ⟨hs, hsuffix⟩ := valid_readString (valid_suffix hcs hnext) hread
        split at h
        · cases h
        · next d rest'' hcolon =>
          split at h
          · obtain ⟨rfl, rfl⟩ := Prod.mk.inj (Except.ok.inj h)
            exact ⟨hs, ((suffix_of_skip hcolon).trans hsuffix).trans hnext⟩
          · cases h
    · cases h

theorem readMembers_readable (hvalue : Reads limit value) {ms : List (Points × Value F)}
    (hcs : Valid cs) (h : readMembers value n cs = .ok (ms, rest)) :
    (∀ m ∈ ms, Valid m.1 ∧ Readable limit m.2) ∧ rest <:+ cs := by
  induction n generalizing cs ms with
  | zero => cases h
  | succ n ih =>
      obtain ⟨⟨key, cs₁⟩, hkey, h⟩ := bind_eq_ok.mp h
      obtain ⟨hvalid, hsuffix₁⟩ := readKey_valid hcs hkey
      obtain ⟨⟨x, cs'⟩, hx, h⟩ := bind_eq_ok.mp h
      have hskip₁ := (skip_suffix cs₁).trans hsuffix₁
      obtain ⟨hreadable, hsuffix⟩ := hvalue (valid_suffix hcs hskip₁) hx
      have hsuffix := hsuffix.trans hskip₁
      simp only [] at h
      split at h
      · cases h
      · next c cs'' hskip =>
        have hnext := (suffix_of_skip hskip).trans hsuffix
        split at h
        · obtain ⟨rfl, rfl⟩ := Prod.mk.inj (Except.ok.inj h)
          refine ⟨fun y hy => ?_, hnext⟩
          rw [List.mem_singleton.mp hy]
          exact ⟨hvalid, hreadable⟩
        · split at h
          · obtain ⟨⟨ys, rest'⟩, hys, h⟩ := bind_eq_ok.mp h
            obtain ⟨rfl, rfl⟩ := Prod.mk.inj (Except.ok.inj h)
            obtain ⟨hall, hsuffix'⟩ := ih (valid_suffix hcs hnext) hys
            refine ⟨fun y hy => ?_, hsuffix'.trans hnext⟩
            rcases List.mem_cons.mp hy with rfl | hy
            · exact ⟨hvalid, hreadable⟩
            · exact hall y hy
          · cases h

/-! ## Values -/

theorem mem_setItem {ms : List (Points × Value F)} {key : Points} {item : Value F}
    {m : Points × Value F} (h : m ∈ setItem ms key item) : m ∈ ms ∨ m = (key, item) := by
  unfold setItem at h
  split at h
  · obtain ⟨m', hm', heq⟩ := List.mem_map.mp h
    split at heq
    · exact Or.inr heq.symm
    · exact Or.inl (heq ▸ hm')
  · rcases List.mem_append.mp h with h | h
    · exact Or.inl h
    · exact Or.inr (List.mem_singleton.mp h)

/-- A member of a dictionary is one of the pairs it was made of. -/
theorem mem_dict {ms : List (Points × Value F)} {m : Points × Value F} (h : m ∈ dict ms) :
    m ∈ ms := by
  have hfold : ∀ (ms acc : List (Points × Value F)),
      m ∈ ms.foldl (fun members m => setItem members m.1 m.2) acc → m ∈ acc ∨ m ∈ ms := by
    intro ms
    induction ms with
    | nil => exact fun acc h => Or.inl h
    | cons m' ms ih =>
        intro acc h
        rcases ih _ h with h | h
        · rcases mem_setItem h with h | h
          · exact Or.inl h
          · exact Or.inr (h ▸ List.mem_cons_self)
        · exact Or.inr (List.mem_cons_of_mem m' h)
  rcases hfold ms [] h with h | h
  · exact absurd h List.not_mem_nil
  · exact h

theorem keys_setItem (ms : List (Points × Value F)) (key : Points) (item : Value F) :
    (setItem ms key item).map (·.1) =
      if key ∈ ms.map (·.1) then ms.map (·.1) else ms.map (·.1) ++ [key] := by
  have hany : ms.any (·.1 = key) = true ↔ key ∈ ms.map (·.1) := by
    simp only [List.any_eq_true, decide_eq_true_eq, List.mem_map]
  unfold setItem
  by_cases hmem : key ∈ ms.map (·.1)
  · rw [if_pos (hany.mpr hmem), if_pos hmem, List.map_map]
    refine List.map_congr_left fun m _ => ?_
    simp only [Function.comp_apply]
    split
    · next h => exact h.symm
    · rfl
  · rw [if_neg fun h => hmem (hany.mp h), if_neg hmem, List.map_append]
    rfl

theorem nodup_dict (ms : List (Points × Value F)) : ((dict ms).map (·.1)).Nodup := by
  have hfold : ∀ (ms acc : List (Points × Value F)), (acc.map (·.1)).Nodup →
      ((ms.foldl (fun members m => setItem members m.1 m.2) acc).map (·.1)).Nodup := by
    intro ms
    induction ms with
    | nil => exact fun acc h => h
    | cons m ms ih =>
        intro acc h
        refine ih _ ?_
        rw [keys_setItem]
        split
        · exact h
        · next hmem =>
          rw [List.nodup_append]
          refine ⟨h, List.nodup_singleton _, fun a ha b hb hab => hmem ?_⟩
          rw [List.mem_singleton.mp hb] at hab
          exact hab ▸ ha
  exact hfold ms [] List.nodup_nil

/-- Pairs with keys of their own are a dictionary already. -/
theorem dict_of_nodup {ms : List (Points × Value F)} (h : (ms.map (·.1)).Nodup) : dict ms = ms := by
  have hfold : ∀ (ms acc : List (Points × Value F)), ((acc ++ ms).map (·.1)).Nodup →
      ms.foldl (fun members m => setItem members m.1 m.2) acc = acc ++ ms := by
    intro ms
    induction ms with
    | nil => exact fun acc _ => (List.append_nil acc).symm
    | cons m ms ih =>
        intro acc h
        have hnew : acc.any (·.1 = m.1) = false := by
          rw [List.any_eq_false]
          intro m' hm' hkey
          rw [List.map_append, List.map_cons, List.nodup_append] at h
          exact h.2.2 m'.1 (List.mem_map_of_mem hm') m.1 List.mem_cons_self (of_decide_eq_true hkey)
        have hset : setItem acc m.1 m.2 = acc ++ [m] := by
          unfold setItem
          rw [hnew]
          rfl
        rw [List.foldl_cons, hset, ih (acc ++ [m]) (by rw [List.append_assoc]; exact h),
          List.append_assoc]
        rfl
  exact hfold ms [] h

theorem readNested_readable (hvalue : Reads limit value) {c : Nat} (hcs : Valid cs)
    (h : readNested value c cs = .ok (v, rest)) : Readable (limit + 1) v ∧ rest <:+ cs := by
  have htail : (skip cs).tail <:+ cs := (List.tail_suffix _).trans (skip_suffix cs)
  unfold readNested at h
  split at h
  · split at h
    · obtain ⟨rfl, rfl⟩ := Prod.mk.inj (Except.ok.inj h)
      exact ⟨.arr fun x hx => absurd hx List.not_mem_nil, htail⟩
    · obtain ⟨⟨items, rest'⟩, hitems, h⟩ := bind_eq_ok.mp h
      obtain ⟨rfl, rfl⟩ := Prod.mk.inj (Except.ok.inj h)
      obtain ⟨hall, hsuffix⟩ := readItems_readable hvalue hcs hitems
      exact ⟨.arr hall, hsuffix⟩
  · split at h
    · obtain ⟨rfl, rfl⟩ := Prod.mk.inj (Except.ok.inj h)
      exact ⟨.obj (fun m hm => absurd hm List.not_mem_nil) List.nodup_nil
        fun m hm => absurd hm List.not_mem_nil, htail⟩
    · obtain ⟨⟨members, rest'⟩, hmembers, h⟩ := bind_eq_ok.mp h
      obtain ⟨rfl, rfl⟩ := Prod.mk.inj (Except.ok.inj h)
      obtain ⟨hall, hsuffix⟩ := readMembers_readable hvalue hcs hmembers
      exact ⟨.obj (fun m hm => (hall m (mem_dict hm)).1) (nodup_dict members)
        fun m hm => (hall m (mem_dict hm)).2, hsuffix⟩

end

theorem readValue_readable (limit : Nat) : Reads limit (readValue floats limit) := by
  induction limit with
  | zero =>
      intro cs v rest hcs h
      cases cs with
      | nil => cases h
      | cons c cs =>
          rw [readValue] at h
          split at h
          · cases h
          · exact readScalar_readable hcs h 0
  | succ limit ih =>
      intro cs v rest hcs h
      cases cs with
      | nil => cases h
      | cons c cs =>
          rw [readValue] at h
          split at h
          · have hcons := List.suffix_cons c cs
            obtain ⟨hreadable, hsuffix⟩ := readNested_readable ih (valid_suffix hcs hcons) h
            exact ⟨hreadable, hsuffix.trans hcons⟩
          · exact readScalar_readable hcs h (limit + 1)

theorem readable_of_loads {limit : Nat} {bytes : List UInt8}
    (h : loads floats limit bytes = .ok v) : Readable limit v := by
  unfold loads at h
  split at h
  · cases h
  · next text htext =>
    obtain ⟨⟨v', rest⟩, hread, h⟩ := bind_eq_ok.mp h
    simp only [] at h
    split at h
    · cases h
      exact (readValue_readable limit (valid_suffix (valid_decode htext) (skip_suffix text)) hread).1
    · cases h

end

end OufGateway.Lib.PyJson
