import Mathlib
import OufGateway.Lib.Text

/-!
# Paths of a URL

Three things that are done to text on its way into a path: percent-encoding, which gives
two texts one encoding only if they are one text; replacing every occurrence of a
placeholder; and the removal of dot segments, which clients and servers do to a path
before they look at it. A path is its segments, each behind a slash. Every segment but
the last moves the directory on, and the last is the resource; where the last is a dot
segment the resource is empty and what remains is a directory.
-/

namespace OufGateway.Lib.UrlPath

/-! ## Percent-encoding -/

/-- The characters that `quote` keeps when none is declared safe. -/
def unreserved (n : Nat) : Bool :=
  (48 ≤ n && n ≤ 57) || (65 ≤ n && n ≤ 90) || (97 ≤ n && n ≤ 122) || n = 95 || n = 46 ||
    n = 45 || n = 126

def upperHex (n : Nat) : Char := "0123456789ABCDEF".toList.getD n '0'

def quoteByte (b : UInt8) : List Char :=
  if unreserved b.toNat then [Char.ofNat b.toNat]
  else ['%', upperHex (b.toNat / 16), upperHex (b.toNat % 16)]

/-- `urllib.parse.quote(s, safe="")`. -/
def quote (s : List Char) : List Char := (s.flatMap String.utf8EncodeChar).flatMap quoteByte

/-! ## Placeholders -/

/-- `str.replace`, `skip` characters into an occurrence. -/
def replaceFrom (old new : List Char) : Nat → List Char → List Char
  | _, [] => []
  | skip + 1, _ :: cs => replaceFrom old new skip cs
  | 0, c :: cs =>
    if old.isPrefixOf (c :: cs) then new ++ replaceFrom old new (old.length - 1) cs
    else c :: replaceFrom old new 0 cs

/-- `s.replace(old, new)`, for an `old` that is not empty. -/
def replace (old new s : List Char) : List Char := replaceFrom old new 0 s

/-! ## Dot segments -/

/-- The segments of a path, which starts with a slash. -/
def segments (path : List Char) : List (List Char) := (Text.pieces (· = '/') path).tail

def join (segs : List (List Char)) : List Char := segs.flatMap ('/' :: ·)

abbrev IsDot (seg : List Char) : Prop := seg = ['.'] ∨ seg = ['.', '.']

/-- A segment that more follows, on the directory so far; the last of it comes first. -/
def enter (dir : List (List Char)) (seg : List Char) : List (List Char) :=
  if seg = ['.'] then dir else if seg = ['.', '.'] then dir.tail else seg :: dir

def enterAll (dir segs : List (List Char)) : List (List Char) := segs.foldl enter dir

/-- The path without dot segments, as its segments. -/
def dropDots (dir : List (List Char)) : List (List Char) → List (List Char)
  | [] => dir.reverse
  | [seg] =>
    if IsDot seg then ([] :: enter dir seg).reverse else (seg :: dir).reverse
  | seg :: next :: rest => dropDots (enter dir seg) (next :: rest)

/-- The removal of dot segments. -/
def normalize (path : List Char) : List Char := join (dropDots [] (segments path))

/-- The directory a path without its last slash names. -/
def directory (path : List Char) : List Char := join (enterAll [] (segments path)).reverse

/-! ## What is encoded -/

theorem upperHex_inj : ∀ m, m < 16 → ∀ n, n < 16 → upperHex m = upperHex n → m = n := by decide

theorem upperHex_ne_slash : ∀ n, n < 16 → upperHex n ≠ '/' := by decide

theorem toNat_ofNat_byte (b : UInt8) : (Char.ofNat b.toNat).toNat = b.toNat := by
  have hvalid : b.toNat.isValidChar := Or.inl (by have := b.toNat_lt; omega)
  rw [Char.ofNat, dif_pos hvalid]
  rfl

/-- A byte that stands for itself is not the sign of one that does not. -/
theorem ofNat_ne_percent {b : UInt8} (h : unreserved b.toNat = true) : Char.ofNat b.toNat ≠ '%' := by
  intro heq
  have hn := congrArg Char.toNat heq
  rw [toNat_ofNat_byte] at hn
  rw [hn] at h
  exact absurd h (by decide)

/-- The first byte can be read off an encoding. -/
theorem quoteByte_append_inj {b c : UInt8} {x y : List Char}
    (h : quoteByte b ++ x = quoteByte c ++ y) : b = c ∧ x = y := by
  have hb := b.toNat_lt
  have hc := c.toNat_lt
  unfold quoteByte at h
  split at h
  · next hkept =>
    split at h
    · obtain ⟨hchar, hrest⟩ := List.cons.inj h
      have hn := congrArg Char.toNat hchar
      rw [toNat_ofNat_byte, toNat_ofNat_byte] at hn
      exact ⟨UInt8.toNat_inj.mp hn, hrest⟩
    · exact absurd (List.cons.inj h).1 (ofNat_ne_percent hkept)
  · split at h
    · next hkept => exact absurd (List.cons.inj h).1.symm (ofNat_ne_percent hkept)
    · obtain ⟨-, h⟩ := List.cons.inj h
      obtain ⟨hhigh, h⟩ := List.cons.inj h
      obtain ⟨hlow, hrest⟩ := List.cons.inj h
      have hhigh := upperHex_inj _ (by omega) _ (by omega) hhigh
      have hlow := upperHex_inj _ (by omega) _ (by omega) hlow
      exact ⟨UInt8.toNat_inj.mp (by omega), hrest⟩

theorem quoteByte_ne_nil (b : UInt8) : quoteByte b ≠ [] := by
  unfold quoteByte
  split <;> simp

theorem flatMap_quoteByte_inj {bs cs : List UInt8}
    (h : bs.flatMap quoteByte = cs.flatMap quoteByte) : bs = cs := by
  induction bs generalizing cs with
  | nil =>
      cases cs with
      | nil => rfl
      | cons c cs =>
          rw [List.flatMap_nil, List.flatMap_cons] at h
          exact absurd (List.append_eq_nil_iff.mp h.symm).1 (quoteByte_ne_nil c)
  | cons b bs ih =>
      cases cs with
      | nil =>
          rw [List.flatMap_nil, List.flatMap_cons] at h
          exact absurd (List.append_eq_nil_iff.mp h).1 (quoteByte_ne_nil b)
      | cons c cs =>
          rw [List.flatMap_cons, List.flatMap_cons] at h
          obtain ⟨rfl, hrest⟩ := quoteByte_append_inj h
          rw [ih hrest]

theorem utf8_inj {s t : List Char}
    (h : s.flatMap String.utf8EncodeChar = t.flatMap String.utf8EncodeChar) : s = t := by
  have hbytes : (String.ofList s).toByteArray = (String.ofList t).toByteArray := by
    rw [String.toByteArray_ofList, String.toByteArray_ofList, List.utf8Encode, List.utf8Encode, h]
  have heq := String.toByteArray_inj.mp hbytes
  rw [← String.toList_ofList (l := s), heq, String.toList_ofList]

theorem quote_inj {s t : List Char} (h : quote s = quote t) : s = t :=
  utf8_inj (flatMap_quoteByte_inj h)

theorem slash_notMem_quote (s : List Char) : '/' ∉ quote s := by
  intro h
  obtain ⟨b, -, hb⟩ := List.mem_flatMap.mp h
  have hlt := b.toNat_lt
  unfold quoteByte at hb
  split at hb
  · next hkept =>
    have hn := congrArg Char.toNat (List.mem_singleton.mp hb)
    rw [toNat_ofNat_byte] at hn
    rw [← hn] at hkept
    exact absurd hkept (by decide)
  · simp only [List.mem_cons, List.not_mem_nil, or_false] at hb
    rcases hb with hb | hb | hb
    · exact absurd hb (by decide)
    · exact upperHex_ne_slash _ (by omega) hb.symm
    · exact upperHex_ne_slash _ (by omega) hb.symm

theorem quote_ne_nil {s : List Char} (h : s ≠ []) : quote s ≠ [] := by
  intro hnil
  exact h (quote_inj (hnil.trans rfl))

/-! ## What is replaced -/

variable {old new : List Char}

/-- An occurrence does not go over a character that it does not have. -/
theorem prefix_of_prefix_append {c : Char} {xs ys : List Char} (hc : c ∉ old)
    (h : old <+: xs ++ c :: ys) : old <+: xs := by
  induction xs generalizing old with
  | nil =>
      cases old with
      | nil => exact List.prefix_rfl
      | cons o os =>
          obtain ⟨rfl, -⟩ := List.cons_prefix_cons.mp h
          exact absurd List.mem_cons_self hc
  | cons x xs ih =>
      cases old with
      | nil => exact List.nil_prefix
      | cons o os =>
          obtain ⟨rfl, hrest⟩ := List.cons_prefix_cons.mp h
          have hos : c ∉ os := fun hmem => hc (List.mem_cons_of_mem _ hmem)
          exact List.cons_prefix_cons.mpr ⟨rfl, ih hos hrest⟩

theorem replaceFrom_append (hold : old ≠ []) {c : Char} (hc : c ∉ old) {skip : Nat}
    {xs : List Char} (hskip : skip ≤ xs.length) (ys : List Char) :
    replaceFrom old new skip (xs ++ c :: ys) =
      replaceFrom old new skip xs ++ c :: replaceFrom old new 0 ys := by
  induction xs generalizing skip with
  | nil =>
      obtain rfl := Nat.le_zero.mp hskip
      have hnone : old.isPrefixOf (c :: ys) = false := by
        rw [← Bool.not_eq_true, List.isPrefixOf_iff_prefix]
        intro h
        have hnil : old <+: [] := prefix_of_prefix_append hc h
        exact hold (List.prefix_nil.mp hnil)
      exact if_neg (Bool.eq_false_iff.mp hnone)
  | cons x xs ih =>
      cases skip with
      | succ skip => exact ih (Nat.le_of_succ_le_succ hskip)
      | zero =>
          have hsame : old.isPrefixOf (x :: (xs ++ c :: ys)) = old.isPrefixOf (x :: xs) := by
            rw [Bool.eq_iff_iff, List.isPrefixOf_iff_prefix, List.isPrefixOf_iff_prefix]
            refine ⟨fun h => ?_, fun h => ?_⟩
            · rw [← List.cons_append] at h
              exact prefix_of_prefix_append hc h
            · exact h.trans (List.prefix_append (x :: xs) (c :: ys))
          rw [List.cons_append, replaceFrom, replaceFrom, hsame]
          split
          · next hhere =>
            have hlength := (List.isPrefixOf_iff_prefix.mp hhere).length_le
            rw [List.length_cons] at hlength
            rw [ih (by omega), List.append_assoc]
          · rw [ih (Nat.zero_le _), List.cons_append]

theorem replaceFrom_length (cs : List Char) : replaceFrom old new cs.length cs = [] := by
  induction cs with
  | nil => rfl
  | cons c cs ih => exact ih

theorem replace_self (hold : old ≠ []) : replace old new old = new := by
  obtain ⟨o, os, rfl⟩ := List.exists_cons_of_ne_nil hold
  have hself : (o :: os).isPrefixOf (o :: os) = true :=
    List.isPrefixOf_iff_prefix.mpr List.prefix_rfl
  rw [replace, replaceFrom, hself, if_pos rfl]
  exact (congrArg (new ++ ·) (replaceFrom_length os)).trans (List.append_nil _)

/-- A placeholder behind a character it does not have is replaced by itself. -/
theorem replace_append (hold : old ≠ []) {c : Char} (hc : c ∉ old) (xs ys : List Char) :
    replace old new (xs ++ c :: ys) = replace old new xs ++ c :: replace old new ys :=
  replaceFrom_append hold hc (Nat.zero_le _) ys

/-! ## What is left of a path -/

/-- Segments, and no slash in any of them. -/
def Whole (segs : List (List Char)) : Prop := ∀ seg ∈ segs, '/' ∉ seg

theorem pieces_ne_nil (p : Char → Bool) (cs : List Char) : Text.pieces p cs ≠ [] := by
  induction cs with
  | nil => simp [Text.pieces]
  | cons c cs ih =>
      unfold Text.pieces
      split
      · next heq => exact absurd heq ih
      · split <;> simp

theorem pieces_cons_of {p : Char → Bool} {c : Char} (hc : p c = true) (cs : List Char) :
    Text.pieces p (c :: cs) = [] :: Text.pieces p cs := by
  obtain ⟨w, ws, hw⟩ := List.exists_cons_of_ne_nil (pieces_ne_nil p cs)
  simp [Text.pieces, hw, hc]

theorem pieces_append {p : Char → Bool} {c : Char} (hc : p c = true) (xs ys : List Char) :
    Text.pieces p (xs ++ c :: ys) = Text.pieces p xs ++ Text.pieces p ys := by
  induction xs with
  | nil => exact pieces_cons_of hc ys
  | cons x xs ih =>
      obtain ⟨w, ws, hw⟩ := List.exists_cons_of_ne_nil (pieces_ne_nil p xs)
      rw [List.cons_append, Text.pieces, ih, Text.pieces, hw, List.cons_append]
      cases p x <;> rfl

/-- A last segment behind a path. -/
theorem segments_append {path seg : List Char} (hseg : '/' ∉ seg) :
    segments (path ++ '/' :: seg) = segments path ++ [seg] := by
  have hnone : ∀ c ∈ seg, decide (c = '/') = false :=
    fun c hc => decide_eq_false fun heq => hseg (heq ▸ hc)
  unfold segments
  rw [pieces_append (decide_eq_true rfl), Text.pieces_of_none hnone,
    List.tail_append_of_ne_nil (pieces_ne_nil _ path)]

theorem whole_segments (path : List Char) : Whole (segments path) := by
  intro seg hseg hslash
  have hnone := Text.none_of_mem_pieces (List.mem_of_mem_tail hseg) '/' hslash
  exact absurd rfl (of_decide_eq_false hnone)

/-- The segments of a path that has them. -/
theorem segments_join {segs : List (List Char)} (h : Whole segs) : segments (join segs) = segs := by
  induction segs with
  | nil => rfl
  | cons seg segs ih =>
      have hnone : ∀ c ∈ seg, decide (c = '/') = false :=
        fun c hc => decide_eq_false fun heq => h seg List.mem_cons_self (heq ▸ hc)
      have hrest := ih fun s hs => h s (List.mem_cons_of_mem _ hs)
      unfold segments join at hrest ⊢
      rw [List.flatMap_cons, List.cons_append, pieces_cons_of (decide_eq_true rfl), List.tail_cons]
      cases hsegs : segs with
      | nil => rw [List.flatMap_nil, List.append_nil, Text.pieces_of_none hnone]
      | cons s ss =>
          rw [hsegs, List.flatMap_cons, List.cons_append, pieces_cons_of (decide_eq_true rfl),
            List.tail_cons] at hrest
          rw [List.flatMap_cons, List.cons_append, pieces_append (decide_eq_true rfl),
            Text.pieces_of_none hnone, hrest]
          rfl

theorem join_inj {segs segs' : List (List Char)} (h : Whole segs) (h' : Whole segs')
    (heq : join segs = join segs') : segs = segs' := by
  rw [← segments_join h, heq, segments_join h']

theorem whole_enter {dir : List (List Char)} {seg : List Char} (h : Whole dir) (hseg : '/' ∉ seg) :
    Whole (enter dir seg) := by
  unfold enter
  split
  · exact h
  · split
    · exact fun s hs => h s (List.mem_of_mem_tail hs)
    · intro s hs
      rcases List.mem_cons.mp hs with rfl | hs
      · exact hseg
      · exact h s hs

theorem whole_enterAll {dir segs : List (List Char)} (h : Whole dir) (hsegs : Whole segs) :
    Whole (enterAll dir segs) := by
  induction segs generalizing dir with
  | nil => exact h
  | cons seg segs ih =>
      exact ih (whole_enter h (hsegs seg List.mem_cons_self)) fun s hs =>
        hsegs s (List.mem_cons_of_mem _ hs)

/-- What comes before the last segment is entered. -/
theorem dropDots_append (dir segs : List (List Char)) (seg : List Char) :
    dropDots dir (segs ++ [seg]) = dropDots (enterAll dir segs) [seg] := by
  induction segs generalizing dir with
  | nil => rfl
  | cons s segs ih =>
      have hcons : dropDots dir (s :: (segs ++ [seg])) = dropDots (enter dir s) (segs ++ [seg]) := by
        cases segs <;> rfl
      rw [List.cons_append, hcons, ih]
      rfl

/-- A resource is in the directory that the path before it names. -/
theorem normalize_append {path seg : List Char} (hseg : '/' ∉ seg)
    (hdot : ¬ IsDot seg) : normalize (path ++ '/' :: seg) = directory path ++ '/' :: seg := by
  unfold normalize directory
  rw [segments_append hseg, dropDots_append, dropDots, if_neg hdot, List.reverse_cons, join,
    List.flatMap_append]
  simp [join]

/-- A path that ends in a dot segment has no resource. -/
theorem normalize_dot {path seg : List Char} (hdot : IsDot seg) :
    ∃ segs, Whole segs ∧ normalize (path ++ '/' :: seg) = join (segs ++ [[]]) := by
  have hseg : '/' ∉ seg := by
    rcases hdot with rfl | rfl <;> decide
  refine ⟨(enter (enterAll [] (segments path)) seg).reverse, fun s hs => ?_, ?_⟩
  · refine whole_enter (whole_enterAll (fun s hs => ?_) (whole_segments path)) hseg s
      (List.mem_reverse.mp hs)
    cases hs
  · unfold normalize
    rw [segments_append hseg, dropDots_append, dropDots, if_pos hdot, List.reverse_cons]

end OufGateway.Lib.UrlPath
