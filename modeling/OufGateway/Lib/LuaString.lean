import OufGateway.Lib.Lua
import OufGateway.Lib.PyJsonReread

/-!
# The string literals of LuaJIT

The lexer of a literal in double quotes, with all its escapes, and what it makes of a
text that `json.dumps` has put in quotes. The two languages share the short escapes.
`\u` is followed by four digits in the one and by a brace in the other, so the lexer
stops the chunk there: a text comes back if `json.dumps` writes it without `\u`
(`lexString_quote`), and no text ends its literal early or comes back as another
one.
-/

namespace OufGateway.Lib.LuaString

open Lua (Bytes isSpace)
open Encoding (Points encode)

/-! ## The lexer -/

def digit? (b : UInt8) : Option Nat := if 48 ≤ b ∧ b ≤ 57 then some (b.toNat - 48) else none

def hexDigit? (b : UInt8) : Option Nat :=
  if 48 ≤ b ∧ b ≤ 57 then some (b.toNat - 48)
  else if 65 ≤ b ∧ b ≤ 70 then some (b.toNat - 55)
  else if 97 ≤ b ∧ b ≤ 102 then some (b.toNat - 87)
  else none

def utf8Point (p : Nat) : Bytes :=
  if p < 128 then encode [p]
  else if p < 2048 then encode [192 + p / 64, 128 + p % 64]
  else if p < 65536 then encode [224 + p / 4096, 128 + p / 64 % 64, 128 + p % 64]
  else encode [240 + p / 262144, 128 + p / 4096 % 64, 128 + p / 64 % 64, 128 + p % 64]

def isSurrogate (p : Nat) : Bool := 55296 ≤ p && p < 57344

/-- `s.encode()`. -/
def utf8 (s : Points) : Option Bytes :=
  if s.any fun p => isSurrogate p || 1114112 ≤ p then none else some (s.flatMap utf8Point)

/-- The digits of `\u{XXX}` up to the brace, after digits that make `p`. -/
def readBraced : Nat → Bytes → Option (Nat × Bytes)
  | _, [] => none
  | p, b :: rest => do
    let d ← hexDigit? b
    if 1114112 ≤ p * 16 + d then none
    else if rest.head? = some 125 then some (p * 16 + d, rest.tail)
    else readBraced (p * 16 + d) rest

/-- `\xXX`. -/
def readHex : Bytes → Option (Bytes × Bytes)
  | a :: b :: rest => do
    let high ← hexDigit? a
    let low ← hexDigit? b
    some (encode [high * 16 + low], rest)
  | _ => none

/-- `\u{XXX}`. -/
def readUnicode : Bytes → Option (Bytes × Bytes)
  | 123 :: rest => do
    let (p, rest) ← readBraced 0 rest
    if isSurrogate p then none else some (utf8Point p, rest)
  | _ => none

/-- `\ddd`, of up to three digits. -/
def readDecimal (b : UInt8) (rest : Bytes) : Option (Bytes × Bytes) := do
  let d ← digit? b
  match rest.head?.bind digit? with
  | none => some (encode [d], rest)
  | some e =>
    match rest.tail.head?.bind digit? with
    | none => some (encode [d * 10 + e], rest.tail)
    | some f => if 255 < (d * 10 + e) * 10 + f then none else some (encode [(d * 10 + e) * 10 + f], rest.tail.tail)

/-- A line break of two characters is skipped whole. -/
def skipBreak (b : UInt8) (rest : Bytes) : Bytes :=
  if (rest.head? = some 10 ∨ rest.head? = some 13) ∧ rest.head? ≠ some b then rest.tail else rest

/-- What follows a backslash: the bytes it stands for. -/
def readEscape : Bytes → Option (Bytes × Bytes)
  | [] => none
  | b :: rest =>
    if b = 97 then some ([7], rest) else if b = 98 then some ([8], rest)
    else if b = 102 then some ([12], rest) else if b = 110 then some ([10], rest)
    else if b = 114 then some ([13], rest) else if b = 116 then some ([9], rest)
    else if b = 118 then some ([11], rest)
    else if b = 120 then readHex rest
    else if b = 117 then readUnicode rest
    else if b = 122 then some ([], rest.dropWhile isSpace)
    else if b = 10 ∨ b = 13 then some ([10], skipBreak b rest)
    else if b = 92 ∨ b = 34 ∨ b = 39 then some ([b], rest)
    else readDecimal b rest

/-- Up to the closing quote. Every turn takes a byte at least. -/
def lexBody : Nat → Bytes → Option (Bytes × Bytes)
  | 0, _ => none
  | _ + 1, [] => none
  | n + 1, b :: rest =>
    if b = 34 then some ([], rest)
    else if b = 10 ∨ b = 13 then none
    else if b = 92 then do
      let (c, rest) ← readEscape rest
      let (s, rest) ← lexBody n rest
      some (c ++ s, rest)
    else do
      let (s, rest) ← lexBody n rest
      some (b :: s, rest)

/-- A literal and what is behind it. -/
def lexString : Bytes → Option (Bytes × Bytes)
  | 34 :: rest => lexBody (rest.length + 1) rest
  | _ => none

/-! ## What `json.dumps` writes -/

/-- A code point that `json.dumps` writes without `\u`. -/
def legible (p : Nat) : Bool :=
  p = 34 || p = 92 || p = 10 || p = 13 || p = 9 || p = 12 || p = 8 || (32 ≤ p && p ≤ 126)

theorem utf8Point_legible {p : Nat} (h : legible p = true) : utf8Point p = [UInt8.ofNat p] := by
  have hp : p < 128 := by
    simp [legible] at h
    omega
  rw [utf8Point, if_pos hp]
  rfl

theorem utf8_legible {s : Points} (h : s.all legible = true) : utf8 s = some (encode s) := by
  have hplain : ∀ p ∈ s, legible p = true := List.all_eq_true.mp h
  have hnone : ¬ (s.any fun p => isSurrogate p || 1114112 ≤ p) = true := by
    intro hany
    obtain ⟨p, hp, hbad⟩ := List.any_eq_true.mp hany
    have hlegible := hplain p hp
    simp [legible] at hlegible
    simp [isSurrogate] at hbad
    omega
  have hbytes : ∀ t : Points, (∀ p ∈ t, legible p = true) → t.flatMap utf8Point = encode t := by
    intro t ht
    induction t with
    | nil => rfl
    | cons p t ih =>
        rw [List.flatMap_cons, utf8Point_legible (ht p List.mem_cons_self),
          ih fun q hq => ht q (List.mem_cons_of_mem _ hq)]
        rfl
  rw [utf8, if_neg hnone, hbytes s hplain]

theorem lexBody_escaped {b c : UInt8} (n : Nat) (rest : Bytes)
    (h : ∀ rest, readEscape (b :: rest) = some ([c], rest)) :
    lexBody (n + 1) (92 :: b :: rest) = (lexBody n rest).map fun r => (c :: r.1, r.2) := by
  rw [lexBody, if_neg (by decide), if_neg (by decide), if_pos rfl, h]
  simp only [Option.bind_eq_bind, Option.bind_some]
  cases lexBody n rest <;> rfl

theorem lexBody_plain {b : UInt8} (n : Nat) (rest : Bytes) (hquote : b ≠ 34) (hline : b ≠ 10) (hreturn : b ≠ 13)
    (hslash : b ≠ 92) : lexBody (n + 1) (b :: rest) = (lexBody n rest).map fun r => (b :: r.1, r.2) := by
  rw [lexBody, if_neg hquote, if_neg (by simp [hline, hreturn]), if_neg hslash]
  cases lexBody n rest <;> rfl

theorem lexBody_hexEscape (n p : Nat) (rest : Bytes) :
    lexBody (n + 1) (encode (PyJson.points (Json.hexEscape p)) ++ rest) = none := by
  obtain ⟨d, ds, hd, hne⟩ : ∃ d ds, encode (PyJson.points (Json.hexEscape p)) = 92 :: 117 :: d :: ds ∧ d ≠ 123 := by
    refine ⟨_, _, congrArg encode (PyJson.points_hexEscape p), ?_⟩
    have hdigit : ∀ k < 16, UInt8.ofNat (Json.hexDigit k).toNat ≠ 123 := by decide
    exact hdigit _ (Nat.mod_lt _ (by decide))
  rw [hd]
  have hescape : readEscape (117 :: d :: (ds ++ rest)) = none := by
    simp [readEscape, readUnicode, hne]
  rw [List.cons_append, List.cons_append, List.cons_append, lexBody, if_neg (by decide), if_neg (by decide),
    if_pos rfl, hescape]
  rfl

/-- A code point that `json.dumps` has written is read back, or stops the lexer. -/
theorem lexBody_escape (n p : Nat) (rest : Bytes) :
    lexBody (n + 1) (encode (PyJson.escape p) ++ rest) =
      if legible p then (lexBody n rest).map fun r => (UInt8.ofNat p :: r.1, r.2) else none := by
  unfold PyJson.escape
  split
  · next h => subst h; exact lexBody_escaped n rest fun _ => rfl
  · next hquote =>
    split
    · next h => subst h; exact lexBody_escaped n rest fun _ => rfl
    · next hslash =>
      split
      · next h => subst h; exact lexBody_escaped n rest fun _ => rfl
      · next hline =>
        split
        · next h => subst h; exact lexBody_escaped n rest fun _ => rfl
        · next hreturn =>
          split
          · next h => subst h; exact lexBody_escaped n rest fun _ => rfl
          · next htab =>
            split
            · next h => subst h; exact lexBody_escaped n rest fun _ => rfl
            · next hfeed =>
              split
              · next h => subst h; exact lexBody_escaped n rest fun _ => rfl
              · next hback =>
                -- No short escape is left.
                have hquote : p ≠ 34 := hquote
                have hslash : p ≠ 92 := hslash
                have hlegible : legible p = (decide (32 ≤ p) && decide (p ≤ 126)) := by
                  simp [legible, hquote, hslash, hline, hreturn, htab, hfeed, hback]
                rw [hlegible]
                split
                · next hin =>
                  have hne : ∀ k < 128, p ≠ k → UInt8.ofNat p ≠ UInt8.ofNat k := by
                    intro k hk hpk heq
                    have hmod := congrArg UInt8.toNat heq
                    rw [UInt8.toNat_ofNat', UInt8.toNat_ofNat'] at hmod
                    omega
                  rw [if_pos (by simpa using hin)]
                  exact lexBody_plain n rest (hne 34 (by decide) hquote) (hne 10 (by decide) hline)
                    (hne 13 (by decide) hreturn) (hne 92 (by decide) hslash)
                · next hout =>
                  have hout : (decide (32 ≤ p) && decide (p ≤ 126)) = false := by simpa using hout
                  rw [hout, if_neg Bool.false_ne_true]
                  split
                  · exact lexBody_hexEscape n p rest
                  · rw [encode, List.map_append, List.append_assoc]
                    exact lexBody_hexEscape n _ _

theorem lexBody_quoted {n : Nat} (s : Points) (rest : Bytes) (hn : s.length < n) :
    lexBody n (encode (s.flatMap PyJson.escape) ++ 34 :: rest) =
      if s.all legible then some (encode s, rest) else none := by
  induction s generalizing n with
  | nil =>
      obtain ⟨m, rfl⟩ : ∃ m, n = m + 1 := ⟨n - 1, by omega⟩
      rfl
  | cons p s ih =>
      obtain ⟨m, rfl⟩ : ∃ m, n = m + 1 := ⟨n - 1, by omega⟩
      rw [List.flatMap_cons, encode, List.map_append, List.append_assoc]
      have hstep := lexBody_escape m p (encode (s.flatMap PyJson.escape) ++ 34 :: rest)
      rw [encode, ih (by simpa using hn)] at hstep
      rw [show List.map UInt8.ofNat (s.flatMap PyJson.escape) = encode (s.flatMap PyJson.escape) from rfl, hstep,
        List.all_cons]
      by_cases hp : legible p <;> by_cases hs : s.all legible <;> simp [hp, hs, encode]

/-- The lexer gives a quoted text back, and leaves what is behind it, or refuses it. -/
theorem lexString_quote (s : Points) (rest : Bytes) :
    lexString (encode (PyJson.quote s) ++ rest) = if s.all legible then some (encode s, rest) else none := by
  have hquote : encode (PyJson.quote s) ++ rest = 34 :: (encode (s.flatMap PyJson.escape) ++ 34 :: rest) := by
    simp [PyJson.quote, encode]
  have hlength : ∀ t : Points, t.length ≤ (encode (t.flatMap PyJson.escape)).length := by
    intro t
    induction t with
    | nil => exact Nat.le_refl 0
    | cons p t ih =>
        have hp := PyJson.length_escape p
        simp only [encode, List.length_map, List.flatMap_cons, List.length_append, List.length_cons] at ih ⊢
        omega
  rw [hquote, lexString]
  refine lexBody_quoted s rest ?_
  have hs := hlength s
  simp only [List.length_append, List.length_cons]
  omega

end OufGateway.Lib.LuaString
