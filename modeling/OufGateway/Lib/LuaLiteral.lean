import Mathlib
import OufGateway.Lib.JsonParse

/-!
# JSON text as a Lua literal

A program that writes Lua with `json.dumps` relies on the two languages reading
a quoted text alike. They do for the short escapes, and not for `\u`: Lua has no
such escape without braces and refuses the whole chunk. `literal` is Lua's
reading of a text in double quotes, on the escapes `json.dumps` has, and
`literal_quote` says which texts come back: those whose characters are all
`legible`.
-/

namespace OufGateway.Lib.LuaLiteral

/-- The character an escape stands for; `\u` stands for none. -/
def escape (c : Char) : Option Char :=
  if c = '"' then some '"' else if c = '\\' then some '\\'
  else if c = 'n' then some '\n' else if c = 'r' then some '\r' else if c = 't' then some '\t'
  else if c = 'f' then some (Char.ofNat 12) else if c = 'b' then some (Char.ofNat 8)
  else none

/-- What stands between the opening quote and the closing one. -/
def inside : List Char → Option (List Char)
  | [] => none
  | c :: cs =>
    if c = '"' then if cs = [] then some [] else none
    else if c = '\\' then
      match cs with
      | [] => none
      | e :: rest => (escape e).bind fun d => (inside rest).map (d :: ·)
    else if c = '\n' then none else (inside cs).map (c :: ·)

def literal (s : String) : Option String :=
  match s.toList with
  | [] => none
  | c :: cs => if c = '"' then (inside cs).map String.ofList else none

/-- A character `json.dumps` writes without `\u`. -/
def legible (c : Char) : Bool :=
  ['"', '\\', '\n', '\r', '\t'].contains c || c.toNat = 12 || c.toNat = 8 ||
    (32 ≤ c.toNat && c.toNat ≤ 126)

variable {c : Char} {rest : List Char}

theorem inside_escape (e : Char) (rest : List Char) :
    inside ('\\' :: e :: rest) = (escape e).bind fun d => (inside rest).map (d :: ·) := by
  rw [inside.eq_def]
  rfl

theorem inside_plain (hquote : c ≠ '"') (hslash : c ≠ '\\') (hline : c ≠ '\n') :
    inside (c :: rest) = (inside rest).map (c :: ·) := by
  rw [inside.eq_def]
  simp only [hquote, hslash, hline, if_false]

theorem inside_hexEscape (n : Nat) (rest : List Char) :
    inside ((Json.hexEscape n).toList ++ rest) = none := by
  rw [Json.toList_hexEscape]
  exact inside_escape 'u' _

/-- A character `json.dumps` has written is read back, or stops the reading. -/
theorem inside_escapeChar (c : Char) (rest : List Char) :
    inside ((Json.escapeChar true c).toList ++ rest) =
      if legible c then (inside rest).map (c :: ·) else none := by
  unfold Json.escapeChar
  split
  · next h => subst h; exact inside_escape '"' rest
  · next hquote =>
    split
    · next h => subst h; exact inside_escape '\\' rest
    · next hslash =>
      split
      · next h => subst h; exact inside_escape 'n' rest
      · next hline =>
        split
        · next h => subst h; exact inside_escape 'r' rest
        · next hreturn =>
          split
          · next h => subst h; exact inside_escape 't' rest
          · next htab =>
            split
            · next h =>
              have hc : Char.ofNat 12 = c := h ▸ Char.ofNat_toNat c
              subst hc
              exact inside_escape 'f' rest
            · next hfeed =>
              split
              · next h =>
                have hc : Char.ofNat 8 = c := h ▸ Char.ofNat_toNat c
                subst hc
                exact inside_escape 'b' rest
              · next hback =>
                -- No short escape is left: `legible` is the printable range.
                have hlegible : legible c = (decide (32 ≤ c.toNat) && decide (c.toNat ≤ 126)) := by
                  simp [legible, hquote, hslash, hline, hreturn, htab, hfeed, hback]
                rw [hlegible]
                split
                · next hlow =>
                  rw [inside_hexEscape, if_neg (by simp; omega)]
                · next hlow =>
                  split
                  · next hhigh =>
                    have hout : ¬ (decide (32 ≤ c.toNat) && decide (c.toNat ≤ 126)) = true := by
                      simp
                      omega
                    rw [if_neg hout]
                    split
                    · exact inside_hexEscape _ rest
                    · rw [String.toList_append, List.append_assoc]
                      exact inside_hexEscape _ _
                  · next hhigh =>
                    have hin : (decide (32 ≤ c.toNat) && decide (c.toNat ≤ 126)) = true := by
                      simp only [true_and, not_lt] at hhigh
                      simp
                      omega
                    rw [if_pos hin, String.toList_singleton, List.singleton_append,
                      inside_plain hquote hslash hline]

theorem inside_escaped (cs : List Char) :
    inside (Json.escaped true cs ++ ['"']) = if cs.all legible then some cs else none := by
  induction cs with
  | nil => rfl
  | cons c cs ih =>
      rw [Json.escaped_cons, List.append_assoc, inside_escapeChar, ih, List.all_cons]
      by_cases hc : legible c <;> by_cases hcs : cs.all legible <;> simp [hc, hcs]

/-- Lua reads back exactly the texts `json.dumps` writes without `\u`. -/
theorem literal_quote (s : String) :
    literal (Json.quote true s) = if s.toList.all legible then some s else none := by
  rw [literal, Json.toList_quote]
  change (inside (Json.escaped true s.toList ++ ['"'])).map String.ofList = _
  rw [inside_escaped]
  split
  · rw [Option.map_some, String.ofList_toList]
  · rfl

/-- A list of literals loads whole, or the chunk they stand in does not. -/
theorem mapM_literal (l : List String) :
    (l.map (Json.quote true)).mapM literal =
      if l.all fun s => s.toList.all legible then some l else none := by
  induction l with
  | nil => rfl
  | cons s l ih =>
      rw [List.map_cons, List.mapM_cons, literal_quote, ih, List.all_cons]
      by_cases hs : s.toList.all legible
      · by_cases hl : l.all fun s => s.toList.all legible
        · rw [if_pos hs, if_pos hl, hs, hl]
          rfl
        · rw [if_pos hs, if_neg hl, if_neg (by simp [hs, hl])]
          rfl
      · have hnone : ¬ (s.toList.all legible && l.all fun s => s.toList.all legible) = true :=
          fun h => hs (Bool.and_eq_true_iff.mp h).1
        rw [if_neg hs, if_neg hnone]
        rfl

end OufGateway.Lib.LuaLiteral
