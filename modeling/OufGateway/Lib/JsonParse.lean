import Mathlib
import OufGateway.Lib.Json

/-!
# Reading JSON text back

`loads` reads the text of one JSON value, with blanks between the tokens, every
escape of a string, and surrogate pairs. Numbers are integers: a fraction, an
exponent or a leading zero is refused, as are a lone surrogate and a control
character inside a string. The result of the module is the round trip: the text
`dumps` gives for a value without floats and repeated keys is read back as that
value, whatever its two separators add in blanks and whether or not it escapes
what is not ASCII.

Each reader takes a bound on its depth, and the length of the text is enough of
it. The proofs follow the readers from the inside out, one character, one string,
one number and then values, always with an arbitrary rest behind the text.
-/

namespace OufGateway.Lib.Json

/-! ## Tokens -/

def blank (c : Char) : Bool := c = ' ' || c = '\t' || c = '\n' || c = '\r'

def skip (cs : List Char) : List Char := cs.dropWhile blank

def hexValue? (c : Char) : Option Nat :=
  if '0' ≤ c ∧ c ≤ '9' then some (c.toNat - 48)
  else if 'a' ≤ c ∧ c ≤ 'f' then some (c.toNat - 87)
  else if 'A' ≤ c ∧ c ≤ 'F' then some (c.toNat - 55)
  else none

/-- The four digits of `\uXXXX`. -/
def readHex : List Char → Option (Nat × List Char)
  | a :: b :: c :: d :: rest => do
    let a ← hexValue? a
    let b ← hexValue? b
    let c ← hexValue? c
    let d ← hexValue? d
    some (((a * 16 + b) * 16 + c) * 16 + d, rest)
  | _ => none

def isHigh (n : Nat) : Bool := 55296 ≤ n && n < 56320

def isLow (n : Nat) : Bool := 56320 ≤ n && n < 57344

/-- The character of a surrogate pair. -/
def combine (high low : Nat) : Char :=
  Char.ofNat (65536 + (high - 55296) * 1024 + (low - 56320))

/-- The second half of a surrogate pair. -/
def readLow (high : Nat) : List Char → Option (Char × List Char)
  | '\\' :: 'u' :: rest => do
    let (low, rest) ← readHex rest
    if isLow low then some (combine high low, rest) else none
  | _ => none

def unescape? (c : Char) : Option Char :=
  if c = '"' ∨ c = '\\' ∨ c = '/' then some c
  else if c = 'n' then some '\n'
  else if c = 'r' then some '\r'
  else if c = 't' then some '\t'
  else if c = 'f' then some (Char.ofNat 12)
  else if c = 'b' then some (Char.ofNat 8)
  else none

/-- What follows a backslash. -/
def readEscape : List Char → Option (Char × List Char)
  | [] => none
  | c :: rest =>
    if c = 'u' then do
      let (n, rest) ← readHex rest
      if isHigh n then readLow n rest
      else if isLow n then none
      else some (Char.ofNat n, rest)
    else (unescape? c).map fun c => (c, rest)

/-- One character of a string. -/
def readChar : List Char → Option (Char × List Char)
  | [] => none
  | c :: rest =>
    if c = '\\' then readEscape rest
    else if c.toNat < 32 then none
    else some (c, rest)

/-- A string up to its closing quote. -/
def readString : Nat → List Char → Option (List Char × List Char)
  | 0, _ => none
  | n + 1, cs =>
    if cs.head? = some '"' then some ([], cs.tail)
    else do
      let (c, rest) ← readChar cs
      let (s, rest) ← readString n rest
      some (c :: s, rest)

/-- The characters a number can go on with. -/
def numeral (c : Char) : Bool :=
  c.isDigit || c = '-' || c = '+' || c = '.' || c = 'e' || c = 'E'

/-- The integer a run of digits spells, with its sign. -/
def integer (text : List Char) : Int :=
  if text.head? = some '-' then -(Nat.ofDigitChars 10 text.tail 0 : Int)
  else Nat.ofDigitChars 10 text 0

/-- The text has to be the one the integer has, which rules out leading zeros. -/
def readNumber (cs : List Char) : Option (Json × List Char) :=
  let text := cs.takeWhile numeral
  let n := integer text
  if (toString n).toList = text ∨ text = ['-', '0'] then some (int n, cs.dropWhile numeral)
  else none

def readWord (word : List Char) (value : Json) (cs : List Char) : Option (Json × List Char) :=
  if word <+: cs then some (value, cs.drop word.length) else none

/-! ## Values -/

/-- A dictionary keeps the place of a repeated key and takes its last value. -/
def ofPairs (pairs : List (String × Json)) : Json :=
  pairs.foldl (fun value m => value.setItem m.1 m.2) (obj [])

mutual

def readValue : Nat → List Char → Option (Json × List Char)
  | 0, _ => none
  | n + 1, cs =>
    match skip cs with
    | [] => none
    | c :: rest =>
      if c = '"' then do
        let (s, rest) ← readString (rest.length + 1) rest
        some (str (String.ofList s), rest)
      else if c = '[' then
        if (skip rest).head? = some ']' then some (arr [], (skip rest).tail)
        else do
          let (items, rest) ← readItems n rest
          some (arr items, rest)
      else if c = '\x7b' then
        if (skip rest).head? = some '\x7d' then some (obj [], (skip rest).tail)
        else do
          let (pairs, rest) ← readPairs n rest
          some (ofPairs pairs, rest)
      else if c = 'n' then readWord ['n', 'u', 'l', 'l'] null (c :: rest)
      else if c = 't' then readWord ['t', 'r', 'u', 'e'] (bool true) (c :: rest)
      else if c = 'f' then readWord ['f', 'a', 'l', 's', 'e'] (bool false) (c :: rest)
      else readNumber (c :: rest)

/-- The items of an array up to its closing bracket. -/
def readItems : Nat → List Char → Option (List Json × List Char)
  | 0, _ => none
  | n + 1, cs => do
    let (x, rest) ← readValue n cs
    match skip rest with
    | [] => none
    | c :: rest =>
      if c = ']' then some ([x], rest)
      else if c = ',' then do
        let (xs, rest) ← readItems n rest
        some (x :: xs, rest)
      else none

/-- The members of an object up to its closing brace. -/
def readPairs : Nat → List Char → Option (List (String × Json) × List Char)
  | 0, _ => none
  | n + 1, cs =>
    if (skip cs).head? = some '"' then do
      let (key, rest) ← readString (skip cs).length (skip cs).tail
      if (skip rest).head? = some ':' then do
        let (x, rest) ← readValue n (skip rest).tail
        match skip rest with
        | [] => none
        | c :: rest =>
          if c = '\x7d' then some ([(String.ofList key, x)], rest)
          else if c = ',' then do
            let (xs, rest) ← readPairs n rest
            some ((String.ofList key, x) :: xs, rest)
          else none
      else none
    else none

end

/-- `json.loads`, of a text whose numbers are integers. -/
def loads (text : String) : Option Json := do
  let (value, rest) ← readValue (text.length + 1) text.toList
  if skip rest = [] then some value else none

/-! ## One character -/

theorem hexValue?_hexDigit : ∀ n, n < 16 → hexValue? (hexDigit n) = some n := by decide

theorem readHex_digits {n : Nat} (h : n < 65536) (rest : List Char) :
    readHex (hexDigit (n / 4096 % 16) :: hexDigit (n / 256 % 16) ::
      hexDigit (n / 16 % 16) :: hexDigit (n % 16) :: rest) = some (n, rest) := by
  have hn : ((n / 4096 % 16 * 16 + n / 256 % 16) * 16 + n / 16 % 16) * 16 + n % 16 = n := by
    omega
  simp only [readHex]
  rw [hexValue?_hexDigit _ (Nat.mod_lt _ (by omega)), hexValue?_hexDigit _ (Nat.mod_lt _ (by omega)),
    hexValue?_hexDigit _ (Nat.mod_lt _ (by omega)), hexValue?_hexDigit _ (Nat.mod_lt _ (by omega))]
  simp only [Option.bind_eq_bind, Option.bind_some, hn]

theorem toList_hexEscape (n : Nat) :
    (hexEscape n).toList = ['\\', 'u', hexDigit (n / 4096 % 16), hexDigit (n / 256 % 16),
      hexDigit (n / 16 % 16), hexDigit (n % 16)] :=
  String.toList_ofList

/-- A character below the surrogates or between them and the end of the plane. -/
theorem not_surrogate (c : Char) : isHigh c.toNat = false ∧ isLow c.toNat = false := by
  have h := c.valid
  simp only [UInt32.isValidChar, Nat.isValidChar] at h
  have hn : c.val.toNat = c.toNat := rfl
  simp only [isHigh, isLow, Bool.and_eq_false_iff, decide_eq_false_iff_not]
  omega

theorem toNat_lt (c : Char) : c.toNat < 1114112 := by
  have h := c.valid
  simp only [UInt32.isValidChar, Nat.isValidChar] at h
  have hn : c.val.toNat = c.toNat := rfl
  omega

theorem readChar_hexEscape {c : Char} (h : c.toNat < 65536) (rest : List Char) :
    readChar ((hexEscape c.toNat).toList ++ rest) = some (c, rest) := by
  obtain ⟨hhigh, hlow⟩ := not_surrogate c
  rw [toList_hexEscape]
  simp only [List.cons_append, List.nil_append, readChar, readEscape, if_true]
  rw [readHex_digits h]
  simp only [Option.bind_eq_bind, Option.bind_some, hhigh, hlow, Bool.false_eq_true, if_false,
    Char.ofNat_toNat]

theorem combine_halves {c : Char} (h : 65536 ≤ c.toNat) :
    combine (55296 + (c.toNat - 65536) / 1024) (56320 + (c.toNat - 65536) % 1024) = c := by
  have hval : 65536 + (55296 + (c.toNat - 65536) / 1024 - 55296) * 1024 +
      (56320 + (c.toNat - 65536) % 1024 - 56320) = c.toNat := by omega
  unfold combine
  rw [hval, Char.ofNat_toNat]

theorem readChar_pair {high low : Nat} (hhigh : isHigh high = true) (hlow : isLow low = true)
    (rest : List Char) :
    readChar ((hexEscape high).toList ++ ((hexEscape low).toList ++ rest)) =
      some (combine high low, rest) := by
  have hhlt : high < 65536 := by
    simp only [isHigh, Bool.and_eq_true, decide_eq_true_eq] at hhigh
    omega
  have hllt : low < 65536 := by
    simp only [isLow, Bool.and_eq_true, decide_eq_true_eq] at hlow
    omega
  rw [toList_hexEscape, toList_hexEscape]
  simp only [List.cons_append, List.nil_append, readChar, readEscape, if_true]
  rw [readHex_digits hhlt]
  simp only [Option.bind_eq_bind, Option.bind_some, hhigh, if_true, readLow]
  rw [readHex_digits hllt]
  simp only [Option.bind_some, hlow, if_true]

theorem readChar_surrogates {c : Char} (h : 65536 ≤ c.toNat) (rest : List Char) :
    readChar ((hexEscape (55296 + (c.toNat - 65536) / 1024)).toList ++
      ((hexEscape (56320 + (c.toNat - 65536) % 1024)).toList ++ rest)) = some (c, rest) := by
  have hlt := toNat_lt c
  rw [readChar_pair, combine_halves h]
  · simp only [isHigh, Bool.and_eq_true, decide_eq_true_eq]
    omega
  · simp only [isLow, Bool.and_eq_true, decide_eq_true_eq]
    omega

/-- An escaped character is not the end of its string, and reads back. -/
theorem readChar_escapeChar (b : Bool) (c : Char) (rest : List Char) :
    (((escapeChar b c).toList ++ rest).head? ≠ some '"') ∧
      readChar ((escapeChar b c).toList ++ rest) = some (c, rest) := by
  unfold escapeChar
  split
  · next h => subst h; exact ⟨by simp, rfl⟩
  · next hq =>
    split
    · next h => subst h; exact ⟨by simp, rfl⟩
    · next hb =>
      split
      · next h => subst h; exact ⟨by simp, rfl⟩
      · split
        · next h => subst h; exact ⟨by simp, rfl⟩
        · split
          · next h => subst h; exact ⟨by simp, rfl⟩
          · split
            · next h =>
              have hc : Char.ofNat 12 = c := h ▸ Char.ofNat_toNat c
              subst hc
              exact ⟨by simp, rfl⟩
            · split
              · next h =>
                have hc : Char.ofNat 8 = c := h ▸ Char.ofNat_toNat c
                subst hc
                exact ⟨by simp, rfl⟩
              · split
                · next h =>
                  exact ⟨by simp [toList_hexEscape], readChar_hexEscape (by omega) rest⟩
                · next hctl =>
                  split
                  · split
                    · next h =>
                      exact ⟨by simp [toList_hexEscape], readChar_hexEscape h rest⟩
                    · next h =>
                      rw [String.toList_append, List.append_assoc]
                      exact ⟨by simp [toList_hexEscape], readChar_surrogates (by omega) rest⟩
                  · refine ⟨by simpa using hq, ?_⟩
                    simp only [String.toList_singleton, List.cons_append, List.nil_append,
                      readChar, if_neg hb, if_neg hctl]

/-! ## Strings -/

/-- The characters of a string as they are written. -/
def escaped (b : Bool) (cs : List Char) : List Char := cs.flatMap fun c => (escapeChar b c).toList

theorem escaped_cons (b : Bool) (c : Char) (cs : List Char) :
    escaped b (c :: cs) = (escapeChar b c).toList ++ escaped b cs :=
  List.flatMap_cons

theorem toList_quote (b : Bool) (s : String) :
    (quote b s).toList = '"' :: (escaped b s.toList ++ ['"']) := by
  simp [quote, escaped, List.flatMap_map]

theorem readString_escaped (b : Bool) (cs : List Char) :
    ∀ n rest, (escaped b cs).length < n →
      readString n (escaped b cs ++ '"' :: rest) = some (cs, rest) := by
  induction cs with
  | nil =>
      intro n rest h
      obtain ⟨n, rfl⟩ : ∃ m, n = m + 1 := ⟨n - 1, by omega⟩
      rfl
  | cons c cs ih =>
      intro n rest h
      obtain ⟨n, rfl⟩ : ∃ m, n = m + 1 := ⟨n - 1, by omega⟩
      obtain ⟨hhead, hread⟩ := readChar_escapeChar b c (escaped b cs ++ '"' :: rest)
      have hpos : 0 < (escapeChar b c).toList.length := by
        by_contra hzero
        have hnil : (escapeChar b c).toList = [] :=
          List.eq_nil_of_length_eq_zero (by omega)
        have hc := (readChar_escapeChar b c []).2
        rw [hnil] at hc
        cases hc
      rw [escaped_cons, List.length_append] at h
      rw [escaped_cons, List.append_assoc]
      unfold readString
      rw [if_neg hhead, hread]
      simp only [Option.bind_eq_bind, Option.bind_some]
      rw [ih n rest (by omega)]
      rfl

/-! ## Numbers and words -/

/-- What stands behind a value does not go on with a number. -/
def Stops (rest : List Char) : Prop := ∀ c ∈ rest.head?, numeral c = false

theorem numeral_of_mem_toString {n : Int} {c : Char} (h : c ∈ (toString n).toList) :
    numeral c = true := by
  have hdigit : ∀ m : Nat, c ∈ m.repr.toList → numeral c = true := by
    intro m hm
    rw [Nat.toList_repr] at hm
    have hc := Nat.isDigit_of_mem_toDigits (by omega) (by omega) hm
    simp [numeral, hc]
  rw [Int.toString_eq_repr] at h
  cases n with
  | ofNat m => exact hdigit m h
  | negSucc m =>
      have hrepr : (Int.negSucc m).repr = "-" ++ (m + 1).repr := rfl
      rw [hrepr, String.toList_append, List.mem_append] at h
      rcases h with h | h
      · rw [List.mem_singleton.mp h]
        rfl
      · exact hdigit _ h

theorem integer_toString (n : Int) : integer (toString n).toList = n := by
  rw [Int.toString_eq_repr]
  cases n with
  | ofNat m =>
      show integer (Nat.repr m).toList = m
      rw [Nat.toList_repr, integer, if_neg, Nat.ofDigitChars_ten_toDigits]
      intro h
      have hmem := List.mem_of_head? h
      have hdigit := Nat.isDigit_of_mem_toDigits (by omega) (by omega) hmem
      exact absurd hdigit (by decide)
  | negSucc m =>
      show integer ("-" ++ (m + 1).repr).toList = Int.negSucc m
      rw [String.toList_append, Nat.toList_repr]
      show -(Nat.ofDigitChars 10 (Nat.toDigits 10 (m + 1)) 0 : Int) = _
      rw [Nat.ofDigitChars_ten_toDigits, Int.negSucc_eq]
      rfl

theorem toString_ne_nil (n : Int) : (toString n).toList ≠ [] := by
  rw [Int.toString_eq_repr]
  cases n with
  | ofNat m =>
      show (Nat.repr m).toList ≠ []
      rw [Nat.toList_repr]
      exact Nat.toDigits_ne_nil
  | negSucc m =>
      show ("-" ++ (m + 1).repr).toList ≠ []
      simp

theorem readNumber_int (n : Int) {rest : List Char} (h : Stops rest) :
    readNumber ((toString n).toList ++ rest) = some (int n, rest) := by
  have hall : ∀ c ∈ (toString n).toList, numeral c = true := fun c => numeral_of_mem_toString
  have htake : rest.takeWhile numeral = [] := by
    cases rest with
    | nil => rfl
    | cons c rest => rw [List.takeWhile_cons_of_neg (by simp [h c rfl])]
  have hdrop : rest.dropWhile numeral = rest := by
    cases rest with
    | nil => rfl
    | cons c rest => rw [List.dropWhile_cons_of_neg (by simp [h c rfl])]
  unfold readNumber
  simp only [List.takeWhile_append_of_pos hall, List.dropWhile_append_of_pos hall, htake, hdrop,
    List.append_nil, integer_toString, true_or, if_true]

theorem readWord_append (word : List Char) (value : Json) (rest : List Char) :
    readWord word value (word ++ rest) = some (value, rest) := by
  unfold readWord
  rw [if_pos (List.prefix_append _ _), List.drop_left]

/-! ## Values -/

mutual

/-- A value whose text determines it: no floats, no other objects, no repeated keys. -/
def plain : Json → Bool
  | float _ _ => false
  | object _ => false
  | arr items => plainList items
  | obj members => decide (members.map (·.1)).Nodup && plainMembers members
  | _ => true

def plainList : List Json → Bool
  | [] => true
  | x :: xs => plain x && plainList xs

def plainMembers : List (String × Json) → Bool
  | [] => true
  | (_, x) :: xs => plain x && plainMembers xs

end

/-- A format that adds nothing but blanks to the separators and keeps the order. -/
structure Format.Plain (f : Format) : Prop where
  unsorted : f.sortKeys = false
  item : ∃ ws, f.itemSeparator.toList = ',' :: ws ∧ ∀ c ∈ ws, blank c = true
  key : ∃ ws, f.keySeparator.toList = ':' :: ws ∧ ∀ c ∈ ws, blank c = true

theorem skip_blanks {ws : List Char} (h : ∀ c ∈ ws, blank c = true) (cs : List Char) :
    skip (ws ++ cs) = skip cs :=
  List.dropWhile_append_of_pos h

theorem skip_cons {c : Char} (h : blank c = false) (cs : List Char) : skip (c :: cs) = c :: cs :=
  List.dropWhile_cons_of_neg (by simp [h])

theorem readValue_blanks {ws : List Char} (h : ∀ c ∈ ws, blank c = true) (n : Nat)
    (cs : List Char) : readValue n (ws ++ cs) = readValue n cs := by
  cases n with
  | zero => rfl
  | succ n => unfold readValue; rw [skip_blanks h]

theorem readItems_blanks {ws : List Char} (h : ∀ c ∈ ws, blank c = true) (n : Nat)
    (cs : List Char) : readItems n (ws ++ cs) = readItems n cs := by
  cases n with
  | zero => rfl
  | succ n => unfold readItems; rw [readValue_blanks h]

theorem readPairs_blanks {ws : List Char} (h : ∀ c ∈ ws, blank c = true) (n : Nat)
    (cs : List Char) : readPairs n (ws ++ cs) = readPairs n cs := by
  cases n with
  | zero => rfl
  | succ n => unfold readPairs; rw [skip_blanks h]

/-- The members of a dictionary without repeated keys come back as they are. -/
theorem ofPairs_of_nodup {members : List (String × Json)} (h : (members.map (·.1)).Nodup) :
    ofPairs members = obj members := by
  have hfold : ∀ (ms done : List (String × Json)), ((done ++ ms).map (·.1)).Nodup →
      ms.foldl (fun value m => value.setItem m.1 m.2) (obj done) = obj (done ++ ms) := by
    intro ms
    induction ms with
    | nil => intro done _; rw [List.append_nil]; rfl
    | cons m ms ih =>
        intro done hd
        have hnew : done.any (·.1 = m.1) = false := by
          rw [List.map_append, List.map_cons, List.nodup_append] at hd
          rw [List.any_eq_false]
          intro x hx hxm
          exact hd.2.2 x.1 (List.mem_map_of_mem hx) m.1 (List.mem_cons_self ..)
            (by simpa using hxm)
        have hset : (obj done).setItem m.1 m.2 = obj (done ++ [m]) := by
          simp only [setItem, hnew, Bool.false_eq_true, if_false]
        rw [List.foldl_cons, hset, ih (done ++ [m]) (by rw [List.append_assoc]; exact hd),
          List.append_assoc]
        rfl
  exact hfold members [] h

theorem numeral_ne {c d : Char} (hc : numeral c = true) (hd : numeral d = false) : c ≠ d := by
  rintro rfl
  rw [hc] at hd
  cases hd

theorem toList_dumps_null (f : Format) : (dumps f null).toList = ['n', 'u', 'l', 'l'] := by
  simp [dumps]

theorem toList_dumps_true (f : Format) : (dumps f (bool true)).toList = ['t', 'r', 'u', 'e'] := by
  simp [dumps]

theorem toList_dumps_false (f : Format) :
    (dumps f (bool false)).toList = ['f', 'a', 'l', 's', 'e'] := by
  simp [dumps]

/-- A text starts with no blank and with no closing bracket. -/
theorem dumps_head (f : Format) {v : Json} (h : plain v = true) :
    ∃ c cs, (dumps f v).toList = c :: cs ∧ blank c = false ∧ c ≠ ']' := by
  cases v with
  | null => exact ⟨'n', _, toList_dumps_null f, rfl, by decide⟩
  | bool b =>
      cases b with
      | false => exact ⟨'f', _, toList_dumps_false f, rfl, by decide⟩
      | true => exact ⟨'t', _, toList_dumps_true f, rfl, by decide⟩
  | int n =>
      cases hn : (toString n).toList with
      | nil => exact absurd hn (toString_ne_nil n)
      | cons c cs =>
          have hc : numeral c = true :=
            numeral_of_mem_toString (hn ▸ List.mem_cons_self .. : c ∈ (toString n).toList)
          refine ⟨c, cs, hn, ?_, numeral_ne hc rfl⟩
          simp only [blank, Bool.or_eq_false_iff, decide_eq_false_iff_not]
          exact ⟨⟨⟨numeral_ne hc rfl, numeral_ne hc rfl⟩, numeral_ne hc rfl⟩, numeral_ne hc rfl⟩
  | float q digits => cases h
  | str s => exact ⟨'"', _, toList_quote .., rfl, by decide⟩
  | arr items => exact ⟨'[', _, by rw [dumps, String.toList_append, String.toList_append]; rfl, rfl, by decide⟩
  | obj members => exact ⟨'\x7b', _, by rw [dumps, String.toList_append, String.toList_append]; rfl, rfl, by decide⟩
  | object tag => cases h

theorem stops_cons {c : Char} (h : numeral c = false) (cs : List Char) : Stops (c :: cs) := by
  intro d hd
  obtain rfl : c = d := by simpa using hd
  exact h

/-- The text of an object's members. -/
def pairTexts (f : Format) (members : List (String × Json)) : List String :=
  (dumpsMembers f members).map (render f)

theorem toList_dumps_obj {f : Format} (hf : f.sortKeys = false) (members : List (String × Json)) :
    (dumps f (obj members)).toList =
      '\x7b' :: ((f.itemSeparator.intercalate (pairTexts f members)).toList ++ ['\x7d']) := by
  simp [dumps, arrange, hf, pairTexts]

theorem toList_dumps_arr (f : Format) (items : List Json) :
    (dumps f (arr items)).toList =
      '[' :: ((f.itemSeparator.intercalate (dumpsList f items)).toList ++ [']']) := by
  simp [dumps]

theorem toList_pair (f : Format) (key : String) (x : Json) :
    (render f (key, dumps f x)).toList =
      '"' :: (escaped f.ensureAscii key.toList ++ '"' ::
        (f.keySeparator.toList ++ (dumps f x).toList)) := by
  simp [render, toList_quote]

theorem intercalate_starts (sep s : String) (l : List String) :
    ∃ cs, (sep.intercalate (s :: l)).toList = s.toList ++ cs := by
  cases l with
  | nil => exact ⟨[], by rw [String.intercalate_singleton, List.append_nil]⟩
  | cons u l =>
      refine ⟨sep.toList ++ (sep.intercalate (u :: l)).toList, ?_⟩
      rw [String.intercalate_cons_cons, String.toList_append, String.toList_append,
        List.append_assoc]

mutual

/-- The text of a value is read as the value. Along the nesting the bound stays above
the length of the text that is left. -/
theorem readValue_dumps {f : Format} (hf : f.Plain) : ∀ (v : Json) (n : Nat) (rest : List Char),
    plain v = true → (dumps f v).toList.length < n → Stops rest →
      readValue n ((dumps f v).toList ++ rest) = some (v, rest)
  | _, 0, _, _, hn, _ => absurd hn (Nat.not_lt_zero _)
  | null, _ + 1, rest, _, _, _ => by
      rw [toList_dumps_null]
      exact readWord_append ['n', 'u', 'l', 'l'] null rest
  | bool true, _ + 1, rest, _, _, _ => by
      rw [toList_dumps_true]
      exact readWord_append ['t', 'r', 'u', 'e'] (bool true) rest
  | bool false, _ + 1, rest, _, _, _ => by
      rw [toList_dumps_false]
      exact readWord_append ['f', 'a', 'l', 's', 'e'] (bool false) rest
  | int i, n + 1, rest, hp, _, hr => by
      obtain ⟨c, cs, hc, hblank, -⟩ := dumps_head f hp
      have hmem : c ∈ (toString i).toList := by
        show c ∈ (dumps f (int i)).toList
        rw [hc]
        exact List.mem_cons_self ..
      have hnum := numeral_of_mem_toString hmem
      have hread := readNumber_int i hr
      rw [show (toString i).toList = c :: cs from hc, List.cons_append] at hread
      rw [hc, List.cons_append, readValue, skip_cons hblank]
      simp only [if_neg (numeral_ne hnum (rfl : numeral '"' = false)),
        if_neg (numeral_ne hnum (rfl : numeral '[' = false)),
        if_neg (numeral_ne hnum (rfl : numeral '\x7b' = false)),
        if_neg (numeral_ne hnum (rfl : numeral 'n' = false)),
        if_neg (numeral_ne hnum (rfl : numeral 't' = false)),
        if_neg (numeral_ne hnum (rfl : numeral 'f' = false)), hread]
  | str s, n + 1, rest, _, hn, _ => by
      have hs := readString_escaped f.ensureAscii s.toList
        ((escaped f.ensureAscii s.toList ++ '"' :: rest).length + 1) rest (by simp)
      rw [dumps, toList_quote, List.cons_append, List.append_assoc, List.singleton_append, readValue,
        skip_cons rfl]
      simp only [if_true, hs, Option.bind_eq_bind, Option.bind_some, String.ofList_toList]
  | arr [], n + 1, rest, _, _, _ => by
      have htext : (dumps f (arr [])).toList = ['[', ']'] := by simp [dumps, dumpsList]
      rw [htext]
      rfl
  | arr (x :: xs), n + 1, rest, hp, hn, _ => by
      have hx : plain x = true := by
        simp only [plain, plainList, Bool.and_eq_true] at hp
        exact hp.1
      rw [toList_dumps_arr, List.length_cons, List.length_append, List.length_singleton] at hn
      have hitems := readItems_dumps hf (x :: xs) n rest hp (List.cons_ne_nil _ _) (by omega)
      obtain ⟨c, cs, hc, hblank, hne⟩ := dumps_head f hx
      obtain ⟨more, hmore⟩ := intercalate_starts f.itemSeparator (dumps f x) (dumpsList f xs)
      have hskip : skip ((f.itemSeparator.intercalate (dumpsList f (x :: xs))).toList ++
          ']' :: rest) = (f.itemSeparator.intercalate (dumpsList f (x :: xs))).toList ++
          ']' :: rest := by
        rw [dumpsList, hmore, hc]
        exact skip_cons hblank _
      have hhead : ((f.itemSeparator.intercalate (dumpsList f (x :: xs))).toList ++
          ']' :: rest).head? ≠ some ']' := by
        rw [dumpsList, hmore, hc]
        simpa using hne
      rw [toList_dumps_arr, List.cons_append, List.append_assoc, List.singleton_append, readValue,
        skip_cons rfl]
      simp only [Char.reduceEq, if_false, if_true, hskip, if_neg hhead, hitems,
        Option.bind_eq_bind, Option.bind_some]
  | obj [], n + 1, rest, _, _, _ => by
      have htext : (dumps f (obj [])).toList = ['\x7b', '\x7d'] := by
        rw [toList_dumps_obj hf.unsorted]
        rfl
      rw [htext]
      rfl
  | obj ((key, x) :: ms), n + 1, rest, hp, hn, _ => by
      obtain ⟨hnodup, hms⟩ : (((key, x) :: ms).map (·.1)).Nodup ∧
          plainMembers ((key, x) :: ms) = true := by
        simpa only [plain, Bool.and_eq_true, decide_eq_true_eq] using hp
      rw [toList_dumps_obj hf.unsorted, List.length_cons, List.length_append,
        List.length_singleton] at hn
      have hpairs := readPairs_dumps hf ((key, x) :: ms) n rest hms (List.cons_ne_nil _ _) (by omega)
      obtain ⟨cs, hcs⟩ : ∃ cs, (f.itemSeparator.intercalate
          (pairTexts f ((key, x) :: ms))).toList ++ '\x7d' :: rest = '"' :: cs := by
        obtain ⟨more, hmore⟩ := intercalate_starts f.itemSeparator (render f (key, dumps f x))
          (pairTexts f ms)
        have htext : (f.itemSeparator.intercalate (pairTexts f ((key, x) :: ms))).toList =
          (render f (key, dumps f x)).toList ++ more := hmore
        rw [htext, toList_pair]
        exact ⟨_, rfl⟩
      rw [toList_dumps_obj hf.unsorted, List.cons_append, List.append_assoc, List.singleton_append,
        readValue, skip_cons rfl]
      rw [hcs] at hpairs ⊢
      simp only [Char.reduceEq, if_false, if_true, skip_cons (rfl : blank '"' = false),
        List.head?_cons, Option.some.injEq, hpairs, Option.bind_eq_bind, Option.bind_some,
        ofPairs_of_nodup hnodup]

theorem readItems_dumps {f : Format} (hf : f.Plain) : ∀ (items : List Json) (n : Nat)
    (rest : List Char), plainList items = true → items ≠ [] →
      (f.itemSeparator.intercalate (dumpsList f items)).toList.length + 1 < n →
        readItems n ((f.itemSeparator.intercalate (dumpsList f items)).toList ++ ']' :: rest) =
          some (items, rest)
  | [], _, _, _, hne, _ => absurd rfl hne
  | _ :: _, 0, _, _, _, hn => absurd hn (Nat.not_lt_zero _)
  | [x], n + 1, rest, hp, _, hn => by
      simp only [plainList, Bool.and_true] at hp
      simp only [dumpsList, String.intercalate_singleton] at hn ⊢
      have hx := readValue_dumps hf x n (']' :: rest) hp (by omega) (stops_cons rfl _)
      rw [readItems, hx]
      simp only [Option.bind_eq_bind, Option.bind_some, skip_cons (rfl : blank ']' = false), if_true]
  | x :: y :: ys, n + 1, rest, hp, _, hn => by
      obtain ⟨hpx, hpy⟩ : plain x = true ∧ plainList (y :: ys) = true := by
        simpa only [plainList, Bool.and_eq_true] using hp
      obtain ⟨ws, hsep, hws⟩ := hf.item
      rw [dumpsList, dumpsList, String.intercalate_cons_cons, ← dumpsList, String.toList_append,
        String.toList_append, hsep] at hn ⊢
      simp only [List.length_append, List.length_cons] at hn
      have hx := readValue_dumps hf x n (',' :: (ws ++
        ((f.itemSeparator.intercalate (dumpsList f (y :: ys))).toList ++ ']' :: rest)))
        hpx (by omega) (stops_cons rfl _)
      have hys := readItems_dumps hf (y :: ys) n rest hpy (List.cons_ne_nil _ _) (by omega)
      rw [List.append_assoc, List.append_assoc, List.cons_append, readItems, hx]
      simp only [Option.bind_eq_bind, Option.bind_some, skip_cons (rfl : blank ',' = false),
        Char.reduceEq, if_false, if_true, readItems_blanks hws, hys]

theorem readPairs_dumps {f : Format} (hf : f.Plain) : ∀ (members : List (String × Json)) (n : Nat)
    (rest : List Char), plainMembers members = true → members ≠ [] →
      (f.itemSeparator.intercalate (pairTexts f members)).toList.length + 1 < n →
        readPairs n ((f.itemSeparator.intercalate (pairTexts f members)).toList ++
          '\x7d' :: rest) = some (members, rest)
  | [], _, _, _, hne, _ => absurd rfl hne
  | _ :: _, 0, _, _, _, hn => absurd hn (Nat.not_lt_zero _)
  | [(key, x)], n + 1, rest, hp, _, hn => by
      simp only [plainMembers, Bool.and_true] at hp
      obtain ⟨ws, hsep, hws⟩ := hf.key
      simp only [pairTexts, dumpsMembers, List.map_cons, List.map_nil,
        String.intercalate_singleton, toList_pair, hsep] at hn ⊢
      simp only [List.length_append, List.length_cons] at hn
      have hkey := readString_escaped f.ensureAscii key.toList
        ('"' :: (escaped f.ensureAscii key.toList ++ '"' :: (':' :: (ws ++
          ((dumps f x).toList ++ '\x7d' :: rest))))).length
        (':' :: (ws ++ ((dumps f x).toList ++ '\x7d' :: rest))) (by simp)
      have hx := readValue_dumps hf x n ('\x7d' :: rest) hp (by omega) (stops_cons rfl _)
      simp only [List.cons_append, List.append_assoc, readPairs,
        skip_cons (rfl : blank '"' = false), List.head?_cons, if_true, List.tail_cons, hkey,
        Option.bind_eq_bind, Option.bind_some, skip_cons (rfl : blank ':' = false),
        readValue_blanks hws, hx, skip_cons (rfl : blank '\x7d' = false), String.ofList_toList]
  | (key, x) :: m :: ms, n + 1, rest, hp, _, hn => by
      obtain ⟨hpx, hpm⟩ : plain x = true ∧ plainMembers (m :: ms) = true := by
        simpa only [plainMembers, Bool.and_eq_true] using hp
      obtain ⟨ws, hsep, hws⟩ := hf.key
      obtain ⟨ws', hsep', hws'⟩ := hf.item
      have htext : f.itemSeparator.intercalate (pairTexts f ((key, x) :: m :: ms)) =
          render f (key, dumps f x) ++ f.itemSeparator ++
            f.itemSeparator.intercalate (pairTexts f (m :: ms)) :=
        String.intercalate_cons_cons
      rw [htext] at hn ⊢
      simp only [String.toList_append, toList_pair, hsep, hsep'] at hn ⊢
      simp only [List.length_append, List.length_cons] at hn
      have hms := readPairs_dumps hf (m :: ms) n rest hpm (List.cons_ne_nil _ _) (by omega)
      simp only [List.cons_append, List.append_assoc]
      generalize (f.itemSeparator.intercalate (pairTexts f (m :: ms))).toList ++ '\x7d' :: rest =
        behind at hms ⊢
      have hkey := readString_escaped f.ensureAscii key.toList
        ('"' :: (escaped f.ensureAscii key.toList ++ '"' :: (':' :: (ws ++
          ((dumps f x).toList ++ ',' :: (ws' ++ behind)))))).length
        (':' :: (ws ++ ((dumps f x).toList ++ ',' :: (ws' ++ behind)))) (by simp)
      have hx := readValue_dumps hf x n (',' :: (ws' ++ behind)) hpx (by omega) (stops_cons rfl _)
      simp only [readPairs, skip_cons (rfl : blank '"' = false), List.head?_cons, if_true,
        List.tail_cons, hkey, Option.bind_eq_bind, Option.bind_some,
        skip_cons (rfl : blank ':' = false),
        readValue_blanks hws, hx, skip_cons (rfl : blank ',' = false), Char.reduceEq, if_false,
        readPairs_blanks hws', hms, String.ofList_toList]

end

/-- The round trip. -/
theorem loads_dumps {f : Format} (hf : f.Plain) {v : Json} (h : plain v = true) :
    loads (dumps f v) = some v := by
  have hread := readValue_dumps hf v ((dumps f v).length + 1) [] h
    (by rw [String.length_toList]; omega) (by intro c hc; cases hc)
  rw [List.append_nil] at hread
  unfold loads
  rw [hread]
  rfl

end OufGateway.Lib.Json
