import Mathlib
import OufGateway.Lib.Except
import OufGateway.Lib.JsonParse

/-!
# JSON texts with everything in them

`loads` reads a JSON text the way a Python program does that refuses repeated keys and
the constants `NaN` and `Infinity`: every number, every escape, and strings that are
lists of code points, since an escaped half of a surrogate pair stands for itself when
the other half is missing. A text can be wrong in two ways. It is not JSON, or it nests
deeper than the interpreter's recursion goes; and which of the two it is depends on
what is met first from the left.

`Spells` is the grammar, without any reading order: which texts spell which values. The
reader is sound (`spells_of_readValue`), and complete on values that nest within the
limit (`readValue_of_spells`), whatever stands behind the text.
-/

namespace OufGateway.Lib.JsonText

open Json (blank skip readHex isHigh isLow unescape?)

/-- The code points of a string. -/
abbrev Points := List Nat

def points (s : String) : Points := s.toList.map Char.toNat

inductive Value
  | null
  | bool (b : Bool)
  | int (n : Int)
  | float (text : List Char)
  | str (s : Points)
  | arr (items : List Value)
  | obj (members : List (Points × Value))

inductive Fault
  | value
  | recursion
deriving DecidableEq

/-! ## Tokens -/

/-- The code point of a surrogate pair. -/
def combine (high low : Nat) : Nat := 65536 + (high - 55296) * 1024 + (low - 56320)

/-- The second half of a surrogate pair. -/
def readLow : List Char → Option (Nat × List Char)
  | '\\' :: 'u' :: rest => (readHex rest).filter fun r => isLow r.1
  | _ => none

/-- What follows a backslash. -/
def readEscape : List Char → Option (Nat × List Char)
  | [] => none
  | c :: rest =>
    if c = 'u' then do
      let (n, rest) ← readHex rest
      match (readLow rest).filter fun _ => isHigh n with
      | some (low, rest) => some (combine n low, rest)
      | none => some (n, rest)
    else (unescape? c).map fun e => (e.toNat, rest)

/-- One point of a string, from its first character on. -/
def readPoint (c : Char) (rest : List Char) : Option (Nat × List Char) :=
  if c = '\\' then readEscape rest
  else if c.toNat < 32 then none
  else some (c.toNat, rest)

/-- A string up to its closing quote. -/
def readString : Nat → List Char → Option (Points × List Char)
  | 0, _ => none
  | _ + 1, [] => none
  | n + 1, c :: rest =>
    if c = '"' then some ([], rest)
    else do
      let (p, rest) ← readPoint c rest
      let (s, rest) ← readString n rest
      some (p :: s, rest)

/-- The digits of an integer: a zero stands alone. -/
def readDigits (cs : List Char) : List Char × List Char :=
  if cs.head? = some '0' then (['0'], cs.tail)
  else (cs.takeWhile Char.isDigit, cs.dropWhile Char.isDigit)

/-- A part of a number that has digits behind its mark, or is not there. -/
def readPart (mark : List Char) (cs : List Char) : List Char × List Char :=
  if cs.takeWhile Char.isDigit = [] then ([], mark ++ cs)
  else (mark ++ cs.takeWhile Char.isDigit, cs.dropWhile Char.isDigit)

def readFraction : List Char → List Char × List Char
  | [] => ([], [])
  | c :: cs => if c = '.' then readPart ['.'] cs else ([], c :: cs)

def readExponent : List Char → List Char × List Char
  | [] => ([], [])
  | c :: cs =>
    if c = 'e' ∨ c = 'E' then
      if cs.head? = some '+' ∨ cs.head? = some '-' then readPart (c :: cs.take 1) cs.tail
      else readPart [c] cs
    else ([], c :: cs)

def natural (digits : List Char) : Nat := Nat.ofDigitChars 10 digits 0

/-- `int(text)`, which refuses more than 4300 digits. -/
def integer (negative : Bool) (digits : List Char) : Except Fault Value :=
  if 4300 < digits.length then .error .value
  else .ok (.int (if negative then -natural digits else natural digits))

def isNegative (cs : List Char) : Bool := cs.head? = some '-'

def sign (negative : Bool) : List Char := if negative then ['-'] else []

def readNumber (cs : List Char) : Except Fault (Value × List Char) :=
  let negative := isNegative cs
  let (digits, rest) := readDigits (if negative then cs.tail else cs)
  if digits = [] then .error .value
  else
    let (fraction, rest) := readFraction rest
    let (exponent, rest) := readExponent rest
    if fraction ++ exponent = [] then do
      let n ← integer negative digits
      .ok (n, rest)
    else
      .ok (.float (sign negative ++ digits ++ fraction ++ exponent), rest)

def readWord (word : List Char) (value : Value) (cs : List Char) : Except Fault (Value × List Char) :=
  if word <+: cs then .ok (value, cs.drop word.length) else .error .value

/-- A value that is neither an array nor an object. -/
def readScalar : List Char → Except Fault (Value × List Char)
  | [] => .error .value
  | c :: rest =>
    if c = '"' then
      match readString (rest.length + 1) rest with
      | none => .error .value
      | some (s, rest) => .ok (.str s, rest)
    else if c = 'n' then readWord ['n', 'u', 'l', 'l'] .null (c :: rest)
    else if c = 't' then readWord ['t', 'r', 'u', 'e'] (.bool true) (c :: rest)
    else if c = 'f' then readWord ['f', 'a', 'l', 's', 'e'] (.bool false) (c :: rest)
    else readNumber (c :: rest)

/-! ## Values -/

section

variable (value : List Char → Except Fault (Value × List Char))

/-- The items of an array up to its closing bracket; each takes a character at least. -/
def readItems : Nat → List Char → Except Fault (List Value × List Char)
  | 0, _ => .error .value
  | n + 1, cs => do
    let (x, rest) ← value (skip cs)
    match skip rest with
    | [] => .error .value
    | c :: rest =>
      if c = ']' then .ok ([x], rest)
      else if c = ',' then do
        let (xs, rest) ← readItems n rest
        .ok (x :: xs, rest)
      else .error .value

/-- A key with its colon. -/
def readKey (cs : List Char) : Except Fault (Points × List Char) :=
  match skip cs with
  | [] => .error .value
  | c :: rest =>
    if c = '"' then
      match readString (rest.length + 1) rest with
      | none => .error .value
      | some (key, rest) =>
        match skip rest with
        | [] => .error .value
        | d :: rest => if d = ':' then .ok (key, rest) else .error .value
    else .error .value

/-- The members of an object up to its closing brace. -/
def readMembers : Nat → List Char → Except Fault (List (Points × Value) × List Char)
  | 0, _ => .error .value
  | n + 1, cs => do
    let (key, rest) ← readKey cs
    let (x, rest) ← value (skip rest)
    match skip rest with
    | [] => .error .value
    | c :: rest =>
      if c = '\x7d' then .ok ([(key, x)], rest)
      else if c = ',' then do
        let (xs, rest) ← readMembers n rest
        .ok ((key, x) :: xs, rest)
      else .error .value

/-- An array or an object from its first bracket on. -/
def readNested (c : Char) (rest : List Char) : Except Fault (Value × List Char) :=
  if c = '[' then
    if (skip rest).head? = some ']' then .ok (.arr [], (skip rest).tail)
    else do
      let (items, rest) ← readItems value rest.length rest
      .ok (.arr items, rest)
  else if (skip rest).head? = some '\x7d' then .ok (.obj [], (skip rest).tail)
  else do
    let (members, rest) ← readMembers value rest.length rest
    if (members.map (·.1)).Nodup then .ok (.obj members, rest) else .error .value

end

/-- A value; brackets open in each other at most `limit` deep. -/
def readValue : Nat → List Char → Except Fault (Value × List Char)
  | _, [] => .error .value
  | 0, c :: rest => if c = '[' ∨ c = '\x7b' then .error .recursion else readScalar (c :: rest)
  | limit + 1, c :: rest =>
    if c = '[' ∨ c = '\x7b' then readNested (readValue limit) c rest else readScalar (c :: rest)

/-- `json.loads(text, object_pairs_hook=unique, parse_constant=...)`: the words of the
constants are no JSON either way. -/
def loads (limit : Nat) (text : List Char) : Except Fault Value := do
  let (v, rest) ← readValue limit (skip text)
  if skip rest = [] then .ok v else .error .value

/-! ## The grammar -/

/-- The inside of a string up to its closing quote, and what is behind it. -/
inductive Spelled : List Char → Points → List Char → Prop
  | close {rest : List Char} : Spelled ('"' :: rest) [] rest
  | plain {c : Char} {cs rest : List Char} {s : Points} (hquote : c ≠ '"') (hslash : c ≠ '\\')
      (hvisible : 32 ≤ c.toNat) (h : Spelled cs s rest) : Spelled (c :: cs) (c.toNat :: s) rest
  | escape {c e : Char} {cs rest : List Char} {s : Points} (hc : unescape? c = some e)
      (h : Spelled cs s rest) : Spelled ('\\' :: c :: cs) (e.toNat :: s) rest
  /-- A half of a pair stands for itself where the other half does not follow. -/
  | unit {n : Nat} {cs cs' rest : List Char} {s : Points} (hn : readHex cs = some (n, cs'))
      (halone : isHigh n = true → readLow cs' = none) (h : Spelled cs' s rest) :
      Spelled ('\\' :: 'u' :: cs) (n :: s) rest
  | pair {high low : Nat} {cs cs' cs'' rest : List Char} {s : Points}
      (hn : readHex cs = some (high, cs')) (hhigh : isHigh high = true)
      (hlow : readLow cs' = some (low, cs'')) (h : Spelled cs'' s rest) :
      Spelled ('\\' :: 'u' :: cs) (combine high low :: s) rest

/-- The digits of an integer. -/
def Digits (ds : List Char) : Prop :=
  ds ≠ [] ∧ (∀ c ∈ ds, c.isDigit = true) ∧ (ds.head? = some '0' → ds = ['0'])

/-- A part of a number: digits behind its mark. -/
def Part (mark text : List Char) : Prop :=
  ∃ ds, ds ≠ [] ∧ (∀ c ∈ ds, c.isDigit = true) ∧ text = mark ++ ds

def Fraction (text : List Char) : Prop := text = [] ∨ Part ['.'] text

def Exponent (text : List Char) : Prop :=
  text = [] ∨ ∃ e ∈ ['e', 'E'], ∃ sign ∈ [[], ['+'], ['-']], Part (e :: sign) text

inductive Scalar : List Char → Value → List Char → Prop
  | null {rest : List Char} : Scalar ('n' :: 'u' :: 'l' :: 'l' :: rest) .null rest
  | yes {rest : List Char} : Scalar ('t' :: 'r' :: 'u' :: 'e' :: rest) (.bool true) rest
  | no {rest : List Char} : Scalar ('f' :: 'a' :: 'l' :: 's' :: 'e' :: rest) (.bool false) rest
  | str {cs rest : List Char} {s : Points} (h : Spelled cs s rest) :
      Scalar ('"' :: cs) (.str s) rest
  | int {negative : Bool} {ds rest : List Char} (hds : Digits ds) (hshort : ds.length ≤ 4300) :
      Scalar (sign negative ++ (ds ++ rest))
        (.int (if negative then -natural ds else natural ds)) rest
  | float {negative : Bool} {ds fraction exponent rest : List Char} (hds : Digits ds)
      (hf : Fraction fraction) (he : Exponent exponent) (hne : fraction ++ exponent ≠ []) :
      Scalar (sign negative ++ (ds ++ (fraction ++ (exponent ++ rest))))
        (.float (sign negative ++ ds ++ fraction ++ exponent)) rest

section

variable (P : List Char → Value → List Char → Prop)

/-- The items of an array and its closing bracket, behind any blanks. -/
inductive Items : List Char → List Value → List Char → Prop
  | last {cs cs' rest : List Char} {x : Value} (hx : P (skip cs) x cs')
      (hclose : skip cs' = ']' :: rest) : Items cs [x] rest
  | cons {cs cs' cs'' rest : List Char} {x : Value} {xs : List Value} (hx : P (skip cs) x cs')
      (hcomma : skip cs' = ',' :: cs'') (h : Items cs'' xs rest) : Items cs (x :: xs) rest

/-- A key and its colon. -/
def Key (cs : List Char) (key : Points) (rest : List Char) : Prop :=
  ∃ inside rest', skip cs = '"' :: inside ∧ Spelled inside key rest' ∧ skip rest' = ':' :: rest

inductive Members : List Char → List (Points × Value) → List Char → Prop
  | last {cs cs' cs'' rest : List Char} {key : Points} {x : Value} (hkey : Key cs key cs')
      (hx : P (skip cs') x cs'') (hclose : skip cs'' = '\x7d' :: rest) : Members cs [(key, x)] rest
  | cons {cs cs' cs'' more rest : List Char} {key : Points} {x : Value}
      {ms : List (Points × Value)} (hkey : Key cs key cs') (hx : P (skip cs') x cs'')
      (hcomma : skip cs'' = ',' :: more) (h : Members more ms rest) :
      Members cs ((key, x) :: ms) rest

inductive Nested : List Char → Value → List Char → Prop
  | emptyArr {cs rest : List Char} (h : skip cs = ']' :: rest) : Nested ('[' :: cs) (.arr []) rest
  | arr {cs rest : List Char} {xs : List Value} (h : Items P cs xs rest) :
      Nested ('[' :: cs) (.arr xs) rest
  | emptyObj {cs rest : List Char} (h : skip cs = '\x7d' :: rest) :
      Nested ('\x7b' :: cs) (.obj []) rest
  | obj {cs rest : List Char} {ms : List (Points × Value)} (h : Members P cs ms rest)
      (hkeys : (ms.map (·.1)).Nodup) : Nested ('\x7b' :: cs) (.obj ms) rest

end

/-- The text before `rest` spells the value, with brackets at most so deep. -/
def Spells : Nat → List Char → Value → List Char → Prop
  | 0, cs, v, rest => Scalar cs v rest
  | depth + 1, cs, v, rest => Scalar cs v rest ∨ Nested (Spells depth) cs v rest

/-- The text spells the value, with blanks around it. -/
def IsText (text : List Char) (v : Value) : Prop :=
  ∃ depth rest, Spells depth (skip text) v rest ∧ skip rest = []

/-! ## What is read is spelled -/

variable {n limit : Nat} {cs rest : List Char} {s : Points} {v : Value}
  {value : List Char → Except Fault (Value × List Char)} {P : List Char → Value → List Char → Prop}

/-- A point in front of a string. -/
theorem spelled_cons {c : Char} {p : Nat} {cs' : List Char} (hquote : c ≠ '"')
    (hpoint : readPoint c cs = some (p, cs')) (h : Spelled cs' s rest) :
    Spelled (c :: cs) (p :: s) rest := by
  unfold readPoint at hpoint
  split at hpoint
  · next hslash =>
    subst hslash
    cases cs with
    | nil => cases hpoint
    | cons d cs =>
        rw [readEscape] at hpoint
        split at hpoint
        · next hu =>
          subst hu
          obtain ⟨⟨m, cs''⟩, hhex, hpoint⟩ := Option.bind_eq_some_iff.mp hpoint
          simp only [] at hpoint
          split at hpoint
          · next low rest' hlow =>
            obtain ⟨rfl, rfl⟩ := Prod.mk.inj (Option.some.inj hpoint)
            obtain ⟨hlow, hhigh⟩ := Option.filter_eq_some_iff.mp hlow
            exact .pair hhex hhigh hlow h
          · next hlow =>
            cases hpoint
            refine .unit hhex (fun hhigh => ?_) h
            cases hr : readLow cs' with
            | none => rfl
            | some r =>
                rw [hr, Option.filter_some, if_pos hhigh] at hlow
                cases hlow
        · obtain ⟨e, he, hpoint⟩ := Option.map_eq_some_iff.mp hpoint
          cases hpoint
          exact .escape he h
  · next hslash =>
    split at hpoint
    · cases hpoint
    · next hvisible =>
      cases hpoint
      exact .plain hquote hslash (not_lt.mp hvisible) h

theorem spelled_of_readString (h : readString n cs = some (s, rest)) : Spelled cs s rest := by
  induction n generalizing cs s rest with
  | zero => cases h
  | succ n ih =>
      cases cs with
      | nil => cases h
      | cons c cs =>
          rw [readString] at h
          split at h
          · next hquote =>
            cases h
            rw [hquote]
            exact .close
          · next hquote =>
            obtain ⟨⟨p, cs'⟩, hpoint, h⟩ := Option.bind_eq_some_iff.mp h
            obtain ⟨⟨s', rest'⟩, hread, h⟩ := Option.bind_eq_some_iff.mp h
            cases h
            exact spelled_cons hquote hpoint (ih hread)

theorem digits_takeWhile : ∀ c ∈ cs.takeWhile Char.isDigit, c.isDigit = true :=
  fun _ hc => List.mem_takeWhile_imp hc

theorem digits_of_readDigits (h : (readDigits cs).1 ≠ []) :
    Digits (readDigits cs).1 ∧ (readDigits cs).1 ++ (readDigits cs).2 = cs := by
  unfold readDigits at *
  split
  · next hzero =>
    obtain ⟨c, cs, rfl⟩ := List.exists_cons_of_ne_nil (l := cs) (by rintro rfl; cases hzero)
    obtain rfl := Option.some.inj hzero
    exact ⟨⟨List.cons_ne_nil _ _, by simp, fun _ => rfl⟩, rfl⟩
  · next hzero =>
    rw [if_neg hzero] at h
    refine ⟨⟨h, digits_takeWhile, fun hhead => ?_⟩, List.takeWhile_append_dropWhile⟩
    -- A zero at the head would have been taken alone.
    cases cs with
    | nil => cases hhead
    | cons c cs =>
        rw [List.takeWhile_cons] at hhead
        split at hhead
        · exact absurd hhead hzero
        · cases hhead

theorem part_of_readPart (mark cs : List Char) :
    ((readPart mark cs).1 = [] ∨ Part mark (readPart mark cs).1) ∧
      (readPart mark cs).1 ++ (readPart mark cs).2 = mark ++ cs := by
  unfold readPart
  split
  · exact ⟨Or.inl rfl, rfl⟩
  · next hne =>
    refine ⟨Or.inr ⟨_, hne, digits_takeWhile, rfl⟩, ?_⟩
    rw [List.append_assoc, List.takeWhile_append_dropWhile]

theorem fraction_of_readFraction (cs : List Char) :
    Fraction (readFraction cs).1 ∧ (readFraction cs).1 ++ (readFraction cs).2 = cs := by
  cases cs with
  | nil => exact ⟨Or.inl rfl, rfl⟩
  | cons c cs =>
      rw [readFraction]
      split
      · next hc =>
        rw [hc]
        exact part_of_readPart ['.'] cs
      · exact ⟨Or.inl rfl, rfl⟩

theorem exponent_of_readExponent (cs : List Char) :
    Exponent (readExponent cs).1 ∧ (readExponent cs).1 ++ (readExponent cs).2 = cs := by
  have hpart : ∀ {e : Char} {sign rest : List Char}, e ∈ ['e', 'E'] → sign ∈ [[], ['+'], ['-']] →
      Exponent (readPart (e :: sign) rest).1 := by
    intro e sign rest he hsign
    exact (part_of_readPart (e :: sign) rest).1.imp id fun h => ⟨e, he, sign, hsign, h⟩
  cases cs with
  | nil => exact ⟨Or.inl rfl, rfl⟩
  | cons c cs =>
      rw [readExponent]
      split
      · next hc =>
        have he : c ∈ ['e', 'E'] := by simpa using hc
        split
        · next hd =>
          obtain ⟨d, cs, rfl⟩ := List.exists_cons_of_ne_nil (l := cs) (by rintro rfl; simp at hd)
          refine ⟨hpart he ?_, (part_of_readPart [c, d] cs).2⟩
          rcases hd with hd | hd
          · obtain rfl := Option.some.inj hd
            simp
          · obtain rfl := Option.some.inj hd
            simp
        · exact ⟨hpart he (by simp), (part_of_readPart [c] cs).2⟩
      · exact ⟨Or.inl rfl, rfl⟩

theorem sign_append (cs : List Char) :
    sign (isNegative cs) ++ (if isNegative cs then cs.tail else cs) = cs := by
  unfold sign
  split
  · next h =>
    obtain ⟨c, cs, rfl⟩ := List.exists_cons_of_ne_nil (l := cs) (by rintro rfl; cases h)
    obtain rfl := Option.some.inj (of_decide_eq_true h)
    rfl
  · exact List.nil_append cs

theorem scalar_of_readNumber (h : readNumber cs = .ok (v, rest)) : Scalar cs v rest := by
  have hcs := sign_append cs
  simp only [readNumber] at h
  generalize isNegative cs = negative at h hcs
  generalize (if negative = true then cs.tail else cs) = unsigned at h hcs
  obtain ⟨ds, r1, hds⟩ : ∃ ds r1, readDigits unsigned = (ds, r1) := ⟨_, _, rfl⟩
  obtain ⟨fraction, r2, hf⟩ : ∃ f r2, readFraction r1 = (f, r2) := ⟨_, _, rfl⟩
  obtain ⟨exponent, r3, he⟩ : ∃ e r3, readExponent r2 = (e, r3) := ⟨_, _, rfl⟩
  rw [hds] at h
  simp only [hf, he] at h
  split at h
  · cases h
  · next hne =>
    obtain ⟨hdigits, hunsigned⟩ := digits_of_readDigits (show (readDigits unsigned).1 ≠ [] by rw [hds]; exact hne)
    obtain ⟨hfraction, hr1⟩ := fraction_of_readFraction r1
    obtain ⟨hexponent, hr2⟩ := exponent_of_readExponent r2
    rw [hds] at hdigits hunsigned
    rw [hf] at hfraction hr1
    rw [he] at hexponent hr2
    obtain rfl : exponent ++ r3 = r2 := hr2
    obtain rfl : fraction ++ (exponent ++ r3) = r1 := hr1
    obtain rfl : ds ++ (fraction ++ (exponent ++ r3)) = unsigned := hunsigned
    rw [← hcs]
    split at h
    · next hnone =>
      obtain ⟨rfl, rfl⟩ := List.append_eq_nil_iff.mp hnone
      obtain ⟨n, hn, h⟩ := bind_eq_ok.mp h
      cases h
      obtain ⟨hshort, hn⟩ := guard_eq_ok.mp hn
      cases hn
      exact .int hdigits (not_lt.mp hshort)
    · next hsome =>
      cases h
      exact .float hdigits hfraction hexponent hsome

theorem scalar_of_readScalar (h : readScalar cs = .ok (v, rest)) : Scalar cs v rest := by
  have hword : ∀ {word : List Char} {w : Value} {cs : List Char}, readWord word w cs = .ok (v, rest) →
      v = w ∧ cs = word ++ rest := by
    intro word w cs h
    unfold readWord at h
    split at h
    · next hpre =>
      obtain ⟨more, rfl⟩ := hpre
      cases h
      rw [List.drop_left]
      exact ⟨rfl, rfl⟩
    · cases h
  cases cs with
  | nil => cases h
  | cons c cs =>
      rw [readScalar] at h
      split at h
      · next hc =>
        split at h
        · cases h
        · next s rest' hs =>
          cases h
          rw [hc]
          exact .str (spelled_of_readString hs)
      · split at h
        · obtain ⟨rfl, hcs⟩ := hword h
          rw [hcs]
          exact .null
        · split at h
          · obtain ⟨rfl, hcs⟩ := hword h
            rw [hcs]
            exact .yes
          · split at h
            · obtain ⟨rfl, hcs⟩ := hword h
              rw [hcs]
              exact .no
            · exact scalar_of_readNumber h

theorem items_of_readItems (hvalue : ∀ {cs v rest}, value cs = .ok (v, rest) → P cs v rest)
    {xs : List Value} (h : readItems value n cs = .ok (xs, rest)) : Items P cs xs rest := by
  induction n generalizing cs xs rest with
  | zero => cases h
  | succ n ih =>
      obtain ⟨⟨x, cs'⟩, hx, h⟩ := bind_eq_ok.mp h
      simp only [] at h
      split at h
      · cases h
      · next c r hskip =>
        split at h
        · next hclose =>
          cases h
          exact .last (hvalue hx) (by rw [hskip, hclose])
        · split at h
          · next hcomma =>
            obtain ⟨⟨xs', r'⟩, hxs, h⟩ := bind_eq_ok.mp h
            cases h
            exact .cons (hvalue hx) (by rw [hskip, hcomma]) (ih hxs)
          · cases h

theorem key_of_readKey {key : Points} (h : readKey cs = .ok (key, rest)) : Key cs key rest := by
  unfold readKey at h
  split at h
  · cases h
  · next c inside hskip =>
    split at h
    · next hquote =>
      split at h
      · cases h
      · next key' r hs =>
        split at h
        · cases h
        · next d rest' hskip' =>
          split at h
          · next hcolon =>
            cases h
            exact ⟨inside, r, by rw [hskip, hquote], spelled_of_readString hs, by rw [hskip', hcolon]⟩
          · cases h
    · cases h

theorem members_of_readMembers (hvalue : ∀ {cs v rest}, value cs = .ok (v, rest) → P cs v rest)
    {ms : List (Points × Value)} (h : readMembers value n cs = .ok (ms, rest)) :
    Members P cs ms rest := by
  induction n generalizing cs ms rest with
  | zero => cases h
  | succ n ih =>
      obtain ⟨⟨key, cs'⟩, hkey, h⟩ := bind_eq_ok.mp h
      obtain ⟨⟨x, cs''⟩, hx, h⟩ := bind_eq_ok.mp h
      simp only [] at h
      split at h
      · cases h
      · next c r hskip =>
        split at h
        · next hclose =>
          cases h
          exact .last (key_of_readKey hkey) (hvalue hx) (by rw [hskip, hclose])
        · split at h
          · next hcomma =>
            obtain ⟨⟨ms', r'⟩, hms, h⟩ := bind_eq_ok.mp h
            cases h
            exact .cons (key_of_readKey hkey) (hvalue hx) (by rw [hskip, hcomma]) (ih hms)
          · cases h

theorem nested_of_readNested (hvalue : ∀ {cs v rest}, value cs = .ok (v, rest) → P cs v rest)
    {c : Char} (hc : c = '[' ∨ c = '\x7b') (h : readNested value c cs = .ok (v, rest)) :
    Nested P (c :: cs) v rest := by
  have hhead : ∀ {d : Char}, (skip cs).head? = some d → skip cs = d :: (skip cs).tail := by
    intro d hd
    exact (List.cons_head?_tail hd).symm
  unfold readNested at h
  split at h
  · next hopen =>
    rw [hopen]
    split at h
    · next hempty =>
      cases h
      exact .emptyArr (hhead hempty)
    · obtain ⟨⟨xs, r⟩, hxs, h⟩ := bind_eq_ok.mp h
      cases h
      exact .arr (items_of_readItems hvalue hxs)
  · next hopen =>
    rw [hc.resolve_left hopen]
    split at h
    · next hempty =>
      cases h
      exact .emptyObj (hhead hempty)
    · obtain ⟨⟨ms, r⟩, hms, h⟩ := bind_eq_ok.mp h
      simp only [] at h
      split at h
      · next hkeys =>
        cases h
        exact .obj (members_of_readMembers hvalue hms) hkeys
      · cases h

/-- What the reader accepts is spelled there. -/
theorem spells_of_readValue (h : readValue limit cs = .ok (v, rest)) : Spells limit cs v rest := by
  induction limit generalizing cs v rest with
  | zero =>
      cases cs with
      | nil => cases h
      | cons c cs =>
          rw [readValue] at h
          split at h
          · cases h
          · exact scalar_of_readScalar h
  | succ limit ih =>
      cases cs with
      | nil => cases h
      | cons c cs =>
          rw [readValue] at h
          split at h
          · next hopen => exact Or.inr (nested_of_readNested ih hopen h)
          · exact Or.inl (scalar_of_readScalar h)

theorem isText_of_loads (h : loads limit cs = .ok v) : IsText cs v := by
  obtain ⟨⟨v', rest⟩, hread, h⟩ := bind_eq_ok.mp h
  simp only [] at h
  split at h
  · next hend =>
    cases h
    exact ⟨limit, rest, spells_of_readValue hread, hend⟩
  · cases h

/-! ## What is spelled is read -/

/-- A number that ends here does not go on behind it. -/
def Ends (rest : List Char) : Prop :=
  ∀ c, rest.head? = some c → c.isDigit = false ∧ c ≠ '.' ∧ c ≠ 'e' ∧ c ≠ 'E'

theorem ends_cons {c : Char} (hc : c.isDigit = false ∧ c ≠ '.' ∧ c ≠ 'e' ∧ c ≠ 'E')
    (rest : List Char) : Ends (c :: rest) := by
  intro d hd
  obtain rfl := Option.some.inj hd
  exact hc

theorem length_skip (cs : List Char) : (skip cs).length ≤ cs.length :=
  (List.dropWhile_suffix blank).length_le

theorem length_of_skip {c : Char} (h : skip cs = c :: rest) : rest.length < cs.length := by
  have hle := length_skip cs
  rw [h] at hle
  exact hle

/-- Behind a number stand blanks or a mark. -/
theorem ends_of_skip {c : Char} (h : skip cs = c :: rest)
    (hc : c.isDigit = false ∧ c ≠ '.' ∧ c ≠ 'e' ∧ c ≠ 'E') : Ends cs := by
  intro d hd
  obtain ⟨d', cs, rfl⟩ := List.exists_cons_of_ne_nil (l := cs) (by rintro rfl; cases hd)
  obtain rfl := Option.some.inj hd
  by_cases hb : blank d' = true
  · simp only [blank, Bool.or_eq_true, decide_eq_true_eq] at hb
    rcases hb with ((rfl | rfl) | rfl) | rfl <;> decide
  · rw [skip, List.dropWhile_cons_of_neg hb] at h
    obtain rfl := (List.cons.inj h).1
    exact hc

theorem length_readHex {m : Nat} (h : readHex cs = some (m, rest)) : rest.length < cs.length := by
  unfold readHex at h
  split at h
  · simp only [Option.bind_eq_bind, Option.bind_eq_some_iff, Option.some.injEq, Prod.mk.injEq] at h
    obtain ⟨_, -, _, -, _, -, _, -, -, rfl⟩ := h
    simp only [List.length_cons]
    omega
  · cases h

theorem length_readLow {m : Nat} (h : readLow cs = some (m, rest)) : rest.length < cs.length := by
  unfold readLow at h
  split at h
  · obtain ⟨h, -⟩ := Option.filter_eq_some_iff.mp h
    have hlt := length_readHex h
    simp only [List.length_cons]
    omega
  · cases h

theorem Spelled.length_lt (h : Spelled cs s rest) : rest.length < cs.length := by
  induction h with
  | close => exact Nat.lt_succ_self _
  | plain _ _ _ _ ih => exact ih.trans (Nat.lt_succ_self _)
  | escape _ _ ih =>
      simp only [List.length_cons]
      omega
  | unit hn _ _ ih =>
      have hlt := length_readHex hn
      simp only [List.length_cons]
      omega
  | pair hn _ hlow _ ih =>
      have hlt := length_readHex hn
      have hlt' := length_readLow hlow
      simp only [List.length_cons]
      omega

theorem readString_of_spelled (h : Spelled cs s rest) (hn : cs.length ≤ n) :
    readString n cs = some (s, rest) := by
  induction h generalizing n with
  | close =>
      obtain ⟨n, rfl⟩ := Nat.exists_eq_add_of_le' (Nat.one_le_of_lt hn)
      rfl
  | @plain c cs rest s hquote hslash hvisible h ih =>
      obtain ⟨n, rfl⟩ := Nat.exists_eq_add_of_le' (Nat.one_le_of_lt hn)
      have hpoint : readPoint c cs = some (c.toNat, cs) := by
        rw [readPoint, if_neg hslash, if_neg (not_lt.mpr hvisible)]
      rw [readString, if_neg hquote, hpoint]
      simp only [Option.bind_eq_bind, Option.bind_some, ih (Nat.le_of_succ_le_succ hn)]
  | @escape c e cs rest s hc h ih =>
      obtain ⟨n, rfl⟩ := Nat.exists_eq_add_of_le' (Nat.one_le_of_lt hn)
      have hu : c ≠ 'u' := by
        rintro rfl
        simp [unescape?] at hc
      have hpoint : readPoint '\\' (c :: cs) = some (e.toNat, cs) := by
        rw [readPoint, if_pos rfl, readEscape, if_neg hu, hc]
        rfl
      rw [readString, if_neg (by decide), hpoint]
      have hlen : cs.length ≤ n := by
        simp only [List.length_cons] at hn
        omega
      simp only [Option.bind_eq_bind, Option.bind_some, ih hlen]
  | @unit m cs cs' rest s hm halone h ih =>
      obtain ⟨n, rfl⟩ := Nat.exists_eq_add_of_le' (Nat.one_le_of_lt hn)
      have hnone : (readLow cs').filter (fun _ => isHigh m) = none := by
        cases hhigh : isHigh m with
        | true => rw [halone hhigh]; rfl
        | false => cases readLow cs' <;> rfl
      have hpoint : readPoint '\\' ('u' :: cs) = some (m, cs') := by
        rw [readPoint, if_pos rfl, readEscape, if_pos rfl, hm]
        simp only [Option.bind_eq_bind, Option.bind_some, hnone]
      rw [readString, if_neg (by decide), hpoint]
      have hlen : cs'.length ≤ n := by
        have hlt := length_readHex hm
        simp only [List.length_cons] at hn
        omega
      simp only [Option.bind_eq_bind, Option.bind_some, ih hlen]
  | @pair high low cs cs' cs'' rest s hm hhigh hlow h ih =>
      obtain ⟨n, rfl⟩ := Nat.exists_eq_add_of_le' (Nat.one_le_of_lt hn)
      have hsome : (readLow cs').filter (fun _ => isHigh high) = some (low, cs'') := by
        rw [hlow, Option.filter_some, if_pos hhigh]
      have hpoint : readPoint '\\' ('u' :: cs) = some (combine high low, cs'') := by
        rw [readPoint, if_pos rfl, readEscape, if_pos rfl, hm]
        simp only [Option.bind_eq_bind, Option.bind_some, hsome]
      rw [readString, if_neg (by decide), hpoint]
      have hlen : cs''.length ≤ n := by
        have hlt := length_readHex hm
        have hlt' := length_readLow hlow
        simp only [List.length_cons] at hn
        omega
      simp only [Option.bind_eq_bind, Option.bind_some, ih hlen]

theorem takeWhile_digits {ds : List Char} (hds : ∀ c ∈ ds, c.isDigit = true)
    (hrest : ∀ c, rest.head? = some c → c.isDigit = false) :
    (ds ++ rest).takeWhile Char.isDigit = ds ∧ (ds ++ rest).dropWhile Char.isDigit = rest := by
  have hstop : rest.takeWhile Char.isDigit = [] ∧ rest.dropWhile Char.isDigit = rest := by
    cases rest with
    | nil => exact ⟨rfl, rfl⟩
    | cons c rest =>
        have hc : ¬ c.isDigit = true := by
          rw [hrest c rfl]
          decide
        exact ⟨List.takeWhile_cons_of_neg hc, List.dropWhile_cons_of_neg hc⟩
  rw [List.takeWhile_append_of_pos hds, List.dropWhile_append_of_pos hds, hstop.1, hstop.2,
    List.append_nil]
  exact ⟨rfl, rfl⟩

theorem readDigits_of_digits {ds : List Char} (hds : Digits ds)
    (hrest : ∀ c, rest.head? = some c → c.isDigit = false) : readDigits (ds ++ rest) = (ds, rest) := by
  obtain ⟨hne, hall, hzero⟩ := hds
  have hhead : (ds ++ rest).head? = ds.head? := by
    rw [List.head?_append, Option.or_of_isSome (List.isSome_head?.mpr hne)]
  unfold readDigits
  rw [hhead]
  split
  · next h0 =>
    rw [hzero h0]
    rfl
  · obtain ⟨htake, hdrop⟩ := takeWhile_digits hall hrest
    rw [htake, hdrop]

theorem readPart_of_part {mark text : List Char} (h : Part mark text)
    (hrest : ∀ c, rest.head? = some c → c.isDigit = false) :
    ∃ more, text ++ rest = mark ++ more ∧ readPart mark more = (text, rest) := by
  obtain ⟨ds, hne, hall, rfl⟩ := h
  obtain ⟨htake, hdrop⟩ := takeWhile_digits hall hrest
  refine ⟨ds ++ rest, List.append_assoc .., ?_⟩
  unfold readPart
  rw [htake, hdrop, if_neg hne]

theorem readFraction_of_fraction {text : List Char} (h : Fraction text)
    (hrest : ∀ c, rest.head? = some c → c.isDigit = false ∧ c ≠ '.') :
    readFraction (text ++ rest) = (text, rest) := by
  rcases h with rfl | hpart
  · cases rest with
    | nil => rfl
    | cons c rest =>
        rw [List.nil_append, readFraction, if_neg (hrest c rfl).2]
  · obtain ⟨more, heq, hread⟩ := readPart_of_part hpart fun c hc => (hrest c hc).1
    rw [heq, List.singleton_append, readFraction, if_pos rfl]
    exact hread

theorem readExponent_of_exponent {text : List Char} (h : Exponent text)
    (hrest : Ends rest) : readExponent (text ++ rest) = (text, rest) := by
  rcases h with rfl | ⟨e, he, sign, hsign, hpart⟩
  · cases rest with
    | nil => rfl
    | cons c rest =>
        obtain ⟨-, -, he, hE⟩ := hrest c rfl
        rw [List.nil_append, readExponent, if_neg (by simp [he, hE])]
  · have hhead : ∀ {d : Char}, d.isDigit = true → ¬ (d = '+' ∨ d = '-') := by
      intro d hd hor
      rcases hor with rfl | rfl <;> simp at hd
    have hmark : e = 'e' ∨ e = 'E' := by simpa using he
    obtain ⟨ds, hne, hall, htext⟩ := id hpart
    obtain ⟨more, heq, hread⟩ := readPart_of_part hpart fun c hc => (hrest c hc).1
    rw [heq, List.cons_append, readExponent, if_pos hmark]
    simp only [List.mem_cons, List.not_mem_nil, or_false] at hsign
    rcases hsign with rfl | rfl | rfl
    · have hmore : more = ds ++ rest := by
        rw [htext] at heq
        simpa using heq.symm
      obtain ⟨d, ds, rfl⟩ := List.exists_cons_of_ne_nil hne
      have hd := hhead (hall d (by simp))
      rw [List.nil_append, if_neg (by rw [hmore]; simpa using hd)]
      exact hread
    · rw [if_pos (by simp)]
      exact hread
    · rw [if_pos (by simp)]
      exact hread

theorem sign_split (negative : Bool) {ds : List Char} (hds : Digits ds) (rest : List Char) :
    isNegative (sign negative ++ (ds ++ rest)) = negative ∧
      (if isNegative (sign negative ++ (ds ++ rest)) then (sign negative ++ (ds ++ rest)).tail
        else sign negative ++ (ds ++ rest)) = ds ++ rest := by
  obtain ⟨hne, hall, -⟩ := hds
  obtain ⟨d, ds, rfl⟩ := List.exists_cons_of_ne_nil hne
  have hd : isNegative (d :: ds ++ rest) = false := by
    refine decide_eq_false fun h => ?_
    obtain rfl := Option.some.inj h
    exact absurd (hall '-' (by simp)) (by decide)
  cases negative with
  | true => exact ⟨rfl, rfl⟩
  | false =>
      change isNegative (d :: ds ++ rest) = false ∧
        (if isNegative (d :: ds ++ rest) then _ else d :: ds ++ rest) = d :: ds ++ rest
      rw [hd]
      exact ⟨rfl, rfl⟩

/-- Behind the digits of a number that goes on comes its next mark. -/
theorem mark_head {fraction exponent : List Char} (hf : Fraction fraction) (he : Exponent exponent)
    (hrest : Ends rest) :
    (∀ c, (exponent ++ rest).head? = some c → c.isDigit = false ∧ c ≠ '.') ∧
      ∀ c, (fraction ++ (exponent ++ rest)).head? = some c → c.isDigit = false := by
  have hexp : ∀ c, (exponent ++ rest).head? = some c → c.isDigit = false ∧ c ≠ '.' := by
    intro c hc
    rcases he with rfl | ⟨e, he, sign, -, ds, -, -, rfl⟩
    · obtain ⟨hd, hp, -⟩ := hrest c hc
      exact ⟨hd, hp⟩
    · obtain rfl := Option.some.inj hc
      simp only [List.mem_cons, List.not_mem_nil, or_false] at he
      rcases he with rfl | rfl <;> decide
  refine ⟨hexp, fun c hc => ?_⟩
  rcases hf with rfl | ⟨ds, -, -, rfl⟩
  · exact (hexp c hc).1
  · obtain rfl := Option.some.inj hc
    decide

theorem number_head (negative : Bool) {ds : List Char} (hds : Digits ds) (rest : List Char) :
    ∃ c more, sign negative ++ (ds ++ rest) = c :: more ∧ (c = '-' ∨ c.isDigit = true) := by
  obtain ⟨hne, hall, -⟩ := hds
  obtain ⟨d, ds, rfl⟩ := List.exists_cons_of_ne_nil hne
  cases negative with
  | true => exact ⟨'-', _, rfl, Or.inl rfl⟩
  | false => exact ⟨d, _, rfl, Or.inr (hall d (by simp))⟩

theorem readScalar_number {negative : Bool} {ds : List Char} (hds : Digits ds) :
    readScalar (sign negative ++ (ds ++ rest)) = readNumber (sign negative ++ (ds ++ rest)) := by
  obtain ⟨c, more, heq, hc⟩ := number_head negative hds rest
  have hne : c ≠ '"' ∧ c ≠ 'n' ∧ c ≠ 't' ∧ c ≠ 'f' := by
    refine ⟨?_, ?_, ?_, ?_⟩ <;> (rintro rfl; revert hc; decide)
  rw [heq, readScalar, if_neg hne.1, if_neg hne.2.1, if_neg hne.2.2.1, if_neg hne.2.2.2]

theorem readNumber_parts (negative : Bool) {ds fraction exponent : List Char} (hds : Digits ds)
    (hf : Fraction fraction) (he : Exponent exponent) (hrest : Ends rest) :
    readNumber (sign negative ++ (ds ++ (fraction ++ (exponent ++ rest)))) =
      if fraction ++ exponent = [] then do
        let n ← integer negative ds
        .ok (n, rest)
      else .ok (.float (sign negative ++ ds ++ fraction ++ exponent), rest) := by
  obtain ⟨hneg, hunsigned⟩ := sign_split negative hds (fraction ++ (exponent ++ rest))
  obtain ⟨hmore, hdigit⟩ := mark_head hf he hrest
  simp only [readNumber]
  rw [hunsigned, hneg, readDigits_of_digits hds hdigit]
  simp only [readFraction_of_fraction hf hmore, readExponent_of_exponent he hrest, if_neg hds.1]

theorem readScalar_of_scalar (h : Scalar cs v rest) (hrest : Ends rest) :
    readScalar cs = .ok (v, rest) := by
  cases h with
  | null => simp [readScalar, readWord]
  | yes => simp [readScalar, readWord]
  | no => simp [readScalar, readWord]
  | str h =>
      rw [readScalar, if_pos rfl, readString_of_spelled h (Nat.le_succ _)]
  | @int negative ds _ hds hshort =>
      have hparts := readNumber_parts negative hds (Or.inl rfl) (Or.inl rfl) hrest
      simp only [List.nil_append, List.append_nil, if_true, integer,
        if_neg (not_lt.mpr hshort)] at hparts
      rw [readScalar_number hds, hparts]
      rfl
  | @float negative ds fraction exponent _ hds hf he hne =>
      rw [readScalar_number hds, readNumber_parts negative hds hf he hrest, if_neg hne]

/-- A scalar begins with no bracket, and takes at least a character. -/
theorem scalar_head (h : Scalar cs v rest) :
    (∃ c more, cs = c :: more ∧ ¬ ((c = '[' ∨ c = '\x7b') ∨ c = ']')) ∧ rest.length < cs.length := by
  cases h with
  | null =>
      refine ⟨⟨_, _, rfl, by decide⟩, ?_⟩
      simp only [List.length_cons]
      omega
  | yes =>
      refine ⟨⟨_, _, rfl, by decide⟩, ?_⟩
      simp only [List.length_cons]
      omega
  | no =>
      refine ⟨⟨_, _, rfl, by decide⟩, ?_⟩
      simp only [List.length_cons]
      omega
  | str h => exact ⟨⟨_, _, rfl, by decide⟩, h.length_lt.trans (Nat.lt_succ_self _)⟩
  | @int negative ds _ hds hshort =>
      obtain ⟨c, more, heq, hc⟩ := number_head negative hds rest
      refine ⟨⟨c, more, heq, ?_⟩, ?_⟩
      · rintro ((rfl | rfl) | rfl) <;> exact absurd hc (by decide)
      · have hpos := List.length_pos_iff.mpr hds.1
        simp only [List.length_append]
        omega
  | @float negative ds fraction exponent _ hds hf he hne =>
      obtain ⟨c, more, heq, hc⟩ := number_head negative hds (fraction ++ (exponent ++ rest))
      refine ⟨⟨c, more, heq, ?_⟩, ?_⟩
      · rintro ((rfl | rfl) | rfl) <;> exact absurd hc (by decide)
      · have hpos := List.length_pos_iff.mpr hds.1
        simp only [List.length_append]
        omega

section

variable (hvalue : ∀ cs v rest, P cs v rest → Ends rest → value cs = .ok (v, rest))
  (hshorter : ∀ cs v rest, P cs v rest → rest.length < cs.length)

include hshorter

theorem items_shorter {xs : List Value} (h : Items P cs xs rest) :
    xs.length ≤ cs.length ∧ rest.length < cs.length := by
  induction h with
  | @last cs cs' rest x hx hclose =>
      have h1 := hshorter _ _ _ hx
      have h2 := length_skip cs
      have h3 := length_of_skip hclose
      simp only [List.length_singleton]
      omega
  | @cons cs cs' cs'' rest x xs hx hcomma _ ih =>
      have h1 := hshorter _ _ _ hx
      have h2 := length_skip cs
      have h3 := length_of_skip hcomma
      simp only [List.length_cons]
      omega

theorem members_shorter {ms : List (Points × Value)} (h : Members P cs ms rest) :
    ms.length ≤ cs.length ∧ rest.length < cs.length := by
  have hkeys : ∀ {cs rest : List Char} {key : Points}, Key cs key rest → rest.length < cs.length := by
    rintro cs rest key ⟨inside, rest', hquote, hinside, hcolon⟩
    exact (length_of_skip hcolon).trans (hinside.length_lt.trans (length_of_skip hquote))
  induction h with
  | @last cs cs' cs'' rest key x hkey hx hclose =>
      have h0 := hkeys hkey
      have h1 := hshorter _ _ _ hx
      have h2 := length_skip cs'
      have h3 := length_of_skip hclose
      simp only [List.length_singleton]
      omega
  | @cons cs cs' cs'' more rest key x ms hkey hx hcomma _ ih =>
      have h0 := hkeys hkey
      have h1 := hshorter _ _ _ hx
      have h2 := length_skip cs'
      have h3 := length_of_skip hcomma
      simp only [List.length_cons]
      omega

theorem nested_shorter (h : Nested P cs v rest) : rest.length < cs.length := by
  cases h with
  | emptyArr h => exact (length_of_skip h).trans (Nat.lt_succ_self _)
  | arr h => exact (items_shorter hshorter h).2.trans (Nat.lt_succ_self _)
  | emptyObj h => exact (length_of_skip h).trans (Nat.lt_succ_self _)
  | obj h _ => exact (members_shorter hshorter h).2.trans (Nat.lt_succ_self _)

omit hshorter

include hvalue

theorem readItems_of_items {xs : List Value} (h : Items P cs xs rest) (hn : xs.length ≤ n) :
    readItems value n cs = .ok (xs, rest) := by
  induction h generalizing n with
  | last hx hclose =>
      obtain ⟨n, rfl⟩ := Nat.exists_eq_add_of_le' hn
      rw [List.length_singleton, readItems, hvalue _ _ _ hx (ends_of_skip hclose (by decide))]
      show (match skip _ with | [] => _ | c :: rest => _) = _
      rw [hclose]
      rfl
  | cons hx hcomma _ ih =>
      obtain ⟨n, rfl⟩ := Nat.exists_eq_add_of_le' (Nat.one_le_of_lt hn)
      rw [readItems, hvalue _ _ _ hx (ends_of_skip hcomma (by decide))]
      show (match skip _ with | [] => _ | c :: rest => _) = _
      rw [hcomma]
      simp only [if_neg (show ',' ≠ ']' by decide), if_true, ih (Nat.le_of_succ_le_succ hn)]
      rfl

omit hvalue in
theorem readKey_of_key {key : Points} (h : Key cs key rest) : readKey cs = .ok (key, rest) := by
  obtain ⟨inside, rest', hquote, hinside, hcolon⟩ := h
  unfold readKey
  rw [hquote]
  simp only [if_true, readString_of_spelled hinside (Nat.le_succ _), hcolon]

theorem readMembers_of_members {ms : List (Points × Value)} (h : Members P cs ms rest)
    (hn : ms.length ≤ n) : readMembers value n cs = .ok (ms, rest) := by
  induction h generalizing n with
  | last hkey hx hclose =>
      obtain ⟨n, rfl⟩ := Nat.exists_eq_add_of_le' hn
      rw [List.length_singleton, readMembers]
      simp only [readKey_of_key hkey, hvalue _ _ _ hx (ends_of_skip hclose (by decide)), bind, Except.bind,
        hclose, if_true]
  | cons hkey hx hcomma _ ih =>
      obtain ⟨n, rfl⟩ := Nat.exists_eq_add_of_le' (Nat.one_le_of_lt hn)
      rw [readMembers]
      simp only [readKey_of_key hkey, hvalue _ _ _ hx (ends_of_skip hcomma (by decide)), bind, Except.bind,
        hcomma, if_neg (show ',' ≠ '\x7d' by decide), if_true, ih (Nat.le_of_succ_le_succ hn)]

end

/-- Behind the opening bracket of items stands no closing one. -/
theorem not_empty_items {xs : List Value} (hhead : ∀ cs v rest, P cs v rest → cs.head? ≠ some ']')
    (h : Items P cs xs rest) : (skip cs).head? ≠ some ']' := by
  cases h with
  | last hx _ => exact hhead _ _ _ hx
  | cons hx _ _ => exact hhead _ _ _ hx

theorem not_empty_members {ms : List (Points × Value)} (h : Members P cs ms rest) :
    (skip cs).head? ≠ some '\x7d' := by
  have hquote : ∀ {cs rest : List Char} {key : Points}, Key cs key rest →
      (skip cs).head? ≠ some '\x7d' := by
    rintro cs rest key ⟨inside, rest', hquote, -, -⟩
    rw [hquote]
    simp
  cases h with
  | last hkey _ _ => exact hquote hkey
  | cons hkey _ _ _ => exact hquote hkey

theorem spells_head (h : Spells limit cs v rest) :
    cs.head? ≠ some ']' ∧ rest.length < cs.length := by
  have hscalar : ∀ {cs v rest}, Scalar cs v rest → cs.head? ≠ some ']' ∧ rest.length < cs.length := by
    intro cs v rest h
    obtain ⟨⟨c, more, rfl, hc⟩, hlt⟩ := scalar_head h
    exact ⟨fun hclose => hc (Or.inr (Option.some.inj hclose)), hlt⟩
  induction limit generalizing cs v rest with
  | zero => exact hscalar h
  | succ limit ih =>
      rcases h with h | h
      · exact hscalar h
      · refine ⟨?_, nested_shorter (fun _ _ _ hx => (ih hx).2) h⟩
        cases h <;> simp

theorem readNested_of_nested
    (hvalue : ∀ cs v rest, P cs v rest → Ends rest → value cs = .ok (v, rest))
    (hshorter : ∀ cs v rest, P cs v rest → cs.head? ≠ some ']' ∧ rest.length < cs.length)
    (h : Nested P cs v rest) :
    ∃ c more, cs = c :: more ∧ (c = '[' ∨ c = '\x7b') ∧ readNested value c more = .ok (v, rest) := by
  cases h with
  | emptyArr h =>
      refine ⟨_, _, rfl, Or.inl rfl, ?_⟩
      rw [readNested, if_pos rfl, h]
      exact if_pos rfl
  | arr h =>
      refine ⟨_, _, rfl, Or.inl rfl, ?_⟩
      rw [readNested, if_pos rfl, if_neg (not_empty_items (fun _ _ _ hx => (hshorter _ _ _ hx).1) h),
        readItems_of_items hvalue h (items_shorter (fun _ _ _ hx => (hshorter _ _ _ hx).2) h).1]
      rfl
  | emptyObj h =>
      refine ⟨_, _, rfl, Or.inr rfl, ?_⟩
      rw [readNested, if_neg (by decide), h]
      exact if_pos rfl
  | obj h hkeys =>
      refine ⟨_, _, rfl, Or.inr rfl, ?_⟩
      rw [readNested, if_neg (by decide), if_neg (not_empty_members h),
        readMembers_of_members hvalue h (members_shorter (fun _ _ _ hx => (hshorter _ _ _ hx).2) h).1]
      exact if_pos hkeys

/-- What is spelled within the limit is what the reader answers. -/
theorem readValue_of_spells (h : Spells limit cs v rest) (hrest : Ends rest) :
    readValue limit cs = .ok (v, rest) := by
  induction limit generalizing cs v rest with
  | zero =>
      obtain ⟨c, more, rfl, hc⟩ := (scalar_head h).1
      rw [readValue, if_neg fun hopen => hc (Or.inl hopen)]
      exact readScalar_of_scalar h hrest
  | succ limit ih =>
      rcases h with h | h
      · obtain ⟨c, more, rfl, hc⟩ := (scalar_head h).1
        rw [readValue, if_neg fun hopen => hc (Or.inl hopen)]
        exact readScalar_of_scalar h hrest
      · obtain ⟨c, more, rfl, hopen, hread⟩ :=
          readNested_of_nested (P := Spells limit) (fun _ _ _ => ih) (fun _ _ _ => spells_head) h
        rw [readValue, if_pos hopen]
        exact hread

theorem ends_of_blank (h : skip rest = []) : Ends rest := by
  intro c hc
  obtain ⟨c', rest, rfl⟩ := List.exists_cons_of_ne_nil (l := rest) (by rintro rfl; cases hc)
  obtain rfl := Option.some.inj hc
  have hb : blank c' = true := by
    by_contra hb
    rw [skip, List.dropWhile_cons_of_neg hb] at h
    cases h
  simp only [blank, Bool.or_eq_true, decide_eq_true_eq] at hb
  rcases hb with ((rfl | rfl) | rfl) | rfl <;> decide

theorem loads_of_spells (h : Spells limit (skip cs) v rest) (hend : skip rest = []) :
    loads limit cs = .ok v := by
  rw [loads, readValue_of_spells h (ends_of_blank hend)]
  exact if_pos hend

/-! ## Flat objects -/

def Value.flat : Value → Bool
  | .arr _ => false
  | .obj _ => false
  | _ => true

theorem scalar_of_spells (h : Spells limit cs v rest) (hflat : v.flat = true) : Scalar cs v rest := by
  cases limit with
  | zero => exact h
  | succ limit =>
      rcases h with h | h
      · exact h
      · cases h <;> cases hflat

theorem Scalar.spells (h : Scalar cs v rest) (limit : Nat) : Spells limit cs v rest := by
  cases limit with
  | zero => exact h
  | succ limit => exact Or.inl h

theorem Members.mono {P Q : List Char → Value → List Char → Prop} {ms : List (Points × Value)}
    (h : Members P cs ms rest) (hPQ : ∀ cs v rest, (∃ m ∈ ms, m.2 = v) → P cs v rest → Q cs v rest) :
    Members Q cs ms rest := by
  induction h with
  | last hkey hx hclose => exact .last hkey (hPQ _ _ _ ⟨_, List.mem_cons_self, rfl⟩ hx) hclose
  | cons hkey hx hcomma _ ih =>
      refine .cons hkey (hPQ _ _ _ ⟨_, List.mem_cons_self, rfl⟩ hx) hcomma (ih ?_)
      rintro cs v rest ⟨m, hm, rfl⟩
      exact hPQ cs _ rest ⟨m, List.mem_cons_of_mem _ hm, rfl⟩

/-- An object of scalars needs no more than one level. -/
theorem loads_flat {ms : List (Points × Value)} (h : IsText cs (.obj ms))
    (hflat : ∀ m ∈ ms, m.2.flat = true) (hlimit : 0 < limit) : loads limit cs = .ok (.obj ms) := by
  obtain ⟨limit, rfl⟩ := Nat.exists_eq_add_of_le' hlimit
  obtain ⟨depth, rest, hspells, hend⟩ := h
  have hscalar : ∀ {cs rest}, ¬ Scalar cs (.obj ms) rest := by
    intro cs rest h
    cases h
  cases depth with
  | zero => exact absurd hspells hscalar
  | succ depth =>
      refine loads_of_spells (Or.inr ?_) hend
      have hnested := hspells.resolve_left hscalar
      generalize skip cs = text at hnested ⊢
      cases hnested with
      | emptyObj h => exact .emptyObj h
      | obj h hkeys =>
          refine .obj (h.mono ?_) hkeys
          rintro cs v rest ⟨m, hm, rfl⟩ hspells
          exact (scalar_of_spells hspells (hflat m hm)).spells limit

end OufGateway.Lib.JsonText
