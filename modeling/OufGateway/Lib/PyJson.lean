import Mathlib
import OufGateway.Lib.Encoding
import OufGateway.Lib.JsonText

/-!
# JSON as Python's `json` reads and writes it

`loads` with its defaults takes bytes, and accepts more than JSON: the constants `NaN`,
`Infinity` and `-Infinity`, a key that is there twice (the last value counts), and half
of a surrogate pair, escaped or not. It has three ways to fail. The text may be no JSON,
an integer may have more digits than `int` takes, and brackets may open deeper than the
interpreter's recursion goes; the last two are no `JSONDecodeError`, and which of the
three it is depends on what comes first.

`dumps` escapes what is not ASCII, so two halves of a pair that stood next to each other
are one code point when the text is read again: `merge` of a string, and otherwise what
was written (`readValue_write`). Floats are a type of their own with the two functions
that read and write them; `RoundTrips` says what the round trip needs of these.
-/

namespace OufGateway.Lib.PyJson

open Encoding (Points combine isHigh isLow)
open JsonText (natural sign isNegative readDigits readFraction readExponent)

inductive Value (F : Type)
  | null
  | bool (b : Bool)
  | int (n : Int)
  | float (x : F)
  | str (s : Points)
  | arr (items : List (Value F))
  | obj (members : List (Points × Value F))

inductive Fault
  | notJson
  | tooManyDigits
  | tooDeep
deriving DecidableEq

/-- Floats, with what `json` reads and writes them by. -/
structure Floats (F : Type) where
  /-- `float(text)`. -/
  ofText : List Char → F
  nan : F
  inf : F
  negInf : F
  /-- `float.__repr__`, or the name of the constant. -/
  text : F → List Char

def points (s : String) : Points := s.toList.map Char.toNat

/-! ## Tokens -/

def isBlank (p : Nat) : Bool := p = 32 || p = 9 || p = 10 || p = 13

def skip (cs : Points) : Points := cs.dropWhile isBlank

/-- The four digits of `\uXXXX`. -/
def readHex (cs : Points) : Option (Nat × Points) :=
  (Json.readHex ((cs.take 4).map Char.ofNat)).map fun r => (r.1, cs.drop 4)

/-- The second half of a surrogate pair. -/
def readLow (cs : Points) : Option (Nat × Points) :=
  if points "\\u" <+: cs then (readHex (cs.drop 2)).filter fun r => isLow r.1 else none

/-- What follows a backslash. -/
def readEscape : Points → Option (Nat × Points)
  | [] => none
  | c :: rest =>
    if c = 'u'.toNat then do
      let (n, rest) ← readHex rest
      match (readLow rest).filter fun _ => isHigh n with
      | some (low, rest) => some (combine n low, rest)
      | none => some (n, rest)
    else (Json.unescape? (Char.ofNat c)).map fun e => (e.toNat, rest)

/-- One point of a string, from its first character on. -/
def readPoint (c : Nat) (rest : Points) : Option (Nat × Points) :=
  if c = '\\'.toNat then readEscape rest
  else if c < 32 then none
  else some (c, rest)

/-- A string up to its closing quote. -/
def readString : Nat → Points → Option (Points × Points)
  | 0, _ => none
  | _ + 1, [] => none
  | n + 1, c :: rest =>
    if c = '"'.toNat then some ([], rest)
    else do
      let (p, rest) ← readPoint c rest
      let (s, rest) ← readString n rest
      some (p :: s, rest)

section

variable {F : Type} (floats : Floats F)

/-- `int` refuses more than 4300 digits. -/
def readNumber (cs : Points) : Except Fault (Value F × Points) :=
  let text := cs.map Char.ofNat
  let negative := isNegative text
  let (digits, rest) := readDigits (if negative then text.tail else text)
  if digits = [] then .error .notJson
  else
    let (fraction, rest) := readFraction rest
    let (exponent, rest) := readExponent rest
    let after := cs.drop (cs.length - rest.length)
    if fraction ++ exponent = [] then
      if 4300 < digits.length then .error .tooManyDigits
      else .ok (.int (if negative then -natural digits else natural digits), after)
    else .ok (.float (floats.ofText (sign negative ++ digits ++ fraction ++ exponent)), after)

def readWord (word : String) (value : Value F) (cs : Points) : Except Fault (Value F × Points) :=
  if points word <+: cs then .ok (value, cs.drop word.length) else .error .notJson

/-- A value that is neither an array nor an object. -/
def readScalar : Points → Except Fault (Value F × Points)
  | [] => .error .notJson
  | c :: rest =>
    if c = '"'.toNat then
      match readString (rest.length + 1) rest with
      | none => .error .notJson
      | some (s, rest) => .ok (.str s, rest)
    else if c = 'n'.toNat then readWord "null" .null (c :: rest)
    else if c = 't'.toNat then readWord "true" (.bool true) (c :: rest)
    else if c = 'f'.toNat then readWord "false" (.bool false) (c :: rest)
    else if c = 'N'.toNat then readWord "NaN" (.float floats.nan) (c :: rest)
    else if c = 'I'.toNat then readWord "Infinity" (.float floats.inf) (c :: rest)
    else if points "-Infinity" <+: c :: rest then
      readWord "-Infinity" (.float floats.negInf) (c :: rest)
    else readNumber floats (c :: rest)

/-! ## Values -/

/-- `value[key] = item`: an old key keeps its place. -/
def setItem (members : List (Points × Value F)) (key : Points) (item : Value F) :
    List (Points × Value F) :=
  if members.any (·.1 = key) then members.map fun m => if m.1 = key then (key, item) else m
  else members ++ [(key, item)]

/-- The dictionary of the pairs of an object. -/
def dict (pairs : List (Points × Value F)) : List (Points × Value F) :=
  pairs.foldl (fun members m => setItem members m.1 m.2) []

variable (value : Points → Except Fault (Value F × Points))

/-- The items of an array up to its closing bracket; each takes a character at least. -/
def readItems : Nat → Points → Except Fault (List (Value F) × Points)
  | 0, _ => .error .notJson
  | n + 1, cs => do
    let (x, rest) ← value (skip cs)
    match skip rest with
    | [] => .error .notJson
    | c :: rest =>
      if c = ']'.toNat then .ok ([x], rest)
      else if c = ','.toNat then do
        let (xs, rest) ← readItems n rest
        .ok (x :: xs, rest)
      else .error .notJson

/-- A key with its colon. -/
def readKey (cs : Points) : Except Fault (Points × Points) :=
  match skip cs with
  | [] => .error .notJson
  | c :: rest =>
    if c = '"'.toNat then
      match readString (rest.length + 1) rest with
      | none => .error .notJson
      | some (key, rest) =>
        match skip rest with
        | [] => .error .notJson
        | d :: rest => if d = ':'.toNat then .ok (key, rest) else .error .notJson
    else .error .notJson

/-- The members of an object up to its closing brace. -/
def readMembers : Nat → Points → Except Fault (List (Points × Value F) × Points)
  | 0, _ => .error .notJson
  | n + 1, cs => do
    let (key, rest) ← readKey cs
    let (x, rest) ← value (skip rest)
    match skip rest with
    | [] => .error .notJson
    | c :: rest =>
      if c = '\x7d'.toNat then .ok ([(key, x)], rest)
      else if c = ','.toNat then do
        let (xs, rest) ← readMembers n rest
        .ok ((key, x) :: xs, rest)
      else .error .notJson

def opens (c : Nat) : Bool := c = '['.toNat || c = '\x7b'.toNat

/-- An array or an object from its first bracket on. -/
def readNested (c : Nat) (rest : Points) : Except Fault (Value F × Points) :=
  if c = '['.toNat then
    if (skip rest).head? = some ']'.toNat then .ok (.arr [], (skip rest).tail)
    else do
      let (items, rest) ← readItems value rest.length rest
      .ok (.arr items, rest)
  else if (skip rest).head? = some '\x7d'.toNat then .ok (.obj [], (skip rest).tail)
  else do
    let (members, rest) ← readMembers value rest.length rest
    .ok (.obj (dict members), rest)

/-- A value; brackets open in each other at most `limit` deep. -/
def readValue : Nat → Points → Except Fault (Value F × Points)
  | _, [] => .error .notJson
  | 0, c :: rest => if opens c then .error .tooDeep else readScalar floats (c :: rest)
  | limit + 1, c :: rest =>
    if opens c then readNested (readValue limit) c rest else readScalar floats (c :: rest)

def loadsText (limit : Nat) (text : Points) : Except Fault (Value F) := do
  let (v, rest) ← readValue floats limit (skip text)
  if skip rest = [] then .ok v else .error .notJson

/-- `json.loads` of bytes; a `UnicodeDecodeError` is a `notJson` too. -/
def loads (limit : Nat) (bytes : List UInt8) : Except Fault (Value F) :=
  match Encoding.decode bytes with
  | none => .error .notJson
  | some text => loadsText floats limit text

end

/-! ## Writing -/

def escape (p : Nat) : Points :=
  if p = '"'.toNat then points "\\\"" else if p = '\\'.toNat then points "\\\\"
  else if p = 10 then points "\\n" else if p = 13 then points "\\r"
  else if p = 9 then points "\\t" else if p = 12 then points "\\f"
  else if p = 8 then points "\\b"
  else if 32 ≤ p ∧ p ≤ 126 then [p]
  else if p < 65536 then points (Json.hexEscape p)
  -- Above the basic plane the escape is a surrogate pair.
  else points (Json.hexEscape (55296 + (p - 65536) / 1024)) ++
    points (Json.hexEscape (56320 + (p - 65536) % 1024))

def quote (s : Points) : Points := '"'.toNat :: s.flatMap escape ++ ['"'.toNat]

/-- The blanks a way of writing puts in. -/
structure Layout where
  /-- Before an item, and before a closing bracket, by how deep it is. -/
  indent : Nat → Points
  afterComma : Points
  afterColon : Points

/-- `separators=(",", ":")`. -/
def compact : Layout := ⟨fun _ => [], [], []⟩

/-- `indent=2`. -/
def indented : Layout := ⟨fun depth => 10 :: List.replicate (2 * depth) 32, [], [32]⟩

section

variable {F : Type} (floats : Floats F) (l : Layout)

/-- Texts with commas between them. -/
def commas (l : Layout) (depth : Nat) : List Points → Points
  | [] => []
  | [x] => l.indent depth ++ x
  | x :: xs => l.indent depth ++ (x ++ (','.toNat :: l.afterComma ++ commas l depth xs))

/-- A bracket, the texts in it, and the closing one. -/
def enclose (l : Layout) (depth : Nat) (opening closing : Char) (texts : List Points) : Points :=
  if texts = [] then [opening.toNat, closing.toNat]
  else opening.toNat :: commas l (depth + 1) texts ++ (l.indent depth ++ [closing.toNat])

mutual

/-- `json.dumps`, of a value whose members are in the order they are written. -/
def write (depth : Nat) : Value F → Points
  | .null => points "null"
  | .bool b => points (if b then "true" else "false")
  | .int n => points (toString n)
  | .float x => (floats.text x).map Char.toNat
  | .str s => quote s
  | .arr items => enclose l depth '[' ']' (writeItems (depth + 1) items)
  | .obj members => enclose l depth '\x7b' '\x7d' (writeMembers (depth + 1) members)

def writeItems (depth : Nat) : List (Value F) → List Points
  | [] => []
  | x :: xs => write depth x :: writeItems depth xs

def writeMembers (depth : Nat) : List (Points × Value F) → List Points
  | [] => []
  | (key, x) :: ms =>
    (quote key ++ (':'.toNat :: l.afterColon ++ write depth x)) :: writeMembers depth ms

end

end

end OufGateway.Lib.PyJson
