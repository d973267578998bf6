import Mathlib

/-!
# JSON values and their text

The values a Python program passes to `json.dumps`, and the text `dumps`
gives for them: the two separators, the `sort_keys` and `ensure_ascii`
options, and the escapes of each. A float carries the digits `repr` prints,
next to its value, and an object is a list of members in the order the
dictionary has them. `Json.eqv` is Python's `==`, which does not look at that
order and compares `True`, `1` and `1.0` equal. Any other Python object is an
`object`: it can be passed around and compared with itself, and `dumps` refuses
it, which `serializable` says.
-/

namespace OufGateway.Lib

inductive Json where
  | null
  | bool (b : Bool)
  | int (n : Int)
  | float (q : ℚ) (digits : String)
  | str (s : String)
  | arr (items : List Json)
  | obj (members : List (String × Json))
  | object (tag : Nat)

namespace Json

def ofOption : Option String → Json
  | none => null
  | some s => str s

def ofLookup (members : List (String × Json)) (key : String) : Option Json :=
  (members.find? (·.1 = key)).map (·.2)

/-- `value.get(key)` of a dictionary; anything else has no members. -/
def get? : Json → String → Option Json
  | obj members, key => ofLookup members key
  | _, _ => none

def isObj : Json → Bool
  | obj _ => true
  | _ => false

/-- `value is True`. -/
def isTrue : Json → Bool
  | bool b => b
  | _ => false

/-- `bool(value)`. -/
def truthy : Json → Bool
  | null => false
  | bool b => b
  | int n => n ≠ 0
  | float q _ => q ≠ 0
  | str s => s ≠ ""
  | arr items => !items.isEmpty
  | obj members => !members.isEmpty
  | object _ => true

/-- `value[key] = item` of a dictionary: an old key keeps its place. -/
def setItem (value : Json) (key : String) (item : Json) : Json :=
  match value with
  | obj members =>
    if members.any (·.1 = key) then
      obj (members.map fun m => if m.1 = key then (key, item) else m)
    else obj (members ++ [(key, item)])
  | _ => value

/-! ## Equality -/

/-- The number a value is for `==`, if it is one. -/
def number? : Json → Option ℚ
  | bool b => some (if b then 1 else 0)
  | int n => some n
  | float q _ => some q
  | _ => none

mutual

def eqv : Json → Json → Bool
  | null, null => true
  | str s, str t => s = t
  | arr xs, arr ys => eqvList xs ys
  | obj xs, obj ys => xs.length = ys.length && eqvMembers xs ys
  | object m, object n => m = n
  | x, y => x.number?.isSome && x.number? = y.number?

def eqvList : List Json → List Json → Bool
  | [], [] => true
  | x :: xs, y :: ys => eqv x y && eqvList xs ys
  | _, _ => false

def eqvMembers : List (String × Json) → List (String × Json) → Bool
  | [], _ => true
  | (k, x) :: xs, ys =>
    (match ofLookup ys k with
      | some y => eqv x y
      | none => false) && eqvMembers xs ys

end

/-! ## Text -/

mutual

def serializable : Json → Bool
  | arr items => serializableList items
  | obj members => serializableMembers members
  | object _ => false
  | _ => true

def serializableList : List Json → Bool
  | [] => true
  | x :: xs => serializable x && serializableList xs

def serializableMembers : List (String × Json) → Bool
  | [] => true
  | (_, x) :: xs => serializable x && serializableMembers xs

end

/-- The options of `json.dumps` a program sets. -/
structure Format where
  itemSeparator : String := ", "
  keySeparator : String := ": "
  sortKeys : Bool := false
  ensureAscii : Bool := true

def hexDigit (n : Nat) : Char := "0123456789abcdef".toList.getD n '0'

/-- `\uXXXX`. -/
def hexEscape (n : Nat) : String :=
  String.ofList ['\\', 'u', hexDigit (n / 4096 % 16), hexDigit (n / 256 % 16),
    hexDigit (n / 16 % 16), hexDigit (n % 16)]

def escapeChar (ensureAscii : Bool) (c : Char) : String :=
  if c = '"' then "\\\"" else if c = '\\' then "\\\\"
  else if c = '\n' then "\\n" else if c = '\r' then "\\r" else if c = '\t' then "\\t"
  else if c.toNat = 12 then "\\f" else if c.toNat = 8 then "\\b"
  else if c.toNat < 32 then hexEscape c.toNat
  else if ensureAscii = true ∧ 126 < c.toNat then
    -- Above the basic plane the escape is a surrogate pair.
    if c.toNat < 65536 then hexEscape c.toNat
    else hexEscape (55296 + (c.toNat - 65536) / 1024) ++
      hexEscape (56320 + (c.toNat - 65536) % 1024)
  else String.singleton c

def quote (ensureAscii : Bool) (s : String) : String :=
  "\"" ++ String.join (s.toList.map (escapeChar ensureAscii)) ++ "\""

/-- The members of an object in the order they are written. -/
def arrange (f : Format) (members : List (String × String)) : List (String × String) :=
  if f.sortKeys then members.mergeSort fun a b => decide (a.1 ≤ b.1) else members

def render (f : Format) (member : String × String) : String :=
  quote f.ensureAscii member.1 ++ f.keySeparator ++ member.2

mutual

def dumps (f : Format) : Json → String
  | null => "null"
  | object _ => ""
  | bool b => if b then "true" else "false"
  | int n => toString n
  | float _ digits => digits
  | str s => quote f.ensureAscii s
  | arr items => "[" ++ f.itemSeparator.intercalate (dumpsList f items) ++ "]"
  | obj members =>
    "\x7b" ++ f.itemSeparator.intercalate ((arrange f (dumpsMembers f members)).map (render f))
      ++ "\x7d"

def dumpsList (f : Format) : List Json → List String
  | [] => []
  | x :: xs => dumps f x :: dumpsList f xs

def dumpsMembers (f : Format) : List (String × Json) → List (String × String)
  | [] => []
  | (k, x) :: xs => (k, dumps f x) :: dumpsMembers f xs

end

end Json

end OufGateway.Lib
