import Mathlib
import OufGateway.Lib.Calendar
import OufGateway.Lib.JsonText
import OufGateway.Lib.IsoText
import OufGateway.Ref.Incidents
import OufGateway.Ref.Cursor

/-!
# The query of an owner request

`GatewayOperationalOwnerAPI._query`: what a body says, or how it is refused. The checks
stand in the order of the source, in one `try` up to the shape of a mode and after it
one by one, because a body that fails several of them is refused with the code of the
first. A dictionary is the list of its members, a string the list of its code points,
since a JSON escape may leave half of a surrogate pair behind.

Two things go past the handlers. The JSON reader gives up on brackets deeper than the
interpreter allows, with an error that is no `ValueError`, and a timestamp with an offset
may have no date in UTC at either end of the calendar.
-/

namespace OufGateway.Owner

open Lib Incidents
open Lib.JsonText (Points points Value)

/-- What the interpreter fixes: how deep its JSON reader follows brackets. -/
structure Interpreter where
  depth : Nat
  hdepth : 0 < depth

/-! ## Bodies -/

inductive Body
  | absent
  | bytes (b : ByteArray)
  | text (s : Points)

/-- The text of a body that has one in UTF-8. -/
def Body.decode : Body → Option String
  | .absent => some ""
  | .bytes b => String.fromUTF8? b
  | .text s => if ∀ p ∈ s, p.isValidChar then some (String.ofList (s.map Char.ofNat)) else none

/-! ## Identifiers in a query -/

/-- The zeros of the decimal digits, which stand in tens. -/
def decimalZeros : List Nat :=
  [48, 1632, 1776, 1984, 2406, 2534, 2662, 2790, 2918, 3046, 3174, 3302, 3430, 3558, 3664, 3792,
    3872, 4160, 4240, 6112, 6160, 6470, 6608, 6784, 6800, 6992, 7088, 7232, 7248, 42528, 43216,
    43264, 43472, 43504, 43600, 44016, 65296, 66720, 68912, 69734, 69872, 69942, 70096, 70384,
    70736, 70864, 71248, 71360, 71472, 71904, 72016, 72784, 73040, 73120, 73552, 92768, 92864,
    93008, 120782, 120792, 120802, 120812, 120822, 123200, 123632, 124144, 125264, 130032]

/-- The blanks `int` skips, those outside ASCII among them. -/
def isSpace (c : Char) : Bool :=
  let p := c.toNat
  (9 ≤ p && p ≤ 13) || p = 32 || p ∈ [133, 160, 5760, 8232, 8233, 8239, 8287, 12288] ||
    (8192 ≤ p && p ≤ 8202)

/-- A digit of any script becomes the digit it stands for. -/
def asciiDigit (c : Char) : Char :=
  match decimalZeros.find? fun z => z ≤ c.toNat && c.toNat < z + 10 with
  | some z => Char.ofNat (48 + (c.toNat - z))
  | none => c

/-- Digits with single underscores between them. -/
def hexDigits? : List Char → Option (List Nat)
  | [] => none
  | [c] => (Json.hexValue? c).map fun d => [d]
  | c :: d :: rest =>
    match Json.hexValue? c with
    | none => none
    | some n => (if d = '_' then hexDigits? rest else hexDigits? (d :: rest)).map (n :: ·)

/-- What `int(text,16)` skips in front of the digits. -/
def dropBase : List Char → List Char
  | '0' :: 'x' :: '_' :: cs => cs
  | '0' :: 'X' :: '_' :: cs => cs
  | '0' :: 'x' :: cs => cs
  | '0' :: 'X' :: cs => cs
  | cs => cs

/-- `int(text,16)` of a text without hyphens. -/
def hexInt? (cs : List Char) : Option Nat :=
  let cs := ((cs.dropWhile isSpace).reverse.dropWhile isSpace).reverse.map asciiDigit
  let cs := if cs.head? = some '+' then cs.tail else cs
  (hexDigits? (dropBase cs)).map fun digits => digits.foldl (fun n d => 16 * n + d) 0

/-- `uuid.UUID(text)`. No half of a surrogate pair is a digit, nor is what `Char.ofNat`
makes of it. -/
def Uuid.read? (s : Points) : Option Uuid :=
  let cs := without "uuid:".toList 0 (without "urn:".toList 0 (s.map Char.ofNat))
  let cs := ((cs.dropWhile isBrace).reverse.dropWhile isBrace).reverse.filter (· ≠ '-')
  if cs.length ≠ 32 then none else hexInt? cs

/-- `str(uuid.UUID(value)) == value`, and not the nil UUID. -/
def isCanonical : Value → Bool
  | .str s => (Uuid.read? s).any fun u => points u.text = s && u ≠ 0
  | _ => false

/-! ## Timestamps -/

/-- What `_since` raises. -/
inductive SinceFault
  | value
  | overflow
deriving DecidableEq

/-- How the store writes a time in UTC. -/
def stamp (d : DateTime) : String := String.ofList (d.isoformat ++ ['Z'])

/-- `text.replace("Z","+00:00")`. -/
def zulu (s : Points) : Points := s.flatMap fun p => if p = 90 then points "+00:00" else [p]

/-- The moment `_since` reads. -/
def moment? : Value → Option Int
  | .str s => (IsoText.fromisoformat (zulu s)).bind (·.moment?)
  | _ => none

/-- `_since`. -/
def readSince (v : Value) : Except SinceFault String :=
  match moment? v with
  | none => .error .value
  | some m =>
    match DateTime.ofInstant? m with
    | none => .error .overflow
    | some d => .ok (stamp d)

/-! ## Queries -/

abbrev Dict := List (Points × Value)

namespace Dict

def get? (q : Dict) (key : String) : Option Value := (q.find? (·.1 = points key)).map (·.2)

def has (q : Dict) (key : String) : Bool := (q.get? key).isSome

/-- Not `set(query) - names`. -/
def within (q : Dict) (names : List String) : Bool := q.all fun m => m.1 ∈ names.map points

/-- `set(query) == names`. -/
def exactly (q : Dict) (names : List String) : Bool := q.within names && names.all q.has

/-- `query[key] = value`, for a key that is there. -/
def set (q : Dict) (key : String) (v : Value) : Dict :=
  q.map fun m => if m.1 = points key then (m.1, v) else m

end Dict

def isNull : Value → Bool
  | .null => true
  | _ => false

/-- `value is True`. -/
def isTrue : Value → Bool
  | .bool b => b
  | _ => false

def isBool : Value → Bool
  | .bool _ => true
  | _ => false

def isString : Value → Bool
  | .str _ => true
  | _ => false

/-- The checks of the `try`: the keys of a path, and of the mode the keys choose. -/
def Dict.wellFormed (q : Dict) (incidents : Bool) : Bool :=
  q.within (if incidents then
      ["limit", "since", "state", "snapshot", "cursor", "coverage", "resumeFrom"]
    else ["limit", "since"]) &&
  q.all (fun m => !isNull m.2) &&
  (q.get? "coverage").all isTrue &&
  (if q.has "resumeFrom" then
      q.within ["resumeFrom", "limit"] && (q.get? "resumeFrom").any isCanonical
    else if q.has "cursor" then
      q.exactly (if q.has "coverage" then ["cursor", "coverage"] else ["cursor"]) &&
      (q.get? "cursor").any isString &&
      (!q.has "coverage" || (q.get? "cursor").any isCanonical)
    else if q.has "coverage" then
      (q.get? "snapshot").any isTrue && q.within ["snapshot", "coverage", "state", "limit"]
    else true) &&
  (q.get? "snapshot").all isBool

/-- The limit, where it is an `int` from 1 to 100. -/
def Dict.limit? (q : Dict) : Option Nat :=
  match q.get? "limit" with
  | none => some 50
  | some (.int n) => if 1 ≤ n ∧ n ≤ 100 then some n.toNat else none
  | some _ => none

def lifecycle? : Value → Option Lifecycle
  | .str s => [Lifecycle.opened, .recovering, .resolved].find? fun l => points l.text = s
  | _ => none

/-- What `_query` raises: its own rejection with status 400, or an error it lets pass. -/
inductive Refusal
  | rejected (code : String)
  | recursion
  | overflow
deriving DecidableEq

/-- The body as a dictionary. -/
def Body.load (py : Interpreter) (body : Body) : Except Refusal Dict :=
  let invalid : Refusal := .rejected "OPERATIONAL_QUERY_INVALID"
  match body.decode with
  | none => .error invalid
  | some s =>
    if s = "" then .ok []
    else if 65536 < s.utf8ByteSize then .error invalid
    else
      match JsonText.loads py.depth s.toList with
      | .error .recursion => .error .recursion
      | .error .value => .error invalid
      | .ok (.obj members) => .ok members
      | .ok _ => .error invalid

/-- The checks after the `try`. -/
def Dict.normalize (q : Dict) : Except Refusal Dict :=
  if q.limit?.isNone then .error (.rejected "OPERATIONAL_LIMIT_INVALID")
  else if (q.get? "state").any fun v => (lifecycle? v).isNone then
    .error (.rejected "OPERATIONAL_STATE_INVALID")
  else
    match q.get? "since" with
    | none => .ok q
    | some v =>
      match readSince v with
      | .error .value => .error (.rejected "OPERATIONAL_SINCE_INVALID")
      | .error .overflow => .error .overflow
      | .ok text => .ok (q.set "since" (.str (points text)))

/-- `_query`. -/
def readQuery (py : Interpreter) (body : Body) (incidents : Bool) : Except Refusal Dict :=
  match body.load py with
  | .error e => .error e
  | .ok q =>
    if q.wellFormed incidents then q.normalize
    else .error (.rejected "OPERATIONAL_QUERY_INVALID")

end OufGateway.Owner
