import OufGateway.Lib.Json

/-!
# Reading a document the way a program does

What `json.loads` gave is read by `value[key]`, by iterating over it, and by the
methods of a text. Where the value is not of the kind that has it, the program
raises; which of its exceptions a caller catches is up to the caller.
-/

namespace OufGateway.Lib

inductive PyError
  | osError
  /-- `ValueError`, and with it `JSONDecodeError` and `UnicodeDecodeError`. -/
  | valueError (text : String)
  | keyError
  /-- `TypeError` or `AttributeError`. -/
  | typeError
  /-- `subprocess.CalledProcessError`. -/
  | calledProcessError
  | nameError (name : String)
deriving DecidableEq

namespace PyAccess

abbrev Run := Except PyError

def orElse {α : Type} (value : Option α) (e : PyError) : Run α :=
  match value with
  | some a => .ok a
  | none => .error e

/-- `if c: raise ValueError(text)`. -/
def blockIf (c : Bool) (text : String) : Run Unit := if c then .error (.valueError text) else .ok ()

/-- `value[key]`. -/
def item : Json → String → Run Json
  | .obj members, key => orElse (Json.ofLookup members key) .keyError
  | _, _ => .error .typeError

/-- What `for .. in value` goes over. -/
def iterate : Json → Run (List Json)
  | .arr items => .ok items
  | .obj members => .ok (members.map fun m => .str m.1)
  | .str s => .ok (s.toList.map fun c => .str (String.singleton c))
  | _ => .error .typeError

/-- A value that is asked for a method of a text. -/
def text : Json → Run String
  | .str s => .ok s
  | _ => .error .typeError

def hashable : Json → Bool
  | .arr _ => false
  | .obj _ => false
  | _ => true

/-- The entries of a dictionary whose keys are values, newest last. -/
abbrev Entries := List (Json × Json)

/-- `{key(x): value(x) for x in items}`, an old key keeping its place. -/
def setEntry (d : Entries) (key value : Json) : Entries :=
  if d.any fun e => e.1.eqv key then d.map fun e => if e.1.eqv key then (e.1, value) else e
  else d ++ [(key, value)]

def dictOf (key value : Json → Run Json) : List Json → Entries → Run Entries
  | [], d => .ok d
  | x :: xs, d => do
    let k ← key x
    let v ← value x
    if hashable k then dictOf key value xs (setEntry d k v) else .error .typeError

def lookup (d : Entries) (key : String) : Run Json :=
  orElse ((d.find? fun e => e.1.eqv (.str key)).map (·.2)) .keyError

/-- `set(d) == set(keys)`. -/
def keysAre (d : Entries) (keys : List String) : Bool :=
  (d.all fun e => keys.any fun k => e.1.eqv (.str k)) &&
    keys.all fun k => d.any fun e => e.1.eqv (.str k)

/-- `d == d'` of two dictionaries. -/
def sameEntries (d d' : Entries) : Bool :=
  d.length = d'.length && d.all fun e => d'.any fun e' => e.1.eqv e'.1 && e.2.eqv e'.2

end PyAccess

end OufGateway.Lib
