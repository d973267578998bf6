import OufGateway.Lib.Json
import OufGateway.Lib.LuaString
import OufGateway.Lib.Text
import OufGateway.Ref.Delegation

/-!
# The arguments of searches and reads

The `Arguments` of an envelope are checked twice: by the schema of the route, in
`request-validation`, and by the executor, on the table `cjson.decode` makes of them.
Here are the schemas of the object search and of the two semantic reads, and the
checks of `execute_object_search.lua` and `execute_semantic_read.lua` that end in a
400. The schemas count code points and the executors bytes. A `$` matches before a
final line break, and `format` is enforced: a UUID is 32 hexadecimal digits in groups
of 8, 4, 4, 4 and 12.
-/

namespace OufGateway.ReadArguments

open OufGateway.Lib
open Delegation (isWordByte)
open Lua (Bytes Value isControl)
open LuaString (utf8Point)

/-! ## The schemas -/

/-- An object with the required properties and no others than the given ones. -/
def object (required : List String) (properties : List (String × (Json → Bool))) : Json → Bool
  | .obj members =>
    (required.all fun k => members.any (·.1 = k)) &&
      members.all fun m => properties.any fun p => p.1 = m.1 && p.2 m.2
  | _ => false

def string (least most : Nat) (rest : String → Bool) : Json → Bool
  | .str s => least ≤ s.length && s.length ≤ most && rest s
  | _ => false

def integer (least most : Int) : Json → Bool
  | .int n => least ≤ n && n ≤ most
  | .float q _ => q.den = 1 && least ≤ q && q ≤ most
  | _ => false

/-- `^[^*%\x00-\x1f]+$`. -/
def typePattern (s : String) : Bool := Text.wholly (fun c => c ≠ '*' && c ≠ '%' && 31 < c.toNat) s

/-- `^[A-Za-z0-9_-]+$`. -/
def cursorPattern (s : String) : Bool := Text.wholly (fun c => c.isAlphanum || c = '_' || c = '-') s

def isHex (c : Char) : Bool := c.isDigit || ['a', 'b', 'c', 'd', 'e', 'f', 'A', 'B', 'C', 'D', 'E', 'F'].contains c

/-- `format: uuid`. -/
def uuidFormat (s : String) : Bool :=
  s.length = 36 && s.toList.zipIdx.all fun c => if [8, 13, 18, 23].contains c.2 then c.1 = '-' else isHex c.1

def uuid : Json → Bool
  | .str s => uuidFormat s
  | _ => false

def semanticKinds : List String := ["CLASS", "PROPERTY", "RELATIONSHIP", "VOCABULARY", "CONCEPT", "ONTOLOGY"]

def kind : Json → Bool
  | .str s => semanticKinds.contains s
  | _ => false

/-- `Arguments` of `mcp-gateway-object-search-dispatch-v1.json`. -/
def objectSearchSchema : Json → Bool :=
  object ["type"]
    [("type", string 1 128 typePattern), ("pageSize", integer 1 100), ("cursor", string 1 128 cursorPattern)]

/-- `Arguments` of `mcp-gateway-semantic-search-dispatch-v1.json`. -/
def semanticSearchSchema : Json → Bool :=
  object ["q"]
    [("q", string 1 256 fun _ => true), ("limit", integer 1 100), ("type", kind),
      ("namespace", string 1 512 fun _ => true), ("domain", string 1 2048 fun _ => true),
      ("range", string 1 2048 fun _ => true)]

/-- `Arguments` of `mcp-gateway-semantic-get-dispatch-v1.json`. -/
def semanticGetSchema : Json → Bool :=
  object ["semanticId", "revisionId", "publicationSetId"]
    [("semanticId", string 1 2048 fun _ => true), ("revisionId", uuid), ("publicationSetId", uuid)]

/-! ## What `cjson.decode` makes of them -/

/-- The bytes of a text. -/
def bytes (s : String) : Bytes := s.toList.flatMap fun c => utf8Point c.toNat

mutual

def decoded : Json → Value
  | .null => .other
  | .bool b => .bool b
  | .int n => .number (.finite n)
  | .float q _ => .number (.finite q)
  | .str s => .string (bytes s)
  | .arr items => Lua.list (decodedItems items)
  | .obj members => .table (decodedMembers members) 0
  | .object _ => .other

def decodedItems : List Json → List Value
  | [] => []
  | v :: vs => decoded v :: decodedItems vs

def decodedMembers : List (String × Json) → List (Value × Value)
  | [] => []
  | (k, v) :: members => (.string (bytes k), decoded v) :: decodedMembers members

end

/-! ## The executors -/

/-- `[%x-]`. -/
def isHexByte (b : UInt8) : Bool :=
  48 ≤ b && b ≤ 57 || 65 ≤ b && b ≤ 70 || 97 ≤ b && b ≤ 102 || b = 45

/-- A string of one byte at least and no more than `most`. -/
def sized (most : Nat) (rest : Bytes → Bool) : Value → Bool
  | .string s => 1 ≤ s.length && s.length ≤ most && rest s
  | _ => false

/-- A number from 1 to 100, and whole. -/
def wholeTo100 : Value → Bool
  | .number (.finite q) => q.den = 1 && 1 ≤ q && q ≤ 100
  | _ => false

/-- `v ~= nil and ...` does not hold. -/
def optional (check : Value → Bool) : Value → Bool
  | .nil => true
  | v => check v

def entriesOf : Value → Option (List (Value × Value))
  | .table entries _ => some entries
  | _ => none

def keyIn (keys : List String) (k : Value) : Bool := keys.any fun name => k.isString (bytes name)

/-- Lines 36 to 40 of `execute_object_search.lua` go through. -/
def objectSearchAccepts (a : Value) : Bool :=
  match entriesOf a with
  | none => false
  | some entries =>
    sized 128 (fun s => !s.any fun b => b = 42 || b = 37 || isControl b) (a.field (bytes "type")) &&
      optional wholeTo100 (a.field (bytes "pageSize")) &&
      optional (sized 128 (·.all isWordByte)) (a.field (bytes "cursor")) &&
      entries.all fun e => keyIn ["type", "pageSize", "cursor"] e.1

/-- `kinds[v]` of a string. -/
def knownKind : Value → Bool
  | .string s => semanticKinds.any fun name => s = bytes name
  | _ => false

/-- `allowed` where it is a number. -/
def allowedSizes : List (String × Nat) := [("namespace", 512), ("domain", 2048), ("range", 2048)]

/-- A turn of the loop over `pairs(a)` goes through. -/
def allowedEntry (e : Value × Value) : Bool :=
  keyIn ["q", "limit", "type"] e.1 ||
    allowedSizes.any fun size => e.1.isString (bytes size.1) && sized size.2 (fun _ => true) e.2

/-- Lines 41 to 51 of `execute_semantic_read.lua` go through. -/
def semanticSearchAccepts (a : Value) : Bool :=
  match entriesOf a with
  | none => false
  | some entries =>
    sized 256 (fun _ => true) (a.field (bytes "q")) && optional wholeTo100 (a.field (bytes "limit")) &&
      optional knownKind (a.field (bytes "type")) && entries.all allowedEntry

def luaUuid : Value → Bool
  | .string s => s.length = 36 && s.all isHexByte && [8, 13, 18, 23].all fun i => s[i]? == some 45
  | _ => false

/-- Lines 53 to 59 of `execute_semantic_read.lua` go through. -/
def semanticGetAccepts (a : Value) : Bool :=
  match entriesOf a with
  | none => false
  | some entries =>
    sized 2048 (fun _ => true) (a.field (bytes "semanticId")) && luaUuid (a.field (bytes "revisionId")) &&
      luaUuid (a.field (bytes "publicationSetId")) &&
      entries.all fun e => keyIn ["semanticId", "revisionId", "publicationSetId"] e.1

end OufGateway.ReadArguments
