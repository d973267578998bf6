import OufGateway.Lib.LuaString

/-!
# The Lua the materializers write

A generated function is a fixed text with tables of literals in it, each literal what
`json.dumps` makes of a string. The pieces with literals are here as the texts that
are spliced in, and as what LuaJIT reads them as: a piece that is no Lua does not
load, and then the function it stands in does not either.
-/

namespace OufGateway.GeneratedLua

open OufGateway.Lib
open Encoding (Points encode)
open Lua (Bytes)
open LuaString (lexString)
open PyJson (points)

/-! ## Writing -/

/-- `lua_quote`, and what `function` calls under its own name. -/
def luaQuote (value : Points) : Points := PyJson.quote value

/-- `",".join(fields)`. -/
def commaJoin : List Points → Points
  | [] => []
  | [field] => field
  | field :: fields => field ++ points "," ++ commaJoin fields

def braces (fields : List Points) : Points := points "\x7b" ++ commaJoin fields ++ points "\x7d"

/-- `f"[{lua_quote(v)}]=true"`. -/
def keyField (v : Points) : Points := points "[" ++ luaQuote v ++ points "]=true"

/-- The declaration of a local table, up to the space behind it. -/
def tableLocal (name : String) (fields : List Points) : Points :=
  points ("local " ++ name ++ "=") ++ braces fields ++ points "; "

/-- The table of `trusted_pre_function`, and of `strip_untrusted_headers` for its fixed list. -/
def trustedPreFunction (headers : List Points) : Points := tableLocal "headers" (headers.map luaQuote)

/-- The two tables of `workload_guard`. -/
def workloadGuard (allowedServices allowedActors : List Points) : Points :=
  tableLocal "allowed_services" (allowedServices.map keyField) ++
    tableLocal "allowed_actors" (allowedActors.map keyField)

/-- The table of `trusted_post_function`. -/
def trustedPostFunction (allowedActors : List Points) : Points :=
  tableLocal "allowed" (allowedActors.map keyField)

/-- `f'local {k} = {json.dumps(v)}'` of `function`, with the line break behind it. -/
def constantLine (constant : String × Points) : Points :=
  points ("local " ++ constant.1 ++ " = ") ++ luaQuote constant.2 ++ points "\n"

/-- The constants a function of `delegation_functions` begins with. -/
def constants (values : List (String × Points)) : Points := values.flatMap constantLine

/-! ## Reading -/

/-- A fixed piece of the text. -/
def expect (text : String) (bytes : Bytes) : Option Bytes :=
  if encode (points text) <+: bytes then some (bytes.drop text.length) else none

/-- `["..."]=true`: the key. -/
def readKey (bytes : Bytes) : Option (Bytes × Bytes) := do
  let bytes ← expect "[" bytes
  let (key, bytes) ← lexString bytes
  let bytes ← expect "]=true" bytes
  some (key, bytes)

/-- The fields of a table up to the brace that closes it, one at least. -/
def readFields (field : Bytes → Option (Bytes × Bytes)) : Nat → Bytes → Option (List Bytes × Bytes)
  | 0, _ => none
  | n + 1, bytes => do
    let (v, bytes) ← field bytes
    match expect "," bytes with
    | some bytes => do
      let (vs, bytes) ← readFields field n bytes
      some (v :: vs, bytes)
    | none => do
      let bytes ← expect "\x7d" bytes
      some ([v], bytes)

def readTable (field : Bytes → Option (Bytes × Bytes)) (bytes : Bytes) : Option (List Bytes × Bytes) := do
  let bytes ← expect "\x7b" bytes
  match expect "\x7d" bytes with
  | some bytes => some ([], bytes)
  | none => readFields field bytes.length bytes

def readTableLocal (name : String) (field : Bytes → Option (Bytes × Bytes)) (bytes : Bytes) :
    Option (List Bytes × Bytes) := do
  let bytes ← expect ("local " ++ name ++ "=") bytes
  let (vs, bytes) ← readTable field bytes
  let bytes ← expect "; " bytes
  some (vs, bytes)

/-- The headers a pre function clears, if it loads. -/
def loadPreFunction (text : Points) : Option (List Bytes) :=
  (readTableLocal "headers" lexString (encode text)).map (·.1)

/-- The keys of the two tables of a guard, if it loads. -/
def loadGuard (text : Points) : Option (List Bytes × List Bytes) := do
  let (services, bytes) ← readTableLocal "allowed_services" readKey (encode text)
  let (actors, _) ← readTableLocal "allowed_actors" readKey bytes
  some (services, actors)

/-- The actors a post function allows, if it loads. -/
def loadPostFunction (text : Points) : Option (List Bytes) :=
  (readTableLocal "allowed" readKey (encode text)).map (·.1)

def readConstants : List String → Bytes → Option (List Bytes × Bytes)
  | [], bytes => some ([], bytes)
  | name :: names, bytes => do
    let bytes ← expect ("local " ++ name ++ " = ") bytes
    let (value, bytes) ← lexString bytes
    let bytes ← expect "\n" bytes
    let (values, bytes) ← readConstants names bytes
    some (value :: values, bytes)

end OufGateway.GeneratedLua
