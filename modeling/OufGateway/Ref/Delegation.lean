import OufGateway.Lib.Base64
import OufGateway.Lib.Lua

/-!
# Delegation

The functions of `delegation.lua` that both ends of a delegation share. A function
that the source lets return `nil` returns `none` here.
-/

namespace OufGateway.Delegation

open OufGateway.Lib
open OufGateway.Lib.Lua

/-! ## Texts -/

/-- The string that `text` lets through. -/
def text : Value → Option Bytes
  | .string s => if 0 < s.length ∧ s.length ≤ 4096 ∧ s.all (fun b => !isControl b) then some s else none
  | _ => none

def scopeHas (scopes : Value) (wanted : Bytes) : Bool :=
  match scopes with
  | .string s => wanted ∈ words s
  | _ => false

def audienceHas (aud : Value) (wanted : Bytes) : Bool :=
  match aud with
  | .string s => s = wanted
  | .table _ _ => aud.ipairs.any (·.isString wanted)
  | _ => false

/-! ## Role references -/

/-- A letter, a digit, or one of `_`, `:`, `.`, `/` and `-`. -/
def roleByte (b : UInt8) : Bool :=
  65 ≤ b && b ≤ 90 || 97 ≤ b && b ≤ 122 || 48 ≤ b && b ≤ 57 || b = 95 || b = 58 || b = 46 || b = 47 || b = 45

/-- What is wanted of a value apart from its being a new one. -/
def validName (s : Bytes) : Bool := 1 ≤ s.length && s.length ≤ 128 && s.all roleByte

/-- `type(k) ~= 'number' or k < 1 or k % 1 ~= 0 or k > 32` does not refuse the key. -/
def indexKey : Value → Bool
  | .number (.finite k) => 1 ≤ k && k.den = 1 && k ≤ 32
  | _ => false

/-- The loop over `pairs(values)`. The keys of `seen` are what is in `roles`. -/
def collect : List (Value × Value) → Nat → List Bytes → Option (Nat × List Bytes)
  | [], count, roles => some (count, roles)
  | (k, .string v) :: rest, count, roles =>
    if indexKey k && validName v && v ∉ roles then collect rest (count + 1) (roles ++ [v]) else none
  | _ :: _, _, _ => none

def roleRefs : Value → Option Bytes
  | .nil => some []
  | .table values length =>
    match collect values 0 [] with
    | none => none
    | some (count, roles) =>
      if count > 32 ∨ count ≠ length then none
      else if (join (sort roles)).length > 4096 then none
      else some (join (sort roles))
  | _ => none

def roleHeader : Value → Option Bytes
  | .nil => some []
  | .string value =>
    if value = [] then some []
    else if value.length > 4096 then none
    else
      let canonical := roleRefs (list ((words value).map .string))
      if canonical ≠ some value then none else canonical
  | _ => none

/-! ## Base 64 -/

/-- `[%w_-]`. -/
def isWordByte (b : UInt8) : Bool :=
  48 ≤ b && b ≤ 57 || 65 ≤ b && b ≤ 90 || 97 ≤ b && b ≤ 122 || b = 95 || b = 45

/-- `s:gsub(old, new)`, of one byte. -/
def gsub (old new : UInt8) (s : Bytes) : Bytes := s.map fun b => if b = old then new else b

def encode64 (v : Bytes) : Bytes := (gsub 47 95 (gsub 43 45 (Base64.encode v))).filter (· ≠ 61)

def decode64 (v : Bytes) : Option Bytes :=
  if v.all isWordByte then
    let v := gsub 95 47 (gsub 45 43 v)
    Base64.decode (v ++ List.replicate ((4 - v.length % 4) % 4) 61)
  else none

/-- `s:match('^([%w_-]+)%.([%w_-]+)$')`. -/
def splitProof (s : Bytes) : Option (Bytes × Bytes) :=
  let payload := s.takeWhile isWordByte
  match s.dropWhile isWordByte with
  | 46 :: signature =>
    if payload ≠ [] ∧ signature ≠ [] ∧ signature.all isWordByte then some (payload, signature) else none
  | _ => none

/-! ## Comparing -/

/-- `same`: the difference of all bytes, put together. -/
def same (a b : Bytes) : Bool :=
  a.length = b.length && (List.zipWith (fun x y => x.toNat ^^^ y.toNat) a b).foldl (· ||| ·) 0 = 0

end OufGateway.Delegation
