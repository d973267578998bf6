import Mathlib

/-!
# SHA-256

The digest of `hashlib.sha256`, in hexadecimal: padding to whole blocks of 64
bytes, a message schedule of 64 words for each, and 64 rounds on eight words.
-/

namespace OufGateway.Lib.Sha256

def roundConstants : List UInt32 :=
  [0x428a2f98, 0x71374491, 0xb5c0fbcf, 0xe9b5dba5, 0x3956c25b, 0x59f111f1, 0x923f82a4, 0xab1c5ed5,
   0xd807aa98, 0x12835b01, 0x243185be, 0x550c7dc3, 0x72be5d74, 0x80deb1fe, 0x9bdc06a7, 0xc19bf174,
   0xe49b69c1, 0xefbe4786, 0x0fc19dc6, 0x240ca1cc, 0x2de92c6f, 0x4a7484aa, 0x5cb0a9dc, 0x76f988da,
   0x983e5152, 0xa831c66d, 0xb00327c8, 0xbf597fc7, 0xc6e00bf3, 0xd5a79147, 0x06ca6351, 0x14292967,
   0x27b70a85, 0x2e1b2138, 0x4d2c6dfc, 0x53380d13, 0x650a7354, 0x766a0abb, 0x81c2c92e, 0x92722c85,
   0xa2bfe8a1, 0xa81a664b, 0xc24b8b70, 0xc76c51a3, 0xd192e819, 0xd6990624, 0xf40e3585, 0x106aa070,
   0x19a4c116, 0x1e376c08, 0x2748774c, 0x34b0bcb5, 0x391c0cb3, 0x4ed8aa4a, 0x5b9cca4f, 0x682e6ff3,
   0x748f82ee, 0x78a5636f, 0x84c87814, 0x8cc70208, 0x90befffa, 0xa4506ceb, 0xbef9a3f7, 0xc67178f2]

structure Words where
  (a b c d e f g h : UInt32)

def initial : Words :=
  ⟨0x6a09e667, 0xbb67ae85, 0x3c6ef372, 0xa54ff53a, 0x510e527f, 0x9b05688c, 0x1f83d9ab, 0x5be0cd19⟩

def rotr (x : UInt32) (n : UInt32) : UInt32 := (x >>> n) ||| (x <<< (32 - n))

def bytesOfNat : Nat → Nat → List UInt8
  | 0, _ => []
  | k + 1, n => UInt8.ofNat (n / 256 ^ k % 256) :: bytesOfNat k n

/-- A one bit, zeros up to 8 bytes short of a whole block, and the length. -/
def pad (msg : List UInt8) : List UInt8 :=
  msg ++ [0x80] ++ List.replicate ((119 - msg.length % 64) % 64) 0 ++ bytesOfNat 8 (8 * msg.length)

def wordOf (bytes : List UInt8) : UInt32 :=
  bytes.foldl (fun w b => (w <<< 8) ||| b.toUInt32) 0

/-- The 16 words of a block and the 48 derived from them. -/
def schedule (block : List UInt8) : List UInt32 :=
  let first := (List.range 16).map fun i => wordOf ((block.drop (4 * i)).take 4)
  (List.range 48).foldl (fun w t =>
    let x := w.getD (t + 1) 0
    let y := w.getD (t + 14) 0
    w ++ [w.getD t 0 + (rotr x 7 ^^^ rotr x 18 ^^^ (x >>> 3)) + w.getD (t + 9) 0 +
      (rotr y 17 ^^^ rotr y 19 ^^^ (y >>> 10))]) first

def round (s : Words) (kw : UInt32 × UInt32) : Words :=
  let t1 := s.h + (rotr s.e 6 ^^^ rotr s.e 11 ^^^ rotr s.e 25) +
    ((s.e &&& s.f) ^^^ (~~~ s.e &&& s.g)) + kw.1 + kw.2
  let t2 := (rotr s.a 2 ^^^ rotr s.a 13 ^^^ rotr s.a 22) +
    ((s.a &&& s.b) ^^^ (s.a &&& s.c) ^^^ (s.b &&& s.c))
  ⟨t1 + t2, s.a, s.b, s.c, s.d + t1, s.e, s.f, s.g⟩

def compress (s : Words) (block : List UInt8) : Words :=
  let r := (roundConstants.zip (schedule block)).foldl round s
  ⟨s.a + r.a, s.b + r.b, s.c + r.c, s.d + r.d, s.e + r.e, s.f + r.f, s.g + r.g, s.h + r.h⟩

def blocks (padded : List UInt8) : List (List UInt8) :=
  (List.range (padded.length / 64)).map fun i => (padded.drop (64 * i)).take 64

def digest (msg : List UInt8) : List UInt8 :=
  let s := (blocks (pad msg)).foldl compress initial
  [s.a, s.b, s.c, s.d, s.e, s.f, s.g, s.h].flatMap fun w => bytesOfNat 4 w.toNat

def hexByte (b : UInt8) : List Char :=
  [b.toNat / 16, b.toNat % 16].map fun n => "0123456789abcdef".toList.getD n '0'

/-- `hashlib.sha256(data).hexdigest()`. -/
def hexdigest (msg : List UInt8) : String := String.ofList ((digest msg).flatMap hexByte)

/-- The digest of a text in UTF-8. -/
def ofText (s : String) : String := hexdigest s.toUTF8.toList

/-! ## The shape of a digest -/

theorem length_bytesOfNat (k n : Nat) : (bytesOfNat k n).length = k := by
  induction k with
  | zero => rfl
  | succ k ih => rw [bytesOfNat, List.length_cons, ih]

theorem length_digest (msg : List UInt8) : (digest msg).length = 32 := by
  unfold digest
  simp only [List.length_flatMap, List.map_cons, List.map_nil, length_bytesOfNat]
  rfl

theorem length_hexdigest (msg : List UInt8) : (hexdigest msg).toList.length = 64 := by
  rw [hexdigest, String.toList_ofList, List.length_flatMap]
  have : ((digest msg).map fun b => (hexByte b).length) = List.replicate 32 2 := by
    rw [List.eq_replicate_iff, List.length_map, length_digest]
    exact ⟨rfl, fun n hn => by obtain ⟨b, -, rfl⟩ := List.mem_map.mp hn; rfl⟩
  rw [this]
  rfl

theorem mem_hexdigest {msg : List UInt8} {c : Char} (h : c ∈ (hexdigest msg).toList) :
    ∃ n < 16, c = "0123456789abcdef".toList.getD n '0' := by
  rw [hexdigest, String.toList_ofList, List.mem_flatMap] at h
  obtain ⟨b, -, hc⟩ := h
  have hb : b.toNat < 256 := b.toNat_lt
  rw [hexByte, List.map_cons, List.map_cons, List.map_nil, List.mem_pair] at hc
  rcases hc with rfl | rfl
  · exact ⟨b.toNat / 16, by omega, rfl⟩
  · exact ⟨b.toNat % 16, by omega, rfl⟩

end OufGateway.Lib.Sha256
