import Mathlib

/-!
# Bytes as text

`json.loads` takes bytes: `detect_encoding` guesses one of the Unicode encodings from a
byte order mark or from where the zero bytes are, and the bytes are decoded with the
handler `surrogatepass`, so half a surrogate pair is a code point like any other. A
text is a list of code points for that reason, and not of characters.

Every decoder reads one unit from the front, and `decodeAll` repeats it.
-/

namespace OufGateway.Lib.Encoding

/-- The code points of a text. -/
abbrev Points := List Nat

/-! ## One unit -/

/-- A byte `10xxxxxx`, by the six bits it carries. -/
def tail? (b : Nat) : Option Nat := if 128 ≤ b ∧ b < 192 then some (b - 128) else none

/-- A code point that has to have its shortest form. -/
def atLeast (least p : Nat) (rest : List Nat) : Option (Nat × List Nat) :=
  if least ≤ p ∧ p < 1114112 then some (p, rest) else none

/-- UTF-8; `surrogatepass` lets the three bytes of a surrogate through. -/
def readUtf8 : List Nat → Option (Nat × List Nat)
  | [] => none
  | a :: rest =>
    if a < 128 then some (a, rest)
    else if 192 ≤ a ∧ a < 224 then
      match rest with
      | b :: rest => do
        let b ← tail? b
        atLeast 128 ((a - 192) * 64 + b) rest
      | _ => none
    else if 224 ≤ a ∧ a < 240 then
      match rest with
      | b :: c :: rest => do
        let b ← tail? b
        let c ← tail? c
        atLeast 2048 (((a - 224) * 64 + b) * 64 + c) rest
      | _ => none
    else if 240 ≤ a ∧ a < 248 then
      match rest with
      | b :: c :: d :: rest => do
        let b ← tail? b
        let c ← tail? c
        let d ← tail? d
        atLeast 65536 ((((a - 240) * 64 + b) * 64 + c) * 64 + d) rest
      | _ => none
    else none

/-- The number some bytes are, the most significant one first or last. -/
def word (bigEndian : Bool) (bytes : List Nat) : Nat :=
  (if bigEndian then bytes else bytes.reverse).foldl (fun n b => n * 256 + b) 0

def isHigh (n : Nat) : Bool := 55296 ≤ n && n < 56320

def isLow (n : Nat) : Bool := 56320 ≤ n && n < 57344

/-- The code point of a surrogate pair. -/
def combine (high low : Nat) : Nat := 65536 + (high - 55296) * 1024 + (low - 56320)

/-- UTF-16; a half without the other is passed. -/
def readUtf16 (bigEndian : Bool) : List Nat → Option (Nat × List Nat)
  | a :: b :: rest =>
    let n := word bigEndian [a, b]
    match rest with
    | c :: d :: rest' =>
      let m := word bigEndian [c, d]
      if isHigh n && isLow m then some (combine n m, rest') else some (n, rest)
    | _ => some (n, rest)
  | _ => none

def readUtf32 (bigEndian : Bool) : List Nat → Option (Nat × List Nat)
  | a :: b :: c :: d :: rest => atLeast 0 (word bigEndian [a, b, c, d]) rest
  | _ => none

/-! ## All of them -/

/-- Each unit takes a byte at least. -/
def decodeAll (read : List Nat → Option (Nat × List Nat)) : Nat → List Nat → Option Points
  | _, [] => some []
  | 0, _ :: _ => none
  | n + 1, b :: bytes => do
    let (p, rest) ← read (b :: bytes)
    let ps ← decodeAll read n rest
    some (p :: ps)

inductive Codec
  | utf8
  | utf16 (bigEndian : Bool)
  | utf32 (bigEndian : Bool)
deriving DecidableEq

def Codec.read : Codec → List Nat → Option (Nat × List Nat)
  | utf8 => readUtf8
  | utf16 bigEndian => readUtf16 bigEndian
  | utf32 bigEndian => readUtf32 bigEndian

/-- Where the zeros are, when there is no byte order mark. -/
def detectZeros : List Nat → Codec
  | a :: b :: c :: d :: _ =>
    if a = 0 then (if b = 0 then .utf32 true else .utf16 true)
    else if b = 0 then (if c = 0 ∧ d = 0 then .utf32 false else .utf16 false)
    else .utf8
  | [a, b] => if a = 0 then .utf16 true else if b = 0 then .utf16 false else .utf8
  | _ => .utf8

/-- `json.detect_encoding`, with the length of the byte order mark. -/
def detectEncoding (bytes : List Nat) : Codec × Nat :=
  if [0, 0, 254, 255] <+: bytes then (.utf32 true, 4)
  else if [255, 254, 0, 0] <+: bytes then (.utf32 false, 4)
  else if [254, 255] <+: bytes then (.utf16 true, 2)
  else if [255, 254] <+: bytes then (.utf16 false, 2)
  else if [239, 187, 191] <+: bytes then (.utf8, 3)
  else (detectZeros bytes, 0)

/-- `b.decode(detect_encoding(b), 'surrogatepass')`. -/
def decode (bytes : List UInt8) : Option Points :=
  let bytes := bytes.map UInt8.toNat
  let (codec, mark) := detectEncoding bytes
  decodeAll codec.read bytes.length (bytes.drop mark)

/-! ## ASCII -/

theorem decodeAll_utf8_ascii {n : Nat} {bytes : List Nat} (h : ∀ b ∈ bytes, b < 128)
    (hn : bytes.length ≤ n) : decodeAll readUtf8 n bytes = some bytes := by
  induction bytes generalizing n with
  | nil => cases n <;> rfl
  | cons b bytes ih =>
      obtain ⟨m, rfl⟩ : ∃ m, n = m + 1 := ⟨n - 1, by
        rw [List.length_cons] at hn
        omega⟩
      have hb : readUtf8 (b :: bytes) = some (b, bytes) := if_pos (h b List.mem_cons_self)
      have hrest : decodeAll readUtf8 m bytes = some bytes :=
        ih (fun b' hb' => h b' (List.mem_cons_of_mem b hb')) (Nat.le_of_succ_le_succ hn)
      rw [decodeAll, hb]
      simp only [Option.bind_eq_bind, Option.bind_some, hrest]

/-- Text in ASCII without zeros has no byte order mark and no zeros to go by. -/
theorem detectEncoding_ascii {bytes : List Nat} (h : ∀ b ∈ bytes, 0 < b ∧ b < 128) :
    detectEncoding bytes = (.utf8, 0) := by
  have hmark : ∀ {m : Nat} {ms : List Nat}, m = 0 ∨ 128 ≤ m → ¬ (m :: ms) <+: bytes := by
    intro m ms hm hpre
    have := h m (hpre.subset List.mem_cons_self)
    omega
  have hzero : ∀ b ∈ bytes, b ≠ 0 := fun b hb => (Nat.ne_of_lt (h b hb).1).symm
  unfold detectEncoding
  rw [if_neg (hmark (by decide)), if_neg (hmark (by decide)), if_neg (hmark (by decide)),
    if_neg (hmark (by decide)), if_neg (hmark (by decide))]
  congr 1
  unfold detectZeros
  split
  · rw [if_neg (hzero _ (by simp)), if_neg (hzero _ (by simp))]
  · rw [if_neg (hzero _ (by simp)), if_neg (hzero _ (by simp))]
  · rfl

/-- The bytes of a text in ASCII. -/
def encode (text : Points) : List UInt8 := text.map UInt8.ofNat

theorem map_toNat_encode {text : Points} (h : ∀ p ∈ text, p < 256) :
    (encode text).map UInt8.toNat = text := by
  unfold encode
  rw [List.map_map]
  refine (List.map_congr_left fun p hp => ?_).trans (List.map_id text)
  have := h p hp
  simp only [Function.comp_apply, UInt8.toNat_ofNat', id_eq]
  omega

theorem decode_encode {text : Points} (h : ∀ p ∈ text, 0 < p ∧ p < 128) :
    decode (encode text) = some text := by
  have hbytes : (encode text).map UInt8.toNat = text :=
    map_toNat_encode fun p hp => (h p hp).2.trans (by decide)
  unfold decode
  simp only [hbytes, detectEncoding_ascii h, List.drop_zero]
  exact decodeAll_utf8_ascii (fun b hb => (h b hb).2) (Nat.le_refl _)

theorem encode_inj {s t : Points} (hs : ∀ p ∈ s, p < 256) (ht : ∀ p ∈ t, p < 256)
    (h : encode s = encode t) : s = t := by
  rw [← map_toNat_encode hs, ← map_toNat_encode ht, h]

end OufGateway.Lib.Encoding
