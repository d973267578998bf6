import Mathlib

/-!
# Base 64

The standard alphabet, padded to groups of four. Three bytes are four digits; one or
two bytes at the end are two or three, which is why a number of digits that is one
more than a multiple of four is never right. `decode` wants the padding that the
digits call for, and `decode_encode` reads back whatever was written.
-/

namespace OufGateway.Lib.Base64

abbrev Bytes := List UInt8

/-- The character of a digit. -/
def digit (n : Nat) : UInt8 :=
  UInt8.ofNat (if n < 26 then n + 65 else if n < 52 then n + 71 else if n < 62 then n - 4 else if n = 62 then 43 else 47)

/-- The digit of a character. -/
def value (b : UInt8) : Option Nat :=
  if 65 ≤ b ∧ b ≤ 90 then some (b.toNat - 65)
  else if 97 ≤ b ∧ b ≤ 122 then some (b.toNat - 71)
  else if 48 ≤ b ∧ b ≤ 57 then some (b.toNat + 4)
  else if b = 43 then some 62
  else if b = 47 then some 63
  else none

/-- The digits of some bytes. -/
def digits : Bytes → List Nat
  | [] => []
  | [a] => [a.toNat / 4, a.toNat % 4 * 16]
  | [a, b] => [a.toNat / 4, a.toNat % 4 * 16 + b.toNat / 16, b.toNat % 16 * 4]
  | a :: b :: c :: rest =>
    a.toNat / 4 :: (a.toNat % 4 * 16 + b.toNat / 16) :: (b.toNat % 16 * 4 + c.toNat / 64) :: c.toNat % 64 ::
      digits rest

/-- The bytes of some digits. -/
def ofDigits : List Nat → Option Bytes
  | [] => some []
  | [_] => none
  | [p, q] => some [UInt8.ofNat (p * 4 + q / 16)]
  | [p, q, r] => some [UInt8.ofNat (p * 4 + q / 16), UInt8.ofNat (q % 16 * 16 + r / 4)]
  | p :: q :: r :: s :: rest => do
    let bytes ← ofDigits rest
    some (UInt8.ofNat (p * 4 + q / 16) :: UInt8.ofNat (q % 16 * 16 + r / 4) :: UInt8.ofNat (r % 4 * 64 + s) :: bytes)

/-- What is written behind so many digits. -/
def padding (n : Nat) : Bytes := List.replicate ((4 - n % 4) % 4) 61

def body (s : Bytes) : Bytes := (digits s).map digit

def encode (s : Bytes) : Bytes := body s ++ padding (body s).length

def decode (s : Bytes) : Option Bytes :=
  let body := s.takeWhile (· ≠ 61)
  if s = body ++ padding body.length then (body.mapM value).bind ofDigits else none

/-! ## Digits -/

theorem value_digit {n : Nat} (h : n < 64) : value (digit n) = some n := by
  interval_cases n <;> rfl

theorem digit_ne_padding {n : Nat} (h : n < 64) : digit n ≠ 61 := by
  interval_cases n <;> decide

theorem lt_of_mem_digits {s : Bytes} : ∀ n ∈ digits s, n < 64 := by
  induction s using digits.induct with
  | case1 => simp [digits]
  | case2 a =>
      have ha := a.toNat_lt
      simp [digits]
      omega
  | case3 a b =>
      have ha := a.toNat_lt
      have hb := b.toNat_lt
      simp [digits]
      omega
  | case4 a b c rest ih =>
      have ha := a.toNat_lt
      have hb := b.toNat_lt
      have hc := c.toNat_lt
      simp only [digits, List.forall_mem_cons]
      exact ⟨by omega, by omega, by omega, by omega, ih⟩

theorem length_digits (s : Bytes) : (digits s).length = (4 * s.length + 2) / 3 := by
  induction s using digits.induct with
  | case1 => simp [digits]
  | case2 a => simp [digits]
  | case3 a b => simp [digits]
  | case4 a b c rest ih =>
      simp only [digits, List.length_cons, ih]
      omega

theorem ofDigits_digits (s : Bytes) : ofDigits (digits s) = some s := by
  induction s using digits.induct with
  | case1 => rfl
  | case2 a =>
      have ha := a.toNat_lt
      have hbyte : a.toNat / 4 * 4 + a.toNat % 4 * 16 / 16 = a.toNat := by omega
      rw [digits, ofDigits, hbyte, UInt8.ofNat_toNat]
  | case3 a b =>
      have ha := a.toNat_lt
      have hb := b.toNat_lt
      have hfirst : a.toNat / 4 * 4 + (a.toNat % 4 * 16 + b.toNat / 16) / 16 = a.toNat := by omega
      have hsecond : (a.toNat % 4 * 16 + b.toNat / 16) % 16 * 16 + b.toNat % 16 * 4 / 4 = b.toNat := by omega
      rw [digits, ofDigits, hfirst, hsecond, UInt8.ofNat_toNat, UInt8.ofNat_toNat]
  | case4 a b c rest ih =>
      have ha := a.toNat_lt
      have hb := b.toNat_lt
      have hc := c.toNat_lt
      have hfirst : a.toNat / 4 * 4 + (a.toNat % 4 * 16 + b.toNat / 16) / 16 = a.toNat := by omega
      have hsecond : (a.toNat % 4 * 16 + b.toNat / 16) % 16 * 16 + (b.toNat % 16 * 4 + c.toNat / 64) / 4 = b.toNat := by
        omega
      have hthird : (b.toNat % 16 * 4 + c.toNat / 64) % 4 * 64 + c.toNat % 64 = c.toNat := by omega
      rw [digits, ofDigits, ih, hfirst, hsecond, hthird, UInt8.ofNat_toNat, UInt8.ofNat_toNat, UInt8.ofNat_toNat]
      rfl

/-! ## Texts -/

theorem length_body (s : Bytes) : (body s).length = (4 * s.length + 2) / 3 := by
  rw [body, List.length_map, length_digits]

theorem mapM_value (s : Bytes) : (body s).mapM value = some (digits s) := by
  have hread : ∀ ns : List Nat, (∀ n ∈ ns, n < 64) → (ns.map digit).mapM value = some ns := by
    intro ns hns
    induction ns with
    | nil => rfl
    | cons n ns ih =>
        rw [List.map_cons, List.mapM_cons, value_digit (hns n List.mem_cons_self),
          ih fun m hm => hns m (List.mem_cons_of_mem n hm)]
        rfl
  exact hread _ lt_of_mem_digits

theorem body_ne_padding {s : Bytes} {b : UInt8} (hb : b ∈ body s) : b ≠ 61 := by
  obtain ⟨n, hn, rfl⟩ := List.mem_map.mp hb
  exact digit_ne_padding (lt_of_mem_digits n hn)

/-- The digits of a padded text are what is in front of the padding. -/
theorem takeWhile_encode (s : Bytes) : (encode s).takeWhile (· ≠ 61) = body s := by
  have hbody : ∀ b ∈ body s, decide (b ≠ 61) = true := fun b hb => decide_eq_true (body_ne_padding hb)
  rw [encode, List.takeWhile_append_of_pos hbody, padding]
  cases (4 - (body s).length % 4) % 4 <;> simp [List.replicate_succ]

theorem decode_encode (s : Bytes) : decode (encode s) = some s := by
  have hform : encode s = body s ++ padding (body s).length := rfl
  simp only [decode, takeWhile_encode, mapM_value, if_pos hform]
  exact ofDigits_digits s

end OufGateway.Lib.Base64
