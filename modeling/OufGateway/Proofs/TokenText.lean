import OufGateway.Ref.Delegation

/-!
# The text of a delegation

`encode64` changes the two characters of the standard alphabet that a header or a URL
would mind and leaves the padding away; `decode64` puts both back. What it writes
are word bytes, so the dot between a payload and a signature is the only one.
-/

namespace OufGateway.Delegation

open OufGateway.Lib
open OufGateway.Lib.Lua

variable {a b v : Bytes}

/-! ## Encoding -/

/-- A character of `encode64` for one of the standard alphabet. -/
def urlByte (b : UInt8) : UInt8 := if b = 43 then 45 else if b = 47 then 95 else b

theorem encode64_eq (v : Bytes) : encode64 v = (Base64.body v).map urlByte := by
  have hbyte : ∀ b : UInt8, (if (if b = 43 then 45 else b) = 47 then 95 else if b = 43 then 45 else b) = urlByte b := by
    intro b
    unfold urlByte
    by_cases h : b = 43 <;> simp [h]
  have hpadding : ((Base64.padding (Base64.body v).length).map urlByte).filter (· ≠ 61) = [] := by
    simp [Base64.padding, urlByte]
  have hbody : ((Base64.body v).map urlByte).filter (· ≠ 61) = (Base64.body v).map urlByte := by
    refine List.filter_eq_self.mpr fun b hb => decide_eq_true ?_
    obtain ⟨c, hc, rfl⟩ := List.mem_map.mp hb
    have hne := Base64.body_ne_padding hc
    unfold urlByte
    split_ifs <;> first | decide | exact hne
  simp only [encode64, gsub, List.map_map, Function.comp_def, hbyte]
  rw [Base64.encode, List.map_append, List.filter_append, hpadding, hbody, List.append_nil]

theorem length_encode64 (v : Bytes) : (encode64 v).length = (4 * v.length + 2) / 3 := by
  rw [encode64_eq, List.length_map, Base64.length_body]

theorem encode64_ne_nil (h : v ≠ []) : encode64 v ≠ [] := by
  have hv := List.length_pos_iff.mpr h
  have hlength := length_encode64 v
  exact List.length_pos_iff.mp (by omega)

theorem isWordByte_digit {n : Nat} (h : n < 64) : isWordByte (urlByte (Base64.digit n)) = true := by
  interval_cases n <;> rfl

theorem encode64_isWord (v : Bytes) : (encode64 v).all isWordByte = true := by
  rw [encode64_eq, List.all_eq_true]
  intro b hb
  obtain ⟨c, hc, rfl⟩ := List.mem_map.mp hb
  obtain ⟨n, hn, rfl⟩ := List.mem_map.mp hc
  exact isWordByte_digit (Base64.lt_of_mem_digits n hn)

theorem gsub_urlByte {n : Nat} (h : n < 64) :
    (if (if urlByte (Base64.digit n) = 45 then 43 else urlByte (Base64.digit n)) = 95 then 47
      else if urlByte (Base64.digit n) = 45 then 43 else urlByte (Base64.digit n)) = Base64.digit n := by
  interval_cases n <;> rfl

theorem decode64_encode64 (v : Bytes) : decode64 (encode64 v) = some v := by
  have hback : gsub 95 47 (gsub 45 43 (encode64 v)) = Base64.body v := by
    rw [encode64_eq, Base64.body]
    simp only [gsub, List.map_map, Function.comp_def]
    exact List.map_congr_left fun n hn => gsub_urlByte (Base64.lt_of_mem_digits n hn)
  have hform : Base64.body v ++ List.replicate ((4 - (Base64.body v).length % 4) % 4) 61 = Base64.encode v := rfl
  simp only [decode64, encode64_isWord, if_true, hback, hform, Base64.decode_encode]

/-! ## Splitting -/

theorem splitProof_append (ha : a ≠ []) (hb : b ≠ []) (hword : a.all isWordByte = true)
    (hword' : b.all isWordByte = true) : splitProof (a ++ 46 :: b) = some (a, b) := by
  have hdot : isWordByte 46 = false := rfl
  have hall := List.all_eq_true.mp hword
  have htake : (a ++ 46 :: b).takeWhile isWordByte = a := by
    rw [List.takeWhile_append_of_pos hall, List.takeWhile_cons_of_neg (by simp [hdot]), List.append_nil]
  have hdrop : (a ++ 46 :: b).dropWhile isWordByte = 46 :: b := by
    rw [List.dropWhile_append_of_pos hall, List.dropWhile_cons_of_neg (by simp [hdot])]
  simp [splitProof, htake, hdrop, ha, hb, hword']

/-- What is written is read back, in its own alphabet only, and comes apart at the dot it was put together with. -/
theorem token_text_round_trips :
    (∀ v, decode64 (encode64 v) = some v) ∧ (∀ v, (encode64 v).all isWordByte = true)
      ∧ (∀ p s, encode64 p ≠ [] → encode64 s ≠ [] →
          splitProof (encode64 p ++ 46 :: encode64 s) = some (encode64 p, encode64 s))
      ∧ ∀ v, v.all isWordByte = false → decode64 v = none := by
  refine ⟨decode64_encode64, encode64_isWord, fun p s hp hs => ?_, fun v hv => ?_⟩
  · exact splitProof_append hp hs (encode64_isWord p) (encode64_isWord s)
  · simp [decode64, hv]

/-! ## Comparing -/

theorem foldl_or_eq_zero {ns : List Nat} {n : Nat} : ns.foldl (· ||| ·) n = 0 ↔ n = 0 ∧ ∀ m ∈ ns, m = 0 := by
  induction ns generalizing n with
  | nil => simp
  | cons m ns ih => simp [ih, Nat.or_eq_zero_iff, and_assoc]

theorem same_iff : same a b = true ↔ a = b := by
  constructor
  · intro h
    simp only [same, Bool.and_eq_true, decide_eq_true_eq, foldl_or_eq_zero, true_and] at h
    obtain ⟨hlength, hzero⟩ := h
    induction a generalizing b with
    | nil => exact (List.length_eq_zero_iff.mp hlength.symm).symm
    | cons x a ih =>
        cases b with
        | nil => cases hlength
        | cons y b =>
            rw [List.zipWith_cons_cons, List.forall_mem_cons] at hzero
            rw [UInt8.toNat_inj.mp (Nat.xor_eq_zero_iff.mp hzero.1), ih (Nat.succ.inj hlength) hzero.2]
  · rintro rfl
    simp [same, foldl_or_eq_zero]

end OufGateway.Delegation
