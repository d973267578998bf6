import OufGateway.Ref.TrustedIdentity

/-!
# What the generated Lua means

A piece with literals loads if `json.dumps` writes them all without `\u`, and then to
what Python meant; else it does not load. `Written` is this of one kind of field, and
the tables and constants follow from it. So a guard admits the services it lists, or
does not exist: one identity with an accent in it stops every workload.
-/

namespace OufGateway.GeneratedLua

open OufGateway.Lib
open Encoding (Points encode)
open Lua (Bytes Value)
open LuaString (lexString lexString_quote legible utf8 utf8_legible)
open PyJson (points)
open TrustedIdentity (claim serviceOf admitsService guardAdmits)

theorem encode_append (s t : Points) : encode (s ++ t) = encode s ++ encode t := List.map_append

theorem expect_points (text : String) (rest : Bytes) : expect text (encode (points text) ++ rest) = some rest := by
  have hlength : (encode (points text)).length = text.length := by
    rw [encode, List.length_map, points, List.length_map, String.length_toList]
  rw [expect, if_pos (List.prefix_append _ _), ← hlength, List.drop_left]

/-- A field as it is written and as it is read. -/
structure Written (write : Points → Points) (field : Bytes → Option (Bytes × Bytes)) : Prop where
  read : ∀ v rest, field (encode (write v) ++ rest) = if v.all legible then some (encode v, rest) else none
  opens : ∀ v rest, expect "\x7d" (encode (write v) ++ rest) = none

theorem written_literal : Written luaQuote lexString where
  read := lexString_quote
  opens _ _ := rfl

theorem written_key : Written keyField readKey where
  read v rest := by
    have htext : encode (keyField v) ++ rest =
        encode (points "[") ++ (encode (luaQuote v) ++ (encode (points "]=true") ++ rest)) := by
      simp only [keyField, encode_append, List.append_assoc]
    rw [htext, readKey, expect_points]
    simp only [Option.bind_eq_bind, Option.bind_some, luaQuote, lexString_quote]
    split
    · simp only [Option.bind_some, expect_points]
    · rfl
  opens _ _ := rfl

section

variable {write : Points → Points} {field : Bytes → Option (Bytes × Bytes)}

theorem readFields_commaJoin (h : Written write field) {n : Nat} {vs : List Points} (hne : vs ≠ []) (hn : vs.length ≤ n)
    (rest : Bytes) :
    readFields field n (encode (commaJoin (vs.map write)) ++ (encode (points "\x7d") ++ rest)) =
      if vs.all (·.all legible) then some (vs.map encode, rest) else none := by
  induction vs generalizing n with
  | nil => exact absurd rfl hne
  | cons v vs ih =>
      obtain ⟨m, rfl⟩ : ∃ m, n = m + 1 := ⟨n - 1, by
        rw [List.length_cons] at hn
        omega⟩
      cases vs with
      | nil =>
          have hjoin : commaJoin (List.map write [v]) = write v := rfl
          have hcomma : expect "," (encode (points "\x7d") ++ rest) = none := rfl
          rw [hjoin, readFields, h.read]
          by_cases hv : v.all legible
          · simp [hv, hcomma, expect_points]
          · simp [hv]
      | cons w ws =>
          have hjoin : commaJoin (List.map write (v :: w :: ws)) =
              write v ++ points "," ++ commaJoin (List.map write (w :: ws)) := rfl
          have hrest := ih (List.cons_ne_nil w ws) (Nat.le_of_succ_le_succ hn)
          rw [hjoin, encode_append, encode_append, List.append_assoc, List.append_assoc, readFields, h.read]
          by_cases hv : v.all legible
          · by_cases hws : (w :: ws).all (·.all legible)
            · have hall : (v :: w :: ws).all (·.all legible) = true := by rw [List.all_cons, hv, hws, Bool.true_and]
              rw [if_pos hws] at hrest
              rw [if_pos hv, if_pos hall]
              simp only [Option.bind_eq_bind, Option.bind_some, expect_points, hrest]
              rfl
            · have hall : ¬ (v :: w :: ws).all (·.all legible) = true := by rw [List.all_cons, hv, Bool.true_and]; exact hws
              rw [if_neg hws] at hrest
              rw [if_pos hv, if_neg hall]
              simp only [Option.bind_eq_bind, Option.bind_some, expect_points, hrest]
              rfl
          · simp [hv]

theorem length_le_commaJoin (vs : List Points) : vs.length ≤ (commaJoin vs).length + 1 := by
  induction vs with
  | nil => exact Nat.zero_le _
  | cons v vs ih =>
      cases vs with
      | nil => simp
      | cons w ws =>
          have hjoin : commaJoin (v :: w :: ws) = v ++ points "," ++ commaJoin (w :: ws) := rfl
          have hcomma : (points ",").length = 1 := rfl
          simp only [hjoin, List.length_append, hcomma, List.length_cons] at ih ⊢
          omega

theorem readTable_braces (h : Written write field) (vs : List Points) (rest : Bytes) :
    readTable field (encode (braces (vs.map write)) ++ rest) =
      if vs.all (·.all legible) then some (vs.map encode, rest) else none := by
  have htext : encode (braces (vs.map write)) ++ rest =
      encode (points "\x7b") ++ (encode (commaJoin (vs.map write)) ++ (encode (points "\x7d") ++ rest)) := by
    simp only [braces, encode_append, List.append_assoc]
  rw [htext, readTable, expect_points]
  simp only [Option.bind_eq_bind, Option.bind_some]
  cases vs with
  | nil =>
      have hjoin : encode (commaJoin (List.map write [])) = [] := rfl
      rw [hjoin, List.nil_append, expect_points]
      rfl
  | cons v vs =>
      have hopen : expect "\x7d" (encode (commaJoin ((v :: vs).map write)) ++ (encode (points "\x7d") ++ rest)) = none := by
        cases vs with
        | nil => exact h.opens v _
        | cons w ws =>
            have hjoin : commaJoin (List.map write (v :: w :: ws)) =
                write v ++ (points "," ++ commaJoin (List.map write (w :: ws))) := List.append_assoc _ _ _
            rw [hjoin, encode_append, List.append_assoc]
            exact h.opens v _
      have hlength := length_le_commaJoin ((v :: vs).map write)
      simp only [hopen]
      refine readFields_commaJoin h (List.cons_ne_nil v vs) ?_ rest
      simp only [List.length_map, List.length_append, encode] at hlength ⊢
      have hbrace : (points "\x7d").length = 1 := rfl
      omega

theorem readTableLocal_tableLocal (h : Written write field) (name : String) (vs : List Points) (rest : Bytes) :
    readTableLocal name field (encode (tableLocal name (vs.map write)) ++ rest) =
      if vs.all (·.all legible) then some (vs.map encode, rest) else none := by
  have htext : encode (tableLocal name (vs.map write)) ++ rest =
      encode (points ("local " ++ name ++ "=")) ++
        (encode (braces (vs.map write)) ++ (encode (points "; ") ++ rest)) := by
    simp only [tableLocal, encode_append, List.append_assoc]
  rw [htext, readTableLocal, expect_points]
  simp only [Option.bind_eq_bind, Option.bind_some, readTable_braces h]
  split
  · simp only [Option.bind_some, expect_points]
  · rfl

end

theorem loadPreFunction_trusted (headers : List Points) :
    loadPreFunction (trustedPreFunction headers) =
      if headers.all (·.all legible) then some (headers.map encode) else none := by
  have hread := readTableLocal_tableLocal written_literal "headers" headers []
  rw [List.append_nil] at hread
  rw [loadPreFunction, trustedPreFunction, hread]
  split <;> rfl

theorem loadPostFunction_trusted (allowedActors : List Points) :
    loadPostFunction (trustedPostFunction allowedActors) =
      if allowedActors.all (·.all legible) then some (allowedActors.map encode) else none := by
  have hread := readTableLocal_tableLocal written_key "allowed" allowedActors []
  rw [List.append_nil] at hread
  rw [loadPostFunction, trustedPostFunction, hread]
  split <;> rfl

theorem loadGuard_workload (services actors : List Points) :
    loadGuard (workloadGuard services actors) =
      if (services ++ actors).all (·.all legible) then some (services.map encode, actors.map encode) else none := by
  have hactors := readTableLocal_tableLocal written_key "allowed_actors" actors []
  rw [List.append_nil] at hactors
  rw [loadGuard, workloadGuard, encode_append, readTableLocal_tableLocal written_key, List.all_append]
  by_cases hs : services.all (·.all legible)
  · simp only [hs, if_true, Option.bind_eq_bind, Option.bind_some, hactors, Bool.true_and]
    split <;> rfl
  · simp [hs]

theorem readConstants_constants (values : List (String × Points)) (rest : Bytes) :
    readConstants (values.map (·.1)) (encode (constants values) ++ rest) =
      if values.all (·.2.all legible) then some (values.map (encode ·.2), rest) else none := by
  induction values with
  | nil => rfl
  | cons value values ih =>
      have htext : encode (constants (value :: values)) ++ rest =
          encode (points ("local " ++ value.1 ++ " = ")) ++ (encode (luaQuote value.2) ++
            (encode (points "\n") ++ (encode (constants values) ++ rest))) := by
        simp only [constants, List.flatMap_cons, constantLine, encode_append, List.append_assoc]
      rw [htext, List.map_cons, readConstants, expect_points]
      simp only [Option.bind_eq_bind, Option.bind_some, luaQuote, lexString_quote]
      by_cases hv : value.2.all legible
      · simp only [hv, if_true, Option.bind_some, expect_points, ih, List.all_cons, Bool.true_and]
        split <;> rfl
      · simp [hv]

/-! ## What was meant -/

/-- The literal denotes the bytes of the text, wherever it stands. -/
def Denotes (s : Points) : Prop :=
  ∃ bytes, utf8 s = some bytes ∧ ∀ rest, lexString (encode (luaQuote s) ++ rest) = some (bytes, rest)

/-- The value is the text of an identity. -/
def Listed (identities : List Points) (v : Value) : Prop := ∃ s ∈ identities, ∃ bytes, utf8 s = some bytes ∧ v = .string bytes

/-- The constants load to the bytes of their texts, whatever is behind them. -/
def Loads (values : List (String × Points)) : Prop :=
  ∀ rest, ∃ texts, values.map (utf8 ·.2) = texts.map some
    ∧ readConstants (values.map (·.1)) (encode (constants values) ++ rest) = some (texts, rest)

theorem denotes_iff (s : Points) : Denotes s ↔ s.all legible = true := by
  constructor
  · rintro ⟨bytes, -, hread⟩
    have hquote := hread []
    rw [luaQuote, lexString_quote] at hquote
    split at hquote
    · next h => exact h
    · cases hquote
  · intro h
    refine ⟨encode s, utf8_legible h, fun rest => ?_⟩
    rw [luaQuote, lexString_quote, if_pos h]

theorem loads_iff (values : List (String × Points)) : Loads values ↔ values.all (·.2.all legible) = true := by
  constructor
  · intro h
    obtain ⟨texts, -, hread⟩ := h []
    rw [readConstants_constants] at hread
    split at hread
    · next hall => exact hall
    · cases hread
  · intro h rest
    refine ⟨values.map (encode ·.2), ?_, by rw [readConstants_constants, if_pos h]⟩
    rw [List.map_map]
    exact List.map_congr_left fun v hv => utf8_legible (List.all_eq_true.mp h v hv)

/-- A token that names a service. -/
def naming (service : Bytes) : Value := .table [(.string (TrustedIdentity.bytes "client_id"), .string service)] 0

theorem serviceOf_naming (service : Bytes) : serviceOf (naming service) = .string service := by
  have hclaim : claim (naming service) "client_id" = .string service := by
    simp [claim, naming, Value.field, Value.lookup, Value.isString]
  rw [serviceOf, hclaim]
  rfl

theorem guardAdmits_workload {services actors : List Points} (h : (services ++ actors).all (·.all legible) = true)
    (claims : Value) : guardAdmits (workloadGuard services actors) claims = true ↔ Listed services (serviceOf claims) := by
  have hload := loadGuard_workload services actors
  rw [if_pos h] at hload
  simp only [guardAdmits, hload, admitsService]
  constructor
  · intro hadmits
    split at hadmits
    · next service hservice =>
        obtain ⟨s, hs, rfl⟩ := List.mem_map.mp (of_decide_eq_true hadmits)
        exact ⟨s, hs, encode s, utf8_legible (List.all_eq_true.mp h s (List.mem_append_left _ hs)), hservice⟩
    · cases hadmits
  · rintro ⟨s, hs, bytes, hbytes, hservice⟩
    rw [utf8_legible (List.all_eq_true.mp h s (List.mem_append_left _ hs))] at hbytes
    cases hbytes
    rw [hservice]
    exact decide_eq_true (List.mem_map_of_mem hs)

theorem guardAdmits_unloaded {services actors : List Points} (h : ¬ (services ++ actors).all (·.all legible) = true)
    (claims : Value) : guardAdmits (workloadGuard services actors) claims = false := by
  have hload := loadGuard_workload services actors
  rw [if_neg h] at hload
  simp only [guardAdmits, hload]

/-- A literal denotes its text if `json.dumps` needs no `\u` for it; the constants of a function load if that holds of
them all, and a guard lets in the services on its list and no others under the same condition, or if no token can name
any of them. -/
theorem literals_mean_their_texts (s : Points) (values : List (String × Points)) (services actors : List Points) :
    (Denotes s ↔ s.all legible = true) ∧ (Loads values ↔ values.all (·.2.all legible) = true)
      ∧ ((∀ claims, guardAdmits (workloadGuard services actors) claims = true ↔ Listed services (serviceOf claims)) ↔
          (services ++ actors).all (·.all legible) = true ∨ ∀ t ∈ services, utf8 t = none) := by
  refine ⟨denotes_iff s, loads_iff values, ?_⟩
  by_cases h : (services ++ actors).all (·.all legible) = true
  · exact iff_of_true (guardAdmits_workload h) (.inl h)
  · constructor
    · intro hadmits
      refine .inr fun t ht => Option.eq_none_iff_forall_ne_some.mpr fun bytes hbytes => ?_
      have hlisted : Listed services (serviceOf (naming bytes)) := ⟨t, ht, bytes, hbytes, serviceOf_naming bytes⟩
      have hin := (hadmits (naming bytes)).mpr hlisted
      rw [guardAdmits_unloaded h] at hin
      cases hin
    · rintro (hall | hnone) claims
      · exact absurd hall h
      · rw [guardAdmits_unloaded h]
        refine iff_of_false Bool.false_ne_true ?_
        rintro ⟨t, ht, bytes, hbytes, -⟩
        rw [hnone t ht] at hbytes
        cases hbytes

/-- `"\u00e9"` is no literal of Lua, and a guard that lists the identity keeps it out. -/
theorem accent_keeps_everyone_out :
    utf8 [233] = some [195, 169] ∧ lexString (encode (luaQuote [233])) = none ∧ ¬ Denotes [233]
      ∧ Listed [[233]] (serviceOf (naming [195, 169]))
      ∧ guardAdmits (workloadGuard [[233]] [points "SERVICE"]) (naming [195, 169]) = false := by
  have hutf8 : utf8 [233] = some [195, 169] := by decide
  refine ⟨hutf8, by decide, ?_, ⟨[233], List.mem_cons_self, _, hutf8, serviceOf_naming _⟩,
    guardAdmits_unloaded (by decide) _⟩
  rw [denotes_iff]
  decide

end OufGateway.GeneratedLua
