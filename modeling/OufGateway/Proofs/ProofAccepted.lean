import OufGateway.Lib.Sha256
import OufGateway.Proofs.RoleNames
import OufGateway.Proofs.TokenText
import OufGateway.Ref.DelegationProof

/-!
# When an issued proof is accepted

What `issue` checks of the claims is what `verify` asks of the proof again, field by
field: the texts are the same texts, and the roles are in the one form they have. Two
things are not checked on issue. Nothing bounds the proof as a whole, and `verify`
takes no more than 16384 bytes; and the times go through the numbers of `cjson`. So
an issued proof is accepted for as long as it should be if and only if it is `Short`
and its times are `Kept`.
-/

namespace OufGateway.DelegationProof

open OufGateway.Lib
open Delegation
open Lua (Bytes Number Value)
open TrustedIdentity (bytes claim isTable)

variable {r : Runtime} {s : Settings} {b : Subject} {claims v : Value} {t : Nat} {e : ℚ} {exp : Number} {x : Bytes}

/-! ## `cjson` and the HMAC -/

/-- What is documented of the two libraries, `cjson` with the table that is sent. -/
structure Correct (r : Runtime) (sent : Fields) : Prop where
  order : (r.cjson.order sent).Perm sent
  table : isTable (r.cjson.decode (r.cjson.encode sent)) = true
  member : ∀ f ∈ sent, (r.cjson.decode (r.cjson.encode sent)).field f.1 = r.cjson.read f.2
  whole : ∀ n : Nat, n < 10 ^ 14 → r.cjson.rounded n = n
  digest : ∀ key message mac, r.hmac key message = some mac → mac.length = 32

/-- The bytes that fields take up, with their punctuation. -/
def weight (c : Cjson) (fields : Fields) : Nat :=
  (fields.map fun f => (c.quoted f.1).length + (c.written f.2).length + 2).sum + 1

theorem length_commas : ∀ ss : List Bytes, ss ≠ [] → (commas ss).length + 1 = (ss.map fun s => s.length + 1).sum
  | [], h => absurd rfl h
  | [s], _ => by simp [commas]
  | s :: u :: ss, _ => by
    have ih := length_commas (u :: ss) (by simp)
    simp only [commas, List.length_append, List.length_cons, List.map_cons, List.sum_cons] at ih ⊢
    omega

theorem length_encode {c : Cjson} {sent : Fields} (horder : (c.order sent).Perm sent) (h : sent ≠ []) :
    (c.encode sent).length = weight c sent := by
  have hperm := horder.map fun f => (c.quoted f.1).length + (c.written f.2).length + 2
  have hne : (c.order sent).map c.member ≠ [] := by
    intro hnil
    have hempty := List.map_eq_nil_iff.mp hnil
    exact h (hempty ▸ horder).symm.eq_nil
  have hcommas := length_commas _ hne
  have hmember : ∀ f, (c.member f).length + 1 = (c.quoted f.1).length + (c.written f.2).length + 2 := by
    intro f
    simp only [Cjson.member, List.length_append, List.length_cons]
    omega
  rw [List.map_map] at hcommas
  simp only [Function.comp_def, hmember] at hcommas
  rw [hperm.sum_eq] at hcommas
  simp only [Cjson.encode, List.length_append, List.length_cons, List.length_nil, weight]
  omega

/-! ## Issuing -/

theorem ensure_ok {status : Nat} {p : Prop} [Decidable p] {u : Unit} : ensure status p = .ok u ↔ p := by
  unfold ensure
  split <;> simp_all

theorem require_ok {α : Type} {status : Nat} {o : Option α} {a : α} : require status o = .ok a ↔ o = some a := by
  cases o <;> simp [require]

theorem numberOf_eq_some : numberOf v = some exp ↔ v = .number exp := by
  cases v <;> simp [numberOf]

theorem text_eq_some (h : text v = some x) : v = .string x ∧ text (.string x) = some x := by
  cases v with
  | string y =>
      have hy : y = x := by
        simp only [text] at h
        split at h
        · exact Option.some.inj h
        · cases h
      exact ⟨congrArg Value.string hy, hy ▸ h⟩
  | _ => cases h

/-- What `issue` has found of the claims. -/
structure Checked (s : Settings) (claims : Value) (t : Nat) (b : Subject) (exp : Number) : Prop where
  table : isTable claims = true
  issuer : (claim claims "iss").isString s.issuer = true
  audience : audienceHas (claim claims "aud") s.audience = true
  expires : claim claims "exp" = .number exp
  live : ¬ exp.le (.finite t) = true
  client : text ((claim claims "azp").or (claim claims "client_id")) = some b.client
  roles : roleRefs (claim claims "externalRoleRefs") = some b.roles
  principal : text (claim claims "sub") = some b.principal
  tenant : text (claim claims "tenant_id") = some b.tenant
  acr : text (claim claims "acr") = some b.acr
  scope : text (claim claims "scope") = some b.scope
  actor : text (claim claims "ouf_actor_type") = some b.actor

theorem subject_ok : subject s claims t = .ok (b, exp) ↔ Checked s claims t b exp := by
  simp only [subject, bind_eq_ok, ensure_ok, require_ok, numberOf_eq_some]
  constructor
  · rintro ⟨_, ⟨htable, hissuer, haudience⟩, _, hexp, _, hlive, _, hclient, _, hroles, _, hprincipal, _, htenant, _,
      hacr, _, hscope, _, hactor, h⟩
    obtain ⟨rfl, rfl⟩ := Prod.mk.inj (Except.ok.inj h)
    exact ⟨htable, hissuer, haudience, hexp, hlive, hclient, hroles, hprincipal, htenant, hacr, hscope, hactor⟩
  · intro h
    exact ⟨(), ⟨h.table, h.issuer, h.audience⟩, exp, h.expires, (), h.live, _, h.client, _, h.roles, _, h.principal, _,
      h.tenant, _, h.acr, _, h.scope, _, h.actor, rfl⟩

theorem issue_ok {issued : Issued} : issue r s claims t = .ok issued ↔
    ∃ b exp mac, Checked s claims t b exp ∧ sign r (payload r s b t (expiry exp t)) = some mac
      ∧ issued = ⟨payload r s b t (expiry exp t) ++ 46 :: encode64 mac, if b.roles = [] then none else some b.roles⟩ := by
  simp only [issue, bind_eq_ok, require_ok]
  constructor
  · rintro ⟨⟨b, exp⟩, hsubject, mac, hmac, h⟩
    exact ⟨b, exp, mac, subject_ok.mp hsubject, hmac, (Except.ok.inj h).symm⟩
  · rintro ⟨b, exp, mac, hchecked, hmac, rfl⟩
    exact ⟨(b, exp), subject_ok.mpr hchecked, mac, hmac, rfl⟩

theorem sign_length (hdigest : ∀ key message mac, r.hmac key message = some mac → mac.length = 32)
    {mac : Bytes} (h : sign r x = some mac) : mac.length = 32 := by
  unfold sign at h
  split at h
  · split at h
    · exact hdigest _ _ _ h
    · cases h
  · cases h

/-! ## The decoded proof -/

/-- What `cjson.decode` gives for an issued proof. -/
def decoded (r : Runtime) (s : Settings) (b : Subject) (t : Nat) (e : ℚ) : Value :=
  r.cjson.decode (r.cjson.encode (fields s b t e))

theorem claim_decoded (hr : Correct r (fields s b t e)) {k : String} {f : Scalar}
    (h : (bytes k, f) ∈ fields s b t e) : claim (decoded r s b t e) k = r.cjson.read f :=
  hr.member _ h

/-- The fields of a subject are those of the bearer's claims. -/
structure Agrees (claims : Value) (p : Value) (roles : Bytes) : Prop where
  issuer : claim p "iss" = claim claims "iss"
  principal : claim p "principal" = claim claims "sub"
  tenant : claim p "tenant" = claim claims "tenant_id"
  actor : claim p "actor" = claim claims "ouf_actor_type"
  acr : claim p "acr" = claim claims "acr"
  client : claim p "client" = (claim claims "azp").or (claim claims "client_id")
  scope : claim p "scope" = claim claims "scope"
  roles : roleRefs (claim claims "externalRoleRefs") = some roles

theorem isString_iff : v.isString x = true ↔ v = .string x := by
  cases v <;> simp [Value.isString]

theorem agrees_decoded (hr : Correct r (fields s b t e)) (h : Checked s claims t b exp) : Agrees claims (decoded r s b t e) b.roles := by
  constructor
  · rw [claim_decoded hr (f := .text s.issuer) (by simp [fields]), isString_iff.mp h.issuer]
    rfl
  · rw [claim_decoded hr (f := .text b.principal) (by simp [fields]), (text_eq_some h.principal).1]
    rfl
  · rw [claim_decoded hr (f := .text b.tenant) (by simp [fields]), (text_eq_some h.tenant).1]
    rfl
  · rw [claim_decoded hr (f := .text b.actor) (by simp [fields]), (text_eq_some h.actor).1]
    rfl
  · rw [claim_decoded hr (f := .text b.acr) (by simp [fields]), (text_eq_some h.acr).1]
    rfl
  · rw [claim_decoded hr (f := .text b.client) (by simp [fields]), (text_eq_some h.client).1]
    rfl
  · rw [claim_decoded hr (f := .text b.scope) (by simp [fields]), (text_eq_some h.scope).1]
    rfl
  · exact h.roles

/-! ## Checking -/

/-- The fields of the proof fit into a header that `verify` reads. -/
def Short (r : Runtime) (s : Settings) (b : Subject) (t : Nat) (e : ℚ) : Prop :=
  weight r.cjson (fields s b t e) ≤ 12255

/-- The times are the same for a clock that reads `τ`, once they have been written and read. -/
structure Kept (c : Cjson) (t : Nat) (e : ℚ) (τ : Nat) : Prop where
  iat : c.rounded t ≤ τ
  exp : τ < c.rounded e
  span : c.rounded e - c.rounded t ≤ 60

theorem length_header (hr : Correct r (fields s b t e)) {mac : Bytes} (hmac : sign r x = some mac) :
    (encode64 (r.cjson.encode (fields s b t e)) ++ 46 :: encode64 mac).length ≤ 16384 ↔ Short r s b t e := by
  have hencode : (r.cjson.encode (fields s b t e)).length = weight r.cjson (fields s b t e) :=
    length_encode hr.order (by simp [fields])
  rw [List.length_append, List.length_cons, length_encode64, length_encode64, hencode, sign_length hr.digest hmac, Short]
  omega

theorem times_iff {c : Cjson} {τ : Nat} :
    (¬ Number.lt (.finite τ) (.finite (c.rounded t)) = true ∧
        ¬ Number.le (.finite (c.rounded e)) (.finite τ) = true ∧
        ¬ Number.lt (.finite 60) (Number.sub (.finite (c.rounded e)) (.finite (c.rounded t))) = true) ↔
      Kept c t e τ := by
  simp only [Number.lt, Number.le, Number.sub, decide_eq_true_eq, not_lt, not_le]
  constructor
  · rintro ⟨hiat, hexp, hspan⟩
    exact ⟨hiat, hexp, hspan⟩
  · intro h
    exact ⟨h.iat, h.exp, h.span⟩

theorem same_text (h : text v = some x) : Value.same (.string x) v = true := by
  rw [(text_eq_some h).1]
  exact decide_eq_true rfl

theorem isSome_text (h : text v = some x) : (text (.string x)).isSome = true := by
  rw [(text_eq_some h).2]
  rfl

/-- Past the signature `verify` has the proof as it was encoded, and asks what was checked on issue,
apart from the times. -/
theorem verify_issued (hr : Correct r (fields s b t e)) (h : Checked s claims t b exp)
    (hactor : b.actor = bytes "HUMAN")
    (hscope : scopeHas (.string b.scope) (bytes "operations.status.read") = true) {mac : Bytes}
    (hmac : sign r (encode64 (r.cjson.encode (fields s b t e))) = some mac) {τ : Nat} {p : Value} {roles : Bytes} :
    verify r s (claim claims "tenant_id") τ
        (.string (encode64 (r.cjson.encode (fields s b t e)) ++ 46 :: encode64 mac)) = .ok (p, roles) ↔
      (Short r s b t e ∧ Kept r.cjson t e τ) ∧ p = decoded r s b t e ∧ roles = b.roles := by
  have hmacne : mac ≠ [] := List.length_pos_iff.mp (by rw [sign_length hr.digest hmac]; decide)
  have hsplit := splitProof_append (a := encode64 (r.cjson.encode (fields s b t e))) (b := encode64 mac)
    (encode64_ne_nil (by simp [Cjson.encode])) (encode64_ne_nil hmacne) (encode64_isWord _) (encode64_isWord _)
  have hverified : (decode64 (encode64 mac)).any (fun m => same mac m) = true := by
    rw [decode64_encode64]
    exact same_iff.mpr rfl
  have hp : ((decode64 (encode64 (r.cjson.encode (fields s b t e)))).map r.cjson.decode).getD .nil =
      decoded r s b t e := by
    rw [decode64_encode64]
    rfl
  rw [← length_header hr hmac]
  by_cases hlen : (encode64 (r.cjson.encode (fields s b t e)) ++ 46 :: encode64 mac).length ≤ 16384
  · simp only [verify, if_pos hlen, bind_eq_ok, require_ok, ensure_ok, hsplit, Option.some.injEq,
      exists_eq_left', hmac, hverified, hp, true_and]
    have hone : r.cjson.rounded 1 = 1 := by exact_mod_cast hr.whole 1 (by decide)
    have hv : (claim (decoded r s b t e) "v").isNat 1 = true := by
      rw [claim_decoded hr (f := .number 1) (by simp [fields])]
      simp [Cjson.read, Value.isNat, hone]
    have hconstant : ∀ k x y, (bytes k, .text x) ∈ fields s b t e → x = y →
        (claim (decoded r s b t e) k).isString y = true := by
      intro k x y hmem hxy
      rw [claim_decoded hr hmem]
      exact isString_iff.mpr (congrArg _ hxy)
    have hiat : claim (decoded r s b t e) "iat" = .number (.finite (r.cjson.rounded t)) :=
      claim_decoded hr (f := .number t) (by simp [fields])
    have hexp : claim (decoded r s b t e) "exp" = .number (.finite (r.cjson.rounded e)) :=
      claim_decoded hr (f := .number e) (by simp [fields])
    have hprincipal : claim (decoded r s b t e) "principal" = .string b.principal :=
      claim_decoded hr (f := .text b.principal) (by simp [fields])
    have htenant : claim (decoded r s b t e) "tenant" = .string b.tenant :=
      claim_decoded hr (f := .text b.tenant) (by simp [fields])
    have hacr : claim (decoded r s b t e) "acr" = .string b.acr :=
      claim_decoded hr (f := .text b.acr) (by simp [fields])
    have hclient : claim (decoded r s b t e) "client" = .string b.client :=
      claim_decoded hr (f := .text b.client) (by simp [fields])
    have hscope' : claim (decoded r s b t e) "scope" = .string b.scope :=
      claim_decoded hr (f := .text b.scope) (by simp [fields])
    have hroles : roleHeader (claim (decoded r s b t e) "roles") = some b.roles := by
      rw [claim_decoded hr (f := .text b.roles) (by simp [fields])]
      exact roleHeader_string.mpr ⟨rfl, roleRefs_words h.roles⟩
    have htexts : (["principal", "tenant", "acr", "client", "scope"].all fun k =>
        (text (claim (decoded r s b t e) k)).isSome) = true := by
      simp only [List.all_cons, List.all_nil, hprincipal, htenant, hacr, hclient, hscope',
        isSome_text h.principal, isSome_text h.tenant, isSome_text h.acr, isSome_text h.client,
        isSome_text h.scope, Bool.and_self]
    constructor
    · rintro ⟨_, _, -, iat, hiat', exp', hexp', _, htimes, _, -, _, -, a, ha, hreturn⟩
      rw [hiat, numberOf_eq_some] at hiat'
      rw [hexp, numberOf_eq_some] at hexp'
      obtain rfl := Value.number.inj hiat'
      obtain rfl := Value.number.inj hexp'
      obtain rfl := Option.some.inj (ha.symm.trans hroles)
      obtain ⟨rfl, rfl⟩ := Prod.mk.inj (Except.ok.inj hreturn)
      exact ⟨⟨hlen, times_iff.mp htimes⟩, rfl, rfl⟩
    · rintro ⟨⟨-, hkept⟩, rfl, rfl⟩
      refine ⟨(), (), ⟨hr.table, hv, ?_, ?_, ?_, ?_, ?_⟩, _, numberOf_eq_some.mpr hiat, _,
        numberOf_eq_some.mpr hexp, (), times_iff.mpr hkept, (), ⟨?_, ?_⟩, (), htexts, b.roles, hroles, rfl⟩
      · exact hconstant "purpose" _ _ (by simp [fields]) rfl
      · exact hconstant "iss" s.issuer _ (by simp [fields]) rfl
      · exact hconstant "aud" s.audience _ (by simp [fields]) rfl
      · exact hconstant "workload" s.mcpWorkload _ (by simp [fields]) rfl
      · exact hconstant "actor" b.actor _ (by simp [fields]) hactor
      · rw [htenant]
        exact same_text h.tenant
      · rw [hscope']
        exact hscope
  · simp only [verify, if_neg hlen, bind_eq_ok, require_ok]
    constructor
    · rintro ⟨_, hnone, -⟩
      cases hnone
    · rintro ⟨⟨h, -⟩, -⟩
      exact absurd h hlen

/-! ## For as long as it should be -/

def bytesOf : Value → Bytes
  | .string x => x
  | _ => []

/-- The texts of the claims, under the names they have in a proof. -/
def carried (claims : Value) : Subject where
  principal := bytesOf (claim claims "sub")
  tenant := bytesOf (claim claims "tenant_id")
  acr := bytesOf (claim claims "acr")
  scope := bytesOf (claim claims "scope")
  actor := bytesOf (claim claims "ouf_actor_type")
  client := bytesOf ((claim claims "azp").or (claim claims "client_id"))
  roles := (roleRefs (claim claims "externalRoleRefs")).getD []

/-- `min(claims.exp, t + 60)`, if it is a number there is time before. -/
def last (claims : Value) (t : Nat) : Option ℚ :=
  (numberOf (claim claims "exp")).bind fun exp =>
    match expiry exp t with
    | .finite e => some e
    | _ => none

theorem bytesOf_text (h : text v = some x) : bytesOf v = x := by
  rw [(text_eq_some h).1]
  rfl

theorem Checked.carried_eq (h : Checked s claims t b exp) : carried claims = b := by
  simp only [carried, bytesOf_text h.principal, bytesOf_text h.tenant, bytesOf_text h.acr,
    bytesOf_text h.scope, bytesOf_text h.actor, bytesOf_text h.client, h.roles, Option.getD_some]

theorem Checked.last_eq_some (h : Checked s claims t b exp) : last claims t = some e ↔ expiry exp t = .finite e := by
  unfold last
  rw [numberOf_eq_some.mpr h.expires, Option.bind_some]
  cases expiry exp t with
  | finite e' => simp
  | _ => simp

theorem Checked.before (h : Checked s claims t b exp) (he : expiry exp t = .finite e) : (t : ℚ) < e := by
  have hlive := h.live
  unfold expiry Number.min at he
  split at he
  · obtain rfl := Number.finite.inj he
    linarith
  · subst he
    simpa [Number.le] using hlive

/-- An issued proof is accepted in every second before it is over, with the fields of the claims, if
and only if it is short enough for the header and its times survive `cjson`. -/
theorem issued_is_accepted_iff {issued : Issued} (h : issue r s claims t = .ok issued)
    (hr : ∀ e, last claims t = some e → Correct r (fields s (carried claims) t e))
    (hactor : claim claims "ouf_actor_type" = .string (bytes "HUMAN"))
    (hscope : scopeHas (claim claims "scope") (bytes "operations.status.read") = true) :
    (∀ τ : Nat, ∀ e, last claims t = some e → t ≤ τ → τ < e →
      ∃ p roles, verify r s (claim claims "tenant_id") τ (.string issued.delegation) = .ok (p, roles) ∧
        Agrees claims p roles) ↔
    ∀ e, last claims t = some e →
      weight r.cjson (fields s (carried claims) t e) ≤ 12255 ∧
        ∀ τ : Nat, t ≤ τ → τ < e → Kept r.cjson t e τ := by
  obtain ⟨b, exp, mac, hchecked, hmac, rfl⟩ := issue_ok.mp h
  have hb := hchecked.carried_eq
  have hhuman : b.actor = bytes "HUMAN" := by rw [← hb, carried, hactor, bytesOf]
  have hread : scopeHas (.string b.scope) (bytes "operations.status.read") = true := by
    rw [← (text_eq_some hchecked.scope).1]
    exact hscope
  -- with a finite end the payload is what was encoded
  have hstep : ∀ (τ : Nat) (e : ℚ) (p : Value) (roles : Bytes), last claims t = some e →
      (verify r s (claim claims "tenant_id") τ
          (.string (payload r s b t (expiry exp t) ++ 46 :: encode64 mac)) = .ok (p, roles) ↔
        (Short r s b t e ∧ Kept r.cjson t e τ) ∧ p = decoded r s b t e ∧ roles = b.roles) := by
    intro τ e p roles he
    have hfinite := hchecked.last_eq_some.mp he
    have hcorrect := hb ▸ hr e he
    rw [hfinite] at hmac ⊢
    exact verify_issued hcorrect hchecked hhuman hread hmac
  rw [hb]
  constructor
  · intro haccepted e he
    have hbefore := hchecked.before (hchecked.last_eq_some.mp he)
    obtain ⟨p, roles, hfirst, -⟩ := haccepted t e he le_rfl hbefore
    refine ⟨((hstep t e p roles he).mp hfirst).1.1, fun τ hτ hτe => ?_⟩
    obtain ⟨p, roles, hverify, -⟩ := haccepted τ e he hτ hτe
    exact ((hstep τ e p roles he).mp hverify).1.2
  · intro hfits τ e he hτ hτe
    obtain ⟨hshort, hkept⟩ := hfits e he
    refine ⟨decoded r s b t e, b.roles, (hstep τ e _ _ he).mpr ⟨⟨hshort, hkept τ hτ hτe⟩, rfl, rfl⟩, ?_⟩
    exact agrees_decoded (hb ▸ hr e he) hchecked

/-! ## A short proof and a long one -/

/-- A byte of a text without control characters. -/
def escapeByte (b : UInt8) : Bytes := if b = 34 ∨ b = 92 ∨ b = 47 then [92, b] else [b]

def sampleQuoted (x : Bytes) : Bytes := 34 :: x.flatMap escapeByte ++ [34]

def record (entries : List (Bytes × Value)) : Value := .table (entries.map fun e => (.string e.1, e.2)) 0

/-- What is decoded where this table was written. -/
def tableOf (c : Cjson) (sent : Fields) : Value := record (sent.map fun f => (f.1, c.read f.2))

/-- `cjson`, of whole numbers, with one table that is written. -/
def sampleWriter : Cjson where
  quoted := sampleQuoted
  numeral q := bytes (toString q.floor)
  order sent := sent
  decode _ := .nil
  rounded q := q.floor

def sampleCjson (sent : Fields) : Cjson :=
  { sampleWriter with
    decode := fun raw => if raw = sampleWriter.encode sent then tableOf sampleWriter sent else .nil }

/-- HMAC with SHA-256, for a key of 64 bytes. -/
def hmacSha256 (key message : Bytes) : Bytes :=
  Sha256.digest (key.map (· ^^^ 0x5c) ++ Sha256.digest (key.map (· ^^^ 0x36) ++ message))

def sampleRuntime (sent : Fields) : Runtime :=
  ⟨sampleCjson sent, fun key message => some (hmacSha256 key message), some (List.replicate 64 97)⟩

def sampleSettings : Settings := ⟨bytes "iam", bytes "ouf", bytes "mcp"⟩

/-- A token in which one text is in four claims. -/
def sampleEntries (name : Bytes) : List (Bytes × Value) :=
  [(bytes "iss", .string (bytes "iam")), (bytes "aud", .string (bytes "ouf")), (bytes "exp", .number (.finite 2000)),
    (bytes "azp", .string name), (bytes "sub", .string name), (bytes "tenant_id", .string name),
    (bytes "acr", .string name), (bytes "scope", .string (bytes "operations.status.read")),
    (bytes "ouf_actor_type", .string (bytes "HUMAN")), (bytes "externalRoleRefs", Lua.list [.string (bytes "reader")])]

def sampleClaims (name : Bytes) : Value := record (sampleEntries name)

def sampleSubject (name : Bytes) : Subject :=
  ⟨name, name, name, bytes "operations.status.read", bytes "HUMAN", name, bytes "reader"⟩

def sampleSent (name : Bytes) : Fields := fields sampleSettings (sampleSubject name) 1000 1060

theorem field_record {entries : List (Bytes × Value)} (h : (entries.map (·.1)).Nodup) {f : Bytes × Value}
    (hf : f ∈ entries) : (record entries).field f.1 = f.2 := by
  induction entries with
  | nil => cases hf
  | cons g entries ih =>
      rw [List.map_cons, List.nodup_cons] at h
      have hfind : ∀ n, (record (g :: entries)).field n = if g.1 = n then g.2 else (record entries).field n := by
        intro n
        by_cases hg : g.1 = n
        · simp [record, Value.field, Value.lookup, Value.isString, hg]
        · simp [record, Value.field, Value.lookup, Value.isString, hg]
      rcases List.mem_cons.mp hf with rfl | hf
      · rw [hfind, if_pos rfl]
      · have hne : g.1 ≠ f.1 := fun heq => h.1 (heq ▸ List.mem_map_of_mem hf)
        rw [hfind, if_neg hne]
        exact ih h.2 hf

theorem nodup_fields : ((fields s b t e).map (·.1)).Nodup := by
  have hkeys : (fields s b t e).map (·.1) = ["v", "purpose", "aud", "iss", "workload", "iat", "exp", "principal",
      "tenant", "actor", "acr", "client", "scope", "roles"].map bytes := rfl
  rw [hkeys]
  decide +kernel

theorem field_tableOf {c : Cjson} {f : Bytes × Scalar} (hf : f ∈ fields s b t e) :
    (tableOf c (fields s b t e)).field f.1 = c.read f.2 := by
  have hkeys : (((fields s b t e).map fun f => (f.1, c.read f.2)).map (·.1)).Nodup := by
    rw [List.map_map]
    exact nodup_fields
  exact field_record hkeys (List.mem_map_of_mem (f := fun f : Bytes × Scalar => (f.1, c.read f.2)) hf)

theorem correct_sample (name : Bytes) : Correct (sampleRuntime (sampleSent name)) (sampleSent name) := by
  have hdecode : (sampleRuntime (sampleSent name)).cjson.decode
      ((sampleRuntime (sampleSent name)).cjson.encode (sampleSent name)) =
        tableOf sampleWriter (sampleSent name) := if_pos rfl
  refine ⟨.refl _, ?_, fun f hf => ?_, fun n _ => ?_, fun key message mac hmac => ?_⟩
  · rw [hdecode]
    rfl
  · rw [hdecode]
    exact field_tableOf hf
  · show (((n : ℚ).floor : ℤ) : ℚ) = n
    exact_mod_cast congrArg Int.cast (Rat.floor_intCast n)
  · obtain rfl := Option.some.inj hmac
    exact Sha256.length_digest _

theorem claim_sample {name : Bytes} {k : String} {v : Value} (h : (bytes k, v) ∈ sampleEntries name) :
    claim (sampleClaims name) k = v := by
  have hkeys : (sampleEntries name).map (·.1) = ["iss", "aud", "exp", "azp", "sub", "tenant_id", "acr", "scope",
      "ouf_actor_type", "externalRoleRefs"].map bytes := rfl
  have hnodup : ((sampleEntries name).map (·.1)).Nodup := by
    rw [hkeys]
    decide
  exact field_record hnodup h

theorem checked_sample {name : Bytes} (h : text (.string name) = some name) :
    Checked sampleSettings (sampleClaims name) 1000 (sampleSubject name) (.finite 2000) := by
  have hclaim : ∀ k v, (bytes k, v) ∈ sampleEntries name → claim (sampleClaims name) k = v :=
    fun k v hmem => claim_sample hmem
  refine ⟨rfl, ?_, ?_, hclaim "exp" _ (by simp [sampleEntries]), by decide, ?_, ?_, ?_, ?_, ?_, ?_, ?_⟩
  · rw [hclaim "iss" (.string (bytes "iam")) (by simp [sampleEntries])]
    decide
  · rw [hclaim "aud" (.string (bytes "ouf")) (by simp [sampleEntries])]
    decide
  · rw [hclaim "azp" (.string name) (by simp [sampleEntries])]
    exact h
  · rw [hclaim "externalRoleRefs" (Lua.list [.string (bytes "reader")]) (by simp [sampleEntries])]
    show roleRefs (Lua.list [.string (bytes "reader")]) = some (bytes "reader")
    decide
  · rw [hclaim "sub" (.string name) (by simp [sampleEntries])]
    exact h
  · rw [hclaim "tenant_id" (.string name) (by simp [sampleEntries])]
    exact h
  · rw [hclaim "acr" (.string name) (by simp [sampleEntries])]
    exact h
  · rw [hclaim "scope" (.string (bytes "operations.status.read")) (by simp [sampleEntries])]
    show text (.string (bytes "operations.status.read")) = some (bytes "operations.status.read")
    decide
  · rw [hclaim "ouf_actor_type" (.string (bytes "HUMAN")) (by simp [sampleEntries])]
    show text (.string (bytes "HUMAN")) = some (bytes "HUMAN")
    decide

theorem expiry_sample : expiry (.finite 2000) 1000 = .finite 1060 := by
  have hlt : Number.lt (.finite ((1000 : Nat) + 60)) (.finite 2000) = true := decide_eq_true (by norm_num)
  rw [expiry, Number.min, if_pos hlt]
  norm_num

theorem last_sample {name : Bytes} (h : text (.string name) = some name) :
    last (sampleClaims name) 1000 = some e ↔ e = 1060 := by
  rw [(checked_sample h).last_eq_some]
  rw [expiry_sample, Number.finite.injEq, eq_comm]

theorem issue_sample {name : Bytes} (h : text (.string name) = some name) :
    ∃ issued mac, issue (sampleRuntime (sampleSent name)) sampleSettings (sampleClaims name) 1000 = .ok issued ∧
      sign (sampleRuntime (sampleSent name))
        (encode64 ((sampleRuntime (sampleSent name)).cjson.encode (sampleSent name))) = some mac ∧
      issued.delegation =
        encode64 ((sampleRuntime (sampleSent name)).cjson.encode (sampleSent name)) ++ 46 :: encode64 mac := by
  have hkey : (List.replicate 64 (97 : UInt8)).length = 64 ∧ (List.replicate 64 97).all isHexByte = true := by
    decide
  have hsign : ∀ x, sign (sampleRuntime (sampleSent name)) x =
      some (hmacSha256 (List.replicate 64 97) (bytes "ouf-mcp-delegation-v1." ++ x)) := by
    intro x
    unfold sign
    dsimp only [sampleRuntime]
    rw [if_pos hkey]
  have hpayload : payload (sampleRuntime (sampleSent name)) sampleSettings (sampleSubject name) 1000
      (expiry (.finite 2000) 1000) =
        encode64 ((sampleRuntime (sampleSent name)).cjson.encode (sampleSent name)) := by
    rw [expiry_sample]
    rfl
  rw [← hpayload]
  exact ⟨_, _, issue_ok.mpr ⟨_, _, _, checked_sample h, hsign _, rfl⟩, hsign _, rfl⟩

theorem carried_sample {name : Bytes} (h : text (.string name) = some name) :
    carried (sampleClaims name) = sampleSubject name := (checked_sample h).carried_eq

theorem correct_last {name : Bytes} (h : text (.string name) = some name) (he : last (sampleClaims name) 1000 = some e) :
    Correct (sampleRuntime (sampleSent name))
      (fields sampleSettings (carried (sampleClaims name)) 1000 e) := by
  obtain rfl := (last_sample h).mp he
  rw [carried_sample h]
  exact correct_sample name

theorem short_is_accepted : ∃ issued, ∃ p roles,
    issue (sampleRuntime (sampleSent (bytes "a"))) sampleSettings (sampleClaims (bytes "a")) 1000 = .ok issued ∧
      verify (sampleRuntime (sampleSent (bytes "a"))) sampleSettings (claim (sampleClaims (bytes "a")) "tenant_id")
        1059 (.string issued.delegation) = .ok (p, roles) ∧
      Agrees (sampleClaims (bytes "a")) p roles := by
  have h : text (.string (bytes "a")) = some (bytes "a") := by decide +kernel
  obtain ⟨issued, -, hissue, -⟩ := issue_sample h
  have hfits : ∀ e, last (sampleClaims (bytes "a")) 1000 = some e →
      weight (sampleCjson (sampleSent (bytes "a"))) (fields sampleSettings (carried (sampleClaims (bytes "a"))) 1000 e)
          ≤ 12255 ∧
        ∀ τ : Nat, 1000 ≤ τ → τ < e → Kept (sampleCjson (sampleSent (bytes "a"))) 1000 e τ := by
    intro e he
    obtain rfl := (last_sample h).mp he
    rw [carried_sample h]
    refine ⟨by decide +kernel, fun τ hτ hτe => ⟨?_, ?_, by decide +kernel⟩⟩
    · have hiat : (sampleCjson (sampleSent (bytes "a"))).rounded (1000 : Nat) = 1000 := by decide +kernel
      rw [hiat]
      exact_mod_cast hτ
    · have hexp : (sampleCjson (sampleSent (bytes "a"))).rounded 1060 = 1060 := by decide +kernel
      rw [hexp]
      exact hτe
  obtain ⟨p, roles, hverify⟩ := (issued_is_accepted_iff hissue (fun e he => correct_last h he)
    (claim_sample (by simp [sampleEntries])) (by decide +kernel)).mpr hfits 1059 1060 ((last_sample h).mpr rfl)
      (by decide) (by norm_num)
  exact ⟨issued, p, roles, hissue, hverify⟩

theorem verify_long {tenant : Value} {τ : Nat} (h : 16384 < x.length) : verify r s tenant τ (.string x) = .error 403 := by
  rw [verify, if_neg (Nat.not_le.mpr h)]
  rfl

def longName : Bytes := List.replicate 4096 97

theorem length_quoted_longName : (sampleQuoted longName).length = 4098 := by
  rw [sampleQuoted, longName, List.length_append, List.length_cons, List.length_flatMap, List.map_replicate,
    List.sum_replicate]
  rfl

theorem text_longName : text (.string longName) = some longName := by
  have hlength : longName.length = 4096 := List.length_replicate
  have hcontrol : longName.all (fun b => !Lua.isControl b) = true := by
    rw [longName, List.all_replicate]
    rfl
  rw [text, if_pos ⟨by omega, by omega, hcontrol⟩]

/-- Texts of the length that `text` allows make a proof that is refused at once. -/
theorem long_is_refused : ∃ issued,
    issue (sampleRuntime (sampleSent longName)) sampleSettings (sampleClaims longName) 1000 = .ok issued ∧
      (∀ e, last (sampleClaims longName) 1000 = some e →
        Correct (sampleRuntime (sampleSent longName))
          (fields sampleSettings (carried (sampleClaims longName)) 1000 e)) ∧
      last (sampleClaims longName) 1000 = some 1060 ∧
      claim (sampleClaims longName) "ouf_actor_type" = .string (bytes "HUMAN") ∧
      scopeHas (claim (sampleClaims longName) "scope") (bytes "operations.status.read") = true ∧
      verify (sampleRuntime (sampleSent longName)) sampleSettings (claim (sampleClaims longName) "tenant_id") 1000
        (.string issued.delegation) = .error 403 := by
  obtain ⟨issued, mac, hissue, hmac, hdelegation⟩ := issue_sample text_longName
  have hscope : claim (sampleClaims longName) "scope" = .string (bytes "operations.status.read") :=
    claim_sample (by simp [sampleEntries])
  have hshort : ¬ Short (sampleRuntime (sampleSent longName)) sampleSettings (sampleSubject longName) 1000 1060 := by
    have hname : ((sampleCjson (sampleSent longName)).written (.text longName)).length = 4098 :=
      length_quoted_longName
    simp only [Short, weight, fields, sampleSubject, sampleRuntime, List.map_cons, List.sum_cons, hname]
    omega
  refine ⟨issued, hissue, fun e he => correct_last text_longName he, (last_sample text_longName).mpr rfl,
    claim_sample (by simp [sampleEntries]), ?_, ?_⟩
  · rw [hscope]
    decide +kernel
  · rw [hdelegation]
    exact verify_long (Nat.not_le.mp fun h => hshort ((length_header (correct_sample longName) hmac).mp h))

end OufGateway.DelegationProof
