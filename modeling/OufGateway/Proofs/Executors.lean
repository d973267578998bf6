import OufGateway.Proofs.ProofAccepted
import OufGateway.Ref.Executors

/-!
# What an executor has found

Each check of the executors, read backwards: what holds of the bearer, of the proof and of
the envelope once it has passed. The texts of a proof are strings, so where an executor
compares one with another value the two are the same. Its times are numbers, and Lua
has one that is neither before nor after any other: a proof with such a time is in
time whatever the clock says. No proof with one is ever issued.
-/

namespace OufGateway.Executors

open OufGateway.Lib
open Delegation
open DelegationProof (Settings ensure require ensure_ok require_ok numberOf numberOf_eq_some sign isString_iff
  text_eq_some verify)
open Headers (Lines entry clear set clearWhere lower values)
open Lua (Bytes Number Value)
open TrustedIdentity (bytes claim isTable)

variable {w : Worker} {s : Settings} {r : Request} {now : Nat} {v : Verified} {claims tenantId delegation e p x y : Value}
  {roles : Bytes} {rules : ProofRules} {c : Checks} {a : Admitted}

/-! ## Values -/

theorem same_string {b : Bytes} (h : Value.same (.string b) y = true) : y = .string b := by
  cases y <;> simp_all [Value.same]

theorem same_of_string {b : Bytes} (h : Value.same x (.string b) = true) : x = .string b := by
  cases x <;> simp_all [Value.same]

theorem exists_of_isSome_text (h : (text x).isSome = true) : ∃ b, text x = some b ∧ x = .string b := by
  obtain ⟨b, hb⟩ := Option.isSome_iff_exists.mp h
  exact ⟨b, hb, (text_eq_some hb).1⟩

theorem splitProof_eq_some {proof payload signature : Bytes} (h : splitProof proof = some (payload, signature)) :
    proof = payload ++ 46 :: signature ∧ payload ≠ [] ∧ payload.all isWordByte = true := by
  unfold splitProof at h
  dsimp only at h
  split at h
  · next signature' hdrop =>
    split at h
    · next hne =>
      obtain ⟨rfl, rfl⟩ := Prod.mk.inj (Option.some.inj h)
      have happend := List.takeWhile_append_dropWhile (p := isWordByte) (l := proof)
      rw [hdrop] at happend
      exact ⟨happend.symm, hne.1, List.all_takeWhile⟩
    · cases h
  · cases h

/-! ## The bearer -/

theorem bearerToken_append {token : Bytes} (hne : token ≠ []) (htoken : token.all (fun b => !Lua.isSpace b) = true) :
    bearerToken (bytes "Bearer " ++ token) = some token := by
  have htake : (bytes "Bearer " ++ token).take 6 = bytes "Bearer" := rfl
  have hdrop : (bytes "Bearer " ++ token).drop 6 = 32 :: token := rfl
  have hfirst : token.dropWhile Lua.isSpace = token := by
    cases token with
    | nil => rfl
    | cons b token =>
        have hb := (List.all_eq_true.mp htoken) b List.mem_cons_self
        exact List.dropWhile_cons_of_neg (by simpa using hb)
  unfold bearerToken
  rw [htake, hdrop, List.dropWhile_cons_of_pos rfl, hfirst]
  exact if_pos ⟨.inl rfl, rfl, hne, htoken⟩

theorem tokenPayload_append {b d f : Bytes} (hb : b ≠ []) (hd : d ≠ []) (hf : f ≠ []) (hdots : ∀ x ∈ [b, d, f], 46 ∉ x) :
    tokenPayload (b ++ 46 :: (d ++ 46 :: f)) = some d := by
  have hjoin : b ++ 46 :: (d ++ 46 :: f) = [46].intercalate [b, d, f] := by
    simp [List.intercalate, List.intersperse]
  unfold tokenPayload
  rw [hjoin, List.splitOn_intercalate 46 hdots (by simp)]
  exact if_pos ⟨hb, hd, hf⟩

/-- What is in a token is read, whatever its header and its signature are. -/
theorem jwtClaims_bearer {b f raw : Bytes} (hb : b ≠ [] ∧ b.all isWordByte = true) (hf : f ≠ [] ∧ f.all isWordByte = true)
    (hraw : raw ≠ []) :
    jwtClaims w (some (bytes "Bearer " ++ (b ++ 46 :: (encode64 raw ++ 46 :: f)))) = w.cjson.decode raw := by
  have hword : ∀ x ∈ [b, encode64 raw, f], x.all isWordByte = true := by
    intro x hx
    simp only [List.mem_cons, List.not_mem_nil, or_false] at hx
    rcases hx with rfl | rfl | rfl
    · exact hb.2
    · exact encode64_isWord raw
    · exact hf.2
  have hdots : ∀ x ∈ [b, encode64 raw, f], 46 ∉ x := by
    intro x hx hmem
    have h := List.all_eq_true.mp (hword x hx) 46 hmem
    cases h
  have hspace : ∀ x : UInt8, isWordByte x = true → Lua.isSpace x = false := by
    intro x hx
    unfold isWordByte at hx
    unfold Lua.isSpace
    grind
  have hall : (b ++ 46 :: (encode64 raw ++ 46 :: f)).all (fun x => !Lua.isSpace x) = true := by
    have hdot : Lua.isSpace 46 = false := rfl
    rw [List.all_eq_true]
    intro x hx
    rw [Bool.not_eq_true']
    simp only [List.mem_append, List.mem_cons] at hx
    rcases hx with hx | rfl | hx | rfl | hx
    · exact hspace x (List.all_eq_true.mp hb.2 x hx)
    · exact hdot
    · exact hspace x (List.all_eq_true.mp (encode64_isWord raw) x hx)
    · exact hdot
    · exact hspace x (List.all_eq_true.mp hf.2 x hx)
  unfold jwtClaims
  rw [Option.bind_some, bearerToken_append (by simp) hall, Option.bind_some,
    tokenPayload_append hb.1 (encode64_ne_nil hraw) hf.1 hdots, Option.bind_some, decode64_encode64]
  rfl

/-- What is known of the workload that asks. -/
structure Workload (w : Worker) (s : Settings) (r : Request) (now : Nat) (claims : Value) : Prop where
  decoded : claims = jwtClaims w r.authorization
  issuer : claim claims "iss" = .string s.issuer
  audience : audienceHas (claim claims "aud") s.audience = true
  service : claim claims "ouf_actor_type" = .string (bytes "SERVICE")
  client : (claim claims "azp").or (claim claims "client_id") = .string s.mcpWorkload
  live : ∃ exp, claim claims "exp" = .number exp ∧ exp.le (.finite now) = false

theorem caller_ok (h : caller w s r now = .ok claims) : Workload w s r now claims := by
  simp only [caller, bind_eq_ok, ensure_ok, require_ok, numberOf_eq_some] at h
  obtain ⟨-, ⟨-, hissuer, haudience, hservice, hclient⟩, exp, hexp, -, hlive, h⟩ := h
  obtain rfl := Except.ok.inj h
  exact ⟨rfl, isString_iff.mp hissuer, haudience, isString_iff.mp hservice, isString_iff.mp hclient, exp, hexp,
    Bool.eq_false_iff.mpr hlive⟩

/-! ## The proof -/

/-- `iat` is not after now, `exp` is, and no more than a minute lies between. -/
def InTime (iat exp : Number) (now : Nat) : Prop :=
  (∃ i x : ℚ, iat = .finite i ∧ exp = .finite x ∧ i ≤ now ∧ now < x ∧ x - i ≤ 60) ∨ iat = .nan ∨ exp = .nan

theorem inTime_of {iat exp : Number} (hiat : ¬ Number.lt (.finite now) iat = true)
    (hexp : ¬ exp.le (.finite now) = true) (hspan : ¬ Number.lt (.finite 60) (exp.sub iat) = true) :
    InTime iat exp now := by
  cases iat with
  | nan => exact .inr (.inl rfl)
  | inf negative =>
      cases exp with
      | nan => exact .inr (.inr rfl)
      | finite x => cases negative <;> simp_all [Number.lt, Number.sub]
      | inf negative' => cases negative <;> cases negative' <;> simp_all [Number.lt, Number.le, Number.sub]
  | finite i =>
      cases exp with
      | nan => exact .inr (.inr rfl)
      | finite x =>
          simp only [Number.lt, Number.le, Number.sub, decide_eq_true_eq, not_lt, not_le] at hiat hexp hspan
          exact .inl ⟨i, x, rfl, rfl, hiat, hexp, hspan⟩
      | inf negative => cases negative <;> simp_all [Number.lt, Number.le, Number.sub]

/-- A payload with the code that the delegation key makes for it. -/
structure Signed (w : Worker) (proof payload signature mac : Bytes) : Prop where
  parts : proof = payload ++ 46 :: signature
  nonempty : payload ≠ []
  word : payload.all isWordByte = true
  code : sign w.toRuntime payload = some mac
  same : decode64 signature = some mac

/-- What is known of a proof. -/
structure Proven (w : Worker) (s : Settings) (rules : ProofRules) (tenantId : Value) (now : Nat) (delegation : Value)
    (v : Verified) : Prop where
  header : delegation = .string v.proof
  signed : ∃ payload signature mac, Signed w v.proof payload signature mac ∧
    v.p = ((decode64 payload).map w.cjson.decode).getD rules.blank
  purpose : claim v.p "purpose" = .string (bytes "mcp-execute")
  issuer : claim v.p "iss" = .string s.issuer
  audience : claim v.p "aud" = .string s.audience
  workload : claim v.p "workload" = .string s.mcpWorkload
  actor : ∃ name ∈ rules.actors, claim v.p "actor" = .string (bytes name)
  times : ∃ iat, claim v.p "iat" = .number iat ∧ claim v.p "exp" = .number v.exp ∧ InTime iat v.exp now
  tenant : claim v.p "tenant" = tenantId
  scope : ∀ wanted ∈ rules.scope, scopeHas (claim v.p "scope") wanted = true
  texts : ∀ k ∈ ["principal", "tenant", "acr", "client", "scope"], ∃ b, claim v.p k = .string b
  roles : roleHeader (claim v.p "roles") = some v.roles

theorem checkProof_ok (h : checkProof w s rules tenantId now delegation = .ok v) :
    Proven w s rules tenantId now delegation v := by
  simp only [checkProof, bind_eq_ok, ensure_ok, require_ok, numberOf_eq_some] at h
  obtain ⟨proof, hproof, ⟨payload, signature⟩, hsplit, mac, hmac, -, hsame, -,
    ⟨-, -, hpurpose, hissuer, haudience, hworkload, hactor⟩, iat, hiat, exp, hexp, -, ⟨hafter, hlive, -, hspan⟩,
    -, ⟨htenant, hscope⟩, -, htexts, roles, hroles, h⟩ := h
  obtain rfl := Except.ok.inj h
  have htext : ∀ k ∈ ["principal", "tenant", "acr", "client", "scope"], ∃ b,
      claim (((decode64 payload).map w.cjson.decode).getD rules.blank) k = .string b := by
    intro k hk
    obtain ⟨b, -, hb⟩ := exists_of_isSome_text (List.all_eq_true.mp htexts k hk)
    exact ⟨b, hb⟩
  have hheader : delegation = .string proof := by
    cases delegation with
    | string header =>
        dsimp only at hproof
        split at hproof
        · rw [Option.some.inj hproof]
        · cases hproof
    | _ => cases hproof
  have hsigned : decode64 signature = some mac := by
    cases hd : decode64 signature with
    | none =>
        rw [hd] at hsame
        cases hsame
    | some m =>
        rw [hd] at hsame
        rw [same_iff.mp hsame]
  obtain ⟨name, hname, hactor⟩ := List.any_eq_true.mp hactor
  obtain ⟨tenant, htenant'⟩ := htext "tenant" (by simp)
  obtain ⟨hparts, hne, hword⟩ := splitProof_eq_some hsplit
  refine ⟨hheader, ⟨payload, signature, mac, ⟨hparts, hne, hword, hmac, hsigned⟩, rfl⟩, isString_iff.mp hpurpose,
    isString_iff.mp hissuer, isString_iff.mp haudience, isString_iff.mp hworkload, ⟨name, hname, isString_iff.mp hactor⟩,
    ⟨iat, hiat, hexp, inTime_of hafter hlive hspan⟩, ?_, ?_, htext, hroles⟩
  · rw [htenant'] at htenant ⊢
    exact (same_string htenant).symm
  · intro wanted hwanted
    rw [Option.mem_def.mp hwanted] at hscope
    exact hscope

/-- The check of `execute_status` is the one an issued proof is followed through. -/
theorem verify_ok : verify w.toRuntime s tenantId now delegation = .ok (p, roles) ↔
    ∃ proof exp, checkProof w s { scope := some (bytes "operations.status.read") } tenantId now delegation =
      .ok ⟨proof, p, exp, roles⟩ := by
  simp only [verify, checkProof, bind_eq_ok, ensure_ok, require_ok, List.any_cons, List.any_nil, Bool.or_false,
    Bool.false_eq_true, false_and, not_false_eq_true, true_and, Option.all_some]
  constructor
  · rintro ⟨proof, hproof, split, hsplit, mac, hmac, u₁, hsame, u₂, hclosed, iat, hiat, exp, hexp, u₃, htimes, u₄, hscope,
      u₅, htexts, roles', hroles, h⟩
    obtain ⟨rfl, rfl⟩ := Prod.mk.inj (Except.ok.inj h)
    exact ⟨proof, exp, proof, hproof, split, hsplit, mac, hmac, u₁, hsame, u₂, hclosed, iat, hiat, exp, hexp, u₃, htimes, u₄,
      hscope, u₅, htexts, roles', hroles, rfl⟩
  · rintro ⟨proof', exp', proof, hproof, split, hsplit, mac, hmac, u₁, hsame, u₂, hclosed, iat, hiat, exp, hexp, u₃, htimes,
      u₄, hscope, u₅, htexts, roles', hroles, h⟩
    obtain ⟨rfl, rfl, rfl, rfl⟩ := Verified.mk.inj (Except.ok.inj h)
    exact ⟨proof, hproof, split, hsplit, mac, hmac, u₁, hsame, u₂, hclosed, iat, hiat, exp, hexp, u₃, htimes, u₄,
      hscope, u₅, htexts, roles', hroles, rfl⟩

/-! ## The envelope -/

/-- The identity in an envelope is the one of the proof. -/
structure Identified (s : Settings) (orWorkload : Bool) (p e : Value) : Prop where
  principal : claim (claim e "Identity") "PrincipalID" = claim p "principal"
  tenant : claim (claim e "Identity") "TenantID" = claim p "tenant"
  actor : claim (claim e "Identity") "ActorType" = claim p "actor"
  acr : claim (claim e "Identity") "AuthenticationContextRef" = claim p "acr"
  client : claim (claim e "Identity") "ServicePrincipalID" = claim p "client" ∨
    orWorkload = true ∧ claim (claim e "Identity") "ServicePrincipalID" = .string s.mcpWorkload

theorem checkIdentity_ok {orWorkload : Bool} {u : Unit} (h : checkIdentity s orWorkload v.p e = .ok u)
    (hp : Proven w s rules tenantId now delegation v) : Identified s orWorkload v.p e := by
  obtain ⟨hprincipal, htenant, hactor, hacr, hclient⟩ := ensure_ok.mp h
  obtain ⟨principal, hprincipal'⟩ := hp.texts "principal" (by simp)
  obtain ⟨tenant, htenant'⟩ := hp.texts "tenant" (by simp)
  obtain ⟨acr, hacr'⟩ := hp.texts "acr" (by simp)
  obtain ⟨client, hclient'⟩ := hp.texts "client" (by simp)
  obtain ⟨name, -, hname⟩ := hp.actor
  rw [hprincipal'] at hprincipal
  rw [htenant'] at htenant
  rw [hacr'] at hacr
  rw [hname] at hactor
  rw [hclient'] at hclient
  refine ⟨?_, ?_, ?_, ?_, ?_⟩
  · rw [hprincipal', same_of_string hprincipal]
  · rw [htenant', same_of_string htenant]
  · rw [hname, same_of_string hactor]
  · rw [hacr', same_of_string hacr]
  · rcases hclient with hclient | ⟨hworkload, hclient⟩
    · exact .inl (by rw [hclient', same_of_string hclient])
    · exact .inr ⟨hworkload, isString_iff.mp hclient⟩

/-- What is known once all checks have passed. -/
structure Vouched (w : Worker) (s : Settings) (c : Checks) (r : Request) (now : Nat) (a : Admitted) : Prop where
  caller : ∃ claims, Workload w s r now claims ∧
    Proven w s c.rules (claim claims "tenant_id") now (header r "x-ouf-delegation") a.verified
  clock : a.now = now
  uri : a.uri = r.uri
  body : r.body = some a.body ∧ a.body.length ≤ 65536
  envelope : a.e = w.cjson.decode a.body
  identified : Identified s c.orWorkload a.verified.p a.e
  binding : c.binding r.uri (claim a.verified.p "scope") a.e = .ok ()

theorem vouch_ok (h : vouch w s c r now = .ok a) : Vouched w s c r now a := by
  simp only [vouch, readEnvelope, bind_eq_ok, ensure_ok, require_ok] at h
  obtain ⟨claims, hcaller, v, hproof, body, hbody, e, ⟨-, -, he⟩, u, hidentity, u', hbinding, -, -, h⟩ := h
  obtain rfl := Except.ok.inj h
  obtain rfl := Except.ok.inj he
  obtain ⟨hbody, hshort⟩ := Option.filter_eq_some_iff.mp hbody
  have hproven := checkProof_ok hproof
  exact ⟨⟨claims, caller_ok hcaller, hproven⟩, rfl, rfl, ⟨hbody, of_decide_eq_true hshort⟩, rfl,
    checkIdentity_ok hidentity hproven, hbinding⟩

end OufGateway.Executors
