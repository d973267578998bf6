import OufGateway.Proofs.ClientHeaders

/-!
# Delegation from end to end

The public route issues delegations for the bearers it has verified; the workload it
passes them to sends requests back, any requests, in any order, again and again. As
long as nobody makes a code for a payload that was never issued, each request that
reaches an owner goes back to one bearer: what the owner is told of the caller is what
that bearer's claims said when the delegation was issued, and that was in the last
minute. The executor is handed nothing but the payload, so this rests on the payload
being read as it was written: `Correct` is what is documented of `cjson` there.
-/

namespace OufGateway.Executors

open OufGateway.Lib
open Delegation
open DelegationProof (Settings Issued Subject Checked Correct Agrees issue issue_ok fields expiry last carried decoded
  claim_decoded agrees_decoded)
open Headers (Lines entry values)
open Lua (Bytes Number Value)
open TrustedIdentity (bytes claim)

variable {w : Worker} {s : Settings} {r : Request} {now : Nat} {k : Kind} {v : Verified} {out : Forwarded}
  {rules : ProofRules} {tenantId delegation : Value} {run pre post : List Event}

/-! ## Runs -/

/-- What happens at the gateway: the public route is asked with the claims of a verified bearer, or an
executor is run on a request. -/
inductive Event
  | issue (claims : Value) (now : Nat)
  | execute (k : Kind) (r : Request) (now : Nat)

/-- A delegation that was issued. -/
structure Ticket where
  claims : Value
  now : Nat
  delegation : Bytes

def ticketOf (w : Worker) (s : Settings) : Event → Option Ticket
  | .issue claims now =>
    match issue w.toRuntime s claims now with
    | .ok issued => some ⟨claims, now, issued.delegation⟩
    | .error _ => none
  | .execute _ _ _ => none

/-- The delegations that were issued, in the order of a run. -/
def tickets (w : Worker) (s : Settings) (run : List Event) : List Ticket := run.filterMap (ticketOf w s)

/-- A payload comes with its code only where it was issued before. -/
def Unforged (w : Worker) (s : Settings) (run : List Event) : Prop :=
  ∀ pre k r now post, run = pre ++ .execute k r now :: post →
    ∀ h ∈ r.headers, ∀ payload signature mac, Signed w h.2 payload signature mac →
      ∃ t ∈ tickets w s pre, ∃ code, t.delegation = payload ++ 46 :: code

/-- What is issued is written and read as it should be, and no clock is too large for it. -/
def Legible (w : Worker) (s : Settings) (run : List Event) : Prop :=
  ∀ claims t, Event.issue claims t ∈ run →
    t < 10 ^ 14 ∧ ∀ e, last claims t = some e → Correct w.toRuntime (fields s (carried claims) t e)

/-- What a ticket is. -/
theorem ticket_issued {t : Ticket} (h : t ∈ tickets w s run) :
    .issue t.claims t.now ∈ run ∧ ∃ b exp mac, Checked s t.claims t.now b exp ∧
      t.delegation = DelegationProof.payload w.toRuntime s b t.now (expiry exp t.now) ++ 46 :: encode64 mac := by
  obtain ⟨event, hevent, hticket⟩ := List.mem_filterMap.mp h
  cases event with
  | execute k r now => cases hticket
  | issue claims now =>
      unfold ticketOf at hticket
      dsimp only at hticket
      split at hticket
      · next issued hissue =>
        obtain rfl := Option.some.inj hticket
        obtain ⟨b, exp, mac, hchecked, -, rfl⟩ := issue_ok.mp hissue
        exact ⟨hevent, b, exp, mac, hchecked, rfl⟩
      · cases hticket

/-! ## From a proof back to its bearer -/

theorem payload_unique {a b x y : Bytes} (ha : a.all isWordByte = true) (hb : b.all isWordByte = true)
    (h : a ++ 46 :: x = b ++ 46 :: y) : a = b := by
  have hdot : isWordByte 46 = false := rfl
  have htake : ∀ c z : Bytes, c.all isWordByte = true → (c ++ 46 :: z).takeWhile isWordByte = c := by
    intro c z hc
    rw [List.takeWhile_append_of_pos (List.all_eq_true.mp hc), List.takeWhile_cons_of_neg (by simp [hdot]),
      List.append_nil]
  rw [← htake a x ha, h, htake b y hb]

/-- The bearer of a delegation: what is told of the caller is what the claims say, for a minute. -/
structure Traced (t : Ticket) (now : Nat) (v : Verified) : Prop where
  agrees : Agrees t.claims v.p v.roles
  after : t.now ≤ now
  before : now < t.now + 60

theorem traced (hproven : Proven w s rules tenantId now delegation v) (hlegible : Legible w s run)
    (hunforged : ∀ payload signature mac, Signed w v.proof payload signature mac →
      ∃ t ∈ tickets w s run, ∃ code, t.delegation = payload ++ 46 :: code) :
    ∃ t ∈ tickets w s run, Traced t now v := by
  obtain ⟨payload, signature, mac, hsigned, hp⟩ := hproven.signed
  obtain ⟨t, ht, code, hcode⟩ := hunforged payload signature mac hsigned
  obtain ⟨hissue, b, exp, mac', hchecked, hdelegation⟩ := ticket_issued ht
  obtain ⟨hclock, hcorrect⟩ := hlegible _ _ hissue
  have hwritten : (DelegationProof.payload w.toRuntime s b t.now (expiry exp t.now)).all isWordByte = true := by
    unfold DelegationProof.payload
    split <;> exact encode64_isWord _
  have hpayload := payload_unique hsigned.word hwritten (hcode.symm.trans hdelegation)
  cases hexpiry : expiry exp t.now with
  | finite e =>
      rw [hexpiry, DelegationProof.payload] at hpayload
      have hread := hcorrect e (hchecked.last_eq_some.mpr hexpiry)
      rw [hchecked.carried_eq] at hread
      have hdecoded : v.p = decoded w.toRuntime s b t.now e := by
        rw [hp, hpayload, decode64_encode64]
        rfl
      have hroles : v.roles = b.roles := by
        have hheader := hproven.roles
        rw [hdecoded, claim_decoded hread (f := .text b.roles) (by simp [fields])] at hheader
        exact (roleHeader_string.mp hheader).1
      have hagrees := agrees_decoded hread hchecked
      rw [← hdecoded, ← hroles] at hagrees
      obtain ⟨iat, hiat, hexp, htimes⟩ := hproven.times
      rw [hdecoded, claim_decoded hread (f := .number t.now) (by simp [fields])] at hiat
      rw [hdecoded, claim_decoded hread (f := .number e) (by simp [fields])] at hexp
      obtain rfl := Value.number.inj hiat
      have hexp := Value.number.inj hexp
      rcases htimes with ⟨i, x, hi, hx, hle, hlt, hspan⟩ | hnan | hnan
      · have hi := Number.finite.inj hi
        rw [hread.whole t.now hclock] at hi
        subst hi
        refine ⟨t, ht, hagrees, by exact_mod_cast hle, ?_⟩
        have hwithin : (now : ℚ) < t.now + 60 := by linarith
        exact_mod_cast hwithin
      · cases hnan
      · rw [← hexp] at hnan
        cases hnan
  | inf negative =>
      rw [hexpiry] at hpayload
      exact absurd hpayload hsigned.nonempty
  | nan =>
      rw [hexpiry] at hpayload
      exact absurd hpayload hsigned.nonempty

/-! ## What reaches an owner -/

/-- What an executor tells the owner: of the proof's principal, within the proof's scope. -/
def Kind.Speaks (w : Worker) (s : Settings) (k : Kind) (r : Request) (v : Verified) (now : Nat) (out : Forwarded) :
    Prop :=
  match k.executor w s with
  | some _ => ∃ e g, k.grant r.uri e = some g ∧ Granted g (claim v.p "scope") e ∧
      (k.telling r.uri e g).Holds w s v now g out
  | none => scopeHas (claim v.p "scope") uploadCapability = true ∧
      ∃ u receipt, u.verified = v ∧ u.now = now ∧ Announced w s r u out.headers receipt

/-- Every request that goes through has a proof in its headers, and the owner is told of it. -/
theorem run_proven (h : k.run w s r now = .ok out) :
    ∃ v claims rules delegation, Workload w s r now claims ∧
      Proven w s rules (claim claims "tenant_id") now delegation v ∧ (∃ h ∈ r.headers, h.2 = v.proof) ∧
      k.Speaks w s r v now out := by
  cases hx : k.executor w s with
  | some x =>
      obtain ⟨a, g, ha⟩ := run_authorized hx h
      obtain ⟨claims, hworkload, hproven⟩ := ha.vouched.caller
      refine ⟨a.verified, claims, _, _, hworkload, hproven, ?_, ?_⟩
      · have hfirst := Headers.head_of_entry hproven.header
        obtain ⟨e, he, hvalue⟩ := List.mem_map.mp (List.mem_of_mem_head? hfirst)
        exact ⟨e, (List.mem_filter.mp he).1, hvalue⟩
      · unfold Kind.Speaks
        rw [hx]
        exact ⟨a.e, g, ha.grant, ha.granted, ha.tells⟩
  | none =>
      unfold Kind.run at h
      rw [hx] at h
      obtain ⟨u, hu⟩ := upload_uploads h
      obtain ⟨claims, blank, hworkload, hproven⟩ := hu.caller
      obtain ⟨receipt, hannounced⟩ := hu.announced
      refine ⟨u.verified, claims, _, _, hworkload, hproven, ?_, ?_⟩
      · have hvalues := Headers.entry_eq_string hproven.header
        have hmem : u.verified.proof ∈ values r.headers (bytes "x-ouf-delegation") := by
          rw [hvalues]
          exact List.mem_singleton_self _
        obtain ⟨e, he, hvalue⟩ := List.mem_map.mp hmem
        exact ⟨e, (List.mem_filter.mp he).1, hvalue⟩
      · unfold Kind.Speaks
        rw [hx]
        exact ⟨hu.scope, u, receipt, rfl, hu.clock, hannounced⟩

section Sample

open DelegationProof (sampleClaims sampleSettings sampleWriter sampleSubject checked_sample claim_sample expiry_sample
  last_sample carried_sample)

def sampleRun : List Event :=
  [.issue (sampleClaims (bytes "a")) 1000, .execute .status (sampleRequest sampleDelegation []) 1059]

theorem text_a : text (.string (bytes "a")) = some (bytes "a") := by
  decide

theorem ticket_sample : ticketOf sampleWorker sampleSettings (.issue (sampleClaims (bytes "a")) 1000) =
    some ⟨sampleClaims (bytes "a"), 1000, sampleDelegation⟩ := by
  have hpayload : DelegationProof.payload sampleWorker.toRuntime sampleSettings (sampleSubject (bytes "a")) 1000
      (expiry (.finite 2000) 1000) = encode64 (sampleWriter.encode sampleSentA) := by
    rw [expiry_sample]
    rfl
  have hissue := issue_ok.mpr ⟨_, _, _, checked_sample text_a, sign_sampleWorker _, rfl⟩
  unfold ticketOf
  dsimp only
  rw [hissue, hpayload]
  rfl

theorem legible_sample : Legible sampleWorker sampleSettings sampleRun := by
  intro claims t hissue
  have hevent : Event.issue claims t = .issue (sampleClaims (bytes "a")) 1000 := by
    simpa [sampleRun] using hissue
  obtain ⟨rfl, rfl⟩ := Event.issue.inj hevent
  refine ⟨by decide, fun e he => ?_⟩
  obtain rfl := (last_sample text_a).mp he
  rw [carried_sample text_a]
  exact correct_sampleWorker

theorem unforged_sample : Unforged sampleWorker sampleSettings sampleRun := by
  intro pre k r now post hrun h hh payload signature mac hsigned
  cases pre with
  | nil => cases (List.cons.inj hrun).1
  | cons first pre =>
      obtain ⟨rfl, hrest⟩ := List.cons.inj hrun
      have hnil : pre = [] := by
        cases pre with
        | nil => rfl
        | cons second pre => cases pre <;> cases (List.cons.inj hrest).2
      subst hnil
      obtain ⟨-, rfl, -⟩ := Event.execute.inj (List.cons.inj hrest).1
      refine ⟨⟨sampleClaims (bytes "a"), 1000, sampleDelegation⟩, ?_, signature, ?_⟩
      · simp [tickets, ticket_sample]
      · -- a header without a dot has no payload
        have hdot : 46 ∈ h.2 := by
          rw [hsigned.parts]
          simp
        simp only [sampleRequest, List.append_nil, List.mem_cons, List.not_mem_nil, or_false] at hh
        rcases hh with rfl | rfl | rfl | rfl
        · exact hsigned.parts
        · exact absurd hdot (by decide)
        · exact absurd hdot (by decide)
        · exact absurd hdot (by decide)

end Sample

end OufGateway.Executors
