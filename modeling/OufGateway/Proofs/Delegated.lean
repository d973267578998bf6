import OufGateway.Proofs.Executors

/-!
# Delegated authority is never widened

An executor that reads an envelope reaches its end for one capability only, which the
envelope names and whose scope is in the proof. What the owner then has of the caller
is the proof's: in headers that were cleared first, or in a receipt that is signed over
the body that is sent. A receipt is over within thirty seconds, and never later than the
proof.
-/

namespace OufGateway.Executors

open OufGateway.Lib
open Delegation
open DelegationProof (Settings ensure require ensure_ok require_ok isString_iff)
open Headers (Lines clear set clearWhere lower values values_set_self values_set_of_ne)
open Lua (Bytes Number Value)
open TrustedIdentity (bytes claim isTable isNil)

variable {w : Worker} {s : Settings} {r : Request} {now : Nat} {v : Verified} {e x : Value} {a : Admitted}
  {hs hs' : Lines} {name : String} {n b : Bytes}

/-! ## What is let through -/

/-- A capability with the scope it takes, its owner and its class of operation. -/
structure Grant where
  capability : Bytes
  scope : Bytes
  owner : String
  operation : String

def Operation.grant (owner : String) (o : Operation) : Grant := ⟨bytes o.capability, o.required, owner, o.operation⟩

/-- The one grant of an executor, where it may depend on the URI and on the envelope. -/
def Kind.grant (uri : Bytes) (e : Value) : Kind → Option Grant
  | .status => some ⟨bytes "ouf.system.status", bytes "operations.status.read", "mcp", "READ"⟩
  | .operational capability owner requiredScope => some ⟨capability, requiredScope, owner, "READ"⟩
  | .permissions => (permissionMode e).map (·.grant "authorization")
  | .semanticProposals capability requiredScope operation _ => some ⟨capability, requiredScope, "semantic", operation⟩
  | .objectSearch => some ⟨bytes "urban.object.search", bytes "urban.object.search", "udp", "SEARCH"⟩
  | .managedFile => (operationOf managedFileOperations (managedFileName uri)).map (·.grant "onboarding")
  | .semanticRead => (operationOf semanticReadOperations (semanticReadName uri)).map (·.grant "semantic")
  | .managedUpload => none

/-- The envelope asks for what is granted, and the proof has the scope of it. -/
structure Granted (g : Grant) (scope e : Value) : Prop where
  named : names e g.capability g.owner g.operation = true
  scope : scopeHas scope g.scope = true

theorem granted_of_any {o? : Option Operation} {owner : String} {scope : Value}
    (h : (o?.any fun o => o.admits owner scope e) = true) :
    ∃ g, o?.map (·.grant owner) = some g ∧ Granted g scope e := by
  cases o? with
  | none => cases h
  | some o =>
      obtain ⟨hnamed, hscope⟩ := Bool.and_eq_true_iff.mp h
      exact ⟨_, rfl, hnamed, hscope⟩

/-- The binding an executor checks is the one of its grant. -/
theorem granted {k : Kind} {x : Executor} (hx : k.executor w s = some x) {uri : Bytes} {scope : Value}
    (hrule : ∀ wanted ∈ x.checks.rules.scope, scopeHas scope wanted = true)
    (h : x.checks.binding uri scope e = .ok ()) : ∃ g, k.grant uri e = some g ∧ Granted g scope e := by
  cases k with
  | status =>
      obtain rfl := Option.some.inj hx
      exact ⟨_, rfl, (ensure_ok.mp h).1, hrule _ rfl⟩
  | operational capability owner requiredScope =>
      obtain rfl := Option.some.inj hx
      exact ⟨_, rfl, ensure_ok.mp h, hrule _ rfl⟩
  | permissions =>
      obtain rfl := Option.some.inj hx
      exact granted_of_any (ensure_ok.mp h)
  | semanticProposals capability requiredScope operation ownerPath =>
      obtain rfl := Option.some.inj hx
      obtain ⟨u, hnamed, -⟩ := bind_eq_ok.mp h
      exact ⟨_, rfl, ensure_ok.mp hnamed, hrule _ rfl⟩
  | objectSearch =>
      obtain rfl := Option.some.inj hx
      obtain ⟨u, hnamed, -⟩ := bind_eq_ok.mp h
      exact ⟨_, rfl, (ensure_ok.mp hnamed).1, (ensure_ok.mp hnamed).2⟩
  | managedFile =>
      obtain rfl := Option.some.inj hx
      obtain ⟨u, hnamed, -⟩ := bind_eq_ok.mp h
      exact granted_of_any (ensure_ok.mp hnamed)
  | semanticRead =>
      obtain rfl := Option.some.inj hx
      obtain ⟨u, hnamed, -⟩ := bind_eq_ok.mp h
      exact granted_of_any (ensure_ok.mp hnamed)
  | managedUpload => cases hx

/-! ## Headers -/

/-- The header is there once, with the string. -/
def Carries (hs : Lines) (name : String) (v : Value) : Prop := ∃ b, v = .string b ∧ values hs (bytes name) = [b]

theorem Carries.set (h : Carries hs name x) (hne : lower (bytes name) ≠ lower n) (vs : List Bytes) :
    Carries (set hs n vs) name x := by
  obtain ⟨b, hb, hvalues⟩ := h
  exact ⟨b, hb, by rw [values_set_of_ne hne, hvalues]⟩

theorem values_setHeaders_other {fields : List (String × Value)} (h : setHeaders w hs fields = .ok hs')
    (hn : ∀ f ∈ fields, lower n ≠ lower (bytes f.1)) : values hs' n = values hs n := by
  induction fields generalizing hs with
  | nil => rw [Except.ok.inj h]
  | cons f fields ih =>
      obtain ⟨vs, -, h⟩ := bind_eq_ok.mp h
      rw [ih h fun g hg => hn g (List.mem_cons_of_mem _ hg), values_set_of_ne (hn f List.mem_cons_self)]

theorem Carries.setHeaders {fields : List (String × Value)} (h : Carries hs name x)
    (hset : setHeaders w hs fields = .ok hs') (hn : ∀ f ∈ fields, lower (bytes name) ≠ lower (bytes f.1)) :
    Carries hs' name x := by
  obtain ⟨b, hb, hvalues⟩ := h
  exact ⟨b, hb, by rw [values_setHeaders_other hset hn, hvalues]⟩

/-- A string that is set among others is there in the end. -/
theorem carries_setHeaders {fields : List (String × Value)} (h : setHeaders w hs fields = .ok hs')
    (hnodup : (fields.map fun f => lower (bytes f.1)).Nodup) (hf : (name, Value.string b) ∈ fields) :
    Carries hs' name (.string b) := by
  induction fields generalizing hs with
  | nil => cases hf
  | cons f fields ih =>
      obtain ⟨hnotMem, hnodup⟩ := List.nodup_cons.mp hnodup
      obtain ⟨vs, hvs, h⟩ := bind_eq_ok.mp h
      rcases List.mem_cons.mp hf with rfl | hf
      · obtain rfl := Option.some.inj (require_ok.mp hvs)
        refine ⟨b, rfl, ?_⟩
        rw [values_setHeaders_other h, values_set_self]
        intro g hg heq
        refine hnotMem ?_
        show lower (bytes name) ∈ _
        rw [heq]
        exact List.mem_map_of_mem hg
      · exact ih h hnodup hf

theorem Carries.setRoles (h : Carries hs name x)
    (hne : lower (bytes name) ≠ lower (bytes "X-OUF-External-Role-Refs")) (roles : Bytes) :
    Carries (setRoles roles hs) name x := by
  unfold Executors.setRoles
  split
  · exact h
  · exact h.set hne _

/-- The headers that tell an owner of the caller, with the fields of the proof they are from. -/
def toldHeaders : List (String × String) :=
  [("X-OUF-Principal-ID", "principal"), ("X-OUF-Tenant-ID", "tenant"), ("X-OUF-Actor-Type", "actor"),
    ("X-OUF-Authentication-Context-Ref", "acr"), ("X-OUF-Token-Issuer", "iss"), ("X-OUF-Token-Audience", "aud"),
    ("X-OUF-Granted-Scopes", "scope")]

/-- The names that `downstream` sets. -/
def downstreamNames : List String :=
  ["X-OUF-Gateway-Verified", "X-OUF-Service-Principal", "X-OUF-Principal-ID", "X-OUF-Tenant-ID", "X-OUF-Actor-Type",
    "X-OUF-Authentication-Context-Ref", "X-OUF-Token-Issuer", "X-OUF-Token-Audience", "X-OUF-Granted-Scopes",
    "X-OUF-Capability-ID", "X-OUF-Authorization-Decision-Ref"]

theorem nodup_downstream : (downstreamNames.map fun n => lower (bytes n)).Nodup := by
  decide

/-- No other header that is set has one of their names. -/
theorem downstream_apart : ∀ n ∈ downstreamNames, ∀ other ∈ ["X-OUF-External-Role-Refs", "X-OUF-Delegation",
    "X-OUF-Delegation-Verified", "Content-Type"], lower (bytes n) ≠ lower (bytes other) := by
  decide

/-- An owner is told in headers whose request it is: the proof's principal. -/
structure Told (v : Verified) (capability : Bytes) (hs : Lines) : Prop where
  proven : ∀ h ∈ toldHeaders, Carries hs h.1 (claim v.p h.2)
  capability : Carries hs "X-OUF-Capability-ID" (.string capability)
  roles : values hs (bytes "X-OUF-External-Role-Refs") = if v.roles = [] then [] else [v.roles]

theorem told_downstream {rules : ProofRules} {tenantId delegation : Value} {capability : Bytes}
    (hp : Proven w s rules tenantId now delegation a.verified)
    (h : setHeaders w (clearWhere isTrusted hs) (downstream s a (.string capability)) = .ok hs') :
    Told a.verified capability (setRoles a.verified.roles hs') := by
  have hnames : (downstream s a (.string capability)).map (fun f => lower (bytes f.1)) =
      downstreamNames.map fun n => lower (bytes n) := rfl
  have hnodup := hnames ▸ nodup_downstream
  have hroles : ∀ f ∈ downstream s a (.string capability),
      lower (bytes "X-OUF-External-Role-Refs") ≠ lower (bytes f.1) := by
    intro f hf
    have hname : f.1 ∈ downstreamNames := List.mem_map_of_mem (f := fun f : String × Value => f.1) hf
    exact (downstream_apart f.1 hname _ (by simp)).symm
  refine ⟨fun t ht => ?_, ?_, ?_⟩
  · have hstring : ∃ b, claim a.verified.p t.2 = .string b := by
      simp only [toldHeaders, List.mem_cons, List.not_mem_nil, or_false] at ht
      rcases ht with rfl | rfl | rfl | rfl | rfl | rfl | rfl
      · exact hp.texts "principal" (by simp)
      · exact hp.texts "tenant" (by simp)
      · obtain ⟨name, -, hname⟩ := hp.actor
        exact ⟨_, hname⟩
      · exact hp.texts "acr" (by simp)
      · exact ⟨_, hp.issuer⟩
      · exact ⟨_, hp.audience⟩
      · exact hp.texts "scope" (by simp)
    obtain ⟨b, hb⟩ := hstring
    have hmem : (t.1, Value.string b) ∈ downstream s a (.string capability) := by
      rw [← hb]
      simp only [toldHeaders, List.mem_cons, List.not_mem_nil, or_false] at ht
      rcases ht with rfl | rfl | rfl | rfl | rfl | rfl | rfl <;> simp [downstream, Admitted.proven]
    rw [hb]
    have hne : lower (bytes t.1) ≠ lower (bytes "X-OUF-External-Role-Refs") := (hroles _ hmem).symm
    exact (carries_setHeaders h hnodup hmem).setRoles hne _
  · exact (carries_setHeaders h hnodup (by simp [downstream])).setRoles (by decide) _
  · have hcleared : values hs' (bytes "X-OUF-External-Role-Refs") = [] := by
      rw [values_setHeaders_other h hroles, Headers.values_clearWhere_of_pick (by decide)]
    unfold setRoles
    split
    · exact hcleared
    · exact values_set_self

theorem Told.set {capability : Bytes} (h : Told v capability hs) {other : String}
    (hother : other ∈ ["X-OUF-Delegation", "X-OUF-Delegation-Verified", "Content-Type"]) (vs : List Bytes) :
    Told v capability (set hs (bytes other) vs) := by
  have hne : ∀ n ∈ downstreamNames, lower (bytes n) ≠ lower (bytes other) := by
    intro n hn
    exact downstream_apart n hn other (List.mem_cons_of_mem _ hother)
  have htold : ∀ t ∈ toldHeaders, t.1 ∈ downstreamNames := by decide
  have hroles : ∀ other ∈ ["X-OUF-Delegation", "X-OUF-Delegation-Verified", "Content-Type"],
      lower (bytes "X-OUF-External-Role-Refs") ≠ lower (bytes other) := by decide
  refine ⟨fun t ht => (h.proven t ht).set (hne _ (htold t ht)) _, h.capability.set (hne _ (by decide)) _, ?_⟩
  rw [values_set_of_ne (hroles other hother), h.roles]

/-! ## Receipts -/

theorem claim_record {fields : List (String × Value)} (hnodup : (fields.map fun f => bytes f.1).Nodup)
    (hf : (name, x) ∈ fields) : claim (record fields) name = x := by
  have hfind : (fields.filter fun f => !isNil f.2).find? (fun f => bytes f.1 = bytes name) =
      if isNil x then none else some (name, x) := by
    induction fields with
    | nil => cases hf
    | cons f fields ih =>
        obtain ⟨hnotMem, hnodup⟩ := List.nodup_cons.mp hnodup
        rcases List.mem_cons.mp hf with rfl | hf
        · have hnone : (fields.filter fun f => !isNil f.2).find? (fun f => bytes f.1 = bytes name) = none := by
            refine List.find?_eq_none.mpr fun g hg heq => hnotMem ?_
            show bytes name ∈ _
            rw [← of_decide_eq_true heq]
            exact List.mem_map_of_mem (List.mem_filter.mp hg).1
          by_cases hnil : isNil x = true
          · rw [if_pos hnil, List.filter_cons_of_neg (by simp [hnil]), hnone]
          · rw [if_neg hnil, List.filter_cons_of_pos (by simp [hnil]), List.find?_cons_of_pos (by simp)]
        · have hne : bytes f.1 ≠ bytes name := by
            intro heq
            refine hnotMem ?_
            show bytes f.1 ∈ _
            rw [heq]
            exact List.mem_map_of_mem (f := fun f : String × Value => bytes f.1) hf
          by_cases hnil : isNil f.2 = true
          · rw [List.filter_cons_of_neg (by simp [hnil])]
            exact ih hnodup hf
          · rw [List.filter_cons_of_pos (by simp [hnil]), List.find?_cons_of_neg (by simp [hne])]
            exact ih hnodup hf
  have hlookup : claim (record fields) name =
      (((fields.filter fun f => !isNil f.2).find? fun f => bytes f.1 = bytes name).map (·.2)).getD .nil := by
    unfold claim record Value.field Value.lookup
    dsimp only
    rw [List.find?_map, Option.map_map]
    rfl
  rw [hlookup, hfind]
  by_cases hnil : isNil x = true
  · rw [if_pos hnil]
    cases x <;> first | rfl | cases hnil
  · rw [if_neg hnil]
    rfl

/-- A receipt says of the caller what the proof says, and is not over later. -/
structure SpeaksFor (s : Settings) (v : Verified) (now : Nat) (receipt : Value) : Prop where
  subject : claim receipt "subject" = claim v.p "principal"
  tenant : claim receipt "tenant" = claim v.p "tenant"
  acr : claim receipt "acr" = claim v.p "acr"
  scope : claim receipt "scope" = claim v.p "scope"
  issuer : claim receipt "issuer" = claim v.p "iss"
  audience : claim receipt "audience" = claim v.p "aud"
  workload : claim receipt "workload" = .string s.mcpWorkload
  roles : claim receipt "roles" = .string v.roles
  issued : claim receipt "iat" = Lua.ofNat now
  expires : ∀ x : ℚ, v.exp = .finite x →
    ∃ y : ℚ, claim receipt "exp" = .number (.finite y) ∧ y ≤ x ∧ y ≤ now + 30

theorem receiptExpiry_finite (x : ℚ) : ∃ y : ℚ, receiptExpiry (.finite x) now = .finite y ∧ y ≤ x ∧ y ≤ now + 30 := by
  unfold receiptExpiry Number.min
  split
  · next hlt =>
    have hlt : (now : ℚ) + 30 < x := of_decide_eq_true hlt
    exact ⟨_, rfl, hlt.le, le_rfl⟩
  · next hlt =>
    have hlt : ¬ (now : ℚ) + 30 < x := fun h => hlt (decide_eq_true h)
    exact ⟨_, rfl, le_rfl, not_lt.mp hlt⟩

theorem speaksFor_record {purpose : String} {path : Bytes} {capability : Value} {rest : List (String × Value)}
    (hnodup : ((receiptFields s purpose path capability now v ++ rest).map fun f => bytes f.1).Nodup) :
    SpeaksFor s v now (record (receiptFields s purpose path capability now v ++ rest)) where
  subject := claim_record hnodup (by simp [receiptFields])
  tenant := claim_record hnodup (by simp [receiptFields])
  acr := claim_record hnodup (by simp [receiptFields])
  scope := claim_record hnodup (by simp [receiptFields])
  issuer := claim_record hnodup (by simp [receiptFields])
  audience := claim_record hnodup (by simp [receiptFields])
  workload := claim_record hnodup (by simp [receiptFields])
  roles := claim_record hnodup (by simp [receiptFields])
  issued := claim_record hnodup (by simp [receiptFields])
  expires := by
    intro x hx
    obtain ⟨y, hy, hle⟩ : ∃ y : ℚ, receiptExpiry (.finite x) now = .finite y ∧ y ≤ x ∧ y ≤ now + 30 :=
      receiptExpiry_finite x
    refine ⟨y, claim_record hnodup ?_, hle⟩
    rw [← hy, ← hx]
    simp [receiptFields]

/-- The header has the receipt, and a code for it that is made with the owner's key. -/
def Sealed (w : Worker) (label header : String) (receipt : Value) (hs : Lines) : Prop :=
  ∃ key mac, w.ownerKey = some key ∧ isOwnerKey key = true ∧
    w.hmac key (bytes label ++ encode64 ((w.encode receipt).getD [])) = some mac ∧
    values hs (bytes header) = [encode64 ((w.encode receipt).getD []) ++ 46 :: encode64 mac]

theorem signReceipt_ok {label : String} {key : Bytes} {receipt : Value} {sealed : Bytes}
    (h : signReceipt w label key receipt = .ok sealed) :
    ∃ mac, w.hmac key (bytes label ++ encode64 ((w.encode receipt).getD [])) = some mac ∧
      sealed = encode64 ((w.encode receipt).getD []) ++ 46 :: encode64 mac := by
  obtain ⟨mac, hmac, h⟩ := bind_eq_ok.mp h
  exact ⟨mac, require_ok.mp hmac, (Except.ok.inj h).symm⟩

theorem ownerKeyOf_ok {key : Bytes} (h : ownerKeyOf w = .ok key) : w.ownerKey = some key ∧ isOwnerKey key = true :=
  Option.filter_eq_some_iff.mp (require_ok.mp h)

theorem sendReceipt_ok {d : Receipt} {out : Forwarded} (h : sendReceipt w d a hs = .ok out)
    (hheader : lower (bytes d.header) ≠ lower (bytes "Content-Type")) :
    ∃ args, d.args a = .ok args ∧ out.body = some args ∧
      Sealed w d.label d.header (record (d.fields a ++ [("bodyHash", .string (bodyHash args))])) out.headers := by
  simp only [sendReceipt, bind_eq_ok] at h
  obtain ⟨key, hkey, args, hargs, sealed, hsealed, h⟩ := h
  obtain rfl := Except.ok.inj h
  obtain ⟨hkey, hform⟩ := ownerKeyOf_ok hkey
  obtain ⟨mac, hmac, rfl⟩ := signReceipt_ok hsealed
  refine ⟨args, hargs, rfl, key, mac, hkey, hform, hmac, ?_⟩
  show values (setJson _) _ = _
  rw [setJson, values_set_of_ne hheader, values_set_self]

/-- The names that stand in receipts. -/
def receiptNames : List String :=
  ["v", "purpose", "method", "path", "capability", "iat", "exp", "issuer", "audience", "workload", "subject", "tenant",
    "acr", "roles", "scope", "actor", "correlationId", "client", "requestHash", "expectedHash", "expectedLength",
    "fileId", "idempotencyKey", "bodyHash"]

/-- The names that stand in every receipt. -/
def commonNames : List String := receiptNames.take 15

theorem nodup_receiptNames : (receiptNames.map bytes).Nodup := by
  decide

theorem nodup_fields {fields : List (String × Value)} (h : (fields.map (·.1)).Sublist receiptNames) :
    (fields.map fun f => bytes f.1).Nodup := by
  have hmap : fields.map (fun f => bytes f.1) = (fields.map (·.1)).map bytes := by
    rw [List.map_map]
    rfl
  rw [hmap]
  exact (h.map bytes).nodup nodup_receiptNames

/-- A receipt over the body that is sent, for a path and a capability. -/
structure Receipted (w : Worker) (s : Settings) (v : Verified) (now : Nat) (label header : String) (path : Bytes)
    (capability : Value) (out : Forwarded) (receipt : Value) : Prop where
  speaks : SpeaksFor s v now receipt
  path : claim receipt "path" = .string path
  capability : claim receipt "capability" = capability
  sent : ∃ args, out.body = some args ∧ claim receipt "bodyHash" = .string (bodyHash args)
  sealed : Sealed w label header receipt out.headers

theorem receiptHeaders_apart : ∀ header ∈ ["X-OUF-Authorization-Receipt", "X-OUF-Semantic-Proposal-Receipt",
    "X-OUF-UDP-Search-Receipt", "X-OUF-Managed-File-Receipt", "X-OUF-Semantic-Read-Receipt"],
    lower (bytes header) ≠ lower (bytes "Content-Type") := by
  decide

theorem receipted {d : Receipt} {out : Forwarded} (h : sendReceipt w d a hs = .ok out) {purpose : String}
    {path : Bytes} {capability : Value} {rest : List (String × Value)} (names : List String)
    (hfields : d.fields a = receiptFields s purpose path capability now a.verified ++ rest)
    (hheader : lower (bytes d.header) ≠ lower (bytes "Content-Type")) (hrest : rest.map (·.1) = names)
    (hnames : (commonNames ++ (names ++ ["bodyHash"])).Sublist receiptNames) :
    ∃ receipt, Receipted w s a.verified now d.label d.header path capability out receipt := by
  obtain ⟨args, -, hbody, hsealed⟩ := sendReceipt_ok h hheader
  rw [hfields, List.append_assoc] at hsealed
  have hnodup : ((receiptFields s purpose path capability now a.verified ++
      (rest ++ [("bodyHash", Value.string (bodyHash args))])).map fun f => bytes f.1).Nodup := by
    refine nodup_fields ?_
    rw [List.map_append, List.map_append, hrest]
    exact hnames
  exact ⟨_, speaksFor_record hnodup, claim_record hnodup (by simp [receiptFields]),
    claim_record hnodup (by simp [receiptFields]), ⟨args, hbody, claim_record hnodup (by simp)⟩, hsealed⟩

/-! ## What an owner is told -/

/-- How an executor tells the owner of the caller. -/
inductive Telling
  | headers
  | receipt (label header : String) (path capability : Bytes)

/-- What an executor does with a grant; the receipts of proposals are for the scope. -/
def Kind.telling (uri : Bytes) (e : Value) (g : Grant) : Kind → Telling
  | .status => .headers
  | .operational _ _ _ => .headers
  | .permissions =>
    .receipt "ouf-authorization-owner-v1." "X-OUF-Authorization-Receipt"
      (bytes "/api/internal/v1/authorization/permissions/" ++ ((permissionMode e).map fun o => bytes o.name).getD [])
      g.capability
  | .semanticProposals _ _ _ ownerPath =>
    .receipt "ouf-semantic-proposal-owner-v1." "X-OUF-Semantic-Proposal-Receipt" ownerPath g.scope
  | .objectSearch => .receipt "ouf-udp-search-owner-v1." "X-OUF-UDP-Search-Receipt" objectSearchPath g.capability
  | .managedFile =>
    .receipt "ouf-managed-file-owner-v1." "X-OUF-Managed-File-Receipt"
      (bytes "/api/internal/v1/onboarding/managed-file-mcp/" ++ (managedFileName uri).getD []) g.capability
  | .semanticRead =>
    .receipt "ouf-semantic-read-owner-v1." "X-OUF-Semantic-Read-Receipt"
      (bytes "/api/internal/v1/semantic/consultation/" ++ (semanticReadName uri).getD []) g.capability
  | .managedUpload =>
    .receipt "ouf-managed-file-upload-v1." "X-OUF-Managed-File-Receipt" uploadPath g.capability

def Telling.Holds (w : Worker) (s : Settings) (v : Verified) (now : Nat) (g : Grant) (out : Forwarded) :
    Telling → Prop
  | .headers => Told v g.capability out.headers
  | .receipt label header path capability =>
    ∃ receipt, Receipted w s v now label header path (.string capability) out receipt

theorem capability_of_names {g : Grant} {scope : Value} (h : Granted g scope e) :
    claim e "CapabilityID" = .string g.capability := by
  have hnamed := h.named
  simp only [names, Bool.and_eq_true] at hnamed
  exact isString_iff.mp hnamed.1.1.1

theorem tells {k : Kind} {x : Executor} (hx : k.executor w s = some x) (hv : Vouched w s x.checks r now a)
    {g : Grant} (hg : k.grant r.uri a.e = some g) (hgranted : Granted g (claim a.verified.p "scope") a.e)
    {out : Forwarded} (h : x.finish a (clearWhere isTrusted hs) = .ok out) :
    (k.telling r.uri a.e g).Holds w s a.verified now g out := by
  obtain ⟨claims, -, hproven⟩ := hv.caller
  have hcapability : a.envelope "CapabilityID" = .string g.capability := capability_of_names hgranted
  have hclock := hv.clock
  have huri := hv.uri
  cases k with
  | status =>
      obtain rfl := Option.some.inj hx
      obtain ⟨hs', hset, h⟩ := bind_eq_ok.mp h
      obtain rfl := Except.ok.inj h
      rw [hcapability] at hset
      exact (told_downstream hproven hset).set (by simp) _
  | operational capability owner requiredScope =>
      obtain rfl := Option.some.inj hx
      obtain rfl := Option.some.inj hg
      simp only [executeOperational, bind_eq_ok] at h
      obtain ⟨hs', hset, hs'', hmore, body, -, h⟩ := h
      obtain rfl := Except.ok.inj h
      have htold := told_downstream hproven hset
      refine Told.set ?_ (by simp) _
      unfold setDelegation at hmore
      split at hmore
      · simp only [setHeaders, headerValues, bind_eq_ok, require_ok, Option.some.injEq, exists_eq_left'] at hmore
        obtain rfl := Except.ok.inj hmore
        exact (htold.set (by simp) _).set (by simp) _
      · obtain rfl := Except.ok.inj hmore
        exact htold
  | permissions =>
      obtain rfl := Option.some.inj hx
      rw [← hclock]
      exact receipted h ["idempotencyKey"] (by rw [← hcapability]) (receiptHeaders_apart _ (by simp)) rfl (by decide)
  | semanticProposals capability requiredScope operation ownerPath =>
      obtain rfl := Option.some.inj hx
      obtain rfl := Option.some.inj hg
      rw [← hclock]
      exact receipted h ["actor", "idempotencyKey"] rfl (receiptHeaders_apart _ (by simp)) rfl (by decide)
  | objectSearch =>
      obtain rfl := Option.some.inj hx
      rw [← hclock]
      exact receipted h ["correlationId", "client", "requestHash"] (by rw [← hcapability])
        (receiptHeaders_apart _ (by simp)) rfl (by decide)
  | managedFile =>
      obtain rfl := Option.some.inj hx
      rw [← hclock, ← huri]
      exact receipted h ["idempotencyKey"] (by rw [← hcapability]) (receiptHeaders_apart _ (by simp)) rfl (by decide)
  | semanticRead =>
      obtain rfl := Option.some.inj hx
      rw [← hclock, ← huri]
      have hfields : ∀ path, receiptFields s "semantic-read-owner" path (a.envelope "CapabilityID") a.now a.verified =
          receiptFields s "semantic-read-owner" path (.string g.capability) a.now a.verified ++ [] := by
        intro path
        rw [hcapability, List.append_nil]
      exact receipted h [] (hfields _) (receiptHeaders_apart _ (by simp)) List.map_nil (by decide)
  | managedUpload => cases hx

/-- What holds where an executor that reads an envelope reaches its end. -/
structure Authorized (w : Worker) (s : Settings) (k : Kind) (x : Executor) (r : Request) (now : Nat) (out : Forwarded)
    (a : Admitted) (g : Grant) : Prop where
  vouched : Vouched w s x.checks r now a
  grant : k.grant r.uri a.e = some g
  granted : Granted g (claim a.verified.p "scope") a.e
  tells : (k.telling r.uri a.e g).Holds w s a.verified now g out

theorem run_authorized {k : Kind} {x : Executor} (hx : k.executor w s = some x) {out : Forwarded}
    (h : k.run w s r now = .ok out) : ∃ a g, Authorized w s k x r now out a g := by
  unfold Kind.run at h
  rw [hx] at h
  obtain ⟨a, hadmit, hfinish⟩ := bind_eq_ok.mp h
  have hv := vouch_ok hadmit
  obtain ⟨claims, -, hproven⟩ := hv.caller
  obtain ⟨g, hg, hgranted⟩ := granted hx hproven.scope hv.binding
  exact ⟨a, g, hv, hg, hgranted, tells hx hv hg hgranted hfinish⟩

/-! ## The upload -/

/-- A receipt over what the headers of an upload announce. -/
structure Announced (w : Worker) (s : Settings) (r : Request) (u : Upload) (hs : Lines) (receipt : Value) : Prop where
  speaks : SpeaksFor s u.verified u.now receipt
  path : claim receipt "path" = .string uploadPath
  capability : claim receipt "capability" = .string uploadCapability
  hash : Headers.entry r.headers (bytes "x-content-sha256") = claim receipt "expectedHash"
  length : ∃ ds, Headers.entry r.headers (bytes "content-length") = .string ds ∧
    claim receipt "expectedLength" = Lua.ofNat (numeral ds) ∧ numeral ds ≤ 10485760
  fileId : Headers.entry r.headers (bytes "x-ouf-file-id") = claim receipt "fileId"
  key : Headers.entry r.headers (bytes "idempotency-key") = claim receipt "idempotencyKey"
  sealed : Sealed w "ouf-managed-file-upload-v1." "X-OUF-Managed-File-Receipt" receipt hs

/-- What holds where an upload goes through; its body is not touched. -/
structure Uploads (w : Worker) (s : Settings) (r : Request) (now : Nat) (out : Forwarded) (u : Upload) : Prop where
  caller : ∃ claims blank, Workload w s r now claims ∧
    Proven w s { blank := blank } (claim claims "tenant_id") now
      (Headers.entry r.headers (bytes "x-ouf-delegation")) u.verified
  clock : u.now = now
  scope : scopeHas (claim u.verified.p "scope") uploadCapability = true
  uri : r.uri = uploadRoute ∨ r.uri = uploadPath
  body : out.body = r.body
  announced : ∃ receipt, Announced w s r u out.headers receipt

theorem stringWhere_some {check : Bytes → Bool} (h : stringWhere check x = some b) : x = .string b ∧ check b = true := by
  cases x with
  | string v =>
      simp only [stringWhere] at h
      split at h
      · next hcheck =>
        obtain rfl := Option.some.inj h
        exact ⟨rfl, hcheck⟩
      · cases h
  | _ => cases h

theorem upload_uploads {out : Forwarded} (h : executeManagedUpload w s r now = .ok out) :
    ∃ u, Uploads w s r now out u := by
  simp only [executeManagedUpload, admitUpload, finishUpload, bind_eq_ok, ensure_ok, require_ok] at h
  obtain ⟨u, ⟨claims, hcaller, v, hproof, -, hscope, -, huri, length, hlength, hash, hhash, fileId, hfileId, key, hkey,
    -, -, hu⟩, headers, ⟨owner, howner, sealed, hsealed, hheaders⟩, h⟩ := h
  obtain rfl := Except.ok.inj hu
  obtain rfl := Except.ok.inj hheaders
  obtain rfl := Except.ok.inj h
  obtain ⟨howner, hform⟩ := ownerKeyOf_ok howner
  obtain ⟨mac, hmac, rfl⟩ := signReceipt_ok hsealed
  obtain ⟨hlength, hbounded⟩ := stringWhere_some hlength
  have hsmall : numeral length ≤ 10485760 := by
    simp only [isLength, Bool.and_eq_true, decide_eq_true_eq] at hbounded
    exact hbounded.2
  refine ⟨⟨now, v, length, hash, fileId, key⟩, ⟨claims, _, caller_ok hcaller, checkProof_ok hproof⟩, rfl, hscope, huri,
    rfl, ?_⟩
  generalize hU : Upload.mk now v length hash fileId key = u at hmac ⊢
  have hnodup : ((uploadFields s u).map fun f => bytes f.1).Nodup := by
    refine nodup_fields ?_
    have hnames : (uploadFields s u).map (·.1) =
        commonNames ++ ["expectedHash", "expectedLength", "fileId", "idempotencyKey"] := rfl
    rw [hnames]
    decide
  have hapart : lower (bytes "X-OUF-Managed-File-Receipt") ≠ lower (bytes "X-OUF-File-ID") := by
    decide
  have hfield : ∀ name v, (name, v) ∈ uploadFields s u → claim (record (uploadFields s u)) name = v :=
    fun _ _ hmem => claim_record hnodup hmem
  refine ⟨record (uploadFields s u), speaksFor_record hnodup, hfield _ _ (by simp [uploadFields, receiptFields]),
    hfield _ _ (by simp [uploadFields, receiptFields]), ?_, ⟨length, hlength, ?_, hsmall⟩, ?_, ?_,
    owner, mac, howner, hform, hmac, ?_⟩
  · rw [(stringWhere_some hhash).1, hfield "expectedHash" (.string u.hash) (by simp [uploadFields]), ← hU]
  · rw [hfield "expectedLength" (Lua.ofNat (numeral u.length)) (by simp [uploadFields]), ← hU]
  · rw [(stringWhere_some hfileId).1, hfield "fileId" (.string u.fileId) (by simp [uploadFields]), ← hU]
  · rw [(stringWhere_some hkey).1, hfield "idempotencyKey" (.string u.key) (by simp [uploadFields]), ← hU]
  · show values (clear (set _ _ _) _) _ = _
    rw [Headers.values_clear_of_ne hapart, values_set_self]

theorem executor_eq_none {k : Kind} (h : k.executor w s = none) : k = .managedUpload := by
  cases k <;> first | rfl | cases h

section Sample

open DelegationProof (Cjson commas sampleRuntime sampleCjson sampleWriter sampleSent sampleSettings sampleSubject
  sampleClaims sampleQuoted tableOf)

def bearerText : Bytes :=
  bytes "\x7b\"iss\":" ++ bytes "\"iam\",\"aud\":\"ouf\",\"exp\":2000,\"azp\":\"mcp\",\"ouf_actor_type\":\"SERVICE\"," ++
    bytes "\"tenant_id\":\"a\"\x7d"

def bearerClaims : Value :=
  DelegationProof.record
    [(bytes "iss", .string (bytes "iam")), (bytes "aud", .string (bytes "ouf")), (bytes "exp", Lua.ofNat 2000),
      (bytes "azp", .string (bytes "mcp")), (bytes "ouf_actor_type", .string (bytes "SERVICE")),
      (bytes "tenant_id", .string (bytes "a"))]

def envelopeText : Bytes :=
  bytes "\x7b\"Identity\":" ++ bytes "\x7b\"PrincipalID\":\"a\",\"TenantID\":\"a\",\"ActorType\":\"HUMAN\"," ++
    bytes "\"AuthenticationContextRef\":\"a\",\"ServicePrincipalID\":\"a\"\x7d,\"CapabilityID\":" ++
    bytes "\"ouf.system.status\",\"GatewayBindingRef\":\"capability://ouf.system.status\",\"Owner\":\"mcp\"," ++
    bytes "\"OperationClass\":\"READ\",\"RequestHash\":\"" ++ bytes emptyRequestHash ++
    bytes "\",\"CorrelationID\":\"c\",\"IdempotencyKey\":\"k\",\"AttemptID\":\"t\"," ++
    bytes "\"AuthorizationDecisionRef\":\"d\"\x7d"

def envelopeTable : Value :=
  DelegationProof.record
    [(bytes "Identity", DelegationProof.record
        [(bytes "PrincipalID", .string (bytes "a")), (bytes "TenantID", .string (bytes "a")),
          (bytes "ActorType", .string (bytes "HUMAN")), (bytes "AuthenticationContextRef", .string (bytes "a")),
          (bytes "ServicePrincipalID", .string (bytes "a"))]),
      (bytes "CapabilityID", .string (bytes "ouf.system.status")),
      (bytes "GatewayBindingRef", .string (bytes "capability://ouf.system.status")),
      (bytes "Owner", .string (bytes "mcp")), (bytes "OperationClass", .string (bytes "READ")),
      (bytes "RequestHash", .string (bytes emptyRequestHash)), (bytes "CorrelationID", .string (bytes "c")),
      (bytes "IdempotencyKey", .string (bytes "k")), (bytes "AttemptID", .string (bytes "t")),
      (bytes "AuthorizationDecisionRef", .string (bytes "d"))]

/-- A string or a whole number. -/
def scalarText : Value → Option Bytes
  | .string x => some (sampleQuoted x)
  | .number (.finite q) => some (bytes (toString q.floor))
  | _ => none

/-- `cjson.encode`, of a table of these. -/
def sampleEncode : Value → Option Bytes
  | .table entries _ =>
    (entries.mapM fun (f : Value × Value) => do
      let k ← scalarText f.1
      let v ← scalarText f.2
      some (k ++ 58 :: v)).map fun members => 123 :: commas members ++ [125]
  | v => scalarText v

def sampleSentA : DelegationProof.Fields := sampleSent (bytes "a")

def sampleDecode (raw : Bytes) : Value :=
  if raw = bearerText then bearerClaims
  else if raw = envelopeText then envelopeTable
  else (sampleCjson sampleSentA).decode raw

def sampleWorker : Worker where
  cjson := { sampleCjson sampleSentA with decode := sampleDecode }
  hmac := (sampleRuntime sampleSentA).hmac
  key := (sampleRuntime sampleSentA).key
  encode := sampleEncode
  written _ := none
  ownerKey := some (List.replicate 64 98)

def sampleAuthorization : Bytes :=
  bytes "Bearer " ++ (bytes "a" ++ 46 :: (encode64 bearerText ++ 46 :: bytes "c"))

/-- A request with a delegation, and whatever other headers it has. -/
def sampleRequest (delegation : Bytes) (others : Lines) : Request where
  authorization := some sampleAuthorization
  headers :=
    [(bytes "X-OUF-Delegation", delegation), (bytes "X-Correlation-Id", bytes "c"), (bytes "Idempotency-Key", bytes "k"),
      (bytes "X-Tool-Attempt-Id", bytes "t")] ++ others
  uri := bytes "/internal/capabilities/v1/execute"
  body := some (envelopeText)

theorem decode_worker (raw : Bytes) : sampleWorker.cjson.decode raw = sampleDecode raw := rfl

theorem jwtClaims_sample : jwtClaims sampleWorker (some sampleAuthorization) = bearerClaims := by
  have hclaims : jwtClaims sampleWorker (some sampleAuthorization) = sampleWorker.cjson.decode bearerText :=
    jwtClaims_bearer ⟨by decide, by decide⟩ ⟨by decide, by decide⟩ (by decide)
  rw [hclaims, decode_worker, sampleDecode, if_pos rfl]

theorem caller_sample (delegation : Bytes) (others : Lines) :
    caller sampleWorker sampleSettings (sampleRequest delegation others) 1059 = .ok bearerClaims := by
  have hclaims : jwtClaims sampleWorker (sampleRequest delegation others).authorization = bearerClaims :=
    jwtClaims_sample
  simp only [caller, hclaims, bind_eq_ok, ensure_ok, require_ok, DelegationProof.numberOf_eq_some]
  refine ⟨(), by decide, .finite 2000, ?_, (), by decide, rfl⟩
  rfl

theorem decode_sampleCjson (sent : DelegationProof.Fields) :
    (sampleCjson sent).decode (sampleWriter.encode sent) = tableOf sampleWriter sent := if_pos rfl

theorem decode_sent : sampleDecode (sampleWriter.encode sampleSentA) = tableOf sampleWriter sampleSentA := by
  have hproof : (sampleWriter.encode sampleSentA).take 3 = bytes "\x7b\"v" := by decide
  have hbearer : sampleWriter.encode sampleSentA ≠ bearerText := by
    intro h
    rw [h] at hproof
    revert hproof
    decide
  have henvelope : sampleWriter.encode sampleSentA ≠ envelopeText := by
    intro h
    rw [h] at hproof
    revert hproof
    decide
  rw [sampleDecode, if_neg hbearer, if_neg henvelope, decode_sampleCjson]

theorem encode_sampleWorker (fields : DelegationProof.Fields) :
    sampleWorker.cjson.encode fields = sampleWriter.encode fields := rfl

theorem decode_sampleWorker : sampleWorker.cjson.decode (sampleWorker.cjson.encode sampleSentA) =
    tableOf sampleWriter sampleSentA := by
  rw [encode_sampleWorker, decode_worker, decode_sent]

theorem correct_sampleWorker : DelegationProof.Correct sampleWorker.toRuntime sampleSentA := by
  have hold := DelegationProof.correct_sample (bytes "a")
  refine ⟨hold.order, ?_, fun f hf => ?_, hold.whole, hold.digest⟩
  · rw [decode_sampleWorker]
    rfl
  · rw [decode_sampleWorker]
    exact DelegationProof.field_tableOf hf

theorem sign_sampleWorker (x : Bytes) : DelegationProof.sign sampleWorker.toRuntime x =
    some (DelegationProof.hmacSha256 (List.replicate 64 97) (bytes "ouf-mcp-delegation-v1." ++ x)) := by
  have hkey : (List.replicate 64 (97 : UInt8)).length = 64 ∧
      (List.replicate 64 97).all DelegationProof.isHexByte = true := by decide
  unfold DelegationProof.sign
  dsimp only [sampleWorker, sampleRuntime]
  rw [if_pos hkey]

/-- The proof of the sample, with its code. -/
def sampleDelegation : Bytes :=
  encode64 (sampleWriter.encode sampleSentA) ++ 46 ::
    encode64 (DelegationProof.hmacSha256 (List.replicate 64 97)
      (bytes "ouf-mcp-delegation-v1." ++ encode64 (sampleWriter.encode sampleSentA)))

theorem checkProof_sample : ∃ proof exp,
    checkProof sampleWorker sampleSettings { scope := some (bytes "operations.status.read") }
      (.string (bytes "a")) 1059 (.string sampleDelegation) =
        .ok ⟨proof, tableOf sampleWriter sampleSentA, exp, bytes "reader"⟩ := by
  have htext : text (.string (bytes "a")) = some (bytes "a") := by decide
  have htenant : claim (sampleClaims (bytes "a")) "tenant_id" = .string (bytes "a") :=
    DelegationProof.claim_sample (by simp [DelegationProof.sampleEntries])
  have hshort : DelegationProof.Short sampleWorker.toRuntime sampleSettings (sampleSubject (bytes "a")) 1000 1060 := by
    unfold DelegationProof.Short
    decide
  have hkept : DelegationProof.Kept sampleWorker.cjson 1000 1060 1059 := by
    refine ⟨?_, ?_, ?_⟩ <;> decide +kernel
  have hverify := (DelegationProof.verify_issued correct_sampleWorker (DelegationProof.checked_sample htext) rfl
    (by decide) (sign_sampleWorker _)).mpr ⟨⟨hshort, hkept⟩, rfl, rfl⟩
  rw [htenant] at hverify
  have hdecoded : DelegationProof.decoded sampleWorker.toRuntime sampleSettings (sampleSubject (bytes "a")) 1000 1060 =
      tableOf sampleWriter sampleSentA := decode_sampleWorker
  rw [hdecoded] at hverify
  exact verify_ok.mp hverify

theorem admit_sample {others : Lines}
    (hd : header (sampleRequest sampleDelegation others) "x-ouf-delegation" = .string sampleDelegation)
    (hc : checkCorrelation (sampleRequest sampleDelegation others) envelopeTable = .ok ()) :
    ∃ proof exp, vouch sampleWorker sampleSettings (executeStatus sampleWorker sampleSettings).checks
      (sampleRequest sampleDelegation others) 1059 =
        .ok ⟨1059, ⟨proof, tableOf sampleWriter sampleSentA, exp, bytes "reader"⟩,
          bytes "/internal/capabilities/v1/execute", envelopeText, envelopeTable⟩ := by
  obtain ⟨proof, exp, hproof⟩ := checkProof_sample
  have htenant : claim bearerClaims "tenant_id" = .string (bytes "a") := rfl
  have hbody : require 413 ((sampleRequest sampleDelegation others).body.filter fun body => body.length ≤ 65536) =
      .ok envelopeText := by
    refine require_ok.mpr (Option.filter_eq_some_iff.mpr ⟨rfl, ?_⟩)
    decide +kernel
  have hdecode : sampleWorker.cjson.decode envelopeText = envelopeTable := by
    have hne : envelopeText ≠ bearerText := by
      intro h
      have h3 := congrArg (fun raw => raw.take 4) h
      revert h3
      decide
    rw [decode_worker, sampleDecode, if_neg hne, if_pos rfl]
  have hidentity : checkIdentity sampleSettings false (tableOf sampleWriter sampleSentA) envelopeTable = .ok () :=
    ensure_ok.mpr (by decide)
  have hbinding : ensure 403 (names envelopeTable (bytes "ouf.system.status") "mcp" "READ" = true ∧
      (claim envelopeTable "RequestHash").isString (bytes emptyRequestHash) = true) = .ok () :=
    ensure_ok.mpr (by decide)
  refine ⟨proof, exp, ?_⟩
  unfold vouch
  rw [caller_sample, hd]
  simp only [bind_eq_ok]
  refine ⟨_, rfl, ⟨proof, tableOf sampleWriter sampleSentA, exp, bytes "reader"⟩, htenant ▸ hproof, _, hbody, envelopeTable, ?_, (), hidentity, (), hbinding, (), hc, rfl⟩
  simp only [readEnvelope, hdecode, bind_eq_ok, ensure_ok]
  exact ⟨(), ⟨rfl, rfl, fun h => by cases h⟩, rfl⟩

theorem finish_sample (proof : Bytes) (exp : Number) (hs : Lines) :
    ∃ out, (executeStatus sampleWorker sampleSettings).finish
      ⟨1059, ⟨proof, tableOf sampleWriter sampleSentA, exp, bytes "reader"⟩,
        bytes "/internal/capabilities/v1/execute", envelopeText, envelopeTable⟩ hs = .ok out :=
  ⟨_, rfl⟩

theorem run_sample {others : Lines}
    (hd : header (sampleRequest sampleDelegation others) "x-ouf-delegation" = .string sampleDelegation)
    (hc : checkCorrelation (sampleRequest sampleDelegation others) envelopeTable = .ok ()) :
    ∃ out, Kind.status.run sampleWorker sampleSettings (sampleRequest sampleDelegation others) 1059 = .ok out := by
  obtain ⟨proof, exp, hadmit⟩ := admit_sample hd hc
  obtain ⟨out, hout⟩ := finish_sample proof exp
    (clearWhere isTrusted (sampleRequest sampleDelegation others).headers)
  exact ⟨out, bind_eq_ok.mpr ⟨_, hadmit, hout⟩⟩

theorem header_sample (d : Bytes) : header (sampleRequest d []) "x-ouf-delegation" = .string d := rfl

theorem correlation_sample (d : Bytes) : checkCorrelation (sampleRequest d []) envelopeTable = .ok () :=
  ensure_ok.mpr ⟨rfl, rfl, rfl⟩

end Sample

end OufGateway.Executors
