import OufGateway.Proofs.Delegated

/-!
# Client headers do not reach the owner's trust

Of two requests that agree on what an executor looks at, and that both reach its end, the
owner gets the same in every header it trusts, and the same body, whatever other headers
the clients sent. All that is trusted is cleared first, so what is there in the end was
set, and what is set comes from the proof and the envelope. An executor that reads the
first hundred headers may see the delegation in one request and miss another one
further down in the other; if both reach the end, it is the first one in both.
-/

namespace OufGateway.Executors

open OufGateway.Lib
open DelegationProof (Settings ensure require ensure_ok require_ok)
open Headers (Lines entry clear set clearWhere lower values values_set_self values_set_of_ne values_clear_self
  values_clear_of_ne values_clearWhere_of_pick)
open Lua (Bytes Number Value)
open TrustedIdentity (bytes claim)

variable {w : Worker} {s : Settings} {r r₁ r₂ : Request} {now : Nat} {c : Checks} {a a₁ a₂ : Admitted}
  {hs hs' hs₁ hs₂ hs₁' hs₂' : Lines} {out out₁ out₂ : Forwarded} {n : Bytes} {names : List String}

/-! ## Agreement -/

/-- The same in every header an owner trusts. -/
def Agree (hs₁ hs₂ : Lines) : Prop := ∀ name, isTrusted (lower name) = true → values hs₁ name = values hs₂ name

/-- Nothing in a header an owner trusts, apart from these. -/
def Only (names : List String) (hs : Lines) : Prop :=
  ∀ name, isTrusted (lower name) = true → (∀ n ∈ names, lower name ≠ lower (bytes n)) → values hs name = []

theorem agree_cleared : Agree (clearWhere isTrusted hs₁) (clearWhere isTrusted hs₂) := by
  intro name htrusted
  rw [values_clearWhere_of_pick htrusted, values_clearWhere_of_pick htrusted]

theorem only_cleared : Only [] (clearWhere isTrusted hs) := fun _ htrusted _ => values_clearWhere_of_pick htrusted

theorem values_congr {m : Bytes} (h : lower n = lower m) : values hs n = values hs m := by
  unfold values
  rw [h]

theorem Agree.set (h : Agree hs₁ hs₂) (n : Bytes) (vs : List Bytes) : Agree (set hs₁ n vs) (set hs₂ n vs) := by
  intro name htrusted
  by_cases hn : lower name = lower n
  · rw [values_congr hn, values_congr hn, values_set_self, values_set_self]
  · rw [values_set_of_ne hn, values_set_of_ne hn, h name htrusted]

theorem Agree.clear (h : Agree hs₁ hs₂) (n : Bytes) : Agree (clear hs₁ n) (clear hs₂ n) := by
  intro name htrusted
  by_cases hn : lower name = lower n
  · rw [values_congr hn, values_congr hn, values_clear_self, values_clear_self]
  · rw [values_clear_of_ne hn, values_clear_of_ne hn, h name htrusted]

theorem Only.set (h : Only names hs) (n : String) (vs : List Bytes) : Only (n :: names) (set hs (bytes n) vs) := by
  intro name htrusted hnames
  rw [values_set_of_ne (hnames n List.mem_cons_self)]
  exact h name htrusted fun m hm => hnames m (List.mem_cons_of_mem _ hm)

theorem Only.clear (h : Only names hs) (n : Bytes) : Only names (clear hs n) := by
  intro name htrusted hnames
  have hnone := h name htrusted hnames
  unfold values Headers.clear at *
  rw [List.map_eq_nil_iff, List.filter_eq_nil_iff] at *
  exact fun e he => hnone e (List.mem_filter.mp he).1

/-- A header that is not trusted makes no difference. -/
theorem Only.plain {n : String} (h : Only (n :: names) hs) (hn : isTrusted (lower (bytes n)) = false) :
    Only names hs := by
  intro name htrusted hnames
  refine h name htrusted fun m hm => ?_
  rcases List.mem_cons.mp hm with rfl | hm
  · intro heq
    rw [heq, hn] at htrusted
    cases htrusted
  · exact hnames m hm

theorem Only.mono {names' : List String} (h : Only names hs) (hle : names ⊆ names') : Only names' hs :=
  fun name htrusted hnames => h name htrusted fun n hn => hnames n (hle hn)

theorem Agree.setHeaders {fields : List (String × Value)} (h : Agree hs₁ hs₂)
    (h₁ : setHeaders w hs₁ fields = .ok hs₁') (h₂ : setHeaders w hs₂ fields = .ok hs₂') : Agree hs₁' hs₂' := by
  induction fields generalizing hs₁ hs₂ with
  | nil =>
      rw [← Except.ok.inj h₁, ← Except.ok.inj h₂]
      exact h
  | cons f fields ih =>
      obtain ⟨vs₁, hvs₁, h₁⟩ := bind_eq_ok.mp h₁
      obtain ⟨vs₂, hvs₂, h₂⟩ := bind_eq_ok.mp h₂
      obtain rfl := Except.ok.inj (hvs₁.symm.trans hvs₂)
      exact ih (h.set _ _) h₁ h₂

theorem Only.setHeaders {fields : List (String × Value)} (h : Only names hs)
    (hset : setHeaders w hs fields = .ok hs') : Only (fields.map (·.1) ++ names) hs' := by
  induction fields generalizing hs names with
  | nil =>
      rw [← Except.ok.inj hset]
      exact h
  | cons f fields ih =>
      obtain ⟨vs, -, hset⟩ := bind_eq_ok.mp hset
      refine (ih (h.set f.1 vs) hset).mono ?_
      simp [List.subset_def]
      tauto

theorem Agree.setRoles (h : Agree hs₁ hs₂) (roles : Bytes) : Agree (setRoles roles hs₁) (setRoles roles hs₂) := by
  unfold Executors.setRoles
  split
  · exact h
  · exact h.set _ _

theorem Only.setRoles (h : Only names hs) (roles : Bytes) :
    Only ("X-OUF-External-Role-Refs" :: names) (setRoles roles hs) := by
  unfold Executors.setRoles
  split
  · exact h.mono (List.subset_cons_self _ _)
  · exact h.set _ _

theorem Agree.setJson (h : Agree hs₁ hs₂) : Agree (setJson hs₁) (setJson hs₂) := h.set _ _

theorem Only.setJson (h : Only names hs) : Only names (setJson hs) :=
  (h.set "Content-Type" _).plain (by decide)

/-! ## After the checks -/

/-- The trusted headers an executor sets. -/
def Kind.sets : Kind → List String
  | .status => "X-OUF-External-Role-Refs" :: downstreamNames
  | .operational _ owner _ =>
    (if owner = "mcp" then ["X-OUF-Delegation", "X-OUF-Delegation-Verified"] else []) ++
      "X-OUF-External-Role-Refs" :: downstreamNames
  | .permissions => ["X-OUF-Authorization-Receipt"]
  | .semanticProposals _ _ _ _ => ["X-OUF-Semantic-Proposal-Receipt"]
  | .objectSearch => ["X-OUF-UDP-Search-Receipt"]
  | .managedFile => ["X-OUF-Managed-File-Receipt"]
  | .semanticRead => ["X-OUF-Semantic-Read-Receipt"]
  | .managedUpload => ["X-OUF-Managed-File-Receipt"]

theorem agree_sendReceipt {d : Receipt} (h : Agree hs₁ hs₂) (h₁ : sendReceipt w d a hs₁ = .ok out₁)
    (h₂ : sendReceipt w d a hs₂ = .ok out₂) : Agree out₁.headers out₂.headers ∧ out₁.body = out₂.body := by
  simp only [sendReceipt, bind_eq_ok] at h₁ h₂
  obtain ⟨key, hkey, args, hargs, sealed, hsealed, h₁⟩ := h₁
  obtain ⟨key', hkey', args', hargs', sealed', hsealed', h₂⟩ := h₂
  obtain rfl := Except.ok.inj (hkey.symm.trans hkey')
  obtain rfl := Except.ok.inj (hargs.symm.trans hargs')
  obtain rfl := Except.ok.inj (hsealed.symm.trans hsealed')
  obtain rfl := Except.ok.inj h₁
  obtain rfl := Except.ok.inj h₂
  exact ⟨(h.set _ _).setJson, rfl⟩

theorem only_sendReceipt {d : Receipt} (h : Only [] hs) (hsend : sendReceipt w d a hs = .ok out) :
    Only [d.header] out.headers := by
  simp only [sendReceipt, bind_eq_ok] at hsend
  obtain ⟨key, -, args, -, sealed, -, hsend⟩ := hsend
  obtain rfl := Except.ok.inj hsend
  exact (h.set d.header _).setJson

theorem agree_setDelegation {owner : String} {proof : Bytes} (h : Agree hs₁ hs₂)
    (h₁ : setDelegation w owner proof hs₁ = .ok hs₁') (h₂ : setDelegation w owner proof hs₂ = .ok hs₂') :
    Agree hs₁' hs₂' := by
  unfold setDelegation at h₁ h₂
  split at h₁
  · next howner =>
    rw [if_pos howner] at h₂
    exact h.setHeaders h₁ h₂
  · next howner =>
    rw [if_neg howner] at h₂
    rw [← Except.ok.inj h₁, ← Except.ok.inj h₂]
    exact h

/-- What an executor does after its checks goes the same way wherever the trusted headers are the same. -/
theorem agree_finish {k : Kind} {x : Executor} (hx : k.executor w s = some x) (h : Agree hs₁ hs₂)
    (h₁ : x.finish a hs₁ = .ok out₁) (h₂ : x.finish a hs₂ = .ok out₂) :
    Agree out₁.headers out₂.headers ∧ out₁.body = out₂.body := by
  cases k with
  | status =>
      obtain rfl := Option.some.inj hx
      obtain ⟨hs₁', hset₁, h₁⟩ := bind_eq_ok.mp h₁
      obtain ⟨hs₂', hset₂, h₂⟩ := bind_eq_ok.mp h₂
      obtain rfl := Except.ok.inj h₁
      obtain rfl := Except.ok.inj h₂
      exact ⟨((h.setHeaders hset₁ hset₂).setRoles _).setJson, rfl⟩
  | operational capability owner requiredScope =>
      obtain rfl := Option.some.inj hx
      simp only [executeOperational, bind_eq_ok] at h₁ h₂
      obtain ⟨hs₁', hset₁, hs₁'', hmore₁, body, hbody, h₁⟩ := h₁
      obtain ⟨hs₂', hset₂, hs₂'', hmore₂, body', hbody', h₂⟩ := h₂
      obtain rfl := Except.ok.inj (hbody.symm.trans hbody')
      obtain rfl := Except.ok.inj h₁
      obtain rfl := Except.ok.inj h₂
      exact ⟨(agree_setDelegation ((h.setHeaders hset₁ hset₂).setRoles _) hmore₁ hmore₂).setJson, rfl⟩
  | managedUpload => cases hx
  | _ =>
      obtain rfl := Option.some.inj hx
      exact agree_sendReceipt h h₁ h₂

theorem only_finish {k : Kind} {x : Executor} (hx : k.executor w s = some x) (h : Only [] hs)
    (hfinish : x.finish a hs = .ok out) : Only k.sets out.headers := by
  cases k with
  | status =>
      obtain rfl := Option.some.inj hx
      obtain ⟨hs', hset, hfinish⟩ := bind_eq_ok.mp hfinish
      obtain rfl := Except.ok.inj hfinish
      refine (((h.setHeaders hset).setRoles _).setJson).mono ?_
      exact fun _ hmem => hmem
  | operational capability owner requiredScope =>
      obtain rfl := Option.some.inj hx
      simp only [executeOperational, bind_eq_ok] at hfinish
      obtain ⟨hs', hset, hs'', hmore, body, -, hfinish⟩ := hfinish
      obtain rfl := Except.ok.inj hfinish
      have hroles : Only ("X-OUF-External-Role-Refs" :: downstreamNames) (setRoles a.verified.roles hs') :=
        (h.setHeaders hset).setRoles _
      refine Only.setJson ?_
      unfold setDelegation at hmore
      unfold Kind.sets
      dsimp only
      split at hmore
      · next howner =>
        rw [if_pos howner]
        exact hroles.setHeaders hmore
      · next howner =>
        rw [if_neg howner, ← Except.ok.inj hmore]
        exact hroles
  | managedUpload => cases hx
  | _ =>
      obtain rfl := Option.some.inj hx
      exact only_sendReceipt h hfinish

/-! ## The checks -/

/-- The headers an upload is checked by. -/
def uploadHeaders : List String :=
  ["x-ouf-delegation", "content-length", "x-content-sha256", "x-ouf-file-id", "idempotency-key", "content-type"]

/-- Two requests that agree on what an executor looks at. -/
structure Alike (k : Kind) (r₁ r₂ : Request) : Prop where
  authorization : r₁.authorization = r₂.authorization
  uri : r₁.uri = r₂.uri
  body : r₁.body = r₂.body
  delegation : values r₁.headers (bytes "x-ouf-delegation") = values r₂.headers (bytes "x-ouf-delegation")
  upload : k = .managedUpload →
    ∀ name ∈ uploadHeaders, values r₁.headers (bytes name) = values r₂.headers (bytes name)

theorem caller_alike (h : r₁.authorization = r₂.authorization) : caller w s r₁ now = caller w s r₂ now := by
  unfold caller
  rw [h]

theorem vouch_alike {k : Kind} (h : Alike k r₁ r₂) (h₁ : vouch w s c r₁ now = .ok a₁) (h₂ : vouch w s c r₂ now = .ok a₂) :
    a₁ = a₂ := by
  obtain ⟨claims₁, -, hproven₁⟩ := (vouch_ok h₁).caller
  obtain ⟨claims₂, -, hproven₂⟩ := (vouch_ok h₂).caller
  -- the first delegation of all is the one that both have found
  have hfirst₁ := Headers.head_of_entry hproven₁.header
  have hfirst₂ := Headers.head_of_entry hproven₂.header
  rw [h.delegation, hfirst₂] at hfirst₁
  have hheader : header r₁ "x-ouf-delegation" = header r₂ "x-ouf-delegation" := by
    rw [hproven₁.header, hproven₂.header, Option.some.inj hfirst₁]
  simp only [vouch, bind_eq_ok] at h₁ h₂
  obtain ⟨claims, hclaims, v, hv, body, hbody, e, he, -, -, -, -, -, -, h₁⟩ := h₁
  obtain ⟨claims', hclaims', v', hv', body', hbody', e', he', -, -, -, -, -, -, h₂⟩ := h₂
  rw [caller_alike h.authorization] at hclaims
  obtain rfl := Except.ok.inj (hclaims.symm.trans hclaims')
  rw [hheader] at hv
  obtain rfl := Except.ok.inj (hv.symm.trans hv')
  rw [h.body] at hbody
  obtain rfl := Except.ok.inj (hbody.symm.trans hbody')
  obtain rfl := Except.ok.inj (he.symm.trans he')
  rw [← Except.ok.inj h₁, ← Except.ok.inj h₂, h.uri]

theorem admitUpload_alike (h : Alike .managedUpload r₁ r₂) : admitUpload w s r₁ now = admitUpload w s r₂ now := by
  have hentry : ∀ name ∈ uploadHeaders, entry r₁.headers (bytes name) = entry r₂.headers (bytes name) := by
    intro name hname
    unfold entry
    rw [h.upload rfl name hname]
  unfold admitUpload
  simp only [caller_alike h.authorization, h.uri, hentry "x-ouf-delegation" (by decide),
    hentry "content-length" (by decide), hentry "x-content-sha256" (by decide), hentry "x-ouf-file-id" (by decide),
    hentry "idempotency-key" (by decide), hentry "content-type" (by decide)]

/-! ## All executors -/

theorem run_agrees {k : Kind} (h : Alike k r₁ r₂) (h₁ : k.run w s r₁ now = .ok out₁)
    (h₂ : k.run w s r₂ now = .ok out₂) : Agree out₁.headers out₂.headers ∧ out₁.body = out₂.body := by
  unfold Kind.run at h₁ h₂
  cases hx : k.executor w s with
  | some x =>
      rw [hx] at h₁ h₂
      obtain ⟨a₁, hadmit₁, h₁⟩ := bind_eq_ok.mp h₁
      obtain ⟨a₂, hadmit₂, h₂⟩ := bind_eq_ok.mp h₂
      obtain rfl := vouch_alike h hadmit₁ hadmit₂
      exact agree_finish hx agree_cleared h₁ h₂
  | none =>
      obtain rfl := executor_eq_none hx
      rw [hx] at h₁ h₂
      simp only [executeManagedUpload, admitUpload_alike h, finishUpload, bind_eq_ok] at h₁ h₂
      obtain ⟨u, hu, headers, ⟨key, hkey, sealed, hsealed, hheaders⟩, h₁⟩ := h₁
      obtain ⟨u', hu', headers', ⟨key', hkey', sealed', hsealed', hheaders'⟩, h₂⟩ := h₂
      obtain rfl := Except.ok.inj (hu.symm.trans hu')
      obtain rfl := Except.ok.inj (hkey.symm.trans hkey')
      obtain rfl := Except.ok.inj (hsealed.symm.trans hsealed')
      obtain rfl := Except.ok.inj h₁
      obtain rfl := Except.ok.inj h₂
      obtain rfl := Except.ok.inj hheaders
      obtain rfl := Except.ok.inj hheaders'
      exact ⟨(agree_cleared.set _ _).clear _, h.body⟩

theorem run_only {k : Kind} (h : k.run w s r now = .ok out) : Only k.sets out.headers := by
  unfold Kind.run at h
  cases hx : k.executor w s with
  | some x =>
      rw [hx] at h
      obtain ⟨a, -, h⟩ := bind_eq_ok.mp h
      exact only_finish hx only_cleared h
  | none =>
      obtain rfl := executor_eq_none hx
      rw [hx] at h
      simp only [executeManagedUpload, finishUpload, bind_eq_ok] at h
      obtain ⟨u, -, headers, ⟨key, -, sealed, -, hheaders⟩, h⟩ := h
      obtain rfl := Except.ok.inj h
      obtain rfl := Except.ok.inj hheaders
      exact (only_cleared.set "X-OUF-Managed-File-Receipt" _).clear _

/-- A header that claims another role. -/
def forgedHeader : Lines := [(bytes "X-Ouf-External-Role-Refs", bytes "admin")]

end OufGateway.Executors
