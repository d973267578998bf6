import OufGateway.Ref.Southbound

/-!
# Where a southbound call can go

A destination that was validated goes to the registered host over TLS, and each
address it resolved to has passed the six tests. Without allowed networks the tests
say less than they mean to: an address can be neither private nor globally
reachable (`Between`). And two parts of the URL are tested as truth values, so that
an empty user name passes, and an explicit port 0 counts as 443. Where none of
these happens the destination is confined, and only there.
-/

namespace OufGateway.Southbound

open Lib Ip

variable {lib : Library} {url : String} {registered : RegisteredEndpoint} {ips : List String}
  {networks : List Network}

/-! ## What is asked of a destination -/

/-- The port a URL leads to. -/
def urlPort (port : Option Nat) : Nat := port.getD 443

structure AddressOk (networks : List Network) (ip : Address) : Prop where
  allowed : forbidden ip = false
  inNetwork : networks ≠ [] → ∃ network ∈ networks, network.has ip = true
  reachable : networks = [] → ip.Reachable

structure Confined (lib : Library) (registered : RegisteredEndpoint) (url : String)
    (ips : List String) : Prop where
  endpoint : ∃ parsed port, lib.urlparse url = .ok parsed ∧ parsed.port = .ok port ∧
    parsed.scheme = "https" ∧ parsed.username = none ∧ parsed.password = none ∧
    parsed.fragment = "" ∧ parsed.hostname = some registered.host ∧ urlPort port = registered.port
  answers : ∃ answers, lib.resolver registered.host registered.port = .ok answers ∧
    ∀ raw, raw ∈ ips ↔ raw ∈ answers
  nodup : ips.Nodup
  addresses : ∃ networks, registered.allowedCidrs.mapM lib.ipNetwork = .ok networks ∧
    ∀ raw ∈ ips, ∃ ip, lib.ipAddress raw = .ok ip ∧ AddressOk networks ip

/-- Nothing of the URL is present and empty, and without networks no address falls between. -/
structure Plain (lib : Library) (registered : RegisteredEndpoint) (url : String) : Prop where
  components : ∀ parsed, lib.urlparse url = .ok parsed → parsed.username ≠ some "" ∧
    parsed.password ≠ some "" ∧ parsed.port ≠ .ok (some 0)
  answers : registered.allowedCidrs = [] → ∀ answers,
    lib.resolver registered.host registered.port = .ok answers → ∀ raw ∈ answers, ∀ ip,
      lib.ipAddress raw = .ok ip → ¬ ip.Between

/-! ## What a destination that was validated has passed -/

theorem denyIf_ok {c : Bool} {reason : String} : denyIf c reason = .ok () ↔ c = false := by
  cases c <;> simp [denyIf]

theorem denyIf_bind {α : Type} {c : Bool} {reason : String} {k : Unit → Except Raised α} {x : α} :
    (denyIf c reason >>= k) = .ok x ↔ c = false ∧ k () = .ok x := by
  cases c <;> simp [denyIf, bind, Except.bind]

theorem truthy_eq_false {text : Option String} : truthy text = false ↔ text = none ∨ text = some "" := by
  cases text with
  | none => simp [truthy]
  | some s => simp [truthy]

theorem checkEndpoint_ok {parsed : Parsed} : checkEndpoint parsed registered = .ok () ↔
    parsed.scheme = registered.scheme ∧ parsed.hostname = some registered.host ∧
      ∃ port, parsed.port = .ok port ∧ effective parsed port = registered.port := by
  rw [checkEndpoint, denyIf_bind, denyIf_bind, bind_eq_ok]
  simp only [denyIf_ok, decide_eq_false_iff_not, not_not]

theorem resolve_ok {host : String} {port : Nat} {answers : List String} :
    resolve lib host port = .ok answers ↔ lib.resolver host port = .ok answers := by
  unfold resolve
  split
  · next h =>
    rw [h]
    simp
  · rfl

theorem mem_sortedSet {answers : List String} {raw : String} :
    raw ∈ sortedSet answers ↔ raw ∈ answers := by
  rw [sortedSet, List.mem_insertionSort, List.mem_dedup]

theorem nodup_sortedSet (answers : List String) : (sortedSet answers).Nodup :=
  (List.perm_insertionSort _ _).nodup_iff.mpr (List.nodup_dedup _)

/-- What a single address has passed. -/
structure Passed (networks : List Network) (ip : Address) : Prop where
  allowed : forbidden ip = false
  private_ : ¬ (ip.isPrivate = true ∧ networks = [])
  inNetwork : networks ≠ [] → ∃ network ∈ networks, network.has ip = true

theorem checkAddress_ok {ip : Address} : checkAddress networks ip = .ok () ↔ Passed networks ip := by
  rw [checkAddress, denyIf_bind, denyIf_bind, denyIf_ok]
  constructor
  · intro h
    obtain ⟨hallowed, hprivate, hnetwork⟩ := h
    refine ⟨hallowed, fun hbad => ?_, fun hne => ?_⟩
    · rw [hbad.1, hbad.2] at hprivate
      cases hprivate
    · rw [List.isEmpty_eq_false_iff.mpr hne, Bool.not_false, Bool.true_and, Bool.not_eq_false'] at hnetwork
      exact List.any_eq_true.mp hnetwork
  · intro h
    refine ⟨h.allowed, ?_, ?_⟩
    · rw [← Bool.not_eq_true, Bool.and_eq_true, List.isEmpty_iff]
      exact h.private_
    · cases hempty : networks.isEmpty with
      | true => rfl
      | false =>
          have hany := List.any_eq_true.mpr (h.inNetwork (List.isEmpty_eq_false_iff.mp hempty))
          simp [hany]

theorem checkAddresses_ok : checkAddresses lib networks ips = .ok () ↔
    ∀ raw ∈ ips, ∃ ip, lib.ipAddress raw = .ok ip ∧ Passed networks ip := by
  induction ips with
  | nil => simp [checkAddresses]
  | cons raw ips ih =>
      rw [checkAddresses, bind_eq_ok, List.forall_mem_cons, ← ih]
      constructor
      · intro h
        obtain ⟨ip, hip, hrest⟩ := h
        obtain ⟨_, haddress, hips⟩ := bind_eq_ok.mp hrest
        exact ⟨⟨ip, hip, checkAddress_ok.mp haddress⟩, hips⟩
      · intro h
        obtain ⟨⟨ip, hip, hpassed⟩, hips⟩ := h
        exact ⟨ip, hip, bind_eq_ok.mpr ⟨(), checkAddress_ok.mpr hpassed, hips⟩⟩

/-- A destination that was validated. -/
structure Validated (lib : Library) (registered : RegisteredEndpoint) (url : String)
    (ips : List String) (parsed : Parsed) (port : Option Nat) (answers : List String)
    (networks : List Network) : Prop where
  parses : lib.urlparse url = .ok parsed
  noUser : parsed.username = none ∨ parsed.username = some ""
  noPassword : parsed.password = none ∨ parsed.password = some ""
  noFragment : parsed.fragment = ""
  https : parsed.scheme = "https"
  host : parsed.hostname = some registered.host
  readsPort : parsed.port = .ok port
  leads : effective parsed port = registered.port
  resolves : lib.resolver registered.host registered.port = .ok answers
  sorted : ips = sortedSet answers
  reads : registered.allowedCidrs.mapM lib.ipNetwork = .ok networks
  passed : ∀ raw ∈ ips, ∃ ip, lib.ipAddress raw = .ok ip ∧ Passed networks ip

theorem validated_of_ok (h : validateDestination lib url registered = .ok ips) :
    ∃ parsed port answers networks, Validated lib registered url ips parsed port answers networks := by
  rw [validateDestination, bind_eq_ok] at h
  obtain ⟨parsed, hparse, h⟩ := h
  rw [denyIf_bind, Bool.or_eq_false_iff, Bool.or_eq_false_iff, truthy_eq_false, truthy_eq_false,
    decide_eq_false_iff_not, not_not] at h
  obtain ⟨⟨⟨husername, hpassword⟩, hfragment⟩, h⟩ := h
  obtain ⟨_, hendpoint, h⟩ := bind_eq_ok.mp h
  obtain ⟨-, hhostname, port, hport, heffective⟩ := checkEndpoint_ok.mp hendpoint
  rw [denyIf_bind, decide_eq_false_iff_not, not_not] at h
  obtain ⟨hscheme, h⟩ := h
  obtain ⟨answers, hresolve, h⟩ := bind_eq_ok.mp h
  obtain ⟨_, h⟩ := denyIf_bind.mp h
  obtain ⟨networks, hnetworks, h⟩ := bind_eq_ok.mp h
  obtain ⟨_, hchecked, h⟩ := bind_eq_ok.mp h
  obtain rfl := Except.ok.inj h
  exact ⟨parsed, port, answers, networks, hparse, husername, hpassword, hfragment, hscheme, hhostname,
    hport, heffective, resolve_ok.mp hresolve, rfl, hnetworks, checkAddresses_ok.mp hchecked⟩

/-! ## Confined -/

theorem effective_eq {parsed : Parsed} {port : Option Nat} (h : parsed.scheme = "https") :
    effective parsed port = if port = some 0 then 443 else urlPort port := by
  cases port with
  | none => simp [effective, urlPort, h]
  | some n =>
      cases n with
      | zero => simp [effective, h]
      | succ n => simp [effective, urlPort]

theorem forbidden_eq_false {ip : Address} : forbidden ip = false ↔ ip.isLoopback = false ∧
    ip.isLinkLocal = false ∧ ip.isMulticast = false ∧ ip.isUnspecified = false ∧
      ip.isReserved = false := by
  simp only [forbidden, Bool.or_eq_false_iff, and_assoc]

theorem addressOk_iff {ip : Address} (h : Passed networks ip) :
    AddressOk networks ip ↔ (networks = [] → ¬ ip.Between) := by
  have hreach (hnone : networks = []) : ip.Reachable ↔ ¬ ip.Between := by
    obtain ⟨-, hlink, hmulticast, -, hreserved⟩ := forbidden_eq_false.mp h.allowed
    have hprivate : ip.isPrivate = false := by
      rw [← Bool.not_eq_true]
      exact fun hp => h.private_ ⟨hp, hnone⟩
    exact Address.reachable_iff hlink hmulticast hreserved hprivate
  constructor
  · exact fun hok hnone => (hreach hnone).mp (hok.reachable hnone)
  · exact fun hplain => ⟨h.allowed, h.inNetwork, fun hnone => (hreach hnone).mpr (hplain hnone)⟩

theorem mapM_nil_iff {cidrs : List String} (h : cidrs.mapM lib.ipNetwork = .ok networks) :
    networks = [] ↔ cidrs = [] := by
  cases cidrs with
  | nil =>
      obtain rfl : [] = networks := by simpa [pure, Except.pure] using h
      simp
  | cons cidr cidrs =>
      rw [List.mapM_cons] at h
      obtain ⟨network, -, h⟩ := bind_eq_ok.mp h
      obtain ⟨rest, -, h⟩ := bind_eq_ok.mp h
      obtain rfl := Except.ok.inj h
      simp

theorem confined_iff (h : validateDestination lib url registered = .ok ips) :
    Confined lib registered url ips ↔ Plain lib registered url := by
  obtain ⟨parsed, port, answers, networks, hv⟩ := validated_of_ok h
  have hnil := mapM_nil_iff hv.reads
  have hport : effective parsed port = if port = some 0 then 443 else urlPort port :=
    effective_eq hv.https
  constructor
  · intro hc
    refine ⟨?_, ?_⟩
    · intro other hother
      obtain rfl := Except.ok.inj (hv.parses.symm.trans hother)
      obtain ⟨again, port', hagain, hport', -, husername, hpassword, -, -, heq⟩ := hc.endpoint
      obtain rfl := Except.ok.inj (hv.parses.symm.trans hagain)
      obtain rfl := Except.ok.inj (hv.readsPort.symm.trans hport')
      refine ⟨by simp [husername], by simp [hpassword], ?_⟩
      intro hzero
      obtain rfl := Except.ok.inj (hv.readsPort.symm.trans hzero)
      rw [if_pos rfl, hv.leads, ← heq] at hport
      simp [urlPort] at hport
    · intro hcidrs other hother raw hraw ip hip
      obtain rfl := Except.ok.inj (hv.resolves.symm.trans hother)
      obtain ⟨nets, hnets, haddresses⟩ := hc.addresses
      obtain rfl := Except.ok.inj (hv.reads.symm.trans hnets)
      have hmem : raw ∈ ips := hv.sorted ▸ mem_sortedSet.mpr hraw
      obtain ⟨found, hfound, hok⟩ := haddresses raw hmem
      obtain ⟨passed, hpassed, hpass⟩ := hv.passed raw hmem
      obtain rfl := Except.ok.inj (hip.symm.trans hfound)
      obtain rfl := Except.ok.inj (hip.symm.trans hpassed)
      exact (addressOk_iff hpass).mp hok (hnil.mpr hcidrs)
  · intro hp
    obtain ⟨husername, hpassword, hzero⟩ := hp.components parsed hv.parses
    have hne : port ≠ some 0 := fun hz => hzero (hz ▸ hv.readsPort)
    rw [if_neg hne, hv.leads] at hport
    refine ⟨⟨parsed, port, hv.parses, hv.readsPort, hv.https, hv.noUser.resolve_right husername,
      hv.noPassword.resolve_right hpassword, hv.noFragment, hv.host, hport.symm⟩,
      ⟨answers, hv.resolves, fun raw => hv.sorted ▸ mem_sortedSet⟩, hv.sorted ▸ nodup_sortedSet answers,
      networks, hv.reads, fun raw hraw => ?_⟩
    obtain ⟨ip, hip, hpass⟩ := hv.passed raw hraw
    refine ⟨ip, hip, (addressOk_iff hpass).mpr fun hnone => ?_⟩
    exact hp.answers (hnil.mp hnone) answers hv.resolves raw (mem_sortedSet.mp (hv.sorted ▸ hraw)) ip hip

theorem validateRedirect_ok {currentUrl location target : String} :
    validateRedirect lib currentUrl location registered = .ok target ↔
      lib.urljoin currentUrl location = .ok target ∧
        ∃ ips, validateDestination lib target registered = .ok ips := by
  rw [validateRedirect, bind_eq_ok]
  constructor
  · intro h
    obtain ⟨joined, hjoin, h⟩ := h
    obtain ⟨ips, hips, h⟩ := bind_eq_ok.mp h
    obtain rfl := Except.ok.inj h
    exact ⟨hjoin, ips, hips⟩
  · intro h
    obtain ⟨hjoin, ips, hips⟩ := h
    exact ⟨target, hjoin, bind_eq_ok.mpr ⟨ips, hips, rfl⟩⟩

/-- What comes back from either function is confined where it is plain, and only there. -/
theorem destination_confined_iff (lib : Library) (registered : RegisteredEndpoint) :
    (∀ url ips, validateDestination lib url registered = .ok ips →
      (Confined lib registered url ips ↔ Plain lib registered url)) ∧
    (∀ currentUrl location target,
      validateRedirect lib currentUrl location registered = .ok target →
      ∃ ips, validateDestination lib target registered = .ok ips ∧
        (Confined lib registered target ips ↔ Plain lib registered target)) := by
  refine ⟨fun url ips h => confined_iff h, fun currentUrl location target h => ?_⟩
  obtain ⟨-, ips, hips⟩ := validateRedirect_ok.mp h
  exact ⟨ips, hips, confined_iff hips⟩

/-! ## A host with one address -/

def sueUrl : String := "https://sue.example.local/api"

/-- The library on this URL and on the address its host resolves to. -/
def sueLibrary (answer : String) (address : Address) : Library where
  urlparse url :=
    if url = sueUrl then .ok ⟨"https", none, none, some "sue.example.local", .ok none, ""⟩
    else .error .valueError
  urljoin base location :=
    if base = "https://sue.example.local/a" ∧ location = "/api" then .ok sueUrl
    else .error .valueError
  ipAddress raw := if raw = answer then .ok address else .error .valueError
  ipNetwork _ := .error .valueError
  resolver host _ := if host = "sue.example.local" then .ok [answer] else .error .osError

def sueEndpoint : RegisteredEndpoint := ⟨"https", "sue.example.local", 443, []⟩

def publicLibrary : Library := sueLibrary "8.8.8.8" (.v4 (BitVec.ofNat 32 (quad 8 8 8 8)))

def sharedLibrary : Library := sueLibrary "100.64.0.1" (.v4 (BitVec.ofNat 32 (quad 100 64 0 1)))

theorem validate_public : validateDestination publicLibrary sueUrl sueEndpoint = .ok ["8.8.8.8"] := by
  decide +kernel

theorem validate_shared :
    validateDestination sharedLibrary sueUrl sueEndpoint = .ok ["100.64.0.1"] := by
  decide +kernel

theorem plain_public : Plain publicLibrary sueEndpoint sueUrl := by
  refine ⟨?_, ?_⟩
  · intro parsed hparsed
    obtain rfl := Except.ok.inj hparsed
    exact ⟨by simp, by simp, by simp⟩
  · intro _ answers hanswers raw hraw ip hip
    obtain rfl := Except.ok.inj hanswers
    obtain rfl := List.mem_singleton.mp hraw
    obtain rfl := Except.ok.inj hip
    decide

theorem public_is_confined : Confined publicLibrary sueEndpoint sueUrl ["8.8.8.8"] :=
  ((destination_confined_iff publicLibrary sueEndpoint).1 sueUrl ["8.8.8.8"] validate_public).mpr
    plain_public

/-- An address of the shared space is neither private nor globally reachable, and comes back. -/
theorem shared_is_not_confined :
    validateDestination sharedLibrary sueUrl sueEndpoint = .ok ["100.64.0.1"] ∧
      ¬ Confined sharedLibrary sueEndpoint sueUrl ["100.64.0.1"] := by
  refine ⟨validate_shared, fun hconfined => ?_⟩
  have hplain := (confined_iff validate_shared).mp hconfined
  exact hplain.answers rfl ["100.64.0.1"] rfl "100.64.0.1" List.mem_cons_self _ rfl (by decide)

end OufGateway.Southbound
