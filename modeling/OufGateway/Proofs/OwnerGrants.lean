import Mathlib
import OufGateway.Lib.Json
import OufGateway.Lib.Program
import OufGateway.Ref.Incidents
import OufGateway.Ref.Cursor
import OufGateway.Ref.Bookmarks
import OufGateway.Ref.OwnerApi
import OufGateway.Proofs.Requests

/-!
# What an owner answer discloses

Every item of an answer went through `visible`, in whichever mode, and `visible` lets an
item through on a decision of its own only. The proof follows the callback: through the
filter of a page, through the wrapper the bookmarks put around it, and past everything a
page goes through after it was filtered, which leaves its items alone.

The states a request finds and the answers of the callback are arbitrary at every step,
so nothing here rests on a store that stays or on an authorizer that is consistent.
-/

namespace OufGateway.Owner

open Lib Incidents

/-- The decision grants the resource in full detail, to this identity under this policy. -/
structure Grants (resource : Json) (identity : Json) (policy : String) (d : Json) : Prop where
  allowed : (d.get? "allowed").any Json.isTrue = true
  resource : ∃ r, d.get? "resource" = some r ∧ Json.eqv r resource = true
  detail : d.get? "permittedDetailLevel" = some (.str "RESTRICTED_OPERATIONAL")
  identity : ∃ i, d.get? "identity" = some i ∧ Json.eqv i identity = true
  policy : d.get? "policyRef" = some (.str policy)

/-- Among the events is a decision on the item that grants it. -/
def Shown (c : Context) (tenant : String) (identity : Json) (policy : String) (es : List Event)
    (i : Incident) : Prop :=
  ∃ d, Event.decided c.capability (resourceOf tenant (some i.incidentId) i.endpointRef)
      (.value d) ∈ es ∧
    Grants (resourceOf tenant (some i.incidentId) i.endpointRef) identity policy d

variable {c : Context} {tenant policy : String} {identity : Identity} {i : Incident}
  {es es' : List Event}

theorem Shown.mono {identity : Json} (hle : es <+: es') (h : Shown c tenant identity policy es i) :
    Shown c tenant identity policy es' i := by
  obtain ⟨d, hmem, hgrants⟩ := h
  exact ⟨d, hle.subset hmem, hgrants⟩

/-! ## Decisions -/

theorem str_of_text? {v : Json} {s : String} (h : text? v = some s) : v = .str s := by
  unfold text? at h
  split at h
  · rw [Option.some.inj h]
  · cases h

theorem of?_json {json : Json} {i : Identity} (h : Identity.of? json = some i) : i.json = json := by
  unfold Identity.of? at h
  split at h
  · cases h
    rfl
  · cases h

/-- What the decision says of itself when it is taken for a grant. -/
theorem grant_ok {principal : String} {resource d : Json} {i : Identity} {p : String}
    (h : grant principal tenant resource d = .ok (i, p)) :
    (d.get? "allowed").any Json.isTrue = true ∧
      (∃ r, d.get? "resource" = some r ∧ Json.eqv r resource = true) ∧
      d.get? "permittedDetailLevel" = some (.str "RESTRICTED_OPERATIONAL") ∧
      d.get? "identity" = some i.json ∧ d.get? "policyRef" = some (.str p) ∧
      i.principal = principal ∧ i.tenant = tenant := by
  unfold grant at h
  split at h
  · cases h
  · next hallowed =>
    split at h
    · cases h
    · next identity hidentity =>
      obtain ⟨hidentity, hwho⟩ := Option.filter_eq_some_iff.mp hidentity
      obtain ⟨json, hjson, hof⟩ := Option.bind_eq_some_iff.mp hidentity
      simp only [Bool.and_eq_true, decide_eq_true_eq] at hwho
      simp only [] at h
      split at h
      · cases h
      · split at h
        · cases h
        · split at h
          · cases h
          · next hresource =>
            rw [not_or, Bool.not_eq_false, not_not] at hresource
            split at h
            · cases h
            · next p' hp =>
              cases h
              obtain ⟨r, hr, heqv⟩ := (Option.any_eq_true _ _).mp hresource.1
              obtain ⟨level, hlevel, htext⟩ := Option.bind_eq_some_iff.mp hresource.2
              obtain ⟨hp, -⟩ := Option.filter_eq_some_iff.mp hp
              obtain ⟨ref, href, hptext⟩ := Option.bind_eq_some_iff.mp hp
              refine ⟨Bool.not_eq_false _ ▸ hallowed, ⟨r, hr, heqv⟩, ?_, ?_, ?_, hwho⟩
              · rw [hlevel, str_of_text? htext]
              · rw [hjson, of?_json hof]
              · rw [href, str_of_text? hptext]

theorem meets_consult (capability : String) (resource : Json) (es : List Event) :
    Program.Meets (fun es' x => ∀ d, x = .ok d →
        es' = es ++ [Event.decided capability resource (.value d)])
      (consult capability resource) es := by
  intro db o
  simp only []
  split
  · next v hanswer =>
    intro d hd
    cases hd
    rw [hanswer]
  · intro d hd
    cases hd
  · intro d hd
    cases hd
  · intro d hd
    cases hd

/-- A decision that is answered was asked for, and its answer is a grant. -/
theorem meets_decision (incidentId endpointRef : Option String) :
    Program.Meets (fun es' x => ∀ i p, x = .ok (i, p) → ∃ tenant d,
        c.headers.text? "X-OUF-Tenant-ID" = some tenant ∧
          es' = es ++
            [Event.decided c.capability (resourceOf tenant incidentId endpointRef) (.value d)] ∧
          grant ((c.headers.get? "X-OUF-Principal-ID").getD "") tenant
            (resourceOf tenant incidentId endpointRef) d = .ok (i, p))
      (c.decision incidentId endpointRef) es := by
  unfold Context.decision
  split
  · intro i p h
    cases h
  · split
    · intro i p h
      cases h
    · next tenant htenant =>
      refine (meets_consult _ _ _).bind (fun es₁ d hd => ?_) fun es₁ e _ i p h => by cases h
      exact Program.meets_ofExcept fun i p hgrant => ⟨tenant, d, htenant, hd d rfl, hgrant⟩

/-- What is visible was granted on a decision of its own. -/
theorem meets_visible (htenant : c.headers.text? "X-OUF-Tenant-ID" = some tenant) (i : Incident)
    (es : List Event) :
    Program.Meets (fun es' x => ∀ v, x = .ok v → v.truthy = true →
        Shown c tenant identity.json policy es' i)
      (c.visible identity policy i) es := by
  unfold Context.visible
  refine Program.Meets.bind (q := fun es' x => ∀ fresh, x = .ok (some fresh) → ∃ d,
      Event.decided c.capability (resourceOf tenant (some i.incidentId) i.endpointRef) (.value d) ∈ es' ∧
        grant ((c.headers.get? "X-OUF-Principal-ID").getD "") tenant
          (resourceOf tenant (some i.incidentId) i.endpointRef) d = .ok fresh)
    ?_ (fun es₁ row hrow => ?_) fun es₁ e _ v hv => by cases hv
  · unfold Context.rowDecision
    refine Program.Meets.handle (q := fun es' x => ∀ fresh, x = .ok (some fresh) → ∃ d,
        Event.decided c.capability (resourceOf tenant (some i.incidentId) i.endpointRef)
          (.value d) ∈ es' ∧
        grant ((c.headers.get? "X-OUF-Principal-ID").getD "") tenant
          (resourceOf tenant (some i.incidentId) i.endpointRef) d = .ok fresh)
      ?_ (fun _ _ h => h) fun es₁ e _ => ?_
    · refine (meets_decision (some i.incidentId) i.endpointRef).bind (fun es₁ d hd => ?_)
        fun es₁ e _ fresh hfresh => by cases hfresh
      intro fresh hfresh
      cases hfresh
      obtain ⟨tenant', decision, htenant', rfl, hgrant⟩ := hd d.1 d.2 rfl
      obtain rfl := Option.some.inj (htenant.symm.trans htenant')
      exact ⟨decision, by simp, hgrant⟩
    · split
      · intro fresh hfresh
        cases hfresh
      · intro fresh hfresh
        cases hfresh
  · cases row with
    | none =>
        intro v hv htruthy
        cases hv
        cases htruthy
    | some fresh =>
        obtain ⟨d, hmem, hgrant⟩ := hrow fresh rfl
        obtain ⟨hallowed, hresource, hdetail, hidentity, hpolicy, -⟩ := grant_ok hgrant
        show Program.Meets _ (Context.unchanged identity policy fresh) _
        unfold Context.unchanged
        split
        · intro v hv
          cases hv
        · next hsame =>
          rw [not_or, Bool.not_eq_false, not_not] at hsame
          intro v _ _
          exact ⟨d, hmem, hallowed, hresource, hdetail, ⟨_, hidentity, hsame.1⟩, hsame.2 ▸ hpolicy⟩

/-! ## Pages -/

section

variable {seen : List Event → Incident → Prop} {authorizeItem : Incident → Request Json}
  (hmono : ∀ es es' i, es <+: es' → seen es i → seen es' i)
  (hitem : ∀ i es, Program.Meets (fun es' x => ∀ v, x = .ok v → v.truthy = true → seen es' i)
    (authorizeItem i) es)

/-- The items of the page were seen. -/
def Discloses (seen : List Event → Incident → Prop) (es : List Event) (x : Except Failure Page) :
    Prop := ∀ p, x = .ok p → ∀ i ∈ p.items, seen es i

theorem discloses_error (es : List Event) (e : Failure) : Discloses seen es (.error e) :=
  fun p hp => by cases hp

include hmono in
theorem discloses_within {p : Page} {es : List Event} (hle : es <+: es')
    (h : ∀ i ∈ p.items, seen es i) : Discloses seen es' (within p) := by
  intro p' hp' i hi
  exact hmono es es' i hle (h i ((within_ok hp').1 ▸ hi))

include hitem in
theorem meets_kept (i : Incident) (es : List Event) :
    Program.Meets (fun es' x => x = .ok true → seen es' i)
      (do return (← authorizeItem i).truthy) es := by
  refine (hitem i es).bind (fun es₁ v hv htrue => ?_) fun es₁ e _ htrue => by cases htrue
  exact hv v rfl (Except.ok.inj htrue)

include hmono hitem in
theorem meets_pageAt (token : Uuid) (identity : Identity) (policy : String) (es : List Event) :
    Program.Meets (Discloses seen) (pageAt token identity policy authorizeItem) es := by
  refine Program.Meets.after _ (fun es₁ frame _ => ?_) discloses_error
  refine Program.Meets.after _ (fun es₂ items _ => ?_) discloses_error
  refine (Program.meets_filter hmono (meets_kept hitem) items es₂).bind (fun es₃ kept hkept => ?_)
    fun es₃ e _ => discloses_error es₃ e
  have hseen := hkept kept rfl
  show Program.Meets _ (if _ then _ else _) _
  split
  · refine Program.Meets.after _ (fun es₄ cursor hle => ?_) discloses_error
    exact Program.meets_ofExcept (discloses_within hmono hle hseen)
  · exact Program.meets_ofExcept (discloses_within hmono List.prefix_rfl hseen)

include hmono in
/-- What happens to a page after it was filtered leaves its items. -/
theorem meets_cover (token : Uuid) (exact : Bool) (identity : Identity) (policy : String) {p : Page}
    (h : ∀ i ∈ p.items, seen es i) :
    Program.Meets (Discloses seen) (cover token exact identity policy p) es := by
  refine Program.Meets.after _ (fun es₁ row hle₁ => ?_) discloses_error
  refine Program.Meets.after _ (fun es₂ _ hle₂ => ?_) discloses_error
  have hle := hle₁.trans hle₂
  show Program.Meets _ (if _ then _ else _) _
  split
  · exact Program.meets_ofExcept (discloses_within hmono hle h)
  · refine Program.Meets.after _ (fun es₃ complete hle₃ => ?_) discloses_error
    show Program.Meets _ (if _ then _ else _) _
    split
    · refine Program.Meets.after _ (fun es₄ bookmark hle₄ => ?_) discloses_error
      exact Program.meets_ofExcept (discloses_within hmono ((hle.trans hle₃).trans hle₄) h)
    · exact Program.meets_ofExcept (discloses_within hmono (hle.trans hle₃) h)

include hitem in
theorem meets_proven (i : Incident) (es : List Event) :
    Program.Meets (fun es' x => ∀ v, x = .ok v → v.truthy = true → seen es' i)
      (proven authorizeItem i) es := by
  refine (hitem i es).bind (fun es₁ answer hanswer => ?_) fun es₁ e _ v hv => by cases hv
  split
  · next b =>
    intro v hv htruthy
    cases hv
    exact hanswer _ rfl htruthy
  · intro v hv
    cases hv

include hmono hitem in
theorem meets_coveragePage (collection : Collection) (token : Uuid) (exact : Bool)
    (identity : Identity) (policy : String) (es : List Event) :
    Program.Meets (Discloses seen)
      (coveragePage collection token exact identity policy authorizeItem) es := by
  refine Program.Meets.after _ (fun es₁ _ _ => ?_) discloses_error
  refine (meets_pageAt hmono (meets_proven hitem) token identity policy es₁).bind
    (fun es₂ p hp => ?_) fun es₂ e _ => discloses_error es₂ e
  exact meets_cover hmono token exact identity policy (hp p rfl)

include hmono hitem in
theorem meets_start (collection : Collection) (query : Query) (identity : Identity)
    (policy : String) (es : List Event) :
    Program.Meets (Discloses seen) (start collection query identity policy authorizeItem) es := by
  refine Program.Meets.after _ (fun es₁ _ _ => ?_) discloses_error
  refine Program.Meets.after _ (fun es₂ filters _ => ?_) discloses_error
  refine Program.Meets.after _ (fun es₃ token _ => ?_) discloses_error
  refine Program.Meets.after _ (fun es₄ _ _ => ?_) discloses_error
  exact meets_coveragePage hmono hitem collection token true identity policy es₄

include hmono hitem in
theorem meets_coverageText (collection : Collection) (text : String) (identity : Identity)
    (policy : String) (es : List Event) :
    Program.Meets (Discloses seen)
      (coverageText collection text identity policy authorizeItem) es := by
  unfold coverageText
  split
  · exact Program.Meets.after _ (fun es₁ _ _ => discloses_error es₁ _) discloses_error
  · exact meets_coveragePage hmono hitem collection _ _ identity policy es

include hmono hitem in
theorem meets_resume (collection : Collection) (text : String) (identity : Identity)
    (policy : String) (limit : Nat) (es : List Event) :
    Program.Meets (Discloses seen)
      (resume collection text identity policy authorizeItem limit) es := by
  refine Program.Meets.after _ (fun es₁ _ _ => ?_) discloses_error
  refine Program.Meets.after _ (fun es₂ _ _ => ?_) discloses_error
  split
  · exact discloses_error es₂ _
  · next bookmark _ =>
    refine Program.Meets.after _ (fun es₃ row _ => ?_) discloses_error
    refine Program.Meets.after _ (fun es₄ _ _ => ?_) discloses_error
    refine Program.Meets.after _ (fun es₅ token _ => ?_) discloses_error
    refine Program.Meets.after _ (fun es₆ _ _ => ?_) discloses_error
    exact meets_coveragePage hmono hitem collection token true identity policy es₆

end

/-! ## Modes -/

/-- The items of the answer were granted. -/
def Vouched (c : Context) (tenant : String) (identity : Json) (policy : String) (es : List Event)
    (x : Except Failure Reply) : Prop :=
  ∀ reply, x = .ok reply → ∀ i ∈ reply.items, Shown c tenant identity policy es i

theorem vouched_error {identity : Json} (es : List Event) (e : Failure) :
    Vouched c tenant identity policy es (.error e) := fun r hr => by cases hr

theorem shown_mono {identity : Json} : ∀ es es' i, es <+: es' →
    Shown c tenant identity policy es i → Shown c tenant identity policy es' i :=
  fun _ _ _ hle h => h.mono hle

/-- A page becomes an answer with the same items. -/
theorem meets_reply {identity : Json} {p : Request Page}
    (h : Program.Meets (Discloses (Shown c tenant identity policy)) p es) :
    Program.Meets (Vouched c tenant identity policy) (do return .page (← p)) es := by
  refine h.bind (fun es₁ page hpage => ?_) fun es₁ e _ => vouched_error es₁ e
  intro reply hreply i hi
  cases hreply
  exact hpage page rfl i hi

variable (htenant : c.headers.text? "X-OUF-Tenant-ID" = some tenant)

include htenant

theorem meets_list (q : Dict) (es : List Event) :
    Program.Meets (Vouched c tenant identity.json policy) (c.list identity policy q) es := by
  refine Program.Meets.after _ (fun es₁ rows _ => ?_) vouched_error
  refine (Program.meets_filter shown_mono (meets_kept (meets_visible htenant)) _ es₁).bind
    (fun es₂ kept hkept => ?_) fun es₂ e _ => vouched_error es₂ e
  intro reply hreply i hi
  cases hreply
  exact hkept kept rfl i hi

theorem meets_mode (q : Dict) (es : List Event) :
    Program.Meets (Vouched c tenant identity.json policy) (c.mode identity policy q) es := by
  have hitem : ∀ i es', Program.Meets (fun es' x => ∀ v, x = .ok v → v.truthy = true →
      Shown c tenant identity.json policy es' i) (c.visible identity policy i) es' :=
    meets_visible htenant
  unfold Context.mode
  split
  · refine meets_reply ?_
    unfold Context.coverage
    simp only []
    split
    · exact meets_resume shown_mono hitem _ _ _ _ _ _
    · split
      · exact meets_coverageText shown_mono hitem _ _ _ _ _
      · exact meets_start shown_mono hitem _ _ _ _ _
  · split
    · refine meets_reply ?_
      unfold Context.pages
      split
      · split
        · exact discloses_error es _
        · exact meets_pageAt shown_mono hitem _ _ _ _
      · exact Program.Meets.after _ (fun es₁ token _ => meets_pageAt shown_mono hitem _ _ _ _)
          discloses_error
    · exact meets_list htenant q es

omit htenant

/-- The first event of the request is the decision on the collection, and every item of
the answer was granted to the identity, and under the policy, of that decision. -/
def GrantedEach (c : Context) (es : List Event) (reply : Reply) : Prop :=
  ∀ i ∈ reply.items, ∃ tenant d identity policy, c.headers.text? "X-OUF-Tenant-ID" = some tenant ∧
    es.head? = some (.decided c.capability (resourceOf tenant none none) (.value d)) ∧
    d.get? "identity" = some identity ∧ d.get? "policyRef" = some (.str policy) ∧
    Shown c tenant identity policy es i

theorem grantedEach_of_items {reply : Reply} (h : reply.items = []) : GrantedEach c es reply := by
  intro i hi
  rw [h] at hi
  cases hi

theorem meets_answer (q : Dict) :
    Program.Meets (fun es x => ∀ reply, x = .ok reply → GrantedEach c es reply) (c.answer q) [] := by
  refine (meets_decision none none).bind (fun es₁ d hd => ?_) fun es₁ e _ reply hreply => by
    cases hreply
  obtain ⟨tenant, decision, htenant, rfl, hgrant⟩ := hd d.1 d.2 rfl
  obtain ⟨-, -, -, hidentity, hpolicy, -⟩ := grant_ok hgrant
  refine (@meets_mode _ _ d.2 d.1 htenant q _).grow.bind
    (fun es₂ reply hreply => ?_) fun es₂ e _ reply hreply => by cases hreply
  refine Program.meets_ofExcept fun reply' hreply' i hi => ?_
  have heq : reply' = reply := by
    unfold sized at hreply'
    split at hreply'
    · cases hreply'
    · exact (Except.ok.inj hreply').symm
  obtain ⟨rest, hrest⟩ := hreply.1
  refine ⟨tenant, decision, _, _, htenant, ?_, hidentity, hpolicy, hreply.2 reply rfl i (heq ▸ hi)⟩
  rw [← hrest]
  rfl

theorem items_reply (e : Failure) : e.reply.items = [] := by
  cases e <;> rfl

end OufGateway.Owner
