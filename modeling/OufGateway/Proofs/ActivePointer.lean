import Mathlib
import OufGateway.Lib.Trace
import OufGateway.Ref.AdminHttp
import OufGateway.Proofs.PublicationPlane
import OufGateway.Proofs.AdminPort

/-!
# The active pointer and the revision it names

`Sound` says of a server that the pointer, when it is set, names a revision that
is stored with an artifact of that revision. Every request of a publication
keeps it but one: staging writes a revision under its own digest, reads change
nothing, and the pointer is only ever written to a revision that has just been
staged and read back. What is left is the deletion in `rollback`, and it is
harmless unless the pointer names the revision and the read that should have
refused it failed. The read fails into `None`, which is not the revision.
-/

namespace OufGateway.AdminHttp

open Lib Publication ControlPlane

/-! ## Servers -/

/-- What the stored pointer names. -/
def Server.Names (s : Server) (r : String) : Prop :=
  ∃ body, s.metadata .active = some body ∧ revisionOf (.obj [("value", body)]) = .ok (.str r)

/-- The revision is stored with an artifact of that revision. -/
def Server.Holds (s : Server) (r : String) : Prop :=
  ∃ body artifact, s.metadata (.revision r) = some body ∧
    artifactOf (.obj [("value", body)]) = .ok artifact ∧ revisionFor artifact = .ok r

/-- The pointer does not dangle. -/
def Sound (s : Server) : Prop :=
  (s.metadata .active).isSome = true → ∃ r, s.Names r ∧ s.Holds r

section Servers

variable {s : Server} {r : String} {artifact : Json}

/-- The body `put_revision` stores. -/
def revisionBody (r : String) (artifact : Json) : Json :=
  .obj [("value", .obj [("revision", .str r), ("artifact", artifact)])]

/-- The body `activate_revision` stores. -/
def pointerBody (r : String) : Json := .obj [("value", .obj [("revision", .str r)])]

theorem artifactOf_revisionBody :
    artifactOf (.obj [("value", revisionBody r artifact)]) = .ok artifact := by
  simp [artifactOf, node, getOr, revisionBody, Json.isObj, Json.get?, Json.ofLookup, bind,
    Except.bind]

theorem revisionOf_pointerBody :
    revisionOf (.obj [("value", pointerBody r)]) = .ok (.str r) := by
  simp [revisionOf, node, getOr, pointerBody, Json.isObj, Json.get?, Json.ofLookup, bind,
    Except.bind, pure, Except.pure]

theorem get_server (k : Resource) : (Server.get k s).2 = s := by
  unfold Server.get
  split <;> rfl

theorem names_inj {r' : String} (h : s.Names r) (h' : s.Names r') : r = r' := by
  obtain ⟨body, hb, hr⟩ := h
  obtain ⟨body', hb', hr'⟩ := h'
  rw [hb] at hb'
  cases hb'
  rw [hr] at hr'
  cases hr'
  rfl

theorem holds_put : (Server.put (.revision r) (revisionBody r artifact) s).2.Holds r ↔
    revisionFor artifact = .ok r := by
  unfold Server.put Server.Holds
  simp only [Function.update_self, Option.some.injEq]
  constructor
  · rintro ⟨body, a, rfl, ha, hr⟩
    rw [artifactOf_revisionBody] at ha
    cases ha
    exact hr
  · intro hr
    exact ⟨_, artifact, rfl, artifactOf_revisionBody, hr⟩

theorem sound_put (h : Sound s) (hr : revisionFor artifact = .ok r) :
    Sound (Server.put (.revision r) (revisionBody r artifact) s).2 := by
  intro hset
  obtain ⟨r', hnames, hholds⟩ := h (by simpa [Server.put] using hset)
  refine ⟨r', by simpa [Server.Names, Server.put] using hnames, ?_⟩
  by_cases heq : r' = r
  · rw [heq]
    exact holds_put.2 hr
  · simpa [Server.Holds, Server.put, heq] using hholds

theorem sound_activate (h : s.Holds r) :
    Sound (Server.put .active (pointerBody r) s).2 := by
  intro _
  refine ⟨r, ⟨pointerBody r, by simp [Server.put], revisionOf_pointerBody⟩, ?_⟩
  simpa [Server.Holds, Server.put] using h

theorem names_activate : (Server.put .active (pointerBody r) s).2.Names r :=
  ⟨pointerBody r, by simp [Server.put], revisionOf_pointerBody⟩

theorem sound_delete (h : Sound s) (hr : ¬ s.Names r) :
    Sound (Server.delete (.revision r) s).2 := by
  unfold Server.delete
  split
  · intro hset
    obtain ⟨r', hnames, hholds⟩ := h (by simpa using hset)
    have hne : r' ≠ r := fun heq => hr (heq ▸ hnames)
    exact ⟨r', by simpa [Server.Names] using hnames, by simpa [Server.Holds, hne] using hholds⟩
  · exact h

theorem not_sound_delete (h : Sound s) (hr : s.Names r) :
    ¬ Sound (Server.delete (.revision r) s).2 := by
  obtain ⟨body, hb, hrev⟩ := hr
  obtain ⟨r', hnames, body', artifact, hst, -⟩ := h (by rw [hb]; rfl)
  have heq : r' = r := names_inj hnames ⟨body, hb, hrev⟩
  subst heq
  unfold Server.delete
  rw [hst]
  intro hsound
  obtain ⟨r'', hnames', body'', -, hst', -⟩ := hsound (by simp [hb])
  have hnames'' : s.Names r'' := by simpa [Server.Names] using hnames'
  rw [names_inj hnames'' hnames] at hst'
  simp at hst'

end Servers

/-! ## Requests -/

/-- Every server so far is sound. -/
def Steady (h : Client) : Prop := Sound h.server ∧ ∀ s ∈ h.log, Sound s

theorem Steady.again {h : Client} (hs : Steady h) :
    Steady { server := h.server, log := h.server :: h.log } := by
  refine ⟨hs.1, fun s hmem => ?_⟩
  rcases List.mem_cons.1 hmem with rfl | hmem
  · exact hs.1
  · exact hs.2 s hmem

section Requests

variable {f : Fault} {act : Server → Except Exn Json × Server} {h : Client} {r : String}
  {artifact : Json}

theorem request_steady (hs : Steady h) (hact : Sound (act h.server).2) :
    Steady (request f act h).2 := by
  have hserver : Sound (f.attempt act h.server).2 := attempt_keeps hact hs.1
  refine ⟨hserver, fun s hmem => ?_⟩
  rcases List.mem_cons.1 hmem with rfl | hmem
  · exact hserver
  · exact hs.2 s hmem

theorem request_server : (request f act h).2.server =
    if f = .before then h.server else (act h.server).2 := by
  cases f <;> rfl

theorem request_ok {v : Json} : (request f act h).1 = .ok v ↔
    f = .clean ∧ (act h.server).1 = .ok v := by
  show (f.attempt act h.server).1 = .ok v ↔ _
  exact attempt_ok

theorem get_request (k : Resource) : (request f (Server.get k) h).2.server = h.server := by
  rw [request_server, get_server]
  split <;> rfl

theorem get_steady (k : Resource) (hs : Steady h) : Steady (request f (Server.get k) h).2 :=
  request_steady hs (by rw [get_server]; exact hs.1)

theorem readRevision_server : (readRevision f r h).2.server = h.server :=
  andThen_keeps (P := fun q : Client => q.server = h.server) (get_request _) fun _ _ hq => hq

theorem readRevision_steady (hs : Steady h) : Steady (readRevision f r h).2 :=
  andThen_keeps (P := Steady) (get_steady _ hs) fun _ _ hq => hq

theorem readRevision_ok (hst : h.server.metadata (.revision r) = some (revisionBody r artifact))
    {v : Json} : (readRevision f r h).1 = .ok v ↔ f = .clean ∧ v = artifact := by
  unfold readRevision
  rw [andThen_eq_ok]
  simp only [request_ok, Server.get, hst, Except.ok.injEq]
  constructor
  · rintro ⟨value, ⟨hf, rfl⟩, hv⟩
    rw [artifactOf_revisionBody] at hv
    exact ⟨hf, (Except.ok.inj hv).symm⟩
  · rintro ⟨hf, rfl⟩
    exact ⟨_, ⟨hf, rfl⟩, artifactOf_revisionBody⟩

theorem activeRevision_server : (activeRevision f h).2.server = h.server := by
  have hget : (request f (Server.get .active) h).2.server = h.server := get_request _
  unfold activeRevision
  rcases hr : request f (Server.get .active) h with ⟨_ | _, q⟩ <;> rw [hr] at hget <;> exact hget

theorem activeRevision_steady (hs : Steady h) : Steady (activeRevision f h).2 := by
  have hget : Steady (request f (Server.get .active) h).2 := get_steady _ hs
  unfold activeRevision
  rcases hr : request f (Server.get .active) h with ⟨_ | _, q⟩ <;> rw [hr] at hget <;> exact hget

/-- A pointer that is read names what it names; one that is not reads as `None`. -/
theorem activeRevision_names (hn : h.server.Names r) :
    (activeRevision f h).1 = .ok (if f = .clean then .str r else .null) := by
  obtain ⟨body, hb, hr⟩ := hn
  unfold activeRevision request Fault.attempt Server.get
  cases f <;> simp [hb, hr]

theorem activeRevision_other (hs : Sound h.server) (hn : ¬ h.server.Names r) :
    ∃ v, (activeRevision f h).1 = .ok v ∧ v.eqv (.str r) = false := by
  by_cases hset : (h.server.metadata .active).isSome = true
  · obtain ⟨r', hn', -⟩ := hs hset
    refine ⟨_, activeRevision_names hn', ?_⟩
    split
    · have hne : r' ≠ r := fun heq => hn (heq ▸ hn')
      simpa [Json.eqv] using hne
    · rfl
  · rw [Bool.not_eq_true, Option.isSome_eq_false_iff, Option.isNone_iff_eq_none] at hset
    refine ⟨.null, ?_, rfl⟩
    unfold activeRevision request Fault.attempt Server.get
    cases f <;> simp [hset]

end Requests

/-! ## The operations of the control plane -/

section Operations

variable {f : Faults} {h : Client} {r : String} {artifact : Json}

theorem stage_steady (hs : Steady h) : Steady (stage (port f) artifact h).2 :=
  stage_keeps (P := Steady)
    (fun _ _ hr hp => request_steady (f := f.put) hp (sound_put hp.1 hr))
    (fun _ _ hp => readRevision_steady hp) hs

theorem verify_steady (hs : Steady h) : Steady (verify (port f) r artifact h).2 :=
  verify_keeps (P := Steady) (fun _ _ hp => readRevision_steady hp) (fun _ _ hp => hp) hs

theorem verify_server : (verify (port f) r artifact h).2.server = h.server :=
  verify_keeps (P := fun q : Client => q.server = h.server)
    (fun _ _ hp => readRevision_server.trans hp) (fun _ _ hp => hp) rfl

theorem converge_server (polls : List Fault) : (converge r polls h).2.server = h.server := by
  induction polls generalizing h with
  | nil => rfl
  | cons g polls ih =>
      refine andThen_keeps (P := fun q : Client => q.server = h.server) activeRevision_server
        fun _ q hq => ?_
      split
      · exact hq
      · exact ih.trans hq

theorem converge_steady (polls : List Fault) (hs : Steady h) :
    Steady (converge r polls h).2 := by
  induction polls generalizing h with
  | nil => exact hs
  | cons g polls ih =>
      refine andThen_keeps (P := Steady) (activeRevision_steady hs) fun _ q hq => ?_
      split
      · exact hq
      · exact ih hq

/-- The loop ends well when one poll is answered. -/
theorem converge_isOk (hn : h.server.Names r) (polls : List Fault) :
    (converge r polls h).1 = .ok () ↔ .clean ∈ polls := by
  induction polls generalizing h with
  | nil => simp [converge]
  | cons g polls ih =>
      have hserver : (activeRevision g h).2.server = h.server := activeRevision_server
      have hans := activeRevision_names (f := g) hn
      unfold converge
      rcases hr : activeRevision g h with ⟨_ | active, q⟩
      · rw [hr] at hans
        cases hans
      · rw [hr] at hans hserver
        obtain rfl := Except.ok.inj hans
        rw [andThen_ok, List.mem_cons]
        by_cases hg : g = .clean
        · simp [hg, Json.eqv]
        · rw [if_neg hg, if_neg (by simp [Json.eqv, Json.number?]), ih (by rw [hserver]; exact hn)]
          constructor
          · exact Or.inr
          · rintro (heq | hmem)
            · exact absurd heq.symm hg
            · exact hmem

theorem activateRevision_server {g : Fault} {polls : List Fault} :
    (activateRevision g polls r h).2.server =
      if g = .before then h.server else (Server.put .active (pointerBody r) h.server).2 :=
  andThen_keeps
    (P := fun q : Client => q.server =
      if g = .before then h.server else (Server.put .active (pointerBody r) h.server).2)
    request_server fun _ _ hq => (converge_server _).trans hq

theorem activateRevision_ok {g : Fault} {polls : List Fault} :
    (activateRevision g polls r h).1 = .ok () ↔ g = .clean ∧ .clean ∈ polls := by
  have hserver : (request g (Server.put .active (pointerBody r)) h).2.server =
    if g = .before then h.server else (Server.put .active (pointerBody r) h.server).2 :=
      request_server
  unfold activateRevision
  rw [andThen_eq_ok]
  constructor
  · rintro ⟨v, hput, hconv⟩
    obtain ⟨rfl, -⟩ := request_ok.1 hput
    exact ⟨rfl, (converge_isOk (by exact hserver ▸ names_activate) polls).1 hconv⟩
  · rintro ⟨rfl, hmem⟩
    exact ⟨_, request_ok.2 ⟨rfl, rfl⟩, (converge_isOk (by exact hserver ▸ names_activate) polls).2 hmem⟩

theorem activate_server : (activate (port f) r h).2.server =
    if f.activate = .before then h.server else (Server.put .active (pointerBody r) h.server).2 := by
  refine andThen_keeps
    (P := fun q : Client => q.server =
      if f.activate = .before then h.server else (Server.put .active (pointerBody r) h.server).2)
    activateRevision_server fun _ q hq => ?_
  refine andThen_keeps
    (P := fun q : Client => q.server =
      if f.activate = .before then h.server else (Server.put .active (pointerBody r) h.server).2)
    (activeRevision_server.trans hq) fun _ t ht => ?_
  split <;> exact ht

theorem activate_steady (hs : Steady h) (hr : h.server.Holds r) :
    Steady (activate (port f) r h).2 := by
  have hput : Steady (activateRevision f.activate f.polls r h).2 :=
    andThen_keeps (P := Steady) (request_steady hs (sound_activate hr)) fun _ _ hq =>
      converge_steady _ hq
  refine andThen_keeps (P := Steady) hput fun _ q hq => ?_
  refine andThen_keeps (P := Steady) (activeRevision_steady hq) fun _ t ht => ?_
  split <;> exact ht

theorem activate_ok : (activate (port f) r h).1 = .ok () ↔
    f.activate = .clean ∧ .clean ∈ f.polls ∧ f.active = .clean := by
  have hserver : (activateRevision f.activate f.polls r h).2.server =
    if f.activate = .before then h.server else (Server.put .active (pointerBody r) h.server).2 :=
      activateRevision_server
  have hread : f.activate = .clean →
      (activeRevision f.active (activateRevision f.activate f.polls r h).2).1 =
        .ok (if f.active = .clean then .str r else .null) := by
    intro hclean
    rw [hclean] at hserver ⊢
    exact activeRevision_names (by exact hserver ▸ names_activate)
  unfold activate
  rw [andThen_eq_ok]
  constructor
  · rintro ⟨⟨⟩, hact, hrest⟩
    obtain ⟨hclean, hmem⟩ := activateRevision_ok.1 hact
    obtain ⟨active, hans, hrest⟩ := andThen_eq_ok.1 hrest
    rw [show (port f).activeRevision = activeRevision f.active from rfl,
      show (port f).activateRevision r h = activateRevision f.activate f.polls r h from rfl,
      hread hclean] at hans
    refine ⟨hclean, hmem, ?_⟩
    by_contra hactive
    rw [if_neg hactive] at hans
    obtain rfl := Except.ok.inj hans
    cases hrest
  · rintro ⟨hclean, hmem, hactive⟩
    refine ⟨(), activateRevision_ok.2 ⟨hclean, hmem⟩, andThen_eq_ok.2 ⟨.str r, ?_, ?_⟩⟩
    · exact (hread hclean).trans (by rw [if_pos hactive])
    · simp [Json.eqv]

/-- `rollback` is harmless unless the pointer names the revision, its read
fails, and the deletion is carried out. -/
theorem rollback_steady_iff (hs : Steady h) :
    Steady (rollback (port f) r h).2 ↔
      (h.server.Names r → f.active = .clean ∨ f.delete = .before) := by
  have hread : Steady (activeRevision f.active h).2 := activeRevision_steady hs
  have hserver : (activeRevision f.active h).2.server = h.server := activeRevision_server
  unfold rollback
  rw [show (port f).activeRevision h = activeRevision f.active h from rfl]
  by_cases hn : h.server.Names r
  · have hans := activeRevision_names (f := f.active) hn
    rcases hq : activeRevision f.active h with ⟨_ | active, q⟩
    · rw [hq] at hans
      cases hans
    · rw [hq] at hans hread hserver
      obtain rfl := Except.ok.inj hans
      rw [andThen_ok]
      by_cases hactive : f.active = .clean
      · rw [if_pos hactive, if_pos (by simp [Json.eqv])]
        exact ⟨fun _ _ => Or.inl hactive, fun _ => hread⟩
      · rw [if_neg hactive, if_neg (by simp [Json.eqv, Json.number?])]
        have hdel : ((port f).deleteRevision r q).2.server =
          if f.delete = .before then q.server else (Server.delete (.revision r) q.server).2 :=
            request_server
        constructor
        · intro hsteady _
          right
          by_contra hdelete
          have hsound := hsteady.1
          rw [hdel, if_neg hdelete, hserver] at hsound
          exact not_sound_delete hs.1 hn hsound
        · intro hcond
          rcases hcond hn with hc | hdelete
          · exact absurd hc hactive
          · have hsound : Sound ((port f).deleteRevision r q).2.server := by
              rw [hdel, if_pos hdelete]
              exact hread.1
            refine ⟨hsound, fun s hmem => ?_⟩
            rcases List.mem_cons.1 hmem with rfl | hmem
            · exact hsound
            · exact hread.2 s hmem
  · refine ⟨fun _ hn' => absurd hn' hn, fun _ => ?_⟩
    obtain ⟨v, hv, hne⟩ := activeRevision_other (f := f.active) hs.1 hn
    rcases hq : activeRevision f.active h with ⟨_ | active, q⟩
    · rw [hq] at hv
      cases hv
    · rw [hq] at hv hread hserver
      obtain rfl := Except.ok.inj hv
      rw [andThen_ok, if_neg (by rw [hne]; simp)]
      exact request_steady hread (sound_delete hread.1 (by rw [hserver]; exact hn))

end Operations

/-! ## One call -/

/-- The control plane of a call, with the faults of its requests. -/
abbrev apisixHttp (plan : Plan Faults) : Plane Client := plane port plan

/-- What lets the revision be staged. -/
def Staged (plan : Plan Faults) (artifact : Json) : Prop :=
  plan.healthy.health = .clean ∧ artifact.serializable = true ∧ plan.stage.put = .clean ∧
    plan.stage.read = .clean ∧ artifact.eqv artifact = true

/-- What lets the verification pass. -/
def Verified (plan : Plan Faults) : Prop :=
  plan.verify.read = .clean ∧ ∃ checks, plan.verify.probe = .ok checks ∧ checks.isObj = true ∧
    allTrue checks = true

/-- What lets the activation return. -/
def Activates (plan : Plan Faults) : Prop :=
  plan.activate.activate = .clean ∧ .clean ∈ plan.activate.polls ∧ plan.activate.active = .clean

/-- `rollback` is called while the pointer names its revision: the artifact was
the active one before, or the activation took effect and did not return. -/
def RollsBackActive (plan : Plan Faults) (artifact : Json) (r : String) (s : Server) : Prop :=
  Staged plan artifact ∧
    (¬ Verified plan ∧ s.Names r ∨
      Verified plan ∧ ¬ Activates plan ∧ (s.Names r ∨ plan.activate.activate ≠ .before))

section Call

variable {plan : Plan Faults} {artifact : Json} {h : Client} {r : String}

theorem names_congr {s s' : Server} (heq : s.metadata .active = s'.metadata .active) :
    s.Names r ↔ s'.Names r := by
  unfold Server.Names
  rw [heq]

theorem healthy_eq {f : Faults} : healthy (port f) h =
    (.ok (.bool (decide (f.health = .clean))),
      { server := h.server, log := h.server :: h.log }) := by
  unfold healthy port health request Fault.attempt
  cases f.health <;> rfl

theorem stage_pointer {f : Faults} :
    (stage (port f) artifact h).2.server.metadata .active = h.server.metadata .active := by
  refine stage_keeps (P := fun q : Client => q.server.metadata .active = h.server.metadata .active)
    (fun r q _ hq => ?_) (fun r q hq => ?_) rfl
  · show (request _ _ q).2.server.metadata .active = _
    rw [request_server]
    split
    · exact hq
    · exact hq
  · show (readRevision f.read r q).2.server.metadata .active = _
    rw [readRevision_server]
    exact hq

/-- A staged revision is stored as it was sent. -/
theorem stage_stored {f : Faults} (hr : revisionFor artifact = .ok r) (hput : f.put = .clean)
    (hread : f.read = .clean) (heqv : artifact.eqv artifact = true) :
    (stage (port f) artifact h).1 = .ok (.str r) ∧
      (stage (port f) artifact h).2.server.metadata (.revision r) =
        some (revisionBody r artifact) := by
  have hsent : (putRevision f.put r artifact h).1 = .ok () := by
    unfold putRevision request
    rw [hput]
    rfl
  have hst : (putRevision f.put r artifact h).2.server.metadata (.revision r) =
      some (revisionBody r artifact) := by
    show (request _ _ h).2.server.metadata _ = _
    rw [request_server, hput]
    simp [Server.put, revisionBody]
  have hback : (readRevision f.read r (putRevision f.put r artifact h).2).1 = .ok artifact :=
    (readRevision_ok hst).2 ⟨hread, rfl⟩
  rw [stage_eq (port f) hr hsent hback heqv]
  refine ⟨rfl, ?_⟩
  show (readRevision f.read r (putRevision f.put r artifact h).2).2.server.metadata _ = _
  rw [readRevision_server]
  exact hst

theorem staged_of_ok {f : Faults} {v : Json} (h' : (stage (port f) artifact h).1 = .ok v) :
    artifact.serializable = true ∧ f.put = .clean ∧ f.read = .clean ∧
      artifact.eqv artifact = true := by
  obtain ⟨r, hr, hput, found, hread, heqv⟩ := stage_returns h'
  have hser : artifact.serializable = true := by
    by_contra hser
    rw [revisionFor, if_neg hser] at hr
    cases hr
  have hclean : f.put = .clean := by
    change ((request f.put _ h).1.map fun _ => ()) = .ok () at hput
    rcases hf : f.put
    · rfl
    · rw [hf] at hput
      cases hput
    · rw [hf] at hput
      cases hput
  have hst : (putRevision f.put r artifact h).2.server.metadata (.revision r) =
      some (revisionBody r artifact) := by
    show (request _ _ h).2.server.metadata _ = _
    rw [request_server, hclean]
    simp [Server.put, revisionBody]
  obtain ⟨hget, rfl⟩ := (readRevision_ok hst).1 hread
  exact ⟨hser, hclean, hget, heqv⟩

/-- From `verify` on. -/
theorem verifyAfter_steady_iff (hs : Steady h) (hr : revisionFor artifact = .ok r)
    (heqv : artifact.eqv artifact = true)
    (hst : h.server.metadata (.revision r) = some (revisionBody r artifact)) :
    Steady (verifyAfter (apisixHttp plan) (.str r) artifact h) ↔
      (¬ Verified plan ∧ h.server.Names r ∨
          Verified plan ∧ ¬ Activates plan ∧
            (h.server.Names r ∨ plan.activate.activate ≠ .before) →
        plan.rollback.active = .clean ∨ plan.rollback.delete = .before) := by
  have hver : Steady (verify (port plan.verify) r artifact h).2 := verify_steady hs
  have hserver : (verify (port plan.verify) r artifact h).2.server = h.server := verify_server
  unfold verifyAfter
  simp only [show (apisixHttp plan).verify (.str r) artifact =
      verify (port plan.verify) r artifact from rfl,
    show (apisixHttp plan).activate (.str r) = activate (port plan.activate) r from rfl,
    show (apisixHttp plan).rollback (.str r) = rollback (port plan.rollback) r from rfl]
  by_cases hv : Verified plan
  · obtain ⟨hread, checks, hprobe, hobj, hall⟩ := hv
    obtain ⟨v, hok, -, -, hpass⟩ := verify_ok (port plan.verify) (p := h) hr heqv
      ((readRevision_ok hst).2 ⟨hread, rfl⟩) hprobe hobj hall
    have hholds : (verify (port plan.verify) r artifact h).2.server.Holds r := by
      rw [hserver]
      exact ⟨_, artifact, hst, artifactOf_revisionBody, hr⟩
    have hact := activate_steady (f := plan.activate) hver hholds
    have hptr := activate_server (f := plan.activate) (r := r)
      (h := (verify (port plan.verify) r artifact h).2)
    have hisok := activate_ok (f := plan.activate) (r := r)
      (h := (verify (port plan.verify) r artifact h).2)
    rw [hok]
    simp only [orElse, hpass]
    rcases ha : activate (port plan.activate) r (verify (port plan.verify) r artifact h).2 with
      ⟨e | ⟨⟩, q⟩
    · rw [ha] at hact hptr hisok
      have hnot : ¬ Activates plan := fun hyes => by cases hisok.2 hyes
      have hnames : q.server.Names r ↔ h.server.Names r ∨ plan.activate.activate ≠ .before := by
        change q.server = _ at hptr
        rw [hptr, hserver]
        split
        · next hlost => simp [hlost]
        · next hsent => exact ⟨fun _ => Or.inr hsent, fun _ => names_activate⟩
      refine (rollback_steady_iff hact).trans ?_
      rw [hnames]
      constructor
      · rintro hcond (⟨hno, -⟩ | ⟨-, -, hn⟩)
        · exact absurd ⟨hread, checks, hprobe, hobj, hall⟩ hno
        · exact hcond hn
      · exact fun hcond hn => hcond (Or.inr ⟨⟨hread, checks, hprobe, hobj, hall⟩, hnot, hn⟩)
    · rw [ha] at hact hisok
      refine ⟨fun _ hroll => ?_, fun _ => hact⟩
      rcases hroll with ⟨hno, -⟩ | ⟨-, hnot, -⟩
      · exact absurd ⟨hread, checks, hprobe, hobj, hall⟩ hno
      · exact absurd (hisok.1 rfl) hnot
  · have hpass := verify_not_ok (port plan.verify) (p := h) hr heqv fun v hread => by
      obtain ⟨hclean, rfl⟩ := (readRevision_ok hst).1 hread
      exact ⟨rfl, fun checks hprobe hobj hall => hv ⟨hclean, checks, hprobe, hobj, hall⟩⟩
    rw [hpass]
    refine (rollback_steady_iff hver).trans ?_
    rw [hserver]
    constructor
    · rintro hcond (⟨-, hn⟩ | ⟨hyes, -⟩)
      · exact hcond hn
      · exact absurd hyes hv
    · exact fun hcond hn => hcond (Or.inl ⟨hv, hn⟩)

/-- The call keeps every server sound, from a sound one, unless it rolls the
active revision back with a read that fails and a deletion that does not. -/
theorem planeAfter_steady_iff (hs : Steady h) (hr : revisionFor artifact = .ok r) :
    Steady (planeAfter (apisixHttp plan) artifact h) ↔
      (RollsBackActive plan artifact r h.server →
        plan.rollback.active = .clean ∨ plan.rollback.delete = .before) := by
  have hh := hs.again
  unfold planeAfter
  rw [show (apisixHttp plan).healthy h = healthy (port plan.healthy) h from rfl, healthy_eq]
  simp only [orElse, Json.truthy, decide_eq_true_eq]
  by_cases hhealth : plan.healthy.health = .clean
  · rw [if_pos hhealth]
    generalize hg : ({ server := h.server, log := h.server :: h.log } : Client) = g at hh ⊢
    have hserver : g.server = h.server := by rw [← hg]
    have hstage : Steady (stage (port plan.stage) artifact g).2 := stage_steady hh
    have hptr : (stage (port plan.stage) artifact g).2.server.metadata .active =
      h.server.metadata .active := stage_pointer.trans (by rw [hserver])
    rw [show (apisixHttp plan).stage artifact g = stage (port plan.stage) artifact g from rfl]
    by_cases hst : artifact.serializable = true ∧ plan.stage.put = .clean ∧
      plan.stage.read = .clean ∧ artifact.eqv artifact = true
    · obtain ⟨hok, hstored⟩ := stage_stored (h := g) hr hst.2.1 hst.2.2.1 hst.2.2.2
      rcases hq : stage (port plan.stage) artifact g with ⟨_ | v, q⟩
      · rw [hq] at hok
        cases hok
      · rw [hq] at hok hstored hstage hptr
        obtain rfl := Except.ok.inj hok
        refine (verifyAfter_steady_iff hstage hr hst.2.2.2 hstored).trans ?_
        unfold RollsBackActive Staged
        rw [names_congr hptr]
        simp only [hhealth, hst, true_and, and_self]
    · have hfails : ∀ v, (stage (port plan.stage) artifact g).1 ≠ .ok v :=
        fun v hv => hst (staged_of_ok hv)
      rcases hq : stage (port plan.stage) artifact g with ⟨_ | v, q⟩
      · rw [hq] at hstage
        exact ⟨fun _ hroll => absurd hroll.1.2 hst, fun _ => hstage⟩
      · rw [hq] at hfails
        exact absurd rfl (hfails v)
  · rw [if_neg hhealth]
    exact ⟨fun _ hroll => absurd hroll.1.1 hhealth, fun _ => hh⟩

/-- An artifact without a revision is never staged. -/
theorem planeAfter_steady {e : Exn} (hs : Steady h) (hr : revisionFor artifact = .error e) :
    Steady (planeAfter (apisixHttp plan) artifact h) := by
  have hh := hs.again
  unfold planeAfter
  rw [show (apisixHttp plan).healthy h = healthy (port plan.healthy) h from rfl, healthy_eq]
  simp only [orElse, Json.truthy, decide_eq_true_eq]
  split
  · rw [show (apisixHttp plan).stage = stage (port plan.stage) from rfl, stage, hr]
    exact hh
  · exact hh

end Call

/-! ## Runs -/

/-- The condition on one call. -/
def Guarded (c : Call) (plan : Plan Faults) (s : State Client) : Prop :=
  ∀ m artifact r, prepare c s.store = .ok (m, artifact) → revisionFor artifact = .ok r →
    RollsBackActive plan artifact r s.plane.server →
    plan.rollback.active = .clean ∨ plan.rollback.delete = .before

theorem publish_steady_iff {c : Call} {plan : Plan Faults} {s : State Client}
    (hs : Steady s.plane) :
    Steady (publish (apisixHttp plan) c s).2.plane ↔ Guarded c plan s := by
  unfold publish Guarded
  rcases hp : prepare c s.store with e | ⟨m, artifact⟩
  · refine ⟨fun _ m artifact r hok => ?_, fun _ => hs⟩
    cases hok
  · simp only [apply_plane]
    rcases hr : revisionFor artifact with e | r
    · refine ⟨fun _ m₁ artifact₁ r hok hr₁ => ?_, fun _ => planeAfter_steady hs hr⟩
      cases hok
      rw [hr] at hr₁
      cases hr₁
    · refine (planeAfter_steady_iff hs hr).trans ⟨fun hcond m₁ artifact₁ r₁ hok hr₁ => ?_,
        fun hcond => hcond m artifact r rfl hr⟩
      cases hok
      rw [hr] at hr₁
      cases hr₁
      exact hcond

/-- Calls of `publish` one after another, each with the faults of its requests. -/
def publisher : Machine (State Client) (Call × Plan Faults) Empty where
  step s i := (publish (apisixHttp i.2) i.1 s).2
  emit _ _ := []

/-- From servers that are sound, a call leaves only sound servers behind exactly
when it is guarded; and in a run whose calls are all guarded, the server is sound
after every request of every call. -/
theorem pointer_never_dangles_iff (c : Call) (plan : Plan Faults) (s : State Client) :
    (Steady s.plane →
      (Steady (publish (apisixHttp plan) c s).2.plane ↔ Guarded c plan s)) ∧
    ∀ (s₀ : State Client) (calls : List (Call × Plan Faults)), Steady s₀.plane →
      (∀ pre i post, calls = pre ++ i :: post → Guarded i.1 i.2 (publisher.run s₀ pre)) →
      Steady (publisher.run s₀ calls).plane := by
  refine ⟨fun hs => publish_steady_iff hs, fun s₀ calls hs hok => ?_⟩
  exact publisher.invariant_of (P := fun s _ => Steady s.plane)
    (g := fun s i => Guarded i.1 i.2 s) hs
    (fun s _ i hg hsteady => (publish_steady_iff hsteady).2 hg) calls hok

/-- The probes do not pass, and the read of the pointer in `rollback` fails. -/
def blind : Plan Faults where
  healthy := {}
  stage := {}
  verify := {}
  activate := {}
  rollback := { active := .before }

/-- The artifact of `plainCall` is the active one. -/
def activeState : State Client where
  plane :=
    { server :=
        { metadata := fun k =>
            let artifact : Json := .obj [("configurationSha256", .str zeroHash)]
            let r := "sha256:" ++ Sha256.ofText (artifact.dumps compact)
            match k with
            | .active => some (pointerBody r)
            | .revision r' => if r' = r then some (revisionBody r artifact) else none }
      log := [] }
  store := Store.empty
  incidents := none

theorem republication_deletes_active :
    Steady activeState.plane ∧ ¬ Steady (publish (apisixHttp blind) plainCall activeState).2.plane := by
  have hr : revisionFor (.obj [("configurationSha256", .str zeroHash)]) = .ok ("sha256:" ++
      Sha256.ofText ((Json.obj [("configurationSha256", .str zeroHash)]).dumps compact)) := if_pos rfl
  have hnames : activeState.plane.server.Names ("sha256:" ++
      Sha256.ofText ((Json.obj [("configurationSha256", .str zeroHash)]).dumps compact)) :=
    ⟨_, rfl, revisionOf_pointerBody⟩
  have hsteady : Steady activeState.plane := by
    refine ⟨fun _ => ⟨_, hnames, _, _, if_pos rfl, artifactOf_revisionBody, hr⟩, ?_⟩
    intro s hmem
    cases hmem
  refine ⟨hsteady, fun hafter => ?_⟩
  have hok : (prepare plainCall activeState.store).isOk = true := by decide +kernel
  rcases hp : prepare plainCall activeState.store with e | ⟨m, artifact⟩
  · rw [hp] at hok
    cases hok
  obtain ⟨compiled, hc, rfl, -⟩ := prepare_compiled hp
  cases hc
  have hunverified : ¬ Verified blind := by
    rintro ⟨-, checks, hprobe, -, hall⟩
    cases hprobe
    revert hall
    decide +kernel
  have hroll : RollsBackActive blind (.obj [("configurationSha256", .str zeroHash)]) _
      activeState.plane.server :=
    ⟨⟨rfl, rfl, rfl, rfl, by decide +kernel⟩, Or.inl ⟨hunverified, hnames⟩⟩
  rcases (publish_steady_iff hsteady).1 hafter m _ _ hp hr hroll with hclean | hbefore
  · cases hclean
  · cases hbefore

end OufGateway.AdminHttp
