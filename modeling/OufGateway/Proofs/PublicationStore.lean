import Mathlib
import OufGateway.Proofs.Compiler
import OufGateway.Proofs.PublicationPlane
import OufGateway.Ref.ActivationGate

/-!
# The publication store after any crash

A `record` writes up to three files, and what it leaves when it stops is one of
four stores (`record_cases`). A call of `publish` records at most once, a
manifest that has the identity, the hash and the predecessor `prepare` gave it
(`publish_records`). So the invariant of the store is about those four stores:
the artifact is there before the manifest that names it, and the manifest before
`active.json`.

The files of a store are lists that only grow, and a name that is written is
never one that is there: that the names are distinct says that no file has been
overwritten. The chain of predecessors is finite because the predecessor of a
manifest was in `active.json` when the manifest was recorded, and so among the
manifests before it.

An artifact is found again by its hash, which is of its canonical text. Two
artifacts recorded under one hash therefore have one text, or their texts are a
collision of SHA-256.
-/

namespace OufGateway.Publication

open Lib

variable {π : Type} {plane : Plane π} {c : Call} {m : Manifest} {artifact revision : Json}
  {exit : Exit} {s : State π}

/-! ## One record -/

/-- The store with the artifact in it. -/
def Store.ensure (st : Store) (hash : String) (artifact : Json) : Store :=
  if (st.findArtifact hash).isSome then st else st.writeArtifact hash artifact

/-- What a record leaves, wherever it stops. -/
inductive Left (st : Store) (m : Manifest) (artifact : Json) (activate : Bool) : Store → Prop
  | nothing : Left st m artifact activate st
  | artifact : Left st m artifact activate (st.ensure m.artifactSetHash artifact)
  | manifest : Left st m artifact activate
      ((st.ensure m.artifactSetHash artifact).writeManifest m)
  | active (h : activate = true) : Left st m artifact activate
      (((st.ensure m.artifactSetHash artifact).writeManifest m).writeActive m)

/-- A list of writes leaves what one of its first parts makes. -/
theorem perform_take {stop : Option Nat} {ws : List (Option (Store → Store))} {st : Store} :
    ∃ k, (∀ w ∈ ws.take k, w ≠ none) ∧
      (Store.perform stop ws st).2 = (ws.take k).foldl (fun st w => w.elim st (· st)) st ∧
      ((Store.perform stop ws st).1 = .ok () → k = ws.length) := by
  induction ws generalizing stop st with
  | nil =>
      refine ⟨0, fun w hw => absurd hw List.not_mem_nil, ?_, fun _ => rfl⟩
      cases stop <;> rfl
  | cons w ws ih =>
      cases w with
      | none =>
          refine ⟨0, fun w hw => absurd hw List.not_mem_nil, ?_, fun h => ?_⟩
          · rcases stop with _ | _ | k <;> rfl
          · rcases stop with _ | _ | k <;> cases h
      | some f =>
          rcases stop with _ | _ | n
          · obtain ⟨k, hk, hleft, hok⟩ := @ih none (f st)
            refine ⟨k + 1, fun w hw => ?_, hleft, fun h => by rw [List.length_cons, hok h]⟩
            rcases List.mem_cons.mp hw with rfl | hw
            · exact Option.some_ne_none f
            · exact hk w hw
          · exact ⟨0, fun w hw => absurd hw List.not_mem_nil, rfl, fun h => by cases h⟩
          · obtain ⟨k, hk, hleft, hok⟩ := @ih (some n) (f st)
            refine ⟨k + 1, fun w hw => ?_, hleft, fun h => by rw [List.length_cons, hok h]⟩
            rcases List.mem_cons.mp hw with rfl | hw
            · exact Option.some_ne_none f
            · exact hk w hw

theorem perform_writes {st : Store} {activate : Bool} {stop : Option Nat} :
    Left st m artifact activate (Store.perform stop (st.writes m artifact activate) st).2 ∧
      ((Store.perform stop (st.writes m artifact activate) st).1 = .ok () →
        (Store.perform stop (st.writes m artifact activate) st).2 =
          if activate then ((st.ensure m.artifactSetHash artifact).writeManifest m).writeActive m
          else (st.ensure m.artifactSetHash artifact).writeManifest m) := by
  obtain ⟨k, hk, hleft, hok⟩ := @perform_take stop (st.writes m artifact activate) st
  rw [hleft]
  have h0 := @Left.nothing st m artifact activate
  have h1 := @Left.artifact st m artifact activate
  have h2 := @Left.manifest st m artifact activate
  have h3 := @Left.active st m artifact activate
  unfold Store.ensure at h1 h2 h3 ⊢
  unfold Store.writes at hk hok ⊢
  -- Up to three writes, by whether the artifact is there, the manifest can be written, and
  -- the flag; a write that raises is in no part of them that was made.
  by_cases ha : (st.findArtifact m.artifactSetHash).isSome = true <;>
    by_cases hser : m.verification.serializable = true <;> cases activate
  all_goals
    simp only [ha, hser, if_true, if_false, List.nil_append, List.cons_append, List.append_nil,
      Bool.false_eq_true] at hk hok h0 h1 h2 h3 ⊢
    rcases k with _ | _ | _ | k <;> simp_all

theorem record_left {st : Store} {activate : Bool} {stop : Option Nat} :
    (st.record m artifact activate stop).2 = st ∨
      st.contains m.publicationId = false ∧ st.collides m.artifactSetHash artifact = false ∧
        Left st m artifact activate (st.record m artifact activate stop).2 := by
  unfold Store.record
  split
  · exact Or.inl rfl
  · next hc =>
    split
    · exact Or.inl rfl
    · next hcol =>
      exact Or.inr ⟨Bool.eq_false_of_not_eq_true hc, Bool.eq_false_of_not_eq_true hcol,
        perform_writes.1⟩

theorem record_ok {st st' : Store} {activate : Bool} {stop : Option Nat}
    (h : st.record m artifact activate stop = (.ok (), st')) :
    st.collides m.artifactSetHash artifact = false ∧
      st' = if activate then ((st.ensure m.artifactSetHash artifact).writeManifest m).writeActive m
        else (st.ensure m.artifactSetHash artifact).writeManifest m := by
  unfold Store.record at h
  split at h
  · cases h
  · split at h
    · cases h
    · next hcol =>
      refine ⟨Bool.eq_false_of_not_eq_true hcol, ?_⟩
      rw [← perform_writes.2 (congrArg Prod.fst h), h]

/-! ## One call -/

/-- What a call that was prepared with `m` makes of the store: it records a manifest
with the identity, the hash and the predecessor of `m`, or nothing; and what it
returns has been recorded. -/
def Records (c : Call) (m : Manifest) (artifact : Json) (st : Store)
    (r : Except Exn Manifest × State π) : Prop :=
  ∃ m' activate, m'.publicationId = m.publicationId ∧ m'.artifactSetHash = m.artifactSetHash ∧
    m'.previousActivePublicationId = m.previousActivePublicationId ∧
    (activate = true ↔ m'.status = .active) ∧
    (r.2.store = st ∨ r.2.store = (st.record m' artifact activate c.stop).2) ∧
    ∀ v, r.1 = .ok v → v = m' ∧ st.record m' artifact activate c.stop = (.ok (), r.2.store)

theorem recordManifest_store {activate : Bool} :
    ((recordManifest c m artifact activate s).2.store = s.store ∨
        (recordManifest c m artifact activate s).2.store =
          (s.store.record m artifact activate c.stop).2) ∧
      ((recordManifest c m artifact activate s).1 = .ok () →
        s.store.record m artifact activate c.stop =
          (.ok (), (recordManifest c m artifact activate s).2.store)) := by
  unfold recordManifest
  split
  · exact ⟨Or.inl rfl, fun h => by cases h⟩
  · exact ⟨Or.inr rfl, fun h => Prod.ext h rfl⟩

theorem conclude_records (hactive : m.status ≠ .active) :
    Records c m artifact s.store (conclude c m artifact exit s) := by
  have hrecord := @recordManifest_store π c m artifact s false
  refine ⟨m, false, rfl, rfl, rfl, ?_, ?_, ?_⟩
  · exact ⟨fun h => (by cases h), fun h => absurd h hactive⟩
  all_goals
    revert hrecord
    unfold conclude
    rcases recordManifest c m artifact false s with ⟨_ | _, s'⟩ <;> intro hrecord
  · exact hrecord.1
  · exact hrecord.1
  · intro v hv
    cases hv
  · intro v hv
    refine ⟨?_, hrecord.2 rfl⟩
    change (openBlocked c exit s'.incidents).1.map (fun _ => m) = .ok v at hv
    rcases h : (openBlocked c exit s'.incidents).1 with _ | _
    · rw [h] at hv
      cases hv
    · rw [h] at hv
      exact (Except.ok.inj hv).symm

theorem rollBack_records :
    Records c m artifact s.store (rollBack plane c revision m artifact exit s) := by
  unfold rollBack
  rcases plane.rollback revision s.plane with ⟨_ | _, p⟩
  · exact ⟨{ m with status := .rolledBack }, false, rfl, rfl, rfl,
      ⟨fun h => (by cases h), fun h => (by cases h)⟩, Or.inl rfl, fun v hv => (by cases hv)⟩
  · exact conclude_records (s := { s with plane := p }) (m := { m with status := .rolledBack })
      (fun h => by cases h)

theorem complete_records : Records c m artifact s.store (complete c m artifact s) := by
  have hrecord := @recordManifest_store π c (m.activated c) artifact s true
  refine ⟨m.activated c, true, rfl, rfl, rfl, ⟨fun _ => rfl, fun _ => rfl⟩, ?_, ?_⟩
  all_goals
    revert hrecord
    unfold complete
    rcases recordManifest c (m.activated c) artifact true s with ⟨_ | _, s'⟩ <;> intro hrecord
  · exact hrecord.1
  · exact hrecord.1
  · intro v hv
    cases hv
  · intro v hv
    exact ⟨(Except.ok.inj hv).symm, hrecord.2 rfl⟩

theorem activateStaged_records :
    Records c m artifact s.store (activateStaged plane c revision m artifact s) := by
  unfold activateStaged
  rcases plane.activate revision s.plane with ⟨_ | _, p⟩
  · exact rollBack_records (s := { s with plane := p })
      (m := { m with verification := m.verification.setItem "activation" (.bool false) })
  · exact complete_records (s := { s with plane := p })

theorem verifyStaged_records :
    Records c m artifact s.store (verifyStaged plane c revision m artifact s) := by
  unfold verifyStaged
  simp only []
  split
  · exact ⟨{ m with status := .rolledBack }, false, rfl, rfl, rfl,
      ⟨fun h => (by cases h), fun h => (by cases h)⟩, Or.inl rfl, fun v hv => (by cases hv)⟩
  · exact rollBack_records (s := { s with plane := _ })
      (m := { m with controlPlaneRevision := revision, verification := _ })
  · exact activateStaged_records (s := { s with plane := _ })
      (m := { m with controlPlaneRevision := revision, verification := _ })

theorem apply_records : Records c m artifact s.store (apply plane c m artifact s) := by
  unfold apply
  simp only []
  split
  · rcases plane.stage artifact (plane.healthy s.plane).2 with ⟨_ | revision, p⟩
    · exact conclude_records (s := { s with plane := p })
        (m := { m with status := .failed, verification := _ }) (fun h => by cases h)
    · exact verifyStaged_records (s := { s with plane := p })
  · exact conclude_records (s := { s with plane := _ })
      (m := { m with status := .failed, verification := _ }) (fun h => by cases h)

theorem publish_records (plane : Plane π) (c : Call) (s : State π) :
    (∃ e, prepare c s.store = .error e ∧ publish plane c s = (.error e, s)) ∨
      ∃ m artifact, prepare c s.store = .ok (m, artifact) ∧
        Records c m artifact s.store (publish plane c s) := by
  unfold publish
  rcases h : prepare c s.store with e | ⟨m, artifact⟩
  · exact Or.inl ⟨e, rfl, rfl⟩
  · exact Or.inr ⟨m, artifact, rfl, apply_records⟩

theorem prepare_previous {st : Store} (h : prepare c st = .ok (m, artifact)) :
    m.previousActivePublicationId = st.activeManifest.map (·.publicationId) := by
  unfold prepare at h
  split at h
  · cases h
  · split at h
    · cases h
    · simp only [] at h
      split at h
      · cases h
      · split at h
        · cases h
        · split at h
          · cases h
          · injection h with h
            injection h with hm _
            rw [← hm]

/-! ## What an artifact is found by -/

section Text

open CompileConfig

/-- The artifact without its own hash. -/
def unsealed : Json → Json
  | .obj members => .obj (members.filter (·.1 ≠ "configurationSha256"))
  | v => v

/-- The text the hash of an artifact is of. -/
def digestText (artifact : Json) : String := canonical (unsealed artifact)

/-- The stored artifact has the text of the other, the layout apart, or the two are a
collision of SHA-256. -/
def HoldsText (stored artifact : Json) : Prop :=
  canonical stored = canonical artifact ∨
    digestText stored ≠ digestText artifact ∧
      Sha256.ofText (digestText stored) = Sha256.ofText (digestText artifact)

/-- The artifact is a compiled one, under its hash. -/
def Genuine (hash : String) (artifact : Json) : Prop :=
  ∃ routes, artifact = (sealed routes).toJson ∧ hash = (sealed routes).configurationSha256

theorem unsealed_toJson (routes : List CompiledRoute) :
    unsealed (sealed routes).toJson = .obj (outputJson routes) := rfl

theorem Genuine.hash {hash : String} (h : Genuine hash artifact) :
    hash = Sha256.ofText (digestText artifact) := by
  obtain ⟨routes, rfl, rfl⟩ := h
  rw [digestText, unsealed_toJson]
  rfl

theorem sort_output (v a r : String) :
    [("formatVersion", v), ("apisixVersion", a), ("routes", r)].mergeSort
        (fun x y => decide (x.1 ≤ y.1)) =
      [("apisixVersion", a), ("formatVersion", v), ("routes", r)] := by
  simp [List.mergeSort, List.MergeSort.Internal.splitInTwo]

theorem sort_artifact (v a r h : String) :
    [("formatVersion", v), ("apisixVersion", a), ("routes", r),
        ("configurationSha256", h)].mergeSort (fun x y => decide (x.1 ≤ y.1)) =
      [("apisixVersion", a), ("configurationSha256", h), ("formatVersion", v), ("routes", r)] := by
  simp [List.mergeSort, List.MergeSort.Internal.splitInTwo]

/-- The routes are the last member of the output in the order of its keys. -/
theorem canonical_output : ∃ head, ∀ routes, canonical (.obj (outputJson routes)) =
    head ++ canonical (.arr (routes.map (·.toJson))) ++ "\x7d" := by
  refine ⟨?_, fun routes => ?_⟩
  rotate_left
  · unfold canonical outputJson
    generalize Json.arr (List.map (fun x => x.toJson) routes) = x
    rw [Json.dumps]
    simp only [Json.dumpsMembers, Json.arrange, canonicalFormat, if_true]
    rw [sort_output]
    simp only [List.map_cons, List.map_nil, String.intercalate_cons_cons, String.intercalate_singleton,
      Json.render, ← String.append_assoc]
    rfl

theorem canonical_artifact (hash : String) :
    ∃ head, ∀ routes, canonical (Artifact.toJson ⟨routes, hash⟩) =
      head ++ canonical (.arr (routes.map (·.toJson))) ++ "\x7d" := by
  refine ⟨?_, fun routes => ?_⟩
  rotate_left
  · unfold canonical Artifact.toJson outputJson
    generalize Json.arr (List.map (fun x => x.toJson) routes) = x
    rw [Json.dumps]
    simp only [List.cons_append, List.nil_append, Json.dumpsMembers, Json.arrange,
      canonicalFormat, if_true]
    rw [sort_artifact]
    simp only [List.map_cons, List.map_nil, String.intercalate_cons_cons, String.intercalate_singleton,
      Json.render, ← String.append_assoc]
    rfl

/-- Artifacts whose hashes are of one text have one text. -/
theorem canonical_toJson {routes routes' : List CompiledRoute}
    (h : canonical (.obj (outputJson routes)) = canonical (.obj (outputJson routes'))) :
    canonical (sealed routes).toJson = canonical (sealed routes').toJson := by
  have hhash : (sealed routes).configurationSha256 = (sealed routes').configurationSha256 := by
    show Sha256.ofText _ = Sha256.ofText _
    rw [h]
  obtain ⟨head, hhead⟩ := canonical_output
  obtain ⟨head', hhead'⟩ := canonical_artifact (sealed routes').configurationSha256
  rw [hhead, hhead, String.append_left_inj, String.append_right_inj] at h
  have hsealed : sealed routes = ⟨routes, (sealed routes').configurationSha256⟩ := by
    rw [← hhash]
    rfl
  rw [hsealed, hhead', h, ← hhead']
  rfl

theorem Genuine.holdsText {hash : String} {stored : Json} (h : Genuine hash artifact)
    (hstored : Genuine hash stored) : HoldsText stored artifact := by
  by_cases htext : digestText stored = digestText artifact
  · obtain ⟨routes, rfl, -⟩ := h
    obtain ⟨routes', rfl, -⟩ := hstored
    rw [digestText, digestText, unsealed_toJson, unsealed_toJson] at htext
    exact Or.inl (canonical_toJson htext)
  · exact Or.inr ⟨htext, by rw [← hstored.hash, ← h.hash]⟩

end Text

/-! ## The invariant -/

/-- The publication before another. -/
def Previous (st : Store) (p q : String) : Prop :=
  ∃ m, (q, m) ∈ st.manifests ∧ m.previousActivePublicationId = some p

structure Consistent (cs : List Call) (st : Store) : Prop where
  active : ∀ m, st.activeManifest = some m →
    m.status = .active ∧ (m.publicationId, m) ∈ st.manifests
  named : ∀ e ∈ st.manifests, e.1 = e.2.publicationId
  artifact : ∀ e ∈ st.manifests, ∃ c ∈ cs, ∃ k, c.publicationId = e.1 ∧ c.compiled = .ok k ∧
    e.2.artifactSetHash = k.configurationSha256 ∧
      ∃ stored, st.findArtifact e.2.artifactSetHash = some stored ∧ HoldsText stored k.artifact
  previous : ∀ e ∈ st.manifests, ∀ p, e.2.previousActivePublicationId = some p →
    ∃ m, (p, m) ∈ st.manifests ∧ m.status = .active
  chain : WellFounded (Previous st)
  manifestsOnce : (st.manifests.map (·.1)).Nodup
  artifactsOnce : (st.artifacts.map (·.1)).Nodup

/-- The invariant, with where the predecessor of a manifest is recorded, and what is
stored under a hash. -/
structure Kept (cs : List Call) (st : Store) : Prop where
  active : ∀ m, st.activeManifest = some m →
    m.status = .active ∧ (m.publicationId, m) ∈ st.manifests
  named : ∀ e ∈ st.manifests, e.1 = e.2.publicationId
  artifact : ∀ e ∈ st.manifests, ∃ c ∈ cs, ∃ k, c.publicationId = e.1 ∧ c.compiled = .ok k ∧
    e.2.artifactSetHash = k.configurationSha256 ∧
      ∃ stored, st.findArtifact e.2.artifactSetHash = some stored ∧ HoldsText stored k.artifact
  ordered : ∀ before e after, st.manifests = before ++ e :: after →
    ∀ p, e.2.previousActivePublicationId = some p → ∃ m, (p, m) ∈ before ∧ m.status = .active
  manifestsOnce : (st.manifests.map (·.1)).Nodup
  artifactsOnce : (st.artifacts.map (·.1)).Nodup
  genuine : ∀ e ∈ st.artifacts, Genuine e.1 e.2

/-- A predecessor stands before its successor, so a chain of them comes to an end. -/
theorem Kept.chain {cs : List Call} {st : Store} (h : Kept cs st) : WellFounded (Previous st) := by
  refine Subrelation.wf ?_ (measure fun p => (st.manifests.map (·.1)).idxOf p).wf
  rintro p q ⟨m, hm, hprevious⟩
  obtain ⟨before, after, hsplit⟩ := List.append_of_mem hm
  obtain ⟨m', hm', -⟩ := h.ordered _ _ _ hsplit p hprevious
  have hnodup := h.manifestsOnce
  have hp : p ∈ before.map (·.1) := List.mem_map_of_mem hm'
  show (st.manifests.map (·.1)).idxOf p < (st.manifests.map (·.1)).idxOf q
  rw [hsplit, List.map_append, List.map_cons] at hnodup ⊢
  have hq : q ∉ before.map (·.1) := fun hq =>
    (List.nodup_append.mp hnodup).2.2 _ hq _ List.mem_cons_self rfl
  rw [List.idxOf_append_of_mem hp, List.idxOf_append_of_notMem hq]
  have := List.idxOf_lt_length_of_mem hp
  omega

theorem Kept.consistent {cs : List Call} {st : Store} (h : Kept cs st) : Consistent cs st where
  active := h.active
  named := h.named
  artifact := h.artifact
  previous := by
    intro e he p hp
    obtain ⟨before, after, hsplit⟩ := List.append_of_mem he
    obtain ⟨m, hm, hactive⟩ := h.ordered _ _ _ hsplit p hp
    exact ⟨m, hsplit ▸ List.mem_append_left _ hm, hactive⟩
  chain := h.chain
  manifestsOnce := h.manifestsOnce
  artifactsOnce := h.artifactsOnce

theorem Kept.mono {cs cs' : List Call} {st : Store} (h : Kept cs st) (hsub : cs ⊆ cs') :
    Kept cs' st where
  active := h.active
  named := h.named
  artifact := by
    intro e he
    obtain ⟨c, hc, hrest⟩ := h.artifact e he
    exact ⟨c, hsub hc, hrest⟩
  ordered := h.ordered
  manifestsOnce := h.manifestsOnce
  artifactsOnce := h.artifactsOnce
  genuine := h.genuine

theorem kept_empty : Kept [] Store.empty where
  active := fun _ h => by cases h
  named := fun _ h => absurd h List.not_mem_nil
  artifact := fun _ h => absurd h List.not_mem_nil
  ordered := fun before _ _ h => by
    cases before <;> cases h
  manifestsOnce := List.nodup_nil
  artifactsOnce := List.nodup_nil
  genuine := fun _ h => absurd h List.not_mem_nil

/-! ## Its steps -/

section Steps

variable {st : Store} {cs : List Call} {hash : String}

theorem findArtifact_mem {stored : Json} (h : st.findArtifact hash = some stored) :
    (hash, stored) ∈ st.artifacts := by
  obtain ⟨e, he, rfl⟩ := Option.map_eq_some_iff.mp h
  have hkey : e.1 = hash := by simpa using List.find?_some he
  exact hkey ▸ List.mem_of_find?_eq_some he

theorem findArtifact_none (h : (st.findArtifact hash).isSome = false) :
    hash ∉ st.artifacts.map (·.1) := by
  intro hmem
  obtain ⟨e, he, rfl⟩ := List.mem_map.mp hmem
  have hsome : (st.findArtifact e.1).isSome = true := by
    rw [Store.findArtifact, Option.isSome_map, List.find?_isSome]
    exact ⟨e, he, decide_eq_true rfl⟩
  rw [hsome] at h
  cases h

theorem ensure_manifests : (st.ensure hash artifact).manifests = st.manifests := by
  unfold Store.ensure
  split <;> rfl

theorem ensure_active : (st.ensure hash artifact).active = st.active := by
  unfold Store.ensure
  split <;> rfl

theorem ensure_artifacts : st.artifacts <+: (st.ensure hash artifact).artifacts := by
  unfold Store.ensure
  split
  · exact List.prefix_rfl
  · exact List.prefix_append _ _

theorem findArtifact_ensure {other : String} {stored : Json}
    (h : st.findArtifact other = some stored) :
    (st.ensure hash artifact).findArtifact other = some stored := by
  unfold Store.ensure
  split
  · exact h
  · obtain ⟨e, he, rfl⟩ := Option.map_eq_some_iff.mp h
    rw [Store.findArtifact, Store.writeArtifact, List.find?_append, he]
    rfl

theorem ensure_finds : ∃ stored, (st.ensure hash artifact).findArtifact hash = some stored ∧
    (stored = artifact ∨ st.findArtifact hash = some stored) := by
  unfold Store.ensure
  split
  · next h =>
    obtain ⟨stored, hstored⟩ := Option.isSome_iff_exists.mp h
    exact ⟨stored, hstored, Or.inr hstored⟩
  · next h =>
    have hnone : st.artifacts.find? (·.1 = hash) = none := by
      rw [Store.findArtifact, Option.isSome_map] at h
      exact Option.not_isSome_iff_eq_none.mp h
    refine ⟨artifact, ?_, Or.inl rfl⟩
    rw [Store.findArtifact, Store.writeArtifact, List.find?_append, hnone]
    simp

/-- What is stored is equal to what was to be stored, as the code compares them. -/
theorem ensure_same (h : st.collides hash artifact = false) :
    ∃ stored, (st.ensure hash artifact).findArtifact hash = some stored ∧
      (stored = artifact ∨ stored.eqv artifact = true) := by
  obtain ⟨stored, hstored, hsame⟩ := @ensure_finds artifact st hash
  refine ⟨stored, hstored, hsame.imp_right fun hold => ?_⟩
  rw [Store.collides, hold] at h
  simpa using h

theorem kept_ensure (h : Kept cs st) (hgenuine : Genuine hash artifact) :
    Kept cs (st.ensure hash artifact) where
  active := by
    rw [Store.activeManifest, ensure_active, ensure_manifests]
    exact h.active
  named := by
    rw [ensure_manifests]
    exact h.named
  artifact := by
    rw [ensure_manifests]
    intro e he
    obtain ⟨c, hc, k, hid, hk, hhash, stored, hstored, htext⟩ := h.artifact e he
    exact ⟨c, hc, k, hid, hk, hhash, stored, findArtifact_ensure hstored, htext⟩
  ordered := by
    rw [ensure_manifests]
    exact h.ordered
  manifestsOnce := by
    rw [ensure_manifests]
    exact h.manifestsOnce
  artifactsOnce := by
    unfold Store.ensure
    split
    · exact h.artifactsOnce
    · next hnone =>
      rw [Store.writeArtifact, List.map_append, List.map_singleton]
      refine List.nodup_append.mpr ⟨h.artifactsOnce, List.nodup_singleton _, ?_⟩
      rintro x hx y hy rfl
      rw [List.mem_singleton.mp hy] at hx
      exact findArtifact_none (Bool.eq_false_of_not_eq_true hnone) hx
  genuine := by
    unfold Store.ensure
    split
    · exact h.genuine
    · intro e he
      rcases List.mem_append.mp he with he | he
      · exact h.genuine e he
      · rw [List.mem_singleton.mp he]
        exact hgenuine

/-- What a manifest brings: its call, its artifact, and the publication that was active. -/
structure Adds (cs : List Call) (st : Store) (m : Manifest) : Prop where
  fresh : st.contains m.publicationId = false
  artifact : ∃ c ∈ cs, ∃ k, c.publicationId = m.publicationId ∧ c.compiled = .ok k ∧
    m.artifactSetHash = k.configurationSha256 ∧
      ∃ stored, st.findArtifact m.artifactSetHash = some stored ∧ HoldsText stored k.artifact
  previous : m.previousActivePublicationId = st.activeManifest.map (·.publicationId)

theorem kept_manifest (h : Kept cs st) (hadds : Adds cs st m) : Kept cs (st.writeManifest m) where
  active := fun a ha => ⟨(h.active a ha).1, List.mem_append_left _ (h.active a ha).2⟩
  named := by
    intro e he
    rcases List.mem_append.mp he with he | he
    · exact h.named e he
    · rw [List.mem_singleton.mp he]
  artifact := by
    intro e he
    rcases List.mem_append.mp he with he | he
    · exact h.artifact e he
    · rw [List.mem_singleton.mp he]
      exact hadds.artifact
  ordered := by
    intro before e after hsplit p hp
    rcases List.eq_nil_or_concat after with rfl | ⟨init, last, rfl⟩
    · -- The new manifest: its predecessor is in `active.json`.
      obtain ⟨hbefore, he⟩ := List.append_inj' hsplit rfl
      obtain rfl := List.cons.inj he |>.1
      rw [show (m.publicationId, m).2.previousActivePublicationId = _ from hadds.previous] at hp
      obtain ⟨a, ha, rfl⟩ := Option.map_eq_some_iff.mp hp
      exact ⟨a, hbefore ▸ (h.active a ha).2, (h.active a ha).1⟩
    · rw [List.concat_eq_append, ← List.cons_append, ← List.append_assoc] at hsplit
      exact h.ordered _ _ _ (List.append_inj' hsplit rfl).1 p hp
  manifestsOnce := by
    rw [Store.writeManifest, List.map_append, List.map_singleton]
    refine List.nodup_append.mpr ⟨h.manifestsOnce, List.nodup_singleton _, ?_⟩
    rintro x hx y hy rfl
    rw [List.mem_singleton.mp hy] at hx
    obtain ⟨e, he, hid⟩ := List.mem_map.mp hx
    have hfresh := hadds.fresh
    rw [Store.contains, List.any_eq_false] at hfresh
    exact hfresh e he (decide_eq_true hid)
  artifactsOnce := h.artifactsOnce
  genuine := h.genuine

theorem kept_active (h : Kept cs st) (hactive : m.status = .active)
    (hm : (m.publicationId, m) ∈ st.manifests) : Kept cs (st.writeActive m) where
  active := by
    intro a ha
    obtain rfl := Option.some.inj ha
    exact ⟨hactive, hm⟩
  named := h.named
  artifact := h.artifact
  ordered := h.ordered
  manifestsOnce := h.manifestsOnce
  artifactsOnce := h.artifactsOnce
  genuine := h.genuine

/-- The step: any of the four stores a record leaves. -/
theorem kept_left {st' : Store} {activate : Bool} (h : Kept cs st)
    (hleft : Left st m artifact activate st') (hgenuine : Genuine m.artifactSetHash artifact)
    (hfresh : st.contains m.publicationId = false)
    (hcall : ∃ c ∈ cs, ∃ k, c.publicationId = m.publicationId ∧ c.compiled = .ok k ∧
      m.artifactSetHash = k.configurationSha256 ∧ artifact = k.artifact)
    (hprevious : m.previousActivePublicationId = st.activeManifest.map (·.publicationId))
    (hactive : activate = true ↔ m.status = .active) : Kept cs st' := by
  have hensure := kept_ensure h hgenuine
  have hadds : Adds cs (st.ensure m.artifactSetHash artifact) m := by
    refine ⟨?_, ?_, ?_⟩
    · rw [Store.contains, ensure_manifests]
      exact hfresh
    · obtain ⟨c, hc, k, hid, hk, hhash, rfl⟩ := hcall
      obtain ⟨stored, hstored, -⟩ := @ensure_finds k.artifact st m.artifactSetHash
      refine ⟨c, hc, k, hid, hk, hhash, stored, hstored, ?_⟩
      exact hgenuine.holdsText (hensure.genuine _ (findArtifact_mem hstored))
    · rw [hprevious, Store.activeManifest, Store.activeManifest, ensure_active]
  cases hleft with
  | nothing => exact h
  | artifact => exact hensure
  | manifest => exact kept_manifest hensure hadds
  | active hyes =>
      exact kept_active (kept_manifest hensure hadds) (hactive.mp hyes)
        (List.mem_append_right _ (List.mem_singleton_self _))

end Steps

/-! ## Every run -/

section Runs

open ActivationGate

/-- The files that are there stay as they are. -/
def Extends (st st' : Store) : Prop :=
  st.manifests <+: st'.manifests ∧ st.artifacts <+: st'.artifacts

theorem Extends.refl (st : Store) : Extends st st := ⟨List.prefix_rfl, List.prefix_rfl⟩

theorem Extends.trans {st st' st'' : Store} (h : Extends st st') (h' : Extends st' st'') :
    Extends st st'' := ⟨h.1.trans h'.1, h.2.trans h'.2⟩

theorem left_extends {st st' : Store} {activate : Bool} (h : Left st m artifact activate st') :
    Extends st st' := by
  cases h with
  | nothing => exact Extends.refl st
  | artifact => exact ⟨by rw [ensure_manifests], ensure_artifacts⟩
  | manifest => exact ⟨by rw [Store.writeManifest, ensure_manifests]; exact List.prefix_append _ _,
      ensure_artifacts⟩
  | active hyes => exact ⟨by
      rw [Store.writeActive, Store.writeManifest, ensure_manifests]
      exact List.prefix_append _ _, ensure_artifacts⟩

/-- What `compileRoot` hands on is a compiled artifact, under its hash. -/
theorem compileRoot_genuine {t : Attempt π} {k : Compiled} (h : t.call.compiled = .ok k) :
    Genuine k.configurationSha256 k.artifact := by
  change compileRoot _ _ _ _ _ = .ok k at h
  unfold compileRoot at h
  split at h
  · cases h
  · split at h
    · cases h
    · next a hcompile =>
      obtain rfl := Except.ok.inj h
      obtain ⟨docs, -, hcompile⟩ := CompileConfig.compileConfig_ok hcompile
      obtain ⟨w⟩ := CompileConfig.compileDocuments_ok hcompile
      have hsealed := w.sealed
      exact ⟨_, congrArg CompileConfig.Artifact.toJson hsealed,
        congrArg CompileConfig.Artifact.configurationSha256 hsealed⟩

theorem kept_publish {cs : List Call} (t : Attempt π) (h : Kept cs s.store) :
    Kept (cs ++ [t.call]) (t.publish s).2.store ∧ Extends s.store (t.publish s).2.store := by
  have hsame : Kept (cs ++ [t.call]) s.store := h.mono (List.subset_append_left _ _)
  rcases publish_records t.plane t.call s with ⟨e, -, hpublish⟩ |
    ⟨m, artifact, hprepare, m', activate, hid, hhash, hprevious, hactive, hstore, -⟩
  · rw [Attempt.publish, hpublish]
    exact ⟨hsame, Extends.refl _⟩
  · rcases hstore with hstore | hstore
    · rw [Attempt.publish, hstore]
      exact ⟨hsame, Extends.refl _⟩
    · rcases record_left with hnone | ⟨hfresh, -, hleft⟩
      · rw [Attempt.publish, hstore, hnone]
        exact ⟨hsame, Extends.refl _⟩
      · obtain ⟨k, hk, rfl, hm⟩ := prepare_compiled hprepare
        rw [Attempt.publish, hstore]
        refine ⟨kept_left hsame hleft ?_ hfresh ?_ ?_ hactive, left_extends hleft⟩
        · rw [hhash, hm]
          exact compileRoot_genuine hk
        · refine ⟨t.call, List.mem_append_right _ (List.mem_singleton_self _), k, ?_, hk, ?_, rfl⟩
          · rw [hid, (prepare_ok hprepare).publicationId]
          · rw [hhash, hm]
        · rw [hprevious, prepare_previous hprepare]

theorem kept_publishAll {cs : List Call} {st : Store} (h : Kept cs st) (ts : List (Started π)) :
    Kept (cs ++ ts.map (·.attempt.call)) (publishAll st ts) ∧ Extends st (publishAll st ts) := by
  induction ts generalizing cs st with
  | nil =>
      rw [List.map_nil, List.append_nil]
      exact ⟨h, Extends.refl st⟩
  | cons t ts ih =>
      obtain ⟨hkept, hextends⟩ := kept_publish (s := ⟨t.plane, st, t.incidents⟩) t.attempt h
      obtain ⟨hkept', hextends'⟩ := ih hkept
      rw [List.append_assoc] at hkept'
      exact ⟨hkept', hextends.trans hextends'⟩

/-- After every sequence of publications, whatever their crashes left, the store is
consistent; and what is in it stays as it is in every longer sequence. -/
theorem publication_store_consistent (ts us : List (Started π)) :
    Consistent (ts.map (·.attempt.call)) (publishAll .empty ts) ∧
      Extends (publishAll .empty ts) (publishAll .empty (ts ++ us)) := by
  obtain ⟨hkept, -⟩ := kept_publishAll kept_empty ts
  rw [List.nil_append] at hkept
  refine ⟨hkept.consistent, ?_⟩
  rw [publishAll, publishAll, List.foldl_append]
  exact (kept_publishAll hkept us).2

end Runs

end OufGateway.Publication
