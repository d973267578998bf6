import Mathlib
import OufGateway.Lib.UrlPath
import OufGateway.Ref.Recovery

/-!
# Where a recovery request goes

The alphabet of the identifiers, the encoding and the removal of dot segments are three
languages. An identifier is encoded so that no slash is left in it, and the encoding
keeps different identifiers different; but the alphabet has the dot, the encoding keeps
it, and so the two identifiers that are dot segments leave the directory of the template
when the path is normalized. A template may also have its placeholder in the directory.
There is nothing else that can go wrong.
-/

namespace OufGateway.Recovery

open Lib CompileConfig UrlPath

variable {b : RecoveryBinding} {dir i j : String}

/-- After normalization the path is one segment in the directory of the template. -/
def InDirectory (b : RecoveryBinding) (dir id : String) : Prop :=
  ∃ seg, seg ≠ [] ∧ '/' ∉ seg ∧
    normalize (recoveryPath b id) = directory dir.toList ++ '/' :: seg

/-- The identifier is no dot segment, and the directory does not depend on it. -/
structure Harmless (dir id : String) : Prop where
  dot : id ≠ "."
  dots : id ≠ ".."
  directory : directory (replace placeholder (quote id.toList) dir.toList) = directory dir.toList

theorem recoveryPath_eq (hb : b.pathTemplate = dir ++ "/" ++ String.ofList placeholder)
    (id : String) : recoveryPath b id =
      replace placeholder (quote id.toList) dir.toList ++ '/' :: quote id.toList := by
  have hslash : '/' ∉ placeholder := by decide
  have hne : placeholder ≠ [] := by decide
  have htemplate : b.pathTemplate.toList = dir.toList ++ '/' :: placeholder := by
    rw [hb]
    simp
  rw [recoveryPath, htemplate, replace_append hne hslash, replace_self hne]

theorem quote_isDot {s : List Char} : IsDot (quote s) ↔ IsDot s := by
  have hdot : quote ['.'] = ['.'] := by decide
  have hdots : quote ['.', '.'] = ['.', '.'] := by decide
  unfold IsDot
  constructor
  · rintro (h | h)
    · exact Or.inl (quote_inj (h.trans hdot.symm))
    · exact Or.inr (quote_inj (h.trans hdots.symm))
  · rintro (rfl | rfl)
    · exact Or.inl hdot
    · exact Or.inr hdots

theorem isDot_toList : IsDot i.toList ↔ i = "." ∨ i = ".." := by
  have htext : IsDot i.toList ↔ i.toList = ".".toList ∨ i.toList = "..".toList := Iff.rfl
  rw [htext, String.toList_inj, String.toList_inj]

theorem toList_ne_nil (hi : isBackendRequestId i = true) : i.toList ≠ [] := by
  intro hnil
  obtain rfl : i = "" := by
    rw [← String.toList_inj, hnil]
    rfl
  exact absurd hi (by decide)

theorem directory_eq_join (path : List Char) :
    ∃ segs, Whole segs ∧ directory path = join segs := by
  have hnil : Whole [] := fun s hs => by cases hs
  refine ⟨_, fun s hs => ?_, rfl⟩
  exact whole_enterAll hnil (whole_segments path) s (List.mem_reverse.mp hs)

theorem join_append_singleton (segs : List (List Char)) (seg : List Char) :
    join (segs ++ [seg]) = join segs ++ '/' :: seg := by
  simp [join]

theorem whole_append {segs : List (List Char)} {seg : List Char} (h : Whole segs)
    (hseg : '/' ∉ seg) : Whole (segs ++ [seg]) := by
  intro s hs
  rcases List.mem_append.mp hs with hs | hs
  · exact h s hs
  · exact List.mem_singleton.mp hs ▸ hseg

/-- The last segment of a normalized path, and what is before it. -/
theorem append_segment_inj {segs segs' : List (List Char)} {seg seg' : List Char} (h : Whole segs)
    (h' : Whole segs') (hseg : '/' ∉ seg) (hseg' : '/' ∉ seg')
    (heq : join segs ++ '/' :: seg = join segs' ++ '/' :: seg') : segs = segs' ∧ seg = seg' := by
  rw [← join_append_singleton, ← join_append_singleton] at heq
  have hlists := join_inj (whole_append h hseg) (whole_append h' hseg') heq
  obtain ⟨hsegs, hlast⟩ := List.append_inj' hlists rfl
  exact ⟨hsegs, (List.cons.inj hlast).1⟩

theorem inDirectory_iff (hb : b.pathTemplate = dir ++ "/" ++ String.ofList placeholder)
    (hi : isBackendRequestId i = true) : InDirectory b dir i ↔ Harmless dir i := by
  unfold InDirectory
  rw [recoveryPath_eq hb]
  obtain ⟨segs, hsegs, hdir⟩ := directory_eq_join dir.toList
  by_cases hdot : IsDot i.toList
  · have hnot : ¬ Harmless dir i := fun h => (isDot_toList.mp hdot).elim h.dot h.dots
    refine iff_of_false ?_ hnot
    rintro ⟨seg, hne, hslash, heq⟩
    obtain ⟨segs', hsegs', hnormal⟩ : ∃ segs', Whole segs' ∧
        normalize (replace placeholder (quote i.toList) dir.toList ++ '/' :: quote i.toList) =
          join (segs' ++ [[]]) := normalize_dot (quote_isDot.mpr hdot)
    rw [hnormal, join_append_singleton, hdir] at heq
    have hempty : '/' ∉ ([] : List Char) := List.not_mem_nil
    exact hne (append_segment_inj hsegs' hsegs hempty hslash heq).2.symm
  · have hnormal : normalize
          (replace placeholder (quote i.toList) dir.toList ++ '/' :: quote i.toList) =
        directory (replace placeholder (quote i.toList) dir.toList) ++ '/' :: quote i.toList :=
      normalize_append (slash_notMem_quote i.toList) (fun h => hdot (quote_isDot.mp h))
    obtain ⟨segs', hsegs', hdir'⟩ := directory_eq_join (replace placeholder (quote i.toList) dir.toList)
    rw [hnormal]
    constructor
    · rintro ⟨seg, -, hslash, heq⟩
      rw [hdir', hdir] at heq
      have hsame := (append_segment_inj hsegs' hsegs (slash_notMem_quote _) hslash heq).1
      rw [isDot_toList, not_or] at hdot
      exact ⟨hdot.1, hdot.2, by rw [hdir', hdir, hsame]⟩
    · intro h
      exact ⟨quote i.toList, quote_ne_nil (toList_ne_nil hi), slash_notMem_quote _, by rw [h.directory]⟩

/-- Two recovery requests go to paths of their own, each one segment in the directory of
the template, exactly when neither identifier is a dot segment or moves the directory. -/
theorem recoveryPath_iff (hb : b.pathTemplate = dir ++ "/" ++ String.ofList placeholder)
    (hi : isBackendRequestId i = true) (hj : isBackendRequestId j = true) :
    (InDirectory b dir i ∧ InDirectory b dir j ∧
        (i ≠ j → normalize (recoveryPath b i) ≠ normalize (recoveryPath b j))) ↔
      Harmless dir i ∧ Harmless dir j := by
  rw [inDirectory_iff hb hi, inDirectory_iff hb hj]
  refine ⟨fun h => ⟨h.1, h.2.1⟩, fun h => ⟨h.1, h.2, fun hne heq => hne ?_⟩⟩
  have hnormal : ∀ {id : String}, Harmless dir id →
      normalize (recoveryPath b id) = directory dir.toList ++ '/' :: quote id.toList := by
    intro id hid
    have hdot : ¬ IsDot (quote id.toList) := by
      rw [quote_isDot, isDot_toList, not_or]
      exact ⟨hid.dot, hid.dots⟩
    rw [recoveryPath_eq hb, normalize_append (slash_notMem_quote _) hdot, hid.directory]
  rw [hnormal h.1, hnormal h.2] at heq
  have hquote := (List.cons.inj (List.append_cancel_left heq)).2
  exact String.toList_inj.mp (quote_inj hquote)

/-! ## The identifier of the parent -/

/-- The binding of the owner that has outcomes. -/
def outcomes : RecoveryBinding where
  owner := "udp-object-resolution"
  service := "ouf-udp-object-resolution"
  pathTemplate := "/internal/v1/attempt-outcomes/\x7bbackendRequestId\x7d"

theorem recoveryPath_parent : isBackendRequestId ".." = true ∧
    normalize (recoveryPath outcomes "..") = "/internal/v1/".toList ∧
    ¬ InDirectory outcomes "/internal/v1/attempt-outcomes" ".." := by
  refine ⟨by decide, by decide, fun h => ?_⟩
  exact ((inDirectory_iff rfl (by decide)).mp h).dots rfl

theorem recoveryPath_outcomes :
    (InDirectory outcomes "/internal/v1/attempt-outcomes" "a.b" ∧
        InDirectory outcomes "/internal/v1/attempt-outcomes" "a:b" ∧
        ("a.b" ≠ "a:b" → normalize (recoveryPath outcomes "a.b") ≠
          normalize (recoveryPath outcomes "a:b"))) ↔
      Harmless "/internal/v1/attempt-outcomes" "a.b" ∧
        Harmless "/internal/v1/attempt-outcomes" "a:b" :=
  recoveryPath_iff rfl (by decide) (by decide)

end OufGateway.Recovery
