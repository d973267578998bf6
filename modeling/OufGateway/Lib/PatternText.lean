import OufGateway.Lib.PatternRules
import Mathlib.Data.List.TakeDrop

/-!
# What the text of an expression says about it

An expression that is written `^`, characters that mean themselves, something
and `$`, and that has no alternatives outside of its groups, is confined to
these characters, unless its `$` is escaped: `confined_of_written`. For the
front, characters that mean themselves are read one by one. For the end, every
reader stops behind a character it has read, and the only ones that stop behind
a `$` read it as the anchor or as an escaped character.
-/

namespace OufGateway.Lib.Pattern

variable {front rest cs : List Char} {p : Node} {n : Nat}
  {inner : List Char → Option Reading} {r : Reading}

/-! ## Characters that mean themselves -/

def special : List Char := ['\\', '^', '$', '.', '[', '|', '(', ')', '*', '+', '?']

/-- In front of this text `c` means itself, once. -/
def plain (c : Char) (after : List Char) : Bool :=
  !special.contains c && !(c = '\x7b' && after.head?.any opensBound) && (readQuantifier after).isNone

/-- The characters mean themselves, in front of `rest`. -/
def literal : List Char → List Char → Bool
  | [], _ => true
  | c :: cs, rest => plain c (cs ++ rest) && literal cs rest

theorem readItem_plain {c : Char} (h : plain c cs = true) :
    readItem inner (c :: cs) = some (.char c, cs) := by
  simp only [plain, special, List.contains_eq_mem, List.mem_cons, List.not_mem_nil, or_false,
    Bool.and_eq_true, Bool.not_eq_true', decide_eq_false_iff_not, not_or, Option.isNone_iff_eq_none] at h
  obtain ⟨⟨⟨hslash, hcaret, hdollar, hdot, hclass, hbar, hopen, hclose, hstar, hplus, hquestion⟩,
    hbrace⟩, hquantifier⟩ := h
  have hatom : readAtom inner (c :: cs) = some (.char c, cs) := by
    unfold readAtom
    split
    all_goals simp_all
  simp only [readItem, hatom, quantify, hquantifier]

theorem readAll_item {c : Char} (hbar : c ≠ '|') (hclose : c ≠ ')') :
    readAll (n + 1) (c :: cs) = (readItem (readAll n) (c :: cs)).bind fun item =>
      (readAll n item.2).map fun r => ⟨item.1 :: r.first, r.others, r.rest⟩ := by
  rw [readAll]
  · cases readItem (readAll n) (c :: cs) <;> rfl
  · exact fun h => List.cons_ne_nil _ _ h
  · exact fun rest h => hclose (List.cons.inj h).1
  · exact fun rest h => hbar (List.cons.inj h).1

theorem readAll_plain {c : Char} (h : plain c cs = true) :
    readAll (n + 1) (c :: cs) =
      (readAll n cs).map fun r => ⟨.char c :: r.first, r.others, r.rest⟩ := by
  have hbar : c ≠ '|' := by
    rintro rfl
    simp [plain, special] at h
  have hclose : c ≠ ')' := by
    rintro rfl
    simp [plain, special] at h
  rw [readAll_item hbar hclose, readItem_plain h, Option.bind_some]

theorem readAll_literal (h : literal front rest = true) :
    readAll (n + front.length) (front ++ rest) =
      (readAll n rest).map fun r => ⟨front.map .char ++ r.first, r.others, r.rest⟩ := by
  induction front with
  | nil => simp
  | cons c front ih =>
      obtain ⟨hc, hfront⟩ := Bool.and_eq_true _ _ ▸ h
      rw [List.length_cons, ← Nat.add_assoc, List.cons_append, readAll_plain hc, ih hfront,
        Option.map_map]
      rfl

theorem quantify_anchor {a : Anchor} {item : Node × List Char}
    (h : quantify (.anchor a) cs = some item) : item = (.anchor a, cs) := by
  unfold quantify at h
  split at h
  · exact (Option.some.inj h).symm
  · simp [Node.repeatable] at h

/-- `^` and characters that mean themselves are the front of the first alternative. -/
theorem read_literal (h : literal front rest = true) (hr : read ('^' :: (front ++ rest)) = some r) :
    ∃ more, r.first = .anchor .start :: (front.map .char ++ more) := by
  obtain ⟨hread, -⟩ := Option.filter_eq_some_iff.mp hr
  have hlength : ('^' :: (front ++ rest)).length + 1 = rest.length + 1 + front.length + 1 := by
    simp only [List.length_cons, List.length_append]
    omega
  rw [hlength, readAll_item (by decide) (by decide), Option.bind_eq_some_iff] at hread
  obtain ⟨item, hitem, hread⟩ := hread
  obtain rfl := quantify_anchor hitem
  rw [readAll_literal h, Option.map_map, Option.map_eq_some_iff] at hread
  obtain ⟨r, -, rfl⟩ := hread
  exact ⟨r.first, rfl⟩

/-! ## Where the readers stop -/

theorem suffix_of_cons {c : Char} (h : c :: rest <:+ cs) : rest <:+ cs :=
  (List.suffix_cons c rest).trans h

theorem readMember_suffix {m : Char ⊕ CharSet} (h : readMember cs = some (m, rest)) : rest <:+ cs := by
  unfold readMember at h
  split at h
  · cases h
  · next c cs =>
      have hcs : cs <:+ '\\' :: c :: cs := ⟨['\\', c], rfl⟩
      split at h
      · cases h
        exact hcs
      · split at h
        · cases h
          exact hcs
        · obtain ⟨d, -, hd⟩ := Option.map_eq_some_iff.mp h
          cases hd
          exact hcs
  · split at h
    · cases h
    · cases h
      exact List.suffix_cons _ _
  · split at h
    · cases h
    · cases h
      exact List.suffix_cons _ _

/-- What `readMembers` goes on with is behind `cs`, and so is where it stops. -/
theorem readMembers_suffix {front : Bool} {s : CharSet}
    (h : readMembers n front cs = some (s, rest)) : ']' :: rest <:+ cs := by
  induction n generalizing front cs s with
  | zero => cases h
  | succ n ih =>
      have hnext : ∀ {after : List Char} {f : CharSet → CharSet}, after <:+ cs →
          (readMembers n false after).map (fun r => (f r.1, r.2)) = some (s, rest) →
          ']' :: rest <:+ cs := by
        intro after f hafter hmap
        obtain ⟨r, hr, hpair⟩ := Option.map_eq_some_iff.mp hmap
        cases hpair
        exact (ih hr).trans hafter
      rw [readMembers] at h
      split at h
      · next hclose =>
          obtain ⟨cs', rfl⟩ := List.head?_eq_some_iff.mp hclose.1
          cases h
          exact List.suffix_refl _
      · split at h
        · cases h
        · next hm => exact hnext (readMember_suffix hm) h
        · next hm =>
            have hdash := suffix_of_cons (readMember_suffix hm)
            split at h
            · obtain ⟨r, hr, hpair⟩ := Option.map_eq_some_iff.mp h
              cases hpair
              exact (ih hr).trans hdash
            · split at h
              · next hd =>
                  split at h
                  · cases h
                  · exact hnext ((readMember_suffix hd).trans hdash) h
              · cases h
        · next hm => exact hnext (readMember_suffix hm) h

theorem readClass_suffix (h : readClass cs = some (p, rest)) : ']' :: rest <:+ cs := by
  unfold readClass at h
  split at h
  all_goals
    obtain ⟨r, hr, hpair⟩ := Option.map_eq_some_iff.mp h
    cases hpair
  · exact (readMembers_suffix hr).trans (List.suffix_cons _ _)
  · exact readMembers_suffix hr

theorem span_suffix (f : Char → Bool) (cs : List Char) : (cs.span f).2 <:+ cs := by
  rw [List.span_eq_takeWhile_dropWhile]
  exact List.dropWhile_suffix f

theorem readBound_suffix {b : Nat × Option Nat} (h : readBound cs = some (b, rest)) :
    '\x7d' :: rest <:+ cs := by
  have hlow := span_suffix Char.isDigit cs
  unfold readBound at h
  simp only at h
  split at h
  · cases h
  · split at h
    · next heq =>
        cases h
        exact heq ▸ hlow
    · next heq =>
        cases h
        exact (suffix_of_cons (List.suffix_refl _)).trans (heq ▸ hlow)
    · next cs' _ heq =>
        have hhigh := (span_suffix Char.isDigit cs').trans (suffix_of_cons (heq ▸ hlow))
        split at h
        · next heq' =>
            split at h
            · cases h
            · cases h
              exact heq' ▸ hhigh
        · cases h
    · cases h

/-- A quantifier ends in another character than `$`. -/
theorem readQuantifier_suffix {b : Nat × Option Nat} (h : readQuantifier cs = some (b, rest)) :
    ∃ c, c :: rest <:+ cs ∧ c ≠ '$' := by
  unfold readQuantifier at h
  split at h
  · cases h
    exact ⟨'*', List.suffix_refl _, by decide⟩
  · cases h
    exact ⟨'+', List.suffix_refl _, by decide⟩
  · cases h
    exact ⟨'?', List.suffix_refl _, by decide⟩
  · exact ⟨'\x7d', (readBound_suffix h).trans (List.suffix_cons _ _), by decide⟩
  · cases h

theorem quantify_suffix {item : Node × List Char} (h : quantify p cs = some item) :
    item = (p, cs) ∨ ∃ c, c :: item.2 <:+ cs ∧ c ≠ '$' := by
  unfold quantify at h
  split at h
  · exact Or.inl (Option.some.inj h).symm
  · next rest hq =>
      obtain ⟨c, hc, hne⟩ := readQuantifier_suffix hq
      split at h
      · refine Or.inr ?_
        unfold readMode at h
        split at h
        · cases h
          exact ⟨'?', suffix_of_cons hc, by decide⟩
        · cases h
          exact ⟨'+', suffix_of_cons hc, by decide⟩
        · cases h
          exact ⟨c, hc, hne⟩
      · cases h

theorem readGroup_suffix {wrap : Node → Node}
    (hinner : ∀ cs r, inner cs = some r → r.rest <:+ cs)
    (h : readGroup inner wrap cs = some (p, rest)) : ')' :: rest <:+ cs := by
  unfold readGroup at h
  split at h
  · next hr =>
      cases h
      exact hinner _ _ hr
  · cases h

theorem readAtom_suffix (hinner : ∀ cs r, inner cs = some r → r.rest <:+ cs)
    (h : readAtom inner cs = some (p, rest)) :
    ∃ c, c :: rest <:+ cs ∧ (c = '$' → p = .anchor .finish ∨ p = .char '$') := by
  have hgroup : ∀ {wrap : Node → Node} {cs' : List Char}, cs' <:+ cs →
      readGroup inner wrap cs' = some (p, rest) →
      ∃ c, c :: rest <:+ cs ∧ (c = '$' → p = .anchor .finish ∨ p = .char '$') := by
    intro wrap cs' hcs hr
    exact ⟨')', (readGroup_suffix hinner hr).trans hcs, fun hd => absurd hd (by decide)⟩
  unfold readAtom at h
  split at h
  · cases h
  · exact hgroup ⟨['(', '?', ':'], rfl⟩ h
  · exact hgroup ⟨['(', '?', '>'], rfl⟩ h
  · exact hgroup ⟨['(', '?', '='], rfl⟩ h
  · exact hgroup ⟨['(', '?', '!'], rfl⟩ h
  · split at h
    · cases h
    · exact hgroup (List.suffix_cons _ _) h
  · exact ⟨']', (readClass_suffix h).trans (List.suffix_cons _ _), fun hd => absurd hd (by decide)⟩
  · cases h
    exact ⟨'.', List.suffix_refl _, fun hd => absurd hd (by decide)⟩
  · cases h
    exact ⟨'^', List.suffix_refl _, fun hd => absurd hd (by decide)⟩
  · cases h
    exact ⟨'$', List.suffix_refl _, fun _ => Or.inl rfl⟩
  · next c cs' =>
      obtain ⟨q, hq, hpair⟩ := Option.map_eq_some_iff.mp h
      cases hpair
      refine ⟨c, List.suffix_cons _ _, ?_⟩
      rintro rfl
      exact Or.inr (Option.some.inj hq).symm
  · next c cs' _ _ _ _ _ _ _ _ _ _ =>
      split at h
      · cases h
      · cases h
        exact ⟨c, List.suffix_refl _, fun hc => Or.inr (hc ▸ rfl)⟩

theorem readItem_suffix (hinner : ∀ cs r, inner cs = some r → r.rest <:+ cs)
    {item : Node × List Char} (h : readItem inner cs = some item) :
    ∃ c, c :: item.2 <:+ cs ∧ (c = '$' → item.1 = .anchor .finish ∨ item.1 = .char '$') := by
  unfold readItem at h
  split at h
  · cases h
  · next q cs' hq =>
      obtain ⟨c, hc, hlast⟩ := readAtom_suffix hinner hq
      rcases quantify_suffix h with rfl | ⟨d, hd, hne⟩
      · exact ⟨c, hc, hlast⟩
      · exact ⟨d, hd.trans (suffix_of_cons hc), fun hd => absurd hd hne⟩

theorem readAll_suffix (h : readAll n cs = some r) : r.rest <:+ cs := by
  induction n generalizing cs r with
  | zero => cases h
  | succ n ih =>
      unfold readAll at h
      split at h
      · cases h
        exact List.suffix_refl _
      · cases h
        exact List.suffix_refl _
      · obtain ⟨r, hr, rfl⟩ := Option.map_eq_some_iff.mp h
        exact (ih hr).trans (List.suffix_cons _ _)
      · split at h
        · cases h
        · next hitem =>
            obtain ⟨r, hr, rfl⟩ := Option.map_eq_some_iff.mp h
            obtain ⟨c, hc, -⟩ := readItem_suffix (fun _ _ => ih) hitem
            exact (ih hr).trans (suffix_of_cons hc)

/-! ## The last item -/

theorem getLast?_of_suffix {a b : List Char} (h : a <:+ b) (hne : a ≠ []) :
    a.getLast? = b.getLast? := by
  obtain ⟨before, rfl⟩ := h
  exact (List.getLast?_append_of_ne_nil before hne).symm

/-- If an expression without alternatives ends in `$`, it ends with the anchor or with the
escaped character. -/
theorem readAll_last (h : readAll n cs = some r) (hothers : r.others = []) (hrest : r.rest = [])
    (hcs : cs.getLast? = some '$') :
    r.first.getLast? = some (.anchor .finish) ∨ r.first.getLast? = some (.char '$') := by
  induction n generalizing cs r with
  | zero => cases h
  | succ n ih =>
      unfold readAll at h
      split at h
      · cases hcs
      · cases h
        cases hrest
      · obtain ⟨r, -, rfl⟩ := Option.map_eq_some_iff.mp h
        cases hothers
      · split at h
        · cases h
        · next p after hitem =>
            obtain ⟨r, hr, rfl⟩ := Option.map_eq_some_iff.mp h
            obtain ⟨c, hc, hlast⟩ := readItem_suffix (fun _ _ => readAll_suffix) hitem
            have hc' := getLast?_of_suffix hc (List.cons_ne_nil _ _)
            rw [hcs] at hc'
            cases after with
            | nil =>
                obtain rfl := Option.some.inj hc'
                have hfirst : r.first = [] := by
                  cases n with
                  | zero => cases hr
                  | succ n =>
                      cases hr
                      rfl
                simp only [hfirst, List.getLast?_singleton, Option.some.injEq]
                exact hlast rfl
            | cons d after =>
                rw [List.getLast?_cons_cons] at hc'
                have hrec := ih hr hothers hrest hc'
                have hne : r.first ≠ [] := by
                  rintro hnil
                  simp [hnil] at hrec
                obtain ⟨q, items, hfirst⟩ := List.exists_cons_of_ne_nil hne
                simp only [hfirst, List.getLast?_cons_cons] at hrec ⊢
                exact hrec

/-! ## Written so, confined -/

theorem consumes_chars (front : List Char) (more : List Node) :
    Node.consumes front (sequence (front.map .char ++ more)) = some [] := by
  induction front with
  | nil => exact consumes_nil _
  | cons c front ih =>
      have hc : Node.consumes (c :: front) (.char c) = some front := if_pos rfl
      calc Node.consumes (c :: front) (sequence ((c :: front).map .char ++ more))
          = (Node.consumes (c :: front) (.char c)).bind fun left =>
              Node.consumes left (sequence (front.map .char ++ more)) := rfl
        _ = some [] := by rw [hc, Option.bind_some, ih]

theorem finishes_sequence {items : List Node} (h : items.getLast? = some (.anchor .finish)) :
    (sequence items).finishes = true := by
  induction items with
  | nil => cases h
  | cons p items ih =>
      cases items with
      | nil =>
          obtain rfl := Option.some.inj h
          rfl
      | cons q items =>
          rw [List.getLast?_cons_cons] at h
          have hrec : (sequence (q :: items)).finishes = true := ih h
          exact Bool.or_eq_true_iff.mpr (Or.inl hrec)

theorem confined_of_written (h : literal front rest = true)
    (hr : read ('^' :: (front ++ rest)) = some r) (hothers : r.others = [])
    (hlast : ('^' :: (front ++ rest)).getLast? = some '$')
    (hescaped : r.first.getLast? ≠ some (.char '$')) : confined front r.node = true := by
  obtain ⟨more, hfirst⟩ := read_literal h hr
  obtain ⟨hread, hrest⟩ := Option.filter_eq_some_iff.mp hr
  have hfinish := (readAll_last hread hothers (List.isEmpty_iff.mp hrest) hlast).resolve_right hescaped
  have hnode : r.node = sequence (.anchor .start :: (front.map .char ++ more)) := by
    rw [Reading.node, hothers, hfirst]
    rfl
  have hstarts : (sequence (.anchor .start :: (front.map .char ++ more))).starts = true := rfl
  have hconsumes : Node.consumes front (sequence (.anchor .start :: (front.map .char ++ more))) =
      some [] := by
    cases front with
    | nil => exact consumes_nil _
    | cons c front => exact consumes_chars (c :: front) more
  rw [hnode, confined, hstarts, hconsumes, ← hfirst, finishes_sequence hfinish]
  rfl

end OufGateway.Lib.Pattern
