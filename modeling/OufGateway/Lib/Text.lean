import Mathlib

/-!
# Text

The string methods a Python program checks its input with, on the characters of
the text, and the two shapes its patterns mostly have: a text all of whose
characters are of one class, and the same one piece at a time. `pattern` in a
schema is a search, and `$` also matches before a final newline; `wholly` reads
`^[class]+$` that way, and `fullmatch` does not.
-/

namespace OufGateway.Lib.Text

def startsWith (lead s : String) : Bool := lead.toList.isPrefixOf s.toList

def endsWith (tail s : String) : Bool := tail.toList.isSuffixOf s.toList

def hasChar (c : Char) (s : String) : Bool := s.toList.contains c

def countChar (c : Char) (s : String) : Nat := s.toList.count c

/-- `str.isspace` of a character, which is also `\s`. -/
def isSpace (c : Char) : Bool :=
  let n := c.toNat
  (9 ≤ n && n ≤ 13) || (28 ≤ n && n ≤ 32) || n = 133 || n = 160 || n = 5760 ||
    (8192 ≤ n && n ≤ 8202) || n = 8232 || n = 8233 || n = 8239 || n = 8287 || n = 12288

/-- `str.strip`. -/
def strip (s : String) : String :=
  String.ofList ((s.toList.dropWhile isSpace).rdropWhile isSpace)

/-- The text without the final newline that `$` looks past. -/
def body (s : String) : List Char :=
  if s.toList.getLast? == some '\n' then s.toList.dropLast else s.toList

def nonempty (p : Char → Bool) (cs : List Char) : Bool := !cs.isEmpty && cs.all p

/-- `^[p]+$`. -/
def wholly (p : Char → Bool) (s : String) : Bool := nonempty p (body s)

/-- `re.fullmatch` of `[p]+`. -/
def fullmatch (p : Char → Bool) (s : String) : Bool := nonempty p s.toList

/-- `s.split(c, 1)[0]`. -/
def before (c : Char) (s : String) : String := String.ofList (s.toList.takeWhile (· ≠ c))

/-- `s.removeprefix(lead)`. -/
def removeLead (lead s : String) : String :=
  if startsWith lead s then String.ofList (s.toList.drop lead.toList.length) else s

/-- `s.rstrip(c)`. -/
def rstrip (c : Char) (s : String) : String :=
  String.ofList (s.toList.rdropWhile (· = c))

/-- `s.partition(c)`, with whether `c` was there. -/
def partition (c : Char) (s : List Char) : List Char × Bool × List Char :=
  match s.dropWhile (· ≠ c) with
  | [] => (s, false, [])
  | _ :: value => (s.takeWhile (· ≠ c), true, value)

/-- Where `str.splitlines` ends a line. -/
def endsLine (c : Char) : Bool :=
  let n := c.toNat
  (10 ≤ n && n ≤ 13) || (28 ≤ n && n ≤ 30) || n = 133 || n = 8232 || n = 8233

/-- `str.splitlines`. -/
def splitlines : List Char → List (List Char)
  | [] => []
  | '\r' :: '\n' :: cs => [] :: splitlines cs
  | c :: cs =>
    if endsLine c then [] :: splitlines cs
    else match splitlines cs with
      | [] => [[c]]
      | line :: lines => (c :: line) :: lines

/-- What a file in text mode gives for the ends of its lines. -/
def universal : List Char → List Char
  | [] => []
  | '\r' :: '\n' :: cs => '\n' :: universal cs
  | c :: cs => (if c = '\r' then '\n' else c) :: universal cs

/-- The occurrences of `sub` in a text, from left to right and apart, after `skip` characters. -/
def occurrences (sub : List Char) : Nat → List Char → Nat
  | _, [] => 0
  | skip + 1, _ :: cs => occurrences sub skip cs
  | 0, c :: cs =>
    if sub.isPrefixOf (c :: cs) then occurrences sub (sub.length - 1) cs + 1
    else occurrences sub 0 cs

/-- `s.count(sub)` of a `sub` that is not empty. -/
def count (sub s : List Char) : Nat := occurrences sub 0 s

/-- `sub in s` of a `sub` that is not empty. -/
def contains (sub s : List Char) : Bool := s.tails.any (sub.isPrefixOf ·)

/-- `s.replace(old, new, 1)` of an `old` that is not empty. -/
def replaceFirst (old new : List Char) : List Char → List Char
  | [] => []
  | c :: cs =>
    if old.isPrefixOf (c :: cs) then new ++ (c :: cs).drop old.length
    else c :: replaceFirst old new cs

/-- The pieces between the characters that `p` holds of, the empty ones too. -/
def pieces (p : Char → Bool) : List Char → List (List Char)
  | [] => [[]]
  | c :: cs =>
    match pieces p cs with
    | [] => []
    | w :: ws => if p c then [] :: w :: ws else (c :: w) :: ws

/-- The words of a text, as `%S+` finds them one after another. -/
def words (s : String) : List String :=
  ((pieces isSpace s.toList).filter (!·.isEmpty)).map String.ofList

theorem startsWith_append (lead rest : String) : startsWith lead (lead ++ rest) = true := by
  unfold startsWith
  rw [String.toList_append]
  exact List.isPrefixOf_iff_prefix.mpr (List.prefix_append _ _)

theorem removeLead_append (lead rest : String) : removeLead lead (lead ++ rest) = rest := by
  unfold removeLead
  rw [if_pos (startsWith_append lead rest), String.toList_append, List.drop_left,
    String.ofList_toList]

theorem eq_append_removeLead {lead s : String} (h : startsWith lead s = true) :
    s = lead ++ removeLead lead s := by
  obtain ⟨rest, hrest⟩ := List.isPrefixOf_iff_prefix.mp h
  rw [removeLead, if_pos h, ← hrest, List.drop_left, ← String.toList_inj, String.toList_append,
    String.toList_ofList, hrest]

theorem before_of_notMem {c : Char} {s : String} (h : c ∉ s.toList) : before c s = s := by
  have hall : s.toList.takeWhile (· ≠ c) = s.toList :=
    List.takeWhile_eq_self_iff.mpr fun d hd => decide_eq_true fun heq => h (heq ▸ hd)
  rw [before, hall, String.ofList_toList]

theorem before_append {c : Char} {s : String} (rest : String) (h : c ∉ s.toList) :
    before c (s ++ String.singleton c ++ rest) = s := by
  have hall : ∀ d ∈ s.toList, decide (d ≠ c) = true :=
    fun d hd => decide_eq_true fun heq => h (heq ▸ hd)
  rw [before, String.append_assoc, String.toList_append, List.takeWhile_append_of_pos hall]
  simp

theorem notMem_before (c : Char) (s : String) : c ∉ (before c s).toList := by
  intro h
  rw [before, String.toList_ofList] at h
  simpa using List.mem_takeWhile_imp h

/-- A text is what stands before the first `c`, and the rest from there on. -/
theorem eq_before (c : Char) (s : String) :
    s = before c s ∨ ∃ rest, s = before c s ++ String.singleton c ++ rest := by
  have hsplit := List.takeWhile_append_dropWhile (p := (· ≠ c)) (l := s.toList)
  cases hdrop : s.toList.dropWhile (· ≠ c) with
  | nil =>
      rw [hdrop, List.append_nil] at hsplit
      exact Or.inl (by rw [before, hsplit, String.ofList_toList])
  | cons d rest =>
      have hd : d = c := by
        have := List.head?_dropWhile_not (· ≠ c) s.toList
        rw [hdrop] at this
        simpa using this
      refine Or.inr ⟨String.ofList rest, ?_⟩
      rw [← String.toList_inj, String.toList_append, String.toList_append, before,
        String.toList_ofList, String.toList_ofList, String.toList_singleton, List.append_assoc,
        List.singleton_append, ← hd, ← hdrop, hd, hsplit]

theorem pieces_of_none {p : Char → Bool} {cs : List Char} (h : ∀ c ∈ cs, p c = false) :
    pieces p cs = [cs] := by
  induction cs with
  | nil => rfl
  | cons c cs ih =>
      have htail := ih fun d hd => h d (List.mem_cons_of_mem _ hd)
      have hc := h c List.mem_cons_self
      simp [pieces, htail, hc]

theorem none_of_mem_pieces {p : Char → Bool} {cs w : List Char} (h : w ∈ pieces p cs) :
    ∀ c ∈ w, p c = false := by
  induction cs generalizing w with
  | nil =>
      rw [pieces, List.mem_singleton] at h
      subst h
      exact fun c hc => absurd hc List.not_mem_nil
  | cons d cs ih =>
      unfold pieces at h
      split at h
      · exact absurd h List.not_mem_nil
      · next v vs hpieces =>
        rw [hpieces] at ih
        split at h
        · rcases List.mem_cons.mp h with rfl | hw
          · exact fun c hc => absurd hc List.not_mem_nil
          · exact ih hw
        · next hd =>
          rcases List.mem_cons.mp h with rfl | hw
          · intro c hc
            rcases List.mem_cons.mp hc with rfl | hc
            · simpa using hd
            · exact ih List.mem_cons_self c hc
          · exact ih (List.mem_cons_of_mem _ hw)

/-- A text without space in it is its one word. -/
theorem words_of_none {s : String} (hne : s ≠ "") (h : ∀ c ∈ s.toList, isSpace c = false) :
    words s = [s] := by
  have hlist : s.toList.isEmpty = false := by
    cases hs : s.toList with
    | nil => exact absurd (by rw [← String.toList_inj, hs]; rfl) hne
    | cons c cs => rfl
  rw [words, pieces_of_none h, List.filter_cons_of_pos (by simp [hlist]), List.filter_nil,
    List.map_singleton, String.ofList_toList]

theorem none_of_mem_words {s w : String} (h : w ∈ words s) : ∀ c ∈ w.toList, isSpace c = false := by
  obtain ⟨cs, hcs, rfl⟩ := List.mem_map.mp h
  rw [String.toList_ofList]
  exact none_of_mem_pieces (List.mem_filter.mp hcs).1

end OufGateway.Lib.Text
