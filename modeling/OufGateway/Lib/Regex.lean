import Mathlib

/-!
# Anchored regular expressions

The expressions `^...$` that are a sequence of pieces, each a class of
characters and how often it may be repeated. `parse` reads one from its text: a
literal character, an escaped one, `.`, or a bracketed class with ranges, and
after it `*`, `+`, `?`, `{n}` or nothing. Text with anything else in it
(groups, alternatives, a class by its complement) is not read.

`search` matches by trying every way to divide the text among the pieces. `$`
also matches before a final newline.
-/

namespace OufGateway.Lib.Regex

/-- Ranges of characters, with a number of repetitions from `least` to `most`. -/
structure Piece where
  ranges : List (Char × Char)
  least : Nat := 1
  most : Option Nat := some 1
deriving DecidableEq

def Piece.accepts (p : Piece) (c : Char) : Bool := p.ranges.any fun r => r.1 ≤ c && c ≤ r.2

def digit? (c : Char) : Option Nat := if c.isDigit then some (c.toNat - 48) else none

/-- The number up to the brace that closes `{n}`. -/
def readCount : Nat → List Char → Option (Nat × List Char)
  | _, [] => none
  | n, c :: cs =>
    if c = '\x7d' then some (n, cs)
    else match digit? c with
      | some d => readCount (10 * n + d) cs
      | none => none

/-- The ranges up to the bracket that closes a class. -/
def readClass : List Char → Option (List (Char × Char) × List Char)
  | [] => none
  | ']' :: cs => some ([], cs)
  | c :: '-' :: ']' :: cs => some ([(c, c), ('-', '-')], cs)
  | c :: '-' :: d :: cs => (readClass cs).map fun r => ((c, d) :: r.1, r.2)
  | c :: cs => (readClass cs).map fun r => ((c, c) :: r.1, r.2)

def special : List Char := ['^', '$', '(', ')', '|', '*', '+', '?', '[', ']', '\x7b', '\x7d']

/-- The class a piece starts with. `.` is any character but a newline. -/
def readAtom : List Char → Option (List (Char × Char) × List Char)
  | [] => none
  | '[' :: cs => if cs.head? = some '^' then none else readClass cs
  | '\\' :: c :: cs => if c.isAlphanum then none else some ([(c, c)], cs)
  | '.' :: cs => some ([(Char.ofNat 0, Char.ofNat 9), (Char.ofNat 11, Char.ofNat 1114111)], cs)
  | c :: cs => if special.contains c then none else some ([(c, c)], cs)

def readPiece (cs : List Char) : Option (Piece × List Char) :=
  match readAtom cs with
  | none => none
  | some (ranges, '*' :: rest) => some (⟨ranges, 0, none⟩, rest)
  | some (ranges, '+' :: rest) => some (⟨ranges, 1, none⟩, rest)
  | some (ranges, '?' :: rest) => some (⟨ranges, 0, some 1⟩, rest)
  | some (ranges, '\x7b' :: rest) => (readCount 0 rest).map fun r => (⟨ranges, r.1, some r.1⟩, r.2)
  | some (ranges, rest) => some (⟨ranges, 1, some 1⟩, rest)

def readPieces : Nat → List Char → Option (List Piece)
  | _, ['$'] => some []
  | 0, _ => none
  | n + 1, cs =>
    match readPiece cs with
    | none => none
    | some (p, rest) => (readPieces n rest).map (p :: ·)

def parse (text : String) : Option (List Piece) :=
  match text.toList with
  | '^' :: cs => readPieces cs.length cs
  | _ => none

/-- What can be left of the text after the repetitions of one piece. -/
def rests (p : Char → Bool) : Nat → Option Nat → List Char → List (List Char)
  | least, _, [] => if least = 0 then [[]] else []
  | least, most, c :: cs =>
    (if least = 0 then [c :: cs] else []) ++
      if p c && most != some 0 then rests p (least - 1) (most.map (· - 1)) cs else []

def run : List Piece → List Char → Bool
  | [], cs => cs.isEmpty || cs == ['\n']
  | p :: ps, cs => (rests p.accepts p.least p.most cs).any (run ps)

/-- Whether the expression matches the text; one that is not read matches nothing. -/
def search (expression text : String) : Bool :=
  match parse expression with
  | some ps => run ps text.toList
  | none => false

example : search "^/api/[0-9a-fA-F-]\x7b4\x7d/decision$" "/api/0aF-/decision" = true := by decide

/-! ## Literal text -/

def Piece.literal (c : Char) : Piece := ⟨[(c, c)], 1, some 1⟩

theorem accepts_literal {c d : Char} : (Piece.literal c).accepts d = true ↔ d = c := by
  have h : (Piece.literal c).accepts d = (c ≤ d && d ≤ c || false) := rfl
  rw [h, Bool.or_false, Bool.and_eq_true, decide_eq_true_eq, decide_eq_true_eq]
  exact ⟨fun h => Char.le_antisymm h.2 h.1, fun h => ⟨h ▸ Char.le_refl _, h ▸ Char.le_refl _⟩⟩

theorem rests_zero (p : Char → Bool) (cs : List Char) : rests p 0 (some 0) cs = [cs] := by
  cases cs with
  | nil => rfl
  | cons c cs => simp [rests]

/-- An expression without classes and repetitions matches its own text. -/
theorem run_literal {literals cs : List Char} (h : run (literals.map Piece.literal) cs = true) :
    cs = literals ∨ cs = literals ++ ['\n'] := by
  induction literals generalizing cs with
  | nil => simpa [run, List.isEmpty_iff] using h
  | cons l literals ih =>
      cases cs with
      | nil => cases h
      | cons c cs =>
          have hrests : rests (Piece.literal l).accepts (Piece.literal l).least
              (Piece.literal l).most (c :: cs) =
              if (Piece.literal l).accepts c then [cs] else [] := by
            simp [rests, rests_zero, show (Piece.literal l).least = 1 from rfl,
              show (Piece.literal l).most = some 1 from rfl]
          rw [List.map_cons, run, hrests] at h
          split at h
          · next hc =>
            obtain rfl := accepts_literal.mp hc
            rw [List.any_cons, List.any_nil, Bool.or_false] at h
            rcases ih h with rfl | rfl
            · exact Or.inl rfl
            · exact Or.inr rfl
          · cases h

end OufGateway.Lib.Regex
