import Mathlib.Data.List.Basic
import Mathlib.Tactic.Common

/-!
# Regular expressions with alternatives, groups and lookahead

`run` gives the positions at which a match from a position can end, in the
order in which a backtracking search tries them: an earlier alternative before
a later one, another round of a greedy loop before leaving it. `search` takes
the leftmost start, and there the first end. `$` also holds before a final
newline.

`read` reads an expression from its text, alternative by alternative. It knows
characters, `.`, bracketed classes, `\d`, `\w`, `\s` and their complements,
the escapes of control characters and of punctuation, the anchors, groups
(capturing, `?:` and atomic), lookahead, and quantifiers, greedy, lazy and
possessive. An expression with anything else in it (a reference to a group,
lookbehind, an option such as `(?m)`, a property of characters) is not read.
-/

namespace OufGateway.Lib.Pattern

inductive CharSet where
  | empty
  | range (low high : Char)
  | union (a b : CharSet)
  | compl (a : CharSet)
deriving DecidableEq

def CharSet.mem : CharSet → Char → Bool
  | .empty, _ => false
  | .range low high, c => low ≤ c && c ≤ high
  | .union a b, c => a.mem c || b.mem c
  | .compl a, c => !a.mem c

def CharSet.char (c : Char) : CharSet := .range c c

def CharSet.digit : CharSet := .range '0' '9'

def CharSet.word : CharSet :=
  .union (.range 'a' 'z') (.union (.range 'A' 'Z') (.union .digit (.char '_')))

def CharSet.space : CharSet := .union (.range '\t' '\r') (.char ' ')

/-- `.` -/
def CharSet.dot : CharSet := .compl (.char '\n')

inductive Anchor where
  | start
  | finish
  | veryEnd
  | boundary
  | noBoundary
deriving DecidableEq

inductive Node where
  | empty
  | set (s : CharSet)
  | anchor (a : Anchor)
  | seq (p q : Node)
  | alt (p q : Node)
  | atomic (p : Node)
  | look (wanted : Bool) (p : Node)
  | loop (p : Node) (least : Nat) (most : Option Nat) (greedy : Bool)
deriving DecidableEq

abbrev Node.char (c : Char) : Node := .set (.char c)

/-! ## The search -/

def wordAt (text : List Char) (i : Nat) : Bool := text[i]?.any CharSet.word.mem

def Anchor.holds (text : List Char) (i : Nat) : Anchor → Bool
  | .start => i = 0
  | .finish => i = text.length || (i + 1 = text.length && text[i]? = some '\n')
  | .veryEnd => i = text.length
  | .boundary => (i ≠ 0 && wordAt text (i - 1)) != wordAt text i
  | .noBoundary => (i ≠ 0 && wordAt text (i - 1)) == wordAt text i

def times (step : Nat → List Nat) : Nat → Nat → List Nat
  | 0, i => [i]
  | n + 1, i => (step i).flatMap (times step n)

/-- The rounds of a loop that may be left. One in which nothing was matched is the last,
so that there are not more of them than characters are left, and one. -/
def rounds (step : Nat → List Nat) (greedy : Bool) : Nat → Option Nat → Nat → List Nat
  | 0, _, i => [i]
  | n + 1, most, i =>
    if most = some 0 then [i]
    else
      let more := (step i).flatMap fun j =>
        if j = i then [j] else rounds step greedy n (most.map (· - 1)) j
      if greedy then more ++ [i] else i :: more

def Node.run (text : List Char) : Node → Nat → List Nat
  | .empty, i => [i]
  | .set s, i => if text[i]?.any s.mem then [i + 1] else []
  | .anchor a, i => if a.holds text i then [i] else []
  | .seq p q, i => (p.run text i).flatMap (q.run text)
  | .alt p q, i => p.run text i ++ q.run text i
  | .atomic p, i => (p.run text i).take 1
  | .look wanted p, i => if (p.run text i).isEmpty = wanted then [] else [i]
  | .loop p least most greedy, i =>
    (times (p.run text) least i).flatMap
      (rounds (p.run text) greedy (text.length + 1) (most.map (· - least)))

/-- Start and end of the match that is found. -/
def search (p : Node) (text : List Char) : Option (Nat × Nat) :=
  (List.range (text.length + 1)).findSome? fun i => (p.run text i).head?.map (i, ·)

/-! ## The text of an expression -/

def shorthand : Char → Option CharSet
  | 'd' => some .digit
  | 'D' => some (.compl .digit)
  | 'w' => some .word
  | 'W' => some (.compl .word)
  | 's' => some .space
  | 'S' => some (.compl .space)
  | _ => none

/-- The character an escape stands for. -/
def escaped : Char → Option Char
  | 'n' => some '\n'
  | 't' => some '\t'
  | 'r' => some '\r'
  | 'f' => some '\x0c'
  | 'e' => some '\x1b'
  | 'a' => some '\x07'
  | c => if c.isAlphanum then none else some c

def Anchor.ofEscape : Char → Option Anchor
  | 'A' => some .start
  | 'Z' => some .finish
  | 'z' => some .veryEnd
  | 'b' => some .boundary
  | 'B' => some .noBoundary
  | _ => none

def readEscape (c : Char) : Option Node :=
  match shorthand c, Anchor.ofEscape c with
  | some s, _ => some (.set s)
  | none, some a => some (.anchor a)
  | none, none => (escaped c).map .char

/-- One character of a class, or a shorthand in it. -/
def readMember : List Char → Option ((Char ⊕ CharSet) × List Char)
  | [] => none
  | '\\' :: c :: cs =>
    match shorthand c with
    | some s => some (.inr s, cs)
    | none => if c = 'b' then some (.inl '\x08', cs) else (escaped c).map fun d => (.inl d, cs)
  | '[' :: c :: cs => if c = ':' || c = '.' || c = '=' then none else some (.inl '[', c :: cs)
  | c :: cs => if c = '\\' then none else some (.inl c, cs)

/-- The members up to the bracket that closes a class; in front a closing bracket is one of
them. -/
def readMembers : Nat → Bool → List Char → Option (CharSet × List Char)
  | 0, _, _ => none
  | n + 1, front, cs =>
    if cs.head? = some ']' ∧ front = false then some (.empty, cs.tail)
    else match readMember cs with
      | none => none
      | some (.inr s, rest) => (readMembers n false rest).map fun r => (.union s r.1, r.2)
      | some (.inl c, '-' :: rest) =>
        if rest.head? = some ']' then
          (readMembers n false rest).map fun r => (.union (.char c) (.union (.char '-') r.1), r.2)
        else match readMember rest with
          | some (.inl d, rest) =>
            if d < c then none
            else (readMembers n false rest).map fun r => (.union (.range c d) r.1, r.2)
          | _ => none
      | some (.inl c, rest) => (readMembers n false rest).map fun r => (.union (.char c) r.1, r.2)

def readClass (cs : List Char) : Option (Node × List Char) :=
  match cs with
  | '^' :: cs => (readMembers (cs.length + 1) true cs).map fun r => (.set (.compl r.1), r.2)
  | cs => (readMembers (cs.length + 1) true cs).map fun r => (.set r.1, r.2)

def natural (digits : List Char) : Nat := digits.foldl (fun n c => 10 * n + (c.toNat - 48)) 0

/-- `n}`, `n,}` or `n,m}`, behind an opening brace. -/
def readBound (cs : List Char) : Option ((Nat × Option Nat) × List Char) :=
  let (low, rest) := cs.span Char.isDigit
  if low = [] then none
  else match rest with
    | '\x7d' :: rest => some ((natural low, some (natural low)), rest)
    | ',' :: '\x7d' :: rest => some ((natural low, none), rest)
    | ',' :: rest =>
      let (high, rest) := rest.span Char.isDigit
      match rest with
      | '\x7d' :: rest => if high = [] then none else some ((natural low, some (natural high)), rest)
      | _ => none
    | _ => none

/-- What a bound can start with, well formed or not. -/
def opensBound (c : Char) : Bool := c.isDigit || c = ',' || c = ' ' || c = '\t'

def Node.repeatable : Node → Bool
  | .anchor _ => false
  | .look _ _ => false
  | _ => true

/-- The mode of a quantifier, and no second one behind it. -/
def readMode (p : Node) (least : Nat) (most : Option Nat) : List Char → Option (Node × List Char)
  | '?' :: cs => some (.loop p least most false, cs)
  | '+' :: cs => some (.atomic (.loop p least most true), cs)
  | cs => some (.loop p least most true, cs)

/-- The bounds of the quantifier the text starts with. A brace without bounds is a
character. -/
def readQuantifier : List Char → Option ((Nat × Option Nat) × List Char)
  | '*' :: cs => some ((0, none), cs)
  | '+' :: cs => some ((1, none), cs)
  | '?' :: cs => some ((0, some 1), cs)
  | '\x7b' :: cs => readBound cs
  | _ => none

def quantify (p : Node) (cs : List Char) : Option (Node × List Char) :=
  match readQuantifier cs with
  | none => some (p, cs)
  | some ((least, most), rest) =>
    if p.repeatable ∧ least ≤ 65535 ∧ most.all (fun m => least ≤ m && m ≤ 65535) then
      readMode p least most rest
    else none

def sequence (items : List Node) : Node := items.foldr .seq .empty

/-- One alternative or the next, and so on. -/
def alternatives : List Node → List (List Node) → Node
  | items, [] => sequence items
  | items, next :: more => .alt (sequence items) (alternatives next more)

/-- The alternatives that were read, item by item, and the text behind them. -/
structure Reading where
  first : List Node
  others : List (List Node)
  rest : List Char

def Reading.node (r : Reading) : Node := alternatives r.first r.others

/-- What is inside a group, up to the parenthesis that closes it. -/
def readGroup (inner : List Char → Option Reading) (wrap : Node → Node) (cs : List Char) :
    Option (Node × List Char) :=
  match inner cs with
  | some ⟨first, others, ')' :: rest⟩ => some (wrap (alternatives first others), rest)
  | _ => none

def readAtom (inner : List Char → Option Reading) : List Char → Option (Node × List Char)
  | [] => none
  | '(' :: '?' :: ':' :: cs => readGroup inner id cs
  | '(' :: '?' :: '>' :: cs => readGroup inner .atomic cs
  | '(' :: '?' :: '=' :: cs => readGroup inner (.look true) cs
  | '(' :: '?' :: '!' :: cs => readGroup inner (.look false) cs
  | '(' :: cs => if cs.head? = some '?' then none else readGroup inner id cs
  | '[' :: cs => readClass cs
  | '.' :: cs => some (.set .dot, cs)
  | '^' :: cs => some (.anchor .start, cs)
  | '$' :: cs => some (.anchor .finish, cs)
  | '\\' :: c :: cs => (readEscape c).map fun p => (p, cs)
  | c :: cs =>
    if c = '\\' || c = '*' || c = '+' || c = '?' || (c = '\x7b' && cs.head?.any opensBound) then none
    else some (.char c, cs)

def readItem (inner : List Char → Option Reading) (cs : List Char) : Option (Node × List Char) :=
  match readAtom inner cs with
  | none => none
  | some (p, rest) => quantify p rest

/-- The alternatives up to the end or a closing parenthesis. Every step reads a character
at least, so that a step for each is enough, and one for the end. -/
def readAll : Nat → List Char → Option Reading
  | 0, _ => none
  | n + 1, cs =>
    match cs with
    | [] => some ⟨[], [], []⟩
    | ')' :: _ => some ⟨[], [], cs⟩
    | '|' :: rest => (readAll n rest).map fun r => ⟨[], r.first :: r.others, r.rest⟩
    | _ =>
      match readItem (readAll n) cs with
      | none => none
      | some (p, rest) => (readAll n rest).map fun r => ⟨p :: r.first, r.others, r.rest⟩

def read (text : List Char) : Option Reading :=
  (readAll (text.length + 1) text).filter (·.rest.isEmpty)

/-- The match that is found with an expression that is read. -/
def searchText (expression text : List Char) : Option (Nat × Nat) :=
  (read expression).bind fun r => search r.node text

end OufGateway.Lib.Pattern
