import Mathlib

/-!
# Lua values and strings

Strings of Lua are bytes. They are compared byte by byte, split into words by
`gmatch("%S+")`, and joined by `table.concat`; `words_join` says when words come
back from a joined string. A table is what `pairs` goes through, in an order of its
own, with what `#` gives of it: of a list that is its length, but of a table with
holes it may be any border. Tables have no metatables here.
-/

namespace OufGateway.Lib.Lua

abbrev Bytes := List UInt8

inductive Number
  | finite (q : ℚ)
  | inf (negative : Bool)
  | nan

inductive Value
  | nil
  | bool (b : Bool)
  | number (x : Number)
  | string (s : Bytes)
  | table (entries : List (Value × Value)) (length : Nat)
  /-- `cjson.null`, functions and what else a program has no business with. -/
  | other

/-! ## Numbers -/

namespace Number

/-- `x < y`. -/
def lt : Number → Number → Bool
  | finite p, finite q => p < q
  | finite _, inf negative => !negative
  | inf negative, finite _ => negative
  | inf m, inf n => m && !n
  | _, _ => false

/-- `x <= y`. -/
def le : Number → Number → Bool
  | finite p, finite q => p ≤ q
  | finite _, inf negative => !negative
  | inf negative, finite _ => negative
  | inf m, inf n => m || !n
  | _, _ => false

/-- `x - y`. -/
def sub : Number → Number → Number
  | finite p, finite q => finite (p - q)
  | finite _, inf negative => inf (!negative)
  | inf negative, finite _ => inf negative
  | inf m, inf n => if m = n then nan else inf m
  | _, _ => nan

/-- `math.min(x, y)`. -/
def min (x y : Number) : Number := if y.lt x then y else x

end Number

def ofNat (n : Nat) : Value := .number (.finite n)

/-- The entries of a list from an index on. -/
def indexed : Nat → List Value → List (Value × Value)
  | _, [] => []
  | i, v :: vs => (ofNat i, v) :: indexed (i + 1) vs

/-- `{v1, v2, ...}`. -/
def list (vs : List Value) : Value := .table (indexed 1 vs) vs.length

/-- A table that has the values of a list under `1, 2, ...`, in whatever order it goes through
them. -/
def Lists (t : Value) (vs : List Value) : Prop :=
  ∃ entries, t = .table entries vs.length ∧ entries.Perm (indexed 1 vs)

theorem lists_list (vs : List Value) : Lists (list vs) vs := ⟨_, rfl, .refl _⟩

theorem map_indexed (i : Nat) (vs : List Value) : (indexed i vs).map (·.2) = vs := by
  induction vs generalizing i with
  | nil => rfl
  | cons v vs ih => exact congrArg (v :: ·) (ih (i + 1))

theorem mem_indexed {i : Nat} {vs : List Value} {e : Value × Value} (h : e ∈ indexed i vs) :
    ∃ j, i ≤ j ∧ j < i + vs.length ∧ e.1 = ofNat j := by
  induction vs generalizing i with
  | nil => cases h
  | cons v vs ih =>
      rcases List.mem_cons.mp h with rfl | h
      · exact ⟨i, le_rfl, by simp, rfl⟩
      · obtain ⟨j, hij, hj, he⟩ := ih h
        exact ⟨j, by omega, by simp; omega, he⟩

/-! ## Reading tables -/

namespace Value

def isString (s : Bytes) : Value → Bool
  | string t => t = s
  | _ => false

def isNat (n : Nat) : Value → Bool
  | number (.finite q) => q = n
  | _ => false

def truthy : Value → Bool
  | nil => false
  | bool b => b
  | _ => true

/-- `v or w`. -/
def or (v w : Value) : Value := if v.truthy then v else w

/-- The value under the first key that is the one looked for; a table has a key once. -/
def lookup (isKey : Value → Bool) : Value → Value
  | table entries _ => ((entries.find? fun e => isKey e.1).map (·.2)).getD nil
  | _ => nil

/-- `t[s]`. -/
def field (t : Value) (s : Bytes) : Value := t.lookup (isString s)

/-- `t[1]`, `t[2]` and so on, up to what `#t` gives. -/
def items (entries : List (Value × Value)) (length : Nat) : List Value :=
  (List.range length).map fun i => (table entries length).lookup (isNat (i + 1))

/-- What `ipairs` goes through: `t[1]`, `t[2]` and so on, up to the first that is not there. -/
def ipairs : Value → List Value
  | table entries length =>
    ((List.range entries.length).map fun i => (table entries length).lookup (isNat (i + 1))).takeWhile fun v =>
      match v with
      | nil => false
      | _ => true
  | _ => []

/-- `v == w`, of values that were decoded apart: then no table is the other. -/
def same : Value → Value → Bool
  | nil, nil => true
  | bool a, bool b => a = b
  | number (.finite p), number (.finite q) => p = q
  | number (.inf m), number (.inf n) => m = n
  | string s, string t => s = t
  | other, other => true
  | _, _ => false

end Value

/-! ## The order of strings -/

def le (s t : Bytes) : Prop := s.map UInt8.toNat ≤ t.map UInt8.toNat

instance : DecidableRel le := fun s t => inferInstanceAs (Decidable (s.map UInt8.toNat ≤ t.map UInt8.toNat))

theorem le_trans {s t u : Bytes} (hst : le s t) (htu : le t u) : le s u := Preorder.le_trans _ _ _ hst htu

theorem le_antisymm {s t : Bytes} (hst : le s t) (hts : le t s) : s = t :=
  List.map_injective_iff.mpr (fun _ _ => UInt8.toNat_inj.mp) (PartialOrder.le_antisymm _ _ hst hts)

instance : Std.Total le := ⟨fun s t => le_total (s.map UInt8.toNat) (t.map UInt8.toNat)⟩

instance : IsTrans Bytes le := ⟨fun _ _ _ => le_trans⟩

/-- `table.sort`. -/
def sort (ss : List Bytes) : List Bytes := ss.insertionSort le

theorem perm_sort (ss : List Bytes) : (sort ss).Perm ss := List.perm_insertionSort le ss

theorem sorted_sort (ss : List Bytes) : (sort ss).Pairwise le := List.pairwise_insertionSort le ss

/-- There is one order to sort strings in. -/
theorem sort_unique {ss ts : List Bytes} (hperm : ts.Perm ss) (hsorted : ts.Pairwise le) : ts = sort ss :=
  (hperm.trans (perm_sort ss).symm).eq_of_pairwise (fun _ _ _ _ => le_antisymm) hsorted (sorted_sort ss)

theorem sort_perm {ss ts : List Bytes} (h : ss.Perm ts) : sort ss = sort ts :=
  sort_unique ((perm_sort ss).trans h) (sorted_sort ss)

/-! ## Words -/

/-- `%s`. -/
def isSpace (b : UInt8) : Bool := b = 32 || (9 ≤ b && b ≤ 13)

/-- `%c`. -/
def isControl (b : UInt8) : Bool := b < 32 || b = 127

/-- The words of a string, after a piece of one. -/
def wordsFrom (word : Bytes) : Bytes → List Bytes
  | [] => if word = [] then [] else [word]
  | b :: bs =>
    if isSpace b then if word = [] then wordsFrom [] bs else word :: wordsFrom [] bs
    else wordsFrom (word ++ [b]) bs

/-- `s:gmatch("%S+")`. -/
def words (s : Bytes) : List Bytes := wordsFrom [] s

/-- `table.concat(ss, " ")`. -/
def join : List Bytes → Bytes
  | [] => []
  | [s] => s
  | s :: ss => s ++ 32 :: join ss

/-- How values that are no strings are written out: never as nothing. -/
structure Printer where
  text : Value → Bytes
  nonempty : ∀ v, text v ≠ []

namespace Printer

variable (p : Printer)

def tostring : Value → Bytes
  | .string s => s
  | v => p.text v

/-- What `table.concat` takes for an item. -/
def piece : Value → Option Bytes
  | .string s => some s
  | .number x => some (p.text (.number x))
  | _ => none

/-- `table.concat(t, " ")`, which raises if an item is neither string nor number. -/
def concat (entries : List (Value × Value)) (length : Nat) : Option Bytes :=
  ((Value.items entries length).mapM p.piece).map join

end Printer

/-- What a word is made of. -/
def IsWord (s : Bytes) : Prop := s ≠ [] ∧ ∀ b ∈ s, isSpace b = false

theorem wordsFrom_word {word s : Bytes} (hs : ∀ b ∈ s, isSpace b = false) (rest : Bytes) :
    wordsFrom word (s ++ rest) = wordsFrom (word ++ s) rest := by
  induction s generalizing word with
  | nil => rw [List.nil_append, List.append_nil]
  | cons b s ih =>
      have hb := hs b List.mem_cons_self
      rw [List.cons_append, wordsFrom, hb, if_neg Bool.false_ne_true,
        ih fun c hc => hs c (List.mem_cons_of_mem _ hc), List.append_assoc]
      rfl

/-- Words that were joined are found again. -/
theorem words_join {ss : List Bytes} (h : ∀ s ∈ ss, IsWord s) : words (join ss) = ss := by
  induction ss with
  | nil => rfl
  | cons s ss ih =>
      obtain ⟨hne, hs⟩ := h s List.mem_cons_self
      have ih := ih fun t ht => h t (List.mem_cons_of_mem _ ht)
      cases ss with
      | nil =>
          have hfrom : wordsFrom [] (s ++ []) = wordsFrom ([] ++ s) [] := wordsFrom_word hs []
          rw [List.append_nil, List.nil_append] at hfrom
          rw [join, words, hfrom, wordsFrom, if_neg hne]
      | cons t ss =>
          have hjoin : join (s :: t :: ss) = s ++ 32 :: join (t :: ss) := rfl
          have hspace : isSpace 32 = true := rfl
          rw [hjoin, words, wordsFrom_word hs, List.nil_append, wordsFrom, if_pos hspace, if_neg hne]
          exact congrArg (s :: ·) ih

end OufGateway.Lib.Lua
