import Mathlib
import OufGateway.Lib.Json

/-!
# The size of a JSON text

A text is at least as large as the text of each of its members, and a quoted string
has at least one byte for each character. A limit on the bytes of a document is
therefore a limit on everything in it.
-/

namespace OufGateway.Lib.Json

theorem size_le_intercalate {separator x : String} {xs : List String} (h : x ∈ xs) :
    x.utf8ByteSize ≤ (separator.intercalate xs).utf8ByteSize := by
  induction xs with
  | nil => cases h
  | cons y ys ih =>
      cases ys with
      | nil =>
          rw [List.mem_singleton.mp h, String.intercalate_singleton]
      | cons z zs =>
          rw [String.intercalate_cons_cons, String.utf8ByteSize_append,
            String.utf8ByteSize_append]
          rcases List.mem_cons.mp h with rfl | h
          · omega
          · have := ih h
            omega

theorem dumpsList_eq (f : Format) (items : List Json) : dumpsList f items = items.map (dumps f) := by
  induction items with
  | nil => rw [dumpsList, List.map_nil]
  | cons x xs ih => rw [dumpsList, ih, List.map_cons]

theorem dumpsMembers_eq (f : Format) (members : List (String × Json)) :
    dumpsMembers f members = members.map fun m => (m.1, dumps f m.2) := by
  induction members with
  | nil => rw [dumpsMembers, List.map_nil]
  | cons m members ih => rw [dumpsMembers, ih, List.map_cons]

theorem size_item_le {f : Format} {items : List Json} {x : Json} (h : x ∈ items) :
    (dumps f x).utf8ByteSize ≤ (dumps f (.arr items)).utf8ByteSize := by
  have hmem : dumps f x ∈ dumpsList f items := by
    rw [dumpsList_eq]
    exact List.mem_map_of_mem h
  have := @size_le_intercalate f.itemSeparator _ _ hmem
  rw [dumps, String.utf8ByteSize_append, String.utf8ByteSize_append]
  omega

theorem mem_arrange {f : Format} {members : List (String × String)} {m : String × String} :
    m ∈ arrange f members ↔ m ∈ members := by
  unfold arrange
  split
  · exact (List.mergeSort_perm _ _).mem_iff
  · exact Iff.rfl

theorem size_member_le {f : Format} {members : List (String × Json)} {key : String} {x : Json}
    (h : (key, x) ∈ members) :
    (dumps f x).utf8ByteSize ≤ (dumps f (.obj members)).utf8ByteSize := by
  have hmem : render f (key, dumps f x) ∈ (arrange f (dumpsMembers f members)).map (render f) := by
    refine List.mem_map_of_mem (mem_arrange.mpr ?_)
    rw [dumpsMembers_eq]
    exact List.mem_map_of_mem (f := fun m => (m.1, dumps f m.2)) h
  have := @size_le_intercalate f.itemSeparator _ _ hmem
  rw [render, String.utf8ByteSize_append, String.utf8ByteSize_append] at this
  simp only [] at this
  rw [dumps, String.utf8ByteSize_append, String.utf8ByteSize_append]
  omega

theorem hexEscape_ne_empty (n : Nat) : hexEscape n ≠ "" := by
  intro h
  have hlist := congrArg String.toList h
  rw [hexEscape, String.toList_ofList, String.toList_empty] at hlist
  exact List.cons_ne_nil _ _ hlist

theorem escapeChar_ne_empty (ensureAscii : Bool) (c : Char) : escapeChar ensureAscii c ≠ "" := by
  unfold escapeChar
  split
  · decide
  split
  · decide
  split
  · decide
  split
  · decide
  split
  · decide
  split
  · decide
  split
  · decide
  split
  · exact hexEscape_ne_empty _
  split
  · split
    · exact hexEscape_ne_empty _
    · exact fun h => hexEscape_ne_empty _ (String.append_eq_empty_iff.mp h).1
  · exact String.singleton_ne_empty

theorem length_le_quote (ensureAscii : Bool) (s : String) :
    s.length ≤ (quote ensureAscii s).utf8ByteSize := by
  have hjoin : ∀ cs : List Char,
      cs.length ≤ (String.join (cs.map (escapeChar ensureAscii))).utf8ByteSize := by
    intro cs
    induction cs with
    | nil => exact Nat.zero_le _
    | cons c cs ih =>
        have hpos : (escapeChar ensureAscii c).utf8ByteSize ≠ 0 := fun hzero =>
          escapeChar_ne_empty ensureAscii c (String.utf8ByteSize_eq_zero_iff.mp hzero)
        rw [List.length_cons, List.map_cons, String.join_cons, String.utf8ByteSize_append]
        omega
  have := hjoin s.toList
  rw [String.length_toList] at this
  rw [quote, String.utf8ByteSize_append, String.utf8ByteSize_append]
  omega

end OufGateway.Lib.Json
