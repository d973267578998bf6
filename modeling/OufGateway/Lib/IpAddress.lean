import Mathlib

/-!
# Addresses and their classes

IPv4 and IPv6 addresses, blocks of them, and the classes `ipaddress` of Python
3.13 puts them in: an IPv4-mapped address has those of the IPv4 address in it. A
block is the addresses that have its leading bits, from its network address on.

`isPrivate` is not the negation of being globally reachable, and the six classes
do not cover what is not. `Reachable` is the other side of it, from the registries
of special-purpose addresses: a block of theirs counts unless they say that it is
globally reachable, and of IPv6 only `2000::/3` is given out. What is in no class
and not reachable is `Between`: it is three blocks.
-/

namespace OufGateway.Lib.Ip

/-! ## Blocks -/

structure Block where
  /-- The bits of an address. -/
  width : Nat
  base : Nat
  len : Nat

namespace Block

def size (b : Block) : Nat := 2 ^ (b.width - b.len)

def has (b : Block) (n : Nat) : Bool := b.base ≤ n && n < b.base + b.size

def within (b c : Block) : Bool := c.base ≤ b.base && b.base + b.size ≤ c.base + c.size

/-- The blocks follow one another from the first number to the second. -/
def tiles : List Block → Nat → Nat → Bool
  | [], lo, hi => lo = hi
  | b :: bs, lo, hi => b.base = lo && tiles bs (lo + b.size) hi

def anyHas (bs : List Block) (n : Nat) : Bool := bs.any (·.has n)

variable {b c : Block} {bs cs : List Block} {n lo hi : Nat}

theorem has_iff : b.has n = true ↔ b.base ≤ n ∧ n < b.base + b.size := by
  rw [has, Bool.and_eq_true, decide_eq_true_eq, decide_eq_true_eq]

theorem has_of_within (h : b.within c = true) (hn : b.has n = true) : c.has n = true := by
  rw [within, Bool.and_eq_true, decide_eq_true_eq, decide_eq_true_eq] at h
  rw [has_iff] at hn ⊢
  omega

theorem anyHas_iff : anyHas bs n = true ↔ ∃ b ∈ bs, b.has n = true := List.any_eq_true

theorem anyHas_append : anyHas (bs ++ cs) n = (anyHas bs n || anyHas cs n) := List.any_append

theorem anyHas_of_within (h : bs.all (fun b => cs.any (b.within ·)) = true)
    (hn : anyHas bs n = true) : anyHas cs n = true := by
  obtain ⟨b, hb, hbn⟩ := anyHas_iff.mp hn
  obtain ⟨c, hc, hbc⟩ := List.any_eq_true.mp (List.all_eq_true.mp h b hb)
  exact anyHas_iff.mpr ⟨c, hc, has_of_within hbc hbn⟩

def apart (b c : Block) : Bool := b.base + b.size ≤ c.base || c.base + c.size ≤ b.base

theorem not_has_of_apart (h : b.apart c = true) (hn : b.has n = true) : c.has n = false := by
  rw [apart, Bool.or_eq_true, decide_eq_true_eq, decide_eq_true_eq] at h
  rw [has_iff] at hn
  rw [← Bool.not_eq_true, has_iff]
  omega

theorem not_anyHas_of_apart (h : bs.all (fun b => cs.all (b.apart ·)) = true)
    (hn : anyHas bs n = true) : anyHas cs n = false := by
  obtain ⟨b, hb, hbn⟩ := anyHas_iff.mp hn
  rw [← Bool.not_eq_true, anyHas_iff]
  intro hcs
  obtain ⟨c, hc, hcn⟩ := hcs
  have hbc := List.all_eq_true.mp (List.all_eq_true.mp h b hb) c hc
  rw [not_has_of_apart hbc hbn] at hcn
  cases hcn

theorem anyHas_of_tiles (h : tiles bs lo hi = true) (hlo : lo ≤ n) (hhi : n < hi) :
    anyHas bs n = true := by
  induction bs generalizing lo with
  | nil =>
      rw [tiles, decide_eq_true_eq] at h
      omega
  | cons b bs ih =>
      rw [tiles, Bool.and_eq_true, decide_eq_true_eq] at h
      obtain ⟨hbase, hrest⟩ := h
      rw [anyHas, List.any_cons, Bool.or_eq_true]
      by_cases hn : n < lo + b.size
      · left
        rw [has_iff]
        omega
      · right
        exact ih hrest (by omega)

end Block

/-! ## Addresses -/

inductive Address
  | v4 (bits : BitVec 32)
  | v6 (bits : BitVec 128)
deriving DecidableEq

namespace Address

/-- `ipv4_mapped`, where there is one. -/
def unmapped : Address → Address
  | v4 bits => v4 bits
  | v6 bits => if bits.toNat / 2 ^ 32 = 0xffff then v4 (bits.setWidth 32) else v6 bits

end Address

def quad (a b c d : Nat) : Nat := ((a * 256 + b) * 256 + c) * 256 + d

/-- The address that begins with these groups and goes on with zeros. -/
def groups (gs : List Nat) : Nat :=
  gs.foldl (fun n g => n * 65536 + g) 0 * 65536 ^ (8 - gs.length)

def net4 (a b c d len : Nat) : Block := ⟨32, quad a b c d, len⟩

def net6 (gs : List Nat) (len : Nat) : Block := ⟨128, groups gs, len⟩

/-! ## The classes of `ipaddress` -/

def loopback4 : Block := net4 127 0 0 0 8

def linkLocal4 : Block := net4 169 254 0 0 16

def multicast4 : Block := net4 224 0 0 0 4

def reserved4 : Block := net4 240 0 0 0 4

def private4 : List Block :=
  [net4 0 0 0 0 8, net4 10 0 0 0 8, net4 127 0 0 0 8, net4 169 254 0 0 16, net4 172 16 0 0 12,
    net4 192 0 0 0 24, net4 192 0 0 170 31, net4 192 0 2 0 24, net4 192 168 0 0 16,
    net4 198 18 0 0 15, net4 198 51 100 0 24, net4 203 0 113 0 24, net4 240 0 0 0 4,
    net4 255 255 255 255 32]

def privateExceptions4 : List Block := [net4 192 0 0 9 32, net4 192 0 0 10 32]

def linkLocal6 : Block := net6 [0xfe80] 10

def multicast6 : Block := net6 [0xff00] 8

def reserved6 : List Block :=
  [net6 [0] 8, net6 [0x100] 8, net6 [0x200] 7, net6 [0x400] 6, net6 [0x800] 5, net6 [0x1000] 4,
    net6 [0x4000] 3, net6 [0x6000] 3, net6 [0x8000] 3, net6 [0xa000] 3, net6 [0xc000] 3,
    net6 [0xe000] 4, net6 [0xf000] 5, net6 [0xf800] 6, net6 [0xfe00] 9]

def private6 : List Block :=
  [net6 [0, 0, 0, 0, 0, 0, 0, 1] 128, net6 [0] 128, net6 [0, 0, 0, 0, 0, 0xffff] 96,
    net6 [0x64, 0xff9b, 1] 48, net6 [0x100] 64, net6 [0x2001] 23, net6 [0x2001, 0xdb8] 32,
    net6 [0x2002] 16, net6 [0x3fff] 20, net6 [0xfc00] 7, net6 [0xfe80] 10]

def privateExceptions6 : List Block :=
  [net6 [0x2001, 1, 0, 0, 0, 0, 0, 1] 128, net6 [0x2001, 1, 0, 0, 0, 0, 0, 2] 128,
    net6 [0x2001, 3] 32, net6 [0x2001, 4, 0x112] 48, net6 [0x2001, 0x20] 28,
    net6 [0x2001, 0x30] 28]

namespace Address

/-- A class by what it says of an IPv4 and of an IPv6 address. -/
def classify (of4 of6 : Nat → Bool) (a : Address) : Bool :=
  match a.unmapped with
  | v4 bits => of4 bits.toNat
  | v6 bits => of6 bits.toNat

def isLoopback : Address → Bool := classify loopback4.has fun n => n = 1

def isLinkLocal : Address → Bool := classify linkLocal4.has linkLocal6.has

def isMulticast : Address → Bool := classify multicast4.has multicast6.has

def isUnspecified : Address → Bool := classify (fun n => n = 0) fun n => n = 0

def isReserved : Address → Bool := classify reserved4.has (Block.anyHas reserved6)

def isPrivate : Address → Bool :=
  classify (fun n => Block.anyHas private4 n && !Block.anyHas privateExceptions4 n)
    fun n => Block.anyHas private6 n && !Block.anyHas privateExceptions6 n

end Address

/-! ## What is globally reachable -/

/-- The blocks of the IPv4 registry that it does not call globally reachable. -/
def special4 : List Block :=
  [net4 0 0 0 0 8, net4 0 0 0 0 32, net4 10 0 0 0 8, net4 100 64 0 0 10, net4 127 0 0 0 8,
    net4 169 254 0 0 16, net4 172 16 0 0 12, net4 192 0 0 0 24, net4 192 0 0 0 29,
    net4 192 0 0 8 32, net4 192 0 0 170 32, net4 192 0 0 171 32, net4 192 0 2 0 24,
    net4 192 88 99 0 24, net4 192 168 0 0 16, net4 198 18 0 0 15, net4 198 51 100 0 24,
    net4 203 0 113 0 24, net4 240 0 0 0 4, net4 255 255 255 255 32]

/-- The blocks in them that it does. -/
def specialExceptions4 : List Block := [net4 192 0 0 9 32, net4 192 0 0 10 32]

def globalUnicast6 : Block := net6 [0x2000] 3

/-- The same of IPv6, within what is given out. -/
def special6 : List Block :=
  [net6 [0x2001] 23, net6 [0x2001] 32, net6 [0x2001, 2] 48, net6 [0x2001, 0x10] 28,
    net6 [0x2001, 0xdb8] 32, net6 [0x2002] 16, net6 [0x3fff] 20]

def specialExceptions6 : List Block :=
  [net6 [0x2001, 1, 0, 0, 0, 0, 0, 1] 128, net6 [0x2001, 1, 0, 0, 0, 0, 0, 2] 128,
    net6 [0x2001, 1, 0, 0, 0, 0, 0, 3] 128, net6 [0x2001, 3] 32, net6 [0x2001, 4, 0x112] 48,
    net6 [0x2001, 0x20] 28, net6 [0x2001, 0x30] 28]

/-- Shared address space, and the deprecated anycast of 6to4 relays. -/
def between4 : List Block := [net4 100 64 0 0 10, net4 192 88 99 0 24]

/-- The deprecated site-local addresses. -/
def between6 : List Block := [net6 [0xfec0] 10]

namespace Address

def Reachable (a : Address) : Prop :=
  a.classify
    (fun n => !multicast4.has n && (!Block.anyHas special4 n || Block.anyHas specialExceptions4 n))
    (fun n => globalUnicast6.has n &&
      (!Block.anyHas special6 n || Block.anyHas specialExceptions6 n)) = true

def Between (a : Address) : Prop := a.classify (Block.anyHas between4) (Block.anyHas between6) = true

instance (a : Address) : Decidable a.Reachable := inferInstanceAs (Decidable (_ = true))

instance (a : Address) : Decidable a.Between := inferInstanceAs (Decidable (_ = true))

end Address

/-! ## The classes and what they leave -/

open Block

variable {n : Nat}

theorem reachable4_iff (hmulticast : multicast4.has n = false)
    (hprivate : (anyHas private4 n && !anyHas privateExceptions4 n) = false) :
    (!multicast4.has n && (!anyHas special4 n || anyHas specialExceptions4 n)) = true ↔
      ¬ anyHas between4 n = true := by
  have hspecial : anyHas special4 n = true → anyHas (private4 ++ between4) n = true :=
    anyHas_of_within (by decide)
  have hbetween : anyHas between4 n = true → anyHas special4 n = true :=
    anyHas_of_within (by decide)
  have hapart : anyHas between4 n = true → anyHas specialExceptions4 n = false :=
    not_anyHas_of_apart (by decide)
  have hexceptions : anyHas privateExceptions4 n = anyHas specialExceptions4 n := rfl
  rw [anyHas_append, Bool.or_eq_true] at hspecial
  rw [hexceptions] at hprivate
  rw [hmulticast, Bool.not_false, Bool.true_and]
  constructor
  · intro hreach hbetw
    rw [hbetween hbetw, hapart hbetw] at hreach
    cases hreach
  · intro hbetw
    cases hs : anyHas special4 n with
    | false => rfl
    | true =>
        rcases hspecial hs with hpriv | hbad
        · simpa [hpriv] using hprivate
        · exact absurd hbad hbetw

/-- Outside of `2000::/3` an IPv6 address is in a class, or it is site-local. -/
theorem classes_tile6 (hn : n < 2 ^ 128) (hglobal : globalUnicast6.has n = false) :
    anyHas (reserved6 ++ [net6 [0xfc00] 7, linkLocal6, multicast6] ++ between6) n = true := by
  have hedges : globalUnicast6.base = 0x2000 * 2 ^ 112 ∧ globalUnicast6.size = 2 ^ 125 := by decide
  rw [← Bool.not_eq_true, has_iff, hedges.1, hedges.2] at hglobal
  by_cases hlow : n < 0x2000 * 2 ^ 112
  · have hfirst : anyHas (reserved6.take 6) n = true :=
      anyHas_of_tiles (by decide) (Nat.zero_le n) hlow
    exact anyHas_of_within (by decide) hfirst
  · have hrest : anyHas (reserved6.drop 6 |>.take 8) n = true ∨ 0xfc00 * 2 ^ 112 ≤ n := by
      by_cases hhigh : n < 0xfc00 * 2 ^ 112
      · have hlo : 0x4000 * 2 ^ 112 ≤ n := by omega
        exact Or.inl (anyHas_of_tiles (by decide) hlo hhigh)
      · exact Or.inr (by omega)
    rcases hrest with hreserved | htop
    · exact anyHas_of_within (by decide) hreserved
    · have hlast : anyHas [net6 [0xfc00] 7, net6 [0xfe00] 9, linkLocal6, net6 [0xfec0] 10,
          multicast6] n = true := anyHas_of_tiles (by decide) htop hn
      exact anyHas_of_within (by decide) hlast

theorem reachable6_iff (hn : n < 2 ^ 128) (hlink : linkLocal6.has n = false)
    (hmulticast : multicast6.has n = false) (hreserved : anyHas reserved6 n = false)
    (hprivate : (anyHas private6 n && !anyHas privateExceptions6 n) = false) :
    (globalUnicast6.has n && (!anyHas special6 n || anyHas specialExceptions6 n)) = true ↔
      ¬ anyHas between6 n = true := by
  have hunique : globalUnicast6.has n = anyHas [globalUnicast6] n := (Bool.or_false _).symm
  cases hglobal : globalUnicast6.has n with
  | true =>
      have hspecial : anyHas special6 n = true → anyHas private6 n = true :=
        anyHas_of_within (by decide)
      have hexceptions : anyHas privateExceptions6 n = true → anyHas specialExceptions6 n = true :=
        anyHas_of_within (by decide)
      have hlisted : anyHas [globalUnicast6] n = true := hunique ▸ hglobal
      have hbetween : anyHas between6 n = false := not_anyHas_of_apart (by decide) hlisted
      rw [hbetween, Bool.true_and]
      cases hs : anyHas special6 n with
      | false => simp
      | true =>
          have hexcepted : anyHas privateExceptions6 n = true := by
            simpa [hspecial hs] using hprivate
          simp [hexceptions hexcepted]
  | false =>
      have htiles := classes_tile6 hn hglobal
      rw [anyHas_append, anyHas_append, hreserved] at htiles
      have hlocal : anyHas [net6 [0xfc00] 7] n = false := by
        rw [← Bool.not_eq_true]
        intro hfc
        have hpriv : anyHas private6 n = true := anyHas_of_within (by decide) hfc
        have hexcepted : anyHas privateExceptions6 n = false := not_anyHas_of_apart (by decide) hfc
        rw [hpriv, hexcepted] at hprivate
        cases hprivate
      have hbetween : anyHas between6 n = true := by
        simpa [anyHas, hlink, hmulticast, show (net6 [0xfc00] 7).has n = false by
          simpa [anyHas] using hlocal] using htiles
      simp [hbetween]

namespace Address

variable {a : Address}

/-- The six tests leave what is reachable, and three blocks. -/
theorem reachable_iff (hlink : a.isLinkLocal = false) (hmulticast : a.isMulticast = false)
    (hreserved : a.isReserved = false) (hprivate : a.isPrivate = false) :
    a.Reachable ↔ ¬ a.Between := by
  unfold Reachable Between
  unfold isLinkLocal at hlink
  unfold isMulticast at hmulticast
  unfold isReserved at hreserved
  unfold isPrivate at hprivate
  unfold classify at *
  cases hform : a.unmapped with
  | v4 bits =>
      simp only [hform] at hlink hmulticast hreserved hprivate ⊢
      exact reachable4_iff hmulticast hprivate
  | v6 bits =>
      simp only [hform] at hlink hmulticast hreserved hprivate ⊢
      exact reachable6_iff bits.isLt hlink hmulticast hreserved hprivate

end Address

end OufGateway.Lib.Ip
