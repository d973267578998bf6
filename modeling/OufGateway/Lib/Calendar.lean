import Mathlib

/-!
# Dates, times and their texts

The proleptic Gregorian calendar from year 1 to year 9999, with the time of day in
microseconds. `DateTime` carries the bounds of its fields, so a date that is not in the
calendar cannot be built. `instant` counts the microseconds since the first of them,
and `ofInstant?` is its inverse where there is one (`instant_ofInstant?`).

`isoformat` writes the fraction of a second only where it is not zero. Texts of two
dates compare as the dates do up to the second, since every field has its width; within
one second it is the character behind the second that decides (`isoformat_lt_iff`).
-/

namespace OufGateway.Lib

namespace Calendar

/-! ## Years and months -/

def isLeap (y : Nat) : Bool := y % 4 = 0 && (y % 100 ≠ 0 || y % 400 = 0)

def daysInMonth (y m : Nat) : Nat :=
  if m = 2 then (if isLeap y then 29 else 28)
  else if m = 4 ∨ m = 6 ∨ m = 9 ∨ m = 11 then 30
  else 31

/-- The days before the first of January. -/
def daysBeforeYear (y : Nat) : Nat := (y - 1) * 365 + (y - 1) / 4 - (y - 1) / 100 + (y - 1) / 400

/-- The days of the year before the first of the month. -/
def daysBeforeMonth (y : Nat) : Nat → Nat
  | 0 => 0
  | 1 => 0
  | m + 2 => daysBeforeMonth y (m + 1) + daysInMonth y (m + 1)

variable {y y' m m' : Nat}

theorem daysInMonth_pos : 0 < daysInMonth y m := by
  unfold daysInMonth
  split
  · split <;> decide
  · split <;> decide

theorem daysInMonth_le : daysInMonth y m ≤ 31 := by
  unfold daysInMonth
  split
  · split <;> decide
  · split <;> decide

theorem daysBeforeYear_succ (hy : 1 ≤ y) :
    daysBeforeYear (y + 1) = daysBeforeYear y + daysBeforeMonth y 13 := by
  have hyear : daysBeforeMonth y 13 = 337 + daysInMonth y 2 := by
    cases h : isLeap y <;> simp [daysBeforeMonth, daysInMonth, h]
  rw [hyear]
  obtain ⟨k, rfl⟩ := Nat.exists_eq_add_of_le' hy
  have hfebruary : daysInMonth (k + 1) 2 =
      if 4 ∣ k + 1 ∧ (¬ 100 ∣ k + 1 ∨ 400 ∣ k + 1) then 29 else 28 := by
    simp [daysInMonth, isLeap, Nat.dvd_iff_mod_eq_zero]
  have hless : k / 100 ≤ k / 4 := Nat.div_le_div_left (by decide) (by decide)
  have h100 : 100 ∣ k + 1 → 4 ∣ k + 1 := (show 4 ∣ 100 by decide).trans
  have h400 : 400 ∣ k + 1 → 100 ∣ k + 1 := (show 100 ∣ 400 by decide).trans
  simp only [daysBeforeYear, Nat.add_sub_cancel]
  rw [hfebruary, Nat.succ_div (b := 4), Nat.succ_div (b := 100), Nat.succ_div (b := 400)]
  generalize k / 4 = a at hless ⊢
  generalize k / 100 = b at hless ⊢
  generalize k / 400 = c
  by_cases h1 : 4 ∣ k + 1
  · by_cases h2 : 100 ∣ k + 1
    · by_cases h3 : 400 ∣ k + 1
      · rw [if_pos h1, if_pos h2, if_pos h3, if_pos ⟨h1, Or.inr h3⟩]
        omega
      · rw [if_pos h1, if_pos h2, if_neg h3, if_neg (by simp [h2, h3])]
        omega
    · rw [if_pos h1, if_neg h2, if_neg (mt h400 h2), if_pos ⟨h1, Or.inl h2⟩]
      omega
  · rw [if_neg h1, if_neg (mt h100 h1), if_neg (fun h => h1 (h100 (h400 h))), if_neg (fun h => h1 h.1)]
    omega

theorem daysBeforeYear_mono (h : y ≤ y') (hy : 1 ≤ y) : daysBeforeYear y ≤ daysBeforeYear y' := by
  induction y', h using Nat.le_induction with
  | base => exact le_rfl
  | succ n hle ih =>
      rw [daysBeforeYear_succ (hy.trans hle)]
      exact ih.trans (Nat.le_add_right _ _)

theorem daysBeforeMonth_succ (hm : 1 ≤ m) :
    daysBeforeMonth y (m + 1) = daysBeforeMonth y m + daysInMonth y m := by
  obtain ⟨k, rfl⟩ := Nat.exists_eq_add_of_le' hm
  rfl

theorem daysBeforeMonth_mono (h : m ≤ m') (hm : 1 ≤ m) :
    daysBeforeMonth y m ≤ daysBeforeMonth y m' := by
  induction m', h using Nat.le_induction with
  | base => exact le_rfl
  | succ n hle ih =>
      rw [daysBeforeMonth_succ (hm.trans hle)]
      exact ih.trans (Nat.le_add_right _ _)

end Calendar

open Calendar

/-! ## Dates with a time of day -/

@[ext] structure DateTime where
  year : Nat
  month : Nat
  day : Nat
  hour : Nat
  minute : Nat
  second : Nat
  microsecond : Nat
  hyear : 1 ≤ year ∧ year ≤ 9999
  hmonth : 1 ≤ month ∧ month ≤ 12
  hday : 1 ≤ day ∧ day ≤ daysInMonth year month
  hhour : hour < 24
  hminute : minute < 60
  hsecond : second < 60
  hmicrosecond : microsecond < 1000000
deriving DecidableEq

namespace DateTime

/-- `datetime(...)`, which refuses a field out of its bounds. -/
def of? (year month day hour minute second microsecond : Nat) : Option DateTime :=
  if h : (1 ≤ year ∧ year ≤ 9999) ∧ (1 ≤ month ∧ month ≤ 12) ∧
      (1 ≤ day ∧ day ≤ daysInMonth year month) ∧ hour < 24 ∧ minute < 60 ∧ second < 60 ∧
      microsecond < 1000000 then
    some ⟨year, month, day, hour, minute, second, microsecond, h.1, h.2.1, h.2.2.1, h.2.2.2.1,
      h.2.2.2.2.1, h.2.2.2.2.2.1, h.2.2.2.2.2.2⟩
  else none

/-- The days since the first of January of year 1. -/
def days (d : DateTime) : Nat := daysBeforeYear d.year + daysBeforeMonth d.year d.month + (d.day - 1)

/-- The whole seconds since the beginning of year 1. -/
def seconds (d : DateTime) : Nat := ((d.days * 24 + d.hour) * 60 + d.minute) * 60 + d.second

/-- The microseconds since the beginning of year 1. -/
def instant (d : DateTime) : Nat := d.seconds * 1000000 + d.microsecond

theorem instant_div (d : DateTime) : d.instant / 1000000 = d.seconds := by
  have := d.hmicrosecond
  unfold instant
  omega

theorem instant_mod (d : DateTime) : d.instant % 1000000 = d.microsecond := by
  have := d.hmicrosecond
  unfold instant
  omega

/-! ## Dates in their order -/

variable {a b : DateTime}

theorem days_lt (d : DateTime) :
    d.days < daysBeforeYear d.year + daysBeforeMonth d.year (d.month + 1) := by
  rw [daysBeforeMonth_succ d.hmonth.1]
  have := d.hday
  unfold days
  omega

theorem days_lt_year (d : DateTime) : d.days < daysBeforeYear (d.year + 1) := by
  rw [daysBeforeYear_succ d.hyear.1]
  exact d.days_lt.trans_le (Nat.add_le_add_left
    (daysBeforeMonth_mono (Nat.succ_le_succ d.hmonth.2) (Nat.le_add_left 1 _)) _)

/-- The fields of a date that come before the fraction of a second. -/
def fields (d : DateTime) : Nat ×ₗ Nat ×ₗ Nat ×ₗ Nat ×ₗ Nat ×ₗ Nat :=
  toLex (d.year, toLex (d.month, toLex (d.day, toLex (d.hour, toLex (d.minute, d.second)))))

theorem fields_lt_iff : a.fields < b.fields ↔ a.year < b.year ∨ a.year = b.year ∧
    (a.month < b.month ∨ a.month = b.month ∧ (a.day < b.day ∨ a.day = b.day ∧
      (a.hour < b.hour ∨ a.hour = b.hour ∧
        (a.minute < b.minute ∨ a.minute = b.minute ∧ a.second < b.second)))) := by
  simp only [fields, Prod.Lex.toLex_lt_toLex]

theorem fields_eq_iff : a.fields = b.fields ↔ a.year = b.year ∧ a.month = b.month ∧
    a.day = b.day ∧ a.hour = b.hour ∧ a.minute = b.minute ∧ a.second = b.second := by
  simp only [fields, toLex_inj, Prod.mk.injEq]

theorem seconds_lt (h : a.fields < b.fields) : a.seconds < b.seconds := by
  have ha := a.hhour
  have ha' := a.hminute
  have ha'' := a.hsecond
  have hdays : a.days < b.days → a.seconds < b.seconds := by
    unfold seconds
    omega
  rcases fields_lt_iff.mp h with hyear | ⟨hyear, hmonth | ⟨hmonth, hday | ⟨hday, h⟩⟩⟩
  · refine hdays (a.days_lt_year.trans_le ((daysBeforeYear_mono hyear (Nat.le_add_left 1 _)).trans ?_))
    unfold days
    omega
  · refine hdays (a.days_lt.trans_le ?_)
    have hmono : daysBeforeMonth b.year (a.month + 1) ≤ daysBeforeMonth b.year b.month :=
      daysBeforeMonth_mono hmonth (Nat.le_add_left 1 _)
    rw [hyear]
    unfold days
    omega
  · refine hdays ?_
    have := a.hday
    unfold days
    rw [hyear, hmonth]
    omega
  · have heq : a.days = b.days := by
      unfold days
      rw [hyear, hmonth, hday]
    unfold seconds
    rw [heq]
    omega

theorem seconds_congr (h : a.fields = b.fields) : a.seconds = b.seconds := by
  obtain ⟨hyear, hmonth, hday, hhour, hminute, hsecond⟩ := fields_eq_iff.mp h
  unfold seconds days
  rw [hyear, hmonth, hday, hhour, hminute, hsecond]

theorem seconds_lt_iff : a.seconds < b.seconds ↔ a.fields < b.fields := by
  refine ⟨fun h => ?_, seconds_lt⟩
  rcases lt_trichotomy a.fields b.fields with hlt | heq | hgt
  · exact hlt
  · exact absurd (seconds_congr heq) h.ne
  · exact absurd (seconds_lt hgt) h.asymm

theorem seconds_eq_iff : a.seconds = b.seconds ↔ a.fields = b.fields := by
  refine ⟨fun h => ?_, seconds_congr⟩
  rcases lt_trichotomy a.fields b.fields with hlt | heq | hgt
  · exact absurd h (seconds_lt hlt).ne
  · exact heq
  · exact absurd h (seconds_lt hgt).ne'

/-! ## The date of an instant -/

/-- The year, the month and the day `n` days after the first of January of year 1. -/
def dayOf (n : Nat) : Nat × Nat × Nat :=
  let year := Nat.findGreatest (fun y => 1 ≤ y ∧ daysBeforeYear y ≤ n) 9999
  let rest := n - daysBeforeYear year
  let month := Nat.findGreatest (fun m => 1 ≤ m ∧ daysBeforeMonth year m ≤ rest) 12
  (year, month, rest - daysBeforeMonth year month + 1)

/-- The date of an instant, none outside the years of the calendar. -/
def ofInstant? (n : Int) : Option DateTime :=
  if 0 ≤ n ∧ n < daysBeforeYear 10000 * 86400 * 1000000 then
    let t := n.toNat / 1000000
    let (year, month, day) := dayOf (t / 86400)
    of? year month day (t / 3600 % 24) (t / 60 % 60) (t % 60) (n.toNat % 1000000)
  else none

theorem dayOf_spec {n : Nat} (h : n < daysBeforeYear 10000) :
    (1 ≤ (dayOf n).1 ∧ (dayOf n).1 ≤ 9999) ∧ (1 ≤ (dayOf n).2.1 ∧ (dayOf n).2.1 ≤ 12) ∧
      (1 ≤ (dayOf n).2.2 ∧ (dayOf n).2.2 ≤ daysInMonth (dayOf n).1 (dayOf n).2.1) ∧
      daysBeforeYear (dayOf n).1 + daysBeforeMonth (dayOf n).1 (dayOf n).2.1 + ((dayOf n).2.2 - 1) =
        n := by
  simp only [dayOf]
  generalize hyear : Nat.findGreatest (fun y => 1 ≤ y ∧ daysBeforeYear y ≤ n) 9999 = year
  obtain ⟨hyear1, hbefore⟩ : 1 ≤ year ∧ daysBeforeYear year ≤ n := by
    rw [← hyear]
    exact Nat.findGreatest_spec (P := fun y => 1 ≤ y ∧ daysBeforeYear y ≤ n) (m := 1) (by decide)
      ⟨le_rfl, Nat.zero_le n⟩
  have hyear9999 : year ≤ 9999 := hyear ▸ Nat.findGreatest_le 9999
  -- The next year begins later.
  have hnext : n < daysBeforeYear (year + 1) := by
    rcases Nat.lt_or_eq_of_le hyear9999 with hlt | heq
    · by_contra hle
      have hgreater : ¬ (1 ≤ year + 1 ∧ daysBeforeYear (year + 1) ≤ n) :=
        Nat.findGreatest_is_greatest (hyear.trans_lt (Nat.lt_succ_self year)) hlt
      exact hgreater ⟨Nat.le_add_left 1 year, not_lt.mp hle⟩
    · rw [heq]
      exact h
  rw [daysBeforeYear_succ hyear1] at hnext
  generalize hrest : n - daysBeforeYear year = rest
  have hrest13 : rest < daysBeforeMonth year 13 := by omega
  generalize hmonth : Nat.findGreatest (fun m => 1 ≤ m ∧ daysBeforeMonth year m ≤ rest) 12 = month
  obtain ⟨hmonth1, hmonthBefore⟩ : 1 ≤ month ∧ daysBeforeMonth year month ≤ rest := by
    rw [← hmonth]
    exact Nat.findGreatest_spec (P := fun m => 1 ≤ m ∧ daysBeforeMonth year m ≤ rest) (m := 1)
      (by decide) ⟨le_rfl, Nat.zero_le rest⟩
  have hmonth12 : month ≤ 12 := hmonth ▸ Nat.findGreatest_le 12
  have hmonthNext : rest < daysBeforeMonth year (month + 1) := by
    rcases Nat.lt_or_eq_of_le hmonth12 with hlt | heq
    · by_contra hle
      have hgreater : ¬ (1 ≤ month + 1 ∧ daysBeforeMonth year (month + 1) ≤ rest) :=
        Nat.findGreatest_is_greatest (hmonth.trans_lt (Nat.lt_succ_self month)) hlt
      exact hgreater ⟨Nat.le_add_left 1 month, not_lt.mp hle⟩
    · rw [heq]
      exact hrest13
  rw [daysBeforeMonth_succ hmonth1] at hmonthNext
  exact ⟨⟨hyear1, hyear9999⟩, ⟨hmonth1, hmonth12⟩, ⟨by omega, by omega⟩, by omega⟩

theorem of?_eq_some {year month day hour minute second microsecond : Nat} {d : DateTime}
    (h : of? year month day hour minute second microsecond = some d) :
    d.year = year ∧ d.month = month ∧ d.day = day ∧ d.hour = hour ∧ d.minute = minute ∧
      d.second = second ∧ d.microsecond = microsecond := by
  unfold of? at h
  split at h
  · cases h
    exact ⟨rfl, rfl, rfl, rfl, rfl, rfl, rfl⟩
  · cases h

theorem instant_ofInstant? {n : Int} {d : DateTime} (h : ofInstant? n = some d) :
    (d.instant : Int) = n := by
  unfold ofInstant? at h
  split at h
  · next hn =>
    have hdays : n.toNat / 1000000 / 86400 < daysBeforeYear 10000 := by omega
    obtain ⟨-, -, -, hsum⟩ := dayOf_spec hdays
    simp only [] at h
    obtain ⟨hy, hm, hd, hh, hmi, hs, hus⟩ := of?_eq_some h
    have hdays' : d.days = n.toNat / 1000000 / 86400 := by
      rw [days, hy, hm, hd]
      exact hsum
    unfold instant seconds
    rw [hdays', hh, hmi, hs, hus]
    omega
  · cases h

/-- Inside the calendar there is a date. -/
theorem ofInstant?_isSome {n : Int} (h0 : 0 ≤ n)
    (h : n < daysBeforeYear 10000 * 86400 * 1000000) : (ofInstant? n).isSome := by
  have hdays : n.toNat / 1000000 / 86400 < daysBeforeYear 10000 := by omega
  obtain ⟨hyear, hmonth, hday, -⟩ := dayOf_spec hdays
  unfold ofInstant?
  rw [if_pos ⟨h0, h⟩]
  simp only []
  unfold of?
  rw [dif_pos ⟨hyear, hmonth, hday, by omega, by omega, by omega, by omega⟩]
  rfl

end DateTime

/-! ## Texts of one width -/

/-- The last `w` digits of a number. -/
def pad : Nat → Nat → List Char
  | 0, _ => []
  | w + 1, n => Char.ofNat (48 + n / 10 ^ w % 10) :: pad w n

theorem length_pad (w n : Nat) : (pad w n).length = w := by
  induction w with
  | zero => rfl
  | succ w ih => rw [pad, List.length_cons, ih]

theorem append_lt_append {α : Type*} [LinearOrder α] {a b x y : List α} (h : a.length = b.length) :
    a ++ x < b ++ y ↔ a < b ∨ a = b ∧ x < y := by
  induction a generalizing b with
  | nil =>
      obtain rfl := List.length_eq_zero_iff.mp h.symm
      simp
  | cons c a ih =>
      cases b with
      | nil => cases h
      | cons d b =>
          rw [List.cons_append, List.cons_append, List.cons_lt_cons_iff, List.cons_lt_cons_iff,
            ih (Nat.succ.inj h), List.cons.injEq]
          tauto

theorem append_eq_append {α : Type*} {a b x y : List α} (h : a.length = b.length) :
    a ++ x = b ++ y ↔ a = b ∧ x = y :=
  ⟨fun he => List.append_inj he h, fun he => by rw [he.1, he.2]⟩

theorem toNat_digit : ∀ k < 10, (Char.ofNat (48 + k)).toNat = 48 + k := by decide

theorem digit_lt_iff {m n : Nat} (hm : m < 10) (hn : n < 10) :
    Char.ofNat (48 + m) < Char.ofNat (48 + n) ↔ m < n := by
  show (Char.ofNat (48 + m)).toNat < (Char.ofNat (48 + n)).toNat ↔ _
  rw [toNat_digit m hm, toNat_digit n hn]
  omega

theorem digit_inj {m n : Nat} (hm : m < 10) (hn : n < 10)
    (h : Char.ofNat (48 + m) = Char.ofNat (48 + n)) : m = n := by
  have hval := congrArg Char.toNat h
  rw [toNat_digit m hm, toNat_digit n hn] at hval
  omega

theorem place_lt_iff {base x y a b : Nat} (hx : x < base) (hy : y < base) :
    x + base * a < y + base * b ↔ a < b ∨ a = b ∧ x < y := by
  have hplace : ∀ {c d z}, z < base → c < d → z + base * c < base * d := by
    intro c d z hz hcd
    have hmul := Nat.mul_le_mul_left base hcd
    rw [Nat.mul_succ] at hmul
    omega
  rcases lt_trichotomy a b with hlt | rfl | hgt
  · have hfar := hplace hx hlt
    exact iff_of_true (by omega) (Or.inl hlt)
  · omega
  · have hfar := hplace hy hgt
    exact iff_of_false (by omega) (by omega)

theorem mod_place (w n : Nat) : n % 10 ^ (w + 1) = n % 10 ^ w + 10 ^ w * (n / 10 ^ w % 10) :=
  Nat.mod_pow_succ

theorem pad_lt_iff_mod {w m n : Nat} : pad w m < pad w n ↔ m % 10 ^ w < n % 10 ^ w := by
  induction w with
  | zero => simp [pad, Nat.mod_one]
  | succ w ih =>
      have hpos : 0 < 10 ^ w := Nat.pow_pos (by decide)
      have hdigit : ∀ k, k / 10 ^ w % 10 < 10 := fun k => Nat.mod_lt _ (by decide)
      rw [pad, pad, List.cons_lt_cons_iff, ih, mod_place, mod_place,
        place_lt_iff (Nat.mod_lt _ hpos) (Nat.mod_lt _ hpos), digit_lt_iff (hdigit m) (hdigit n)]
      refine or_congr_right (and_congr_left fun _ => ⟨digit_inj (hdigit m) (hdigit n), fun h => ?_⟩)
      rw [h]

theorem pad_lt_iff {w m n : Nat} (hm : m < 10 ^ w) (hn : n < 10 ^ w) :
    pad w m < pad w n ↔ m < n := by
  rw [pad_lt_iff_mod, Nat.mod_eq_of_lt hm, Nat.mod_eq_of_lt hn]

theorem pad_eq_iff {w m n : Nat} (hm : m < 10 ^ w) (hn : n < 10 ^ w) :
    pad w m = pad w n ↔ m = n := by
  refine ⟨fun h => ?_, fun h => by rw [h]⟩
  rcases lt_trichotomy m n with hlt | heq | hgt
  · exact absurd h ((pad_lt_iff hm hn).mpr hlt).ne
  · exact heq
  · exact absurd h ((pad_lt_iff hn hm).mpr hgt).ne'

/-! ## The text of a date -/

namespace DateTime

/-- The text up to the second. -/
def stem (d : DateTime) : List Char :=
  pad 4 d.year ++ ('-' :: (pad 2 d.month ++ ('-' :: (pad 2 d.day ++ ('T' :: (pad 2 d.hour ++
    (':' :: (pad 2 d.minute ++ (':' :: pad 2 d.second)))))))))

/-- The fraction of the second, where there is one. -/
def fraction (d : DateTime) : List Char :=
  if d.microsecond = 0 then [] else '.' :: pad 6 d.microsecond

/-- `isoformat`, of a date without an offset. -/
def isoformat (d : DateTime) : List Char := d.stem ++ d.fraction

variable {a b : DateTime} {x y : List Char}

theorem length_stem (d : DateTime) : d.stem.length = 19 := by
  simp only [stem, List.length_append, List.length_cons, length_pad]

theorem pad_append_lt_iff {w m n : Nat} (hm : m < 10 ^ w) (hn : n < 10 ^ w) :
    pad w m ++ x < pad w n ++ y ↔ m < n ∨ m = n ∧ x < y := by
  rw [append_lt_append ((length_pad w m).trans (length_pad w n).symm), pad_lt_iff hm hn,
    pad_eq_iff hm hn]

theorem cons_lt_cons_self {c : Char} : c :: x < c :: y ↔ x < y := by
  rw [List.cons_lt_cons_iff]
  simp

theorem day_lt (d : DateTime) : d.day < 10 ^ 2 := by
  have hday := d.hday.2.trans daysInMonth_le
  omega

theorem stem_lt_iff : a.stem < b.stem ↔ a.seconds < b.seconds := by
  have hyear := fun d : DateTime => Nat.lt_succ_of_le d.hyear.2
  have hmonth := fun d : DateTime => (Nat.lt_succ_of_le d.hmonth.2).trans (show 13 < 10 ^ 2 by decide)
  have hhour := fun d : DateTime => d.hhour.trans (show 24 < 10 ^ 2 by decide)
  have hminute := fun d : DateTime => d.hminute.trans (show 60 < 10 ^ 2 by decide)
  have hsecond := fun d : DateTime => d.hsecond.trans (show 60 < 10 ^ 2 by decide)
  rw [seconds_lt_iff, fields_lt_iff, stem, stem, pad_append_lt_iff (hyear a) (hyear b),
    cons_lt_cons_self, pad_append_lt_iff (hmonth a) (hmonth b), cons_lt_cons_self,
    pad_append_lt_iff a.day_lt b.day_lt, cons_lt_cons_self, pad_append_lt_iff (hhour a) (hhour b),
    cons_lt_cons_self, pad_append_lt_iff (hminute a) (hminute b), cons_lt_cons_self,
    pad_lt_iff (hsecond a) (hsecond b)]

theorem stem_eq_iff : a.stem = b.stem ↔ a.seconds = b.seconds := by
  constructor
  · intro h
    rcases lt_trichotomy a.seconds b.seconds with hlt | heq | hgt
    · exact absurd h (stem_lt_iff.mpr hlt).ne
    · exact heq
    · exact absurd h (stem_lt_iff.mpr hgt).ne'
  · intro h
    rcases lt_trichotomy a.stem b.stem with hlt | heq | hgt
    · exact absurd h (stem_lt_iff.mp hlt).ne
    · exact heq
    · exact absurd h (stem_lt_iff.mp hgt).ne'

/-- Where the text of a date stands among those of its second: a point is before the
suffix, so the whole second comes last. -/
def place (d : DateTime) : Nat := if d.microsecond = 0 then 1000000 else d.microsecond

variable {c : Char}

theorem fraction_lt_iff (hc : '.' < c) : a.fraction ++ [c] < b.fraction ++ [c] ↔ a.place < b.place := by
  have ha := a.hmicrosecond
  have hb := b.hmicrosecond
  have hcc : ¬ [c] < [c] := lt_irrefl _
  unfold fraction place
  split
  · split
    · simp
    · rw [List.nil_append, List.cons_append, List.cons_lt_cons_iff]
      refine iff_of_false ?_ (by omega)
      rintro (h | ⟨h, -⟩)
      · exact h.asymm hc
      · exact hc.ne' h
  · split
    · rw [List.nil_append, List.cons_append, List.cons_lt_cons_iff]
      exact iff_of_true (Or.inl hc) (by omega)
    · rw [List.cons_append, List.cons_append, cons_lt_cons_self,
        pad_append_lt_iff (w := 6) ha hb, or_iff_left fun h => hcc h.2]

/-- The order of two texts with the same suffix. -/
theorem isoformat_lt_iff (hc : '.' < c) : a.isoformat ++ [c] < b.isoformat ++ [c] ↔
    a.seconds < b.seconds ∨ a.seconds = b.seconds ∧ a.place < b.place := by
  rw [isoformat, isoformat, List.append_assoc, List.append_assoc,
    append_lt_append (a.length_stem.trans b.length_stem.symm), stem_lt_iff, stem_eq_iff,
    fraction_lt_iff hc]

theorem instant_lt_iff : a.instant < b.instant ↔
    a.seconds < b.seconds ∨ a.seconds = b.seconds ∧ a.microsecond < b.microsecond := by
  have ha := a.hmicrosecond
  have hb := b.hmicrosecond
  unfold instant
  omega

/-- The texts are in the order of the dates but within one second, where a whole second
meets a fraction. -/
theorem isoformat_lt_iff_instant (hc : '.' < c) :
    (a.isoformat ++ [c] < b.isoformat ++ [c] ↔ a.instant < b.instant) ↔
      (a.seconds = b.seconds → (a.microsecond = 0 ↔ b.microsecond = 0)) := by
  have ha := a.hmicrosecond
  have hb := b.hmicrosecond
  rw [isoformat_lt_iff hc, instant_lt_iff, place, place]
  split <;> split <;> omega

end DateTime

end OufGateway.Lib
