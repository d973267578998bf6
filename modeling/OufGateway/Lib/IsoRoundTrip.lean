import OufGateway.Lib.IsoText

/-!
# What `isoformat` writes is read back

The text of a time in UTC is read as that time. The date has its ten characters, so that
the separator is where it is guessed, and every number has the width it is read with.
-/

namespace OufGateway.Lib.IsoText

open JsonText (Points)
open Calendar

variable {n m : Nat} {rest : Points}

/-- The points of a number with its width. -/
def figures (w n : Nat) : Points := (pad w n).map Char.toNat

theorem figures_succ (w n : Nat) : figures (w + 1) n = (48 + n / 10 ^ w % 10) :: figures w n := by
  have hdigit := toNat_digit (n / 10 ^ w % 10) (Nat.mod_lt _ (by decide))
  rw [figures, pad, List.map_cons, hdigit]
  rfl

theorem figures_zero (n : Nat) : figures 0 n = [] := rfl

theorem length_figures (w n : Nat) : (figures w n).length = w := by
  rw [figures, List.length_map, length_pad]

theorem isDigit_figures {w n p : Nat} (h : p ∈ figures w n) : isDigit p = true := by
  induction w with
  | zero => cases h
  | succ w ih =>
      rw [figures_succ] at h
      rcases List.mem_cons.mp h with rfl | h
      · have hlt := Nat.mod_lt (n / 10 ^ w) (show 10 > 0 by decide)
        simp only [isDigit, Bool.and_eq_true, decide_eq_true_eq]
        omega
      · exact ih h

theorem digits?_figures (w : Nat) : digits? w (figures w n ++ rest) = some (n % 10 ^ w, rest) := by
  induction w with
  | zero => simp [digits?, figures_zero, Nat.mod_one]
  | succ w ih =>
      have hlt := Nat.mod_lt (n / 10 ^ w) (show 10 > 0 by decide)
      have hdigit : isDigit (48 + n / 10 ^ w % 10) = true := by
        simp only [isDigit, Bool.and_eq_true, decide_eq_true_eq]
        omega
      rw [figures_succ, List.cons_append, digits?, if_pos hdigit, ih, Option.map_some, mod_place,
        Nat.add_sub_cancel_left, Nat.add_comm, Nat.mul_comm]

theorem digits?_of_lt {w : Nat} (h : n < 10 ^ w) : digits? w (figures w n ++ rest) = some (n, rest) := by
  rw [digits?_figures, Nat.mod_eq_of_lt h]

theorem figures_two (n : Nat) : figures 2 n = [48 + n / 10 % 10, 48 + n % 10] := by
  rw [figures_succ, figures_succ, figures_zero, Nat.pow_one, Nat.pow_zero, Nat.div_one]

theorem figures_four (n : Nat) :
    figures 4 n = [48 + n / 1000 % 10, 48 + n / 100 % 10, 48 + n / 10 % 10, 48 + n % 10] := by
  rw [figures_succ, figures_succ, figures_two]
  rfl

/-! ## Dates -/

variable {d : DateTime}

/-- The ten characters of a date. -/
def datePoints (d : DateTime) : Points :=
  figures 4 d.year ++ dash :: (figures 2 d.month ++ dash :: figures 2 d.day)

theorem date?_datePoints (d : DateTime) : date? (datePoints d) = some (d.year, d.month, d.day) := by
  have hyear : d.year < 10 ^ 4 := Nat.lt_succ_of_le d.hyear.2
  have hmonth : d.month < 10 ^ 2 := (Nat.lt_succ_of_le d.hmonth.2).trans (by decide)
  have hday : d.day < 10 ^ 2 := d.day_lt
  have hhead : (figures 2 d.month).head? = some (48 + d.month / 10 % 10) := by
    rw [figures_two]
    rfl
  have hdigit : 48 + d.month / 10 % 10 ≠ week := by
    unfold week
    omega
  have hend : digits? 2 (figures 2 d.day ++ []) = some (d.day, []) := digits?_of_lt hday
  rw [List.append_nil] at hend
  unfold date? datePoints
  rw [digits?_of_lt hyear]
  simp [digits?_of_lt hmonth, hhead, hdigit, mark?, hend]

theorem length_datePoints (d : DateTime) : (datePoints d).length = 10 := by
  simp [datePoints, length_figures]

theorem separatorAt_datePoints (d : DateTime) (c : Nat) (time : Points) :
    separatorAt (datePoints d ++ c :: time) = 10 := by
  have hlong : (datePoints d ++ c :: time).length ≠ 7 := by
    rw [List.length_append, length_datePoints]
    omega
  have hdash : (datePoints d ++ c :: time)[4]? = some dash := by
    simp [datePoints, figures_four]
  have hmonth : (datePoints d ++ c :: time)[5]? ≠ some week := by
    simp [datePoints, figures_four, figures_two, week]
    omega
  unfold separatorAt
  rw [if_neg hlong, if_pos hdash, if_neg fun h => hmonth h.1]

/-! ## Times -/

def fractionPoints (d : DateTime) : Points := d.fraction.map Char.toNat

def clockPoints (d : DateTime) : Points :=
  figures 2 d.hour ++ colon :: (figures 2 d.minute ++ colon :: (figures 2 d.second ++ fractionPoints d))

theorem clock?_clockPoints (d : DateTime) :
    clock? (clockPoints d) = some ⟨d.hour, d.minute, d.second, d.microsecond⟩ := by
  have hhour : d.hour < 10 ^ 2 := d.hhour.trans (by decide)
  have hminute : d.minute < 10 ^ 2 := d.hminute.trans (by decide)
  have hsecond : d.second < 10 ^ 2 := d.hsecond.trans (by decide)
  have hmicro : d.microsecond < 10 ^ 6 := d.hmicrosecond
  have hfraction : fraction? (figures 6 d.microsecond) = some d.microsecond := by
    have hne : figures 6 d.microsecond ≠ [] := by
      rw [figures_succ]
      exact List.cons_ne_nil _ _
    have hall : (figures 6 d.microsecond).all isDigit = true :=
      List.all_eq_true.mpr fun p hp => isDigit_figures hp
    have htake : (figures 6 d.microsecond).take 6 = figures 6 d.microsecond :=
      List.take_of_length_le (length_figures 6 _).le
    have hread : digits? 6 (figures 6 d.microsecond ++ []) = some (d.microsecond, []) := digits?_of_lt hmicro
    rw [List.append_nil] at hread
    rw [fraction?, if_pos ⟨hne, hall⟩, htake, length_figures, Nat.sub_self, List.replicate_zero, List.append_nil, hread]
    rfl
  by_cases hzero : d.microsecond = 0
  · have hnone : fractionPoints d = [] := by
      rw [fractionPoints, DateTime.fraction, if_pos hzero]
      rfl
    have hread : digits? 2 (figures 2 d.second) = some (d.second, []) := by
      rw [← List.append_nil (figures 2 d.second)]
      exact digits?_of_lt hsecond
    unfold clock? clockPoints
    rw [hnone, List.append_nil, digits?_of_lt hhour]
    simp [digits?_of_lt hminute, hread, mark?, hzero]
  · have hsome : fractionPoints d = 46 :: figures 6 d.microsecond := by
      rw [fractionPoints, DateTime.fraction, if_neg hzero]
      rfl
    unfold clock? clockPoints
    rw [hsome, digits?_of_lt hhour]
    simp [digits?_of_lt hminute, digits?_of_lt hsecond, mark?, hfraction]

theorem isSign_of_isDigit {p : Nat} (h : isDigit p = true) : isSign p = false := by
  simp only [isDigit, Bool.and_eq_true, decide_eq_true_eq] at h
  have hplus : p ≠ 43 := by omega
  have hdash : p ≠ dash := by
    unfold dash
    omega
  have hzulu : p ≠ 90 := by omega
  simp [isSign, hplus, hdash, hzulu]

theorem isSign_clockPoints (d : DateTime) : ∀ p ∈ clockPoints d, isSign p = false := by
  have hfigures : ∀ w n p, p ∈ figures w n → isSign p = false := fun w n p hp =>
    isSign_of_isDigit (isDigit_figures hp)
  have hfraction : ∀ p ∈ fractionPoints d, isSign p = false := by
    intro p hp
    unfold fractionPoints DateTime.fraction at hp
    split at hp
    · cases hp
    · rcases List.mem_cons.mp hp with rfl | hp
      · decide
      · exact hfigures 6 _ p hp
  intro p hp
  simp only [clockPoints, List.mem_append, List.mem_cons] at hp
  rcases hp with hp | rfl | hp | rfl | hp | hp
  · exact hfigures 2 _ p hp
  · decide
  · exact hfigures 2 _ p hp
  · decide
  · exact hfigures 2 _ p hp
  · exact hfraction p hp

/-- The time of a timestamp in UTC. -/
theorem time?_utc (d : DateTime) : time? (clockPoints d ++ JsonText.points "+00:00") =
    some (⟨d.hour, d.minute, d.second, d.microsecond⟩, some 0) := by
  have hplus : JsonText.points "+00:00" = 43 :: [48, 48, 58, 48, 48] := by decide
  have hall : ∀ p ∈ clockPoints d, (!isSign p) = true := by
    intro p hp
    rw [isSign_clockPoints d p hp]
    rfl
  have htake : (clockPoints d ++ JsonText.points "+00:00").takeWhile (fun p => !isSign p) = clockPoints d := by
    rw [List.takeWhile_append_of_pos hall, hplus]
    exact List.append_nil _
  have hdrop : (clockPoints d ++ JsonText.points "+00:00").dropWhile (fun p => !isSign p) =
      43 :: [48, 48, 58, 48, 48] := by
    rw [List.dropWhile_append_of_pos hall, hplus]
    rfl
  unfold time?
  rw [htake, hdrop, clock?_clockPoints]
  rfl

/-! ## Timestamps -/

/-- The points of `isoformat`. -/
theorem map_isoformat (d : DateTime) :
    d.isoformat.map Char.toNat = datePoints d ++ 84 :: clockPoints d := by
  simp only [DateTime.isoformat, DateTime.stem, datePoints, clockPoints, fractionPoints, figures, List.map_append,
    List.map_cons, List.append_assoc, List.cons_append]
  rfl

theorem of?_self (d : DateTime) :
    DateTime.of? d.year d.month d.day d.hour d.minute d.second d.microsecond = some d := by
  have h : (1 ≤ d.year ∧ d.year ≤ 9999) ∧ (1 ≤ d.month ∧ d.month ≤ 12) ∧
      (1 ≤ d.day ∧ d.day ≤ daysInMonth d.year d.month) ∧ d.hour < 24 ∧ d.minute < 60 ∧ d.second < 60 ∧
        d.microsecond < 1000000 :=
    ⟨d.hyear, d.hmonth, d.hday, d.hhour, d.hminute, d.hsecond, d.hmicrosecond⟩
  rw [DateTime.of?, dif_pos h]

theorem fromisoformat_isoformat (d : DateTime) :
    fromisoformat (d.isoformat.map Char.toNat ++ JsonText.points "+00:00") = some ⟨d, some 0⟩ := by
  have hpoints : d.isoformat.map Char.toNat ++ JsonText.points "+00:00" =
      datePoints d ++ 84 :: (clockPoints d ++ JsonText.points "+00:00") := by
    rw [map_isoformat, List.append_assoc, List.cons_append]
  have hlong : ¬ (datePoints d ++ 84 :: (clockPoints d ++ JsonText.points "+00:00")).length < 7 := by
    rw [List.length_append, length_datePoints]
    omega
  have htake : (datePoints d ++ 84 :: (clockPoints d ++ JsonText.points "+00:00")).take 10 = datePoints d :=
    List.take_left' (length_datePoints d)
  have hdrop : (datePoints d ++ 84 :: (clockPoints d ++ JsonText.points "+00:00")).drop 10 =
      84 :: (clockPoints d ++ JsonText.points "+00:00") := List.drop_left' (length_datePoints d)
  unfold fromisoformat
  rw [hpoints, if_neg hlong, separatorAt_datePoints, htake, hdrop, date?_datePoints]
  show ((time? (clockPoints d ++ JsonText.points "+00:00")).bind _) = _
  rw [time?_utc]
  show ((DateTime.of? d.year d.month d.day d.hour d.minute d.second d.microsecond).bind _) = _
  rw [of?_self]
  rfl

end OufGateway.Lib.IsoText
