-- The days of the calendar: each has one date, from a date its day is found back, and a
-- later day has a later date.
import Mathlib.Algebra.GroupWithZero.Nat
import Provisioning.Time.Timestamp

namespace Provisioning

/-! ## Years -/

theorem sum_monthLengths (leap : Bool) : (monthLengths leap).sum = if leap then 366 else 365 := by
  cases leap <;> rfl

theorem length_monthLengths (leap : Bool) : (monthLengths leap).length = 12 := rfl

theorem le_of_mem_monthLengths {leap : Bool} {n : Nat} (h : n ∈ monthLengths leap) : n ≤ 31 := by
  have hall : ∀ leap, ∀ n ∈ monthLengths leap, n ≤ 31 := by decide
  exact hall leap n h

/-- A year is as long as its months together. -/
theorem daysBeforeYear_succ (y : Int) :
    daysBeforeYear (y + 1) = daysBeforeYear y + (monthLengths (isLeapYear y)).sum := by
  simp only [sum_monthLengths, daysBeforeYear, isLeapYear, Bool.and_eq_true, Bool.or_eq_true,
    beq_iff_eq, bne_iff_ne]
  split <;> omega

theorem daysBeforeYear_mono {x y : Int} (h : x ≤ y) : daysBeforeYear x ≤ daysBeforeYear y := by
  unfold daysBeforeYear
  omega

/-- A year chosen by the mean length of years is at most one off. -/
theorem daysBeforeYear_mean (day : Int) :
    daysBeforeYear (400 * day / 146097 - 1) ≤ day ∧
      day < daysBeforeYear (400 * day / 146097 + 1 + 1) := by
  unfold daysBeforeYear
  omega

/-- The days of a year are those from its first of January to that of the next. -/
theorem yearOfDay_bounds (day : Int) :
    daysBeforeYear (yearOfDay day) ≤ day ∧ day < daysBeforeYear (yearOfDay day + 1) := by
  obtain ⟨hlow, hhigh⟩ := daysBeforeYear_mean day
  unfold yearOfDay
  dsimp only
  split
  · rename_i hbelow
    rw [Int.sub_add_cancel]
    exact ⟨hlow, hbelow⟩
  · split
    · rename_i habove
      exact ⟨habove, hhigh⟩
    · rename_i hbelow habove
      exact ⟨Int.not_lt.mp hbelow, Int.not_le.mp habove⟩

/-! ## Months -/

/-- A day falls in the month that its predecessors do not fill. -/
theorem monthOfDay_bounds {lengths : List Nat} {day : Nat} (month : Nat) (h : day < lengths.sum) :
    ∃ i length rest, monthOfDay month lengths day = (month + i, rest) ∧ lengths[i]? = some length ∧
      rest < length ∧ (lengths.take i).sum + rest = day := by
  induction lengths generalizing month day with
  | nil => simp at h
  | cons n lengths ih =>
    rw [monthOfDay]
    split
    · rename_i hday
      exact ⟨0, n, day, rfl, rfl, hday, by simp⟩
    · rename_i hday
      rw [List.sum_cons] at h
      have hday' : day - n < lengths.sum := by omega
      obtain ⟨i, length, rest, hmonth, hlength, hrest, hsum⟩ := ih (month + 1) hday'
      refine ⟨i + 1, length, rest, ?_, hlength, hrest, ?_⟩
      · rw [hmonth, Nat.add_assoc, Nat.add_comm 1 i]
      · rw [List.take_succ_cons, List.sum_cons]
        omega

/-! ## Dates -/

namespace Date

/-- The lengths of the months of the date's year. -/
def months (d : Date) : List Nat := monthLengths (isLeapYear d.year)

/-- Is there such a date? -/
structure IsValid (d : Date) : Prop where
  month_pos : 0 < d.month
  day_pos : 0 < d.day
  day_le : ∃ length, d.months[d.month - 1]? = some length ∧ d.day ≤ length

/-- The day of a date, counted from the first of January of year 0. -/
def toDay (d : Date) : Int :=
  daysBeforeYear d.year + ((d.months.take (d.month - 1)).sum + (d.day - 1) : Nat)

/-- The earlier of two dates has the earlier year, in one year the earlier month, and in
one month the earlier day. -/
def Before (c d : Date) : Prop :=
  c.year < d.year ∨ c.year = d.year ∧ (c.month < d.month ∨ c.month = d.month ∧ c.day < d.day)

instance (c d : Date) : Decidable (c.Before d) := inferInstanceAs (Decidable (_ ∨ _))

theorem eq_of_not_before {c d : Date} (h : ¬ c.Before d) (h' : ¬ d.Before c) : c = d := by
  obtain ⟨y, m, n⟩ := c
  obtain ⟨y', m', n'⟩ := d
  simp only [Before] at h h'
  have hyear : y = y' := by omega
  have hmonth : m = m' := by omega
  have hday : n = n' := by omega
  rw [hyear, hmonth, hday]

theorem IsValid.month_le {d : Date} (h : d.IsValid) : d.month ≤ 12 := by
  obtain ⟨length, hlength, -⟩ := h.day_le
  have hmonth : d.month - 1 < d.months.length := (List.getElem?_eq_some_iff.mp hlength).1
  rw [months, length_monthLengths] at hmonth
  omega

theorem IsValid.day_le_longest {d : Date} (h : d.IsValid) : d.day ≤ 31 := by
  obtain ⟨length, hlength, hday⟩ := h.day_le
  exact Nat.le_trans hday (le_of_mem_monthLengths (List.mem_of_getElem? hlength))

/-! ### From a day and back -/

/-- The date of a day is one, and the day is its day. -/
theorem ofDay_spec (day : Int) : (ofDay day).IsValid ∧ (ofDay day).toDay = day := by
  obtain ⟨hfirst, hnext⟩ := yearOfDay_bounds day
  rw [daysBeforeYear_succ] at hnext
  have hinYear : (day - daysBeforeYear (yearOfDay day)).toNat <
      (monthLengths (isLeapYear (yearOfDay day))).sum := by omega
  obtain ⟨i, length, rest, hmonth, hlength, hrest, hsum⟩ := monthOfDay_bounds 0 hinYear
  have hdate : ofDay day = ⟨yearOfDay day, i + 1, rest + 1⟩ := by
    rw [ofDay, hmonth, Nat.zero_add]
  rw [hdate]
  constructor
  · exact ⟨by simp, by simp, length, hlength, hrest⟩
  · simp only [toDay, months, Nat.add_sub_cancel, hsum]
    omega

theorem isValid_ofDay (day : Int) : (ofDay day).IsValid := (ofDay_spec day).1

@[simp]
theorem toDay_ofDay (day : Int) : (ofDay day).toDay = day := (ofDay_spec day).2

/-! ### The order -/

/-- The days up to the end of a date's month. -/
theorem IsValid.sum_take_add_day_le {d : Date} (h : d.IsValid) :
    (d.months.take (d.month - 1)).sum + d.day ≤ (d.months.take d.month).sum := by
  obtain ⟨length, hlength, hday⟩ := h.day_le
  have hmonth := h.month_pos
  obtain ⟨m, hm⟩ : ∃ m, d.month = m + 1 := ⟨d.month - 1, by omega⟩
  rw [hm, Nat.add_sub_cancel] at hlength ⊢
  rw [List.take_add_one, hlength, List.sum_append]
  simpa using hday

theorem sum_take_mono (lengths : List Nat) {i j : Nat} (h : i ≤ j) :
    (lengths.take i).sum ≤ (lengths.take j).sum := by
  obtain ⟨k, rfl⟩ := Nat.exists_eq_add_of_le h
  rw [List.take_add, List.sum_append]
  exact Nat.le_add_right _ _

theorem IsValid.toDay_lt_next_year {d : Date} (h : d.IsValid) :
    d.toDay < daysBeforeYear (d.year + 1) := by
  have hday := h.sum_take_add_day_le
  have hpos := h.day_pos
  have hall := sum_take_mono d.months (Nat.le_add_right d.month d.months.length)
  rw [List.take_of_length_le (Nat.le_add_left _ _)] at hall
  rw [toDay, daysBeforeYear_succ, ← months]
  omega

theorem IsValid.toDay_lt_of_before {c d : Date} (hc : c.IsValid) (hd : d.IsValid)
    (h : c.Before d) : c.toDay < d.toDay := by
  have hcpos := hc.day_pos
  have hdpos := hd.day_pos
  rcases h with hyear | ⟨hyear, hmonth | ⟨hmonth, hday⟩⟩
  · have hnext := hc.toDay_lt_next_year
    have hmono := daysBeforeYear_mono (show c.year + 1 ≤ d.year by omega)
    unfold toDay at hnext ⊢
    omega
  · have hend := hc.sum_take_add_day_le
    have hmono := sum_take_mono c.months (show c.month ≤ d.month - 1 by omega)
    unfold toDay months at *
    rw [← hyear]
    omega
  · unfold toDay months
    rw [hyear, hmonth]
    omega

/-- The earlier date is that of the earlier day. -/
theorem IsValid.before_iff {c d : Date} (hc : c.IsValid) (hd : d.IsValid) :
    c.Before d ↔ c.toDay < d.toDay := by
  refine ⟨hc.toDay_lt_of_before hd, fun hlt => ?_⟩
  apply Decidable.byContradiction
  intro hbefore
  by_cases hafter : d.Before c
  · have hgt := hd.toDay_lt_of_before hc hafter
    omega
  · have hday := congrArg toDay (eq_of_not_before hbefore hafter)
    omega

/-- A day has one date. -/
theorem IsValid.eq_iff {c d : Date} (hc : c.IsValid) (hd : d.IsValid) :
    c = d ↔ c.toDay = d.toDay := by
  refine ⟨congrArg toDay, fun hday => eq_of_not_before ?_ ?_⟩
  · rw [hc.before_iff hd]
    omega
  · rw [hd.before_iff hc]
    omega

end Date

end Provisioning
