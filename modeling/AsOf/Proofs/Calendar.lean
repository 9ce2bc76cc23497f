import AsOf.LocalTime
import Mathlib.Data.Int.Init
import Mathlib.Tactic.IntervalCases

namespace AsOf

def IsLeap (year : Int) : Prop := 4 ∣ year ∧ (100 ∣ year → 400 ∣ year)

instance (year : Int) : Decidable (IsLeap year) := inferInstanceAs (Decidable (_ ∧ _))

def monthLength (year : Int) (month : Nat) : Nat :=
  if month = 2 then if IsLeap year then 29 else 28
  else if month ∈ [4, 6, 9, 11] then 30 else 31

/-- A day by its year, month and place in the month. -/
structure CalendarDay where
  year : Int
  month : Nat
  day : Nat
  deriving DecidableEq

namespace CalendarDay

structure Valid (d : CalendarDay) : Prop where
  one_le_month : 1 ≤ d.month
  month_le : d.month ≤ 12
  one_le_day : 1 ≤ d.day
  day_le : d.day ≤ monthLength d.year d.month

instance (d : CalendarDay) : Decidable d.Valid :=
  decidable_of_iff
    ((1 ≤ d.month ∧ d.month ≤ 12) ∧ 1 ≤ d.day ∧ d.day ≤ monthLength d.year d.month)
    ⟨fun h => ⟨h.1.1, h.1.2, h.2.1, h.2.2⟩, fun h => ⟨⟨h.1, h.2⟩, h.3, h.4⟩⟩

def next (d : CalendarDay) : CalendarDay :=
  if d.day < monthLength d.year d.month then ⟨d.year, d.month, d.day + 1⟩
  else if d.month < 12 then ⟨d.year, d.month + 1, 1⟩
  else ⟨d.year + 1, 1, 1⟩

def prev (d : CalendarDay) : CalendarDay :=
  if 1 < d.day then ⟨d.year, d.month, d.day - 1⟩
  else if 1 < d.month then ⟨d.year, d.month - 1, monthLength d.year (d.month - 1)⟩
  else ⟨d.year - 1, 12, 31⟩

/-- The days of the calendar, counted one by one from the first of January 1970 on and back. -/
inductive Numbered : CalendarDay → Int → Prop
  | epoch : Numbered ⟨1970, 1, 1⟩ 0
  | next {d : CalendarDay} {n : Int} : Numbered d n → Numbered d.next (n + 1)
  | prev {d : CalendarDay} {n : Int} : d.Valid → Numbered d.next (n + 1) → Numbered d n

def number (d : CalendarDay) : Int := daysFromCivil d.year d.month d.day

end CalendarDay

section Lengths

variable {year : Int} {month : Nat}

theorem one_le_monthLength (year : Int) (month : Nat) : 1 ≤ monthLength year month := by
  unfold monthLength
  split_ifs <;> decide

theorem monthLength_le (year : Int) (month : Nat) : monthLength year month ≤ 31 := by
  unfold monthLength
  split_ifs <;> decide

/-- The leap days after the year zero up to the end of a year; before it the count is negative. -/
def leapDays (year : Int) : Int := year / 4 - year / 100 + year / 400

theorem leapDays_eq (year : Int) :
    leapDays year = leapDays (year - 1) + if IsLeap year then 1 else 0 := by
  unfold leapDays IsLeap
  split_ifs <;> omega

theorem daysFromCivil_eq (year : Int) (month day : Nat) : daysFromCivil year month day =
    if month ≤ 2 then
      365 * (year - 1) + leapDays (year - 1) + (153 * (month + 9) + 2) / 5 + day - 719469
    else 365 * year + leapDays year + (153 * ((month : Int) - 3) + 2) / 5 + day - 719469 := by
  unfold daysFromCivil leapDays
  simp only [Int.fdiv_eq_ediv_of_nonneg _ (by decide : (0 : Int) ≤ 400)]
  split_ifs <;> omega

theorem daysFromCivil_day_succ (year : Int) (month day : Nat) :
    daysFromCivil year month (day + 1) = daysFromCivil year month day + 1 := by
  rw [daysFromCivil_eq, daysFromCivil_eq]
  split_ifs <;> omega

theorem daysFromCivil_month_succ (hpos : 1 ≤ month) (hlt : month < 12) :
    daysFromCivil year (month + 1) 1 = daysFromCivil year month (monthLength year month) + 1 := by
  rw [daysFromCivil_eq, daysFromCivil_eq, monthLength]
  by_cases hfebruary : month = 2
  · -- The years that begin in March change here, and with them the count of leap days.
    subst hfebruary
    have hleap := leapDays_eq year
    simp only [↓reduceIte, Nat.reduceAdd, Nat.reduceLeDiff]
    split_ifs at hleap ⊢ <;> omega
  · interval_cases month <;> simp at hfebruary ⊢ <;> omega

theorem daysFromCivil_year_succ (year : Int) :
    daysFromCivil (year + 1) 1 1 = daysFromCivil year 12 31 + 1 := by
  rw [daysFromCivil_eq, daysFromCivil_eq, if_pos (by decide), if_neg (by decide),
    Int.add_sub_cancel]
  omega

end Lengths

namespace CalendarDay

variable {d : CalendarDay} {n : Int}

theorem Valid.next (h : d.Valid) : d.next.Valid := by
  unfold CalendarDay.next
  split
  · rename_i hlt
    exact ⟨h.one_le_month, h.month_le, by simp, hlt⟩
  · split
    · rename_i hlt
      exact ⟨by simp, hlt, Nat.le_refl 1, one_le_monthLength _ _⟩
    · exact ⟨Nat.le_refl 1, by simp, Nat.le_refl 1, one_le_monthLength _ _⟩

theorem Valid.prev (h : d.Valid) : d.prev.Valid := by
  unfold CalendarDay.prev
  have hmonth := h.month_le
  have hday := h.day_le
  split
  · rename_i hlt
    exact ⟨h.one_le_month, hmonth, Nat.le_sub_one_of_lt hlt, by simp; omega⟩
  · split
    · rename_i hlt
      exact ⟨Nat.le_sub_one_of_lt hlt, by simp; omega, one_le_monthLength _ _, Nat.le_refl _⟩
    · exact ⟨by simp, by simp, by simp, by simp [monthLength]⟩

theorem Valid.next_prev (h : d.Valid) : d.prev.next = d := by
  obtain ⟨year, month, day⟩ := d
  obtain ⟨hmonth, hmonths, hday, hdays⟩ := h
  simp only [CalendarDay.prev] at hmonth hmonths hday hdays ⊢
  split
  · rename_i hlt
    rw [CalendarDay.next, if_pos (Nat.lt_of_lt_of_le (Nat.sub_one_lt_of_lt hday) hdays)]
    simp only [Nat.sub_add_cancel hday]
  · rename_i hfirst
    obtain rfl : day = 1 := by omega
    split
    · rename_i hlt
      rw [CalendarDay.next, if_neg (Nat.lt_irrefl _), if_pos (by simp only; omega)]
      simp only [Nat.sub_add_cancel hmonth]
    · rename_i hjanuary
      obtain rfl : month = 1 := by omega
      rw [CalendarDay.next, if_neg (by simp [monthLength]), if_neg (by simp)]
      simp only [Int.sub_add_cancel]

/-- The step law of the count. -/
theorem Valid.number_next (h : d.Valid) : d.next.number = d.number + 1 := by
  unfold CalendarDay.next number
  have hday := h.day_le
  split
  · exact daysFromCivil_day_succ _ _ _
  · rename_i hlast
    obtain hlast : d.day = monthLength d.year d.month := by omega
    split
    · rename_i hlt
      rw [hlast]
      exact daysFromCivil_month_succ h.one_le_month hlt
    · rename_i hlt
      obtain hmonth : d.month = 12 := by have := h.month_le; omega
      rw [hlast, hmonth]
      exact daysFromCivil_year_succ _

theorem number_prev (h : d.Valid) : d.prev.number = d.number - 1 := by
  have hnext := h.prev.number_next
  rw [h.next_prev] at hnext
  omega

theorem Valid.eq_epoch (h : d.Valid) (hzero : d.number = 0) : d = ⟨1970, 1, 1⟩ := by
  obtain ⟨year, month, day⟩ := d
  obtain ⟨hmonth, hmonths, hday, hdays⟩ := h
  simp only [number, daysFromCivil_eq, leapDays] at hmonth hmonths hday hdays hzero
  have hlength := monthLength_le year month
  -- The year has to be pinned down first: its quotients leave a few years open.
  have hyears : 1968 ≤ year ∧ year ≤ 1971 := by
    split_ifs at hzero <;> omega
  obtain ⟨hfrom, hto⟩ := hyears
  have hfound : year = 1970 ∧ month = 1 ∧ day = 1 := by
    interval_cases year <;> split_ifs at hzero <;> omega
  obtain ⟨rfl, rfl, rfl⟩ := hfound
  rfl

theorem Numbered.valid (h : Numbered d n) : d.Valid := by
  induction h with
  | epoch => decide
  | next _ ih => exact ih.next
  | prev hd _ _ => exact hd

theorem Numbered.eq_number (h : Numbered d n) : n = d.number := by
  induction h with
  | epoch => rfl
  | next hd ih => rw [hd.valid.number_next, ih]
  | prev hd _ ih =>
    rw [hd.number_next] at ih
    omega

theorem Valid.numbered (h : d.Valid) : Numbered d d.number := by
  generalize hn : d.number = n
  induction n using Int.induction_on generalizing d with
  | zero => exact h.eq_epoch hn ▸ .epoch
  | succ n ih =>
    have hprev : d.prev.number = n := by
      rw [number_prev h]
      omega
    have hnumbered := ih h.prev hprev
    rw [← h.next_prev]
    exact .next hnumbered
  | pred n ih =>
    have hnext : d.next.number = -n := by
      rw [h.number_next]
      omega
    have hnumbered := ih h.next hnext
    refine .prev h ?_
    rwa [Int.sub_add_cancel]

theorem Valid.numbered_iff (h : d.Valid) : Numbered d n ↔ n = d.number :=
  ⟨Numbered.eq_number, fun hn => hn ▸ h.numbered⟩

theorem exists_numbered (n : Int) : ∃ d, Numbered d n := by
  induction n using Int.induction_on with
  | zero => exact ⟨_, .epoch⟩
  | succ n ih =>
    obtain ⟨d, hd⟩ := ih
    exact ⟨d.next, .next hd⟩
  | pred n ih =>
    obtain ⟨d, hd⟩ := ih
    refine ⟨d.prev, .prev hd.valid.prev ?_⟩
    rwa [hd.valid.next_prev, Int.sub_add_cancel]

end CalendarDay

end AsOf
