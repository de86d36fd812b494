import Mathlib.Data.Int.Order.Basic
import Mathlib.Tactic.IntervalCases

/-! The Gregorian calendar from year 0 on: the lengths of months and years, the days before a date
and the minutes before a time of day. -/
namespace Calendar

def isLeap (y : ℕ) : Bool := y % 4 == 0 && (y % 100 != 0 || y % 400 == 0)

def yearLength (y : ℕ) : ℕ := if isLeap y then 366 else 365

/-- The months are numbered from 1. -/
def monthLength (y : ℕ) : ℕ → ℕ
  | 2 => if isLeap y then 29 else 28
  | 4 | 6 | 9 | 11 => 30
  | _ => 31

/-- The days of the years before a year. -/
def daysBeforeYear : ℕ → ℕ
  | 0 => 0
  | y + 1 => daysBeforeYear y + yearLength y

/-- The days of a year before a month. -/
def daysBeforeMonth (y : ℕ) : ℕ → ℕ
  | 0 | 1 => 0
  | m + 2 => daysBeforeMonth y (m + 1) + monthLength y (m + 1)

example : daysBeforeMonth 2000 13 = yearLength 2000 := by decide

/-- A minute of a valid date. -/
structure Minute where
  year : ℕ
  month : ℕ
  day : ℕ
  hour : ℕ
  minute : ℕ
  month_pos : 1 ≤ month
  month_le : month ≤ 12
  day_pos : 1 ≤ day
  day_le : day ≤ monthLength year month
  hour_lt : hour < 24
  minute_lt : minute < 60

namespace Minute

/-- The number of the day, up to a constant. -/
def dayNumber (t : Minute) : ℤ := daysBeforeYear t.year + daysBeforeMonth t.year t.month + t.day

/-- The number of the minute, up to a constant. -/
def count (t : Minute) : ℤ := t.dayNumber * 1440 + t.hour * 60 + t.minute

end Minute

theorem yearLength_bounds (y : ℕ) : 365 ≤ yearLength y ∧ yearLength y ≤ 366 := by
  unfold yearLength
  split_ifs <;> omega

theorem monthLength_le (y m : ℕ) : monthLength y m ≤ 31 := by
  unfold monthLength
  split
  · split_ifs <;> omega
  all_goals omega

/-- The ranges of the fields, whatever the year. -/
theorem Minute.bounds (t : Minute) : (1 ≤ t.month ∧ t.month ≤ 12) ∧ (1 ≤ t.day ∧ t.day ≤ 31) ∧
    t.hour < 24 ∧ t.minute < 60 :=
  ⟨⟨t.month_pos, t.month_le⟩, ⟨t.day_pos, t.day_le.trans (monthLength_le _ _)⟩, t.hour_lt,
    t.minute_lt⟩

/-- The days of `k` years in a row. -/
theorem daysBeforeYear_add (y k : ℕ) : daysBeforeYear y + 365 * k ≤ daysBeforeYear (y + k) ∧
    daysBeforeYear (y + k) ≤ daysBeforeYear y + 366 * k := by
  induction k with
  | zero => simp
  | succ k ih =>
    have hyear := yearLength_bounds (y + k)
    have hsucc : daysBeforeYear (y + (k + 1)) = daysBeforeYear (y + k) + yearLength (y + k) := rfl
    rw [hsucc, Nat.mul_succ, Nat.mul_succ, ← Nat.add_assoc, ← Nat.add_assoc]
    exact ⟨Nat.add_le_add ih.1 hyear.1, Nat.add_le_add ih.2 hyear.2⟩

/-- Months of 30 days are never far from a month's first day. -/
theorem daysBeforeMonth_bounds {y m : ℕ} (hpos : 1 ≤ m) (hle : m ≤ 12) :
    30 * m ≤ daysBeforeMonth y m + 31 ∧ daysBeforeMonth y m + 25 ≤ 30 * m := by
  cases hleap : isLeap y <;> interval_cases m <;>
    simp [daysBeforeMonth, monthLength, hleap]

end Calendar
