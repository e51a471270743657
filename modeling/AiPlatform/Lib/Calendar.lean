/-
  AiPlatform.Lib.Calendar

  The proleptic Gregorian calendar of Python's `datetime` in UTC, as far as days and
  months go.

  An instant is the number of microseconds since the first of January of the year 1,
  and a month the number of months since then.
-/

import AiPlatform.Lib.Metering
import Mathlib.Order.Monotone.Basic

namespace Calendar

open Metering

/-! ## Days -/

def dayMicros : Nat := 24 * 60 * 60 * 1000000

def dayOf (now : Nat) : Nat := now / dayMicros

/-- `(now + timedelta(days=1)).replace(hour=0, minute=0, second=0, microsecond=0)` -/
def tomorrow (now : Nat) : Nat := dayOf (now + dayMicros) * dayMicros

theorem dayMicros_pos : 0 < dayMicros := by decide

def days : Periods where
  index := dayOf
  next := tomorrow
  mono := fun _ _ h => Nat.div_le_div_right h
  next_le := fun now later => by
    rw [tomorrow, dayOf, Nat.add_div_right now dayMicros_pos, ← Nat.le_div_iff_mul_le dayMicros_pos]
    exact Nat.succ_le_iff

/-! ## Months -/

def isLeap (year : Nat) : Bool := year % 4 == 0 && (year % 100 != 0 || year % 400 == 0)

def daysInMonth (month : Nat) : Nat :=
  match month % 12 with
  | 1 => if isLeap (month / 12 + 1) then 29 else 28
  | 3 | 5 | 8 | 10 => 30
  | _ => 31

/-- The day a month begins with. -/
def monthStart : Nat → Nat
  | 0 => 0
  | month + 1 => monthStart month + daysInMonth month

/-- The month of a day that comes `days` days after the beginning of a month. -/
def monthAfter : Nat → Nat → Nat → Nat
  | 0, month, _ => month
  | fuel + 1, month, days =>
      if days < daysInMonth month then month
      else monthAfter fuel (month + 1) (days - daysInMonth month)

def monthOf (day : Nat) : Nat := monthAfter day 0 day

theorem daysInMonth_bounds (month : Nat) : 28 ≤ daysInMonth month ∧ daysInMonth month ≤ 31 := by
  unfold daysInMonth
  split
  · split <;> omega
  all_goals omega

/-- No two months in a row are short. -/
theorem lt_two_months (month : Nat) : 32 < daysInMonth month + daysInMonth (month + 1) := by
  have hfirst := daysInMonth_bounds month
  have hsecond := daysInMonth_bounds (month + 1)
  omega

theorem monthStart_strictMono : StrictMono monthStart :=
  strictMono_nat_of_lt_succ fun month =>
    Nat.lt_add_of_pos_right (Nat.lt_of_lt_of_le (by decide) (daysInMonth_bounds month).1)

/-- The walk ends in the month of the day. -/
theorem monthAfter_spec {fuel month days : Nat} (hfuel : days ≤ fuel) :
    monthStart (monthAfter fuel month days) ≤ monthStart month + days ∧
      monthStart month + days < monthStart (monthAfter fuel month days + 1) := by
  induction fuel generalizing month days with
  | zero =>
    obtain rfl : days = 0 := Nat.le_zero.mp hfuel
    exact ⟨Nat.le_refl _, monthStart_strictMono (Nat.lt_succ_self month)⟩
  | succ fuel ih =>
    rw [monthAfter]
    split
    · rename_i hin
      exact ⟨Nat.le_add_right _ _, Nat.add_lt_add_left hin _⟩
    · rename_i hout
      have hpos := (daysInMonth_bounds month).1
      have hnext := @ih (month + 1) (days - daysInMonth month) (by omega)
      have hstart : monthStart (month + 1) + (days - daysInMonth month) = monthStart month + days := by
        rw [monthStart]
        omega
      rwa [hstart] at hnext

theorem monthOf_spec (day : Nat) :
    monthStart (monthOf day) ≤ day ∧ day < monthStart (monthOf day + 1) := by
  have hspec := @monthAfter_spec day 0 day (Nat.le_refl day)
  rwa [monthStart, Nat.zero_add] at hspec

/-- The months up to that of a day are those that have begun. -/
theorem le_monthOf {month day : Nat} : month ≤ monthOf day ↔ monthStart month ≤ day := by
  obtain ⟨hstart, hend⟩ := monthOf_spec day
  constructor
  · intro h
    exact (monthStart_strictMono.monotone h).trans hstart
  · intro h
    exact Nat.lt_succ_iff.mp (monthStart_strictMono.lt_iff_lt.mp (Nat.lt_of_le_of_lt h hend))

/-- `(now.replace(day=1) + timedelta(days=32)).replace(day=1, hour=0, ...)` -/
def nextMonth (now : Nat) : Nat :=
  monthStart (monthOf (monthStart (monthOf (dayOf now)) + 32)) * dayMicros

/-- The first of March of the year 4 comes after that of February, which had 29 days. -/
example : nextMonth ((3 * 365 + 59) * dayMicros) = (3 * 365 + 60) * dayMicros := by decide +kernel

/-- A month and a day after the first of a month is in the next one. -/
theorem monthOf_start_add (month : Nat) : monthOf (monthStart month + 32) = month + 1 := by
  have hbounds := daysInMonth_bounds month
  have htwo := lt_two_months month
  refine Nat.le_antisymm (Nat.lt_succ_iff.mp (Nat.lt_of_not_le fun h => ?_)) (le_monthOf.mpr ?_)
  · have hstart := le_monthOf.mp h
    rw [monthStart, monthStart] at hstart
    omega
  · rw [monthStart]
    omega

def months : Periods where
  index := fun now => monthOf (dayOf now)
  next := nextMonth
  mono := fun now later h => le_monthOf.mpr ((monthOf_spec (dayOf now)).1.trans (days.mono h))
  next_le := fun now later => by
    rw [nextMonth, monthOf_start_add, ← Nat.le_div_iff_mul_le dayMicros_pos]
    exact le_monthOf.symm

end Calendar
