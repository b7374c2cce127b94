import Mathlib.Algebra.BigOperators.Group.List.Basic
import Mathlib.Algebra.GroupWithZero.Nat
import Mathlib.Data.Int.Init

/-! The Gregorian calendar: seconds since the beginning of 1970, without leap seconds. -/
namespace TsunamiUdp.Library

section Lengths

/-- The part in which a position lies, and the position in that part. -/
def locate : List Nat → Nat → Nat × Nat
  | [], n => (0, n)
  | length :: lengths, n =>
    if n < length then (0, n)
    else
      let (i, rest) := locate lengths (n - length)
      (i + 1, rest)

theorem locate_sum (lengths : List Nat) (n : Nat) :
    (lengths.take (locate lengths n).1).sum + (locate lengths n).2 = n := by
  induction lengths generalizing n with
  | nil => exact Nat.zero_add n
  | cons length lengths ih =>
    rw [locate]
    split
    · exact Nat.zero_add n
    · have := ih (n - length)
      dsimp only
      rw [List.take_succ_cons, List.sum_cons]
      omega

theorem locate_lt {lengths : List Nat} {n : Nat} (h : n < lengths.sum) :
    ∃ length, lengths[(locate lengths n).1]? = some length ∧ (locate lengths n).2 < length := by
  induction lengths generalizing n with
  | nil => exact absurd h (Nat.not_lt_zero n)
  | cons length lengths ih =>
    rw [locate]
    split
    · rename_i hlt
      exact ⟨length, rfl, hlt⟩
    · rw [List.sum_cons] at h
      exact ih (by omega)

end Lengths

def isLeap (year : Int) : Bool := year % 4 = 0 && (year % 100 ≠ 0 || year % 400 = 0)

def yearLength (year : Int) : Nat := if isLeap year then 366 else 365

def monthLengths (leap : Bool) : List Nat :=
  [31, if leap then 29 else 28, 31, 30, 31, 30, 31, 31, 30, 31, 30, 31]

def daysBeforeYear (year : Int) : Int :=
  365 * (year - 1970) + (year - 1) / 4 - (year - 1) / 100 + (year - 1) / 400 - 477

/-- The days of a year in front of the month; January is month 0. -/
def daysBeforeMonth (leap : Bool) (month : Nat) : Nat := ((monthLengths leap).take month).sum

def utc (year day hour minute second : Int) : Int :=
  (daysBeforeYear year + day - 1) * 86400 + hour * 3600 + minute * 60 + second

def yearLengths (n : Nat) : List Nat := (List.range n).map fun i : Nat => yearLength (1970 + i)

structure Date where
  year : Int
  month : Nat
  day : Nat
deriving DecidableEq

def dateOf (days : Nat) : Date :=
  let (years, rest) := locate (yearLengths (days / 365 + 1)) days
  let (month, day) := locate (monthLengths (isLeap (1970 + years))) rest
  ⟨1970 + years, month, day + 1⟩

section Dates

theorem isLeap_iff (year : Int) :
    isLeap year = true ↔ year % 4 = 0 ∧ (year % 100 ≠ 0 ∨ year % 400 = 0) := by
  simp [isLeap]

theorem daysBeforeYear_succ (year : Int) :
    daysBeforeYear (year + 1) = daysBeforeYear year + yearLength year := by
  have hleap := isLeap_iff year
  unfold daysBeforeYear yearLength
  split
  · have := hleap.mp ‹_›
    omega
  · have := mt hleap.mpr ‹_›
    omega

theorem sum_yearLengths (n : Nat) : ((yearLengths n).sum : Int) = daysBeforeYear (1970 + n) := by
  induction n with
  | zero => rfl
  | succ n ih =>
    rw [yearLengths, List.range_succ, List.map_append, List.sum_append, Int.natCast_add,
      ← yearLengths, ih, Int.natCast_succ, ← Int.add_assoc, daysBeforeYear_succ]
    rfl

theorem yearLengths_getElem? {n i length : Nat} (h : (yearLengths n)[i]? = some length) :
    i < n ∧ length = yearLength (1970 + i) := by
  rw [yearLengths, List.getElem?_map] at h
  obtain ⟨j, hj, rfl⟩ := Option.map_eq_some_iff.mp h
  obtain ⟨hlt, rfl⟩ := List.getElem?_eq_some_iff.mp hj
  rw [List.length_range] at hlt
  exact ⟨hlt, by rw [List.getElem_range]⟩

theorem sum_monthLengths (year : Int) : (monthLengths (isLeap year)).sum = yearLength year := by
  unfold yearLength
  cases isLeap year <;> rfl

theorem locate_year (days : Nat) : ∃ i rest, locate (yearLengths (days / 365 + 1)) days = (i, rest) ∧
    (days : Int) = daysBeforeYear (1970 + i) + rest ∧ rest < yearLength (1970 + i) := by
  have hlong : 365 * (days / 365 + 1 : Nat) ≤ daysBeforeYear (1970 + (days / 365 + 1 : Nat)) := by
    unfold daysBeforeYear
    omega
  have hlt : days < (yearLengths (days / 365 + 1)).sum := by
    have hsum := sum_yearLengths (days / 365 + 1)
    omega
  obtain ⟨length, hlength, hrest⟩ := locate_lt hlt
  have hsum := locate_sum (yearLengths (days / 365 + 1)) days
  generalize locate (yearLengths (days / 365 + 1)) days = p at hlength hrest hsum
  obtain ⟨i, rest⟩ := p
  obtain ⟨hi, rfl⟩ := yearLengths_getElem? hlength
  have htake : (yearLengths (days / 365 + 1)).take i = yearLengths i := by
    rw [yearLengths, ← List.map_take, List.take_range, Nat.min_eq_left (Nat.le_of_lt hi), yearLengths]
  rw [htake] at hsum
  have hbefore := sum_yearLengths i
  exact ⟨i, rest, rfl, by omega, hrest⟩

theorem dateOf_spec (days : Nat) :
    (daysBeforeYear (dateOf days).year ≤ days ∧ (days : Int) < daysBeforeYear ((dateOf days).year + 1)) ∧
      (days : Int) + 1 = daysBeforeYear (dateOf days).year +
        daysBeforeMonth (isLeap (dateOf days).year) (dateOf days).month + (dateOf days).day ∧
      (dateOf days).month < 12 ∧ 0 < (dateOf days).day := by
  obtain ⟨i, rest, hyear, hdays, hrest⟩ := locate_year days
  obtain ⟨length, hlength, hday⟩ := locate_lt (hrest.trans_eq (sum_monthLengths (1970 + i)).symm)
  have hsum := locate_sum (monthLengths (isLeap (1970 + i))) rest
  have hmonth : (locate (monthLengths (isLeap (1970 + i))) rest).1 < 12 :=
    (List.getElem?_eq_some_iff.mp hlength).1
  have hdate : dateOf days = ⟨1970 + i, (locate (monthLengths (isLeap (1970 + i))) rest).1,
      (locate (monthLengths (isLeap (1970 + i))) rest).2 + 1⟩ := by
    rw [dateOf, hyear]
  rw [hdate]
  dsimp only
  rw [daysBeforeYear_succ, daysBeforeMonth]
  exact ⟨⟨by omega, by omega⟩, by omega, hmonth, Nat.succ_pos _⟩

end Dates

end TsunamiUdp.Library
