import Mathlib.Data.List.Basic

/-! A sequence of which the last of every four elements is left out. -/
namespace TsunamiUdp.Library

/-- Where the `k`-th of the elements that are kept lies in the whole sequence. -/
def keptAt (k : Nat) : Nat := k + k / 3

theorem keptAt_mod (k : Nat) : keptAt k % 4 ≠ 3 := by
  unfold keptAt
  omega

theorem keptAt_succ (k : Nat) :
    keptAt (k + 1) = keptAt k + 1 ∨ (keptAt k + 1) % 4 = 3 ∧ keptAt (k + 1) = keptAt k + 2 := by
  unfold keptAt
  omega

theorem keptAt_mono {k l : Nat} (h : k ≤ l) : keptAt k ≤ keptAt l := by
  unfold keptAt
  omega

theorem keptAt_add_three (k : Nat) : keptAt (k + 3) = keptAt k + 4 := by
  unfold keptAt
  omega

theorem keptAt_add_le (k n : Nat) : keptAt (k + n) ≤ keptAt k + n + n / 3 + 1 := by
  unfold keptAt
  omega

end TsunamiUdp.Library
