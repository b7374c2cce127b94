import Mathlib.Analysis.Complex.Basic
import Mathlib.Analysis.Complex.Trigonometric
import Mathlib.Tactic.LinearCombination
import Mathlib.Tactic.NormNum

/-! The leading bits of the sines of whole numbers. The powers of one rational point near
`exp I` stay near those of `exp I`, and can be compared with integers. -/
namespace TsunamiUdp.Library
open Complex

/-! The cosine and the sine of 1, times `10 ^ 20` and rounded down. -/
def cosOne : Int := 54030230586813971740
def sinOne : Int := 84147098480789650665

def turned : Nat → Int × Int
  | 0 => (1, 0)
  | n + 1 => ((turned n).1 * cosOne - (turned n).2 * sinOne,
      (turned n).1 * sinOne + (turned n).2 * cosOne)

noncomputable def point : ℂ := ((cosOne : ℂ) + sinOne * I) / 10 ^ 20

theorem turned_eq (n : Nat) :
    (((turned n).1 : ℂ) + (turned n).2 * I) / (10 ^ 20) ^ n = point ^ n := by
  induction n with
  | zero => simp [turned]
  | succ n ih =>
    rw [pow_succ point, ← ih, point, turned]
    push_cast
    rw [pow_succ, div_mul_div_comm]
    congr 1
    linear_combination (-((turned n).2 * sinOne : ℂ)) * I_sq

theorem point_eq : point = ⟨54030230586813971740 / 10 ^ 20, 84147098480789650665 / 10 ^ 20⟩ := by
  unfold point cosOne sinOne
  apply Complex.ext <;> norm_num [Complex.div_re, Complex.div_im]

theorem point_norm : ‖point‖ ≤ 1 := by
  rw [point_eq, Complex.norm_def, Real.sqrt_le_one]
  norm_num [Complex.normSq_apply]

theorem point_near : ‖exp I - point‖ ≤ 1 / 10 ^ 19 := by
  have hseries : ‖exp I - ∑ m ∈ Finset.range 24, I ^ m / (m.factorial : ℂ)‖ ≤ 5 / 10 ^ 20 := by
    refine (exp_bound (x := I) (by simp) (n := 24) (by norm_num)).trans ?_
    rw [norm_I, one_pow, one_mul]
    norm_num [Nat.factorial]
  have hsum : ‖∑ m ∈ Finset.range 24, I ^ m / (m.factorial : ℂ) - point‖ ≤ 5 / 10 ^ 20 := by
    refine (norm_le_abs_re_add_abs_im _).trans ?_
    rw [point_eq]
    simp only [Finset.sum_range_succ, Nat.factorial, Finset.sum_range_zero, pow_succ, pow_zero,
      one_mul, I_mul_I, neg_mul, neg_neg]
    norm_num
  calc ‖exp I - point‖
      ≤ ‖exp I - ∑ m ∈ Finset.range 24, I ^ m / (m.factorial : ℂ)‖ +
          ‖∑ m ∈ Finset.range 24, I ^ m / (m.factorial : ℂ) - point‖ :=
        norm_sub_le_norm_sub_add_norm_sub _ _ _
    _ ≤ 5 / 10 ^ 20 + 5 / 10 ^ 20 := add_le_add hseries hsum
    _ = 1 / 10 ^ 19 := by norm_num

theorem powers_near (n : Nat) : ‖exp I ^ n - point ^ n‖ ≤ n / 10 ^ 19 := by
  induction n with
  | zero => simp
  | succ n ih =>
    have hunit : ‖exp I‖ = 1 := by simpa using norm_exp_ofReal_mul_I 1
    have hsplit : exp I ^ (n + 1) - point ^ (n + 1) =
        exp I * (exp I ^ n - point ^ n) + (exp I - point) * point ^ n := by ring
    calc ‖exp I ^ (n + 1) - point ^ (n + 1)‖
        ≤ ‖exp I * (exp I ^ n - point ^ n)‖ + ‖(exp I - point) * point ^ n‖ := by
          rw [hsplit]
          exact norm_add_le _ _
      _ ≤ n / 10 ^ 19 + 1 / 10 ^ 19 := by
          rw [norm_mul, norm_mul, hunit, one_mul, norm_pow]
          refine add_le_add ih ?_
          exact (mul_le_mul point_near (pow_le_one₀ (norm_nonneg _) point_norm)
            (pow_nonneg (norm_nonneg _) _) (by norm_num)).trans (mul_one _).le
      _ = ((n + 1 : Nat) : ℝ) / 10 ^ 19 := by
          push_cast
          ring

theorem sin_near (n : Nat) :
    |Real.sin n - ((turned n).2 : ℝ) / (10 ^ 20) ^ n| ≤ (n : ℝ) / 10 ^ 19 := by
  have him : Real.sin n - ((turned n).2 : ℝ) / (10 ^ 20) ^ n = (exp I ^ n - point ^ n).im := by
    have hden : ((10 : ℂ) ^ 20) ^ n = (((10 ^ 20) ^ n : ℝ) : ℂ) := by norm_cast
    rw [← exp_nat_mul, ← turned_eq, hden, sub_im, exp_im, div_ofReal_im]
    simp
  rw [him]
  exact (abs_im_le_norm _).trans (powers_near n)

/-- Between such bounds the integer test decides on the 32 bits behind the point. -/
def hasBits (n t : Nat) : Bool :=
  (1000000 * t + 1) * (10 ^ 20) ^ n ≤ 1000000 * 4294967296 * (turned n).2.natAbs &&
    1000000 * 4294967296 * (turned n).2.natAbs ≤ (1000000 * t + 999999) * (10 ^ 20) ^ n

theorem floor_sin {n t : Nat} (hn : n ≤ 1000) (h : hasBits n t = true) :
    ⌊4294967296 * |Real.sin n|⌋₊ = t := by
  obtain ⟨hlow, hhigh⟩ := Bool.and_eq_true_iff.mp h
  have hpos : (0 : ℝ) < (10 ^ 20) ^ n := by positivity
  have habs : |((turned n).2 : ℝ)| = ((turned n).2.natAbs : ℝ) := by
    rw [← Int.cast_abs, Int.abs_eq_natAbs, Int.cast_natCast]
  have hnear : |(|Real.sin n|) - ((turned n).2.natAbs : ℝ) / (10 ^ 20) ^ n| ≤ 1 / 10 ^ 16 := by
    rw [← habs, ← abs_of_pos hpos, ← abs_div]
    refine (abs_abs_sub_abs_le _ _).trans ((sin_near n).trans ?_)
    have : (n : ℝ) ≤ 1000 := by exact_mod_cast hn
    rw [div_le_div_iff₀ (by norm_num) (by norm_num)]
    linarith
  have hlow' : (1000000 * t + 1) / (1000000 * 4294967296) ≤
      ((turned n).2.natAbs : ℝ) / (10 ^ 20) ^ n := by
    rw [div_le_div_iff₀ (by norm_num) hpos, mul_comm ((turned n).2.natAbs : ℝ)]
    exact_mod_cast of_decide_eq_true hlow
  have hhigh' : ((turned n).2.natAbs : ℝ) / (10 ^ 20) ^ n ≤
      (1000000 * t + 999999) / (1000000 * 4294967296) := by
    rw [div_le_div_iff₀ hpos (by norm_num), mul_comm ((turned n).2.natAbs : ℝ)]
    exact_mod_cast of_decide_eq_true hhigh
  obtain ⟨hbelow, habove⟩ := abs_le.mp hnear
  rw [Nat.floor_eq_iff (by positivity)]
  constructor <;> linarith

end TsunamiUdp.Library
