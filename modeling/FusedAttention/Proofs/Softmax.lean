import Mathlib

/-! Rows of a softmax over the reals: the log-sum-exp, the weights, and the derivative of a weighted
mean whose scores and terms move. -/
namespace FusedAttention.Softmax

open Finset

variable {n : ℕ}

/-- The weight of one of `n` scores. -/
noncomputable def weight (n : ℕ) (score : ℕ → ℝ) (j : ℕ) : ℝ :=
  Real.exp (score j) / ∑ l ∈ range n, Real.exp (score l)

/-- The mean of terms under the weights of their scores. -/
noncomputable def mean (n : ℕ) (score term : ℕ → ℝ) : ℝ :=
  ∑ j ∈ range n, weight n score j * term j

theorem sum_exp_pos (hn : 0 < n) (score : ℕ → ℝ) : 0 < ∑ l ∈ range n, Real.exp (score l) := by
  apply sum_pos
  · intro l _
    exact Real.exp_pos _
  · exact nonempty_range_iff.mpr hn.ne'

theorem sum_weight (hn : 0 < n) (score : ℕ → ℝ) : ∑ j ∈ range n, weight n score j = 1 := by
  simp only [weight]
  rw [← sum_div, div_self (sum_exp_pos hn score).ne']

/-- Whatever is taken off the scores before the exponential cancels. -/
theorem log_sum_exp_sub (hn : 0 < n) (score : ℕ → ℝ) (shift : ℝ) :
    Real.log (∑ l ∈ range n, Real.exp (score l - shift)) + shift =
      Real.log (∑ l ∈ range n, Real.exp (score l)) := by
  have hShifted : ∑ l ∈ range n, Real.exp (score l - shift) =
      (∑ l ∈ range n, Real.exp (score l)) / Real.exp shift := by
    simp only [Real.exp_sub, sum_div]
  rw [hShifted, Real.log_div (sum_exp_pos hn score).ne' (Real.exp_ne_zero shift), Real.log_exp,
    sub_add_cancel]

theorem exp_sub_log_sum_exp (hn : 0 < n) (score : ℕ → ℝ) (j : ℕ) :
    Real.exp (score j - Real.log (∑ l ∈ range n, Real.exp (score l))) = weight n score j := by
  rw [Real.exp_sub, Real.exp_log (sum_exp_pos hn score), weight]

/-- A factor that all terms of a mean have. -/
theorem sum_weight_mul (score term : ℕ → ℝ) (y : ℝ) :
    ∑ j ∈ range n, weight n score j * y * term j = y * mean n score term := by
  rw [mean, mul_sum]
  apply sum_congr rfl
  intro j _
  ring

/-! ### Derivatives -/

section Derivatives

variable {score : ℝ → ℕ → ℝ} {score' : ℕ → ℝ} {t : ℝ}
  (hScore : ∀ j < n, HasDerivAt (fun t => score t j) (score' j) t)

include hScore

theorem hasDerivAt_sum_exp : HasDerivAt (fun t => ∑ l ∈ range n, Real.exp (score t l))
    (∑ l ∈ range n, Real.exp (score t l) * score' l) t := by
  apply HasDerivAt.fun_sum
  intro l hl
  exact (hScore l (mem_range.mp hl)).exp

/-- A weight moves with how far its score moves ahead of the mean score. -/
theorem hasDerivAt_weight {j : ℕ} (hj : j < n) : HasDerivAt (fun t => weight n (score t) j)
    (weight n (score t) j * (score' j - mean n (score t) score')) t := by
  have hTotal := (sum_exp_pos (Nat.zero_lt_of_lt hj) (score t)).ne'
  have hMean : mean n (score t) score' * ∑ l ∈ range n, Real.exp (score t l) =
      ∑ l ∈ range n, Real.exp (score t l) * score' l := by
    rw [mean, sum_mul]
    apply sum_congr rfl
    intro l _
    rw [weight, mul_right_comm, div_mul_cancel₀ _ hTotal]
  apply ((hScore j hj).exp.div (hasDerivAt_sum_exp hScore) hTotal).congr_deriv
  rw [← hMean, weight]
  field_simp

/-- A weighted mean moves with its terms, and with each score as far as the term of that score is
apart from the mean. -/
theorem hasDerivAt_mean {term : ℝ → ℕ → ℝ} {term' : ℕ → ℝ}
    (hTerm : ∀ j < n, HasDerivAt (fun t => term t j) (term' j) t) :
    HasDerivAt (fun t => mean n (score t) (term t))
      (∑ j ∈ range n, weight n (score t) j * (term t j - mean n (score t) (term t)) * score' j +
        mean n (score t) term') t := by
  have hSum : HasDerivAt (fun t => mean n (score t) (term t))
      (∑ j ∈ range n, (weight n (score t) j * (score' j - mean n (score t) score') * term t j +
        weight n (score t) j * term' j)) t := by
    apply HasDerivAt.fun_sum
    intro j hj
    exact (hasDerivAt_weight hScore (mem_range.mp hj)).mul (hTerm j (mem_range.mp hj))
  apply hSum.congr_deriv
  -- The mean score and the mean term change places.
  have hSwap : ∑ j ∈ range n, weight n (score t) j * mean n (score t) score' * term t j =
      ∑ j ∈ range n, weight n (score t) j * mean n (score t) (term t) * score' j := by
    rw [sum_weight_mul, sum_weight_mul, mul_comm]
  simp only [mul_sub, sub_mul, sum_add_distrib, sum_sub_distrib, hSwap]
  rw [mean]
  congr 2
  exact sum_congr rfl fun j _ => by ring

end Derivatives

end FusedAttention.Softmax
