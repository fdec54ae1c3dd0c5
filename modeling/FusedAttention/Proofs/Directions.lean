import Mathlib
import FusedAttention.Proofs.Attention
import FusedAttention.Proofs.References

/-! Tensors of real numbers, and the inputs of attention, as points of a space: inner products, and lines
through a point in the direction of another one. -/
namespace FusedAttention

open Finset

/-! ### Arithmetic -/

/-- How a setting of a launch is read as a real number. -/
class RealReading where
  read : Float32 → ℝ

/-- The reals, with the exponential and the logarithm of analysis. -/
noncomputable instance [RealReading] : ScalarLog ℝ where
  infinity := 0
  exp := Real.exp
  isZero x := decide (x = 0)
  ofFloat := RealReading.read
  log := Real.log
  max := max

/-- The numbers of a series of runs of one length, run by run. -/
theorem sum_runs {β : Type} [AddCommMonoid β] (count length : ℕ) (f : ℕ → β) :
    ∑ p ∈ range (count * length), f p =
      ∑ q ∈ range count, ∑ p ∈ range length, f (q * length + p) := by
  induction count with
  | zero => simp
  | succ count ih => rw [Nat.succ_mul, sum_range_add, ih, sum_range_succ]

/-- Sums over two coordinates agree if their terms do. -/
theorem sum_congr_range {β : Type} [AddCommMonoid β] {l n : ℕ} {f g : ℕ → ℕ → β}
    (hSame : ∀ a < l, ∀ b < n, f a b = g a b) :
    ∑ a ∈ range l, ∑ b ∈ range n, f a b = ∑ a ∈ range l, ∑ b ∈ range n, g a b := by
  apply sum_congr rfl
  intro a ha
  apply sum_congr rfl
  intro b hb
  exact hSame a (mem_range.mp ha) b (mem_range.mp hb)

namespace Tensor

variable {x y : Tensor ℝ} {l n m k a b c d : ℕ}

/-! ### Inner products -/

/-- The sum of the products of the entries at the same position. -/
noncomputable def inner (x y : Tensor ℝ) : ℝ :=
  ∑ p ∈ range (extent x.dims), x.at1 p * y.at1 p

theorem at4_eq {α : Type} [Zero α] {x : Tensor α} (hx : x.dims = [l, n, m, k]) (a b c d : ℕ) :
    x.at4 a b c d = x.at1 (((a * n + b) * m + c) * k + d) := by
  rw [at4, hx]

theorem inner_eq2 (hx : x.dims = [l, n]) :
    x.inner y = ∑ a ∈ range l, ∑ b ∈ range n, x.at1 (a * n + b) * y.at1 (a * n + b) := by
  have hExtent : extent x.dims = l * n := by simp [hx, extent]
  rw [inner, hExtent, sum_runs]

theorem inner_eq4 (hx : x.dims = [l, n, m, k]) (hy : y.dims = [l, n, m, k]) :
    x.inner y = ∑ a ∈ range l, ∑ b ∈ range n, ∑ c ∈ range m, ∑ d ∈ range k,
      x.at4 a b c d * y.at4 a b c d := by
  have hExtent : extent x.dims = l * n * m * k := by simp [hx, extent, Nat.mul_assoc]
  simp only [at4_eq hx, at4_eq hy]
  rw [inner, hExtent, sum_runs, sum_runs, sum_runs]

/-- The inner product of tensors of rows, unit by unit. -/
theorem inner_rows (hx : x.dims = [l, n, m, k]) (hy : y.dims = [l, n, m, k]) :
    x.inner y = ∑ a ∈ range l, ∑ c ∈ range m, ∑ b ∈ range n, ∑ d ∈ range k,
      x.at4 a b c d * y.at4 a b c d := by
  rw [inner_eq4 hx hy]
  exact sum_congr rfl fun a _ => sum_comm

/-! ### Lines -/

/-- The point at `t` on the line through `x` in the direction `d`. -/
noncomputable def along (x d : Tensor ℝ) (t : ℝ) : Tensor ℝ :=
  .ofFn x.dims fun p => x.at1 p + t * d.at1 p

@[simp] theorem along_zero (x y : Tensor ℝ) : x.along y 0 = x := by
  obtain ⟨dims, data, hSize⟩ := x
  simp only [along, ofFn, at1, zero_mul, add_zero, mk.injEq, true_and]
  apply Array.ext
  · simp [hSize]
  · intro p _ hp
    simp [hp]

/-- An entry of a point moves as fast as the entry of the direction says. -/
theorem hasDerivAt_at1_along {p : ℕ} (hp : p < extent x.dims) (y : Tensor ℝ) (t : ℝ) :
    HasDerivAt (fun t => (x.along y t).at1 p) (y.at1 p) t := by
  have hEntry : ∀ t, (x.along y t).at1 p = x.at1 p + t * y.at1 p := fun t => at1_ofFn _ hp
  simp only [hEntry]
  simpa using ((hasDerivAt_id t).mul_const (y.at1 p)).const_add (x.at1 p)

theorem hasDerivAt_at4_along (hx : x.dims = [l, n, m, k]) (hy : y.dims = [l, n, m, k]) (ha : a < l)
    (hb : b < n) (hc : c < m) (hd : d < k) (t : ℝ) :
    HasDerivAt (fun t => (x.along y t).at4 a b c d) (y.at4 a b c d) t := by
  have hDims : ∀ t, (x.along y t).dims = [l, n, m, k] := fun _ => hx
  simp only [fun t => at4_eq (hDims t), at4_eq hy]
  apply hasDerivAt_at1_along
  rw [hx]
  exact place_lt ha hb hc hd

end Tensor

/-! ### Inputs of attention -/

/-- A bias moves where there is a direction for it. -/
noncomputable def biasAlong (bias direction : Option (Tensor ℝ)) (t : ℝ) : Option (Tensor ℝ) :=
  bias.map fun bias => direction.elim bias fun d => bias.along d t

/-- The inner product of the gradient of a bias with a direction of the bias, zero where one of them
is missing. -/
noncomputable def biasPairing : Option (Tensor ℝ) → Option (Tensor ℝ) → ℝ
  | some grad, some d => grad.inner d
  | _, _ => 0

/-- The point at `t` on the line through all inputs. -/
noncomputable def AttentionInputs.along (x d : AttentionInputs ℝ) (t : ℝ) : AttentionInputs ℝ where
  q := x.q.along d.q t
  k := x.k.along d.k t
  v := x.v.along d.v t
  biases :=
    { keyMask := biasAlong x.biases.keyMask d.biases.keyMask t
      pairBias := biasAlong x.biases.pairBias d.biases.pairBias t }

/-- The sum of the inner products of all gradients with a direction of the inputs. -/
noncomputable def Outputs.pairing (outputs : Outputs (Tensor ℝ)) (d : AttentionInputs ℝ) : ℝ :=
  outputs.grads.gradQ.inner d.q + outputs.grads.gradK.inner d.k + outputs.grads.gradV.inner d.v +
    biasPairing outputs.biasGrads.keyMask d.biases.keyMask +
    biasPairing outputs.biasGrads.pairBias d.biases.pairBias

/-- What a bias adds to a score, nothing if there is none. -/
noncomputable def biasEntry (bias : Option (Tensor ℝ)) (p : ℕ) : ℝ :=
  bias.elim 0 fun bias => bias.at1 p

theorem biasAlong_eq_some {bias direction : Option (Tensor ℝ)} {t : ℝ} {moved : Tensor ℝ}
    (hMoved : biasAlong bias direction t = some moved) :
    ∃ start, bias = some start ∧ moved.dims = start.dims := by
  obtain ⟨start, hStart, rfl⟩ := Option.map_eq_some_iff.mp hMoved
  cases direction with
  | none => exact ⟨start, hStart, rfl⟩
  | some d => exact ⟨start, hStart, rfl⟩

@[simp]
theorem biasAlong_zero (bias direction : Option (Tensor ℝ)) : biasAlong bias direction 0 = bias := by
  cases bias with
  | none => rfl
  | some bias =>
      cases direction with
      | none => rfl
      | some d => exact congrArg some (bias.along_zero d)

/-- An entry of a bias moves as its direction says, if there is a bias that can move. -/
theorem hasDerivAt_biasEntry {bias direction : Option (Tensor ℝ)} {p : ℕ}
    (hIn : ∀ start, bias = some start → p < extent start.dims) (t : ℝ) :
    HasDerivAt (fun t => biasEntry (biasAlong bias direction t) p)
      (biasEntry (bias.bind fun _ => direction) p) t := by
  cases bias with
  | none => exact hasDerivAt_const t (0 : ℝ)
  | some start =>
      cases direction with
      | none => exact hasDerivAt_const t (start.at1 p)
      | some d => exact Tensor.hasDerivAt_at1_along (hIn start rfl) d t

namespace AttentionInputs

variable {x d : AttentionInputs ℝ} {s : Shape}

theorem HasDims.along (hx : x.HasDims s) (d : AttentionInputs ℝ) (t : ℝ) : (x.along d t).HasDims s where
  q := hx.q
  k := hx.k
  v := hx.v
  bias kind moved hMoved := by
    cases kind with
    | keyMask =>
        obtain ⟨start, hStart, hDims⟩ := biasAlong_eq_some hMoved
        rw [hDims, hx.bias .keyMask start hStart]
    | pairBias =>
        obtain ⟨start, hStart, hDims⟩ := biasAlong_eq_some hMoved
        rw [hDims, hx.bias .pairBias start hStart]

theorem Proper.along (hx : x.Proper s) (d : AttentionInputs ℝ) (t : ℝ) : (x.along d t).Proper s where
  toHasDims := hx.toHasDims.along d t
  extents := hx.extents
  grouped _ hMoved := by
    obtain ⟨start, hStart, -⟩ := biasAlong_eq_some hMoved
    exact hx.grouped start hStart
  ungrouped hNone := hx.ungrouped (Option.map_eq_none_iff.mp hNone)

@[simp] theorem along_zero (x d : AttentionInputs ℝ) : x.along d 0 = x := by
  obtain ⟨q, k, v, biases⟩ := x
  simp only [along, Tensor.along_zero, biasAlong_zero]

end AttentionInputs

end FusedAttention
