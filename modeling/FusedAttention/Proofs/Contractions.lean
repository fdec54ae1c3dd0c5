import Mathlib
import FusedAttention.Proofs.BiasSums
import FusedAttention.Proofs.Directions

/-! Inner products of the gradients without tiles with directions of their tensors. Each of them is a
sum over all pairs of a query and a key, where the entry of the pair meets the direction once. -/
namespace FusedAttention

open Finset

/-! ### Sums over pairs -/

/-- Every row of one table with every row of another, column by column of the first. -/
theorem sum_rows (count rows cols : ℕ) (w x y : ℕ → ℕ → ℝ) :
    ∑ i ∈ range count, ∑ j ∈ range rows, w i j * ∑ c ∈ range cols, x i c * y j c =
      ∑ i ∈ range count, ∑ c ∈ range cols, (∑ j ∈ range rows, w i j * y j c) * x i c := by
  apply sum_congr rfl
  intro i _
  simp only [mul_sum, sum_mul]
  rw [sum_comm]
  apply sum_congr rfl
  intro c _
  apply sum_congr rfl
  intro j _
  ring

/-- The same, column by column of the second. -/
theorem sum_cols (count rows cols : ℕ) (w x y : ℕ → ℕ → ℝ) :
    ∑ i ∈ range count, ∑ j ∈ range rows, w i j * ∑ c ∈ range cols, x i c * y j c =
      ∑ j ∈ range rows, ∑ c ∈ range cols, (∑ i ∈ range count, w i j * x i c) * y j c := by
  rw [sum_comm]
  simp only [mul_comm (x _ _)]
  exact sum_rows rows count cols (fun j i => w i j) y x

/-- The sum over the pairs of all units. -/
noncomputable def Shape.sumPairs (s : Shape) (f : ℕ → ℕ → ℕ → ℕ → ℝ) : ℝ :=
  ∑ b ∈ range s.batch, ∑ h ∈ range s.heads, ∑ i ∈ range s.numQueries, ∑ j ∈ range s.numKeys, f b h i j

namespace Shape

variable {s : Shape} {f g : ℕ → ℕ → ℕ → ℕ → ℝ}

theorem sumPairs_congr (hSame : ∀ b < s.batch, ∀ h < s.heads, ∀ i < s.numQueries, ∀ j < s.numKeys,
    f b h i j = g b h i j) : s.sumPairs f = s.sumPairs g := by
  apply sum_congr_range
  intro b hb h hh
  apply sum_congr_range
  intro i hi j hj
  exact hSame b hb h hh i hi j hj

theorem sumPairs_add (f g : ℕ → ℕ → ℕ → ℕ → ℝ) :
    (s.sumPairs fun b h i j => f b h i j + g b h i j) = s.sumPairs f + s.sumPairs g := by
  simp only [sumPairs, sum_add_distrib]

/-- Entries that heads and queries share are summed up first. -/
theorem sumPairs_keyMask (f : ℕ → ℕ → ℕ → ℕ → ℝ) (m : ℕ → ℕ → ℝ) :
    (s.sumPairs fun b h i j => f b h i j * m b j) =
      ∑ b ∈ range s.batch, ∑ j ∈ range s.numKeys,
        (∑ h ∈ range s.heads, ∑ i ∈ range s.numQueries, f b h i j) * m b j := by
  apply sum_congr rfl
  intro b _
  simp only [sum_mul]
  rw [sum_comm (s := range s.numKeys)]
  apply sum_congr rfl
  intro h _
  exact sum_comm

/-- The batches, group by group. -/
theorem sum_groups (hGroups : s.batch % s.groupSize = 0) (f : ℕ → ℕ → ℝ) :
    ∑ b ∈ range s.batch, f b (b / s.groupSize) =
      ∑ g ∈ range s.biasGroups, ∑ n ∈ range s.groupSize, f (g * s.groupSize + n) g := by
  rw [← biasGroups_mul hGroups, sum_runs]
  apply sum_congr_range
  intro g _ n hn
  rw [(row_major hn).1]

/-- Entries that the batches of a group share are summed up first. -/
theorem sumPairs_pairBias (hGroups : s.batch % s.groupSize = 0) (f : ℕ → ℕ → ℕ → ℕ → ℝ)
    (m : ℕ → ℕ → ℕ → ℕ → ℝ) :
    (s.sumPairs fun b h i j => f b h i j * m (b / s.groupSize) h i j) =
      ∑ g ∈ range s.biasGroups, ∑ h ∈ range s.heads, ∑ i ∈ range s.numQueries, ∑ j ∈ range s.numKeys,
        (∑ n ∈ range s.groupSize, f (g * s.groupSize + n) h i j) * m g h i j := by
  have hSplit := sum_groups hGroups fun b g => ∑ h ∈ range s.heads, ∑ i ∈ range s.numQueries,
    ∑ j ∈ range s.numKeys, f b h i j * m g h i j
  rw [sumPairs, hSplit]
  simp only [sum_mul]
  apply sum_congr rfl
  intro g _
  rw [sum_comm]
  apply sum_congr rfl
  intro h _
  rw [sum_comm]
  apply sum_congr rfl
  intro i _
  exact sum_comm

end Shape

namespace Untiled

variable [RealReading] {s : Shape} {ds : Tensor ℝ}

/-! ### Gradients of rows -/

theorem inner_queryGrads (ds k : Tensor ℝ) {d : Tensor ℝ}
    (hd : d.dims = [s.batch, s.numQueries, s.heads, s.headDim]) :
    (queryGrads s ds k).inner d = s.sumPairs fun b h i j =>
      ds.at4 b h i j * ∑ c ∈ range s.headDim, d.at4 b i h c * k.at4 b j h c := by
  rw [Tensor.inner_rows rfl hd]
  apply sum_congr_range
  intro b hb h hh
  rw [sum_rows]
  apply sum_congr_range
  intro i hi c hc
  rw [queryGrads, Tensor.at4_ofFn4 _ hb hi hh hc, sum_eq]

theorem inner_keyGrads {cols : ℕ} (weights rows : Tensor ℝ) {d : Tensor ℝ}
    (hd : d.dims = [s.batch, s.numKeys, s.heads, cols]) :
    (keyGrads s cols weights rows).inner d = s.sumPairs fun b h i j =>
      weights.at4 b h i j * ∑ c ∈ range cols, rows.at4 b i h c * d.at4 b j h c := by
  rw [Tensor.inner_rows rfl hd]
  apply sum_congr_range
  intro b hb h hh
  rw [sum_cols]
  apply sum_congr_range
  intro j hj c hc
  rw [keyGrads, Tensor.at4_ofFn4 _ hb hj hh hc, sum_eq]

/-! ### Gradients of biases -/

omit [RealReading] in
/-- Where a bias has no gradient because none is wanted, it does not move either. -/
theorem biasPairing_wanted {wanted : Bool} (bias : Option (Tensor ℝ))
    {direction : Option (Tensor ℝ)} (grad : Tensor ℝ) {ds : ℕ → ℕ → ℕ → ℕ → ℝ}
    {address : ℕ → ℕ → ℕ → ℕ → ℕ} (hMoves : wanted = false → direction = none)
    (hInner : ∀ d, direction = some d → grad.inner d =
      s.sumPairs fun b h i j => ds b h i j * d.at1 (address b h i j)) :
    biasPairing (if wanted && bias.isSome then some grad else none) direction =
      s.sumPairs fun b h i j =>
        ds b h i j * biasEntry (bias.bind fun _ => direction) (address b h i j) := by
  cases bias with
  | none => simp [biasPairing, biasEntry, Shape.sumPairs]
  | some bias =>
      cases direction with
      | none => simp [biasPairing, biasEntry, Shape.sumPairs]
      | some d =>
          cases wanted with
          | false => exact absurd (hMoves rfl) nofun
          | true => exact hInner d rfl

theorem inner_keyMaskGrads (ds d : Tensor ℝ) :
    (keyMaskGrads s ds).inner d = s.sumPairs fun b h i j =>
      ds.at4 b h i j * d.at1 (BiasKind.keyMask.address s ⟨b, h⟩ i j) := by
  simp only [BiasKind.keyMask_address]
  rw [Tensor.inner_eq2 rfl, Shape.sumPairs_keyMask ds.at4 fun b j => d.at1 (b * s.numKeys + j)]
  apply sum_congr_range
  intro b hb j hj
  rw [keyMaskGrads, Tensor.at1_ofFn2 _ hb hj]
  simp only [sum_eq]

theorem inner_pairBiasGrads (hGroups : s.batch % s.groupSize = 0) (ds : Tensor ℝ) {d : Tensor ℝ}
    (hd : d.dims = BiasKind.pairBias.dims s) :
    (pairBiasGrads s ds).inner d = s.sumPairs fun b h i j =>
      ds.at4 b h i j * d.at1 (BiasKind.pairBias.address s ⟨b, h⟩ i j) := by
  simp only [BiasKind.pairBias_address, ← Tensor.at4_eq hd]
  rw [Tensor.inner_eq4 rfl hd, Shape.sumPairs_pairBias hGroups ds.at4 d.at4]
  apply sum_congr_range
  intro g hg h hh
  apply sum_congr_range
  intro i hi j hj
  rw [pairBiasGrads, Tensor.at4_ofFn4 _ hg hh hi hj, sum_eq]

end Untiled

end FusedAttention
